import Rebind.Value.Operations
/-!
# Results and the furthest failure

When an attempt comes after a failure, the two are merged: what got further wins, and failures at the
same place join what they expected, the later attempt first.
-/
namespace Rebind

/-- The result that a value is; anything else has no parts of a result. -/
def resultOf (v : Value) : Eval Result :=
  match v.result? with
  | some r => pure r
  | none => raise .missingAttribute

/-- How far a result got as a failure.  A success counts as not having failed anywhere. -/
def furthest (r : Result) : Eval Value := do
  return if ← truthy r.status then .int (-1) else r.index

/-- Merges an attempt with what came before it, if anything did. -/
def mergeOver (candidate previous : Value) : Eval Value := do
  match previous with
  | .none => return candidate
  | previous =>
    let c ← resultOf candidate
    if ← truthy c.status then return candidate
    let p ← resultOf previous
    if ← lessThan (← furthest p) c.index then return candidate
    if ← lessThan c.index p.index then return previous
    return .result (.bool false) c.index (← addTo c.value p.value)

end Rebind
