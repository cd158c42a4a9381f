import Rebind.Parser.Run
import Rebind.Script.Signature
/-!
# Operations on data

What the operations of a script that only handle data do with their arguments.
-/
namespace Rebind.Script

def lastOf (values : List Value) : Value := values.getLast?.getD .none

def dictOf : List Value → List (Value × Value) → Eval Value
  | k :: v :: rest, entries => do
    checkKey k
    dictOf rest (← withEntry k v entries)
  | _, entries => return .dict entries

def setOf : List Value → List Value → Eval Value
  | [], items => return .set items
  | v :: rest, items => do
    checkKey v
    if ← anyEqual v items then setOf rest items else setOf rest (items ++ [v])

/-- The value under a key, or another one. -/
def itemOr (v k other : Value) : Eval Value := do
  match ← view v with
  | .dict entries => do
    checkKey k
    return (← entryOf k entries).getD other
  | _ => raise .missingAttribute

/-- The position of an offset in a sequence of `size` items. -/
def indexIn (size : Nat) (n : Int) : Eval Nat :=
  let place := if n < 0 then n + size else n
  if 0 ≤ place ∧ place < size then pure place.toNat else raise .outOfRange

/-- Sets an item of a list or the value under a key, for everyone who holds the object. -/
def putItem (v k w : Value) : Eval Value := do
  match v, ← view v with
  | .object id _, .list items => do
    let n ← offsetOf k
    let i ← indexIn items.length n
    edit id (.list (items.set i w))
    return w
  | .object id _, .dict entries => do
    checkKey k
    edit id (.dict (← withEntry k w entries))
    return w
  | _, _ => raise .wrongType

def upperOf (v : Value) : Eval Value := do
  match ← view v with
  | .str s => return .str s.toUpper
  | _ => raise .missingAttribute

def joinOf (between v : Value) : Eval Value := do
  match ← view between with
  | .str s => return .str (← joinWith s v)
  | _ => raise .missingAttribute

/-- Whether a text starts with another one, or with one of several. -/
def startsWithOf (v front : Value) : Eval Value := do
  match ← view v with
  | .str s =>
    let starts := fun (w : Value) => match w with
      | .str t => pure (t.toList.isPrefixOf s.toList)
      | _ => (raise .wrongType : Eval Bool)
    match ← view front with
    | .str t => return .bool (t.toList.isPrefixOf s.toList)
    | .tuple options => return .bool ((← options.mapM starts).any id)
    | _ => raise .wrongType
  | _ => raise .missingAttribute

def complaintOf (v : Value) : Eval Complaint := do
  match ← textOf v with
  | "ValueError" => return .badValue
  | "KeyError" => return .missingKey
  | "ZeroDivisionError" => return .divisionByZero
  | "RuntimeError" => return .runtime
  | "SystemExit" => return .systemExit
  | "KeyboardInterrupt" => return .keyboardInterrupt
  | "GeneratorExit" => return .generatorExit
  | _ => raise .wrongType

/-- Keeps what a value shows now, for whoever reads the log. -/
def logValue (v : Value) : Eval Value := do
  let d ← shown v
  modify fun σ => { σ with logged := σ.logged ++ [d] }
  return v

def dataOp (op : Op) (arguments : List Value) : Eval Value := do
  match op, arguments with
  | .list, items => return .list items
  | .tuple, items => return .tuple items
  | .dict, items => dictOf items []
  | .item, [v, k] => itemOf v k
  | .itemOr, [v, k, other] => itemOr v k other
  | .putItem, [v, k, w] => putItem v k w
  | .add, [a, b] => addTo a b
  | .subtract, [a, b] => subtractFrom a b
  | .multiply, [a, b] => multiplyBy a b
  | .equal, [a, b] => return .bool (← equalTo a b)
  | .less, [a, b] => return .bool (← lessThan a b)
  | .member, [a, b] => return .bool (← memberOf a b)
  | .negate, [a] => return .bool (!(← truthy a))
  | .same, [a, b] => return .bool (← sameAs a b)
  | .upper, [v] => upperOf v
  | .toInt, [v] => return .int (← toWhole v)
  | .length, [v] => return .int (← lengthOf v)
  | .text, [v] => return .str (← textOf v)
  | .literal, [v] => return .str (← literalOf v)
  | .join, [between, v] => joinOf between v
  | .slice, [v, lo, hi] => sliceOf v lo hi
  | .startsWith, [v, front] => startsWithOf v front
  | .total, [v] => do totalOf (← itemsOf v)
  | .last, values => return lastOf values
  | .log, [v] => logValue v
  | .complain, [kind, message] => do raise (.complaint (← complaintOf kind) (← textOf message))
  | .attribute, [v, .str name] => attributeOf v name
  | .setAttribute, [v, .str name, w] => do
    setAttributeOf v name w
    return w
  | _, _ => raise .wrongType

end Rebind.Script
