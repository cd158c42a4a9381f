import Rebind.Text.Lines
import Rebind.Value.Operations
/-!
# Positions in a source

Offsets as lines and columns, both counted from one.
-/
namespace Rebind

/-- The line and the column of an offset: one more than the newlines before it, and one more than
the characters since the last of them. -/
def Text.position (cs : List Char) (offset : Option Int) : Nat × Nat :=
  let before := splitLines (Slice.between cs none offset)
  (before.length, (before.getLast?.getD []).length + 1)

/-- A line of a source by its number, or nothing if there is no such line. -/
def Text.lineAt (lines : List String) (n : Int) : String :=
  if 1 ≤ n then (lines[(n - 1).toNat]?).getD "" else ""

def lineColumnOf (text offset : Value) : Eval Value := do
  match ← view text with
  | .str s =>
    let bound ← boundOf offset
    let (line, column) := Text.position s.toList bound
    return .lineColumn offset (.int line) (.int column)
  | other =>
    let _ ← sliceOf other .none offset
    raise .missingAttribute

/-- The line and the column that a position record shows between a colon. -/
def placeOf (text offset : Value) : Eval (Nat × Nat) := do
  match ← lineColumnOf text offset with
  | .lineColumn _ (.int line) (.int column) => return (line.toNat, column.toNat)
  | _ => raise .missingAttribute

def newSource (text name : Value) : Eval Value := do
  match ← view text with
  | .str s => return .source s name
  | _ => raise .missingAttribute

def lineAtOf (text : String) (n : Value) : Eval Value := do
  if ← atMost (.int 1) n then
    let lines := Text.lines text
    if ← atMost n (.int lines.length) then
      return .str (Text.lineAt lines (← offsetOf n))
  return .str ""

end Rebind
