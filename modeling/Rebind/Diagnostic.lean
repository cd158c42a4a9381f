import Rebind.Source
import Rebind.Text.Ansi
import Rebind.Value.Attributes
/-!
# Diagnostics

What a failure says: the expected things in words, what the input holds instead, and both together
on one line or as a framed excerpt of the source with a caret under the place.
-/
namespace Rebind

/-- How much of the input a message shows, unless told otherwise. -/
def defaultContext : Int := 10

/-- The expected things in words.  A single one stands for itself. -/
def expectedOf (expected : Value) : Eval Value := do
  if (← lengthOf expected) = 1 then itemOf expected (.int 0)
  else return .str ("one of " ++ (← joinWith ", " expected))

def expectedText (expected : Value) : Eval String := do
  textOf (← expectedOf expected)

def withDots (snippet : Value) : Eval Value := do
  match ← view snippet with
  | .str s => return .str (s ++ "...")
  | .list items => return .list (items ++ [.str ".", .str ".", .str "."])
  | _ => raise .wrongType

def gotText (text index context : Value) : Eval String := do
  let size ← lengthOf text
  if ← atMost (.int size) index then return "end of input"
  let snippet ← sliceOf text index (← addTo index context)
  let more ← lessThan context (← subtractFrom (.int size) index)
  let snippet ← if more then withDots snippet else pure snippet
  return "'" ++ (← textOf snippet) ++ "'"

def errorText (text outcome context : Value) : Eval String := do
  let expected ← expectedText (← attributeOf outcome "value")
  let index ← attributeOf outcome "index"
  let place ← textOf index
  let got ← gotText text index context
  return "expected " ++ expected ++ " at character " ++ place ++ ", got " ++ got

def newMismatch (text outcome name : Value) : Eval Value := do
  return .mismatch text outcome name (← errorText text outcome (.int defaultContext))

/-- A number in a field of at least `width` characters, on its right side. -/
def rightAligned (width : Nat) (n : Nat) : String :=
  let s := toString n
  String.ofList (List.replicate (width - s.length) ' ') ++ s

/-- What a framed excerpt shows. -/
structure Excerpt where
  expected : String
  name : String
  line : Nat
  column : Nat
  sourceLine : String
  got : String

namespace Excerpt

def style (color : Bool) (parameters : String) : String :=
  if color then Ansi.code parameters else ""

def lines (color : Bool) (e : Excerpt) : List String :=
  let red := style color "1;31"
  let bold := style color "1"
  let blue := style color "1;34"
  let reset := style color "0"
  [red ++ "error" ++ reset ++ bold ++ ": expected " ++ e.expected ++ reset,
   "  " ++ blue ++ "-->" ++ reset ++ " " ++ e.name ++ ":" ++ toString e.line ++ ":" ++ toString e.column,
   "  " ++ blue ++ "     |" ++ reset,
   "  " ++ blue ++ rightAligned 4 e.line ++ " |" ++ reset ++ " " ++ e.sourceLine,
   "  " ++ blue ++ "     |" ++ reset ++ " " ++ String.ofList (List.replicate (e.column - 1) ' ')
     ++ red ++ "^" ++ reset,
   "  " ++ blue ++ "=" ++ reset ++ " note: got " ++ e.got]

def text (color : Bool) (e : Excerpt) : String := "\n".intercalate (e.lines color)

end Excerpt

def renderFailure (color context text outcome name : Value) : Eval String := do
  let lines ← match ← newSource text name with
    | .source s _ => pure (Text.lines s)
    | _ => raise .missingAttribute
  let index ← attributeOf outcome "index"
  let (line, column) ← placeOf text index
  let expected ← expectedText (← attributeOf outcome "value")
  let name ← textOf name
  let got ← gotText text index context
  let e : Excerpt := ⟨expected, name, line, column, Text.lineAt lines line, got⟩
  return e.text (← truthy color)

end Rebind
