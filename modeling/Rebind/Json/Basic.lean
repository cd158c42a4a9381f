import Rebind.Number.Shortest
import Rebind.Text.Hex
/-!
# JSON values

Values with the fields of an object in the order in which they were written, whole numbers apart
from fractions, and their text.
-/
namespace Rebind

/-- A JSON value. -/
inductive Json where
  | null
  | bool (b : Bool)
  | int (n : Int)
  | float (x : Floating)
  | str (s : String)
  | array (items : List Json)
  | object (fields : List (String × Json))
  deriving Inhabited

namespace Json

/-- The value of a field, if the value is an object that has it. -/
def field? (name : String) : Json → Option Json
  | .object fields => fields.lookup name
  | _ => none

/-- Sets a field; one that exists keeps its place. -/
def setField (name : String) (value : Json) : List (String × Json) → List (String × Json)
  | [] => [(name, value)]
  | (n, v) :: rest => if n = name then (n, value) :: rest else (n, v) :: setField name value rest

def escapeChar (c : Char) : List Char :=
  if c = '"' then ['\\', '"']
  else if c = '\\' then ['\\', '\\']
  else if c = '\n' then ['\\', 'n']
  else if c = '\r' then ['\\', 'r']
  else if c = '\t' then ['\\', 't']
  else if c = '\x08' then ['\\', 'b']
  else if c = '\x0c' then ['\\', 'f']
  else if c.toNat < 0x20 then '\\' :: 'u' :: Hex.digits 4 c.toNat
  else [c]

def quoted (s : String) : String :=
  String.ofList ('"' :: s.toList.flatMap escapeChar ++ ['"'])

/-- The text of a fraction, with words for the special numbers. -/
def floatText : Floating → String
  | .finite x => (Floating.finite x).text
  | .infinite negative => if negative then "-Infinity" else "Infinity"
  | .undefined => "NaN"

/-- What stands between the items of a list or an object and after the name of a field. -/
structure Separators where
  item : String
  name : String

def spaced : Separators := ⟨", ", ": "⟩

def compact : Separators := ⟨",", ":"⟩

mutual

def render (s : Separators) : Json → String
  | .null => "null"
  | .bool b => if b then "true" else "false"
  | .int n => toString n
  | .float x => floatText x
  | .str t => quoted t
  | .array items => "[" ++ s.item.intercalate (renderAll s items) ++ "]"
  | .object fields => "\x7b" ++ s.item.intercalate (renderFields s fields) ++ "\x7d"

def renderAll (s : Separators) : List Json → List String
  | [] => []
  | v :: rest => render s v :: renderAll s rest

def renderFields (s : Separators) : List (String × Json) → List String
  | [] => []
  | (n, v) :: rest => (quoted n ++ s.name ++ render s v) :: renderFields s rest

end

end Json

end Rebind
