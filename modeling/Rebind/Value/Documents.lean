import Rebind.Toml.Basic
import Rebind.Value.Basic
/-!
# Values out of documents

The values that JSON and TOML documents write: lists become lists, objects and tables become
dictionaries in the order of their fields.
-/
namespace Rebind.Value

mutual

def ofJson : Json → Value
  | .null => .none
  | .bool b => .bool b
  | .int n => .int n
  | .float x => .float x
  | .str s => .str s
  | .array items => .list (ofJsonAll items)
  | .object fields => .dict (ofJsonFields fields)

def ofJsonAll : List Json → List Value
  | [] => []
  | j :: rest => ofJson j :: ofJsonAll rest

def ofJsonFields : List (String × Json) → List (Value × Value)
  | [] => []
  | (name, j) :: rest => (.str name, ofJson j) :: ofJsonFields rest

end

mutual

def ofToml : Toml → Value
  | .str s => .str s
  | .int n => .int n
  | .float x => .float x
  | .bool b => .bool b
  | .moment kind => .moment kind
  | .array items => .list (ofTomlAll items)
  | .table fields => .dict (ofTomlFields fields)

def ofTomlAll : List Toml → List Value
  | [] => []
  | t :: rest => ofToml t :: ofTomlAll rest

def ofTomlFields : List (String × Toml) → List (Value × Value)
  | [] => []
  | (name, t) :: rest => (.str name, ofToml t) :: ofTomlFields rest

end

end Rebind.Value
