import Rebind.Value.Snapshot
/-!
# Grammar references

A grammar is named by where it is defined and under which name: `module:name` for a module that is
built in, `path:name` for a grammar file.
-/
namespace Rebind.Script

/-- The module with all shared primitives under their own names. -/
def libraryModule : String := "partser"

/-- The parts of the library that can be named by themselves. -/
def libraryParts : List String :=
  ["cli", "combinators", "config", "debug", "environment", "errors", "parser", "primitives",
   "replace", "result", "source"]

def primitivesIn (module : String) : List String :=
  if module = libraryModule || module = libraryModule ++ ".primitives" then
    ["any_char", "rest", "eof", "index", "line_column_index"]
  else if module = libraryModule ++ ".combinators" then ["index", "line_column_index"]
  else []

def moduleNames : List String :=
  libraryModule :: libraryParts.map fun p => libraryModule ++ "." ++ p

/-- Why there is no module of this name, if there is none: the shortest front part of the name that
names no module, and whether it would have to lie inside a module that holds no others. -/
def missingModule? (module : String) : Option String :=
  let parts := Text.parts '.' module
  let fronts := (List.range parts.length).map fun k => ".".intercalate (parts.take (k + 1))
  (fronts.find? fun f => !moduleNames.contains f).map fun f =>
    let outer := ".".intercalate ((Text.parts '.' f).dropLast)
    let closed := outer != "" && outer != libraryModule
    "No module named " ++ Text.quoted f
      ++ (if closed then "; " ++ Text.quoted outer ++ " is not a package" else "")

/-- Whether a grammar is defined in a file of its own and not in a built-in module. -/
def isGrammarFile (place : String) : Bool := place.endsWith ".py"

/-- Where a grammar is defined, and its name: the parts around the last colon, neither empty. -/
def splitReference? (ref : String) : Option (String × String) :=
  let back := ref.toList.reverse
  let name := (back.takeWhile (· != ':')).reverse
  let place := ((back.dropWhile (· != ':')).drop 1).reverse
  if name.isEmpty || place.isEmpty then none else some (String.ofList place, String.ofList name)

end Rebind.Script
