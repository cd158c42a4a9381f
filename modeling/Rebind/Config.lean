import Rebind.Toml.Reader
import Rebind.Value.Documents
import Rebind.Value.Operations
/-!
# Configuration

A configuration file sets how traces and diagnostics are shown.  The one in force is the nearest at or
above the place where the search starts; without one everything has its usual value.
-/
namespace Rebind.Config

def fileName : String := "partser.toml"

def part : String := "partser.config"

def defaults : Value := .settings (.int 10) (.bool false) .none (.int 10) (.bool true)

/-- The folder in which the search from a place starts: the folder of a file, and anything else
itself. -/
def searchFolder (t : FileTree) (start : List String) : List String :=
  if t.isFile start then start.dropLast else start

/-- The nearest configuration file at or above a folder. -/
def nearest? (t : FileTree) (folder : List String) : Option (List String) :=
  ((Path.ancestors folder).map (· ++ [fileName])).find? t.isFile

/-- Where the search starts: a path read from the working folder, or the working folder itself if
there is no path. -/
def startOf (start : Value) : Eval (List String) := do
  let t := (← get).files
  if ← truthy start then
    match ← view start with
    | .path p => if Path.isPath p then return Path.resolve t.working p else raise .badValue
    | _ => raise .missingAttribute
  else return t.working

def find (start : Value) : Eval Value := do
  let start ← startOf start
  let t := (← get).files
  let folder := searchFolder t start
  match nearest? t folder with
  | some found =>
    note part ("using " ++ Path.shown found ++ " for " ++ Path.shown start)
    return .path (Path.shown found)
  | none => raise (.noFileAbove fileName (Path.shown folder))

def readText (p : String) : Eval String := do
  if Path.isPath p then
    match (← get).files.find p with
    | .file (.text s) => return s
    | .file (.grammar _) => raise .badDocument
    | .folder => raise .isFolder
    | .blocked => raise .notFolder
    | .absent => raise (.noSuchFile p)
  else raise .badValue

/-- The settings that a table gives, each with its usual value where it is not set. -/
def tableSettings (table : Option Toml) (fields : List (String × Value)) : Eval (List Value) :=
  match table with
  | none => return fields.map (·.2)
  | some (.table found) =>
    return fields.map fun f => ((found.lookup f.1).map Value.ofToml).getD f.2
  | some _ => raise .missingAttribute

def ofDocument (document : List (String × Toml)) : Eval Value := do
  let trace ← tableSettings (document.lookup "trace")
    [("context", .int 10), ("pad_if_short", .bool false), ("color", .none)]
  let errors ← tableSettings (document.lookup "errors") [("context", .int 10), ("color", .bool true)]
  match trace, errors with
  | [a, b, c], [d, e] => return .settings a b c d e
  | _, _ => raise .missingAttribute

def pathText (p : Value) : Eval String := do
  match ← view p with
  | .path s | .str s => return s
  | _ => raise .wrongType

def load (p : Value) : Eval Value := do
  let name ← pathText p
  match Toml.parse? (← readText name) with
  | some document =>
    note part ("loaded config from " ++ name)
    ofDocument document
  | none => raise .badDocument

def isMissingFile (error : Value) : Bool :=
  match error.content with
  | .error (.noFileAbove _ _) | .error (.noSuchFile _) => true
  | _ => false

/-- The settings in force: those of the nearest configuration file, or the usual ones. -/
def inForce (start : Value) : Eval Value := fun σ =>
  match (do load (← find start) : Eval Value) σ with
  | .error (.raised error) σ =>
    if isMissingFile error then
      (do note part ("no " ++ fileName ++ " found, using defaults"); return defaults : Eval Value) σ
    else .error (.raised error) σ
  | ended => ended

end Rebind.Config
