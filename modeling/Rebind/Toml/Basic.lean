import Rebind.Number.Floating
/-!
# TOML documents

The values of a document, and the rules by which statements build it up: a table may be opened once,
a value may be set once, and what was written inline cannot be extended.
-/
namespace Rebind

/-- A value of a document. -/
inductive Toml where
  | str (s : String)
  | int (n : Int)
  | float (x : Floating)
  | bool (b : Bool)
  | moment (kind : String)
  | array (items : List Toml)
  | table (fields : List (String × Toml))
  deriving Inhabited

namespace Toml

abbrev Path := List String

def put (name : String) (value : Toml) : List (String × Toml) → List (String × Toml)
  | [] => [(name, value)]
  | (n, v) :: rest => if n = name then (n, value) :: rest else (n, v) :: put name value rest

/-- Changes the last item of a list. -/
def changeLast (change : Toml → Option Toml) : List Toml → Option (List Toml)
  | [] => none
  | [v] => do return [← change v]
  | v :: rest => do return v :: (← changeLast change rest)

/-- Changes the table under a path, opening the tables on the way.  A list of tables on the way
stands for its last table, unless `throughLists` forbids it. -/
def changeTable (throughLists : Bool)
    (change : List (String × Toml) → Option (List (String × Toml))) :
    Path → List (String × Toml) → Option (List (String × Toml))
  | [], fields => change fields
  | name :: path, fields =>
    match fields.lookup name with
    | none => do return put name (.table (← changeTable throughLists change path [])) fields
    | some (.table inner) => do
      return put name (.table (← changeTable throughLists change path inner)) fields
    | some (.array items) =>
      if throughLists then do
        let inside : Toml → Option Toml := fun v =>
          match v with
          | .table inner => do return .table (← changeTable throughLists change path inner)
          | _ => none
        return put name (.array (← changeLast inside items)) fields
      else none
    | some _ => none

/-- Sets a value that is not there yet. -/
def setNew (name : String) (value : Toml) (fields : List (String × Toml)) :
    Option (List (String × Toml)) :=
  if (fields.lookup name).isSome then none else some (put name value fields)

def addTable (name : String) (fields : List (String × Toml)) : Option (List (String × Toml)) :=
  match fields.lookup name with
  | none => some (put name (.array [.table []]) fields)
  | some (.array items) => some (put name (.array (items ++ [.table []])) fields)
  | some _ => none

/-- A document under construction: its fields, the header in force, the tables that were opened, the
tables opened by dotted keys since the last header, and the values written inline. -/
structure Draft where
  fields : List (String × Toml) := []
  header : Path := []
  opened : List Path := []
  pending : List Path := []
  inlined : List Path := []

namespace Draft

/-- Whether a path lies inside something written inline. -/
def isInline (d : Draft) (path : Path) : Bool :=
  d.inlined.any (·.isPrefixOf path)

/-- Settles the tables that dotted keys opened. -/
def settle (d : Draft) : Draft :=
  { d with opened := d.opened ++ d.pending, pending := [] }

def openTable (path : Path) (d : Draft) : Option Draft := do
  let d := d.settle
  if d.opened.contains path || d.isInline path then none
  let fields ← changeTable true some path d.fields
  return { d with fields, header := path, opened := path :: d.opened }

/-- Starts a further table of the list of tables under a header. -/
def openListed (path : Path) (d : Draft) : Option Draft := do
  let d := d.settle
  if d.isInline path then none
  let keep := fun (p : Path) => !path.isPrefixOf p
  let name ← path.getLast?
  let fields ← changeTable true (addTable name) path.dropLast d.fields
  return { d with
    fields
    header := path
    opened := path :: d.opened.filter keep
    inlined := d.inlined.filter keep }

/-- Sets a value under a dotted key, relative to the header. -/
def setValue (path : Path) (value : Toml) (d : Draft) : Option Draft := do
  let name ← path.getLast?
  let steps := (List.range (path.length - 1)).map fun i => d.header ++ path.take (i + 1)
  if steps.any d.opened.contains then none
  let parent := d.header ++ path.dropLast
  if d.isInline parent then none
  let fields ← changeTable true (setNew name value) parent d.fields
  let whole := d.header ++ path
  return { d with
    fields
    pending := d.pending ++ steps
    inlined := match value with
      | .table _ | .array _ => whole :: d.inlined
      | _ => d.inlined }

end Draft

end Toml

end Rebind
