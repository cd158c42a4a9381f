import Rebind.Value.Datum
/-!
# Values as JSON

Which values JSON can write, and how.  Strictly only plain data can be written; leniently a record
is written as an object, and anything else as the text of its literal.
-/
namespace Rebind.Datum

/-- What happens to values that JSON has no notation for. -/
inductive Leniency where
  /-- They are refused. -/
  | strict
  /-- Records become objects and everything else becomes text. -/
  | lenient
  /-- As `lenient`, inside a record: a record is copied with its parts, and an error that carries a
  result cannot be copied. -/
  | copied
  deriving DecidableEq, Repr

def keyName? : Datum → Option String
  | .str s => some s
  | .none => some "null"
  | .bool b => some (if b then "true" else "false")
  | .int n => some (toString n)
  | .float x => some (Json.floatText x)
  | _ => Option.none

mutual

def toJson (how : Leniency) : Datum → Except Cause Json
  | .none => .ok .null
  | .bool b => .ok (.bool b)
  | .int n => .ok (.int n)
  | .float x => .ok (.float x)
  | .str s => .ok (.str s)
  | .list items | .tuple items => do return .array (← toJsonAll how items)
  | .dict entries => do return .object (← toJsonEntries how entries)
  | .again _ => .error .badValue
  | .result a b c =>
    if how = .strict then .error .wrongType
    else do
      return .object [("status", ← toJson .copied a), ("index", ← toJson .copied b),
        ("value", ← toJson .copied c)]
  | .mark a b c =>
    if how = .strict then .error .wrongType
    else do
      return .object [("start", ← toJson .copied a), ("value", ← toJson .copied b),
        ("end", ← toJson .copied c)]
  | .lineColumn a b c =>
    if how = .strict then .error .wrongType
    else do
      return .object [("offset", ← toJson .copied a), ("line", ← toJson .copied b),
        ("column", ← toJson .copied c)]
  | .settings a b c d e =>
    if how = .strict then .error .wrongType
    else do
      let trace := .object [("context", ← toJson .copied a), ("pad_if_short", ← toJson .copied b),
        ("color", ← toJson .copied c)]
      let errors := .object [("context", ← toJson .copied d), ("color", ← toJson .copied e)]
      return .object [("trace", trace), ("errors", errors)]
  | d =>
    match how, d with
    | .strict, _ => .error .wrongType
    | .copied, .mismatch _ _ _ _ _ => .error .wrongType
    | _, d => .ok (.str d.literal)

def toJsonAll (how : Leniency) : List Datum → Except Cause (List Json)
  | [] => .ok []
  | d :: rest => do return (← toJson how d) :: (← toJsonAll how rest)

def toJsonEntries (how : Leniency) : List (Datum × Datum) → Except Cause (List (String × Json))
  | [] => .ok []
  | (k, v) :: rest =>
    match keyName? k with
    | Option.none => .error .wrongType
    | some name => do return (name, ← toJson how v) :: (← toJsonEntries how rest)

end

end Rebind.Datum
