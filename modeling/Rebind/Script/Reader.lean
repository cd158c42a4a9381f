import Rebind.Files.Tree
import Rebind.Json.Reader
import Rebind.Regex.Reader
import Rebind.Script.Expr
/-!
# The written form of scripts

Scripts are written in JSON.  A list is an operation with its arguments, where a last item with the
field `kw` gives arguments by name; an object is an expression of the kind that its field names; anything
else stands for itself.
-/
namespace Rebind.Script

def opWords : List (String × Op) :=
  [("string", .string), ("regex", .regex), ("fail", .fail), ("succeed", .succeed),
   ("test_char", .testChar), ("custom", .custom), ("sequence", .sequence),
   ("alternative", .alternative), ("repetition", .repetition), ("transform", .transform),
   ("exclude", .exclude), ("describe", .describe), ("mark", .mark),
   ("mark_line_column", .markLineColumn), ("chain", .chain),
   ("sub_environment", .subEnvironment), ("deferred_lookup", .deferredLookup),
   ("replace", .replace), ("clone", .clone), ("debug", .debug), ("make_handler", .makeHandler),
   ("Parser", .newParser), ("is_parser", .isParser), ("ParseResult", .newResult),
   ("LineColumn", .newLineColumn), ("Mark", .newMark), ("success", .success),
   ("failure", .failure), ("merge_over", .mergeOver), ("format_error", .formatError),
   ("format_expected", .formatExpected), ("format_got", .formatGot),
   ("FailureRenderer", .newRenderer), ("ParseError", .newParseError),
   ("line_column", .lineColumn), ("SourceText", .newSource),
   ("describe_pattern", .describePattern), ("visible", .visible), ("find_config", .findConfig),
   ("load_config", .loadConfig), ("config_for", .configFor), ("load_grammar", .loadGrammar),
   ("list", .list), ("tuple", .tuple), ("dict", .dict), ("get", .item), ("get_or", .itemOr),
   ("put", .putItem), ("add", .add), ("sub", .subtract), ("mul", .multiply), ("eq", .equal),
   ("lt", .less), ("in", .member), ("not", .negate), ("is", .same), ("upper", .upper),
   ("int", .toInt), ("len", .length), ("str", .text), ("repr", .literal), ("join", .join),
   ("slice", .slice), ("startswith", .startsWith), ("sum", .total), ("map", .mapped),
   ("do", .last), ("log", .log), ("raise", .complain), ("attr", .attribute),
   ("setattr", .setAttribute), ("call", .call), ("run", .run), ("parse", .parse),
   ("method", .method)]

def floatingOf? (s : String) : Option Floating :=
  match s with
  | "inf" => some (.infinite false)
  | "-inf" => some (.infinite true)
  | "nan" => some .undefined
  | s => match Json.parse s with
    | .ok (.int n) => some (.ofInt n)
    | .ok (.float x) => some x
    | _ => none

def textOf? : Json → Option String
  | .str s => some s
  | _ => none

/-- The title that a function is given; without one it is anonymous. -/
def titleOf (j : Json) : Title :=
  match j.field? "name", j.field? "nameless" with
  | some (.str name), _ => .named name
  | _, some (.str shown) => .nameless shown
  | _, _ => .named "<lambda>"

/-- The arguments by name at the end of an operation, apart from the others. -/
def splitKeywords (items : List Json) : List Json × List (String × Json) :=
  match items.getLast? with
  | some (.object fields) =>
    match fields.lookup "kw" with
    | some (.object keywords) => (items.dropLast, keywords)
    | _ => (items, [])
  | _ => (items, [])

/-- An operation that does not evaluate all of its arguments, or any other operation. -/
def applyWord? (word : String) (arguments : List Expr) (keywords : List (String × Expr)) :
    Option Expr :=
  match word, arguments, keywords with
  | "if", [c, a, b], [] => some (.choose c a b)
  | "and", [a, b], [] => some (.both a b)
  | "or", [a, b], [] => some (.either a b)
  | "catch", [a], [] => some (.attempt a)
  | word, arguments, keywords => do
    return .apply (← opWords.lookup word) arguments keywords

/-- The expression that a JSON value writes, if it nests no more than `depth` levels. -/
def ofJson? : Nat → Json → Option Expr
  | 0, _ => none
  | _ + 1, .array [] => none
  | depth + 1, .array (head :: items) => do
    let word ← textOf? head
    let (items, keywords) := splitKeywords items
    let arguments ← items.mapM (ofJson? depth)
    let keywords ← keywords.mapM fun k => do return (k.1, ← ofJson? depth k.2)
    applyWord? word arguments keywords
  | depth + 1, .object fields => do
    let j : Json := .object fields
    if let some (.str name) := j.field? "ref" then return .reference name
    if let some data := j.field? "lit" then return .plain data
    if let some (.array parameters) := j.field? "lambda" then
      let body ← ofJson? depth (← j.field? "body")
      return .function (← parameters.mapM textOf?) body (titleOf j)
    if let some (.str digits) := j.field? "int" then
      match Json.parse digits with
      | .ok n => return .plain n
      | .error _ => none
    if let some (.str text) := j.field? "float" then
      return .plain (.float (← floatingOf? text))
    if let some (.str source) := j.field? "re" then
      let letters ← match j.field? "flags" with
        | some flags => textOf? flags
        | none => some ""
      return .pattern source (letters.toList.foldl (Regex.setFlag true) {})
    if let some (.str text) := j.field? "path" then return .path text
    if let some (.array items) := j.field? "set" then
      return .set (← items.mapM (ofJson? depth))
    if let some (.object methods) := j.field? "handler" then
      return .handler (← methods.mapM fun k => do return (k.1, ← ofJson? depth k.2))
    none
  | _ + 1, data => some (.plain data)

def readDepth : Nat := 10000

def read? (j : Json) : Option Expr := ofJson? readDepth j

/-- The definitions of a grammar, as a list of names and expressions. -/
def definitions? (j : Json) : Option (List (String × Expr)) := do
  let .array pairs := j | none
  pairs.mapM fun pair => do
    let .array [.str name, body] := pair | none
    return (name, ← read? body)

/-- The definitions that a text writes; a text that writes none defines nothing. -/
def definitionsIn (text : String) : List (String × Expr) :=
  match Json.parse text with
  | .ok j => (definitions? j).getD []
  | .error _ => []

/-- The content of a file: text, or the definitions of a grammar. -/
def content? (j : Json) : Option FileContent :=
  match j with
  | .str s => some (.text s)
  | j => do return .grammar (← definitions? (← j.field? "grammar"))

end Rebind.Script
