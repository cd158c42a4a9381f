import Rebind.Cause
import Rebind.Json.Basic
import Rebind.Regex.Syntax
import Rebind.Text.Quoted
/-!
# Data as seen from outside

A `Datum` is what a value shows at one moment: contents are filled in, parsers stand under their
display name, functions under theirs.  Printing, comparing and writing as JSON work on it.
-/
namespace Rebind

/-- What a value shows. -/
inductive Datum where
  | none
  | bool (b : Bool)
  | int (n : Int)
  | float (x : Floating)
  | str (s : String)
  | list (items : List Datum)
  | tuple (items : List Datum)
  | dict (entries : List (Datum × Datum))
  | set (items : List Datum)
  /-- A parser: its display name, and the text of that name. -/
  | parser (id : Nat) (name : Datum) (shown : String)
  /-- A function: its name if it has one, and how it is shown. -/
  | function (identity : Option Nat) (name : Option String) (shown : String)
  | builtin (identity : Option Nat) (name : String)
  | result (status index value : Datum)
  | mark (start value stop : Datum)
  | lineColumn (offset line column : Datum)
  | pattern (r : Regex)
  | path (text : String)
  | moment (kind : String)
  | handler (identity : Option Nat)
  | echo (id : Nat) (depth : Datum)
  | settings (traceContext padIfShort traceColor errorContext errorColor : Datum)
  | source (identity : Option Nat) (name : Datum) (lines : List String)
  | renderer (identity : Option Nat)
  | error (identity : Option Nat) (cause : Cause)
  | mismatch (identity : Option Nat) (index expected name : Datum) (message : String)
  /-- A part of itself, and what stands in its place. -/
  | again (shown : String)
  deriving Inhabited

namespace Datum

/-- Whole numbers and fractions, a truth value counting as `0` or `1`. -/
def number? : Datum → Option (Int ⊕ Floating)
  | .bool b => some (.inl (if b then 1 else 0))
  | .int n => some (.inl n)
  | .float x => some (.inr x)
  | _ => .none

def numberEqual : Int ⊕ Floating → Int ⊕ Floating → Bool
  | .inl a, .inl b => a = b
  | .inl a, .inr b => (Floating.ofInt a).toFloat == b.toFloat
  | .inr a, .inl b => a.toFloat == (Floating.ofInt b).toFloat
  | .inr a, .inr b => a.toFloat == b.toFloat

mutual

/-- Equality of data.  Numbers are compared by value, dictionaries without regard to order, parsers
and functions by identity. -/
def equal : Datum → Datum → Bool
  | .none, .none => true
  | .str a, .str b => a = b
  | .list a, .list b => equalAll a b
  | .tuple a, .tuple b => equalAll a b
  | .dict a, .dict b => a.length = b.length && entriesIn a b
  | .set a, .set b => a.length = b.length && membersIn a b
  | .parser a _ _, .parser b _ _ => a = b
  | .function a _ _, .function b _ _ => a = b
  | .builtin a _, .builtin b _ => a = b
  | .result a b c, .result a' b' c' => equal a a' && equal b b' && equal c c'
  | .mark a b c, .mark a' b' c' => equal a a' && equal b b' && equal c c'
  | .lineColumn a b c, .lineColumn a' b' c' => equal a a' && equal b b' && equal c c'
  | .pattern a, .pattern b => a.source = b.source && a.flags = b.flags
  | .path a, .path b => a = b
  | .handler a, .handler b => a = b
  | .echo a _, .echo b _ => a = b
  | .settings a b c d e, .settings a' b' c' d' e' =>
    equal a a' && equal b b' && equal c c' && equal d d' && equal e e'
  | .source a _ _, .source b _ _ => a = b
  | .renderer a, .renderer b => a = b
  | .error a _, .error b _ => a = b
  | .mismatch a _ _ _ _, .mismatch b _ _ _ _ => a = b
  | .bool a, d => match d.number? with
    | some n => numberEqual (.inl (if a then 1 else 0)) n
    | .none => false
  | .int a, d => match d.number? with
    | some n => numberEqual (.inl a) n
    | .none => false
  | .float a, d => match d.number? with
    | some n => numberEqual (.inr a) n
    | .none => false
  | _, _ => false

def equalAll : List Datum → List Datum → Bool
  | [], [] => true
  | a :: as, b :: bs => equal a b && equalAll as bs
  | _, _ => false

def entriesIn : List (Datum × Datum) → List (Datum × Datum) → Bool
  | [], _ => true
  | (k, v) :: rest, other => other.any (fun e => equal k e.1 && equal v e.2) && entriesIn rest other

def membersIn : List Datum → List Datum → Bool
  | [], _ => true
  | a :: rest, other => other.any (equal a) && membersIn rest other

end

def numberLess : Int ⊕ Floating → Int ⊕ Floating → Bool
  | .inl a, .inl b => a < b
  | .inl a, .inr b => (Floating.ofInt a).toFloat < b.toFloat
  | .inr a, .inl b => a.toFloat < (Floating.ofInt b).toFloat
  | .inr a, .inr b => a.toFloat < b.toFloat

mutual

/-- The order of data, where it has one: numbers by value, texts and sequences item by item. -/
def less? : Datum → Datum → Option Bool
  | .str a, .str b => some (a < b)
  | .list a, .list b => lessAll? a b
  | .tuple a, .tuple b => lessAll? a b
  | a, b => do return numberLess (← a.number?) (← b.number?)

def lessAll? : List Datum → List Datum → Option Bool
  | [], bs => some !bs.isEmpty
  | _ :: _, [] => some false
  | a :: as, b :: bs => if equal a b then lessAll? as bs else less? a b

end

mutual

/-- Whether a value can be a key: nothing in it can change. -/
def isHashable : Datum → Bool
  | .list _ | .dict _ | .set _ | .settings _ _ _ _ _ => false
  | .tuple items => areHashable items
  | .result a b c => isHashable a && isHashable b && isHashable c
  | .mark a b c => isHashable a && isHashable b && isHashable c
  | .lineColumn a b c => isHashable a && isHashable b && isHashable c
  | _ => true

def areHashable : List Datum → Bool
  | [] => true
  | d :: rest => isHashable d && areHashable rest

end

def flagNames (f : Regex.Flags) : List String :=
  (if f.ignoreCase then ["re.IGNORECASE"] else []) ++ (if f.multiline then ["re.MULTILINE"] else [])
    ++ (if f.dotAll then ["re.DOTALL"] else []) ++ (if f.verbose then ["re.VERBOSE"] else [])
    ++ (if f.ascii then ["re.ASCII"] else [])

def patternLiteral (r : Regex) : String :=
  let flags := flagNames r.flags
  "re.compile(" ++ String.ofList (r.source.literal.toList.take 200)
    ++ (if flags.isEmpty then "" else ", " ++ "|".intercalate flags) ++ ")"

/-- The literal of an error that carries its wording.  A file that does not exist is told by the
number of the reason and the reason. -/
def errorLiteral (c : Cause) : String :=
  c.name ++ "(" ++ (match c, c.message? with
    | .noSuchFile _, _ => "2, " ++ Text.quoted Cause.noSuchFileReason
    | _, some m => Text.quoted m
    | _, .none => "") ++ ")"

def tupleLiteral : List String → String
  | [one] => "(" ++ one ++ ",)"
  | items => "(" ++ ", ".intercalate items ++ ")"

/-- The literal of a record from the names and literals of its fields. -/
def recordLiteral (name : String) (fields : List (String × String)) : String :=
  name ++ "(" ++ ", ".intercalate (fields.map fun f => f.1 ++ "=" ++ f.2) ++ ")"

mutual

/-- The literal of a value: what would write it inside another one. -/
def literal : Datum → String
  | .none => "None"
  | .bool b => if b then "True" else "False"
  | .int n => toString n
  | .float x => x.text
  | .str s => Text.quoted s
  | .list items => "[" ++ ", ".intercalate (literals items) ++ "]"
  | .tuple items => tupleLiteral (literals items)
  | .dict entries => "\x7b" ++ ", ".intercalate (entryLiterals entries) ++ "\x7d"
  | .set items =>
    if items.isEmpty then "set()" else "\x7b" ++ ", ".intercalate (literals items) ++ "\x7d"
  | .parser _ _ shown => "<Parser " ++ shown ++ ">"
  | .function _ _ shown => shown
  | .builtin _ name => "<function " ++ name ++ ">"
  | .result a b c =>
    recordLiteral "ParseResult" [("status", literal a), ("index", literal b), ("value", literal c)]
  | .mark a b c =>
    recordLiteral "Mark" [("start", literal a), ("value", literal b), ("end", literal c)]
  | .lineColumn a b c =>
    recordLiteral "LineColumn" [("offset", literal a), ("line", literal b), ("column", literal c)]
  | .pattern r => patternLiteral r
  | .path p => "PosixPath(" ++ Text.quoted p ++ ")"
  | .moment kind => "<" ++ kind ++ ">"
  | .handler _ => "<Handler>"
  | .echo _ _ => "<EchoHandler>"
  | .settings a b c d e =>
    recordLiteral "PartserConfig"
      [("trace", recordLiteral "TraceConfig"
        [("context", literal a), ("pad_if_short", literal b), ("color", literal c)]),
       ("errors", recordLiteral "ErrorsConfig" [("context", literal d), ("color", literal e)])]
  | .source _ _ _ => "<SourceText>"
  | .renderer _ => "<FailureRenderer>"
  | .error _ c => errorLiteral c
  | .mismatch _ _ _ _ message => "ParseError(" ++ Text.quoted message ++ ")"
  | .again shown => shown

def literals : List Datum → List String
  | [] => []
  | d :: rest => literal d :: literals rest

def entryLiterals : List (Datum × Datum) → List String
  | [] => []
  | (k, v) :: rest => (literal k ++ ": " ++ literal v) :: entryLiterals rest

end

/-- The text of a value on its own: its literal, unless it has a plainer form. -/
def text : Datum → String
  | .str s => s
  | .path p => p
  | .lineColumn _ line column => text line ++ ":" ++ text column
  | .error _ c => match c with
    | .complaint .missingKey m => Text.quoted m
    | c => c.message?.getD ""
  | .mismatch _ _ _ _ message => message
  | d => literal d

def kindName : Datum → String
  | .none => "NoneType"
  | .bool _ => "bool"
  | .int _ => "int"
  | .float _ => "float"
  | .str _ => "str"
  | .list _ | .again _ => "list"
  | .tuple _ => "tuple"
  | .dict _ => "dict"
  | .set _ => "set"
  | .parser _ _ _ => "Parser"
  | .function _ _ _ | .builtin _ _ => "function"
  | .result _ _ _ => "ParseResult"
  | .mark _ _ _ => "Mark"
  | .lineColumn _ _ _ => "LineColumn"
  | .pattern _ => "Pattern"
  | .path _ => "PosixPath"
  | .moment kind => kind
  | .handler _ => "Handler"
  | .echo _ _ => "EchoHandler"
  | .settings _ _ _ _ _ => "PartserConfig"
  | .source _ _ _ => "SourceText"
  | .renderer _ => "FailureRenderer"
  | .error _ c => c.name
  | .mismatch _ _ _ _ _ => "ParseError"

end Datum

end Rebind
