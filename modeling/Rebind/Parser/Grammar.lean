import Rebind.Regex.Reader
import Rebind.Value.Attributes
/-!
# Building grammars

The functions that make parsers.  Each checks its arguments when it is called and refuses what is
not a parser, a function or a text where one is needed, so that a malformed grammar shows where it
is written and not when it is run.  A new parser gets a display name that tells how it was made.
-/
namespace Rebind

/-- The shared primitive parsers, which every store holds from the start under these identities. -/
def sharedPrimitives : List (String × Behaviour Value) :=
  [("any_char", .anyChar), ("rest", .rest), ("eof", .eof), ("index", .index),
   ("line_column_index", .lineColumnIndex)]

/-- The identity of the shared parser that gives the current index. -/
def indexParser : ParserId := 3

/-- The identity of the shared parser that gives the current line and column. -/
def lineColumnParser : ParserId := 4

def Value.functionName? (v : Value) : Option String :=
  match v.content with
  | .closure _ _ _ (.named name) _ => some name
  | .behaviour b => some b.functionName
  | _ => Option.none

namespace Grammar

def define (b : Behaviour Value) (name : String) : Eval Value := do
  addParser (← (Value.behaviour b).share) (.str name)

def isCallable (v : Value) : Eval Bool := do
  match v.content with
  | .closure _ _ _ _ _ | .behaviour _ => return true
  | v => isParser v

def parserOf (function : String) (v : Value) : Eval ParserId := do
  require function "parser" v (← isParser v)
  match v with
  | .parser id => return id
  | _ => raise .wrongType

def checkCallable (function : String) (v : Value) : Eval Unit := do
  require function "function" v (← isCallable v)

def literalText (function : String) (v : Value) : Eval String := do
  match v with
  | .str s => return s
  | v => do
    require function "string" v false
    raise .wrongType

def displayName (id : ParserId) : Eval String := do
  textOf (← attributeOf (.parser id) "display_name")

/-- The name of a function as text, or a word in its place. -/
def titleOr (word : String) (f : Value) : String := f.functionName?.getD word

/-- Consumes nothing and succeeds with a value. -/
def succeed (v : Value) : Eval Value := do
  define (.succeed v) ("succeed(" ++ (← literalOf v) ++ ")")

/-- Consumes nothing and fails, expecting the description. -/
def fail (description : Value) : Eval Value := do
  let d ← literalText "fail" description
  define (.fail d) ("fail(" ++ Text.quoted d ++ ")")

def string (literal : Value) : Eval Value := do
  let s ← literalText "string" literal
  define (.string s) ("string(" ++ Text.quoted s ++ ")")

def patternOf (v : Value) : Eval Regex := do
  match v.content with
  | .pattern r => return r
  | .str s =>
    match Regex.compile? s {} with
    | some r => return r
    | Option.none => raise .badPattern
  | _ => raise .wrongType

/-- The number of a pattern's group, given by number or by name. -/
def groupOf (r : Regex) (group : Value) : Eval Nat := do
  match group with
  | .str name =>
    match r.names.lookup name with
    | some index => return index
    | Option.none => do
      require "regex" "group" group false
      raise .wrongType
  | group => do
    let n := group.toInt?.getD (-1)
    require "regex" "group" group (0 ≤ n && n ≤ r.groupCount)
    return n.toNat

/-- Matches a pattern at the current index and gives one of its groups. -/
def regex (pattern group : Value) : Eval Value := do
  let isPattern := match pattern.content with
    | .str _ | .pattern _ => true
    | _ => false
  require "regex" "regex" pattern isPattern
  let isGroup := match group with
    | .str _ | .int _ | .bool _ => true
    | _ => false
  require "regex" "group" group isGroup
  let r ← patternOf pattern
  let index ← groupOf r group
  define (.regex r index) ("regex(" ++ r.source.literal ++ ", " ++ (← literalOf group) ++ ")")

/-- Matches one item for which a predicate of the item and the environment holds. -/
def testChar (predicate description : Value) : Eval Value := do
  checkCallable "test_char" predicate
  let d ← match description, predicate.functionName? with
    | .none, some name => pure name
    | .none, Option.none => literalOf predicate
    | description, _ => textOf description
  define (.testChar predicate ("a character matching " ++ d)) ("test_char(" ++ d ++ ")")

/-- Makes a parser out of any function of a text, an index and an environment. -/
def custom (behaviour : Value) : Eval Value := do
  checkCallable "custom" behaviour
  addParser behaviour (.str ("custom(" ++ titleOr "behaviour" behaviour ++ ")"))

/-- Makes a parser out of anything.  It is shown under the given name, or else under the name of its
behaviour. -/
def ofBehaviour (behaviour name : Value) : Eval Value := do
  if ← truthy name then addParser behaviour name
  else addParser behaviour (.str (titleOr "custom" behaviour))

/-- Matches parsers one after the other; the value is the list of their values. -/
def sequence (parsers : List Value) : Eval Value := do
  let ids ← parsers.mapM (parserOf "sequence")
  define (.sequence ids) ("sequence(*" ++ toString ids.length ++ ")")

/-- The first success among parsers tried at the same index. -/
def alternative (parsers : List Value) : Eval Value := do
  if parsers.isEmpty then raise (.malformedGrammar "partser.alternative: zero alternatives")
  let ids ← parsers.mapM (parserOf "alternative")
  define (.alternative ids) ("alternative(*" ++ toString ids.length ++ ")")

/-- The count that a value stands for: a whole number, or infinity. -/
def count? : Value → Option Count
  | .int n => some (.times n)
  | .float (.infinite false) => some .unlimited
  | _ => Option.none

def countOf (v : Value) : Eval Count := do
  match count? v with
  | some c => return c
  | Option.none => do
    require "repetition" "number" v false
    raise .wrongType

/-- Matches a parser at least and at most so many times, as often as it can.  Without an upper count
the lower one serves as both. -/
def repetition (parser least most : Value) : Eval Value := do
  let most := match most with
    | .none => least
    | most => most
  let id ← parserOf "repetition" parser
  let lo ← countOf least
  let hi ← countOf most
  define (.repetition id lo hi)
    ("repetition(" ++ (← textOf least) ++ ", " ++ (← textOf most) ++ ")")

/-- Passes the value of a success through a function of the value and the environment. -/
def transform (parser function : Value) : Eval Value := do
  let id ← parserOf "transform" parser
  checkCallable "transform" function
  define (.transform id function) ("transform(" ++ titleOr "fn" function ++ ")")

/-- Matches one parser where another one does not match. -/
def exclude (allowed forbidden : Value) : Eval Value := do
  let a ← parserOf "exclude" allowed
  let f ← parserOf "exclude" forbidden
  define (.exclude a f) ("exclude(" ++ (← displayName a) ++ ", " ++ (← displayName f) ++ ")")

/-- Reports one description in place of what a parser expected. -/
def describe (parser description : Value) : Eval Value := do
  let id ← parserOf "describe" parser
  let d ← literalText "describe" description
  define (.describe id d) ("describe(" ++ Text.quoted d ++ ")")

/-- Frames a parser by a shared primitive on both sides and joins the three values to a mark. -/
def framed (function : String) (frame : ParserId) (parser : Value) : Eval Value := do
  let id ← parserOf function parser
  let inner ← sequence [.parser frame, .parser id, .parser frame]
  let inner ← parserOf function inner
  define (.mark inner) (function ++ "(" ++ (← displayName id) ++ ")")

def mark (parser : Value) : Eval Value := framed "mark" indexParser parser

/-- Wraps the value of a parser in a mark with its lines and columns. -/
def markLineColumn (parser : Value) : Eval Value :=
  framed "mark_line_column" lineColumnParser parser

/-- Runs a parser and then whichever one a function of its value and the environment returns. -/
def chain (parser decide : Value) : Eval Value := do
  let id ← parserOf "chain" parser
  checkCallable "chain" decide
  define (.chain id decide) ("chain(" ++ (← displayName id) ++ ")")

/-- Runs a parser in an environment derived from the current one. -/
def subEnvironment (parser derive : Value) : Eval Value := do
  let id ← parserOf "sub_environment" parser
  checkCallable "sub_environment" derive
  define (.subEnvironment id derive) ("sub_environment(" ++ (← displayName id) ++ ")")

/-- Runs the parser that a function of the environment returns. -/
def deferredLookup (resolve : Value) : Eval Value := do
  checkCallable "deferred_lookup" resolve
  let name ← match resolve.functionName? with
    | some name => pure name
    | Option.none => literalOf resolve
  define (.deferredLookup resolve name) ("deferred_lookup(" ++ name ++ ")")

/-- Gives a parser the behaviour and the name that another one has now.  Every parser built on it
changes with it. -/
def replace (target source : Value) : Eval Unit := do
  let t ← parserOf "replace" target
  let s ← parserOf "replace" source
  modify fun σ =>
    match σ.parser? s with
    | some state => σ.setParser t state
    | Option.none => σ

/-- A new parser with the behaviour that another one has now. -/
def clone (parser : Value) : Eval Value := do
  let id ← parserOf "clone" parser
  ofBehaviour (← attributeOf (.parser id) "behaviour") (← attributeOf (.parser id) "display_name")

/-- A trace handler that prints. -/
def makeHandler (context padIfShort onEnter onExit color : Value) : Eval Value :=
  addEcho ⟨context, padIfShort, onEnter, onExit, color, .int 0⟩

def defaultHandler : Eval Value :=
  makeHandler (.int 10) (.bool false) .none .none .none

/-- Reports every parser that is run below a parser to a handler. -/
def debug (parser handler : Value) : Eval Value := do
  let id ← parserOf "debug" parser
  let handler ← match handler with
    | .none => defaultHandler
    | handler => pure handler
  define (.debug id handler) ("debug(" ++ (← displayName id) ++ ")")

end Grammar

/-- The store that every evaluation starts from: the shared primitives and nothing else. -/
def Store.initial : Store :=
  { parsers := (sharedPrimitives.mapIdx fun i p =>
      (⟨.object i (.behaviour p.2), .str p.1⟩ : ParserState)).toArray
    nextObject := sharedPrimitives.length }

end Rebind
