import Rebind.Diagnostic
import Rebind.Parser.Grammar
import Rebind.Parser.Machine
import Rebind.Regex.Matcher
import Rebind.Result
/-!
# What behaviours do

One definition for each kind of behaviour, over an arbitrary machine.  A behaviour matches a prefix of
the text that starts at the index, and returns a result; children are always run through the machine,
which looks up what they do now.
-/
namespace Rebind

abbrev Runner := Value → Value → Value → Eval Value

namespace Behave

def anyChar : Runner := fun text i _ => do
  if ← atMost (.int (← lengthOf text)) i then return .failure i (.str "any character")
  let next ← addTo i (.int 1)
  return .success next (← itemOf text i)

def rest : Runner := fun text i _ => do
  let size ← lengthOf text
  return .success (.int size) (← sliceOf text i .none)

/-- Succeeds unless something is left. -/
def eof : Runner := fun text i _ => do
  if ← lessThan i (.int (← lengthOf text)) then return .failure i (.str "EOF")
  return .success i .none

def index : Runner := fun _ i _ => return .success i i

def lineColumnIndex : Runner := fun text i _ => do
  return .success i (← lineColumnOf text i)

/-- Whether a text holds a literal at an index.  Only a text can be asked. -/
def holdsAt (text : Value) (literal : String) (i : Value) : Eval Bool := do
  match ← view text with
  | .str s => do
    let bound ← boundOf i
    return Slice.hasAt s.toList literal.toList (bound.getD 0)
  | _ => raise .missingAttribute

def string (literal : String) : Runner := fun text i _ => do
  if ← holdsAt text literal i then
    return .success (← addTo i (.int literal.toList.length)) (.str literal)
  return .failure i (.str ("'" ++ literal ++ "'"))

/-- The text of a group of a match.  A group that took no part is nothing. -/
def groupOf (r : Regex) (found : Regex.Found) (group : Nat) : Eval Value :=
  if r.groupCount < group then raise .outOfRange
  else return match found.group group with
    | some cs => .ofChars cs
    | none => .none

/-- Takes what a pattern matches in the text that is left.  A pattern of bytes refuses every text. -/
def regex (r : Regex) (group : Nat) : Runner := fun text i _ => do
  match ← sliceOf text i .none with
  | .str left =>
    if r.isBytes then raise .wrongType
    else match Regex.matchStart? r left.toList with
      | some found =>
        let next ← addTo i (.int found.length)
        return .success next (← groupOf r found group)
      | none => return .failure i (.str r.shown)
  | _ => raise .wrongType

/-- Whether there is an item at the index and the predicate holds for it. -/
def accepts (m : Machine) (predicate : Value) : Value → Value → Value → Eval Bool :=
  fun text i env => do
    if ← lessThan i (.int (← lengthOf text)) then
      truthy (← m.call predicate [← itemOf text i, env])
    else return false

def testChar (m : Machine) (predicate : Value) (description : String) : Runner :=
  fun text i env => do
    if ← accepts m predicate text i env then
      let next ← addTo i (.int 1)
      return .success next (← itemOf text i)
    return .failure i (.str description)

/-- Runs parsers one after the other.  `previous` is the result of the last one, merged with those
before it. -/
def sequenceFrom (m : Machine) (text env : Value) :
    List ParserId → Value → List Value → Value → Eval Value
  | [], previous, values, i => mergeOver (.success i (.list values)) previous
  | p :: ps, previous, values, i => do
    let merged ← mergeOver (← m.run p text i env) previous
    let r ← resultOf merged
    if ← truthy r.status then sequenceFrom m text env ps merged (values ++ [r.value]) r.index
    else return merged

/-- Runs parsers one after the other and lists their values. -/
def sequence (m : Machine) (parts : List ParserId) : Runner := fun text i env =>
  sequenceFrom m text env parts .none [] i

/-- Runs parsers at the same index up to the first success. -/
def alternativeFrom (m : Machine) (text i env : Value) : List ParserId → Value → Eval Value
  | [], previous => return previous
  | p :: ps, previous => do
    let merged ← mergeOver (← m.run p text i env) previous
    let r ← resultOf merged
    if ← truthy r.status then return merged
    else alternativeFrom m text i env ps merged

def alternative (m : Machine) (choices : List ParserId) : Runner := fun text i env =>
  alternativeFrom m text i env choices .none

/-- Where the rounds of a repetition have led. -/
inductive Progress where
  /-- A round failed with this result. -/
  | failed (result : Value)
  /-- All rounds succeeded, and these values were read up to this index. -/
  | reached (index : Value) (values : List Value)

/-- The rounds that have to succeed. -/
def requiredRounds (m : Machine) (item : ParserId) (text env : Value) :
    Nat → Value → List Value → Value → Eval Progress
  | 0, _, values, i => return .reached i values
  | n + 1, previous, values, i => do
    let outcome ← m.run item text i env
    let merged ← mergeOver outcome previous
    let r ← resultOf outcome
    if ← truthy r.status then requiredRounds m item text env n merged (values ++ [r.value]) r.index
    else return .failed merged

/-- At most so many rounds that may follow, up to the first failure: whether there was one, and
where the rounds before it have led. -/
def optionalRounds (m : Machine) (item : ParserId) (text env : Value) :
    Nat → List Value → Value → Eval (Bool × Value × List Value)
  | 0, values, i => return (false, i, values)
  | n + 1, values, i => do
    let r ← resultOf (← m.run item text i env)
    if ← truthy r.status then optionalRounds m item text env n (values ++ [r.value]) r.index
    else return (true, i, values)

/-- How many rounds a count asks for beyond those already done, if their number is bounded. -/
def roundsBeyond (done : Int) : Count → Option Nat
  | .times n => some (n - done).toNat
  | .unlimited => none

/-- The rounds that may follow within the upper count.  Without one a failure has to end them. -/
def moreRounds (m : Machine) (item : ParserId) (text env : Value) (limit : Option Nat)
    (values : List Value) (i : Value) : Eval Value := do
  let (stopped, i, values) ← optionalRounds m item text env (limit.getD m.rounds) values i
  if limit.isNone && !stopped then throw .endless
  return .success i (.list values)

/-- Runs a parser again and again: first as often as it has to match, then as often as it may. -/
def repetition (m : Machine) (item : ParserId) (least most : Count) : Runner :=
  fun text i env => do
    let required := roundsBeyond 0 least
    match ← requiredRounds m item text env (required.getD m.rounds) .none [] i with
    | .failed merged => return merged
    | .reached i values =>
      match required with
      | some n => moreRounds m item text env (roundsBeyond n most) values i
      | none => throw .endless

/-- Passes the value through a function of the value and the environment. -/
def transform (m : Machine) (inner : ParserId) (function : Value) : Runner :=
  fun text i env => do
    let outcome ← m.run inner text i env
    let r ← resultOf outcome
    if ← truthy r.status then
      return .success r.index (← m.call function [← m.share r.value, env])
    return outcome

/-- Runs one parser where another one does not match. -/
def exclude (m : Machine) (allowed forbidden : ParserId) : Runner := fun text i env => do
  let f ← resultOf (← m.run forbidden text i env)
  if ← truthy f.status then
    return .failure i (.str ("something that is not '" ++ (← textOf f.value) ++ "'"))
  let outcome ← m.run allowed text i env
  let a ← resultOf outcome
  if ← truthy a.status then return outcome
  let wanted ← expectedText a.value
  let except ← expectedText f.value
  return .failure i (.str (wanted ++ " (except " ++ except ++ ")"))

/-- Puts one description in place of what was expected. -/
def describe (m : Machine) (inner : ParserId) (description : String) : Runner :=
  fun text i env => do
    let outcome ← m.run inner text i env
    let r ← resultOf outcome
    if ← truthy r.status then return outcome
    return .result r.status r.index (.list [.str description])

def threeOf (v : Value) : Eval (Value × Value × Value) := do
  match ← itemsOf v with
  | [a, b, c] => return (a, b, c)
  | _ => raise .badValue

def mark (m : Machine) (framed : ParserId) : Runner := fun text i env => do
  let outcome ← m.run framed text i env
  let r ← resultOf outcome
  if ← truthy r.status then
    let (start, value, stop) ← threeOf r.value
    return .success r.index (.mark start value stop)
  return outcome

/-- Runs a parser and then the one that a function of its value and the environment returns. -/
def chain (m : Machine) (first : ParserId) (decide : Value) : Runner := fun text i env => do
  let outcome ← m.run first text i env
  let r ← resultOf outcome
  if ← truthy r.status then
    let outcome ← m.share outcome
    let r ← resultOf outcome
    let next ← m.call decide [r.value, env]
    let name ← match decide.functionName? with
      | some name => pure name
      | none => textOf decide
    let id ← Grammar.parserOf ("chain(" ++ name ++ ")") next
    mergeOver (← m.run id text r.index env) outcome
  else return outcome

def subEnvironment (m : Machine) (inner : ParserId) (derive : Value) : Runner :=
  fun text i env => do
    let inside ← m.call derive [env]
    m.run inner text i inside

/-- Runs the parser that a function of the environment returns. -/
def deferredLookup (m : Machine) (resolve : Value) (name : String) : Runner :=
  fun text i env => do
    let found ← m.call resolve [env]
    let id ← Grammar.parserOf ("deferred_lookup(" ++ name ++ ")") found
    m.run id text i env

def pushTracer (handler : Value) : Eval Unit :=
  modify fun σ => { σ with tracers := handler :: σ.tracers }

def popTracer : Eval Unit :=
  modify fun σ => { σ with tracers := σ.tracers.drop 1 }

/-- Runs an evaluation and then another one, however the first ended. -/
def andFinally {α : Type} (body : Eval α) (last : Eval Unit) : Eval α := fun σ =>
  match body σ with
  | .ok a σ => match last σ with
    | .ok _ σ => .ok a σ
    | .error e σ => .error e σ
  | .error e σ => match last σ with
    | .ok _ σ => .error e σ
    | .error e σ => .error e σ

/-- Reports every run below a parser to a handler. -/
def debug (m : Machine) (inner : ParserId) (handler : Value) : Runner := fun text i env => do
  pushTracer handler
  andFinally (m.run inner text i env) popTracer

end Behave

def behave (m : Machine) : Behaviour Value → Runner
  | .anyChar => Behave.anyChar
  | .rest => Behave.rest
  | .eof => Behave.eof
  | .index => Behave.index
  | .lineColumnIndex => Behave.lineColumnIndex
  | .succeed v => fun _ i _ => return .success i v
  | .fail d => fun _ i _ => return .failure i (.str d)
  | .string s => Behave.string s
  | .regex r group => Behave.regex r group
  | .testChar predicate d => Behave.testChar m predicate d
  | .sequence parts => Behave.sequence m parts
  | .alternative choices => Behave.alternative m choices
  | .repetition item least most => Behave.repetition m item least most
  | .transform inner f => Behave.transform m inner f
  | .exclude allowed forbidden => Behave.exclude m allowed forbidden
  | .describe inner d => Behave.describe m inner d
  | .mark framed => Behave.mark m framed
  | .chain first decide => Behave.chain m first decide
  | .subEnvironment inner derive => Behave.subEnvironment m inner derive
  | .deferredLookup resolve name => Behave.deferredLookup m resolve name
  | .debug inner handler => Behave.debug m inner handler

end Rebind
