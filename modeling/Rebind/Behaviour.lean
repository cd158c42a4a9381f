import Rebind.Regex.Syntax
/-!
# Behaviours

What a built-in parser does, as data.  A behaviour names the parsers it is made of by their
identity, so giving one of them another behaviour later is seen by every parser built on it, and a
grammar may refer to itself.  Functions supplied by the user are values of the type `V`.
-/
namespace Rebind

abbrev ParserId := Nat

/-- How often something is repeated: a whole number of times, or without end. -/
inductive Count where
  | times (n : Int)
  | unlimited
  deriving DecidableEq, Repr, Inhabited

/-- What a built-in parser does with a text, an index and an environment. -/
inductive Behaviour (V : Type) where
  /-- Takes one item. -/
  | anyChar
  /-- Takes all that is left. -/
  | rest
  /-- Succeeds at the end only. -/
  | eof
  /-- Gives the current index. -/
  | index
  /-- Gives the current line and column. -/
  | lineColumnIndex
  /-- Gives a fixed value. -/
  | succeed (value : V)
  /-- Fails, expecting the description. -/
  | fail (description : String)
  /-- Takes exactly this text. -/
  | string (literal : String)
  /-- Takes what a pattern matches and gives one of its groups. -/
  | regex (pattern : Regex) (group : Nat)
  /-- Takes one item for which the predicate holds. -/
  | testChar (predicate : V) (description : String)
  /-- Runs its parts one after the other. -/
  | sequence (parts : List ParserId)
  /-- Runs its choices at the same index up to the first success. -/
  | alternative (choices : List ParserId)
  /-- Runs its item again and again. -/
  | repetition (item : ParserId) (least most : Count)
  /-- Passes the value through a function. -/
  | transform (inner : ParserId) (function : V)
  /-- Runs `allowed` where `forbidden` does not match. -/
  | exclude (allowed forbidden : ParserId)
  /-- Puts one description in place of what was expected. -/
  | describe (inner : ParserId) (description : String)
  /-- Joins a start, a value and an end, as its part yields them, into a mark. -/
  | mark (framed : ParserId)
  /-- Runs the parser that a function chooses from the value. -/
  | chain (first : ParserId) (decide : V)
  /-- Runs its part in an environment derived from the current one. -/
  | subEnvironment (inner : ParserId) (derive : V)
  /-- Runs the parser that a function chooses from the environment. -/
  | deferredLookup (resolve : V) (name : String)
  /-- Reports every run below it to a handler. -/
  | debug (inner : ParserId) (handler : V)
  deriving Inhabited

/-- The name under which a behaviour shows itself as a function. -/
def Behaviour.functionName {V : Type} : Behaviour V → String
  | .anyChar => "_any_char"
  | .rest => "_rest"
  | .eof => "_eof"
  | .index => "_index"
  | .lineColumnIndex => "_line_column_index"
  | .succeed _ | .fail _ => "<lambda>"
  | .string _ => "_string"
  | .regex _ _ => "_regex"
  | .testChar _ _ => "_test_char"
  | .sequence _ => "_sequence"
  | .alternative _ => "_alternative"
  | .repetition _ _ _ => "_repetition"
  | .transform _ _ | .mark _ => "_transform"
  | .exclude _ _ => "_exclude"
  | .describe _ _ => "_describe"
  | .chain _ _ => "_chain"
  | .subEnvironment _ _ => "_sub_environment"
  | .deferredLookup _ _ => "_deferred_lookup"
  | .debug _ _ => "_debug"

/-- The name under which a behaviour takes the index: the shared primitives spell it out. -/
def Behaviour.indexName {V : Type} : Behaviour V → String
  | .anyChar | .rest | .eof | .index | .lineColumnIndex => "index"
  | _ => "i"

def Behaviour.environmentName {V : Type} : Behaviour V → String
  | .succeed _ | .fail _ => "env"
  | _ => "environment"

end Rebind
