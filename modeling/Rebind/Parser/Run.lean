import Rebind.Parser.Combine
import Rebind.Trace.Handler
/-!
# Running parsers

A parser is run with the behaviour that it has at that moment, under the eyes of the innermost tracer
if there is one.  Calling a parser asks in addition that all of the text is consumed, and parsing turns
a failure into an error.

A machine of depth `n + 1` lends a machine of depth `n` to what it runs; at depth zero the grammar has
recursed too deeply.
-/
namespace Rebind

/-- Calls a parser: the whole text has to be consumed. -/
def callParser (m : Machine) (id : ParserId) (text env i : Value) : Eval Value := do
  let outcome ← m.run id text i env
  let r ← resultOf outcome
  if ← truthy r.status then
    if ← lessThan r.index (.int (← lengthOf text)) then
      mergeOver (.failure r.index (.str "EOF")) outcome
    else return outcome
  else return outcome

/-- Parses a text as a whole and gives the value, or raises the error that it does not match. -/
def parseText (m : Machine) (id : ParserId) (text env name : Value) : Eval Value := do
  let outcome ← callParser m id text env (.int 0)
  let r ← resultOf outcome
  if ← truthy r.status then return r.value
  throw (.raised (← newMismatch text outcome name))

/-- Applies anything that can be called to arguments. -/
def invoke (host : Host) (m : Machine) (f : Value) (arguments : List Value) : Eval Value := do
  match f.content, arguments with
  | .behaviour b, [text, i, env] => behave m b text i env
  | .parser id, [text] => callParser m id text .none (.int 0)
  | .parser id, [text, env] => callParser m id text env (.int 0)
  | .parser id, [text, env, i] => callParser m id text env i
  | .closure _ _ _ _ _, arguments => host.apply m f arguments
  | _, _ => raise .wrongType

/-- What a parser does now. -/
def currentBehaviour (id : ParserId) : Eval Value := do
  match (← get).parser? id with
  | some s => return s.behaviour
  | none => raise .missingAttribute

def runCurrent (host : Host) (m : Machine) (id : ParserId) : Runner := fun text i env => do
  invoke host m (← currentBehaviour id) [text, i, env]

/-- Runs a parser, reporting to the innermost tracer if there is one. -/
def runParser (host : Host) (m : Machine) (id : ParserId) : Runner := fun text i env => do
  match (← get).tracers with
  | [] => runCurrent host m id text i env
  | handler :: _ => Trace.report m handler (.parser id) (runCurrent host m id) text i env

/-- The machine above a machine. -/
def Machine.above (host : Host) (m : Machine) : Machine :=
  { run := runParser host m
    call := invoke host m
    share := host.share
    rounds := m.rounds }

/-- Refuses a run or a call that is nested too deeply. -/
def overrun : Eval Value := fun σ =>
  .error (.raised (.error .tooDeep)) { σ with overran := true }

/-- The machine at the bottom, where nothing can be run any more. -/
def Machine.bottom (host : Host) (rounds : Nat) : Machine :=
  { run := fun _ _ _ _ => overrun
    call := fun _ _ => overrun
    share := host.share
    rounds }

/-- A machine on which runs and calls may nest to a depth. -/
def machine (host : Host) (rounds : Nat) : Nat → Machine
  | 0 => .bottom host rounds
  | depth + 1 => (machine host rounds depth).above host

end Rebind
