import Rebind.Trace.Echo
/-!
# Trace handlers

A handler hears of every run of a parser below a `debug` node: `enter` before the behaviour, then
`exit` with its result or `abort` with its error.  An error of `enter` has no counterpart, and a
handler need not have `abort`, and none hears of what is no ordinary error.  Every step is put on record in
the store.
-/
namespace Rebind.Trace

def callMethod (m : Machine) (handler : Value) (name : String) (arguments : List Value) :
    Eval Value := do
  match ← view handler with
  | .echo id =>
    match name, arguments with
    | "enter", [parser, text, offset, env] => do
      echoEnter m id parser text offset env
      return .none
    | "exit", [parser, text, offset, env, outcome] => do
      echoExit m id parser text offset env outcome
      return .none
    | "abort", [parser, text, offset, _, error] => do
      echoAbort id parser text offset error
      return .none
    | "enter", _ | "exit", _ | "abort", _ => raise .wrongType
    | _, _ => raise .missingAttribute
  | .handler methods =>
    match methods.lookup name with
    | some f => m.call f arguments
    | none => raise .missingAttribute
  | _ => raise .missingAttribute

def hearsErrors (handler : Value) : Eval Bool := do
  match ← view handler with
  | .echo _ => return true
  | .handler methods =>
    match methods.lookup "abort" with
    | some .none | none => return false
    | some _ => return true
  | _ => return false

/-- Whether functions of the user get to see what a handler is given. -/
def showsResults (handler : Value) : Eval Bool := do
  match ← view handler with
  | .echo id =>
    match (← get).echoes[id]? with
    | some s => truthy s.onExit
    | none => return false
  | _ => return true

/-- A value as a handler is given it: with identities if functions of the user get to see it. -/
def presented (m : Machine) (handler v : Value) : Eval Value := do
  if ← showsResults handler then m.share v else return v

/-- Passes an error to a function that gives up in turn.  What is no ordinary error goes on as it is. -/
def catching {α : Type} (body : Eval α) (handle : Value → Eval α) : Eval α := fun σ =>
  match body σ with
  | .error (.raised error) σ =>
    if error.isOrdinary then handle error σ else .error (.raised error) σ
  | ended => ended

/-- Puts on record how an evaluation ends. -/
def recording {α : Type} (body : Eval α) (report : Except Value α → Report) : Eval α := fun σ =>
  match body σ with
  | .ok a σ => .ok a (σ.record (report (.ok a)))
  | .error (.raised error) σ => .error (.raised error) (σ.record (report (.error error)))
  | ended => ended

/-- The error that an evaluation ended in, if it ended in one. -/
def raisedBy {α : Type} : Except Value α → Option Value
  | .ok _ => none
  | .error error => some error

def tell (m : Machine) (v : Visit) (name : String) (more : List Value)
    (report : Option Value → Report) : Eval Unit := do
  let _ ← recording
    (callMethod m v.handler name ([v.parser, v.text, v.index, v.environment] ++ more))
    fun ended => report (raisedBy ended)

def abort (m : Machine) (v : Visit) (error : Value) : Eval Value := do
  if ← hearsErrors v.handler then
    let error ← presented m v.handler error
    tell m v "abort" [error] (.abort v error)
    throw (.raised error)
  modify fun σ => σ.record (.unheard v error (σ.view v.handler))
  throw (.raised error)

def report (m : Machine) (handler parser : Value) (body : Value → Value → Value → Eval Value)
    (text i env : Value) : Eval Value := do
  let v : Visit := ⟨handler, parser, text, i, env⟩
  tell m v "enter" [] (.enter v)
  let outcome ← catching (recording (body text i env) (.behaved v)) (abort m v)
  let outcome ← presented m handler outcome
  tell m v "exit" [outcome] (.exit v outcome)
  return outcome

end Rebind.Trace
