import Rebind.Script.Eval
/-!
# Sessions

A session evaluates steps one after the other in one table of names.  A step answers with what its
value shows, or with what the error shows that came up, and with what was printed, logged and noted on
the way.  A failing step does not end the session.
-/
namespace Rebind.Session

/-- A step: an expression, and the name that its value is kept under. -/
structure Step where
  expression : Script.Expr
  name : Option String

/-- How a step ended. -/
inductive Ending where
  | value (d : Datum)
  | error (d : Datum)
  | endless

/-- What a step answers. -/
structure Answer where
  ending : Ending
  printed : List String
  logged : List Datum
  notes : List String

/-- The store with nothing printed, logged or noted. -/
def quiet (σ : Store) : Store := { σ with printed := [], logged := [], notes := [] }

/-- The store that a session starts from: the shared primitives, and a table of names that holds
them. -/
def start (files : FileTree) : Store :=
  match Script.openScope { Store.initial with files } with
  | .ok _ σ => σ
  | .error _ σ => σ

def keep (name : Option String) (v : Value) : Eval Unit :=
  match name with
  | some name => Script.setName 0 name v
  | none => return ()

def runStep (m : Machine) (step : Step) (σ : Store) : Answer × Store :=
  let body : Eval Value := do
    let v ← Script.eval m ⟨0, []⟩ step.expression
    keep step.name v
    return v
  match body (quiet σ) with
  | .ok v σ => (⟨.value (σ.snapshot v), σ.printed, σ.logged, σ.notes⟩, σ)
  | .error (.raised e) σ => (⟨.error (σ.snapshot e), σ.printed, σ.logged, σ.notes⟩, σ)
  | .error .endless σ => (⟨.endless, σ.printed, σ.logged, σ.notes⟩, σ)

def runSteps (m : Machine) : List Step → Store → List Answer
  | [], _ => []
  | step :: rest, σ =>
    let (answer, σ) := runStep m step σ
    answer :: runSteps m rest σ

def run (files : FileTree) (steps : List Step) : List Answer :=
  runSteps Script.mainMachine steps (start files)

end Rebind.Session
