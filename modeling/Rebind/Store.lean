import Rebind.Files.Tree
import Rebind.Trace.Report
import Rebind.Value.Datum
/-!
# The store

All that can change while grammars are built and run: the parsers, the printing handlers, the current
content of objects that were changed, the active tracers, the tables of names, and what was
printed and logged.  Evaluation is a state transformer on the store that may end in a fault; the
store as it stands at the fault is kept.

Two fields are there for what is said about runs and are read by none: what trace handlers were told,
and whether the limit on nested calls was met.
-/
namespace Rebind

/-- What a parser identity stands for at present. -/
structure ParserState where
  behaviour : Value
  displayName : Value
  deriving Inhabited

/-- A printing trace handler: how it prints, its callbacks, and the current nesting depth. -/
structure EchoState where
  context : Value
  padIfShort : Value
  onEnter : Value
  onExit : Value
  color : Value
  depth : Value
  deriving Inhabited

/-- The state of an evaluation. -/
structure Store where
  parsers : Array ParserState := #[]
  echoes : Array EchoState := #[]
  /-- The current content of changed objects, the latest change first. -/
  edits : List (Nat × Value) := []
  nextObject : Nat := 0
  /-- The handlers of the active tracers, the innermost first. -/
  tracers : List Value := []
  /-- Tables of names: of the session, and of every grammar that was loaded. -/
  scopes : Array (List (String × Value)) := #[]
  printed : List String := []
  logged : List Datum := []
  notes : List String := []
  files : FileTree := {}
  /-- What trace handlers were told, the latest report first. -/
  journal : List Trace.Report := []
  /-- Whether a run or a call was refused because it was nested too deeply. -/
  overran : Bool := false
  deriving Inhabited

/-- How an evaluation is given up. -/
inductive Fault where
  /-- An error, as the value that handlers and scripts see. -/
  | raised (error : Value)
  /-- A repetition that would never end. -/
  | endless
  deriving Inhabited

/-- An evaluation. -/
abbrev Eval := EStateM Fault Store

def raise {α : Type} (c : Cause) : Eval α := throw (.raised (.error c))

namespace Store

def view (σ : Store) : Value → Value
  | .object id v => (σ.edits.lookup id).getD v
  | v => v

def parser? (σ : Store) (id : ParserId) : Option ParserState := σ.parsers[id]?

def isParser (σ : Store) : Value → Bool
  | .parser id => id < σ.parsers.size
  | _ => false

def setParser (σ : Store) (id : ParserId) (s : ParserState) : Store :=
  { σ with parsers := σ.parsers.setIfInBounds id s }

def record (σ : Store) (r : Trace.Report) : Store := { σ with journal := r :: σ.journal }

def setEcho (σ : Store) (id : HandlerId) (s : EchoState) : Store :=
  { σ with echoes := σ.echoes.setIfInBounds id s }

end Store

def view (v : Value) : Eval Value := fun σ => .ok (σ.view v) σ

def isParser (v : Value) : Eval Bool := fun σ => .ok (σ.isParser v) σ

/-- Gives identities to all parts of a value, before a script sees it. -/
def Value.share (v : Value) : Eval Value := fun σ =>
  let (v, next) := v.identify σ.nextObject
  .ok v { σ with nextObject := next }

def edit (id : Nat) (content : Value) : Eval Unit :=
  modify fun σ => { σ with edits := (id, content) :: σ.edits.filter (·.1 != id) }

def printLine (s : String) : Eval Unit :=
  modify fun σ => { σ with printed := σ.printed ++ [s] }

/-- Leaves a note of what is being done, under the name of the part that does it. -/
def note (part message : String) : Eval Unit :=
  modify fun σ => { σ with notes := σ.notes ++ [part ++ ": " ++ message] }

def addParser (behaviour displayName : Value) : Eval Value := fun σ =>
  .ok (.parser σ.parsers.size) { σ with parsers := σ.parsers.push ⟨behaviour, displayName⟩ }

def addEcho (s : EchoState) : Eval Value := fun σ =>
  .ok (.echo σ.echoes.size) { σ with echoes := σ.echoes.push s }

end Rebind
