import Rebind.Proofs.PlainLines
import Rebind.Proofs.Steps
/-!
# Trees of calls

The calls of parsers in a run form a tree: below each call are the calls that were made while it lasted.  A walk
through the tree enters every call before those below it and leaves it after them.  Along the walk a printing
handler writes two lines for every call, and the store keeps the reports that the handler was sent.
-/
namespace Rebind

/-- The name that a parser goes by, if it exists. -/
def Store.nameOf? (σ : Store) (p : ParserId) : Option Value := (σ.parser? p).map (·.displayName)

namespace Trace

/-- A call of a parser on a text from an offset, and the name that the parser goes by. -/
structure Call where
  parser : ParserId
  name : String
  text : String
  offset : Nat
  environment : Value

/-- How a call ended: in an attempt at the text, or in an error. -/
abbrev Ending := Except Cause Attempt

/-- A call, how it ended, and the calls that were made while it lasted, in their order. -/
inductive CallTree where
  | node (call : Call) (ended : Ending) (inner : List CallTree)

/-- A step on a walk through trees of calls, with the number of calls around it. -/
inductive Step where
  | enter (depth : Nat) (call : Call)
  | leave (depth : Nat) (call : Call) (ended : Ending)

/-- What a trace line tells of the end of a call. -/
def Ending.told : Ending → Told
  | .ok a => .ofAttempt a
  | .error cause => .raised cause.name

namespace Call

variable {σ : Store} {c : Call}

def visit (handler : HandlerId) (c : Call) : Visit :=
  ⟨.echo handler, .parser c.parser, .str c.text, .int c.offset, c.environment⟩

/-- What is on record of the end of the call, in the order of events. -/
def closing (handler : HandlerId) (c : Call) : Ending → List Report
  | .ok a => [.behaved (c.visit handler) (.ok a.value), .exit (c.visit handler) a.value none]
  | .error cause =>
    [.behaved (c.visit handler) (.error (.error cause)), .abort (c.visit handler) (.error cause) none]

/-- The name is that of the parser and fits in a line, and the call was made within its text. -/
structure Faithful (σ : Store) (c : Call) : Prop where
  named : σ.nameOf? c.parser = some (.str c.name)
  inline : Inline c.name
  start : c.offset ≤ c.text.toList.length

/-- The call ended within its text, if it ended in an attempt. -/
def Ends (c : Call) (ended : Ending) : Prop := ∀ a, ended = .ok a → a.Within c.text.toList.length c.offset

/-- A trace line about a call stays within its text. -/
theorem Ends.fits {ended : Ending} (h : c.Ends ended) : ended.told.Fits c.text.toList.length c.offset := by
  cases ended with
  | ok a =>
    have within := h a rfl
    cases a with
    | matched stop v => exact within
    | missed place expected => trivial
  | error cause => exact cause.inline_name

end Call

namespace Step

/-- The line that is written at the step: the window on the text, a dot for each call around this one, the place
where it was made, the name, and a question mark or how it ended. -/
def line (width : Int) : Step → String
  | enter depth c => plainLine width depth c.text.toList c.offset c.name "?"
  | leave depth c ended =>
    plainLine width depth c.text.toList c.offset c.name (ended.told.plain c.text.toList c.offset)

/-- What is put on record at the step. -/
def reports (handler : HandlerId) : Step → List Report
  | enter _ c => [.enter (c.visit handler) none]
  | leave _ c ended => c.closing handler ended

def entered? : Step → Option Call
  | enter _ c => some c
  | leave _ _ _ => none

/-- What the step says of the call is so. -/
def Faithful (σ : Store) : Step → Prop
  | enter _ c => c.Faithful σ
  | leave _ c ended => c.Faithful σ ∧ c.Ends ended

end Step

namespace CallTree

mutual

/-- The walk through a tree with so many calls around it. -/
def steps (depth : Nat) : CallTree → List Step
  | node c ended inner => .enter depth c :: stepsAll (depth + 1) inner ++ [.leave depth c ended]

def stepsAll (depth : Nat) : List CallTree → List Step
  | [] => []
  | tree :: rest => tree.steps depth ++ stepsAll depth rest

end

def calls (tree : CallTree) : List Call := (tree.steps 0).filterMap Step.entered?

/-- The walk through trees is that through the first ones and then through the others. -/
theorem stepsAll_append (depth : Nat) (first second : List CallTree) :
    stepsAll depth (first ++ second) = stepsAll depth first ++ stepsAll depth second := by
  induction first with
  | nil => rfl
  | cons tree rest ih => rw [List.cons_append, stepsAll, stepsAll, ih, List.append_assoc]

theorem stepsAll_singleton (depth : Nat) (tree : CallTree) : stepsAll depth [tree] = tree.steps depth :=
  List.append_nil _

mutual

/-- Every call is entered once and left once. -/
theorem length_steps (depth : Nat) : ∀ tree : CallTree,
    (tree.steps depth).length = 2 * ((tree.steps depth).filterMap Step.entered?).length
  | node c ended inner => by
    have below := length_stepsAll (depth + 1) inner
    simp only [steps, List.length_append, List.length_cons, List.length_nil, List.filterMap_append,
      List.filterMap_cons, Step.entered?, List.filterMap_nil]
    omega

/-- Every call is entered once and left once. -/
theorem length_stepsAll (depth : Nat) : ∀ trees : List CallTree,
    (stepsAll depth trees).length = 2 * ((stepsAll depth trees).filterMap Step.entered?).length
  | [] => rfl
  | tree :: rest => by
    have first := length_steps depth tree
    have later := length_stepsAll depth rest
    simp only [stepsAll, List.length_append, List.filterMap_append]
    omega

end

end CallTree

/-! ### A record tells of one tree -/

theorem value_injective {a b : Attempt} (same : a.value = b.value) : a = b := by
  cases a with
  | matched stop v => cases b <;> cases same; rfl
  | missed place expected =>
    cases b with
    | matched stop v => cases same
    | missed place' expected' =>
      injection same with _ place items
      injection place with place
      injection items with items
      have texts : Function.Injective Value.str := fun _ _ => Value.str.inj
      rw [place, List.map_injective_iff.mpr texts items]

namespace CallTree

/-- A record that does not go on with the start of another call. -/
def Halts : List Report → Prop
  | .enter _ _ :: _ => False
  | _ => True

variable {σ : Store} {handler : HandlerId}

/-- Nothing that closes a call starts another one. -/
theorem halts_closing (c : Call) (ended : Ending) (rest : List Report) :
    Halts (c.closing handler ended ++ rest) := by
  cases ended <;> trivial

/-- Calls of parsers that go by their names are told apart by their visits. -/
theorem visit_injective {c c' : Call} (faithful : c.Faithful σ) (faithful' : c'.Faithful σ)
    (same : c.visit handler = c'.visit handler) : c = c' := by
  obtain ⟨parser, name, text, offset, environment⟩ := c
  obtain ⟨parser', name', text', offset', environment'⟩ := c'
  simp only [Call.visit, Visit.mk.injEq, Value.parser.injEq, Value.str.injEq, Value.int.injEq, Int.natCast_inj,
    true_and] at same
  obtain ⟨rfl, rfl, rfl, rfl⟩ := same
  obtain rfl := Value.str.inj (Option.some.inj (faithful.named.symm.trans faithful'.named))
  rfl

/-- The record of the end of a call tells how it ended. -/
theorem closing_injective {c : Call} {ended ended' : Ending} {rest rest' : List Report}
    (same : c.closing handler ended ++ rest = c.closing handler ended' ++ rest') :
    ended = ended' ∧ rest = rest' := by
  cases ended with
  | ok a =>
    cases ended' with
    | ok b =>
      injection same with first later
      injection later with second last
      injection second with _ values
      exact ⟨congrArg _ (value_injective values), last⟩
    | error cause => cases same
  | error cause =>
    cases ended' with
    | ok b => cases same
    | error cause' =>
      injection same with first later
      injection later with second last
      injection second with _ errors
      exact ⟨congrArg _ (Value.error.inj errors), last⟩

mutual

/-- What is on record of a walk tells where it ended, and through which tree it was. -/
theorem steps_injective (depth : Nat) : ∀ (tree other : CallTree) {rest rest' : List Report},
    (∀ step ∈ tree.steps depth, step.Faithful σ) → (∀ step ∈ other.steps depth, step.Faithful σ) →
    (tree.steps depth).flatMap (Step.reports handler) ++ rest =
      (other.steps depth).flatMap (Step.reports handler) ++ rest' → tree = other ∧ rest = rest'
  | node c ended inner, node c' ended' inner', rest, rest', faithful, faithful', same => by
    -- the first report names the call, and those of its end stop the record of the calls below it
    simp only [steps, List.forall_mem_cons, List.forall_mem_append, List.cons_append, List.flatMap_cons,
      List.flatMap_append, List.flatMap_nil, List.append_nil, Step.reports, List.nil_append,
      List.append_assoc] at faithful faithful' same
    obtain ⟨entered, later⟩ := List.cons.inj same
    obtain rfl := visit_injective faithful.1 faithful'.1 (Report.enter.inj entered).1
    obtain ⟨rfl, left⟩ := stepsAll_injective (depth + 1) inner inner' faithful.2.1 faithful'.2.1
      (halts_closing c ended rest) (halts_closing c ended' rest') later
    obtain ⟨rfl, last⟩ := closing_injective left
    exact ⟨rfl, last⟩

/-- The reports of a walk tell the trees, by induction on them. -/
theorem stepsAll_injective (depth : Nat) : ∀ (trees others : List CallTree) {rest rest' : List Report},
    (∀ step ∈ stepsAll depth trees, step.Faithful σ) → (∀ step ∈ stepsAll depth others, step.Faithful σ) →
    Halts rest → Halts rest' → (stepsAll depth trees).flatMap (Step.reports handler) ++ rest =
      (stepsAll depth others).flatMap (Step.reports handler) ++ rest' → trees = others ∧ rest = rest'
  | [], [], _, _, _, _, _, _, same => ⟨rfl, same⟩
  | [], node _ _ _ :: _, _, _, _, _, halts, _, same => by
    simp only [stepsAll, List.flatMap_nil, List.nil_append] at same
    rw [same] at halts
    exact halts.elim
  | node _ _ _ :: _, [], _, _, _, _, _, halts', same => by
    simp only [stepsAll, List.flatMap_nil, List.nil_append] at same
    rw [← same] at halts'
    exact halts'.elim
  | tree :: trees, other :: others, rest, rest', faithful, faithful', halts, halts', same => by
    simp only [stepsAll, List.forall_mem_append, List.flatMap_append, List.append_assoc] at faithful faithful' same
    obtain ⟨rfl, later⟩ := steps_injective depth tree other faithful.1 faithful'.1 same
    obtain ⟨rfl, last⟩ := stepsAll_injective depth trees others faithful.2 faithful'.2 halts halts' later
    exact ⟨rfl, last⟩

end

end CallTree

/-! ### What a traced run leaves behind -/

/-- Between two stores exactly the calls of some trees were made under a handler: their lines were printed,
their reports put on record, and their parsers go by the names that the lines give. -/
structure Recited (width : Int) (handler : HandlerId) (depth : Nat) (trees : List CallTree) (σ τ : Store) :
    Prop where
  printed : τ.printed = σ.printed ++ (CallTree.stepsAll depth trees).map (Step.line width)
  journal : τ.journal = ((CallTree.stepsAll depth trees).flatMap (Step.reports handler)).reverse ++ σ.journal
  faithful : ∀ step ∈ CallTree.stepsAll depth trees, step.Faithful τ

section Recited

variable {width : Int} {handler : HandlerId} {depth : Nat} {trees more inner : List CallTree}
  {σ τ υ τ₁ τ₂ : Store} {c : Call} {ended : Ending}

/-- Nothing was called. -/
theorem recited_nil (printed : τ.printed = σ.printed) (journal : τ.journal = σ.journal) :
    Recited width handler depth [] σ τ :=
  ⟨printed.trans (List.append_nil _).symm, journal, fun _ member => nomatch member⟩

theorem Call.Faithful.later (names : ∀ p name, τ.nameOf? p = some name → υ.nameOf? p = some name)
    (h : c.Faithful τ) : c.Faithful υ := { h with named := names _ _ h.named }

/-- What is said of a call stays so as long as names are kept. -/
theorem Step.Faithful.later {step : Step}
    (names : ∀ p name, τ.nameOf? p = some name → υ.nameOf? p = some name) (h : step.Faithful τ) :
    step.Faithful υ := by
  cases step with
  | enter depth c => exact Call.Faithful.later names h
  | leave depth c ended => exact ⟨h.1.later names, h.2⟩

/-- One recital after another. -/
theorem Recited.trans (first : Recited width handler depth trees σ τ)
    (second : Recited width handler depth more τ υ)
    (names : ∀ p name, τ.nameOf? p = some name → υ.nameOf? p = some name) :
    Recited width handler depth (trees ++ more) σ υ := by
  constructor
  · rw [second.printed, first.printed, CallTree.stepsAll_append, List.map_append, List.append_assoc]
  · rw [second.journal, first.journal, CallTree.stepsAll_append, List.flatMap_append, List.reverse_append,
      List.append_assoc]
  · intro step member
    rw [CallTree.stepsAll_append] at member
    rcases List.mem_append.mp member with earlier | last
    · exact (first.faithful step earlier).later names
    · exact second.faithful step last

/-- A call was entered, others were made below it, and it was left. -/
theorem Recited.node (entered : τ₁.printed = σ.printed ++ [(Step.enter depth c).line width])
    (entered' : τ₁.journal = .enter (c.visit handler) none :: σ.journal)
    (below : Recited width handler (depth + 1) inner τ₁ τ₂)
    (left : υ.printed = τ₂.printed ++ [(Step.leave depth c ended).line width])
    (left' : υ.journal = (c.closing handler ended).reverse ++ τ₂.journal)
    (names : ∀ p name, τ₂.nameOf? p = some name → υ.nameOf? p = some name) (faithful : c.Faithful υ)
    (ends : c.Ends ended) : Recited width handler depth [.node c ended inner] σ υ := by
  constructor
  · rw [left, below.printed, entered, CallTree.stepsAll_singleton, CallTree.steps]
    simp
  · rw [left', below.journal, entered', CallTree.stepsAll_singleton, CallTree.steps]
    simp [Step.reports]
  · intro step member
    rw [CallTree.stepsAll_singleton, CallTree.steps] at member
    simp only [List.cons_append, List.mem_cons, List.mem_append, List.not_mem_nil, or_false] at member
    rcases member with rfl | within | rfl
    · exact faithful
    · exact (below.faithful step within).later names
    · exact ⟨faithful, ends⟩

end Recited

end Trace

end Rebind
