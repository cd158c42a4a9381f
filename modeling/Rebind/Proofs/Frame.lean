import Rebind.Proofs.Constructions
import Rebind.Proofs.Courses
import Rebind.Proofs.Matching
/-!
# Runs in which a parser has no part

A run that meets neither a function of the user nor a parser that is a value gets to parsers only through
the references that behaviours hold to their children.  So it does not matter what a parser does that no
such reference leads to.  Of two stores that differ in the state of that parser only, the run makes two
stores that differ in it only, and it comes to the same in both: what it returns, how it is given up, what
is printed, and what trace handlers were told.

Trace handlers that print are included.  They read the display names of the parsers that they hear of, and
they are the reason why the store changes while such a grammar runs.
-/
namespace Rebind

def Behaviour.children {V : Type} : Behaviour V → List ParserId
  | .sequence parts | .alternative parts => parts
  | .repetition p _ _ | .transform p _ | .describe p _ | .mark p | .chain p _ | .subEnvironment p _
  | .debug p _ => [p]
  | .exclude allowed forbidden => [allowed, forbidden]
  | .anyChar | .rest | .eof | .index | .lineColumnIndex | .succeed _ | .fail _ | .string _ | .regex _ _
  | .testChar _ _ | .deferredLookup _ _ => []

/-- A printing handler without callbacks.  None of its settings holds a parser. -/
structure EchoState.IsInert (σ : Store) (s : EchoState) : Prop where
  onEnter : (σ.view s.onEnter).isTruthy = false
  onExit : (σ.view s.onExit).isTruthy = false
  context : s.context.Parserless σ
  padIfShort : s.padIfShort.Parserless σ
  color : s.color.Parserless σ
  depth : s.depth.IsPlain

/-- A trace handler that prints, without callbacks. -/
def Value.Prints (σ : Store) (handler : Value) : Prop :=
  ∃ id s, σ.view handler = .echo id ∧ σ.echoes[id]? = some s ∧ s.IsInert σ

/-- A behaviour that calls no function of the user and holds no parser as a value. -/
def Behaviour.IsInert (σ : Store) : Behaviour Value → Prop
  | .succeed v => v.Parserless σ
  | .testChar _ _ | .transform _ _ | .chain _ _ | .subEnvironment _ _ | .deferredLookup _ _ => False
  | .debug _ handler => handler.Prints σ
  | _ => True

/-- A parser that does without functions of the user and without parsers as values: as far as its behaviour
can be called at all, it is a built-in one of this kind. -/
structure ParserState.IsInert (σ : Store) (s : ParserState) : Prop where
  name : s.displayName.Parserless σ
  behaviour : s.behaviour.content.IsFunction → ∃ b, s.behaviour.content = .behaviour b ∧ b.IsInert σ

/-- Parsers that do without functions of the user and have all their children among them, and to which
another parser does not belong. -/
structure Apart (σ : Store) (t : ParserId) (grammar : ParserId → Prop) : Prop where
  other : ¬ grammar t
  inert : ∀ p s, grammar p → σ.parser? p = some s → s.IsInert σ
  closed : ∀ p b q, grammar p → σ.behaviour? p = some b → q ∈ b.children → grammar q

/-! ### Stores in the course of a run -/

/-- How a printing handler may have moved: to another depth. -/
def Moved (before now : Option EchoState) : Prop :=
  now = before ∨ ∃ s depth, before = some s ∧ s.depth.IsPlain ∧ Value.IsPlain depth ∧
    now = some { s with depth := depth }

/-- The store at some time during a run without functions of the user. -/
structure Store.During (σ₀ σ : Store) : Prop where
  parsers : σ.parsers = σ₀.parsers
  edits : σ.edits = σ₀.edits
  echoes : ∀ id : HandlerId, Moved σ₀.echoes[id]? σ.echoes[id]?
  tracers : ∀ handler ∈ σ.tracers, handler.Prints σ₀

section During

variable {σ₀ σ τ : Store} {v : Value}

theorem Store.During.refl (traced : ∀ handler ∈ σ.tracers, handler.Prints σ) : σ.During σ :=
  ⟨rfl, rfl, fun _ => .inl rfl, traced⟩

/-- What is written in the course of a run besides the tracers and the handlers does not matter. -/
theorem Store.During.congr (h : σ₀.During σ) (parsers : τ.parsers = σ.parsers)
    (edits : τ.edits = σ.edits) (echoes : τ.echoes = σ.echoes)
    (traced : ∀ handler ∈ τ.tracers, handler.Prints σ₀) : σ₀.During τ :=
  ⟨parsers.trans h.parsers, edits.trans h.edits, fun id => by rw [echoes]; exact h.echoes id, traced⟩

theorem Store.During.view (h : σ₀.During σ) (v : Value) : σ.view v = σ₀.view v := by
  cases v <;> simp only [Store.view, h.edits]

/-- A printing handler may change its depth, as long as that is plain data. -/
theorem Value.Parserless.move {σ σ' : Store} (edits : σ'.edits = σ.edits)
    (depths : ∀ (id : HandlerId) s', σ'.echoes[id]? = some s' →
      s'.depth.IsPlain ∨ ∃ s, σ.echoes[id]? = some s ∧ s.depth = s'.depth)
    (h : v.Parserless σ) : v.Parserless σ' := by
  intro u reached
  have settled := h u (reached.congr edits.symm)
  cases u with
  | echo id =>
    intro s' known
    rcases depths id s' known with plain | ⟨s, before, same⟩
    · exact plain
    · exact same ▸ settled s before
  | parser p => exact settled.elim
  | _ => trivial

/-- Values are without parsers at one time of a run if they are so at the start. -/
theorem Store.During.parserless (h : σ₀.During σ) (free : v.Parserless σ₀) : v.Parserless σ := by
  refine free.move h.edits fun id s' now => ?_
  rcases h.echoes id with same | ⟨s, depth, _, _, plain, moved⟩
  · exact .inr ⟨s', same ▸ now, rfl⟩
  · obtain rfl := Option.some.inj (moved.symm.trans now)
    exact .inl plain

/-- What is without parsers during the run was so at its start. -/
theorem Store.During.parserless_start (h : σ₀.During σ) (free : v.Parserless σ) : v.Parserless σ₀ := by
  refine free.move h.edits.symm fun id s before => ?_
  rcases h.echoes id with same | ⟨s', depth, known, plain, _⟩
  · exact .inr ⟨s, same.trans before, rfl⟩
  · obtain rfl := Option.some.inj (known.symm.trans before)
    exact .inl plain

theorem parserless_bool (b : Bool) : (Value.bool b).Parserless σ := Value.IsPlain.parserless trivial

theorem sameData_setParser (t : ParserId) (state : ParserState) : σ.SameData (σ.setParser t state) :=
  ⟨rfl, rfl⟩

/-- A replacement leaves the other parsers as they are. -/
theorem parser?_setParser_ne {t p : ParserId} (state : ParserState) (different : p ≠ t) :
    (σ.setParser t state).parser? p = σ.parser? p :=
  Array.getElem?_setIfInBounds_ne (Ne.symm different)

end During

/-! ### Evaluations that do not notice a parser -/

/-- An evaluation that, in the course of a run, does not notice the state of a parser: with another state
of it the evaluation comes to the same, and leaves behind the same with that other state. -/
def Ignores (σ₀ : Store) (t : ParserId) (state : ParserState) {α : Type} (P : α → Prop) (x : Eval α) :
    Prop :=
  ∀ σ, σ₀.During σ → Ends x σ
    (fun a τ => x (σ.setParser t state) = .ok a (τ.setParser t state) ∧ P a ∧ σ₀.During τ)
    fun e τ => x (σ.setParser t state) = .error e (τ.setParser t state) ∧ σ₀.During τ

/-- An evaluation that returns values of some kind only. -/
def Yields {α : Type} (Q : α → Prop) (x : Eval α) : Prop := ∀ σ a τ, x σ = .ok a τ → Q a

section Ignores

variable {σ₀ : Store} {t : ParserId} {state : ParserState} {α β : Type} {P P' : α → Prop} {Q : β → Prop}
  {x : Eval α} {f : α → Eval β}

theorem yields_pure {a : α} (h : P a) : Yields P (pure a) := by
  intro σ b τ same
  obtain ⟨rfl, _⟩ := EStateM.Result.ok.inj same
  exact h

/-- What raises an error returns nothing. -/
theorem yields_raise (c : Cause) : Yields P (raise c) := fun _ _ _ impossible => nomatch impossible

theorem yields_bind (h : ∀ a, Yields Q (f a)) : Yields Q (x >>= f) := by
  intro σ b υ ended
  simp only [Bind.bind, EStateM.bind] at ended
  split at ended
  · exact h _ _ _ _ ended
  · cases ended

theorem ignores_pure {a : α} (h : P a) : Ignores σ₀ t state P (pure a) := fun _ during =>
  ⟨rfl, h, during⟩

theorem ignores_throw (e : Fault) : Ignores σ₀ t state P (throw e) := fun _ during => ⟨rfl, during⟩

theorem ignores_raise (c : Cause) : Ignores σ₀ t state P (raise c) := ignores_throw _

/-- Evaluations that ignore a replacement may follow each other. -/
theorem Ignores.bind (h : Ignores σ₀ t state P x) (hf : ∀ a, P a → Ignores σ₀ t state Q (f a)) :
    Ignores σ₀ t state Q (x >>= f) := by
  intro σ during
  have first := h σ during
  cases hx : x σ with
  | ok a τ =>
    obtain ⟨same, good, later⟩ := first.ok hx
    refine Ends.bind_ok hx ?_
    rw [bind_ok same]
    exact hf a good τ later
  | error e τ =>
    obtain ⟨same, later⟩ := first.error hx
    simp only [Ends, bind_error hx, bind_error same]
    exact ⟨trivial, later⟩

theorem Ignores.mono (h : Ignores σ₀ t state P x) (wider : ∀ a, P a → P' a) :
    Ignores σ₀ t state P' x := fun σ during =>
  (h σ during).imp fun a _ ended => ⟨ended.1, wider a ended.2.1, ended.2.2⟩

/-- What is ignored and what is returned are known separately. -/
theorem Ignores.and (h : Ignores σ₀ t state P x) (k : Yields P' x) :
    Ignores σ₀ t state (fun a => P a ∧ P' a) x := by
  intro σ during
  have first := h σ during
  cases hx : x σ with
  | ok a τ =>
    obtain ⟨same, good, later⟩ := first.ok hx
    exact Ends.of_eq_ok hx ⟨same, ⟨good, k σ a τ hx⟩, later⟩
  | error e τ =>
    have ended := first.error hx
    simpa only [Ends, hx] using ended

/-- What only reads, and reads the same in stores with the same data, does not notice the parser. -/
theorem ignores_read {kind : Store → α → Prop} (reads : Course.still.Keeps x)
    (agrees : ∀ σ, σ₀.During σ → Agrees (fun _ => False) σ (σ.setParser t state) (kind σ) x x)
    (fits : ∀ σ a, σ₀.During σ → kind σ a → P a) : Ignores σ₀ t state P x := by
  intro σ during
  have both := agrees σ during
  have left := reads σ
  have right := reads (σ.setParser t state)
  simp only [Agrees, Tandem] at both
  cases hx : x σ with
  | ok a τ =>
    rw [hx] at both
    obtain ⟨b, τ', hy, rfl, good, rfl, rfl⟩ := both
    exact Ends.of_eq_ok hx ⟨hy, fits _ _ during good, during⟩
  | error e τ =>
    rw [hx] at both
    obtain rfl : τ = σ := left.error hx trivial
    obtain impossible | ⟨τ', hy⟩ := both
    · exact impossible.elim
    obtain rfl : τ' = τ.setParser t state := right.error hy trivial
    simpa only [Ends, hx] using And.intro hy during

/-- A question whose answer agrees in stores with the same data. -/
theorem ignores_asked (reads : Course.still.Keeps x)
    (agrees : ∀ σ, σ₀.During σ → Agrees (fun _ => False) σ (σ.setParser t state) (fun _ => True) x x) :
    Ignores σ₀ t state (fun _ => True) x := ignores_read reads agrees fun _ _ _ _ => trivial

/-- An operation that reads a value which agrees in stores with the same data. -/
theorem ignores_valued {x : Eval Value} (reads : Course.still.Keeps x)
    (agrees : ∀ σ, σ₀.During σ → Agrees (fun _ => False) σ (σ.setParser t state) (Value.Parserless σ) x x) :
    Ignores σ₀ t state (Value.Parserless σ₀) x :=
  ignores_read reads agrees fun _ _ during free => during.parserless_start free

/-- What writes to the store elsewhere than at parsers. -/
theorem ignores_modify {f : Store → Store} (elsewhere : ∀ σ, f (σ.setParser t state) = (f σ).setParser t state)
    (keeps : ∀ σ, σ₀.During σ → σ₀.During (f σ)) : Ignores σ₀ t state (fun _ => True) (modify f) := by
  intro σ during
  refine ends_modify.mpr ⟨?_, trivial, keeps σ during⟩
  rw [← elsewhere]
  rfl

/-! ### Operations -/

variable {v w : Value}

/-- The operations that read, one after the other. -/
theorem ignores_view (h : v.Parserless σ₀) : Ignores σ₀ t state (Value.Parserless σ₀) (view v) :=
  ignores_valued (Course.still.keeps_view v) fun _ during =>
    agrees_view (sameData_setParser t state) (during.parserless h)

theorem ignores_truthy (h : v.Parserless σ₀) : Ignores σ₀ t state (fun _ => True) (truthy v) :=
  ignores_asked (Course.still.keeps_truthy v) fun _ during =>
    agrees_truthy (sameData_setParser t state) (during.parserless h)

theorem ignores_textOf (h : v.Parserless σ₀) : Ignores σ₀ t state (fun _ => True) (textOf v) :=
  ignores_asked (Course.still.keeps_textOf v) fun _ during =>
    agrees_textOf (sameData_setParser t state) (during.parserless h)

theorem ignores_shown (h : v.Parserless σ₀) : Ignores σ₀ t state (fun _ => True) (shown v) :=
  ignores_asked (Course.still.keeps_shown v) fun _ during =>
    agrees_shown (sameData_setParser t state) (during.parserless h)

theorem ignores_lengthOf (h : v.Parserless σ₀) : Ignores σ₀ t state (fun _ => True) (lengthOf v) :=
  ignores_asked (Course.still.keeps_lengthOf v) fun _ during =>
    agrees_lengthOf (sameData_setParser t state) (during.parserless h)

theorem ignores_boundOf (h : v.Parserless σ₀) : Ignores σ₀ t state (fun _ => True) (boundOf v) :=
  ignores_asked (Course.still.keeps_boundOf v) fun _ during =>
    agrees_boundOf (sameData_setParser t state) (during.parserless h)

theorem ignores_lessThan (h : v.Parserless σ₀) (h' : w.Parserless σ₀) :
    Ignores σ₀ t state (fun _ => True) (lessThan v w) :=
  ignores_asked (Course.still.keeps_lessThan v w) fun _ during =>
    agrees_lessThan (sameData_setParser t state) (during.parserless h) (during.parserless h')

theorem ignores_sliceOf {lo hi : Value} (h : v.Parserless σ₀) (hlo : lo.Parserless σ₀)
    (hhi : hi.Parserless σ₀) : Ignores σ₀ t state (Value.Parserless σ₀) (sliceOf v lo hi) :=
  ignores_valued (Course.still.keeps_sliceOf v lo hi) fun _ during =>
    agrees_sliceOf (sameData_setParser t state) (during.parserless h) (during.parserless hlo)
      (during.parserless hhi)

theorem ignores_itemsOf (h : v.Parserless σ₀) :
    Ignores σ₀ t state (fun items => ∀ u ∈ items, u.Parserless σ₀) (itemsOf v) :=
  ignores_read (Course.still.keeps_itemsOf v)
    (fun _ during => agrees_itemsOf (sameData_setParser t state) (during.parserless h))
    fun _ _ during free u member => during.parserless_start (free u member)

theorem ignores_lineColumnOf (h : v.Parserless σ₀) (hi : w.Parserless σ₀) :
    Ignores σ₀ t state (Value.Parserless σ₀) (lineColumnOf v w) :=
  ignores_valued (Course.still.keeps_lineColumnOf v w) fun _ during =>
    agrees_lineColumnOf (sameData_setParser t state) (during.parserless h) (during.parserless hi)

theorem ignores_expectedText (h : v.Parserless σ₀) :
    Ignores σ₀ t state (fun _ => True) (expectedText v) :=
  ignores_asked (Course.still.keeps_expectedText v) fun _ during =>
    agrees_expectedText (sameData_setParser t state) (during.parserless h)

theorem ignores_threeOf (h : v.Parserless σ₀) :
    Ignores σ₀ t state (fun three => three.1.Parserless σ₀ ∧ three.2.1.Parserless σ₀ ∧
      three.2.2.Parserless σ₀) (Behave.threeOf v) :=
  ignores_read (Course.keeps_threeOf v)
    (fun _ during => agrees_threeOf (sameData_setParser t state) (during.parserless h))
    fun _ _ during free => ⟨during.parserless_start free.1, during.parserless_start free.2.1,
      during.parserless_start free.2.2⟩

/-- How a result decides about what comes next. -/
theorem ignores_decide (h : v.Parserless σ₀) {yes no : Result → Eval β}
    (hyes : ∀ r, r.Parserless σ₀ → Ignores σ₀ t state Q (yes r))
    (hno : ∀ r, r.Parserless σ₀ → Ignores σ₀ t state Q (no r)) :
    Ignores σ₀ t state Q (do let r ← resultOf v; if ← truthy r.status then yes r else no r) := by
  have parts : Ignores σ₀ t state (Result.Parserless σ₀) (resultOf v) :=
    ignores_read (Course.still.keeps_resultOf v) (fun _ during => agrees_resultOf (during.parserless h))
      fun _ _ during free => ⟨during.parserless_start free.1, during.parserless_start free.2.1,
        during.parserless_start free.2.2⟩
  refine parts.bind fun r free => (ignores_truthy free.1).bind fun succeeded _ => ?_
  cases succeeded with
  | true => exact hyes r free
  | false => exact hno r free

/-! ### What runs return -/

/-- The form of what runs return: a result, or nothing where there was nothing to choose among. -/
def Value.IsReturned (v : Value) : Prop := v = .none ∨ ∃ a b c, v = .result a b c

/-- What a run returns that handles no parsers. -/
def Value.IsOutcome (σ : Store) (v : Value) : Prop := v.Parserless σ ∧ v.IsReturned

theorem isOutcome_none : Value.none.IsOutcome σ₀ := ⟨parserless_none, .inl rfl⟩

theorem isOutcome_success (hi : w.Parserless σ₀) (h : v.Parserless σ₀) :
    (Value.success w v).IsOutcome σ₀ := ⟨parserless_success hi h, .inr ⟨_, _, _, rfl⟩⟩

theorem isOutcome_failure (hi : w.Parserless σ₀) (d : String) :
    (Value.failure w (.str d)).IsOutcome σ₀ := ⟨parserless_failure hi d, .inr ⟨_, _, _, rfl⟩⟩

/-- What merging returns: one of the two results, or a new one. -/
theorem yields_mergeOver (v w : Value) :
    Yields (fun r => r = v ∨ r = w ∨ ∃ a b c, r = .result a b c) (mergeOver v w) := by
  unfold mergeOver
  split
  · exact yields_pure (.inl rfl)
  refine yields_bind fun c => yields_bind fun succeeded => ?_
  split
  · exact yields_pure (.inl rfl)
  refine yields_bind fun p => yields_bind fun reached => yields_bind fun before => ?_
  split
  · exact yields_pure (.inl rfl)
  refine yields_bind fun behind => ?_
  split
  · exact yields_pure (.inr (.inl rfl))
  exact yields_bind fun both => yields_pure (.inr (.inr ⟨_, _, _, rfl⟩))

theorem ignores_mergeOver (h : v.IsOutcome σ₀) (h' : w.IsOutcome σ₀) :
    Ignores σ₀ t state (Value.IsOutcome σ₀) (mergeOver v w) := by
  have reads : Ignores σ₀ t state (Value.Parserless σ₀) (mergeOver v w) :=
    ignores_valued (Course.still.keeps_mergeOver v w) fun _ during =>
      agrees_mergeOver (sameData_setParser t state) (during.parserless h.1) (during.parserless h'.1)
  refine (reads.and (yields_mergeOver v w)).mono ?_
  rintro r ⟨free, rfl | rfl | made⟩
  · exact h
  · exact h'
  · exact ⟨free, .inr made⟩

end Ignores

/-! ### Behaviours -/

/-- A machine on which the parsers of a grammar run on a text without noticing another parser. -/
def Machine.Ignores (m : Machine) (σ₀ : Store) (t : ParserId) (state : ParserState)
    (grammar : ParserId → Prop) (text env : Value) : Prop :=
  ∀ p i, grammar p → i.Parserless σ₀ →
    Rebind.Ignores σ₀ t state (Value.IsOutcome σ₀) (m.run p text i env)

section Behaviours

variable {σ₀ : Store} {t : ParserId} {state : ParserState} {m : Machine} {grammar : ParserId → Prop}
  {text env i : Value} {b : Behaviour Value}

theorem keeps_primitive {K : Course} (h : b.IsPrimitive) : K.Keeps (behave m b text i env) := by
  cases b with
  | anyChar => exact Course.keeps_anyChar text i env
  | rest => exact Course.keeps_rest text i env
  | eof => exact Course.keeps_eof text i env
  | index => exact K.keeps_pure _
  | lineColumnIndex => exact Course.keeps_bind (K.keeps_lineColumnOf text i) fun _ => K.keeps_pure _
  | fail d => exact K.keeps_pure _
  | string s => exact Course.keeps_string s text i env
  | regex r group => exact Course.keeps_regex r group text i env
  | _ => exact h.elim

theorem yields_primitive (h : b.IsPrimitive) :
    Yields Value.IsReturned (behave m b text i env) := by
  have made : ∀ a b c : Value, Yields Value.IsReturned (pure (.result a b c)) := fun a b c =>
    yields_pure (.inr ⟨a, b, c, rfl⟩)
  cases b with
  | anyChar =>
    refine yields_bind fun n => yields_bind fun past => ?_
    split
    · exact made _ _ _
    · exact yields_bind fun next => yields_bind fun c => made _ _ _
  | rest => exact yields_bind fun n => yields_bind fun left => made _ _ _
  | eof =>
    refine yields_bind fun n => yields_bind fun before => ?_
    split
    · exact made _ _ _
    · exact made _ _ _
  | index => exact made _ _ _
  | lineColumnIndex => exact yields_bind fun place => made _ _ _
  | fail d => exact made _ _ _
  | string literal =>
    refine yields_bind fun there => ?_
    split
    · exact yields_bind fun next => made _ _ _
    · exact made _ _ _
  | regex r group =>
    refine yields_bind fun left => ?_
    split
    · split
      · exact yields_raise _
      · split
        · exact yields_bind fun next => yields_bind fun v => made _ _ _
        · exact made _ _ _
    · exact yields_raise _
  | _ => exact h.elim

/-- Leaves ignore the replacement, since they run no parser. -/
theorem ignores_primitive (h : b.IsPrimitive) (ht : text.Parserless σ₀) (hi : i.Parserless σ₀) :
    Ignores σ₀ t state (Value.IsOutcome σ₀) (behave m b text i env) :=
  (ignores_valued (keeps_primitive h) fun _ during => agrees_primitive (sameData_setParser t state) h
    (during.parserless ht) (during.parserless hi)).and (yields_primitive h)

/-- Behaviours over parsers of the grammar ignore the replacement if runs of these do. -/
theorem ignores_sequenceFrom (hm : m.Ignores σ₀ t state grammar text env) {ps : List ParserId}
    (known : ∀ p ∈ ps, grammar p) {previous : Value} {values : List Value} (hi : i.Parserless σ₀)
    (hp : previous.IsOutcome σ₀) (hv : ∀ u ∈ values, u.Parserless σ₀) :
    Ignores σ₀ t state (Value.IsOutcome σ₀) (Behave.sequenceFrom m text env ps previous values i) := by
  induction ps generalizing previous values i with
  | nil => exact ignores_mergeOver (isOutcome_success hi (parserless_list hv)) hp
  | cons p ps ih =>
    have later : ∀ q ∈ ps, grammar q := fun q member => known q (List.mem_cons_of_mem _ member)
    unfold Behave.sequenceFrom
    refine (hm p i (known p (List.mem_cons_self ..)) hi).bind fun outcome returned => ?_
    refine (ignores_mergeOver returned hp).bind fun merged returned => ?_
    refine ignores_decide returned.1 (fun r parts => ?_) fun r _ => ignores_pure returned
    exact ih later parts.2.1 returned (parserless_snoc hv parts.2.2)

theorem ignores_alternativeFrom (hm : m.Ignores σ₀ t state grammar text env) {ps : List ParserId}
    (known : ∀ p ∈ ps, grammar p) {previous : Value} (hi : i.Parserless σ₀)
    (hp : previous.IsOutcome σ₀) :
    Ignores σ₀ t state (Value.IsOutcome σ₀) (Behave.alternativeFrom m text i env ps previous) := by
  induction ps generalizing previous with
  | nil => exact ignores_pure hp
  | cons p ps ih =>
    have later : ∀ q ∈ ps, grammar q := fun q member => known q (List.mem_cons_of_mem _ member)
    unfold Behave.alternativeFrom
    refine (hm p i (known p (List.mem_cons_self ..)) hi).bind fun outcome returned => ?_
    refine (ignores_mergeOver returned hp).bind fun merged returned => ?_
    exact ignores_decide returned.1 (fun r _ => ignores_pure returned) fun r _ => ih later returned

/-- Rounds that led where data without parsers was read, or to a failure. -/
def Behave.Progress.IsOutcome (σ : Store) : Behave.Progress → Prop
  | .failed merged => merged.IsOutcome σ
  | .reached i values => i.Parserless σ ∧ ∀ u ∈ values, u.Parserless σ

theorem ignores_requiredRounds (hm : m.Ignores σ₀ t state grammar text env) {p : ParserId}
    (known : grammar p) (n : Nat) {previous : Value} {values : List Value} (hi : i.Parserless σ₀)
    (hp : previous.IsOutcome σ₀) (hv : ∀ u ∈ values, u.Parserless σ₀) :
    Ignores σ₀ t state (Behave.Progress.IsOutcome σ₀)
      (Behave.requiredRounds m p text env n previous values i) := by
  induction n generalizing previous values i with
  | zero => exact ignores_pure ⟨hi, hv⟩
  | succ n ih =>
    unfold Behave.requiredRounds
    refine (hm p i known hi).bind fun outcome returned => ?_
    refine (ignores_mergeOver returned hp).bind fun merged returned' => ?_
    refine ignores_decide returned.1 (fun r parts => ?_) fun r _ => ignores_pure returned'
    exact ih parts.2.1 returned' (parserless_snoc hv parts.2.2)

theorem ignores_optionalRounds (hm : m.Ignores σ₀ t state grammar text env) {p : ParserId}
    (known : grammar p) (n : Nat) {values : List Value} (hi : i.Parserless σ₀)
    (hv : ∀ u ∈ values, u.Parserless σ₀) :
    Ignores σ₀ t state (fun ended => ended.2.1.Parserless σ₀ ∧ ∀ u ∈ ended.2.2, u.Parserless σ₀)
      (Behave.optionalRounds m p text env n values i) := by
  induction n generalizing values i with
  | zero => exact ignores_pure ⟨hi, hv⟩
  | succ n ih =>
    unfold Behave.optionalRounds
    refine (hm p i known hi).bind fun outcome returned => ?_
    refine ignores_decide returned.1 (fun r parts => ?_) fun r _ => ignores_pure ⟨hi, hv⟩
    exact ih parts.2.1 (parserless_snoc hv parts.2.2)

theorem ignores_repetition (hm : m.Ignores σ₀ t state grammar text env) {p : ParserId}
    (known : grammar p) (least most : Count) (hi : i.Parserless σ₀) :
    Ignores σ₀ t state (Value.IsOutcome σ₀) (Behave.repetition m p least most text i env) := by
  have more : ∀ limit j values, j.Parserless σ₀ → (∀ u ∈ values, u.Parserless σ₀) →
      Ignores σ₀ t state (Value.IsOutcome σ₀) (Behave.moreRounds m p text env limit values j) := by
    intro limit j values hj hv
    refine (ignores_optionalRounds hm known _ hj hv).bind fun ended free => ?_
    dsimp only
    split
    · exact ignores_throw _
    · exact ignores_pure (isOutcome_success free.1 (parserless_list free.2))
  refine (ignores_requiredRounds hm known _ hi isOutcome_none (by simp)).bind fun progress free => ?_
  cases progress with
  | failed merged => exact ignores_pure free
  | reached j values =>
    cases Behave.roundsBeyond 0 least with
    | some n => exact more _ j values free.1 free.2
    | none => exact ignores_throw _

theorem ignores_exclude (hm : m.Ignores σ₀ t state grammar text env) {p q : ParserId}
    (allowed : grammar p) (forbidden : grammar q) (hi : i.Parserless σ₀) :
    Ignores σ₀ t state (Value.IsOutcome σ₀) (Behave.exclude m p q text i env) := by
  refine (hm q i forbidden hi).bind fun outcome returned => ?_
  refine ignores_decide returned.1 (fun f parts => ?_) fun f parts => ?_
  · exact (ignores_textOf parts.2.2).bind fun words _ => ignores_pure (isOutcome_failure hi _)
  refine (hm p i allowed hi).bind fun outcome returned => ?_
  refine ignores_decide returned.1 (fun a _ => ignores_pure returned) fun a parts' => ?_
  refine (ignores_expectedText parts'.2.2).bind fun wanted _ => ?_
  exact (ignores_expectedText parts.2.2).bind fun except _ => ignores_pure (isOutcome_failure hi _)

theorem ignores_describe (hm : m.Ignores σ₀ t state grammar text env) {p : ParserId}
    (known : grammar p) (d : String) (hi : i.Parserless σ₀) :
    Ignores σ₀ t state (Value.IsOutcome σ₀) (Behave.describe m p d text i env) := by
  refine (hm p i known hi).bind fun outcome returned => ?_
  refine ignores_decide returned.1 (fun r _ => ignores_pure returned) fun r parts => ignores_pure ?_
  exact ⟨parserless_result parts.1 parts.2.1 (parserless_list (by simp)), .inr ⟨_, _, _, rfl⟩⟩

theorem ignores_mark (hm : m.Ignores σ₀ t state grammar text env) {p : ParserId} (known : grammar p)
    (hi : i.Parserless σ₀) :
    Ignores σ₀ t state (Value.IsOutcome σ₀) (Behave.mark m p text i env) := by
  refine (hm p i known hi).bind fun outcome returned => ?_
  refine ignores_decide returned.1 (fun r parts => ?_) fun r _ => ignores_pure returned
  refine (ignores_threeOf parts.2.2).bind fun three free => ignores_pure ?_
  exact isOutcome_success parts.2.1 (parserless_mark free.1 free.2.1 free.2.2)

theorem ignores_andFinally_popTracer {α : Type} {P : α → Prop} {x : Eval α}
    (h : Ignores σ₀ t state P x) : Ignores σ₀ t state P (Behave.andFinally x Behave.popTracer) := by
  have popped : ∀ τ, σ₀.During τ → σ₀.During { τ with tracers := τ.tracers.drop 1 } := fun τ later =>
    later.congr rfl rfl rfl fun handler member => later.tracers handler (List.mem_of_mem_drop member)
  intro σ during
  refine ends_andFinally_popTracer.mpr ((h σ during).mono ?_ ?_)
  · rintro a τ ⟨same, good, later⟩
    refine ⟨?_, good, popped τ later⟩
    simp only [Behave.andFinally, same]
    rfl
  · rintro e τ ⟨same, later⟩
    refine ⟨?_, popped τ later⟩
    simp only [Behave.andFinally, same]
    rfl

/-- A handler that prints may become the innermost tracer. -/
theorem ignores_debug (hm : m.Ignores σ₀ t state grammar text env) {p : ParserId} (known : grammar p)
    {handler : Value} (prints : handler.Prints σ₀) (hi : i.Parserless σ₀) :
    Ignores σ₀ t state (Value.IsOutcome σ₀) (Behave.debug m p handler text i env) := by
  refine (ignores_modify (fun _ => rfl) fun σ during => ?_).bind fun _ _ =>
    ignores_andFinally_popTracer (hm p i known hi)
  refine during.congr rfl rfl rfl fun other member => ?_
  rcases List.mem_cons.mp member with rfl | active
  · exact prints
  · exact during.tracers other active

/-- A behaviour without functions of the user notices no parser that its children do not notice. -/
theorem ignores_behave (hm : m.Ignores σ₀ t state grammar text env) (inert : b.IsInert σ₀)
    (known : ∀ p ∈ b.children, grammar p) (ht : text.Parserless σ₀) (hi : i.Parserless σ₀) :
    Ignores σ₀ t state (Value.IsOutcome σ₀) (behave m b text i env) := by
  cases b with
  | succeed v => exact ignores_pure (isOutcome_success hi inert)
  | sequence parts => exact ignores_sequenceFrom hm known hi isOutcome_none (by simp)
  | alternative choices => exact ignores_alternativeFrom hm known hi isOutcome_none
  | repetition p least most => exact ignores_repetition hm (known p (by simp [Behaviour.children])) _ _ hi
  | exclude p q =>
    exact ignores_exclude hm (known p (by simp [Behaviour.children]))
      (known q (by simp [Behaviour.children])) hi
  | describe p d => exact ignores_describe hm (known p (by simp [Behaviour.children])) d hi
  | mark p => exact ignores_mark hm (known p (by simp [Behaviour.children])) hi
  | debug p handler => exact ignores_debug hm (known p (by simp [Behaviour.children])) inert hi
  | testChar _ _ | transform _ _ | chain _ _ | subEnvironment _ _ | deferredLookup _ _ => exact inert.elim
  | anyChar | rest | eof | index | lineColumnIndex | fail _ | string _ | regex _ _ =>
    exact ignores_primitive trivial ht hi

end Behaviours

end Rebind
