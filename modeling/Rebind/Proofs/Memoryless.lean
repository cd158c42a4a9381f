import Rebind.Proofs.Classes
import Rebind.Proofs.Frame
/-!
# Parsing has no memory

A grammar without functions of the user and without `debug` nodes only reads the store: its parsers, the
present contents of objects, and the display names that an error text shows.  So runs and calls of its
parsers leave the store as they found it, whether they return or are given up, and each of them comes to the
same whatever calls went before.
-/
namespace Rebind

/-- Stores in which a grammar of this kind reads the same. -/
structure Store.LooksLike (σ τ : Store) : Prop where
  parsers : τ.parsers = σ.parsers
  echoes : τ.echoes = σ.echoes
  edits : τ.edits = σ.edits
  tracers : τ.tracers = σ.tracers

/-- The store in which it is noted in addition whether something was nested too deeply.  Nothing that is
evaluated looks at the note. -/
def Store.noting (met : Bool) (σ : Store) : Store := { σ with overran := σ.overran || met }

section Looks

variable {σ τ υ : Store}

theorem Store.LooksLike.refl (σ : Store) : σ.LooksLike σ := ⟨rfl, rfl, rfl, rfl⟩

theorem Store.LooksLike.trans (first : σ.LooksLike τ) (second : τ.LooksLike υ) : σ.LooksLike υ :=
  ⟨second.parsers.trans first.parsers, second.echoes.trans first.echoes, second.edits.trans first.edits,
    second.tracers.trans first.tracers⟩

theorem looksLike_noting (met : Bool) (σ : Store) : σ.LooksLike (σ.noting met) := ⟨rfl, rfl, rfl, rfl⟩

theorem Store.noting_false (σ : Store) : σ.noting false = σ := by
  simp [Store.noting]

theorem Store.noting_noting (met met' : Bool) (σ : Store) :
    (σ.noting met).noting met' = σ.noting (met || met') := by
  simp [Store.noting, Bool.or_assoc]

/-- What looks alike has the same contents. -/
theorem Store.LooksLike.view (same : σ.LooksLike τ) (v : Value) : τ.view v = σ.view v := by
  cases v <;> simp only [Store.view, same.edits]

/-- It has the same parsers. -/
theorem Store.LooksLike.behaviour? (same : σ.LooksLike τ) (p : ParserId) :
    τ.behaviour? p = σ.behaviour? p := by
  simp only [Store.behaviour?, Store.parser?, same.parsers]

/-- It shows itself in the same way. -/
theorem Store.LooksLike.snapshotWith (same : σ.LooksLike τ) : τ.snapshotWith = σ.snapshotWith := by
  obtain ⟨parsers, echoes, edits, tracers⟩ := same
  cases σ
  cases τ
  cases parsers
  cases echoes
  cases edits
  funext later inside identity v
  -- No constructor is known at which the recursion could be unfolded, but its steps are the same.
  delta Store.snapshotWith
  rfl

theorem Store.LooksLike.snapshotTo (same : σ.LooksLike τ) (depth : Nat) :
    τ.snapshotTo depth = σ.snapshotTo depth := by
  have last : ∀ υ : Store, υ.snapshotTo 0 = υ.snapshotWith fun _ _ _ => .again "..." := fun _ => rfl
  have step : ∀ (υ : Store) n, υ.snapshotTo (n + 1) = υ.snapshotWith (υ.snapshotTo n) := fun _ _ => rfl
  induction depth with
  | zero => rw [last, last, same.snapshotWith]
  | succ depth ih => rw [step, step, ih, same.snapshotWith]

/-- What a value shows. -/
theorem Store.LooksLike.snapshot (same : σ.LooksLike τ) (v : Value) : τ.snapshot v = σ.snapshot v := by
  simp only [Store.snapshot, same.edits, same.parsers, same.snapshotTo]

end Looks

/-! ### Evaluations that only read -/

def ending {α : Type} : Except Fault α → Store → EStateM.Result Fault Store α
  | .ok a, τ => .ok a τ
  | .error e, τ => .error e τ

/-- An evaluation that comes to the same in all stores that look like a given one, and leaves each of them
as it is. -/
def Settled (σ : Store) {α : Type} (x : Eval α) : Prop :=
  ∃ ended met, ∀ τ, σ.LooksLike τ → x τ = ending ended (τ.noting met)

section Settled

variable {σ : Store} {α β : Type} {x : Eval α} {f : α → Eval β}

theorem settled_pure (a : α) : Settled σ (pure a) :=
  ⟨.ok a, false, fun τ _ => by rw [τ.noting_false]; rfl⟩

theorem settled_throw (e : Fault) : Settled σ (throw e : Eval α) :=
  ⟨.error e, false, fun τ _ => by rw [τ.noting_false]; rfl⟩

theorem settled_raise (c : Cause) : Settled σ (raise c : Eval α) := settled_throw _

theorem settled_overrun : Settled σ overrun :=
  ⟨.error (.raised (.error .tooDeep)), true, fun τ _ => by simp [overrun, ending, Store.noting]⟩

/-- Evaluations that are settled may follow each other. -/
theorem Settled.bind (h : Settled σ x) (hf : ∀ a, Settled σ (f a)) : Settled σ (x >>= f) := by
  obtain ⟨ended, met, first⟩ := h
  cases ended with
  | error e => exact ⟨.error e, met, fun τ same => bind_error (first τ same)⟩
  | ok a =>
    obtain ⟨ended', met', second⟩ := hf a
    refine ⟨ended', met || met', fun τ same => ?_⟩
    rw [bind_ok (first τ same), ← τ.noting_noting]
    exact second _ (same.trans (looksLike_noting met τ))

theorem Settled.congr {y : Eval α} (h : Settled σ y) (same : ∀ τ, σ.LooksLike τ → x τ = y τ) :
    Settled σ x := by
  obtain ⟨ended, met, comes⟩ := h
  exact ⟨ended, met, fun τ like => (same τ like).trans (comes τ like)⟩

theorem settled_ite {c : Prop} [Decidable c] {y : Eval α} (hx : Settled σ x) (hy : Settled σ y) :
    Settled σ (if c then x else y) := by
  split
  · exact hx
  · exact hy

/-- What looks at the store where stores that look alike are the same. -/
theorem settled_look {f : Store → α} (h : ∀ τ, σ.LooksLike τ → f τ = f σ) :
    Settled σ (fun τ => .ok (f τ) τ) :=
  ⟨.ok (f σ), false, fun τ same => by rw [τ.noting_false, ← h τ same]; rfl⟩

/-- A question to the store that stores which look alike answer alike. -/
theorem settled_get {f : Store → Eval α} (h : ∀ τ, σ.LooksLike τ → f τ = f σ) (hf : Settled σ (f σ)) :
    Settled σ (get >>= f) :=
  hf.congr fun τ same => congrFun (h τ same) τ

/-! ### Operations -/

/-- The operations one after the other: each comes to the same in stores that look alike. -/
theorem settled_view (v : Value) : Settled σ (view v) := settled_look fun _ same => same.view v

theorem settled_shown (v : Value) : Settled σ (shown v) := settled_look fun _ same => same.snapshot v

theorem settled_textOf (v : Value) : Settled σ (textOf v) :=
  settled_look fun _ same => by rw [same.snapshot v]

theorem settled_truthy (v : Value) : Settled σ (truthy v) := (settled_view v).bind fun _ => settled_pure _

theorem settled_lengthOf (v : Value) : Settled σ (lengthOf v) := by
  refine (settled_view v).bind fun w => ?_
  split <;> first | exact settled_pure _ | exact settled_raise _

theorem settled_equalTo (v w : Value) : Settled σ (equalTo v w) :=
  (settled_shown v).bind fun _ => (settled_shown w).bind fun _ => settled_pure _

theorem settled_checkKey (v : Value) : Settled σ (checkKey v) := by
  refine (settled_shown v).bind fun d => ?_
  split
  · exact settled_pure _
  · exact settled_raise _

theorem settled_entryOf (key : Value) (entries : List (Value × Value)) :
    Settled σ (entryOf key entries) := by
  induction entries with
  | nil => exact settled_pure _
  | cons entry rest ih =>
    exact (settled_equalTo entry.1 key).bind fun found => settled_ite (settled_pure _) ih

theorem settled_offsetOf (v : Value) : Settled σ (offsetOf v) := by
  refine (settled_view v).bind fun w => ?_
  split <;> first | exact settled_pure _ | exact settled_raise _

theorem settled_boundOf (v : Value) : Settled σ (boundOf v) := by
  refine (settled_view v).bind fun w => ?_
  split
  · exact settled_pure _
  · split <;> first | exact settled_pure _ | exact settled_raise _

theorem settled_present (found : Option α) : Settled σ (present found) := by
  cases found with
  | none => exact settled_raise _
  | some a => exact settled_pure a

theorem settled_itemOf (v i : Value) : Settled σ (itemOf v i) := by
  refine (settled_view v).bind fun w => ?_
  split
  · exact (settled_offsetOf i).bind fun n => (settled_present _).bind fun _ => settled_pure _
  · exact (settled_offsetOf i).bind fun n => settled_present _
  · exact (settled_offsetOf i).bind fun n => settled_present _
  · refine (settled_checkKey i).bind fun _ => (settled_entryOf i _).bind fun found => ?_
    split <;> first | exact settled_pure _ | exact settled_raise _
  · exact settled_raise _

theorem settled_sliceOf (v lo hi : Value) : Settled σ (sliceOf v lo hi) := by
  have bounds : ∀ cut : Option Int → Option Int → Value,
      Settled σ (do return cut (← boundOf lo) (← boundOf hi)) := fun cut =>
    (settled_boundOf lo).bind fun _ => (settled_boundOf hi).bind fun _ => settled_pure _
  refine (settled_view v).bind fun w => ?_
  split
  · exact bounds _
  · exact bounds _
  · exact bounds _
  · exact settled_raise _

theorem settled_itemsOf (v : Value) : Settled σ (itemsOf v) := by
  refine (settled_view v).bind fun w => ?_
  split <;> first | exact settled_pure _ | exact settled_raise _

theorem settled_lessThan (v w : Value) : Settled σ (lessThan v w) := by
  refine (settled_view v).bind fun a => (settled_view w).bind fun b => ?_
  split
  · exact settled_pure _
  · refine (settled_shown _).bind fun c => (settled_shown _).bind fun d => ?_
    split <;> first | exact settled_pure _ | exact settled_raise _

theorem settled_atMost (v w : Value) : Settled σ (atMost v w) := by
  refine (settled_view v).bind fun a => (settled_view w).bind fun b => ?_
  split
  · exact settled_pure _
  · split <;> first | exact settled_pure _ | exact settled_raise _

theorem settled_applicable (v : Option Value) : Settled σ (applicable v) := by
  cases v with
  | none => exact settled_raise _
  | some w => exact settled_pure w

theorem settled_addTo (v w : Value) : Settled σ (addTo v w) := by
  refine (settled_view v).bind fun a => (settled_view w).bind fun b => ?_
  split <;> first | exact settled_pure _ | exact settled_applicable _

theorem settled_subtractFrom (v w : Value) : Settled σ (subtractFrom v w) :=
  (settled_view v).bind fun _ => (settled_view w).bind fun _ => settled_applicable _

theorem settled_joinWith (between : String) (v : Value) : Settled σ (joinWith between v) := by
  refine (settled_itemsOf v).bind fun items => ?_
  dsimp only
  split
  · exact settled_raise _
  · exact settled_pure _

theorem settled_expectedText (expected : Value) : Settled σ (expectedText expected) := by
  refine Settled.bind ?_ fun v => settled_textOf v
  refine (settled_lengthOf expected).bind fun n => settled_ite (settled_itemOf _ _) ?_
  exact (settled_joinWith _ _).bind fun _ => settled_pure _

theorem settled_lineColumnOf (text offset : Value) : Settled σ (lineColumnOf text offset) := by
  refine (settled_view text).bind fun w => ?_
  split
  · exact (settled_boundOf offset).bind fun _ => settled_pure _
  · exact (settled_sliceOf _ _ _).bind fun _ => settled_raise _

theorem settled_resultOf (v : Value) : Settled σ (resultOf v) := by
  unfold resultOf
  split
  · exact settled_pure _
  · exact settled_raise _

/-- What depends on whether a result is a success. -/
theorem settled_judged (v : Value) {yes no : Result → Eval α} (hy : ∀ r, Settled σ (yes r))
    (hn : ∀ r, Settled σ (no r)) : Settled σ (do
      let r ← resultOf v
      if ← truthy r.status then yes r else no r) :=
  (settled_resultOf v).bind fun r => (settled_truthy _).bind fun _ => settled_ite (hy r) (hn r)

/-- Results are merged alike. -/
theorem settled_mergeOver (candidate previous : Value) : Settled σ (mergeOver candidate previous) := by
  have reached : ∀ r, Settled σ (furthest r) := fun r =>
    (settled_truthy _).bind fun _ => settled_pure _
  unfold mergeOver
  split
  · exact settled_pure _
  · refine settled_judged candidate (fun c => settled_pure _) fun c => ?_
    refine (settled_resultOf previous).bind fun p => (reached p).bind fun place => ?_
    refine (settled_lessThan _ _).bind fun before => settled_ite (settled_pure _) ?_
    refine (settled_lessThan _ _).bind fun behind => settled_ite (settled_pure _) ?_
    exact (settled_addTo _ _).bind fun _ => settled_pure _

theorem settled_attributeOf (v : Value) (name : String) : Settled σ (attributeOf v name) := by
  refine (settled_view v).bind fun w => ?_
  have part : ∀ (outcome : Value) (part : Result → Value),
      Settled σ (attributeOf.attributeOfResult outcome part) := by
    intro outcome part
    unfold attributeOf.attributeOfResult
    split
    · exact settled_pure _
    · exact settled_raise _
  split <;> try first | exact settled_pure _ | exact settled_raise _
  · refine settled_get (fun τ same => ?_) (settled_pure _)
    simp only [Store.parser?, same.parsers]
  · refine settled_get (fun τ same => ?_) (settled_pure _)
    simp only [Store.parser?, same.parsers]
  · exact (settled_truthy _).bind fun _ => settled_pure _
  · exact part _ _
  · exact part _ _
  · refine settled_get (fun τ same => ?_) ?_
    · rw [same.echoes]
    · split <;> first | exact settled_pure _ | exact settled_raise _
  · split <;> first | exact settled_pure _ | exact settled_raise _

theorem settled_gotText (text index context : Value) : Settled σ (gotText text index context) := by
  have dots : ∀ snippet, Settled σ (withDots snippet) := fun snippet => by
    refine (settled_view snippet).bind fun w => ?_
    split <;> first | exact settled_pure _ | exact settled_raise _
  have quote : ∀ snippet, Settled σ (do return "'" ++ (← textOf snippet) ++ "'") := fun snippet =>
    (settled_textOf snippet).bind fun _ => settled_pure _
  refine (settled_lengthOf text).bind fun size => (settled_atMost _ _).bind fun past => ?_
  refine settled_ite (settled_pure _) ?_
  refine (settled_addTo _ _).bind fun stop => (settled_sliceOf _ _ _).bind fun snippet => ?_
  refine (settled_subtractFrom _ _).bind fun left => (settled_lessThan _ _).bind fun more => ?_
  dsimp only
  split
  · exact (dots snippet).bind quote
  · exact (settled_pure snippet).bind quote

theorem settled_errorText (text outcome context : Value) : Settled σ (errorText text outcome context) := by
  refine (settled_attributeOf _ _).bind fun value => (settled_expectedText value).bind fun expected => ?_
  refine (settled_attributeOf _ _).bind fun index => (settled_textOf index).bind fun place => ?_
  exact (settled_gotText _ _ _).bind fun got => settled_pure _

end Settled

/-! ### Behaviours -/

/-- A behaviour that calls no function of the user and reports to no handler, over the parsers on which it
is built.  It may hold a value of any kind. -/
def Behaviour.IsFunctionless : BehaviourClass := fun parsers b =>
  (b.Bare ∨ ∃ v, b = .succeed v) ∧ ∀ p ∈ b.children, parsers p

/-- A machine on which some parsers only read. -/
def Machine.Settled (m : Machine) (σ : Store) (parsers : ParserId → Prop) : Prop :=
  ∀ p, parsers p → ∀ text i env, Rebind.Settled σ (m.run p text i env)

section Behaviours

variable {σ : Store} {m : Machine} {parsers : ParserId → Prop} {text i env : Value}

theorem settled_anyChar (text i env : Value) : Settled σ (Behave.anyChar text i env) := by
  refine (settled_lengthOf text).bind fun size => (settled_atMost _ _).bind fun past => ?_
  refine settled_ite (settled_pure _) ?_
  exact (settled_addTo _ _).bind fun next => (settled_itemOf _ _).bind fun c => settled_pure _

theorem settled_eof (text i env : Value) : Settled σ (Behave.eof text i env) := by
  refine (settled_lengthOf text).bind fun size => (settled_lessThan _ _).bind fun more => ?_
  exact settled_ite (settled_pure _) (settled_pure _)

theorem settled_string (literal : String) (text i env : Value) :
    Settled σ (Behave.string literal text i env) := by
  have asked : Settled σ (Behave.holdsAt text literal i) := by
    refine (settled_view text).bind fun w => ?_
    split
    · exact (settled_boundOf i).bind fun bound => settled_pure _
    · exact settled_raise _
  refine asked.bind fun holds => settled_ite ?_ (settled_pure _)
  exact (settled_addTo _ _).bind fun next => settled_pure _

theorem settled_regex (r : Regex) (group : Nat) (text i env : Value) :
    Settled σ (Behave.regex r group text i env) := by
  refine (settled_sliceOf _ _ _).bind fun left => ?_
  split
  · refine settled_ite (settled_raise _) ?_
    split
    · refine (settled_addTo _ _).bind fun next => Settled.bind ?_ fun _ => settled_pure _
      exact settled_ite (settled_raise _) (settled_pure _)
    · exact settled_pure _
  · exact settled_raise _

/-- Behaviours are settled over parsers that are. -/
theorem settled_sequenceFrom (hm : m.Settled σ parsers) {ps : List ParserId} (known : ∀ p ∈ ps, parsers p)
    (previous : Value) (values : List Value) (i : Value) :
    Settled σ (Behave.sequenceFrom m text env ps previous values i) := by
  induction ps generalizing previous values i with
  | nil => exact settled_mergeOver _ _
  | cons p ps ih =>
    refine (hm p (known p (by simp)) _ _ _).bind fun outcome => (settled_mergeOver _ _).bind fun merged => ?_
    refine settled_judged _ (fun r => ?_) fun r => settled_pure _
    exact ih (fun q member => known q (List.mem_cons_of_mem _ member)) _ _ _

theorem settled_alternativeFrom (hm : m.Settled σ parsers) {ps : List ParserId}
    (known : ∀ p ∈ ps, parsers p) (previous : Value) :
    Settled σ (Behave.alternativeFrom m text i env ps previous) := by
  induction ps generalizing previous with
  | nil => exact settled_pure _
  | cons p ps ih =>
    refine (hm p (known p (by simp)) _ _ _).bind fun outcome => (settled_mergeOver _ _).bind fun merged => ?_
    refine settled_judged _ (fun r => settled_pure _) fun r => ?_
    exact ih (fun q member => known q (List.mem_cons_of_mem _ member)) _

theorem settled_requiredRounds (hm : m.Settled σ parsers) {item : ParserId} (known : parsers item) (n : Nat)
    (previous : Value) (values : List Value) (i : Value) :
    Settled σ (Behave.requiredRounds m item text env n previous values i) := by
  induction n generalizing previous values i with
  | zero => exact settled_pure _
  | succ n ih =>
    refine (hm item known _ _ _).bind fun outcome => (settled_mergeOver _ _).bind fun merged => ?_
    exact settled_judged _ (fun r => ih _ _ _) fun r => settled_pure _

theorem settled_optionalRounds (hm : m.Settled σ parsers) {item : ParserId} (known : parsers item) (n : Nat)
    (values : List Value) (i : Value) :
    Settled σ (Behave.optionalRounds m item text env n values i) := by
  induction n generalizing values i with
  | zero => exact settled_pure _
  | succ n ih =>
    refine (hm item known _ _ _).bind fun outcome => ?_
    exact settled_judged _ (fun r => ih _ _) fun r => settled_pure _

theorem settled_repetition (hm : m.Settled σ parsers) {item : ParserId} (known : parsers item)
    (least most : Count) : Settled σ (Behave.repetition m item least most text i env) := by
  refine (settled_requiredRounds hm known _ _ _ _).bind fun progress => ?_
  split
  · exact settled_pure _
  · split
    · refine (settled_optionalRounds hm known _ _ _).bind fun reached => ?_
      exact settled_ite (settled_throw _) (settled_pure _)
    · exact settled_throw _

theorem settled_exclude (hm : m.Settled σ parsers) {allowed forbidden : ParserId} (first : parsers allowed)
    (second : parsers forbidden) : Settled σ (Behave.exclude m allowed forbidden text i env) := by
  refine (hm forbidden second _ _ _).bind fun found => settled_judged _ (fun f => ?_) fun f => ?_
  · exact (settled_textOf _).bind fun s => settled_pure _
  refine (hm allowed first _ _ _).bind fun outcome => settled_judged _ (fun a => settled_pure _) fun a => ?_
  exact (settled_expectedText _).bind fun wanted => (settled_expectedText _).bind fun except =>
    settled_pure _

theorem settled_describe (hm : m.Settled σ parsers) {inner : ParserId} (known : parsers inner) (d : String) :
    Settled σ (Behave.describe m inner d text i env) :=
  (hm inner known _ _ _).bind fun _ =>
    settled_judged _ (fun _ => settled_pure _) fun _ => settled_pure _

theorem settled_mark (hm : m.Settled σ parsers) {framed : ParserId} (known : parsers framed) :
    Settled σ (Behave.mark m framed text i env) := by
  have three : ∀ v, Settled σ (Behave.threeOf v) := fun v => by
    refine (settled_itemsOf v).bind fun items => ?_
    split
    · exact settled_pure _
    · exact settled_raise _
  refine (hm framed known _ _ _).bind fun outcome => settled_judged _ (fun r => ?_) fun r => settled_pure _
  exact (three _).bind fun parts => settled_pure _

/-- A behaviour without functions only reads if the parsers on which it is built do. -/
theorem settled_behave (hm : m.Settled σ parsers) {b : Behaviour Value} (h : b.IsFunctionless parsers)
    (text i env : Value) : Settled σ (behave m b text i env) := by
  obtain ⟨bare | ⟨v, rfl⟩, known⟩ := h
  · cases b with
    | anyChar => exact settled_anyChar text i env
    | rest =>
      exact (settled_lengthOf text).bind fun _ => (settled_sliceOf _ _ _).bind fun _ => settled_pure _
    | eof => exact settled_eof text i env
    | index => exact settled_pure _
    | lineColumnIndex => exact (settled_lineColumnOf _ _).bind fun _ => settled_pure _
    | fail d => exact settled_pure _
    | string s => exact settled_string s text i env
    | regex r group => exact settled_regex r group text i env
    | sequence parts => exact settled_sequenceFrom hm known _ _ _
    | alternative choices => exact settled_alternativeFrom hm known _
    | repetition item least most => exact settled_repetition hm (known item (by simp [Behaviour.children])) _ _
    | exclude allowed forbidden =>
      exact settled_exclude hm (known allowed (by simp [Behaviour.children]))
        (known forbidden (by simp [Behaviour.children]))
    | describe inner d => exact settled_describe hm (known inner (by simp [Behaviour.children])) d
    | mark framed => exact settled_mark hm (known framed (by simp [Behaviour.children]))
    | succeed | testChar | transform | chain | subEnvironment | deferredLookup | debug => exact bare.elim
  · exact settled_pure _

/-! ### Runs and calls -/

/-- Parsers of a grammar without functions, run without a tracer, only read. -/
theorem settled_run (untraced : σ.tracers = []) (host : Host) (rounds depth : Nat) :
    (machine host rounds depth).Settled σ (Among Behaviour.IsFunctionless σ) := by
  induction depth with
  | zero => exact fun _ _ _ _ _ => settled_overrun
  | succ depth ih =>
    intro p known text i env
    obtain ⟨parsers, b, does, fits, children⟩ := known.behaviour
    have inside : b.IsFunctionless (Among Behaviour.IsFunctionless σ) :=
      ⟨fits.1, fun q member => children q (fits.2 q member)⟩
    refine (settled_behave ih inside text i env).congr fun τ same => ?_
    exact run_above text i env (same.tracers.trans untraced) ((same.behaviour? p).trans does)

/-- So is a direct call, which also asks for the end of the text. -/
theorem settled_callParser (hm : m.Settled σ parsers) {p : ParserId} (known : parsers p) :
    Settled σ (callParser m p text env i) := by
  refine (hm p known _ _ _).bind fun outcome => settled_judged _ (fun r => ?_) fun r => settled_pure _
  refine (settled_lengthOf _).bind fun size => (settled_lessThan _ _).bind fun more => ?_
  exact settled_ite (settled_mergeOver _ _) (settled_pure _)

/-- So is `parse`, with the error that it raises. -/
theorem settled_parseText (hm : m.Settled σ parsers) {p : ParserId} (known : parsers p) (name : Value) :
    Settled σ (parseText m p text env name) := by
  refine (settled_callParser hm known).bind fun outcome =>
    settled_judged _ (fun r => settled_pure _) fun r => ?_
  exact Settled.bind ((settled_errorText _ _ _).bind fun _ => settled_pure _) fun error => settled_throw _

end Behaviours

/-- A call of a parser from outside: a run, a call on a whole text, or a parse that raises an error where the
text does not match. -/
inductive ParseCall where
  | run (parser : ParserId) (text index environment : Value)
  | call (parser : ParserId) (text environment index : Value)
  | parse (parser : ParserId) (text environment name : Value)

namespace ParseCall

def parser : ParseCall → ParserId
  | run p _ _ _ | call p _ _ _ | parse p _ _ _ => p

def perform (m : Machine) : ParseCall → Eval Value
  | run p text i env => m.run p text i env
  | call p text env i => callParser m p text env i
  | parse p text env name => parseText m p text env name

/-- Several calls in order, whatever each of them comes to, and the store after all of them.  Those who
called keep what they get: it is given identities. -/
def performAll (m : Machine) : List ParseCall → Store → List (Except Fault Value) × Store
  | [], σ => ([], σ)
  | c :: rest, σ =>
    match c.perform m σ with
    | .ok v τ =>
      let (outcomes, υ) := performAll m rest { τ with nextObject := (v.identify τ.nextObject).2 }
      (.ok v :: outcomes, υ)
    | .error e τ =>
      let (outcomes, υ) := performAll m rest τ
      (.error e :: outcomes, υ)

end ParseCall

/-- Every call on a grammar without functions and tracers is settled. -/
theorem settled_perform {σ : Store} (untraced : σ.tracers = []) (host : Host) (rounds depth : Nat)
    {c : ParseCall} (known : Among Behaviour.IsFunctionless σ c.parser) :
    Settled σ (c.perform (machine host rounds depth)) := by
  have runs := settled_run untraced host rounds depth
  cases c with
  | run p text i env => exact runs p known text i env
  | call p text env i => exact settled_callParser runs known
  | parse p text env name => exact settled_parseText runs known name

/-- Calls in order come to what each of them comes to alone, from the start.  What has changed in the end is
which identities were given. -/
theorem performAll_eq {σ τ : Store} {m : Machine} {calls : List ParseCall}
    (settled : ∀ c ∈ calls, Settled σ (c.perform m)) (same : σ.LooksLike τ) :
    (ParseCall.performAll m calls τ).1 = calls.map (fun c => outcome (c.perform m σ)) ∧
      ∃ met next, (ParseCall.performAll m calls τ).2 = { τ.noting met with nextObject := next } := by
  induction calls generalizing τ with
  | nil => exact ⟨rfl, false, τ.nextObject, by rw [τ.noting_false]; rfl⟩
  | cons c rest ih =>
    obtain ⟨ended, met, comes⟩ := settled c (by simp)
    have later : ∀ d ∈ rest, Settled σ (d.perform m) := fun d member => settled d (by simp [member])
    have alone := comes σ (.refl σ)
    have now := comes τ same
    have noted := same.trans (looksLike_noting met τ)
    have onward : ∀ next met', ({ τ.noting met with nextObject := next } : Store).noting met' =
        { τ.noting (met || met') with nextObject := next } := fun next met' => by
      rw [← τ.noting_noting]
      rfl
    cases ended with
    | error e =>
      obtain ⟨outcomes, met', next, left⟩ := ih later noted
      simp only [ParseCall.performAll, now, ending, List.map_cons, alone, outcomes, outcome]
      exact ⟨trivial, met || met', next, by rw [left, τ.noting_noting]⟩
    | ok v =>
      have kept : σ.LooksLike { τ.noting met with nextObject := (v.identify (τ.noting met).nextObject).2 } :=
        noted.trans ⟨rfl, rfl, rfl, rfl⟩
      obtain ⟨outcomes, met', next, left⟩ := ih later kept
      simp only [ParseCall.performAll, now, ending, List.map_cons, alone, outcomes, outcome]
      exact ⟨trivial, met || met', next, by rw [left, onward]⟩

/-- Parsing has no memory.  On parsers of a grammar without functions of the user and without `debug` nodes, a
run, a call or a parse leaves every store as it was that looks like the given one, and comes to the same in
all of them, whether it returns or is given up.  So however many such calls follow each other, each comes to
what it comes to alone, and in the end every value shows what it showed at the start. -/
theorem parse_memoryless (host : Host) (rounds depth : Nat) {σ : Store} (untraced : σ.tracers = [])
    {calls : List ParseCall} (functionless : ∀ c ∈ calls, Among Behaviour.IsFunctionless σ c.parser) :
    (∀ c ∈ calls, ∃ met, ∀ τ, σ.LooksLike τ → c.perform (machine host rounds depth) τ =
      ending (outcome (c.perform (machine host rounds depth) σ)) (τ.noting met)) ∧
    (ParseCall.performAll (machine host rounds depth) calls σ).1 =
      calls.map (fun c => outcome (c.perform (machine host rounds depth) σ)) ∧
    (∃ met next, (ParseCall.performAll (machine host rounds depth) calls σ).2 =
      { σ.noting met with nextObject := next }) ∧
    ∀ v, (ParseCall.performAll (machine host rounds depth) calls σ).2.snapshot v = σ.snapshot v := by
  have settled : ∀ c ∈ calls, Settled σ (c.perform (machine host rounds depth)) := fun c member =>
    settled_perform untraced host rounds depth (functionless c member)
  obtain ⟨outcomes, met, next, left⟩ := performAll_eq settled (.refl σ)
  refine ⟨fun c member => ?_, outcomes, ⟨met, next, left⟩, fun v => ?_⟩
  · obtain ⟨ended, met, comes⟩ := settled c member
    refine ⟨met, fun τ same => ?_⟩
    rw [comes τ same, comes σ (.refl σ)]
    cases ended <;> rfl
  · have looks : σ.LooksLike { σ.noting met with nextObject := next } := ⟨rfl, rfl, rfl, rfl⟩
    rw [left]
    exact looks.snapshot v

private def functionlessHost : Host := ⟨fun _ _ _ => raise .wrongType, Value.share⟩

/-- Letters in brackets that nest: parser 8 is a letter or a bracketed nest, and gives a list that somebody
holds where it reads nothing. -/
private def nest : Store :=
  { Store.initial with
    parsers := Store.initial.parsers ++ #[⟨.object 5 (.behaviour (.string "(")), .str "string('(')"⟩,
      ⟨.object 6 (.behaviour (.string ")")), .str "string(')')"⟩,
      ⟨.object 7 (.behaviour (.sequence [5, 8, 6])), .str "sequence(*3)"⟩,
      ⟨.object 8 (.behaviour (.alternative [7, 9])), .str "alternative(*2)"⟩,
      ⟨.object 9 (.behaviour (.succeed (.object 4 (.list [.parser 8])))), .str "succeed"⟩]
    nextObject := 10 }

private theorem nest_functionless : Among Behaviour.IsFunctionless nest 8 := by
  refine ⟨fun p => p = 5 ∨ p = 6 ∨ p = 7 ∨ p = 8 ∨ p = 9, by simp, ?_⟩
  rintro p (rfl | rfl | rfl | rfl | rfl)
  · exact ⟨_, rfl, .inl trivial, by simp [Behaviour.children]⟩
  · exact ⟨_, rfl, .inl trivial, by simp [Behaviour.children]⟩
  · exact ⟨_, rfl, .inl trivial, by simp [Behaviour.children]⟩
  · exact ⟨_, rfl, .inl trivial, by simp [Behaviour.children]⟩
  · exact ⟨_, rfl, .inr ⟨_, rfl⟩, by simp [Behaviour.children]⟩

/-- Between two equal runs a parse that raises an error, and a call that is nested too deeply. -/
private def nestCalls : List ParseCall :=
  [.run 8 (.str "(())") (.int 0) .none, .parse 8 (.str "(()") .none (.str "in"),
    .call 8 (.str "((((((((") .none (.int 0), .run 8 (.str "(())") (.int 0) .none]

/-- Calls of all kinds on a recursive grammar, the first of which is made again at the end. -/
theorem parse_memoryless_nest :
    nest.tracers = [] ∧ (∀ c ∈ nestCalls, Among Behaviour.IsFunctionless nest c.parser) ∧
      (∀ c ∈ nestCalls, ∃ met, ∀ τ, nest.LooksLike τ → c.perform (machine functionlessHost 10 9) τ =
        ending (outcome (c.perform (machine functionlessHost 10 9) nest)) (τ.noting met)) ∧
      (ParseCall.performAll (machine functionlessHost 10 9) nestCalls nest).1 =
        nestCalls.map (fun c => outcome (c.perform (machine functionlessHost 10 9) nest)) ∧
      (∃ met next, (ParseCall.performAll (machine functionlessHost 10 9) nestCalls nest).2 =
        { nest.noting met with nextObject := next }) ∧
      ∀ v, (ParseCall.performAll (machine functionlessHost 10 9) nestCalls nest).2.snapshot v =
        nest.snapshot v := by
  have functionless : ∀ c ∈ nestCalls, Among Behaviour.IsFunctionless nest c.parser := by
    simp only [nestCalls, List.forall_mem_cons, ParseCall.parser]
    exact ⟨nest_functionless, nest_functionless, nest_functionless, nest_functionless, by simp⟩
  exact ⟨rfl, functionless, parse_memoryless functionlessHost 10 9 rfl functionless⟩

end Rebind
