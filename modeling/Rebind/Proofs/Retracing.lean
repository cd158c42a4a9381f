import Rebind.Proofs.Courses
import Rebind.Proofs.Matching
import Rebind.Proofs.Renumbering
import Rebind.Proofs.TraceLines
import Rebind.Proofs.Translation
/-!
# Tracing only adds lines

A grammar that is run under a printing handler prints lines in addition, and makes one parser, one handler and
one object more.  Apart from that it does what it does without the handler: every run and every call ends in
the same way, with the values and errors under the numbers that are left.  So it is where all is run on texts
and from whole offsets that are not negative, as the library itself does; functions of the user, which may run
parsers on anything, are asked to keep to that.
-/
namespace Rebind

/-- The behaviours of the library without those that report to a handler. -/
def Behaviour.Undebugged (functions choosers : Value → Prop) : BehaviourClass
  | _, .testChar f _ => functions f
  | parsers, .sequence ps => ∀ p ∈ ps, parsers p
  | parsers, .alternative ps => ps ≠ [] ∧ ∀ p ∈ ps, parsers p
  | parsers, .repetition p _ _ | parsers, .describe p _ | parsers, .mark p => parsers p
  | parsers, .transform p f | parsers, .subEnvironment p f => parsers p ∧ functions f
  | parsers, .exclude allowed forbidden => parsers allowed ∧ parsers forbidden
  | parsers, .chain p f => parsers p ∧ choosers f
  | _, .deferredLookup f _ => choosers f
  | _, .debug _ _ => False
  | _, .anyChar | _, .rest | _, .eof | _, .index | _, .lineColumnIndex | _, .succeed _ | _, .fail _
  | _, .string _ | _, .regex _ _ => True

def Fault.renumbered (g : Gap) : Fault → Fault
  | .raised e => .raised (e.renumbered g)
  | .endless => .endless

/-- The course in which it stays known that something was nested too deeply, and what is on record stays so. -/
def Course.limited : Course where
  leads σ τ := (σ.overran = true → τ.overran = true) ∧ ∃ more, τ.journal = more ++ σ.journal
  refl _ := ⟨id, [], rfl⟩
  trans := by
    rintro σ τ υ ⟨still, more, journal⟩ ⟨still', more', journal'⟩
    exact ⟨still' ∘ still, more' ++ more, by rw [journal', journal, List.append_assoc]⟩

theorem limited_blind : Course.limited.Blind where
  quiet _ _ _ := ⟨id, [], rfl⟩
  record _ r := ⟨id, [r], rfl⟩
  tracers _ _ := ⟨id, [], rfl⟩
  overrun _ := ⟨fun _ => rfl, [], rfl⟩
  counts _ := trivial

/-- The numbers that are given out next. -/
def Store.gap (σ : Store) : Gap := ⟨σ.parsers.size, σ.echoes.size, σ.nextObject⟩

open Course Attempt Trace

/-- What is known of a trace: the store before it was made, how its handler prints, and how the store may have
changed since where it is not traced, which is what functions of the user may rely on. -/
structure Watch where
  origin : Store
  look : Look
  course : Course
  steady : look.Steady
  fresh : ∀ {σ : Store} {n : Nat}, σ.nextObject ≤ n → course.leads σ { σ with nextObject := n }

/-- The numbers that a trace took for itself. -/
def Watch.gap (w : Watch) : Gap := w.origin.gap

/-- Stores of two evaluations of which the second one is traced: the first one printed nothing, and what the
second one printed is what its handler tells of the visits on record. -/
structure Annotated (w : Watch) (σ τ : Store) : Prop extends Store.Beside w.gap σ τ where
  led : w.course.leads w.origin σ
  silent : σ.printed = w.origin.printed
  told : ∃ reports depth lines,
    τ.journal = reports ++ w.origin.journal ∧ τ.printed = w.origin.printed ++ lines ∧
    w.look.Narrates (.echo w.gap.echo) τ reports depth lines ∧ τ.echoes[w.gap.echo]? = some (w.look.at depth)

/-- The same while the handler is on. -/
structure Watched (w : Watch) (σ τ : Store) : Prop extends Annotated w σ τ where
  untraced : σ.tracers = []
  traced : τ.tracers = [.echo w.gap.echo]

/-- The first evaluation, which is traced, ends as the second one does, unless it was nested too deeply. -/
def Retraces (w : Watch) (σ τ : Store) {α β : Type} (x : Eval α) (y : Eval β) (R : α → β → Store → Prop) :
    Prop :=
  Ends x τ
    (fun a τ' => τ'.overran = true ∨
      ∃ b σ', y σ = .ok b σ' ∧ Watched w σ' τ' ∧ kept.leads σ σ' ∧ R a b σ')
    fun e τ' => τ'.overran = true ∨
      ∃ e' σ', y σ = .error e' σ' ∧ Watched w σ' τ' ∧ kept.leads σ σ' ∧ e = e'.renumbered w.gap

section Retraces

variable {w : Watch} {σ τ : Store} {α β γ δ : Type} {x : Eval α} {y : Eval β} {R : α → β → Store → Prop}
  {f : α → Eval γ} {k : β → Eval δ} {Q : γ → δ → Store → Prop}

theorem retraces_pure {a : α} {b : β} (hw : Watched w σ τ) (h : R a b σ) :
    Retraces w σ τ (pure a) (pure b) R := .inr ⟨b, σ, rfl, hw, kept.refl σ, h⟩

theorem retraces_raise (hw : Watched w σ τ) (c : Cause) : Retraces w σ τ (raise c : Eval α) (raise c) R :=
  .inr ⟨.raised (.error c), σ, rfl, hw, kept.refl σ, rfl⟩

theorem retraces_endless (hw : Watched w σ τ) :
    Retraces w σ τ (throw .endless : Eval α) (throw .endless) R :=
  .inr ⟨.endless, σ, rfl, hw, kept.refl σ, rfl⟩

/-- Evaluations that retrace each other may be followed by such. -/
theorem Retraces.bind (h : Retraces w σ τ x y R) (keeps : ∀ a, limited.Keeps (f a))
    (hf : ∀ a b σ' τ', Watched w σ' τ' → kept.leads σ σ' → R a b σ' → Retraces w σ' τ' (f a) (k b) Q) :
    Retraces w σ τ (x >>= f) (y >>= k) Q := by
  refine Ends.bind (Ends.mono h (fun _ _ h => h) ?_) ?_
  · rintro e τ' (beyond | ⟨e', σ', hy, rest⟩)
    · exact .inl beyond
    · exact .inr ⟨e', σ', bind_error hy, rest⟩
  · rintro a τ' (beyond | ⟨b, σ', hy, hw, led, hr⟩)
    · exact (keeps a τ').mono (fun _ _ still => .inl (still.1 beyond)) fun _ _ still =>
        .inl ((still trivial).1 beyond)
    · refine Ends.mono (hf a b σ' τ' hw led hr) ?_ ?_
      · rintro c υ (beyond | ⟨d, σ'', hk, hw', led', hq⟩)
        · exact .inl beyond
        · exact .inr ⟨d, σ'', (bind_ok hy).trans hk, hw', kept.trans led led', hq⟩
      · rintro e υ (beyond | ⟨e', σ'', hk, hw', led', same⟩)
        · exact .inl beyond
        · exact .inr ⟨e', σ'', (bind_ok hy).trans hk, hw', kept.trans led led', same⟩

/-- What is known of the two results may be weakened. -/
theorem Retraces.mono {R' : α → β → Store → Prop} (h : Retraces w σ τ x y R)
    (hr : ∀ a b σ', kept.leads σ σ' → R a b σ' → R' a b σ') : Retraces w σ τ x y R' := by
  refine Ends.imp h ?_
  rintro a τ' (beyond | ⟨b, σ', hy, hw, led, related⟩)
  · exact .inl beyond
  · exact .inr ⟨b, σ', hy, hw, led, hr a b σ' led related⟩

/-- Only what the evaluations do in the two stores matters. -/
theorem Retraces.congr {x' : Eval α} {y' : Eval β} (h : Retraces w σ τ x' y' R) (left : x τ = x' τ)
    (right : y σ = y' σ) : Retraces w σ τ x y R := by
  unfold Retraces at h ⊢
  rw [right]
  exact Ends.congr left h

/-- Both sides go on from what they read. -/
theorem Retraces.reads {a : α} {b : β} (h : Retraces w σ τ (f a) (k b) Q) (left : x τ = .ok a τ)
    (right : y σ = .ok b σ) : Retraces w σ τ (x >>= f) (y >>= k) Q :=
  h.congr (bind_ok left) (bind_ok right)

theorem retraces_ite {c : Prop} [Decidable c] {x' : Eval α} {y' : Eval β} (yes : Retraces w σ τ x y R)
    (no : Retraces w σ τ x' y' R) :
    Retraces w σ τ (if c then x else x') (if c then y else y') R := by
  split
  · exact yes
  · exact no

end Retraces

/-- The results of the same attempt, which did not end before the start of the text. -/
def SameAttempt (g : Gap) (v u : Value) (_ : Store) : Prop :=
  ∃ a : Attempt, 0 ≤ a.index ∧ v = (a.renumbered g).value ∧ u = a.value

/-- What a parser is given in a direct call on a text. -/
inductive DirectCall (s : String) : List Value → Prop
  | text : DirectCall s [.str s]
  | environment (env : Value) : DirectCall s [.str s, env]
  | index (env : Value) {i : Int} (start : 0 ≤ i) : DirectCall s [.str s, env, .int i]

/-- A machine that traces what another one does.  What its functions do is up to the user. -/
structure Machine.Retraces (w : Watch) (functions choosers : Value → Prop) (m m' : Machine) : Prop where
  keeps : m.Keeps limited
  rounds : m'.rounds = m.rounds
  share : m.share = Value.share
  share' : m'.share = Value.share
  run : ∀ {σ τ p i}, Watched w σ τ → Among (Behaviour.Undebugged functions choosers) σ p → 0 ≤ i →
    ∀ s env, Rebind.Retraces w σ τ
      (m.run (past w.gap.parser p) (.str s) (.int i) (env.renumbered w.gap))
      (m'.run p (.str s) (.int i) env) (SameAttempt w.gap)
  direct : ∀ {σ τ p s arguments}, Watched w σ τ → Among (Behaviour.Undebugged functions choosers) σ p →
    DirectCall s arguments → Rebind.Retraces w σ τ
      (m.call (.parser (past w.gap.parser p)) (arguments.map (·.renumbered w.gap)))
      (m'.call (.parser p) arguments) (SameAttempt w.gap)
  call : ∀ {σ τ f}, Watched w σ τ → functions f ∨ choosers f → ∀ arguments, Rebind.Retraces w σ τ
      (m.call (f.renumbered w.gap) (arguments.map (·.renumbered w.gap))) (m'.call f arguments)
      fun v u υ => v = u.renumbered w.gap ∧ (choosers f → ∀ p, u = .parser p → p < υ.parsers.size →
        Among (Behaviour.Undebugged functions choosers) υ p)

/-! ### Behaviours that run nothing -/

section Primitives

variable {g : Gap} {s : String} {i : Int}

/-- On a text a behaviour that runs no parser and calls no function computes an attempt, or always fails with
the same error.  The offset may be past the end. -/
theorem primitive_cases {b : Behaviour Value} (primitive : b.IsPrimitive) (g : Gap) (s : String)
    (start : 0 ≤ i) :
    (∃ a : Attempt, 0 ≤ a.index ∧ a.renumbered g = a ∧
      ∀ m env, behave m b (.str s) (.int i) env = pure a.value) ∨
      ∃ c, ∀ m env, behave m b (.str s) (.int i) env = raise c := by
  obtain ⟨n, rfl⟩ := Int.eq_ofNat_of_zero_le start
  cases b with
  | anyChar =>
    refine .inl ?_
    simp only [behave, Behave.anyChar, lengthOf_str, atMost_int, addTo_int, pure_bind, decide_eq_true_eq]
    cases there : s.toList[n]? with
    | none =>
      have past : (s.toList.length : Int) ≤ n := by
        have := List.getElem?_eq_none_iff.mp there
        omega
      refine ⟨.missed n ["any character"], start, rfl, fun m env => ?_⟩
      rw [if_pos past]
      rfl
    | some c =>
      have before : ¬ (s.toList.length : Int) ≤ n := by
        have := (List.getElem?_eq_some_iff.mp there).1
        omega
      have item := itemOf_str ((Slice.item?_ofNat s.toList n).trans there)
      refine ⟨.matched (n + 1) (.ofChar c), Int.le_add_one start, rfl, fun m env => ?_⟩
      rw [if_neg before, item]
      rfl
  | rest =>
    refine .inl ⟨.matched s.toList.length (.ofChars (Slice.between s.toList (some n) none)),
      Int.natCast_nonneg _, rfl, fun m env => ?_⟩
    simp only [behave, Behave.rest, lengthOf_str, sliceOf_str, pure_bind]
    rfl
  | eof =>
    refine .inl ?_
    simp only [behave, Behave.eof, lengthOf_str, lessThan_int, pure_bind, decide_eq_true_eq]
    by_cases more : (n : Int) < s.toList.length
    · refine ⟨.missed n ["EOF"], start, rfl, fun m env => ?_⟩
      rw [if_pos more]
      rfl
    · refine ⟨.matched n .none, start, rfl, fun m env => ?_⟩
      rw [if_neg more]
      rfl
  | index => exact .inl ⟨.matched n (.int n), start, rfl, fun _ _ => rfl⟩
  | lineColumnIndex =>
    let place := Text.position s.toList (some (n : Int))
    exact .inl ⟨.matched n (.lineColumn (.int n) (.int place.1) (.int place.2)), start, rfl, fun _ _ => rfl⟩
  | fail d => exact .inl ⟨.missed n [d], start, rfl, fun _ _ => rfl⟩
  | string literal =>
    have asked : Behave.holdsAt (.str s) literal (.int n) =
        pure (Slice.hasAt s.toList literal.toList n) := rfl
    refine .inl ?_
    simp only [behave, Behave.string, asked, addTo_int, pure_bind]
    cases Slice.hasAt s.toList literal.toList n with
    | true =>
      have onward : (0 : Int) ≤ n + literal.toList.length := by omega
      exact ⟨.matched (n + literal.toList.length) (.str literal), onward, rfl, fun _ _ => rfl⟩
    | false => exact ⟨.missed n ["'" ++ literal ++ "'"], start, rfl, fun _ _ => rfl⟩
  | regex r group =>
    simp only [behave, Behave.regex, sliceOf_str, Value.ofChars, pure_bind, String.toList_ofList]
    by_cases bytes : r.isBytes = true
    · exact .inr ⟨.wrongType, fun m env => if_pos bytes⟩
    simp only [bytes, Bool.false_eq_true, if_false]
    cases Regex.matchStart? r (Slice.between s.toList (some n) none) with
    | none => exact .inl ⟨.missed n [r.shown], start, rfl, fun _ _ => rfl⟩
    | some found =>
      simp only [addTo_int, Behave.groupOf, pure_bind]
      by_cases unknown : r.groupCount < group
      · refine .inr ⟨.outOfRange, fun m env => ?_⟩
        rw [if_pos unknown]
        rfl
      · have onward : (0 : Int) ≤ n + found.length := by omega
        refine .inl ⟨.matched (n + found.length) (found.groupValue group), onward, ?_, fun m env => ?_⟩
        · unfold Attempt.renumbered Regex.Found.groupValue
          cases found.group group <;> rfl
        · rw [if_neg unknown]
          rfl
  | _ => exact primitive.elim

end Primitives

/-! ### Behaviours that run parsers or call functions -/

section Behaviours

variable {w : Watch} {functions choosers : Value → Prop} {m m' : Machine} {σ τ : Store} {s : String}
  {env : Value} {i : Int} {α : Type}

theorem sameAttempt (g : Gap) {a : Attempt} (start : 0 ≤ a.index) (σ : Store) :
    SameAttempt g (a.renumbered g).value a.value σ := ⟨a, start, rfl, rfl⟩

theorem retraces_attempt (hw : Watched w σ τ) {a : Attempt} (start : 0 ≤ a.index) :
    Retraces w σ τ (pure (a.renumbered w.gap).value) (pure a.value) (SameAttempt w.gap) :=
  retraces_pure hw (sameAttempt w.gap start σ)

theorem retraces_missed (hw : Watched w σ τ) {place : Int} (start : 0 ≤ place) (expected : List String) :
    Retraces w σ τ (pure (missed place expected).value) (pure (missed place expected).value)
      (SameAttempt w.gap) := retraces_attempt hw (a := .missed place expected) start

theorem retraces_failure (hw : Watched w σ τ) (start : 0 ≤ i) (d : String) :
    Retraces w σ τ (pure (.failure (.int i) (.str d))) (pure (.failure (.int i) (.str d)))
      (SameAttempt w.gap) := retraces_missed hw start [d]

theorem matched_list (g : Gap) (stop : Int) (values : List Value) :
    (matched stop (.list (values.map (·.renumbered g)))).value =
      ((matched stop (.list values)).renumbered g).value := by
  simp [Attempt.renumbered, Value.renumbered, renumberedAll_eq]

/-- What goes on with the results of the same attempt is followed if it is for every attempt. -/
theorem Retraces.attempt {x y : Eval Value} {f k : Value → Eval α} {Q : α → α → Store → Prop}
    (h : Retraces w σ τ x y (SameAttempt w.gap)) (keeps : ∀ v, limited.Keeps (f v))
    (matches' : ∀ j v σ' τ', Watched w σ' τ' → kept.leads σ σ' → 0 ≤ j →
      Retraces w σ' τ' (f (matched j (v.renumbered w.gap)).value) (k (matched j v).value) Q)
    (misses : ∀ place expected σ' τ', Watched w σ' τ' → kept.leads σ σ' → 0 ≤ place →
      Retraces w σ' τ' (f (missed place expected).value) (k (missed place expected).value) Q) :
    Retraces w σ τ (x >>= f) (y >>= k) Q := by
  refine h.bind keeps ?_
  rintro v u σ' τ' hw led ⟨a, start, rfl, rfl⟩
  cases a with
  | matched j v => exact matches' j v σ' τ' hw led start
  | missed place expected => exact misses place expected σ' τ' hw led start

/-- Values show the same text in stores beside each other. -/
theorem Watched.textOf (hw : Watched w σ τ) (v : Value) :
    textOf (v.renumbered w.gap) τ = .ok (σ.snapshot v).text τ := by
  rw [← Datum.text_renumbered (g := w.gap), ← hw.snapshot]
  rfl

/-- Where the rounds that have to succeed led on both sides. -/
inductive SameProgress (g : Gap) : Behave.Progress → Behave.Progress → Store → Prop
  | failed {place : Int} {σ : Store} (expected : List String) (start : 0 ≤ place) :
    SameProgress g (.failed (missed place expected).value) (.failed (missed place expected).value) σ
  | reached {j : Int} {σ : Store} (values : List Value) (start : 0 ≤ j) :
    SameProgress g (.reached (.int j) (values.map (·.renumbered g))) (.reached (.int j) values) σ

variable (hm : m.Retraces w functions choosers m')

include hm

theorem retraces_sequenceFrom (ps : List ParserId) (hw : Watched w σ τ)
    (known : ∀ p ∈ ps, Among (Behaviour.Undebugged functions choosers) σ p) {previous previous' : Value}
    (passive : Passive previous) (passive' : Passive previous') (values : List Value) (start : 0 ≤ i) :
    Retraces w σ τ
      (Behave.sequenceFrom m (.str s) (env.renumbered w.gap) (ps.map (past w.gap.parser)) previous'
        (values.map (·.renumbered w.gap)) (.int i))
      (Behave.sequenceFrom m' (.str s) env ps previous values (.int i)) (SameAttempt w.gap) := by
  induction ps generalizing σ τ previous previous' values i with
  | nil =>
    have last : ∀ (m : Machine) (env : Value) (values : List Value) (previous : Value),
        Behave.sequenceFrom m (.str s) env [] previous values (.int i) =
          pure (matched i (.list values)).value := fun _ _ values previous => mergeOver_matched i _ previous
    rw [List.map_nil, last, last, matched_list]
    exact retraces_attempt hw (a := .matched i (.list values)) start
  | cons p ps ih =>
    rw [List.map_cons]
    unfold Behave.sequenceFrom
    refine (hm.run hw (known p List.mem_cons_self) start s env).attempt (fun outcome => ?_) ?_ ?_
    · refine keeps_bind (keeps_mergeOver _ _ _) fun merged => ?_
      exact keeps_judged _ (fun r => keeps_sequenceFrom hm.keeps _ _ _ _ _ _) fun r => keeps_pure _ _
    · intro j v σ' τ' hw led start
      simp only [mergeOver_matched, resultOf_matched, truthy_bool, pure_bind, if_true]
      have next := ih hw (fun q member => (known q (List.mem_cons_of_mem _ member)).of_kept led)
        (passive_matched j v) (passive_matched j (v.renumbered w.gap)) (values ++ [v]) start
      rwa [List.map_append, List.map_singleton] at next
    · intro place expected σ' τ' hw led start
      simp only [passive place expected start, passive' place expected start, resultOf_missed, truthy_bool,
        pure_bind, Bool.false_eq_true, if_false]
      exact retraces_missed hw start expected

theorem retraces_alternativeFrom (ps : List ParserId) (hw : Watched w σ τ)
    (known : ∀ p ∈ ps, Among (Behaviour.Undebugged functions choosers) σ p)
    (earlier : Option (Int × List String)) (before : ∀ failure, earlier = some failure → 0 ≤ failure.1)
    (given : ps = [] → earlier.isSome) (start : 0 ≤ i) :
    Retraces w σ τ
      (Behave.alternativeFrom m (.str s) (.int i) (env.renumbered w.gap) (ps.map (past w.gap.parser))
        (failureValue earlier))
      (Behave.alternativeFrom m' (.str s) (.int i) env ps (failureValue earlier)) (SameAttempt w.gap) := by
  induction ps generalizing σ τ earlier with
  | nil =>
    cases earlier with
    | none => exact absurd (given rfl) (by simp)
    | some failure => exact retraces_missed hw (before failure rfl) failure.2
  | cons p ps ih =>
    rw [List.map_cons]
    unfold Behave.alternativeFrom
    refine (hm.run hw (known p List.mem_cons_self) start s env).attempt (fun outcome => ?_) ?_ ?_
    · refine keeps_bind (keeps_mergeOver _ _ _) fun merged => ?_
      exact keeps_judged _ (fun r => keeps_pure _ _) fun r => keeps_alternativeFrom hm.keeps _ _ _ _ _
    · intro j v σ' τ' hw led inside
      simp only [mergeOver_matched, resultOf_matched, truthy_bool, pure_bind, if_true]
      exact retraces_attempt hw (a := .matched j v) inside
    · intro place expected σ' τ' hw led inside
      have merged : ∀ failure, some (after place expected earlier) = some failure → 0 ≤ failure.1 := by
        rintro _ ⟨⟩
        exact after_nonneg inside before
      have parts : resultOf (failureValue (some (after place expected earlier))) = _ := resultOf_missed _ _
      simp only [mergeOver_missed, parts, truthy_bool, pure_bind, Bool.false_eq_true, if_false]
      exact ih hw (fun q member => (known q (List.mem_cons_of_mem _ member)).of_kept led)
        (some (after place expected earlier)) merged fun _ => rfl

theorem retraces_requiredRounds {p : ParserId} (n : Nat) (hw : Watched w σ τ)
    (known : Among (Behaviour.Undebugged functions choosers) σ p) {previous previous' : Value}
    (passive : Passive previous) (passive' : Passive previous') (values : List Value) (start : 0 ≤ i) :
    Retraces w σ τ
      (Behave.requiredRounds m (past w.gap.parser p) (.str s) (env.renumbered w.gap) n previous'
        (values.map (·.renumbered w.gap)) (.int i))
      (Behave.requiredRounds m' p (.str s) env n previous values (.int i)) (SameProgress w.gap) := by
  induction n generalizing σ τ previous previous' values i with
  | zero => exact retraces_pure hw (.reached values start)
  | succ n ih =>
    unfold Behave.requiredRounds
    refine (hm.run hw known start s env).attempt (fun outcome => ?_) ?_ ?_
    · refine keeps_bind (keeps_mergeOver _ _ _) fun merged => ?_
      exact keeps_judged _ (fun r => keeps_requiredRounds hm.keeps _ _ _ _ _ _ _) fun r => keeps_pure _ _
    · intro j v σ' τ' hw led start
      simp only [mergeOver_matched, resultOf_matched, truthy_bool, pure_bind, if_true]
      have next := ih hw (known.of_kept led) (passive_matched j v) (passive_matched j (v.renumbered w.gap))
        (values ++ [v]) start
      rwa [List.map_append, List.map_singleton] at next
    · intro place expected σ' τ' hw led start
      simp only [passive place expected start, passive' place expected start, resultOf_missed, truthy_bool,
        pure_bind, Bool.false_eq_true, if_false]
      exact retraces_pure hw (.failed expected start)

theorem retraces_optionalRounds {p : ParserId} (n : Nat) (hw : Watched w σ τ)
    (known : Among (Behaviour.Undebugged functions choosers) σ p) (values : List Value) (start : 0 ≤ i) :
    Retraces w σ τ
      (Behave.optionalRounds m (past w.gap.parser p) (.str s) (env.renumbered w.gap) n
        (values.map (·.renumbered w.gap)) (.int i))
      (Behave.optionalRounds m' p (.str s) env n values (.int i))
      fun reached reached' _ => ∃ stopped j values, 0 ≤ j ∧ reached' = (stopped, .int j, values) ∧
        reached = (stopped, .int j, values.map (·.renumbered w.gap)) := by
  induction n generalizing σ τ values i with
  | zero => exact retraces_pure hw ⟨false, i, values, start, rfl, rfl⟩
  | succ n ih =>
    unfold Behave.optionalRounds
    refine (hm.run hw known start s env).attempt (fun outcome => ?_) ?_ ?_
    · exact keeps_judged _ (fun r => keeps_optionalRounds hm.keeps _ _ _ _ _ _) fun r => keeps_pure _ _
    · intro j v σ' τ' hw led start
      simp only [resultOf_matched, truthy_bool, pure_bind, if_true]
      have next := ih hw (known.of_kept led) (values ++ [v]) start
      rwa [List.map_append, List.map_singleton] at next
    · intro place expected σ' τ' hw led _
      simp only [resultOf_missed, truthy_bool, pure_bind, Bool.false_eq_true, if_false]
      exact retraces_pure hw ⟨true, i, values, start, rfl, rfl⟩

theorem retraces_repetition {p : ParserId} (hw : Watched w σ τ)
    (known : Among (Behaviour.Undebugged functions choosers) σ p) (least most : Count) (start : 0 ≤ i) :
    Retraces w σ τ
      (Behave.repetition m (past w.gap.parser p) least most (.str s) (.int i) (env.renumbered w.gap))
      (Behave.repetition m' p least most (.str s) (.int i) env) (SameAttempt w.gap) := by
  unfold Behave.repetition
  rw [hm.rounds]
  refine (retraces_requiredRounds hm _ hw known passive_none passive_none [] start).bind
    (fun progress => ?_) ?_
  · cases progress with
    | failed v => exact keeps_pure _ v
    | reached j values =>
      dsimp only
      split
      · refine keeps_bind (keeps_optionalRounds hm.keeps _ _ _ _ _ _) fun reached => ?_
        exact keeps_ite _ (keeps_throw _ _) (keeps_pure _ _)
      · exact keeps_throw _ _
  · intro progress progress' σ' τ' hw led same
    cases same with
    | failed expected start => exact retraces_missed hw start expected
    | @reached j _ values start =>
      dsimp only
      cases Behave.roundsBeyond 0 least with
      | none => exact retraces_endless hw
      | some n =>
        unfold Behave.moreRounds
        rw [hm.rounds]
        refine (retraces_optionalRounds hm _ hw (known.of_kept led) values start).bind (fun reached => ?_) ?_
        · exact keeps_ite _ (keeps_throw _ _) (keeps_pure _ _)
        · rintro _ _ σ'' τ'' hw led ⟨stopped, k, read, start, rfl, rfl⟩
          dsimp only
          refine retraces_ite (retraces_endless hw) ?_
          have same := retraces_attempt hw (a := .matched k (.list read)) start
          rwa [← matched_list] at same

omit hm in
/-- A store that gives out an identity more on either side. -/
theorem Watched.fresh (hw : Watched w σ τ) {n : Nat} (later : σ.nextObject ≤ n) :
    Watched w { σ with nextObject := n } { τ with nextObject := n + 1 } where
  toBeside := { hw with objects := rfl, object := Nat.le_trans hw.object later }
  led := w.course.trans hw.led (w.fresh later)
  silent := hw.silent
  told := by
    obtain ⟨reports, depth, lines, journal, printed, narrates, handler⟩ := hw.told
    exact ⟨reports, depth, lines, journal, printed, narrates.of_parsers rfl, handler⟩
  untraced := hw.untraced
  traced := hw.traced

/-- What is made ready for a function keeps its form. -/
theorem retraces_share (hw : Watched w σ τ) (v : Value) :
    Retraces w σ τ (m.share (v.renumbered w.gap)) (m'.share v) fun a b _ =>
      a = b.renumbered w.gap ∧ b = (v.identify σ.nextObject).1 := by
  rw [hm.share, hm.share']
  have shared : Value.share (v.renumbered w.gap) τ = .ok ((v.identify σ.nextObject).1.renumbered w.gap)
      { τ with nextObject := (v.identify σ.nextObject).2 + 1 } := by
    unfold Value.share
    rw [hw.objects, identify_renumbered v hw.object]
  refine Ends.of_eq_ok shared (.inr ⟨_, _, rfl, hw.fresh (le_identify v _), ?_, rfl, rfl⟩)
  exact ⟨rfl, fun _ _ there => there⟩

theorem retraces_transform {p : ParserId} {f : Value} (hw : Watched w σ τ)
    (known : Among (Behaviour.Undebugged functions choosers) σ p) (function : functions f) (start : 0 ≤ i) :
    Retraces w σ τ
      (Behave.transform m (past w.gap.parser p) (f.renumbered w.gap) (.str s) (.int i) (env.renumbered w.gap))
      (Behave.transform m' p f (.str s) (.int i) env) (SameAttempt w.gap) := by
  unfold Behave.transform
  refine (hm.run hw known start s env).attempt (fun outcome => ?_) ?_ ?_
  · refine keeps_judged _ (fun r => ?_) fun r => keeps_pure _ _
    exact keeps_bind (hm.keeps.share _) fun v => keeps_bind (hm.keeps.call _ _) fun _ => keeps_pure _ _
  · intro j v σ' τ' hw _ start
    simp only [resultOf_matched, truthy_bool, pure_bind, if_true]
    refine (retraces_share hm hw v).bind (fun v => ?_) ?_
    · exact keeps_bind (hm.keeps.call _ _) fun _ => keeps_pure _ _
    rintro _ argument σ' τ' hw _ ⟨rfl, -⟩
    refine (hm.call hw (.inl function) [argument, env]).bind (fun v => keeps_pure _ _) ?_
    rintro _ r σ' τ' hw _ ⟨rfl, -⟩
    exact retraces_attempt hw (a := .matched j r) start
  · intro place expected σ' τ' hw _ start
    simp only [resultOf_missed, truthy_bool, pure_bind, Bool.false_eq_true, if_false]
    exact retraces_missed hw start expected

theorem retraces_testChar {f : Value} (hw : Watched w σ τ) (function : functions f) (d : String)
    (start : 0 ≤ i) :
    Retraces w σ τ
      (Behave.testChar m (f.renumbered w.gap) d (.str s) (.int i) (env.renumbered w.gap))
      (Behave.testChar m' f d (.str s) (.int i) env) (SameAttempt w.gap) := by
  obtain ⟨n, rfl⟩ := Int.eq_ofNat_of_zero_le start
  unfold Behave.testChar Behave.accepts
  simp only [lengthOf_str, lessThan_int, addTo_int, pure_bind, decide_eq_true_eq]
  cases found : s.toList[n]? with
  | none =>
    have outside : ¬ (n : Int) < s.toList.length := by
      have := List.getElem?_eq_none_iff.mp found
      omega
    simp only [if_neg outside, pure_bind, Bool.false_eq_true, if_false]
    exact retraces_missed hw start [d]
  | some c =>
    have inside : (n : Int) < s.toList.length := by
      have := (List.getElem?_eq_some_iff.mp found).1
      omega
    have item := itemOf_str ((Slice.item?_ofNat s.toList n).trans found)
    simp only [if_pos inside, item, pure_bind, bind_assoc]
    refine (hm.call hw (.inl function) [.ofChar c, env]).bind (fun v => ?_) ?_
    · refine keeps_bind (keeps_truthy _ _) fun b => ?_
      exact keeps_ite _ (keeps_pure _ _) (keeps_pure _ _)
    rintro _ v σ' τ' hw _ ⟨rfl, -⟩
    have asked : truthy (v.renumbered w.gap) τ' = .ok (σ'.view v).isTruthy τ' := by
      rw [← isTruthy_renumbered (g := w.gap), ← hw.view]
      rfl
    refine Retraces.reads ?_ asked rfl
    refine retraces_ite ?_ (retraces_missed hw start [d])
    exact retraces_attempt hw (a := .matched (n + 1) (.ofChar c)) (Int.le_add_one start)

theorem retraces_exclude {p q : ParserId} (hw : Watched w σ τ)
    (allowed : Among (Behaviour.Undebugged functions choosers) σ p)
    (forbidden : Among (Behaviour.Undebugged functions choosers) σ q) (start : 0 ≤ i) :
    Retraces w σ τ
      (Behave.exclude m (past w.gap.parser p) (past w.gap.parser q) (.str s) (.int i) (env.renumbered w.gap))
      (Behave.exclude m' p q (.str s) (.int i) env) (SameAttempt w.gap) := by
  unfold Behave.exclude
  refine (hm.run hw forbidden start s env).attempt (fun found => ?_) ?_ ?_
  · refine keeps_judged _ (fun f => keeps_bind (keeps_textOf _ _) fun s => keeps_pure _ _) fun f => ?_
    exact keeps_bind (hm.keeps.run _ _ _ _) fun outcome => keeps_unexcluded _ outcome f.value
  · intro j v σ' τ' hw _ _
    simp only [resultOf_matched, truthy_bool, pure_bind, if_true]
    exact Retraces.reads (retraces_failure hw start _) (hw.textOf v) rfl
  · intro _ unwanted σ' τ' hw led _
    simp only [resultOf_missed, truthy_bool, pure_bind, Bool.false_eq_true, if_false]
    refine (hm.run hw (allowed.of_kept led) start s env).attempt
      (fun outcome => keeps_unexcluded _ outcome _) ?_ ?_
    · intro j v σ'' τ'' hw _ inside
      simp only [resultOf_matched, truthy_bool, pure_bind, if_true]
      exact retraces_attempt hw (a := .matched j v) inside
    · intro _ wanted σ'' τ'' hw _ _
      simp only [resultOf_missed, truthy_bool, expectedText_texts, pure_bind, Bool.false_eq_true, if_false]
      exact retraces_failure hw start _

theorem retraces_describe {p : ParserId} (hw : Watched w σ τ)
    (known : Among (Behaviour.Undebugged functions choosers) σ p) (d : String) (start : 0 ≤ i) :
    Retraces w σ τ
      (Behave.describe m (past w.gap.parser p) d (.str s) (.int i) (env.renumbered w.gap))
      (Behave.describe m' p d (.str s) (.int i) env) (SameAttempt w.gap) := by
  unfold Behave.describe
  refine (hm.run hw known start s env).attempt (fun outcome => ?_) ?_ ?_
  · exact keeps_judged _ (fun r => keeps_pure _ _) fun r => keeps_pure _ _
  · intro j v σ' τ' hw _ start
    simp only [resultOf_matched, truthy_bool, pure_bind, if_true]
    exact retraces_attempt hw (a := .matched j v) start
  · intro place expected σ' τ' hw _ start
    simp only [resultOf_missed, truthy_bool, pure_bind, Bool.false_eq_true, if_false]
    exact retraces_missed hw start [d]

omit hm in
theorem retraces_itemsOf (hw : Watched w σ τ) (v : Value) :
    Retraces w σ τ (itemsOf (v.renumbered w.gap)) (itemsOf v) fun items items' _ =>
      items = items'.map (·.renumbered w.gap) := by
  have viewed : view (v.renumbered w.gap) τ = .ok ((σ.view v).renumbered w.gap) τ := by
    rw [← hw.view]
    rfl
  unfold itemsOf
  refine Retraces.reads ?_ viewed rfl
  cases σ.view v with
  | str t => exact retraces_pure hw (by simp [Value.renumbered, Value.ofChar, Function.comp_def])
  | list items | tuple items | set items => exact retraces_pure hw (renumberedAll_eq items)
  | dict entries =>
    exact retraces_pure hw (by simp [renumberedEntries_eq, Function.comp_def])
  | _ => exact retraces_raise hw .wrongType

omit hm in
theorem retraces_threeOf (hw : Watched w σ τ) (v : Value) :
    Retraces w σ τ (Behave.threeOf (v.renumbered w.gap)) (Behave.threeOf v) fun three three' _ =>
      three = (three'.1.renumbered w.gap, three'.2.1.renumbered w.gap, three'.2.2.renumbered w.gap) := by
  refine (retraces_itemsOf hw v).bind (fun items => ?_) ?_
  · split <;> simp
  rintro _ items σ' τ' hw _ rfl
  match items with
  | [a, b, c] => exact retraces_pure hw rfl
  | [] | [_] | [_, _] | _ :: _ :: _ :: _ :: _ => exact retraces_raise hw .badValue

theorem retraces_mark {p : ParserId} (hw : Watched w σ τ)
    (known : Among (Behaviour.Undebugged functions choosers) σ p) (start : 0 ≤ i) :
    Retraces w σ τ (Behave.mark m (past w.gap.parser p) (.str s) (.int i) (env.renumbered w.gap))
      (Behave.mark m' p (.str s) (.int i) env) (SameAttempt w.gap) := by
  unfold Behave.mark
  refine (hm.run hw known start s env).attempt (fun outcome => ?_) ?_ ?_
  · refine keeps_judged _ (fun r => ?_) fun r => keeps_pure _ _
    exact keeps_bind (keeps_threeOf _) fun _ => keeps_pure _ _
  · intro j v σ' τ' hw _ start
    simp only [resultOf_matched, truthy_bool, pure_bind, if_true]
    refine (retraces_threeOf hw v).bind (fun three => keeps_pure _ _) ?_
    rintro _ ⟨first, value, last⟩ σ' τ' hw _ rfl
    exact retraces_attempt hw (a := .matched j (.mark first value last)) start
  · intro place expected σ' τ' hw _ start
    simp only [resultOf_missed, truthy_bool, pure_bind, Bool.false_eq_true, if_false]
    exact retraces_missed hw start expected

omit hm in
/-- The identity of a parser under the numbers that are left; what is no parser is refused in the same words. -/
theorem retraces_parserOf (hw : Watched w σ τ) (function : String) (v : Value) :
    Retraces w σ τ (Grammar.parserOf function (v.renumbered w.gap)) (Grammar.parserOf function v)
      fun p q υ => p = past w.gap.parser q ∧ υ = σ ∧ v = .parser q ∧ q < σ.parsers.size := by
  have asked : isParser (v.renumbered w.gap) τ = .ok (σ.isParser v) τ := by
    rw [← hw.isParser]
    rfl
  refine Retraces.reads ?_ asked rfl
  cases known : σ.isParser v with
  | false =>
    have literal : (τ.snapshot (v.renumbered w.gap)).literal = (σ.snapshot v).literal := by
      rw [hw.snapshot, Datum.literal_renumbered]
    have refused : Retraces w σ τ (require function "parser" (v.renumbered w.gap) false)
        (require function "parser" v false) fun _ _ _ => False := by
      refine (retraces_raise hw (.malformedGrammar ("partser." ++ function ++ ": not a " ++ "parser" ++ ": " ++
        (σ.snapshot v).literal))).congr ?_ rfl
      rw [← literal]
      rfl
    refine refused.bind (fun _ => ?_) fun _ _ _ _ _ _ impossible => impossible.elim
    split <;> simp
  | true =>
    cases v with
    | parser q => exact retraces_pure hw ⟨rfl, rfl, rfl, by simpa [Store.isParser] using known⟩
    | _ => exact absurd known (by simp [Store.isParser])

/-- A parser that is run after a success, which a function may have seen. -/
theorem retraces_afterSuccess {p : ParserId} (hw : Watched w σ τ)
    (known : Among (Behaviour.Undebugged functions choosers) σ p) (start : 0 ≤ i) {before before' : Value}
    {r r' : Result} (success : before.result? = some r) (success' : before'.result? = some r')
    (status : r.status = .bool true) (status' : r'.status = .bool true) :
    Retraces w σ τ
      (do mergeOver (← m.run (past w.gap.parser p) (.str s) (.int i) (env.renumbered w.gap)) before')
      (do mergeOver (← m'.run p (.str s) (.int i) env) before) (SameAttempt w.gap) := by
  refine (hm.run hw known start s env).attempt (fun outcome => keeps_mergeOver _ _ _) ?_ ?_
  · intro k u σ' τ' hw _ start
    rw [mergeOver_matched, mergeOver_matched]
    exact retraces_attempt hw (a := .matched k u) start
  · intro place expected σ' τ' hw _ start
    rw [mergeOver_missed_success success' status' start, mergeOver_missed_success success status start]
    exact retraces_missed hw start expected

theorem retraces_chain {p : ParserId} {f : Value} (hw : Watched w σ τ)
    (known : Among (Behaviour.Undebugged functions choosers) σ p) (chooser : choosers f) (start : 0 ≤ i) :
    Retraces w σ τ
      (Behave.chain m (past w.gap.parser p) (f.renumbered w.gap) (.str s) (.int i) (env.renumbered w.gap))
      (Behave.chain m' p f (.str s) (.int i) env) (SameAttempt w.gap) := by
  unfold Behave.chain
  refine (hm.run hw known start s env).attempt (fun outcome => ?_) ?_ ?_
  · refine keeps_judged _ (fun r => keeps_bind (hm.keeps.share _) fun outcome => ?_) fun r => keeps_pure _ _
    exact keeps_bind (keeps_resultOf _ _) fun r =>
      keeps_bind (hm.keeps.call _ _) fun next => keeps_chosen hm.keeps _ _ _ _ _ _
  · intro j v σ' τ' hw _ start
    simp only [resultOf_matched, truthy_bool, pure_bind, if_true]
    refine (retraces_share hm hw (matched j v).value).bind (fun outcome => keeps_bind (keeps_resultOf _ _)
      fun r => keeps_bind (hm.keeps.call _ _) fun next => keeps_chosen hm.keeps _ _ _ _ _ _) ?_
    rintro _ _ σ₁ τ₁ hw₁ _ ⟨rfl, rfl⟩
    obtain ⟨k, u, made⟩ : ∃ k u, ((matched j v).value.identify σ'.nextObject).1 =
        .object k (.result (.bool true) (.int j) u) := ⟨_, _, rfl⟩
    rw [made]
    have parts : ∀ k u, resultOf (.object k (.result (.bool true) (.int j) u)) =
        pure ⟨.bool true, .int j, u⟩ := fun _ _ => rfl
    simp only [Value.renumbered, parts, pure_bind]
    refine (hm.call hw₁ (.inr chooser) [u, env]).bind (fun next => keeps_chosen hm.keeps _ _ _ _ _ _) ?_
    rintro _ next σ₂ τ₂ hw₂ _ ⟨rfl, chosen⟩
    have last : ∀ name, Retraces w σ₂ τ₂ (do
        let id ← Grammar.parserOf ("chain(" ++ name ++ ")") (next.renumbered w.gap)
        mergeOver (← m.run id (.str s) (.int j) (env.renumbered w.gap))
          (.object (past w.gap.object k) (.result (.bool true) (.int j) (u.renumbered w.gap)))) (do
        let id ← Grammar.parserOf ("chain(" ++ name ++ ")") next
        mergeOver (← m'.run id (.str s) (.int j) env) (.object k (.result (.bool true) (.int j) u)))
        (SameAttempt w.gap) := by
      intro name
      refine (retraces_parserOf hw₂ _ next).bind (fun id => ?_) ?_
      · exact keeps_bind (hm.keeps.run _ _ _ _) fun _ => keeps_mergeOver _ _ _
      rintro _ q υ υ' hw' _ ⟨rfl, rfl, rfl, there⟩
      exact retraces_afterSuccess hm hw' (chosen chooser q rfl there) start rfl rfl rfl rfl
    rw [functionName?_renumbered]
    cases f.functionName? with
    | some name => exact last name
    | none =>
      exact Retraces.reads (last _) (hw₂.textOf f) rfl
  · intro place expected σ' τ' hw _ start
    simp only [resultOf_missed, truthy_bool, pure_bind, Bool.false_eq_true, if_false]
    exact retraces_missed hw start expected

theorem retraces_subEnvironment {p : ParserId} {f : Value} (hw : Watched w σ τ)
    (known : Among (Behaviour.Undebugged functions choosers) σ p) (function : functions f) (start : 0 ≤ i) :
    Retraces w σ τ
      (Behave.subEnvironment m (past w.gap.parser p) (f.renumbered w.gap) (.str s) (.int i)
        (env.renumbered w.gap))
      (Behave.subEnvironment m' p f (.str s) (.int i) env) (SameAttempt w.gap) := by
  refine (hm.call hw (.inl function) [env]).bind (fun inside => hm.keeps.run _ _ _ _) ?_
  rintro _ inside σ' τ' hw led ⟨rfl, -⟩
  exact hm.run hw (known.of_kept led) start s inside

theorem retraces_deferredLookup {f : Value} (hw : Watched w σ τ) (chooser : choosers f) (name : String)
    (start : 0 ≤ i) :
    Retraces w σ τ
      (Behave.deferredLookup m (f.renumbered w.gap) name (.str s) (.int i) (env.renumbered w.gap))
      (Behave.deferredLookup m' f name (.str s) (.int i) env) (SameAttempt w.gap) := by
  refine (hm.call hw (.inr chooser) [env]).bind (fun found => ?_) ?_
  · exact keeps_bind (keeps_parserOf _ _ _) fun p => hm.keeps.run _ _ _ _
  rintro _ found σ' τ' hw _ ⟨rfl, chosen⟩
  refine (retraces_parserOf hw _ found).bind (fun p => hm.keeps.run _ _ _ _) ?_
  rintro _ q υ υ' hw' _ ⟨rfl, rfl, rfl, there⟩
  exact hm.run hw' (chosen chooser q rfl there) start s env

omit hm in
theorem retraces_primitive {b : Behaviour Value} (hw : Watched w σ τ) (primitive : b.IsPrimitive)
    (start : 0 ≤ i) :
    Retraces w σ τ (behave m b (.str s) (.int i) (env.renumbered w.gap)) (behave m' b (.str s) (.int i) env)
      (SameAttempt w.gap) := by
  rcases primitive_cases primitive w.gap s start with ⟨a, inside, same, computed⟩ | ⟨c, fails⟩
  · rw [computed, computed]
    have retraced := retraces_attempt hw inside
    rwa [same] at retraced
  · rw [fails, fails]
    exact retraces_raise hw c

/-- What a behaviour of the library does on a text is retraced if the machine below it is. -/
theorem retraces_behave {b : Behaviour Value} {parsers : ParserId → Prop} (hw : Watched w σ τ)
    (kind : b.Undebugged functions choosers parsers)
    (known : ∀ p, parsers p → Among (Behaviour.Undebugged functions choosers) σ p) (start : 0 ≤ i) :
    Retraces w σ τ (behave m (b.renumbered w.gap) (.str s) (.int i) (env.renumbered w.gap))
      (behave m' b (.str s) (.int i) env) (SameAttempt w.gap) := by
  cases b with
  | anyChar | rest | eof | index | lineColumnIndex | fail | string | regex =>
    exact retraces_primitive hw trivial start
  | succeed v => exact retraces_attempt hw (a := .matched i v) start
  | testChar f d => exact retraces_testChar hm hw kind d start
  | sequence ps =>
    exact retraces_sequenceFrom hm ps hw (fun p member => known p (kind p member)) passive_none passive_none []
      start
  | alternative ps =>
    exact retraces_alternativeFrom hm ps hw (fun p member => known p (kind.2 p member)) none (by simp)
      (fun none => absurd none kind.1) start
  | repetition p least most => exact retraces_repetition hm hw (known p kind) least most start
  | transform p f => exact retraces_transform hm hw (known p kind.1) kind.2 start
  | exclude p q => exact retraces_exclude hm hw (known p kind.1) (known q kind.2) start
  | describe p d => exact retraces_describe hm hw (known p kind) d start
  | mark p => exact retraces_mark hm hw (known p kind) start
  | chain p f => exact retraces_chain hm hw (known p kind.1) kind.2 start
  | subEnvironment p f => exact retraces_subEnvironment hm hw (known p kind.1) kind.2 start
  | deferredLookup f name => exact retraces_deferredLookup hm hw kind name start
  | debug p handler => exact kind.elim

end Behaviours

end Rebind
