import Rebind.Proofs.Classes
import Rebind.Proofs.Tandem
/-!
# Parsers do not see what precedes them

A parser that is run further on in a longer text, at the same distance from the end and with the same text
before it, comes to the same: to a result of the same kind with the same value or the same list of what was
expected, at an index that is further on by as much; or to the same error.  It holds for every behaviour that
does not give away the index, whatever the functions of the user return, as long as these leave parsers alone
and choose parsers of this class.  Patterns are matched against what is left of the text.

Both runs start in the same store and call the same functions with the same arguments, so they go through the
same stores.
-/
namespace Rebind

open Attempt

/-- The behaviours that show nothing of where they are in the text. -/
def Behaviour.Blind (functions choosers : Value → Prop) : BehaviourClass
  | _, .testChar f _ => functions f
  | parsers, .sequence ps => ∀ p ∈ ps, parsers p
  | parsers, .alternative ps => ps ≠ [] ∧ ∀ p ∈ ps, parsers p
  | parsers, .repetition p _ _ | parsers, .describe p _ => parsers p
  | parsers, .transform p f | parsers, .subEnvironment p f => parsers p ∧ functions f
  | parsers, .exclude allowed forbidden => parsers allowed ∧ parsers forbidden
  | parsers, .chain p f => parsers p ∧ choosers f
  | _, .deferredLookup f _ => choosers f
  | _, .index | _, .lineColumnIndex | _, .mark _ | _, .debug _ _ => False
  | _, .anyChar | _, .rest | _, .eof | _, .succeed _ | _, .fail _ | _, .string _ | _, .regex _ _ => True

/-- A result whose index is further on. -/
def Value.shiftIndex (n : Nat) : Value → Value
  | .result status (.int j) v => .result status (.int (j + n)) v
  | v => v

namespace Attempt

def index : Attempt → Int
  | matched stop _ => stop
  | missed place _ => place

/-- An attempt that went the same way further on. -/
def shift (n : Nat) : Attempt → Attempt
  | matched stop v => matched (stop + n) v
  | missed place expected => missed (place + n) expected

/-- The result of a shifted attempt is the shifted result. -/
theorem value_shift (n : Nat) (a : Attempt) : (a.shift n).value = a.value.shiftIndex n := by
  cases a <;> rfl

/-- Failures are merged alike further on. -/
theorem after_shift (n : Nat) (place : Int) (expected : List String)
    (earlier : Option (Int × List String)) :
    after (place + n) expected (earlier.map fun e => (e.1 + n, e.2)) =
      ((after place expected earlier).1 + n, (after place expected earlier).2) := by
  cases earlier with
  | none => rfl
  | some failure =>
    obtain ⟨before, wanted⟩ := failure
    have further : before + (n : Int) < place + n ↔ before < place := by omega
    have nearer : place + (n : Int) < before + n ↔ place < before := by omega
    simp only [after, Option.map_some, further, nearer]
    split
    · rfl
    · split <;> rfl

end Attempt

/-! ### What is left of a text -/

section Left

variable {s t : String} {i : Int}

theorem length_append (s t : String) :
    (s ++ t).toList.length = s.toList.length + t.toList.length := by
  rw [String.toList_append, List.length_append]

/-- What stands behind something in front is found further on. -/
theorem item?_append {α : Type} (xs ys : List α) (h : 0 ≤ i) :
    Slice.item? (xs ++ ys) (i + xs.length) = Slice.item? ys i := by
  obtain ⟨k, rfl⟩ := Int.eq_ofNat_of_zero_le h
  have sum : (k : Int) + xs.length = ((k + xs.length : Nat) : Int) := by omega
  rw [sum, Slice.item?_ofNat, Slice.item?_ofNat, Nat.add_comm, List.getElem?_append_right (by omega)]
  congr 1
  omega

/-- Positions move by the length of what is in front. -/
theorem position_append (a b : Nat) (h : 0 ≤ i) :
    Slice.position (a + b) (i + a) = a + Slice.position b i := by
  unfold Slice.position
  split <;> split <;> omega

theorem dropFrom_append {α : Type} (xs ys : List α) (h : 0 ≤ i) :
    Slice.dropFrom (xs ++ ys) (i + xs.length) = Slice.dropFrom ys i := by
  unfold Slice.dropFrom
  rw [List.length_append, position_append _ _ h, List.drop_append,
    List.drop_eq_nil_of_le (Nat.le_add_right _ _), List.nil_append, Nat.add_sub_cancel_left]

theorem between_append {α : Type} (xs ys : List α) (h : 0 ≤ i) :
    Slice.between (xs ++ ys) (some (i + xs.length)) none = Slice.between ys (some i) none := by
  have whole : ∀ (zs : List α) (j : Int), Slice.between zs (some j) none = Slice.dropFrom zs j := by
    intro zs j
    simp only [Slice.between, Option.map_some, Option.map_none, Option.getD_some, Option.getD_none,
      List.take_length, Slice.dropFrom]
  rw [whole, whole, dropFrom_append xs ys h]

/-- A literal stands further on where it stood before. -/
theorem hasAt_append (xs ys part : List Char) (h : 0 ≤ i) :
    Slice.hasAt (xs ++ ys) part (i + xs.length) = Slice.hasAt ys part i := by
  have inside : i + (xs.length : Int) ≤ ((xs ++ ys).length : Int) ↔ i ≤ ys.length := by
    rw [List.length_append]
    omega
  simp only [Slice.hasAt, dropFrom_append xs ys h, inside]

/-- An item further on is read in the same way, whether it is there or not. -/
theorem itemOf_append (h : 0 ≤ i) :
    itemOf (.str (s ++ t)) (.int (i + s.toList.length)) = itemOf (.str t) (.int i) := by
  have read : ∀ (u : String) (j : Int), itemOf (.str u) (.int j) =
      (present (Slice.item? u.toList j) >>= fun c => pure (.ofChar c)) := fun _ _ => rfl
  rw [read, read, String.toList_append, item?_append _ _ h]

theorem sliceOf_append (h : 0 ≤ i) :
    sliceOf (.str (s ++ t)) (.int (i + s.toList.length)) .none = sliceOf (.str t) (.int i) .none := by
  rw [sliceOf_str, sliceOf_str, String.toList_append, between_append _ _ h]

theorem holdsAt_append (literal : String) (h : 0 ≤ i) :
    Behave.holdsAt (.str (s ++ t)) literal (.int (i + s.toList.length)) =
      Behave.holdsAt (.str t) literal (.int i) := by
  have read : ∀ (u : String) (j : Int), Behave.holdsAt (.str u) literal (.int j) =
      pure (Slice.hasAt u.toList literal.toList j) := fun _ _ => rfl
  rw [read, read, String.toList_append, hasAt_append _ _ _ h]

end Left

/-! ### Evaluations that go on alike -/

/-- Nothing excuses the second evaluation. -/
def never : Fault → Prop := fun _ => False

/-- Two evaluations from one store that end in one store, which a course leads to, and with the same attempt,
the second one further on; or that are given up in the same way. -/
def Shifts (n : Nat) (base σ : Store) (x y : Eval Value) : Prop :=
  Tandem never x σ y σ fun v τ w τ' => τ' = τ ∧ Course.kept.leads base τ ∧
    ∃ a : Attempt, 0 ≤ a.index ∧ v = a.value ∧ w = (a.shift n).value

/-- An evaluation is in tandem with itself. -/
theorem tandem_self {α : Type} {limits : Fault → Prop} (x : Eval α) (σ : Store) :
    Tandem limits x σ x σ fun a τ b τ' => b = a ∧ τ' = τ ∧ x σ = .ok a τ := by
  unfold Tandem
  split
  · next a τ ended => exact ⟨a, τ, ended, rfl, rfl, ended⟩
  · next e τ ended => exact .inr ⟨τ, ended⟩

section Shifts

variable {n : Nat} {base σ : Store} {x y : Eval Value}

theorem shifts_pure (led : Course.kept.leads base σ) {a : Attempt} (h : 0 ≤ a.index) :
    Shifts n base σ (pure a.value) (pure (a.shift n).value) := tandem_pure ⟨rfl, led, a, h, rfl, rfl⟩

/-- The same error on both sides. -/
theorem shifts_raise (c : Cause) : Shifts n base σ (raise c) (raise c) := tandem_raise c

/-- What goes on after a run: one case for a success and one for a failure. -/
theorem Shifts.bind {α β : Type} {f : Value → Eval α} {g : Value → Eval β}
    {Q : α → Store → β → Store → Prop} (h : Shifts n base σ x y)
    (hmatched : ∀ j v τ, 0 ≤ j → Course.kept.leads base τ →
      Tandem never (f (matched j v).value) τ (g (matched (j + n) v).value) τ Q)
    (hmissed : ∀ j expected τ, 0 ≤ j → Course.kept.leads base τ →
      Tandem never (f (missed j expected).value) τ (g (missed (j + n) expected).value) τ Q) :
    Tandem never (x >>= f) σ (y >>= g) σ Q := by
  refine Tandem.bind h ?_
  rintro v τ w τ' ⟨rfl, led, a, nonneg, rfl, rfl⟩
  cases a with
  | matched j v => exact hmatched j v τ' nonneg led
  | missed j expected => exact hmissed j expected τ' nonneg led

/-- What both sides read in the same store. -/
theorem tandem_read {α : Type} {z : Eval α} (keeps : Course.still.Keeps z) :
    Tandem never z σ z σ fun a τ b τ' => b = a ∧ τ = σ ∧ τ' = σ := by
  refine Tandem.mono (tandem_self z σ) ?_
  rintro a τ b τ' ⟨same, rfl, ended⟩
  exact ⟨same, (keeps σ).ok ended, (keeps σ).ok ended⟩

/-- Questions that both sides answer alike may come first. -/
theorem shifts_read {α : Type} {z : Eval α} {f g : α → Eval Value} (keeps : Course.still.Keeps z)
    (hf : ∀ a, Shifts n base σ (f a) (g a)) : Shifts n base σ (z >>= f) (z >>= g) := by
  refine Tandem.bind (tandem_read keeps) ?_
  rintro a τ b τ' ⟨rfl, rfl, rfl⟩
  exact hf b

end Shifts

/-- What is known of the parsers and functions on which a behaviour is built: the parsers run alike on two
texts, and the functions are tame. -/
structure Alongside (kind : BehaviourClass) (functions choosers : Value → Prop) (n : Nat) (t u : String)
    (base : Store) (m : Machine) : Prop extends TameCalls kind functions choosers base m where
  run : ∀ {p τ} {j : Int} env, Course.kept.leads base τ → Among kind τ p → 0 ≤ j →
    Shifts n base τ (m.run p (.str t) (.int j) env) (m.run p (.str u) (.int (j + n)) env)

section Parts

variable {kind : BehaviourClass} {functions choosers : Value → Prop} {n : Nat} {t u : String}
  {base σ : Store} {m : Machine} {env : Value} {i : Int}

/-- By induction on the parts, with the values that were read so far. -/
theorem shifts_sequenceFrom (h : Alongside kind functions choosers n t u base m) (ps : List ParserId)
    (led : Course.kept.leads base σ) (known : ∀ p ∈ ps, Among kind base p) {previous previous' : Value}
    (passive : Passive previous) (passive' : Passive previous') (values : List Value) (nonneg : 0 ≤ i) :
    Shifts n base σ (Behave.sequenceFrom m (.str t) env ps previous values (.int i))
      (Behave.sequenceFrom m (.str u) env ps previous' values (.int (i + n))) := by
  induction ps generalizing previous previous' values i σ with
  | nil =>
    unfold Behave.sequenceFrom
    have merged := mergeOver_matched i (.list values) previous
    have merged' := mergeOver_matched (i + n) (.list values) previous'
    exact merged ▸ merged' ▸ shifts_pure led (a := matched i (.list values)) nonneg
  | cons p ps ih =>
    unfold Behave.sequenceFrom
    refine (h.run env led ((known p (by simp)).of_kept led) nonneg).bind ?_ ?_
    · intro j v τ nonneg led
      simp only [mergeOver_matched, resultOf_matched, truthy_bool, pure_bind, if_true]
      exact ih led (fun q member => known q (by simp [member])) (passive_matched _ _)
        (passive_matched _ _) (values ++ [v]) nonneg
    · intro j expected τ nonneg led
      simp only [passive j expected nonneg, passive' (j + n) expected (by omega), resultOf_missed,
        truthy_bool, pure_bind, Bool.false_eq_true, if_false]
      exact shifts_pure led (a := missed j expected) nonneg

/-- By induction on the choices: a merged failure moves as a whole. -/
theorem shifts_alternativeFrom (h : Alongside kind functions choosers n t u base m) (ps : List ParserId)
    (led : Course.kept.leads base σ) (known : ∀ p ∈ ps, Among kind base p)
    (earlier : Option (Int × List String)) (given : ps = [] → earlier.isSome)
    (further : ∀ e, earlier = some e → 0 ≤ e.1) (nonneg : 0 ≤ i) :
    Shifts n base σ (Behave.alternativeFrom m (.str t) (.int i) env ps (failureValue earlier))
      (Behave.alternativeFrom m (.str u) (.int (i + n)) env ps
        (failureValue (earlier.map fun e => (e.1 + n, e.2)))) := by
  induction ps generalizing earlier σ with
  | nil =>
    cases earlier with
    | none => exact absurd (given rfl) (by simp)
    | some failure => exact shifts_pure led (a := missed failure.1 failure.2) (further failure rfl)
  | cons p ps ih =>
    unfold Behave.alternativeFrom
    refine (h.run env led ((known p (by simp)).of_kept led) nonneg).bind ?_ ?_
    · intro j v τ nonneg led
      simp only [mergeOver_matched, resultOf_matched, truthy_bool, pure_bind, if_true]
      exact shifts_pure led (a := matched j v) nonneg
    · intro j expected τ nonneg led
      have parts : ∀ place wanted, resultOf (failureValue (some (place, wanted))) = _ := resultOf_missed
      simp only [mergeOver_missed, after_shift, parts, truthy_bool, pure_bind, Bool.false_eq_true, if_false]
      have next := ih led (fun q member => known q (by simp [member])) (some (after j expected earlier))
        (fun _ => rfl) ?_
      · exact next
      · rintro e same
        obtain rfl := Option.some.inj same
        exact after_nonneg nonneg further

/-- Rounds that have led to the same, the second time further on. -/
inductive Behave.Progress.Shifted (n : Nat) : Behave.Progress → Behave.Progress → Prop
  | failed {j : Int} {expected : List String} (h : 0 ≤ j) :
    Shifted n (.failed (missed j expected).value) (.failed (missed (j + n) expected).value)
  | reached {j : Int} {values : List Value} (h : 0 ≤ j) :
    Shifted n (.reached (.int j) values) (.reached (.int (j + n)) values)

theorem shifts_requiredRounds (h : Alongside kind functions choosers n t u base m) {p : ParserId}
    (known : Among kind base p) (rounds : Nat) (led : Course.kept.leads base σ) {previous previous' : Value}
    (passive : Passive previous) (passive' : Passive previous') (values : List Value) (nonneg : 0 ≤ i) :
    Tandem never (Behave.requiredRounds m p (.str t) env rounds previous values (.int i)) σ
      (Behave.requiredRounds m p (.str u) env rounds previous' values (.int (i + n))) σ
      fun a τ b τ' => τ' = τ ∧ Course.kept.leads base τ ∧ Behave.Progress.Shifted n a b := by
  induction rounds generalizing previous previous' values i σ with
  | zero => exact tandem_pure ⟨rfl, led, .reached nonneg⟩
  | succ rounds ih =>
    unfold Behave.requiredRounds
    refine (h.run env led (known.of_kept led) nonneg).bind ?_ ?_
    · intro j v τ nonneg led
      simp only [mergeOver_matched, resultOf_matched, truthy_bool, pure_bind, if_true]
      exact ih led (passive_matched _ _) (passive_matched _ _) (values ++ [v]) nonneg
    · intro j expected τ nonneg led
      simp only [passive j expected nonneg, passive' (j + n) expected (by omega), resultOf_missed,
        truthy_bool, pure_bind, Bool.false_eq_true, if_false]
      exact tandem_pure ⟨rfl, led, .failed nonneg⟩

theorem shifts_optionalRounds (h : Alongside kind functions choosers n t u base m) {p : ParserId}
    (known : Among kind base p) (rounds : Nat) (led : Course.kept.leads base σ) (values : List Value)
    (nonneg : 0 ≤ i) :
    Tandem never (Behave.optionalRounds m p (.str t) env rounds values (.int i)) σ
      (Behave.optionalRounds m p (.str u) env rounds values (.int (i + n))) σ
      fun a τ b τ' => τ' = τ ∧ Course.kept.leads base τ ∧
        ∃ stopped j vs, 0 ≤ j ∧ a = (stopped, .int j, vs) ∧ b = (stopped, .int (j + n), vs) := by
  induction rounds generalizing values i σ with
  | zero => exact tandem_pure ⟨rfl, led, false, i, values, nonneg, rfl, rfl⟩
  | succ rounds ih =>
    unfold Behave.optionalRounds
    refine (h.run env led (known.of_kept led) nonneg).bind ?_ ?_
    · intro j v τ nonneg led
      simp only [resultOf_matched, truthy_bool, pure_bind, if_true]
      exact ih led (values ++ [v]) nonneg
    · intro j expected τ _ led
      simp only [resultOf_missed, truthy_bool, pure_bind, Bool.false_eq_true, if_false]
      exact tandem_pure ⟨rfl, led, true, i, values, nonneg, rfl, rfl⟩

/-- The two loops go alike, since the number of rounds does not depend on the index. -/
theorem shifts_repetition (h : Alongside kind functions choosers n t u base m) {p : ParserId}
    (known : Among kind base p) (least most : Count) (nonneg : 0 ≤ i) :
    Shifts n base base (Behave.repetition m p least most (.str t) (.int i) env)
      (Behave.repetition m p least most (.str u) (.int (i + n)) env) := by
  have more : ∀ limit values j τ, 0 ≤ j → Course.kept.leads base τ →
      Shifts n base τ (Behave.moreRounds m p (.str t) env limit values (.int j))
        (Behave.moreRounds m p (.str u) env limit values (.int (j + n))) := by
    intro limit values j τ nonneg led
    refine Tandem.bind (shifts_optionalRounds h known _ led values nonneg) ?_
    rintro _ υ _ _ ⟨rfl, led, stopped, k, vs, nonneg, rfl, rfl⟩
    dsimp only
    split
    · exact tandem_throw _
    · exact shifts_pure led (a := matched k (.list vs)) nonneg
  refine Tandem.bind (shifts_requiredRounds h known _ (Course.kept.refl base) passive_none passive_none []
    nonneg) ?_
  rintro _ _ _ τ ⟨rfl, led, ended⟩
  cases ended with
  | @failed j expected nonneg => exact shifts_pure led (a := missed j expected) nonneg
  | @reached j values nonneg =>
    dsimp only
    split
    · exact more _ values j τ nonneg led
    · exact tandem_throw _

/-- The same call on both sides. -/
theorem Alongside.call (h : Alongside kind functions choosers n t u base m) {f : Value}
    (known : functions f ∨ choosers f) (arguments : List Value) (led : Course.kept.leads base σ) :
    Tandem never (m.call f arguments) σ (m.call f arguments) σ fun v τ w τ' => w = v ∧ τ' = τ ∧
      Course.kept.leads base τ ∧ m.call f arguments σ = .ok v τ := by
  refine Tandem.mono (tandem_self _ σ) ?_
  rintro v τ w τ' ⟨same, same', ended⟩
  exact ⟨same, same', Course.kept.trans led (h.keeps known led ended), ended⟩

/-- The parser that a function chose is run further on, once it has turned out to be one. -/
theorem Alongside.chosen (h : Alongside kind functions choosers n t u base m) {τ : Store} {f found : Value}
    {arguments : List Value} (known : choosers f) (led : Course.kept.leads base σ)
    (led' : Course.kept.leads base τ) (ended : m.call f arguments σ = .ok found τ) (function : String)
    {next next' : ParserId → Eval Value}
    (hf : ∀ p, Among kind τ p → Shifts n base τ (next p) (next' p)) :
    Shifts n base τ (Grammar.parserOf function found >>= next)
      (Grammar.parserOf function found >>= next') := by
  refine Tandem.bind (tandem_self _ τ) ?_
  rintro p υ _ _ ⟨rfl, rfl, isOne⟩
  have parser : Ends (Grammar.parserOf function found) τ
      (fun p υ => υ = τ ∧ found = .parser p ∧ p < τ.parsers.size) fun _ _ => True :=
    ends_parserOf (fun p same inside => ⟨rfl, same, inside⟩) fun _ => trivial
  obtain ⟨rfl, rfl, inside⟩ := parser.ok isOne
  exact hf _ (h.chooses known led ended inside)

/-- The predicate is asked about the same character. -/
theorem shifts_testChar (h : Alongside kind functions choosers n t u base m) {f : Value} (known : functions f)
    (d : String) (item : itemOf (.str u) (.int (i + n)) = itemOf (.str t) (.int i))
    (length : (u.toList.length : Int) = n + t.toList.length) (nonneg : 0 ≤ i) :
    Shifts n base base (Behave.testChar m f d (.str t) (.int i) env)
      (Behave.testChar m f d (.str u) (.int (i + n)) env) := by
  have inside : i + (n : Int) < n + (t.toList.length : Int) ↔ i < t.toList.length := by omega
  unfold Behave.testChar
  refine Tandem.bind (R := fun a τ b τ' => b = a ∧ τ' = τ ∧ Course.kept.leads base τ) ?_ ?_
  · unfold Behave.accepts
    simp only [lengthOf_str, lessThan_int, pure_bind, decide_eq_true_eq, length, inside, item]
    split
    · refine Tandem.bind (tandem_read (Course.still.keeps_itemOf _ _)) ?_
      rintro _ _ c _ ⟨rfl, rfl, rfl⟩
      refine Tandem.bind (h.call (.inl known) _ (Course.kept.refl _)) ?_
      rintro _ _ v τ ⟨rfl, rfl, led, _⟩
      refine Tandem.mono (tandem_read (Course.still.keeps_truthy v)) ?_
      rintro a _ b _ ⟨same, rfl, rfl⟩
      exact ⟨same, rfl, led⟩
    · exact tandem_pure ⟨rfl, rfl, Course.kept.refl base⟩
  · rintro accepted _ _ τ ⟨rfl, rfl, led⟩
    split
    · simp only [addTo_int, pure_bind, item]
      refine shifts_read (Course.still.keeps_itemOf _ _) fun c => ?_
      have moved : i + (n : Int) + 1 = i + 1 + n := by omega
      rw [moved]
      exact shifts_pure led (a := matched (i + 1) c) (by show 0 ≤ i + 1; omega)
    · exact shifts_pure led (a := missed i [d]) nonneg

theorem shifts_transform (h : Alongside kind functions choosers n t u base m) {p : ParserId} {f : Value}
    (known : Among kind base p) (known' : functions f) (nonneg : 0 ≤ i) :
    Shifts n base base (Behave.transform m p f (.str t) (.int i) env)
      (Behave.transform m p f (.str u) (.int (i + n)) env) := by
  unfold Behave.transform
  refine (h.run env (Course.kept.refl base) known nonneg).bind ?_ ?_
  · intro j v τ nonneg led
    simp only [resultOf_matched, truthy_bool, pure_bind, if_true, h.share]
    refine Tandem.bind (tandem_self _ τ) ?_
    rintro _ _ w υ ⟨rfl, rfl, shared⟩
    obtain ⟨rfl, rfl⟩ := EStateM.Result.ok.inj shared
    refine Tandem.bind (h.call (.inl known') _ (kept_fresh led _)) ?_
    rintro _ _ r υ ⟨rfl, rfl, led, _⟩
    exact shifts_pure led (a := matched j r) nonneg
  · intro j expected τ nonneg led
    simp only [resultOf_missed, truthy_bool, pure_bind, Bool.false_eq_true, if_false]
    exact shifts_pure led (a := missed j expected) nonneg

theorem shifts_exclude (h : Alongside kind functions choosers n t u base m) {allowed forbidden : ParserId}
    (known : Among kind base allowed) (known' : Among kind base forbidden) (nonneg : 0 ≤ i) :
    Shifts n base base (Behave.exclude m allowed forbidden (.str t) (.int i) env)
      (Behave.exclude m allowed forbidden (.str u) (.int (i + n)) env) := by
  have fails : ∀ d τ, Course.kept.leads base τ → Shifts n base τ
      (pure (.failure (.int i) (.str d))) (pure (.failure (.int (i + n)) (.str d))) := fun d τ led =>
    shifts_pure led (a := missed i [d]) nonneg
  unfold Behave.exclude
  refine (h.run env (Course.kept.refl base) known' nonneg).bind ?_ ?_
  · intro j v τ _ led
    simp only [resultOf_matched, truthy_bool, pure_bind, if_true]
    exact shifts_read (Course.still.keeps_textOf v) fun _ => fails _ τ led
  · intro j unwanted τ _ led
    simp only [resultOf_missed, truthy_bool, pure_bind, Bool.false_eq_true, if_false]
    refine (h.run env led (known.of_kept led) nonneg).bind ?_ ?_
    · intro j v τ nonneg led
      simp only [resultOf_matched, truthy_bool, pure_bind, if_true]
      exact shifts_pure led (a := matched j v) nonneg
    · intro j wanted τ _ led
      simp only [resultOf_missed, truthy_bool, pure_bind, Bool.false_eq_true, if_false]
      refine shifts_read (Course.still.keeps_expectedText _) fun _ => ?_
      exact shifts_read (Course.still.keeps_expectedText _) fun _ => fails _ τ led

theorem shifts_describe (h : Alongside kind functions choosers n t u base m) {p : ParserId}
    (known : Among kind base p) (d : String) (nonneg : 0 ≤ i) :
    Shifts n base base (Behave.describe m p d (.str t) (.int i) env)
      (Behave.describe m p d (.str u) (.int (i + n)) env) := by
  unfold Behave.describe
  refine (h.run env (Course.kept.refl base) known nonneg).bind ?_ ?_
  · intro j v τ nonneg led
    simp only [resultOf_matched, truthy_bool, pure_bind, if_true]
    exact shifts_pure led (a := matched j v) nonneg
  · intro j expected τ nonneg led
    simp only [resultOf_missed, truthy_bool, pure_bind, Bool.false_eq_true, if_false]
    exact shifts_pure led (a := missed j [d]) nonneg

theorem shifts_chain (h : Alongside kind functions choosers n t u base m) {p : ParserId} {f : Value}
    (known : Among kind base p) (known' : choosers f) (nonneg : 0 ≤ i) :
    Shifts n base base (Behave.chain m p f (.str t) (.int i) env)
      (Behave.chain m p f (.str u) (.int (i + n)) env) := by
  unfold Behave.chain
  refine (h.run env (Course.kept.refl base) known nonneg).bind ?_ ?_
  · intro j v τ nonneg led
    simp only [resultOf_matched, truthy_bool, pure_bind, if_true, h.share]
    -- The whole result gets identities, as many on both sides because a number has none.
    refine Tandem.bind (R := fun a υ b υ' => υ' = υ ∧ Course.kept.leads base υ ∧ ∃ k w,
      a = .object k (.result (.bool true) (.int j) w) ∧
        b = .object k (.result (.bool true) (.int (j + n)) w)) ?_ ?_
    · exact ⟨_, _, rfl, rfl, kept_fresh led _, _, _, rfl, rfl⟩
    rintro _ υ _ _ ⟨rfl, led, k, w, rfl, rfl⟩
    have parts : ∀ j : Int, resultOf (.object k (.result (.bool true) (.int j) w)) =
        pure ⟨.bool true, .int j, w⟩ := fun _ => rfl
    simp only [parts, pure_bind]
    refine Tandem.bind (h.call (.inr known') _ led) ?_
    rintro _ _ found ω ⟨rfl, rfl, led', ended⟩
    have success : ∀ j : Int, (Value.object k (.result (.bool true) (.int j) w)).result? =
        some ⟨.bool true, .int j, w⟩ := fun _ => rfl
    have rest : ∀ function : String, Shifts n base ω
        (do
          let id ← Grammar.parserOf function found
          mergeOver (← m.run id (.str t) (.int j) env) (.object k (.result (.bool true) (.int j) w)))
        (do
          let id ← Grammar.parserOf function found
          mergeOver (← m.run id (.str u) (.int (j + n)) env)
            (.object k (.result (.bool true) (.int (j + n)) w))) := by
      refine fun function => h.chosen known' led led' ended function fun q chosen => ?_
      refine (h.run env led' chosen nonneg).bind ?_ ?_
      · intro l r ω nonneg led
        simp only [mergeOver_matched]
        exact shifts_pure led (a := matched l r) nonneg
      · intro l expected ω nonneg led
        rw [mergeOver_missed_success (success j) rfl nonneg,
          mergeOver_missed_success (success (j + n)) rfl (by omega)]
        exact shifts_pure led (a := missed l expected) nonneg
    split
    · exact rest _
    · exact shifts_read (Course.still.keeps_textOf f) fun _ => rest _
  · intro j expected τ nonneg led
    simp only [resultOf_missed, truthy_bool, pure_bind, Bool.false_eq_true, if_false]
    exact shifts_pure led (a := missed j expected) nonneg

theorem shifts_subEnvironment (h : Alongside kind functions choosers n t u base m) {p : ParserId}
    {f : Value} (known : Among kind base p) (known' : functions f) (nonneg : 0 ≤ i) :
    Shifts n base base (Behave.subEnvironment m p f (.str t) (.int i) env)
      (Behave.subEnvironment m p f (.str u) (.int (i + n)) env) := by
  refine Tandem.bind (h.call (.inl known') _ (Course.kept.refl base)) ?_
  rintro _ _ inside τ ⟨rfl, rfl, led, _⟩
  exact h.run inside led (known.of_kept led) nonneg

theorem shifts_deferredLookup (h : Alongside kind functions choosers n t u base m) {f : Value}
    (known : choosers f) (name : String) (nonneg : 0 ≤ i) :
    Shifts n base base (Behave.deferredLookup m f name (.str t) (.int i) env)
      (Behave.deferredLookup m f name (.str u) (.int (i + n)) env) := by
  refine Tandem.bind (h.call (.inr known) _ (Course.kept.refl base)) ?_
  rintro _ _ found τ ⟨rfl, rfl, led, ended⟩
  exact h.chosen known (Course.kept.refl base) led ended _ fun p chosen => h.run env led chosen nonneg

end Parts

section Leaves

variable {s t : String} {base : Store} {i : Int}

/-- An item further on, and the index after it. -/
theorem shifts_item (nonneg : 0 ≤ i) : Shifts s.toList.length base base
    (itemOf (.str t) (.int i) >>= fun c => pure (.success (.int (i + 1)) c))
    (itemOf (.str (s ++ t)) (.int (i + s.toList.length)) >>= fun c =>
      pure (.success (.int (i + s.toList.length + 1)) c)) := by
  have moved : i + (s.toList.length : Int) + 1 = i + 1 + s.toList.length := by omega
  rw [itemOf_append nonneg, moved]
  refine shifts_read (Course.still.keeps_itemOf _ _) fun c => ?_
  exact shifts_pure (Course.kept.refl base) (a := matched (i + 1) c) (by show 0 ≤ i + 1; omega)

/-- Leaves that read the text find it further on. -/
theorem shifts_anyChar (env : Value) (nonneg : 0 ≤ i) : Shifts s.toList.length base base
    (Behave.anyChar (.str t) (.int i) env)
    (Behave.anyChar (.str (s ++ t)) (.int (i + s.toList.length)) env) := by
  have past : ((s ++ t).toList.length : Int) ≤ i + s.toList.length ↔ (t.toList.length : Int) ≤ i := by
    rw [length_append]
    omega
  unfold Behave.anyChar
  simp only [lengthOf_str, atMost_int, addTo_int, pure_bind, decide_eq_true_eq, past]
  split
  · exact shifts_pure (Course.kept.refl base) (a := missed i ["any character"]) nonneg
  · exact shifts_item nonneg

theorem shifts_rest (env : Value) (nonneg : 0 ≤ i) : Shifts s.toList.length base base
    (Behave.rest (.str t) (.int i) env)
    (Behave.rest (.str (s ++ t)) (.int (i + s.toList.length)) env) := by
  have length : ((s ++ t).toList.length : Int) = (t.toList.length : Int) + s.toList.length := by
    rw [length_append]
    omega
  unfold Behave.rest
  simp only [lengthOf_str, pure_bind, sliceOf_append nonneg, length]
  refine shifts_read (Course.still.keeps_sliceOf _ _ _) fun left => ?_
  exact shifts_pure (Course.kept.refl base) (a := matched t.toList.length left) (Int.natCast_nonneg _)

theorem shifts_eof (env : Value) (nonneg : 0 ≤ i) : Shifts s.toList.length base base
    (Behave.eof (.str t) (.int i) env)
    (Behave.eof (.str (s ++ t)) (.int (i + s.toList.length)) env) := by
  have before : i + s.toList.length < ((s ++ t).toList.length : Int) ↔ i < (t.toList.length : Int) := by
    rw [length_append]
    omega
  unfold Behave.eof
  simp only [lengthOf_str, lessThan_int, pure_bind, decide_eq_true_eq, before]
  split
  · exact shifts_pure (Course.kept.refl base) (a := missed i ["EOF"]) nonneg
  · exact shifts_pure (Course.kept.refl base) (a := matched i .none) nonneg

theorem shifts_string (literal : String) (env : Value) (nonneg : 0 ≤ i) :
    Shifts s.toList.length base base
    (Behave.string literal (.str t) (.int i) env)
    (Behave.string literal (.str (s ++ t)) (.int (i + s.toList.length)) env) := by
  have moved : i + (s.toList.length : Int) + literal.toList.length =
      i + literal.toList.length + s.toList.length := by omega
  unfold Behave.string
  rw [holdsAt_append literal nonneg]
  refine shifts_read ?_ fun there => ?_
  · refine Course.keeps_bind (Course.still.keeps_view _) fun v => ?_
    split
    · exact Course.keeps_bind (Course.still.keeps_boundOf _) fun _ => Course.still.keeps_pure _
    · exact Course.still.keeps_raise _
  split
  · simp only [addTo_int, pure_bind, moved]
    exact shifts_pure (Course.kept.refl base) (a := matched (i + literal.toList.length) (.str literal))
      (by show 0 ≤ i + (literal.toList.length : Int); omega)
  · exact shifts_pure (Course.kept.refl base) (a := missed i ["'" ++ literal ++ "'"]) nonneg

theorem shifts_regex (r : Regex) (group : Nat) (env : Value) (nonneg : 0 ≤ i) :
    Shifts s.toList.length base base
    (Behave.regex r group (.str t) (.int i) env)
    (Behave.regex r group (.str (s ++ t)) (.int (i + s.toList.length)) env) := by
  unfold Behave.regex
  rw [sliceOf_append nonneg]
  refine shifts_read (Course.still.keeps_sliceOf _ _ _) fun left => ?_
  split
  · split
    · exact shifts_raise _
    split
    · next found _ =>
      have moved : i + (s.toList.length : Int) + found.length = i + found.length + s.toList.length := by
        omega
      simp only [addTo_int, pure_bind, moved]
      refine shifts_read ?_ fun v => ?_
      · unfold Behave.groupOf
        split
        · exact Course.still.keeps_raise _
        · exact Course.still.keeps_pure _
      · exact shifts_pure (Course.kept.refl base) (a := matched (i + found.length) v)
          (by show 0 ≤ i + (found.length : Int); omega)
    · exact shifts_pure (Course.kept.refl base) (a := missed i [r.shown]) nonneg
  · exact shifts_raise _

end Leaves

/-! ### Runs -/

section Runs

variable {functions choosers : Value → Prop} {s t : String} {env : Value} {i : Int}

/-- Every behaviour that does not show its place goes alike further on. -/
theorem shifts_behave {base : Store} {m : Machine} {parsers : ParserId → Prop}
    (h : Alongside (Behaviour.Blind functions choosers) functions choosers s.toList.length t (s ++ t) base m)
    {b : Behaviour Value} (blind : b.Blind functions choosers parsers)
    (known : ∀ p, parsers p → Among (Behaviour.Blind functions choosers) base p) (nonneg : 0 ≤ i) :
    Shifts s.toList.length base base (behave m b (.str t) (.int i) env)
      (behave m b (.str (s ++ t)) (.int (i + s.toList.length)) env) := by
  have led := Course.kept.refl base
  cases b with
  | anyChar => exact shifts_anyChar env nonneg
  | rest => exact shifts_rest env nonneg
  | eof => exact shifts_eof env nonneg
  | succeed v => exact shifts_pure led (a := matched i v) nonneg
  | fail d => exact shifts_pure led (a := missed i [d]) nonneg
  | string literal => exact shifts_string literal env nonneg
  | regex r group => exact shifts_regex r group env nonneg
  | testChar f d =>
    exact shifts_testChar h blind d (itemOf_append nonneg) (by rw [length_append]; omega) nonneg
  | sequence ps =>
    exact shifts_sequenceFrom h ps led (fun p member => known p (blind p member)) passive_none passive_none
      [] nonneg
  | alternative ps =>
    refine shifts_alternativeFrom h ps led (fun p member => known p (blind.2 p member)) none ?_ ?_ nonneg
    · exact fun none => absurd none blind.1
    · simp
  | repetition p least most => exact shifts_repetition h (known p blind) least most nonneg
  | transform p f => exact shifts_transform h (known p blind.1) blind.2 nonneg
  | exclude allowed forbidden => exact shifts_exclude h (known _ blind.1) (known _ blind.2) nonneg
  | describe p d => exact shifts_describe h (known p blind) d nonneg
  | chain p f => exact shifts_chain h (known p blind.1) blind.2 nonneg
  | subEnvironment p f => exact shifts_subEnvironment h (known p blind.1) blind.2 nonneg
  | deferredLookup f name => exact shifts_deferredLookup h blind name nonneg
  | _ => exact blind.elim

/-- Runs further on go alike, on machines of every size. -/
theorem shifts_run {host : Host} {σ₀ : Store}
    (tame : Tame host functions choosers (Behaviour.Blind functions choosers) σ₀)
    (shares : host.share = Value.share) (untraced : σ₀.tracers = []) (rounds depth : Nat) (env : Value)
    {σ : Store} (led : Course.kept.leads σ₀ σ) {p : ParserId}
    (known : Among (Behaviour.Blind functions choosers) σ p) (nonneg : 0 ≤ i) :
    Shifts s.toList.length σ σ ((machine host rounds depth).run p (.str t) (.int i) env)
      ((machine host rounds depth).run p (.str (s ++ t)) (.int (i + s.toList.length)) env) := by
  induction depth generalizing σ p i env with
  | zero => exact .inr ⟨_, rfl⟩
  | succ depth ih =>
    obtain ⟨parsers, b, does, blind, known⟩ := known.behaviour
    have none := led.1.trans untraced
    refine Tandem.congr ?_ (run_above _ _ env none does) (run_above _ _ env none does)
    refine shifts_behave ?_ blind known nonneg
    refine ⟨tame.calls shares rounds depth led, ?_⟩
    intro p τ j env led' known nonneg
    refine (ih env (Course.kept.trans led led') known nonneg).mono ?_
    rintro v υ w υ' ⟨same, led'', moved⟩
    exact ⟨same, Course.kept.trans led' led'', moved⟩

/-- Running a parser after more text comes to the same at an index that is further on: to a result with the
same status and value, or to the same error. -/
theorem run_further (apply : Machine → Value → List Value → Eval Value) {σ : Store}
    (untraced : σ.tracers = [])
    (tame : Tame ⟨apply, Value.share⟩ functions choosers (Behaviour.Blind functions choosers) σ)
    {p : ParserId} (known : Among (Behaviour.Blind functions choosers) σ p) (s t : String) (i : Nat)
    (env : Value) (rounds depth : Nat) :
    outcome ((machine ⟨apply, Value.share⟩ rounds depth).run p (.str (s ++ t))
        (.int (s.toList.length + i)) env σ) =
      (outcome ((machine ⟨apply, Value.share⟩ rounds depth).run p (.str t) (.int i) env σ)).map
        (Value.shiftIndex s.toList.length) := by
  have runs : Shifts s.toList.length σ σ _ _ :=
    shifts_run (s := s) (t := t) tame rfl untraced rounds depth env (Course.kept.refl σ) known
      (Int.natCast_nonneg i)
  rw [Int.add_comm]
  unfold Shifts Tandem at runs
  split at runs
  · next v τ ended =>
    obtain ⟨_, _, ended', _, _, a, _, rfl, rfl⟩ := runs
    rw [ended, ended', value_shift]
    rfl
  · next e τ ended =>
    rcases runs with impossible | ⟨_, ended'⟩
    · exact impossible.elim
    · rw [ended, ended']
      rfl

end Runs

private def again : Value := .closure ["v", "env"] (.plain .null) [] (.named "again") 0

private def repeating : Machine → Value → List Value → Eval Value := fun _ _ _ => return .parser 5

/-- Parser 5 is a digit, and parser 6 is a digit after which its function asks for one more. -/
private def twoDigits : Store :=
  { Store.initial with
    parsers := Store.initial.parsers ++ #[⟨.object 5 (.behaviour (.string "7")), .str "string('7')"⟩,
      ⟨.object 6 (.behaviour (.chain 5 again)), .str "chain(string('7'))"⟩]
    nextObject := 7 }

/-- Two digits after a word, under a function that returns a parser. -/
theorem run_further_twoDigits :
    outcome ((machine ⟨repeating, Value.share⟩ 9 9).run 6 (.str ("no " ++ "78"))
        (.int ("no ".toList.length + (0 : Nat))) .none twoDigits) =
      (outcome ((machine ⟨repeating, Value.share⟩ 9 9).run 6 (.str "78") (.int (0 : Nat)) .none
        twoDigits)).map (Value.shiftIndex "no ".toList.length) := by
  have closed : ∀ p, p = 5 ∨ p = 6 → ∃ b, twoDigits.behaviour? p = some b ∧
      b.Blind (fun _ => False) (· = again) fun p => p = 5 ∨ p = 6 := by
    rintro p (rfl | rfl)
    · exact ⟨_, rfl, trivial⟩
    · exact ⟨_, rfl, .inl rfl, rfl⟩
  have tame : Tame ⟨repeating, Value.share⟩ (fun _ => False) (· = again)
      (Behaviour.Blind (fun _ => False) (· = again)) twoDigits := by
    refine tame_returning ?_ ⟨_, .inl rfl, closed⟩
    rintro f (impossible | rfl)
    · exact impossible.elim
    · trivial
  exact run_further repeating rfl tame ⟨_, .inr rfl, closed⟩ "no " "78" 0 .none 9 9

end Rebind
