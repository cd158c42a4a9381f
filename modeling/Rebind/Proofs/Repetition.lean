import Mathlib.Data.ENat.Lattice
import Rebind.Proofs.LastRun
/-!
# How often a repetition repeats

A repetition runs one parser again and again, each time from where it ended before.  What it comes to is told by
how often in a row that succeeds, which may be without end, and by the two counts: it fails as the parser does
if that happens before the lower count is reached, and otherwise it lists the values of as many rounds as
succeed within the counts.  It never ends exactly if neither the successes nor the counts do.

The rounds are runs in a row, each in the store that the one before it left, so the store in the end tells which
rounds were run.  A machine looks at a number of rounds before it gives up on a repetition without a limit; that
number is arbitrary here.
-/
namespace Rebind

/-- How many rounds a count asks for or allows.  A number below zero asks for none. -/
def Count.bound : Count → ℕ∞
  | .times n => (n.toNat : ℕ∞)
  | .unlimited => ⊤

theorem Count.bound_some {c : Count} {n : Nat} (h : c.rounds = some n) : c.bound = n := by
  cases c with
  | unlimited => cases h
  | times k =>
    obtain rfl := Option.some.inj h
    rfl

theorem Count.bound_none {c : Count} (h : c.rounds = none) : c.bound = ⊤ := by
  cases c with
  | unlimited => rfl
  | times k => cases h

/-- The larger of two numbers of rounds. -/
theorem max_natCast (a c : Nat) : max (a : ℕ∞) c = ((max a c : Nat) : ℕ∞) := (Nat.mono_cast.map_max).symm

theorem Count.unlimited_of_rounds {c : Count} (h : c.rounds = none) : c = .unlimited := by
  cases c with
  | unlimited => rfl
  | times k => cases h

def runFrom (m : Machine) (item : ParserId) (text env : Value) : Value → Eval Value :=
  fun i => m.run item text i env

section Rounds

variable (child : Value → Eval Value)

/-- So many rounds in a row succeed, with these values: from an index in a store, and up to an index in
another one. -/
inductive InARow : Value → Store → Nat → List Value → Value → Store → Prop
  | zero {i : Value} {σ : Store} : InARow i σ 0 [] i σ
  | succ {i r v k : Value} {σ τ υ : Store} {n : Nat} {j : Int} {vs : List Value} (run : child i σ = .ok r τ)
    (h : r.IsMatch j v) (more : InARow (.int j) τ n vs k υ) : InARow i σ (n + 1) (v :: vs) k υ

/-- A round fails at a place that is not below zero, with a result, and leaves a store. -/
def Misses (i : Value) (σ : Store) (r : Value) (τ : Store) : Prop :=
  child i σ = .ok r τ ∧ ∃ place list, r.result? = some ⟨.bool false, .int place, list⟩ ∧ 0 ≤ place

/-- Wherever rounds in a row lead, the next one returns a result, and no failure at a place below zero. -/
def Answers (i : Value) (σ : Store) : Prop :=
  ∀ n vs j τ, InARow child i σ n vs j τ →
    ∃ r υ, (child j τ = .ok r υ ∧ ∃ k v, r.IsMatch k v) ∨ Misses child j τ r υ

/-- As many rounds in a row succeed before one fails, or all of them do. -/
structure Streak (i : Value) (σ : Store) (k : ℕ∞) : Prop where
  rounds : ∀ n : ℕ, n ≤ k → ∃ vs j τ, InARow child i σ n vs j τ
  ends : ∀ n : ℕ, k = n → ∀ vs j τ, InARow child i σ n vs j τ → ∃ r υ, Misses child j τ r υ

variable {child} {i j k : Value} {σ τ υ : Store} {n a b : Nat} {us vs : List Value}

/-- Rounds in a row come apart anywhere. -/
theorem InARow.split (h : InARow child i σ (a + b) vs k υ) : ∃ us ws j τ, InARow child i σ a us j τ ∧
    InARow child j τ b ws k υ ∧ vs = us ++ ws := by
  induction a generalizing i σ vs with
  | zero =>
    rw [Nat.zero_add] at h
    exact ⟨[], vs, i, σ, .zero, h, rfl⟩
  | succ a ih =>
    rw [Nat.add_right_comm] at h
    cases h with
    | @succ _ _ v _ _ _ _ _ _ vs run matched more =>
      obtain ⟨us, ws, l, ρ, first, second, rfl⟩ := ih more
      exact ⟨v :: us, ws, l, ρ, .succ run matched first, second, rfl⟩

/-- One more round at the end. -/
theorem InARow.snoc {r v : Value} {l : Int} (h : InARow child i σ n vs j τ) (run : child j τ = .ok r υ)
    (matched : r.IsMatch l v) : InARow child i σ (n + 1) (vs ++ [v]) (.int l) υ := by
  induction h with
  | zero => exact .succ run matched .zero
  | succ first known more ih => exact .succ first known (ih run)

/-- There is such a number of rounds. -/
theorem Answers.exists_streak (answers : Answers child i σ) : ∃ k, Streak child i σ k := by
  classical
  by_cases all : ∀ n, ∃ vs j τ, InARow child i σ n vs j τ
  · exact ⟨⊤, fun n _ => all n, fun n top => absurd top (ENat.top_ne_natCast n)⟩
  · have missing : ∃ n, ¬ ∃ vs j τ, InARow child i σ n vs j τ := not_forall.mp all
    have least : ∀ n, n < Nat.find missing → ∃ vs j τ, InARow child i σ n vs j τ := fun n less =>
      not_not.mp (Nat.find_min missing less)
    have some : Nat.find missing ≠ 0 := fun zero => Nat.find_spec missing (zero ▸ ⟨[], i, σ, .zero⟩)
    obtain ⟨k, next⟩ := Nat.exists_eq_succ_of_ne_zero some
    refine ⟨k, fun n le => least n ?_, ?_⟩
    · have le : n ≤ k := ENat.natCast_le_natCast.mp le
      omega
    · rintro n same vs j τ rounds
      obtain rfl : k = n := ENat.natCast_inj.mp same
      obtain ⟨r, υ, ⟨run, l, v, matched⟩ | missed⟩ := answers k vs j τ rounds
      · exact absurd ⟨_, _, _, rounds.snoc run matched⟩ (next ▸ Nat.find_spec missing)
      · exact ⟨r, υ, missed⟩

/-- No streak is longer than another one. -/
theorem Streak.le {k l : ℕ∞} (h : Streak child i σ k) (h' : Streak child i σ l) : l ≤ k := by
  by_contra more
  have less : k < l := not_le.mp more
  obtain ⟨n, rfl⟩ := ENat.ne_top_iff_exists.mp (ne_top_of_lt less)
  obtain ⟨vs, j, τ, rounds⟩ := h'.rounds (n + 1) (Order.add_one_le_of_lt less)
  obtain ⟨us, ws, i', ρ, first, second, -⟩ := rounds.split
  obtain ⟨r, υ, run, place, list, made, _⟩ := h.ends n rfl us i' ρ first
  cases second with
  | succ run' matched more =>
    obtain ⟨rfl, rfl⟩ := EStateM.Result.ok.inj (run.symm.trans run')
    rw [Value.IsMatch, made] at matched
    cases matched

/-- There is only one such number of rounds. -/
theorem Streak.unique {k l : ℕ∞} (h : Streak child i σ k) (h' : Streak child i σ l) : k = l :=
  le_antisymm (h'.le h) (h.le h')

end Rounds

/-! ### The two loops -/

section Loops

variable {m : Machine} {item : ParserId} {text env i j r : Value} {σ τ υ : Store} {n limit : Nat}
  {vs values : List Value}

/-- Nothing, or a success. -/
def Clears (previous : Value) : Prop := previous = .none ∨ ∃ k v, previous.IsMatch k v

/-- Rounds in a row are what the first loop does, with fuel to spare. -/
theorem InARow.requiredRounds (h : InARow (runFrom m item text env) i σ n vs j τ) {previous : Value}
    (clear : Clears previous) (values : List Value) : ∃ last, Clears last ∧ ∀ fuel,
      Behave.requiredRounds m item text env (n + fuel) previous values i σ =
        Behave.requiredRounds m item text env fuel last (values ++ vs) j τ := by
  induction h generalizing previous values with
  | zero => exact ⟨previous, clear, fun fuel => by rw [Nat.zero_add, List.append_nil]⟩
  | @succ i r v k σ τ υ n j vs run matched more ih =>
    obtain ⟨last, clear, same⟩ := ih (.inr ⟨_, _, matched⟩) (values ++ [v])
    refine ⟨last, clear, fun fuel => ?_⟩
    have run : m.run item text i env σ = .ok r τ := run
    rw [List.append_assoc, List.singleton_append] at same
    rw [← same, Nat.add_right_comm]
    simp only [Behave.requiredRounds]
    rw [bind_ok run]
    simp only [mergeOver_match matched, matched.resultOf, truthy_bool, pure_bind, if_true]

/-- They are what the second loop does. -/
theorem InARow.optionalRounds (h : InARow (runFrom m item text env) i σ n vs j τ) (values : List Value)
    (fuel : Nat) : Behave.optionalRounds m item text env (n + fuel) values i σ =
      Behave.optionalRounds m item text env fuel (values ++ vs) j τ := by
  induction h generalizing values with
  | zero => rw [Nat.zero_add, List.append_nil]
  | @succ i r v k σ τ υ n j vs run matched more ih =>
    have run : m.run item text i env σ = .ok r τ := run
    have same := ih (values ++ [v])
    rw [List.append_assoc, List.singleton_append] at same
    rw [← same, Nat.add_right_comm]
    simp only [Behave.optionalRounds]
    rw [bind_ok run]
    simp only [matched.resultOf, truthy_bool, pure_bind, if_true]

/-- As many rounds as have to succeed have succeeded. -/
theorem InARow.required_reached (h : InARow (runFrom m item text env) i σ n vs j τ) :
    Behave.requiredRounds m item text env n .none [] i σ = .ok (.reached j vs) τ := by
  obtain ⟨last, _, same⟩ := h.requiredRounds (.inl rfl) []
  exact same 0

/-- A round fails that has to succeed. -/
theorem InARow.required_missed (h : InARow (runFrom m item text env) i σ n vs j τ)
    (missed : Misses (runFrom m item text env) j τ r υ) (more : n < limit) :
    Behave.requiredRounds m item text env limit .none [] i σ = .ok (.failed r) υ := by
  obtain ⟨last, clear, same⟩ := h.requiredRounds (.inl rfl) []
  obtain ⟨run, place, list, made, inside⟩ := missed
  have run : m.run item text j env τ = .ok r υ := run
  obtain ⟨fuel, rfl⟩ := Nat.exists_eq_add_of_lt more
  have merged : mergeOver r last = pure r :=
    mergeOver_miss made (clear.imp_right fun ⟨k, v, h⟩ => ⟨inside, k, v, h⟩)
  rw [Nat.add_assoc, same]
  simp only [Behave.requiredRounds]
  rw [bind_ok run]
  simp only [merged, resultOf_miss made, truthy_bool, pure_bind, Bool.false_eq_true, if_false]
  rfl

/-- All rounds have succeeded that may follow. -/
theorem InARow.optional_all (h : InARow (runFrom m item text env) i σ n vs j τ) (values : List Value) :
    Behave.optionalRounds m item text env n values i σ = .ok (false, j, values ++ vs) τ :=
  h.optionalRounds values 0

/-- A round fails that may follow. -/
theorem InARow.optional_missed (h : InARow (runFrom m item text env) i σ n vs j τ) (values : List Value)
    (missed : Misses (runFrom m item text env) j τ r υ) (more : n < limit) :
    Behave.optionalRounds m item text env limit values i σ = .ok (true, j, values ++ vs) υ := by
  obtain ⟨run, place, list, made, _⟩ := missed
  have run : m.run item text j env τ = .ok r υ := run
  obtain ⟨fuel, rfl⟩ := Nat.exists_eq_add_of_lt more
  rw [Nat.add_assoc, h.optionalRounds]
  simp only [Behave.optionalRounds]
  rw [bind_ok run]
  simp only [resultOf_miss made, truthy_bool, pure_bind, Bool.false_eq_true, if_false]
  rfl

/-- The limit is reached with all rounds read. -/
theorem moreRounds_all (h : InARow (runFrom m item text env) i σ n vs j τ) (values : List Value) :
    Behave.moreRounds m item text env (some n) values i σ = .ok (.success j (.list (values ++ vs))) τ := by
  unfold Behave.moreRounds
  exact bind_ok (h.optional_all values)

/-- A round that fails ends the second loop with what was read. -/
theorem moreRounds_missed {limit : Option Nat} (h : InARow (runFrom m item text env) i σ n vs j τ)
    (values : List Value) (missed : Misses (runFrom m item text env) j τ r υ)
    (more : n < limit.getD m.rounds) :
    Behave.moreRounds m item text env limit values i σ = .ok (.success j (.list (values ++ vs))) υ := by
  unfold Behave.moreRounds
  rw [bind_ok (h.optional_missed values missed more)]
  cases limit <;> rfl

/-- Without a limit and without a failure there is no end. -/
theorem moreRounds_endless (h : InARow (runFrom m item text env) i σ m.rounds vs j τ) (values : List Value) :
    Behave.moreRounds m item text env none values i σ = .error .endless τ := by
  unfold Behave.moreRounds
  exact bind_ok (h.optional_all values)

end Loops

/-! ### Repetitions -/

section Repetition

variable {m : Machine} {item : ParserId} {text env start i j r : Value} {σ τ υ : Store} {least most : Count}
  {n a : Nat} {us vs : List Value}

/-- A round that fails before there were enough of them is the failure of the repetition. -/
theorem repetition_missed (h : InARow (runFrom m item text env) start σ n vs j τ)
    (missed : Misses (runFrom m item text env) j τ r υ) (more : n < least.rounds.getD m.rounds) :
    Behave.repetition m item least most text start env σ = .ok r υ := by
  unfold Behave.repetition
  rw [roundsBeyond_zero]
  exact bind_ok (h.required_missed missed more)

/-- After enough rounds the second loop goes on. -/
theorem repetition_reached (asked : least.rounds = some a)
    (h : InARow (runFrom m item text env) start σ a us i τ) :
    Behave.repetition m item least most text start env σ =
      Behave.moreRounds m item text env (most.rounds.map (· - a)) us i τ := by
  unfold Behave.repetition
  simp only [roundsBeyond_zero, asked, Option.getD_some]
  rw [bind_ok h.required_reached, ← roundsBeyond_nat]

/-- Infinitely many required rounds have no end. -/
theorem repetition_endless (asked : least.rounds = none)
    (h : InARow (runFrom m item text env) start σ m.rounds us i τ) :
    Behave.repetition m item least most text start env σ = .error .endless τ := by
  unfold Behave.repetition
  simp only [roundsBeyond_zero, asked, Option.getD_none]
  exact bind_ok h.required_reached

/-- Both counts are numbers, and as many rounds succeed as the larger one says. -/
theorem repetition_full {c : Nat} (asked : least.rounds = some a) (allowed : most.rounds = some c)
    (h : InARow (runFrom m item text env) start σ (max a c) vs j τ) :
    Behave.repetition m item least most text start env σ = .ok (.success j (.list vs)) τ := by
  have parts : max a c = a + (c - a) := by omega
  rw [parts] at h
  obtain ⟨us, ws, i, ρ, first, second, rfl⟩ := h.split
  rw [repetition_reached asked first, allowed]
  exact moreRounds_all second us

/-- A round fails after as many as have to succeed. -/
theorem repetition_stopped (asked : least.rounds = some a) (enough : a ≤ n)
    (h : InARow (runFrom m item text env) start σ n vs j τ)
    (missed : Misses (runFrom m item text env) j τ r υ) (more : n < most.rounds.getD (a + m.rounds)) :
    Behave.repetition m item least most text start env σ = .ok (.success j (.list vs)) υ := by
  obtain ⟨b, rfl⟩ := Nat.exists_eq_add_of_le enough
  obtain ⟨us, ws, i, ρ, first, second, rfl⟩ := h.split
  rw [repetition_reached asked first]
  refine moreRounds_missed second us missed ?_
  cases allowed : most.rounds with
  | none =>
    simp only [allowed, Option.getD_none, Option.map_none] at more ⊢
    omega
  | some c =>
    simp only [allowed, Option.getD_some, Option.map_some] at more ⊢
    omega

end Repetition

section Closed

variable {m : Machine} {item : ParserId} {text env start : Value} {σ : Store} (least most : Count) {k : ℕ∞}

/-- Fewer rounds succeed than have to. -/
theorem Streak.fails (streak : Streak (runFrom m item text env) start σ k) (less : k < least.bound)
    (room : least = .unlimited → k < m.rounds) : ∃ n vs j τ r υ, k = (n : ℕ) ∧
      InARow (runFrom m item text env) start σ n vs j τ ∧ Misses (runFrom m item text env) j τ r υ ∧
      Behave.repetition m item least most text start env σ = .ok r υ := by
  obtain ⟨n, rfl⟩ := ENat.ne_top_iff_exists.mp (ne_top_of_lt less)
  obtain ⟨vs, j, τ, rounds⟩ := streak.rounds n le_rfl
  obtain ⟨r, υ, missed⟩ := streak.ends n rfl vs j τ rounds
  refine ⟨n, vs, j, τ, r, υ, rfl, rounds, missed, repetition_missed rounds missed ?_⟩
  cases asked : least.rounds with
  | none => exact ENat.natCast_lt_natCast.mp (room (Count.unlimited_of_rounds asked))
  | some a =>
    rw [Count.bound_some asked] at less
    exact ENat.natCast_lt_natCast.mp less

/-- As many rounds succeed as have to, and their number or that of those that may is finite. -/
theorem Streak.succeeds (streak : Streak (runFrom m item text env) start σ k) (enough : least.bound ≤ k)
    {n : ℕ} (finite : min k (max least.bound most.bound) = n) (room : most = .unlimited → k < m.rounds) :
    ∃ vs j τ υ, InARow (runFrom m item text env) start σ n vs j τ ∧
      Behave.repetition m item least most text start env σ = .ok (.success j (.list vs)) υ ∧
      (max least.bound most.bound ≤ k ∧ υ = τ ∨
        k < max least.bound most.bound ∧ ∃ r, Misses (runFrom m item text env) j τ r υ) := by
  cases asked : least.rounds with
  | none =>
    rw [Count.bound_none asked, top_le_iff] at enough
    rw [Count.bound_none asked, enough, top_sup_eq, min_self] at finite
    exact absurd finite (ENat.top_ne_natCast n)
  | some a =>
    rw [Count.bound_some asked] at enough finite ⊢
    rcases le_or_gt (max (a : ℕ∞) most.bound) k with all | fewer
    · rw [min_eq_right all] at finite
      cases allowed : most.rounds with
      | none =>
        rw [Count.bound_none allowed, sup_top_eq] at finite
        exact absurd finite (ENat.top_ne_natCast n)
      | some c =>
        have larger : max a c = n := by
          rw [Count.bound_some allowed, max_natCast] at finite
          exact ENat.natCast_inj.mp finite
        obtain ⟨vs, j, τ, rounds⟩ := streak.rounds n (finite ▸ all)
        exact ⟨vs, j, τ, τ, rounds, repetition_full asked allowed (larger ▸ rounds), .inl ⟨all, rfl⟩⟩
    · rw [min_eq_left fewer.le] at finite
      subst finite
      obtain ⟨vs, j, τ, rounds⟩ := streak.rounds n le_rfl
      obtain ⟨r, υ, missed⟩ := streak.ends n rfl vs j τ rounds
      have enough : a ≤ n := ENat.natCast_le_natCast.mp enough
      refine ⟨vs, j, τ, υ, rounds, repetition_stopped asked enough rounds missed ?_, .inr ⟨fewer, r, missed⟩⟩
      cases allowed : most.rounds with
      | none =>
        have := ENat.natCast_lt_natCast.mp (room (Count.unlimited_of_rounds allowed))
        exact Nat.lt_add_left a this
      | some c =>
        rw [Count.bound_some allowed, max_natCast] at fewer
        have fewer : n < max a c := ENat.natCast_lt_natCast.mp fewer
        show n < c
        omega

/-- All rounds succeed, and their number is not limited. -/
theorem Streak.endless (streak : Streak (runFrom m item text env) start σ ⊤)
    (unlimited : max least.bound most.bound = ⊤) :
    ∃ τ, Behave.repetition m item least most text start env σ = .error .endless τ := by
  cases asked : least.rounds with
  | none =>
    obtain ⟨vs, j, τ, rounds⟩ := streak.rounds m.rounds le_top
    exact ⟨τ, repetition_endless asked rounds⟩
  | some a =>
    cases allowed : most.rounds with
    | some c =>
      rw [Count.bound_some asked, Count.bound_some allowed, max_natCast] at unlimited
      exact absurd unlimited (ENat.natCast_ne_top _)
    | none =>
      obtain ⟨vs, j, τ, rounds⟩ := streak.rounds (a + m.rounds) le_top
      obtain ⟨us, ws, i, ρ, first, second, rfl⟩ := rounds.split
      refine ⟨τ, ?_⟩
      rw [repetition_reached asked first, allowed]
      exact moreRounds_endless second us

/-- What a repetition of a parser comes to, if a failure of the parser is never at a place below zero.  Some
number of rounds in a row succeed before one fails, or all of them do.  If that are fewer than have to succeed,
the repetition returns the failure as it is.  Otherwise it takes as many rounds as succeed and as the counts
allow, and if that number is finite it succeeds where they ended, with their values; beyond them it has run the
parser once more if it was a failure that ended the rounds, and not at all if it was the counts.  On no machine
does it ever end exactly if neither a failure nor the counts end it. -/
theorem repetition_closed (answers : Answers (runFrom m item text env) start σ) :
    ∃ k : ℕ∞, Streak (runFrom m item text env) start σ k ∧
      (k < least.bound → ∀ R : ℕ, (least = .unlimited → k < R) → ∃ n vs j τ r υ, k = (n : ℕ) ∧
        InARow (runFrom m item text env) start σ n vs j τ ∧ Misses (runFrom m item text env) j τ r υ ∧
        behave { m with rounds := R } (.repetition item least most) text start env σ = .ok r υ) ∧
      (least.bound ≤ k → ∀ n : ℕ, min k (max least.bound most.bound) = n →
        ∀ R : ℕ, (most = .unlimited → k < R) → ∃ vs j τ υ,
          InARow (runFrom m item text env) start σ n vs j τ ∧
          behave { m with rounds := R } (.repetition item least most) text start env σ =
            .ok (.success j (.list vs)) υ ∧
          (max least.bound most.bound ≤ k ∧ υ = τ ∨
            k < max least.bound most.bound ∧ ∃ r, Misses (runFrom m item text env) j τ r υ)) ∧
      ((∀ R : ℕ, ∃ τ, behave { m with rounds := R } (.repetition item least most) text start env σ =
          .error .endless τ) ↔ k = ⊤ ∧ max least.bound most.bound = ⊤) := by
  obtain ⟨k, streak⟩ := answers.exists_streak
  have fails := fun less R room => Streak.fails (m := { m with rounds := R }) least most streak less room
  have succeeds := fun enough n finite R room =>
    Streak.succeeds (m := { m with rounds := R }) least most (n := n) streak enough finite room
  refine ⟨k, streak, fails, succeeds, fun never => ?_, ?_⟩
  · by_contra finite
    -- If one of the two is finite, some number of rounds is enough for the run to end.
    have room : ∃ R : ℕ, (least = .unlimited → k < R) ∧ (most = .unlimited → k < R) := by
      by_cases all : k = ⊤
      · refine ⟨0, fun same => absurd ⟨all, ?_⟩ finite, fun same => absurd ⟨all, ?_⟩ finite⟩
        · rw [same, Count.bound, top_sup_eq]
        · rw [same]
          exact sup_top_eq _
      · obtain ⟨n, rfl⟩ := ENat.ne_top_iff_exists.mp all
        have next : (n : ℕ∞) < (n + 1 : ℕ) := ENat.natCast_lt_natCast.mpr (Nat.lt_succ_self n)
        exact ⟨n + 1, fun _ => next, fun _ => next⟩
    obtain ⟨R, room, room'⟩ := room
    obtain ⟨ρ, endless⟩ := never R
    rcases lt_or_ge k least.bound with less | enough
    · obtain ⟨_, _, _, _, _, _, _, _, _, ended⟩ := fails less R room
      exact absurd (endless.symm.trans ended) nofun
    · have bounded : min k (max least.bound most.bound) ≠ ⊤ := fun top => finite (min_eq_top.mp top)
      obtain ⟨n, same⟩ := ENat.ne_top_iff_exists.mp bounded
      obtain ⟨_, _, _, _, _, ended, _⟩ := succeeds enough n same.symm R room'
      exact absurd (endless.symm.trans ended) nofun
  · rintro ⟨rfl, unlimited⟩ R
    exact Streak.endless (m := { m with rounds := R }) least most streak unlimited

end Closed

private def calledNever : Host := ⟨fun _ _ _ => return .none, Value.share⟩

/-- Characters of a text of two letters. -/
private abbrev readsTwo : Value → Eval Value := runFrom (machine calledNever 9 9) 0 (.str "ab") .none

/-- A repetition with a negative lower bound and no upper one, on two letters. -/
theorem repetition_closed_twoLetters : ∃ vs j τ υ,
    InARow readsTwo (.int 0) Store.initial 2 vs j τ ∧
      behave { machine calledNever 9 9 with rounds := 3 } (.repetition 0 (.times (-1)) .unlimited) (.str "ab")
        (.int 0) .none Store.initial = .ok (.success j (.list vs)) υ := by
  have first : readsTwo (.int 0) Store.initial = .ok (.success (.int 1) (.ofChar 'a')) Store.initial := rfl
  have second : readsTwo (.int 1) Store.initial = .ok (.success (.int 2) (.ofChar 'b')) Store.initial := rfl
  have third : Misses readsTwo (.int 2) Store.initial (.failure (.int 2) (.str "any character")) Store.initial :=
    ⟨rfl, _, _, rfl, by decide⟩
  have one : InARow readsTwo (.int 0) Store.initial 1 _ _ _ := .succ first rfl .zero
  have two : InARow readsTwo (.int 0) Store.initial 2 _ _ _ := .succ first rfl (.succ second rfl .zero)
  have all : ∀ n vs j τ, InARow readsTwo (.int 0) Store.initial n vs j τ →
      n = 0 ∧ j = .int 0 ∧ τ = Store.initial ∨ n = 1 ∧ j = .int 1 ∧ τ = Store.initial ∨
        n = 2 ∧ j = .int 2 ∧ τ = Store.initial := by
    intro n vs j τ rounds
    cases rounds with
    | zero => exact .inl ⟨rfl, rfl, rfl⟩
    | succ run matched more =>
      obtain ⟨rfl, rfl⟩ := EStateM.Result.ok.inj (first.symm.trans run)
      cases matched
      cases more with
      | zero => exact .inr (.inl ⟨rfl, rfl, rfl⟩)
      | succ run matched more =>
        obtain ⟨rfl, rfl⟩ := EStateM.Result.ok.inj (second.symm.trans run)
        cases matched
        cases more with
        | zero => exact .inr (.inr ⟨rfl, rfl, rfl⟩)
        | succ run matched more =>
          obtain ⟨rfl, rfl⟩ := EStateM.Result.ok.inj (third.1.symm.trans run)
          cases matched
  have answers : Answers readsTwo (.int 0) Store.initial := by
    intro n vs j τ rounds
    rcases all n vs j τ rounds with ⟨_, rfl, rfl⟩ | ⟨_, rfl, rfl⟩ | ⟨_, rfl, rfl⟩
    · exact ⟨_, _, .inl ⟨first, _, _, rfl⟩⟩
    · exact ⟨_, _, .inl ⟨second, _, _, rfl⟩⟩
    · exact ⟨_, _, .inr third⟩
  have streak : Streak readsTwo (.int 0) Store.initial (2 : ℕ) := by
    refine ⟨fun n le => ?_, fun n same vs j τ rounds => ?_⟩
    · have le : n ≤ 2 := ENat.natCast_le_natCast.mp le
      match n, le with
      | 0, _ => exact ⟨_, _, _, .zero⟩
      | 1, _ => exact ⟨_, _, _, one⟩
      | 2, _ => exact ⟨_, _, _, two⟩
    · obtain rfl : 2 = n := ENat.natCast_inj.mp same
      rcases all 2 vs j τ rounds with ⟨no, _⟩ | ⟨no, _⟩ | ⟨_, rfl, rfl⟩
      · cases no
      · cases no
      · exact ⟨_, _, third⟩
  obtain ⟨k, known, _, succeeds, _⟩ := repetition_closed (.times (-1)) .unlimited answers
  obtain rfl := known.unique streak
  obtain ⟨vs, j, τ, υ, rounds, ended, _⟩ := succeeds zero_le 2 (by simp [Count.bound]) 3 fun _ => by decide
  exact ⟨vs, j, τ, υ, rounds, ended⟩

end Rebind
