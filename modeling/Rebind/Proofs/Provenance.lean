import Rebind.Proofs.Classes
import Rebind.Proofs.Courses
/-!
# Where expectations come from

A failure says what was expected at the furthest place, merged from failures at several levels.  In grammars
whose behaviours pass on what their parts expected, each of these descriptions is that of a leaf which was run
at that place in the course of the same parse, and which failed there.  A direct call may add that the end of
the text was expected, and does so only where there was more of it.

What is run in the course of a parse is said by relations of their own, with one rule for each way in which a
behaviour comes to run a part: at which index, in which environment and in which store.
-/
namespace Rebind

open Attempt

/-- The behaviours that expect something themselves, or pass on what their parts expected. -/
def Behaviour.Candid (functions choosers : Value → Prop) : BehaviourClass
  | _, .testChar f _ => functions f
  | _, .regex r group => group ≤ r.groupCount
  | parsers, .sequence ps => ∀ p ∈ ps, parsers p
  | parsers, .alternative ps => ps ≠ [] ∧ ∀ p ∈ ps, parsers p
  | parsers, .repetition p _ _ | parsers, .mark p => parsers p
  | parsers, .transform p f | parsers, .subEnvironment p f => parsers p ∧ functions f
  | _, .deferredLookup f _ => choosers f
  | _, .exclude _ _ | _, .describe _ _ | _, .chain _ _ | _, .debug _ _ => False
  | _, .anyChar | _, .rest | _, .eof | _, .index | _, .lineColumnIndex | _, .succeed _ | _, .fail _
  | _, .string _ => True

/-! ### Leaves -/

/-- What a leaf expects where it fails. -/
def Behaviour.expectation? : Behaviour Value → Option String
  | .anyChar => some "any character"
  | .eof => some "EOF"
  | .string literal => some ("'" ++ literal ++ "'")
  | .regex r _ => some r.shown
  | .testChar _ d | .fail d => some d
  | _ => none

/-- A leaf does not match the text at an index. -/
def Behaviour.Rejects (m : Machine) (text : List Char) (i : Nat) (env : Value) (σ : Store) :
    Behaviour Value → Prop
  | .anyChar => text.length ≤ i
  | .eof => i < text.length
  | .string literal => ¬ literal.toList <+: text.drop i
  | .regex r _ => Regex.matchStart? r (text.drop i) = none
  | .testChar f _ => ∀ c, text[i]? = some c →
    ∃ v τ, m.call f [.ofChar c, env] σ = .ok v τ ∧ (τ.view v).isTruthy = false
  | .fail _ => True
  | _ => False

/-- A leaf fails where it does not match, at its index, and expects what it describes. -/
def Behaviour.Fails (m : Machine) (text : List Char) (i : Nat) (env : Value) (σ : Store)
    (b : Behaviour Value) (a : Attempt) : Prop :=
  ∃ d, b.expectation? = some d ∧ a = .missed i [d] ∧ b.Rejects m text i env σ

/-- A leaf that fails is a reason for its own failure. -/
theorem Behaviour.leaf?_fails {b : Behaviour Value} {text : List Char} {i : Nat} {place : Int}
    {expected : List String} (h : b.leaf? text i = some (.missed place expected)) (m : Machine)
    (env : Value) (σ : Store) : b.Fails m text i env σ (.missed place expected) := by
  cases b with
  | anyChar =>
    replace h := Option.some.inj h
    cases there : text[i]? with
    | some c =>
      rw [there] at h
      cases h
    | none =>
      rw [there] at h
      cases h
      exact ⟨_, rfl, rfl, List.getElem?_eq_none_iff.mp there⟩
  | eof =>
    replace h := Option.some.inj h
    split at h
    · next more =>
      cases h
      exact ⟨_, rfl, rfl, more⟩
    · cases h
  | string literal =>
    replace h := Option.some.inj h
    split at h
    · cases h
    · next other =>
      cases h
      exact ⟨_, rfl, rfl, fun there => other (List.isPrefixOf_iff_prefix.mpr there)⟩
  | regex r group =>
    replace h := (Behaviour.leaf?_regex h).2
    cases there : Regex.matchStart? r (text.drop i) with
    | some found =>
      rw [there] at h
      cases h
    | none =>
      rw [there] at h
      cases h
      exact ⟨_, rfl, rfl, there⟩
  | fail d =>
    cases Option.some.inj h
    exact ⟨_, rfl, rfl, trivial⟩
  | rest | index | lineColumnIndex | succeed => cases Option.some.inj h
  | _ => cases h

/-! ### What is run -/

/-- A parser as it is run on a text. -/
structure Visit where
  parser : ParserId
  index : Int
  environment : Value
  store : Store

/-- A visit ends in an attempt, and leaves a store behind. -/
def Visit.Gives (m : Machine) (s : String) (v : Visit) (a : Attempt) (τ : Store) : Prop :=
  m.run v.parser (.str s) (.int v.index) v.environment v.store = .ok a.value τ

/-- A count asks for more rounds than there have been. -/
def Count.Exceeds : Count → Nat → Prop
  | .times n, done => (done : Int) < n
  | .unlimited, _ => True

/-- Where so many rounds have led, all of which matched. -/
inductive Rounds (m : Machine) (s : String) (env : Value) (item : ParserId) (i : Int) (σ : Store) :
    Nat → Int → Store → Prop
  | zero : Rounds m s env item i σ 0 i σ
  | succ {done : Nat} {j k : Int} {v : Value} {τ υ : Store} (before : Rounds m s env item i σ done j τ)
    (round : Visit.Gives m s ⟨item, j, env, τ⟩ (.matched k v) υ) :
    Rounds m s env item i σ (done + 1) k υ

/-- A behaviour of this class, from an index and in a store, comes to run a part. -/
inductive Behaviour.Runs (m : Machine) (s : String) (env : Value) :
    Behaviour Value → Int → Store → Visit → Prop
  | first {p : ParserId} {ps : List ParserId} {i : Int} {σ : Store} :
    Runs m s env (.sequence (p :: ps)) i σ ⟨p, i, env, σ⟩
  | next {p : ParserId} {ps : List ParserId} {i j : Int} {v : Value} {σ τ : Store} {w : Visit}
    (matched : Visit.Gives m s ⟨p, i, env, σ⟩ (.matched j v) τ) (later : Runs m s env (.sequence ps) j τ w) :
    Runs m s env (.sequence (p :: ps)) i σ w
  | choice {p : ParserId} {ps : List ParserId} {i : Int} {σ : Store} :
    Runs m s env (.alternative (p :: ps)) i σ ⟨p, i, env, σ⟩
  | other {p : ParserId} {ps : List ParserId} {i k : Int} {expected : List String} {σ τ : Store} {w : Visit}
    (missed : Visit.Gives m s ⟨p, i, env, σ⟩ (.missed k expected) τ)
    (later : Runs m s env (.alternative ps) i τ w) : Runs m s env (.alternative (p :: ps)) i σ w
  | round {item : ParserId} {least most : Count} {done : Nat} {i j : Int} {σ τ : Store}
    (before : Rounds m s env item i σ done j τ) (asked : least.Exceeds done ∨ most.Exceeds done) :
    Runs m s env (.repetition item least most) i σ ⟨item, j, env, τ⟩
  | transform {p : ParserId} {f : Value} {i : Int} {σ : Store} :
    Runs m s env (.transform p f) i σ ⟨p, i, env, σ⟩
  | mark {p : ParserId} {i : Int} {σ : Store} : Runs m s env (.mark p) i σ ⟨p, i, env, σ⟩
  | subEnvironment {p : ParserId} {f inside : Value} {i : Int} {σ τ : Store}
    (called : m.call f [env] σ = .ok inside τ) :
    Runs m s env (.subEnvironment p f) i σ ⟨p, i, inside, τ⟩
  | deferredLookup {p : ParserId} {f : Value} {name : String} {i : Int} {σ τ : Store}
    (called : m.call f [env] σ = .ok (.parser p) τ) :
    Runs m s env (.deferredLookup f name) i σ ⟨p, i, env, τ⟩

/-- A visit on a machine of some depth, in the course of which there is another one on a machine below. -/
inductive Visits (host : Host) (rounds : Nat) (s : String) : Nat → Visit → Nat → Visit → Prop
  | self {depth : Nat} {v : Visit} : Visits host rounds s depth v depth v
  | deeper {depth depth' : Nat} {v w u : Visit} {b : Behaviour Value}
    (does : v.store.behaviour? v.parser = some b)
    (runs : b.Runs (machine host rounds depth) s v.environment v.index v.store w)
    (visits : Visits host rounds s depth w depth' u) : Visits host rounds s (depth + 1) v depth' u

/-- In the course of a visit, a leaf that expects this was run at this place.  It failed there, because the
text does not match. -/
def Blames (host : Host) (rounds : Nat) (s : String) (depth : Nat) (v : Visit) (place : Int) (d : String) :
    Prop :=
  ∃ (depth' : Nat) (u : Visit) (i : Nat) (b : Behaviour Value) (τ : Store),
    Visits host rounds s depth v (depth' + 1) u ∧ u.index = i ∧ place = i ∧
    u.store.behaviour? u.parser = some b ∧ b.expectation? = some d ∧
    b.Rejects (machine host rounds depth') s.toList i u.environment u.store ∧
    u.Gives (machine host rounds (depth' + 1)) s (.missed i [d]) τ

theorem Blames.below {host : Host} {rounds depth : Nat} {s : String} {v w : Visit} {b : Behaviour Value}
    {place : Int} {d : String} (blames : Blames host rounds s depth w place d)
    (does : v.store.behaviour? v.parser = some b)
    (runs : b.Runs (machine host rounds depth) s v.environment v.index v.store w) :
    Blames host rounds s (depth + 1) v place d := by
  obtain ⟨depth', u, i, c, τ, visits, failed⟩ := blames
  exact ⟨depth', u, i, c, τ, .deeper does runs visits, failed⟩

/-! ### Reasons for what was expected -/

/-- An attempt that ended within the text; if it failed, it expected something, and there is a reason for all
that it expected. -/
def Attempt.Grounded (length : Nat) (reason : Int → String → Prop) : Attempt → Prop
  | matched stop _ => 0 ≤ stop ∧ stop ≤ length
  | missed place expected => 0 ≤ place ∧ expected ≠ [] ∧ ∀ d ∈ expected, reason place d

/-- A failure for which there are reasons, or none. -/
def Attempt.EarlierGrounded (length : Nat) (reason : Int → String → Prop)
    (earlier : Option (Int × List String)) : Prop :=
  ∀ e, earlier = some e → (missed e.1 e.2).Grounded length reason

section Grounded

variable {length : Nat} {reason reason' : Int → String → Prop}

/-- Reasons may be weakened. -/
theorem Attempt.Grounded.mono {a : Attempt} (h : a.Grounded length reason)
    (weaker : ∀ k d, reason k d → reason' k d) : a.Grounded length reason' := by
  cases a with
  | matched stop v => exact h
  | missed place expected => exact ⟨h.1, h.2.1, fun d member => weaker _ _ (h.2.2 d member)⟩

/-- Merging failures leaves what was expected at the place where it was expected. -/
theorem Attempt.grounded_after {place : Int} {expected : List String} {earlier : Option (Int × List String)}
    (h : (missed place expected).Grounded length reason) (h' : EarlierGrounded length reason earlier) :
    EarlierGrounded length reason (some (after place expected earlier)) := by
  rintro e same
  obtain rfl := Option.some.inj same
  rcases after_cases place expected earlier with same | same | ⟨wanted, before, same⟩
  · rw [same]
    exact h
  · exact h' _ same
  · rw [same]
    refine ⟨h.1, by simp [h.2.1], fun d member => ?_⟩
    rcases List.mem_append.mp member with new | old
    · exact h.2.2 d new
    · exact (h' _ before).2.2 d old

end Grounded

/-! ### Evaluation -/

/-- An evaluation that ends in an attempt, and the store that it leaves behind. -/
theorem Tries.gives {x : Eval Value} {σ : Store} {post : Attempt → Store → Prop}
    {fault : Fault → Store → Prop} (h : Tries x σ post fault) :
    Tries x σ (fun a τ => post a τ ∧ x σ = .ok a.value τ) fault := by
  unfold Tries Ends at h ⊢
  split at h
  · next v τ ended =>
    obtain ⟨a, rfl, holds⟩ := h
    exact ⟨a, rfl, holds, ended⟩
  · exact h

/-- What is known of the parsers and functions on which a behaviour is built: there is blame for what the
parsers expect where they fail, and the functions are tame. -/
structure Blaming (kind : BehaviourClass) (functions choosers : Value → Prop) (s : String)
    (blames : Visit → Int → String → Prop) (base : Store) (m : Machine) : Prop
    extends TameCalls kind functions choosers base m where
  run : ∀ {p τ} {i : Nat} env, Course.kept.leads base τ → Among kind τ p → i ≤ s.toList.length →
    Tries (m.run p (.str s) (.int i) env) τ
      (fun a υ => Course.kept.leads τ υ ∧ a.Grounded s.toList.length (blames ⟨p, i, env, τ⟩)) anyhow

section Parts

variable {kind : BehaviourClass} {functions choosers : Value → Prop} {s : String}
  {blames : Visit → Int → String → Prop} {base τ : Store} {m : Machine} {env : Value} {i : Nat}
  {reason : Int → String → Prop}

/-- An attempt that leaves the parsers alone, and for whose expectations there are reasons. -/
def Justified (s : String) (base : Store) (reason : Int → String → Prop) (a : Attempt) (υ : Store) : Prop :=
  Course.kept.leads base υ ∧ a.Grounded s.toList.length reason

/-- What is left to do where a part is run: one case for a success within the text and one for a failure. -/
theorem Blaming.tries (h : Blaming kind functions choosers s blames base m) (led : Course.kept.leads base τ)
    {p : ParserId} (known : Among kind base p) (start : i ≤ s.toList.length)
    {post : Attempt → Store → Prop}
    (hmatched : ∀ (j : Nat) v υ, j ≤ s.toList.length → Course.kept.leads base υ →
      Visit.Gives m s ⟨p, i, env, τ⟩ (.matched j v) υ → post (.matched j v) υ)
    (hmissed : ∀ k expected υ, Course.kept.leads base υ →
      Visit.Gives m s ⟨p, i, env, τ⟩ (.missed k expected) υ →
      (missed k expected).Grounded s.toList.length (blames ⟨p, i, env, τ⟩) →
      post (.missed k expected) υ) :
    Tries (m.run p (.str s) (.int i) env) τ post anyhow := by
  refine (h.run env led (known.of_kept led) start).gives.imp ?_
  rintro a υ ⟨⟨led', grounded⟩, gave⟩
  cases a with
  | matched stop v =>
    obtain ⟨j, rfl⟩ := Int.eq_ofNat_of_zero_le grounded.1
    exact hmatched j v υ (by have := grounded.2; omega) (Course.kept.trans led led') gave
  | missed k expected => exact hmissed k expected υ (Course.kept.trans led led') gave grounded

/-- A part that is run last passes on its reasons. -/
theorem Blaming.last (h : Blaming kind functions choosers s blames base m) (led : Course.kept.leads base τ)
    {p : ParserId} (known : Among kind τ p) (start : i ≤ s.toList.length)
    (because : ∀ k d, blames ⟨p, i, env, τ⟩ k d → reason k d) :
    Tries (m.run p (.str s) (.int i) env) τ (Justified s base reason) anyhow := by
  refine (h.run env led known start).imp ?_
  exact fun a υ ran => ⟨Course.kept.trans led ran.1, ran.2.mono because⟩

/-- The call of a function. -/
theorem Blaming.call (h : Blaming kind functions choosers s blames base m) (led : Course.kept.leads base τ)
    {f : Value} (known : functions f ∨ choosers f) (arguments : List Value) :
    Ends (m.call f arguments) τ
      (fun v υ => Course.kept.leads base υ ∧ m.call f arguments τ = .ok v υ) anyhow :=
  (ends_anyhow _ τ).imp fun _ _ ended => ⟨Course.kept.trans led (h.keeps known led ended), ended⟩

/-- By induction on the parts: what fails is a part, and its reasons are reasons for the whole. -/
theorem sequenceFrom_justified (h : Blaming kind functions choosers s blames base m) (ps : List ParserId)
    (led : Course.kept.leads base τ) (known : ∀ p ∈ ps, Among kind base p) {previous : Value}
    (passive : Passive previous) (values : List Value) (start : i ≤ s.toList.length)
    (because : ∀ w, Behaviour.Runs m s env (.sequence ps) i τ w → ∀ k d, blames w k d → reason k d) :
    Tries (Behave.sequenceFrom m (.str s) env ps previous values (.int i)) τ (Justified s base reason)
      anyhow := by
  induction ps generalizing previous values i τ with
  | nil => exact tries_sequence_nil ⟨led, Int.natCast_nonneg _, by omega⟩
  | cons p ps ih =>
    refine tries_sequence_cons passive (h.tries led (known p (by simp)) start ?_ ?_)
    · intro j v υ within led' gave
      exact ih led' (fun q member => known q (by simp [member])) (passive_matched j v) (values ++ [v]) within
        fun w runs => because w (.next gave runs)
    · intro k expected υ led' _ grounded
      exact ⟨grounded.1, led', grounded.mono (because _ .first)⟩

/-- By induction on the choices: merged failures have the reasons of both. -/
theorem alternativeFrom_justified (h : Blaming kind functions choosers s blames base m) (ps : List ParserId)
    (led : Course.kept.leads base τ) (known : ∀ p ∈ ps, Among kind base p)
    (earlier : Option (Int × List String)) (given : ps = [] → earlier.isSome)
    (before : EarlierGrounded s.toList.length reason earlier) (start : i ≤ s.toList.length)
    (because : ∀ w, Behaviour.Runs m s env (.alternative ps) i τ w → ∀ k d, blames w k d → reason k d) :
    Tries (Behave.alternativeFrom m (.str s) (.int i) env ps (failureValue earlier)) τ
      (Justified s base reason) anyhow := by
  -- The failure so far stays grounded, from one choice to the next.
  induction ps generalizing earlier τ with
  | nil =>
    cases earlier with
    | none => exact absurd (given rfl) (by simp)
    | some failure => exact tries_alternative_nil ⟨led, before failure rfl⟩
  | cons p ps ih =>
    refine tries_alternative_cons (h.tries led (known p (by simp)) start ?_ ?_)
    · intro j v υ within led' _
      exact ⟨led', Int.natCast_nonneg _, by omega⟩
    · intro k expected υ led' gave grounded
      exact ih led' (fun q member => known q (by simp [member])) _ (fun _ => rfl)
        (grounded_after (grounded.mono (because _ .choice)) before) fun w runs => because w (.other gave runs)

/-- The rounds that have to succeed, with those before them. -/
theorem requiredRounds_justified (h : Blaming kind functions choosers s blames base m) {item : ParserId}
    (known : Among kind base item) {least most : Count} {σ : Store} {done : Nat} {j : Nat} (rounds : Nat)
    (asked : ∀ n, n < done + rounds → least.Exceeds n) (led : Course.kept.leads base τ)
    (before : Rounds m s env item i σ done j τ) {previous : Value} (passive : Passive previous)
    (values : List Value) (start : j ≤ s.toList.length)
    (because : ∀ w, Behaviour.Runs m s env (.repetition item least most) i σ w →
      ∀ k d, blames w k d → reason k d) :
    Ends (Behave.requiredRounds m item (.str s) env rounds previous values (.int j)) τ
      (fun progress υ => match progress with
        | .failed r => ∃ a : Attempt, r = a.value ∧ Justified s base reason a υ
        | .reached index _ => ∃ k : Nat, index = .int k ∧ k ≤ s.toList.length ∧ Course.kept.leads base υ)
      anyhow := by
  induction rounds generalizing done previous values j τ with
  | zero => exact ⟨j, rfl, start, led⟩
  | succ rounds ih =>
    refine ends_requiredRounds_succ passive (h.tries led known start ?_ ?_)
    · intro k v υ within led' gave
      exact ih (fun n within => asked n (by omega)) led' (.succ before gave) (passive_matched k v)
        (values ++ [v]) within
    · intro k expected υ led' _ grounded
      have runs := because _ (.round before (.inl (asked done (by omega))))
      exact ⟨grounded.1, _, rfl, led', grounded.mono runs⟩

/-- The rounds that may follow keep within the text. -/
theorem optionalRounds_within (h : Blaming kind functions choosers s blames base m) {item : ParserId}
    (known : Among kind base item) (rounds : Nat) (led : Course.kept.leads base τ) (values : List Value)
    (start : i ≤ s.toList.length) :
    Ends (Behave.optionalRounds m item (.str s) env rounds values (.int i)) τ
      (fun reached υ => ∃ k : Nat, reached.2.1 = .int k ∧ k ≤ s.toList.length ∧ Course.kept.leads base υ)
      anyhow := by
  induction rounds generalizing values i τ with
  | zero => exact ⟨i, rfl, start, led⟩
  | succ rounds ih =>
    refine ends_optionalRounds_succ (h.tries led known start ?_ ?_)
    · intro k v υ within led' _
      exact ih led' (values ++ [v]) within
    · intro k expected υ led' _ _
      exact ⟨i, rfl, start, led'⟩

/-- A round that had to succeed gives the reasons. -/
theorem repetition_justified (h : Blaming kind functions choosers s blames base m) {item : ParserId}
    (known : Among kind base item) (least most : Count) (start : i ≤ s.toList.length)
    (because : ∀ w, Behaviour.Runs m s env (.repetition item least most) i base w →
      ∀ k d, blames w k d → reason k d) :
    Tries (Behave.repetition m item least most (.str s) (.int i) env) base (Justified s base reason)
      anyhow := by
  have refl := Course.kept.refl base
  have asked : ∀ n, n < 0 + ((Behave.roundsBeyond 0 least).getD m.rounds) → least.Exceeds n := by
    intro n within
    cases least with
    | unlimited => trivial
    | times k =>
      simp only [Behave.roundsBeyond, Option.getD_some] at within
      show (n : Int) < k
      omega
  unfold Behave.repetition
  refine Ends.bind (requiredRounds_justified h known _ asked refl .zero passive_none [] start because) ?_
  rintro (r | ⟨index, values⟩) υ ended
  · obtain ⟨a, rfl, justified⟩ := ended
    exact tries_pure justified
  · obtain ⟨j, rfl, within, led⟩ := ended
    dsimp only
    split
    · refine Ends.bind (optionalRounds_within h known _ led values within) ?_
      rintro ⟨stopped, index, values⟩ ω ⟨k, rfl, within, led⟩
      dsimp only
      split
      · exact trivial
      · exact tries_pure (a := matched k (.list values)) ⟨led, Int.natCast_nonneg _, by omega⟩
    · exact trivial

/-- Behaviours over one parser pass its reasons on. -/
theorem transform_justified (h : Blaming kind functions choosers s blames base m) {p : ParserId} {f : Value}
    (known : Among kind base p) (known' : functions f) (start : i ≤ s.toList.length)
    (because : ∀ k d, blames ⟨p, i, env, base⟩ k d → reason k d) :
    Tries (Behave.transform m p f (.str s) (.int i) env) base (Justified s base reason) anyhow := by
  refine tries_transform (h.tries (Course.kept.refl base) known start ?_ ?_)
  · intro j v υ within led _
    rw [h.share]
    refine (h.call (kept_fresh led _) (.inl known') _).imp ?_
    exact fun r ω returned => ⟨returned.1, Int.natCast_nonneg _, by omega⟩
  · exact fun k expected υ led _ grounded => ⟨led, grounded.mono because⟩

/-- The three parts of a mark may be missing, but then there is no failure either. -/
theorem mark_justified (h : Blaming kind functions choosers s blames base m) {p : ParserId}
    (known : Among kind base p) (start : i ≤ s.toList.length)
    (because : ∀ k d, blames ⟨p, i, env, base⟩ k d → reason k d) :
    Tries (Behave.mark m p (.str s) (.int i) env) base (Justified s base reason) anyhow := by
  have three : ∀ v, Course.kept.Keeps (Behave.threeOf v) := Course.keeps_threeOf
  unfold Behave.mark
  refine Tries.bind (h.last (Course.kept.refl base) known start because) fun a τ justified => ?_
  cases a with
  | matched j v =>
    simp only [resultOf_matched, truthy_bool, pure_bind, if_true]
    refine Ends.bind ((three v τ).mono (fun _ _ led => led) fun _ _ _ => trivial) ?_
    rintro ⟨x, y, z⟩ υ led
    exact tries_pure (a := matched j (.mark x y z)) ⟨Course.kept.trans justified.1 led, justified.2⟩
  | missed k expected =>
    simp only [resultOf_missed, truthy_bool, pure_bind, Bool.false_eq_true, if_false]
    exact tries_pure justified

theorem subEnvironment_justified (h : Blaming kind functions choosers s blames base m) {p : ParserId}
    {f : Value} (known : Among kind base p) (known' : functions f) (start : i ≤ s.toList.length)
    (because : ∀ w, Behaviour.Runs m s env (.subEnvironment p f) i base w →
      ∀ k d, blames w k d → reason k d) :
    Tries (Behave.subEnvironment m p f (.str s) (.int i) env) base (Justified s base reason) anyhow := by
  refine Ends.bind (h.call (Course.kept.refl base) (.inl known') [env]) ?_
  rintro inside τ ⟨led, called⟩
  exact h.last led (known.of_kept led) start (because _ (.subEnvironment called))

theorem deferredLookup_justified (h : Blaming kind functions choosers s blames base m) {f : Value}
    (known : choosers f) (name : String) (start : i ≤ s.toList.length)
    (because : ∀ w, Behaviour.Runs m s env (.deferredLookup f name) i base w →
      ∀ k d, blames w k d → reason k d) :
    Tries (Behave.deferredLookup m f name (.str s) (.int i) env) base (Justified s base reason) anyhow := by
  refine tries_deferredLookup ((h.call (Course.kept.refl base) (.inr known) [env]).imp ?_)
  rintro found τ ⟨led, called⟩
  refine ⟨?_, fun _ => trivial⟩
  rintro p rfl there
  exact h.last led (h.chooses known (Course.kept.refl base) called there) start
    (because _ (.deferredLookup called))

/-- A behaviour that fails is a leaf that fails at its index, or one of its parts is to blame. -/
def Behaviour.Accounts (m : Machine) (s : String) (env : Value) (blames : Visit → Int → String → Prop)
    (base : Store) (i : Nat) (b : Behaviour Value) (a : Attempt) (τ : Store) : Prop :=
  Course.kept.leads base τ ∧
    (a.Grounded s.toList.length (fun k d => ∃ w, b.Runs m s env i base w ∧ blames w k d) ∨
      b.Fails m s.toList i env base a)

theorem testChar_accounts (h : Blaming kind functions choosers s blames base m) {f : Value}
    (known : functions f) (d : String) :
    Tries (Behave.testChar m f d (.str s) (.int i) env) base
      ((Behaviour.testChar f d).Accounts m s env blames base i) anyhow := by
  have refl := Course.kept.refl base
  refine tries_testChar (fun c there => ?_) fun past => ?_
  · have inside := (List.getElem?_eq_some_iff.mp there).1
    refine (h.call refl (.inl known) _).imp ?_
    rintro v τ ⟨led, called⟩
    refine ⟨led, ?_⟩
    split
    · exact .inl ⟨by omega, by omega⟩
    · next no =>
      refine .inr ⟨d, rfl, rfl, fun c' there' => ?_⟩
      obtain rfl : c = c' := Option.some.inj (there.symm.trans there')
      exact ⟨v, τ, called, Bool.eq_false_iff.mpr no⟩
  · refine ⟨refl, .inr ⟨d, rfl, rfl, fun c there => ?_⟩⟩
    rw [past] at there
    cases there

/-- Every behaviour accounts for how it ends. -/
theorem behave_accounts (h : Blaming kind functions choosers s blames base m) {b : Behaviour Value}
    {parsers : ParserId → Prop} (candid : b.Candid functions choosers parsers)
    (known : ∀ p, parsers p → Among kind base p) (start : i ≤ s.toList.length) :
    Tries (behave m b (.str s) (.int i) env) base (b.Accounts m s env blames base i) anyhow := by
  have refl := Course.kept.refl base
  have because : ∀ w, b.Runs m s env i base w → ∀ k d, blames w k d →
      ∃ w, b.Runs m s env i base w ∧ blames w k d := fun w runs k d blamed => ⟨w, runs, blamed⟩
  have inner : ∀ {x : Eval Value}, Tries x base
      (Justified s base fun k d => ∃ w, b.Runs m s env i base w ∧ blames w k d) anyhow →
      Tries x base (b.Accounts m s env blames base i) anyhow := fun tries =>
    tries.imp fun a τ justified => ⟨justified.1, .inl justified.2⟩
  have leaf : ∀ a, b.leaf? s.toList i = some a → Tries (behave m b (.str s) (.int i) env) base
      (b.Accounts m s env blames base i) anyhow := by
    intro a ends
    rw [behave_leaf m env start ends]
    refine tries_pure ⟨refl, ?_⟩
    cases a with
    | matched stop v =>
      have within := Behaviour.leaf?_within ends start
      exact .inl ⟨by have := within.1; omega, within.2⟩
    | missed place expected => exact .inr (Behaviour.leaf?_fails ends m env base)
  cases b with
  | testChar f d => exact testChar_accounts h candid d
  | sequence ps =>
    exact inner (sequenceFrom_justified h ps refl (fun p member => known p (candid p member)) passive_none
      [] start because)
  | alternative ps =>
    refine inner (alternativeFrom_justified h ps refl (fun p member => known p (candid.2 p member)) none ?_ ?_
      start because)
    · exact fun none => absurd none candid.1
    · rintro e ⟨⟩
  | repetition p least most =>
    exact inner (repetition_justified h (known p candid) least most start because)
  | transform p f =>
    exact inner (transform_justified h (known p candid.1) candid.2 start (because _ .transform))
  | mark p => exact inner (mark_justified h (known p candid) start (because _ .mark))
  | subEnvironment p f => exact inner (subEnvironment_justified h (known p candid.1) candid.2 start because)
  | deferredLookup f name => exact inner (deferredLookup_justified h candid name start because)
  | regex r group =>
    by_cases bytes : r.isBytes = true
    · exact Ends.of_eq_error (behave_bytes m env bytes) trivial
    · exact leaf _ (if_pos (Regex.answers_iff.mpr ⟨by simpa using bytes, candid⟩))
  | anyChar | rest | eof | index | lineColumnIndex | succeed | fail | string => exact leaf _ rfl
  | _ => exact candid.elim

end Parts

/-! ### Runs -/

section Runs

variable {host : Host} {functions choosers : Value → Prop} {σ₀ σ : Store} {s : String} {i : Nat}
  {p : ParserId}

/-- By induction on the height of the machine. -/
theorem run_justified (tame : Tame host functions choosers (Behaviour.Candid functions choosers) σ₀)
    (shares : host.share = Value.share) (untraced : σ₀.tracers = []) (rounds depth : Nat) (env : Value)
    (led : Course.kept.leads σ₀ σ) (known : Among (Behaviour.Candid functions choosers) σ p)
    (start : i ≤ s.toList.length) :
    Tries ((machine host rounds depth).run p (.str s) (.int i) env) σ
      (Justified s σ (Blames host rounds s depth ⟨p, i, env, σ⟩)) anyhow := by
  -- On the depth: blame for the runs of a machine is blame for the parts of what the machine above it runs.
  induction depth generalizing σ p i env with
  | zero => exact trivial
  | succ depth ih =>
    obtain ⟨parsers, b, does, candid, inside⟩ := known.behaviour
    have blaming : Blaming (Behaviour.Candid functions choosers) functions choosers s
        (Blames host rounds s depth) σ (machine host rounds depth) :=
      { tame.calls shares rounds depth led with
        run := fun env led' known' start' => ih env (Course.kept.trans led led') known' start' }
    have above : (machine host rounds (depth + 1)).run p (.str s) (.int i) env σ =
        behave (machine host rounds depth) b (.str s) (.int i) env σ :=
      run_above _ _ env (led.1.trans untraced) does
    have ends : Tries ((machine host rounds (depth + 1)).run p (.str s) (.int i) env) σ
        (b.Accounts (machine host rounds depth) s env (Blames host rounds s depth) σ i) anyhow :=
      Ends.congr above (behave_accounts blaming candid inside start)
    refine ends.gives.imp ?_
    rintro a τ ⟨⟨led', grounded | ⟨d, expects, rfl, rejects⟩⟩, gave⟩
    · refine ⟨led', grounded.mono ?_⟩
      rintro k d ⟨w, runs, blamed⟩
      exact blamed.below does runs
    · refine ⟨led', Int.natCast_nonneg _, by simp, fun d' member => ?_⟩
      obtain rfl := List.mem_singleton.mp member
      exact ⟨depth, _, i, b, τ, .self, rfl, rfl, does, expects, rejects, gave⟩

/-- A visit that ends in a success with some of the text left. -/
def Visit.StopsShort (m : Machine) (s : String) (v : Visit) (place : Int) : Prop :=
  place < s.toList.length ∧ ∃ value τ, v.Gives m s (.matched place value) τ

/-- A direct call passes on what a run expected, and expects the end where the run stopped short of it. -/
theorem callParser_justified {m : Machine} {env : Value} {reason : Int → String → Prop}
    (ran : Tries (m.run p (.str s) (.int i) env) σ (Justified s σ reason) anyhow) :
    Tries (callParser m p (.str s) env (.int i)) σ
      (Justified s σ fun k d => reason k d ∨ d = "EOF" ∧ Visit.StopsShort m s ⟨p, i, env, σ⟩ k) anyhow := by
  unfold callParser
  refine Tries.bind ran.gives ?_
  rintro (⟨j, v⟩ | ⟨k, expected⟩) τ ⟨⟨led, grounded⟩, gave⟩
  · simp only [resultOf_matched, truthy_bool, lengthOf_str, lessThan_int, pure_bind, if_true,
      decide_eq_true_eq]
    split
    · next short =>
      have merged : mergeOver (.failure (.int j) (.str "EOF")) (matched j v).value =
          pure (missed j ["EOF"]).value := passive_matched j v j ["EOF"] grounded.1
      rw [merged]
      refine tries_pure ⟨led, grounded.1, by simp, fun d member => ?_⟩
      exact .inr ⟨List.mem_singleton.mp member, short, v, τ, gave⟩
    · exact tries_pure (a := matched j v) ⟨led, grounded⟩
  · simp only [resultOf_missed, truthy_bool, pure_bind, Bool.false_eq_true, if_false]
    exact tries_pure (a := missed k expected) ⟨led, grounded.mono fun _ _ => .inl⟩

/-- A result that is a success, or a failure that says what was expected, with a reason for all of it. -/
def Explained (reason : Int → String → Prop) (r : Value) : Prop :=
  (∃ (stop : Int) (v : Value), r = .success (.int stop) v) ∨
    ∃ (place : Int) (expected : List String),
      r = .result (.bool false) (.int place) (.list (expected.map .str)) ∧ expected ≠ [] ∧
        ∀ d ∈ expected, reason place d

/-- A failure whose reasons are known is explained. -/
theorem explained_of_tries {x : Eval Value} {reason : Int → String → Prop}
    (tries : Tries x σ (Justified s σ reason) anyhow) {r : Value} {τ : Store} (ended : x σ = .ok r τ) :
    Explained reason r := by
  obtain ⟨a, rfl, _, grounded⟩ := Ends.ok tries ended
  cases a with
  | matched stop v => exact .inl ⟨stop, v, rfl⟩
  | missed place expected => exact .inr ⟨place, expected, rfl, grounded.2⟩

/-- Whatever a failure says was expected at its place was expected by a leaf that was run there in the course
of the parse and failed there, as the text does not match it.  A direct call says besides that the end of the
text was expected, where the parser succeeded and stopped short of it. -/
theorem runs_explained (apply : Machine → Value → List Value → Eval Value)
    (untraced : σ.tracers = [])
    (tame : Tame ⟨apply, Value.share⟩ functions choosers (Behaviour.Candid functions choosers) σ)
    (known : Among (Behaviour.Candid functions choosers) σ p) (s : String) {i : Nat}
    (start : i ≤ s.toList.length) (env : Value) (rounds depth : Nat) :
    (∀ r τ, (machine ⟨apply, Value.share⟩ rounds depth).run p (.str s) (.int i) env σ = .ok r τ →
      Explained (Blames ⟨apply, Value.share⟩ rounds s depth ⟨p, i, env, σ⟩) r) ∧
    ∀ r τ, callParser (machine ⟨apply, Value.share⟩ rounds depth) p (.str s) env (.int i) σ = .ok r τ →
      Explained (fun k d => Blames ⟨apply, Value.share⟩ rounds s depth ⟨p, i, env, σ⟩ k d ∨
        d = "EOF" ∧ Visit.StopsShort (machine ⟨apply, Value.share⟩ rounds depth) s ⟨p, i, env, σ⟩ k) r := by
  have ran := run_justified tame rfl untraced rounds depth env (Course.kept.refl σ) known start
  exact ⟨fun r τ => explained_of_tries ran, fun r τ => explained_of_tries (callParser_justified ran)⟩

end Runs

private def pick : Value := .closure ["env"] (.plain .null) [] (.named "pick") 0

private def picking : Machine → Value → List Value → Eval Value := fun _ _ _ => return .parser 5

/-- Parser 5 is a letter, parser 6 looks it up, and parser 7 is the letter twice. -/
private def letterTwice : Store :=
  { Store.initial with
    parsers := Store.initial.parsers ++ #[⟨.object 5 (.behaviour (.string "a")), .str "string('a')"⟩,
      ⟨.object 6 (.behaviour (.deferredLookup pick "pick")), .str "deferred_lookup(pick)"⟩,
      ⟨.object 7 (.behaviour (.sequence [5, 6])), .str "sequence(*2)"⟩]
    nextObject := 8 }

/-- A letter that is asked for twice, under a function that returns a parser. -/
theorem runs_explained_letterTwice :
    ((machine ⟨picking, Value.share⟩ 9 9).run 7 (.str "ab") (.int (0 : Nat)) .none letterTwice =
        .ok (.failure (.int 1) (.str "'a'")) letterTwice ∧
      Explained (Blames ⟨picking, Value.share⟩ 9 "ab" 9 ⟨7, (0 : Nat), .none, letterTwice⟩)
        (.failure (.int 1) (.str "'a'"))) ∧
    callParser (machine ⟨picking, Value.share⟩ 9 9) 7 (.str "aab") .none (.int (0 : Nat)) letterTwice =
        .ok (.failure (.int 2) (.str "EOF")) letterTwice ∧
      Explained (fun k d => Blames ⟨picking, Value.share⟩ 9 "aab" 9 ⟨7, (0 : Nat), .none, letterTwice⟩ k d ∨
          d = "EOF" ∧ Visit.StopsShort (machine ⟨picking, Value.share⟩ 9 9) "aab"
            ⟨7, (0 : Nat), .none, letterTwice⟩ k)
        (.failure (.int 2) (.str "EOF")) := by
  have closed : ∀ p, p = 5 ∨ p = 6 ∨ p = 7 → ∃ b, letterTwice.behaviour? p = some b ∧
      b.Candid (fun _ => False) (· = pick) fun p => p = 5 ∨ p = 6 ∨ p = 7 := by
    rintro p (rfl | rfl | rfl)
    · exact ⟨_, rfl, trivial⟩
    · exact ⟨_, rfl, rfl⟩
    · exact ⟨_, rfl, by simp [Behaviour.Candid]⟩
  have tame : Tame ⟨picking, Value.share⟩ (fun _ => False) (· = pick)
      (Behaviour.Candid (fun _ => False) (· = pick)) letterTwice := by
    refine tame_returning ?_ ⟨_, .inl rfl, closed⟩
    rintro f (impossible | rfl)
    · exact impossible.elim
    · trivial
  have known : Among (Behaviour.Candid (fun _ => False) (· = pick)) letterTwice 7 :=
    ⟨_, .inr (.inr rfl), closed⟩
  have run := (runs_explained picking rfl tame known "ab" (Nat.zero_le _) .none 9 9).1
  have call := (runs_explained picking rfl tame known "aab" (Nat.zero_le _) .none 9 9).2
  exact ⟨⟨rfl, run _ letterTwice rfl⟩, rfl, call _ letterTwice rfl⟩

end Rebind
