import Rebind.Proofs.PegRuns
import Rebind.Proofs.Soundness
/-!
# Well-founded grammars end

A grammar may be cyclic, and a repetition may be without end, so a run need not end.  It does if parsers can
be ranked such that whoever may run another one at its own start has the higher rank, and if the items of
endless repetitions cannot match nothing: then what is left of the text goes down, or it stays and the rank
goes down.

Which parsers may match nothing is said by a set that is closed under rules, one for each kind of behaviour.
That those outside the set move on is part of what is shown, in one induction with the end of the runs.
-/
namespace Rebind

open Attempt

/-! ### Evaluations that return -/

/-- With enough room an evaluation returns, and what it returns and leaves behind does not depend on the
room. -/
def Lands (host : Host) {α : Type} (x : Machine → Eval α) (τ : Store) (P : α → Store → Prop) : Prop :=
  ∃ a υ, P a υ ∧ Soon host fun m => x m τ = .ok a υ

/-- An evaluation that returns the result of an attempt in this way. -/
def Arrives (host : Host) (x : Machine → Eval Value) (τ : Store) (P : Attempt → Store → Prop) : Prop :=
  ∃ a υ, P a υ ∧ Soon host fun m => x m τ = .ok a.value υ

/-- No way to give up. -/
def noFault : Fault → Store → Prop := fun _ _ => False

section Arrives

variable {host : Host} {τ υ : Store}

/-- What is known of the end may be weakened. -/
theorem Arrives.imp {x : Machine → Eval Value} {P Q : Attempt → Store → Prop} (h : Arrives host x τ P)
    (more : ∀ a υ, P a υ → Q a υ) : Arrives host x τ Q := by
  obtain ⟨a, υ, holds, soon⟩ := h
  exact ⟨a, υ, more a υ holds, soon⟩

/-- What returns on every machine arrives. -/
theorem arrives_of_eq {x : Machine → Eval Value} {P : Attempt → Store → Prop} {a : Attempt}
    (same : ∀ m, x m τ = .ok a.value τ) (holds : P a τ) : Arrives host x τ P :=
  ⟨a, τ, holds, soon_of_forall same⟩

theorem tries_of_eq {x : Eval Value} {a : Attempt} {post : Attempt → Store → Prop}
    (same : x τ = .ok a.value υ) (holds : post a υ) : Tries x τ post noFault :=
  Ends.of_eq_ok same ⟨a, rfl, holds⟩

theorem ends_of_eq {α : Type} {x : Eval α} {a : α} {P : α → Store → Prop} (same : x τ = .ok a υ)
    (holds : P a υ) : Ends x τ P noFault := Ends.of_eq_ok same holds

/-- Where one end only is possible, the evaluation has it. -/
theorem eq_of_ends {α : Type} {x : Eval α} {a : α}
    (h : Ends x τ (fun b ω => b = a ∧ ω = υ) noFault) : x τ = .ok a υ := by
  cases ended : x τ with
  | ok b ω =>
    obtain ⟨rfl, rfl⟩ := h.ok ended
    rfl
  | error e ω => exact (h.error ended).elim

theorem eq_of_tries {x : Eval Value} {a : Attempt}
    (h : Tries x τ (fun b ω => b = a ∧ ω = υ) noFault) : x τ = .ok a.value υ := by
  refine eq_of_ends (Ends.imp h ?_)
  rintro v ω ⟨b, rfl, rfl, rfl⟩
  exact ⟨rfl, rfl⟩

end Arrives

/-! ### Grammars -/

/-- A behaviour for texts, whose parts are given with it, and that reports to no handler. -/
def Behaviour.IsStatic : Behaviour Value → Prop
  | .chain _ _ | .deferredLookup _ _ | .debug _ _ => False
  | .regex r _ => r.isBytes = false
  | _ => True

/-- A behaviour that may match nothing, given the parsers that may. -/
def Behaviour.MayBeEmpty (nullable : ParserId → Prop) : Behaviour Value → Prop
  | .rest | .eof | .index | .lineColumnIndex | .succeed _ => True
  | .string literal => literal.toList = []
  | .regex r _ => ∃ text found, Regex.matchStart? r text = some found ∧ found.length = 0
  | .sequence ps => ∀ p ∈ ps, nullable p
  | .alternative ps => ∃ p ∈ ps, nullable p
  | .repetition p least _ => least.rounds = some 0 ∨ nullable p
  | .exclude allowed _ => nullable allowed
  | .transform p _ | .describe p _ | .mark p | .subEnvironment p _ => nullable p
  | _ => False

/-- A behaviour may run a parser at its own start. -/
def Behaviour.Starts (nullable : ParserId → Prop) : Behaviour Value → ParserId → Prop
  | .sequence ps, q => ∃ before after, ps = before ++ q :: after ∧ ∀ p ∈ before, nullable p
  | .alternative ps, q => q ∈ ps
  | .exclude allowed forbidden, q => q = allowed ∨ q = forbidden
  | .repetition p _ _, q | .transform p _, q | .describe p _, q | .mark p, q | .subEnvironment p _, q => q = p
  | _, _ => False

/-- What a well made behaviour may run at its own start is among its parsers. -/
theorem Behaviour.WellMade.starts {σ : Store} {functions : Value → Prop} {parsers nullable : ParserId → Prop}
    {b : Behaviour Value} {q : ParserId} (made : b.WellMade σ functions parsers)
    (h : b.Starts nullable q) : parsers q := by
  cases b with
  | sequence ps =>
    obtain ⟨before, after, rfl, _⟩ := h
    exact made q (by simp)
  | alternative ps => exact made.2 q h
  | exclude allowed forbidden =>
    rcases h with rfl | rfl
    · exact made.1
    · exact made.2
  | repetition p _ _ | describe p _ =>
    obtain rfl : q = p := h
    exact made
  | transform p _ | mark p | subEnvironment p _ =>
    obtain rfl : q = p := h
    exact made.1
  | _ => exact h.elim

/-- A repetition without end in one of its counts. -/
def Behaviour.Endless (item : ParserId) : Behaviour Value → Prop
  | .repetition p least most => p = item ∧ (least.rounds = none ∨ most.rounds = none)
  | _ => False

/-- Parsers that refer to each other in such a way that no run of them goes on without end. -/
structure WellFoundedGrammar (σ : Store) (functions : Value → Prop) (parsers nullable : ParserId → Prop)
    (rank : ParserId → Nat) : Prop where
  untraced : σ.tracers = []
  made : ∀ p, parsers p → ∃ b, σ.behaviour? p = some b ∧ b.WellMade σ functions parsers ∧ b.IsStatic
  empties : ∀ p b, parsers p → σ.behaviour? p = some b → b.MayBeEmpty nullable → nullable p
  descends : ∀ p b q, parsers p → σ.behaviour? p = some b → b.Starts nullable q → rank q < rank p
  moves : ∀ p b item, parsers p → σ.behaviour? p = some b → b.Endless item → ¬ nullable item

/-- Functions that return, and leave parsers and tracers alone. -/
def Total (host : Host) (functions : Value → Prop) (σ : Store) : Prop :=
  ∀ f, functions f → ∀ arguments τ, Course.kept.leads σ τ →
    Lands host (fun m => m.call f arguments) τ fun _ υ => Course.kept.leads τ υ

/-- What an attempt that was made of something from a place on is known to be. -/
structure MovesOn (nullable : Prop) (length i : Nat) (τ : Store) (a : Attempt) (υ : Store) : Prop where
  kept : Course.kept.leads τ υ
  within : a.Within length i
  moves : ∀ stop v, a = .matched stop v → nullable ∨ (i : Int) < stop

namespace MovesOn

variable {nullable nullable' : Prop} {length i j k : Nat} {τ υ ω : Store} {v : Value} {stop : Int}

/-- A success that moves on ends later, unless the parser may be empty. -/
theorem matched_within (h : MovesOn nullable length i τ (.matched stop v) υ) :
    ∃ k : Nat, stop = k ∧ i ≤ k ∧ k ≤ length ∧ (nullable ∨ i < k) := by
  obtain ⟨low, high⟩ := h.within
  have nonneg : 0 ≤ stop := by omega
  obtain ⟨k, rfl⟩ := Int.eq_ofNat_of_zero_le nonneg
  have moves : nullable ∨ i < k := (h.moves k v rfl).imp_right fun further => by omega
  exact ⟨k, rfl, by omega, by omega, moves⟩

theorem missed (kept : Course.kept.leads τ υ) {place : Int} {expected : List String}
    (within : (Attempt.missed place expected).Within length i) :
    MovesOn nullable length i τ (.missed place expected) υ :=
  ⟨kept, within, fun _ _ same => nomatch same⟩

theorem matched (kept : Course.kept.leads τ υ) (from' : i ≤ k) (upTo : k ≤ length)
    (moves : nullable ∨ i < k) : MovesOn nullable length i τ (.matched k v) υ := by
  refine ⟨kept, ⟨by omega, by omega⟩, ?_⟩
  rintro stop w same
  obtain ⟨rfl, _⟩ := Attempt.matched.inj same
  exact moves.imp_right fun further => by omega

theorem imp {a : Attempt} (h : MovesOn nullable length i τ a υ) (more : nullable → nullable') :
    MovesOn nullable' length i τ a υ :=
  ⟨h.kept, h.within, fun stop v same => (h.moves stop v same).imp_left more⟩

/-- An attempt after one that ended where it starts. -/
theorem after {a : Attempt} {all : Prop} (rest : MovesOn nullable' length k υ a ω)
    (kept : Course.kept.leads τ υ) (from' : i ≤ k) (moved : nullable ∨ i < k)
    (both : nullable → nullable' → all) : MovesOn all length i τ a ω := by
  refine ⟨Course.kept.trans kept rest.kept, ?_, ?_⟩
  · have within := rest.within
    cases a with
    | matched stop v => exact ⟨by have := within.1; omega, within.2⟩
    | missed place expected => exact ⟨by have := within.1; omega, within.2⟩
  · rintro stop v rfl
    obtain ⟨j, rfl, onward, _, moved'⟩ := rest.matched_within
    by_cases stays : i < j
    · exact .inr (by omega)
    · have first : nullable := moved.resolve_right (by omega)
      have second : nullable' := moved'.resolve_right (by omega)
      exact .inl (both first second)

end MovesOn

section Runs

variable (host : Host) (σ : Store) (s : String) (nullable : ParserId → Prop)

/-- Runs of a parser at a place end, in any environment and whatever else has been run before. -/
def Goes (p : ParserId) (i : Nat) : Prop :=
  ∀ τ env, Course.kept.leads σ τ → Arrives host (fun m => m.run p (.str s) (.int i) env) τ fun a υ =>
    MovesOn (nullable p) s.toList.length i τ a υ ∧ Fits σ p a

/-- The parsers of a list go as far as they may be run one after the other from a place on. -/
structure EachGoes (ps : List ParserId) (i : Nat) : Prop where
  further : ∀ p ∈ ps, ∀ k, i < k → k ≤ s.toList.length → Goes host σ s nullable p k
  here : ∀ before p after, ps = before ++ p :: after → (∀ q ∈ before, nullable q) →
    Goes host σ s nullable p i

end Runs

section Steps

variable {host : Host} {σ τ : Store} {s : String} {nullable : ParserId → Prop} {env : Value} {i : Nat}
  {functions : Value → Prop}

/-- After a part that moved on, or may be empty, the others go from there. -/
theorem EachGoes.tail {p : ParserId} {ps : List ParserId} (h : EachGoes host σ s nullable (p :: ps) i)
    {k : Nat} (from' : i ≤ k) (inside : k ≤ s.toList.length) (moved : nullable p ∨ i < k) :
    EachGoes host σ s nullable ps k := by
  refine ⟨fun q member j after => h.further q (by simp [member]) j (by omega), ?_⟩
  intro before q after same empty
  by_cases stays : k = i
  · subst stays
    have none : nullable p := moved.resolve_right (Nat.lt_irrefl k)
    refine h.here (p :: before) q after (by simp [same]) ?_
    simpa [none] using empty
  · have member : q ∈ p :: ps := by simp [same]
    exact h.further q member k (by omega) inside

/-- By induction on the parts. -/
theorem arrives_sequenceFrom (ps : List ParserId) (goes : EachGoes host σ s nullable ps i)
    {previous : Value} (passive : Passive previous) (values : List Value) (start : i ≤ s.toList.length)
    (led : Course.kept.leads σ τ) :
    Arrives host (fun m => Behave.sequenceFrom m (.str s) env ps previous values (.int i)) τ fun a υ =>
      MovesOn (∀ p ∈ ps, nullable p) s.toList.length i τ a υ ∧
        ∀ stop v, a = .matched stop v → ∃ vs, v = .list (values ++ vs) ∧ vs.length = ps.length := by
  induction ps generalizing i previous values τ with
  | nil =>
    refine arrives_of_eq (a := .matched i (.list values)) (fun m => ?_) ⟨?_, ?_⟩
    · exact eq_of_tries (tries_sequence_nil ⟨rfl, rfl⟩)
    · exact .matched (Course.kept.refl τ) (Nat.le_refl i) start (.inl (by simp))
    · rintro stop v same
      obtain ⟨_, rfl⟩ := Attempt.matched.inj same
      exact ⟨[], by simp, rfl⟩
  | cons p ps ih =>
    obtain ⟨a, υ, ⟨first, _⟩, soon⟩ := goes.here [] p ps rfl (by simp) τ env led
    cases a with
    | missed place expected =>
      refine ⟨.missed place expected, υ, ⟨.missed first.kept first.within, by simp⟩, soon.mono fun m ran => ?_⟩
      have inside : 0 ≤ place := by have := first.within.1; omega
      exact eq_of_tries (tries_sequence_cons passive (tries_of_eq ran ⟨inside, rfl, rfl⟩))
    | matched stop v =>
      obtain ⟨k, rfl, from', upTo, moved⟩ := first.matched_within
      obtain ⟨b, ω, ⟨rest, collected⟩, soon'⟩ := ih (goes.tail from' upTo moved) (passive_matched k v)
        (values ++ [v]) upTo (Course.kept.trans led first.kept)
      refine ⟨b, ω, ⟨?_, ?_⟩, (soon.and soon').mono ?_⟩
      · exact rest.after first.kept from' moved fun none others => by simpa [none] using others
      · rintro stop w same
        obtain ⟨vs, rfl, length⟩ := collected stop w same
        exact ⟨v :: vs, by simp, by simp [length]⟩
      · rintro m ⟨ran, went⟩
        exact eq_of_tries (tries_sequence_cons passive (tries_of_eq ran (tries_of_eq went ⟨rfl, rfl⟩)))

/-- By induction on the choices. -/
theorem arrives_alternativeFrom (ps : List ParserId) (goes : ∀ p ∈ ps, Goes host σ s nullable p i)
    (earlier : Option (Int × List String)) (before : Earlier s.toList.length i earlier)
    (given : ps = [] → earlier.isSome) (led : Course.kept.leads σ τ) :
    Arrives host (fun m => Behave.alternativeFrom m (.str s) (.int i) env ps (failureValue earlier)) τ
      (MovesOn (∃ p ∈ ps, nullable p) s.toList.length i τ) := by
  induction ps generalizing earlier τ with
  | nil =>
    cases earlier with
    | none => exact absurd (given rfl) (by simp)
    | some failure =>
      obtain ⟨place, expected⟩ := failure
      refine arrives_of_eq (a := .missed place expected) (fun m => ?_) ?_
      · exact eq_of_tries (tries_alternative_nil ⟨rfl, rfl⟩)
      · exact .missed (Course.kept.refl τ) before
  | cons p ps ih =>
    obtain ⟨a, υ, ⟨first, _⟩, soon⟩ := goes p (by simp) τ env led
    cases a with
    | matched stop v =>
      refine ⟨.matched stop v, υ, first.imp fun none => ⟨p, by simp, none⟩, soon.mono fun m ran => ?_⟩
      exact eq_of_tries (tries_alternative_cons (tries_of_eq ran ⟨rfl, rfl⟩))
    | missed place expected =>
      obtain ⟨b, ω, rest, soon'⟩ := ih (fun q member => goes q (by simp [member])) _
        (before.after first.within) (fun _ => rfl) (Course.kept.trans led first.kept)
      refine ⟨b, ω, ?_, (soon.and soon').mono ?_⟩
      · have onward : MovesOn _ s.toList.length i τ b ω :=
          rest.after first.kept (Nat.le_refl i) (.inl trivial) fun _ others => others
        refine onward.imp ?_
        rintro ⟨q, member, none⟩
        exact ⟨q, by simp [member], none⟩
      · rintro m ⟨ran, went⟩
        exact eq_of_tries (tries_alternative_cons (tries_of_eq ran (tries_of_eq went ⟨rfl, rfl⟩)))

/-- Where the rounds that have to succeed have led: a failure within the text, or on from the start. -/
def Behave.Progress.MovesOn (limit : Option Nat) (nullable : Prop) (length i : Nat) :
    Behave.Progress → Prop
  | .failed r => ∃ place expected, r = (missed place expected).value ∧
    (missed place expected).Within length i
  | .reached index _ => limit ≠ none ∧ ∃ k : Nat, index = .int k ∧ i ≤ k ∧ k ≤ length ∧
    ((limit = some 0 ∨ nullable) ∨ i < k)

/-- Where there is no limit, what is left of the text goes down with the rounds. -/
theorem left_pred {limit : Option Nat} {empty : Prop} {length count k : Nat}
    (endless : limit = none → ¬ empty ∧ length - i < count + 1) (moved : empty ∨ i < k) (inside : k ≤ length)
    (none : limit.map (· - 1) = none) : ¬ empty ∧ length - k < count := by
  obtain ⟨moves, left⟩ := endless (Option.map_eq_none_iff.mp none)
  have further := moved.resolve_left moves
  exact ⟨moves, by omega⟩

/-- Rounds of an item that goes from wherever they lead.  Without a limit they end because each moves on. -/
theorem arrives_requiredRounds (env : Value) {item : ParserId} (count : Nat) (limit : Option Nat)
    (goes : ∀ k, i ≤ k → k ≤ s.toList.length → Goes host σ s nullable item k)
    (bounded : ∀ n, limit = some n → count = n)
    (endless : limit = none → ¬ nullable item ∧ s.toList.length - i < count)
    {previous : Value} (passive : Passive previous) (values : List Value) (start : i ≤ s.toList.length)
    (led : Course.kept.leads σ τ) :
    ∃ progress υ, Course.kept.leads τ υ ∧ progress.MovesOn limit (nullable item) s.toList.length i ∧
      Soon host fun m => ∀ fuel, (∀ n, limit = some n → fuel = n) → (limit = none → count ≤ fuel) →
        Behave.requiredRounds m item (.str s) env fuel previous values (.int i) τ = .ok progress υ := by
  induction count generalizing i limit previous values τ with
  | zero =>
    cases limit with
    | none => exact absurd (endless rfl).2 (Nat.not_lt_zero _)
    | some n =>
      obtain rfl := bounded n rfl
      refine ⟨.reached (.int i) values, τ, Course.kept.refl τ, ?_, soon_of_forall fun m fuel fits _ => ?_⟩
      · exact ⟨by simp, i, rfl, Nat.le_refl i, start, .inl (.inl rfl)⟩
      · obtain rfl := fits 0 rfl
        rfl
  | succ count ih =>
    have asked : limit ≠ some 0 := fun none => absurd (bounded 0 none) (by omega)
    obtain ⟨a, υ, ⟨round, _⟩, soon⟩ := goes i (Nat.le_refl i) start τ env led
    cases a with
    | missed place expected =>
      have inside : 0 ≤ place := by have := round.within.1; omega
      refine ⟨.failed (missed place expected).value, υ, round.kept, ⟨place, expected, rfl, round.within⟩, ?_⟩
      refine soon.mono fun m ran fuel fits enough => ?_
      obtain ⟨fuel, rfl⟩ := fuel_succ asked fits enough
      exact eq_of_ends (ends_requiredRounds_succ passive (tries_of_eq ran ⟨inside, rfl, rfl⟩))
    | matched stop v =>
      obtain ⟨k, rfl, from', upTo, moved⟩ := round.matched_within
      have endless' := left_pred endless moved upTo
      obtain ⟨progress, ω, kept, reaches, soon'⟩ := ih (limit.map (· - 1))
        (fun j after => goes j (by omega)) (fuel_pred bounded) endless' (passive_matched k v) (values ++ [v])
        upTo (Course.kept.trans led round.kept)
      refine ⟨progress, ω, Course.kept.trans round.kept kept, ?_, (soon.and soon').mono ?_⟩
      · cases progress with
        | failed r =>
          obtain ⟨place, expected, rfl, low, high⟩ := reaches
          exact ⟨place, expected, rfl, by omega, high⟩
        | reached index us =>
          obtain ⟨limited, j, rfl, onward, inside, moved'⟩ := reaches
          refine ⟨fun none => limited (by simp [none]), j, rfl, by omega, inside, ?_⟩
          exact moved.imp .inr fun further => by omega
      · rintro m ⟨ran, went⟩ fuel fits enough
        obtain ⟨fuel, rfl⟩ := fuel_succ asked fits enough
        have rest := went fuel (fuel_pred fits) fun none => Nat.le_of_succ_le_succ
          (enough (Option.map_eq_none_iff.mp none))
        exact eq_of_ends (ends_requiredRounds_succ passive (tries_of_eq ran (ends_of_eq rest ⟨rfl, rfl⟩)))

/-- Every round moves on, so the text is used up in the end: by induction on what is left of it. -/
theorem arrives_optionalRounds (env : Value) {item : ParserId} (count : Nat) (limit : Option Nat)
    (goes : ∀ k, i ≤ k → k ≤ s.toList.length → Goes host σ s nullable item k)
    (bounded : ∀ n, limit = some n → count = n)
    (endless : limit = none → ¬ nullable item ∧ s.toList.length - i < count)
    (values : List Value) (start : i ≤ s.toList.length) (led : Course.kept.leads σ τ) :
    ∃ stopped us υ, ∃ k : Nat, Course.kept.leads τ υ ∧ i ≤ k ∧ k ≤ s.toList.length ∧
      (limit = none → stopped = true) ∧ Soon host fun m => ∀ fuel, (∀ n, limit = some n → fuel = n) →
        (limit = none → count ≤ fuel) →
        Behave.optionalRounds m item (.str s) env fuel values (.int i) τ = .ok (stopped, .int k, us) υ := by
  induction count generalizing i limit values τ with
  | zero =>
    cases limit with
    | none => exact absurd (endless rfl).2 (Nat.not_lt_zero _)
    | some n =>
      obtain rfl := bounded n rfl
      refine ⟨false, values, τ, i, Course.kept.refl τ, Nat.le_refl i, start, by simp, ?_⟩
      refine soon_of_forall fun m fuel fits _ => ?_
      obtain rfl := fits 0 rfl
      rfl
  | succ count ih =>
    have allowed : limit ≠ some 0 := fun none => absurd (bounded 0 none) (by omega)
    obtain ⟨a, υ, ⟨round, _⟩, soon⟩ := goes i (Nat.le_refl i) start τ env led
    cases a with
    | missed place expected =>
      refine ⟨true, values, υ, i, round.kept, Nat.le_refl i, start, fun _ => rfl, ?_⟩
      refine soon.mono fun m ran fuel fits enough => ?_
      obtain ⟨fuel, rfl⟩ := fuel_succ allowed fits enough
      exact eq_of_ends (ends_optionalRounds_succ (tries_of_eq ran ⟨rfl, rfl⟩))
    | matched stop v =>
      obtain ⟨k, rfl, from', upTo, moved⟩ := round.matched_within
      have endless' := left_pred endless moved upTo
      obtain ⟨stopped, us, ω, j, kept, onward, inside, ends, soon'⟩ := ih (limit.map (· - 1))
        (fun j after => goes j (by omega)) (fuel_pred bounded) endless' (values ++ [v]) upTo
        (Course.kept.trans led round.kept)
      refine ⟨stopped, us, ω, j, Course.kept.trans round.kept kept, by omega, inside, ?_, ?_⟩
      · exact fun none => ends (by simp [none])
      · refine (soon.and soon').mono ?_
        rintro m ⟨ran, went⟩ fuel fits enough
        obtain ⟨fuel, rfl⟩ := fuel_succ allowed fits enough
        have rest := went fuel (fuel_pred fits) fun none => Nat.le_of_succ_le_succ
          (enough (Option.map_eq_none_iff.mp none))
        exact eq_of_ends (ends_optionalRounds_succ (tries_of_eq ran (ends_of_eq rest ⟨rfl, rfl⟩)))

/-- A repetition without end in its counts needs a parser that moves on. -/
theorem arrives_repetition {item : ParserId} (least most : Count)
    (goes : ∀ k, i ≤ k → k ≤ s.toList.length → Goes host σ s nullable item k)
    (moves : least.rounds = none ∨ most.rounds = none → ¬ nullable item) (start : i ≤ s.toList.length)
    (led : Course.kept.leads σ τ) :
    Arrives host (fun m => Behave.repetition m item least most (.str s) (.int i) env) τ
      (MovesOn (least.rounds = some 0 ∨ nullable item) s.toList.length i τ) := by
  have fits : ∀ (limit : Option Nat) (others n : Nat), limit = some n → limit.getD others = n := by
    rintro limit others n rfl
    rfl
  have enough : ∀ (limit : Option Nat) (k : Nat) (m : Machine), k ≤ m.rounds → limit = none →
      limit.getD k ≤ limit.getD m.rounds := by
    rintro limit k m room rfl
    exact room
  -- The required rounds, then the further ones up to the limit.
  obtain ⟨progress, υ, kept, reaches, required⟩ := arrives_requiredRounds env
    (least.rounds.getD (s.toList.length - i + 1)) least.rounds goes (fits _ _)
    (fun none => ⟨moves (.inl none), by simp [none]⟩) passive_none [] start led
  have room : Soon host fun m => s.toList.length - i + 1 ≤ m.rounds := soon_rounds _
  cases progress with
  | failed r =>
    obtain ⟨place, expected, rfl, within⟩ := reaches
    refine ⟨.missed place expected, υ, .missed kept within, (required.and room).mono ?_⟩
    rintro m ⟨ran, room⟩
    have rounds := ran (least.rounds.getD m.rounds) (fits _ _) (enough _ _ m room)
    refine eq_of_tries ?_
    unfold Behave.repetition
    rw [roundsBeyond_zero]
    exact Ends.bind_ok rounds (tries_pure ⟨rfl, rfl⟩)
  | reached index us =>
    obtain ⟨limited, k, rfl, from', upTo, moved⟩ := reaches
    obtain ⟨n, bounded⟩ := Option.ne_none_iff_exists'.mp limited
    have goes' : ∀ j, k ≤ j → j ≤ s.toList.length → Goes host σ s nullable item j :=
      fun j after => goes j (by omega)
    have endless : most.rounds.map (· - n) = none → ¬ nullable item := fun none =>
      moves (.inr (Option.map_eq_none_iff.mp none))
    obtain ⟨stopped, vs, ω, j, kept', onward, inside, ends, optional⟩ := arrives_optionalRounds env
      ((most.rounds.map (· - n)).getD (s.toList.length - i + 1)) (most.rounds.map (· - n)) goes' (fits _ _)
      (fun none => ⟨endless none, by simp only [none, Option.getD_none]; omega⟩) us upTo
      (Course.kept.trans led kept)
    refine ⟨.matched j (.list vs), ω, ?_, ((required.and optional).and room).mono ?_⟩
    · exact .matched (Course.kept.trans kept kept') (by omega) inside (moved.imp_right fun further => by omega)
    · rintro m ⟨⟨ran, went⟩, room⟩
      have first := ran (least.rounds.getD m.rounds) (fits _ _) (enough _ _ m room)
      have second := went ((most.rounds.map (· - n)).getD m.rounds) (fits _ _) (enough _ _ m room)
      refine eq_of_tries ?_
      unfold Behave.repetition
      rw [roundsBeyond_zero]
      refine Ends.bind_ok first ?_
      simp only [bounded, roundsBeyond_nat, Behave.moreRounds]
      refine Ends.bind_ok second ?_
      have settled : ((most.rounds.map (· - n)).isNone && !stopped) = false := by
        cases limit : most.rounds.map (· - n) with
        | none => simp [ends limit]
        | some _ => rfl
      simp only [settled, Bool.false_eq_true, if_false]
      exact tries_pure (a := .matched j (.list vs)) ⟨rfl, rfl⟩

/-- A leaf that is not among those that may be empty moves on. -/
theorem Behaviour.leaf?_moves {b : Behaviour Value} {text : List Char} {stop : Int} {v : Value}
    (h : b.leaf? text i = some (.matched stop v)) :
    b.MayBeEmpty nullable ∨ (i : Int) < stop := by
  cases b with
  | anyChar =>
    replace h := Option.some.inj h
    cases there : text[i]? with
    | some c =>
      rw [there] at h
      cases h
      exact .inr (by omega)
    | none =>
      rw [there] at h
      cases h
  | fail d => cases Option.some.inj h
  | string literal =>
    replace h := Option.some.inj h
    split at h
    · cases h
      by_cases none : literal.toList = []
      · exact .inl none
      · have := List.length_pos_iff.mpr none
        exact .inr (by omega)
    · cases h
  | regex r group =>
    replace h := (Behaviour.leaf?_regex h).2.symm
    cases there : Regex.matchStart? r (text.drop i) with
    | some found =>
      rw [there] at h
      cases h
      by_cases none : found.length = 0
      · exact .inl ⟨_, found, there, none⟩
      · exact .inr (by omega)
    | none =>
      rw [there] at h
      cases h
  | rest | eof | index | lineColumnIndex | succeed => exact .inl trivial
  | _ => cases h

theorem arrives_leaf {b : Behaviour Value} {a : Attempt} (start : i ≤ s.toList.length)
    (h : b.leaf? s.toList i = some a) :
    Arrives host (fun m => behave m b (.str s) (.int i) env) τ
      (MovesOn (b.MayBeEmpty nullable) s.toList.length i τ) := by
  refine arrives_of_eq (a := a) (fun m => congrFun (behave_leaf m env start h) τ) ?_
  refine ⟨Course.kept.refl τ, Behaviour.leaf?_within h start, ?_⟩
  rintro stop v rfl
  exact Behaviour.leaf?_moves h

theorem arrives_testChar (total : Total host functions σ) {f : Value} (known : functions f) (d : String)
    (start : i ≤ s.toList.length) (led : Course.kept.leads σ τ) :
    Arrives host (fun m => Behave.testChar m f d (.str s) (.int i) env) τ
      (MovesOn False s.toList.length i τ) := by
  have missed : ∀ υ, Course.kept.leads τ υ → MovesOn False s.toList.length i τ (.missed i [d]) υ :=
    fun υ kept => .missed kept ⟨Int.le_refl _, by omega, by simp⟩
  cases there : s.toList[i]? with
  | none =>
    refine arrives_of_eq (a := .missed i [d]) (fun m => ?_) (missed τ (Course.kept.refl τ))
    refine eq_of_tries (tries_testChar (fun c there' => ?_) fun _ => ⟨rfl, rfl⟩)
    rw [there] at there'
    cases there'
  | some c =>
    have before := (List.getElem?_eq_some_iff.mp there).1
    obtain ⟨v, υ, kept, soon⟩ := total f known [.ofChar c, env] τ led
    have asked : ∀ m : Machine, m.call f [.ofChar c, env] τ = .ok v υ → ∀ a,
        (if (υ.view v).isTruthy then matched (i + 1) (.ofChar c) else .missed i [d]) = a →
        Behave.testChar m f d (.str s) (.int i) env τ = .ok a.value υ := by
      intro m called a same
      refine eq_of_tries (tries_testChar (fun c' there' => ?_) fun past => ?_)
      · obtain rfl := Option.some.inj (there.symm.trans there')
        exact ends_of_eq called ⟨same, rfl⟩
      · rw [there] at past
        cases past
    refine ⟨_, υ, ?_, soon.mono fun m called => asked m called _ rfl⟩
    split
    · exact .matched (k := i + 1) kept (by omega) (by omega) (.inr (by omega))
    · exact missed υ kept

theorem arrives_exclude {allowed forbidden : ParserId} (goes : Goes host σ s nullable allowed i)
    (goes' : Goes host σ s nullable forbidden i) (start : i ≤ s.toList.length)
    (led : Course.kept.leads σ τ) :
    Arrives host (fun m => Behave.exclude m allowed forbidden (.str s) (.int i) env) τ
      (MovesOn (nullable allowed) s.toList.length i τ) := by
  obtain ⟨f, υ, ⟨first, _⟩, soon⟩ := goes' τ env led
  cases f with
  | matched stop v =>
    refine ⟨.missed i ["something that is not '" ++ (υ.snapshot v).text ++ "'"], υ, ?_, ?_⟩
    · exact .missed first.kept ⟨Int.le_refl _, by omega, by simp⟩
    · exact soon.mono fun m ran => eq_of_tries (tries_exclude (tries_of_eq ran ⟨rfl, rfl⟩))
  | missed place unwanted =>
    obtain ⟨a, ω, ⟨second, _⟩, soon'⟩ := goes υ env (Course.kept.trans led first.kept)
    have said := first.within.2.2
    cases a with
    | matched stop v =>
      refine ⟨.matched stop v, ω, ?_, (soon.and soon').mono ?_⟩
      · exact second.after first.kept (Nat.le_refl i) (.inl trivial) fun _ empty => empty
      · rintro m ⟨ran, went⟩
        exact eq_of_tries (tries_exclude (tries_of_eq ran ⟨said, tries_of_eq went ⟨rfl, rfl⟩⟩))
    | missed place' wanted =>
      have said' := second.within.2.2
      refine ⟨.missed i [expectedWords wanted ++ " (except " ++ expectedWords unwanted ++ ")"], ω, ?_,
        (soon.and soon').mono ?_⟩
      · exact .missed (Course.kept.trans first.kept second.kept) ⟨Int.le_refl _, by omega, by simp⟩
      · rintro m ⟨ran, went⟩
        exact eq_of_tries (tries_exclude (tries_of_eq ran ⟨said, tries_of_eq went ⟨said', rfl, rfl⟩⟩))

theorem arrives_describe {p : ParserId} (goes : Goes host σ s nullable p i) (d : String)
    (led : Course.kept.leads σ τ) :
    Arrives host (fun m => Behave.describe m p d (.str s) (.int i) env) τ
      (MovesOn (nullable p) s.toList.length i τ) := by
  obtain ⟨a, υ, ⟨inner, _⟩, soon⟩ := goes τ env led
  cases a with
  | matched stop v =>
    refine ⟨.matched stop v, υ, inner, soon.mono fun m ran => ?_⟩
    exact eq_of_tries (tries_describe (tries_of_eq ran ⟨rfl, rfl⟩))
  | missed place expected =>
    obtain ⟨low, high, _⟩ := inner.within
    refine ⟨.missed place [d], υ, .missed inner.kept ⟨low, high, by simp⟩, soon.mono fun m ran => ?_⟩
    exact eq_of_tries (tries_describe (tries_of_eq ran ⟨rfl, rfl⟩))

theorem arrives_transform (total : Total host functions σ) (shares : host.share = Value.share)
    {p : ParserId} (goes : Goes host σ s nullable p i) {f : Value} (known : functions f)
    (led : Course.kept.leads σ τ) :
    Arrives host (fun m => Behave.transform m p f (.str s) (.int i) env) τ
      (MovesOn (nullable p) s.toList.length i τ) := by
  obtain ⟨a, υ, ⟨inner, _⟩, soon⟩ := goes τ env led
  have shared : Soon host fun m => m.share = Value.share :=
    ⟨0, fun rounds depth _ _ => (machine_share host rounds depth).trans shares⟩
  cases a with
  | missed place expected =>
    refine ⟨.missed place expected, υ, inner, soon.mono fun m ran => ?_⟩
    exact eq_of_tries (tries_transform (tries_of_eq ran ⟨rfl, rfl⟩))
  | matched stop v =>
    obtain ⟨k, rfl, from', upTo, moved⟩ := inner.matched_within
    have fresh : Course.kept.leads υ { υ with nextObject := (v.identify υ.nextObject).2 } :=
      ⟨rfl, fun _ _ there => there⟩
    obtain ⟨r, ω, kept, soon'⟩ := total f known [(v.identify υ.nextObject).1, env] _
      (Course.kept.trans led (Course.kept.trans inner.kept fresh))
    refine ⟨.matched k r, ω, ?_, ((soon.and soon').and shared).mono ?_⟩
    · exact .matched (Course.kept.trans inner.kept (Course.kept.trans fresh kept)) from' upTo moved
    · rintro m ⟨⟨ran, called⟩, shares⟩
      have given : m.share v υ = .ok (v.identify υ.nextObject).1
          { υ with nextObject := (v.identify υ.nextObject).2 } := by
        rw [shares]
        rfl
      have returned := ends_of_eq (P := fun r' ω' => matched k r' = matched k r ∧ ω' = ω) called ⟨rfl, rfl⟩
      exact eq_of_tries (tries_transform (tries_of_eq ran (ends_of_eq given returned)))

theorem arrives_mark {framed x y z : ParserId} (goes : Goes host σ s nullable framed i)
    (three : σ.behaviour? framed = some (.sequence [x, y, z])) (led : Course.kept.leads σ τ) :
    Arrives host (fun m => Behave.mark m framed (.str s) (.int i) env) τ
      (MovesOn (nullable framed) s.toList.length i τ) := by
  obtain ⟨a, υ, ⟨inner, fits⟩, soon⟩ := goes τ env led
  cases a with
  | missed place expected =>
    refine ⟨.missed place expected, υ, inner, soon.mono fun m ran => ?_⟩
    exact eq_of_tries (tries_mark (tries_of_eq ran ⟨rfl, rfl⟩))
  | matched stop v =>
    obtain ⟨k, rfl, from', upTo, moved⟩ := inner.matched_within
    obtain ⟨vs, rfl, length⟩ := fits _ three _ _ rfl
    match vs, length with
    | [first, value, last], _ =>
      refine ⟨.matched k (.mark first value last), υ, .matched inner.kept from' upTo moved,
        soon.mono fun m ran => ?_⟩
      exact eq_of_tries (tries_mark (tries_of_eq ran ⟨first, value, last, rfl, rfl, rfl⟩))

theorem arrives_subEnvironment (total : Total host functions σ) {p : ParserId}
    (goes : Goes host σ s nullable p i) {f : Value} (known : functions f) (led : Course.kept.leads σ τ) :
    Arrives host (fun m => Behave.subEnvironment m p f (.str s) (.int i) env) τ
      (MovesOn (nullable p) s.toList.length i τ) := by
  obtain ⟨inside, υ, kept, soon⟩ := total f known [env] τ led
  obtain ⟨a, ω, ⟨inner, _⟩, soon'⟩ := goes υ inside (Course.kept.trans led kept)
  refine ⟨a, ω, inner.after kept (Nat.le_refl i) (.inl trivial) fun _ empty => empty, ?_⟩
  refine (soon.and soon').mono ?_
  rintro m ⟨called, ran⟩
  exact (bind_ok called).trans ran

/-- What a behaviour does ends, given that runs of its parts do: further on in the text, and at its own start
where it may run them there. -/
theorem arrives_behave (env : Value) (total : Total host functions σ) (shares : host.share = Value.share)
    {parsers : ParserId → Prop} {b : Behaviour Value} (made : b.WellMade σ functions parsers)
    (static : b.IsStatic) (moves : ∀ item, b.Endless item → ¬ nullable item)
    (further : ∀ p, parsers p → ∀ k, i < k → k ≤ s.toList.length → Goes host σ s nullable p k)
    (here : ∀ p, b.Starts nullable p → Goes host σ s nullable p i) (start : i ≤ s.toList.length)
    (led : Course.kept.leads σ τ) :
    Arrives host (fun m => behave m b (.str s) (.int i) env) τ fun a υ =>
      MovesOn (b.MayBeEmpty nullable) s.toList.length i τ a υ ∧
        ∀ parts, b = .sequence parts → ∀ stop v, a = .matched stop v →
          ∃ vs : List Value, v = .list vs ∧ vs.length = parts.length := by
  have plain : (∀ parts, b ≠ .sequence parts) →
      Arrives host (fun m => behave m b (.str s) (.int i) env) τ
        (MovesOn (b.MayBeEmpty nullable) s.toList.length i τ) →
      Arrives host (fun m => behave m b (.str s) (.int i) env) τ fun a υ =>
        MovesOn (b.MayBeEmpty nullable) s.toList.length i τ a υ ∧
          ∀ parts, b = .sequence parts → ∀ stop v, a = .matched stop v →
            ∃ vs : List Value, v = .list vs ∧ vs.length = parts.length :=
    fun other arrives => arrives.imp fun a υ h => ⟨h, fun parts same => absurd same (other parts)⟩
  cases b with
  | sequence ps =>
    have goes : EachGoes host σ s nullable ps i := by
      refine ⟨fun p member => further p (made p member), fun before p after same empty => ?_⟩
      exact here p ⟨before, after, same, empty⟩
    refine (arrives_sequenceFrom ps goes passive_none [] start led).imp ?_
    rintro a υ ⟨onward, collected⟩
    refine ⟨onward, ?_⟩
    rintro parts same stop v matched
    cases same
    exact collected stop v matched
  | alternative ps =>
    refine plain (fun _ => nofun) ?_
    exact arrives_alternativeFrom ps here none trivial (fun none => absurd none made.1) led
  | repetition item least most =>
    refine plain (fun _ => nofun) (arrives_repetition least most ?_ (fun endless => ?_) start led)
    · intro k from' inside
      by_cases stays : k = i
      · exact stays ▸ here item rfl
      · exact further item made k (by omega) inside
    · exact moves item ⟨rfl, endless⟩
  | testChar f d => exact plain (fun _ => nofun) (arrives_testChar total made d start led)
  | exclude allowed forbidden =>
    exact plain (fun _ => nofun)
      (arrives_exclude (here allowed (.inl rfl)) (here forbidden (.inr rfl)) start led)
  | describe p d => exact plain (fun _ => nofun) (arrives_describe (here p rfl) d led)
  | transform p f => exact plain (fun _ => nofun) (arrives_transform total shares (here p rfl) made.2 led)
  | mark framed =>
    obtain ⟨x, y, z, three⟩ := made.2
    exact plain (fun _ => nofun) (arrives_mark (here framed rfl) three led)
  | subEnvironment p f =>
    exact plain (fun _ => nofun) (arrives_subEnvironment total (here p rfl) made.2 led)
  | chain | deferredLookup | debug => exact static.elim
  | regex r group =>
    have answers := Regex.answers_iff.mpr ⟨static, made⟩
    exact plain (fun _ => nofun) (arrives_leaf start (if_pos answers))
  | anyChar | rest | eof | index | lineColumnIndex | succeed | fail | string =>
    exact plain (fun _ => nofun) (arrives_leaf start rfl)

end Steps

section Grammar

variable {host : Host} {σ : Store} {functions : Value → Prop} {parsers nullable : ParserId → Prop}
  {rank : ParserId → Nat}

/-- A run of one parser ends if runs do further on in the text, and at the same place those of parsers of
lower rank. -/
theorem goes_step (grammar : WellFoundedGrammar σ functions parsers nullable rank)
    (total : Total host functions σ) (shares : host.share = Value.share) {s : String} {p : ParserId} {i : Nat}
    (known : parsers p) (start : i ≤ s.toList.length)
    (further : ∀ q, parsers q → ∀ k, i < k → k ≤ s.toList.length → Goes host σ s nullable q k)
    (below : ∀ q, parsers q → rank q < rank p → Goes host σ s nullable q i) :
    Goes host σ s nullable p i := by
  intro τ env led
  obtain ⟨b, does, made, static⟩ := grammar.made p known
  have here : ∀ q, b.Starts nullable q → Goes host σ s nullable q i :=
    fun q starts => below q (made.starts starts) (grammar.descends p b q known does starts)
  obtain ⟨a, υ, ⟨onward, collected⟩, soon⟩ := arrives_behave env total shares made static
    (fun item => grammar.moves p b item known does) further here start led
  refine ⟨a, υ, ⟨onward.imp (grammar.empties p b known does), ?_⟩, soon.above fun m ran => ?_⟩
  · intro parts does'
    exact collected parts (Option.some.inj (does.symm.trans does'))
  · have untraced := led.1.trans grammar.untraced
    exact (run_above _ _ _ untraced (behaviour?_of_kept led does)).trans ran

/-- Every run of a well-founded grammar ends, by induction on what is left of the text, and where that stays
the same on the rank. -/
theorem goes_of_wellFounded (grammar : WellFoundedGrammar σ functions parsers nullable rank)
    (total : Total host functions σ) (shares : host.share = Value.share) {s : String} (left level : Nat)
    {p : ParserId} {i : Nat} (known : parsers p) (start : i ≤ s.toList.length)
    (remains : s.toList.length - i = left) (ranked : rank p = level) : Goes host σ s nullable p i := by
  induction left using Nat.strongRecOn generalizing level p i with
  | ind left ihLeft =>
    induction level using Nat.strongRecOn generalizing p with
    | ind level ihLevel =>
      refine goes_step grammar total shares known start ?_ ?_
      · intro q inside k after upTo
        exact ihLeft (s.toList.length - k) (by omega) (rank q) inside upTo rfl rfl
      · intro q inside lower
        exact ihLevel (rank q) (by omega) inside rfl

/-- Running a parser of a well-founded grammar, on a text and from a place within it, ends in a result,
whatever the environment: with enough room there is no error and no endless repetition, and the result does
not depend on the room. -/
theorem run_terminates (apply : Machine → Value → List Value → Eval Value)
    (grammar : WellFoundedGrammar σ functions parsers nullable rank)
    (total : Total ⟨apply, Value.share⟩ functions σ) {p : ParserId} (known : parsers p) (s : String) {i : Nat}
    (start : i ≤ s.toList.length) (env : Value) :
    ∃ r τ, IsResult s i r ∧
      Soon ⟨apply, Value.share⟩ fun m => m.run p (.str s) (.int i) env σ = .ok r τ := by
  obtain ⟨a, τ, ⟨onward, _⟩, soon⟩ :=
    goes_of_wellFounded grammar total rfl _ _ known start rfl rfl σ env (Course.kept.refl σ)
  exact ⟨a.value, τ, isResult_of_within onward.within, soon⟩

end Grammar

private def one : Value := .closure ["v", "env"] (.plain .null) [] (.named "one") 0

private def ones : Machine → Value → List Value → Eval Value := fun _ _ _ => return .int 1

/-- Trees in brackets: parser 9 is any number of trees, and parser 10 is a tree, which is either a letter or
trees in brackets. -/
private def trees : Store :=
  { Store.initial with
    parsers := Store.initial.parsers ++ #[
      ⟨.object 5 (.behaviour (.string "(")), .str "string('(')"⟩,
      ⟨.object 6 (.behaviour (.string ")")), .str "string(')')"⟩,
      ⟨.object 7 (.behaviour (.sequence [5, 9, 6])), .str "sequence(*3)"⟩,
      ⟨.object 8 (.behaviour (.transform 11 one)), .str "transform(one)"⟩,
      ⟨.object 9 (.behaviour (.repetition 10 (.times 0) .unlimited)), .str "repetition(0, inf)"⟩,
      ⟨.object 10 (.behaviour (.alternative [7, 8])), .str "alternative(*2)"⟩,
      ⟨.object 11 (.behaviour (.string "x")), .str "string('x')"⟩]
    nextObject := 12 }

/-- Ranks by which each parser of the trees starts with parsers of lower rank only. -/
private def treeRank : ParserId → Nat
  | 9 => 3
  | 10 => 2
  | 7 | 8 => 1
  | _ => 0

/-- Trees in brackets, by a grammar with a cycle. -/
theorem run_terminates_trees : ∃ r τ, IsResult "(x(" 0 r ∧
    Soon ⟨ones, Value.share⟩ fun m => m.run 9 (.str "(x(") (.int (0 : Nat)) .none trees = .ok r τ := by
  have total : Total ⟨ones, Value.share⟩ (· = one) trees := by
    rintro f rfl arguments τ led
    refine ⟨.int 1, τ, Course.kept.refl τ, 1, fun rounds depth _ deep => ?_⟩
    cases depth with
    | zero => omega
    | succ depth => rfl
  have known : ∀ p, p ∈ [5, 6, 7, 8, 9, 10, 11] →
      p = 5 ∨ p = 6 ∨ p = 7 ∨ p = 8 ∨ p = 9 ∨ p = 10 ∨ p = 11 := by simp
  have grammar : WellFoundedGrammar trees (· = one) (· ∈ [5, 6, 7, 8, 9, 10, 11]) (· = 9) treeRank := by
    constructor
    · rfl
    · intro p inside
      rcases known p inside with rfl | rfl | rfl | rfl | rfl | rfl | rfl
      · exact ⟨_, rfl, trivial, trivial⟩
      · exact ⟨_, rfl, trivial, trivial⟩
      · exact ⟨_, rfl, by simp [Behaviour.WellMade], trivial⟩
      · exact ⟨_, rfl, by simp [Behaviour.WellMade], trivial⟩
      · exact ⟨_, rfl, by simp [Behaviour.WellMade], trivial⟩
      · exact ⟨_, rfl, by simp [Behaviour.WellMade], trivial⟩
      · exact ⟨_, rfl, trivial, trivial⟩
    · intro p b inside does empty
      rcases known p inside with rfl | rfl | rfl | rfl | rfl | rfl | rfl <;> cases does
      · simp [Behaviour.MayBeEmpty] at empty
      · simp [Behaviour.MayBeEmpty] at empty
      · simp [Behaviour.MayBeEmpty] at empty
      · simp [Behaviour.MayBeEmpty] at empty
      · rfl
      · simp [Behaviour.MayBeEmpty] at empty
      · simp [Behaviour.MayBeEmpty] at empty
    · intro p b q inside does starts
      rcases known p inside with rfl | rfl | rfl | rfl | rfl | rfl | rfl <;> cases does
      · exact starts.elim
      · exact starts.elim
      · obtain ⟨before, after, same, empty⟩ := starts
        cases before with
        | nil =>
          cases same
          decide
        | cons p before =>
          obtain ⟨first, _⟩ := List.cons.inj same
          have none : p = 9 := empty p (by simp)
          exact absurd (first.trans none) (by decide)
      · cases starts
        decide
      · cases starts
        decide
      · simp only [Behaviour.Starts, List.mem_cons, List.not_mem_nil, or_false] at starts
        rcases starts with rfl | rfl <;> decide
      · exact starts.elim
    · intro p b item inside does endless
      rcases known p inside with rfl | rfl | rfl | rfl | rfl | rfl | rfl <;> cases does
      · exact endless.elim
      · exact endless.elim
      · exact endless.elim
      · exact endless.elim
      · obtain ⟨rfl, _⟩ := endless
        decide
      · exact endless.elim
      · exact endless.elim
  exact run_terminates ones grammar total (by decide) "(x(" (Nat.zero_le _) .none

end Rebind
