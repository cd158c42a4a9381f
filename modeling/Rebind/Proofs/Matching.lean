import Rebind.Proofs.Agreement
import Rebind.Proofs.Steps
/-!
# Behaviours over related parsers

Behaviours of one kind, over parsers that a relation pairs, do the same as soon as the parsers do.  So
parsers that a relation pairs and whose behaviours match over that relation give the same result, each in
a store of its own: the relation is a bisimulation.  Only behaviours that use no function of the user are
considered, which neither change the store nor look at the environment.
-/
namespace Rebind

/-- A behaviour that runs no parser, calls no function and holds no value. -/
def Behaviour.IsPrimitive : Behaviour Value → Prop
  | .anyChar | .rest | .eof | .index | .lineColumnIndex | .fail _ | .string _ | .regex _ _ => True
  | _ => False

/-- Behaviours of one kind over related parsers, with the same values of some kind. -/
inductive Behaviour.Matches (R : ParserId → ParserId → Prop) (kind : Value → Prop) :
    Behaviour Value → Behaviour Value → Prop
  | primitive {b : Behaviour Value} (h : b.IsPrimitive) : Matches R kind b b
  | succeed {v : Value} (h : kind v) : Matches R kind (.succeed v) (.succeed v)
  | sequence {ps qs : List ParserId} (h : List.Forall₂ R ps qs) :
    Matches R kind (.sequence ps) (.sequence qs)
  | alternative {ps qs : List ParserId} (h : List.Forall₂ R ps qs) :
    Matches R kind (.alternative ps) (.alternative qs)
  | repetition {p q : ParserId} {least most : Count} (h : R p q) :
    Matches R kind (.repetition p least most) (.repetition q least most)
  | exclude {p q p' q' : ParserId} (allowed : R p q) (forbidden : R p' q') :
    Matches R kind (.exclude p p') (.exclude q q')
  | describe {p q : ParserId} {d : String} (h : R p q) : Matches R kind (.describe p d) (.describe q d)
  | mark {p q : ParserId} (h : R p q) : Matches R kind (.mark p) (.mark q)

/-- Behaviours match under a wider correspondence. -/
theorem Behaviour.Matches.mono {R R' : ParserId → ParserId → Prop} {kind kind' : Value → Prop}
    {b b' : Behaviour Value} (h : b.Matches R kind b') (more : ∀ p q, R p q → R' p q)
    (wider : ∀ v, kind v → kind' v) : b.Matches R' kind' b' := by
  cases h with
  | primitive h => exact .primitive h
  | succeed h => exact .succeed (wider _ h)
  | sequence h => exact .sequence (h.imp more)
  | alternative h => exact .alternative (h.imp more)
  | repetition h => exact .repetition (more _ _ h)
  | exclude allowed forbidden => exact .exclude (more _ _ allowed) (more _ _ forbidden)
  | describe h => exact .describe (more _ _ h)
  | mark h => exact .mark (more _ _ h)

/-- What two machines have to agree on so that behaviours over related parsers agree: the runs of these
parsers on a text, and how many rounds are tried. -/
structure Machines.Agree (limits : Fault → Prop) (σ σ' : Store) (R : ParserId → ParserId → Prop)
    (text env : Value) (m m' : Machine) : Prop where
  rounds : m'.rounds = m.rounds
  run : ∀ {p q i}, R p q → i.Parserless σ →
    Agrees limits σ σ' (Value.Parserless σ) (m.run p text i env) (m'.run q text i env)

section Loops

variable {limits : Fault → Prop} {σ σ' : Store} {R : ParserId → ParserId → Prop} {text env i : Value}
  {m m' : Machine}

/-- How a result decides about what comes next. -/
theorem agrees_decide {α : Type} {kind : α → Prop} (data : σ.SameData σ') {v : Value}
    (h : v.Parserless σ) {yes no yes' no' : Result → Eval α}
    (hyes : ∀ r, r.Parserless σ → Agrees limits σ σ' kind (yes r) (yes' r))
    (hno : ∀ r, r.Parserless σ → Agrees limits σ σ' kind (no r) (no' r)) :
    Agrees limits σ σ' kind (do let r ← resultOf v; if ← truthy r.status then yes r else no r)
      (do let r ← resultOf v; if ← truthy r.status then yes' r else no' r) := by
  refine (agrees_resultOf h).bind fun r parts => ?_
  refine (agrees_truthy data parts.1).bind fun succeeded _ => ?_
  cases succeeded with
  | true => exact hyes r parts
  | false => exact hno r parts

theorem parserless_snoc {values : List Value} {v : Value} (h : ∀ u ∈ values, u.Parserless σ)
    (hv : v.Parserless σ) : ∀ u ∈ values ++ [v], u.Parserless σ := by
  intro u member
  rcases List.mem_append.mp member with before | last
  · exact h u before
  · rw [List.mem_singleton.mp last]
    exact hv

theorem agrees_sequenceFrom (data : σ.SameData σ') (same : Machines.Agree limits σ σ' R text env m m')
    {ps qs : List ParserId} (h : List.Forall₂ R ps qs) {previous : Value} {values : List Value}
    (hi : i.Parserless σ) (hp : previous.Parserless σ) (hv : ∀ u ∈ values, u.Parserless σ) :
    Agrees limits σ σ' (Value.Parserless σ) (Behave.sequenceFrom m text env ps previous values i)
      (Behave.sequenceFrom m' text env qs previous values i) := by
  induction h generalizing previous values i with
  | nil => exact agrees_mergeOver data (parserless_success hi (parserless_list hv)) hp
  | cons head _ ih =>
    unfold Behave.sequenceFrom
    refine (same.run head hi).bind fun outcome free => ?_
    refine (agrees_mergeOver data free hp).bind fun merged free => ?_
    refine agrees_decide data free (fun r parts => ?_) fun r _ => agrees_pure free
    exact ih parts.2.1 free (parserless_snoc hv parts.2.2)

theorem agrees_alternativeFrom (data : σ.SameData σ') (same : Machines.Agree limits σ σ' R text env m m')
    {ps qs : List ParserId} (h : List.Forall₂ R ps qs) {previous : Value} (hi : i.Parserless σ)
    (hp : previous.Parserless σ) :
    Agrees limits σ σ' (Value.Parserless σ) (Behave.alternativeFrom m text i env ps previous)
      (Behave.alternativeFrom m' text i env qs previous) := by
  induction h generalizing previous with
  | nil => exact agrees_pure hp
  | cons head _ ih =>
    unfold Behave.alternativeFrom
    refine (same.run head hi).bind fun outcome free => ?_
    refine (agrees_mergeOver data free hp).bind fun merged free => ?_
    exact agrees_decide data free (fun r _ => agrees_pure free) fun r _ => ih free

/-- Rounds that led where data without parsers was read. -/
def Behave.Progress.Parserless (σ : Store) : Behave.Progress → Prop
  | .failed merged => merged.Parserless σ
  | .reached i values => i.Parserless σ ∧ ∀ u ∈ values, u.Parserless σ

theorem agrees_requiredRounds (data : σ.SameData σ') (same : Machines.Agree limits σ σ' R text env m m')
    {p q : ParserId} (h : R p q) (n : Nat) {previous : Value} {values : List Value} (hi : i.Parserless σ)
    (hp : previous.Parserless σ) (hv : ∀ u ∈ values, u.Parserless σ) :
    Agrees limits σ σ' (Behave.Progress.Parserless σ)
      (Behave.requiredRounds m p text env n previous values i)
      (Behave.requiredRounds m' q text env n previous values i) := by
  induction n generalizing previous values i with
  | zero => exact agrees_pure ⟨hi, hv⟩
  | succ n ih =>
    unfold Behave.requiredRounds
    refine (same.run h hi).bind fun outcome free => ?_
    refine (agrees_mergeOver data free hp).bind fun merged free' => ?_
    refine agrees_decide data free (fun r parts => ?_) fun r _ => agrees_pure free'
    exact ih parts.2.1 free' (parserless_snoc hv parts.2.2)

theorem agrees_optionalRounds (data : σ.SameData σ') (same : Machines.Agree limits σ σ' R text env m m')
    {p q : ParserId} (h : R p q) (n : Nat) {values : List Value} (hi : i.Parserless σ)
    (hv : ∀ u ∈ values, u.Parserless σ) :
    Agrees limits σ σ' (fun ended => ended.2.1.Parserless σ ∧ ∀ u ∈ ended.2.2, u.Parserless σ)
      (Behave.optionalRounds m p text env n values i) (Behave.optionalRounds m' q text env n values i) := by
  induction n generalizing values i with
  | zero => exact agrees_pure ⟨hi, hv⟩
  | succ n ih =>
    unfold Behave.optionalRounds
    refine (same.run h hi).bind fun outcome free => ?_
    refine agrees_decide data free (fun r parts => ?_) fun r _ => agrees_pure ⟨hi, hv⟩
    exact ih parts.2.1 (parserless_snoc hv parts.2.2)

theorem agrees_repetition (data : σ.SameData σ') (same : Machines.Agree limits σ σ' R text env m m')
    {p q : ParserId} (h : R p q) (least most : Count) (hi : i.Parserless σ) :
    Agrees limits σ σ' (Value.Parserless σ) (Behave.repetition m p least most text i env)
      (Behave.repetition m' q least most text i env) := by
  have more : ∀ limit i values, i.Parserless σ → (∀ u ∈ values, u.Parserless σ) →
      Agrees limits σ σ' (Value.Parserless σ) (Behave.moreRounds m p text env limit values i)
        (Behave.moreRounds m' q text env limit values i) := by
    intro limit i values hi hv
    unfold Behave.moreRounds
    rw [same.rounds]
    refine (agrees_optionalRounds data same h _ hi hv).bind fun ended free => ?_
    dsimp only
    split
    · exact tandem_throw _
    · exact agrees_pure (parserless_success free.1 (parserless_list free.2))
  unfold Behave.repetition
  dsimp only
  rw [same.rounds]
  refine (agrees_requiredRounds data same h _ hi parserless_none (by simp)).bind fun progress free => ?_
  cases progress with
  | failed merged => exact agrees_pure free
  | reached j values =>
    cases Behave.roundsBeyond 0 least with
    | some n => exact more _ j values free.1 free.2
    | none => exact tandem_throw _

theorem agrees_groupOf (r : Regex) (found : Regex.Found) (group : Nat) :
    Agrees limits σ σ' (Value.Parserless σ) (Behave.groupOf r found group)
      (Behave.groupOf r found group) := by
  unfold Behave.groupOf
  split
  · exact agrees_raise _
  · refine agrees_pure ?_
    split
    · exact parserless_ofChars _
    · exact parserless_none

/-- A primitive behaviour only reads, and it runs nothing. -/
theorem agrees_primitive (data : σ.SameData σ') {b : Behaviour Value} (h : b.IsPrimitive)
    (ht : text.Parserless σ) (hi : i.Parserless σ) :
    Agrees limits σ σ' (Value.Parserless σ) (behave m b text i env) (behave m' b text i env) := by
  have item : ∀ next : Value, next.Parserless σ → Agrees limits σ σ' (Value.Parserless σ)
      (do return .success next (← itemOf text i)) (do return .success next (← itemOf text i)) :=
    fun next free =>
      (agrees_itemOf data ht hi).bind fun c known => agrees_pure (parserless_success free known)
  cases b with
  | anyChar =>
    refine (agrees_lengthOf data ht).bind fun n _ => ?_
    refine (agrees_atMost data (parserless_int n) hi).bind fun past _ => ?_
    split
    · exact agrees_pure (parserless_failure hi _)
    · exact (agrees_addTo data hi (parserless_int 1)).bind item
  | rest =>
    refine (agrees_lengthOf data ht).bind fun n _ => ?_
    refine (agrees_sliceOf data ht hi parserless_none).bind fun left free => ?_
    exact agrees_pure (parserless_success (parserless_int n) free)
  | eof =>
    refine (agrees_lengthOf data ht).bind fun n _ => ?_
    refine (agrees_lessThan data hi (parserless_int n)).bind fun before _ => ?_
    split
    · exact agrees_pure (parserless_failure hi _)
    · exact agrees_pure (parserless_success hi parserless_none)
  | index => exact agrees_pure (parserless_success hi hi)
  | lineColumnIndex =>
    exact (agrees_lineColumnOf data ht hi).bind fun place free => agrees_pure (parserless_success hi free)
  | fail d => exact agrees_pure (parserless_failure hi d)
  | string literal =>
    refine (agrees_holdsAt data literal ht hi).bind fun there _ => ?_
    split
    · exact (agrees_addTo data hi (parserless_int _)).bind fun next free =>
        agrees_pure (parserless_success free (parserless_str _))
    · exact agrees_pure (parserless_failure hi _)
  | regex r group =>
    refine (agrees_sliceOf data ht hi parserless_none).bind fun left _ => ?_
    split
    · split
      · exact agrees_raise _
      · split
        · exact (agrees_addTo data hi (parserless_int _)).bind fun next free =>
            (agrees_groupOf r _ group).bind fun v known => agrees_pure (parserless_success free known)
        · exact agrees_pure (parserless_failure hi _)
    · exact agrees_raise _
  | _ => exact h.elim

/-- Matching behaviours do the same on machines that agree on the parsers that they run. -/
theorem agrees_behave (data : σ.SameData σ') (same : Machines.Agree limits σ σ' R text env m m')
    {b b' : Behaviour Value} (h : b.Matches R (Value.Parserless σ) b') (ht : text.Parserless σ)
    (hi : i.Parserless σ) :
    Agrees limits σ σ' (Value.Parserless σ) (behave m b text i env) (behave m' b' text i env) := by
  cases h with
  | primitive h => exact agrees_primitive data h ht hi
  | succeed h => exact agrees_pure (parserless_success hi h)
  | sequence h => exact agrees_sequenceFrom data same h hi parserless_none (by simp)
  | alternative h => exact agrees_alternativeFrom data same h hi parserless_none
  | repetition h => exact agrees_repetition data same h _ _ hi
  | exclude allowed forbidden =>
    refine (same.run forbidden hi).bind fun outcome free => ?_
    refine agrees_decide data free (fun r parts => ?_) fun f parts => ?_
    · exact (agrees_textOf data parts.2.2).bind fun words _ => agrees_pure (parserless_failure hi _)
    · refine (same.run allowed hi).bind fun outcome free => ?_
      refine agrees_decide data free (fun r _ => agrees_pure free) fun a parts' => ?_
      refine (agrees_expectedText data parts'.2.2).bind fun wanted _ => ?_
      exact (agrees_expectedText data parts.2.2).bind fun except _ =>
        agrees_pure (parserless_failure hi _)
  | describe h =>
    refine (same.run h hi).bind fun outcome free => ?_
    refine agrees_decide data free (fun r _ => agrees_pure free) fun r parts => agrees_pure ?_
    exact parserless_result parts.1 parts.2.1 (parserless_list (by simp))
  | mark h =>
    refine (same.run h hi).bind fun outcome free => ?_
    refine agrees_decide data free (fun r parts => ?_) fun r _ => agrees_pure free
    refine (agrees_threeOf data parts.2.2).bind fun three known => ?_
    exact agrees_pure (parserless_success parts.2.1 (parserless_mark known.1 known.2.1 known.2.2))

end Loops

/-- Two parsers with matching behaviours, each in a store without tracers, run alike on machines above
such that agree on the parsers of which the behaviours are made. -/
theorem agrees_run_above {limits : Fault → Prop} {σ σ' : Store} {R : ParserId → ParserId → Prop}
    {text env i : Value} {host : Host} {m m' : Machine} {p q : ParserId} {b b' : Behaviour Value}
    (data : σ.SameData σ') (untraced : σ.tracers = []) (untraced' : σ'.tracers = [])
    (same : Machines.Agree limits σ σ' R text env m m') (now : σ.behaviour? p = some b)
    (now' : σ'.behaviour? q = some b') (h : b.Matches R (Value.Parserless σ) b')
    (ht : text.Parserless σ) (hi : i.Parserless σ) :
    Agrees limits σ σ' (Value.Parserless σ) ((m.above host).run p text i env)
      ((m'.above host).run q text i env) :=
  (agrees_behave data same h ht hi).congr (run_above text i env untraced now)
    (run_above text i env untraced' now')

/-- Parsers that a relation pairs give the same if the behaviours of every pair match over that relation,
however deeply and however often they run each other. -/
theorem run_bisimilar {limits : Fault → Prop} {σ σ' : Store} {R : ParserId → ParserId → Prop}
    (data : σ.SameData σ') (untraced : σ.tracers = []) (untraced' : σ'.tracers = [])
    (paired : ∀ p q, R p q → ∃ b b', σ.behaviour? p = some b ∧ σ'.behaviour? q = some b' ∧
      b.Matches R (Value.Parserless σ) b')
    {text : Value} (ht : text.Parserless σ) (env : Value) (host : Host) (rounds depth : Nat)
    {p q : ParserId} {i : Value} (h : R p q) (hi : i.Parserless σ) :
    Agrees limits σ σ' (Value.Parserless σ) ((machine host rounds depth).run p text i env)
      ((machine host rounds depth).run q text i env) := by
  induction depth generalizing p q i with
  | zero => exact .inr ⟨_, rfl⟩
  | succ depth ih =>
    obtain ⟨b, b', now, now', same⟩ := paired p q h
    exact agrees_run_above data untraced untraced' ⟨rfl, ih⟩ now now' same ht hi

end Rebind
