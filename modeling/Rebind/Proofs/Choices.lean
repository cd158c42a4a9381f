import Rebind.Proofs.Attempt
/-!
# What a choice comes to

A choice runs parsers at one place, one after the other, up to the first success, which it returns as it is.
If all of them fail, what it returns is the failure that got furthest; where several got as far, it lists what
each of them expected, the last one first, and nothing else.

The parsers may do whatever they like, as long as they return results: a failure is one that does not count as
true, at a whole number, with a list.  They may even change a list that was returned before.  So it matters when
a list is read: that is when it is joined to the lists before it, and for the first of several when the second
one is joined to it.
-/
namespace Rebind

/-- The items of a list in a store. -/
def Store.itemsIn (σ : Store) (v : Value) : List Value :=
  match σ.view v with
  | .list items => items
  | _ => []

theorem Store.itemsIn_list {σ : Store} {v : Value} {items : List Value} (h : σ.view v = .list items) :
    σ.itemsIn v = items := by
  rw [Store.itemsIn, h]

/-- A failure that a parser returned, with its parts, and the store that it was returned in. -/
structure Failure where
  result : Value
  status : Value
  place : Int
  list : Value
  store : Store

/-- Merging with a result before it, step by step. -/
theorem mergeOver_after {candidate previous : Value} {c p : Result} (hc : resultOf candidate = pure c)
    (hp : resultOf previous = pure p) (some : previous ≠ .none) :
    mergeOver candidate previous = do
      if ← truthy c.status then return candidate
      if ← lessThan (← furthest p) c.index then return candidate
      if ← lessThan c.index p.index then return previous
      return .result (.bool false) c.index (← addTo c.value p.value) := by
  unfold mergeOver
  split
  · exact absurd rfl some
  · simp only [hc, hp, pure_bind]

/-- A success stays as it is, whatever went before it. -/
theorem mergeOver_counting {candidate : Value} {r : Result} {τ : Store}
    (made : candidate.result? = some r) (counts : truthy r.status τ = .ok true τ) (previous : Value) :
    mergeOver candidate previous τ = .ok candidate τ := by
  have parts : resultOf candidate = pure r := by
    unfold resultOf
    rw [made]
  have asked : previous = .none ∨ ∃ rest, mergeOver candidate previous =
      truthy r.status >>= fun b => if b = true then pure candidate else rest := by
    unfold mergeOver
    split
    · exact .inl rfl
    · exact .inr ⟨_, by rw [parts, pure_bind]⟩
  obtain rfl | ⟨rest, same⟩ := asked
  · rfl
  · rw [same, bind_ok counts]
    rfl

namespace Failure

/-- The result has the parts. -/
def IsMade (f : Failure) : Prop := f.result.result? = some ⟨f.status, .int f.place, f.list⟩

/-- In a store the result counts as a failure, and what it expected is a list. -/
def Stands (f : Failure) (σ : Store) : Prop :=
  (σ.view f.status).isTruthy = false ∧ ∃ items, σ.view f.list = .list items

def items (f : Failure) : List Value := f.store.itemsIn f.list

/-- A failure merged with the one before it. -/
def after (f before : Failure) : Failure :=
  if before.place < f.place then f
  else if f.place < before.place then before
  else
    let items := f.items ++ f.store.itemsIn before.list
    ⟨.result (.bool false) (.int f.place) (.list items), .bool false, f.place, .list items, f.store⟩

/-- A failure merged with the one before it, if there is one. -/
def afterAny (f : Failure) : Option Failure → Failure
  | none => f
  | some before => f.after before

/-- Failures one after the other, merged. -/
def merged : Option Failure → List Failure → Option Failure
  | before, [] => before
  | before, f :: rest => merged (some (f.afterAny before)) rest

/-- The result that a failure is; without one it is nothing. -/
def valueOf : Option Failure → Value
  | none => .none
  | some f => f.result

section Over

variable {f before : Failure} {σ : Store}

theorem IsMade.resultOf (h : f.IsMade) : resultOf f.result = pure ⟨f.status, .int f.place, f.list⟩ := by
  unfold Rebind.resultOf
  rw [h]

theorem IsMade.ne_none (h : f.IsMade) : f.result ≠ .none := by
  intro none
  rw [IsMade, none] at h
  cases h

theorem IsMade.after (hf : f.IsMade) (hb : before.IsMade) : (f.after before).IsMade := by
  unfold Failure.after
  split
  · exact hf
  · split
    · exact hb
    · rfl

/-- Merging makes results out of results. -/
theorem IsMade.afterAny {before : Option Failure} (hf : f.IsMade) (hb : ∀ b ∈ before, b.IsMade) :
    (f.afterAny before).IsMade := by
  cases before with
  | none => exact hf
  | some b => exact hf.after (hb b rfl)

theorem Stands.after (hf : f.Stands σ) (hb : before.Stands σ) : (f.after before).Stands σ := by
  unfold Failure.after
  split
  · exact hf
  · split
    · exact hb
    · exact ⟨rfl, _, rfl⟩

/-- A failure merged with one that still stands stands. -/
theorem Stands.afterAny {before : Option Failure} (hf : f.Stands σ) (hb : ∀ b ∈ before, b.Stands σ) :
    (f.afterAny before).Stands σ := by
  cases before with
  | none => exact hf
  | some b => exact hf.after (hb b rfl)

/-- A failure does not count as true. -/
theorem Stands.truthy (h : f.Stands σ) : truthy f.status σ = .ok false σ := by
  rw [← h.1]
  rfl

/-- Merging two failures that stand is what `after` says, and leaves the store as it is. -/
theorem mergeOver_failure (hf : f.IsMade) (hb : before.IsMade) (stands : f.Stands f.store)
    (earlier : before.Stands f.store) :
    mergeOver f.result before.result f.store = .ok (f.after before).result f.store := by
  have reached : furthest ⟨before.status, .int before.place, before.list⟩ f.store =
      .ok (.int before.place) f.store := bind_ok earlier.truthy
  obtain ⟨xs, listed⟩ := stands.2
  obtain ⟨ys, listed'⟩ := earlier.2
  have joined : addTo f.list before.list f.store = .ok (.list (xs ++ ys)) f.store := by
    have first : view f.list f.store = .ok (.list xs) f.store := by rw [view, listed]
    have second : view before.list f.store = .ok (.list ys) f.store := by rw [view, listed']
    unfold addTo
    rw [bind_ok first, bind_ok second]
    rfl
  rw [mergeOver_after hf.resultOf hb.resultOf hb.ne_none, bind_ok stands.truthy]
  simp only [Bool.false_eq_true, if_false]
  rw [bind_ok reached]
  simp only [lessThan_int, pure_bind, decide_eq_true_eq, after, items, Store.itemsIn_list listed,
    Store.itemsIn_list listed']
  split
  · rfl
  · split
    · rfl
    · rw [bind_ok joined]
      rfl

theorem mergeOver_afterAny {before : Option Failure} (hf : f.IsMade) (hb : ∀ b ∈ before, b.IsMade)
    (stands : f.Stands f.store) (earlier : ∀ b ∈ before, b.Stands f.store) :
    mergeOver f.result (valueOf before) f.store = .ok (f.afterAny before).result f.store := by
  cases before with
  | none => rfl
  | some b => exact mergeOver_failure hf (hb b rfl) stands (earlier b rfl)

end Over

end Failure

open Failure

/-! ### Runs one after the other -/

/-- How it ended to run parsers up to the first success: all have failed, one has succeeded with a result, or
one was given up. -/
inductive Outcome where
  | failed
  | succeeded (r : Value)
  | gaveUp (e : Fault)

/-- What a choice comes to after the failures on the way, merged to one value. -/
def Outcome.ending (merged : Value) (τ : Store) : Outcome → EStateM.Result Fault Store Value
  | failed => .ok merged τ
  | succeeded r => .ok r τ
  | gaveUp e => .error e τ

/-- Parsers have been run one after the other up to the first that did not fail, with these failures on the way
and this outcome.  How a single run ends in a store is a parameter. -/
inductive Tried (ends : ParserId → Store → EStateM.Result Fault Store Value → Prop) :
    List ParserId → Store → List Failure → Outcome → Store → Prop
  | nil {σ : Store} : Tried ends [] σ [] .failed σ
  | succeeded {p : ParserId} {ps : List ParserId} {σ τ : Store} {v : Value} {r : Result}
    (run : ends p σ (.ok v τ)) (made : v.result? = some r) (counts : (τ.view r.status).isTruthy = true) :
    Tried ends (p :: ps) σ [] (.succeeded v) τ
  | gaveUp {p : ParserId} {ps : List ParserId} {σ τ : Store} {e : Fault} (run : ends p σ (.error e τ)) :
    Tried ends (p :: ps) σ [] (.gaveUp e) τ
  | failed {p : ParserId} {ps : List ParserId} {σ τ : Store} {f : Failure} {rest : List Failure}
    {o : Outcome} (run : ends p σ (.ok f.result f.store)) (made : f.IsMade) (stands : f.Stands f.store)
    (more : Tried ends ps f.store rest o τ) : Tried ends (p :: ps) σ (f :: rest) o τ

/-- How a run of a parser ends on a machine. -/
def RunsOn (m : Machine) (text i env : Value) (p : ParserId) (σ : Store)
    (ended : EStateM.Result Fault Store Value) : Prop :=
  m.run p text i env σ = ended

section Tried

variable {m : Machine} {text i env : Value} {p : ParserId} {ps : List ParserId} {σ τ : Store} {v w previous : Value}
  {r : Result} {fs : List Failure} {o : Outcome}

/-- A parser that succeeds ends the choice with its result. -/
theorem alternativeFrom_success (run : m.run p text i env σ = .ok v τ) (made : v.result? = some r)
    (counts : (τ.view r.status).isTruthy = true) :
    Behave.alternativeFrom m text i env (p :: ps) previous σ = .ok v τ := by
  have parts : resultOf v = pure r := by
    unfold resultOf
    rw [made]
  have true : truthy r.status τ = .ok true τ := by
    rw [← counts]
    rfl
  simp only [Behave.alternativeFrom]
  rw [bind_ok run, bind_ok (mergeOver_counting made true _), parts, pure_bind, bind_ok true]
  rfl

/-- So does one that raises an error. -/
theorem alternativeFrom_error {e : Fault} (run : m.run p text i env σ = .error e τ) :
    Behave.alternativeFrom m text i env (p :: ps) previous σ = .error e τ := by
  simp only [Behave.alternativeFrom]
  exact bind_error run

/-- After one that fails, the other ones are tried. -/
theorem alternativeFrom_failure (run : m.run p text i env σ = .ok v τ)
    (merges : mergeOver v previous τ = .ok w τ) (parts : resultOf w = pure r)
    (counts : truthy r.status τ = .ok false τ) :
    Behave.alternativeFrom m text i env (p :: ps) previous σ = Behave.alternativeFrom m text i env ps w τ := by
  simp only [Behave.alternativeFrom]
  rw [bind_ok run, bind_ok merges, parts, pure_bind, bind_ok counts]
  rfl

/-- Failures that still count as such, with a list, when a later one is returned. -/
def StillStand (fs : List Failure) : Prop := fs.Pairwise fun f g => f.Stands g.store

/-- A choice comes to what its parsers came to one after the other, by induction on them. -/
theorem alternativeFrom_tried (tried : Tried (RunsOn m text i env) ps σ fs o τ) (stand : StillStand fs)
    (before : Option Failure) (made : ∀ b ∈ before, b.IsMade)
    (earlier : ∀ b ∈ before, ∀ f ∈ fs, b.Stands f.store) :
    Behave.alternativeFrom m text i env ps (valueOf before) σ =
      o.ending (valueOf (merged before fs)) τ := by
  induction tried generalizing before with
  | nil => rfl
  | succeeded run known counts => exact alternativeFrom_success run known counts
  | gaveUp run => exact alternativeFrom_error run
  | @failed p ps σ τ f rest o run known stands _ ih =>
    have here : ∀ b ∈ before, b.Stands f.store := fun b member => earlier b member f (List.mem_cons_self ..)
    have both := known.afterAny made
    obtain ⟨later, stand⟩ := List.pairwise_cons.mp stand
    rw [alternativeFrom_failure run (mergeOver_afterAny known made stands here) both.resultOf
      (stands.afterAny here).truthy]
    refine ih stand (some (f.afterAny before)) ?_ ?_
    · rintro _ ⟨⟩
      exact both
    · rintro _ ⟨⟩ g member
      exact (later g member).afterAny fun b known =>
        earlier b known g (List.mem_cons_of_mem _ member)

end Tried

/-! ### Failures that were merged -/

/-- The furthest place of failures. -/
def Furthest (fs : List Failure) (k : Int) : Prop := (∃ f ∈ fs, f.place = k) ∧ ∀ f ∈ fs, f.place ≤ k

def failuresAt (fs : List Failure) (k : Int) : List Failure := (fs.filter (·.place = k)).reverse

/-- What the lists of failures hold, the last failure first.  A list is read when it is returned, and the first
one when the second one is joined to it; a single one is only read in the end. -/
def gathered (σ : Store) : List Failure → List Value
  | [] => []
  | [f] => σ.itemsIn f.list
  | f :: g :: rest => f.items ++ gathered f.store (g :: rest)

/-- Nobody changed what the lists of failures held when they were returned. -/
structure Unchanged (fs : List Failure) (τ : Store) : Prop where
  between : fs.Pairwise fun f g => g.store.itemsIn f.list = f.items
  last : ∀ f ∈ fs, τ.itemsIn f.list = f.items

/-- What is found in the lists at the end is what was in them when they were returned. -/
theorem gathered_eq {ts : List Failure} {τ : Store}
    (between : ts.Pairwise fun g f => g.store.itemsIn f.list = f.items)
    (last : ∀ f ∈ ts, τ.itemsIn f.list = f.items) : gathered τ ts = ts.flatMap Failure.items := by
  induction ts generalizing τ with
  | nil => rfl
  | cons f rest ih =>
    obtain ⟨here, between⟩ := List.pairwise_cons.mp between
    cases rest with
    | nil => simp [gathered, last f (List.mem_cons_self ..)]
    | cons g rest => rw [gathered, ih between here, ← List.flatMap_cons]

theorem Unchanged.gathered {fs : List Failure} {τ : Store} (h : Unchanged fs τ) (k : Int) :
    gathered τ (failuresAt fs k) = (failuresAt fs k).flatMap Failure.items := by
  refine gathered_eq ?_ fun f member => h.last f ?_
  · exact List.pairwise_reverse.mpr (h.between.sublist List.filter_sublist)
  · exact (List.mem_filter.mp (List.mem_reverse.mp member)).1

section Sums

variable {f b : Failure} {fs : List Failure} {k : Int}

/-- The last failure comes first among those at its place. -/
theorem failuresAt_append (fs : List Failure) (f : Failure) (k : Int) :
    failuresAt (fs ++ [f]) k = if f.place = k then f :: failuresAt fs k else failuresAt fs k := by
  by_cases here : f.place = k <;> simp [failuresAt, here]

/-- A failure is what others come to when they are merged. -/
structure Sums (fs : List Failure) (f : Failure) : Prop where
  furthest : Furthest fs f.place
  items : ∀ σ : Store, σ.itemsIn f.list = gathered σ (failuresAt fs f.place)

theorem sums_single (f : Failure) : Sums [f] f where
  furthest := ⟨⟨f, List.mem_singleton_self f, rfl⟩,
    fun g member => Int.le_of_eq (by rw [List.mem_singleton.mp member])⟩
  items σ := by simp [failuresAt, gathered]

theorem Sums.some_at (h : Sums fs b) : ∃ g rest, failuresAt fs b.place = g :: rest := by
  obtain ⟨⟨g, member, there⟩, _⟩ := h.furthest
  cases found : failuresAt fs b.place with
  | cons g rest => exact ⟨g, rest, rfl⟩
  | nil =>
    have inside : g ∈ failuresAt fs b.place := by simp [failuresAt, member, there]
    rw [found] at inside
    cases inside

/-- Nothing but the failures at the furthest place is in the merged one, and the later one stands first. -/
theorem Sums.after (h : Sums fs b) (f : Failure) : Sums (fs ++ [f]) (f.after b) := by
  obtain ⟨⟨g, member, there⟩, upTo⟩ := h.furthest
  have place_le : ∀ k : Int, b.place ≤ k → f.place ≤ k → ∀ e ∈ fs ++ [f], e.place ≤ k := by
    intro k before here e member
    rcases List.mem_append.mp member with first | last
    · exact Int.le_trans (upTo e first) before
    · rw [List.mem_singleton.mp last]
      exact here
  have last : f ∈ fs ++ [f] := List.mem_append_right fs (List.mem_singleton_self f)
  unfold Failure.after
  split
  · next further =>
    have none : failuresAt fs f.place = [] := by
      refine List.reverse_eq_nil_iff.mpr (List.filter_eq_nil_iff.mpr fun e member => ?_)
      have := upTo e member
      simp only [decide_eq_true_eq]
      omega
    refine ⟨⟨⟨f, last, rfl⟩, place_le _ (Int.le_of_lt further) (Int.le_refl _)⟩, fun σ => ?_⟩
    rw [failuresAt_append, if_pos rfl, none]
    rfl
  · split
    · next nearer =>
      refine ⟨⟨⟨g, List.mem_append_left [f] member, there⟩, place_le _ (Int.le_refl _) (Int.le_of_lt nearer)⟩,
        fun σ => ?_⟩
      rw [failuresAt_append, if_neg (Int.ne_of_lt nearer)]
      exact h.items σ
    · next there _ =>
      have level : b.place = f.place := by omega
      refine ⟨⟨⟨f, last, rfl⟩, place_le _ (Int.le_of_eq level) (Int.le_refl _)⟩, fun σ => ?_⟩
      have before := h.items f.store
      obtain ⟨e, rest, found⟩ := h.some_at
      rw [level] at found before
      rw [failuresAt_append, if_pos rfl, found, gathered, ← found, ← before]
      rfl

/-- Merging one failure after the other keeps the sum of all of them. -/
theorem merged_sums (h : Sums fs b) (rest : List Failure) :
    ∃ l, merged (some b) rest = some l ∧ Sums (fs ++ rest) l := by
  induction rest generalizing fs b with
  | nil => exact ⟨b, rfl, by rwa [List.append_nil]⟩
  | cons f rest ih =>
    obtain ⟨l, same, sums⟩ := ih (h.after f)
    refine ⟨l, same, ?_⟩
    rwa [List.append_assoc, List.singleton_append] at sums

/-- What holds of failures, and of two that are merged if it holds of both, holds of all when they are merged. -/
theorem merged_all {P : Failure → Prop} (after : ∀ f b, P f → P b → P (f.after b)) (before : Option Failure)
    (first : ∀ b ∈ before, P b) (all : ∀ f ∈ fs, P f) : ∀ l ∈ merged before fs, P l := by
  induction fs generalizing before with
  | nil => exact first
  | cons f rest ih =>
    refine ih (some (f.afterAny before)) ?_ fun g member => all g (List.mem_cons_of_mem f member)
    rintro _ ⟨⟩
    have here := all f (List.mem_cons_self ..)
    cases before with
    | none => exact here
    | some b => exact after f b here (first b rfl)

end Sums

section Ends

variable {ends : ParserId → Store → EStateM.Result Fault Store Value → Prop} {ps : List ParserId}
  {σ τ : Store} {fs : List Failure} {o : Outcome}

theorem Tried.made (h : Tried ends ps σ fs o τ) : ∀ f ∈ fs, f.IsMade := by
  induction h with
  | nil | succeeded | gaveUp => exact nofun
  | failed run made stands more ih => exact List.forall_mem_cons.mpr ⟨made, ih⟩

/-- What stands in every store on the way stands in the last one. -/
theorem Tried.stands_last (h : Tried ends ps σ fs .failed τ) {b : Failure} (start : b.Stands σ)
    (later : ∀ f ∈ fs, b.Stands f.store) : b.Stands τ := by
  generalize failed : Outcome.failed = o at h
  induction h with
  | nil => exact start
  | succeeded | gaveUp => cases failed
  | failed run made stands more ih =>
    obtain ⟨here, later⟩ := List.forall_mem_cons.mp later
    exact ih here later failed

theorem Tried.stand (h : Tried ends ps σ fs .failed τ) (stand : StillStand fs) : ∀ f ∈ fs, f.Stands τ := by
  generalize failed : Outcome.failed = o at h
  induction h with
  | nil | succeeded | gaveUp => exact nofun
  | failed run made stands more ih =>
    obtain ⟨later, stand⟩ := List.pairwise_cons.mp stand
    subst failed
    exact List.forall_mem_cons.mpr ⟨more.stands_last stands later, ih stand rfl⟩

end Ends

/-- What a choice comes to.  It runs its parsers up to the first that does not fail.  A success is returned as
it is, and what one of them gives up with is what the choice gives up with.  If all fail, the choice fails at the
furthest place and expects what those that got there expected, the last one first.  That is read from the lists
as they are when they are joined, and where nobody changes a list it is what the lists were returned with. -/
theorem alternative_closed {m : Machine} {text i env : Value} {choices : List ParserId} {σ τ : Store}
    {fs : List Failure} {o : Outcome} (tried : Tried (RunsOn m text i env) choices σ fs o τ)
    (stand : StillStand fs) (nonempty : choices ≠ []) :
    (∀ r, o = .succeeded r → behave m (.alternative choices) text i env σ = .ok r τ) ∧
      (∀ e, o = .gaveUp e → behave m (.alternative choices) text i env σ = .error e τ) ∧
      (o = .failed → ∃ k r s w, Furthest fs k ∧ behave m (.alternative choices) text i env σ = .ok r τ ∧
        r.result? = some ⟨s, .int k, w⟩ ∧ (τ.view s).isTruthy = false ∧
        τ.view w = .list (gathered τ (failuresAt fs k)) ∧
        (Unchanged fs τ → gathered τ (failuresAt fs k) = (failuresAt fs k).flatMap Failure.items)) := by
  have ended : behave m (.alternative choices) text i env σ = o.ending (valueOf (merged none fs)) τ :=
    alternativeFrom_tried tried stand none nofun nofun
  refine ⟨?_, ?_, ?_⟩
  · rintro r rfl
    exact ended
  · rintro e rfl
    exact ended
  · rintro rfl
    have standing := tried.stand stand
    have made := tried.made
    cases tried with
    | nil => exact absurd rfl nonempty
    | @failed p ps _ _ f rest _ run known stands more =>
      -- The first failure is the one that the others are merged into.
      obtain ⟨l, same, sums⟩ := merged_sums (sums_single f) rest
      have all : merged none (f :: rest) = some l := same
      replace sums : Sums (f :: rest) l := sums
      have isMade := merged_all (fun _ _ hf hb => hf.after hb) none nofun made l all
      have counts := merged_all (fun _ _ hf hb => hf.after hb) none nofun standing l all
      rw [all] at ended
      obtain ⟨items, listed⟩ := counts.2
      refine ⟨l.place, l.result, l.status, l.list, sums.furthest, ended, isMade, counts.1, ?_, ?_⟩
      · rw [listed, ← sums.items τ, Store.itemsIn_list listed]
      · exact fun unchanged => unchanged.gathered l.place

private def noFunctions : Host := ⟨fun _ _ _ => return .none, Value.share⟩

/-- Parsers 5, 6 and 7 always fail.  Parsers 8 and 9 take a character before that. -/
private def failing : Store :=
  { Store.initial with
    parsers := Store.initial.parsers ++ #[⟨.object 5 (.behaviour (.fail "a")), .str "fail('a')"⟩,
      ⟨.object 6 (.behaviour (.fail "x")), .str "fail('x')"⟩,
      ⟨.object 7 (.behaviour (.fail "y")), .str "fail('y')"⟩,
      ⟨.object 8 (.behaviour (.sequence [0, 6])), .str "sequence(*2)"⟩,
      ⟨.object 9 (.behaviour (.sequence [0, 7])), .str "sequence(*2)"⟩]
    nextObject := 10 }

private def plainFailure (place : Int) (expected : String) : Failure :=
  ⟨.failure (.int place) (.str expected), .bool false, place, .list [.str expected], failing⟩

/-- Two failures at the start, and two that got one character further. -/
private def fourFailures : List Failure :=
  [plainFailure 0 "a", plainFailure 1 "x", plainFailure 0 "a", plainFailure 1 "y"]

/-- Four parsers that fail, two of them at the furthest place. -/
theorem alternative_closed_fourChoices :
    ∃ r s w, behave (machine noFunctions 9 9) (.alternative [5, 8, 5, 9]) (.str "zz") (.int 0) .none failing =
      .ok r failing ∧ r.result? = some ⟨s, .int 1, w⟩ ∧ failing.view w = .list [.str "y", .str "x"] := by
  have made : ∀ k d, (plainFailure k d).IsMade := fun _ _ => rfl
  have stands : ∀ k d, (plainFailure k d).Stands failing := fun _ _ => ⟨rfl, _, rfl⟩
  have tried : Tried (RunsOn (machine noFunctions 9 9) (.str "zz") (.int 0) .none) [5, 8, 5, 9] failing
      fourFailures .failed failing :=
    .failed rfl (made _ _) (stands _ _) (.failed rfl (made _ _) (stands _ _)
      (.failed rfl (made _ _) (stands _ _) (.failed rfl (made _ _) (stands _ _) .nil)))
  have stand : StillStand fourFailures := by
    refine .cons ?_ (.cons ?_ (.cons ?_ (.cons ?_ .nil))) <;> simp [plainFailure] <;> exact stands _ _
  obtain ⟨k, r, s, w, furthest, ended, made, _, listed, _⟩ :=
    (alternative_closed tried stand (by decide)).2.2 rfl
  have one : k = 1 := by
    obtain ⟨⟨f, member, rfl⟩, upTo⟩ := furthest
    have least : 1 ≤ f.place := upTo (plainFailure 1 "x") (by simp [fourFailures])
    simp only [fourFailures, List.mem_cons, List.not_mem_nil, or_false] at member
    rcases member with rfl | rfl | rfl | rfl
    · exact absurd least (by decide)
    · rfl
    · exact absurd least (by decide)
    · rfl
  subst one
  exact ⟨r, s, w, ended, made, listed⟩

end Rebind
