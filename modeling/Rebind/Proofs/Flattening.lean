import Rebind.Proofs.Choices
import Rebind.Proofs.PegRuns
import Rebind.Proofs.Tandem
/-!
# Choices among choices

A choice may choose among choices.  However such a tree is built, its run comes to what a single choice among
the leaves comes to, the leaves taken from left to right: merging failures is associative, and a success ends an
inner choice where it would have ended the single one.

This needs more than a single choice does.  The lists of failures are joined in another order, so they have to
be lists, and to hold the same whenever they are read; the choices have to be the same ones when their turn
comes; and nobody may be told of the runs in between.
-/
namespace Rebind

open Failure

/-! ### What failures say -/

/-- What a failure says: the result that it is, how far it got, and what was expected there. -/
structure Gist where
  result : Value
  place : Int
  items : List Value

/-- What a failure says, in the store that it was returned in. -/
def Failure.gist (f : Failure) : Gist := ⟨f.result, f.place, f.items⟩

namespace Gist

def joined (f before : Gist) : Gist :=
  ⟨.result (.bool false) (.int f.place) (.list (f.items ++ before.items)), f.place, f.items ++ before.items⟩

def after (f before : Gist) : Gist :=
  if before.place < f.place then f else if f.place < before.place then before else f.joined before

section Over

variable {a b c : Gist}

theorem joined_assoc (a b c : Gist) : (a.joined b).joined c = a.joined (b.joined c) := by
  simp [joined]

theorem after_further (h : b.place < a.place) : a.after b = a := if_pos h

theorem after_nearer (h : a.place < b.place) : a.after b = b := by
  rw [after, if_neg (by omega), if_pos h]

theorem after_level (h : a.place = b.place) : a.after b = a.joined b := by
  rw [after, if_neg (by omega), if_neg (by omega)]

/-- Failures at the same place may be joined before they are merged or after. -/
theorem joined_after (h : a.place = b.place) : (a.joined b).after c = a.after (b.after c) := by
  have here : (a.joined b).place = a.place := rfl
  rcases Int.lt_trichotomy b.place c.place with less | level | more
  · rw [after_nearer less, after_nearer (by omega), after_nearer (by omega)]
  · have both : a.place = (b.joined c).place := h
    rw [after_level level, after_level both, after_level (by omega), joined_assoc]
  · rw [after_further more, after_further (by omega), after_level h]

/-- It does not matter which of three failures are merged first. -/
theorem after_assoc (a b c : Gist) : (a.after b).after c = a.after (b.after c) := by
  rcases Int.lt_trichotomy a.place b.place with less | level | more
  · rcases Int.lt_trichotomy b.place c.place with less' | level' | more'
    · rw [after_nearer less, after_nearer less', after_nearer (by omega)]
    · have both : a.place < (b.joined c).place := less
      rw [after_nearer less, after_level level', after_nearer both]
    · rw [after_nearer less, after_further more', after_nearer less]
  · rw [after_level level, joined_after level]
  · rcases Int.lt_trichotomy b.place c.place with less' | level' | more'
    · rw [after_further more, after_nearer less']
    · have both : (b.joined c).place < a.place := more
      rw [after_further more, after_level level', after_further both, after_further (by omega)]
    · rw [after_further more, after_further more', after_further more, after_further (by omega)]

end Over

/-- In a store the result is a failure that says this. -/
def Tells (g : Gist) (σ : Store) : Prop :=
  ∃ status list, g.result.result? = some ⟨status, .int g.place, list⟩ ∧
    (σ.view status).isTruthy = false ∧ σ.view list = .list g.items

section Tells

variable {g b : Gist} {σ : Store}

/-- Merging failures merges what they say. -/
theorem Tells.mergeOver (hg : g.Tells σ) (hb : b.Tells σ) :
    mergeOver g.result b.result σ = .ok (g.after b).result σ := by
  obtain ⟨s, w, made, counts, listed⟩ := hg
  obtain ⟨s', w', made', counts', listed'⟩ := hb
  have merges := @mergeOver_failure ⟨g.result, s, g.place, w, σ⟩ ⟨b.result, s', b.place, w', σ⟩ made made'
    ⟨counts, _, listed⟩ ⟨counts', _, listed'⟩
  rw [merges]
  simp only [Failure.after, after, joined, Failure.items, Store.itemsIn_list listed, Store.itemsIn_list listed']
  split
  · rfl
  · split <;> rfl

/-- What says that it is a failure has the parts of one. -/
theorem Tells.parts (h : g.Tells σ) : ∃ r, resultOf g.result = pure r ∧ truthy r.status σ = .ok false σ := by
  obtain ⟨s, w, made, counts, _⟩ := h
  refine ⟨⟨s, .int g.place, w⟩, ?_, ?_⟩
  · unfold resultOf
    rw [made]
  · rw [← counts]
    rfl

theorem Tells.after (hg : g.Tells σ) (hb : b.Tells σ) : (g.after b).Tells σ := by
  unfold Gist.after
  split
  · exact hg
  · split
    · exact hb
    · exact ⟨_, _, rfl, rfl, rfl⟩

end Tells

def afterAny (g : Gist) : Option Gist → Gist
  | none => g
  | some before => g.after before

def sum (before : Option Gist) (gs : List Gist) : Option Gist :=
  gs.foldl (fun before g => some (g.afterAny before)) before

/-- The result that a failure is; without one it is nothing. -/
def valueOf : Option Gist → Value
  | none => .none
  | some g => g.result

section Sum

variable {g : Gist} {gs : List Gist} {before : Option Gist} {σ : Store}

/-- A failure in front may be merged at the end. -/
theorem sum_after (x b : Gist) (gs : List Gist) :
    sum (some (x.after b)) gs = (sum (some x) gs).map (·.after b) := by
  induction gs generalizing x with
  | nil => rfl
  | cons g rest ih =>
    have merged : g.after (x.after b) = (g.after x).after b := (after_assoc g x b).symm
    calc sum (some (x.after b)) (g :: rest) = sum (some ((g.after x).after b)) rest := by
          rw [← merged]
          rfl
      _ = (sum (some x) (g :: rest)).map (·.after b) := ih (g.after x)

/-- Failures may be merged among themselves, before they are merged with the one before them. -/
theorem sum_afterAny (g : Gist) (gs : List Gist) (before : Option Gist) :
    ∃ l, sum none (g :: gs) = some l ∧ sum before (g :: gs) = some (l.afterAny before) := by
  have some_of : ∀ x, ∃ l, sum (some x) gs = some l := by
    intro x
    induction gs generalizing x with
    | nil => exact ⟨x, rfl⟩
    | cons g rest ih => exact ih (g.after x)
  obtain ⟨l, same⟩ := some_of g
  refine ⟨l, same, ?_⟩
  cases before with
  | none => exact same
  | some b =>
    calc sum (some b) (g :: gs) = (sum (some g) gs).map (·.after b) := sum_after g b gs
      _ = some (l.after b) := by rw [same]; rfl

theorem Tells.afterAny (hg : g.Tells σ) (hb : ∀ b ∈ before, b.Tells σ) : (g.afterAny before).Tells σ := by
  cases before with
  | none => exact hg
  | some b => exact hg.after (hb b rfl)

/-- Merging results is merging what they say, in a store in which they still say it. -/
theorem Tells.mergeOver_afterAny (hg : g.Tells σ) (hb : ∀ b ∈ before, b.Tells σ) :
    Rebind.mergeOver g.result (valueOf before) σ = .ok (g.afterAny before).result σ := by
  cases before with
  | none => rfl
  | some b => exact hg.mergeOver (hb b rfl)

/-- A sum of failures still says what they say. -/
theorem tells_sum (all : ∀ g ∈ gs, g.Tells σ) (first : ∀ b ∈ before, b.Tells σ) :
    ∀ l ∈ sum before gs, l.Tells σ := by
  induction gs generalizing before with
  | nil => exact first
  | cons g rest ih =>
    obtain ⟨here, all⟩ := List.forall_mem_cons.mp all
    refine ih all ?_
    rintro _ ⟨⟩
    exact here.afterAny first

end Sum

end Gist

/-! ### Trees -/

/-- A tree of choices: a parser, or a parser that chooses among trees, of which there is at least one. -/
inductive ChoiceTree where
  | leaf (p : ParserId)
  | node (p : ParserId) (first : ChoiceTree) (others : List ChoiceTree)

namespace ChoiceTree

def root : ChoiceTree → ParserId
  | leaf p => p
  | node p _ _ => p

mutual

def leaves : ChoiceTree → List ParserId
  | leaf p => [p]
  | node _ first others => first.leaves ++ leavesOf others

def leavesOf : List ChoiceTree → List ParserId
  | [] => []
  | t :: ts => t.leaves ++ leavesOf ts

end

mutual

/-- In a store the parser of every node chooses among the parsers below it. -/
def Stands (σ : Store) : ChoiceTree → Prop
  | leaf _ => True
  | node p first others =>
    σ.behaviour? p = some (.alternative (first.root :: others.map root)) ∧ first.Stands σ ∧ AllStand σ others

/-- In a store the parsers of all nodes of several trees choose among those below them. -/
def AllStand (σ : Store) : List ChoiceTree → Prop
  | [] => True
  | t :: ts => t.Stands σ ∧ AllStand σ ts

end

/-- Every tree has a leaf. -/
theorem leaves_ne_nil : ∀ t : ChoiceTree, t.leaves ≠ []
  | leaf _ => List.cons_ne_nil _ _
  | node _ first _ => List.append_ne_nil_of_left_ne_nil first.leaves_ne_nil _

end ChoiceTree

/-! ### Runs of a part of the leaves -/

/-- The stores before a run and after the failures on the way. -/
def storesOf (σ : Store) (fs : List Failure) : List Store := σ :: fs.map (·.store)

/-- Failures that still say the same when a later one is returned. -/
def StillSay (fs : List Failure) : Prop := fs.Pairwise fun f g => f.gist.Tells g.store

section Parts

variable {ends : ParserId → Store → EStateM.Result Fault Store Value → Prop} {ps qs : List ParserId}
  {σ τ : Store} {fs : List Failure} {o : Outcome}

/-- Parsers have been run up to one of the first ones, or all of these have failed and the others were run. -/
theorem Tried.split (h : Tried ends (ps ++ qs) σ fs o τ) :
    (o ≠ .failed ∧ Tried ends ps σ fs o τ) ∨
      ∃ fs₁ fs₂ ρ, fs = fs₁ ++ fs₂ ∧ Tried ends ps σ fs₁ .failed ρ ∧
        Tried ends qs ρ fs₂ o τ := by
  induction ps generalizing σ fs with
  | nil => exact .inr ⟨[], fs, σ, rfl, .nil, h⟩
  | cons p ps ih =>
    cases h with
    | succeeded run made counts => exact .inl ⟨nofun, .succeeded run made counts⟩
    | gaveUp run => exact .inl ⟨nofun, .gaveUp run⟩
    | @failed _ _ _ _ f rest _ run made stands more =>
      obtain ⟨ended, first⟩ | ⟨fs₁, fs₂, ρ, rfl, first, second⟩ := ih more
      · exact .inl ⟨ended, .failed run made stands first⟩
      · exact .inr ⟨f :: fs₁, fs₂, ρ, rfl, .failed run made stands first, second⟩

/-- A run that ends a choice has a status that counts as true. -/
theorem Tried.success {r : Value} (h : Tried ends ps σ fs (.succeeded r) τ) :
    ∃ parts, r.result? = some parts ∧ (τ.view parts.status).isTruthy = true := by
  generalize succeeded : Outcome.succeeded r = o at h
  induction h with
  | nil | gaveUp => cases succeeded
  | succeeded run made counts =>
    cases succeeded
    exact ⟨_, made, counts⟩
  | failed run made stands more ih => exact ih succeeded

theorem Tried.last_mem (h : Tried ends ps σ fs .failed τ) : τ ∈ storesOf σ fs := by
  generalize failed : Outcome.failed = o at h
  induction h with
  | nil => exact List.mem_singleton_self _
  | succeeded | gaveUp => cases failed
  | failed run made stands more ih => exact List.mem_cons_of_mem _ (ih failed)

theorem Tried.failures_ne_nil (h : Tried ends ps σ fs .failed τ) (some : ps ≠ []) : fs ≠ [] := by
  cases h with
  | nil => exact absurd rfl some
  | failed => exact List.cons_ne_nil _ _

/-- A failure says in its own store what it says. -/
theorem Failure.gist_tells {f : Failure} (made : f.IsMade) (stands : f.Stands f.store) :
    f.gist.Tells f.store := by
  obtain ⟨items, listed⟩ := stands.2
  refine ⟨_, _, made, stands.1, ?_⟩
  rw [listed, gist, Failure.items, Store.itemsIn_list listed]

/-- If all have failed, every failure still says the same in the end. -/
theorem Tried.tells_last (h : Tried ends ps σ fs .failed τ) (say : StillSay fs) :
    ∀ f ∈ fs, f.gist.Tells τ := by
  generalize failed : Outcome.failed = o at h
  induction h with
  | nil | succeeded | gaveUp => exact nofun
  | @failed p ps σ τ f rest o run made stands more ih =>
    obtain ⟨later, say⟩ := List.pairwise_cons.mp say
    subst failed
    refine List.forall_mem_cons.mpr ⟨?_, ih say rfl⟩
    rcases List.mem_cons.mp more.last_mem with rfl | member
    · exact gist_tells made stands
    · obtain ⟨g, inside, rfl⟩ := List.mem_map.mp member
      exact later g inside

theorem mem_storesOf_append {fs₁ fs₂ : List Failure} {ω : Store} (h : ω ∈ storesOf σ fs₁) :
    ω ∈ storesOf σ (fs₁ ++ fs₂) := by
  rw [storesOf, List.map_append, ← List.cons_append]
  exact List.mem_append_left _ h

/-- The stores of a later part of a run are among those of the whole. -/
theorem Tried.mem_storesOf_append {fs₁ fs₂ : List Failure} {ρ ω : Store} (h : Tried ends ps σ fs₁ .failed ρ)
    (member : ω ∈ storesOf ρ fs₂) : ω ∈ storesOf σ (fs₁ ++ fs₂) := by
  rcases List.mem_cons.mp member with rfl | member
  · exact Rebind.mem_storesOf_append h.last_mem
  · rw [storesOf, List.map_append, ← List.cons_append]
    exact List.mem_append_right _ member

/-- What failures come to when they are merged says the same in every store from then on, as they do. -/
theorem Tried.sum_tells {fs₁ fs₂ : List Failure} {ρ : Store} (h : Tried ends ps σ fs₁ .failed ρ)
    (say : StillSay (fs₁ ++ fs₂)) {l : Gist} (sum : Gist.sum none (fs₁.map gist) = some l) :
    ∀ ω ∈ storesOf ρ fs₂, l.Tells ω := by
  obtain ⟨before, _, later⟩ := List.pairwise_append.mp say
  intro ω member
  have none_before : ∀ b ∈ (none : Option Gist), b.Tells ω := nofun
  refine Gist.tells_sum (List.forall_mem_map.mpr fun f inside => ?_) none_before l sum
  rcases List.mem_cons.mp member with rfl | member
  · exact h.tells_last before f inside
  · obtain ⟨g, there, rfl⟩ := List.mem_map.mp member
    exact later f inside g there

end Parts

/-! ### Runs of trees -/

/-- With enough room, a run of a parser ends so. -/
def SoonRuns (host : Host) (text i env : Value) (p : ParserId) (σ : Store)
    (ended : EStateM.Result Fault Store Value) : Prop :=
  Soon host fun m => m.run p text i env σ = ended

section Runs

variable {host : Host} {text i env : Value}

mutual

/-- A tree comes to what its leaves come to, one after the other. -/
theorem ChoiceTree.run_tree (t : ChoiceTree) {σ τ : Store} {fs : List Failure} {o : Outcome}
    (tried : Tried (SoonRuns host text i env) t.leaves σ fs o τ) (say : StillSay fs)
    (quiet : ∀ ρ ∈ storesOf σ fs, ρ.tracers = []) (stand : ∀ ρ ∈ storesOf σ fs, t.Stands ρ) :
    SoonRuns host text i env t.root σ (o.ending (Gist.valueOf (Gist.sum none (fs.map gist))) τ) := by
  match t, tried, stand with
  | .leaf p, tried, _ =>
    cases tried with
    | succeeded run | gaveUp run => exact run
    | failed run made stands more =>
      cases more with
      | nil => exact run
  | .node p first others, tried, stand =>
    have start : σ ∈ storesOf σ fs := List.mem_cons_self ..
    have chosen := ChoiceTree.run_trees (first :: others) none tried say quiet
      (fun ρ member => (stand ρ member).2) nofun
    exact chosen.above fun m ran => (run_above text i env (quiet σ start) (stand σ start).1).trans ran
termination_by 2 * sizeOf t + 1

/-- Trees tried after a failure come to what their leaves come to, merged with it. -/
theorem ChoiceTree.run_trees (ts : List ChoiceTree) (before : Option Gist) {σ τ : Store} {fs : List Failure}
    {o : Outcome} (tried : Tried (SoonRuns host text i env) (ChoiceTree.leavesOf ts) σ fs o τ)
    (say : StillSay fs) (quiet : ∀ ρ ∈ storesOf σ fs, ρ.tracers = [])
    (stand : ∀ ρ ∈ storesOf σ fs, ChoiceTree.AllStand ρ ts)
    (told : ∀ b ∈ before, ∀ ρ ∈ storesOf σ fs, b.Tells ρ) :
    Soon host fun m => Behave.alternativeFrom m text i env (ts.map ChoiceTree.root) (Gist.valueOf before) σ =
      o.ending (Gist.valueOf (Gist.sum before (fs.map gist))) τ := by
  match ts, tried, stand with
  | [], tried, _ =>
    cases tried
    exact soon_of_forall fun m => rfl
  | t :: ts, tried, stand =>
    obtain ⟨ended, tried⟩ | ⟨fs₁, fs₂, ρ, rfl, tried, others⟩ := tried.split
    · -- A leaf of the first tree has ended the choice.
      have ran := ChoiceTree.run_tree t tried say quiet fun ρ member => (stand ρ member).1
      cases o with
      | failed => exact absurd rfl ended
      | succeeded r =>
        obtain ⟨parts, made, counts⟩ := tried.success
        exact ran.mono fun m ran => alternativeFrom_success ran made counts
      | gaveUp e => exact ran.mono fun m ran => alternativeFrom_error ran
    · -- The first tree has failed: what it says is merged, and the others follow.
      obtain ⟨f, rest, rfl⟩ := List.exists_cons_of_ne_nil (tried.failures_ne_nil t.leaves_ne_nil)
      obtain ⟨l, inner, both⟩ := Gist.sum_afterAny f.gist (rest.map gist) before
      obtain ⟨say₁, say₂, _⟩ := List.pairwise_append.mp say
      have told' : ∀ ω ∈ storesOf ρ fs₂, ∀ b ∈ before, b.Tells ω := fun ω member b known =>
        told b known ω (tried.mem_storesOf_append member)
      have tells := tried.sum_tells say inner
      have ran := ChoiceTree.run_tree t tried say₁ (fun ω member => quiet ω (mem_storesOf_append member))
        fun ω member => (stand ω (mem_storesOf_append member)).1
      have chosen := ChoiceTree.run_trees ts (some (l.afterAny before)) others say₂
        (fun ω member => quiet ω (tried.mem_storesOf_append member))
        (fun ω member => (stand ω (tried.mem_storesOf_append member)).2) (by
          rintro _ ⟨⟩ ω member
          exact (tells ω member).afterAny (told' ω member))
      have here : ρ ∈ storesOf ρ fs₂ := List.mem_cons_self ..
      have merges := (tells ρ here).mergeOver_afterAny (told' ρ here)
      obtain ⟨r, parts, counts⟩ := ((tells ρ here).afterAny (told' ρ here)).parts
      have all : Gist.sum before ((f :: rest ++ fs₂).map gist) =
          Gist.sum (some (l.afterAny before)) (fs₂.map gist) := by
        rw [← both, List.map_append]
        exact List.foldl_append ..
      rw [List.map_cons, inner] at ran
      rw [all]
      exact (ran.and chosen).mono fun m ⟨ran, chosen⟩ =>
        (alternativeFrom_failure ran merges parts counts).trans chosen
termination_by 2 * sizeOf ts

end

theorem ChoiceTree.leavesOf_leaf (ps : List ParserId) : ChoiceTree.leavesOf (ps.map .leaf) = ps := by
  induction ps with
  | nil => rfl
  | cons p ps ih => rw [List.map_cons, ChoiceTree.leavesOf, ih, ChoiceTree.leaves, List.singleton_append]

theorem ChoiceTree.allStand_leaf (σ : Store) (ps : List ParserId) :
    ChoiceTree.AllStand σ (ps.map .leaf) := by
  induction ps with
  | nil => trivial
  | cons p ps ih => exact ⟨trivial, ih⟩

/-- However choices are nested, what they come to is what a single choice among the leaves from left to right
comes to, as long as the failures of leaves still say the same when a later one is returned, nobody changes the
choices meanwhile and nobody traces the runs.  They end in the same way: with the same result or error, and in
the same store, so all that the leaves do there on the way is done the same, in the same order. -/
theorem nested_alternatives {t : ChoiceTree} {single : ParserId} {σ τ : Store} {fs : List Failure} {o : Outcome}
    (tried : Tried (SoonRuns host text i env) t.leaves σ fs o τ) (say : StillSay fs)
    (quiet : ∀ ρ ∈ storesOf σ fs, ρ.tracers = []) (stand : ∀ ρ ∈ storesOf σ fs, t.Stands ρ)
    (now : σ.behaviour? single = some (.alternative t.leaves)) :
    ∃ ended, SoonRuns host text i env t.root σ ended ∧ SoonRuns host text i env single σ ended := by
  have nested := t.run_tree tried say quiet stand
  -- The single alternative is a tree as well, of leaves side by side.
  have leaves := ChoiceTree.leavesOf_leaf t.leaves
  have flat := ChoiceTree.run_trees (t.leaves.map .leaf) none (leaves.symm ▸ tried) say quiet
    (fun ρ _ => ChoiceTree.allStand_leaf ρ t.leaves) nofun
  rw [List.map_map] at flat
  have untraced := quiet σ (List.mem_cons_self ..)
  refine ⟨_, nested, flat.above fun m ran => (run_above text i env untraced now).trans ?_⟩
  have roots : t.leaves.map (ChoiceTree.root ∘ ChoiceTree.leaf) = t.leaves := List.map_id _
  rw [roots] at ran
  exact ran

end Runs

/-- A function of the user, told from others by a number. -/
private def leafFunction (n : Nat) : Value := .closure ["t", "i", "e"] (.plain .null) [] (.named "leaf") n

/-- A host whose functions break the rules for leaves, each in its own way: a failure without a list, one at no
number, one with a list that another one changes, and one that makes parser 13 succeed.  The last function
refuses to hear of parser 18. -/
private def unruly : Host :=
  ⟨fun _ f arguments => match f, arguments with
    | .closure _ _ _ _ 0, _ => return .result (.bool false) (.int 0) .none
    | .closure _ _ _ _ 1, _ => return .failure (.str "0") (.str "a")
    | .closure _ _ _ _ 2, _ => return .result (.bool false) (.int 0) (.object 0 (.list [.str "a"]))
    | .closure _ _ _ _ 3, _ => do
      edit 0 (.list [.str "n"])
      return .failure (.int 0) (.str "c")
    | .closure _ _ _ _ 4, _ => do
      modify fun σ => σ.setParser 13 ⟨.behaviour (.succeed .none), .str "succeed(None)"⟩
      return .failure (.int 0) (.str "d")
    | .closure _ _ _ _ 5, .parser 18 :: _ => raise .badValue
    | _, _ => return .none, Value.share⟩

/-- Parsers 5 to 9 are functions of the user, and parsers 10 and 11 always fail.  The others are choices. -/
private def groves : Store :=
  { Store.initial with
    parsers := Store.initial.parsers ++ #[⟨leafFunction 0, .str "custom(leaf)"⟩,
      ⟨leafFunction 1, .str "custom(leaf)"⟩, ⟨leafFunction 2, .str "custom(leaf)"⟩,
      ⟨leafFunction 3, .str "custom(leaf)"⟩, ⟨leafFunction 4, .str "custom(leaf)"⟩,
      ⟨.behaviour (.fail "b"), .str "fail('b')"⟩, ⟨.behaviour (.fail "c"), .str "fail('c')"⟩,
      ⟨.behaviour (.alternative [10, 8]), .str "alternative(*2)"⟩,
      ⟨.behaviour (.alternative [10, 11]), .str "alternative(*2)"⟩,
      ⟨.behaviour (.alternative [10, 0]), .str "alternative(*2)"⟩,
      ⟨.behaviour (.alternative [11, 13]), .str "alternative(*2)"⟩,
      ⟨.behaviour (.alternative [11, 10, 11]), .str "alternative(*3)"⟩,
      ⟨.behaviour (.alternative [5, 14]), .str "alternative(*2)"⟩,
      ⟨.behaviour (.alternative [0]), .str "alternative(*1)"⟩,
      ⟨.behaviour (.alternative [5, 10, 0]), .str "alternative(*3)"⟩,
      ⟨.behaviour (.alternative [6, 14]), .str "alternative(*2)"⟩,
      ⟨.behaviour (.alternative [6, 10, 0]), .str "alternative(*3)"⟩,
      ⟨.behaviour (.alternative [7, 12]), .str "alternative(*2)"⟩,
      ⟨.behaviour (.alternative [7, 10, 8]), .str "alternative(*3)"⟩,
      ⟨.behaviour (.alternative [9, 13]), .str "alternative(*2)"⟩,
      ⟨.behaviour (.alternative [9, 10, 11]), .str "alternative(*3)"⟩,
      ⟨.behaviour (.alternative [10, 18]), .str "alternative(*2)"⟩]
    nextObject := 1 }

/-- Three leaves in two trees of different shapes. -/
theorem nested_alternatives_threeLeaves :
    ∃ ended, SoonRuns unruly (.str "z") (.int 0) .none 15 groves ended ∧
      SoonRuns unruly (.str "z") (.int 0) .none 16 groves ended := by
  let tree : ChoiceTree := .node 15 (.leaf 11) [.node 13 (.leaf 10) [.leaf 11]]
  let failed (d : String) : Failure :=
    ⟨.failure (.int 0) (.str d), .bool false, 0, .list [.str d], groves⟩
  have fails : ∀ p d, groves.behaviour? p = some (.fail d) →
      SoonRuns unruly (.str "z") (.int 0) .none p groves (.ok (failed d).result groves) := fun p d now =>
    (soon_of_forall (P := fun _ => True) fun _ => trivial).above fun m _ => run_above _ _ _ rfl now
  have made : ∀ d, (failed d).IsMade := fun _ => rfl
  have stands : ∀ d, (failed d).Stands groves := fun _ => ⟨rfl, _, rfl⟩
  have tried : Tried (SoonRuns unruly (.str "z") (.int 0) .none) tree.leaves groves
      [failed "c", failed "b", failed "c"] .failed groves :=
    .failed (fails 11 "c" rfl) (made _) (stands _) (.failed (fails 10 "b" rfl) (made _) (stands _)
      (.failed (fails 11 "c" rfl) (made _) (stands _) .nil))
  have tells : ∀ d, (failed d).gist.Tells groves := fun d => gist_tells (made d) (stands d)
  have same : ∀ ρ ∈ storesOf groves [failed "c", failed "b", failed "c"], ρ = groves := by
    intro ρ member
    simpa [storesOf, failed] using member
  refine nested_alternatives (t := tree) tried ?_ (fun ρ member => ?_) (fun ρ member => ?_) rfl
  · refine .cons ?_ (.cons ?_ (.cons ?_ .nil)) <;> simp [failed] <;> exact tells _
  · rw [same ρ member]
    rfl
  · rw [same ρ member]
    exact ⟨rfl, trivial, ⟨rfl, trivial, trivial, trivial⟩, trivial⟩

/-- In a store a tree and a single choice among its leaves come to different things. -/
def ChoiceTree.Strays (t : ChoiceTree) (single : ParserId) (m : Machine) (σ : Store) : Prop :=
  t.Stands σ ∧ σ.behaviour? single = some (.alternative t.leaves) ∧
    outcome (m.run t.root (.str "z") (.int 0) .none σ) ≠ outcome (m.run single (.str "z") (.int 0) .none σ)

/-- Nesting matters where a leaf fails without a list or at no number, changes the list of a failure before it
or a choice that follows, and where a tracer refuses to hear of a choice in between. -/
theorem nesting_matters :
    (ChoiceTree.node 17 (.leaf 5) [.node 14 (.leaf 10) [.leaf 0]]).Strays 19 (machine unruly 9 9) groves ∧
      (ChoiceTree.node 20 (.leaf 6) [.node 14 (.leaf 10) [.leaf 0]]).Strays 21 (machine unruly 9 9) groves ∧
      (ChoiceTree.node 22 (.leaf 7) [.node 12 (.leaf 10) [.leaf 8]]).Strays 23 (machine unruly 9 9) groves ∧
      (ChoiceTree.node 24 (.leaf 9) [.node 13 (.leaf 10) [.leaf 11]]).Strays 25 (machine unruly 9 9) groves ∧
      (ChoiceTree.node 26 (.leaf 10) [.node 18 (.leaf 0) []]).Strays 14 (machine unruly 9 9)
        { groves with tracers := [.handler [("enter", leafFunction 5), ("exit", leafFunction 6)]] } := by
  refine ⟨⟨⟨rfl, trivial, ⟨rfl, trivial, trivial, trivial⟩, trivial⟩, rfl, nofun⟩,
    ⟨⟨rfl, trivial, ⟨rfl, trivial, trivial, trivial⟩, trivial⟩, rfl, nofun⟩,
    ⟨⟨rfl, trivial, ⟨rfl, trivial, trivial, trivial⟩, trivial⟩, rfl, ?_⟩,
    ⟨⟨rfl, trivial, ⟨rfl, trivial, trivial, trivial⟩, trivial⟩, rfl, nofun⟩,
    ⟨rfl, trivial, ⟨rfl, trivial, trivial⟩, trivial⟩, rfl, nofun⟩
  -- The list was read too late in the tree, after the last leaf had changed it.
  let listing (d : String) : Except Fault Value :=
    .ok (.result (.bool false) (.int 0) (.list [.str "c", .str "b", .str d]))
  show listing "n" ≠ listing "a"
  simp [listing]

end Rebind
