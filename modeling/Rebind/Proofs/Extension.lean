import Rebind.Proofs.Constructions
import Rebind.Proofs.Matching
import Rebind.Proofs.PegRuns
/-!
# Extending a parser by further choices

A parser is extended by giving it a choice between what it did so far, which lives on in a clone, and further
parsers.  Extending it by one parser after the other makes a chain of clones, and extending it by all at once
makes a single one.  Both do the same, also where the parser and its choices refer to the parser itself, which
then means the extended one: a choice whose first part is a choice again tries and merges as if the choices
stood in one list.

The runs of a chain are nested more deeply, by one level for each extension.  So the two evaluations are not
compared on machines of the same size, but on one that is large enough to follow the other.
-/
namespace Rebind

/-- Gives a parser further choices after what it does so far. -/
def Grammar.extend (target : ParserId) (choices : List ParserId) : Eval Unit := do
  let former ← Grammar.clone (.parser target)
  let both ← Grammar.alternative (former :: choices.map .parser)
  Grammar.replace (.parser target) both

/-! ### Choices between evaluations -/

/-- Settles on a success, and goes on otherwise. -/
def settle (next : Value → Eval Value) (v : Value) : Eval Value := do
  let r ← resultOf v
  if ← truthy r.status then return v else next v

/-- The first success among evaluations, after what came before. -/
def firstAmong : List (Eval Value) → Value → Eval Value
  | [], previous => return previous
  | x :: xs, previous => do
    let outcome ← x
    let merged ← mergeOver outcome previous
    settle (firstAmong xs) merged

section Choices

variable {σ : Store} {x y : Eval Value} {xs ys : List (Eval Value)} {previous : Value}

/-- A choice is the first success among the runs of its parsers. -/
theorem alternativeFrom_eq (m : Machine) (text i env : Value) (ps : List ParserId) (previous : Value) :
    Behave.alternativeFrom m text i env ps previous =
      firstAmong (ps.map fun p => m.run p text i env) previous := by
  induction ps generalizing previous with
  | nil => rfl
  | cons p ps ih =>
    unfold Behave.alternativeFrom
    simp only [List.map_cons, firstAmong, settle, ih]

/-- What settling comes to, by the status of the result. -/
theorem settle_eq (next : Value → Eval Value) (v : Value) (σ : Store) : settle next v σ =
    match v.result? with
    | some r => if (σ.view r.status).isTruthy then .ok v σ else next v σ
    | none => .error (.raised (.error .missingAttribute)) σ := by
  unfold settle resultOf
  cases v.result? with
  | none => rfl
  | some r =>
    simp only [truthy, view, Bind.bind, EStateM.bind, pure, EStateM.pure]
    cases (σ.view r.status).isTruthy <;> rfl

/-- What was settled stays settled. -/
theorem settle_bind (f g : Value → Eval Value) (v : Value) :
    settle f v >>= settle g = settle (fun u => f u >>= settle g) v := by
  funext σ
  simp only [settle_eq, Bind.bind, EStateM.bind]
  cases known : v.result? with
  | none => rfl
  | some r =>
    by_cases succeeded : (σ.view r.status).isTruthy
    · simp only [succeeded, if_true, known]
    · simp only [succeeded, Bool.false_eq_true, if_false]

/-- Settling twice is settling once. -/
theorem settle_settle (f : Value → Eval Value) (v : Value) : settle (settle f) v = settle f v := by
  funext σ
  simp only [settle_eq]
  cases v.result? with
  | none => rfl
  | some r => by_cases succeeded : (σ.view r.status).isTruthy <;> simp [succeeded]

/-- Choices in two groups: the second group is tried if the first one has not settled the matter. -/
theorem firstAmong_append (x : Eval Value) (xs ys : List (Eval Value)) (previous : Value) :
    firstAmong (x :: xs ++ ys) previous = firstAmong (x :: xs) previous >>= settle (firstAmong ys) := by
  induction xs generalizing x previous with
  | nil =>
    have last : ∀ merged, settle (firstAmong []) merged >>= settle (firstAmong ys) =
        settle (firstAmong ys) merged := by
      intro merged
      rw [settle_bind]
      exact settle_settle (firstAmong ys) merged
    simp only [List.cons_append, List.nil_append, firstAmong, bind_assoc] at last ⊢
    simp only [last]
  | cons y xs ih =>
    have later : firstAmong (y :: xs ++ ys) = fun u => firstAmong (y :: xs) u >>= settle (firstAmong ys) := by
      funext u
      exact ih y u
    rw [List.cons_append, firstAmong, later, firstAmong]
    simp only [bind_assoc, settle_bind]

/-- A choice whose first part is a choice does the same as all the choices in one list. -/
theorem firstAmong_nested (x : Eval Value) (xs ys : List (Eval Value)) :
    firstAmong (firstAmong (x :: xs) .none :: ys) .none = firstAmong (x :: xs ++ ys) .none := by
  rw [firstAmong_append, firstAmong]
  simp only [mergeOver_none, pure_bind]

/-- The first choice is evaluated in the store as it is. -/
theorem firstAmong_congr (same : x σ = y σ) :
    firstAmong (x :: xs) previous σ = firstAmong (y :: xs) previous σ := by
  simp only [firstAmong, Bind.bind, EStateM.bind, same]

/-- If the first choice is given up, so are all. -/
theorem firstAmong_error {e : Fault} {τ : Store} (ended : x σ = .error e τ) :
    firstAmong (x :: xs) previous σ = .error e τ := by
  simp only [firstAmong, Bind.bind, EStateM.bind, ended]

theorem agrees_firstAmong {limits : Fault → Prop} {σ σ' : Store} (data : σ.SameData σ')
    {xs ys : List (Eval Value)} (h : List.Forall₂ (Agrees limits σ σ' (Value.Parserless σ)) xs ys)
    {previous : Value} (hp : previous.Parserless σ) :
    Agrees limits σ σ' (Value.Parserless σ) (firstAmong xs previous) (firstAmong ys previous) := by
  induction h generalizing previous with
  | nil => exact agrees_pure hp
  | cons head _ ih =>
    refine head.bind fun outcome free => (agrees_mergeOver data free hp).bind fun merged free => ?_
    exact agrees_decide data free (fun r _ => agrees_pure free) fun r _ => ih free

end Choices

/-! ### Chains of extensions -/

/-- A behaviour that has grown from a first one by choices, in so many levels.  On each level a parser stands
for what was there before, and it is not the parser that is extended. -/
inductive Grown (σ : Store) (target : ParserId) (first : Behaviour Value) :
    Behaviour Value → List ParserId → Nat → Prop
  | first : Grown σ target first first [] 0
  | more {former : ParserId} {b : Behaviour Value} {choices further : List ParserId} {levels : Nat}
    (other : former ≠ target) (now : σ.behaviour? former = some b)
    (h : Grown σ target first b choices levels) :
    Grown σ target first (.alternative (former :: further)) (choices ++ further) (levels + 1)

/-- A parser has grown as long as the other parsers keep what they do. -/
theorem Grown.mono {σ τ : Store} {target : ParserId} {first b : Behaviour Value} {choices : List ParserId}
    {levels : Nat} (h : Grown σ target first b choices levels)
    (still : ∀ p c, p ≠ target → σ.behaviour? p = some c → τ.behaviour? p = some c) :
    Grown τ target first b choices levels := by
  induction h with
  | first => exact .first
  | more other now _ ih => exact .more other (still _ _ other now) ih

/-- The evaluation is a run of the parser on a machine of a size between two bounds. -/
def RunWithin (host : Host) (rounds : Nat) (text i env : Value) (low high : Nat) (x : Eval Value)
    (p : ParserId) : Prop :=
  ∃ depth, low ≤ depth ∧ depth ≤ high ∧ x = (machine host rounds depth).run p text i env

section Grown

variable {host : Host} {rounds : Nat} {text i env : Value}

/-- Runs on machines between two heights. -/
theorem runWithin_map {low high depth : Nat} (above : low ≤ depth) (below : depth ≤ high)
    (ps : List ParserId) : List.Forall₂ (RunWithin host rounds text i env low high)
      (ps.map fun p => (machine host rounds depth).run p text i env) ps := by
  induction ps with
  | nil => exact .nil
  | cons p ps ih => exact .cons ⟨depth, above, below, rfl⟩ ih

/-- What has grown does the same as the first behaviour and all choices in one list, each on a machine that is
smaller by at most the number of levels. -/
theorem Grown.behave_eq {σ : Store} {target : ParserId} {first b : Behaviour Value}
    {choices : List ParserId} {levels : Nat} (h : Grown σ target first b choices levels)
    (untraced : σ.tracers = []) (some : 0 < levels) (host : Host) (rounds depth : Nat)
    (text i env : Value) :
    ∃ former xs, σ.behaviour? former = .some first ∧
      behave (machine host rounds depth) b text i env σ =
        firstAmong ((machine host rounds (depth - (levels - 1))).run former text i env :: xs) .none σ ∧
      List.Forall₂ (RunWithin host rounds text i env (depth - (levels - 1)) depth) xs choices := by
  induction h generalizing depth with
  | first => exact absurd some (Nat.lt_irrefl 0)
  | @more former b choices further levels other now h ih =>
    have flat : behave (machine host rounds depth) (.alternative (former :: further)) text i env =
        firstAmong ((machine host rounds depth).run former text i env ::
          further.map fun p => (machine host rounds depth).run p text i env) .none :=
      alternativeFrom_eq _ text i env (former :: further) .none
    rw [flat]
    rcases Nat.eq_zero_or_pos levels with rfl | positive
    · cases h
      exact ⟨former, _, now, rfl, runWithin_map (Nat.sub_le _ _) (Nat.le_refl _) further⟩
    cases depth with
    | zero =>
      -- Nothing can be run, so the head is given up on both sides.
      obtain ⟨c, _, does, _⟩ := ih positive 0
      refine ⟨c, _, does, ?_, runWithin_map (Nat.sub_le _ _) (Nat.le_refl 0) (choices ++ further)⟩
      have refused : ∀ p, (machine host rounds 0).run p text i env σ =
          .error (.raised (.error .tooDeep)) { σ with overran := true } := fun _ => rfl
      rw [Nat.zero_sub]
      exact (firstAmong_error (refused former)).trans (firstAmong_error (refused c)).symm
    | succ depth =>
      obtain ⟨c, xs, does, same, each⟩ := ih positive depth
      have smaller : depth + 1 - (levels + 1 - 1) = depth - (levels - 1) := by omega
      refine ⟨c, xs ++ further.map fun p => (machine host rounds (depth + 1)).run p text i env, does, ?_, ?_⟩
      · have head : (machine host rounds (depth + 1)).run former text i env σ = _ :=
          (run_above text i env untraced now).trans same
        rw [smaller, ← List.cons_append, ← firstAmong_nested]
        exact firstAmong_congr head
      · rw [smaller]
        refine List.rel_append ?_ (runWithin_map (by omega) (Nat.le_refl _) further)
        refine each.imp fun x p within => ?_
        obtain ⟨e, low, high, same⟩ := within
        exact ⟨e, low, by omega, same⟩

end Grown

/-! ### Extended stores follow each other -/

/-- Parsers of a grammar, each paired with itself. -/
def Itself (grammar : ParserId → Prop) (p q : ParserId) : Prop := q = p ∧ grammar p

/-- Parsers that refer only to each other, use no function of the user, report to no trace handler and hold
no parser as a value, in a store without active tracers. -/
structure Inert (σ : Store) (grammar : ParserId → Prop) : Prop where
  untraced : σ.tracers = []
  parsers : ∀ p, grammar p → ∃ b, σ.behaviour? p = some b ∧
    b.Matches (Itself grammar) (Value.Parserless σ) b

/-- What has become of a store when one parser of a grammar was extended by choices, in so many levels. -/
structure Extended (σ : Store) (grammar : ParserId → Prop) (target : ParserId) (choices : List ParserId)
    (levels : Nat) (τ : Store) : Prop where
  data : σ.SameData τ
  untraced : τ.tracers = []
  others : ∀ p b, grammar p → p ≠ target → σ.behaviour? p = some b → τ.behaviour? p = some b
  grown : ∃ first b, σ.behaviour? target = some first ∧ τ.behaviour? target = some b ∧
    Grown τ target first b choices levels

def TooDeep (e : Fault) : Prop := e = .raised (.error .tooDeep)

section Extended

variable {σ τ τ' : Store} {grammar : ParserId → Prop} {target : ParserId} {choices : List ParserId}
  {levels levels' : Nat} {host : Host} {rounds : Nat} {text i env : Value}

theorem agrees_each {low high low' high' : Nat} {xs ys : List (Eval Value)}
    (left : List.Forall₂ (RunWithin host rounds text i env low high) xs choices)
    (right : List.Forall₂ (RunWithin host rounds text i env low' high') ys choices)
    (inside : ∀ p ∈ choices, grammar p)
    (runs : ∀ p e e', grammar p → e ≤ high → low' ≤ e' →
      Agrees TooDeep τ τ' (Value.Parserless τ) ((machine host rounds e).run p text i env)
        ((machine host rounds e').run p text i env)) :
    List.Forall₂ (Agrees TooDeep τ τ' (Value.Parserless τ)) xs ys := by
  induction left generalizing ys with
  | nil =>
    cases right
    exact .nil
  | cons head _ ih =>
    cases right with
    | cons head' rest' =>
      obtain ⟨e, _, below, rfl⟩ := head
      obtain ⟨e', above, _, rfl⟩ := head'
      refine .cons (runs _ e e' (inside _ (List.mem_cons_self ..)) below above) ?_
      exact ih rest' fun p member => inside p (List.mem_cons_of_mem _ member)

/-- A store that was extended in some way follows one that was extended in another way, on machines which are
larger by a factor. -/
theorem Extended.follows (inert : Inert σ grammar) (h : Extended σ grammar target choices levels τ)
    (h' : Extended σ grammar target choices levels' τ') (some : 0 < levels) (some' : 0 < levels')
    (known : grammar target) (inside : ∀ p ∈ choices, grammar p) (ht : text.Parserless σ) (env : Value)
    {depth depth' : Nat} (enough : levels' * depth ≤ depth') {p : ParserId} (member : grammar p)
    (hi : i.Parserless σ) :
    Agrees TooDeep τ τ' (Value.Parserless τ) ((machine host rounds depth).run p text i env)
      ((machine host rounds depth').run p text i env) := by
  induction depth using Nat.strongRecOn generalizing depth' p i with
  | ind depth ih =>
  have data : τ.SameData τ' := h.data.symm.trans h'.data
  have free : ∀ v : Value, v.Parserless σ → v.Parserless τ := fun v known => known.congr h.data
  -- What runs on a machine that is smaller by one level finds room on the other side.
  have room : ∀ e, e < depth → levels' * e + levels' ≤ depth' := fun e less =>
    Nat.le_trans (Nat.mul_le_mul_left levels' less) enough
  have below : ∀ e e', e < depth → levels' * e ≤ e' →
      Machines.Agree TooDeep τ τ' (Itself grammar) text env (machine host rounds e)
        (machine host rounds e') := by
    intro e e' less enough
    refine ⟨by rw [machine_rounds, machine_rounds], ?_⟩
    rintro p _ i ⟨rfl, member⟩ hi
    exact ih e less enough member (hi.congr h.data.symm)
  cases depth with
  | zero => exact tandem_of_limit rfl rfl
  | succ depth =>
    have larger := room depth (Nat.lt_succ_self depth)
    obtain ⟨depth', rfl⟩ : ∃ n, depth' = n + 1 := ⟨depth' - 1, by omega⟩
    by_cases same : p = target
    · obtain ⟨first, b, does, now, grown⟩ := h.grown
      obtain ⟨first', b', does', now', grown'⟩ := h'.grown
      obtain rfl := Option.some.inj (does.symm.trans does')
      obtain ⟨_, does'', matched⟩ := inert.parsers target known
      obtain rfl := Option.some.inj (does.symm.trans does'')
      rw [same]
      obtain ⟨c, xs, here, flat, each⟩ := grown.behave_eq h.untraced some host rounds depth text i env
      obtain ⟨c', ys, here', flat', each'⟩ :=
        grown'.behave_eq h'.untraced some' host rounds depth' text i env
      refine Tandem.congr ?_ ((run_above text i env h.untraced now).trans flat)
        ((run_above text i env h'.untraced now').trans flat')
      refine agrees_firstAmong data (.cons ?_ (agrees_each each each' inside ?_)) parserless_none
      · cases left : depth - (levels - 1) with
        | zero => exact tandem_of_limit rfl rfl
        | succ e =>
          have larger' := room (e + 1) (by omega)
          rw [Nat.mul_succ] at larger'
          obtain ⟨e', right⟩ : ∃ n, depth' - (levels' - 1) = n + 1 :=
            ⟨depth' - (levels' - 1) - 1, by omega⟩
          rw [right]
          exact agrees_run_above data h.untraced h'.untraced (below e e' (by omega) (by omega)) here here'
            (matched.mono (fun _ _ led => led) free) (free _ ht) (free _ hi)
      · intro p e e' member low high
        have := room e (by omega)
        exact ih e (by omega) (by omega) member hi
    · obtain ⟨b, does, matched⟩ := inert.parsers p member
      exact agrees_run_above data h.untraced h'.untraced (below depth depth' (by omega) (by omega))
        (h.others p b member same does) (h'.others p b member same does)
        (matched.mono (fun _ _ led => led) free) (free _ ht) (free _ hi)

end Extended

/-! ### What extending does -/

section Extend

variable {σ τ : Store} {grammar : ParserId → Prop} {target : ParserId} {choices : List ParserId}
  {levels : Nat}

theorem exists_of_behaviour? {p : ParserId} {b : Behaviour Value} (h : σ.behaviour? p = some b) :
    ∃ state, σ.parser? p = some state ∧ p < σ.parsers.size := by
  obtain ⟨state, there, _⟩ := Option.bind_eq_some_iff.mp h
  exact ⟨state, there, (Array.getElem?_eq_some_iff.mp there).1⟩

theorem content_of_behaviour? {p : ParserId} {b : Behaviour Value} {state : ParserState}
    (h : σ.behaviour? p = some b) (there : σ.parser? p = some state) :
    state.behaviour.content = .behaviour b := by
  simp only [Store.behaviour?, there, Option.bind_some] at h
  split at h
  · next c same =>
    obtain rfl := Option.some.inj h
    exact same
  · cases h

/-- A clone is a parser more, with the behaviour of the original. -/
theorem clone_eq {state : ParserState} (there : σ.parser? target = some state) :
    ∃ name, Grammar.clone (.parser target) σ =
      .ok (.parser σ.parsers.size) (σ.withParser ⟨state.behaviour, name⟩) := by
  have inside : target < σ.parsers.size := (Array.getElem?_eq_some_iff.mp there).1
  have behaviour : attributeOf (.parser target) "behaviour" σ = .ok state.behaviour σ := by
    have read : attributeOf (.parser target) "behaviour" σ =
        .ok (((σ.parser? target).map (·.behaviour)).getD .none) σ := rfl
    rw [read, there]
    rfl
  have name : attributeOf (.parser target) "display_name" σ = .ok state.displayName σ := by
    have read : attributeOf (.parser target) "display_name" σ =
        .ok (((σ.parser? target).map (·.displayName)).getD .none) σ := rfl
    rw [read, there]
    rfl
  have shown : truthy state.displayName σ = .ok (σ.view state.displayName).isTruthy σ := rfl
  simp only [Grammar.clone, Grammar.ofBehaviour, Bind.bind, EStateM.bind, parserOf_eq inside, behaviour, name,
    shown]
  cases (σ.view state.displayName).isTruthy with
  | true => exact ⟨_, rfl⟩
  | false => exact ⟨_, rfl⟩

/-- Parsers that exist are let through as they are. -/
theorem parsersOf_eq {function : String} (ps : List ParserId) (inside : ∀ p ∈ ps, p < σ.parsers.size) :
    (ps.map Value.parser).mapM (Grammar.parserOf function) σ = .ok ps σ := by
  induction ps with
  | nil => rfl
  | cons p ps ih =>
    have here := inside p (List.mem_cons_self ..)
    have rest := ih fun q member => inside q (List.mem_cons_of_mem _ member)
    simp only [List.map_cons, List.mapM_cons, Bind.bind, EStateM.bind, parserOf_eq here, rest]
    rfl

/-- A choice between parsers that exist is a parser more. -/
theorem alternative_eq (p : ParserId) (ps : List ParserId) (inside : ∀ q ∈ p :: ps, q < σ.parsers.size) :
    ∃ name, Grammar.alternative ((p :: ps).map Value.parser) σ =
      .ok (.parser σ.parsers.size) (Store.withParser { σ with nextObject := σ.nextObject + 1 }
        ⟨.object σ.nextObject (.behaviour (.alternative (p :: ps))), name⟩) := by
  have parsers : ((p :: ps).map Value.parser).mapM (Grammar.parserOf "alternative") σ = .ok (p :: ps) σ :=
    parsersOf_eq (p :: ps) inside
  have some : ((p :: ps).map Value.parser).isEmpty = false := rfl
  refine ⟨.str ("alternative(*" ++ toString (p :: ps).length ++ ")"), ?_⟩
  simp only [Grammar.alternative, some, Bool.false_eq_true, if_false, Bind.bind, EStateM.bind, parsers]
  rfl

/-- Extending a parser leaves its clone with what it did so far, and changes no other parser. -/
theorem extend_eq {b : Behaviour Value} (now : σ.behaviour? target = some b)
    (inside : ∀ p ∈ choices, p < σ.parsers.size) :
    ∃ τ, Grammar.extend target choices σ = .ok () τ ∧ σ.SameData τ ∧ τ.tracers = σ.tracers ∧
      (∀ p c, p ≠ target → σ.behaviour? p = some c → τ.behaviour? p = some c) ∧
      τ.behaviour? σ.parsers.size = some b ∧
      τ.behaviour? target = some (.alternative (σ.parsers.size :: choices)) := by
  obtain ⟨state, there, old⟩ := exists_of_behaviour? now
  have content := content_of_behaviour? now there
  obtain ⟨name, cloned⟩ := clone_eq there
  let cloning : Store := σ.withParser ⟨state.behaviour, name⟩
  have size : cloning.parsers.size = σ.parsers.size + 1 := Array.size_push _
  have present : ∀ p ∈ σ.parsers.size :: choices, p < cloning.parsers.size := by
    intro p member
    rw [size]
    rcases List.mem_cons.mp member with rfl | member
    · exact Nat.lt_succ_self _
    · exact Nat.lt_succ_of_lt (inside p member)
  obtain ⟨title, chosen⟩ := alternative_eq σ.parsers.size choices present
  let choice : ParserState :=
    ⟨.object cloning.nextObject (.behaviour (.alternative (σ.parsers.size :: choices))), title⟩
  let choosing : Store := Store.withParser { cloning with nextObject := cloning.nextObject + 1 } choice
  have made : choosing.parser? cloning.parsers.size = some choice := Array.getElem?_push_size
  have size' : choosing.parsers.size = cloning.parsers.size + 1 := Array.size_push _
  have known : target < choosing.parsers.size := by
    rw [size', size]
    exact Nat.lt_succ_of_lt (Nat.lt_succ_of_lt old)
  have former : ∀ p, p < cloning.parsers.size → choosing.behaviour? p = cloning.behaviour? p := fun p =>
    behaviour?_withParser_lt (σ := { cloning with nextObject := cloning.nextObject + 1 }) choice
  refine ⟨choosing.setParser target choice, ?_, ⟨rfl, rfl⟩, rfl, ?_, ?_, ?_⟩
  · simp only [Grammar.extend, Bind.bind, EStateM.bind, cloned]
    rw [← List.map_cons, chosen]
    exact replace_eq known made
  · intro p c different does
    obtain ⟨_, _, before⟩ := exists_of_behaviour? does
    rw [behaviour?_setParser target choice p different, former p (size ▸ Nat.lt_succ_of_lt before)]
    exact (behaviour?_withParser_lt _ before).trans does
  · have different : σ.parsers.size ≠ target := Nat.ne_of_gt old
    rw [behaviour?_setParser target choice _ different, former _ (size ▸ Nat.lt_succ_self _)]
    exact behaviour?_withParser_size content
  · rw [behaviour?_setParser_self known made]
    exact behaviour?_withParser_size (σ := { cloning with nextObject := cloning.nextObject + 1 }) rfl

/-- Extending a parser once more adds a level. -/
theorem Extended.extend (inert : Inert σ grammar) (h : Extended σ grammar target choices levels τ)
    {further : List ParserId} (inside : ∀ p ∈ further, grammar p) :
    ∃ υ, Grammar.extend target further τ = .ok () υ ∧
      Extended σ grammar target (choices ++ further) (levels + 1) υ := by
  obtain ⟨first, b, does, now, grown⟩ := h.grown
  have present : ∀ p ∈ further, p < τ.parsers.size := by
    intro p member
    by_cases same : p = target
    · rw [same]
      exact (exists_of_behaviour? now).choose_spec.2
    · obtain ⟨c, does, _⟩ := inert.parsers p (inside p member)
      exact (exists_of_behaviour? (h.others p c (inside p member) same does)).choose_spec.2
  obtain ⟨υ, extended, data, tracers, others, former, last⟩ := extend_eq now present
  have old : target ≠ τ.parsers.size := Nat.ne_of_lt (exists_of_behaviour? now).choose_spec.2
  refine ⟨υ, extended, h.data.trans data, tracers.trans h.untraced, ?_, ?_⟩
  · intro p c member different does
    exact others p c different (h.others p c member different does)
  · exact ⟨first, _, does, last, .more old.symm former (grown.mono others)⟩

/-- Nothing has grown yet. -/
theorem Inert.extended (inert : Inert σ grammar) (known : grammar target) :
    Extended σ grammar target [] 0 σ := by
  obtain ⟨b, does, _⟩ := inert.parsers target known
  exact ⟨⟨rfl, rfl⟩, inert.untraced, fun _ _ _ _ does => does, b, b, does, does, .first⟩

/-- Extending a parser by one choice after the other adds as many levels as there are choices. -/
theorem Extended.extend_each (inert : Inert σ grammar) (h : Extended σ grammar target choices levels τ)
    {further : List ParserId} (inside : ∀ p ∈ further, grammar p) :
    ∃ υ, (further.forM fun p => Grammar.extend target [p]) τ = .ok () υ ∧
      Extended σ grammar target (choices ++ further) (levels + further.length) υ := by
  induction further generalizing choices levels τ with
  | nil => exact ⟨τ, rfl, by simpa using h⟩
  | cons p ps ih =>
    have here : ∀ q ∈ [p], grammar q := by
      simpa using inside p (List.mem_cons_self ..)
    obtain ⟨υ, first, h'⟩ := h.extend inert here
    obtain ⟨ω, rest, h''⟩ := ih h' fun q member => inside q (List.mem_cons_of_mem _ member)
    refine ⟨ω, ?_, ?_⟩
    · show (Grammar.extend target [p] >>= fun _ => ps.forM fun q => Grammar.extend target [q]) τ = _
      simp only [Bind.bind, EStateM.bind, first]
      exact rest
    · have levels' : levels + 1 + ps.length = levels + (p :: ps).length := by
        simp only [List.length_cons]
        omega
      rw [List.append_assoc, List.singleton_append, levels'] at h''
      exact h''

/-- What comes out with enough room where a parser was extended in one way comes out with enough room where
it was extended in another way. -/
theorem Extended.soon (inert : Inert σ grammar) {levels' : Nat} {τ' : Store}
    (h : Extended σ grammar target choices levels τ) (h' : Extended σ grammar target choices levels' τ')
    (some : 0 < levels) (some' : 0 < levels') (known : grammar target) (inside : ∀ p ∈ choices, grammar p)
    {host : Host} {p : ParserId} (member : grammar p) {text i env : Value} (ht : text.Parserless σ)
    (hi : i.Parserless σ) {o : Except Fault Value} (free : o ≠ .error (.raised (.error .tooDeep)))
    (ended : Soon host fun m => outcome (m.run p text i env τ) = o) :
    Soon host fun m => outcome (m.run p text i env τ') = o := by
  obtain ⟨room, ended⟩ := ended
  refine ⟨max room (levels' * room), fun rounds depth enough deep => ?_⟩
  have first := ended rounds room (by omega) (Nat.le_refl room)
  have follows : Agrees TooDeep τ τ' _ ((machine host rounds room).run p text i env)
      ((machine host rounds depth).run p text i env) :=
    h.follows inert h' some some' known inside ht env (by omega) member hi
  have same := follows.outcome_eq (fun _ _ _ _ same => same.1) ?_
  · exact same.trans first
  · rintro e met rfl
    exact free (first.symm.trans met)

/-- Extending a parser by one choice after the other and by all at once leaves stores in which every parser
that was there before comes to the same, given enough room for its nesting and its rounds: to the same result,
the same error, or to no end of its rounds. -/
theorem extend_stepwise (host : Host) (inert : Inert σ grammar) (known : grammar target)
    (inside : ∀ p ∈ choices, grammar p) (some : choices ≠ []) :
    ∃ τ τ', (choices.forM fun p => Grammar.extend target [p]) σ = .ok () τ ∧
      Grammar.extend target choices σ = .ok () τ' ∧
      ∀ p, grammar p → ∀ text i env : Value, text.Parserless σ → i.Parserless σ →
        ∀ o : Except Fault Value, o ≠ .error (.raised (.error .tooDeep)) →
          (Soon host (fun m => outcome (m.run p text i env τ) = o) ↔
            Soon host fun m => outcome (m.run p text i env τ') = o) := by
  have start := inert.extended known
  obtain ⟨τ, stepwise, h⟩ := start.extend_each inert inside
  obtain ⟨τ', once, h'⟩ := start.extend inert inside
  rw [List.nil_append, Nat.zero_add] at h h'
  have positive : 0 < choices.length := List.length_pos_of_ne_nil some
  refine ⟨τ, τ', stepwise, once, fun p member text i env ht hi o free => ⟨?_, ?_⟩⟩
  · exact h.soon inert h' positive Nat.zero_lt_one known inside member ht hi free
  · exact h'.soon inert h Nat.zero_lt_one positive known inside member ht hi free

end Extend

private def unused : Host := ⟨fun _ _ _ => return .none, Value.share⟩

/-- Parser 5 reads an `x`.  Parsers 10 and 11 read what parser 5 reads, in round and in square brackets. -/
private def brackets : Store :=
  { Store.initial with
    parsers := Store.initial.parsers ++ #[⟨.object 5 (.behaviour (.string "x")), .str "string('x')"⟩,
      ⟨.object 6 (.behaviour (.string "(")), .str "string('(')"⟩,
      ⟨.object 7 (.behaviour (.string ")")), .str "string(')')"⟩,
      ⟨.object 8 (.behaviour (.string "[")), .str "string('[')"⟩,
      ⟨.object 9 (.behaviour (.string "]")), .str "string(']')"⟩,
      ⟨.object 10 (.behaviour (.sequence [6, 5, 7])), .str "sequence(*3)"⟩,
      ⟨.object 11 (.behaviour (.sequence [8, 5, 9])), .str "sequence(*3)"⟩]
    nextObject := 12 }

/-- A recursive parser for brackets, extended in two ways. -/
theorem extend_stepwise_brackets : ∃ τ τ',
    ([10, 11].forM fun p => Grammar.extend 5 [p]) brackets = .ok () τ ∧
      Grammar.extend 5 [10, 11] brackets = .ok () τ' ∧
      (Soon unused (fun m => outcome (m.run 5 (.str "(x") (.int 0) .none τ) =
          .ok (.failure (.int 2) (.str "')'"))) ↔
        Soon unused fun m => outcome (m.run 5 (.str "(x") (.int 0) .none τ') =
          .ok (.failure (.int 2) (.str "')'"))) := by
  have inert : Inert brackets (· < 12) := by
    refine ⟨rfl, fun p known => ?_⟩
    have itself : ∀ q : Nat, q < 12 → Itself (· < 12) q q := fun q inside => ⟨rfl, inside⟩
    have cases : ∀ n : Nat, n < 12 → n < 10 ∨ n = 10 ∨ n = 11 := by omega
    rcases cases p known with leaf | rfl | rfl
    · have cases : ∀ n : Nat, n < 10 → n = 0 ∨ n = 1 ∨ n = 2 ∨ n = 3 ∨ n = 4 ∨ n = 5 ∨ n = 6 ∨
          n = 7 ∨ n = 8 ∨ n = 9 := by omega
      rcases cases p leaf with rfl | rfl | rfl | rfl | rfl | rfl | rfl | rfl | rfl | rfl <;>
        exact ⟨_, rfl, .primitive trivial⟩
    · exact ⟨_, rfl, .sequence (.cons (itself 6 (by decide)) (.cons (itself 5 (by decide))
        (.cons (itself 7 (by decide)) .nil)))⟩
    · exact ⟨_, rfl, .sequence (.cons (itself 8 (by decide)) (.cons (itself 5 (by decide))
        (.cons (itself 9 (by decide)) .nil)))⟩
  have known : (5 : ParserId) < 12 := by decide
  have inside : ∀ p ∈ ([10, 11] : List ParserId), p < 12 := by decide
  obtain ⟨τ, τ', stepwise, once, same⟩ := extend_stepwise unused inert known inside (by decide)
  exact ⟨τ, τ', stepwise, once, same 5 (by decide) _ _ _ (parserless_str _) (parserless_int _) _ (by simp)⟩

end Rebind
