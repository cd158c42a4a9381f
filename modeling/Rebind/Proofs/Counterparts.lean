import Rebind.Proofs.Constructions
import Rebind.Proofs.Identities
import Rebind.Proofs.Mirrors
import Rebind.Proofs.Steps
/-!
# Different parsers on the two sides

A grammar and another one that is to do the same have different parsers, and one of the two may build
parsers while it runs.  So two evaluations are compared here of which the second one has parsers that the
first one has not, and no tracer is active.  What a parser does on a side is known from some point on,
and parsers of the two sides that run alike are counterparts.
-/
namespace Rebind

variable {share : Value → Eval Value} {M : Resemblance share} {w u : M.World} {α β : Type}

/-! ### What parsers do -/

/-- From now on a parser does something on the first side, and no tracer hears of it. -/
def Resemblance.FirstDoes (M : Resemblance share) (w : M.World) (p : ParserId) (b : Behaviour Value) : Prop :=
  ∀ u σ σ', M.later w u → M.stores u σ σ' → σ.tracers = [] ∧ σ.behaviour? p = some b

/-- From now on a parser does something on the second side, and no tracer hears of it. -/
def Resemblance.SecondDoes (M : Resemblance share) (w : M.World) (p : ParserId) (b : Behaviour Value) : Prop :=
  ∀ u σ σ', M.later w u → M.stores u σ σ' → σ'.tracers = [] ∧ σ'.behaviour? p = some b

section Does

variable {p q : ParserId} {b : Behaviour Value} {host : Host} {m : Machine} {text i env : Value}
  {R : M.World → α → β → Prop}

theorem Resemblance.FirstDoes.later (h : M.FirstDoes w p b) (led : M.later w u) : M.FirstDoes u p b :=
  fun _ _ _ led' hs => h _ _ _ (M.later_trans led led') hs

theorem Resemblance.SecondDoes.later (h : M.SecondDoes w p b) (led : M.later w u) : M.SecondDoes u p b :=
  fun _ _ _ led' hs => h _ _ _ (M.later_trans led led') hs

/-- On the first side, a run of a parser may be replaced by its behaviour, one machine down. -/
theorem follows_first_bind {γ : Type} {f : Value → Eval γ} {y : Eval β} {R : M.World → γ → β → Prop}
    (does : M.FirstDoes w p b) (h : M.Follows w (behave m b text i env >>= f) y R) :
    M.Follows w ((m.above host).run p text i env >>= f) y R := by
  intro σ σ' hs
  obtain ⟨untraced, now⟩ := does w σ σ' (M.later_refl w) hs
  refine Ends.congr ?_ (h σ σ' hs)
  simp only [Bind.bind, EStateM.bind, run_above text i env untraced now]

/-- So it may on the second side. -/
theorem follows_second_bind {δ : Type} {g : Value → Eval δ} {x : Eval α} {R : M.World → α → δ → Prop}
    (does : M.SecondDoes w q b) (h : M.Follows w x (behave m b text i env >>= g) R) :
    M.Follows w x ((m.above host).run q text i env >>= g) R := by
  intro σ σ' hs
  obtain ⟨untraced, now⟩ := does w σ σ' (M.later_refl w) hs
  have same : ((m.above host).run q text i env >>= g) σ' = (behave m b text i env >>= g) σ' := by
    simp only [Bind.bind, EStateM.bind, run_above text i env untraced now]
  rw [same]
  exact h σ σ' hs

theorem follows_first {y : Eval β} {R : M.World → Value → β → Prop} (does : M.FirstDoes w p b)
    (h : M.Follows w (behave m b text i env) y R) : M.Follows w ((m.above host).run p text i env) y R := by
  rw [← bind_pure ((m.above host).run p text i env)]
  refine follows_first_bind does ?_
  rw [bind_pure]
  exact h

theorem follows_second {x : Eval α} {R : M.World → α → Value → Prop} (does : M.SecondDoes w q b)
    (h : M.Follows w x (behave m b text i env) R) : M.Follows w x ((m.above host).run q text i env) R := by
  rw [← bind_pure ((m.above host).run q text i env)]
  refine follows_second_bind does ?_
  rw [bind_pure]
  exact h

theorem inside_of_behaviour? {σ : Store} (h : σ.behaviour? p = some b) : p < σ.parsers.size := by
  obtain ⟨s, known, _⟩ := Option.bind_eq_some_iff.mp h
  exact (Array.getElem?_eq_some_iff.mp known).1

end Does

/-! ### Counterparts -/

/-- Parsers that exist on the first and on the second side. -/
def Resemblance.Exist (M : Resemblance share) (w : M.World) (p p' : ParserId) : Prop :=
  ∀ u σ σ', M.later w u → M.stores u σ σ' → p < σ.parsers.size ∧ p' < σ'.parsers.size

section Exist

variable {p p' : ParserId}

theorem Resemblance.Exist.later (h : M.Exist w p p') (led : M.later w u) : M.Exist u p p' :=
  fun _ _ _ led' hs => h _ _ _ (M.later_trans led led') hs

theorem Resemblance.SecondDoes.there {b : Behaviour Value} (h : M.SecondDoes w p' b) {σ σ' : Store}
    (hs : M.stores w σ σ') : p' < σ'.parsers.size := inside_of_behaviour? (h w σ σ' (M.later_refl w) hs).2

theorem Resemblance.Exist.there (h : M.Exist w p p') {σ σ' : Store} (hs : M.stores w σ σ') :
    p' < σ'.parsers.size := (h w σ σ' (M.later_refl w) hs).2

/-- Parsers with known behaviours exist. -/
theorem Resemblance.FirstDoes.exist {b b' : Behaviour Value} (h : M.FirstDoes w p b)
    (h' : M.SecondDoes w p' b') : M.Exist w p p' := fun u σ σ' led hs =>
  ⟨inside_of_behaviour? (h u σ σ' led hs).2, inside_of_behaviour? (h' u σ σ' led hs).2⟩

/-- A parser that exists on the second side is let through there. -/
theorem Resemblance.Exist.beside (h : M.Exist w p p') (function : String) :
    M.Beside w (Grammar.parserOf function (.parser p')) fun _ q' => q' = p' := fun σ σ' hs =>
  ⟨p', σ', w, parserOf_eq (h w σ σ' (M.later_refl w) hs).2, M.later_refl w, hs, rfl⟩

end Exist

/-- A parser of the first side and one of the second that do the same from now on at certain places, on machines
of which the second one is at least as high; so much is known of their results. -/
structure Resemblance.Counterparts {host : Host} (M : Resemblance host.share) (rounds : Nat)
    (places : Value → Prop) (R : M.World → Value → Value → Prop) (w : M.World) (p p' : ParserId) : Prop where
  exist : M.Exist w p p'
  run : ∀ {u depth higher text i env text' i' env'}, M.later w u → depth ≤ higher → places i →
    M.Given u text i env text' i' env' → M.Follows u ((machine host rounds depth).run p text i env)
      ((machine host rounds higher).run p' text' i' env') R

section Counterparts

variable {host : Host} {M : Resemblance host.share} {rounds : Nat} {places : Value → Prop}
  {R : M.World → Value → Value → Prop} {w u : M.World} {p p' : ParserId}

theorem Resemblance.Counterparts.later (h : M.Counterparts rounds places R w p p') (led : M.later w u) :
    M.Counterparts rounds places R u p p' :=
  ⟨h.exist.later led, fun led' => h.run (M.later_trans led led')⟩

/-- Nothing can be run at the bottom. -/
theorem follows_bottom {text i env : Value} {y : Eval β} {R : M.World → Value → β → Prop} :
    M.Follows w ((machine host rounds 0).run p text i env) y R :=
  fun _ _ _ => .inl (.inl rfl)

/-- Built-in parsers are counterparts if their behaviours, which run no parsers, follow one another. -/
theorem counterparts_of_behaviours {b b' : Behaviour Value} (first : M.FirstDoes w p b)
    (second : M.SecondDoes w p' b')
    (h : ∀ {u depth higher text i env text' i' env'}, M.later w u → depth ≤ higher → places i →
      M.Given u text i env text' i' env' → M.Follows u (behave (machine host rounds depth) b text i env)
        (behave (machine host rounds higher) b' text' i' env') R) :
    M.Counterparts rounds places R w p p' where
  exist := first.exist second
  run := by
    intro u depth higher text i env text' i' env' led le place given
    cases depth with
    | zero => exact follows_bottom
    | succ depth =>
      obtain ⟨below, rfl⟩ : ∃ below, higher = below + 1 := ⟨higher - 1, by omega⟩
      exact follows_first (first.later led) (follows_second (second.later led) (h led (by omega) place given))

/-- Leaves that go by the text alone are counterparts of themselves. -/
theorem counterparts_blind {b : Behaviour Value} (first : M.FirstDoes w p b) (second : M.SecondDoes w p' b)
    (blind : b.IsBlind) : M.Counterparts rounds places M.values w p p' :=
  counterparts_of_behaviours first second fun _ _ _ given => follows_blind blind given.text given.index

/-- Predicates that answer alike make counterparts. -/
theorem counterparts_testChar {f f' : Value} {d : String} (first : M.FirstDoes w p (.testChar f d))
    (second : M.SecondDoes w p' (.testChar f' d))
    (calls : ∀ {u depth higher c c' env env'}, M.later w u → depth ≤ higher → M.values u c c' →
      M.values u env env' → M.Follows u ((machine host rounds depth).call f [c, env])
        ((machine host rounds higher).call f' [c', env']) M.values) :
    M.Counterparts rounds places M.values w p p' :=
  counterparts_of_behaviours first second fun led le _ given => follows_testChar
    (fun led' item => calls (M.later_trans led led') le item (M.values_later led' given.env)) d given

end Counterparts

/-! ### Parsers that are built on the second side -/

/-- The second side may do more than the first one: give identities to values and build parsers.  Of a result
only the parts are looked at. -/
structure Resemblance.Grows (M : Resemblance share) : Prop where
  remade : ∀ {w v v' r r'}, M.values w v v' → v.result? = some r → r.Alike (M.values w) r' →
    M.values w v (.result r'.status r'.index r'.value)
  shared : ∀ {w v v'}, M.values w v v' → M.Beside w (share v') fun u v' => M.values u v v'
  defined : ∀ w b name, M.Beside w (Grammar.define b name) fun u v =>
    ∃ q, v = .parser q ∧ M.SecondDoes u q b

/-- The second side builds a parser with a behaviour. -/
def Resemblance.Builds (M : Resemblance share) (w : M.World) (y : Eval Value) (b : Behaviour Value) : Prop :=
  M.Beside w y fun u v => ∃ q, v = .parser q ∧ M.SecondDoes u q b

section Builds

variable {p p' : ParserId} {f v : Value}

theorem asks_checkCallable (function : String) (h : f.content.IsClosure) :
    Asks (Grammar.checkCallable function f) := by
  intro σ
  have callable : Grammar.isCallable f σ = .ok true σ := by
    unfold Grammar.isCallable
    cases made : f.content with
    | closure => rfl
    | _ =>
      rw [made] at h
      exact h.elim
  refine ⟨(), ?_⟩
  rw [Grammar.checkCallable, bind_ok callable]
  rfl

theorem asks_displayName (p : ParserId) : Asks (Grammar.displayName p) := fun _ => ⟨_, rfl⟩

/-- The second side builds parsers out of parsers and functions that it has: `succeed`, `chain` and
`sub_environment`. -/
theorem Resemblance.Grows.builds_succeed (h : M.Grows) (w : M.World) (v : Value) :
    M.Builds w (Grammar.succeed v) (.succeed v) :=
  (beside_asks (P := fun _ _ => True) (fun _ => ⟨_, rfl⟩) fun _ => trivial).bind fun u _ _ _ =>
    h.defined u _ _

/-- Combinators of a parser and a function build a parser that has both. -/
theorem Resemblance.Grows.builds_over (h : M.Grows) (exist : M.Exist w p p') (function : f.content.IsClosure)
    (name title : String) (make : ParserId → Behaviour Value) :
    M.Builds w (do
      let id ← Grammar.parserOf name (.parser p')
      Grammar.checkCallable name f
      Grammar.define (make id) (title ++ (← Grammar.displayName id) ++ ")")) (make p') := by
  have asked : ∀ {u : M.World} {β : Type} {y : Eval β}, Asks y → M.Beside u y fun _ _ => True :=
    fun asks => beside_asks asks fun _ => trivial
  refine (exist.beside _).bind fun _ q _ same => ?_
  subst same
  refine (asked (asks_checkCallable _ function)).bind fun _ _ _ _ => ?_
  exact (asked (asks_displayName q)).bind fun _ _ _ _ => h.defined _ _ _

theorem Resemblance.Grows.builds_chain (h : M.Grows) (exist : M.Exist w p p') (function : f.content.IsClosure) :
    M.Builds w (Grammar.chain (.parser p') f) (.chain p' f) :=
  h.builds_over exist function "chain" "chain(" (.chain · f)

theorem Resemblance.Grows.builds_subEnvironment (h : M.Grows) (exist : M.Exist w p p')
    (function : f.content.IsClosure) :
    M.Builds w (Grammar.subEnvironment (.parser p') f) (.subEnvironment p' f) :=
  h.builds_over exist function "sub_environment" "sub_environment(" (.subEnvironment · f)

end Builds

/-! ### Evaluations on data that nobody changes -/

/-- How far two evaluations have come: up to which bounds identities were given out, and what the parsers of
the two sides are. -/
structure Growth where
  bounds : Nat × Nat
  first : List ParserState
  second : List ParserState

structure Growth.Led (u w : Growth) : Prop where
  left : u.bounds.1 ≤ w.bounds.1
  right : u.bounds.2 ≤ w.bounds.2
  first : u.first <+: w.first
  second : u.second <+: w.second

/-- Two stores of this kind without tracers. -/
structure Growth.Reached (w : Growth) (σ σ' : Store) : Prop extends Unedited (fun _ => False) w.bounds σ σ' where
  silent : σ.tracers = []
  silent' : σ'.tracers = []
  parsers : σ.parsers.toList = w.first
  parsers' : σ'.parsers.toList = w.second

/-- Evaluation up to identities, with parsers of their own on the two sides. -/
def Resemblance.growing : Resemblance Value.share :=
  .upToIdentities (fun _ => False) Growth Growth.Led Growth.bounds Growth.Reached
    (fun _ => ⟨Nat.le_refl _, Nat.le_refl _, List.prefix_rfl, List.prefix_rfl⟩)
    (fun h h' => ⟨Nat.le_trans h.left h'.left, Nat.le_trans h.right h'.right, h.first.trans h'.first,
      h.second.trans h'.second⟩)
    (fun h => ⟨h.left, h.right⟩) Growth.Reached.toUnedited
    fun {w _ _ m n} hs le le' => ⟨{ w with bounds := (m, n) },
      ⟨Nat.le_trans hs.left le, Nat.le_trans hs.right le', List.prefix_rfl, List.prefix_rfl⟩, rfl,
      { hs with left := Nat.le_refl _, right := Nat.le_refl _ }⟩

section Growing

variable {w : Growth} {p : ParserId} {s : ParserState} {b : Behaviour Value}

/-- A parser keeps its behaviour while parsers are added. -/
theorem behaviour?_of_prefix {σ : Store} {parsers : List ParserState} (known : parsers[p]? = some s)
    (content : s.behaviour.content = .behaviour b) (more : parsers <+: σ.parsers.toList) :
    σ.behaviour? p = some b := by
  have inside := (List.getElem?_eq_some_iff.mp known).1
  have there : σ.parsers[p]? = some s := by
    rw [← Array.getElem?_toList, ← known]
    exact (List.prefix_iff_getElem?.mp more p inside).trans (List.getElem?_eq_getElem inside).symm
  simp only [Store.behaviour?, Store.parser?, there, Option.bind_some, content]

theorem growing_firstDoes (known : w.first[p]? = some s) (content : s.behaviour.content = .behaviour b) :
    Resemblance.growing.FirstDoes w p b := fun _ _ _ led hs =>
  ⟨hs.silent, behaviour?_of_prefix known content (hs.parsers ▸ led.first)⟩

theorem growing_secondDoes (known : w.second[p]? = some s) (content : s.behaviour.content = .behaviour b) :
    Resemblance.growing.SecondDoes w p b := fun _ _ _ led hs =>
  ⟨hs.silent', behaviour?_of_prefix known content (hs.parsers' ▸ led.second)⟩

theorem growing_grows : Resemblance.growing.Grows where
  remade := by
    intro w v v' r r' h parts alike
    have content : v.content = .result r.status r.index r.value := by
      unfold Value.result? at parts
      split at parts
      · next made =>
        obtain rfl := Option.some.inj parts
        exact made
      · cases parts
    refine ⟨h.left, ⟨alike.status.right, alike.index.right, alike.value.right⟩, ?_⟩
    rw [← h.left.content.2.1, content]
    simp only [Value.bare, alike.status.same, alike.index.same, alike.value.same]
  shared := by
    intro w v v' h σ σ' hs
    obtain ⟨le, like⟩ := hs.symm.identified h.symm
    refine ⟨_, _, { w with bounds := (w.bounds.1, (v'.identify σ'.nextObject).2) }, rfl, ?_, ?_, like.symm⟩
    · exact ⟨Nat.le_refl _, Nat.le_trans hs.right le, List.prefix_rfl, List.prefix_rfl⟩
    · exact { hs with right := Nat.le_refl _ }
  defined := by
    intro w b name σ σ' hs
    let made : ParserState := ⟨.object σ'.nextObject (.behaviour b), .str name⟩
    refine ⟨_, _, { w with second := w.second ++ [made] }, rfl, ?_, ?_, σ'.parsers.size, rfl, ?_⟩
    · exact ⟨Nat.le_refl _, Nat.le_refl _, List.prefix_rfl, w.second.prefix_append _⟩
    · refine { hs with right := Nat.le_succ_of_le hs.right, names := fun _ none => none.elim, parsers' := ?_ }
      rw [Array.toList_push, hs.parsers']
    · refine growing_secondDoes (s := made) ?_ rfl
      rw [← Array.length_toList, hs.parsers']
      exact List.getElem?_concat_length

end Growing

end Rebind
