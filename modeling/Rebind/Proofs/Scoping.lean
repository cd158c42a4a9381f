import Rebind.Proofs.Counterparts
import Rebind.Proofs.Transparency
/-!
# Scopes of environments

A grammar in a derived environment does the same as the grammar in which the derivation is pushed down:
every leaf, and every parser that a function returns while the grammar runs, is wrapped in it, and every
function is given the derived environment.  So a parser or a function anywhere in a grammar sees the
environment that is composed of the derivations around it, and nothing of those beside it.
-/
namespace Rebind

open Course

section Scoping

variable {host : Host} (M : Resemblance host.share) (rounds room : Nat) (derive : Value)

/-- In an environment of the second side the function returns what corresponds to an environment of the
first side, as often as it is called. -/
def Resemblance.Derives (w : M.World) (inside outside : Value) : Prop :=
  ∀ u depth, M.later w u → room ≤ depth →
    M.Beside u ((machine host rounds depth).call derive [outside]) fun u v => M.values u inside v

/-- A function of an environment that returns and changes nothing, and that returns the same whenever it is
called with room enough. -/
def Resemblance.Derivation : Prop :=
  ∀ w depth env env', M.values w env env' → M.Aside w ((machine host rounds depth).call derive [env])
    fun u inside => M.Derives rounds room derive u inside env'

/-- The second function of so many values and an environment does in an environment what the first one does in
the derived environment. -/
def Resemblance.Moved (arity : Nat) (w : M.World) (f f' : Value) (R : M.World → Value → Value → Prop) : Prop :=
  ∀ ⦃u depth higher xs ys inside outside⦄, M.later w u → depth + room < higher → xs.length = arity →
    List.Forall₂ (M.values u) xs ys → M.Derives rounds room derive u inside outside →
    M.Follows u ((machine host rounds depth).call f (xs ++ [inside]))
      ((machine host rounds higher).call f' (ys ++ [outside])) R

/-- A behaviour, and the one that it becomes if the derivation is pushed down to the parsers that it runs and
the functions that it calls. -/
inductive Resemblance.Pushed (R : M.World → ParserId → ParserId → Prop) (w : M.World) :
    Behaviour Value → Behaviour Value → Prop
  | blind {b : Behaviour Value} (h : b.IsBlind) : Pushed R w b b
  | sequence {ps qs : List ParserId} (parts : List.Forall₂ (R w) ps qs) :
    Pushed R w (.sequence ps) (.sequence qs)
  | alternative {ps qs : List ParserId} (choices : List.Forall₂ (R w) ps qs) :
    Pushed R w (.alternative ps) (.alternative qs)
  | repetition {p q : ParserId} {least most : Count} (item : R w p q) :
    Pushed R w (.repetition p least most) (.repetition q least most)
  | exclude {p q p' q' : ParserId} (allowed : R w p q) (forbidden : R w p' q') :
    Pushed R w (.exclude p p') (.exclude q q')
  | describe {p q : ParserId} {d : String} (inner : R w p q) : Pushed R w (.describe p d) (.describe q d)
  | mark {p q : ParserId} (framed : R w p q) : Pushed R w (.mark p) (.mark q)
  | transform {p q : ParserId} {f f' : Value} (inner : R w p q)
    (calls : M.Moved rounds room derive 1 w f f' M.values) : Pushed R w (.transform p f) (.transform q f')
  /-- The parsers that the functions return may be any that the derivation is pushed down to. -/
  | chain {p q : ParserId} {f f' : Value} (first : R w p q)
    (chooses : M.Moved rounds room derive 1 w f f' fun u v v' =>
      ∃ p q, v = .parser p ∧ v' = .parser q ∧ M.Exist u p q ∧ R u p q) :
    Pushed R w (.chain p f) (.chain q f')
  /-- A parser in an environment of its own stays as it is. -/
  | subEnvironment {p p' : ParserId} {g g' : Value} (inner : M.Counterparts rounds (fun _ => True) M.values w p p')
    (calls : M.Moved rounds room derive 0 w g g' M.values) :
    Pushed R w (.subEnvironment p g) (.subEnvironment p' g')

/-- Parsers of the first side, and what they become on the second side if the derivation is pushed down.  A
leaf, which may be any parser, is wrapped in the derivation. -/
structure Resemblance.PushesDown (R : M.World → ParserId → ParserId → Prop) : Prop where
  later : ∀ {w u p q}, R w p q → M.later w u → R u p q
  step : ∀ {w p q}, R w p q →
    (∃ p', M.Counterparts rounds (fun _ => True) M.values w p p' ∧ M.SecondDoes w q (.subEnvironment p' derive)) ∨
      ∃ b b', M.FirstDoes w p b ∧ M.SecondDoes w q b' ∧ M.Pushed rounds room derive R w b b'

variable {M rounds room derive} {w u : M.World}

theorem Resemblance.Derives.later {inside outside : Value} (h : M.Derives rounds room derive w inside outside)
    (led : M.later w u) : M.Derives rounds room derive u inside outside :=
  fun _ depth led' => h _ depth (M.later_trans led led')

/-- A function that calls another one in the derived environment, and makes something of what that returned. -/
theorem moved_of_eq {arity : Nat} {f f' : Value} (after : Value → Eval Value)
    {S R : M.World → Value → Value → Prop}
    (composed : ∀ depth xs env, xs.length = arity → (machine host rounds (depth + 1)).call f' (xs ++ [env]) = do
      let inside ← (machine host rounds depth).call derive [env]
      after (← (machine host rounds depth).call f (xs ++ [inside])))
    (calls : ∀ {u depth higher xs ys}, M.later w u → depth ≤ higher → xs.length = arity + 1 →
      List.Forall₂ (M.values u) xs ys →
      M.Follows u ((machine host rounds depth).call f xs) ((machine host rounds higher).call f ys) S)
    (last : ∀ {u v v'}, M.later w u → S u v v' → M.Beside u (after v') fun u v' => R u v v') :
    M.Moved rounds room derive arity w f f' R := by
  intro u depth higher xs ys inside outside led deep length arguments derives
  obtain ⟨below, rfl⟩ : ∃ below, higher = below + 1 := ⟨higher - 1, by omega⟩
  rw [composed below ys outside (arguments.length_eq.symm.trans length)]
  refine (derives u below (M.later_refl u) (by omega)).then fun v env led' same => ?_
  have onward := M.later_trans led led'
  have all := List.rel_append (arguments.imp fun _ _ => M.values_later led') (.cons same .nil)
  have le : depth ≤ below := by omega
  have called := calls onward le (by simp [length]) all
  rw [← bind_pure ((machine host rounds depth).call f (xs ++ [inside]))]
  refine called.bind (fun a => keeps_pure _ a) fun u' a a' led'' returned => ?_
  rw [← bind_pure (after a')]
  exact (last (M.later_trans onward led'') returned).then fun _ _ _ related => follows_pure related

/-! ### Behaviours -/

section Behaviours

variable {R : M.World → ParserId → ParserId → Prop} {depth higher : Nat} {text text' inside outside : Value}

/-- What `chain` does after a success, if the parsers that follow run alike. -/
theorem follows_chainOn_moved (keeps : (machine host rounds depth).Keeps .heeding) {f f' : Value}
    (chooses : M.Moved rounds room derive 1 w f f' fun u v v' =>
      ∃ p q, v = .parser p ∧ v' = .parser q ∧ M.Exist u p q ∧ R u p q)
    (deep : depth + room < higher) (derives : M.Derives rounds room derive w inside outside)
    (runs : ∀ {u p q}, M.later w u → R u p q →
      M.RunsAlike u (machine host rounds depth) (machine host rounds higher) p q text inside text' outside)
    {outcome outcome' : Value} (same : M.values w outcome outcome') :
    M.Follows w (Behave.chainOn (machine host rounds depth) f outcome text inside)
      (Behave.chainOn (machine host rounds higher) f' outcome' text' outside) M.values := by
  refine (same_resultOf same).then fun r r' parts => ?_
  refine (chooses (M.later_refl w) deep rfl (.cons parts.value .nil) derives).bind
    (fun next => keeps_chosen keeps f next outcome text r.index inside) ?_
  rintro u _ _ led ⟨p, q, rfl, rfl, exist, pushed⟩ σ σ' hs
  obtain ⟨there, there'⟩ := exist u σ σ' (M.later_refl u) hs
  rw [goOn_eq f' outcome' text' r'.index outside there']
  refine Ends.congr (goOn_eq f outcome text r.index inside there) ?_
  refine Resemblance.Follows.bind (R := M.values) ?_ (fun a => Course.keeps_mergeOver _ _ _)
    (fun v a a' led' result => ?_) σ σ' hs
  · exact runs led pushed (M.later_refl u) (M.values_later led parts.index)
  · have before := M.values_later (M.later_trans led led') same
    exact (same_mergeOver result before).follows fun _ _ merged => merged

/-- A behaviour in the derived environment does what it becomes outside. -/
theorem follows_pushed (keeps : (machine host rounds depth).Keeps .heeding) (deep : depth + room < higher)
    (runs : ∀ {u p q}, M.later w u → R u p q →
      M.RunsAlike u (machine host rounds depth) (machine host rounds higher) p q text inside text' outside)
    (same : M.values w text text') (derives : M.Derives rounds room derive w inside outside)
    {b b' : Behaviour Value} (pushed : M.Pushed rounds room derive R w b b') {i i' : Value}
    (place : M.values w i i') :
    M.Follows w (behave (machine host rounds depth) b text i inside)
      (behave (machine host rounds higher) b' text' i' outside) M.values := by
  have shares := machine_share host rounds depth
  have shares' := machine_share host rounds higher
  have rounds : (machine host rounds depth).rounds = (machine host rounds higher).rounds := by
    rw [machine_rounds, machine_rounds]
  have nothing := M.formed (w := w) (.plain (v := .none) trivial)
  have now := fun {p q} => runs (u := w) (p := p) (q := q) (M.later_refl w)
  cases pushed with
  | blind blind => exact follows_blind blind same place
  | sequence parts => exact follows_sequenceFrom keeps (parts.imp fun _ _ => now) place nothing .nil
  | alternative choices => exact follows_alternativeFrom keeps (choices.imp fun _ _ => now) place nothing
  | repetition item => exact follows_repetition keeps rounds (now item) _ _ place
  | exclude allowed forbidden => exact follows_exclude keeps (now allowed) (now forbidden) place
  | describe inner => exact follows_describe (now inner) _ place
  | mark framed => exact follows_mark (now framed) place
  | transform inner calls =>
    refine follows_transform keeps shares shares' (now inner) (fun led argument => ?_) place
    exact calls led deep rfl (.cons argument .nil) (derives.later led)
  | chain first chooses =>
    refine follows_chain keeps shares shares' (now first) (fun led outcome => ?_) place
    exact follows_chainOn_moved keeps (fun _ _ _ _ _ _ _ led' => chooses (M.later_trans led led')) deep
      (derives.later led)
      (fun led' => runs (M.later_trans led led')) outcome
  | subEnvironment inner calls =>
    refine (calls (M.later_refl w) deep rfl .nil derives).bind (fun v => keeps.run _ _ _ _)
      fun u v v' led env => ?_
    exact inner.run led (by omega) trivial ⟨M.values_later led same, M.values_later led place, env⟩

end Behaviours

/-! ### Runs -/

/-- A parser run in the derived environment does what the one does outside that it becomes if the derivation
is pushed down. -/
theorem follows_pushesDown (keeps : host.Keeps .heeding) {R : M.World → ParserId → ParserId → Prop}
    (pushes : M.PushesDown rounds room derive R) {depth higher : Nat} (deep : depth + room < higher)
    {p q : ParserId} (pushed : R w p q) {text text' i i' inside outside : Value}
    (same : M.values w text text') (place : M.values w i i')
    (derives : M.Derives rounds room derive w inside outside) :
    M.Follows w ((machine host rounds depth).run p text i inside)
      ((machine host rounds higher).run q text' i' outside) M.values := by
  induction depth generalizing w higher p q i i' with
  | zero => exact follows_bottom
  | succ depth ih =>
    obtain ⟨below, rfl⟩ : ∃ below, higher = below + 1 := ⟨higher - 1, by omega⟩
    rcases pushes.step pushed with ⟨p', inner, wraps⟩ | ⟨b, b', does, does', node⟩
    · refine follows_second wraps ?_
      refine (derives w below (M.later_refl w) (by omega)).then fun u env led like => ?_
      exact inner.run led (by omega) trivial ⟨M.values_later led same, M.values_later led place, like⟩
    · have keeps := (Trace.heeding_blind.traced host).machine keeps rounds depth
      refine follows_first does (follows_second does' ?_)
      refine follows_pushed keeps (by omega) (fun led related => ?_) same derives node place
      intro u i i' led' place
      have onward := M.later_trans led led'
      exact ih (by omega) (pushes.later related led') (M.values_later onward same) place (derives.later onward)

/-- A grammar in a derived environment ends as the grammar does to which it is pushed down, on a machine that
has room for the derivation, unless too many runs and calls nest. -/
theorem run_scoped (M : Resemblance host.share) (keeps : host.Keeps .heeding) {rounds room : Nat}
    {derive : Value} (derivation : M.Derivation rounds room derive)
    {R : M.World → ParserId → ParserId → Prop} (pushes : M.PushesDown rounds room derive R)
    {depth higher : Nat} (deep : depth + room ≤ higher) {w : M.World} {σ σ' : Store} (hs : M.stores w σ σ')
    {outer p q : ParserId} (wraps : M.FirstDoes w outer (.subEnvironment p derive)) (pushed : R w p q)
    {text i env text' i' env' : Value} (given : M.Given w text i env text' i' env')
    (calm : ¬ Spoiled (storeAfter ((machine host rounds depth).run outer text i env σ))) :
    M.EndAlike ((machine host rounds depth).run outer text i env σ)
      ((machine host rounds higher).run q text' i' env' σ') := by
  refine endAlike_of_follows ?_ hs calm
  cases depth with
  | zero => exact follows_bottom
  | succ depth =>
    refine follows_first wraps ?_
    refine (derivation w depth env env' given.env).then fun u inside led derives => ?_
    have given := given.later led
    exact follows_pushesDown keeps pushes (by omega) (pushes.later pushed led) given.text given.index derives

end Scoping

private def scopeFunction (n : Nat) : Value := .closure [] (.plain .null) [] (.named "f") n

/-- A derivation (0), functions of a value and an environment (1), of an environment (5) and of a character (7),
one that chooses a parser (3), and what becomes of them if the derivation is pushed down (2, 6, 4). -/
private def scopeWork (m : Machine) : Nat → List Value → Eval Value
  | 0, [env] => pure (.list [.str "inside", env])
  | 1, [v, env] => pure (.list [v, env])
  | 2, [v, env] => do m.call (scopeFunction 1) [v, ← m.call (scopeFunction 0) [env]]
  | 3, [_, _] => pure (.parser 0)
  | 4, [v, env] => do
    let inside ← m.call (scopeFunction 0) [env]
    Grammar.subEnvironment (← m.call (scopeFunction 3) [v, inside]) (scopeFunction 0)
  | 5, [env] => pure (.list [.str "deeper", env])
  | 6, [env] => do m.call (scopeFunction 5) [← m.call (scopeFunction 0) [env]]
  | 7, [_, env] => pure env
  | _, _ => raise .wrongType

private def scopeHost : Host where
  apply m f arguments := match f.content with
    | .closure _ _ _ _ n => scopeWork m n arguments
    | _ => raise .wrongType
  share := Value.share

/-- A grammar (5) in a derived environment (6), and the grammar with the derivation pushed down (12). -/
private def scopeStore : Store :=
  { parsers := #[
      ⟨.behaviour (.testChar (scopeFunction 7) "a character"), .str "leaf"⟩,
      ⟨.behaviour (.transform 0 (scopeFunction 1)), .str "shown"⟩,
      ⟨.behaviour .anyChar, .str "any_char"⟩,
      ⟨.behaviour (.chain 2 (scopeFunction 3)), .str "chosen"⟩,
      ⟨.behaviour (.subEnvironment 0 (scopeFunction 5)), .str "deeper"⟩,
      ⟨.behaviour (.sequence [1, 3, 4]), .str "all"⟩,
      ⟨.behaviour (.subEnvironment 5 (scopeFunction 0)), .str "scope"⟩,
      ⟨.behaviour (.subEnvironment 0 (scopeFunction 0)), .str "pushed leaf"⟩,
      ⟨.behaviour (.transform 7 (scopeFunction 2)), .str "pushed shown"⟩,
      ⟨.behaviour (.subEnvironment 2 (scopeFunction 0)), .str "pushed any_char"⟩,
      ⟨.behaviour (.chain 9 (scopeFunction 4)), .str "pushed chosen"⟩,
      ⟨.behaviour (.subEnvironment 0 (scopeFunction 6)), .str "pushed deeper"⟩,
      ⟨.behaviour (.sequence [8, 10, 11]), .str "pushed all"⟩] }

/-- The two sides have the same parsers at first. -/
private def scopeSides : Resemblance scopeHost.share := .growing

private def scopeGrowth : Growth := ⟨(0, 0), scopeStore.parsers.toList, scopeStore.parsers.toList⟩

private theorem scope_first {w : Growth} (led : scopeGrowth.Led w) {p : ParserId} {s : ParserState}
    {b : Behaviour Value} (known : scopeStore.parsers.toList[p]? = some s)
    (content : s.behaviour.content = .behaviour b) : scopeSides.FirstDoes w p b :=
  (growing_firstDoes (w := scopeGrowth) known content).later led

private theorem scope_second {w : Growth} (led : scopeGrowth.Led w) {p : ParserId} {s : ParserState}
    {b : Behaviour Value} (known : scopeStore.parsers.toList[p]? = some s)
    (content : s.behaviour.content = .behaviour b) : scopeSides.SecondDoes w p b :=
  (growing_secondDoes (w := scopeGrowth) known content).later led

private theorem scope_call (depth n : Nat) (arguments : List Value) :
    (machine scopeHost 10 (depth + 1)).call (scopeFunction n) arguments =
      scopeWork (machine scopeHost 10 depth) n arguments := by
  change invoke scopeHost (machine scopeHost 10 depth) (scopeFunction n) arguments = _
  rw [invoke_closure (f := scopeFunction n) trivial]
  rfl

private theorem scopeHost_keeps : scopeHost.Keeps heeding := by
  refine ⟨fun m keeps f arguments => ?_, fun v σ spoiled => spoiled⟩
  change heeding.Keeps (match f.content with
    | .closure _ _ _ _ n => scopeWork m n arguments
    | _ => raise .wrongType)
  split
  · unfold scopeWork
    split
    · exact keeps_pure _ _
    · exact keeps_pure _ _
    · exact keeps_bind (keeps.call _ _) fun _ => keeps.call _ _
    · exact keeps_pure _ _
    · refine keeps_bind (keeps.call _ _) fun _ => keeps_bind (keeps.call _ _) fun _ => ?_
      refine keeps_bind (keeps_parserOf _ _ _) fun _ => keeps_bind (keeps_checkCallable _ _) fun _ => ?_
      exact keeps_bind (keeps_displayName _) fun _ => fun _ spoiled => spoiled
    · exact keeps_pure _ _
    · exact keeps_bind (keeps.call _ _) fun _ => keeps.call _ _
    · exact keeps_pure _ _
    · exact keeps_raise _ _
  · exact keeps_raise _ _

/-- What a function does that calls nothing is done on both sides. -/
private theorem scope_follows {w : Growth} {depth higher n : Nat} {xs ys : List Value}
    {S : Growth → Value → Value → Prop} (le : depth ≤ higher)
    (h : ∀ m m', scopeSides.Follows w (scopeWork m n xs) (scopeWork m' n ys) S) :
    scopeSides.Follows w ((machine scopeHost 10 depth).call (scopeFunction n) xs)
      ((machine scopeHost 10 higher).call (scopeFunction n) ys) S := by
  cases depth with
  | zero => exact fun _ _ _ => .inl (.inl rfl)
  | succ depth =>
    obtain ⟨below, rfl⟩ : ∃ below, higher = below + 1 := ⟨higher - 1, by omega⟩
    rw [scope_call, scope_call]
    exact h _ _

private theorem scope_twin {w : Growth} (s : String) {v v' : Value} (h : Twin w.bounds v v') :
    Twin w.bounds (.list [.str s, v]) (.list [.str s, v']) :=
  Formed.peer (.list (.cons (Formed.peer (.str s)) (.cons h .nil)))

private theorem scope_derivation :
    scopeSides.Derivation 10 1 (scopeFunction 0) := by
  intro w depth env env' same
  cases depth with
  | zero => exact fun _ _ _ => .inl rfl
  | succ depth =>
    rw [scope_call]
    refine aside_pure fun u depth led deep => ?_
    obtain ⟨below, rfl⟩ : ∃ below, depth = below + 1 := ⟨depth - 1, by omega⟩
    rw [scope_call]
    exact beside_pure (scope_twin "inside" (scopeSides.values_later led same))

private theorem scope_leaf {w : Growth} (led : scopeGrowth.Led w) :
    scopeSides.Counterparts 10 (fun _ => True) scopeSides.values w 0 0 := by
  refine counterparts_testChar (f := scopeFunction 7) (scope_first led rfl rfl)
    (show scopeSides.SecondDoes w 0 (.testChar (scopeFunction 7) _) from scope_second led rfl rfl) ?_
  intro u depth higher c c' env env' _ le _ same
  exact scope_follows le fun _ _ => follows_pure same

/-- The function in the second place is what the one in the first place becomes. -/
private theorem scope_moved {w : Growth} {arity n k : Nat} (after : Value → Eval Value)
    {S R : Growth → Value → Value → Prop}
    (composed : ∀ m xs env, xs.length = arity → scopeWork m k (xs ++ [env]) = do
      let inside ← m.call (scopeFunction 0) [env]
      after (← m.call (scopeFunction n) (xs ++ [inside])))
    (calls : ∀ {u xs ys} m m', scopeGrowth.Led u → xs.length = arity + 1 →
      List.Forall₂ (Twin u.bounds) xs ys → scopeSides.Follows u (scopeWork m n xs) (scopeWork m' n ys) S)
    (last : ∀ {u v v'}, scopeGrowth.Led u → S u v v' →
      scopeSides.Beside u (after v') fun u v' => R u v v') (led : scopeGrowth.Led w) :
    scopeSides.Moved 10 1 (scopeFunction 0) arity w (scopeFunction n)
      (scopeFunction k) R := by
  refine moved_of_eq after (S := S) (fun depth xs env length => ?_) ?_ ?_
  · rw [scope_call, composed _ _ _ length]
  · intro u depth higher xs ys led' le length arguments
    exact scope_follows le fun m m' =>
      calls m m' (scopeSides.later_trans led led') length arguments
  · intro u v v' led'
    exact last (scopeSides.later_trans led led')

/-- The parsers of the grammar and what they become.  The leaves may be wrapped while the grammar runs. -/
private def scopePairs (w : Growth) (p q : ParserId) : Prop :=
  scopeGrowth.Led w ∧ ((p, q) ∈ [(1, 8), (3, 10), (4, 11), (5, 12)] ∨
    (p = 0 ∨ p = 2) ∧ scopeSides.SecondDoes w q (.subEnvironment p (scopeFunction 0)))

private theorem scope_leafPair {w : Growth} (led : scopeGrowth.Led w) {p q : ParserId} (h : p = 0 ∨ p = 2)
    (wraps : scopeSides.SecondDoes w q (.subEnvironment p (scopeFunction 0))) : scopePairs w p q :=
  ⟨led, .inr ⟨h, wraps⟩⟩

private theorem scope_shown {w : Growth} (led : scopeGrowth.Led w) :
    scopeSides.Moved 10 1 (scopeFunction 0) 1 w (scopeFunction 1) (scopeFunction 2) scopeSides.values := by
  refine scope_moved pure (S := scopeSides.values) ?_ ?_ (fun _ same => beside_pure same) led
  · intro m xs env length
    obtain ⟨v, rfl⟩ := List.length_eq_one_iff.mp length
    simp only [scopeWork, List.cons_append, List.nil_append, bind_pure]
  · intro u xs ys m m' _ length arguments
    obtain _ | ⟨first, _ | ⟨second, _ | _⟩⟩ := arguments
    · cases length
    · cases length
    · exact follows_pure (Formed.peer (.list (.cons first (.cons second .nil))))
    · cases length

private theorem scope_deeper {w : Growth} (led : scopeGrowth.Led w) :
    scopeSides.Moved 10 1 (scopeFunction 0) 0 w (scopeFunction 5) (scopeFunction 6) scopeSides.values := by
  refine scope_moved pure (S := scopeSides.values) ?_ ?_ (fun _ same => beside_pure same) led
  · intro m xs env length
    obtain rfl := List.length_eq_zero_iff.mp length
    simp only [scopeWork, List.nil_append, bind_pure]
  · intro u xs ys m m' _ length arguments
    obtain _ | ⟨first, _ | _⟩ := arguments
    · cases length
    · exact follows_pure (scope_twin "deeper" first)
    · cases length

private theorem scope_chosen {w : Growth} (led : scopeGrowth.Led w) :
    scopeSides.Moved 10 1 (scopeFunction 0) 1 w (scopeFunction 3) (scopeFunction 4) fun u v v' =>
      ∃ p q, v = .parser p ∧ v' = .parser q ∧ scopeSides.Exist u p q ∧ scopePairs u p q := by
  refine scope_moved (fun v => Grammar.subEnvironment v (scopeFunction 0))
    (S := fun _ v v' => v = .parser 0 ∧ v' = .parser 0) ?_ ?_ ?_ led
  · intro m xs env length
    obtain ⟨v, rfl⟩ := List.length_eq_one_iff.mp length
    rfl
  · intro u xs ys m m' _ length arguments
    obtain _ | ⟨first, _ | ⟨second, _ | _⟩⟩ := arguments
    · cases length
    · cases length
    · exact follows_pure ⟨rfl, rfl⟩
    · cases length
  · rintro u _ _ led ⟨rfl, rfl⟩
    have built := growing_grows.builds_subEnvironment (scope_leaf led).exist (f := scopeFunction 0) trivial
    refine built.mono ?_
    rintro u' _ led' ⟨q, rfl, wraps⟩
    have led := scopeSides.later_trans led led'
    exact ⟨0, q, rfl, rfl, (scope_first led rfl rfl).exist wraps, scope_leafPair led (.inl rfl) wraps⟩

private theorem scope_pushes : scopeSides.PushesDown 10 1 (scopeFunction 0) scopePairs where
  later := by
    rintro w u p q ⟨led, pair⟩ led'
    exact ⟨scopeSides.later_trans led led', pair.imp id fun leaf => ⟨leaf.1, leaf.2.later led'⟩⟩
  step := by
    rintro w p q ⟨led, pair | ⟨rfl | rfl, wraps⟩⟩
    · right
      simp only [List.mem_cons, Prod.mk.injEq, List.not_mem_nil, or_false] at pair
      rcases pair with ⟨rfl, rfl⟩ | ⟨rfl, rfl⟩ | ⟨rfl, rfl⟩ | ⟨rfl, rfl⟩
      · refine ⟨_, _, scope_first led rfl rfl, scope_second led rfl rfl, .transform ?_ (scope_shown led)⟩
        exact scope_leafPair led (.inl rfl) (scope_second led rfl rfl)
      · refine ⟨_, _, scope_first led rfl rfl, scope_second led rfl rfl, .chain ?_ (scope_chosen led)⟩
        exact scope_leafPair led (.inr rfl) (scope_second led rfl rfl)
      · exact ⟨_, _, scope_first led rfl rfl, scope_second led rfl rfl,
          .subEnvironment (scope_leaf led) (scope_deeper led)⟩
      · refine ⟨_, _, scope_first led rfl rfl, scope_second led rfl rfl, .sequence ?_⟩
        have pair {p q : ParserId} (h : (p, q) ∈ [(1, 8), (3, 10), (4, 11), (5, 12)]) : scopePairs w p q :=
          ⟨led, .inl h⟩
        exact .cons (pair (by decide)) (.cons (pair (by decide)) (.cons (pair (by decide)) .nil))
    · exact .inl ⟨0, scope_leaf led, wraps⟩
    · exact .inl ⟨2, counterparts_blind (scope_first led rfl rfl) (scope_second led rfl rfl) trivial, wraps⟩

/-- The run returned a list of so many values, and nothing was spoiled. -/
private def scopeSucceeds (size : Nat) : EStateM.Result Fault Store Value → Bool
  | .ok (.result (.bool true) _ (.list values)) τ => values.length == size && !τ.overran && τ.journal.isEmpty
  | _ => false

private theorem scope_calm {size : Nat} {r : EStateM.Result Fault Store Value}
    (h : scopeSucceeds size r = true) : ¬ Spoiled (storeAfter r) := by
  unfold scopeSucceeds at h
  split at h
  · simp only [Bool.and_eq_true, Bool.not_eq_true', List.isEmpty_iff] at h
    rintro (beyond | ⟨report, member, _⟩)
    · simp [storeAfter, h.1.2] at beyond
    · simp [storeAfter, h.2] at member
  · cases h

/-- A sequence of a transformed part, a chain and a part in an environment of its own. -/
theorem run_scoped_threeParts :
    scopeSucceeds 3 ((machine scopeHost 10 7).run 6 (.str "abcd") (.int 0) (.list []) scopeStore) = true ∧
      scopeSides.EndAlike ((machine scopeHost 10 7).run 6 (.str "abcd") (.int 0) (.list []) scopeStore)
        ((machine scopeHost 10 8).run 12 (.str "abcd") (.int 0) (.list []) scopeStore) := by
  have ran : scopeSucceeds 3
      ((machine scopeHost 10 7).run 6 (.str "abcd") (.int 0) (.list []) scopeStore) = true := by
    decide +kernel
  have calm := scope_calm ran
  refine ⟨ran, ?_⟩
  have deep : 7 + 1 ≤ 8 := by decide
  have here := scopeSides.later_refl scopeGrowth
  have start : scopeSides.stores scopeGrowth scopeStore scopeStore :=
    { left := Nat.le_refl _, right := Nat.le_refl _, unedited := rfl, unedited' := rfl,
      names := fun _ none => none.elim, silent := rfl, silent' := rfl, parsers := rfl, parsers' := rfl }
  have given : scopeSides.Given scopeGrowth (.str "abcd") (.int 0) (.list []) (.str "abcd") (.int 0)
      (.list []) := ⟨Formed.peer (.str _), Formed.peer (.int _), Formed.peer (.list .nil)⟩
  exact run_scoped scopeSides scopeHost_keeps scope_derivation scope_pushes deep start
    (scope_first here rfl rfl) ⟨here, .inl (by decide)⟩ given calm

end Rebind
