import Rebind.Proofs.Counterparts
import Rebind.Proofs.LastRun
import Rebind.Proofs.Transparency
/-!
# The laws of chains

`chain` binds the value of a success to the parser that goes on from there.  Regrouped chains end alike,
`succeed` is neutral on both sides, and a sequence is the chain that collects the values one by one.  The
results are the same as a whole, failures and what they expected included.  What makes this so is that
failures are not below zero: then what comes after a success is not changed by being merged with it.

One side builds parsers that the other one has not.  It is the second one, and it needs a little more room.
-/
namespace Rebind

open Course

/-- A success that leads to one of certain places, or a failure that is not below zero. -/
def Value.IsProper (places : Int → Prop) (r : Value) : Prop :=
  (∃ j v, places j ∧ r.IsMatch j v) ∨ ∃ k v, 0 ≤ k ∧ r.result? = some ⟨.bool false, .int k, v⟩

section Outcomes

variable {share : Value → Eval Value} {M : Resemblance share} {w : M.World} {places : Int → Prop}
  {a a' b v : Value} {j k : Int}

/-- What comes after a success stays as it is. -/
theorem mergeOver_proper (h : a.IsProper places) (matched : b.IsMatch j v) : mergeOver a b = pure a := by
  rcases h with ⟨_, _, _, after⟩ | ⟨k, _, inside, missed⟩
  · exact mergeOver_match after b
  · exact mergeOver_miss missed (.inr ⟨inside, j, v, matched⟩)

/-- Results that correspond have the same status and the same index. -/
theorem result?_of_values {status : Bool} (same : M.values w a a')
    (h : a.result? = some ⟨.bool status, .int j, v⟩) :
    ∃ v', a'.result? = some ⟨.bool status, .int j, v'⟩ ∧ M.values w v v' := by
  have parts := M.result same
  rw [h] at parts
  generalize a'.result? = r' at parts
  cases parts with
  | @some _ r' parts =>
    obtain ⟨_, _, v'⟩ := r'
    obtain rfl := M.plain parts.status (.inl trivial)
    obtain rfl := M.plain parts.index (.inl trivial)
    exact ⟨v', rfl, parts.value⟩

/-- What corresponds to a success is one that ended at the same index. -/
theorem isMatch_of_values (same : M.values w a a') {v' : Value} (matched : a'.IsMatch j v') :
    ∃ v, a.IsMatch j v ∧ M.values w v v' := by
  have parts := M.result same
  rw [matched] at parts
  unfold Value.IsMatch
  generalize a.result? = r at parts
  cases parts with
  | @some r _ parts =>
    obtain ⟨_, _, v⟩ := r
    obtain rfl := M.plain parts.status (.inr trivial)
    obtain rfl := M.plain parts.index (.inr trivial)
    exact ⟨v, rfl, parts.value⟩

/-- What corresponds to a proper result is proper. -/
theorem isProper_of_values (same : M.values w a a') (h : a.IsProper places) : a'.IsProper places := by
  rcases h with ⟨j, v, place, matched⟩ | ⟨k, v, inside, missed⟩
  · obtain ⟨v', matched', _⟩ := result?_of_values same matched
    exact .inl ⟨j, v', place, matched'⟩
  · obtain ⟨v', missed', _⟩ := result?_of_values same missed
    exact .inr ⟨k, v', inside, missed'⟩

end Outcomes

/-! ### What a chain does after its first parser -/

/-- What `chain` makes of the result of its first parser. -/
def Behave.chainAfter (m : Machine) (decide outcome text env : Value) : Eval Value := do
  let r ← resultOf outcome
  if ← truthy r.status then
    let outcome ← m.share outcome
    Behave.chainOn m decide outcome text env
  else return outcome

section After

variable {m : Machine} {f a b text env v : Value} {j k : Int}

/-- A chain in two parts: its first parser, and what is made of the result. -/
theorem chain_eq (p : ParserId) (i : Value) : Behave.chain m p f text i env =
    m.run p text i env >>= fun a => Behave.chainAfter m f a text env := rfl

/-- A failure is passed on. -/
theorem chainAfter_miss (missed : a.result? = some ⟨.bool false, .int k, v⟩) :
    Behave.chainAfter m f a text env = pure a := by
  simp only [Behave.chainAfter, resultOf_miss missed, truthy_bool, pure_bind, Bool.false_eq_true, if_false]

/-- A success is shared with the function. -/
theorem chainAfter_match (matched : a.IsMatch j v) :
    Behave.chainAfter m f a text env = m.share a >>= fun b => Behave.chainOn m f b text env := by
  simp only [Behave.chainAfter, matched.resultOf, truthy_bool, pure_bind, if_true]

/-- The function is called with the value of the success and the environment. -/
theorem chainOn_match (matched : b.IsMatch j v) : Behave.chainOn m f b text env =
    m.call f [v, env] >>= fun next => Behave.goOn m f next b text (.int j) env := by
  simp only [Behave.chainOn, matched.resultOf, pure_bind]

end After

section Sides

variable {share : Value → Eval Value} {M : Resemblance share} {w : M.World} {m m' : Machine}
  {places : Int → Prop} {f a a' b text env v i : Value} {j : Int} {p p' : ParserId}

def Resemblance.Proper (M : Resemblance share) (places : Int → Prop) (w : M.World) (a a' : Value) : Prop :=
  M.values w a a' ∧ a.IsProper places

/-- The first side goes on with a parser that was chosen. -/
theorem follows_goOn_first {g : Value → Eval Value} {y : Eval Value} {R : M.World → Value → Value → Prop}
    (exist : M.Exist w p p')
    (h : M.Follows w (m.run p text i env >>= fun a => mergeOver a b >>= g) y R) :
    M.Follows w (Behave.goOn m f (.parser p) b text i env >>= g) y R := by
  intro σ σ' hs
  have same := goOn_eq (m := m) f b text i env (exist w σ σ' (M.later_refl w) hs).1
  refine Ends.congr ?_ (h σ σ' hs)
  rw [← bind_assoc]
  simp only [Bind.bind, EStateM.bind] at same ⊢
  rw [same]

/-- The second side goes on with a parser that was chosen. -/
theorem follows_goOn_second {x : Eval Value} (there : ∀ {σ σ'}, M.stores w σ σ' → p' < σ'.parsers.size)
    (matched : b.IsMatch j v)
    (h : M.Follows w x (m.run p' text i env) (M.Proper places)) :
    M.Follows w x (Behave.goOn m f (.parser p') b text i env) (M.Proper places) := by
  intro σ σ' hs
  rw [goOn_eq f b text i env (there hs), ← bind_pure x]
  refine Resemblance.Follows.bind h (fun a => keeps_pure _ a) (fun u a a' _ proper => ?_) σ σ' hs
  rw [mergeOver_proper (isProper_of_values proper.1 proper.2) matched]
  exact follows_pure proper

/-- Both sides give identities to a success. -/
theorem follows_share_match (grows : M.Grows) (hs : m.share = share) (hs' : m'.share = share)
    (same : M.values w a a') (matched : a.IsMatch j v) :
    M.Follows w (m.share a) (m'.share a') fun u b b' => M.values u b b' ∧ ∃ v, b.IsMatch j v := by
  intro σ σ' stores
  obtain ⟨b, τ, b', τ', u, left, right, led, stores', both⟩ := M.shared stores same
  obtain ⟨c', υ', u', right', _, _, like⟩ := grows.shared same σ σ' stores
  obtain ⟨rfl, rfl⟩ := EStateM.Result.ok.inj (right.symm.trans right')
  obtain ⟨v', matched', _⟩ := result?_of_values like matched
  obtain ⟨x, known, _⟩ := isMatch_of_values both matched'
  rw [hs, hs']
  exact Ends.of_eq_ok left (.inr ⟨b', τ', u, right, led, stores', both, x, known⟩)

end Sides

/-! ### Functions that choose parsers -/

section Laws

variable {host : Host} (M : Resemblance host.share) (rounds : Nat) (places : Int → Prop)

/-- Parsers that do the same on the two sides from the places in question, and that end properly. -/
def Resemblance.Alternates (w : M.World) (p p' : ParserId) : Prop :=
  M.Counterparts rounds (fun i => ∃ n, i = .int n ∧ places n) (M.Proper places) w p p'

/-- A function of a value and an environment that returns such parsers. -/
def Resemblance.Decides (w : M.World) (f : Value) : Prop :=
  ∀ ⦃u depth higher v v' env env'⦄, M.later w u → depth ≤ higher → M.values u v v' →
    M.values u env env' →
    M.Follows u ((machine host rounds depth).call f [v, env]) ((machine host rounds higher).call f [v', env'])
      fun u r r' => ∃ p p', r = .parser p ∧ r' = .parser p' ∧ M.Alternates rounds places u p p'

/-- A function that returns the chain of what `f` returns and `g`. -/
def Resemblance.Binds (w : M.World) (f g h : Value) : Prop :=
  ∀ ⦃u depth higher v v' env env'⦄, M.later w u → depth < higher → M.values u v v' → M.values u env env' →
    M.Follows u ((machine host rounds depth).call f [v, env]) ((machine host rounds higher).call h [v', env'])
      fun u r r' => ∃ p p' q, r = .parser p ∧ r' = .parser q ∧ M.Alternates rounds places u p p' ∧
        M.SecondDoes u q (.chain p' g)

/-- A function that returns a parser that succeeds with the value. -/
def Resemblance.Succeeds (w : M.World) (f : Value) : Prop :=
  ∀ ⦃u depth v v'⦄ env, M.later w u → 0 < depth → M.values u v v' →
    M.Beside u ((machine host rounds depth).call f [v', env]) fun u r =>
      ∃ q x, r = .parser q ∧ M.values u v x ∧ M.SecondDoes u q (.succeed x)

/-- A parser that collects values of parsers run one after the other: a chain of the first of them and of a
function that returns a parser that collects the rest, and at the end success with all values. -/
def Resemblance.Collects : List ParserId → M.World → List Value → ParserId → Prop
  | [], w, read, q => ∃ x, M.values w (.list read) x ∧ M.SecondDoes w q (.succeed x)
  | p :: ps, w, read, q => ∃ p' f, M.Alternates rounds places w p p' ∧ M.SecondDoes w q (.chain p' f) ∧
    ∀ ⦃u depth v v'⦄ env, M.later w u → 0 < depth → M.values u v v' →
      M.Beside u ((machine host rounds depth).call f [v', env]) fun u r =>
        ∃ q', r = .parser q' ∧ Resemblance.Collects ps u (read ++ [v]) q'

/-- Two ways to run something end alike on every text, in every environment and from every place in question,
the second one on machines that are so much higher, unless too many runs and calls nest. -/
def Resemblance.Agree (more : Nat) (w : M.World) (first second : Machine → Runner) : Prop :=
  ∀ ⦃depth higher text n env text' env' σ σ'⦄, depth + more ≤ higher → places n →
    M.values w text text' → M.values w env env' → M.stores w σ σ' →
    ¬ Spoiled (storeAfter (first (machine host rounds depth) text (.int n) env σ)) →
    M.EndAlike (first (machine host rounds depth) text (.int n) env σ)
      (second (machine host rounds higher) text' (.int n) env' σ')

variable {M rounds places} {w u : M.World} {p p' q : ParserId} {f g h : Value}

theorem Resemblance.Alternates.later (alternates : M.Alternates rounds places w p p') (led : M.later w u) :
    M.Alternates rounds places u p p' := Resemblance.Counterparts.later alternates led

theorem Resemblance.Alternates.run (alternates : M.Alternates rounds places w p p') {depth higher : Nat} {n : Int}
    {text env text' env' : Value} (le : depth ≤ higher) (place : places n) (same : M.values w text text')
    (within : M.values w env env') : M.Follows w ((machine host rounds depth).run p text (.int n) env)
      ((machine host rounds higher).run p' text' (.int n) env') (M.Proper places) :=
  Resemblance.Counterparts.run alternates (M.later_refl w) le ⟨n, rfl, place⟩ ⟨same, M.formed (.int n), within⟩

theorem Resemblance.Decides.later (decides : M.Decides rounds places w f) (led : M.later w u) :
    M.Decides rounds places u f := fun _ _ _ _ _ _ _ led' => decides (M.later_trans led led')

/-- A function that calls `f` and makes a chain out of what it returns, whatever the machine. -/
theorem binds_of_eq (grows : M.Grows) (decides : M.Decides rounds places w f) (function : g.content.IsClosure)
    (composed : ∀ depth v env, (machine host rounds (depth + 1)).call h [v, env] = do
      Grammar.chain (← (machine host rounds depth).call f [v, env]) g) : M.Binds rounds places w f g h := by
  intro u depth higher v v' env env' led lt same within
  obtain ⟨below, rfl⟩ : ∃ below, higher = below + 1 := ⟨higher - 1, by omega⟩
  rw [composed, ← bind_pure ((machine host rounds depth).call f [v, env])]
  refine (decides led (Nat.le_of_lt_succ lt) same within).bind (fun _ => keeps_pure _ _) ?_
  rintro u' _ _ _ ⟨p, p', rfl, rfl, alternates⟩
  rw [← bind_pure (Grammar.chain (.parser p') g)]
  refine (grows.builds_chain alternates.exist function).then ?_
  rintro u'' _ led' ⟨q, rfl, does⟩
  exact follows_pure ⟨p, p', q, rfl, rfl, alternates.later led', does⟩

/-- A function that makes a parser out of its argument. -/
theorem succeeds_of_eq (grows : M.Grows)
    (made : ∀ depth v env, (machine host rounds (depth + 1)).call f [v, env] = Grammar.succeed v) :
    M.Succeeds rounds w f := by
  intro u depth v v' env _ deep same
  obtain ⟨below, rfl⟩ : ∃ below, depth = below + 1 := ⟨depth - 1, by omega⟩
  rw [made]
  refine (grows.builds_succeed u v').mono ?_
  rintro u' _ led ⟨q, rfl, does⟩
  exact ⟨q, v', rfl, M.values_later led same, does⟩

/-- Functions that build the chains one after the other, given the parsers to come and the values so far. -/
theorem collects_of_eq (grows : M.Grows) {collect : List ParserId → List Value → Value}
    (function : ∀ ps read, (collect ps read).content.IsClosure)
    (last : ∀ depth read v env, (machine host rounds (depth + 1)).call (collect [] read) [v, env] =
      Grammar.succeed (.list (read ++ [v])))
    (next : ∀ depth p ps read v env, (machine host rounds (depth + 1)).call (collect (p :: ps) read) [v, env] =
      Grammar.chain (.parser p) (collect ps (read ++ [v])))
    {ps ps' : List ParserId} (alternates : List.Forall₂ (M.Alternates rounds places w) ps ps')
    (first : M.Alternates rounds places w p p') {read read' : List Value}
    (same : List.Forall₂ (M.values w) read read') (does : M.SecondDoes w q (.chain p' (collect ps' read'))) :
    M.Collects rounds places (p :: ps) w read q := by
  induction ps generalizing w p p' q ps' read read' with
  | nil =>
    cases alternates
    refine ⟨p', _, first, does, fun u depth v v' env led deep value => ?_⟩
    obtain ⟨below, rfl⟩ : ∃ below, depth = below + 1 := ⟨depth - 1, by omega⟩
    rw [last]
    refine (grows.builds_succeed u _).mono ?_
    rintro u' _ led' ⟨q', rfl, does⟩
    have all := List.rel_append (same.imp fun _ _ => M.values_later (M.later_trans led led'))
      (.cons (M.values_later led' value) .nil)
    exact ⟨q', rfl, _, M.formed (.list all), does⟩
  | cons p₁ ps ih =>
    obtain _ | ⟨head, rest⟩ := alternates
    refine ⟨p', _, first, does, fun u depth v v' env led deep value => ?_⟩
    obtain ⟨below, rfl⟩ : ∃ below, depth = below + 1 := ⟨depth - 1, by omega⟩
    rw [next]
    refine (grows.builds_chain (head.later led).exist (function _ _)).mono ?_
    rintro u' _ led' ⟨q', rfl, does⟩
    have onward := M.later_trans led led'
    refine ⟨q', rfl, ih (rest.imp fun _ _ alternates => alternates.later onward) (head.later onward) ?_ does⟩
    exact List.rel_append (same.imp fun _ _ => M.values_later onward) (.cons (M.values_later led' value) .nil)

/-! ### The laws -/

variable {depth higher : Nat} {n : Int} {text env text' env' : Value}

theorem keeps_goOn {K : Course} {m : Machine} (keeps : m.Keeps K) (decide next outcome text i env : Value) :
    K.Keeps (Behave.goOn m decide next outcome text i env) := keeps_chosen keeps decide next outcome text i env

theorem keeps_chainAfter {K : Course} {m : Machine} (keeps : m.Keeps K) (decide outcome text env : Value) :
    K.Keeps (Behave.chainAfter m decide outcome text env) :=
  keeps_judged outcome (fun _ => keeps_bind (keeps.share _) fun _ => keeps_chainOn keeps _ _ _ _)
    fun _ => keeps_pure _ _

/-- Both sides go on after a success, if they do so with the parts of the success once it has identities. -/
theorem follows_chainAfter_bind (grows : M.Grows) (keeps : (machine host rounds depth).Keeps .heeding)
    {last : Value → Eval Value} (keeps_last : ∀ a, heeding.Keeps (last a))
    {R : M.World → Value → Value → Prop}
    {a a' : Value} (proper : M.Proper places w a a')
    (missed : ∀ {k v}, a.result? = some ⟨.bool false, .int k, v⟩ → M.Follows w (last a) (pure a') R)
    (matched : ∀ {u b b' j v v'}, M.later w u → places j → b.IsMatch j v → b'.IsMatch j v' →
      M.values u v v' → M.Follows u ((machine host rounds depth).call f [v, env] >>= fun next =>
          Behave.goOn (machine host rounds depth) f next b text (.int j) env >>= last)
        ((machine host rounds higher).call h [v', env'] >>= fun next =>
          Behave.goOn (machine host rounds higher) h next b' text' (.int j) env') R) :
    M.Follows w (Behave.chainAfter (machine host rounds depth) f a text env >>= last)
      (Behave.chainAfter (machine host rounds higher) h a' text' env') R := by
  rcases proper.2 with ⟨j, v, place, known⟩ | ⟨k, v, _, known⟩
  · obtain ⟨v', known', _⟩ := result?_of_values proper.1 known
    rw [chainAfter_match known, chainAfter_match known', bind_assoc]
    refine (follows_share_match grows (machine_share _ _ _) (machine_share _ _ _) proper.1 known).bind
      (fun b => keeps_bind (keeps_chainOn keeps _ _ _ _) keeps_last) ?_
    rintro u b b' led ⟨like, x, known⟩
    obtain ⟨x', known', value⟩ := result?_of_values like known
    rw [chainOn_match known, chainOn_match known', bind_assoc]
    exact matched led place known known' value
  · obtain ⟨v', known', _⟩ := result?_of_values proper.1 known
    rw [chainAfter_miss known, chainAfter_miss known', pure_bind]
    exact missed known

/-- Both sides go on with what the same function chooses. -/
theorem follows_chainAfter (grows : M.Grows) (keeps : (machine host rounds depth).Keeps .heeding)
    (decides : M.Decides rounds places w g) (le : depth ≤ higher) (same : M.values w text text')
    (within : M.values w env env') {a a' : Value} (proper : M.Proper places w a a') :
    M.Follows w (Behave.chainAfter (machine host rounds depth) g a text env)
      (Behave.chainAfter (machine host rounds higher) g a' text' env') (M.Proper places) := by
  rw [← bind_pure (Behave.chainAfter (machine host rounds depth) g a text env)]
  refine follows_chainAfter_bind grows keeps (fun _ => keeps_pure _ _) proper (fun _ => follows_pure proper) ?_
  intro u b b' j v v' led place known known' value
  refine (decides led le value (M.values_later led within)).bind
    (fun _ => keeps_bind (keeps_goOn keeps _ _ _ _ _ _) fun _ => keeps_pure _ _) ?_
  rintro u' _ _ led' ⟨p, p', rfl, rfl, alternates⟩
  have onward := M.later_trans led led'
  refine follows_goOn_second alternates.exist.there known' (follows_goOn_first alternates.exist ?_)
  have ran := alternates.run le place (M.values_later onward same) (M.values_later onward within)
  rw [← bind_pure ((machine host rounds higher).run p' text' (.int j) env')]
  refine ran.bind (fun _ => keeps_bind (keeps_mergeOver _ _ _) fun _ => keeps_pure _ _) fun _ c c' _ proper => ?_
  rw [mergeOver_proper proper.2 known, pure_bind]
  exact follows_pure proper

/-- Chains may be regrouped. -/
theorem follows_regrouped (keeps : host.Keeps .heeding) (grows : M.Grows) {inner outer : ParserId}
    (inside : M.FirstDoes w inner (.chain p f)) (outside : M.FirstDoes w outer (.chain inner g))
    (second : M.SecondDoes w q (.chain p' h)) (alternates : M.Alternates rounds places w p p')
    (decides : M.Decides rounds places w g) (binds : M.Binds rounds places w f g h)
    (le : depth + 1 ≤ higher) (place : places n) (same : M.values w text text') (within : M.values w env env') :
    M.Follows w ((machine host rounds depth).run outer text (.int n) env)
      ((machine host rounds higher).run q text' (.int n) env') (M.Proper places) := by
  have machines := (Trace.heeding_blind.traced host).machine keeps rounds
  obtain _ | _ | j := depth
  · exact follows_bottom
  · exact follows_first outside fun _ _ _ => .inl (.inl rfl)
  obtain ⟨below, rfl⟩ : ∃ below, higher = below + 1 + 1 := ⟨higher - 2, by omega⟩
  refine follows_first outside (follows_second second ?_)
  change M.Follows w (Behave.chain _ inner g text _ env) (Behave.chain _ p' h text' _ env') _
  rw [chain_eq, chain_eq]
  refine follows_first_bind inside ?_
  change M.Follows w (Behave.chain _ p f text _ env >>= _) _ _
  rw [chain_eq, bind_assoc]
  have keeps_last := fun a => keeps_chainAfter (machines (j + 1)) g a text env
  refine (alternates.run (by omega) place same within).bind
    (fun a => keeps_bind (keeps_chainAfter (machines j) _ _ _ _) keeps_last) fun u a a' led proper => ?_
  refine follows_chainAfter_bind grows (machines j) keeps_last proper (fun missed => ?_) ?_
  · rw [chainAfter_miss missed]
    exact follows_pure proper
  intro u' b b' j' v v' led' place known known' value
  have onward := M.later_trans led led'
  -- The function of the second side returns the chain of the parser that the first side runs now.
  refine (binds onward (by omega) value (M.values_later onward within)).bind
    (fun _ => keeps_bind (keeps_goOn (machines j) _ _ _ _ _ _) keeps_last) ?_
  rintro u'' _ _ led'' ⟨p, p', q, rfl, rfl, alternates, does⟩
  have onward := M.later_trans onward led''
  have same := M.values_later onward same
  have within := M.values_later onward within
  refine follows_goOn_second does.there known' (follows_goOn_first alternates.exist ?_)
  refine follows_second does ?_
  change M.Follows u'' _ (Behave.chain _ p' g text' _ env') _
  rw [chain_eq]
  refine (alternates.run (by omega) place same within).bind
    (fun _ => keeps_bind (keeps_mergeOver _ _ _) keeps_last) fun x c c' led proper => ?_
  rw [mergeOver_proper proper.2 known, pure_bind]
  exact follows_chainAfter grows (machines (j + 1)) (decides.later (M.later_trans onward led)) (by omega)
    (M.values_later led same) (M.values_later led within) proper

def Behave.runReturned (m : Machine) (f v : Value) : Runner := fun text i env => do
  match ← m.call f [v, env] with
  | .parser p => m.run p text i env
  | _ => raise .wrongType

/-- To choose by a value is to chain after success with it. -/
theorem follows_succeed_chain (grows : M.Grows) {s : ParserId} {v v' : Value}
    (value : M.SecondDoes w s (.succeed v')) (second : M.SecondDoes w q (.chain s f))
    (like : M.values w v v') (decides : M.Decides rounds places w f) (le : depth + 1 ≤ higher) (place : places n)
    (same : M.values w text text') (within : M.values w env env') (keeps : host.Keeps .heeding) :
    M.Follows w (Behave.runReturned (machine host rounds depth) f v text (.int n) env)
      ((machine host rounds higher).run q text' (.int n) env') (M.Proper places) := by
  have machines := (Trace.heeding_blind.traced host).machine keeps rounds
  obtain _ | k := depth
  · exact fun _ _ _ => .inl (.inl rfl)
  obtain ⟨below, rfl⟩ : ∃ below, higher = below + 1 + 1 := ⟨higher - 2, by omega⟩
  refine follows_second second ?_
  change M.Follows w _ (Behave.chain _ s f text' _ env') _
  rw [chain_eq]
  refine follows_second_bind value ?_
  change M.Follows w _ (pure (Value.success (.int n) v') >>= _) _
  have matched : (Value.success (.int n) v').IsMatch n v' := rfl
  rw [pure_bind, chainAfter_match matched, machine_share]
  refine (grows.shared (values_success (M.formed (.int n)) like)).then fun u b' led success => ?_
  obtain ⟨x, known, value⟩ := result?_of_values (a := .success (.int n) v) (v := v) (j := n) success rfl
  rw [chainOn_match known]
  refine (decides led (by omega) value (M.values_later led within)).bind (fun next => ?_) ?_
  · split
    · exact (machines _).run _ _ _ _
    · exact keeps_raise _ _
  rintro u' _ _ led' ⟨p, p', rfl, rfl, alternates⟩
  have onward := M.later_trans led led'
  refine follows_goOn_second alternates.exist.there known ?_
  exact alternates.run (by omega) place (M.values_later onward same) (M.values_later onward within)

/-- A chain that ends in success with the value changes nothing. -/
theorem follows_chain_succeed (grows : M.Grows) (second : M.SecondDoes w q (.chain p' f))
    (alternates : M.Alternates rounds places w p p') (succeeds : M.Succeeds rounds w f)
    (le : depth + 1 ≤ higher) (place : places n) (same : M.values w text text') (within : M.values w env env') :
    M.Follows w ((machine host rounds depth).run p text (.int n) env)
      ((machine host rounds higher).run q text' (.int n) env') (M.Proper places) := by
  obtain _ | k := depth
  · exact follows_bottom
  obtain ⟨below, rfl⟩ : ∃ below, higher = below + 1 + 1 := ⟨higher - 2, by omega⟩
  refine follows_second second ?_
  change M.Follows w _ (Behave.chain _ p' f text' _ env') _
  rw [chain_eq, ← bind_pure ((machine host rounds (k + 1)).run p text (.int n) env)]
  refine (alternates.run (by omega) place same within).bind (fun a => keeps_pure _ a) fun u a a' led proper => ?_
  rcases proper.2 with ⟨j, v, inside, known⟩ | ⟨k, v, _, known⟩
  · obtain ⟨v', known', _⟩ := result?_of_values proper.1 known
    rw [chainAfter_match known', machine_share]
    refine (grows.shared proper.1).then fun u' b' led' like => ?_
    obtain ⟨x, known', value⟩ := result?_of_values like known
    rw [chainOn_match known']
    refine (succeeds env' (M.later_trans led led') (by omega) value).then ?_
    rintro u'' _ led'' ⟨q, y, rfl, value, does⟩
    refine follows_goOn_second does.there known' (follows_second does (follows_pure ⟨?_, proper.2⟩))
    have alike : Result.Alike (M.values u'') ⟨.bool true, .int j, v⟩ ⟨.bool true, .int j, y⟩ :=
      ⟨M.formed (.plain trivial), M.formed (.int j), value⟩
    exact grows.remade (M.values_later led'' like) known alike
  · obtain ⟨v', known', _⟩ := result?_of_values proper.1 known
    rw [chainAfter_miss known']
    exact follows_pure proper

theorem Resemblance.Collects.there {ps : List ParserId} {read : List Value}
    (collects : M.Collects rounds places ps w read q) {σ σ' : Store} (hs : M.stores w σ σ') :
    q < σ'.parsers.size := by
  cases ps with
  | nil =>
    obtain ⟨_, _, does⟩ := collects
    exact does.there hs
  | cons p ps =>
    obtain ⟨_, _, _, does, _⟩ := collects
    exact does.there hs

/-- A proper result is not merged with a success before it. -/
theorem mergeOver_proper_before {a previous : Value} (h : a.IsProper places)
    (before : previous = .none ∨ ∃ j v, previous.IsMatch j v) : mergeOver a previous = pure a := by
  rcases before with rfl | ⟨j, v, matched⟩
  · rfl
  · exact mergeOver_proper h matched

/-- Parsers run one after the other give what the parser gives that collects their values. -/
theorem follows_collects (keeps : host.Keeps .heeding) (grows : M.Grows) {ps : List ParserId}
    {previous : Value} {read : List Value} (collects : M.Collects rounds places ps w read q)
    (before : previous = .none ∨ ∃ j v, previous.IsMatch j v) (le : depth + ps.length < higher)
    (place : places n) (same : M.values w text text') (within : M.values w env env') :
    M.Follows w (Behave.sequenceFrom (machine host rounds depth) text env ps previous read (.int n))
      ((machine host rounds higher).run q text' (.int n) env') (M.Proper places) := by
  have machines := (Trace.heeding_blind.traced host).machine keeps rounds
  obtain ⟨below, rfl⟩ : ∃ below, higher = below + 1 := ⟨higher - 1, by omega⟩
  induction ps generalizing w q previous read n below with
  | nil =>
    obtain ⟨x, all, does⟩ := collects
    have success : (Value.success (.int n) (.list read)).IsProper places := .inl ⟨n, .list read, place, rfl⟩
    refine follows_second does ?_
    change M.Follows w (mergeOver (.success (.int n) (.list read)) previous) (pure (Value.success (.int n) x)) _
    rw [mergeOver_proper_before success before]
    exact follows_pure ⟨values_success (M.formed (.int n)) all, success⟩
  | cons p ps ih =>
    obtain ⟨p', f, alternates, does, rest⟩ := collects
    rw [List.length_cons] at le
    refine follows_second does ?_
    change M.Follows w _ (Behave.chain _ p' f text' _ env') _
    rw [chain_eq]
    refine (alternates.run (by omega) place same within).bind (fun a => ?_) fun u a a' led proper => ?_
    · refine keeps_bind (keeps_mergeOver _ _ _) fun merged => keeps_judged _ (fun r => ?_) fun r => keeps_pure _ _
      exact keeps_sequenceFrom (machines depth) _ _ _ _ _ _
    rw [mergeOver_proper_before proper.2 before, pure_bind]
    rcases proper.2 with ⟨j, v, inside, known⟩ | ⟨k, v, _, known⟩
    · obtain ⟨v', known', _⟩ := result?_of_values proper.1 known
      rw [chainAfter_match known', machine_share]
      simp only [known.resultOf, truthy_bool, pure_bind, if_true]
      refine (grows.shared proper.1).then fun u' b' led' like => ?_
      obtain ⟨x, known', value⟩ := result?_of_values like known
      rw [chainOn_match known']
      refine (rest env' (M.later_trans led led') (by omega) value).then ?_
      rintro u'' _ led'' ⟨q, rfl, collects⟩
      have onward := M.later_trans (M.later_trans led led') led''
      obtain ⟨next, rfl⟩ : ∃ next, below = next + 1 := ⟨below - 1, by omega⟩
      refine follows_goOn_second collects.there known' ?_
      exact ih collects (.inr ⟨j, v, known⟩) inside (M.values_later onward same) (M.values_later onward within)
        next (by omega)
    · obtain ⟨v', known', _⟩ := result?_of_values proper.1 known
      rw [chainAfter_miss known']
      simp only [resultOf_miss known, truthy_bool, pure_bind, Bool.false_eq_true, if_false]
      exact follows_pure proper

/-- Two ways to run something agree if the one follows the other on every machine. -/
theorem agree_of_follows {more : Nat} {first second : Machine → Runner}
    (h : ∀ {depth higher n text env text' env'}, depth + more ≤ higher → places n → M.values w text text' →
      M.values w env env' → M.Follows w (first (machine host rounds depth) text (.int n) env)
        (second (machine host rounds higher) text' (.int n) env') (M.Proper places)) :
    M.Agree rounds places more w first second := by
  intro depth higher n text env text' env' σ σ' le place same within hs calm
  exact endAlike_of_follows ((h le place same within).mono fun _ _ _ _ proper => proper.1) hs calm

/-- The laws of chains.  Two chains one after the other are one chain by the function that chains what the first
function returns to the second.  A chain after success with a value is what the function returns for the value,
and a chain by a function that returns success with the value is the parser.  A sequence is the chain that
collects the values. -/
theorem chain_monadic (M : Resemblance host.share) (keeps : host.Keeps .heeding) (grows : M.Grows)
    (rounds : Nat) (places : Int → Prop) (w : M.World) :
    (∀ {p p' inner outer q : ParserId} {f g h : Value}, M.Alternates rounds places w p p' →
      M.Decides rounds places w g → M.Binds rounds places w f g h → M.FirstDoes w inner (.chain p f) →
      M.FirstDoes w outer (.chain inner g) → M.SecondDoes w q (.chain p' h) →
      M.Agree rounds places 1 w (fun m => m.run outer) fun m => m.run q) ∧
    (∀ {s q : ParserId} {f v v' : Value}, M.values w v v' → M.Decides rounds places w f →
      M.SecondDoes w s (.succeed v') → M.SecondDoes w q (.chain s f) →
      M.Agree rounds places 1 w (fun m => Behave.runReturned m f v) fun m => m.run q) ∧
    (∀ {p p' q : ParserId} {f : Value}, M.Alternates rounds places w p p' → M.Succeeds rounds w f →
      M.SecondDoes w q (.chain p' f) →
      M.Agree rounds places 1 w (fun m => m.run p) fun m => m.run q) ∧
    ∀ {p q : ParserId} {ps : List ParserId}, M.FirstDoes w p (.sequence ps) →
      M.Collects rounds places ps w [] q →
      M.Agree rounds places ps.length w (fun m => m.run p) fun m => m.run q := by
  -- Associativity, the unit laws on both sides, and a sequence as a chain of its parts.
  refine ⟨?_, ?_, ?_, ?_⟩
  · intro p p' inner outer q f g h alternates decides binds inside outside second
    exact agree_of_follows fun le => follows_regrouped keeps grows inside outside second alternates decides
      binds le
  · intro s q f v v' like decides value second
    exact agree_of_follows fun le place same within =>
      follows_succeed_chain grows value second like decides le place same within keeps
  · intro p p' q f alternates succeeds second
    exact agree_of_follows fun le => follows_chain_succeed grows second alternates succeeds le
  · intro p q ps first collects
    refine agree_of_follows fun {depth} _ _ _ _ _ _ le place same within => ?_
    obtain _ | k := depth
    · exact follows_bottom
    refine follows_first first ?_
    exact follows_collects keeps grows collects (.inl rfl) (by omega) place same within

end Laws

/-- A function with a number, where only the number and what is held matter. -/
private def bindFunction (n : Nat) (held : List (String × Value)) : Value :=
  .closure [] (.plain .null) held (.named "f") n

/-- A function that collects values of parsers to come. -/
private def bindCollect (ps : List ParserId) (read : List Value) : Value :=
  bindFunction 4 [("parsers", .list (ps.map .parser)), ("read", .list read)]

/-- Functions that return a character parser (0) or one that fails (1), that chain the two (2), that succeed with
the value (3), and that collect values (4). -/
private def bindWork (m : Machine) : Nat → List (String × Value) → Value → Value → Eval Value
  | 0, _, _, _ => pure (.parser 0)
  | 1, _, _, _ => pure (.parser 1)
  | 2, _, v, env => do Grammar.chain (← m.call (bindFunction 0 []) [v, env]) (bindFunction 1 [])
  | 3, _, v, _ => Grammar.succeed v
  | 4, [(_, .list []), (_, .list read)], v, _ => Grammar.succeed (.list (read ++ [v]))
  | 4, [(_, .list (p :: ps)), (_, .list read)], v, _ =>
    Grammar.chain p (bindFunction 4 [("parsers", .list ps), ("read", .list (read ++ [v]))])
  | _, _, _, _ => raise .wrongType

private def bindHost : Host where
  apply m f arguments := match f.content, arguments with
    | .closure _ _ held _ n, [v, env] => bindWork m n held v env
    | _, _ => raise .wrongType
  share := Value.share

/-- Chains of one character and another before a failure, grouped in both ways (3, 4), chains with `succeed` (6, 7),
and two characters as a sequence and as chains (8, 9). -/
private def bindStore : Store :=
  { parsers := #[
      ⟨.behaviour .anyChar, .str "any_char"⟩,
      ⟨.behaviour (.fail "more"), .str "fail"⟩,
      ⟨.behaviour (.chain 0 (bindFunction 0 [])), .str "inner"⟩,
      ⟨.behaviour (.chain 2 (bindFunction 1 [])), .str "outer"⟩,
      ⟨.behaviour (.chain 0 (bindFunction 2 [])), .str "regrouped"⟩,
      ⟨.behaviour (.succeed (.int 7)), .str "succeed"⟩,
      ⟨.behaviour (.chain 5 (bindFunction 0 [])), .str "after success"⟩,
      ⟨.behaviour (.chain 0 (bindFunction 3 [])), .str "before success"⟩,
      ⟨.behaviour (.sequence [0, 0]), .str "sequence"⟩,
      ⟨.behaviour (.chain 0 (bindCollect [0] [])), .str "collected"⟩] }

private def bindGrowth : Growth := ⟨(0, 0), bindStore.parsers.toList, bindStore.parsers.toList⟩

private def bindSides : Resemblance bindHost.share := .growing

private theorem bind_first {w : Growth} (led : bindGrowth.Led w) {p : ParserId} {s : ParserState}
    {b : Behaviour Value} (known : bindStore.parsers.toList[p]? = some s)
    (content : s.behaviour.content = .behaviour b) : bindSides.FirstDoes w p b :=
  (growing_firstDoes (w := bindGrowth) known content).later led

private theorem bind_second {w : Growth} (led : bindGrowth.Led w) {p : ParserId} {s : ParserState}
    {b : Behaviour Value} (known : bindStore.parsers.toList[p]? = some s)
    (content : s.behaviour.content = .behaviour b) : bindSides.SecondDoes w p b :=
  (growing_secondDoes (w := bindGrowth) known content).later led

private theorem bind_call (depth n : Nat) (held : List (String × Value)) (v env : Value) :
    (machine bindHost 10 (depth + 1)).call (bindFunction n held) [v, env] =
      bindWork (machine bindHost 10 depth) n held v env := by
  change invoke bindHost (machine bindHost 10 depth) (bindFunction n held) [v, env] = _
  rw [invoke_closure (f := bindFunction n held) trivial]
  rfl

private theorem bindHost_keeps : bindHost.Keeps heeding := by
  refine ⟨fun m keeps f arguments => ?_, fun v σ spoiled => spoiled⟩
  have succeed : ∀ v, heeding.Keeps (Grammar.succeed v) := fun v =>
    keeps_bind (keeps_literalOf _ v) fun _ _ spoiled => spoiled
  have chain : ∀ v f, heeding.Keeps (Grammar.chain v f) := fun v f =>
    keeps_bind (keeps_parserOf _ _ _) fun _ => keeps_bind (keeps_checkCallable _ _) fun _ =>
      keeps_bind (keeps_displayName _) fun _ _ spoiled => spoiled
  change heeding.Keeps (match f.content, arguments with
    | .closure _ _ held _ n, [v, env] => bindWork m n held v env
    | _, _ => raise .wrongType)
  split
  · unfold bindWork
    split
    · exact keeps_pure _ _
    · exact keeps_pure _ _
    · exact keeps_bind (keeps.call _ _) fun _ => chain _ _
    · exact succeed _
    · exact succeed _
    · exact chain _ _
    · exact keeps_raise _ _
  · exact keeps_raise _ _

private theorem bind_character {w : Growth} (led : bindGrowth.Led w) :
    bindSides.Alternates 10 (0 ≤ ·) w 0 0 := by
  refine counterparts_of_behaviours (bind_first led rfl rfl) (bind_second led rfl rfl) ?_
  rintro u depth higher text _ env text' i' env' _ _ ⟨n, rfl, place⟩ given
  obtain rfl := bindSides.plain given.index (.inl trivial)
  refine (same_lengthOf given.text).then fun size _ same => ?_
  subst same
  simp only [atMost_int, addTo_int, pure_bind]
  refine follows_ite rfl (follows_pure ⟨values_failure given.index _, .inr ⟨n, _, place, rfl⟩⟩) ?_
  refine (same_itemOf given.text given.index).then fun c c' item => follows_pure ⟨?_, ?_⟩
  · exact values_success (bindSides.formed (.int _)) item
  · exact .inl ⟨n + 1, c, Int.le_trans place (Int.le_add_one (Int.le_refl n)), rfl⟩

private theorem bind_failure {w : Growth} (led : bindGrowth.Led w) :
    bindSides.Alternates 10 (0 ≤ ·) w 1 1 := by
  refine counterparts_of_behaviours (bind_first led rfl rfl) (bind_second led rfl rfl) ?_
  rintro u depth higher text _ env text' i' env' _ _ ⟨n, rfl, place⟩ given
  obtain rfl := bindSides.plain given.index (.inl trivial)
  exact follows_pure ⟨values_failure given.index "more", .inr ⟨n, _, place, rfl⟩⟩

/-- What a function returns that calls nothing and builds nothing, both sides are returned. -/
private theorem bind_decides {w : Growth} (led : bindGrowth.Led w) {n p : Nat}
    (returns : ∀ m v env, bindWork m n [] v env = pure (.parser p))
    (alternates : ∀ {u}, bindGrowth.Led u → bindSides.Alternates 10 (0 ≤ ·) u p p) :
    bindSides.Decides 10 (0 ≤ ·) w (bindFunction n []) := by
  intro u depth higher v v' env env' led' le _ _
  obtain _ | k := depth
  · exact fun _ _ _ => .inl (.inl rfl)
  obtain ⟨below, rfl⟩ : ∃ below, higher = below + 1 := ⟨higher - 1, by omega⟩
  rw [bind_call, bind_call, returns, returns]
  exact follows_pure ⟨p, p, rfl, rfl, alternates (bindSides.later_trans led led')⟩

/-- The run returned, and nothing was spoiled. -/
private def bindReturns : EStateM.Result Fault Store Value → Bool
  | .ok _ τ => !τ.overran && τ.journal.isEmpty
  | .error _ _ => false

private theorem bind_calm {r : EStateM.Result Fault Store Value} (h : bindReturns r = true) :
    ¬ Spoiled (storeAfter r) := by
  cases r with
  | ok a τ =>
    simp only [bindReturns, Bool.and_eq_true, Bool.not_eq_true', List.isEmpty_iff] at h
    rintro (beyond | ⟨report, member, _⟩)
    · simp [storeAfter, h.1] at beyond
    · simp [storeAfter, h.2] at member
  | error => cases h

/-- The laws at chains that take two characters or fail after one, on a store with parsers for both sides. -/
theorem chain_monadic_twoCharacters :
    (bindReturns ((machine bindHost 10 6).run 3 (.str "ab") (.int 0) .none bindStore) = true ∧
      bindSides.EndAlike ((machine bindHost 10 6).run 3 (.str "ab") (.int 0) .none bindStore)
        ((machine bindHost 10 7).run 4 (.str "ab") (.int 0) .none bindStore)) ∧
    (bindReturns (Behave.runReturned (machine bindHost 10 6) (bindFunction 0 []) (.int 7) (.str "ab") (.int 0)
        .none bindStore) = true ∧
      bindSides.EndAlike (Behave.runReturned (machine bindHost 10 6) (bindFunction 0 []) (.int 7) (.str "ab")
          (.int 0) .none bindStore)
        ((machine bindHost 10 7).run 6 (.str "ab") (.int 0) .none bindStore)) ∧
    (bindReturns ((machine bindHost 10 6).run 0 (.str "ab") (.int 0) .none bindStore) = true ∧
      bindSides.EndAlike ((machine bindHost 10 6).run 0 (.str "ab") (.int 0) .none bindStore)
        ((machine bindHost 10 7).run 7 (.str "ab") (.int 0) .none bindStore)) ∧
    (bindReturns ((machine bindHost 10 6).run 8 (.str "ab") (.int 0) .none bindStore) = true ∧
      bindSides.EndAlike ((machine bindHost 10 6).run 8 (.str "ab") (.int 0) .none bindStore)
        ((machine bindHost 10 8).run 9 (.str "ab") (.int 0) .none bindStore)) := by
  have here := bindSides.later_refl bindGrowth
  have start : bindSides.stores bindGrowth bindStore bindStore :=
    { left := Nat.le_refl _, right := Nat.le_refl _, unedited := rfl, unedited' := rfl,
      names := fun _ none => none.elim, silent := rfl, silent' := rfl, parsers := rfl, parsers' := rfl }
  have text : Twin bindGrowth.bounds (.str "ab") (.str "ab") := Formed.peer (.str _)
  have env : Twin bindGrowth.bounds .none .none := Formed.peer (.plain trivial)
  have zero : (0 : Int) ≤ 0 := Int.le_refl _
  have one : 6 + 1 ≤ 7 := by decide
  have two : 6 + 2 ≤ 8 := by decide
  have first := bind_decides (n := 0) here (fun _ _ _ => rfl) bind_character
  have second := bind_decides (n := 1) here (fun _ _ _ => rfl) bind_failure
  have binds := binds_of_eq (f := bindFunction 0 []) (g := bindFunction 1 []) (h := bindFunction 2 [])
    growing_grows first trivial fun _ _ _ => bind_call _ 2 [] _ _
  have succeeds := succeeds_of_eq (f := bindFunction 3 []) (w := bindGrowth) growing_grows
    fun _ _ _ => bind_call _ 3 [] _ _
  have last : ∀ depth read v env, (machine bindHost 10 (depth + 1)).call (bindCollect [] read) [v, env] =
      Grammar.succeed (.list (read ++ [v])) := fun depth read v env =>
    bind_call depth 4 [("parsers", .list []), ("read", .list read)] v env
  have next : ∀ depth p ps read v env, (machine bindHost 10 (depth + 1)).call (bindCollect (p :: ps) read)
      [v, env] = Grammar.chain (.parser p) (bindCollect ps (read ++ [v])) := fun depth p ps read v env =>
    bind_call depth 4 [("parsers", .list ((p :: ps).map .parser)), ("read", .list read)] v env
  have function : ∀ ps read, (bindCollect ps read).content.IsClosure := fun _ _ => trivial
  have character := bind_character here
  have collects := collects_of_eq growing_grows function last next (.cons character .nil) character
    .nil (bind_second here (p := 9) rfl rfl)
  obtain ⟨regrouped, after, before, collected⟩ :=
    chain_monadic bindSides bindHost_keeps growing_grows 10 (0 ≤ ·) bindGrowth
  refine ⟨?_, ?_, ?_, ?_⟩
  · have ran : bindReturns ((machine bindHost 10 6).run 3 (.str "ab") (.int 0) .none bindStore) = true := by
      decide +kernel
    have same := regrouped character second binds (bind_first here (p := 2) rfl rfl)
      (bind_first here (p := 3) rfl rfl) (bind_second here (p := 4) rfl rfl)
    exact ⟨ran, same one zero text env start (bind_calm ran)⟩
  · have ran : bindReturns (Behave.runReturned (machine bindHost 10 6) (bindFunction 0 []) (.int 7) (.str "ab")
        (.int 0) .none bindStore) = true := by
      decide +kernel
    have seven : Twin bindGrowth.bounds (.int 7) (.int 7) := Formed.peer (.int _)
    have same := after seven first (bind_second here (p := 5) rfl rfl) (bind_second here (p := 6) rfl rfl)
    exact ⟨ran, same one zero text env start (bind_calm ran)⟩
  · have ran : bindReturns ((machine bindHost 10 6).run 0 (.str "ab") (.int 0) .none bindStore) = true := by
      decide +kernel
    have same := before character succeeds (bind_second here (p := 7) rfl rfl)
    exact ⟨ran, same one zero text env start (bind_calm ran)⟩
  · have ran : bindReturns ((machine bindHost 10 6).run 8 (.str "ab") (.int 0) .none bindStore) = true := by
      decide +kernel
    have same := collected (bind_first here (p := 8) rfl rfl) collects
    exact ⟨ran, same two zero text env start (bind_calm ran)⟩

end Rebind
