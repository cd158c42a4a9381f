import Rebind.Proofs.Courses
import Rebind.Proofs.Likeness
/-!
# Evaluations that mirror each other

An evaluation that trace handlers may hear of is followed by one that none hears of if the two end alike,
unless a limit was met or a handler raised an error on the way.  Everything that behaviours do is followed
in this sense if the machines below them are.
-/
namespace Rebind

open Course

/-- Whether a report is of a call in which the handler raised an error. -/
def Trace.Report.isRefused : Trace.Report → Bool
  | .enter _ (some _) | .exit _ _ (some _) | .abort _ _ (some _) => true
  | _ => false

/-- A run or a call was nested too deeply, or a handler raised an error. -/
def Spoiled (σ : Store) : Prop := σ.overran = true ∨ ∃ r ∈ σ.journal, r.isRefused = true

/-- What was spoiled stays so when something is put on record. -/
theorem Spoiled.record {σ : Store} (h : Spoiled σ) (r : Trace.Report) : Spoiled (σ.record r) := by
  rcases h with beyond | ⟨q, member, refused⟩
  · exact .inl beyond
  · exact .inr ⟨q, List.mem_cons_of_mem r member, refused⟩

/-- The course in which what was spoiled stays so. -/
def Course.heeding : Course where
  leads σ τ := Spoiled σ → Spoiled τ
  refl _ h := h
  trans first second h := second (first h)

variable {share : Value → Eval Value} {M : Resemblance share} {w : M.World} {α β γ δ : Type}

/-- The one evaluation is followed by the other: if it returns, so does the other one, and likewise if it
raises an error or never ends. -/
def Resemblance.Follows (M : Resemblance share) (w : M.World) (x : Eval α) (y : Eval β)
    (R : M.World → α → β → Prop) : Prop :=
  ∀ σ σ', M.stores w σ σ' → Ends x σ
    (fun a τ => Spoiled τ ∨ ∃ b τ' w', y σ' = .ok b τ' ∧ M.later w w' ∧ M.stores w' τ τ' ∧ R w' a b)
    fun e τ => Spoiled τ ∨ match e with
      | .raised e => ∃ e' τ' w', y σ' = .error (.raised e') τ' ∧ M.later w w' ∧ M.stores w' τ τ' ∧
        M.errors w' e e'
      | .endless => ∃ τ', y σ' = .error .endless τ'

section Follows

variable {x : Eval α} {y : Eval β} {R : M.World → α → β → Prop} {f : α → Eval γ} {g : β → Eval δ}
  {Q : M.World → γ → δ → Prop}

theorem follows_pure {a : α} {b : β} (h : R w a b) : M.Follows w (pure a) (pure b) R :=
  fun _ σ' hs => .inr ⟨b, σ', w, rfl, M.later_refl w, hs, h⟩

theorem follows_raise (c : Cause) : M.Follows w (raise c) (raise c) R :=
  fun _ σ' hs => .inr ⟨.error c, σ', w, rfl, M.later_refl w, hs, M.cause c⟩

theorem follows_endless : M.Follows w (throw .endless) (throw .endless) R :=
  fun _ σ' _ => .inr ⟨σ', rfl⟩

/-- What only reads and goes alike is followed. -/
theorem Resemblance.Same.follows {P : α → β → Prop} (h : M.Same w x y P)
    (hr : ∀ a b, P a b → R w a b) : M.Follows w x y R := by
  intro σ σ' hs
  rcases h σ σ' hs with ⟨a, b, hx, hy, hab⟩ | ⟨c, hx, hy⟩
  · simp only [Ends, hx]
    exact .inr ⟨b, σ', w, hy, M.later_refl w, hs, hr a b hab⟩
  · simp only [Ends, hx]
    exact .inr ⟨.error c, σ', w, hy, M.later_refl w, hs, M.cause c⟩

/-- First both sides read. -/
theorem Resemblance.Same.then {P : α → β → Prop} (h : M.Same w x y P)
    (hf : ∀ a b, P a b → M.Follows w (f a) (g b) Q) : M.Follows w (x >>= f) (y >>= g) Q := by
  intro σ σ' hs
  simp only [Ends, Bind.bind, EStateM.bind]
  rcases h σ σ' hs with ⟨a, b, hx, hy, hab⟩ | ⟨c, hx, hy⟩
  · simp only [hx, hy]
    exact hf a b hab σ σ' hs
  · simp only [hx, hy]
    exact .inr ⟨.error c, σ', w, rfl, M.later_refl w, hs, M.cause c⟩

/-- What was followed from later on was followed from before. -/
theorem follows_earlier {u : M.World} (led : M.later w u) {σ σ' : Store} (h : Ends x σ
    (fun a τ => Spoiled τ ∨ ∃ b τ' w', y σ' = .ok b τ' ∧ M.later u w' ∧ M.stores w' τ τ' ∧ R w' a b)
    fun e τ => Spoiled τ ∨ match e with
      | .raised e => ∃ e' τ' w', y σ' = .error (.raised e') τ' ∧ M.later u w' ∧ M.stores w' τ τ' ∧
        M.errors w' e e'
      | .endless => ∃ τ', y σ' = .error .endless τ') : Ends x σ
    (fun a τ => Spoiled τ ∨ ∃ b τ' w', y σ' = .ok b τ' ∧ M.later w w' ∧ M.stores w' τ τ' ∧ R w' a b)
    fun e τ => Spoiled τ ∨ match e with
      | .raised e => ∃ e' τ' w', y σ' = .error (.raised e') τ' ∧ M.later w w' ∧ M.stores w' τ τ' ∧
        M.errors w' e e'
      | .endless => ∃ τ', y σ' = .error .endless τ' := by
  refine h.mono ?_ ?_
  · rintro a τ (spoiled | ⟨b, τ', w', hy, led', rest⟩)
    · exact .inl spoiled
    · exact .inr ⟨b, τ', w', hy, M.later_trans led led', rest⟩
  · intro e τ ended
    refine ended.imp id fun ended => ?_
    cases e with
    | raised e =>
      obtain ⟨e', τ', w', hy, led', rest⟩ := ended
      exact ⟨e', τ', w', hy, M.later_trans led led', rest⟩
    | endless => exact ended

/-- What comes after an evaluation that was followed is followed where nothing was spoiled. -/
theorem Resemblance.Follows.bind (h : M.Follows w x y R) (keeps : ∀ a, Course.heeding.Keeps (f a))
    (hf : ∀ w' a b, M.later w w' → R w' a b → M.Follows w' (f a) (g b) Q) :
    M.Follows w (x >>= f) (y >>= g) Q := by
  intro σ σ' hs
  refine Ends.bind ((h σ σ' hs).mono (fun _ _ h => h) ?_) ?_
  · intro e τ ended
    refine ended.imp id fun ended => ?_
    simp only [Bind.bind, EStateM.bind]
    cases e with
    | raised e =>
      obtain ⟨e', τ', w', hy, rest⟩ := ended
      exact ⟨e', τ', w', by rw [hy], rest⟩
    | endless =>
      obtain ⟨τ', hy⟩ := ended
      exact ⟨τ', by rw [hy]⟩
  · rintro a τ (spoiled | ⟨b, τ', w', hy, led, hs', hr⟩)
    · exact (keeps a τ).mono (fun _ _ still => .inl (still spoiled)) fun _ _ still =>
        .inl (still trivial spoiled)
    · have rest := hf w' a b led hr τ τ' hs'
      simp only [Bind.bind, EStateM.bind, hy]
      exact follows_earlier led rest

/-- What is known of the two ends may be weakened. -/
theorem Resemblance.Follows.mono {R' : M.World → α → β → Prop} (h : M.Follows w x y R)
    (hr : ∀ w' a b, M.later w w' → R w' a b → R' w' a b) : M.Follows w x y R' := by
  intro σ σ' hs
  refine (h σ σ' hs).imp ?_
  rintro a τ (spoiled | ⟨b, τ', w', hy, led, hs', hab⟩)
  · exact .inl spoiled
  · exact .inr ⟨b, τ', w', hy, led, hs', hr w' a b led hab⟩

theorem follows_ite {x' : Eval α} {y' : Eval β} {b b' : Bool} (same : b = b')
    (yes : M.Follows w x y R) (no : M.Follows w x' y' R) :
    M.Follows w (if b = true then x else x') (if b' = true then y else y') R := by
  subst same
  split
  · exact yes
  · exact no

end Follows

/-! ### One side alone -/

section Alone

variable {x : Eval α} {y : Eval β} {f : α → Eval γ} {g : β → Eval δ}

/-- An evaluation on the first side for which there is none on the second. -/
def Resemblance.Aside (M : Resemblance share) (w : M.World) (x : Eval α) (P : M.World → α → Prop) : Prop :=
  ∀ σ σ', M.stores w σ σ' →
    Ends x σ (fun a τ => ∃ u, M.later w u ∧ M.stores u τ σ' ∧ P u a) fun _ τ => Spoiled τ

theorem aside_pure {a : α} {P : M.World → α → Prop} (h : P w a) : M.Aside w (pure a) P :=
  fun _ _ hs => ⟨w, M.later_refl w, hs, h⟩

/-- What the handlers' side does alone may go on. -/
theorem Resemblance.Aside.bind {P : M.World → α → Prop} {Q : M.World → γ → Prop} (h : M.Aside w x P)
    (hf : ∀ u a, M.later w u → P u a → M.Aside u (f a) Q) : M.Aside w (x >>= f) Q := by
  intro σ σ' hs
  refine Ends.bind (h σ σ' hs) ?_
  rintro a τ ⟨u, led, hs', ha⟩
  refine (hf u a led ha τ σ' hs').mono ?_ fun _ _ spoiled => spoiled
  rintro b υ ⟨u', led', rest⟩
  exact ⟨u', M.later_trans led led', rest⟩

/-- What comes after it is followed by what the other side does in the first place. -/
theorem Resemblance.Aside.then {P : M.World → α → Prop} {R : M.World → γ → β → Prop} (h : M.Aside w x P)
    (hf : ∀ u a, M.later w u → P u a → M.Follows u (f a) y R) : M.Follows w (x >>= f) y R := by
  intro σ σ' hs
  refine Ends.bind ((h σ σ' hs).mono (fun _ _ h => h) fun _ _ spoiled => .inl spoiled) ?_
  rintro a τ ⟨u, led, hs', ha⟩
  exact follows_earlier led (hf u a led ha τ σ' hs')

/-- It may come after everything that the other side does. -/
theorem Resemblance.Aside.follows {b : β} {P : M.World → α → Prop} {R : M.World → α → β → Prop}
    (h : M.Aside w x P) (hr : ∀ u a, M.later w u → P u a → R u a b) : M.Follows w x (pure b) R := by
  intro σ σ' hs
  refine (h σ σ' hs).mono ?_ fun _ _ spoiled => .inl spoiled
  rintro a τ ⟨u, led, hs', ha⟩
  exact .inr ⟨b, σ', u, rfl, led, hs', hr u a led ha⟩

/-- An evaluation on the second side for which there is none on the first.  It returns. -/
def Resemblance.Beside (M : Resemblance share) (w : M.World) (y : Eval β) (P : M.World → β → Prop) : Prop :=
  ∀ σ σ', M.stores w σ σ' → ∃ b τ' u, y σ' = .ok b τ' ∧ M.later w u ∧ M.stores u σ τ' ∧ P u b

theorem beside_pure {b : β} {P : M.World → β → Prop} (h : P w b) : M.Beside w (pure b) P :=
  fun _ σ' hs => ⟨b, σ', w, rfl, M.later_refl w, hs, h⟩

theorem Resemblance.Beside.mono {P Q : M.World → β → Prop} (h : M.Beside w y P)
    (hp : ∀ u b, M.later w u → P u b → Q u b) : M.Beside w y Q := by
  intro σ σ' hs
  obtain ⟨b, τ', u, returned, led, hs', hb⟩ := h σ σ' hs
  exact ⟨b, τ', u, returned, led, hs', hp u b led hb⟩

/-- What only reads has nothing to correspond to. -/
theorem beside_asks {P : M.World → β → Prop} (h : Asks y) (all : ∀ b, P w b) : M.Beside w y P := by
  intro σ σ' hs
  obtain ⟨b, read⟩ := h σ'
  exact ⟨b, σ', w, read, M.later_refl w, hs, all b⟩

/-- So may what the other side does alone. -/
theorem Resemblance.Beside.bind {P : M.World → β → Prop} {Q : M.World → δ → Prop} (h : M.Beside w y P)
    (hg : ∀ u b, M.later w u → P u b → M.Beside u (g b) Q) : M.Beside w (y >>= g) Q := by
  intro σ σ' hs
  obtain ⟨b, τ', u, returned, led, hs', hb⟩ := h σ σ' hs
  obtain ⟨d, υ', u', returned', led', rest⟩ := hg u b led hb σ τ' hs'
  exact ⟨d, υ', u', by rw [bind_ok returned, returned'], M.later_trans led led', rest⟩

/-- What comes after it follows what the other side does in the first place. -/
theorem Resemblance.Beside.then {P : M.World → β → Prop} {R : M.World → α → δ → Prop} (h : M.Beside w y P)
    (hg : ∀ u b, M.later w u → P u b → M.Follows u x (g b) R) : M.Follows w x (y >>= g) R := by
  intro σ σ' hs
  obtain ⟨b, τ', u, returned, led, hs', hb⟩ := h σ σ' hs
  rw [bind_ok returned]
  exact follows_earlier led (hg u b led hb σ τ' hs')

end Alone

/-! ### How evaluations end -/

/-- Evaluations that end alike: with results that correspond and show themselves in the same way, with such
errors, or both never. -/
inductive Resemblance.EndAlike (M : Resemblance share) :
    EStateM.Result Fault Store Value → EStateM.Result Fault Store Value → Prop
  | returned {u : M.World} {a a' : Value} {τ τ' : Store} (stores : M.stores u τ τ')
    (values : M.values u a a') (shown : (τ.snapshot a).literal = (τ'.snapshot a').literal) :
    EndAlike M (.ok a τ) (.ok a' τ')
  | raised {u : M.World} {e e' : Value} {τ τ' : Store} (stores : M.stores u τ τ')
    (errors : M.errors u e e') (shown : (τ.snapshot e).literal = (τ'.snapshot e').literal) :
    EndAlike M (.error (.raised e) τ) (.error (.raised e') τ')
  | endless {τ τ' : Store} : EndAlike M (.error .endless τ) (.error .endless τ')

def storeAfter : EStateM.Result Fault Store Value → Store
  | .ok _ τ | .error _ τ => τ

/-- A run that was not spoiled ends as the one that follows it. -/
theorem endAlike_of_follows {x y : Eval Value} (h : M.Follows w x y M.values) {σ σ' : Store}
    (hs : M.stores w σ σ') (calm : ¬ Spoiled (storeAfter (x σ))) : M.EndAlike (x σ) (y σ') := by
  have ended := h σ σ' hs
  cases run : x σ with
  | ok a τ =>
    rw [run] at calm
    rcases ended.ok run with spoiled | ⟨b, τ', u, hy, _, hs', like⟩
    · exact absurd spoiled calm
    · rw [hy]
      exact .returned hs' like (M.shown hs' like).2.1
  | error e τ =>
    rw [run] at calm
    rcases ended.error run with spoiled | ended
    · exact absurd spoiled calm
    · cases e with
      | raised e =>
        obtain ⟨e', τ', u, hy, _, hs', like⟩ := ended
        rw [hy]
        exact .raised hs' like (M.error_shown hs' like)
      | endless =>
        obtain ⟨τ', hy⟩ := ended
        rw [hy]
        exact .endless

/-- What a run is given on the two sides. -/
structure Resemblance.Given (M : Resemblance share) (w : M.World) (text i env text' i' env' : Value) :
    Prop where
  text : M.values w text text'
  index : M.values w i i'
  env : M.values w env env'

theorem Resemblance.Given.later {text i env text' i' env' : Value} {w' : M.World}
    (h : M.Given w text i env text' i' env') (led : M.later w w') :
    M.Given w' text i env text' i' env' :=
  ⟨M.values_later led h.text, M.values_later led h.index, M.values_later led h.env⟩

/-- Two parsers are run alike from now on, wherever they start. -/
def Resemblance.RunsAlike (M : Resemblance share) (w : M.World) (m m' : Machine) (p p' : ParserId)
    (text env text' env' : Value) : Prop :=
  ∀ ⦃u i i'⦄, M.later w u → M.values u i i' →
    M.Follows u (m.run p text i env) (m'.run p' text' i' env') M.values

/-- Parsers that are run alike stay so. -/
theorem Resemblance.RunsAlike.later {m m' : Machine} {p p' : ParserId} {text env text' env' : Value} {u : M.World}
    (h : M.RunsAlike w m m' p p' text env text' env') (led : M.later w u) :
    M.RunsAlike u m m' p p' text env text' env' := fun _ _ _ led' place => h (M.later_trans led led') place

section Rules

variable {m m' : Machine} {text i env text' i' env' : Value}

/-- Values get identities on both sides. -/
theorem follows_share (hs : m.share = share) (hs' : m'.share = share) {v v' : Value} (h : M.values w v v') :
    M.Follows w (m.share v) (m'.share v') M.values := by
  intro σ σ' stores
  obtain ⟨u, τ, u', τ', w', hx, hy, led, stores', huu⟩ := M.shared stores h
  rw [hs, hs']
  exact Ends.of_eq_ok hx (.inr ⟨u', τ', w', hy, led, stores', huu⟩)

/-! ### Behaviours that run nothing -/

theorem same_anyChar (h : M.Given w text i env text' i' env') :
    M.Same w (Behave.anyChar text i env) (Behave.anyChar text' i' env') (M.values w) := by
  refine (same_lengthOf h.text).bind fun n n' same => ?_
  subst same
  refine (same_atMost (M.formed (.int _)) h.index).bind fun b b' same => ?_
  refine same_ite same (same_pure (values_failure h.index _)) ?_
  refine (same_addTo h.index (M.formed (.int _))).bind fun next next' place => ?_
  exact (same_itemOf h.text h.index).bind fun c c' item => same_pure (values_success place item)

theorem same_rest (h : M.Given w text i env text' i' env') :
    M.Same w (Behave.rest text i env) (Behave.rest text' i' env') (M.values w) := by
  refine (same_lengthOf h.text).bind fun n n' same => ?_
  subst same
  refine (same_sliceOf h.text h.index (M.formed (.plain (v := .none) trivial))).bind fun left left' part => ?_
  exact same_pure (values_success (M.formed (.int _)) (M.formed part))

theorem same_eof (h : M.Given w text i env text' i' env') :
    M.Same w (Behave.eof text i env) (Behave.eof text' i' env') (M.values w) := by
  refine (same_lengthOf h.text).bind fun n n' same => ?_
  subst same
  refine (same_lessThan h.index (M.formed (.int _))).bind fun b b' same => ?_
  refine same_ite same (same_pure (values_failure h.index _)) ?_
  exact same_pure (values_success h.index (M.formed (.plain trivial)))

theorem same_string (literal : String) (h : M.Given w text i env text' i' env') :
    M.Same w (Behave.string literal text i env) (Behave.string literal text' i' env')
      (M.values w) := by
  refine (same_holdsAt literal h.text h.index).bind fun b b' same => ?_
  refine same_ite same ?_ (same_pure (values_failure h.index _))
  refine (same_addTo h.index (M.formed (.int _))).bind fun next next' place => ?_
  exact same_pure (values_success place (M.formed (.str _)))

theorem same_regex (r : Regex) (group : Nat) (h : M.Given w text i env text' i' env') :
    M.Same w (Behave.regex r group text i env) (Behave.regex r group text' i' env') (M.values w) := by
  refine (same_sliceOf h.text h.index (M.formed (.plain (v := .none) trivial))).bind fun left left' part => ?_
  cases part with
  | plain plain =>
    split
    · refine same_ite rfl (same_raise _) ?_
      split
      · next found _ =>
        refine (same_addTo h.index (M.formed (.int _))).bind fun next next' place => ?_
        have groups : M.Same w (Behave.groupOf r found group) (Behave.groupOf r found group)
            (M.values w) := by
          unfold Behave.groupOf
          split
          · exact same_raise _
          · refine same_pure ?_
            split
            · exact M.formed (.str _)
            · exact M.formed (.plain trivial)
        exact groups.bind fun c c' item => same_pure (values_success place item)
      · exact same_pure (values_failure h.index _)
    · exact same_raise _
  | _ => exact same_raise _

theorem same_lineColumnIndex (h : M.Given w text i env text' i' env') :
    M.Same w (Behave.lineColumnIndex text i env) (Behave.lineColumnIndex text' i' env')
      (M.values w) :=
  (same_lineColumnOf h.text h.index).bind fun _ _ place => same_pure (values_success h.index place)

/-- A behaviour that goes by the text and the index alone. -/
def Behaviour.IsBlind : Behaviour Value → Prop
  | .anyChar | .rest | .eof | .index | .lineColumnIndex | .fail _ | .string _ | .regex _ _ => True
  | _ => False

/-- Leaves go alike on texts and indices that correspond. -/
theorem follows_blind {b : Behaviour Value} (blind : b.IsBlind) (ht : M.values w text text')
    (hi : M.values w i i') :
    M.Follows w (behave m b text i env) (behave m' b text' i' env') M.values := by
  have h : M.Given w text i .none text' i' .none := ⟨ht, hi, M.formed (.plain trivial)⟩
  have read : ∀ {x y : Eval Value}, M.Same w x y (M.values w) → M.Follows w x y M.values :=
    fun same => same.follows fun _ _ h => h
  cases b with
  | anyChar => exact read (same_anyChar h)
  | rest => exact read (same_rest h)
  | eof => exact read (same_eof h)
  | index => exact follows_pure (values_success hi hi)
  | lineColumnIndex => exact read (same_lineColumnIndex h)
  | fail d => exact follows_pure (values_failure hi d)
  | string s => exact read (same_string s h)
  | regex r group => exact read (same_regex r group h)
  | _ => exact blind.elim

/-! ### Behaviours that run parsers or call functions -/

/-- What depends on whether a result is a success. -/
theorem follows_judged {x x' y y' : Result → Eval α} {R : M.World → α → α → Prop} {v v' : Value}
    (h : M.values w v v')
    (yes : ∀ r r', r.Alike (M.values w) r' → M.Follows w (x r) (x' r') R)
    (no : ∀ r r', r.Alike (M.values w) r' → M.Follows w (y r) (y' r') R) :
    M.Follows w (do
      let r ← resultOf v
      if ← truthy r.status then x r else y r) (do
      let r ← resultOf v'
      if ← truthy r.status then x' r else y' r) R := by
  refine (same_resultOf h).then fun r r' parts => ?_
  refine (same_truthy parts.status).then fun b b' same => ?_
  exact follows_ite same (yes r r' parts) (no r r' parts)

/-- A predicate is asked about characters that correspond. -/
theorem follows_testChar {f f' : Value}
    (calls : ∀ {u c c'}, M.later w u → M.values u c c' →
      M.Follows u (m.call f [c, env]) (m'.call f' [c', env']) M.values)
    (d : String) (h : M.Given w text i env text' i' env') :
    M.Follows w (Behave.testChar m f d text i env) (Behave.testChar m' f' d text' i' env')
      M.values := by
  have asked : M.Follows w (Behave.accepts m f text i env) (Behave.accepts m' f' text' i' env')
      fun _ => Eq := by
    refine (same_lengthOf h.text).then fun n n' same => ?_
    subst same
    refine (same_lessThan h.index (M.formed (.int _))).then fun b b' same => ?_
    refine follows_ite same ?_ (follows_pure rfl)
    refine (same_itemOf h.text h.index).then fun c c' item => ?_
    refine (calls (M.later_refl w) item).bind (fun v => ?_) fun w' v v' _ answer => ?_
    · exact keeps_truthy _ v
    · exact (same_truthy answer).follows fun _ _ same => same
  refine asked.bind (fun b => ?_) fun w' b b' led same => ?_
  · refine keeps_ite _ (keeps_bind (keeps_addTo _ _ _) fun next => ?_) (keeps_pure _ _)
    exact keeps_bind (keeps_itemOf _ _ _) fun c => keeps_pure _ _
  · have h := h.later led
    refine follows_ite same ?_ (follows_pure (values_failure h.index d))
    refine (same_addTo h.index (M.formed (.int _))).then fun next next' place => ?_
    exact (same_itemOf h.text h.index).then fun c c' item => follows_pure (values_success place item)

/-- By induction on the parts, with the values that were read so far. -/
theorem follows_sequenceFrom (keeps : m.Keeps .heeding) {parts parts' : List ParserId}
    (runs : List.Forall₂ (M.RunsAlike w m m' · · text env text' env') parts parts')
    {previous previous' : Value} {items items' : List Value} (place : M.values w i i')
    (before : M.values w previous previous') (read : List.Forall₂ (M.values w) items items') :
    M.Follows w (Behave.sequenceFrom m text env parts previous items i)
      (Behave.sequenceFrom m' text' env' parts' previous' items' i') M.values := by
  induction parts generalizing w parts' previous previous' items items' i i' with
  | nil =>
    cases runs
    have all := values_success place (M.formed (.list read))
    exact (same_mergeOver all before).follows fun _ _ merged => merged
  | cons p ps ih =>
    obtain _ | ⟨head, rest⟩ := runs
    refine (head (M.later_refl w) place).bind (fun a => ?_) fun w' a a' led outcome => ?_
    · refine keeps_bind (keeps_mergeOver _ _ _) fun merged => ?_
      refine keeps_judged _ (fun r => ?_) fun r => keeps_pure _ _
      exact keeps_sequenceFrom keeps _ _ _ _ _ _
    have rest := rest.imp fun _ _ runs => runs.later led
    have before := M.values_later led before
    have read := read.imp fun _ _ => M.values_later led
    refine (same_mergeOver outcome before).then fun merged merged' both => ?_
    refine follows_judged both (fun r r' parts => ?_) fun r r' parts => follows_pure both
    exact ih rest parts.index both (List.rel_append read (.cons parts.value .nil))

/-- By induction on the choices, with the failure before them. -/
theorem follows_alternativeFrom (keeps : m.Keeps .heeding) {choices choices' : List ParserId}
    (runs : List.Forall₂ (M.RunsAlike w m m' · · text env text' env') choices choices')
    {previous previous' : Value} (place : M.values w i i') (before : M.values w previous previous') :
    M.Follows w (Behave.alternativeFrom m text i env choices previous)
      (Behave.alternativeFrom m' text' i' env' choices' previous') M.values := by
  induction choices generalizing w choices' previous previous' with
  | nil =>
    cases runs
    exact follows_pure before
  | cons p ps ih =>
    obtain _ | ⟨head, rest⟩ := runs
    refine (head (M.later_refl w) place).bind (fun a => ?_) fun w' a a' led outcome => ?_
    · refine keeps_bind (keeps_mergeOver _ _ _) fun merged => ?_
      refine keeps_judged _ (fun r => keeps_pure _ _) fun r => ?_
      exact keeps_alternativeFrom keeps _ _ _ _ _
    have rest := rest.imp fun _ _ runs => runs.later led
    have place := M.values_later led place
    refine (same_mergeOver outcome (M.values_later led before)).then fun merged merged' both => ?_
    exact follows_judged both (fun _ _ _ => follows_pure both) fun _ _ _ => ih rest place both

/-- Rounds of a repetition that have led to the same place. -/
inductive Behave.Progress.Alike (R : Value → Value → Prop) : Progress → Progress → Prop
  | failed {v v' : Value} (h : R v v') : Alike R (.failed v) (.failed v')
  | reached {i i' : Value} {xs ys : List Value} (place : R i i') (read : List.Forall₂ R xs ys) :
    Alike R (.reached i xs) (.reached i' ys)

/-- By induction on the rounds. -/
theorem follows_requiredRounds (keeps : m.Keeps .heeding) {item item' : ParserId}
    (runs : M.RunsAlike w m m' item item' text env text' env') (n : Nat)
    {previous previous' : Value} {items items' : List Value} (place : M.values w i i')
    (before : M.values w previous previous') (read : List.Forall₂ (M.values w) items items') :
    M.Follows w (Behave.requiredRounds m item text env n previous items i)
      (Behave.requiredRounds m' item' text' env' n previous' items' i')
      fun w => Behave.Progress.Alike (M.values w) := by
  induction n generalizing w previous previous' items items' i i' with
  | zero => exact follows_pure (.reached place read)
  | succ n ih =>
    refine (runs (M.later_refl w) place).bind (fun a => ?_) fun w' a a' led outcome => ?_
    · refine keeps_bind (keeps_mergeOver _ _ _) fun merged => ?_
      refine keeps_judged _ (fun r => ?_) fun r => keeps_pure _ _
      exact keeps_requiredRounds keeps _ _ _ _ _ _ _
    have before := M.values_later led before
    have read := read.imp fun _ _ => M.values_later led
    refine (same_mergeOver outcome before).then fun merged merged' both => ?_
    refine follows_judged outcome (fun r r' parts => ?_) fun _ _ _ => follows_pure (.failed both)
    exact ih (runs.later led) parts.index both (List.rel_append read (.cons parts.value .nil))

theorem follows_optionalRounds (keeps : m.Keeps .heeding) {item item' : ParserId}
    (runs : M.RunsAlike w m m' item item' text env text' env') (n : Nat)
    {items items' : List Value} (place : M.values w i i') (read : List.Forall₂ (M.values w) items items') :
    M.Follows w (Behave.optionalRounds m item text env n items i)
      (Behave.optionalRounds m' item' text' env' n items' i')
      fun w x y => x.1 = y.1 ∧ M.values w x.2.1 y.2.1 ∧ List.Forall₂ (M.values w) x.2.2 y.2.2 := by
  induction n generalizing w items items' i i' with
  | zero => exact follows_pure ⟨rfl, place, read⟩
  | succ n ih =>
    refine (runs (M.later_refl w) place).bind (fun a => ?_) fun w' a a' led outcome => ?_
    · refine keeps_judged _ (fun r => ?_) fun r => keeps_pure _ _
      exact keeps_optionalRounds keeps _ _ _ _ _ _
    have place := M.values_later led place
    have read := read.imp fun _ _ => M.values_later led
    refine follows_judged outcome (fun r r' parts => ?_) fun _ _ _ => follows_pure ⟨rfl, place, read⟩
    exact ih (runs.later led) parts.index (List.rel_append read (.cons parts.value .nil))

/-- The rounds that may follow, with a limit or without one. -/
theorem follows_moreRounds (keeps : m.Keeps .heeding) (rounds : m.rounds = m'.rounds) {item item' : ParserId}
    (runs : M.RunsAlike w m m' item item' text env text' env') (limit : Option Nat)
    {items items' : List Value} (place : M.values w i i') (read : List.Forall₂ (M.values w) items items') :
    M.Follows w (Behave.moreRounds m item text env limit items i)
      (Behave.moreRounds m' item' text' env' limit items' i') M.values := by
  unfold Behave.moreRounds
  rw [← rounds]
  refine (follows_optionalRounds keeps runs _ place read).bind (fun a => ?_) fun w' a a' led reached => ?_
  · exact keeps_ite _ (keeps_throw _ _) (keeps_pure _ _)
  obtain ⟨stopped, place, all⟩ := reached
  obtain ⟨b, j, xs⟩ := a
  obtain ⟨b', j', ys⟩ := a'
  obtain rfl : b = b' := stopped
  exact follows_ite rfl follows_endless (follows_pure (values_success place (M.formed (.list all))))

theorem follows_repetition (keeps : m.Keeps .heeding) (rounds : m.rounds = m'.rounds) {item item' : ParserId}
    (runs : M.RunsAlike w m m' item item' text env text' env') (least most : Count)
    (place : M.values w i i') :
    M.Follows w (Behave.repetition m item least most text i env)
      (Behave.repetition m' item' least most text' i' env') M.values := by
  have nothing := M.formed (w := w) (.plain (v := .none) trivial)
  unfold Behave.repetition
  rw [← rounds]
  refine (follows_requiredRounds keeps runs _ place nothing .nil).bind (fun a => ?_)
    fun w' a a' led progress => ?_
  · cases a with
    | failed v => exact keeps_pure _ v
    | reached j xs =>
      dsimp only
      split
      · refine keeps_bind (keeps_optionalRounds keeps _ _ _ _ _ _) fun reached => ?_
        exact keeps_ite _ (keeps_throw _ _) (keeps_pure _ _)
      · exact keeps_throw _ _
  · cases progress with
    | failed both => exact follows_pure both
    | reached place read =>
      dsimp only
      split
      · exact follows_moreRounds keeps rounds (runs.later led) _ place read
      · exact follows_endless

theorem follows_transform (keeps : m.Keeps .heeding) (hs : m.share = share) (hs' : m'.share = share)
    {inner inner' : ParserId} (runs : M.RunsAlike w m m' inner inner' text env text' env') {f f' : Value}
    (calls : ∀ {u v v'}, M.later w u → M.values u v v' →
      M.Follows u (m.call f [v, env]) (m'.call f' [v', env']) M.values)
    (place : M.values w i i') :
    M.Follows w (Behave.transform m inner f text i env)
      (Behave.transform m' inner' f' text' i' env') M.values := by
  refine (runs (M.later_refl w) place).bind (fun a => ?_) fun w' a a' led outcome => ?_
  · refine keeps_judged _ (fun r => ?_) fun r => keeps_pure _ _
    exact keeps_bind (keeps.share _) fun v => keeps_bind (keeps.call _ _) fun _ => keeps_pure _ _
  refine follows_judged outcome (fun r r' parts => ?_) fun _ _ _ => follows_pure outcome
  refine (follows_share hs hs' parts.value).bind (fun v => ?_) fun w'' v v' led' argument => ?_
  · exact keeps_bind (keeps.call _ _) fun _ => keeps_pure _ _
  refine (calls (M.later_trans led led') argument).bind (fun v => keeps_pure _ _) fun u x x' led'' value => ?_
  exact follows_pure (values_success (M.values_later (M.later_trans led' led'') parts.index) value)

/-- The forbidden parser goes first on both sides. -/
theorem follows_exclude (keeps : m.Keeps .heeding) {allowed forbidden allowed' forbidden' : ParserId}
    (allows : M.RunsAlike w m m' allowed allowed' text env text' env')
    (forbids : M.RunsAlike w m m' forbidden forbidden' text env text' env') (place : M.values w i i') :
    M.Follows w (Behave.exclude m allowed forbidden text i env)
      (Behave.exclude m' allowed' forbidden' text' i' env') M.values := by
  refine (forbids (M.later_refl w) place).bind (fun a => ?_) fun w' found found' led outcome => ?_
  · refine keeps_judged _ (fun f => keeps_bind (keeps_textOf _ _) fun s => keeps_pure _ _) fun f => ?_
    exact keeps_bind (keeps.run _ _ _ _) fun outcome => keeps_unexcluded i outcome f.value
  have place := M.values_later led place
  refine follows_judged outcome (fun f f' against => ?_) fun f f' against => ?_
  · refine (same_textOf against.value).then fun s s' same => ?_
    subst same
    exact follows_pure (values_failure place _)
  refine (allows led place).bind (fun a => keeps_unexcluded i a f.value) fun w'' a a' led' outcome' => ?_
  have place := M.values_later led' place
  refine follows_judged outcome' (fun _ _ _ => follows_pure outcome') fun r r' parts => ?_
  refine (same_expectedText parts.value).then fun s s' same => ?_
  refine (same_expectedText (M.values_later led' against.value)).then fun u u' same' => ?_
  subst same same'
  exact follows_pure (values_failure place _)

theorem follows_describe {inner inner' : ParserId}
    (runs : M.RunsAlike w m m' inner inner' text env text' env') (d : String) (place : M.values w i i') :
    M.Follows w (Behave.describe m inner d text i env)
      (Behave.describe m' inner' d text' i' env') M.values := by
  refine (runs (M.later_refl w) place).bind (fun a => ?_) fun w' a a' led outcome => ?_
  · exact keeps_judged _ (fun r => keeps_pure _ _) fun r => keeps_pure _ _
  refine follows_judged outcome (fun _ _ _ => follows_pure outcome) fun r r' parts => follows_pure ?_
  have words := M.formed (w := w') (.list (.cons (M.formed (.str d)) .nil))
  exact M.formed (.result parts.status parts.index words)

theorem follows_mark {framed framed' : ParserId}
    (runs : M.RunsAlike w m m' framed framed' text env text' env') (place : M.values w i i') :
    M.Follows w (Behave.mark m framed text i env)
      (Behave.mark m' framed' text' i' env') M.values := by
  refine (runs (M.later_refl w) place).bind (fun a => ?_) fun w' a a' led outcome => ?_
  · refine keeps_judged _ (fun r => ?_) fun r => keeps_pure _ _
    exact keeps_bind (keeps_threeOf _) fun _ => keeps_pure _ _
  refine follows_judged outcome (fun r r' parts => ?_) fun _ _ _ => follows_pure outcome
  refine (same_threeOf parts.value).then fun x x' three => ?_
  exact follows_pure (values_success parts.index (M.formed (.mark three.1 three.2.1 three.2.2)))

/-- What `chain` does with the parser that its function returned. -/
def Behave.goOn (m : Machine) (decide next outcome text i env : Value) : Eval Value := do
  let name ← match decide.functionName? with
    | some name => pure name
    | none => textOf decide
  let id ← Grammar.parserOf ("chain(" ++ name ++ ")") next
  mergeOver (← m.run id text i env) outcome

/-- What `chain` does after a success, which was given identities: it asks for the next parser and runs it. -/
def Behave.chainOn (m : Machine) (decide outcome text env : Value) : Eval Value := do
  let r ← resultOf outcome
  let next ← m.call decide [r.value, env]
  Behave.goOn m decide next outcome text r.index env

theorem keeps_chainOn {K : Course} (keeps : m.Keeps K) (decide outcome text env : Value) :
    K.Keeps (Behave.chainOn m decide outcome text env) :=
  keeps_bind (K.keeps_resultOf _) fun r =>
    keeps_bind (keeps.call _ _) fun next => keeps_chosen keeps decide next outcome text r.index env

/-- The name of the function only matters if it returned no parser. -/
theorem goOn_eq {σ : Store} {p : ParserId} (decide outcome text i env : Value) (inside : p < σ.parsers.size) :
    Behave.goOn m decide (.parser p) outcome text i env σ =
      (do mergeOver (← m.run p text i env) outcome) σ := by
  unfold Behave.goOn
  cases decide.functionName? with
  | some name => exact bind_ok (parserOf_eq inside)
  | none =>
    obtain ⟨name, read⟩ : ∃ name, textOf decide σ = .ok name σ := ⟨_, rfl⟩
    exact (bind_ok read).trans (bind_ok (parserOf_eq inside))

theorem follows_chain (keeps : m.Keeps .heeding) (hs : m.share = share) (hs' : m'.share = share)
    {first first' : ParserId} (runs : M.RunsAlike w m m' first first' text env text' env')
    {decide decide' : Value}
    (goesOn : ∀ {u outcome outcome'}, M.later w u → M.values u outcome outcome' →
      M.Follows u (Behave.chainOn m decide outcome text env) (Behave.chainOn m' decide' outcome' text' env')
        M.values)
    (place : M.values w i i') :
    M.Follows w (Behave.chain m first decide text i env)
      (Behave.chain m' first' decide' text' i' env') M.values := by
  refine (runs (M.later_refl w) place).bind (fun a => ?_) fun w' a a' led outcome => ?_
  · exact keeps_judged _ (fun r => keeps_bind (keeps.share _) fun shared => keeps_chainOn keeps _ _ _ _)
      fun r => keeps_pure _ _
  refine follows_judged outcome (fun _ _ _ => ?_) fun _ _ _ => follows_pure outcome
  refine (follows_share hs hs' outcome).bind (fun _ => keeps_chainOn keeps _ _ _ _)
    fun w'' a a' led' outcome => ?_
  exact goesOn (M.later_trans led led') outcome

end Rules

/-! ### Machines that mirror each other -/

section Mirrors

variable {M : Likeness share} {w : M.World} {m m' : Machine} {text i env text' i' env' : Value}

/-- A machine whose services are followed by those of another one. -/
structure Likeness.Mirrors (M : Likeness share) (m m' : Machine) : Prop where
  keeps : m.Keeps .heeding
  run : ∀ {w text i env text' i' env'} p, M.Given w text i env text' i' env' →
    M.Follows w (m.run p text i env) (m'.run p text' i' env') M.values
  call : ∀ {w f f' xs ys}, M.functions w f f' → List.Forall₂ (M.values w) xs ys →
    M.Follows w (m.call f xs) (m'.call f' ys) M.values
  shares : m.share = share
  shares' : m'.share = share
  rounds : m.rounds = m'.rounds

/-- A machine that is mirrored runs every parser alike. -/
theorem Likeness.Mirrors.runsAlike (hm : M.Mirrors m m') (p : ParserId)
    (h : M.Given w text i env text' i' env') : M.RunsAlike w m m' p p text env text' env' :=
  fun _ _ _ led place => hm.run p ⟨M.values_later led h.text, place, M.values_later led h.env⟩

theorem Likeness.Mirrors.allRunAlike (hm : M.Mirrors m m') (h : M.Given w text i env text' i' env')
    (ps : List ParserId) : List.Forall₂ (M.RunsAlike w m m' · · text env text' env') ps ps :=
  List.forall₂_same.mpr fun p _ => hm.runsAlike p h

/-- A function that is given a value and the environment. -/
theorem Likeness.Mirrors.calls (hm : M.Mirrors m m') {f f' : Value} (hf : M.functions w f f')
    (h : M.Given w text i env text' i' env') {u : M.World} {v v' : Value} (led : M.later w u)
    (hv : M.values u v v') : M.Follows u (m.call f [v, env]) (m'.call f' [v', env']) M.values :=
  hm.call (M.functions_later led hf) (.cons hv (.cons (M.values_later led h.env) .nil))

theorem follows_chainOn (hm : M.Mirrors m m') {f f' : Value} (hf : M.functions w f f')
    (h : M.Given w text i env text' i' env') {outcome outcome' : Value}
    (ho : M.values w outcome outcome') :
    M.Follows w (Behave.chainOn m f outcome text env) (Behave.chainOn m' f' outcome' text' env')
      M.values := by
  refine (same_resultOf ho).then fun r r' parts => ?_
  refine (hm.calls hf h (M.later_refl w) parts.value).bind
    (fun next => keeps_chosen hm.keeps _ _ _ _ _ _) fun u next next' led choice => ?_
  have h := h.later led
  have hf := M.functions_later led hf
  have last : ∀ name, M.Follows u (do
      let id ← Grammar.parserOf ("chain(" ++ name ++ ")") next
      mergeOver (← m.run id text r.index env) outcome) (do
      let id ← Grammar.parserOf ("chain(" ++ name ++ ")") next'
      mergeOver (← m'.run id text' r'.index env') outcome') M.values := by
    intro name
    refine (same_parserOf _ choice).then fun p p' same => ?_
    subst same
    refine (hm.run p ⟨h.text, M.values_later led parts.index, h.env⟩).bind
      (fun v => keeps_mergeOver _ _ _) fun u' x x' led' result => ?_
    have before := M.values_later (M.later_trans led led') ho
    exact (same_mergeOver result before).follows fun _ _ merged => merged
  unfold Behave.goOn
  rw [← M.named hf]
  split
  · exact last _
  · have shown : M.Same u (textOf f) (textOf f') Eq := fun _ _ hs => .inl ⟨_, _, rfl, rfl, M.called hs hf⟩
    refine shown.then fun name name' same => ?_
    subst same
    exact last _

theorem follows_subEnvironment (hm : M.Mirrors m m') (inner : ParserId) {f f' : Value}
    (hf : M.functions w f f') (h : M.Given w text i env text' i' env') :
    M.Follows w (Behave.subEnvironment m inner f text i env)
      (Behave.subEnvironment m' inner f' text' i' env') M.values := by
  refine (hm.call hf (.cons h.env .nil)).bind (fun v => ?_) fun w' v v' led inside => ?_
  · exact hm.keeps.run _ _ _ _
  · have h := h.later led
    exact hm.run inner ⟨h.text, h.index, inside⟩

theorem follows_deferredLookup (hm : M.Mirrors m m') (name : String) {f f' : Value}
    (hf : M.functions w f f') (h : M.Given w text i env text' i' env') :
    M.Follows w (Behave.deferredLookup m f name text i env)
      (Behave.deferredLookup m' f' name text' i' env') M.values := by
  refine (hm.call hf (.cons h.env .nil)).bind (fun v => ?_) fun w' v v' led found => ?_
  · exact keeps_bind (keeps_parserOf _ _ _) fun p => hm.keeps.run _ _ _ _
  refine (same_parserOf _ found).then fun p p' same => ?_
  subst same
  exact hm.run p (h.later led)

/-- Behaviours that are alike are followed by one another. -/
theorem follows_behave (hm : M.Mirrors m m') {b b' : Behaviour Value}
    (hb : b.Alike (M.values w) (M.functions w) b') (h : M.Given w text i env text' i' env') :
    M.Follows w (behave m b text i env) (behave m' b' text' i' env') M.values := by
  have nothing := M.formed (w := w) (.plain (v := .none) trivial)
  have keeps := hm.keeps
  cases hb with
  | bare bare =>
    cases b with
    | anyChar | rest | eof | index | lineColumnIndex | fail | string | regex =>
      exact follows_blind trivial h.text h.index
    | sequence parts => exact follows_sequenceFrom keeps (hm.allRunAlike h parts) h.index nothing .nil
    | alternative choices => exact follows_alternativeFrom keeps (hm.allRunAlike h choices) h.index nothing
    | repetition item least most =>
      exact follows_repetition keeps hm.rounds (hm.runsAlike item h) least most h.index
    | exclude allowed forbidden =>
      exact follows_exclude keeps (hm.runsAlike allowed h) (hm.runsAlike forbidden h) h.index
    | describe inner d => exact follows_describe (hm.runsAlike inner h) d h.index
    | mark framed => exact follows_mark (hm.runsAlike framed h) h.index
    | succeed | testChar | transform | chain | subEnvironment | deferredLookup | debug =>
      exact bare.elim
  | succeed value => exact follows_pure (values_success h.index value)
  | testChar hf => exact follows_testChar (hm.calls hf h) _ h
  | @transform inner _ _ hf =>
    exact follows_transform keeps hm.shares hm.shares' (hm.runsAlike inner h) (hm.calls hf h) h.index
  | @chain first _ _ hf =>
    refine follows_chain keeps hm.shares hm.shares' (hm.runsAlike first h) (fun led ho => ?_) h.index
    exact follows_chainOn hm (M.functions_later led hf) (h.later led) ho
  | subEnvironment hf => exact follows_subEnvironment hm _ hf h
  | deferredLookup hf => exact follows_deferredLookup hm _ hf h

/-! ### Calls -/

/-- A direct call goes alike, with the check that nothing is left. -/
theorem follows_callParser (hm : M.Mirrors m m') (p : ParserId)
    (h : M.Given w text i env text' i' env') :
    M.Follows w (callParser m p text env i) (callParser m' p text' env' i') M.values := by
  refine (hm.run p h).bind (fun a => ?_) fun w' a a' led outcome => ?_
  · refine keeps_judged _ (fun r => keeps_bind (keeps_lengthOf _ _) fun n => ?_) fun r => keeps_pure _ _
    refine keeps_bind (keeps_lessThan _ _ _) fun more => ?_
    exact keeps_ite _ (keeps_mergeOver _ _ _) (keeps_pure _ _)
  have h := h.later led
  refine follows_judged outcome (fun r r' parts => ?_) fun _ _ _ => follows_pure outcome
  refine (same_lengthOf h.text).then fun n n' same => ?_
  subst same
  refine (same_lessThan parts.index (M.formed (.int _))).then fun b b' same => ?_
  refine follows_ite same ?_ (follows_pure outcome)
  exact (same_mergeOver (values_failure parts.index _) outcome).follows fun _ _ merged => merged

/-- Functions of the user that do the same on both sides, whatever parsers they run. -/
def Likeness.Respected (M : Likeness share) (host : Host) : Prop :=
  ∀ m m', M.Mirrors m m' → ∀ w f f' xs ys, M.functions w f f' →
    List.Forall₂ (M.values w) xs ys → M.Follows w (host.apply m f xs) (host.apply m' f' ys) M.values

end Mirrors

end Rebind
