import Mathlib.Data.List.Forall2
import Rebind.Proofs.Evaluation
/-!
# Likeness

Two evaluations side by side, which need not give the same identities to the same values and whose stores
may differ in what no function of the user looks at.  What corresponds to what is a parameter: a relation
between values, one between functions and one between stores, which may come to relate more as the
evaluations go on.  A `Likeness` is such a correspondence with what makes it one.  Corresponding data has
the same form and corresponding parts, shows itself in the same way, and stays in correspondence when it
is put together to results and lists or given identities.

Operations that read, and the merging of results, then go alike on both sides.
-/
namespace Rebind

/-- Nothing, a truth value, a number or a text: what has no identity and no parts. -/
def Value.IsPlain : Value → Prop
  | .none | .bool _ | .int _ | .float _ | .str _ => True
  | _ => False

/-- What the operations on data tell apart. -/
def Value.IsData : Value → Prop
  | .list _ | .tuple _ | .dict _ | .set _ => True
  | v => v.IsPlain

/-- Values that look the same from outside, with parts in correspondence. -/
inductive Alike (R : Value → Value → Prop) : Value → Value → Prop
  | plain {v : Value} (h : v.IsPlain) : Alike R v v
  | list {xs ys : List Value} (h : List.Forall₂ R xs ys) : Alike R (.list xs) (.list ys)
  | tuple {xs ys : List Value} (h : List.Forall₂ R xs ys) : Alike R (.tuple xs) (.tuple ys)
  | set {xs ys : List Value} (h : List.Forall₂ R xs ys) : Alike R (.set xs) (.set ys)
  | dict {xs ys : List (Value × Value)}
    (h : List.Forall₂ (fun x y => R x.1 y.1 ∧ R x.2 y.2) xs ys) : Alike R (.dict xs) (.dict ys)
  | other {v v' : Value} (h : ¬ v.IsData) (h' : ¬ v'.IsData) : Alike R v v'

/-- Values that are made in the same way from parts in correspondence. -/
inductive Formed (R : Value → Value → Prop) : Value → Value → Prop
  | plain {v : Value} (h : v.IsPlain) : Formed R v v
  | list {xs ys : List Value} (h : List.Forall₂ R xs ys) : Formed R (.list xs) (.list ys)
  | tuple {xs ys : List Value} (h : List.Forall₂ R xs ys) : Formed R (.tuple xs) (.tuple ys)
  | result {a b c a' b' c' : Value} (status : R a a') (index : R b b') (value : R c c') :
    Formed R (.result a b c) (.result a' b' c')
  | mark {a b c a' b' c' : Value} (start : R a a') (value : R b b') (stop : R c c') :
    Formed R (.mark a b c) (.mark a' b' c')
  | lineColumn {a b c a' b' c' : Value} (offset : R a a') (line : R b b') (column : R c c') :
    Formed R (.lineColumn a b c) (.lineColumn a' b' c')

structure Result.Alike (R : Value → Value → Prop) (r r' : Result) : Prop where
  status : R r.status r'.status
  index : R r.index r'.index
  value : R r.value r'.value

/-- A behaviour that holds no value and does not report to a handler. -/
def Behaviour.Bare : Behaviour Value → Prop
  | .succeed _ | .testChar _ _ | .transform _ _ | .chain _ _ | .subEnvironment _ _
  | .deferredLookup _ _ | .debug _ _ => False
  | _ => True

/-- Behaviours over the same parsers with values and functions in correspondence; none of them reports to
a handler. -/
inductive Behaviour.Alike (R F : Value → Value → Prop) : Behaviour Value → Behaviour Value → Prop
  | bare {b : Behaviour Value} (h : b.Bare) : Alike R F b b
  | succeed {v v' : Value} (h : R v v') : Alike R F (.succeed v) (.succeed v')
  | testChar {f f' : Value} {d : String} (h : F f f') : Alike R F (.testChar f d) (.testChar f' d)
  | transform {p : ParserId} {f f' : Value} (h : F f f') : Alike R F (.transform p f) (.transform p f')
  | chain {p : ParserId} {f f' : Value} (h : F f f') : Alike R F (.chain p f) (.chain p f')
  | subEnvironment {p : ParserId} {f f' : Value} (h : F f f') :
    Alike R F (.subEnvironment p f) (.subEnvironment p f')
  | deferredLookup {f f' : Value} {name : String} (h : F f f') :
    Alike R F (.deferredLookup f name) (.deferredLookup f' name)

/-- Values that do the same when they are called: they behave alike, are the same parser, are functions of
the user, or cannot be called. -/
inductive Callable (R F : Value → Value → Prop) (f f' : Value) : Prop
  | behaviour {b b' : Behaviour Value} (h : f.content = .behaviour b) (h' : f'.content = .behaviour b')
    (alike : b.Alike R F b')
  | parser {p : ParserId} (h : f.content = .parser p) (h' : f'.content = .parser p)
  | closure (h : f.content.IsClosure) (h' : f'.content.IsClosure)
  | other (h : ¬ f.content.IsFunction) (h' : ¬ f'.content.IsFunction)

/-- A correspondence between two evaluations.

`values` relates what the library passes on and shows to functions, `errors` what is raised, and `stores` the
stores of the two sides as far as functions of the user look at them. -/
structure Resemblance (share : Value → Eval Value) where
  World : Type
  later : World → World → Prop
  values : World → Value → Value → Prop
  errors : World → Value → Value → Prop
  stores : World → Store → Store → Prop
  later_refl : ∀ w, later w w
  later_trans : ∀ {u v w}, later u v → later v w → later u w
  values_later : ∀ {u w v v'}, later u w → values u v v' → values w v v'
  errors_later : ∀ {u w e e'}, later u w → errors u e e' → errors w e e'
  /-- What has no identity and no parts corresponds to itself alone. -/
  plain : ∀ {w v v'}, values w v v' → v.IsPlain ∨ v'.IsPlain → v = v'
  result : ∀ {w v v'}, values w v v' → Option.Rel (Result.Alike (values w)) v.result? v'.result?
  formed : ∀ {w v v'}, Formed (values w) v v' → values w v v'
  cause : ∀ {w} c, errors w (.error c) (.error c)
  error_shown : ∀ {w σ σ' e e'}, stores w σ σ' → errors w e e' →
    (σ.snapshot e).literal = (σ'.snapshot e').literal
  /-- The present contents of corresponding values correspond and look the same. -/
  view : ∀ {w σ σ' v v'}, stores w σ σ' → values w v v' →
    values w (σ.view v) (σ'.view v') ∧ Alike (values w) (σ.view v) (σ'.view v')
  /-- Corresponding values show themselves in the same way, so a parser only corresponds to itself if it
  has the same name on both sides. -/
  shown : ∀ {w σ σ' v v'}, stores w σ σ' → values w v v' →
    (σ.snapshot v).text = (σ'.snapshot v').text ∧ (σ.snapshot v).literal = (σ'.snapshot v').literal ∧
      (σ.snapshot v).isHashable = (σ'.snapshot v').isHashable
  compared : ∀ {w σ σ' v v' u u'}, stores w σ σ' → values w v v' → values w u u' →
    (σ.snapshot v).less? (σ.snapshot u) = (σ'.snapshot v').less? (σ'.snapshot u') ∧
      (σ.snapshot v).equal (σ.snapshot u) = (σ'.snapshot v').equal (σ'.snapshot u')
  /-- Values may be given identities on both sides. -/
  shared : ∀ {w σ σ' v v'}, stores w σ σ' → values w v v' → ∃ u τ u' τ' w', share v σ = .ok u τ ∧
    share v' σ' = .ok u' τ' ∧ later w w' ∧ stores w' τ τ' ∧ values w' u u'

/-- A correspondence between an evaluation that trace handlers hear of and one that none hears of.

`functions` relates what is called, and `listens` holds of the handlers that may hear of runs on the one
side. -/
structure Likeness (share : Value → Eval Value) extends Resemblance share where
  functions : World → Value → Value → Prop
  listens : Value → Prop
  functions_later : ∀ {u w f f'}, later u w → functions u f f' → functions w f f'
  /-- A parser corresponds at most to itself. -/
  parser : ∀ {w v v'}, values w v v' → ∀ p, v = .parser p ↔ v' = .parser p
  named : ∀ {w f f'}, functions w f f' → f.functionName? = f'.functionName?
  called : ∀ {w σ σ' f f'}, stores w σ σ' → functions w f f' →
    (σ.snapshot f).text = (σ'.snapshot f').text
  callable : ∀ {w f f'}, functions w f f' → Callable (values w) (functions w) f f'
  /-- Values may be given identities for the handlers only. -/
  presented : ∀ {w σ σ' v v'}, stores w σ σ' → values w v v' → ∃ u τ w', share v σ = .ok u τ ∧
    later w w' ∧ stores w' τ σ' ∧ values w' u v'
  error_presented : ∀ {w σ σ' e e'}, stores w σ σ' → errors w e e' → ∃ u τ w', share e σ = .ok u τ ∧
    later w w' ∧ stores w' τ σ' ∧ errors w' u e'
  /-- Functions look neither at the tracers nor at what handlers were told. -/
  push : ∀ {w σ σ' h}, stores w σ σ' → listens h →
    stores w { σ with tracers := h :: σ.tracers } σ'
  pop : ∀ {w σ σ'}, stores w σ σ' → stores w { σ with tracers := σ.tracers.drop 1 } σ'
  record : ∀ {w σ σ'} r, stores w σ σ' → stores w (σ.record r) σ'
  heard : ∀ {w σ σ'}, stores w σ σ' → ∀ h ∈ σ.tracers, listens h
  untraced : ∀ {w σ σ'}, stores w σ σ' → σ'.tracers = []
  /-- The same parsers exist on both sides.  One that reports to a handler does on the other side what the
  parser below it does there; any other one does the same on both sides. -/
  parsers : ∀ {w σ σ'} p, stores w σ σ' → Option.Rel (fun s s' =>
    (∃ q h, s.behaviour.content = .behaviour (.debug q h) ∧ listens h ∧
      (σ'.parser? q).map (·.behaviour) = some s'.behaviour) ∨ functions w s.behaviour s'.behaviour)
    (σ.parser? p) (σ'.parser? p)

section Looks

variable {R : Value → Value → Prop} {v v' : Value}

theorem Formed.str (s : String) : Formed R (.str s) (.str s) := .plain trivial

theorem Formed.int (n : Int) : Formed R (.int n) (.int n) := .plain trivial

theorem toInt?_of_not_isData (h : ¬ v.IsData) : v.toInt? = none := by
  cases v <;> first | rfl | exact absurd trivial h

theorem Alike.toInt? (h : Alike R v v') : v.toInt? = v'.toInt? := by
  cases h with
  | other h h' => rw [toInt?_of_not_isData h, toInt?_of_not_isData h']
  | _ => rfl

theorem toNumber?_of_not_isData (h : ¬ v.IsData) : v.toNumber? = none := by
  cases v <;> first | rfl | exact absurd trivial h

theorem Alike.toNumber? (h : Alike R v v') : v.toNumber? = v'.toNumber? := by
  cases h with
  | other h h' => rw [toNumber?_of_not_isData h, toNumber?_of_not_isData h']
  | _ => rfl

theorem isTruthy_of_not_isData (h : ¬ v.IsData) : v.isTruthy = true := by
  cases v <;> first | rfl | exact absurd trivial h

theorem isEmpty_eq_of_forall₂ {α β : Type} {S : α → β → Prop} {xs : List α} {ys : List β}
    (h : List.Forall₂ S xs ys) : xs.isEmpty = ys.isEmpty := by
  cases h <;> rfl

theorem Alike.isTruthy (h : Alike R v v') : v.isTruthy = v'.isTruthy := by
  cases h with
  | plain h => rfl
  | list h | tuple h | set h | dict h =>
    simp only [Value.isTruthy]
    rw [isEmpty_eq_of_forall₂ h]
  | other h h' => rw [isTruthy_of_not_isData h, isTruthy_of_not_isData h']

end Looks

variable {share : Value → Eval Value} {M : Resemblance share} {w : M.World} {α β γ δ : Type}

/-- Two evaluations that only read and that go alike: both return, what corresponds, or both give up for
the same cause. -/
def Resemblance.Same (M : Resemblance share) (w : M.World) (x : Eval α) (y : Eval β)
    (R : α → β → Prop) : Prop :=
  ∀ σ σ', M.stores w σ σ' →
    (∃ a b, x σ = .ok a σ ∧ y σ' = .ok b σ' ∧ R a b) ∨
      ∃ c, x σ = .error (.raised (.error c)) σ ∧ y σ' = .error (.raised (.error c)) σ'

section Same

variable {x : Eval α} {y : Eval β} {R : α → β → Prop} {f : α → Eval γ} {g : β → Eval δ}
  {Q : γ → δ → Prop}

theorem same_pure {a : α} {b : β} (h : R a b) : M.Same w (pure a) (pure b) R :=
  fun _ _ _ => .inl ⟨a, b, rfl, rfl, h⟩

theorem same_raise (c : Cause) : M.Same w (raise c) (raise c) R := fun _ _ _ => .inr ⟨c, rfl, rfl⟩

/-- Evaluations that go alike may follow each other. -/
theorem Resemblance.Same.bind (h : M.Same w x y R) (hf : ∀ a b, R a b → M.Same w (f a) (g b) Q) :
    M.Same w (x >>= f) (y >>= g) Q := by
  intro σ σ' hs
  simp only [Bind.bind, EStateM.bind]
  rcases h σ σ' hs with ⟨a, b, hx, hy, hr⟩ | ⟨c, hx, hy⟩
  · simp only [hx, hy]
    exact hf a b hr σ σ' hs
  · simp only [hx, hy]
    exact .inr ⟨c, rfl, rfl⟩

theorem same_ite {x' : Eval α} {y' : Eval β} {b b' : Bool} (same : b = b') (yes : M.Same w x y R)
    (no : M.Same w x' y' R) :
    M.Same w (if b = true then x else x') (if b' = true then y else y') R := by
  subst same
  split
  · exact yes
  · exact no

end Same

/-! ### Operations that read -/

section Operations

variable {v v' u u' : Value}

theorem same_view (h : M.values w v v') : M.Same w (view v) (view v')
    fun u u' => M.values w u u' ∧ Alike (M.values w) u u' :=
  fun _ _ hs => .inl ⟨_, _, rfl, rfl, M.view hs h⟩

theorem same_truthy (h : M.values w v v') : M.Same w (truthy v) (truthy v') Eq :=
  (same_view h).bind fun _ _ looks => same_pure looks.2.isTruthy

theorem same_textOf (h : M.values w v v') : M.Same w (textOf v) (textOf v') Eq :=
  fun _ _ hs => .inl ⟨_, _, rfl, rfl, (M.shown hs h).1⟩

theorem same_literalOf (h : M.values w v v') : M.Same w (literalOf v) (literalOf v') Eq :=
  fun _ _ hs => .inl ⟨_, _, rfl, rfl, (M.shown hs h).2.1⟩

theorem same_equalTo (h : M.values w v v') (h' : M.values w u u') :
    M.Same w (equalTo v u) (equalTo v' u') Eq :=
  fun _ _ hs => .inl ⟨_, _, rfl, rfl, (M.compared hs h h').2⟩

theorem same_checkKey (h : M.values w v v') : M.Same w (checkKey v) (checkKey v') fun _ _ => True := by
  intro σ σ' hs
  have hashable := (M.shown hs h).2.2
  have read : ∀ (u : Value) (τ : Store), checkKey u τ =
      if (τ.snapshot u).isHashable then .ok () τ else .error (.raised (.error .wrongType)) τ := by
    intro u τ
    simp only [checkKey, Rebind.shown, Bind.bind, EStateM.bind]
    cases (τ.snapshot u).isHashable <;> rfl
  rw [read, read, hashable]
  split
  · exact .inl ⟨(), (), rfl, rfl, trivial⟩
  · exact .inr ⟨.wrongType, rfl, rfl⟩

theorem same_lengthOf (h : M.values w v v') : M.Same w (lengthOf v) (lengthOf v') Eq := by
  refine (same_view h).bind fun u u' looks => ?_
  cases looks.2 with
  | plain h => split <;> first | exact same_pure rfl | exact same_raise _
  | list h | tuple h | set h | dict h => exact same_pure (by rw [h.length_eq])
  | other h h' =>
    split <;> first | exact absurd trivial h | skip
    split <;> first | exact absurd trivial h' | exact same_raise _

theorem same_offsetOf (h : M.values w v v') : M.Same w (offsetOf v) (offsetOf v') Eq := by
  refine (same_view h).bind fun u u' looks => ?_
  rw [looks.2.toInt?]
  split
  · exact same_pure rfl
  · exact same_raise _

theorem same_boundOf (h : M.values w v v') : M.Same w (boundOf v) (boundOf v') Eq := by
  refine (same_view h).bind fun u u' looks => ?_
  cases looks.2 with
  | plain h =>
    split
    · exact same_pure rfl
    · split
      · exact same_pure rfl
      · exact same_raise _
  | list h | tuple h | set h | dict h => exact same_raise _
  | other h h' =>
    split
    · exact absurd trivial h
    rw [toInt?_of_not_isData h]
    dsimp only
    split
    · exact absurd trivial h'
    rw [toInt?_of_not_isData h']
    exact same_raise _

theorem same_present {R : α → β → Prop} {a : Option α} {b : Option β} (h : Option.Rel R a b) :
    M.Same w (present a) (present b) R := by
  cases h with
  | some h => exact same_pure h
  | none => exact same_raise _

theorem rel_getElem? {R : α → β → Prop} {xs : List α} {ys : List β} (h : List.Forall₂ R xs ys) (n : Nat) :
    Option.Rel R xs[n]? ys[n]? := by
  induction h generalizing n with
  | nil => exact .none
  | cons head _ ih =>
    cases n with
    | zero => exact .some head
    | succ n => exact ih n

/-- Corresponding sequences have corresponding items. -/
theorem rel_item? {R : α → β → Prop} {xs : List α} {ys : List β} (h : List.Forall₂ R xs ys) (i : Int) :
    Option.Rel R (Slice.item? xs i) (Slice.item? ys i) := by
  unfold Slice.item?
  rw [h.length_eq]
  split
  · split
    · exact .none
    · exact rel_getElem? h _
  · exact rel_getElem? h _

/-- They have corresponding slices. -/
theorem forall₂_between {R : α → β → Prop} {xs : List α} {ys : List β} (h : List.Forall₂ R xs ys)
    (lo hi : Option Int) : List.Forall₂ R (Slice.between xs lo hi) (Slice.between ys lo hi) := by
  unfold Slice.between
  rw [h.length_eq]
  exact List.forall₂_drop _ (List.forall₂_take _ h)

theorem same_entryOf {xs ys : List (Value × Value)} (key : M.values w v v')
    (h : List.Forall₂ (fun x y => M.values w x.1 y.1 ∧ M.values w x.2 y.2) xs ys) :
    M.Same w (entryOf v xs) (entryOf v' ys) (Option.Rel (M.values w)) := by
  induction h with
  | nil => exact same_pure .none
  | cons head _ ih =>
    refine (same_equalTo head.1 key).bind fun b b' same => ?_
    exact same_ite same (same_pure (.some head.2)) ih

theorem same_itemOf (h : M.values w v v') (hi : M.values w u u') :
    M.Same w (itemOf v u) (itemOf v' u') (M.values w) := by
  refine (same_view h).bind fun x x' looks => ?_
  have item : ∀ {xs ys : List Value}, List.Forall₂ (M.values w) xs ys →
      M.Same w (offsetOf u >>= fun n => present (Slice.item? xs n))
        (offsetOf u' >>= fun n => present (Slice.item? ys n)) (M.values w) := fun all =>
    (same_offsetOf hi).bind fun n n' same => same ▸ same_present (rel_item? all n)
  cases looks.2 with
  | plain h =>
    split <;> try exact h.elim
    · refine (same_offsetOf hi).bind fun n n' same => ?_
      subst same
      refine (same_present (R := Eq) ?_).bind fun c c' same => ?_
      · cases Slice.item? _ n with
        | none => exact .none
        | some c => exact .some rfl
      · subst same
        exact same_pure (M.formed (.str _))
    · exact same_raise _
  | list h => exact item h
  | tuple h => exact item h
  | set h => exact same_raise _
  | dict h =>
    refine (same_checkKey hi).bind fun _ _ _ => (same_entryOf hi h).bind fun a b found => ?_
    cases found with
    | none => exact same_raise _
    | some known => exact same_pure known
  | other h h' =>
    split <;> try exact absurd trivial h
    split <;> try exact absurd trivial h'
    exact same_raise _

theorem same_sliceOf {a a' b b' : Value} (h : M.values w v v') (lo : M.values w a a')
    (hi : M.values w b b') : M.Same w (sliceOf v a b) (sliceOf v' a' b') (Formed (M.values w)) := by
  refine (same_view h).bind fun x x' looks => ?_
  have cut : ∀ {make make' : Option Int → Option Int → Value},
      (∀ m n, Formed (M.values w) (make m n) (make' m n)) →
      M.Same w (do return make (← boundOf a) (← boundOf b))
        (do return make' (← boundOf a') (← boundOf b')) (Formed (M.values w)) := by
    intro make make' formed
    refine (same_boundOf lo).bind fun m m' same => (same_boundOf hi).bind fun n n' same' => ?_
    subst same same'
    exact same_pure (formed m n)
  cases looks.2 with
  | plain h =>
    split <;> try exact h.elim
    · exact cut fun _ _ => .str _
    · exact same_raise _
  | list h => exact cut fun _ _ => .list (forall₂_between h _ _)
  | tuple h => exact cut fun _ _ => .tuple (forall₂_between h _ _)
  | set h | dict h => exact same_raise _
  | other h h' =>
    split <;> try exact absurd trivial h
    split <;> try exact absurd trivial h'
    exact same_raise _

theorem same_itemsOf (h : M.values w v v') :
    M.Same w (itemsOf v) (itemsOf v') (List.Forall₂ (M.values w)) := by
  have chars : ∀ cs : List Char, List.Forall₂ (M.values w) (cs.map .ofChar) (cs.map .ofChar) := by
    intro cs
    induction cs with
    | nil => exact .nil
    | cons c cs ih => exact .cons (M.formed (.str _)) ih
  have keys : ∀ {xs ys : List (Value × Value)},
      List.Forall₂ (fun x y => M.values w x.1 y.1 ∧ M.values w x.2 y.2) xs ys →
      List.Forall₂ (M.values w) (xs.map (·.1)) (ys.map (·.1)) := by
    intro xs ys all
    induction all with
    | nil => exact .nil
    | cons head _ ih => exact .cons head.1 ih
  refine (same_view h).bind fun x x' looks => ?_
  cases looks.2 with
  | plain h =>
    split <;> try exact h.elim
    · exact same_pure (chars _)
    · exact same_raise _
  | list h | tuple h | set h => exact same_pure h
  | dict h => exact same_pure (keys h)
  | other h h' =>
    split <;> try exact absurd trivial h
    split <;> try exact absurd trivial h'
    exact same_raise _

theorem same_less (h : M.values w v v') (h' : M.values w u u') :
    M.Same w (do
      match (← shown v).less? (← shown u) with
      | some r => return r
      | none => raise .wrongType) (do
      match (← shown v').less? (← shown u') with
      | some r => return r
      | none => raise .wrongType) Eq := by
  intro σ σ' hs
  have read : ∀ (x y : Value) (τ : Store), (do
      match (← shown x).less? (← shown y) with
      | some r => return r
      | none => raise .wrongType : Eval Bool) τ =
      match (τ.snapshot x).less? (τ.snapshot y) with
      | some r => .ok r τ
      | none => .error (.raised (.error .wrongType)) τ := by
    intro x y τ
    simp only [shown, Bind.bind, EStateM.bind]
    cases (τ.snapshot x).less? (τ.snapshot y) <;> rfl
  rw [read, read, (M.compared hs h h').1]
  split
  · exact .inl ⟨_, _, rfl, rfl, rfl⟩
  · exact .inr ⟨.wrongType, rfl, rfl⟩

theorem same_lessThan (h : M.values w v v') (h' : M.values w u u') :
    M.Same w (lessThan v u) (lessThan v' u') Eq := by
  refine (same_view h).bind fun a a' looks => (same_view h').bind fun b b' looks' => ?_
  split
  · obtain rfl := M.plain looks.1 (.inl trivial)
    obtain rfl := M.plain looks'.1 (.inl trivial)
    exact same_pure rfl
  · next other =>
    split
    · obtain rfl := M.plain looks.1 (.inr trivial)
      obtain rfl := M.plain looks'.1 (.inr trivial)
      exact (other _ _ rfl rfl).elim
    · exact same_less looks.1 looks'.1

/-- Whole numbers are compared like all numbers. -/
theorem atMost_eq (a b : Value) : atMost a b = (do
    match (← view a).toNumber?, (← view b).toNumber? with
    | some m, some n => return Datum.numberLess m n || Datum.numberEqual m n
    | _, _ => raise .wrongType) := by
  unfold atMost
  refine bind_congr fun x => bind_congr fun y => ?_
  split
  · next m n =>
    have same : decide (m ≤ n) = (decide (m < n) || decide (m = n)) := by
      rw [← Bool.decide_or]
      exact decide_eq_decide.mpr (by omega)
    simp only [Value.toNumber?, Value.toInt?, Option.map_some, Datum.numberLess, Datum.numberEqual, same]
  · rfl

theorem same_atMost (h : M.values w v v') (h' : M.values w u u') :
    M.Same w (atMost v u) (atMost v' u') Eq := by
  rw [atMost_eq, atMost_eq]
  refine (same_view h).bind fun a a' looks => (same_view h').bind fun b b' looks' => ?_
  rw [looks.2.toNumber?, looks'.2.toNumber?]
  split
  · exact same_pure rfl
  · exact same_raise _

/-- The sum of numbers is a number. -/
theorem arithmetic_isPlain {whole : Int → Int → Int} {broken : Float → Float → Float} {a b c : Value}
    (h : arithmetic whole broken a b = some c) : c.IsPlain := by
  unfold arithmetic at h
  obtain ⟨m, _, h⟩ := Option.bind_eq_some_iff.mp h
  obtain ⟨n, _, h⟩ := Option.bind_eq_some_iff.mp h
  split at h <;> (obtain rfl := Option.some.inj h; trivial)

theorem same_addTo (h : M.values w v v') (h' : M.values w u u') :
    M.Same w (addTo v u) (addTo v' u') (M.values w) := by
  refine (same_view h).bind fun a a' looks => (same_view h').bind fun b b' looks' => ?_
  -- The operands are of the same kinds on both sides, so both additions go the same way.
  split
  · obtain rfl := M.plain looks.1 (.inl trivial)
    obtain rfl := M.plain looks'.1 (.inl trivial)
    exact same_pure (M.formed (.int _))
  · obtain rfl := M.plain looks.1 (.inl trivial)
    obtain rfl := M.plain looks'.1 (.inl trivial)
    exact same_pure (M.formed (.str _))
  · cases looks.2 with
    | list first =>
      cases looks'.2 with
      | list second => exact same_pure (M.formed (.list (List.rel_append first second)))
      | other h _ => exact absurd trivial h
      | plain h => exact h.elim
    | other h _ => exact absurd trivial h
    | plain h => exact h.elim
  · cases looks.2 with
    | tuple first =>
      cases looks'.2 with
      | tuple second => exact same_pure (M.formed (.tuple (List.rel_append first second)))
      | other h _ => exact absurd trivial h
      | plain h => exact h.elim
    | other h _ => exact absurd trivial h
    | plain h => exact h.elim
  · next ints strs lists tuples =>
    have sum : M.Same w (applicable (arithmetic (· + ·) (· + ·) a b))
        (applicable (arithmetic (· + ·) (· + ·) a' b')) (M.values w) := by
      have same : arithmetic (· + ·) (· + ·) a b = arithmetic (· + ·) (· + ·) a' b' := by
        unfold arithmetic
        rw [looks.2.toNumber?, looks'.2.toNumber?]
      rw [same]
      cases known : arithmetic (· + ·) (· + ·) a' b' with
      | none => exact same_raise _
      | some c => exact same_pure (M.formed (.plain (arithmetic_isPlain known)))
    split
    · exact (ints _ _ (M.plain looks.1 (.inr trivial)) (M.plain looks'.1 (.inr trivial))).elim
    · exact (strs _ _ (M.plain looks.1 (.inr trivial)) (M.plain looks'.1 (.inr trivial))).elim
    · cases looks.2 with
      | list _ =>
        cases looks'.2 with
        | list _ => exact (lists _ _ rfl rfl).elim
        | other _ h => exact absurd trivial h
        | plain h => exact h.elim
      | other _ h => exact absurd trivial h
      | plain h => exact h.elim
    · cases looks.2 with
      | tuple _ =>
        cases looks'.2 with
        | tuple _ => exact (tuples _ _ rfl rfl).elim
        | other _ h => exact absurd trivial h
        | plain h => exact h.elim
      | other _ h => exact absurd trivial h
      | plain h => exact h.elim
    · exact sum

/-- A question that is answered alike for items is answered alike for lists. -/
theorem map_eq_of_forall₂ {f : Value → β} (hf : ∀ v v', M.values w v v' → f v = f v')
    {xs ys : List Value} (h : List.Forall₂ (M.values w) xs ys) : xs.map f = ys.map f := by
  induction h with
  | nil => rfl
  | cons head _ ih => rw [List.map_cons, List.map_cons, hf _ _ head, ih]

theorem same_joinWith (between : String) (h : M.values w v v') :
    M.Same w (joinWith between v) (joinWith between v') Eq := by
  refine (same_itemsOf h).bind fun xs ys all => ?_
  dsimp only
  rw [map_eq_of_forall₂ (fun u u' item => ?_) all]
  · split
    · exact same_raise _
    · exact same_pure rfl
  · split
    · obtain rfl := M.plain item (.inl trivial)
      rfl
    · next other =>
      split
      · exact (other _ (M.plain item (.inr trivial))).elim
      · rfl

theorem same_expectedText (h : M.values w v v') :
    M.Same w (expectedText v) (expectedText v') Eq := by
  refine Resemblance.Same.bind (R := M.values w) ?_ fun u u' words => same_textOf words
  refine (same_lengthOf h).bind fun n n' same => ?_
  subst same
  split
  · exact same_itemOf h (M.formed (.int _))
  · refine (same_joinWith _ h).bind fun s s' same => ?_
    subst same
    exact same_pure (M.formed (.str _))

theorem same_lineColumnOf (h : M.values w v v') (hi : M.values w u u') :
    M.Same w (lineColumnOf v u) (lineColumnOf v' u') (M.values w) := by
  refine (same_view h).bind fun x x' looks => ?_
  have nothing := M.formed (w := w) (.plain (v := .none) trivial)
  split
  · obtain rfl := M.plain looks.1 (.inl trivial)
    refine (same_boundOf hi).bind fun n n' same => ?_
    subst same
    exact same_pure (M.formed (.lineColumn hi (M.formed (.int _)) (M.formed (.int _))))
  · next other =>
    split
    · exact (other _ (M.plain looks.1 (.inr trivial))).elim
    · exact (same_sliceOf looks.1 nothing hi).bind fun _ _ _ => same_raise _

theorem same_holdsAt (literal : String) (h : M.values w v v') (hi : M.values w u u') :
    M.Same w (Behave.holdsAt v literal u) (Behave.holdsAt v' literal u') Eq := by
  refine (same_view h).bind fun x x' looks => ?_
  split
  · obtain rfl := M.plain looks.1 (.inl trivial)
    refine (same_boundOf hi).bind fun n n' same => ?_
    subst same
    exact same_pure rfl
  · next other =>
    split
    · exact (other _ (M.plain looks.1 (.inr trivial))).elim
    · exact same_raise _

/-! ### Results -/

/-- Successes correspond in their parts, and so do failures. -/
theorem values_success (hi : M.values w u u') (h : M.values w v v') :
    M.values w (.success u v) (.success u' v') :=
  M.formed (.result (M.formed (.plain trivial)) hi h)

theorem values_failure (hi : M.values w u u') (d : String) :
    M.values w (.failure u (.str d)) (.failure u' (.str d)) :=
  M.formed (.result (M.formed (.plain trivial)) hi (M.formed (.list (.cons (M.formed (.str d)) .nil))))

theorem same_resultOf (h : M.values w v v') :
    M.Same w (resultOf v) (resultOf v') (Result.Alike (M.values w)) := by
  unfold resultOf
  have parts := M.result h
  generalize v.result? = r at parts
  generalize v'.result? = r' at parts
  cases parts with
  | some parts => exact same_pure parts
  | none => exact same_raise _

theorem same_furthest {r r' : Result} (h : r.Alike (M.values w) r') :
    M.Same w (furthest r) (furthest r') (M.values w) := by
  refine (same_truthy h.status).bind fun b b' same => same_pure ?_
  subst same
  split
  · exact M.formed (.int _)
  · exact h.index

theorem same_mergeOver (h : M.values w v v') (h' : M.values w u u') :
    M.Same w (mergeOver v u) (mergeOver v' u') (M.values w) := by
  unfold mergeOver
  split
  · obtain rfl := M.plain h' (.inl trivial)
    exact same_pure h
  · next some =>
    split
    · exact (some (M.plain h' (.inr trivial))).elim
    refine (same_resultOf h).bind fun c c' candidate => ?_
    refine (same_truthy candidate.status).bind fun b b' same => same_ite same (same_pure h) ?_
    refine (same_resultOf h').bind fun p p' previous => ?_
    refine (same_furthest previous).bind fun reached reached' place => ?_
    refine (same_lessThan place candidate.index).bind fun b b' same => same_ite same (same_pure h) ?_
    refine (same_lessThan candidate.index previous.index).bind fun b b' same =>
      same_ite same (same_pure h') ?_
    refine (same_addTo candidate.value previous.value).bind fun both both' expected => ?_
    exact same_pure (M.formed (.result (M.formed (.plain trivial)) candidate.index expected))

theorem same_threeOf (h : M.values w v v') : M.Same w (Behave.threeOf v) (Behave.threeOf v')
    fun three three' => M.values w three.1 three'.1 ∧ M.values w three.2.1 three'.2.1 ∧
      M.values w three.2.2 three'.2.2 := by
  refine (same_itemsOf h).bind fun xs ys all => ?_
  split
  · cases all with
    | cons first all =>
      cases all with
      | cons second all =>
        cases all with
        | cons third all =>
          cases all
          exact same_pure ⟨first, second, third⟩
  · next other =>
    split
    · cases all with
      | cons first all =>
        cases all with
        | cons second all =>
          cases all with
          | cons third all =>
            cases all
            exact (other _ _ _ rfl).elim
    · exact same_raise _

theorem same_require (function kind : String) (ok : Bool) (h : M.values w v v') :
    M.Same w (require function kind v ok) (require function kind v' ok) Eq := by
  unfold require
  split
  · exact same_pure rfl
  · refine (same_literalOf h).bind fun s s' same => ?_
    subst same
    exact same_raise _

end Operations

/-! ### Parsers -/

section Parsers

variable {M : Likeness share} {w : M.World} {v v' : Value}

theorem isParser_identity (σ : Store) (p : ParserId) :
    σ.isParser (.parser p) = (σ.parser? p).isSome := by
  by_cases there : p < σ.parsers.size <;> simp [Store.isParser, Store.parser?, there]

/-- Parsers exist on both sides or on neither. -/
theorem isParser_eq {σ σ' : Store} (hs : M.stores w σ σ') (h : M.values w v v') :
    σ.isParser v = σ'.isParser v' := by
  by_cases isOne : ∃ p, v = .parser p
  · obtain ⟨p, rfl⟩ := isOne
    obtain rfl := (M.parser h p).mp rfl
    have there := M.parsers p hs
    rw [isParser_identity, isParser_identity]
    generalize σ.parser? p = s at there
    generalize σ'.parser? p = s' at there
    cases there <;> rfl
  · have none : ∀ {u : Value} {τ : Store}, (¬ ∃ p, u = .parser p) → τ.isParser u = false := by
      intro u τ other
      cases u with
      | parser p => exact (other ⟨p, rfl⟩).elim
      | _ => rfl
    rw [none isOne, none]
    rintro ⟨p, same⟩
    exact isOne ⟨p, (M.parser h p).mpr same⟩

theorem same_parserOf (function : String) (h : M.values w v v') :
    M.Same w (Grammar.parserOf function v) (Grammar.parserOf function v') Eq := by
  have asked : M.Same w (isParser v) (isParser v') Eq := fun _ _ hs =>
    .inl ⟨_, _, rfl, rfl, isParser_eq hs h⟩
  refine asked.bind fun ok ok' same => ?_
  subst same
  refine (same_require _ _ _ h).bind fun _ _ _ => ?_
  split
  · next p =>
    obtain rfl := (M.parser h p).mp rfl
    exact same_pure rfl
  · next other =>
    split
    · next p => exact (other p ((M.parser h p).mpr rfl)).elim
    · exact same_raise _

end Parsers

end Rebind
