import Rebind.Proofs.Likeness
import Rebind.Proofs.Tandem
/-!
# Reading in two stores

Two stores may hold the same data although their parsers differ.  What is read from a value is then the
same in both, provided that no parser can be reached from the value: the display name of a parser is all
that a value shows of the parsers.  So the operations on data go in tandem, and what they return is again
data of this kind.
-/
namespace Rebind

/-- The values of which a value is made, as far as it shows them. -/
def Value.parts : Value → List Value
  | .list items | .tuple items | .set items => items
  | .dict entries => entries.flatMap fun e => [e.1, e.2]
  | .object _ v => [v]
  | .result a b c | .mark a b c | .lineColumn a b c => [a, b, c]
  | .settings a b c d e => [a, b, c, d, e]
  | .source _ name => [name]
  | .mismatch text found name _ => [text, found, name]
  | _ => []

/-- What can be reached from a value through its parts and through what objects contain at present. -/
inductive Value.Reaches (σ : Store) : Value → Value → Prop
  | self {v : Value} : Reaches σ v v
  | part {v w u : Value} (h : w ∈ v.parts) (further : Reaches σ w u) : Reaches σ v u
  | edited {id : Nat} {v w u : Value} (h : σ.edits.lookup id = some w) (further : Reaches σ w u) :
    Reaches σ (.object id v) u

/-- Whether a value shows itself without a look at the parsers.  A printing handler shows how deep it is
nested, which is a number. -/
def Value.IsSettled (σ : Store) : Value → Prop
  | .parser _ => False
  | .echo id => ∀ s, σ.echoes[id]? = some s → s.depth.IsPlain
  | _ => True

/-- A value from which no parser can be reached. -/
def Value.Parserless (σ : Store) (v : Value) : Prop := ∀ u, v.Reaches σ u → u.IsSettled σ

/-- Stores with the same data; their parsers and all the rest may differ. -/
structure Store.SameData (σ σ' : Store) : Prop where
  edits : σ'.edits = σ.edits
  echoes : σ'.echoes = σ.echoes

section Parserless

variable {σ σ' : Store} {v w : Value}

/-- The parts of a value without parsers are without parsers. -/
theorem Value.Parserless.part (h : v.Parserless σ) (member : w ∈ v.parts) : w.Parserless σ :=
  fun u further => h u (.part member further)

/-- So is the present content of an object. -/
theorem Value.Parserless.edited {id : Nat} (h : (Value.object id v).Parserless σ)
    (known : σ.edits.lookup id = some w) : w.Parserless σ := fun u further => h u (.edited known further)

theorem Store.SameData.symm (data : σ.SameData σ') : σ'.SameData σ := ⟨data.edits.symm, data.echoes.symm⟩

theorem Store.SameData.trans {υ : Store} (first : σ.SameData σ') (second : σ'.SameData υ) :
    σ.SameData υ := ⟨second.edits.trans first.edits, second.echoes.trans first.echoes⟩

/-- What can be reached depends on the changed objects alone. -/
theorem Value.Reaches.congr (edits : σ'.edits = σ.edits) (h : v.Reaches σ w) : v.Reaches σ' w := by
  induction h with
  | self => exact .self
  | part member _ ih => exact .part member ih
  | edited known _ ih => exact .edited (edits ▸ known) ih

/-- Stores with the same data have the same values without parsers. -/
theorem Value.Parserless.congr (data : σ.SameData σ') (h : v.Parserless σ) : v.Parserless σ' := by
  intro u reached
  have settled := h u (reached.congr data.edits.symm)
  cases u with
  | echo id => exact fun s known => settled s (data.echoes ▸ known)
  | parser p => exact settled.elim
  | _ => trivial

/-- A value that is made of values without parsers is without parsers, unless it is one, or a handler, or
has an identity by which its content may have changed. -/
theorem parserless_of_parts (settled : v.IsSettled σ) (fixed : ∀ id u, v ≠ .object id u)
    (parts : ∀ u ∈ v.parts, u.Parserless σ) : v.Parserless σ := by
  intro u reached
  cases reached with
  | self => exact settled
  | part member further => exact parts _ member u further
  | edited _ _ => exact absurd rfl (fixed _ _)

theorem Value.IsPlain.parserless (h : v.IsPlain) : v.Parserless σ := by
  cases v with
  | none | bool | int | float | str =>
    exact parserless_of_parts trivial (fun _ _ => Value.noConfusion) (by simp [Value.parts])
  | _ => exact h.elim

@[simp] theorem parserless_none : Value.none.Parserless σ := Value.IsPlain.parserless trivial

@[simp] theorem parserless_int (n : Int) : (Value.int n).Parserless σ := Value.IsPlain.parserless trivial

@[simp] theorem parserless_str (s : String) : (Value.str s).Parserless σ :=
  Value.IsPlain.parserless trivial

@[simp] theorem parserless_ofChars (cs : List Char) : (Value.ofChars cs).Parserless σ := parserless_str _

theorem parserless_list {items : List Value} (h : ∀ u ∈ items, u.Parserless σ) :
    (Value.list items).Parserless σ := parserless_of_parts trivial (fun _ _ => Value.noConfusion) h

theorem parserless_tuple {items : List Value} (h : ∀ u ∈ items, u.Parserless σ) :
    (Value.tuple items).Parserless σ := parserless_of_parts trivial (fun _ _ => Value.noConfusion) h

theorem parserless_three {a b c : Value} (ha : a.Parserless σ) (hb : b.Parserless σ)
    (hc : c.Parserless σ) : ∀ u ∈ [a, b, c], u.Parserless σ := by
  simp [ha, hb, hc]

theorem parserless_result {a b c : Value} (ha : a.Parserless σ) (hb : b.Parserless σ)
    (hc : c.Parserless σ) : (Value.result a b c).Parserless σ :=
  parserless_of_parts trivial (fun _ _ => Value.noConfusion) (parserless_three ha hb hc)

theorem parserless_mark {a b c : Value} (ha : a.Parserless σ) (hb : b.Parserless σ)
    (hc : c.Parserless σ) : (Value.mark a b c).Parserless σ :=
  parserless_of_parts trivial (fun _ _ => Value.noConfusion) (parserless_three ha hb hc)

theorem parserless_lineColumn {a b c : Value} (ha : a.Parserless σ) (hb : b.Parserless σ)
    (hc : c.Parserless σ) : (Value.lineColumn a b c).Parserless σ :=
  parserless_of_parts trivial (fun _ _ => Value.noConfusion) (parserless_three ha hb hc)

theorem parserless_success {i : Value} (hi : i.Parserless σ) (h : v.Parserless σ) :
    (Value.success i v).Parserless σ := parserless_result (Value.IsPlain.parserless trivial) hi h

theorem parserless_failure {i : Value} (hi : i.Parserless σ) (d : String) :
    (Value.failure i (.str d)).Parserless σ :=
  parserless_result (Value.IsPlain.parserless trivial) hi (parserless_list (by simp))

/-- The present content of a value is as free of parsers as the value. -/
theorem Value.Parserless.view (h : v.Parserless σ) : (σ.view v).Parserless σ := by
  cases v with
  | object id content =>
    simp only [Store.view]
    cases known : σ.edits.lookup id with
    | none => exact h.part (List.mem_singleton_self _)
    | some w => exact h.edited known
  | _ => exact h

theorem Value.Parserless.content (h : v.Parserless σ) : v.content.Parserless σ := by
  cases v with
  | object id content => exact h.part (List.mem_singleton_self _)
  | _ => exact h

theorem Value.Parserless.item (h : v.Parserless σ) {items : List Value}
    (form : v = .list items ∨ v = .tuple items ∨ v = .set items) : ∀ u ∈ items, u.Parserless σ := by
  rcases form with rfl | rfl | rfl
  · exact fun _ member => h.part member
  · exact fun _ member => h.part member
  · exact fun _ member => h.part member

/-- The three parts of a result, a mark or a position. -/
theorem Value.Parserless.three (h : v.Parserless σ) {a b c : Value} (form : v.parts = [a, b, c]) :
    a.Parserless σ ∧ b.Parserless σ ∧ c.Parserless σ :=
  ⟨h.part (by simp [form]), h.part (by simp [form]), h.part (by simp [form])⟩

theorem Value.Parserless.entry {entries : List (Value × Value)} (h : (Value.dict entries).Parserless σ) :
    ∀ e ∈ entries, e.1.Parserless σ ∧ e.2.Parserless σ := by
  intro e member
  constructor
  · exact h.part (List.mem_flatMap.mpr ⟨e, member, by simp⟩)
  · exact h.part (List.mem_flatMap.mpr ⟨e, member, by simp⟩)

/-! ### What values show -/

open Store

/-- How many changed objects may still be met on the way into a value. -/
def Store.unmet (σ : Store) (inside : List Nat) : Nat :=
  (σ.edits.filter fun e => !inside.contains e.1).length

theorem unmet_nil (σ : Store) : σ.unmet [] = σ.edits.length := by
  simp [Store.unmet]

/-- One object more on the way into a value leaves no more of them to meet. -/
theorem unmet_cons_le (σ : Store) (id : Nat) (inside : List Nat) :
    σ.unmet (id :: inside) ≤ σ.unmet inside := by
  unfold Store.unmet
  refine List.Sublist.length_le (List.monotone_filter_right _ fun e h => ?_)
  simp only [List.contains_cons, Bool.not_or, Bool.and_eq_true] at h
  exact h.2

/-- A changed object is met once. -/
theorem unmet_cons_lt {id : Nat} {inside : List Nat} (known : σ.edits.lookup id = some w)
    (new : inside.contains id = false) : σ.unmet (id :: inside) < σ.unmet inside := by
  obtain ⟨before, after, whole, _⟩ := List.lookup_eq_some_iff.mp known
  have split : ∀ inside', σ.unmet inside' =
      (before.filter fun e => !inside'.contains e.1).length +
        ((if inside'.contains id then 0 else 1) +
          (after.filter fun e => !inside'.contains e.1).length) := by
    intro inside'
    unfold Store.unmet
    rw [whole, List.filter_append, List.length_append, List.filter_cons]
    cases inside'.contains id <;> simp [Nat.add_comm]
  have fewer : ∀ entries : List (Nat × Value),
      (entries.filter fun e => !(id :: inside).contains e.1).length ≤
        (entries.filter fun e => !inside.contains e.1).length := by
    intro entries
    refine List.Sublist.length_le (List.monotone_filter_right _ fun e h => ?_)
    simp only [List.contains_cons, Bool.not_or, Bool.and_eq_true] at h
    exact h.2
  have here : (id :: inside).contains id = true := by simp
  have first := fewer before
  have last := fewer after
  rw [split, split inside, here, new]
  simp only [if_true, Bool.false_eq_true, if_false]
  omega

mutual

/-- A value without parsers shows the same in both stores if that holds of what is filled in on the way
into it. -/
theorem snapshotWith_agree (data : σ.SameData σ') {n : Nat}
    {later later' : List Nat → Option Nat → Value → Datum}
    (plain : ∀ inside identity u, Value.IsPlain u → later inside identity u = later' inside identity u)
    (filled : ∀ inside identity u, Value.Parserless σ u → σ.unmet inside < n →
      later inside identity u = later' inside identity u) :
    ∀ {v : Value} {inside : List Nat} {identity : Option Nat}, v.Parserless σ → σ.unmet inside ≤ n →
      σ.snapshotWith later inside identity v = σ'.snapshotWith later' inside identity v
  | .none, _, _, _, _ | .bool _, _, _, _, _ | .int _, _, _, _, _ | .float _, _, _, _, _
  | .str _, _, _, _, _ | .behaviour _, _, _, _, _ | .closure _ _ _ _ _, _, _, _, _
  | .pattern _, _, _, _, _ | .path _, _, _, _, _ | .moment _, _, _, _, _ | .handler _, _, _, _, _
  | .renderer _ _, _, _, _, _ | .error _, _, _, _, _ => rfl
  | .list _, _, _, h, met =>
    congrArg Datum.list (snapshotAll_agree data plain filled (fun _ member => h.part member) met)
  | .tuple _, _, _, h, met =>
    congrArg Datum.tuple (snapshotAll_agree data plain filled (fun _ member => h.part member) met)
  | .set _, _, _, h, met =>
    congrArg Datum.set (snapshotAll_agree data plain filled (fun _ member => h.part member) met)
  | .dict _, _, _, h, met =>
    congrArg Datum.dict (snapshotEntries_agree data plain filled h.entry met)
  | .object id v, inside, _, h, met => by
    simp only [snapshotWith, data.edits]
    cases new : inside.contains id with
    | true => rfl
    | false =>
      cases known : σ.edits.lookup id with
      -- An edit that is followed is met, so there are fewer unmet ones behind it.
      | some w => exact filled _ _ _ (h.edited known) (Nat.lt_of_lt_of_le (unmet_cons_lt known new) met)
      | none =>
        exact snapshotWith_agree data plain filled (h.part (List.mem_singleton_self v))
          (Nat.le_trans (unmet_cons_le σ id inside) met)
  | .parser _, _, _, h, _ => (h _ .self).elim
  | .echo id, inside, _, h, _ => by
    simp only [snapshotWith, data.echoes]
    cases known : σ.echoes[id]? with
    | none => rfl
    | some s =>
      have number : s.depth.IsPlain := h _ .self s known
      simp only [plain inside Option.none s.depth number]
  | .result _ _ _, _, _, h, met => by
    obtain ⟨ha, hb, hc⟩ := h.three rfl
    simp only [snapshotWith]
    rw [snapshotWith_agree data plain filled ha met, snapshotWith_agree data plain filled hb met,
      snapshotWith_agree data plain filled hc met]
  | .mark _ _ _, _, _, h, met => by
    obtain ⟨ha, hb, hc⟩ := h.three rfl
    simp only [snapshotWith]
    rw [snapshotWith_agree data plain filled ha met, snapshotWith_agree data plain filled hb met,
      snapshotWith_agree data plain filled hc met]
  | .lineColumn _ _ _, _, _, h, met => by
    obtain ⟨ha, hb, hc⟩ := h.three rfl
    simp only [snapshotWith]
    rw [snapshotWith_agree data plain filled ha met, snapshotWith_agree data plain filled hb met,
      snapshotWith_agree data plain filled hc met]
  | .settings a b c d e, _, _, h, met => by
    simp only [snapshotWith]
    rw [snapshotWith_agree data plain filled (h.part (w := a) (by simp [Value.parts])) met,
      snapshotWith_agree data plain filled (h.part (w := b) (by simp [Value.parts])) met,
      snapshotWith_agree data plain filled (h.part (w := c) (by simp [Value.parts])) met,
      snapshotWith_agree data plain filled (h.part (w := d) (by simp [Value.parts])) met,
      snapshotWith_agree data plain filled (h.part (w := e) (by simp [Value.parts])) met]
  | .source _ name, _, _, h, met => by
    simp only [snapshotWith]
    rw [snapshotWith_agree data plain filled (h.part (w := name) (by simp [Value.parts])) met]
  | .mismatch _ found name _, inside, _, h, met => by
    have named : σ.snapshotWith later inside Option.none name =
        σ'.snapshotWith later' inside Option.none name :=
      snapshotWith_agree data plain filled (h.part (by simp [Value.parts])) met
    have outer : found.Parserless σ := h.part (by simp [Value.parts])
    unfold snapshotWith
    rw [named]
    split
    · obtain ⟨_, hi, hv⟩ := outer.three rfl
      rw [snapshotWith_agree data plain filled hi met, snapshotWith_agree data plain filled hv met]
    · obtain ⟨_, hi, hv⟩ := outer.content.three rfl
      rw [snapshotWith_agree data plain filled hi met, snapshotWith_agree data plain filled hv met]
    · rfl

/-- The items of a value show the same, by induction on the value. -/
theorem snapshotAll_agree (data : σ.SameData σ') {n : Nat}
    {later later' : List Nat → Option Nat → Value → Datum}
    (plain : ∀ inside identity u, Value.IsPlain u → later inside identity u = later' inside identity u)
    (filled : ∀ inside identity u, Value.Parserless σ u → σ.unmet inside < n →
      later inside identity u = later' inside identity u) :
    ∀ {vs : List Value} {inside : List Nat}, (∀ v ∈ vs, v.Parserless σ) → σ.unmet inside ≤ n →
      σ.snapshotAll later inside vs = σ'.snapshotAll later' inside vs
  | [], _, _, _ => rfl
  | v :: vs, _, h, met => congrArg₂ List.cons
    (snapshotWith_agree data plain filled (h v (List.mem_cons_self ..)) met)
    (snapshotAll_agree data plain filled (fun u member => h u (List.mem_cons_of_mem _ member)) met)

/-- The entries of a dictionary show the same, by induction on the value. -/
theorem snapshotEntries_agree (data : σ.SameData σ') {n : Nat}
    {later later' : List Nat → Option Nat → Value → Datum}
    (plain : ∀ inside identity u, Value.IsPlain u → later inside identity u = later' inside identity u)
    (filled : ∀ inside identity u, Value.Parserless σ u → σ.unmet inside < n →
      later inside identity u = later' inside identity u) :
    ∀ {es : List (Value × Value)} {inside : List Nat},
      (∀ e ∈ es, e.1.Parserless σ ∧ e.2.Parserless σ) → σ.unmet inside ≤ n →
      σ.snapshotEntries later inside es = σ'.snapshotEntries later' inside es
  | [], _, _, _ => rfl
  | (k, v) :: es, _, h, met => congrArg₂ List.cons
    (congrArg₂ Prod.mk (snapshotWith_agree data plain filled (h _ (List.mem_cons_self ..)).1 met)
      (snapshotWith_agree data plain filled (h _ (List.mem_cons_self ..)).2 met))
    (snapshotEntries_agree data plain filled (fun e member => h e (List.mem_cons_of_mem _ member)) met)

end

/-- Plain data shows itself, however deep contents are filled in. -/
theorem snapshotTo_plain (h : v.IsPlain) (d d' : Nat) (inside : List Nat)
    (identity : Option Nat) : σ.snapshotTo d inside identity v = σ'.snapshotTo d' inside identity v := by
  cases v with
  | none | bool | int | float | str => cases d <;> cases d' <;> rfl
  | _ => exact h.elim

/-- By induction on the objects still to be met. -/
theorem snapshotTo_agree (data : σ.SameData σ') (n : Nat) {d d' : Nat} {inside : List Nat}
    {identity : Option Nat} (h : v.Parserless σ) (met : σ.unmet inside ≤ n) (enough : n < d)
    (enough' : n < d') : σ.snapshotTo d inside identity v = σ'.snapshotTo d' inside identity v := by
  induction n generalizing v d d' inside identity with
  | zero =>
    obtain ⟨d, rfl⟩ := Nat.exists_eq_succ_of_ne_zero (Nat.ne_of_gt enough)
    obtain ⟨d', rfl⟩ := Nat.exists_eq_succ_of_ne_zero (Nat.ne_of_gt enough')
    exact snapshotWith_agree data (fun _ _ u plain => snapshotTo_plain plain d d' _ _)
      (fun _ _ _ _ impossible => absurd impossible (Nat.not_lt_zero _)) h met
  | succ n ih =>
    obtain ⟨d, rfl⟩ := Nat.exists_eq_succ_of_ne_zero (Nat.ne_of_gt (Nat.zero_lt_of_lt enough))
    obtain ⟨d', rfl⟩ := Nat.exists_eq_succ_of_ne_zero (Nat.ne_of_gt (Nat.zero_lt_of_lt enough'))
    refine snapshotWith_agree data (fun _ _ u plain => snapshotTo_plain plain d d' _ _)
      (fun _ _ u free fewer => ?_) h met
    exact ih free (by omega) (by omega) (by omega)

/-- A value without parsers shows the same in stores with the same data. -/
theorem snapshot_agree (data : σ.SameData σ') (h : v.Parserless σ) : σ.snapshot v = σ'.snapshot v := by
  have met : σ.unmet [] ≤ σ.edits.length := Nat.le_of_eq (unmet_nil σ)
  unfold Store.snapshot
  rw [data.edits]
  exact snapshotTo_agree data σ.edits.length h met (by omega) (by omega)

end Parserless

/-! ### Evaluations that read -/

/-- Two evaluations that return the same in two stores, where it is of some kind, and leave both stores as
they are. -/
def Agrees {α : Type} (limits : Fault → Prop) (σ σ' : Store) (P : α → Prop) (x y : Eval α) : Prop :=
  Tandem limits x σ y σ' fun a τ b τ' => b = a ∧ P a ∧ τ = σ ∧ τ' = σ'

section Agrees

variable {α β : Type} {limits : Fault → Prop} {σ σ' : Store} {P : α → Prop} {Q : β → Prop}
  {x y : Eval α}

theorem agrees_pure {a : α} (h : P a) : Agrees limits σ σ' P (pure a) (pure a) :=
  tandem_pure ⟨rfl, h, rfl, rfl⟩

theorem agrees_raise (c : Cause) : Agrees limits σ σ' P (raise c) (raise c) := tandem_raise c

/-- Evaluations that agree may be followed by evaluations that agree on what the first ones return. -/
theorem Agrees.bind {f g : α → Eval β} (h : Agrees limits σ σ' P x y)
    (hf : ∀ a, P a → Agrees limits σ σ' Q (f a) (g a)) :
    Agrees limits σ σ' Q (x >>= f) (y >>= g) := by
  refine Tandem.bind h ?_
  rintro a τ b τ' ⟨rfl, good, rfl, rfl⟩
  exact hf b good

theorem agrees_present {found : Option α} (h : ∀ a, found = some a → P a) :
    Agrees limits σ σ' P (present found) (present found) := by
  cases found with
  | some a => exact agrees_pure (h a rfl)
  | none => exact agrees_raise _

end Agrees

section Operations

variable {limits : Fault → Prop} {σ σ' : Store} {v w : Value}

/-- The rules for operations that read, one for each operation. -/
theorem agrees_view (data : σ.SameData σ') (h : v.Parserless σ) :
    Agrees limits σ σ' (Value.Parserless σ) (view v) (view v) := by
  have same : σ'.view v = σ.view v := by
    cases v <;> simp only [Store.view, data.edits]
  exact ⟨_, _, rfl, same, h.view, rfl, rfl⟩

theorem agrees_shown (data : σ.SameData σ') (h : v.Parserless σ) :
    Agrees limits σ σ' (fun _ => True) (shown v) (shown v) :=
  ⟨_, _, rfl, (snapshot_agree data h).symm, trivial, rfl, rfl⟩

theorem agrees_textOf (data : σ.SameData σ') (h : v.Parserless σ) :
    Agrees limits σ σ' (fun _ => True) (textOf v) (textOf v) :=
  ⟨_, _, rfl, by rw [snapshot_agree data h], trivial, rfl, rfl⟩

theorem agrees_truthy (data : σ.SameData σ') (h : v.Parserless σ) :
    Agrees limits σ σ' (fun _ => True) (truthy v) (truthy v) :=
  (agrees_view data h).bind fun _ _ => agrees_pure trivial

theorem agrees_lengthOf (data : σ.SameData σ') (h : v.Parserless σ) :
    Agrees limits σ σ' (fun _ => True) (lengthOf v) (lengthOf v) := by
  refine (agrees_view data h).bind fun u _ => ?_
  split <;> first | exact agrees_pure trivial | exact agrees_raise _

theorem agrees_offsetOf (data : σ.SameData σ') (h : v.Parserless σ) :
    Agrees limits σ σ' (fun _ => True) (offsetOf v) (offsetOf v) := by
  refine (agrees_view data h).bind fun u _ => ?_
  split
  · exact agrees_pure trivial
  · exact agrees_raise _

theorem agrees_boundOf (data : σ.SameData σ') (h : v.Parserless σ) :
    Agrees limits σ σ' (fun _ => True) (boundOf v) (boundOf v) := by
  refine (agrees_view data h).bind fun u _ => ?_
  split
  · exact agrees_pure trivial
  · split
    · exact agrees_pure trivial
    · exact agrees_raise _

theorem agrees_equalTo (data : σ.SameData σ') (h : v.Parserless σ) (h' : w.Parserless σ) :
    Agrees limits σ σ' (fun _ => True) (equalTo v w) (equalTo v w) :=
  (agrees_shown data h).bind fun _ _ => (agrees_shown data h').bind fun _ _ => agrees_pure trivial

theorem agrees_checkKey (data : σ.SameData σ') (h : v.Parserless σ) :
    Agrees limits σ σ' (fun _ => True) (checkKey v) (checkKey v) := by
  refine (agrees_shown data h).bind fun d _ => ?_
  cases d.isHashable with
  | true => exact agrees_pure trivial
  | false => exact agrees_raise _

theorem agrees_entryOf (data : σ.SameData σ') (key : v.Parserless σ) {entries : List (Value × Value)}
    (h : ∀ e ∈ entries, e.1.Parserless σ ∧ e.2.Parserless σ) :
    Agrees limits σ σ' (fun found => ∀ u, found = some u → u.Parserless σ) (entryOf v entries)
      (entryOf v entries) := by
  induction entries with
  | nil => exact agrees_pure (by simp)
  | cons e rest ih =>
    have here := h e (List.mem_cons_self ..)
    refine (agrees_equalTo data here.1 key).bind fun found _ => ?_
    cases found with
    | true =>
      refine agrees_pure fun u same => ?_
      obtain rfl := Option.some.inj same
      exact here.2
    | false => exact ih fun e member => h e (List.mem_cons_of_mem _ member)

theorem mem_of_item? {α : Type} {xs : List α} {i : Int} {a : α} (h : Slice.item? xs i = some a) :
    a ∈ xs := by
  unfold Slice.item? at h
  split at h
  · split at h
    · cases h
    · exact List.mem_of_getElem? h
  · exact List.mem_of_getElem? h

theorem mem_of_between {α : Type} {xs : List α} {lo hi : Option Int} {a : α}
    (h : a ∈ Slice.between xs lo hi) : a ∈ xs := List.mem_of_mem_take (List.mem_of_mem_drop h)

theorem agrees_itemOf (data : σ.SameData σ') (h : v.Parserless σ) (hi : w.Parserless σ) :
    Agrees limits σ σ' (Value.Parserless σ) (itemOf v w) (itemOf v w) := by
  refine (agrees_view data h).bind fun u free => ?_
  split
  · refine (agrees_offsetOf data hi).bind fun n _ => ?_
    refine (agrees_present (P := fun _ => True) fun _ _ => trivial).bind fun c _ => ?_
    exact agrees_pure (parserless_str _)
  · refine (agrees_offsetOf data hi).bind fun n _ => agrees_present fun u there => ?_
    exact free.item (.inl rfl) u (mem_of_item? there)
  · refine (agrees_offsetOf data hi).bind fun n _ => agrees_present fun u there => ?_
    exact free.item (.inr (.inl rfl)) u (mem_of_item? there)
  · refine (agrees_checkKey data hi).bind fun _ _ => (agrees_entryOf data hi free.entry).bind
      fun found known => ?_
    split
    · exact agrees_pure (known _ rfl)
    · exact agrees_raise _
  · exact agrees_raise _

theorem agrees_sliceOf (data : σ.SameData σ') {lo hi : Value} (h : v.Parserless σ)
    (hlo : lo.Parserless σ) (hhi : hi.Parserless σ) :
    Agrees limits σ σ' (Value.Parserless σ) (sliceOf v lo hi) (sliceOf v lo hi) := by
  have cut : ∀ make : Option Int → Option Int → Value, (∀ m n, (make m n).Parserless σ) →
      Agrees limits σ σ' (Value.Parserless σ) (do return make (← boundOf lo) (← boundOf hi))
        (do return make (← boundOf lo) (← boundOf hi)) := fun make free =>
    (agrees_boundOf data hlo).bind fun m _ => (agrees_boundOf data hhi).bind fun n _ =>
      agrees_pure (free m n)
  refine (agrees_view data h).bind fun u free => ?_
  split
  · exact cut _ fun _ _ => parserless_str _
  · refine cut _ fun m n => parserless_list fun u member => ?_
    exact free.item (.inl rfl) u (mem_of_between member)
  · refine cut _ fun m n => parserless_tuple fun u member => ?_
    exact free.item (.inr (.inl rfl)) u (mem_of_between member)
  · exact agrees_raise _

theorem agrees_itemsOf (data : σ.SameData σ') (h : v.Parserless σ) :
    Agrees limits σ σ' (fun items => ∀ u ∈ items, u.Parserless σ) (itemsOf v) (itemsOf v) := by
  refine (agrees_view data h).bind fun u free => ?_
  split
  · refine agrees_pure fun u member => ?_
    obtain ⟨c, _, rfl⟩ := List.mem_map.mp member
    exact parserless_str _
  · exact agrees_pure (free.item (.inl rfl))
  · exact agrees_pure (free.item (.inr (.inl rfl)))
  · exact agrees_pure (free.item (.inr (.inr rfl)))
  · refine agrees_pure fun u member => ?_
    obtain ⟨e, there, rfl⟩ := List.mem_map.mp member
    exact (free.entry e there).1
  · exact agrees_raise _

theorem agrees_lessThan (data : σ.SameData σ') (h : v.Parserless σ) (h' : w.Parserless σ) :
    Agrees limits σ σ' (fun _ => True) (lessThan v w) (lessThan v w) := by
  refine (agrees_view data h).bind fun a free => (agrees_view data h').bind fun b free' => ?_
  split
  · exact agrees_pure trivial
  · refine (agrees_shown data free).bind fun d _ => (agrees_shown data free').bind fun d' _ => ?_
    split
    · exact agrees_pure trivial
    · exact agrees_raise _

theorem agrees_atMost (data : σ.SameData σ') (h : v.Parserless σ) (h' : w.Parserless σ) :
    Agrees limits σ σ' (fun _ => True) (atMost v w) (atMost v w) := by
  rw [atMost_eq]
  refine (agrees_view data h).bind fun a _ => (agrees_view data h').bind fun b _ => ?_
  split
  · exact agrees_pure trivial
  · exact agrees_raise _

theorem agrees_addTo (data : σ.SameData σ') (h : v.Parserless σ) (h' : w.Parserless σ) :
    Agrees limits σ σ' (Value.Parserless σ) (addTo v w) (addTo v w) := by
  refine (agrees_view data h).bind fun a free => (agrees_view data h').bind fun b free' => ?_
  split
  · exact agrees_pure (parserless_int _)
  · exact agrees_pure (parserless_str _)
  · refine agrees_pure (parserless_list fun u member => ?_)
    rcases List.mem_append.mp member with first | last
    · exact free.item (.inl rfl) u first
    · exact free'.item (.inl rfl) u last
  · refine agrees_pure (parserless_tuple fun u member => ?_)
    rcases List.mem_append.mp member with first | last
    · exact free.item (.inr (.inl rfl)) u first
    · exact free'.item (.inr (.inl rfl)) u last
  · cases sum : arithmetic (· + ·) (· + ·) _ _ with
    | some c => exact agrees_pure (arithmetic_isPlain sum).parserless
    | none => exact agrees_raise _

theorem agrees_joinWith (data : σ.SameData σ') (between : String) (h : v.Parserless σ) :
    Agrees limits σ σ' (fun _ => True) (joinWith between v) (joinWith between v) := by
  refine (agrees_itemsOf data h).bind fun items _ => ?_
  dsimp only
  split
  · exact agrees_raise _
  · exact agrees_pure trivial

theorem agrees_expectedText (data : σ.SameData σ') (h : v.Parserless σ) :
    Agrees limits σ σ' (fun _ => True) (expectedText v) (expectedText v) := by
  refine Agrees.bind (P := Value.Parserless σ) ?_ fun u free => agrees_textOf data free
  refine (agrees_lengthOf data h).bind fun n _ => ?_
  split
  · exact agrees_itemOf data h (parserless_int _)
  · exact (agrees_joinWith data _ h).bind fun s _ => agrees_pure (parserless_str _)

theorem agrees_lineColumnOf (data : σ.SameData σ') (h : v.Parserless σ) (hi : w.Parserless σ) :
    Agrees limits σ σ' (Value.Parserless σ) (lineColumnOf v w) (lineColumnOf v w) := by
  refine (agrees_view data h).bind fun u free => ?_
  split
  · refine (agrees_boundOf data hi).bind fun n _ => agrees_pure ?_
    exact parserless_lineColumn hi (parserless_int _) (parserless_int _)
  · exact (agrees_sliceOf data free parserless_none hi).bind fun _ _ => agrees_raise _

theorem agrees_holdsAt (data : σ.SameData σ') (literal : String) (h : v.Parserless σ)
    (hi : w.Parserless σ) :
    Agrees limits σ σ' (fun _ => True) (Behave.holdsAt v literal w) (Behave.holdsAt v literal w) := by
  refine (agrees_view data h).bind fun u _ => ?_
  split
  · exact (agrees_boundOf data hi).bind fun n _ => agrees_pure trivial
  · exact agrees_raise _

def Result.Parserless (σ : Store) (r : Result) : Prop :=
  r.status.Parserless σ ∧ r.index.Parserless σ ∧ r.value.Parserless σ

theorem agrees_resultOf (h : v.Parserless σ) :
    Agrees limits σ σ' (Result.Parserless σ) (resultOf v) (resultOf v) := by
  unfold resultOf Value.result?
  cases made : v.content with
  | result a b c =>
    have free := h.content
    rw [made] at free
    exact agrees_pure (free.three rfl)
  | _ => exact agrees_raise _

theorem agrees_furthest (data : σ.SameData σ') {r : Result} (h : r.Parserless σ) :
    Agrees limits σ σ' (Value.Parserless σ) (furthest r) (furthest r) := by
  refine (agrees_truthy data h.1).bind fun b _ => agrees_pure ?_
  split
  · exact parserless_int _
  · exact h.2.1

/-- Merged results are without parsers if the two results were. -/
theorem agrees_mergeOver (data : σ.SameData σ') (h : v.Parserless σ) (h' : w.Parserless σ) :
    Agrees limits σ σ' (Value.Parserless σ) (mergeOver v w) (mergeOver v w) := by
  unfold mergeOver
  split
  · exact agrees_pure h
  refine (agrees_resultOf h).bind fun c candidate => ?_
  refine (agrees_truthy data candidate.1).bind fun succeeded _ => ?_
  split
  · exact agrees_pure h
  refine (agrees_resultOf h').bind fun p previous => ?_
  refine (agrees_furthest data previous).bind fun reached place => ?_
  refine (agrees_lessThan data place candidate.2.1).bind fun before _ => ?_
  split
  · exact agrees_pure h
  refine (agrees_lessThan data candidate.2.1 previous.2.1).bind fun behind _ => ?_
  split
  · exact agrees_pure h'
  refine (agrees_addTo data candidate.2.2 previous.2.2).bind fun both expected => ?_
  exact agrees_pure (parserless_result (Value.IsPlain.parserless trivial) candidate.2.1 expected)

theorem agrees_threeOf (data : σ.SameData σ') (h : v.Parserless σ) :
    Agrees limits σ σ' (fun three => three.1.Parserless σ ∧ three.2.1.Parserless σ ∧
      three.2.2.Parserless σ) (Behave.threeOf v) (Behave.threeOf v) := by
  refine (agrees_itemsOf data h).bind fun items free => ?_
  split
  · exact agrees_pure ⟨free _ (by simp), free _ (by simp), free _ (by simp)⟩
  · exact agrees_raise _

end Operations

end Rebind
