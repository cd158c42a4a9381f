import Rebind.Proofs.Likeness
/-!
# Values up to identities

Data that differs at most in the identities of its parts shows itself in the same way as long as no part of
it is changed, and giving identities to its parts makes no other difference.  Parsers may be among the parts if
they go by the same names on both sides.  So what is the same up to identities corresponds in the sense of a
`Likeness`, whether or not it was shown to a trace handler.
-/
namespace Rebind

namespace Value

/-- What is made of parts and has an identity once a function has seen it. -/
def IsComposite : Value → Prop
  | .list _ | .tuple _ | .dict _ | .set _ | .result _ _ _ | .mark _ _ _ | .lineColumn _ _ _ => True
  | _ => False

section

variable (known : ParserId → Prop)

mutual

/-- Data over some parsers whose identities lie below a bound.  Things are made after their parts, so the
identities of the parts lie below that of the whole. -/
def Spans : Value → Nat → Prop
  | .none, _ | .bool _, _ | .int _, _ | .float _, _ | .str _, _ => True
  | .parser p, _ => known p
  | .list items, n | .tuple items, n | .set items, n => AllSpan items n
  | .dict entries, n => EntriesSpan entries n
  | .object id v, n => id < n ∧ v.IsComposite ∧ Spans v id
  | .result a b c, n | .mark a b c, n | .lineColumn a b c, n => Spans a n ∧ Spans b n ∧ Spans c n
  | _, _ => False

def AllSpan : List Value → Nat → Prop
  | [], _ => True
  | v :: rest, n => Spans v n ∧ AllSpan rest n

def EntriesSpan : List (Value × Value) → Nat → Prop
  | [], _ => True
  | (k, v) :: rest, n => Spans k n ∧ Spans v n ∧ EntriesSpan rest n

end

end

/-- Data without parsers whose identities lie below a bound. -/
abbrev Below (v : Value) (n : Nat) : Prop := Spans (fun _ => False) v n

abbrev AllBelow (vs : List Value) (n : Nat) : Prop := AllSpan (fun _ => False) vs n

abbrev EntriesBelow (es : List (Value × Value)) (n : Nat) : Prop := EntriesSpan (fun _ => False) es n

mutual

/-- The data without any identity. -/
def bare : Value → Value
  | .list items => .list (bareAll items)
  | .tuple items => .tuple (bareAll items)
  | .dict entries => .dict (bareEntries entries)
  | .set items => .set (bareAll items)
  | .object _ v => bare v
  | .result a b c => .result (bare a) (bare b) (bare c)
  | .mark a b c => .mark (bare a) (bare b) (bare c)
  | .lineColumn a b c => .lineColumn (bare a) (bare b) (bare c)
  | v => v

def bareAll : List Value → List Value
  | [] => []
  | v :: rest => bare v :: bareAll rest

def bareEntries : List (Value × Value) → List (Value × Value)
  | [] => []
  | (k, v) :: rest => (bare k, bare v) :: bareEntries rest

end

variable {known : ParserId → Prop}

mutual

theorem Spans.mono {m n : Nat} (le : m ≤ n) : ∀ {v : Value}, v.Spans known m → v.Spans known n
  | .none, _ | .bool _, _ | .int _, _ | .float _, _ | .str _, _ => trivial
  | .parser _, h => h
  | .list _, h | .tuple _, h | .set _, h => AllSpan.mono le h
  | .dict _, h => EntriesSpan.mono le h
  | .object _ _, h => ⟨Nat.lt_of_lt_of_le h.1 le, h.2⟩
  | .result _ _ _, h | .mark _ _ _, h | .lineColumn _ _ _, h =>
    ⟨Spans.mono le h.1, Spans.mono le h.2.1, Spans.mono le h.2.2⟩

theorem AllSpan.mono {m n : Nat} (le : m ≤ n) : ∀ {vs : List Value}, AllSpan known vs m → AllSpan known vs n
  | [], _ => trivial
  | _ :: _, h => ⟨Spans.mono le h.1, AllSpan.mono le h.2⟩

theorem EntriesSpan.mono {m n : Nat} (le : m ≤ n) :
    ∀ {es : List (Value × Value)}, EntriesSpan known es m → EntriesSpan known es n
  | [], _ => trivial
  | (_, _) :: _, h => ⟨Spans.mono le h.1, Spans.mono le h.2.1, EntriesSpan.mono le h.2.2⟩

end

variable (known) in
/-- What giving identities does to data: they are taken in turn, and nothing else changes. -/
def Identifies (v : Value) (given : Value × Nat) (n : Nat) : Prop :=
  n ≤ given.2 ∧ given.1.Spans known given.2 ∧ given.1.bare = v.bare

mutual

/-- By induction on the data, with the identities that are given to its parts. -/
theorem identify_identifies {n : Nat} : ∀ {v : Value}, v.Spans known n → v.Identifies known (v.identify n) n
  | .none, _ | .bool _, _ | .int _, _ | .float _, _ | .str _, _ => ⟨Nat.le_refl n, trivial, rfl⟩
  | .parser _, h => ⟨Nat.le_refl n, h, rfl⟩
  | .list items, h => by
    obtain ⟨le, below, same⟩ := identifyAll_identifies h
    simp only [identify, Identifies, Spans, bare, same]
    exact ⟨by omega, ⟨by omega, trivial, below⟩, trivial⟩
  | .tuple items, h => by
    obtain ⟨le, below, same⟩ := identifyAll_identifies h
    simp only [identify]
    split
    · next empty =>
      obtain rfl := List.isEmpty_iff.mp empty
      exact ⟨Nat.le_refl n, trivial, rfl⟩
    · simp only [Identifies, Spans, bare, same]
      exact ⟨by omega, ⟨by omega, trivial, below⟩, trivial⟩
  | .set items, h => by
    obtain ⟨le, below, same⟩ := identifyAll_identifies h
    simp only [identify, Identifies, Spans, bare, same]
    exact ⟨by omega, ⟨by omega, trivial, below⟩, trivial⟩
  | .dict entries, h => by
    obtain ⟨le, below, same⟩ := identifyEntries_identifies h
    simp only [identify, Identifies, Spans, bare, same]
    exact ⟨by omega, ⟨by omega, trivial, below⟩, trivial⟩
  | .object _ _, h => ⟨Nat.le_refl n, h, rfl⟩
  | .result a b c, h => by
    obtain ⟨first, belowA, sameA⟩ := identify_identifies h.1
    obtain ⟨second, belowB, sameB⟩ := identify_identifies (h.2.1.mono first)
    obtain ⟨third, belowC, sameC⟩ := identify_identifies (h.2.2.mono (Nat.le_trans first second))
    simp only [identify, Identifies, Spans, bare, sameA, sameB, sameC]
    exact ⟨by omega, ⟨by omega, trivial, belowA.mono (by omega), belowB.mono (by omega), belowC⟩, trivial⟩
  | .mark a b c, h => by
    obtain ⟨first, belowA, sameA⟩ := identify_identifies h.1
    obtain ⟨second, belowB, sameB⟩ := identify_identifies (h.2.1.mono first)
    obtain ⟨third, belowC, sameC⟩ := identify_identifies (h.2.2.mono (Nat.le_trans first second))
    simp only [identify, Identifies, Spans, bare, sameA, sameB, sameC]
    exact ⟨by omega, ⟨by omega, trivial, belowA.mono (by omega), belowB.mono (by omega), belowC⟩, trivial⟩
  | .lineColumn a b c, h => ⟨Nat.le_succ n, ⟨Nat.lt_succ_self n, trivial, h⟩, rfl⟩

theorem identifyAll_identifies {n : Nat} : ∀ {vs : List Value}, AllSpan known vs n →
    n ≤ (identifyAll vs n).2 ∧ AllSpan known (identifyAll vs n).1 (identifyAll vs n).2 ∧
      bareAll (identifyAll vs n).1 = bareAll vs
  | [], _ => ⟨Nat.le_refl n, trivial, rfl⟩
  | v :: rest, h => by
    obtain ⟨first, below, same⟩ := identify_identifies h.1
    obtain ⟨second, others, sames⟩ := identifyAll_identifies (h.2.mono first)
    simp only [identifyAll, AllSpan, bareAll, same, sames]
    exact ⟨Nat.le_trans first second, ⟨below.mono second, others⟩, trivial⟩

theorem identifyEntries_identifies {n : Nat} : ∀ {es : List (Value × Value)}, EntriesSpan known es n →
    n ≤ (identifyEntries es n).2 ∧ EntriesSpan known (identifyEntries es n).1 (identifyEntries es n).2 ∧
      bareEntries (identifyEntries es n).1 = bareEntries es
  | [], _ => ⟨Nat.le_refl n, trivial, rfl⟩
  | (k, v) :: rest, h => by
    obtain ⟨first, belowK, sameK⟩ := identify_identifies h.1
    obtain ⟨second, belowV, sameV⟩ := identify_identifies (h.2.1.mono first)
    have led := Nat.le_trans first second
    obtain ⟨third, others, sames⟩ := identifyEntries_identifies (h.2.2.mono led)
    simp only [identifyEntries, EntriesSpan, bareEntries, sameK, sameV, sames]
    exact ⟨by omega, ⟨belowK.mono (by omega), belowV.mono third, others⟩, trivial⟩

end

end Value

mutual

/-- Identities are given one after the other. -/
theorem le_identify : ∀ (v : Value) (n : Nat), n ≤ (v.identify n).2
  | .none, _ | .bool _, _ | .int _, _ | .float _, _ | .str _, _ | .object _ _, _ | .parser _, _
  | .echo _, _ => Nat.le_refl _
  | .lineColumn _ _ _, n | .behaviour _, n | .closure _ _ _ _ _, n | .pattern _, n | .path _, n
  | .moment _, n | .handler _, n | .source _ _, n | .renderer _ _, n | .error _, n => Nat.le_succ n
  | .list items, n | .set items, n => Nat.le_succ_of_le (le_identifyAll items n)
  | .dict entries, n => Nat.le_succ_of_le (le_identifyEntries entries n)
  | .tuple items, n => by
    simp only [Value.identify]
    split
    · exact Nat.le_refl n
    · exact Nat.le_succ_of_le (le_identifyAll items n)
  | .result a b c, n | .mark a b c, n | .mismatch a b c _, n =>
    Nat.le_succ_of_le (Nat.le_trans (le_identify a n) (Nat.le_trans (le_identify b _) (le_identify c _)))
  | .settings a b c d e, n =>
    Nat.le_succ_of_le (Nat.le_trans (le_identify a n) (Nat.le_trans (le_identify b _)
      (Nat.le_trans (le_identify c _) (Nat.le_trans (le_identify d _) (le_identify e _)))))

theorem le_identifyAll : ∀ (vs : List Value) (n : Nat), n ≤ (Value.identifyAll vs n).2
  | [], n => Nat.le_refl n
  | v :: rest, n => Nat.le_trans (le_identify v n) (le_identifyAll rest _)

theorem le_identifyEntries : ∀ (es : List (Value × Value)) (n : Nat), n ≤ (Value.identifyEntries es n).2
  | [], n => Nat.le_refl n
  | (k, v) :: rest, n => Nat.le_trans (le_identify k n) (Nat.le_trans (le_identify v _)
    (le_identifyEntries rest _))

end

/-! ### What data shows -/

section Shows

open Store

variable {known : ParserId → Prop} {σ τ : Store} {later : List Nat → Option Nat → Value → Datum}

/-- Some parsers have the same plain name in two stores. -/
def SameNames (known : ParserId → Prop) (σ τ : Store) : Prop :=
  ∀ p, known p → ∃ name, σ.plainName p = some name ∧ τ.plainName p = some name

theorem SameNames.symm (h : SameNames known σ τ) : SameNames known τ σ := fun p k =>
  let ⟨name, here, there⟩ := h p k
  ⟨name, there, here⟩

theorem SameNames.refl_right (h : SameNames known σ τ) : SameNames known τ τ := fun p k =>
  let ⟨name, _, there⟩ := h p k
  ⟨name, there, there⟩

/-- What data without identities shows, the names of parsers apart, in any store. -/
def Value.shows (τ : Store) : Value → Datum := snapshotWith τ (fun _ _ _ => .none) [] Option.none

mutual

/-- Data none of which was changed shows what it shows without its identities. -/
theorem snapshotWith_bare (named : SameNames known σ τ) (unedited : σ.edits = []) {n : Nat}
    {inside : List Nat} {identity : Option Nat} (outer : ∀ i ∈ inside, n ≤ i) :
    ∀ {v : Value}, v.Spans known n → σ.snapshotWith later inside identity v = v.bare.shows τ
  | .none, _ | .bool _, _ | .int _, _ | .float _, _ | .str _, _ => rfl
  | .parser p, h => by
    obtain ⟨name, here, there⟩ := named p h
    simp only [Value.bare, Value.shows, snapshotWith, here, there]
  | .list items, h => congrArg Datum.list (snapshotAll_bare named unedited outer h)
  | .tuple items, h => congrArg Datum.tuple (snapshotAll_bare named unedited outer h)
  | .set items, h => congrArg Datum.set (snapshotAll_bare named unedited outer h)
  | .dict entries, h => congrArg Datum.dict (snapshotEntries_bare named unedited outer h)
  | .object id v, h => by
    have absent : inside.contains id = false := by
      simp only [List.contains_eq_mem, decide_eq_false_iff_not]
      intro member
      have := outer id member
      have := h.1
      omega
    have inner : ∀ i ∈ id :: inside, id ≤ i := by
      intro i member
      rcases List.mem_cons.mp member with rfl | member
      · exact Nat.le_refl i
      · have := outer i member
        have := h.1
        omega
    simp only [snapshotWith, absent, unedited, List.lookup_nil, Value.bare]
    exact snapshotWith_bare named unedited inner h.2.2
  | .result a b c, h => by
    simp only [snapshotWith, Value.bare, Value.shows]
    rw [snapshotWith_bare named unedited outer h.1, snapshotWith_bare named unedited outer h.2.1,
      snapshotWith_bare named unedited outer h.2.2]
    rfl
  | .mark a b c, h => by
    simp only [snapshotWith, Value.bare, Value.shows]
    rw [snapshotWith_bare named unedited outer h.1, snapshotWith_bare named unedited outer h.2.1,
      snapshotWith_bare named unedited outer h.2.2]
    rfl
  | .lineColumn a b c, h => by
    simp only [snapshotWith, Value.bare, Value.shows]
    rw [snapshotWith_bare named unedited outer h.1, snapshotWith_bare named unedited outer h.2.1,
      snapshotWith_bare named unedited outer h.2.2]
    rfl

/-- Likewise for items. -/
theorem snapshotAll_bare (named : SameNames known σ τ) (unedited : σ.edits = []) {n : Nat}
    {inside : List Nat} (outer : ∀ i ∈ inside, n ≤ i) : ∀ {vs : List Value}, Value.AllSpan known vs n →
      σ.snapshotAll later inside vs = snapshotAll τ (fun _ _ _ => .none) [] (Value.bareAll vs)
  | [], _ => rfl
  | _ :: _, h => congrArg₂ List.cons (snapshotWith_bare named unedited outer h.1)
    (snapshotAll_bare named unedited outer h.2)

/-- Likewise for keys and values. -/
theorem snapshotEntries_bare (named : SameNames known σ τ) (unedited : σ.edits = []) {n : Nat}
    {inside : List Nat} (outer : ∀ i ∈ inside, n ≤ i) :
    ∀ {es : List (Value × Value)}, Value.EntriesSpan known es n →
      σ.snapshotEntries later inside es =
        snapshotEntries τ (fun _ _ _ => .none) [] (Value.bareEntries es)
  | [], _ => rfl
  | (_, _) :: _, h => congrArg₂ List.cons
    (congrArg₂ Prod.mk (snapshotWith_bare named unedited outer h.1)
      (snapshotWith_bare named unedited outer h.2.1))
    (snapshotEntries_bare named unedited outer h.2.2)

end

/-- A value shows what is filled in on the way into it, starting outside of every object. -/
theorem snapshot_eq (σ : Store) (v : Value) : σ.snapshot v =
    σ.snapshotWith (σ.snapshotTo (σ.edits.length + σ.parsers.size)) [] Option.none v := rfl

theorem snapshot_bare (named : SameNames known σ τ) (unedited : σ.edits = []) {n : Nat} {v : Value}
    (h : v.Spans known n) : σ.snapshot v = v.bare.shows τ := by
  rw [snapshot_eq]
  exact snapshotWith_bare named unedited (by simp) h

end Shows

/-! ### The same up to identities -/

/-- Data over some parsers that is the same on the two sides up to identities, which lie below a bound on each
side. -/
structure Peer (known : ParserId → Prop) (bounds : Nat × Nat) (v v' : Value) : Prop where
  left : v.Spans known bounds.1
  right : v'.Spans known bounds.2
  same : v.bare = v'.bare

/-- Data without parsers that is the same up to identities. -/
abbrev Twin : Nat × Nat → Value → Value → Prop := Peer fun _ => False

section Peer

variable {known : ParserId → Prop} {bounds : Nat × Nat} {v v' : Value}

theorem Peer.mono {wider : Nat × Nat} (h : Peer known bounds v v')
    (le : bounds.1 ≤ wider.1 ∧ bounds.2 ≤ wider.2) : Peer known wider v v' :=
  ⟨h.left.mono le.1, h.right.mono le.2, h.same⟩

theorem Peer.symm {m n : Nat} (h : Peer known (m, n) v v') : Peer known (n, m) v' v :=
  ⟨h.right, h.left, h.same.symm⟩

/-- Data that has no identity of its own. -/
def Value.IsFlat : Value → Prop
  | .none | .bool _ | .int _ | .float _ | .str _ | .parser _ | .list _ | .tuple _ | .dict _ | .set _
  | .result _ _ _ | .mark _ _ _ | .lineColumn _ _ _ => True
  | _ => False

theorem Value.IsComposite.isFlat (h : v.IsComposite) : v.IsFlat := by
  cases v <;> first | exact h.elim | trivial

/-- The content of data has no identity of its own. -/
theorem Value.Spans.content {n : Nat} (h : v.Spans known n) :
    v.content.Spans known n ∧ v.content.bare = v.bare ∧ v.content.IsFlat := by
  cases v with
  | object id u => exact ⟨h.2.2.mono (Nat.le_of_lt h.1), rfl, h.2.1.isFlat⟩
  | none | bool | int | float | str | parser => exact ⟨h, rfl, trivial⟩
  | list | tuple | dict | set | result | mark | lineColumn => exact ⟨h, rfl, trivial⟩
  | _ => exact h.elim

/-- Only a parser is a parser without its identities. -/
theorem Value.Spans.eq_parser {n : Nat} {p : ParserId} (h : v.Spans known n) (bare : v.bare = .parser p) :
    v = .parser p := by
  cases v with
  | parser q => exact bare
  | object id u =>
    have composite : u.IsComposite := h.2.1
    have bare : u.bare = .parser p := bare
    cases u <;> first | exact composite.elim | cases bare
  | none | bool | int | float | str => cases bare
  | list | tuple | dict | set | result | mark | lineColumn => cases bare
  | _ => exact h.elim

theorem Value.IsFlat.isPlain (h : v.IsFlat) (plain : v.bare.IsPlain) : v.bare = v := by
  cases v with
  | none | bool | int | float | str => rfl
  | parser | list | tuple | dict | set | result | mark | lineColumn => exact plain.elim
  | _ => exact h.elim

theorem Value.IsFlat.isData (h : v.IsFlat) : v.bare.IsData ↔ v.IsData := by
  cases v with
  | none | bool | int | float | str | parser | list | tuple | dict | set | result | mark | lineColumn => rfl
  | _ => exact h.elim

theorem Value.IsFlat.result {a b c : Value} (h : v.IsFlat) (same : v.bare = .result a b c) :
    ∃ x y z, v = .result x y z ∧ x.bare = a ∧ y.bare = b ∧ z.bare = c := by
  cases v with
  | result x y z =>
    obtain ⟨first, second, third⟩ := Value.result.inj same
    exact ⟨x, y, z, rfl, first, second, third⟩
  | none | bool | int | float | str | parser | list | tuple | set | dict | mark | lineColumn => cases same
  | _ => exact h.elim

/-- Lists that are the same up to identities have items that are. -/
theorem forall₂_peer : ∀ {xs ys : List Value}, Value.AllSpan known xs bounds.1 →
    Value.AllSpan known ys bounds.2 → Value.bareAll xs = Value.bareAll ys →
    List.Forall₂ (Peer known bounds) xs ys
  | [], [], _, _, _ => .nil
  | _ :: _, _ :: _, h, h', same => by
    obtain ⟨head, rest⟩ := List.cons.inj same
    exact .cons ⟨h.1, h'.1, head⟩ (forall₂_peer h.2 h'.2 rest)

/-- Lists of such items are the same up to identities. -/
theorem peer_forall₂ {xs ys : List Value} (h : List.Forall₂ (Peer known bounds) xs ys) :
    Value.AllSpan known xs bounds.1 ∧ Value.AllSpan known ys bounds.2 ∧
      Value.bareAll xs = Value.bareAll ys := by
  induction h with
  | nil => exact ⟨trivial, trivial, rfl⟩
  | cons head _ ih =>
    exact ⟨⟨head.left, ih.1⟩, ⟨head.right, ih.2.1⟩, congrArg₂ List.cons head.same ih.2.2⟩

theorem forall₂_entries : ∀ {xs ys : List (Value × Value)}, Value.EntriesSpan known xs bounds.1 →
    Value.EntriesSpan known ys bounds.2 → Value.bareEntries xs = Value.bareEntries ys →
    List.Forall₂ (fun x y => Peer known bounds x.1 y.1 ∧ Peer known bounds x.2 y.2) xs ys
  | [], [], _, _, _ => .nil
  | (_, _) :: _, (_, _) :: _, h, h', same => by
    obtain ⟨head, rest⟩ := List.cons.inj same
    obtain ⟨key, value⟩ := Prod.mk.inj head
    exact .cons ⟨⟨h.1, h'.1, key⟩, ⟨h.2.1, h'.2.1, value⟩⟩ (forall₂_entries h.2.2 h'.2.2 rest)

/-- Data without an identity of its own that is the same up to identities has the same form. -/
theorem Peer.alike (h : Peer known bounds v v') (flat : v.IsFlat) (flat' : v'.IsFlat) :
    Alike (Peer known bounds) v v' := by
  obtain ⟨left, right, same⟩ := h
  cases v with
  | none | bool | int | float | str =>
    obtain rfl := same.trans (flat'.isPlain (same ▸ trivial))
    exact .plain trivial
  | list xs =>
    cases v' with
    | list ys => exact .list (forall₂_peer left right (Value.list.inj same))
    | _ => first | cases same | exact flat'.elim
  | tuple xs =>
    cases v' with
    | tuple ys => exact .tuple (forall₂_peer left right (Value.tuple.inj same))
    | _ => first | cases same | exact flat'.elim
  | set xs =>
    cases v' with
    | set ys => exact .set (forall₂_peer left right (Value.set.inj same))
    | _ => first | cases same | exact flat'.elim
  | dict xs =>
    cases v' with
    | dict ys => exact .dict (forall₂_entries left right (Value.dict.inj same))
    | _ => first | cases same | exact flat'.elim
  | parser | result | mark | lineColumn =>
    refine .other id fun data => ?_
    have data := flat'.isData.mpr data
    rw [← same] at data
    exact data
  | _ => exact flat.elim

/-- The contents of data that is the same up to identities have the same form. -/
theorem Peer.content (h : Peer known bounds v v') :
    Peer known bounds v.content v'.content ∧ Alike (Peer known bounds) v.content v'.content := by
  obtain ⟨below, same, flat⟩ := h.left.content
  obtain ⟨below', same', flat'⟩ := h.right.content
  have peer : Peer known bounds v.content v'.content := ⟨below, below', by rw [same, same', h.same]⟩
  exact ⟨peer, peer.alike flat flat'⟩

/-- Plain data has no identities in which it could differ. -/
theorem Peer.eq_of_isPlain (h : Peer known bounds v v') (plain : v.IsPlain) : v = v' := by
  have bare : v.bare = v := by
    cases v with
    | none | bool | int | float | str => rfl
    | _ => exact plain.elim
  have isPlain : v'.bare.IsPlain := by
    rw [← h.same, bare]
    exact plain
  cases v' with
  | object id u =>
    have composite := h.right.2.1
    have same : u.bare = u := composite.isFlat.isPlain isPlain
    change u.bare.IsPlain at isPlain
    rw [same] at isPlain
    cases u <;> first | exact isPlain.elim | exact composite.elim
  | none | bool | int | float | str => rw [← bare, h.same]; rfl
  | parser | list | tuple | dict | set | result | mark | lineColumn => exact isPlain.elim
  | _ => exact h.right.elim

/-- A parser is the same up to identities as itself alone. -/
theorem Peer.parser (h : Peer known bounds v v') (p : ParserId) : v = .parser p ↔ v' = .parser p := by
  constructor
  · rintro rfl
    exact h.right.eq_parser h.same.symm
  · rintro rfl
    exact h.left.eq_parser h.same

/-- What is the same as a result is one, with the same parts. -/
theorem Peer.result (h : Peer known bounds v v') :
    Option.Rel (Result.Alike (Peer known bounds)) v.result? v'.result? := by
  obtain ⟨below, same, flat⟩ := h.left.content
  obtain ⟨below', same', flat'⟩ := h.right.content
  have eq : v.content.bare = v'.content.bare := by rw [same, same', h.same]
  unfold Value.result?
  split
  · next a b c made =>
    rw [made] at below eq
    obtain ⟨x, y, z, made', first, second, third⟩ := flat'.result eq.symm
    rw [made'] at below' ⊢
    exact .some ⟨⟨below.1, below'.1, first.symm⟩, ⟨below.2.1, below'.2.1, second.symm⟩,
      ⟨below.2.2, below'.2.2, third.symm⟩⟩
  · next other =>
    split
    · next x y z made' =>
      rw [made'] at eq
      obtain ⟨a, b, c, made, _⟩ := flat.result eq
      exact (other a b c made).elim
    · exact .none

theorem Formed.peer (h : Formed (Peer known bounds) v v') : Peer known bounds v v' := by
  cases h with
  | plain plain =>
    cases v with
    | none | bool | int | float | str => exact ⟨trivial, trivial, rfl⟩
    | _ => exact plain.elim
  | list all =>
    obtain ⟨left, right, same⟩ := peer_forall₂ all
    exact ⟨left, right, congrArg Value.list same⟩
  | tuple all =>
    obtain ⟨left, right, same⟩ := peer_forall₂ all
    exact ⟨left, right, congrArg Value.tuple same⟩
  | result a b c | mark a b c | lineColumn a b c =>
    refine ⟨⟨a.left, b.left, c.left⟩, ⟨a.right, b.right, c.right⟩, ?_⟩
    simp only [Value.bare, a.same, b.same, c.same]

end Peer

/-! ### The resemblance -/

/-- Two stores with identities given out up to certain bounds at least, nothing changed and the same names for
the known parsers. -/
structure Unedited (known : ParserId → Prop) (bounds : Nat × Nat) (σ σ' : Store) : Prop where
  left : bounds.1 ≤ σ.nextObject
  right : bounds.2 ≤ σ'.nextObject
  unedited : σ.edits = []
  unedited' : σ'.edits = []
  names : SameNames known σ σ'

section Unedited

variable {known : ParserId → Prop} {bounds : Nat × Nat} {σ σ' : Store} {v v' : Value}

/-- Data that is the same up to identities shows itself in the same way. -/
theorem Unedited.snapshot (hs : Unedited known bounds σ σ') (h : Peer known bounds v v') :
    σ.snapshot v = σ'.snapshot v' := by
  rw [snapshot_bare hs.names hs.unedited h.left, snapshot_bare hs.names.refl_right hs.unedited' h.right,
    h.same]

theorem Unedited.view (hs : Unedited known bounds σ σ') (h : Peer known bounds v v') :
    Peer known bounds (σ.view v) (σ'.view v') ∧ Alike (Peer known bounds) (σ.view v) (σ'.view v') := by
  have view : ∀ {τ : Store} (u : Value), τ.edits = [] → τ.view u = u.content := by
    intro τ u unedited
    cases u <;> simp [Store.view, Value.content, unedited]
  rw [view _ hs.unedited, view _ hs.unedited']
  exact h.content

/-- Identities that are given on one side only. -/
theorem Unedited.identified (hs : Unedited known bounds σ σ') (h : Peer known bounds v v') :
    σ.nextObject ≤ (v.identify σ.nextObject).2 ∧
      Peer known ((v.identify σ.nextObject).2, bounds.2) (v.identify σ.nextObject).1 v' := by
  obtain ⟨le, below, same⟩ := Value.identify_identifies (h.left.mono hs.left)
  exact ⟨le, below, h.right, by rw [same, h.same]⟩

theorem Unedited.symm {m n : Nat} (hs : Unedited known (m, n) σ σ') : Unedited known (n, m) σ' σ :=
  ⟨hs.right, hs.left, hs.unedited', hs.unedited, hs.names.symm⟩

/-- An error shows its cause. -/
theorem literal_error (unedited : σ.edits = []) {c : Cause} (h : v.content = .error c) :
    (σ.snapshot v).literal = Datum.errorLiteral c := by
  rw [snapshot_eq]
  cases v with
  | object id u =>
    obtain rfl : u = .error c := h
    simp only [Store.snapshotWith, unedited, List.contains_nil, List.lookup_nil]
    rfl
  | error c' =>
    obtain rfl := Value.error.inj h
    rfl
  | _ => cases h

end Unedited

/-- Evaluation with identities for what functions see, on data that no function changes: what corresponds is
the same up to identities, and errors correspond if their causes are the same.  What else is known of the
stores is left open, as long as identities may be given on both sides. -/
def Resemblance.upToIdentities (known : ParserId → Prop) (World : Type) (later : World → World → Prop)
    (bounds : World → Nat × Nat) (stores : World → Store → Store → Prop) (later_refl : ∀ w, later w w)
    (later_trans : ∀ {u v w}, later u v → later v w → later u w)
    (onward : ∀ {u w}, later u w → (bounds u).1 ≤ (bounds w).1 ∧ (bounds u).2 ≤ (bounds w).2)
    (unedited : ∀ {w σ σ'}, stores w σ σ' → Unedited known (bounds w) σ σ')
    (widen : ∀ {w σ σ' m n}, stores w σ σ' → σ.nextObject ≤ m → σ'.nextObject ≤ n →
      ∃ w', later w w' ∧ bounds w' = (m, n) ∧
        stores w' { σ with nextObject := m } { σ' with nextObject := n }) :
    Resemblance Value.share where
  World := World
  later := later
  values w := Peer known (bounds w)
  errors _ e e' := ∃ c, e.content = .error c ∧ e'.content = .error c
  stores := stores
  later_refl := later_refl
  later_trans := later_trans
  values_later led h := h.mono (onward led)
  errors_later _ h := h
  plain h plain := by
    rcases plain with left | right
    · exact h.eq_of_isPlain left
    · exact (h.symm.eq_of_isPlain right).symm
  result := Peer.result
  formed := Formed.peer
  cause c := ⟨c, rfl, rfl⟩
  error_shown hs h := by
    obtain ⟨c, made, made'⟩ := h
    rw [literal_error (unedited hs).unedited made, literal_error (unedited hs).unedited' made']
  view hs h := (unedited hs).view h
  shown hs h := by
    rw [(unedited hs).snapshot h]
    exact ⟨rfl, rfl, rfl⟩
  compared hs h h' := by
    rw [(unedited hs).snapshot h, (unedited hs).snapshot h']
    exact ⟨rfl, rfl⟩
  shared hs h := by
    obtain ⟨le, like⟩ := (unedited hs).identified h
    obtain ⟨le', like'⟩ := (unedited hs).symm.identified h.symm
    obtain ⟨w', led, same, hs'⟩ := widen hs le le'
    have both := like.same.trans (h.same.symm.trans like'.same.symm)
    exact ⟨_, _, _, _, w', rfl, rfl, led, hs', same ▸ ⟨like.left, like'.left, both⟩⟩

/-! ### The likeness -/

/-- A function that a grammar may use: one of the user, or something built in that holds no other functions
but those and no data with identities. -/
def Value.IsUsable (known : ParserId → Prop) (f : Value) : Prop :=
  match f.content with
  | .closure _ _ _ _ _ => True
  | .behaviour (.succeed v) => v.Spans known 0
  | .behaviour (.testChar g _) | .behaviour (.transform _ g) | .behaviour (.chain _ g)
  | .behaviour (.subEnvironment _ g) | .behaviour (.deferredLookup g _) => g.content.IsClosure
  | .behaviour (.debug _ _) => False
  | .behaviour _ => True
  | _ => False

/-- Two stores of this kind of which the second one has no tracer and no `debug` nodes. -/
structure Untraced (known : ParserId → Prop) (listens : Value → Prop) (bounds : Nat × Nat) (σ σ' : Store) :
    Prop extends Unedited known bounds σ σ' where
  heard : ∀ h ∈ σ.tracers, listens h
  silent : σ'.tracers = []
  parsers : ∀ p, Option.Rel (fun s s' : ParserState =>
    (∃ q h, s.behaviour.content = .behaviour (.debug q h) ∧ listens h ∧
      (σ'.parser? q).map (·.behaviour) = some s'.behaviour) ∨
        s.behaviour = s'.behaviour ∧ s.behaviour.IsUsable known) (σ.parser? p) (σ'.parser? p)

section Untraced

variable {known : ParserId → Prop} {listens : Value → Prop} {bounds : Nat × Nat} {σ σ' : Store} {v v' f : Value}

theorem Value.IsUsable.of_isClosure (h : f.content.IsClosure) : f.IsUsable known := by
  unfold Value.IsUsable
  split <;> simp_all [Value.IsClosure]

theorem Value.Spans.peer (h : v.Spans known 0) : Peer known bounds v v :=
  ⟨h.mono (Nat.zero_le _), h.mono (Nat.zero_le _), rfl⟩

/-- A function that may be used does the same on both sides. -/
theorem Value.IsUsable.callable (h : f.IsUsable known) :
    Callable (Peer known bounds) (fun g g' => g = g' ∧ g.IsUsable known) f f := by
  unfold Value.IsUsable at h
  split at h
  · next made => exact .closure (by rw [made]; trivial) (by rw [made]; trivial)
  · next v made => exact .behaviour made made (.succeed h.peer)
  · next g d made => exact .behaviour made made (.testChar ⟨rfl, .of_isClosure h⟩)
  · next p g made => exact .behaviour made made (.transform ⟨rfl, .of_isClosure h⟩)
  · next p g made => exact .behaviour made made (.chain ⟨rfl, .of_isClosure h⟩)
  · next p g made => exact .behaviour made made (.subEnvironment ⟨rfl, .of_isClosure h⟩)
  · next g name made => exact .behaviour made made (.deferredLookup ⟨rfl, .of_isClosure h⟩)
  · exact h.elim
  · next b _ _ _ _ _ _ _ made =>
    refine .behaviour made made (.bare ?_)
    cases b <;> first | trivial | (exfalso; simp_all)
  · exact h.elim

/-- What a function shows does not depend on the store. -/
theorem snapshotWith_function {later later' : List Nat → Option Nat → Value → Datum} {inside : List Nat}
    {identity : Option Nat} (h : v.IsClosure ∨ ∃ b, v = .behaviour b) :
    σ.snapshotWith later inside identity v = σ'.snapshotWith later' inside identity v := by
  rcases h with closure | ⟨b, rfl⟩
  · cases v <;> first | exact closure.elim | rfl
  · rfl

/-- It shows the same on both sides. -/
theorem Value.IsUsable.snapshot (h : f.IsUsable known) (unedited : σ.edits = []) (unedited' : σ'.edits = []) :
    σ.snapshot f = σ'.snapshot f := by
  have function : f.content.IsClosure ∨ ∃ b, f.content = .behaviour b := by
    unfold Value.IsUsable at h
    split at h <;> simp_all [Value.IsClosure]
  rw [snapshot_eq, snapshot_eq]
  cases f with
  | object id u =>
    simp only [Store.snapshotWith, unedited, unedited', List.contains_nil, List.lookup_nil]
    exact snapshotWith_function function
  | _ => exact snapshotWith_function function

/-- A value may get an identity for the handlers alone. -/
theorem Untraced.presented (hs : Untraced known listens bounds σ σ') (h : Peer known bounds v v') :
    ∃ u τ wider, v.share σ = .ok u τ ∧ (bounds.1 ≤ wider.1 ∧ bounds.2 ≤ wider.2) ∧
      Untraced known listens wider τ σ' ∧ Peer known wider u v' := by
  obtain ⟨le, like⟩ := hs.identified h
  refine ⟨_, _, ((v.identify σ.nextObject).2, bounds.2), rfl, ?_, ?_, like⟩
  · exact ⟨Nat.le_trans hs.left le, Nat.le_refl _⟩
  · exact { hs with left := Nat.le_refl _ }

theorem Untraced.error_presented (hs : Untraced known listens bounds σ σ')
    (h : ∃ c, v.content = .error c ∧ v'.content = .error c) :
    ∃ u τ wider, v.share σ = .ok u τ ∧ (bounds.1 ≤ wider.1 ∧ bounds.2 ≤ wider.2) ∧
      Untraced known listens wider τ σ' ∧ ∃ c, u.content = .error c ∧ v'.content = .error c := by
  obtain ⟨c, made, made'⟩ := h
  have given : (v.identify σ.nextObject).1.content = .error c ∧
      σ.nextObject ≤ (v.identify σ.nextObject).2 := by
    cases v with
    | object id u => exact ⟨made, Nat.le_refl _⟩
    | error c => exact ⟨made, Nat.le_succ _⟩
    | _ => cases made
  refine ⟨_, _, ((v.identify σ.nextObject).2, bounds.2), rfl, ?_, ?_, c, given.1, made'⟩
  · exact ⟨Nat.le_trans hs.left given.2, Nat.le_refl _⟩
  · exact { hs with left := Nat.le_refl _ }

/-- Another handler that listens may be added. -/
theorem Untraced.push {h : Value} (hs : Untraced known listens bounds σ σ') (heeded : listens h) :
    Untraced known listens bounds { σ with tracers := h :: σ.tracers } σ' := by
  refine { hs with heard := fun g member => ?_ }
  rcases List.mem_cons.mp member with rfl | member
  · exact heeded
  · exact hs.heard g member

end Untraced

/-- Evaluation up to identities, under trace handlers on the one side.  Functions of the user may be given and
may return the known parsers, which have the same names on both sides. -/
def Likeness.identities (known : ParserId → Prop) (listens : Value → Prop) : Likeness Value.share where
  toResemblance := .upToIdentities known (Nat × Nat)
    (fun bounds wider => bounds.1 ≤ wider.1 ∧ bounds.2 ≤ wider.2) id (Untraced known listens)
    (fun _ => ⟨Nat.le_refl _, Nat.le_refl _⟩)
    (fun first second => ⟨Nat.le_trans first.1 second.1, Nat.le_trans first.2 second.2⟩) id
    Untraced.toUnedited fun hs le le' => ⟨_, ⟨Nat.le_trans hs.left le, Nat.le_trans hs.right le'⟩, rfl,
      { hs with left := Nat.le_refl _, right := Nat.le_refl _ }⟩
  functions _ f f' := f = f' ∧ f.IsUsable known
  listens := listens
  functions_later _ h := h
  parser := Peer.parser
  named h := by rw [h.1]
  called hs h := by
    rw [← h.1, h.2.snapshot hs.unedited hs.unedited']
  callable h := by
    rw [← h.1]
    exact h.2.callable
  presented hs h := hs.presented h
  error_presented hs h := hs.error_presented h
  push hs heeded := hs.push heeded
  pop hs := { hs with heard := fun h member => hs.heard h (List.mem_of_mem_drop member) }
  record _ hs := { hs with }
  heard hs := hs.heard
  untraced hs := hs.silent
  parsers p hs := hs.parsers p

end Rebind
