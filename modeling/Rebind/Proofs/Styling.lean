import Mathlib.Data.List.Basic
import Rebind.Json.Basic
import Rebind.Text.Ansi
/-!
# Texts without styling

A styling sequence starts with the escape character, so a text without that character stays as it is when
styling is removed.  The text of a JSON value is such a text: it holds no control character at all, since
one in a text is written as an escape of JSON.
-/
namespace Rebind

/-- Characters among which there is no escape character. -/
def Unstyled (cs : List Char) : Prop := Ansi.escape ∉ cs

instance (cs : List Char) : Decidable (Unstyled cs) := inferInstanceAs (Decidable (Ansi.escape ∉ cs))

/-- A sequence at the start is removed. -/
theorem stripChars_sequence {cs rest : List Char} (found : Ansi.afterSequence? cs = some rest) :
    Ansi.stripChars cs = Ansi.stripChars rest := by
  conv_lhs => unfold Ansi.stripChars
  split
  · next after known =>
    obtain rfl := Option.some.inj (known.symm.trans found)
    rfl
  · next none => cases none.symm.trans found

/-- A character that starts no sequence stays. -/
theorem stripChars_other {c : Char} {rest : List Char} (none : Ansi.afterSequence? (c :: rest) = none) :
    Ansi.stripChars (c :: rest) = c :: Ansi.stripChars rest := by
  conv_lhs => unfold Ansi.stripChars
  split
  · next found => cases none.symm.trans found
  · rfl

/-- Only the escape character starts a sequence. -/
theorem afterSequence?_unescaped {c : Char} (h : c ≠ Ansi.escape) (rest : List Char) :
    Ansi.afterSequence? (c :: rest) = none := by
  unfold Ansi.afterSequence?
  split
  · next same => exact absurd (List.cons.inj same).1 h
  · rfl

theorem afterParameters?_append {parameters : List Char} (all : parameters.all Ansi.isParameter = true)
    (rest : List Char) : Ansi.afterParameters? (parameters ++ rest) = Ansi.afterParameters? rest := by
  induction parameters with
  | nil => rfl
  | cons c parameters ih =>
    obtain ⟨first, later⟩ := Bool.and_eq_true_iff.mp (List.all_cons.symm.trans all)
    rw [List.cons_append, Ansi.afterParameters?, if_pos first]
    exact ih later

/-- A styling sequence is a sequence, whatever follows it. -/
theorem afterSequence?_code {parameters : String} (all : parameters.toList.all Ansi.isParameter = true)
    (rest : List Char) : Ansi.afterSequence? ((Ansi.code parameters).toList ++ rest) = some rest := by
  have chars : (Ansi.code parameters).toList ++ rest =
      '\x1b' :: '[' :: (parameters.toList ++ 'm' :: rest) := by
    simp [Ansi.code, Ansi.escape]
  rw [chars]
  exact afterParameters?_append all ('m' :: rest)

/-- A character that starts no sequence stays. -/
theorem stripChars_cons {c : Char} (h : c ≠ Ansi.escape) (rest : List Char) :
    Ansi.stripChars (c :: rest) = c :: Ansi.stripChars rest :=
  stripChars_other (afterSequence?_unescaped h rest)

theorem stripChars_nil : Ansi.stripChars [] = [] := by
  simp [Ansi.stripChars, Ansi.afterSequence?]

/-- Without an escape character there is no sequence to remove. -/
theorem stripChars_unstyled {cs : List Char} (h : Unstyled cs) (rest : List Char) :
    Ansi.stripChars (cs ++ rest) = cs ++ Ansi.stripChars rest := by
  induction cs with
  | nil => rfl
  | cons c cs ih =>
    have first : c ≠ Ansi.escape := fun same => h (same ▸ List.mem_cons_self)
    rw [List.cons_append, stripChars_cons first, ih fun later => h (List.mem_cons_of_mem _ later)]
    rfl

theorem strip_unstyled {s : String} (h : Unstyled s.toList) : Ansi.strip s = s := by
  have all := stripChars_unstyled h []
  rw [List.append_nil, stripChars_nil, List.append_nil] at all
  rw [Ansi.strip, all, String.ofList_toList]

/-! ### Texts without control characters -/

/-- Characters among which there is no control character. -/
def Printable (cs : List Char) : Prop := ∀ c ∈ cs, 0x20 ≤ c.toNat

instance (cs : List Char) : Decidable (Printable cs) :=
  List.decidableBAll (fun c : Char => 0x20 ≤ c.toNat) cs

namespace Printable

variable {cs ds : List Char} {c : Char}

theorem nil : Printable [] := fun _ member => nomatch member

theorem cons (h : 0x20 ≤ c.toNat) (rest : Printable cs) : Printable (c :: cs) := by
  intro d member
  rcases List.mem_cons.mp member with rfl | later
  · exact h
  · exact rest d later

/-- Printable texts may be joined. -/
theorem append (first : Printable cs) (second : Printable ds) : Printable (cs ++ ds) := by
  intro d member
  exact (List.mem_append.mp member).elim (first d) (second d)

theorem flatMap {α : Type} {xs : List α} {f : α → List Char} (h : ∀ x ∈ xs, Printable (f x)) :
    Printable (xs.flatMap f) := by
  intro d member
  obtain ⟨x, listed, within⟩ := List.mem_flatMap.mp member
  exact h x listed d within

theorem subset (h : Printable ds) (part : cs ⊆ ds) : Printable cs := fun d member => h d (part member)

theorem replicate (n : Nat) (h : 0x20 ≤ c.toNat) : Printable (List.replicate n c) :=
  fun _ member => List.eq_of_mem_replicate member ▸ h

theorem intercalate (h : Printable cs) (parts : List (List Char)) (all : ∀ part ∈ parts, Printable part) :
    Printable (cs.intercalate parts) := by
  induction parts with
  | nil => exact nil
  | cons part rest ih =>
    cases rest with
    | nil => simpa using all part
    | cons next rest =>
      rw [List.intercalate_cons_cons]
      have onward := ih fun p listed => all p (List.mem_cons_of_mem _ listed)
      exact ((all part List.mem_cons_self).append h).append onward

/-- No control character is among them. -/
theorem not_mem (h : Printable cs) (control : c.toNat < 0x20) : c ∉ cs :=
  fun member => Nat.not_lt.mpr (h c member) control

theorem unstyled (h : Printable cs) : Unstyled cs := h.not_mem (by decide)

end Printable

/-! ### Numbers -/

theorem toDigits_printable (n : Nat) : Printable (Nat.toDigits 10 n) := by
  intro c member
  have digit := Nat.isDigit_of_mem_toDigits (by decide) (by decide) member
  simp only [Char.isDigit, Bool.and_eq_true, decide_eq_true_eq] at digit
  have least : '0'.toNat ≤ c.toNat := digit.1
  exact Nat.le_trans (by decide) least

theorem repr_printable (n : Nat) : Printable n.repr.toList := by
  rw [Nat.repr_eq_ofList_toDigits, String.toList_ofList]
  exact toDigits_printable n

theorem toString_printable (n : Int) : Printable (toString n).toList := by
  cases n with
  | ofNat n => exact repr_printable n
  | negSucc n =>
    have minus : (toString (Int.negSucc n)).toList = '-' :: n.succ.repr.toList := by
      have text : toString (Int.negSucc n) = "-" ++ n.succ.repr := rfl
      rw [text, String.toList_append]
      rfl
    rw [minus]
    exact (repr_printable _).cons (by decide)

theorem digits_printable (width n : Nat) : Printable (Hex.digits width n) := by
  have digit : ∀ k, 0x20 ≤ (Hex.digit k).toNat := by
    intro k
    have all : ∀ k < 16, 0x20 ≤ ("0123456789abcdef".toList.getD k '0').toNat := by decide
    exact all (k % 16) (Nat.mod_lt k (by decide))
  induction width generalizing n with
  | zero => exact .nil
  | succ width ih => exact (ih (n / 16)).append (Printable.nil.cons (digit n))

/-- A number is written in printable characters. -/
theorem layout_printable {ds : List Char} (h : Printable ds) (point : Int) :
    Printable (Shortest.layout ds point) := by
  have zeros : ∀ n, Printable (List.replicate n '0') := fun n => .replicate n (by decide)
  have front := fun n => h.subset (List.take_subset n ds)
  have back := fun n => h.subset (List.drop_subset n ds)
  unfold Shortest.layout
  dsimp only
  split
  · split
    · exact (((zeros _).cons (by decide)).cons (by decide)).append h
    · split
      · exact (h.append (zeros _)).append ((Printable.nil.cons (by decide)).cons (by decide))
      · exact (front _).append ((back _).cons (by decide))
  · refine Printable.append ?_ (Printable.cons (by decide) (Printable.cons (by split <;> decide) ?_))
    · cases ds with
      | nil => exact .nil
      | cons d rest =>
        have first : 0x20 ≤ d.toNat := h d List.mem_cons_self
        have later : Printable rest := fun c member => h c (List.mem_cons_of_mem _ member)
        dsimp only
        split
        · exact Printable.nil.cons first
        · exact (later.cons (by decide)).cons first
    · split
      · exact (toDigits_printable _).cons (by decide)
      · exact toDigits_printable _

theorem digitsOf_printable (bits : UInt64) : Printable (Shortest.digitsOf bits).1 := by
  unfold Shortest.digitsOf
  dsimp only
  generalize Shortest.Interval.shortest _ _ _ _ = found
  refine (toDigits_printable found.1).subset fun c member => ?_
  exact List.mem_reverse.mp ((List.dropWhile_suffix _).subset (List.mem_reverse.mp member))

theorem finiteText_printable (x : Float) : Printable (Shortest.finiteText x).toList := by
  unfold Shortest.finiteText
  rw [String.toList_ofList]
  have body : Printable (if x.toBits.toNat % Shortest.twoTo 63 = 0 then ['0', '.', '0'] else
      Shortest.layout (Shortest.digitsOf (UInt64.ofNat (x.toBits.toNat % Shortest.twoTo 63))).1
        (Shortest.digitsOf (UInt64.ofNat (x.toBits.toNat % Shortest.twoTo 63))).2) := by
    split
    · decide
    · exact layout_printable (digitsOf_printable _) _
  split
  · exact body.cons (by decide)
  · exact body

namespace Json

theorem floatText_printable (x : Floating) : Printable (floatText x).toList := by
  cases x with
  | finite x => exact finiteText_printable x
  | infinite negative => cases negative <;> decide
  | undefined => decide

theorem escapeChar_printable (c : Char) : Printable (escapeChar c) := by
  unfold escapeChar
  iterate 7
    split
    · decide
  split
  · exact ((digits_printable 4 c.toNat).cons (by decide)).cons (by decide)
  · next visible => exact Printable.nil.cons (Nat.not_lt.mp visible)

theorem quoted_printable (s : String) : Printable (quoted s).toList := by
  rw [quoted, String.toList_ofList]
  refine Printable.cons (by decide) (Printable.append ?_ (by decide))
  exact .flatMap fun c _ => escapeChar_printable c

mutual

/-- The text of a value holds no control character, whatever is in the texts of the value. -/
theorem render_printable {s : Separators} (item : Printable s.item.toList) (name : Printable s.name.toList) :
    ∀ j : Json, Printable (j.render s).toList
  | .null => show Printable "null".toList by decide
  | .bool true => show Printable "true".toList by decide
  | .bool false => show Printable "false".toList by decide
  | .int n => toString_printable n
  | .float x => floatText_printable x
  | .str t => quoted_printable t
  | .array items => by
    rw [render, String.toList_append, String.toList_append, String.toList_intercalate]
    have inside := item.intercalate _ (renderAll_printable item name items)
    exact Printable.append (Printable.append (by decide) inside) (by decide)
  | .object fields => by
    rw [render, String.toList_append, String.toList_append, String.toList_intercalate]
    have inside := item.intercalate _ (renderFields_printable item name fields)
    exact Printable.append (Printable.append (by decide) inside) (by decide)

/-- So is JSON, by induction on it. -/
theorem renderAll_printable {s : Separators} (item : Printable s.item.toList) (name : Printable s.name.toList) :
    ∀ items : List Json, ∀ part ∈ (renderAll s items).map String.toList, Printable part
  | [], _, member => nomatch member
  | v :: rest, part, member => by
    rcases List.mem_cons.mp member with rfl | later
    · exact render_printable item name v
    · exact renderAll_printable item name rest part later

theorem renderFields_printable {s : Separators} (item : Printable s.item.toList)
    (name : Printable s.name.toList) :
    ∀ fields : List (String × Json), ∀ part ∈ (renderFields s fields).map String.toList, Printable part
  | [], _, member => nomatch member
  | (n, v) :: rest, part, member => by
    rcases List.mem_cons.mp member with rfl | later
    · rw [String.toList_append, String.toList_append]
      exact ((quoted_printable n).append name).append (render_printable item name v)
    · exact renderFields_printable item name rest part later

end

/-- Removing styling leaves the text of a JSON value as it is. -/
theorem strip_render (j : Json) : Ansi.strip (j.render spaced) = j.render spaced :=
  strip_unstyled (render_printable (by decide) (by decide) j).unstyled

end Json

end Rebind
