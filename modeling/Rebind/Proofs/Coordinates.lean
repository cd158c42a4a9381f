import Rebind.Proofs.Caret
/-!
# Lines and columns as coordinates

An offset of a text and its line and column name the same place.  The lines above take their characters
and one newline each, the column counts the characters before the place in its own line, and the place
just past a line has a column too.  So the offset can be computed back from the line and the column, a
later offset is on a later line or in a later column of the same line, and every line and column that a
text has is the position of one of its offsets.
-/
namespace Rebind

namespace Text

/-- Where the line after the first `n` starts: each of them takes its characters and one newline. -/
def startAfter (lines : List String) (n : Nat) : Nat :=
  ((lines.take n).map fun line => line.length + 1).sum

/-- The offset that a line and a column name, both counted from one. -/
def offsetAt (lines : List String) (place : Nat × Nat) : Nat :=
  startAfter lines (place.1 - 1) + (place.2 - 1)

/-- A line and a column of a text in these lines.  A line has one column more than characters. -/
structure Within (lines : List String) (place : Nat × Nat) : Prop where
  line_pos : 1 ≤ place.1
  line_le : place.1 ≤ lines.length
  column_pos : 1 ≤ place.2
  column_le : place.2 ≤ (lines[place.1 - 1]?.getD "").length + 1

instance (lines : List String) (place : Nat × Nat) : Decidable (Within lines place) :=
  decidable_of_iff (1 ≤ place.1 ∧ place.1 ≤ lines.length ∧ 1 ≤ place.2 ∧
      place.2 ≤ (lines[place.1 - 1]?.getD "").length + 1)
    ⟨fun ⟨a, b, c, d⟩ => ⟨a, b, c, d⟩, fun ⟨a, b, c, d⟩ => ⟨a, b, c, d⟩⟩

/-- An earlier line, or the same line and an earlier column. -/
def Precedes : Nat × Nat → Nat × Nat → Prop := Prod.Lex (· < ·) (· < ·)

/-! ### Where lines start -/

/-- A line starts after the one before it and its newline. -/
theorem startAfter_succ {lines : List String} {n : Nat} (h : n < lines.length) :
    startAfter lines (n + 1) = startAfter lines n + ((lines[n]?.getD "").length + 1) := by
  unfold startAfter
  rw [List.take_add_one, List.getElem?_eq_getElem h, List.map_append, List.sum_append]
  simp

/-- Later lines start later. -/
theorem startAfter_mono (lines : List String) {m n : Nat} (h : m ≤ n) :
    startAfter lines m ≤ startAfter lines n := by
  obtain ⟨k, rfl⟩ := Nat.exists_eq_add_of_le h
  unfold startAfter
  rw [List.take_add, List.map_append, List.sum_append]
  exact Nat.le_add_right _ _

/-- The lines and a newline after each of them are the text and one newline more. -/
theorem sum_splitLines (cs : List Char) :
    ((splitLines cs).map fun line => line.length + 1).sum = cs.length + 1 := by
  induction cs with
  | nil => rfl
  | cons c rest ih =>
    by_cases newline : c = '\n'
    · simp [splitLines_cons, newline, ih]
      omega
    · cases split : splitLines rest with
      | nil => exact absurd split (splitLines_ne_nil rest)
      | cons line lines =>
        rw [split] at ih
        simp [splitLines_cons, newline, split] at ih ⊢
        omega

theorem startAfter_ofList (pieces : List (List Char)) :
    startAfter (pieces.map String.ofList) pieces.length = (pieces.map fun line => line.length + 1).sum := by
  have all : (pieces.map String.ofList).take pieces.length = pieces.map String.ofList :=
    List.take_of_length_le (Nat.le_of_eq (List.length_map _))
  rw [startAfter, all, List.map_map]
  simp [Function.comp_def]

/-- The lines of a text take all of it and one newline more than there is. -/
theorem startAfter_all (s : String) : startAfter (lines s) (lines s).length = s.toList.length + 1 := by
  rw [← sum_splitLines, ← startAfter_ofList, lines, List.length_map]

/-! ### From positions to offsets -/

section Offsets

variable {lines : List String} {place other : Nat × Nat}

/-- A place comes before the start of the line below its own. -/
theorem Within.offsetAt_lt (h : Within lines place) : offsetAt lines place < startAfter lines place.1 := by
  have line := h.line_pos
  have length := h.line_le
  have column := h.column_le
  have next : startAfter lines (place.1 - 1 + 1) = _ := startAfter_succ (by omega)
  rw [Nat.sub_add_cancel line] at next
  unfold offsetAt
  omega

/-- A place that precedes another has the smaller offset. -/
theorem Within.offsetAt_lt_of_precedes (h : Within lines place) (before : Precedes place other) :
    offsetAt lines place < offsetAt lines other := by
  rcases Prod.lex_def.mp before with above | ⟨same, left⟩
  · have start : startAfter lines place.1 ≤ startAfter lines (other.1 - 1) := startAfter_mono lines (by omega)
    have below := h.offsetAt_lt
    unfold offsetAt at below ⊢
    omega
  · have column := h.column_pos
    unfold offsetAt
    rw [same]
    omega

/-- Of two places, one comes before the other unless they are the same. -/
theorem precedes_trichotomy (place other : Nat × Nat) :
    Precedes place other ∨ place = other ∨ Precedes other place := by
  simp only [Precedes, Prod.lex_def, Prod.ext_iff]
  omega

/-- The order of places is the order of their offsets. -/
theorem Within.precedes_iff (h : Within lines place) (h' : Within lines other) :
    offsetAt lines place < offsetAt lines other ↔ Precedes place other := by
  refine ⟨fun less => ?_, h.offsetAt_lt_of_precedes⟩
  rcases precedes_trichotomy place other with before | same | after
  · exact before
  · exact absurd less (by rw [same]; exact Nat.lt_irrefl _)
  · exact absurd less (Nat.lt_asymm (h'.offsetAt_lt_of_precedes after))

/-- Two places with one offset are the same. -/
theorem Within.eq_of_offsetAt (h : Within lines place) (h' : Within lines other)
    (same : offsetAt lines place = offsetAt lines other) : place = other := by
  rcases precedes_trichotomy place other with before | equal | after
  · exact absurd same (Nat.ne_of_lt (h.offsetAt_lt_of_precedes before))
  · exact equal
  · exact absurd same.symm (Nat.ne_of_lt (h'.offsetAt_lt_of_precedes after))

/-- A line and a column of a text name an offset of it. -/
theorem Within.offsetAt_le {s : String} (h : Within (Text.lines s) place) :
    offsetAt (Text.lines s) place ≤ s.toList.length := by
  have below := h.offsetAt_lt
  have upto : startAfter (Text.lines s) place.1 ≤ startAfter (Text.lines s) (Text.lines s).length :=
    startAfter_mono _ h.line_le
  rw [startAfter_all] at upto
  omega

end Offsets

/-! ### From offsets to positions -/

namespace Place

variable {s : String} {offset : Nat} (p : Place s.toList offset)

/-- The lines of a text are those above a place, its own line, and those below. -/
theorem lines_eq : ∃ above below : List String, lines s = above ++ String.ofList p.line :: below ∧
    above.length + 1 = p.number ∧ startAfter above above.length = p.before.length := by
  obtain ⟨above, count, split⟩ := p.splitLines_before
  obtain ⟨below, first⟩ := p.splitLines_line
  refine ⟨above.map String.ofList, below.map String.ofList, ?_, ?_, ?_⟩
  · unfold lines
    conv => lhs; rw [p.whole]
    rw [split, first, List.map_append, List.map_cons]
  · rw [List.length_map, count, number]
  · have total := sum_splitLines (p.before ++ [])
    rw [split, splitLines_nil, List.append_nil, List.map_append, List.sum_append, ← startAfter_ofList] at total
    rw [List.length_map]
    exact Nat.add_right_cancel total

theorem within : Within (lines s) (p.number, p.column) := by
  obtain ⟨above, below, whole, number, -⟩ := p.lines_eq
  have indent := p.indent_le
  have length : (lines s).length = above.length + (below.length + 1) := by
    rw [whole, List.length_append, List.length_cons]
  have index : p.number - 1 = above.length := by omega
  refine ⟨by omega, by omega, Nat.le_add_left 1 _, ?_⟩
  simp only [index, whole, column]
  simpa using indent

theorem offsetAt_position : offsetAt (lines s) (p.number, p.column) = offset := by
  obtain ⟨above, below, whole, number, start⟩ := p.lines_eq
  have index : p.number - 1 = above.length := by omega
  have inside := p.inside
  have front : startAfter (lines s) above.length = startAfter above above.length := by
    unfold startAfter
    rw [whole, List.take_left, List.take_length]
  unfold offsetAt column indent
  simp only [index, front, start]
  omega

/-- What is left of the line of a place is the text up to the next newline. -/
theorem drop_line : p.line.drop p.indent = (s.toList.drop offset).takeWhile (· ≠ '\n') := by
  have rest : s.toList.drop offset = p.line.drop p.indent ++ p.after := by
    conv => lhs; rw [p.whole]
    rw [List.drop_append, List.drop_eq_nil_of_le p.inside, List.nil_append]
    exact List.drop_append_of_le_length p.indent_le
  have unbroken : ∀ c ∈ p.line.drop p.indent, decide (c ≠ '\n') = true := by
    intro c member
    have other : c ≠ '\n' := fun same => p.unbroken (same ▸ List.mem_of_mem_drop member)
    exact decide_eq_true other
  rw [rest, List.takeWhile_append_of_pos unbroken]
  rcases p.ends with none | ⟨more, newline⟩
  · simp [none]
  · simp [newline]

end Place

end Text

open Text

theorem lineColumnOf_str (s : String) (offset : Int) : lineColumnOf (.str s) (.int offset) =
    pure (.lineColumn (.int offset) (.int (position s.toList (some offset)).1)
      (.int (position s.toList (some offset)).2)) := rfl

/-- A line by its number, for the numbers that there are. -/
theorem lineAtOf_nat (s : String) {n : Nat} (counted : 1 ≤ n) (listed : n ≤ (lines s).length) :
    lineAtOf s (.int n) = pure (.str (lineAt (lines s) n)) := by
  have first : (1 : Int) ≤ n := by omega
  have last : (n : Int) ≤ (lines s).length := by omega
  have offset : offsetOf (.int n) = pure (n : Int) := rfl
  unfold lineAtOf
  simp only [atMost_int, offset, pure_bind, first, last, decide_true, if_true]

/-- Lines and columns are coordinates of a text: every offset has a line and a column that the text has,
the offset and the rest of the line can be read off them, offsets and positions are ordered alike, and
every line and column that the text has is a position. -/
theorem position_faithful (s : String) :
    (∀ name, (newSource (.str s) name >>= fun source => attributeOf source "lines") =
      pure (.list ((lines s).map .str))) ∧
    (∀ offset ≤ s.toList.length,
      let place := position s.toList (some (offset : Int))
      lineColumnOf (.str s) (.int offset) =
        pure (.lineColumn (.int offset) (.int place.1) (.int place.2)) ∧
      Within (lines s) place ∧ offsetAt (lines s) place = offset ∧
      ∃ line, lineAtOf s (.int place.1) = pure (.str line) ∧
        line.toList.drop (place.2 - 1) = (s.toList.drop offset).takeWhile (· ≠ '\n')) ∧
    (∀ first ≤ s.toList.length, ∀ second ≤ s.toList.length, first < second ↔
      Precedes (position s.toList (some (first : Int))) (position s.toList (some (second : Int)))) ∧
    ∀ place, Within (lines s) place →
      ∃ offset ≤ s.toList.length, position s.toList (some (offset : Int)) = place := by
  refine ⟨fun _ => rfl, fun offset inside => ?_, fun first h second h' => ?_, fun place within => ?_⟩
  · obtain ⟨p⟩ := Place.exists_place inside
    have read := lineColumnOf_str s offset
    dsimp only
    rw [p.position] at read ⊢
    refine ⟨read, p.within, p.offsetAt_position, String.ofList p.line, ?_, ?_⟩
    · rw [lineAtOf_nat s p.within.line_pos p.within.line_le]
      exact congrArg (fun line => (pure (.str line) : Eval Value)) p.lineAt
    · rw [String.toList_ofList]
      exact p.drop_line
  · obtain ⟨p⟩ := Place.exists_place h
    obtain ⟨q⟩ := Place.exists_place h'
    rw [p.position, q.position, ← p.within.precedes_iff q.within, p.offsetAt_position, q.offsetAt_position]
  · obtain ⟨p⟩ := Place.exists_place within.offsetAt_le
    refine ⟨offsetAt (lines s) place, within.offsetAt_le, ?_⟩
    rw [p.position]
    exact p.within.eq_of_offsetAt within p.offsetAt_position

/-- A text of three lines, the second of them empty: the offset after it, the two around the first newline,
and the place just past the last line. -/
theorem position_faithful_threeLines :
    4 ≤ "ab\n\ncd".toList.length ∧
    offsetAt (lines "ab\n\ncd") (position "ab\n\ncd".toList (some (4 : Nat))) = 4 ∧
    Precedes (position "ab\n\ncd".toList (some (2 : Nat))) (position "ab\n\ncd".toList (some (3 : Nat))) ∧
    Within (lines "ab\n\ncd") (3, 3) ∧
    ∃ offset ≤ "ab\n\ncd".toList.length, position "ab\n\ncd".toList (some (offset : Int)) = (3, 3) := by
  obtain ⟨-, coordinates, ordered, onto⟩ := position_faithful "ab\n\ncd"
  have within : Within (lines "ab\n\ncd") (3, 3) := by decide
  exact ⟨by decide, (coordinates 4 (by decide)).2.2.1,
    (ordered 2 (by decide) 3 (by decide)).mp (by decide), within, onto (3, 3) within⟩

end Rebind
