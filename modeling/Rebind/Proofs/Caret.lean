import Mathlib.Data.List.Induction
import Mathlib.Data.Nat.Digits.Defs
import Rebind.Proofs.Attempt
/-!
# The caret under the place

A failure is shown with the line of the source that holds its place and a caret under it.  The gutter
of the source line is as wide as the number of the line needs, from four digits up, while the gutter of
the caret always has room for four: the caret is under its character as long as lines have four digits
at most, and from line 10000 on it stands to the left of it by the digits there are more.
-/
namespace Rebind

/-! ### The line around a place -/

namespace Text

/-- The line that holds an offset, between what comes before it and what comes after it.  An offset at
a newline, or at the end of the text, belongs to the line that ends there. -/
structure Place (text : List Char) (offset : Nat) where
  before : List Char
  line : List Char
  after : List Char
  whole : text = before ++ (line ++ after)
  starts : before = [] ∨ ∃ front, before = front ++ ['\n']
  unbroken : '\n' ∉ line
  ends : after = [] ∨ ∃ rest, after = '\n' :: rest
  inside : before.length ≤ offset
  upto : offset ≤ before.length + line.length

namespace Place

variable {text : List Char} {offset : Nat}

def number (p : Place text offset) : Nat := p.before.count '\n' + 1

/-- How many characters of the line come before the place. -/
def indent (p : Place text offset) : Nat := offset - p.before.length

def column (p : Place text offset) : Nat := p.indent + 1

theorem indent_le (p : Place text offset) : p.indent ≤ p.line.length := by
  have := p.upto
  unfold indent
  omega

/-- What is left of a text after its last newline. -/
theorem exists_lastLine (cs : List Char) :
    ∃ front line, cs = front ++ line ∧ '\n' ∉ line ∧ (front = [] ∨ ∃ more, front = more ++ ['\n']) := by
  induction cs using List.reverseRecOn with
  | nil => exact ⟨[], [], rfl, by simp, .inl rfl⟩
  | append_singleton cs c ih =>
    by_cases newline : c = '\n'
    · exact ⟨cs ++ [c], [], by simp, by simp, .inr ⟨cs, by rw [newline]⟩⟩
    · obtain ⟨front, line, split, unbroken, starts⟩ := ih
      refine ⟨front, line ++ [c], by simp [split], ?_, starts⟩
      simpa [unbroken] using fun same : '\n' = c => newline same.symm

/-- What comes before the first newline of a text. -/
theorem exists_firstLine (cs : List Char) :
    ∃ line rest, cs = line ++ rest ∧ '\n' ∉ line ∧ (rest = [] ∨ ∃ more, rest = '\n' :: more) := by
  induction cs with
  | nil => exact ⟨[], [], rfl, by simp, .inl rfl⟩
  | cons c cs ih =>
    by_cases newline : c = '\n'
    · exact ⟨[], c :: cs, rfl, by simp, .inr ⟨cs, by rw [newline]⟩⟩
    · obtain ⟨line, rest, split, unbroken, ends⟩ := ih
      refine ⟨c :: line, rest, by simp [split], ?_, ends⟩
      simpa [unbroken] using fun same : '\n' = c => newline same.symm

/-- Every offset of a text is on one of its lines. -/
theorem exists_place (h : offset ≤ text.length) : Nonempty (Place text offset) := by
  obtain ⟨before, left, taken, unbrokenLeft, starts⟩ := exists_lastLine (text.take offset)
  obtain ⟨right, after, dropped, unbrokenRight, ends⟩ := exists_firstLine (text.drop offset)
  have length : before.length + left.length = offset := by
    rw [← List.length_append, ← taken, List.length_take]
    omega
  have whole : text = before ++ (left ++ right ++ after) := by
    rw [List.append_assoc, ← dropped, ← List.append_assoc, ← taken, List.take_append_drop]
  exact ⟨⟨before, left ++ right, after, whole, starts, by simp [unbrokenLeft, unbrokenRight], ends,
    by omega, by simp only [List.length_append]; omega⟩⟩

/-- The character at a place is the one at its indent in the line; where the line ends there it is a
newline or there is none. -/
theorem line_indent (p : Place text offset) :
    p.line[p.indent]? = text[offset]?.filter (· ≠ '\n') := by
  have shifted : text[offset]? = (p.line ++ p.after)[p.indent]? := by
    conv => lhs; rw [p.whole]
    exact List.getElem?_append_right p.inside
  rw [shifted]
  rcases Nat.lt_or_ge p.indent p.line.length with before | atEnd
  · have other : p.line[p.indent] ≠ '\n' := fun same =>
      p.unbroken (same ▸ List.getElem_mem before)
    rw [List.getElem?_append_left before, List.getElem?_eq_getElem before, Option.filter_some]
    simp [other]
  · have last : p.indent = p.line.length := Nat.le_antisymm p.indent_le atEnd
    rcases p.ends with none | ⟨rest, newline⟩
    · simp [last, none]
    · rw [last, newline, List.getElem?_append_right (Nat.le_refl _), Nat.sub_self]
      simp [Option.filter_some]

end Place

/-! ### Splitting into lines -/

/-- A text without newlines is one line. -/
theorem splitLines_unbroken {cs : List Char} (h : '\n' ∉ cs) : splitLines cs = [cs] := pieces_unbroken h

/-- A newline separates the lines before it from those after it. -/
theorem splitLines_newline (front rest : List Char) :
    splitLines (front ++ '\n' :: rest) = splitLines front ++ splitLines rest := pieces_append '\n' front rest

/-- There is one line more than there are newlines. -/
theorem length_splitLines (cs : List Char) : (splitLines cs).length = cs.count '\n' + 1 := by
  induction cs with
  | nil => rfl
  | cons c rest ih =>
    by_cases newline : c = '\n'
    · simp [splitLines_cons, newline, ih]
    · cases split : splitLines rest with
      | nil => exact absurd split (splitLines_ne_nil rest)
      | cons line lines =>
        rw [split] at ih
        simpa [splitLines_cons, newline, split] using ih

namespace Place

variable {text : List Char} {offset : Nat}

/-- The lines above the place stay as they are whatever follows them. -/
theorem splitLines_before (p : Place text offset) : ∃ above : List (List Char),
    above.length = p.before.count '\n' ∧ ∀ rest, splitLines (p.before ++ rest) = above ++ splitLines rest := by
  rcases p.starts with none | ⟨front, newline⟩
  · exact ⟨[], by simp [none], by simp [none]⟩
  · refine ⟨splitLines front, by simp [newline, length_splitLines], fun rest => ?_⟩
    rw [newline, List.append_assoc, List.singleton_append, splitLines_newline]

/-- The line of a place is the first of what comes from it on. -/
theorem splitLines_line (p : Place text offset) :
    ∃ below, splitLines (p.line ++ p.after) = p.line :: below := by
  rcases p.ends with none | ⟨rest, newline⟩
  · exact ⟨[], by simp [none, splitLines_unbroken p.unbroken]⟩
  · exact ⟨splitLines rest, by rw [newline, splitLines_newline, splitLines_unbroken p.unbroken]; rfl⟩

/-- What comes before a place: the lines before its own and the beginning of its own. -/
theorem take_offset (p : Place text offset) : text.take offset = p.before ++ p.line.take p.indent := by
  conv => lhs; rw [p.whole]
  rw [List.take_append, List.take_of_length_le p.inside]
  exact congrArg _ (List.take_append_of_le_length p.indent_le)

/-- The line and the column that the program computes are those of the place. -/
theorem position (p : Place text offset) :
    Text.position text (some (offset : Int)) = (p.number, p.column) := by
  have within : offset ≤ text.length := by
    have length := congrArg List.length p.whole
    have := p.upto
    simp only [List.length_append] at length
    omega
  have upto : Slice.between text none (some (offset : Int)) = p.before ++ p.line.take p.indent := by
    simp [Slice.between, within, p.take_offset]
  have unbroken : '\n' ∉ p.line.take p.indent := fun member =>
    p.unbroken (List.mem_of_mem_take member)
  obtain ⟨above, count, split⟩ := p.splitLines_before
  simp [Text.position, upto, split, splitLines_unbroken unbroken, count, number, column, p.indent_le]

/-- The line with the number of the place is its own. -/
theorem lineAt (p : Place text offset) :
    Text.lineAt ((splitLines text).map String.ofList) p.number = String.ofList p.line := by
  obtain ⟨above, count, split⟩ := p.splitLines_before
  obtain ⟨below, first⟩ := p.splitLines_line
  have lines : splitLines text = above ++ p.line :: below := by
    conv => lhs; rw [p.whole]
    rw [split, first]
  have index : ((p.number : Int) - 1).toNat = above.length := by simp [number, count]
  have counted : (1 : Int) ≤ p.number := by
    unfold number
    omega
  rw [Text.lineAt, if_pos counted, index, lines]
  simp

end Place

end Text

open Attempt

/-! ### Diagnostics of failures on texts -/

/-- What a text holds at an index, as a message shows it. -/
def gotAt (text : List Char) (index context : Int) : String :=
  if (text.length : Int) ≤ index then "end of input"
  else
    let snippet := String.ofList (Slice.between text (some index) (some (index + context)))
    "'" ++ (if context < text.length - index then snippet ++ "..." else snippet) ++ "'"

theorem gotText_str (s : String) (index context : Int) :
    gotText (.str s) (.int index) (.int context) = pure (gotAt s.toList index context) := by
  have taken : sliceOf (.str s) (.int index) (.int (index + context)) =
      pure (.ofChars (Slice.between s.toList (some index) (some (index + context)))) := rfl
  have left : subtractFrom (.int s.toList.length) (.int index) = pure (.int (s.toList.length - index)) :=
    rfl
  have dots (t : String) : withDots (.str t) = pure (.str (t ++ "...")) := rfl
  unfold gotText gotAt
  simp only [lengthOf_str, atMost_int, addTo_int, lessThan_int, taken, left, pure_bind]
  by_cases past : (s.toList.length : Int) ≤ index
  · simp [past]
  · by_cases more : context < s.toList.length - index
    · simp [past, more, Value.ofChars, dots, textOf_str]
    · simp [past, more, Value.ofChars, textOf_str]

theorem placeOf_str (s : String) (index : Int) :
    placeOf (.str s) (.int index) = pure (Text.position s.toList (some index)) := rfl

def failureExcerpt (text name : String) (index : Int) (expected : List String) (context : Int) :
    Excerpt :=
  let place := Text.position text.toList (some index)
  { expected := expectedWords expected, name, line := place.1, column := place.2
    sourceLine := Text.lineAt (Text.lines text) place.1, got := gotAt text.toList index context }

/-- A failure on a text is always rendered, at whatever index it is; the colour is looked at last. -/
theorem renderFailure_eq (color : Value) (text name : String) (index : Int) (expected : List String)
    (context : Int) :
    renderFailure color (.int context) (.str text) (missed index expected).value (.str name) =
      (truthy color >>= fun colored => pure ((failureExcerpt text name index expected context).text colored)) := by
  have source : newSource (.str text) (.str name) = pure (.source text (.str name)) := rfl
  have index_part : attributeOf (missed index expected).value "index" = pure (.int index) := rfl
  have value_part : attributeOf (missed index expected).value "value" =
      pure (.list (expected.map .str)) := rfl
  simp only [renderFailure, source, index_part, value_part, placeOf_str, expectedText_texts, textOf_str,
    gotText_str, pure_bind, failureExcerpt]

/-- A failure on a text is rendered as its excerpt. -/
theorem renderFailure_missed (color : Bool) (text name : String) (index : Int) (expected : List String)
    (context : Int) :
    renderFailure (.bool color) (.int context) (.str text) (missed index expected).value (.str name) =
      pure ((failureExcerpt text name index expected context).text color) := by
  rw [renderFailure_eq, truthy_bool, pure_bind]

/-! ### The caret -/

def Excerpt.gutter (number : Nat) : List Char :=
  ' ' :: ' ' :: (rightAligned 4 number).toList ++ [' ', '|', ' ']

/-- The line of an excerpt with the caret for a column. -/
def Excerpt.caretLine (column : Nat) : List Char :=
  List.replicate 7 ' ' ++ '|' :: ' ' :: List.replicate (column - 1) ' ' ++ ['^']

/-- The one caret of a line is where another line shows the character at an offset of a text, or just
past that other line when there is a newline or the text ends. -/
structure PointsAt (text : List Char) (offset : Nat) (src car : List Char) : Prop where
  once : car.count '^' = 1
  shown : src[car.idxOf '^']? = text[offset]?.filter (· ≠ '\n')
  past : text[offset]?.filter (· ≠ '\n') = none → car.idxOf '^' = src.length

/-- The caret stands after the margin and as many characters as the column asks for. -/
theorem idxOf_caretLine (column : Nat) : (Excerpt.caretLine column).idxOf '^' = 9 + (column - 1) := by
  have absent : '^' ∉ List.replicate 7 ' ' ++ '|' :: ' ' :: List.replicate (column - 1) ' ' := by
    simp [List.mem_replicate]
  rw [Excerpt.caretLine, List.idxOf_append, if_neg absent]
  simp
  omega

theorem count_caretLine (column : Nat) : (Excerpt.caretLine column).count '^' = 1 := by
  simp [Excerpt.caretLine, List.count_replicate]

/-- The gutter of a source line grows with the number of the line from five digits on. -/
theorem length_gutter (number : Nat) :
    (Excerpt.gutter number).length = 9 + ((toString number).length - 4) := by
  simp only [Excerpt.gutter, rightAligned, List.length_cons, List.length_append, String.toList_append,
    String.toList_ofList, List.length_replicate, String.length_toList, List.length_nil]
  omega

/-- The four lines of a rendered failure, spelled out. -/
theorem renderFailure_place {text : String} {k : Nat} (p : Text.Place text.toList k) (name : String)
    (expected : List String) (context : Int) :
    renderFailure (.bool false) (.int context) (.str text) (missed k expected).value (.str name) =
      pure ("\n".intercalate ["error: expected " ++ expectedWords expected,
        "  --> " ++ name ++ ":" ++ toString p.number ++ ":" ++ toString p.column, "       |",
        String.ofList (Excerpt.gutter p.number ++ p.line), String.ofList (Excerpt.caretLine p.column),
        "  = note: got " ++ gotAt text.toList k context]) := by
  have excerpt : failureExcerpt text name k expected context =
      ⟨expectedWords expected, name, p.number, p.column, String.ofList p.line,
        gotAt text.toList k context⟩ := by
    simp only [failureExcerpt, p.position, Text.lines, p.lineAt]
  rw [renderFailure_missed, excerpt, Excerpt.text]
  congr 2
  have plain (parameters : String) : Excerpt.style false parameters = "" := rfl
  simp only [Excerpt.lines, plain, String.append_empty, String.empty_append]
  have header : "error" ++ ": expected " = "error: expected " := by decide
  have arrow : "  " ++ "-->" ++ " " = "  --> " := by decide
  have bar : "  " ++ "     |" = "       |" := by decide
  have note : "  " ++ "=" ++ " note: got " = "  = note: got " := by decide
  have source : "  " ++ rightAligned 4 p.number ++ " |" ++ " " ++ String.ofList p.line =
      String.ofList (Excerpt.gutter p.number ++ p.line) := by
    apply String.toList_inj.1
    simp [Excerpt.gutter]
  have caret : "       |" ++ " " ++ String.ofList (List.replicate (p.column - 1) ' ') ++ "^" =
      String.ofList (Excerpt.caretLine p.column) := by
    apply String.toList_inj.1
    simp [Excerpt.caretLine]
  rw [header, arrow, bar, note, source, caret]

/-- A failure on a text is rendered as six lines.  One names the line and the column of its place; one
shows the line of the source after a gutter; the caret in the one below that is as many characters to
the left of the place as the number of the line has digits beyond four, so up to line 9999 it points at
the place. -/
theorem renderFailure_caret (text name : String) {k : Nat} (h : k ≤ text.toList.length)
    (expected : List String) (context : Int) :
    ∃ (p : Text.Place text.toList k) (header src car note : String),
      renderFailure (.bool false) (.int context) (.str text) (missed k expected).value (.str name) =
        pure ("\n".intercalate [header,
          "  --> " ++ name ++ ":" ++ toString p.number ++ ":" ++ toString p.column, "       |", src, car,
          note]) ∧
      src.toList = Excerpt.gutter p.number ++ p.line ∧
      car.toList.idxOf '^' + ((toString p.number).length - 4) =
        (Excerpt.gutter p.number).length + p.indent ∧
      (p.number < 10000 → PointsAt text.toList k src.toList car.toList) := by
  obtain ⟨p⟩ := Text.Place.exists_place h
  have caret : (Excerpt.caretLine p.column).idxOf '^' = 9 + p.indent := by
    rw [idxOf_caretLine, Text.Place.column, Nat.add_sub_cancel]
  refine ⟨p, _, _, _, _, renderFailure_place p name expected context, String.toList_ofList, ?_, ?_⟩
  · rw [String.toList_ofList, caret, length_gutter]
    omega
  · intro small
    -- The blanks before the caret make room for a number of four digits.
    have digits : (toString p.number).length ≤ 4 := Nat.repr_length p.number 4 (by omega) small
    have under : (Excerpt.caretLine p.column).idxOf '^' = (Excerpt.gutter p.number).length + p.indent := by
      rw [caret, length_gutter]
      omega
    have shown : (Excerpt.gutter p.number ++ p.line)[(Excerpt.caretLine p.column).idxOf '^']? =
        text.toList[k]?.filter (· ≠ '\n') := by
      rw [under, List.getElem?_append_right (Nat.le_add_right _ _), Nat.add_sub_cancel_left,
        p.line_indent]
    refine ⟨?_, ?_, fun none => ?_⟩
    · rw [String.toList_ofList]
      exact count_caretLine p.column
    · rw [String.toList_ofList, String.toList_ofList]
      exact shown
    · have ended : p.line[p.indent]? = .none := p.line_indent.trans none
      have last : p.indent = p.line.length :=
        Nat.le_antisymm p.indent_le (List.getElem?_eq_none_iff.1 ended)
      rw [String.toList_ofList, String.toList_ofList, under, List.length_append, last]

/-- A failure in the second of two lines. -/
theorem renderFailure_caret_secondLine : 4 ≤ "ab\ncd".toList.length ∧
    ∃ (p : Text.Place "ab\ncd".toList 4) (header src car note : String),
      renderFailure (.bool false) (.int 10) (.str "ab\ncd") (missed (4 : Nat) ["'x'"]).value (.str "in") =
        pure ("\n".intercalate [header,
          "  --> " ++ "in" ++ ":" ++ toString p.number ++ ":" ++ toString p.column, "       |", src, car,
          note]) ∧
      src.toList = Excerpt.gutter p.number ++ p.line ∧
      car.toList.idxOf '^' + ((toString p.number).length - 4) =
        (Excerpt.gutter p.number).length + p.indent ∧
      (p.number < 10000 → PointsAt "ab\ncd".toList 4 src.toList car.toList) :=
  ⟨by decide, renderFailure_caret "ab\ncd" "in" (by decide) ["'x'"] 10⟩

/-- The text of so many empty lines and, on the line after them, one letter. -/
def lateLetter (above : Nat) : String := String.ofList (List.replicate above '\n' ++ ['x'])

theorem toList_lateLetter (above : Nat) :
    (lateLetter above).toList = List.replicate above '\n' ++ ['x'] := String.toList_ofList

/-- The place of its letter. -/
def lateLetterPlace (above : Nat) : Text.Place (lateLetter above).toList above where
  before := List.replicate above '\n'
  line := ['x']
  after := []
  whole := toList_lateLetter above
  starts := by
    cases above with
    | zero => exact .inl rfl
    | succ above => exact .inr ⟨List.replicate above '\n', List.replicate_succ'⟩
  unbroken := by simp
  ends := .inl rfl
  inside := by simp
  upto := by simp

theorem number_lateLetterPlace (above : Nat) : (lateLetterPlace above).number = above + 1 := by
  simp [Text.Place.number, lateLetterPlace]

theorem column_lateLetterPlace (above : Nat) : (lateLetterPlace above).column = 1 := by
  simp [Text.Place.column, Text.Place.indent, lateLetterPlace]

theorem gotAt_lateLetter (above : Nat) : gotAt (lateLetter above).toList above 10 = "'x'" := by
  have position : Slice.position (above + 1) ((above : Int) + 10) = above + 1 := by
    unfold Slice.position
    split <;> omega
  have length : (List.replicate above '\n' ++ ['x']).length = above + 1 := by simp
  have all : Slice.between (lateLetter above).toList (some (above : Int)) (some ((above : Int) + 10)) =
      ['x'] := by
    simp only [Slice.between, toList_lateLetter, length, position, Option.map_some, Option.getD_some,
      Slice.position_ofNat (Nat.le_succ above)]
    rw [List.take_of_length_le (Nat.le_of_eq length), List.drop_left' List.length_replicate]
  have inside : ¬ (((lateLetter above).toList.length : Int) ≤ above) := by
    rw [toList_lateLetter, length]
    omega
  have few : ¬ (10 < ((lateLetter above).toList.length : Int) - above) := by
    rw [toList_lateLetter, length]
    omega
  simp [gotAt, inside, few, all]

/-- On line 10000 the caret misses its character, the only one of the line, and is under the blank
before it. -/
theorem caret_misses_fiveDigits :
    renderFailure (.bool false) (.int 10) (.str (lateLetter 9999)) (missed (9999 : Nat) ["'y'"]).value
        (.str "<input>") =
      pure ("\n".intercalate ["error: expected 'y'", "  --> <input>:10000:1", "       |",
        "  10000 | x", "       | ^", "  = note: got 'x'"]) ∧
    ¬ PointsAt (lateLetter 9999).toList 9999 "  10000 | x".toList "       | ^".toList := by
  constructor
  · rw [renderFailure_place (lateLetterPlace 9999), number_lateLetterPlace, column_lateLetterPlace,
      gotAt_lateLetter]
    have header : "error: expected " ++ expectedWords ["'y'"] = "error: expected 'y'" := by decide
    have source : String.ofList (Excerpt.gutter (9999 + 1) ++ (lateLetterPlace 9999).line) =
        "  10000 | x" := by decide
    have caret : String.ofList (Excerpt.caretLine 1) = "       | ^" := by decide
    have place : "  --> " ++ "<input>" ++ ":" ++ toString (9999 + 1) ++ ":" ++ toString 1 =
        "  --> <input>:10000:1" := by decide
    have note : "  = note: got " ++ "'x'" = "  = note: got 'x'" := by decide
    rw [header, place, source, caret, note]
  · intro points
    have shown := points.shown
    have letter : (lateLetter 9999).toList[9999]? = some 'x' := by
      rw [toList_lateLetter, List.getElem?_append_right (by rw [List.length_replicate]),
        List.length_replicate]
      rfl
    rw [letter] at shown
    exact absurd shown (by decide)

end Rebind
