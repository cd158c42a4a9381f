import Rebind.Proofs.Painting
import Rebind.Proofs.TraceLines
/-!
# The trace window

The start of a trace line shows one stretch of the input in visible symbols, followed by its padding, one
blank and the dots.  The stretch is as long as the context allows, it holds the current position, and the
highlight of the event is on the character at that position and nowhere else, or on the blank after the window
when the position is the end of the input.
-/
namespace Rebind.Trace

/-! ### The stretch -/

def windowLength (text : List Char) (width : Int) : Nat := min width.toNat text.length

/-- The characters that the window shows from a place on. -/
def stretch (text : List Char) (width : Int) (start : Nat) : List Char :=
  (text.drop start).take (windowLength text width)

/-- A window that is as long as it can be, holds the offset, and moves back from it only as far as the end
of the text makes it. -/
structure Holds (text : List Char) (width : Int) (offset start : Nat) : Prop where
  inside : start + windowLength text width ≤ text.length
  current : offset < text.length → start ≤ offset ∧ offset < start + windowLength text width
  atOffset : offset + windowLength text width ≤ text.length → start = offset
  atEnd : text.length < offset + windowLength text width → start + windowLength text width = text.length

section Stretch

variable {text : List Char} {offset start : Nat} {width : Int}

/-- The stretch that is shown is as long as the window. -/
theorem Holds.length_stretch (h : Holds text width offset start) :
    (stretch text width start).length = windowLength text width := by
  have inside := h.inside
  simp only [stretch, List.length_take, List.length_drop]
  omega

/-- The window on a text holds the offset. -/
theorem windowStart_holds (wide : 1 ≤ width) (inside : offset ≤ text.length) : ∃ start : Nat,
    windowStart text.length offset width = start ∧ Holds text width offset start ∧
    shownPart text offset width = stretch text width start := by
  obtain ⟨w, rfl⟩ := Int.eq_ofNat_of_zero_le (a := width) (by omega)
  have length : windowLength text (w : Int) = min w text.length := rfl
  have place : windowStart text.length offset w = (min offset (text.length - w) : Nat) := by
    unfold windowStart
    omega
  refine ⟨min offset (text.length - w), place, ?_, ?_⟩
  · constructor <;> rw [length] <;> omega
  · have front : Slice.position text.length ((min offset (text.length - w) : Nat) : Int) =
        min offset (text.length - w) := Slice.position_ofNat (by omega)
    have back : Slice.position text.length ((min offset (text.length - w) : Nat) + (w : Int)) =
        min offset (text.length - w) + min w text.length := by
      unfold Slice.position
      split <;> omega
    unfold shownPart stretch Slice.between
    simp only [place, Option.map_some, Option.getD_some, front, back, length, List.drop_take]
    congr 1
    omega

end Stretch

/-- No blank is left among visible symbols, and no control character. -/
theorem visible_clear (c : Char) : visible c ∉ [' ', '\n', '\t'] ∧ 0x20 ≤ (visible c).toNat := by
  have printable := visible_cases c
  have unblank : visible c ≠ ' ' := by
    unfold visible
    split
    · decide
    split
    · decide
    split
    · decide
    split
    · next control =>
      have all : ∀ n < 0x20, Char.ofNat (0x2400 + n) ≠ ' ' := by decide
      exact all c.toNat control
    · assumption
  have unbroken : visible c ≠ '\n' := fun same => absurd (same ▸ printable) (by decide)
  have untabbed : visible c ≠ '\t' := fun same => absurd (same ▸ printable) (by decide)
  exact ⟨by simp [unblank, unbroken, untabbed], printable⟩

/-! ### The highlight -/

section Highlight

variable {code : String} {event : Event} {offset : Int} {stop : Option Int}

/-- The highlight is on the current position and nowhere else. -/
theorem mem_painted (highlights : code ∈ [inverse, onRed]) {i : Int} {c : Char} :
    code ∈ (painted event offset stop i c).styles ↔ event.highlight = some code ∧ i = offset := by
  have other : code ≠ onGreen ∧ code ≠ dim := by
    rcases List.mem_pair.mp highlights with rfl | rfl <;> decide
  rw [painted, Option.mem_toList, cellStyle_eq]
  by_cases here : i = offset ∧ event ≠ .okay
  · rw [if_pos here]
    simp [here.1]
  · rw [if_neg here]
    have elsewhere : ¬ (event.highlight = some code ∧ i = offset) := by
      rintro ⟨lit, same⟩
      refine here ⟨same, fun okay => ?_⟩
      rw [okay] at lit
      cases lit
    simp only [elsewhere, iff_false]
    split
    · simpa using other.1.symm
    split
    · simpa using other.2.symm
    · simp

/-- At the end of the input it is on the blank after the window. -/
theorem mem_paintedMarker {size : Int} : code ∈ (paintedMarker event size offset).styles ↔
    event.highlight = some code ∧ size ≤ offset := by
  unfold paintedMarker
  split <;> simp [*]

end Highlight

def padding (text : List Char) (width : Int) (pad : Bool) : Nat :=
  if pad then width.toNat - windowLength text width else 0

/-- Which of the characters of a line stands for the current position: one of the window, or the blank
after it. -/
def currentPlace (text : List Char) (width : Int) (pad : Bool) (offset start : Nat) : Nat :=
  if offset < text.length then offset - start else windowLength text width + padding text width pad

section Line

variable {text : List Char} {width depth : Int} {pad : Bool} {offset start : Nat} {event : Event}
  {stop : Option Int}

/-- The line start on a window of a text, painted. -/
def paintedOn (text : List Char) (width depth : Int) (pad : Bool) (offset start : Nat) (event : Event)
    (stop : Option Int) : List Cell :=
  paintedStart event depth text.length offset stop start (padding text width pad) (stretch text width start)

/-- The start of a line on a text is painted on a window that holds the offset. -/
theorem paints_window (wide : 1 ≤ width) (inside : offset ≤ text.length) : ∃ start : Nat,
    Holds text width offset start ∧
    Paints (lineStart event width pad depth text.length offset stop (shownPart text offset width))
      (paintedOn text width depth pad offset start event stop) := by
  obtain ⟨start, first, holds, part⟩ := windowStart_holds wide inside
  have blanks : (if pad then (width - (shownPart text offset width).length).toNat else 0) =
      padding text width pad := by
    rw [part, holds.length_stretch, padding]
    split <;> omega
  refine ⟨start, holds, ?_⟩
  rw [paintedOn, ← part, ← blanks, ← first]
  exact paints_lineStart

/-- A highlight is at the current place and nowhere else. -/
theorem highlight_paintedOn (h : Holds text width offset start) (inside : offset ≤ text.length) {code : String}
    (highlights : code ∈ [inverse, onRed]) {k : Nat} {cell : Cell}
    (there : (paintedOn text width depth pad offset start event stop)[k]? = some cell) :
    code ∈ cell.styles ↔ event.highlight = some code ∧ k = currentPlace text width pad offset start := by
  have length := h.length_stretch
  have bound := h.inside
  have current := h.current
  have place : currentPlace text width pad offset start =
      if offset < text.length then offset - start else windowLength text width + padding text width pad := rfl
  rw [paintedOn, paintedStart, List.getElem?_append, List.length_mapIdx, length] at there
  by_cases window : k < windowLength text width
  · rw [if_pos window, List.getElem?_mapIdx] at there
    obtain ⟨c, -, rfl⟩ := Option.map_eq_some_iff.mp there
    rw [mem_painted highlights]
    refine and_congr_right fun _ => ?_
    split at place <;> omega
  · rw [if_neg window, List.getElem?_append, List.length_replicate] at there
    have past : offset < text.length → k ≠ currentPlace text width pad offset start := by
      intro within
      rw [place, if_pos within]
      omega
    by_cases blank : k - windowLength text width < padding text width pad
    · rw [if_pos blank, List.getElem?_replicate, if_pos blank] at there
      obtain rfl := Option.some.inj there
      have other : k ≠ currentPlace text width pad offset start := by
        split at place <;> omega
      simp [other]
    · rw [if_neg blank] at there
      cases after : k - windowLength text width - padding text width pad with
      | zero =>
        rw [after, List.getElem?_cons_zero] at there
        obtain rfl := Option.some.inj there
        rw [mem_paintedMarker]
        refine and_congr_right fun _ => ?_
        split at place <;> omega
      | succ n =>
        rw [after, List.getElem?_cons_succ, List.getElem?_map] at there
        obtain ⟨c, -, rfl⟩ := Option.map_eq_some_iff.mp there
        have dull : code ≠ dim := by
          rcases List.mem_pair.mp highlights with rfl | rfl <;> decide
        have other : k ≠ currentPlace text width pad offset start := by
          split at place <;> omega
        simp [dull, other]

/-- The current place shows the character at the offset, or the blank after the window. -/
theorem shown_currentPlace (h : Holds text width offset start) :
    ∃ cell, (paintedOn text width depth pad offset start event stop)[currentPlace text width pad offset start]? =
      some cell ∧ cell.shown = (text[offset]?.map visible).getD ' ' := by
  have shown : ((paintedOn text width depth pad offset start event stop).map
      Cell.shown)[currentPlace text width pad offset start]? = some ((text[offset]?.map visible).getD ' ') := by
    have length := h.length_stretch
    rw [paintedOn, shown_paintedStart]
    unfold currentPlace
    by_cases within : offset < text.length
    · obtain ⟨after, before⟩ := h.current within
      have at_ : start + (offset - start) = offset := by omega
      rw [if_pos within, List.getElem?_append_left (by rw [List.length_map]; omega), List.getElem?_map, stretch,
        List.getElem?_take_of_lt (by omega), List.getElem?_drop, at_, List.getElem?_eq_getElem within]
      rfl
    · rw [if_neg within, List.getElem?_append_right (by rw [List.length_map]; omega), List.length_map, length,
        Nat.add_sub_cancel_left, List.getElem?_append_right (by simp), List.length_replicate, Nat.sub_self,
        List.getElem?_eq_none (Nat.not_lt.mp within)]
      rfl
  rw [List.getElem?_map] at shown
  exact Option.map_eq_some_iff.mp shown

end Line

/-- Every line start shows the current position.  In visible symbols it shows one stretch of the text, which is
as long as the context allows and starts at the offset unless it would then run past the end; after it come
the padding, one blank and the dots.  With its styles it highlights one character: the one at the offset, or
at the end of the text the blank after the window.  A success highlights none. -/
theorem lineStart_follows {e : EchoState} {width depth : Int} {σ : Store}
    (context : (σ.view e.context).toInt? = some width) (wide : 1 ≤ width)
    (deep : (σ.view e.depth).toInt? = some depth) (text : String) {offset : Nat}
    (inside : offset ≤ text.toList.length) (event : Event) (stop : Option Int) :
    let pad := (σ.view e.padIfShort).isTruthy
    ∃ start line,
      lineStartOf e event (.str text) (.int offset) (stop.elim Value.none Value.int) σ = .ok line σ ∧
      Holds text.toList width offset start ∧
      Ansi.strip line = String.ofList ((stretch text.toList width start).map visible) ++
        String.ofList (List.replicate (padding text.toList width pad) ' ') ++ " " ++ replicated depth "· " ∧
      (∀ c ∈ (stretch text.toList width start).map visible, c ∉ [' ', '\n', '\t'] ∧ 0x20 ≤ c.toNat) ∧
      (∃ cell, (Ansi.cells [] line.toList)[currentPlace text.toList width pad offset start]? = some cell ∧
        cell.shown = (text.toList[offset]?.map visible).getD ' ') ∧
      ∀ code ∈ [inverse, onRed], ∀ k cell, (Ansi.cells [] line.toList)[k]? = some cell →
        (code ∈ cell.styles ↔
          event.highlight = some code ∧ k = currentPlace text.toList width pad offset start) := by
  intro pad
  obtain ⟨start, holds, paints⟩ := paints_window wide inside
  have ends : boundOf (stop.elim Value.none Value.int) = pure stop := by cases stop <;> rfl
  have written := lineStartOf_str σ context deep event text offset _ ends
  refine ⟨start, _, written, holds, ?_, ?_, ?_, fun code highlights k cell there => ?_⟩
  · rw [paints.strip, paintedOn, shown_paintedStart]
    apply String.toList_injective
    simp [pad]
  · intro d member
    obtain ⟨c, -, rfl⟩ := List.mem_map.mp member
    exact visible_clear c
  · rw [paints.cells]
    exact shown_currentPlace holds
  · rw [paints.cells] at there
    exact highlight_paintedOn holds inside highlights there

/-- Near the end of a text the window moves back to the end, and the highlight of a failure moves with the
offset. -/
theorem lineStart_follows_lastLetter :
    let e : EchoState := ⟨.int 3, .bool true, .none, .none, .none, .int 1⟩
    (1 : Int) ≤ 3 ∧ 4 ≤ "a b\nc".toList.length ∧
    ∃ line, lineStartOf e .fail (.str "a b\nc") (.int 4) .none {} = .ok line {} ∧
      Ansi.strip line = "b⏎c · " ∧
      ∀ k cell, (Ansi.cells [] line.toList)[k]? = some cell → (onRed ∈ cell.styles ↔ k = 2) := by
  intro e
  have inside : 4 ≤ "a b\nc".toList.length := by decide
  obtain ⟨start, line, written, holds, plain, -, -, lit⟩ :=
    lineStart_follows (e := e) (σ := {}) rfl (by decide) rfl "a b\nc" inside .fail none
  have atEnd : start + 3 = 5 := holds.atEnd (by decide)
  obtain rfl : start = 2 := by omega
  refine ⟨by decide, inside, line, written, ?_, fun k cell there => ?_⟩
  · rw [plain]
    decide
  · rw [lit onRed (by decide) k cell there]
    have place : currentPlace "a b\nc".toList 3 true 4 2 = 2 := by decide
    rw [show (({} : Store).view e.padIfShort).isTruthy = true from rfl, place]
    simp [Event.highlight]

end Rebind.Trace
