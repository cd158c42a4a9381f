import Rebind.Proofs.Styling
import Rebind.Trace.Window
/-!
# Painted texts

A terminal shows the characters of a text, each in the styles whose sequences came before it and were not
ended.  Without the sequences the same characters remain, so what a text shows tells both how it looks and
what is left of it when styling is removed.  The start of a trace line is put together from parts of which
each ends the style that it sets, so it shows what its parts show.
-/
namespace Rebind

/-! ### Styled characters -/

/-- A character as a terminal shows it, with the sequences that style it. -/
structure Cell where
  styles : List String
  shown : Char
  deriving DecidableEq, Repr

namespace Ansi

/-- The styles in force after one more sequence.  The reset ends all of them. -/
def restyled (styles : List String) (sequence : String) : List String :=
  if sequence = reset then [] else styles ++ [sequence]

/-- The characters that a terminal shows, the leftmost first, when some styles are in force before them. -/
def cells (styles : List String) (cs : List Char) : List Cell :=
  match h : afterSequence? cs with
  | some rest =>
    have := length_afterSequence? h
    cells (restyled styles (String.ofList (cs.take (cs.length - rest.length)))) rest
  | none =>
    match cs with
    | [] => []
    | c :: rest => ⟨styles, c⟩ :: cells styles rest
termination_by cs.length

end Ansi

section Cells

variable {styles : List String} {cs rest : List Char}

/-- A styling sequence changes the style of what follows. -/
theorem cells_sequence (found : Ansi.afterSequence? cs = some rest) : Ansi.cells styles cs =
    Ansi.cells (Ansi.restyled styles (String.ofList (cs.take (cs.length - rest.length)))) rest := by
  conv_lhs => unfold Ansi.cells
  split
  · next after known =>
    obtain rfl := Option.some.inj (known.symm.trans found)
    rfl
  · next none => cases none.symm.trans found

/-- Any other character is painted in the present style. -/
theorem cells_other {c : Char} (none : Ansi.afterSequence? (c :: rest) = none) :
    Ansi.cells styles (c :: rest) = ⟨styles, c⟩ :: Ansi.cells styles rest := by
  conv_lhs => unfold Ansi.cells
  split
  · next found => cases none.symm.trans found
  · rfl

theorem cells_nil : Ansi.cells styles [] = [] := by
  simp [Ansi.cells, Ansi.afterSequence?]

/-- The characters that are shown are those that remain without the sequences. -/
theorem shown_cells (styles : List String) (cs : List Char) :
    (Ansi.cells styles cs).map Cell.shown = Ansi.stripChars cs := by
  induction styles, cs using Ansi.cells.induct with
  | case1 styles cs rest found _ ih => rw [cells_sequence found, stripChars_sequence found, ih]
  | case2 styles => rw [cells_nil, stripChars_nil, List.map_nil]
  | case3 styles c rest none ih => rw [cells_other none, stripChars_other none, List.map_cons, ih]

/-- A sequence restyles what follows. -/
theorem cells_code {parameters : String} (all : parameters.toList.all Ansi.isParameter = true) :
    Ansi.cells styles ((Ansi.code parameters).toList ++ rest) =
      Ansi.cells (Ansi.restyled styles (Ansi.code parameters)) rest := by
  rw [cells_sequence (afterSequence?_code all rest)]
  simp

/-- Without an escape character all characters are shown in the same styles. -/
theorem cells_unstyled (h : Unstyled cs) :
    Ansi.cells styles (cs ++ rest) = cs.map (Cell.mk styles) ++ Ansi.cells styles rest := by
  induction cs with
  | nil => rfl
  | cons c cs ih =>
    have first : c ≠ Ansi.escape := fun same => h (same ▸ List.mem_cons_self)
    rw [List.cons_append, cells_other (afterSequence?_unescaped first _),
      ih fun later => h (List.mem_cons_of_mem _ later)]
    rfl

end Cells

/-! ### Painted texts -/

/-- A text that shows some characters in some styles, and leaves what follows unstyled. -/
def Paints (s : String) (painted : List Cell) : Prop :=
  ∀ rest, Ansi.cells [] (s.toList ++ rest) = painted ++ Ansi.cells [] rest

/-- A sequence that sets a style. -/
def IsStyle (style : String) : Prop :=
  ∃ parameters : String, style = Ansi.code parameters ∧ parameters.toList.all Ansi.isParameter = true ∧
    style ≠ Ansi.reset

section Paints

variable {s t : String} {painted more : List Cell}

theorem Paints.cells (h : Paints s painted) : Ansi.cells [] s.toList = painted := by
  simpa [cells_nil] using h []

/-- Without its styling, a text is what it paints. -/
theorem Paints.strip (h : Paints s painted) : Ansi.strip s = String.ofList (painted.map Cell.shown) := by
  rw [Ansi.strip, ← shown_cells [], h.cells]

/-- Texts that end without a style may be joined. -/
theorem Paints.append (first : Paints s painted) (second : Paints t more) :
    Paints (s ++ t) (painted ++ more) := by
  intro rest
  simp only [String.toList_append, List.append_assoc]
  rw [first, second]

theorem paints_plain (h : Unstyled s.toList) : Paints s (s.toList.map (Cell.mk [])) :=
  fun _ => cells_unstyled h

/-- A style paints all of a text. -/
theorem paints_styled {style : String} (h : Unstyled s.toList) (sets : IsStyle style) :
    Paints (Ansi.styled style s) (s.toList.map (Cell.mk [style])) := by
  obtain ⟨parameters, rfl, all, other⟩ := sets
  intro rest
  unfold Ansi.styled
  split
  · next empty => simp [String.isEmpty_iff.mp empty]
  · have ended : Ansi.cells [Ansi.code parameters] (Ansi.reset.toList ++ rest) = Ansi.cells [] rest := by
      rw [Ansi.reset, cells_code (by decide)]
      simp [Ansi.restyled, Ansi.reset]
    simp only [String.toList_append, List.append_assoc]
    rw [cells_code all, Ansi.restyled, if_neg other, List.nil_append, cells_unstyled h, ended]

/-- Parts next to each other that show one character each. -/
theorem paints_join {f : Nat → Char → String} {g : Nat → Char → Cell} (each : ∀ k c, Paints (f k c) [g k c])
    (cs : List Char) : Paints (String.join (cs.mapIdx f)) (cs.mapIdx g) := by
  induction cs generalizing f g with
  | nil => exact fun _ => rfl
  | cons c cs ih =>
    rw [List.mapIdx_cons, List.mapIdx_cons, String.join_cons]
    exact (each 0 c).append (ih fun k => each (k + 1))

end Paints

namespace Trace

/-! ### The start of a line, painted -/

/-- How the current position is highlighted. -/
def Event.highlight : Event → Option String
  | .enter => some inverse
  | .fail => some onRed
  | .okay => none

def painted (event : Event) (offset : Int) (stop : Option Int) (i : Int) (c : Char) : Cell :=
  ⟨(cellStyle event offset stop i).toList, visible c⟩

def paintedMarker (event : Event) (size offset : Int) : Cell :=
  ⟨if size ≤ offset then event.highlight.toList else [], ' '⟩

theorem isStyle_highlight {event : Event} {style : String} (h : event.highlight = some style) :
    IsStyle style := by
  cases event with
  | enter => exact ⟨"7", (Option.some.inj h).symm, by decide, by cases h; decide⟩
  | fail => exact ⟨"41", (Option.some.inj h).symm, by decide, by cases h; decide⟩
  | okay => cases h

theorem isStyle_dim : IsStyle dim := ⟨"2", rfl, by decide, by decide⟩

/-- Inside the window the highlight of the event is at the offset.  The other styles are no highlights. -/
theorem cellStyle_eq (event : Event) (offset : Int) (stop : Option Int) (i : Int) :
    cellStyle event offset stop i =
      if i = offset ∧ event ≠ .okay then event.highlight
      else if event = .okay ∧ offset ≤ i ∧ stop.any (i < ·) then some onGreen
      else if i < offset then some dim
      else none := by
  cases event <;> by_cases here : i = offset <;> simp [cellStyle, Event.highlight, here]

/-- Every style of a cell is a style. -/
theorem isStyle_cellStyle {event : Event} {offset : Int} {stop : Option Int} {i : Int} {style : String}
    (h : cellStyle event offset stop i = some style) : IsStyle style := by
  rw [cellStyle_eq] at h
  split at h
  · exact isStyle_highlight h
  split at h
  · exact Option.some.inj h ▸ ⟨"42", rfl, by decide, by decide⟩
  split at h
  · exact Option.some.inj h ▸ isStyle_dim
  · cases h

/-- A character stays in its line when it is made visible. -/
theorem visible_cases (c : Char) : 0x20 ≤ (visible c).toNat := by
  unfold visible
  split
  · decide
  split
  · decide
  split
  · decide
  split
  · next control =>
    have all : ∀ n < 0x20, 0x20 ≤ (Char.ofNat (0x2400 + n)).toNat := by decide
    exact all c.toNat control
  · next printable => exact Nat.not_lt.mp printable

theorem printable_visible (c : Char) : Printable (String.singleton (visible c)).toList := by
  intro d member
  have same : d = visible c := by simpa using member
  exact same ▸ visible_cases c

/-- A cell paints one character. -/
theorem paints_cell (event : Event) (offset : Int) (stop : Option Int) (i : Int) (c : Char) :
    Paints (cell event offset stop i c) [painted event offset stop i c] := by
  have symbol := (printable_visible c).unstyled
  unfold cell painted
  dsimp only
  split
  · next style found =>
    rw [found]
    simpa using paints_styled symbol (isStyle_cellStyle found)
  · next none =>
    rw [none]
    simpa using paints_plain symbol

theorem marker_eq (event : Event) (size offset : Int) : marker event size offset =
    match if size ≤ offset then event.highlight else none with
    | some style => Ansi.styled style " "
    | none => " " := by
  cases event <;> by_cases past : size ≤ offset <;> simp [marker, Event.highlight, past]

/-- The marker paints one blank. -/
theorem paints_marker (event : Event) (size offset : Int) :
    Paints (marker event size offset) [paintedMarker event size offset] := by
  have blank : Unstyled " ".toList := by decide
  rw [marker_eq, paintedMarker]
  by_cases past : size ≤ offset
  · simp only [past, if_true]
    cases lit : event.highlight with
    | none => exact paints_plain blank
    | some style => exact paints_styled blank (isStyle_highlight lit)
  · simp only [past, if_false]
    exact paints_plain blank

theorem printable_replicated {s : String} (n : Int) (h : Printable s.toList) :
    Printable (replicated n s).toList := by
  unfold replicated
  induction n.toNat with
  | zero => exact .nil
  | succ n ih =>
    rw [List.replicate_succ, String.join_cons, String.toList_append]
    exact h.append ih

theorem toList_blanks (n : Int) : (replicated n " ").toList = List.replicate n.toNat ' ' := by
  unfold replicated
  induction n.toNat with
  | zero => rfl
  | succ n ih =>
    rw [List.replicate_succ, String.join_cons, String.toList_append, ih]
    rfl

/-- The start of a line: the window, some blanks, the one blank and the dots. -/
def paintedStart (event : Event) (depth size offset : Int) (stop : Option Int) (start : Int) (blanks : Nat)
    (cs : List Char) : List Cell :=
  cs.mapIdx (fun k c => painted event offset stop (start + k) c) ++
    (List.replicate blanks ⟨[], ' '⟩ ++
      (paintedMarker event size offset :: (replicated depth "· ").toList.map (Cell.mk [dim])))

section Start

variable {event : Event} {width depth size offset : Int} {pad : Bool} {stop : Option Int} {cs : List Char}

/-- The start of a line shows its parts, and leaves what follows unstyled. -/
theorem paints_lineStart : Paints (lineStart event width pad depth size offset stop cs)
    (paintedStart event depth size offset stop (windowStart size offset width)
      (if pad then (width - cs.length).toNat else 0) cs) := by
  have stretch := paints_join (fun k c => paints_cell event offset stop (windowStart size offset width + k) c) cs
  have padding : Paints (if pad then replicated (width - cs.length) " " else "")
      (List.replicate (if pad then (width - cs.length).toNat else 0) ⟨[], ' '⟩) := by
    cases pad with
    | false => exact fun _ => rfl
    | true =>
      have blanks := paints_plain (printable_replicated (width - cs.length) (s := " ") (by decide)).unstyled
      simpa [toList_blanks] using blanks
  have dots := paints_styled (printable_replicated depth (s := "· ") (by decide)).unstyled isStyle_dim
  have whole := ((stretch.append padding).append (paints_marker event size offset)).append dots
  unfold lineStart window paintedStart indent
  simpa using whole

/-- What the start of a line shows. -/
theorem shown_paintedStart (start : Int) (blanks : Nat) :
    (paintedStart event depth size offset stop start blanks cs).map Cell.shown =
      cs.map visible ++ (List.replicate blanks ' ' ++ ' ' :: (replicated depth "· ").toList) := by
  have window : (cs.mapIdx fun k c => painted event offset stop (start + k) c).map Cell.shown =
      cs.map visible := by
    apply List.ext_getElem?
    simp [painted, Function.comp_def]
  have dots : (replicated depth "· ").toList.map (Cell.shown ∘ Cell.mk [dim]) = (replicated depth "· ").toList :=
    List.map_id _
  simp [paintedStart, window, dots, paintedMarker]

end Start

end Trace

end Rebind
