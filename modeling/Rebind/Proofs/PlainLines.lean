import Rebind.Proofs.Painting
import Rebind.Proofs.TraceLines
/-!
# Trace lines as they are read

A printing handler that was asked for no colours removes all styling from a line before it is printed.  The
styling is put around parts of the line as whole sequences, so what is left is the line with its parts as they
are: the window, one dot for each level of nesting, the place, the name, and what is told of the run.  Nothing in
it ends a line, unless the name does.
-/
namespace Rebind

/-- A text from which removing styling leaves another one, whatever follows it. -/
def Shows (s plain : String) : Prop :=
  ∀ rest, Ansi.stripChars (s.toList ++ rest) = plain.toList ++ Ansi.stripChars rest

section Shows

variable {s t plain plain' : String}

theorem Shows.strip (h : Shows s plain) : Ansi.strip s = plain := by
  have all := h []
  rw [List.append_nil, stripChars_nil, List.append_nil] at all
  rw [Ansi.strip, all, String.ofList_toList]

theorem shows_self (h : Unstyled s.toList) : Shows s s := stripChars_unstyled h

/-- Without its styling a painted text shows its characters. -/
theorem Paints.shows {painted : List Cell} (h : Paints s painted) :
    Shows s (String.ofList (painted.map Cell.shown)) := by
  intro rest
  rw [← shown_cells [], h, List.map_append, shown_cells, String.toList_ofList]

/-- Texts that are complete may be joined. -/
theorem Shows.append (first : Shows s plain) (second : Shows t plain') : Shows (s ++ t) (plain ++ plain') := by
  intro rest
  simp only [String.toList_append, List.append_assoc]
  rw [first, second]

/-- A styling sequence is removed as a whole. -/
theorem shows_code {parameters : String} (all : parameters.toList.all Ansi.isParameter = true) :
    Shows (Ansi.code parameters) "" := fun rest => stripChars_sequence (afterSequence?_code all rest)

theorem shows_reset : Shows Ansi.reset "" := shows_code (by decide)

/-- A style around a text is removed with it. -/
theorem Shows.styled {style : String} (h : Shows s plain) (removed : Shows style "") :
    Shows (Ansi.styled style s) plain := by
  unfold Ansi.styled
  split
  · exact h
  · simpa using (removed.append h).append shows_reset

end Shows

/-- A text within a line: it neither ends the line nor styles what follows. -/
structure Inline (s : String) : Prop where
  unbroken : '\n' ∉ s.toList
  unstyled : Unstyled s.toList

theorem inline_of_printable {s : String} (h : Printable s.toList) : Inline s :=
  ⟨h.not_mem (by decide), h.unstyled⟩

/-- Lines without newlines may be joined. -/
theorem Inline.append {s t : String} (first : Inline s) (second : Inline t) : Inline (s ++ t) := by
  constructor
  · rw [String.toList_append]
    exact fun member => (List.mem_append.mp member).elim first.unbroken second.unbroken
  · unfold Unstyled
    rw [String.toList_append]
    exact fun member => (List.mem_append.mp member).elim first.unstyled second.unstyled

theorem Inline.shows {s : String} (h : Inline s) : Shows s s := shows_self h.unstyled

theorem inline_int (n : Int) : Inline (toString n) := inline_of_printable (toString_printable n)

theorem inline_quoted (s : String) : Inline (Json.quoted s) := inline_of_printable (Json.quoted_printable s)

theorem inline_compact (j : Json) : Inline (j.render Json.compact) :=
  inline_of_printable (Json.render_printable (by decide) (by decide) j)

theorem Cause.inline_name (c : Cause) : Inline c.name := by
  refine inline_of_printable ?_
  cases c with
  | complaint kind message =>
    cases kind <;>
    · simp only [Cause.name, Complaint.name]
      decide
  | _ =>
    simp only [Cause.name]
    decide

namespace Trace

/-! ### The start of a line -/

/-- A trace line without styling: the window, the nesting, the place, the name and some words. -/
def plainLine (width depth : Int) (text : List Char) (offset : Nat) (name words : String) : String :=
  let place := Text.position text (some (offset : Int))
  String.ofList ((shownPart text offset width).map visible) ++ " " ++ replicated depth "· " ++
    (toString place.1 ++ "," ++ toString place.2) ++ " " ++ name ++ " " ++ words

namespace Told

/-- How a line ends that tells of a run from an offset, without styling. -/
def plain (text : List Char) (offset : Nat) : Told → String
  | entered => "?"
  | matched stop =>
    "OKAY " ++ Json.quoted (String.ofList (Slice.between text (some (offset : Int)) (some stop))) ++
      " (len " ++ toString (stop - offset) ++ ")"
  | missed expected => "FAIL " ++ (Json.array (expected.map .str)).render Json.compact
  | raised kind => "RAISE " ++ kind

/-- Something that can be told of a run from an offset in a text of a length. -/
def Fits (length offset : Nat) : Told → Prop
  | matched stop => (offset : Int) ≤ stop ∧ stop ≤ length
  | raised kind => Inline kind
  | entered | missed _ => True

variable {text : List Char} {offset : Nat} {told : Told}

/-- A slice within a text is as long as its bounds say. -/
theorem length_between {stop : Int} (after : (offset : Int) ≤ stop) (within : stop ≤ text.length) :
    ((Slice.between text (some (offset : Int)) (some stop)).length : Int) = stop - offset := by
  obtain ⟨k, rfl⟩ := Int.eq_ofNat_of_zero_le (Int.le_trans (Int.natCast_nonneg offset) after)
  have inside : k ≤ text.length := by omega
  have before : offset ≤ text.length := by omega
  simp only [Slice.between, Option.map_some, Option.getD_some, Slice.position_ofNat inside,
    Slice.position_ofNat before, List.length_drop, List.length_take]
  omega

/-- What a line says of an end, without its styling. -/
theorem shows_words (fits : told.Fits text.length offset) :
    Shows (told.words text offset) (told.plain text offset) := by
  have literal : ∀ {s : String}, Printable s.toList → Shows s s := fun h => (inline_of_printable h).shows
  cases told with
  | entered => exact literal (s := "?") (by decide)
  | matched stop =>
    unfold words plain
    dsimp only
    rw [length_between fits.1 fits.2]
    have okay : Shows (Ansi.styled green "OKAY" ++ " ") "OKAY " := by
      have joined : "OKAY" ++ " " = "OKAY " := by decide
      rw [← joined]
      have word := (literal (s := "OKAY") (by decide)).styled (show Shows green "" from shows_code (by decide))
      exact word.append (literal (s := " ") (by decide))
    have json := (inline_quoted (String.ofList
      (Slice.between text (some (offset : Int)) (some stop)))).shows.styled
        (show Shows yellow "" from shows_code (by decide))
    have size := (inline_int (stop - offset)).shows
    exact (((okay.append json).append (literal (s := " (len ") (by decide))).append size).append
      (literal (s := ")") (by decide))
  | missed expected => exact (literal (s := "FAIL ") (by decide)).append (inline_compact _).shows
  | raised kind => exact (literal (s := "RAISE ") (by decide)).append (Inline.shows fits)

end Told

section Lines

variable {text : List Char} {offset : Nat} {told : Told} {name : String}

/-- Without its styling a trace line shows its parts and nothing else. -/
theorem strip_traceLine (width depth : Int) (named : Inline name) (fits : told.Fits text.length offset) :
    Ansi.strip (traceLine width false depth text offset name told) =
      plainLine width depth text offset name (told.plain text offset) := by
  have blank : Shows " " " " := (inline_of_printable (by decide)).shows
  have start : Shows (lineStart told.event width false depth text.length offset told.stop
      (shownPart text offset width))
      (String.ofList ((shownPart text offset width).map visible) ++ " " ++ replicated depth "· ") := by
    have parts : String.ofList ((shownPart text offset width).map visible ++
        (List.replicate 0 ' ' ++ ' ' :: (replicated depth "· ").toList)) =
        String.ofList ((shownPart text offset width).map visible) ++ " " ++ replicated depth "· " := by
      apply String.toList_injective
      simp
    rw [← parts, ← shown_paintedStart]
    exact paints_lineStart.shows
  have place := (((inline_int (Text.position text (some (offset : Int))).1).append
    (inline_of_printable (s := ",") (by decide))).append
      (inline_int (Text.position text (some (offset : Int))).2)).shows
  have shown := named.shows.styled (show Shows blue "" from shows_code (by decide))
  unfold traceLine plainLine
  dsimp only
  exact (((((start.append place).append blank).append shown).append blank).append (Told.shows_words fits)).strip

end Lines

end Trace

end Rebind
