import Rebind.Proofs.ParseCommand
import Rebind.Proofs.PlainLines
/-!
# Diagnostics with and without colours

A diagnostic is the same text with and without colours once all styling is removed, whatever the texts in
it are: they may hold styling of their own, and sequences that were begun and not ended.  A sequence that
was begun cannot go on past the start of an inserted one, nor past the end of a line, and that is all that
ever follows such a text where colours make a difference.  So what the command writes, which goes through
that removal, does not depend on the setting.
-/
namespace Rebind

/-! ### Where a sequence cannot go on -/

/-- A character that is in no sequence, except as its first. -/
def Breaks (c : Char) : Prop := c ≠ '[' ∧ Ansi.isParameter c = false ∧ c.isAlpha = false

instance (c : Char) : Decidable (Breaks c) :=
  inferInstanceAs (Decidable (c ≠ '[' ∧ Ansi.isParameter c = false ∧ c.isAlpha = false))

/-- Only a bracket after the escape character opens a sequence. -/
theorem afterSequence?_unopened {c : Char} (h : c ≠ '[') (rest : List Char) :
    Ansi.afterSequence? (Ansi.escape :: c :: rest) = none := by
  unfold Ansi.afterSequence?
  split
  · next same => exact absurd (List.cons.inj (List.cons.inj same).2).1 h
  · rfl

section Breaks

variable {c : Char} (h : Breaks c)

include h

/-- Whether parameters end does not depend on what follows a character that breaks them. -/
theorem afterParameters?_breaks (cs rest : List Char) :
    Ansi.afterParameters? (cs ++ c :: rest) = (Ansi.afterParameters? cs).map (· ++ c :: rest) := by
  induction cs with
  | nil => simp [Ansi.afterParameters?, h.2.1, h.2.2]
  | cons d cs ih =>
    rw [List.cons_append]
    unfold Ansi.afterParameters?
    by_cases parameter : Ansi.isParameter d = true
    · rw [if_pos parameter, if_pos parameter, ih]
    · rw [if_neg parameter, if_neg parameter]
      by_cases letter : d.isAlpha = true
      · rw [if_pos letter, if_pos letter]
        rfl
      · rw [if_neg letter, if_neg letter]
        rfl

/-- So it is for a whole sequence. -/
theorem afterSequence?_breaks (d : Char) (cs rest : List Char) :
    Ansi.afterSequence? (d :: (cs ++ c :: rest)) = (Ansi.afterSequence? (d :: cs)).map (· ++ c :: rest) := by
  by_cases starts : d = Ansi.escape
  · subst starts
    cases cs with
    | nil =>
      rw [List.nil_append, afterSequence?_unopened h.1]
      rfl
    | cons next cs =>
      by_cases opened : next = '['
      · subst opened
        exact afterParameters?_breaks h cs rest
      · rw [List.cons_append, afterSequence?_unopened opened, afterSequence?_unopened opened]
        rfl
  · rw [afterSequence?_unescaped starts, afterSequence?_unescaped starts]
    rfl

/-- Such a character cuts a text in two that can be cleared of sequences apart. -/
theorem stripChars_breaks (cs rest : List Char) :
    Ansi.stripChars (cs ++ c :: rest) = Ansi.stripChars cs ++ Ansi.stripChars (c :: rest) := by
  fun_induction Ansi.stripChars cs with
  | case1 cs after found _ ih =>
    cases cs with
    | nil => cases found
    | cons d cs =>
      have longer := afterSequence?_breaks h d cs rest
      rw [found, Option.map_some] at longer
      rw [List.cons_append, stripChars_sequence longer, ih]
  | case2 _ => rw [List.nil_append, List.nil_append]
  | case3 d cs none ih =>
    have longer := afterSequence?_breaks h d cs rest
    rw [none, Option.map_none] at longer
    rw [List.cons_append, stripChars_other longer, ih, List.cons_append]

end Breaks

/-! ### Parts of a text -/

/-- What is complete may be stripped on its own. -/
theorem Shows.strip_append {s plain : String} (h : Shows s plain) (t : String) :
    Ansi.strip (s ++ t) = plain ++ Ansi.strip t := by
  rw [Ansi.strip, String.toList_append, h, String.ofList_append, String.ofList_toList]
  rfl

/-- A sequence after a text is removed, whatever was begun in the text. -/
theorem strip_append_shows {code : String} (s : String) (removed : Shows code "")
    (starts : ∃ rest, code.toList = Ansi.escape :: rest) : Ansi.strip (s ++ code) = Ansi.strip s := by
  obtain ⟨rest, chars⟩ := starts
  have cut := stripChars_breaks (c := Ansi.escape) (by decide) s.toList rest
  have nothing := removed []
  rw [List.append_nil, stripChars_nil, List.append_nil, chars] at nothing
  rw [nothing] at cut
  rw [Ansi.strip, String.toList_append, chars, cut]
  simp [Ansi.strip]

/-- A text between others that cuts them apart, as one character that is in no sequence. -/
theorem strip_append_breaks (between : String) {c : Char} (one : between.toList = [c]) (h : Breaks c)
    (plain : c ≠ Ansi.escape) (s t : String) :
    Ansi.strip (s ++ between ++ t) = Ansi.strip s ++ between ++ Ansi.strip t := by
  have chars : (s ++ between ++ t).toList = s.toList ++ c :: t.toList := by simp [one]
  apply String.toList_injective
  rw [Ansi.strip, chars, stripChars_breaks h, stripChars_cons plain]
  simp [Ansi.strip, one]

/-- Lines are cleared of styling one by one. -/
theorem strip_lines (lines : List String) :
    Ansi.strip ("\n".intercalate lines) = "\n".intercalate (lines.map Ansi.strip) := by
  induction lines with
  | nil => exact strip_unstyled (by decide)
  | cons line rest ih =>
    cases rest with
    | nil => rfl
    | cons next rest =>
      rw [String.intercalate_cons_cons, strip_append_breaks _ rfl (by decide) (by decide), ih]
      exact (String.intercalate_cons_cons).symm

/-! ### Excerpts -/

namespace Excerpt

/-- An excerpt with the styling in its own parts removed. -/
def plain (e : Excerpt) : Excerpt :=
  { e with
    expected := Ansi.strip e.expected, name := Ansi.strip e.name, sourceLine := Ansi.strip e.sourceLine
    got := Ansi.strip e.got }

section Lines

variable (color : Bool)

/-- A style shows nothing. -/
theorem shows_style (parameters : String) (all : parameters.toList.all Ansi.isParameter = true) :
    Shows (style color parameters) "" := by
  cases color with
  | false => exact shows_self List.not_mem_nil
  | true => exact shows_code all

/-- A style after a text is removed, whatever was begun in the text. -/
theorem strip_append_style {parameters : String} (all : parameters.toList.all Ansi.isParameter = true)
    (s : String) : Ansi.strip (s ++ style color parameters) = Ansi.strip s := by
  cases color with
  | false => exact congrArg Ansi.strip String.append_empty
  | true => exact strip_append_shows s (shows_code all) ⟨_, String.toList_ofList⟩

theorem shows_literal {s : String} (h : Printable s.toList) : Shows s s := shows_self h.unstyled

theorem shows_rightAligned (width n : Nat) : Shows (rightAligned width n) (rightAligned width n) := by
  refine shows_literal ?_
  unfold rightAligned
  rw [String.toList_append, String.toList_ofList]
  exact (Printable.replicate _ (by decide)).append (repr_printable n)

theorem shows_margin : Shows ("  " ++ style color "1;34") ("  " ++ "") :=
  (shows_literal (by decide)).append (shows_style color _ (by decide))

theorem shows_bar : Shows ("  " ++ style color "1;34" ++ "     |" ++ style color "0")
    ("  " ++ "" ++ "     |" ++ "") :=
  ((shows_margin color).append (shows_literal (by decide))).append (shows_style color _ (by decide))

/-- The lines of an excerpt, one after the other: the message, the place, the source line, the caret and the
note. -/
theorem strip_header (expected : String) :
    Ansi.strip (style color "1;31" ++ "error" ++ style color "0" ++ style color "1" ++ ": expected " ++ expected ++
      style color "0") = "" ++ "error" ++ "" ++ "" ++ ": expected " ++ Ansi.strip expected ++ "" := by
  have error : Shows (style color "1;31" ++ "error") ("" ++ "error") :=
    (shows_style color _ (by decide)).append (shows_literal (by decide))
  have front := ((error.append (shows_style color "0" (by decide))).append
    (shows_style color "1" (by decide))).append
      (shows_literal (s := ": expected ") (by decide))
  rw [strip_append_style color (by decide), front.strip_append]
  exact (String.append_empty).symm

theorem strip_arrow (name : String) (line column : Nat) :
    Ansi.strip ("  " ++ style color "1;34" ++ "-->" ++ style color "0" ++ " " ++ name ++ ":" ++ toString line ++
      ":" ++ toString column) =
        "  " ++ "" ++ "-->" ++ "" ++ " " ++ Ansi.strip name ++ ":" ++ toString line ++ ":" ++ toString column := by
  have arrow := (shows_margin color).append (shows_literal (s := "-->") (by decide))
  have front := (arrow.append (shows_style color "0" (by decide))).append
    (shows_literal (s := " ") (by decide))
  have cut := fun s t => strip_append_breaks ":" rfl (by decide) (by decide) s t
  have number : ∀ n : Nat, Ansi.strip (toString n) = toString n := fun n =>
    strip_unstyled (repr_printable n).unstyled
  rw [cut, cut, front.strip_append, number, number]

theorem strip_source (line : Nat) (sourceLine : String) :
    Ansi.strip ("  " ++ style color "1;34" ++ rightAligned 4 line ++ " |" ++ style color "0" ++ " " ++
      sourceLine) = "  " ++ "" ++ rightAligned 4 line ++ " |" ++ "" ++ " " ++ Ansi.strip sourceLine := by
  have gutter := ((shows_margin color).append (shows_rightAligned 4 line)).append
    (shows_literal (s := " |") (by decide))
  exact ((gutter.append (shows_style color _ (by decide))).append (shows_literal (by decide))).strip_append _

theorem strip_caret (spaces : Nat) :
    Ansi.strip ("  " ++ style color "1;34" ++ "     |" ++ style color "0" ++ " " ++
      String.ofList (List.replicate spaces ' ') ++ style color "1;31" ++ "^" ++ style color "0") =
        "  " ++ "" ++ "     |" ++ "" ++ " " ++ String.ofList (List.replicate spaces ' ') ++ "" ++ "^" ++ "" := by
  have blanks : Printable (String.ofList (List.replicate spaces ' ')).toList := by
    rw [String.toList_ofList]
    exact Printable.replicate _ (by decide)
  have indented := ((shows_bar color).append (shows_literal (s := " ") (by decide))).append (shows_literal blanks)
  exact (((indented.append (shows_style color _ (by decide))).append (shows_literal (by decide))).append
    (shows_style color _ (by decide))).strip

theorem strip_note (got : String) :
    Ansi.strip ("  " ++ style color "1;34" ++ "=" ++ style color "0" ++ " note: got " ++ got) =
      "  " ++ "" ++ "=" ++ "" ++ " note: got " ++ Ansi.strip got := by
  have sign := (shows_margin color).append (shows_literal (s := "=") (by decide))
  exact ((sign.append (shows_style color _ (by decide))).append (shows_literal (by decide))).strip_append _

/-- Without styling an excerpt is the plain excerpt of its parts without styling, in colours or not. -/
theorem strip_text (e : Excerpt) : Ansi.strip (e.text color) = e.plain.text false := by
  have lines : (e.lines color).map Ansi.strip = e.plain.lines false := by
    unfold lines
    simp only [List.map_cons, List.map_nil, strip_header, strip_arrow, (shows_bar color).strip, strip_source,
      strip_caret, strip_note]
    rfl
  rw [text, strip_lines, lines, text]

end Lines

end Excerpt

/-! ### The command -/

def excerptOf (context text outcome name : Value) : Eval Excerpt := do
  let lines ← match ← newSource text name with
    | .source s _ => pure (Text.lines s)
    | _ => raise .missingAttribute
  let index ← attributeOf outcome "index"
  let (line, column) ← placeOf text index
  let expected ← expectedText (← attributeOf outcome "value")
  let name ← textOf name
  let got ← gotText text index context
  return ⟨expected, name, line, column, Text.lineAt lines line, got⟩

/-- A failure is rendered by showing its excerpt in the colours that are asked for. -/
theorem renderFailure_excerpt (color context text outcome name : Value) :
    renderFailure color context text outcome name =
      (do let e ← excerptOf context text outcome name
          return e.text (← truthy color)) := by
  unfold renderFailure excerptOf
  simp only [bind_assoc, pure_bind]
  refine bind_congr fun source => ?_
  cases source <;> simp only [bind_assoc, pure_bind]

namespace Command

/-- What is left to do for a request once its settings are known. -/
def parseUnder (m : Machine) (r : Request) (settings : Value) : Eval Parsed := do
  let (context, pad, color, errorContext, errorColor) ← settingOf settings
  let grammar ← Script.loadGrammar m (.str r.grammar)
  let env ← environmentOf r.environment
  let x : Prepared := ⟨context, pad, color, errorContext, errorColor, grammar, env⟩
  let parser ← x.parser r.trace
  announce r
  x.conclude r (← m.call parser [.str r.text, x.environment])

/-- A request first finds its settings, and then parses under them. -/
theorem parseRequest_under (m : Machine) (r : Request) :
    parseRequest m r = settingsFor r.config >>= parseUnder m r := by
  rw [parseRequest_eq]
  unfold prepare parseUnder
  simp only [bind_assoc, pure_bind]

theorem runRequest_written (m : Machine) (t : FileTree) (verbose : Bool) (r : Request) :
    runRequest m t verbose r = written verbose (parseRequest m r (opened t)) := rfl

section Written

variable {verbose : Bool}

/-- What is written about two evaluations is the same if it is after each first part. -/
theorem written_bind {α : Type} {y : Eval α} {f g : α → Eval Parsed}
    (same : ∀ a τ, written verbose (f a τ) = written verbose (g a τ)) (σ : Store) :
    written verbose ((y >>= f) σ) = written verbose ((y >>= g) σ) := by
  cases ended : y σ with
  | ok a τ => rw [bind_ok ended, bind_ok ended, same]
  | error e τ => rw [bind_error ended, bind_error ended]

/-- The command clears a diagnostic of styling before it is written. -/
theorem written_failure (color other : Bool) (e : Excerpt) (σ : Store) :
    written verbose (.ok (.failure (e.text color)) σ) = written verbose (.ok (.failure (e.text other)) σ) := by
  unfold written
  simp only [Excerpt.strip_text]

/-- A conclusion is written the same way whatever colour diagnostics have. -/
theorem written_conclude (x : Prepared) (other : Value) (r : Request) (outcome : Value) (σ : Store) :
    written verbose (x.conclude r outcome σ) =
      written verbose ({ x with errorColor := other }.conclude r outcome σ) := by
  unfold Prepared.conclude
  simp only [renderFailure_excerpt]
  refine written_bind (fun result τ => ?_) σ
  refine written_bind (y := truthy result.status) (fun matched υ => ?_) τ
  by_cases yes : matched = true
  · rw [if_pos yes, if_pos yes]
  · rw [if_neg yes, if_neg yes]
    simp only [bind_assoc, pure_bind]
    refine written_bind (fun e υ' => ?_) υ
    exact written_failure (υ'.view x.errorColor).isTruthy (υ'.view other).isTruthy e υ'

/-- What is written under some settings is written under the same with another colour for diagnostics. -/
theorem written_parseUnder (m : Machine) (r : Request) (a b c d color other : Value) (σ : Store) :
    written verbose (parseUnder m r (.settings a b c d color) σ) =
      written verbose (parseUnder m r (.settings a b c d other) σ) := by
  have parts : ∀ e, settingOf (.settings a b c d e) σ = .ok (a, b, c, d, e) σ := fun _ => rfl
  unfold parseUnder
  rw [bind_ok (parts color), bind_ok (parts other)]
  refine written_bind (fun grammar τ => ?_) σ
  refine written_bind (fun env υ => ?_) τ
  refine written_bind (fun parser τ' => ?_) υ
  refine written_bind (fun _ υ' => ?_) τ'
  refine written_bind (fun outcome τ => ?_) υ'
  exact written_conclude ⟨a, b, c, d, color, grammar, env⟩ other r outcome τ

end Written

/-- Whatever texts a failure brings together, its rendering in colours and the one without show the same
text once styling is removed.  So a command that was told its settings writes what it would write with any
other colour for diagnostics, to each of its outputs. -/
theorem diagnostics_colorless :
    (∀ (text name : String) (index : Int) (expected : List String) (context : Int),
      ∃ colored plain,
        renderFailure (.bool true) (.int context) (.str text) (Attempt.missed index expected).value (.str name) =
          pure colored ∧
        renderFailure (.bool false) (.int context) (.str text) (Attempt.missed index expected).value (.str name) =
          pure plain ∧
        Ansi.strip colored = Ansi.strip plain) ∧
    ∀ (m : Machine) (t : FileTree) (verbose : Bool) (r : Request) (a b c d color : Value) (σ : Store),
      settingsFor r.config (opened t) = .ok (.settings a b c d color) σ → ∀ other : Value,
        runRequest m t verbose r = written verbose (parseUnder m r (.settings a b c d other) σ) := by
  constructor
  · intro text name index expected context
    refine ⟨_, _, renderFailure_missed true text name index expected context,
      renderFailure_missed false text name index expected context, ?_⟩
    rw [Excerpt.strip_text, Excerpt.strip_text]
  · intro m t verbose r a b c d color σ settings other
    rw [runRequest_written, parseRequest_under, bind_ok settings]
    exact written_parseUnder m r a b c d color other σ

/-- A request to parse some text with a parser of the library, without a configuration file. -/
private def begunRequest : Request := ⟨"partser:any_char", "in\x1b[", "ab", none, false, none⟩

/-- Sequences that were begun and not ended in all parts of a diagnostic, and a run under the usual settings. -/
theorem diagnostics_colorless_begun :
    (∃ colored plain,
      renderFailure (.bool true) (.int 10) (.str "a\x1b[3") (Attempt.missed 1 ["'x\x1b[", "\x1b"]).value
        (.str "in\x1b[") = pure colored ∧
      renderFailure (.bool false) (.int 10) (.str "a\x1b[3") (Attempt.missed 1 ["'x\x1b[", "\x1b"]).value
        (.str "in\x1b[") = pure plain ∧
      Ansi.strip colored = Ansi.strip plain) ∧
    settingsFor begunRequest.config (opened {}) =
      .ok (.settings (.int 10) (.bool false) .none (.int 10) (.bool true))
        { opened {} with notes := ["partser.config: no partser.toml found, using defaults"] } ∧
    runRequest Script.mainMachine {} false begunRequest =
      written false (parseUnder Script.mainMachine begunRequest
        (.settings (.int 10) (.bool false) .none (.int 10) (.bool false))
        { opened {} with notes := ["partser.config: no partser.toml found, using defaults"] }) := by
  have usual : settingsFor begunRequest.config (opened {}) =
      .ok (.settings (.int 10) (.bool false) .none (.int 10) (.bool true))
        { opened {} with notes := ["partser.config: no partser.toml found, using defaults"] } := rfl
  exact ⟨diagnostics_colorless.1 _ _ _ _ _, usual,
    diagnostics_colorless.2 Script.mainMachine {} false begunRequest _ _ _ _ _ _ usual (.bool false)⟩

end Command

end Rebind
