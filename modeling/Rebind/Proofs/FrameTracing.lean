import Rebind.Proofs.Frame
/-!
# Traced runs in which a parser has no part

What printing handlers do while a grammar runs that does without functions of the user.  Of parsers they
read display names, and only those of the parsers that they hear of.  Apart from that they show the text,
the index and the result, which hold no parsers, and how errors are called, which is the same whatever the
parsers are.  So a run with all that is printed and reported of it does not notice a parser to which the
grammar does not lead.
-/
namespace Rebind

open Store in
/-- How the kind of a value is called depends on what is found on the way into changed objects, and on no
parser. -/
theorem kindName_snapshotWith {σ : Store} (t : ParserId) (state : ParserState)
    {later later' : List Nat → Option Nat → Value → Datum}
    (same : ∀ inside identity u, (later' inside identity u).kindName = (later inside identity u).kindName) :
    ∀ (v : Value) (inside : List Nat) (identity : Option Nat),
      ((σ.setParser t state).snapshotWith later' inside identity v).kindName =
        (σ.snapshotWith later inside identity v).kindName
  | .object id v, inside, identity => by
    simp only [snapshotWith, setParser]
    split
    · rfl
    · split
      · exact same _ _ _
      · exact kindName_snapshotWith t state same v _ _
  | .mismatch text found name message, inside, identity => by
    unfold snapshotWith
    split <;> rfl
  | .none, _, _ | .bool _, _, _ | .int _, _, _ | .float _, _, _ | .str _, _, _ | .list _, _, _
  | .tuple _, _, _ | .dict _, _, _ | .set _, _, _ | .parser _, _, _ | .behaviour _, _, _
  | .result _ _ _, _, _ | .mark _ _ _, _, _ | .lineColumn _ _ _, _, _ | .pattern _, _, _ | .path _, _, _
  | .moment _, _, _ | .handler _, _, _ | .echo _, _, _ | .settings _ _ _ _ _, _, _ | .source _ _, _, _
  | .renderer _ _, _, _ | .error _, _, _ => rfl
  | .closure _ _ _ title _, _, _ => by cases title <;> rfl

/-- The kind of a value does not depend on the parsers. -/
theorem kindName_snapshot (σ : Store) (t : ParserId) (state : ParserState) (v : Value) :
    ((σ.setParser t state).snapshot v).kindName = (σ.snapshot v).kindName := by
  have every : ∀ depth inside identity u,
      ((σ.setParser t state).snapshotTo depth inside identity u).kindName =
        (σ.snapshotTo depth inside identity u).kindName := by
    intro depth
    induction depth with
    | zero => exact fun inside identity u => kindName_snapshotWith t state (fun _ _ _ => rfl) u _ _
    | succ depth ih => exact fun inside identity u => kindName_snapshotWith t state ih u _ _
  have size : (σ.setParser t state).parsers.size = σ.parsers.size := Array.size_setIfInBounds
  unfold Store.snapshot
  rw [size]
  exact every _ _ _ _

/-! ### Printing handlers -/

section Printing

variable {σ₀ σ : Store} {t : ParserId} {state : ParserState} {α : Type} {P : α → Prop} {m : Machine}
  {id : HandlerId} {s : EchoState} {p : ParserId} {text env i v handler : Value}

/-- A run of a parser other than `t` of which a printing handler hears that was in some state at first. -/
structure Printed (σ₀ : Store) (t : ParserId) (id : HandlerId) (s : EchoState) (p : ParserId)
    (text i : Value) : Prop where
  known : σ₀.echoes[id]? = some s
  inert : s.IsInert σ₀
  other : p ≠ t
  named : ∀ state, σ₀.parser? p = some state → state.displayName.Parserless σ₀
  text : text.Parserless σ₀
  index : i.Parserless σ₀

theorem EchoState.IsInert.move (inert : s.IsInert σ) {depth : Value} (plain : depth.IsPlain) :
    EchoState.IsInert σ { s with depth := depth } :=
  ⟨inert.onEnter, inert.onExit, inert.context, inert.padIfShort, inert.color, plain⟩

/-- A printing handler stays as it was up to its depth. -/
theorem Store.During.echo (during : σ₀.During σ) (known : σ₀.echoes[id]? = some s)
    (inert : s.IsInert σ₀) :
    ∃ depth, Value.IsPlain depth ∧ σ.echoes[id]? = some { s with depth := depth } := by
  rcases during.echoes id with same | ⟨s', depth, before, _, plain, now⟩
  · exact ⟨s.depth, inert.depth, same.trans known⟩
  · obtain rfl := Option.some.inj (known.symm.trans before)
    exact ⟨depth, plain, now⟩

theorem ignores_echoOf (known : σ₀.echoes[id]? = some s) (inert : s.IsInert σ₀) :
    Ignores σ₀ t state (fun now => ∃ depth, Value.IsPlain depth ∧ now = { s with depth := depth })
      (Trace.echoOf id) := by
  intro σ during
  obtain ⟨depth, plain, now⟩ := during.echo known inert
  exact Ends.of_eq_ok (echoOf_eq now) ⟨echoOf_eq now, ⟨depth, plain, rfl⟩, during⟩

/-- A handler that moves to another depth. -/
theorem Store.During.setEcho (during : σ₀.During σ) (known : σ₀.echoes[id]? = some s)
    (inert : s.IsInert σ₀) {depth : Value} (plain : depth.IsPlain) :
    σ₀.During (σ.setEcho id { s with depth := depth }) := by
  obtain ⟨_, _, now⟩ := during.echo known inert
  have there : id < σ.echoes.size := (Array.getElem?_eq_some_iff.mp now).1
  refine ⟨during.parsers, during.edits, fun other => ?_, during.tracers⟩
  by_cases same : id = other
  · subst same
    refine .inr ⟨s, depth, known, inert.depth, plain, ?_⟩
    exact Array.getElem?_setIfInBounds_self_of_lt there
  · simp only [Store.setEcho, Array.getElem?_setIfInBounds_ne same]
    exact during.echoes other

/-- A change of a depth: it makes plain data out of such, or refuses to. -/
def ChangesDepth (change : Value → Value → Eval Value) : Prop :=
  ∀ depth : Value, depth.IsPlain →
    (∃ w, Value.IsPlain w ∧ change depth (.int 1) = pure w) ∨ change depth (.int 1) = raise .wrongType

theorem changesDepth_addTo : ChangesDepth addTo := by
  intro depth plain
  cases depth with
  | bool _ | int _ | float _ =>
    refine .inl ⟨_, ?_, rfl⟩
    trivial
  | none | str _ => exact .inr rfl
  | _ => exact plain.elim

theorem changesDepth_subtractFrom : ChangesDepth subtractFrom := by
  intro depth plain
  cases depth with
  | bool _ | int _ | float _ =>
    refine .inl ⟨_, ?_, rfl⟩
    trivial
  | none | str _ => exact .inr rfl
  | _ => exact plain.elim

/-- What a printing handler does on the way, one function after the other. -/
theorem ignores_changeDepth (known : σ₀.echoes[id]? = some s) (inert : s.IsInert σ₀)
    {change : Value → Value → Eval Value} (changes : ChangesDepth change) :
    Ignores σ₀ t state (fun _ => True) (Trace.changeDepth id change) := by
  refine (ignores_echoOf known inert).bind ?_
  rintro now ⟨depth, plain, rfl⟩
  rcases changes depth plain with ⟨w, plain', same⟩ | same
  · simp only [same, pure_bind]
    exact ignores_modify (fun _ => rfl) fun σ during => during.setEcho known inert plain'
  · simp only [same]
    exact ignores_raise .wrongType

theorem ignores_echo {color : Value} (free : color.Parserless σ₀) (line : String) :
    Ignores σ₀ t state (fun _ => True) (Trace.echo color line) := by
  have printed : ∀ line, Ignores σ₀ t state (fun _ => True) (printLine line) := fun line =>
    ignores_modify (fun _ => rfl) fun σ during => during.congr rfl rfl rfl during.tracers
  refine (ignores_truthy free).bind fun colored _ => ?_
  split
  · exact printed _
  · exact printed _

theorem ignores_charOf (h : v.Parserless σ₀) : Ignores σ₀ t state (fun _ => True) (Trace.charOf v) := by
  refine (ignores_view h).bind fun u _ => ?_
  split
  · split
    · exact ignores_pure trivial
    · exact ignores_raise _
  · exact ignores_raise _

theorem ignores_wholeOf (h : v.Parserless σ₀) : Ignores σ₀ t state (fun _ => True) (Trace.wholeOf v) := by
  refine (ignores_view h).bind fun u _ => ?_
  split
  · exact ignores_pure trivial
  · exact ignores_raise _

theorem ignores_charsOf {items : List Value} (h : ∀ u ∈ items, u.Parserless σ₀) :
    Ignores σ₀ t state (fun _ => True) (items.mapM Trace.charOf) := by
  induction items with
  | nil => exact ignores_pure trivial
  | cons u rest ih =>
    rw [List.mapM_cons]
    refine (ignores_charOf (h u (List.mem_cons_self ..))).bind fun c _ => ?_
    exact (ih fun w member => h w (List.mem_cons_of_mem _ member)).bind fun cs _ => ignores_pure trivial

theorem ignores_lineStartOf (inert : s.IsInert σ₀) (event : Trace.Event) {stop : Value}
    (ht : text.Parserless σ₀) (hi : i.Parserless σ₀) (hs : stop.Parserless σ₀) :
    Ignores σ₀ t state (fun _ => True) (Trace.lineStartOf s event text i stop) := by
  refine (ignores_lengthOf ht).bind fun size _ => (ignores_wholeOf inert.context).bind fun width _ => ?_
  refine (ignores_wholeOf hi).bind fun offset _ => (ignores_boundOf hs).bind fun bound _ => ?_
  refine (ignores_sliceOf ht (parserless_int _) (parserless_int _)).bind fun shown free => ?_
  have rest : ∀ cs : List Char, Ignores σ₀ t state (fun _ => True) (do
      let depth ← Trace.wholeOf s.depth
      return Trace.lineStart event width (← truthy s.padIfShort) depth size offset bound cs) := fun cs =>
    (ignores_wholeOf inert.depth.parserless).bind fun depth _ =>
      (ignores_truthy inert.padIfShort).bind fun pad _ => ignores_pure trivial
  split
  · exact rest _
  · exact (ignores_itemsOf free).bind fun items known => (ignores_charsOf known).bind fun cs _ => rest cs

theorem ignores_placeText (ht : text.Parserless σ₀) (hi : i.Parserless σ₀) :
    Ignores σ₀ t state (fun _ => True) (Trace.placeText text i) := by
  have place : Ignores σ₀ t state (fun _ => True) (placeOf text i) := by
    refine (ignores_lineColumnOf ht hi).bind fun place _ => ?_
    split
    · exact ignores_pure trivial
    · exact ignores_raise _
  exact place.bind fun place _ => ignores_pure trivial

/-- The name of a parser is read where the parser keeps it. -/
theorem ignores_nameText (different : p ≠ t)
    (named : ∀ s, σ₀.parser? p = some s → s.displayName.Parserless σ₀) :
    Ignores σ₀ t state (fun _ => True) (Trace.nameText (.parser p)) := by
  have name : Ignores σ₀ t state (Value.Parserless σ₀) (attributeOf (.parser p) "display_name") := by
    intro σ during
    have now : σ.parser? p = σ₀.parser? p := by simp only [Store.parser?, during.parsers]
    have read : ∀ τ : Store, attributeOf (.parser p) "display_name" τ =
        .ok (((τ.parser? p).map (·.displayName)).getD .none) τ := fun _ => rfl
    refine Ends.of_eq_ok (read σ) ⟨?_, ?_, during⟩
    · rw [read, parser?_setParser_ne state different]
    · rw [now]
      cases known : σ₀.parser? p with
      | none => exact parserless_none
      | some s => exact named s known
  refine name.bind fun name free => (ignores_textOf free).bind fun shown _ => ?_
  exact (ignores_truthy free).bind fun visible _ => ignores_pure trivial

theorem ignores_jsonOf (separators : Json.Separators) (h : v.Parserless σ₀) :
    Ignores σ₀ t state (fun _ => True) (Trace.jsonOf separators v) := by
  refine (ignores_shown h).bind fun d _ => ?_
  split
  · exact ignores_pure trivial
  · exact ignores_raise _

/-- Without a callback every event is printed. -/
theorem ignores_consult {callback : Value} (none : (σ₀.view callback).isTruthy = false)
    (arguments : List Value) :
    Ignores σ₀ t state (· = .bool true) (Trace.consult m callback arguments) := by
  intro σ during
  have asked : ∀ τ : Store, (τ.view callback).isTruthy = false →
      Trace.consult m callback arguments τ = .ok (.bool true) τ := by
    intro τ falsy
    have answer : truthy callback τ = .ok false τ := by rw [← falsy]; rfl
    unfold Trace.consult
    rw [bind_ok answer]
    rfl
  have now : (σ.view callback).isTruthy = false := by rw [during.view]; exact none
  exact Ends.of_eq_ok (asked σ now) ⟨asked _ now, rfl, during⟩

/-- Where every event is printed there is nothing to add to a line. -/
theorem ignores_echoExtra (color : Value) (start : String) :
    Ignores σ₀ t state (fun _ => True) (Trace.echoExtra color start (.bool true)) :=
  ignores_pure (a := ()) trivial

theorem ignores_echoEnter (h : Printed σ₀ t id s p text i) :
    Ignores σ₀ t state (fun _ => True) (Trace.echoEnter m id (.parser p) text i env) := by
  have deeper : Ignores σ₀ t state (fun _ => True) (Trace.changeDepth id addTo) :=
    ignores_changeDepth h.known h.inert changesDepth_addTo
  refine (ignores_echoOf h.known h.inert).bind ?_
  rintro now ⟨_, _, rfl⟩
  refine (ignores_consult h.inert.onEnter _).bind ?_
  rintro _ rfl
  refine (ignores_truthy (parserless_bool true)).bind fun wanted _ => ?_
  split
  · refine (ignores_echoOf h.known h.inert).bind ?_
    rintro now ⟨depth, plain, rfl⟩
    refine (ignores_lineStartOf (h.inert.move plain) _ h.text h.index parserless_none).bind fun start _ => ?_
    refine (ignores_placeText h.text h.index).bind fun place _ => ?_
    refine (ignores_nameText h.other h.named).bind fun name _ => ?_
    refine (ignores_echo h.inert.color _).bind fun _ _ => ?_
    exact (ignores_echoExtra _ _).bind fun _ _ => deeper
  · exact deeper

theorem ignores_okayText {stop : Value} (ht : text.Parserless σ₀) (hi : i.Parserless σ₀)
    (hs : stop.Parserless σ₀) : Ignores σ₀ t state (fun _ => True) (Trace.okayText text i stop) := by
  refine (ignores_sliceOf ht hi hs).bind fun consumed free => ?_
  refine (ignores_jsonOf _ free).bind fun json _ => ?_
  exact (ignores_lengthOf free).bind fun size _ => ignores_pure trivial

/-- The parts of what a run returns are read off it. -/
theorem ignores_partOf (h : v.IsOutcome σ₀) (part : String) (one : part ∈ ["status", "index", "value"]) :
    Ignores σ₀ t state (Value.Parserless σ₀) (attributeOf v part) := by
  simp only [List.mem_cons, List.not_mem_nil, or_false] at one
  obtain ⟨free, rfl | ⟨a, b, c, rfl⟩⟩ := h
  · rcases one with rfl | rfl | rfl
    · exact ignores_raise _
    · exact ignores_raise _
    · exact ignores_raise _
  · obtain ⟨ha, hb, hc⟩ := free.three rfl
    rcases one with rfl | rfl | rfl
    · exact ignores_pure ha
    · exact ignores_pure hb
    · exact ignores_pure hc

theorem ignores_echoExit (h : Printed σ₀ t id s p text i) (hv : v.IsOutcome σ₀) :
    Ignores σ₀ t state (fun _ => True) (Trace.echoExit m id (.parser p) text i env v) := by
  refine (ignores_changeDepth h.known h.inert changesDepth_subtractFrom).bind fun _ _ => ?_
  refine (ignores_echoOf h.known h.inert).bind ?_
  rintro now ⟨_, _, rfl⟩
  refine (ignores_consult h.inert.onExit _).bind ?_
  rintro _ rfl
  refine (ignores_truthy (parserless_bool true)).bind fun wanted _ => ?_
  split
  swap
  · exact ignores_pure trivial
  refine (ignores_echoOf h.known h.inert).bind ?_
  rintro now ⟨depth, plain, rfl⟩
  refine (ignores_nameText h.other h.named).bind fun name _ => ?_
  have last : ∀ start ending, Ignores σ₀ t state (fun _ => True) (do
      let place ← Trace.placeText text i
      Trace.echo s.color (start ++ place ++ " " ++ name ++ " " ++ ending)
      Trace.echoExtra s.color start (.bool true)) := fun start ending =>
    (ignores_placeText h.text h.index).bind fun place _ =>
      (ignores_echo h.inert.color _).bind fun _ _ => ignores_echoExtra _ _
  refine (ignores_partOf hv "status" (by simp)).bind fun status free => ?_
  refine (ignores_truthy free).bind fun succeeded _ => ?_
  split
  · refine (ignores_partOf hv "index" (by simp)).bind fun stop free => ?_
    refine (ignores_lineStartOf (h.inert.move plain) _ h.text h.index free).bind fun start _ => ?_
    exact (ignores_okayText h.text h.index free).bind fun okay _ => last start okay
  · refine (ignores_lineStartOf (h.inert.move plain) _ h.text h.index parserless_none).bind fun start _ => ?_
    refine (ignores_partOf hv "value" (by simp)).bind fun expected free => ?_
    exact (ignores_jsonOf _ free).bind fun json _ => last start ("FAIL " ++ json)

/-- Of an error only the name of its kind is printed, so it need not be without parsers. -/
theorem ignores_echoAbort (h : Printed σ₀ t id s p text i) (error : Value) :
    Ignores σ₀ t state (fun _ => True) (Trace.echoAbort id (.parser p) text i error) := by
  refine (ignores_changeDepth h.known h.inert changesDepth_subtractFrom).bind fun _ _ => ?_
  refine (ignores_echoOf h.known h.inert).bind ?_
  rintro now ⟨depth, plain, rfl⟩
  refine (ignores_lineStartOf (h.inert.move plain) _ h.text h.index parserless_none).bind fun start _ => ?_
  refine (ignores_placeText h.text h.index).bind fun place _ => ?_
  refine (ignores_nameText h.other h.named).bind fun name _ => ?_
  have kind : Ignores σ₀ t state (fun _ => True) (do return (← shown error).kindName) := by
    intro σ during
    have read : ∀ τ : Store, (do return (← shown error).kindName : Eval String) τ =
        .ok (τ.snapshot error).kindName τ := fun _ => rfl
    refine Ends.of_eq_ok (read σ) ⟨?_, trivial, during⟩
    rw [read, kindName_snapshot]
  have printed := kind.bind fun kind _ =>
    ignores_echo h.inert.color (start ++ place ++ " " ++ name ++ " RAISE " ++ kind)
  simp only [bind_assoc, pure_bind] at printed
  exact printed

end Printing

/-! ### Reports -/

section Reports

variable {σ₀ σ : Store} {t : ParserId} {state : ParserState} {α : Type} {P : α → Prop} {x : Eval α}
  {m : Machine} {id : HandlerId} {s : EchoState} {p : ParserId} {text env i v handler : Value}

theorem ignores_recording (h : Ignores σ₀ t state P x) (report : Except Value α → Trace.Report) :
    Ignores σ₀ t state P (Trace.recording x report) := by
  have recorded : ∀ τ r, σ₀.During τ → σ₀.During (τ.record r) := fun τ r later =>
    later.congr rfl rfl rfl later.tracers
  intro σ during
  refine ends_recording.mpr ((h σ during).mono ?_ ?_)
  · rintro a τ ⟨same, good, later⟩
    refine ⟨?_, good, recorded _ _ later⟩
    simp only [Trace.recording, same]
    rfl
  · rintro e τ ⟨same, later⟩
    cases e with
    | raised error =>
      refine ⟨?_, recorded _ _ later⟩
      simp only [Trace.recording, same]
      rfl
    | endless =>
      refine ⟨?_, later⟩
      simp only [Trace.recording, same]

/-- Reports ignore the replacement if the handler and what is reported on do. -/
theorem ignores_catching {handle : Value → Eval α} (h : Ignores σ₀ t state P x)
    (handles : ∀ error, Ignores σ₀ t state P (handle error)) :
    Ignores σ₀ t state P (Trace.catching x handle) := by
  intro σ during
  refine ends_catching.mpr ((h σ during).mono ?_ ?_)
  · rintro a τ ⟨same, good, later⟩
    refine ⟨?_, good, later⟩
    simp only [Trace.catching, same]
  · rintro e τ ⟨same, later⟩
    cases e with
    | raised error =>
      have continued : Trace.catching x handle (σ.setParser t state) = if error.isOrdinary then
          handle error (τ.setParser t state) else .error (.raised error) (τ.setParser t state) := by
        simp only [Trace.catching, same]
      rw [continued]
      dsimp only
      split
      · exact handles error τ later
      · exact ⟨rfl, later⟩
    | endless =>
      refine ⟨?_, later⟩
      simp only [Trace.catching, same]

/-- The handler that a visit reports to is found to be a printing one. -/
theorem ignores_printer (printer : σ₀.view handler = .echo id) :
    Ignores σ₀ t state (· = .echo id) (view handler) := by
  intro σ during
  have read : ∀ τ : Store, view handler τ = .ok (τ.view handler) τ := fun _ => rfl
  have now : σ.view handler = .echo id := (during.view handler).trans printer
  have now' : (σ.setParser t state).view handler = .echo id := now
  refine Ends.of_eq_ok (read σ) ⟨?_, now, during⟩
  rw [read, now, now']

theorem ignores_tell {visit : Trace.Visit} {name : String} {more : List Value}
    {report : Option Value → Trace.Report}
    (h : Ignores σ₀ t state (fun _ => True) (Trace.callMethod m visit.handler name
      ([visit.parser, visit.text, visit.index, visit.environment] ++ more))) :
    Ignores σ₀ t state (fun _ => True) (Trace.tell m visit name more report) :=
  (ignores_recording h _).bind fun _ _ => ignores_pure trivial

/-- Nobody but the handler gets to see what a handler without callbacks is given. -/
theorem ignores_presented (printer : σ₀.view handler = .echo id) (known : σ₀.echoes[id]? = some s)
    (inert : s.IsInert σ₀) (v : Value) : Ignores σ₀ t state (· = v) (Trace.presented m handler v) := by
  have shows : ∀ (τ : Store) (now : EchoState), τ.view handler = .echo id → τ.echoes[id]? = some now →
      (τ.view now.onExit).isTruthy = false → Trace.presented m handler v τ = .ok v τ := by
    intro τ now echo there falsy
    have seen : Trace.showsResults handler τ = .ok false τ := by
      have found : view handler τ = .ok (.echo id) τ := by rw [← echo]; rfl
      unfold Trace.showsResults
      rw [bind_ok found]
      simp only [bind_get, there]
      rw [← falsy]
      rfl
    unfold Trace.presented
    rw [bind_ok seen]
    rfl
  intro σ during
  obtain ⟨depth, _, now⟩ := during.echo known inert
  have echo : σ.view handler = .echo id := (during.view handler).trans printer
  have falsy : (σ.view s.onExit).isTruthy = false := by rw [during.view]; exact inert.onExit
  exact Ends.of_eq_ok (shows σ _ echo now falsy) ⟨shows _ _ echo now falsy, rfl, during⟩

/-- A printing handler hears of every error, which is then raised again. -/
theorem ignores_abort (h : Printed σ₀ t id s p text i) (printer : σ₀.view handler = .echo id)
    {P : Value → Prop} (error : Value) :
    Ignores σ₀ t state P (Trace.abort m ⟨handler, .parser p, text, i, env⟩ error) := by
  have hears : Ignores σ₀ t state (· = true) (Trace.hearsErrors handler) := by
    refine (ignores_printer printer).bind ?_
    rintro _ rfl
    exact ignores_pure rfl
  refine hears.bind ?_
  rintro _ rfl
  refine (ignores_presented printer h.known h.inert error).bind ?_
  rintro _ rfl
  refine (ignores_tell ?_).bind fun _ _ => ignores_throw _
  refine (ignores_printer printer).bind ?_
  rintro _ rfl
  exact (ignores_echoAbort h _).bind fun _ _ => ignores_pure trivial

/-- The reports of a run to a printing handler do not notice a parser that the run does not notice. -/
theorem ignores_report (h : Printed σ₀ t id s p text i) (printer : σ₀.view handler = .echo id)
    {body : Value → Value → Value → Eval Value}
    (runs : Ignores σ₀ t state (Value.IsOutcome σ₀) (body text i env)) :
    Ignores σ₀ t state (Value.IsOutcome σ₀)
      (Trace.report m handler (.parser p) body text i env) := by
  refine (ignores_tell ?_).bind fun _ _ => ?_
  · refine (ignores_printer printer).bind ?_
    rintro _ rfl
    exact (ignores_echoEnter h).bind fun _ _ => ignores_pure trivial
  refine (ignores_catching (ignores_recording runs _) fun error =>
    ignores_abort h printer error).bind fun outcome returned => ?_
  refine (ignores_presented printer h.known h.inert outcome).bind ?_
  rintro _ rfl
  refine (ignores_tell ?_).bind fun _ _ => ignores_pure returned
  refine (ignores_printer printer).bind ?_
  rintro _ rfl
  exact (ignores_echoExit h returned).bind fun _ _ => ignores_pure trivial

end Reports

/-! ### Runs -/

section Runs

variable {σ₀ : Store} {t : ParserId} {state : ParserState} {m : Machine} {host : Host}
  {grammar : ParserId → Prop} {p : ParserId} {text env i : Value}

/-- A behaviour of the grammar ignores the replacement. -/
theorem ignores_invoke (hm : m.Ignores σ₀ t state grammar text env) (apart : Apart σ₀ t grammar)
    (inside : grammar p) {s : ParserState} (known : σ₀.parser? p = some s) (ht : text.Parserless σ₀)
    (hi : i.Parserless σ₀) :
    Ignores σ₀ t state (Value.IsOutcome σ₀) (invoke host m s.behaviour [text, i, env]) := by
  by_cases callable : s.behaviour.content.IsFunction
  · obtain ⟨b, does, inert⟩ := (apart.inert p s inside known).behaviour callable
    have called : invoke host m s.behaviour [text, i, env] = behave m b text i env := by
      unfold invoke
      rw [does]
    have now : σ₀.behaviour? p = some b := by
      simp only [Store.behaviour?, known, Option.bind_some, does]
    rw [called]
    exact ignores_behave hm inert (fun q member => apart.closed p b q inside now member) ht hi
  · rw [invoke_other callable]
    exact ignores_raise _

theorem ignores_runCurrent (hm : m.Ignores σ₀ t state grammar text env) (apart : Apart σ₀ t grammar)
    (inside : grammar p) (ht : text.Parserless σ₀) (hi : i.Parserless σ₀) :
    Ignores σ₀ t state (Value.IsOutcome σ₀) (runCurrent host m p text i env) := by
  have different : p ≠ t := fun same => apart.other (same ▸ inside)
  intro σ during
  have now : σ.parser? p = σ₀.parser? p := by simp only [Store.parser?, during.parsers]
  have now' := (parser?_setParser_ne state different).trans now
  cases known : σ₀.parser? p with
  | none =>
    refine Ends.congr (runCurrent_none text i env (now.trans known)) ?_
    rw [runCurrent_none text i env (now'.trans known)]
    exact ignores_raise _ σ during
  | some s =>
    refine Ends.congr (runCurrent_some text i env (now.trans known)) ?_
    rw [runCurrent_some text i env (now'.trans known)]
    exact ignores_invoke hm apart inside known ht hi σ during

/-- One machine up, runs of the grammar ignore the replacement. -/
theorem ignores_run_above (hm : m.Ignores σ₀ t state grammar text env) (apart : Apart σ₀ t grammar)
    (ht : text.Parserless σ₀) : (m.above host).Ignores σ₀ t state grammar text env := by
  intro p i inside hi σ during
  have runs : Ignores σ₀ t state (Value.IsOutcome σ₀) (runCurrent host m p text i env) :=
    ignores_runCurrent hm apart inside ht hi
  cases active : σ.tracers with
  | nil =>
    have active' : (σ.setParser t state).tracers = [] := active
    refine Ends.congr (run_untraced text i env active) ?_
    rw [run_untraced text i env active']
    exact runs σ during
  | cons handler rest =>
    have active' : (σ.setParser t state).tracers = handler :: rest := active
    obtain ⟨id, s, printer, known, inert⟩ := during.tracers handler (by simp [active])
    have heard : Printed σ₀ t id s p text i :=
      ⟨known, inert, fun same => apart.other (same ▸ inside),
        fun state there => (apart.inert p state inside there).name, ht, hi⟩
    refine Ends.congr (run_traced text i env active) ?_
    rw [run_traced text i env active']
    exact ignores_report heard printer runs σ during

/-- However deeply runs may nest, those of a grammar apart from a parser do not notice it. -/
theorem ignores_run (apart : Apart σ₀ t grammar) (ht : text.Parserless σ₀) (rounds depth : Nat) :
    (machine host rounds depth).Ignores σ₀ t state grammar text env := by
  induction depth with
  | zero => exact fun p i _ _ σ during => ⟨rfl, during.congr rfl rfl rfl during.tracers⟩
  | succ depth ih => exact ignores_run_above ih apart ht

theorem ignores_callParser (hm : m.Ignores σ₀ t state grammar text env) (inside : grammar p)
    (ht : text.Parserless σ₀) (hi : i.Parserless σ₀) :
    Ignores σ₀ t state (Value.IsOutcome σ₀) (callParser m p text env i) := by
  refine (hm p i inside hi).bind fun outcome returned => ?_
  refine ignores_decide returned.1 (fun r parts => ?_) fun r _ => ignores_pure returned
  refine (ignores_lengthOf ht).bind fun size _ => ?_
  refine (ignores_lessThan parts.2.1 (parserless_int size)).bind fun more _ => ?_
  split
  · exact ignores_mergeOver (isOutcome_failure parts.2.1 "EOF") returned
  · exact ignores_pure returned

/-- What does not notice a parser comes to the same after that parser was given another state. -/
theorem Ignores.outcome_eq {α : Type} {P : α → Prop} {x : Eval α} (h : Ignores σ₀ t state P x)
    (traced : ∀ handler ∈ σ₀.tracers, handler.Prints σ₀) :
    outcome (x (σ₀.setParser t state)) = outcome (x σ₀) := by
  have ended := h σ₀ (.refl traced)
  cases hx : x σ₀ with
  | ok a τ => rw [(ended.ok hx).1]; rfl
  | error e τ => rw [(ended.error hx).1]; rfl

end Runs

end Rebind
