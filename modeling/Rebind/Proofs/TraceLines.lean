import Rebind.Proofs.Caret
import Rebind.Proofs.FrameTracing
/-!
# The lines of a trace

On a text and a whole offset a printing handler without callbacks never fails: each call of it prints one line,
which says where in the text the parser was run, how it is called and what became of it, and moves the
handler by one step.
-/
namespace Rebind.Trace

/-- How a printing handler without callbacks prints. -/
structure Look where
  width : Int
  pad : Value
  color : Value

def Look.at (l : Look) (depth : Int) : EchoState :=
  ⟨.int l.width, l.pad, .none, .none, l.color, .int depth⟩

/-- What a trace line tells of the run of a parser. -/
inductive Told where
  | entered
  | matched (stop : Int)
  | missed (expected : List String)
  | raised (kind : String)

namespace Told

/-- What is told of an attempt. -/
def ofAttempt : Attempt → Told
  | .matched stop _ => .matched stop
  | .missed _ expected => .missed expected

def event : Told → Event
  | entered => .enter
  | matched _ => .okay
  | missed _ | raised _ => .fail

def stop : Told → Option Int
  | matched stop => some stop
  | _ => none

def words (text : List Char) (offset : Int) : Told → String
  | entered => "?"
  | matched stop =>
    let consumed := Slice.between text (some offset) (some stop)
    Ansi.styled green "OKAY" ++ " " ++ Ansi.styled yellow (Json.quoted (String.ofList consumed)) ++
      " (len " ++ toString (consumed.length : Int) ++ ")"
  | missed expected => "FAIL " ++ (Json.array (expected.map .str)).render Json.compact
  | raised kind => "RAISE " ++ kind

end Told

/-- The line that tells of the run of a parser at an offset, before its styling may be removed. -/
def traceLine (width : Int) (pad : Bool) (depth : Int) (text : List Char) (offset : Int) (name : String)
    (told : Told) : String :=
  let place := Text.position text (some offset)
  lineStart told.event width pad depth text.length offset told.stop (shownPart text offset width) ++
    (toString place.1 ++ "," ++ toString place.2) ++ " " ++ Ansi.styled blue name ++ " " ++
    told.words text offset

/-- Settings that are no objects, whose content could change. -/
structure Look.Steady (l : Look) : Prop where
  pad : ∀ σ : Store, σ.view l.pad = l.pad
  color : ∀ σ : Store, σ.view l.color = l.color

/-- A line of a trace as it is printed. -/
def Look.line (l : Look) (depth : Int) (text : String) (offset : Int) (name : String) (told : Told) : String :=
  let line := traceLine l.width l.pad.isTruthy depth text.toList offset name told
  if l.color.isTruthy then line else Ansi.strip line

/-- The name that a parser of a store is called by. -/
def IsCalled (σ : Store) (parser : Value) (name : String) : Prop :=
  ∃ p state, parser = .parser p ∧ σ.parser? p = some state ∧ state.displayName = .str name

/-- The depth that a handler comes to and the lines that it prints when it hears of some visits to the parsers of
a store, the latest report first: each call of it, in this order, moves it by one step and prints one line that
says what the call was about. -/
inductive Look.Narrates (l : Look) (handler : Value) (σ : Store) : List Report → Int → List String → Prop
  | nil : Narrates l handler σ [] 0 []
  | enter {reports depth lines parser text offset environment name}
    (earlier : Narrates l handler σ reports depth lines) (called : IsCalled σ parser name) :
    Narrates l handler σ (.enter ⟨handler, parser, .str text, .int offset, environment⟩ none :: reports)
      (depth + 1) (lines ++ [l.line depth text offset name .entered])
  | behaved {reports depth lines} (parser text offset environment : Value) (ended : Except Value Value)
    (earlier : Narrates l handler σ reports depth lines) :
    Narrates l handler σ (.behaved ⟨handler, parser, text, offset, environment⟩ ended :: reports) depth lines
  | exit {reports depth lines parser text offset environment name} (a : Attempt)
    (earlier : Narrates l handler σ reports depth lines) (called : IsCalled σ parser name) :
    Narrates l handler σ (.exit ⟨handler, parser, .str text, .int offset, environment⟩ a.value none :: reports)
      (depth - 1) (lines ++ [l.line (depth - 1) text offset name (.ofAttempt a)])
  | abort {reports depth lines parser text offset environment name} (error : Value) (τ : Store)
    (earlier : Narrates l handler σ reports depth lines) (called : IsCalled σ parser name) :
    Narrates l handler σ (.abort ⟨handler, parser, .str text, .int offset, environment⟩ error none :: reports)
      (depth - 1) (lines ++ [l.line (depth - 1) text offset name (.raised (τ.snapshot error).kindName)])

/-- The lines that were printed between two stores are what a handler tells of the visits that were put on record
between them, the first of which is known. -/
def Look.Recounts (l : Look) (handler : Value) (first : Report) (σ τ : Store) (lines : List String) : Prop :=
  ∃ later depth, τ.journal = later ++ first :: σ.journal ∧
    l.Narrates handler τ (later ++ [first]) depth lines

section Lines

variable {σ : Store} {l : Look} {depth : Int} {m : Machine} {id : HandlerId} {p : ParserId}
  {name : String} {s : String} {i : Int} {env : Value}

/-- On a text and a whole offset a line starts with the window on the text. -/
theorem lineStartOf_str {e : EchoState} {width depth : Int} (σ : Store)
    (wide : (σ.view e.context).toInt? = some width) (deep : (σ.view e.depth).toInt? = some depth)
    (event : Event) (s : String) (i : Int) (stop : Value) {bound : Option Int}
    (ends : boundOf stop = pure bound) :
    lineStartOf e event (.str s) (.int i) stop σ =
      .ok (lineStart event width (σ.view e.padIfShort).isTruthy depth s.toList.length i bound
        (shownPart s.toList i width)) σ := by
  have whole : ∀ {v : Value} {n : Int}, (σ.view v).toInt? = some n → wholeOf v σ = .ok n σ := by
    intro v n known
    have viewed : view v σ = .ok (σ.view v) σ := rfl
    unfold wholeOf
    rw [bind_ok viewed, known]
    rfl
  have at_offset : wholeOf (.int i) = pure i := rfl
  have slice : ∀ a b : Int, sliceOf (.str s) (.int a) (.int b) =
      pure (.str (String.ofList (Slice.between s.toList (some a) (some b)))) := fun _ _ => rfl
  unfold lineStartOf
  rw [lengthOf_str, pure_bind, bind_ok (whole wide)]
  simp only [at_offset, ends, slice, pure_bind, String.toList_ofList]
  rw [bind_ok (whole deep)]
  rfl

/-- How a line starts, as text. -/
theorem lineStartOf_eq (l : Look) (depth : Int) (event : Event) (s : String) (i : Int) (stop : Value)
    {bound : Option Int} (ends : boundOf stop = pure bound) (σ : Store) :
    lineStartOf (l.at depth) event (.str s) (.int i) stop σ =
      .ok (lineStart event l.width (σ.view l.pad).isTruthy depth s.toList.length i bound
        (shownPart s.toList i l.width)) σ :=
  lineStartOf_str (e := l.at depth) σ rfl rfl event s i stop ends

theorem placeText_eq (s : String) (i : Int) :
    placeText (.str s) (.int i) = pure (toString (Text.position s.toList (some i)).1 ++ "," ++
      toString (Text.position s.toList (some i)).2) := by
  unfold placeText
  simp only [placeOf_str, pure_bind]

/-- The display name is read from the store. -/
theorem attributeOf_displayName {state : ParserState} (known : σ.parser? p = some state)
    (named : state.displayName = .str name) : attributeOf (.parser p) "display_name" σ = .ok (.str name) σ := by
  have read : attributeOf (.parser p) "display_name" σ =
      .ok (((σ.parser? p).map (·.displayName)).getD .none) σ := rfl
  rw [read, known, Option.map_some, Option.getD_some, named]

theorem nameText_eq {state : ParserState} (known : σ.parser? p = some state)
    (named : state.displayName = .str name) :
    nameText (.parser p) σ = .ok (Ansi.styled blue name) σ := by
  unfold nameText
  rw [bind_ok (attributeOf_displayName known named), textOf_str, pure_bind]
  have shown : truthy (.str name) = pure (!name.isEmpty) := rfl
  rw [shown, pure_bind]
  unfold Ansi.styled
  cases name.isEmpty <;> rfl

theorem IsCalled.of_parsers {σ τ : Store} {parser : Value} {name : String} (h : IsCalled σ parser name)
    (same : τ.parsers = σ.parsers) : IsCalled τ parser name := by
  obtain ⟨p, state, rfl, there, named⟩ := h
  exact ⟨p, state, rfl, by rwa [Store.parser?, same], named⟩

/-- The names of parsers are all that is looked up in the store. -/
theorem Look.Narrates.of_parsers {handler : Value} {σ τ : Store} {reports : List Report} {depth : Int}
    {lines : List String} (h : l.Narrates handler σ reports depth lines) (same : τ.parsers = σ.parsers) :
    l.Narrates handler τ reports depth lines := by
  induction h with
  | nil => exact .nil
  | enter earlier called ih => exact .enter ih (called.of_parsers same)
  | behaved parser text offset environment ended earlier ih =>
    exact .behaved parser text offset environment ended ih
  | exit a earlier called ih => exact .exit a ih (called.of_parsers same)
  | abort error υ earlier called ih => exact .abort error υ ih (called.of_parsers same)

/-- The store after a line was printed. -/
def Look.printing (l : Look) (line : String) (σ : Store) : Store :=
  { σ with printed := σ.printed ++ [if (σ.view l.color).isTruthy then line else Ansi.strip line] }

theorem echo_eq (l : Look) (depth : Int) (line : String) (σ : Store) :
    echo (l.at depth).color line σ = .ok () (l.printing line σ) := by
  have asked : truthy l.color σ = .ok (σ.view l.color).isTruthy σ := rfl
  unfold echo Look.printing
  rw [Look.at, bind_ok asked]
  cases (σ.view l.color).isTruthy <;> rfl

theorem echoExtra_true (color : Value) (start : String) : echoExtra color start (.bool true) = pure () := rfl

/-- A handler without a callback is content with every event. -/
theorem consult_none (m : Machine) (arguments : List Value) :
    consult m .none arguments = pure (.bool true) := rfl

/-- The depth is changed by one. -/
theorem changeDepth_eq (known : σ.echoes[id]? = some (l.at depth)) {change : Value → Value → Eval Value}
    {next : Int} (moves : change (.int depth) (.int 1) = pure (.int next)) :
    changeDepth id change σ = .ok () (σ.setEcho id (l.at next)) := by
  unfold changeDepth
  rw [bind_ok (echoOf_eq known)]
  simp only [Look.at, moves, pure_bind]
  rfl

theorem echoes_setEcho (known : σ.echoes[id]? = some (l.at depth)) (next : Int) :
    (σ.setEcho id (l.at next)).echoes[id]? = some (l.at next) :=
  Array.getElem?_setIfInBounds_self_of_lt (Array.getElem?_eq_some_iff.mp known).1

/-- The store after a line was printed and the handler has moved to a depth. -/
def Look.moving (l : Look) (id : HandlerId) (depth : Int) (line : String) (σ : Store) : Store :=
  (l.printing line σ).setEcho id (l.at depth)

/-- What is printed is one line more. -/
theorem printed_moving (steady : l.Steady) (id : HandlerId) (next depth : Int) (text : String) (offset : Int)
    (name : String) (told : Told) (σ : Store) :
    (l.moving id next (traceLine l.width (σ.view l.pad).isTruthy depth text.toList offset name told) σ).printed =
      σ.printed ++ [l.line depth text offset name told] := by
  unfold Look.moving Look.printing Look.line
  rw [steady.pad, steady.color]
  rfl

theorem moving_setEcho (l : Look) (id : HandlerId) (depth : Int) (line : String) (σ : Store) :
    l.printing line (σ.setEcho id (l.at depth)) = l.moving id depth line σ := by
  unfold Look.moving Look.printing
  rw [view_setEcho]
  rfl

theorem jsonOf_str (separators : Json.Separators) (t : String) :
    jsonOf separators (.str t) = pure (Json.quoted t) := rfl

theorem jsonOf_strs (separators : Json.Separators) (texts : List String) :
    jsonOf separators (.list (texts.map .str)) = pure ((Json.array (texts.map .str)).render separators) := by
  have all : ∀ texts : List String, Datum.toJsonAll .strict (texts.map .str) = .ok (texts.map .str) := by
    intro texts
    induction texts with
    | nil => rfl
    | cons t rest ih => simp only [List.map_cons, Datum.toJsonAll, Datum.toJson, ih]; rfl
  funext σ
  have shows : shown (.list (texts.map .str)) σ = .ok (.list (texts.map .str)) σ := by
    have parts : σ.snapshot (.list (texts.map .str)) = .list (texts.map .str) := by
      rw [snapshot_list, List.map_map]
      rfl
    rw [← parts]
    rfl
  unfold jsonOf
  rw [bind_ok shows]
  simp only [Datum.toJson, all]
  rfl

/-- The end of a success, on a text and within it. -/
theorem okayText_eq (s : String) (i stop : Int) : okayText (.str s) (.int i) (.int stop) =
    pure (Told.words s.toList i (.matched stop)) := by
  have slice : sliceOf (.str s) (.int i) (.int stop) =
      pure (.str (String.ofList (Slice.between s.toList (some i) (some stop)))) := rfl
  unfold okayText
  rw [slice, pure_bind, jsonOf_str, pure_bind, lengthOf_str, pure_bind, String.toList_ofList]
  rfl

section Events

variable (known : σ.echoes[id]? = some (l.at depth)) {state : ParserState} (there : σ.parser? p = some state)
  (named : state.displayName = .str name)

include known there named

/-- A parser is entered: its line is printed at the depth that there is, and what comes is one deeper. -/
theorem echoEnter_eq : echoEnter m id (.parser p) (.str s) (.int i) env σ =
    .ok () (l.moving id (depth + 1)
      (traceLine l.width (σ.view l.pad).isTruthy depth s.toList i name .entered) σ) := by
  have start := lineStartOf_eq l depth .enter s i .none rfl σ
  have asks : ∀ line : String, line ++ " ?" = line ++ " " ++ "?" := by
    intro line
    have blank : " " ++ "?" = " ?" := by decide
    rw [String.append_assoc, blank]
  have silent : consult m (l.at depth).onEnter [.parser p, .str s, .int i, env] = pure (.bool true) :=
    consult_none m _
  have deeper : ∀ line, changeDepth id addTo (l.printing line σ) = .ok () (l.moving id (depth + 1) line σ) :=
    fun line => changeDepth_eq (show (l.printing line σ).echoes[id]? = some (l.at depth) from known)
      (addTo_int depth 1)
  unfold echoEnter
  rw [bind_ok (echoOf_eq known), silent]
  simp only [truthy_bool, pure_bind, if_true]
  rw [bind_ok (echoOf_eq known), bind_ok start, placeText_eq, pure_bind, bind_ok (nameText_eq there named),
    bind_ok (echo_eq l depth _ σ), echoExtra_true, pure_bind, asks, deeper]
  rfl

/-- A parser ended with a result: the handler is back at the depth at which it was entered. -/
theorem echoExit_eq (a : Attempt) : echoExit m id (.parser p) (.str s) (.int i) env a.value σ =
    .ok () (l.moving id (depth - 1)
      (traceLine l.width (σ.view l.pad).isTruthy (depth - 1) s.toList i name (.ofAttempt a)) σ) := by
  have back : changeDepth id subtractFrom σ = .ok () (σ.setEcho id (l.at (depth - 1))) :=
    changeDepth_eq known rfl
  have now := echoes_setEcho known (depth - 1)
  have silent : consult m (l.at (depth - 1)).onExit [.parser p, .str s, .int i, env, a.value] =
      pure (.bool true) := consult_none m _
  have start := fun event stop (bound : Option Int) (ends : boundOf stop = pure bound) =>
    lineStartOf_eq l (depth - 1) event s i stop ends (σ.setEcho id (l.at (depth - 1)))
  unfold echoExit
  rw [bind_ok back, bind_ok (echoOf_eq now), silent]
  simp only [truthy_bool, pure_bind, if_true]
  rw [bind_ok (echoOf_eq now), bind_ok (nameText_eq (σ := σ.setEcho id (l.at (depth - 1))) there named)]
  simp only [echoExtra_true, placeText_eq, pure_bind]
  cases a with
  | matched k v =>
    have status : attributeOf (Attempt.matched k v).value "status" = pure (.bool true) := rfl
    have index : attributeOf (Attempt.matched k v).value "index" = pure (.int k) := rfl
    simp only [status, index, truthy_bool, okayText_eq, pure_bind, if_true]
    rw [bind_ok (start .okay (.int k) (some k) rfl), bind_ok (echo_eq l _ _ _), moving_setEcho, view_setEcho]
    rfl
  | missed k expected =>
    have status : attributeOf (Attempt.missed k expected).value "status" = pure (.bool false) := rfl
    have value : attributeOf (Attempt.missed k expected).value "value" =
        pure (.list (expected.map .str)) := rfl
    simp only [status, value, truthy_bool, jsonOf_strs, pure_bind, Bool.false_eq_true, if_false]
    rw [bind_ok (start .fail .none none rfl), bind_ok (echo_eq l _ _ _), moving_setEcho, view_setEcho]
    rfl

/-- A parser was left by an error. -/
theorem echoAbort_eq (error : Value) : echoAbort id (.parser p) (.str s) (.int i) error σ =
    .ok () (l.moving id (depth - 1)
      (traceLine l.width (σ.view l.pad).isTruthy (depth - 1) s.toList i name
        (.raised ((σ.setEcho id (l.at (depth - 1))).snapshot error).kindName)) σ) := by
  have back : changeDepth id subtractFrom σ = .ok () (σ.setEcho id (l.at (depth - 1))) :=
    changeDepth_eq known rfl
  have now := echoes_setEcho known (depth - 1)
  have start := lineStartOf_eq l (depth - 1) .fail s i .none rfl (σ.setEcho id (l.at (depth - 1)))
  have seen : shown error (σ.setEcho id (l.at (depth - 1))) = .ok _ _ := rfl
  have words : ∀ line kind : String, line ++ " RAISE " ++ kind = line ++ " " ++ ("RAISE " ++ kind) := by
    intro line kind
    have blank : " " ++ "RAISE " = " RAISE " := by decide
    rw [← blank]
    simp only [String.append_assoc]
  unfold echoAbort
  rw [bind_ok back, bind_ok (echoOf_eq now), bind_ok start, placeText_eq, pure_bind,
    bind_ok (nameText_eq (σ := σ.setEcho id (l.at (depth - 1))) there named), bind_ok seen, echo_eq,
    moving_setEcho, view_setEcho, words]
  rfl

/-! ### Reports -/

/-- The line of a start, one level before those below it. -/
theorem tell_enter (m : Machine) (env : Value) (note : Option Value → Report) :
    tell m ⟨.echo id, .parser p, .str s, .int i, env⟩ "enter" [] note σ =
      .ok () ((l.moving id (depth + 1)
        (traceLine l.width (σ.view l.pad).isTruthy depth s.toList i name .entered) σ).record (note none)) := by
  have called : callMethod m (.echo id) "enter" [.parser p, .str s, .int i, env] σ = .ok .none _ :=
    bind_ok (f := fun _ => pure Value.none) (echoEnter_eq known there named)
  unfold tell recording
  rw [List.append_nil]
  simp only [Bind.bind, EStateM.bind, called]
  rfl

/-- The line of an end, back on the level of its start. -/
theorem tell_exit (m : Machine) (env : Value) (a : Attempt) (note : Option Value → Report) :
    tell m ⟨.echo id, .parser p, .str s, .int i, env⟩ "exit" [a.value] note σ =
      .ok () ((l.moving id (depth - 1)
        (traceLine l.width (σ.view l.pad).isTruthy (depth - 1) s.toList i name (.ofAttempt a)) σ).record
          (note none)) := by
  have called : callMethod m (.echo id) "exit" [.parser p, .str s, .int i, env, a.value] σ = .ok .none _ :=
    bind_ok (f := fun _ => pure Value.none) (echoExit_eq known there named a)
  unfold tell recording
  simp only [List.cons_append, List.nil_append, Bind.bind, EStateM.bind, called]
  rfl

/-- The line of an error, on the level of its start too. -/
theorem tell_abort (m : Machine) (env error : Value) (note : Option Value → Report) :
    tell m ⟨.echo id, .parser p, .str s, .int i, env⟩ "abort" [error] note σ =
      .ok () ((l.moving id (depth - 1)
        (traceLine l.width (σ.view l.pad).isTruthy (depth - 1) s.toList i name
          (.raised ((σ.setEcho id (l.at (depth - 1))).snapshot error).kindName)) σ).record (note none)) := by
  have called : callMethod m (.echo id) "abort" [.parser p, .str s, .int i, env, error] σ = .ok .none _ :=
    bind_ok (f := fun _ => pure Value.none) (echoAbort_eq known there named error)
  unfold tell recording
  simp only [List.cons_append, List.nil_append, Bind.bind, EStateM.bind, called]
  rfl

omit there named in
/-- Without callbacks nothing is made ready for functions of the user. -/
theorem presented_eq (m : Machine) (v : Value) : presented m (.echo id) v σ = .ok v σ := by
  have hidden : showsResults (.echo id) σ = .ok false σ := by
    have viewed : view (.echo id) σ = .ok (.echo id) σ := rfl
    unfold showsResults
    rw [bind_ok viewed]
    simp only [bind_get, known]
    rfl
  unfold presented
  rw [bind_ok hidden]
  rfl

/-- An error is told of and goes on as it is. -/
theorem abort_eq (m : Machine) (env error : Value) :
    abort m ⟨.echo id, .parser p, .str s, .int i, env⟩ error σ =
      .error (.raised error) ((l.moving id (depth - 1)
        (traceLine l.width (σ.view l.pad).isTruthy (depth - 1) s.toList i name
          (.raised ((σ.setEcho id (l.at (depth - 1))).snapshot error).kindName)) σ).record
            (.abort ⟨.echo id, .parser p, .str s, .int i, env⟩ error none)) := by
  have hears : hearsErrors (.echo id) σ = .ok true σ := rfl
  unfold abort
  rw [bind_ok hears, if_pos rfl, bind_ok (presented_eq known m error),
    bind_ok (tell_abort known there named m env error _)]
  rfl

end Events

end Lines

end Rebind.Trace
