import Rebind.Proofs.CallTrees
import Rebind.Proofs.RetracedRuns
/-!
# A trace recites the calls of a run

Under a printing handler without callbacks, what is printed in the course of a run is the walk through the tree
of its calls: each call writes a line, then come the lines of the calls below it, and then a second line that
says how it ended.  The handler keeps its depth in the store.  It is one more within a call than around it, so the
lines of the calls below are those of trees with one call more around them.

A step is a run that is reported to the handler.  It tells of one call, if everything within it leads on.
-/
namespace Rebind.Trace

open Attempt

/-- The settings of a handler for which nothing but the width of its windows was chosen. -/
def Look.plain (width : Int) : Look := ⟨width, .bool false, .none⟩

/-- A new handler with a chosen width prints in this way. -/
theorem makeHandler_plain (width : Int) (σ : Store) :
    Grammar.makeHandler (.int width) (.bool false) .none .none .none σ =
      .ok (.echo σ.echoes.size) { σ with echoes := σ.echoes.push ((Look.plain width).at 0) } := rfl

/-- A trace: the handler that prints it and the width of its windows, how many parsers there were before it, the
functions of the user, and the values that they may be given and return.  There are enough values for what the
library gives to functions, and the parsers among them are the ones that may be run. -/
structure Recital where
  width : Int
  handler : HandlerId
  before : Nat
  functions : Value → Prop
  values : Value → Prop
  plain : ∀ {v}, v.IsPlain → values v
  list : ∀ {vs}, (∀ v ∈ vs, values v) → values (.list vs)
  place : ∀ offset line column : Int, values (.lineColumn (.int offset) (.int line) (.int column))
  shared : ∀ {v} (n : Nat), values v → values (v.identify n).1
  /-- A mark is made of what a value holds at present. -/
  mark : ∀ {σ τ : Store} {v start value stop}, (∀ e ∈ σ.edits, values e.2) → values v →
    Behave.threeOf v σ = .ok (start, value, stop) τ → values (.mark start value stop)

namespace Recital

variable (w : Recital)

/-- The parsers that there are to run. -/
def Has (σ : Store) (p : ParserId) : Prop := w.values (.parser p) ∧ p < σ.parsers.size

/-- A parser of the library, other than a `debug` node, that goes by a name within a line, over others that
there are to run. -/
structure Legible (σ : Store) (p : ParserId) : Prop where
  behaviour : ∃ b, σ.behaviour? p = some b ∧ Behaviour.Undebugged w.functions w.functions (w.Has σ) b ∧
    ∀ v, b = .succeed v → w.values v
  name : ∃ name, σ.nameOf? p = some (.str name) ∧ Inline name

/-- Every parser that there is to run is legible, and objects were changed to hold values of the trace. -/
structure Sound (σ : Store) : Prop where
  legible : ∀ p, w.Has σ p → w.Legible σ p
  edits : ∀ e ∈ σ.edits, w.values e.2

/-- The handler prints what is run, at some depth. -/
structure Listens (depth : Nat) (σ : Store) : Prop where
  since : w.before ≤ σ.parsers.size
  traced : σ.tracers = [.echo w.handler]
  handler : σ.echoes[w.handler]? = some ((Look.plain w.width).at depth)
  sound : w.Sound σ

/-- The tracers and the handler are as before, parsers go by the names that they had, and they are still
legible. -/
structure Keeps (σ τ : Store) : Prop where
  tracers : τ.tracers = σ.tracers
  handler : τ.echoes[w.handler]? = σ.echoes[w.handler]?
  names : ∀ p name, σ.nameOf? p = some name → τ.nameOf? p = some name
  sound : w.Sound σ → w.Sound τ

/-- From one store to the other, what was printed and reported is the walk through some trees of calls. -/
def Leads (depth : Nat) (σ τ : Store) : Prop :=
  w.Keeps σ τ ∧ ∃ trees, Recited w.width w.handler depth trees σ τ

/-- The walk is that through a single tree, with a call at its root that ended in a certain way. -/
def Tells (depth : Nat) (p : ParserId) (s : String) (i : Nat) (env : Value) (ended : Ending) (σ τ : Store) :
    Prop :=
  w.Keeps σ τ ∧ ∃ name inner, Recited w.width w.handler depth [.node ⟨p, name, s, i, env⟩ ended inner] σ τ

/-- An evaluation that is given up never ends, or it ends with an ordinary error of the library after some
calls. -/
def GivesUp (depth : Nat) (σ : Store) (e : Fault) (τ : Store) : Prop :=
  e ≠ .endless → (∃ c : Cause, e = .raised (.error c) ∧ c.isOrdinary = true) ∧ w.Leads depth σ τ

variable {w} {depth : Nat} {σ τ υ : Store} {p : ParserId}

theorem size_le_of_names (names : ∀ p name, σ.nameOf? p = some name → τ.nameOf? p = some name) :
    σ.parsers.size ≤ τ.parsers.size := by
  have there : ∀ p < σ.parsers.size, p < τ.parsers.size := by
    intro p inside
    obtain ⟨state, there, -⟩ := Option.map_eq_some_iff.mp
      (names p _ (congrArg _ (Array.getElem?_eq_getElem inside)))
    exact (Array.getElem?_eq_some_iff.mp there).1
  exact Nat.le_of_not_lt fun fewer => Nat.lt_irrefl _ (there _ fewer)

theorem Has.later (names : ∀ p name, σ.nameOf? p = some name → τ.nameOf? p = some name) (h : w.Has σ p) :
    w.Has τ p := ⟨h.1, Nat.lt_of_lt_of_le h.2 (size_le_of_names names)⟩

theorem nameOf?_congr (parsers : τ.parsers = σ.parsers) (p : ParserId) : τ.nameOf? p = σ.nameOf? p := by
  unfold Store.nameOf? Store.parser?
  rw [parsers]

/-- What parsers are does not hang on anything else in the store. -/
theorem Sound.congr (parsers : τ.parsers = σ.parsers) (edits : τ.edits = σ.edits) (h : w.Sound σ) :
    w.Sound τ := by
  have has : w.Has τ = w.Has σ := by
    unfold Has
    rw [parsers]
  refine ⟨fun p there => ?_, edits ▸ h.edits⟩
  obtain ⟨behaviour, name⟩ := h.legible p (has ▸ there)
  constructor
  · unfold Store.behaviour? Store.parser? at behaviour ⊢
    rwa [has, parsers]
  · rwa [nameOf?_congr parsers]

theorem Keeps.refl (σ : Store) : w.Keeps σ σ := ⟨rfl, rfl, fun _ _ h => h, id⟩

theorem Keeps.trans (first : w.Keeps σ τ) (second : w.Keeps τ υ) : w.Keeps σ υ where
  tracers := second.tracers.trans first.tracers
  handler := second.handler.trans first.handler
  names p name h := second.names p name (first.names p name h)
  sound h := second.sound (first.sound h)

/-- What changes nothing of a run leads on. -/
theorem leads_of_eq (parsers : τ.parsers = σ.parsers) (edits : τ.edits = σ.edits)
    (tracers : τ.tracers = σ.tracers) (echoes : τ.echoes = σ.echoes) (printed : τ.printed = σ.printed)
    (journal : τ.journal = σ.journal) : w.Leads depth σ τ := by
  refine ⟨⟨tracers, by rw [echoes], fun p name h => ?_, .congr parsers edits⟩, [], recited_nil printed journal⟩
  exact (nameOf?_congr parsers p).trans h

/-- One part of a trace after another. -/
theorem Leads.trans (first : w.Leads depth σ τ) (second : w.Leads depth τ υ) : w.Leads depth σ υ := by
  obtain ⟨keeps, trees, recited⟩ := first
  obtain ⟨keeps', trees', recited'⟩ := second
  exact ⟨keeps.trans keeps', trees ++ trees', recited.trans recited' keeps'.names⟩

/-- A told run leads from store to store. -/
theorem Tells.leads {s : String} {i : Nat} {env : Value} {ended : Ending}
    (h : w.Tells depth p s i env ended σ τ) : w.Leads depth σ τ := by
  obtain ⟨keeps, name, inner, recited⟩ := h
  exact ⟨keeps, _, recited⟩

/-- A handler that listens goes on listening. -/
theorem Listens.later (on : w.Listens depth σ) (led : w.Leads depth σ τ) : w.Listens depth τ where
  since := Nat.le_trans on.since (size_le_of_names led.1.names)
  traced := led.1.tracers.trans on.traced
  handler := led.1.handler.trans on.handler
  sound := led.1.sound on.sound

theorem GivesUp.after {e : Fault} (led : w.Leads depth σ τ) (h : w.GivesUp depth τ e υ) : w.GivesUp depth σ e υ :=
  fun proper => ⟨(h proper).1, led.trans (h proper).2⟩

theorem givesUp_endless : w.GivesUp depth σ .endless τ := fun proper => absurd rfl proper

/-- An ordinary error gives up where the trace stands. -/
theorem givesUp_error (led : w.Leads depth σ τ) {c : Cause} (ordinary : c.isOrdinary = true) :
    w.GivesUp depth σ (.raised (.error c)) τ := fun _ => ⟨⟨c, rfl, ordinary⟩, led⟩

variable (w) in
/-- The course of a run under the handler. -/
def course (depth : Nat) : Course where
  leads := w.Leads depth
  refl _ := leads_of_eq rfl rfl rfl rfl rfl rfl
  trans := Leads.trans

end Recital

/-! ### Calls -/

section Calls

variable {w : Recital} {depth : Nat} {σ τ : Store} {m : Machine} {p : ParserId} {s : String} {i : Nat}
  {env : Value}

/-- The store in which a call is under way of which the handler has been told. -/
def Recital.opened (w : Recital) (depth : Nat) (c : Call) (σ : Store) : Store :=
  ((Look.plain w.width).moving w.handler (depth + 1)
    (traceLine w.width false depth c.text.toList c.offset c.name .entered) σ).record
      (.enter (c.visit w.handler) none)

theorem opened_sound {c : Call} (h : w.Sound σ) : w.Sound (w.opened depth c σ) :=
  Recital.Sound.congr (σ := σ) rfl rfl h

/-- Below an entered call, the handler is one level deeper. -/
theorem Recital.Listens.opened (on : w.Listens depth σ) (c : Call) :
    w.Listens (depth + 1) (w.opened depth c σ) where
  since := on.since
  traced := on.traced
  handler := echoes_setEcho (l := Look.plain w.width) on.handler (depth + 1)
  sound := opened_sound on.sound

/-- The store in which a call is over and the handler has been told how it ended. -/
def Recital.closed (w : Recital) (depth : Nat) (c : Call) (ended : Ending) (τ : Store) : Store :=
  { (Look.plain w.width).moving w.handler depth
      (traceLine w.width false depth c.text.toList c.offset c.name ended.told) τ with
    journal := (c.closing w.handler ended).reverse ++ τ.journal }

section Closed

variable {c : Call} (within : w.Listens (depth + 1) τ) (named : τ.nameOf? c.parser = some (.str c.name))
  (m : Machine)

include within named

/-- The report of an end closes the call and goes back one level. -/
theorem tell_exit_closed (a : Attempt) :
    tell m (c.visit w.handler) "exit" [a.value] (.exit (c.visit w.handler) a.value)
      (τ.record (.behaved (c.visit w.handler) (.ok a.value))) = .ok () (w.closed depth c (.ok a) τ) := by
  obtain ⟨state, there, display⟩ := Option.map_eq_some_iff.mp named
  have back : ((depth + 1 : Nat) : Int) - 1 = depth := by omega
  have told := tell_exit (σ := τ.record (.behaved (c.visit w.handler) (.ok a.value)))
    (l := Look.plain w.width) within.handler there display m (s := c.text) (i := c.offset) c.environment a
    (.exit (c.visit w.handler) a.value)
  rw [back] at told
  exact told

/-- So does the report of an error. -/
theorem abort_closed (cause : Cause) :
    abort m (c.visit w.handler) (.error cause) (τ.record (.behaved (c.visit w.handler) (.error (.error cause)))) =
      .error (.raised (.error cause)) (w.closed depth c (.error cause) τ) := by
  obtain ⟨state, there, display⟩ := Option.map_eq_some_iff.mp named
  have back : ((depth + 1 : Nat) : Int) - 1 = depth := by omega
  have told := abort_eq (σ := τ.record (.behaved (c.visit w.handler) (.error (.error cause))))
    (l := Look.plain w.width) within.handler there display m (s := c.text) (i := c.offset) c.environment
    (.error cause)
  rw [back] at told
  exact told

end Closed

/-- What was called below an open call and the second line of it make up the tree of the call. -/
theorem tells_closed (on : w.Listens depth σ) {c : Call} {ended : Ending} (faithful : c.Faithful σ)
    (ends : c.Ends ended) (within : w.Leads (depth + 1) (w.opened depth c σ) τ) :
    w.Tells depth c.parser c.text c.offset c.environment ended σ (w.closed depth c ended τ) := by
  have handler := echoes_setEcho (l := Look.plain w.width) ((on.opened c).later within).handler depth
  have entered : Ansi.strip (traceLine w.width false depth c.text.toList c.offset c.name .entered) =
      plainLine w.width depth c.text.toList c.offset c.name "?" :=
    strip_traceLine w.width depth faithful.inline trivial
  have left : Ansi.strip (traceLine w.width false depth c.text.toList c.offset c.name ended.told) =
      plainLine w.width depth c.text.toList c.offset c.name (ended.told.plain c.text.toList c.offset) :=
    strip_traceLine w.width depth faithful.inline ends.fits
  obtain ⟨keeps, inner, below⟩ := within
  have still : c.Faithful τ := { faithful with named := keeps.names _ _ faithful.named }
  refine ⟨⟨keeps.tracers, handler.trans on.handler.symm, keeps.names, ?_⟩, c.name, inner, ?_⟩
  · exact fun sound => Recital.Sound.congr (σ := τ) rfl rfl (keeps.sound (opened_sound sound))
  · refine below.node (c := c) ?_ rfl ?_ rfl (fun _ _ h => h) { still with } ends
    · exact congrArg (fun line => σ.printed ++ [line]) entered
    · exact congrArg (fun line => τ.printed ++ [line]) left

/-- An attempt within the text, with a value of the trace if it matched. -/
structure Recital.Yields (w : Recital) (length i : Nat) (a : Attempt) : Prop where
  within : a.Within length i
  value : ∀ stop v, a = .matched stop v → w.values v

/-- An evaluation on a text from an offset leads on and comes to such an attempt, or it is given up. -/
def Recital.Goes (w : Recital) (depth : Nat) (s : String) (i : Nat) (x : Eval Value) (σ : Store) : Prop :=
  Tries x σ (fun a τ => w.Leads depth σ τ ∧ w.Yields s.toList.length i a) (w.GivesUp depth σ)

theorem Recital.Goes.after {x : Eval Value} (led : w.Leads depth σ τ) (h : w.Goes depth s i x τ) :
    Tries x τ (fun a υ => w.Leads depth σ υ ∧ w.Yields s.toList.length i a) (w.GivesUp depth σ) :=
  h.mono (fun _ _ ⟨led', yields⟩ => ⟨led.trans led', yields⟩) fun _ _ => .after led

/-- A run that is reported to the handler tells of one call, if the run of the behaviour leads on within it. -/
theorem report_tells (on : w.Listens depth σ) (known : w.Has σ p) (start : i ≤ s.toList.length) {body : Runner}
    (hb : ∀ τ, w.Listens (depth + 1) τ → w.Has τ p →
      w.Goes (depth + 1) s i (body (.str s) (.int i) env) τ) :
    Tries (report m (.echo w.handler) (.parser p) body (.str s) (.int i) env) σ
      (fun a υ => w.Tells depth p s i env (.ok a) σ υ ∧ w.Yields s.toList.length i a)
      (fun e υ => e ≠ .endless → ∃ c : Cause, c.isOrdinary = true ∧ e = .raised (.error c) ∧
        w.Tells depth p s i env (.error c) σ υ) := by
  obtain ⟨name, named, inline⟩ := (on.sound.legible p known).name
  obtain ⟨state, there, display⟩ := Option.map_eq_some_iff.mp named
  let c : Call := ⟨p, name, s, i, env⟩
  have faithful : c.Faithful σ := ⟨named, inline, start⟩
  have entered := tell_enter on.handler there display m (s := s) (i := i) env (.enter (c.visit w.handler))
  have inside := on.opened c
  refine Ends.bind_ok (τ := w.opened depth c σ) entered ?_
  refine Ends.bind (P := fun v υ => ∃ (a : Attempt) (τ : Store), v = a.value ∧ w.Yields s.toList.length i a ∧
    w.Leads (depth + 1) (w.opened depth c σ) τ ∧ υ = τ.record (.behaved (c.visit w.handler) (.ok a.value))) ?_ ?_
  · refine ends_catching.mpr (ends_recording.mpr (Ends.mono (hb _ inside known) ?_ ?_))
    · rintro _ τ ⟨a, rfl, led, yields⟩
      exact ⟨a, τ, rfl, yields, led, rfl⟩
    · intro e τ gaveUp
      cases e with
      | endless => exact fun proper => absurd rfl proper
      | raised error =>
        obtain ⟨⟨cause, same, ordinary⟩, led⟩ := gaveUp (by simp)
        obtain rfl := Fault.raised.inj same
        have heard : (Value.error cause).isOrdinary = true := ordinary
        have aborted := abort_closed (c := c) (inside.later led) (led.1.names p _ named) m cause
        dsimp only
        rw [if_pos heard]
        exact Ends.of_eq_error aborted fun _ => ⟨cause, ordinary, rfl, tells_closed (c := c) on faithful nofun led⟩
  · rintro _ _ ⟨a, τ, rfl, yields, led, rfl⟩
    have on' := inside.later led
    have shown := presented_eq (σ := τ.record (.behaved (c.visit w.handler) (.ok a.value)))
      (l := Look.plain w.width) on'.handler m a.value
    have exited := tell_exit_closed (c := c) on' (led.1.names p _ named) m a
    have ends : c.Ends (.ok a) := by
      rintro b ⟨⟩
      exact yields.within
    exact Ends.bind_ok shown (Ends.bind_ok exited ⟨a, rfl, tells_closed (c := c) on faithful ends led, yields⟩)

end Calls

end Rebind.Trace
