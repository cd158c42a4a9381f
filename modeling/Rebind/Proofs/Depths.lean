import Rebind.Proofs.Courses
/-!
# The depth that a printing handler counts

A printing handler counts up last when a parser is entered, and counts down first when the parser is left.
Each of its methods may be given up before or after that, by a callback or while a line is put together.
An `enter` that is given up has not counted, and its parser is not run; an `exit` and an `abort` have
counted down already, whatever becomes of the rest of them.  Of what is no ordinary error no handler hears,
so a behaviour that ends in it stays counted.  Every report, and with it every run, therefore leaves the depth
as it was, but for one level for each of these behaviours.  The functions of the user are arbitrary apart
from leaving the handler alone; they may run parsers under the same handler.
-/
namespace Rebind

def Store.depth? (σ : Store) (id : HandlerId) : Option Value := (σ.echoes[id]?).map (·.depth)

/-- Whether a value stands for a printing handler. -/
def Store.standsFor (σ : Store) (id : HandlerId) (v : Value) : Bool :=
  match σ.view v with
  | .echo other => other == id
  | _ => false

/-- A handler is looked at through its present content. -/
theorem Store.standsFor_iff {σ : Store} {id : HandlerId} {v : Value} :
    σ.standsFor id v = true ↔ σ.view v = .echo id := by
  unfold Store.standsFor
  split
  · next viewed => simp [viewed]
  · next other => simpa using other id

/-- In how many reports a behaviour below a printing handler was interrupted. -/
def Store.interruptions (σ : Store) (id : HandlerId) (reports : List Trace.Report) : Nat :=
  reports.countP fun r => r.isInterruption && σ.standsFor id r.handler

namespace Trace

/-- A printing handler has counted on by a number of levels, apart from those at which a behaviour was
interrupted, and it is the same values that stand for it. -/
structure Counted (id : HandlerId) (k : Int) (σ τ : Store) : Prop where
  stands : ∀ v, τ.view v = .echo id ↔ σ.view v = .echo id
  depth : ∃ reports, τ.journal = reports ++ σ.journal ∧
    ∀ n : Int, σ.depth? id = some (.int n) → τ.depth? id = some (.int (n + k + σ.interruptions id reports))

variable {id : HandlerId} {k l : Int} {σ τ υ : Store}

/-- Interruptions are counted report by report. -/
theorem interruptions_append (reports more : List Report) :
    σ.interruptions id (reports ++ more) = σ.interruptions id reports + σ.interruptions id more :=
  List.countP_append

/-- The same behaviours count as interrupted while the same values stand for the handler. -/
theorem interruptions_congr (same : ∀ v, τ.view v = .echo id ↔ σ.view v = .echo id) (reports : List Report) :
    τ.interruptions id reports = σ.interruptions id reports := by
  refine List.countP_congr fun r _ => ?_
  simp only [Bool.and_eq_true, Store.standsFor_iff, same]

/-- Levels add up along a run. -/
theorem Counted.trans {j : Int} (first : Counted id k σ τ) (second : Counted id l τ υ) (sum : k + l = j) :
    Counted id j σ υ := by
  obtain ⟨reports, journal, depth⟩ := first.depth
  obtain ⟨more, journal', depth'⟩ := second.depth
  refine ⟨fun v => (second.stands v).trans (first.stands v), more ++ reports, ?_, fun n h => ?_⟩
  · rw [journal', journal, List.append_assoc]
  · rw [depth' _ (depth n h), interruptions_append, interruptions_congr first.stands]
    congr 2
    push_cast
    omega

/-- What puts nothing on record counts by what it adds to the depth. -/
theorem Counted.of_journal (journal : τ.journal = σ.journal)
    (stands : ∀ v, τ.view v = .echo id ↔ σ.view v = .echo id)
    (depth : ∀ n : Int, σ.depth? id = some (.int n) → τ.depth? id = some (.int (n + k))) : Counted id k σ τ :=
  ⟨stands, [], journal, fun n h => by simpa [Store.interruptions] using depth n h⟩

/-- What concerns neither printing handlers nor the content of objects leaves the depth alone. -/
theorem Counted.of_eq (echoes : τ.echoes = σ.echoes) (edits : τ.edits = σ.edits)
    (journal : τ.journal = σ.journal) : Counted id 0 σ τ := by
  refine .of_journal journal (fun v => ?_) fun n h => ?_
  · cases v <;> simp [Store.view, edits]
  · simpa [Store.depth?, echoes] using h

/-- Nothing is counted where nothing happens. -/
theorem Counted.refl (id : HandlerId) (σ : Store) : Counted id 0 σ σ := .of_eq rfl rfl rfl

/-- Putting something on record makes up for the level that was lost if it is an interruption. -/
theorem Counted.record (r : Report)
    (lost : k = if r.isInterruption && σ.standsFor id r.handler then -1 else 0) :
    Counted id k σ (σ.record r) := by
  refine ⟨fun v => by cases v <;> rfl, [r], rfl, fun n h => ?_⟩
  have same : (σ.record r).depth? id = some (.int n) := h
  rw [same, Store.interruptions, List.countP_singleton, lost]
  split
  · have level : n + -1 + ((1 : Nat) : Int) = n := by omega
    rw [level]
  · simp

/-- A report of anything but an interruption counts for nothing. -/
theorem Counted.record_calm {r : Report} (calm : r.isInterruption = false) : Counted id 0 σ (σ.record r) :=
  .record r (by simp [calm])

/-- The course of a store in which a printing handler has counted down as often as up, but for behaviours that
were interrupted.  Nothing is asked of an evaluation that never ends. -/
def level (id : HandlerId) : Course where
  leads σ τ := Counted id 0 σ τ
  refl σ := .refl id σ
  trans first second := first.trans second (Int.add_zero 0)
  counts e := e ≠ .endless

theorem level_prints : (level id).Prints := fun _ _ => .of_eq rfl rfl rfl

/-- An evaluation counts by `k`, and by `l` if it is given up. -/
def Counts {α : Type} (id : HandlerId) (k l : Int) (x : Eval α) (σ : Store) : Prop :=
  Ends x σ (fun _ τ => Counted id k σ τ) fun e τ => e ≠ .endless → Counted id l σ τ

section Counts

variable {α β : Type} {j i : Int}

theorem counts_of_keeps {x : Eval α} (h : (level id).Keeps x) (σ : Store) : Counts id 0 0 x σ := h σ

/-- What follows counts on from where the first part left off. -/
theorem Counts.bind {x : Eval α} {f : α → Eval β} (first : Counts id k i x σ)
    (second : ∀ a τ, Counted id k σ τ → Counts id (j - k) (i - k) (f a) τ) : Counts id j i (x >>= f) σ := by
  refine Ends.bind first fun a τ here => (second a τ here).mono ?_ ?_
  · exact fun _ _ further => here.trans further (by omega)
  · exact fun _ _ further proper => here.trans (further proper) (by omega)

end Counts

/-! ### Counting -/

/-- Setting the depth counts for what it is changed by. -/
theorem counted_setEcho {s : EchoState} (known : σ.echoes[id]? = some s) {depth : Value}
    (next : ∀ n : Int, s.depth = .int n → depth = .int (n + k)) :
    Counted id k σ (σ.setEcho id { s with depth }) := by
  refine .of_journal rfl (fun v => ?_) fun n h => ?_
  · rw [view_setEcho]
  · have before : s.depth = .int n := by simpa [Store.depth?, known] using h
    have inside : id < σ.echoes.size := (Array.getElem?_eq_some_iff.mp known).1
    have now : (σ.setEcho id { s with depth }).echoes[id]? = some { s with depth } :=
      Array.getElem?_setIfInBounds_self_of_lt inside
    rw [Store.depth?, now, next n before]
    rfl

/-- A handler that has not counted to a number is of no interest. -/
theorem Counted.of_not_number (other : ∀ n : Int, σ.depth? id ≠ some (.int n)) : Counted id k σ σ :=
  .of_journal rfl (fun _ => Iff.rfl) fun n h => absurd h (other n)

/-- Changing the depth of a handler counts by what is added to numbers, and is given up for what is not a
number only. -/
theorem changeDepth_counts {change : Value → Value → Eval Value}
    (reads : ∀ v w, Course.still.Keeps (change v w))
    (adds : ∀ (n : Int) σ, change (.int n) (.int 1) σ = .ok (.int (n + k)) σ) (l : Int) (σ : Store) :
    Counts id k l (changeDepth id change) σ := by
  cases known : σ.echoes[id]? with
  | none =>
    refine Ends.of_eq_error (bind_error (echoOf_none known)) fun _ => .of_not_number fun n => ?_
    simp [Store.depth?, known]
  | some s =>
    have found : σ.depth? id = some s.depth := by simp [Store.depth?, known]
    refine Ends.bind_ok (echoOf_eq known) ?_
    have changed : Ends (change s.depth (.int 1)) σ
        (fun depth τ => τ = σ ∧ ∀ n : Int, s.depth = .int n → depth = .int (n + k))
        fun e τ => e ≠ .endless → Counted id l σ τ := by
      by_cases whole : ∃ n : Int, s.depth = .int n
      · obtain ⟨n, number⟩ := whole
        rw [number]
        refine Ends.of_eq_ok (adds n σ) ⟨rfl, ?_⟩
        rintro _ ⟨⟩
        rfl
      · refine (reads s.depth (.int 1) σ).mono ?_ ?_
        · exact fun _ _ same => ⟨same, fun n number => (whole ⟨n, number⟩).elim⟩
        · intro e τ same _
          rw [same trivial]
          refine .of_not_number fun n number => whole ⟨n, ?_⟩
          simpa [found] using number
    refine changed.bind fun depth τ here => ?_
    obtain ⟨rfl, next⟩ := here
    exact counted_setEcho known next

/-- Entering counts for one level. -/
theorem deeper_counts (id : HandlerId) (l : Int) (σ : Store) :
    Counts id 1 l (changeDepth id addTo) σ :=
  changeDepth_counts (fun v w => Course.still.keeps_addTo v w) (fun _ _ => rfl) l σ

/-- Leaving, in whatever way, counts for one level back. -/
theorem shallower_counts (id : HandlerId) (l : Int) (σ : Store) :
    Counts id (-1) l (changeDepth id subtractFrom) σ :=
  changeDepth_counts (fun v w => Course.still.keeps_subtractFrom v w) (fun _ _ => rfl) l σ

/-- The depth of another handler is of no interest. -/
theorem level_moves {other : HandlerId} (ne : other ≠ id) : (level id).Moves other := by
  intro change reads
  refine Course.keeps_bind (Course.keeps_echoOf other) fun s => Course.keeps_bind (reads _ _) fun depth => ?_
  refine Course.keeps_modify _ fun σ => .of_journal rfl (fun v => ?_) fun n h => ?_
  · rw [view_setEcho]
  · have apart : (σ.setEcho other { s with depth }).echoes[id]? = σ.echoes[id]? :=
      Array.getElem?_setIfInBounds_ne ne
    simpa [Store.depth?, apart] using h

/-! ### Calls of a handler -/

variable {m : Machine} {handler : Value}

/-- A handler counts by `k` when a parser is entered, and back when it is left, whether or not the rest of
what it does then is given up.  A handler that does not hear of errors does not count, and only the handler
itself loses a level where a behaviour is interrupted. -/
structure Weighs (m : Machine) (id : HandlerId) (handler : Value) (k : Int) (σ : Store) : Prop where
  enter : ∀ parser text i env, Counts id k 0 (callMethod m handler "enter" [parser, text, i, env]) σ
  exit : ∀ parser text i env outcome,
    Counts id (-k) (-k) (callMethod m handler "exit" [parser, text, i, env, outcome]) σ
  abort : ∀ parser text i env error,
    Counts id (-k) (-k) (callMethod m handler "abort" [parser, text, i, env, error]) σ
  deaf : hearsErrors handler σ = .ok false σ → k = 0
  lost : k = if σ.standsFor id handler then 1 else 0

/-- The handler itself counts by one level. -/
theorem weighs_self (hm : m.Keeps (level id)) (stands : σ.view handler = .echo id) :
    Weighs m id handler 1 σ := by
  have viewed : view handler σ = .ok (.echo id) σ := by simp only [view, stands]
  have left : ∀ rest : Eval Unit, (level id).Keeps rest →
      Counts id (-1) (-1) (do (do changeDepth id subtractFrom; rest); return Value.none) σ := by
    intro rest keeps
    have ended : (level id).Keeps (do rest; return Value.none) :=
      Course.keeps_bind keeps fun _ => Course.keeps_pure _ _
    rw [bind_assoc]
    exact (shallower_counts id (-1) σ).bind fun _ τ _ => counts_of_keeps ended τ
  constructor
  · intro parser text i env
    have called : callMethod m handler "enter" [parser, text, i, env] σ =
        (do echoEnter m id parser text i env; return Value.none) σ := bind_ok viewed
    rw [echoEnter_line, bind_assoc] at called
    have line := Course.keeps_enterLine level_prints hm id parser text i env
    refine Ends.congr called ((counts_of_keeps line σ).bind fun _ τ _ => ?_)
    exact (deeper_counts id 0 τ).bind fun _ υ _ => Counted.refl id υ
  · intro parser text i env outcome
    have called : callMethod m handler "exit" [parser, text, i, env, outcome] σ =
        (do echoExit m id parser text i env outcome; return Value.none) σ := bind_ok viewed
    exact Ends.congr called (left _ (Course.keeps_exitLine level_prints hm id parser text i env outcome))
  · intro parser text i env error
    have called : callMethod m handler "abort" [parser, text, i, env, error] σ =
        (do echoAbort id parser text i error; return Value.none) σ := bind_ok viewed
    exact Ends.congr called (left _ (Course.keeps_abortLine level_prints id parser text i error))
  · intro deaf
    have hears : hearsErrors handler σ = .ok true σ := bind_ok viewed
    rw [hears] at deaf
    cases deaf
  · simp [Store.standsFor_iff.mpr stands]

/-- Other handlers do not count. -/
theorem weighs_other (hm : m.Keeps (level id)) (other : σ.view handler ≠ .echo id) :
    Weighs m id handler 0 σ := by
  have called : ∀ name arguments, Counts id 0 0 (callMethod m handler name arguments) σ := by
    refine Course.callMethod_keeps level_prints hm fun other' stands => level_moves ?_
    rintro rfl
    exact other stands
  refine ⟨fun _ _ _ _ => called _ _, fun _ _ _ _ _ => called _ _, fun _ _ _ _ _ => called _ _, fun _ => rfl, ?_⟩
  rw [if_neg fun own => other (Store.standsFor_iff.mp own)]

/-- By how much a handler counts does not change while it is the same values that stand for handlers. -/
theorem exists_weighs (hm : m.Keeps (level id)) (handler : Value) (σ : Store) :
    ∃ k, ∀ l τ, Counted id l σ τ → Weighs m id handler k τ := by
  by_cases stands : σ.view handler = .echo id
  · exact ⟨1, fun _ _ here => weighs_self hm ((here.stands handler).mpr stands)⟩
  · exact ⟨0, fun _ _ here => weighs_other hm fun same => stands ((here.stands handler).mp same)⟩

/-! ### Reports -/

/-- What is put on record does not count, unless it is an interruption. -/
theorem counts_recording {α : Type} {x : Eval α} {note : Except Value α → Report}
    (calm : ∀ ended, (note ended).isInterruption = false) (h : Counts id k l x σ) :
    Counts id k l (recording x note) σ := by
  have recorded : ∀ {k τ} ended, Counted id k σ τ → Counted id k σ (τ.record (note ended)) :=
    fun ended here => here.trans (.record_calm (calm ended)) (by omega)
  refine ends_recording.mpr (h.mono (fun _ _ here => recorded _ here) ?_)
  intro e τ here
  cases e with
  | raised error => exact fun proper => recorded _ (here proper)
  | endless => exact fun proper => absurd rfl proper

/-- A report about a call counts for what the call does. -/
theorem counts_tell {v : Visit} {name : String} {more : List Value} {note : Option Value → Report}
    (calm : ∀ raised, (note raised).isInterruption = false)
    (called : Counts id k l
      (callMethod m v.handler name ([v.parser, v.text, v.index, v.environment] ++ more)) σ) :
    Counts id k l (tell m v name more note) σ :=
  Ends.bind (counts_recording (fun _ => calm _) called) fun _ _ here => here

/-- Values are shown to handlers without fault, and that does not count. -/
theorem counts_presented (hs : m.share = Value.share) (handler v : Value) (l : Int) (σ : Store) :
    Counts id 0 l (presented m handler v) σ := by
  obtain ⟨b, shows⟩ := asks_showsResults handler σ
  refine Ends.bind_ok shows ?_
  cases b with
  | true =>
    rw [if_pos rfl, hs]
    exact Counted.of_eq rfl rfl rfl
  | false => exact Counted.refl id σ

/-- An error that is raised again has counted back what was counted when the parser was entered. -/
theorem counts_abort (hs : m.share = Value.share) (v : Visit) (error : Value)
    (weighs : ∀ l τ, Counted id l σ τ → Weighs m id v.handler k τ) (l : Int) :
    Counts id l (-k) (abort m v error) σ := by
  obtain ⟨b, hears⟩ := asks_hearsErrors v.handler σ
  refine Ends.bind_ok hears ?_
  cases b with
  | true =>
    refine (counts_presented hs v.handler error (-k) σ).bind fun shown τ here => ?_
    have told := (weighs 0 τ here).abort v.parser v.text v.index v.environment shown
    rw [show -k - 0 = -k by omega]
    refine (counts_tell (fun _ => rfl) told).bind fun _ υ _ => ?_
    rw [show -k - -k = 0 by omega]
    exact fun _ => .refl id υ
  | false =>
    have uncounted : k = 0 := (weighs 0 σ (.refl id σ)).deaf hears
    subst uncounted
    exact fun _ => .record_calm rfl

/-- A behaviour that returns has not counted, and one that is given up leaves the depth as it was before its
parser was entered. -/
theorem counts_behaved (hs : m.share = Value.share) (v : Visit) {x : Eval Value} (hb : (level id).Keeps x)
    (weighs : ∀ l τ, Counted id l σ τ → Weighs m id v.handler k τ) :
    Counts id 0 (0 - k) (catching (recording x (.behaved v)) (abort m v)) σ := by
  refine ends_catching.mpr (ends_recording.mpr ((hb σ).mono ?_ ?_))
  · exact fun outcome τ within => within.trans (.record_calm rfl) rfl
  intro e τ within
  cases e with
  | endless => exact fun proper => absurd rfl proper
  | raised error =>
    have within : Counted id 0 σ τ := within (by simp [level])
    by_cases ordinary : error.isOrdinary = true
    · simp only [if_pos ordinary]
      have noted : Counted id 0 σ (τ.record (.behaved v (.error error))) :=
        within.trans (.record_calm (by simp [Report.isInterruption, ordinary])) rfl
      have aborted := counts_abort hs v error (l := 0) fun l υ further => weighs _ υ (noted.trans further rfl)
      refine aborted.mono (fun _ _ further => noted.trans further rfl) ?_
      exact fun _ _ further proper => noted.trans (further proper) (by omega)
    · simp only [if_neg ordinary]
      refine fun _ => within.trans (l := -k) (.record _ ?_) (by omega)
      have lost := (weighs 0 τ within).lost
      simp only [Report.isInterruption, ordinary, Report.handler, Report.visit, lost]
      split <;> simp_all

/-- What was counted when a parser was entered is counted back when it is left, whichever way. -/
theorem report_level (hm : m.Keeps (level id)) (hs : m.share = Value.share) (handler parser : Value)
    (body : Runner) (text i env : Value) (hb : (level id).Keeps (body text i env)) :
    (level id).Keeps (report m handler parser body text i env) := by
  intro σ
  obtain ⟨k, weighs⟩ := exists_weighs hm handler σ
  let v : Visit := ⟨handler, parser, text, i, env⟩
  have entered := (weighs 0 σ (.refl id σ)).enter parser text i env
  refine Counts.bind (counts_tell (v := v) (fun _ => rfl) entered) fun _ τ here => ?_
  refine (counts_behaved hs v hb fun l υ further => weighs _ υ (here.trans further rfl)).bind
    fun outcome υ within => ?_
  refine (counts_presented hs handler outcome _ υ).bind fun shown ω silent => ?_
  have left := (weighs _ ω ((here.trans within rfl).trans silent rfl)).exit parser text i env shown
  rw [show 0 - k - 0 - 0 = -k by omega]
  refine (counts_tell (v := v) (fun _ => rfl) left).bind fun _ χ _ => ?_
  rw [show -k - -k = 0 by omega]
  exact Counted.refl id χ

/-- A `debug` node leaves the handler's depth as it was, up to interruptions. -/
theorem debug_level (hm : m.Keeps (level id)) (inner : ParserId) (handler text i env : Value) :
    (level id).Keeps (Behave.debug m inner handler text i env) := by
  refine Course.keeps_bind (Course.keeps_modify _ fun σ => .of_eq rfl rfl rfl) fun _ σ => ?_
  have popped : ∀ {τ}, Counted id 0 σ τ → Counted id 0 σ { τ with tracers := τ.tracers.drop 1 } := by
    exact fun here => here.trans (.of_eq rfl rfl rfl) (Int.add_zero 0)
  refine ends_andFinally_popTracer.mpr ((hm.run inner text i env σ).mono (fun _ _ => popped) ?_)
  exact fun e τ here proper => popped (here proper)

/-- Tracing leaves the handler's depth as it was, whatever the functions do. -/
theorem level_traced (apply : Machine → Value → List Value → Eval Value) :
    (level id).Traced ⟨apply, Value.share⟩ where
  overrun _ := .of_eq rfl rfl rfl
  debug _ hm := debug_level hm
  report _ hm hs := report_level hm hs

/-! ### Runs -/

/-- How deep a printing handler is after a run: one level deeper than before for every behaviour below it that
was interrupted in the course of the run, and no deeper than before if none was. -/
def Unwound (id : HandlerId) (n : Int) (σ τ : Store) : Prop :=
  ∃ reports, τ.journal = reports ++ σ.journal ∧
    τ.depth? id = some (.int (n + σ.interruptions id reports))

/-- However a run ends, by a result or by an error, a printing handler is as deep as before, apart from one level
for every behaviour below it that ended in what is no ordinary error.  The grammar, the text, the tracers that
are active at the start and the nesting depth are arbitrary, and the handler may serve several of the `debug`
nodes.  The functions of the user, its callbacks among them, may raise errors at every call; they leave the
handler alone, and reach it through the parsers that they run only. -/
theorem run_level (apply : Machine → Value → List Value → Eval Value) (id : HandlerId)
    (functions : ∀ m : Machine, m.Keeps (level id) → ∀ f arguments, (level id).Keeps (apply m f arguments))
    (rounds depth : Nat) (p : ParserId) (text i env : Value) (σ : Store) (n : Int)
    (before : σ.depth? id = some (.int n)) :
    Ends ((machine ⟨apply, Value.share⟩ rounds depth).run p text i env) σ
      (fun _ τ => Unwound id n σ τ) fun e τ => e ≠ .endless → Unwound id n σ τ := by
  have host : Host.Keeps ⟨apply, Value.share⟩ (level id) := ⟨functions, fun v σ => .of_eq rfl rfl rfl⟩
  have after : ∀ {τ}, Counted id 0 σ τ → Unwound id n σ τ := by
    intro τ here
    obtain ⟨reports, journal, depth⟩ := here.depth
    exact ⟨reports, journal, by simpa using depth n before⟩
  refine (((level_traced apply).machine host rounds depth).run p text i env σ).mono (fun _ _ => after) ?_
  exact fun e τ here proper => after (here proper)

private def callback (n : Nat) : Value := .closure [] (.plain .null) [] (.named "c") n

/-- The callback with the number 1 raises an error, that with the number 2 ends the program, and every other
one silences its line. -/
private def silencing : Machine → Value → List Value → Eval Value := fun _ f _ =>
  match f with
  | .closure _ _ _ _ 1 => raise .badValue
  | .closure _ _ _ _ 2 => raise (.complaint .systemExit "stop")
  | _ => pure (.bool false)

/-- Two nested `debug` nodes with the same handler.  Its callback on results raises an error, and when the
handler hears of that on its way out of the outer node it raises another one, over a text of which it
cannot show the items. -/
private def twiceUnderOne : Store :=
  { Store.initial with
    echoes := #[⟨.int 3, .bool false, callback 0, callback 1, .bool false, .int 7⟩]
    parsers := Store.initial.parsers ++ #[⟨.behaviour (.debug 0 (.echo 0)), .str "inner"⟩,
      ⟨.behaviour (.debug 5 (.echo 0)), .str "outer"⟩] }

/-- Whether an evaluation ends in an error after a number of reports. -/
private def raisesAfter (reports : Nat) (x : Eval Value) (σ : Store) : Bool :=
  match x σ with
  | .error (.raised _) τ => τ.journal.length == reports
  | _ => false

/-- Two `debug` nodes with one handler, both of which are left by an error. -/
theorem run_level_twiceUnderOne :
    let run := (machine ⟨silencing, Value.share⟩ 10 5).run 6 (.list [.int 1]) (.int 0) .none
    raisesAfter 6 run twiceUnderOne = true ∧ Ends run twiceUnderOne
      (fun _ τ => Unwound 0 7 twiceUnderOne τ) fun e τ => e ≠ .endless → Unwound 0 7 twiceUnderOne τ := by
  have functions : ∀ m : Machine, m.Keeps (level 0) → ∀ f arguments,
      (level 0).Keeps (silencing m f arguments) := by
    intro m _ f arguments
    unfold silencing
    split
    · exact (level 0).keeps_raise _
    · exact (level 0).keeps_raise _
    · exact (level 0).keeps_pure _
  have before : twiceUnderOne.depth? 0 = some (.int 7) := rfl
  constructor
  · decide +kernel
  · -- On a store that is not known nothing of the run is evaluated.
    generalize twiceUnderOne = σ at before
    exact run_level silencing 0 functions 10 5 6 (.list [.int 1]) (.int 0) .none σ 7 before

/-- A `debug` node under which a function of the user ends the program. -/
private def stopped : Store :=
  { Store.initial with
    echoes := #[⟨.int 3, .bool false, callback 0, callback 0, .bool false, .int 0⟩]
    parsers := Store.initial.parsers ++ #[⟨.behaviour (.testChar (callback 2) "c"), .str "inner"⟩,
      ⟨.behaviour (.debug 5 (.echo 0)), .str "outer"⟩] }

/-- Where a function ends the program, the handler is left one level too deep. -/
theorem depth_after_exit :
    let run := (machine ⟨silencing, Value.share⟩ 10 5).run 6 (.str "a") (.int 0) .none
    stopped.depth? 0 = some (.int 0) ∧
      Ends run stopped (fun _ _ => False) fun _ τ => τ.depth? 0 = some (.int 1) := by
  exact ⟨rfl, rfl⟩

end Trace
end Rebind
