import Rebind.Command.Run
import Rebind.Proofs.RetracedRuns
import Rebind.Proofs.ScriptReferences
import Rebind.Proofs.Styling
/-!
# The parse command

The command prints the value of a parse as JSON or writes the failure to its error output.  When it is asked
for a trace, the lines of the trace come before that, and nothing else changes.
-/
namespace Rebind.Command

open Attempt

/-! ### Settings -/

/-- Settings none of which is an object that may change. -/
def IsSettings : Value → Prop
  | .settings a b c d e => ∀ v ∈ [a, b, c, d, e], ∀ σ : Store, σ.view v = v
  | _ => False

theorem view_ofToml (t : Toml) (σ : Store) : σ.view (.ofToml t) = .ofToml t := by
  cases t <;> rfl

/-- What is read for a table can be looked at in any store, since it has no identity. -/
theorem tableSettings_view (table : Option Toml) {fields : List (String × Value)}
    (usual : ∀ f ∈ fields, ∀ σ : Store, σ.view f.2 = f.2) (σ : Store) :
    Ends (Config.tableSettings table fields) σ
      (fun vs _ => vs.length = fields.length ∧ ∀ v ∈ vs, ∀ υ : Store, υ.view v = v) anyhow := by
  unfold Config.tableSettings
  split
  · refine ⟨List.length_map _, fun v member υ => ?_⟩
    obtain ⟨f, listed, rfl⟩ := List.mem_map.mp member
    exact usual f listed υ
  · next found =>
    refine ⟨List.length_map _, fun v member υ => ?_⟩
    obtain ⟨f, listed, rfl⟩ := List.mem_map.mp member
    cases found.lookup f.1 with
    | none => exact usual f listed υ
    | some t => exact view_ofToml t υ
  · trivial

/-- Settings have no identity, wherever they are from. -/
theorem ofDocument_settings (document : List (String × Toml)) (σ : Store) :
    Ends (Config.ofDocument document) σ (fun v _ => IsSettings v) anyhow := by
  refine Ends.bind (tableSettings_view _ (by simp [Store.view]) σ) ?_
  rintro trace τ ⟨three, first⟩
  refine Ends.bind (tableSettings_view _ (by simp [Store.view]) τ) ?_
  rintro errors υ ⟨two, second⟩
  split
  · rintro v member
    exact (List.mem_append (s := [_, _, _]).mp member).elim (first v) (second v)
  · trivial

theorem load_settings (p : Value) (σ : Store) : Ends (Config.load p) σ (fun v _ => IsSettings v) anyhow := by
  refine ends_after fun name τ _ => ends_after fun text υ _ => ?_
  split
  · exact ends_after fun _ υ' _ => ofDocument_settings _ υ'
  · trivial

theorem defaults_settings : IsSettings Config.defaults := by
  simp [IsSettings, Config.defaults, Store.view]

theorem inForce_settings (start : Value) (σ : Store) :
    Ends (Config.inForce start) σ (fun v _ => IsSettings v) anyhow := by
  have found : Ends (Config.find start >>= Config.load) σ (fun v _ => IsSettings v) anyhow :=
    ends_after fun p τ _ => load_settings p τ
  rw [inForce_catching]
  refine ends_catching.mpr (found.mono (fun _ _ isSettings => isSettings) fun e τ _ => ?_)
  cases e with
  | endless => trivial
  | raised error =>
    dsimp only
    split
    · split
      · exact ends_after fun _ _ _ => defaults_settings
      · trivial
    · trivial

/-- The settings that are asked for, or else those in force. -/
def settingsFor (config : Option String) : Eval Value :=
  match config with
  | some p => Config.load (.path (Path.tidy p))
  | none => Config.inForce .none

theorem settingsFor_settings (config : Option String) (σ : Store) :
    Ends (settingsFor config) σ (fun v _ => IsSettings v) anyhow := by
  cases config with
  | none => exact inForce_settings _ σ
  | some p => exact load_settings _ σ

/-! ### Before and after the parse -/

/-- What a request works with when its text is parsed. -/
structure Prepared where
  context : Value
  pad : Value
  color : Value
  errorContext : Value
  errorColor : Value
  grammar : Value
  environment : Value

/-- What is read for a request before its text is parsed. -/
def prepare (m : Machine) (r : Request) : Eval Prepared := do
  let settings ← settingsFor r.config
  let (context, pad, color, errorContext, errorColor) ← settingOf settings
  let grammar ← Script.loadGrammar m (.str r.grammar)
  let env ← environmentOf r.environment
  return ⟨context, pad, color, errorContext, errorColor, grammar, env⟩

/-- The parser that is called: the grammar, or the grammar with a handler that prints. -/
def Prepared.parser (x : Prepared) (trace : Bool) : Eval Value :=
  if trace then do
    Grammar.debug x.grammar (← Grammar.makeHandler x.context x.pad .none .none x.color)
  else pure x.grammar

def announce (r : Request) : Eval Unit :=
  note "partser.cli"
    ("parsing " ++ toString r.text.toList.length ++ " characters from " ++ r.fileName)

/-- How a parse ended that came to an outcome. -/
def Prepared.conclude (x : Prepared) (r : Request) (outcome : Value) : Eval Parsed := do
  let result ← resultOf outcome
  if ← truthy result.status then
    match (← shown result.value).toJson .lenient with
    | .ok j => return .value (j.render Json.spaced)
    | .error c => raise c
  else
    return .failure
      (← renderFailure x.errorColor x.errorContext (.str r.text) outcome (.str r.fileName))

/-- A request in four steps: what is read for it, the parser, the note, and the end. -/
theorem parseRequest_eq (m : Machine) (r : Request) : parseRequest m r = (do
    let x ← prepare m r
    let parser ← x.parser r.trace
    announce r
    x.conclude r (← m.call parser [.str r.text, x.environment])) := by
  obtain ⟨grammar, fileName, text, environment, trace, config⟩ := r
  unfold parseRequest prepare settingsFor
  simp only [bind_assoc, pure_bind]
  cases config <;> cases trace <;> rfl

/-! ### What is prepared -/

/-- The environment is data that was made for the request. -/
theorem environmentOf_below (text : Option String) (σ : Store) :
    Ends (environmentOf text) σ (fun env τ => env.Below τ.nextObject) anyhow := by
  cases text with
  | none => exact (trivial : Value.none.Below σ.nextObject)
  | some s =>
    unfold environmentOf
    dsimp only
    split
    · next j _ => exact (Value.identify_identifies (ofJson_below σ.nextObject j)).2.1
    · trivial

/-- Whether lines are padded and coloured does not hang on the store. -/
def Prepared.IsSteady (x : Prepared) : Prop := ∀ v ∈ [x.pad, x.color, x.errorColor], ∀ σ : Store, σ.view v = v

/-- The environment refers to nothing that is not there yet, and the settings are no objects. -/
theorem prepare_sound (m : Machine) (r : Request) (σ : Store) :
    Ends (prepare m r) σ (fun x τ => x.environment.Below τ.nextObject ∧ x.IsSteady) anyhow := by
  refine Ends.bind (settingsFor_settings r.config σ) fun settings τ isSettings => ?_
  cases settings with
  | settings a b c d e =>
    have parts : settingOf (.settings a b c d e) τ = .ok (a, b, c, d, e) τ := rfl
    refine Ends.bind_ok parts (ends_after fun grammar υ _ => ?_)
    refine Ends.bind (environmentOf_below r.environment υ) fun env υ' below => ?_
    refine ⟨below, fun v member => isSettings v ?_⟩
    simp only [List.mem_cons, List.not_mem_nil, or_false] at member ⊢
    rcases member with rfl | rfl | rfl <;> simp
  | _ => exact isSettings.elim

/-- What is read for a request is made of what is there. -/
theorem closes_prepare {m : Machine} (hm : m.Contained) (r : Request) {g : Gap} :
    Closes g (prepare m r) fun _ _ => True := by
  have settings : Closes g (settingsFor r.config) Gap.Covers := by
    unfold settingsFor
    split
    · exact closes_load _
    · exact closes_inForce _
  have parts : ∀ {k : Gap} v, k.Covers v → Inspects k (settingOf v) fun _ => True := fun v h => by
    refine (inspects_view h).bind fun w _ => ?_
    split
    · exact inspects_pure trivial
    · exact inspects_raise _
  have environment : ∀ {k : Gap}, Closes k (environmentOf r.environment) fun _ _ => True := by
    intro k
    unfold environmentOf
    split
    · exact closes_pure trivial
    · split
      · exact (closes_share (covers_ofJson _)).mono fun _ _ _ _ => trivial
      · exact closes_raise _
  refine settings.bind fun k v _ hv => (parts v hv).then fun _ _ => ?_
  refine (closes_loadGrammar hm _).bind fun k' grammar _ _ => environment.bind fun _ env _ _ => ?_
  exact closes_pure trivial

/-! ### Parsing -/

section Parsing

variable {x : Prepared} {r : Request} {σ τ : Store} {p : ParserId} {width : Int}

/-- How the trace of a request prints. -/
def Prepared.look (x : Prepared) (width : Int) : Trace.Look := ⟨width, x.pad, x.color⟩

theorem look_steady (steady : x.IsSteady) (width : Int) : (x.look width).Steady :=
  ⟨steady x.pad (by simp), steady x.color (by simp)⟩

def announced (r : Request) (σ : Store) : Store :=
  { σ with notes := σ.notes ++ ["partser.cli: " ++
    ("parsing " ++ toString r.text.toList.length ++ " characters from " ++ r.fileName)] }

theorem announce_eq (r : Request) (σ : Store) : announce r σ = .ok () (announced r σ) := rfl

/-- For a trace the grammar is wrapped for a handler that prints as the settings say. -/
theorem parser_traced (grammar : x.grammar = .parser p) (context : x.context = .int width)
    (there : p < σ.parsers.size) : ∃ name,
    x.parser true σ = .ok (.parser σ.parsers.size) (σ.debugging (x.look width) p name) := by
  let υ : Store := { σ with echoes := σ.echoes.push ((x.look width).at 0) }
  have handler : Grammar.makeHandler x.context x.pad .none .none x.color σ = .ok (.echo σ.echoes.size) υ := by
    rw [context]
    rfl
  have checked : Grammar.parserOf "debug" (.parser p) υ = .ok p υ := parserOf_eq there
  obtain ⟨shown, named⟩ : ∃ shown, Grammar.displayName p υ = .ok shown υ := ⟨_, rfl⟩
  refine ⟨"debug(" ++ shown ++ ")", ?_⟩
  unfold Prepared.parser Grammar.debug
  rw [if_pos rfl, bind_ok handler, grammar, bind_ok checked]
  simp only [pure_bind]
  rw [bind_ok named]
  rfl

/-- A value is written as JSON. -/
theorem conclude_matched (stop : Int) (v : Value) {json : Json}
    (written : (σ.snapshot v).toJson .lenient = .ok json) :
    x.conclude r (matched stop v).value σ = .ok (.value (json.render Json.spaced)) σ := by
  have shows : shown v σ = .ok (σ.snapshot v) σ := rfl
  unfold Prepared.conclude
  simp only [resultOf_matched, truthy_bool, pure_bind, if_true]
  rw [bind_ok shows, written]
  rfl

/-- A failure is written as an excerpt. -/
theorem conclude_missed (place : Int) (expected : List String) {context : Int}
    (errors : x.errorContext = .int context) :
    x.conclude r (missed place expected).value σ =
      .ok (.failure ((failureExcerpt r.text r.fileName place expected context).text
        (σ.view x.errorColor).isTruthy)) σ := by
  have colored : truthy x.errorColor σ = .ok (σ.view x.errorColor).isTruthy σ := rfl
  unfold Prepared.conclude
  simp only [resultOf_missed, truthy_bool, pure_bind, Bool.false_eq_true, if_false]
  rw [errors, renderFailure_eq, bind_assoc, bind_ok colored]
  rfl

/-- The conclusion only reads the store. -/
theorem keeps_conclude (K : Course) (x : Prepared) (r : Request) (outcome : Value) :
    K.Keeps (x.conclude r outcome) := by
  refine Course.keeps_judged _ (fun result => ?_) fun result => ?_
  · refine Course.keeps_bind (K.keeps_shown _) fun d => ?_
    split <;> simp
  · exact Course.keeps_bind (K.keeps_renderFailure _ _ _ _ _) fun _ => K.keeps_pure _

/-- What the command adds to what was printed, and what it ends with: the value as JSON, or the failure. -/
inductive Verdict (x : Prepared) (r : Request) (τ : Store) : Value → Nat → String → String → Prop
  | value {stop v : Value} {json : Json} (written : (τ.snapshot v).toJson .lenient = .ok json) :
    Verdict x r τ (.success stop v) 0 (json.render Json.spaced ++ "\n") ""
  | failure {place expected : Value} {excerpt : String}
    (rendered : renderFailure x.errorColor x.errorContext (.str r.text)
      (.result (.bool false) place expected) (.str r.fileName) τ = .ok excerpt τ) :
    Verdict x r τ (.result (.bool false) place expected) 1 "" (Ansi.strip excerpt ++ "\n")

def opened (t : FileTree) : Store := { Store.initial with files := t }

/-- A request whose grammar is a parser of the library without `debug` nodes, under settings with whole numbers,
when it comes to parsing.  As the library makes them, parsers are called by texts and handlers are nested to whole
depths. -/
structure Loads (functions choosers : Value → Prop) (m : Machine) (t : FileTree) (r : Request) (x : Prepared)
    (p : ParserId) (width : Int) (σ : Store) : Prop where
  prepared : prepare m r (opened t) = .ok x σ
  grammar : x.grammar = .parser p
  context : x.context = .int width
  errors : ∃ n, x.errorContext = .int n
  undebugged : Among (Behaviour.Undebugged functions choosers) σ p
  named : ∀ p s, σ.parser? p = some s → ∃ name, s.displayName = .str name
  depths : ∀ (e : HandlerId) (s : EchoState), σ.echoes[e]? = some s → ∃ n, s.depth = .int n

/-- Loading leaves nothing behind that refers to what is not there yet. -/
theorem Loads.settled {functions choosers : Value → Prop} {m : Machine} {t : FileTree} (hm : m.Contained)
    (loads : Loads functions choosers m t r x p width σ) : σ.Settled := by
  have opened_closed : (opened t).Closed := { initial_closed with }
  obtain ⟨grown, -⟩ := (closes_prepare hm r (opened t) opened_closed rfl).ok loads.prepared
  exact grown.closed.settled grown.tracers loads.named loads.depths

theorem settled_announced (h : σ.Settled) (r : Request) : (announced r σ).Settled where
  untraced := h.untraced
  edits := h.edits
  parsers := h.parsers
  echoes := h.echoes
  scopes := h.scopes
  named := h.named
  depths := h.depths

/-- Lines are written one after the other. -/
theorem unlines_append (first second : List String) :
    unlines (first ++ second) = unlines first ++ unlines second := by
  simp [unlines, String.join_append]

/-- A value comes after what was printed on the way. -/
theorem runRequest_value {m : Machine} {t : FileTree} {json : String}
    (parsed : parseRequest m r (opened t) = .ok (.value json) τ) :
    runRequest m t false r = ⟨0, unlines τ.printed ++ unlines [Ansi.strip json], "", none⟩ := by
  unfold opened at parsed
  unfold runRequest
  rw [parsed]
  rfl

/-- A failure goes to the other output, with another exit status. -/
theorem runRequest_failure {m : Machine} {t : FileTree} {excerpt : String}
    (parsed : parseRequest m r (opened t) = .ok (.failure excerpt) τ) :
    runRequest m t false r = ⟨1, unlines τ.printed, unlines [Ansi.strip excerpt], none⟩ := by
  unfold opened at parsed
  unfold runRequest
  rw [parsed]
  rfl

section Requests

variable {functions choosers : Value → Prop} {m : Machine} {t : FileTree}
  (loads : Loads functions choosers m t r x p width σ)

include loads

/-- Without a trace the grammar itself is called. -/
theorem parseRequest_plain : parseRequest m { r with trace := false } (opened t) =
    (m.call (.parser p) [.str r.text, x.environment] >>= x.conclude r) (announced r σ) := by
  have prepared : prepare m { r with trace := false } (opened t) = .ok x σ := loads.prepared
  have parser : x.parser false σ = .ok (.parser p) σ := by
    rw [← loads.grammar]
    rfl
  rw [parseRequest_eq, bind_ok prepared, bind_ok parser, bind_ok (announce_eq _ σ)]
  rfl

/-- With a trace the grammar is called through a handler that prints. -/
theorem parseRequest_traced : ∃ name, parseRequest m { r with trace := true } (opened t) =
    (m.call (.parser σ.parsers.size) [.str r.text, x.environment] >>= x.conclude r)
      ((announced r σ).debugging (x.look width) p name) := by
  have prepared : prepare m { r with trace := true } (opened t) = .ok x σ := loads.prepared
  obtain ⟨parsers, b, does, -, -⟩ := loads.undebugged.behaviour
  obtain ⟨state, there, -⟩ := Option.bind_eq_some_iff.mp does
  obtain ⟨name, parser⟩ := parser_traced loads.grammar loads.context (Array.getElem?_eq_some_iff.mp there).1
  refine ⟨name, ?_⟩
  rw [parseRequest_eq, bind_ok prepared, bind_ok parser, bind_ok (announce_eq _ _)]
  rfl

end Requests

/-- Whether something was nested too deeply in the course of an evaluation. -/
def overruns {α : Type} (x : Eval α) (σ : Store) : Bool :=
  match x σ with
  | .ok _ τ | .error _ τ => τ.overran

/-- Whether limits were met is on the store that is left. -/
theorem overran_ok {α : Type} {x : Eval α} {a : α} (ended : x σ = .ok a τ) : overruns x σ = τ.overran := by
  unfold overruns
  rw [ended]

theorem overran_error {α : Type} {x : Eval α} {e : Fault} (ended : x σ = .error e τ) :
    overruns x σ = τ.overran := by
  unfold overruns
  rw [ended]

/-- The report that the traced grammar was entered at the start of the text. -/
def opening (r : Request) (x : Prepared) (p : ParserId) (σ : Store) : Trace.Report :=
  .enter ⟨.echo σ.echoes.size, .parser p, .str r.text, .int 0, x.environment⟩ none

section Traces

variable {host : Host} {functions choosers : Value → Prop} {K : Course} {rounds depth : Nat} {t : FileTree}
  {outcome : Value} (contained : host.Contained)
  (fresh : ∀ {σ : Store} {n : Nat}, σ.nextObject ≤ n → K.leads σ { σ with nextObject := n })
  (loads : Loads functions choosers (machine host rounds depth) t r x p width σ)
  (even : host.Evenhanded functions choosers K (announced r σ))
  (finishes : (machine host rounds depth).call (.parser p) [.str r.text, x.environment] (announced r σ) =
    .ok outcome τ)
  (shallow : overruns (parseRequest (machine host rounds depth) { r with trace := true }) (opened t) = false)

include contained fresh even loads finishes shallow

/-- Where a parse finishes, it finishes with a trace as well, and comes to the same attempt. -/
theorem call_traced : ∃ (w : Watch) (a : Attempt) (υ : Store), w.origin = announced r σ ∧
    w.look = x.look width ∧ outcome = a.value ∧ Annotated w τ υ ∧
    (∃ later, υ.journal = later ++ opening r x p σ :: σ.journal) ∧
    parseRequest (machine host rounds depth) { r with trace := true } (opened t) =
      x.conclude r (a.renumbered w.gap).value υ := by
  obtain ⟨below, steady⟩ := (prepare_sound _ r (opened t)).ok loads.prepared
  have known : Among (Behaviour.Undebugged functions choosers) (announced r σ) p :=
    loads.undebugged.of_kept ⟨rfl, fun _ _ there => there⟩
  obtain ⟨parsers, b, does, -, -⟩ := known.behaviour
  obtain ⟨state, there, -⟩ := Option.bind_eq_some_iff.mp does
  have inside : p < σ.parsers.size := (Array.getElem?_eq_some_iff.mp there).1
  let w : Watch := ⟨announced r σ, x.look width, K, look_steady steady width, fresh⟩
  have settled : w.origin.Settled := settled_announced (loads.settled (contained.machine rounds depth)) r
  have given : x.environment.renumbered w.gap = x.environment := Value.Below.renumbered (Nat.le_refl _) below
  obtain ⟨name, traced⟩ := parseRequest_traced loads
  have called := call_debugging w p name even rounds depth settled known given r.text
  cases ended : (machine host rounds depth).call (.parser σ.parsers.size) [.str r.text, x.environment]
      ((announced r σ).debugging (x.look width) p name) with
  | error e υ =>
    rcases called.error ended with beyond | ⟨e', σ', failed⟩
    · have within := (overran_error (traced.trans (bind_error ended))).symm.trans shallow
      cases beyond.symm.trans within
    · cases finishes.symm.trans failed
  | ok v υ =>
    have concluded := traced.trans (bind_ok ended)
    rcases called.ok ended with beyond | ⟨a, σ', later, rfl, annotated, journal, same⟩
    · -- The conclusion does not take back that the parse was nested too deeply.
      have stays := keeps_conclude Course.limited x r v υ
      cases last : x.conclude r v υ with
      | ok parsed υ' =>
        have within := (overran_ok (concluded.trans last)).symm.trans shallow
        cases ((stays.ok last).1 beyond).symm.trans within
      | error e υ' =>
        have within := (overran_error (concluded.trans last)).symm.trans shallow
        cases ((stays.error last trivial).1 beyond).symm.trans within
    · obtain ⟨rfl, rfl⟩ := EStateM.Result.ok.inj (finishes.symm.trans same)
      have entered : Trace.Report.enter (w.visit p r.text 0 x.environment) none = opening r x p σ := by
        unfold opening Watch.visit
        rw [show past w.gap.parser p = p from past_of_lt inside]
        rfl
      exact ⟨w, a, υ, rfl, rfl, rfl, annotated, ⟨later, entered ▸ journal⟩, concluded⟩

/-- Asking for a trace only adds lines, which tell of the visits that are on record then. -/
theorem runRequest_trace
    (writable : ∀ stop v, outcome = .success stop v → ∃ json, (τ.snapshot v).toJson .lenient = .ok json) :
    ∃ code rest complaint lines parsed υ, Verdict x r τ outcome code rest complaint ∧
      parseRequest (machine host rounds depth) { r with trace := true } (opened t) = .ok parsed υ ∧
      (x.look width).Recounts (.echo σ.echoes.size) (opening r x p σ) σ υ lines ∧
      runRequest (machine host rounds depth) t false { r with trace := false } =
        ⟨code, unlines σ.printed ++ rest, complaint, none⟩ ∧
      runRequest (machine host rounds depth) t false { r with trace := true } =
        ⟨code, unlines σ.printed ++ unlines lines ++ rest, complaint, none⟩ := by
  obtain ⟨w, a, υ, origin, look, rfl, annotated, ⟨later, opens⟩, traced⟩ :=
    call_traced contained fresh loads even finishes shallow
  obtain ⟨reports, depth, lines, journal, printed, narrates, -⟩ := annotated.told
  have gap : w.gap = (announced r σ).gap := congrArg Store.gap origin
  rw [origin] at journal printed
  have recounts : (x.look width).Recounts (.echo σ.echoes.size) (opening r x p σ) σ υ lines := by
    have same : reports = later ++ [opening r x p σ] := by
      refine (List.append_left_inj σ.journal).mp ?_
      rw [List.append_assoc]
      exact journal.symm.trans opens
    have handler : w.gap.echo = σ.echoes.size := congrArg Gap.echo gap
    rw [look, handler, same] at narrates
    exact ⟨later, depth, opens, narrates⟩
  have before : unlines υ.printed = unlines σ.printed ++ unlines lines := by
    rw [printed]
    exact unlines_append _ _
  have silent : τ.printed = σ.printed := annotated.silent.trans (by rw [origin]; rfl)
  have plain := (parseRequest_plain loads).trans (bind_ok finishes)
  cases a with
  | matched stop v =>
    obtain ⟨json, written⟩ := writable _ _ rfl
    have written' : (υ.snapshot (v.renumbered w.gap)).toJson .lenient = .ok json := by
      have shows := annotated.snapshot v
      exact (congrArg _ shows).trans ((Datum.toJson_renumbered _ _).trans written)
    have lined : unlines [Ansi.strip (json.render Json.spaced)] = json.render Json.spaced ++ "\n" := by
      rw [Json.strip_render]
      simp [unlines]
    have concluded := traced.trans (conclude_matched stop _ written')
    refine ⟨0, _, "", lines, _, υ, .value written, concluded, recounts, ?_, ?_⟩
    · rw [runRequest_value (plain.trans (conclude_matched stop v written)), silent, lined]
    · rw [runRequest_value concluded, before, lined]
  | missed place expected =>
    obtain ⟨context, errors⟩ := loads.errors
    have colour := ((prepare_sound _ r (opened t)).ok loads.prepared).2 x.errorColor (by simp)
    have rendered : renderFailure x.errorColor x.errorContext (.str r.text) (missed place expected).value
        (.str r.fileName) τ = .ok ((failureExcerpt r.text r.fileName place expected context).text
          (τ.view x.errorColor).isTruthy) τ := by
      rw [errors, renderFailure_eq]
      rfl
    have concluded := traced.trans (conclude_missed place expected errors)
    refine ⟨1, "", _, lines, _, υ, .failure rendered, concluded, recounts, ?_, ?_⟩
    · rw [runRequest_failure (plain.trans (conclude_missed place expected errors)), silent, String.append_empty]
      simp [unlines]
    · rw [runRequest_failure concluded, before, String.append_empty, colour, colour]
      simp [unlines]

end Traces

end Parsing

/-! ### Words -/

/-- Options that were given before are kept in front of those that are read. -/
theorem sortWords_given (specs : List OptionSpec) (mixed : Bool) (given : List Given) (words : List String)
    (s : Sorted) : sortWords specs mixed words { s with given := given ++ s.given } =
      (sortWords specs mixed words s).map fun sorted => { sorted with given := given ++ sorted.given } := by
  fun_induction sortWords specs mixed words s with
  | case1 s => rfl
  | case2 rest s => simp [sortWords, Except.map]
  | case3 word rest s other option e refused => simp [sortWords, other, option, refused, Except.map]
  | case4 word rest s other option more read ih =>
    rw [← ih]
    simp [sortWords, other, option, read, List.append_assoc]
  | case5 word s other option name read => simp [sortWords, other, option, read, Except.map]
  | case6 word s other option name read v rest ih =>
    rw [← ih]
    simp [sortWords, other, option, read, List.append_assoc]
  | case7 word rest s other plain mixed ih =>
    rw [← ih]
    simp [sortWords, other, plain, mixed]
  | case8 word rest s other plain unmixed => simp [sortWords, other, plain, unmixed, Except.map]

/-- The options of a command line with one for a trace in front. -/
def Sorted.traced (s : Sorted) : Sorted := { s with given := ⟨"--trace", none⟩ :: s.given }

/-- An option in front of the other words is sorted as one more option. -/
theorem sortWords_traced (words : List String) : sortWords parseOptions true ("--trace" :: words) ⟨[], []⟩ =
    (sortWords parseOptions true words ⟨[], []⟩).map Sorted.traced := by
  have option : sortWords parseOptions true ("--trace" :: words) ⟨[], []⟩ =
      sortWords parseOptions true words ⟨[⟨"--trace", none⟩], []⟩ := by
    have apart : ¬ "--trace" = "--" := by decide
    have dashed : isOptionWord "--trace" = true := by decide +kernel
    have read : readOption parseOptions "--trace" = .ok (.complete [⟨"--trace", none⟩]) := by rfl
    rw [sortWords, if_neg apart, if_pos dashed, read]
    rfl
  rw [option]
  exact sortWords_given parseOptions true [⟨"--trace", none⟩] words ⟨[], []⟩

/-- It leaves the other options as they are. -/
theorem value_traced (s : Sorted) {name : String} (other : name ≠ "--trace") :
    s.traced.value? name = s.value? name := by
  simp [Sorted.value?, Sorted.traced, List.find?_append, other.symm]

/-- What some words ask for beside the options. -/
def requestFor (t : FileTree) (stdin : String) (environment config : Option String) (trace : Bool)
    (words : List String) : Except Misuse Request := do
  match words with
  | [] => .error (.missingArgument "GRAMMAR")
  | grammar :: rest => do
    let (fileName, text) ← inputText t stdin (rest.head?.getD "-")
    if rest.length > 1 then .error (.extraArguments (rest.drop 1))
    return ⟨grammar, fileName, text, environment, trace, config⟩

theorem requestOf_eq (t : FileTree) (stdin : String) (s : Sorted) : requestOf t stdin s = (do
    if let some c := s.value? "--config" then checkConfig t c
    requestFor t stdin (s.value? "--env") (s.value? "--config") (s.has "--trace") s.words) := rfl

/-- Apart from the trace, the words ask for the same. -/
theorem requestFor_trace (t : FileTree) (stdin : String) (environment config : Option String)
    (trace other : Bool) (words : List String) : requestFor t stdin environment config trace words =
      (requestFor t stdin environment config other words).map fun r => { r with trace } := by
  unfold requestFor
  cases words with
  | nil => rfl
  | cons grammar rest =>
    dsimp only
    cases inputText t stdin (rest.head?.getD "-") with
    | error e => rfl
    | ok read =>
      by_cases long : rest.length > 1
      · simp only [if_pos long]
        rfl
      · simp only [if_neg long]
        rfl

/-- Whether there is to be a trace changes nothing else about what is asked for. -/
theorem requestOf_trace (t : FileTree) (stdin : String) {s s' : Sorted} (words : s'.words = s.words)
    (environment : s'.value? "--env" = s.value? "--env") (config : s'.value? "--config" = s.value? "--config") :
    requestOf t stdin s' = (requestOf t stdin s).map fun r => { r with trace := s'.has "--trace" } := by
  rw [requestOf_eq, requestOf_eq, words, environment, config,
    requestFor_trace t stdin _ _ (s'.has "--trace") (s.has "--trace")]
  cases s.value? "--config" with
  | none => rfl
  | some c =>
    dsimp only
    cases checkConfig t c <;> rfl

/-- A command line asks for a parse without a trace. -/
def Asks (t : FileTree) (stdin : String) (words : List String) (r : Request) : Prop :=
  ∃ s, sortWords parseOptions true words ⟨[], []⟩ = .ok s ∧ s.has "--help" = false ∧
    s.has "--trace" = false ∧ requestOf t stdin s = .ok r

section Asks

variable {t : FileTree} {stdin : String} {words : List String} {r : Request}
  (asks : Asks t stdin words r) (m : Machine) (verbose : Bool)

include asks

/-- The command without a trace runs the request without one. -/
theorem runParse_plain :
    runParse m t stdin verbose words = runRequest m t verbose { r with trace := false } := by
  obtain ⟨s, sorted, unhelped, untraced, request⟩ := asks
  have same := requestOf_trace t stdin (s := s) rfl rfl rfl
  rw [request, untraced] at same
  unfold runParse
  simp only [sorted, unhelped, request, Bool.false_eq_true, if_false]
  exact congrArg _ (Except.ok.inj same)

/-- With the option in front it runs the same request with a trace. -/
theorem runParse_traced :
    runParse m t stdin verbose ("--trace" :: words) = runRequest m t verbose { r with trace := true } := by
  obtain ⟨s, sorted, unhelped, untraced, request⟩ := asks
  have sorted' := sortWords_traced words
  have request' : requestOf t stdin s.traced =
      (requestOf t stdin s).map fun r => { r with trace := s.traced.has "--trace" } :=
    requestOf_trace t stdin rfl (value_traced s (by decide)) (value_traced s (by decide))
  have unhelped' : s.traced.has "--help" = false := unhelped
  have trace : s.traced.has "--trace" = true := rfl
  rw [sorted] at sorted'
  rw [request, trace] at request'
  unfold runParse
  simp only [sorted', request', Except.map, unhelped', Bool.false_eq_true, if_false]

end Asks

/-- Words after the name of the command are handed on to it. -/
theorem runOn_parse (m : Machine) (t : FileTree) (stdin : String) (words : List String) :
    runOn m ("parse" :: words) stdin t = runParse m t stdin false words := by
  have sorted : sortWords programOptions false ("parse" :: words) ⟨[], []⟩ = .ok ⟨[], "parse" :: words⟩ := by
    have apart : ¬ "parse" = "--" := by decide
    have plain : isOptionWord "parse" = false := by decide +kernel
    rw [sortWords, if_neg apart, plain]
    rfl
  unfold runOn
  rw [sorted]
  rfl

/-! ### The command -/

/-- The command writes the value of a parse as JSON and ends well, or it writes the failure to its error output.
With a trace it ends in the same way, with the same complaint, and what it prints is what it prints without the
trace, after lines of the trace.  What loading the grammar printed comes first in both.  The trace starts with the
grammar being entered, and it has a line for each call of its handler, which tells of that call. -/
theorem parse_with_trace {host : Host} (contained : host.Contained) {functions choosers : Value → Prop} {K : Course}
    (fresh : ∀ {σ : Store} {n : Nat}, σ.nextObject ≤ n → K.leads σ { σ with nextObject := n })
    (rounds depth : Nat)
    {t : FileTree} {stdin : String} {words : List String} {r : Request} (asks : Asks t stdin words r) {x : Prepared}
    {p : ParserId} {width : Int} {σ τ : Store} {outcome : Value}
    (loads : Loads functions choosers (machine host rounds depth) t r x p width σ)
    (even : host.Evenhanded functions choosers K (announced r σ))
    (finishes : (machine host rounds depth).call (.parser p) [.str r.text, x.environment] (announced r σ) =
      .ok outcome τ)
    (shallow : overruns (parseRequest (machine host rounds depth) { r with trace := true }) (opened t) = false)
    (writable : ∀ stop v, outcome = .success stop v → ∃ json, (τ.snapshot v).toJson .lenient = .ok json) :
    ∃ code rest complaint lines parsed υ, Verdict x r τ outcome code rest complaint ∧
      parseRequest (machine host rounds depth) { r with trace := true } (opened t) = .ok parsed υ ∧
      (x.look width).Recounts (.echo σ.echoes.size) (opening r x p σ) σ υ lines ∧
      runOn (machine host rounds depth) ("parse" :: words) stdin t =
        ⟨code, unlines σ.printed ++ rest, complaint, none⟩ ∧
      runOn (machine host rounds depth) ("parse" :: "--trace" :: words) stdin t =
        ⟨code, unlines σ.printed ++ unlines lines ++ rest, complaint, none⟩ := by
  rw [runOn_parse, runOn_parse, runParse_plain asks, runParse_traced asks]
  exact runRequest_trace contained fresh loads even finishes shallow writable

/-- Scripts do not take back that a limit was met, nor what is on record. -/
theorem limited_open : Course.limited.Open where
  leads _ journal overran := ⟨fun beyond => overran.trans beyond, [], journal⟩
  counts _ := trivial

/-! ### A grammar file that refers to itself -/

private def twice : Script.Expr :=
  .function ["v", "env"] (.apply .list [.reference "v", .reference "v"] []) (.named "<lambda>")

private def again : Script.Expr := .function ["env"] (.reference "p") (.named "<lambda>")

/-- The grammar: any character and then the grammar again, or the last character, listed twice. -/
private def nested : Script.Expr :=
  .apply .alternative [
    .apply .sequence [.reference "any_char", .apply .deferredLookup [again] []] [],
    .apply .transform [.reference "any_char", twice] []] []

private def nestedTree : FileTree := { files := [(["g.py"], .grammar [("p", nested)])] }

private def nestedRequest : Request := ⟨"g.py:p", "<stdin>", "ab", none, false, none⟩

private def twiceValue : Value :=
  .closure ["v", "env"] (.apply .list [.reference "v", .reference "v"] []) [] (.named "<lambda>") 0

private def againValue : Value := .closure ["env"] (.reference "p") [] (.named "<lambda>") 0

/-- The parsers of the grammar, from the inside out. -/
private def seekState : ParserState :=
  ⟨.object 6 (.behaviour (.deferredLookup (.object 5 againValue) "<lambda>")), .str "deferred_lookup(<lambda>)"⟩

private def pairState : ParserState := ⟨.object 7 (.behaviour (.sequence [0, 5])), .str "sequence(*2)"⟩

private def lastState : ParserState :=
  ⟨.object 9 (.behaviour (.transform 0 (.object 8 twiceValue))), .str "transform(<lambda>)"⟩

private def eitherState : ParserState := ⟨.object 10 (.behaviour (.alternative [6, 7])), .str "alternative(*2)"⟩

/-- What is there once the file was loaded. -/
private def nestedStore : Store :=
  { opened nestedTree with
    parsers := Store.initial.parsers ++ #[seekState, pairState, lastState, eitherState]
    nextObject := 11
    scopes := #[("p", .parser 8) :: sharedPrimitives.mapIdx fun i p => (p.1, Value.parser i)]
    notes := ["partser.config: no partser.toml found, using defaults",
      "partser.cli: loaded grammar p from g.py"] }

private def nestedPrepared : Prepared :=
  ⟨.int 10, .bool false, .none, .int 10, .bool true, .parser 8, .none⟩

/-- A grammar file is loaded by running its definitions and looking up the name. -/
theorem loadFile_eq {m : Machine} {place name : String} {definitions : List (String × Script.Expr)} {v : Value}
    {σ τ υ : Store} {scope : Nat} (found : σ.files.find (Path.tidy place) = .file (.grammar definitions))
    (opens : Script.openScope σ = .ok scope τ) (defines : Script.define m scope definitions τ = .ok () υ)
    (listed : definitions.any (·.1 = name) = true) (named : Script.lookUp ⟨scope, []⟩ name υ = .ok v υ) :
    Script.loadFile m place name σ = .ok v υ := by
  unfold Script.loadFile
  rw [bind_get, found]
  dsimp only
  rw [bind_ok opens, bind_ok defines, if_pos listed]
  exact named

theorem loadGrammar_eq {m : Machine} {ref place name : String} {p : ParserId} {σ τ : Store}
    (split : Script.splitReference? ref = some (place, name)) (file : Script.isGrammarFile place = true)
    (loaded : Script.loadFile m place name σ = .ok (.parser p) τ) (there : p < τ.parsers.size) :
    Script.loadGrammar m (.str ref) σ = .ok (.parser p)
      { τ with notes := τ.notes ++ ["partser.cli: " ++ ("loaded grammar " ++ name ++ " from " ++ place)] } := by
  have known : isParser (.parser p) τ = .ok true τ :=
    congrArg (EStateM.Result.ok · τ) (decide_eq_true there)
  unfold Script.loadGrammar
  dsimp only
  rw [split]
  dsimp only
  rw [if_pos file, bind_ok loaded, bind_ok known]
  rfl

theorem lookUp_eq {c : Script.Context} {name : String} {names : List (String × Value)} {v : Value} {σ : Store}
    (outer : c.locals.lookup name = none) (table : σ.scopes[c.scope]? = some names)
    (listed : names.lookup name = some v) : Script.lookUp c name σ = .ok v σ := by
  have read : Script.namesOf c.scope σ = .ok names σ := by
    unfold Script.namesOf
    rw [bind_get, table]
    rfl
  unfold Script.lookUp
  rw [outer]
  dsimp only
  rw [bind_ok read, listed]
  rfl

section Evaluated

variable {m : Machine} {c : Script.Context} {σ τ υ ω : Store} {e : Script.Expr} {rest arguments : List Script.Expr}
  {v u : Value} {vs : List Value} {op : Script.Op}

theorem evalAll_cons (first : Script.eval m c e σ = .ok v τ) (later : Script.evalAll m c rest τ = .ok vs υ) :
    Script.evalAll m c (e :: rest) σ = .ok (v :: vs) υ := by
  rw [Script.evalAll, bind_ok first, bind_ok later]
  rfl

/-- An operation is applied to what its arguments come to, and its value gets an identity. -/
theorem eval_apply (given : Script.evalAll m c arguments σ = .ok vs τ)
    (applied : Script.applyOp m op vs [] τ = .ok v υ) (shared : v.share υ = .ok u ω) :
    Script.eval m c (.apply op arguments []) σ = .ok u ω := by
  have unnamed : Script.evalNamed m c [] τ = .ok [] τ := rfl
  rw [Script.eval, bind_ok given, bind_ok unnamed, bind_ok applied, shared]

end Evaluated

private theorem eval_nested (m : Machine) {σ : Store} (parsers : σ.parsers = Store.initial.parsers)
    (objects : σ.nextObject = 5)
    (table : σ.scopes[0]? = some (sharedPrimitives.mapIdx fun i p => (p.1, Value.parser i))) :
    Script.eval m ⟨0, []⟩ nested σ =
      .ok (.parser 8) { σ with parsers := nestedStore.parsers, nextObject := nestedStore.nextObject } := by
  obtain ⟨_, echoes, edits, _, tracers, scopes, printed, logged, notes, files, journal, overran⟩ := σ
  obtain rfl : _ = Store.initial.parsers := parsers
  obtain rfl : _ = 5 := objects
  let c : Script.Context := ⟨0, []⟩
  let made (ps : Array ParserState) (n : Nat) : Store :=
    ⟨Store.initial.parsers ++ ps, echoes, edits, n, tracers, scopes, printed, logged, notes, files,
      journal, overran⟩
  have character : ∀ ps n, Script.eval m c (.reference "any_char") (made ps n) = .ok (.parser 0) (made ps n) :=
    fun ps n => lookUp_eq rfl table rfl
  have seek : Script.eval m c (.apply .deferredLookup [again] []) (made #[] 5) =
      .ok (.parser 5) (made #[seekState] 7) := eval_apply (evalAll_cons rfl rfl) rfl rfl
  have pair : Script.eval m c (.apply .sequence [.reference "any_char", .apply .deferredLookup [again] []] [])
      (made #[] 5) = .ok (.parser 6) (made #[seekState, pairState] 8) :=
    eval_apply (evalAll_cons (character _ _) (evalAll_cons seek rfl)) rfl rfl
  have last : Script.eval m c (.apply .transform [.reference "any_char", twice] [])
      (made #[seekState, pairState] 8) = .ok (.parser 7) (made #[seekState, pairState, lastState] 10) :=
    eval_apply (evalAll_cons (character _ _) (evalAll_cons rfl rfl)) rfl rfl
  have either : Script.eval m c nested (made #[] 5) =
      .ok (.parser 8) (made #[seekState, pairState, lastState, eitherState] 11) :=
    eval_apply (evalAll_cons pair (evalAll_cons last rfl)) rfl rfl
  exact either

private theorem load_nested :
    prepare Script.mainMachine nestedRequest (opened nestedTree) = .ok nestedPrepared nestedStore := by
  let σ : Store := { opened nestedTree with
    notes := ["partser.config: no partser.toml found, using defaults"] }
  let τ : Store := { σ with scopes := #[sharedPrimitives.mapIdx fun i p => (p.1, Value.parser i)] }
  let υ : Store := { nestedStore with notes := σ.notes }
  have tidy : Path.tidy "g.py" = "g.py" := by decide +kernel
  have relative : Path.isAbsolute "g.py" = false := by decide +kernel
  have found : σ.files.find (Path.tidy "g.py") = .file (.grammar [("p", nested)]) := by
    rw [tidy]
    unfold FileTree.find
    rw [relative]
    rfl
  have split : Script.splitReference? "g.py:p" = some ("g.py", "p") := by decide +kernel
  have file : Script.isGrammarFile "g.py" = true := by decide +kernel
  have called : Script.mainMachine.call (.closure [] nested [] (.nameless "p") 0) [] τ =
      Script.eval (machine Script.host Script.roundLimit 999) ⟨0, []⟩ nested τ := rfl
  have defines : Script.define Script.mainMachine 0 [("p", nested)] τ = .ok () υ := by
    unfold Script.define
    rw [bind_ok (called.trans (eval_nested _ rfl rfl rfl))]
    rfl
  have loaded : Script.loadFile Script.mainMachine "g.py" "p" σ = .ok (.parser 8) υ :=
    loadFile_eq found rfl defines rfl rfl
  have settings : settingsFor none (opened nestedTree) = .ok Config.defaults σ := rfl
  have grammar := loadGrammar_eq split file loaded (by decide)
  unfold prepare
  rw [show nestedRequest.config = none from rfl, bind_ok settings]
  rw [bind_ok (show settingOf Config.defaults σ = .ok _ σ from rfl)]
  exact bind_ok grammar

/-- The functions of the file, and the one of them that chooses a parser. -/
private def IsTwice (f : Value) : Prop := f.content = twiceValue

private def IsAgain (f : Value) : Prop := f.content = againValue

/-- What the functions rely on: parsers do what they did, and names stand for what they stood for. -/
private def naming : Course where
  leads σ τ := Course.kept.leads σ τ ∧ τ.scopes = σ.scopes
  refl σ := ⟨Course.kept.refl σ, rfl⟩
  trans first second := ⟨Course.kept.trans first.1 second.1, second.2.trans first.2⟩

private theorem apply_twice (m : Machine) {f : Value} (same : f.content = twiceValue) (arguments : List Value) :
    Script.host.apply m f arguments =
      match arguments with
      | [v, _] => (Value.list [v, v]).share
      | _ => raise .wrongType := by
  show Script.applyClosure m f arguments = _
  unfold Script.applyClosure
  rw [same]
  rcases arguments with _ | ⟨v, _ | ⟨env, _ | ⟨more, rest⟩⟩⟩
  · rfl
  · rfl
  · rfl
  · rfl

private theorem apply_again (m : Machine) {f : Value} (same : f.content = againValue) (arguments : List Value) :
    Script.host.apply m f arguments =
      match arguments with
      | [env] => Script.lookUp ⟨0, [("env", env)]⟩ "p"
      | _ => raise .wrongType := by
  show Script.applyClosure m f arguments = _
  unfold Script.applyClosure
  rw [same]
  rcases arguments with _ | ⟨env, _ | ⟨more, rest⟩⟩
  · rfl
  · rfl
  · rfl

private theorem undebugged_nested : Among (Behaviour.Undebugged IsTwice IsAgain) nestedStore 8 := by
  refine ⟨fun p => p = 0 ∨ p = 5 ∨ p = 6 ∨ p = 7 ∨ p = 8, by simp, ?_⟩
  rintro p (rfl | rfl | rfl | rfl | rfl)
  · exact ⟨.anyChar, rfl, trivial⟩
  · exact ⟨.deferredLookup (.object 5 againValue) "<lambda>", rfl, rfl⟩
  · exact ⟨.sequence [0, 5], rfl, by simp [Behaviour.Undebugged]⟩
  · exact ⟨.transform 0 (.object 8 twiceValue), rfl, .inl rfl, rfl⟩
  · exact ⟨.alternative [6, 7], rfl, List.cons_ne_nil _ _, by simp⟩

/-- The name of the grammar stands for the grammar, also where it is traced. -/
private theorem lookUp_again {w : Watch} (origin : w.origin = announced nestedRequest nestedStore)
    (course : w.course = naming) {σ τ : Store} (hw : Watched w σ τ) (env env' : Value) :
    Script.lookUp ⟨0, [("env", env)]⟩ "p" σ = .ok (.parser 8) σ ∧
      Script.lookUp ⟨0, [("env", env')]⟩ "p" τ = .ok (.parser 8) τ := by
  have led := hw.led
  rw [course, origin] at led
  have names : σ.scopes = nestedStore.scopes := led.2
  have gap : w.gap = (announced nestedRequest nestedStore).gap := congrArg Store.gap origin
  have names' : τ.scopes = nestedStore.scopes.map (Value.renumberedNamed w.gap) := names ▸ hw.scopes
  rw [gap] at names'
  exact ⟨lookUp_eq rfl (by rw [names]; rfl) rfl, lookUp_eq rfl (by rw [names', Array.getElem?_map]; rfl) rfl⟩

private theorem evenhanded_nested :
    Script.host.Evenhanded IsTwice IsAgain naming (announced nestedRequest nestedStore) where
  keeps := limited_open.host
  share := rfl
  calls := by
    rintro w m m' origin course hm σ τ f hw (same | same) arguments
    · have same' : (f.renumbered w.gap).content = twiceValue := by
        rw [content_renumbered, same]
        rfl
      have closure : f.content.IsClosure := same ▸ trivial
      have closure' : (f.renumbered w.gap).content.IsClosure := same' ▸ trivial
      rw [invoke_closure closure, invoke_closure closure', apply_twice _ same, apply_twice _ same']
      have other : ¬ IsAgain f := by
        intro same''
        have equal := same.symm.trans same''
        simp [twiceValue, againValue] at equal
      rcases arguments with _ | ⟨v, _ | ⟨env, _ | ⟨more, rest⟩⟩⟩
      · exact retraces_raise hw _
      · exact retraces_raise hw _
      · have shared := retraces_share hm hw (.list [v, v])
        rw [hm.share, hm.share'] at shared
        exact shared.mono fun a b _ _ h => ⟨h.1, fun chooses => absurd chooses other⟩
      · exact retraces_raise hw _
    · have same' : (f.renumbered w.gap).content = againValue := by
        rw [content_renumbered, same]
        rfl
      have closure : f.content.IsClosure := same ▸ trivial
      have closure' : (f.renumbered w.gap).content.IsClosure := same' ▸ trivial
      rw [invoke_closure closure, invoke_closure closure', apply_again _ same, apply_again _ same']
      rcases arguments with _ | ⟨env, _ | ⟨more, rest⟩⟩
      · exact retraces_raise hw _
      · obtain ⟨plain, traced⟩ := lookUp_again origin course hw env (env.renumbered w.gap)
        simp only [List.map_cons, List.map_nil]
        refine (retraces_pure (a := .parser 8) (b := .parser 8) hw ?_).congr traced plain
        have led := hw.led
        rw [course, origin] at led
        refine ⟨by rw [Watch.gap, origin]; rfl, fun _ p found _ => ?_⟩
        obtain rfl := Value.parser.inj found
        exact undebugged_nested.of_kept (Course.kept.trans ⟨rfl, fun _ _ there => there⟩ led.1)
      · exact retraces_raise hw _

private theorem asks_nested : Asks nestedTree "ab" ["g.py:p"] nestedRequest := by
  refine ⟨⟨[], ["g.py:p"]⟩, ?_, rfl, rfl, rfl⟩
  have word : isOptionWord "g.py:p" = false := by decide +kernel
  rw [sortWords, if_neg (by decide), word]
  rfl

private theorem loads_nested :
    Loads IsTwice IsAgain Script.mainMachine nestedTree nestedRequest nestedPrepared 8 10 nestedStore where
  prepared := load_nested
  grammar := rfl
  context := rfl
  errors := ⟨10, rfl⟩
  undebugged := undebugged_nested
  named p s there := by
    match p, there with
    | 0, there | 1, there | 2, there | 3, there | 4, there | 5, there | 6, there | 7, there | 8, there =>
      cases there
      exact ⟨_, rfl⟩
    | n + 9, there => cases there
  depths e s there := by cases there

/-- The value that the command would print, as JSON. -/
private def nestedAnswer : Option String :=
  match Script.mainMachine.call (.parser 8) [.str nestedRequest.text, nestedPrepared.environment]
      (announced nestedRequest nestedStore) with
  | .ok (.result (.bool true) _ v) τ => ((τ.snapshot v).toJson .lenient).toOption.map (·.render Json.spaced)
  | _ => none

private theorem finishes_nested : ∃ stop v τ json,
    Script.mainMachine.call (.parser 8) [.str nestedRequest.text, nestedPrepared.environment]
      (announced nestedRequest nestedStore) = .ok (.success stop v) τ ∧
    (τ.snapshot v).toJson .lenient = .ok json ∧ json.render Json.spaced = "[\"a\", [\"b\", \"b\"]]" := by
  have answer : nestedAnswer = some "[\"a\", [\"b\", \"b\"]]" := by decide +kernel
  unfold nestedAnswer at answer
  split at answer
  · next stop v τ ended =>
    cases written : (τ.snapshot v).toJson .lenient with
    | ok json =>
      rw [written] at answer
      exact ⟨stop, v, τ, json, ended, written, Option.some.inj answer⟩
    | error c =>
      rw [written] at answer
      cases answer
  · cases answer

/-- The program on that file and the text "ab". -/
theorem parse_with_trace_nested : ∃ lines υ,
    (nestedPrepared.look 10).Recounts (.echo 0) (opening nestedRequest nestedPrepared 8 nestedStore)
      nestedStore υ lines ∧
    run ["parse", "g.py:p"] "ab" nestedTree = ⟨0, "[\"a\", [\"b\", \"b\"]]\n", "", none⟩ ∧
    run ["parse", "--trace", "g.py:p"] "ab" nestedTree =
      ⟨0, unlines lines ++ "[\"a\", [\"b\", \"b\"]]\n", "", none⟩ := by
  have fresh : ∀ {σ : Store} {n : Nat}, σ.nextObject ≤ n → naming.leads σ { σ with nextObject := n } :=
    fun {σ n} _ => ⟨⟨rfl, fun _ _ there => there⟩, rfl⟩
  obtain ⟨stop, v, τ, json, finishes, written, shown⟩ := finishes_nested
  have writable : ∀ stop' u, Value.success stop v = .success stop' u →
      ∃ json, (τ.snapshot u).toJson .lenient = .ok json := by
    rintro stop' u ⟨⟩
    exact ⟨json, written⟩
  obtain ⟨code, rest, complaint, lines, parsed, υ, verdict, -, recounts, plain, traced⟩ :=
    parse_with_trace host_contained fresh Script.roundLimit Script.depthLimit asks_nested loads_nested
      evenhanded_nested finishes (by decide +kernel) writable
  cases verdict with
  | value written' =>
    obtain rfl := Except.ok.inj (written.symm.trans written')
    rw [shown] at plain traced
    exact ⟨lines, υ, recounts, plain, traced⟩

/-! ### Parsers that are run on other things than texts -/

/-- A file with a function that runs a parser on a number, takes care of errors, and tells whether it came to
the start.  Handlers that print need a text. -/
private def wary : FileTree :=
  let asked := .apply .run [.reference "index", .plain (.int 5)] []
  let start := .attempt (.apply .attribute (asked :: [.plain (.str "value")]) [])
  let told := .function ["v", "env"] (.apply .equal [start, .plain (.int 0)] []) (.named "<lambda>")
  { files := [(["g.py"], .grammar [("g", .apply .transform [.reference "rest", told] [])])] }

/-- A trace changes what such a function returns. -/
theorem trace_changes_value : (run ["parse", "g.py:g"] "ab" wary).stdout = "true\n" ∧
    ¬ ∃ lines, (run ["parse", "--trace", "g.py:g"] "ab" wary).stdout =
      lines ++ (run ["parse", "g.py:g"] "ab" wary).stdout := by
  have plain : (run ["parse", "g.py:g"] "ab" wary).stdout = "true\n" := by decide +kernel
  have ending : (run ["parse", "--trace", "g.py:g"] "ab" wary).stdout.toList.reverse.take 3 = ['\n', 'e', 's'] := by
    decide +kernel
  refine ⟨plain, ?_⟩
  rintro ⟨lines, traced⟩
  rw [traced, plain] at ending
  simp at ending

end Rebind.Command
