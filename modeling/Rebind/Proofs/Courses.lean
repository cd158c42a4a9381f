import Rebind.Proofs.Evaluation
/-!
# Machines that keep to a course

Behaviours reach the store through the machine below them, through printing handlers, and where a
`debug` node pushes and pops its tracer.  So a course is kept by everything that a machine runs as soon
as it is kept by the functions of the host, and by the two places where tracing comes in.
-/
namespace Rebind

/-! ### The state of printing handlers -/

section

variable {σ : Store} {id : HandlerId} {s : EchoState}

theorem echoOf_eq (now : σ.echoes[id]? = some s) : Trace.echoOf id σ = .ok s σ := by
  simp only [Trace.echoOf, bind_get, now]
  rfl

/-- A printing handler that does not exist is an error. -/
theorem echoOf_none (unknown : σ.echoes[id]? = none) :
    Trace.echoOf id σ = .error (.raised (.error .missingAttribute)) σ := by
  simp only [Trace.echoOf, bind_get, unknown]
  rfl

/-- Printing handlers are not among the contents of values. -/
theorem view_setEcho (s : EchoState) (σ : Store) (v : Value) : (σ.setEcho id s).view v = σ.view v := by
  cases v <;> rfl

end

/-! ### The lines of printing handlers -/

namespace Trace

/-- What a printing handler does when a parser is entered, before it counts the depth up. -/
def enterLine (m : Machine) (id : HandlerId) (parser text offset env : Value) : Eval Unit := do
  let extra ← consult m (← echoOf id).onEnter [parser, text, offset, env]
  if ← truthy extra then
    let s ← echoOf id
    let start ← lineStartOf s .enter text offset .none
    let place ← placeText text offset
    echo s.color (start ++ place ++ " " ++ (← nameText parser) ++ " ?")
    echoExtra s.color start extra

/-- What a printing handler does about a result, after it counted the depth down. -/
def exitLine (m : Machine) (id : HandlerId) (parser text offset env outcome : Value) : Eval Unit := do
  let extra ← consult m (← echoOf id).onExit [parser, text, offset, env, outcome]
  if ← truthy extra then
    let s ← echoOf id
    let name ← nameText parser
    let (start, ending) ←
      if ← truthy (← attributeOf outcome "status") then do
        let stop ← attributeOf outcome "index"
        let start ← lineStartOf s .okay text offset stop
        pure (start, ← okayText text offset stop)
      else do
        let start ← lineStartOf s .fail text offset .none
        let json ← jsonOf Json.compact (← attributeOf outcome "value")
        pure (start, "FAIL " ++ json)
    let place ← placeText text offset
    echo s.color (start ++ place ++ " " ++ name ++ " " ++ ending)
    echoExtra s.color start extra

/-- What a printing handler does about an error, after it counted the depth down. -/
def abortLine (id : HandlerId) (parser text offset error : Value) : Eval Unit := do
  let s ← echoOf id
  let start ← lineStartOf s .fail text offset .none
  let place ← placeText text offset
  let name ← nameText parser
  echo s.color (start ++ place ++ " " ++ name ++ " RAISE " ++ (← shown error).kindName)

/-- Entering prints a line and goes one level deeper. -/
theorem echoEnter_line (m : Machine) (id : HandlerId) (parser text offset env : Value) :
    echoEnter m id parser text offset env =
      (do enterLine m id parser text offset env; changeDepth id addTo) := by
  simp only [echoEnter, enterLine, bind_assoc]
  refine congrArg _ (funext fun s => congrArg _ (funext fun extra => congrArg _ (funext fun wanted => ?_)))
  cases wanted
  · rfl
  · simp [bind_assoc]

end Trace

structure Machine.Keeps (m : Machine) (K : Course) : Prop where
  run : ∀ id text i env, K.Keeps (m.run id text i env)
  call : ∀ f arguments, K.Keeps (m.call f arguments)
  share : ∀ v, K.Keeps (m.share v)

/-- A host whose functions keep to a course when the machine that they are lent does. -/
structure Host.Keeps (host : Host) (K : Course) : Prop where
  apply : ∀ m, m.Keeps K → ∀ f arguments, K.Keeps (host.apply m f arguments)
  share : ∀ v, K.Keeps (host.share v)

namespace Course

variable {K : Course} {m : Machine}

/-! ### Behaviours -/

theorem keeps_anyChar (text i env : Value) : K.Keeps (Behave.anyChar text i env) := by
  refine keeps_bind (K.keeps_lengthOf text) fun size => ?_
  refine keeps_bind (K.keeps_atMost _ _) fun past => K.keeps_ite (K.keeps_pure _) ?_
  refine keeps_bind (K.keeps_addTo _ _) fun next => ?_
  exact keeps_bind (K.keeps_itemOf _ _) fun c => K.keeps_pure _

theorem keeps_rest (text i env : Value) : K.Keeps (Behave.rest text i env) := by
  refine keeps_bind (K.keeps_lengthOf text) fun size => ?_
  exact keeps_bind (K.keeps_sliceOf _ _ _) fun left => K.keeps_pure _

theorem keeps_eof (text i env : Value) : K.Keeps (Behave.eof text i env) := by
  refine keeps_bind (K.keeps_lengthOf text) fun size => ?_
  exact keeps_bind (K.keeps_lessThan _ _) fun more => K.keeps_ite (K.keeps_pure _) (K.keeps_pure _)

/-- The behaviours one after the other: each keeps to a course to which the services of its machine keep. -/
theorem keeps_string (literal : String) (text i env : Value) :
    K.Keeps (Behave.string literal text i env) := by
  have asked : K.Keeps (Behave.holdsAt text literal i) := by
    refine keeps_bind (K.keeps_view text) fun w => ?_
    split
    · exact keeps_bind (K.keeps_boundOf i) fun bound => K.keeps_pure _
    · exact K.keeps_raise _
  refine keeps_bind asked fun holds => K.keeps_ite ?_ (K.keeps_pure _)
  exact keeps_bind (K.keeps_addTo _ _) fun next => K.keeps_pure _

theorem keeps_regex (r : Regex) (group : Nat) (text i env : Value) :
    K.Keeps (Behave.regex r group text i env) := by
  refine keeps_bind (K.keeps_sliceOf _ _ _) fun left => ?_
  split
  · refine K.keeps_ite (K.keeps_raise _) ?_
    split
    · refine keeps_bind (K.keeps_addTo _ _) fun next => keeps_bind ?_ fun _ => K.keeps_pure _
      exact K.keeps_ite (K.keeps_raise _) (K.keeps_pure _)
    · exact K.keeps_pure _
  · exact K.keeps_raise _

theorem keeps_testChar (hm : m.Keeps K) (predicate : Value) (d : String) (text i env : Value) :
    K.Keeps (Behave.testChar m predicate d text i env) := by
  have asked : K.Keeps (Behave.accepts m predicate text i env) := by
    refine keeps_bind (K.keeps_lengthOf text) fun size => ?_
    refine keeps_bind (K.keeps_lessThan _ _) fun more => K.keeps_ite ?_ (K.keeps_pure _)
    refine keeps_bind (K.keeps_itemOf _ _) fun c => ?_
    exact keeps_bind (hm.call _ _) fun v => K.keeps_truthy v
  refine keeps_bind asked fun accepted => K.keeps_ite ?_ (K.keeps_pure _)
  refine keeps_bind (K.keeps_addTo _ _) fun next => ?_
  exact keeps_bind (K.keeps_itemOf _ _) fun c => K.keeps_pure _

/-- What depends on whether a result is a success. -/
theorem keeps_judged {α : Type} (v : Value) {yes no : Result → Eval α} (hy : ∀ r, K.Keeps (yes r))
    (hn : ∀ r, K.Keeps (no r)) : K.Keeps (do
      let r ← resultOf v
      if ← truthy r.status then yes r else no r) := by
  refine keeps_bind (K.keeps_resultOf v) fun r => ?_
  exact keeps_bind (K.keeps_truthy _) fun succeeded => K.keeps_ite (hy r) (hn r)

theorem keeps_sequenceFrom (hm : m.Keeps K) (text env : Value) (parts : List ParserId)
    (previous : Value) (values : List Value) (i : Value) :
    K.Keeps (Behave.sequenceFrom m text env parts previous values i) := by
  induction parts generalizing previous values i with
  | nil => exact K.keeps_mergeOver _ _
  | cons p ps ih =>
    refine keeps_bind (hm.run _ _ _ _) fun outcome => ?_
    refine keeps_bind (K.keeps_mergeOver _ _) fun merged => ?_
    exact keeps_judged _ (fun r => ih _ _ _) fun r => K.keeps_pure _

theorem keeps_alternativeFrom (hm : m.Keeps K) (text i env : Value) (choices : List ParserId)
    (previous : Value) : K.Keeps (Behave.alternativeFrom m text i env choices previous) := by
  induction choices generalizing previous with
  | nil => exact K.keeps_pure _
  | cons p ps ih =>
    refine keeps_bind (hm.run _ _ _ _) fun outcome => ?_
    refine keeps_bind (K.keeps_mergeOver _ _) fun merged => ?_
    exact keeps_judged _ (fun r => K.keeps_pure _) fun r => ih _

theorem keeps_requiredRounds (hm : m.Keeps K) (item : ParserId) (text env : Value) (n : Nat)
    (previous : Value) (values : List Value) (i : Value) :
    K.Keeps (Behave.requiredRounds m item text env n previous values i) := by
  induction n generalizing previous values i with
  | zero => exact K.keeps_pure _
  | succ n ih =>
    refine keeps_bind (hm.run _ _ _ _) fun outcome => ?_
    refine keeps_bind (K.keeps_mergeOver _ _) fun merged => ?_
    exact keeps_judged _ (fun r => ih _ _ _) fun r => K.keeps_pure _

theorem keeps_optionalRounds (hm : m.Keeps K) (item : ParserId) (text env : Value) (n : Nat)
    (values : List Value) (i : Value) :
    K.Keeps (Behave.optionalRounds m item text env n values i) := by
  induction n generalizing values i with
  | zero => exact K.keeps_pure _
  | succ n ih =>
    refine keeps_bind (hm.run _ _ _ _) fun outcome => ?_
    exact keeps_judged _ (fun r => ih _ _) fun r => K.keeps_pure _

theorem keeps_repetition (hm : m.Keeps K) (item : ParserId) (least most : Count)
    (text i env : Value) : K.Keeps (Behave.repetition m item least most text i env) := by
  have more : ∀ limit values i, K.Keeps (Behave.moreRounds m item text env limit values i) := by
    intro limit values i
    refine keeps_bind (keeps_optionalRounds hm _ _ _ _ _ _) fun reached => ?_
    exact K.keeps_ite (K.keeps_throw _) (K.keeps_pure _)
  refine keeps_bind (keeps_requiredRounds hm _ _ _ _ _ _ _) fun progress => ?_
  cases progress with
  | failed merged => exact K.keeps_pure _
  | reached i values =>
    dsimp only
    split
    · exact more _ _ _
    · exact K.keeps_throw _

theorem keeps_transform (hm : m.Keeps K) (inner : ParserId) (function text i env : Value) :
    K.Keeps (Behave.transform m inner function text i env) := by
  refine keeps_bind (hm.run _ _ _ _) fun outcome => ?_
  refine keeps_judged _ (fun r => ?_) fun r => K.keeps_pure _
  refine keeps_bind (hm.share _) fun v => ?_
  exact keeps_bind (hm.call _ _) fun w => K.keeps_pure _

theorem keeps_unexcluded (i outcome expected : Value) : K.Keeps (do
    let a ← resultOf outcome
    if ← truthy a.status then return outcome
    let wanted ← expectedText a.value
    let except ← expectedText expected
    return Value.failure i (.str (wanted ++ " (except " ++ except ++ ")"))) := by
  refine keeps_judged _ (fun a => K.keeps_pure _) fun a => ?_
  refine keeps_bind (K.keeps_expectedText _) fun wanted => ?_
  exact keeps_bind (K.keeps_expectedText _) fun unwanted => K.keeps_pure _

theorem keeps_exclude (hm : m.Keeps K) (allowed forbidden : ParserId) (text i env : Value) :
    K.Keeps (Behave.exclude m allowed forbidden text i env) := by
  refine keeps_bind (hm.run _ _ _ _) fun found => keeps_judged _ (fun f => ?_) fun f => ?_
  · exact keeps_bind (K.keeps_textOf _) fun s => K.keeps_pure _
  · exact keeps_bind (hm.run _ _ _ _) fun outcome => keeps_unexcluded i outcome f.value

theorem keeps_describe (hm : m.Keeps K) (inner : ParserId) (d : String) (text i env : Value) :
    K.Keeps (Behave.describe m inner d text i env) := by
  refine keeps_bind (hm.run _ _ _ _) fun outcome => ?_
  exact keeps_judged _ (fun r => K.keeps_pure _) fun r => K.keeps_pure _

theorem keeps_threeOf (v : Value) : K.Keeps (Behave.threeOf v) := by
  refine keeps_bind (K.keeps_itemsOf v) fun items => ?_
  split <;> simp

theorem keeps_mark (hm : m.Keeps K) (framed : ParserId) (text i env : Value) :
    K.Keeps (Behave.mark m framed text i env) := by
  refine keeps_bind (hm.run _ _ _ _) fun outcome => ?_
  refine keeps_judged _ (fun r => ?_) fun r => K.keeps_pure _
  exact keeps_bind (keeps_threeOf _) fun parts => K.keeps_pure _

theorem keeps_chosen (hm : m.Keeps K) (decide next outcome text i env : Value) : K.Keeps (do
    let name ← match decide.functionName? with
      | some name => pure name
      | none => textOf decide
    let id ← Grammar.parserOf ("chain(" ++ name ++ ")") next
    mergeOver (← m.run id text i env) outcome) := by
  have rest : ∀ name, K.Keeps (do
      let id ← Grammar.parserOf ("chain(" ++ name ++ ")") next
      mergeOver (← m.run id text i env) outcome) := fun name =>
    keeps_bind (K.keeps_parserOf _ _) fun id =>
      keeps_bind (hm.run _ _ _ _) fun last => K.keeps_mergeOver _ _
  split
  · exact rest _
  · exact keeps_bind (K.keeps_textOf _) fun name => rest name

theorem keeps_chain (hm : m.Keeps K) (first : ParserId) (decide text i env : Value) :
    K.Keeps (Behave.chain m first decide text i env) := by
  refine keeps_bind (hm.run _ _ _ _) fun outcome => ?_
  refine keeps_judged _ (fun r => ?_) fun r => K.keeps_pure _
  refine keeps_bind (hm.share _) fun outcome => keeps_bind (K.keeps_resultOf _) fun r => ?_
  exact keeps_bind (hm.call _ _) fun next => keeps_chosen hm decide next outcome text r.index env

theorem keeps_deferredLookup (hm : m.Keeps K) (resolve : Value) (name : String)
    (text i env : Value) : K.Keeps (Behave.deferredLookup m resolve name text i env) := by
  refine keeps_bind (hm.call _ _) fun found => ?_
  exact keeps_bind (K.keeps_parserOf _ _) fun id => hm.run _ _ _ _

/-- A behaviour keeps to every course that its machine keeps to, if the pushing and popping of a
tracer does. -/
theorem keeps_behave (hm : m.Keeps K) (b : Behaviour Value) (text i env : Value)
    (hd : ∀ inner handler, b = .debug inner handler →
      K.Keeps (Behave.debug m inner handler text i env)) :
    K.Keeps (behave m b text i env) := by
  cases b with
  | anyChar => exact keeps_anyChar text i env
  | rest => exact keeps_rest text i env
  | eof => exact keeps_eof text i env
  | index => exact K.keeps_pure _
  | lineColumnIndex => exact keeps_bind (K.keeps_lineColumnOf text i) fun v => K.keeps_pure _
  | succeed v => exact K.keeps_pure _
  | fail d => exact K.keeps_pure _
  | string s => exact keeps_string s text i env
  | regex r group => exact keeps_regex r group text i env
  | testChar predicate d => exact keeps_testChar hm predicate d text i env
  | sequence parts => exact keeps_sequenceFrom hm text env parts _ _ i
  | alternative choices => exact keeps_alternativeFrom hm text i env choices _
  | repetition item least most => exact keeps_repetition hm item least most text i env
  | transform inner f => exact keeps_transform hm inner f text i env
  | exclude allowed forbidden => exact keeps_exclude hm allowed forbidden text i env
  | describe inner d => exact keeps_describe hm inner d text i env
  | mark framed => exact keeps_mark hm framed text i env
  | chain first decide => exact keeps_chain hm first decide text i env
  | subEnvironment inner derive => exact keeps_bind (hm.call _ _) fun inside => hm.run _ _ _ _
  | deferredLookup resolve name => exact keeps_deferredLookup hm resolve name text i env
  | debug inner handler => exact hd inner handler rfl

/-! ### Calls -/

theorem keeps_callParser (hm : m.Keeps K) (id : ParserId) (text env i : Value) :
    K.Keeps (callParser m id text env i) := by
  refine keeps_bind (hm.run _ _ _ _) fun outcome => ?_
  refine keeps_judged _ (fun r => ?_) fun r => K.keeps_pure _
  refine keeps_bind (K.keeps_lengthOf _) fun size => keeps_bind (K.keeps_lessThan _ _) fun more => ?_
  exact K.keeps_ite (K.keeps_mergeOver _ _) (K.keeps_pure _)

/-- Calling a value keeps to a course that the host and the machine keep to, if the pushing and
popping of a tracer does. -/
theorem keeps_invoke {host : Host} (hh : host.Keeps K) (hm : m.Keeps K)
    (hd : ∀ inner handler text i env, K.Keeps (Behave.debug m inner handler text i env))
    (f : Value) (arguments : List Value) : K.Keeps (invoke host m f arguments) := by
  unfold invoke
  split
  · exact keeps_behave hm _ _ _ _ fun inner handler _ => hd inner handler _ _ _
  · exact keeps_callParser hm _ _ _ _
  · exact keeps_callParser hm _ _ _ _
  · exact keeps_callParser hm _ _ _ _
  · exact hh.apply m hm _ _
  · exact K.keeps_raise _

theorem keeps_runCurrent {host : Host} (hh : host.Keeps K) (hm : m.Keeps K)
    (hd : ∀ inner handler text i env, K.Keeps (Behave.debug m inner handler text i env))
    (id : ParserId) (text i env : Value) : K.Keeps (runCurrent host m id text i env) := by
  refine keeps_bind ?_ fun f => keeps_invoke hh hm hd f _
  refine keeps_bind K.keeps_get fun σ => ?_
  split <;> simp

/-! ### Printing handlers -/

/-- A course to which it does not matter what is printed. -/
def Prints (K : Course) : Prop :=
  ∀ (σ : Store) (printed : List String), K.leads σ { σ with printed }

/-- A course to which it does not matter what printing handlers print and how deep they are. -/
def Quiet (K : Course) : Prop :=
  ∀ (σ : Store) (echoes : Array EchoState) (printed : List String),
    K.leads σ { σ with echoes, printed }

theorem Quiet.prints (hq : K.Quiet) : K.Prints := fun σ printed => hq σ σ.echoes printed

@[simp] theorem keeps_echoOf (id : HandlerId) : K.Keeps (Trace.echoOf id) := by
  refine keeps_bind K.keeps_get fun σ => ?_
  split <;> simp

/-- The parts of a printing handler. -/
theorem keeps_changeDepth (hq : K.Quiet) (id : HandlerId) {change : Value → Value → Eval Value}
    (hc : ∀ v w, K.Keeps (change v w)) : K.Keeps (Trace.changeDepth id change) := by
  refine keeps_bind (keeps_echoOf id) fun s => keeps_bind (hc _ _) fun depth => ?_
  exact K.keeps_modify fun σ => hq σ _ _

theorem keeps_printLine (hp : K.Prints) (s : String) : K.Keeps (printLine s) :=
  K.keeps_modify fun σ => hp σ _

theorem keeps_echo (hp : K.Prints) (color : Value) (line : String) :
    K.Keeps (Trace.echo color line) :=
  keeps_bind (K.keeps_truthy _) fun _ =>
    K.keeps_ite (keeps_printLine hp _) (keeps_printLine hp _)

@[simp] theorem keeps_charOf (v : Value) : K.Keeps (Trace.charOf v) := by
  refine keeps_bind (K.keeps_view v) fun w => ?_
  split
  · split <;> simp
  · exact K.keeps_raise _

@[simp] theorem keeps_wholeOf (v : Value) : K.Keeps (Trace.wholeOf v) := by
  refine keeps_bind (K.keeps_view v) fun w => ?_
  split <;> simp

theorem keeps_mapM {α β : Type} {f : α → Eval β} (hf : ∀ a, K.Keeps (f a)) (xs : List α) :
    K.Keeps (xs.mapM f) := by
  induction xs with
  | nil => exact K.keeps_pure _
  | cons x rest ih =>
    rw [List.mapM_cons]
    exact keeps_bind (hf x) fun b => keeps_bind ih fun bs => K.keeps_pure _

theorem keeps_forM {α : Type} {f : α → Eval PUnit} (hf : ∀ a, K.Keeps (f a)) (xs : List α) :
    K.Keeps (xs.forM f) := by
  induction xs with
  | nil => exact K.keeps_pure _
  | cons x rest ih => exact keeps_bind (hf x) fun _ => ih

@[simp] theorem keeps_lineStartOf (s : EchoState) (event : Trace.Event) (text offset stop : Value) :
    K.Keeps (Trace.lineStartOf s event text offset stop) := by
  refine keeps_bind (K.keeps_lengthOf _) fun size => keeps_bind (keeps_wholeOf _) fun width => ?_
  refine keeps_bind (keeps_wholeOf _) fun offset => keeps_bind (K.keeps_boundOf _) fun stop => ?_
  refine keeps_bind (K.keeps_sliceOf _ _ _) fun shown => ?_
  have rest : ∀ cs : List Char, K.Keeps (do
      let depth ← Trace.wholeOf s.depth
      return Trace.lineStart event width (← truthy s.padIfShort) depth size offset stop cs) := fun cs =>
    keeps_bind (keeps_wholeOf _) fun depth => keeps_bind (K.keeps_truthy _) fun _ => K.keeps_pure _
  split
  · exact rest _
  · refine keeps_bind (K.keeps_itemsOf _) fun items => ?_
    exact keeps_bind (keeps_mapM (fun v => keeps_charOf v) items) rest

@[simp] theorem keeps_placeText (text offset : Value) : K.Keeps (Trace.placeText text offset) :=
  keeps_bind (K.keeps_placeOf _ _) fun _ => K.keeps_pure _

@[simp] theorem keeps_nameText (parser : Value) : K.Keeps (Trace.nameText parser) := by
  refine keeps_bind (K.keeps_attributeOf _ _) fun name => keeps_bind (K.keeps_textOf _) fun s => ?_
  exact keeps_bind (K.keeps_truthy _) fun _ => K.keeps_pure _

theorem keeps_echoExtra (hp : K.Prints) (color : Value) (start : String) (extra : Value) :
    K.Keeps (Trace.echoExtra color start extra) := by
  refine keeps_bind (K.keeps_view _) fun w => ?_
  split
  · exact keeps_forM (fun line => keeps_echo hp _ _) _
  · exact K.keeps_pure _

theorem keeps_consult (hm : m.Keeps K) (callback : Value) (arguments : List Value) :
    K.Keeps (Trace.consult m callback arguments) :=
  keeps_bind (K.keeps_truthy _) fun _ => K.keeps_ite (hm.call _ _) (K.keeps_pure _)

@[simp] theorem keeps_jsonOf (separators : Json.Separators) (v : Value) :
    K.Keeps (Trace.jsonOf separators v) := by
  refine keeps_bind (K.keeps_shown v) fun d => ?_
  split <;> simp

theorem keeps_enterLine (hp : K.Prints) (hm : m.Keeps K) (id : HandlerId)
    (parser text offset env : Value) : K.Keeps (Trace.enterLine m id parser text offset env) := by
  refine keeps_bind (keeps_echoOf id) fun s => keeps_bind (keeps_consult hm _ _) fun extra => ?_
  refine keeps_bind (K.keeps_truthy _) fun wanted => K.keeps_ite ?_ (K.keeps_pure _)
  refine keeps_bind (keeps_echoOf id) fun s => keeps_bind (keeps_lineStartOf _ _ _ _ _) fun start => ?_
  refine keeps_bind (keeps_placeText _ _) fun place => keeps_bind (keeps_nameText _) fun name => ?_
  exact keeps_bind (keeps_echo hp _ _) fun _ => keeps_echoExtra hp _ _ _

@[simp] theorem keeps_okayText (text offset stop : Value) :
    K.Keeps (Trace.okayText text offset stop) := by
  refine keeps_bind (K.keeps_sliceOf _ _ _) fun consumed => ?_
  exact keeps_bind (keeps_jsonOf _ _) fun json => keeps_bind (K.keeps_lengthOf _) fun _ => K.keeps_pure _

theorem keeps_exitLine (hp : K.Prints) (hm : m.Keeps K) (id : HandlerId)
    (parser text offset env outcome : Value) :
    K.Keeps (Trace.exitLine m id parser text offset env outcome) := by
  refine keeps_bind (keeps_echoOf id) fun s => keeps_bind (keeps_consult hm _ _) fun extra => ?_
  refine keeps_bind (K.keeps_truthy _) fun wanted => K.keeps_ite ?_ (K.keeps_pure _)
  refine keeps_bind (keeps_echoOf id) fun s => keeps_bind (keeps_nameText _) fun name => ?_
  have last : ∀ start ending, K.Keeps (do
      let place ← Trace.placeText text offset
      Trace.echo s.color (start ++ place ++ " " ++ name ++ " " ++ ending)
      Trace.echoExtra s.color start extra) := fun start ending =>
    keeps_bind (keeps_placeText _ _) fun place =>
      keeps_bind (keeps_echo hp _ _) fun _ => keeps_echoExtra hp _ _ _
  refine keeps_bind (K.keeps_attributeOf _ _) fun status => ?_
  refine keeps_bind (K.keeps_truthy _) fun succeeded => ?_
  split
  · refine keeps_bind (K.keeps_attributeOf _ _) fun stop => ?_
    exact keeps_bind (keeps_lineStartOf _ _ _ _ _) fun start =>
      keeps_bind (keeps_okayText _ _ _) fun okay => last start okay
  · refine keeps_bind (keeps_lineStartOf _ _ _ _ _) fun start => ?_
    exact keeps_bind (K.keeps_attributeOf _ _) fun v =>
      keeps_bind (keeps_jsonOf _ _) fun json => last start ("FAIL " ++ json)

theorem keeps_abortLine (hp : K.Prints) (id : HandlerId) (parser text offset error : Value) :
    K.Keeps (Trace.abortLine id parser text offset error) := by
  refine keeps_bind (keeps_echoOf id) fun s => keeps_bind (keeps_lineStartOf _ _ _ _ _) fun start => ?_
  refine keeps_bind (keeps_placeText _ _) fun place => keeps_bind (keeps_nameText _) fun name => ?_
  exact keeps_bind (K.keeps_shown _) fun d => keeps_echo hp _ _

/-- A course to which it does not matter how deep a printing handler is. -/
def Moves (K : Course) (id : HandlerId) : Prop :=
  ∀ change : Value → Value → Eval Value, (∀ v w, K.Keeps (change v w)) →
    K.Keeps (Trace.changeDepth id change)

theorem keeps_echoEnter (hp : K.Prints) (hm : m.Keeps K) {id : HandlerId} (moves : K.Moves id)
    (parser text offset env : Value) : K.Keeps (Trace.echoEnter m id parser text offset env) := by
  rw [Trace.echoEnter_line]
  refine keeps_bind (keeps_enterLine hp hm id parser text offset env) fun _ => ?_
  exact moves _ fun v w => K.keeps_addTo v w

theorem keeps_echoExit (hp : K.Prints) (hm : m.Keeps K) {id : HandlerId} (moves : K.Moves id)
    (parser text offset env outcome : Value) :
    K.Keeps (Trace.echoExit m id parser text offset env outcome) :=
  keeps_bind (moves _ fun v w => K.keeps_subtractFrom v w) fun _ =>
    keeps_exitLine hp hm id parser text offset env outcome

theorem keeps_echoAbort (hp : K.Prints) {id : HandlerId} (moves : K.Moves id)
    (parser text offset error : Value) : K.Keeps (Trace.echoAbort id parser text offset error) :=
  keeps_bind (moves _ fun v w => K.keeps_subtractFrom v w) fun _ =>
    keeps_abortLine hp id parser text offset error

/-! ### Handlers -/

/-- A call of a handler keeps to a course to which it does not matter how deep that handler is. -/
theorem callMethod_keeps (hp : K.Prints) (hm : m.Keeps K) {handler : Value} {σ : Store}
    (moves : ∀ id, σ.view handler = .echo id → K.Moves id) (name : String) (arguments : List Value) :
    Ends (Trace.callMethod m handler name arguments) σ (fun _ τ => K.leads σ τ)
      fun e τ => K.counts e → K.leads σ τ := by
  refine Ends.bind (P := fun w τ => w = σ.view handler ∧ τ = σ) ⟨rfl, rfl⟩ ?_
  rintro w τ ⟨seen, rfl⟩
  split
  · next id =>
    have moves := moves id seen.symm
    split
    · exact keeps_bind (keeps_echoEnter hp hm moves _ _ _ _) (fun _ => K.keeps_pure _) τ
    · exact keeps_bind (keeps_echoExit hp hm moves _ _ _ _ _) (fun _ => K.keeps_pure _) τ
    · exact keeps_bind (keeps_echoAbort hp moves _ _ _ _) (fun _ => K.keeps_pure _) τ
    all_goals exact K.keeps_raise _ τ
  · split
    · exact hm.call _ _ τ
    · exact K.keeps_raise _ τ
  · exact K.keeps_raise _ τ

theorem keeps_callMethod (hq : K.Quiet) (hm : m.Keeps K) (handler : Value) (name : String)
    (arguments : List Value) : K.Keeps (Trace.callMethod m handler name arguments) := fun _ =>
  callMethod_keeps hq.prints hm (fun id _ _ => keeps_changeDepth hq id) name arguments

@[simp] theorem keeps_hearsErrors (handler : Value) : K.Keeps (Trace.hearsErrors handler) := by
  refine keeps_bind (K.keeps_view handler) fun w => ?_
  split
  · exact K.keeps_pure _
  · split <;> simp
  · exact K.keeps_pure _

@[simp] theorem keeps_showsResults (handler : Value) : K.Keeps (Trace.showsResults handler) := by
  refine keeps_bind (K.keeps_view handler) fun w => ?_
  split
  · refine keeps_bind K.keeps_get fun σ => ?_
    split <;> simp
  · exact K.keeps_pure _

/-! ### Machines -/

/-- A course that a machine keeps to as soon as the functions of its host do: it does not mind the
limit on nesting, a tracer that is active for a while, and what handlers are told. -/
structure Traced (K : Course) (host : Host) : Prop where
  overrun : ∀ σ : Store, K.leads σ { σ with overran := true }
  debug : ∀ m, m.Keeps K → ∀ inner handler text i env,
    K.Keeps (Behave.debug m inner handler text i env)
  report : ∀ m, m.Keeps K → m.share = host.share → ∀ handler parser (body : Runner) text i env,
    K.Keeps (body text i env) → K.Keeps (Trace.report m handler parser body text i env)

/-- One machine up, parsers and functions keep to the course as well. -/
theorem Traced.above {host : Host} (ht : K.Traced host) (hh : host.Keeps K) (hm : m.Keeps K)
    (hs : m.share = host.share) : (m.above host).Keeps K := by
  refine ⟨fun id text i env => ?_, keeps_invoke hh hm (ht.debug m hm), hh.share⟩
  have current := keeps_runCurrent hh hm (ht.debug m hm) id text i env
  refine keeps_bind K.keeps_get fun σ => ?_
  split
  · exact current
  · exact ht.report m hm hs _ _ _ _ _ _ current

/-- Machines of every depth keep to a course that they may be traced in and that the functions of the
host keep to. -/
theorem Traced.machine {host : Host} (ht : K.Traced host) (hh : host.Keeps K) (rounds depth : Nat) :
    (machine host rounds depth).Keeps K := by
  have shares : ∀ depth, (Rebind.machine host rounds depth).share = host.share := by
    intro depth
    cases depth <;> rfl
  induction depth with
  | zero => exact ⟨fun _ _ _ _ σ _ => ht.overrun σ, fun _ _ σ _ => ht.overrun σ, hh.share⟩
  | succ depth ih => exact ht.above hh ih (shares depth)

/-! ### Reports -/

/-- Whether an error is taken care of or passes makes no difference to a course to which every fault counts. -/
theorem keeps_catching {α : Type} {body : Eval α} {handle : Value → Eval α} (counts : ∀ e, K.counts e)
    (hb : K.Keeps body) (hh : ∀ error, K.Keeps (handle error)) : K.Keeps (Trace.catching body handle) := by
  intro σ
  refine ends_catching.mpr ((hb σ).mono (fun _ _ led => led) ?_)
  intro e τ led
  cases e with
  | endless => exact led
  | raised error =>
    dsimp only
    split
    · refine (hh error τ).mono (fun _ _ further => K.trans (led (counts _)) further) ?_
      exact fun _ _ further counted => K.trans (led (counts _)) (further counted)
    · exact led

/-- A course to which it does not matter what trace handlers are told, which of them are active and whether
a limit was met, and to which every fault counts. -/
structure Blind (K : Course) : Prop where
  quiet : K.Quiet
  record : ∀ σ r, K.leads σ (σ.record r)
  tracers : ∀ (σ : Store) tracers, K.leads σ { σ with tracers }
  overrun : ∀ σ : Store, K.leads σ { σ with overran := true }
  counts : ∀ e, K.counts e

namespace Blind

variable (blind : K.Blind)

include blind

theorem recording {α : Type} {body : Eval α} (h : K.Keeps body)
    (report : Except Value α → Trace.Report) : K.Keeps (Trace.recording body report) := by
  intro σ
  refine ends_recording.mpr ((h σ).mono (fun _ _ led => K.trans led (blind.record _ _)) ?_)
  intro e τ led
  cases e with
  | raised error => exact fun counts => K.trans (led counts) (blind.record _ _)
  | endless => exact led

theorem tell (hm : m.Keeps K) (v : Trace.Visit) (name : String) (more : List Value)
    (report : Option Value → Trace.Report) : K.Keeps (Trace.tell m v name more report) := by
  have called := keeps_callMethod blind.quiet hm v.handler name
    ([v.parser, v.text, v.index, v.environment] ++ more)
  exact keeps_bind (blind.recording called _) fun _ => K.keeps_pure _

omit blind in
theorem presented (hm : m.Keeps K) (handler v : Value) : K.Keeps (Trace.presented m handler v) := by
  refine keeps_bind (keeps_showsResults handler) fun shows => ?_
  exact K.keeps_ite (hm.share v) (K.keeps_pure _)

theorem abort (hm : m.Keeps K) (v : Trace.Visit) (error : Value) : K.Keeps (Trace.abort m v error) := by
  refine keeps_bind (keeps_hearsErrors v.handler) fun hears => K.keeps_ite ?_ ?_
  · refine keeps_bind (presented hm v.handler error) fun shown => ?_
    exact keeps_bind (blind.tell hm v _ _ _) fun _ => K.keeps_throw _
  · exact keeps_bind (K.keeps_modify fun σ => blind.record σ _) fun _ => K.keeps_throw _

/-- Reports to a handler keep to a course if the handler and what is reported on do. -/
theorem report (hm : m.Keeps K) (handler parser : Value) (body : Runner) (text i env : Value)
    (hb : K.Keeps (body text i env)) : K.Keeps (Trace.report m handler parser body text i env) := by
  have caught := keeps_catching blind.counts (blind.recording hb (.behaved ⟨handler, parser, text, i, env⟩))
    (blind.abort hm ⟨handler, parser, text, i, env⟩)
  refine keeps_bind (blind.tell hm _ _ _ _) fun _ => keeps_bind caught fun outcome => ?_
  refine keeps_bind (presented hm handler outcome) fun shown => ?_
  exact keeps_bind (blind.tell hm _ _ _ _) fun _ => K.keeps_pure _

theorem debug (hm : m.Keeps K) (inner : ParserId) (handler text i env : Value) :
    K.Keeps (Behave.debug m inner handler text i env) := by
  refine keeps_bind (K.keeps_modify fun σ => blind.tracers σ _) fun _ σ => ?_
  refine ends_andFinally_popTracer.mpr ((hm.run inner text i env σ).mono ?_ ?_)
  · exact fun _ τ led => K.trans led (blind.tracers τ _)
  · exact fun _ τ led counts => K.trans (led counts) (blind.tracers τ _)

theorem traced (host : Host) : K.Traced host where
  overrun := blind.overrun
  debug _ hm := blind.debug hm
  report _ hm _ handler parser body text i env hb := blind.report hm handler parser body text i env hb

end Blind

end Course

end Rebind
