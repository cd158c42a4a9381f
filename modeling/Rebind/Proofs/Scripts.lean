import Rebind.Proofs.Constructions
import Rebind.Proofs.Courses
import Rebind.Script.Eval
/-!
# Scripts keep to a course

Scripts build grammars, change data and print, but they neither push tracers nor put reports on record, and
they note that a limit was met only where the machine does.  A course that minds nothing else is kept by every
operation of a script, so it is kept by the functions that scripts define.
-/
namespace Rebind

/-- A missing file is an ordinary error. -/
theorem isOrdinary_of_isMissingFile {error : Value} (h : Config.isMissingFile error = true) :
    error.isOrdinary = true := by
  unfold Config.isMissingFile at h
  unfold Value.isOrdinary
  split at h
  · next made => rw [made]; rfl
  · next made => rw [made]; rfl
  · cases h

/-- The settings in force are those that the search comes to, unless the error is that there is no file. -/
theorem inForce_catching (start : Value) : Config.inForce start =
    Trace.catching (Config.find start >>= Config.load) fun error =>
      if Config.isMissingFile error then do
        note Config.part ("no " ++ Config.fileName ++ " found, using defaults")
        return Config.defaults
      else throw (.raised error) := by
  funext σ
  unfold Config.inForce Trace.catching
  cases (Config.find start >>= Config.load) σ with
  | ok v τ => rfl
  | error e τ =>
    cases e with
    | endless => rfl
    | raised error =>
      dsimp only
      by_cases missing : Config.isMissingFile error = true
      · rw [if_pos missing, if_pos missing, if_pos (isOrdinary_of_isMissingFile missing)]
      · simp only [if_neg missing]
        split <;> rfl

namespace Course

variable {K : Course} {m : Machine}

/-- A course that only minds tracers, reports and the limit on nesting, and to which every fault counts. -/
structure Open (K : Course) : Prop where
  leads : ∀ {σ τ : Store}, τ.tracers = σ.tracers → τ.journal = σ.journal → τ.overran = σ.overran →
    K.leads σ τ
  counts : ∀ e, K.counts e

/-! ### Operations on data -/

@[simp] theorem keeps_withEntry (key value : Value) (entries : List (Value × Value)) :
    K.Keeps (withEntry key value entries) := by
  induction entries with
  | nil => exact K.keeps_pure _
  | cons entry rest ih =>
    refine keeps_bind (K.keeps_equalTo _ _) fun found => K.keeps_ite (K.keeps_pure _) ?_
    exact keeps_bind ih fun _ => K.keeps_pure _

@[simp] theorem keeps_anyEqual (v : Value) (items : List Value) : K.Keeps (anyEqual v items) := by
  induction items with
  | nil => exact K.keeps_pure _
  | cons w rest ih => exact keeps_bind (K.keeps_equalTo _ _) fun found => K.keeps_ite (K.keeps_pure _) ih

@[simp] theorem keeps_multiplyBy (a b : Value) : K.Keeps (multiplyBy a b) :=
  keeps_bind (K.keeps_view a) fun _ => keeps_bind (K.keeps_view b) fun _ => K.keeps_applicable _

@[simp] theorem keeps_memberOf (v whole : Value) : K.Keeps (memberOf v whole) := by
  refine keeps_bind (K.keeps_view whole) fun w => ?_
  split
  · refine keeps_bind (K.keeps_view v) fun u => ?_
    split <;> simp
  · exact keeps_anyEqual v _
  · exact keeps_anyEqual v _
  · exact keeps_bind (K.keeps_checkKey v) fun _ => keeps_anyEqual v _
  · exact keeps_bind (K.keeps_checkKey v) fun _ => keeps_anyEqual v _
  · exact K.keeps_raise _

@[simp] theorem keeps_sameAs (a b : Value) : K.Keeps (sameAs a b) := by
  unfold sameAs
  split <;> simp

@[simp] theorem keeps_totalOf (items : List Value) : K.Keeps (totalOf items) := by
  have added : ∀ v, K.Keeps (items.foldlM addTo v) := by
    induction items with
    | nil => exact fun v => K.keeps_pure v
    | cons item rest ih => exact fun v => keeps_bind (K.keeps_addTo v item) ih
  exact added _

@[simp] theorem keeps_toWhole (v : Value) : K.Keeps (toWhole v) := by
  refine keeps_bind (K.keeps_view v) fun w => ?_
  split
  · split <;> simp
  · exact K.keeps_pure _
  · exact K.keeps_raise _
  · split <;> simp

@[simp] theorem keeps_lineAtOf (text : String) (n : Value) : K.Keeps (lineAtOf text n) := by
  have none : K.Keeps (pure (.str "") : Eval Value) := K.keeps_pure _
  refine keeps_bind (K.keeps_atMost _ _) fun started => K.keeps_ite ?_ none
  refine keeps_bind (K.keeps_atMost _ _) fun ended => K.keeps_ite ?_ none
  exact keeps_bind (K.keeps_offsetOf n) fun k => K.keeps_pure _

@[simp] theorem keeps_expectedOf (expected : Value) : K.Keeps (expectedOf expected) := by
  refine keeps_bind (K.keeps_lengthOf expected) fun n => K.keeps_ite (K.keeps_itemOf _ _) ?_
  exact keeps_bind (K.keeps_joinWith _ _) fun _ => K.keeps_pure _

@[simp] theorem keeps_errorText (text outcome context : Value) : K.Keeps (errorText text outcome context) := by
  refine keeps_bind (K.keeps_attributeOf _ _) fun v => keeps_bind (K.keeps_expectedText v) fun expected => ?_
  refine keeps_bind (K.keeps_attributeOf _ _) fun index => keeps_bind (K.keeps_textOf index) fun place => ?_
  exact keeps_bind (K.keeps_gotText _ _ _) fun got => K.keeps_pure _

@[simp] theorem keeps_newMismatch (text outcome name : Value) : K.Keeps (newMismatch text outcome name) :=
  keeps_bind (keeps_errorText _ _ _) fun _ => K.keeps_pure _

@[simp] theorem keeps_visibleOf (v : Value) : K.Keeps (Trace.visibleOf v) := by
  unfold Trace.visibleOf
  exact keeps_bind (keeps_charOf v) fun _ => K.keeps_pure _

@[simp] theorem keeps_withPart (name : String) (w v : Value) : K.Keeps (withPart name w v) := by
  unfold withPart
  split <;> first | exact K.keeps_pure _ | exact K.keeps_raise _ | (split <;> simp)

theorem keeps_parseText (hm : m.Keeps K) (p : ParserId) (text env name : Value) :
    K.Keeps (parseText m p text env name) := by
  refine keeps_bind (keeps_callParser hm _ _ _ _) fun outcome => ?_
  refine keeps_judged _ (fun r => K.keeps_pure _) fun r => ?_
  exact keeps_bind (keeps_newMismatch _ _ _) fun e => K.keeps_throw _

/-! ### Names and calls -/

theorem keeps_groupOf (r : Regex) (group : Value) : K.Keeps (Grammar.groupOf r group) := by
  unfold Grammar.groupOf
  split
  · split
    · exact K.keeps_pure _
    · exact keeps_bind (K.keeps_require _ _ _ _) fun _ => K.keeps_raise _
  · exact keeps_bind (K.keeps_require _ _ _ _) fun _ => K.keeps_pure _

theorem keeps_namesOf (scope : Nat) : K.Keeps (Script.namesOf scope) :=
  keeps_bind K.keeps_get fun _ => K.keeps_pure _

theorem keeps_lookUp (c : Script.Context) (name : String) : K.Keeps (Script.lookUp c name) := by
  unfold Script.lookUp
  split
  · exact K.keeps_pure _
  · refine keeps_bind (keeps_namesOf _) fun names => ?_
    split <;> simp

theorem keeps_bound (s : Script.Signature) (arguments : List Value) (keywords : List (String × Value)) :
    K.Keeps (s.bind arguments keywords) := by
  unfold Script.Signature.bind
  refine K.keeps_ite (keeps_bind (K.keeps_raise _) fun _ => ?_) ?_ <;> split <;> simp

theorem keeps_loadBuiltIn (place name : String) : K.Keeps (Script.loadBuiltIn place name) := by
  unfold Script.loadBuiltIn
  refine K.keeps_ite (K.keeps_raise _) ?_
  split
  · exact K.keeps_raise _
  · split <;> simp

theorem keeps_callWith (hm : m.Keeps K) (f : Value) (arguments : List Value) (keywords : List (String × Value)) :
    K.Keeps (Script.callWith m f arguments keywords) := by
  unfold Script.callWith
  split
  · exact keeps_bind (keeps_bound _ _ _) fun given => hm.call _ _
  · exact keeps_bind (keeps_bound _ _ _) fun given => hm.call _ _
  · exact K.keeps_ite (hm.call _ _) (K.keeps_raise _)
  · exact K.keeps_raise _

theorem keeps_runWith (hm : m.Keeps K) (p : Value) (arguments : List Value) (keywords : List (String × Value)) :
    K.Keeps (Script.runWith m p arguments keywords) := by
  refine keeps_bind (K.keeps_isParser p) fun known => ?_
  split
  · refine keeps_bind (keeps_bound _ _ _) fun given => ?_
    split
    · exact hm.run _ _ _ _
    · exact K.keeps_raise _
  · exact K.keeps_raise _

theorem keeps_parseWith (hm : m.Keeps K) (p : Value) (arguments : List Value) (keywords : List (String × Value)) :
    K.Keeps (Script.parseWith m p arguments keywords) := by
  refine keeps_bind (K.keeps_isParser p) fun known => ?_
  split
  · refine keeps_bind (keeps_bound _ _ _) fun given => ?_
    split
    · exact keeps_parseText hm _ _ _ _
    · exact K.keeps_raise _
  · exact K.keeps_raise _

theorem keeps_describePattern (v : Value) : K.Keeps (Script.describePattern v) := by
  refine keeps_bind (K.keeps_view v) fun w => ?_
  split <;> simp

theorem keeps_dictOf : ∀ (vs : List Value) (entries : List (Value × Value)), K.Keeps (Script.dictOf vs entries)
  | [], _ | [_], _ => K.keeps_pure _
  | k :: v :: rest, entries => by
    refine keeps_bind (K.keeps_checkKey k) fun _ => keeps_bind (keeps_withEntry k v entries) fun entries => ?_
    exact keeps_dictOf rest entries

theorem keeps_setOf (vs items : List Value) : K.Keeps (Script.setOf vs items) := by
  induction vs generalizing items with
  | nil => exact K.keeps_pure _
  | cons v rest ih =>
    refine keeps_bind (K.keeps_checkKey v) fun _ => keeps_bind (keeps_anyEqual v items) fun known => ?_
    exact K.keeps_ite (ih items) (ih _)

theorem keeps_itemOr (v k other : Value) : K.Keeps (Script.itemOr v k other) := by
  refine keeps_bind (K.keeps_view v) fun w => ?_
  split
  · exact keeps_bind (K.keeps_checkKey k) fun _ => keeps_bind (K.keeps_entryOf k _) fun _ => K.keeps_pure _
  · exact K.keeps_raise _

theorem keeps_indexIn (size : Nat) (n : Int) : K.Keeps (Script.indexIn size n) :=
  K.keeps_ite (K.keeps_pure _) (K.keeps_raise _)

theorem keeps_upperOf (v : Value) : K.Keeps (Script.upperOf v) := by
  refine keeps_bind (K.keeps_view v) fun w => ?_
  split <;> simp

theorem keeps_joinOf (between v : Value) : K.Keeps (Script.joinOf between v) := by
  refine keeps_bind (K.keeps_view between) fun w => ?_
  split
  · exact keeps_bind (K.keeps_joinWith _ v) fun _ => K.keeps_pure _
  · exact K.keeps_raise _

theorem keeps_startsWithOf (v front : Value) : K.Keeps (Script.startsWithOf v front) := by
  refine keeps_bind (K.keeps_view v) fun w => ?_
  split
  · refine keeps_bind (K.keeps_view front) fun u => ?_
    split
    · exact K.keeps_pure _
    · refine keeps_bind (keeps_mapM (fun option => ?_) _) fun _ => K.keeps_pure _
      split <;> simp
    · exact K.keeps_raise _
  · exact K.keeps_raise _

theorem keeps_complaintOf (v : Value) : K.Keeps (Script.complaintOf v) := by
  refine keeps_bind (K.keeps_textOf v) fun s => ?_
  split <;> simp

namespace Open

variable (hK : K.Open)

include hK

theorem quiet : K.Quiet := fun _ _ _ => hK.leads rfl rfl rfl

/-- What concerns neither tracers nor reports keeps to an open course. -/
theorem modify {f : Store → Store} (tracers : ∀ σ, (f σ).tracers = σ.tracers)
    (journal : ∀ σ, (f σ).journal = σ.journal) (overran : ∀ σ, (f σ).overran = σ.overran) :
    K.Keeps (modify f) := K.keeps_modify fun σ => hK.leads (tracers σ) (journal σ) (overran σ)

theorem share (v : Value) : K.Keeps v.share := fun _ => hK.leads rfl rfl rfl

theorem addParser (behaviour name : Value) : K.Keeps (addParser behaviour name) := fun _ => hK.leads rfl rfl rfl

theorem addEcho (s : EchoState) : K.Keeps (addEcho s) := fun _ => hK.leads rfl rfl rfl

theorem edit (id : Nat) (content : Value) : K.Keeps (edit id content) :=
  hK.modify (fun _ => rfl) (fun _ => rfl) fun _ => rfl

theorem note (part message : String) : K.Keeps (note part message) :=
  hK.modify (fun _ => rfl) (fun _ => rfl) fun _ => rfl

/-! ### Building grammars -/

theorem define (b : Behaviour Value) (name : String) : K.Keeps (Grammar.define b name) :=
  keeps_bind (hK.share _) fun v => hK.addParser v _

theorem ofBehaviour (behaviour name : Value) : K.Keeps (Grammar.ofBehaviour behaviour name) :=
  keeps_bind (K.keeps_truthy _) fun _ => K.keeps_ite (hK.addParser _ _) (hK.addParser _ _)

theorem string (literal : Value) : K.Keeps (Grammar.string literal) :=
  keeps_bind (keeps_literalText _ _) fun _ => hK.define _ _

theorem regex (pattern group : Value) : K.Keeps (Grammar.regex pattern group) := by
  refine keeps_bind (K.keeps_require _ _ _ _) fun _ => keeps_bind (K.keeps_require _ _ _ _) fun _ => ?_
  refine keeps_bind (keeps_patternOf pattern) fun r => keeps_bind (keeps_groupOf r group) fun index => ?_
  exact keeps_bind (K.keeps_literalOf group) fun shown => hK.define _ _

theorem fail (description : Value) : K.Keeps (Grammar.fail description) :=
  keeps_bind (keeps_literalText _ _) fun _ => hK.define _ _

theorem succeed (v : Value) : K.Keeps (Grammar.succeed v) :=
  keeps_bind (K.keeps_literalOf v) fun _ => hK.define _ _

theorem testChar (predicate description : Value) : K.Keeps (Grammar.testChar predicate description) := by
  refine keeps_bind (keeps_checkCallable _ _) fun _ => ?_
  split
  · exact keeps_bind (K.keeps_pure _) fun d => hK.define _ _
  · exact keeps_bind (K.keeps_literalOf _) fun d => hK.define _ _
  · exact keeps_bind (K.keeps_textOf _) fun d => hK.define _ _

theorem custom (behaviour : Value) : K.Keeps (Grammar.custom behaviour) :=
  keeps_bind (keeps_checkCallable _ _) fun _ => hK.addParser _ _

theorem repetition (parser least most : Value) : K.Keeps (Grammar.repetition parser least most) := by
  refine keeps_bind (K.keeps_parserOf _ _) fun p => keeps_bind (keeps_countOf _) fun lo => ?_
  refine keeps_bind (keeps_countOf _) fun hi => keeps_bind (K.keeps_textOf _) fun s => ?_
  exact keeps_bind (K.keeps_textOf _) fun t => hK.define _ _

theorem transform (parser function : Value) : K.Keeps (Grammar.transform parser function) :=
  keeps_bind (K.keeps_parserOf _ _) fun _ => keeps_bind (keeps_checkCallable _ _) fun _ => hK.define _ _

theorem exclude (allowed forbidden : Value) : K.Keeps (Grammar.exclude allowed forbidden) := by
  refine keeps_bind (K.keeps_parserOf _ _) fun a => keeps_bind (K.keeps_parserOf _ _) fun f => ?_
  exact keeps_bind (keeps_displayName a) fun s => keeps_bind (keeps_displayName f) fun t => hK.define _ _

theorem describe (parser description : Value) : K.Keeps (Grammar.describe parser description) :=
  keeps_bind (K.keeps_parserOf _ _) fun _ => keeps_bind (keeps_literalText _ _) fun _ => hK.define _ _

theorem sequence (parsers : List Value) : K.Keeps (Grammar.sequence parsers) :=
  keeps_bind (keeps_mapM (fun v => K.keeps_parserOf _ v) parsers) fun _ => hK.define _ _

theorem alternative (parsers : List Value) : K.Keeps (Grammar.alternative parsers) := by
  refine K.keeps_ite (keeps_bind (K.keeps_raise _) fun _ => ?_) ?_ <;>
    exact keeps_bind (keeps_mapM (fun v => K.keeps_parserOf _ v) parsers) fun _ => hK.define _ _

theorem framed (function : String) (frame : ParserId) (parser : Value) :
    K.Keeps (Grammar.framed function frame parser) := by
  refine keeps_bind (K.keeps_parserOf _ _) fun p => keeps_bind (hK.sequence _) fun inner => ?_
  refine keeps_bind (K.keeps_parserOf _ _) fun inner => ?_
  exact keeps_bind (keeps_displayName p) fun s => hK.define _ _

theorem chain (parser decide : Value) : K.Keeps (Grammar.chain parser decide) := by
  refine keeps_bind (K.keeps_parserOf _ _) fun p => keeps_bind (keeps_checkCallable _ _) fun _ => ?_
  exact keeps_bind (keeps_displayName p) fun s => hK.define _ _

theorem subEnvironment (parser derive : Value) : K.Keeps (Grammar.subEnvironment parser derive) := by
  refine keeps_bind (K.keeps_parserOf _ _) fun p => keeps_bind (keeps_checkCallable _ _) fun _ => ?_
  exact keeps_bind (keeps_displayName p) fun s => hK.define _ _

theorem deferredLookup (resolve : Value) : K.Keeps (Grammar.deferredLookup resolve) := by
  refine keeps_bind (keeps_checkCallable _ _) fun _ => ?_
  split
  · exact keeps_bind (K.keeps_pure _) fun name => hK.define _ _
  · exact keeps_bind (K.keeps_literalOf _) fun name => hK.define _ _

theorem replace (target source : Value) : K.Keeps (Grammar.replace target source) := by
  refine keeps_bind (K.keeps_parserOf _ _) fun t => keeps_bind (K.keeps_parserOf _ _) fun s => ?_
  refine K.keeps_modify fun σ => ?_
  split
  · exact hK.leads rfl rfl rfl
  · exact K.refl σ

theorem clone (parser : Value) : K.Keeps (Grammar.clone parser) := by
  refine keeps_bind (K.keeps_parserOf _ _) fun p => keeps_bind (K.keeps_attributeOf _ _) fun b => ?_
  exact keeps_bind (K.keeps_attributeOf _ _) fun name => hK.ofBehaviour b name

theorem debug (parser handler : Value) : K.Keeps (Grammar.debug parser handler) := by
  refine keeps_bind (K.keeps_parserOf _ _) fun p => ?_
  split
  · refine keeps_bind (hK.addEcho _) fun h => keeps_bind (keeps_displayName p) fun s => hK.define _ _
  · refine keeps_bind (K.keeps_pure _) fun h => keeps_bind (keeps_displayName p) fun s => hK.define _ _

/-! ### Changing what there is -/

theorem setAttributeOf (v : Value) (name : String) (w : Value) : K.Keeps (setAttributeOf v name w) := by
  unfold Rebind.setAttributeOf
  split
  · refine K.keeps_modify fun σ => ?_
    split
    · exact hK.leads rfl rfl rfl
    · exact hK.leads rfl rfl rfl
    · exact K.refl σ
  · refine K.keeps_modify fun σ => ?_
    split <;> exact hK.leads rfl rfl rfl
  · refine keeps_bind (K.keeps_view _) fun u => keeps_bind (keeps_withPart _ _ _) fun content => ?_
    exact hK.edit _ content
  · exact keeps_bind (keeps_withPart _ _ _) fun _ => K.keeps_pure _

/-! ### Configuration -/

theorem find (start : Value) : K.Keeps (Config.find start) := by
  have started : K.Keeps (Config.startOf start) := by
    refine keeps_bind K.keeps_get fun σ => keeps_bind (K.keeps_truthy _) fun _ => K.keeps_ite ?_ (K.keeps_pure _)
    refine keeps_bind (K.keeps_view _) fun w => ?_
    split
    · exact K.keeps_ite (K.keeps_pure _) (K.keeps_raise _)
    · exact K.keeps_raise _
  refine keeps_bind started fun place => keeps_bind K.keeps_get fun σ => ?_
  dsimp only
  split
  · exact keeps_bind (hK.note _ _) fun _ => K.keeps_pure _
  · exact K.keeps_raise _

theorem load (p : Value) : K.Keeps (Config.load p) := by
  have named : K.Keeps (Config.pathText p) := by
    refine keeps_bind (K.keeps_view p) fun w => ?_
    split <;> simp
  have read : ∀ name, K.Keeps (Config.readText name) := fun name => by
    refine K.keeps_ite (keeps_bind K.keeps_get fun σ => ?_) (K.keeps_raise _)
    split <;> simp
  have settings : ∀ table fields, K.Keeps (Config.tableSettings table fields) := fun table fields => by
    unfold Config.tableSettings
    split <;> simp
  refine keeps_bind named fun name => keeps_bind (read name) fun text => ?_
  split
  · refine keeps_bind (hK.note _ _) fun _ => keeps_bind (settings _ _) fun trace => ?_
    refine keeps_bind (settings _ _) fun errors => ?_
    split <;> simp
  · exact K.keeps_raise _

theorem inForce (start : Value) : K.Keeps (Config.inForce start) := by
  rw [inForce_catching]
  refine keeps_catching hK.counts (keeps_bind (hK.find start) hK.load) fun error => K.keeps_ite ?_ (K.keeps_throw _)
  exact keeps_bind (hK.note _ _) fun _ => K.keeps_pure _

/-! ### Grammar files -/

theorem setName (scope : Nat) (name : String) (v : Value) : K.Keeps (Script.setName scope name v) :=
  hK.modify (fun _ => rfl) (fun _ => rfl) fun _ => rfl

theorem defineAll (hm : m.Keeps K) (scope : Nat) (definitions : List (String × Script.Expr)) :
    K.Keeps (Script.define m scope definitions) := by
  induction definitions with
  | nil => exact K.keeps_pure _
  | cons definition rest ih =>
    refine keeps_bind (hm.call _ _) fun v => keeps_bind (hK.setName _ _ v) fun _ => ih

/-- Loading a grammar file keeps to every course to which the machine keeps. -/
theorem loadFile (hm : m.Keeps K) (place name : String) : K.Keeps (Script.loadFile m place name) := by
  refine keeps_bind K.keeps_get fun σ => ?_
  split
  · refine keeps_bind (fun _ => hK.leads rfl rfl rfl) fun scope => keeps_bind (hK.defineAll hm _ _) fun _ => ?_
    exact K.keeps_ite (keeps_lookUp _ _) (K.keeps_pure _)
  · exact K.keeps_raise _

theorem loadGrammar (hm : m.Keeps K) (ref : Value) : K.Keeps (Script.loadGrammar m ref) := by
  unfold Script.loadGrammar
  split
  · split
    · exact K.keeps_raise _
    · next place name _ =>
      have checked : ∀ found, K.Keeps (do
          unless ← isParser found do
            raise (.badParameter (Text.quoted name ++ " in " ++ place ++ " is not a parser") "GRAMMAR")
          Rebind.note "partser.cli" ("loaded grammar " ++ name ++ " from " ++ place)
          return found) := fun found => by
        have noted := keeps_bind (hK.note "partser.cli" ("loaded grammar " ++ name ++ " from " ++ place))
          fun _ => K.keeps_pure found
        refine keeps_bind (K.keeps_isParser found) fun known => K.keeps_ite noted ?_
        exact keeps_bind (K.keeps_raise _) fun _ => noted
      exact K.keeps_ite (keeps_bind (hK.loadFile hm _ _) checked) (keeps_bind (keeps_loadBuiltIn _ _) checked)
  · exact K.keeps_raise _

/-! ### Operations -/

theorem callMethodWith (hm : m.Keeps K) (v : Value) (name : String) (arguments : List Value)
    (keywords : List (String × Value)) : K.Keeps (Script.callMethodWith m v name arguments keywords) := by
  refine keeps_bind (K.keeps_view v) fun w => ?_
  split
  · refine keeps_bind (keeps_bound _ _ _) fun given => ?_
    split <;> simp
  · refine keeps_bind (keeps_bound _ _ _) fun given => ?_
    split <;> simp
  · refine keeps_bind (keeps_bound _ _ _) fun given => ?_
    split
    · exact keeps_bind (K.keeps_renderFailure _ _ _ _ _) fun _ => K.keeps_pure _
    · exact K.keeps_raise _
  · refine keeps_bind (keeps_bound _ _ _) fun given => ?_
    split
    · refine keeps_bind (K.keeps_attributeOf _ _) fun text => keeps_bind (K.keeps_attributeOf _ _) fun outcome => ?_
      refine keeps_bind (K.keeps_attributeOf _ _) fun title => ?_
      exact keeps_bind (K.keeps_renderFailure _ _ _ _ _) fun _ => K.keeps_pure _
    · exact K.keeps_raise _
  · exact keeps_runWith hm _ _ _
  · exact keeps_parseWith hm _ _ _
  · exact keeps_bind (keeps_bound _ _ _) fun given => keeps_callMethod hK.quiet hm _ _ _
  · exact K.keeps_ite (keeps_callMethod hK.quiet hm _ _ _) (K.keeps_raise _)
  · exact K.keeps_raise _

theorem libraryOp (hm : m.Keeps K) (op : Script.Op) (arguments : List Value) :
    K.Keeps (Script.libraryOp m op arguments) := by
  unfold Script.libraryOp
  split
  · exact hK.string _
  · exact hK.regex _ _
  · exact hK.fail _
  · exact hK.succeed _
  · exact hK.testChar _ _
  · exact hK.custom _
  · exact hK.repetition _ _ _
  · exact hK.transform _ _
  · exact hK.exclude _ _
  · exact hK.describe _ _
  · exact hK.framed _ _ _
  · exact hK.framed _ _ _
  · exact hK.chain _ _
  · exact hK.subEnvironment _ _
  · exact hK.deferredLookup _
  · exact keeps_bind (hK.replace _ _) fun _ => K.keeps_pure _
  · exact hK.clone _
  · exact hK.debug _ _
  · exact hK.addEcho _
  · exact keeps_bind (K.keeps_isParser _) fun _ => K.keeps_pure _
  · exact hK.ofBehaviour _ _
  · exact K.keeps_pure _
  · exact K.keeps_pure _
  · exact K.keeps_pure _
  · exact K.keeps_pure _
  · exact K.keeps_pure _
  · exact K.keeps_mergeOver _ _
  · exact keeps_bind (keeps_errorText _ _ _) fun _ => K.keeps_pure _
  · exact keeps_expectedOf _
  · exact keeps_bind (K.keeps_gotText _ _ _) fun _ => K.keeps_pure _
  · exact K.keeps_pure _
  · exact keeps_newMismatch _ _ _
  · exact K.keeps_lineColumnOf _ _
  · exact K.keeps_newSource _ _
  · exact keeps_describePattern _
  · exact keeps_visibleOf _
  · exact hK.find _
  · exact hK.inForce _
  · exact hK.load _
  · exact hK.loadGrammar hm _
  · exact K.keeps_raise _

theorem putItem (v k w : Value) : K.Keeps (Script.putItem v k w) := by
  unfold Script.putItem
  refine keeps_bind (K.keeps_view v) fun content => ?_
  split
  · refine keeps_bind (K.keeps_offsetOf k) fun n => keeps_bind (keeps_indexIn _ n) fun i => ?_
    exact keeps_bind (hK.edit _ _) fun _ => K.keeps_pure _
  · refine keeps_bind (K.keeps_checkKey k) fun _ => keeps_bind (keeps_withEntry _ _ _) fun entries => ?_
    exact keeps_bind (hK.edit _ _) fun _ => K.keeps_pure _
  · exact K.keeps_raise _

theorem dataOp (op : Script.Op) (arguments : List Value) : K.Keeps (Script.dataOp op arguments) := by
  unfold Script.dataOp
  split
  · exact K.keeps_pure _
  · exact K.keeps_pure _
  · exact keeps_dictOf _ _
  · exact K.keeps_itemOf _ _
  · exact keeps_itemOr _ _ _
  · exact hK.putItem _ _ _
  · exact K.keeps_addTo _ _
  · exact K.keeps_subtractFrom _ _
  · exact keeps_multiplyBy _ _
  · exact keeps_bind (K.keeps_equalTo _ _) fun _ => K.keeps_pure _
  · exact keeps_bind (K.keeps_lessThan _ _) fun _ => K.keeps_pure _
  · exact keeps_bind (keeps_memberOf _ _) fun _ => K.keeps_pure _
  · exact keeps_bind (K.keeps_truthy _) fun _ => K.keeps_pure _
  · exact keeps_bind (keeps_sameAs _ _) fun _ => K.keeps_pure _
  · exact keeps_upperOf _
  · exact keeps_bind (keeps_toWhole _) fun _ => K.keeps_pure _
  · exact keeps_bind (K.keeps_lengthOf _) fun _ => K.keeps_pure _
  · exact keeps_bind (K.keeps_textOf _) fun _ => K.keeps_pure _
  · exact keeps_bind (K.keeps_literalOf _) fun _ => K.keeps_pure _
  · exact keeps_joinOf _ _
  · exact K.keeps_sliceOf _ _ _
  · exact keeps_startsWithOf _ _
  · exact keeps_bind (K.keeps_itemsOf _) fun items => keeps_totalOf items
  · exact K.keeps_pure _
  · refine keeps_bind (K.keeps_shown _) fun d => keeps_bind ?_ fun _ => K.keeps_pure _
    exact hK.modify (fun _ => rfl) (fun _ => rfl) fun _ => rfl
  · refine keeps_bind (keeps_complaintOf _) fun kind => keeps_bind (K.keeps_textOf _) fun s => K.keeps_raise _
  · exact K.keeps_attributeOf _ _
  · exact keeps_bind (hK.setAttributeOf _ _ _) fun _ => K.keeps_pure _
  · exact K.keeps_raise _

/-- So does every operation of a script. -/
theorem applyOp (hm : m.Keeps K) (op : Script.Op) (arguments : List Value) (keywords : List (String × Value)) :
    K.Keeps (Script.applyOp m op arguments keywords) := by
  unfold Script.applyOp
  split
  · exact keeps_bind (keeps_bound _ _ _) fun given => hK.libraryOp hm _ _
  · split
    · exact keeps_callWith hm _ _ _
    · exact keeps_runWith hm _ _ _
    · exact keeps_parseWith hm _ _ _
    · exact hK.callMethodWith hm _ _ _ _
    · -- The same operations, without keywords and after some were refused.
      refine (fun placed : K.Keeps _ => K.keeps_ite placed (keeps_bind (K.keeps_raise _) fun _ => placed)) ?_
      split
      · exact hK.sequence _
      · exact hK.alternative _
      · refine keeps_bind (K.keeps_itemsOf _) fun items => keeps_bind ?_ fun _ => K.keeps_pure _
        exact keeps_mapM (fun w => keeps_callWith hm _ _ _) items
      · exact hK.dataOp _ _

/-! ### Expressions -/

omit hK

mutual

/-- By induction on the expression, with its arguments and definitions. -/
theorem eval (hK : K.Open) (hm : m.Keeps K) (c : Script.Context) : ∀ e : Script.Expr, K.Keeps (Script.eval m c e)
  | .plain data => by
    rw [Script.eval]
    exact hK.share _
  | .reference name => by
    rw [Script.eval]
    exact keeps_lookUp c name
  | .function parameters body title => by
    rw [Script.eval]
    exact hK.share _
  | .pattern source flags => by
    rw [Script.eval]
    split
    · exact hK.share _
    · exact K.keeps_raise _
  | .path text => by
    rw [Script.eval]
    exact hK.share _
  | .set items => by
    rw [Script.eval]
    refine keeps_bind (evalAll hK hm c items) fun vs => keeps_bind (keeps_setOf vs []) fun v => hK.share v
  | .handler methods => by
    rw [Script.eval]
    exact keeps_bind (evalNamed hK hm c methods) fun vs => hK.share _
  | .apply op arguments keywords => by
    rw [Script.eval]
    refine keeps_bind (evalAll hK hm c arguments) fun vs => keeps_bind (evalNamed hK hm c keywords) fun ks => ?_
    exact keeps_bind (hK.applyOp hm op vs ks) fun v => hK.share v
  | .choose condition yes no => by
    rw [Script.eval]
    refine keeps_bind (eval hK hm c condition) fun v => keeps_bind (K.keeps_truthy v) fun _ => ?_
    exact K.keeps_ite (eval hK hm c yes) (eval hK hm c no)
  | .both first second => by
    rw [Script.eval]
    refine keeps_bind (eval hK hm c first) fun v => keeps_bind (K.keeps_truthy v) fun _ => ?_
    exact K.keeps_ite (eval hK hm c second) (K.keeps_pure v)
  | .either first second => by
    rw [Script.eval]
    refine keeps_bind (eval hK hm c first) fun v => keeps_bind (K.keeps_truthy v) fun _ => ?_
    exact K.keeps_ite (K.keeps_pure v) (eval hK hm c second)
  | .attempt body => by
    rw [Script.eval]
    refine keeps_bind (keeps_catching hK.counts (eval hK hm c body) fun error => K.keeps_pure error)
      fun v => hK.share v

theorem evalAll (hK : K.Open) (hm : m.Keeps K) (c : Script.Context) :
    ∀ es : List Script.Expr, K.Keeps (Script.evalAll m c es)
  | [] => by
    rw [Script.evalAll]
    exact K.keeps_pure _
  | e :: rest => by
    rw [Script.evalAll]
    exact keeps_bind (eval hK hm c e) fun v => keeps_bind (evalAll hK hm c rest) fun _ => K.keeps_pure _

theorem evalNamed (hK : K.Open) (hm : m.Keeps K) (c : Script.Context) :
    ∀ es : List (String × Script.Expr), K.Keeps (Script.evalNamed m c es)
  | [] => by
    rw [Script.evalNamed]
    exact K.keeps_pure _
  | (name, e) :: rest => by
    rw [Script.evalNamed]
    exact keeps_bind (eval hK hm c e) fun v => keeps_bind (evalNamed hK hm c rest) fun _ => K.keeps_pure _

end

/-- Functions that scripts define keep to every such course. -/
theorem host (hK : K.Open) : Script.host.Keeps K where
  apply m hm f arguments := by
    show K.Keeps (Script.applyClosure m f arguments)
    unfold Script.applyClosure
    split
    · exact K.keeps_ite (hK.eval hm _ _) (K.keeps_raise _)
    · exact K.keeps_raise _
  share := hK.share

end Open
end Course
end Rebind
