import Rebind.Proofs.Inspection
/-!
# Runs keep stores closed

Whatever a machine runs or calls on values of a closed store leads to a closed store, with the tracers that
were there before, and comes to a value of that store or to an error of it.  This holds of machines of every
depth as soon as it holds of the functions of the host.
-/
namespace Rebind

structure Machine.Contained (m : Machine) : Prop where
  run : ∀ {g : Gap} {p : ParserId} {text i env : Value}, p < g.parser → g.Covers text → g.Covers i →
    g.Covers env → Closes g (m.run p text i env) Gap.Covers
  call : ∀ {g : Gap} {f : Value} {arguments : List Value}, g.Covers f → (∀ v ∈ arguments, g.Covers v) →
    Closes g (m.call f arguments) Gap.Covers
  share : ∀ {g : Gap} {v : Value}, g.Covers v → Closes g (m.share v) Gap.Covers

/-- A host whose functions keep stores closed when the machine that they are lent does. -/
structure Host.Contained (host : Host) : Prop where
  apply : ∀ m : Machine, m.Contained → ∀ {g : Gap} {f : Value} {arguments : List Value}, g.Covers f →
    (∀ v ∈ arguments, g.Covers v) → Closes g (host.apply m f arguments) Gap.Covers
  share : ∀ {g : Gap} {v : Value}, g.Covers v → Closes g (host.share v) Gap.Covers

section Contained

variable {g k : Gap} {m : Machine} {text i env v w : Value} {p : ParserId}

theorem covered_mono {vs : List Value} (h : ∀ v ∈ vs, g.Covers v) (le : g ≤ k) : ∀ v ∈ vs, k.Covers v :=
  fun v member => (h v member).mono le

/-- A parser that is there stays there. -/
theorem there_mono (h : p < g.parser) (le : g ≤ k) : p < k.parser := Nat.lt_of_lt_of_le h le.1

/-! ### Behaviours without functions -/

theorem inspects_anyChar (env : Value) (ht : g.Covers text) (hi : g.Covers i) :
    Inspects g (Behave.anyChar text i env) g.Covers := by
  refine (inspects_lengthOf text).bind fun size _ => (inspects_atMost _ _).bind fun past _ => ?_
  refine inspects_ite (inspects_pure (covers_failure.mpr ⟨hi, covers_str _⟩)) ?_
  refine (inspects_addTo hi (covers_int 1)).bind fun next hn => (inspects_itemOf ht i).bind fun c hc => ?_
  exact inspects_pure (covers_success.mpr ⟨hn, hc⟩)

theorem inspects_rest (i env : Value) (ht : g.Covers text) : Inspects g (Behave.rest text i env) g.Covers := by
  refine (inspects_lengthOf text).bind fun size _ => (inspects_sliceOf ht _ _).bind fun left hl => ?_
  exact inspects_pure (covers_success.mpr ⟨covers_int _, hl⟩)

theorem inspects_eof (text env : Value) (hi : g.Covers i) : Inspects g (Behave.eof text i env) g.Covers := by
  refine (inspects_lengthOf text).bind fun size _ => (inspects_lessThan _ _).bind fun more _ => ?_
  refine inspects_ite (inspects_pure (covers_failure.mpr ⟨hi, covers_str _⟩)) ?_
  exact inspects_pure (covers_success.mpr ⟨hi, covers_none⟩)

theorem inspects_string (literal : String) (text env : Value) (hi : g.Covers i) :
    Inspects g (Behave.string literal text i env) g.Covers := by
  have asked : Inspects g (Behave.holdsAt text literal i) fun _ => True := by
    refine (inspects_look fun σ => σ.view text).bind fun w _ => ?_
    split
    · exact (inspects_boundOf i).bind fun bound _ => inspects_pure trivial
    · exact inspects_raise _
  refine asked.bind fun holds _ => inspects_ite ?_ (inspects_pure (covers_failure.mpr ⟨hi, covers_str _⟩))
  exact (inspects_addTo hi (covers_int _)).bind fun next hn => inspects_pure (covers_success.mpr ⟨hn, covers_str _⟩)

theorem inspects_regex (r : Regex) (group : Nat) (env : Value) (ht : g.Covers text) (hi : g.Covers i) :
    Inspects g (Behave.regex r group text i env) g.Covers := by
  have picked : ∀ found, Inspects g (Behave.groupOf r found group) g.Covers := fun found => by
    refine inspects_ite (inspects_raise _) (inspects_pure ?_)
    split
    · exact covers_ofChars _
    · exact covers_none
  refine (inspects_sliceOf ht _ _).bind fun left _ => ?_
  split
  · refine inspects_ite (inspects_raise _) ?_
    split
    · refine (inspects_addTo hi (covers_int _)).bind fun next hn => (picked _).bind fun v hv => ?_
      exact inspects_pure (covers_success.mpr ⟨hn, hv⟩)
    · exact inspects_pure (covers_failure.mpr ⟨hi, covers_str _⟩)
  · exact inspects_raise _

theorem inspects_threeOf (h : g.Covers v) :
    Inspects g (Behave.threeOf v) fun parts => g.Covers parts.1 ∧ g.Covers parts.2.1 ∧ g.Covers parts.2.2 := by
  refine (inspects_itemsOf h).bind fun items all => ?_
  split
  · exact inspects_pure ⟨all _ (by simp), all _ (by simp), all _ (by simp)⟩
  · exact inspects_raise _

/-! ### Behaviours on a machine -/

section Behaviours

variable (hm : m.Contained)

include hm

theorem closes_testChar {predicate : Value} (d : String) (hp : g.Covers predicate) (ht : g.Covers text)
    (hi : g.Covers i) (he : g.Covers env) :
    Closes g (Behave.testChar m predicate d text i env) Gap.Covers := by
  have asked : Closes g (Behave.accepts m predicate text i env) fun _ _ => True := by
    refine (inspects_lengthOf text).then fun size _ => (inspects_lessThan _ _).then fun more _ => ?_
    refine closes_ite ((inspects_itemOf ht i).then fun c hc => ?_) (closes_pure trivial)
    exact (hm.call hp (by simp [hc, he])).bind fun k v _ _ => (inspects_truthy v).closes
  refine asked.bind fun k accepted le _ => closes_ite ?_ ?_
  · refine (inspects_addTo (hi.mono le) (covers_int 1)).then fun next hn => ?_
    exact (inspects_itemOf (ht.mono le) i).then fun c hc => closes_pure (covers_success.mpr ⟨hn, hc⟩)
  · exact closes_pure (covers_failure.mpr ⟨hi.mono le, covers_str _⟩)

omit hm in
/-- What depends on whether a result is a success. -/
theorem closes_judged {α : Type} {R : Gap → α → Prop} {yes no : Result → Eval α} (hv : g.Covers v)
    (hy : ∀ r, r.CoveredBy g → Closes g (yes r) R) (hn : ∀ r, r.CoveredBy g → Closes g (no r) R) :
    Closes g (do
      let r ← resultOf v
      if ← truthy r.status then yes r else no r) R := by
  refine (inspects_resultOf hv).then fun r hr => (inspects_truthy _).then fun succeeded _ => ?_
  exact closes_ite (hy r hr) (hn r hr)

theorem closes_sequenceFrom {parts : List ParserId} {previous : Value} {values : List Value}
    (hp : ∀ p ∈ parts, p < g.parser) (ht : g.Covers text) (he : g.Covers env) (before : g.Covers previous)
    (hv : ∀ v ∈ values, g.Covers v) (hi : g.Covers i) :
    Closes g (Behave.sequenceFrom m text env parts previous values i) Gap.Covers := by
  induction parts generalizing g previous values i with
  | nil => exact (inspects_mergeOver (covers_success.mpr ⟨hi, covers_list.mpr hv⟩) before).closes
  | cons p ps ih =>
    obtain ⟨first, later⟩ := List.forall_mem_cons.mp hp
    refine (hm.run first ht hi he).bind fun k outcome le ho => ?_
    refine (inspects_mergeOver ho (before.mono le)).then fun merged hm => ?_
    refine closes_judged hm (fun r hr => ?_) fun r _ => closes_pure hm
    refine ih (fun p member => there_mono (later p member) le) (ht.mono le) (he.mono le) hm ?_ hr.index
    simpa [or_imp, forall_and, hr.value] using covered_mono hv le

theorem closes_alternativeFrom {choices : List ParserId} {previous : Value} (hp : ∀ p ∈ choices, p < g.parser)
    (ht : g.Covers text) (hi : g.Covers i) (he : g.Covers env) (before : g.Covers previous) :
    Closes g (Behave.alternativeFrom m text i env choices previous) Gap.Covers := by
  induction choices generalizing g previous with
  | nil => exact closes_pure before
  | cons p ps ih =>
    obtain ⟨first, later⟩ := List.forall_mem_cons.mp hp
    refine (hm.run first ht hi he).bind fun k outcome le ho => ?_
    refine (inspects_mergeOver ho (before.mono le)).then fun merged hm => ?_
    refine closes_judged hm (fun r _ => closes_pure hm) fun r _ => ?_
    exact ih (fun p member => there_mono (later p member) le) (ht.mono le) (hi.mono le) (he.mono le) hm

/-- The progress of a repetition in values that refer to earlier numbers. -/
def Behave.Progress.CoveredBy (g : Gap) : Behave.Progress → Prop
  | .failed result => g.Covers result
  | .reached index values => g.Covers index ∧ ∀ v ∈ values, g.Covers v

theorem closes_requiredRounds {item : ParserId} {previous : Value} {values : List Value} (n : Nat)
    (hp : item < g.parser) (ht : g.Covers text) (he : g.Covers env) (before : g.Covers previous)
    (hv : ∀ v ∈ values, g.Covers v) (hi : g.Covers i) :
    Closes g (Behave.requiredRounds m item text env n previous values i) Behave.Progress.CoveredBy := by
  induction n generalizing g previous values i with
  | zero => exact closes_pure ⟨hi, hv⟩
  | succ n ih =>
    refine (hm.run hp ht hi he).bind fun k outcome le ho => ?_
    refine (inspects_mergeOver ho (before.mono le)).then fun merged hm => ?_
    refine closes_judged ho (fun r hr => ?_) fun r _ => closes_pure hm
    refine ih (there_mono hp le) (ht.mono le) (he.mono le) hm ?_ hr.index
    simpa [or_imp, forall_and, hr.value] using covered_mono hv le

theorem closes_optionalRounds {item : ParserId} {values : List Value} (n : Nat) (hp : item < g.parser)
    (ht : g.Covers text) (he : g.Covers env) (hv : ∀ v ∈ values, g.Covers v) (hi : g.Covers i) :
    Closes g (Behave.optionalRounds m item text env n values i)
      fun k reached => k.Covers reached.2.1 ∧ ∀ v ∈ reached.2.2, k.Covers v := by
  induction n generalizing g values i with
  | zero => exact closes_pure ⟨hi, hv⟩
  | succ n ih =>
    refine (hm.run hp ht hi he).bind fun k outcome le ho => ?_
    refine closes_judged ho (fun r hr => ?_) fun r _ => closes_pure ⟨hi.mono le, covered_mono hv le⟩
    refine ih (there_mono hp le) (ht.mono le) (he.mono le) ?_ hr.index
    simpa [or_imp, forall_and, hr.value] using covered_mono hv le

theorem closes_moreRounds {item : ParserId} {values : List Value} (limit : Option Nat) (hp : item < g.parser)
    (ht : g.Covers text) (he : g.Covers env) (hv : ∀ v ∈ values, g.Covers v) (hi : g.Covers i) :
    Closes g (Behave.moreRounds m item text env limit values i) Gap.Covers := by
  refine (closes_optionalRounds hm _ hp ht he hv hi).bind fun k reached le covered => ?_
  exact closes_ite closes_endless (closes_pure (covers_success.mpr ⟨covered.1, covers_list.mpr covered.2⟩))

theorem closes_repetition {item : ParserId} (least most : Count) (hp : item < g.parser) (ht : g.Covers text)
    (hi : g.Covers i) (he : g.Covers env) :
    Closes g (Behave.repetition m item least most text i env) Gap.Covers := by
  refine (closes_requiredRounds hm _ hp ht he covers_none (by simp) hi).bind ?_
  intro k progress le covered
  cases progress with
  | failed merged => exact closes_pure covered
  | reached i values =>
    dsimp only
    split
    · exact closes_moreRounds hm _ (there_mono hp le) (ht.mono le) (he.mono le) covered.2 covered.1
    · exact closes_endless

theorem closes_transform {inner : ParserId} {f : Value} (hp : inner < g.parser) (hf : g.Covers f)
    (ht : g.Covers text) (hi : g.Covers i) (he : g.Covers env) :
    Closes g (Behave.transform m inner f text i env) Gap.Covers := by
  refine (hm.run hp ht hi he).bind fun k outcome le ho => ?_
  refine closes_judged ho (fun r hr => ?_) fun r _ => closes_pure ho
  refine (hm.share hr.value).bind fun k' v le' hv => ?_
  have given : ∀ u ∈ [v, env], k'.Covers u := by simp [hv, he.mono (le.trans le')]
  refine (hm.call (hf.mono (le.trans le')) given).bind fun k'' w le'' hw => closes_pure ?_
  exact covers_success.mpr ⟨hr.index.mono (le'.trans le''), hw⟩

theorem closes_exclude {allowed forbidden : ParserId} (ha : allowed < g.parser) (hf : forbidden < g.parser)
    (ht : g.Covers text) (hi : g.Covers i) (he : g.Covers env) :
    Closes g (Behave.exclude m allowed forbidden text i env) Gap.Covers := by
  refine (hm.run hf ht hi he).bind fun k found le hfound => closes_judged hfound (fun f _ => ?_) fun f hf => ?_
  · exact (inspects_textOf _).then fun s _ => closes_pure (covers_failure.mpr ⟨hi.mono le, covers_str _⟩)
  · refine (hm.run (there_mono ha le) (ht.mono le) (hi.mono le) (he.mono le)).bind fun k' outcome le' ho => ?_
    refine closes_judged ho (fun a _ => closes_pure ho) fun a ha => ?_
    refine (inspects_expectedText ha.value).then fun wanted _ => ?_
    refine (inspects_expectedText (hf.value.mono le')).then fun unwanted _ => closes_pure ?_
    exact covers_failure.mpr ⟨hi.mono (le.trans le'), covers_str _⟩

theorem closes_describe {inner : ParserId} (d : String) (hp : inner < g.parser) (ht : g.Covers text)
    (hi : g.Covers i) (he : g.Covers env) : Closes g (Behave.describe m inner d text i env) Gap.Covers := by
  refine (hm.run hp ht hi he).bind fun k outcome _ ho => ?_
  refine closes_judged ho (fun r _ => closes_pure ho) fun r hr => closes_pure ?_
  exact covers_result.mpr ⟨hr.status, hr.index, covers_list.mpr (by simp)⟩

theorem closes_mark {framed : ParserId} (hp : framed < g.parser) (ht : g.Covers text) (hi : g.Covers i)
    (he : g.Covers env) : Closes g (Behave.mark m framed text i env) Gap.Covers := by
  refine (hm.run hp ht hi he).bind fun k outcome _ ho => ?_
  refine closes_judged ho (fun r hr => ?_) fun r _ => closes_pure ho
  refine (inspects_threeOf hr.value).then fun parts covered => closes_pure ?_
  exact covers_success.mpr ⟨hr.index, covers_mark.mpr covered⟩

theorem closes_chain {first : ParserId} {decide : Value} (hp : first < g.parser) (hd : g.Covers decide)
    (ht : g.Covers text) (hi : g.Covers i) (he : g.Covers env) :
    Closes g (Behave.chain m first decide text i env) Gap.Covers := by
  refine (hm.run hp ht hi he).bind fun k outcome le ho => ?_
  refine closes_judged ho (fun r _ => ?_) fun r _ => closes_pure ho
  refine (hm.share ho).bind fun k' outcome le' ho' => (inspects_resultOf ho').then fun r hr => ?_
  have before := le.trans le'
  refine (hm.call (hd.mono before) (by simp [hr.value, he.mono before])).bind fun k'' next le'' _ => ?_
  have chosen : ∀ name, Closes k'' (do
      let id ← Grammar.parserOf ("chain(" ++ name ++ ")") next
      mergeOver (← m.run id text r.index env) outcome) Gap.Covers := fun name => by
    refine (inspects_parserOf _ _).then fun id there => ?_
    have given := before.trans le''
    refine (hm.run there (ht.mono given) (hr.index.mono le'') (he.mono given)).bind fun k₃ last le₃ hl => ?_
    exact (inspects_mergeOver hl (ho'.mono (le''.trans le₃))).closes
  split
  · exact chosen _
  · exact (inspects_textOf _).then fun name _ => chosen name

theorem closes_deferredLookup {resolve : Value} (name : String) (hr : g.Covers resolve) (ht : g.Covers text)
    (hi : g.Covers i) (he : g.Covers env) :
    Closes g (Behave.deferredLookup m resolve name text i env) Gap.Covers := by
  refine (hm.call hr (by simp [he])).bind fun k found le _ => (inspects_parserOf _ _).then fun id there => ?_
  exact hm.run there (ht.mono le) (hi.mono le) (he.mono le)

theorem closes_subEnvironment {inner : ParserId} {derive : Value} (hp : inner < g.parser) (hd : g.Covers derive)
    (ht : g.Covers text) (hi : g.Covers i) (he : g.Covers env) :
    Closes g (Behave.subEnvironment m inner derive text i env) Gap.Covers := by
  refine (hm.call hd (by simp [he])).bind fun k inside le h => ?_
  exact hm.run (there_mono hp le) (ht.mono le) (hi.mono le) h

/-- A tracer is there while the parser below it runs, and not any more when that is over. -/
theorem closes_debug {inner : ParserId} {handler : Value} (hp : inner < g.parser) (hh : g.Covers handler)
    (ht : g.Covers text) (hi : g.Covers i) (he : g.Covers env) :
    Closes g (Behave.debug m inner handler text i env) Gap.Covers := by
  rintro σ closed rfl
  let τ : Store := { σ with tracers := handler :: σ.tracers }
  have pushed : τ.Closed := by
    refine closed.change le_rfl (fun _ => .inl) (fun _ _ => .inl) (fun _ _ => .inl) (fun _ => .inl) ?_
    rintro h (_ | ⟨_, member⟩)
    · exact .inr hh
    · exact .inl member
  have popped : ∀ {υ : Store}, τ.Grows υ → σ.Grows { υ with tracers := υ.tracers.drop 1 } := by
    refine fun {υ} grown => ⟨?_, ?_, grown.gap⟩
    · refine grown.closed.change le_rfl (fun _ => .inl) (fun _ _ => .inl) (fun _ _ => .inl) (fun _ => .inl) ?_
      exact fun h member => .inl (List.mem_of_mem_drop member)
    · exact congrArg (List.drop 1) grown.tracers
  have started : Behave.pushTracer handler σ = .ok () τ := rfl
  refine Ends.bind_ok started (ends_andFinally_popTracer.mpr ?_)
  refine Ends.mono (hm.run hp ht hi he τ pushed rfl) ?_ ?_
  · exact fun a υ h => ⟨popped h.1, h.2⟩
  · exact fun e υ h => ⟨popped h.1, h.2⟩

/-- A behaviour keeps stores closed. -/
theorem closes_behave {b : Behaviour Value} (hb : b.CoveredBy g) (ht : g.Covers text) (hi : g.Covers i)
    (he : g.Covers env) : Closes g (behave m b text i env) Gap.Covers := by
  cases b with
  | anyChar => exact (inspects_anyChar env ht hi).closes
  | rest => exact (inspects_rest i env ht).closes
  | eof => exact (inspects_eof text env hi).closes
  | index => exact closes_pure (covers_success.mpr ⟨hi, hi⟩)
  | lineColumnIndex =>
    exact (inspects_lineColumnOf ht hi).then fun v hv => closes_pure (covers_success.mpr ⟨hi, hv⟩)
  | succeed v => exact closes_pure (covers_success.mpr ⟨hi, coveredBy_succeed.mp hb⟩)
  | fail d => exact closes_pure (covers_failure.mpr ⟨hi, covers_str d⟩)
  | string s => exact (inspects_string s text env hi).closes
  | regex r group => exact (inspects_regex r group env ht hi).closes
  | testChar predicate d => exact closes_testChar hm d (coveredBy_testChar.mp hb) ht hi he
  | sequence parts =>
    exact closes_sequenceFrom hm (coveredBy_sequence.mp hb) ht he covers_none
      (fun _ member => absurd member List.not_mem_nil) hi
  | alternative choices => exact closes_alternativeFrom hm (coveredBy_alternative.mp hb) ht hi he covers_none
  | repetition item least most => exact closes_repetition hm least most (coveredBy_repetition.mp hb) ht hi he
  | transform inner f =>
    obtain ⟨there, hf⟩ := coveredBy_transform.mp hb
    exact closes_transform hm there hf ht hi he
  | exclude allowed forbidden =>
    obtain ⟨ha, hf⟩ := coveredBy_exclude.mp hb
    exact closes_exclude hm ha hf ht hi he
  | describe inner d => exact closes_describe hm d (coveredBy_describe.mp hb) ht hi he
  | mark framed => exact closes_mark hm (coveredBy_mark.mp hb) ht hi he
  | chain first decide =>
    obtain ⟨there, hd⟩ := coveredBy_chain.mp hb
    exact closes_chain hm there hd ht hi he
  | subEnvironment inner derive =>
    obtain ⟨there, hd⟩ := coveredBy_subEnvironment.mp hb
    exact closes_subEnvironment hm there hd ht hi he
  | deferredLookup resolve name => exact closes_deferredLookup hm name (coveredBy_deferredLookup.mp hb) ht hi he
  | debug inner handler =>
    obtain ⟨there, hh⟩ := coveredBy_debug.mp hb
    exact closes_debug hm there hh ht hi he

/-! ### Calls -/

theorem closes_callParser (hp : p < g.parser) (ht : g.Covers text) (he : g.Covers env) (hi : g.Covers i) :
    Closes g (callParser m p text env i) Gap.Covers := by
  refine (hm.run hp ht hi he).bind fun k outcome _ ho => ?_
  refine closes_judged ho (fun r hr => ?_) fun r _ => closes_pure ho
  refine (inspects_lengthOf _).then fun size _ => (inspects_lessThan _ _).then fun more _ => ?_
  refine closes_ite (inspects_mergeOver ?_ ho).closes (closes_pure ho)
  exact covers_failure.mpr ⟨hr.index, covers_str _⟩

theorem closes_parseText {name : Value} (hp : p < g.parser) (ht : g.Covers text) (he : g.Covers env)
    (hn : g.Covers name) : Closes g (parseText m p text env name) Gap.Covers := by
  refine (closes_callParser hm hp ht he (covers_int 0)).bind fun k outcome le ho => ?_
  refine closes_judged ho (fun r hr => closes_pure hr.value) fun r _ => ?_
  exact (inspects_newMismatch (ht.mono le) ho (hn.mono le)).then fun e h => closes_throw h

theorem closes_invoke {host : Host} (hh : host.Contained) {f : Value} {arguments : List Value}
    (hf : g.Covers f) (ha : ∀ v ∈ arguments, g.Covers v) : Closes g (invoke host m f arguments) Gap.Covers := by
  have known := hf.content
  unfold invoke
  split
  · next b text i env same =>
    rw [same] at known
    simp only [List.forall_mem_cons] at ha
    exact closes_behave hm (covers_behaviour.mp known) ha.1 ha.2.1 ha.2.2.1
  · next id text same =>
    rw [same] at known
    simp only [List.forall_mem_cons] at ha
    exact closes_callParser hm (covers_parserId.mp known) ha.1 covers_none (covers_int 0)
  · next id text env same =>
    rw [same] at known
    simp only [List.forall_mem_cons] at ha
    exact closes_callParser hm (covers_parserId.mp known) ha.1 ha.2.1 (covers_int 0)
  · next id text env i same =>
    rw [same] at known
    simp only [List.forall_mem_cons] at ha
    exact closes_callParser hm (covers_parserId.mp known) ha.1 ha.2.1 ha.2.2.1
  · exact hh.apply m hm hf ha
  · exact closes_raise _

theorem closes_runCurrent {host : Host} (hh : host.Contained) (p : ParserId) (ht : g.Covers text)
    (hi : g.Covers i) (he : g.Covers env) : Closes g (runCurrent host m p text i env) Gap.Covers := by
  have current : Inspects g (currentBehaviour p) g.Covers := by
    refine inspects_get.bind fun σ ⟨closed, same⟩ => ?_
    subst same
    split
    · next s there => exact inspects_pure (closed.parsers p s there).1
    · exact inspects_raise _
  exact current.then fun f hf => closes_invoke hm hh hf (by simp [ht, hi, he])

end Behaviours

/-! ### Printing handlers -/

section Printing

variable {e : HandlerId} {parser offset stop outcome error : Value}

theorem inspects_echoOf (e : HandlerId) : Inspects g (Trace.echoOf e) (·.CoveredBy g) := by
  refine inspects_get.bind fun σ ⟨closed, same⟩ => ?_
  subst same
  split
  · next s there => exact inspects_pure (closed.echoes e s there)
  · exact inspects_raise _

theorem closes_changeDepth {change : Value → Value → Eval Value}
    (hc : ∀ v, g.Covers v → Inspects g (change v (.int 1)) g.Covers) :
    Closes g (Trace.changeDepth e change) fun _ _ => True := by
  refine (inspects_echoOf e).then fun s hs => (hc _ hs.depth).then fun depth hd => ?_
  refine closes_modify fun σ closed same => ?_
  subst same
  obtain ⟨closed', same⟩ := closed.setEcho (s := { s with depth }) { hs with depth := hd } e
  exact ⟨closed', rfl, same⟩

theorem closes_echo (color : Value) (line : String) : Closes g (Trace.echo color line) fun _ _ => True :=
  (inspects_truthy _).then fun _ _ => closes_ite (closes_printLine _) (closes_printLine _)

theorem inspects_charOf (v : Value) : Inspects g (Trace.charOf v) fun _ => True := by
  refine (inspects_look fun σ => σ.view v).bind fun w _ => ?_
  split
  · split <;> first | exact inspects_pure trivial | exact inspects_raise _
  · exact inspects_raise _

theorem inspects_wholeOf (v : Value) : Inspects g (Trace.wholeOf v) fun _ => True := by
  refine (inspects_look fun σ => σ.view v).bind fun w _ => ?_
  split <;> first | exact inspects_pure trivial | exact inspects_raise _

theorem inspects_lineStartOf (s : EchoState) (event : Trace.Event) (offset stop : Value) (ht : g.Covers text) :
    Inspects g (Trace.lineStartOf s event text offset stop) fun _ => True := by
  have rest : ∀ (width size offset : Int) (stop : Option Int) (cs : List Char), Inspects g (do
      let depth ← Trace.wholeOf s.depth
      return Trace.lineStart event width (← truthy s.padIfShort) depth size offset stop cs) fun _ => True :=
    fun width size offset stop cs =>
      (inspects_wholeOf _).bind fun depth _ => (inspects_truthy _).bind fun pad _ => inspects_pure trivial
  refine (inspects_lengthOf text).bind fun size _ => (inspects_wholeOf _).bind fun width _ => ?_
  refine (inspects_wholeOf _).bind fun offset _ => (inspects_boundOf _).bind fun stop _ => ?_
  refine (inspects_sliceOf ht _ _).bind fun shown hs => ?_
  split
  · exact rest width size offset stop _
  · refine (inspects_itemsOf hs).bind fun items _ => ?_
    exact (inspects_mapM fun v _ => inspects_charOf v).bind fun cs _ => rest width size offset stop cs

theorem inspects_placeText (ht : g.Covers text) (ho : g.Covers offset) :
    Inspects g (Trace.placeText text offset) fun _ => True :=
  (inspects_placeOf ht ho).bind fun _ _ => inspects_pure trivial

theorem inspects_nameText (hp : g.Covers parser) : Inspects g (Trace.nameText parser) fun _ => True := by
  refine (inspects_attributeOf hp _).bind fun name _ => (inspects_textOf name).bind fun shown _ => ?_
  exact (inspects_truthy _).bind fun _ _ => inspects_pure trivial

theorem closes_echoExtra (color : Value) (start : String) (extra : Value) :
    Closes g (Trace.echoExtra color start extra) fun _ _ => True := by
  refine (inspects_look fun σ => σ.view extra).then fun w _ => ?_
  split
  · next s =>
    generalize Text.lines s = lines
    induction lines generalizing g with
    | nil => exact closes_pure trivial
    | cons line rest ih => exact (closes_echo _ _).bind fun k _ _ _ => ih
  · exact closes_pure trivial

theorem closes_consult (hm : m.Contained) {callback : Value} {arguments : List Value} (hc : g.Covers callback)
    (ha : ∀ v ∈ arguments, g.Covers v) : Closes g (Trace.consult m callback arguments) Gap.Covers :=
  (inspects_truthy _).then fun _ _ => closes_ite (hm.call hc ha) (closes_pure (covers_bool true))

theorem inspects_jsonOf (separators : Json.Separators) (v : Value) :
    Inspects g (Trace.jsonOf separators v) fun _ => True := by
  refine (inspects_look fun σ => σ.snapshot v).bind fun d _ => ?_
  split <;> first | exact inspects_pure trivial | exact inspects_raise _

theorem closes_echoEnter (hm : m.Contained) (hp : g.Covers parser) (ht : g.Covers text) (ho : g.Covers offset)
    (he : g.Covers env) : Closes g (Trace.echoEnter m e parser text offset env) fun _ _ => True := by
  refine (inspects_echoOf e).then fun s hs => ?_
  refine (closes_consult hm hs.onEnter (by simp [hp, ht, ho, he])).bind fun k extra le _ => ?_
  have deeper : ∀ {k : Gap}, Closes k (Trace.changeDepth e addTo) fun _ _ => True :=
    closes_changeDepth fun v hv => inspects_addTo hv (covers_int 1)
  refine (inspects_truthy _).then fun wanted _ => ?_
  split
  · refine (inspects_echoOf e).then fun s _ => (inspects_lineStartOf _ _ _ _ (ht.mono le)).then fun start _ => ?_
    refine (inspects_placeText (ht.mono le) (ho.mono le)).then fun place _ => ?_
    refine (inspects_nameText (hp.mono le)).then fun name _ => (closes_echo _ _).bind fun k' _ _ _ => ?_
    exact (closes_echoExtra _ _ _).bind fun k'' _ _ _ => deeper
  · exact deeper

theorem inspects_okayText (ht : g.Covers text) (offset stop : Value) :
    Inspects g (Trace.okayText text offset stop) fun _ => True := by
  refine (inspects_sliceOf ht _ _).bind fun consumed _ => (inspects_jsonOf _ _).bind fun json _ => ?_
  exact (inspects_lengthOf _).bind fun size _ => inspects_pure trivial

theorem closes_echoExit (hm : m.Contained) (hp : g.Covers parser) (ht : g.Covers text) (ho : g.Covers offset)
    (he : g.Covers env) (hr : g.Covers outcome) :
    Closes g (Trace.echoExit m e parser text offset env outcome) fun _ _ => True := by
  refine (closes_changeDepth fun v _ => inspects_subtractFrom v _).bind fun k _ le _ => ?_
  refine (inspects_echoOf e).then fun s hs => ?_
  have given : ∀ v ∈ [parser, text, offset, env, outcome], k.Covers v := by
    simp [hp.mono le, ht.mono le, ho.mono le, he.mono le, hr.mono le]
  refine (closes_consult hm hs.onExit given).bind fun k' extra le' _ => ?_
  replace le := le.trans le'
  refine (inspects_truthy _).then fun wanted _ => closes_ite ?_ (closes_pure trivial)
  refine (inspects_echoOf e).then fun s _ => (inspects_nameText (hp.mono le)).then fun name _ => ?_
  have last : ∀ start ending, Closes k' (do
      let place ← Trace.placeText text offset
      Trace.echo s.color (start ++ place ++ " " ++ name ++ " " ++ ending)
      Trace.echoExtra s.color start extra) fun _ _ => True := fun start ending =>
    (inspects_placeText (ht.mono le) (ho.mono le)).then fun place _ =>
      (closes_echo _ _).bind fun _ _ _ _ => closes_echoExtra _ _ _
  refine (inspects_attributeOf (hr.mono le) _).then fun status _ => (inspects_truthy _).then fun succeeded _ => ?_
  split
  · refine (inspects_attributeOf (hr.mono le) _).then fun stop _ => ?_
    refine (inspects_lineStartOf _ _ _ _ (ht.mono le)).then fun start _ => ?_
    refine (inspects_okayText (ht.mono le) _ _).then fun okay _ => ?_
    exact (inspects_pure (P := fun _ => True) trivial).then fun parts _ => last _ _
  · refine (inspects_lineStartOf _ _ _ _ (ht.mono le)).then fun start _ => ?_
    refine (inspects_attributeOf (hr.mono le) _).then fun v _ => (inspects_jsonOf _ _).then fun json _ => ?_
    exact (inspects_pure (P := fun _ => True) trivial).then fun parts _ => last _ _

theorem closes_echoAbort (hp : g.Covers parser) (ht : g.Covers text) (ho : g.Covers offset) :
    Closes g (Trace.echoAbort e parser text offset error) fun _ _ => True := by
  refine (closes_changeDepth fun v _ => inspects_subtractFrom v _).bind fun k _ le _ => ?_
  refine (inspects_echoOf e).then fun s _ => (inspects_lineStartOf _ _ _ _ (ht.mono le)).then fun start _ => ?_
  refine (inspects_placeText (ht.mono le) (ho.mono le)).then fun place _ => ?_
  refine (inspects_nameText (hp.mono le)).then fun name _ => ?_
  exact (inspects_look fun σ => σ.snapshot error).then fun d _ => closes_echo _ _

end Printing

/-! ### Handlers -/

section Handlers

variable {handler parser : Value}

theorem closes_callMethod (hm : m.Contained) {arguments : List Value} (hh : g.Covers handler) (name : String)
    (ha : ∀ v ∈ arguments, g.Covers v) : Closes g (Trace.callMethod m handler name arguments) Gap.Covers := by
  refine (inspects_view hh).then fun w known => ?_
  split
  · split <;> try simp only [List.forall_mem_cons] at ha
    · exact (closes_echoEnter hm ha.1 ha.2.1 ha.2.2.1 ha.2.2.2.1).bind fun _ _ _ _ => closes_pure covers_none
    · refine (closes_echoExit hm ha.1 ha.2.1 ha.2.2.1 ha.2.2.2.1 ha.2.2.2.2.1).bind fun _ _ _ _ => ?_
      exact closes_pure covers_none
    · exact (closes_echoAbort ha.1 ha.2.1 ha.2.2.1).bind fun _ _ _ _ => closes_pure covers_none
    all_goals exact closes_raise _
  · split
    · next found => exact hm.call (covers_lookup (covers_handler.mp known) found) ha
    · exact closes_raise _
  · exact closes_raise _

theorem inspects_hearsErrors (handler : Value) : Inspects g (Trace.hearsErrors handler) fun _ => True := by
  refine (inspects_look fun σ => σ.view handler).bind fun w _ => ?_
  split
  · exact inspects_pure trivial
  · split <;> exact inspects_pure trivial
  · exact inspects_pure trivial

theorem inspects_showsResults (handler : Value) : Inspects g (Trace.showsResults handler) fun _ => True := by
  refine (inspects_look fun σ => σ.view handler).bind fun w _ => ?_
  split
  · refine inspects_get.bind fun σ _ => ?_
    split
    · exact inspects_truthy _
    · exact inspects_pure trivial
  · exact inspects_pure trivial

theorem closes_recording {α : Type} {R : Gap → α → Prop} {body : Eval α} (hb : Closes g body R)
    (report : Except Value α → Trace.Report) : Closes g (Trace.recording body report) R := by
  have recorded : ∀ {σ τ : Store} (r : Trace.Report), σ.Grows τ → σ.Grows (τ.record r) := fun r grown =>
    ⟨grown.closed.change le_rfl (fun _ => .inl) (fun _ _ => .inl) (fun _ _ => .inl) (fun _ => .inl) fun _ => .inl,
      grown.tracers, grown.gap⟩
  intro σ closed same
  refine ends_recording.mpr (Ends.mono (hb σ closed same) (fun a τ h => ⟨recorded _ h.1, h.2⟩) ?_)
  rintro e τ ⟨grown, covered⟩
  cases e with
  | raised error => exact ⟨recorded _ grown, covered⟩
  | endless => exact ⟨grown, covered⟩

structure Trace.Visit.CoveredBy (v : Trace.Visit) (g : Gap) : Prop where
  handler : g.Covers v.handler
  parser : g.Covers v.parser
  text : g.Covers v.text
  index : g.Covers v.index
  environment : g.Covers v.environment

theorem Trace.Visit.CoveredBy.mono {v : Trace.Visit} (h : v.CoveredBy g) (le : g ≤ k) : v.CoveredBy k :=
  ⟨h.handler.mono le, h.parser.mono le, h.text.mono le, h.index.mono le, h.environment.mono le⟩

theorem closes_tell (hm : m.Contained) {v : Trace.Visit} (hv : v.CoveredBy g) (name : String)
    {more : List Value} (ha : ∀ v ∈ more, g.Covers v) (report : Option Value → Trace.Report) :
    Closes g (Trace.tell m v name more report) fun _ _ => True := by
  have given : ∀ u ∈ [v.parser, v.text, v.index, v.environment] ++ more, g.Covers u := by
    simpa [or_imp, forall_and, hv.parser, hv.text, hv.index, hv.environment] using ha
  exact (closes_recording (closes_callMethod hm hv.handler name given) _).bind fun _ _ _ _ => closes_pure trivial

theorem closes_presented (hm : m.Contained) (handler : Value) (hv : g.Covers v) :
    Closes g (Trace.presented m handler v) Gap.Covers :=
  (inspects_showsResults handler).then fun _ _ => closes_ite (hm.share hv) (closes_pure hv)

theorem closes_abort (hm : m.Contained) {v : Trace.Visit} {error : Value} (hv : v.CoveredBy g)
    (he : g.Covers error) : Closes g (Trace.abort m v error) Gap.Covers := by
  refine (inspects_hearsErrors _).then fun hears _ => closes_ite ?_ ?_
  · refine (closes_presented hm v.handler he).bind fun k error le he => ?_
    refine (closes_tell hm (hv.mono le) _ (by simp [he]) _).bind fun k' _ le' _ => ?_
    exact closes_throw (he.mono le')
  · refine (closes_modify_aside fun σ => ⟨_, _, _, _, rfl⟩).bind fun k _ le _ => closes_throw (he.mono le)

theorem closes_report (hm : m.Contained) {body : Runner} (hh : g.Covers handler) (hp : g.Covers parser)
    (ht : g.Covers text) (hi : g.Covers i) (he : g.Covers env)
    (hb : ∀ k, g ≤ k → Closes k (body text i env) Gap.Covers) :
    Closes g (Trace.report m handler parser body text i env) Gap.Covers := by
  have visit : Trace.Visit.CoveredBy ⟨handler, parser, text, i, env⟩ g := ⟨hh, hp, ht, hi, he⟩
  refine (closes_tell hm visit _ (by simp) _).bind fun k _ le _ => ?_
  refine (closes_catching (closes_recording (hb k le) _) fun k' error le' covered => ?_).bind ?_
  · exact closes_abort hm (visit.mono (le.trans le')) covered
  · intro k' outcome le' ho
    refine (closes_presented hm handler ho).bind fun k'' outcome le'' ho => ?_
    have later := (le.trans le').trans le''
    refine (closes_tell hm (visit.mono later) _ (by simp [ho]) _).bind fun k₃ _ le₃ _ => ?_
    exact closes_pure (ho.mono le₃)

end Handlers

/-! ### Machines -/

theorem closes_overrun : Closes g overrun Gap.Covers := by
  rintro σ closed rfl
  refine ⟨⟨?_, rfl, le_rfl⟩, ?_⟩
  · exact closed.change le_rfl (fun _ => .inl) (fun _ _ => .inl) (fun _ _ => .inl) (fun _ => .inl) fun _ => .inl
  · rintro error ⟨⟩
    exact covers_error _

/-- One machine up, functions and services of the library keep stores closed too. -/
theorem Machine.Contained.above {host : Host} (hh : host.Contained) (hm : m.Contained) :
    (m.above host).Contained where
  run := by
    intro g p text i env hp ht hi he
    have current : ∀ k, g ≤ k → Closes k (runCurrent host m p text i env) Gap.Covers := fun k le =>
      closes_runCurrent hm hh p (ht.mono le) (hi.mono le) (he.mono le)
    refine inspects_get.then fun σ ⟨closed, same⟩ => ?_
    subst same
    split
    · exact current _ le_rfl
    · next handler rest active =>
      have covered := closed.tracers handler (by simp [active])
      exact closes_report hm covered (covers_parserId.mpr hp) ht hi he current
  call hf ha := closes_invoke hm hh hf ha
  share := hh.share

/-- Machines of every depth keep stores closed when the functions of the host do. -/
theorem Host.Contained.machine {host : Host} (hh : host.Contained) (rounds depth : Nat) :
    (machine host rounds depth).Contained := by
  induction depth with
  | zero => exact ⟨fun _ _ _ _ => closes_overrun, fun _ _ => closes_overrun, hh.share⟩
  | succ depth ih => exact ih.above hh

end Contained

end Rebind
