import Rebind.Proofs.Containment
import Rebind.Value.Documents
/-!
# What is made refers to what is there

Operations on data and the functions that make parsers put values together out of what they are given, out of
plain data and out of what they make themselves, so they never get hold of a number that was not given out.
Each of them leads from a closed store to a closed store.
-/
namespace Rebind

section Operations

variable {g k : Gap} {v w u : Value} {m : Machine}

/-! ### Several values -/

theorem named_mono {es : List (String × Value)} (h : ∀ e ∈ es, g.Covers e.2) (le : g ≤ k) :
    ∀ e ∈ es, k.Covers e.2 := fun e member => (h e member).mono le

theorem closes_mapM {α : Type} {f : α → Eval Value} {xs : List α}
    (hf : ∀ k x, g ≤ k → x ∈ xs → Closes k (f x) Gap.Covers) :
    Closes g (xs.mapM f) fun k ys => ∀ y ∈ ys, k.Covers y := by
  induction xs generalizing g with
  | nil => exact closes_pure fun _ member => absurd member List.not_mem_nil
  | cons x rest ih =>
    rw [List.mapM_cons]
    refine (hf g x le_rfl List.mem_cons_self).bind fun k y le hy => ?_
    refine (ih fun k' x' le' member => hf k' x' (le.trans le') (List.mem_cons_of_mem _ member)).bind ?_
    exact fun k' ys le' all => closes_pure (List.forall_mem_cons.mpr ⟨hy.mono le', all⟩)

/-! ### Operations on data -/

theorem inspects_withEntry (hk : g.Covers v) (hw : g.Covers w) {entries : List (Value × Value)}
    (h : ∀ e ∈ entries, g.Covers e.1 ∧ g.Covers e.2) :
    Inspects g (withEntry v w entries) fun es => ∀ e ∈ es, g.Covers e.1 ∧ g.Covers e.2 := by
  induction entries with
  | nil => exact inspects_pure (List.forall_mem_cons.mpr
    ⟨⟨hk, hw⟩, fun _ member => absurd member List.not_mem_nil⟩)
  | cons entry rest ih =>
    obtain ⟨first, later⟩ := List.forall_mem_cons.mp h
    refine (inspects_equalTo _ _).bind fun found _ => inspects_ite (inspects_pure ?_) ?_
    · exact List.forall_mem_cons.mpr ⟨⟨first.1, hw⟩, later⟩
    · exact (ih later).bind fun es all => inspects_pure (List.forall_mem_cons.mpr ⟨first, all⟩)

theorem inspects_anyEqual (v : Value) (items : List Value) : Inspects g (anyEqual v items) fun _ => True := by
  induction items with
  | nil => exact inspects_pure trivial
  | cons w rest ih => exact (inspects_equalTo _ _).bind fun found _ => inspects_ite (inspects_pure trivial) ih

theorem covers_repeated (h : g.Covers v) (made : repeated? w v = some u) : g.Covers u := by
  have copied : ∀ {vs : List Value}, (∀ x ∈ vs, g.Covers x) → ∀ n : Nat,
      ∀ x ∈ (List.replicate n vs).flatten, g.Covers x := by
    intro vs all n x member
    obtain ⟨ys, copy, inside⟩ := List.mem_flatten.mp member
    exact all x (List.eq_of_mem_replicate copy ▸ inside)
  unfold repeated? at made
  obtain ⟨n, -, made⟩ := Option.bind_eq_some_iff.mp made
  cases v with
  | str s =>
    obtain rfl := Option.some.inj made
    exact covers_ofChars _
  | list items =>
    obtain rfl := Option.some.inj made
    exact covers_list.mpr (copied (covers_list.mp h) _)
  | tuple items =>
    obtain rfl := Option.some.inj made
    exact covers_tuple.mpr (copied (covers_tuple.mp h) _)
  | _ => cases made

theorem inspects_multiplyBy (hv : g.Covers v) (hw : g.Covers w) : Inspects g (multiplyBy v w) g.Covers := by
  refine (inspects_view hv).bind fun a ha => (inspects_view hw).bind fun b hb => inspects_applicable ?_
  intro u found
  simp only [Option.orElse_eq_orElse, Option.orElse_eq_or, Option.or_eq_some_iff] at found
  rcases found with product | ⟨-, copies | ⟨-, copies⟩⟩
  · exact covers_arithmetic product
  · exact covers_repeated ha copies
  · exact covers_repeated hb copies

theorem inspects_memberOf (h : g.Covers w) (v : Value) : Inspects g (memberOf v w) fun _ => True := by
  refine (inspects_view h).bind fun w _ => ?_
  split
  · refine (inspects_look fun σ => σ.view v).bind fun u _ => ?_
    split <;> first | exact inspects_pure trivial | exact inspects_raise _
  · exact inspects_anyEqual v _
  · exact inspects_anyEqual v _
  · exact (inspects_checkKey v).bind fun _ _ => inspects_anyEqual v _
  · exact (inspects_checkKey v).bind fun _ _ => inspects_anyEqual v _
  · exact inspects_raise _

theorem inspects_sameAs (v w : Value) : Inspects g (sameAs v w) fun _ => True := by
  unfold sameAs
  split <;> first | exact inspects_pure trivial | exact inspects_equalTo _ _

theorem inspects_totalOf {items : List Value} (h : ∀ w ∈ items, g.Covers w) :
    Inspects g (totalOf items) g.Covers := by
  have added : ∀ v, g.Covers v → Inspects g (items.foldlM addTo v) g.Covers := by
    induction items with
    | nil => exact fun v hv => inspects_pure hv
    | cons item rest ih =>
      obtain ⟨first, later⟩ := List.forall_mem_cons.mp h
      exact fun v hv => (inspects_addTo hv first).bind (ih later)
  exact added _ (covers_int 0)

theorem inspects_toWhole (v : Value) : Inspects g (toWhole v) fun _ => True := by
  refine (inspects_look fun σ => σ.view v).bind fun w _ => ?_
  split
  · split <;> first | exact inspects_pure trivial | exact inspects_raise _
  · exact inspects_pure trivial
  · exact inspects_raise _
  · split <;> first | exact inspects_pure trivial | exact inspects_raise _

theorem inspects_lineAtOf (text : String) (v : Value) : Inspects g (lineAtOf text v) g.Covers := by
  have none : Inspects g (pure (.str "")) g.Covers := inspects_pure (covers_str _)
  refine (inspects_atMost _ _).bind fun started _ => inspects_ite ?_ none
  refine (inspects_atMost _ _).bind fun ended _ => inspects_ite ?_ none
  exact (inspects_offsetOf v).bind fun n _ => inspects_pure (covers_str _)

theorem inspects_newSource {text : Value} (ht : g.Covers text) (hn : g.Covers v) :
    Inspects g (newSource text v) g.Covers := by
  refine (inspects_view ht).bind fun w _ => ?_
  split
  · exact inspects_pure (covers_source.mpr hn)
  · exact inspects_raise _

theorem inspects_visibleOf (v : Value) : Inspects g (Trace.visibleOf v) g.Covers :=
  (inspects_charOf v).bind fun c _ => inspects_pure (covers_ofChar (Trace.visible c))

theorem inspects_renderFailure (color : Value) {context text outcome name : Value} (hc : g.Covers context)
    (ht : g.Covers text) (ho : g.Covers outcome) (hn : g.Covers name) :
    Inspects g (renderFailure color context text outcome name) fun _ => True := by
  refine (inspects_newSource ht hn).bind fun source _ => ?_
  split
  · refine (inspects_pure (P := fun _ => True) trivial).bind fun lines _ => ?_
    refine (inspects_attributeOf ho _).bind fun index hi => (inspects_placeOf ht hi).bind fun place _ => ?_
    refine (inspects_attributeOf ho _).bind fun v hv => (inspects_expectedText hv).bind fun expected _ => ?_
    refine (inspects_textOf _).bind fun name _ => (inspects_gotText ht hi hc).bind fun got _ => ?_
    exact (inspects_truthy _).bind fun colored _ => inspects_pure trivial
  · exact inspects_raise _

theorem inspects_withPart (name : String) (hw : g.Covers w) (h : g.Covers v) :
    Inspects g (withPart name w v) g.Covers := by
  unfold withPart
  split <;> try simp only [covers_mismatch, covers_renderer, covers_source, covers_handler] at h
  · split
    · exact inspects_pure (covers_mismatch.mpr ⟨hw, h.2⟩)
    · exact inspects_pure (covers_mismatch.mpr ⟨h.1, hw, h.2.2⟩)
    · exact inspects_pure (covers_mismatch.mpr ⟨h.1, h.2.1, hw⟩)
    · exact inspects_raise _
  · split
    · exact inspects_pure (covers_renderer.mpr ⟨hw, h.2⟩)
    · exact inspects_pure (covers_renderer.mpr ⟨h.1, hw⟩)
    · exact inspects_pure (covers_renderer.mpr h)
  · split
    · exact inspects_pure (covers_source.mpr hw)
    · exact inspects_pure (covers_source.mpr h)
  · refine inspects_pure (covers_handler.mpr (List.forall_mem_cons.mpr ⟨hw, fun e member => ?_⟩))
    exact h e (List.mem_of_mem_filter member)
  · exact inspects_raise _
  · exact inspects_raise _
  · exact inspects_raise _
  · exact inspects_pure h
  · exact inspects_pure h
  · exact inspects_pure h
  · exact inspects_pure h
  · exact inspects_raise _

/-! ### Arguments of the library -/

theorem inspects_isCallable (v : Value) : Inspects g (Grammar.isCallable v) fun _ => True := by
  unfold Grammar.isCallable
  split
  · exact inspects_pure trivial
  · exact inspects_pure trivial
  · exact (inspects_isParser _).mono fun _ _ => trivial

theorem inspects_checkCallable (function : String) (v : Value) :
    Inspects g (Grammar.checkCallable function v) fun _ => True :=
  (inspects_isCallable v).bind fun _ _ => (inspects_require _ _ _ _).mono fun _ _ => trivial

theorem inspects_literalText (function : String) (v : Value) :
    Inspects g (Grammar.literalText function v) fun _ => True := by
  unfold Grammar.literalText
  split
  · exact inspects_pure trivial
  · exact (inspects_require _ _ _ _).bind fun _ _ => inspects_raise _

theorem inspects_displayName {p : ParserId} (h : p < g.parser) :
    Inspects g (Grammar.displayName p) fun _ => True :=
  (inspects_attributeOf (covers_parserId.mpr h) _).bind fun _ _ => inspects_textOf _

theorem inspects_patternOf (v : Value) : Inspects g (Grammar.patternOf v) fun _ => True := by
  unfold Grammar.patternOf
  split
  · exact inspects_pure trivial
  · split <;> first | exact inspects_pure trivial | exact inspects_raise _
  · exact inspects_raise _

theorem inspects_groupOf (r : Regex) (group : Value) : Inspects g (Grammar.groupOf r group) fun _ => True := by
  unfold Grammar.groupOf
  split
  · split
    · exact inspects_pure trivial
    · exact (inspects_require _ _ _ _).bind fun _ _ => inspects_raise _
  · exact (inspects_require _ _ _ _).bind fun _ _ => inspects_pure trivial

theorem inspects_countOf (v : Value) : Inspects g (Grammar.countOf v) fun _ => True := by
  unfold Grammar.countOf
  split
  · exact inspects_pure trivial
  · exact (inspects_require _ _ _ _).bind fun _ _ => inspects_raise _

theorem inspects_parsersOf (function : String) (vs : List Value) :
    Inspects g (vs.mapM (Grammar.parserOf function)) fun ps => ∀ p ∈ ps, p < g.parser :=
  inspects_mapM fun v _ => inspects_parserOf function v

/-! ### Making parsers and handlers -/

theorem closes_addParser (hb : g.Covers v) (hn : g.Covers w) : Closes g (addParser v w) Gap.Covers := by
  rintro σ closed rfl
  let τ : Store := { σ with parsers := σ.parsers.push ⟨v, w⟩ }
  have size : τ.parsers.size = σ.parsers.size + 1 := Array.size_push _
  have later : σ.gap ≤ τ.gap := ⟨Nat.le.intro size.symm, Nat.le_refl _, Nat.le_refl _⟩
  refine ⟨⟨?_, rfl, later⟩, covers_parserId.mpr (Nat.lt_of_lt_of_eq (Nat.lt_succ_self _) size.symm)⟩
  refine closed.change later (fun _ => .inl) (fun p s there => ?_) (fun _ _ => .inl) (fun _ => .inl) fun _ => .inl
  have pushed : (σ.parsers.push ⟨v, w⟩)[p]? = some s := there
  rw [Array.getElem?_push] at pushed
  split at pushed
  · obtain rfl := Option.some.inj pushed
    exact .inr ⟨hb.mono later, hn.mono later⟩
  · exact .inl pushed

theorem closes_addEcho {s : EchoState} (hs : s.CoveredBy g) : Closes g (addEcho s) Gap.Covers := by
  rintro σ closed rfl
  let τ : Store := { σ with echoes := σ.echoes.push s }
  have size : τ.echoes.size = σ.echoes.size + 1 := Array.size_push _
  have later : σ.gap ≤ τ.gap := ⟨Nat.le_refl _, Nat.le.intro size.symm, Nat.le_refl _⟩
  refine ⟨⟨?_, rfl, later⟩, covers_echo.mpr (Nat.lt_of_lt_of_eq (Nat.lt_succ_self _) size.symm)⟩
  refine closed.change later (fun _ => .inl) (fun _ _ => .inl) (fun e s' there => ?_) (fun _ => .inl) fun _ => .inl
  have pushed : (σ.echoes.push s)[e]? = some s' := there
  rw [Array.getElem?_push] at pushed
  split at pushed
  · obtain rfl := Option.some.inj pushed
    exact .inr (hs.mono later)
  · exact .inl pushed

theorem closes_define {b : Behaviour Value} (hb : b.CoveredBy g) (name : String) :
    Closes g (Grammar.define b name) Gap.Covers :=
  (closes_share (covers_behaviour.mpr hb)).bind fun _ _ _ hv => closes_addParser hv (covers_str name)

theorem closes_ofBehaviour (hb : g.Covers v) (hn : g.Covers w) :
    Closes g (Grammar.ofBehaviour v w) Gap.Covers :=
  (inspects_truthy w).then fun _ _ => closes_ite (closes_addParser hb hn) (closes_addParser hb (covers_str _))

theorem closes_makeHandler {context pad enter leave color : Value} (hc : g.Covers context) (hp : g.Covers pad)
    (he : g.Covers enter) (hl : g.Covers leave) (hs : g.Covers color) :
    Closes g (Grammar.makeHandler context pad enter leave color) Gap.Covers :=
  closes_addEcho ⟨hc, hp, he, hl, hs, covers_int 0⟩

theorem closes_string (v : Value) : Closes g (Grammar.string v) Gap.Covers :=
  (inspects_literalText _ _).then fun s _ => closes_define (by rfl) _

theorem closes_fail (v : Value) : Closes g (Grammar.fail v) Gap.Covers :=
  (inspects_literalText _ _).then fun d _ => closes_define (by rfl) _

theorem closes_succeed (h : g.Covers v) : Closes g (Grammar.succeed v) Gap.Covers :=
  (inspects_literalOf v).then fun _ _ => closes_define (coveredBy_succeed.mpr h) _

theorem closes_regex (pattern group : Value) : Closes g (Grammar.regex pattern group) Gap.Covers := by
  refine (inspects_require _ _ _ _).then fun _ _ => (inspects_require _ _ _ _).then fun _ _ => ?_
  refine (inspects_patternOf pattern).then fun r _ => (inspects_groupOf r group).then fun index _ => ?_
  exact (inspects_literalOf group).then fun _ _ => closes_define (by rfl) _

theorem closes_testCharOf (description : Value) (h : g.Covers v) :
    Closes g (Grammar.testChar v description) Gap.Covers := by
  have made : ∀ d, Closes g (Grammar.define (.testChar v ("a character matching " ++ d)) ("test_char(" ++ d ++ ")"))
      Gap.Covers := fun d => closes_define (coveredBy_testChar.mpr h) _
  refine (inspects_checkCallable _ _).then fun _ _ => ?_
  split
  · exact (inspects_pure (P := fun _ => True) trivial).then fun d _ => made d
  · exact (inspects_literalOf _).then fun d _ => made d
  · exact (inspects_textOf _).then fun d _ => made d

theorem closes_custom (h : g.Covers v) : Closes g (Grammar.custom v) Gap.Covers :=
  (inspects_checkCallable _ _).then fun _ _ => closes_addParser h (covers_str _)

theorem closes_sequence (vs : List Value) : Closes g (Grammar.sequence vs) Gap.Covers :=
  (inspects_parsersOf _ vs).then fun _ there => closes_define (coveredBy_sequence.mpr there) _

theorem closes_alternative (vs : List Value) : Closes g (Grammar.alternative vs) Gap.Covers := by
  have made : Closes g (do
      let ids ← vs.mapM (Grammar.parserOf "alternative")
      Grammar.define (.alternative ids) ("alternative(*" ++ toString ids.length ++ ")")) Gap.Covers :=
    (inspects_parsersOf _ vs).then fun _ there => closes_define (coveredBy_alternative.mpr there) _
  exact closes_ite ((closes_raise (R := fun _ _ => False) _).bind fun _ _ _ impossible => impossible.elim) made

theorem closes_repetitionOf (parser least most : Value) :
    Closes g (Grammar.repetition parser least most) Gap.Covers := by
  refine (inspects_parserOf _ _).then fun p there => (inspects_countOf _).then fun lo _ => ?_
  refine (inspects_countOf _).then fun hi _ => (inspects_textOf _).then fun _ _ => ?_
  exact (inspects_textOf _).then fun _ _ => closes_define (coveredBy_repetition.mpr there) _

theorem closes_transformOf (parser : Value) (h : g.Covers v) :
    Closes g (Grammar.transform parser v) Gap.Covers := by
  refine (inspects_parserOf _ _).then fun p there => (inspects_checkCallable _ _).then fun _ _ => ?_
  exact closes_define (coveredBy_transform.mpr ⟨there, h⟩) _

theorem closes_excludeOf (allowed forbidden : Value) :
    Closes g (Grammar.exclude allowed forbidden) Gap.Covers := by
  refine (inspects_parserOf _ _).then fun a ha => (inspects_parserOf _ _).then fun f hf => ?_
  refine (inspects_displayName ha).then fun _ _ => (inspects_displayName hf).then fun _ _ => ?_
  exact closes_define (coveredBy_exclude.mpr ⟨ha, hf⟩) _

theorem closes_describeOf (parser description : Value) :
    Closes g (Grammar.describe parser description) Gap.Covers := by
  refine (inspects_parserOf _ _).then fun p there => (inspects_literalText _ _).then fun d _ => ?_
  exact closes_define (coveredBy_describe.mpr there) _

theorem closes_framed (function : String) (frame : ParserId) (parser : Value) :
    Closes g (Grammar.framed function frame parser) Gap.Covers := by
  refine (inspects_parserOf _ _).then fun p there => (closes_sequence _).bind fun k inner le _ => ?_
  refine (inspects_parserOf _ _).then fun q within => (inspects_displayName (there_mono there le)).then
    fun _ _ => ?_
  exact closes_define (coveredBy_mark.mpr within) _

theorem closes_chainOf (parser : Value) (h : g.Covers v) : Closes g (Grammar.chain parser v) Gap.Covers := by
  refine (inspects_parserOf _ _).then fun p there => (inspects_checkCallable _ _).then fun _ _ => ?_
  refine (inspects_displayName there).then fun _ _ => ?_
  exact closes_define (coveredBy_chain.mpr ⟨there, h⟩) _

theorem closes_subEnvironmentOf (parser : Value) (h : g.Covers v) :
    Closes g (Grammar.subEnvironment parser v) Gap.Covers := by
  refine (inspects_parserOf _ _).then fun p there => (inspects_checkCallable _ _).then fun _ _ => ?_
  refine (inspects_displayName there).then fun _ _ => ?_
  exact closes_define (coveredBy_subEnvironment.mpr ⟨there, h⟩) _

theorem closes_deferredLookupOf (h : g.Covers v) : Closes g (Grammar.deferredLookup v) Gap.Covers := by
  have made : ∀ name, Closes g (Grammar.define (.deferredLookup v name) ("deferred_lookup(" ++ name ++ ")"))
      Gap.Covers := fun name => closes_define (coveredBy_deferredLookup.mpr h) _
  refine (inspects_checkCallable _ _).then fun _ _ => ?_
  split
  · exact (inspects_pure (P := fun _ => True) trivial).then fun name _ => made name
  · exact (inspects_literalOf _).then fun name _ => made name

theorem closes_clone (v : Value) : Closes g (Grammar.clone v) Gap.Covers := by
  refine (inspects_parserOf _ _).then fun p there => ?_
  have known := covers_parserId.mpr there
  refine (inspects_attributeOf known _).then fun b hb => (inspects_attributeOf known _).then fun name hn => ?_
  exact closes_ofBehaviour hb hn

theorem closes_debugOf (parser : Value) (h : g.Covers v) : Closes g (Grammar.debug parser v) Gap.Covers := by
  have made : ∀ {k : Gap} (p : ParserId) (handler : Value), p < k.parser → k.Covers handler → Closes k (do
      Grammar.define (.debug p handler) ("debug(" ++ (← Grammar.displayName p) ++ ")")) Gap.Covers :=
    fun p handler there hh => (inspects_displayName there).then fun _ _ =>
      closes_define (coveredBy_debug.mpr ⟨there, hh⟩) _
  refine (inspects_parserOf _ _).then fun p there => ?_
  split
  · refine (closes_makeHandler ?_ ?_ ?_ ?_ ?_).bind fun k handler le hh => made p handler (there_mono there le) hh
    all_goals simp
  · exact (inspects_pure h).then fun handler hh => made p handler there hh

/-! ### Changing what there is -/

theorem closes_note (part message : String) : Closes g (note part message) fun _ _ => True :=
  closes_modify_aside fun _ => ⟨_, _, _, _, rfl⟩

theorem closes_edit {id : Nat} (there : id < g.object) (h : g.Covers v) :
    Closes g (edit id v) fun _ _ => True := by
  refine closes_modify fun σ closed same => ?_
  subst same
  refine ⟨closed.change le_rfl (fun e member => ?_) (fun _ _ => .inl) (fun _ _ => .inl) (fun _ => .inl)
    fun _ => .inl,
    rfl, rfl⟩
  rcases List.mem_cons.mp member with rfl | old
  · exact .inr ⟨there, h⟩
  · exact .inl (List.mem_of_mem_filter old)

theorem closes_setParserPart (p : ParserId) (name : String) (hw : g.Covers w) :
    Closes g (setParserPart p name w) fun _ _ => True := by
  refine closes_modify fun σ closed same => ?_
  subst same
  have changed : ∀ {s : ParserState}, σ.gap.Covers s.behaviour → σ.gap.Covers s.displayName →
      (σ.setParser p s).Closed ∧ (σ.setParser p s).tracers = σ.tracers ∧ (σ.setParser p s).gap = σ.gap :=
    fun hb hn => ⟨(closed.setParser hb hn p).1, rfl, (closed.setParser hb hn p).2⟩
  split
  · next s there => exact changed hw (closed.parsers p s there).2
  · next s there => exact changed (closed.parsers p s there).1 hw
  · exact ⟨closed, rfl, rfl⟩

theorem closes_setEchoPart (e : HandlerId) (name : String) (hw : g.Covers w) :
    Closes g (setEchoPart e name w) fun _ _ => True := by
  refine closes_modify fun σ closed same => ?_
  subst same
  have changed : ∀ {s : EchoState}, s.CoveredBy σ.gap → (σ.setEcho e s).Closed ∧
      (σ.setEcho e s).tracers = σ.tracers ∧ (σ.setEcho e s).gap = σ.gap := fun hs =>
    ⟨(closed.setEcho hs e).1, rfl, (closed.setEcho hs e).2⟩
  split
  · next s there => exact changed { closed.echoes e s there with depth := hw }
  · next s there => exact changed { closed.echoes e s there with context := hw }
  · next s there => exact changed { closed.echoes e s there with padIfShort := hw }
  · next s there => exact changed { closed.echoes e s there with onEnter := hw }
  · next s there => exact changed { closed.echoes e s there with onExit := hw }
  · next s there => exact changed { closed.echoes e s there with color := hw }
  · exact ⟨closed, rfl, rfl⟩

theorem closes_setAttributeOf (name : String) (hv : g.Covers v) (hw : g.Covers w) :
    Closes g (setAttributeOf v name w) fun _ _ => True := by
  unfold setAttributeOf
  split
  · exact closes_setParserPart _ name hw
  · exact closes_setEchoPart _ name hw
  · refine (inspects_view hv).then fun u hu => (inspects_withPart name hw hu).then fun content hc => ?_
    exact closes_edit (covers_object.mp hv).1 hc
  · exact (inspects_withPart name hw hv).then fun _ _ => closes_pure trivial

theorem closes_replace (target source : Value) : Closes g (Grammar.replace target source) fun _ _ => True := by
  refine (inspects_parserOf _ _).then fun t _ => (inspects_parserOf _ _).then fun s _ => ?_
  refine closes_modify fun σ closed same => ?_
  subst same
  split
  · next state there =>
    obtain ⟨hb, hn⟩ := closed.parsers s state there
    obtain ⟨closed', same⟩ := closed.setParser hb hn t
    exact ⟨closed', rfl, same⟩
  · exact ⟨closed, rfl, rfl⟩

/-! ### Plain data -/

mutual

/-- Data read from JSON has no identities. -/
theorem ofJson_below (n : Nat) : ∀ j : Json, (Value.ofJson j).Below n
  | .null | .bool _ | .int _ | .float _ | .str _ => trivial
  | .array items => ofJsonAll_below n items
  | .object fields => ofJsonFields_below n fields

theorem ofJsonAll_below (n : Nat) : ∀ items : List Json, Value.AllBelow (Value.ofJsonAll items) n
  | [] => trivial
  | j :: rest => ⟨ofJson_below n j, ofJsonAll_below n rest⟩

theorem ofJsonFields_below (n : Nat) :
    ∀ fields : List (String × Json), Value.EntriesBelow (Value.ofJsonFields fields) n
  | [] => trivial
  | (_, j) :: rest => ⟨trivial, ofJson_below n j, ofJsonFields_below n rest⟩

end

theorem covers_ofJson (j : Json) : g.Covers (.ofJson j) := (ofJson_below 0 j).renumbered (Nat.zero_le _)

mutual

theorem covers_ofToml : ∀ t : Toml, g.Covers (.ofToml t)
  | .str _ | .int _ | .float _ | .bool _ | .moment _ => rfl
  | .array items => covers_list.mpr (covers_ofTomlAll items)
  | .table fields => covers_dict.mpr (covers_ofTomlFields fields)

theorem covers_ofTomlAll : ∀ items : List Toml, ∀ v ∈ Value.ofTomlAll items, g.Covers v
  | [] => fun _ member => absurd member List.not_mem_nil
  | t :: rest => List.forall_mem_cons.mpr ⟨covers_ofToml t, covers_ofTomlAll rest⟩

theorem covers_ofTomlFields : ∀ fields : List (String × Toml), ∀ e ∈ Value.ofTomlFields fields,
    g.Covers e.1 ∧ g.Covers e.2
  | [] => fun _ member => absurd member List.not_mem_nil
  | (_, t) :: rest => List.forall_mem_cons.mpr ⟨⟨covers_str _, covers_ofToml t⟩, covers_ofTomlFields rest⟩

end

/-! ### Operations of scripts on data -/

theorem closes_putItem (hv : g.Covers v) (hk : g.Covers u) (hw : g.Covers w) :
    Closes g (Script.putItem v u w) Gap.Covers := by
  have placed : ∀ size n, Inspects g (Script.indexIn size n) fun _ => True := fun size n =>
    inspects_ite (inspects_pure trivial) (inspects_raise _)
  refine (inspects_view hv).then fun content known => ?_
  split
  · refine (inspects_offsetOf u).then fun n _ => (placed _ n).then fun i _ => ?_
    have set : ∀ x ∈ List.set _ i w, g.Covers x := fun x member =>
      (List.mem_or_eq_of_mem_set member).elim (covers_list.mp known x) fun same => same ▸ hw
    exact (closes_edit (covers_object.mp hv).1 (covers_list.mpr set)).bind fun k _ le _ => closes_pure (hw.mono le)
  · refine (inspects_checkKey u).then fun _ _ => (inspects_withEntry hk hw (covers_dict.mp known)).then
      fun es all => ?_
    exact (closes_edit (covers_object.mp hv).1 (covers_dict.mpr all)).bind fun k _ le _ => closes_pure (hw.mono le)
  · exact closes_raise _

theorem inspects_dictOf : ∀ {vs : List Value} {es : List (Value × Value)}, (∀ v ∈ vs, g.Covers v) →
    (∀ e ∈ es, g.Covers e.1 ∧ g.Covers e.2) → Inspects g (Script.dictOf vs es) g.Covers
  | [], _, _, he | [_], _, _, he => inspects_pure (covers_dict.mpr he)
  | k :: v :: rest, es, hv, he => by
    simp only [List.forall_mem_cons] at hv
    obtain ⟨hk, hw, later⟩ := hv
    refine (inspects_checkKey k).bind fun _ _ => (inspects_withEntry hk hw he).bind fun es all => ?_
    exact inspects_dictOf later all

theorem inspects_setOf {vs items : List Value} (hv : ∀ v ∈ vs, g.Covers v) (hi : ∀ v ∈ items, g.Covers v) :
    Inspects g (Script.setOf vs items) g.Covers := by
  induction vs generalizing items with
  | nil => exact inspects_pure (covers_set.mpr hi)
  | cons v rest ih =>
    obtain ⟨first, later⟩ := List.forall_mem_cons.mp hv
    refine (inspects_checkKey v).bind fun _ _ => (inspects_anyEqual v items).bind fun _ _ => ?_
    refine inspects_ite (ih later hi) (ih later fun u member => ?_)
    exact (List.mem_append.mp member).elim (hi u) fun last => List.mem_singleton.mp last ▸ first

theorem inspects_itemOr (hv : g.Covers v) (k : Value) (hw : g.Covers w) :
    Inspects g (Script.itemOr v k w) g.Covers := by
  refine (inspects_view hv).bind fun content known => ?_
  split
  · refine (inspects_checkKey k).bind fun _ _ => ?_
    refine (inspects_entryOf k fun e member => (covers_dict.mp known e member).2).bind fun found all => ?_
    cases found with
    | none => exact inspects_pure hw
    | some u => exact inspects_pure (all u rfl)
  · exact inspects_raise _

theorem inspects_upperOf (v : Value) : Inspects g (Script.upperOf v) g.Covers := by
  refine (inspects_look fun σ => σ.view v).bind fun w _ => ?_
  split
  · exact inspects_pure (covers_str _)
  · exact inspects_raise _

theorem inspects_joinOf (between : Value) (h : g.Covers v) : Inspects g (Script.joinOf between v) g.Covers := by
  refine (inspects_look fun σ => σ.view between).bind fun w _ => ?_
  split
  · exact (inspects_joinWith _ h).bind fun _ _ => inspects_pure (covers_str _)
  · exact inspects_raise _

theorem inspects_startsWithOf (v front : Value) : Inspects g (Script.startsWithOf v front) g.Covers := by
  refine (inspects_look fun σ => σ.view v).bind fun w _ => ?_
  split
  · refine (inspects_look fun σ => σ.view front).bind fun u _ => ?_
    split
    · exact inspects_pure (covers_bool _)
    · refine (inspects_mapM (Q := fun _ => True) fun option _ => ?_).bind fun _ _ => inspects_pure (covers_bool _)
      split <;> first | exact inspects_pure trivial | exact inspects_raise _
    · exact inspects_raise _
  · exact inspects_raise _

theorem inspects_complaintOf (v : Value) : Inspects g (Script.complaintOf v) fun _ => True := by
  refine (inspects_textOf v).bind fun s _ => ?_
  split <;> first | exact inspects_pure trivial | exact inspects_raise _

theorem covers_lastOf {vs : List Value} (h : ∀ v ∈ vs, g.Covers v) : g.Covers (Script.lastOf vs) := by
  unfold Script.lastOf
  cases last : vs.getLast? with
  | none => exact covers_none
  | some v => exact h v (List.mem_of_getLast? last)

theorem closes_logValue (h : g.Covers v) : Closes g (Script.logValue v) Gap.Covers := by
  refine (inspects_look fun σ => σ.snapshot v).then fun d _ => ?_
  exact (closes_modify_aside fun _ => ⟨_, _, _, _, rfl⟩).bind fun _ _ le _ => closes_pure (h.mono le)

theorem closes_dataOp (op : Script.Op) {arguments : List Value} (ha : ∀ v ∈ arguments, g.Covers v) :
    Closes g (Script.dataOp op arguments) Gap.Covers := by
  have judged : ∀ {x : Eval Bool}, (Inspects g x fun _ => True) → Closes g (do return .bool (← x)) Gap.Covers :=
    fun h => h.then fun _ _ => closes_pure (covers_bool _)
  have counted : ∀ {x : Eval Int}, (Inspects g x fun _ => True) → Closes g (do return .int (← x)) Gap.Covers :=
    fun h => h.then fun _ _ => closes_pure (covers_int _)
  have written : ∀ {x : Eval String}, (Inspects g x fun _ => True) → Closes g (do return .str (← x)) Gap.Covers :=
    fun h => h.then fun _ _ => closes_pure (covers_str _)
  unfold Script.dataOp
  split <;> try simp only [List.forall_mem_cons] at ha
  · exact closes_pure (covers_list.mpr ha)
  · exact closes_pure (covers_tuple.mpr ha)
  · exact (inspects_dictOf ha (by simp)).closes
  · exact (inspects_itemOf ha.1 _).closes
  · exact (inspects_itemOr ha.1 _ ha.2.2.1).closes
  · exact closes_putItem ha.1 ha.2.1 ha.2.2.1
  · exact (inspects_addTo ha.1 ha.2.1).closes
  · exact (inspects_subtractFrom _ _).closes
  · exact (inspects_multiplyBy ha.1 ha.2.1).closes
  · exact judged (inspects_equalTo _ _)
  · exact judged (inspects_lessThan _ _)
  · exact judged (inspects_memberOf ha.2.1 _)
  · exact (inspects_truthy _).then fun _ _ => closes_pure (covers_bool _)
  · exact judged (inspects_sameAs _ _)
  · exact (inspects_upperOf _).closes
  · exact counted (inspects_toWhole _)
  · exact counted (inspects_lengthOf _)
  · exact written (inspects_textOf _)
  · exact written (inspects_literalOf _)
  · exact (inspects_joinOf _ ha.2.1).closes
  · exact (inspects_sliceOf ha.1 _ _).closes
  · exact (inspects_startsWithOf _ _).closes
  · exact (inspects_itemsOf ha.1).then fun items all => (inspects_totalOf all).closes
  · exact closes_pure (covers_lastOf ha)
  · exact closes_logValue ha.1
  · exact (inspects_complaintOf _).then fun _ _ => (inspects_textOf _).then fun _ _ => closes_raise _
  · exact (inspects_attributeOf ha.1 _).closes
  · refine (closes_setAttributeOf _ ha.1 ha.2.2.1).bind fun k _ le _ => closes_pure (ha.2.2.1.mono le)
  · exact closes_raise _

end Operations

end Rebind
