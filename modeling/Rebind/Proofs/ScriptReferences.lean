import Rebind.Proofs.DataReferences
import Rebind.Proofs.Scripts
/-!
# Scripts refer to what is there

Expressions, names, grammar files and configuration give scripts nothing but values of the store, and what scripts
do with them leads from a closed store to a closed store.  So do the functions that scripts define, and with them
every machine on which scripts run.
-/
namespace Rebind

section Scripts

variable {g k : Gap} {v w u : Value} {m : Machine}

/-! ### Configuration -/

theorem inspects_tableSettings (table : Option Toml) {fields : List (String × Value)}
    (usual : ∀ f ∈ fields, g.Covers f.2) :
    Inspects g (Config.tableSettings table fields) fun vs => ∀ v ∈ vs, g.Covers v := by
  unfold Config.tableSettings
  split
  · exact inspects_pure (List.forall_mem_map.mpr usual)
  · refine inspects_pure (List.forall_mem_map.mpr fun f listed => ?_)
    cases List.lookup f.1 _ with
    | none => exact usual f listed
    | some t => exact covers_ofToml t
  · exact inspects_raise _

theorem inspects_ofDocument (document : List (String × Toml)) :
    Inspects g (Config.ofDocument document) g.Covers := by
  refine (inspects_tableSettings _ (by simp)).bind fun trace first => ?_
  refine (inspects_tableSettings _ (by simp)).bind fun errors second => ?_
  split
  · simp only [List.forall_mem_cons] at first second
    exact inspects_pure (covers_settings.mpr ⟨first.1, first.2.1, first.2.2.1, second.1, second.2.1⟩)
  · exact inspects_raise _

theorem closes_find (start : Value) : Closes g (Config.find start) Gap.Covers := by
  have started : Inspects g (Config.startOf start) fun _ => True := by
    refine inspects_get.bind fun σ _ => (inspects_truthy _).bind fun _ _ => inspects_ite ?_ (inspects_pure trivial)
    refine (inspects_look fun σ => σ.view start).bind fun w _ => ?_
    split
    · exact inspects_ite (inspects_pure trivial) (inspects_raise _)
    · exact inspects_raise _
  refine started.then fun place _ => inspects_get.then fun σ _ => ?_
  dsimp only
  split
  · exact (closes_note _ _).bind fun _ _ _ _ => closes_pure (covers_path _)
  · exact closes_raise _

theorem closes_load (p : Value) : Closes g (Config.load p) Gap.Covers := by
  have named : Inspects g (Config.pathText p) fun _ => True := by
    refine (inspects_look fun σ => σ.view p).bind fun w _ => ?_
    split <;> first | exact inspects_pure trivial | exact inspects_raise _
  have read : ∀ name, Inspects g (Config.readText name) fun _ => True := fun name => by
    refine inspects_ite (inspects_get.bind fun σ _ => ?_) (inspects_raise _)
    split <;> first | exact inspects_pure trivial | exact inspects_raise _
  refine named.then fun name _ => (read name).then fun text _ => ?_
  split
  · exact (closes_note _ _).bind fun _ _ _ _ => (inspects_ofDocument _).closes
  · exact closes_raise _

theorem covers_defaults : g.Covers Config.defaults := by simp [Config.defaults]

theorem closes_inForce (start : Value) : Closes g (Config.inForce start) Gap.Covers := by
  rw [inForce_catching]
  refine closes_catching ((closes_find start).bind fun _ p _ _ => closes_load p) fun k error _ he => ?_
  refine closes_ite ?_ (closes_throw he)
  exact (closes_note _ _).bind fun _ _ _ _ => closes_pure covers_defaults

/-! ### Names -/

/-- A context whose parameters refer to what is there. -/
def Script.Context.CoveredBy (c : Script.Context) (g : Gap) : Prop := ∀ e ∈ c.locals, g.Covers e.2

theorem inspects_namesOf (scope : Nat) :
    Inspects g (Script.namesOf scope) fun names => ∀ n ∈ names, g.Covers n.2 := by
  refine inspects_get.bind fun σ ⟨closed, same⟩ => inspects_pure ?_
  subst same
  cases there : σ.scopes[scope]? with
  | none => exact fun _ member => absurd member List.not_mem_nil
  | some names => exact closed.scopes names (Array.mem_of_getElem? there)

theorem inspects_lookUp {c : Script.Context} (hc : c.CoveredBy g) (name : String) :
    Inspects g (Script.lookUp c name) g.Covers := by
  unfold Script.lookUp
  split
  · next v found => exact inspects_pure (covers_lookup hc found)
  · refine (inspects_namesOf _).bind fun names all => ?_
    split
    · next v found => exact inspects_pure (covers_lookup all found)
    · exact inspects_raise _

theorem closes_openScope : Closes g Script.openScope fun _ _ => True := by
  rintro σ closed rfl
  refine ⟨⟨?_, rfl, le_rfl⟩, trivial⟩
  refine closed.change le_rfl (fun _ => .inl) (fun _ _ => .inl) (fun _ _ => .inl)
    (fun names member => ?_) fun _ => .inl
  rcases Array.mem_push.mp member with old | rfl
  · exact .inl old
  · refine .inr fun n listed => ?_
    obtain ⟨i, inside, rfl⟩ := List.mem_mapIdx.mp listed
    exact covers_parserId.mpr (Nat.lt_of_lt_of_le inside closed.primitives)

theorem closes_setName (scope : Nat) (name : String) (h : g.Covers v) :
    Closes g (Script.setName scope name v) fun _ _ => True := by
  refine closes_modify fun σ closed same => ?_
  subst same
  refine ⟨?_, rfl, rfl⟩
  refine closed.change le_rfl (fun _ => .inl) (fun _ _ => .inl) (fun _ _ => .inl)
    (fun names member => ?_) fun _ => .inl
  obtain ⟨i, there⟩ := Array.mem_iff_getElem?.mp member
  rw [Array.getElem?_modify] at there
  split at there
  · obtain ⟨old, known, rfl⟩ := Option.map_eq_some_iff.mp there
    refine .inr (List.forall_mem_cons.mpr ⟨h, fun n kept => ?_⟩)
    exact closed.scopes old (Array.mem_of_getElem? known) n (List.mem_of_mem_filter kept)
  · exact .inl (Array.mem_of_getElem? there)

/-! ### Arguments -/

def Script.Signature.CoveredBy (s : Script.Signature) (g : Gap) : Prop :=
  ∀ p ∈ s.placed ++ s.named, ∀ v, p.default = some v → g.Covers v

theorem coveredBy_required (names : List String) : (Script.Signature.required names).CoveredBy g := by
  simp [Script.Signature.CoveredBy, Script.Signature.required, Script.Parameter.required]

theorem coveredBy_signature {op : Script.Op} {s : Script.Signature} (known : op.signature? = some s) :
    s.CoveredBy g := by
  cases op <;> simp only [Script.Op.signature?, Option.some.injEq, reduceCtorEq] at known <;> subst known <;>
    simp [Script.Signature.CoveredBy, Script.Signature.required, Script.Parameter.required,
      Script.Parameter.optional]

theorem inspects_bound {s : Script.Signature} (hs : s.CoveredBy g) {arguments : List Value}
    {keywords : List (String × Value)} (ha : ∀ v ∈ arguments, g.Covers v) (hk : ∀ e ∈ keywords, g.Covers e.2) :
    Inspects g (s.bind arguments keywords) fun given => ∀ v ∈ given, g.Covers v := by
  have filled : ∀ {ps : List Script.Parameter}, (∀ p ∈ ps, p ∈ s.placed ++ s.named) → ∀ {rest : List Value},
      ps.mapM (·.fill keywords) = some rest → ∀ v ∈ rest, g.Covers v := by
    intro ps inside
    induction ps with
    | nil =>
      rintro _ ⟨⟩ v member
      exact absurd member List.not_mem_nil
    | cons p ps ih =>
      intro rest made
      rw [List.mapM_cons] at made
      obtain ⟨first, fills, made⟩ := Option.bind_eq_some_iff.mp made
      obtain ⟨later, more, made⟩ := Option.bind_eq_some_iff.mp made
      obtain rfl := Option.some.inj made
      refine List.forall_mem_cons.mpr ⟨?_, ih (fun q member => inside q (List.mem_cons_of_mem _ member)) more⟩
      unfold Script.Parameter.fill at fills
      split at fills
      · next v given =>
        obtain rfl := Option.some.inj fills
        exact covers_lookup hk given
      · exact hs p (inside p List.mem_cons_self) first fills
  unfold Script.Signature.bind
  refine inspects_ite ((inspects_raise (P := fun _ => False) _).bind fun _ impossible => impossible.elim) ?_
  split
  · next rest made =>
    refine inspects_pure fun v member => (List.mem_append.mp member).elim (ha v)
      (filled (fun p listed => ?_) made v)
    exact List.mem_append.mpr ((List.mem_append.mp listed).imp_left List.mem_of_mem_drop)
  · exact inspects_raise _

theorem coveredBy_parse : Script.parseSignature.CoveredBy g := by
  simp [Script.Signature.CoveredBy, Script.parseSignature, Script.Parameter.required, Script.Parameter.optional]

theorem coveredBy_run : Script.runSignature.CoveredBy g := by
  simp [Script.Signature.CoveredBy, Script.runSignature, Script.Parameter.required, Script.Parameter.optional]

theorem coveredBy_call : Script.callSignature.CoveredBy g := by
  simp [Script.Signature.CoveredBy, Script.callSignature, Script.Parameter.required, Script.Parameter.optional]

theorem coveredBy_render : Script.renderSignature.CoveredBy g := by
  simp [Script.Signature.CoveredBy, Script.renderSignature, Script.Parameter.required, Script.Parameter.optional]

/-! ### Operations that run parsers -/

section Calling

variable (hm : m.Contained) {arguments : List Value} {keywords : List (String × Value)}

include hm

theorem closes_callWith (hv : g.Covers v) (ha : ∀ v ∈ arguments, g.Covers v)
    (hk : ∀ e ∈ keywords, g.Covers e.2) :
    Closes g (Script.callWith m v arguments keywords) Gap.Covers := by
  unfold Script.callWith
  split
  · exact (inspects_bound coveredBy_call ha hk).then fun given all => hm.call hv all
  · exact (inspects_bound (coveredBy_required _) ha hk).then fun given all => hm.call hv all
  · exact closes_ite (hm.call hv ha) (closes_raise _)
  · exact closes_raise _

theorem closes_runWith (v : Value) (ha : ∀ v ∈ arguments, g.Covers v) (hk : ∀ e ∈ keywords, g.Covers e.2) :
    Closes g (Script.runWith m v arguments keywords) Gap.Covers := by
  refine (inspects_isParser v).then fun known there => ?_
  split
  · refine (inspects_bound coveredBy_run ha hk).then fun given all => ?_
    split
    · simp only [List.forall_mem_cons] at all
      exact hm.run (there rfl _ rfl) all.1 all.2.1 all.2.2.1
    · exact closes_raise _
  · exact closes_raise _

theorem closes_parseWith (v : Value) (ha : ∀ v ∈ arguments, g.Covers v) (hk : ∀ e ∈ keywords, g.Covers e.2) :
    Closes g (Script.parseWith m v arguments keywords) Gap.Covers := by
  refine (inspects_isParser v).then fun known there => ?_
  split
  · refine (inspects_bound coveredBy_parse ha hk).then fun given all => ?_
    split
    · simp only [List.forall_mem_cons] at all
      exact closes_parseText hm (there rfl _ rfl) all.1 all.2.1 all.2.2.1
    · exact closes_raise _
  · exact closes_raise _

theorem closes_callMethodWith (name : String) (hv : g.Covers v) (ha : ∀ v ∈ arguments, g.Covers v)
    (hk : ∀ e ∈ keywords, g.Covers e.2) :
    Closes g (Script.callMethodWith m v name arguments keywords) Gap.Covers := by
  refine (inspects_view hv).then fun w known => ?_
  split <;> try simp only [covers_renderer] at known
  · refine (inspects_bound (coveredBy_required _) ha hk).then fun given all => ?_
    split
    · exact (inspects_lineAtOf _ _).closes
    · exact closes_raise _
  · refine (inspects_bound (coveredBy_required _) ha hk).then fun given all => ?_
    split
    · exact (inspects_lineColumnOf (covers_str _) (all _ List.mem_cons_self)).closes
    · exact closes_raise _
  · refine (inspects_bound coveredBy_render ha hk).then fun given all => ?_
    split
    · simp only [List.forall_mem_cons] at all
      refine (inspects_renderFailure _ known.2 all.1 all.2.1 all.2.2.1).then fun _ _ => closes_pure (covers_str _)
    · exact closes_raise _
  · refine (inspects_bound (coveredBy_required _) ha hk).then fun given all => ?_
    split
    · have he := all _ List.mem_cons_self
      refine (inspects_attributeOf he _).then fun text ht => (inspects_attributeOf he _).then fun outcome ho => ?_
      refine (inspects_attributeOf he _).then fun title hn => ?_
      exact (inspects_renderFailure _ known.2 ht ho hn).then fun _ _ => closes_pure (covers_str _)
    · exact closes_raise _
  · exact closes_runWith hm _ ha hk
  · exact closes_parseWith hm _ ha hk
  · exact (inspects_bound (coveredBy_required _) ha hk).then fun given all => closes_callMethod hm hv _ all
  · exact closes_ite (closes_callMethod hm hv _ ha) (closes_raise _)
  · exact closes_raise _

/-! ### Grammar files -/

theorem closes_definitions (scope : Nat) (definitions : List (String × Script.Expr)) :
    Closes g (Script.define m scope definitions) fun _ _ => True := by
  induction definitions generalizing g with
  | nil => exact closes_pure trivial
  | cons definition rest ih =>
    have called : Closes g (m.call (.closure [] definition.2 [] (.nameless definition.1) scope) []) Gap.Covers :=
      hm.call (covers_closure.mpr fun _ member => absurd member List.not_mem_nil) fun _ member =>
        absurd member List.not_mem_nil
    refine called.bind fun k v _ hv => (closes_setName _ _ hv).bind fun k' _ _ _ => ih

theorem closes_loadFile (place name : String) : Closes g (Script.loadFile m place name) Gap.Covers := by
  refine inspects_get.then fun σ _ => ?_
  split
  · refine closes_openScope.bind fun k scope _ _ => (closes_definitions hm _ _).bind fun k' _ _ _ => ?_
    have unnested : Script.Context.CoveredBy ⟨scope, []⟩ k' := by simp [Script.Context.CoveredBy]
    exact closes_ite (inspects_lookUp unnested _).closes (closes_pure covers_none)
  · exact closes_raise _

omit hm in
theorem inspects_loadBuiltIn (place name : String) : Inspects g (Script.loadBuiltIn place name) g.Covers := by
  unfold Script.loadBuiltIn
  refine inspects_ite (inspects_raise _) ?_
  split
  · exact inspects_raise _
  · split
    · next i _ found =>
      refine fun σ closed same => inspects_pure (covers_parserId.mpr ?_) σ closed same
      subst same
      exact Nat.lt_of_lt_of_le (List.findIdx?_eq_some_iff_getElem.mp found).1 closed.primitives
    · exact inspects_pure covers_none

theorem closes_loadGrammar (ref : Value) : Closes g (Script.loadGrammar m ref) Gap.Covers := by
  unfold Script.loadGrammar
  split
  · split
    · exact closes_raise _
    · next place name _ =>
      have checked : ∀ {k : Gap} {found : Value}, k.Covers found → Closes k (do
          unless ← isParser found do
            raise (.badParameter (Text.quoted name ++ " in " ++ place ++ " is not a parser") "GRAMMAR")
          note "partser.cli" ("loaded grammar " ++ name ++ " from " ++ place)
          return found) Gap.Covers := fun {k found} h => by
        have noted : Closes k (do
            note "partser.cli" ("loaded grammar " ++ name ++ " from " ++ place)
            return found) Gap.Covers := (closes_note _ _).bind fun _ _ le _ => closes_pure (h.mono le)
        refine (inspects_isParser found).then fun _ _ => closes_ite noted ?_
        exact (closes_raise (R := fun _ _ => False) _).bind fun _ _ _ impossible => impossible.elim
      refine closes_ite ((closes_loadFile hm _ _).bind fun _ _ _ => checked) ?_
      exact (inspects_loadBuiltIn _ _).then fun _ => checked
  · exact closes_raise _

/-! ### Operations -/

theorem closes_libraryOp (op : Script.Op) (ha : ∀ v ∈ arguments, g.Covers v) :
    Closes g (Script.libraryOp m op arguments) Gap.Covers := by
  unfold Script.libraryOp
  split <;> try simp only [List.forall_mem_cons] at ha
  · exact closes_string _
  · exact closes_regex _ _
  · exact closes_fail _
  · exact closes_succeed ha.1
  · exact closes_testCharOf _ ha.1
  · exact closes_custom ha.1
  · exact closes_repetitionOf _ _ _
  · exact closes_transformOf _ ha.2.1
  · exact closes_excludeOf _ _
  · exact closes_describeOf _ _
  · exact closes_framed _ _ _
  · exact closes_framed _ _ _
  · exact closes_chainOf _ ha.2.1
  · exact closes_subEnvironmentOf _ ha.2.1
  · exact closes_deferredLookupOf ha.1
  · exact (closes_replace _ _).bind fun _ _ _ _ => closes_pure covers_none
  · exact closes_clone _
  · exact closes_debugOf _ ha.2.1
  · exact closes_makeHandler ha.1 ha.2.1 ha.2.2.1 ha.2.2.2.1 ha.2.2.2.2.1
  · exact (inspects_isParser _).then fun _ _ => closes_pure (covers_bool _)
  · exact closes_ofBehaviour ha.1 ha.2.1
  · exact closes_pure (covers_result.mpr ⟨ha.1, ha.2.1, ha.2.2.1⟩)
  · exact closes_pure (covers_lineColumn.mpr ⟨ha.1, ha.2.1, ha.2.2.1⟩)
  · exact closes_pure (covers_mark.mpr ⟨ha.1, ha.2.1, ha.2.2.1⟩)
  · exact closes_pure (covers_success.mpr ⟨ha.1, ha.2.1⟩)
  · exact closes_pure (covers_failure.mpr ⟨ha.1, ha.2.1⟩)
  · exact (inspects_mergeOver ha.1 ha.2.1).closes
  · exact (inspects_errorText ha.1 ha.2.1 ha.2.2.1).then fun _ _ => closes_pure (covers_str _)
  · exact (inspects_expectedOf ha.1).closes
  · exact (inspects_gotText ha.1 ha.2.1 ha.2.2.1).then fun _ _ => closes_pure (covers_str _)
  · exact closes_pure (covers_renderer.mpr ⟨ha.1, ha.2.1⟩)
  · exact (inspects_newMismatch ha.1 ha.2.1 ha.2.2.1).closes
  · exact (inspects_lineColumnOf ha.1 ha.2.1).closes
  · exact (inspects_newSource ha.1 ha.2.1).closes
  · refine (inspects_look fun σ => σ.view _).then fun w _ => ?_
    split
    · exact closes_pure (covers_str _)
    · exact closes_raise _
  · exact (inspects_visibleOf _).closes
  · exact closes_find _
  · exact closes_inForce _
  · exact closes_load _
  · exact closes_loadGrammar hm _
  · exact closes_raise _

theorem closes_applyOp (op : Script.Op) (ha : ∀ v ∈ arguments, g.Covers v) (hk : ∀ e ∈ keywords, g.Covers e.2) :
    Closes g (Script.applyOp m op arguments keywords) Gap.Covers := by
  unfold Script.applyOp
  split
  · next s known => exact (inspects_bound (coveredBy_signature known) ha hk).then fun _ => closes_libraryOp hm op
  · split <;> try simp only [List.forall_mem_cons] at ha
    · exact closes_callWith hm ha.1 ha.2 hk
    · exact closes_runWith hm _ ha.2 hk
    · exact closes_parseWith hm _ ha.2 hk
    · exact closes_callMethodWith hm _ ha.1 ha.2.2 hk
    · -- The same operations, without keywords and after some were refused.
      refine (fun placed : Closes g _ Gap.Covers => closes_ite placed
        ((closes_raise (R := fun _ _ => False) _).bind fun _ _ _ impossible => impossible.elim)) ?_
      split <;> try simp only [List.forall_mem_cons] at ha
      · exact closes_sequence _
      · exact closes_alternative _
      · refine (inspects_itemsOf ha.2.1).then fun items all => ?_
        refine (closes_mapM fun k w le member => ?_).bind fun _ _ _ all => closes_pure (covers_list.mpr all)
        have given : ∀ v ∈ [w], k.Covers v := by simpa using (all w member).mono le
        exact closes_callWith hm (ha.1.mono le) given fun _ member => absurd member List.not_mem_nil
      · exact closes_dataOp _ ha

end Calling

/-! ### Expressions -/

theorem Script.Context.CoveredBy.mono {c : Script.Context} (h : c.CoveredBy g) (le : g ≤ k) : c.CoveredBy k :=
  named_mono h le

mutual

theorem closes_eval (hm : m.Contained) {g : Gap} {c : Script.Context} (hc : c.CoveredBy g) :
    ∀ e : Script.Expr, Closes g (Script.eval m c e) Gap.Covers
  | .plain data => by
    rw [Script.eval]
    exact closes_share (covers_ofJson data)
  | .reference name => by
    rw [Script.eval]
    exact (inspects_lookUp hc name).closes
  | .function parameters body title => by
    rw [Script.eval]
    exact closes_share (covers_closure.mpr hc)
  | .pattern source flags => by
    rw [Script.eval]
    split
    · exact closes_share (covers_pattern _)
    · exact closes_raise _
  | .path text => by
    rw [Script.eval]
    exact closes_share (covers_path _)
  | .set items => by
    rw [Script.eval]
    refine (closes_evalAll hm hc items).bind fun k vs _ hv => ?_
    exact (inspects_setOf hv (by simp)).then fun v h => closes_share h
  | .handler methods => by
    rw [Script.eval]
    exact (closes_evalNamed hm hc methods).bind fun k vs _ hv => closes_share (covers_handler.mpr hv)
  | .apply op arguments keywords => by
    rw [Script.eval]
    refine (closes_evalAll hm hc arguments).bind fun k vs le hv => ?_
    refine (closes_evalNamed hm (hc.mono le) keywords).bind fun k' ks le' hk => ?_
    have given : ∀ v ∈ vs, k'.Covers v := fun v member => (hv v member).mono le'
    exact (closes_applyOp hm op given hk).bind fun _ _ _ h => closes_share h
  | .choose condition yes no => by
    rw [Script.eval]
    refine (closes_eval hm hc condition).bind fun k v le _ => (inspects_truthy v).then fun _ _ => ?_
    exact closes_ite (closes_eval hm (hc.mono le) yes) (closes_eval hm (hc.mono le) no)
  | .both first second => by
    rw [Script.eval]
    refine (closes_eval hm hc first).bind fun k v le h => (inspects_truthy v).then fun _ _ => ?_
    exact closes_ite (closes_eval hm (hc.mono le) second) (closes_pure h)
  | .either first second => by
    rw [Script.eval]
    refine (closes_eval hm hc first).bind fun k v le h => (inspects_truthy v).then fun _ _ => ?_
    exact closes_ite (closes_pure h) (closes_eval hm (hc.mono le) second)
  | .attempt body => by
    rw [Script.eval]
    refine (closes_catching (closes_eval hm hc body) fun _ _ _ he => closes_pure he).bind ?_
    exact fun _ _ _ h => closes_share h

theorem closes_evalAll (hm : m.Contained) {g : Gap} {c : Script.Context} (hc : c.CoveredBy g) :
    ∀ es : List Script.Expr, Closes g (Script.evalAll m c es) fun k vs => ∀ v ∈ vs, k.Covers v
  | [] => by
    rw [Script.evalAll]
    exact closes_pure fun _ member => absurd member List.not_mem_nil
  | e :: rest => by
    rw [Script.evalAll]
    refine (closes_eval hm hc e).bind fun k v le h => (closes_evalAll hm (hc.mono le) rest).bind
      fun k' vs le' all => ?_
    exact closes_pure (List.forall_mem_cons.mpr ⟨h.mono le', all⟩)

theorem closes_evalNamed (hm : m.Contained) {g : Gap} {c : Script.Context} (hc : c.CoveredBy g) :
    ∀ es : List (String × Script.Expr), Closes g (Script.evalNamed m c es) fun k vs => ∀ e ∈ vs, k.Covers e.2
  | [] => by
    rw [Script.evalNamed]
    exact closes_pure fun _ member => absurd member List.not_mem_nil
  | (name, e) :: rest => by
    rw [Script.evalNamed]
    refine (closes_eval hm hc e).bind fun k v le h => (closes_evalNamed hm (hc.mono le) rest).bind
      fun k' vs le' all => ?_
    exact closes_pure (List.forall_mem_cons.mpr ⟨h.mono le', all⟩)

end

end Scripts

/-- Functions that scripts define keep stores closed. -/
theorem host_contained : Script.host.Contained where
  apply m hm g f arguments hf ha := by
    show Closes g (Script.applyClosure m f arguments) Gap.Covers
    have known := hf.content
    unfold Script.applyClosure
    split
    · next parameters body captured title scope same =>
      rw [same] at known
      refine closes_ite (closes_eval hm (fun e member => ?_) body) (closes_raise _)
      rcases List.mem_append.mp member with parameter | outer
      · exact ha e.2 (List.of_mem_zip (List.mem_reverse.mp parameter)).2
      · exact covers_closure.mp known e outer
    · exact closes_raise _
  share := closes_share

/-- The store that evaluations start from refers only to what it holds. -/
theorem initial_closed : Store.initial.Closed where
  edits _ member := absurd member List.not_mem_nil
  parsers p s there := by
    match p, there with
    | 0, there | 1, there | 2, there | 3, there | 4, there =>
      cases there
      exact ⟨rfl, rfl⟩
    | n + 5, there => cases there
  echoes _ _ there := nomatch there
  scopes names member := absurd member (Array.not_mem_empty names)
  tracers _ member := absurd member List.not_mem_nil
  primitives := Nat.le_refl _

end Rebind
