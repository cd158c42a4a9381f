import Rebind.Proofs.References
import Rebind.Script.Data
/-!
# What is read refers to what is there

Operations that only read return values whose references were there before, so an evaluation that looks
something up in a closed store has nothing in hand that the store does not hold.
-/
namespace Rebind

/-! ### Operations that read -/

section Reading

variable {g : Gap} {v w u : Value}

theorem inspects_view (h : g.Covers v) : Inspects g (view v) g.Covers := by
  rintro σ closed rfl
  refine .inl ⟨_, rfl, ?_⟩
  cases v with
  | object id content =>
    cases found : σ.edits.lookup id with
    | none =>
      simp only [Store.view, found]
      exact (covers_object.mp h).2
    | some w =>
      simp only [Store.view, found]
      obtain ⟨before, after, there, -⟩ := List.lookup_eq_some_iff.mp found
      exact (closed.edits (id, w) (by simp [there])).2
  | _ => exact h

theorem inspects_truthy (v : Value) : Inspects g (truthy v) fun _ => True :=
  inspects_look fun σ => (σ.view v).isTruthy

theorem inspects_lengthOf (v : Value) : Inspects g (lengthOf v) fun _ => True := by
  refine (inspects_look _).bind fun w _ => ?_
  split <;> first | exact inspects_pure trivial | exact inspects_raise _

theorem inspects_equalTo (v w : Value) : Inspects g (equalTo v w) fun _ => True :=
  inspects_look fun σ => (σ.snapshot v).equal (σ.snapshot w)

theorem inspects_checkKey (v : Value) : Inspects g (checkKey v) fun _ => True := by
  refine (inspects_look _).bind fun d _ => ?_
  exact inspects_ite (inspects_pure trivial) (inspects_raise _)

theorem inspects_entryOf (key : Value) {entries : List (Value × Value)} (h : ∀ e ∈ entries, g.Covers e.2) :
    Inspects g (entryOf key entries) fun found => ∀ w, found = some w → g.Covers w := by
  induction entries with
  | nil => exact inspects_pure fun w found => nomatch found
  | cons entry rest ih =>
    obtain ⟨first, later⟩ := List.forall_mem_cons.mp h
    refine (inspects_equalTo _ _).bind fun same _ => inspects_ite (inspects_pure ?_) (ih later)
    rintro w ⟨⟩
    exact first

theorem inspects_offsetOf (v : Value) : Inspects g (offsetOf v) fun _ => True := by
  refine (inspects_look _).bind fun w _ => ?_
  split <;> first | exact inspects_pure trivial | exact inspects_raise _

theorem inspects_boundOf (v : Value) : Inspects g (boundOf v) fun _ => True := by
  refine (inspects_look _).bind fun w _ => ?_
  split
  · exact inspects_pure trivial
  · split <;> first | exact inspects_pure trivial | exact inspects_raise _

theorem inspects_present {α : Type} {P : α → Prop} {found : Option α} (h : ∀ a, found = some a → P a) :
    Inspects g (present found) P := by
  cases found with
  | none => exact inspects_raise _
  | some a => exact inspects_pure (h a rfl)

theorem inspects_itemOf (h : g.Covers v) (i : Value) : Inspects g (itemOf v i) g.Covers := by
  have listed : ∀ items : List Value, (∀ w ∈ items, g.Covers w) → Inspects g (do
      let n ← offsetOf i
      present (Slice.item? items n)) g.Covers := fun items all =>
    (inspects_offsetOf i).bind fun n _ => inspects_present fun w found => all w (mem_of_item? found)
  refine (inspects_view h).bind fun w known => ?_
  split
  · refine (inspects_offsetOf i).bind fun n _ => ?_
    exact (inspects_present (P := fun _ => True) fun _ _ => trivial).bind fun c _ => inspects_pure (covers_ofChar c)
  · exact listed _ (covers_list.mp known)
  · exact listed _ (covers_tuple.mp known)
  · refine (inspects_checkKey i).bind fun _ _ => ?_
    refine (inspects_entryOf i fun e member => (covers_dict.mp known e member).2).bind fun found all => ?_
    split
    · exact inspects_pure (all _ rfl)
    · exact inspects_raise _
  · exact inspects_raise _

theorem inspects_sliceOf (h : g.Covers v) (lo hi : Value) : Inspects g (sliceOf v lo hi) g.Covers := by
  have cut : ∀ make : Option Int → Option Int → Value, (∀ lo hi, g.Covers (make lo hi)) → Inspects g (do
      let lo ← boundOf lo
      let hi ← boundOf hi
      return make lo hi) g.Covers := fun make all =>
    (inspects_boundOf lo).bind fun _ _ => (inspects_boundOf hi).bind fun _ _ => inspects_pure (all _ _)
  refine (inspects_view h).bind fun w known => ?_
  split
  · exact cut (fun lo hi => .ofChars (Slice.between _ lo hi)) fun _ _ => covers_ofChars _
  · refine cut (fun lo hi => .list (Slice.between _ lo hi)) fun _ _ => covers_list.mpr fun u member => ?_
    exact covers_list.mp known u (mem_of_between member)
  · refine cut (fun lo hi => .tuple (Slice.between _ lo hi)) fun _ _ => covers_tuple.mpr fun u member => ?_
    exact covers_tuple.mp known u (mem_of_between member)
  · exact inspects_raise _

theorem inspects_itemsOf (h : g.Covers v) : Inspects g (itemsOf v) fun items => ∀ w ∈ items, g.Covers w := by
  refine (inspects_view h).bind fun w known => ?_
  split
  · refine inspects_pure fun u member => ?_
    obtain ⟨c, -, rfl⟩ := List.mem_map.mp member
    exact covers_ofChar c
  · exact inspects_pure (covers_list.mp known)
  · exact inspects_pure (covers_tuple.mp known)
  · exact inspects_pure (covers_set.mp known)
  · refine inspects_pure fun u member => ?_
    obtain ⟨e, there, rfl⟩ := List.mem_map.mp member
    exact (covers_dict.mp known e there).1
  · exact inspects_raise _

theorem inspects_lessThan (v w : Value) : Inspects g (lessThan v w) fun _ => True := by
  refine (inspects_look _).bind fun a _ => (inspects_look _).bind fun b _ => ?_
  split
  · exact inspects_pure trivial
  · refine (inspects_look _).bind fun c _ => (inspects_look _).bind fun d _ => ?_
    split <;> first | exact inspects_pure trivial | exact inspects_raise _

theorem inspects_atMost (v w : Value) : Inspects g (atMost v w) fun _ => True := by
  refine (inspects_look _).bind fun a _ => (inspects_look _).bind fun b _ => ?_
  split
  · exact inspects_pure trivial
  · split <;> first | exact inspects_pure trivial | exact inspects_raise _

theorem inspects_applicable {found : Option Value} (h : ∀ w, found = some w → g.Covers w) :
    Inspects g (applicable found) g.Covers := by
  cases found with
  | none => exact inspects_raise _
  | some w => exact inspects_pure (h w rfl)

theorem covers_arithmetic {whole : Int → Int → Int} {broken : Float → Float → Float}
    (h : arithmetic whole broken v w = some u) : g.Covers u := covers_of_isPlain (arithmetic_isPlain h)

theorem inspects_addTo (hv : g.Covers v) (hw : g.Covers w) : Inspects g (addTo v w) g.Covers := by
  refine (inspects_view hv).bind fun a ha => (inspects_view hw).bind fun b hb => ?_
  split
  · exact inspects_pure (covers_int _)
  · exact inspects_pure (covers_str _)
  · refine inspects_pure (covers_list.mpr fun u member => ?_)
    exact (List.mem_append.mp member).elim (covers_list.mp ha u) (covers_list.mp hb u)
  · refine inspects_pure (covers_tuple.mpr fun u member => ?_)
    exact (List.mem_append.mp member).elim (covers_tuple.mp ha u) (covers_tuple.mp hb u)
  · exact inspects_applicable fun u found => covers_arithmetic found

theorem inspects_subtractFrom (v w : Value) : Inspects g (subtractFrom v w) g.Covers :=
  (inspects_look _).bind fun _ _ => (inspects_look _).bind fun _ _ =>
    inspects_applicable fun _ found => covers_arithmetic found

theorem inspects_joinWith (between : String) (h : g.Covers v) : Inspects g (joinWith between v) fun _ => True := by
  refine (inspects_itemsOf h).bind fun items _ => ?_
  exact inspects_ite ((inspects_raise (P := fun _ => True) _).bind fun _ _ => inspects_pure trivial)
    (inspects_pure trivial)

/-! ### Results and diagnostics -/

structure Result.CoveredBy (r : Result) (g : Gap) : Prop where
  status : g.Covers r.status
  index : g.Covers r.index
  value : g.Covers r.value

/-- The parts of a result refer to no later numbers than the result. -/
theorem Gap.Covers.result? {r : Result} (h : g.Covers v) (made : v.result? = some r) : r.CoveredBy g := by
  unfold Value.result? at made
  have known := h.content
  split at made
  · next a b c same =>
    cases made
    rw [same] at known
    obtain ⟨ha, hb, hc⟩ := covers_result.mp known
    exact ⟨ha, hb, hc⟩
  · cases made

theorem inspects_resultOf (h : g.Covers v) : Inspects g (resultOf v) (·.CoveredBy g) := by
  unfold resultOf
  split
  · next r made => exact inspects_pure (h.result? made)
  · exact inspects_raise _

theorem inspects_furthest {r : Result} (h : r.CoveredBy g) : Inspects g (furthest r) g.Covers := by
  refine (inspects_truthy _).bind fun succeeded _ => inspects_pure ?_
  split
  · exact covers_int _
  · exact h.index

theorem inspects_mergeOver (hv : g.Covers v) (hw : g.Covers w) : Inspects g (mergeOver v w) g.Covers := by
  unfold mergeOver
  split
  · exact inspects_pure hv
  · refine (inspects_resultOf hv).bind fun c hc => (inspects_truthy _).bind fun _ _ => ?_
    refine inspects_ite (inspects_pure hv) ((inspects_resultOf hw).bind fun p hp => ?_)
    refine (inspects_furthest hp).bind fun _ _ => (inspects_lessThan _ _).bind fun _ _ => ?_
    refine inspects_ite (inspects_pure hv) ((inspects_lessThan _ _).bind fun _ _ => ?_)
    refine inspects_ite (inspects_pure hw) ((inspects_addTo hc.value hp.value).bind fun _ sum => inspects_pure ?_)
    exact covers_result.mpr ⟨covers_bool _, hc.index, sum⟩

theorem inspects_lineColumnOf {text : Value} (ht : g.Covers text) (h : g.Covers v) :
    Inspects g (lineColumnOf text v) g.Covers := by
  refine (inspects_view ht).bind fun w known => ?_
  split
  · refine (inspects_boundOf v).bind fun _ _ => inspects_pure ?_
    exact covers_lineColumn.mpr ⟨h, covers_int _, covers_int _⟩
  · exact (inspects_sliceOf known _ _).bind fun _ _ => inspects_raise _

theorem inspects_placeOf {text : Value} (ht : g.Covers text) (h : g.Covers v) :
    Inspects g (placeOf text v) fun _ => True := by
  refine (inspects_lineColumnOf ht h).bind fun w _ => ?_
  split
  · exact inspects_pure trivial
  · exact inspects_raise _

theorem inspects_expectedOf (h : g.Covers v) : Inspects g (expectedOf v) g.Covers := by
  refine (inspects_lengthOf v).bind fun n _ => inspects_ite (inspects_itemOf h _) ?_
  exact (inspects_joinWith _ h).bind fun _ _ => inspects_pure (covers_str _)

theorem inspects_textOf (v : Value) : Inspects g (textOf v) fun _ => True := inspects_look _

theorem inspects_literalOf (v : Value) : Inspects g (literalOf v) fun _ => True := inspects_look _

theorem inspects_expectedText (h : g.Covers v) : Inspects g (expectedText v) fun _ => True :=
  (inspects_expectedOf h).bind fun _ _ => inspects_textOf _

theorem inspects_withDots (h : g.Covers v) : Inspects g (withDots v) g.Covers := by
  refine (inspects_view h).bind fun w known => ?_
  split
  · exact inspects_pure (covers_str _)
  · refine inspects_pure (covers_list.mpr fun u member => ?_)
    rcases List.mem_append.mp member with inside | dot
    · exact covers_list.mp known u inside
    · simp only [List.mem_cons, List.not_mem_nil, or_false] at dot
      rcases dot with rfl | rfl | rfl <;> exact covers_str _
  · exact inspects_raise _

theorem inspects_gotText {text : Value} (h : g.Covers text) (hi : g.Covers v) (hc : g.Covers w) :
    Inspects g (gotText text v w) fun _ => True := by
  have quoted : ∀ snippet : Value, Inspects g (do
      return "'" ++ (← textOf snippet) ++ "'") fun _ => True := fun snippet =>
    (inspects_textOf snippet).bind fun _ _ => inspects_pure trivial
  refine (inspects_lengthOf text).bind fun size _ => (inspects_atMost _ _).bind fun _ _ => ?_
  refine inspects_ite (inspects_pure trivial) ((inspects_addTo hi hc).bind fun stop _ => ?_)
  refine (inspects_sliceOf h _ _).bind fun snippet known => (inspects_subtractFrom _ _).bind fun left _ => ?_
  refine (inspects_lessThan _ _).bind fun more _ => inspects_ite ?_ ?_
  · exact (inspects_withDots known).bind fun _ _ => quoted _
  · exact (inspects_pure (P := fun _ => True) trivial).bind fun _ _ => quoted _

/-- The parts of the state of a parser. -/
theorem inspects_parserPart (p : ParserId) {part : ParserState → Value}
    (h : ∀ s : ParserState, g.Covers s.behaviour → g.Covers s.displayName → g.Covers (part s)) : Inspects g (do
      return (((← get).parser? p).map part).getD .none) g.Covers := by
  refine inspects_get.bind fun σ ⟨closed, same⟩ => inspects_pure ?_
  cases there : σ.parser? p with
  | none => exact covers_none
  | some s =>
    obtain ⟨behaviour, name⟩ := closed.parsers p s there
    exact h s (same ▸ behaviour) (same ▸ name)

theorem inspects_attributeOfResult (h : g.Covers v) {part : Result → Value}
    (hp : ∀ r : Result, r.CoveredBy g → g.Covers (part r)) :
    Inspects g (attributeOf.attributeOfResult v part) g.Covers := by
  unfold attributeOf.attributeOfResult
  split
  · next r made => exact inspects_pure (hp r (h.result? made))
  · exact inspects_raise _

theorem covers_lookup {α : Type} [BEq α] [LawfulBEq α] {entries : List (α × Value)} {key : α}
    (h : ∀ e ∈ entries, g.Covers e.2) (found : entries.lookup key = some v) : g.Covers v := by
  obtain ⟨before, after, there, -⟩ := List.lookup_eq_some_iff.mp found
  exact h (key, v) (by simp [there])

theorem inspects_attributeOf (h : g.Covers v) (name : String) : Inspects g (attributeOf v name) g.Covers := by
  refine (inspects_view h).bind fun w known => ?_
  split <;> try simp only [covers_result, covers_mark, covers_lineColumn, covers_mismatch, covers_renderer,
    covers_source] at known
  · exact inspects_parserPart _ fun _ _ name => name
  · exact inspects_parserPart _ fun _ behaviour _ => behaviour
  · exact inspects_pure known.1
  · exact inspects_pure known.2.1
  · exact inspects_pure known.2.2
  · refine (inspects_truthy _).bind fun _ _ => inspects_pure ?_
    split
    · exact covers_list.mpr fun _ member => absurd member List.not_mem_nil
    · exact known.2.2
  · exact inspects_pure known.1
  · exact inspects_pure known.2.1
  · exact inspects_pure known.2.2
  · exact inspects_pure known.1
  · exact inspects_pure known.2.1
  · exact inspects_pure known.2.2
  · exact inspects_pure known.1
  · exact inspects_pure known.2.1
  · exact inspects_pure known.2.2
  · exact inspects_attributeOfResult known.2.1 fun r hr => hr.index
  · exact inspects_attributeOfResult known.2.1 fun r hr => hr.value
  · next e =>
    refine inspects_get.bind fun σ known => ?_
    obtain ⟨closed, same⟩ := known
    subst same
    have all := closed.echoes e
    split
    · next s there => exact inspects_pure (all s there).depth
    · next s there => exact inspects_pure (all s there).context
    · next s there => exact inspects_pure (all s there).padIfShort
    · next s there => exact inspects_pure (all s there).onEnter
    · next s there => exact inspects_pure (all s there).onExit
    · next s there => exact inspects_pure (all s there).color
    · exact inspects_raise _
  · split
    · next found => exact inspects_pure (covers_lookup (covers_handler.mp known) found)
    · exact inspects_raise _
  · exact inspects_pure (covers_str _)
  · exact inspects_pure known
  · refine inspects_pure (covers_list.mpr fun u member => ?_)
    obtain ⟨line, -, rfl⟩ := List.mem_map.mp member
    exact covers_str line
  · exact inspects_pure known.1
  · exact inspects_pure known.2
  · exact inspects_pure (covers_str _)
  · exact inspects_pure (covers_str _)
  · exact inspects_raise _

theorem inspects_errorText {text outcome context : Value} (ht : g.Covers text) (ho : g.Covers outcome)
    (hc : g.Covers context) : Inspects g (errorText text outcome context) fun _ => True := by
  refine (inspects_attributeOf ho _).bind fun v hv => (inspects_expectedText hv).bind fun expected _ => ?_
  refine (inspects_attributeOf ho _).bind fun index hi => (inspects_textOf index).bind fun place _ => ?_
  exact (inspects_gotText ht hi hc).bind fun got _ => inspects_pure trivial

theorem inspects_newMismatch {text outcome name : Value} (ht : g.Covers text) (ho : g.Covers outcome)
    (hn : g.Covers name) : Inspects g (newMismatch text outcome name) g.Covers :=
  (inspects_errorText ht ho (covers_int _)).bind fun _ _ => inspects_pure (covers_mismatch.mpr ⟨ht, ho, hn⟩)

/-! ### Arguments of the library -/

theorem inspects_isParser (v : Value) : Inspects g (isParser v) fun known => known = true →
    ∀ p, v = .parser p → p < g.parser := by
  rintro σ closed rfl
  refine .inl ⟨_, rfl, ?_⟩
  rintro known p rfl
  exact of_decide_eq_true known

theorem inspects_require (function kind : String) (v : Value) (ok : Bool) :
    Inspects g (require function kind v ok) fun _ => ok = true := by
  unfold require
  split
  · next given => exact inspects_pure given
  · exact (inspects_literalOf v).bind fun _ _ => inspects_raise _

theorem inspects_parserOf (function : String) (v : Value) :
    Inspects g (Grammar.parserOf function v) (· < g.parser) := by
  refine (inspects_isParser v).bind fun known there => (inspects_require _ _ _ _).bind fun _ given => ?_
  split
  · exact inspects_pure (there given _ rfl)
  · exact inspects_raise _

end Reading

end Rebind
