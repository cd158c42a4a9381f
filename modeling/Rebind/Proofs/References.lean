import Mathlib.Order.Basic
import Rebind.Proofs.RetracedRuns
/-!
# References

Parsers, printing handlers and objects are told apart by numbers that are given out in turn.  A store is
closed if all that it holds refers only to numbers that were given out.  Evaluations are judged by what they
do to closed stores: some only read, and the others lead to closed stores in which more numbers are given
out.  What comes of either refers only to what is there then.
-/
namespace Rebind

/-! ### Values -/

namespace Gap

/-- Numbers that come later in every respect. -/
instance : Preorder Gap where
  le g k := g.parser ≤ k.parser ∧ g.echo ≤ k.echo ∧ g.object ≤ k.object
  le_refl g := ⟨Nat.le_refl _, Nat.le_refl _, Nat.le_refl _⟩
  le_trans _ _ _ first second :=
    ⟨first.1.trans second.1, first.2.1.trans second.2.1, first.2.2.trans second.2.2⟩

/-- A value that only refers to earlier numbers. -/
def Covers (g : Gap) (v : Value) : Prop := v.renumbered g = v

end Gap

section Values

variable {g k : Gap} {v : Value}

theorem past_eq_iff {place n : Nat} : past place n = n ↔ n < place := by
  unfold past
  split <;> omega

/-- A map leaves a list as it is if it does so with every item. -/
theorem map_eq_self {α : Type} {f : α → α} {xs : List α} : xs.map f = xs ↔ ∀ x ∈ xs, f x = x := by
  induction xs with
  | nil => simp
  | cons x rest ih => simp [ih]

open Gap

@[simp] theorem covers_none : g.Covers .none := rfl

@[simp] theorem covers_bool (b : Bool) : g.Covers (.bool b) := rfl

@[simp] theorem covers_int (n : Int) : g.Covers (.int n) := rfl

@[simp] theorem covers_float (x : Floating) : g.Covers (.float x) := rfl

@[simp] theorem covers_str (s : String) : g.Covers (.str s) := rfl

@[simp] theorem covers_ofChar (c : Char) : g.Covers (.ofChar c) := rfl

@[simp] theorem covers_ofChars (cs : List Char) : g.Covers (.ofChars cs) := rfl

@[simp] theorem covers_pattern (r : Regex) : g.Covers (.pattern r) := rfl

@[simp] theorem covers_path (p : String) : g.Covers (.path p) := rfl

@[simp] theorem covers_moment (kind : String) : g.Covers (.moment kind) := rfl

@[simp] theorem covers_error (c : Cause) : g.Covers (.error c) := rfl

@[simp] theorem covers_list {vs : List Value} : g.Covers (.list vs) ↔ ∀ v ∈ vs, g.Covers v := by
  simp [Covers, Value.renumbered, renumberedAll_eq, map_eq_self]

@[simp] theorem covers_tuple {vs : List Value} : g.Covers (.tuple vs) ↔ ∀ v ∈ vs, g.Covers v := by
  simp [Covers, Value.renumbered, renumberedAll_eq, map_eq_self]

@[simp] theorem covers_set {vs : List Value} : g.Covers (.set vs) ↔ ∀ v ∈ vs, g.Covers v := by
  simp [Covers, Value.renumbered, renumberedAll_eq, map_eq_self]

@[simp] theorem covers_dict {es : List (Value × Value)} :
    g.Covers (.dict es) ↔ ∀ e ∈ es, g.Covers e.1 ∧ g.Covers e.2 := by
  simp [Covers, Value.renumbered, renumberedEntries_eq, map_eq_self, Prod.ext_iff]

@[simp] theorem covers_object {id : Nat} : g.Covers (.object id v) ↔ id < g.object ∧ g.Covers v := by
  simp [Covers, Value.renumbered, past_eq_iff]

@[simp] theorem covers_parserId {p : ParserId} : g.Covers (.parser p) ↔ p < g.parser := by
  simp [Covers, Value.renumbered, past_eq_iff]

@[simp] theorem covers_echo {e : HandlerId} : g.Covers (.echo e) ↔ e < g.echo := by
  simp [Covers, Value.renumbered, past_eq_iff]

@[simp] theorem covers_handler {methods : List (String × Value)} :
    g.Covers (.handler methods) ↔ ∀ e ∈ methods, g.Covers e.2 := by
  simp [Covers, Value.renumbered, renumberedNamed_eq, map_eq_self, Prod.ext_iff]

@[simp] theorem covers_closure {parameters : List String} {body : Script.Expr} {captured : List (String × Value)}
    {title : Script.Title} {scope : Nat} :
    g.Covers (.closure parameters body captured title scope) ↔ ∀ e ∈ captured, g.Covers e.2 := by
  simp [Covers, Value.renumbered, renumberedNamed_eq, map_eq_self, Prod.ext_iff]

@[simp] theorem covers_result {a b c : Value} :
    g.Covers (.result a b c) ↔ g.Covers a ∧ g.Covers b ∧ g.Covers c := by
  simp [Covers, Value.renumbered]

@[simp] theorem covers_mark {a b c : Value} : g.Covers (.mark a b c) ↔ g.Covers a ∧ g.Covers b ∧ g.Covers c := by
  simp [Covers, Value.renumbered]

@[simp] theorem covers_lineColumn {a b c : Value} :
    g.Covers (.lineColumn a b c) ↔ g.Covers a ∧ g.Covers b ∧ g.Covers c := by
  simp [Covers, Value.renumbered]

@[simp] theorem covers_settings {a b c d e : Value} : g.Covers (.settings a b c d e) ↔
    g.Covers a ∧ g.Covers b ∧ g.Covers c ∧ g.Covers d ∧ g.Covers e := by
  simp [Covers, Value.renumbered]

@[simp] theorem covers_source {t : String} : g.Covers (.source t v) ↔ g.Covers v := by
  simp [Covers, Value.renumbered]

@[simp] theorem covers_renderer {a b : Value} : g.Covers (.renderer a b) ↔ g.Covers a ∧ g.Covers b := by
  simp [Covers, Value.renumbered]

@[simp] theorem covers_mismatch {a b c : Value} {message : String} :
    g.Covers (.mismatch a b c message) ↔ g.Covers a ∧ g.Covers b ∧ g.Covers c := by
  simp [Covers, Value.renumbered]

def Behaviour.CoveredBy (b : Behaviour Value) (g : Gap) : Prop := b.renumbered g = b

@[simp] theorem covers_behaviour {b : Behaviour Value} : g.Covers (.behaviour b) ↔ b.CoveredBy g := by
  simp [Covers, Value.renumbered, Behaviour.CoveredBy]

section Behaviours

variable {p q : ParserId} {ps : List ParserId} {d : String} {lo hi : Count}

theorem pasts_eq_iff {place : Nat} : ps.map (past place) = ps ↔ ∀ p ∈ ps, p < place :=
  map_eq_self.trans (forall₂_congr fun _ _ => past_eq_iff)

@[simp] theorem coveredBy_succeed : (Behaviour.succeed v).CoveredBy g ↔ g.Covers v :=
  ⟨Behaviour.succeed.inj, congrArg Behaviour.succeed⟩

@[simp] theorem coveredBy_testChar : (Behaviour.testChar v d).CoveredBy g ↔ g.Covers v :=
  ⟨fun h => (Behaviour.testChar.inj h).1, congrArg (Behaviour.testChar · d)⟩

@[simp] theorem coveredBy_sequence : (Behaviour.sequence ps).CoveredBy g ↔ ∀ p ∈ ps, p < g.parser :=
  ⟨fun h => pasts_eq_iff.mp (Behaviour.sequence.inj h), fun h => congrArg _ (pasts_eq_iff.mpr h)⟩

@[simp] theorem coveredBy_alternative : (Behaviour.alternative ps).CoveredBy g ↔ ∀ p ∈ ps, p < g.parser :=
  ⟨fun h => pasts_eq_iff.mp (Behaviour.alternative.inj h), fun h => congrArg _ (pasts_eq_iff.mpr h)⟩

@[simp] theorem coveredBy_repetition : (Behaviour.repetition p lo hi).CoveredBy g ↔ p < g.parser :=
  ⟨fun h => past_eq_iff.mp (Behaviour.repetition.inj h).1,
    fun h => congrArg (Behaviour.repetition · lo hi) (past_eq_iff.mpr h)⟩

@[simp] theorem coveredBy_transform : (Behaviour.transform p v).CoveredBy g ↔ p < g.parser ∧ g.Covers v :=
  ⟨fun h => (Behaviour.transform.inj h).imp_left past_eq_iff.mp,
    fun h => congrArg₂ Behaviour.transform (past_eq_iff.mpr h.1) h.2⟩

@[simp] theorem coveredBy_exclude : (Behaviour.exclude p q).CoveredBy g ↔ p < g.parser ∧ q < g.parser :=
  ⟨fun h => (Behaviour.exclude.inj h).imp past_eq_iff.mp past_eq_iff.mp,
    fun h => congrArg₂ Behaviour.exclude (past_eq_iff.mpr h.1) (past_eq_iff.mpr h.2)⟩

@[simp] theorem coveredBy_describe : (Behaviour.describe p d).CoveredBy g ↔ p < g.parser :=
  ⟨fun h => past_eq_iff.mp (Behaviour.describe.inj h).1,
    fun h => congrArg (Behaviour.describe · d) (past_eq_iff.mpr h)⟩

@[simp] theorem coveredBy_mark : (Behaviour.mark p).CoveredBy g ↔ p < g.parser :=
  ⟨fun h => past_eq_iff.mp (Behaviour.mark.inj h), fun h => congrArg Behaviour.mark (past_eq_iff.mpr h)⟩

@[simp] theorem coveredBy_chain : (Behaviour.chain p v).CoveredBy g ↔ p < g.parser ∧ g.Covers v :=
  ⟨fun h => (Behaviour.chain.inj h).imp_left past_eq_iff.mp,
    fun h => congrArg₂ Behaviour.chain (past_eq_iff.mpr h.1) h.2⟩

@[simp] theorem coveredBy_subEnvironment :
    (Behaviour.subEnvironment p v).CoveredBy g ↔ p < g.parser ∧ g.Covers v :=
  ⟨fun h => (Behaviour.subEnvironment.inj h).imp_left past_eq_iff.mp,
    fun h => congrArg₂ Behaviour.subEnvironment (past_eq_iff.mpr h.1) h.2⟩

@[simp] theorem coveredBy_deferredLookup : (Behaviour.deferredLookup v d).CoveredBy g ↔ g.Covers v :=
  ⟨fun h => (Behaviour.deferredLookup.inj h).1, congrArg (Behaviour.deferredLookup · d)⟩

@[simp] theorem coveredBy_debug : (Behaviour.debug p v).CoveredBy g ↔ p < g.parser ∧ g.Covers v :=
  ⟨fun h => (Behaviour.debug.inj h).imp_left past_eq_iff.mp,
    fun h => congrArg₂ Behaviour.debug (past_eq_iff.mpr h.1) h.2⟩

end Behaviours

/-- What comes before a gap comes before every later one. -/
theorem past_mono {place later n : Nat} (le : place ≤ later) (h : past place n = n) : past later n = n :=
  past_eq_iff.mpr (Nat.lt_of_lt_of_le (past_eq_iff.mp h) le)

mutual

theorem renumbered_mono (le : g ≤ k) : ∀ {v : Value}, v.renumbered g = v → v.renumbered k = v
  | .list _, h => congrArg Value.list (renumberedAll_mono le (Value.list.inj h))
  | .tuple _, h => congrArg Value.tuple (renumberedAll_mono le (Value.tuple.inj h))
  | .set _, h => congrArg Value.set (renumberedAll_mono le (Value.set.inj h))
  | .dict _, h => congrArg Value.dict (renumberedEntries_mono le (Value.dict.inj h))
  | .object _ _, h =>
    congrArg₂ Value.object (past_mono le.2.2 (Value.object.inj h).1) (renumbered_mono le (Value.object.inj h).2)
  | .parser _, h => congrArg Value.parser (past_mono le.1 (Value.parser.inj h))
  | .echo _, h => congrArg Value.echo (past_mono le.2.1 (Value.echo.inj h))
  | .behaviour _, h => congrArg Value.behaviour (behaviour_mono le (Value.behaviour.inj h))
  | .closure _ _ _ _ _, h => by
    simp only [Value.renumbered, Value.closure.injEq, true_and, and_true] at h ⊢
    exact renumberedNamed_mono le h
  | .handler _, h => congrArg Value.handler (renumberedNamed_mono le (Value.handler.inj h))
  | .result _ _ _, h => by
    simp only [Value.renumbered, Value.result.injEq] at h ⊢
    exact ⟨renumbered_mono le h.1, renumbered_mono le h.2.1, renumbered_mono le h.2.2⟩
  | .mark _ _ _, h => by
    simp only [Value.renumbered, Value.mark.injEq] at h ⊢
    exact ⟨renumbered_mono le h.1, renumbered_mono le h.2.1, renumbered_mono le h.2.2⟩
  | .lineColumn _ _ _, h => by
    simp only [Value.renumbered, Value.lineColumn.injEq] at h ⊢
    exact ⟨renumbered_mono le h.1, renumbered_mono le h.2.1, renumbered_mono le h.2.2⟩
  | .settings _ _ _ _ _, h => by
    simp only [Value.renumbered, Value.settings.injEq] at h ⊢
    exact ⟨renumbered_mono le h.1, renumbered_mono le h.2.1, renumbered_mono le h.2.2.1,
      renumbered_mono le h.2.2.2.1, renumbered_mono le h.2.2.2.2⟩
  | .source _ _, h => congrArg (Value.source _) (renumbered_mono le (Value.source.inj h).2)
  | .renderer _ _, h =>
    congrArg₂ Value.renderer (renumbered_mono le (Value.renderer.inj h).1)
      (renumbered_mono le (Value.renderer.inj h).2)
  | .mismatch _ _ _ _, h => by
    simp only [Value.renumbered, Value.mismatch.injEq, and_true] at h ⊢
    exact ⟨renumbered_mono le h.1, renumbered_mono le h.2.1, renumbered_mono le h.2.2⟩
  | .none, _ | .bool _, _ | .int _, _ | .float _, _ | .str _, _ | .pattern _, _ | .path _, _ | .moment _, _
  | .error _, _ => rfl

theorem renumberedAll_mono (le : g ≤ k) :
    ∀ {vs : List Value}, Value.renumberedAll g vs = vs → Value.renumberedAll k vs = vs
  | [], _ => rfl
  | _ :: _, h =>
    congrArg₂ List.cons (renumbered_mono le (List.cons.inj h).1) (renumberedAll_mono le (List.cons.inj h).2)

theorem renumberedEntries_mono (le : g ≤ k) :
    ∀ {es : List (Value × Value)}, Value.renumberedEntries g es = es → Value.renumberedEntries k es = es
  | [], _ => rfl
  | (_, _) :: _, h => by
    simp only [Value.renumberedEntries, List.cons.injEq, Prod.mk.injEq] at h ⊢
    exact ⟨⟨renumbered_mono le h.1.1, renumbered_mono le h.1.2⟩, renumberedEntries_mono le h.2⟩

theorem renumberedNamed_mono (le : g ≤ k) :
    ∀ {es : List (String × Value)}, Value.renumberedNamed g es = es → Value.renumberedNamed k es = es
  | [], _ => rfl
  | (_, _) :: _, h => by
    simp only [Value.renumberedNamed, List.cons.injEq, Prod.mk.injEq, true_and] at h ⊢
    exact ⟨renumbered_mono le h.1, renumberedNamed_mono le h.2⟩

/-- By cases on the behaviour, with its parsers, values and functions. -/
theorem behaviour_mono (le : g ≤ k) : ∀ {b : Behaviour Value}, b.renumbered g = b → b.renumbered k = b
  | .succeed _, h => congrArg Behaviour.succeed (renumbered_mono le (Behaviour.succeed.inj h))
  | .testChar _ _, h => congrArg (Behaviour.testChar · _) (renumbered_mono le (Behaviour.testChar.inj h).1)
  | .sequence _, h =>
    congrArg Behaviour.sequence (map_eq_self.mpr fun p member =>
      past_mono le.1 (map_eq_self.mp (Behaviour.sequence.inj h) p member))
  | .alternative _, h =>
    congrArg Behaviour.alternative (map_eq_self.mpr fun p member =>
      past_mono le.1 (map_eq_self.mp (Behaviour.alternative.inj h) p member))
  | .repetition _ _ _, h => congrArg (Behaviour.repetition · _ _) (past_mono le.1 (Behaviour.repetition.inj h).1)
  | .transform _ _, h =>
    congrArg₂ Behaviour.transform (past_mono le.1 (Behaviour.transform.inj h).1)
      (renumbered_mono le (Behaviour.transform.inj h).2)
  | .exclude _ _, h =>
    congrArg₂ Behaviour.exclude (past_mono le.1 (Behaviour.exclude.inj h).1)
      (past_mono le.1 (Behaviour.exclude.inj h).2)
  | .describe _ _, h => congrArg (Behaviour.describe · _) (past_mono le.1 (Behaviour.describe.inj h).1)
  | .mark _, h => congrArg Behaviour.mark (past_mono le.1 (Behaviour.mark.inj h))
  | .chain _ _, h =>
    congrArg₂ Behaviour.chain (past_mono le.1 (Behaviour.chain.inj h).1)
      (renumbered_mono le (Behaviour.chain.inj h).2)
  | .subEnvironment _ _, h =>
    congrArg₂ Behaviour.subEnvironment (past_mono le.1 (Behaviour.subEnvironment.inj h).1)
      (renumbered_mono le (Behaviour.subEnvironment.inj h).2)
  | .deferredLookup _ _, h =>
    congrArg (Behaviour.deferredLookup · _) (renumbered_mono le (Behaviour.deferredLookup.inj h).1)
  | .debug _ _, h =>
    congrArg₂ Behaviour.debug (past_mono le.1 (Behaviour.debug.inj h).1)
      (renumbered_mono le (Behaviour.debug.inj h).2)
  | .anyChar, _ | .rest, _ | .eof, _ | .index, _ | .lineColumnIndex, _ | .fail _, _ | .string _, _
  | .regex _ _, _ => rfl

end

/-- What was covered stays so when more is given out. -/
theorem Gap.Covers.mono (h : g.Covers v) (le : g ≤ k) : k.Covers v := renumbered_mono le h

theorem covers_of_isPlain (h : v.IsPlain) : g.Covers v := h.renumbered

theorem Gap.Covers.content (h : g.Covers v) : g.Covers v.content := by
  cases v with
  | object id content => exact (covers_object.mp h).2
  | _ => exact h

theorem covers_success {i : Value} : g.Covers (.success i v) ↔ g.Covers i ∧ g.Covers v := by
  simp [Value.success]

theorem covers_failure {i : Value} : g.Covers (.failure i v) ↔ g.Covers i ∧ g.Covers v := by
  simp [Value.failure]

end Values

/-! ### Stores -/

structure EchoState.CoveredBy (s : EchoState) (g : Gap) : Prop where
  context : g.Covers s.context
  padIfShort : g.Covers s.padIfShort
  onEnter : g.Covers s.onEnter
  onExit : g.Covers s.onExit
  color : g.Covers s.color
  depth : g.Covers s.depth

/-- A store that only refers to what it holds. -/
structure Store.Closed (σ : Store) : Prop where
  edits : ∀ e ∈ σ.edits, e.1 < σ.nextObject ∧ σ.gap.Covers e.2
  parsers : ∀ (p : ParserId) (s : ParserState), σ.parser? p = some s →
    σ.gap.Covers s.behaviour ∧ σ.gap.Covers s.displayName
  echoes : ∀ (e : HandlerId) (s : EchoState), σ.echoes[e]? = some s → s.CoveredBy σ.gap
  scopes : ∀ names ∈ σ.scopes, ∀ n ∈ names, σ.gap.Covers n.2
  tracers : ∀ h ∈ σ.tracers, σ.gap.Covers h
  primitives : sharedPrimitives.length ≤ σ.parsers.size

/-- A closed store in which no trace is on is settled, if parsers are called by texts and handlers are nested to
whole depths. -/
theorem Store.Closed.settled {σ : Store} (closed : σ.Closed) (untraced : σ.tracers = [])
    (named : ∀ p s, σ.parser? p = some s → ∃ name, s.displayName = .str name)
    (depths : ∀ (e : HandlerId) (s : EchoState), σ.echoes[e]? = some s → ∃ n, s.depth = .int n) :
    σ.Settled where
  untraced := untraced
  edits := map_eq_self.mpr fun e member =>
    Prod.ext (past_eq_iff.mpr (closed.edits e member).1) (closed.edits e member).2
  parsers p s there := congrArg₂ ParserState.mk (closed.parsers p s there).1 (closed.parsers p s there).2
  echoes e s there := by
    obtain ⟨context, padIfShort, onEnter, onExit, color, depth⟩ := closed.echoes e s there
    unfold Gap.Covers at *
    simp only [EchoState.renumbered, context, padIfShort, onEnter, onExit, color, depth]
  scopes := by
    refine Array.toList_inj.mp ?_
    rw [Array.toList_map]
    refine map_eq_self.mpr fun names member => ?_
    rw [renumberedNamed_eq]
    refine map_eq_self.mpr fun n listed => Prod.ext rfl ?_
    exact closed.scopes names (Array.mem_def.mpr member) n listed
  named := named
  depths := depths

/-- A later store: closed, with the same tracers, and with the numbers given out that were given out before. -/
structure Store.Grows (σ τ : Store) : Prop where
  closed : τ.Closed
  tracers : τ.tracers = σ.tracers
  gap : σ.gap ≤ τ.gap

theorem Store.Closed.grows {σ : Store} (closed : σ.Closed) : σ.Grows σ := ⟨closed, rfl, le_rfl⟩

/-- Stores that grow one after the other. -/
theorem Store.Grows.trans {σ τ υ : Store} (first : σ.Grows τ) (second : τ.Grows υ) : σ.Grows υ :=
  ⟨second.closed, second.tracers.trans first.tracers, first.gap.trans second.gap⟩

section Judgements

variable {g k : Gap} {α β : Type} {x y : Eval α} {f : α → Eval β} {P : α → Prop} {Q : β → Prop}
  {R : Gap → α → Prop} {S : Gap → β → Prop}

/-- An evaluation in stores in which so many numbers are given out that leaves the store as it is, and
returns something of the kind or gives up for a cause. -/
def Inspects (g : Gap) (x : Eval α) (P : α → Prop) : Prop :=
  ∀ σ : Store, σ.Closed → σ.gap = g →
    (∃ a, x σ = .ok a σ ∧ P a) ∨ ∃ c, x σ = .error (.raised (.error c)) σ

/-- An evaluation in stores in which so many numbers are given out that leads to a later store.  What it
returns is of the kind, and an error that it raises only refers to what is there then. -/
def Closes (g : Gap) (x : Eval α) (R : Gap → α → Prop) : Prop :=
  ∀ σ : Store, σ.Closed → σ.gap = g → Ends x σ (fun a τ => σ.Grows τ ∧ R τ.gap a)
    fun e τ => σ.Grows τ ∧ ∀ error, e = .raised error → τ.gap.Covers error

theorem inspects_pure {a : α} (h : P a) : Inspects g (pure a) P := fun _ _ _ => .inl ⟨a, rfl, h⟩

theorem inspects_raise (c : Cause) : Inspects g (raise c) P := fun _ _ _ => .inr ⟨c, rfl⟩

theorem inspects_look (f : Store → α) : Inspects g (fun σ => .ok (f σ) σ) fun _ => True :=
  fun σ _ _ => .inl ⟨f σ, rfl, trivial⟩

theorem inspects_get : Inspects g (get : Eval Store) fun σ => σ.Closed ∧ σ.gap = g :=
  fun σ closed same => .inl ⟨σ, rfl, closed, same⟩

/-- Questions may follow each other. -/
theorem Inspects.bind (h : Inspects g x P) (hf : ∀ a, P a → Inspects g (f a) Q) : Inspects g (x >>= f) Q := by
  intro σ closed same
  rcases h σ closed same with ⟨a, first, kind⟩ | ⟨c, first⟩
  · rcases hf a kind σ closed same with ⟨b, second, kind⟩ | ⟨c, second⟩
    · exact .inl ⟨b, (bind_ok first).trans second, kind⟩
    · exact .inr ⟨c, (bind_ok first).trans second⟩
  · exact .inr ⟨c, bind_error first⟩

theorem Inspects.mono {P' : α → Prop} (h : Inspects g x P) (hp : ∀ a, P a → P' a) : Inspects g x P' := by
  intro σ closed same
  rcases h σ closed same with ⟨a, ended, kind⟩ | raised
  · exact .inl ⟨a, ended, hp a kind⟩
  · exact .inr raised

theorem inspects_ite {c : Prop} [Decidable c] (yes : Inspects g x P) (no : Inspects g y P) :
    Inspects g (if c then x else y) P := by
  split
  · exact yes
  · exact no

theorem inspects_mapM {f : α → Eval β} {xs : List α} (hf : ∀ x ∈ xs, Inspects g (f x) Q) :
    Inspects g (xs.mapM f) fun ys => ∀ y ∈ ys, Q y := by
  induction xs with
  | nil => exact inspects_pure fun _ member => nomatch member
  | cons x rest ih =>
    obtain ⟨first, later⟩ := List.forall_mem_cons.mp hf
    rw [List.mapM_cons]
    exact first.bind fun y hy => (ih later).bind fun ys all => inspects_pure (List.forall_mem_cons.mpr ⟨hy, all⟩)

theorem Inspects.closes (h : Inspects g x (R g)) : Closes g x R := by
  intro σ closed same
  rcases h σ closed same with ⟨a, ended, kind⟩ | ⟨c, raised⟩
  · exact Ends.of_eq_ok ended ⟨closed.grows, same.symm ▸ kind⟩
  · refine Ends.of_eq_error raised ⟨closed.grows, ?_⟩
    rintro error ⟨⟩
    exact covers_error c

theorem closes_pure {a : α} (h : R g a) : Closes g (pure a) R := (inspects_pure h).closes

theorem closes_raise (c : Cause) : Closes g (raise c) R := (inspects_raise c).closes

theorem closes_throw {error : Value} (h : g.Covers error) : Closes g (throw (.raised error)) R := by
  rintro σ closed rfl
  refine ⟨closed.grows, ?_⟩
  rintro _ ⟨⟩
  exact h

theorem closes_endless : Closes g (throw .endless) R := by
  rintro σ closed rfl
  exact ⟨closed.grows, fun _ impossible => nomatch impossible⟩

/-- What keeps stores closed may be followed by what does, from a later store on. -/
theorem Closes.bind (h : Closes g x R) (hf : ∀ k a, g ≤ k → R k a → Closes k (f a) S) :
    Closes g (x >>= f) S := by
  rintro σ closed rfl
  refine Ends.bind (h σ closed rfl) ?_
  rintro a τ ⟨grown, kind⟩
  refine Ends.mono (hf _ a grown.gap kind τ grown.closed rfl) ?_ ?_
  · exact fun b υ h => ⟨grown.trans h.1, h.2⟩
  · exact fun e υ h => ⟨grown.trans h.1, h.2⟩

/-- A question may come first. -/
theorem Inspects.then (h : Inspects g x P) (hf : ∀ a, P a → Closes g (f a) S) : Closes g (x >>= f) S := by
  intro σ closed same
  rcases h σ closed same with ⟨a, ended, kind⟩ | ⟨c, raised⟩
  · exact Ends.congr (bind_ok ended) (hf a kind σ closed same)
  · refine Ends.of_eq_error (bind_error raised) ⟨closed.grows, ?_⟩
    rintro error ⟨⟩
    exact covers_error c

theorem Closes.mono {R' : Gap → α → Prop} (h : Closes g x R) (hr : ∀ k a, g ≤ k → R k a → R' k a) :
    Closes g x R' := by
  rintro σ closed rfl
  exact Ends.imp (h σ closed rfl) fun a τ ⟨grown, kind⟩ => ⟨grown, hr _ a grown.gap kind⟩

theorem closes_ite {c : Prop} [Decidable c] (yes : Closes g x R) (no : Closes g y R) :
    Closes g (if c then x else y) R := by
  split
  · exact yes
  · exact no

theorem closes_catching {handle : Value → Eval α} (hb : Closes g x R)
    (hh : ∀ k e, g ≤ k → k.Covers e → Closes k (handle e) R) : Closes g (Trace.catching x handle) R := by
  rintro σ closed rfl
  refine ends_catching.mpr (Ends.mono (hb σ closed rfl) (fun _ _ h => h) ?_)
  rintro e τ ⟨grown, covered⟩
  cases e with
  | raised error =>
    dsimp only
    split
    · refine Ends.mono (hh _ error grown.gap (covered error rfl) τ grown.closed rfl) ?_ ?_
      · exact fun b υ h => ⟨grown.trans h.1, h.2⟩
      · exact fun e υ h => ⟨grown.trans h.1, h.2⟩
    · exact ⟨grown, covered⟩
  | endless => exact ⟨grown, covered⟩

/-- Changes that give out no numbers. -/
theorem closes_modify {change : Store → Store} (h : ∀ σ : Store, σ.Closed → σ.gap = g →
    (change σ).Closed ∧ (change σ).tracers = σ.tracers ∧ (change σ).gap = g) :
    Closes g (modify change) fun _ _ => True := by
  rintro σ closed rfl
  obtain ⟨closed', tracers, same⟩ := h σ closed rfl
  exact ⟨⟨closed', tracers, same.ge⟩, trivial⟩

end Judgements

/-! ### Identities -/

/-- The numbers that are given out when so many objects are there. -/
def Gap.upTo (g : Gap) (n : Nat) : Gap := { g with object := n }

theorem upTo_le {g : Gap} {m n : Nat} (le : m ≤ n) : g.upTo m ≤ g.upTo n := ⟨Nat.le_refl _, Nat.le_refl _, le⟩

section Identify

variable {g : Gap}

theorem covers_made {v : Value} {n : Nat} (h : (g.upTo n).Covers v) : (g.upTo (n + 1)).Covers (.object n v) :=
  covers_object.mpr ⟨Nat.lt_succ_self n, h.mono (upTo_le (Nat.le_succ n))⟩

mutual

theorem covers_identify : ∀ (v : Value) {n : Nat}, (g.upTo n).Covers v →
    (g.upTo (v.identify n).2).Covers (v.identify n).1
  | .none, _, h | .bool _, _, h | .int _, _, h | .float _, _, h | .str _, _, h | .object _ _, _, h
  | .parser _, _, h | .echo _, _, h => h
  | .lineColumn _ _ _, _, h | .behaviour _, _, h | .closure _ _ _ _ _, _, h | .pattern _, _, h | .path _, _, h
  | .moment _, _, h | .handler _, _, h | .source _ _, _, h | .renderer _ _, _, h | .error _, _, h => covers_made h
  | .list items, n, h => covers_made (covers_list.mpr (covers_identifyAll items (covers_list.mp h)))
  | .tuple items, n, h => by
    unfold Value.identify
    split
    · exact covers_tuple.mpr fun _ member => nomatch member
    · exact covers_made (covers_tuple.mpr (covers_identifyAll items (covers_tuple.mp h)))
  | .set items, n, h => covers_made (covers_set.mpr (covers_identifyAll items (covers_set.mp h)))
  | .dict entries, n, h => covers_made (covers_dict.mpr (covers_identifyEntries entries (covers_dict.mp h)))
  | .result a b c, n, h | .mark a b c, n, h | .mismatch a b c _, n, h => by
    simp only [covers_result, covers_mark, covers_mismatch] at h
    obtain ⟨ha, hb, hc⟩ := h
    have la := le_identify a n
    have lb := le_identify b (a.identify n).2
    have lc := le_identify c (b.identify (a.identify n).2).2
    have a' := (covers_identify a ha).mono (upTo_le (lb.trans lc))
    have b' := (covers_identify b (hb.mono (upTo_le la))).mono (upTo_le lc)
    have c' := covers_identify c (hc.mono (upTo_le (la.trans lb)))
    refine covers_made ?_
    simp only [covers_result, covers_mark, covers_mismatch]
    exact ⟨a', b', c'⟩
  | .settings a b c d e, n, h => by
    obtain ⟨ha, hb, hc, hd, he⟩ := covers_settings.mp h
    have la := le_identify a n
    have lb := le_identify b (a.identify n).2
    have lc := le_identify c (b.identify (a.identify n).2).2
    have ld := le_identify d (c.identify (b.identify (a.identify n).2).2).2
    have le := le_identify e (d.identify (c.identify (b.identify (a.identify n).2).2).2).2
    have a' := (covers_identify a ha).mono (upTo_le (((lb.trans lc).trans ld).trans le))
    have b' := (covers_identify b (hb.mono (upTo_le la))).mono (upTo_le ((lc.trans ld).trans le))
    have c' := (covers_identify c (hc.mono (upTo_le (la.trans lb)))).mono (upTo_le (ld.trans le))
    have d' := (covers_identify d (hd.mono (upTo_le ((la.trans lb).trans lc)))).mono (upTo_le le)
    have e' := covers_identify e (he.mono (upTo_le (((la.trans lb).trans lc).trans ld)))
    exact covers_made (covers_settings.mpr ⟨a', b', c', d', e'⟩)

theorem covers_identifyAll : ∀ (vs : List Value) {n : Nat}, (∀ v ∈ vs, (g.upTo n).Covers v) →
    ∀ v ∈ (Value.identifyAll vs n).1, (g.upTo (Value.identifyAll vs n).2).Covers v
  | [], _, _ => fun _ member => nomatch member
  | v :: rest, n, h => by
    obtain ⟨first, later⟩ := List.forall_mem_cons.mp h
    have le := le_identify v n
    have all := covers_identifyAll rest fun w member => (later w member).mono (upTo_le le)
    refine List.forall_mem_cons.mpr ⟨?_, all⟩
    exact (covers_identify v first).mono (upTo_le (le_identifyAll rest _))

theorem covers_identifyEntries : ∀ (es : List (Value × Value)) {n : Nat},
    (∀ e ∈ es, (g.upTo n).Covers e.1 ∧ (g.upTo n).Covers e.2) →
    ∀ e ∈ (Value.identifyEntries es n).1, (g.upTo (Value.identifyEntries es n).2).Covers e.1 ∧
      (g.upTo (Value.identifyEntries es n).2).Covers e.2
  | [], _, _ => fun _ member => nomatch member
  | (k, v) :: rest, n, h => by
    obtain ⟨⟨hk, hv⟩, later⟩ := List.forall_mem_cons.mp h
    have lk := le_identify k n
    have lv := le_identify v (k.identify n).2
    have lr := le_identifyEntries rest (v.identify (k.identify n).2).2
    have k' := (covers_identify k hk).mono (upTo_le (lv.trans lr))
    have v' := (covers_identify v (hv.mono (upTo_le lk))).mono (upTo_le lr)
    refine List.forall_mem_cons.mpr ⟨⟨k', v'⟩, covers_identifyEntries rest fun e member => ?_⟩
    exact ⟨(later e member).1.mono (upTo_le (lk.trans lv)), (later e member).2.mono (upTo_le (lk.trans lv))⟩

end

end Identify

/-! ### Changes of the store -/

section Changes

variable {g : Gap} {v w : Value} {σ : Store}

theorem EchoState.CoveredBy.mono {s : EchoState} {k : Gap} (h : s.CoveredBy g) (le : g ≤ k) : s.CoveredBy k :=
  ⟨h.context.mono le, h.padIfShort.mono le, h.onEnter.mono le, h.onExit.mono le, h.color.mono le, h.depth.mono le⟩

/-- A change after which everything was there before or refers to what is there. -/
theorem Store.Closed.change {τ : Store} (closed : σ.Closed) (le : σ.gap ≤ τ.gap)
    (edits : ∀ e ∈ τ.edits, e ∈ σ.edits ∨ e.1 < τ.nextObject ∧ τ.gap.Covers e.2)
    (parsers : ∀ (p : ParserId) (s : ParserState), τ.parser? p = some s →
      σ.parser? p = some s ∨ τ.gap.Covers s.behaviour ∧ τ.gap.Covers s.displayName)
    (echoes : ∀ (e : HandlerId) (s : EchoState), τ.echoes[e]? = some s →
      σ.echoes[e]? = some s ∨ s.CoveredBy τ.gap)
    (scopes : ∀ names ∈ τ.scopes, names ∈ σ.scopes ∨ ∀ n ∈ names, τ.gap.Covers n.2)
    (tracers : ∀ h ∈ τ.tracers, h ∈ σ.tracers ∨ τ.gap.Covers h) : τ.Closed where
  edits e member := (edits e member).elim
    (fun old => ⟨Nat.lt_of_lt_of_le (closed.edits e old).1 le.2.2, (closed.edits e old).2.mono le⟩) id
  parsers p s there := (parsers p s there).elim
    (fun old => ⟨(closed.parsers p s old).1.mono le, (closed.parsers p s old).2.mono le⟩) id
  echoes e s there := (echoes e s there).elim (fun old => (closed.echoes e s old).mono le) id
  scopes names member := (scopes names member).elim
    (fun old n inside => (closed.scopes names old n inside).mono le) id
  tracers h member := (tracers h member).elim (fun old => (closed.tracers h old).mono le) id
  primitives := Nat.le_trans closed.primitives le.1

theorem closes_share (h : g.Covers v) : Closes g v.share Gap.Covers := by
  rintro σ closed rfl
  have later : σ.gap ≤ σ.gap.upTo (v.identify σ.nextObject).2 :=
    ⟨Nat.le_refl _, Nat.le_refl _, le_identify v _⟩
  have covered : (σ.gap.upTo σ.nextObject).Covers v := h
  refine ⟨⟨?_, rfl, later⟩, covers_identify v covered⟩
  exact closed.change later (fun _ => .inl) (fun _ _ => .inl) (fun _ _ => .inl) (fun _ => .inl) fun _ => .inl

/-- Changes of what values do not refer to. -/
theorem closes_modify_aside {change : Store → Store}
    (h : ∀ σ, ∃ printed logged notes journal, change σ = { σ with printed, logged, notes, journal }) :
    Closes g (modify change) fun _ _ => True := by
  refine closes_modify fun σ closed same => ?_
  obtain ⟨printed, logged, notes, journal, changed⟩ := h σ
  rw [changed]
  refine ⟨?_, rfl, same⟩
  exact closed.change le_rfl (fun _ => .inl) (fun _ _ => .inl) (fun _ _ => .inl) (fun _ => .inl) fun _ => .inl

theorem closes_printLine (line : String) : Closes g (printLine line) fun _ _ => True :=
  closes_modify_aside fun _ => ⟨_, _, _, _, rfl⟩

theorem setIfInBounds_cases {α : Type} {xs : Array α} {x a : α} {i j : Nat}
    (there : (xs.setIfInBounds i x)[j]? = some a) : xs[j]? = some a ∨ a = x := by
  rw [Array.getElem?_setIfInBounds] at there
  split at there
  · split at there
    · exact .inr (Option.some.inj there).symm
    · cases there
  · exact .inl there

/-- Setting parts of a printing handler keeps the store closed. -/
theorem Store.Closed.setEcho (closed : σ.Closed) {s : EchoState} (h : s.CoveredBy σ.gap) (e : HandlerId) :
    (σ.setEcho e s).Closed ∧ (σ.setEcho e s).gap = σ.gap := by
  have same : (σ.setEcho e s).gap = σ.gap := by
    simp only [Store.gap, Store.setEcho, Array.size_setIfInBounds]
  refine ⟨?_, same⟩
  refine closed.change same.ge (fun _ => .inl) (fun _ _ => .inl) (fun e' s' there => ?_) (fun _ => .inl)
    fun _ => .inl
  refine (setIfInBounds_cases there).imp_right ?_
  rintro rfl
  exact same ▸ h

/-- So does setting the parts of a parser. -/
theorem Store.Closed.setParser (closed : σ.Closed) {s : ParserState} (hb : σ.gap.Covers s.behaviour)
    (hn : σ.gap.Covers s.displayName) (p : ParserId) :
    (σ.setParser p s).Closed ∧ (σ.setParser p s).gap = σ.gap := by
  have same : (σ.setParser p s).gap = σ.gap := by
    simp only [Store.gap, Store.setParser, Array.size_setIfInBounds]
  refine ⟨?_, same⟩
  refine closed.change same.ge (fun _ => .inl) (fun p' s' there => ?_) (fun _ _ => .inl) (fun _ => .inl)
    fun _ => .inl
  refine (setIfInBounds_cases there).imp_right ?_
  rintro rfl
  exact ⟨same ▸ hb, same ▸ hn⟩

end Changes

end Rebind
