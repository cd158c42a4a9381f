import Rebind.Parser.Run
/-!
# How evaluations end

An evaluation ends with a value or with a fault, and in both cases with a store.  `Ends` says what
holds then.  A `Course` is a way in which the store may change while an evaluation goes on; whatever
only reads the store keeps to every course, so a course is checked for the few steps that write.
-/
namespace Rebind

/-- What holds where an evaluation ends: of the value that it returns and the store, or of the fault
and the store. -/
def Ends {α : Type} (x : Eval α) (σ : Store) (P : α → Store → Prop)
    (F : Fault → Store → Prop) : Prop :=
  match x σ with
  | .ok a τ => P a τ
  | .error e τ => F e τ

section Ends

variable {α β : Type} {σ : Store} {P : α → Store → Prop} {Q : β → Store → Prop}
  {F : Fault → Store → Prop}

@[simp] theorem ends_pure {a : α} : Ends (pure a) σ P F ↔ P a σ := Iff.rfl

@[simp] theorem ends_throw {e : Fault} : Ends (throw e) σ P F ↔ F e σ := Iff.rfl

@[simp] theorem ends_raise {c : Cause} :
    Ends (raise c) σ P F ↔ F (.raised (.error c)) σ := Iff.rfl

@[simp] theorem ends_modify {f : Store → Store} {P : Unit → Store → Prop} :
    Ends (modify f) σ P F ↔ P () (f σ) := Iff.rfl

/-- The rule for one evaluation after another. -/
theorem Ends.bind {x : Eval α} {f : α → Eval β} (h : Ends x σ P F)
    (hf : ∀ a τ, P a τ → Ends (f a) τ Q F) : Ends (x >>= f) σ Q F := by
  simp only [Ends, Bind.bind, EStateM.bind] at h hf ⊢
  cases hx : x σ with
  | ok a τ =>
    rw [hx] at h
    exact hf a τ h
  | error e τ =>
    rw [hx] at h
    exact h

/-- What is known of an end may be weakened. -/
theorem Ends.mono {x : Eval α} {P' : α → Store → Prop} {F' : Fault → Store → Prop}
    (h : Ends x σ P F) (hp : ∀ a τ, P a τ → P' a τ)
    (hf : ∀ e τ, F e τ → F' e τ) : Ends x σ P' F' := by
  simp only [Ends] at h ⊢
  cases hx : x σ with
  | ok a τ =>
    rw [hx] at h
    exact hp a τ h
  | error e τ =>
    rw [hx] at h
    exact hf e τ h

/-- What is known where an evaluation returns is weakened, and nothing else. -/
theorem Ends.imp {x : Eval α} {P' : α → Store → Prop} (h : Ends x σ P F)
    (hp : ∀ a τ, P a τ → P' a τ) : Ends x σ P' F := h.mono hp fun _ _ gaveUp => gaveUp

theorem Ends.ok {x : Eval α} {a : α} {τ : Store} (h : Ends x σ P F) (hx : x σ = .ok a τ) :
    P a τ := by
  simpa [Ends, hx] using h

theorem Ends.error {x : Eval α} {e : Fault} {τ : Store} (h : Ends x σ P F)
    (hx : x σ = .error e τ) : F e τ := by
  simpa [Ends, hx] using h

theorem Ends.of_eq_ok {x : Eval α} {a : α} {τ : Store} (hx : x σ = .ok a τ) (h : P a τ) :
    Ends x σ P F := by
  simpa [Ends, hx] using h

theorem Ends.of_eq_error {x : Eval α} {e : Fault} {τ : Store} (hx : x σ = .error e τ) (h : F e τ) :
    Ends x σ P F := by
  simpa [Ends, hx] using h

/-- What is known of an end in two ways. -/
theorem Ends.and {x : Eval α} {P' : α → Store → Prop} {F' : Fault → Store → Prop} (h : Ends x σ P F)
    (h' : Ends x σ P' F') : Ends x σ (fun a τ => P a τ ∧ P' a τ) fun e τ => F e τ ∧ F' e τ := by
  simp only [Ends] at h h' ⊢
  split <;> simp_all

theorem Ends.congr {x y : Eval α} (same : x σ = y σ) (h : Ends y σ P F) : Ends x σ P F := by
  simpa [Ends, same] using h

/-- A handler of errors runs on ordinary errors only. -/
theorem ends_catching {x : Eval α} {handle : Value → Eval α} :
    Ends (Trace.catching x handle) σ P F ↔
      Ends x σ P fun e τ => match e with
        | .raised error => if error.isOrdinary then Ends (handle error) τ P F else F (.raised error) τ
        | .endless => F .endless τ := by
  simp only [Ends, Trace.catching]
  cases x σ with
  | ok a τ => rfl
  | error e τ =>
    cases e with
    | endless => rfl
    | raised error => by_cases ordinary : error.isOrdinary = true <;> simp [ordinary]

/-- Every end but an endless one is put on record. -/
theorem ends_recording {x : Eval α} {report : Except Value α → Trace.Report} :
    Ends (Trace.recording x report) σ P F ↔
      Ends x σ (fun a τ => P a (τ.record (report (.ok a)))) fun e τ => match e with
        | .raised error => F (.raised error) (τ.record (report (.error error)))
        | .endless => F .endless τ := by
  simp only [Ends, Trace.recording]
  cases x σ with
  | ok a τ => rfl
  | error e τ => cases e <;> rfl

/-- The tracer is removed however the evaluation ends. -/
theorem ends_andFinally_popTracer {x : Eval α} :
    Ends (Behave.andFinally x Behave.popTracer) σ P F ↔
      Ends x σ (fun a τ => P a { τ with tracers := τ.tracers.drop 1 })
        fun e τ => F e { τ with tracers := τ.tracers.drop 1 } := by
  simp only [Ends, Behave.andFinally]
  cases x σ <;> rfl

end Ends

/-- What follows an evaluation of which is known what it returns. -/
theorem bind_ok {α β : Type} {x : Eval α} {f : α → Eval β} {σ τ : Store} {a : α} (h : x σ = .ok a τ) :
    (x >>= f) σ = f a τ := by
  simp only [Bind.bind, EStateM.bind, h]

theorem bind_error {α β : Type} {x : Eval α} {f : α → Eval β} {σ τ : Store} {e : Fault}
    (h : x σ = .error e τ) : (x >>= f) σ = .error e τ := by
  simp only [Bind.bind, EStateM.bind, h]

/-- What follows a look at the store. -/
theorem bind_get {α : Type} (f : Store → Eval α) (σ : Store) : (get >>= f) σ = f σ σ := rfl

theorem modify_eq (f : Store → Store) (σ : Store) : (modify f : Eval Unit) σ = .ok () (f σ) := rfl

theorem Ends.bind_ok {α β : Type} {x : Eval α} {f : α → Eval β} {σ τ : Store} {a : α}
    {Q : β → Store → Prop} {F : Fault → Store → Prop} (h : x σ = .ok a τ) (hf : Ends (f a) τ Q F) :
    Ends (x >>= f) σ Q F := by
  simpa only [Ends, Rebind.bind_ok h] using hf

/-- However an evaluation is given up. -/
def anyhow : Fault → Store → Prop := fun _ _ => True

theorem ends_anyhow {α : Type} (x : Eval α) (σ : Store) : Ends x σ (fun a τ => x σ = .ok a τ) anyhow := by
  unfold Ends
  split
  · next a τ ended => exact ended
  · exact trivial

/-- Where only what is returned in the end matters, a step may end as it likes. -/
theorem ends_after {α β : Type} {x : Eval α} {f : α → Eval β} {σ : Store} {Q : β → Store → Prop}
    (h : ∀ a τ, x σ = .ok a τ → Ends (f a) τ Q anyhow) : Ends (x >>= f) σ Q anyhow :=
  (ends_anyhow x σ).bind h

/-! ### Runs and calls -/

/-- What can be called in some way. -/
def Value.IsFunction : Value → Prop
  | .behaviour _ | .parser _ | .closure _ _ _ _ _ => True
  | _ => False

def Value.IsClosure : Value → Prop
  | .closure _ _ _ _ _ => True
  | _ => False

section Runs

variable {host : Host} {m : Machine} {σ : Store} {p : ParserId} (text i env : Value)

/-- Without a tracer, a run does what the parser does at present, on the machine below. -/
theorem run_untraced (h : σ.tracers = []) :
    (m.above host).run p text i env σ = runCurrent host m p text i env σ := by
  simp only [Machine.above, runParser, bind_get, h]

/-- The innermost tracer hears of a run. -/
theorem run_traced {handler : Value} {rest : List Value} (h : σ.tracers = handler :: rest) :
    (m.above host).run p text i env σ =
      Trace.report m handler (.parser p) (runCurrent host m p) text i env σ := by
  simp only [Machine.above, runParser, bind_get, h]

/-- A run of a parser calls its behaviour with text, index and environment. -/
theorem runCurrent_some {s : ParserState} (h : σ.parser? p = some s) :
    runCurrent host m p text i env σ = invoke host m s.behaviour [text, i, env] σ := by
  have now : currentBehaviour p σ = .ok s.behaviour σ := by
    simp only [currentBehaviour, bind_get, h]
    rfl
  exact bind_ok now

theorem runCurrent_none (h : σ.parser? p = none) :
    runCurrent host m p text i env σ = raise .missingAttribute σ := by
  have now : currentBehaviour p σ = raise .missingAttribute σ := by
    simp only [currentBehaviour, bind_get, h]
  exact bind_error now

/-- Functions of the user are left to the host. -/
theorem invoke_closure {f : Value} (h : f.content.IsClosure) (arguments : List Value) :
    invoke host m f arguments = host.apply m f arguments := by
  cases made : f.content with
  | closure =>
    unfold invoke
    rw [made]
  | _ =>
    rw [made] at h
    exact h.elim

/-- What cannot be called is refused. -/
theorem invoke_other {f : Value} (h : ¬ f.content.IsFunction) (arguments : List Value) :
    invoke host m f arguments = raise .wrongType := by
  cases made : f.content with
  | behaviour | parser | closure =>
    rw [made] at h
    exact absurd trivial h
  | _ =>
    unfold invoke
    rw [made]

end Runs

/-- A parser of the store is one. -/
theorem parserOf_eq {function : String} {σ : Store} {p : ParserId} (inside : p < σ.parsers.size) :
    Grammar.parserOf function (.parser p) σ = .ok p σ := by
  have isOne : isParser (.parser p) σ = .ok true σ := by
    simp only [isParser, Store.isParser, inside, decide_true]
  simp only [Grammar.parserOf, Bind.bind, EStateM.bind, isOne]
  rfl

/-! ### Machines of every height -/

/-- Machines of every height share values as the host does. -/
theorem machine_share (host : Host) (rounds depth : Nat) :
    (machine host rounds depth).share = host.share := by
  cases depth <;> rfl

theorem machine_rounds (host : Host) (rounds depth : Nat) : (machine host rounds depth).rounds = rounds := by
  induction depth with
  | zero => rfl
  | succ depth ih => exact ih

/-- An evaluation that always returns and leaves the store as it is. -/
def Asks {α : Type} (x : Eval α) : Prop := ∀ σ, ∃ a, x σ = .ok a σ

theorem asks_pure {α : Type} (a : α) : Asks (pure a) := fun _ => ⟨a, rfl⟩

/-- Questions may follow each other. -/
theorem Asks.bind {α β : Type} {x : Eval α} {f : α → Eval β} (h : Asks x) (hf : ∀ a, Asks (f a)) :
    Asks (x >>= f) := by
  intro σ
  obtain ⟨a, first⟩ := h σ
  obtain ⟨b, second⟩ := hf a σ
  exact ⟨b, by simp only [Bind.bind, EStateM.bind, first, second]⟩

theorem asks_view (v : Value) : Asks (view v) := fun _ => ⟨_, rfl⟩

theorem asks_get : Asks (get : Eval Store) := fun _ => ⟨_, rfl⟩

theorem asks_truthy (v : Value) : Asks (truthy v) := (asks_view v).bind fun _ => asks_pure _

theorem asks_hearsErrors (handler : Value) : Asks (Trace.hearsErrors handler) := by
  refine (asks_view handler).bind fun w => ?_
  split
  · exact asks_pure _
  · split <;> exact asks_pure _
  · exact asks_pure _

theorem asks_showsResults (handler : Value) : Asks (Trace.showsResults handler) := by
  refine (asks_view handler).bind fun w => ?_
  split
  · refine asks_get.bind fun σ => ?_
    split
    · exact asks_truthy _
    · exact asks_pure _
  · exact asks_pure _

/-- A way in which the store may change in the course of an evaluation, also of one that is given up by
a fault that counts. -/
structure Course where
  leads : Store → Store → Prop
  refl : ∀ σ, leads σ σ
  trans : ∀ {σ τ υ}, leads σ τ → leads τ υ → leads σ υ
  counts : Fault → Prop := fun _ => True

namespace Course

/-- The course in which nothing changes. -/
def still : Course where
  leads σ τ := τ = σ
  refl _ := rfl
  trans first second := second.trans first

variable (K : Course) {α β : Type}

/-- An evaluation that changes the store in this way only, whether it returns or is given up. -/
def Keeps (x : Eval α) : Prop :=
  ∀ σ, Ends x σ (fun _ τ => K.leads σ τ) (fun e τ => K.counts e → K.leads σ τ)

@[simp] theorem keeps_pure (a : α) : K.Keeps (pure a) := fun σ => K.refl σ

@[simp] theorem keeps_throw (e : Fault) : K.Keeps (throw e : Eval α) := fun σ _ => K.refl σ

@[simp] theorem keeps_raise (c : Cause) : K.Keeps (raise c : Eval α) := fun σ _ => K.refl σ

variable {K} in
theorem keeps_bind {x : Eval α} {f : α → Eval β} (h : K.Keeps x) (hf : ∀ a, K.Keeps (f a)) :
    K.Keeps (x >>= f) := by
  intro σ
  simp only [Ends, Bind.bind, EStateM.bind]
  have first := h σ
  cases hx : x σ with
  | ok a τ =>
    have step := first.ok hx
    have second := hf a τ
    cases hy : f a τ with
    | ok b υ =>
      simp only [hy]
      exact K.trans step (second.ok hy)
    | error e υ =>
      simp only [hy]
      intro ended
      exact K.trans step (second.error hy ended)
  | error e τ => exact first.error hx

@[simp] theorem keeps_map (f : α → β) (x : Eval α) : K.Keeps (f <$> x) ↔ K.Keeps x := by
  refine forall_congr' fun σ => ?_
  simp only [Ends, Functor.map, EStateM.map]
  cases x σ <;> rfl

/-- What looks at the store and returns leaves it as it is. -/
theorem keeps_look (f : Store → α) : K.Keeps (fun σ => .ok (f σ) σ) := fun σ => K.refl σ

theorem keeps_modify {f : Store → Store} (h : ∀ σ, K.leads σ (f σ)) : K.Keeps (modify f) :=
  fun σ => h σ

@[simp] theorem keeps_get : K.Keeps (get : Eval Store) := K.keeps_look id

@[simp] theorem keeps_view (v : Value) : K.Keeps (view v) := K.keeps_look _

@[simp] theorem keeps_isParser (v : Value) : K.Keeps (isParser v) := K.keeps_look _

@[simp] theorem keeps_shown (v : Value) : K.Keeps (shown v) := K.keeps_look _

@[simp] theorem keeps_textOf (v : Value) : K.Keeps (textOf v) := K.keeps_look _

@[simp] theorem keeps_literalOf (v : Value) : K.Keeps (literalOf v) := K.keeps_look _

theorem keeps_ite {c : Prop} [Decidable c] {x y : Eval α} (hx : K.Keeps x) (hy : K.Keeps y) :
    K.Keeps (if c then x else y) := by
  split
  · exact hx
  · exact hy

/-! ### Operations on values -/

@[simp] theorem keeps_truthy (v : Value) : K.Keeps (truthy v) :=
  keeps_bind (K.keeps_view v) fun _ => K.keeps_pure _

@[simp] theorem keeps_lengthOf (v : Value) : K.Keeps (lengthOf v) := by
  refine keeps_bind (K.keeps_view v) fun w => ?_
  split <;> simp

@[simp] theorem keeps_equalTo (v w : Value) : K.Keeps (equalTo v w) :=
  keeps_bind (K.keeps_shown v) fun _ => keeps_bind (K.keeps_shown w) fun _ => K.keeps_pure _

@[simp] theorem keeps_checkKey (v : Value) : K.Keeps (checkKey v) := by
  refine keeps_bind (K.keeps_shown v) fun d => ?_
  split <;> simp

@[simp] theorem keeps_entryOf (key : Value) (entries : List (Value × Value)) :
    K.Keeps (entryOf key entries) := by
  induction entries with
  | nil => exact K.keeps_pure _
  | cons entry rest ih =>
    refine keeps_bind (K.keeps_equalTo entry.1 key) fun found => ?_
    exact K.keeps_ite (K.keeps_pure _) ih

@[simp] theorem keeps_offsetOf (v : Value) : K.Keeps (offsetOf v) := by
  refine keeps_bind (K.keeps_view v) fun w => ?_
  split <;> simp

@[simp] theorem keeps_boundOf (v : Value) : K.Keeps (boundOf v) := by
  refine keeps_bind (K.keeps_view v) fun w => ?_
  split
  · exact K.keeps_pure _
  · split <;> simp

@[simp] theorem keeps_present (found : Option α) : K.Keeps (present found) := by
  cases found <;> simp [present]

@[simp] theorem keeps_itemOf (v i : Value) : K.Keeps (itemOf v i) := by
  refine keeps_bind (K.keeps_view v) fun w => ?_
  split
  · refine keeps_bind (K.keeps_offsetOf i) fun n => ?_
    exact keeps_bind (K.keeps_present _) fun _ => K.keeps_pure _
  · exact keeps_bind (K.keeps_offsetOf i) fun n => K.keeps_present _
  · exact keeps_bind (K.keeps_offsetOf i) fun n => K.keeps_present _
  · refine keeps_bind (K.keeps_checkKey i) fun _ => ?_
    refine keeps_bind (K.keeps_entryOf i _) fun found => ?_
    split <;> simp
  · exact K.keeps_raise _

@[simp] theorem keeps_sliceOf (v lo hi : Value) : K.Keeps (sliceOf v lo hi) := by
  have bounds : ∀ (f : Option Int → Option Int → Value),
      K.Keeps (do return f (← boundOf lo) (← boundOf hi)) := fun f =>
    keeps_bind (K.keeps_boundOf lo) fun _ => keeps_bind (K.keeps_boundOf hi) fun _ => K.keeps_pure _
  refine keeps_bind (K.keeps_view v) fun w => ?_
  split
  · exact bounds _
  · exact bounds _
  · exact bounds _
  · exact K.keeps_raise _

@[simp] theorem keeps_itemsOf (v : Value) : K.Keeps (itemsOf v) := by
  refine keeps_bind (K.keeps_view v) fun w => ?_
  split <;> simp

@[simp] theorem keeps_lessThan (v w : Value) : K.Keeps (lessThan v w) := by
  refine keeps_bind (K.keeps_view v) fun a => keeps_bind (K.keeps_view w) fun b => ?_
  split
  · exact K.keeps_pure _
  · refine keeps_bind (K.keeps_shown _) fun c => keeps_bind (K.keeps_shown _) fun d => ?_
    split <;> simp

@[simp] theorem keeps_atMost (v w : Value) : K.Keeps (atMost v w) := by
  refine keeps_bind (K.keeps_view v) fun a => keeps_bind (K.keeps_view w) fun b => ?_
  split
  · exact K.keeps_pure _
  · split <;> simp

@[simp] theorem keeps_applicable (v : Option Value) : K.Keeps (applicable v) := by
  cases v <;> simp [applicable]

@[simp] theorem keeps_addTo (v w : Value) : K.Keeps (addTo v w) := by
  refine keeps_bind (K.keeps_view v) fun a => keeps_bind (K.keeps_view w) fun b => ?_
  split <;> simp

@[simp] theorem keeps_subtractFrom (v w : Value) : K.Keeps (subtractFrom v w) :=
  keeps_bind (K.keeps_view v) fun _ => keeps_bind (K.keeps_view w) fun _ => K.keeps_applicable _

@[simp] theorem keeps_joinWith (between : String) (v : Value) : K.Keeps (joinWith between v) := by
  refine keeps_bind (K.keeps_itemsOf v) fun items => ?_
  dsimp only
  split <;> simp

@[simp] theorem keeps_require (function kind : String) (v : Value) (ok : Bool) :
    K.Keeps (require function kind v ok) := by
  unfold require
  split
  · exact K.keeps_pure _
  · exact keeps_bind (K.keeps_literalOf v) fun _ => K.keeps_raise _

/-! ### Results, places and attributes -/

@[simp] theorem keeps_resultOf (v : Value) : K.Keeps (resultOf v) := by
  unfold resultOf
  split <;> simp

@[simp] theorem keeps_furthest (r : Result) : K.Keeps (furthest r) :=
  keeps_bind (K.keeps_truthy _) fun _ => K.keeps_pure _

@[simp] theorem keeps_mergeOver (candidate previous : Value) :
    K.Keeps (mergeOver candidate previous) := by
  unfold mergeOver
  split
  · exact K.keeps_pure _
  · refine keeps_bind (K.keeps_resultOf candidate) fun c => ?_
    refine keeps_bind (K.keeps_truthy _) fun succeeded => K.keeps_ite (K.keeps_pure _) ?_
    refine keeps_bind (K.keeps_resultOf previous) fun p => ?_
    refine keeps_bind (K.keeps_furthest p) fun reached => ?_
    refine keeps_bind (K.keeps_lessThan _ _) fun before => K.keeps_ite (K.keeps_pure _) ?_
    refine keeps_bind (K.keeps_lessThan _ _) fun behind => K.keeps_ite (K.keeps_pure _) ?_
    exact keeps_bind (K.keeps_addTo _ _) fun _ => K.keeps_pure _

@[simp] theorem keeps_lineColumnOf (text offset : Value) : K.Keeps (lineColumnOf text offset) := by
  refine keeps_bind (K.keeps_view text) fun w => ?_
  split
  · exact keeps_bind (K.keeps_boundOf offset) fun _ => K.keeps_pure _
  · exact keeps_bind (K.keeps_sliceOf _ _ _) fun _ => K.keeps_raise _

@[simp] theorem keeps_placeOf (text offset : Value) : K.Keeps (placeOf text offset) := by
  refine keeps_bind (K.keeps_lineColumnOf text offset) fun w => ?_
  split <;> simp

@[simp] theorem keeps_expectedText (expected : Value) : K.Keeps (expectedText expected) := by
  refine keeps_bind ?_ fun v => K.keeps_textOf v
  refine keeps_bind (K.keeps_lengthOf expected) fun n => K.keeps_ite (K.keeps_itemOf _ _) ?_
  exact keeps_bind (K.keeps_joinWith _ _) fun _ => K.keeps_pure _

@[simp] theorem keeps_parserOf (function : String) (v : Value) :
    K.Keeps (Grammar.parserOf function v) := by
  refine keeps_bind (K.keeps_isParser v) fun ok => ?_
  refine keeps_bind (K.keeps_require _ _ _ _) fun _ => ?_
  split <;> simp

@[simp] theorem keeps_attributeOf (v : Value) (name : String) : K.Keeps (attributeOf v name) := by
  refine keeps_bind (K.keeps_view v) fun w => ?_
  split <;> try simp only [keeps_pure, keeps_raise]
  · exact keeps_bind K.keeps_get fun _ => K.keeps_pure _
  · exact keeps_bind K.keeps_get fun _ => K.keeps_pure _
  · exact keeps_bind (K.keeps_truthy _) fun _ => K.keeps_pure _
  · unfold attributeOf.attributeOfResult
    split <;> simp
  · unfold attributeOf.attributeOfResult
    split <;> simp
  · refine keeps_bind K.keeps_get fun τ => ?_
    split <;> simp
  · split <;> simp

@[simp] theorem keeps_withDots (snippet : Value) : K.Keeps (withDots snippet) := by
  refine keeps_bind (K.keeps_view snippet) fun w => ?_
  split <;> simp

@[simp] theorem keeps_gotText (text index context : Value) : K.Keeps (gotText text index context) := by
  have quoted : ∀ snippet, K.Keeps (do return "'" ++ (← textOf snippet) ++ "'") := fun snippet =>
    keeps_bind (K.keeps_textOf snippet) fun _ => K.keeps_pure _
  refine keeps_bind (K.keeps_lengthOf text) fun size => keeps_bind (K.keeps_atMost _ _) fun past => ?_
  refine K.keeps_ite (K.keeps_pure _) (keeps_bind (K.keeps_addTo _ _) fun stop => ?_)
  refine keeps_bind (K.keeps_sliceOf _ _ _) fun snippet => keeps_bind (K.keeps_subtractFrom _ _) fun left => ?_
  refine keeps_bind (K.keeps_lessThan _ _) fun more => ?_
  exact K.keeps_ite (keeps_bind (K.keeps_withDots _) quoted) (keeps_bind (K.keeps_pure _) quoted)

@[simp] theorem keeps_newSource (text name : Value) : K.Keeps (newSource text name) := by
  refine keeps_bind (K.keeps_view text) fun w => ?_
  split <;> simp

@[simp] theorem keeps_renderFailure (color context text outcome name : Value) :
    K.Keeps (renderFailure color context text outcome name) := by
  refine keeps_bind (K.keeps_newSource _ _) fun source => ?_
  split
  · refine keeps_bind (K.keeps_pure _) fun lines => keeps_bind (K.keeps_attributeOf _ _) fun index => ?_
    refine keeps_bind (K.keeps_placeOf _ _) fun place => ?_
    refine keeps_bind (K.keeps_attributeOf _ _) fun v => keeps_bind (K.keeps_expectedText v) fun expected => ?_
    refine keeps_bind (K.keeps_textOf _) fun name => keeps_bind (K.keeps_gotText _ _ _) fun got => ?_
    exact keeps_bind (K.keeps_truthy _) fun _ => K.keeps_pure _
  · exact K.keeps_raise _

end Course

end Rebind
