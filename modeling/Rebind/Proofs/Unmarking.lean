import Mathlib.Data.List.Forall2
import Rebind.Proofs.Extension
import Rebind.Proofs.Frame
/-!
# Marks can be erased

Wrapping nodes of a grammar in `mark` or `mark_line_column` adds marks to what is read and does nothing else.
A grammar and one with some of its nodes wrapped, each in a store of its own, match the same texts up to the
same places and fail with the same failures, and the value of the one is that of the other with the marks
that were added taken off.  Each of these marks holds the place where the wrapped node was run and the place
where its result ended.

Nodes below the forbidden side of an `exclude` are left out: their values are shown in what was expected.
-/
namespace Rebind

open Attempt

/-! ### Evaluations abreast -/

/-- Two evaluations that leave their stores as they are where they return and end alike, unless one of them
met a limit of its machine; then nothing is said of the other one. -/
def Abreast {α β : Type} (limits limits' : Fault → Prop) (σ σ' : Store) (x : Eval α) (y : Eval β)
    (R : α → β → Prop) : Prop :=
  match x σ, y σ' with
  | .ok a τ, .ok b τ' => τ = σ ∧ τ' = σ' ∧ R a b
  | .error e _, .error e' _ => e = e' ∨ limits e ∨ limits' e'
  | .error e _, .ok _ _ => limits e
  | .ok _ _, .error e' _ => limits' e'

section Abreast

variable {α β γ δ : Type} {limits limits' : Fault → Prop} {σ σ' : Store} {x : Eval α} {y : Eval β}
  {R : α → β → Prop}

theorem abreast_pure {a : α} {b : β} (h : R a b) : Abreast limits limits' σ σ' (pure a) (pure b) R :=
  ⟨rfl, rfl, h⟩

theorem abreast_throw (e : Fault) : Abreast limits limits' σ σ' (throw e) (throw e) R := .inl rfl

/-- A limit that the first evaluation met excuses both. -/
theorem abreast_left {e : Fault} {τ : Store} (met : x σ = .error e τ) (limit : limits e) :
    Abreast limits limits' σ σ' x y R := by
  simp only [Abreast, met]
  cases y σ' with
  | ok b τ' => exact limit
  | error e' τ' => exact .inr (.inl limit)

/-- A limit that the second evaluation met excuses both. -/
theorem abreast_right {e : Fault} {τ : Store} (met : y σ' = .error e τ) (limit : limits' e) :
    Abreast limits limits' σ σ' x y R := by
  simp only [Abreast, met]
  cases x σ with
  | ok a τ' => exact limit
  | error e' τ' => exact .inr (.inr limit)

/-- Evaluations abreast may be followed by such. -/
theorem Abreast.bind {f : α → Eval γ} {g : β → Eval δ} {Q : γ → δ → Prop}
    (h : Abreast limits limits' σ σ' x y R)
    (hf : ∀ a b, R a b → Abreast limits limits' σ σ' (f a) (g b) Q) :
    Abreast limits limits' σ σ' (x >>= f) (y >>= g) Q := by
  simp only [Abreast] at h
  cases hx : x σ with
  | ok a τ =>
    cases hy : y σ' with
    | ok b τ' =>
      rw [hx, hy] at h
      obtain ⟨rfl, rfl, related⟩ := h
      have next := hf a b related
      simp only [Abreast, bind_ok hx, bind_ok hy]
      exact next
    | error e' τ' =>
      rw [hx, hy] at h
      exact abreast_right (bind_error hy) h
  | error e τ =>
    cases hy : y σ' with
    | ok b τ' =>
      rw [hx, hy] at h
      exact abreast_left (bind_error hx) h
    | error e' τ' =>
      rw [hx, hy] at h
      simp only [Abreast, bind_error hx, bind_error hy]
      exact h

/-- What is known of the two values may be weakened. -/
theorem Abreast.mono {Q : α → β → Prop} (h : Abreast limits limits' σ σ' x y R)
    (hr : ∀ a b, R a b → Q a b) : Abreast limits limits' σ σ' x y Q := by
  simp only [Abreast] at h ⊢
  cases hx : x σ with
  | ok a τ =>
    rw [hx] at h
    cases hy : y σ' with
    | ok b τ' =>
      rw [hy] at h
      exact ⟨h.1, h.2.1, hr a b h.2.2⟩
    | error e' τ' =>
      rw [hy] at h
      exact h
  | error e τ =>
    rw [hx] at h
    cases hy : y σ' with
    | ok b τ' =>
      rw [hy] at h
      exact h
    | error e' τ' =>
      rw [hy] at h
      exact h

/-- Only what the evaluations do in their stores matters. -/
theorem Abreast.congr {x' : Eval α} {y' : Eval β} (h : Abreast limits limits' σ σ' x' y' R)
    (left : x σ = x' σ) (right : y σ' = y' σ') : Abreast limits limits' σ σ' x y R := by
  simp only [Abreast] at h ⊢
  rw [left, right]
  exact h

/-- The second evaluation alone goes on without a limit. -/
theorem abreast_of_ok {b : β} (h : y σ' = .ok b σ') {g : β → Eval δ} {Q : α → δ → Prop}
    (next : Abreast limits limits' σ σ' x (g b) Q) : Abreast limits limits' σ σ' x (y >>= g) Q :=
  next.congr rfl (bind_ok h)

end Abreast

/-! ### Results of two runs -/

/-- The results of two runs on a text that ended at the same place, with values that are related for this
place, or failed in the same way. -/
inductive Both (length : Nat) (V : Nat → Value → Value → Prop) : Value → Value → Prop
  | matched {k : Nat} {v v' : Value} (within : k ≤ length) (h : V k v v') :
    Both length V (matched k v).value (matched k v').value
  | missed {place : Int} (expected : List String) (h : 0 ≤ place) :
    Both length V (missed place expected).value (missed place expected).value

/-- What two runs read one after the other, each from where the one before it ended. -/
inductive Each (V : ParserId → ParserId → Nat → Nat → Value → Value → Prop) :
    List ParserId → List ParserId → Nat → Nat → List Value → List Value → Prop
  | nil {i : Nat} : Each V [] [] i i [] []
  | cons {p p' : ParserId} {ps ps' : List ParserId} {i j k : Nat} {v v' : Value} {vs vs' : List Value}
    (head : V p p' i j v v') (tail : Each V ps ps' j k vs vs') :
    Each V (p :: ps) (p' :: ps') i k (v :: vs) (v' :: vs')

/-- The values that two behaviours of one kind make of what their parts read. -/
inductive Made (V : ParserId → ParserId → Nat → Nat → Value → Value → Prop) (text : List Char) :
    Behaviour Value → Behaviour Value → Nat → Nat → Value → Value → Prop
  | leaf {b : Behaviour Value} {i k : Nat} {v : Value} (h : b.leaf? text i = some (.matched k v)) :
    Made V text b b i k v v
  | sequence {ps ps' : List ParserId} {i k : Nat} {vs vs' : List Value} (h : Each V ps ps' i k vs vs') :
    Made V text (.sequence ps) (.sequence ps') i k (.list vs) (.list vs')
  | alternative {ps ps' : List ParserId} {p p' : ParserId} {i k : Nat} {v v' : Value}
    (choice : (p, p') ∈ ps.zip ps') (h : V p p' i k v v') :
    Made V text (.alternative ps) (.alternative ps') i k v v'
  | repetition {p p' : ParserId} {least most : Count} {n i k : Nat} {vs vs' : List Value}
    (h : Each V (List.replicate n p) (List.replicate n p') i k vs vs') :
    Made V text (.repetition p least most) (.repetition p' least most) i k (.list vs) (.list vs')
  | exclude {p p' q q' : ParserId} {i k : Nat} {v v' : Value} (h : V p p' i k v v') :
    Made V text (.exclude p q) (.exclude p' q') i k v v'
  | describe {p p' : ParserId} {d : String} {i k : Nat} {v v' : Value} (h : V p p' i k v v') :
    Made V text (.describe p d) (.describe p' d) i k v v'
  | mark {p p' : ParserId} {i k : Nat} {a b c a' b' c' : Value}
    (h : V p p' i k (.list [a, b, c]) (.list [a', b', c'])) :
    Made V text (.mark p) (.mark p') i k (.mark a b c) (.mark a' b' c')

/-- A value becomes the first one if some of the marks in it are replaced by what they mark. -/
inductive Value.Unmarked : Value → Value → Prop
  | same {v : Value} : Unmarked v v
  | list {vs vs' : List Value} (h : List.Forall₂ Unmarked vs vs') : Unmarked (.list vs) (.list vs')
  | mark {a b c a' b' c' : Value} (start : Unmarked a a') (value : Unmarked b b') (stop : Unmarked c c') :
    Unmarked (.mark a b c) (.mark a' b' c')
  | replaced {start v v' stop : Value} (h : Unmarked v v') : Unmarked v (.mark start v' stop)

/-- What the parser that frames a wrapped node on both sides reads: offsets, or lines and columns. -/
inductive FrameKind where
  | offsets
  | lines

namespace FrameKind

def parser : FrameKind → ParserId
  | offsets => indexParser
  | lines => lineColumnParser

def behaviour : FrameKind → Behaviour Value
  | offsets => .index
  | lines => .lineColumnIndex

def read (text : List Char) (i : Nat) : FrameKind → Value
  | offsets => .int i
  | lines => .lineColumn (.int i) (.int (Text.position text (some i)).1)
    (.int (Text.position text (some i)).2)

end FrameKind

/-- The value of a node and the value that the grammar with wrapped nodes gives in its place, where the node
was run at one place and ended at another one: they are made in the same way of what their parts read, and
where the node is wrapped there is a mark around the second with just these two places. -/
inductive Erases (σ σ' : Store) (text : List Char) :
    ParserId → ParserId → Nat → Nat → Value → Value → Prop
  | same {p p' : ParserId} {b b' : Behaviour Value} {i k : Nat} {v v' : Value}
    (does : σ.behaviour? p = some b) (does' : σ'.behaviour? p' = some b')
    (made : Made (Erases σ σ' text) text b b' i k v v') : Erases σ σ' text p p' i k v v'
  | wrapped {p p' f q : ParserId} {b b' : Behaviour Value} {i k : Nat} {v v' : Value} (frame : FrameKind)
    (marks : σ'.behaviour? p' = some (.mark f))
    (framed : σ'.behaviour? f = some (.sequence [frame.parser, q, frame.parser]))
    (does : σ.behaviour? p = some b) (does' : σ'.behaviour? q = some b')
    (made : Made (Erases σ σ' text) text b b' i k v v') :
    Erases σ σ' text p p' i k v (.mark (frame.read text i) v' (frame.read text k))

/-- Parts that were read one after the other. -/
theorem Each.append {V : ParserId → ParserId → Nat → Nat → Value → Value → Prop}
    {ps ps' qs qs' : List ParserId} {i j k : Nat} {vs vs' ws ws' : List Value} (h : Each V ps ps' i j vs vs')
    (next : Each V qs qs' j k ws ws') : Each V (ps ++ qs) (ps' ++ qs') i k (vs ++ ws) (vs' ++ ws') := by
  induction h with
  | nil => exact next
  | cons head _ ih => exact .cons head (ih next)

/-! ### Behaviours over nodes that were wrapped -/

/-- What has become of a behaviour where nodes were wrapped: one of the same kind over nodes that are paired.
What an `exclude` forbids is paired more strictly, and a mark that was there before is one still. -/
inductive Behaviour.Rebuilt (σ σ' : Store) (node strict : ParserId → ParserId → Prop)
    (held : Value → Prop) : Behaviour Value → Behaviour Value → Prop
  | primitive {b : Behaviour Value} (h : b.IsPrimitive)
    (groups : ∀ r group, b = .regex r group → group ≤ r.groupCount) : Rebuilt σ σ' node strict held b b
  | succeed {v : Value} (h : held v) : Rebuilt σ σ' node strict held (.succeed v) (.succeed v)
  | sequence {ps ps' : List ParserId} (h : List.Forall₂ node ps ps') :
    Rebuilt σ σ' node strict held (.sequence ps) (.sequence ps')
  | alternative {ps ps' : List ParserId} (some : ps ≠ []) (h : List.Forall₂ node ps ps') :
    Rebuilt σ σ' node strict held (.alternative ps) (.alternative ps')
  | repetition {p p' : ParserId} {least most : Count} (h : node p p') :
    Rebuilt σ σ' node strict held (.repetition p least most) (.repetition p' least most)
  | exclude {p p' q q' : ParserId} (allowed : node p p') (forbidden : strict q q') :
    Rebuilt σ σ' node strict held (.exclude p q) (.exclude p' q')
  | describe {p p' : ParserId} {d : String} (h : node p p') :
    Rebuilt σ σ' node strict held (.describe p d) (.describe p' d)
  | mark {f f' x y z x' y' z' : ParserId} (h : node f f') (three : σ.behaviour? f = some (.sequence [x, y, z]))
    (three' : σ'.behaviour? f' = some (.sequence [x', y', z'])) :
    Rebuilt σ σ' node strict held (.mark f) (.mark f')

/-- Machines on which paired nodes run abreast on a text. -/
structure Machines.Alongside (limits limits' : Fault → Prop) (σ σ' : Store)
    (node : ParserId → ParserId → Prop) (V : ParserId → ParserId → Nat → Nat → Value → Value → Prop)
    (s : String) (env : Value) (m m' : Machine) : Prop where
  rounds : m'.rounds = m.rounds
  run : ∀ {p p' : ParserId} {i : Nat}, node p p' → i ≤ s.toList.length →
    Abreast limits limits' σ σ' (m.run p (.str s) (.int i) env) (m'.run p' (.str s) (.int i) env)
      (Both s.toList.length (V p p' i))

section Loops

variable {limits limits' : Fault → Prop} {σ σ' : Store} {node strict : ParserId → ParserId → Prop}
  {V : ParserId → ParserId → Nat → Nat → Value → Value → Prop} {s : String} {env : Value} {m m' : Machine}

theorem abreast_sequenceFrom (same : Machines.Alongside limits limits' σ σ' node V s env m m')
    {ps ps' : List ParserId} (h : List.Forall₂ node ps ps') {previous previous' : Value}
    (passive : Passive previous) (passive' : Passive previous') (values values' : List Value) {i : Nat}
    (start : i ≤ s.toList.length) :
    Abreast limits limits' σ σ' (Behave.sequenceFrom m (.str s) env ps previous values (.int i))
      (Behave.sequenceFrom m' (.str s) env ps' previous' values' (.int i))
      (Both s.toList.length fun k v v' => ∃ vs vs', v = .list (values ++ vs) ∧ v' = .list (values' ++ vs') ∧
        Each V ps ps' i k vs vs') := by
  induction h generalizing previous previous' values values' i with
  | nil =>
    have last : ∀ (m : Machine) (values : List Value) (previous : Value),
        Behave.sequenceFrom m (.str s) env [] previous values (.int i) =
          pure (matched i (.list values)).value := fun _ values previous => mergeOver_matched i _ previous
    rw [last, last]
    exact abreast_pure (.matched start ⟨[], [], by simp, by simp, .nil⟩)
  | @cons p p' ps ps' head _ ih =>
    unfold Behave.sequenceFrom
    refine (same.run head start).bind fun a b both => ?_
    cases both with
    | @matched j v v' within read =>
      simp only [mergeOver_matched, resultOf_matched, truthy_bool, pure_bind, if_true]
      refine (ih (passive_matched j v) (passive_matched j v') (values ++ [v]) (values' ++ [v'])
        within).mono fun a b both => ?_
      cases both with
      | matched within collected =>
        obtain ⟨vs, vs', rfl, rfl, each⟩ := collected
        exact .matched within ⟨v :: vs, v' :: vs', by simp, by simp, .cons read each⟩
      | missed expected inside => exact .missed expected inside
    | missed expected inside =>
      simp only [passive _ expected inside, passive' _ expected inside, resultOf_missed, truthy_bool,
        pure_bind, Bool.false_eq_true, if_false]
      exact abreast_pure (.missed expected inside)

theorem abreast_sequence (same : Machines.Alongside limits limits' σ σ' node V s env m m')
    {ps ps' : List ParserId} (h : List.Forall₂ node ps ps') {i : Nat} (start : i ≤ s.toList.length) :
    Abreast limits limits' σ σ' (Behave.sequence m ps (.str s) (.int i) env)
      (Behave.sequence m' ps' (.str s) (.int i) env)
      (Both s.toList.length (Made V s.toList (.sequence ps) (.sequence ps') i)) := by
  refine (abreast_sequenceFrom same h passive_none passive_none [] [] start).mono fun a b both => ?_
  cases both with
  | matched within collected =>
    obtain ⟨vs, vs', rfl, rfl, each⟩ := collected
    exact .matched within (.sequence each)
  | missed expected inside => exact .missed expected inside

theorem abreast_alternativeFrom (same : Machines.Alongside limits limits' σ σ' node V s env m m')
    {ps ps' : List ParserId} (h : List.Forall₂ node ps ps') (earlier : Option (Int × List String))
    (before : ∀ failure, earlier = some failure → 0 ≤ failure.1) (given : ps = [] → earlier.isSome) {i : Nat}
    (start : i ≤ s.toList.length) :
    Abreast limits limits' σ σ'
      (Behave.alternativeFrom m (.str s) (.int i) env ps (failureValue earlier))
      (Behave.alternativeFrom m' (.str s) (.int i) env ps' (failureValue earlier))
      (Both s.toList.length fun k v v' => ∃ p p', (p, p') ∈ ps.zip ps' ∧ V p p' i k v v') := by
  induction h generalizing earlier with
  | nil =>
    cases earlier with
    | none => exact absurd (given rfl) (by simp)
    | some failure => exact abreast_pure (.missed failure.2 (before failure rfl))
  | @cons p p' ps ps' head _ ih =>
    unfold Behave.alternativeFrom
    refine (same.run head start).bind fun a b both => ?_
    cases both with
    | matched within read =>
      simp only [mergeOver_matched, resultOf_matched, truthy_bool, pure_bind, if_true]
      exact abreast_pure (.matched within ⟨p, p', by simp, read⟩)
    | @missed place expected inside =>
      have merged : ∀ failure, some (after place expected earlier) = some failure → 0 ≤ failure.1 := by
        rintro _ ⟨⟩
        exact after_nonneg inside before
      have rest := ih (some (after place expected earlier)) merged fun _ => rfl
      simp only [mergeOver_missed, pure_bind]
      have parts : resultOf (failureValue (some (after place expected earlier))) = _ :=
        resultOf_missed _ _
      simp only [parts, truthy_bool, pure_bind, Bool.false_eq_true, if_false]
      refine rest.mono fun a b both => ?_
      cases both with
      | matched within chosen =>
        obtain ⟨q, q', member, read⟩ := chosen
        exact .matched within ⟨q, q', by simp [member], read⟩
      | missed expected inside => exact .missed expected inside

/-- Where the rounds that had to succeed have led on both sides. -/
def Behave.Progress.Both (length : Nat) (V : Nat → List Value → List Value → Prop) :
    Behave.Progress → Behave.Progress → Prop
  | .failed r, .failed r' => ∃ place expected, 0 ≤ place ∧ r = (missed place expected).value ∧ r' = r
  | .reached index us, .reached index' us' => ∃ k : Nat, k ≤ length ∧ index = .int k ∧ index' = .int k ∧
    V k us us'
  | _, _ => False

theorem abreast_requiredRounds (same : Machines.Alongside limits limits' σ σ' node V s env m m')
    {p p' : ParserId} (known : node p p') (n : Nat) {previous previous' : Value}
    (passive : Passive previous) (passive' : Passive previous') (values values' : List Value) {i : Nat}
    (start : i ≤ s.toList.length) :
    Abreast limits limits' σ σ' (Behave.requiredRounds m p (.str s) env n previous values (.int i))
      (Behave.requiredRounds m' p' (.str s) env n previous' values' (.int i))
      (Behave.Progress.Both s.toList.length fun k us us' => ∃ vs vs', us = values ++ vs ∧
        us' = values' ++ vs' ∧ Each V (List.replicate n p) (List.replicate n p') i k vs vs') := by
  induction n generalizing previous previous' values values' i with
  | zero => exact abreast_pure ⟨i, start, rfl, rfl, [], [], by simp, by simp, .nil⟩
  | succ n ih =>
    unfold Behave.requiredRounds
    refine (same.run known start).bind fun a b both => ?_
    cases both with
    | @matched j v v' within read =>
      simp only [mergeOver_matched, resultOf_matched, truthy_bool, pure_bind, if_true]
      refine (ih (passive_matched j v) (passive_matched j v') (values ++ [v]) (values' ++ [v'])
        within).mono fun progress progress' both => ?_
      cases progress with
      | failed r => cases progress' with
        | failed r' => exact both
        | reached index' us' => exact both.elim
      | reached index us => cases progress' with
        | failed r' => exact both.elim
        | reached index' us' =>
          obtain ⟨k, inside, here, here', vs, vs', us, us', each⟩ := both
          exact ⟨k, inside, here, here', v :: vs, v' :: vs', by simp [us], by simp [us'], .cons read each⟩
    | missed expected inside =>
      simp only [passive _ expected inside, passive' _ expected inside, resultOf_missed, truthy_bool,
        pure_bind, Bool.false_eq_true, if_false]
      exact abreast_pure ⟨_, expected, inside, rfl, rfl⟩

theorem abreast_optionalRounds (same : Machines.Alongside limits limits' σ σ' node V s env m m')
    {p p' : ParserId} (known : node p p') (fuel : Nat) (values values' : List Value) {i : Nat}
    (start : i ≤ s.toList.length) :
    Abreast limits limits' σ σ' (Behave.optionalRounds m p (.str s) env fuel values (.int i))
      (Behave.optionalRounds m' p' (.str s) env fuel values' (.int i))
      (fun reached reached' => ∃ stopped k n vs vs', k ≤ s.toList.length ∧
        reached = (stopped, .int (k : Nat), values ++ vs) ∧ reached' = (stopped, .int k, values' ++ vs') ∧
        Each V (List.replicate n p) (List.replicate n p') i k vs vs') := by
  induction fuel generalizing values values' i with
  | zero => exact abreast_pure ⟨false, i, 0, [], [], start, by simp, by simp, .nil⟩
  | succ fuel ih =>
    unfold Behave.optionalRounds
    refine (same.run known start).bind fun a b both => ?_
    cases both with
    | @matched j v v' within read =>
      simp only [resultOf_matched, truthy_bool, pure_bind, if_true]
      refine (ih (values ++ [v]) (values' ++ [v']) within).mono ?_
      rintro _ _ ⟨stopped, k, n, vs, vs', inside, rfl, rfl, each⟩
      exact ⟨stopped, k, n + 1, v :: vs, v' :: vs', inside, by simp, by simp, .cons read each⟩
    | missed expected inside =>
      simp only [resultOf_missed, truthy_bool, pure_bind, Bool.false_eq_true, if_false]
      exact abreast_pure ⟨true, i, 0, [], [], start, by simp, by simp, .nil⟩

theorem abreast_repetition (same : Machines.Alongside limits limits' σ σ' node V s env m m')
    {p p' : ParserId} (known : node p p') (least most : Count) {i : Nat} (start : i ≤ s.toList.length) :
    Abreast limits limits' σ σ' (Behave.repetition m p least most (.str s) (.int i) env)
      (Behave.repetition m' p' least most (.str s) (.int i) env)
      (Both s.toList.length (Made V s.toList (.repetition p least most) (.repetition p' least most) i)) := by
  unfold Behave.repetition
  rw [same.rounds]
  refine (abreast_requiredRounds same known _ passive_none passive_none [] [] start).bind ?_
  intro progress progress' both
  match progress, progress', both with
  | .failed _, .failed _, ⟨place, expected, inside, here, here'⟩ =>
    subst here here'
    exact abreast_pure (.missed expected inside)
  | .reached _ us, .reached _ us', ⟨j, within, here, here', _, _, all, all', required⟩ =>
    rw [List.nil_append] at all all'
    subst here here' all all'
    dsimp only
    cases Behave.roundsBeyond 0 least with
    | none => exact abreast_throw .endless
    | some n =>
      unfold Behave.moreRounds
      rw [same.rounds]
      refine (abreast_optionalRounds same known _ us us' within).bind ?_
      rintro _ _ ⟨stopped, k, n', vs, vs', inside, rfl, rfl, optional⟩
      dsimp only
      split
      · exact abreast_throw .endless
      · have rounds := required.append optional
        rw [← List.replicate_add, ← List.replicate_add] at rounds
        exact abreast_pure (.matched inside (.repetition rounds))

/-- What has to be known of the values that paired nodes read so that behaviours over them go on in the same
way: what is forbidden shows alike, and a sequence of three reads three values. -/
structure Telling (σ σ' : Store) (strict : ParserId → ParserId → Prop)
    (V : ParserId → ParserId → Nat → Nat → Value → Value → Prop) : Prop where
  shows : ∀ {q q' : ParserId} {i k : Nat} {v v' : Value}, strict q q' → V q q' i k v v' →
    σ'.snapshot v' = σ.snapshot v
  threes : ∀ {f f' x y z x' y' z' : ParserId} {i k : Nat} {v v' : Value},
    σ.behaviour? f = some (.sequence [x, y, z]) → σ'.behaviour? f' = some (.sequence [x', y', z']) →
    V f f' i k v v' → ∃ a b c a' b' c', v = .list [a, b, c] ∧ v' = .list [a', b', c']

theorem abreast_exclude (same : Machines.Alongside limits limits' σ σ' node V s env m m')
    (telling : Telling σ σ' strict V) {p p' q q' : ParserId} (allowed : node p p') (forbidden : node q q')
    (stricter : strict q q') {i : Nat} (start : i ≤ s.toList.length) :
    Abreast limits limits' σ σ' (Behave.exclude m p q (.str s) (.int i) env)
      (Behave.exclude m' p' q' (.str s) (.int i) env)
      (Both s.toList.length (Made V s.toList (.exclude p q) (.exclude p' q') i)) := by
  have inside : (0 : Int) ≤ i := Int.natCast_nonneg i
  unfold Behave.exclude
  refine (same.run forbidden start).bind fun f f' both => ?_
  cases both with
  | @matched _ v v' _ found =>
    simp only [resultOf_matched, truthy_bool, pure_bind, if_true]
    have shown : Abreast limits limits' σ σ' (textOf v) (textOf v') Eq :=
      ⟨rfl, rfl, congrArg Datum.text (telling.shows stricter found).symm⟩
    refine shown.bind ?_
    rintro words _ rfl
    exact abreast_pure (.missed ["something that is not '" ++ words ++ "'"] inside)
  | missed unwanted _ =>
    simp only [resultOf_missed, truthy_bool, pure_bind, Bool.false_eq_true, if_false]
    refine (same.run allowed start).bind fun a a' both => ?_
    cases both with
    | matched within read =>
      simp only [resultOf_matched, truthy_bool, pure_bind, if_true]
      exact abreast_pure (.matched within (.exclude read))
    | missed wanted _ =>
      simp only [resultOf_missed, truthy_bool, expectedText_texts, pure_bind, Bool.false_eq_true, if_false]
      exact abreast_pure (.missed
        [expectedWords wanted ++ " (except " ++ expectedWords unwanted ++ ")"] inside)

theorem abreast_describe (same : Machines.Alongside limits limits' σ σ' node V s env m m')
    {p p' : ParserId} (known : node p p') (d : String) {i : Nat} (start : i ≤ s.toList.length) :
    Abreast limits limits' σ σ' (Behave.describe m p d (.str s) (.int i) env)
      (Behave.describe m' p' d (.str s) (.int i) env)
      (Both s.toList.length (Made V s.toList (.describe p d) (.describe p' d) i)) := by
  unfold Behave.describe
  refine (same.run known start).bind fun a a' both => ?_
  cases both with
  | matched within read =>
    simp only [resultOf_matched, truthy_bool, pure_bind, if_true]
    exact abreast_pure (.matched within (.describe read))
  | missed expected inside =>
    simp only [resultOf_missed, truthy_bool, pure_bind, Bool.false_eq_true, if_false]
    exact abreast_pure (.missed [d] inside)

theorem abreast_mark (same : Machines.Alongside limits limits' σ σ' node V s env m m')
    (telling : Telling σ σ' strict V) {f f' x y z x' y' z' : ParserId} (known : node f f')
    (three : σ.behaviour? f = some (.sequence [x, y, z]))
    (three' : σ'.behaviour? f' = some (.sequence [x', y', z'])) {i : Nat} (start : i ≤ s.toList.length) :
    Abreast limits limits' σ σ' (Behave.mark m f (.str s) (.int i) env)
      (Behave.mark m' f' (.str s) (.int i) env)
      (Both s.toList.length (Made V s.toList (.mark f) (.mark f') i)) := by
  have threeOf : ∀ a b c, Behave.threeOf (.list [a, b, c]) = pure (a, b, c) := fun _ _ _ => rfl
  unfold Behave.mark
  refine (same.run known start).bind fun a a' both => ?_
  cases both with
  | matched within read =>
    obtain ⟨a, b, c, a', b', c', rfl, rfl⟩ := telling.threes three three' read
    simp only [resultOf_matched, truthy_bool, threeOf, pure_bind, if_true]
    exact abreast_pure (.matched within (.mark read))
  | missed expected inside =>
    simp only [resultOf_missed, truthy_bool, pure_bind, Bool.false_eq_true, if_false]
    exact abreast_pure (.missed expected inside)

theorem abreast_leaf {b : Behaviour Value} {i : Nat} {a : Attempt} (ends : b.leaf? s.toList i = some a)
    (start : i ≤ s.toList.length) :
    Abreast limits limits' σ σ' (behave m b (.str s) (.int i) env) (behave m' b (.str s) (.int i) env)
      (Both s.toList.length (Made V s.toList b b i)) := by
  rw [behave_leaf m env start ends, behave_leaf m' env start ends]
  have within := Behaviour.leaf?_within ends start
  cases a with
  | matched stop v =>
    obtain ⟨k, rfl⟩ := Int.eq_ofNat_of_zero_le (Int.le_trans (Int.natCast_nonneg i) within.1)
    exact abreast_pure (.matched (by have := within.2; omega) (.leaf ends))
  | missed place expected => exact abreast_pure (.missed expected (by have := within.1; omega))

/-- What goes by the text alone comes to an attempt, unless it is a pattern of bytes. -/
theorem Behaviour.IsPrimitive.leaf? {b : Behaviour Value} (h : b.IsPrimitive)
    (groups : ∀ r group, b = .regex r group → group ≤ r.groupCount) (text : List Char) (i : Nat) :
    (∃ a, b.leaf? text i = some a) ∨ ∃ r group, b = .regex r group ∧ r.isBytes = true := by
  cases b with
  | regex r group =>
    by_cases bytes : r.isBytes = true
    · exact .inr ⟨r, group, rfl, bytes⟩
    · have answers := Regex.answers_iff.mpr ⟨by simpa using bytes, groups r group rfl⟩
      exact .inl ⟨_, if_pos answers⟩
  | anyChar | rest | eof | index | lineColumnIndex | fail | string => exact .inl ⟨_, rfl⟩
  | _ => exact h.elim

/-- What behaviours of one kind do over nodes that run abreast. -/
theorem abreast_behave (same : Machines.Alongside limits limits' σ σ' node V s env m m')
    (telling : Telling σ σ' strict V) (stricter : ∀ q q', strict q q' → node q q') {held : Value → Prop}
    {b b' : Behaviour Value} (h : b.Rebuilt σ σ' node strict held b') {i : Nat}
    (start : i ≤ s.toList.length) :
    Abreast limits limits' σ σ' (behave m b (.str s) (.int i) env) (behave m' b' (.str s) (.int i) env)
      (Both s.toList.length (Made V s.toList b b' i)) := by
  cases h with
  | primitive h groups =>
    obtain ⟨a, ends⟩ | ⟨r, group, rfl, bytes⟩ := h.leaf? groups s.toList i
    · exact abreast_leaf ends start
    · simp only [Abreast, behave_bytes m env bytes, behave_bytes m' env bytes]
      exact .inl trivial
  | succeed h => exact abreast_leaf (a := .matched i _) rfl start
  | sequence h => exact abreast_sequence same h start
  | @alternative ps ps' some h =>
    refine (abreast_alternativeFrom same h none (by simp) (fun none => absurd none some) start).mono ?_
    intro a a' both
    cases both with
    | matched within chosen =>
      obtain ⟨p, p', member, read⟩ := chosen
      exact .matched within (.alternative member read)
    | missed expected inside => exact .missed expected inside
  | repetition h => exact abreast_repetition same h _ _ start
  | exclude allowed forbidden =>
    exact abreast_exclude same telling allowed (stricter _ _ forbidden) forbidden start
  | describe h => exact abreast_describe same h _ start
  | mark h three three' => exact abreast_mark same telling h three three' start

end Loops

/-! ### Wrapped nodes -/

/-- Nodes that do things of one kind over paired nodes. -/
structure Unwrapped (σ σ' : Store) (node strict : ParserId → ParserId → Prop) (held : Value → Prop)
    (p p' : ParserId) (b b' : Behaviour Value) : Prop where
  does : σ.behaviour? p = some b
  does' : σ'.behaviour? p' = some b'
  rebuilt : b.Rebuilt σ σ' node strict held b'

/-- A parser that wraps another one in a mark, as the constructors of marks make it. -/
structure Wraps (σ : Store) (frame : FrameKind) (p f q : ParserId) : Prop where
  marks : σ.behaviour? p = some (.mark f)
  framed : σ.behaviour? f = some (.sequence [frame.parser, q, frame.parser])

/-- A built-in behaviour makes a parser more, and leaves those that there are as they were. -/
theorem ends_define (b : Behaviour Value) (name : String) (σ : Store) :
    Ends (Grammar.define b name) σ
      (fun v τ => v = .parser σ.parsers.size ∧ τ.behaviour? σ.parsers.size = some b ∧
        τ.parsers.size = σ.parsers.size + 1 ∧ ∀ p < σ.parsers.size, τ.behaviour? p = σ.behaviour? p)
      fun _ _ => False := by
  let υ : Store := { σ with nextObject := σ.nextObject + 1 }
  have made : Grammar.define b name σ = .ok (.parser σ.parsers.size)
      (υ.withParser ⟨.object σ.nextObject (.behaviour b), .str name⟩) := rfl
  refine Ends.of_eq_ok made ⟨rfl, ?_, Array.size_push _, fun p inside => ?_⟩
  · exact behaviour?_withParser_size (s := ⟨.object σ.nextObject (.behaviour b), .str name⟩) rfl
  · exact behaviour?_withParser_lt (σ := υ) _ inside

/-- The constructors of marks wrap the parser that they are given, and leave all others as they are. -/
theorem framed_wraps (function : String) (frame : FrameKind) {σ : Store} {p : ParserId}
    (there : p < σ.parsers.size) (shared : sharedPrimitives.length ≤ σ.parsers.size) :
    Ends (Grammar.framed function frame.parser (.parser p)) σ
      (fun v τ => ∃ q f, v = .parser q ∧ Wraps τ frame q f p ∧
        ∀ r < σ.parsers.size, τ.behaviour? r = σ.behaviour? r) fun _ _ => False := by
  have framing : frame.parser < σ.parsers.size := by
    refine Nat.lt_of_lt_of_le ?_ shared
    cases frame <;> decide
  refine Ends.bind_ok (parserOf_eq there) ?_
  have sequence : Ends (Grammar.sequence [.parser frame.parser, .parser p, .parser frame.parser]) σ
      (fun v τ => v = .parser σ.parsers.size ∧
        τ.behaviour? σ.parsers.size = some (.sequence [frame.parser, p, frame.parser]) ∧
        τ.parsers.size = σ.parsers.size + 1 ∧ ∀ r < σ.parsers.size, τ.behaviour? r = σ.behaviour? r)
      fun _ _ => False := by
    unfold Grammar.sequence
    simp only [List.mapM_cons, List.mapM_nil, bind_assoc, pure_bind]
    exact Ends.bind_ok (parserOf_eq framing) (Ends.bind_ok (parserOf_eq there)
      (Ends.bind_ok (parserOf_eq framing) (ends_define _ _ σ)))
  refine Ends.bind sequence ?_
  rintro _ τ ⟨rfl, framed, size, kept⟩
  have inner : σ.parsers.size < τ.parsers.size := by omega
  refine Ends.bind_ok (parserOf_eq inner) ?_
  have named : Ends (Grammar.displayName p) τ (fun _ υ => υ = τ) fun _ _ => False := rfl
  refine Ends.bind named ?_
  rintro name _ rfl
  refine Ends.imp (ends_define _ _ _) ?_
  rintro v υ ⟨rfl, marks, _, still⟩
  exact ⟨_, _, rfl, ⟨marks, (still _ (by omega)).trans framed⟩,
    fun r inside => (still r (by omega)).trans (kept r inside)⟩

/-- The value that a forbidden node reads is shown in what was expected. -/
def Value.ShowsAlike (σ σ' : Store) (v : Value) : Prop := σ'.snapshot v = σ.snapshot v

/-- The nodes of a grammar and those of a grammar in which some of them were wrapped, each grammar in a store
of its own.  What is paired strictly was not wrapped and is made of nothing that was.  The shared parsers that
frame have not been replaced. -/
structure Wrapping (σ σ' : Store) (node strict : ParserId → ParserId → Prop) : Prop where
  untraced : σ.tracers = []
  untraced' : σ'.tracers = []
  frames : ∀ frame : FrameKind, σ'.behaviour? frame.parser = some frame.behaviour
  nodes : ∀ p p', node p p' → (∃ b b', Unwrapped σ σ' node strict (fun _ => True) p p' b b') ∨
    ∃ frame f q b b', Wraps σ' frame p' f q ∧ Unwrapped σ σ' node strict (fun _ => True) p q b b'
  stricter : ∀ p p', strict p p' → node p p'
  unwrapped : ∀ p p', strict p p' → ∃ b b', Unwrapped σ σ' strict strict (Value.ShowsAlike σ σ') p p' b b'

/-- What two paired nodes read: the marks that were added can be erased, and there are none where none were
allowed. -/
structure ReadsMarked (σ σ' : Store) (strict : ParserId → ParserId → Prop) (text : List Char) (p p' : ParserId)
    (i k : Nat) (v v' : Value) : Prop where
  erases : Erases σ σ' text p p' i k v v'
  unmarked : v.Unmarked v'
  unwrapped : strict p p' → v' = v ∧ v.ShowsAlike σ σ'

section ReadsMarked

variable {σ σ' : Store} {node strict : ParserId → ParserId → Prop} {text : List Char}
  {V W : ParserId → ParserId → Nat → Nat → Value → Value → Prop} {b b' : Behaviour Value} {i k : Nat}
  {v v' : Value}

theorem Each.mono (wider : ∀ {p p' i k v v'}, V p p' i k v v' → W p p' i k v v') {ps ps' : List ParserId}
    {vs vs' : List Value} (h : Each V ps ps' i k vs vs') : Each W ps ps' i k vs vs' := by
  induction h with
  | nil => exact .nil
  | cons head _ ih => exact .cons (wider head) ih

theorem Made.mono (wider : ∀ {p p' i k v v'}, V p p' i k v v' → W p p' i k v v')
    (h : Made V text b b' i k v v') : Made W text b b' i k v v' := by
  cases h with
  | leaf h => exact .leaf h
  | sequence h => exact .sequence (h.mono wider)
  | alternative choice h => exact .alternative choice (wider h)
  | repetition h => exact .repetition (h.mono wider)
  | exclude h => exact .exclude (wider h)
  | describe h => exact .describe (wider h)
  | mark h => exact .mark (wider h)

/-- A behaviour is rebuilt over more nodes as well. -/
theorem Behaviour.Rebuilt.mono {node' strict' : ParserId → ParserId → Prop} {held held' : Value → Prop}
    (h : b.Rebuilt σ σ' node strict held b') (more : ∀ p p', node p p' → node' p p')
    (stricter : ∀ p p', strict p p' → strict' p p') (wider : ∀ v, held v → held' v) :
    b.Rebuilt σ σ' node' strict' held' b' := by
  cases h with
  | primitive h groups => exact .primitive h groups
  | succeed h => exact .succeed (wider _ h)
  | sequence h => exact .sequence (h.imp more)
  | alternative some h => exact .alternative some (h.imp more)
  | repetition h => exact .repetition (more _ _ h)
  | exclude allowed forbidden => exact .exclude (more _ _ allowed) (stricter _ _ forbidden)
  | describe h => exact .describe (more _ _ h)
  | mark h three three' => exact .mark (more _ _ h) three three'

/-- A list shows alike if its items do. -/
theorem showsAlike_list {vs : List Value} :
    (Value.list vs).ShowsAlike σ σ' ↔ ∀ v ∈ vs, v.ShowsAlike σ σ' := by
  simp only [Value.ShowsAlike, snapshot_list, Datum.list.injEq, List.map_inj_left]

theorem showsAlike_mark {a u c : Value} (h : (Value.list [a, u, c]).ShowsAlike σ σ') :
    (Value.mark a u c).ShowsAlike σ σ' := by
  have parts := showsAlike_list.mp h
  have apart : ∀ τ : Store, τ.snapshot (.mark a u c) =
      .mark (τ.snapshot a) (τ.snapshot u) (τ.snapshot c) := fun _ => rfl
  unfold Value.ShowsAlike at parts ⊢
  rw [apart, apart, parts a (by simp), parts u (by simp), parts c (by simp)]

/-- What a primitive reads shows itself without a look at the store. -/
theorem showsAlike_leaf (primitive : b.IsPrimitive) (h : b.leaf? text i = some (.matched k v)) :
    v.ShowsAlike σ σ' := by
  cases b with
  | anyChar | eof | string =>
    simp only [Behaviour.leaf?] at h
    split at h <;> simp only [Option.some.injEq, Attempt.matched.injEq, reduceCtorEq] at h
    rw [← h.2]
    rfl
  | regex r group =>
    have matched := (Behaviour.leaf?_regex h).2
    split at matched <;> simp only [Attempt.matched.injEq, reduceCtorEq] at matched
    rw [matched.2]
    unfold Regex.Found.groupValue
    split <;> rfl
  | fail d => cases h
  | rest | index | lineColumnIndex =>
    simp only [Behaviour.leaf?, Option.some.injEq, Attempt.matched.injEq] at h
    rw [← h.2]
    rfl
  | _ => exact primitive.elim

/-- Parts under a forbidden node are the same on both sides. -/
theorem Each.unwrapped (equal : ∀ {p p' i k v v'}, strict p p' → V p p' i k v v' →
      v' = v ∧ v.ShowsAlike σ σ') {ps ps' : List ParserId} (h : List.Forall₂ strict ps ps')
    {vs vs' : List Value} (each : Each V ps ps' i k vs vs') :
    vs' = vs ∧ ∀ v ∈ vs, v.ShowsAlike σ σ' := by
  induction each with
  | nil => exact ⟨rfl, by simp⟩
  | cons head _ ih =>
    cases h with
    | cons first rest =>
      obtain ⟨rfl, shows⟩ := equal first head
      obtain ⟨rfl, all⟩ := ih rest
      exact ⟨rfl, by simpa [shows] using all⟩

theorem forall₂_replicate {α β : Type} {R : α → β → Prop} {a : α} {c : β} (h : R a c) (n : Nat) :
    List.Forall₂ R (List.replicate n a) (List.replicate n c) := by
  induction n with
  | zero => exact .nil
  | succ n ih => exact .cons h ih

/-- Where nothing was wrapped, the values are the same. -/
theorem Made.unwrapped (equal : ∀ {p p' i k v v'}, strict p p' → V p p' i k v v' →
      v' = v ∧ v.ShowsAlike σ σ') (h : b.Rebuilt σ σ' strict strict (Value.ShowsAlike σ σ') b')
    (made : Made V text b b' i k v v') : v' = v ∧ v.ShowsAlike σ σ' := by
  cases h with
  | primitive primitive =>
    cases made with
    | leaf h => exact ⟨rfl, showsAlike_leaf primitive h⟩
    | _ => exact primitive.elim
  | succeed shows =>
    cases made with
    | leaf h =>
      obtain ⟨_, rfl⟩ := Attempt.matched.inj (Option.some.inj h)
      exact ⟨rfl, shows⟩
  | sequence all =>
    cases made with
    | leaf h => cases h
    | sequence each =>
      obtain ⟨rfl, shows⟩ := each.unwrapped equal all
      exact ⟨rfl, showsAlike_list.mpr shows⟩
  | alternative _ all =>
    cases made with
    | leaf h => cases h
    | alternative choice read => exact equal (List.forall₂_zip all choice) read
  | repetition known =>
    cases made with
    | leaf h => cases h
    | repetition each =>
      obtain ⟨rfl, shows⟩ := each.unwrapped equal (forall₂_replicate known _)
      exact ⟨rfl, showsAlike_list.mpr shows⟩
  | exclude allowed _ =>
    cases made with
    | leaf h => cases h
    | exclude read => exact equal allowed read
  | describe known =>
    cases made with
    | leaf h => cases h
    | describe read => exact equal known read
  | mark known =>
    cases made with
    | leaf h => cases h
    | mark read =>
      obtain ⟨same, shows⟩ := equal known read
      simp only [Value.list.injEq, List.cons.injEq, and_true] at same
      obtain ⟨rfl, rfl, rfl⟩ := same
      exact ⟨rfl, showsAlike_mark shows⟩

/-- Parts differ in marks alone. -/
theorem Each.unmarked (read : ∀ {p p' i k v v'}, V p p' i k v v' → v.Unmarked v') {ps ps' : List ParserId}
    {vs vs' : List Value} (each : Each V ps ps' i k vs vs') : List.Forall₂ Value.Unmarked vs vs' := by
  induction each with
  | nil => exact .nil
  | cons head _ ih => exact .cons (read head) ih

/-- Marks are only added where the parts read marks that were added. -/
theorem Made.unmarked (read : ∀ {p p' i k v v'}, V p p' i k v v' → v.Unmarked v')
    (made : Made V text b b' i k v v') : v.Unmarked v' := by
  cases made with
  | leaf h => exact .same
  | sequence each | repetition each => exact .list (each.unmarked read)
  | alternative _ h | exclude h | describe h => exact read h
  | mark h =>
    cases read h with
    | same => exact .same
    | list all =>
      simp only [List.forall₂_cons, List.Forall₂.nil, and_true] at all
      exact .mark all.1 all.2.1 all.2.2

end ReadsMarked

/-! ### Runs -/

section Runs

variable {limits limits' : Fault → Prop} {σ σ' : Store} {node strict : ParserId → ParserId → Prop}
  {s : String} {env : Value} {host : Host} {m m' : Machine} {p p' f q : ParserId} {b b' : Behaviour Value}
  {frame : FrameKind} {i : Nat}

/-- What is read with marks tells what is read without them. -/
theorem readsMarked_telling : Telling σ σ' strict (ReadsMarked σ σ' strict s.toList) where
  shows known read := by
    obtain ⟨rfl, shows⟩ := read.unwrapped known
    exact shows
  threes three three' read := by
    cases read.erases with
    | wrapped frame marks => exact absurd (marks.symm.trans three') (by simp)
    | same does does' made =>
      obtain rfl := Option.some.inj (does.symm.trans three)
      obtain rfl := Option.some.inj (does'.symm.trans three')
      cases made with
      | leaf h => cases h
      | sequence each =>
        cases each with
        | cons _ each =>
          cases each with
          | cons _ each =>
            cases each with
            | cons _ each =>
              cases each
              exact ⟨_, _, _, _, _, _, rfl, rfl⟩

/-- One level up: nodes that were not wrapped themselves do abreast what they do over paired nodes. -/
theorem abreast_unwrapped (h : Wrapping σ σ' node strict)
    (same : Machines.Alongside limits limits' σ σ' node (ReadsMarked σ σ' strict s.toList) s env m m')
    {held : Value → Prop} (known : Unwrapped σ σ' node strict held p p' b b')
    (start : i ≤ s.toList.length) :
    Abreast limits limits' σ σ' ((m.above host).run p (.str s) (.int i) env)
      ((m'.above host).run p' (.str s) (.int i) env)
      (Both s.toList.length (Made (ReadsMarked σ σ' strict s.toList) s.toList b b' i)) :=
  (abreast_behave same readsMarked_telling h.stricter known.rebuilt start).congr
    (run_above _ _ _ h.untraced known.does) (run_above _ _ _ h.untraced' known.does')

/-- The parser that frames reads the place where it is run. -/
theorem run_frame (h : Wrapping σ σ' node strict) (frame : FrameKind) (m : Machine) (i : Nat) :
    (m.above host).run frame.parser (.str s) (.int i) env σ' =
      .ok (matched i (frame.read s.toList i)).value σ' := by
  rw [run_above _ _ _ h.untraced' (h.frames frame)]
  cases frame with
  | offsets => rfl
  | lines => rfl

/-- Three levels up: a wrapped node ends where the node ends that it wraps, with the value in a mark. -/
theorem abreast_wrapped (h : Wrapping σ σ' node strict) (wraps : Wraps σ' frame p' f q) {x : Eval Value}
    {V : Nat → Value → Value → Prop}
    (inner : Abreast limits limits' σ σ' x ((m.above host).run q (.str s) (.int i) env)
      (Both s.toList.length V)) :
    Abreast limits limits' σ σ' x ((((m.above host).above host).above host).run p' (.str s) (.int i) env)
      (Both s.toList.length fun k v w => ∃ v', V k v v' ∧
        w = .mark (frame.read s.toList i) v' (frame.read s.toList k)) := by
  have framed : Abreast limits limits' σ σ' x
      (Behave.sequence (m.above host) [frame.parser, q, frame.parser] (.str s) (.int i) env)
      (Both s.toList.length fun k v w => ∃ v', V k v v' ∧
        w = .list [frame.read s.toList i, v', frame.read s.toList k]) := by
    unfold Behave.sequence Behave.sequenceFrom
    refine abreast_of_ok (run_frame h frame m i) ?_
    simp only [mergeOver_none, resultOf_matched, truthy_bool, pure_bind, if_true, List.nil_append]
    unfold Behave.sequenceFrom
    rw [← bind_pure x]
    refine inner.bind fun a b both => ?_
    cases both with
    | @matched k v v' within read =>
      simp only [mergeOver_matched, resultOf_matched, truthy_bool, pure_bind, if_true]
      unfold Behave.sequenceFrom
      refine abreast_of_ok (run_frame h frame m k) ?_
      simp only [mergeOver_matched, resultOf_matched, truthy_bool, pure_bind, if_true]
      have last : Behave.sequenceFrom (m.above host) (.str s) env []
          (matched k (frame.read s.toList k)).value
          ([frame.read s.toList i] ++ [v'] ++ [frame.read s.toList k]) (.int k) = _ :=
        mergeOver_matched k _ _
      rw [last]
      exact abreast_pure (.matched within ⟨v', read, rfl⟩)
    | missed expected inside =>
      simp only [passive_matched _ _ _ expected inside, resultOf_missed, truthy_bool, pure_bind,
        Bool.false_eq_true, if_false]
      exact abreast_pure (.missed expected inside)
  have ran : Abreast limits limits' σ σ' x (((m.above host).above host).run f (.str s) (.int i) env) _ :=
    framed.congr rfl (run_above _ _ _ h.untraced' wraps.framed)
  refine Abreast.congr ?_ rfl (run_above _ _ _ h.untraced' wraps.marks)
  have threeOf : ∀ a b c, Behave.threeOf (.list [a, b, c]) = pure (a, b, c) := fun _ _ _ => rfl
  rw [← bind_pure x]
  refine ran.bind fun a b both => ?_
  cases both with
  | matched within framed =>
    obtain ⟨v', read, rfl⟩ := framed
    simp only [resultOf_matched, truthy_bool, threeOf, pure_bind, if_true]
    exact abreast_pure (.matched within ⟨v', read, rfl⟩)
  | missed expected inside =>
    simp only [resultOf_missed, truthy_bool, pure_bind, Bool.false_eq_true, if_false]
    exact abreast_pure (.missed expected inside)

/-- A wrapped node takes two levels more than the node that it wraps, and its frame one of its own. -/
theorem run_wrapped_tooDeep (h : Wrapping σ σ' node strict) (wraps : Wraps σ' frame p' f q)
    (rounds : Nat) {depth : Nat} (few : depth < 2) :
    ∃ τ, (machine host rounds (depth + 1)).run p' (.str s) (.int i) env σ' =
      .error (.raised (.error .tooDeep)) τ := by
  have above : ∀ m : Machine, (m.above host).run p' (.str s) (.int i) env σ' =
      Behave.mark m f (.str s) (.int i) env σ' := fun m => run_above _ _ _ h.untraced' wraps.marks
  match depth, few with
  | 0, _ => exact ⟨_, above _⟩
  | 1, _ =>
    have refused : (machine host rounds 1).run f (.str s) (.int i) env σ' =
        .error (.raised (.error .tooDeep)) { σ' with overran := true } :=
      run_above _ _ _ h.untraced' wraps.framed
    exact ⟨_, (above _).trans (bind_error refused)⟩

/-- The values of nodes that do things of one kind. -/
theorem readsMarked_same (does : σ.behaviour? p = some b) (does' : σ'.behaviour? p' = some b')
    (unwrapped : strict p p' → b.Rebuilt σ σ' strict strict (Value.ShowsAlike σ σ') b') {k : Nat}
    {v v' : Value} (made : Made (ReadsMarked σ σ' strict s.toList) s.toList b b' i k v v') :
    ReadsMarked σ σ' strict s.toList p p' i k v v' where
  erases := .same does does' (made.mono ReadsMarked.erases)
  unmarked := made.unmarked ReadsMarked.unmarked
  unwrapped known := made.unwrapped (fun known read => read.unwrapped known) (unwrapped known)

/-- One node more, on machines that are one level larger: it needs room for the frame if it is wrapped. -/
theorem abreast_node (h : Wrapping σ σ' node strict) {rounds depth depth' : Nat}
    (room : depth' < 2 → limits' (.raised (.error .tooDeep)))
    (same : ∀ n, depth' ≤ n + 2 → n ≤ depth' → Machines.Alongside limits limits' σ σ' node
      (ReadsMarked σ σ' strict s.toList) s env (machine host rounds depth) (machine host rounds n))
    (known : node p p') (start : i ≤ s.toList.length) :
    Abreast limits limits' σ σ' ((machine host rounds (depth + 1)).run p (.str s) (.int i) env)
      ((machine host rounds (depth' + 1)).run p' (.str s) (.int i) env)
      (Both s.toList.length (ReadsMarked σ σ' strict s.toList p p' i)) := by
  have reads : ∀ {q q' b b'}, σ.behaviour? q = some b → σ'.behaviour? q' = some b' →
      (strict q q' → b.Rebuilt σ σ' strict strict (Value.ShowsAlike σ σ') b') →
      ∀ a a', Both s.toList.length (Made (ReadsMarked σ σ' strict s.toList) s.toList b b' i) a a' →
        Both s.toList.length (ReadsMarked σ σ' strict s.toList q q' i) a a' := by
    intro q q' b b' does does' unwrapped a a' both
    cases both with
    | matched within made => exact .matched within (readsMarked_same does does' unwrapped made)
    | missed expected inside => exact .missed expected inside
  by_cases strictly : strict p p'
  · obtain ⟨b, b', unwrapped⟩ := h.unwrapped p p' strictly
    have loose : Unwrapped σ σ' node strict (fun _ => True) p p' b b' :=
      ⟨unwrapped.does, unwrapped.does', unwrapped.rebuilt.mono h.stricter (fun _ _ known => known)
        fun _ _ => trivial⟩
    exact (abreast_unwrapped h (same depth' (by omega) (Nat.le_refl _)) loose start).mono
      (reads loose.does loose.does' fun _ => unwrapped.rebuilt)
  rcases h.nodes p p' known with ⟨b, b', unwrapped⟩ | ⟨frame, f, q, b, b', wraps, unwrapped⟩
  · exact (abreast_unwrapped h (same depth' (by omega) (Nat.le_refl _)) unwrapped start).mono
      (reads unwrapped.does unwrapped.does' fun known => absurd known strictly)
  · by_cases few : depth' < 2
    · obtain ⟨τ, refused⟩ := run_wrapped_tooDeep h wraps rounds few
      exact abreast_right refused (room few)
    obtain ⟨n, rfl⟩ : ∃ n, depth' = n + 2 := ⟨depth' - 2, by omega⟩
    refine Abreast.mono (abreast_wrapped h wraps
      (abreast_unwrapped h (same n (Nat.le_refl _) (by omega)) unwrapped start)) fun a a' both => ?_
    cases both with
    | matched within marked =>
      obtain ⟨v', made, rfl⟩ := marked
      exact .matched within
        { erases := .wrapped frame wraps.marks wraps.framed unwrapped.does unwrapped.does'
            (made.mono ReadsMarked.erases)
          unmarked := .replaced (made.unmarked ReadsMarked.unmarked)
          unwrapped := fun known => absurd known strictly }
    | missed expected inside => exact .missed expected inside

/-- On a machine that is three times as large, the grammar with wrapped nodes follows the one without. -/
theorem abreast_wrapping (h : Wrapping σ σ' node strict) {rounds depth depth' : Nat}
    (enough : 3 * depth ≤ depth') (known : node p p') (start : i ≤ s.toList.length) :
    Abreast TooDeep (fun _ => False) σ σ' ((machine host rounds depth).run p (.str s) (.int i) env)
      ((machine host rounds depth').run p' (.str s) (.int i) env)
      (Both s.toList.length (ReadsMarked σ σ' strict s.toList p p' i)) := by
  induction depth generalizing depth' p p' i with
  | zero => exact abreast_left (e := .raised (.error .tooDeep)) rfl rfl
  | succ depth ih =>
    obtain ⟨depth', rfl⟩ : ∃ n, depth' = n + 1 := ⟨depth' - 1, by omega⟩
    -- A wrapped node takes three levels: the mark, what it frames, and the node itself.
    refine abreast_node h (by omega) (fun n few _ => ?_) known start
    exact ⟨by rw [machine_rounds, machine_rounds], fun known start => ih (by omega) known start⟩

/-- On a machine of any larger size, the grammar without wrapped nodes follows the one with them. -/
theorem abreast_unwrapping (h : Wrapping σ σ' node strict) {rounds depth depth' : Nat}
    (enough : depth' ≤ depth) (known : node p p') (start : i ≤ s.toList.length) :
    Abreast (fun _ => False) TooDeep σ σ' ((machine host rounds depth).run p (.str s) (.int i) env)
      ((machine host rounds depth').run p' (.str s) (.int i) env)
      (Both s.toList.length (ReadsMarked σ σ' strict s.toList p p' i)) := by
  induction depth' using Nat.strongRecOn generalizing depth p p' i with
  | ind depth' ih =>
  cases depth' with
  | zero => exact abreast_right (e := .raised (.error .tooDeep)) rfl rfl
  | succ depth' =>
    -- The machine on the right may lose three levels at a wrapped node, so the induction is on all smaller ones.
    obtain ⟨depth, rfl⟩ : ∃ n, depth = n + 1 := ⟨depth - 1, by omega⟩
    refine abreast_node h (fun _ => rfl) (fun n _ smaller => ?_) known start
    exact ⟨by rw [machine_rounds, machine_rounds],
      fun known start => ih n (by omega) (by omega) known start⟩

/-- Runs of a node and of what it has become ended alike, but for the marks that were added: at the same
place, or with the same failure, or for the same reason without a result. -/
def EndUnmarked (σ σ' : Store) (text : List Char) (p p' : ParserId) (i : Nat) :
    Except Fault Value → Except Fault Value → Prop
  | .ok r, .ok r' =>
    Both text.length (fun k v v' => Erases σ σ' text p p' i k v v' ∧ v.Unmarked v') r r'
  | .error e, .error e' => e = e'
  | _, _ => False

theorem Abreast.endUnmarked {x y : Eval Value}
    (h : Abreast limits limits' σ σ' x y (Both s.toList.length (ReadsMarked σ σ' strict s.toList p p' i)))
    (left : ∀ e, outcome (x σ) = .error e → ¬ limits e)
    (right : ∀ e, outcome (y σ') = .error e → ¬ limits' e) :
    EndUnmarked σ σ' s.toList p p' i (outcome (x σ)) (outcome (y σ')) := by
  simp only [Abreast] at h
  cases hx : x σ with
  | ok r τ =>
    cases hy : y σ' with
    | ok r' τ' =>
      rw [hx, hy] at h
      cases h.2.2 with
      | matched within read => exact .matched within ⟨read.erases, read.unmarked⟩
      | missed expected inside => exact .missed expected inside
    | error e' τ' =>
      rw [hx, hy] at h
      rw [hy] at right
      exact absurd h (right e' rfl)
  | error e τ =>
    rw [hx] at left
    cases hy : y σ' with
    | ok r' τ' =>
      rw [hx, hy] at h
      exact absurd h (left e rfl)
    | error e' τ' =>
      rw [hx, hy] at h
      rw [hy] at right
      rcases h with same | limit | limit
      · exact same
      · exact absurd limit (left e rfl)
      · exact absurd limit (right e' rfl)

end Runs

/-- Marks can be erased.  Wherever a node is run on a text, it ends at the same place as what it has become by
wrapping, or fails with the same failure, and its value is what is left of the other value when the marks that
were added are replaced by what they mark; each of them holds the places where the wrapped node was run and
where its result ended.  The frames of the marks need room on the machine: if the run of the node was not
nested too deeply, then neither is the other one on a machine that is three times as large, and what was not
nested too deeply with the marks is not without them. -/
theorem run_unmarked {σ σ' : Store} {node strict : ParserId → ParserId → Prop}
    (h : Wrapping σ σ' node strict) {p p' : ParserId} (known : node p p') (s : String) {i : Nat}
    (start : i ≤ s.toList.length) (env : Value) (host : Host) (rounds depth depth' : Nat) :
    let run := outcome ((machine host rounds depth).run p (.str s) (.int i) env σ)
    let run' := outcome ((machine host rounds depth').run p' (.str s) (.int i) env σ')
    (3 * depth ≤ depth' → (∀ e, run = .error e → ¬ TooDeep e) →
        EndUnmarked σ σ' s.toList p p' i run run') ∧
      (depth' ≤ depth → (∀ e, run' = .error e → ¬ TooDeep e) →
        EndUnmarked σ σ' s.toList p p' i run run') := by
  intro run run'
  refine ⟨fun enough fits => ?_, fun enough fits => ?_⟩
  · exact (abreast_wrapping h enough known start).endUnmarked fits fun _ _ => not_false
  · exact (abreast_unwrapping h enough known start).endUnmarked (fun _ _ => not_false) fits

private def uncalledHost : Host := ⟨fun _ _ _ => raise .wrongType, Value.share⟩

/-- Any letter but `a`, followed by an `a`. -/
private def pairReaders : Store :=
  { Store.initial with
    parsers := Store.initial.parsers ++ #[⟨.object 5 (.behaviour (.string "a")), .str "string('a')"⟩,
      ⟨.object 6 (.behaviour (.exclude 0 5)), .str "exclude(any_char, string('a'))"⟩,
      ⟨.object 7 (.behaviour (.sequence [6, 5])), .str "sequence(*2)"⟩]
    nextObject := 8 }

/-- The same with the letter and the `a` after it wrapped; the `a` that the letter may not be is not. -/
private def markedLetters : Store :=
  { Store.initial with
    parsers := Store.initial.parsers ++ #[⟨.object 5 (.behaviour (.string "a")), .str "string('a')"⟩,
      ⟨.object 6 (.behaviour (.exclude 8 5)), .str "exclude(mark(any_char), string('a'))"⟩,
      ⟨.object 7 (.behaviour (.sequence [6, 10])), .str "sequence(*2)"⟩,
      ⟨.object 8 (.behaviour (.mark 9)), .str "mark(any_char)"⟩,
      ⟨.object 9 (.behaviour (.sequence [3, 0, 3])), .str "sequence(*3)"⟩,
      ⟨.object 10 (.behaviour (.mark 11)), .str "mark_line_column(string('a'))"⟩,
      ⟨.object 11 (.behaviour (.sequence [4, 5, 4])), .str "sequence(*3)"⟩]
    nextObject := 12 }

/-- What has become of the parsers of the letters. -/
private def Lettered (p p' : ParserId) : Prop := (p, p') ∈ [(0, 8), (5, 5), (5, 10), (6, 6), (7, 7)]

private theorem letters_wrapping : Wrapping pairReaders markedLetters Lettered fun p p' => p = 5 ∧ p' = 5 where
  untraced := rfl
  untraced' := rfl
  frames frame := by cases frame <;> rfl
  nodes p p' known := by
    simp only [Lettered, List.mem_cons, Prod.mk.injEq, List.not_mem_nil, or_false] at known
    rcases known with ⟨rfl, rfl⟩ | ⟨rfl, rfl⟩ | ⟨rfl, rfl⟩ | ⟨rfl, rfl⟩ | ⟨rfl, rfl⟩
    · exact .inr ⟨.offsets, 9, 0, .anyChar, .anyChar, ⟨rfl, rfl⟩, rfl, rfl, .primitive trivial nofun⟩
    · exact .inl ⟨.string "a", .string "a", rfl, rfl, .primitive trivial nofun⟩
    · exact .inr ⟨.lines, 11, 5, .string "a", .string "a", ⟨rfl, rfl⟩, rfl, rfl, .primitive trivial nofun⟩
    · exact .inl ⟨.exclude 0 5, .exclude 8 5, rfl, rfl, .exclude (by simp [Lettered]) ⟨rfl, rfl⟩⟩
    · exact .inl ⟨.sequence [6, 5], .sequence [6, 10], rfl, rfl,
        .sequence (.cons (by simp [Lettered]) (.cons (by simp [Lettered]) .nil))⟩
  stricter := by
    rintro p p' ⟨rfl, rfl⟩
    simp [Lettered]
  unwrapped := by
    rintro p p' ⟨rfl, rfl⟩
    exact ⟨.string "a", .string "a", rfl, rfl, .primitive trivial nofun⟩

/-- Two letters, each wrapped in a mark on the one side. -/
theorem run_unmarked_letters :
    EndUnmarked pairReaders markedLetters "ba".toList 7 7 0
      (outcome ((machine uncalledHost 9 9).run 7 (.str "ba") (.int (0 : Nat)) .none pairReaders))
      (outcome ((machine uncalledHost 9 27).run 7 (.str "ba") (.int (0 : Nat)) .none markedLetters)) := by
  have ended : outcome ((machine uncalledHost 9 9).run 7 (.str "ba") (.int (0 : Nat)) .none pairReaders) =
      .ok (matched 2 (.list [.str "b", .str "a"])).value := rfl
  refine (run_unmarked letters_wrapping (by simp [Lettered]) "ba" (Nat.zero_le _) .none _ 9 9 27).1
    (Nat.le_refl _) fun e same => ?_
  cases ended.symm.trans same

end Rebind
