import Rebind.Proofs.Courses
/-!
# What handlers are told

Whatever a grammar does, a run leaves the active tracers as it found them, and what handlers are told
nests like brackets: an `enter` that returned is closed by one `exit` with the result of the behaviour
or by one `abort` with its error, and an `enter` that raised an error is not closed at all.  It stays open
only where the handler, as it was when the error was raised, had no `abort`, or where the error was no
ordinary one, of which no handler hears.  Handlers may raise errors at every call.  The functions of the user
are arbitrary apart from leaving tracers and reports alone; they may run parsers, and so may handlers.
-/
namespace Rebind.Trace

/-- What a handler is given for a value: the value itself, or the value with identities given to its
parts. -/
def Handed (v w : Value) : Prop := w = v ∨ ∃ σ τ, v.share σ = .ok w τ

/-- Reports in the order in which they were made, where every visit that was entered is closed again
and visits are closed in the order opposite to that in which they were entered.  Between a behaviour
and its closing there are only visits that the handler itself paid.  A visit stays open where its error
is lost. -/
inductive Nested (lost : Value → Option Value → Prop) : List Report → Prop
  | nil : Nested lost []
  | refused (v : Visit) (error : Value) {rest : List Report} (after : Nested lost rest) :
    Nested lost (.enter v (some error) :: rest)
  | returned (v : Visit) (outcome shown : Value) (raised : Option Value) {inner told rest : List Report}
    (handed : Handed outcome shown)
    (within : Nested lost inner) (meanwhile : Nested lost told) (after : Nested lost rest) :
    Nested lost (.enter v none :: (inner ++ .behaved v (.ok outcome) :: (told ++
      .exit v shown raised :: rest)))
  | raised (v : Visit) (error shown : Value) (raised : Option Value) {inner told rest : List Report}
    (handed : Handed error shown)
    (within : Nested lost inner) (meanwhile : Nested lost told) (after : Nested lost rest) :
    Nested lost (.enter v none :: (inner ++ .behaved v (.error error) :: (told ++
      .abort v shown raised :: rest)))
  | passed (v : Visit) (error : Value) (present : Option Value) {inner rest : List Report}
    (missed : lost error present) (within : Nested lost inner) (after : Nested lost rest) :
    Nested lost (.enter v none :: (inner ++ .behaved v (.error error) ::
      (present.toList.map (.unheard v error) ++ rest)))

/-- Two nested records make one. -/
theorem Nested.append {lost : Value → Option Value → Prop} {u w : List Report} (hu : Nested lost u)
    (hw : Nested lost w) : Nested lost (u ++ w) := by
  induction hu with
  | nil => exact hw
  | refused v error after ih => exact .refused v error ih
  | returned v outcome shown raised handed within meanwhile after _ _ ih =>
    simpa using Nested.returned v outcome shown raised handed within meanwhile ih
  | raised v error shown raised handed within meanwhile after _ _ ih =>
    simpa using Nested.raised v error shown raised handed within meanwhile ih
  | passed v error present missed within after _ ih =>
    simpa using Nested.passed v error present missed within ih

/-- What is lost between these reports is lost in another way for the handlers chosen. -/
def StillLost (lost lost' : Value → Option Value → Prop) (mine : Value → Bool) (w : List Report) : Prop :=
  ∀ v error present, lost error present → .behaved v (.error error) ∈ w →
    (∀ r ∈ present, .unheard v error r ∈ w) → mine v.handler = true → lost' error present

theorem StillLost.of_subset {lost lost' : Value → Option Value → Prop} {mine : Value → Bool} {u w : List Report}
    (still : StillLost lost lost' mine w) (sub : u ⊆ w) : StillLost lost lost' mine u :=
  fun v error present missed ended noted =>
    still v error present missed (sub ended) fun r member => sub (noted r member)

/-- The reports to some of the handlers nest as all of them do, where what was lost on these handlers may
be lost still. -/
theorem Nested.filter {lost lost' : Value → Option Value → Prop} {w : List Report} (h : Nested lost w)
    (mine : Value → Bool) (still : StillLost lost lost' mine w) :
    Nested lost' (w.filter fun r => mine r.handler) := by
  induction h with
  | nil => exact .nil
  | refused v error after ih =>
    have rest := ih (still.of_subset (List.subset_cons_self _ _))
    by_cases own : mine v.handler = true
    · simpa [Report.handler, Report.visit, own] using Nested.refused v error rest
    · simpa [Report.handler, Report.visit, own] using rest
  | returned v outcome shown raised handed within meanwhile after ihw ihm iha =>
    have inner := ihw (still.of_subset fun r member => by simp [member])
    have told := ihm (still.of_subset fun r member => by simp [member])
    have rest := iha (still.of_subset fun r member => by simp [member])
    by_cases own : mine v.handler = true
    · simpa [Report.handler, Report.visit, own]
        using Nested.returned v outcome shown raised handed inner told rest
    · simpa [Report.handler, Report.visit, own] using inner.append (told.append rest)
  | raised v error shown raised handed within meanwhile after ihw ihm iha =>
    have inner := ihw (still.of_subset fun r member => by simp [member])
    have told := ihm (still.of_subset fun r member => by simp [member])
    have rest := iha (still.of_subset fun r member => by simp [member])
    by_cases own : mine v.handler = true
    · simpa [Report.handler, Report.visit, own]
        using Nested.raised v error shown raised handed inner told rest
    · simpa [Report.handler, Report.visit, own] using inner.append (told.append rest)
  | passed v error present missed within after ihw iha =>
    have inner := ihw (still.of_subset fun r member => by simp [member])
    have rest := iha (still.of_subset fun r member => by simp [member])
    by_cases own : mine v.handler = true
    · have closed := Nested.passed v error present
        (still v error present missed (by simp) (fun r (member : present = some r) => by simp [member]) own)
        inner rest
      cases present <;> simpa [Report.handler, Report.visit, own] using closed
    · cases present <;> simpa [Report.handler, Report.visit, own] using inner.append rest

/-! ### Stores -/

/-- The tracers are as before and these reports were added. -/
structure Adds (σ τ : Store) (w : List Report) : Prop where
  tracers : τ.tracers = σ.tracers
  journal : τ.journal = w.reverse ++ σ.journal

theorem Adds.refl (σ : Store) : Adds σ σ [] := ⟨rfl, rfl⟩

/-- What is added one after the other is added together. -/
theorem Adds.trans {σ τ υ : Store} {u w : List Report} (first : Adds σ τ u) (second : Adds τ υ w) :
    Adds σ υ (u ++ w) := by
  refine ⟨second.tracers.trans first.tracers, ?_⟩
  rw [second.journal, first.journal]
  simp

theorem Adds.record {σ τ : Store} {w : List Report} (h : Adds σ τ w) (r : Report) :
    Adds σ (τ.record r) (w ++ [r]) := by
  refine ⟨h.tracers, ?_⟩
  simp [Store.record, h.journal]

variable {m : Machine}

private def numbered (n : Nat) : Value := .closure [] (.plain .null) [] (.named "f") n

end Rebind.Trace
