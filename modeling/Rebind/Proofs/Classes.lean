import Rebind.Proofs.Soundness
/-!
# Classes of parsers

Statements about grammars of some class speak of parsers whose behaviours belong to the class and which refer
only to such parsers, cycles included.  Functions of the user may be called while such a parser is run.  They
are tame if they leave the parsers that there are alone, and if those that choose a parser choose one of the
class.
-/
namespace Rebind

/-- A class of behaviours, over the parsers to which they may refer. -/
abbrev BehaviourClass := (ParserId → Prop) → Behaviour Value → Prop

/-- A parser among parsers that all have a behaviour of a class over each other. -/
def Among (kind : BehaviourClass) (σ : Store) (p : ParserId) : Prop :=
  ∃ parsers : ParserId → Prop, parsers p ∧ ∀ q, parsers q → ∃ b, σ.behaviour? q = some b ∧ kind parsers b

/-- Functions that leave parsers and tracers alone when they return.  The choosers among them, where they
return a parser, return one of a class. -/
structure Tame (host : Host) (functions choosers : Value → Prop) (kind : BehaviourClass) (σ₀ : Store) :
    Prop where
  keeps : ∀ f, functions f ∨ choosers f → ∀ rounds depth arguments σ v τ, Course.kept.leads σ₀ σ →
    (machine host rounds depth).call f arguments σ = .ok v τ → Course.kept.leads σ τ
  chooses : ∀ f, choosers f → ∀ rounds depth arguments σ p τ, Course.kept.leads σ₀ σ →
    (machine host rounds depth).call f arguments σ = .ok (.parser p) τ → p < τ.parsers.size →
      Among kind τ p

variable {kind : BehaviourClass} {σ τ : Store} {p : ParserId}

/-- Parsers of a class stay in it while the store is kept. -/
theorem Among.of_kept (h : Among kind σ p) (led : Course.kept.leads σ τ) : Among kind τ p := by
  obtain ⟨parsers, inside, closed⟩ := h
  refine ⟨parsers, inside, fun q inside' => ?_⟩
  obtain ⟨b, does, fits⟩ := closed q inside'
  exact ⟨b, behaviour?_of_kept led does, fits⟩

/-- What a parser of a class does is over parsers of the class. -/
theorem Among.behaviour (h : Among kind σ p) : ∃ parsers b, σ.behaviour? p = some b ∧ kind parsers b ∧
    ∀ q, parsers q → Among kind σ q := by
  obtain ⟨parsers, inside, closed⟩ := h
  obtain ⟨b, does, fits⟩ := closed p inside
  exact ⟨parsers, b, does, fits, fun q inside' => ⟨parsers, inside', closed⟩⟩

/-- A host on which every function returns one parser. -/
def Host.returning (p : ParserId) : Host := ⟨fun _ _ _ => return .parser p, Value.share⟩

/-- On this host a call of a function does nothing else. -/
theorem call_returning {f : Value} (closure : f.content.IsClosure) {rounds depth : Nat}
    {arguments : List Value} {v : Value} {υ : Store}
    (ended : (machine (.returning p) rounds depth).call f arguments τ = .ok v υ) : v = .parser p ∧ υ = τ := by
  cases depth with
  | zero => cases ended
  | succ depth =>
    have applied : (machine (.returning p) rounds (depth + 1)).call f arguments τ = .ok (.parser p) τ :=
      congrFun (invoke_closure closure arguments) τ
    obtain ⟨rfl, rfl⟩ := EStateM.Result.ok.inj (applied.symm.trans ended)
    exact ⟨rfl, rfl⟩

/-- Functions that do nothing but return one parser of a class are tame. -/
theorem tame_returning {functions choosers : Value → Prop}
    (closures : ∀ f, functions f ∨ choosers f → f.content.IsClosure) (known : Among kind σ p) :
    Tame (.returning p) functions choosers kind σ := by
  constructor
  · intro f function rounds depth arguments τ v υ _ ended
    obtain ⟨_, rfl⟩ := call_returning (closures f function) ended
    exact Course.kept.refl υ
  · intro f chooser rounds depth arguments τ q υ led ended _
    obtain ⟨same, rfl⟩ := call_returning (closures f (.inr chooser)) ended
    obtain rfl := Value.parser.inj same
    exact known.of_kept led

/-- What is known of the calls of functions, and of sharing values with them, on a machine that runs a parser
from a store. -/
structure TameCalls (kind : BehaviourClass) (functions choosers : Value → Prop) (base : Store) (m : Machine) :
    Prop where
  keeps : ∀ {f arguments τ v υ}, functions f ∨ choosers f → Course.kept.leads base τ →
    m.call f arguments τ = .ok v υ → Course.kept.leads τ υ
  chooses : ∀ {f arguments τ p υ}, choosers f → Course.kept.leads base τ →
    m.call f arguments τ = .ok (.parser p) υ → p < υ.parsers.size → Among kind υ p
  share : m.share = Value.share

/-- Functions that are tame on a host return parsers of the class on every machine. -/
theorem Tame.calls {host : Host} {functions choosers : Value → Prop} {σ₀ : Store}
    (tame : Tame host functions choosers kind σ₀) (shares : host.share = Value.share) (rounds depth : Nat)
    (led : Course.kept.leads σ₀ σ) : TameCalls kind functions choosers σ (machine host rounds depth) where
  keeps known led' ended :=
    tame.keeps _ known rounds depth _ _ _ _ (Course.kept.trans led led') ended
  chooses known led' ended inside :=
    tame.chooses _ known rounds depth _ _ _ _ (Course.kept.trans led led') ended inside
  share := (machine_share host rounds depth).trans shares

theorem kept_fresh (led : Course.kept.leads σ τ) (k : Nat) :
    Course.kept.leads σ { τ with nextObject := k } := ⟨led.1, led.2⟩

end Rebind
