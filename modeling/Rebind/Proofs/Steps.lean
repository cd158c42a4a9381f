import Rebind.Proofs.Attempt
import Rebind.Proofs.RegexBounds
/-!
# What a behaviour makes of its parts

The attempts that a behaviour can end in, given those of the parsers that it runs and what the functions
that it calls return.  Only texts are considered, and places within them.  What is known of the parts is
a parameter, so one theorem about the evaluation of behaviours serves every statement about runs that
goes by what each behaviour does with its parts.
-/
namespace Rebind

/-- How many rounds a count asks for; nothing stands for no end of them. -/
def Count.rounds : Count → Option Nat
  | .times n => some n.toNat
  | .unlimited => none

/-- Before any round, as many rounds are left as were asked for. -/
theorem roundsBeyond_zero (least : Count) : Behave.roundsBeyond 0 least = least.rounds := by
  cases least with
  | unlimited => rfl
  | times n => simp [Behave.roundsBeyond, Count.rounds]

theorem roundsBeyond_nat (most : Count) (n : Nat) :
    Behave.roundsBeyond n most = most.rounds.map (· - n) := by
  cases most with
  | unlimited => rfl
  | times k =>
    simp only [Behave.roundsBeyond, Count.rounds, Option.map_some, Option.some.injEq]
    omega

namespace Attempt

/-- An attempt from a place in a text of a length: it ended within the text and not before its start,
and if it missed it says what was expected. -/
def Within (length i : Nat) : Attempt → Prop
  | matched stop _ => (i : Int) ≤ stop ∧ stop ≤ length
  | missed place expected => (i : Int) ≤ place ∧ place ≤ length ∧ expected ≠ []

/-- A failure from a place on, or none. -/
def Earlier (length i : Nat) : Option (Int × List String) → Prop
  | none => True
  | some (place, expected) => (missed place expected).Within length i

/-- Merged failures lie within the text. -/
theorem Earlier.after {length i : Nat} {earlier : Option (Int × List String)} (h : Earlier length i earlier)
    {place : Int} {expected : List String} (within : (missed place expected).Within length i) :
    Earlier length i (some (after place expected earlier)) := by
  rcases after_cases place expected earlier with same | same | ⟨wanted, _, same⟩
  · rw [same]
    exact within
  · rw [← same]
    exact h
  · rw [same]
    exact ⟨within.1, within.2.1, by simp [within.2.2]⟩

end Attempt

open Attempt

/-! ### Stretches of work -/

section Stretches

variable (run : ParserId → Nat → Attempt → Prop)

/-- Parsers run one after the other. -/
inductive EachOf : List ParserId → Nat → Attempt → Prop
  | nil {i} : EachOf [] i (.matched i (.list []))
  | cons {p : ParserId} {ps : List ParserId} {i j : Nat} {k : Int} {v : Value} {vs : List Value}
    (head : run p i (.matched j v)) (tail : EachOf ps j (.matched k (.list vs))) :
    EachOf (p :: ps) i (.matched k (.list (v :: vs)))
  | head {p : ParserId} {ps : List ParserId} {i : Nat} {place : Int} {expected : List String}
    (head : run p i (.missed place expected)) : EachOf (p :: ps) i (.missed place expected)
  | tail {p : ParserId} {ps : List ParserId} {i j : Nat} {v : Value} {place : Int}
    {expected : List String} (head : run p i (.matched j v)) (tail : EachOf ps j (.missed place expected)) :
    EachOf (p :: ps) i (.missed place expected)

/-- Parsers tried at the same place after an earlier failure. -/
inductive FirstOf (i : Nat) : List ParserId → Option (Int × List String) → Attempt → Prop
  | nil {place : Int} {expected : List String} :
    FirstOf i [] (some (place, expected)) (.missed place expected)
  | head {p : ParserId} {ps : List ParserId} {earlier : Option (Int × List String)} {stop : Int}
    {v : Value} (head : run p i (.matched stop v)) : FirstOf i (p :: ps) earlier (.matched stop v)
  | tail {p : ParserId} {ps : List ParserId} {earlier : Option (Int × List String)} {place : Int}
    {expected : List String} {a : Attempt} (head : run p i (.missed place expected))
    (tail : FirstOf i ps (some (after place expected earlier)) a) : FirstOf i (p :: ps) earlier a

/-- Rounds that all have to match; without a limit they can only end in a failure. -/
inductive Exactly (item : ParserId) : Option Nat → Nat → Attempt → Prop
  | zero {i} : Exactly item (some 0) i (.matched i (.list []))
  | succ {n i j : Nat} {k : Int} {v : Value} {vs : List Value} (round : run item i (.matched j v))
    (more : Exactly item (some n) j (.matched k (.list vs))) :
    Exactly item (some (n + 1)) i (.matched k (.list (v :: vs)))
  | failed {limit : Option Nat} {i : Nat} {place : Int} {expected : List String} (asked : limit ≠ some 0)
    (round : run item i (.missed place expected)) : Exactly item limit i (.missed place expected)
  | later {limit : Option Nat} {i j : Nat} {v : Value} {place : Int} {expected : List String}
    (asked : limit ≠ some 0) (round : run item i (.matched j v))
    (more : Exactly item (limit.map (· - 1)) j (.missed place expected)) :
    Exactly item limit i (.missed place expected)

/-- Rounds as long as they match and are allowed: where they lead, and their values. -/
inductive UpTo (item : ParserId) : Option Nat → Nat → Nat → List Value → Prop
  | zero {i} : UpTo item (some 0) i i []
  | stop {limit : Option Nat} {i : Nat} {place : Int} {expected : List String} (allowed : limit ≠ some 0)
    (round : run item i (.missed place expected)) : UpTo item limit i i []
  | succ {limit : Option Nat} {i j k : Nat} {v : Value} {vs : List Value} (allowed : limit ≠ some 0)
    (round : run item i (.matched j v)) (more : UpTo item (limit.map (· - 1)) j k vs) :
    UpTo item limit i k (v :: vs)

end Stretches

/-! ### Behaviours -/

/-- What the parts of a behaviour do: how runs of parsers end, for which characters a predicate was seen
to hold, and what other functions returned. -/
structure Parts where
  run : ParserId → Value → Nat → Attempt → Prop
  accepts : Value → Value → Char → Bool → Prop
  call : Value → List Value → Value → Prop

/-- The attempts that a behaviour can end in on a text in an environment. -/
inductive Does (parts : Parts) (text : List Char) (env : Value) :
    Behaviour Value → Nat → Attempt → Prop
  | leaf {b : Behaviour Value} {i : Nat} {a : Attempt} (h : b.leaf? text i = some a) :
    Does parts text env b i a
  | testChar {f : Value} {d : String} {i : Nat} {c : Char} (there : text[i]? = some c)
    (holds : parts.accepts f env c true) :
    Does parts text env (.testChar f d) i (.matched (i + 1) (.ofChar c))
  | testChar_other {f : Value} {d : String} {i : Nat}
    (other : ∀ c, text[i]? = some c → parts.accepts f env c false) :
    Does parts text env (.testChar f d) i (.missed i [d])
  | sequence {ps : List ParserId} {i : Nat} {a : Attempt}
    (h : EachOf (fun p i a => parts.run p env i a) ps i a) : Does parts text env (.sequence ps) i a
  | alternative {ps : List ParserId} {i : Nat} {a : Attempt}
    (h : FirstOf (fun p i a => parts.run p env i a) i ps none a) :
    Does parts text env (.alternative ps) i a
  | repetition {item : ParserId} {least most : Count} {i j k n : Nat} {us vs : List Value}
    (bounded : least.rounds = some n)
    (required : Exactly (fun p i a => parts.run p env i a) item (some n) i (.matched j (.list us)))
    (optional : UpTo (fun p i a => parts.run p env i a) item (most.rounds.map (· - n)) j k vs) :
    Does parts text env (.repetition item least most) i (.matched k (.list (us ++ vs)))
  | repetition_missed {item : ParserId} {least most : Count} {i : Nat} {place : Int}
    {expected : List String}
    (required : Exactly (fun p i a => parts.run p env i a) item least.rounds i
      (.missed place expected)) :
    Does parts text env (.repetition item least most) i (.missed place expected)
  | transform {inner : ParserId} {f v w r : Value} {i : Nat} {stop : Int} {n : Nat}
    (h : parts.run inner env i (.matched stop v)) (shared : w = (v.identify n).1)
    (called : parts.call f [w, env] r) :
    Does parts text env (.transform inner f) i (.matched stop r)
  | transform_missed {inner : ParserId} {f : Value} {i : Nat} {place : Int} {expected : List String}
    (h : parts.run inner env i (.missed place expected)) :
    Does parts text env (.transform inner f) i (.missed place expected)
  | exclude_forbidden {allowed forbidden : ParserId} {i : Nat} {stop : Int} {v : Value} {shown : String}
    (h : parts.run forbidden env i (.matched stop v)) :
    Does parts text env (.exclude allowed forbidden) i
      (.missed i ["something that is not '" ++ shown ++ "'"])
  | exclude {allowed forbidden : ParserId} {i : Nat} {place stop : Int} {unwanted : List String}
    {v : Value} (absent : parts.run forbidden env i (.missed place unwanted))
    (h : parts.run allowed env i (.matched stop v)) :
    Does parts text env (.exclude allowed forbidden) i (.matched stop v)
  | exclude_missed {allowed forbidden : ParserId} {i : Nat} {place place' : Int}
    {unwanted wanted : List String} (absent : parts.run forbidden env i (.missed place unwanted))
    (h : parts.run allowed env i (.missed place' wanted)) :
    Does parts text env (.exclude allowed forbidden) i
      (.missed i [expectedWords wanted ++ " (except " ++ expectedWords unwanted ++ ")"])
  | describe {inner : ParserId} {d : String} {i : Nat} {stop : Int} {v : Value}
    (h : parts.run inner env i (.matched stop v)) :
    Does parts text env (.describe inner d) i (.matched stop v)
  | describe_missed {inner : ParserId} {d : String} {i : Nat} {place : Int} {expected : List String}
    (h : parts.run inner env i (.missed place expected)) :
    Does parts text env (.describe inner d) i (.missed place [d])
  | mark {framed : ParserId} {i : Nat} {stop : Int} {u v w : Value}
    (h : parts.run framed env i (.matched stop (.list [u, v, w]))) :
    Does parts text env (.mark framed) i (.matched stop (.mark u v w))
  | mark_missed {framed : ParserId} {i : Nat} {place : Int} {expected : List String}
    (h : parts.run framed env i (.missed place expected)) :
    Does parts text env (.mark framed) i (.missed place expected)
  | chain {first next : ParserId} {decide v w : Value} {i j n : Nat} {a : Attempt}
    (h : parts.run first env i (.matched j v)) (shared : w = (v.identify n).1)
    (called : parts.call decide [w, env] (.parser next)) (rest : parts.run next env j a) :
    Does parts text env (.chain first decide) i a
  | chain_missed {first : ParserId} {decide : Value} {i : Nat} {place : Int} {expected : List String}
    (h : parts.run first env i (.missed place expected)) :
    Does parts text env (.chain first decide) i (.missed place expected)
  | subEnvironment {inner : ParserId} {derive inside : Value} {i : Nat} {a : Attempt}
    (called : parts.call derive [env] inside) (h : parts.run inner inside i a) :
    Does parts text env (.subEnvironment inner derive) i a
  | deferredLookup {next : ParserId} {resolve : Value} {name : String} {i : Nat} {a : Attempt}
    (called : parts.call resolve [env] (.parser next)) (h : parts.run next env i a) :
    Does parts text env (.deferredLookup resolve name) i a

/-! ### Places -/

section Places

variable {length : Nat} {run : ParserId → Nat → Attempt → Prop}

/-- Parts that stay within the text stay there one after the other. -/
theorem EachOf.within (h : ∀ p i a, run p i a → i ≤ length → a.Within length i) {ps : List ParserId}
    {i : Nat} {a : Attempt} (each : EachOf run ps i a) (start : i ≤ length) : a.Within length i := by
  induction each with
  | nil => exact ⟨Int.le_refl _, by omega⟩
  | cons head tail ih =>
    obtain ⟨from', upTo⟩ := h _ _ _ head start
    obtain ⟨more, last⟩ := ih (by omega)
    exact ⟨by omega, last⟩
  | head head => exact h _ _ _ head start
  | tail head tail ih =>
    obtain ⟨from', upTo⟩ := h _ _ _ head start
    obtain ⟨more, last, wanted⟩ := ih (by omega)
    exact ⟨by omega, last, wanted⟩

theorem FirstOf.within (h : ∀ p i a, run p i a → i ≤ length → a.Within length i) {ps : List ParserId}
    {i : Nat} {earlier : Option (Int × List String)} {a : Attempt} (first : FirstOf run i ps earlier a)
    (before : Earlier length i earlier) (start : i ≤ length) : a.Within length i := by
  induction first with
  | nil => exact before
  | head head => exact h _ _ _ head start
  | tail head tail ih => exact ih (before.after (h _ _ _ head start))

theorem Exactly.within (h : ∀ p i a, run p i a → i ≤ length → a.Within length i) {item : ParserId}
    {limit : Option Nat} {i : Nat} {a : Attempt} (exactly : Exactly run item limit i a)
    (start : i ≤ length) : a.Within length i := by
  induction exactly with
  | zero => exact ⟨Int.le_refl _, by omega⟩
  | succ round more ih =>
    obtain ⟨from', upTo⟩ := h _ _ _ round start
    obtain ⟨further, last⟩ := ih (by omega)
    exact ⟨by omega, last⟩
  | failed asked round => exact h _ _ _ round start
  | later asked round more ih =>
    obtain ⟨from', upTo⟩ := h _ _ _ round start
    obtain ⟨further, last, wanted⟩ := ih (by omega)
    exact ⟨by omega, last, wanted⟩

theorem UpTo.within (h : ∀ p i a, run p i a → i ≤ length → a.Within length i) {item : ParserId}
    {limit : Option Nat} {i k : Nat} {vs : List Value} (upTo : UpTo run item limit i k vs)
    (start : i ≤ length) : i ≤ k ∧ k ≤ length := by
  induction upTo with
  | zero => exact ⟨Nat.le_refl _, start⟩
  | stop allowed round => exact ⟨Nat.le_refl _, start⟩
  | succ allowed round more ih =>
    obtain ⟨from', upTo⟩ := h _ _ _ round start
    obtain ⟨further, last⟩ := ih (by omega)
    exact ⟨by omega, last⟩

/-- A leaf stays within the text. -/
theorem Behaviour.leaf?_within {b : Behaviour Value} {text : List Char} {i : Nat} {a : Attempt}
    (h : b.leaf? text i = some a) (start : i ≤ text.length) : a.Within text.length i := by
  cases b with
  | anyChar =>
    obtain rfl := Option.some.inj h
    cases there : text[i]? with
    | some c =>
      have before := (List.getElem?_eq_some_iff.mp there).1
      exact ⟨by omega, by omega⟩
    | none => exact ⟨Int.le_refl _, by omega, by simp⟩
  | rest =>
    obtain rfl := Option.some.inj h
    exact ⟨by omega, Int.le_refl _⟩
  | eof =>
    obtain rfl := Option.some.inj h
    split
    · exact ⟨Int.le_refl _, by omega, by simp⟩
    · exact ⟨Int.le_refl _, by omega⟩
  | index =>
    obtain rfl := Option.some.inj h
    exact ⟨Int.le_refl _, by omega⟩
  | lineColumnIndex =>
    obtain rfl := Option.some.inj h
    exact ⟨Int.le_refl _, by omega⟩
  | succeed v =>
    obtain rfl := Option.some.inj h
    exact ⟨Int.le_refl _, by omega⟩
  | fail d =>
    obtain rfl := Option.some.inj h
    exact ⟨Int.le_refl _, by omega, by simp⟩
  | string literal =>
    obtain rfl := Option.some.inj h
    split
    · next there =>
      have fits := (List.isPrefixOf_iff_prefix.mp there).length_le
      simp only [List.length_drop] at fits
      exact ⟨by omega, by omega⟩
    · exact ⟨Int.le_refl _, by omega, by simp⟩
  | regex r group =>
    obtain ⟨_, rfl⟩ := Behaviour.leaf?_regex h
    cases there : Regex.matchStart? r (text.drop i) with
    | some found =>
      have fits := Regex.matchStart?_length_le there
      simp only [List.length_drop] at fits
      exact ⟨by omega, by omega⟩
    | none => exact ⟨Int.le_refl _, by omega, by simp⟩
  | _ => exact absurd h (by simp [Behaviour.leaf?])

/-- Attempts stay within the text if those of the parts do. -/
theorem Does.within {parts : Parts} {text : List Char} {env : Value} {b : Behaviour Value} {i : Nat}
    {a : Attempt} (does : Does parts text env b i a)
    (h : ∀ p env i a, parts.run p env i a → i ≤ text.length → a.Within text.length i)
    (start : i ≤ text.length) : a.Within text.length i := by
  cases does with
  | leaf leaf => exact Behaviour.leaf?_within leaf start
  | testChar there holds =>
    have before := (List.getElem?_eq_some_iff.mp there).1
    exact ⟨by omega, by omega⟩
  | testChar_other other => exact ⟨Int.le_refl _, by omega, by simp⟩
  | sequence each => exact each.within (fun p i a => h p env i a) start
  | alternative first => exact first.within (fun p i a => h p env i a) trivial start
  | repetition bounded required optional =>
    obtain ⟨from', upTo⟩ := required.within (fun p i a => h p env i a) start
    have rest := optional.within (fun p i a => h p env i a) (by omega)
    exact ⟨by omega, by omega⟩
  | repetition_missed required => exact required.within (fun p i a => h p env i a) start
  | transform run shared called =>
    have inner := h _ _ _ _ run start
    exact inner
  | transform_missed run => exact h _ _ _ _ run start
  | exclude_forbidden run => exact ⟨Int.le_refl _, by omega, by simp⟩
  | exclude absent run => exact h _ _ _ _ run start
  | exclude_missed absent run => exact ⟨Int.le_refl _, by omega, by simp⟩
  | describe run => exact h _ _ _ _ run start
  | describe_missed run =>
    obtain ⟨from', upTo, _⟩ := h _ _ _ _ run start
    exact ⟨from', upTo, by simp⟩
  | mark run =>
    have inner := h _ _ _ _ run start
    exact inner
  | mark_missed run => exact h _ _ _ _ run start
  | chain run shared called rest =>
    obtain ⟨from', upTo⟩ := h _ _ _ _ run start
    have last := h _ _ _ _ rest (by omega)
    cases a with
    | matched stop v => exact ⟨by have := last.1; omega, last.2⟩
    | missed place expected => exact ⟨by have := last.1; omega, last.2⟩
  | chain_missed run => exact h _ _ _ _ run start
  | subEnvironment called run => exact h _ _ _ _ run start
  | deferredLookup called run => exact h _ _ _ _ run start

end Places

/-! ### Values -/

section Values

variable {P : Value → Prop} {run : ParserId → Nat → Attempt → Prop}

/-- What holds of the values of all parts holds of the values in the list. -/
theorem EachOf.values (h : ∀ p i stop v, run p i (.matched stop v) → P v) {ps : List ParserId} {i : Nat}
    {a : Attempt} (each : EachOf run ps i a) : ∀ stop vs, a = .matched stop (.list vs) → ∀ v ∈ vs, P v := by
  induction each with
  | nil =>
    rintro _ _ ⟨⟩ v member
    cases member
  | cons head tail ih =>
    rintro _ _ ⟨⟩ v member
    rcases List.mem_cons.mp member with rfl | later
    · exact h _ _ _ _ head
    · exact ih _ _ rfl v later
  | head head => nofun
  | tail head tail => nofun

theorem EachOf.isList {ps : List ParserId} {i : Nat} {a : Attempt} (each : EachOf run ps i a) :
    ∀ stop v, a = .matched stop v → ∃ vs, v = .list vs := by
  cases each with
  | nil | cons => exact fun _ _ same => ⟨_, (Attempt.matched.inj same).2.symm⟩
  | head | tail => nofun

theorem FirstOf.value (h : ∀ p i stop v, run p i (.matched stop v) → P v) {ps : List ParserId} {i : Nat}
    {earlier : Option (Int × List String)} {a : Attempt} (first : FirstOf run i ps earlier a) :
    ∀ stop v, a = .matched stop v → P v := by
  induction first with
  | nil => nofun
  | head head =>
    rintro _ _ ⟨⟩
    exact h _ _ _ _ head
  | tail head tail ih => exact ih

theorem Exactly.values (h : ∀ p i stop v, run p i (.matched stop v) → P v) {item : ParserId}
    {limit : Option Nat} {i : Nat} {a : Attempt} (exactly : Exactly run item limit i a) :
    ∀ stop vs, a = .matched stop (.list vs) → ∀ v ∈ vs, P v := by
  induction exactly with
  | zero =>
    rintro _ _ ⟨⟩ v member
    cases member
  | succ round more ih =>
    rintro _ _ ⟨⟩ v member
    rcases List.mem_cons.mp member with rfl | later
    · exact h _ _ _ _ round
    · exact ih _ _ rfl v later
  | failed asked round => nofun
  | later asked round more => nofun

theorem UpTo.values (h : ∀ p i stop v, run p i (.matched stop v) → P v) {item : ParserId}
    {limit : Option Nat} {i k : Nat} {vs : List Value} (upTo : UpTo run item limit i k vs) :
    ∀ v ∈ vs, P v := by
  induction upTo with
  | zero => nofun
  | stop => nofun
  | succ allowed round more ih =>
    intro v member
    rcases List.mem_cons.mp member with rfl | later
    · exact h _ _ _ _ round
    · exact ih v later

/-- Values have a property if it holds of those of the parts and of lists and marks that are made of them. -/
theorem Does.value {parts : Parts} {text : List Char} {env : Value} {b : Behaviour Value} {i : Nat}
    {a : Attempt} (does : Does parts text env b i a)
    (run : ∀ p env i stop v, parts.run p env i (.matched stop v) → P v)
    (call : ∀ f arguments v, parts.call f arguments v → P v)
    (leaf : ∀ stop v, b.leaf? text i = some (.matched stop v) → P v) (char : ∀ c, P (.ofChar c))
    (list : ∀ vs, (∀ v ∈ vs, P v) → P (.list vs))
    (mark : ∀ u v w, P (.list [u, v, w]) → P (.mark u v w)) : ∀ stop v, a = .matched stop v → P v := by
  cases does with
  | leaf h =>
    rintro stop v rfl
    exact leaf stop v h
  | testChar there holds =>
    rintro _ _ ⟨⟩
    exact char _
  | sequence each =>
    rintro stop v rfl
    obtain ⟨vs, rfl⟩ := each.isList stop v rfl
    exact list vs (each.values (fun p i => run p env i) stop vs rfl)
  | alternative first => exact first.value fun p i => run p env i
  | repetition bounded required optional =>
    rintro _ _ ⟨⟩
    refine list _ fun v member => ?_
    rcases List.mem_append.mp member with early | late
    · exact required.values (fun p i => run p env i) _ _ rfl v early
    · exact optional.values (fun p i => run p env i) v late
  | transform h shared called =>
    rintro _ _ ⟨⟩
    exact call _ _ _ called
  | exclude absent h | describe h =>
    rintro _ _ ⟨⟩
    exact run _ _ _ _ _ h
  | mark h =>
    rintro _ _ ⟨⟩
    exact mark _ _ _ (run _ _ _ _ _ h)
  | chain h shared called rest =>
    rintro stop v rfl
    exact run _ _ _ _ _ rest
  | subEnvironment called h | deferredLookup called h =>
    rintro stop v rfl
    exact run _ _ _ _ _ h
  | testChar_other | repetition_missed | transform_missed | exclude_forbidden | exclude_missed
  | describe_missed | mark_missed | chain_missed => nofun

end Values

/-! ### Evaluation -/

/-- What is known while a behaviour is evaluated: how the store may change, which parsers there are to
run, which predicates and other functions there are to call, in which environments, what functions
return in which stores, and how an evaluation may be given up. -/
structure Footing where
  course : Course
  known : Store → ParserId → Prop
  predicate : Value → Prop
  callable : Value → Prop
  environment : Value → Prop
  parts : Parts
  returned : Value → List Value → Value → Store → Prop
  fault : Fault → Store → Prop

/-- The names under which a function's result is refused as no parser. -/
def Refuser (σ : Store) (f : Value) (function : String) : Prop :=
  function = chainName σ f ∨ ∃ name, function = "deferred_lookup(" ++ name ++ ")"

/-- A machine whose runs and calls on a text go as it is known of the parts. -/
structure Footing.Holds (K : Footing) (m : Machine) (s : String) (σ : Store) : Prop where
  run : ∀ τ p env i, K.course.leads σ τ → K.known τ p → K.environment env → i ≤ s.toList.length →
    Tries (m.run p (.str s) (.int i) env) τ
      (fun a υ => K.course.leads τ υ ∧ K.parts.run p env i a) K.fault
  within : ∀ p env i a, K.parts.run p env i a → i ≤ s.toList.length → a.Within s.toList.length i
  ask : ∀ τ f env c, K.course.leads σ τ → K.predicate f → K.environment env →
    Ends (m.call f [.ofChar c, env]) τ
      (fun v υ => K.course.leads τ υ ∧ K.parts.accepts f env c (υ.view v).isTruthy) K.fault
  call : ∀ τ f arguments, K.course.leads σ τ → K.callable f → Ends (m.call f arguments) τ
    (fun v υ => K.course.leads τ υ ∧ K.returned f arguments v υ) K.fault
  returns : ∀ f arguments v τ, K.returned f arguments v τ → K.parts.call f arguments v ∧
    ∀ p, v = .parser p → p < τ.parsers.size → K.known τ p
  refuses : ∀ f arguments v τ function, K.returned f arguments v τ → τ.isParser v = false →
    Refuser τ f function → K.fault (notParser function τ v) τ
  derives : ∀ f env v τ, K.returned f [env] v τ → K.environment env → K.environment v
  persists : ∀ τ υ p, K.course.leads τ υ → K.known τ p → K.known υ p
  fresh : ∀ (τ : Store) n, K.course.leads τ { τ with nextObject := n }
  share : ∀ f, K.callable f → m.share = Value.share
  endless : ∀ τ, K.fault .endless τ

/-- A behaviour all of whose parsers and functions are known. -/
def Footing.Suits (K : Footing) (σ : Store) : Behaviour Value → Prop
  | .testChar f _ => K.predicate f
  | .sequence ps => ∀ p ∈ ps, K.known σ p
  | .alternative ps => ps ≠ [] ∧ ∀ p ∈ ps, K.known σ p
  | .repetition p _ _ => K.known σ p
  | .transform p f => K.known σ p ∧ K.callable f
  | .exclude a f => K.known σ a ∧ K.known σ f
  | .describe p _ => K.known σ p
  | .mark p => K.known σ p ∧ ∀ env i stop v, K.parts.run p env i (.matched stop v) →
    ∃ x y z, v = .list [x, y, z]
  | .chain p f => K.known σ p ∧ K.callable f
  | .subEnvironment p f => K.known σ p ∧ K.callable f
  | .deferredLookup f _ => K.callable f
  | .regex r group => group ≤ r.groupCount ∧ (r.isBytes = true → K.fault (.raised (.error .wrongType)) σ)
  | .debug _ _ => False
  | _ => True

section Evaluation

variable {K : Footing} {m : Machine} {s : String} {σ τ : Store} {env : Value}

/-- What is left to do where a known run is followed by something else: one case for a success within
the text and one for a failure. -/
theorem Footing.Holds.tries (h : K.Holds m s σ) (led : K.course.leads σ τ) {p : ParserId}
    (known : K.known τ p) (henv : K.environment env) {i : Nat} (start : i ≤ s.toList.length)
    {post : Attempt → Store → Prop}
    (hmatched : ∀ (k : Nat) v υ, k ≤ s.toList.length → K.course.leads τ υ →
      K.parts.run p env i (.matched k v) → post (.matched k v) υ)
    (hmissed : ∀ place expected υ, 0 ≤ place → expected ≠ [] → K.course.leads τ υ →
      K.parts.run p env i (.missed place expected) → post (.missed place expected) υ) :
    Tries (m.run p (.str s) (.int i) env) τ post K.fault := by
  refine (h.run τ p env i led known henv start).imp ?_
  rintro a υ ⟨led', ran⟩
  have within := h.within p env i a ran start
  cases a with
  | matched stop v =>
    obtain ⟨k, rfl⟩ := Int.eq_ofNat_of_zero_le (Int.le_trans (Int.natCast_nonneg i) within.1)
    exact hmatched k v υ (by have := within.2; omega) led' ran
  | missed place expected =>
    exact hmissed place expected υ (by have := within.1; omega) within.2.2 led' ran

/-- An attempt whose value is a list that starts with certain values, of which something holds without
them. -/
def Collected (values : List Value) (Q : Attempt → Prop) : Attempt → Prop
  | .matched stop v => ∃ vs, v = .list (values ++ vs) ∧ Q (.matched stop (.list vs))
  | .missed place expected => Q (.missed place expected)

/-- By induction on the parts, with the values that were read so far. -/
theorem sequenceFrom_each (h : K.Holds m s σ) (henv : K.environment env) (ps : List ParserId)
    (led : K.course.leads σ τ) (known : ∀ p ∈ ps, K.known τ p) {previous : Value}
    (passive : Passive previous) (values : List Value) {i : Nat} (start : i ≤ s.toList.length) :
    Tries (Behave.sequenceFrom m (.str s) env ps previous values (.int i)) τ
      (fun a υ => K.course.leads τ υ ∧
        Collected values (EachOf (fun p i a => K.parts.run p env i a) ps i) a) K.fault := by
  induction ps generalizing previous values i τ with
  | nil => exact tries_sequence_nil ⟨K.course.refl τ, [], by simp, .nil⟩
  | cons p ps ih =>
    refine tries_sequence_cons passive (h.tries led (known p (by simp)) henv start ?_ ?_)
    · intro k v υ within led' head
      have known' : ∀ q ∈ ps, K.known υ q := fun q member =>
        h.persists τ υ q led' (known q (by simp [member]))
      refine (ih (K.course.trans led led') known' (passive_matched k v) (values ++ [v]) within).imp ?_
      rintro a ω ⟨led'', collected⟩
      refine ⟨K.course.trans led' led'', ?_⟩
      cases a with
      | matched stop w =>
        obtain ⟨vs, rfl, tail⟩ := collected
        exact ⟨v :: vs, by simp, .cons head tail⟩
      | missed place expected => exact .tail head collected
    · intro place expected υ inside _ led' head
      exact ⟨inside, led', .head head⟩

/-- By induction on the choices, with the failure before them. -/
theorem alternativeFrom_first (h : K.Holds m s σ) (henv : K.environment env) (ps : List ParserId)
    (led : K.course.leads σ τ) (known : ∀ p ∈ ps, K.known τ p) (earlier : Option (Int × List String))
    (given : ps = [] → earlier.isSome) {i : Nat} (start : i ≤ s.toList.length) :
    Tries (Behave.alternativeFrom m (.str s) (.int i) env ps (failureValue earlier)) τ
      (fun a υ => K.course.leads τ υ ∧ FirstOf (fun p i a => K.parts.run p env i a) i ps earlier a)
      K.fault := by
  induction ps generalizing earlier τ with
  | nil =>
    cases earlier with
    | none => exact absurd (given rfl) (by simp)
    | some failure => exact tries_alternative_nil ⟨K.course.refl τ, .nil⟩
  | cons p ps ih =>
    refine tries_alternative_cons (h.tries led (known p (by simp)) henv start ?_ ?_)
    · intro k v υ _ led' head
      exact ⟨led', .head head⟩
    · intro place expected υ _ _ led' head
      have known' : ∀ q ∈ ps, K.known υ q := fun q member =>
        h.persists τ υ q led' (known q (by simp [member]))
      refine (ih (K.course.trans led led') known' _ fun _ => rfl).imp ?_
      rintro a ω ⟨led'', tail⟩
      exact ⟨K.course.trans led' led'', .tail head tail⟩

/-- Fuel that fits a limit other than zero is there for one round more. -/
theorem fuel_succ {limit : Option Nat} {fuel least : Nat} (asked : limit ≠ some 0)
    (fits : ∀ n, limit = some n → fuel = n) (enough : limit = none → least + 1 ≤ fuel) :
    ∃ n, fuel = n + 1 := by
  cases fuel with
  | succ n => exact ⟨n, rfl⟩
  | zero =>
    cases limit with
    | none => exact absurd (enough rfl) (by omega)
    | some n => exact absurd (congrArg some (fits n rfl).symm) asked

theorem fuel_pred {limit : Option Nat} {fuel : Nat} (fits : ∀ n, limit = some n → fuel + 1 = n) (n : Nat)
    (same : limit.map (· - 1) = some n) : fuel = n := by
  obtain ⟨k, known, rfl⟩ := Option.map_eq_some_iff.mp same
  have := fits k known
  omega

/-- Where the rounds that have to succeed have led, if they have led anywhere. -/
def Rounded (values : List Value) (Q : Attempt → Prop) : Behave.Progress → Prop
  | .reached index us => ∃ (k : Nat) (vs : List Value), index = .int k ∧ us = values ++ vs ∧
    Q (.matched k (.list vs))
  | .failed r => ∃ place expected, r = (missed place expected).value ∧ Q (.missed place expected)

/-- The rounds that have to succeed, with as much fuel as the limit says if there is one. -/
theorem requiredRounds_exactly (h : K.Holds m s σ) (henv : K.environment env) {item : ParserId}
    (led : K.course.leads σ τ) (known : K.known τ item) (fuel : Nat) (limit : Option Nat)
    (fits : ∀ n, limit = some n → fuel = n) {previous : Value} (passive : Passive previous)
    (values : List Value) {i : Nat} (start : i ≤ s.toList.length) :
    Ends (Behave.requiredRounds m item (.str s) env fuel previous values (.int i)) τ
      (fun progress υ => K.course.leads τ υ ∧
        ((limit = none ∧ ∃ j us, progress = .reached j us) ∨
          Rounded values (Exactly (fun p i a => K.parts.run p env i a) item limit i) progress))
      K.fault := by
  induction fuel generalizing limit previous values i τ with
  | zero =>
    refine ⟨K.course.refl τ, ?_⟩
    cases limit with
    | none => exact .inl ⟨rfl, _, _, rfl⟩
    | some n =>
      obtain rfl := fits n rfl
      exact .inr ⟨i, [], rfl, by simp, .zero⟩
  | succ fuel ih =>
    have asked : limit ≠ some 0 := fun none => absurd (fits 0 none) (by omega)
    refine ends_requiredRounds_succ passive (h.tries led known henv start ?_ ?_)
    · intro k v υ within led' round
      refine (ih (K.course.trans led led') (h.persists τ υ item led' known) _ (fuel_pred fits)
        (passive_matched k v) (values ++ [v]) within).imp ?_
      rintro progress ω ⟨led'', ⟨unlimited, j, us, rfl⟩ | rounded⟩
      · exact ⟨K.course.trans led' led'', .inl ⟨Option.map_eq_none_iff.mp unlimited, j, us, rfl⟩⟩
      · refine ⟨K.course.trans led' led'', .inr ?_⟩
        cases progress with
        | reached index us =>
          obtain ⟨k', vs, rfl, rfl, more⟩ := rounded
          cases limit with
          | none => cases more
          | some n =>
            cases n with
            | zero => exact absurd rfl asked
            | succ n => exact ⟨k', v :: vs, rfl, by simp, .succ round more⟩
        | failed r =>
          obtain ⟨place, expected, rfl, more⟩ := rounded
          exact ⟨place, expected, rfl, .later asked round more⟩
    · intro place expected υ inside _ led' round
      exact ⟨inside, led', .inr ⟨place, expected, rfl, .failed asked round⟩⟩

/-- The rounds that may follow, with as much fuel as the limit says if there is one. -/
theorem optionalRounds_upTo (h : K.Holds m s σ) (henv : K.environment env) {item : ParserId}
    (led : K.course.leads σ τ) (known : K.known τ item) (fuel : Nat) (limit : Option Nat)
    (fits : ∀ n, limit = some n → fuel = n) (values : List Value) {i : Nat}
    (start : i ≤ s.toList.length) :
    Ends (Behave.optionalRounds m item (.str s) env fuel values (.int i)) τ
      (fun reached υ => K.course.leads τ υ ∧ ((limit = none ∧ reached.1 = false) ∨
        ∃ (k : Nat) (vs : List Value), reached.2 = (.int k, values ++ vs) ∧
          UpTo (fun p i a => K.parts.run p env i a) item limit i k vs)) K.fault := by
  induction fuel generalizing limit values i τ with
  | zero =>
    refine ⟨K.course.refl τ, ?_⟩
    cases limit with
    | none => exact .inl ⟨rfl, rfl⟩
    | some n =>
      obtain rfl := fits n rfl
      exact .inr ⟨i, [], by simp, .zero⟩
  | succ fuel ih =>
    have allowed : limit ≠ some 0 := fun none => absurd (fits 0 none) (by omega)
    refine ends_optionalRounds_succ (h.tries led known henv start ?_ ?_)
    · intro k v υ within led' round
      refine (ih (K.course.trans led led') (h.persists τ υ item led' known) _ (fuel_pred fits)
        (values ++ [v]) within).imp ?_
      rintro reached ω ⟨led'', ⟨unlimited, unended⟩ | ⟨k', vs, same, more⟩⟩
      · exact ⟨K.course.trans led' led'', .inl ⟨Option.map_eq_none_iff.mp unlimited, unended⟩⟩
      · exact ⟨K.course.trans led' led'', .inr ⟨k', v :: vs, by simp [same], .succ allowed round more⟩⟩
    · intro place expected υ _ _ led' round
      exact ⟨led', .inr ⟨i, [], by simp, .stop allowed round⟩⟩

/-- The two loops of a repetition, one after the other. -/
theorem repetition_does (h : K.Holds m s σ) (henv : K.environment env) {item : ParserId}
    (known : K.known σ item) (least most : Count) {i : Nat} (start : i ≤ s.toList.length) :
    Tries (Behave.repetition m item least most (.str s) (.int i) env) σ
      (fun a υ => K.course.leads σ υ ∧
        Does K.parts s.toList env (.repetition item least most) i a) K.fault := by
  unfold Behave.repetition
  rw [roundsBeyond_zero]
  refine Ends.bind (requiredRounds_exactly h henv (K.course.refl σ) known _ least.rounds ?_ passive_none []
    start) ?_
  · intro n bounded
    rw [bounded]
    rfl
  rintro progress υ ⟨led, ⟨unlimited, j, us, rfl⟩ | rounded⟩
  · simp only [unlimited]
    exact h.endless υ
  cases progress with
  | failed r =>
    obtain ⟨place, expected, rfl, required⟩ := rounded
    exact tries_pure (a := .missed place expected) ⟨led, .repetition_missed required⟩
  | reached index us =>
    obtain ⟨k, vs, rfl, same, required⟩ := rounded
    rw [List.nil_append] at same
    rw [same]
    cases bounded : least.rounds with
    | none =>
      rw [bounded] at required
      cases required
    | some n =>
      rw [bounded] at required
      obtain ⟨_, within⟩ := required.within (fun p i a => h.within p env i a) start
      dsimp only
      rw [roundsBeyond_nat]
      refine Ends.bind (optionalRounds_upTo h henv led (h.persists σ υ item led known) _
        (most.rounds.map (· - n)) ?_ vs (by omega)) ?_
      · intro k limited
        rw [limited]
        rfl
      rintro ⟨stopped, index, us⟩ ω ⟨led', ⟨unlimited, unended⟩ | ⟨k', ws, same, optional⟩⟩
      · obtain rfl : stopped = false := unended
        simp only [unlimited, Option.isNone_none, Bool.not_false, Bool.and_self, if_true]
        exact h.endless ω
      · obtain ⟨rfl, rfl⟩ := Prod.mk.inj same
        dsimp only
        split
        · exact h.endless ω
        · exact tries_pure (a := .matched k' (.list (vs ++ ws)))
            ⟨K.course.trans led led', .repetition bounded required optional⟩

/-- Started on the text, a behaviour ends in an attempt that it can make of its parts. -/
abbrev Footing.Performs (K : Footing) (m : Machine) (s : String) (σ : Store) (env : Value)
    (b : Behaviour Value) (i : Nat) : Prop :=
  Tries (behave m b (.str s) (.int i) env) σ
    (fun a τ => K.course.leads σ τ ∧ Does K.parts s.toList env b i a) K.fault

/-- The behaviours one family after the other: what each ends in is what the rules allow it. -/
theorem leaf_does {b : Behaviour Value} {i : Nat} {a : Attempt} (start : i ≤ s.toList.length)
    (ends : b.leaf? s.toList i = some a) : K.Performs m s σ env b i := by
  rw [Footing.Performs, behave_leaf m env start ends]
  exact tries_pure ⟨K.course.refl σ, .leaf ends⟩

/-- A pattern of bytes gives up, and any other one is a leaf. -/
theorem regex_does {r : Regex} {group i : Nat} (suits : K.Suits σ (.regex r group))
    (start : i ≤ s.toList.length) : K.Performs m s σ env (.regex r group) i := by
  by_cases bytes : r.isBytes = true
  · exact Ends.of_eq_error (behave_bytes m env bytes) (suits.2 bytes)
  · exact leaf_does start (if_pos (Regex.answers_iff.mpr ⟨by simpa using bytes, suits.1⟩))

theorem testChar_does (h : K.Holds m s σ) (henv : K.environment env) {f : Value} {d : String} {i : Nat}
    (suits : K.Suits σ (.testChar f d)) : K.Performs m s σ env (.testChar f d) i := by
  have refl := K.course.refl σ
  refine tries_testChar (fun c there => ?_) fun past => ?_
  · refine (h.ask σ f env c refl suits henv).imp ?_
    rintro v υ ⟨led, answer⟩
    cases truth : (υ.view v).isTruthy with
    | true =>
      rw [truth] at answer
      exact ⟨led, .testChar there answer⟩
    | false =>
      rw [truth] at answer
      refine ⟨led, .testChar_other fun c' there' => ?_⟩
      obtain rfl : c = c' := Option.some.inj (there.symm.trans there')
      exact answer
  · exact ⟨refl, .testChar_other (by simp [past])⟩

theorem sequence_does (h : K.Holds m s σ) (henv : K.environment env) {ps : List ParserId} {i : Nat}
    (suits : K.Suits σ (.sequence ps)) (start : i ≤ s.toList.length) :
    K.Performs m s σ env (.sequence ps) i := by
  refine (sequenceFrom_each h henv ps (K.course.refl σ) suits passive_none [] start).imp ?_
  rintro a υ ⟨led, collected⟩
  refine ⟨led, .sequence ?_⟩
  cases a with
  | matched stop v =>
    obtain ⟨vs, rfl, each⟩ := collected
    exact each
  | missed place expected => exact collected

theorem alternative_does (h : K.Holds m s σ) (henv : K.environment env) {ps : List ParserId} {i : Nat}
    (suits : K.Suits σ (.alternative ps)) (start : i ≤ s.toList.length) :
    K.Performs m s σ env (.alternative ps) i := by
  have given : ps = [] → (none : Option (Int × List String)).isSome := fun none => absurd none suits.1
  refine (alternativeFrom_first h henv ps (K.course.refl σ) suits.2 none given start).imp ?_
  exact fun a υ first => ⟨first.1, .alternative first.2⟩

theorem transform_does (h : K.Holds m s σ) (henv : K.environment env) {inner : ParserId} {f : Value} {i : Nat}
    (suits : K.Suits σ (.transform inner f)) (start : i ≤ s.toList.length) :
    K.Performs m s σ env (.transform inner f) i := by
  have refl := K.course.refl σ
  refine tries_transform (h.tries refl suits.1 henv start ?_ ?_)
  · intro k v υ _ led inner
    rw [h.share f suits.2]
    have led' := K.course.trans led (h.fresh υ ((v.identify υ.nextObject).2))
    refine (h.call _ f _ (K.course.trans refl led') suits.2).imp ?_
    rintro r ω ⟨led'', returned⟩
    exact ⟨K.course.trans led' led'', .transform inner rfl (h.returns _ _ _ _ returned).1⟩
  · exact fun place expected υ _ _ led missed => ⟨led, .transform_missed missed⟩

theorem exclude_does (h : K.Holds m s σ) (henv : K.environment env) {allowed forbidden : ParserId} {i : Nat}
    (suits : K.Suits σ (.exclude allowed forbidden)) (start : i ≤ s.toList.length) :
    K.Performs m s σ env (.exclude allowed forbidden) i := by
  refine tries_exclude (h.tries (K.course.refl σ) suits.2 henv start ?_ ?_)
  · exact fun k v υ _ led found => ⟨led, .exclude_forbidden found⟩
  · intro place unwanted υ _ said led absent
    refine ⟨said, h.tries led (h.persists σ υ _ led suits.1) henv start ?_ ?_⟩
    · exact fun k v ω _ led' found => ⟨K.course.trans led led', .exclude absent found⟩
    · exact fun place' wanted ω _ said' led' missing =>
        ⟨said', K.course.trans led led', .exclude_missed absent missing⟩

theorem describe_does (h : K.Holds m s σ) (henv : K.environment env) {inner : ParserId} {d : String} {i : Nat}
    (suits : K.Suits σ (.describe inner d)) (start : i ≤ s.toList.length) :
    K.Performs m s σ env (.describe inner d) i := by
  refine tries_describe (h.tries (K.course.refl σ) suits henv start ?_ ?_)
  · exact fun k v υ _ led found => ⟨led, .describe found⟩
  · exact fun place expected υ _ _ led missing => ⟨led, .describe_missed missing⟩

theorem mark_does (h : K.Holds m s σ) (henv : K.environment env) {framed : ParserId} {i : Nat}
    (suits : K.Suits σ (.mark framed)) (start : i ≤ s.toList.length) : K.Performs m s σ env (.mark framed) i := by
  refine tries_mark (h.tries (K.course.refl σ) suits.1 henv start ?_ ?_)
  · intro k v υ _ led found
    obtain ⟨x, y, z, rfl⟩ := suits.2 env i k v found
    exact ⟨x, y, z, rfl, led, .mark found⟩
  · exact fun place expected υ _ _ led missing => ⟨led, .mark_missed missing⟩

theorem chain_does (h : K.Holds m s σ) (henv : K.environment env) {first : ParserId} {decide : Value} {i : Nat}
    (suits : K.Suits σ (.chain first decide)) (start : i ≤ s.toList.length) :
    K.Performs m s σ env (.chain first decide) i := by
  refine tries_chain (h.share decide suits.2) (h.tries (K.course.refl σ) suits.1 henv start ?_ ?_)
  · intro k v υ within led found
    -- The function is asked once the result and its value have got their identities.
    have led' := K.course.trans led (h.fresh υ ((v.identify υ.nextObject).2 + 1))
    refine (h.call _ decide _ led' suits.2).imp ?_
    rintro r ω ⟨led'', returned⟩
    obtain ⟨called, one⟩ := h.returns _ _ _ _ returned
    have led₃ := K.course.trans led' led''
    refine ⟨?_, fun none => h.refuses _ _ _ _ _ returned none (.inl rfl)⟩
    rintro next rfl there
    refine h.tries led₃ (one next rfl there) henv within ?_ ?_
    · intro j w ω' _ led₄ rest
      exact ⟨by simp, K.course.trans led₃ led₄, .chain found rfl called rest⟩
    · intro place expected ω' inside _ led₄ rest
      refine ⟨?_, K.course.trans led₃ led₄, .chain found rfl called rest⟩
      rintro k' expected' ⟨⟩
      exact inside
  · exact fun place expected υ _ _ led missing => ⟨led, .chain_missed missing⟩

theorem subEnvironment_does (h : K.Holds m s σ) (henv : K.environment env) {inner : ParserId} {derive : Value}
    {i : Nat} (suits : K.Suits σ (.subEnvironment inner derive)) (start : i ≤ s.toList.length) :
    K.Performs m s σ env (.subEnvironment inner derive) i := by
  refine Ends.bind (h.call σ derive [env] (K.course.refl σ) suits.2) ?_
  rintro inside υ ⟨led, returned⟩
  have henv' := h.derives _ _ _ _ returned henv
  refine (h.run υ inner inside i led (h.persists σ υ _ led suits.1) henv' start).imp ?_
  rintro a ω ⟨led', ran⟩
  exact ⟨K.course.trans led led', .subEnvironment (h.returns _ _ _ _ returned).1 ran⟩

theorem deferredLookup_does (h : K.Holds m s σ) (henv : K.environment env) {resolve : Value} {name : String}
    {i : Nat} (suits : K.Suits σ (.deferredLookup resolve name)) (start : i ≤ s.toList.length) :
    K.Performs m s σ env (.deferredLookup resolve name) i := by
  refine tries_deferredLookup ((h.call σ resolve [env] (K.course.refl σ) suits).imp ?_)
  rintro found υ ⟨led, returned⟩
  obtain ⟨called, one⟩ := h.returns _ _ _ _ returned
  refine ⟨?_, fun none => h.refuses _ _ _ _ _ returned none (.inr ⟨name, rfl⟩)⟩
  rintro next rfl there
  refine (h.run υ next env i led (one next rfl there) henv start).imp ?_
  rintro a ω ⟨led', ran⟩
  exact ⟨K.course.trans led led', .deferredLookup called ran⟩

/-- A behaviour ends in an attempt that it can make of its parts. -/
theorem behave_does (h : K.Holds m s σ) (henv : K.environment env) {b : Behaviour Value}
    (suits : K.Suits σ b) {i : Nat} (start : i ≤ s.toList.length) : K.Performs m s σ env b i := by
  cases b with
  | testChar f d => exact testChar_does h henv suits
  | sequence ps => exact sequence_does h henv suits start
  | alternative ps => exact alternative_does h henv suits start
  | repetition item least most => exact repetition_does h henv suits least most start
  | transform inner f => exact transform_does h henv suits start
  | exclude allowed forbidden => exact exclude_does h henv suits start
  | describe inner d => exact describe_does h henv suits start
  | mark framed => exact mark_does h henv suits start
  | chain first decide => exact chain_does h henv suits start
  | subEnvironment inner derive => exact subEnvironment_does h henv suits start
  | deferredLookup resolve name => exact deferredLookup_does h henv suits start
  | debug inner handler => exact suits.elim
  | regex r group => exact regex_does suits start
  | anyChar | rest | eof | index | lineColumnIndex | succeed | fail | string => exact leaf_does start rfl

end Evaluation

/-! ### Runs -/

/-- The built-in behaviour that a parser has at present. -/
def Store.behaviour? (σ : Store) (p : ParserId) : Option (Behaviour Value) :=
  (σ.parser? p).bind fun s => match s.behaviour.content with
    | .behaviour b => some b
    | _ => none

/-- What a parser with a built-in behaviour does at present. -/
theorem runCurrent_behave {host : Host} {m : Machine} {σ : Store} {p : ParserId} {b : Behaviour Value}
    (text i env : Value) (now : σ.behaviour? p = some b) :
    runCurrent host m p text i env σ = behave m b text i env σ := by
  obtain ⟨state, known, does⟩ := Option.bind_eq_some_iff.mp now
  rw [runCurrent_some text i env known]
  unfold invoke
  split at does
  · next c same =>
    obtain rfl := Option.some.inj does
    rw [same]
  · cases does

/-- Without a tracer, a run does what the parser does at present, on the machine below. -/
theorem run_above {host : Host} {m : Machine} {σ : Store} {p : ParserId} {b : Behaviour Value}
    (text i env : Value) (untraced : σ.tracers = []) (now : σ.behaviour? p = some b) :
    (m.above host).run p text i env σ = behave m b text i env σ := by
  rw [run_untraced text i env untraced, runCurrent_behave text i env now]

end Rebind
