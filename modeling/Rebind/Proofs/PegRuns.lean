import Rebind.Proofs.Peg
/-!
# Runs and derivations agree

For parsers whose behaviours are those of a parsing expression grammar, running one on a text gives a
success exactly where the grammar derives that it matches, with the same end and the same value, and a
failure exactly where the grammar derives that it fails.  Parsers refer to each other by identity, so a
grammar may refer to itself; a run that has enough room for its nesting and for its rounds returns
exactly if there is a derivation.
-/
namespace Rebind

/-- Something holds of every machine with enough room for nesting and for rounds. -/
def Soon (host : Host) (P : Machine → Prop) : Prop :=
  ∃ room, ∀ rounds depth, room ≤ rounds → room ≤ depth → P (machine host rounds depth)

section Soon

variable {host : Host} {P Q : Machine → Prop}

theorem soon_of_forall (h : ∀ m, P m) : Soon host P := ⟨0, fun _ _ _ _ => h _⟩

/-- What holds with enough room holds together with enough room. -/
theorem Soon.and (hp : Soon host P) (hq : Soon host Q) : Soon host fun m => P m ∧ Q m := by
  obtain ⟨a, hp⟩ := hp
  obtain ⟨b, hq⟩ := hq
  refine ⟨max a b, fun rounds depth enough deep => ⟨hp _ _ ?_ ?_, hq _ _ ?_ ?_⟩⟩ <;> omega

theorem Soon.mono (hp : Soon host P) (h : ∀ m, P m → Q m) : Soon host Q := by
  obtain ⟨room, hp⟩ := hp
  exact ⟨room, fun rounds depth enough deep => h _ (hp rounds depth enough deep)⟩

/-- One machine up, what holds of runs below holds of a run. -/
theorem Soon.above (hp : Soon host P) (h : ∀ m, P m → Q (m.above host)) : Soon host Q := by
  obtain ⟨room, hp⟩ := hp
  refine ⟨room + 1, fun rounds depth enough deep => ?_⟩
  cases depth with
  | zero => omega
  | succ depth => exact h _ (hp rounds depth (by omega) (by omega))

theorem soon_rounds (least : Nat) : Soon host fun m => least ≤ m.rounds := by
  refine ⟨least, fun rounds depth enough _ => ?_⟩
  show least ≤ (machine host rounds depth).rounds
  rw [machine_rounds]
  exact enough

end Soon

namespace Peg

/-- The behaviours of a parsing expression grammar over some parsers and predicates. -/
def Covered (parsers : ParserId → Prop) (predicates : Value → Prop) : Behaviour Value → Prop
  | .anyChar | .rest | .eof | .succeed _ | .fail _ | .string _ => True
  | .regex r group => group ≤ r.groupCount
  | .testChar f _ => predicates f
  | .sequence parts => ∀ p ∈ parts, parsers p
  | .alternative choices => choices ≠ [] ∧ ∀ p ∈ choices, parsers p
  | .repetition item _ _ => parsers item
  | .exclude a f => parsers a ∧ parsers f
  | .describe p _ => parsers p
  | _ => False

/-- A set of parsers that refer only to each other, in a store without active tracers. -/
structure Closed (σ : Store) (parsers : ParserId → Prop) (predicates : Value → Prop) : Prop where
  untraced : σ.tracers = []
  covered : ∀ p, parsers p → ∃ b, σ.behaviour? p = some b ∧ Covered parsers predicates b

/-- A store that differs only in how many identities were given. -/
def Fresh (σ τ : Store) : Prop := ∃ n, τ = { σ with nextObject := n }

theorem Fresh.refl (σ : Store) : Fresh σ σ := ⟨σ.nextObject, rfl⟩

theorem Fresh.between {σ τ υ : Store} (first : Fresh σ τ) (last : Fresh σ υ) : Fresh τ υ := by
  obtain ⟨n, rfl⟩ := first
  obtain ⟨k, rfl⟩ := last
  exact ⟨k, rfl⟩

/-- A run was given up because it was nested too deeply or would never end. -/
def Limit (e : Fault) : Prop := e = .raised (.error .tooDeep) ∨ e = .endless

/-- How a run of a grammar may be given up: a limit was met, or a pattern of bytes was asked to match a text. -/
def GivesUp (e : Fault) : Prop := Limit e ∨ e = .raised (.error .wrongType)

/-- A predicate that holds for certain characters and does nothing else: called on a machine of any
size it says so unless a limit is met, and with enough room none is met. -/
structure Decides (host : Host) (σ : Store) (env f : Value) (holds : Char → Bool) : Prop where
  tells : ∀ rounds depth τ c, Fresh σ τ →
    Ends ((machine host rounds depth).call f [.ofChar c, env]) τ
      (fun v υ => Fresh σ υ ∧ (υ.view v).isTruthy = holds c) fun e _ => Limit e
  ends : ∀ c, Soon host fun m => ∀ τ, Fresh σ τ → ∃ v υ, m.call f [.ofChar c, env] τ = .ok v υ

/-- A predicate answers with enough room. -/
theorem Decides.soon {host : Host} {σ : Store} {env f : Value} {holds : Char → Bool}
    (h : Decides host σ env f holds) (c : Char) : Soon host fun m => ∀ τ, Fresh σ τ →
      Ends (m.call f [.ofChar c, env]) τ (fun v υ => Fresh σ υ ∧ (υ.view v).isTruthy = holds c)
        fun _ _ => False := by
  obtain ⟨room, returns⟩ := h.ends c
  refine ⟨room, fun rounds depth enough deep τ fresh => ?_⟩
  obtain ⟨v, υ, ended⟩ := returns rounds depth enough deep τ fresh
  exact Ends.of_eq_ok ended ((h.tells rounds depth τ c fresh).ok ended)

/-- An attempt comes out as a verdict says. -/
def Shows : Attempt → Verdict → Prop
  | .matched j v, .matched k w => j = k ∧ v = w
  | .missed place expected, .failed => 0 ≤ place ∧ expected ≠ []
  | _, _ => False

/-! ### What runs return is derived -/

section Sound

variable {host : Host} {m : Machine} {σ : Store} {accepts : Value → Char → Bool} {s : String}
  {env : Value} {parsers : ParserId → Prop} {predicates : Value → Prop}

/-- An attempt agrees with the derivations of a goal. -/
def Agrees (σ : Store) (accepts : Value → Char → Bool) (text : List Char) (goal : Goal) (i : Nat)
    (a : Attempt) : Prop :=
  ∃ verdict, Derives σ accepts text goal i verdict ∧ Shows a verdict

/-- The course of a store in which only identities are given. -/
def freshening : Course where
  leads σ τ := Fresh σ τ
  refl := Fresh.refl
  trans := by
    rintro σ τ υ ⟨n, rfl⟩ ⟨k, rfl⟩
    exact ⟨k, rfl⟩

/-- What is known of the runs of a grammar: they stay within the text and agree with what is derived. -/
def footing (σ : Store) (accepts : Value → Char → Bool) (s : String) (env : Value)
    (parsers : ParserId → Prop) (predicates : Value → Prop) : Footing where
  course := freshening
  known _ := parsers
  predicate := predicates
  callable _ := False
  environment := (· = env)
  parts :=
    { run := fun p _ i a => parsers p ∧ (i ≤ s.toList.length → a.Within s.toList.length i) ∧
        Agrees σ accepts s.toList (.parser p) i a
      accepts := fun f _ c answer => accepts f c = answer
      call := fun _ _ _ => False }
  returned _ _ _ _ := False
  fault e _ := GivesUp e

/-- A leaf agrees with the rule for leaves. -/
theorem leaf_agrees {b : Behaviour Value} {i : Nat} {a : Attempt} {text : List Char}
    (covered : Covered parsers predicates b) (h : b.leaf? text i = some a) :
    Agrees σ accepts text (.does b) i a := by
  cases b with
  | anyChar =>
    obtain rfl := Option.some.inj h
    cases there : text[i]? with
    | some c => exact ⟨_, .anyChar there, by simp [Shows]⟩
    | none => exact ⟨_, .anyChar_past there, by simp [Shows]⟩
  | rest =>
    obtain rfl := Option.some.inj h
    exact ⟨_, .rest, rfl, rfl⟩
  | eof =>
    obtain rfl := Option.some.inj h
    by_cases before : i < text.length
    · exact ⟨_, .eof_before before, by simp [Shows, before]⟩
    · exact ⟨_, .eof (by omega), by simp [Shows, before]⟩
  | succeed v =>
    obtain rfl := Option.some.inj h
    exact ⟨_, .succeed, rfl, rfl⟩
  | fail d =>
    obtain rfl := Option.some.inj h
    exact ⟨_, .fail, by simp [Shows]⟩
  | string literal =>
    obtain rfl := Option.some.inj h
    by_cases there : literal.toList.isPrefixOf (text.drop i) = true
    · exact ⟨_, .string (List.isPrefixOf_iff_prefix.mp there), by simp [Shows, there]⟩
    · refine ⟨_, .string_other fun stands => there (List.isPrefixOf_iff_prefix.mpr stands), ?_⟩
      simp [Shows, there]
  | regex r group =>
    obtain ⟨answers, rfl⟩ := Behaviour.leaf?_regex h
    have isText := (Regex.answers_iff.mp answers).1
    cases there : Regex.matchStart? r (text.drop i) with
    | some found => exact ⟨_, .regex isText there, by simp [Shows]⟩
    | none => exact ⟨_, .regex_other isText there, by simp [Shows]⟩
  | index | lineColumnIndex => exact covered.elim
  | _ => exact absurd h (by simp [Behaviour.leaf?])

section Stretches

variable {run : ParserId → Nat → Attempt → Prop} {text : List Char}

/-- A success that agrees is one that is derived. -/
theorem Agrees.matched {goal : Goal} {i j : Nat} {v : Value}
    (h : Agrees σ accepts text goal i (.matched j v)) :
    Derives σ accepts text goal i (.matched j v) := by
  obtain ⟨verdict, derived, shows⟩ := h
  cases verdict with
  | failed => exact shows.elim
  | matched k w =>
    obtain ⟨same, rfl⟩ := shows
    obtain rfl : j = k := by omega
    exact derived

/-- A failure is derived, lies in the text and expects something. -/
theorem Agrees.failed {goal : Goal} {i : Nat} {place : Int} {expected : List String}
    (h : Agrees σ accepts text goal i (.missed place expected)) :
    Derives σ accepts text goal i .failed ∧ 0 ≤ place ∧ expected ≠ [] := by
  obtain ⟨verdict, derived, shows⟩ := h
  cases verdict with
  | failed => exact ⟨derived, shows⟩
  | matched k w => exact shows.elim

/-- By induction on the parts of a sequence. -/
theorem each_agrees (h : ∀ p i a, run p i a → Agrees σ accepts text (.parser p) i a)
    {ps : List ParserId} {i : Nat} {a : Attempt} (each : EachOf run ps i a) :
    Agrees σ accepts text (.each ps) i a := by
  induction each with
  | nil => exact ⟨_, .each_nil, rfl, rfl⟩
  | @cons p ps i j stop v vs head tail ih =>
    obtain ⟨verdict, derived, shows⟩ := ih
    cases verdict with
    | failed => exact shows.elim
    | matched k w =>
      obtain ⟨rfl, rfl⟩ := shows
      exact ⟨_, .each_cons (h _ _ _ head).matched derived, rfl, rfl⟩
  | head head =>
    obtain ⟨derived, shows⟩ := (h _ _ _ head).failed
    exact ⟨_, .each_head_failed derived, shows⟩
  | tail head tail ih =>
    obtain ⟨derived, shows⟩ := ih.failed
    exact ⟨_, .each_tail_failed (h _ _ _ head).matched derived, shows⟩

/-- A failure that says at a place in the text what was expected, or none. -/
def Earlier : Option (Int × List String) → Prop
  | none => True
  | some (place, expected) => 0 ≤ place ∧ expected ≠ []

theorem Earlier.after {earlier : Option (Int × List String)} (h : Earlier earlier) {place : Int}
    {expected : List String} (inside : 0 ≤ place) (wanted : expected ≠ []) :
    Earlier (some (Attempt.after place expected earlier)) := by
  rcases Attempt.after_cases place expected earlier with same | same | ⟨others, _, same⟩
  · rw [same]
    exact ⟨inside, wanted⟩
  · rw [← same]
    exact h
  · rw [same]
    exact ⟨inside, by simp [wanted]⟩

/-- By induction on the choices. -/
theorem first_agrees (h : ∀ p i a, run p i a → Agrees σ accepts text (.parser p) i a)
    {ps : List ParserId} {i : Nat} {earlier : Option (Int × List String)} {a : Attempt}
    (first : FirstOf run i ps earlier a) (before : Earlier earlier) :
    Agrees σ accepts text (.first ps) i a := by
  induction first with
  | nil => exact ⟨_, .first_nil, before⟩
  | head head =>
    obtain ⟨verdict, derived, shows⟩ := h _ _ _ head
    cases verdict with
    | failed => exact shows.elim
    | matched k w => exact ⟨_, .first_head derived, shows⟩
  | tail head tail ih =>
    obtain ⟨missed, inside, wanted⟩ := (h _ _ _ head).failed
    obtain ⟨verdict, derived, shows⟩ := ih (before.after inside wanted)
    exact ⟨verdict, .first_tail missed derived, shows⟩

/-- By induction on the rounds that have to succeed. -/
theorem exactly_agrees (h : ∀ p i a, run p i a → Agrees σ accepts text (.parser p) i a)
    {item : ParserId} {limit : Option Nat} {i : Nat} {a : Attempt}
    (exactly : Exactly run item limit i a) : Agrees σ accepts text (.exactly item limit) i a := by
  induction exactly with
  | zero => exact ⟨_, .exactly_zero, rfl, rfl⟩
  | succ round more ih =>
    obtain ⟨verdict, derived, shows⟩ := ih
    cases verdict with
    | failed => exact shows.elim
    | matched k w =>
      obtain ⟨rfl, rfl⟩ := shows
      exact ⟨_, .exactly_succ (h _ _ _ round).matched derived, rfl, rfl⟩
  | failed asked round =>
    obtain ⟨derived, shows⟩ := (h _ _ _ round).failed
    exact ⟨_, .exactly_failed asked derived, shows⟩
  | later asked round more ih =>
    obtain ⟨derived, shows⟩ := ih.failed
    exact ⟨_, .exactly_later_failed asked (h _ _ _ round).matched derived, shows⟩

/-- By induction on the rounds that may follow. -/
theorem upTo_derives (h : ∀ p i a, run p i a → Agrees σ accepts text (.parser p) i a)
    {item : ParserId} {limit : Option Nat} {i k : Nat} {vs : List Value}
    (upTo : UpTo run item limit i k vs) :
    Derives σ accepts text (.upTo item limit) i (.matched k (.list vs)) := by
  induction upTo with
  | zero => exact .upTo_zero
  | stop allowed round => exact .upTo_stop allowed (h _ _ _ round).failed.1
  | succ allowed round more ih => exact .upTo_succ allowed (h _ _ _ round).matched ih

end Stretches

/-- A behaviour of the grammar ends as derived if its parts do. -/
theorem does_agrees {b : Behaviour Value} (covered : Covered parsers predicates b) {i : Nat} {a : Attempt}
    (does : Does (footing σ accepts s env parsers predicates).parts s.toList env b i a) :
    Agrees σ accepts s.toList (.does b) i a := by
  have runs : ∀ p i a, (footing σ accepts s env parsers predicates).parts.run p env i a →
      Agrees σ accepts s.toList (.parser p) i a := fun p i a h => h.2.2
  cases does with
  | leaf h => exact leaf_agrees covered h
  | testChar there holds => exact ⟨_, .testChar there holds, by simp [Shows]⟩
  | testChar_other other => exact ⟨_, .testChar_other other, by simp [Shows]⟩
  | sequence each =>
    obtain ⟨verdict, derived, shows⟩ := each_agrees runs each
    exact ⟨verdict, .sequence derived, shows⟩
  | alternative first =>
    obtain ⟨verdict, derived, shows⟩ := first_agrees runs first trivial
    exact ⟨verdict, .alternative derived, shows⟩
  | repetition bounded required optional =>
    have derived := (exactly_agrees runs required).matched
    exact ⟨_, .repetition bounded derived (upTo_derives runs optional), rfl, rfl⟩
  | repetition_missed required =>
    obtain ⟨derived, shows⟩ := (exactly_agrees runs required).failed
    exact ⟨_, .repetition_failed derived, shows⟩
  | exclude_forbidden found =>
    obtain ⟨verdict, derived, shows⟩ := runs _ _ _ found
    cases verdict with
    | failed => exact shows.elim
    | matched k w => exact ⟨_, .exclude_forbidden derived, by simp [Shows]⟩
  | exclude absent found =>
    obtain ⟨verdict, derived, shows⟩ := runs _ _ _ found
    exact ⟨verdict, .exclude (runs _ _ _ absent).failed.1 derived, shows⟩
  | exclude_missed absent missing =>
    have failed := (runs _ _ _ missing).failed.1
    exact ⟨_, .exclude (runs _ _ _ absent).failed.1 failed, by simp [Shows]⟩
  | describe found =>
    obtain ⟨verdict, derived, shows⟩ := runs _ _ _ found
    exact ⟨verdict, .describe derived, shows⟩
  | describe_missed missing =>
    obtain ⟨derived, inside, _⟩ := (runs _ _ _ missing).failed
    exact ⟨_, .describe derived, inside, by simp⟩
  | _ => exact covered.elim

/-- A behaviour of the grammar is one that runs know. -/
theorem suits_of_covered {b : Behaviour Value} (covered : Covered parsers predicates b) {τ : Store} :
    (footing σ accepts s env parsers predicates).Suits τ b := by
  cases b with
  | index | lineColumnIndex | transform | mark | chain | subEnvironment | deferredLookup | debug =>
    exact covered.elim
  | anyChar | rest | eof | succeed | fail | string => exact trivial
  | regex => exact ⟨covered, fun _ => .inr rfl⟩
  | _ => exact covered

/-- Whatever a run of any depth returns is derived. -/
theorem run_agrees (closed : Closed σ parsers predicates)
    (decides : ∀ f, predicates f → Decides host σ env f (accepts f)) (rounds depth : Nat) {τ : Store}
    (fresh : Fresh σ τ) {p : ParserId} (known : parsers p) {i : Nat} (start : i ≤ s.toList.length) :
    Tries ((machine host rounds depth).run p (.str s) (.int i) env) τ
      (fun a υ => Fresh τ υ ∧ parsers p ∧ (i ≤ s.toList.length → a.Within s.toList.length i) ∧
        Agrees σ accepts s.toList (.parser p) i a) fun e _ => GivesUp e := by
  induction depth generalizing τ p i with
  | zero => exact .inl (.inl rfl)
  | succ depth ih =>
    obtain ⟨b, now, covered⟩ := closed.covered p known
    have holds : (footing σ accepts s env parsers predicates).Holds (machine host rounds depth) s τ :=
      { run := by
          rintro υ q _ j led inside rfl begin
          refine (ih (freshening.trans fresh led) inside begin).imp ?_
          exact fun a ω ran => ⟨ran.1, ran.2⟩
        within := fun _ _ _ _ ran => ran.2.1
        ask := by
          rintro υ f _ c led pure rfl
          have asked := freshening.trans fresh led
          refine ((decides f pure).tells rounds depth υ c asked).mono ?_ fun _ _ met => .inl met
          exact fun v ω told => ⟨asked.between told.1, told.2.symm⟩
        call := fun _ _ _ _ none => none.elim
        returns := fun _ _ _ _ none => none.elim
        refuses := fun _ _ _ _ _ none => none.elim
        derives := fun _ _ _ _ none => none.elim
        persists := fun _ _ _ _ inside => inside
        fresh := fun υ n => ⟨n, rfl⟩
        share := fun _ none => none.elim
        endless := fun _ => .inl (.inr rfl) }
    have untraced : τ.tracers = [] := by
      obtain ⟨n, rfl⟩ := fresh
      exact closed.untraced
    have same : τ.behaviour? p = some b := by
      obtain ⟨n, rfl⟩ := fresh
      exact now
    refine Ends.congr (run_above (.str s) (.int i) env untraced same) ?_
    refine (behave_does holds rfl (suits_of_covered covered) start).imp ?_
    rintro a υ ⟨led, does⟩
    obtain ⟨verdict, derived, shows⟩ := does_agrees covered does
    exact ⟨led, known, does.within fun _ _ _ _ ran => ran.2.1, verdict, .parser now derived, shows⟩

end Sound

/-! ### What is derived is returned -/

section Complete

variable {host : Host} {σ : Store} {accepts : Value → Char → Bool} {s : String} {env : Value}
  {parsers : ParserId → Prop} {predicates : Value → Prop}

/-- An evaluation ends with an attempt that comes out as a verdict says, and without a fault. -/
def Settles (σ : Store) (x : Eval Value) (τ : Store) (verdict : Verdict) : Prop :=
  Tries x τ (fun a υ => Fresh σ υ ∧ Shows a verdict) fun _ _ => False

/-- What settles on a success ends in it, in a fresh store. -/
theorem Settles.matched {x : Eval Value} {τ : Store} {k : Nat} {v : Value}
    (h : Settles σ x τ (.matched k v)) {post : Attempt → Store → Prop}
    (hpost : ∀ υ, Fresh σ υ → post (.matched k v) υ) : Tries x τ post fun _ _ => False := by
  refine h.imp ?_
  rintro a υ ⟨fresh, shows⟩
  cases a with
  | matched j w =>
    obtain ⟨rfl, rfl⟩ := shows
    exact hpost υ fresh
  | missed place expected => exact shows.elim

/-- What settles on a failure ends in one. -/
theorem Settles.failed {x : Eval Value} {τ : Store} (h : Settles σ x τ .failed)
    {post : Attempt → Store → Prop}
    (hpost : ∀ place expected υ, 0 ≤ place → expected ≠ [] → Fresh σ υ →
      post (.missed place expected) υ) : Tries x τ post fun _ _ => False := by
  refine h.imp ?_
  rintro a υ ⟨fresh, shows⟩
  cases a with
  | matched j w => exact shows.elim
  | missed place expected => exact hpost place expected υ shows.1 shows.2 fresh

/-- An attempt comes out as a verdict says, where the verdict's values are added to a list. -/
def Collects (values : List Value) : Attempt → Verdict → Prop
  | .matched j v, .matched k w => j = k ∧ ∃ vs, w = .list vs ∧ v = .list (values ++ vs)
  | .missed place expected, .failed => 0 ≤ place ∧ expected ≠ []
  | _, _ => False

/-- A list that was collected from nothing is a verdict. -/
theorem Collects.shows {a : Attempt} {verdict : Verdict} (h : Collects [] a verdict) :
    Shows a verdict := by
  cases a with
  | matched j v =>
    cases verdict with
    | matched k w =>
      obtain ⟨same, vs, rfl, rfl⟩ := h
      exact ⟨same, rfl⟩
    | failed => exact h
  | missed place expected =>
    cases verdict with
    | matched k w => exact h
    | failed => exact h

/-- Rounds come out as a verdict says, where the verdict's values are added to a list. -/
def Reaches (values : List Value) : Behave.Progress → Verdict → Prop
  | .reached v us, .matched k w => v = .int k ∧ ∃ vs, w = .list vs ∧ us = values ++ vs
  | .failed r, .failed => ∃ place expected, r = (Attempt.missed place expected).value ∧
    0 ≤ place ∧ expected ≠ []
  | _, _ => False

/-- What it means that a machine carries a derivation out.  Where work goes on from what was done
before, it does so whatever that was; rounds without a limit need at least so much fuel. -/
def Realized (σ : Store) (s : String) (env : Value) (least : Nat) (m : Machine) :
    Goal → Nat → Verdict → Prop
  | .parser p, i, verdict => ∀ τ, Fresh σ τ → Settles σ (m.run p (.str s) (.int i) env) τ verdict
  | .does b, i, verdict => ∀ τ, Fresh σ τ → Settles σ (behave m b (.str s) (.int i) env) τ verdict
  | .each parts, i, verdict => ∀ previous values τ, Passive previous → Fresh σ τ →
    Tries (Behave.sequenceFrom m (.str s) env parts previous values (.int i)) τ
      (fun a υ => Fresh σ υ ∧ Collects values a verdict) fun _ _ => False
  | .first choices, i, verdict => ∀ earlier τ, Earlier earlier → (choices = [] → earlier.isSome) →
    Fresh σ τ → Settles σ (Behave.alternativeFrom m (.str s) (.int i) env choices
      (Attempt.failureValue earlier)) τ verdict
  | .exactly item limit, i, verdict => ∀ fuel previous values τ,
    (∀ n, limit = some n → fuel = n) → (limit = none → least ≤ fuel) → Passive previous → Fresh σ τ →
    Ends (Behave.requiredRounds m item (.str s) env fuel previous values (.int i)) τ
      (fun progress υ => Fresh σ υ ∧ Reaches values progress verdict) fun _ _ => False
  | .upTo item limit, i, verdict => ∀ fuel values τ,
    (∀ n, limit = some n → fuel = n) → (limit = none → least ≤ fuel) → Fresh σ τ →
    Ends (Behave.optionalRounds m item (.str s) env fuel values (.int i)) τ
      (fun reached υ => Fresh σ υ ∧ (limit = none → reached.1 = true) ∧
        ∃ (k : Nat) (vs : List Value), verdict = .matched k (.list vs) ∧
          reached.2 = (.int k, values ++ vs)) fun _ _ => False

/-- The parsers and predicates of a goal are those of a grammar. -/
def Goal.Covered (parsers : ParserId → Prop) (predicates : Value → Prop) : Goal → Prop
  | .parser p => parsers p
  | .does b => Peg.Covered parsers predicates b
  | .each parts => ∀ p ∈ parts, parsers p
  | .first choices => ∀ p ∈ choices, parsers p
  | .exactly item _ => parsers item
  | .upTo item _ => parsers item

/-- Machines with enough room carry a derivation out. -/
def Carried (host : Host) (σ : Store) (s : String) (env : Value) (goal : Goal) (i : Nat)
    (verdict : Verdict) : Prop :=
  ∃ least, Soon host fun m => Realized σ s env least m goal i verdict

variable {goal goal' goal'' : Goal} {i j k : Nat} {verdict verdict' verdict'' : Verdict} {least : Nat}
  {m : Machine} {p item : ParserId} {v : Value} {vs : List Value} {rounds : Option Nat}

/-- What is carried out on every machine. -/
theorem carried_of_forall (h : ∀ m, Realized σ s env 0 m goal i verdict) : Carried host σ s env goal i verdict :=
  ⟨0, soon_of_forall h⟩

/-- A rule with one premise.  Rounds without a limit may need one more than those of the premise. -/
theorem Carried.step (h : Carried host σ s env goal i verdict)
    (rule : ∀ m least, least ≤ m.rounds → Realized σ s env least m goal i verdict →
      Realized σ s env (least + 1) m goal' j verdict') : Carried host σ s env goal' j verdict' := by
  obtain ⟨least, soon⟩ := h
  exact ⟨least + 1, (soon.and (soon_rounds least)).mono fun m carries => rule m least carries.2 carries.1⟩

/-- A rule with two premises.  Rounds without a limit may need one more than those of the second. -/
theorem Carried.step₂ (h : Carried host σ s env goal i verdict) (h' : Carried host σ s env goal' j verdict')
    (rule : ∀ m least least', least' ≤ m.rounds → Realized σ s env least m goal i verdict →
      Realized σ s env least' m goal' j verdict' → Realized σ s env (least' + 1) m goal'' k verdict'') :
    Carried host σ s env goal'' k verdict'' := by
  obtain ⟨least, soon⟩ := h
  obtain ⟨least', soon'⟩ := h'
  exact ⟨least' + 1, ((soon.and soon').and (soon_rounds least')).mono fun m carries =>
    rule m least least' carries.2 carries.1.1 carries.1.2⟩

/-! #### Leaves -/

/-- A behaviour that only computes carries its derivations out. -/
theorem leaf_carried {b : Behaviour Value} {a : Attempt} (start : i ≤ s.toList.length)
    (h : b.leaf? s.toList i = some a) (shows : Shows a verdict) :
    Carried host σ s env (.does b) i verdict := by
  refine carried_of_forall fun m τ fresh => ?_
  rw [behave_leaf m env start h]
  exact tries_pure ⟨fresh, shows⟩

/-- A predicate is asked of the character that is there. -/
theorem testChar_carried {f : Value} {d : String} {c : Char}
    (decides : Decides host σ env f (accepts f)) (there : s.toList[i]? = some c)
    (shows : Shows (if accepts f c then .matched (i + 1) (.ofChar c) else .missed i [d]) verdict) :
    Carried host σ s env (.does (.testChar f d)) i verdict := by
  refine ⟨0, (decides.soon c).mono fun m asks τ fresh => ?_⟩
  refine tries_testChar (fun c' there' => ?_) fun past => ?_
  · obtain rfl : c = c' := Option.some.inj (there.symm.trans there')
    refine (asks τ fresh).imp ?_
    rintro v υ ⟨fresh', told⟩
    rw [told]
    exact ⟨fresh', shows⟩
  · rw [there] at past
    cases past

/-- The rules one after the other: machines with enough room carry out what a rule concludes from what its
premises say. -/
theorem testChar_past_carried {f : Value} {d : String} (past : s.toList[i]? = none) :
    Carried host σ s env (.does (.testChar f d)) i .failed := by
  refine carried_of_forall fun m τ fresh => ?_
  refine tries_testChar (fun c there => ?_) fun _ => ⟨fresh, by simp [Shows]⟩
  rw [past] at there
  cases there

/-! #### Sequences -/

/-- The verdict on a list whose first value is in front of the others. -/
def Verdict.cons (v : Value) : Verdict → Verdict
  | .matched k (.list vs) => .matched k (.list (v :: vs))
  | other => other

/-- What was added to a list with one value more is that value and what was added to the longer list. -/
theorem Collects.cons {values : List Value} {a : Attempt} (h : Collects (values ++ [v]) a verdict) :
    Collects values a (verdict.cons v) := by
  cases a with
  | matched j w =>
    cases verdict with
    | matched k u =>
      obtain ⟨same, vs, rfl, rfl⟩ := h
      exact ⟨same, _, rfl, by simp⟩
    | failed => exact h.elim
  | missed place expected =>
    cases verdict with
    | matched k u => exact h.elim
    | failed => exact h

theorem each_nil_realized : Realized σ s env least m (.each []) i (.matched i (.list [])) := by
  intro previous values τ _ fresh
  exact tries_sequence_nil ⟨fresh, rfl, [], rfl, by simp⟩

/-- A sequence goes on after its head with whatever the others come to. -/
theorem each_realized {ps : List ParserId} {n n' : Nat}
    (first : Realized σ s env n m (.parser p) i (.matched j v))
    (rest : Realized σ s env n' m (.each ps) j verdict) :
    Realized σ s env least m (.each (p :: ps)) i (verdict.cons v) := by
  intro previous values τ passive fresh
  refine tries_sequence_cons passive ((first τ fresh).matched fun υ fresh' => ?_)
  refine (rest _ (values ++ [_]) υ (passive_matched _ _) fresh').imp ?_
  exact fun a ω collects => ⟨collects.1, collects.2.cons⟩

theorem each_failed_realized {ps : List ParserId} {n : Nat}
    (first : Realized σ s env n m (.parser p) i .failed) :
    Realized σ s env least m (.each (p :: ps)) i .failed := by
  intro previous values τ passive fresh
  refine tries_sequence_cons passive ((first τ fresh).failed ?_)
  exact fun place expected υ inside wanted fresh' => ⟨inside, fresh', inside, wanted⟩

/-! #### Choices -/

theorem first_nil_realized : Realized σ s env least m (.first []) i .failed := by
  intro earlier τ before given fresh
  cases earlier with
  | none => exact absurd (given rfl) (by simp)
  | some failure => exact tries_alternative_nil ⟨fresh, before⟩

theorem first_head_realized {ps : List ParserId} {n : Nat}
    (first : Realized σ s env n m (.parser p) i (.matched j v)) :
    Realized σ s env least m (.first (p :: ps)) i (.matched j v) := by
  intro earlier τ before given fresh
  exact tries_alternative_cons ((first τ fresh).matched fun υ fresh' => ⟨fresh', rfl, rfl⟩)

/-- A choice goes on after a failure, which it keeps in mind. -/
theorem first_tail_realized {ps : List ParserId} {n n' : Nat}
    (first : Realized σ s env n m (.parser p) i .failed)
    (rest : Realized σ s env n' m (.first ps) i verdict) :
    Realized σ s env least m (.first (p :: ps)) i verdict := by
  intro earlier τ before given fresh
  refine tries_alternative_cons ((first τ fresh).failed ?_)
  intro place expected υ inside wanted fresh'
  exact rest _ υ (before.after inside wanted) (fun _ => rfl) fresh'

/-! #### Rounds -/

/-- Rounds that reach further from a list with one value more reach that value and the further ones. -/
theorem Reaches.cons {values : List Value} {progress : Behave.Progress}
    (h : Reaches (values ++ [v]) progress verdict) : Reaches values progress (verdict.cons v) := by
  cases progress with
  | reached j us =>
    cases verdict with
    | matched k u =>
      obtain ⟨same, vs, rfl, rfl⟩ := h
      exact ⟨same, _, rfl, by simp⟩
    | failed => exact h.elim
  | failed r =>
    cases verdict with
    | matched k u => exact h.elim
    | failed => exact h

theorem exactly_zero_realized : Realized σ s env least m (.exactly item (some 0)) i (.matched i (.list [])) := by
  intro fuel previous values τ fits _ _ fresh
  obtain rfl := fits 0 rfl
  exact ⟨fresh, rfl, [], rfl, by simp⟩

/-- A round that is asked for and matches is followed by one round less. -/
theorem exactly_realized {n : Nat} (asked : rounds ≠ some 0)
    (first : Realized σ s env n m (.parser item) i (.matched j v))
    (rest : Realized σ s env least m (.exactly item (rounds.map (· - 1))) j verdict) :
    Realized σ s env (least + 1) m (.exactly item rounds) i (verdict.cons v) := by
  intro fuel previous values τ fits enough passive fresh
  obtain ⟨fuel, rfl⟩ := fuel_succ asked fits fun none => by have := enough none; omega
  refine ends_requiredRounds_succ passive ((first τ fresh).matched fun υ fresh' => ?_)
  refine (rest fuel _ (values ++ [_]) υ (fuel_pred fits) (fun none => ?_) (passive_matched _ _)
    fresh').imp ?_
  · have := enough (Option.map_eq_none_iff.mp none)
    omega
  · exact fun progress ω reaches => ⟨reaches.1, reaches.2.cons⟩

theorem exactly_failed_realized {n : Nat} (asked : rounds ≠ some 0)
    (first : Realized σ s env n m (.parser item) i .failed) :
    Realized σ s env (least + 1) m (.exactly item rounds) i .failed := by
  intro fuel previous values τ fits enough passive fresh
  obtain ⟨fuel, rfl⟩ := fuel_succ asked fits fun none => by have := enough none; omega
  refine ends_requiredRounds_succ passive ((first τ fresh).failed ?_)
  intro place expected υ inside wanted fresh'
  exact ⟨inside, fresh', place, expected, rfl, inside, wanted⟩

theorem upTo_zero_realized : Realized σ s env least m (.upTo item (some 0)) i (.matched i (.list [])) := by
  intro fuel values τ fits _ fresh
  obtain rfl := fits 0 rfl
  exact ⟨fresh, by simp, _, [], rfl, by simp⟩

theorem upTo_stop_realized {n : Nat} (allowed : rounds ≠ some 0)
    (first : Realized σ s env n m (.parser item) i .failed) :
    Realized σ s env (least + 1) m (.upTo item rounds) i (.matched i (.list [])) := by
  intro fuel values τ fits enough fresh
  obtain ⟨fuel, rfl⟩ := fuel_succ allowed fits fun none => by have := enough none; omega
  refine ends_optionalRounds_succ ((first τ fresh).failed ?_)
  intro place expected υ _ _ fresh'
  exact ⟨fresh', fun _ => rfl, i, [], rfl, by simp⟩

theorem upTo_realized {n : Nat} (allowed : rounds ≠ some 0)
    (first : Realized σ s env n m (.parser item) i (.matched j v))
    (rest : Realized σ s env least m (.upTo item (rounds.map (· - 1))) j (.matched k (.list vs))) :
    Realized σ s env (least + 1) m (.upTo item rounds) i (.matched k (.list (v :: vs))) := by
  intro fuel values τ fits enough fresh
  obtain ⟨fuel, rfl⟩ := fuel_succ allowed fits fun none => by have := enough none; omega
  refine ends_optionalRounds_succ ((first τ fresh).matched fun υ fresh' => ?_)
  refine (rest fuel (values ++ [v]) υ (fuel_pred fits) (fun none => ?_) fresh').imp ?_
  · have := enough (Option.map_eq_none_iff.mp none)
    omega
  rintro reached ω ⟨fresh'', stopped, k', vs', known, same⟩
  injection known with ends known
  injection known with known
  refine ⟨fresh'', fun none => stopped (by simp [none]), k', v :: vs', by simp [ends, known], ?_⟩
  simp [same]

/-- The fuel of rounds is their number, and that of rounds without a limit is what the machine has. -/
theorem getD_fits {room : Nat} : ∀ n, rounds = some n → rounds.getD room = n := by
  rintro n rfl
  rfl

theorem room_enough {room : Nat} (room' : least ≤ room) : rounds = none → least ≤ rounds.getD room := by
  rintro rfl
  exact room'

/-- A repetition that has its required rounds goes on with the optional ones. -/
theorem repetition_realized {few most : Count} {n l : Nat} {us : List Value} (bounded : few.rounds = some n)
    (room : least ≤ m.rounds)
    (required : Realized σ s env l m (.exactly item (some n)) i (.matched j (.list us)))
    (optional : Realized σ s env least m (.upTo item (most.rounds.map (· - n))) j (.matched k (.list vs))) :
    Realized σ s env (least + 1) m (.does (.repetition item few most)) i (.matched k (.list (us ++ vs))) := by
  intro τ fresh
  unfold Settles behave Behave.repetition
  dsimp only
  rw [roundsBeyond_zero, bounded]
  refine Ends.bind (required n .none [] τ (fun k same => Option.some.inj same) (fun none => nomatch none)
    passive_none fresh) ?_
  rintro progress υ ⟨fresh', reaches⟩
  cases progress with
  | failed r => exact reaches.elim
  | reached j' us' =>
    obtain ⟨rfl, vs', known, same⟩ := reaches
    injection known with known
    rw [List.nil_append, ← known] at same
    rw [same]
    dsimp only
    rw [roundsBeyond_nat]
    refine Ends.bind (optional _ us υ getD_fits (room_enough room) fresh') ?_
    rintro ⟨stopped, j'', us''⟩ ω ⟨fresh'', ended, k', vs'', known', same'⟩
    injection known' with ends known'
    injection known' with known'
    obtain ⟨rfl, rfl⟩ := Prod.mk.inj same'
    have finished : ((most.rounds.map (· - n)).isNone && !stopped) = false := by
      cases unlimited : most.rounds.map (· - n) with
      | none =>
        have : stopped = true := ended unlimited
        simp [this]
      | some _ => rfl
    simp only [finished, Bool.false_eq_true, if_false]
    exact tries_pure (a := .matched k' (.list (us ++ vs''))) ⟨fresh'', by simp [Shows, ends, known']⟩

theorem repetition_failed_realized {few most : Count} (room : least ≤ m.rounds)
    (required : Realized σ s env least m (.exactly item few.rounds) i .failed) :
    Realized σ s env (least + 1) m (.does (.repetition item few most)) i .failed := by
  intro τ fresh
  unfold Settles behave Behave.repetition
  dsimp only
  rw [roundsBeyond_zero]
  refine Ends.bind (required _ .none [] τ getD_fits (room_enough room) passive_none fresh) ?_
  rintro progress υ ⟨fresh', reaches⟩
  cases progress with
  | reached j us => exact reaches.elim
  | failed r =>
    obtain ⟨place, expected, rfl, inside, wanted⟩ := reaches
    exact tries_pure (a := .missed place expected) ⟨fresh', inside, wanted⟩

/-! #### Exclusions and descriptions -/

theorem exclude_forbidden_realized {allowed forbidden : ParserId} {n : Nat}
    (found : Realized σ s env n m (.parser forbidden) i (.matched j v)) :
    Realized σ s env least m (.does (.exclude allowed forbidden)) i .failed := by
  intro τ fresh
  exact tries_exclude ((found τ fresh).matched fun υ fresh' => ⟨fresh', by simp [Shows]⟩)

theorem exclude_realized {allowed forbidden : ParserId} {n n' : Nat}
    (missing : Realized σ s env n m (.parser forbidden) i .failed)
    (inner : Realized σ s env n' m (.parser allowed) i verdict) :
    Realized σ s env least m (.does (.exclude allowed forbidden)) i verdict := by
  intro τ fresh
  refine tries_exclude ((missing τ fresh).failed ?_)
  intro place unwanted υ _ said fresh'
  refine ⟨said, ?_⟩
  cases verdict with
  | matched k w => exact (inner υ fresh').matched fun ω fresh'' => ⟨fresh'', rfl, rfl⟩
  | failed =>
    refine (inner υ fresh').failed ?_
    exact fun place' wanted ω _ said' fresh'' => ⟨said', fresh'', by simp [Shows]⟩

theorem describe_realized {d : String} {n : Nat} (inner : Realized σ s env n m (.parser p) i verdict) :
    Realized σ s env least m (.does (.describe p d)) i verdict := by
  intro τ fresh
  refine tries_describe ?_
  cases verdict with
  | matched k w => exact (inner τ fresh).matched fun υ fresh' => ⟨fresh', rfl, rfl⟩
  | failed =>
    refine (inner τ fresh).failed ?_
    exact fun place expected υ inside _ fresh' => ⟨fresh', inside, by simp⟩

/-! #### Derivations -/

/-- A parser is carried out one machine above its behaviour. -/
theorem parser_carried (closed : Closed σ parsers predicates) {b : Behaviour Value}
    (now : σ.behaviour? p = some b) (h : Carried host σ s env (.does b) i verdict) :
    Carried host σ s env (.parser p) i verdict := by
  obtain ⟨least, soon⟩ := h
  refine ⟨least, soon.above fun m carries τ fresh => ?_⟩
  have untraced : τ.tracers = [] := by
    obtain ⟨n, rfl⟩ := fresh
    exact closed.untraced
  have same : τ.behaviour? p = some b := by
    obtain ⟨n, rfl⟩ := fresh
    exact now
  exact Ends.congr (run_above _ _ _ untraced same) (carries τ fresh)

/-- Every derivation is carried out by machines with enough room. -/
theorem Derives.carried (closed : Closed σ parsers predicates)
    (decides : ∀ f, predicates f → Decides host σ env f (accepts f))
    (h : Derives σ accepts s.toList goal i verdict)
    (covered : goal.Covered parsers predicates) (start : i ≤ s.toList.length) :
    Carried host σ s env goal i verdict := by
  induction h with
  | @parser p b i v now does ih =>
    obtain ⟨b', now', covered'⟩ := closed.covered p covered
    obtain rfl : b = b' := Option.some.inj (now.symm.trans now')
    exact parser_carried closed now (ih covered' start)
  | anyChar there => exact leaf_carried start rfl (by simp [Shows, there])
  | anyChar_past past => exact leaf_carried start rfl (by simp [Shows, past])
  | rest => exact leaf_carried start rfl ⟨rfl, rfl⟩
  | eof past => exact leaf_carried start rfl (by simp [Shows, Nat.not_lt.mpr past])
  | eof_before before => exact leaf_carried start rfl (by simp [Shows, before])
  | succeed => exact leaf_carried start rfl ⟨rfl, rfl⟩
  | fail => exact leaf_carried start rfl (by simp [Shows])
  | string there => exact leaf_carried start rfl (by simp [Shows, List.isPrefixOf_iff_prefix.mpr there])
  | string_other other =>
    exact leaf_carried start rfl (by simp [Shows, mt List.isPrefixOf_iff_prefix.mp other])
  | regex isText there =>
    have answers := Regex.answers_iff.mpr ⟨isText, covered⟩
    exact leaf_carried start (if_pos answers) (by simp [Shows, there])
  | regex_other isText other =>
    have answers := Regex.answers_iff.mpr ⟨isText, covered⟩
    exact leaf_carried start (if_pos answers) (by simp [Shows, other])
  | testChar there holds => exact testChar_carried (decides _ covered) there (by simp [Shows, holds])
  | @testChar_other i f d other =>
    cases there : s.toList[i]? with
    | none => exact testChar_past_carried there
    | some c => exact testChar_carried (decides f covered) there (by simp [Shows, other c there])
  | sequence _ ih =>
    refine (ih covered start).step fun m least _ carries τ fresh => ?_
    exact (carries .none [] τ passive_none fresh).imp fun _ _ h => ⟨h.1, h.2.shows⟩
  | each_nil => exact carried_of_forall fun m => each_nil_realized
  | each_cons head tail ihHead ihTail =>
    have rest := ihTail (fun q member => covered q (by simp [member])) (head.within start rfl |>.2)
    exact (ihHead (covered _ (by simp)) start).step₂ rest fun m _ _ _ first rest => each_realized first rest
  | each_head_failed head ih =>
    exact (ih (covered _ (by simp)) start).step fun m _ _ first => each_failed_realized first
  | each_tail_failed head tail ihHead ihTail =>
    have rest := ihTail (fun q member => covered q (by simp [member])) (head.within start rfl |>.2)
    exact (ihHead (covered _ (by simp)) start).step₂ rest fun m _ _ _ first rest => each_realized first rest
  | alternative _ ih =>
    refine (ih covered.2 start).step fun m least _ carries τ fresh => ?_
    exact carries none τ trivial (fun none => absurd none covered.1) fresh
  | first_nil => exact carried_of_forall fun m => first_nil_realized
  | first_head head ih =>
    exact (ih (covered _ (by simp)) start).step fun m _ _ first => first_head_realized first
  | first_tail head tail ihHead ihTail =>
    have rest := ihTail (fun q member => covered q (by simp [member])) start
    exact (ihHead (covered _ (by simp)) start).step₂ rest fun m _ _ _ first rest => first_tail_realized first rest
  | exactly_zero => exact carried_of_forall fun m => exactly_zero_realized
  | @exactly_succ i j k item n v vs round more ihRound ihMore =>
    have asked : some (n + 1) ≠ some 0 := by simp
    have rest := ihMore covered (round.within start rfl |>.2)
    exact (ihRound covered start).step₂ rest fun m _ _ _ first rest => exactly_realized asked first rest
  | exactly_failed asked round ih =>
    exact (ih covered start).step fun m _ _ first => exactly_failed_realized asked first
  | exactly_later_failed asked round more ihRound ihMore =>
    have rest := ihMore covered (round.within start rfl |>.2)
    exact (ihRound covered start).step₂ rest fun m _ _ _ first rest => exactly_realized asked first rest
  | upTo_zero => exact carried_of_forall fun m => upTo_zero_realized
  | upTo_stop allowed round ih =>
    exact (ih covered start).step fun m _ _ first => upTo_stop_realized allowed first
  | upTo_succ allowed round more ihRound ihMore =>
    have rest := ihMore covered (round.within start rfl |>.2)
    exact (ihRound covered start).step₂ rest fun m _ _ _ first rest => upTo_realized allowed first rest
  | repetition bounded required optional ihRequired ihOptional =>
    have rest := ihOptional covered (required.within start rfl |>.2)
    exact (ihRequired covered start).step₂ rest fun m _ _ room first rest =>
      repetition_realized bounded room first rest
  | repetition_failed required ih =>
    exact (ih covered start).step fun m _ room first => repetition_failed_realized room first
  | exclude_forbidden _ ih =>
    exact (ih covered.2 start).step fun m _ _ found => exclude_forbidden_realized found
  | exclude absent _ ihAbsent ih =>
    exact (ihAbsent covered.2 start).step₂ (ih covered.1 start) fun m _ _ _ missing inner =>
      exclude_realized missing inner
  | describe _ ih => exact (ih covered start).step fun m _ _ inner => describe_realized inner

end Complete

/-! ### The agreement -/

/-- With enough room, running a parser returns a result of which something holds. -/
def Returns (host : Host) (σ : Store) (p : ParserId) (text i env : Value) (good : Value → Prop) : Prop :=
  Soon host fun m => ∃ r τ, m.run p text i env σ = .ok r τ ∧ good r

/-- Running a parser of a grammar returns a success with a certain end and value exactly if the grammar
derives that the parser matches up to there with that value, and it returns a failure exactly if the
grammar derives that the parser fails. -/
theorem run_iff_derives {host : Host} {σ : Store} {accepts : Value → Char → Bool}
    {parsers : ParserId → Prop} {predicates : Value → Prop} (closed : Closed σ parsers predicates)
    (env : Value) (decides : ∀ f, predicates f → Decides host σ env f (accepts f)) {p : ParserId}
    (known : parsers p) (s : String) {i : Nat} (start : i ≤ s.toList.length) :
    (∀ j v, Returns host σ p (.str s) (.int i) env (· = .success j v) ↔
      ∃ k : Nat, j = .int k ∧ Derives σ accepts s.toList (.parser p) i (.matched k v)) ∧
    (Returns host σ p (.str s) (.int i) env
        (fun r => ∃ place expected, r = .result (.bool false) place expected) ↔
      Derives σ accepts s.toList (.parser p) i .failed) := by
  -- Both directions are about verdicts; the four parts of the statement read them off a result.
  have sound : ∀ good, Returns host σ p (.str s) (.int i) env good → ∃ a verdict, good a.value ∧
      Derives σ accepts s.toList (.parser p) i verdict ∧ Shows a verdict := by
    rintro good ⟨room, returns⟩
    obtain ⟨r, τ, ended, holds⟩ := returns room room (Nat.le_refl _) (Nat.le_refl _)
    have agrees := run_agrees (s := s) closed decides room room (.refl σ) known start
    obtain ⟨a, rfl, _, _, _, verdict, derived, shows⟩ := Ends.ok agrees ended
    exact ⟨a, verdict, holds, derived, shows⟩
  have complete : ∀ verdict, Derives σ accepts s.toList (.parser p) i verdict → ∀ good : Value → Prop,
      (∀ a, Shows a verdict → good a.value) → Returns host σ p (.str s) (.int i) env good := by
    intro verdict derived good fits
    obtain ⟨_, soon⟩ := derived.carried closed decides known start
    refine soon.mono fun m carries => ?_
    have settles := carries σ (.refl σ)
    cases ended : m.run p (.str s) (.int i) env σ with
    | ok r τ =>
      obtain ⟨a, rfl, _, shows⟩ := Ends.ok settles ended
      exact ⟨_, τ, rfl, fits a shows⟩
    | error e τ => exact (Ends.error settles ended).elim
  refine ⟨fun j v => ⟨fun returns => ?_, ?_⟩, fun returns => ?_, fun derived => ?_⟩
  · obtain ⟨a, verdict, same, derived, shows⟩ := sound _ returns
    cases a with
    | missed place expected => simp [Attempt.value, Value.success] at same
    | matched j' w =>
      cases verdict with
      | failed => exact shows.elim
      | matched k u =>
        obtain ⟨rfl, rfl⟩ := shows
        simp only [Attempt.value, Value.success, Value.result.injEq, true_and] at same
        exact ⟨k, same.1.symm, same.2 ▸ derived⟩
  · rintro ⟨k, rfl, derived⟩
    refine complete _ derived _ fun a shows => ?_
    cases a with
    | missed place expected => exact shows.elim
    | matched j w =>
      obtain ⟨rfl, rfl⟩ := shows
      rfl
  · obtain ⟨a, verdict, ⟨place, expected, same⟩, derived, shows⟩ := sound _ returns
    cases a with
    | matched j w => simp [Attempt.value, Value.success] at same
    | missed place' expected' =>
      cases verdict with
      | failed => exact derived
      | matched k u => exact shows.elim
  · refine complete _ derived _ fun a shows => ?_
    cases a with
    | matched j w => exact shows.elim
    | missed place expected => exact ⟨_, _, rfl⟩

/-- A function of which only its place in the store of its grammar matters. -/
private def isX : Value := .closure ["c"] (.plain .null) [] (.named "is_x") 0

/-- Parentheses around an `x`, nested to any depth: parser 9 is a choice between parser 8, which refers
back to it, and parser 7. -/
private def nestedParentheses : Store :=
  { Store.initial with
    parsers := Store.initial.parsers ++ #[⟨.behaviour (.string "("), .str "open"⟩,
      ⟨.behaviour (.string ")"), .str "close"⟩, ⟨.behaviour (.testChar isX "an x"), .str "x"⟩,
      ⟨.behaviour (.sequence [5, 9, 6]), .str "pair"⟩, ⟨.behaviour (.alternative [8, 7]), .str "any"⟩] }

/-- A host whose only function holds for the letter `x`. -/
private def xHost : Host :=
  ⟨fun _ _ arguments => match arguments with
    | [.str s, _] => return .bool (s.toList == ['x'])
    | _ => raise .wrongType, Value.share⟩

/-- Nested parentheses around a letter, by a grammar with a cycle. -/
theorem run_nestedParentheses : Returns xHost nestedParentheses 9 (.str "(x)") (.int (0 : Nat)) .none
    (· = .success (.int (3 : Nat)) (.list [.str "(", .str "x", .str ")"])) := by
  have closed : Closed nestedParentheses (· ∈ [5, 6, 7, 8, 9]) (· = isX) := by
    refine ⟨rfl, fun p known => ?_⟩
    simp only [List.mem_cons, List.not_mem_nil, or_false] at known
    rcases known with rfl | rfl | rfl | rfl | rfl
    · exact ⟨_, rfl, trivial⟩
    · exact ⟨_, rfl, trivial⟩
    · exact ⟨_, rfl, rfl⟩
    · exact ⟨_, rfl, by simp [Covered]⟩
    · exact ⟨_, rfl, by simp [Covered]⟩
  have decides : ∀ f, f = isX → Decides xHost nestedParentheses .none f fun c => [c] == ['x'] := by
    rintro f rfl
    refine ⟨fun rounds depth τ c fresh => ?_, fun c => ⟨1, fun rounds depth _ deep τ _ => ?_⟩⟩
    · cases depth with
      | zero => exact .inl rfl
      | succ depth => exact ⟨fresh, by simp [Value.isTruthy, Store.view]⟩
    · cases depth with
      | zero => omega
      | succ depth => exact ⟨_, _, rfl⟩
  refine ((run_iff_derives closed .none decides (by simp) "(x)" (Nat.zero_le _)).1 _ _).mpr
    ⟨3, rfl, ?_⟩
  have opens : ∀ i, "(".toList <+: "(x)".toList.drop i → Derives nestedParentheses
      (fun _ c => [c] == ['x']) "(x)".toList (.parser 5) i (.matched (i + 1) (.str "(")) :=
    fun i there => .parser rfl (.string there)
  have second : "(x)".toList[1]? = some 'x' := by decide
  have pairFails : Derives nestedParentheses (fun _ c => [c] == ['x']) "(x)".toList (.parser 8) 1
      .failed :=
    .parser rfl (.sequence (.each_head_failed (.parser rfl (.string_other (by decide)))))
  have inner : Derives nestedParentheses (fun _ c => [c] == ['x']) "(x)".toList (.parser 9) 1
      (.matched 2 (.str "x")) :=
    .parser rfl (.alternative (.first_tail pairFails (.first_head (.parser rfl
      (.testChar second rfl)))))
  have closes : Derives nestedParentheses (fun _ c => [c] == ['x']) "(x)".toList (.parser 6) 2
      (.matched 3 (.str ")")) := .parser rfl (.string (by decide))
  exact .parser rfl (.alternative (.first_head (.parser rfl (.sequence (.each_cons
    (opens 0 (by decide)) (.each_cons inner (.each_cons closes .each_nil)))))))

end Peg

end Rebind
