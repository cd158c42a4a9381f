import Rebind.Proofs.Recitals
/-!
# Runs that are recited

What is known of one reported run is followed through behaviours and machines: wherever the handler prints what is
run, everything leads on, and results lie within the text and come by values of the trace.  Functions of the user
print nothing themselves, leave the names of parsers and the handler alone, and may run parsers of the trace on
texts and from offsets within them.

So a run under a `debug` node prints the walk through the tree of the calls below the node.
-/
namespace Rebind.Trace

open Attempt

/-- What a parser is given in a direct call on a text, from its start or from an offset within it. -/
inductive Recital.Handed (w : Recital) (s : String) : List Value → Prop
  | text : Handed w s [.str s]
  | environment {env : Value} (given : w.values env) : Handed w s [.str s, env]
  | index {env : Value} {i : Nat} (given : w.values env) (start : i ≤ s.toList.length) :
    Handed w s [.str s, env, .int i]

/-- A machine under which every run, every direct call of a parser and every call of a function leads on. -/
structure Recital.Runs (w : Recital) (m : Machine) : Prop where
  share : m.share = Value.share
  run : ∀ {depth σ p s i env}, w.Listens depth σ → w.Has σ p → w.values env → i ≤ s.toList.length →
    w.Goes depth s i (m.run p (.str s) (.int (i : Nat)) env) σ
  direct : ∀ {depth σ p s arguments}, w.Listens depth σ → w.Has σ p → w.Handed s arguments →
    w.Goes depth s 0 (m.call (.parser p) arguments) σ
  call : ∀ {depth σ f}, w.Listens depth σ → w.functions f → ∀ arguments, (∀ v ∈ arguments, w.values v) →
    Ends (m.call f arguments) σ (fun v τ => w.Leads depth σ τ ∧ w.values v) (w.GivesUp depth σ)

/-! ### Behaviours -/

section Behaviours

variable {w : Recital} {depth : Nat} {σ τ : Store} {m : Machine} {p : ParserId} {s : String} {i : Nat}
  {env : Value}

/-- What is known while a behaviour is evaluated that calls no functions but predicates.  The footing says nothing
of what other functions are given, so behaviours that call them are followed one by one. -/
def Recital.footing (w : Recital) (depth : Nat) (s : String) (σ : Store) : Footing where
  course := w.course depth
  known := w.Has
  predicate := w.functions
  callable _ := False
  environment := w.values
  parts :=
    { run := fun _ _ i a => w.Yields s.toList.length i a
      accepts := fun _ _ _ _ => True
      call := fun _ _ _ => False }
  returned _ _ _ _ := False
  fault := w.GivesUp depth σ

/-- What the library makes up itself are values of the trace. -/
theorem Recital.leaf_value (w : Recital) {b : Behaviour Value} {text : List Char} {stop : Int} {v : Value}
    (constant : ∀ v, b = .succeed v → w.values v) (leaf : b.leaf? text i = some (.matched stop v)) :
    w.values v := by
  cases b with
  | succeed u =>
    obtain rfl : u = v := (Attempt.matched.inj (Option.some.inj leaf)).2
    exact constant u rfl
  | lineColumnIndex =>
    obtain rfl := (Attempt.matched.inj (Option.some.inj leaf)).2
    exact w.place _ _ _
  | anyChar | eof | string literal =>
    simp only [Behaviour.leaf?, Option.some.injEq] at leaf
    split at leaf <;> cases leaf
    exact w.plain trivial
  | rest | index =>
    obtain rfl := (Attempt.matched.inj (Option.some.inj leaf)).2
    exact w.plain trivial
  | regex r group =>
    obtain ⟨-, found⟩ := Behaviour.leaf?_regex leaf
    split at found
    · obtain rfl := (Attempt.matched.inj found).2
      unfold Regex.Found.groupValue
      split <;> exact w.plain trivial
    · cases found
  | _ => cases leaf

section Evaluated

variable (hm : w.Runs m) (on : w.Listens depth σ)

include hm on

theorem footing_holds : (w.footing depth s σ).Holds m s σ where
  run _ _ _ _ led known given start :=
    (hm.run (on.later led) known given start).mono (fun _ _ h => h) fun _ _ => .after led
  within _ _ _ _ yields _ := yields.within
  ask _ _ env c led known given := by
    have arguments : ∀ v ∈ [.ofChar c, env], w.values v :=
      List.forall_mem_cons.mpr ⟨w.plain trivial, List.forall_mem_singleton.mpr given⟩
    exact (hm.call (on.later led) known _ arguments).mono (fun _ _ h => ⟨h.1, trivial⟩) fun _ _ => .after led
  call _ _ _ _ impossible := impossible.elim
  returns _ _ _ _ impossible := impossible.elim
  refuses _ _ _ _ _ impossible := impossible.elim
  derives _ _ _ _ impossible := impossible.elim
  persists _ _ _ led known := known.later led.1.names
  fresh _ _ := Recital.leads_of_eq rfl rfl rfl rfl rfl rfl
  share _ impossible := impossible.elim
  endless _ := Recital.givesUp_endless

/-- Behaviours over parsers that are traced go as the trace tells. -/
theorem goes_transform {f : Value} (known : w.Has σ p) (function : w.functions f)
    (given : w.values env) (start : i ≤ s.toList.length) :
    w.Goes depth s i (Behave.transform m p f (.str s) (.int i) env) σ := by
  refine tries_transform ((hm.run on known given start).imp ?_)
  rintro a τ ⟨led, yields⟩
  cases a with
  | matched j v =>
    rw [hm.share]
    have led' : w.Leads depth σ { τ with nextObject := (v.identify τ.nextObject).2 } :=
      led.trans (Recital.leads_of_eq rfl rfl rfl rfl rfl rfl)
    have arguments : ∀ u ∈ [(v.identify τ.nextObject).1, env], w.values u :=
      List.forall_mem_cons.mpr ⟨w.shared _ (yields.value j v rfl), List.forall_mem_singleton.mpr given⟩
    refine Ends.of_eq_ok rfl ((hm.call (on.later led') function _ arguments).mono ?_ fun _ _ => .after led')
    rintro r υ ⟨led'', value⟩
    refine ⟨led'.trans led'', yields.within, ?_⟩
    rintro _ _ ⟨⟩
    exact value
  | missed place expected => exact ⟨led, yields⟩

theorem goes_chain {f : Value} (known : w.Has σ p) (function : w.functions f) (given : w.values env)
    (start : i ≤ s.toList.length) : w.Goes depth s i (Behave.chain m p f (.str s) (.int i) env) σ := by
  refine tries_chain hm.share ((hm.run on known given start).imp ?_)
  rintro a τ ⟨led, yields⟩
  cases a with
  | matched j v =>
    obtain ⟨from', upTo⟩ := yields.within
    obtain ⟨k, rfl⟩ := Int.eq_ofNat_of_zero_le (Int.le_trans (Int.natCast_nonneg i) from')
    have led' : w.Leads depth σ { τ with nextObject := (v.identify τ.nextObject).2 + 1 } :=
      led.trans (Recital.leads_of_eq rfl rfl rfl rfl rfl rfl)
    have arguments : ∀ u ∈ [(v.identify τ.nextObject).1, env], w.values u :=
      List.forall_mem_cons.mpr ⟨w.shared _ (yields.value k v rfl), List.forall_mem_singleton.mpr given⟩
    refine (hm.call (on.later led') function _ arguments).mono ?_ fun _ _ => .after led'
    rintro found υ ⟨led'', value⟩
    have led₂ := led'.trans led''
    refine ⟨?_, fun _ => Recital.givesUp_error led₂ rfl⟩
    rintro next rfl there
    have ran := hm.run (on.later led₂) ⟨value, there⟩ given (Int.ofNat_le.mp upTo)
    refine ran.mono ?_ fun _ _ => .after led₂
    rintro a ω ⟨led₃, yields'⟩
    have within' := yields'.within
    cases a with
    | matched stop u =>
      exact ⟨nofun, led₂.trans led₃, ⟨Int.le_trans from' within'.1, within'.2⟩, yields'.value⟩
    | missed place expected =>
      refine ⟨?_, led₂.trans led₃, ⟨Int.le_trans from' within'.1, within'.2⟩, nofun⟩
      rintro _ _ ⟨⟩
      exact Int.le_trans (Int.natCast_nonneg k) within'.1
  | missed place expected => exact ⟨led, yields⟩

theorem goes_subEnvironment {f : Value} (known : w.Has σ p) (function : w.functions f)
    (given : w.values env) (start : i ≤ s.toList.length) :
    w.Goes depth s i (Behave.subEnvironment m p f (.str s) (.int i) env) σ := by
  have arguments : ∀ u ∈ [env], w.values u := List.forall_mem_singleton.mpr given
  refine Ends.bind (hm.call on function _ arguments) ?_
  rintro inside τ ⟨led, given'⟩
  exact (hm.run (on.later led) (known.later led.1.names) given' start).after led

theorem goes_deferredLookup {f : Value} {name : String} (function : w.functions f)
    (given : w.values env) (start : i ≤ s.toList.length) :
    w.Goes depth s i (Behave.deferredLookup m f name (.str s) (.int i) env) σ := by
  have arguments : ∀ u ∈ [env], w.values u := List.forall_mem_singleton.mpr given
  refine tries_deferredLookup ((hm.call on function _ arguments).imp ?_)
  rintro found τ ⟨led, value⟩
  refine ⟨?_, fun _ => Recital.givesUp_error led rfl⟩
  rintro next rfl there
  exact (hm.run (on.later led) ⟨value, there⟩ given start).after led

end Evaluated

/-- Taking a value apart in three only reads it. -/
theorem ends_threeOf (v : Value) (σ : Store) :
    Ends (Behave.threeOf v) σ (fun _ τ => τ = σ)
      fun e τ => (∃ c : Cause, e = .raised (.error c) ∧ c.isOrdinary = true) ∧ τ = σ := by
  have items : Ends (itemsOf v) σ (fun _ τ => τ = σ)
      fun e τ => (∃ c : Cause, e = .raised (.error c) ∧ c.isOrdinary = true) ∧ τ = σ := by
    refine Ends.bind_ok (τ := σ) rfl ?_
    split
    · exact rfl
    · exact rfl
    · exact rfl
    · exact rfl
    · exact rfl
    · exact ⟨⟨_, rfl, rfl⟩, rfl⟩
  refine items.bind ?_
  rintro parts τ rfl
  split
  · exact rfl
  · exact ⟨⟨_, rfl, rfl⟩, rfl⟩

theorem goes_mark (hm : w.Runs m) (on : w.Listens depth σ) (known : w.Has σ p) (given : w.values env)
    (start : i ≤ s.toList.length) : w.Goes depth s i (Behave.mark m p (.str s) (.int i) env) σ := by
  refine Tries.bind (hm.run on known given start) ?_
  rintro a τ ⟨led, yields⟩
  cases a with
  | matched j v =>
    simp only [resultOf_matched, truthy_bool, pure_bind, if_true]
    have taken := ends_threeOf v τ
    cases apart : Behave.threeOf v τ with
    | error e υ =>
      obtain ⟨⟨c, rfl, ordinary⟩, rfl⟩ := taken.error apart
      exact Ends.of_eq_error (bind_error apart) (Recital.givesUp_error led ordinary)
    | ok parts υ =>
      obtain rfl := taken.ok apart
      have value := w.mark (on.later led).sound.edits (yields.value j v rfl) apart
      refine Ends.bind_ok apart (tries_pure (a := .matched j (.mark parts.1 parts.2.1 parts.2.2)) ⟨led, ?_⟩)
      refine ⟨yields.within, ?_⟩
      rintro _ _ ⟨⟩
      exact value
  | missed place expected =>
    simp only [resultOf_missed, truthy_bool, pure_bind, Bool.false_eq_true, if_false]
    exact tries_pure (a := .missed place expected) ⟨led, yields⟩

/-- A pattern that is asked for a group that it does not have, or that matches bytes only. -/
theorem goes_regex_unsuited {r : Regex} {group : Nat} (unsuited : r.isBytes = true ∨ r.groupCount < group)
    (env : Value) (start : i ≤ s.toList.length) :
    w.Goes depth s i (Behave.regex r group (.str s) (.int i) env) σ := by
  have refl : w.Leads depth σ σ := (w.course depth).refl σ
  unfold Behave.regex
  rw [sliceOf_str, pure_bind]
  simp only [Value.ofChars]
  by_cases bytes : r.isBytes = true
  · rw [if_pos bytes]
    exact Recital.givesUp_error refl rfl
  have unknown : r.groupCount < group := unsuited.resolve_left bytes
  rw [if_neg bytes]
  cases Regex.matchStart? r (String.ofList (Slice.between s.toList (some (i : Int)) none)).toList with
  | none =>
    refine tries_pure (a := .missed i [r.shown])
      ⟨refl, ⟨Int.le_refl _, ?_, by simp⟩, fun _ _ same => Attempt.noConfusion same⟩
    exact Int.ofNat_le.mpr start
  | some found =>
    simp only [addTo_int, pure_bind, Behave.groupOf, if_pos unknown]
    exact Recital.givesUp_error refl rfl

/-- What a behaviour does leads on, on a machine under which everything does. -/
theorem goes_behave (hm : w.Runs m) (on : w.Listens depth σ) {b : Behaviour Value}
    (kind : Behaviour.Undebugged w.functions w.functions (w.Has σ) b)
    (constant : ∀ v, b = .succeed v → w.values v) (given : w.values env) (start : i ≤ s.toList.length) :
    w.Goes depth s i (behave m b (.str s) (.int i) env) σ := by
  have done : (w.footing depth s σ).Suits σ b → w.Goes depth s i (behave m b (.str s) (.int i) env) σ := by
    intro suits
    refine (behave_does (footing_holds hm on) given suits start).imp ?_
    rintro a τ ⟨led, does⟩
    refine ⟨led, does.within (fun _ _ _ _ yields _ => yields.within) start, ?_⟩
    refine does.value (fun _ _ _ stop v yields => yields.value stop v rfl) (fun _ _ _ impossible => impossible.elim)
      (fun _ _ leaf => w.leaf_value constant leaf) (fun _ => w.plain trivial) (fun _ => w.list)
      fun u v z known => ?_
    exact w.mark (σ := Store.initial) (τ := Store.initial) nofun known rfl
  cases b with
  | testChar f d => exact done kind
  | sequence ps | alternative ps | repetition p _ _ | describe p _ | exclude a f => exact done kind
  | transform p f => exact goes_transform hm on kind.1 kind.2 given start
  | chain p f => exact goes_chain hm on kind.1 kind.2 given start
  | subEnvironment p f => exact goes_subEnvironment hm on kind.1 kind.2 given start
  | deferredLookup f name => exact goes_deferredLookup hm on kind given start
  | mark p => exact goes_mark hm on kind given start
  | regex r group =>
    by_cases unsuited : r.isBytes = true ∨ r.groupCount < group
    · exact goes_regex_unsuited unsuited env start
    · obtain ⟨isText, known⟩ := not_or.mp unsuited
      exact done ⟨Nat.not_lt.mp known, fun bytes => absurd bytes isText⟩
  | debug p handler => exact kind.elim
  | anyChar | rest | eof | index | lineColumnIndex | succeed | fail | string => exact done trivial

end Behaviours

/-! ### Machines -/

/-- Functions of the user that keep to the trace: called with values of the trace they lead on, on every machine
on which runs do, and return a value of the trace, or give up with an error. -/
structure Recital.Plays (w : Recital) (host : Host) : Prop where
  share : host.share = Value.share
  calls : ∀ {m}, w.Runs m → ∀ {depth σ f}, w.Listens depth σ → w.functions f → ∀ arguments,
    (∀ v ∈ arguments, w.values v) →
    Ends (invoke host m f arguments) σ (fun v τ => w.Leads depth σ τ ∧ w.values v) (w.GivesUp depth σ)

section Machines

variable {w : Recital} {depth : Nat} {σ : Store} {m : Machine} {host : Host} {p : ParserId} {s : String}
  {i : Nat} {env : Value}

/-- A direct call stays within the text. -/
theorem Recital.Yields.whole {length : Nat} {a : Attempt} (h : w.Yields length i a) :
    w.Yields length i (a.whole length) := by
  obtain ⟨within, value⟩ := h
  cases a with
  | matched stop v =>
    by_cases before : stop < length
    · simp only [Attempt.whole, if_pos before]
      exact ⟨⟨within.1, within.2, by simp⟩, fun _ _ same => Attempt.noConfusion same⟩
    · simp only [Attempt.whole, if_neg before]
      exact ⟨within, value⟩
  | missed place expected => exact ⟨within, value⟩

theorem Recital.Yields.index {length : Nat} {a : Attempt} (h : w.Yields length i a) : (i : Int) ≤ a.index := by
  obtain ⟨within, -⟩ := h
  cases a with
  | matched stop v => exact within.1
  | missed place expected => exact within.1

theorem Recital.Yields.fromStart {length : Nat} {a : Attempt} (h : w.Yields length i a) : w.Yields length 0 a := by
  obtain ⟨within, value⟩ := h
  refine ⟨?_, value⟩
  cases a with
  | matched stop v => exact ⟨by have := within.1; omega, within.2⟩
  | missed place expected => exact ⟨by have := within.1; omega, within.2⟩

/-- A direct call of a parser leads on as its run does. -/
theorem goes_callParser (hm : w.Runs m) (on : w.Listens depth σ) (known : w.Has σ p)
    (given : w.values env) (start : i ≤ s.toList.length) :
    w.Goes depth s 0 (callParser m p (.str s) env (.int i)) σ := by
  rw [callParser_eq]
  refine Tries.bind (hm.run on known given start) ?_
  rintro a τ ⟨led, yields⟩
  rw [checkWhole_eq s (Int.le_trans (Int.natCast_nonneg i) yields.index)]
  exact tries_pure ⟨led, yields.whole.fromStart⟩

/-- A run of which the handler hears tells of one call. -/
theorem run_tells (hm : w.Runs m) (on : w.Listens depth σ) (known : w.Has σ p)
    (given : w.values env) (start : i ≤ s.toList.length) :
    Tries ((m.above host).run p (.str s) (.int i) env) σ
      (fun a υ => w.Tells depth p s i env (.ok a) σ υ ∧ w.Yields s.toList.length i a)
      (fun e υ => e ≠ .endless → ∃ c : Cause, c.isOrdinary = true ∧ e = .raised (.error c) ∧
        w.Tells depth p s i env (.error c) σ υ) := by
  refine Ends.congr (run_traced _ _ _ on.traced) (report_tells on known start fun τ on' known' => ?_)
  obtain ⟨b, does, kind, constant⟩ := (on'.sound.legible p known').behaviour
  refine Ends.congr (runCurrent_behave _ _ _ does) ?_
  exact goes_behave hm on' kind constant given start

/-- One machine up, runs are told by the trees of their calls. -/
theorem Recital.Runs.above (plays : w.Plays host) (hm : w.Runs m) : w.Runs (m.above host) where
  share := plays.share
  run on known given start := by
    refine (run_tells hm on known given start).mono (fun a τ h => ⟨h.1.leads, h.2⟩) fun e τ gaveUp proper => ?_
    obtain ⟨c, ordinary, rfl, told⟩ := gaveUp proper
    exact ⟨⟨c, rfl, ordinary⟩, told.leads⟩
  direct on known handed := by
    cases handed with
    | text => exact goes_callParser (i := 0) hm on known (w.plain trivial) (Nat.zero_le _)
    | environment given => exact goes_callParser (i := 0) hm on known given (Nat.zero_le _)
    | index given start => exact goes_callParser hm on known given start
  call on function arguments given := plays.calls hm on function arguments given

end Machines

/-! ### Traces -/

/-- Which tracers are on is not told in a trace. -/
theorem Recited.pushed {width : Int} {handler : HandlerId} {depth : Nat} {trees : List CallTree} {σ τ : Store}
    {before : List Value} (h : Recited width handler depth trees { σ with tracers := before } τ)
    (after : List Value) : Recited width handler depth trees σ { τ with tracers := after } where
  printed := h.printed
  journal := h.journal
  faithful step member := Step.Faithful.later (τ := τ) (fun _ _ named => named) (h.faithful step member)

private def calledFunction (n : Nat) : Value := .closure [] (.plain .null) [] (.named "f") n

/-- A parser is the value of another one, and the function of a chain chooses it. -/
private def choosing : Store :=
  { Store.initial with
    echoes := #[(Look.plain 4).at 0]
    parsers := Store.initial.parsers ++ #[
      ⟨.behaviour (.transform 0 (calledFunction 0)), .str "reader"⟩,
      ⟨.behaviour (.succeed (.parser 5)), .str "given"⟩,
      ⟨.behaviour (.chain 6 (calledFunction 1)), .str "chosen"⟩,
      ⟨.behaviour (.debug 7 (.echo 0)), .str "debug(chosen)"⟩] }

/-- The trace of everything but the node itself. -/
private def chosen : Recital where
  width := 4
  handler := 0
  before := 9
  functions f := f = calledFunction 0 ∨ f = calledFunction 1
  values v := v ≠ .parser 8
  plain := by
    rintro _ isPlain rfl
    exact isPlain
  list _ := nofun
  place _ _ _ := nofun
  shared {v} n known := by
    cases v with
    | parser p => exact known
    | tuple items =>
      unfold Value.identify
      split <;> nofun
    | _ => nofun
  mark _ _ _ := nofun

end Rebind.Trace
