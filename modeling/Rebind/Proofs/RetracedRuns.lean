import Rebind.Proofs.Retracing
/-!
# Runs that are traced

With a printing handler on it, a machine does what a machine at least as high does without it, as long as it
does not run out of depth: each report prints a line and goes on, and the behaviour below it is retraced.
-/
namespace Rebind

open Course Attempt Trace

/-! ### Whole texts -/

/-- A result as a direct call returns it: a success that does not reach the end of the text is none. -/
def Attempt.whole (length : Nat) : Attempt → Attempt
  | .matched stop v => if stop < length then .missed stop ["EOF"] else .matched stop v
  | .missed place expected => .missed place expected

/-- The check for the end of the text commutes with renumbering. -/
theorem whole_renumbered (g : Gap) (length : Nat) (a : Attempt) :
    (a.whole length).renumbered g = (a.renumbered g).whole length := by
  cases a with
  | matched stop v => by_cases before : stop < length <;> simp [Attempt.whole, Attempt.renumbered, before]
  | missed place expected => rfl

theorem whole_index (length : Nat) (a : Attempt) : (a.whole length).index = a.index := by
  cases a with
  | matched stop v => by_cases before : stop < length <;> simp [Attempt.whole, Attempt.index, before]
  | missed place expected => rfl

theorem index_renumbered (g : Gap) (a : Attempt) : (a.renumbered g).index = a.index := by
  cases a <;> rfl

/-- What a direct call makes of a result. -/
def checkWhole (text outcome : Value) : Eval Value := do
  let r ← resultOf outcome
  if ← truthy r.status then
    if ← lessThan r.index (.int (← lengthOf text)) then
      mergeOver (.failure r.index (.str "EOF")) outcome
    else return outcome
  else return outcome

/-- A direct call is a run and a check that the text was used up. -/
theorem callParser_eq (m : Machine) (p : ParserId) (text env i : Value) :
    callParser m p text env i = m.run p text i env >>= checkWhole text := rfl

/-- The check on an attempt. -/
theorem checkWhole_eq (s : String) {a : Attempt} (start : 0 ≤ a.index) :
    checkWhole (.str s) a.value = pure (a.whole s.toList.length).value := by
  unfold checkWhole
  cases a with
  | matched stop v =>
    have merged : mergeOver (.failure (.int stop) (.str "EOF")) (matched stop v).value =
        pure (missed stop ["EOF"]).value := passive_matched stop v stop ["EOF"] start
    simp only [resultOf_matched, truthy_bool, lengthOf_str, lessThan_int, pure_bind, if_true, decide_eq_true_eq,
      merged, Attempt.whole]
    split <;> rfl
  | missed place expected =>
    simp only [resultOf_missed, truthy_bool, pure_bind, Bool.false_eq_true, if_false]
    rfl

theorem keeps_checkWhole (K : Course) (text outcome : Value) : K.Keeps (checkWhole text outcome) := by
  refine keeps_judged _ (fun r => ?_) fun r => keeps_pure _ _
  refine keeps_bind (keeps_lengthOf _ _) fun n => ?_
  refine keeps_bind (keeps_lessThan _ _ _) fun more => ?_
  exact keeps_ite _ (keeps_mergeOver _ _ _) (keeps_pure _ _)

section Watched

variable {w : Watch} {σ τ : Store} {p : ParserId}

/-! ### Lines -/

/-- A call of the handler, which prints a line, moves the handler and is put on record, is done beside what is
traced. -/
theorem Watched.moving {depth : Int} {reports : List Report} {lines : List String} (hw : Watched w σ τ)
    (journal : τ.journal = reports ++ w.origin.journal) (printed : τ.printed = w.origin.printed ++ lines)
    (known : τ.echoes[w.gap.echo]? = some (w.look.at depth)) {next deep : Int} {text : String} {offset : Int}
    {name : String} {told : Told} (r : Report)
    (narrates : w.look.Narrates (.echo w.gap.echo) τ (r :: reports) next
      (lines ++ [w.look.line deep text offset name told])) :
    Watched w σ ((w.look.moving w.gap.echo next
      (traceLine w.look.width (τ.view w.look.pad).isTruthy deep text.toList offset name told) τ).record r) := by
  have shown := printed_moving w.steady w.gap.echo next deep text offset name told τ
  generalize traceLine w.look.width (τ.view w.look.pad).isTruthy deep text.toList offset name told = line at shown ⊢
  have echoes : ∀ e, (τ.echoes.setIfInBounds w.gap.echo (w.look.at next))[past w.gap.echo e]? =
      σ.echoes[e]?.map (·.renumbered w.gap) := by
    intro e
    rw [Array.getElem?_setIfInBounds_ne (past_ne w.gap.echo e).symm]
    exact hw.echoes e
  refine { hw with
    echoes
    handlers := Array.size_setIfInBounds.trans hw.handlers
    told := ⟨r :: reports, next, _, congrArg (r :: ·) journal, ?_, narrates.of_parsers rfl,
      echoes_setEcho known next⟩ }
  exact shown.trans (by rw [printed, List.append_assoc])

/-- A visit of the handler to a parser, by its number beside what is traced. -/
def Watch.visit (w : Watch) (p : ParserId) (s : String) (i : Int) (env : Value) : Trace.Visit :=
  ⟨.echo w.gap.echo, .parser (past w.gap.parser p), .str s, .int i, env⟩

/-- Putting on record how a behaviour ended prints nothing. -/
theorem Watched.behaved (hw : Watched w σ τ) (p : ParserId) (s : String) (i : Int) (env : Value)
    (ended : Except Value Value) : Watched w σ (τ.record (.behaved (w.visit p s i env) ended)) := by
  obtain ⟨reports, depth, lines, journal, printed, narrates, handler⟩ := hw.told
  have narrates' := Look.Narrates.behaved (.parser (past w.gap.parser p)) (.str s) (.int i) env ended narrates
  have journal' := congrArg (Report.behaved (w.visit p s i env) ended :: ·) journal
  exact { hw with told := ⟨_ :: reports, depth, lines, journal', printed, narrates'.of_parsers rfl, handler⟩ }

section Visits

variable {state : ParserState} (hw : Watched w σ τ) (there : σ.parser? p = some state) (m : Machine)
  (s : String) (i : Int) (env : Value)

include hw there

theorem Watched.named_past : ∃ name state', τ.parser? (past w.gap.parser p) = some state' ∧
    state'.displayName = .str name := by
  obtain ⟨name, named⟩ := hw.named p state there
  refine ⟨name, state.renumbered w.gap, ?_, ?_⟩
  · rw [hw.parsers, there]
    rfl
  · simp only [ParserState.renumbered, named, Value.renumbered]

/-- The handler is told of a start, and the stores stay beside each other. -/
theorem Watched.entered : ∃ τ',
    tell m (w.visit p s i env) "enter" [] (.enter (w.visit p s i env)) τ = .ok () τ' ∧ Watched w σ τ' ∧
      τ'.journal = .enter (w.visit p s i env) none :: τ.journal := by
  obtain ⟨reports, depth, lines, journal, printed, narrates, handler⟩ := hw.told
  obtain ⟨name, state', there', named⟩ := hw.named_past there
  exact ⟨_, tell_enter handler there' named m env _,
    hw.moving journal printed handler _ (.enter narrates ⟨_, state', rfl, there', named⟩), rfl⟩

/-- The handler is told of an end. -/
theorem Watched.exited (a : Attempt) : ∃ τ',
    tell m (w.visit p s i env) "exit" [a.value] (.exit (w.visit p s i env) a.value) τ = .ok () τ' ∧
      Watched w σ τ' := by
  obtain ⟨reports, depth, lines, journal, printed, narrates, handler⟩ := hw.told
  obtain ⟨name, state', there', named⟩ := hw.named_past there
  exact ⟨_, tell_exit handler there' named m env a _,
    hw.moving journal printed handler _ (.exit a narrates ⟨_, state', rfl, there', named⟩)⟩

/-- The handler is told of an error, which is raised again. -/
theorem Watched.aborted (error : Value) : ∃ τ',
    abort m (w.visit p s i env) error τ = .error (.raised error) τ' ∧ Watched w σ τ' := by
  obtain ⟨reports, depth, lines, journal, printed, narrates, handler⟩ := hw.told
  obtain ⟨name, state', there', named⟩ := hw.named_past there
  exact ⟨_, abort_eq handler there' named m env error,
    hw.moving journal printed handler _ (.abort error _ narrates ⟨_, state', rfl, there', named⟩)⟩

end Visits

theorem Store.Beside.behaviour? {g : Gap} (h : σ.Beside g τ) {b : Behaviour Value}
    (does : σ.behaviour? p = some b) : τ.behaviour? (past g.parser p) = some (b.renumbered g) := by
  obtain ⟨state, known, content⟩ := Option.bind_eq_some_iff.mp does
  unfold Store.behaviour?
  rw [h.parsers, known]
  have content' := content_renumbered (g := g) state.behaviour
  simp only [Option.map_some, Option.bind_some, ParserState.renumbered, content']
  split at content
  · next c same =>
    obtain rfl := Option.some.inj content
    rw [same]
    rfl
  · cases content

end Watched

/-! ### Runs and calls -/

section Runs

variable {w : Watch} {functions choosers : Value → Prop} {m m' : Machine} {σ τ : Store} {s : String}
  {env : Value} {i : Int} {p : ParserId} (hm : m.Retraces w functions choosers m')

include hm

theorem retraces_callParser (hw : Watched w σ τ)
    (known : Among (Behaviour.Undebugged functions choosers) σ p) (start : 0 ≤ i) :
    Retraces w σ τ (callParser m (past w.gap.parser p) (.str s) (env.renumbered w.gap) (.int i))
      (callParser m' p (.str s) env (.int i)) (SameAttempt w.gap) := by
  rw [callParser_eq, callParser_eq]
  refine (hm.run hw known start s env).bind (fun outcome => keeps_checkWhole _ _ _) ?_
  rintro _ _ σ' τ' hw _ ⟨a, start, rfl, rfl⟩
  rw [checkWhole_eq s start, checkWhole_eq s (index_renumbered _ a ▸ start), ← whole_renumbered]
  exact retraces_attempt hw (whole_index _ a ▸ start)

/-- A run of which the handler hears is retraced if the behaviour is. -/
theorem retraces_report {state : ParserState} (hw : Watched w σ τ) (there : σ.parser? p = some state)
    {body : Runner} {y : Eval Value}
    (hb : ∀ τ, Watched w σ τ → Retraces w σ τ (body (.str s) (.int i) env) y (SameAttempt w.gap)) :
    Retraces w σ τ
      (report m (.echo w.gap.echo) (.parser (past w.gap.parser p)) body (.str s) (.int i) env) y
      (SameAttempt w.gap) := by
  obtain ⟨τ₁, entered, hw₁, -⟩ := hw.entered there m s i env
  refine Ends.bind_ok entered ?_
  have caught : Retraces w σ τ₁ (catching (recording (body (.str s) (.int i) env) (.behaved (w.visit p s i env)))
      (abort m (w.visit p s i env))) y (SameAttempt w.gap) := by
    refine ends_catching.mpr (ends_recording.mpr (Ends.mono (hb τ₁ hw₁) ?_ ?_))
    · rintro a υ (beyond | ⟨b, σ', hy, hw', rest⟩)
      · exact .inl beyond
      · exact .inr ⟨b, σ', hy, hw'.behaved p s i env _, rest⟩
    · intro e υ ended
      cases e with
      | endless => exact ended
      | raised e =>
        dsimp only
        rcases ended with beyond | ⟨e', σ', hy, hw', led, same⟩
        · split
          · exact (limited_blind.abort hm.keeps _ e _).mono (fun _ _ still => .inl (still.1 beyond))
              fun _ _ still => .inl ((still trivial).1 beyond)
          · exact .inl beyond
        · split
          · obtain ⟨υ', told, hw''⟩ := (hw'.behaved p s i env (.error e)).aborted (led.2 p state there)
              m s i env e
            simp only [Ends, told]
            exact .inr ⟨e', σ', hy, hw'', led, same⟩
          · exact .inr ⟨e', σ', hy, hw'.behaved p s i env _, led, same⟩
  rw [← bind_pure y]
  refine caught.bind (fun outcome => ?_) ?_
  · refine keeps_bind (Blind.presented hm.keeps _ outcome) fun shown => ?_
    exact keeps_bind (limited_blind.tell hm.keeps _ _ _ _) fun _ => keeps_pure _ _
  · rintro _ _ σ' τ' hw' led ⟨a, start, rfl, rfl⟩
    obtain ⟨-, depth, -, -, -, -, handler⟩ := hw'.told
    obtain ⟨τ'', told, hw''⟩ := hw'.exited (led.2 p state there) m s i env (a.renumbered w.gap)
    refine Ends.bind_ok (presented_eq handler m _) (Ends.bind_ok told ?_)
    exact .inr ⟨a.value, σ', rfl, hw'', kept.refl σ', sameAttempt w.gap start σ'⟩

/-- A run is retraced by the run of which the handler hears. -/
theorem retraces_run {host : Host} (hw : Watched w σ τ)
    (known : Among (Behaviour.Undebugged functions choosers) σ p) (start : 0 ≤ i) :
    Retraces w σ τ
      ((m.above host).run (past w.gap.parser p) (.str s) (.int i) (env.renumbered w.gap))
      ((m'.above host).run p (.str s) (.int i) env) (SameAttempt w.gap) := by
  obtain ⟨parsers, b, does, kind, inside⟩ := known.behaviour
  obtain ⟨state, there, _⟩ := Option.bind_eq_some_iff.mp does
  refine Retraces.congr ?_ (run_traced _ _ _ hw.traced) (run_above _ _ _ hw.untraced does)
  refine retraces_report hm hw there fun τ' hw' => ?_
  refine (retraces_behave hm hw' kind inside start).congr ?_ rfl
  exact runCurrent_behave _ _ _ (hw'.behaviour? does)

end Runs

/-- Functions of the user that do the same whether they are traced or not, from a store on and as long as it
changes in the way that they rely on: they return what does not depend on the numbers of parsers and objects, they
leave the parsers alone that there are, and choose parsers of the library.  Machines on which runs on texts from
whole offsets are retraced are all they are lent. -/
structure Host.Evenhanded (host : Host) (functions choosers : Value → Prop) (K : Course) (origin : Store) :
    Prop where
  keeps : host.Keeps limited
  share : host.share = Value.share
  calls : ∀ {w : Watch} {m m'}, w.origin = origin → w.course = K → m.Retraces w functions choosers m' →
    ∀ {σ τ f}, Watched w σ τ → functions f ∨ choosers f → ∀ arguments, Retraces w σ τ
      (invoke host m (f.renumbered w.gap) (arguments.map (·.renumbered w.gap))) (invoke host m' f arguments)
      fun v u υ => v = u.renumbered w.gap ∧ (choosers f → ∀ p, u = .parser p → p < υ.parsers.size →
        Among (Behaviour.Undebugged functions choosers) υ p)

section Machines

variable {host : Host} {functions choosers : Value → Prop} {w : Watch}

/-- One machine up, runs under the handler retrace those without it. -/
theorem Machine.Retraces.above {m m' : Machine} (even : host.Evenhanded functions choosers w.course w.origin)
    (hm : m.Retraces w functions choosers m') :
    (m.above host).Retraces w functions choosers (m'.above host) where
  keeps := (limited_blind.traced host).above even.keeps hm.keeps (hm.share.trans even.share.symm)
  rounds := hm.rounds
  share := even.share
  share' := even.share
  run hw known start _ _ := retraces_run hm hw known start
  direct hw known direct := by
    cases direct with
    | text =>
      have called : ∀ s, Rebind.Retraces w _ _ (callParser m _ (.str s) (Value.none.renumbered w.gap) (.int 0))
          (callParser m' _ (.str s) .none (.int 0)) _ :=
        fun _ => retraces_callParser hm hw known (Int.le_refl 0)
      exact called _
    | environment env => exact retraces_callParser hm hw known (Int.le_refl 0)
    | index env start => exact retraces_callParser hm hw known start
  call hw known arguments := even.calls rfl rfl hm hw known arguments

/-- A machine is retraced by every machine that is at most as high. -/
theorem retraces_machine (even : host.Evenhanded functions choosers w.course w.origin) (rounds : Nat)
    {depth higher : Nat} (le : depth ≤ higher) :
    (machine host rounds depth).Retraces w functions choosers (machine host rounds higher) := by
  induction depth generalizing higher with
  | zero =>
    refine ⟨(limited_blind.traced host).machine even.keeps rounds 0, ?_, even.share,
      (machine_share host rounds higher).trans even.share, ?_, ?_, ?_⟩
    · rw [machine_rounds]
      rfl
    · exact fun _ _ _ _ _ => .inl rfl
    · exact fun _ _ _ => .inl rfl
    · exact fun _ _ _ => .inl rfl
  | succ depth ih =>
    obtain ⟨below, rfl⟩ : ∃ below, higher = below + 1 := ⟨higher - 1, by omega⟩
    exact (ih (by omega)).above even

/-- The first that is on record of a run of which the handler hears is that its parser was entered. -/
theorem run_opens {σ τ : Store} {p : ParserId} {state : ParserState} (keeps : host.Keeps limited)
    (hw : Watched w σ τ) (there : σ.parser? p = some state) (rounds depth : Nat) (s : String) (i : Int)
    (env : Value) :
    Ends ((machine host rounds depth).run (past w.gap.parser p) (.str s) (.int i) env) τ
      (fun _ τ' => ∃ more, τ'.journal = more ++ .enter (w.visit p s i env) none :: τ.journal) anyhow := by
  cases depth with
  | zero => trivial
  | succ depth =>
    let m := machine host rounds depth
    have below : m.Keeps limited := (limited_blind.traced host).machine keeps rounds depth
    have body : limited.Keeps (runCurrent host m (past w.gap.parser p) (.str s) (.int i) env) :=
      keeps_runCurrent keeps below ((limited_blind.traced host).debug m below) _ _ _ _
    refine Ends.congr (run_traced _ _ _ hw.traced) ?_
    obtain ⟨τ₁, entered, -, journal⟩ := hw.entered there m s i env
    refine Ends.bind_ok entered ?_
    have caught := keeps_catching limited_blind.counts
      (limited_blind.recording body (.behaved (w.visit p s i env))) (limited_blind.abort below (w.visit p s i env))
    have rest := keeps_bind caught fun outcome =>
      keeps_bind (Blind.presented below (.echo w.gap.echo) outcome) fun shown =>
        keeps_bind (limited_blind.tell below (w.visit p s i env) "exit" [shown] (.exit (w.visit p s i env) shown))
          fun _ => keeps_pure limited shown
    refine (rest τ₁).mono ?_ fun _ _ _ => trivial
    rintro v τ' ⟨-, more, grown⟩
    exact ⟨more, by rw [grown, journal]⟩

end Machines

/-! ### Debug nodes -/

/-- A store in which no trace is on, which refers to nothing that is not there yet, in which parsers are called
by texts and handlers are nested to whole depths. -/
structure Store.Settled (σ : Store) : Prop where
  untraced : σ.tracers = []
  edits : σ.edits.map (fun e => (past σ.nextObject e.1, e.2.renumbered σ.gap)) = σ.edits
  parsers : ∀ (p : ParserId) (s : ParserState), σ.parser? p = some s → s.renumbered σ.gap = s
  echoes : ∀ (e : HandlerId) (s : EchoState), σ.echoes[e]? = some s → s.renumbered σ.gap = s
  scopes : σ.scopes.map (Value.renumberedNamed σ.gap) = σ.scopes
  named : ∀ p s, σ.parser? p = some s → ∃ name, s.displayName = .str name
  depths : ∀ (e : HandlerId) (s : EchoState), σ.echoes[e]? = some s → ∃ n, s.depth = .int n

/-- The store after a parser was wrapped for a handler that prints in some way. -/
def Store.debugging (σ : Store) (l : Look) (p : ParserId) (name : String) : Store :=
  { σ with
    echoes := σ.echoes.push (l.at 0)
    nextObject := σ.nextObject + 1
    parsers := σ.parsers.push
      ⟨.object σ.nextObject (.behaviour (.debug p (.echo σ.echoes.size))), .str name⟩ }

section Debug

variable {σ : Store} (l : Look) (w : Watch) (p : ParserId) (name : String)

/-- What was there before a value was pushed is where it was. -/
theorem getElem?_push_past {α : Type} (xs : Array α) (x : α) (i : Nat) :
    (xs.push x)[past xs.size i]? = xs[i]? := by
  by_cases inside : i < xs.size
  · rw [past_of_lt inside, Array.getElem?_push_lt inside]
    exact (Array.getElem?_eq_getElem inside).symm
  · rw [past_of_le (Nat.le_of_not_lt inside), Array.getElem?_eq_none (by simp; omega),
      Array.getElem?_eq_none (Nat.le_of_not_lt inside)]

theorem map_unchanged {α : Type} {a : Option α} {f : α → α} (h : ∀ x, a = some x → f x = x) :
    a.map f = a := by
  cases a with
  | none => rfl
  | some x => exact congrArg some (h x rfl)

/-- Adding a `debug` node and its handler leaves a number out and changes nothing else. -/
theorem Store.Settled.beside (h : σ.Settled) : σ.Beside σ.gap (σ.debugging l p name) where
  edits := h.edits.symm
  objects := rfl
  object := Nat.le_refl _
  parsers q := (getElem?_push_past σ.parsers _ q).trans (map_unchanged (h.parsers q)).symm
  size := Array.size_push _
  parser := Nat.le_refl _
  echoes e := (getElem?_push_past σ.echoes _ e).trans (map_unchanged (h.echoes e)).symm
  handlers := Array.size_push _
  echo := Nat.le_refl _
  scopes := h.scopes.symm
  files := rfl
  named := h.named
  depths := h.depths

/-- While the wrapped parser is run, the handler is on. -/
theorem Store.Settled.watched (h : w.origin.Settled) : Watched w w.origin
    { w.origin.debugging w.look p name with
      tracers := .echo w.gap.echo :: (w.origin.debugging w.look p name).tracers } where
  toBeside := { h.beside w.look p name with }
  led := w.course.refl _
  silent := rfl
  told := ⟨[], 0, [], rfl, (List.append_nil _).symm, .nil, Array.getElem?_push_size⟩
  untraced := h.untraced
  traced := congrArg (List.cons _) h.untraced

/-- A direct call of a parser that was wrapped for a printing handler ends as the call of the parser itself
does, unless it was nested too deeply.  What is on record besides starts with the parser being entered, and the
lines that are printed besides tell of it. -/
theorem call_debugging {host : Host} {functions choosers : Value → Prop}
    (even : host.Evenhanded functions choosers w.course w.origin) (rounds depth : Nat) (h : w.origin.Settled)
    (known : Among (Behaviour.Undebugged functions choosers) w.origin p) {env : Value}
    (given : env.renumbered w.gap = env) (s : String) :
    Ends ((machine host rounds depth).call (.parser w.gap.parser) [.str s, env])
      (w.origin.debugging w.look p name)
      (fun v τ => τ.overran = true ∨ ∃ (a : Attempt) (σ' : Store) (more : List Report),
        v = (a.renumbered w.gap).value ∧ Annotated w σ' τ ∧
        τ.journal = more ++ .enter (w.visit p s 0 env) none :: w.origin.journal ∧
        (machine host rounds depth).call (.parser p) [.str s, env] w.origin = .ok a.value σ')
      (fun _ τ => τ.overran = true ∨ ∃ e' σ',
        (machine host rounds depth).call (.parser p) [.str s, env] w.origin = .error e' σ') := by
  obtain ⟨parsers, b, does, -, -⟩ := known.behaviour
  obtain ⟨state, there, -⟩ := Option.bind_eq_some_iff.mp does
  have inside : p < w.gap.parser := (Array.getElem?_eq_some_iff.mp there).1
  have wraps : (w.origin.debugging w.look p name).behaviour? w.gap.parser =
      some (.debug p (.echo w.gap.echo)) := by
    unfold Store.behaviour? Store.parser?
    rw [Store.debugging, Watch.gap, Store.gap, Array.getElem?_push_size]
    rfl
  cases depth with
  | zero => exact .inl rfl
  | succ depth =>
    have called : ∀ q, (machine host rounds (depth + 1)).call (.parser q) [.str s, env] =
        ((machine host rounds depth).run q (.str s) (.int 0) env >>= checkWhole (.str s)) := fun _ => rfl
    rw [called, called]
    cases depth with
    | zero => exact .inl rfl
    | succ depth =>
      -- The call takes one level of the machine and the debug node another.
      have watched := h.watched w p name
      have retraced := (retraces_machine even rounds (Nat.le_succ depth)).run watched known (Int.le_refl 0) s env
      have opens := run_opens even.keeps watched there rounds depth s 0 env
      have same : past w.gap.parser p = p := past_of_lt inside
      rw [given] at retraced
      refine Ends.bind (P := fun v τ => τ.overran = true ∨ ∃ (a : Attempt) (σ' : Store) (more : List Report),
        0 ≤ a.index ∧ v = (a.renumbered w.gap).value ∧ Annotated w σ' τ ∧
        τ.journal = more ++ .enter (w.visit p s 0 env) none :: w.origin.journal ∧
        (machine host rounds (depth + 1)).run p (.str s) (.int 0) env w.origin = .ok a.value σ') ?_ ?_
      · refine Ends.congr (run_above _ _ _ h.untraced wraps) ?_
        have both := Ends.and retraced opens
        rw [same] at both
        refine ends_andFinally_popTracer.mpr (Ends.mono both ?_ ?_)
        · rintro _ τ' ⟨beyond | ⟨_, σ', plain, hw, -, a, start, rfl, rfl⟩, more, journal⟩
          · exact .inl beyond
          · obtain ⟨reports, depth, lines, listed, printed, narrates, handler⟩ := hw.told
            exact .inr ⟨a, σ', more, start, rfl,
              { hw with
                told := ⟨reports, depth, lines, listed, printed, narrates.of_parsers rfl, handler⟩ },
              journal, plain⟩
        · rintro e τ' ⟨beyond | ⟨e', σ', plain, -⟩, -⟩
          · exact .inl beyond
          · exact .inr ⟨e', σ', bind_error plain⟩
      · rintro _ τ' (beyond | ⟨a, σ', more, start, rfl, hw, journal, plain⟩)
        · exact (keeps_checkWhole limited _ _ τ').mono (fun _ _ still => .inl (still.1 beyond))
            fun _ _ still => .inl ((still trivial).1 beyond)
        · rw [checkWhole_eq s (index_renumbered _ a ▸ start), ← whole_renumbered]
          refine .inr ⟨_, σ', more, rfl, hw, journal, (bind_ok plain).trans ?_⟩
          rw [checkWhole_eq s start]
          rfl

end Debug

end Rebind
