import Rebind.Proofs.Identities
import Rebind.Proofs.Mirrors
import Rebind.Proofs.Reports
import Rebind.Proofs.Soundness
/-!
# Tracing changes nothing

A grammar with `debug` nodes, run under any active tracers, ends as the grammar ends in which each of
these nodes is replaced by the parser below it, run without a tracer: with a corresponding result or a
corresponding error.  This is so where every call of a handler returned and nothing was nested too
deeply; handlers and functions of the user may do what they like as long as they leave alone what the
other ones look at.
-/
namespace Rebind.Trace

open Course

/-! ### What was spoiled stays so -/

theorem heeding_blind : heeding.Blind where
  quiet _ _ _ spoiled := spoiled
  record _ r spoiled := spoiled.record r
  tracers _ _ spoiled := spoiled
  overrun _ _ := .inl rfl
  counts _ := trivial

variable {m : Machine}

/-! ### The handlers' side -/

variable {share : Value → Eval Value} {M : Likeness share} {w : M.World}

/-- Something that handlers are given: a parser, or what has a counterpart on the other side. -/
def Known (M : Likeness share) (w : M.World) (v : Value) : Prop :=
  (∃ p, v = .parser p) ∨ (∃ v', M.values w v v') ∨ ∃ v', M.errors w v v'

theorem Known.later {u : M.World} {v : Value} (h : Known M w v) (led : M.later w u) : Known M u v := by
  rcases h with parser | ⟨v', like⟩ | ⟨v', like⟩
  · exact .inl parser
  · exact .inr (.inl ⟨v', M.values_later led like⟩)
  · exact .inr (.inr ⟨v', M.errors_later led like⟩)

/-- A handler whose methods leave alone what is looked at on the other side.  They may raise errors, but not
go on forever. -/
def Attends (M : Likeness share) (m : Machine) (handler : Value) : Prop :=
  ∀ w name arguments, (∀ v ∈ arguments, Known M w v) → ∀ σ σ', M.stores w σ σ' →
    Ends (callMethod m handler name arguments) σ (fun _ τ => ∃ u, M.later w u ∧ M.stores u τ σ')
      fun e _ => e ≠ .endless

/-- A visit in which handlers are given nothing else. -/
def Seen (M : Likeness share) (w : M.World) (v : Visit) : Prop :=
  ∀ a ∈ [v.parser, v.text, v.index, v.environment], Known M w a

theorem Seen.later {u : M.World} {v : Visit} (h : Seen M w v) (led : M.later w u) : Seen M u v :=
  fun a member => (h a member).later led

/-- A report to a handler changes nothing on the other side. -/
theorem aside_tell {v : Visit} (attends : Attends M m v.handler) (seen : Seen M w v) (name : String)
    {more : List Value} (known : ∀ a ∈ more, Known M w a) (note : Option Value → Report)
    (refused : ∀ e, (note (some e)).isRefused = true) :
    M.Aside w (tell m v name more note) fun _ _ => True := by
  intro σ σ' hs
  have given : ∀ a ∈ [v.parser, v.text, v.index, v.environment] ++ more, Known M w a := by
    intro a member
    rcases List.mem_append.mp member with first | second
    · exact seen a first
    · exact known a second
  refine Ends.bind (P := fun _ τ => ∃ u, M.later w u ∧ M.stores u τ σ') ?_ ?_
  · refine ends_recording.mpr ((attends w name _ given σ σ' hs).mono ?_ ?_)
    · rintro _ τ ⟨u, led, hs'⟩
      exact ⟨u, led, M.record _ hs'⟩
    · intro e τ proper
      cases e with
      | raised error => exact .inr ⟨_, List.mem_cons_self, refused error⟩
      | endless => exact absurd rfl proper
  · rintro _ τ ⟨u, led, hs'⟩
    exact ⟨u, led, hs', trivial⟩

/-- Neither does giving it what it is told. -/
theorem aside_presented (shares : m.share = share) (handler : Value)
    {R : M.World → Value → Value → Prop} {v v' : Value} (h : R w v v')
    (given : ∀ {σ σ'}, M.stores w σ σ' → ∃ x τ u, share v σ = .ok x τ ∧ M.later w u ∧
      M.stores u τ σ' ∧ R u x v') : M.Aside w (presented m handler v) fun u x => R u x v' := by
  intro σ σ' hs
  obtain ⟨shows, asked⟩ := asks_showsResults handler σ
  refine Ends.bind (P := fun _ τ => τ = σ) (Ends.of_eq_ok asked rfl) ?_
  rintro shown τ rfl
  split
  · obtain ⟨x, υ, u, ends, led, hs', like⟩ := given hs
    rw [shares]
    exact Ends.of_eq_ok ends ⟨u, led, hs', like⟩
  · exact ⟨w, M.later_refl w, hs, h⟩

theorem known_singleton {v : Value} (h : Known M w v) : ∀ a ∈ [v], Known M w a := by
  intro a member
  rw [List.mem_singleton] at member
  exact member ▸ h

/-- The error of a behaviour is raised again after a handler was told of it, if it could be. -/
theorem abort_again (shares : m.share = share) {v : Visit} (attends : Attends M m v.handler)
    (seen : Seen M w v) {e e' : Value} (he : M.errors w e e') {σ σ' : Store} (hs : M.stores w σ σ') :
    Ends (abort m v e) σ (fun _ _ => False) fun f τ => Spoiled τ ∨
      ∃ x u, f = .raised x ∧ M.later w u ∧ M.stores u τ σ' ∧ M.errors u x e' := by
  obtain ⟨hears, asked⟩ := asks_hearsErrors v.handler σ
  refine Ends.bind (P := fun _ τ => τ = σ) (Ends.of_eq_ok asked rfl) ?_
  rintro heard τ rfl
  split
  · have shown := aside_presented shares v.handler he (M.error_presented · he) τ σ' hs
    refine Ends.bind (shown.mono (fun _ _ h => h) fun _ _ spoiled => .inl spoiled) ?_
    rintro x υ ⟨u, led, hs', like⟩
    have known := known_singleton (.inr (.inr ⟨e', like⟩))
    have told := aside_tell attends (seen.later led) "abort" known (.abort v x) (fun _ => rfl) υ σ' hs'
    refine Ends.bind (told.mono (fun _ _ h => h) fun _ _ spoiled => .inl spoiled) ?_
    rintro _ υ' ⟨u', led', hs'', _⟩
    exact .inr ⟨x, u', rfl, M.later_trans led led', hs'', M.errors_later led' like⟩
  · exact .inr ⟨e, w, rfl, M.later_refl w, M.record _ hs, he⟩

variable {text i env text' i' env' : Value}

/-- A handler is shown what the run is given. -/
theorem seen_of_given (handler : Value) (p : ParserId) (h : M.Given w text i env text' i' env') :
    Seen M w ⟨handler, .parser p, text, i, env⟩ := by
  intro a member
  simp only [List.mem_cons, List.not_mem_nil, or_false] at member
  rcases member with rfl | rfl | rfl | rfl
  · exact .inl ⟨p, rfl⟩
  · exact .inr (.inl ⟨text', h.text⟩)
  · exact .inr (.inl ⟨i', h.index⟩)
  · exact .inr (.inl ⟨env', h.env⟩)

/-- A behaviour that reports to a handler is followed by what follows the behaviour. -/
theorem follows_report (hm : m.Keeps heeding) (shares : m.share = share) {handler : Value}
    (attends : Attends M m handler) (p : ParserId) {body : Runner} {y : Eval Value}
    (h : M.Given w text i env text' i' env')
    (hb : ∀ u, M.later w u → M.Follows u (body text i env) y M.values) :
    M.Follows w (report m handler (.parser p) body text i env) y M.values := by
  have seen := seen_of_given handler p h
  unfold report
  dsimp only
  generalize hv : (⟨handler, .parser p, text, i, env⟩ : Visit) = v at seen ⊢
  replace attends : Attends M m v.handler := by
    rw [← hv]
    exact attends
  have caught : ∀ u, M.later w u →
      M.Follows u (catching (recording (body text i env) (.behaved v)) (abort m v)) y M.values := by
    intro u led σ σ' hs
    refine ends_catching.mpr (ends_recording.mpr ((hb u led σ σ' hs).mono ?_ ?_))
    · rintro a τ (spoiled | ⟨b, τ', u', hy, led', hs', like⟩)
      · exact .inl (spoiled.record _)
      · exact .inr ⟨b, τ', u', hy, led', M.record _ hs', like⟩
    · intro e τ ended
      cases e with
      | endless => exact ended
      | raised e =>
        dsimp only
        rcases ended with spoiled | ⟨e', τ', u', hy, led', hs', like⟩
        · have spoiled := spoiled.record (.behaved v (.error e))
          split
          · exact (heeding_blind.abort hm v e _).mono (fun _ _ still => .inl (still spoiled))
              fun _ _ still => .inl (still trivial spoiled)
          · exact .inl spoiled
        · have recorded := M.record (.behaved v (.error e)) hs'
          split
          · have again := abort_again shares attends (seen.later (M.later_trans led led')) like recorded
            refine again.mono (fun _ _ impossible => impossible.elim) ?_
            rintro f υ (spoiled | ⟨x, u'', rfl, led'', rest⟩)
            · exact .inl spoiled
            · exact .inr ⟨e', τ', u'', hy, M.later_trans led' led'', rest.1, rest.2⟩
          · -- the handler does not hear of what is no ordinary error
            exact .inr ⟨e', τ', u', hy, led', recorded, like⟩
  rw [← bind_pure y]
  have entered : M.Aside w (tell m v "enter" [] (.enter v)) fun _ _ => True :=
    aside_tell attends seen "enter" (by simp) _ fun _ => rfl
  refine entered.then fun u _ led _ => ?_
  refine (caught u led).bind (fun outcome => ?_) fun u' a b led' like => ?_
  · refine keeps_bind (Blind.presented hm handler outcome) fun shown => ?_
    exact keeps_bind (heeding_blind.tell hm v _ _ _) fun _ => keeps_pure _ _
  refine Resemblance.Aside.follows (P := fun u x => M.values u x b) ?_ fun _ _ _ like => like
  refine (aside_presented shares handler like (M.presented · like)).bind fun u'' x led'' like => ?_
  have seen := seen.later (M.later_trans led (M.later_trans led' led''))
  have known := known_singleton (.inr (.inl ⟨b, like⟩))
  have told := aside_tell attends seen "exit" known (.exit v x) fun _ => rfl
  exact told.bind fun last _ led _ => aside_pure (M.values_later led like)

/-- A `debug` node is followed by the parser below it. -/
theorem follows_debug {m' : Machine} (hm : M.Mirrors m m') (q : ParserId) {handler : Value}
    (listens : M.listens handler) (h : M.Given w text i env text' i' env') :
    M.Follows w (Behave.debug m q handler text i env) (m'.run q text' i' env') M.values := by
  intro σ σ' hs
  refine Ends.bind (P := fun _ τ => τ = { σ with tracers := handler :: σ.tracers }) rfl ?_
  rintro _ τ rfl
  refine ends_andFinally_popTracer.mpr ((hm.run q h _ σ' (M.push hs listens)).mono ?_ ?_)
  · rintro a υ (spoiled | ⟨b, υ', u, hy, led, hs', like⟩)
    · exact .inl spoiled
    · exact .inr ⟨b, υ', u, hy, led, M.pop hs', like⟩
  · intro e υ ended
    refine ended.imp id fun ended => ?_
    cases e with
    | raised e =>
      obtain ⟨e', υ', u, hy, led, hs', like⟩ := ended
      exact ⟨e', υ', u, hy, led, M.pop hs', like⟩
    | endless => exact ended

/-! ### Machines -/

/-- Calling what corresponds is followed, if functions of the user are respected. -/
theorem follows_invoke {host : Host} {m' : Machine} (hm : M.Mirrors m m')
    (respected : M.Respected host) {f f' : Value} (hf : M.functions w f f') {xs ys : List Value}
    (arguments : List.Forall₂ (M.values w) xs ys) :
    M.Follows w (invoke host m f xs) (invoke host m' f' ys) M.values := by
  have nothing := M.formed (w := w) (.plain (v := .none) trivial)
  have zero := M.formed (w := w) (.int 0)
  cases M.callable hf with
  | behaviour h h' alike =>
    unfold invoke
    rw [h, h']
    rcases arguments with _ | ⟨text, _ | ⟨i, _ | ⟨env, _ | ⟨_, _⟩⟩⟩⟩
    · exact follows_raise _
    · exact follows_raise _
    · exact follows_raise _
    · exact follows_behave hm alike ⟨text, i, env⟩
    · exact follows_raise _
  | parser h h' =>
    unfold invoke
    rw [h, h']
    rcases arguments with _ | ⟨text, _ | ⟨env, _ | ⟨i, _ | ⟨_, _⟩⟩⟩⟩
    · exact follows_raise _
    · exact follows_callParser hm _ ⟨text, zero, nothing⟩
    · exact follows_callParser hm _ ⟨text, zero, env⟩
    · exact follows_callParser hm _ ⟨text, i, env⟩
    · exact follows_raise _
  | closure h h' =>
    rw [invoke_closure h, invoke_closure h']
    exact respected m m' hm w f f' xs ys hf arguments
  | other h h' =>
    rw [invoke_other h, invoke_other h']
    exact follows_raise _

/-- What a parser does at present is followed by what it does on the other side. -/
theorem follows_runCurrent {host : Host} {m' : Machine} (hm : M.Mirrors m m')
    (higher : M.Mirrors m (m'.above host)) (respected : M.Respected host) (p : ParserId)
    {text i env text' i' env' : Value} (h : M.Given w text i env text' i' env') :
    M.Follows w (runCurrent host m p text i env) (runCurrent host m' p text' i' env') M.values := by
  intro σ σ' hs
  have there := M.parsers p hs
  generalize known : σ.parser? p = found at there
  generalize known' : σ'.parser? p = found' at there
  cases there with
  | none =>
    rw [runCurrent_none text' i' env' known']
    exact Ends.congr (runCurrent_none text i env known) (follows_raise _ σ σ' hs)
  | @some s s' same =>
    rcases same with ⟨q, handler, content, listens, below⟩ | functions
    · have reports : invoke host m s.behaviour [text, i, env] = Behave.debug m q handler text i env := by
        unfold invoke
        rw [content]
        rfl
      have passes : runCurrent host m' p text' i' env' σ' = (m'.above host).run q text' i' env' σ' := by
        obtain ⟨s'', known'', same⟩ := Option.map_eq_some_iff.mp below
        rw [run_untraced _ _ _ (M.untraced hs), runCurrent_some _ _ _ known',
          runCurrent_some _ _ _ known'', same]
      rw [passes]
      refine Ends.congr (runCurrent_some text i env known) ?_
      rw [reports]
      exact follows_debug higher q listens h σ σ' hs
    · have arguments : List.Forall₂ (M.values w) [text, i, env] [text', i', env'] :=
        .cons h.text (.cons h.index (.cons h.env .nil))
      rw [runCurrent_some text' i' env' known']
      refine Ends.congr (runCurrent_some text i env known) ?_
      exact follows_invoke hm respected functions arguments σ σ' hs

/-- Machines of the same height that stand on machines of which the one mirrors the other, also one machine
up. -/
theorem mirrors_above {host : Host} {m' : Machine} {M : Likeness host.share} (keeps : host.Keeps heeding)
    (respected : M.Respected host) (attends : ∀ handler, M.listens handler → Attends M m handler)
    (hm : M.Mirrors m m') (higher : M.Mirrors m (m'.above host)) :
    M.Mirrors (m.above host) (m'.above host) where
  keeps := (heeding_blind.traced host).above keeps hm.keeps hm.shares
  run := by
    intro w text i env text' i' env' p h σ σ' hs
    have current : ∀ u, M.later w u →
        M.Follows u (runCurrent host m p text i env) (runCurrent host m' p text' i' env') M.values :=
      fun u led => follows_runCurrent hm higher respected p (h.later led)
    rw [run_untraced _ _ _ (M.untraced hs)]
    cases active : σ.tracers with
    | nil =>
      exact Ends.congr (run_untraced _ _ _ active) (current w (M.later_refl w) σ σ' hs)
    | cons handler rest =>
      have listens := M.heard hs handler (by simp [active])
      have reported := follows_report hm.keeps hm.shares (attends handler listens) p h current
      exact Ends.congr (run_traced _ _ _ active) (reported σ σ' hs)
  call := fun hf arguments => follows_invoke hm respected hf arguments
  shares := rfl
  shares' := rfl
  rounds := hm.rounds

/-- A machine mirrors every machine that is at least as high. -/
theorem mirrors_machine {host : Host} {M : Likeness host.share} (keeps : host.Keeps heeding)
    (respected : M.Respected host) (rounds : Nat)
    (attends : ∀ depth handler, M.listens handler → Attends M (machine host rounds depth) handler)
    {depth higher : Nat} (le : depth ≤ higher) :
    M.Mirrors (machine host rounds depth) (machine host rounds higher) := by
  induction depth generalizing higher with
  | zero =>
    refine ⟨(heeding_blind.traced host).machine keeps rounds 0, ?_, ?_, rfl, machine_share _ _ _, ?_⟩
    · exact fun _ _ _ _ _ => .inl (.inl rfl)
    · exact fun _ _ _ _ _ => .inl (.inl rfl)
    · rw [machine_rounds, machine_rounds]
  | succ depth ih =>
    obtain ⟨below, rfl⟩ : ∃ below, higher = below + 1 := ⟨higher - 1, by omega⟩
    have same : M.Mirrors (machine host rounds depth) (machine host rounds below) := ih (by omega)
    have higher : M.Mirrors (machine host rounds depth) (machine host rounds (below + 1)) := ih (by omega)
    exact mirrors_above keeps respected (attends depth) same higher

/-! ### Runs -/

/-- Evaluations, of which one is heard of, that end alike. -/
def EndAlike (M : Likeness share) :
    EStateM.Result Fault Store Value → EStateM.Result Fault Store Value → Prop :=
  M.toResemblance.EndAlike

/-- Tracing is transparent.  A run under active tracers of a grammar with `debug` nodes ends as the run of
the grammar with the parsers below them in their place, on a machine that is at least as high and has no
tracers, if no handler raised an error and nothing was nested too deeply.  What a function of the user looks
at and what it may change is up to the likeness; handlers leave it alone. -/
theorem run_transparent {host : Host} (M : Likeness host.share) (keeps : host.Keeps heeding)
    (respected : M.Respected host) (rounds : Nat)
    (attends : ∀ depth handler, M.listens handler → Attends M (machine host rounds depth) handler)
    {depth higher : Nat} (le : depth ≤ higher) {w : M.World} {σ σ' : Store} (hs : M.stores w σ σ')
    {text i env text' i' env' : Value} (h : M.Given w text i env text' i' env') (p : ParserId)
    (calm : ¬ Spoiled (storeAfter ((machine host rounds depth).run p text i env σ))) :
    EndAlike M ((machine host rounds depth).run p text i env σ)
      ((machine host rounds higher).run p text' i' env' σ') :=
  endAlike_of_follows ((mirrors_machine keeps respected rounds attends le).run p h) hs calm

/-- A function with a number, where only the number matters. -/
private def numberedFunction (n : Nat) : Value := .closure [] (.plain .null) [] (.named "f") n

private def numberOf : Value → Nat
  | .closure _ _ _ _ n => n
  | _ => 0

private def noter : Value :=
  .handler [("enter", numberedFunction 0), ("exit", numberedFunction 0), ("abort", numberedFunction 0)]

/-- What the numbered functions return: the first one its argument doubled, the other ones a parser. -/
private def answer : Nat → List Value → Option Value
  | 1, [v, _] => some (.list [v, v])
  | 2, _ => some (.parser 8)
  | 3, _ => some (.parser 6)
  | _, _ => none

/-- The functions that return nothing take note of the call. -/
private def served (f : Value) (arguments : List Value) : Eval Value :=
  match answer (numberOf f) arguments with
  | some v => pure v
  | none => do
    printLine "heard"
    return .none

private def noteHost : Host := ⟨fun _ f arguments => served f arguments, Value.share⟩

/-- A character that is doubled and, by a function that returns `again`, another one: `each` does the doubling,
`all` goes on with `again`, and `again` looks `each` up. -/
private def doubling (each all : Behaviour Value) : List ParserState :=
  [⟨.behaviour (.transform 0 (numberedFunction 1)), .str "double"⟩, ⟨.behaviour each, .str "each"⟩,
    ⟨.behaviour (.chain 6 (numberedFunction 2)), .str "twice"⟩,
    ⟨.behaviour (.deferredLookup (numberedFunction 3) "again"), .str "again"⟩, ⟨.behaviour all, .str "all"⟩]

private def tracedDoubling : Store :=
  { Store.initial with
    tracers := [noter]
    parsers := Store.initial.parsers ++ (doubling (.debug 5 noter) (.debug 7 noter)).toArray }

private def plainDoubling : Store :=
  { Store.initial with
    parsers := Store.initial.parsers ++
      (doubling (.transform 0 (numberedFunction 1)) (.chain 6 (numberedFunction 2))).toArray }

/-- The parsers that the functions return. -/
private def offered (p : ParserId) : Prop := p = 6 ∨ p = 8

private theorem noteHost_keeps : noteHost.Keeps heeding := by
  refine ⟨fun m _ f arguments => ?_, fun v σ spoiled => spoiled⟩
  change heeding.Keeps (served f arguments)
  unfold served
  split
  · exact keeps_pure _ _
  · exact keeps_bind (keeps_printLine heeding_blind.quiet.prints _) fun _ => keeps_pure _ _

private theorem printed_untraced {listens : Value → Prop} {bounds : Nat × Nat} {σ σ' : Store}
    (hs : Untraced offered listens bounds σ σ') (lines lines' : List String) :
    Untraced offered listens bounds { σ with printed := lines } { σ' with printed := lines' } :=
  { hs with }

private theorem answer_alike {bounds : Nat × Nat} {xs ys : List Value}
    (h : List.Forall₂ (Peer offered bounds) xs ys) :
    ∀ n, Option.Rel (Peer offered bounds) (answer n xs) (answer n ys)
  | 0 => .none
  | 1 => by
    rcases h with _ | ⟨first, _ | ⟨_, _ | ⟨_, _⟩⟩⟩
    · exact .none
    · exact .none
    · exact .some (Formed.list (.cons first (.cons first .nil))).peer
    · exact .none
  | 2 => .some ⟨.inr rfl, .inr rfl, rfl⟩
  | 3 => .some ⟨.inl rfl, .inl rfl, rfl⟩
  | _ + 4 => .none

private theorem noteHost_respected {listens : Value → Prop} :
    (Likeness.identities offered listens).Respected noteHost := by
  intro m m' _ w f f' xs ys functions arguments
  obtain ⟨rfl, _⟩ := functions
  change (Likeness.identities offered listens).Follows w (served f xs) (served f ys) _
  unfold served
  have answers := answer_alike arguments (numberOf f)
  generalize answer (numberOf f) xs = a at answers ⊢
  generalize answer (numberOf f) ys = b at answers ⊢
  cases answers with
  | some like => exact follows_pure like
  | none =>
    intro σ σ' hs
    refine .inr ⟨.none, _, w, rfl, (Likeness.identities offered listens).later_refl w, ?_, ?_⟩
    · exact printed_untraced hs _ _
    · exact (Likeness.identities offered listens).formed (.plain trivial)

private theorem noter_attends (depth : Nat) :
    Attends (Likeness.identities offered (· = noter)) (machine noteHost 10 depth) noter := by
  intro w name arguments _ σ σ' hs
  refine Ends.bind (P := fun v τ => v = noter ∧ τ = σ) ⟨rfl, rfl⟩ ?_
  rintro _ τ ⟨rfl, rfl⟩
  dsimp only [noter]
  split
  · next f found =>
    have note : f = numberedFunction 0 := by
      simp only [List.lookup_cons, List.lookup_nil] at found
      split at found
      · exact (Option.some.inj found).symm
      · split at found
        · exact (Option.some.inj found).symm
        · split at found
          · exact (Option.some.inj found).symm
          · cases found
    cases depth with
    | zero =>
      intro same
      cases same
    | succ depth =>
      have call : (machine noteHost 10 (depth + 1)).call f arguments = served f arguments := by
        have made : (machine noteHost 10 (depth + 1)).call (numberedFunction 0) arguments =
            invoke noteHost (machine noteHost 10 depth) (numberedFunction 0) arguments := rfl
        rw [note, made, invoke_closure (f := numberedFunction 0) trivial]
        rfl
      rw [call, note]
      exact ⟨w, Resemblance.later_refl _ w, printed_untraced hs _ _⟩
  · intro same
    cases same

private theorem untraced_doubling :
    Untraced offered (· = noter) (0, 0) tracedDoubling plainDoubling where
  left := Nat.zero_le _
  right := Nat.zero_le _
  unedited := rfl
  unedited' := rfl
  names p known := by
    rcases known with rfl | rfl
    · exact ⟨.str "each", rfl, rfl⟩
    · exact ⟨.str "again", rfl, rfl⟩
  heard h member := List.mem_singleton.mp member
  silent := rfl
  parsers p := by
    have all : List.Forall₂ (fun s s' : ParserState =>
        (∃ q h, s.behaviour.content = .behaviour (.debug q h) ∧ h = noter ∧
          (plainDoubling.parser? q).map (·.behaviour) = some s'.behaviour) ∨
            s.behaviour = s'.behaviour ∧ s.behaviour.IsUsable offered)
        tracedDoubling.parsers.toList plainDoubling.parsers.toList :=
      .cons (.inr ⟨rfl, trivial⟩) (.cons (.inr ⟨rfl, trivial⟩) (.cons (.inr ⟨rfl, trivial⟩)
        (.cons (.inr ⟨rfl, trivial⟩) (.cons (.inr ⟨rfl, trivial⟩) (.cons (.inr ⟨rfl, trivial⟩)
          (.cons (.inl ⟨5, noter, rfl, rfl, rfl⟩) (.cons (.inr ⟨rfl, trivial⟩)
            (.cons (.inr ⟨rfl, trivial⟩) (.cons (.inl ⟨7, noter, rfl, rfl, rfl⟩) .nil)))))))))
    have there := rel_getElem? all p
    rwa [Array.getElem?_toList, Array.getElem?_toList] at there

/-- The run returned after so many reports, none of a refused call, and was never nested too deeply. -/
private def calmAfter (reports : Nat) : EStateM.Result Fault Store Value → Bool
  | .ok _ τ => τ.journal.length == reports && !τ.overran && τ.journal.all fun r => !r.isRefused
  | .error _ _ => false

private theorem not_spoiled_of_calmAfter {reports : Nat} {r : EStateM.Result Fault Store Value}
    (h : calmAfter reports r = true) : ¬ Spoiled (storeAfter r) := by
  cases r with
  | ok a τ =>
    simp only [calmAfter, Bool.and_eq_true, List.all_eq_true] at h
    obtain ⟨⟨_, within⟩, accepted⟩ := h
    rintro (beyond | ⟨r, member, refused⟩)
    · have beyond : τ.overran = true := beyond
      simp [beyond] at within
    · have accepted := accepted r member
      simp [refused] at accepted
  | error e τ => cases h

/-- Two characters, under a `debug` node around a chain and one around a function, where functions return
parsers. -/
theorem run_transparent_doubling :
    calmAfter 27 ((machine noteHost 10 8).run 9 (.str "ab") (.int 0) .none tracedDoubling) = true ∧
      EndAlike (Likeness.identities offered (· = noter))
        ((machine noteHost 10 8).run 9 (.str "ab") (.int 0) .none tracedDoubling)
        ((machine noteHost 10 9).run 9 (.str "ab") (.int 0) .none plainDoubling) := by
  have ran : calmAfter 27
      ((machine noteHost 10 8).run 9 (.str "ab") (.int 0) .none tracedDoubling) = true := by
    decide +kernel
  refine ⟨ran, ?_⟩
  have attends : ∀ depth handler, (Likeness.identities offered (· = noter)).listens handler →
      Attends (Likeness.identities offered (· = noter)) (machine noteHost 10 depth) handler := by
    rintro depth _ rfl
    exact noter_attends depth
  have given : (Likeness.identities offered (· = noter)).Given (0, 0) (.str "ab") (.int 0) .none
      (.str "ab") (.int 0) .none :=
    ⟨Resemblance.formed _ (.str _), Resemblance.formed _ (.int _), Resemblance.formed _ (.plain trivial)⟩
  have le : 8 ≤ 9 := by decide
  have calm := not_spoiled_of_calmAfter ran
  have alike := run_transparent (Likeness.identities offered (· = noter)) noteHost_keeps noteHost_respected 10
    attends le untraced_doubling given 9 calm
  exact alike

end Rebind.Trace
