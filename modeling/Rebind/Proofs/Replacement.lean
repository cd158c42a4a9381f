import Mathlib.Logic.Relation
import Rebind.Proofs.FrameTracing
import Rebind.Proofs.Soundness
/-!
# What a replacement changes, and for how long

To replace a parser by another one is to copy the two fields of the one to the other.  If one of the two is
no parser, nothing happens.  What is built on the replaced parser changes with it, and nothing else does: a
parser from which no references lead to it gives the same as before, also among parsers that refer to each
other in circles, and also where trace handlers print what is run.  The copy is by value, so the replaced
parser stays what it has become until it is itself replaced again, whatever becomes of the parser that it
was copied from.
-/
namespace Rebind

/-- Whether a parser is built on another one at present. -/
def Store.Refers (σ : Store) (p q : ParserId) : Prop := ∃ b, σ.behaviour? p = some b ∧ q ∈ b.children

/-- Whether references lead from a parser to another one at present, or they are the same. -/
def Store.Leads (σ : Store) : ParserId → ParserId → Prop := Relation.ReflTransGen σ.Refers

/-- The parsers to which references lead from a parser do without functions of the user and without parsers
as values, and so do the handlers that hear of runs. -/
structure Store.IsInert (σ : Store) (p : ParserId) : Prop where
  parsers : ∀ q s, σ.Leads p q → σ.parser? q = some s → s.IsInert σ
  tracers : ∀ handler ∈ σ.tracers, handler.Prints σ

/-- The only difference between two stores is the state of one parser, which is the given one in the
second. -/
structure ChangedOnly (t : ParserId) (state : ParserState) (σ τ : Store) : Prop where
  now : τ.parser? t = some state
  others : ∀ p, p ≠ t → τ.parser? p = σ.parser? p
  rest : τ = { σ with parsers := τ.parsers }

/-- Parsers from which no references lead to a given one come to the same in two stores, in runs and in
calls, on every text, from every index, in every environment and on machines of every size. -/
def SameElsewhere (host : Host) (t : ParserId) (σ τ : Store) : Prop :=
  ∀ p, ¬ σ.Leads p t → σ.IsInert p → ∀ text i env : Value, text.Parserless σ → i.Parserless σ →
    ∀ rounds depth,
      outcome ((machine host rounds depth).run p text i env τ) =
          outcome ((machine host rounds depth).run p text i env σ) ∧
        outcome (callParser (machine host rounds depth) p text env i τ) =
          outcome (callParser (machine host rounds depth) p text env i σ)

section Leads

variable {σ : Store} {host : Host} {t p q : ParserId} {state : ParserState}

/-- References do not lead out of parsers that have all their children among them. -/
theorem Store.Leads.inside {grammar : ParserId → Prop} (h : σ.Leads p q) (start : grammar p)
    (closed : ∀ p b q, grammar p → σ.behaviour? p = some b → q ∈ b.children → grammar q) : grammar q := by
  induction h with
  | refl => exact start
  | tail _ step ih =>
    obtain ⟨b, does, child⟩ := step
    exact closed _ b _ ih does child

/-- The parsers to which references lead from `p` are apart from one to which they do not lead. -/
theorem apart_leads (separate : ¬ σ.Leads p t) (inert : σ.IsInert p) : Apart σ t (σ.Leads p) where
  other := separate
  inert q s led there := inert.parsers q s led there
  closed _ b _ led does child := led.tail ⟨b, does, child⟩

/-- A replacement leaves every parser alone that does not reach it. -/
theorem sameElsewhere_setParser (host : Host) (σ : Store) (t : ParserId) (state : ParserState) :
    SameElsewhere host t σ (σ.setParser t state) := by
  intro p separate inert text i env ht hi rounds depth
  have runs : (machine host rounds depth).Ignores σ t state (σ.Leads p) text env :=
    ignores_run (apart_leads separate inert) ht rounds depth
  have start : σ.Leads p p := .refl
  exact ⟨(runs p i start hi).outcome_eq inert.tracers,
    (ignores_callParser runs start ht hi).outcome_eq inert.tracers⟩

/-- It changes two fields of one parser. -/
theorem changedOnly_setParser (inside : t < σ.parsers.size) :
    ChangedOnly t state σ (σ.setParser t state) where
  now := Array.getElem?_setIfInBounds_self_of_lt inside
  others _ different := parser?_setParser_ne state different
  rest := rfl

end Leads

/-! ### Calls that build grammars -/

/-- A call that makes a parser or a trace handler, or that replaces a parser. -/
inductive GrammarCall where
  | construct (c : Construction)
  | custom (behaviour : Value)
  | ofBehaviour (behaviour name : Value)
  | debug (parser handler : Value)
  | makeHandler (context padIfShort onEnter onExit color : Value)
  | replace (target source : Value)

namespace GrammarCall

def perform : GrammarCall → Eval Value
  | construct c => c.build
  | custom behaviour => Grammar.custom behaviour
  | ofBehaviour behaviour name => Grammar.ofBehaviour behaviour name
  | debug parser handler => Grammar.debug parser handler
  | makeHandler context padIfShort onEnter onExit color =>
    Grammar.makeHandler context padIfShort onEnter onExit color
  | replace target source => do
    Grammar.replace target source
    return .none

/-- The parser that the call is to replace, if it is to replace one. -/
def target? : GrammarCall → Option Value
  | replace target _ => some target
  | _ => none

/-- The store that the call leaves behind, whether it returns or raises an error. -/
def after (σ : Store) (c : GrammarCall) : Store :=
  match c.perform σ with
  | .ok _ τ | .error _ τ => τ

end GrammarCall

def afterCalls (calls : List GrammarCall) (σ : Store) : Store := calls.foldl GrammarCall.after σ

section Constructors

open Course

/-- Everything but `replace` keeps the parsers that there are. -/
theorem kept_addParser (behaviour name : Value) : kept.Keeps (addParser behaviour name) := by
  intro σ
  refine ⟨rfl, fun p state there => ?_⟩
  have inside : p < σ.parsers.size := (Array.getElem?_eq_some_iff.mp there).1
  exact (Array.getElem?_push_lt inside).trans ((Array.getElem?_eq_getElem inside).symm.trans there)

theorem kept_define (b : Behaviour Value) (name : String) : kept.Keeps (Grammar.define b name) :=
  keeps_bind (fun _ => ⟨rfl, fun _ _ there => there⟩) fun _ => kept_addParser _ _

theorem kept_addEcho (s : EchoState) : kept.Keeps (addEcho s) := fun _ =>
  ⟨rfl, fun _ _ there => there⟩

theorem kept_ofBehaviour (behaviour name : Value) : kept.Keeps (Grammar.ofBehaviour behaviour name) :=
  keeps_bind (kept.keeps_truthy name) fun _ =>
    kept.keeps_ite (kept_addParser _ _) (kept_addParser _ _)

theorem keeps_groupOf {K : Course} (r : Regex) (group : Value) : K.Keeps (Grammar.groupOf r group) := by
  unfold Grammar.groupOf
  split
  · split
    · exact K.keeps_pure _
    · exact keeps_bind (K.keeps_require _ _ _ _) fun _ => K.keeps_raise _
  · exact keeps_bind (K.keeps_require _ _ _ _) fun _ => K.keeps_pure _

theorem kept_sequence (parsers : List Value) : kept.Keeps (Grammar.sequence parsers) :=
  keeps_bind (keeps_mapM (fun v => kept.keeps_parserOf _ v) parsers) fun _ => kept_define _ _

theorem kept_framed (function : String) (frame : ParserId) (parser : Value) :
    kept.Keeps (Grammar.framed function frame parser) := by
  refine keeps_bind (kept.keeps_parserOf _ _) fun id => keeps_bind (kept_sequence _) fun inner => ?_
  refine keeps_bind (kept.keeps_parserOf _ _) fun inner => ?_
  exact keeps_bind (keeps_displayName id) fun _ => kept_define _ _

/-- A call that makes a parser leaves those alone that there are. -/
theorem Construction.kept_build (c : Construction) : kept.Keeps c.build := by
  cases c with
  | succeed value => exact keeps_bind (kept.keeps_literalOf _) fun _ => kept_define _ _
  | fail description => exact keeps_bind (keeps_literalText _ _) fun _ => kept_define _ _
  | string literal => exact keeps_bind (keeps_literalText _ _) fun _ => kept_define _ _
  | regex pattern group =>
    refine keeps_bind (kept.keeps_require _ _ _ _) fun _ => keeps_bind (kept.keeps_require _ _ _ _) fun _ => ?_
    refine keeps_bind (keeps_patternOf _) fun r => keeps_bind (keeps_groupOf r _) fun index => ?_
    exact keeps_bind (kept.keeps_literalOf _) fun _ => kept_define _ _
  | testChar predicate description =>
    refine keeps_bind (keeps_checkCallable _ _) fun _ => ?_
    have last : ∀ d : String, kept.Keeps (Grammar.define
        (.testChar predicate ("a character matching " ++ d)) ("test_char(" ++ d ++ ")")) := fun d =>
      kept_define _ _
    dsimp only
    split
    · exact keeps_bind (kept.keeps_pure _) last
    · exact keeps_bind (kept.keeps_literalOf _) last
    · exact keeps_bind (kept.keeps_textOf _) last
  | sequence parsers => exact kept_sequence parsers
  | alternative parsers =>
    unfold Construction.build Grammar.alternative
    dsimp only
    split
    · exact kept.keeps_raise _
    · exact keeps_bind (keeps_mapM (fun v => kept.keeps_parserOf _ v) parsers) fun _ => kept_define _ _
  | repetition parser least most =>
    refine keeps_bind (kept.keeps_parserOf _ _) fun id => keeps_bind (keeps_countOf _) fun lo => ?_
    refine keeps_bind (keeps_countOf _) fun hi => keeps_bind (kept.keeps_textOf _) fun _ => ?_
    exact keeps_bind (kept.keeps_textOf _) fun _ => kept_define _ _
  | transform parser function =>
    exact keeps_bind (kept.keeps_parserOf _ _) fun id =>
      keeps_bind (keeps_checkCallable _ _) fun _ => kept_define _ _
  | exclude allowed forbidden =>
    refine keeps_bind (kept.keeps_parserOf _ _) fun a => keeps_bind (kept.keeps_parserOf _ _) fun f => ?_
    exact keeps_bind (keeps_displayName a) fun _ => keeps_bind (keeps_displayName f) fun _ => kept_define _ _
  | describe parser description =>
    exact keeps_bind (kept.keeps_parserOf _ _) fun id =>
      keeps_bind (keeps_literalText _ _) fun _ => kept_define _ _
  | mark parser => exact kept_framed _ _ _
  | markLineColumn parser => exact kept_framed _ _ _
  | chain parser decide =>
    refine keeps_bind (kept.keeps_parserOf _ _) fun id => keeps_bind (keeps_checkCallable _ _) fun _ => ?_
    exact keeps_bind (keeps_displayName id) fun _ => kept_define _ _
  | subEnvironment parser derive =>
    refine keeps_bind (kept.keeps_parserOf _ _) fun id => keeps_bind (keeps_checkCallable _ _) fun _ => ?_
    exact keeps_bind (keeps_displayName id) fun _ => kept_define _ _
  | deferredLookup resolve =>
    refine keeps_bind (keeps_checkCallable _ _) fun _ => ?_
    have last : ∀ name : String, kept.Keeps (Grammar.define
        (.deferredLookup resolve name) ("deferred_lookup(" ++ name ++ ")")) := fun name => kept_define _ _
    dsimp only
    split
    · exact keeps_bind (kept.keeps_pure _) last
    · exact keeps_bind (kept.keeps_literalOf _) last
  | clone parser =>
    refine keeps_bind (kept.keeps_parserOf _ _) fun id => keeps_bind (kept.keeps_attributeOf _ _) fun b => ?_
    exact keeps_bind (kept.keeps_attributeOf _ _) fun name => kept_ofBehaviour _ _

theorem kept_debug (parser handler : Value) : kept.Keeps (Grammar.debug parser handler) := by
  refine keeps_bind (kept.keeps_parserOf _ _) fun id => ?_
  have last : ∀ handler : Value, kept.Keeps (do
      Grammar.define (.debug id handler) ("debug(" ++ (← Grammar.displayName id) ++ ")")) := fun handler =>
    keeps_bind (keeps_displayName id) fun _ => kept_define _ _
  dsimp only
  split
  · exact keeps_bind (kept_addEcho _) last
  · exact keeps_bind (kept.keeps_pure _) last

end Constructors

variable {host : Host} {σ τ : Store} {t : ParserId} {state : ParserState}

/-- A call that is not to replace a parser leaves it as it is, whether it returns or not. -/
theorem GrammarCall.after_keeps {c : GrammarCall} (there : σ.parser? t = some state)
    (elsewhere : c.target? ≠ some (.parser t)) : (c.after σ).parser? t = some state := by
  have keeps : ∀ {x : Eval Value}, Course.kept.Keeps x →
      Ends x σ (fun _ τ => τ.parser? t = some state) fun _ τ => τ.parser? t = some state := fun h =>
    (h σ).mono (fun _ _ led => led.2 t state there) fun _ _ led => (led trivial).2 t state there
  have ends : Ends c.perform σ (fun _ τ => τ.parser? t = some state) fun _ τ =>
      τ.parser? t = some state := by
    cases c with
    | construct c => exact keeps c.kept_build
    | custom behaviour =>
      exact keeps (Course.keeps_bind (keeps_checkCallable _ _) fun _ => kept_addParser _ _)
    | ofBehaviour behaviour name => exact keeps (kept_ofBehaviour _ _)
    | debug parser handler => exact keeps (kept_debug _ _)
    | makeHandler => exact keeps (kept_addEcho _)
    | replace target source =>
      refine Ends.bind (P := fun _ τ => τ.parser? t = some state) ?_ fun _ _ still => still
      refine (ends_replace target source).mono ?_ fun _ τ same => same ▸ there
      rintro _ τ ⟨t', s, state', rfl, rfl, _, _, rfl⟩
      have different : t ≠ t' := fun same => elsewhere (same ▸ rfl)
      rw [parser?_setParser_ne state' different]
      exact there
  unfold GrammarCall.after
  cases ended : c.perform σ with
  | ok v τ => exact ends.ok ended
  | error e τ => exact ends.error ended

/-- However many calls there are: a parser is what it is until it is replaced. -/
theorem afterCalls_keeps {calls : List GrammarCall} (there : σ.parser? t = some state)
    (elsewhere : ∀ c ∈ calls, c.target? ≠ some (.parser t)) :
    (afterCalls calls σ).parser? t = some state := by
  induction calls generalizing σ with
  | nil => exact there
  | cons c calls ih =>
    have next := GrammarCall.after_keeps there (elsewhere c (List.mem_cons_self ..))
    exact ih next fun c' member => elsewhere c' (List.mem_cons_of_mem _ member)

/-- What is a parser is one of those that there are. -/
theorem exists_of_isParser {v : Value} (h : σ.isParser v) : ∃ p, v = .parser p ∧ p < σ.parsers.size := by
  cases v with
  | parser p => exact ⟨p, rfl, by simpa [Store.isParser] using h⟩
  | _ => simp [Store.isParser] at h

/-- What is no parser is refused before anything is changed. -/
theorem parserOf_refused {function : String} {v : Value} (none : σ.isParser v = false) :
    Grammar.parserOf function v σ = .error (notParser function σ v) σ := by
  have isNone : isParser v σ = .ok false σ := by rw [← none]; rfl
  unfold Grammar.parserOf
  rw [bind_ok isNone]
  rfl

/-- Replacing something that is no parser, or by something that is none, is refused. -/
theorem replace_refused {target source : Value} (h : ¬ (σ.isParser target ∧ σ.isParser source)) :
    ∃ v, (v = target ∨ v = source) ∧ σ.isParser v = false ∧
      Grammar.replace target source σ = .error (notParser "replace" σ v) σ := by
  cases first : σ.isParser target with
  | false => exact ⟨target, .inl rfl, first, bind_error (parserOf_refused first)⟩
  | true =>
    have second : σ.isParser source = false := by simpa [first] using h
    obtain ⟨t, rfl, inside⟩ := exists_of_isParser first
    refine ⟨source, .inr rfl, second, ?_⟩
    unfold Grammar.replace
    rw [bind_ok (parserOf_eq inside)]
    exact bind_error (parserOf_refused second)

/-- A replacement is refused, and changes nothing, exactly if one of its arguments is no parser.  Otherwise
it gives the target the present state of the source and changes nothing else.  Parsers from which no
references lead to the target come to the same as before, and the target keeps the state through all calls
that do not replace it again. -/
theorem replace_local (host : Host) (σ : Store) (target source : Value) :
    (¬ (σ.isParser target ∧ σ.isParser source) →
      ∃ v, (v = target ∨ v = source) ∧ σ.isParser v = false ∧
        Grammar.replace target source σ = .error (notParser "replace" σ v) σ) ∧
      (σ.isParser target ∧ σ.isParser source →
        ∃ t s state τ, target = .parser t ∧ source = .parser s ∧ σ.parser? s = some state ∧
          Grammar.replace target source σ = .ok () τ ∧ ChangedOnly t state σ τ ∧
          SameElsewhere host t σ τ ∧
          ∀ calls : List GrammarCall, (∀ c ∈ calls, c.target? ≠ some (.parser t)) →
            (afterCalls calls τ).parser? t = some state) := by
  refine ⟨replace_refused, ?_⟩
  rintro ⟨one, other⟩
  obtain ⟨t, rfl, inside⟩ := exists_of_isParser one
  obtain ⟨s, rfl, inside'⟩ := exists_of_isParser other
  have there : σ.parser? s = some σ.parsers[s] := Array.getElem?_eq_getElem inside'
  have changed : ChangedOnly t σ.parsers[s] σ (σ.setParser t σ.parsers[s]) := changedOnly_setParser inside
  exact ⟨t, s, σ.parsers[s], _, rfl, rfl, there, replace_eq inside there, changed,
    sameElsewhere_setParser host σ t _, fun calls elsewhere => afterCalls_keeps changed.now elsewhere⟩

private def useless : Host := ⟨fun _ _ _ => raise .wrongType, Value.share⟩

/-- Parsers 7 and 8 refer to each other and to parser 6, and parser 9 reports them to a handler that prints.
Parser 10 is built on parser 5, to which the others do not lead. -/
private def circles : Store :=
  { Store.initial with
    parsers := Store.initial.parsers ++ #[⟨.object 5 (.behaviour (.string "a")), .str "string('a')"⟩,
      ⟨.object 6 (.behaviour (.string "b")), .str "string('b')"⟩,
      ⟨.object 7 (.behaviour (.alternative [8, 6])), .str "alternative(*2)"⟩,
      ⟨.object 8 (.behaviour (.sequence [6, 7])), .str "sequence(*2)"⟩,
      ⟨.object 9 (.behaviour (.debug 7 (.echo 0))), .str "debug(alternative(*2))"⟩,
      ⟨.object 10 (.behaviour (.repetition 5 (.times 1) .unlimited)), .str "repetition(1, inf)"⟩]
    echoes := #[⟨.int 10, .bool false, .none, .none, .none, .int 0⟩]
    nextObject := 11 }

private theorem circles_leads {q : ParserId} (h : circles.Leads 9 q) : q = 6 ∨ q = 7 ∨ q = 8 ∨ q = 9 := by
  have closed : ∀ p b r, (p = 6 ∨ p = 7 ∨ p = 8 ∨ p = 9) → circles.behaviour? p = some b →
      r ∈ b.children → r = 6 ∨ r = 7 ∨ r = 8 ∨ r = 9 := by
    rintro p b r (rfl | rfl | rfl | rfl) does child <;> cases does <;>
      simp only [Behaviour.children, List.mem_cons, List.not_mem_nil, or_false] at child
    · rcases child with rfl | rfl <;> simp
    · rcases child with rfl | rfl <;> simp
    · simp [child]
  exact Store.Leads.inside h (.inr (.inr (.inr rfl))) closed

private theorem circles_isInert : circles.IsInert 9 := by
  have printing : (Value.echo 0).Prints circles :=
    ⟨0, _, rfl, rfl, rfl, rfl, parserless_int 10, parserless_bool false, parserless_none, trivial⟩
  refine ⟨fun q s led there => ?_, fun handler member => by cases member⟩
  rcases circles_leads led with rfl | rfl | rfl | rfl
  · cases there
    exact ⟨parserless_str _, fun _ => ⟨_, rfl, trivial⟩⟩
  · cases there
    exact ⟨parserless_str _, fun _ => ⟨_, rfl, trivial⟩⟩
  · cases there
    exact ⟨parserless_str _, fun _ => ⟨_, rfl, trivial⟩⟩
  · cases there
    exact ⟨parserless_str _, fun _ => ⟨_, rfl, printing⟩⟩

/-- The `a` becomes a `b` for good, also where the `b` becomes something else, and where a call is refused. -/
theorem replace_local_circles : ∃ τ, Grammar.replace (.parser 5) (.parser 6) circles = .ok () τ ∧
    ChangedOnly 5 ⟨.object 6 (.behaviour (.string "b")), .str "string('b')"⟩ circles τ ∧
    (∀ rounds depth, outcome ((machine useless rounds depth).run 9 (.str "bba") (.int 0) .none τ) =
      outcome ((machine useless rounds depth).run 9 (.str "bba") (.int 0) .none circles)) ∧
    (afterCalls [.replace (.parser 6) (.parser 9), .construct (.clone (.parser 5)), .custom (.int 1)]
      τ).parser? 5 = some ⟨.object 6 (.behaviour (.string "b")), .str "string('b')"⟩ := by
  obtain ⟨t, s, state, τ, target, source, there, done, changed, same, lasts⟩ :=
    (replace_local useless circles (.parser 5) (.parser 6)).2 ⟨rfl, rfl⟩
  cases target
  cases source
  cases there
  have separate : ¬ circles.Leads 9 5 := by
    intro led
    simpa using circles_leads led
  refine ⟨τ, done, changed, fun rounds depth => ?_, lasts _ ?_⟩
  · exact (same 9 separate circles_isInert (.str "bba") (.int 0) .none (parserless_str _)
      (parserless_int 0) rounds depth).1
  · simp [GrammarCall.target?]

end Rebind
