import Rebind.Proofs.Constructions
/-!
# A parse failure is never an exception

Runs of the parsers that a program has built, on texts and from places within them.  If a run returns, it
returns a result: it ended within the text and not before its start, and a failure says what was expected.
If it does not return, then a function of the program raised an error, or returned something that is no
parser where one was needed, or a limit of the machine was met; or what was given to a constructor was of no
use from the start, a parser in the place of a function or a pattern of bytes.  So the look at a character, the
group of a match, the words for what was expected, the list of failures and the three parts of a mark are
always there.

Functions may do what they like, except that they leave the parsers that there are and the active tracers
alone, and that the parsers which they return are constructed as well.
-/
namespace Rebind

open Attempt

/-- The course in which parsers may be added; those that there are stay as they are, and so do the active
tracers. -/
def Course.kept : Course where
  leads σ τ := τ.tracers = σ.tracers ∧ ∀ p state, σ.parser? p = some state → τ.parser? p = some state
  refl _ := ⟨rfl, fun _ _ there => there⟩
  trans first second :=
    ⟨second.1.trans first.1, fun p state there => second.2 p state (first.2 p state there)⟩

/-- A parser among parsers that are well made over each other. -/
def Constructed (functions : Value → Prop) (σ : Store) (p : ParserId) : Prop :=
  ∃ parsers : ParserId → Prop, parsers p ∧
    ∀ q, parsers q → ∃ b, σ.behaviour? q = some b ∧ b.WellMade σ functions parsers

/-- Functions that leave parsers and tracers alone when they return, and return no parsers but constructed
ones. -/
def Lawful (host : Host) (functions : Value → Prop) (σ₀ : Store) : Prop :=
  ∀ f, functions f → ∀ rounds depth arguments σ v τ, Course.kept.leads σ₀ σ →
    (machine host rounds depth).call f arguments σ = .ok v τ →
    Course.kept.leads σ τ ∧ ∀ p, v = .parser p → p < τ.parsers.size → Constructed functions τ p

/-- A function returned a value and left a store behind, called on a machine of some size. -/
def Returned (host : Host) (functions : Value → Prop) (σ₀ : Store) (f : Value) (arguments : List Value)
    (v : Value) (τ : Store) : Prop :=
  functions f ∧ ∃ rounds depth σ, Course.kept.leads σ₀ σ ∧
    (machine host rounds depth).call f arguments σ = .ok v τ

/-- How a run may end without a result. -/
inductive Escapes (host : Host) (functions : Value → Prop) (σ₀ : Store) : Fault → Store → Prop
  /-- There were more rounds of a repetition than the machine allows. -/
  | endless {τ : Store} : Escapes host functions σ₀ .endless τ
  /-- Runs and calls were nested more deeply than the machine allows. -/
  | tooDeep {τ : Store} (refused : τ.overran = true) :
    Escapes host functions σ₀ (.raised (.error .tooDeep)) τ
  /-- A function of the user ended in this way. -/
  | function {f : Value} {rounds depth : Nat} {arguments : List Value} {σ τ : Store} {e : Fault}
    (known : functions f) (user : f.content.IsClosure) (led : Course.kept.leads σ₀ σ)
    (ended : (machine host rounds depth).call f arguments σ = .error e τ) :
    Escapes host functions σ₀ e τ
  /-- What was given for a function is none of the user's, and its call ended in this way: a parser, which can
  be called, but not with the arguments that a function is given. -/
  | misused {f : Value} {rounds depth : Nat} {arguments : List Value} {σ τ : Store} {e : Fault}
    (known : functions f) (other : ¬ f.content.IsClosure) (led : Course.kept.leads σ₀ σ)
    (ended : (machine host rounds depth).call f arguments σ = .error e τ) :
    Escapes host functions σ₀ e τ
  /-- A pattern of bytes was asked to match the text. -/
  | bytes {p : ParserId} {r : Regex} {group : Nat} {τ : Store}
    (does : τ.behaviour? p = some (.regex r group)) (bytes : r.isBytes = true) :
    Escapes host functions σ₀ (.raised (.error .wrongType)) τ
  /-- A function returned something that is refused because it is no parser. -/
  | notParser {f v : Value} {arguments : List Value} {τ : Store} {name : String}
    (returned : Returned host functions σ₀ f arguments v τ) (none : τ.isParser v = false)
    (refuser : Refuser τ f name) : Escapes host functions σ₀ (notParser name τ v) τ

/-- A result of an attempt at a text from a place on: one that ended within the text and not before its
start, and that says what was expected if it is a failure. -/
def IsResult (s : String) (i : Nat) (r : Value) : Prop :=
  ∃ j : Int, (i : Int) ≤ j ∧ j ≤ s.toList.length ∧ ((∃ v, r = .success (.int j) v) ∨
    ∃ expected : List String, expected ≠ [] ∧
      r = .result (.bool false) (.int j) (.list (expected.map .str)))

theorem isResult_of_within {s : String} {i : Nat} {a : Attempt} (within : a.Within s.toList.length i) :
    IsResult s i a.value := by
  cases a with
  | matched stop v => exact ⟨stop, within.1, within.2, .inl ⟨v, rfl⟩⟩
  | missed place expected => exact ⟨place, within.1, within.2.1, .inr ⟨expected, within.2.2, rfl⟩⟩

variable {host : Host} {functions : Value → Prop} {σ₀ σ τ : Store} {s : String}

/-- Parsers that were there keep what they do. -/
theorem behaviour?_of_kept (led : Course.kept.leads σ τ) {p : ParserId} {b : Behaviour Value}
    (does : σ.behaviour? p = some b) : τ.behaviour? p = some b := by
  obtain ⟨state, known, content⟩ := Option.bind_eq_some_iff.mp does
  exact Option.bind_eq_some_iff.mpr ⟨state, led.2 p state known, content⟩

theorem Constructed.of_kept {p : ParserId} (h : Constructed functions σ p)
    (led : Course.kept.leads σ τ) : Constructed functions τ p := by
  obtain ⟨parsers, inside, closed⟩ := h
  refine ⟨parsers, inside, fun q inside' => ?_⟩
  obtain ⟨b, does, made⟩ := closed q inside'
  refine ⟨b, behaviour?_of_kept led does, made.mono (fun _ there => there) fun framed _ there => ?_⟩
  obtain ⟨c, does', _⟩ := closed framed there
  exact (behaviour?_of_kept led does').trans does'.symm

theorem Store.WellMade.constructed {named : ParserId → Prop} (h : σ.WellMade functions named)
    {p : ParserId} (there : p < σ.parsers.size) : Constructed functions σ p :=
  ⟨(· < σ.parsers.size), there, h.made⟩

/-- A parser that is a sequence gives a list with as many values as it has parts. -/
def Fits (σ : Store) (p : ParserId) (a : Attempt) : Prop :=
  ∀ parts, σ.behaviour? p = some (.sequence parts) → ∀ stop v, a = .matched stop v →
    ∃ vs : List Value, v = .list vs ∧ vs.length = parts.length

/-- A sequence returns as many values as it has parts. -/
theorem EachOf.length {run : ParserId → Nat → Attempt → Prop} {parts : List ParserId} {i : Nat}
    {a : Attempt} (each : EachOf run parts i a) {stop : Int} {v : Value} (same : a = .matched stop v) :
    ∃ vs : List Value, v = .list vs ∧ vs.length = parts.length := by
  induction each generalizing stop v with
  | nil =>
    cases same
    exact ⟨[], rfl, rfl⟩
  | @cons p ps i j k u us head tail ih =>
    cases same
    obtain ⟨vs, known, length⟩ := ih rfl
    injection known with known
    exact ⟨u :: us, rfl, by simp [known, length]⟩
  | head => cases same
  | tail => cases same

/-- What is known of runs while a parser of a store is run: they are attempts within the text, and fit
what the parsers of that store are. -/
def constructing (host : Host) (functions : Value → Prop) (σ₀ σ : Store) (s : String) : Footing where
  course := .kept
  known τ p := Constructed functions τ p
  predicate := functions
  callable := functions
  environment _ := True
  parts :=
    { run := fun p _ i a => (i ≤ s.toList.length → a.Within s.toList.length i) ∧ Fits σ p a
      accepts := fun _ _ _ _ => True
      call := fun _ _ _ => True }
  returned := Returned host functions σ₀
  fault := Escapes host functions σ₀

/-- A call of a function returns, or it escapes. -/
theorem Lawful.call (lawful : Lawful host functions σ₀) (rounds depth : Nat) {f : Value}
    (known : functions f) (arguments : List Value) (led : Course.kept.leads σ₀ τ) :
    Ends ((machine host rounds depth).call f arguments) τ (fun v υ => Course.kept.leads τ υ ∧
      Returned host functions σ₀ f arguments v υ) (Escapes host functions σ₀) := by
  cases ended : (machine host rounds depth).call f arguments τ with
  | ok v υ =>
    have returned := lawful f known rounds depth arguments τ v υ led ended
    exact Ends.of_eq_ok ended ⟨returned.1, known, rounds, depth, τ, led, ended⟩
  | error e υ =>
    simp only [Ends, ended]
    by_cases user : f.content.IsClosure
    · exact .function known user led ended
    · exact .misused known user led ended

/-- A parser that was built runs parsers and functions that are known. -/
theorem constructing_suits {p : ParserId} {b : Behaviour Value} {parsers : ParserId → Prop}
    (does : σ.behaviour? p = some b) (made : b.WellMade σ functions parsers)
    (closed : ∀ q, parsers q → ∃ b, σ.behaviour? q = some b ∧ b.WellMade σ functions parsers) :
    (constructing host functions σ₀ σ s).Suits σ b := by
  have known : ∀ q, parsers q → Constructed functions σ q := fun q inside => ⟨parsers, inside, closed⟩
  cases b with
  | sequence parts => exact fun q member => known q (made q member)
  | alternative choices => exact ⟨made.1, fun q member => known q (made.2 q member)⟩
  | repetition p _ _ | describe p _ => exact known p made
  | transform p f | chain p f | subEnvironment p f => exact ⟨known p made.1, made.2⟩
  | exclude allowed forbidden => exact ⟨known _ made.1, known _ made.2⟩
  | mark framed =>
    refine ⟨known _ made.1, fun env i stop v ran => ?_⟩
    obtain ⟨x, y, z, does⟩ := made.2
    obtain ⟨vs, rfl, length⟩ := ran.2 _ does stop v rfl
    match vs, length with
    | [x, y, z], _ => exact ⟨x, y, z, rfl⟩
  | regex r group => exact ⟨made, fun bytes => .bytes does bytes⟩
  | _ => exact made

/-- One machine up: what is known of the runs of a machine is known of what a store's parser does. -/
theorem constructing_holds (lawful : Lawful host functions σ₀) (shares : host.share = Value.share)
    (rounds depth : Nat) (led : Course.kept.leads σ₀ σ)
    (ih : ∀ {τ p i} env, Course.kept.leads σ₀ τ → Constructed functions τ p → i ≤ s.toList.length →
      Tries ((machine host rounds depth).run p (.str s) (.int i) env) τ
        (fun a υ => Course.kept.leads τ υ ∧ a.Within s.toList.length i ∧ Fits τ p a)
        (Escapes host functions σ₀)) :
    (constructing host functions σ₀ σ s).Holds (machine host rounds depth) s σ where
  run τ p env i led' known _ start := by
    refine (ih env (Course.kept.trans led led') known start).imp ?_
    rintro a υ ⟨led'', within, fits⟩
    exact ⟨led'', fun _ => within, fun parts does => fits parts (behaviour?_of_kept led' does)⟩
  within _ _ _ _ ran := ran.1
  ask τ f env c led' known _ :=
    (lawful.call rounds depth known _ (Course.kept.trans led led')).imp fun _ _ h => ⟨h.1, trivial⟩
  call τ f arguments led' known := lawful.call rounds depth known _ (Course.kept.trans led led')
  returns f arguments v τ returned := by
    obtain ⟨known, rounds, depth, υ, led', ended⟩ := returned
    exact ⟨trivial, (lawful f known rounds depth arguments υ v τ led' ended).2⟩
  refuses f arguments v τ function returned none refuser := by
    exact .notParser returned none refuser
  derives _ _ _ _ _ _ := trivial
  persists _ _ _ led' known := known.of_kept led'
  fresh τ n := ⟨rfl, fun _ _ there => there⟩
  share _ _ := (machine_share host rounds depth).trans shares
  endless _ := .endless

/-- A run of a constructed parser ends within the text, or it escapes. -/
theorem run_within (lawful : Lawful host functions σ₀) (shares : host.share = Value.share)
    (untraced : σ₀.tracers = []) (rounds depth : Nat) {p : ParserId} {i : Nat} (env : Value)
    (led : Course.kept.leads σ₀ σ) (known : Constructed functions σ p) (start : i ≤ s.toList.length) :
    Tries ((machine host rounds depth).run p (.str s) (.int i) env) σ
      (fun a τ => Course.kept.leads σ τ ∧ a.Within s.toList.length i ∧ Fits σ p a)
      (Escapes host functions σ₀) := by
  induction depth generalizing σ p i env with
  | zero => exact Escapes.tooDeep rfl
  | succ depth ih =>
    obtain ⟨parsers, inside, closed⟩ := known
    obtain ⟨b, does, made⟩ := closed p inside
    have holds := constructing_holds lawful shares rounds depth led fun env => ih env
    refine Ends.congr (run_above _ _ env (led.1.trans untraced) does) ?_
    refine (behave_does holds trivial (constructing_suits does made closed) start).imp ?_
    rintro a τ ⟨led', made⟩
    refine ⟨led', made.within (fun _ _ _ _ ran => ran.1) start, ?_⟩
    intro parts does' stop v same
    obtain rfl := Option.some.inj (does.symm.trans does')
    cases made with
    | sequence each => exact each.length same
    | leaf h => cases h

/-- Running a parser of a store that a program has built, on a text and from a place within it, returns a
result whose index is in the text and not before the start and which says what was expected if it is a
failure; or it does not return, for one of the reasons that `Escapes` lists. -/
theorem run_sound (apply : Machine → Value → List Value → Eval Value) {functions : Value → Prop}
    {named : ParserId → Prop} {σ : Store} (built : Built functions σ named)
    (lawful : Lawful ⟨apply, Value.share⟩ functions σ) {p : ParserId} (there : p < σ.parsers.size)
    (s : String) {i : Nat} (start : i ≤ s.toList.length) (env : Value) (rounds depth : Nat) :
    Ends ((machine ⟨apply, Value.share⟩ rounds depth).run p (.str s) (.int i) env) σ
      (fun r _ => IsResult s i r) (Escapes ⟨apply, Value.share⟩ functions σ) := by
  have made := built.wellMade
  refine Ends.mono (run_within lawful rfl made.untraced rounds depth env (Course.kept.refl σ)
    (made.constructed there) start) ?_ fun _ _ h => h
  rintro r τ ⟨a, rfl, _, within, _⟩
  exact isResult_of_within within

private def choose : Value := .closure ["v", "env"] (.plain .null) [] (.named "choose") 0

private def fifth : Machine → Value → List Value → Eval Value := fun _ _ _ => return .parser 5

/-- An `a` after an `a`: parser 5 is the letter, and parser 6 has its function choose what follows it. -/
private def twoLetters : Store :=
  { Store.initial with
    parsers := Store.initial.parsers ++ #[⟨.object 5 (.behaviour (.string "a")), .str "string('a')"⟩,
      ⟨.object 6 (.behaviour (.chain 5 choose)), .str "chain(string('a'))"⟩]
    nextObject := 7 }

/-- Two letters, with a function that returns a parser. -/
theorem run_twoLetters : Ends ((machine ⟨fifth, Value.share⟩ 9 9).run 6 (.str "ab") (.int (0 : Nat)) .none)
    twoLetters (fun r _ => IsResult "ab" 0 r) (Escapes ⟨fifth, Value.share⟩ (· = choose) twoLetters) := by
  have built : Built (· = choose) twoLetters
      fun p => (p < sharedPrimitives.length ∨ p = 5) ∨ p = 6 := by
    refine .made (c := .chain (.parser 5) choose) (.made (c := .string (.str "a")) .initial ?_ rfl) ?_ rfl
    · rintro f none
      cases none
    · rintro f same
      exact (Option.some.inj same).symm
  have lawful : Lawful ⟨fifth, Value.share⟩ (· = choose) twoLetters := by
    rintro f rfl rounds depth arguments σ v τ led ended
    cases depth with
    | zero => cases ended
    | succ depth =>
      have returned : (machine ⟨fifth, Value.share⟩ rounds (depth + 1)).call choose arguments σ =
          .ok (.parser 5) σ := rfl
      obtain ⟨rfl, rfl⟩ := EStateM.Result.ok.inj (returned.symm.trans ended)
      refine ⟨Course.kept.refl σ, fun p same _ => ?_⟩
      injection same with same
      have known : Constructed (· = choose) twoLetters 5 := built.wellMade.constructed (by decide)
      rw [← same]
      exact known.of_kept led
  exact run_sound fifth built lawful (by decide) "ab" (Nat.zero_le _) .none 9 9

private def byteA : Regex := ⟨.bytes [0x61], {}, 0, [], .char 'a', Regex.no_names⟩

/-- Parser 5 matches a pattern of bytes. -/
private def bytesOnly : Store :=
  { Store.initial with
    parsers := Store.initial.parsers ++
      #[⟨.object 5 (.behaviour (.regex byteA 0)), .str "regex(b'a', 0)"⟩]
    nextObject := 6 }

/-- The constructor takes a pattern of bytes, and running the parser on a text raises an error of the library
itself, without a function of the user. -/
theorem run_bytesOnly : Built (fun _ => False) bytesOnly (fun p => p < sharedPrimitives.length ∨ p = 5) ∧
    (machine ⟨fifth, Value.share⟩ 9 9).run 5 (.str "a") (.int (0 : Nat)) .none bytesOnly =
      .error (.raised (.error .wrongType)) bytesOnly := by
  refine ⟨.made (c := .regex (.pattern byteA) (.int 0)) .initial ?_ rfl, rfl⟩
  rintro f none
  cases none

/-- Parser 5 gives the index to a parser in the place of a function, which takes it for a text. -/
private def parserForFunction : Store :=
  { Store.initial with
    parsers := Store.initial.parsers ++ #[⟨.object 5 (.behaviour (.transform 3 (.parser 0))), .str "transform"⟩]
    nextObject := 6 }

example : Ends ((machine ⟨fifth, Value.share⟩ 9 9).run 5 (.str "a") (.int (0 : Nat)) .none) parserForFunction
    (fun _ _ => False) fun e _ => e = .raised (.error .wrongType) := rfl

end Rebind
