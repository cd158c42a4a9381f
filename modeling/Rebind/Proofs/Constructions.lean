import Rebind.Proofs.Steps
/-!
# What constructors build

The stores that a program reaches by calls of constructors, by replacing and by cloning parsers, with
functions of its own where these take one.  A program only names parsers that some call returned to it.
Everything that is in such a store is well made, also after replacements that close a cycle: the parts of
every parser exist, patterns are asked for groups that they have, a choice has choices, and what a mark
frames is a sequence of three, which no replacement reaches because no call returns it.
-/
namespace Rebind

/-- A behaviour over some parsers and functions, as the constructors make them: one that neither is a
function of the program nor reports to a trace handler. -/
def Behaviour.WellMade (σ : Store) (functions : Value → Prop) (parsers : ParserId → Prop) :
    Behaviour Value → Prop
  | .regex r group => group ≤ r.groupCount
  | .testChar f _ | .deferredLookup f _ => functions f
  | .sequence parts => ∀ p ∈ parts, parsers p
  | .alternative choices => choices ≠ [] ∧ ∀ p ∈ choices, parsers p
  | .repetition p _ _ | .describe p _ => parsers p
  | .transform p f | .chain p f | .subEnvironment p f => parsers p ∧ functions f
  | .exclude allowed forbidden => parsers allowed ∧ parsers forbidden
  | .mark framed => parsers framed ∧ ∃ a b c, σ.behaviour? framed = some (.sequence [a, b, c])
  | .debug _ _ => False
  | .anyChar | .rest | .eof | .index | .lineColumnIndex | .succeed _ | .fail _ | .string _ => True

/-- A store all of whose parsers are well made, and those of its parsers that the program names. -/
structure Store.WellMade (σ : Store) (functions : Value → Prop) (named : ParserId → Prop) : Prop where
  untraced : σ.tracers = []
  present : ∀ p, named p → p < σ.parsers.size
  made : ∀ p, p < σ.parsers.size → ∃ b, σ.behaviour? p = some b ∧
    b.WellMade σ functions (· < σ.parsers.size)
  hidden : ∀ p framed, σ.behaviour? p = some (.mark framed) → ¬ named framed

variable {functions : Value → Prop} {named : ParserId → Prop} {σ τ : Store}

/-- What is well made stays so where there are more parsers and those framed by marks are as before. -/
theorem Behaviour.WellMade.mono {b : Behaviour Value} {parsers parsers' : ParserId → Prop}
    (h : b.WellMade σ functions parsers) (more : ∀ p, parsers p → parsers' p)
    (same : ∀ framed, b = .mark framed → parsers framed → τ.behaviour? framed = σ.behaviour? framed) :
    b.WellMade τ functions parsers' := by
  cases b with
  | sequence parts => exact fun p member => more p (h p member)
  | alternative choices => exact ⟨h.1, fun p member => more p (h.2 p member)⟩
  | repetition p _ _ | describe p _ => exact more p h
  | transform p f | chain p f | subEnvironment p f => exact ⟨more p h.1, h.2⟩
  | exclude allowed forbidden => exact ⟨more _ h.1, more _ h.2⟩
  | mark framed =>
    refine ⟨more _ h.1, ?_⟩
    rw [same framed rfl h.1]
    exact h.2
  | _ => exact h

theorem Store.WellMade.anti {named' : ParserId → Prop} (h : σ.WellMade functions named)
    (fewer : ∀ p, named' p → named p) : σ.WellMade functions named' where
  untraced := h.untraced
  present p inside := h.present p (fewer p inside)
  made := h.made
  hidden p framed does inside := h.hidden p framed does (fewer framed inside)

/-- A store stays well made while its parsers and tracers stay. -/
theorem Store.WellMade.congr (h : σ.WellMade functions named) (parsers : τ.parsers = σ.parsers)
    (tracers : τ.tracers = σ.tracers) : τ.WellMade functions named := by
  have same : ∀ p, τ.behaviour? p = σ.behaviour? p := by
    intro p
    simp only [Store.behaviour?, Store.parser?, parsers]
  refine ⟨tracers.trans h.untraced, ?_, ?_, ?_⟩
  · intro p inside
    rw [parsers]
    exact h.present p inside
  · intro p inside
    rw [parsers] at inside
    obtain ⟨b, does, made⟩ := h.made p inside
    refine ⟨b, (same p).trans does, made.mono ?_ fun framed _ _ => same framed⟩
    intro q there
    rw [parsers]
    exact there
  · intro p framed does
    rw [same] at does
    exact h.hidden p framed does

/-! ### New parsers -/

def Store.withParser (σ : Store) (s : ParserState) : Store := { σ with parsers := σ.parsers.push s }

/-- An added parser leaves the other ones as they are. -/
theorem behaviour?_withParser_lt (s : ParserState) {p : ParserId} (inside : p < σ.parsers.size) :
    (σ.withParser s).behaviour? p = σ.behaviour? p := by
  have there : (σ.parsers.push s)[p]? = σ.parsers[p]? := by
    rw [Array.getElem?_push_lt inside, Array.getElem?_eq_getElem inside]
  simp only [Store.behaviour?, Store.parser?, Store.withParser, there]

/-- It has the next identity. -/
theorem behaviour?_withParser_size {s : ParserState} {b : Behaviour Value}
    (does : s.behaviour.content = .behaviour b) :
    (σ.withParser s).behaviour? σ.parsers.size = some b := by
  simp only [Store.behaviour?, Store.parser?, Store.withParser, Array.getElem?_push_size,
    Option.bind_some, does]

/-- A store stays well made if a well made parser is added. -/
theorem Store.WellMade.withParser (h : σ.WellMade functions named) {s : ParserState}
    {b : Behaviour Value} (does : s.behaviour.content = .behaviour b)
    (made : b.WellMade σ functions (· < σ.parsers.size))
    (hidden : ∀ framed, b = .mark framed → ¬ named framed) :
    (σ.withParser s).WellMade functions fun p => named p ∨ p = σ.parsers.size := by
  have size : (σ.withParser s).parsers.size = σ.parsers.size + 1 := Array.size_push s
  have still : ∀ framed, framed < σ.parsers.size →
      (σ.withParser s).behaviour? framed = σ.behaviour? framed := fun framed =>
    behaviour?_withParser_lt s
  have more : ∀ p, p < σ.parsers.size → p < (σ.withParser s).parsers.size := by
    intro p inside
    omega
  refine ⟨h.untraced, ?_, ?_, ?_⟩
  · rintro p (inside | rfl)
    · exact more p (h.present p inside)
    · rw [size]
      exact Nat.lt_succ_self _
  · intro p inside
    by_cases old : p < σ.parsers.size
    · obtain ⟨c, does', made'⟩ := h.made p old
      exact ⟨c, (still p old).trans does', made'.mono more fun framed _ => still framed⟩
    · obtain rfl : p = σ.parsers.size := by omega
      exact ⟨b, behaviour?_withParser_size does, made.mono more fun framed _ => still framed⟩
  · intro p framed does' inside
    by_cases old : p < σ.parsers.size
    · rw [still p old] at does'
      obtain ⟨c, does'', made'⟩ := h.made p old
      obtain rfl := Option.some.inj (does''.symm.trans does')
      rcases inside with inside | rfl
      · exact h.hidden p framed does' inside
      · exact absurd made'.1 (Nat.lt_irrefl _)
    · have last : p = σ.parsers.size := by
        have there : p < (σ.withParser s).parsers.size := by
          obtain ⟨state, known, _⟩ := Option.bind_eq_some_iff.mp does'
          exact (Array.getElem?_eq_some_iff.mp known).1
        rw [size] at there
        exact Nat.eq_of_lt_succ_of_not_lt there old
      rw [last, behaviour?_withParser_size does] at does'
      obtain rfl := Option.some.inj does'
      rcases inside with inside | rfl
      · exact hidden framed rfl inside
      · exact absurd made.1 (Nat.lt_irrefl _)

/-! ### Constructors -/

/-- An evaluation that adds a well made parser with a behaviour of some kind, or refuses to and leaves
the store well made. -/
def Builds (functions : Value → Prop) (named : ParserId → Prop) (kind : Behaviour Value → Prop)
    (x : Eval Value) (σ : Store) : Prop :=
  Ends x σ
    (fun v τ => ∃ id b, v = .parser id ∧ ¬ named id ∧ kind b ∧ τ.behaviour? id = some b ∧
      τ.WellMade functions fun p => named p ∨ p = id)
    fun _ τ => τ.WellMade functions named

section Builds

variable {α : Type} {kind : Behaviour Value → Prop} {f : α → Eval Value}

/-- A parser over parsers that exist may be added. -/
theorem builds_addParser (h : σ.WellMade functions named) {v name : Value} {b : Behaviour Value}
    (does : v.content = .behaviour b) (made : b.WellMade σ functions (· < σ.parsers.size))
    (hidden : ∀ framed, b = .mark framed → ¬ named framed) (fits : kind b) :
    Builds functions named kind (addParser v name) σ := by
  have new : ¬ named σ.parsers.size := fun inside => Nat.lt_irrefl _ (h.present _ inside)
  exact ⟨σ.parsers.size, b, rfl, new, fits, behaviour?_withParser_size (s := ⟨v, name⟩) does,
    h.withParser (s := ⟨v, name⟩) does made hidden⟩

theorem builds_define (h : σ.WellMade functions named) {b : Behaviour Value} {name : String}
    (made : b.WellMade σ functions (· < σ.parsers.size))
    (hidden : ∀ framed, b = .mark framed → ¬ named framed) (fits : kind b) :
    Builds functions named kind (Grammar.define b name) σ := by
  refine Ends.bind (P := fun v τ => v = .object σ.nextObject (.behaviour b) ∧
    τ = { σ with nextObject := σ.nextObject + 1 }) ⟨rfl, rfl⟩ ?_
  rintro v τ ⟨rfl, rfl⟩
  have h' : Store.WellMade { σ with nextObject := σ.nextObject + 1 } functions named := h.congr rfl rfl
  exact builds_addParser h' rfl (made.mono (fun _ inside => inside) fun _ _ _ => rfl) hidden fits

/-- What is read first does not matter. -/
theorem builds_read {x : Eval α} (h : σ.WellMade functions named) (reads : Course.still.Keeps x)
    (hf : ∀ a, Builds functions named kind (f a) σ) : Builds functions named kind (x >>= f) σ := by
  refine Ends.bind ((reads σ).mono (fun _ _ same => same) ?_) ?_
  · rintro e τ same
    obtain rfl := same trivial
    exact h
  · rintro a τ rfl
    exact hf a

theorem builds_raise (h : σ.WellMade functions named) (c : Cause) :
    Builds functions named kind (raise c) σ := h

/-- A parser that is let through exists. -/
theorem builds_parserOf {function : String} {v : Value} {f : ParserId → Eval Value}
    (h : σ.WellMade functions named)
    (hf : ∀ p, p < σ.parsers.size → Builds functions named kind (f p) σ) :
    Builds functions named kind (Grammar.parserOf function v >>= f) σ := by
  refine Ends.bind (P := fun p τ => p < σ.parsers.size ∧ τ = σ) ?_ ?_
  · exact ends_parserOf (fun p _ inside => ⟨inside, rfl⟩) fun _ => h
  · rintro p τ ⟨inside, rfl⟩
    exact hf p inside

/-- Arguments are let through one after the other. -/
theorem ends_parsersOf (h : σ.WellMade functions named) (function : String) (vs : List Value) :
    Ends (vs.mapM (Grammar.parserOf function)) σ
      (fun ps τ => ps.length = vs.length ∧ (∀ p ∈ ps, p < σ.parsers.size) ∧ τ = σ)
      fun _ τ => τ.WellMade functions named := by
  induction vs with
  | nil => exact ⟨rfl, by simp, rfl⟩
  | cons v vs ih =>
    rw [List.mapM_cons]
    refine Ends.bind (P := fun p τ => p < σ.parsers.size ∧ τ = σ) ?_ ?_
    · exact ends_parserOf (fun p _ inside => ⟨inside, rfl⟩) fun _ => h
    rintro p τ ⟨inside, rfl⟩
    refine Ends.bind ih ?_
    rintro ps τ' ⟨length, all, rfl⟩
    refine ⟨by simp [length], ?_, rfl⟩
    intro q member
    rcases List.mem_cons.mp member with rfl | later
    · exact inside
    · exact all q later

theorem builds_parsersOf {function : String} {vs : List Value} {f : List ParserId → Eval Value}
    (h : σ.WellMade functions named)
    (hf : ∀ ps, ps.length = vs.length → (∀ p ∈ ps, p < σ.parsers.size) →
      Builds functions named kind (f ps) σ) :
    Builds functions named kind (vs.mapM (Grammar.parserOf function) >>= f) σ := by
  refine Ends.bind (ends_parsersOf h function vs) ?_
  rintro ps τ ⟨length, all, rfl⟩
  exact hf ps length all

/-- The number of a group is that of one of the groups of the pattern. -/
theorem builds_groupOf {r : Regex} {group : Value} {f : Nat → Eval Value}
    (h : σ.WellMade functions named)
    (hf : ∀ n, n ≤ r.groupCount → Builds functions named kind (f n) σ) :
    Builds functions named kind (Grammar.groupOf r group >>= f) σ := by
  refine Ends.bind (P := fun n τ => n ≤ r.groupCount ∧ τ = σ) ?_ ?_
  · have refused : ∀ ok : Bool, Ends (require "regex" "group" group ok) σ (fun _ τ => ok = true ∧ τ = σ)
        fun _ τ => τ.WellMade functions named := by
      intro ok
      cases ok with
      | true => exact ⟨rfl, rfl⟩
      | false => exact h
    unfold Grammar.groupOf
    split
    · next name =>
      split
      · next index known =>
        obtain ⟨before, after, whole, _⟩ := List.lookup_eq_some_iff.mp known
        exact ⟨r.named (name, index) (by simp [whole]), rfl⟩
      · refine Ends.bind (refused false) ?_
        rintro _ τ ⟨impossible, _⟩
        cases impossible
    · refine Ends.bind (refused _) ?_
      rintro _ τ ⟨fits, rfl⟩
      simp only [Bool.and_eq_true, decide_eq_true_eq] at fits
      refine ⟨?_, rfl⟩
      omega
  · rintro n τ ⟨fits, rfl⟩
    exact hf n fits

end Builds

/-- A call that makes a parser, with its arguments. -/
inductive Construction where
  | succeed (value : Value)
  | fail (description : Value)
  | string (literal : Value)
  | regex (pattern group : Value)
  | testChar (predicate description : Value)
  | sequence (parsers : List Value)
  | alternative (parsers : List Value)
  | repetition (parser least most : Value)
  | transform (parser function : Value)
  | exclude (allowed forbidden : Value)
  | describe (parser description : Value)
  | mark (parser : Value)
  | markLineColumn (parser : Value)
  | chain (parser decide : Value)
  | subEnvironment (parser derive : Value)
  | deferredLookup (resolve : Value)
  | clone (parser : Value)

namespace Construction

def build : Construction → Eval Value
  | succeed value => Grammar.succeed value
  | fail description => Grammar.fail description
  | string literal => Grammar.string literal
  | regex pattern group => Grammar.regex pattern group
  | testChar predicate description => Grammar.testChar predicate description
  | sequence parsers => Grammar.sequence parsers
  | alternative parsers => Grammar.alternative parsers
  | repetition parser least most => Grammar.repetition parser least most
  | transform parser function => Grammar.transform parser function
  | exclude allowed forbidden => Grammar.exclude allowed forbidden
  | describe parser description => Grammar.describe parser description
  | mark parser => Grammar.mark parser
  | markLineColumn parser => Grammar.markLineColumn parser
  | chain parser decide => Grammar.chain parser decide
  | subEnvironment parser derive => Grammar.subEnvironment parser derive
  | deferredLookup resolve => Grammar.deferredLookup resolve
  | clone parser => Grammar.clone parser

def function? : Construction → Option Value
  | testChar f _ | transform _ f | chain _ f | subEnvironment _ f | deferredLookup f => some f
  | _ => none

end Construction

section Reading

variable {K : Course}

theorem keeps_checkCallable (function : String) (v : Value) :
    K.Keeps (Grammar.checkCallable function v) := by
  refine Course.keeps_bind ?_ fun ok => K.keeps_require _ _ _ _
  unfold Grammar.isCallable
  split <;> simp

theorem keeps_literalText (function : String) (v : Value) :
    K.Keeps (Grammar.literalText function v) := by
  unfold Grammar.literalText
  split
  · exact K.keeps_pure _
  · exact Course.keeps_bind (K.keeps_require _ _ _ _) fun _ => K.keeps_raise _

theorem keeps_displayName (p : ParserId) : K.Keeps (Grammar.displayName p) :=
  Course.keeps_bind (K.keeps_attributeOf _ _) fun _ => K.keeps_textOf _

theorem keeps_patternOf (v : Value) : K.Keeps (Grammar.patternOf v) := by
  unfold Grammar.patternOf
  split
  · exact K.keeps_pure _
  · split <;> simp
  · exact K.keeps_raise _

theorem keeps_countOf (v : Value) : K.Keeps (Grammar.countOf v) := by
  unfold Grammar.countOf
  split
  · exact K.keeps_pure _
  · exact Course.keeps_bind (K.keeps_require _ _ _ _) fun _ => K.keeps_raise _

end Reading

/-- A sequence is built over as many parsers as it is given. -/
theorem builds_sequence (h : σ.WellMade functions named) (vs : List Value) :
    Builds functions named (fun b => ∃ ps : List ParserId, ps.length = vs.length ∧ b = .sequence ps)
      (Grammar.sequence vs) σ := by
  refine builds_parsersOf h fun ps length all => ?_
  exact builds_define h all (by simp) ⟨ps, length, rfl⟩

/-- What a mark frames is a sequence of three that no call has returned. -/
theorem builds_framed (h : σ.WellMade functions named) (function : String) (frame : ParserId)
    (parser : Value) : Builds functions named (fun _ => True) (Grammar.framed function frame parser) σ := by
  refine builds_parserOf h fun id _ => ?_
  refine Ends.bind (builds_sequence h _) ?_
  rintro v τ ⟨inner, b, rfl, new, ⟨ps, length, rfl⟩, does, h'⟩
  have made := h'.anti fun p inside => Or.inl inside
  refine Ends.bind (P := fun p υ => p = inner ∧ υ = τ) ?_ ?_
  · refine ends_parserOf (fun p same _ => ?_) fun _ => made
    injection same with same
    exact ⟨same.symm, rfl⟩
  rintro p υ ⟨rfl, rfl⟩
  refine builds_read made (keeps_displayName id) fun name => ?_
  obtain ⟨x, y, z, rfl⟩ : ∃ x y z, ps = [x, y, z] := by
    match ps, length with
    | [x, y, z], _ => exact ⟨x, y, z, rfl⟩
  refine builds_define made ⟨h'.present p (.inr rfl), x, y, z, does⟩ ?_ trivial
  rintro framed same
  injection same with same
  rw [← same]
  exact new

/-- A clone does what its model does. -/
theorem builds_clone (h : σ.WellMade functions named) (parser : Value) :
    Builds functions named (fun _ => True) (Grammar.clone parser) σ := by
  refine builds_parserOf h fun id inside => ?_
  obtain ⟨b, does, made⟩ := h.made id inside
  obtain ⟨state, known, content⟩ := Option.bind_eq_some_iff.mp does
  have behaves : state.behaviour.content = .behaviour b := by
    split at content
    · next c same =>
      obtain rfl := Option.some.inj content
      exact same
    · cases content
  have read : attributeOf (.parser id) "behaviour" σ = .ok state.behaviour σ := by
    have found : attributeOf (.parser id) "behaviour" σ =
        .ok (((σ.parser? id).map (·.behaviour)).getD .none) σ := rfl
    rw [found, known]
    rfl
  refine Ends.bind (P := fun v τ => v = state.behaviour ∧ τ = σ) (Ends.of_eq_ok read ⟨rfl, rfl⟩) ?_
  rintro v τ ⟨rfl, rfl⟩
  have added : ∀ name, Builds functions named (fun _ => True) (addParser state.behaviour name) τ :=
    fun name => builds_addParser h behaves made (fun framed same => h.hidden id framed (same ▸ does)) trivial
  refine builds_read h (Course.still.keeps_attributeOf _ _) fun name => ?_
  refine builds_read h (Course.still.keeps_truthy _) fun named => ?_
  cases named with
  | true => exact added _
  | false => exact added _

/-- Every call that makes a parser makes a well made one, if it is given one of the functions where it
takes a function; if it refuses its arguments, what there was stays well made. -/
theorem Construction.builds (h : σ.WellMade functions named) (c : Construction)
    (lawful : ∀ f, c.function? = some f → functions f) :
    Builds functions named (fun _ => True) c.build σ := by
  cases c with
  | succeed value =>
    refine builds_read h (Course.still.keeps_literalOf _) fun shown => ?_
    exact builds_define h trivial (by simp) trivial
  | fail description =>
    refine builds_read h (keeps_literalText _ _) fun d => ?_
    exact builds_define h trivial (by simp) trivial
  | string literal =>
    refine builds_read h (keeps_literalText _ _) fun s => ?_
    exact builds_define h trivial (by simp) trivial
  | regex pattern group =>
    refine builds_read h (Course.still.keeps_require _ _ _ _) fun _ => ?_
    refine builds_read h (Course.still.keeps_require _ _ _ _) fun _ => ?_
    refine builds_read h (keeps_patternOf _) fun r => ?_
    refine builds_groupOf h fun n known => ?_
    refine builds_read h (Course.still.keeps_literalOf _) fun shown => ?_
    exact builds_define h known (by simp) trivial
  | testChar predicate description =>
    have known : functions predicate := lawful predicate rfl
    refine builds_read h (keeps_checkCallable _ _) fun _ => ?_
    have last : ∀ d : String, Builds functions named (fun _ => True) (Grammar.define
        (.testChar predicate ("a character matching " ++ d)) ("test_char(" ++ d ++ ")")) σ := fun d =>
      builds_define h known (by simp) trivial
    dsimp only
    split
    · exact builds_read h (Course.still.keeps_pure _) last
    · exact builds_read h (Course.still.keeps_literalOf _) last
    · exact builds_read h (Course.still.keeps_textOf _) last
  | sequence parsers => exact (builds_sequence h parsers).imp fun _ _ ⟨id, b, same, new, _, rest⟩ =>
      ⟨id, b, same, new, trivial, rest⟩
  | alternative parsers =>
    unfold Construction.build Grammar.alternative
    dsimp only
    split
    · exact builds_raise h _
    · next some =>
      refine builds_parsersOf h fun ps length all => ?_
      refine builds_define h ⟨?_, all⟩ (by simp) trivial
      rintro rfl
      exact some (by simpa using length.symm)
  | repetition parser least most =>
    refine builds_parserOf h fun p inside => ?_
    refine builds_read h (keeps_countOf _) fun lo => builds_read h (keeps_countOf _) fun hi => ?_
    refine builds_read h (Course.still.keeps_textOf _) fun s => ?_
    refine builds_read h (Course.still.keeps_textOf _) fun t => ?_
    exact builds_define h inside (by simp) trivial
  | transform parser function =>
    have known : functions function := lawful function rfl
    refine builds_parserOf h fun p inside => builds_read h (keeps_checkCallable _ _) fun _ => ?_
    exact builds_define h ⟨inside, known⟩ (by simp) trivial
  | exclude allowed forbidden =>
    refine builds_parserOf h fun p inside => builds_parserOf h fun q inside' => ?_
    refine builds_read h (keeps_displayName _) fun s => builds_read h (keeps_displayName _) fun t => ?_
    exact builds_define h ⟨inside, inside'⟩ (by simp) trivial
  | describe parser description =>
    refine builds_parserOf h fun p inside => builds_read h (keeps_literalText _ _) fun d => ?_
    exact builds_define h inside (by simp) trivial
  | mark parser => exact builds_framed h _ _ _
  | markLineColumn parser => exact builds_framed h _ _ _
  | chain parser decide =>
    have known : functions decide := lawful decide rfl
    refine builds_parserOf h fun p inside => builds_read h (keeps_checkCallable _ _) fun _ => ?_
    refine builds_read h (keeps_displayName _) fun s => ?_
    exact builds_define h ⟨inside, known⟩ (by simp) trivial
  | subEnvironment parser derive =>
    have known : functions derive := lawful derive rfl
    refine builds_parserOf h fun p inside => builds_read h (keeps_checkCallable _ _) fun _ => ?_
    refine builds_read h (keeps_displayName _) fun s => ?_
    exact builds_define h ⟨inside, known⟩ (by simp) trivial
  | deferredLookup resolve =>
    have known : functions resolve := lawful resolve rfl
    refine builds_read h (keeps_checkCallable _ _) fun _ => ?_
    have last : ∀ name : String, Builds functions named (fun _ => True) (Grammar.define
        (.deferredLookup resolve name) ("deferred_lookup(" ++ name ++ ")")) σ := fun name =>
      builds_define h known (by simp) trivial
    dsimp only
    split
    · exact builds_read h (Course.still.keeps_pure _) last
    · exact builds_read h (Course.still.keeps_literalOf _) last
  | clone parser => exact builds_clone h parser

/-- What a replacement does: the target has the state that the source has, unless one of them is no
parser. -/
theorem ends_replace (target source : Value) :
    Ends (Grammar.replace target source) σ
      (fun _ τ => ∃ t s state, target = .parser t ∧ source = .parser s ∧ t < σ.parsers.size ∧
        σ.parser? s = some state ∧ τ = σ.setParser t state)
      fun _ τ => τ = σ := by
  refine Ends.bind (P := fun t τ => target = .parser t ∧ t < σ.parsers.size ∧ τ = σ) ?_ ?_
  · exact ends_parserOf (fun t same inside => ⟨same, inside, rfl⟩) fun _ => rfl
  rintro t τ ⟨rfl, inside, rfl⟩
  refine Ends.bind (P := fun s υ => source = .parser s ∧ s < τ.parsers.size ∧ υ = τ) ?_ ?_
  · exact ends_parserOf (fun s same inside => ⟨same, inside, rfl⟩) fun _ => rfl
  rintro s υ ⟨rfl, there, rfl⟩
  refine ⟨t, s, υ.parsers[s], rfl, rfl, inside, Array.getElem?_eq_getElem there, ?_⟩
  have known : υ.parser? s = some υ.parsers[s] := Array.getElem?_eq_getElem there
  simp only [known]

/-- A replacement leaves the other parsers as they are. -/
theorem behaviour?_setParser (t : ParserId) (state : ParserState) (p : ParserId) (different : p ≠ t) :
    (σ.setParser t state).behaviour? p = σ.behaviour? p := by
  have there : (σ.parsers.setIfInBounds t state)[p]? = σ.parsers[p]? :=
    Array.getElem?_setIfInBounds_ne (Ne.symm different)
  simp only [Store.behaviour?, Store.parser?, Store.setParser, there]

/-- It gives a parser the behaviour of another one. -/
theorem behaviour?_setParser_self {t s : ParserId} {state : ParserState} (inside : t < σ.parsers.size)
    (there : σ.parser? s = some state) : (σ.setParser t state).behaviour? t = σ.behaviour? s := by
  have now : (σ.parsers.setIfInBounds t state)[t]? = some state :=
    Array.getElem?_setIfInBounds_self_of_lt inside
  simp only [Store.behaviour?, Store.parser?, Store.setParser, now] at there ⊢
  rw [there]

/-- A parser of the store can be replaced by another one. -/
theorem replace_eq {t s : ParserId} {state : ParserState} (inside : t < σ.parsers.size)
    (there : σ.parser? s = some state) :
    Grammar.replace (.parser t) (.parser s) σ = .ok () (σ.setParser t state) := by
  have inside' : s < σ.parsers.size := (Array.getElem?_eq_some_iff.mp there).1
  unfold Grammar.replace
  rw [bind_ok (parserOf_eq inside), bind_ok (parserOf_eq inside'), modify_eq]
  simp only [there]

/-- A store stays well made if a parser that the program names is given the state of another one, even
if a parser becomes a part of itself by it. -/
theorem Store.WellMade.setParser (h : σ.WellMade functions named) {t s : ParserId} {state : ParserState}
    (known : named t) (there : σ.parser? s = some state) :
    (σ.setParser t state).WellMade functions named := by
  have size : (σ.setParser t state).parsers.size = σ.parsers.size := Array.size_setIfInBounds
  have inside := h.present t known
  have copied := behaviour?_setParser_self inside there
  -- The target is not framed by any mark, so what marks frame is as it was.
  have framed : ∀ {b : Behaviour Value} {p : ParserId}, σ.behaviour? p = some b →
      b.WellMade σ functions (· < σ.parsers.size) →
      b.WellMade (σ.setParser t state) functions (· < (σ.setParser t state).parsers.size) := by
    intro b p does made
    refine made.mono (fun q before => by rw [size]; exact before) fun q same _ => ?_
    refine behaviour?_setParser t state q ?_
    rintro rfl
    exact h.hidden p q (same ▸ does) known
  have old : s < σ.parsers.size := (Array.getElem?_eq_some_iff.mp there).1
  refine ⟨h.untraced, ?_, ?_, ?_⟩
  · intro p inside
    rw [size]
    exact h.present p inside
  · intro p inside
    rw [size] at inside
    by_cases same : p = t
    · obtain ⟨b, does, made⟩ := h.made s old
      rw [same]
      exact ⟨b, copied.trans does, framed does made⟩
    · obtain ⟨b, does, made⟩ := h.made p inside
      exact ⟨b, (behaviour?_setParser t state p same).trans does, framed does made⟩
  · intro p q does
    by_cases same : p = t
    · rw [same, copied] at does
      exact h.hidden s q does
    · rw [behaviour?_setParser t state p same] at does
      exact h.hidden p q does

/-! ### Programs -/

/-- The stores that a program reaches whose functions are among the given ones, and the parsers that it
names then.  A call may be refused; besides, the program may do whatever does not touch parsers. -/
inductive Built (functions : Value → Prop) : Store → (ParserId → Prop) → Prop
  | initial : Built functions Store.initial (· < sharedPrimitives.length)
  | elsewhere {σ τ : Store} {named : ParserId → Prop} (h : Built functions σ named)
    (parsers : τ.parsers = σ.parsers) (tracers : τ.tracers = σ.tracers) : Built functions τ named
  | made {σ τ : Store} {named : ParserId → Prop} {c : Construction} {id : ParserId}
    (h : Built functions σ named) (lawful : ∀ f, c.function? = some f → functions f)
    (made : c.build σ = .ok (.parser id) τ) : Built functions τ fun p => named p ∨ p = id
  | refused {σ τ : Store} {named : ParserId → Prop} {c : Construction} {error : Value}
    (h : Built functions σ named) (lawful : ∀ f, c.function? = some f → functions f)
    (refused : c.build σ = .error (.raised error) τ) : Built functions τ named
  | replaced {σ τ : Store} {named : ParserId → Prop} {target : ParserId} {source : Value}
    (h : Built functions σ named) (known : named target)
    (replaced : Grammar.replace (.parser target) source σ = .ok () τ) : Built functions τ named

/-- The shared primitives are well made. -/
theorem initial_wellMade : Store.initial.WellMade functions (· < sharedPrimitives.length) := by
  refine ⟨rfl, fun p inside => inside, ?_, ?_⟩
  · intro p inside
    match p, inside with
    | 0, _ | 1, _ | 2, _ | 3, _ | 4, _ => exact ⟨_, rfl, trivial⟩
  · intro p framed does
    match p with
    | 0 | 1 | 2 | 3 | 4 => cases does
    | p + 5 => cases does

/-- Whatever a program builds is well made. -/
theorem Built.wellMade (h : Built functions σ named) : σ.WellMade functions named := by
  induction h with
  | initial => exact initial_wellMade
  | elsewhere _ parsers tracers ih => exact ih.congr parsers tracers
  | @made σ τ named c id _ lawful made ih =>
    obtain ⟨id', b, same, _, _, _, h'⟩ := (c.builds ih lawful).ok made
    injection same with same
    rw [same]
    exact h'
  | @refused σ τ named c error _ lawful refused ih =>
    exact (c.builds ih lawful).error refused
  | @replaced σ τ named target source _ known replaced ih =>
    obtain ⟨t, s, state, same, rfl, _, there, rfl⟩ := (ends_replace _ _).ok replaced
    injection same with same
    rw [← same]
    exact ih.setParser known there

end Rebind
