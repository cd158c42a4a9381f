import Rebind.Proofs.Constructions
import Rebind.Proofs.Matching
/-!
# Late binding

A parser refers to its parts by identity, and what a part does is looked up when it is run.  So it does not
matter by which of two parsers with the same behaviour a part is named: any references to one of them can be
redirected to the other, also in parsers that refer to themselves and in the behaviour that the two
share.  In particular a parser that was built on another one gives, once that one was replaced, what it would
give had it been built on the replacement.

This is said of grammars that use no functions of the user, report to no trace handlers and do not hold
parsers as values, on texts and indices of any kind.
-/
namespace Rebind

/-- Whether references to one parser lead to the other one where they were redirected, and else to where
they led before. -/
def Leads (a b p q : ParserId) : Prop := q = p ∨ p = a ∧ q = b

/-- Two stores with the parsers of a grammar.  In the second one any references among these parsers to `a`
lead to `b` instead; the data is the same. -/
structure Redirected (grammar : ParserId → Prop) (a b : ParserId) (σ σ' : Store) : Prop where
  data : σ.SameData σ'
  untraced : σ.tracers = []
  untraced' : σ'.tracers = []
  parsers : ∀ p, grammar p → ∃ c c', σ.behaviour? p = some c ∧ σ'.behaviour? p = some c' ∧
    c.Matches (fun q q' => grammar q ∧ Leads a b q q') (Value.Parserless σ) c'

/-- The parsers of a grammar come to the same in two stores, on every text, from every index, in every
environment and on machines of every size. -/
def SameRuns (host : Host) (grammar : ParserId → Prop) (σ σ' : Store) : Prop :=
  ∀ p, grammar p → ∀ text i env : Value, text.Parserless σ → i.Parserless σ → ∀ rounds depth,
    outcome ((machine host rounds depth).run p text i env σ') =
      outcome ((machine host rounds depth).run p text i env σ)

variable {host : Host} {grammar : ParserId → Prop} {a b : ParserId} {σ σ' : Store}

/-- Parsers are paired with themselves, and the one with the other that behaves like it. -/
theorem Redirected.sameRuns (h : Redirected grammar a b σ σ') (inside : grammar b)
    (alike : σ.behaviour? a = σ.behaviour? b) : SameRuns host grammar σ σ' := by
  have paired : ∀ p q, grammar p ∧ Leads a b p q → ∃ c c', σ.behaviour? p = some c ∧
      σ'.behaviour? q = some c' ∧
      c.Matches (fun p q => grammar p ∧ Leads a b p q) (Value.Parserless σ) c' := by
    rintro p q ⟨known, rfl | ⟨rfl, rfl⟩⟩
    · exact h.parsers q known
    · obtain ⟨c, c', now, now', same⟩ := h.parsers q inside
      exact ⟨c, c', alike.trans now, now', same⟩
  intro p known text i env ht hi rounds depth
  have run : Agrees (fun _ => False) σ σ' _ _ _ := run_bisimilar h.data h.untraced h.untraced' paired ht
    env host rounds depth (And.intro known (.inl rfl)) hi
  exact run.outcome_eq (fun _ _ _ _ same => same.1) fun _ _ => id

/-- The parsers of a grammar exist. -/
theorem Redirected.parser? (h : Redirected grammar a b σ σ') {p : ParserId} (known : grammar p) :
    (∃ state, σ.parser? p = some state) ∧ ∃ state, σ'.parser? p = some state := by
  obtain ⟨c, c', now, now', _⟩ := h.parsers p known
  obtain ⟨state, there, _⟩ := Option.bind_eq_some_iff.mp now
  obtain ⟨state', there', _⟩ := Option.bind_eq_some_iff.mp now'
  exact ⟨⟨state, there⟩, ⟨state', there'⟩⟩

/-- Replacing `a` by `b` on both sides keeps the references where they lead. -/
theorem Redirected.setParser (h : Redirected grammar a b σ σ') (known : grammar a) (inside : grammar b)
    {state state' : ParserState} (there : σ.parser? b = some state) (there' : σ'.parser? b = some state') :
    Redirected grammar a b (σ.setParser a state) (σ'.setParser a state') := by
  obtain ⟨⟨_, old⟩, _, old'⟩ := h.parser? known
  have copied := behaviour?_setParser_self (Array.getElem?_eq_some_iff.mp old).1 there
  have copied' := behaviour?_setParser_self (Array.getElem?_eq_some_iff.mp old').1 there'
  refine ⟨⟨h.data.edits, h.data.echoes⟩, h.untraced, h.untraced', fun p member => ?_⟩
  have data : σ.SameData (σ.setParser a state) := ⟨rfl, rfl⟩
  have kind : ∀ v : Value, v.Parserless σ → v.Parserless (σ.setParser a state) := fun _ free =>
    free.congr data
  by_cases same : p = a
  · obtain ⟨c, c', now, now', matched⟩ := h.parsers b inside
    rw [same]
    exact ⟨c, c', copied.trans now, copied'.trans now', matched.mono (fun _ _ led => led) kind⟩
  · obtain ⟨c, c', now, now', matched⟩ := h.parsers p member
    refine ⟨c, c', ?_, ?_, matched.mono (fun _ _ led => led) kind⟩
    · exact (behaviour?_setParser a state p same).trans now
    · exact (behaviour?_setParser a state' p same).trans now'

/-- Redirecting references from one parser to another one that behaves like it changes no result.  Hence,
once `a` was replaced by `b`, what was built on `a` gives what it would give had it been built on `b`. -/
theorem run_redirected (host : Host) (h : Redirected grammar a b σ σ') (inside : grammar b) :
    (σ.behaviour? a = σ.behaviour? b → SameRuns host grammar σ σ') ∧
      (grammar a → ∃ τ τ', Grammar.replace (.parser a) (.parser b) σ = .ok () τ ∧
        Grammar.replace (.parser a) (.parser b) σ' = .ok () τ' ∧ SameRuns host grammar τ τ') := by
  refine ⟨h.sameRuns inside, fun known => ?_⟩
  obtain ⟨⟨_, old⟩, _, old'⟩ := h.parser? known
  obtain ⟨⟨state, there⟩, state', there'⟩ := h.parser? inside
  have exists' : a < σ'.parsers.size := (Array.getElem?_eq_some_iff.mp old').1
  have exist : a < σ.parsers.size := (Array.getElem?_eq_some_iff.mp old).1
  refine ⟨_, _, replace_eq exist there, replace_eq exists' there', ?_⟩
  refine (h.setParser known inside there there').sameRuns inside ?_
  have different := behaviour?_setParser_self exist there
  -- The parser that is replaced may be the source itself.
  by_cases same : b = a
  · rw [same]
  · rw [behaviour?_setParser a state b same]
    exact different

private def idle : Host := ⟨fun _ _ _ => return .none, Value.share⟩

/-- Some `a`s, read by parsers 7 and 8 which refer to each other.  Parsers 5 and 6 both read one `a`, and
the parsers above are built on the given one of them. -/
private def letters (letter : ParserId) : Store :=
  { Store.initial with
    parsers := Store.initial.parsers ++ #[⟨.object 5 (.behaviour (.string "a")), .str "string('a')"⟩,
      ⟨.object 5 (.behaviour (.string "a")), .str "string('a')"⟩,
      ⟨.object 6 (.behaviour (.sequence [letter, 8])), .str "sequence(*2)"⟩,
      ⟨.object 7 (.behaviour (.alternative [7, letter])), .str "alternative(*2)"⟩]
    nextObject := 8 }

/-- Two grammars with a cycle that differ in one reference. -/
theorem run_redirected_letters : SameRuns idle (· < 9) (letters 5) (letters 6) ∧
    ∃ τ τ', Grammar.replace (.parser 5) (.parser 6) (letters 5) = .ok () τ ∧
      Grammar.replace (.parser 5) (.parser 6) (letters 6) = .ok () τ' ∧ SameRuns idle (· < 9) τ τ' := by
  have h : Redirected (· < 9) 5 6 (letters 5) (letters 6) := by
    refine ⟨⟨rfl, rfl⟩, rfl, rfl, fun p known => ?_⟩
    have letter : (5 : Nat) < 9 ∧ Leads 5 6 5 6 := ⟨by decide, .inr ⟨rfl, rfl⟩⟩
    have itself : ∀ q : Nat, q < 9 → q < 9 ∧ Leads 5 6 q q := fun q inside => ⟨inside, .inl rfl⟩
    have cases : ∀ n : Nat, n < 9 → n = 0 ∨ n = 1 ∨ n = 2 ∨ n = 3 ∨ n = 4 ∨ n = 5 ∨ n = 6 ∨ n = 7 ∨
        n = 8 := by omega
    rcases cases p known with rfl | rfl | rfl | rfl | rfl | rfl | rfl | rfl | rfl
    · exact ⟨_, _, rfl, rfl, .primitive trivial⟩
    · exact ⟨_, _, rfl, rfl, .primitive trivial⟩
    · exact ⟨_, _, rfl, rfl, .primitive trivial⟩
    · exact ⟨_, _, rfl, rfl, .primitive trivial⟩
    · exact ⟨_, _, rfl, rfl, .primitive trivial⟩
    · exact ⟨_, _, rfl, rfl, .primitive trivial⟩
    · exact ⟨_, _, rfl, rfl, .primitive trivial⟩
    · exact ⟨_, _, rfl, rfl, .sequence (.cons letter (.cons (itself 8 (by decide)) .nil))⟩
    · exact ⟨_, _, rfl, rfl, .alternative (.cons (itself 7 (by decide)) (.cons letter .nil))⟩
  have both := run_redirected idle h (by decide)
  exact ⟨both.1 rfl, both.2 (by decide)⟩

end Rebind
