import Rebind.Proofs.Steps
/-!
# Parsing expression grammars

What it means that a parser matches a part of a text, said without running anything: by a relation
between a parser, a place in the text and a verdict.  Choices are ordered, repetition is greedy and
counted, and exclusion looks ahead.  Failures carry nothing here; how the runs merge what was expected
plays no part in whether they match.  A pattern of bytes neither matches a text nor fails on one.
-/
namespace Rebind.Peg

/-- What a grammar says about a part of a text. -/
inductive Verdict where
  | matched (stop : Nat) (value : Value)
  | failed

/-- What can match a part of a text: a parser, a behaviour, and the stretches of work of which the
behaviours of composite parsers consist. -/
inductive Goal where
  | parser (p : ParserId)
  | does (b : Behaviour Value)
  /-- All of these, one after the other. -/
  | each (parts : List ParserId)
  /-- The first of these that matches. -/
  | first (choices : List ParserId)
  /-- So many rounds, and all of them must match. -/
  | exactly (item : ParserId) (rounds : Option Nat)
  /-- As many rounds as match, and at most so many. -/
  | upTo (item : ParserId) (rounds : Option Nat)

/-- The derivations of a grammar.  The store says what each parser does, and `accepts` which characters
a predicate holds for. -/
inductive Derives (σ : Store) (accepts : Value → Char → Bool) (text : List Char) :
    Goal → Nat → Verdict → Prop
  | parser {p b i v} (now : σ.behaviour? p = some b) (h : Derives σ accepts text (.does b) i v) :
    Derives σ accepts text (.parser p) i v
  | anyChar {i c} (there : text[i]? = some c) :
    Derives σ accepts text (.does .anyChar) i (.matched (i + 1) (.ofChar c))
  | anyChar_past {i} (past : text[i]? = none) : Derives σ accepts text (.does .anyChar) i .failed
  | rest {i} : Derives σ accepts text (.does .rest) i
    (.matched text.length (.ofChars (text.drop i)))
  | eof {i} (past : text.length ≤ i) : Derives σ accepts text (.does .eof) i (.matched i .none)
  | eof_before {i} (before : i < text.length) : Derives σ accepts text (.does .eof) i .failed
  | succeed {i v} : Derives σ accepts text (.does (.succeed v)) i (.matched i v)
  | fail {i d} : Derives σ accepts text (.does (.fail d)) i .failed
  | string {i s} (there : s.toList <+: text.drop i) : Derives σ accepts text (.does (.string s)) i
    (.matched (i + s.toList.length) (.str s))
  | string_other {i s} (other : ¬ s.toList <+: text.drop i) :
    Derives σ accepts text (.does (.string s)) i .failed
  | regex {i r group found} (isText : r.isBytes = false)
    (there : Regex.matchStart? r (text.drop i) = some found) :
    Derives σ accepts text (.does (.regex r group)) i
      (.matched (i + found.length) (found.groupValue group))
  | regex_other {i r group} (isText : r.isBytes = false)
    (other : Regex.matchStart? r (text.drop i) = none) :
    Derives σ accepts text (.does (.regex r group)) i .failed
  | testChar {i f d c} (there : text[i]? = some c) (holds : accepts f c = true) :
    Derives σ accepts text (.does (.testChar f d)) i (.matched (i + 1) (.ofChar c))
  | testChar_other {i f d} (other : ∀ c, text[i]? = some c → accepts f c = false) :
    Derives σ accepts text (.does (.testChar f d)) i .failed
  | sequence {i parts v} (h : Derives σ accepts text (.each parts) i v) :
    Derives σ accepts text (.does (.sequence parts)) i v
  | each_nil {i} : Derives σ accepts text (.each []) i (.matched i (.list []))
  | each_cons {i j k p ps v vs} (head : Derives σ accepts text (.parser p) i (.matched j v))
    (tail : Derives σ accepts text (.each ps) j (.matched k (.list vs))) :
    Derives σ accepts text (.each (p :: ps)) i (.matched k (.list (v :: vs)))
  | each_head_failed {i p ps} (head : Derives σ accepts text (.parser p) i .failed) :
    Derives σ accepts text (.each (p :: ps)) i .failed
  | each_tail_failed {i j p ps v} (head : Derives σ accepts text (.parser p) i (.matched j v))
    (tail : Derives σ accepts text (.each ps) j .failed) :
    Derives σ accepts text (.each (p :: ps)) i .failed
  | alternative {i choices v} (h : Derives σ accepts text (.first choices) i v) :
    Derives σ accepts text (.does (.alternative choices)) i v
  | first_nil {i} : Derives σ accepts text (.first []) i .failed
  | first_head {i j p ps v} (head : Derives σ accepts text (.parser p) i (.matched j v)) :
    Derives σ accepts text (.first (p :: ps)) i (.matched j v)
  | first_tail {i p ps v} (head : Derives σ accepts text (.parser p) i .failed)
    (tail : Derives σ accepts text (.first ps) i v) :
    Derives σ accepts text (.first (p :: ps)) i v
  | repetition {i j k item least most us vs n} (bounded : least.rounds = some n)
    (required : Derives σ accepts text (.exactly item (some n)) i (.matched j (.list us)))
    (optional : Derives σ accepts text (.upTo item (most.rounds.map (· - n))) j
      (.matched k (.list vs))) :
    Derives σ accepts text (.does (.repetition item least most)) i (.matched k (.list (us ++ vs)))
  | repetition_failed {i item least most}
    (required : Derives σ accepts text (.exactly item least.rounds) i .failed) :
    Derives σ accepts text (.does (.repetition item least most)) i .failed
  | exactly_zero {i item} :
    Derives σ accepts text (.exactly item (some 0)) i (.matched i (.list []))
  | exactly_succ {i j k item n v vs} (round : Derives σ accepts text (.parser item) i (.matched j v))
    (more : Derives σ accepts text (.exactly item (some n)) j (.matched k (.list vs))) :
    Derives σ accepts text (.exactly item (some (n + 1))) i (.matched k (.list (v :: vs)))
  | exactly_failed {i item n} (asked : n ≠ some 0)
    (round : Derives σ accepts text (.parser item) i .failed) :
    Derives σ accepts text (.exactly item n) i .failed
  | exactly_later_failed {i j item n v} (asked : n ≠ some 0)
    (round : Derives σ accepts text (.parser item) i (.matched j v))
    (more : Derives σ accepts text (.exactly item (n.map (· - 1))) j .failed) :
    Derives σ accepts text (.exactly item n) i .failed
  | upTo_zero {i item} : Derives σ accepts text (.upTo item (some 0)) i (.matched i (.list []))
  | upTo_stop {i item n} (allowed : n ≠ some 0)
    (round : Derives σ accepts text (.parser item) i .failed) :
    Derives σ accepts text (.upTo item n) i (.matched i (.list []))
  | upTo_succ {i j k item n v vs} (allowed : n ≠ some 0)
    (round : Derives σ accepts text (.parser item) i (.matched j v))
    (more : Derives σ accepts text (.upTo item (n.map (· - 1))) j (.matched k (.list vs))) :
    Derives σ accepts text (.upTo item n) i (.matched k (.list (v :: vs)))
  | exclude_forbidden {i j a f v} (h : Derives σ accepts text (.parser f) i (.matched j v)) :
    Derives σ accepts text (.does (.exclude a f)) i .failed
  | exclude {i a f v} (absent : Derives σ accepts text (.parser f) i .failed)
    (h : Derives σ accepts text (.parser a) i v) :
    Derives σ accepts text (.does (.exclude a f)) i v
  | describe {i p d v} (h : Derives σ accepts text (.parser p) i v) :
    Derives σ accepts text (.does (.describe p d)) i v

variable {σ : Store} {accepts : Value → Char → Bool} {text : List Char}

/-- What matches from within the text ends within it, and not before its start. -/
theorem Derives.within {goal : Goal} {i : Nat} {verdict : Verdict}
    (h : Derives σ accepts text goal i verdict) (start : i ≤ text.length) {j : Nat} {v : Value}
    (matched : verdict = .matched j v) : i ≤ j ∧ j ≤ text.length := by
  induction h generalizing j v with
  | parser _ _ ih => exact ih start matched
  | anyChar there =>
    cases matched
    have before := (List.getElem?_eq_some_iff.mp there).1
    omega
  | rest =>
    cases matched
    omega
  | eof _ =>
    cases matched
    omega
  | succeed =>
    cases matched
    omega
  | string there =>
    cases matched
    have fits := there.length_le
    simp only [List.length_drop] at fits
    omega
  | regex _ there =>
    cases matched
    have fits := Regex.matchStart?_length_le there
    simp only [List.length_drop] at fits
    omega
  | testChar there _ =>
    cases matched
    have before := (List.getElem?_eq_some_iff.mp there).1
    omega
  | sequence _ ih => exact ih start matched
  | each_nil =>
    cases matched
    omega
  | each_cons _ _ head tail =>
    cases matched
    have first := head start rfl
    have rest := tail first.2 rfl
    omega
  | alternative _ ih => exact ih start matched
  | first_head _ ih => exact ih start matched
  | first_tail _ _ _ ih => exact ih start matched
  | repetition _ _ _ required optional =>
    cases matched
    have first := required start rfl
    have rest := optional first.2 rfl
    omega
  | exactly_zero =>
    cases matched
    omega
  | exactly_succ _ _ round more =>
    cases matched
    have first := round start rfl
    have rest := more first.2 rfl
    omega
  | upTo_zero =>
    cases matched
    omega
  | upTo_stop _ _ _ =>
    cases matched
    omega
  | upTo_succ _ _ _ round more =>
    cases matched
    have first := round start rfl
    have rest := more first.2 rfl
    omega
  | exclude _ _ _ ih => exact ih start matched
  | describe _ ih => exact ih start matched
  | _ => cases matched

end Rebind.Peg
