import Rebind.Proofs.Steps
/-!
# What becomes of the failure of the last run

A sequence, a repetition with as many rounds at least as at most, and a chain run parsers one after the other
and end with the first failure.  Here the parsers may do whatever they like, and may fail at any whole number,
also below zero.

A failure is merged with the result before it.  A success before it is to count as a failure before every
place, but the places that failures may name have no least one.  So a failure at a place that is not below
zero is what the combinator returns, and so is one that nothing went before.  A failure below zero after a
success is not: it is dropped for the success where that ended further on, and otherwise its expectations are
joined to the value of the success, which is an error unless that is a list.
-/
namespace Rebind

/-! ### Results as programs build them -/

/-- A value is a success that ended at an index. -/
def Value.IsMatch (r : Value) (index : Int) (v : Value) : Prop :=
  r.result? = some ⟨.bool true, .int index, v⟩

/-- A value is a failure at an index that says in words what was expected. -/
def Value.IsMiss (σ : Store) (r : Value) (index : Int) (words : List String) : Prop :=
  ∃ v, r.result? = some ⟨.bool false, .int index, v⟩ ∧ σ.view v = .list (words.map .str)

section Merging

variable {candidate previous v w : Value} {σ : Store} {words : List String} {j k : Int}

/-- A success has the parts of one. -/
theorem Value.IsMatch.resultOf (h : candidate.IsMatch j v) :
    resultOf candidate = pure ⟨.bool true, .int j, v⟩ := by
  unfold Rebind.resultOf
  rw [h]

theorem resultOf_miss (h : candidate.result? = some ⟨.bool false, .int k, v⟩) :
    resultOf candidate = pure ⟨.bool false, .int k, v⟩ := by
  unfold resultOf
  rw [h]

/-- A success is not merged with what was before it. -/
theorem mergeOver_match (h : candidate.IsMatch j v) (previous : Value) :
    mergeOver candidate previous = pure candidate := by
  unfold mergeOver
  split
  · rfl
  · simp only [h.resultOf, truthy_bool, pure_bind, if_true]

/-- How a failure is merged with a success before it. -/
theorem mergeOver_miss_match (missed : candidate.result? = some ⟨.bool false, .int k, v⟩)
    (matched : previous.IsMatch j w) : mergeOver candidate previous =
      if -1 < k then pure candidate
      else if k < j then pure previous
      else do return .result (.bool false) (.int k) (← addTo v w) := by
  have some : previous ≠ .none := by
    rintro rfl
    cases matched
  have furthest : furthest ⟨.bool true, .int j, w⟩ = pure (.int (-1)) := rfl
  unfold mergeOver
  split
  · exact absurd rfl some
  · simp only [resultOf_miss missed, matched.resultOf, furthest, truthy_bool, lessThan_int, pure_bind,
      Bool.false_eq_true, if_false, decide_eq_true_eq]

/-- Only a list can be joined to a list. -/
theorem addTo_list_other {items : List Value} (h : σ.view v = .list items)
    (other : ∀ items, σ.view w ≠ .list items) :
    addTo v w σ = .error (.raised (.error .wrongType)) σ := by
  have first : view v σ = .ok (.list items) σ := by rw [view, h]
  have second : view w σ = .ok (σ.view w) σ := rfl
  unfold addTo
  rw [bind_ok first, bind_ok second]
  cases same : σ.view w with
  | list items => exact absurd same (other items)
  | _ => rfl

/-- A failure after nothing, or at a place that is not below zero after a success, is as it was. -/
theorem mergeOver_miss (missed : candidate.result? = some ⟨.bool false, .int k, v⟩)
    (before : previous = .none ∨ 0 ≤ k ∧ ∃ j w, previous.IsMatch j w) :
    mergeOver candidate previous = pure candidate := by
  obtain rfl | ⟨inside, j, w, matched⟩ := before
  · rfl
  · rw [mergeOver_miss_match missed matched, if_pos (by omega)]

end Merging

/-! ### Which parsers are run -/

section Comes

variable (m : Machine) (text env start : Value) (σ₀ : Store)

/-- Parsers of a sequence have been run, and the sequence goes on after a result, from an index and in a
store.  It goes on after successes, and after failures that it overlooks. -/
inductive Passes : List ParserId → Value → Value → Store → Prop
  | nil : Passes [] .none start σ₀
  | matched {ps : List ParserId} {p : ParserId} {previous i r v : Value} {j : Int} {σ τ : Store}
    (before : Passes ps previous i σ) (run : m.run p text i env σ = .ok r τ) (h : r.IsMatch j v) :
    Passes (ps ++ [p]) r (.int j) τ
  | overlooked {ps : List ParserId} {p : ParserId} {previous i r v : Value} {j k : Int}
    {words : List String} {σ τ : Store} (before : Passes ps previous i σ) (h : previous.IsMatch j v)
    (run : m.run p text i env σ = .ok r τ) (missed : r.IsMiss τ k words) (below : k < 0) (behind : k < j) :
    Passes (ps ++ [p]) previous (.int j) τ

/-- So many rounds of a parser have matched, the last one with a result. -/
inductive RoundsMatch (item : ParserId) : Nat → Value → Value → Store → Prop
  | zero : RoundsMatch item 0 .none start σ₀
  | succ {n : Nat} {previous i r v : Value} {j : Int} {σ τ : Store}
    (before : RoundsMatch item n previous i σ) (run : m.run item text i env σ = .ok r τ)
    (h : r.IsMatch j v) : RoundsMatch item (n + 1) r (.int j) τ

/-- A combinator comes to run a parser after a result, if there has been one, from an index and in a store;
some parsers are to be run after it. -/
inductive ComesTo : Behaviour Value → ParserId → List ParserId → Value → Value → Store → Prop
  | sequence {before after : List ParserId} {p : ParserId} {previous i : Value} {σ : Store}
    (passes : Passes m text env start σ₀ before previous i σ) :
    ComesTo (.sequence (before ++ p :: after)) p after previous i σ
  | repetition {item : ParserId} {count : Count} {n : Nat} {previous i : Value} {σ : Store}
    (rounds : RoundsMatch m text env start σ₀ item n previous i σ)
    (more : n < count.rounds.getD m.rounds) :
    ComesTo (.repetition item count count) item [] previous i σ
  | first {p : ParserId} {decide : Value} : ComesTo (.chain p decide) p [] .none start σ₀
  | next {p q : ParserId} {decide r shared v w : Value} {j : Int} {σ τ υ : Store}
    (run : m.run p text start env σ₀ = .ok r σ) (h : r.IsMatch j v) (share : m.share r σ = .ok shared τ)
    (same : shared.IsMatch j w) (called : m.call decide [w, env] τ = .ok (.parser q) υ)
    (there : q < υ.parsers.size) : ComesTo (.chain p decide) q [] shared (.int j) υ

end Comes

section Failures

variable {m : Machine} {text env start : Value} {σ₀ σ τ : Store} {b : Behaviour Value} {p : ParserId}
  {after : List ParserId} {previous i r w : Value} {j k : Int} {words : List String}

/-- Parts that have matched leave the rest of the sequence to do. -/
theorem Passes.sequenceFrom {ps : List ParserId} (h : Passes m text env start σ₀ ps previous i σ) :
    ∃ values, ∀ rest, Behave.sequenceFrom m text env (ps ++ rest) .none [] start σ₀ =
      Behave.sequenceFrom m text env rest previous values i σ := by
  induction h with
  | nil => exact ⟨[], fun _ => rfl⟩
  | @matched ps p previous i r v j σ τ _ run h ih =>
    obtain ⟨values, same⟩ := ih
    refine ⟨values ++ [v], fun rest => ?_⟩
    rw [List.append_assoc, same]
    simp only [List.singleton_append, Behave.sequenceFrom]
    rw [bind_ok run]
    simp only [mergeOver_match h, h.resultOf, truthy_bool, pure_bind, if_true]
  | @overlooked ps p previous i r v j k words σ τ _ h run missed below behind ih =>
    obtain ⟨values, same⟩ := ih
    refine ⟨values ++ [v], fun rest => ?_⟩
    obtain ⟨_, missed, _⟩ := missed
    have merged : mergeOver r previous = pure previous := by
      rw [mergeOver_miss_match missed h, if_neg (by omega), if_pos behind]
    rw [List.append_assoc, same]
    simp only [List.singleton_append, Behave.sequenceFrom]
    rw [bind_ok run]
    simp only [merged, h.resultOf, truthy_bool, pure_bind, if_true]

/-- Rounds that have matched leave the rest of the rounds to do. -/
theorem RoundsMatch.requiredRounds {n : Nat} (h : RoundsMatch m text env start σ₀ p n previous i σ) :
    ∃ values, ∀ fuel, Behave.requiredRounds m p text env (n + fuel) .none [] start σ₀ =
      Behave.requiredRounds m p text env fuel previous values i σ := by
  induction h with
  | zero => exact ⟨[], fun fuel => by rw [Nat.zero_add]⟩
  | @succ n previous i r v j σ τ _ run h ih =>
    obtain ⟨values, same⟩ := ih
    refine ⟨values ++ [v], fun fuel => ?_⟩
    have one : n + 1 + fuel = n + (fuel + 1) := by omega
    rw [one, same]
    simp only [Behave.requiredRounds]
    rw [bind_ok run]
    simp only [mergeOver_match h, h.resultOf, truthy_bool, pure_bind, if_true]

/-- What went before a run is nothing or a success. -/
theorem ComesTo.before (h : ComesTo m text env start σ₀ b p after previous i σ) :
    previous = .none ∨ ∃ j w, previous.IsMatch j w := by
  cases h with
  | sequence passes =>
    cases passes with
    | nil => exact .inl rfl
    | matched _ _ h | overlooked _ h _ _ _ _ => exact .inr ⟨_, _, h⟩
  | repetition rounds _ =>
    cases rounds with
    | zero => exact .inl rfl
    | succ _ _ h => exact .inr ⟨_, _, h⟩
  | first => exact .inl rfl
  | next _ _ _ same _ _ => exact .inr ⟨_, _, same⟩

/-- A repetition that has to match as often as it may ends with the failure of a round, merged. -/
theorem repetition_failed {count : Count} {n : Nat}
    (rounds : RoundsMatch m text env start σ₀ p n previous i σ) (more : n < count.rounds.getD m.rounds)
    (run : m.run p text i env σ = .ok r τ) (missed : r.result? = some ⟨.bool false, .int k, w⟩) :
    Behave.repetition m p count count text start env σ₀ = mergeOver r previous τ := by
  obtain ⟨values, same⟩ := rounds.requiredRounds
  obtain ⟨fuel, more⟩ := Nat.exists_eq_add_of_lt more
  have failed : Behave.requiredRounds m p text env (count.rounds.getD m.rounds) .none [] start σ₀ =
      (mergeOver r previous >>= fun s => pure (.failed s)) τ := by
    rw [more, Nat.add_assoc, same]
    simp only [Behave.requiredRounds]
    rw [bind_ok run]
    simp only [resultOf_miss missed, truthy_bool, pure_bind, Bool.false_eq_true, if_false]
  unfold Behave.repetition
  rw [roundsBeyond_zero]
  cases merged : mergeOver r previous τ with
  | ok s ω =>
    rw [bind_ok merged] at failed
    rw [bind_ok failed]
    rfl
  | error e ω =>
    rw [bind_error merged] at failed
    exact bind_error failed

/-- A chain ends with the run of the parser that its function returned. -/
theorem chain_next {q : ParserId} {decide shared v : Value} {υ ω : Store}
    (run : m.run p text start env σ₀ = .ok r σ) (h : r.IsMatch j v) (share : m.share r σ = .ok shared τ)
    (same : shared.IsMatch j w) (called : m.call decide [w, env] τ = .ok (.parser q) υ)
    (there : q < υ.parsers.size) {last : Value} (ran : m.run q text (.int j) env υ = .ok last ω) :
    Behave.chain m p decide text start env σ₀ = mergeOver last shared ω := by
  have isOne : ∀ name, Grammar.parserOf name (.parser q) υ = .ok q υ := by
    intro name
    have known : υ.isParser (.parser q) = true := by simp [Store.isParser, there]
    have asked : isParser (.parser q) υ = .ok true υ := by rw [isParser, known]
    unfold Grammar.parserOf
    rw [bind_ok asked]
    rfl
  unfold Behave.chain
  rw [bind_ok run]
  simp only [h.resultOf, truthy_bool, pure_bind, if_true]
  rw [bind_ok share]
  simp only [same.resultOf, pure_bind]
  rw [bind_ok called]
  cases decide.functionName? with
  | some name =>
    dsimp only
    rw [bind_ok (isOne _), bind_ok ran]
  | none =>
    have shown : textOf decide υ = .ok (υ.snapshot decide).text υ := rfl
    dsimp only
    rw [bind_ok shown, bind_ok (isOne _), bind_ok ran]

/-- The failure of a parser that a combinator has come to run is what the combinator returns, if the failure
is not at a place below zero, or if nothing went before it. -/
theorem behave_failed (comes : ComesTo m text env start σ₀ b p after previous i σ)
    (run : m.run p text i env σ = .ok r τ) (missed : r.IsMiss τ k words)
    (inside : 0 ≤ k ∨ previous = .none) :
    behave m b text start env σ₀ = .ok r τ := by
  obtain ⟨v, missed, _⟩ := missed
  have merged : mergeOver r previous = pure r := by
    refine mergeOver_miss missed ?_
    -- After a success the failure comes back from the merge unless its index is negative.
    obtain none | matched := comes.before
    · exact .inl none
    · exact inside.elim (fun inside => .inr ⟨inside, matched⟩) .inl
  cases comes with
  | @sequence ps _ _ _ _ _ passes =>
    obtain ⟨values, same⟩ := passes.sequenceFrom
    refine (same (p :: after)).trans ?_
    simp only [Behave.sequenceFrom]
    rw [bind_ok run]
    simp only [merged, resultOf_miss missed, truthy_bool, pure_bind, Bool.false_eq_true, if_false]
    rfl
  | repetition rounds more =>
    refine (repetition_failed rounds more run missed).trans ?_
    rw [merged]
    rfl
  | first =>
    simp only [behave, Behave.chain]
    rw [bind_ok run]
    simp only [resultOf_miss missed, truthy_bool, pure_bind, Bool.false_eq_true, if_false]
    rfl
  | next before h share same called there =>
    refine (chain_next before h share same called there run).trans ?_
    rw [merged]
    rfl

/-- A failure below zero is lost if a success ended further on and nothing is left to run: the combinator
succeeds at the index of that success. -/
theorem behave_overlooks (comes : ComesTo m text env start σ₀ b p [] previous i σ)
    (run : m.run p text i env σ = .ok r τ) (missed : r.IsMiss τ k words) (matched : previous.IsMatch j w)
    (below : k < 0) (behind : k < j) :
    ∃ s v, behave m b text start env σ₀ = .ok s τ ∧ s.IsMatch j v := by
  obtain ⟨v, missed, _⟩ := missed
  have merged : mergeOver r previous = pure previous := by
    rw [mergeOver_miss_match missed matched, if_neg (by omega), if_pos behind]
  have merged' : mergeOver r previous τ = .ok previous τ := by rw [merged]; rfl
  cases comes with
  | @sequence ps _ _ _ _ _ passes =>
    obtain ⟨values, same⟩ := passes.sequenceFrom
    have all : (Value.success (.int j) (.list (values ++ [w]))).IsMatch j (.list (values ++ [w])) := rfl
    refine ⟨_, _, (same [p]).trans ?_, all⟩
    simp only [Behave.sequenceFrom]
    rw [bind_ok run]
    simp only [merged, matched.resultOf, truthy_bool, pure_bind, if_true, mergeOver_match all]
    rfl
  | repetition rounds more =>
    exact ⟨previous, w, (repetition_failed rounds more run missed).trans merged', matched⟩
  | first => cases matched
  | next before h share same called there =>
    exact ⟨previous, w, (chain_next before h share same called there run).trans merged', matched⟩

/-- A failure below zero that got as far as the success before it is an error, unless the value of the
success is a list. -/
theorem behave_clashes (comes : ComesTo m text env start σ₀ b p after previous i σ)
    (run : m.run p text i env σ = .ok r τ) (missed : r.IsMiss τ k words) (matched : previous.IsMatch j w)
    (below : k < 0) (level : j ≤ k) (other : ∀ items, τ.view w ≠ .list items) :
    behave m b text start env σ₀ = .error (.raised (.error .wrongType)) τ := by
  obtain ⟨v, missed, words⟩ := missed
  have merged : mergeOver r previous τ = .error (.raised (.error .wrongType)) τ := by
    rw [mergeOver_miss_match missed matched, if_neg (by omega), if_neg (by omega)]
    exact bind_error (addTo_list_other words other)
  cases comes with
  | @sequence ps _ _ _ _ _ passes =>
    obtain ⟨values, same⟩ := passes.sequenceFrom
    refine (same (p :: after)).trans ?_
    simp only [Behave.sequenceFrom]
    rw [bind_ok run]
    exact bind_error merged
  | repetition rounds more => exact (repetition_failed rounds more run missed).trans merged
  | first => cases matched
  | next before h share same called there => exact (chain_next before h share same called there run).trans merged

/-- The last parser that a combinator runs fails, and the combinator succeeds all the same. -/
def LosesFailure (m : Machine) (text env start : Value) (σ₀ : Store) (b : Behaviour Value) : Prop :=
  ∃ p previous i σ r τ k words, ComesTo m text env start σ₀ b p [] previous i σ ∧
    m.run p text i env σ = .ok r τ ∧ r.IsMiss τ k words ∧
    ∃ s j v, behave m b text start env σ₀ = .ok s τ ∧ s.IsMatch j v

/-- The last parser that a combinator runs fails, and the combinator raises an error for it. -/
def RaisesFailure (m : Machine) (text env start : Value) (σ₀ : Store) (b : Behaviour Value) : Prop :=
  ∃ p previous i σ r τ k words, ComesTo m text env start σ₀ b p [] previous i σ ∧
    m.run p text i env σ = .ok r τ ∧ r.IsMiss τ k words ∧
    behave m b text start env σ₀ = .error (.raised (.error .wrongType)) τ

/-- A failure behind the success before it, and before the text, is lost. -/
theorem losesFailure (comes : ComesTo m text env start σ₀ b p [] previous i σ)
    (run : m.run p text i env σ = .ok r τ) (missed : r.IsMiss τ k words) (matched : previous.IsMatch j w)
    (below : k < 0) (behind : k < j) : LosesFailure m text env start σ₀ b := by
  obtain ⟨s, v, ended, succeeded⟩ := behave_overlooks comes run missed matched below behind
  exact ⟨p, previous, i, σ, r, τ, k, words, comes, run, missed, s, j, v, ended, succeeded⟩

end Failures

private def backward : Value := .closure ["a", "b", "c"] (.plain .null) [] (.named "backward") 0

/-- A host whose function, as a behaviour, matches a letter at the start and fails before the text anywhere
else.  With two arguments it returns parser 6. -/
private def stepsBack : Host :=
  ⟨fun _ _ arguments => match arguments with
    | [_, .int 0, _] => return .success (.int 1) (.str "a")
    | [_, _, _] => return .failure (.int (-1)) (.str "x")
    | _ => return .parser 6, Value.share⟩

/-- Parser 5 always fails, and parser 6 does what the function does. -/
private def backwardStore : Store :=
  { Store.initial with
    parsers := Store.initial.parsers ++ #[⟨.object 5 (.behaviour (.fail "x")), .str "fail('x')"⟩,
      ⟨backward, .str "custom(backward)"⟩]
    nextObject := 6 }

/-- A machine with room for all that is run here. -/
private abbrev stepMachine : Machine := machine stepsBack 9 9

/-- A sequence of a letter and a parser that always fails. -/
theorem behave_failed_afterLetter :
    0 ≤ (1 : Int) ∧ behave stepMachine (.sequence [0, 5]) (.str "abc") (.int 0) .none backwardStore =
      .ok (.failure (.int 1) (.str "x")) backwardStore := by
  have letter : Passes stepMachine (.str "abc") .none (.int 0) backwardStore ([] ++ [0])
      (.success (.int 1) (.ofChar 'a')) (.int 1) backwardStore := .matched .nil rfl rfl
  have comes : ComesTo stepMachine (.str "abc") .none (.int 0) backwardStore (.sequence [0, 5]) 5 []
      (.success (.int 1) (.ofChar 'a')) (.int 1) backwardStore := .sequence letter
  have missed : (Value.failure (.int 1) (.str "x")).IsMiss backwardStore 1 ["x"] := ⟨_, rfl, rfl⟩
  exact ⟨by decide, behave_failed comes rfl missed (.inl (by decide))⟩

/-- A sequence, a repetition of two rounds and a chain each run last a parser that fails before the text,
after a success that ended at one, and each of them succeeds.  On built-in parsers only, a letter is matched at
an index that counts from the end of the text, and the failure after it raises an error. -/
theorem failure_overlooked :
    LosesFailure stepMachine (.str "abc") .none (.int 0) backwardStore (.sequence [6, 6]) ∧
      LosesFailure stepMachine (.str "abc") .none (.int 0) backwardStore
        (.repetition 6 (.times 2) (.times 2)) ∧
      LosesFailure stepMachine (.str "abc") .none (.int 0) backwardStore (.chain 6 backward) ∧
      RaisesFailure stepMachine (.str "abc") .none (.int (-2)) backwardStore (.sequence [0, 5]) := by
  have matched : (Value.success (.int 1) (.str "a")).IsMatch 1 (.str "a") := rfl
  have missed : ∀ τ : Store, (Value.failure (.int (-1)) (.str "x")).IsMiss τ (-1) ["x"] :=
    fun τ => ⟨_, rfl, rfl⟩
  refine ⟨?_, ?_, ?_, ?_⟩
  · have letter : Passes stepMachine (.str "abc") .none (.int 0) backwardStore ([] ++ [6])
        (.success (.int 1) (.str "a")) (.int 1) backwardStore := .matched .nil rfl matched
    exact losesFailure (.sequence letter) rfl (missed _) matched (by decide) (by decide)
  · have round : RoundsMatch stepMachine (.str "abc") .none (.int 0) backwardStore 6 1
        (.success (.int 1) (.str "a")) (.int 1) backwardStore := .succ .zero rfl matched
    exact losesFailure (.repetition round (by decide)) rfl (missed _) matched (by decide) (by decide)
  · have comes : ComesTo stepMachine (.str "abc") .none (.int 0) backwardStore (.chain 6 backward) 6 []
        (.object 6 (.success (.int 1) (.str "a"))) (.int 1) { backwardStore with nextObject := 7 } :=
      .next rfl matched rfl rfl rfl (by decide)
    exact losesFailure comes rfl (missed _) rfl (by decide) (by decide)
  · have letter : Passes stepMachine (.str "abc") .none (.int (-2)) backwardStore ([] ++ [0])
        (.success (.int (-1)) (.ofChar 'b')) (.int (-1)) backwardStore := .matched .nil rfl rfl
    have comes : ComesTo stepMachine (.str "abc") .none (.int (-2)) backwardStore (.sequence [0, 5]) 5 []
        (.success (.int (-1)) (.ofChar 'b')) (.int (-1)) backwardStore := .sequence letter
    refine ⟨_, _, _, _, _, _, _, _, comes, rfl, missed _, ?_⟩
    exact behave_clashes comes rfl (missed _) rfl (by decide) (by decide) fun items => Value.noConfusion

end Rebind
