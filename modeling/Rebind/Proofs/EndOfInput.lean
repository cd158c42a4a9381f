import Rebind.Proofs.Caret
import Rebind.Proofs.Identities
import Rebind.Proofs.LastRun
import Rebind.Proofs.PegRuns
import Rebind.Script.Eval
/-!
# The end of the input

A direct call of a parser checks by itself that nothing is left of the text.  The grammar language can say the
same: run the parser and then the one for the end of the input, and keep the first of the two values.  Both come
to the same, whatever the parser does and wherever it stops.

Parsing is calling from the start: it gives the value of a success, and raises a failure as an error.
-/
namespace Rebind

open Peg (Fresh)

/-! ### Outcomes -/

/-- A value with identities given to parts that had none, once or several times. -/
inductive Value.IdentifiedAs (v : Value) : Value → Prop
  | refl : IdentifiedAs v v
  | step {w : Value} (h : IdentifiedAs v w) (n : Nat) : IdentifiedAs v (w.identify n).1

/-- Two evaluations come to the same: to the same error, the same failure, or successes at the same index, of
which the second one has the value of the first one as a function got to see it. -/
inductive SameOutcome : EStateM.Result Fault Store Value → EStateM.Result Fault Store Value → Prop
  | error (e : Fault) (τ : Store) : SameOutcome (.error e τ) (.error e τ)
  | failure {r i w : Value} {τ : Store} (failed : r.result? = some ⟨.bool false, i, w⟩) :
    SameOutcome (.ok r τ) (.ok r τ)
  | success {r v w : Value} {j : Int} {τ υ : Store} (matched : r.IsMatch j v) (same : v.IdentifiedAs w)
    (fresh : Fresh τ υ) : SameOutcome (.ok r τ) (.ok (.success (.int j) w) υ)

/-- What parsers are declared to return; what is no result at all is an error for whoever runs them. -/
def Value.IsDeclared (r : Value) : Prop :=
  r.result? = Option.none ∨ (∃ j v, r.IsMatch j v) ∨ ∃ i w, r.result? = some ⟨.bool false, i, w⟩

/-- A store after the run of a parser: nobody traces the runs to come, a parser checks for the end of the input,
and nothing was changed that is yet to be made. -/
structure Store.IsReady (τ : Store) (e : ParserId) : Prop where
  untraced : τ.tracers = []
  ends : τ.behaviour? e = some .eof
  ahead : ∀ id, τ.nextObject ≤ id → τ.edits.lookup id = none

/-- A function of the user returns the first item of the list that it is given. -/
def TakesFirst (host : Host) (f : Value) : Prop :=
  ∀ (m : Machine) (list env item : Value) (rest : List Value) (σ : Store),
    σ.view list = .list (item :: rest) → invoke host m f [list, env] σ = item.share σ

section Calls

variable {host : Host} {m : Machine} {p e inner outer : ParserId} {f text env i r v : Value} {s : String} {j : Int}
  {σ τ : Store}

/-- Merging the missing end with the success before it gives a failure or an error. -/
theorem mergeOver_eof (matched : r.IsMatch j v) (τ : Store) :
    (∃ x i w, mergeOver (.failure (.int j) (.str "EOF")) r τ = .ok x τ ∧
      x.result? = some ⟨.bool false, i, w⟩) ∨
      ∃ e, mergeOver (.failure (.int j) (.str "EOF")) r τ = .error e τ := by
  rw [mergeOver_miss_match (Value.result?_failure _ _) matched, if_neg (Int.lt_irrefl j)]
  split
  · exact .inl ⟨_, _, _, rfl, rfl⟩
  · have first : view (.list [.str "EOF"]) τ = .ok (.list [.str "EOF"]) τ := rfl
    have second : view v τ = .ok (τ.view v) τ := rfl
    unfold addTo
    simp only [bind_assoc]
    rw [bind_ok first, bind_ok second]
    cases τ.view v with
    | list items => exact .inl ⟨_, _, _, rfl, rfl⟩
    | _ => exact .inr ⟨_, rfl⟩

theorem resultOf_none (h : r.result? = none) : resultOf r = raise .missingAttribute := by
  unfold resultOf
  rw [h]

theorem resultOf_failure {i w : Value} (h : r.result? = some ⟨.bool false, i, w⟩) :
    resultOf r = pure ⟨.bool false, i, w⟩ := by
  unfold resultOf
  rw [h]

/-- The parser for the end of the input, on a text. -/
theorem run_eof (untraced : τ.tracers = []) (now : τ.behaviour? e = some .eof) :
    (m.above host).run e (.str s) (.int j) env τ =
      .ok (if j < s.toList.length then .failure (.int j) (.str "EOF") else .success (.int j) .none) τ := by
  rw [run_above _ _ _ untraced now]
  simp only [behave, Behave.eof, lengthOf_str, lessThan_int, pure_bind, decide_eq_true_eq]
  split <;> rfl

/-- A run through a parser that transforms the value of a sequence. -/
theorem run_framed (untraced : σ.tracers = []) (transforms : σ.behaviour? outer = some (.transform inner f))
    (joins : σ.behaviour? inner = some (.sequence [p, e])) :
    (((m.above host).above host).above host).run outer text i env σ = (do
      let outcome ← Behave.sequence (m.above host) [p, e] text i env
      let r ← resultOf outcome
      if ← truthy r.status then
        return Value.success r.index (← invoke host (m.above host) f [← host.share r.value, env])
      return outcome) σ := by
  rw [run_above _ _ _ untraced transforms]
  have ran : ((m.above host).above host).run inner text i env σ =
      Behave.sequence (m.above host) [p, e] text i env σ := run_above text i env untraced joins
  simp only [behave, Behave.transform]
  cases ended : Behave.sequence (m.above host) [p, e] text i env σ with
  | ok a τ =>
    rw [bind_ok (ran.trans ended), bind_ok ended]
    rfl
  | error e τ => rw [bind_error (ran.trans ended), bind_error ended]

/-- A call checks whether something is left after a success. -/
theorem callParser_match (ran : m.run p (.str s) i env σ = .ok r τ) (matched : r.IsMatch j v) :
    callParser m p (.str s) env i σ =
      (if j < s.toList.length then mergeOver (.failure (.int j) (.str "EOF")) r else pure r) τ := by
  unfold callParser
  rw [bind_ok ran]
  simp only [matched.resultOf, truthy_bool, lengthOf_str, lessThan_int, pure_bind, if_true, decide_eq_true_eq]

/-- So does a sequence with the parser for the end of the input. -/
theorem sequence_match (ran : (m.above host).run p (.str s) i env σ = .ok r τ) (matched : r.IsMatch j v)
    (ready : τ.IsReady e) : Behave.sequence (m.above host) [p, e] (.str s) i env σ =
      (if j < s.toList.length then mergeOver (.failure (.int j) (.str "EOF")) r
        else pure (.success (.int j) (.list [v, .none]))) τ := by
  have ended : (m.above host).run e (.str s) (.int j) env τ = _ := run_eof ready.untraced ready.ends
  unfold Behave.sequence
  simp only [Behave.sequenceFrom]
  rw [bind_ok ran]
  simp only [mergeOver_none, matched.resultOf, truthy_bool, pure_bind, if_true, List.nil_append]
  rw [bind_ok ended]
  by_cases left : j < s.toList.length
  · rw [if_pos left, if_pos left]
    obtain ⟨x, k, w, merged, failed⟩ | ⟨e, raised⟩ := mergeOver_eof matched τ
    · rw [bind_ok merged, merged]
      simp only [resultOf_failure failed, truthy_bool, pure_bind, Bool.false_eq_true, if_false]
      rfl
    · rw [bind_error raised, raised]
  · have nothing : (Value.success (.int j) .none).IsMatch j .none := rfl
    have all : (Value.success (.int j) (.list [v, .none])).IsMatch j (.list [v, .none]) := rfl
    rw [if_neg left, if_neg left]
    simp only [mergeOver_match nothing, nothing.resultOf, truthy_bool, pure_bind, if_true, List.singleton_append,
      mergeOver_match all]

/-- A call and a run through the sequence and the transformation come to the same. -/
theorem call_sameOutcome (share : host.share = Value.share) (untraced : σ.tracers = [])
    (transforms : σ.behaviour? outer = some (.transform inner f))
    (joins : σ.behaviour? inner = some (.sequence [p, e])) (takes : TakesFirst host f)
    (declared : ∀ r τ, (m.above host).run p (.str s) i env σ = .ok r τ →
      r.IsDeclared ∧ τ.IsReady e) :
    SameOutcome (callParser (m.above host) p (.str s) env i σ)
      ((((m.above host).above host).above host).run outer (.str s) i env σ) := by
  rw [run_framed untraced transforms joins]
  cases ran : (m.above host).run p (.str s) i env σ with
  | error e τ =>
    unfold callParser Behave.sequence
    simp only [Behave.sequenceFrom, bind_assoc]
    rw [bind_error ran, bind_error ran]
    exact .error e τ
  | ok r τ =>
    obtain ⟨kind, ready⟩ := declared r τ ran
    obtain none | ⟨j, v, matched⟩ | ⟨k, w, failed⟩ := kind
    · -- What is no result is an error for both.
      unfold callParser Behave.sequence
      simp only [Behave.sequenceFrom, bind_assoc]
      rw [bind_ok ran, bind_ok ran]
      simp only [mergeOver_none, resultOf_none none, pure_bind]
      exact .error _ τ
    · have joined := sequence_match ran matched ready
      rw [callParser_match ran matched]
      by_cases left : j < s.toList.length
      · rw [if_pos left] at joined ⊢
        obtain ⟨x, k, w, merged, failed⟩ | ⟨e, raised⟩ := mergeOver_eof matched τ
        · rw [bind_ok (joined.trans merged), merged]
          simp only [resultOf_failure failed, truthy_bool, pure_bind, Bool.false_eq_true, if_false]
          exact .failure failed
        · rw [bind_error (joined.trans raised), raised]
          exact .error e τ
      · rw [if_neg left] at joined ⊢
        have all : (Value.success (.int j) (.list [v, .none])).IsMatch j (.list [v, .none]) := rfl
        rw [bind_ok (joined.trans rfl)]
        simp only [all.resultOf, truthy_bool, pure_bind, if_true, share]
        let n := (v.identify τ.nextObject).2
        let υ : Store := { τ with nextObject := n + 1 }
        have shared : Value.share (.list [v, .none]) τ =
            .ok (.object n (.list [(v.identify τ.nextObject).1, .none])) υ := rfl
        have unchanged : τ.edits.lookup n = none := ready.ahead n (le_identify v _)
        have seen : υ.view (.object n (.list [(v.identify τ.nextObject).1, .none])) =
            .list [(v.identify τ.nextObject).1, .none] := by
          simp only [Store.view, unchanged, υ, Option.getD_none]
        have taken := takes (m.above host) _ env _ _ υ seen
        rw [bind_ok shared, bind_ok (taken.trans rfl)]
        exact .success matched (.step (.step .refl _) _) ⟨_, rfl⟩
    · unfold callParser Behave.sequence
      simp only [Behave.sequenceFrom, bind_assoc]
      rw [bind_ok ran, bind_ok ran]
      simp only [mergeOver_none, resultOf_failure failed, truthy_bool, pure_bind, Bool.false_eq_true, if_false]
      exact .failure failed

end Calls

/-! ### Parsing -/

section Parsing

variable {m : Machine} {p : ParserId} {text env name r v w : Value} {s : String} {k : Int} {words : List String}
  {σ τ : Store}

def failureLine (text : List Char) (place : Int) (expected : List String) (context : Int) : String :=
  "expected " ++ expectedWords expected ++ " at character " ++ toString place ++ ", got " ++
    gotAt text place context

/-- What follows two evaluations that come to the same. -/
theorem bind_same {α β : Type} {x y : Eval α} (same : x τ = y τ) (f : α → Eval β) :
    (x >>= f) τ = (y >>= f) τ := by
  simp only [Bind.bind, EStateM.bind, same]

/-- What was expected is told from what its list holds. -/
theorem expectedText_view (h : τ.view w = .list (words.map .str)) :
    expectedText w τ = .ok (expectedWords words) τ := by
  have viewed : view w τ = view (.list (words.map .str)) τ := by
    rw [view, h]
    rfl
  have item : itemOf w (.int 0) τ = itemOf (.list (words.map .str)) (.int 0) τ := bind_same viewed _
  have joined : joinWith ", " w τ = joinWith ", " (.list (words.map .str)) τ :=
    bind_same (bind_same viewed _) _
  have length : lengthOf w τ = .ok ((words.map Value.str).length : Int) τ := bind_same viewed _
  have same : expectedOf w τ = expectedOf (.list (words.map .str)) τ := by
    have length' : lengthOf (.list (words.map .str)) τ = .ok ((words.map Value.str).length : Int) τ := rfl
    unfold expectedOf
    rw [bind_ok length, bind_ok length']
    split
    · exact item
    · exact bind_same joined _
  exact (bind_same same _).trans (congrFun (expectedText_texts words) τ)

/-- The message of an error is the line about its failure. -/
theorem errorText_failure (h : τ.view r = .result (.bool false) (.int k) w)
    (listed : τ.view w = .list (words.map .str)) (context : Int) :
    errorText (.str s) r (.int context) τ = .ok (failureLine s.toList k words context) τ := by
  have viewed : view r τ = .ok (.result (.bool false) (.int k) w) τ := by rw [view, h]
  have value : attributeOf r "value" τ = .ok w τ := by
    unfold attributeOf
    rw [bind_ok viewed]
    rfl
  have index : attributeOf r "index" τ = .ok (.int k) τ := by
    unfold attributeOf
    rw [bind_ok viewed]
    rfl
  have place : textOf (.int k) = pure (toString k) := rfl
  unfold errorText
  rw [bind_ok value, bind_ok (expectedText_view listed), bind_ok index, place]
  simp only [gotText_str, pure_bind]
  rfl

/-- `parse` returns the value of a success. -/
theorem parseText_success (called : callParser m p text env (.int 0) σ = .ok r τ) {j : Int}
    (matched : r.IsMatch j v) :
    parseText m p text env name σ = .ok v τ := by
  unfold parseText
  rw [bind_ok called]
  simp only [matched.resultOf, truthy_bool, pure_bind, if_true]
  rfl

/-- It passes on what was raised. -/
theorem parseText_error {e : Fault} (called : callParser m p text env (.int 0) σ = .error e τ) :
    parseText m p text env name σ = .error e τ := bind_error called

theorem content_of_result {a b c : Value} (h : r.result? = some ⟨a, b, c⟩) : r.content = .result a b c := by
  unfold Value.result? at h
  split at h
  · next same =>
    cases h
    exact same
  · cases h

/-- The parts of the error are those of the failure. -/
theorem attributeOf_mismatch (failed : r.result? = some ⟨.bool false, .int k, w⟩) (line : String) :
    attributeOf (.mismatch text r name line) "index" τ = .ok (.int k) τ ∧
      attributeOf (.mismatch text r name line) "expected" τ = .ok w τ := by
  have part : ∀ f, attributeOf.attributeOfResult r f = pure (f ⟨.bool false, .int k, w⟩) := by
    intro f
    unfold attributeOf.attributeOfResult
    rw [failed]
  exact ⟨congrFun (part fun r => r.index) τ, congrFun (part fun r => r.value) τ⟩

/-- It raises an error with index, expected things and message for a failure. -/
theorem parseText_failure (called : callParser m p (.str s) env (.int 0) σ = .ok r τ)
    (failed : r.result? = some ⟨.bool false, .int k, w⟩) (unedited : τ.view r = r.content)
    (listed : τ.view w = .list (words.map .str)) :
    parseText m p (.str s) env name σ =
      .error (.raised (.mismatch (.str s) r name (failureLine s.toList k words defaultContext))) τ := by
  have told := errorText_failure (s := s) (unedited.trans (content_of_result failed)) listed defaultContext
  have made : newMismatch (.str s) r name τ =
      .ok (.mismatch (.str s) r name (failureLine s.toList k words defaultContext)) τ := bind_ok told
  unfold parseText
  rw [bind_ok called]
  simp only [resultOf_failure failed, truthy_bool, pure_bind, Bool.false_eq_true, if_false]
  rw [bind_ok made]
  rfl

end Parsing

/-- A direct call of a parser comes to what a run comes to that goes through the parser, then the one for the end
of the input, and takes the first of their values: from every index, whatever the parser does.  Parsing a text
comes to what the call from its start comes to, with the value of a success; a failure that names what was
expected is raised as an error that has its index, its list, and the line that describes it. -/
theorem direct_call_agrees {host : Host} {rounds depth : Nat} {p e inner outer : ParserId} {f env name : Value}
    {s : String} {σ : Store} (share : host.share = Value.share) (untraced : σ.tracers = [])
    (transforms : σ.behaviour? outer = some (.transform inner f))
    (joins : σ.behaviour? inner = some (.sequence [p, e])) (takes : TakesFirst host f)
    (declared : ∀ (i : Int) r τ, (machine host rounds (depth + 1)).run p (.str s) (.int i) env σ = .ok r τ →
      r.IsDeclared ∧ τ.IsReady e) :
    (∀ i : Int, SameOutcome (callParser (machine host rounds (depth + 1)) p (.str s) env (.int i) σ)
        ((machine host rounds (depth + 3)).run outer (.str s) (.int i) env σ)) ∧
      (∀ e τ, callParser (machine host rounds (depth + 1)) p (.str s) env (.int 0) σ = .error e τ →
        parseText (machine host rounds (depth + 1)) p (.str s) env name σ = .error e τ) ∧
      ∀ r τ, callParser (machine host rounds (depth + 1)) p (.str s) env (.int 0) σ = .ok r τ →
        (∀ j v, r.IsMatch j v →
          parseText (machine host rounds (depth + 1)) p (.str s) env name σ = .ok v τ) ∧
        ∀ k w words, r.result? = some ⟨.bool false, .int k, w⟩ → τ.view r = r.content →
          τ.view w = .list (words.map .str) → ∃ line error,
            parseText (machine host rounds (depth + 1)) p (.str s) env name σ = .error (.raised error) τ ∧
              error = .mismatch (.str s) r name line ∧
              errorText (.str s) r (.int defaultContext) τ = .ok line τ ∧
              line = failureLine s.toList k words defaultContext ∧
              attributeOf error "index" τ = .ok (.int k) τ ∧ attributeOf error "expected" τ = .ok w τ := by
  refine ⟨fun i => ?_, fun e τ => parseText_error, fun r τ called =>
    ⟨fun j v => parseText_success called, ?_⟩⟩
  · exact call_sameOutcome share untraced transforms joins takes (declared i)
  · intro k w words failed unedited listed
    have told := errorText_failure (s := s) (unedited.trans (content_of_result failed)) listed defaultContext
    exact ⟨_, _, parseText_failure called failed unedited listed, rfl, told, rfl, attributeOf_mismatch failed _⟩

private def firstItem : Value :=
  .closure ["v", "e"] (.apply .item [.reference "v", .plain (.int 0)] []) [] (.named "first") 0

private theorem takesFirst_firstItem : TakesFirst Script.host firstItem := by
  intro m list env item rest σ seen
  have viewed : view list σ = .ok (.list (item :: rest)) σ := by rw [view, seen]
  have found : Script.applyOp m .item [list, .int 0] [] σ = .ok item σ := bind_ok viewed
  let c : Script.Context := ⟨0, [("e", env), ("v", list)]⟩
  have arguments : Script.evalAll m c [.reference "v", .plain (.int 0)] σ = .ok [list, .int 0] σ := rfl
  have keywords : Script.evalNamed m c [] σ = .ok [] σ := rfl
  show Script.eval m c (.apply .item [.reference "v", .plain (.int 0)] []) σ = _
  rw [Script.eval, bind_ok arguments, bind_ok keywords, bind_ok found]

/-- Parser 5 reads a character and then the end of the input, and parser 6 keeps the character. -/
private def wholeLetter : Store :=
  { Store.initial with
    parsers := Store.initial.parsers ++ #[⟨.object 5 (.behaviour (.sequence [0, 2])), .str "sequence(*2)"⟩,
      ⟨.object 6 (.behaviour (.transform 5 firstItem)), .str "transform(first)"⟩]
    nextObject := 7 }

/-- A direct call that leaves a letter unread, counted from the end. -/
theorem direct_call_agrees_letterLeft :
    SameOutcome (callParser (machine Script.host 9 9) 0 (.str "ab") .none (.int (-2)) wholeLetter)
        ((machine Script.host 9 11).run 6 (.str "ab") (.int (-2)) .none wholeLetter) ∧
      ∃ error, parseText (machine Script.host 9 9) 0 (.str "ab") .none (.str "x") wholeLetter =
          .error (.raised error) wholeLetter ∧
        attributeOf error "index" wholeLetter = .ok (.int 1) wholeLetter := by
  have declared : ∀ (i : Int) r τ,
      (machine Script.host 9 9).run 0 (.str "ab") (.int i) .none wholeLetter = .ok r τ →
        r.IsDeclared ∧ τ.IsReady 2 := by
    intro i r τ ran
    have ready : wholeLetter.IsReady 2 := ⟨rfl, rfl, fun _ _ => rfl⟩
    have does : (machine Script.host 9 9).run 0 (.str "ab") (.int i) .none wholeLetter =
        behave (machine Script.host 9 8) .anyChar (.str "ab") (.int i) .none wholeLetter := run_above _ _ _ rfl rfl
    rw [does] at ran
    simp only [behave, Behave.anyChar, lengthOf_str, atMost_int, addTo_int, pure_bind] at ran
    split at ran
    · obtain ⟨rfl, rfl⟩ := EStateM.Result.ok.inj ran
      exact ⟨.inr (.inr ⟨_, _, rfl⟩), ready⟩
    · cases there : Slice.item? "ab".toList i with
      | none =>
        have missing : itemOf (.str "ab") (.int i) wholeLetter = raise .outOfRange wholeLetter := by
          show (present (Slice.item? "ab".toList i) >>= _) wholeLetter = _
          rw [there]
          rfl
        rw [bind_error (missing.trans rfl)] at ran
        cases ran
      | some c =>
        rw [itemOf_str there, pure_bind] at ran
        obtain ⟨rfl, rfl⟩ := EStateM.Result.ok.inj ran
        exact ⟨.inr (.inl ⟨_, _, rfl⟩), ready⟩
  have called : callParser (machine Script.host 9 9) 0 (.str "ab") .none (.int 0) wholeLetter =
      .ok (.failure (.int 1) (.str "EOF")) wholeLetter := rfl
  obtain ⟨same, _, parses⟩ := @direct_call_agrees Script.host 9 8 0 2 5 6 firstItem .none (.str "x") "ab"
    wholeLetter rfl rfl rfl rfl takesFirst_firstItem declared
  obtain ⟨line, error, raised, _, _, _, index, _⟩ := (parses _ _ called).2 _ _ ["EOF"] rfl rfl rfl
  exact ⟨same (-2), error, raised, index⟩

end Rebind
