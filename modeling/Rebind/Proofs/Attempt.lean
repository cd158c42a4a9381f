import Rebind.Proofs.Evaluation
/-!
# Attempts at matching a text

On a text and a whole number as index, results are plain: an attempt matched up to a place, with a
value, or it missed, with the furthest place and with what was expected there.  For each kind of
behaviour there is one rule that says how it goes on from the attempts of its parts.  The rules say
nothing about the parts themselves, so they serve every statement about runs on texts.
-/
namespace Rebind

/-- How running a parser on a text ended. -/
inductive Attempt where
  | matched (stop : Int) (value : Value)
  | missed (place : Int) (expected : List String)
  deriving Inhabited

namespace Attempt

def value : Attempt → Value
  | matched stop v => .success (.int stop) v
  | missed place expected => .result (.bool false) (.int place) (.list (expected.map .str))

/-- A failure after an earlier one: what got further stays, and at the same place both stay, the later
one first. -/
def after (place : Int) (expected : List String) : Option (Int × List String) → Int × List String
  | none => (place, expected)
  | some (earlier, wanted) =>
    if earlier < place then (place, expected)
    else if place < earlier then (earlier, wanted)
    else (place, expected ++ wanted)

/-- A merged failure is the later one, the earlier one, or both at the same place. -/
theorem after_cases (place : Int) (expected : List String) (earlier : Option (Int × List String)) :
    after place expected earlier = (place, expected) ∨
      earlier = some (after place expected earlier) ∨
      ∃ wanted, earlier = some (place, wanted) ∧
        after place expected earlier = (place, expected ++ wanted) := by
  cases earlier with
  | none => exact .inl rfl
  | some failure =>
    obtain ⟨before, wanted⟩ := failure
    by_cases further : before < place
    · simp [after, further]
    · by_cases nearer : place < before
      · simp [after, further, nearer]
      · have same : before = place := by omega
        simp [after, same]

/-- Merging does not lead before the text. -/
theorem after_nonneg {place : Int} {expected : List String} {earlier : Option (Int × List String)}
    (h : 0 ≤ place) (h' : ∀ e, earlier = some e → 0 ≤ e.1) : 0 ≤ (after place expected earlier).1 := by
  rcases after_cases place expected earlier with same | same | ⟨_, _, same⟩
  · rw [same]
    exact h
  · exact h' _ same
  · rw [same]
    exact h

/-- The failure before an attempt as a value; without one it is nothing. -/
def failureValue : Option (Int × List String) → Value
  | none => .none
  | some (place, expected) => (missed place expected).value

end Attempt

open Attempt

/-! ### Operations on plain data -/

theorem truthy_bool (b : Bool) : truthy (.bool b) = pure b := rfl

theorem lengthOf_str (s : String) : lengthOf (.str s) = pure (s.toList.length : Int) := rfl

theorem lessThan_int (m n : Int) : lessThan (.int m) (.int n) = pure (decide (m < n)) := rfl

theorem atMost_int (m n : Int) : atMost (.int m) (.int n) = pure (decide (m ≤ n)) := rfl

theorem addTo_int (m n : Int) : addTo (.int m) (.int n) = pure (.int (m + n)) := rfl

theorem addTo_list (xs ys : List Value) : addTo (.list xs) (.list ys) = pure (.list (xs ++ ys)) := rfl

theorem itemOf_str {s : String} {i : Int} {c : Char} (h : Slice.item? s.toList i = some c) :
    itemOf (.str s) (.int i) = pure (.ofChar c) := by
  have read : itemOf (.str s) (.int i) =
      (present (Slice.item? s.toList i) >>= fun d => pure (.ofChar d)) := rfl
  rw [read, h]
  rfl

theorem sliceOf_str (s : String) (i : Int) :
    sliceOf (.str s) (.int i) .none = pure (.ofChars (Slice.between s.toList (some i) none)) := rfl

theorem resultOf_matched (stop : Int) (v : Value) :
    resultOf (matched stop v).value = pure ⟨.bool true, .int stop, v⟩ := rfl

theorem resultOf_missed (place : Int) (expected : List String) :
    resultOf (missed place expected).value =
      pure ⟨.bool false, .int place, .list (expected.map .str)⟩ := rfl

theorem mergeOver_none (v : Value) : mergeOver v .none = pure v := rfl

/-- A success is not merged with anything. -/
theorem mergeOver_matched (stop : Int) (v previous : Value) :
    mergeOver (matched stop v).value previous = pure (matched stop v).value := by
  unfold mergeOver
  split
  · rfl
  · simp only [resultOf_matched, truthy_bool, pure_bind, if_true]

/-- A success counts as a failure before every place in the text. -/
theorem mergeOver_missed_success {r : Value} {place : Int} {expected : List String} {result : Result}
    (hr : r.result? = some result) (succeeded : result.status = .bool true) (h : 0 ≤ place) :
    mergeOver (missed place expected).value r = pure (missed place expected).value := by
  have parts : resultOf r = pure result := by
    unfold resultOf
    rw [hr]
  have before : (-1 : Int) < place := by omega
  unfold mergeOver
  split
  · rfl
  · simp only [resultOf_missed, parts, furthest, succeeded, truthy_bool, lessThan_int, pure_bind,
      Bool.false_eq_true, if_false, if_true, decide_eq_true before]

/-- How failures are merged, on attempts. -/
theorem mergeOver_missed (place : Int) (expected : List String) (earlier : Option (Int × List String)) :
    mergeOver (missed place expected).value (failureValue earlier) =
      pure (failureValue (some (after place expected earlier))) := by
  cases earlier with
  | none => rfl
  | some failure =>
    obtain ⟨before, wanted⟩ := failure
    unfold mergeOver failureValue
    split
    · next none => exact absurd none (by simp [Attempt.value])
    simp only [resultOf_missed, furthest, truthy_bool, lessThan_int, pure_bind, Bool.false_eq_true,
      if_false, decide_eq_true_eq]
    by_cases further : before < place
    · simp [after, further]
    · by_cases nearer : place < before
      · simp [after, further, nearer]
      · have same : before = place := by omega
        simp [after, same, addTo_list, Attempt.value]

def expectedWords : List String → String
  | [s] => s
  | expected => "one of " ++ ", ".intercalate expected

theorem textOf_str (s : String) : textOf (.str s) = pure s := by
  funext σ
  simp only [textOf, Store.snapshot, Store.snapshotTo, Store.snapshotWith, Datum.text]
  rfl

theorem snapshot_list (σ : Store) (vs : List Value) : σ.snapshot (.list vs) = .list (vs.map σ.snapshot) := by
  have all : ∀ later, σ.snapshotAll later [] vs = vs.map (σ.snapshotWith later [] none) := by
    intro later
    induction vs with
    | nil => rfl
    | cons v vs ih => rw [Store.snapshotAll, ih, List.map_cons]
  exact congrArg Datum.list (all _)

theorem joinWith_strs (between : String) (texts : List String) :
    joinWith between (.list (texts.map .str)) = pure (between.intercalate texts) := by
  have items : itemsOf (.list (texts.map .str)) = pure (texts.map .str) := rfl
  have all : texts.filterMap some = texts := List.filterMap_some
  unfold joinWith
  rw [items]
  simp [List.filterMap_map, Function.comp_def, all]

theorem expectedText_strs (expected : List String) (h : expected ≠ []) :
    expectedText (.list (expected.map .str)) = pure (expectedWords expected) := by
  have length : lengthOf (.list (expected.map .str)) = pure (expected.length : Int) := by
    rw [← List.length_map (f := Value.str)]
    rfl
  unfold expectedText expectedOf
  cases expected with
  | nil => exact absurd rfl h
  | cons s rest =>
    cases rest with
    | nil => exact textOf_str s
    | cons t rest =>
      have several : ¬ ((s :: t :: rest).length : Int) = 1 := by
        simp only [List.length_cons]
        omega
      simp only [length, pure_bind, several, if_false, joinWith_strs, textOf_str, expectedWords]

/-- What was expected, in words, where the empty list is written as nothing. -/
theorem expectedText_texts (expected : List String) :
    expectedText (.list (expected.map .str)) = pure (expectedWords expected) := by
  cases expected with
  | nil => exact textOf_str "one of "
  | cons s rest => exact expectedText_strs (s :: rest) (by simp)

/-! ### Behaviours that run nothing -/

/-- The value that a group of a match gives. -/
def Regex.Found.groupValue (found : Regex.Found) (group : Nat) : Value :=
  match found.group group with
  | some cs => .ofChars cs
  | none => .none

/-- Whether a pattern is for texts and has the group that is asked for. -/
def Regex.answers (r : Regex) (group : Nat) : Bool := !r.isBytes && decide (group ≤ r.groupCount)

/-- A pattern of characters answers for the groups that it has. -/
theorem Regex.answers_iff {r : Regex} {group : Nat} :
    r.answers group = true ↔ r.isBytes = false ∧ group ≤ r.groupCount := by
  simp [Regex.answers]

/-- What a behaviour that runs no parser and calls no function makes of a text at an index. -/
def Behaviour.leaf? (text : List Char) (i : Nat) : Behaviour Value → Option Attempt
  | .anyChar => some <| match text[i]? with
    | some c => .matched (i + 1) (.ofChar c)
    | none => .missed i ["any character"]
  | .rest => some (.matched text.length (.ofChars (text.drop i)))
  | .eof => some (if i < text.length then .missed i ["EOF"] else .matched i .none)
  | .index => some (.matched i (.int i))
  | .lineColumnIndex =>
    let place := Text.position text (some i)
    some (.matched i (.lineColumn (.int i) (.int place.1) (.int place.2)))
  | .succeed v => some (.matched i v)
  | .fail d => some (.missed i [d])
  | .string literal => some <|
    if literal.toList.isPrefixOf (text.drop i) then
      .matched (i + literal.toList.length) (.str literal)
    else .missed i ["'" ++ literal ++ "'"]
  | .regex r group =>
    if r.answers group then some <| match Regex.matchStart? r (text.drop i) with
      | some found => .matched (i + found.length) (found.groupValue group)
      | none => .missed i [r.shown]
    else none
  | _ => none

/-- How a pattern ends where it is a leaf. -/
theorem Behaviour.leaf?_regex {r : Regex} {group i : Nat} {text : List Char} {a : Attempt}
    (h : Behaviour.leaf? text i (.regex r group) = some a) : r.answers group = true ∧
      a = match Regex.matchStart? r (text.drop i) with
        | some found => .matched (i + found.length) (found.groupValue group)
        | none => .missed i [r.shown] := by
  by_cases answers : r.answers group = true
  · simp only [Behaviour.leaf?, if_pos answers] at h
    exact ⟨answers, (Option.some.inj h).symm⟩
  · simp only [Behaviour.leaf?, if_neg answers, reduceCtorEq] at h

/-- Such a behaviour only computes its attempt. -/
theorem behave_leaf (m : Machine) {b : Behaviour Value} {s : String} {i : Nat} {a : Attempt} (env : Value)
    (inside : i ≤ s.toList.length) (h : b.leaf? s.toList i = some a) :
    behave m b (.str s) (.int i) env = pure a.value := by
  have upTo : (i : Int) ≤ s.toList.length := by omega
  have left : sliceOf (.str s) (.int i) .none = pure (.ofChars (s.toList.drop i)) := by
    rw [sliceOf_str]
    simp [Slice.between, Slice.position_ofNat inside]
  cases b with
  | anyChar =>
    obtain rfl := Option.some.inj h
    simp only [behave, Behave.anyChar, lengthOf_str, atMost_int, pure_bind, decide_eq_true_eq]
    cases there : s.toList[i]? with
    | none =>
      have past : (s.toList.length : Int) ≤ i := by
        have := List.getElem?_eq_none_iff.mp there
        omega
      simp only [if_pos past]
      rfl
    | some c =>
      have before : ¬ (s.toList.length : Int) ≤ i := by
        have := (List.getElem?_eq_some_iff.mp there).1
        omega
      have item := itemOf_str ((Slice.item?_ofNat s.toList i).trans there)
      simp only [if_neg before, addTo_int, item, pure_bind]
      rfl
  | rest =>
    obtain rfl := Option.some.inj h
    simp only [behave, Behave.rest, lengthOf_str, left, pure_bind]
    rfl
  | eof =>
    obtain rfl := Option.some.inj h
    simp only [behave, Behave.eof, lengthOf_str, lessThan_int, pure_bind, decide_eq_true_eq]
    by_cases more : i < s.toList.length
    · have more' : (i : Int) < s.toList.length := by omega
      simp only [if_pos more, if_pos more']
      rfl
    · have more' : ¬ (i : Int) < s.toList.length := by omega
      simp only [if_neg more, if_neg more']
      rfl
  | index =>
    obtain rfl := Option.some.inj h
    rfl
  | lineColumnIndex =>
    obtain rfl := Option.some.inj h
    rfl
  | succeed v =>
    obtain rfl := Option.some.inj h
    rfl
  | fail d =>
    obtain rfl := Option.some.inj h
    rfl
  | string literal =>
    obtain rfl := Option.some.inj h
    have asked : Behave.holdsAt (.str s) literal (.int i) =
        pure (literal.toList.isPrefixOf (s.toList.drop i)) := by
      have read : Behave.holdsAt (.str s) literal (.int i) =
          pure (Slice.hasAt s.toList literal.toList i) := rfl
      rw [read]
      simp [Slice.hasAt, upTo, Slice.dropFrom_ofNat _ inside]
    simp only [behave, Behave.string, asked, addTo_int, pure_bind]
    split <;> rfl
  | regex r group =>
    obtain ⟨answers, rfl⟩ := Behaviour.leaf?_regex h
    obtain ⟨isText, known⟩ := Regex.answers_iff.mp answers
    simp only [behave, Behave.regex, left, pure_bind, Value.ofChars, String.toList_ofList, isText]
    cases Regex.matchStart? r (s.toList.drop i) with
    | none => rfl
    | some found =>
      simp only [addTo_int, pure_bind, Behave.groupOf, if_neg (Nat.not_lt.mpr known)]
      rfl
  | _ => exact absurd h (by simp [Behaviour.leaf?])

/-- A pattern of bytes refuses every text. -/
theorem behave_bytes (m : Machine) {s : String} {i : Int} (env : Value) {r : Regex} {group : Nat} {σ : Store}
    (bytes : r.isBytes = true) :
    behave m (.regex r group) (.str s) (.int i) env σ = .error (.raised (.error .wrongType)) σ := by
  simp only [behave, Behave.regex, sliceOf_str, pure_bind, Value.ofChars, bytes]
  rfl

/-! ### Rules for behaviours made of parts -/

/-- An evaluation that ends with the result of an attempt, or with a fault. -/
def Tries (x : Eval Value) (σ : Store) (post : Attempt → Store → Prop)
    (fault : Fault → Store → Prop) : Prop :=
  Ends x σ (fun v τ => ∃ a : Attempt, v = a.value ∧ post a τ) fault

section Rules

variable {m : Machine} {σ : Store} {text env i : Value} {post : Attempt → Store → Prop}
  {fault : Fault → Store → Prop}

theorem tries_pure {a : Attempt} (h : post a σ) : Tries (pure a.value) σ post fault := ⟨a, rfl, h⟩

/-- An attempt may be followed by anything that ends as it should from there. -/
theorem Tries.bind {β : Type} {x : Eval Value} {f : Value → Eval β} {next : β → Store → Prop}
    (h : Tries x σ post fault) (hf : ∀ a τ, post a τ → Ends (f a.value) τ next fault) :
    Ends (x >>= f) σ next fault := by
  refine Ends.bind h ?_
  rintro v τ ⟨a, rfl, ha⟩
  exact hf a τ ha

theorem Tries.mono {x : Eval Value} {post' : Attempt → Store → Prop}
    {fault' : Fault → Store → Prop} (h : Tries x σ post fault) (hp : ∀ a τ, post a τ → post' a τ)
    (hf : ∀ e τ, fault e τ → fault' e τ) : Tries x σ post' fault' :=
  Ends.mono h (fun _ τ ⟨a, same, ha⟩ => ⟨a, same, hp a τ ha⟩) hf

theorem Tries.imp {x : Eval Value} {post' : Attempt → Store → Prop} (h : Tries x σ post fault)
    (hp : ∀ a τ, post a τ → post' a τ) : Tries x σ post' fault := h.mono hp fun _ _ gaveUp => gaveUp

/-- What went before does not show in a failure that follows it. -/
def Passive (previous : Value) : Prop :=
  ∀ place expected, 0 ≤ place →
    mergeOver (missed place expected).value previous = pure (missed place expected).value

theorem passive_none : Passive .none := fun _ _ _ => rfl

theorem passive_matched (stop : Int) (v : Value) : Passive (matched stop v).value :=
  fun _ _ h => mergeOver_missed_success (Value.result?_success _ _) rfl h

theorem tries_sequence_nil {values : List Value} {previous : Value} {n : Int}
    (h : post (matched n (.list values)) σ) :
    Tries (Behave.sequenceFrom m text env [] previous values (.int n)) σ post fault := by
  have merged := mergeOver_matched n (.list values) previous
  unfold Behave.sequenceFrom
  exact merged ▸ tries_pure h

/-- A sequence goes on where its first part matched, and fails where it failed. -/
theorem tries_sequence_cons {p : ParserId} {ps : List ParserId} {values : List Value}
    {previous : Value} (passive : Passive previous)
    (h : Tries (m.run p text i env) σ (fun a τ => match a with
      | .matched j v => Tries (Behave.sequenceFrom m text env ps (matched j v).value (values ++ [v])
        (.int j)) τ post fault
      | .missed k expected => 0 ≤ k ∧ post (missed k expected) τ) fault) :
    Tries (Behave.sequenceFrom m text env (p :: ps) previous values i) σ post fault := by
  unfold Behave.sequenceFrom
  refine Tries.bind h fun a τ ha => ?_
  cases a with
  | matched j v =>
    simp only [mergeOver_matched, resultOf_matched, truthy_bool, pure_bind, if_true]
    exact ha
  | missed k expected =>
    simp only [passive k expected ha.1, resultOf_missed, truthy_bool, pure_bind, Bool.false_eq_true,
      if_false]
    exact tries_pure ha.2

theorem tries_alternative_nil {place : Int} {expected : List String}
    (h : post (missed place expected) σ) :
    Tries (Behave.alternativeFrom m text i env [] (failureValue (some (place, expected)))) σ post
      fault := tries_pure h

/-- A choice ends with its first success, and keeps a failure to merge it with the next one. -/
theorem tries_alternative_cons {p : ParserId} {ps : List ParserId}
    {earlier : Option (Int × List String)}
    (h : Tries (m.run p text i env) σ (fun a τ => match a with
      | .matched j v => post (matched j v) τ
      | .missed k expected => Tries (Behave.alternativeFrom m text i env ps
        (failureValue (some (after k expected earlier)))) τ post fault) fault) :
    Tries (Behave.alternativeFrom m text i env (p :: ps) (failureValue earlier)) σ post fault := by
  unfold Behave.alternativeFrom
  refine Tries.bind h fun a τ ha => ?_
  cases a with
  | matched j v =>
    simp only [mergeOver_matched, resultOf_matched, truthy_bool, pure_bind, if_true]
    exact tries_pure ha
  | missed k expected =>
    simp only [mergeOver_missed, pure_bind] at ha ⊢
    generalize after k expected earlier = failure at ha ⊢
    obtain ⟨place, wanted⟩ := failure
    have parts : resultOf (failureValue (some (place, wanted))) = _ := resultOf_missed place wanted
    simp only [parts, truthy_bool, pure_bind, Bool.false_eq_true, if_false]
    exact ha

/-- One more round that has to succeed. -/
theorem ends_requiredRounds_succ {item : ParserId} {n : Nat} {values : List Value} {previous : Value}
    {next : Behave.Progress → Store → Prop} (passive : Passive previous)
    (h : Tries (m.run item text i env) σ (fun a τ => match a with
      | .matched j v => Ends (Behave.requiredRounds m item text env n (matched j v).value
        (values ++ [v]) (.int j)) τ next fault
      | .missed k expected => 0 ≤ k ∧ next (.failed (missed k expected).value) τ) fault) :
    Ends (Behave.requiredRounds m item text env (n + 1) previous values i) σ next fault := by
  unfold Behave.requiredRounds
  refine Tries.bind h fun a τ ha => ?_
  cases a with
  | matched j v =>
    simp only [mergeOver_matched, resultOf_matched, truthy_bool, pure_bind, if_true]
    exact ha
  | missed k expected =>
    simp only [passive k expected ha.1, resultOf_missed, truthy_bool, pure_bind, Bool.false_eq_true,
      if_false]
    exact ha.2

/-- One more round that may succeed: the first failure ends the repetition. -/
theorem ends_optionalRounds_succ {item : ParserId} {n : Nat} {values : List Value}
    {next : Bool × Value × List Value → Store → Prop}
    (h : Tries (m.run item text i env) σ (fun a τ => match a with
      | .matched j v => Ends (Behave.optionalRounds m item text env n (values ++ [v]) (.int j)) τ
        next fault
      | .missed _ _ => next (true, i, values) τ) fault) :
    Ends (Behave.optionalRounds m item text env (n + 1) values i) σ next fault := by
  unfold Behave.optionalRounds
  refine Tries.bind h fun a τ ha => ?_
  cases a with
  | matched j v =>
    simp only [resultOf_matched, truthy_bool, pure_bind, if_true]
    exact ha
  | missed k expected =>
    simp only [resultOf_missed, truthy_bool, pure_bind, Bool.false_eq_true, if_false]
    exact ha

/-- A predicate is asked about the character at the index, if there is one. -/
theorem tries_testChar {s : String} {n : Nat} {predicate : Value} {d : String}
    (there : ∀ c, s.toList[n]? = some c → Ends (m.call predicate [.ofChar c, env]) σ (fun v τ =>
      post (if (τ.view v).isTruthy then matched (n + 1) (.ofChar c)
        else missed n [d]) τ) fault)
    (past : s.toList[n]? = none → post (missed n [d]) σ) :
    Tries (Behave.testChar m predicate d (.str s) (.int n) env) σ post fault := by
  unfold Behave.testChar Behave.accepts
  simp only [lengthOf_str, lessThan_int, pure_bind, decide_eq_true_eq]
  cases found : s.toList[n]? with
  | none =>
    have outside : ¬ (n : Int) < s.toList.length := by
      have := List.getElem?_eq_none_iff.mp found
      omega
    simp only [if_neg outside, pure_bind, Bool.false_eq_true, if_false]
    exact tries_pure (a := missed n [d]) (past found)
  | some c =>
    have inside : (n : Int) < s.toList.length := by
      have := (List.getElem?_eq_some_iff.mp found).1
      omega
    have item := itemOf_str ((Slice.item?_ofNat s.toList n).trans found)
    simp only [if_pos inside, item, addTo_int, pure_bind, bind_assoc]
    refine Ends.bind (there c found) fun v τ hv => ?_
    have asked : truthy v τ = .ok (τ.view v).isTruthy τ := rfl
    refine Ends.bind (P := fun b υ => b = (τ.view v).isTruthy ∧ υ = τ)
      (Ends.of_eq_ok asked ⟨rfl, rfl⟩) ?_
    rintro b υ ⟨rfl, rfl⟩
    split
    · next yes =>
      rw [if_pos yes] at hv
      exact tries_pure hv
    · next no =>
      rw [if_neg no] at hv
      exact tries_pure hv

/-- The function gets the value once it has an identity. -/
theorem tries_transform {inner : ParserId} {f : Value}
    (h : Tries (m.run inner text i env) σ (fun a τ => match a with
      | .matched j v => Ends (m.share v) τ (fun w υ => Ends (m.call f [w, env]) υ
        (fun r ω => post (matched j r) ω) fault) fault
      | .missed k expected => post (missed k expected) τ) fault) :
    Tries (Behave.transform m inner f text i env) σ post fault := by
  unfold Behave.transform
  refine Tries.bind h fun a τ ha => ?_
  cases a with
  | matched j v =>
    simp only [resultOf_matched, truthy_bool, pure_bind, if_true]
    refine Ends.bind ha fun w υ hw => Ends.bind hw fun r ω hr => ?_
    exact tries_pure (a := matched j r) hr
  | missed k expected =>
    simp only [resultOf_missed, truthy_bool, pure_bind, Bool.false_eq_true, if_false]
    exact tries_pure ha

/-- The forbidden parser is tried first.  What it expected must not be empty, since it is shown. -/
theorem tries_exclude {allowed forbidden : ParserId} {n : Int}
    (h : Tries (m.run forbidden text (.int n) env) σ (fun f τ => match f with
      | .matched _ v => post (missed n ["something that is not '" ++ (τ.snapshot v).text ++ "'"]) τ
      | .missed _ unwanted => unwanted ≠ [] ∧ Tries (m.run allowed text (.int n) env) τ
        (fun a υ => match a with
          | .matched j v => post (matched j v) υ
          | .missed _ wanted => wanted ≠ [] ∧ post (missed n
            [expectedWords wanted ++ " (except " ++ expectedWords unwanted ++ ")"]) υ) fault) fault) :
    Tries (Behave.exclude m allowed forbidden text (.int n) env) σ post fault := by
  unfold Behave.exclude
  refine Tries.bind h fun f τ hf => ?_
  cases f with
  | matched j v =>
    simp only [resultOf_matched, truthy_bool, pure_bind, if_true]
    have shows : textOf v τ = .ok (τ.snapshot v).text τ := rfl
    refine Ends.bind (P := fun s υ => s = (τ.snapshot v).text ∧ υ = τ)
      (Ends.of_eq_ok shows ⟨rfl, rfl⟩) ?_
    rintro s υ ⟨rfl, rfl⟩
    exact tries_pure (a := missed n ["something that is not '" ++ (υ.snapshot v).text ++ "'"]) hf
  | missed k unwanted =>
    simp only [resultOf_missed, truthy_bool, pure_bind, Bool.false_eq_true, if_false]
    refine Tries.bind hf.2 fun a υ ha => ?_
    cases a with
    | matched j v =>
      simp only [resultOf_matched, truthy_bool, pure_bind, if_true]
      exact tries_pure ha
    | missed k' wanted =>
      simp only [resultOf_missed, truthy_bool, expectedText_strs _ ha.1, expectedText_strs _ hf.1,
        pure_bind, Bool.false_eq_true, if_false]
      exact tries_pure (a := missed n
        [expectedWords wanted ++ " (except " ++ expectedWords unwanted ++ ")"]) ha.2

/-- A description takes the place of what was expected. -/
theorem tries_describe {inner : ParserId} {d : String}
    (h : Tries (m.run inner text i env) σ (fun a τ => match a with
      | .matched j v => post (matched j v) τ
      | .missed k _ => post (missed k [d]) τ) fault) :
    Tries (Behave.describe m inner d text i env) σ post fault := by
  unfold Behave.describe
  refine Tries.bind h fun a τ ha => ?_
  cases a with
  | matched j v =>
    simp only [resultOf_matched, truthy_bool, pure_bind, if_true]
    exact tries_pure ha
  | missed k expected =>
    simp only [resultOf_missed, truthy_bool, pure_bind, Bool.false_eq_true, if_false]
    exact tries_pure (a := missed k [d]) ha

/-- A mark takes exactly three values apart. -/
theorem tries_mark {framed : ParserId}
    (h : Tries (m.run framed text i env) σ (fun a τ => match a with
      | .matched j v => ∃ start inner stop, v = .list [start, inner, stop] ∧
        post (matched j (.mark start inner stop)) τ
      | .missed k expected => post (missed k expected) τ) fault) :
    Tries (Behave.mark m framed text i env) σ post fault := by
  unfold Behave.mark
  refine Tries.bind h fun a τ ha => ?_
  cases a with
  | matched j v =>
    obtain ⟨start, inner, stop, rfl, ha⟩ := ha
    have three : Behave.threeOf (.list [start, inner, stop]) = pure (start, inner, stop) := rfl
    simp only [resultOf_matched, truthy_bool, three, pure_bind, if_true]
    exact tries_pure (a := matched j (.mark start inner stop)) ha
  | missed k expected =>
    simp only [resultOf_missed, truthy_bool, pure_bind, Bool.false_eq_true, if_false]
    exact tries_pure ha

/-- The error that says that a function was given something else than a parser. -/
def notParser (function : String) (σ : Store) (v : Value) : Fault :=
  .raised (.error (.malformedGrammar
    ("partser." ++ function ++ ": not a " ++ "parser" ++ ": " ++ (σ.snapshot v).literal)))

/-- A parser of the store is let through, and nothing else. -/
theorem ends_parserOf {function : String} {v : Value} {next : ParserId → Store → Prop}
    (isOne : ∀ id, v = .parser id → id < σ.parsers.size → next id σ)
    (isNone : σ.isParser v = false → fault (notParser function σ v) σ) :
    Ends (Grammar.parserOf function v) σ next fault := by
  refine Ends.bind (P := fun b τ => b = σ.isParser v ∧ τ = σ) ⟨rfl, rfl⟩ ?_
  rintro b τ ⟨rfl, rfl⟩
  cases known : τ.isParser v with
  | false =>
    have refused : require function "parser" v false τ = .error (notParser function τ v) τ := rfl
    refine Ends.bind (P := fun _ _ => False) ?_ fun _ _ impossible => impossible.elim
    simp only [Ends, refused]
    exact isNone known
  | true =>
    cases v with
    | parser id => exact isOne id rfl (by simpa [Store.isParser] using known)
    | _ => exact absurd known (by simp [Store.isParser])

/-- The parser that the function returns is run in its place. -/
theorem tries_deferredLookup {resolve : Value} {name : String}
    (h : Ends (m.call resolve [env]) σ (fun found τ =>
      (∀ id, found = .parser id → id < τ.parsers.size → Tries (m.run id text i env) τ post fault) ∧
      (τ.isParser found = false → fault (notParser ("deferred_lookup(" ++ name ++ ")") τ found) τ))
      fault) :
    Tries (Behave.deferredLookup m resolve name text i env) σ post fault := by
  refine Ends.bind h fun found τ hf => ?_
  exact Ends.bind (P := fun id υ => Tries (m.run id text i env) υ post fault)
    (ends_parserOf hf.1 hf.2) fun id υ hid => hid

def chainName (σ : Store) (decide : Value) : String :=
  "chain(" ++ (decide.functionName?.getD (σ.snapshot decide).text) ++ ")"

/-- What comes first is shared with the function, and the parser that it returns goes on from there. -/
theorem tries_chain {first : ParserId} {decide : Value} (hs : m.share = Value.share)
    (h : Tries (m.run first text i env) σ (fun a τ => match a with
      | .matched j v => Ends (m.call decide [(v.identify τ.nextObject).1, env])
        { τ with nextObject := (v.identify τ.nextObject).2 + 1 } (fun found υ =>
          (∀ id, found = .parser id → id < υ.parsers.size →
            Tries (m.run id text (.int j) env) υ
              (fun a ω => (∀ k expected, a = missed k expected → 0 ≤ k) ∧ post a ω) fault) ∧
          (υ.isParser found = false → fault (notParser (chainName υ decide) υ found) υ)) fault
      | .missed k expected => post (missed k expected) τ) fault) :
    Tries (Behave.chain m first decide text i env) σ post fault := by
  unfold Behave.chain
  refine Tries.bind h fun a τ ha => ?_
  cases a with
  | matched j v =>
    simp only [resultOf_matched, truthy_bool, pure_bind, if_true, hs] at ha ⊢
    generalize hw : (v.identify τ.nextObject).1 = w at ha
    generalize hn : (v.identify τ.nextObject).2 = n at ha
    have shared : (matched j v).value.share τ =
        .ok (.object n (.result (.bool true) (.int j) w)) { τ with nextObject := n + 1 } := by
      rw [← hw, ← hn]
      rfl
    refine Ends.bind (P := fun r υ => r = .object n (.result (.bool true) (.int j) w) ∧
      υ = { τ with nextObject := n + 1 }) (Ends.of_eq_ok shared ⟨rfl, rfl⟩) ?_
    rintro r υ ⟨rfl, rfl⟩
    have parts : resultOf (.object n (.result (.bool true) (.int j) w)) =
        pure ⟨.bool true, .int j, w⟩ := rfl
    simp only [parts, pure_bind]
    refine Ends.bind ha fun found υ hf => ?_
    have last : ∀ id ω, Tries (m.run id text (.int j) env) ω
        (fun a ω => (∀ k expected, a = missed k expected → 0 ≤ k) ∧ post a ω) fault →
        Tries (do
          let outcome ← m.run id text (.int j) env
          mergeOver outcome (.object n (.result (.bool true) (.int j) w))) ω post fault := by
      intro id ω hid
      refine Tries.bind hid fun a υ' hlast => ?_
      cases a with
      | matched k u =>
        rw [mergeOver_matched]
        exact tries_pure hlast.2
      | missed k expected =>
        have success : (Value.object n (.result (.bool true) (.int j) w)).result? =
            some ⟨.bool true, .int j, w⟩ := rfl
        rw [mergeOver_missed_success success rfl (hlast.1 k expected rfl)]
        exact tries_pure hlast.2
    have rest : ∀ name, "chain(" ++ name ++ ")" = chainName υ decide → Tries (do
        let id ← Grammar.parserOf ("chain(" ++ name ++ ")") found
        let outcome ← m.run id text (.int j) env
        mergeOver outcome (.object n (.result (.bool true) (.int j) w))) υ post fault := by
      intro name same
      rw [same]
      exact Ends.bind (P := fun id ω => Tries (m.run id text (.int j) env) ω
        (fun a ω => (∀ k expected, a = missed k expected → 0 ≤ k) ∧ post a ω) fault)
        (ends_parserOf hf.1 hf.2) fun id ω hid => last id ω hid
    cases known : decide.functionName? with
    | some name => exact rest name (by rw [chainName, known]; rfl)
    | none =>
      have shows : textOf decide υ = .ok (υ.snapshot decide).text υ := rfl
      refine Ends.bind (P := fun name ω => name = (υ.snapshot decide).text ∧ ω = υ)
        (Ends.of_eq_ok shows ⟨rfl, rfl⟩) ?_
      rintro name ω ⟨rfl, rfl⟩
      exact rest _ (by rw [chainName, known]; rfl)
  | missed k expected =>
    simp only [resultOf_missed, truthy_bool, pure_bind, Bool.false_eq_true, if_false]
    exact tries_pure ha

end Rules

end Rebind
