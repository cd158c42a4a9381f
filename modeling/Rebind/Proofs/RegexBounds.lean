import Rebind.Regex.Matcher
/-!
# Matches stay within the text

Wherever a match goes, look-behind and back-references included, it hands on positions within the text.
What remains to be matched is a continuation, so this is said of the places at which the continuation
is called: whatever holds of its results there holds of the match.
-/
namespace Rebind.Regex

/-- A matcher that hands on positions within the text only. -/
def Inside (text : Array Char) (run : Progress → Rest → Option Progress) : Prop :=
  ∀ (p : Progress) (rest : Rest) (holds : Progress → Prop), p.offset ≤ text.size →
    (∀ p' q, p'.offset ≤ text.size → rest p' = some q → holds q) →
    ∀ q, run p rest = some q → holds q

variable {text : Array Char}

/-- With nothing left to match, the match itself ends within the text. -/
theorem Inside.offset_le {run : Progress → Rest → Option Progress} (h : Inside text run)
    {p q : Progress} (start : p.offset ≤ text.size) (found : run p some = some q) :
    q.offset ≤ text.size := by
  refine h p some (fun q => q.offset ≤ text.size) start ?_ q found
  intro p' q' within same
  obtain rfl := Option.some.inj same
  exact within

theorem inside_step (ok : Char → Bool) : Inside text (step text ok) := by
  intro p rest holds start hrest q found
  unfold step at found
  split at found
  · next c there =>
    have next : p.offset + 1 ≤ text.size := (Array.getElem?_eq_some_iff.mp there).1
    split at found
    · exact hrest _ q next found
    · cases found
  · cases found

/-- Steps over characters stay within the text. -/
theorem inside_stepOver (flags : Flags) (cs : List Char) :
    Inside text fun p rest => stepOver text flags cs p rest := by
  induction cs with
  | nil => exact fun p rest holds start hrest q found => hrest p q start found
  | cons c cs ih =>
    intro p rest holds start hrest q found
    refine inside_step _ p _ holds start ?_ q found
    exact fun p' q' within found' => ih p' rest holds within hrest q' found'

/-- Rounds stay within it if each round does. -/
theorem inside_roundsGreedy {body : Progress → Rest → Option Progress} (h : Inside text body)
    (least : Nat) (most : Option Nat) (fuel count : Nat) (last : Option Nat) :
    Inside text fun p rest => roundsGreedy body least most rest fuel count last p := by
  induction fuel generalizing count last with
  | zero => exact fun p rest holds start hrest q found => nomatch found
  | succ fuel ih =>
    intro p rest holds start hrest q found
    have again : ∀ q, body p (roundsGreedy body least most rest fuel (count + 1) (some p.offset)) =
        some q → holds q := fun q found =>
      h p _ holds start (fun p' q' within found' => ih _ _ p' rest holds within hrest q' found') q found
    simp only [roundsGreedy] at found
    split at found
    · exact again q found
    · split at found
      · split at found
        · next q' once =>
          obtain rfl := Option.some.inj found
          exact again _ once
        · exact hrest p q start found
      · exact hrest p q start found

theorem inside_roundsLazy {body : Progress → Rest → Option Progress} (h : Inside text body)
    (least : Nat) (most : Option Nat) (fuel count : Nat) (last : Option Nat) :
    Inside text fun p rest => roundsLazy body least most rest fuel count last p := by
  induction fuel generalizing count last with
  | zero => exact fun p rest holds start hrest q found => nomatch found
  | succ fuel ih =>
    intro p rest holds start hrest q found
    have again : ∀ q, body p (roundsLazy body least most rest fuel (count + 1) (some p.offset)) =
        some q → holds q := fun q found =>
      h p _ holds start (fun p' q' within found' => ih _ _ p' rest holds within hrest q' found') q found
    simp only [roundsLazy] at found
    split at found
    · exact again q found
    · split at found
      · next q' ended =>
        obtain rfl := Option.some.inj found
        exact hrest p _ start ended
      · split at found
        · exact again q found
        · cases found

mutual

/-- By induction on the pattern. -/
theorem Node.inside_run : ∀ (n : Node) (flags : Flags),
    Inside text fun p rest => Node.run text n flags p rest
  | .char c, flags => by
    simp only [Node.run]
    exact inside_step _
  | .anyChar, flags => by
    simp only [Node.run]
    exact inside_step _
  | .oneOf negated items, flags => by
    simp only [Node.run]
    exact inside_step _
  | .position place, flags => by
    intro p rest holds start hrest q found
    simp only [Node.run] at found
    split at found
    · exact hrest p q start found
    · cases found
  | .sequence parts, flags => by
    simp only [Node.run]
    exact Node.inside_runAll parts flags
  | .choice branches, flags => by
    simp only [Node.run]
    exact Node.inside_runFirst branches flags
  | .capture index body, flags => by
    intro p rest holds start hrest q found
    simp only [Node.run] at found
    refine Node.inside_run body flags p _ holds start ?_ q found
    exact fun p' q' within found' => hrest (p'.record index p.offset) q' within found'
  | .scoped inner body, flags => by
    simp only [Node.run]
    exact Node.inside_run body inner
  | .plain body, flags => by
    simp only [Node.run]
    exact Node.inside_run body flags
  | .atomic body, flags => by
    intro p rest holds start hrest q found
    simp only [Node.run] at found
    obtain ⟨p', once, after⟩ := Option.bind_eq_some_iff.mp found
    exact hrest p' q ((Node.inside_run body flags).offset_le start once) after
  | .repeated least most greed body, flags => by
    intro p rest holds start hrest q found
    have round := Node.inside_run body flags
    simp only [Node.run] at found
    cases greed with
    | greedy => exact inside_roundsGreedy round _ _ _ _ _ p rest holds start hrest q found
    | «lazy» => exact inside_roundsLazy round _ _ _ _ _ p rest holds start hrest q found
    | possessive =>
      obtain ⟨p', once, after⟩ := Option.bind_eq_some_iff.mp found
      exact hrest p' q ((inside_roundsGreedy round _ _ _ _ _).offset_le start once) after
  | .ahead negated body, flags => by
    intro p rest holds start hrest q found
    simp only [Node.run] at found
    split at found
    · next q' _ =>
      split at found
      · cases found
      · exact hrest ⟨p.offset, q'.groups⟩ q start found
    · split at found
      · exact hrest p q start found
      · cases found
  | .behind negated width body, flags => by
    intro p rest holds start hrest q found
    simp only [Node.run] at found
    split at found
    · next q' _ =>
      split at found
      · cases found
      · exact hrest ⟨p.offset, q'.groups⟩ q start found
    · split at found
      · exact hrest p q start found
      · cases found
  | .backreference index, flags => by
    intro p rest holds start hrest q found
    simp only [Node.run] at found
    split at found
    · exact inside_stepOver flags _ p rest holds start hrest q found
    · cases found
  | .conditional index yes no, flags => by
    intro p rest holds start hrest q found
    simp only [Node.run] at found
    split at found
    · exact Node.inside_run yes flags p rest holds start hrest q found
    · exact Node.inside_run no flags p rest holds start hrest q found

theorem Node.inside_runAll : ∀ (parts : List Node) (flags : Flags),
    Inside text fun p rest => Node.runAll text parts flags p rest
  | [], flags => by
    intro p rest holds start hrest q found
    simp only [Node.runAll] at found
    exact hrest p q start found
  | n :: ns, flags => by
    intro p rest holds start hrest q found
    simp only [Node.runAll] at found
    refine Node.inside_run n flags p _ holds start ?_ q found
    exact fun p' q' within found' => Node.inside_runAll ns flags p' rest holds within hrest q' found'

theorem Node.inside_runFirst : ∀ (branches : List Node) (flags : Flags),
    Inside text fun p rest => Node.runFirst text branches flags p rest
  | [], flags => by
    intro p rest holds start hrest q found
    simp only [Node.runFirst] at found
    cases found
  | n :: ns, flags => by
    intro p rest holds start hrest q found
    simp only [Node.runFirst] at found
    split at found
    · next q' first =>
      obtain rfl := Option.some.inj found
      exact Node.inside_run n flags p rest holds start hrest _ first
    · exact Node.inside_runFirst ns flags p rest holds start hrest q found

end

/-- A match at the start of a text is no longer than the text. -/
theorem matchStart?_length_le {r : Regex} {text : List Char} {found : Found}
    (h : matchStart? r text = some found) : found.length ≤ text.length := by
  unfold matchStart? at h
  obtain ⟨p, once, rfl⟩ := Option.map_eq_some_iff.mp h
  have inside : Inside text.toArray _ := Node.inside_run r.root r.flags
  simpa using inside.offset_le (Nat.zero_le _) once

/-- The group of number zero is what was matched. -/
theorem matchStart?_group_zero {r : Regex} {text : List Char} {found : Found}
    (h : matchStart? r text = some found) : found.group 0 = some (text.take found.length) := by
  unfold matchStart? at h
  obtain ⟨p, once, rfl⟩ := Option.map_eq_some_iff.mp h
  rfl

end Rebind.Regex
