/-!
# Terminal styling

Escape sequences that colour a text, and their removal.  A sequence is the escape character, an
opening bracket, any number of digits, semicolons and question marks, and one final letter.
-/
namespace Rebind.Ansi

def escape : Char := '\x1b'

def code (parameters : String) : String :=
  String.ofList (escape :: '[' :: parameters.toList ++ ['m'])

def reset : String := code "0"

/-- A text between a style and the reset; an empty text stays empty. -/
def styled (style s : String) : String :=
  if s.isEmpty then s else style ++ s ++ reset

/-- Whether a character may stand between the bracket and the final letter. -/
def isParameter (c : Char) : Bool :=
  c.isDigit || c = ';' || c = '?'

/-- What follows the sequence whose parameters start here, if they end in a letter. -/
def afterParameters? : List Char → Option (List Char)
  | [] => none
  | c :: rest =>
    if isParameter c then afterParameters? rest
    else if c.isAlpha then some rest
    else none

/-- What follows the sequence that starts here, if one does. -/
def afterSequence? : List Char → Option (List Char)
  | '\x1b' :: '[' :: rest => afterParameters? rest
  | _ => none

theorem length_afterParameters? {cs rest : List Char} (h : afterParameters? cs = some rest) :
    rest.length < cs.length := by
  induction cs with
  | nil => simp [afterParameters?] at h
  | cons c cs ih =>
    unfold afterParameters? at h
    split at h
    · exact Nat.lt_trans (ih h) (by simp)
    · split at h
      · cases h; simp
      · cases h

theorem length_afterSequence? {cs rest : List Char} (h : afterSequence? cs = some rest) :
    rest.length < cs.length := by
  unfold afterSequence? at h
  split at h
  · have := length_afterParameters? h
    simp only [List.length_cons]
    omega
  · cases h

/-- The characters that remain when every sequence is removed, the leftmost first. -/
def stripChars (cs : List Char) : List Char :=
  match h : afterSequence? cs with
  | some rest =>
    have := length_afterSequence? h
    stripChars rest
  | none =>
    match cs with
    | [] => []
    | c :: rest => c :: stripChars rest
termination_by cs.length

def strip (s : String) : String :=
  String.ofList (stripChars s.toList)

end Rebind.Ansi
