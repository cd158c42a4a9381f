import Rebind.Regex.Letters
/-!
# Matching by backtracking

A pattern is matched at the start of a text.  Every node is given what remains to be matched after
it as a continuation, so the first way through the whole pattern, in the order of its branches, is
the one that is found.  A repetition never runs its body again from where the previous round
started, so it ends.
-/
namespace Rebind.Regex

/-- How far a match has come: the position and the extent of every group that took part. -/
structure Progress where
  offset : Nat
  groups : List (Nat × Nat × Nat)
  deriving Repr, Inhabited

/-- What remains to be matched. -/
abbrev Rest := Progress → Option Progress

def Progress.group? (p : Progress) (index : Nat) : Option (Nat × Nat) :=
  p.groups.lookup index

/-- Records the extent of a group in place of an earlier one. -/
def Progress.record (p : Progress) (index start : Nat) : Progress :=
  { p with groups := (index, start, p.offset) :: p.groups.filter (·.1 != index) }

def step (text : Array Char) (ok : Char → Bool) (p : Progress) (rest : Rest) : Option Progress :=
  match text[p.offset]? with
  | some c => if ok c then rest { p with offset := p.offset + 1 } else none
  | none => none

/-- Steps over a run of characters, letter by letter. -/
def stepOver (text : Array Char) (flags : Flags) : List Char → Progress → Rest → Option Progress
  | [], p, rest => rest p
  | c :: cs, p, rest => step text (sameFolded flags c) p (fun q => stepOver text flags cs q rest)

/-- Whether a position condition holds.  In an empty text there is neither a boundary nor an
interior. -/
def Position.holds (text : Array Char) (flags : Flags) (i : Nat) : Position → Bool
  | .textStart => i = 0
  | .textEnd => i = text.size
  | .lineStart => i = 0 || (flags.multiline && text[i - 1]? = some '\n')
  | .lineEnd =>
    i = text.size || (text[i]? = some '\n' && (flags.multiline || i + 1 = text.size))
  | .boundary => text.size != 0 && sides
  | .interior => text.size != 0 && !sides
where
  isWord (j : Nat) : Bool := (text[j]?).any (Category.word.holds flags.ascii)
  sides : Bool := (i != 0 && isWord (i - 1)) != isWord i

/-- Rounds of a repetition that takes as much as it can.  `last` is where the previous round
started. -/
def roundsGreedy (body : Progress → Rest → Option Progress) (least : Nat) (most : Option Nat)
    (rest : Rest) : Nat → Nat → Option Nat → Progress → Option Progress
  | 0, _, _, _ => none
  | fuel + 1, count, last, p =>
    let again := fun (_ : Unit) =>
      body p (roundsGreedy body least most rest fuel (count + 1) (some p.offset))
    if count < least then again ()
    else if most.all (count < ·) && last != some p.offset then
      match again () with
      | some q => some q
      | none => rest p
    else rest p

/-- Rounds of a repetition that takes as little as it can. -/
def roundsLazy (body : Progress → Rest → Option Progress) (least : Nat) (most : Option Nat)
    (rest : Rest) : Nat → Nat → Option Nat → Progress → Option Progress
  | 0, _, _, _ => none
  | fuel + 1, count, last, p =>
    let again := fun (_ : Unit) =>
      body p (roundsLazy body least most rest fuel (count + 1) (some p.offset))
    if count < least then again ()
    else match rest p with
      | some q => some q
      | none => if most.all (count < ·) && last != some p.offset then again () else none

mutual

def Node.run (text : Array Char) : Node → Flags → Progress → Rest → Option Progress
  | .char c, flags, p, rest => step text (sameLetter flags c) p rest
  | .anyChar, flags, p, rest => step text (fun c => flags.dotAll || c != '\n') p rest
  | .oneOf negated items, flags, p, rest =>
    step text (fun c => classCovers flags items c != negated) p rest
  | .position q, flags, p, rest => if q.holds text flags p.offset then rest p else none
  | .sequence parts, flags, p, rest => Node.runAll text parts flags p rest
  | .choice branches, flags, p, rest => Node.runFirst text branches flags p rest
  | .capture index body, flags, p, rest =>
    Node.run text body flags p (fun q => rest (q.record index p.offset))
  | .scoped inner body, _, p, rest => Node.run text body inner p rest
  | .plain body, flags, p, rest => Node.run text body flags p rest
  | .atomic body, flags, p, rest => (Node.run text body flags p some).bind rest
  | .repeated least most greed body, flags, p, rest =>
    let fuel := least + (text.size - p.offset) + 3
    let round := fun q next => Node.run text body flags q next
    match greed with
    | .greedy => roundsGreedy round least most rest fuel 0 none p
    | .lazy => roundsLazy round least most rest fuel 0 none p
    | .possessive => (roundsGreedy round least most some fuel 0 none p).bind rest
  | .ahead negated body, flags, p, rest =>
    match Node.run text body flags p some with
    | some q => if negated then none else rest { q with offset := p.offset }
    | none => if negated then rest p else none
  | .behind negated width body, flags, p, rest =>
    let found :=
      if p.offset < width then none
      else Node.run text body flags { p with offset := p.offset - width } some
    match found with
    | some q => if negated then none else rest { q with offset := p.offset }
    | none => if negated then rest p else none
  | .backreference index, flags, p, rest =>
    match p.group? index with
    | some (start, stop) => stepOver text flags (text.extract start stop).toList p rest
    | none => none
  | .conditional index yes no, flags, p, rest =>
    if (p.group? index).isSome then Node.run text yes flags p rest
    else Node.run text no flags p rest

def Node.runAll (text : Array Char) : List Node → Flags → Progress → Rest → Option Progress
  | [], _, p, rest => rest p
  | n :: ns, flags, p, rest =>
    Node.run text n flags p (fun q => Node.runAll text ns flags q rest)

/-- Matches the first branch that leads to a match of everything. -/
def Node.runFirst (text : Array Char) : List Node → Flags → Progress → Rest → Option Progress
  | [], _, _, _ => none
  | n :: ns, flags, p, rest =>
    match Node.run text n flags p rest with
    | some q => some q
    | none => Node.runFirst text ns flags p rest

end

end Rebind.Regex

namespace Rebind.Regex

/-- A match at the start of a text: how many characters it took, and the text of each group. -/
structure Found where
  length : Nat
  group : Nat → Option (List Char)

/-- Matches the pattern at the start of the text.  Group `0` is what was matched. -/
def matchStart? (r : Regex) (text : List Char) : Option Found :=
  let subject := text.toArray
  (r.root.run subject r.flags ⟨0, []⟩ some).map fun p =>
    { length := p.offset
      group := fun index =>
        if index = 0 then some (text.take p.offset)
        else (p.group? index).map fun extent =>
          (text.take extent.2).drop extent.1 }

end Rebind.Regex
