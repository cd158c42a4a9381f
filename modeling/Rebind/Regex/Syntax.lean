import Rebind.Text.Quoted
/-!
# Regular expressions

The tree of a pattern.  Letters of a class, positions and repetitions are kept as they were
written; how they match is said in `Rebind.Regex.Matcher`.
-/
namespace Rebind.Regex

/-- How a pattern reads its letters. -/
structure Flags where
  ignoreCase : Bool := false
  multiline : Bool := false
  dotAll : Bool := false
  verbose : Bool := false
  ascii : Bool := false
  deriving DecidableEq, Repr, Inhabited

/-- Classes of characters that have a name. -/
inductive Category where
  | digit | space | word
  deriving DecidableEq, Repr

/-- One item between square brackets. -/
inductive ClassItem where
  | char (c : Char)
  | range (lo hi : Char)
  | category (negated : Bool) (kind : Category)
  deriving DecidableEq, Repr

/-- A condition on the current position. -/
inductive Position where
  | lineStart | lineEnd | textStart | textEnd | boundary | interior
  deriving DecidableEq, Repr

/-- Whether a repetition takes as much as it can, as little as it can, or never gives back. -/
inductive Greed where
  | greedy | lazy | possessive
  deriving DecidableEq, Repr

/-- The tree of a pattern. -/
inductive Node where
  | char (c : Char)
  | anyChar
  | oneOf (negated : Bool) (items : List ClassItem)
  | position (p : Position)
  | sequence (parts : List Node)
  | choice (branches : List Node)
  | capture (index : Nat) (body : Node)
  | scoped (flags : Flags) (body : Node)
  | plain (body : Node)
  | atomic (body : Node)
  | repeated (least : Nat) (most : Option Nat) (greed : Greed) (body : Node)
  | ahead (negated : Bool) (body : Node)
  | behind (negated : Bool) (width : Nat) (body : Node)
  | backreference (index : Nat)
  | conditional (index : Nat) (yes no : Node)
  deriving Repr, Inhabited

/-- What a pattern was compiled from.  A pattern of bytes is for bytes only. -/
inductive Source where
  | text (s : String)
  | bytes (bytes : List UInt8)
  deriving DecidableEq, Repr, Inhabited

def Source.shown : Source → String
  | text s => s
  | bytes b => Text.quotedBytes b

def Source.literal : Source → String
  | text s => Text.quoted s
  | bytes b => Text.quotedBytes b

end Rebind.Regex

namespace Rebind

theorem Regex.no_names : ∀ entry ∈ ([] : List (String × Nat)), entry.2 ≤ 0 := by simp

/-- A compiled pattern: its source, the flags in force (those it sets itself included), the number
of its groups, the names of some of them, and its tree. -/
structure Regex where
  source : Regex.Source
  flags : Regex.Flags
  groupCount : Nat
  names : List (String × Nat)
  root : Regex.Node
  /-- Names stand for groups of the pattern. -/
  named : ∀ entry ∈ names, entry.2 ≤ groupCount
  deriving Repr

instance : Inhabited Regex := ⟨⟨.text "", {}, 0, [], .sequence [], Regex.no_names⟩⟩

namespace Regex

/-- A pattern in slashes, followed by the letters of its flags. -/
def shown (r : Regex) : String :=
  "/" ++ r.source.shown ++ "/"
    ++ (if r.flags.ignoreCase then "i" else "")
    ++ (if r.flags.multiline then "m" else "")
    ++ (if r.flags.dotAll then "s" else "")
    ++ (if r.flags.verbose then "x" else "")

def isBytes (r : Regex) : Bool :=
  match r.source with
  | .text _ => false
  | .bytes _ => true

end Regex

end Rebind
