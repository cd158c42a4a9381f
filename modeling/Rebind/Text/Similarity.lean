/-!
# Similar words

How much two words have in common: the longest run of characters that both hold is matched, then what
lies before it in both and what lies after it in both, in the same way.
-/
namespace Rebind.Similarity

/-- How many characters two lists have in common at their front. -/
def commonFront : List Char → List Char → Nat
  | a :: as, b :: bs => if a = b then commonFront as bs + 1 else 0
  | _, _ => 0

/-- A run that two lists share: where it starts in each, and its length. -/
structure Run where
  left : Nat
  right : Nat
  size : Nat

/-- The longest shared run; of several the one that starts first on the left, then on the right. -/
def longestRun (a b : List Char) : Run :=
  let starts := (List.range a.length).flatMap fun i => (List.range b.length).map fun j => (i, j)
  starts.foldl (fun best s =>
    let size := commonFront (a.drop s.1) (b.drop s.2)
    if best.size < size then ⟨s.1, s.2, size⟩ else best) ⟨0, 0, 0⟩

def matched : Nat → List Char → List Char → Nat
  | 0, _, _ => 0
  | fuel + 1, a, b =>
    let run := longestRun a b
    if run.size = 0 then 0
    else run.size + matched fuel (a.take run.left) (b.take run.right)
      + matched fuel (a.drop (run.left + run.size)) (b.drop (run.right + run.size))

/-- The share of characters that are matched, in thousandths of a thousandth. -/
def score (a b : String) : Nat :=
  let size := a.length + b.length
  if size = 0 then 1000000
  else 2000000 * matched (size + 1) a.toList b.toList / size

/-- Whether one scored word goes before another: by score, then by the later in the alphabet. -/
def ahead (x y : Nat × String) : Bool := y.1 < x.1 || (x.1 = y.1 && y.2 < x.2)

/-- Up to three words of which three fifths or more match, in alphabetical order. -/
def closeTo (word : String) (words : List String) : List String :=
  let scored := (words.map fun w => (score w word, w)).filter fun s => s.1 ≥ 600000
  let best := (scored.mergeSort fun x y => !ahead y x).take 3
  (best.map (·.2)).mergeSort fun x y => !(y < x)

end Rebind.Similarity
