/-!
# Signed offsets into a sequence

An offset counts from the front of a sequence, or from its end when it is negative.  Slices clamp
every offset into the sequence and so never fail; a single item either exists or does not.
-/
namespace Rebind.Slice

variable {α : Type}

/-- The position that a slice offset names in a sequence of length `n`, always between `0` and
`n`. -/
def position (n : Nat) (i : Int) : Nat :=
  if i < 0 then (i + n).toNat else min i.toNat n

def dropFrom (xs : List α) (i : Int) : List α :=
  xs.drop (position xs.length i)

/-- What lies between two offsets; an absent offset stands for the end on its side. -/
def between (xs : List α) (lo hi : Option Int) : List α :=
  let stop := (hi.map (position xs.length)).getD xs.length
  let start := (lo.map (position xs.length)).getD 0
  (xs.take stop).drop start

/-- The item at an offset, if the sequence has one there. -/
def item? (xs : List α) (i : Int) : Option α :=
  if i < 0 then
    if i + xs.length < 0 then none else xs[(i + xs.length).toNat]?
  else xs[i.toNat]?

/-- Whether `part` stands at the offset.  Past the end nothing does, not even the empty part. -/
def hasAt [BEq α] (xs part : List α) (i : Int) : Bool :=
  decide (i ≤ xs.length) && part.isPrefixOf (dropFrom xs i)

@[simp] theorem position_ofNat {n k : Nat} (h : k ≤ n) : position n (k : Int) = k := by
  unfold position
  split <;> omega

theorem item?_ofNat (xs : List α) (k : Nat) : item? xs (k : Int) = xs[k]? := by
  unfold item?
  split
  · omega
  · simp

theorem dropFrom_ofNat (xs : List α) {k : Nat} (h : k ≤ xs.length) :
    dropFrom xs (k : Int) = xs.drop k := by
  simp [dropFrom, position_ofNat h]

end Rebind.Slice
