/-!
# Hexadecimal digits

Numbers written with a fixed count of lower-case hexadecimal digits, and digits read back.
-/
namespace Rebind.Hex

def digit (n : Nat) : Char :=
  "0123456789abcdef".toList.getD (n % 16) '0'

/-- The lowest `width` digits of `n`, most significant first. -/
def digits : Nat → Nat → List Char
  | 0, _ => []
  | width + 1, n => digits width (n / 16) ++ [digit n]

def value? (c : Char) : Option Nat :=
  if '0' ≤ c ∧ c ≤ '9' then some (c.toNat - '0'.toNat)
  else if 'a' ≤ c ∧ c ≤ 'f' then some (c.toNat - 'a'.toNat + 10)
  else if 'A' ≤ c ∧ c ≤ 'F' then some (c.toNat - 'A'.toNat + 10)
  else none

def number? (cs : List Char) : Option Nat :=
  cs.foldl (fun n c => do return 16 * (← n) + (← value? c)) (some 0)

end Rebind.Hex
