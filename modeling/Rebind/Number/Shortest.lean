import Rebind.Number.Floating
/-!
# Shortest decimal text

A finite double is written with the fewest significant digits that read back as the same double,
and among those the digits nearest to it.  The search is exact: the double is a fraction, and so
are the two ends of the interval of reals that round to it.
-/
namespace Rebind.Shortest

/-- A power of two; negative exponents count as zero. -/
def twoTo (exponent : Int) : Nat := Nat.pow 2 exponent.toNat

/-- A power of ten; negative exponents count as zero. -/
def tenTo (exponent : Int) : Nat := Nat.pow 10 exponent.toNat

/-- A nonzero magnitude `mantissa · 2 ^ exponent`, and whether the next smaller double is only half
as far away as the next larger one. -/
structure Binary where
  mantissa : Nat
  exponent : Int
  narrowBelow : Bool

def Binary.ofBits (bits : UInt64) : Binary :=
  let fraction : Nat := bits.toNat % twoTo 52
  let biased : Nat := bits.toNat / twoTo 52 % twoTo 11
  if biased = 0 then ⟨fraction, -1074, false⟩
  else ⟨twoTo 52 + fraction, (biased : Int) - 1075, fraction = 0 && biased > 1⟩

/-- A fraction of natural numbers scaled by a power of ten: `top / bottom`. -/
structure Interval where
  low : Nat
  value : Nat
  high : Nat
  bottom : Nat
  closed : Bool

/-- The reals that round to the magnitude, as numerators over one denominator.  The ends belong to
it when the mantissa is even. -/
def Binary.interval (b : Binary) : Interval :=
  let up := twoTo (b.exponent - 2)
  let down := twoTo (2 - b.exponent)
  { low := (4 * b.mantissa - (if b.narrowBelow then 1 else 2)) * up
    value := 4 * b.mantissa * up
    high := (4 * b.mantissa + 2) * up
    bottom := down
    closed := b.mantissa % 2 == 0 }

def Interval.holds (v : Interval) (n : Nat) (k : Int) : Bool :=
  let point := n * tenTo k * v.bottom
  let scale := tenTo (-k)
  if v.closed then v.low * scale ≤ point && point ≤ v.high * scale
  else v.low * scale < point && point < v.high * scale

/-- The larger multiple of `10 ^ k` that does not exceed the value. -/
def Interval.floorAt (v : Interval) (k : Int) : Nat :=
  v.value * tenTo (-k) / (v.bottom * tenTo k)

/-- Whether the upper neighbour on the grid of `10 ^ k` is nearer to the value than the lower one;
a tie goes to the even neighbour. -/
def Interval.upperNearer (v : Interval) (n : Nat) (k : Int) : Bool :=
  let twice := 2 * v.value * tenTo (-k)
  let middle := (2 * n + 1) * v.bottom * tenTo k
  middle < twice || (middle == twice && n % 2 == 1)

/-- The neighbour on the grid of `10 ^ k` that reads back, the nearer one if both do. -/
def Interval.pick? (v : Interval) (k : Int) : Option Nat :=
  let n := v.floorAt k
  match v.holds n k, v.holds (n + 1) k with
  | true, true => some (if v.upperNearer n k then n + 1 else n)
  | true, false => some n
  | false, true => some (n + 1)
  | false, false => none

/-- The decimal exponent of the value: the least `e` with value below `10 ^ e`, looked for upwards
from `e`. -/
def Interval.magnitude (v : Interval) : Nat → Int → Int
  | 0, e => e
  | fuel + 1, e =>
    if v.value * tenTo (-e) < v.bottom * tenTo e then e else v.magnitude fuel (e + 1)

/-- The first grid, from coarse to fine, on which a point reads back, with that point. -/
def Interval.shortest (v : Interval) (top : Int) : Nat → Nat → Nat × Int
  | 0, count => (v.floorAt (top - count), top - count)
  | fuel + 1, count =>
    match v.pick? (top - count) with
    | some n => (n, top - count)
    | none => v.shortest top fuel (count + 1)

/-- The significant digits of a nonzero magnitude and the position of the decimal point counted
from before the first digit. -/
def digitsOf (bits : UInt64) : List Char × Int :=
  let b := Binary.ofBits bits
  let v := b.interval
  let guess : Int := ((b.mantissa.log2 : Int) + b.exponent) * 30103 / 100000 - 1
  let top := v.magnitude 5 guess
  let (n, k) := v.shortest top 17 1
  let ds := Nat.toDigits 10 n
  let kept := (ds.reverse.dropWhile (· == '0')).reverse
  (kept, ds.length + k)

/-- Digits with a decimal point: positional for points from `-3` to `16`, otherwise with an exponent of
two digits at least. -/
def layout (ds : List Char) (point : Int) : List Char :=
  let count : Int := ds.length
  if -4 < point ∧ point ≤ 16 then
    if point ≤ 0 then '0' :: '.' :: List.replicate (-point).toNat '0' ++ ds
    else if count ≤ point then ds ++ List.replicate (point - count).toNat '0' ++ ['.', '0']
    else ds.take point.toNat ++ '.' :: ds.drop point.toNat
  else
    let e := point - 1
    let body := match ds with
      | d :: rest => if rest.isEmpty then [d] else d :: '.' :: rest
      | [] => []
    let size := Nat.toDigits 10 e.natAbs
    body ++ 'e' :: (if e < 0 then '-' else '+') :: (if size.length < 2 then '0' :: size else size)

def finiteText (x : Float) : String :=
  let bits := x.toBits
  let negative := bits.toNat ≥ twoTo 63
  let magnitude := bits.toNat % twoTo 63
  let body :=
    if magnitude = 0 then ['0', '.', '0']
    else
      let (ds, point) := digitsOf (UInt64.ofNat magnitude)
      layout ds point
  String.ofList (if negative then '-' :: body else body)

end Rebind.Shortest

namespace Rebind.Floating

def text : Floating → String
  | finite x => Shortest.finiteText x
  | infinite negative => if negative then "-inf" else "inf"
  | undefined => "nan"

end Rebind.Floating
