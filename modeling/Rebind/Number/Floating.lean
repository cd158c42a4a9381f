/-!
# Floating-point numbers

Double-precision numbers with the special ones as cases of their own, so that a test for infinity
is a pattern and not a computation.  Arithmetic goes through the hardware type and comes back.
-/
namespace Rebind

/-- A double-precision number. -/
inductive Floating where
  | finite (x : Float)
  | infinite (negative : Bool)
  | undefined

namespace Floating

instance : Inhabited Floating := ⟨.undefined⟩

/-- Sorts a hardware number into its case. -/
def ofFloat (x : Float) : Floating :=
  if x.isNaN then .undefined
  else if x.isInf then .infinite (x < 0)
  else .finite x

def toFloat : Floating → Float
  | finite x => x
  | infinite negative => if negative then -1.0 / 0.0 else 1.0 / 0.0
  | undefined => 0.0 / 0.0

def ofInt (n : Int) : Floating :=
  if n.natAbs.log2 ≥ 1024 then .infinite (n < 0) else ofFloat (Float.ofInt n)

/-- The double nearest to `mantissa · 10 ^ exponent`, negated on request. -/
def ofDecimal (negative : Bool) (mantissa : Nat) (exponent : Int) : Floating :=
  let size : Int := (Nat.toDigits 10 mantissa).length + exponent
  let magnitude : Float :=
    if mantissa = 0 ∨ size < -330 then 0.0
    else if size > 310 then 1.0 / 0.0
    else Float.ofScientific mantissa (exponent < 0) exponent.natAbs
  ofFloat (if negative then -magnitude else magnitude)

def isNonzero (x : Floating) : Bool :=
  !(x.toFloat == 0.0)

end Floating

end Rebind
