/-!
# Doubles by their bits

A finite double is `significand * 2 ^ exponent` up to sign.  This module reads the fields of the
binary format, and defines on them the operations of the program that are not arithmetic:
truncation toward zero, the test for a whole number, and the total order of the bit patterns.
-/

namespace WorkloadSynth.Double

/-! ## Fields of the format -/

/-- The sign bit.  It tells the two zeros apart. -/
def isNegative (x : Float) : Bool := x.toBits >>> 63 != 0

/-- The eleven exponent bits. -/
def exponentField (x : Float) : Nat := ((x.toBits >>> 52) &&& 0x7ff).toNat

/-- The fifty-two fraction bits. -/
def fractionField (x : Float) : Nat := (x.toBits &&& 0xfffffffffffff).toNat

/-- The bit above the fraction, `2 ^ 52`, which normal doubles have and the format leaves out. -/
def leadingBit : Nat := 0x10000000000000

/-- The whole number `m` with `|x| = m * 2 ^ exponent x`, for finite `x`. -/
def significand (x : Float) : Nat :=
  if exponentField x = 0 then fractionField x else fractionField x + leadingBit

/-- The power of two that `significand` is scaled by. -/
def exponent (x : Float) : Int := (max 1 (exponentField x) : Nat) - 1075

/-! ## Whole numbers -/

/-- Drops the fraction, toward zero.  The sign stays, also on a zero; infinities and the NaN are
their own truncation. -/
def truncate (x : Float) : Float :=
  let e := exponentField x
  if e < 1023 then Float.ofBits (x.toBits &&& 0x8000000000000000)
  else if 1075 ≤ e then x
  else
    let dropped := UInt64.ofNat (1075 - e)
    Float.ofBits ((x.toBits >>> dropped) <<< dropped)

/-- A finite number without a fraction. -/
def isWhole (x : Float) : Bool := x.isFinite && truncate x == x

/-! ## Total order -/

/-- A key whose order is the total order of doubles: by value, with `-0` before `0`. -/
def orderKey (x : Float) : UInt64 :=
  if isNegative x then ~~~ x.toBits else x.toBits ||| 0x8000000000000000

/-- At most, in the total order of doubles. -/
def totalLe (x y : Float) : Bool := orderKey x ≤ orderKey y

end WorkloadSynth.Double
