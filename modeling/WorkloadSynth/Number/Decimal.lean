import WorkloadSynth.Number.Double

/-!
# Decimal magnitudes

`Decimal` is a whole number of units of a power of ten.  Every finite double has an exact decimal
expansion (`Decimal.ofFloat`), every decimal has a nearest double (`Decimal.toFloat`), and a decimal
is rounded to a coarser place with a stated rule for ties (`Decimal.roundTo`).
-/

namespace WorkloadSynth

/-- The magnitude `digits * 10 ^ exponent`. -/
structure Decimal where
  digits : Nat
  exponent : Int
deriving DecidableEq, Repr

/-- Where a value goes that lies exactly between two neighbours. -/
inductive Tie where
  /-- To the larger neighbour. -/
  | up
  /-- To the neighbour with an even last digit. -/
  | toEven
deriving DecidableEq, Repr

namespace Decimal

/-- How many decimal digits `n` is written with; zero has one. -/
def digitCount (n : Nat) : Nat := (Nat.toDigits 10 n).length

/-! ## Doubles -/

/-- The exact value of a finite double's magnitude: a negative power of two is a power of five of
the same negative power of ten. -/
def ofFloat (x : Float) : Decimal :=
  match Double.exponent x with
  | .ofNat q => ⟨Double.significand x * Nat.pow 2 q, 0⟩
  | .negSucc q => ⟨Double.significand x * Nat.pow 5 (q + 1), .negSucc q⟩

/-- The nearest double, a tie going to the even significand; beyond the range it is infinite. -/
def toFloat (d : Decimal) : Float :=
  match d.exponent with
  | .ofNat e => Float.ofScientific d.digits false e
  | .negSucc e => Float.ofScientific d.digits true (e + 1)

/-! ## Places -/

/-- The place of the leading digit: the value is `0.d₁d₂… * 10 ^ top`. -/
def top (d : Decimal) : Int := d.exponent + digitCount d.digits

/-- Numerator and denominator of the value counted in units of `10 ^ place`. -/
def inUnits (d : Decimal) (place : Int) : Nat × Nat :=
  if place ≤ d.exponent then (d.digits * Nat.pow 10 (d.exponent - place).toNat, 1)
  else (d.digits, Nat.pow 10 (place - d.exponent).toNat)

/-- The units of `10 ^ place` that fit below the value. -/
def floorTo (d : Decimal) (place : Int) : Nat :=
  let (num, den) := d.inUnits place
  num / den

/-- The nearest whole number of units of `10 ^ place`. -/
def roundTo (tie : Tie) (d : Decimal) (place : Int) : Nat :=
  let (num, den) := d.inUnits place
  let quotient := num / den
  match compare (2 * (num % den)) den with
  | .lt => quotient
  | .gt => quotient + 1
  | .eq =>
    match tie with
    | .up => quotient + 1
    | .toEven => quotient + quotient % 2

/-- The other neighbour of the value beside `near`, one of the two whole numbers of units around
it. -/
def otherNeighbour (d : Decimal) (place : Int) (near : Nat) : Nat :=
  let below := d.floorTo place
  if near = below then below + 1 else below

/-- Drops trailing zeros, at most `fuel` of them. -/
def stripZeros : Nat → Decimal → Decimal
  | 0, d => d
  | fuel + 1, d =>
    if d.digits ≠ 0 ∧ d.digits % 10 = 0 then stripZeros fuel ⟨d.digits / 10, d.exponent + 1⟩ else d

/-- The same value without trailing zeros. -/
def normalize (d : Decimal) : Decimal := stripZeros (digitCount d.digits) d

end Decimal

end WorkloadSynth
