import WorkloadSynth.Number.Decimal

/-!
# Reading numbers

Two notations are read, each from a list of characters and with a stated cause when it is refused:

* whole numbers of 64 bits in a given base (`readWord`), with an optional plus sign;
* floating literals (`Literal.read`): an optional sign, then `inf`, `infinity` or `nan` in any
  case, or digits with an optional point and an optional exponent.

A literal keeps the sign of a not-a-number, which a `Float` does not carry.
-/

namespace WorkloadSynth

/-! ## Whole numbers -/

/-- Why a text is not a 64-bit whole number. -/
inductive WordFault where
  | empty
  | invalidDigit
  | overflow
deriving DecidableEq, Repr

/-- The value of a digit in a base up to sixteen. -/
def digitValue? (base : Nat) (c : Char) : Option Nat :=
  let value :=
    if '0' ≤ c ∧ c ≤ '9' then some (c.toNat - '0'.toNat)
    else if 'a' ≤ c ∧ c ≤ 'z' then some (c.toNat - 'a'.toNat + 10)
    else if 'A' ≤ c ∧ c ≤ 'Z' then some (c.toNat - 'A'.toNat + 10)
    else none
  value.filter (· < base)

/-- Reads digits from the left onto `value`.  A digit that is none is noticed before the number
grows too large, and the other way round for a digit behind that place. -/
def readDigits (base : Nat) : List Char → Nat → Except WordFault Nat
  | [], value => .ok value
  | c :: rest, value =>
    match digitValue? base c with
    | none => .error .invalidDigit
    | some d =>
      if value * base + d < UInt64.size then readDigits base rest (value * base + d)
      else .error .overflow

/-- A whole number of 64 bits in the given base.  A plus sign may lead, a minus sign may not. -/
def readWord (base : Nat) : List Char → Except WordFault UInt64
  | [] => .error .empty
  | ['+'] => .error .invalidDigit
  | '+' :: digits => (readDigits base digits 0).map UInt64.ofNat
  | digits => (readDigits base digits 0).map UInt64.ofNat

/-! ## Floating literals -/

/-- What a floating literal says. -/
inductive Literal where
  | nan (negative : Bool)
  | infinity (negative : Bool)
  | finite (negative : Bool) (magnitude : Decimal)
deriving DecidableEq, Repr

/-- Why a text is not a floating literal. -/
inductive LiteralFault where
  | empty
  | invalid
deriving DecidableEq, Repr

/-- A decimal digit. -/
def isDecimalDigit (c : Char) : Bool := '0' ≤ c && c ≤ '9'

/-- The number that a run of decimal digits denotes. -/
def digitsValue (digits : List Char) : Nat :=
  digits.foldl (fun value c => value * 10 + (c.toNat - '0'.toNat)) 0

namespace Literal

/-- Reads the exponent behind the mantissa: nothing, or `e` with an optional sign and at least one
digit. -/
def readExponent : List Char → Option Int
  | [] => some 0
  | c :: rest =>
    if c = 'e' ∨ c = 'E' then
      let (negative, digits) := match rest with
        | '-' :: ds => (true, ds)
        | '+' :: ds => (false, ds)
        | ds => (false, ds)
      if digits.isEmpty || !digits.all isDecimalDigit then none
      else some (if negative then -(digitsValue digits : Int) else digitsValue digits)
    else none

/-- Reads digits with an optional point and exponent; at least one digit is needed. -/
def readMagnitude (cs : List Char) : Option Decimal :=
  let whole := cs.takeWhile isDecimalDigit
  let (fraction, rest) := match cs.dropWhile isDecimalDigit with
    | '.' :: rest => (rest.takeWhile isDecimalDigit, rest.dropWhile isDecimalDigit)
    | rest => ([], rest)
  if whole.isEmpty && fraction.isEmpty then none
  else
    (readExponent rest).map fun e =>
      ⟨digitsValue (whole ++ fraction), e - fraction.length⟩

/-- Reads what stands behind the sign. -/
def readUnsigned (negative : Bool) (cs : List Char) : Option Literal :=
  let name := cs.map Char.toLower
  if name = ['i', 'n', 'f'] ∨ name = ['i', 'n', 'f', 'i', 'n', 'i', 't', 'y'] then
    some (.infinity negative)
  else if name = ['n', 'a', 'n'] then some (.nan negative)
  else (readMagnitude cs).map (.finite negative)

/-- Reads a floating literal. -/
def read : List Char → Except LiteralFault Literal
  | [] => .error .empty
  | cs =>
    let literal := match cs with
      | '-' :: rest => readUnsigned true rest
      | '+' :: rest => readUnsigned false rest
      | rest => readUnsigned false rest
    match literal with
    | some l => .ok l
    | none => .error .invalid

/-- The nearest double. -/
def toFloat : Literal → Float
  | .nan _ => Float.ofBits 0x7ff8000000000000
  | .infinity negative => Float.ofBits (if negative then 0xfff0000000000000 else 0x7ff0000000000000)
  | .finite negative magnitude => if negative then -magnitude.toFloat else magnitude.toFloat

/-- The bit pattern of the nearest double.  A not-a-number keeps its sign here. -/
def toBits : Literal → UInt64
  | .nan negative => if negative then 0xfff8000000000000 else 0x7ff8000000000000
  | l => l.toFloat.toBits

end Literal

end WorkloadSynth
