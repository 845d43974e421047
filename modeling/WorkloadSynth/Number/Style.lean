import WorkloadSynth.Number.Shortest

/-!
# Writing doubles

A `Style` says which decimal exponents are written positionally and how a whole number ends.
`Style.write` prints the shortest digits of a double in a style; `scientificTo` and `fixedTo` print
a fixed number of digits, correctly rounded from the exact value.  The two infinities and the NaN
are spelled `inf`, `-inf` and `NaN` everywhere.
-/

namespace WorkloadSynth

/-- How a double is laid out as text. -/
structure Style where
  /-- Which of two equally near shortest decimals is taken. -/
  tie : Tie
  /-- Is a value `0.d₁d₂… * 10 ^ top` written without an exponent? -/
  positional : Int → Bool
  /-- Does a whole number written positionally end in `.0`? -/
  wholePoint : Bool

namespace Style

/-- Always with an exponent: `1.28e2`, `0e0`. -/
def scientific : Style := ⟨.up, fun _ => false, false⟩

/-- Never with an exponent: `128`, `0.25`. -/
def plain : Style := ⟨.up, fun _ => true, false⟩

end Style

namespace Decimal

/-! ## Layout of digits -/

/-- A run of zeros. -/
def zeros (n : Nat) : String := String.ofList (List.replicate n '0')

/-- The digits with a point after the first: `1.28e2`. -/
def layScientific (digits : List Char) (top : Int) : String :=
  let mantissa := match digits with
    | [] => "0"
    | [c] => String.singleton c
    | c :: rest => String.singleton c ++ "." ++ String.ofList rest
  mantissa ++ "e" ++ toString (top - 1)

/-- The digits around a decimal point, without an exponent. -/
def layPositional (digits : List Char) (top : Int) (wholePoint : Bool) : String :=
  match top with
  | .negSucc n => "0." ++ zeros (n + 1) ++ String.ofList digits
  | .ofNat 0 => "0." ++ String.ofList digits
  | .ofNat n =>
    if digits.length ≤ n then
      String.ofList digits ++ zeros (n - digits.length) ++ (if wholePoint then ".0" else "")
    else String.ofList (digits.take n) ++ "." ++ String.ofList (digits.drop n)

/-- Prints a magnitude in a style. -/
def write (style : Style) (d : Decimal) : String :=
  let digits := Nat.toDigits 10 d.digits
  if style.positional d.top then layPositional digits d.top style.wholePoint
  else layScientific digits d.top

end Decimal

namespace Double

/-- Spells the special values, and hands a finite magnitude to `magnitude` behind its sign. -/
def spell (x : Float) (magnitude : Float → String) : String :=
  if x.isNaN then "NaN"
  else
    let sign := if isNegative x then "-" else ""
    if x.isFinite then sign ++ magnitude x else sign ++ "inf"

/-- The zero of a double, written with one digit at the units place. -/
def shortestDigits (tie : Tie) (x : Float) : Decimal :=
  if significand x = 0 then ⟨0, 0⟩ else Decimal.shortest tie x

/-- A double in its shortest digits. -/
def write (style : Style) (x : Float) : String :=
  spell x fun x => (shortestDigits style.tie x).write style

/-! ## A fixed number of digits -/

/-- The magnitude rounded to `n` significant digits, ties to even. -/
def roundSignificant (n : Nat) (x : Float) : Decimal :=
  let exact := Decimal.ofFloat x
  if exact.digits = 0 then ⟨0, 1 - n⟩
  else
    let place := exact.top - n
    let units := exact.roundTo .toEven place
    if Decimal.digitCount units ≤ n then ⟨units, place⟩ else ⟨units / 10, place + 1⟩

/-- Scientific notation with `places` digits after the point. -/
def scientificTo (places : Nat) (x : Float) : String :=
  spell x fun x =>
    let d := roundSignificant (places + 1) x
    let digits := Nat.toDigits 10 d.digits
    let padded := List.replicate (places + 1 - digits.length) '0' ++ digits
    Decimal.layScientific padded (d.exponent + (places + 1 : Nat))

/-- Positional notation with `places` digits after the point, ties to even.  A value that rounds to
zero is written without a sign. -/
def fixedTo (places : Nat) (x : Float) : String :=
  if x.isFinite then
    let units := (Decimal.ofFloat x).roundTo .toEven (-(places : Int))
    let sign := if isNegative x && units != 0 then "-" else ""
    let fraction := toString (units % Nat.pow 10 places)
    let point :=
      if places = 0 then "" else "." ++ Decimal.zeros (places - fraction.length) ++ fraction
    sign ++ toString (units / Nat.pow 10 places) ++ point
  else spell x fun _ => ""

end Double

end WorkloadSynth
