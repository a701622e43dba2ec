import AgentScript.Json.Fault

/-!
# Numbers of a JSON text

A number is kept as it is written until somebody asks for its value: a number that is passed over
may be of any size.  Its value is an integer when it is written without fraction and exponent and
fits into 64 bits, with or without a sign; otherwise it is a double.

The double is computed, not rounded from the exact value.  The digits are gathered into a 64-bit
significand; once another digit would not fit, further digits of the integer part only raise the
exponent and further digits of the fraction are dropped.  The significand, as a double, is then
multiplied or divided by a power of ten.  So a number with more than about fifteen digits, or with
a large exponent, may come out as a neighbour of the nearest double.
-/

namespace AgentScript.Json

/-- A number as it is written.  Digits are numbers below ten. -/
structure NumberText where
  negative : Bool
  whole : List Nat
  /-- The digits after the point; empty if there is no point. -/
  fraction : List Nat
  /-- The sign (true for minus) and the digits of the exponent, if there is one. -/
  exponent : Option (Bool × List Nat)
  deriving DecidableEq, Repr, Inhabited

/-- The value of a number. -/
inductive Number where
  | integer (value : Int)
  | real (value : Float)
  deriving Repr, Inhabited

namespace NumberText

/-- Significands stay below this bound, the number of values of 64 bits. -/
def significandBound : Nat := 18446744073709551616

/-- Negative integers are at least the negative of this bound. -/
def negativeBound : Nat := 9223372036854775808

/-- Exponents are cut off at this bound, and none is read beyond it. -/
def exponentBound : Nat := 2147483648

/-- A significand and the power of ten it is multiplied with. -/
structure Scaled where
  significand : Nat
  exponent : Int
  deriving DecidableEq, Repr, Inhabited

/-- Gathers the digits of the integer part. -/
def gatherWhole (s : Scaled) : List Nat → Scaled
  | [] => s
  | d :: ds =>
    let next := s.significand * 10 + d
    if next < significandBound then gatherWhole ⟨next, s.exponent⟩ ds
    else ⟨s.significand, s.exponent + (ds.length + 1)⟩

/-- Gathers the digits of the fraction. -/
def gatherFraction (s : Scaled) : List Nat → Scaled
  | [] => s
  | d :: ds =>
    let next := s.significand * 10 + d
    if next < significandBound then gatherFraction ⟨next, s.exponent - 1⟩ ds
    else s

/-- The value of some digits. -/
def ofDigits (ds : List Nat) : Nat := ds.foldl (fun n d => n * 10 + d) 0

/-- A power of ten as a double. -/
def powerOfTen (n : Nat) : Float := Float.ofScientific 1 false n

/-- Divides by `10 ^ 308` as often as the exponent allows. -/
def scaleDown (f : Float) (n : Nat) : Float :=
  if n ≤ 308 then f / powerOfTen n
  else if f == 0 then f
  else scaleDown (f / powerOfTen 308) (n - 308)
termination_by n

/-- A significand times a power of ten, unless that is infinite. -/
def scale (significand : Nat) (exponent : Int) : Except Fault Float :=
  let f := significand.toUInt64.toFloat
  match exponent with
  | .ofNat n =>
    if n ≤ 308 then
      let product := f * powerOfTen n
      if product.isInf then .error (.malformed .numberOutOfRange) else .ok product
    else if f == 0 then .ok f
    else .error (.malformed .numberOutOfRange)
  | .negSucc n => .ok (scaleDown f (n + 1))

/-- The exponent that is left when two are added, kept within 32 bits. -/
def saturate (n : Int) : Int := max (-exponentBound) (min (exponentBound - 1) n)

/-- The size of a number that has a fraction or an exponent or too many digits. -/
def size (s : Scaled) : Option (Bool × List Nat) → Except Fault Float
  | none => scale s.significand s.exponent
  | some (minus, ds) =>
    if ofDigits ds < exponentBound then
      let e : Int := ofDigits ds
      scale s.significand (saturate (if minus then s.exponent - e else s.exponent + e))
    else if s.significand ≠ 0 && !minus then .error (.malformed .numberOutOfRange)
    else .ok 0

/-- The value of a number. -/
def value (t : NumberText) : Except Fault Number :=
  let whole := gatherWhole ⟨0, 0⟩ t.whole
  if t.fraction.isEmpty && t.exponent.isNone && whole.exponent == 0 then
    if !t.negative then .ok (.integer whole.significand)
    else if 0 < whole.significand && whole.significand ≤ negativeBound then
      .ok (.integer (-whole.significand))
    else .ok (.real (-whole.significand.toUInt64.toFloat))
  else do
    let size ← size (gatherFraction whole t.fraction) t.exponent
    return .real (if t.negative then -size else size)

end NumberText

end AgentScript.Json
