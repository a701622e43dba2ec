/-!
# The shortest decimal of a double

Every finite double other than zero stands for the reals that round to it: an interval around its
exact value, whose ends belong to it exactly when its significand is even.  Among the decimals in
that interval the *shortest* ones have the fewest digits, and the one that is written is the
shortest decimal closest to the exact value, the even one of two that are equally close.

Everything is computed with natural numbers.  A decimal of `n` digits is a point of the grid of
multiples of a power of ten, and if any point of that grid lies in the interval, then one of the two
next to the exact value does, so only these are tried.

A number is written positionally, with at least one digit after the point, if it is at least `1e-5`
and less than `1e16`; otherwise with an exponent, which always carries a sign: `1e-6`, `1.25e+16`.
-/

namespace AgentScript.Decimal

/-- A positive rational number. -/
structure Ratio where
  num : Nat
  den : Nat
  deriving DecidableEq, Repr, Inhabited

/-- `num * 2 ^ exponent`. -/
def Ratio.scaleTwo (num : Nat) (exponent : Int) : Ratio :=
  match exponent with
  | .ofNat e => ⟨num * Nat.pow 2 e, 1⟩
  | .negSucc e => ⟨num, Nat.pow 2 (e + 1)⟩

/-- `r / 10 ^ exponent`. -/
def Ratio.overTen (r : Ratio) (exponent : Int) : Ratio :=
  match exponent with
  | .ofNat e => ⟨r.num, r.den * Nat.pow 10 e⟩
  | .negSucc e => ⟨r.num * Nat.pow 10 (e + 1), r.den⟩

/-- A positive finite double: its exact value `significand * 2 ^ exponent`. -/
structure Binary where
  significand : Nat
  exponent : Int
  deriving DecidableEq, Repr, Inhabited

/-- Two to the power of 52: the significand of the least double of a binade. -/
def hiddenBit : Nat := 4503599627370496

/-- The exponent of the least doubles. -/
def leastExponent : Int := -1074

namespace Binary

/-- The size of a finite double; the sign is left out. -/
def ofFloat (x : Float) : Binary :=
  let bits := x.toBits.toNat
  let fraction := bits % hiddenBit
  let biased := bits / hiddenBit % 2048
  if biased = 0 then ⟨fraction, leastExponent⟩
  else ⟨hiddenBit + fraction, (biased : Int) - 1075⟩

/-- The exact value, four times as fine as the spacing of doubles. -/
def value (b : Binary) : Ratio := .scaleTwo (4 * b.significand) (b.exponent - 2)

/-- The lower end of the interval that rounds to the double. -/
def lower (b : Binary) : Ratio :=
  if b.significand = hiddenBit ∧ leastExponent < b.exponent then
    .scaleTwo (4 * b.significand - 1) (b.exponent - 2)
  else .scaleTwo (4 * b.significand - 2) (b.exponent - 2)

/-- The upper end of the interval that rounds to the double. -/
def upper (b : Binary) : Ratio := .scaleTwo (4 * b.significand + 2) (b.exponent - 2)

/-- Whether the decimal `digits * 10 ^ exponent` rounds to the double. -/
def holds (b : Binary) (digits : Nat) (exponent : Int) : Bool :=
  let low := b.lower.overTen exponent
  let high := b.upper.overTen exponent
  if b.significand % 2 = 0 then low.num ≤ digits * low.den && digits * high.den ≤ high.num
  else low.num < digits * low.den && digits * high.den < high.num

end Binary

/-- The number of digits of a natural number; zero has none. -/
def digitCount (n : Nat) : Nat := if n = 0 then 0 else (Nat.toDigits 10 n).length

/-- The exponent of the leading digit of a rational number below one: the least `j` of those from
`tried` on with `num * 10 ^ j ≥ den`, negated. -/
def leadingBelowOne (r : Ratio) : Nat → Nat → Int
  | 0, tried => -(tried : Int)
  | fuel + 1, tried =>
    if r.den ≤ r.num * Nat.pow 10 tried then -(tried : Int) else leadingBelowOne r fuel (tried + 1)

/-- The exponent of the leading digit of a positive rational number. -/
def leadingExponent (r : Ratio) : Int :=
  if r.den ≤ r.num then (digitCount (r.num / r.den) : Int) - 1
  else leadingBelowOne r (digitCount r.den + 1) 1

/-- A decimal `digits * 10 ^ exponent`. -/
structure Scientific where
  digits : Nat
  exponent : Int
  deriving DecidableEq, Repr, Inhabited

/-- The point of the grid of multiples of `10 ^ exponent` that is written for the double, if one of
the two next to its value lies in its interval. -/
def onGrid? (b : Binary) (exponent : Int) : Option Scientific :=
  let r := b.value.overTen exponent
  let below := r.num / r.den
  let rest := r.num % r.den
  let downFirst := 2 * rest < r.den || (2 * rest == r.den && below % 2 == 0)
  let (first, second) := if downFirst then (below, below + 1) else (below + 1, below)
  if b.holds first exponent then some ⟨first, exponent⟩
  else if b.holds second exponent then some ⟨second, exponent⟩
  else none

/-- Tries grids from the coarsest on. -/
def search (b : Binary) : Nat → Int → Scientific
  | 0, exponent => let r := b.value.overTen exponent; ⟨r.num / r.den, exponent⟩
  | fuel + 1, exponent =>
    match onGrid? b exponent with
    | some d => d
    | none => search b fuel (exponent - 1)

/-- The decimal that is written for a positive double. -/
def shortest (b : Binary) : Scientific := search b 17 (leadingExponent b.value)

/-! ## Layout -/

/-- Digits with the exponent of the last one, without zeros at the end. -/
def dropZeros (digits : List Char) (exponent : Int) : List Char × Int :=
  let zeros := (digits.reverse.takeWhile (· == '0')).length
  (digits.take (digits.length - zeros), exponent + zeros)

/-- Digits with the place of the point: the number of digits before it. -/
def place (digits : List Char) (point : Int) : List Char :=
  if 0 < point ∧ point ≤ 16 then
    let n := point.toNat
    if digits.length ≤ n then digits ++ List.replicate (n - digits.length) '0' ++ ['.', '0']
    else digits.take n ++ '.' :: digits.drop n
  else if -5 < point ∧ point ≤ 0 then
    '0' :: '.' :: List.replicate (-point).toNat '0' ++ digits
  else
    let e := point - 1
    let sign := if e < 0 then '-' else '+'
    let mantissa :=
      match digits with
      | [] => []
      | [d] => [d]
      | d :: ds => d :: '.' :: ds
    mantissa ++ 'e' :: sign :: Nat.toDigits 10 e.natAbs

/-- The value of the bit that holds the sign of a double. -/
def signBit : Nat := 9223372036854775808

/-- The text of a finite double; infinities and what is no number have none. -/
def render (x : Float) : Option String :=
  if x.isNaN || x.isInf then none
  else
    let minus := if signBit ≤ x.toBits.toNat then ['-'] else []
    let b := Binary.ofFloat x
    if b.significand = 0 then some (String.ofList (minus ++ ['0', '.', '0']))
    else
      let d := shortest b
      let (digits, exponent) := dropZeros (Nat.toDigits 10 d.digits) d.exponent
      some (String.ofList (minus ++ place digits (exponent + digits.length)))

end AgentScript.Decimal
