/-!
# Binary floating point numbers of sixty-four bits

A number of this format is a sign, a whole mantissa `m` and an exponent `q`, and stands for
`± m · 2 ^ q`. This module works on the bits with whole numbers only:

* `ofDecimal` – the number nearest to `d · 10 ^ e`, where a tie goes to the even mantissa;
* `shortest` – the fewest decimal digits that `ofDecimal` reads back as the same number, and of
  those the nearest to it;
* `round` – the nearest whole number, where a half goes away from zero.

How the digits are laid out as text is a `Style`: `Style.plain` never writes an exponent,
`Style.mixed` writes one for very large and very small numbers.
-/

namespace KeyLifecycle

/-- The bits of a number: one of sign, eleven of exponent, fifty-two of fraction. -/
structure Binary64 where
  bits : UInt64
  deriving DecidableEq, Repr

namespace Binary64

/-! ### The parts of a number -/

/-- Whether the sign bit is set. -/
def isNegative (x : Binary64) : Bool := 1 <<< 63 ≤ x.bits.toNat

/-- The eleven bits of exponent as they are stored. -/
def storedExponent (x : Binary64) : Nat := x.bits.toNat >>> 52 % 1 <<< 11

/-- The fifty-two bits of fraction. -/
def fraction (x : Binary64) : Nat := x.bits.toNat % 1 <<< 52

/-- Whether the number is neither infinite nor undefined. -/
def isFinite (x : Binary64) : Bool := x.storedExponent < 2047

/-- Whether the bits stand for no number at all. -/
def isNaN (x : Binary64) : Bool := x.storedExponent == 2047 && x.fraction != 0

/-- The whole mantissa; the leading bit is stored for subnormal numbers only. -/
def mantissa (x : Binary64) : Nat :=
  if x.storedExponent = 0 then x.fraction else 1 <<< 52 + x.fraction

/-- The power of two that scales the mantissa. -/
def exponent (x : Binary64) : Int :=
  if x.storedExponent = 0 then -1074 else (x.storedExponent : Int) - 1075

/-- Zero with the given sign. -/
def zero (negative : Bool) : Binary64 := ⟨if negative then 0x8000000000000000 else 0⟩

/-- The infinity of the given sign. -/
def infinity (negative : Bool) : Binary64 :=
  ⟨if negative then 0xFFF0000000000000 else 0x7FF0000000000000⟩

/-- Bits that stand for no number. -/
def undefined : Binary64 := ⟨0x7FF8000000000000⟩

/-! ### From decimal -/

/-- The whole number nearest to a quotient, a tie going to the even neighbour. -/
def divideToEven (num den : Nat) : Nat :=
  let floor := num / den
  let rest := num % den
  if 2 * rest < den then floor
  else if den < 2 * rest then floor + 1
  else if floor % 2 = 0 then floor else floor + 1

/-- A quotient of whole numbers, scaled by `2 ^ (-q)`, as numerator and denominator. -/
def scale (num den : Nat) (q : Int) : Nat × Nat :=
  if q < 0 then (num <<< (-q).toNat, den) else (num, den <<< q.toNat)

/-- The exponent at which a quotient has a mantissa of fifty-three bits, or the least there is. -/
def exponentOf (num den : Nat) : Int :=
  let guess : Int := (Nat.log2 num : Int) - Nat.log2 den - 52
  let (n, d) := scale num den guess
  let exact := if n / d < 1 <<< 52 then guess - 1 else if n / d < 1 <<< 53 then guess else guess + 1
  max exact (-1074)

/-- The number nearest to a positive quotient. A mantissa that is rounded up to `2 ^ 53` carries
over into the stored exponent. -/
def ofQuotient (negative : Bool) (num den : Nat) : Binary64 :=
  let q := exponentOf num den
  let (n, d) := scale num den q
  let m := divideToEven n d
  let stored := if m < 1 <<< 52 then m else (q + 1075).toNat <<< 52 + (m - 1 <<< 52)
  if 2047 <<< 52 ≤ stored then infinity negative
  else ⟨UInt64.ofNat (stored + if negative then 1 <<< 63 else 0)⟩

/-- A power of ten as a whole number. -/
def tenPower (k : Nat) : Nat := Nat.pow 10 k

/-- The number of decimal digits of a whole number. -/
def digitCount (n : Nat) : Nat := (Nat.toDigits 10 n).length

/-- The number nearest to `± digits · 10 ^ power`. What lies far outside the range is decided by
its magnitude alone, so that no huge power is built. -/
def ofDecimal (negative : Bool) (digits : Nat) (power : Int) : Binary64 :=
  if digits = 0 then zero negative
  else if 400 < power + digitCount digits then infinity negative
  else if power + digitCount digits < -400 then zero negative
  else if power < 0 then ofQuotient negative digits (tenPower (-power).toNat)
  else ofQuotient negative (digits * tenPower power.toNat) 1

/-! ### To decimal -/

/-- The value of a finite number without its sign, as numerator and denominator. -/
def magnitude (x : Binary64) : Nat × Nat :=
  if x.exponent < 0 then (x.mantissa, 1 <<< (-x.exponent).toNat)
  else (x.mantissa <<< x.exponent.toNat, 1)

/-- The power of ten of the leading digit of a positive quotient. -/
def leadingPower (num den : Nat) : Int :=
  if den ≤ num then (digitCount (num / den) : Int) - 1
  else -(digitCount ((den - 1) / num) : Int)

/-- Whether `c · 10 ^ k` is read back as `x`: it lies within half a step of the mantissa on either
side, ends included if the mantissa is even. Below a power of two the step is half as wide. -/
def readsBack (x : Binary64) (c : Nat) (k : Int) : Bool :=
  let m := x.mantissa
  let below := if x.fraction = 0 ∧ 1 < x.storedExponent then 4 * m - 1 else 4 * m - 2
  let above := 4 * m + 2
  let q := x.exponent - 2
  let lift (n : Nat) (twos tens : Int) : Nat := n <<< twos.toNat * tenPower tens.toNat
  let value := lift c (-q) k
  let low := lift below q (-k)
  let high := lift above q (-k)
  if m % 2 = 0 then low ≤ value && value ≤ high else low < value && value < high

/-- The best number of `count` digits that is read back, as digits and power of ten. -/
def withDigits? (x : Binary64) (count : Nat) : Option (Nat × Int) :=
  let (num, den) := x.magnitude
  let k := leadingPower num den + 1 - count
  let n := num * tenPower (-k).toNat
  let d := den * tenPower k.toNat
  let floor := n / d
  match readsBack x floor k, readsBack x (floor + 1) k with
  | true, true =>
    if 2 * (n % d) < d ∨ (2 * (n % d) = d ∧ floor % 2 = 0) then some (floor, k)
    else some (floor + 1, k)
  | true, false => some (floor, k)
  | false, true => some (floor + 1, k)
  | false, false => none

/-- Drops the zeros at the end of a number's digits. -/
def dropZeros : Nat → Nat → Int → Nat × Int
  | 0, digits, power => (digits, power)
  | fuel + 1, digits, power =>
    if digits % 10 = 0 ∧ digits ≠ 0 then dropZeros fuel (digits / 10) (power + 1)
    else (digits, power)

/-- The fewest digits that are read back, and their power of ten. -/
def shortest (x : Binary64) : Nat × Int :=
  if x.mantissa = 0 then (0, 0)
  else match (List.range' 1 17).findSome? x.withDigits? with
    | some (digits, power) => dropZeros 17 digits power
    | none => (0, 0)

/-- The nearest whole number to a finite number, a half going away from zero. -/
def round (x : Binary64) : Int :=
  let (num, den) := x.magnitude
  let n : Nat := (2 * num + den) / (2 * den)
  if x.isNegative then -n else n

/-! ### As text -/

/-- How the digits of a number are laid out. -/
structure Style where
  /-- The leading digit's powers of ten that are written without an exponent. -/
  positional : Int → Bool
  /-- Whether a whole number keeps a point and a zero. -/
  keepsPoint : Bool

/-- Never an exponent, and no point where there is no fraction. -/
def Style.plain : Style := ⟨fun _ => true, false⟩

/-- An exponent from `10 ^ 16` on and below `10 ^ (-5)`; a whole number keeps its point. -/
def Style.mixed : Style := ⟨fun p => decide (-5 ≤ p ∧ p < 16), true⟩

/-- Digits with the point in its place. -/
def positionalText (keepsPoint : Bool) (digits : Nat) (power : Int) : String :=
  let cs := Nat.toDigits 10 digits
  if 0 ≤ power then
    String.ofList (cs ++ List.replicate (if digits = 0 then 0 else power.toNat) '0') ++
      (if keepsPoint then ".0" else "")
  else
    let places := (-power).toNat
    let padded := List.replicate (places + 1 - cs.length) '0' ++ cs
    String.ofList (padded.take (padded.length - places)) ++ "." ++
      String.ofList (padded.drop (padded.length - places))

/-- One digit before the point, and an exponent with its sign. -/
def exponentText (digits : Nat) (power : Int) : String :=
  let cs := Nat.toDigits 10 digits
  let e := power + (cs.length : Int) - 1
  let places := String.ofList (Nat.toDigits 10 e.natAbs)
  String.ofList (cs.take 1) ++
    (if cs.length = 1 then "" else "." ++ String.ofList (cs.drop 1)) ++
    "e" ++ (if e < 0 then "-" else "+") ++ places

/-- The text of a number in a style. -/
def render (style : Style) (x : Binary64) : String :=
  let sign := if x.isNegative then "-" else ""
  if x.isNaN then "NaN"
  else if !x.isFinite then sign ++ "inf"
  else
    let (digits, power) := x.shortest
    let leading := power + (digitCount digits : Int) - 1
    sign ++ if style.positional leading then positionalText style.keepsPoint digits power
      else exponentText digits power

end Binary64

end KeyLifecycle
