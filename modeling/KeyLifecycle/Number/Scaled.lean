import KeyLifecycle.Number.Binary64

/-!
# Numbers found in steps

A decimal number may be read in one step, with one rounding (`Binary64.ofDecimal`), or in steps: the
leading digits that fit into sixty-four bits become the nearest number, which is then multiplied or
divided by a power of ten, and each step rounds. `Binary64.scaled?` is the reading in steps, and
`Significand` holds the digits that count.
-/

namespace KeyLifecycle

namespace Binary64

/-- The number nearest to a quotient that may be zero. -/
def ofRatio (num den : Nat) : Binary64 := if num = 0 then zero false else ofQuotient false num den

/-- The product of two numbers without their signs. -/
def times (x y : Binary64) : Binary64 :=
  ofRatio (x.magnitude.1 * y.magnitude.1) (x.magnitude.2 * y.magnitude.2)

/-- The quotient of two numbers without their signs. -/
def dividedBy (x y : Binary64) : Binary64 :=
  ofRatio (x.magnitude.1 * y.magnitude.2) (x.magnitude.2 * y.magnitude.1)

/-- The greatest power of ten that is a number. -/
def greatestPower : Nat := 308

/-- The number nearest to a power of ten. -/
def tenTo (power : Nat) : Binary64 := ofDecimal false 1 power

/-- A number times a power of ten, unless it becomes infinite. A division by more than the greatest
power takes several steps; the third one finds nothing left, since no significand is that large, and
so `steps` need not be more. -/
def shifted? : Nat → Binary64 → Int → Option Binary64
  | 0, x, _ => some x
  | steps + 1, x, power =>
    if power.natAbs ≤ greatestPower then
      if 0 ≤ power then
        let product := x.times (tenTo power.natAbs)
        if product.isFinite then some product else none
      else some (x.dividedBy (tenTo power.natAbs))
    else if x.mantissa = 0 then some x
    else if 0 ≤ power then none
    else shifted? steps (x.dividedBy (tenTo greatestPower)) (power + greatestPower)

/-- The number that a significand and a power of ten stand for, found in steps. -/
def scaled? (significand : Nat) (power : Int) : Option Binary64 :=
  shifted? 3 (ofDecimal false significand 0) power

/-- A number with the other sign. -/
def negated (x : Binary64) : Binary64 :=
  ⟨UInt64.ofNat (if x.isNegative then x.bits.toNat - 1 <<< 63 else x.bits.toNat + 1 <<< 63)⟩

end Binary64

/-- The digits of a decimal number that count, and how many were left over. -/
structure Significand where
  value : Nat
  left : Nat
  deriving DecidableEq, Repr

namespace Significand

/-- Takes up digits as long as sixty-four bits hold them. -/
def extend (value : Nat) : List Char → Significand
  | [] => ⟨value, 0⟩
  | c :: rest =>
    let longer := 10 * value + (c.toNat - 48)
    if longer < UInt64.size then extend longer rest else ⟨value, rest.length + 1⟩

/-- The number of the digits before and behind a point and of a power of ten, found in steps. Digits
behind the point are taken up even where one before it found no room. -/
def number? (whole fraction : List Char) (power : Int) : Option Binary64 :=
  let before := extend 0 whole
  let all := extend before.value fraction
  Binary64.scaled? all.value (power + before.left + all.left - fraction.length)

end Significand

end KeyLifecycle
