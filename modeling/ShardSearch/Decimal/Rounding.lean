import ShardSearch.Decimal.Binary64

/-!
Rounding to double precision. A positive ratio is measured in units of the last place of the
doubles around it, rounded to a whole number of them with ties to even, and so becomes a
magnitude; a ratio too large for a finite double becomes infinite. Decimals and integers are
rounded as the ratios that they are.
-/

set_option autoImplicit false

namespace ShardSearch.Decimal

/-- The natural nearest to `numerator / denominator`, the even one of two. -/
def nearestEven (numerator denominator : Nat) : Nat :=
  let quotient := numerator / denominator
  let twice := 2 * (numerator % denominator)
  if denominator < twice || (twice == denominator && quotient % 2 == 1) then quotient + 1
  else quotient

namespace Binary64

/-- The reciprocal of the least positive double. -/
def leastReciprocal : Nat := Nat.pow 2 1074

/-- The magnitude nearest to `numerator / denominator`. The doubles of one binary exponent lie
`2 ^ shift` least positive doubles apart. -/
def nearestMagnitude (numerator denominator : Nat) : Nat :=
  let scaled := numerator * leastReciprocal
  let shift := Nat.log2 (scaled / denominator) - 52
  min infinity (shift * fractionSpan + nearestEven scaled (denominator * Nat.pow 2 shift))

theorem nearestMagnitude_le (numerator denominator : Nat) :
    nearestMagnitude numerator denominator ≤ infinity :=
  Nat.min_le_left _ _

def ofRatio (negative : Bool) (numerator denominator : Nat) : Binary64 :=
  ⟨negative, nearestMagnitude numerator denominator,
    Nat.lt_of_le_of_lt (nearestMagnitude_le _ _) (by decide)⟩

def ofInt (n : Int) : Binary64 := ofRatio (decide (n < 0)) n.natAbs 1

def decimalLength (n : Nat) : Nat := (Nat.toDigits 10 n).length

/-- The magnitude nearest to `digits · 10 ^ place`. Every decimal of more than 330 places before
the point is beyond the finite doubles, and every one that starts more than 330 places after it is
nearer to zero than to any other double, so no greater power of ten is computed. -/
def decimalMagnitude (digits : Nat) (place : Int) : Nat :=
  if digits = 0 then 0
  else if 330 < place then infinity
  else if place + decimalLength digits < -330 then 0
  else if 0 ≤ place then nearestMagnitude (digits * Nat.pow 10 place.toNat) 1
  else nearestMagnitude digits (Nat.pow 10 (-place).toNat)

theorem decimalMagnitude_le (digits : Nat) (place : Int) :
    decimalMagnitude digits place ≤ infinity := by
  unfold decimalMagnitude
  split
  · exact Nat.zero_le _
  split
  · exact Nat.le_refl _
  split
  · exact Nat.zero_le _
  split <;> exact nearestMagnitude_le _ _

/-- The number nearest to `digits · 10 ^ place`, or to its opposite. -/
def ofDecimal (negative : Bool) (digits : Nat) (place : Int) : Binary64 :=
  ⟨negative, decimalMagnitude digits place,
    Nat.lt_of_le_of_lt (decimalMagnitude_le _ _) (by decide)⟩

end Binary64

end ShardSearch.Decimal
