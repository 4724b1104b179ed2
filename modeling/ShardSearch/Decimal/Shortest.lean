import ShardSearch.Decimal.Rounding

/-!
The shortest decimal that reads back. Of the decimals with one digit, two digits and so on, only
the two neighbours of a number on the grid of that many digits can be nearest to it, and the first
grid with a neighbour that is rounded to the number gives its digits: the nearer neighbour where
both are, and on a tie the one that the caller's `Tie` names.
-/

set_option autoImplicit false

namespace ShardSearch.Decimal

inductive Tie where
  | up
  | even
deriving DecidableEq

/-- The decimal `digits · 10 ^ place`. -/
structure Numeral where
  digits : Nat
  place : Int
deriving DecidableEq

/-- Of the neighbours `low` and `low + 1` of `numerator / denominator`, the nearer one. -/
def nearerNeighbour (tie : Tie) (numerator denominator low : Nat) : Nat :=
  match compare (2 * numerator) ((2 * low + 1) * denominator) with
  | .lt => low
  | .gt => low + 1
  | .eq => match tie with
    | .up => low + 1
    | .even => low + low % 2

/-- The numerator of a finite magnitude as a multiple of `2 ^ (-1074)`. -/
def multipleOfLeast (magnitude : Nat) : Nat :=
  let shift := magnitude / Binary64.fractionSpan - 1
  (magnitude - shift * Binary64.fractionSpan) * Nat.pow 2 shift

/-- A positive finite magnitude as a ratio in units of `10 ^ place`. -/
def ratioAt (magnitude : Nat) (place : Int) : Nat × Nat :=
  if 0 ≤ place then (multipleOfLeast magnitude, Binary64.leastReciprocal * Nat.pow 10 place.toNat)
  else (multipleOfLeast magnitude * Nat.pow 10 (-place).toNat, Binary64.leastReciprocal)

/-- The neighbour of a ratio that passes a test, and of two such neighbours the nearer one. -/
def passingNeighbour? (tie : Tie) (ratio : Nat × Nat) (test : Nat → Bool) : Option Nat :=
  let low := ratio.1 / ratio.2
  if test low then
    if test (low + 1) then some (nearerNeighbour tie ratio.1 ratio.2 low) else some low
  else if test (low + 1) then some (low + 1) else none

/-- The neighbour of a magnitude on the grid of multiples of `10 ^ place` that reads back. -/
def neighbour? (tie : Tie) (magnitude : Nat) (place : Int) : Option Numeral :=
  (passingNeighbour? tie (ratioAt magnitude place) fun digits ↦
    Binary64.decimalMagnitude digits place == magnitude).map fun digits ↦ ⟨digits, place⟩

/-- The place of the leading digit of a positive finite magnitude: every one of them is at least
`10 ^ (-400)`. -/
def leadingPlace (magnitude : Nat) : Int :=
  let shifted := multipleOfLeast magnitude * Nat.pow 10 400 / Binary64.leastReciprocal
  (Binary64.decimalLength shifted : Int) - 401

/-- The shortest decimal that is rounded to a positive finite magnitude. Seventeen digits always
suffice. -/
def shortest (tie : Tie) (magnitude : Nat) : Numeral :=
  let leading := leadingPlace magnitude
  ((List.range 17).findSome? fun (more : Nat) ↦
    neighbour? tie magnitude (leading - (more : Int))).getD ⟨0, 0⟩

end ShardSearch.Decimal
