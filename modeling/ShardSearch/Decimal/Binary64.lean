/-!
Double-precision numbers as signs and magnitudes. The magnitude of a number is its exponent and
fraction read as one natural, so magnitudes are ordered as the numbers are; `infinity` is the
magnitude of the infinite numbers, and greater ones are NaN.

`before` and `atMost` are the numeric comparisons, false on NaN and blind to the sign of zero.
`totalCompare` compares by `rank` instead, which puts the negative zero before the positive one and
gives every NaN a place, so it orders all numbers.
-/

set_option autoImplicit false

namespace ShardSearch.Decimal

structure Binary64 where
  negative : Bool
  magnitude : Nat
  magnitude_lt : magnitude < Nat.pow 2 63
deriving DecidableEq

namespace Binary64

/-- The number of values of the fraction. -/
def fractionSpan : Nat := Nat.pow 2 52

def infinity : Nat := 0x7FF * fractionSpan

instance : Inhabited Binary64 := ⟨⟨false, 0, by decide⟩⟩

def zero : Binary64 := ⟨false, 0, by decide⟩

def nan : Binary64 := ⟨false, infinity + fractionSpan / 2, by decide⟩

def infinite (negative : Bool) : Binary64 := ⟨negative, infinity, by decide⟩

def isNaN (x : Binary64) : Bool := infinity < x.magnitude

def isFinite (x : Binary64) : Bool := x.magnitude < infinity

def isZero (x : Binary64) : Bool := x.magnitude == 0

/-- A number that is ordered as `x` is, both zeros being zero. -/
def signed (x : Binary64) : Int := if x.negative then -(x.magnitude : Int) else x.magnitude

def before (x y : Binary64) : Bool := !x.isNaN && !y.isNaN && x.signed < y.signed

def atMost (x y : Binary64) : Bool := !x.isNaN && !y.isNaN && x.signed ≤ y.signed

/-- The place of `x` in the total order. -/
def rank (x : Binary64) : Int := if x.negative then -(x.magnitude : Int) - 1 else x.magnitude

def totalCompare (x y : Binary64) : Ordering := compare x.rank y.rank

theorem rank_injective {x y : Binary64} (h : x.rank = y.rank) : x = y := by
  obtain ⟨nx, mx, hx⟩ := x
  obtain ⟨ny, my, hy⟩ := y
  cases nx <;> cases ny <;> simp [rank] at h ⊢ <;> omega

theorem totalCompare_eq_iff {x y : Binary64} : totalCompare x y = .eq ↔ x = y := by
  constructor
  · intro h
    exact rank_injective (Int.compare_eq_eq.mp h)
  · rintro rfl
    exact Int.compare_eq_eq.mpr rfl

theorem totalCompare_swap (x y : Binary64) : (totalCompare x y).swap = totalCompare y x := by
  unfold totalCompare
  rcases Int.lt_trichotomy x.rank y.rank with h | h | h
  · rw [Int.compare_eq_lt.mpr h, Int.compare_eq_gt.mpr h]; rfl
  · rw [Int.compare_eq_eq.mpr h, Int.compare_eq_eq.mpr h.symm]; rfl
  · rw [Int.compare_eq_gt.mpr h, Int.compare_eq_lt.mpr h]; rfl

end Binary64

end ShardSearch.Decimal
