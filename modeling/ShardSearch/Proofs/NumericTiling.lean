import Mathlib.Data.List.Perm.Basic
import ShardSearch.Proofs.IndexSegments
import ShardSearch.Proofs.NumericManifest

/-!
Numeric conditions tile the known values. A comparison and the opposite one, or a range with what is
below and above it, are tests of which every value meets just one (`Tiles`). Whatever tests tile the
known values of a field, what they find together is what all these values are listed under, no
pointer more or less (`perm_found_of_tiles`). The tiles meet exactly at the bounds: both zeros are
one bound, and repeated values count as often as they are known. NaN meets no test, so it has to be
kept out of bounds and values.
-/

set_option autoImplicit false

namespace ShardSearch

open Decimal (Binary64)

/-- Whether a value meets a numeric test. -/
def Test.meets : Test → Binary64 → Bool
  | keyword _, _ => false
  | compare op bound, value => op.holds value bound
  | range first last, value => first.atMost value && value.atMost last
  | deferred _ _, _ => false

/-- Of the tests, a value meets just one. -/
def Tiles (tests : List Test) (value : Binary64) : Prop := tests.countP (·.meets value) = 1

/-! ### Values and their tests -/

section Values

variable {value low high : Binary64}

theorem Decimal.Binary64.before_iff (hlow : low.isNaN = false) (hhigh : high.isNaN = false) :
    low.before high = true ↔ low.signed < high.signed := by
  simp [before, hlow, hhigh]

theorem Decimal.Binary64.atMost_iff (hlow : low.isNaN = false) (hhigh : high.isNaN = false) :
    low.atMost high = true ↔ low.signed ≤ high.signed := by
  simp [atMost, hlow, hhigh]

theorem tiles_greater_atMost (hvalue : value.isNaN = false) (hlow : low.isNaN = false) :
    Tiles [.compare .greater low, .compare .atMost low] value := by
  simp only [Tiles, Test.meets, Comparison.holds, List.countP_cons, List.countP_nil,
    Binary64.before_iff hlow hvalue, Binary64.atMost_iff hvalue hlow]
  split_ifs <;> omega

theorem tiles_atLeast_less (hvalue : value.isNaN = false) (hlow : low.isNaN = false) :
    Tiles [.compare .atLeast low, .compare .less low] value := by
  simp only [Tiles, Test.meets, Comparison.holds, List.countP_cons, List.countP_nil,
    Binary64.before_iff hvalue hlow, Binary64.atMost_iff hlow hvalue]
  split_ifs <;> omega

theorem tiles_less_range_greater (hvalue : value.isNaN = false) (hlow : low.isNaN = false)
    (hhigh : high.isNaN = false) (hle : low.atMost high = true) :
    Tiles [.compare .less low, .range low high, .compare .greater high] value := by
  rw [Binary64.atMost_iff hlow hhigh] at hle
  simp only [Tiles, Test.meets, Comparison.holds, List.countP_cons, List.countP_nil,
    Bool.and_eq_true, Binary64.before_iff hvalue hlow, Binary64.before_iff hhigh hvalue,
    Binary64.atMost_iff hlow hvalue, Binary64.atMost_iff hvalue hhigh]
  split_ifs <;> omega

/-- Nothing is in a range whose bounds are in the wrong order. -/
theorem meets_range_eq_false (hback : high.before low = true) :
    (Test.range low high).meets value = false := by
  rw [Bool.eq_false_iff]
  intro hmeets
  simp only [Test.meets, Binary64.atMost, Binary64.before, Bool.and_eq_true, Bool.not_eq_true',
    decide_eq_true_eq] at hmeets hback
  omega

/-- A value is among those that meet the tests as often as it is known, for each test that it
meets. -/
theorem count_flatMap_filter (tests : List Test) (values : List Binary64) (value : Binary64) :
    (tests.flatMap fun test ↦ values.filter test.meets).count value =
      tests.countP (·.meets value) * values.count value := by
  induction tests with
  | nil => simp
  | cons test rest ih =>
    rw [List.flatMap_cons, List.count_append, ih, List.countP_cons, Nat.add_mul, Nat.add_comm]
    congr 1
    by_cases hmeets : test.meets value = true
    · rw [List.count_filter hmeets, if_pos hmeets, Nat.one_mul]
    · have hnot : value ∉ values.filter test.meets :=
        fun hmem ↦ hmeets (List.mem_filter.mp hmem).2
      rw [List.count_eq_zero_of_not_mem hnot, if_neg hmeets, Nat.zero_mul]

/-- Tests that tile some values divide them up. -/
theorem perm_flatMap_filter {tests : List Test} {values : List Binary64}
    (htiles : ∀ value ∈ values, Tiles tests value) :
    (tests.flatMap fun test ↦ values.filter test.meets).Perm values := by
  rw [List.perm_iff_count]
  intro value
  rw [count_flatMap_filter]
  by_cases hvalue : value ∈ values
  · rw [htiles value hvalue, Nat.one_mul]
  · rw [List.count_eq_zero_of_not_mem hvalue, Nat.mul_zero]

end Values

/-! ### What tiling tests find -/

/-- Two loops over lists may change places. -/
theorem perm_flatMap_comm {α β γ : Type} (xs : List α) (ys : List β) (f : α → β → List γ) :
    (xs.flatMap fun x ↦ ys.flatMap fun y ↦ f x y).Perm
      (ys.flatMap fun y ↦ xs.flatMap fun x ↦ f x y) := by
  induction xs with
  | nil => simp
  | cons x rest ih => exact (ih.append_left _).trans (List.flatMap_append_perm ys _ _)

namespace Index

variable {c : Catalog} {network : String → Option Json} {field : Field} {negated : Bool}

theorem keys_of_isNumeric {test : Test} (h : test.isNumeric = true) (field : Field) :
    keys c field test = ((c.numericValues field).filter test.meets).map (·.plain) := by
  cases test with
  | keyword term => cases h
  | compare op bound => rfl
  | range first last => rfl
  | deferred kind text => cases h

theorem ne_freeText_of_mem_lookupFields {on : Field} (h : on ∈ lookupFields field) :
    on ≠ .freeText := by
  unfold lookupFields at h
  split at h
  · exact ne_freeText_of_mem_textFields h
  · next hfield =>
    rw [List.mem_singleton.mp h]
    exact hfield

/-- What all the known values of a field are listed under, each looked up as a keyword. -/
def foundUnderValues (c : Catalog) (network : String → Option Json) (field : Field) :
    List Pointer :=
  (lookupFields field).flatMap fun on ↦ (c.numericValues on).flatMap fun value ↦
    found c network ⟨on, .keyword value.plain, false⟩

theorem found_of_isNumeric {test : Test} (h : test.isNumeric = true) :
    found c network ⟨field, test, negated⟩ = (lookupFields field).flatMap fun on ↦
      ((c.numericValues on).filter test.meets).flatMap fun value ↦
        found c network ⟨on, .keyword value.plain, false⟩ := by
  rw [found_eq]
  refine List.flatMap_congr fun on hon ↦ ?_
  simp only [keys_of_isNumeric h, List.flatMap_map,
    found_keyword (ne_freeText_of_mem_lookupFields hon)]

/-- Numeric tests that tile the known values of a field find together what the values are listed
under. -/
theorem perm_found_of_tiles (c : Catalog) (network : String → Option Json) (field : Field)
    (negated : Bool) (tests : List Test)
    (hnumeric : ∀ test ∈ tests, test.isNumeric = true)
    (htiles : ∀ on ∈ lookupFields field, ∀ value ∈ c.numericValues on, Tiles tests value) :
    (tests.flatMap fun test ↦ found c network ⟨field, test, negated⟩).Perm
      (foundUnderValues c network field) := by
  have hfound : (tests.flatMap fun test ↦ found c network ⟨field, test, negated⟩) =
      tests.flatMap fun test ↦ (lookupFields field).flatMap fun on ↦
        ((c.numericValues on).filter test.meets).flatMap fun value ↦
          found c network ⟨on, .keyword value.plain, false⟩ :=
    List.flatMap_congr fun test htest ↦ found_of_isNumeric (hnumeric test htest)
  rw [hfound, foundUnderValues]
  -- With the fields outside, the tests divide up the values of one field at a time.
  refine (perm_flatMap_comm _ _ _).trans (List.Perm.flatMap_left _ fun on hon ↦ ?_)
  rw [← List.flatMap_assoc]
  exact (perm_flatMap_filter (htiles on hon)).flatMap_right _

/-- Over known values that are numbers, what lies above a bound and what does not, what lies below
it and what does not, and what lies below, in and above a range, make up the same: what all known
values of the field are listed under, each pointer as often. A range whose bounds are in the wrong
order finds nothing. -/
theorem found_tiled (c : Catalog) (network : String → Option Json) (field : Field)
    (negated : Bool) (low high : Binary64)
    (hvalues : ∀ on, ∀ value ∈ c.numericValues on, value.isNaN = false)
    (hlow : low.isNaN = false) (hhigh : high.isNaN = false) :
    (found c network ⟨field, .compare .greater low, negated⟩ ++
        found c network ⟨field, .compare .atMost low, negated⟩).Perm
      (foundUnderValues c network field) ∧
    (found c network ⟨field, .compare .atLeast low, negated⟩ ++
        found c network ⟨field, .compare .less low, negated⟩).Perm
      (foundUnderValues c network field) ∧
    (low.atMost high = true →
      (found c network ⟨field, .compare .less low, negated⟩ ++
          found c network ⟨field, .range low high, negated⟩ ++
          found c network ⟨field, .compare .greater high, negated⟩).Perm
        (foundUnderValues c network field)) ∧
    (high.before low = true → found c network ⟨field, .range low high, negated⟩ = []) := by
  refine ⟨?_, ?_, fun hle ↦ ?_, fun hback ↦ ?_⟩
  · have hperm := perm_found_of_tiles c network field negated
      [.compare .greater low, .compare .atMost low] (by simp [Test.isNumeric])
      fun on _ value hvalue ↦ tiles_greater_atMost (hvalues on value hvalue) hlow
    simpa only [List.flatMap_cons, List.flatMap_nil, List.append_nil] using hperm
  · have hperm := perm_found_of_tiles c network field negated
      [.compare .atLeast low, .compare .less low] (by simp [Test.isNumeric])
      fun on _ value hvalue ↦ tiles_atLeast_less (hvalues on value hvalue) hlow
    simpa only [List.flatMap_cons, List.flatMap_nil, List.append_nil] using hperm
  · have hperm := perm_found_of_tiles c network field negated
      [.compare .less low, .range low high, .compare .greater high] (by simp [Test.isNumeric])
      fun on _ value hvalue ↦
        tiles_less_range_greater (hvalues on value hvalue) hlow hhigh hle
    simpa only [List.flatMap_cons, List.flatMap_nil, List.append_nil, List.append_assoc]
      using hperm
  · have hnone : ∀ on, (c.numericValues on).filter (Test.range low high).meets = [] :=
      fun on ↦ List.filter_eq_nil_iff.mpr fun value _ ↦ by simp [meets_range_eq_false hback]
    rw [found_of_isNumeric rfl]
    simp only [hnone, List.flatMap_nil, List.flatMap_eq_nil_iff, implies_true]

/-- Names that are small numbers, one of them known twice, and a tag that is a negative zero. -/
def numberedCatalog : Catalog :=
  { twoCopies with
    numeric := some [("guild.name", [.ofInt 7, .zero, .ofInt 5, .ofInt 5]),
      ("profile.tag", [.ofRatio true 0 1])] }

def numberedNetwork (url : String) : Option Json :=
  if url = "r1/index/guild_name/_.json" then
    some (.object [("0", .array [.array [.number (.int 1)]]),
      ("5", .array [.array [.number (.int 2)]]), ("7", .array [.array [.number (.int 3)]])])
  else if url = "r2/index/profile_tag/-0.json" then
    some (.object [("-0", .array [.array [.number (.int 4)]])])
  else none

theorem numbered_found_tiled :
    (found numberedCatalog numberedNetwork ⟨.freeText, .range .zero (.ofInt 5), false⟩).map (·.id) =
        [1, 2, 2, 4] ∧
      (foundUnderValues numberedCatalog numberedNetwork .freeText).map (·.id) = [3, 1, 2, 2, 4] ∧
      (found numberedCatalog numberedNetwork ⟨.freeText, .compare .less .zero, false⟩ ++
          found numberedCatalog numberedNetwork ⟨.freeText, .range .zero (.ofInt 5), false⟩ ++
          found numberedCatalog numberedNetwork
            ⟨.freeText, .compare .greater (.ofInt 5), false⟩).Perm
        (foundUnderValues numberedCatalog numberedNetwork .freeText) := by
  have hvalues : ∀ on, ∀ value ∈ numberedCatalog.numericValues on, value.isNaN = false := by
    intro on
    cases on <;> decide +kernel
  obtain ⟨-, -, htiled, -⟩ := found_tiled numberedCatalog numberedNetwork .freeText false
    .zero (.ofInt 5) hvalues (by decide) (by decide +kernel)
  exact ⟨by decide +kernel, by decide +kernel, htiled (by decide +kernel)⟩

end Index

end ShardSearch
