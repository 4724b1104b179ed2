import Mathlib.Data.List.TakeWhile
import ShardSearch.Proofs.QueryScan

/-!
The forms of a value. `IsRange` and `IsComparison` say by their texts alone which values are ranges
and comparisons, and with which numbers: a range is cut at its first two dots, and the bound of a
comparison is written with ASCII digits only. The parser tells values apart in the same way
(`range?_cases`, `comparison?_cases`), and it reads the bound of a comparison as all numbers are
read (`unsigned?_of_isNumeral`).
-/

set_option autoImplicit false

namespace ShardSearch

open Decimal (Binary64)

/-- A comparison sign as it is written. -/
def Comparison.sign : Comparison → List Char
  | greater => ['>']
  | atLeast => ['>', '=']
  | less => ['<']
  | atMost => ['<', '=']

namespace Query

/-! ### Ranges -/

/-- What stands before the first two dots of a text and what stands after them are finite numbers,
up to blanks. -/
def IsRange (cs : List Char) (low high : Binary64) : Prop :=
  ∃ first last, cs = first ++ ['.', '.'] ++ last ∧ ¬ ['.', '.'] <:+: first ++ ['.'] ∧
    Decimal.number? (Text.trimChars first) = some low ∧ low.isFinite = true ∧
    Decimal.number? (Text.trimChars last) = some high ∧ high.isFinite = true

theorem bounds?_eq_some_iff {cs : List Char} {low high : Binary64} :
    bounds? cs = some (low, high) ↔ IsRange cs low high := by
  have hcut : ∀ first last, Text.cutAt? ['.', '.'] cs = some (first, last) ↔
      cs = first ++ ['.', '.'] ++ last ∧ ¬ ['.', '.'] <:+: first ++ ['.'] :=
    fun first last ↦ Text.cutAt?_eq_some_iff (List.cons_ne_nil _ _)
  simp only [bounds?, Option.bind_eq_bind, Option.bind_eq_some_iff, Prod.exists, hcut,
    Option.ite_none_right_eq_some, Option.some.injEq, Prod.mk.injEq, Bool.and_eq_true, IsRange]
  constructor
  · rintro ⟨first, last, ⟨htext, hfirst⟩, low', hlow, high', hhigh, hfinite, rfl, rfl⟩
    exact ⟨first, last, htext, hfirst, hlow, hfinite.1, hhigh, hfinite.2⟩
  · rintro ⟨first, last, htext, hfirst, hlow, hfinite, hhigh, hfinite'⟩
    exact ⟨first, last, ⟨htext, hfirst⟩, low, hlow, high, hhigh, ⟨hfinite, hfinite'⟩, rfl, rfl⟩

/-- A value of a field has the form of a range. Free text has no ranges. -/
def HasRange (field : Field) (cs : List Char) : Prop :=
  field ≠ .freeText ∧ ∃ low high, IsRange cs low high

theorem range?_cases (field : Field) (cs : List Char) :
    (field ≠ .freeText ∧ ∃ low high, IsRange cs low high ∧
        range? field cs = some (.range low high)) ∨
      ¬ HasRange field cs ∧ range? field cs = none := by
  by_cases hfield : field = .freeText
  · exact .inr ⟨fun h ↦ h.1 hfield, by rw [range?, if_pos hfield]⟩
  · rw [range?, if_neg hfield]
    cases hbounds : bounds? cs with
    | some range => exact .inl ⟨hfield, range.1, range.2, bounds?_eq_some_iff.mp hbounds, rfl⟩
    | none =>
      refine .inr ⟨?_, rfl⟩
      rintro ⟨-, low, high, hrange⟩
      rw [bounds?_eq_some_iff.mpr hrange] at hbounds
      cases hbounds

/-! ### Comparisons -/

/-- ASCII digits, with or without a fraction. -/
inductive IsNumeral : List Char → Prop where
  | whole {digits : List Char} (hne : digits ≠ []) (hdigits : ∀ c ∈ digits, c.isDigit = true) :
      IsNumeral digits
  | fraction {digits places : List Char} (hne : digits ≠ [])
      (hdigits : ∀ c ∈ digits, c.isDigit = true) (hplaces : places ≠ [])
      (hall : ∀ c ∈ places, c.isDigit = true) : IsNumeral (digits ++ '.' :: places)

/-- A comparison sign, and a numeral for its bound. -/
def IsComparison (cs : List Char) (op : Comparison) (bound : Binary64) : Prop :=
  ∃ numeral, cs = op.sign ++ numeral ∧ IsNumeral numeral ∧ Decimal.number? numeral = some bound

theorem IsNumeral.head_isDigit {cs : List Char} (h : IsNumeral cs) :
    ∃ c rest, cs = c :: rest ∧ c.isDigit = true := by
  cases h with
  | whole hne hdigits =>
    obtain ⟨c, rest, rfl⟩ := List.exists_cons_of_ne_nil hne
    exact ⟨c, rest, rfl, hdigits c List.mem_cons_self⟩
  | fraction hne hdigits hplaces hall =>
    obtain ⟨c, rest, rfl⟩ := List.exists_cons_of_ne_nil hne
    exact ⟨c, _, rfl, hdigits c List.mem_cons_self⟩

/-- A text that begins with a digit has no sign and is no name of a number. -/
theorem number?_of_isDigit {c : Char} {rest : List Char} (hc : c.isDigit = true) :
    Decimal.number? (c :: rest) =
      (Decimal.decimal? (c :: rest)).map fun (digits, place) ↦ .ofDecimal false digits place := by
  have hne : ∀ other : Char, other.isDigit = false → c ≠ other := by
    rintro other hother rfl
    exact Bool.false_ne_true (hother.symm.trans hc)
  have hsign : Decimal.takeSign (c :: rest) = (false, c :: rest) := by
    unfold Decimal.takeSign
    split
    · next heq => exact absurd (List.cons.inj heq).1 (hne '-' rfl)
    · next heq => exact absurd (List.cons.inj heq).1 (hne '+' rfl)
    · rfl
  have hletter : ∀ lower upper : Char, lower.val = upper.val + 32 → lower.isDigit = false →
      upper.isDigit = false → c.toLower ≠ lower := fun lower upper hcode hlower hupper heq ↦
    (eq_of_toLower_eq heq hcode).elim (hne lower hlower) (hne upper hupper)
  have hi : c.toLower ≠ 'i' := hletter 'i' 'I' rfl rfl rfl
  have hn : c.toLower ≠ 'n' := hletter 'n' 'N' rfl rfl rfl
  simp only [Decimal.number?, hsign, List.map_cons]
  rw [if_neg, if_neg]
  · exact fun heq ↦ hn (List.cons.inj heq).1
  · rintro (heq | heq)
    · exact hi (List.cons.inj heq).1
    · exact hi (List.cons.inj heq).1

/-- Comparisons read numerals as all numbers are read. -/
theorem unsigned?_of_isNumeral {cs : List Char} (h : IsNumeral cs) :
    unsigned? cs = Decimal.number? cs := by
  obtain ⟨c, rest, hcs, hc⟩ := h.head_isDigit
  rw [hcs, number?_of_isDigit hc, ← hcs]
  cases h with
  | whole hne hdigits =>
    have htake : cs.takeWhile Char.isDigit = cs := List.takeWhile_eq_self_iff.mpr hdigits
    have hdrop : cs.dropWhile Char.isDigit = [] := List.dropWhile_eq_nil_iff.mpr hdigits
    simp [unsigned?, Decimal.decimal?, Decimal.takeFraction, Decimal.exponentPart?, htake, hdrop,
      hne]
  | @fraction digits places hne hdigits hplaces hall =>
    have htake : (digits ++ '.' :: places).takeWhile Char.isDigit = digits := by
      rw [List.takeWhile_append_of_pos hdigits, List.takeWhile_cons_of_neg (by decide),
        List.append_nil]
    have hdrop : (digits ++ '.' :: places).dropWhile Char.isDigit = '.' :: places := by
      rw [List.dropWhile_append_of_pos hdigits, List.dropWhile_cons_of_neg (by decide)]
    have htake' : places.takeWhile Char.isDigit = places := List.takeWhile_eq_self_iff.mpr hall
    have hdrop' : places.dropWhile Char.isDigit = [] := List.dropWhile_eq_nil_iff.mpr hall
    simp [unsigned?, Decimal.decimal?, Decimal.takeFraction, Decimal.exponentPart?, htake, hdrop,
      htake', hdrop', hne, hplaces]
    exact hall

theorem isNumeral_of_unsigned? {cs : List Char} {bound : Binary64}
    (h : unsigned? cs = some bound) : IsNumeral cs := by
  have hdigits : ∀ c ∈ cs.takeWhile Char.isDigit, c.isDigit = true :=
    fun c hc ↦ List.mem_takeWhile_imp hc
  have hsplit : cs.takeWhile Char.isDigit ++ cs.dropWhile Char.isDigit = cs :=
    List.takeWhile_append_dropWhile
  simp only [unsigned?] at h
  split at h
  · cases h
  · next hempty =>
    rw [List.isEmpty_iff] at hempty
    split at h
    · next hrest =>
      rw [hrest, List.append_nil] at hsplit
      exact hsplit ▸ .whole hempty hdigits
    · next places hrest =>
      split at h
      · cases h
      · next hplaces =>
        rw [Bool.or_eq_true, not_or, List.isEmpty_iff, Bool.not_eq_true', Bool.not_eq_false,
          List.all_eq_true] at hplaces
        rw [hrest] at hsplit
        exact hsplit ▸ .fraction hempty hdigits hplaces.1 hplaces.2
    · cases h

theorem sign?_append {op : Comparison} {rest : List Char} (h : rest.head? ≠ some '=') :
    sign? (op.sign ++ rest) = some (op, rest) := by
  cases op with
  | atLeast => rfl
  | atMost => rfl
  | greater =>
    cases rest with
    | nil => rfl
    | cons c rest =>
      rw [Comparison.sign, List.singleton_append, sign?]
      exact fun later heq ↦ h (congrArg List.head? heq)
  | less =>
    cases rest with
    | nil => rfl
    | cons c rest =>
      rw [Comparison.sign, List.singleton_append, sign?]
      exact fun later heq ↦ h (congrArg List.head? heq)

theorem append_of_sign? {cs rest : List Char} {op : Comparison}
    (h : sign? cs = some (op, rest)) : cs = op.sign ++ rest := by
  unfold sign? at h
  split at h <;> cases h <;> rfl

theorem comparison?_cases (cs : List Char) :
    (∃ op bound, IsComparison cs op bound ∧ comparison? cs = some (.compare op bound)) ∨
      (∀ op bound, ¬ IsComparison cs op bound) ∧ comparison? cs = none := by
  cases hcompare : comparison? cs with
  | some test =>
    simp only [comparison?, Option.bind_eq_bind, Option.bind_eq_some_iff, Prod.exists,
      Option.pure_def, Option.some.injEq] at hcompare
    obtain ⟨op, numeral, hsign, bound, hbound, rfl⟩ := hcompare
    have hnumeral := isNumeral_of_unsigned? hbound
    rw [unsigned?_of_isNumeral hnumeral] at hbound
    exact .inl ⟨op, bound, ⟨numeral, append_of_sign? hsign, hnumeral, hbound⟩, rfl⟩
  | none =>
    refine .inr ⟨?_, rfl⟩
    rintro op bound ⟨numeral, rfl, hnumeral, hbound⟩
    obtain ⟨c, rest, rfl, hc⟩ := hnumeral.head_isDigit
    have hhead : (c :: rest).head? ≠ some '=' := by
      rintro heq
      rw [Option.some.inj heq] at hc
      cases hc
    simp only [comparison?, sign?_append hhead, Option.bind_eq_bind, Option.bind_some,
      unsigned?_of_isNumeral hnumeral, hbound] at hcompare
    cases hcompare

end Query

end ShardSearch
