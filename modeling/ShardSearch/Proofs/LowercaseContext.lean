import Mathlib.Data.List.Infix
import ShardSearch.Text.Lowercase

/-!
Lowercasing a part of a text. A character has the lowercase form that it has alone, wherever it
stands, with one exception: a capital sigma is written in its final form at the end of a word, and
whether it stands there is said by the text around it. So a part of a text is lowercased there as it
is alone just if its capital sigmas end words alike (`lowerBetween_eq_lowerChars_iff`), and then its
lowercase form is a part of the lowercase form of the text (`lowerChars_isInfix`).

A character that has no case and is not ignored for case, as a space, cuts a text into parts that
know nothing of each other (`lowerChars_append_cons`).
-/

set_option autoImplicit false

namespace ShardSearch.Text

/-! ### Parts of texts -/

/-- The lowercase form of a part of a text, between the characters before it, nearest first, and
those after it. -/
def lowerBetween (before : List Char) : List Char → List Char → List Char
  | [], _ => []
  | c :: rest, after => lowerAt before c (rest ++ after) ++ lowerBetween (c :: before) rest after

theorem lowerFrom_append (before cs after : List Char) :
    lowerFrom before (cs ++ after) =
      lowerBetween before cs after ++ lowerFrom (cs.reverse ++ before) after := by
  induction cs generalizing before with
  | nil => rfl
  | cons c rest ih =>
    rw [List.cons_append, lowerFrom, ih, lowerBetween, List.append_assoc, List.reverse_cons,
      List.append_assoc, List.singleton_append]

theorem lowerFrom_eq_lowerBetween (before cs : List Char) :
    lowerFrom before cs = lowerBetween before cs [] := by
  have hwhole := lowerFrom_append before cs []
  rwa [List.append_nil, lowerFrom, List.append_nil] at hwhole

/-- A text stands at the end of a word when it has a cased character before it, nearest first, and
none after it, case-ignorable ones aside. -/
def endsWord (before after : List Char) : Bool := nextIsCased before && !nextIsCased after

theorem lowerAt_sigma (before after : List Char) :
    lowerAt before 'Σ' after = [if endsWord before after then 'ς' else 'σ'] := rfl

/-- Only of a capital sigma does the lowercase form depend on the text around it. -/
theorem lowerAt_congr {c : Char} (hc : c ≠ 'Σ') (before other after rest : List Char) :
    lowerAt before c after = lowerAt other c rest := by
  rw [lowerAt, lowerAt, if_neg hc, if_neg hc]

theorem lowerAt_sigma_eq_iff {before other after rest : List Char} :
    lowerAt before 'Σ' after = lowerAt other 'Σ' rest ↔
      endsWord before after = endsWord other rest := by
  rw [lowerAt_sigma, lowerAt_sigma]
  cases endsWord before after <;> cases endsWord other rest <;> decide

theorem length_lowerAt (before other : List Char) (c : Char) (after rest : List Char) :
    (lowerAt before c after).length = (lowerAt other c rest).length := by
  by_cases hc : c = 'Σ'
  · rw [hc]
    rfl
  · rw [lowerAt_congr hc before other after rest]

/-- A part of texts is lowercased in two places alike just if its capital sigmas end words in both
or in neither. -/
theorem lowerBetween_eq_iff {cs before other after rest : List Char} :
    lowerBetween before cs after = lowerBetween other cs rest ↔
      ∀ first last, cs = first ++ 'Σ' :: last →
        endsWord (first.reverse ++ before) (last ++ after) =
          endsWord (first.reverse ++ other) (last ++ rest) := by
  induction cs generalizing before other with
  | nil => exact iff_of_true rfl fun first last h ↦ by simp at h
  | cons c cs ih =>
    rw [lowerBetween, lowerBetween]
    constructor
    · intro h first last hsplit
      obtain ⟨hhead, htail⟩ := List.append_inj h (length_lowerAt before other c _ _)
      cases first with
      | nil =>
        obtain ⟨rfl, rfl⟩ := List.cons.inj hsplit
        exact lowerAt_sigma_eq_iff.mp hhead
      | cons d first =>
        obtain ⟨rfl, hcs⟩ := List.cons.inj hsplit
        simpa using ih.mp htail first last hcs
    · intro h
      have hhead : lowerAt before c (cs ++ after) = lowerAt other c (cs ++ rest) := by
        by_cases hc : c = 'Σ'
        · rw [hc, lowerAt_sigma_eq_iff]
          exact h [] cs (congrArg (· :: cs) hc)
        · exact lowerAt_congr hc _ _ _ _
      have htail : lowerBetween (c :: before) cs after = lowerBetween (c :: other) cs rest := by
        rw [ih]
        intro first last hcs
        simpa using h (c :: first) last (congrArg (c :: ·) hcs)
      rw [hhead, htail]

/-! ### Capital sigmas -/

/-- Each capital sigma of a part of a text ends a word in the text just if it ends one in the part
alone. -/
def SigmasKept (before cs after : List Char) : Prop :=
  ∀ first last, cs = first ++ 'Σ' :: last →
    endsWord (before ++ first).reverse (last ++ after) = endsWord first.reverse last

section Sigmas

variable {before cs after : List Char}

theorem lowerBetween_eq_lowerChars_iff :
    lowerBetween before.reverse cs after = lowerChars cs ↔ SigmasKept before cs after := by
  simp only [lowerChars, lowerFrom_eq_lowerBetween, lowerBetween_eq_iff, SigmasKept,
    List.reverse_append, List.append_nil]

instance (before cs after : List Char) : Decidable (SigmasKept before cs after) :=
  decidable_of_iff _ lowerBetween_eq_lowerChars_iff

/-- The lowercase form of a part whose sigmas are kept is a part of that of the text. -/
theorem lowerChars_isInfix (h : SigmasKept before cs after) :
    lowerChars cs <:+: lowerChars (before ++ cs ++ after) := by
  refine ⟨lowerBetween [] before (cs ++ after), lowerFrom (cs.reverse ++ before.reverse) after, ?_⟩
  rw [← lowerBetween_eq_lowerChars_iff.mpr h, lowerChars, List.append_assoc before,
    lowerFrom_append [] before, List.append_nil, lowerFrom_append before.reverse, List.append_assoc]

theorem sigmasKept_of_not_mem (h : 'Σ' ∉ cs) : SigmasKept before cs after := by
  rintro first last rfl
  exact absurd (List.mem_append_right first List.mem_cons_self) h

end Sigmas

/-! ### Cuts -/

/-- A character that has no case, is not ignored for case and is its own lowercase form. -/
structure IsCut (c : Char) : Prop where
  ignorable_eq_false : isCaseIgnorable c = false
  cased_eq_false : isCased c = false
  lowerChar_eq : lowerChar c = c

theorem isCut_space : IsCut ' ' := ⟨by decide +kernel, by decide +kernel, by decide +kernel⟩

theorem isCut_dash : IsCut '-' := ⟨by decide +kernel, by decide +kernel, by decide +kernel⟩

namespace IsCut

variable {c : Char} (h : IsCut c)

include h

theorem ne_of_isCased {d : Char} (hd : isCased d = true) : c ≠ d := by
  rintro rfl
  rw [h.cased_eq_false] at hd
  cases hd

theorem lowerAt_eq (before after : List Char) : lowerAt before c after = [c] := by
  rw [lowerAt, if_neg (h.ne_of_isCased (by decide +kernel)),
    if_neg (h.ne_of_isCased (by decide +kernel)), h.lowerChar_eq]

theorem nextIsCased_append_cons (cs after : List Char) :
    nextIsCased (cs ++ c :: after) = nextIsCased cs := by
  rw [nextIsCased, nextIsCased, List.dropWhile_append]
  cases cs.dropWhile isCaseIgnorable with
  | nil =>
    rw [List.isEmpty_nil, if_pos rfl, List.dropWhile_cons_of_neg (by simp [h.ignorable_eq_false])]
    exact h.cased_eq_false
  | cons d rest => rfl

/-- A cut parts what is before it from what is after it. -/
theorem lowerChars_append_cons (first second : List Char) :
    lowerChars (first ++ c :: second) = lowerChars first ++ c :: lowerChars second := by
  have hfirst : lowerBetween [] first (c :: second) = lowerChars first := by
    rw [lowerChars, lowerFrom_eq_lowerBetween, lowerBetween_eq_iff]
    intro before after _
    rw [endsWord, endsWord, h.nextIsCased_append_cons, List.append_nil, List.append_nil]
  have hsecond : lowerBetween (c :: first.reverse) second [] = lowerChars second := by
    rw [lowerChars, lowerFrom_eq_lowerBetween, lowerBetween_eq_iff]
    intro before after _
    rw [endsWord, endsWord, h.nextIsCased_append_cons, List.append_nil, List.append_nil]
  rw [lowerChars, lowerFrom_append, hfirst, List.append_nil, lowerFrom, h.lowerAt_eq,
    lowerFrom_eq_lowerBetween, hsecond, List.singleton_append]

theorem lowerChars_intercalate (parts : List (List Char)) :
    lowerChars ([c].intercalate parts) = [c].intercalate (parts.map lowerChars) := by
  induction parts with
  | nil => rfl
  | cons part rest ih =>
    cases rest with
    | nil => simp
    | cons next rest =>
      rw [List.map_cons] at ih
      rw [List.map_cons, List.map_cons, List.intercalate_cons_cons, List.intercalate_cons_cons,
        List.append_assoc, List.append_assoc, List.singleton_append, List.singleton_append,
        h.lowerChars_append_cons, ih]

end IsCut

end ShardSearch.Text
