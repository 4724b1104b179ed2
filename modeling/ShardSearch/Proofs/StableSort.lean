import Mathlib.Data.List.Basic
import Mathlib.Data.List.Nodup

/-!
Stability of merge sort for an order that may tie. Elements are tied when each comes before the
other. A sorted arrangement of given elements is determined by the order in which tied ones stand
(`eq_of_perm_of_sorted_of_tied`), and merge sort leaves tied ones as they were
(`filter_mergeSort`). An order need only be one of the elements at hand (`OrderOf`): merge sort
compares no others. Sorting a sorted beginning again together with further elements is sorting all
of them at once (`mergeSort_append_mergeSort`). Where tied elements stand in another order, sorted
arrangements still have tied ones in the same places (`OrderOf.forall₂_tied_of_perm`).
-/

set_option autoImplicit false

namespace ShardSearch.StableSort

variable {α : Type}

/-- Elements of which any two are tied stay as they were. -/
theorem filter_mergeSort {le : α → α → Bool} (trans : ∀ a b c, le a b → le b c → le a c)
    (total : ∀ a b, le a b || le b a) {keep : α → Bool}
    (htied : ∀ a b, keep a → keep b → le a b) (list : List α) :
    (list.mergeSort le).filter keep = list.filter keep := by
  have hsorted : (list.filter keep).Pairwise fun a b ↦ le a b = true := by
    rw [List.pairwise_filter]
    exact List.pairwise_of_forall fun a b ha hb ↦ htied a b ha hb
  have hsub : (list.filter keep).Sublist ((list.mergeSort le).filter keep) := by
    have := (List.sublist_mergeSort trans total hsorted List.filter_sublist).filter keep
    simpa only [List.filter_filter, Bool.and_self] using this
  have hlength : (list.filter keep).length = ((list.mergeSort le).filter keep).length :=
    ((List.mergeSort_perm list le).symm.filter keep).length_eq
  exact (hsub.eq_of_length hlength).symm

/-- Whether each of two elements comes before the other. -/
def tied (le : α → α → Bool) (a b : α) : Bool := le a b && le b a

/-- Sorted arrangements of the same elements agree if tied elements stand in the same order. -/
theorem eq_of_perm_of_sorted_of_tied {le : α → α → Bool} {first second : List α}
    (hself : ∀ a ∈ first, tied le a a = true) (hperm : first.Perm second)
    (hfirst : first.Pairwise fun a b ↦ le a b = true)
    (hsecond : second.Pairwise fun a b ↦ le a b = true)
    (htied : ∀ a ∈ first, first.filter (tied le a) = second.filter (tied le a)) :
    first = second := by
  induction first generalizing second with
  | nil => exact hperm.nil_eq
  | cons a first ih =>
    cases second with
    | nil => exact absurd hperm.eq_nil (List.cons_ne_nil _ _)
    | cons b second =>
      have haself : tied le a a = true := hself a List.mem_cons_self
      have hab : tied le a b = true := by
        rw [tied, Bool.and_eq_true]
        constructor
        · rcases List.mem_cons.mp (hperm.mem_iff.mpr List.mem_cons_self) with rfl | hb
          · simpa [tied] using haself
          · exact List.rel_of_pairwise_cons hfirst hb
        · rcases List.mem_cons.mp (hperm.mem_iff.mp List.mem_cons_self) with rfl | ha
          · simpa [tied] using haself
          · exact List.rel_of_pairwise_cons hsecond ha
      have heq : a = b := by
        have := htied a List.mem_cons_self
        rw [List.filter_cons_of_pos haself, List.filter_cons_of_pos hab] at this
        exact (List.cons.inj this).1
      subst heq
      congr 1
      refine ih (fun c hc ↦ hself c (List.mem_cons_of_mem a hc)) hperm.cons_inv hfirst.of_cons
        hsecond.of_cons fun c hcfirst ↦ ?_
      have := htied c (List.mem_cons_of_mem a hcfirst)
      by_cases hc : tied le c a = true
      · rw [List.filter_cons_of_pos hc, List.filter_cons_of_pos hc] at this
        exact (List.cons.inj this).2
      · rwa [List.filter_cons_of_neg hc, List.filter_cons_of_neg hc] at this

/-- An order of the elements of a list, which may tie. -/
structure OrderOf (list : List α) (le : α → α → Bool) : Prop where
  trans : ∀ a ∈ list, ∀ b ∈ list, ∀ c ∈ list, le a b → le b c → le a c
  total : ∀ a ∈ list, ∀ b ∈ list, le a b || le b a

/-- An order as one of the elements of a list only. -/
def among (list : List α) (le : α → α → Bool) (a b : {a // a ∈ list}) : Bool := le a b

theorem mergeSort_eq_map_attach (list : List α) (le : α → α → Bool) :
    list.mergeSort le = (list.attach.mergeSort (among list le)).map Subtype.val := by
  have hmap : (list.attach.mergeSort (among list le)).map Subtype.val =
      (list.attach.map Subtype.val).mergeSort le :=
    List.map_mergeSort fun _ _ _ _ ↦ rfl
  rw [hmap, List.attach_map_subtype_val]

/-- The elements of a list that come no later than a given one. -/
def upTo (le : α → α → Bool) (list : List α) (a : α) : List α := list.filter (le · a)

namespace OrderOf

variable {le : α → α → Bool} {list fewer : List α} (h : OrderOf list le)

include h

theorem of_subset (hsub : ∀ a ∈ fewer, a ∈ list) : OrderOf fewer le where
  trans a ha b hb c hc := h.trans a (hsub a ha) b (hsub b hb) c (hsub c hc)
  total a ha b hb := h.total a (hsub a ha) b (hsub b hb)

theorem tied_self {a : α} (ha : a ∈ list) : tied le a a = true := by
  simpa [tied] using h.total a ha a ha

theorem trans_among (a b c : {a // a ∈ list}) (hab : among list le a b) (hbc : among list le b c) :
    among list le a c :=
  h.trans a a.2 b b.2 c c.2 hab hbc

theorem total_among (a b : {a // a ∈ list}) : among list le a b || among list le b a :=
  h.total a a.2 b b.2

theorem pairwise_mergeSort : (list.mergeSort le).Pairwise fun a b ↦ le a b = true := by
  rw [mergeSort_eq_map_attach, List.pairwise_map]
  exact List.pairwise_mergeSort h.trans_among h.total_among list.attach

/-- Elements that are tied with a given one stay as they were. -/
theorem filter_tied_mergeSort {a : α} (ha : a ∈ list) (hsub : ∀ b ∈ fewer, b ∈ list) :
    (fewer.mergeSort le).filter (tied le a) = fewer.filter (tied le a) := by
  have hfewer : OrderOf fewer le := h.of_subset hsub
  have htied : ∀ b c : {b // b ∈ fewer}, (tied le a ∘ Subtype.val) b →
      (tied le a ∘ Subtype.val) c → among fewer le b c := by
    intro b c hb hc
    simp only [Function.comp_apply, tied, Bool.and_eq_true] at hb hc
    exact h.trans b (hsub b b.2) a ha c (hsub c c.2) hb.2 hc.1
  rw [mergeSort_eq_map_attach, List.filter_map,
    filter_mergeSort hfewer.trans_among hfewer.total_among htied, ← List.filter_map,
    List.attach_map_subtype_val]

/-- Two arrangements in which tied elements stand in the same order are sorted alike. -/
theorem mergeSort_eq_of_perm {other : List α} (hperm : other.Perm list)
    (htied : ∀ a ∈ list, other.filter (tied le a) = list.filter (tied le a)) :
    other.mergeSort le = list.mergeSort le := by
  have hmem : ∀ a ∈ other, a ∈ list := fun a ha ↦ hperm.mem_iff.mp ha
  have hties : ∀ a ∈ list, (other.mergeSort le).filter (tied le a) =
      (list.mergeSort le).filter (tied le a) := by
    intro a ha
    rw [h.filter_tied_mergeSort ha hmem, h.filter_tied_mergeSort ha fun _ hb ↦ hb, htied a ha]
  exact eq_of_perm_of_sorted_of_tied
    (fun a ha ↦ h.tied_self (hmem a (List.mem_mergeSort.mp ha)))
    ((List.mergeSort_perm other le).trans (hperm.trans (List.mergeSort_perm list le).symm))
    (h.of_subset hmem).pairwise_mergeSort h.pairwise_mergeSort
    fun a ha ↦ hties a (hmem a (List.mem_mergeSort.mp ha))

/-! ### Ties -/

/-- What comes no later than an element comes no later than one after it. -/
theorem sublist_upTo {a b : α} (ha : a ∈ list) (hb : b ∈ list) (hle : le a b = true) :
    (upTo le list a).Sublist (upTo le list b) := by
  have hboth : upTo le list a = (upTo le list b).filter (le · a) := by
    rw [upTo, upTo, List.filter_filter]
    refine List.filter_congr fun c hc ↦ ?_
    by_cases hca : le c a = true
    · rw [hca, h.trans c hc a ha b hb hca hle, Bool.and_self]
    · rw [Bool.eq_false_iff.mpr hca, Bool.false_and]
  rw [hboth]
  exact List.filter_sublist

theorem le_of_length_upTo_eq {a b : α} (ha : a ∈ list) (hb : b ∈ list) (hle : le a b = true)
    (hlength : (upTo le list a).length = (upTo le list b).length) : le b a = true := by
  have hsame : upTo le list a = upTo le list b := (h.sublist_upTo ha hb hle).eq_of_length hlength
  have hself : le b b = true := by simpa using h.total b hb b hb
  have hmem : b ∈ upTo le list a := by
    rw [hsame]
    exact List.mem_filter.mpr ⟨hb, hself⟩
  exact (List.mem_filter.mp hmem).2

/-- Elements with the same number of others up to them are tied. -/
theorem tied_of_length_upTo_eq {a b : α} (ha : a ∈ list) (hb : b ∈ list)
    (hlength : (upTo le list a).length = (upTo le list b).length) : tied le a b = true := by
  rw [tied, Bool.and_eq_true]
  have htotal := h.total a ha b hb
  rw [Bool.or_eq_true] at htotal
  rcases htotal with hle | hle
  · exact ⟨hle, h.le_of_length_upTo_eq ha hb hle hlength⟩
  · exact ⟨h.le_of_length_upTo_eq hb ha hle hlength.symm, hle⟩

/-- Sorted arrangements of the same elements are tied position by position. -/
theorem forall₂_tied_of_perm {other : List α} (hperm : list.Perm other)
    (hlist : list.Pairwise fun a b ↦ le a b = true)
    (hother : other.Pairwise fun a b ↦ le a b = true) :
    List.Forall₂ (fun a b ↦ tied le a b = true) list other := by
  -- Two tied elements may differ, but as many elements come up to the one as to the other: these
  -- numbers are in order in both arrangements, so they are the same.
  have hmem : ∀ b ∈ other, b ∈ list := fun b hb ↦ hperm.mem_iff.mpr hb
  have hmono : ∀ a ∈ list, ∀ b ∈ list, le a b = true →
      (upTo le list a).length ≤ (upTo le list b).length :=
    fun a ha b hb hle ↦ (h.sublist_upTo ha hb hle).length_le
  have hsame : list.map (fun a ↦ (upTo le list a).length) =
      other.map fun b ↦ (upTo le list b).length := by
    refine List.Perm.eq_of_pairwise (fun _ _ _ _ ↦ Nat.le_antisymm) ?_ ?_ (hperm.map _)
    · rw [List.pairwise_map]
      exact hlist.imp_of_mem fun ha hb ↦ hmono _ ha _ hb
    · rw [List.pairwise_map]
      exact hother.imp_of_mem fun ha hb ↦ hmono _ (hmem _ ha) _ (hmem _ hb)
  rw [← List.forall₂_eq_eq_eq, List.forall₂_map_left_iff, List.forall₂_map_right_iff,
    List.forall₂_iff_get] at hsame
  obtain ⟨hlength, hnumbers⟩ := hsame
  refine List.forall₂_iff_get.mpr ⟨hlength, fun i hi hj ↦ ?_⟩
  exact h.tied_of_length_upTo_eq (List.get_mem list ⟨i, hi⟩)
    (hmem _ (List.get_mem other ⟨i, hj⟩)) (hnumbers i hi hj)

end OrderOf

/-- Sorting a sorted beginning with what follows it is sorting everything at once. -/
theorem mergeSort_append_mergeSort {le : α → α → Bool} {first second : List α}
    (h : OrderOf (first ++ second) le) :
    (first.mergeSort le ++ second).mergeSort le = (first ++ second).mergeSort le := by
  refine h.mergeSort_eq_of_perm ((List.mergeSort_perm first le).append_right second)
    fun a ha ↦ ?_
  rw [List.filter_append, List.filter_append,
    h.filter_tied_mergeSort ha fun b hb ↦ List.mem_append_left second hb]

end ShardSearch.StableSort
