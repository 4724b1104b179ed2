import ShardSearch.Proofs.DocumentOrder

/-!
Sorting documents under a ranking. Where the ranking orders the documents, up to ties, the sorted
list is in order and ties stand as they were, and no other arrangement of them is like this
(`TotalPreorder.eq_sortBy`): it is what any stable sort leaves.

Where the documents at hand that are not blank all have texts that begin with numbers, or none of
them has (`Uniform`), no three of them are torn, so the ranking orders them. The sorted list then
has the documents with a text first, by their numbers or by their characters (`RankedBefore`), and
the blank ones after them as they were, whatever the direction. Ties keep their order, so sorting
again changes nothing, and it does not matter which way the documents were sorted before.
-/

set_option autoImplicit false

namespace ShardSearch

/-- Values that compare in a certain way are in order in a direction. -/
def Direction.Keeps : Direction → Ordering → Prop
  | ascending, o => o.isLE = true
  | descending, o => o.isGE = true

theorem Direction.keeps_iff {direction : Direction} {o : Ordering} :
    direction.Keeps o ↔ (direction.apply o).isLE = true := by
  cases direction with
  | ascending => rfl
  | descending => rw [Keeps, apply, Ordering.isLE_swap]

/-- Elements with a property that all later elements have with them come at the end. -/
theorem eq_filter_append_filter {α : Type} {last : α → Bool} {list : List α}
    (h : list.Pairwise fun a b ↦ last a = true → last b = true) :
    list = list.filter (fun a ↦ !last a) ++ list.filter last := by
  induction list with
  | nil => rfl
  | cons a rest ih =>
    have hrest := ih h.of_cons
    cases ha : last a with
    | false =>
      rw [List.filter_cons_of_pos (by simp [ha]), List.filter_cons_of_neg (by simp [ha]),
        List.cons_append, ← hrest]
    | true =>
      have hall : ∀ b ∈ rest, last b = true := fun b hb ↦ List.rel_of_pairwise_cons h hb ha
      have hnone : rest.filter (fun b ↦ !last b) = [] := by
        rw [List.filter_eq_nil_iff]
        intro b hb
        simp [hall b hb]
      rw [List.filter_cons_of_neg (by simp [ha]), List.filter_cons_of_pos ha, hnone,
        List.filter_eq_self.mpr hall]
      rfl

namespace Document

/-! ### Ordered documents -/

section Ordered

variable {ranking : Ranking} {documents : List Document}

/-- Documents are tied when they compare as equal, in both directions alike. -/
theorem tied_eq (ranking : Ranking) (a b : Document) :
    StableSort.tied (fun a b ↦ (compareBy ranking a b).isLE) a b =
      decide (compareBy ranking a b = .eq) := by
  rw [StableSort.tied, ← compareBy_swap ranking a b]
  cases compareBy ranking a b <;> rfl

theorem TotalPreorder.orderOf (h : TotalPreorder ranking documents) :
    StableSort.OrderOf documents fun a b ↦ (compareBy ranking a b).isLE :=
  ⟨h.trans, h.total⟩

theorem TotalPreorder.pairwise_sortBy (h : TotalPreorder ranking documents) :
    (sortBy ranking documents).Pairwise fun a b ↦ (compareBy ranking a b).isLE = true :=
  h.orderOf.pairwise_mergeSort

/-- Documents that are tied with one of the list stay as they were. -/
theorem TotalPreorder.filter_sortBy (h : TotalPreorder ranking documents) {a : Document}
    (ha : a ∈ documents) :
    (sortBy ranking documents).filter (fun b ↦ compareBy ranking a b = .eq) =
      documents.filter fun b ↦ compareBy ranking a b = .eq := by
  have htied := h.orderOf.filter_tied_mergeSort ha fun _ hb ↦ hb
  simpa only [funext (tied_eq ranking a), sortBy] using htied

/-- An arrangement that is in order and has ties as they were is the sorted one. -/
theorem TotalPreorder.eq_sortBy (h : TotalPreorder ranking documents) {sorted : List Document}
    (hperm : sorted.Perm documents)
    (hsorted : sorted.Pairwise fun a b ↦ (compareBy ranking a b).isLE = true)
    (hties : ∀ a ∈ documents, sorted.filter (fun b ↦ compareBy ranking a b = .eq) =
      documents.filter fun b ↦ compareBy ranking a b = .eq) :
    sorted = sortBy ranking documents := by
  refine StableSort.eq_of_perm_of_sorted_of_tied
    (fun a ha ↦ h.orderOf.tied_self (hperm.mem_iff.mp ha))
    (hperm.trans (sortBy_perm ranking documents).symm) hsorted h.pairwise_sortBy fun a ha ↦ ?_
  have ha : a ∈ documents := hperm.mem_iff.mp ha
  rw [funext (tied_eq ranking a), hties a ha, h.filter_sortBy ha]

/-- Sorting sorted documents again with more of them is sorting all at once. -/
theorem sortBy_sortBy_append {first second : List Document}
    (h : TotalPreorder ranking (first ++ second)) :
    sortBy ranking (sortBy ranking first ++ second) = sortBy ranking (first ++ second) :=
  StableSort.mergeSort_append_mergeSort h.orderOf

end Ordered

/-! ### Blank documents -/

/-- A document has no value at the path of a field, or an empty text. -/
def isBlankAt (field : Field) (d : Document) : Bool :=
  match d.get? field.path with
  | none => true
  | some (.string s) => s.isEmpty
  | some _ => false

theorem isBlankAt_eq (field : Field) (d : Document) :
    isBlankAt field d = (rankingText? field d).isNone := by
  unfold isBlankAt rankingText?
  cases d.get? field.path with
  | none => rfl
  | some value =>
    cases value with
    | string s => by_cases hs : s.isEmpty = true <;> simp [hs]
    | _ => rfl

theorem exists_text_of_isBlankAt {field : Field} {d : Document}
    (h : isBlankAt field d = false) : ∃ text, rankingText? field d = some text := by
  rwa [isBlankAt_eq, Option.isNone_eq_false_iff, Option.isSome_iff_exists] at h

/-! ### Uniform documents -/

/-- The documents that are not blank all have texts that begin with numbers, or none of them
has. -/
def Uniform (field : Field) (documents : List Document) : Prop :=
  (∀ d ∈ documents, ∀ text, rankingText? field d = some text →
      ∃ x, Text.leadingNumber? text = some x) ∨
    ∀ d ∈ documents, ∀ text, rankingText? field d = some text → Text.leadingNumber? text = none

/-- The texts of two documents are in the order of a ranking, by the numbers that they begin with
or, if they begin with none, by their characters. -/
inductive RankedBefore (ranking : Ranking) (a b : Document) : Prop
  | numbers {first second : List Char} {x y : Decimal.Binary64}
      (hfirst : rankingText? ranking.field a = some first)
      (hsecond : rankingText? ranking.field b = some second)
      (hx : Text.leadingNumber? first = some x) (hy : Text.leadingNumber? second = some y)
      (hkeeps : ranking.direction.Keeps (x.totalCompare y))
  | texts {first second : List Char}
      (hfirst : rankingText? ranking.field a = some first)
      (hsecond : rankingText? ranking.field b = some second)
      (hx : Text.leadingNumber? first = none) (hy : Text.leadingNumber? second = none)
      (hkeeps : ranking.direction.Keeps (compare first second))

section Uniform

variable {ranking : Ranking} {field : Field} {documents : List Document} {a b : Document}

theorem Uniform.totalPreorder (h : Uniform ranking.field documents) :
    TotalPreorder ranking documents := by
  rw [totalPreorder_iff]
  rintro a ha b hb c hc ⟨first, between, last, htextA, htextB, -, htorn⟩
  obtain ⟨x, -, hx, -⟩ := htorn.numbers
  rcases h with hall | hnone
  · obtain ⟨y, hy⟩ := hall b hb between htextB
    rw [htorn.unnumbered] at hy
    cases hy
  · rw [hnone a ha first htextA] at hx
    cases hx

theorem compareBy_eq_eq_iff {direction : Direction} :
    compareBy ⟨field, direction⟩ a b = .eq ↔ compareBy ⟨field, .ascending⟩ a b = .eq := by
  unfold compareBy
  cases rankingText? field a <;> cases rankingText? field b <;> cases direction <;>
    simp [Direction.apply]

theorem isBlankAt_of_isLE (hle : (compareBy ranking a b).isLE = true)
    (ha : isBlankAt ranking.field a = true) : isBlankAt ranking.field b = true := by
  by_contra hb
  obtain ⟨second, hsecond⟩ := exists_text_of_isBlankAt (Bool.eq_false_iff.mpr hb)
  obtain ⟨first, hfirst⟩ := exists_text_of_isLE hle hsecond
  rw [isBlankAt_eq, hfirst] at ha
  cases ha

/-- Of uniform documents that are not blank the one that comes first is ranked before the other. -/
theorem Uniform.rankedBefore (h : Uniform ranking.field documents) (ha : a ∈ documents)
    (hb : b ∈ documents) (hblankA : isBlankAt ranking.field a = false)
    (hblankB : isBlankAt ranking.field b = false)
    (hle : (compareBy ranking a b).isLE = true) : RankedBefore ranking a b := by
  obtain ⟨first, hfirst⟩ := exists_text_of_isBlankAt hblankA
  obtain ⟨second, hsecond⟩ := exists_text_of_isBlankAt hblankB
  rw [compareBy_of_texts hfirst hsecond, ← Direction.keeps_iff] at hle
  rcases h with hall | hnone
  · obtain ⟨x, hx⟩ := hall a ha first hfirst
    obtain ⟨y, hy⟩ := hall b hb second hsecond
    rw [Text.displayOrder_of_numbers hx hy] at hle
    exact .numbers hfirst hsecond hx hy hle
  · have hx := hnone a ha first hfirst
    rw [Text.displayOrder_of_left hx] at hle
    exact .texts hfirst hsecond hx (hnone b hb second hsecond) hle

theorem compareBy_eq_of_isBlankAt (ha : isBlankAt ranking.field a = true) (b : Document) :
    compareBy ranking a b = .eq ↔ isBlankAt ranking.field b = true := by
  rw [isBlankAt_eq, Option.isNone_iff_eq_none] at ha
  rw [compareBy, ha, isBlankAt_eq]
  cases rankingText? ranking.field b <;> simp

theorem Uniform.filter_isBlankAt_sortBy (h : Uniform ranking.field documents) :
    (sortBy ranking documents).filter (isBlankAt ranking.field) =
      documents.filter (isBlankAt ranking.field) := by
  by_cases hblank : ∃ a ∈ documents, isBlankAt ranking.field a = true
  · obtain ⟨a, ha, hblankA⟩ := hblank
    have hties : (fun b ↦ decide (compareBy ranking a b = .eq)) = isBlankAt ranking.field := by
      funext b
      rw [Bool.eq_iff_iff, decide_eq_true_eq]
      exact compareBy_eq_of_isBlankAt hblankA b
    rw [← hties]
    exact h.totalPreorder.filter_sortBy ha
  · have hnone : ∀ b ∈ documents, ¬ isBlankAt ranking.field b = true :=
      fun b hb hblankB ↦ hblank ⟨b, hb, hblankB⟩
    rw [List.filter_eq_nil_iff.mpr hnone, List.filter_eq_nil_iff]
    exact fun b hb ↦ hnone b ((sortBy_perm ranking documents).mem_iff.mp hb)

/-- Which way documents were sorted before makes no difference. -/
theorem Uniform.sortBy_sortBy (h : Uniform field documents) (first second : Direction) :
    sortBy ⟨field, second⟩ (sortBy ⟨field, first⟩ documents) =
      sortBy ⟨field, second⟩ documents := by
  have hfirst : TotalPreorder ⟨field, first⟩ documents := Uniform.totalPreorder h
  have hsecond : TotalPreorder ⟨field, second⟩ documents := Uniform.totalPreorder h
  have hperm := sortBy_perm ⟨field, first⟩ documents
  have hagain : TotalPreorder ⟨field, second⟩ (sortBy ⟨field, first⟩ documents) :=
    hsecond.of_subset fun d hd ↦ hperm.mem_iff.mp hd
  refine hsecond.eq_sortBy ((sortBy_perm _ _).trans hperm) hagain.pairwise_sortBy fun a ha ↦ ?_
  have hties : (fun b ↦ decide (compareBy ⟨field, second⟩ a b = .eq)) =
      fun b ↦ decide (compareBy ⟨field, first⟩ a b = .eq) := by
    funext b
    rw [decide_eq_decide, compareBy_eq_eq_iff, ← compareBy_eq_eq_iff]
  rw [hagain.filter_sortBy (hperm.mem_iff.mpr ha), hties, hfirst.filter_sortBy ha]

end Uniform

/-- Sorting uniform documents. The blank ones come last and stay as they were, and the others are in
the order of the ranking. Documents that compare as equal keep their order. Sorting again changes
nothing, and neither does having sorted the other way before. -/
theorem sortBy_ranks_uniform {ranking : Ranking} {documents : List Document}
    (h : Uniform ranking.field documents) :
    (sortBy ranking documents).Perm documents ∧
      (∃ ranked, sortBy ranking documents =
          ranked ++ documents.filter (isBlankAt ranking.field) ∧
        (∀ d ∈ ranked, isBlankAt ranking.field d = false) ∧
        ranked.Pairwise (RankedBefore ranking)) ∧
      (∀ d ∈ documents,
        (sortBy ranking documents).filter (fun other ↦ compareBy ranking d other = .eq) =
          documents.filter fun other ↦ compareBy ranking d other = .eq) ∧
      sortBy ranking (sortBy ranking documents) = sortBy ranking documents ∧
      sortBy ⟨ranking.field, .ascending⟩ (sortBy ⟨ranking.field, .descending⟩ documents) =
        sortBy ⟨ranking.field, .ascending⟩ documents := by
  refine ⟨sortBy_perm ranking documents, ?_, fun d hd ↦ h.totalPreorder.filter_sortBy hd,
    h.sortBy_sortBy ranking.direction ranking.direction, h.sortBy_sortBy .descending .ascending⟩
  have hsplit := eq_filter_append_filter (h.totalPreorder.pairwise_sortBy.imp isBlankAt_of_isLE)
  rw [h.filter_isBlankAt_sortBy] at hsplit
  have hkept : ∀ d ∈ (sortBy ranking documents).filter (fun d ↦ !isBlankAt ranking.field d),
      d ∈ documents ∧ isBlankAt ranking.field d = false := by
    intro d hd
    rw [List.mem_filter, Bool.not_eq_true'] at hd
    exact ⟨(sortBy_perm ranking documents).mem_iff.mp hd.1, hd.2⟩
  refine ⟨_, hsplit, fun d hd ↦ (hkept d hd).2, ?_⟩
  refine (h.totalPreorder.pairwise_sortBy.filter _).imp_of_mem fun ha hb hle ↦ ?_
  exact h.rankedBefore (hkept _ ha).1 (hkept _ hb).1 (hkept _ ha).2 (hkept _ hb).2 hle

/-- Two tags with a number that is ten, one with nine, an empty one and a document without data. -/
def tags : List Document :=
  [tagged 1 "", tagged 2 "9", tagged 3 "10", ⟨4, .null⟩, tagged 5 " 1e1 cats"]

theorem uniform_tags : Uniform .profileTag tags := by
  refine .inl ?_
  have hnumbered : ∀ d ∈ tags,
      ((rankingText? .profileTag d).all fun text ↦ (Text.leadingNumber? text).isSome) = true := by
    decide +kernel
  intro d hd text htext
  have hd := hnumbered d hd
  rw [htext, Option.all_some] at hd
  exact Option.isSome_iff_exists.mp hd

theorem tags_sortBy_ranks_uniform :
    (sortBy ⟨.profileTag, .descending⟩ tags).Perm tags ∧
      (∃ ranked, sortBy ⟨.profileTag, .descending⟩ tags = ranked ++ [tagged 1 "", ⟨4, .null⟩] ∧
        (∀ d ∈ ranked, isBlankAt .profileTag d = false) ∧
        ranked.Pairwise (RankedBefore ⟨.profileTag, .descending⟩)) ∧
      ((sortBy ⟨.profileTag, .descending⟩ tags).filter fun other ↦
          compareBy ⟨.profileTag, .descending⟩ (tagged 3 "10") other = .eq).map (·.id) = [3, 5] ∧
      sortBy ⟨.profileTag, .descending⟩ (sortBy ⟨.profileTag, .descending⟩ tags) =
        sortBy ⟨.profileTag, .descending⟩ tags ∧
      sortBy ⟨.profileTag, .ascending⟩ (sortBy ⟨.profileTag, .descending⟩ tags) =
        sortBy ⟨.profileTag, .ascending⟩ tags := by
  have huniform : Uniform (⟨.profileTag, .descending⟩ : Ranking).field tags := uniform_tags
  obtain ⟨hperm, hranked, hties, hagain, hboth⟩ := sortBy_ranks_uniform huniform
  refine ⟨hperm, hranked, ?_, hagain, hboth⟩
  rw [hties (tagged 3 "10") (by simp [tags])]
  decide +kernel

end Document

end ShardSearch
