import ShardSearch.Proofs.PlanSemantics

/-!
The two readings of a plan's result. As a set of ids it is what the groups select: no id comes
twice, and neither the order of the groups, nor that of the conditions in a group, nor the ranking
matters. As a list of pointers it is the merged list, or the stable sort of it where the index
carries the count that it is ranked by.
-/

set_option autoImplicit false

namespace ShardSearch

open PointerTable (lastWithId?)

/-! ### The set of ids -/

namespace Query

/-- The same groups in some order, each with its conditions in some order. -/
def Rearranged (groups others : List (List Condition)) : Prop :=
  ∃ middle, List.Forall₂ List.Perm groups middle ∧ middle.Perm others

theorem selects_congr {found : Condition → List Pointer} {group other : List Condition}
    (h : group.Perm other) (id : Nat) : Selects found group id ↔ Selects found other id := by
  simp only [Selects, h.mem_iff]

theorem Rearranged.exists_selects_iff {found : Condition → List Pointer}
    {groups others : List (List Condition)} (h : Rearranged groups others) (id : Nat) :
    (∃ group ∈ groups, Selects found group id) ↔ ∃ group ∈ others, Selects found group id := by
  obtain ⟨middle, hconditions, hgroups⟩ := h
  have hmiddle : (∃ group ∈ groups, Selects found group id) ↔
      ∃ group ∈ middle, Selects found group id := by
    clear hgroups
    induction hconditions with
    | nil => exact Iff.rfl
    | cons hperm _ ih => rw [List.exists_mem_cons_iff, List.exists_mem_cons_iff,
        selects_congr hperm id, ih]
  rw [hmiddle]
  simp only [hgroups.mem_iff]

end Query

namespace Plan

theorem rank_perm (ranking : Ranking) (pointers : List Pointer) :
    (rank ranking pointers).Perm pointers := by
  unfold rank
  split
  · exact Pointer.sortBy_perm _ _ _
  · exact List.Perm.refl _

theorem run_ids (p : Plan) (c : Catalog) (answer : String → Option Json) (ranking : Ranking) :
    (p.ids c ranking).run answer = ((p.pointers c ranking).run answer).map (·.id) := by
  rw [ids, Fetch.run_bind, Fetch.run_done]

theorem run_ids_perm (p : Plan) (c : Catalog) (answer : String → Option Json)
    (ranking : Ranking) : ((p.ids c ranking).run answer).Perm
      ((merged (Index.found c answer) p.groups).map (·.id)) := by
  rw [run_ids, run_pointers]
  exact (rank_perm ranking _).map _

theorem mem_map_id_merged {found : Condition → List Pointer} {groups : List (List Condition)}
    (id : Nat) : id ∈ (merged found groups).map (·.id) ↔
      ∃ group ∈ groups, Query.Selects found group id := by
  rw [merged, mem_map_id_firstYields]
  constructor
  · rintro ⟨list, hlist, hid⟩
    obtain ⟨group, hgroup, rfl⟩ := List.mem_map.mp hlist
    exact ⟨group, hgroup, (Query.mem_map_id_survivors id).mp hid⟩
  · rintro ⟨group, hgroup, hselects⟩
    exact ⟨_, List.mem_map_of_mem hgroup, (Query.mem_map_id_survivors id).mpr hselects⟩

theorem nodup_run_ids (p : Plan) (c : Catalog) (answer : String → Option Json)
    (ranking : Ranking) : ((p.ids c ranking).run answer).Nodup := by
  rw [(run_ids_perm p c answer ranking).nodup_iff]
  refine nodup_map_id_firstYields fun list hlist ↦ ?_
  obtain ⟨group, -, rfl⟩ := List.mem_map.mp hlist
  exact Query.nodup_map_id_survivors _ group

theorem mem_run_ids (p : Plan) (c : Catalog) (answer : String → Option Json) (ranking : Ranking)
    (id : Nat) : id ∈ (p.ids c ranking).run answer ↔
      ∃ group ∈ p.groups, Query.Selects (Index.found c answer) group id := by
  rw [(run_ids_perm p c answer ranking).mem_iff, mem_map_id_merged]

/-- The ids that a plan finds are distinct, and they are those that some group selects: a group
with a required condition, all of whose required conditions and none of whose negated ones list the
id, where a condition deferred to the documents lists nothing. Hence they are the same ids whatever
the order of the groups, that of the conditions in each group, and the ranking. -/
theorem ids_selected (p : Plan) (c : Catalog) (answer : String → Option Json)
    (ranking : Ranking) :
    ((p.ids c ranking).run answer).Nodup ∧
      (∀ id, id ∈ (p.ids c ranking).run answer ↔
        ∃ group ∈ p.groups, Query.Selects (Index.found c answer) group id) ∧
      (∀ condition kind text, condition.test = .deferred kind text →
        Index.found c answer condition = []) ∧
      ∀ (other : Plan) (otherRanking : Ranking), Query.Rearranged p.groups other.groups →
        ((other.ids c otherRanking).run answer).Perm ((p.ids c ranking).run answer) := by
  refine ⟨nodup_run_ids p c answer ranking, mem_run_ids p c answer ranking,
    fun condition kind text h ↦ Index.found_deferred c answer h, ?_⟩
  intro other otherRanking hgroups
  rw [List.perm_ext_iff_of_nodup (nodup_run_ids other c answer otherRanking)
    (nodup_run_ids p c answer ranking)]
  intro id
  rw [mem_run_ids, mem_run_ids, hgroups.exists_selects_iff]

end Plan

/-! ### The list of pointers -/

namespace Pointer

/-- A list is another one sorted by a count, missing ones counting as zero, in the total order of
doubles or against it; pointers with the same count stand as they stand in the other list. -/
structure IsStableSort (key : IndexKey) (direction : Direction) (before after : List Pointer) :
    Prop where
  perm : after.Perm before
  sorted : after.Pairwise fun p q ↦ match direction with
    | .ascending => (p.sortValue key).rank ≤ (q.sortValue key).rank
    | .descending => (q.sortValue key).rank ≤ (p.sortValue key).rank
  tied : ∀ x, after.filter (·.sortValue key = x) = before.filter (·.sortValue key = x)

theorem isLE_compareBy_iff (key : IndexKey) (direction : Direction) (p q : Pointer) :
    (compareBy key direction p q).isLE = true ↔ match direction with
      | .ascending => (p.sortValue key).rank ≤ (q.sortValue key).rank
      | .descending => (q.sortValue key).rank ≤ (p.sortValue key).rank := by
  cases direction with
  | ascending => exact Int.isLE_compare
  | descending =>
    rw [compareBy, Direction.apply, Decimal.Binary64.totalCompare_swap]
    exact Int.isLE_compare

theorem sortBy_isStableSort (key : IndexKey) (direction : Direction) (pointers : List Pointer) :
    IsStableSort key direction pointers (sortBy key direction pointers) := by
  have htrans : ∀ p q r, (compareBy key direction p q).isLE = true →
      (compareBy key direction q r).isLE = true → (compareBy key direction p r).isLE = true := by
    intro p q r hpq hqr
    rw [isLE_compareBy_iff] at hpq hqr ⊢
    cases direction with
    | ascending => exact Int.le_trans hpq hqr
    | descending => exact Int.le_trans hqr hpq
  have htotal : ∀ p q, ((compareBy key direction p q).isLE ||
      (compareBy key direction q p).isLE) = true := by
    intro p q
    rw [Bool.or_eq_true, isLE_compareBy_iff, isLE_compareBy_iff]
    cases direction with
    | ascending => exact Int.le_total _ _
    | descending => exact Int.le_total _ _
  refine ⟨sortBy_perm key direction pointers, ?_, fun x ↦ ?_⟩
  · exact (List.pairwise_mergeSort htrans htotal pointers).imp
      (isLE_compareBy_iff key direction _ _).mp
  · refine StableSort.filter_mergeSort htrans htotal (fun p q hp hq ↦ ?_) pointers
    rw [decide_eq_true_eq] at hp hq
    rw [isLE_compareBy_iff, hp, hq]
    cases direction <;> exact Int.le_refl _

end Pointer

namespace Plan

/-- Where a merged pointer comes from: the first group that selects its id, as the last pointer
with this id in the list of that group's first required condition. -/
theorem exists_of_mem_merged {found : Condition → List Pointer} {groups : List (List Condition)}
    {pointer : Pointer} (h : pointer ∈ merged found groups) :
    ∃ earlier group later first, groups = earlier ++ group :: later ∧
      (∀ other ∈ earlier, ¬ Query.Selects found other pointer.id) ∧
      Query.Selects found group pointer.id ∧ group.find? (!·.negated) = some first ∧
      lastWithId? (found first) pointer.id = some pointer := by
  induction groups with
  | nil => simp [merged, firstYields] at h
  | cons group rest ih =>
    rw [merged, List.map_cons, firstYields, List.mem_append] at h
    rcases h with h | h
    · have hselects : Query.Selects found group pointer.id :=
        (Query.mem_map_id_survivors _).mp (List.mem_map_of_mem h)
      cases hfirst : group.find? (!·.negated) with
      | none => exact absurd hselects (Query.not_selects_of_find?_eq_none hfirst _)
      | some first =>
        rw [Query.survivors_of_find? hfirst, List.mem_filterMap] at h
        obtain ⟨id, -, hlast⟩ := h
        have hid : pointer.id = id := PointerTable.id_of_lastWithId? hlast
        exact ⟨[], group, rest, first, rfl, by simp, hselects, hfirst, hid ▸ hlast⟩
    · obtain ⟨hmem, hnew⟩ := List.mem_filter.mp h
      obtain ⟨earlier, other, later, first, rfl, hearlier, hother⟩ := ih hmem
      refine ⟨group :: earlier, other, later, first, rfl, ?_, hother⟩
      rw [List.forall_mem_cons]
      refine ⟨?_, hearlier⟩
      rwa [Bool.not_eq_true', Bool.eq_false_iff, ne_eq, Query.listsId_iff,
        Query.mem_map_id_survivors] at hnew

/-- The pointers that a plan finds are the survivors of its groups, group after group, each id from
the first group that selects it and with the last pointer that this group's first required condition
lists for it. They stand in this order when the index does not carry the count that they are ranked
by, and otherwise in that of the stable sort by this count, in either direction. -/
theorem pointers_merged_or_sorted (p : Plan) (c : Catalog) (answer : String → Option Json)
    (ranking : Ranking) :
    (ranking.indexKey? = none →
      (p.pointers c ranking).run answer = merged (Index.found c answer) p.groups) ∧
      (∀ key, ranking.indexKey? = some key →
        Pointer.IsStableSort key ranking.direction (merged (Index.found c answer) p.groups)
          ((p.pointers c ranking).run answer)) ∧
      ∀ pointer ∈ (p.pointers c ranking).run answer,
        ∃ earlier group later first, p.groups = earlier ++ group :: later ∧
          (∀ other ∈ earlier, ¬ Query.Selects (Index.found c answer) other pointer.id) ∧
          Query.Selects (Index.found c answer) group pointer.id ∧
          group.find? (!·.negated) = some first ∧
          lastWithId? (Index.found c answer first) pointer.id = some pointer := by
  rw [run_pointers]
  refine ⟨fun hnone ↦ ?_, fun key hkey ↦ ?_, fun pointer hmem ↦ ?_⟩
  · rw [rank, hnone]
  · rw [rank, hkey]
    exact Pointer.sortBy_isStableSort key ranking.direction _
  · exact exists_of_mem_merged ((rank_perm ranking _).mem_iff.mp hmem)

end Plan

end ShardSearch
