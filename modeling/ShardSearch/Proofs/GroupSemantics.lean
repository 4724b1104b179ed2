import ShardSearch.Proofs.PointerTable
import ShardSearch.Query.Execution

/-!
What a group of conditions yields. Let every condition have the list of pointers that it resolves
to. A group selects an id if the group has a required condition, all its required conditions list
the id and none of its negated ones does. `survivors` is the declarative form of the result: the
selected ids in the order in which the first required condition lists them first, each with the
last pointer that this condition lists for it. `run_groupPointers` shows that executing the group,
with its early exits and its tables, comes to the same list.
-/

set_option autoImplicit false

namespace ShardSearch

open PointerTable (lastWithId?)

namespace Index

/-- What a condition resolves to when every read of an address gets the same answer. -/
def found (c : Catalog) (answer : String → Option Json) (condition : Condition) : List Pointer :=
  (resolve c condition).run answer

/-- A test that is deferred to the documents finds nothing in the index. -/
theorem found_deferred (c : Catalog) (answer : String → Option Json) {condition : Condition}
    {kind : FilterKind} {text : Option String} (h : condition.test = .deferred kind text) :
    found c answer condition = [] := by
  simp [found, resolve, resolveOn, keys, h]

end Index

namespace Query

section Spec

variable (found : Condition → List Pointer)

/-- A group selects an id: it has a required condition, and the conditions that list the id are
just the required ones. -/
def Selects (group : List Condition) (id : Nat) : Prop :=
  (∃ condition ∈ group, condition.negated = false) ∧
    ∀ condition ∈ group, id ∈ (found condition).map (·.id) ↔ condition.negated = false

instance (group : List Condition) : DecidablePred (Selects found group) := fun _ ↦
  inferInstanceAs (Decidable (_ ∧ _))

/-- The selected ids in the order of their first occurrences in the list of the first required
condition, each with the last pointer that this list has for it. -/
def survivors (group : List Condition) : List Pointer :=
  match group.find? (!·.negated) with
  | none => []
  | some first =>
    (((found first).map (·.id)).eraseDups.filter (Selects found group ·)).filterMap
      (lastWithId? (found first))

end Spec

variable {found : Condition → List Pointer} {group : List Condition}

theorem listsId_iff {pointers : List Pointer} {id : Nat} :
    listsId pointers id = true ↔ id ∈ pointers.map (·.id) := by
  simp [listsId]

/-- The first required condition of a group, and its part in what the group selects. -/
theorem Selects.mem_first {first : Condition} {id : Nat}
    (hfirst : group.find? (!·.negated) = some first) (h : Selects found group id) :
    id ∈ (found first).map (·.id) := by
  have hrequired : first.negated = false := by simpa using List.find?_some hfirst
  exact (h.2 first (List.mem_of_find?_eq_some hfirst)).mpr hrequired

theorem not_selects_of_find?_eq_none (h : group.find? (!·.negated) = none) (id : Nat) :
    ¬ Selects found group id := by
  rintro ⟨⟨condition, hmem, hrequired⟩, -⟩
  have := List.find?_eq_none.mp h condition hmem
  simp [hrequired] at this

/-- Every id of the first list has a last pointer in it. -/
theorem map_id_filterMap_lastWithId? {pointers : List Pointer} {ids : List Nat}
    (h : ∀ id ∈ ids, id ∈ pointers.map (·.id)) :
    (ids.filterMap (lastWithId? pointers)).map (·.id) = ids := by
  have hid : ∀ id ∈ ids, (lastWithId? pointers id).map (·.id) = some id := by
    intro id hid
    obtain ⟨p, hp, rfl⟩ := List.mem_map.mp (h id hid)
    cases hlast : lastWithId? pointers p.id with
    | none =>
      rw [lastWithId?, List.findRev?_eq_find?_reverse, List.find?_eq_none] at hlast
      have := hlast p (List.mem_reverse.mpr hp)
      simp at this
    | some q => rw [Option.map_some, PointerTable.id_of_lastWithId? hlast]
  rw [List.map_filterMap, List.filterMap_congr hid, List.filterMap_some]

theorem survivors_of_find? {first : Condition} (hfirst : group.find? (!·.negated) = some first) :
    survivors found group =
      (((found first).map (·.id)).eraseDups.filter (Selects found group ·)).filterMap
        (lastWithId? (found first)) := by
  rw [survivors, hfirst]

theorem map_id_survivors {first : Condition} (hfirst : group.find? (!·.negated) = some first) :
    (survivors found group).map (·.id) =
      ((found first).map (·.id)).eraseDups.filter (Selects found group ·) := by
  rw [survivors_of_find? hfirst]
  refine map_id_filterMap_lastWithId? fun id hid ↦ ?_
  exact List.mem_eraseDups.mp (List.mem_filter.mp hid).1

/-- A group yields just the ids that it selects. -/
theorem mem_map_id_survivors (id : Nat) :
    id ∈ (survivors found group).map (·.id) ↔ Selects found group id := by
  cases hfirst : group.find? (!·.negated) with
  | none => simp [survivors, hfirst, not_selects_of_find?_eq_none hfirst id]
  | some first =>
    rw [map_id_survivors hfirst, List.mem_filter, List.mem_eraseDups, decide_eq_true_eq]
    exact ⟨And.right, fun h ↦ ⟨h.mem_first hfirst, h⟩⟩

theorem nodup_map_id_survivors (found : Condition → List Pointer) (group : List Condition) :
    ((survivors found group).map (·.id)).Nodup := by
  cases hfirst : group.find? (!·.negated) with
  | none => simp [survivors, hfirst]
  | some first =>
    rw [map_id_survivors hfirst, ← PointerTable.order_ofList]
    exact (PointerTable.wellFormed_ofList _).nodup.filter _

/-! ### Execution -/

/-- Intersecting keeps the values of the first list's table that all the other lists have. -/
theorem values_foldl_retain {t : PointerTable} (h : t.WellFormed) (lists : List (List Pointer)) :
    (lists.foldl (fun table list ↦ table.retain (listsId list)) t).WellFormed ∧
      (lists.foldl (fun table list ↦ table.retain (listsId list)) t).values =
        t.values.filter fun p ↦ lists.all (listsId · p.id) := by
  induction lists generalizing t with
  | nil => exact ⟨h, by simp⟩
  | cons list rest ih =>
    obtain ⟨hform, hvalues⟩ := ih (h.retain (listsId list))
    refine ⟨hform, ?_⟩
    rw [List.foldl_cons, hvalues, h.values_retain, List.filter_filter]
    simp only [List.all_cons, Bool.and_comm]

/-- Excluding keeps the values that no negated condition lists. -/
theorem values_run_exclude (c : Catalog) (answer : String → Option Json) {t : PointerTable}
    (h : t.WellFormed) (negated : List Condition) :
    ((exclude c t negated).run answer).values =
      t.values.filter fun p ↦ negated.all fun condition ↦
        !listsId (Index.found c answer condition) p.id := by
  induction negated generalizing t with
  | nil => simp [exclude]
  | cons condition rest ih =>
    rw [exclude, Fetch.run_bind, ih (h.retain _), h.values_retain, List.filter_filter]
    simp only [List.all_cons, Bool.and_comm, Index.found]

/-- What a group selects, in the terms of its execution: the ids of the first required list that
pass the other required lists and the negated ones. -/
theorem selects_iff_of_filter {first : Condition} {others : List Condition}
    (hrequired : group.filter (!·.negated) = first :: others) {id : Nat}
    (hid : id ∈ (found first).map (·.id)) :
    Selects found group id ↔
      (∀ condition ∈ others, listsId (found condition) id = true) ∧
        ∀ condition ∈ group.filter (·.negated), listsId (found condition) id = false := by
  have hmem : ∀ condition, condition ∈ first :: others ↔
      condition ∈ group ∧ condition.negated = false := by
    intro condition
    rw [← hrequired, List.mem_filter]
    simp
  constructor
  · rintro ⟨-, hall⟩
    constructor
    · intro condition hother
      obtain ⟨hgroup, hneg⟩ := (hmem condition).mp (List.mem_cons_of_mem first hother)
      exact listsId_iff.mpr ((hall condition hgroup).mpr hneg)
    · intro condition hcondition
      obtain ⟨hgroup, hneg⟩ := List.mem_filter.mp hcondition
      rw [Bool.eq_false_iff, ne_eq, listsId_iff, hall condition hgroup, hneg]
      exact Bool.noConfusion
  · rintro ⟨hothers, hnegated⟩
    obtain ⟨hfirst, hfirstNeg⟩ := (hmem first).mp List.mem_cons_self
    refine ⟨⟨first, hfirst, hfirstNeg⟩, fun condition hgroup ↦ ?_⟩
    cases hneg : condition.negated with
    | false =>
      have hlist : id ∈ (found condition).map (·.id) := by
        rcases List.mem_cons.mp ((hmem condition).mpr ⟨hgroup, hneg⟩) with rfl | hother
        · exact hid
        · exact listsId_iff.mp (hothers condition hother)
      simp only [hlist]
    | true =>
      have hnot := hnegated condition (List.mem_filter.mpr ⟨hgroup, hneg⟩)
      rw [Bool.eq_false_iff, ne_eq, listsId_iff] at hnot
      simp only [hnot, Bool.true_eq_false]

/-- A required condition that finds nothing leaves its group nothing. -/
theorem survivors_eq_nil {condition : Condition} (hgroup : condition ∈ group)
    (hrequired : condition.negated = false) (hempty : found condition = []) :
    survivors found group = [] := by
  have hnone : ∀ id, ¬ Selects found group id := by
    rintro id ⟨-, hall⟩
    have := (hall condition hgroup).mpr hrequired
    simp [hempty] at this
  rw [← List.map_eq_nil_iff, List.eq_nil_iff_forall_not_mem]
  exact fun id hid ↦ hnone id ((mem_map_id_survivors id).mp hid)

/-- Executing a group yields its survivors. -/
theorem run_groupPointers (c : Catalog) (answer : String → Option Json)
    (group : List Condition) :
    (groupPointers c group).run answer = survivors (Index.found c answer) group := by
  have hfind : group.find? (!·.negated) = (group.filter (!·.negated)).head? :=
    List.head?_filter.symm
  rw [groupPointers, List.partition_eq_filter_filter]
  cases hrequired : group.filter (!·.negated) with
  | nil =>
    rw [survivors, hfind, hrequired]
    rfl
  | cons first others =>
    have hnegated : group.filter (not ∘ (!·.negated)) = group.filter (·.negated) :=
      List.filter_congr fun condition _ ↦ by simp
    simp only [hnegated, Fetch.run_bind, Fetch.run_each]
    by_cases hany : ((first :: others).map fun condition ↦
        (Index.resolve c condition).run answer).any List.isEmpty = true
    · rw [if_pos hany, Fetch.run_done]
      simp only [List.any_map, List.any_eq_true, Function.comp_apply, List.isEmpty_iff] at hany
      obtain ⟨condition, hmem, hempty⟩ := hany
      rw [← hrequired, List.mem_filter] at hmem
      exact (survivors_eq_nil hmem.1 (by simpa using hmem.2) hempty).symm
    · rw [if_neg hany, Fetch.run_bind, Fetch.run_done, List.map_cons, intersect]
      obtain ⟨hform, hvalues⟩ := values_foldl_retain
        (PointerTable.wellFormed_ofList ((Index.resolve c first).run answer))
        (others.map fun condition ↦ (Index.resolve c condition).run answer)
      have hfirst : group.find? (!·.negated) = some first := by rw [hfind, hrequired, List.head?_cons]
      rw [values_run_exclude c answer hform, hvalues, List.filter_filter,
        PointerTable.values_ofList, survivors_of_find? hfirst, List.filter_filterMap,
        List.filterMap_filter]
      refine List.filterMap_congr fun id hid ↦ ?_
      have hselects : Selects (Index.found c answer) group id ↔ _ :=
        selects_iff_of_filter hrequired (List.mem_eraseDups.mp hid)
      change Option.filter _ (lastWithId? (Index.found c answer first) id) = _
      cases hlast : lastWithId? (Index.found c answer first) id with
      | none => simp
      | some p =>
        rw [Option.filter_some, PointerTable.id_of_lastWithId? hlast]
        refine if_congr ?_ rfl rfl
        rw [decide_eq_true_eq, hselects, Bool.and_eq_true, List.all_eq_true, List.all_map,
          List.all_eq_true, and_comm]
        simp [Index.found]

end Query

end ShardSearch
