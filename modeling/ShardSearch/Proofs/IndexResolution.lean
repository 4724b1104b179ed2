import ShardSearch.Proofs.GroupSemantics

/-!
What a condition finds in the index, told by files. A condition is looked up in some fields, in each
under some keys, and for each key in one file of every repository with a copy of the index; it finds
the pointers that these files list under the key (`mem_found_iff`). What a computation returns
depends on the answers to its own reads only (`Fetch.run_congr`). A group looks its required
conditions up, and its negated ones if that leaves it anything to exclude them from
(`reads_groupPointers`).
-/

set_option autoImplicit false

namespace ShardSearch

/-- Networks that agree on what a computation reads make no difference to it. -/
theorem Fetch.run_congr {α : Type} {answer other : String → Option Json} {m : Fetch α}
    (h : ∀ url ∈ m.reads answer, other url = answer url) : m.run other = m.run answer := by
  induction m with
  | done a => rfl
  | read url next ih =>
    rw [Fetch.reads, List.forall_mem_cons] at h
    rw [Fetch.run, Fetch.run, h.1]
    exact ih (answer url) h.2

theorem Fetch.reads_congr {α : Type} {answer other : String → Option Json} {m : Fetch α}
    (h : ∀ url ∈ m.reads answer, other url = answer url) : m.reads other = m.reads answer := by
  induction m with
  | done a => rfl
  | read url next ih =>
    rw [Fetch.reads, List.forall_mem_cons] at h
    rw [Fetch.reads, Fetch.reads, h.1, ih (answer url) h.2]

namespace Index

variable {c : Catalog} {answer other : String → Option Json} {condition : Condition}

theorem mem_run_lookup_iff {m : Manifest} {field : Field} {key : String} {p : Pointer} :
    p ∈ (lookup m field key).run answer ↔
      ∃ url ∈ m.indexUrls field key, p ∈ pointersUnder key (answer url) := by
  rw [run_lookup, List.mem_flatMap]

/-- A condition finds what its look-ups list, field by field and key by key. -/
theorem found_eq (c : Catalog) (answer : String → Option Json) (condition : Condition) :
    found c answer condition = (lookupFields condition.field).flatMap fun field ↦
      (keys c field condition.test).flatMap fun key ↦ (lookup c.manifest field key).run answer := by
  simp only [found, resolve, resolveOn, Fetch.run_bind, Fetch.run_each, Fetch.run_done,
    Condition.field_on, Condition.test_on, List.flatMap_def]

theorem mem_found_iff {p : Pointer} : p ∈ found c answer condition ↔
    ∃ field ∈ lookupFields condition.field, ∃ key ∈ keys c field condition.test,
      p ∈ (lookup c.manifest field key).run answer := by
  simp only [found_eq, List.mem_flatMap]

theorem found_congr (h : ∀ url ∈ (resolve c condition).reads answer, other url = answer url) :
    found c other condition = found c answer condition :=
  Fetch.run_congr h

end Index

namespace Query

section Reads

variable {found : Condition → List Pointer} {group : List Condition}

/-- A group comes to exclude something: it has required conditions, and each of them finds
something. -/
def Excludes (found : Condition → List Pointer) (group : List Condition) : Prop :=
  (∃ condition ∈ group, condition.negated = false) ∧
    ∀ condition ∈ group, condition.negated = false → found condition ≠ []

instance (found : Condition → List Pointer) : DecidablePred (Excludes found) := fun _ ↦
  inferInstanceAs (Decidable (_ ∧ _))

theorem Selects.excludes {id : Nat} (h : Selects found group id) : Excludes found group := by
  refine ⟨h.1, fun condition hcondition hrequired hempty ↦ ?_⟩
  have hlisted := (h.2 condition hcondition).mpr hrequired
  rw [hempty] at hlisted
  exact absurd hlisted List.not_mem_nil

theorem reads_exclude (c : Catalog) (answer : String → Option Json) (t : PointerTable)
    (negated : List Condition) : (exclude c t negated).reads answer =
      negated.flatMap fun condition ↦ (Index.resolve c condition).reads answer := by
  induction negated generalizing t with
  | nil => rfl
  | cons condition rest ih => rw [exclude, Fetch.reads_bind, ih, List.flatMap_cons]

/-- The reads of a group, in their order. -/
theorem reads_groupPointers (c : Catalog) (answer : String → Option Json)
    (group : List Condition) : (groupPointers c group).reads answer =
      (group.filter (!·.negated)).flatMap (fun condition ↦
          (Index.resolve c condition).reads answer) ++
        if Excludes (Index.found c answer) group then (group.filter (·.negated)).flatMap
          fun condition ↦ (Index.resolve c condition).reads answer
        else [] := by
  have hrequired : ∀ condition, condition ∈ group.filter (!·.negated) ↔
      condition ∈ group ∧ condition.negated = false := by
    intro condition
    simp
  have hnegated : group.filter (not ∘ (!·.negated)) = group.filter (·.negated) :=
    List.filter_congr fun condition _ ↦ by simp
  rw [groupPointers, List.partition_eq_filter_filter, hnegated]
  cases hfilter : group.filter (!·.negated) with
  | nil =>
    have hnone : ¬ Excludes (Index.found c answer) group := by
      rintro ⟨⟨condition, hcondition⟩, -⟩
      rw [← hrequired, hfilter] at hcondition
      exact absurd hcondition List.not_mem_nil
    rw [if_neg hnone]
    rfl
  | cons first others =>
    have hany : ((first :: others).map fun condition ↦
        (Index.resolve c condition).run answer).any List.isEmpty = true ↔
          ¬ Excludes (Index.found c answer) group := by
      have hsome : ∃ condition ∈ group, condition.negated = false :=
        ⟨first, (hrequired first).mp (hfilter ▸ List.mem_cons_self)⟩
      simp only [Excludes, hsome, true_and, ← hfilter, List.any_map, List.any_eq_true, hrequired,
        Function.comp_apply, List.isEmpty_iff, not_forall, ne_eq, not_not, Index.found]
      tauto
    rw [Fetch.reads_bind, Fetch.reads_each, Fetch.run_each]
    congr 1
    by_cases hexcludes : Excludes (Index.found c answer) group
    · rw [if_neg (mt hany.mp (not_not.mpr hexcludes)), if_pos hexcludes, Fetch.reads_bind,
        reads_exclude, Fetch.reads_done, List.append_nil]
    · rw [if_pos (hany.mpr hexcludes), if_neg hexcludes, Fetch.reads_done]

end Reads

end Query

end ShardSearch
