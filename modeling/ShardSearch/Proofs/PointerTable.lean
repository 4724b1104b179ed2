import Mathlib.Data.List.Induction
import Mathlib.Data.List.Nodup
import ShardSearch.Pointer.Table

/-!
What a table of pointers holds. In a well-formed table the order lists every key once and each
pointer is stored under its own id; all operations keep tables well-formed. The content of a table
is then the list of its values, and each operation is one on that list: retaining is filtering,
inserting appends what is new, and a table made from a list has the ids in the order of their first
occurrences, each with the last pointer that bears it.

The order and the pointers are changed apart, so that the two belong together is a fact about the
changes that a table has been through (`after`): `WellFormed.apply` is the step, and
`values_after_changes` says what follows for a table at any time. In particular the ids of the order
take all pointers out of the table, one by one (`drain_order`).
-/

set_option autoImplicit false

namespace ShardSearch.PointerTable

/-- The order lists the keys, each once, and a pointer is stored under its own id. -/
structure WellFormed (t : PointerTable) : Prop where
  nodup : t.order.Nodup
  mem_order_iff : ∀ id : Nat, id ∈ t.order ↔ t.pointers[id]?.isSome
  id_eq : ∀ (id : Nat) (p : Pointer), t.pointers[id]? = some p → p.id = id

/-- The last pointer of a list that bears an id. -/
def lastWithId? (pointers : List Pointer) (id : Nat) : Option Pointer :=
  pointers.findRev? (·.id == id)

section Keeps

variable {t : PointerTable}

theorem getElem?_insert (p : Pointer) (id : Nat) :
    (t.pointers.insert p.id p)[id]? = if p.id = id then some p else t.pointers[id]? := by
  simp only [Std.TreeMap.getElem?_insert, Nat.compare_eq_eq]

theorem wellFormed_empty : empty.WellFormed where
  nodup := List.nodup_nil
  mem_order_iff id := by simp [empty]
  id_eq id p h := by simp [empty] at h

theorem WellFormed.contains_iff (h : t.WellFormed) (id : Nat) :
    t.pointers.contains id = true ↔ id ∈ t.order := by
  rw [h.mem_order_iff, Std.TreeMap.contains_eq_isSome_getElem?]

/-- Appending a new id with its pointer keeps a table well-formed. -/
private theorem WellFormed.append (h : t.WellFormed) {p : Pointer} (hp : p.id ∉ t.order) :
    (PointerTable.mk (t.order ++ [p.id]) (t.pointers.insert p.id p)).WellFormed where
  nodup := by
    rw [List.nodup_append]
    refine ⟨h.nodup, List.nodup_singleton _, ?_⟩
    intro id hid other hother heq
    rw [List.mem_singleton] at hother
    exact hp (hother ▸ heq ▸ hid)
  mem_order_iff id := by
    rw [List.mem_append, List.mem_singleton, h.mem_order_iff, getElem?_insert]
    by_cases heq : p.id = id
    · simp [heq]
    · simp [heq, Ne.symm heq]
  id_eq id q hq := by
    rw [getElem?_insert] at hq
    by_cases heq : p.id = id
    · rw [if_pos heq] at hq
      exact (Option.some.inj hq) ▸ heq
    · rw [if_neg heq] at hq
      exact h.id_eq id q hq

theorem WellFormed.insertIfAbsent (h : t.WellFormed) (p : Pointer) :
    (t.insertIfAbsent p).WellFormed := by
  unfold PointerTable.insertIfAbsent
  by_cases hp : p.id ∈ t.order
  · rw [if_pos ((h.contains_iff p.id).mpr hp)]
    exact h
  · rw [if_neg (mt (h.contains_iff p.id).mp hp)]
    exact h.append hp

theorem WellFormed.set (h : t.WellFormed) (p : Pointer) : (t.set p).WellFormed := by
  unfold PointerTable.set
  by_cases hp : p.id ∈ t.order
  · rw [if_pos ((h.contains_iff p.id).mpr hp)]
    refine ⟨h.nodup, ?_, ?_⟩
    · intro id
      rw [getElem?_insert]
      by_cases heq : p.id = id
      · simpa [heq] using heq ▸ hp
      · simpa [heq] using h.mem_order_iff id
    · intro id q hq
      rw [getElem?_insert] at hq
      by_cases heq : p.id = id
      · rw [if_pos heq] at hq
        exact (Option.some.inj hq) ▸ heq
      · rw [if_neg heq] at hq
        exact h.id_eq id q hq
  · rw [if_neg (mt (h.contains_iff p.id).mp hp)]
    exact h.append hp

/-- The order of a well-formed table after retaining: the ids that are kept. -/
theorem WellFormed.order_retain (h : t.WellFormed) (keep : Nat → Bool) :
    (t.retain keep).order = t.order.filter keep := by
  refine List.filter_congr fun id hid ↦ ?_
  obtain ⟨p, hp⟩ := Option.isSome_iff_exists.mp ((h.mem_order_iff id).mp hid)
  rw [Std.TreeMap.contains_eq_isSome_getElem?, Std.TreeMap.getElem?_filter', hp]
  by_cases hkeep : keep id <;> simp [hkeep]

theorem getElem?_retain (keep : Nat → Bool) (id : Nat) :
    (t.retain keep).pointers[id]? = if keep id then t.pointers[id]? else none := by
  simp only [PointerTable.retain, Std.TreeMap.getElem?_filter']
  by_cases hkeep : keep id <;> cases t.pointers[id]? <;> simp [hkeep]

theorem WellFormed.retain (h : t.WellFormed) (keep : Nat → Bool) :
    (t.retain keep).WellFormed where
  nodup := h.order_retain keep ▸ h.nodup.filter keep
  mem_order_iff id := by
    rw [h.order_retain, List.mem_filter, h.mem_order_iff, getElem?_retain]
    by_cases hkeep : keep id <;> simp [hkeep]
  id_eq id p hp := by
    rw [getElem?_retain] at hp
    by_cases hkeep : keep id
    · rw [if_pos hkeep] at hp
      exact h.id_eq id p hp
    · simp [hkeep] at hp

theorem WellFormed.foldl_set (h : t.WellFormed) (pointers : List Pointer) :
    (pointers.foldl PointerTable.set t).WellFormed := by
  induction pointers generalizing t with
  | nil => exact h
  | cons p rest ih => exact ih (h.set p)

theorem wellFormed_ofList (pointers : List Pointer) : (ofList pointers).WellFormed :=
  wellFormed_empty.foldl_set pointers

/-! ### Values -/

/-- The values of a well-formed table bear the ids of its order. -/
theorem WellFormed.map_id_values (h : t.WellFormed) : t.values.map (·.id) = t.order := by
  have hid : ∀ id ∈ t.order, (t.pointers[id]?).map (·.id) = some id := by
    intro id hid
    obtain ⟨p, hp⟩ := Option.isSome_iff_exists.mp ((h.mem_order_iff id).mp hid)
    rw [hp, Option.map_some, h.id_eq id p hp]
  rw [values, List.map_filterMap, List.filterMap_congr hid, List.filterMap_some]

theorem WellFormed.values_retain (h : t.WellFormed) (keep : Nat → Bool) :
    (t.retain keep).values = t.values.filter fun p ↦ keep p.id := by
  rw [values, h.order_retain, List.filterMap_filter, values, List.filter_filterMap]
  refine List.filterMap_congr fun id _ ↦ ?_
  rw [getElem?_retain]
  cases hp : t.pointers[id]? with
  | none => simp
  | some p =>
    have hid : p.id = id := h.id_eq id p hp
    by_cases hkeep : keep id <;> simp [Option.filter, hid, hkeep]

theorem WellFormed.values_insertIfAbsent (h : t.WellFormed) (p : Pointer) :
    (t.insertIfAbsent p).values = if p.id ∈ t.order then t.values else t.values ++ [p] := by
  unfold PointerTable.insertIfAbsent
  by_cases hp : p.id ∈ t.order
  · rw [if_pos ((h.contains_iff p.id).mpr hp), if_pos hp]
  · rw [if_neg (mt (h.contains_iff p.id).mp hp), if_neg hp, values, List.filterMap_append]
    congr 1
    · refine List.filterMap_congr fun id hid ↦ ?_
      have hne : p.id ≠ id := fun heq ↦ hp (heq ▸ hid)
      rw [getElem?_insert, if_neg hne]
    · simp

end Keeps

/-! ### Tables from lists -/

theorem ofList_append_singleton (pointers : List Pointer) (p : Pointer) :
    ofList (pointers ++ [p]) = (ofList pointers).set p := by
  simp [ofList]

theorem lastWithId?_append_singleton (pointers : List Pointer) (p : Pointer) (id : Nat) :
    lastWithId? (pointers ++ [p]) id = if p.id = id then some p else lastWithId? pointers id := by
  by_cases heq : p.id = id <;> simp [lastWithId?, heq]

theorem getElem?_ofList (pointers : List Pointer) (id : Nat) :
    (ofList pointers).pointers[id]? = lastWithId? pointers id := by
  induction pointers using List.reverseRecOn with
  | nil => simp [ofList, empty, lastWithId?]
  | append_singleton pointers p ih =>
    rw [ofList_append_singleton, lastWithId?_append_singleton, ← ih]
    exact getElem?_insert p id

theorem order_ofList (pointers : List Pointer) :
    (ofList pointers).order = (pointers.map (·.id)).eraseDups := by
  induction pointers using List.reverseRecOn with
  | nil => simp [ofList, empty]
  | append_singleton pointers p ih =>
    have hmem : (ofList pointers).pointers.contains p.id = true ↔ p.id ∈ pointers.map (·.id) := by
      rw [(wellFormed_ofList pointers).contains_iff, ih, List.mem_eraseDups]
    rw [ofList_append_singleton, List.map_append, List.eraseDups_append, ← ih]
    by_cases hp : p.id ∈ pointers.map (·.id)
    · have hdrop : ([p].map (·.id)).removeAll (pointers.map (·.id)) = [] := by
        simpa [List.removeAll] using hp
      rw [hdrop, set, if_pos (hmem.mpr hp), List.eraseDups_nil, List.append_nil]
    · have hkeep : ([p].map (·.id)).removeAll (pointers.map (·.id)) = [p.id] := by
        simpa [List.removeAll] using hp
      rw [hkeep, set, if_neg (mt hmem.mp hp)]
      rfl

/-- The values of a table made from a list: the ids in the order of their first occurrences, each
with the last pointer that bears it. -/
theorem values_ofList (pointers : List Pointer) :
    (ofList pointers).values =
      (pointers.map (·.id)).eraseDups.filterMap (lastWithId? pointers) := by
  rw [values, order_ofList]
  exact List.filterMap_congr fun id _ ↦ getElem?_ofList pointers id

theorem id_of_lastWithId? {pointers : List Pointer} {id : Nat} {p : Pointer}
    (h : lastWithId? pointers id = some p) : p.id = id := by
  rw [lastWithId?, List.findRev?_eq_find?_reverse] at h
  simpa using List.find?_some h

/-! ### Changes of a table -/

inductive Change where
  /-- The pointers of a list take the place of all that the table holds. -/
  | fill (pointers : List Pointer)
  | insertIfAbsent (p : Pointer)
  | retain (keep : Nat → Bool)

def Change.apply (t : PointerTable) : Change → PointerTable
  | fill pointers => ofList pointers
  | insertIfAbsent p => t.insertIfAbsent p
  | retain keep => t.retain keep

/-- The table after some changes, the empty one at first. -/
def after (changes : List Change) : PointerTable := changes.foldl Change.apply empty

/-- The pointers that are taken out of a map by ids, one after the other, and what is left of it. -/
def drain : List Nat → Std.TreeMap Nat Pointer → List Pointer × Std.TreeMap Nat Pointer
  | [], pointers => ([], pointers)
  | id :: rest, pointers =>
    let later := drain rest (pointers.erase id)
    (pointers[id]?.toList ++ later.1, later.2)

section Changes

variable {t : PointerTable}

theorem WellFormed.apply (h : t.WellFormed) (change : Change) : (change.apply t).WellFormed := by
  cases change with
  | fill pointers => exact wellFormed_ofList pointers
  | insertIfAbsent p => exact h.insertIfAbsent p
  | retain keep => exact h.retain keep

theorem wellFormed_after (changes : List Change) : (after changes).WellFormed := by
  induction changes using List.reverseRecOn with
  | nil => exact wellFormed_empty
  | append_singleton changes change ih =>
    rw [after, List.foldl_append]
    exact ih.apply change

/-- Ids that differ take out what is under them, and leave the rest. -/
theorem drain_of_nodup {ids : List Nat} (hnodup : ids.Nodup)
    (pointers : Std.TreeMap Nat Pointer) :
    (drain ids pointers).1 = ids.filterMap (pointers[·]?) ∧
      ∀ id : Nat, (drain ids pointers).2[id]? = if id ∈ ids then none else pointers[id]? := by
  induction ids generalizing pointers with
  | nil => exact ⟨rfl, fun _ ↦ rfl⟩
  | cons first rest ih =>
    obtain ⟨hfirst, hrest⟩ := List.nodup_cons.mp hnodup
    obtain ⟨hfound, hleft⟩ := ih hrest (pointers.erase first)
    have herase : ∀ id : Nat, (pointers.erase first)[id]? =
        if first = id then none else pointers[id]? := by
      intro id
      simp only [Std.TreeMap.getElem?_erase, Nat.compare_eq_eq]
    have hlater : rest.filterMap ((pointers.erase first)[·]?) = rest.filterMap (pointers[·]?) := by
      refine List.filterMap_congr fun id hid ↦ ?_
      have hne : first ≠ id := fun heq ↦ hfirst (heq ▸ hid)
      rw [herase, if_neg hne]
    refine ⟨?_, fun id ↦ ?_⟩
    · simp only [drain]
      rw [hfound, hlater]
      cases hpointer : pointers[first]? with
      | none => rw [List.filterMap_cons_none hpointer, Option.toList_none, List.nil_append]
      | some p => rw [List.filterMap_cons_some hpointer, Option.toList_some, List.singleton_append]
    · simp only [drain]
      rw [hleft, herase]
      by_cases hid : id ∈ rest
      · rw [if_pos hid, if_pos (List.mem_cons_of_mem first hid)]
      · by_cases heq : first = id
        · rw [if_neg hid, if_pos heq, if_pos (heq ▸ List.mem_cons_self)]
        · have hmem : id ∉ first :: rest := List.not_mem_cons_of_ne_of_not_mem (Ne.symm heq) hid
          rw [if_neg hid, if_neg heq, if_neg hmem]

/-- The order of a well-formed table takes all its pointers out of it. -/
theorem WellFormed.drain_order (h : t.WellFormed) :
    (drain t.order t.pointers).1 = t.values ∧
      ∀ id : Nat, (drain t.order t.pointers).2[id]? = none := by
  obtain ⟨hfound, hleft⟩ := drain_of_nodup h.nodup t.pointers
  refine ⟨hfound, fun id ↦ ?_⟩
  rw [hleft]
  split
  · rfl
  · next hid =>
    rw [h.mem_order_iff, Option.not_isSome_iff_eq_none] at hid
    exact hid

theorem WellFormed.mem_values_iff (h : t.WellFormed) (p : Pointer) :
    p ∈ t.values ↔ t.pointers[p.id]? = some p := by
  rw [values, List.mem_filterMap]
  constructor
  · rintro ⟨id, -, hid⟩
    rw [h.id_eq id p hid]
    exact hid
  · intro hp
    exact ⟨p.id, (h.mem_order_iff p.id).mpr (hp ▸ rfl), hp⟩

end Changes

/-- Whatever changes a table has been through, it is well-formed. So its values are all pointers in
it, each once and in the order of the ids, and this is all that its ids take out of it; and further
retaining leaves the ids that are kept in their order, with the pointers that they have. -/
theorem values_after_changes (changes : List Change) :
    let t := after changes
    t.WellFormed ∧
      ((∀ p, p ∈ t.values ↔ t.pointers[p.id]? = some p) ∧ t.values.map (·.id) = t.order ∧
        t.values.Nodup ∧ t.size = t.values.length) ∧
      ((drain t.order t.pointers).1 = t.values ∧
        ∀ id : Nat, (drain t.order t.pointers).2[id]? = none) ∧
      ∀ keep, (t.retain keep).order = t.order.filter keep ∧
        ∀ id : Nat, (t.retain keep).pointers[id]? =
          if keep id then t.pointers[id]? else none := by
  intro t
  have h : t.WellFormed := wellFormed_after changes
  have hsize : t.size = t.values.length := by rw [size, ← h.map_id_values, List.length_map]
  have hnodup : (t.values.map (·.id)).Nodup := h.map_id_values ▸ h.nodup
  exact ⟨h, ⟨h.mem_values_iff, h.map_id_values, hnodup.of_map, hsize⟩, h.drain_order,
    fun keep ↦ ⟨h.order_retain keep, getElem?_retain keep⟩⟩

end ShardSearch.PointerTable
