import Mathlib.Algebra.BigOperators.Group.Multiset.Basic
import ShardSearch.Proofs.IndexSegments

/-!
The reads of a plan, counted. A condition is asked for at its `Index.addresses`: those of its key,
or of every known value that meets it, in every copy of the index, and for free text in every text
field. A group is asked for at its `Query.addresses`: without a required condition it reads nothing;
else it reads for all its required conditions, whether or not one of them finds nothing, and for its
negated ones just when each required one finds something, whether or not they have an id in common.

Reads that are under way together have no order of their own, so they are counted as a multiset.
`Plan.reads_summed` adds them up over the groups: no read is repeated or left out, whichever reads
fail, and the ranking plays no part.
-/

set_option autoImplicit false

namespace ShardSearch

/-- The elements of a concatenation are those of its parts. -/
theorem coe_flatMap {α β : Type} (items : List α) (f : α → List β) :
    (items.flatMap f : Multiset β) = (items.map fun a ↦ (f a : Multiset β)).sum := by
  induction items with
  | nil => rfl
  | cons a rest ih =>
    rw [List.flatMap_cons, ← Multiset.coe_add, ih, List.map_cons, List.sum_cons]

namespace Index

/-- The addresses that a test on one field is asked for at. -/
def addressesOn (c : Catalog) (field : Field) : Test → Multiset String
  | .keyword key => c.manifest.indexUrls field key
  | .compare op bound =>
    (((c.numericValues field).filter (op.holds · bound)).map fun value ↦
      (c.manifest.indexUrls field value.plain : Multiset String)).sum
  | .range first last =>
    (((c.numericValues field).filter fun value ↦
      first.atMost value && value.atMost last).map fun value ↦
        (c.manifest.indexUrls field value.plain : Multiset String)).sum
  | .deferred _ _ => 0

/-- The addresses that a condition is asked for at. -/
def addresses (c : Catalog) (condition : Condition) : Multiset String :=
  if condition.field = .freeText then
    ([.guildName, .guildDescription, .profileTag, .profileTraits].map fun field ↦
      addressesOn c field condition.test).sum
  else addressesOn c condition.field condition.test

variable (c : Catalog) (network : String → Option Json)

theorem addressesOn_eq (field : Field) (test : Test) :
    addressesOn c field test = ((keys c field test).flatMap (c.manifest.indexUrls field) :) := by
  rw [coe_flatMap]
  cases test with
  | keyword key => rw [keys, List.map_singleton, List.sum_singleton, addressesOn]
  | compare op bound => rw [keys, List.map_map, addressesOn, Function.comp_def]
  | range first last => rw [keys, List.map_map, addressesOn, Function.comp_def]
  | deferred kind text => rfl

/-- A condition reads at its addresses, whatever the reads come to. -/
theorem coe_reads_resolve (condition : Condition) :
    ((resolve c condition).reads network : Multiset String) = addresses c condition := by
  have hplaces : (places c condition).map (·.url) = (lookupFields condition.field).flatMap
      fun field ↦ (keys c field condition.test).flatMap (c.manifest.indexUrls field) := by
    simp [places, List.map_flatMap, Function.comp_def]
  rw [reads_resolve, hplaces, coe_flatMap]
  simp only [← addressesOn_eq, lookupFields, addresses]
  split
  · rfl
  · rw [List.map_singleton, List.sum_singleton]

end Index

namespace Query

/-- The addresses that a group is asked for at, given what conditions find. -/
def addresses (c : Catalog) (found : Condition → List Pointer) (group : List Condition) :
    Multiset String :=
  if ∀ condition ∈ group, condition.negated = true then 0
  else
    ((group.filter (!·.negated)).map (Index.addresses c)).sum +
      if ∀ condition ∈ group, condition.negated = false → found condition ≠ [] then
        ((group.filter (·.negated)).map (Index.addresses c)).sum
      else 0

theorem coe_reads_groupPointers (c : Catalog) (network : String → Option Json)
    (group : List Condition) :
    ((groupPointers c group).reads network : Multiset String) =
      addresses c (Index.found c network) group := by
  have hsum : ∀ conditions : List Condition,
      (conditions.flatMap fun condition ↦ (Index.resolve c condition).reads network :
        Multiset String) = (conditions.map (Index.addresses c)).sum := by
    intro conditions
    simp only [coe_flatMap, Index.coe_reads_resolve]
  rw [reads_groupPointers, ← Multiset.coe_add, hsum, addresses]
  by_cases hall : ∀ condition ∈ group, condition.negated = true
  · have hrequired : group.filter (!·.negated) = [] :=
      List.filter_eq_nil_iff.mpr fun condition hcondition ↦ by simp [hall condition hcondition]
    have hnone : ¬ Excludes (Index.found c network) group := by
      rintro ⟨⟨condition, hcondition, hfalse⟩, -⟩
      rw [hall condition hcondition] at hfalse
      cases hfalse
    rw [if_pos hall, if_neg hnone, hrequired]
    rfl
  · have hsome : ∃ condition ∈ group, condition.negated = false := by
      simpa using hall
    rw [if_neg hall]
    congr 1
    by_cases hfound : ∀ condition ∈ group, condition.negated = false →
        Index.found c network condition ≠ []
    · rw [if_pos hfound, if_pos ⟨hsome, hfound⟩, hsum]
    · rw [if_neg hfound, if_neg fun hexcludes ↦ hfound hexcludes.2]
      rfl

end Query

namespace Plan

theorem reads_pointers (p : Plan) (c : Catalog) (network : String → Option Json)
    (ranking : Ranking) : (p.pointers c ranking).reads network =
      p.groups.flatMap fun group ↦ (Query.groupPointers c group).reads network := by
  rw [pointers, Fetch.reads_bind, Fetch.reads_each, Fetch.reads_done, List.append_nil]

/-- A plan reads what its groups are asked for at, each address as often as they ask for it, and
the ranking makes no difference to its reads. -/
theorem reads_summed (p : Plan) (c : Catalog) (network : String → Option Json)
    (ranking : Ranking) :
    ((p.pointers c ranking).reads network : Multiset String) =
        (p.groups.map (Query.addresses c (Index.found c network))).sum ∧
      ∀ other : Ranking,
        (p.pointers c other).reads network = (p.pointers c ranking).reads network := by
  refine ⟨?_, fun other ↦ ?_⟩
  · rw [reads_pointers, coe_flatMap]
    simp only [Query.coe_reads_groupPointers]
  · rw [reads_pointers, reads_pointers]

end Plan

end ShardSearch
