import ShardSearch.Proofs.QueryScan

/-!
The alternatives of a query are read one by one. Texts with separators between them (`Joined`) have
the groups and the filters that they have alone, in their order (`Plan.ofQuery_of_joined`): nothing
that stands in one of them has a say in how another one is read, be it a quotation mark without a
partner.

A separator needs a space at each end, and it takes both. So the text before it must not have a
separator together with one more space, which would be found first and leave no space for the other
one; of the text after it nothing need be asked but what is asked of all.
-/

set_option autoImplicit false

namespace ShardSearch

namespace Query

/-- Texts with separators between them, of which any may stand at each place. -/
inductive Joined : List String → String → Prop where
  | nil : Joined [] ""
  | single (part : String) : Joined [part] part
  | cons (part : String) {separator next query : String} {later : List String}
      (hseparator : separator.toList ∈ separators) (hlater : Joined (next :: later) query) :
      Joined (part :: next :: later) (part ++ separator ++ query)

end Query

open Query

namespace Plan

variable {part separator : String}

/-- A separator parts the plan of what is before it from the plan of what is after it. -/
theorem ofQuery_append_separator (hpart : Unseparated (part.toList ++ [' ']))
    (hseparator : separator.toList ∈ separators) (query : String) :
    (ofQuery (part ++ separator ++ query)).groups =
        (ofQuery part).groups ++ (ofQuery query).groups ∧
      (ofQuery (part ++ separator ++ query)).filters =
        (ofQuery part).filters ++ (ofQuery query).filters := by
  have hjoined : Query.groups (part ++ separator ++ query).toList =
      Query.groups part.toList ++ Query.groups query.toList := by
    have halone : Query.groups part.toList = [part.toList] :=
      groups_of_unseparated (hpart.of_part (List.prefix_append _ _).isInfix)
    rw [String.toList_append, String.toList_append, groups_append hpart hseparator, halone,
      List.singleton_append]
  constructor
  · simp only [ofQuery, hjoined, List.map_append, List.filter_append]
  · simp only [ofQuery, hjoined, List.flatMap_append]

/-- Texts of which none has a separator together with a space after it: whatever separators stand
between them, the plan of the whole has the groups of their plans and the filters of their plans, in
their order. -/
theorem ofQuery_of_joined {parts : List String} {query : String} (h : Joined parts query)
    (hparts : ∀ part ∈ parts, Unseparated (part.toList ++ [' '])) :
    (ofQuery query).groups = (parts.flatMap fun part ↦ (ofQuery part).groups) ∧
      (ofQuery query).filters = parts.flatMap fun part ↦ (ofQuery part).filters := by
  induction h with
  | nil => decide +kernel
  | single part => simp
  | cons part hseparator _ ih =>
    obtain ⟨hgroups, hfilters⟩ := ih fun other hother ↦ hparts other (List.mem_cons_of_mem _ hother)
    obtain ⟨hgroups', hfilters'⟩ :=
      ofQuery_append_separator (hparts part List.mem_cons_self) hseparator _
    rw [hgroups', hfilters', hgroups, hfilters]
    exact ⟨rfl, rfl⟩

/-- Quotation marks without partners in two of the parts, the word of a separator alone, a word
without index terms, and a sign of separation at the head of a part. -/
def looseParts : List String := ["tag:\"open", "or", "the", "|has:boosts cat\" dog"]

theorem ofQuery_of_looseParts :
    (∀ part ∈ looseParts, Unseparated (part.toList ++ [' '])) ∧
    (ofQuery "tag:\"open | or oR the OR |has:boosts cat\" dog").groups =
      (looseParts.flatMap fun part ↦ (ofQuery part).groups) ∧
    (ofQuery "tag:\"open | or oR the OR |has:boosts cat\" dog").filters =
      looseParts.flatMap fun part ↦ (ofQuery part).filters := by
  have hparts : ∀ part ∈ looseParts, Unseparated (part.toList ++ [' ']) := by decide +kernel
  have hjoined : Joined looseParts "tag:\"open | or oR the OR |has:boosts cat\" dog" :=
    .cons "tag:\"open" (by decide +kernel : " | ".toList ∈ separators)
      (.cons "or" (by decide +kernel : " oR ".toList ∈ separators)
        (.cons "the" (by decide +kernel : " OR ".toList ∈ separators) (.single _)))
  exact ⟨hparts, ofQuery_of_joined hjoined hparts⟩

end Plan

end ShardSearch
