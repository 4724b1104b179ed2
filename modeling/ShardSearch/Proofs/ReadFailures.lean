import ShardSearch.Proofs.IndexResolution
import ShardSearch.Proofs.PlanResult

/-!
Reads that fail. An index file that cannot be read lists nothing, so with more failures a condition
finds no more than with fewer (`found_subset_of_failing`). For required conditions that is a loss;
for negated ones it would be a gain, and they are therefore asked to be spared. A plan then loses
ids by additional failures and never wins one.
-/

set_option autoImplicit false

namespace ShardSearch

/-- The network whose reads of some addresses fail. -/
def Fetch.failing (failed : String → Bool) (network : String → Option Json) (url : String) :
    Option Json :=
  if failed url then none else network url

section Failures

variable {network : String → Option Json} {failed more : String → Bool} {c : Catalog}
  {condition : Condition} {group : List Condition}

theorem Fetch.failing_of_failed {url : String} (h : failed url = true) :
    Fetch.failing failed network url = none := by
  rw [Fetch.failing, if_pos h]

/-- Where a read that fails more easily succeeds, both networks give the same answer. -/
theorem Fetch.failing_congr (hmore : ∀ url, failed url = true → more url = true) {url : String}
    (h : more url = true → failed url = true) :
    Fetch.failing failed network url = Fetch.failing more network url := by
  rw [Fetch.failing, Fetch.failing, Bool.eq_iff_iff.mpr ⟨hmore url, h⟩]

/-- With more failures a read fails, or gets the same answer as with fewer. -/
theorem Fetch.failing_cases (network : String → Option Json)
    (hmore : ∀ url, failed url = true → more url = true) (url : String) :
    Fetch.failing more network url = none ∨
      Fetch.failing failed network url = Fetch.failing more network url := by
  by_cases hfails : more url = true
  · exact .inl (Fetch.failing_of_failed hfails)
  · exact .inr (Fetch.failing_congr hmore fun h ↦ absurd h hfails)

namespace Index

theorem pointersUnder_none (key : String) : pointersUnder key none = [] := rfl

/-- What is found in spite of more failures is found with fewer. -/
theorem found_subset_of_failing (hmore : ∀ url, failed url = true → more url = true) :
    found c (Fetch.failing more network) condition ⊆
      found c (Fetch.failing failed network) condition := by
  intro p hp
  obtain ⟨field, hfield, key, hkey, hlookup⟩ := mem_found_iff.mp hp
  obtain ⟨url, hurl, hlisted⟩ := mem_run_lookup_iff.mp hlookup
  refine mem_found_iff.mpr ⟨field, hfield, key, hkey, mem_run_lookup_iff.mpr ⟨url, hurl, ?_⟩⟩
  rcases Fetch.failing_cases network hmore url with hfails | hsame
  · rw [hfails, pointersUnder_none] at hlisted
    exact absurd hlisted List.not_mem_nil
  · rwa [hsame]

/-- A condition none of whose files fails newly finds the same as before. -/
theorem found_eq_of_spared (hmore : ∀ url, failed url = true → more url = true)
    (hspared : ∀ url ∈ (resolve c condition).reads (Fetch.failing more network),
      more url = true → failed url = true) :
    found c (Fetch.failing failed network) condition =
      found c (Fetch.failing more network) condition :=
  found_congr fun url hurl ↦ Fetch.failing_congr hmore (hspared url hurl)

end Index

/-- The negated conditions of a group, as far as they are looked up, are spared by the additional
failures. -/
def Query.Spared (c : Catalog) (network : String → Option Json) (failed more : String → Bool)
    (group : List Condition) : Prop :=
  Query.Excludes (Index.found c (Fetch.failing more network)) group →
    ∀ condition ∈ group, condition.negated = true →
      ∀ url ∈ (Index.resolve c condition).reads (Fetch.failing more network),
        more url = true → failed url = true

/-- A group selects in spite of more failures what it selects with fewer. -/
theorem Query.Selects.of_failing (hmore : ∀ url, failed url = true → more url = true)
    (hspared : Query.Spared c network failed more group) {id : Nat}
    (h : Query.Selects (Index.found c (Fetch.failing more network)) group id) :
    Query.Selects (Index.found c (Fetch.failing failed network)) group id := by
  refine ⟨h.1, fun condition hcondition ↦ ?_⟩
  rw [← h.2 condition hcondition]
  cases hnegated : condition.negated with
  | true =>
    rw [Index.found_eq_of_spared hmore (hspared h.excludes condition hcondition hnegated)]
  | false =>
    have hlisted := (h.2 condition hcondition).mpr hnegated
    have hsubset : (Index.found c (Fetch.failing more network) condition).map (·.id) ⊆
        (Index.found c (Fetch.failing failed network) condition).map (·.id) :=
      List.map_subset _ (Index.found_subset_of_failing hmore)
    exact ⟨fun _ ↦ hlisted, fun _ ↦ hsubset hlisted⟩

end Failures

/-- With more failures a plan finds only ids that it finds with fewer, as long as no file that fails
newly is read for a negated condition; a plan without negated conditions only loses ids, whatever
fails. -/
theorem Plan.ids_lost_by_failures (p : Plan) (c : Catalog) (network : String → Option Json)
    (ranking : Ranking) {failed more : String → Bool}
    (hmore : ∀ url, failed url = true → more url = true) :
    ((∀ group ∈ p.groups, Query.Spared c network failed more group) →
      (p.ids c ranking).run (Fetch.failing more network) ⊆
        (p.ids c ranking).run (Fetch.failing failed network)) ∧
      ((∀ group ∈ p.groups, ∀ condition ∈ group, condition.negated = false) →
        (p.ids c ranking).run (Fetch.failing more network) ⊆
          (p.ids c ranking).run (Fetch.failing failed network)) := by
  have hspare : (∀ group ∈ p.groups, Query.Spared c network failed more group) →
      (p.ids c ranking).run (Fetch.failing more network) ⊆
        (p.ids c ranking).run (Fetch.failing failed network) := by
    intro hspared id hid
    rw [mem_run_ids] at hid ⊢
    obtain ⟨group, hgroup, hselects⟩ := hid
    exact ⟨group, hgroup, hselects.of_failing hmore (hspared group hgroup)⟩
  refine ⟨hspare, fun hrequired ↦ hspare fun group hgroup _ condition hcondition hnegated ↦ ?_⟩
  rw [hrequired group hgroup condition hcondition] at hnegated
  cases hnegated

/-- Two repositories with a copy of the index. -/
def twoCopies : Catalog := ⟨⟨3, 2, "r", "\x7b\x7d", [], [], none, 100, none⟩, none⟩

/-- Three cats, one of them in the second copy only, and one of them tagged a dog. -/
def catNetwork (url : String) : Option Json :=
  if url = "r1/index/guild_name/ca.json" then
    some (.object [("cat", .array [.array [.number (.int 1)], .array [.number (.int 2)]])])
  else if url = "r2/index/guild_name/ca.json" then
    some (.object [("cat", .array [.array [.number (.int 3)]])])
  else if url = "r1/index/profile_tag/do.json" then
    some (.object [("dog", .array [.array [.number (.int 2)]])])
  else none

/-- Cats that are not tagged dogs, by name. -/
def catPlan : Plan :=
  ⟨[[⟨.guildName, .keyword "cat", false⟩, ⟨.profileTag, .keyword "dog", true⟩]], []⟩

theorem catPlan_ids_lost_by_failures :
    (catPlan.ids twoCopies ⟨.guildName, .ascending⟩).run
        (Fetch.failing (· == "r2/index/guild_name/ca.json") catNetwork) = [1] ∧
      (catPlan.ids twoCopies ⟨.guildName, .ascending⟩).run
        (Fetch.failing (fun _ ↦ false) catNetwork) = [1, 3] ∧
      [1] ⊆ (catPlan.ids twoCopies ⟨.guildName, .ascending⟩).run
        (Fetch.failing (fun _ ↦ false) catNetwork) := by
  have hlost : (catPlan.ids twoCopies ⟨.guildName, .ascending⟩).run
      (Fetch.failing (· == "r2/index/guild_name/ca.json") catNetwork) = [1] := by decide +kernel
  have hspared : ∀ group ∈ catPlan.groups, Query.Spared twoCopies catNetwork (fun _ ↦ false)
      (· == "r2/index/guild_name/ca.json") group := by
    unfold Query.Spared
    decide +kernel
  refine ⟨hlost, by decide +kernel, ?_⟩
  rw [← hlost]
  exact (Plan.ids_lost_by_failures catPlan twoCopies catNetwork _
    (fun _ hfails ↦ absurd hfails Bool.false_ne_true)).1 hspared

end ShardSearch
