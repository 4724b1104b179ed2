import ShardSearch.Proofs.ReadFailures

/-!
The numeric manifest serves numeric conditions and nothing else. Loading a catalog reads the routing
manifest, on which alone it depends whether there is a catalog, and then the numeric one
(`Catalog.run_load`, `Catalog.reads_load`). A condition that is not numeric is looked up under the
same keys whatever the numeric manifest says, so a plan of such conditions is the same computation
over both catalogs (`Plan.pointers_congr`). Without numeric values a numeric condition finds
nothing: it empties its group where it is required, and where it is negated it might as well not be
there (`Query.survivors_of_found_nil`).
-/

set_option autoImplicit false

namespace ShardSearch

/-- A test that is looked up by numbers. -/
def Test.isNumeric : Test → Bool
  | keyword _ => false
  | compare _ _ => true
  | range _ _ => true
  | deferred _ _ => false

/-! ### Loading a catalog -/

namespace Catalog

variable (source : Source) (stamp : Nat) (network : String → Option Json)

/-- The routing manifest decides whether there is a catalog. The numeric manifest is whatever its
address has to offer. -/
theorem run_load : (load source stamp).run network =
    match network (manifestUrl source stamp) with
    | none => .error .notFound
    | some body => match Manifest.ofJson? body with
      | none => .error .invalid
      | some manifest => .ok
          ⟨manifest, (network (numericUrl source manifest)).bind NumericManifest.ofJson?⟩ := by
  rw [load, Fetch.bind_eq, Fetch.run_bind, Fetch.run_get]
  cases network (manifestUrl source stamp) with
  | none => rfl
  | some body =>
    dsimp only
    cases Manifest.ofJson? body with
    | none => rfl
    | some manifest => rfl

/-- The numeric manifest is read only where there is a routing manifest. -/
theorem reads_load : (load source stamp).reads network = manifestUrl source stamp ::
    match (load source stamp).run network with
    | .error _ => []
    | .ok catalog => [numericUrl source catalog.manifest] := by
  rw [run_load, load, Fetch.bind_eq, Fetch.reads_bind, Fetch.reads_get, Fetch.run_get]
  cases network (manifestUrl source stamp) with
  | none => rfl
  | some body =>
    dsimp only
    cases Manifest.ofJson? body with
    | none => rfl
    | some manifest => rfl

end Catalog

/-! ### Conditions that are not numeric -/

section Congruence

variable {α β : Type}

theorem Fetch.each_congr {f g : α → Fetch β} {items : List α} (h : ∀ a ∈ items, f a = g a) :
    each f items = each g items := by
  have hafter : ∀ before, eachAfter f before items = eachAfter g before items := by
    induction items with
    | nil => exact fun _ ↦ rfl
    | cons a rest ih =>
      rw [List.forall_mem_cons] at h
      intro before
      rw [eachAfter, eachAfter, h.1]
      congr 1
      funext b
      exact ih h.2 (b :: before)
  exact hafter []

variable {c d : Catalog}

/-- Only numeric tests look at the numeric manifest. -/
theorem Index.keys_congr {test : Test} (h : test.isNumeric = false) (field : Field) :
    keys d field test = keys c field test := by
  cases test with
  | keyword term => rfl
  | compare op bound => cases h
  | range first last => cases h
  | deferred kind text => rfl

theorem Index.resolve_congr (hmanifest : d.manifest = c.manifest) {condition : Condition}
    (h : condition.test.isNumeric = false) : resolve d condition = resolve c condition := by
  have hon : ∀ field, resolveOn d (condition.on field) = resolveOn c (condition.on field) := by
    intro field
    rw [resolveOn, resolveOn, hmanifest, Condition.test_on, keys_congr (c := c) h]
  simp only [resolve, hon]

theorem Query.exclude_congr (hmanifest : d.manifest = c.manifest) {negated : List Condition}
    (h : ∀ condition ∈ negated, condition.test.isNumeric = false) (t : PointerTable) :
    exclude d t negated = exclude c t negated := by
  induction negated generalizing t with
  | nil => rfl
  | cons condition rest ih =>
    rw [List.forall_mem_cons] at h
    rw [exclude, exclude, Index.resolve_congr hmanifest h.1]
    congr 1
    funext list
    exact ih h.2 _

theorem Query.groupPointers_congr (hmanifest : d.manifest = c.manifest) {group : List Condition}
    (h : ∀ condition ∈ group, condition.test.isNumeric = false) :
    groupPointers d group = groupPointers c group := by
  have hfilter : ∀ (p : Condition → Bool), ∀ condition ∈ group.filter p,
      condition.test.isNumeric = false :=
    fun p condition hcondition ↦ h condition (List.mem_filter.mp hcondition).1
  rw [groupPointers, groupPointers, List.partition_eq_filter_filter]
  cases hrequired : group.filter (!·.negated) with
  | nil => rfl
  | cons first others =>
    have hall : ∀ condition ∈ first :: others, condition.test.isNumeric = false :=
      hrequired ▸ hfilter (!·.negated)
    dsimp only
    rw [Fetch.each_congr fun condition hcondition ↦
      Index.resolve_congr hmanifest (hall condition hcondition)]
    congr 1
    funext lists
    rw [exclude_congr hmanifest (hfilter _)]

/-- A plan without numeric conditions is the same computation over catalogs with the same routing
manifest. -/
theorem Plan.pointers_congr (hmanifest : d.manifest = c.manifest) {p : Plan}
    (h : ∀ group ∈ p.groups, ∀ condition ∈ group, condition.test.isNumeric = false)
    (ranking : Ranking) : p.pointers d ranking = p.pointers c ranking := by
  rw [pointers, pointers, Fetch.each_congr fun group hgroup ↦
    Query.groupPointers_congr hmanifest (h group hgroup)]

end Congruence

/-! ### Numeric conditions without numbers -/

section NoNumbers

theorem Index.found_numeric {c : Catalog} (hnumeric : c.numeric = none)
    (answer : String → Option Json) {condition : Condition}
    (h : condition.test.isNumeric = true) : found c answer condition = [] := by
  have hkeys : ∀ field, keys c field condition.test = [] := by
    intro field
    have hvalues : c.numericValues field = [] := by
      rw [Catalog.numericValues, hnumeric]
      rfl
    cases htest : condition.test with
    | keyword term => rw [htest] at h; cases h
    | compare op bound => rw [keys, hvalues]; rfl
    | range first last => rw [keys, hvalues]; rfl
    | deferred kind text => rw [htest] at h; cases h
  rw [found_eq, List.flatMap_eq_nil_iff]
  intro field _
  rw [hkeys, List.flatMap_nil]

variable {found : Condition → List Pointer} {condition : Condition}

/-- A negated condition that finds nothing might as well not be in its group. -/
theorem Query.survivors_of_found_nil (hnegated : condition.negated = true)
    (hnil : found condition = []) (first last : List Condition) :
    survivors found (first ++ condition :: last) = survivors found (first ++ last) := by
  have hfind : (first ++ condition :: last).find? (!·.negated) =
      (first ++ last).find? (!·.negated) := by
    rw [List.find?_append, List.find?_append, List.find?_cons_of_neg (by simp [hnegated])]
  have hmem : ∀ other, other ∈ first ++ condition :: last ↔
      other = condition ∨ other ∈ first ++ last := by
    intro other
    simp only [List.mem_append, List.mem_cons]
    tauto
  have hselects : ∀ id, Selects found (first ++ condition :: last) id ↔
      Selects found (first ++ last) id := by
    intro id
    simp only [Selects, hmem, or_and_right, exists_or, exists_eq_left, forall_eq_or_imp, hnegated,
      hnil, Bool.true_eq_false, false_or, List.map_nil, List.not_mem_nil, iff_self, true_and]
  rw [survivors, survivors, hfind]
  simp only [hselects]

/-- A list without pointers adds nothing to the merged list. -/
theorem Plan.firstYields_append_nil (first last : List (List Pointer)) :
    firstYields (first ++ [] :: last) = firstYields (first ++ last) := by
  induction first with
  | nil => simp [firstYields, Query.listsId]
  | cons list rest ih => rw [List.cons_append, firstYields, ih, List.cons_append, firstYields]

/-- Without numbers, a group that requires a numeric condition adds nothing to a plan, and a negated
numeric condition takes nothing from its group. -/
theorem Plan.run_pointers_of_no_numbers {c : Catalog} (hnumeric : c.numeric = none)
    (answer : String → Option Json) (ranking : Ranking) (before after : List (List Condition))
    (left right : List Condition) (filters : List PostFilter)
    (h : condition.test.isNumeric = true) :
    ((Plan.mk (before ++ (left ++ condition :: right) :: after) filters).pointers c ranking).run
        answer =
      if condition.negated then
        ((Plan.mk (before ++ (left ++ right) :: after) filters).pointers c ranking).run answer
      else ((Plan.mk (before ++ after) filters).pointers c ranking).run answer := by
  have hfound := Index.found_numeric hnumeric answer h
  simp only [run_pointers, merged, List.map_append, List.map_cons]
  cases hnegated : condition.negated with
  | true => rw [if_pos rfl, Query.survivors_of_found_nil hnegated hfound]
  | false =>
    have hmem : condition ∈ left ++ condition :: right :=
      List.mem_append_right left List.mem_cons_self
    rw [if_neg Bool.false_ne_true, Query.survivors_eq_nil hmem hnegated hfound,
      firstYields_append_nil]

end NoNumbers

/-- What a numeric manifest makes a difference to. Take two networks that agree on all addresses but
one, be it that of the numeric manifest, and let the routing manifest be the same at two time stamps
and not at this address. Either there is no catalog over both, for the same cause and after one
read, or there is one over both after two reads, with the same routing manifest. Then a plan without
numeric conditions that does not read the address yields the same pointers with the same reads over
both; and if the numeric manifest of the first one cannot be used, a group that requires a numeric
condition adds nothing to a plan, and a negated numeric condition takes nothing from its group. -/
theorem Catalog.numeric_manifest_for_numbers_only (source : Source) (stamp later : Nat)
    {first second : String → Option Json} {address : String}
    (hagree : ∀ url, url ≠ address → second url = first url)
    (hstamp : first (manifestUrl source later) = first (manifestUrl source stamp))
    (hmanifest : manifestUrl source later ≠ address) :
    (∃ cause, (load source stamp).run first = .error cause ∧
        (load source later).run second = .error cause ∧
        (load source stamp).reads first = [manifestUrl source stamp] ∧
        (load source later).reads second = [manifestUrl source later]) ∨
      ∃ c d, (load source stamp).run first = .ok c ∧ (load source later).run second = .ok d ∧
        d.manifest = c.manifest ∧
        (load source stamp).reads first =
          [manifestUrl source stamp, numericUrl source c.manifest] ∧
        (load source later).reads second =
          [manifestUrl source later, numericUrl source d.manifest] ∧
        (∀ (p : Plan) (ranking : Ranking),
          (∀ group ∈ p.groups, ∀ condition ∈ group, condition.test.isNumeric = false) →
          address ∉ (p.pointers c ranking).reads first →
          (p.pointers d ranking).run second = (p.pointers c ranking).run first ∧
            (p.pointers d ranking).reads second = (p.pointers c ranking).reads first) ∧
        ((first (numericUrl source c.manifest)).bind NumericManifest.ofJson? = none →
          ∀ (answer : String → Option Json) (ranking : Ranking)
            (before after : List (List Condition)) (left right : List Condition)
            (condition : Condition) (filters : List PostFilter),
            condition.test.isNumeric = true →
            ((Plan.mk (before ++ (left ++ condition :: right) :: after) filters).pointers c
                ranking).run answer =
              if condition.negated then
                ((Plan.mk (before ++ (left ++ right) :: after) filters).pointers c ranking).run
                  answer
              else ((Plan.mk (before ++ after) filters).pointers c ranking).run answer) := by
  have hsame : second (manifestUrl source later) = first (manifestUrl source stamp) :=
    (hagree _ hmanifest).trans hstamp
  simp only [reads_load, run_load, hsame]
  cases first (manifestUrl source stamp) with
  | none => exact .inl ⟨.notFound, rfl, rfl, rfl, rfl⟩
  | some body =>
    dsimp only
    cases Manifest.ofJson? body with
    | none => exact .inl ⟨.invalid, rfl, rfl, rfl, rfl⟩
    | some manifest =>
      refine .inr ⟨_, _, rfl, rfl, rfl, rfl, rfl, fun p ranking hplain hunread ↦ ?_,
        fun hunusable answer ranking before after left right condition filters ↦
          Plan.run_pointers_of_no_numbers hunusable answer ranking before after left right filters⟩
      have hreads : ∀ url ∈ (p.pointers ⟨manifest, (first (numericUrl source manifest)).bind
          NumericManifest.ofJson?⟩ ranking).reads first, second url = first url := by
        intro url hurl
        refine hagree url ?_
        rintro rfl
        exact hunread hurl
      have hplan : p.pointers ⟨manifest, (second (numericUrl source manifest)).bind
          NumericManifest.ofJson?⟩ ranking = p.pointers ⟨manifest, (first (numericUrl source
            manifest)).bind NumericManifest.ofJson?⟩ ranking :=
        Plan.pointers_congr (by rfl) hplain ranking
      rw [hplan]
      exact ⟨Fetch.run_congr hreads, Fetch.reads_congr hreads⟩

/-- The cats and dogs of `catNetwork` with a root that has a routing manifest, and perhaps a numeric
one. -/
def rootNetwork (numeric : Option Json) (url : String) : Option Json :=
  if url = "./manifest.json?t=1" ∨ url = "./manifest.json?t=2" then
    some (.object [("docs_per_file", .number (.int 100)), ("repo_base_url", .string "r"),
      ("repo_name_template", .string "\x7b\x7d"), ("total_shards", .number (.int 2))])
  else if url = "./numeric_manifest.json" then numeric
  else catNetwork url

/-- Member counts, one of which is no number. -/
def tornCounts : Json :=
  .object [("profile.member_count", .array [.number (.int 5), .string "seven"])]

/-- Member counts. -/
def wholeCounts : Json :=
  .object [("profile.member_count", .array [.number (.int 5), .number (.int 7)])]

/-- The catalog of the root when its numeric manifest cannot be used. -/
def rootCatalog : Catalog := ⟨⟨0, 2, "r", "\x7b\x7d", [], [], none, 100, none⟩, none⟩

/-- Cats with at most ten members. -/
def smallCats : List Condition :=
  [⟨.guildName, .keyword "cat", false⟩, ⟨.memberCount, .compare .greater (.ofInt 10), true⟩]

theorem cat_numeric_manifest_for_numbers_only :
    ∃ d, (Catalog.load {} 1).run (rootNetwork (some tornCounts)) = .ok rootCatalog ∧
      (Catalog.load {} 2).run (rootNetwork (some wholeCounts)) = .ok d ∧
      (catPlan.pointers d .byPopularity).run (rootNetwork (some wholeCounts)) =
        (catPlan.pointers rootCatalog .byPopularity).run (rootNetwork (some tornCounts)) ∧
      ((Plan.mk [smallCats] []).pointers rootCatalog .byPopularity).run catNetwork =
        ((Plan.mk [[⟨.guildName, .keyword "cat", false⟩]] []).pointers rootCatalog
          .byPopularity).run catNetwork := by
  have hagree : ∀ url, url ≠ "./numeric_manifest.json" →
      rootNetwork (some wholeCounts) url = rootNetwork (some tornCounts) url := by
    intro url hurl
    simp only [rootNetwork, if_neg hurl]
  have hload : (Catalog.load {} 1).run (rootNetwork (some tornCounts)) = .ok rootCatalog := by
    rfl
  have hplain : ∀ group ∈ catPlan.groups, ∀ condition ∈ group,
      condition.test.isNumeric = false := by
    decide
  have hunread : "./numeric_manifest.json" ∉
      (catPlan.pointers rootCatalog .byPopularity).reads (rootNetwork (some tornCounts)) := by
    decide +kernel
  have hunusable : (rootNetwork (some tornCounts) (Catalog.numericUrl {} rootCatalog.manifest)).bind
      NumericManifest.ofJson? = none := by
    rfl
  rcases Catalog.numeric_manifest_for_numbers_only {} 1 2 hagree rfl (by decide) with
    ⟨cause, hnone, -⟩ | ⟨c, d, hc, hd, -, -, -, hsame, hnumbers⟩
  · rw [hload] at hnone
    cases hnone
  · obtain rfl : rootCatalog = c := Except.ok.inj (hload.symm.trans hc)
    exact ⟨d, hload, hd, (hsame catPlan .byPopularity hplain hunread).1,
      hnumbers hunusable catNetwork .byPopularity [] [] [⟨.guildName, .keyword "cat", false⟩] []
        ⟨.memberCount, .compare .greater (.ofInt 10), true⟩ [] rfl⟩

end ShardSearch
