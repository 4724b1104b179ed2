import ShardSearch.Proofs.CallAlone
import ShardSearch.Proofs.ExportFlag
import ShardSearch.Proofs.IndexResolution
import ShardSearch.Proofs.PhraseTerm
import ShardSearch.Proofs.PlanResult

/-!
Searching for a query with a phrase after it against searching for the query alone. What is exported
after a search are the stored documents whose ids the plan finds and that pass its filters
(`exists_exports`). A phrase makes the plan find fewer ids, since the index has to list them under
each of its terms in one of the text fields, and has one more filter. So of the documents of the
query those remain that the filter accepts and that the index lists so (`exports_append_phrase`).
The filter alone does not decide: a phrase can occur in a document within its words, and then the
index need not list the document under its terms.
-/

set_option autoImplicit false

namespace ShardSearch

/-! ### Index terms -/

namespace Index

/-- The index lists an id under a term in one of the text fields. -/
def ListsTerm (c : Catalog) (network : String → Option Json) (id : Nat) (term : String) : Prop :=
  ∃ field ∈ Field.textFields, ∃ p ∈ (lookup c.manifest field term).run network, p.id = id

theorem mem_map_id_found_ofTerm {c : Catalog} {network : String → Option Json} {id : Nat}
    {term : String} :
    id ∈ (found c network (.ofTerm term)).map (·.id) ↔ ListsTerm c network id term := by
  have hfields : lookupFields (Condition.ofTerm term).field = Field.textFields := rfl
  have hkeys : ∀ field, keys c field (Condition.ofTerm term).test = [term] := fun _ ↦ rfl
  simp only [List.mem_map, mem_found_iff, hfields, hkeys, List.mem_singleton, exists_eq_left,
    ListsTerm]
  constructor
  · rintro ⟨p, ⟨field, hfield, hp⟩, hid⟩
    exact ⟨field, hfield, p, hp, hid⟩
  · rintro ⟨field, hfield, p, hp, hid⟩
    exact ⟨p, ⟨field, hfield, hp⟩, hid⟩

end Index

/-- Index terms that are added to a group with a required condition have to list an id, too. -/
theorem Query.selects_append_keywords {found : Condition → List Pointer} {group : List Condition}
    (hrequired : ∃ condition ∈ group, condition.negated = false) {id : Nat} {text : String} :
    Selects found (group ++ keywords text) id ↔ Selects found group id ∧
      ∀ term ∈ Text.tokenize text, id ∈ (found (.ofTerm term)).map (·.id) := by
  have hterms : (∀ condition ∈ keywords text,
      (id ∈ (found condition).map (·.id) ↔ condition.negated = false)) ↔
        ∀ term ∈ Text.tokenize text, id ∈ (found (.ofTerm term)).map (·.id) := by
    rw [keywords, List.forall_mem_map]
    exact forall₂_congr fun term _ ↦ iff_true_right rfl
  have hsome : ∃ condition ∈ group ++ keywords text, condition.negated = false := by
    obtain ⟨condition, hcondition, hneg⟩ := hrequired
    exact ⟨condition, List.mem_append_left _ hcondition, hneg⟩
  simp only [Selects, hrequired, hsome, true_and, List.forall_mem_append, hterms]

namespace Document

/-- The texts of a document in a text field. Traits are texts by their labels. -/
def textsIn (d : Document) (field : Field) : List String :=
  if field = .profileTraits then d.traitLabels else [d.textAt field.path]

theorem freeTexts_eq (d : Document) : d.freeTexts = Field.textFields.flatMap d.textsIn := by
  simp [freeTexts, Field.textFields, textsIn]

/-- The index lists every document under all terms of its text fields. -/
def Indexed (c : Catalog) (network : String → Option Json) : Prop :=
  ∀ id, ∀ d ∈ ofFile (network (c.manifest.dataUrl id)), ∀ field ∈ Field.textFields,
    ∀ text ∈ d.textsIn field, ∀ term ∈ Text.tokenize text,
      ∃ p ∈ (Index.lookup c.manifest field term).run network, p.id = d.id

end Document

namespace Session

section Exports

variable (setup : Setup) (network : String → Option Json)

/-- What is exported on a session once it has searched for a query, nothing if the export is
refused. -/
def Exports (s : State) (query : String) (first : Bool) (documents : List Document) : Prop :=
  ∃ reads searched outcome exportReads after exported,
    Performs setup network s (.search query first) reads searched outcome ∧
      Performs setup network searched .exportAll exportReads after (.exported exported) ∧
      exported.getD [] = documents

variable {setup network} {s : State} {query : String}

/-- A search leaves a session with the ids that its query finds, and with its filters unless it
finds nothing. -/
theorem exists_performs_search (setup : Setup) (network : String → Option Json) (s : State)
    (first : Bool) (hne : (Text.trim query).isEmpty = false) :
    ∃ reads after outcome, Performs setup network s (.search query first) reads after outcome ∧
      after.ids = ((Plan.ofQuery (Text.trim query)).ids setup.catalog s.ranking).run network ∧
      (after.ids ≠ [] → after.filters = (Plan.ofQuery (Text.trim query)).filters) ∧
      after.exporting = s.exporting := by
  have hstart : start setup s (.search query first) =
      resume setup (s.reset (Text.trim query)) (.find (Plan.ofQuery (Text.trim query)).filters
        ((Plan.ofQuery (Text.trim query)).ids setup.catalog s.ranking)) := by
    rw [start, startSearch_eq, searchCall, hne, Bool.false_and, if_neg Bool.false_ne_true,
      if_neg Bool.false_ne_true]
  simp only [Performs, hstart, completes_resume_iff, Call.task]
  generalize ((Plan.ofQuery (Text.trim query)).ids setup.catalog s.ranking).run network = ids
  generalize (Plan.ofQuery (Text.trim query)).filters = filters
  by_cases hids : ids = []
  · subst hids
    have hfinish : Task.finish setup (s.reset (Text.trim query)) (.find filters []) =
        (s.reset (Text.trim query), .finished (.search .noResults)) := rfl
    simp only [hfinish]
    exact ⟨_, _, _, ⟨_, rfl, .finished _ _⟩, rfl, fun h ↦ absurd rfl h, rfl⟩
  · have hempty : ids.isEmpty = false := by simpa using hids
    obtain ⟨reads, after, outcome, hpage, hkept, hfilters, hexporting⟩ :=
      exists_completes_startPage setup network
        { s.reset (Text.trim query) with filters := filters, ids := ids } (some ids.length)
    refine ⟨_, after, outcome, ⟨reads, rfl, ?_⟩, hkept, fun _ ↦ hfilters, hexporting⟩
    rw [Task.finish, hempty]
    exact hpage

/-- After a search all stored documents are exported whose ids the plan finds and that pass its
filters. -/
theorem exists_exports (hplaced : Document.WellPlaced setup.catalog.manifest network)
    (hexporting : s.exporting = false) (first : Bool)
    (hne : (Text.trim query).isEmpty = false) :
    ∃ documents, Exports setup network s query first documents ∧ ∀ d, d ∈ documents ↔
      (∃ group ∈ (Plan.ofQuery (Text.trim query)).groups,
        Query.Selects (Index.found setup.catalog network) group d.id) ∧
      Document.last? (Document.ofFile (network (setup.catalog.manifest.dataUrl d.id))) d.id =
        some d ∧
      PostFilter.allAccept (Plan.ofQuery (Text.trim query)).filters d = true := by
  obtain ⟨reads, searched, outcome, hsearch, hids, hfilters, hkept⟩ :=
    exists_performs_search setup network s first hne
  rw [hexporting] at hkept
  by_cases hnone : searched.ids = []
  · refine ⟨[], ⟨_, _, _, _, _, none, hsearch, performs_exportAll_none (.inr hnone), rfl⟩, ?_⟩
    intro d
    rw [← Plan.mem_run_ids _ _ _ s.ranking, ← hids, hnone]
    simp
  · refine ⟨_, ⟨_, _, _, _, _, some _, hsearch, performs_exportAll hkept hnone, rfl⟩, ?_⟩
    intro d
    rw [Option.getD_some, (Document.sortBy_perm _ _).mem_iff, List.mem_filter,
      Document.mem_run_load_of_placed hplaced, hids, Plan.mem_run_ids, hfilters hnone, and_assoc]

end Exports

section Phrases

variable {setup : Setup} {network : String → Option Json} {first second : State} {query : String}

/-- Of the documents that are exported for a query, the ones that are exported for it with a phrase
after it are those that the filter of the phrase accepts and that the index lists under each term
of the phrase. If the index lists all documents under the terms of their texts, then all documents
remain that the filter accepts and whose texts have the terms of the phrase. -/
theorem exports_append_phrase (hplaced : Document.WellPlaced setup.catalog.manifest network)
    (hfirst : Resting setup network first) (hsecond : Resting setup network second)
    (hquote : '"' ∉ query.toList) (hsep : Query.Unseparated (query.toList ++ [' ']))
    (hends : Query.EndsFreely query.toList)
    (hrequired : ∃ condition ∈ Query.groupConditions (Text.trimChars query.toList),
      condition.negated = false) (t : Query.Phrase) (browses again : Bool) :
    ∃ wide narrow, Exports setup network first query browses wide ∧
      Exports setup network second (query ++ " " ++ String.ofList t.chars) again narrow ∧
      (∀ d, d ∈ narrow ↔ d ∈ wide ∧ t.filter.accepts d = true ∧
        ∀ term ∈ Text.tokenize t.text, Index.ListsTerm setup.catalog network d.id term) ∧
      (Document.Indexed setup.catalog network → ∀ d ∈ wide, t.filter.accepts d = true →
        (∀ term ∈ Text.tokenize t.text, ∃ text ∈ d.freeTexts, term ∈ Text.tokenize text) →
        d ∈ narrow) := by
  have hne : Query.groupConditions (Text.trimChars query.toList) ≠ [] := by
    obtain ⟨condition, hcondition, -⟩ := hrequired
    exact List.ne_nil_of_mem hcondition
  obtain ⟨hplan, hjoined⟩ := Plan.ofQuery_append_phrase hquote hsep hends hne t
  obtain ⟨wide, hwide, hmemWide⟩ := exists_exports hplaced hfirst.exporting_eq_false browses
    (Plan.isEmpty_eq_false_of_groups (congrArg Plan.groups hplan))
  obtain ⟨narrow, hnarrow, hmemNarrow⟩ := exists_exports hplaced hsecond.exporting_eq_false again
    (Plan.isEmpty_eq_false_of_groups (congrArg Plan.groups hjoined))
  have hremain : ∀ d, d ∈ narrow ↔ d ∈ wide ∧ t.filter.accepts d = true ∧
      ∀ term ∈ Text.tokenize t.text, Index.ListsTerm setup.catalog network d.id term := by
    intro d
    rw [hmemNarrow, hmemWide, hplan, hjoined]
    simp only [List.mem_singleton, exists_eq_left, Query.selects_append_keywords hrequired,
      Index.mem_map_id_found_ofTerm, PostFilter.allAccept, List.all_append, List.all_cons,
      List.all_nil, Bool.and_true, Bool.and_eq_true]
    constructor
    · rintro ⟨⟨hselects, hlisted⟩, hstored, hpasses, haccepts⟩
      exact ⟨⟨hselects, hstored, hpasses⟩, haccepts, hlisted⟩
    · rintro ⟨⟨hselects, hstored, hpasses⟩, haccepts, hlisted⟩
      exact ⟨⟨hselects, hlisted⟩, hstored, hpasses, haccepts⟩
  refine ⟨wide, narrow, hwide, hnarrow, hremain, ?_⟩
  intro hindexed d hd haccepts hterms
  refine (hremain d).mpr ⟨hd, haccepts, fun term hterm ↦ ?_⟩
  obtain ⟨text, htext, hin⟩ := hterms term hterm
  rw [Document.freeTexts_eq, List.mem_flatMap] at htext
  obtain ⟨field, hfield, htext⟩ := htext
  have hstored := Document.mem_of_last? ((hmemWide d).mp hd).2.1
  exact ⟨field, hfield, hindexed d.id d hstored field hfield text htext term hin⟩

end Phrases

/-! ### A cat -/

def cat : Document := ⟨1, .object [("guild", .object [("name", .string "cat")])]⟩

/-- The data file of a cat and the index of its name. Every other file is empty. -/
def catFiles (url : String) : Json :=
  if url = "r/data/d_0.json" then
    .array [.array [.number (.int 1), .object [("guild", .object [("name", .string "cat")])]]]
  else if url = "r/index/guild_name/ca.json" then
    .object [("cat", .array [.array [.number (.int 1)]])]
  else .object []

theorem eq_cat_of_mem_ofFile {url : String} {d : Document}
    (h : d ∈ Document.ofFile (some (catFiles url))) : url = "r/data/d_0.json" ∧ d = cat := by
  unfold catFiles at h
  split at h
  · next hurl =>
    have hd : d ∈ [cat] := h
    exact ⟨hurl, List.mem_singleton.mp hd⟩
  · split at h <;> exact absurd h List.not_mem_nil

theorem wellPlaced_catFiles :
    Document.WellPlaced smallSetup.catalog.manifest (some ∘ catFiles) := by
  intro id d hd
  obtain ⟨hurl, rfl⟩ := eq_cat_of_mem_ofFile hd
  rw [hurl]
  decide +kernel

theorem indexed_catFiles : Document.Indexed smallSetup.catalog (some ∘ catFiles) := by
  intro id d hd
  obtain ⟨-, rfl⟩ := eq_cat_of_mem_ofFile hd
  decide +kernel

theorem catLetters_ne_nil : ['c', 'a', 't'] ≠ [] := by simp

/-- The name of the cat as a phrase. -/
def catPhrase : Query.Phrase :=
  ⟨none, ⟨['c', 'a', 't'], catLetters_ne_nil, by simp⟩, by simp, by decide +kernel⟩

/-- The first letters of its name, which are no index term of it. -/
def partPhrase : Query.Phrase :=
  ⟨none, ⟨['c', 'a'], by simp, by simp⟩, by simp, by decide +kernel⟩

theorem cat_exports_append_phrase : ∃ wide narrow,
    Exports smallSetup (some ∘ catFiles) (.initial smallSetup.config.search) "guild.name:cat " false
      wide ∧
    Exports smallSetup (some ∘ catFiles) (.initial smallSetup.config.search)
      "guild.name:cat  \"cat\"" false narrow ∧
    (∀ d, d ∈ narrow ↔ d ∈ wide ∧ catPhrase.filter.accepts d = true ∧
      ∀ term ∈ ["cat"], Index.ListsTerm smallSetup.catalog (some ∘ catFiles) d.id term) ∧
    ∀ d ∈ wide, catPhrase.filter.accepts d = true →
      (∀ term ∈ ["cat"], ∃ text ∈ d.freeTexts, term ∈ Text.tokenize text) → d ∈ narrow := by
  have hquery : "guild.name:cat  \"cat\"" =
      "guild.name:cat " ++ " " ++ String.ofList catPhrase.chars := by decide +kernel
  have hterms : Text.tokenize catPhrase.text = ["cat"] := by decide +kernel
  have hquote : '"' ∉ "guild.name:cat ".toList := by decide +kernel
  have hspaces : Text.trimStart "guild.name:cat ".toList =
      Text.trimChars "guild.name:cat ".toList ++ List.replicate 1 ' ' := by decide +kernel
  rw [hquery, ← hterms]
  obtain ⟨wide, narrow, hwide, hnarrow, hiff, hremain⟩ :=
    exports_append_phrase wellPlaced_catFiles resting_initial resting_initial hquote
      (by decide +kernel) (Query.endsFreely_of_spaces hquote hspaces) (by decide +kernel) catPhrase
      false false
  exact ⟨wide, narrow, hwide, hnarrow, hiff, hremain indexed_catFiles⟩

/-- A phrase can occur in a document without the index terms that the index is asked for. -/
theorem not_exports_of_part_of_word : ¬ ∀ (setup : Setup) (files : String → Json) (query : String)
    (t : Query.Phrase) (wide narrow : List Document),
    Document.WellPlaced setup.catalog.manifest (some ∘ files) →
    Document.Indexed setup.catalog (some ∘ files) → '"' ∉ query.toList →
    Query.Unseparated (query.toList ++ [' ']) →
    (∃ condition ∈ Query.groupConditions (Text.trimChars query.toList),
      condition.negated = false) →
    Exports setup (some ∘ files) (.initial setup.config.search) query false wide →
    Exports setup (some ∘ files) (.initial setup.config.search)
      (query ++ " " ++ String.ofList t.chars) false narrow →
    ∀ d, d ∈ narrow ↔ d ∈ wide ∧ t.filter.accepts d = true := by
  intro h
  have hinitial : (State.initial smallSetup.config.search).exporting = false := rfl
  have hquery : (Text.trim "guild.name:cat").isEmpty = false := by decide +kernel
  have hjoined : (Text.trim ("guild.name:cat" ++ " " ++ String.ofList partPhrase.chars)).isEmpty =
      false := by decide +kernel
  obtain ⟨wide, hwide, hmemWide⟩ := exists_exports wellPlaced_catFiles hinitial false hquery
  obtain ⟨narrow, hnarrow, hmemNarrow⟩ :=
    exists_exports wellPlaced_catFiles hinitial false hjoined
  have hcat : cat ∈ wide := (hmemWide cat).mpr ⟨by decide +kernel, rfl, by decide +kernel⟩
  have haccepts : partPhrase.filter.accepts cat = true := by decide +kernel
  have hremains := (h smallSetup catFiles "guild.name:cat" partPhrase wide narrow
    wellPlaced_catFiles indexed_catFiles (by decide +kernel) (by decide +kernel)
    (by decide +kernel) hwide hnarrow cat).mpr ⟨hcat, haccepts⟩
  have hselects := ((hmemNarrow cat).mp hremains).1
  revert hselects
  decide +kernel

end Session

end ShardSearch
