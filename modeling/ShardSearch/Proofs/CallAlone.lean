import ShardSearch.Proofs.Interleaving

/-!
Calls that are alone on their session, with answers from a network that does not change. `Performs`
relates a state and a request to what the call reads, the state that it leaves and its outcome; no
other call takes a step between those of this one. Such a call makes the reads of its computation
one after the other and then does its task (`completes_resume_iff`), and it always returns, in one
way only (`exists_performs`, `Performs.unique`).
-/

set_option autoImplicit false

namespace ShardSearch.Session

section Alone

variable (setup : Setup) (network : String → Option Json)

/-- A call with some progress returns: its reads, the state after it and its outcome. -/
inductive Completes : State → Progress → List String → State → Outcome → Prop where
  | finished (s : State) (outcome : Outcome) : Completes s (.finished outcome) [] s outcome
  | waiting {s after : State} {url : String} {next : Option Json → Call} {reads : List String}
      {outcome : Outcome}
      (rest : Completes (resume setup s (next (network url))).1
        (resume setup s (next (network url))).2 reads after outcome) :
      Completes s (.waiting url next) (url :: reads) after outcome

/-- A request is performed with nothing else under way. -/
def Performs (s : State) (request : Request) (reads : List String) (after : State)
    (outcome : Outcome) : Prop :=
  Completes setup network (start setup s request).1 (start setup s request).2 reads after outcome

/-- The addresses that a call still reads before it does its task. -/
def Call.reads : Call → List String
  | .browse ids => ids.reads network
  | .find _ ids => ids.reads network
  | .page _ _ _ documents => documents.reads network
  | .exportAll _ _ documents => documents.reads network

variable {setup network}

theorem completes_finished_iff {s after : State} {outcome other : Outcome} {reads : List String} :
    Completes setup network s (.finished outcome) reads after other ↔
      reads = [] ∧ after = s ∧ other = outcome := by
  constructor
  · intro h
    cases h
    exact ⟨rfl, rfl, rfl⟩
  · rintro ⟨rfl, rfl, rfl⟩
    exact .finished after other

theorem completes_waiting_iff {s after : State} {url : String} {next : Option Json → Call}
    {outcome : Outcome} {reads : List String} :
    Completes setup network s (.waiting url next) reads after outcome ↔
      ∃ rest, reads = url :: rest ∧ Completes setup network
        (resume setup s (next (network url))).1 (resume setup s (next (network url))).2
        rest after outcome := by
  constructor
  · intro h
    cases h with
    | waiting rest => exact ⟨_, rfl, rest⟩
  · rintro ⟨rest, rfl, h⟩
    exact .waiting h

/-- A call in which a computation stands makes the reads of the computation and goes on with its
value, if waiting for a read is all that it does before. -/
private theorem completes_of_reading {α : Type} (form : Fetch α → Call) {s : State}
    (hform : ∀ url next, resume setup s (form (.read url next)) =
      (s, .waiting url fun answer ↦ form (next answer)))
    (m : Fetch α) {reads : List String} {after : State} {outcome : Outcome} :
    Completes setup network (resume setup s (form m)).1 (resume setup s (form m)).2 reads after
        outcome ↔
      ∃ rest, reads = m.reads network ++ rest ∧
        Completes setup network (resume setup s (form (.done (m.run network)))).1
          (resume setup s (form (.done (m.run network)))).2 rest after outcome := by
  induction m generalizing reads with
  | done a => simp
  | read url next ih =>
    rw [hform]
    change Completes setup network s (.waiting url _) reads after outcome ↔ _
    rw [completes_waiting_iff]
    constructor
    · rintro ⟨rest, rfl, h⟩
      obtain ⟨last, rfl, hdone⟩ := (ih (network url)).mp h
      exact ⟨last, rfl, hdone⟩
    · rintro ⟨last, rfl, h⟩
      exact ⟨_, rfl, (ih (network url)).mpr ⟨last, rfl, h⟩⟩

/-- A call makes all its reads and then does its task. -/
theorem completes_resume_iff {s after : State} {call : Call} {reads : List String}
    {outcome : Outcome} :
    Completes setup network (resume setup s call).1 (resume setup s call).2 reads after outcome ↔
      ∃ rest, reads = call.reads network ++ rest ∧
        Completes setup network ((call.task network).finish setup s).1
          ((call.task network).finish setup s).2 rest after outcome := by
  cases call with
  | browse ids => exact completes_of_reading .browse (fun _ _ ↦ rfl) ids
  | find filters ids => exact completes_of_reading (.find filters) (fun _ _ ↦ rfl) ids
  | page search cursor total documents =>
    exact completes_of_reading (.page search cursor total) (fun _ _ ↦ rfl) documents
  | exportAll filters ranking documents =>
    exact completes_of_reading (.exportAll filters ranking) (fun _ _ ↦ rfl) documents

/-- A page that is not refused reads the files of its ids and then adds its documents. -/
theorem completes_startPage_iff {s after : State} {search : Option Nat} {reads : List String}
    {outcome : Outcome} (h : s.refusal? setup = none) :
    Completes setup network (startPage setup s search).1 (startPage setup s search).2 reads after
        outcome ↔
      ∃ rest, reads = setup.catalog.manifest.dataUrls (s.pageIds setup) ++ rest ∧
        Completes setup network
          (Task.finish setup (s.taken setup) (.page search (s.pageEnd setup) s.ids.length
            ((Document.load setup.catalog.manifest (s.pageIds setup)).run network))).1
          (Task.finish setup (s.taken setup) (.page search (s.pageEnd setup) s.ids.length
            ((Document.load setup.catalog.manifest (s.pageIds setup)).run network))).2
          rest after outcome := by
  rw [startPage_eq, h, ← Document.reads_load network]
  change Completes setup network (resume setup _ (.page search _ _ _)).1 _ reads after outcome ↔ _
  exact completes_resume_iff

/-- The state in which a search takes its first page: of the last search there is the ranking, and
perhaps an export under way. -/
structure State.Installed (s installed : State) : Prop where
  fetching_eq : installed.fetching = false
  cursor_eq : installed.cursor = 0
  loaded_eq : installed.loaded = []
  ranking_eq : installed.ranking = s.ranking
  exporting_eq : installed.exporting = s.exporting

theorem State.installed_reset (s : State) (query : String) (filters : List PostFilter)
    (ids : List Nat) :
    s.Installed { s.reset query with filters := filters, ids := ids } :=
  ⟨rfl, rfl, rfl, rfl, rfl⟩

private theorem exists_startPage_of_startSearch {s after : State} {text : String} {first : Bool}
    {reads : List String} {total : Nat} {page : PageOutcome}
    (h : Completes setup network (startSearch setup s text first).1
      (startSearch setup s text first).2 reads after (.search (.found total page))) :
    ∃ installed rest, s.Installed installed ∧
      Completes setup network (startPage setup installed (some installed.ids.length)).1
        (startPage setup installed (some installed.ids.length)).2 rest after
        (.search (.found total page)) := by
  rw [startSearch_eq] at h
  split at h
  · cases (completes_finished_iff.mp h).2.2
  · obtain ⟨rest, -, h⟩ := completes_resume_iff.mp h
    unfold searchCall at h
    split at h <;> rw [Call.task] at h
    · generalize (listing setup).run network = ids at h
      exact ⟨_, rest, s.installed_reset (Text.trim text) [] ids, h⟩
    · generalize ((Plan.ofQuery (Text.trim text)).ids setup.catalog s.ranking).run network = ids
        at h
      rw [Task.finish] at h
      split at h
      · cases (completes_finished_iff.mp h).2.2
      · exact ⟨_, rest, s.installed_reset (Text.trim text) _ ids, h⟩

/-- A search that finds something installs its ids and goes on with the first page. -/
theorem Performs.exists_startPage {s after : State} {request : Request} {reads : List String}
    {total : Nat} {page : PageOutcome} (hsearch : request.Searches)
    (h : Performs setup network s request reads after (.search (.found total page))) :
    ∃ installed rest, s.Installed installed ∧
      Completes setup network (startPage setup installed (some installed.ids.length)).1
        (startPage setup installed (some installed.ids.length)).2 rest after
        (.search (.found total page)) := by
  rw [Performs] at h
  cases request with
  | search text first =>
    rw [start] at h
    exact exists_startPage_of_startSearch h
  | rerun =>
    rw [start] at h
    exact exists_startPage_of_startSearch h
  | nextPage => exact hsearch.elim
  | exportAll => exact hsearch.elim
  | rank field => exact hsearch.elim

/-- An export that is not refused returns the documents of all ids. -/
theorem performs_exportAll {s : State} (hexporting : s.exporting = false) (hids : s.ids ≠ []) :
    Performs setup network s .exportAll (setup.catalog.manifest.dataUrls s.ids)
      { s with exporting := false } (.exported <| some <| Document.sortBy s.ranking
        (((Document.load setup.catalog.manifest s.ids).run network).filter
          (PostFilter.allAccept s.filters))) := by
  have hguard : ¬ (s.exporting || s.ids.isEmpty) = true := by simpa [hexporting] using hids
  rw [Performs, start, startExport_eq, if_neg hguard, completes_resume_iff]
  refine ⟨[], ?_, .finished _ _⟩
  rw [List.append_nil, exportCall, Call.reads, Document.reads_load]

/-- An export of nothing, or beside another one, returns nothing. -/
theorem performs_exportAll_none {s : State} (h : s.exporting = true ∨ s.ids = []) :
    Performs setup network s .exportAll [] s (.exported none) := by
  have hguard : (s.exporting || s.ids.isEmpty) = true := by simpa using h
  rw [Performs, start, startExport_eq, if_pos hguard]
  exact .finished _ _

/-! ### Calls return -/

/-- A page returns, and leaves the ids and the filters of the session as they are. -/
theorem exists_completes_startPage (setup : Setup) (network : String → Option Json) (s : State)
    (search : Option Nat) :
    ∃ reads after outcome, Completes setup network (startPage setup s search).1
      (startPage setup s search).2 reads after outcome ∧
      after.ids = s.ids ∧ after.filters = s.filters ∧ after.exporting = s.exporting := by
  cases hrefusal : s.refusal? setup with
  | some outcome =>
    rw [startPage_of_refusal? hrefusal]
    exact ⟨_, _, _, .finished _ _, rfl, rfl, rfl⟩
  | none =>
    exact ⟨_, _, _, (completes_startPage_iff hrefusal).mpr ⟨_, rfl, .finished _ _⟩, rfl, rfl, rfl⟩

private theorem exists_completes_resume (s : State) (call : Call) :
    ∃ reads after outcome, Completes setup network (resume setup s call).1
      (resume setup s call).2 reads after outcome := by
  have hfinish : ∀ task : Task, ∃ reads after outcome, Completes setup network
      (task.finish setup s).1 (task.finish setup s).2 reads after outcome := by
    intro task
    have hpage : ∀ (s : State) search, ∃ reads after outcome, Completes setup network
        (startPage setup s search).1 (startPage setup s search).2 reads after outcome := by
      intro s search
      obtain ⟨reads, after, outcome, h, -⟩ := exists_completes_startPage setup network s search
      exact ⟨reads, after, outcome, h⟩
    cases task with
    | browse ids => exact hpage _ _
    | find filters ids =>
      rw [Task.finish]
      split
      · exact ⟨_, _, _, .finished _ _⟩
      · exact hpage _ _
    | page search cursor total documents => exact ⟨_, _, _, .finished _ _⟩
    | exportAll filters ranking documents => exact ⟨_, _, _, .finished _ _⟩
  obtain ⟨reads, after, outcome, h⟩ := hfinish (call.task network)
  exact ⟨_, after, outcome, completes_resume_iff.mpr ⟨reads, rfl, h⟩⟩

/-- A call that is alone on its session returns. -/
theorem exists_performs (setup : Setup) (network : String → Option Json) (s : State)
    (request : Request) :
    ∃ reads after outcome, Performs setup network s request reads after outcome := by
  have hsearch : ∀ text first, ∃ reads after outcome, Completes setup network
      (startSearch setup s text first).1 (startSearch setup s text first).2 reads after outcome := by
    intro text first
    rw [startSearch_eq]
    split
    · exact ⟨_, _, _, .finished _ _⟩
    · exact exists_completes_resume _ _
  cases request with
  | search text first => exact hsearch text first
  | rerun => exact hsearch s.query s.query.isEmpty
  | nextPage =>
    simp only [Performs, start]
    split
    · exact ⟨_, _, _, .finished _ _⟩
    · obtain ⟨reads, after, outcome, h, -⟩ := exists_completes_startPage setup network s none
      exact ⟨reads, after, outcome, h⟩
  | exportAll =>
    simp only [Performs, start, startExport_eq]
    split
    · exact ⟨_, _, _, .finished _ _⟩
    · exact exists_completes_resume _ _
  | rank field => exact ⟨_, _, _, .finished _ _⟩

private theorem Completes.unique {s first second : State} {p : Progress}
    {firstReads secondReads : List String} {firstOutcome secondOutcome : Outcome}
    (h : Completes setup network s p firstReads first firstOutcome)
    (hsecond : Completes setup network s p secondReads second secondOutcome) :
    secondReads = firstReads ∧ second = first ∧ secondOutcome = firstOutcome := by
  induction h generalizing secondReads with
  | finished s outcome => exact completes_finished_iff.mp hsecond
  | waiting rest ih =>
    obtain ⟨reads, rfl, h⟩ := completes_waiting_iff.mp hsecond
    obtain ⟨rfl, hstate, houtcome⟩ := ih h
    exact ⟨rfl, hstate, houtcome⟩

theorem Performs.unique {s first second : State} {request : Request}
    {firstReads secondReads : List String} {firstOutcome secondOutcome : Outcome}
    (h : Performs setup network s request firstReads first firstOutcome)
    (hsecond : Performs setup network s request secondReads second secondOutcome) :
    secondReads = firstReads ∧ second = first ∧ secondOutcome = firstOutcome :=
  Completes.unique h hsecond

end Alone

end ShardSearch.Session
