import ShardSearch.Proofs.DocumentSort
import ShardSearch.Proofs.SearchHistory

/-!
Sorting the loaded documents again against searching again. States are alike (`State.Alike`) if they
differ in nothing but the ranking and the arrangement of the loaded documents. On such states calls
read the same, answer the same and leave states that are alike (`Completes.exists_alike`). A ranking
by what the index does not carry has no part in a search (`searchCall_of_unindexed`), so the last
search made again under another such ranking goes on as the first time did (`stepsAlike_rerun`), and
the pages that were loaded after it are loaded again (`exists_search_again`).

The two sessions then have the same documents, and both have them as a sort leaves them, which calls
that choose no ranking keep so (`State.SortedBy`). They need not have them in the same order:
sorting in place leaves tied documents as the ranking before had them, and searching again leaves
them as the ids come. Where the ranking orders the documents up to ties, what stands in the same
place is tied. Where it does not, a sort need not return, in place or page by page, and
`resorting_agrees_with_rerun`, which puts all this together, is about what is returned.
-/

set_option autoImplicit false

namespace ShardSearch.Session

/-- States of the same search: they may differ in the ranking and in how the loaded documents are
arranged, and in nothing else. -/
inductive State.Alike (s : State) : State → Prop where
  | rearranged (ranking : Ranking) {loaded : List Document} (hperm : loaded.Perm s.loaded) :
      Alike s { s with ranking := ranking, loaded := loaded }

/-- A state is ranked by something that the index does not carry, and its loaded documents are as a
sort leaves them. -/
structure State.SortedBy (ranking : Ranking) (s : State) : Prop where
  unindexed : ranking.indexKey? = none
  ranking_eq : s.ranking = ranking
  loaded_eq : ∃ documents, s.loaded = Document.sortBy ranking documents

/-- Two steps that leave states that are alike, and their calls at the same point. -/
structure StepsAlike (first second : State × Progress) : Prop where
  states : first.1.Alike second.1
  progress : second.2 = first.2

/-- The answer of a page, not the first one of a search, that has been loaded. -/
def Answer.isLoadedPage (answer : Answer) : Bool :=
  match answer.outcome with
  | .page (.loaded _ _ _) => true
  | _ => false

section Alike

variable {setup : Setup} {network : String → Option Json} {s t u : State}

namespace State.Alike

theorem refl (s : State) : s.Alike s := .rearranged s.ranking (List.Perm.refl _)

theorem symm (h : s.Alike t) : t.Alike s := by
  cases h with
  | rearranged ranking hperm =>
    exact .rearranged (s := { s with ranking := ranking, loaded := _ }) s.ranking hperm.symm

theorem trans (h : s.Alike t) (hnext : t.Alike u) : s.Alike u := by
  cases h with
  | rearranged first hfirst =>
    cases hnext with
    | rearranged second hsecond => exact .rearranged second (hsecond.trans hfirst)

theorem loaded_perm (h : s.Alike t) : t.loaded.Perm s.loaded := by
  cases h with
  | rearranged ranking hperm => exact hperm

theorem query_eq (h : s.Alike t) : t.query = s.query := by
  cases h
  rfl

theorem exporting_eq (h : s.Alike t) : t.exporting = s.exporting := by
  cases h
  rfl

theorem ids_eq (h : s.Alike t) : t.ids = s.ids := by
  cases h
  rfl

theorem cursor_eq (h : s.Alike t) : t.cursor = s.cursor := by
  cases h
  rfl

/-- A new search leaves nothing to tell two states apart but the ranking. -/
theorem reset (hexporting : t.exporting = s.exporting) (query : String) :
    (s.reset query).Alike (t.reset query) := by
  have hreset : t.reset query = { s.reset query with ranking := t.ranking, loaded := [] } := by
    rw [State.reset, State.reset, hexporting]
  rw [hreset]
  exact .rearranged t.ranking (List.Perm.refl _)

/-! ### Steps on states that are alike -/

theorem continuePage (h : s.Alike t) (search : Option Nat) (cursor total : Nat)
    (documents : Fetch (List Document)) :
    StepsAlike (Session.continuePage s search cursor total documents)
      (Session.continuePage t search cursor total documents) := by
  cases documents with
  | read url next => exact ⟨h, rfl⟩
  | done documents =>
    cases h with
    | @rearranged ranking loaded hperm =>
      -- The filters are the same, so the same documents pass, and each state arranges its own.
      refine ⟨.rearranged ranking ?_, rfl⟩
      refine (loaded_append_perm _ _).trans (.trans ?_ (loaded_append_perm s _).symm)
      exact hperm.append_right (documents.filter (PostFilter.allAccept s.filters))

theorem taken (h : s.Alike t) : (s.taken setup).Alike (t.taken setup) := by
  cases h with
  | rearranged ranking hperm => exact .rearranged (s := s.taken setup) ranking hperm

theorem withIds (h : s.Alike t) (ids : List Nat) :
    State.Alike { s with ids := ids } { t with ids := ids } := by
  cases h with
  | rearranged ranking hperm => exact .rearranged (s := { s with ids := ids }) ranking hperm

theorem withFilters (h : s.Alike t) (filters : List PostFilter) :
    State.Alike { s with filters := filters } { t with filters := filters } := by
  cases h with
  | rearranged ranking hperm => exact .rearranged (s := { s with filters := filters }) ranking hperm

theorem startPage (h : s.Alike t) (search : Option Nat) :
    StepsAlike (Session.startPage setup s search) (Session.startPage setup t search) := by
  have hsame : t.refusal? setup = s.refusal? setup ∧ t.pageEnd setup = s.pageEnd setup ∧
      t.pageIds setup = s.pageIds setup := by
    cases h
    exact ⟨rfl, rfl, rfl⟩
  obtain ⟨hrefusal, hend, hpage⟩ := hsame
  rw [startPage_eq, startPage_eq, hrefusal, hend, hpage, h.ids_eq]
  cases s.refusal? setup with
  | some outcome => exact ⟨h, rfl⟩
  | none => exact h.taken.continuePage _ _ _ _

variable (setup) in
theorem resume (h : s.Alike t) (call : Call) :
    StepsAlike (Session.resume setup s call) (Session.resume setup t call) := by
  cases call with
  | browse ids =>
    cases ids with
    | read url next => exact ⟨h, rfl⟩
    | done ids => exact (h.withIds ids).startPage _
  | find filters ids =>
    cases ids with
    | read url next => exact ⟨h, rfl⟩
    | done ids =>
      simp only [Session.resume, continueFind]
      split
      · exact ⟨h, rfl⟩
      · exact ((h.withFilters filters).withIds ids).startPage _
  | page search cursor total documents => exact h.continuePage search cursor total documents
  | exportAll filters ranking documents =>
    cases documents with
    | read url next => exact ⟨h, rfl⟩
    | done documents =>
      -- An export sorts by the ranking that the call has kept, not by that of the state.
      cases h with
      | rearranged ranking hperm => exact ⟨.rearranged ranking hperm, rfl⟩

end State.Alike

/-! ### Calls on states that are alike -/

/-- A call reads the same on states that are alike, and returns the same. -/
theorem Completes.exists_alike {p : Progress} {reads : List String} {after : State}
    {outcome : Outcome} (h : Completes setup network s p reads after outcome)
    (halike : s.Alike t) :
    ∃ other, Completes setup network t p reads other outcome ∧ after.Alike other := by
  induction h generalizing t with
  | finished s outcome => exact ⟨t, .finished _ _, halike⟩
  | @waiting s after url next reads outcome rest ih =>
    obtain ⟨hstates, hprogress⟩ := halike.resume setup (next (network url))
    obtain ⟨other, hother, hafter⟩ := ih hstates
    rw [← hprogress] at hother
    exact ⟨other, .waiting hother, hafter⟩

theorem StepsAlike.completes {first second : State × Progress} (h : StepsAlike first second)
    {reads : List String} {after : State} {outcome : Outcome}
    (hfirst : Completes setup network first.1 first.2 reads after outcome) :
    ∃ other, Completes setup network second.1 second.2 reads other outcome ∧
      after.Alike other := by
  rw [h.progress]
  exact hfirst.exists_alike h.states

theorem State.Alike.start_nextPage (h : s.Alike t) :
    StepsAlike (start setup s .nextPage) (start setup t .nextPage) := by
  simp only [start, h.exporting_eq]
  split
  · exact ⟨h, rfl⟩
  · exact h.startPage none

/-- A ranking by what the index does not carry has no part in a search. -/
theorem searchCall_of_unindexed {first second : Ranking} (hfirst : first.indexKey? = none)
    (hsecond : second.indexKey? = none) (query : String) :
    searchCall setup first query = searchCall setup second query := by
  have hrank : Plan.rank first = Plan.rank second := by
    funext pointers
    rw [Plan.rank, Plan.rank, hfirst, hsecond]
  simp only [searchCall, Plan.ids, Plan.pointers, hrank]

/-- A search that is not ignored, and the last search again on a session that has its query. -/
theorem stepsAlike_rerun {request : Request} (hsearch : request.Searches)
    (hran : ¬ request.Ignored) (htrim : Text.trim s.query = s.query)
    (hquery : t.query = request.queryAfter s.query) (hexporting : t.exporting = s.exporting)
    (hs : s.ranking.indexKey? = none) (ht : t.ranking.indexKey? = none) :
    StepsAlike (start setup s request) (start setup t .rerun) := by
  have htrimAfter : Text.trim t.query = t.query := by
    rw [hquery]
    exact request.trim_queryAfter htrim
  have hkept : request.query s = t.query := by
    rw [hquery]
    cases request with
    | search text first => rw [Request.queryAfter, if_neg hran, Request.query]
    | _ => rfl
  have hlast : Request.rerun.Searches := trivial
  have hrerun : start setup t .rerun =
      resume setup (t.reset t.query) (searchCall setup t.ranking t.query) :=
    start_of_searches setup hlast id htrimAfter
  rw [start_of_searches setup hsearch hran htrim, hrerun, hkept, searchCall_of_unindexed hs ht]
  exact (State.Alike.reset hexporting t.query).resume setup _

theorem State.alike_chooseRanking (s : State) (field : Field) :
    s.Alike (chooseRanking s field).1 := by
  rw [chooseRanking]
  split
  · exact .rearranged _ (List.Perm.refl _)
  · exact .rearranged _ (Document.sortBy_perm _ _)

/-- A page on its own is loaded, or it leaves everything as it is. -/
theorem Performs.loaded_or_eq {reads : List String} {outcome : Outcome}
    (h : Performs setup network s .nextPage reads t outcome) :
    Answer.isLoadedPage ⟨reads, outcome⟩ = true ∨ t = s := by
  simp only [Performs, start] at h
  split at h
  · exact .inr (completes_finished_iff.mp h).2.1
  · cases hrefusal : s.refusal? setup with
    | some refusal =>
      rw [startPage_of_refusal? hrefusal] at h
      exact .inr (completes_finished_iff.mp h).2.1
    | none =>
      obtain ⟨rest, -, hloaded⟩ := (completes_startPage_iff hrefusal).mp h
      obtain rfl := (completes_finished_iff.mp hloaded).2.2
      exact .inl rfl

/-- A call that is no search is a page that is loaded, or it only arranges the documents. -/
theorem Performs.loaded_or_alike {request : Request} {reads : List String} {outcome : Outcome}
    (h : Performs setup network s request reads t outcome)
    (hnone : request.Searches → request.Ignored) (hexporting : s.exporting = false) :
    (request = .nextPage ∧ Answer.isLoadedPage ⟨reads, outcome⟩ = true) ∨
      (Answer.isLoadedPage ⟨reads, outcome⟩ = false ∧ s.Alike t) := by
  cases request with
  | search text first =>
    rw [Performs, start_of_ignored setup (hnone trivial)] at h
    obtain ⟨-, rfl, rfl⟩ := completes_finished_iff.mp h
    exact .inr ⟨rfl, .refl t⟩
  | rerun => exact (hnone trivial).elim
  | nextPage =>
    cases hloaded : Answer.isLoadedPage ⟨reads, outcome⟩ with
    | true => exact .inl ⟨rfl, rfl⟩
    | false =>
      rcases h.loaded_or_eq with hpage | rfl
      · rw [hloaded] at hpage
        cases hpage
      · exact .inr ⟨rfl, .refl t⟩
  | exportAll =>
    have hsame : ({ s with exporting := false } : State) = s := by rw [← hexporting]
    by_cases hids : s.ids = []
    · obtain ⟨-, rfl, rfl⟩ := (performs_exportAll_none (.inr hids)).unique h
      exact .inr ⟨rfl, .refl t⟩
    · obtain ⟨-, rfl, rfl⟩ := (performs_exportAll hexporting hids).unique h
      rw [hsame]
      exact .inr ⟨rfl, .refl s⟩
  | rank field =>
    obtain ⟨-, rfl, rfl⟩ := completes_finished_iff.mp h
    exact .inr ⟨rfl, s.alike_chooseRanking field⟩

/-- What was loaded after a search is loaded again from a state that is alike. -/
theorem Performed.exists_pages {requests : List Request} {answers : List Answer} {after : State}
    (h : Performed setup network s requests answers after)
    (hnone : ∀ request ∈ requests, request.Searches → request.Ignored)
    (hexporting : s.exporting = false) (halike : s.Alike t) :
    ∃ other, Performed setup network t
        (List.replicate (answers.filter Answer.isLoadedPage).length .nextPage)
        (answers.filter Answer.isLoadedPage) other ∧ after.Alike other := by
  -- A call that loads nothing only rearranges: the other session leaves it out.
  induction h generalizing t with
  | nil s => exact ⟨t, .nil t, halike⟩
  | @cons s middle after request reads outcome requests answers hfirst hrest ih =>
    rw [List.forall_mem_cons] at hnone
    have hdown : middle.exporting = false := hfirst.exporting_eq_false hexporting
    rcases hfirst.loaded_or_alike hnone.1 hexporting with ⟨rfl, hloaded⟩ | ⟨hloaded, hmiddle⟩
    · obtain ⟨next, hnext, hmiddle⟩ := halike.start_nextPage.completes hfirst
      obtain ⟨other, hother, hafter⟩ := ih hnone.2 hdown hmiddle
      rw [List.filter_cons_of_pos hloaded]
      exact ⟨other, .cons hnext hother, hafter⟩
    · rw [List.filter_cons_of_neg (by simp [hloaded])]
      exact ih hnone.2 hdown (hmiddle.symm.trans halike)

/-- Calls of which none is a search that runs keep the query. -/
theorem foldl_queryAfter_of_ignored {requests : List Request}
    (hnone : ∀ request ∈ requests, request.Searches → request.Ignored) (query : String) :
    requests.foldl Request.queryAfter query = query := by
  induction requests with
  | nil => rfl
  | cons request rest ih =>
    rw [List.forall_mem_cons] at hnone
    have hkept : request.queryAfter query = query := by
      cases request with
      | search text first => rw [Request.queryAfter, if_pos (hnone.1 trivial)]
      | _ => rfl
    rw [List.foldl_cons, hkept]
    exact ih hnone.2

/-- The last search that ran is made again, and so are the pages that were loaded after it, on a
session that is like the one which they have left, if the index has no part in either ranking. -/
theorem exists_search_again {before searched : State} {request : Request} {reads : List String}
    {outcome : Outcome} {later : List Request} {answers : List Answer}
    (htrim : Text.trim before.query = before.query) (hexporting : before.exporting = false)
    (hsearch : request.Searches) (hran : ¬ request.Ignored)
    (hfirst : Performs setup network before request reads searched outcome)
    (hlater : Performed setup network searched later answers s)
    (hnone : ∀ other ∈ later, other.Searches → other.Ignored) (halike : s.Alike t)
    (hbefore : before.ranking.indexKey? = none) (ht : t.ranking.indexKey? = none) :
    ∃ again, Performed setup network t
        (.rerun :: List.replicate (answers.filter Answer.isLoadedPage).length .nextPage)
        (⟨reads, outcome⟩ :: answers.filter Answer.isLoadedPage) again ∧ s.Alike again := by
  obtain ⟨hquery, hsearched⟩ := hfirst.frame htrim hexporting
  have htrimSearched : Text.trim searched.query = searched.query := by
    rw [hquery]
    exact request.trim_queryAfter htrim
  obtain ⟨hkept, -, hdown⟩ := hlater.frame htrimSearched hsearched
  rw [foldl_queryAfter_of_ignored hnone, hquery, ← halike.query_eq] at hkept
  rw [← halike.exporting_eq, ← hexporting] at hdown
  obtain ⟨middle, hrerun, hmiddle⟩ :=
    (stepsAlike_rerun hsearch hran htrim hkept hdown hbefore ht).completes hfirst
  obtain ⟨again, hpages, hagain⟩ := hlater.exists_pages hnone hsearched hmiddle
  exact ⟨again, .cons hrerun hpages, hagain⟩

end Alike

/-! ### The order of the loaded documents -/

section SortedBy

variable {setup : Setup} {network : String → Option Json} {s : State} {ranking : Ranking}

namespace State.SortedBy

theorem startPage (h : s.SortedBy ranking) (search : Option Nat) :
    (Session.startPage setup s search).1.SortedBy ranking := by
  rcases startPage_frame setup s search with hstate | hstate <;> rw [hstate]
  · exact h
  · exact ⟨h.unindexed, h.ranking_eq, h.loaded_eq⟩

theorem finish (h : s.SortedBy ranking) (task : Task) :
    (task.finish setup s).1.SortedBy ranking := by
  obtain ⟨hunindexed, hranking, hloaded⟩ := h
  cases task with
  | browse ids => exact startPage (s := { s with ids := ids }) ⟨hunindexed, hranking, hloaded⟩ _
  | find filters ids =>
    rw [Task.finish]
    split
    · exact ⟨hunindexed, hranking, hloaded⟩
    · exact startPage (s := { s with filters := filters, ids := ids })
        ⟨hunindexed, hranking, hloaded⟩ _
  | page search cursor total documents =>
    refine ⟨hunindexed, hranking, s.loaded ++ documents.filter (PostFilter.allAccept s.filters), ?_⟩
    simp [Task.finish, State.append, hranking, hunindexed]
  | exportAll filters ranking documents => exact ⟨hunindexed, hranking, hloaded⟩

theorem resume (h : s.SortedBy ranking) (call : Call) :
    (Session.resume setup s call).1.SortedBy ranking := by
  rcases resume_cases setup (fun _ ↦ none) s call with ⟨hstate, -⟩ | hfinish
  · rwa [hstate]
  · rw [hfinish]
    exact h.finish _

theorem start (h : s.SortedBy ranking) {request : Request}
    (hrank : ∀ field, request ≠ .rank field) :
    (Session.start setup s request).1.SortedBy ranking := by
  have hsearch : request.Searches → (Session.start setup s request).1.SortedBy ranking := by
    intro hsearch
    rcases start_search_cases setup hsearch s with hstart | ⟨query, hstart⟩ <;> rw [hstart]
    · exact h
    · exact resume (s := s.reset query)
        ⟨h.unindexed, h.ranking_eq, [], List.mergeSort_nil.symm⟩ _
  cases request with
  | search text first => exact hsearch trivial
  | rerun => exact hsearch trivial
  | nextPage =>
    simp only [Session.start]
    split
    · exact h
    · exact h.startPage none
  | exportAll =>
    rw [Session.start, startExport_eq]
    split
    · exact h
    · exact resume (s := { s with exporting := true }) ⟨h.unindexed, h.ranking_eq, h.loaded_eq⟩ _
  | rank field => exact absurd rfl (hrank field)

theorem completes (h : s.SortedBy ranking) {p : Progress} {reads : List String} {after : State}
    {outcome : Outcome} (hcall : Completes setup network s p reads after outcome) :
    after.SortedBy ranking := by
  induction hcall with
  | finished s outcome => exact h
  | waiting rest ih => exact ih (h.resume _)

/-- Calls that choose no ranking keep the documents in order. -/
theorem performed (h : s.SortedBy ranking) {requests : List Request} {answers : List Answer}
    {after : State} (hcalls : Performed setup network s requests answers after)
    (hrank : ∀ request ∈ requests, ∀ field, request ≠ .rank field) : after.SortedBy ranking := by
  induction hcalls with
  | nil s => exact h
  | cons hfirst hrest ih =>
    rw [List.forall_mem_cons] at hrank
    exact ih ((h.start hrank.1).completes hfirst) hrank.2

theorem pairwise (h : s.SortedBy ranking) (htotal : Document.TotalPreorder ranking s.loaded) :
    s.loaded.Pairwise fun a b ↦ (Document.compareBy ranking a b).isLE = true := by
  obtain ⟨documents, hloaded⟩ := h.loaded_eq
  have hmem : ∀ d ∈ documents, d ∈ s.loaded := fun d hd ↦ by
    rw [hloaded]
    exact (Document.sortBy_perm ranking documents).mem_iff.mpr hd
  rw [hloaded]
  exact (htotal.of_subset hmem).pairwise_sortBy

end State.SortedBy

end SortedBy

section Resorting

variable {setup : Setup} {network : String → Option Json}

/-- Where the index has no part in the rankings, choosing a field sorts the loaded documents. -/
theorem chooseRanking_of_unindexed {s : State} {field : Field} (hs : s.ranking.indexKey? = none)
    (hfield : field.indexKey? = none) :
    chooseRanking s field = ({ s with
      ranking := s.ranking.choose field
      loaded := Document.sortBy (s.ranking.choose field) s.loaded }, .resorted) := by
  rw [chooseRanking, hs, Ranking.indexKey?_choose, hfield]
  exact if_neg Bool.false_ne_true

/-- Documents that two states have in order are tied place by place. -/
theorem State.SortedBy.forall₂_eq {ranking : Ranking} {s t : State} (hs : s.SortedBy ranking)
    (ht : t.SortedBy ranking) (hperm : s.loaded.Perm t.loaded)
    (htotal : Document.TotalPreorder ranking t.loaded) :
    List.Forall₂ (fun a b ↦ Document.compareBy ranking a b = .eq) s.loaded t.loaded := by
  have hmem : ∀ d ∈ s.loaded, d ∈ t.loaded := fun d hd ↦ hperm.mem_iff.mp hd
  have hfirst : Document.TotalPreorder ranking s.loaded := htotal.of_subset hmem
  have htied := hfirst.orderOf.forall₂_tied_of_perm hperm (hs.pairwise hfirst) (ht.pairwise htotal)
  simpa only [Document.tied_eq, decide_eq_true_eq] using htied

/-- Sorting in place is as good as searching again. The last search has run under a ranking that is
by nothing that the index carries, and so is the ranking now. Choosing another such field, if it
returns, changes nothing but the ranking and the arrangement of the documents. The search again,
with as many pages after it as have been loaded, answers as it did, if it returns, and ends with the
same ids, cursor and documents. Where the new ranking orders the loaded documents up to ties, both
return, and documents in the same place are tied. -/
theorem resorting_agrees_with_rerun {past : List Request} {pastAnswers : List Answer}
    {before searched s : State} {request : Request} {reads : List String} {outcome : Outcome}
    {later : List Request} {laterAnswers : List Answer} {field : Field}
    (hpast : Performed setup network (.initial setup.config.search) past pastAnswers before)
    (hsearch : request.Searches) (hran : ¬ request.Ignored)
    (hfirst : Performs setup network before request reads searched outcome)
    (hlater : Performed setup network searched later laterAnswers s)
    (hnone : ∀ other ∈ later, other.Searches → other.Ignored)
    (hbefore : before.ranking.indexKey? = none) (hs : s.ranking.indexKey? = none)
    (hfield : field.indexKey? = none) :
    let ranking := s.ranking.choose field
    let pages := laterAnswers.filter Answer.isLoadedPage
    let requests := Request.rerun :: List.replicate pages.length .nextPage
    (∀ resortReads resorted resortOutcome,
      Performs setup network s (.rank field) resortReads resorted resortOutcome →
        resortReads = [] ∧ resortOutcome = .rank .resorted ∧
        resorted = { s with ranking := ranking, loaded := resorted.loaded } ∧
        resorted.loaded.Perm s.loaded ∧
        ∀ answers again, Performed setup network resorted requests answers again →
          answers = ⟨reads, outcome⟩ :: pages ∧
          again.ids = s.ids ∧ again.cursor = s.cursor ∧ again.loaded.Perm resorted.loaded ∧
          (Document.TotalPreorder ranking s.loaded →
            List.Forall₂ (fun a b ↦ Document.compareBy ranking a b = .eq) again.loaded
              resorted.loaded)) ∧
    (Document.TotalPreorder ranking s.loaded → ∃ resorted again,
      Performs setup network s (.rank field) [] resorted (.rank .resorted) ∧
        Performed setup network resorted requests (⟨reads, outcome⟩ :: pages) again) := by
  intro ranking pages requests
  obtain ⟨-, htrim, hexporting⟩ := hpast.frame_initial
  -- What the first step of choosing the field leaves is all that the rest needs to know of it.
  obtain ⟨resorted, hresorted⟩ : ∃ resorted, resorted = (chooseRanking s field).1 := ⟨_, rfl⟩
  have hchoose := chooseRanking_of_unindexed hs hfield
  have hrank : Performs setup network s (.rank field) [] resorted (.rank .resorted) := by
    rw [hresorted, Performs, start, hchoose]
    exact .finished _ _
  have halike : s.Alike resorted := hresorted ▸ s.alike_chooseRanking field
  have hsorted : resorted.SortedBy ranking := by
    rw [hresorted, hchoose]
    exact ⟨by rw [Ranking.indexKey?_choose, hfield], rfl, s.loaded, rfl⟩
  have hunindexed : resorted.ranking.indexKey? = none := by
    rw [hsorted.ranking_eq]
    exact hsorted.unindexed
  obtain ⟨again, hagain, hend⟩ := exists_search_again htrim hexporting hsearch hran hfirst hlater
    hnone halike hbefore hunindexed
  have hnoRank : ∀ other ∈ requests, ∀ field, other ≠ .rank field := by
    intro other hother field
    rcases List.mem_cons.mp hother with rfl | hpage
    · exact Request.noConfusion
    · rw [List.eq_of_mem_replicate hpage]
      exact Request.noConfusion
  have hagainSorted : again.SortedBy ranking := hsorted.performed hagain hnoRank
  have hperm : again.loaded.Perm resorted.loaded := hend.loaded_perm.trans halike.loaded_perm.symm
  -- `Document.sortBy` returns on all documents, but what it stands for only where they are ordered.
  refine ⟨fun resortReads after resortOutcome hafter ↦ ?_, fun _ ↦ ⟨resorted, again, hrank, hagain⟩⟩
  obtain ⟨rfl, rfl, rfl⟩ := hrank.unique hafter
  refine ⟨rfl, rfl, ?_, halike.loaded_perm, fun answers last hlast ↦ ?_⟩
  · rw [hresorted, hchoose]
  · obtain ⟨rfl, rfl⟩ := hagain.unique hlast
    refine ⟨rfl, hend.ids_eq, hend.cursor_eq, hperm, fun htotal ↦ ?_⟩
    have hordered : Document.TotalPreorder ranking after.loaded :=
      htotal.of_subset fun d hd ↦ halike.loaded_perm.mem_iff.mp hd
    exact hagainSorted.forall₂_eq hsorted hperm hordered

end Resorting

/-- The results are ranked by the names of the guilds at first. -/
def namedSetup : Setup :=
  { smallSetup with config.search.rankingPath := Field.guildName.path }

/-- Two documents with tags, and a listing of their ids. -/
def taggedNetwork (url : String) : Option Json :=
  if url = "r/data/d_0.json" then
    some (.array [(Document.tagged 1 "cat").toJson, (Document.tagged 2 "dog").toJson])
  else smallNetwork url

/-- A session that ranks by the names of guilds, with some of its two documents. -/
def namedState (cursor : Nat) (documents : List Document) : State where
  ids := [1, 2]
  cursor := cursor
  loaded := Document.sortBy ⟨.guildName, .descending⟩ documents
  ranking := ⟨.guildName, .descending⟩

/-- One page of two has been taken after the search, and then one too many. -/
theorem named_resorting_agrees_with_rerun :
    let searched := namedState 1 [Document.tagged 1 "cat"]
    let s := namedState 2 (searched.loaded ++ [Document.tagged 2 "dog"])
    Performs namedSetup taggedNetwork (.initial namedSetup.config.search) (.search "" true)
        ["./all_servers_sorted_by_members.json", "r/data/d_0.json"] searched
        (.search (.found 2 (.loaded 1 1 2))) ∧
      Performed namedSetup taggedNetwork searched [.nextPage, .nextPage]
        [⟨["r/data/d_0.json"], .page (.loaded 1 2 2)⟩, ⟨[], .page .exhausted⟩] s ∧
      ∃ resorted again, resorted.ranking = ⟨.profileTag, .descending⟩ ∧
        Performs namedSetup taggedNetwork s (.rank .profileTag) [] resorted (.rank .resorted) ∧
        Performed namedSetup taggedNetwork resorted [.rerun, .nextPage]
          [⟨["./all_servers_sorted_by_members.json", "r/data/d_0.json"],
            .search (.found 2 (.loaded 1 1 2))⟩, ⟨["r/data/d_0.json"], .page (.loaded 1 2 2)⟩]
          again ∧
        again.ids = [1, 2] ∧ again.cursor = 2 ∧
        List.Forall₂ (fun a b ↦ Document.compareBy ⟨.profileTag, .descending⟩ a b = .eq)
          again.loaded resorted.loaded := by
  intro searched s
  have hfirst : Performs namedSetup taggedNetwork (.initial namedSetup.config.search)
      (.search "" true) ["./all_servers_sorted_by_members.json", "r/data/d_0.json"] searched
      (.search (.found 2 (.loaded 1 1 2))) :=
    .waiting (.waiting (.finished _ _))
  have hlater : Performed namedSetup taggedNetwork searched [.nextPage, .nextPage]
      [⟨["r/data/d_0.json"], .page (.loaded 1 2 2)⟩, ⟨[], .page .exhausted⟩] s :=
    .cons (.waiting (.finished _ _)) (.cons (.finished _ _) (.nil _))
  have hsearch : (Request.search "" true).Searches := trivial
  have hnone : ∀ other ∈ [Request.nextPage, Request.nextPage], other.Searches → other.Ignored := by
    simp [Request.Searches]
  have hfield : Field.profileTag.indexKey? = none := rfl
  have hloaded : s.loaded.Perm [Document.tagged 1 "cat", Document.tagged 2 "dog"] :=
    (Document.sortBy_perm _ _).trans ((Document.sortBy_perm _ _).append_right _)
  have huniform : Document.Uniform .profileTag s.loaded := by
    have hunnumbered : ∀ d ∈ [Document.tagged 1 "cat", Document.tagged 2 "dog"],
        ((Document.rankingText? .profileTag d).all fun text ↦
          (Text.leadingNumber? text).isNone) = true := by
      decide +kernel
    refine .inr fun d hd text htext ↦ ?_
    have hd := hunnumbered d (hloaded.mem_iff.mp hd)
    rw [htext, Option.all_some] at hd
    exact Option.isNone_iff_eq_none.mp hd
  have htotal : Document.TotalPreorder (s.ranking.choose .profileTag) s.loaded :=
    Document.Uniform.totalPreorder huniform
  obtain ⟨hreturned, hreturns⟩ := resorting_agrees_with_rerun (.nil _) hsearch (by decide) hfirst
    hlater hnone (by decide) rfl hfield
  obtain ⟨resorted, again, hrank, hagain⟩ := hreturns htotal
  obtain ⟨-, -, heq, -, hall⟩ := hreturned _ _ _ hrank
  obtain ⟨-, hids, hcursor, -, htied⟩ := hall _ _ hagain
  have hranking : resorted.ranking = ⟨.profileTag, .descending⟩ := by
    rw [heq]
    rfl
  exact ⟨hfirst, hlater, resorted, again, hranking, hrank, hagain, hids, hcursor, htied htotal⟩

end ShardSearch.Session
