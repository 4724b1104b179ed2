import ShardSearch.Proofs.CallAlone
import ShardSearch.Proofs.DocumentSort
import ShardSearch.Proofs.ExportFlag

/-!
Loading page by page against exporting at once. After a search the ids are fixed, and pages take
them from the front. Whatever calls other than searches overlap, either no page is under way and the
loaded documents are those of the ids before the cursor, or one page is, and they are those of the
ids before this page (`Paging`). `Arranged` says in which order they are: as in the list of ids
where the index carries the ranking, sorted at once where it does not and ties are harmless, and in
some order once the ranking has been chosen anew. When the ids are used up the documents are thus
those of an export.
-/

set_option autoImplicit false

namespace ShardSearch

namespace Session

section Documents

variable (setup : Setup) (network : String → Option Json)

/-- The documents of some ids that pass the filters, in the order of the ids. -/
def passing (filters : List PostFilter) (ids : List Nat) : List Document :=
  ((Document.load setup.catalog.manifest ids).run network).filter (PostFilter.allAccept filters)

theorem passing_append {setup : Setup} {network : String → Option Json}
    (hplaced : Document.WellPlaced setup.catalog.manifest network) (filters : List PostFilter)
    (first second : List Nat) : passing setup network filters (first ++ second) =
      passing setup network filters first ++ passing setup network filters second := by
  rw [passing, Document.run_load_append hplaced, List.filter_append, passing, passing]

end Documents

/-- The order in which documents are loaded under a ranking, which is the first one as long as none
has been chosen. -/
structure Arranged (unchosen : Prop) (first ranking : Ranking) (loaded documents : List Document) :
    Prop where
  perm : loaded.Perm documents
  ranking_eq : unchosen → ranking = first
  of_indexed : unchosen → first.indexKey?.isSome → loaded = documents
  of_unindexed : unchosen → first.indexKey? = none → Document.TotalPreorder first documents →
    loaded = Document.sortBy first documents

namespace Arranged

variable {unchosen : Prop} {first : Ranking} {s : State} {documents : List Document}

theorem nil (unchosen : Prop) (first : Ranking) : Arranged unchosen first first [] [] where
  perm := List.Perm.refl []
  ranking_eq _ := rfl
  of_indexed _ _ := rfl
  of_unindexed _ _ _ := List.mergeSort_nil.symm

theorem append (h : Arranged unchosen first s.ranking s.loaded documents)
    (more : List Document) :
    Arranged unchosen first (s.append more).ranking (s.append more).loaded
      (documents ++ more) where
  perm := (s.loaded_append_perm more).trans (h.perm.append_right more)
  ranking_eq := h.ranking_eq
  of_indexed hunchosen hindexed := by
    have hranking : s.ranking.indexKey?.isSome = true := by rwa [h.ranking_eq hunchosen]
    rw [State.append, hranking, if_pos rfl, h.of_indexed hunchosen hindexed]
  of_unindexed hunchosen hunindexed horder := by
    have hranking : s.ranking.indexKey?.isSome = false := by
      rw [h.ranking_eq hunchosen, hunindexed]
      rfl
    have hloaded := h.of_unindexed hunchosen hunindexed
      (horder.of_subset fun d hd ↦ List.mem_append_left more hd)
    rw [State.append, hranking, if_neg Bool.false_ne_true, hloaded, h.ranking_eq hunchosen]
    exact Document.sortBy_sortBy_append horder

theorem chooseRanking (h : Arranged unchosen first s.ranking s.loaded documents)
    (hchosen : ¬ unchosen) (field : Field) :
    Arranged unchosen first (chooseRanking s field).1.ranking (chooseRanking s field).1.loaded
      documents where
  perm := by
    simp only [Session.chooseRanking]
    split
    · exact h.perm
    · exact (Document.sortBy_perm _ _).trans h.perm
  ranking_eq hunchosen := absurd hunchosen hchosen
  of_indexed hunchosen := absurd hunchosen hchosen
  of_unindexed hunchosen := absurd hunchosen hchosen

end Arranged

/-! ### Pages one after the other -/

def Task.isPage : Task → Bool
  | page _ _ _ _ => true
  | _ => false

section Paging

variable (setup : Setup) (network : String → Option Json) (ids : List Nat)
  (filters : List PostFilter) (unchosen : Prop) (ranking : Ranking)

/-- Where loading stands: the documents of the first ids are loaded, and either these are the ids
before the cursor or a page with the other ones before it is under way. -/
def Progressing (s : State) (pages : List Task) : Prop :=
  ∃ done, Arranged unchosen ranking s.ranking s.loaded
      (passing setup network filters (ids.take done)) ∧
    ((s.fetching = false ∧ done = s.cursor ∧ pages = []) ∨
      (s.fetching = true ∧ done ≤ s.cursor ∧ ∃ search cursor total, pages =
        [.page search cursor total ((Document.load setup.catalog.manifest
          ((ids.take s.cursor).drop done)).run network)]))

/-- A session after a search, with no further search. -/
structure Paging (y : System) : Prop where
  ids_eq : y.state.ids = ids
  filters_eq : y.state.filters = filters
  cursor_le : y.state.cursor ≤ ids.length
  no_search : ∀ task ∈ y.tasks network, task.isPage ∨ task.isExport
  exhausted : (∃ call ∈ y.calls, call.progress = .finished (.page .exhausted)) →
    ids.length ≤ y.state.cursor
  progressing : Progressing setup network ids filters unchosen ranking y.state
    ((y.tasks network).filter Task.isPage)

variable {setup network ids filters unchosen ranking}

/-- Taking a page when none is under way. -/
theorem Progressing.taken {s : State} {pages : List Task} (search : Option Nat)
    (hids : s.ids = ids)
    (h : Progressing setup network ids filters unchosen ranking s pages)
    (hrefusal : s.refusal? setup = none) :
    Progressing setup network ids filters unchosen ranking (s.taken setup)
      (pages ++ [.page search (s.pageEnd setup) s.ids.length
        ((Document.load setup.catalog.manifest (s.pageIds setup)).run network)]) := by
  obtain ⟨hfetching, hcursor, -⟩ := State.refusal?_eq_none.mp hrefusal
  obtain ⟨done, harranged, ⟨-, rfl, rfl⟩ | ⟨hbusy, -⟩⟩ := h
  · refine ⟨s.cursor, harranged, .inr ⟨rfl, ?_, search, s.pageEnd setup, s.ids.length, ?_⟩⟩
    · change s.cursor ≤ min (s.cursor + setup.pageLength) s.ids.length
      omega
    · rw [State.pageIds, hids, List.nil_append]
      rfl
  · rw [hfetching] at hbusy
    cases hbusy

/-- No two pages are under way at once. -/
theorem Progressing.alone {s : State} {before after : List Task} {task : Task}
    (h : Progressing setup network ids filters unchosen ranking s (before ++ task :: after)) :
    before = [] ∧ after = [] := by
  obtain ⟨done, -, ⟨-, -, hnone⟩ | ⟨-, -, search, cursor, total, hpage⟩⟩ := h
  · exact absurd hnone (List.append_ne_nil_of_right_ne_nil _ (List.cons_ne_nil _ _))
  · have hlength := congrArg List.length hpage
    rw [List.length_append, List.length_cons, List.length_singleton] at hlength
    exact ⟨List.length_eq_zero_iff.mp (by omega), List.length_eq_zero_iff.mp (by omega)⟩

/-- The page under way is done: its documents join those before it. -/
theorem Progressing.finish (hplaced : Document.WellPlaced setup.catalog.manifest network)
    {s : State} {search : Option Nat} {cursor total : Nat} {documents : List Document}
    (hfilters : s.filters = filters)
    (h : Progressing setup network ids filters unchosen ranking s
      [.page search cursor total documents]) :
    Progressing setup network ids filters unchosen ranking
      (Task.finish setup s (.page search cursor total documents)).1 [] := by
  obtain ⟨done, harranged, ⟨-, -, hnone⟩ | ⟨-, hdone, other, end', count, hpage⟩⟩ := h
  · cases hnone
  · have hdocuments : documents = (Document.load setup.catalog.manifest
        ((ids.take s.cursor).drop done)).run network := by
      injection hpage with hpage
      injection hpage
    have hsplit : ids.take s.cursor = ids.take done ++ (ids.take s.cursor).drop done := by
      have htake : (ids.take s.cursor).take done = ids.take done := by
        rw [List.take_take, Nat.min_eq_left hdone]
      rw [← htake, List.take_append_drop]
    refine ⟨s.cursor, ?_, .inl ⟨rfl, rfl, rfl⟩⟩
    rw [hsplit, passing_append hplaced]
    have hjoined := harranged.append (documents.filter (PostFilter.allAccept s.filters))
    rw [hfilters, hdocuments] at hjoined
    rw [Task.finish, hfilters, hdocuments]
    exact hjoined

namespace Paging

variable {y : System}

/-- A step that keeps ids and filters, does not turn the cursor back, and answers that the ids are
used up only if they are. -/
private theorem of_step {z : System} (h : Paging setup network ids filters unchosen ranking y)
    (hids : z.state.ids = y.state.ids) (hfilters : z.state.filters = y.state.filters)
    (hcursor : y.state.cursor ≤ z.state.cursor) (hle : z.state.cursor ≤ ids.length)
    (htasks : ∀ task ∈ z.tasks network, task.isPage ∨ task.isExport)
    (hcalls : ∀ call ∈ z.calls, call ∈ y.calls ∨
      (call.progress = .finished (.page .exhausted) → ids.length ≤ z.state.cursor))
    (hprogressing : Progressing setup network ids filters unchosen ranking z.state
      ((z.tasks network).filter Task.isPage)) :
    Paging setup network ids filters unchosen ranking z where
  ids_eq := hids.trans h.ids_eq
  filters_eq := hfilters.trans h.filters_eq
  cursor_le := hle
  no_search := htasks
  exhausted := by
    rintro ⟨call, hcall, hanswer⟩
    rcases hcalls call hcall with hold | hnew
    · exact Nat.le_trans (h.exhausted ⟨call, hold, hanswer⟩) hcursor
    · exact hnew hanswer
  progressing := hprogressing

/-- A new call that leaves ids, filters and cursor, and is no page. -/
private theorem start_of_same (h : Paging setup network ids filters unchosen ranking y)
    {request : Request} (hids : (start setup y.state request).1.ids = y.state.ids)
    (hfilters : (start setup y.state request).1.filters = y.state.filters)
    (hcursor : (start setup y.state request).1.cursor = y.state.cursor)
    (htask : ∀ task ∈ (start setup y.state request).2.task? network,
      task.isExport = true ∧ task.isPage = false)
    (hanswer : (start setup y.state request).2 = .finished (.page .exhausted) →
      ids.length ≤ y.state.cursor)
    (hprogressing : Progressing setup network ids filters unchosen ranking
      (start setup y.state request).1 ((y.tasks network).filter Task.isPage)) :
    Paging setup network ids filters unchosen ranking (y.move setup (.start request)) := by
  refine h.of_step hids hfilters (Nat.le_of_eq hcursor.symm)
    (Nat.le_trans (Nat.le_of_eq hcursor) h.cursor_le) ?_ ?_ ?_
  · intro task htaskMem
    rw [System.tasks_start, List.mem_append, Option.mem_toList] at htaskMem
    rcases htaskMem with hold | hnew
    · exact h.no_search task hold
    · exact .inr (htask task hnew).1
  · intro call hcall
    rw [System.move_start, List.mem_append, List.mem_singleton] at hcall
    rcases hcall with hold | rfl
    · exact .inl hold
    · exact .inr fun hexhausted ↦
        Nat.le_trans (hanswer hexhausted) (Nat.le_of_eq hcursor.symm)
  · have hpages : ((start setup y.state request).2.task? network).toList.filter Task.isPage = [] := by
      rw [List.filter_eq_nil_iff]
      intro task hnew
      rw [(htask task (Option.mem_toList.mp hnew)).2]
      exact Bool.false_ne_true
    rw [System.tasks_start, List.filter_append, hpages, List.append_nil]
    exact hprogressing

/-- A new call that is refused. -/
private theorem start_of_refused (h : Paging setup network ids filters unchosen ranking y)
    {request : Request} {outcome : Outcome}
    (hstart : start setup y.state request = (y.state, .finished outcome))
    (hanswer : outcome = .page .exhausted → ids.length ≤ y.state.cursor) :
    Paging setup network ids filters unchosen ranking (y.move setup (.start request)) := by
  refine h.start_of_same ?_ ?_ ?_ ?_ ?_ ?_ <;> rw [hstart]
  · intro task htask
    cases htask
  · intro hexhausted
    injection hexhausted with hexhausted
    exact hanswer hexhausted
  · exact h.progressing

private theorem start_nextPage (h : Paging setup network ids filters unchosen ranking y) :
    Paging setup network ids filters unchosen ranking (y.move setup (.start .nextPage)) := by
  by_cases hexporting : y.state.exporting = true
  · have hstart : start setup y.state .nextPage = (y.state, pageFinished none .busy) := by
      rw [start, if_pos hexporting]
    exact h.start_of_refused hstart fun hexhausted ↦ by cases hexhausted
  · have hstart : start setup y.state .nextPage = startPage setup y.state none := by
      rw [start, if_neg hexporting]
    cases hrefusal : y.state.refusal? setup with
    | some outcome =>
      refine h.start_of_refused (hstart.trans (startPage_of_refusal? hrefusal none)) ?_
      rintro ⟨⟩
      rw [← h.ids_eq]
      exact (State.length_le_cursor_of_refusal? hrefusal).2
    | none =>
      obtain ⟨hstate, htask⟩ := startPage_of_refusal?_eq_none network hrefusal none
      obtain ⟨-, hcursor, -⟩ := State.refusal?_eq_none.mp hrefusal
      have hnew : (y.move setup (.start .nextPage)).state = y.state.taken setup := by
        rw [System.move_start, hstart, hstate]
      have htasks : (y.move setup (.start .nextPage)).tasks network =
          y.tasks network ++ [.page none (y.state.pageEnd setup) y.state.ids.length
            ((Document.load setup.catalog.manifest (y.state.pageIds setup)).run network)] := by
        rw [System.tasks_start, hstart, htask, Option.toList_some]
      refine h.of_step ?_ ?_ ?_ ?_ ?_ ?_ ?_
      · rw [hnew]
        rfl
      · rw [hnew]
        rfl
      · rw [hnew]
        change y.state.cursor ≤ min (y.state.cursor + setup.pageLength) y.state.ids.length
        omega
      · rw [hnew, ← h.ids_eq]
        exact Nat.min_le_right _ _
      · intro task hmem
        rw [htasks, List.mem_append, List.mem_singleton] at hmem
        rcases hmem with hold | rfl
        · exact h.no_search task hold
        · exact .inl rfl
      · intro call hcall
        rw [System.move_start, List.mem_append, List.mem_singleton] at hcall
        rcases hcall with hold | rfl
        · exact .inl hold
        · refine .inr fun hexhausted ↦ ?_
          change (Session.start setup y.state .nextPage).2 = _ at hexhausted
          rw [← hstart, hexhausted] at htask
          cases htask
      · rw [hnew, htasks, List.filter_append]
        exact h.progressing.taken none h.ids_eq hrefusal

private theorem start_exportAll (h : Paging setup network ids filters unchosen ranking y) :
    Paging setup network ids filters unchosen ranking (y.move setup (.start .exportAll)) := by
  by_cases hrefused : y.state.exporting = true ∨ y.state.ids = []
  · have hstart : start setup y.state .exportAll = (y.state, .finished (.exported none)) := by
      have hguard : (y.state.exporting || y.state.ids.isEmpty) = true := by simpa using hrefused
      rw [start, startExport_eq, if_pos hguard]
    exact h.start_of_refused hstart fun hexhausted ↦ by cases hexhausted
  · rw [not_or, Bool.not_eq_true] at hrefused
    obtain ⟨hstate, htask⟩ := startExport_of_accepted setup network hrefused.1 hrefused.2
    refine h.start_of_same ?_ ?_ ?_ ?_ ?_ ?_ <;> rw [start]
    · rw [hstate]
    · rw [hstate]
    · rw [hstate]
    · rw [htask]
      rintro task ⟨⟩
      exact ⟨rfl, rfl⟩
    · intro hexhausted
      rw [hexhausted] at htask
      cases htask
    · rw [hstate]
      exact h.progressing

private theorem start_rank (h : Paging setup network ids filters unchosen ranking y)
    (hchosen : ¬ unchosen) (field : Field) :
    Paging setup network ids filters unchosen ranking (y.move setup (.start (.rank field))) := by
  have hframe : ∀ s : State, (chooseRanking s field).1.ids = s.ids ∧
      (chooseRanking s field).1.filters = s.filters ∧
      (chooseRanking s field).1.cursor = s.cursor ∧
      (chooseRanking s field).1.fetching = s.fetching := by
    intro s
    simp only [chooseRanking]
    split <;> exact ⟨rfl, rfl, rfl, rfl⟩
  obtain ⟨hids, hfilters, hcursor, hfetching⟩ := hframe y.state
  refine h.start_of_same hids hfilters hcursor ?_ ?_ ?_
  · intro task htask
    cases htask
  · intro hexhausted
    cases hexhausted
  · obtain ⟨done, harranged, hpages⟩ := h.progressing
    refine ⟨done, harranged.chooseRanking hchosen field, ?_⟩
    rw [← hfetching, ← hcursor] at hpages
    exact hpages

/-- A new call that is no search. -/
theorem start (h : Paging setup network ids filters unchosen ranking y) {request : Request}
    (hsearch : ¬ request.Searches) (hchosen : unchosen → ∀ field, request ≠ .rank field) :
    Paging setup network ids filters unchosen ranking (y.move setup (.start request)) := by
  cases request with
  | search text first => exact absurd trivial hsearch
  | rerun => exact absurd trivial hsearch
  | nextPage => exact h.start_nextPage
  | exportAll => exact h.start_exportAll
  | rank field => exact h.start_rank (fun hunchosen ↦ hchosen hunchosen field rfl) field

/-- A task is done that leaves ids, filters and cursor, and its call returns. -/
private theorem of_finish {z : System} {task : Task} {rest : List Task}
    (h : Paging setup network ids filters unchosen ranking y)
    (hstate : z.state = (task.finish setup y.state).1)
    (hids : (task.finish setup y.state).1.ids = y.state.ids)
    (hfilters : (task.finish setup y.state).1.filters = y.state.filters)
    (hcursor : (task.finish setup y.state).1.cursor = y.state.cursor)
    (htasks : z.tasks network = rest) (hrest : ∀ other ∈ rest, other.isPage ∨ other.isExport)
    (hcalls : ∀ call ∈ z.calls, call ∈ y.calls ∨
      call.progress = (task.finish setup y.state).2)
    (hanswer : (task.finish setup y.state).2 ≠ .finished (.page .exhausted))
    (hprogressing : Progressing setup network ids filters unchosen ranking
      (task.finish setup y.state).1 (rest.filter Task.isPage)) :
    Paging setup network ids filters unchosen ranking z := by
  have hcursor : z.state.cursor = y.state.cursor := by rw [hstate, hcursor]
  refine h.of_step ?_ ?_ (Nat.le_of_eq hcursor.symm) ?_ ?_ ?_ ?_
  · rw [hstate, hids]
  · rw [hstate, hfilters]
  · rw [hcursor]
    exact h.cursor_le
  · rw [htasks]
    exact hrest
  · intro call hcall
    rcases hcalls call hcall with hold | hnew
    · exact .inl hold
    · exact .inr fun hexhausted ↦ absurd (hnew.symm.trans hexhausted) hanswer
  · rw [hstate, htasks]
    exact hprogressing

/-- A reply, if documents are where they are looked for. -/
theorem reply (hplaced : Document.WellPlaced setup.catalog.manifest network)
    (h : Paging setup network ids filters unchosen ranking y) (i : Nat) :
    Paging setup network ids filters unchosen ranking (y.move setup (.reply i network)) := by
  rcases System.tasks_reply setup network y i with
    ⟨hstate, htasks, hcalls⟩ | ⟨first, task, last, hbefore, hstate, hafter, hcalls⟩
  · have hcursor := congrArg State.cursor hstate
    refine h.of_step (congrArg State.ids hstate) (congrArg State.filters hstate)
      (Nat.le_of_eq hcursor.symm) (Nat.le_trans (Nat.le_of_eq hcursor) h.cursor_le) ?_ ?_ ?_
    · rw [htasks]
      exact h.no_search
    · intro call hcall
      rcases hcalls call hcall with hold | hwaiting
      · exact .inl hold
      · refine .inr fun hexhausted ↦ ?_
        rw [hexhausted] at hwaiting
        exact absurd rfl hwaiting
    · rw [hstate, htasks]
      exact h.progressing
  · have htask : task.isPage ∨ task.isExport :=
      h.no_search task (hbefore ▸ List.mem_append_right first List.mem_cons_self)
    have hrest : ∀ other ∈ first ++ last, other.isPage ∨ other.isExport := by
      intro other hother
      refine h.no_search other (hbefore ▸ ?_)
      rw [List.mem_append] at hother ⊢
      exact hother.imp_right (List.mem_cons_of_mem task)
    cases task with
    | browse found => rcases htask with hkind | hkind <;> cases hkind
    | find filters found => rcases htask with hkind | hkind <;> cases hkind
    | page search cursor total documents =>
      have hprogressing := h.progressing
      rw [hbefore, List.filter_append, List.filter_cons_of_pos rfl] at hprogressing
      obtain ⟨hfirst, hlast⟩ := hprogressing.alone
      rw [hfirst, hlast, List.nil_append] at hprogressing
      refine h.of_finish (z := y.move setup (.reply i network)) hstate rfl rfl rfl ?_ hrest ?_ ?_ ?_
      · rw [hafter, Task.finish, Progress.task?_pageFinished, Option.toList_none, List.append_nil]
      · exact hcalls
      · intro hexhausted
        cases search <;> cases hexhausted
      · rw [List.filter_append, hfirst, hlast, List.nil_append]
        exact hprogressing.finish hplaced h.filters_eq
    | exportAll snapshot order documents =>
      have hprogressing := h.progressing
      rw [hbefore, List.filter_append, List.filter_cons_of_neg Bool.false_ne_true,
        ← List.filter_append] at hprogressing
      refine h.of_finish (z := y.move setup (.reply i network)) hstate rfl rfl rfl ?_ hrest ?_ ?_ ?_
      · rw [hafter, Task.finish, Progress.task?_finished, Option.toList_none, List.append_nil]
      · exact hcalls
      · intro hexhausted
        cases hexhausted
      · exact hprogressing

/-- A move that is no search, under the one network; where the ranking counts as unchosen, it does
not choose one. -/
def Allowed (network : String → Option Json) (unchosen : Prop) (m : Move) : Prop :=
  m.Under network ∧ ∀ request, m = .start request →
    ¬ request.Searches ∧ (unchosen → ∀ field, request ≠ .rank field)

theorem move (hplaced : Document.WellPlaced setup.catalog.manifest network)
    (h : Paging setup network ids filters unchosen ranking y) {m : Move}
    (hm : Allowed network unchosen m) :
    Paging setup network ids filters unchosen ranking (y.move setup m) := by
  obtain ⟨hunder, hstart⟩ := hm
  cases m with
  | start request =>
    obtain ⟨hsearch, hchosen⟩ := hstart request rfl
    exact h.start hsearch hchosen
  | reply i other =>
    obtain rfl : other = network := hunder
    exact h.reply hplaced i

/-- A search that finds something leaves a session that can be paged. -/
theorem of_found (hplaced : Document.WellPlaced setup.catalog.manifest network) (unchosen : Prop)
    {s after : State} {request : Request} {reads : List String} {total : Nat} {page : PageOutcome}
    (hsearch : request.Searches)
    (h : Performs setup network s request reads after (.search (.found total page))) :
    Paging setup network after.ids after.filters unchosen after.ranking (.idle after) ∧
      (page = .exhausted → after.ids = []) ∧
      after.exporting = s.exporting := by
  obtain ⟨installed, rest, hinstalled, hpage⟩ := h.exists_startPage hsearch
  have hbase : Progressing setup network installed.ids installed.filters unchosen
      installed.ranking installed [] := by
    refine ⟨installed.cursor, ?_, .inl ⟨hinstalled.fetching_eq, rfl, rfl⟩⟩
    rw [hinstalled.cursor_eq, hinstalled.loaded_eq, List.take_zero]
    exact Arranged.nil unchosen installed.ranking
  have hidle : ∀ s : State, s.cursor ≤ s.ids.length →
      Progressing setup network s.ids s.filters unchosen s.ranking s [] →
      Paging setup network s.ids s.filters unchosen s.ranking (.idle s) := by
    intro s hcursor hprogressing
    exact ⟨rfl, rfl, hcursor, fun _ hmem ↦ absurd hmem List.not_mem_nil,
      fun ⟨_, hmem, _⟩ ↦ absurd hmem List.not_mem_nil, hprogressing⟩
  cases hrefusal : installed.refusal? setup with
  | some outcome =>
    rw [startPage_of_refusal? hrefusal, pageFinished, completes_finished_iff] at hpage
    obtain ⟨-, rfl, houtcome⟩ := hpage
    refine ⟨hidle after ?_ hbase, ?_, hinstalled.exporting_eq⟩
    · rw [hinstalled.cursor_eq]
      exact Nat.zero_le _
    · rintro rfl
      injection houtcome with houtcome
      injection houtcome with _ houtcome
      have hlength := (State.length_le_cursor_of_refusal? (houtcome ▸ hrefusal)).2
      rw [hinstalled.cursor_eq] at hlength
      exact List.length_eq_zero_iff.mp (Nat.le_zero.mp hlength)
  | none =>
    obtain ⟨last, -, hdone⟩ := (completes_startPage_iff hrefusal).mp hpage
    rw [Task.finish, pageFinished, completes_finished_iff] at hdone
    obtain ⟨-, rfl, houtcome⟩ := hdone
    have htaken := hbase.taken (some installed.ids.length) rfl hrefusal
    refine ⟨hidle _ (Nat.min_le_right _ _) (htaken.finish hplaced rfl), ?_,
      hinstalled.exporting_eq⟩
    rintro rfl
    injection houtcome with houtcome
    injection houtcome with _ houtcome
    cases houtcome

end Paging

/-- On a session on which all calls have returned, the documents of the ids before the cursor are
loaded. -/
theorem Paging.arranged {y : System} (h : Paging setup network ids filters unchosen ranking y)
    (hquiescent : y.Quiescent) : y.state.fetching = false ∧
      Arranged unchosen ranking y.state.ranking y.state.loaded
        (passing setup network filters (ids.take y.state.cursor)) := by
  obtain ⟨done, harranged, ⟨hfetching, rfl, -⟩ | ⟨-, -, search, cursor, total, hpage⟩⟩ :=
    h.progressing
  · exact ⟨hfetching, harranged⟩
  · rw [hquiescent.tasks_eq_nil network] at hpage
    cases hpage

end Paging

section Agreement

variable {setup : Setup} {network : String → Option Json}

/-- What is loaded after a search and any calls that are no searches, once all of them have
returned: the documents of the ids before the cursor, in the order of the ids as long as the index
carries the ranking. Once the ids are used up, these are the documents of an export, in the same
order if the index has no part in the ranking and this orders them. -/
theorem pages_agree_with_export
    (hplaced : Document.WellPlaced setup.catalog.manifest network) {before searched : State}
    (hresting : Resting setup network before) {request : Request} (hsearch : request.Searches)
    {reads : List String} {total : Nat} {page : PageOutcome}
    (hfound : Performs setup network before request reads searched (.search (.found total page)))
    {moves : List Move} (hunder : ∀ m ∈ moves, m.Under network)
    (hnone : ∀ request, .start request ∈ moves → ¬ request.Searches)
    (hquiescent : ((System.idle searched).run setup moves).Quiescent) :
    let y := (System.idle searched).run setup moves
    let unchosen := ∀ field, .start (.rank field) ∉ moves
    (unchosen → searched.ranking.indexKey?.isSome →
        y.state.loaded =
          ((Document.load setup.catalog.manifest (y.state.ids.take y.state.cursor)).run
            network).filter (PostFilter.allAccept y.state.filters)) ∧
      ((page = .exhausted ∨
          ∃ call ∈ y.calls, call.progress = .finished (.page .exhausted)) →
        ∃ exportReads after exported,
          Performs setup network y.state .exportAll exportReads after (.exported exported) ∧
            (exported = none ↔ y.state.ids = []) ∧
            y.state.loaded.Perm (exported.getD []) ∧
            (unchosen → searched.ranking.indexKey? = none →
              Document.TotalPreorder searched.ranking (exported.getD []) →
              y.state.loaded = exported.getD [])) := by
  intro y unchosen
  obtain ⟨hidle, hatOnce, hexporting⟩ := Paging.of_found hplaced unchosen hsearch hfound
  have hallowed : ∀ m ∈ moves, Paging.Allowed network unchosen m := by
    intro m hm
    refine ⟨hunder m hm, ?_⟩
    rintro request rfl
    refine ⟨hnone request hm, ?_⟩
    rintro hunchosen field rfl
    exact hunchosen field hm
  have hpaging : Paging setup network searched.ids searched.filters unchosen searched.ranking y :=
    System.run_induction (motive := Paging setup network searched.ids searched.filters unchosen
      searched.ranking) (fun _ _ hm h ↦ h.move hplaced hm) hidle hallowed
  have hflag : y.state.exporting = false :=
    ((exportsWhileSet_idle (hexporting.trans hresting.exporting_eq_false)).run
      hunder).exporting_eq_false hquiescent
  obtain ⟨-, harranged⟩ := hpaging.arranged hquiescent
  refine ⟨fun hunchosen hindexed ↦ ?_, fun hexhausted ↦ ?_⟩
  · rw [hpaging.ids_eq, hpaging.filters_eq]
    exact harranged.of_indexed hunchosen hindexed
  · have hcursor : searched.ids.length ≤ y.state.cursor := by
      rcases hexhausted with hpage | hcall
      · rw [hatOnce hpage]
        exact Nat.zero_le _
      · exact hpaging.exhausted hcall
    rw [List.take_of_length_le hcursor] at harranged
    by_cases hids : y.state.ids = []
    · refine ⟨_, _, none, performs_exportAll_none (.inr hids), ?_, ?_, ?_⟩
      · exact ⟨fun _ ↦ hids, fun _ ↦ rfl⟩
      · rw [← hpaging.ids_eq, hids] at harranged
        exact harranged.perm
      · rw [← hpaging.ids_eq, hids] at harranged
        intro _ _ _
        exact harranged.perm.eq_nil
    · refine ⟨_, _, some _, performs_exportAll hflag hids, ?_, ?_, ?_⟩
      · exact ⟨fun h ↦ absurd h (Option.some_ne_none _), fun h ↦ absurd h hids⟩
      · rw [hpaging.ids_eq, hpaging.filters_eq, Option.getD_some]
        exact harranged.perm.trans (Document.sortBy_perm _ _).symm
      · rw [hpaging.ids_eq, hpaging.filters_eq, Option.getD_some]
        intro hunchosen hunindexed horder
        rw [harranged.ranking_eq hunchosen]
        refine harranged.of_unindexed hunchosen hunindexed (horder.of_subset fun d hd ↦ ?_)
        exact (Document.sortBy_perm _ _).mem_iff.mpr hd

end Agreement

theorem wellPlaced_smallNetwork :
    Document.WellPlaced smallSetup.catalog.manifest smallNetwork := by
  intro id d hd
  unfold smallNetwork at hd
  split at hd
  · next hurl =>
    have hd : d ∈ [(⟨1, .null⟩ : Document), ⟨2, .null⟩] := hd
    rw [hurl]
    simp only [List.mem_cons, List.not_mem_nil, or_false] at hd
    rcases hd with rfl | rfl <;> decide +kernel
  · split at hd <;> exact absurd hd List.not_mem_nil

/-- The session after it has been opened and its listing browsed. -/
def smallSearched : State :=
  ((System.opened smallSetup).run smallSetup [.start (.search "" true), .reply 0 smallNetwork,
    .reply 0 smallNetwork]).state

/-- A page and an export overlap, and one more page finds nothing left. -/
def smallMoves : List Move :=
  [.start .nextPage, .start .exportAll, .reply 0 smallNetwork, .reply 1 smallNetwork,
    .start .nextPage]

theorem small_pages_agree_with_export :
    ∃ exportReads after exported,
      Performs smallSetup smallNetwork ((System.idle smallSearched).run smallSetup smallMoves).state
          .exportAll exportReads after (.exported exported) ∧
        ((System.idle smallSearched).run smallSetup smallMoves).state.loaded.Perm
          (exported.getD []) := by
  have hfound : Performs smallSetup smallNetwork (.initial smallSetup.config.search)
      (.search "" true) ["./all_servers_sorted_by_members.json", "r/data/d_0.json"] smallSearched
      (.search (.found 2 (.loaded 1 1 2))) :=
    .waiting (.waiting (.finished _ _))
  have hunder : ∀ m ∈ smallMoves, m.Under smallNetwork := by
    simp [smallMoves, Move.Under]
  have hnone : ∀ request, .start request ∈ smallMoves → ¬ request.Searches := by
    rintro request hrequest
    simp only [smallMoves, List.mem_cons, List.not_mem_nil, Move.start.injEq, reduceCtorEq,
      or_false, false_or] at hrequest
    rcases hrequest with rfl | rfl | rfl <;> exact id
  have hsearch : (Request.search "" true).Searches := trivial
  obtain ⟨-, hexhausted⟩ := pages_agree_with_export wellPlaced_smallNetwork resting_initial hsearch
    hfound hunder hnone (by decide +kernel)
  obtain ⟨exportReads, after, exported, hexport, -, hperm, -⟩ :=
    hexhausted (.inr ⟨_, List.mem_of_getElem? (i := 2) rfl, rfl⟩)
  exact ⟨exportReads, after, exported, hexport, hperm⟩

end Session

end ShardSearch
