import ShardSearch.Proofs.SearchStart

/-!
Searches that overlap. A search resets the session at its start and installs what it finds at its
end, and other searches may do either in between, so what a session shows may come from different
searches. `overtakingMoves` is such a case: a browsed listing is on show when the ids and filters of
an earlier, slower search arrive.

Two things can be said of all interleavings of searches. Every document that is loaded has an id
that one of the searches has found, and the cursor is within the ids of one of them (`Traced`). And
the session is consistent once all searches have returned, if those that are under way when the last
one starts agree with it: what any of them is still going to install is the same, and a page of
documents that one of them is loading belongs to it (`Settling`).
-/

set_option autoImplicit false

namespace ShardSearch.Session

/-- The cursor is within the ids, and the loaded documents have ids among them and pass the
filters. -/
def State.Consistent (s : State) : Prop :=
  s.cursor ≤ s.ids.length ∧
    ∀ d ∈ s.loaded, d.id ∈ s.ids ∧ PostFilter.allAccept s.filters d = true

section Tasks

/-- The ids that a search is going to install. -/
def Task.ids : Task → List Nat
  | browse ids => ids
  | find _ ids => ids
  | _ => []

/-- A search is going to install something. -/
def Task.Finds : Task → Prop
  | browse _ => True
  | find _ ids => ids ≠ []
  | _ => False

/-- A task has its part in ids and filters: these are what a search is going to install, if it
installs anything, and the documents of a page have such ids and pass the filters. -/
def Task.Agrees (filters : List PostFilter) (ids : List Nat) : Task → Prop
  | browse found => found = ids ∧ filters = []
  | find active found => found ≠ [] → found = ids ∧ active = filters
  | page _ _ _ documents =>
    ∀ d ∈ documents, d.id ∈ ids ∧ PostFilter.allAccept filters d = true
  | exportAll _ _ _ => True

variable (setup : Setup) (network : String → Option Json)

/-- What a search for a query is going to do. -/
def searchTask (ranking : Ranking) (query : String) : Task :=
  (searchCall setup ranking query).task network

/-- The ids that a search finds, none if it is ignored. -/
def Invocation.foundIds (call : Invocation) : List Nat :=
  if call.request.Ignored then []
  else (searchTask setup network call.before.ranking (call.request.query call.before)).ids

/-- The ids that the searches on a session find, each as a list of its own. -/
def System.found (y : System) : List (List Nat) := y.calls.map (·.foundIds setup network)

variable {setup network}

theorem System.found_start (y : System) (request : Request) :
    (y.move setup (.start request)).found setup network = y.found setup network ++
      [Invocation.foundIds setup network ⟨request, y.state, (start setup y.state request).2⟩] := by
  rw [found, move_start, List.map_append, found]
  rfl

/-- What a search finds does not depend on its progress. -/
theorem System.found_reply (y : System) (i : Nat) (answers : String → Option Json) :
    (y.move setup (.reply i answers)).found setup network = y.found setup network := by
  rcases move_reply setup answers y i with hsame | ⟨call, task, progress, hcall, -, hcalls, -⟩
  · rw [hsame]
  · have hfound : (y.found setup network)[i]? = some (call.foundIds setup network) := by
      rw [found, List.getElem?_map, hcall, Option.map_some]
    obtain ⟨hi, hget⟩ := List.getElem?_eq_some_iff.mp hfound
    rw [found, hcalls, List.map_set]
    change (y.found setup network).set i (call.foundIds setup network) = _
    rw [← hget, List.set_getElem_self]

/-- A page is refused and leaves the state, or it is taken for some of the ids. -/
theorem startPage_cases (s : State) (search : Option Nat) :
    ((startPage setup s search).1 = s ∧ (startPage setup s search).2.task? network = none) ∨
      ((startPage setup s search).1 = s.taken setup ∧ s.cursor < s.ids.length ∧
        ∃ cursor total documents, (startPage setup s search).2.task? network =
            some (.page search cursor total documents) ∧ ∀ d ∈ documents, d.id ∈ s.ids) := by
  cases hrefusal : s.refusal? setup with
  | some outcome =>
    rw [startPage_of_refusal? hrefusal]
    exact .inl ⟨rfl, rfl⟩
  | none =>
    obtain ⟨hstate, htask⟩ := startPage_of_refusal?_eq_none network hrefusal search
    refine .inr ⟨hstate, (State.refusal?_eq_none.mp hrefusal).2.1, _, _, _, htask, ?_⟩
    intro d hd
    exact List.mem_of_mem_take (List.mem_of_mem_drop (Document.id_mem_of_mem_run_load hd))

end Tasks

/-! ### Where documents come from -/

section Tracing

/-- The searches that are under way and the pages of documents have their ids from some lists. -/
def Task.Within (lists : List (List Nat)) : Task → Prop
  | browse ids => ids ∈ lists
  | find _ ids => ids ∈ lists
  | page _ _ _ documents => ∀ d ∈ documents, ∃ list ∈ lists, d.id ∈ list
  | exportAll _ _ _ => True

/-- What a session shows comes from some lists of ids. -/
structure State.Traced (lists : List (List Nat)) (s : State) : Prop where
  ids : s.ids = [] ∨ s.ids ∈ lists
  cursor : s.cursor = 0 ∨ ∃ list ∈ lists, s.cursor ≤ list.length
  loaded : ∀ d ∈ s.loaded, ∃ list ∈ lists, d.id ∈ list

variable {setup : Setup} {network : String → Option Json} {lists : List (List Nat)} {s : State}

theorem Task.Within.mono {more : List (List Nat)} (hsub : ∀ list ∈ lists, list ∈ more)
    {task : Task} (h : task.Within lists) : task.Within more := by
  cases task with
  | browse ids => exact hsub ids h
  | find filters ids => exact hsub ids h
  | page search cursor total documents =>
    intro d hd
    obtain ⟨list, hlist, hid⟩ := h d hd
    exact ⟨list, hsub list hlist, hid⟩
  | exportAll filters ranking documents => trivial

theorem State.Traced.mono {more : List (List Nat)} (hsub : ∀ list ∈ lists, list ∈ more)
    (h : s.Traced lists) : s.Traced more where
  ids := h.ids.imp_right (hsub s.ids)
  cursor := h.cursor.imp_right fun ⟨list, hlist, hle⟩ ↦ ⟨list, hsub list hlist, hle⟩
  loaded d hd := by
    obtain ⟨list, hlist, hid⟩ := h.loaded d hd
    exact ⟨list, hsub list hlist, hid⟩

theorem State.traced_reset (lists : List (List Nat)) (s : State) (query : String) :
    (s.reset query).Traced lists :=
  ⟨.inl rfl, .inl rfl, fun _ hd ↦ absurd hd List.not_mem_nil⟩

theorem State.Traced.startPage (h : s.Traced lists) (hids : s.ids ∈ lists)
    (search : Option Nat) : (startPage setup s search).1.Traced lists ∧
      ∀ task ∈ (startPage setup s search).2.task? network, task.Within lists := by
  rcases startPage_cases s search with
    ⟨hstate, htask⟩ | ⟨hstate, -, cursor, total, documents, htask, hdocuments⟩
  · rw [hstate, htask]
    refine ⟨h, ?_⟩
    rintro task ⟨⟩
  · rw [hstate, htask]
    constructor
    · exact ⟨.inr hids, .inr ⟨s.ids, hids, Nat.min_le_right _ _⟩, h.loaded⟩
    · rintro task ⟨⟩
      exact fun d hd ↦ ⟨s.ids, hids, hdocuments d hd⟩

variable (setup network) in
theorem State.Traced.finish (h : s.Traced lists) {task : Task} (htask : task.Within lists) :
    (task.finish setup s).1.Traced lists ∧
      ∀ new ∈ (task.finish setup s).2.task? network, new.Within lists := by
  have hinstalled : ∀ filters, ∀ ids ∈ lists,
      State.Traced lists { s with filters := filters, ids := ids } :=
    fun _ _ hids ↦ ⟨.inr hids, h.cursor, h.loaded⟩
  cases task with
  | browse ids => exact (hinstalled s.filters ids htask).startPage htask _
  | find filters ids =>
    rw [Task.finish]
    split
    · refine ⟨h, ?_⟩
      rintro new ⟨⟩
    · exact (hinstalled filters ids htask).startPage htask _
  | page search cursor total documents =>
    refine ⟨⟨h.ids, h.cursor, fun d hd ↦ ?_⟩, ?_⟩
    · rcases List.mem_append.mp ((s.loaded_append_perm _).mem_iff.mp hd) with hold | hnew
      · exact h.loaded d hold
      · exact htask d (List.mem_of_mem_filter hnew)
    · rw [Task.finish, Progress.task?_pageFinished]
      rintro new ⟨⟩
  | exportAll filters ranking documents =>
    refine ⟨⟨h.ids, h.cursor, h.loaded⟩, ?_⟩
    rintro new ⟨⟩

end Tracing

/-! ### Searches that agree -/

section Settling

/-- A task has its part in ids and filters while some filters are in force, which the documents of a
page pass before they join the loaded ones. -/
def Task.Settles (active filters : List PostFilter) (ids : List Nat) : Task → Prop
  | browse found => found = ids ∧ filters = []
  | find own found => found ≠ [] → found = ids ∧ own = filters
  | page _ _ _ documents => ∀ d ∈ documents, d.id ∈ ids ∧
      (PostFilter.allAccept active d = true → PostFilter.allAccept filters d = true)
  | exportAll _ _ _ => True

/-- Ids and filters are installed, or nothing is. -/
structure State.Settles (filters : List PostFilter) (ids : List Nat) (s : State) : Prop where
  loaded : ∀ d ∈ s.loaded, d.id ∈ ids ∧ PostFilter.allAccept filters d = true
  installed : (s.ids = ids ∧ s.filters = filters ∧ s.cursor ≤ ids.length) ∨
    (s.ids = [] ∧ s.filters = [] ∧ s.cursor = 0)

/-- A session on its way to ids and filters: they are installed, or a task is going to do so. -/
structure Settling (filters : List PostFilter) (ids : List Nat) (s : State) (tasks : List Task) :
    Prop where
  state : s.Settles filters ids
  settles : ∀ task ∈ tasks, task.Settles s.filters filters ids
  pending : s.ids = ids ∨ ∃ task ∈ tasks, task.Finds

variable {setup : Setup} {network : String → Option Json} {filters : List PostFilter}
  {ids : List Nat} {s : State}

/-- Before anything is installed, all documents pass. -/
theorem Task.Agrees.settles {task : Task} (h : task.Agrees filters ids) :
    task.Settles [] filters ids := by
  cases task with
  | browse found => exact h
  | find own found => exact h
  | page search cursor total documents => exact fun d hd ↦ ⟨(h d hd).1, fun _ ↦ (h d hd).2⟩
  | exportAll own ranking documents => trivial

theorem Task.Settles.of_installed {active : List PostFilter} {task : Task}
    (h : task.Settles active filters ids) : task.Settles filters filters ids := by
  cases task with
  | browse found => exact h
  | find own found => exact h
  | page search cursor total documents => exact fun d hd ↦ ⟨(h d hd).1, id⟩
  | exportAll own ranking documents => trivial

theorem State.Settles.install (h : s.Settles filters ids) :
    State.Settles filters ids { s with filters := filters, ids := ids } where
  loaded := h.loaded
  installed := by
    refine .inl ⟨rfl, rfl, ?_⟩
    rcases h.installed with ⟨-, -, hcursor⟩ | ⟨-, -, hcursor⟩
    · exact hcursor
    · exact Nat.le_trans (Nat.le_of_eq hcursor) (Nat.zero_le _)

/-- A page that is started after the ids are installed. -/
theorem State.Settles.startPage (h : s.Settles filters ids) (hids : s.ids = ids)
    (hfilters : s.filters = filters) (search : Option Nat) :
    (startPage setup s search).1.Settles filters ids ∧
      (startPage setup s search).1.ids = ids ∧
      (startPage setup s search).1.filters = filters ∧
      ∀ task ∈ (startPage setup s search).2.task? network, task.Settles filters filters ids := by
  rcases startPage_cases s search with
    ⟨hstate, htask⟩ | ⟨hstate, -, cursor, total, documents, htask, hdocuments⟩
  · rw [hstate, htask]
    refine ⟨h, hids, hfilters, ?_⟩
    rintro task ⟨⟩
  · rw [hstate, htask]
    refine ⟨⟨h.loaded, .inl ⟨hids, hfilters, ?_⟩⟩, hids, hfilters, ?_⟩
    · rw [← hids]
      exact Nat.min_le_right _ _
    · rintro task ⟨⟩
      exact fun d hd ↦ ⟨hids ▸ hdocuments d hd, id⟩

variable (setup network) in
/-- A task is done: it installs ids and filters, or it leaves those in force and nothing to do. -/
theorem State.Settles.finish (h : s.Settles filters ids) {task : Task}
    (htask : task.Settles s.filters filters ids) :
    (task.finish setup s).1.Settles filters ids ∧
      (((task.finish setup s).1.ids = ids ∧ (task.finish setup s).1.filters = filters ∧
          ∀ new ∈ (task.finish setup s).2.task? network, new.Settles filters filters ids) ∨
        ((task.finish setup s).1.ids = s.ids ∧ (task.finish setup s).1.filters = s.filters ∧
          (task.finish setup s).2.task? network = none ∧ ¬ task.Finds)) := by
  cases task with
  | browse found =>
    obtain ⟨rfl, hnone⟩ := htask
    obtain rfl : s.filters = filters := by
      rcases h.installed with ⟨-, hfilters, -⟩ | ⟨-, hfilters, -⟩
      · exact hfilters
      · rw [hfilters, hnone]
    obtain ⟨hstate, hinstalled⟩ := h.install.startPage rfl rfl (some found.length)
    exact ⟨hstate, .inl hinstalled⟩
  | find own found =>
    rw [Task.finish]
    split
    · next hempty =>
      have hnone : ¬ (Task.find own found).Finds := fun hfinds ↦ hfinds (List.isEmpty_iff.mp hempty)
      exact ⟨h, .inr ⟨rfl, rfl, rfl, hnone⟩⟩
    · next hsome =>
      obtain ⟨rfl, rfl⟩ := htask fun hempty ↦ hsome (List.isEmpty_iff.mpr hempty)
      obtain ⟨hstate, hinstalled⟩ := h.install.startPage rfl rfl (some found.length)
      exact ⟨hstate, .inl hinstalled⟩
  | page search cursor total documents =>
    refine ⟨⟨fun d hd ↦ ?_, h.installed⟩, .inr ⟨rfl, rfl, ?_, id⟩⟩
    · rcases List.mem_append.mp ((s.loaded_append_perm _).mem_iff.mp hd) with hold | hnew
      · exact h.loaded d hold
      · obtain ⟨hmem, haccepts⟩ := List.mem_filter.mp hnew
        exact ⟨(htask d hmem).1, (htask d hmem).2 haccepts⟩
    · rw [Task.finish, Progress.task?_pageFinished]
  | exportAll own ranking documents =>
    exact ⟨⟨h.loaded, h.installed⟩, .inr ⟨rfl, rfl, rfl, id⟩⟩

theorem Settling.finish {first last : List Task} {task : Task}
    (h : Settling filters ids s (first ++ task :: last)) :
    Settling filters ids (task.finish setup s).1
      (first ++ ((task.finish setup s).2.task? network).toList ++ last) := by
  have htask := h.settles task (List.mem_append_right first List.mem_cons_self)
  have hrest : ∀ other ∈ first ++ last, other.Settles s.filters filters ids := by
    intro other hother
    refine h.settles other ?_
    rw [List.mem_append] at hother ⊢
    exact hother.imp_right (List.mem_cons_of_mem task)
  obtain ⟨hstate, ⟨hids, hfilters, hnew⟩ | ⟨hids, hfilters, hnone, hidle⟩⟩ :=
    h.state.finish setup network htask
  · refine ⟨hstate, fun other hother ↦ ?_, .inl hids⟩
    rw [List.append_assoc, List.mem_append, List.mem_append, Option.mem_toList] at hother
    rw [hfilters]
    rcases hother with hfirst | hadded | hlast
    · exact (hrest other (List.mem_append_left last hfirst)).of_installed
    · exact hnew other hadded
    · exact (hrest other (List.mem_append_right first hlast)).of_installed
  · rw [hnone, Option.toList_none, List.append_nil]
    refine ⟨hstate, ?_, ?_⟩
    · rw [hfilters]
      exact hrest
    · rw [hids]
      refine h.pending.imp_right ?_
      rintro ⟨other, hother, hfinds⟩
      rw [List.mem_append, List.mem_cons] at hother
      refine ⟨other, List.mem_append.mpr ?_, hfinds⟩
      rcases hother with hfirst | rfl | hlast
      · exact .inl hfirst
      · exact absurd hfinds hidle
      · exact .inr hlast

end Settling

/-! ### Runs of searches -/

section Runs

variable (setup : Setup) (network : String → Option Json)

/-- What a session shows, and what is under way on it, comes from what its searches find. -/
structure Tracing (y : System) : Prop where
  query : Text.trim y.state.query = y.state.query
  state : y.state.Traced (y.found setup network)
  tasks : ∀ task ∈ y.tasks network, task.Within (y.found setup network)

variable {setup network} {y : System} {filters : List PostFilter} {ids : List Nat}

theorem within_searchTask {lists : List (List Nat)} {ranking : Ranking} {query : String}
    (h : (searchTask setup network ranking query).ids ∈ lists) :
    (searchTask setup network ranking query).Within lists := by
  unfold searchTask searchCall at h ⊢
  split
  · next hempty =>
    rw [if_pos hempty] at h
    exact h
  · next hquery =>
    rw [if_neg hquery] at h
    exact h

theorem Tracing.start (h : Tracing setup network y) {request : Request}
    (hsearch : request.Searches) : Tracing setup network (y.move setup (.start request)) := by
  have hquery := trim_query_move setup h.query (.start request)
  have hmono : ∀ list ∈ y.found setup network,
      list ∈ (y.move setup (.start request)).found setup network := by
    intro list hlist
    rw [System.found_start]
    exact List.mem_append_left _ hlist
  by_cases hignored : request.Ignored
  · have hstart : Session.start setup y.state request = _ := start_of_ignored setup hignored
    refine ⟨hquery, ?_, ?_⟩
    · have hstate : (y.move setup (.start request)).state = y.state := by
        rw [System.move_start, hstart]
      rw [hstate]
      exact h.state.mono hmono
    · intro task htask
      rw [System.tasks_start, hstart, Progress.task?_finished, Option.toList_none,
        List.append_nil] at htask
      exact (h.tasks task htask).mono hmono
  · have hstart := start_of_searches setup hsearch hignored h.query
    have hfound : (searchTask setup network y.state.ranking (request.query y.state)).Within
        ((y.move setup (.start request)).found setup network) := by
      refine within_searchTask ?_
      rw [System.found_start, Invocation.foundIds, if_neg hignored]
      exact List.mem_append_right _ List.mem_cons_self
    have hreset := State.traced_reset ((y.move setup (.start request)).found setup network)
      y.state (request.query y.state)
    have hnew : (Session.start setup y.state request).1.Traced
          ((y.move setup (.start request)).found setup network) ∧
        ∀ task ∈ (Session.start setup y.state request).2.task? network,
          task.Within ((y.move setup (.start request)).found setup network) := by
      rw [hstart]
      rcases resume_cases setup network (y.state.reset (request.query y.state))
        (searchCall setup y.state.ranking (request.query y.state)) with ⟨hstate, htask⟩ | hfinish
      · rw [hstate, htask]
        refine ⟨hreset, ?_⟩
        rintro task ⟨⟩
        exact hfound
      · rw [hfinish]
        exact hreset.finish setup network hfound
    refine ⟨hquery, hnew.1, fun task htask ↦ ?_⟩
    rw [System.tasks_start, List.mem_append, Option.mem_toList] at htask
    rcases htask with hold | hadded
    · exact (h.tasks task hold).mono hmono
    · exact hnew.2 task hadded

theorem Tracing.reply (h : Tracing setup network y) (i : Nat) :
    Tracing setup network (y.move setup (.reply i network)) := by
  have hquery := trim_query_move setup h.query (.reply i network)
  rcases System.tasks_reply setup network y i with
    ⟨hstate, htasks, -⟩ | ⟨first, task, last, hbefore, hstate, hafter, -⟩
  · refine ⟨hquery, ?_, ?_⟩ <;> rw [System.found_reply]
    · rw [hstate]
      exact h.state
    · rw [htasks]
      exact h.tasks
  · have htask := h.tasks task (hbefore ▸ List.mem_append_right first List.mem_cons_self)
    obtain ⟨hstates, hnew⟩ := h.state.finish setup network htask
    refine ⟨hquery, ?_, ?_⟩ <;> rw [System.found_reply]
    · rw [hstate]
      exact hstates
    · intro other hother
      rw [hafter, List.append_assoc, List.mem_append, List.mem_append, Option.mem_toList] at hother
      rcases hother with hfirst | hadded | hlast
      · exact h.tasks other (hbefore ▸ List.mem_append_left _ hfirst)
      · exact hnew other hadded
      · exact h.tasks other
          (hbefore ▸ List.mem_append_right first (List.mem_cons_of_mem task hlast))

theorem Tracing.run {moves : List Move} (hunder : ∀ m ∈ moves, m.Under network)
    (hsearch : ∀ request, .start request ∈ moves → request.Searches)
    (h : Tracing setup network y) : Tracing setup network (y.run setup moves) := by
  have hallowed : ∀ m ∈ moves, m.Under network ∧
      ∀ request, m = .start request → request.Searches := by
    intro m hm
    refine ⟨hunder m hm, ?_⟩
    rintro request rfl
    exact hsearch request hm
  refine System.run_induction (motive := Tracing setup network) ?_ h hallowed
  rintro y m ⟨hm, hsearch⟩ h
  cases m with
  | start request => exact h.start (hsearch request rfl)
  | reply i other =>
    obtain rfl : other = network := hm
    exact h.reply i

/-- Tasks that agree: all have their part in some ids and filters, which one of them is going to
install unless there are no ids. -/
def Agreeing (tasks : List Task) : Prop :=
  ∃ filters ids, (∀ task ∈ tasks, task.Agrees filters ids) ∧
    (ids = [] ∨ ∃ task ∈ tasks, task.Finds)

/-- A search starts in agreement with what is under way. -/
theorem Settling.start {request : Request} (hsearch : request.Searches)
    (hignored : ¬ request.Ignored) (hquery : Text.trim y.state.query = y.state.query)
    (h : Agreeing (y.tasks network ++
      [searchTask setup network y.state.ranking (request.query y.state)])) :
    ∃ filters ids, Settling filters ids (y.move setup (.start request)).state
      ((y.move setup (.start request)).tasks network) := by
  obtain ⟨filters, ids, hagrees, hpending⟩ := h
  have hreset : Settling filters ids (y.state.reset (request.query y.state)) (y.tasks network ++
      [searchTask setup network y.state.ranking (request.query y.state)]) := by
    refine ⟨⟨fun d hd ↦ absurd hd List.not_mem_nil, .inr ⟨rfl, rfl, rfl⟩⟩, ?_, ?_⟩
    · exact fun task htask ↦ (hagrees task htask).settles
    · exact hpending.imp_left Eq.symm
  refine ⟨filters, ids, ?_⟩
  have hstart := start_of_searches setup hsearch hignored hquery
  rw [System.tasks_start, System.move_start, hstart]
  rcases resume_cases setup network (y.state.reset (request.query y.state))
    (searchCall setup y.state.ranking (request.query y.state)) with ⟨hstate, htask⟩ | hfinish
  · rw [hstate, htask]
    exact hreset
  · rw [hfinish, ← List.append_nil (y.tasks network ++ _)]
    exact hreset.finish

theorem Settling.run {moves : List Move} (hunder : ∀ m ∈ moves, m.Under network)
    (hignored : ∀ request, .start request ∈ moves → request.Ignored)
    (h : Settling filters ids y.state (y.tasks network)) :
    Settling filters ids (y.run setup moves).state ((y.run setup moves).tasks network) := by
  have hallowed : ∀ m ∈ moves, m.Under network ∧
      ∀ request, m = .start request → request.Ignored := by
    intro m hm
    refine ⟨hunder m hm, ?_⟩
    rintro request rfl
    exact hignored request hm
  refine System.run_induction
    (motive := fun y ↦ Settling filters ids y.state (y.tasks network)) ?_ h hallowed
  rintro y m ⟨hm, hignored⟩ h
  cases m with
  | start request =>
    rw [System.tasks_start, System.move_start, start_of_ignored setup (hignored request rfl),
      Progress.task?_finished, Option.toList_none, List.append_nil]
    exact h
  | reply i other =>
    obtain rfl : other = network := hm
    rcases System.tasks_reply setup other y i with
      ⟨hstate, htasks, -⟩ | ⟨first, task, last, hbefore, hstate, hafter, -⟩
    · rw [hstate, htasks]
      exact h
    · rw [hbefore] at h
      rw [hstate, hafter]
      exact h.finish

theorem Settling.consistent {s : State} (h : Settling filters ids s []) : s.Consistent := by
  have hids : s.ids = ids := by
    rcases h.pending with hids | ⟨task, htask, -⟩
    · exact hids
    · cases htask
  rcases h.state.installed with ⟨-, hfilters, hcursor⟩ | ⟨hnone, -, hcursor⟩
  · rw [State.Consistent, hids, hfilters]
    exact ⟨hcursor, h.state.loaded⟩
  · refine ⟨Nat.le_trans (Nat.le_of_eq hcursor) (Nat.zero_le _), fun d hd ↦ ?_⟩
    have hmem := (h.state.loaded d hd).1
    rw [← hids, hnone] at hmem
    cases hmem

/-- Of the moves with a property there is a last one. -/
private theorem exists_last (P : Move → Prop) (moves : List Move) :
    (∀ m ∈ moves, ¬ P m) ∨
      ∃ earlier m later, moves = earlier ++ m :: later ∧ P m ∧ ∀ other ∈ later, ¬ P other := by
  induction moves with
  | nil => exact .inl fun m hm ↦ absurd hm List.not_mem_nil
  | cons m rest ih =>
    rcases ih with hnone | ⟨earlier, last, later, rfl, hlast, hlater⟩
    · by_cases hm : P m
      · exact .inr ⟨[], m, rest, rfl, hm, hnone⟩
      · exact .inl (List.forall_mem_cons.mpr ⟨hm, hnone⟩)
    · exact .inr ⟨m :: earlier, last, later, rfl, hlast, hlater⟩

/-- Searches in any interleaving. At every moment what is loaded has been found by one of them, and
the cursor is within the ids of one of them. Once all have returned, the session is consistent if
the last one that is not ignored starts in agreement with what is then under way. -/
theorem consistent_of_agreeing (setup : Setup) (network : String → Option Json)
    (moves : List Move) (hunder : ∀ m ∈ moves, m.Under network)
    (hsearch : ∀ request, .start request ∈ moves → request.Searches) :
    let z := (System.opened setup).run setup moves
    (∀ d ∈ z.state.loaded, ∃ ids ∈ z.found setup network, d.id ∈ ids) ∧
      (z.state.cursor = 0 ∨ ∃ ids ∈ z.found setup network, z.state.cursor ≤ ids.length) ∧
      (z.Quiescent →
        (∀ earlier request later, moves = earlier ++ .start request :: later →
          ¬ request.Ignored → (∀ other, .start other ∈ later → other.Ignored) →
          let y := (System.opened setup).run setup earlier
          Agreeing (y.tasks network ++
            [searchTask setup network y.state.ranking (request.query y.state)])) →
        z.state.Consistent) := by
  intro z
  have htrim : Text.trim "" = "" := by decide
  have hopened : Tracing setup network (.opened setup) :=
    ⟨htrim, ⟨.inl rfl, .inl rfl, fun d hd ↦ absurd hd List.not_mem_nil⟩,
      fun task htask ↦ absurd htask List.not_mem_nil⟩
  have htracing : Tracing setup network z := hopened.run hunder hsearch
  refine ⟨htracing.state.loaded, htracing.state.cursor, fun hquiescent hagreeing ↦ ?_⟩
  suffices h : ∃ filters ids, Settling filters ids z.state (z.tasks network) by
    obtain ⟨filters, ids, hsettling⟩ := h
    rw [hquiescent.tasks_eq_nil network] at hsettling
    exact hsettling.consistent
  rcases exists_last (fun m ↦ ∃ request, m = .start request ∧ ¬ request.Ignored) moves with
    hnone | ⟨earlier, m, later, hmoves, ⟨request, rfl, hignored⟩, hlater⟩
  · have hopenedSettling : Settling [] [] (System.opened setup).state
        ((System.opened setup).tasks network) :=
      ⟨⟨fun d hd ↦ absurd hd List.not_mem_nil, .inr ⟨rfl, rfl, rfl⟩⟩,
        fun task htask ↦ absurd htask List.not_mem_nil, .inl rfl⟩
    refine ⟨[], [], hopenedSettling.run hunder fun request hrequest ↦ ?_⟩
    by_contra hignored
    exact hnone _ hrequest ⟨request, rfl, hignored⟩
  · have hlast : ∀ other, .start other ∈ later → other.Ignored := by
      intro other hother
      by_contra hignored
      exact hlater _ hother ⟨other, rfl, hignored⟩
    have hpart : ∀ m, m ∈ earlier ∨ m = .start request ∨ m ∈ later → m ∈ moves := by
      intro m hm
      rw [hmoves, List.mem_append, List.mem_cons]
      exact hm
    have hearlier : Tracing setup network ((System.opened setup).run setup earlier) :=
      hopened.run (fun m hm ↦ hunder m (hpart m (.inl hm)))
        fun other hother ↦ hsearch other (hpart _ (.inl hother))
    obtain ⟨filters, ids, hsettling⟩ := Settling.start (hsearch request (hpart _ (.inr (.inl rfl))))
      hignored hearlier.query (hagreeing earlier request later hmoves hignored hlast)
    refine ⟨filters, ids, ?_⟩
    have hz : z = (((System.opened setup).run setup earlier).move setup (.start request)).run setup
        later := by
      change (System.opened setup).run setup moves = _
      rw [hmoves, System.run_append, System.run_cons]
    rw [hz]
    exact hsettling.run (fun m hm ↦ hunder m (hpart m (.inr (.inr hm)))) hlast

end Runs

/-- The listing is browsed, and before it is there the search is run again. -/
def agreeingMoves : List Move :=
  [.start (.search "" true), .start .rerun, .reply 0 smallNetwork, .reply 1 smallNetwork,
    .reply 0 smallNetwork]

theorem consistent_of_agreeingMoves :
    ((System.opened smallSetup).run smallSetup agreeingMoves).state.Consistent := by
  have hunder : ∀ m ∈ agreeingMoves, m.Under smallNetwork := by
    simp [agreeingMoves, Move.Under]
  have hsearch : ∀ request, .start request ∈ agreeingMoves → request.Searches := by
    intro request hrequest
    simp only [agreeingMoves, List.mem_cons, List.not_mem_nil, Move.start.injEq, reduceCtorEq,
      or_false] at hrequest
    rcases hrequest with rfl | rfl <;> trivial
  have hquiescent : ((System.opened smallSetup).run smallSetup agreeingMoves).Quiescent := by
    decide +kernel
  refine (consistent_of_agreeing smallSetup smallNetwork agreeingMoves hunder hsearch).2.2
    hquiescent ?_
  intro earlier request later hmoves hignored hlater
  rcases earlier with _ | ⟨first, _ | ⟨second, rest⟩⟩
  · obtain ⟨-, rfl⟩ := List.cons.inj hmoves
    exact absurd (hlater .rerun List.mem_cons_self) id
  · obtain ⟨rfl, htail⟩ := List.cons.inj hmoves
    obtain ⟨hrerun, -⟩ := List.cons.inj htail
    obtain rfl := Move.start.inj hrerun
    refine ⟨[], [1, 2], ?_, .inr ⟨.browse [1, 2], List.mem_cons_self, trivial⟩⟩
    change ∀ task ∈ [Task.browse [1, 2], Task.browse [1, 2]], task.Agrees [] [1, 2]
    intro task htask
    simp only [List.mem_cons, List.not_mem_nil, or_false, or_self] at htask
    subst htask
    exact ⟨rfl, rfl⟩
  · obtain ⟨-, htail⟩ := List.cons.inj hmoves
    have hreplies : [.reply 0 smallNetwork, .reply 1 smallNetwork, .reply 0 smallNetwork] =
        rest ++ .start request :: later := (List.cons.inj htail).2
    have hmem : Move.start request ∈ rest ++ .start request :: later :=
      List.mem_append_right rest List.mem_cons_self
    rw [← hreplies] at hmem
    simp at hmem

/-- The small network, with a repository in which one other id is indexed. -/
def indexedNetwork (url : String) : Option Json :=
  if url = "r/index/guild_name/ab.json" then
    some (.object [("ab", .array [.array [.number (.int 5)]])])
  else smallNetwork url

/-- A search waits for the index. In the meantime the listing is browsed, and all of it loaded. -/
def overtakingMoves : List Move :=
  [.start (.search "guild.name:ab has:guild.name" false), .start (.search "" true),
    .reply 1 indexedNetwork, .reply 1 indexedNetwork, .reply 0 indexedNetwork]

/-- Not all interleavings of searches leave a consistent session. -/
theorem not_consistent_of_overtaking :
    ¬ ∀ (setup : Setup) (network : String → Option Json) (moves : List Move),
      (∀ m ∈ moves, m.Under network) →
      (∀ request, .start request ∈ moves → request.Searches) →
      ((System.opened setup).run setup moves).Quiescent →
      ((System.opened setup).run setup moves).state.Consistent := by
  intro hall
  let setup : Setup := { smallSetup with config := {} }
  have hunder : ∀ m ∈ overtakingMoves, m.Under indexedNetwork := by
    simp [overtakingMoves, Move.Under]
  have hsearch : ∀ request, .start request ∈ overtakingMoves → request.Searches := by
    intro request hrequest
    simp only [overtakingMoves, List.mem_cons, List.not_mem_nil, Move.start.injEq, reduceCtorEq,
      or_false] at hrequest
    rcases hrequest with rfl | rfl <;> trivial
  have hquiescent : ((System.opened setup).run setup overtakingMoves).Quiescent := by
    decide +kernel
  obtain ⟨hcursor, -⟩ := hall setup indexedNetwork overtakingMoves hunder hsearch hquiescent
  have hlate : ¬ ((System.opened setup).run setup overtakingMoves).state.cursor ≤
      ((System.opened setup).run setup overtakingMoves).state.ids.length := by
    decide +kernel
  exact hlate hcursor

end ShardSearch.Session
