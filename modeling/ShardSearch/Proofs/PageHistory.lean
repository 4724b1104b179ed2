import ShardSearch.Proofs.Interleaving

/-!
The pages that the calls on a session take, whatever their reads get. Under networks that change, a
call that waits is known by its `Stage` only: the answers decide with which ids or documents it goes
on, but not what it is going on with (`steady_resume`, `steady_start`).

A call reports a page from the step in which it takes one: first as being loaded, then, once its
documents have joined the loaded ones, as loaded. `PageStep` says what a step of one call does to
its page, to the cursor and to the flag of loading: nothing, or it takes a page and goes on with
loading the ids of it, or it ends one (`Task.pageStep_finish`, `System.exists_pageMove`).

`System.pages`, `System.loads` and `System.ended` record a run: the pages in the order in which they
are taken, what their calls are then loading, and the calls in the order in which their pages end.
What is loaded for a page are the ids between its cursors (`System.loads_eq`).
-/

set_option autoImplicit false

namespace ShardSearch.Session

/-! ### Stages -/

/-- What a waiting call is at: looking for ids, loading a page up to a cursor, or exporting. -/
inductive Stage where
  | searching
  | paging (cursor total : Nat)
  | exporting
deriving DecidableEq

def Task.stage : Task → Stage
  | browse _ => .searching
  | find _ _ => .searching
  | page _ cursor total _ => .paging cursor total
  | exportAll _ _ _ => .exporting

def Call.stage : Call → Stage
  | browse _ => .searching
  | find _ _ => .searching
  | page _ cursor total _ => .paging cursor total
  | exportAll _ _ _ => .exporting

theorem Call.stage_task (network : String → Option Json) (call : Call) :
    (call.task network).stage = call.stage := by
  cases call <;> rfl

namespace Progress

/-- The stage of a call that waits. -/
def stage? : Progress → Option Stage
  | waiting _ next => some (next none).stage
  | finished _ => none

/-- Whatever a call gets for an answer, it goes on at the same stage. -/
def Steady : Progress → Prop
  | waiting _ next => ∀ answer, (next answer).stage = (next none).stage
  | finished _ => True

theorem Steady.stage?_eq {p : Progress} (h : p.Steady) {network : String → Option Json}
    {task : Task} (htask : p.task? network = some task) : p.stage? = some task.stage := by
  cases p with
  | waiting url next =>
    obtain rfl : (next (network url)).task network = task := Option.some.inj htask
    rw [stage?, Call.stage_task, h (network url)]
  | finished outcome => cases htask

end Progress

section Steady

variable (setup : Setup)

theorem steady_pageFinished (search : Option Nat) (outcome : PageOutcome) :
    (pageFinished search outcome).Steady := trivial

theorem steady_continuePage (s : State) (search : Option Nat) (cursor total : Nat)
    (documents : Fetch (List Document)) :
    (continuePage s search cursor total documents).2.Steady := by
  cases documents with
  | done documents => exact steady_pageFinished search _
  | read url next => exact fun _ ↦ rfl

theorem steady_startPage (s : State) (search : Option Nat) :
    (startPage setup s search).2.Steady := by
  rw [startPage_eq]
  split
  · exact steady_pageFinished search _
  · exact steady_continuePage _ search _ _ _

theorem steady_resume (s : State) (call : Call) : (resume setup s call).2.Steady := by
  cases call with
  | browse ids =>
    cases ids with
    | done ids => exact steady_startPage setup _ _
    | read url next => exact fun _ ↦ rfl
  | find filters ids =>
    cases ids with
    | done ids =>
      rw [resume, continueFind]
      split
      · trivial
      · exact steady_startPage setup _ _
    | read url next => exact fun _ ↦ rfl
  | page search cursor total documents => exact steady_continuePage s search cursor total documents
  | exportAll filters ranking documents =>
    cases documents with
    | done documents => trivial
    | read url next => exact fun _ ↦ rfl

theorem steady_start (s : State) (request : Request) : (start setup s request).2.Steady := by
  have hsearch : ∀ text first, (startSearch setup s text first).2.Steady := by
    intro text first
    rw [startSearch_eq]
    split
    · trivial
    · exact steady_resume setup _ _
  cases request with
  | search text first => exact hsearch text first
  | rerun => exact hsearch s.query s.query.isEmpty
  | nextPage =>
    simp only [start]
    split
    · trivial
    · exact steady_startPage setup s none
  | exportAll =>
    rw [start, startExport_eq]
    split
    · trivial
    · exact steady_resume setup _ _
  | rank field => trivial

/-- All calls on a session are steady. -/
def System.Steady (y : System) : Prop := ∀ call ∈ y.calls, call.progress.Steady

theorem System.steady_idle (s : State) : (System.idle s).Steady :=
  fun _ hcall ↦ absurd hcall List.not_mem_nil

theorem System.Steady.move {y : System} (h : y.Steady) (m : Move) : (y.move setup m).Steady := by
  intro call hcall
  cases m with
  | start request =>
    rw [move_start, List.mem_append, List.mem_singleton] at hcall
    rcases hcall with hold | rfl
    · exact h call hold
    · exact steady_start setup y.state request
  | reply i network =>
    simp only [System.move] at hcall
    split at hcall
    · rcases List.mem_or_eq_of_mem_set hcall with hold | rfl
      · exact h call hold
      · exact steady_resume setup y.state _
    · exact h call hcall

theorem System.Steady.run {y : System} (h : y.Steady) (moves : List Move) :
    (y.run setup moves).Steady := by
  have hall : ∀ m ∈ moves, (fun _ : Move ↦ True) m := fun _ _ ↦ trivial
  exact System.run_induction (motive := System.Steady) (fun _ m _ h ↦ h.move setup m) h hall

end Steady

/-! ### Reports of pages -/

/-- A page as its call knows it: the cursor after it, the number of all ids, and whether its
documents are still being loaded. -/
structure PageReport where
  cursor : Nat
  total : Nat
  loading : Bool
deriving DecidableEq

def PageOutcome.report? : PageOutcome → Option PageReport
  | loaded _ cursor total => some ⟨cursor, total, false⟩
  | _ => none

def Outcome.report? : Outcome → Option PageReport
  | page outcome => outcome.report?
  | search (.found _ outcome) => outcome.report?
  | _ => none

def Stage.report? : Stage → Option PageReport
  | paging cursor total => some ⟨cursor, total, true⟩
  | _ => none

/-- The page that a call has taken, alone or as the first one of a search. -/
def Progress.report? : Progress → Option PageReport
  | waiting _ next => (next none).stage.report?
  | finished outcome => outcome.report?

@[simp] theorem Progress.report?_pageFinished (search : Option Nat) (outcome : PageOutcome) :
    (pageFinished search outcome).report? = outcome.report? := by
  cases search <;> rfl

theorem Progress.report?_of_stage? {p : Progress} {stage : Stage} (h : p.stage? = some stage) :
    p.report? = stage.report? := by
  cases p with
  | waiting url next => rw [report?, Option.some.inj h]
  | finished outcome => cases h

theorem Progress.Steady.report?_eq {p : Progress} (h : p.Steady) {network : String → Option Json}
    {task : Task} (htask : p.task? network = some task) : p.report? = task.stage.report? :=
  report?_of_stage? (h.stage?_eq htask)

/-- The documents that a call has still to load, for its page or its export. -/
def Call.load : Call → Fetch (List Document)
  | page _ _ _ documents => documents
  | exportAll _ _ documents => documents
  | _ => .done []

def Progress.load : Progress → Fetch (List Document)
  | waiting url next => .read url fun answer ↦ (next answer).load
  | finished _ => .done []

/-- A page that is not taken is reported by nobody. -/
theorem State.report?_of_refusal? {setup : Setup} {s : State} {outcome : PageOutcome}
    (h : s.refusal? setup = some outcome) : outcome.report? = none := by
  unfold refusal? at h
  split at h
  · obtain rfl := Option.some.inj h
    rfl
  · split at h
    · obtain rfl := Option.some.inj h
      rfl
    · split at h
      · obtain rfl := Option.some.inj h
        rfl
      · cases h

/-- What a step of a call on a state does to the page of the call, to the cursor and to the flag of
loading. A search that takes its first page installs ids and filters in the same step, so the state
in which it finds the page is not the one that it is resumed in. -/
inductive PageStep (setup : Setup) (s : State) (before : Option PageReport) (after : State)
    (now : Option PageReport) (load : Fetch (List Document)) : Prop where
  | quiet (fetching_eq : after.fetching = s.fetching) (cursor_eq : after.cursor = s.cursor)
      (report_eq : now = before)
  | taken (found : State) (fetching_eq : found.fetching = s.fetching)
      (cursor_eq : found.cursor = s.cursor) (accepted : found.refusal? setup = none)
      (after_eq : after = found.taken setup) (before_eq : before = none)
      (now_eq : now = some ⟨found.pageEnd setup, found.ids.length, true⟩)
      (load_eq : load = Document.load setup.catalog.manifest (found.pageIds setup))
  | ended (cursor total : Nat) (before_eq : before = some ⟨cursor, total, true⟩)
      (now_eq : now = some ⟨cursor, total, false⟩) (fetching_eq : after.fetching = false)
      (cursor_eq : after.cursor = s.cursor)

section Steps

variable {setup : Setup}

theorem PageStep.congr {s t after : State} {before now : Option PageReport}
    {load : Fetch (List Document)} (h : PageStep setup s before after now load)
    (hfetching : s.fetching = t.fetching) (hcursor : s.cursor = t.cursor) :
    PageStep setup t before after now load := by
  cases h with
  | quiet fetching_eq cursor_eq report_eq =>
    exact .quiet (fetching_eq.trans hfetching) (cursor_eq.trans hcursor) report_eq
  | taken found fetching_eq cursor_eq accepted after_eq before_eq now_eq load_eq =>
    exact .taken found (fetching_eq.trans hfetching) (cursor_eq.trans hcursor) accepted after_eq
      before_eq now_eq load_eq
  | ended cursor total before_eq now_eq fetching_eq cursor_eq =>
    exact .ended cursor total before_eq now_eq fetching_eq (cursor_eq.trans hcursor)

/-- A call that takes a page goes on with loading its ids. -/
theorem load_startPage {s : State} (h : s.refusal? setup = none) (search : Option Nat) :
    (startPage setup s search).2.load =
      Document.load setup.catalog.manifest (s.pageIds setup) := by
  obtain ⟨url, next, hload⟩ :=
    Document.exists_read_of_ne_nil setup.catalog.manifest (State.pageIds_ne_nil h)
  rw [startPage_eq, h, hload]
  rfl

theorem pageStep_startPage (s found : State) (hfetching : found.fetching = s.fetching)
    (hcursor : found.cursor = s.cursor) (search : Option Nat) :
    PageStep setup s none (startPage setup found search).1
      (startPage setup found search).2.report? (startPage setup found search).2.load := by
  cases hrefusal : found.refusal? setup with
  | some outcome =>
    rw [startPage_of_refusal? hrefusal, Progress.report?_pageFinished,
      State.report?_of_refusal? hrefusal]
    exact .quiet hfetching hcursor rfl
  | none =>
    obtain ⟨hstate, htask⟩ := startPage_of_refusal?_eq_none (fun _ ↦ none) hrefusal search
    refine .taken found hfetching hcursor hrefusal hstate rfl ?_ (load_startPage hrefusal search)
    rw [(steady_startPage setup found search).report?_eq htask]
    rfl

/-- A call that is no search neither changes the ids nor becomes a search. -/
structure KeepsIds (s after : State) (p : Progress) : Prop where
  ids_eq : after.ids = s.ids
  not_searching : p.stage? ≠ some .searching

theorem keepsIds_finished {s after : State} (h : after.ids = s.ids) (outcome : Outcome) :
    KeepsIds s after (.finished outcome) where
  ids_eq := h
  not_searching hstage := by cases hstage

theorem keepsIds_startPage (s : State) (search : Option Nat) :
    KeepsIds s (startPage setup s search).1 (startPage setup s search).2 := by
  cases hrefusal : s.refusal? setup with
  | some outcome =>
    rw [startPage_of_refusal? hrefusal]
    exact keepsIds_finished (by rfl) _
  | none =>
    obtain ⟨hstate, htask⟩ := startPage_of_refusal?_eq_none (fun _ ↦ none) hrefusal search
    refine ⟨by rw [hstate]; rfl, ?_⟩
    rw [(steady_startPage setup s search).stage?_eq htask]
    exact fun hstage ↦ Stage.noConfusion (Option.some.inj hstage)

theorem Task.pageStep_finish (s : State) (task : Task) :
    PageStep setup s task.stage.report? (task.finish setup s).1
      (task.finish setup s).2.report? (task.finish setup s).2.load := by
  cases task with
  | browse ids =>
    exact pageStep_startPage s { s with ids := ids } rfl rfl (some ids.length)
  | find filters ids =>
    rw [Task.finish]
    split
    · exact .quiet rfl rfl rfl
    · exact pageStep_startPage s { s with filters := filters, ids := ids } rfl rfl (some ids.length)
  | page search cursor total documents =>
    refine .ended cursor total rfl ?_ rfl rfl
    rw [Task.finish, Progress.report?_pageFinished]
    rfl
  | exportAll filters ranking documents => exact .quiet rfl rfl rfl

theorem Task.keepsIds_finish (s : State) {task : Task} (h : task.stage ≠ .searching) :
    KeepsIds s (task.finish setup s).1 (task.finish setup s).2 := by
  cases task with
  | browse ids => exact absurd rfl h
  | find filters ids => exact absurd rfl h
  | page search cursor total documents => exact keepsIds_finished (by rfl) _
  | exportAll filters ranking documents => exact keepsIds_finished (by rfl) _

variable (setup) in
theorem pageStep_resume (s : State) (call : Call) :
    PageStep setup s call.stage.report? (resume setup s call).1
      (resume setup s call).2.report? (resume setup s call).2.load := by
  rw [← Call.stage_task fun _ ↦ none]
  rcases resume_cases setup (fun _ ↦ none) s call with ⟨hstate, htask⟩ | hfinish
  · refine .quiet (by rw [hstate]) (by rw [hstate]) ?_
    exact (steady_resume setup s call).report?_eq htask
  · rw [hfinish]
    exact (call.task fun _ ↦ none).pageStep_finish s

variable (setup) in
/-- A search that has reset a session begins without a page. -/
theorem pageStep_searchCall (s : State) (ranking : Ranking) (query : String) :
    PageStep setup s none (resume setup s (searchCall setup ranking query)).1
      (resume setup s (searchCall setup ranking query)).2.report?
      (resume setup s (searchCall setup ranking query)).2.load := by
  have hstage : (searchCall setup ranking query).stage.report? = none := by
    unfold searchCall
    split <;> rfl
  rw [← hstage]
  exact pageStep_resume setup s _

variable (setup) in
theorem keepsIds_resume (s : State) (call : Call) (h : call.stage ≠ .searching) :
    KeepsIds s (resume setup s call).1 (resume setup s call).2 := by
  rw [← Call.stage_task fun _ ↦ none] at h
  rcases resume_cases setup (fun _ ↦ none) s call with ⟨hstate, htask⟩ | hfinish
  · refine ⟨by rw [hstate], ?_⟩
    rw [(steady_resume setup s call).stage?_eq htask]
    exact fun hstage ↦ h (Option.some.inj hstage)
  · rw [hfinish]
    exact Task.keepsIds_finish s h

variable (setup) in
/-- The first step of a call that is no search. -/
theorem pageStep_start {request : Request} (hsearch : ¬ request.Searches) (s : State) :
    PageStep setup s none (start setup s request).1 (start setup s request).2.report?
        (start setup s request).2.load ∧
      KeepsIds s (start setup s request).1 (start setup s request).2 := by
  cases request with
  | search text first => exact absurd trivial hsearch
  | rerun => exact absurd trivial hsearch
  | nextPage =>
    simp only [start]
    split
    · exact ⟨.quiet rfl rfl rfl, keepsIds_finished (by rfl) _⟩
    · exact ⟨pageStep_startPage s s rfl rfl none, keepsIds_startPage s none⟩
  | exportAll =>
    rw [start, startExport_eq]
    split
    · exact ⟨.quiet rfl rfl rfl, keepsIds_finished (by rfl) _⟩
    · have hstep := pageStep_resume setup { s with exporting := true } (exportCall setup s)
      obtain ⟨hids, hstage⟩ := keepsIds_resume setup { s with exporting := true }
        (exportCall setup s) Stage.noConfusion
      exact ⟨hstep.congr rfl rfl, hids, hstage⟩
  | rank field =>
    simp only [start, chooseRanking]
    split <;> exact ⟨.quiet rfl rfl rfl, keepsIds_finished (by rfl) _⟩

end Steps

/-! ### Moves -/

/-- The number of the call that a move is a step of. -/
def Move.call (y : System) : Move → Nat
  | start _ => y.calls.length
  | reply i _ => i

namespace System

def stage? (y : System) (i : Nat) : Option Stage := y.calls[i]?.bind (·.progress.stage?)

def report? (y : System) (i : Nat) : Option PageReport := y.calls[i]?.bind (·.progress.report?)

/-- The documents that a call has still to load, if there is such a call. -/
def load (y : System) (i : Nat) : Fetch (List Document) :=
  (y.calls[i]?.map (·.progress.load)).getD (.done [])

/-- A call is loading a page: it has taken its ids, and their documents have not joined the loaded
ones yet. -/
def paging (y : System) (i : Nat) : Bool := (y.report? i).any (·.loading)

section Moves

/-- What a move does to the page of its call, to the cursor and to the flag of loading, as a step on
a state. -/
def PageMove (setup : Setup) (y : System) (m : Move) (s : State) : Prop :=
  PageStep setup s (y.report? (m.call y)) (y.move setup m).state
    ((y.move setup m).report? (m.call y)) ((y.move setup m).load (m.call y))

variable {setup : Setup} {y : System}

theorem calls_move_of_ne {m : Move} {j : Nat} (hj : j ≠ m.call y) :
    (y.move setup m).calls[j]? = y.calls[j]? := by
  cases m with
  | start request =>
    rw [move_start]
    rcases Nat.lt_or_gt_of_ne hj with hlt | hgt
    · exact List.getElem?_append_left hlt
    · change y.calls.length < j at hgt
      rw [List.getElem?_append_right (Nat.le_of_lt hgt), List.getElem?_eq_none (Nat.le_of_lt hgt),
        List.getElem?_eq_none (Nat.sub_pos_of_lt hgt)]
  | reply i network =>
    rcases move_reply_eq setup network y i with hsame | ⟨call, url, next, -, -, hmove⟩
    · rw [hsame]
    · rw [hmove]
      exact List.getElem?_set_ne (Ne.symm hj)

theorem report?_move_of_ne {m : Move} {j : Nat} (hj : j ≠ m.call y) :
    (y.move setup m).report? j = y.report? j := by
  rw [report?, calls_move_of_ne hj, report?]

theorem stage?_move_of_ne {m : Move} {j : Nat} (hj : j ≠ m.call y) :
    (y.move setup m).stage? j = y.stage? j := by
  rw [stage?, calls_move_of_ne hj, stage?]

theorem calls_move_start (request : Request) :
    (y.move setup (.start request)).calls[y.calls.length]? =
      some ⟨request, y.state, (start setup y.state request).2⟩ := by
  rw [move_start, List.getElem?_concat_length]

theorem report?_move_start (request : Request) :
    (y.move setup (.start request)).report? y.calls.length =
      (start setup y.state request).2.report? := by
  rw [report?, calls_move_start, Option.bind_some]

theorem load_move_start (request : Request) :
    (y.move setup (.start request)).load y.calls.length = (start setup y.state request).2.load := by
  rw [load, calls_move_start, Option.map_some, Option.getD_some]

theorem report?_length (y : System) : y.report? y.calls.length = none := by
  rw [report?, List.getElem?_eq_none (Nat.le_refl _), Option.bind_none]

variable (setup) in
/-- A reply is a step of one call, if of any. -/
theorem pageMove_reply (hy : y.Steady) (i : Nat) (network : String → Option Json) :
    y.PageMove setup (.reply i network) y.state ∧
      (y.stage? i ≠ some .searching →
        (y.move setup (.reply i network)).state.ids = y.state.ids ∧
          (y.move setup (.reply i network)).stage? i ≠ some .searching) := by
  rw [PageMove, Move.call]
  rcases move_reply_eq setup network y i with hsame | ⟨call, url, next, hcall, hwaiting, hmove⟩
  · rw [hsame]
    exact ⟨.quiet rfl rfl rfl, fun hstage ↦ ⟨rfl, hstage⟩⟩
  · have hsteady := hy call (List.mem_of_getElem? hcall)
    rw [hwaiting] at hsteady
    have hstage : y.stage? i = some (next (network url)).stage := by
      rw [stage?, hcall, Option.bind_some, hwaiting, Progress.stage?, hsteady (network url)]
    have hreport : y.report? i = (next (network url)).stage.report? := by
      rw [report?, hcall, Option.bind_some, hwaiting, Progress.report?, hsteady (network url)]
    obtain ⟨hi, -⟩ := List.getElem?_eq_some_iff.mp hcall
    have hnew : (y.move setup (.reply i network)).calls[i]? = some { call with
        progress := (resume setup y.state (next (network url))).2 } := by
      rw [hmove]
      exact List.getElem?_set_self hi
    have hnewStage : (y.move setup (.reply i network)).stage? i =
        (resume setup y.state (next (network url))).2.stage? := by
      rw [System.stage?, hnew, Option.bind_some]
    have hnewReport : (y.move setup (.reply i network)).report? i =
        (resume setup y.state (next (network url))).2.report? := by
      rw [System.report?, hnew, Option.bind_some]
    have hnewLoad : (y.move setup (.reply i network)).load i =
        (resume setup y.state (next (network url))).2.load := by
      rw [System.load, hnew, Option.map_some, Option.getD_some]
    have hnewState : (y.move setup (.reply i network)).state =
        (resume setup y.state (next (network url))).1 := by
      rw [hmove]
    rw [hreport, hstage, hnewReport, hnewLoad, hnewStage, hnewState]
    refine ⟨pageStep_resume setup y.state _, fun hother ↦ ?_⟩
    obtain ⟨hids, hlast⟩ := keepsIds_resume setup y.state (next (network url)) fun h ↦
      hother (congrArg some h)
    exact ⟨hids, hlast⟩

/-- The first step of a call that has no page yet. -/
theorem pageMove_start {request : Request} {s : State} : y.PageMove setup (.start request) s ↔
    PageStep setup s none (start setup y.state request).1 (start setup y.state request).2.report?
      (start setup y.state request).2.load := by
  rw [PageMove, Move.call, report?_length, report?_move_start, load_move_start, move_start]

variable (setup) in
/-- A move that is no first step of a search. -/
theorem pageMove_of_not_searches (hy : y.Steady) {m : Move}
    (hsearch : ∀ request, m = .start request → ¬ request.Searches) :
    y.PageMove setup m y.state ∧
      (y.stage? (m.call y) ≠ some .searching → (y.move setup m).state.ids = y.state.ids ∧
        (y.move setup m).stage? (m.call y) ≠ some .searching) := by
  cases m with
  | start request =>
    obtain ⟨hstep, hids, hstage⟩ := pageStep_start setup (hsearch request rfl) y.state
    refine ⟨pageMove_start.mpr hstep, fun _ ↦ ⟨hids, ?_⟩⟩
    rw [Move.call, stage?, calls_move_start]
    exact hstage
  | reply i network => exact pageMove_reply setup hy i network

variable (setup) in
/-- The first step of a search changes nothing, or it is a step on the state that it has reset. -/
theorem pageMove_search {request : Request} (hsearch : request.Searches) (y : System) :
    (start setup y.state request = (y.state, .finished (.search .ignored)) ∧
        y.PageMove setup (.start request) y.state) ∨
      ∃ query, y.PageMove setup (.start request) (y.state.reset query) := by
  rcases start_search_cases setup hsearch y.state with hignored | ⟨query, hresume⟩
  · refine .inl ⟨hignored, pageMove_start.mpr ?_⟩
    rw [hignored]
    exact .quiet rfl rfl rfl
  · refine .inr ⟨query, pageMove_start.mpr ?_⟩
    rw [hresume]
    exact pageStep_searchCall setup _ _ _

end Moves

/-! ### Records of a run -/

section Records

variable (setup : Setup)

/-- What the moves of a run add to a record, one after the other. -/
def record {α : Type} (entry : System → Move → List α) : System → List Move → List α
  | _, [] => []
  | y, m :: rest => entry y m ++ record entry (y.move setup m) rest

theorem record_append {α : Type} (entry : System → Move → List α) (y : System)
    (first second : List Move) : record setup entry y (first ++ second) =
      record setup entry y first ++ record setup entry (y.run setup first) second := by
  induction first generalizing y with
  | nil => rfl
  | cons m rest ih => rw [List.cons_append, record, ih, record, List.append_assoc, run_cons]

end Records

end System

/-- A page that a call has taken: the ids of a list between two cursors. -/
structure Page where
  call : Nat
  first : Nat
  last : Nat
  list : List Nat
deriving DecidableEq

def Page.ids (p : Page) : List Nat := (p.list.take p.last).drop p.first

namespace System

section Pages

variable (setup : Setup)

/-- A move is the one in which its call takes a page. -/
def takes (y : System) (m : Move) : Bool :=
  !y.paging (m.call y) && (y.move setup m).paging (m.call y)

/-- A move is the one in which the documents of the page of its call join the loaded ones. -/
def ends (y : System) (m : Move) : Bool :=
  y.paging (m.call y) && !(y.move setup m).paging (m.call y)

/-- The cursor that a page would be taken from: a search that starts turns it back. -/
def cursorFor (y : System) : Move → Nat
  | .start (.search _ _) => 0
  | .start .rerun => 0
  | _ => y.state.cursor

/-- The page that a move takes. -/
def pageEntry (y : System) (m : Move) : List Page :=
  if y.takes setup m then
    [⟨m.call y, y.cursorFor m, (y.move setup m).state.cursor, (y.move setup m).state.ids⟩]
  else []

/-- The call that takes a page in a move, and what it then is going to load. -/
def loadEntry (y : System) (m : Move) : List (Nat × Fetch (List Document)) :=
  if y.takes setup m then [(m.call y, (y.move setup m).load (m.call y))] else []

/-- The call whose page a move ends. -/
def endEntry (y : System) (m : Move) : List Nat := if y.ends setup m then [m.call y] else []

/-- The pages that are taken in a run, in the order in which they are taken. -/
def pages : System → List Move → List Page := record setup (pageEntry setup)

/-- What the calls that take pages in a run are going to load for them, in the order in which the
pages are taken. -/
def loads : System → List Move → List (Nat × Fetch (List Document)) := record setup (loadEntry setup)

/-- The calls whose pages end in a run, in the order in which the documents of these pages join the
loaded ones. -/
def ended : System → List Move → List Nat := record setup (endEntry setup)

theorem pages_append (y : System) (first second : List Move) :
    y.pages setup (first ++ second) =
      y.pages setup first ++ (y.run setup first).pages setup second :=
  record_append setup (pageEntry setup) y first second

variable {setup} {y : System} {m : Move}

theorem cursorFor_eq (hsearch : ∀ request, m = .start request → ¬ request.Searches) :
    y.cursorFor m = y.state.cursor := by
  cases m with
  | reply i network => rfl
  | start request =>
    cases request with
    | search text first => exact absurd trivial (hsearch _ rfl)
    | rerun => exact absurd trivial (hsearch _ rfl)
    | nextPage => rfl
    | exportAll => rfl
    | rank field => rfl

theorem entries_of_quiet
    (h : (y.move setup m).report? (m.call y) = y.report? (m.call y)) :
    y.pageEntry setup m = [] ∧ y.loadEntry setup m = [] ∧ y.endEntry setup m = [] := by
  rw [pageEntry, loadEntry, endEntry, takes, ends, paging, paging, h, Bool.not_and_self,
    Bool.and_not_self]
  exact ⟨rfl, rfl, rfl⟩

theorem entries_of_taken {cursor total : Nat} (hbefore : y.report? (m.call y) = none)
    (hnow : (y.move setup m).report? (m.call y) = some ⟨cursor, total, true⟩) :
    y.pageEntry setup m =
        [⟨m.call y, y.cursorFor m, (y.move setup m).state.cursor, (y.move setup m).state.ids⟩] ∧
      y.loadEntry setup m = [(m.call y, (y.move setup m).load (m.call y))] ∧
      y.endEntry setup m = [] := by
  rw [pageEntry, loadEntry, endEntry, takes, ends, paging, paging, hbefore, hnow]
  exact ⟨rfl, rfl, rfl⟩

theorem entries_of_ended {cursor total : Nat}
    (hbefore : y.report? (m.call y) = some ⟨cursor, total, true⟩)
    (hnow : (y.move setup m).report? (m.call y) = some ⟨cursor, total, false⟩) :
    y.pageEntry setup m = [] ∧ y.loadEntry setup m = [] ∧ y.endEntry setup m = [m.call y] := by
  rw [pageEntry, loadEntry, endEntry, takes, ends, paging, paging, hbefore, hnow]
  exact ⟨rfl, rfl, rfl⟩

variable (setup) in
/-- Every move is, for the page of its call, a step on the state that it finds or, for a search that
is not ignored, on the one that this resets. -/
theorem exists_pageMove (hy : y.Steady) (m : Move) :
    ∃ s, y.PageMove setup m s ∧ (s.fetching = true → y.state.fetching = true) ∧
      (y.takes setup m = true → y.cursorFor m = s.cursor) := by
  by_cases hsearch : ∃ request, m = .start request ∧ request.Searches
  · obtain ⟨request, rfl, hsearch⟩ := hsearch
    rcases pageMove_search setup hsearch y with ⟨hignored, hstep⟩ | ⟨query, hstep⟩
    · refine ⟨y.state, hstep, id, fun htakes ↦ ?_⟩
      rw [takes, paging, paging, Move.call, report?_move_start, hignored, report?_length] at htakes
      cases htakes
    · refine ⟨y.state.reset query, hstep, (absurd · Bool.false_ne_true), fun _ ↦ ?_⟩
      rcases hsearch.eq_or with ⟨text, first, rfl⟩ | rfl <;> rfl
  · have hother : ∀ request, m = .start request → ¬ request.Searches :=
      fun request hstart hrequest ↦ hsearch ⟨request, hstart, hrequest⟩
    exact ⟨y.state, (pageMove_of_not_searches setup hy hother).1, id, fun _ ↦ cursorFor_eq hother⟩

variable (setup) in
/-- A move takes no page, or it takes the next one of the ids that its call finds on some state, and
the call goes on with loading the ids of it. -/
theorem pageEntry_cases (hy : y.Steady) (m : Move) :
    (y.pageEntry setup m = [] ∧ y.loadEntry setup m = []) ∨
      ∃ found : State, found.refusal? setup = none ∧
        y.pageEntry setup m = [⟨m.call y, found.cursor, found.pageEnd setup, found.ids⟩] ∧
        y.loadEntry setup m =
          [(m.call y, Document.load setup.catalog.manifest (found.pageIds setup))] := by
  obtain ⟨s, hstep, -, hcursor⟩ := exists_pageMove setup hy m
  cases hstep with
  | quiet fetching_eq cursor_eq report_eq =>
    obtain ⟨hpage, hload, -⟩ := entries_of_quiet report_eq
    exact .inl ⟨hpage, hload⟩
  | taken found fetching_eq cursor_eq accepted after_eq before_eq now_eq load_eq =>
    have htakes : y.takes setup m = true := by
      rw [takes, paging, paging, before_eq, now_eq]
      rfl
    obtain ⟨hpage, hload, -⟩ := entries_of_taken before_eq now_eq
    rw [hcursor htakes, ← cursor_eq, after_eq] at hpage
    rw [load_eq] at hload
    exact .inr ⟨found, accepted, hpage, hload⟩
  | ended cursor total before_eq now_eq fetching_eq cursor_eq =>
    obtain ⟨hpage, hload, -⟩ := entries_of_ended before_eq now_eq
    exact .inl ⟨hpage, hload⟩

variable (setup) in
/-- For every page that is taken in a run, its call is going to load the ids of it. -/
theorem loads_eq (hy : y.Steady) (moves : List Move) : y.loads setup moves =
    (y.pages setup moves).map fun p ↦ (p.call, Document.load setup.catalog.manifest p.ids) := by
  induction moves generalizing y with
  | nil => rfl
  | cons m rest ih =>
    have hrest := ih (hy.move setup m)
    rw [loads, pages] at hrest ⊢
    rw [record, record, List.map_append, hrest]
    rcases pageEntry_cases setup hy m with ⟨hpage, hload⟩ | ⟨found, -, hpage, hload⟩
    · rw [hpage, hload, List.map_nil]
    · rw [hpage, hload, List.map_singleton]
      rfl

/-- Every page that is taken in a run is the next one of some state. -/
theorem exists_found_of_mem_pages (hy : y.Steady) {moves : List Move} {p : Page}
    (hp : p ∈ y.pages setup moves) : ∃ (call : Nat) (found : State),
      found.refusal? setup = none ∧
        p = ⟨call, found.cursor, found.pageEnd setup, found.ids⟩ := by
  induction moves generalizing y with
  | nil => exact absurd hp List.not_mem_nil
  | cons m rest ih =>
    rw [pages, record, List.mem_append] at hp
    rcases hp with hfirst | hlater
    · rcases pageEntry_cases setup hy m with ⟨hpage, -⟩ | ⟨found, haccepted, hpage, -⟩
      · rw [hpage] at hfirst
        exact absurd hfirst List.not_mem_nil
      · rw [hpage, List.mem_singleton] at hfirst
        exact ⟨_, found, haccepted, hfirst⟩
    · exact ih (hy.move setup m) hlater

end Pages

end System

end ShardSearch.Session
