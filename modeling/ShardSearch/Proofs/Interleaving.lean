import Mathlib.Data.List.Basic
import ShardSearch.Proofs.DocumentLoad
import ShardSearch.Session.Call

/-!
Interleavings of the calls on one session. A `System` is a session with the calls that have been
made on it, each with the state that it found and its progress. One `Move` makes a new call or
answers the read that a call waits for; the moves come in any order, so `run` over all lists of
moves is every interleaving of every choice of calls. The network of a reply says what the read
gets, and resources that do not change are one network in all the moves.

Under one network a call that waits is known by what it is still going to do, its `Task`: the
values at the ends of its reads no longer depend on when the answers come. `move_start` and
`move_reply` say all that a move can do in these terms: a new call takes its first step, or a call
waits for its next read and nothing else changes, or it does what it was going to do.
-/

set_option autoImplicit false

namespace ShardSearch

namespace Session

/-- A call on a session: its request, the state that it found, and how far it has come. -/
structure Invocation where
  request : Request
  before : State
  progress : Progress

structure System where
  state : State
  calls : List Invocation

inductive Move where
  | start (request : Request)
  /-- The call of a number, in the order of the starts, gets its read from a network. -/
  | reply (call : Nat) (network : String → Option Json)

/-- Whether a request is a search, with a new query or with the last one. -/
def Request.Searches : Request → Prop
  | search _ _ => True
  | rerun => True
  | nextPage => False
  | exportAll => False
  | rank _ => False

/-- The resources that a move sees are those of a network. -/
def Move.Under (network : String → Option Json) : Move → Prop
  | start _ => True
  | reply _ other => other = network

/-- What a waiting call is going to do when the network does not change. -/
inductive Task where
  | browse (ids : List Nat)
  | find (filters : List PostFilter) (ids : List Nat)
  | page (search : Option Nat) (cursor total : Nat) (documents : List Document)
  | exportAll (filters : List PostFilter) (ranking : Ranking) (documents : List Document)

def Call.task (network : String → Option Json) : Call → Task
  | .browse ids => .browse (ids.run network)
  | .find filters ids => .find filters (ids.run network)
  | .page search cursor total documents => .page search cursor total (documents.run network)
  | .exportAll filters ranking documents => .exportAll filters ranking (documents.run network)

def Request.isExport : Request → Bool
  | exportAll => true
  | _ => false

def Task.isExport : Task → Bool
  | exportAll _ _ _ => true
  | _ => false

def Call.isExport : Call → Bool
  | exportAll _ _ _ => true
  | _ => false

theorem Call.isExport_task (network : String → Option Json) (call : Call) :
    (call.task network).isExport = call.isExport := by
  cases call <;> rfl

namespace Progress

/-- The task of a call that waits. -/
def task? (network : String → Option Json) : Progress → Option Task
  | waiting url next => some ((next (network url)).task network)
  | finished _ => none

def isFinished : Progress → Bool
  | waiting _ _ => false
  | finished _ => true

theorem isFinished_iff {p : Progress} : p.isFinished = true ↔ ∃ outcome, p = finished outcome := by
  cases p with
  | waiting url next => simp [isFinished]
  | finished outcome => simp [isFinished]

@[simp] theorem task?_finished (network : String → Option Json) (outcome : Outcome) :
    (finished outcome).task? network = none := rfl

@[simp] theorem task?_pageFinished (network : String → Option Json) (search : Option Nat)
    (outcome : PageOutcome) : (pageFinished search outcome).task? network = none := rfl

end Progress

/-- A task is done. Of the tasks only a page that is then taken leaves the call something to do. -/
def Task.finish (setup : Setup) (s : State) : Task → State × Progress
  | .browse ids => startPage setup { s with ids := ids } (some ids.length)
  | .find filters ids =>
    if ids.isEmpty then (s, .finished (.search .noResults))
    else startPage setup { s with filters := filters, ids := ids } (some ids.length)
  | .page search cursor total documents =>
    let passing := documents.filter (PostFilter.allAccept s.filters)
    ({ s.append passing with fetching := false },
      pageFinished search (.loaded passing.length cursor total))
  | .exportAll filters ranking documents =>
    ({ s with exporting := false }, .finished <| .exported <| some <|
      Document.sortBy ranking (documents.filter (PostFilter.allAccept filters)))

namespace System

/-- A session as it is opened. -/
def opened (setup : Setup) : System := ⟨.initial setup.config.search, []⟩

/-- A session in a state, with no call in flight. -/
def idle (s : State) : System := ⟨s, []⟩

def move (setup : Setup) (y : System) : Move → System
  | .start request =>
    let (s, progress) := start setup y.state request
    ⟨s, y.calls ++ [⟨request, y.state, progress⟩]⟩
  | .reply i network =>
    match y.calls[i]? with
    | some ⟨request, before, .waiting url next⟩ =>
      let (s, progress) := resume setup y.state (next (network url))
      ⟨s, y.calls.set i ⟨request, before, progress⟩⟩
    | _ => y

def run (setup : Setup) (y : System) (moves : List Move) : System := moves.foldl (move setup) y

/-- All calls have returned. -/
def Quiescent (y : System) : Prop := ∀ call ∈ y.calls, ∃ outcome, call.progress = .finished outcome

instance (y : System) : Decidable y.Quiescent :=
  decidable_of_iff (∀ call ∈ y.calls, call.progress.isFinished = true) <|
    forall₂_congr fun _ _ ↦ Progress.isFinished_iff

/-- The tasks of the calls in flight. -/
def tasks (network : String → Option Json) (y : System) : List Task :=
  y.calls.filterMap (·.progress.task? network)

@[simp] theorem run_cons (setup : Setup) (y : System) (m : Move) (moves : List Move) :
    y.run setup (m :: moves) = (y.move setup m).run setup moves := rfl

theorem run_append (setup : Setup) (y : System) (first second : List Move) :
    y.run setup (first ++ second) = (y.run setup first).run setup second :=
  List.foldl_append

/-- What every allowed move preserves, every run of allowed moves does. -/
theorem run_induction {setup : Setup} {Allowed : Move → Prop} {motive : System → Prop}
    (hmove : ∀ y m, Allowed m → motive y → motive (y.move setup m)) {y : System} (hy : motive y)
    {moves : List Move} (hmoves : ∀ m ∈ moves, Allowed m) : motive (y.run setup moves) := by
  induction moves generalizing y with
  | nil => exact hy
  | cons m rest ih =>
    rw [List.forall_mem_cons] at hmoves
    exact ih (hmove y m hmoves.1 hy) hmoves.2

theorem Quiescent.tasks_eq_nil {y : System} (h : y.Quiescent) (network : String → Option Json) :
    y.tasks network = [] := by
  rw [tasks, List.filterMap_eq_nil_iff]
  intro call hcall
  obtain ⟨outcome, hfinished⟩ := h call hcall
  rw [hfinished, Progress.task?_finished]

end System

/-! ### Steps of a call -/

section Steps

variable (setup : Setup) (network : String → Option Json)

/-- A call that goes on either waits for its next read with the same task and leaves the state as
it is, or does its task. -/
theorem resume_cases (s : State) (call : Call) :
    ((resume setup s call).1 = s ∧
        (resume setup s call).2.task? network = some (call.task network)) ∨
      resume setup s call = (call.task network).finish setup s := by
  cases call with
  | browse ids =>
    cases ids with
    | done ids => exact .inr rfl
    | read url next => exact .inl ⟨rfl, rfl⟩
  | find filters ids =>
    cases ids with
    | done ids => exact .inr rfl
    | read url next => exact .inl ⟨rfl, rfl⟩
  | page search cursor total documents =>
    cases documents with
    | done documents => exact .inr rfl
    | read url next => exact .inl ⟨rfl, rfl⟩
  | exportAll filters ranking documents =>
    cases documents with
    | done documents => exact .inr rfl
    | read url next => exact .inl ⟨rfl, rfl⟩

/-! ### Taking a page -/

/-- Why a page is not taken, if it is not. -/
def State.refusal? (s : State) : Option PageOutcome :=
  if s.fetching then some .busy
  else if s.ids.length ≤ s.cursor then some .exhausted
  else if Json.wordLimit ≤ s.cursor + setup.pageLength then some .overflow
  else none

/-- The cursor after the next page. -/
def State.pageEnd (s : State) : Nat := min (s.cursor + setup.pageLength) s.ids.length

/-- The ids of the next page. -/
def State.pageIds (s : State) : List Nat := (s.ids.take (s.pageEnd setup)).drop s.cursor

/-- The state once the next page is taken. -/
def State.taken (s : State) : State := { s with cursor := s.pageEnd setup, fetching := true }

variable {setup} in
theorem State.refusal?_eq_none {s : State} : s.refusal? setup = none ↔
    s.fetching = false ∧ s.cursor < s.ids.length ∧ s.cursor + setup.pageLength < Json.wordLimit := by
  unfold refusal?
  split
  · simp_all
  · split
    · next hend => simp [Nat.not_lt.mpr hend]
    · split <;> simp_all

variable {setup} in
theorem State.length_le_cursor_of_refusal? {s : State} (h : s.refusal? setup = some .exhausted) :
    s.fetching = false ∧ s.ids.length ≤ s.cursor := by
  unfold refusal? at h
  split at h
  · cases h
  · split at h
    · next hfetching hend => exact ⟨by simpa using hfetching, hend⟩
    · split at h <;> cases h

/-- A page is refused and leaves everything as it is, or it is taken and waits for its documents. -/
theorem startPage_eq (s : State) (search : Option Nat) : startPage setup s search =
    match s.refusal? setup with
    | some outcome => (s, pageFinished search outcome)
    | none => continuePage (s.taken setup) search (s.pageEnd setup) s.ids.length
        (Document.load setup.catalog.manifest (s.pageIds setup)) := by
  unfold startPage State.refusal?
  split
  · rfl
  · split
    · rfl
    · split <;> rfl

variable {setup} in
theorem startPage_of_refusal? {s : State} {outcome : PageOutcome}
    (h : s.refusal? setup = some outcome) (search : Option Nat) :
    startPage setup s search = (s, pageFinished search outcome) := by
  rw [startPage_eq, h]

variable {setup} in
theorem State.pageIds_ne_nil {s : State} (h : s.refusal? setup = none) : s.pageIds setup ≠ [] := by
  obtain ⟨-, hcursor, -⟩ := State.refusal?_eq_none.mp h
  have hlength : (s.pageIds setup).length = s.pageEnd setup - s.cursor := by
    simp [State.pageIds, State.pageEnd]
  have hpositive : 0 < setup.pageLength := Nat.lt_of_lt_of_le Nat.one_pos (Nat.le_max_right _ 1)
  rw [← List.length_pos_iff, hlength, State.pageEnd]
  omega

variable {setup} in
/-- A page that is taken marks the session as loading and waits for the files of its ids. -/
theorem startPage_of_refusal?_eq_none {s : State} (h : s.refusal? setup = none)
    (search : Option Nat) :
    (startPage setup s search).1 = s.taken setup ∧
      (startPage setup s search).2.task? network =
        some (.page search (s.pageEnd setup) s.ids.length
          ((Document.load setup.catalog.manifest (s.pageIds setup)).run network)) := by
  obtain ⟨url, next, hload⟩ :=
    Document.exists_read_of_ne_nil setup.catalog.manifest (State.pageIds_ne_nil h)
  rw [startPage_eq, h, hload]
  exact ⟨rfl, rfl⟩

/-- A page that is started changes nothing but the cursor and the flag of loading. -/
theorem startPage_frame (s : State) (search : Option Nat) :
    (startPage setup s search).1 = s ∨ (startPage setup s search).1 = s.taken setup := by
  cases h : s.refusal? setup with
  | some outcome => exact .inl (by rw [startPage_of_refusal? h])
  | none => exact .inr (startPage_of_refusal?_eq_none (fun _ ↦ none) h search).1

/-- Doing a task leaves the query and the ranking as they are, and so does all but an export with
the flag of exports. -/
theorem Task.finish_frame (s : State) (task : Task) :
    (task.finish setup s).1.query = s.query ∧ (task.finish setup s).1.ranking = s.ranking ∧
      (task.isExport = false → (task.finish setup s).1.exporting = s.exporting) := by
  have hpage : ∀ (s : State) (search : Option Nat),
      (startPage setup s search).1.query = s.query ∧
        (startPage setup s search).1.ranking = s.ranking ∧
        (startPage setup s search).1.exporting = s.exporting := by
    intro s search
    rcases startPage_frame setup s search with h | h <;> rw [h]
    · exact ⟨rfl, rfl, rfl⟩
    · exact ⟨rfl, rfl, rfl⟩
  cases task with
  | browse ids =>
    obtain ⟨hquery, hranking, hexporting⟩ := hpage { s with ids := ids } (some ids.length)
    exact ⟨hquery, hranking, fun _ ↦ hexporting⟩
  | find filters ids =>
    rw [Task.finish]
    split
    · exact ⟨rfl, rfl, fun _ ↦ rfl⟩
    · obtain ⟨hquery, hranking, hexporting⟩ :=
        hpage { s with filters := filters, ids := ids } (some ids.length)
      exact ⟨hquery, hranking, fun _ ↦ hexporting⟩
  | page search cursor total documents => exact ⟨rfl, rfl, fun _ ↦ rfl⟩
  | exportAll filters ranking documents => exact ⟨rfl, rfl, Bool.noConfusion⟩

/-- So do the steps of a call. -/
theorem resume_frame (s : State) (call : Call) :
    (resume setup s call).1.query = s.query ∧ (resume setup s call).1.ranking = s.ranking ∧
      (call.isExport = false → (resume setup s call).1.exporting = s.exporting) := by
  rcases resume_cases setup (fun _ ↦ none) s call with ⟨hstate, -⟩ | hfinish
  · rw [hstate]
    exact ⟨rfl, rfl, fun _ ↦ rfl⟩
  · rw [hfinish, ← Call.isExport_task (fun _ ↦ none)]
    exact Task.finish_frame setup s _

/-! ### First steps -/

/-- A search that is not ignored, once the state is reset. -/
def searchCall (ranking : Ranking) (query : String) : Call :=
  if query.isEmpty then .browse (listing setup)
  else .find (Plan.ofQuery query).filters ((Plan.ofQuery query).ids setup.catalog ranking)

theorem startSearch_eq (s : State) (text : String) (first : Bool) :
    startSearch setup s text first =
      if (Text.trim text).isEmpty && !first then (s, .finished (.search .ignored))
      else resume setup (s.reset (Text.trim text)) (searchCall setup s.ranking (Text.trim text)) := by
  simp only [startSearch, searchCall]
  cases (Text.trim text).isEmpty with
  | false => simp only [Bool.false_eq_true, if_false, Bool.false_and, resume]
  | true => cases first <;> simp only [if_true, if_false, Bool.false_eq_true, Bool.not_false,
      Bool.not_true, Bool.and_self, Bool.and_false, resume]

theorem Request.Searches.eq_or {request : Request} (h : request.Searches) :
    (∃ text first, request = .search text first) ∨ request = .rerun := by
  cases request with
  | search text first => exact .inl ⟨text, first, rfl⟩
  | rerun => exact .inr rfl
  | _ => exact h.elim

/-- The first step of a search on any state: it is ignored, or it goes on from the reset state. -/
theorem start_search_cases {request : Request} (hsearch : request.Searches) (s : State) :
    start setup s request = (s, .finished (.search .ignored)) ∨
      ∃ query, start setup s request =
        resume setup (s.reset query) (searchCall setup s.ranking query) := by
  obtain ⟨text, first, hstart⟩ : ∃ text first,
      start setup s request = startSearch setup s text first := by
    rcases hsearch.eq_or with ⟨text, first, rfl⟩ | rfl
    · exact ⟨text, first, rfl⟩
    · exact ⟨s.query, s.query.isEmpty, rfl⟩
  rw [hstart, startSearch_eq]
  split
  · exact .inl rfl
  · exact .inr ⟨Text.trim text, rfl⟩

/-- An export that is not refused, once its flag is set. -/
def exportCall (s : State) : Call :=
  .exportAll s.filters s.ranking (Document.load setup.catalog.manifest s.ids)

theorem startExport_eq (s : State) : startExport setup s =
    if s.exporting || s.ids.isEmpty then (s, .finished (.exported none))
    else resume setup { s with exporting := true } (exportCall setup s) := rfl

/-- An export that is not refused waits for the files of all ids. -/
theorem startExport_of_accepted {s : State} (hexporting : s.exporting = false)
    (hids : s.ids ≠ []) :
    (startExport setup s).1 = { s with exporting := true } ∧
      (startExport setup s).2.task? network = some ((exportCall setup s).task network) := by
  obtain ⟨url, next, hload⟩ := Document.exists_read_of_ne_nil setup.catalog.manifest hids
  have hempty : s.ids.isEmpty = false := by simpa using hids
  rw [startExport_eq, hexporting, hempty, exportCall, hload]
  exact ⟨rfl, rfl⟩

end Steps

/-! ### Moves -/

namespace System

theorem move_start (setup : Setup) (y : System) (request : Request) :
    y.move setup (.start request) = ⟨(start setup y.state request).1,
      y.calls ++ [⟨request, y.state, (start setup y.state request).2⟩]⟩ := rfl

/-- A reply finds no call that waits, or it resumes one call. -/
theorem move_reply_eq (setup : Setup) (network : String → Option Json) (y : System) (i : Nat) :
    y.move setup (.reply i network) = y ∨
      ∃ call url next, y.calls[i]? = some call ∧ call.progress = .waiting url next ∧
        y.move setup (.reply i network) = ⟨(resume setup y.state (next (network url))).1,
          y.calls.set i { call with
            progress := (resume setup y.state (next (network url))).2 }⟩ := by
  cases hcall : y.calls[i]? with
  | none => exact .inl (by simp only [move, hcall])
  | some call =>
    obtain ⟨request, before, progress⟩ := call
    cases progress with
    | finished outcome => exact .inl (by simp only [move, hcall])
    | waiting url next =>
      exact .inr ⟨⟨request, before, .waiting url next⟩, url, next, rfl, rfl,
        by simp only [move, hcall]⟩

/-- A reply finds no call that waits, or one call takes a step. -/
theorem move_reply (setup : Setup) (network : String → Option Json) (y : System) (i : Nat) :
    y.move setup (.reply i network) = y ∨
      ∃ call task progress, y.calls[i]? = some call ∧
        call.progress.task? network = some task ∧
        (y.move setup (.reply i network)).calls =
          y.calls.set i { call with progress := progress } ∧
        (((y.move setup (.reply i network)).state = y.state ∧
            progress.task? network = some task) ∨
          ((y.move setup (.reply i network)).state, progress) = task.finish setup y.state) := by
  rcases move_reply_eq setup network y i with hsame | ⟨call, url, next, hcall, hwaiting, hmove⟩
  · exact .inl hsame
  · refine .inr ⟨call, (next (network url)).task network,
      (resume setup y.state (next (network url))).2, hcall, ?_, ?_, ?_⟩
    · rw [hwaiting]
      rfl
    · rw [hmove]
    · rw [hmove]
      exact resume_cases setup network y.state (next (network url))

private theorem filterMap_set {α β : Type} (f : α → Option β) {list : List α} {i : Nat} {a : α}
    (h : list[i]? = some a) (b : α) : ∃ first last,
      list.filterMap f = first ++ (f a).toList ++ last ∧
        (list.set i b).filterMap f = first ++ (f b).toList ++ last := by
  obtain ⟨hi, rfl⟩ := List.getElem?_eq_some_iff.mp h
  have hsplit : list = list.take i ++ list[i] :: list.drop (i + 1) := by
    rw [List.getElem_cons_drop, List.take_append_drop]
  have hcons : ∀ c : α, ((list.take i ++ c :: list.drop (i + 1)).filterMap f) =
      (list.take i).filterMap f ++ (f c).toList ++ (list.drop (i + 1)).filterMap f := by
    intro c
    rw [List.filterMap_append, List.append_assoc]
    cases hc : f c with
    | none => rw [List.filterMap_cons_none hc, Option.toList_none, List.nil_append]
    | some d => rw [List.filterMap_cons_some hc, Option.toList_some, List.singleton_append]
  refine ⟨(list.take i).filterMap f, (list.drop (i + 1)).filterMap f, ?_, ?_⟩
  · rw [← hcons, ← hsplit]
  · rw [← hcons, List.set_eq_take_append_cons_drop, if_pos hi]

/-- A new call adds what it has left to do to the tasks. -/
theorem tasks_start (setup : Setup) (network : String → Option Json) (y : System)
    (request : Request) : (y.move setup (.start request)).tasks network =
      y.tasks network ++ ((start setup y.state request).2.task? network).toList := by
  rw [move_start, tasks, List.filterMap_append, tasks]
  congr 1

/-- A reply under an unchanging network changes nothing but the call that gets it, or one task is
done, and what it leaves to do is in its place. -/
theorem tasks_reply (setup : Setup) (network : String → Option Json) (y : System) (i : Nat) :
    ((y.move setup (.reply i network)).state = y.state ∧
        (y.move setup (.reply i network)).tasks network = y.tasks network ∧
        ∀ call ∈ (y.move setup (.reply i network)).calls,
          call ∈ y.calls ∨ call.progress.task? network ≠ none) ∨
      ∃ first task last, y.tasks network = first ++ task :: last ∧
        (y.move setup (.reply i network)).state = (task.finish setup y.state).1 ∧
        (y.move setup (.reply i network)).tasks network =
          first ++ ((task.finish setup y.state).2.task? network).toList ++ last ∧
        ∀ call ∈ (y.move setup (.reply i network)).calls,
          call ∈ y.calls ∨ call.progress = (task.finish setup y.state).2 := by
  rcases move_reply setup network y i with hsame | ⟨call, task, progress, hcall, htask, hcalls, h⟩
  · rw [hsame]
    exact .inl ⟨rfl, rfl, fun call hcall ↦ .inl hcall⟩
  · obtain ⟨first, last, hbefore, hafter⟩ := filterMap_set
      (fun call : Invocation ↦ call.progress.task? network) hcall { call with progress := progress }
    have hmem : ∀ other ∈ (y.move setup (.reply i network)).calls,
        other ∈ y.calls ∨ other.progress = progress := by
      intro other hother
      rw [hcalls] at hother
      rcases List.mem_or_eq_of_mem_set hother with hold | rfl
      · exact .inl hold
      · exact .inr rfl
    rw [htask] at hbefore
    rcases h with ⟨hstate, hnext⟩ | hfinish
    · rw [hnext] at hafter
      refine .inl ⟨hstate, ?_, fun other hother ↦ ?_⟩
      · rw [tasks, tasks, hcalls, hafter, hbefore]
      · rcases hmem other hother with hold | hnew
        · exact .inl hold
        · rw [hnew, hnext]
          exact .inr (Option.some_ne_none task)
    · have hstate : (y.move setup (.reply i network)).state = (task.finish setup y.state).1 :=
        congrArg Prod.fst hfinish
      obtain rfl : progress = (task.finish setup y.state).2 := congrArg Prod.snd hfinish
      refine .inr ⟨first, task, last, ?_, hstate, ?_, hmem⟩
      · rw [tasks, hbefore, Option.toList_some, List.append_assoc, List.singleton_append]
      · rw [tasks, hcalls, hafter]

end System

/-! ### A small session -/

/-- Pages of one id, and one file for all documents. -/
def smallSetup : Setup where
  catalog := ⟨⟨2, 1, "r", "", [], [], none, 100, none⟩, none⟩
  config := { search := { batchSize := 1 } }

/-- Two documents without data, and a listing of their ids. -/
def smallNetwork (url : String) : Option Json :=
  if url = "r/data/d_0.json" then
    some (.array [.array [.number (.int 1)], .array [.number (.int 2)]])
  else if url = "./all_servers_sorted_by_members.json" then
    some (.array [.number (.int 1), .number (.int 2)])
  else none

end Session

end ShardSearch
