import ShardSearch.Proofs.CallAlone
import ShardSearch.Proofs.ExportFlag
import ShardSearch.Proofs.SearchStart

/-!
Calls one after the other. `Performed` is a history without overlaps: each request is performed once
the one before it has returned. Such a history leaves the flag of exports down, and the query that
the session keeps is that of the last search (`Performed.frame`). A search resets all else but the
ranking, so two sessions that rank alike are the same to it whatever has happened on them before
(`start_search_congr`), and `search_starts_afresh` follows for all that comes after it.
-/

set_option autoImplicit false

namespace ShardSearch.Session

/-- What a request reads and what it returns. -/
structure Answer where
  reads : List String
  outcome : Outcome

/-- The query of the last search that is not ignored, empty if there is none. -/
def lastQuery (requests : List Request) : String := requests.foldl Request.queryAfter ""

section History

variable (setup : Setup) (network : String → Option Json)

/-- Requests are performed one after the other, with an answer to each. -/
inductive Performed : State → List Request → List Answer → State → Prop where
  | nil (s : State) : Performed s [] [] s
  | cons {s middle after : State} {request : Request} {reads : List String} {outcome : Outcome}
      {requests : List Request} {answers : List Answer}
      (hfirst : Performs setup network s request reads middle outcome)
      (hrest : Performed middle requests answers after) :
      Performed s (request :: requests) (⟨reads, outcome⟩ :: answers) after

variable {setup network} {s after : State} {request : Request} {reads : List String}
  {outcome : Outcome}

theorem exists_performed (setup : Setup) (network : String → Option Json) (s : State)
    (requests : List Request) :
    ∃ answers after, Performed setup network s requests answers after := by
  induction requests generalizing s with
  | nil => exact ⟨[], s, .nil s⟩
  | cons request rest ih =>
    obtain ⟨reads, middle, outcome, hfirst⟩ := exists_performs setup network s request
    obtain ⟨answers, after, hrest⟩ := ih middle
    exact ⟨_, after, .cons hfirst hrest⟩

/-! ### What a call leaves -/

/-- The steps of a call leave the query and the ranking as the first one has left them. -/
theorem Completes.frame {p : Progress} (h : Completes setup network s p reads after outcome) :
    after.query = s.query ∧ after.ranking = s.ranking := by
  induction h with
  | finished s outcome => exact ⟨rfl, rfl⟩
  | waiting rest ih =>
    obtain ⟨hquery, hranking, -⟩ := resume_frame setup _ _
    exact ⟨ih.1.trans hquery, ih.2.trans hranking⟩

/-- A call that is alone takes its own flag of exports down. -/
theorem Completes.exporting_eq_false {p : Progress}
    (h : Completes setup network s p reads after outcome)
    (hset : s.exporting = true → ∃ task, p.task? network = some task ∧ task.isExport = true) :
    after.exporting = false := by
  -- While the flag is set, the call itself is the export that has set it.
  induction h with
  | finished s outcome =>
    rw [← Bool.not_eq_true]
    intro hexporting
    obtain ⟨task, htask, -⟩ := hset hexporting
    cases htask
  | @waiting s after url next reads outcome rest ih =>
    refine ih fun hexporting ↦ ?_
    rcases resume_cases setup network s (next (network url)) with ⟨hstate, htask⟩ | hfinish
    · rw [hstate] at hexporting
      rw [htask]
      exact hset hexporting
    · rw [hfinish] at hexporting
      obtain ⟨hheld, hkind⟩ := Task.of_exporting_finish setup hexporting
      obtain ⟨task, htask, hexport⟩ := hset hheld
      rw [← Option.some.inj htask, hkind] at hexport
      cases hexport

theorem Performs.exporting_eq_false (h : Performs setup network s request reads after outcome)
    (hs : s.exporting = false) : after.exporting = false := by
  refine Completes.exporting_eq_false h fun hexporting ↦ ?_
  rcases exporting_start setup network s request with hsame | htask
  · rw [hsame, hs] at hexporting
    cases hexporting
  · exact htask

/-- What a call that is alone leaves of a session: the flag of exports is down, and the query is the
one that the request says. -/
theorem Performs.frame (h : Performs setup network s request reads after outcome)
    (hquery : Text.trim s.query = s.query) (hexporting : s.exporting = false) :
    after.query = request.queryAfter s.query ∧ after.exporting = false :=
  ⟨(Completes.frame h).1.trans (query_start setup hquery request), h.exporting_eq_false hexporting⟩

theorem Performs.ranking_eq (h : Performs setup network s request reads after outcome)
    (hsearch : request.Searches) (hquery : Text.trim s.query = s.query) :
    after.ranking = s.ranking := by
  rw [(Completes.frame h).2]
  by_cases hignored : request.Ignored
  · rw [start_of_ignored setup hignored]
  · rw [start_of_searches setup hsearch hignored hquery, (resume_frame setup _ _).2.1,
      State.ranking_reset]

/-- A search is the same to two sessions that rank alike and export nothing. -/
theorem start_search_congr {first second : State} (hranking : first.ranking = second.ranking)
    (hfirst : first.exporting = false) (hsecond : second.exporting = false) {text : String}
    {browses : Bool} (hsearch : ¬ (Request.search text browses).Ignored) :
    start setup first (.search text browses) = start setup second (.search text browses) := by
  have hguard : ¬ ((Text.trim text).isEmpty && !browses) = true := by
    rw [Bool.and_eq_true, Bool.not_eq_true']
    exact hsearch
  have hreset : first.reset (Text.trim text) = second.reset (Text.trim text) := by
    rw [State.reset, State.reset, hranking, hfirst, hsecond]
  rw [start, start, startSearch_eq, startSearch_eq, if_neg hguard, if_neg hguard, hreset, hranking]

/-! ### Histories -/

/-- A history keeps the flag of exports down and the query trimmed, and the query is that of the
last search in it, or else the one before it. -/
theorem Performed.frame {requests : List Request} {answers : List Answer}
    (h : Performed setup network s requests answers after)
    (hquery : Text.trim s.query = s.query) (hexporting : s.exporting = false) :
    after.query = requests.foldl Request.queryAfter s.query ∧
      Text.trim after.query = after.query ∧ after.exporting = false := by
  induction h with
  | nil s => exact ⟨rfl, hquery, hexporting⟩
  | @cons s middle after request reads outcome requests answers hfirst hrest ih =>
    obtain ⟨hkept, hdown⟩ := hfirst.frame hquery hexporting
    have htrim : Text.trim middle.query = middle.query := by
      rw [hkept]
      exact request.trim_queryAfter hquery
    obtain ⟨hlast, hrest⟩ := ih htrim hdown
    rw [hkept, ← List.foldl_cons] at hlast
    exact ⟨hlast, hrest⟩

/-- What a history leaves of a new session. -/
theorem Performed.frame_initial {requests : List Request} {answers : List Answer}
    (h : Performed setup network (.initial setup.config.search) requests answers after) :
    after.query = lastQuery requests ∧ Text.trim after.query = after.query ∧
      after.exporting = false :=
  h.frame rfl rfl

theorem performed_cons_iff {requests : List Request} {answers : List Answer} :
    Performed setup network s (request :: requests) answers after ↔
      ∃ reads middle outcome rest, answers = ⟨reads, outcome⟩ :: rest ∧
        Performs setup network s request reads middle outcome ∧
        Performed setup network middle requests rest after := by
  constructor
  · intro h
    cases h with
    | cons hfirst hrest => exact ⟨_, _, _, _, rfl, hfirst, hrest⟩
  · rintro ⟨reads, middle, outcome, rest, rfl, hfirst, hrest⟩
    exact .cons hfirst hrest

theorem Performed.unique {first second : State} {requests : List Request}
    {firstAnswers secondAnswers : List Answer}
    (h : Performed setup network s requests firstAnswers first)
    (hsecond : Performed setup network s requests secondAnswers second) :
    secondAnswers = firstAnswers ∧ second = first := by
  induction h generalizing secondAnswers with
  | nil s =>
    cases hsecond
    exact ⟨rfl, rfl⟩
  | cons hfirst hrest ih =>
    obtain ⟨reads, middle, outcome, rest, rfl, hcall, hothers⟩ := performed_cons_iff.mp hsecond
    obtain ⟨rfl, rfl, rfl⟩ := hfirst.unique hcall
    obtain ⟨rfl, rfl⟩ := ih hothers
    exact ⟨rfl, rfl⟩

/-- A call depends on its first step only, so a first step that is the same on two sessions makes
the requests after it the same. -/
theorem performed_cons_congr {first second : State}
    (h : start setup first request = start setup second request) {requests : List Request}
    {answers : List Answer} :
    Performed setup network first (request :: requests) answers after ↔
      Performed setup network second (request :: requests) answers after := by
  simp only [performed_cons_iff, Performs, h]

/-- A search on a used session is a fresh start. Two sessions that rank alike, whatever has been
done on either, answer a search and all that comes after it alike; a search for the last query
again is a search with its text; and doing it twice is doing it once. -/
theorem search_starts_afresh {past : List Request} {answers : List Answer}
    (h : Performed setup network (.initial setup.config.search) past answers s) :
    (∀ otherPast otherAnswers other,
      Performed setup network (.initial setup.config.search) otherPast otherAnswers other →
      other.ranking = s.ranking → ∀ text first later, ¬ (Request.search text first).Ignored →
      (∃ answers after,
        Performed setup network s (.search text first :: later) answers after) ∧
      ∀ answers after, Performed setup network s (.search text first :: later) answers after ↔
        Performed setup network other (.search text first :: later) answers after) ∧
    (∀ reads after outcome, Performs setup network s .rerun reads after outcome ↔
      Performs setup network s (.search (lastQuery past) (lastQuery past).isEmpty) reads after
        outcome) ∧
    (∃ reads after outcome, Performs setup network s .rerun reads after outcome) ∧
    ∀ reads after outcome, Performs setup network s .rerun reads after outcome →
      Performs setup network after .rerun reads after outcome := by
  obtain ⟨hlast, htrim, hexporting⟩ := h.frame_initial
  refine ⟨?_, ?_, exists_performs setup network s .rerun, ?_⟩
  · intro otherPast otherAnswers other hother hranking text first later hsearch
    have hstart : start setup s (.search text first) = start setup other (.search text first) :=
      start_search_congr hranking.symm hexporting hother.frame_initial.2.2 hsearch
    exact ⟨exists_performed setup network s _, fun answers after ↦ performed_cons_congr hstart⟩
  · intro reads after outcome
    rw [← hlast]
    exact Iff.rfl
  · intro reads after outcome hrerun
    obtain ⟨hquery, hdown⟩ : after.query = s.query ∧ after.exporting = false :=
      hrerun.frame htrim hexporting
    have hranking : after.ranking = s.ranking := hrerun.ranking_eq trivial htrim
    have hsearch : ¬ (Request.search s.query s.query.isEmpty).Ignored := by
      rintro ⟨hempty, hfirst⟩
      rw [htrim, hfirst] at hempty
      cases hempty
    have hagain : start setup after .rerun = start setup s .rerun := by
      change start setup after (.search after.query after.query.isEmpty) =
        start setup s (.search s.query s.query.isEmpty)
      rw [hquery]
      exact start_search_congr hranking hdown hexporting hsearch
    rw [Performs, hagain]
    exact hrerun

end History

/-- A page more or less has been taken: a search for a name does not see it. -/
theorem small_search_starts_afresh :
    ∃ answers s otherAnswers other,
      Performed smallSetup smallNetwork (.initial smallSetup.config.search) [.search "" true]
        answers s ∧
      Performed smallSetup smallNetwork (.initial smallSetup.config.search)
        [.search "" true, .nextPage] otherAnswers other ∧
      s.loaded.length = 1 ∧ other.loaded.length = 2 ∧
      ∀ answers after,
        Performed smallSetup smallNetwork s [.search "cat" false, .exportAll] answers after ↔
          Performed smallSetup smallNetwork other [.search "cat" false, .exportAll] answers
            after := by
  have hfirst : Performed smallSetup smallNetwork (.initial smallSetup.config.search)
      [.search "" true] [⟨["./all_servers_sorted_by_members.json", "r/data/d_0.json"],
        .search (.found 2 (.loaded 1 1 2))⟩] _ :=
    .cons (.waiting (.waiting (.finished _ _))) (.nil _)
  have hsecond : Performed smallSetup smallNetwork (.initial smallSetup.config.search)
      [.search "" true, .nextPage] [⟨["./all_servers_sorted_by_members.json", "r/data/d_0.json"],
        .search (.found 2 (.loaded 1 1 2))⟩, ⟨["r/data/d_0.json"], .page (.loaded 1 2 2)⟩] _ :=
    .cons (.waiting (.waiting (.finished _ _))) (.cons (.waiting (.finished _ _)) (.nil _))
  refine ⟨_, _, _, _, hfirst, hsecond, rfl, rfl, ?_⟩
  obtain ⟨hsearch, -⟩ := search_starts_afresh hfirst
  exact (hsearch _ _ _ hsecond rfl "cat" false [.exportAll] (by decide)).2

end ShardSearch.Session
