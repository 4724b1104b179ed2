import Mathlib.Algebra.Order.Floor.Div
import ShardSearch.Proofs.DocumentOrder
import ShardSearch.Proofs.PageHistory

/-!
The pages of one search. After a search has found ids, whatever pages, exports and choices of a
ranking overlap, and whatever their reads get, the pages that are taken are the first, the second,
and so on of the ids: `Consecutive` says so of a cursor and of what the calls report, `take` is the
step that takes one more page, and `Browsing.run` is the run of a session without a further search.
What the calls load for these pages are the ids of them (`System.loads_eq`). Once there are as many
pages as the ids fill, none is taken any more.

A page ends with a sort, unless the index orders the documents. Where the ranking does not order
them, a sort need not return (`State.Sortable`): the page has been taken like any other, but what
its call returns is left open.
-/

set_option autoImplicit false

namespace ShardSearch.Session

/-- The pages that have been taken are the first ones of some ids, up to a cursor, and they are the
ones that the calls report. -/
structure Consecutive (length : Nat) (ids : List Nat) (cursor : Nat)
    (report? : Nat → Option PageReport) (pages : List Page) : Prop where
  list_eq : ∀ p ∈ pages, p.list = ids
  bounds : pages.map (fun p ↦ (p.first, p.last)) = (List.range pages.length).map fun k ↦
    (k * length, min ((k + 1) * length) ids.length)
  cursor_eq : cursor = min (pages.length * length) ids.length
  needed : ∀ k < pages.length, k * length < ids.length
  reported : ∀ i cursor total, (∃ loading, report? i = some ⟨cursor, total, loading⟩) ↔
    ∃ p ∈ pages, p.call = i ∧ p.last = cursor ∧ ids.length = total
  nodup : (pages.map Page.call).Nodup

namespace Consecutive

variable {length cursor : Nat} {ids : List Nat} {report? : Nat → Option PageReport}
  {pages : List Page}

theorem nil (length : Nat) (ids : List Nat) (hnone : ∀ i, report? i = none) :
    Consecutive length ids 0 report? [] where
  list_eq _ hp := absurd hp List.not_mem_nil
  bounds := rfl
  cursor_eq := by rw [List.length_nil, Nat.zero_mul, Nat.zero_min]
  needed k hk := absurd hk (Nat.not_lt_zero k)
  reported i cursor total := by
    rw [hnone i]
    constructor
    · rintro ⟨loading, h⟩
      cases h
    · rintro ⟨p, hp, -⟩
      exact absurd hp List.not_mem_nil
  nodup := List.nodup_nil

/-- Before the first page is taken, all ids are the same. -/
theorem change_ids (h : Consecutive length ids cursor report? []) (other : List Nat) :
    Consecutive length other cursor report? [] := by
  have hcursor : cursor = 0 := by
    rw [h.cursor_eq, List.length_nil, Nat.zero_mul, Nat.zero_min]
  rw [hcursor]
  refine nil length other fun i ↦ ?_
  cases hreport : report? i with
  | none => rfl
  | some report =>
    obtain ⟨p, hp, -⟩ := (h.reported i report.cursor report.total).mp ⟨report.loading, hreport⟩
    exact absurd hp List.not_mem_nil

/-- A call without a page takes the next one. -/
theorem take (h : Consecutive length ids cursor report? pages) (hcursor : cursor < ids.length)
    {c : Nat} (hbefore : report? c = none) {other : Nat → Option PageReport}
    (hsame : ∀ j, j ≠ c → other j = report? j)
    (hnow : other c = some ⟨min (cursor + length) ids.length, ids.length, true⟩) :
    Consecutive length ids (min (cursor + length) ids.length) other
      (pages ++ [⟨c, cursor, min (cursor + length) ids.length, ids⟩]) := by
  -- The cursor is not at the end, so all pages before were full.
  have hfull : cursor = pages.length * length := by
    have := h.cursor_eq
    omega
  have hlast : min (cursor + length) ids.length = min ((pages.length + 1) * length) ids.length := by
    rw [hfull, Nat.succ_mul]
  have hfresh : ∀ p ∈ pages, p.call ≠ c := by
    rintro p hp rfl
    obtain ⟨loading, hreport⟩ := (h.reported p.call p.last ids.length).mpr ⟨p, hp, rfl, rfl, rfl⟩
    rw [hbefore] at hreport
    cases hreport
  refine ⟨?_, ?_, ?_, ?_, ?_, ?_⟩
  · intro p hp
    rw [List.mem_append, List.mem_singleton] at hp
    rcases hp with hold | rfl
    · exact h.list_eq p hold
    · rfl
  · rw [List.map_append, h.bounds, List.length_append, List.length_singleton, List.range_succ,
      List.map_append, List.map_singleton, List.map_singleton, hlast, hfull]
  · rw [List.length_append, List.length_singleton, hlast]
  · intro k hk
    rw [List.length_append, List.length_singleton, Nat.lt_succ_iff] at hk
    exact Nat.lt_of_le_of_lt (Nat.mul_le_mul_right length hk) (hfull ▸ hcursor)
  · intro i cursor' total
    by_cases hi : i = c
    · subst hi
      rw [hnow]
      constructor
      · rintro ⟨loading, hreport⟩
        obtain ⟨rfl, rfl, -⟩ := PageReport.mk.inj (Option.some.inj hreport)
        exact ⟨_, List.mem_append_right _ List.mem_cons_self, rfl, rfl, rfl⟩
      · rintro ⟨p, hp, hcall, rfl, rfl⟩
        rw [List.mem_append, List.mem_singleton] at hp
        rcases hp with hold | rfl
        · exact absurd hcall (hfresh p hold)
        · exact ⟨true, rfl⟩
    · rw [hsame i hi, h.reported]
      constructor
      · rintro ⟨p, hp, hrest⟩
        exact ⟨p, List.mem_append_left _ hp, hrest⟩
      · rintro ⟨p, hp, hcall, hrest⟩
        rw [List.mem_append, List.mem_singleton] at hp
        rcases hp with hold | rfl
        · exact ⟨p, hold, hcall, hrest⟩
        · exact absurd hcall.symm hi
  · rw [List.map_append, List.map_singleton, List.nodup_append]
    refine ⟨h.nodup, List.nodup_singleton c, ?_⟩
    intro i hi j hj hij
    obtain ⟨p, hp, rfl⟩ := List.mem_map.mp hi
    exact hfresh p hp (hij.trans (List.mem_singleton.mp hj))

theorem map_ids (h : Consecutive length ids cursor report? pages) :
    pages.map Page.ids = (List.range pages.length).map fun k ↦
      (ids.take ((k + 1) * length)).drop (k * length) := by
  have hlist : pages.map Page.ids =
      (pages.map fun p ↦ (p.first, p.last)).map fun b ↦ (ids.take b.2).drop b.1 := by
    rw [List.map_map]
    refine List.map_congr_left fun p hp ↦ ?_
    rw [Page.ids, h.list_eq p hp, Function.comp_apply]
  rw [hlist, h.bounds, List.map_map]
  refine List.map_congr_left fun k _ ↦ ?_
  rw [Function.comp_apply, ← List.take_eq_take_min]

/-- One after the other, the pages are the ids before the cursor. -/
theorem flatten_ids (h : Consecutive length ids cursor report? pages) :
    (pages.map Page.ids).flatten = ids.take cursor := by
  have hjoined : ∀ n, ((List.range n).map fun k ↦
      (ids.take ((k + 1) * length)).drop (k * length)).flatten = ids.take (n * length) := by
    intro n
    induction n with
    | zero => simp
    | succ n ih =>
      have htake : ids.take (n * length) = (ids.take ((n + 1) * length)).take (n * length) := by
        rw [List.take_take, Nat.min_eq_left (Nat.mul_le_mul_right length (Nat.le_succ n))]
      rw [List.range_succ, List.map_append, List.flatten_append, ih, List.map_singleton,
        List.flatten_singleton, htake, List.take_append_drop]
  rw [h.map_ids, hjoined, h.cursor_eq, ← List.take_eq_take_min]

theorem bounds_getElem (h : Consecutive length ids cursor report? pages) {k : Nat}
    (hk : k < pages.length) : pages[k].first = k * length ∧
      pages[k].last = min ((k + 1) * length) ids.length := by
  have hbounds : (pages.map fun p ↦ (p.first, p.last))[k]? =
      some (k * length, min ((k + 1) * length) ids.length) := by
    rw [h.bounds, List.getElem?_map, List.getElem?_range hk, Option.map_some]
  rw [List.getElem?_map, List.getElem?_eq_getElem hk, Option.map_some, Option.some_inj] at hbounds
  exact Prod.mk.inj hbounds

/-- All pages but the last one are full. -/
theorem length_ids (h : Consecutive length ids cursor report? pages) {k : Nat}
    (hk : k + 1 < pages.length) : pages[k].ids.length = length := by
  have hids : (pages.map Page.ids)[k]? =
      some ((ids.take ((k + 1) * length)).drop (k * length)) := by
    rw [h.map_ids, List.getElem?_map, List.getElem?_range (by omega), Option.map_some]
  rw [List.getElem?_map, List.getElem?_eq_getElem (by omega), Option.map_some,
    Option.some_inj] at hids
  have hneeded := h.needed (k + 1) hk
  rw [hids, List.length_drop, List.length_take, Nat.min_eq_left (Nat.le_of_lt hneeded),
    Nat.succ_mul, Nat.add_sub_cancel_left]

/-- There are no more pages than the ids fill. -/
theorem length_le (hlength : 0 < length) (h : Consecutive length ids cursor report? pages) :
    pages.length ≤ ids.length ⌈/⌉ length := by
  cases hpages : pages.length with
  | zero => exact Nat.zero_le _
  | succ n =>
    have hneeded := h.needed n (by omega)
    by_contra hless
    have hle : ids.length ⌈/⌉ length ≤ n := by omega
    rw [ceilDiv_le_iff_le_mul hlength, Nat.mul_comm] at hle
    exact Nat.not_le_of_lt hneeded hle

/-- There are as many pages as the ids fill once the cursor is at the end. -/
theorem length_eq_iff (hlength : 0 < length) (h : Consecutive length ids cursor report? pages) :
    pages.length = ids.length ⌈/⌉ length ↔ cursor = ids.length := by
  have hend : ids.length ⌈/⌉ length ≤ pages.length ↔ cursor = ids.length := by
    rw [ceilDiv_le_iff_le_mul hlength, Nat.mul_comm, h.cursor_eq, min_eq_right_iff]
  exact ⟨fun heq ↦ hend.mp heq.ge, fun hcursor ↦
    Nat.le_antisymm (h.length_le hlength) (hend.mpr hcursor)⟩

end Consecutive

/-! ### Runs after a search -/

section Browsing

variable {setup : Setup} {ids : List Nat} {y : System} {pages : List Page}

theorem Setup.pageLength_pos (setup : Setup) : 0 < setup.pageLength :=
  Nat.lt_of_lt_of_le Nat.one_pos (Nat.le_max_right _ 1)

/-- A step of one call, on a state whose cursor is that of the pages. -/
theorem Consecutive.step {s : State} {m : Move}
    (h : Consecutive setup.pageLength ids s.cursor y.report? pages)
    (hids : (y.move setup m).state.ids = ids) (hcursor : y.cursorFor m = s.cursor)
    (hstep : y.PageMove setup m s) :
    Consecutive setup.pageLength ids (y.move setup m).state.cursor (y.move setup m).report?
      (pages ++ y.pageEntry setup m) := by
  have hother : ∀ j, j ≠ m.call y → (y.move setup m).report? j = y.report? j :=
    fun _ hj ↦ System.report?_move_of_ne hj
  cases hstep with
  | quiet fetching_eq cursor_eq report_eq =>
    rw [(System.entries_of_quiet report_eq).1, List.append_nil, cursor_eq]
    refine { h with reported := fun i cursor total ↦ ?_ }
    by_cases hi : i = m.call y
    · rw [hi, report_eq]
      exact h.reported _ cursor total
    · rw [hother i hi]
      exact h.reported i cursor total
  | taken found fetching_eq cursor_eq accepted after_eq before_eq now_eq load_eq =>
    obtain ⟨-, hless, -⟩ := State.refusal?_eq_none.mp accepted
    have hfound : found.ids = ids := by
      rw [← hids, after_eq]
      rfl
    have hend : (y.move setup m).state.cursor = min (s.cursor + setup.pageLength) ids.length := by
      rw [after_eq, ← cursor_eq, ← hfound]
      rfl
    rw [cursor_eq, hfound] at hless
    rw [State.pageEnd, cursor_eq, hfound] at now_eq
    rw [(System.entries_of_taken before_eq now_eq).1, hend, hids, hcursor]
    exact h.take hless before_eq hother now_eq
  | ended cursor total before_eq now_eq fetching_eq cursor_eq =>
    rw [(System.entries_of_ended before_eq now_eq).1, List.append_nil, cursor_eq]
    refine { h with reported := fun i cursor' total' ↦ ?_ }
    rw [← h.reported i cursor' total']
    by_cases hi : i = m.call y
    · rw [hi, before_eq, now_eq]
      constructor
      · rintro ⟨loading, hreport⟩
        obtain ⟨rfl, rfl, -⟩ := PageReport.mk.inj (Option.some.inj hreport)
        exact ⟨true, rfl⟩
      · rintro ⟨loading, hreport⟩
        obtain ⟨rfl, rfl, -⟩ := PageReport.mk.inj (Option.some.inj hreport)
        exact ⟨false, rfl⟩
    · rw [hother i hi]

/-- A session after a search, with no further search. -/
structure Browsing (setup : Setup) (ids : List Nat) (y : System) (pages : List Page) : Prop where
  steady : y.Steady
  ids_eq : y.state.ids = ids
  not_searching : ∀ i, y.stage? i ≠ some .searching
  consecutive : Consecutive setup.pageLength ids y.state.cursor y.report? pages

theorem Browsing.move (h : Browsing setup ids y pages) {m : Move}
    (hsearch : ∀ request, m = .start request → ¬ request.Searches) :
    Browsing setup ids (y.move setup m) (pages ++ y.pageEntry setup m) := by
  obtain ⟨hstep, hkeeps⟩ := System.pageMove_of_not_searches setup h.steady hsearch
  obtain ⟨hids, hstage⟩ := hkeeps (h.not_searching (m.call y))
  refine ⟨h.steady.move setup m, hids.trans h.ids_eq, fun i ↦ ?_, ?_⟩
  · by_cases hi : i = m.call y
    · exact hi ▸ hstage
    · rw [System.stage?_move_of_ne hi]
      exact h.not_searching i
  · exact h.consecutive.step (hids.trans h.ids_eq) (System.cursorFor_eq hsearch) hstep

theorem Browsing.run (h : Browsing setup ids y pages) {moves : List Move}
    (hsearch : ∀ request, .start request ∈ moves → ¬ request.Searches) :
    Browsing setup ids (y.run setup moves) (pages ++ y.pages setup moves) := by
  induction moves generalizing y pages with
  | nil =>
    rw [System.pages, System.record, List.append_nil]
    exact h
  | cons m rest ih =>
    have hfirst := h.move (m := m) fun request hm ↦ hsearch request (hm ▸ List.mem_cons_self)
    have hrest := ih hfirst fun request hm ↦ hsearch request (List.mem_cons_of_mem m hm)
    rw [List.append_assoc] at hrest
    exact hrest

/-! ### The search itself -/

/-- A session on which only one call has been made, a search. -/
structure Beginning (setup : Setup) (y : System) (pages : List Page) : Prop where
  steady : y.Steady
  searching : y.stage? 0 = some .searching → pages = []
  consecutive : Consecutive setup.pageLength y.state.ids y.state.cursor y.report? pages

/-- A call that is still a search has not taken a page. -/
theorem System.pageEntry_of_searching {m : Move}
    (h : (y.move setup m).stage? (m.call y) = some .searching) : y.pageEntry setup m = [] := by
  obtain ⟨call, hcall, hstage⟩ := Option.bind_eq_some_iff.mp h
  have hpaging : (y.move setup m).paging (m.call y) = false := by
    rw [paging, report?, hcall, Option.bind_some, Progress.report?_of_stage? hstage]
    rfl
  rw [pageEntry, takes, hpaging, Bool.and_false]
  rfl

theorem Beginning.reply (h : Beginning setup y pages) (network : String → Option Json) :
    Beginning setup (y.move setup (.reply 0 network))
      (pages ++ y.pageEntry setup (.reply 0 network)) := by
  obtain ⟨hstep, hkeeps⟩ := System.pageMove_reply setup h.steady 0 network
  by_cases hsearching : y.stage? 0 = some .searching
  · obtain rfl := h.searching hsearching
    refine ⟨h.steady.move setup _, fun hstage ↦ ?_, ?_⟩
    · exact System.pageEntry_of_searching hstage
    · exact (h.consecutive.change_ids _).step rfl rfl hstep
  · obtain ⟨hids, hstage⟩ := hkeeps hsearching
    refine ⟨h.steady.move setup _, fun hnow ↦ absurd hnow hstage, ?_⟩
    rw [hids]
    exact h.consecutive.step hids rfl hstep

theorem Beginning.run (h : Beginning setup y pages) (answers : List (String → Option Json)) :
    Beginning setup (y.run setup (answers.map (.reply 0)))
      (pages ++ y.pages setup (answers.map (.reply 0))) := by
  induction answers generalizing y pages with
  | nil =>
    rw [List.map_nil, System.pages, System.record, List.append_nil]
    exact h
  | cons network rest ih =>
    have hrest := ih (h.reply network)
    rw [List.append_assoc] at hrest
    exact hrest

variable (setup) in
theorem Beginning.start {request : Request} (hsearch : request.Searches) (before : State) :
    ((System.idle before).move setup (.start request)).calls.map Invocation.progress =
        [.finished (.search .ignored)] ∨
      Beginning setup ((System.idle before).move setup (.start request))
        ((System.idle before).pageEntry setup (.start request)) := by
  have hzero : (System.idle before).cursorFor (.start request) = 0 := by
    rcases hsearch.eq_or with ⟨text, first, rfl⟩ | rfl <;> rfl
  rcases System.pageMove_search setup hsearch (System.idle before) with
    ⟨hignored, -⟩ | ⟨query, hstep⟩
  · refine .inl ?_
    rw [System.move_start, hignored]
    rfl
  · refine .inr ⟨(System.steady_idle before).move setup _, System.pageEntry_of_searching, ?_⟩
    have hnil : Consecutive setup.pageLength
        ((System.idle before).move setup (.start request)).state.ids (before.reset query).cursor
        (System.idle before).report? [] := .nil _ _ fun _ ↦ rfl
    exact hnil.step rfl hzero hstep

/-- Replies to a call that has returned change nothing. -/
theorem System.run_replies_of_finished {outcome : Outcome}
    (h : y.calls.map Invocation.progress = [.finished outcome])
    (answers : List (String → Option Json)) : y.run setup (answers.map (.reply 0)) = y := by
  have hmove : ∀ network, y.move setup (.reply 0 network) = y := by
    intro network
    rcases move_reply_eq setup network y 0 with hsame | ⟨call, url, next, hcall, hwaiting, -⟩
    · exact hsame
    · have hprogress : (y.calls.map Invocation.progress)[0]? = some call.progress := by
        rw [List.getElem?_map, hcall, Option.map_some]
      rw [h, hwaiting] at hprogress
      cases hprogress
  induction answers with
  | nil => rfl
  | cons network rest ih => rw [List.map_cons, run_cons, hmove, ih]

/-- A search that returns something, with nothing that overlaps it. -/
theorem Browsing.of_found {request : Request} (hsearch : request.Searches) (before : State)
    {answers : List (String → Option Json)} {total : Nat} {page : PageOutcome}
    (hfound : ((System.idle before).run setup
      (.start request :: answers.map (.reply 0))).calls.map Invocation.progress =
        [.finished (.search (.found total page))]) :
    let searched := (System.idle before).run setup (.start request :: answers.map (.reply 0))
    Browsing setup searched.state.ids searched
      ((System.idle before).pages setup (.start request :: answers.map (.reply 0))) := by
  intro searched
  rcases Beginning.start setup hsearch before with hignored | hbeginning
  · rw [System.run_cons, System.run_replies_of_finished hignored, hignored] at hfound
    cases hfound
  · have hrun := hbeginning.run answers
    refine ⟨hrun.steady, rfl, fun i hstage ↦ ?_, hrun.consecutive⟩
    obtain ⟨call, hcall, hstage⟩ := Option.bind_eq_some_iff.mp hstage
    have hprogress : call.progress ∈ searched.calls.map Invocation.progress :=
      List.mem_map_of_mem (List.mem_of_getElem? hcall)
    rw [hfound, List.mem_singleton] at hprogress
    rw [hprogress] at hstage
    cases hstage

/-- Once the cursor is at the end, a page is refused. -/
theorem nextPage_of_end {s : State} (h : s.ids.length ≤ s.cursor) :
    ∃ outcome, Session.start setup s .nextPage = (s, .finished (.page outcome)) ∧
      (outcome = .busy ∨ outcome = .exhausted) := by
  simp only [Session.start]
  split
  · exact ⟨.busy, rfl, .inl rfl⟩
  · cases hfetching : s.fetching with
    | true =>
      have hrefusal : s.refusal? setup = some .busy := by rw [State.refusal?, hfetching, if_pos rfl]
      exact ⟨.busy, startPage_of_refusal? hrefusal none, .inl rfl⟩
    | false =>
      have hrefusal : s.refusal? setup = some .exhausted := by
        rw [State.refusal?, hfetching, if_neg Bool.false_ne_true, if_pos h]
      exact ⟨.exhausted, startPage_of_refusal? hrefusal none, .inr rfl⟩

/-- Only then is the answer that the ids are used up. -/
theorem end_of_exhausted {s after : State}
    (h : Session.start setup s .nextPage = (after, .finished (.page .exhausted))) :
    s.ids.length ≤ s.cursor := by
  simp only [Session.start] at h
  split at h
  · cases h
  · cases hrefusal : s.refusal? setup with
    | some outcome =>
      rw [startPage_of_refusal? hrefusal] at h
      obtain rfl : outcome = .exhausted := by
        injection h with _ h
        injection h with h
        injection h
      exact (State.length_le_cursor_of_refusal? hrefusal).2
    | none =>
      have htask := (startPage_of_refusal?_eq_none (fun _ ↦ none) hrefusal none).2
      rw [h] at htask
      cases htask

end Browsing

/-! ### Pages that end -/

/-- The documents that a session has loaded can be sorted: the ranking orders them, or the index
does and they stay as they are. -/
def State.Sortable (s : State) : Prop :=
  s.ranking.indexKey?.isSome = true ∨ Document.TotalPreorder s.ranking s.loaded

instance (s : State) : Decidable s.Sortable :=
  inferInstanceAs (Decidable (_ ∨ _))

namespace System

variable (setup : Setup)

/-- The call whose page a move ends with documents that cannot be sorted. -/
def unsortableEntry (y : System) (m : Move) : List Nat :=
  if (y.move setup m).state.Sortable then [] else y.endEntry setup m

/-- The calls whose pages end in a run with documents that cannot be sorted. -/
def unsortable : System → List Move → List Nat := record setup (unsortableEntry setup)

end System

/-- The listing is browsed, with its first page. -/
def browsingMoves : List Move :=
  .start (.search "" true) :: [smallNetwork, smallNetwork].map (.reply 0)

/-- A page whose read fails, with one that finds it under way, and one that finds no ids left. -/
def turningMoves : List Move :=
  [.start .nextPage, .start .exportAll, .start .nextPage, .reply 1 fun _ ↦ none, .start .nextPage]

end ShardSearch.Session
