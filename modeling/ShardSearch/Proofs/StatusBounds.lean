import Mathlib.Algebra.BigOperators.Intervals
import ShardSearch.Proofs.FlagRelease

/-!
What a session shows of its progress. As long as no search overlaps another call
(`System.SearchesApart`), the documents on show are never more than the ids before the cursor, and
the cursor is never beyond the ids. Pages, exports and choices of a ranking may overlap, and reads
may get anything at any time.

The bound on the documents is an account. A page that is under way may still bring as many documents
as it has ids, whatever its files hold (`Document.always_load`). What is on show, with the room for
what the pages under way may bring, is within the cursor (`System.Accounted`): taking a page moves
the cursor by as much as it makes room for, and a page that ends fills no more than its own room.
The bound on the cursor needs that no page is taken while a search looks for its ids, since it
installs them without a look at the cursor (`System.SearchesAlone`).
-/

set_option autoImplicit false

namespace ShardSearch

/-! ### Values of computations -/

namespace Fetch

variable {α β : Type}

/-- Whatever the answers, the value of a computation has a property. -/
def Always (p : α → Prop) : Fetch α → Prop
  | done a => p a
  | read _ next => ∀ answer, (next answer).Always p

theorem always_bind {p : β → Prop} {f : α → Fetch β} (h : ∀ a, (f a).Always p) (m : Fetch α) :
    (m.bind f).Always p := by
  induction m with
  | done a => exact h a
  | read url next ih => exact ih

end Fetch

/-- No more documents are loaded than ids are wanted. -/
theorem Document.always_load (m : Manifest) (ids : List Nat) :
    (load m ids).Always (·.length ≤ ids.length) := by
  refine Fetch.always_bind (fun bodies ↦ ?_) _
  exact List.length_filterMap_le _ ids

namespace Session

/-! ### Searches apart from other calls -/

instance : DecidablePred Request.Searches
  | .search _ _ => isTrue trivial
  | .rerun => isTrue trivial
  | .nextPage => isFalse id
  | .exportAll => isFalse id
  | .rank _ => isFalse id

/-- A move that keeps searches apart: a search begins once all calls have returned, and no call
begins before a search has returned. -/
def Move.Apart (y : System) : Move → Prop
  | start request => (request.Searches → y.Quiescent) ∧
      ∀ call ∈ y.calls, call.request.Searches → call.progress.isFinished = true
  | reply _ _ => True

instance (y : System) : DecidablePred (Move.Apart y)
  | .start _ => inferInstanceAs (Decidable (_ ∧ _))
  | .reply _ _ => inferInstanceAs (Decidable True)

/-- No search of a run overlaps another call. -/
def System.SearchesApart (setup : Setup) : System → List Move → Prop
  | _, [] => True
  | y, m :: rest => m.Apart y ∧ SearchesApart setup (y.move setup m) rest

instance System.decidableSearchesApart (setup : Setup) :
    ∀ (y : System) (moves : List Move), Decidable (y.SearchesApart setup moves)
  | _, [] => inferInstanceAs (Decidable True)
  | y, m :: rest =>
    have := decidableSearchesApart setup (y.move setup m) rest
    inferInstanceAs (Decidable (_ ∧ _))

/-! ### Room for documents -/

/-- A call that goes on brings at most so many documents. -/
def Call.Brings (room : Nat) : Call → Prop
  | page _ _ _ documents => documents.Always (·.length ≤ room)
  | _ => True

/-- A call that waits brings at most so many documents, whatever its reads get. -/
def Progress.Brings (room : Nat) (p : Progress) : Prop :=
  p.Confined (Call.Brings room) fun _ ↦ True

/-- The cursor has room for so many more documents, and is within the ids. -/
structure State.HasRoom (s : State) (room : Nat) : Prop where
  loaded_le : s.loaded.length + room ≤ s.cursor
  cursor_le : s.cursor ≤ s.ids.length

section Steps

variable {setup : Setup} {s : State} {others room : Nat}

theorem State.length_pageIds (setup : Setup) (s : State) :
    (s.pageIds setup).length = s.pageEnd setup - s.cursor := by
  rw [pageIds, List.length_drop, List.length_take, pageEnd, Nat.min_assoc, Nat.min_self]

/-- The documents of a page fill the room that was made for them. -/
theorem hasRoom_continuePage (h : s.HasRoom (others + room)) (search : Option Nat)
    (cursor total : Nat) {documents : Fetch (List Document)}
    (hbrings : documents.Always (·.length ≤ room)) :
    ∃ left, (continuePage s search cursor total documents).1.HasRoom (others + left) ∧
      (continuePage s search cursor total documents).2.Brings left := by
  cases documents with
  | done documents =>
    refine ⟨0, ⟨?_, h.cursor_le⟩, trivial⟩
    have hpassing : (documents.filter (PostFilter.allAccept s.filters)).length ≤ room :=
      Nat.le_trans (List.length_filter_le _ documents) hbrings
    have hloaded := (s.loaded_append_perm
      (documents.filter (PostFilter.allAccept s.filters))).length_eq
    rw [List.length_append] at hloaded
    have hle := h.loaded_le
    change (s.append (documents.filter (PostFilter.allAccept s.filters))).loaded.length +
      (others + 0) ≤ s.cursor
    omega
  | read url next => exact ⟨room, h, hbrings⟩

/-- A page that is taken makes as much room as it has ids. -/
theorem hasRoom_startPage (h : s.HasRoom others) (search : Option Nat) :
    ∃ room, (startPage setup s search).1.HasRoom (others + room) ∧
      (startPage setup s search).2.Brings room := by
  cases hrefusal : s.refusal? setup with
  | some outcome =>
    rw [startPage_of_refusal? hrefusal]
    exact ⟨0, h, trivial⟩
  | none =>
    obtain ⟨-, hcursor, -⟩ := State.refusal?_eq_none.mp hrefusal
    have htaken : (s.taken setup).HasRoom (others + (s.pageIds setup).length) := by
      refine ⟨?_, Nat.min_le_right _ _⟩
      change s.loaded.length + (others + (s.pageIds setup).length) ≤ s.pageEnd setup
      have hle := h.loaded_le
      have hforward : s.cursor ≤ s.pageEnd setup :=
        Nat.le_min.mpr ⟨Nat.le_add_right _ _, Nat.le_of_lt hcursor⟩
      rw [State.length_pageIds]
      omega
    rw [startPage_eq, hrefusal]
    exact hasRoom_continuePage htaken search _ _ (Document.always_load _ _)

/-- A search installs its ids on a session whose cursor is at their beginning, so that nothing is on
show and nothing under way. -/
theorem State.HasRoom.install (h : s.HasRoom (others + room)) (hcursor : s.cursor = 0)
    (filters : List PostFilter) (ids : List Nat) :
    State.HasRoom { s with filters := filters, ids := ids } others := by
  have hle := h.loaded_le
  refine ⟨?_, ?_⟩
  · change s.loaded.length + others ≤ s.cursor
    omega
  · change s.cursor ≤ ids.length
    omega

variable (setup) in
theorem hasRoom_resume (h : s.HasRoom (others + room)) {call : Call} (hbrings : call.Brings room)
    (hsearching : call.stage = .searching → s.cursor = 0) :
    ∃ left, (resume setup s call).1.HasRoom (others + left) ∧
      (resume setup s call).2.Brings left := by
  cases call with
  | browse ids =>
    cases ids with
    | done ids => exact hasRoom_startPage (h.install (hsearching rfl) s.filters ids) _
    | read url next => exact ⟨room, h, fun _ ↦ trivial⟩
  | find filters ids =>
    cases ids with
    | done ids =>
      rw [resume, continueFind]
      split
      · exact ⟨room, h, trivial⟩
      · exact hasRoom_startPage (h.install (hsearching rfl) filters ids) _
    | read url next => exact ⟨room, h, fun _ ↦ trivial⟩
  | page search cursor total documents => exact hasRoom_continuePage h search cursor total hbrings
  | exportAll filters ranking documents =>
    cases documents with
    | done documents => exact ⟨room, ⟨h.loaded_le, h.cursor_le⟩, trivial⟩
    | read url next => exact ⟨room, h, fun _ ↦ trivial⟩

variable (setup) in
/-- A search begins with nothing on show, so it needs that nothing is under way either. -/
theorem hasRoom_start (h : s.HasRoom others) {request : Request}
    (hsearch : request.Searches → others = 0) :
    ∃ room, (start setup s request).1.HasRoom (others + room) ∧
      (start setup s request).2.Brings room := by
  have hsearches : request.Searches → ∃ room, (start setup s request).1.HasRoom (others + room) ∧
      (start setup s request).2.Brings room := by
    intro hrequest
    obtain rfl := hsearch hrequest
    rcases start_search_cases setup hrequest s with hignored | ⟨query, hresume⟩
    · rw [hignored]
      exact ⟨0, h, trivial⟩
    · have hreset : (s.reset query).HasRoom (0 + 0) := ⟨Nat.le_refl 0, Nat.le_refl 0⟩
      have hbrings : (searchCall setup s.ranking query).Brings 0 := by
        unfold searchCall
        split <;> trivial
      rw [hresume]
      exact hasRoom_resume setup hreset hbrings fun _ ↦ rfl
  cases request with
  | search text first => exact hsearches trivial
  | rerun => exact hsearches trivial
  | nextPage =>
    simp only [start]
    split
    · exact ⟨0, h, trivial⟩
    · exact hasRoom_startPage h none
  | exportAll =>
    rw [start, startExport_eq]
    split
    · exact ⟨0, h, trivial⟩
    · have hflagged : State.HasRoom { s with exporting := true } (others + 0) :=
        ⟨h.loaded_le, h.cursor_le⟩
      exact hasRoom_resume setup hflagged trivial Stage.noConfusion
  | rank field =>
    refine ⟨0, ?_, trivial⟩
    simp only [start, chooseRanking]
    split
    · exact ⟨h.loaded_le, h.cursor_le⟩
    · have hlength := (Document.sortBy_perm (s.ranking.choose field) s.loaded).length_eq
      have hle := h.loaded_le
      rw [← hlength] at hle
      exact ⟨hle, h.cursor_le⟩

/-- A step after which a call looks for ids is a read and nothing else. -/
theorem resume_of_searching {call : Call}
    (h : (resume setup s call).2.stage? = some .searching) :
    (resume setup s call).1 = s ∧ call.stage = .searching := by
  rw [← Call.stage_task fun _ ↦ none]
  rcases resume_cases setup (fun _ ↦ none) s call with ⟨hstate, htask⟩ | hfinish
  · rw [(steady_resume setup s call).stage?_eq htask] at h
    exact ⟨hstate, Option.some.inj h⟩
  · rw [hfinish] at h
    cases htask : call.task fun _ ↦ none with
    | browse ids =>
      rw [htask] at h
      exact absurd h (keepsIds_startPage _ _).not_searching
    | find filters ids =>
      rw [htask, Task.finish] at h
      split at h
      · cases h
      · exact absurd h (keepsIds_startPage _ _).not_searching
    | page search cursor total documents =>
      rw [htask] at h
      exact absurd h (Task.keepsIds_finish s Stage.noConfusion).not_searching
    | exportAll filters ranking documents =>
      rw [htask] at h
      exact absurd h (Task.keepsIds_finish s Stage.noConfusion).not_searching

/-- A call that begins by looking for ids is a search, and has turned the cursor back. -/
theorem start_of_searching {request : Request}
    (h : (start setup s request).2.stage? = some .searching) :
    request.Searches ∧ (start setup s request).1.cursor = 0 := by
  have hsearch : request.Searches := by
    by_contra hno
    exact (pageStep_start setup hno s).2.not_searching h
  refine ⟨hsearch, ?_⟩
  rcases start_search_cases setup hsearch s with hignored | ⟨query, hresume⟩
  · rw [hignored] at h
    cases h
  · rw [hresume] at h ⊢
    rw [(resume_of_searching h).1]
    rfl

end Steps

/-! ### Runs -/

theorem Progress.stage?_of_isFinished {p : Progress} (h : p.isFinished = true) :
    p.stage? = none := by
  obtain ⟨outcome, rfl⟩ := isFinished_iff.mp h
  rfl

namespace System

/-- While a search looks for its ids, it is the only call under way and the cursor is at the
beginning. -/
def SearchesAlone (y : System) : Prop :=
  ∀ (i : Nat) (call : Invocation), y.calls[i]? = some call →
    call.progress.stage? = some .searching → call.request.Searches ∧ y.state.cursor = 0 ∧
      ∀ (j : Nat) (other : Invocation), j ≠ i → y.calls[j]? = some other →
        other.progress.isFinished = true

/-- The cursor has room for all documents that the calls of a session may still bring. -/
structure Accounted (y : System) (room : Nat → Nat) : Prop where
  brings : ∀ (i : Nat) (call : Invocation), y.calls[i]? = some call →
    call.progress.Brings (room i)
  hasRoom : y.state.HasRoom (∑ i ∈ Finset.range y.calls.length, room i)

section Moves

variable {setup : Setup} {y : System} {room : Nat → Nat}

theorem SearchesAlone.start (h : y.SearchesAlone) {request : Request}
    (hapart : (Move.start request).Apart y) : (y.move setup (.start request)).SearchesAlone := by
  obtain ⟨hquiescent, hreturned⟩ := hapart
  intro i call hcall hstage
  by_cases hi : i = y.calls.length
  · subst hi
    rw [calls_move_start] at hcall
    obtain rfl := Option.some.inj hcall
    obtain ⟨hsearch, hcursor⟩ := start_of_searching hstage
    refine ⟨hsearch, hcursor, fun j other hj hother ↦ ?_⟩
    rw [calls_move_of_ne hj] at hother
    exact Progress.isFinished_iff.mpr (hquiescent hsearch other (List.mem_of_getElem? hother))
  · rw [calls_move_of_ne hi] at hcall
    obtain ⟨hsearch, -⟩ := h i call hcall hstage
    rw [Progress.stage?_of_isFinished (hreturned call (List.mem_of_getElem? hcall) hsearch)] at hstage
    cases hstage

theorem SearchesAlone.reply (hsteady : y.Steady) (h : y.SearchesAlone) (i : Nat)
    (network : String → Option Json) : (y.move setup (.reply i network)).SearchesAlone := by
  rcases move_reply_eq setup network y i with hsame | ⟨found, url, next, hfound, hwaiting, hmove⟩
  · rw [hsame]
    exact h
  · obtain ⟨hi, -⟩ := List.getElem?_eq_some_iff.mp hfound
    have hstageFound := hsteady.stage_next (List.mem_of_getElem? hfound) hwaiting (network url)
    intro j call hcall hstage
    by_cases hj : j = i
    · subst hj
      rw [hmove, List.getElem?_set_self hi] at hcall
      obtain rfl := Option.some.inj hcall
      obtain ⟨hstate, hsearching⟩ := resume_of_searching hstage
      rw [hsearching] at hstageFound
      obtain ⟨hsearch, hcursor, hothers⟩ := h j found hfound hstageFound
      refine ⟨hsearch, ?_, fun k other hk hother ↦ ?_⟩
      · rw [hmove, hstate, hcursor]
      · rw [calls_move_of_ne hk] at hother
        exact hothers k other hk hother
    · -- The call that takes the step waits, which no call does beside one that looks for ids.
      rw [calls_move_of_ne hj] at hcall
      obtain ⟨-, -, hothers⟩ := h j call hcall hstage
      have hfinished := hothers i found (Ne.symm hj) hfound
      rw [hwaiting] at hfinished
      cases hfinished

/-- Once all calls have returned, none of them brings anything. -/
theorem Accounted.of_quiescent (h : y.Accounted room) (hquiescent : y.Quiescent) :
    y.Accounted fun _ ↦ 0 where
  brings i call hcall := by
    obtain ⟨outcome, hfinished⟩ := hquiescent call (List.mem_of_getElem? hcall)
    rw [hfinished]
    trivial
  hasRoom := by
    rw [Finset.sum_const_zero]
    exact ⟨Nat.le_trans (Nat.le_add_right _ _) h.hasRoom.loaded_le, h.hasRoom.cursor_le⟩

theorem Accounted.start (h : y.Accounted room) {request : Request}
    (hapart : (Move.start request).Apart y) :
    ∃ after, (y.move setup (.start request)).Accounted after := by
  -- A search finds all calls returned, so that none of them needs its room any more.
  obtain ⟨before, hbefore, hsearch⟩ : ∃ before, y.Accounted before ∧ (request.Searches →
      ∑ i ∈ Finset.range y.calls.length, before i = 0) := by
    by_cases hrequest : request.Searches
    · exact ⟨_, h.of_quiescent (hapart.1 hrequest), fun _ ↦ Finset.sum_const_zero⟩
    · exact ⟨room, h, fun hsearch ↦ absurd hsearch hrequest⟩
  obtain ⟨new, hroom, hbrings⟩ := hasRoom_start setup hbefore.hasRoom hsearch
  refine ⟨Function.update before y.calls.length new, ?_, ?_⟩
  · intro i call hcall
    by_cases hi : i = y.calls.length
    · subst hi
      rw [calls_move_start] at hcall
      obtain rfl := Option.some.inj hcall
      rw [Function.update_self]
      exact hbrings
    · rw [calls_move_of_ne hi] at hcall
      rw [Function.update_of_ne hi]
      exact hbefore.brings i call hcall
  · rw [move_start, List.length_append, List.length_singleton, Finset.sum_range_succ,
      Finset.sum_update_of_notMem Finset.notMem_range_self, Function.update_self]
    exact hroom

theorem Accounted.reply (hsteady : y.Steady) (halone : y.SearchesAlone) (h : y.Accounted room)
    (i : Nat) (network : String → Option Json) :
    ∃ after, (y.move setup (.reply i network)).Accounted after := by
  rcases move_reply_eq setup network y i with hsame | ⟨found, url, next, hfound, hwaiting, hmove⟩
  · rw [hsame]
    exact ⟨room, h⟩
  · obtain ⟨hi, -⟩ := List.getElem?_eq_some_iff.mp hfound
    have hmem : i ∈ Finset.range y.calls.length := Finset.mem_range.mpr hi
    have hbrings : (next (network url)).Brings (room i) := by
      have hwaits := h.brings i found hfound
      rw [hwaiting] at hwaits
      exact hwaits (network url)
    have hcursor : (next (network url)).stage = .searching → y.state.cursor = 0 := by
      intro hsearching
      have hstage := hsteady.stage_next (List.mem_of_getElem? hfound) hwaiting (network url)
      rw [hsearching] at hstage
      exact (halone i found hfound hstage).2.1
    -- Only the room of the call that takes the step changes.
    have hroom := h.hasRoom
    rw [← Finset.sum_erase_add _ room hmem] at hroom
    obtain ⟨left, hleft, hnow⟩ := hasRoom_resume setup hroom hbrings hcursor
    refine ⟨Function.update room i left, ?_, ?_⟩
    · intro j call hcall
      by_cases hj : j = i
      · subst hj
        rw [hmove, List.getElem?_set_self hi] at hcall
        obtain rfl := Option.some.inj hcall
        rw [Function.update_self]
        exact hnow
      · rw [calls_move_of_ne hj] at hcall
        rw [Function.update_of_ne hj]
        exact h.brings j call hcall
    · rw [hmove, List.length_set, Finset.sum_update_of_mem hmem, Finset.sdiff_singleton_eq_erase,
        Nat.add_comm]
      exact hleft

/-- A session on which searches have been kept apart. -/
structure Bounded (y : System) : Prop where
  steady : y.Steady
  alone : y.SearchesAlone
  accounted : ∃ room, y.Accounted room

theorem Bounded.move (h : y.Bounded) {m : Move} (hapart : m.Apart y) :
    (y.move setup m).Bounded := by
  obtain ⟨room, haccounted⟩ := h.accounted
  cases m with
  | start request =>
    exact ⟨h.steady.move setup _, h.alone.start hapart, haccounted.start hapart⟩
  | reply i network =>
    exact ⟨h.steady.move setup _, h.alone.reply h.steady i network,
      haccounted.reply h.steady h.alone i network⟩

theorem Bounded.run (h : y.Bounded) {moves : List Move} (hapart : y.SearchesApart setup moves) :
    (y.run setup moves).Bounded := by
  induction moves generalizing y with
  | nil => exact h
  | cons m rest ih => exact ih (h.move hapart.1) hapart.2

theorem bounded_opened (setup : Setup) : (System.opened setup).Bounded where
  steady := steady_idle _
  alone _ _ hcall := absurd (List.mem_of_getElem? hcall) List.not_mem_nil
  accounted := ⟨fun _ ↦ 0, fun _ _ hcall ↦ absurd (List.mem_of_getElem? hcall) List.not_mem_nil,
    Nat.le_refl 0, Nat.le_refl 0⟩

end Moves

end System

/-- A page that begins while both flags are free and the ids are used up is refused for this. -/
theorem start_nextPage_of_end {setup : Setup} {s : State} (hexporting : s.exporting = false)
    (hfetching : s.fetching = false) (hend : s.ids.length ≤ s.cursor) :
    start setup s .nextPage = (s, .finished (.page .exhausted)) := by
  have hrefusal : s.refusal? setup = some .exhausted := by
    rw [State.refusal?, hfetching, if_neg Bool.false_ne_true, if_pos hend]
  rw [start, hexporting, if_neg Bool.false_ne_true]
  exact startPage_of_refusal? hrefusal none

/-- At every moment of a history in which no search overlaps another call, no more documents are on
show than the cursor says, and the cursor is within the ids. Once all calls have returned and no
more documents are said to be available, the cursor is thus at the end of the ids, and a further
page finds none left. -/
theorem status_within_bounds (setup : Setup) (moves : List Move)
    (hapart : (System.opened setup).SearchesApart setup moves) :
    let y := (System.opened setup).run setup moves
    (y.state.status.shown ≤ y.state.status.cursor ∧
        y.state.status.cursor ≤ y.state.status.total) ∧
      (y.Quiescent → y.state.status.moreAvailable = false →
        y.state.status.cursor = y.state.status.total ∧
          start setup y.state .nextPage = (y.state, .finished (.page .exhausted))) := by
  intro y
  have hbounded : y.Bounded := (System.bounded_opened setup).run hapart
  obtain ⟨room, -, hroom⟩ := hbounded.accounted
  have hshown : y.state.loaded.length ≤ y.state.cursor :=
    Nat.le_trans (Nat.le_add_right _ _) hroom.loaded_le
  refine ⟨⟨hshown, hroom.cursor_le⟩, fun hquiescent hmore ↦ ?_⟩
  have hsteady : (System.opened setup).Steady := System.steady_idle _
  have hexporting := (System.ExportsCounted.run (y := System.opened setup) hsteady
    (System.ofKind_idle _) rfl moves).exporting_eq_false hquiescent
  have hfetching := (System.PagesWhileSet.run (y := System.opened setup) hsteady
    (fun hset ↦ absurd hset Bool.false_ne_true) moves).fetching_eq_false hquiescent
  have hall : y.state.ids.length ≤ y.state.loaded.length := by
    rw [Status.moreAvailable, decide_eq_false_iff_not, Nat.not_lt] at hmore
    exact hmore
  have hend : y.state.ids.length ≤ y.state.cursor := Nat.le_trans hall hshown
  exact ⟨Nat.le_antisymm hroom.cursor_le hend, start_nextPage_of_end hexporting hfetching hend⟩

/-- The listing is browsed in vain, since the file of the documents cannot be read. It is browsed
again, and then a page and a choice of the ranking overlap an export. -/
def countedMoves : List Move :=
  [.start (.search "" true), .reply 0 smallNetwork, .reply 0 fun _ ↦ none, .start .rerun,
    .reply 1 smallNetwork, .reply 1 smallNetwork, .start .nextPage, .start .exportAll,
    .reply 2 smallNetwork, .start (.rank .guildName), .reply 3 smallNetwork]

theorem counted_status_within_bounds :
    let y := (System.opened smallSetup).run smallSetup countedMoves
    (y.Quiescent ∧ y.state.status.moreAvailable = false) ∧
      y.state.status.cursor = y.state.status.total ∧
        start smallSetup y.state .nextPage = (y.state, .finished (.page .exhausted)) := by
  intro y
  have hquiescent : y.Quiescent := by decide +kernel
  have hmore : y.state.status.moreAvailable = false := by decide +kernel
  obtain ⟨-, hend⟩ := status_within_bounds smallSetup countedMoves (by decide +kernel)
  exact ⟨⟨hquiescent, hmore⟩, hend hquiescent hmore⟩

end Session

end ShardSearch
