import ShardSearch.Proofs.FlagRelease

/-!
Calls that are refused: a search without a query, a page beside another one or after the last one,
an export beside another one or of nothing. A call that has once waited for a read is never refused
(`not_refused_resume`), whatever has happened to the session meanwhile, so a refused call is one that
has returned in its first step. That step leaves the session as it is (`start_of_refused`), and
there is no other: `System.readsOf` records the addresses that a call asks for in a run, and a
refused call asks for none.
-/

set_option autoImplicit false

namespace ShardSearch.Session

/-- The answers of calls that do not do what they are asked for. -/
inductive Outcome.Refused : Outcome → Prop where
  | ignored : Refused (.search .ignored)
  | busy : Refused (.page .busy)
  | exhausted : Refused (.page .exhausted)
  | nothing : Refused (.exported none)

/-- The address that a call waits for. -/
def Progress.url? : Progress → Option String
  | waiting url _ => some url
  | finished _ => none

namespace System

/-- The address that a call asks for in a move, if this is a step of the call. -/
def readEntry (setup : Setup) (i : Nat) (y : System) (m : Move) : List String :=
  if m.call y = i then ((y.move setup m).calls[i]?.bind (·.progress.url?)).toList else []

/-- The addresses that a call asks for in a run, one after the other. -/
def readsOf (setup : Setup) (i : Nat) : System → List Move → List String :=
  record setup (readEntry setup i)

end System

section Refused

variable {setup : Setup}

/-! ### Steps -/

/-- The first page of a search does not decide whether the search is refused. -/
theorem not_refused_pageFinished (total : Nat) (outcome : PageOutcome) :
    (pageFinished (some total) outcome).Confined (fun _ ↦ True) (¬ ·.Refused) := by
  rintro ⟨⟩

theorem not_refused_continuePage (s : State) (search : Option Nat) (cursor total : Nat)
    (documents : Fetch (List Document)) :
    (continuePage s search cursor total documents).2.Confined (fun _ ↦ True) (¬ ·.Refused) := by
  cases documents with
  | done documents => cases search <;> rintro ⟨⟩
  | read url next => exact fun _ ↦ trivial

theorem not_refused_startPage (s : State) (total : Nat) :
    (startPage setup s (some total)).2.Confined (fun _ ↦ True) (¬ ·.Refused) := by
  rw [startPage_eq]
  split
  · exact not_refused_pageFinished total _
  · exact not_refused_continuePage _ _ _ _ _

variable (setup) in
/-- A call that goes on is not refused any more. -/
theorem not_refused_resume (s : State) (call : Call) :
    (resume setup s call).2.Confined (fun _ ↦ True) (¬ ·.Refused) := by
  cases call with
  | browse ids =>
    cases ids with
    | done ids => exact not_refused_startPage _ _
    | read url next => exact fun _ ↦ trivial
  | find filters ids =>
    cases ids with
    | done ids =>
      rw [resume, continueFind]
      split
      · rintro ⟨⟩
      · exact not_refused_startPage _ _
    | read url next => exact fun _ ↦ trivial
  | page search cursor total documents => exact not_refused_continuePage _ _ _ _ _
  | exportAll filters ranking documents =>
    cases documents with
    | done documents => rintro ⟨⟩
    | read url next => exact fun _ ↦ trivial

/-- A first step in which a call is refused leaves the state as it is. -/
theorem start_of_refused {s : State} {request : Request} {outcome : Outcome}
    (h : (start setup s request).2 = .finished outcome) (hrefused : outcome.Refused) :
    (start setup s request).1 = s := by
  -- The first step has not gone on with a call, since it would then not have been refused.
  have hresume : ∀ t call, start setup s request ≠ resume setup t call := by
    intro t call hstart
    have hconfined := not_refused_resume setup t call
    rw [← hstart, h] at hconfined
    exact hconfined hrefused
  have hsearch : request.Searches → (start setup s request).1 = s := by
    intro hsearch
    rcases start_search_cases setup hsearch s with hignored | ⟨query, hstart⟩
    · rw [hignored]
    · exact absurd hstart (hresume _ _)
  cases request with
  | search text first => exact hsearch trivial
  | rerun => exact hsearch trivial
  | nextPage =>
    simp only [start] at h ⊢
    split at h
    · next hexporting => rw [if_pos hexporting]
    · next hexporting =>
      rw [if_neg hexporting]
      cases hrefusal : s.refusal? setup with
      | some outcome => rw [startPage_of_refusal? hrefusal]
      | none =>
        have htask := (startPage_of_refusal?_eq_none (fun _ ↦ none) hrefusal none).2
        rw [h] at htask
        cases htask
  | exportAll =>
    rw [start, startExport_eq] at hresume ⊢
    split
    · rfl
    · next haccepted =>
      rw [if_neg haccepted] at hresume
      exact absurd rfl (hresume _ _)
  | rank field =>
    cases h
    cases hrefused

/-! ### Runs -/

namespace System

variable {y : System} {request : Request} {outcome : Outcome}

/-- A call that is refused in the end is refused at once. -/
theorem start_of_refused_run {later : List Move} {call : Invocation}
    (hcall : (y.run setup (.start request :: later)).calls[y.calls.length]? = some call)
    (hfinished : call.progress = .finished outcome) (hrefused : outcome.Refused) :
    (Session.start setup y.state request).2 = .finished outcome := by
  cases hfirst : (Session.start setup y.state request).2 with
  | waiting url next =>
    have hconfined : (Session.start setup y.state request).2.Confined (fun _ ↦ True)
        (¬ ·.Refused) := by
      rw [hfirst]
      exact fun _ ↦ trivial
    obtain ⟨progress, hprogress, hlast⟩ := exists_confined_run
      (fun s call _ ↦ not_refused_resume setup s call) hconfined later
    obtain rfl := Option.some.inj (hcall.symm.trans hprogress)
    obtain rfl : progress = .finished outcome := hfinished
    exact absurd hrefused hlast
  | finished other =>
    have hnew : (y.move setup (.start request)).calls[y.calls.length]? =
        some ⟨request, y.state, (Session.start setup y.state request).2⟩ :=
      calls_move_start request
    obtain ⟨progress, hprogress, hlast⟩ := exists_progress_run
      (motive := fun p ↦ p = .finished other) (fun _ _ _ _ h ↦ by cases h) hnew hfirst later
    obtain rfl := Option.some.inj (hcall.symm.trans hprogress)
    exact hlast.symm.trans hfinished

/-- A call that has returned takes no more steps. -/
theorem move_reply_of_finished {i : Nat} {call : Invocation} (hcall : y.calls[i]? = some call)
    (hfinished : call.progress = .finished outcome) (network : String → Option Json) :
    y.move setup (.reply i network) = y := by
  rcases move_reply_eq setup network y i with hsame | ⟨other, url, next, hother, hwaiting, -⟩
  · exact hsame
  · obtain rfl := Option.some.inj (hcall.symm.trans hother)
    rw [hfinished] at hwaiting
    cases hwaiting

theorem readEntry_of_finished {i : Nat} {call : Invocation} {m : Move}
    (hcall : (y.move setup m).calls[i]? = some call)
    (hfinished : call.progress = .finished outcome) : y.readEntry setup i m = [] := by
  rw [readEntry, hcall, Option.bind_some, hfinished]
  exact ite_self _

/-- A call that has returned asks for nothing more. -/
theorem readsOf_of_finished {i : Nat} {call : Invocation} (hcall : y.calls[i]? = some call)
    (hfinished : call.progress = .finished outcome) (moves : List Move) :
    y.readsOf setup i moves = [] := by
  induction moves generalizing y call with
  | nil => rfl
  | cons m rest ih =>
    have hreturned : ∃ progress, (y.move setup m).calls[i]? =
        some ⟨call.request, call.before, progress⟩ ∧ progress = .finished outcome :=
      exists_progress_run (motive := fun p ↦ p = .finished outcome) (fun _ _ _ _ h ↦ by cases h)
        hcall hfinished [m]
    obtain ⟨progress, hprogress, rfl⟩ := hreturned
    rw [readsOf, record, readEntry_of_finished hprogress rfl, List.nil_append]
    exact ih hprogress rfl

end System

end Refused

/-- A call that is refused at some time, whatever else is done on the session before and after it
begins, has left the session as it found it, with both flags; it asks for no read, and an answer
that is meant for it changes nothing. -/
theorem refused_calls_change_nothing (setup : Setup) (earlier : List Move) (request : Request)
    (later : List Move) {outcome : Outcome} (hrefused : outcome.Refused)
    (hcall : ((System.opened setup).run setup (earlier ++ .start request :: later)).calls[
      ((System.opened setup).run setup earlier).calls.length]?.map Invocation.progress =
        some (.finished outcome)) :
    let y := (System.opened setup).run setup earlier
    let z := (System.opened setup).run setup (earlier ++ .start request :: later)
    (y.move setup (.start request)).state = y.state ∧
      y.readsOf setup y.calls.length (.start request :: later) = [] ∧
      ∀ network, z.move setup (.reply y.calls.length network) = z := by
  intro y z
  obtain ⟨call, hcall, hfinished⟩ := Option.map_eq_some_iff.mp hcall
  have hrun : z = y.run setup (.start request :: later) := System.run_append setup _ earlier _
  have hlast : (y.run setup (.start request :: later)).calls[y.calls.length]? = some call := by
    rw [← hrun]
    exact hcall
  have hfirst := System.start_of_refused_run hlast hfinished hrefused
  have hnew : (y.move setup (.start request)).calls[y.calls.length]? =
      some ⟨request, y.state, .finished outcome⟩ := by
    rw [← hfirst]
    exact System.calls_move_start request
  refine ⟨start_of_refused hfirst hrefused, ?_, ?_⟩
  · rw [System.readsOf, System.record, System.readEntry_of_finished hnew rfl, List.nil_append]
    exact System.readsOf_of_finished hnew rfl later
  · exact System.move_reply_of_finished hcall hfinished

/-- The listing is browsed, and a page and an export are under way. -/
def crowdingMoves : List Move :=
  [.start (.search "" true), .reply 0 smallNetwork, .reply 0 smallNetwork, .start .nextPage,
    .start .exportAll]

/-- The page and the export go on, beside one more search. -/
def clearingMoves : List Move :=
  [.reply 1 smallNetwork, .start .rerun, .reply 2 smallNetwork, .reply 4 smallNetwork]

theorem crowded_calls_change_nothing :
    let y := (System.opened smallSetup).run smallSetup crowdingMoves
    (y.state.fetching = true ∧ y.state.exporting = true) ∧
      ((y.move smallSetup (.start .exportAll)).state = y.state ∧
        y.readsOf smallSetup 3 (.start .exportAll :: clearingMoves) = []) ∧
      (y.move smallSetup (.start .nextPage)).state = y.state ∧
        y.readsOf smallSetup 3 (.start .nextPage :: clearingMoves) = [] := by
  intro y
  obtain ⟨hexport, hexportReads, -⟩ := refused_calls_change_nothing smallSetup crowdingMoves
    .exportAll clearingMoves .nothing rfl
  obtain ⟨hpage, hpageReads, -⟩ := refused_calls_change_nothing smallSetup crowdingMoves
    .nextPage clearingMoves .busy rfl
  exact ⟨by decide +kernel, ⟨hexport, hexportReads⟩, hpage, hpageReads⟩

end ShardSearch.Session
