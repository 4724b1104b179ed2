import ShardSearch.Proofs.ExportFlag
import ShardSearch.Proofs.ExportSnapshot

/-!
No flag stays set. The flag of exports is a lock: the exports that have not returned are counted by
it, so there is never more than one (`System.ExportsCounted`). The flag of loading is not, but
whoever sets it is loading a page until it frees the flag again, so while it is set some page is
being loaded (`System.PagesWhileSet`). Once all calls have returned, both flags are thus free, and
neither a page nor an export that then begins is refused for the sake of another one; whatever
follows, it keeps to what it began with (`System.exists_confined_run`).

The reads of a call may get anything here, and at any time something else.
-/

set_option autoImplicit false

namespace ShardSearch.Session

/-- An export that has not returned. -/
def Invocation.isExporting (call : Invocation) : Bool :=
  call.request.isExport && !call.progress.isFinished

/-- The number of exports that have not returned. -/
def System.exportsInFlight (y : System) : Nat := y.calls.countP (·.isExporting)

/-- The exports in flight are one if the flag of exports is set, and otherwise none. -/
def System.ExportsCounted (y : System) : Prop := y.exportsInFlight = y.state.exporting.toNat

/-- While the flag of loading is set, a page is being loaded. -/
def System.PagesWhileSet (y : System) : Prop :=
  y.state.fetching = true → ∃ i, y.paging i = true

section Flags

variable {setup : Setup} {y : System}

/-! ### The flag of exports -/

theorem System.exportsInFlight_start (request : Request) :
    (y.move setup (.start request)).exportsInFlight = y.exportsInFlight +
      if request.isExport && !(start setup y.state request).2.isFinished then 1 else 0 := by
  rw [exportsInFlight, move_start, List.countP_append, List.countP_singleton]
  rfl

/-- An export that begins sets the flag and is in flight, or it finds no use for it. -/
theorem isFinished_startExport (setup : Setup) (s : State) :
    ((startExport setup s).2.isFinished = true ∧
        (startExport setup s).1.exporting = s.exporting) ∨
      ((startExport setup s).2.isFinished = false ∧ s.exporting = false ∧
        (startExport setup s).1.exporting = true) := by
  by_cases hrefused : s.exporting = true ∨ s.ids = []
  · have hguard : (s.exporting || s.ids.isEmpty) = true := by simpa using hrefused
    rw [startExport_eq, if_pos hguard]
    exact .inl ⟨rfl, rfl⟩
  · rw [not_or, Bool.not_eq_true] at hrefused
    obtain ⟨hstate, htask⟩ :=
      startExport_of_accepted setup (fun _ ↦ none) hrefused.1 hrefused.2
    refine .inr ⟨?_, hrefused.1, by rw [hstate]⟩
    cases hprogress : (startExport setup s).2 with
    | waiting url next => rfl
    | finished outcome =>
      rw [hprogress] at htask
      cases htask

theorem System.ExportsCounted.start (h : y.ExportsCounted) (request : Request) :
    (y.move setup (.start request)).ExportsCounted := by
  rw [ExportsCounted] at h ⊢
  rw [exportsInFlight_start, h, move_start]
  cases hexport : request.isExport with
  | false =>
    rw [exporting_start_of_not_export setup hexport]
    rfl
  | true =>
    cases request <;> cases hexport
    rcases isFinished_startExport setup y.state with
      ⟨hfinished, hflag⟩ | ⟨hwaiting, hfree, hflag⟩
    · rw [Session.start, hfinished, hflag]
      rfl
    · rw [Session.start, hwaiting, hfree, hflag]
      rfl

/-- What an export that goes on has come to tells whether it has freed the flag. -/
theorem exporting_continueExport (s : State) (filters : List PostFilter) (ranking : Ranking)
    (documents : Fetch (List Document)) :
    (continueExport s filters ranking documents).1.exporting =
      (!(continueExport s filters ranking documents).2.isFinished && s.exporting) := by
  cases documents <;> rfl

theorem System.ExportsCounted.reply (hsteady : y.Steady) (hkind : y.OfKind)
    (h : y.ExportsCounted) (i : Nat) (network : String → Option Json) :
    (y.move setup (.reply i network)).ExportsCounted := by
  rcases move_reply_eq setup network y i with hsame | ⟨call, url, next, hcall, hwaiting, hmove⟩
  · rw [hsame]
    exact h
  · obtain ⟨hi, hget⟩ := List.getElem?_eq_some_iff.mp hcall
    have hmem : call ∈ y.calls := List.mem_of_getElem? hcall
    have hbefore : call.isExporting = call.request.isExport := by
      rw [Invocation.isExporting, hwaiting]
      exact Bool.and_true _
    rw [ExportsCounted, exportsInFlight] at h ⊢
    rw [hmove, List.countP_set hi, hget, hbefore, h, Invocation.isExporting]
    cases hexport : call.request.isExport with
    | false =>
      have hstage := hkind call hmem _ (hsteady.stage_next hmem hwaiting (network url))
      have hcallKind : (next (network url)).isExport = false := by
        cases hnext : next (network url) with
        | exportAll filters ranking documents =>
          rw [hnext, hexport] at hstage
          cases hstage.mp rfl
        | _ => rfl
      rw [(resume_frame setup y.state _).2.2 hcallKind]
      rfl
    | true =>
      obtain ⟨filters, ranking, documents, hnext⟩ := hkind.exists_exportAll hsteady hmem hexport
        hwaiting (network url)
      have hheld : y.state.exporting = true := by
        have hpositive : 0 < y.calls.countP (·.isExporting) :=
          List.countP_pos_iff.mpr ⟨call, hmem, hbefore.trans hexport⟩
        rw [h] at hpositive
        cases hflag : y.state.exporting with
        | false => rw [hflag] at hpositive; cases hpositive
        | true => rfl
      rw [hnext, resume, exporting_continueExport, hheld]
      cases (continueExport y.state filters ranking documents).2.isFinished <;> rfl

theorem System.ExportsCounted.run (hsteady : y.Steady) (hkind : y.OfKind) (h : y.ExportsCounted)
    (moves : List Move) : (y.run setup moves).ExportsCounted := by
  induction moves generalizing y with
  | nil => exact h
  | cons m rest ih =>
    refine ih (hsteady.move setup m) (hkind.move hsteady m) ?_
    cases m with
    | start request => exact h.start request
    | reply i network => exact h.reply hsteady hkind i network

/-! ### The flag of loading -/

/-- A step after which the flag is set has found it set, or its call is loading a page. -/
theorem PageStep.holder {s after : State} {before now : Option PageReport}
    {load : Fetch (List Document)} (h : PageStep setup s before after now load) (hset : after.fetching = true) :
    (s.fetching = true ∧ now = before) ∨ now.any (·.loading) = true := by
  cases h with
  | quiet fetching_eq cursor_eq report_eq => exact .inl ⟨fetching_eq.symm.trans hset, report_eq⟩
  | taken found fetching_eq cursor_eq accepted after_eq before_eq now_eq load_eq =>
    rw [now_eq]
    exact .inr rfl
  | ended cursor total before_eq now_eq fetching_eq cursor_eq =>
    exact absurd (fetching_eq.symm.trans hset) Bool.false_ne_true

theorem System.PagesWhileSet.of_step (h : y.PagesWhileSet) {m : Move} {s : State}
    (hfetching : s.fetching = true → y.state.fetching = true)
    (hstep : y.PageMove setup m s) : (y.move setup m).PagesWhileSet := by
  intro hset
  rcases hstep.holder hset with ⟨hheld, hreport⟩ | hloading
  · obtain ⟨i, hi⟩ := h (hfetching hheld)
    refine ⟨i, ?_⟩
    rw [paging] at hi ⊢
    by_cases hother : i = m.call y
    · rw [hother] at hi ⊢
      rw [hreport]
      exact hi
    · rw [report?_move_of_ne hother]
      exact hi
  · exact ⟨m.call y, hloading⟩

theorem System.PagesWhileSet.move (hsteady : y.Steady) (h : y.PagesWhileSet) (m : Move) :
    (y.move setup m).PagesWhileSet := by
  obtain ⟨s, hstep, hfetching, -⟩ := exists_pageMove setup hsteady m
  exact h.of_step hfetching hstep

theorem System.PagesWhileSet.run (hsteady : y.Steady) (h : y.PagesWhileSet) (moves : List Move) :
    (y.run setup moves).PagesWhileSet := by
  induction moves generalizing y with
  | nil => exact h
  | cons m rest ih => exact ih (hsteady.move setup m) (h.move hsteady m)

/-! ### Sessions on which all calls have returned -/

theorem Outcome.not_loading (outcome : Outcome) : outcome.report?.any (·.loading) = false := by
  cases outcome with
  | search outcome =>
    cases outcome with
    | found total page => cases page <;> rfl
    | _ => rfl
  | page outcome => cases outcome <;> rfl
  | exported documents => rfl
  | rank outcome => rfl

theorem System.PagesWhileSet.fetching_eq_false (h : y.PagesWhileSet) (hquiescent : y.Quiescent) :
    y.state.fetching = false := by
  rw [← Bool.not_eq_true]
  intro hset
  obtain ⟨i, hi⟩ := h hset
  rw [paging, report?] at hi
  cases hcall : y.calls[i]? with
  | none => rw [hcall] at hi; cases hi
  | some call =>
    obtain ⟨outcome, hfinished⟩ := hquiescent call (List.mem_of_getElem? hcall)
    rw [hcall, Option.bind_some, hfinished] at hi
    exact Bool.false_ne_true ((Outcome.not_loading outcome).symm.trans hi)

theorem System.ExportsCounted.exporting_eq_false (h : y.ExportsCounted)
    (hquiescent : y.Quiescent) : y.state.exporting = false := by
  have hnone : y.exportsInFlight = 0 := by
    rw [exportsInFlight, List.countP_eq_zero]
    intro call hcall
    obtain ⟨outcome, hfinished⟩ := hquiescent call hcall
    rw [Invocation.isExporting, hfinished]
    simp [Progress.isFinished]
  rw [ExportsCounted, hnone] at h
  cases hflag : y.state.exporting with
  | false => rfl
  | true => rw [hflag] at h; cases h

/-! ### Calls that have begun -/

/-- A call goes on in some ways only, and returns some outcomes only. -/
def Progress.Confined (calls : Call → Prop) (outcomes : Outcome → Prop) : Progress → Prop
  | waiting _ next => ∀ answer, calls (next answer)
  | finished outcome => outcomes outcome

/-- What a call is confined to when it begins, it is confined to throughout. -/
theorem System.exists_confined_run {calls : Call → Prop} {outcomes : Outcome → Prop}
    (hresume : ∀ s call, calls call → (resume setup s call).2.Confined calls outcomes)
    {request : Request} (hstart : (start setup y.state request).2.Confined calls outcomes)
    (later : List Move) : ∃ progress,
      (y.run setup (.start request :: later)).calls[y.calls.length]? =
        some ⟨request, y.state, progress⟩ ∧ progress.Confined calls outcomes :=
  exists_progress_run (fun s _ _ answer h ↦ hresume s _ (h answer)) (calls_move_start request)
    hstart later

/-- A call that loads a page returns how many documents it has loaded. -/
theorem confined_continuePage (s : State) (search : Option Nat) (cursor total : Nat)
    (documents : Fetch (List Document)) :
    (continuePage s search cursor total documents).2.Confined
      (fun call ↦ ∃ cursor total, call.stage = .paging cursor total) (· ≠ .page .busy) := by
  cases documents with
  | done documents => cases search <;> rintro ⟨⟩
  | read url next => exact fun _ ↦ ⟨cursor, total, rfl⟩

theorem confined_resume_page (s : State) (call : Call)
    (h : ∃ cursor total, call.stage = .paging cursor total) :
    (resume setup s call).2.Confined
      (fun call ↦ ∃ cursor total, call.stage = .paging cursor total) (· ≠ .page .busy) := by
  obtain ⟨cursor, total, hstage⟩ := h
  cases call with
  | page search cursor total documents =>
    exact confined_continuePage s search cursor total documents
  | _ => cases hstage

/-- A page that begins while both flags are free is not busy. -/
theorem confined_start_nextPage {s : State} (hexporting : s.exporting = false)
    (hfetching : s.fetching = false) : (start setup s .nextPage).2.Confined
      (fun call ↦ ∃ cursor total, call.stage = .paging cursor total) (· ≠ .page .busy) := by
  have hstart : start setup s .nextPage = startPage setup s none := by
    rw [start, hexporting, if_neg Bool.false_ne_true]
  rw [hstart, startPage_eq]
  cases hrefusal : s.refusal? setup with
  | none => exact confined_continuePage _ none _ _ _
  | some outcome =>
    rintro ⟨⟩
    rw [State.refusal?, hfetching, if_neg Bool.false_ne_true] at hrefusal
    split at hrefusal
    · cases hrefusal
    · split at hrefusal <;> cases hrefusal

theorem confined_resume_export (s : State) (call : Call) (h : call.isExport = true) :
    (resume setup s call).2.Confined (·.isExport = true) (· ≠ .exported none) := by
  cases call with
  | exportAll filters ranking documents =>
    cases documents with
    | done documents =>
      rintro ⟨⟩
    | read url next => exact fun _ ↦ rfl
  | _ => cases h

/-- An export that begins while its flag is free returns nothing only if there are no ids. -/
theorem System.exists_export_run (hexporting : y.state.exporting = false) (later : List Move) :
    ∃ progress, (y.run setup (.start .exportAll :: later)).calls[y.calls.length]? =
        some ⟨.exportAll, y.state, progress⟩ ∧
      (progress = .finished (.exported none) ↔ y.state.ids = []) := by
  by_cases hids : y.state.ids = []
  · have hstart : (start setup y.state .exportAll).2 = .finished (.exported none) := by
      rw [start, startExport_eq, hexporting, hids]
      rfl
    have hfirst : (y.move setup (.start .exportAll)).calls[y.calls.length]? =
        some ⟨.exportAll, y.state, (start setup y.state .exportAll).2⟩ :=
      calls_move_start .exportAll
    obtain ⟨progress, hcall, hnone⟩ := exists_progress_run
      (motive := fun p ↦ p = .finished (.exported none)) (fun _ _ _ _ h ↦ by cases h) hfirst hstart
      later
    exact ⟨progress, hcall, fun _ ↦ hids, fun _ ↦ hnone⟩
  · have hstart : (start setup y.state .exportAll).2.Confined (·.isExport = true)
        (· ≠ .exported none) := by
      have hguard : ¬ (y.state.exporting || y.state.ids.isEmpty) = true := by
        simpa [hexporting] using hids
      rw [start, startExport_eq, if_neg hguard]
      exact confined_resume_export _ _ rfl
    obtain ⟨progress, hcall, hsome⟩ := exists_confined_run confined_resume_export hstart later
    refine ⟨progress, hcall, ?_, fun hnone ↦ absurd hnone hids⟩
    rintro rfl
    exact absurd rfl hsome

end Flags

/-- At every moment the flag of exports is set exactly if one export has not returned, and never are
there two. Once all calls have returned, both flags are free: a page that then begins never answers
that it is busy, and an export that then begins returns nothing exactly if there are no ids,
whatever else follows. -/
theorem flags_released (setup : Setup) (moves : List Move) :
    let y := (System.opened setup).run setup moves
    ((y.state.exporting = true ↔ y.exportsInFlight = 1) ∧ y.exportsInFlight ≤ 1) ∧
      (y.Quiescent → y.state.exporting = false ∧ y.state.fetching = false ∧
        ∀ later,
          (∃ progress, (y.run setup (.start .nextPage :: later)).calls[y.calls.length]? =
              some ⟨.nextPage, y.state, progress⟩ ∧ progress ≠ .finished (.page .busy)) ∧
          ∃ progress, (y.run setup (.start .exportAll :: later)).calls[y.calls.length]? =
              some ⟨.exportAll, y.state, progress⟩ ∧
            (progress = .finished (.exported none) ↔ y.state.ids = [])) := by
  intro y
  have hsteady : (System.opened setup).Steady := System.steady_idle _
  have hcounted : y.ExportsCounted :=
    System.ExportsCounted.run (y := System.opened setup) hsteady (System.ofKind_idle _) rfl moves
  have hpages : y.PagesWhileSet := System.PagesWhileSet.run (y := System.opened setup) hsteady
    (fun hset ↦ absurd hset Bool.false_ne_true) moves
  refine ⟨?_, fun hquiescent ↦ ?_⟩
  · rw [System.ExportsCounted] at hcounted
    rw [hcounted]
    cases y.state.exporting <;> decide
  · have hexporting := hcounted.exporting_eq_false hquiescent
    have hfetching := hpages.fetching_eq_false hquiescent
    refine ⟨hexporting, hfetching, fun later ↦ ⟨?_, System.exists_export_run hexporting later⟩⟩
    obtain ⟨progress, hcall, hconfined⟩ := System.exists_confined_run confined_resume_page
      (confined_start_nextPage hexporting hfetching) later
    refine ⟨progress, hcall, ?_⟩
    rintro rfl
    exact absurd rfl hconfined

/-- The listing is browsed, an export and a page overlap, and a search takes the flag of loading
away from the page. -/
def overlappingMoves : List Move :=
  [.start (.search "" true), .reply 0 smallNetwork, .reply 0 smallNetwork, .start .nextPage,
    .start .exportAll, .start .rerun, .reply 3 smallNetwork, .reply 1 smallNetwork,
    .reply 3 smallNetwork, .reply 2 smallNetwork]

theorem overlapping_flags_released :
    let y := (System.opened smallSetup).run smallSetup overlappingMoves
    y.Quiescent ∧ y.state.exporting = false ∧ y.state.fetching = false ∧
      ∃ progress, (y.run smallSetup [.start .nextPage, .start .exportAll]).calls[4]? =
        some ⟨.nextPage, y.state, progress⟩ ∧ progress ≠ .finished (.page .busy) := by
  intro y
  have hquiescent : y.Quiescent := by decide +kernel
  obtain ⟨hexporting, hfetching, hlater⟩ :=
    (flags_released smallSetup overlappingMoves).2 hquiescent
  exact ⟨hquiescent, hexporting, hfetching, (hlater [.start .exportAll]).1⟩

end ShardSearch.Session
