import Mathlib.Logic.Function.Iterate
import ShardSearch.Proofs.PageHistory

/-!
Exports beside other calls. An export keeps for itself the filters, the ranking and the computation
that loads the documents of the ids, all as it found them, and its steps look at nothing else. So
however other calls change the session meanwhile, after so many answers an export has made so many
of its reads, and after all of them it has returned the documents of the state that it found
(`System.calls_run_continueExport`).

The other way round, an export leaves a session as it is but for its own flag. That needs an
invariant: a call that waits as an export was asked for as one (`System.OfKind`), so that the steps
of exports are known by their requests (`System.state_move_of_export`).
-/

set_option autoImplicit false

namespace ShardSearch

namespace Fetch

section Advance

variable {α : Type} (network : String → Option Json)

/-- What is left of a computation after its next read. -/
def advance : Fetch α → Fetch α
  | done a => done a
  | read url next => next (network url)

variable {network}

theorem iterate_advance_done (a : α) (k : Nat) : (advance network)^[k] (done a) = done a :=
  Function.iterate_fixed rfl k

/-- A computation that has made all its reads is done. -/
theorem iterate_advance_of_le {m : Fetch α} {k : Nat} (h : (m.reads network).length ≤ k) :
    (advance network)^[k] m = done (m.run network) := by
  induction k generalizing m with
  | zero =>
    cases m with
    | done a => rfl
    | read url next => cases h
  | succ k ih =>
    rw [Function.iterate_succ_apply]
    cases m with
    | done a => exact iterate_advance_done a k
    | read url next => exact ih (Nat.le_of_succ_le_succ h)

/-- A computation that has made some of its reads comes to the next one. -/
theorem iterate_advance_of_lt {m : Fetch α} {k : Nat} (h : k < (m.reads network).length) :
    ∃ next, (advance network)^[k] m = read (m.reads network)[k] next := by
  induction k generalizing m with
  | zero =>
    cases m with
    | done a => cases h
    | read url next => exact ⟨next, rfl⟩
  | succ k ih =>
    rw [Function.iterate_succ_apply]
    cases m with
    | done a => cases h
    | read url next => exact ih (Nat.lt_of_succ_lt_succ h)

end Advance

end Fetch

namespace Session

/-! ### What an export returns -/

section Snapshot

variable {setup : Setup} {network : String → Option Json}

/-- A move that answers a read of a call. -/
def Move.answers (i : Nat) : Move → Bool
  | start _ => false
  | reply j _ => j == i

/-- What the steps of a call keep, a run keeps of it. -/
theorem System.exists_progress_run {motive : Progress → Prop}
    (hstep : ∀ s url next answer, motive (.waiting url next) →
      motive (resume setup s (next answer)).2)
    {y : System} {i : Nat} {request : Request} {before : State} {progress : Progress}
    (hcall : y.calls[i]? = some ⟨request, before, progress⟩) (h : motive progress)
    (moves : List Move) : ∃ progress, (y.run setup moves).calls[i]? =
      some ⟨request, before, progress⟩ ∧ motive progress := by
  induction moves generalizing y progress with
  | nil => exact ⟨progress, hcall, h⟩
  | cons m rest ih =>
    obtain ⟨hi, -⟩ := List.getElem?_eq_some_iff.mp hcall
    by_cases hother : i = m.call y
    · cases m with
      | start request => exact absurd hother (Nat.ne_of_lt hi)
      | reply j network =>
        obtain rfl : i = j := hother
        rcases move_reply_eq setup network y i with
          hsame | ⟨call, url, next, hfound, hwaiting, hmove⟩
        · rw [run_cons, hsame]
          exact ih hcall h
        · obtain rfl := Option.some.inj (hcall.symm.trans hfound)
          obtain rfl : progress = .waiting url next := hwaiting
          refine ih ?_ (hstep y.state url next (network url) h)
          rw [hmove]
          exact List.getElem?_set_self hi
    · refine ih ?_ h
      rw [calls_move_of_ne hother]
      exact hcall

/-- What an export has come to does not depend on the state in which it goes on. -/
theorem continueExport_snd (s t : State) (filters : List PostFilter) (ranking : Ranking)
    (documents : Fetch (List Document)) : (continueExport s filters ranking documents).2 =
      (continueExport t filters ranking documents).2 := by
  cases documents <;> rfl

variable (setup) in
/-- An export goes on by its own answers only, whatever other calls do in a run. -/
theorem System.calls_run_continueExport (s : State) {filters : List PostFilter}
    {ranking : Ranking} {documents : Fetch (List Document)} {y : System} {i : Nat}
    {request : Request} {before : State}
    (hcall : y.calls[i]? =
      some ⟨request, before, (continueExport s filters ranking documents).2⟩)
    {moves : List Move} (hunder : ∀ m ∈ moves, m.Under network) :
    (y.run setup moves).calls[i]? = some ⟨request, before, (continueExport s filters ranking
      ((Fetch.advance network)^[moves.countP (·.answers i)] documents)).2⟩ := by
  induction moves generalizing y documents with
  | nil => exact hcall
  | cons m rest ih =>
    rw [List.forall_mem_cons] at hunder
    obtain ⟨hm, hrest⟩ := hunder
    obtain ⟨hi, -⟩ := List.getElem?_eq_some_iff.mp hcall
    rw [run_cons, List.countP_cons]
    by_cases hanswers : m.answers i = true
    · rw [if_pos hanswers, Function.iterate_succ_apply]
      refine ih ?_ hrest
      cases m with
      | start request => cases hanswers
      | reply j other =>
        obtain rfl : other = network := hm
        obtain rfl : j = i := eq_of_beq hanswers
        cases documents with
        | done documents =>
          have hsame : y.move setup (.reply j other) = y := by
            simp only [move, hcall, continueExport]
          rw [hsame]
          exact hcall
        | read url next =>
          have hmove : (y.move setup (.reply j other)).calls = y.calls.set j ⟨request, before,
              (continueExport y.state filters ranking (next (other url))).2⟩ := by
            simp only [move, hcall, continueExport, resume]
          rw [hmove, List.getElem?_set_self hi, Fetch.advance, continueExport_snd y.state s]
    · rw [if_neg hanswers, Nat.add_zero]
      refine ih ?_ hrest
      have hother : i ≠ m.call y := by
        cases m with
        | start request => exact Nat.ne_of_lt hi
        | reply j other =>
          rintro rfl
          exact hanswers (beq_self_eq_true _)
      rw [calls_move_of_ne hother]
      exact hcall

end Snapshot

/-! ### What an export changes -/

/-- A step of an export: its first one, or one that it takes with an answer. -/
def Move.OfExport (y : System) : Move → Prop
  | start request => request.isExport = true
  | reply i _ => ∃ call, y.calls[i]? = some call ∧ call.request.isExport = true

section Kinds

variable {setup : Setup}

theorem stage?_startPage {s : State} {search : Option Nat} {stage : Stage}
    (h : (startPage setup s search).2.stage? = some stage) :
    ∃ cursor total, stage = .paging cursor total := by
  cases hrefusal : s.refusal? setup with
  | some outcome =>
    rw [startPage_of_refusal? hrefusal] at h
    cases h
  | none =>
    have htask := (startPage_of_refusal?_eq_none (fun _ ↦ none) hrefusal search).2
    rw [(steady_startPage setup s search).stage?_eq htask] at h
    exact ⟨_, _, (Option.some.inj h).symm⟩

/-- What a task leaves to do is a page of a search. -/
theorem Task.stage?_finish {s : State} {task : Task} {stage : Stage}
    (h : (task.finish setup s).2.stage? = some stage) :
    stage ≠ .exporting ∧ task.stage ≠ .exporting := by
  have hpage : ∀ {s : State} {search : Option Nat},
      (startPage setup s search).2.stage? = some stage → stage ≠ .exporting := by
    intro s search hstage
    obtain ⟨cursor, total, rfl⟩ := stage?_startPage hstage
    exact Stage.noConfusion
  cases task with
  | browse ids => exact ⟨hpage h, Stage.noConfusion⟩
  | find filters ids =>
    rw [Task.finish] at h
    split at h
    · cases h
    · exact ⟨hpage h, Stage.noConfusion⟩
  | page search cursor total documents => cases search <;> cases h
  | exportAll filters ranking documents => cases h

/-- A call that goes on is an export if it was one. -/
theorem stage?_resume {s : State} {call : Call} {stage : Stage}
    (h : (resume setup s call).2.stage? = some stage) :
    stage = .exporting ↔ call.stage = .exporting := by
  rw [← Call.stage_task fun _ ↦ none]
  rcases resume_cases setup (fun _ ↦ none) s call with ⟨-, htask⟩ | hfinish
  · rw [(steady_resume setup s call).stage?_eq htask] at h
    rw [Option.some.inj h]
  · rw [hfinish] at h
    obtain ⟨hstage, hcall⟩ := Task.stage?_finish h
    exact ⟨fun hexport ↦ absurd hexport hstage, fun hexport ↦ absurd hexport hcall⟩

/-- A new call is an export if its request is one. -/
theorem stage?_start {s : State} {request : Request} {stage : Stage}
    (h : (start setup s request).2.stage? = some stage) :
    stage = .exporting ↔ request.isExport = true := by
  have hsearch : request.Searches → stage ≠ .exporting := by
    intro hsearch
    rcases start_search_cases setup hsearch s with hignored | ⟨query, hresume⟩
    · rw [hignored] at h
      cases h
    · rw [hresume] at h
      have hcall : (searchCall setup s.ranking query).stage ≠ .exporting := by
        unfold searchCall
        split <;> exact Stage.noConfusion
      exact mt (stage?_resume h).mp hcall
  have hno : stage ≠ .exporting → request.isExport = false →
      (stage = .exporting ↔ request.isExport = true) := by
    intro hstage hrequest
    rw [hrequest]
    exact ⟨fun hexport ↦ absurd hexport hstage, Bool.noConfusion⟩
  cases request with
  | search text first => exact hno (hsearch trivial) rfl
  | rerun => exact hno (hsearch trivial) rfl
  | nextPage =>
    simp only [start] at h
    split at h
    · cases h
    · obtain ⟨cursor, total, rfl⟩ := stage?_startPage h
      exact hno Stage.noConfusion rfl
  | exportAll =>
    rw [start, startExport_eq] at h
    split at h
    · cases h
    · exact ⟨fun _ ↦ rfl, fun _ ↦ (stage?_resume h).mpr rfl⟩
  | rank field => cases h

/-- A call that waits does so as an export exactly if its request is one. -/
def System.OfKind (y : System) : Prop := ∀ call ∈ y.calls, ∀ stage,
  call.progress.stage? = some stage → (stage = .exporting ↔ call.request.isExport = true)

namespace System

variable {y : System}

theorem ofKind_idle (s : State) : (System.idle s).OfKind :=
  fun _ hcall ↦ absurd hcall List.not_mem_nil

/-- The stage of a call that waits is that of what it goes on with. -/
theorem Steady.stage_next (hsteady : y.Steady) {call : Invocation} (hcall : call ∈ y.calls)
    {url : String} {next : Option Json → Call} (hwaiting : call.progress = .waiting url next)
    (answer : Option Json) : call.progress.stage? = some (next answer).stage := by
  have hnext := hsteady call hcall
  rw [hwaiting] at hnext
  rw [hwaiting, Progress.stage?, hnext answer]

theorem OfKind.move (hsteady : y.Steady) (h : y.OfKind) (m : Move) :
    (y.move setup m).OfKind := by
  cases m with
  | start request =>
    intro call hcall stage hstage
    rw [move_start, List.mem_append, List.mem_singleton] at hcall
    rcases hcall with hold | rfl
    · exact h call hold stage hstage
    · exact stage?_start hstage
  | reply i network =>
    rcases move_reply_eq setup network y i with hsame | ⟨found, url, next, hfound, hwaiting, hmove⟩
    · rw [hsame]
      exact h
    · rw [hmove]
      intro call hcall stage hstage
      rcases List.mem_or_eq_of_mem_set hcall with hold | rfl
      · exact h call hold stage hstage
      · have hmem : found ∈ y.calls := List.mem_of_getElem? hfound
        rw [stage?_resume hstage]
        exact h found hmem _ (hsteady.stage_next hmem hwaiting _)

theorem OfKind.run (hsteady : y.Steady) (h : y.OfKind) (moves : List Move) :
    (y.run setup moves).OfKind := by
  induction moves generalizing y with
  | nil => exact h
  | cons m rest ih => exact ih (hsteady.move setup m) (h.move hsteady m)

/-- What an export goes on with is an export. -/
theorem OfKind.exists_exportAll (hsteady : y.Steady) (h : y.OfKind) {call : Invocation}
    (hcall : call ∈ y.calls) (hexport : call.request.isExport = true) {url : String}
    {next : Option Json → Call} (hwaiting : call.progress = .waiting url next)
    (answer : Option Json) :
    ∃ filters ranking documents, next answer = .exportAll filters ranking documents := by
  have hstage := (h call hcall _ (hsteady.stage_next hcall hwaiting answer)).mpr hexport
  cases hnext : next answer with
  | browse ids => rw [hnext] at hstage; cases hstage
  | find filters ids => rw [hnext] at hstage; cases hstage
  | page search cursor total documents => rw [hnext] at hstage; cases hstage
  | exportAll filters ranking documents => exact ⟨filters, ranking, documents, rfl⟩

/-- An export that goes on changes nothing but its flag, if that. -/
theorem exists_exporting_continueExport (s : State) (filters : List PostFilter)
    (ranking : Ranking) (documents : Fetch (List Document)) :
    ∃ flag, (continueExport s filters ranking documents).1 = { s with exporting := flag } := by
  cases documents with
  | done documents => exact ⟨false, rfl⟩
  | read url next => exact ⟨s.exporting, rfl⟩

/-- A step of an export changes nothing but the flag of exports. -/
theorem state_move_of_export (hsteady : y.Steady) (h : y.OfKind) {m : Move}
    (hm : m.OfExport y) : (y.move setup m).state =
      { y.state with exporting := (y.move setup m).state.exporting } := by
  obtain ⟨flag, hflag⟩ : ∃ flag, (y.move setup m).state = { y.state with exporting := flag } := by
    cases m with
    | start request =>
      cases request with
      | exportAll =>
        rw [move_start, start, startExport_eq]
        split
        · exact ⟨y.state.exporting, rfl⟩
        · exact exists_exporting_continueExport { y.state with exporting := true } _ _ _
      | search text first => cases hm
      | rerun => cases hm
      | nextPage => cases hm
      | rank field => cases hm
    | reply i network =>
      rcases move_reply_eq setup network y i with hsame | ⟨call, url, next, hcall, hwaiting, hmove⟩
      · rw [hsame]
        exact ⟨y.state.exporting, rfl⟩
      · obtain ⟨other, hother, hexport⟩ := hm
        obtain rfl : call = other := Option.some.inj (hcall.symm.trans hother)
        obtain ⟨filters, ranking, documents, hnext⟩ := h.exists_exportAll hsteady
          (List.mem_of_getElem? hcall) hexport hwaiting (network url)
        rw [hmove, hnext]
        exact exists_exporting_continueExport y.state filters ranking documents
  rw [hflag]

end System

end Kinds

/-- Whatever other calls do meanwhile, an export that finds its flag free and some ids makes the
reads of their files one after the other, and after the last one it has returned the documents of
these ids that pass the filters which it found, in the order of the ranking which it found; any
other export returns nothing at once. No step of an export changes anything but the flag of
exports. -/
theorem export_of_snapshot (setup : Setup) (network : String → Option Json) :
    (∀ earlier later : List Move, (∀ m ∈ later, m.Under network) →
      let y := (System.opened setup).run setup earlier
      let files := setup.catalog.manifest.dataUrls y.state.ids
      let answered := later.countP (·.answers y.calls.length)
      ∃ progress, (y.run setup (.start .exportAll :: later)).calls[y.calls.length]? =
          some ⟨.exportAll, y.state, progress⟩ ∧
        (y.state.exporting = true ∨ y.state.ids = [] → progress = .finished (.exported none)) ∧
        (y.state.exporting = false → y.state.ids ≠ [] →
          (files.length ≤ answered → progress = .finished (.exported (some
            (Document.sortBy y.state.ranking
              (((Document.load setup.catalog.manifest y.state.ids).run network).filter
                (PostFilter.allAccept y.state.filters)))))) ∧
          ∀ hlt : answered < files.length, ∃ next, progress = .waiting files[answered] next)) ∧
      ∀ (moves : List Move) (m : Move),
        let y := (System.opened setup).run setup moves
        m.OfExport y → (y.move setup m).state =
          { y.state with exporting := (y.move setup m).state.exporting } := by
  refine ⟨fun earlier later hunder ↦ ?_, fun moves m ↦ ?_⟩
  · intro y files answered
    have hfirst : (y.move setup (.start .exportAll)).calls[y.calls.length]? =
        some ⟨.exportAll, y.state, (start setup y.state .exportAll).2⟩ :=
      System.calls_move_start .exportAll
    rw [start, startExport_eq] at hfirst
    by_cases hrefused : y.state.exporting = true ∨ y.state.ids = []
    · have hguard : (y.state.exporting || y.state.ids.isEmpty) = true := by simpa using hrefused
      rw [if_pos hguard] at hfirst
      obtain ⟨progress, hcall, hfinished⟩ := System.exists_progress_run
        (motive := fun p ↦ p = .finished (.exported none)) (fun _ _ _ _ h ↦ by cases h) hfirst rfl
        later
      refine ⟨progress, hcall, fun _ ↦ hfinished, fun hexporting hids ↦ ?_⟩
      rcases hrefused with hset | hempty
      · exact absurd (hexporting.symm.trans hset) Bool.false_ne_true
      · exact absurd hempty hids
    · have hguard : ¬ (y.state.exporting || y.state.ids.isEmpty) = true := by simpa using hrefused
      rw [if_neg hguard] at hfirst
      have hcall := System.calls_run_continueExport setup _ hfirst hunder
      have hreads : (Document.load setup.catalog.manifest y.state.ids).reads network = files :=
        Document.reads_load network setup.catalog.manifest y.state.ids
      refine ⟨_, hcall, fun h ↦ absurd h hrefused, fun _ _ ↦ ⟨fun hle ↦ ?_, fun hlt ↦ ?_⟩⟩
      · rw [← hreads] at hle
        rw [Fetch.iterate_advance_of_le hle]
        rfl
      · have hread : answered < ((Document.load setup.catalog.manifest y.state.ids).reads
            network).length := by
          rw [hreads]
          exact hlt
        obtain ⟨next, hnext⟩ := Fetch.iterate_advance_of_lt hread
        rw [hnext, ← List.getElem_of_eq hreads hread]
        exact ⟨_, rfl⟩
  · intro y
    exact System.state_move_of_export ((System.steady_idle _).run setup moves)
      ((System.ofKind_idle _).run (System.steady_idle _) moves)

/-- While an export reads, another ranking is chosen and the listing is browsed anew. -/
def disturbingMoves : List Move :=
  [.start (.rank .guildName), .start .rerun, .reply 1 smallNetwork]

theorem small_export_of_snapshot :
    let y := (System.opened smallSetup).run smallSetup
      [.start (.search "" true), .reply 0 smallNetwork, .reply 0 smallNetwork]
    let z := y.run smallSetup (.start .exportAll :: disturbingMoves)
    (y.state.exporting = false ∧ y.state.ids = [1, 2]) ∧
      (z.state.ids = [] ∧ z.state.ranking ≠ y.state.ranking) ∧
      z.calls[1]? = some ⟨.exportAll, y.state, .finished (.exported (some
        (Document.sortBy y.state.ranking
          (((Document.load smallSetup.catalog.manifest y.state.ids).run smallNetwork).filter
            (PostFilter.allAccept y.state.filters)))))⟩ ∧
      (y.move smallSetup (.start .exportAll)).state = { y.state with exporting := true } := by
  intro y z
  have hunder : ∀ m ∈ disturbingMoves, m.Under smallNetwork := by
    simp [disturbingMoves, Move.Under]
  have hexporting : y.state.exporting = false := by decide +kernel
  have hids : y.state.ids = [1, 2] := by decide +kernel
  have hsome : y.state.ids ≠ [] := by
    rw [hids]
    exact List.cons_ne_nil 1 [2]
  have hanswered : (smallSetup.catalog.manifest.dataUrls y.state.ids).length ≤
      disturbingMoves.countP (·.answers y.calls.length) := by
    decide +kernel
  obtain ⟨hexport, hframe⟩ := export_of_snapshot smallSetup smallNetwork
  obtain ⟨progress, hcall, -, hreturns⟩ := hexport
    [.start (.search "" true), .reply 0 smallNetwork, .reply 0 smallNetwork] disturbingMoves hunder
  rw [(hreturns hexporting hsome).1 hanswered] at hcall
  refine ⟨⟨hexporting, hids⟩, ⟨by decide +kernel, by decide +kernel⟩, hcall, ?_⟩
  have hflag : (y.move smallSetup (.start .exportAll)).state.exporting = true := by decide +kernel
  rw [hframe [.start (.search "" true), .reply 0 smallNetwork, .reply 0 smallNetwork]
    (.start .exportAll) rfl, hflag]

end Session

end ShardSearch
