import ShardSearch.Proofs.Interleaving

/-!
The flag of exports. Every step but the first and the last of an export leaves the flag as it is,
so while it is set an export is in flight (`ExportsWhileSet.run`). On a session that rests, that
is one on which all calls have returned, it is not set.
-/

set_option autoImplicit false

namespace ShardSearch.Session

section

variable (setup : Setup) (network : String → Option Json)

/-- The first step of a call that is no export leaves the flag as it is. -/
theorem exporting_start_of_not_export {request : Request} (h : request.isExport = false)
    (s : State) : (start setup s request).1.exporting = s.exporting := by
  have hsearch : request.Searches → (start setup s request).1.exporting = s.exporting := by
    intro hsearch
    rcases start_search_cases setup hsearch s with hignored | ⟨query, hresume⟩
    · rw [hignored]
    · have hkind : (searchCall setup s.ranking query).isExport = false := by
        unfold searchCall
        split <;> rfl
      rw [hresume, (resume_frame setup _ _).2.2 hkind, State.exporting_reset]
  cases request with
  | search text first => exact hsearch trivial
  | rerun => exact hsearch trivial
  | nextPage =>
    simp only [start]
    split
    · rfl
    · rcases startPage_frame setup s none with h | h <;> rw [h]
      rfl
  | exportAll => cases h
  | rank field =>
    simp only [start, chooseRanking]
    split <;> rfl

/-- A first step leaves the flag as it is, or it is that of an export that sets it. -/
theorem exporting_start (s : State) (request : Request) :
    (start setup s request).1.exporting = s.exporting ∨
      ∃ task, (start setup s request).2.task? network = some task ∧ task.isExport = true := by
  cases hexport : request.isExport with
  | false => exact .inl (exporting_start_of_not_export setup hexport s)
  | true =>
    cases request <;> cases hexport
    by_cases hrefused : s.exporting = true ∨ s.ids = []
    · refine .inl ?_
      have hguard : (s.exporting || s.ids.isEmpty) = true := by simpa using hrefused
      rw [start, startExport_eq, if_pos hguard]
    · rw [not_or, Bool.not_eq_true] at hrefused
      exact .inr ⟨_, (startExport_of_accepted setup network hrefused.1 hrefused.2).2, rfl⟩

/-- A task after which the flag is set is no export, and has found it set. -/
theorem Task.of_exporting_finish {s : State} {task : Task}
    (h : (task.finish setup s).1.exporting = true) :
    s.exporting = true ∧ task.isExport = false := by
  cases hkind : task.isExport with
  | true =>
    cases task <;> cases hkind
    cases h
  | false =>
    rw [(task.finish_frame setup s).2.2 hkind] at h
    exact ⟨h, rfl⟩

/-- While the flag of exports is set, an export is in flight. -/
def ExportsWhileSet (y : System) : Prop :=
  y.state.exporting = true → ∃ task ∈ y.tasks network, task.isExport = true

variable {setup network}

theorem ExportsWhileSet.move {y : System} (h : ExportsWhileSet network y) {m : Move}
    (hm : m.Under network) : ExportsWhileSet network (y.move setup m) := by
  cases m with
  | start request =>
    intro hset
    rw [System.tasks_start]
    rcases exporting_start setup network y.state request with hsame | ⟨task, htask, hexport⟩
    · obtain ⟨task, hmem, hexport⟩ := h (hsame ▸ hset)
      exact ⟨task, List.mem_append_left _ hmem, hexport⟩
    · rw [htask]
      exact ⟨task, List.mem_append_right _ List.mem_cons_self, hexport⟩
  | reply i other =>
    obtain rfl : other = network := hm
    intro hset
    rcases System.tasks_reply setup other y i with
      ⟨hstate, htasks, -⟩ | ⟨first, task, last, hbefore, hstate, hafter, -⟩
    · rw [hstate] at hset
      rw [htasks]
      exact h hset
    · rw [hstate] at hset
      obtain ⟨hheld, hkind⟩ := Task.of_exporting_finish setup hset
      obtain ⟨running, hmem, hexport⟩ := h hheld
      rw [hbefore, List.mem_append, List.mem_cons] at hmem
      rw [hafter, List.append_assoc]
      refine ⟨running, ?_, hexport⟩
      rcases hmem with hfirst | rfl | hlast
      · exact List.mem_append_left _ hfirst
      · rw [hkind] at hexport
        cases hexport
      · exact List.mem_append_right _ (List.mem_append_right _ hlast)

theorem ExportsWhileSet.run {y : System} (h : ExportsWhileSet network y) {moves : List Move}
    (hmoves : ∀ m ∈ moves, m.Under network) : ExportsWhileSet network (y.run setup moves) :=
  System.run_induction (motive := ExportsWhileSet network) (fun _ _ hm h ↦ h.move hm) h hmoves

/-- Once all calls have returned, the flag is not set. -/
theorem ExportsWhileSet.exporting_eq_false {y : System} (h : ExportsWhileSet network y)
    (hquiescent : y.Quiescent) : y.state.exporting = false := by
  rw [← Bool.not_eq_true]
  intro hset
  obtain ⟨task, hmem, -⟩ := h hset
  rw [hquiescent.tasks_eq_nil network] at hmem
  cases hmem

theorem exportsWhileSet_idle {s : State} (h : s.exporting = false) :
    ExportsWhileSet network (.idle s) :=
  fun hset ↦ absurd (h.symm.trans hset) Bool.false_ne_true

variable (setup network) in
/-- A state of a session that has been opened and used, under one network, and on which all calls
have returned. -/
def Resting (s : State) : Prop :=
  ∃ moves, (∀ m ∈ moves, Move.Under network m) ∧
    ((System.opened setup).run setup moves).Quiescent ∧
    ((System.opened setup).run setup moves).state = s

theorem Resting.exporting_eq_false {s : State} (h : Resting setup network s) :
    s.exporting = false := by
  obtain ⟨moves, hmoves, hquiescent, rfl⟩ := h
  have hopened : ExportsWhileSet network (.opened setup) := exportsWhileSet_idle rfl
  exact (hopened.run hmoves).exporting_eq_false hquiescent

theorem resting_initial : Resting setup network (.initial setup.config.search) :=
  ⟨[], fun _ h ↦ absurd h List.not_mem_nil, fun _ h ↦ absurd h List.not_mem_nil, rfl⟩

end

end ShardSearch.Session
