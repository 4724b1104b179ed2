import Mathlib.Data.List.DropRight
import ShardSearch.Proofs.Interleaving

/-!
How a search begins. A search with no query that is not the first one is ignored; every other search
resets the state and goes to look for its query. The query that a session keeps is trimmed
(`trim_query_run`), so a search for the last query again is never ignored.
-/

set_option autoImplicit false

namespace ShardSearch

namespace Text

/-- A text that begins with no blank still begins with none once its end is trimmed. -/
theorem trimStart_trimEnd {cs : List Char} (h : trimStart cs = cs) :
    trimStart (trimEnd cs) = trimEnd cs := by
  have hbegins : trimEnd cs <+: cs := List.rdropWhile_prefix isBlank cs
  cases hend : trimEnd cs with
  | nil => rfl
  | cons c rest =>
    obtain ⟨last, happend⟩ := hend ▸ hbegins
    have hhead : isBlank c = false := by
      rw [← happend, trimStart] at h
      by_contra hblank
      rw [Bool.not_eq_false] at hblank
      have hlength := congrArg List.length h
      rw [List.cons_append, List.dropWhile_cons_of_pos hblank, List.length_cons] at hlength
      have := (List.dropWhile_sublist isBlank (l := rest ++ last)).length_le
      omega
    rw [trimStart, List.dropWhile_cons_of_neg (by simp [hhead])]

theorem trim_trim (s : String) : trim (trim s) = trim s := by
  have hstart : trimStart (trimStart s.toList) = trimStart s.toList :=
    List.dropWhile_idempotent isBlank s.toList
  have hend : ∀ cs, trimEnd (trimEnd cs) = trimEnd cs :=
    fun cs ↦ List.rdropWhile_idempotent isBlank cs
  rw [trim, toList_trim, trimChars, trimChars, trimStart_trimEnd hstart, hend, ← trimChars, ← trim]

end Text

namespace Session

/-- A search that does nothing: it has no query, and is not the first one. -/
def Request.Ignored : Request → Prop
  | search text first => (Text.trim text).isEmpty = true ∧ first = false
  | _ => False

instance : DecidablePred Request.Ignored
  | .search _ _ => inferInstanceAs (Decidable (_ ∧ _))
  | .rerun => isFalse id
  | .nextPage => isFalse id
  | .exportAll => isFalse id
  | .rank _ => isFalse id

/-- The query that a search looks for. -/
def Request.query (s : State) : Request → String
  | search text _ => Text.trim text
  | _ => s.query

variable (setup : Setup) {s : State} {request : Request}

theorem start_of_ignored (h : request.Ignored) :
    start setup s request = (s, .finished (.search .ignored)) := by
  cases request with
  | search text first =>
    obtain ⟨hempty, rfl⟩ := h
    rw [start, startSearch_eq, hempty]
    rfl
  | _ => exact h.elim

/-- A search that is not ignored starts with nothing of the last one but the ranking. -/
theorem start_of_searches (hsearch : request.Searches) (h : ¬ request.Ignored)
    (hquery : Text.trim s.query = s.query) : start setup s request =
      resume setup (s.reset (request.query s)) (searchCall setup s.ranking (request.query s)) := by
  cases request with
  | search text first =>
    have hguard : ¬ ((Text.trim text).isEmpty && !first) = true := by
      rw [Bool.and_eq_true, Bool.not_eq_true']
      exact h
    rw [start, startSearch_eq, if_neg hguard, Request.query]
  | rerun =>
    have hguard : ¬ ((Text.trim s.query).isEmpty && !s.query.isEmpty) = true := by
      rw [hquery, Bool.and_not_self]
      exact Bool.false_ne_true
    rw [start, startSearch_eq, if_neg hguard, hquery]
    rfl
  | nextPage => exact hsearch.elim
  | exportAll => exact hsearch.elim
  | rank field => exact hsearch.elim

/-! ### The query that is kept -/

/-- The query that a session keeps after a request. -/
def Request.queryAfter (query : String) : Request → String
  | search text first => if (search text first).Ignored then query else Text.trim text
  | _ => query

theorem Request.trim_queryAfter {query : String} (h : Text.trim query = query)
    (request : Request) : Text.trim (request.queryAfter query) = request.queryAfter query := by
  cases request with
  | search text first =>
    rw [queryAfter]
    split
    · exact h
    · exact Text.trim_trim text
  | _ => exact h

/-- A first step leaves the query that the session keeps. -/
theorem query_start (hquery : Text.trim s.query = s.query) (request : Request) :
    (start setup s request).1.query = request.queryAfter s.query := by
  cases request with
  | search text first =>
    rw [Request.queryAfter]
    split
    · next hignored => rw [start_of_ignored setup hignored]
    · next hignored =>
      have hsearch : (Request.search text first).Searches := trivial
      rw [start_of_searches setup hsearch hignored hquery, (resume_frame setup _ _).1]
      rfl
  | rerun =>
    have hsearch : Request.rerun.Searches := trivial
    have hignored : ¬ Request.rerun.Ignored := id
    rw [start_of_searches setup hsearch hignored hquery, (resume_frame setup _ _).1]
    rfl
  | nextPage =>
    simp only [start]
    split
    · rfl
    · rcases startPage_frame setup s none with hstate | hstate <;> rw [hstate]
      · rfl
      · rfl
  | exportAll =>
    rw [start, startExport_eq]
    split
    · rfl
    · rw [(resume_frame setup _ _).1]
      rfl
  | rank field =>
    simp only [start, chooseRanking]
    split <;> rfl

theorem trim_query_start (h : Text.trim s.query = s.query) (request : Request) :
    Text.trim (start setup s request).1.query = (start setup s request).1.query := by
  rw [query_start setup h]
  exact request.trim_queryAfter h

theorem trim_query_move {y : System} (h : Text.trim y.state.query = y.state.query) (m : Move) :
    Text.trim (y.move setup m).state.query = (y.move setup m).state.query := by
  cases m with
  | start request => exact trim_query_start setup h request
  | reply i network =>
    rcases System.move_reply setup network y i with hsame | ⟨_, task, progress, _, _, _, hstep⟩
    · rwa [hsame]
    · rcases hstep with ⟨hstate, -⟩ | hfinish
      · rwa [hstate]
      · have hstate := congrArg Prod.fst hfinish
        change (y.move setup (.reply i network)).state = _ at hstate
        rwa [hstate, (task.finish_frame setup y.state).1]

/-- Whatever calls are made on a session, its query stays trimmed. -/
theorem trim_query_run {y : System} (h : Text.trim y.state.query = y.state.query)
    (moves : List Move) :
    Text.trim (y.run setup moves).state.query = (y.run setup moves).state.query := by
  have hall : ∀ m ∈ moves, (fun _ : Move ↦ True) m := fun _ _ ↦ trivial
  exact System.run_induction (motive := fun y ↦ Text.trim y.state.query = y.state.query)
    (fun _ m _ h ↦ trim_query_move setup h m) h hall

end Session

end ShardSearch
