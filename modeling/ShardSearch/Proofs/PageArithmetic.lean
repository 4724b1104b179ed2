import ShardSearch.Proofs.OverlappingSearches
import ShardSearch.Proofs.StatusBounds

/-!
The end of a page as a number of 64 bits. A page goes from the cursor over its length, and no
further than the ids go; the first of the two ends is computed before it is compared with the
second one, so it has to be a 64-bit number (`State.InRange`).

For the pages of one list of ids this is so whatever the length of a page is. The first page begins
at zero, and a later one begins behind a full page, so that its length is at most the cursor and the
cursor is within ids that are in memory (`State.inRange_taken`). But a search installs its ids
without a look at the cursor. If a page of another search has moved it in the meantime, and the new
ids go on behind it, then the next page may end beyond all 64-bit numbers: the move strands the
cursor (`System.Strands`). `not_pages_in_range_of_overtaking` is a run in which one does, and
`pages_in_range_unless_stranded` says that there is no other way.

No move strands the cursor when pages have a length that leaves room for all ids in memory
(`System.neverStrands_of_pageLength_le`), or while searches are kept apart from other calls
(`System.neverStrands_of_apart`).
-/

set_option autoImplicit false

namespace ShardSearch.Session

/-- A list of 64-bit numbers fits into memory, where everything has less than `2 ^ 63` bytes. -/
def InMemory (ids : List Nat) : Prop := 8 * ids.length < 2 ^ 63

instance : DecidablePred InMemory := fun ids ↦
  inferInstanceAs (Decidable (8 * ids.length < 2 ^ 63))

/-- If there are ids behind the cursor, a page of them ends at a 64-bit number. -/
def State.InRange (setup : Setup) (s : State) : Prop :=
  s.cursor < s.ids.length → s.cursor + setup.pageLength < Json.wordLimit

/-- A call has come to a page whose end is no 64-bit number. -/
def Progress.overflows : Progress → Bool
  | finished (.page .overflow) => true
  | finished (.search (.found _ .overflow)) => true
  | _ => false

/-- The ids that a call installs when it goes on, if it is a search that has found some. -/
def Call.installed? : Call → Option (List Nat)
  | browse (.done ids) => some ids
  | find _ (.done ids) => if ids.isEmpty then none else some ids
  | _ => none

namespace System

/-- The ids that a move installs. A search that begins has turned the cursor back, so only one that
goes on can find it elsewhere. -/
def installed? (y : System) : Move → Option (List Nat)
  | .start _ => none
  | .reply i network =>
    match y.calls[i]? with
    | some ⟨_, _, .waiting url next⟩ => (next (network url)).installed?
    | _ => none

/-- A move installs ids that go on behind the cursor, and there a page of them would end beyond the
64-bit numbers. -/
def Strands (setup : Setup) (y : System) (m : Move) : Prop :=
  ∃ ids, y.installed? m = some ids ∧ y.state.cursor < ids.length ∧
    Json.wordLimit ≤ y.state.cursor + setup.pageLength

def NeverStrands (setup : Setup) (y : System) (moves : List Move) : Prop :=
  ∀ earlier m, earlier ++ [m] <+: moves → ¬ (y.run setup earlier).Strands setup m

def StaysInMemory (setup : Setup) (y : System) (moves : List Move) : Prop :=
  ∀ earlier, earlier <+: moves → InMemory (y.run setup earlier).state.ids

instance (setup : Setup) (y : System) (moves : List Move) :
    Decidable (y.StaysInMemory setup moves) :=
  decidable_of_iff (∀ earlier ∈ moves.inits, InMemory (y.run setup earlier).state.ids) <|
    forall_congr' fun earlier ↦ imp_congr_left (List.mem_inits earlier moves)

/-- The calls of a run come to no page but such as end at a 64-bit number and within the ids. -/
structure PagesInRange (setup : Setup) (y : System) (moves : List Move) : Prop where
  overflows : ∀ call ∈ (y.run setup moves).calls, call.progress.overflows = false
  room : ∀ p ∈ y.pages setup moves, p.first + setup.pageLength < 2 ^ 64
  last_eq : ∀ p ∈ y.pages setup moves,
    p.last = min (p.first + setup.pageLength) p.list.length
  within : ∀ p ∈ y.pages setup moves, p.first ≤ p.last ∧ p.last ≤ p.list.length

end System

/-! ### Steps -/

section Steps

variable {setup : Setup} {s : State}

theorem Setup.pageLength_lt (setup : Setup) : setup.pageLength < Json.wordLimit := by
  have hword : setup.config.search.batchSize.toNat < Json.wordLimit :=
    setup.config.search.batchSize.toNat_lt
  have hone : 1 < Json.wordLimit := by decide
  exact Nat.max_lt.mpr ⟨hword, hone⟩

theorem State.inRange_of_cursor (h : s.cursor = 0) : s.InRange setup := by
  intro _
  rw [h, Nat.zero_add]
  exact setup.pageLength_lt

theorem State.InRange.refusal?_ne (h : s.InRange setup) : s.refusal? setup ≠ some .overflow := by
  unfold refusal?
  split
  · simp
  · split
    · simp
    · next hcursor =>
      rw [if_neg (Nat.not_le.mpr (h (Nat.not_le.mp hcursor)))]
      simp

/-- Behind a page there are only ids if it was a full one. -/
theorem State.inRange_taken (hmemory : InMemory s.ids) : (s.taken setup).InRange setup := by
  intro hbehind
  change min (s.cursor + setup.pageLength) s.ids.length < s.ids.length at hbehind
  change min (s.cursor + setup.pageLength) s.ids.length + setup.pageLength < Json.wordLimit
  have hlimit : Json.wordLimit = 2 ^ 64 := rfl
  unfold InMemory at hmemory
  omega

@[simp] theorem Progress.overflows_pageFinished (search : Option Nat) (outcome : PageOutcome) :
    (pageFinished search outcome).overflows = decide (outcome = .overflow) := by
  cases search <;> cases outcome <;> rfl

theorem Progress.overflows_of_task? {p : Progress} {network : String → Option Json} {task : Task}
    (h : p.task? network = some task) : p.overflows = false := by
  cases p with
  | waiting url next => rfl
  | finished outcome => cases h

/-- When the ids are in memory, a step leaves the next page in range and has not overflowed. -/
def Safe (setup : Setup) (step : State × Progress) : Prop :=
  InMemory step.1.ids → step.1.InRange setup ∧ step.2.overflows = false

theorem safe_startPage (h : s.InRange setup) (search : Option Nat) :
    Safe setup (startPage setup s search) := by
  intro hmemory
  cases hrefusal : s.refusal? setup with
  | some outcome =>
    have hne : outcome ≠ .overflow := fun heq ↦ h.refusal?_ne (heq ▸ hrefusal)
    rw [startPage_of_refusal? hrefusal, Progress.overflows_pageFinished]
    exact ⟨h, decide_eq_false hne⟩
  | none =>
    obtain ⟨hstate, htask⟩ := startPage_of_refusal?_eq_none (fun _ ↦ none) hrefusal search
    rw [hstate] at hmemory ⊢
    exact ⟨State.inRange_taken hmemory, Progress.overflows_of_task? htask⟩

variable (setup s) in
/-- A search that has found ids installs them and begins with their first page. -/
theorem resume_of_installed? {call : Call} {ids : List Nat} (h : call.installed? = some ids) :
    ∃ filters, resume setup s call =
      startPage setup { s with filters := filters, ids := ids } (some ids.length) := by
  cases call with
  | browse found =>
    cases found with
    | done found =>
      obtain rfl := Option.some.inj h
      exact ⟨s.filters, rfl⟩
    | read url next => cases h
  | find filters found =>
    cases found with
    | done found =>
      obtain ⟨hsome, hids⟩ := Option.ite_none_left_eq_some.mp h
      obtain rfl := Option.some.inj hids
      exact ⟨filters, if_neg hsome⟩
    | read url next => cases h
  | page search cursor total documents => cases h
  | exportAll filters ranking documents => cases h

variable (setup s) in
/-- Any other step of a call that goes on leaves ids and cursor as they are. -/
theorem resume_of_installed?_eq_none {call : Call} (h : call.installed? = none) :
    (resume setup s call).1.ids = s.ids ∧ (resume setup s call).1.cursor = s.cursor ∧
      (resume setup s call).2.overflows = false := by
  cases call with
  | browse found =>
    cases found with
    | done found => cases h
    | read url next => exact ⟨rfl, rfl, rfl⟩
  | find filters found =>
    cases found with
    | done found =>
      have hempty : found.isEmpty = true := by simpa [Call.installed?] using h
      rw [resume, continueFind, if_pos hempty]
      exact ⟨rfl, rfl, rfl⟩
    | read url next => exact ⟨rfl, rfl, rfl⟩
  | page search cursor total documents =>
    cases documents with
    | done documents => exact ⟨rfl, rfl, Progress.overflows_pageFinished search _⟩
    | read url next => exact ⟨rfl, rfl, rfl⟩
  | exportAll filters ranking documents =>
    cases documents with
    | done documents => exact ⟨rfl, rfl, rfl⟩
    | read url next => exact ⟨rfl, rfl, rfl⟩

theorem safe_resume (h : s.InRange setup) {call : Call}
    (hinstalls : ∀ ids, call.installed? = some ids → s.cursor < ids.length →
      s.cursor + setup.pageLength < Json.wordLimit) : Safe setup (resume setup s call) := by
  cases hcall : call.installed? with
  | some ids =>
    obtain ⟨filters, hresume⟩ := resume_of_installed? setup s hcall
    have hnext : State.InRange setup { s with filters := filters, ids := ids } :=
      hinstalls ids hcall
    rw [hresume]
    exact safe_startPage hnext _
  | none =>
    obtain ⟨hids, hcursor, hoverflows⟩ := resume_of_installed?_eq_none setup s hcall
    refine fun _ ↦ ⟨?_, hoverflows⟩
    rw [State.InRange, hids, hcursor]
    exact h

theorem safe_start (h : s.InRange setup) (request : Request) :
    Safe setup (start setup s request) := by
  have hsearches : request.Searches → Safe setup (start setup s request) := by
    intro hsearch
    rcases start_search_cases setup hsearch s with hignored | ⟨query, hresume⟩
    · rw [hignored]
      exact fun _ ↦ ⟨h, rfl⟩
    · have hreset : (s.reset query).InRange setup := State.inRange_of_cursor rfl
      rw [hresume]
      refine safe_resume hreset fun ids _ hcursor ↦ ?_
      exact State.inRange_of_cursor (s := { s.reset query with ids := ids }) rfl hcursor
  cases request with
  | search text first => exact hsearches trivial
  | rerun => exact hsearches trivial
  | nextPage =>
    simp only [start]
    split
    · exact fun _ ↦ ⟨h, rfl⟩
    · exact safe_startPage h none
  | exportAll =>
    rw [start, startExport_eq]
    split
    · exact fun _ ↦ ⟨h, rfl⟩
    · have hflagged : State.InRange setup { s with exporting := true } := h
      exact safe_resume hflagged fun ids hids ↦ by cases hids
  | rank field =>
    simp only [start, chooseRanking]
    split <;> exact fun _ ↦ ⟨h, rfl⟩

end Steps

/-! ### Runs -/

namespace System

/-- The next page is in range, and no call has overflowed. -/
structure Sound (setup : Setup) (y : System) : Prop where
  inRange : y.state.InRange setup
  overflows : ∀ call ∈ y.calls, call.progress.overflows = false

section Moves

variable {setup : Setup} {y : System}

theorem sound_opened (setup : Setup) : (System.opened setup).Sound setup where
  inRange := State.inRange_of_cursor rfl
  overflows _ hcall := absurd hcall List.not_mem_nil

theorem installed?_reply {i : Nat} {call : Invocation} (hcall : y.calls[i]? = some call)
    {url : String} {next : Option Json → Call} (hwaiting : call.progress = .waiting url next)
    (network : String → Option Json) :
    y.installed? (.reply i network) = (next (network url)).installed? := by
  obtain ⟨request, before, progress⟩ := call
  obtain rfl : progress = .waiting url next := hwaiting
  simp only [installed?, hcall]

/-- What a move installs comes from a search that waits. -/
theorem exists_of_installed? {m : Move} {ids : List Nat} (h : y.installed? m = some ids) :
    ∃ i network call url next, m = .reply i network ∧ y.calls[i]? = some call ∧
      call.progress = .waiting url next ∧ (next (network url)).installed? = some ids := by
  cases m with
  | start request => cases h
  | reply i network =>
    rw [installed?] at h
    split at h
    · next request before url next hcall =>
      exact ⟨i, network, _, url, next, rfl, hcall, rfl, h⟩
    · cases h

theorem Sound.move (h : y.Sound setup) {m : Move} (hmemory : InMemory (y.move setup m).state.ids)
    (hstrands : ¬ y.Strands setup m) : (y.move setup m).Sound setup := by
  cases m with
  | start request =>
    rw [move_start] at hmemory ⊢
    obtain ⟨hinRange, hoverflows⟩ := safe_start h.inRange request hmemory
    refine ⟨hinRange, fun call hcall ↦ ?_⟩
    rcases List.mem_append.mp hcall with hold | hnew
    · exact h.overflows call hold
    · rw [List.mem_singleton.mp hnew]
      exact hoverflows
  | reply i network =>
    rcases move_reply_eq setup network y i with hsame | ⟨call, url, next, hcall, hwaiting, hmove⟩
    · rw [hsame]
      exact h
    · rw [hmove] at hmemory ⊢
      have hinstalls : ∀ ids, (next (network url)).installed? = some ids →
          y.state.cursor < ids.length → y.state.cursor + setup.pageLength < Json.wordLimit := by
        intro ids hids hcursor
        by_contra hlimit
        rw [← installed?_reply hcall hwaiting network] at hids
        exact hstrands ⟨ids, hids, hcursor, Nat.not_lt.mp hlimit⟩
      obtain ⟨hinRange, hoverflows⟩ := safe_resume h.inRange hinstalls hmemory
      refine ⟨hinRange, fun other hother ↦ ?_⟩
      rcases List.mem_or_eq_of_mem_set hother with hold | rfl
      · exact h.overflows other hold
      · exact hoverflows

theorem Sound.run (h : y.Sound setup) {moves : List Move} (hmemory : y.StaysInMemory setup moves)
    (hstrands : y.NeverStrands setup moves) : (y.run setup moves).Sound setup := by
  induction moves using List.reverseRecOn with
  | nil => exact h
  | append_singleton moves m ih =>
    have hpart : moves <+: moves ++ [m] := List.prefix_append moves [m]
    have hbefore : (y.run setup moves).Sound setup :=
      ih (fun earlier hearlier ↦ hmemory earlier (hearlier.trans hpart))
        fun earlier other hearlier ↦ hstrands earlier other (hearlier.trans hpart)
    have hlast := hmemory (moves ++ [m]) List.prefix_rfl
    rw [run_append] at hlast ⊢
    exact hbefore.move hlast (hstrands moves m List.prefix_rfl)

/-! ### Runs in which no move strands the cursor -/

theorem ids_move_of_installed? {m : Move} {ids : List Nat} (h : y.installed? m = some ids) :
    (y.move setup m).state.ids = ids := by
  obtain ⟨i, network, call, url, next, rfl, hcall, hwaiting, hids⟩ := exists_of_installed? h
  obtain ⟨filters, hresume⟩ := resume_of_installed? setup y.state hids
  obtain ⟨request, before, progress⟩ := call
  obtain rfl : progress = .waiting url next := hwaiting
  simp only [System.move, hcall, hresume]
  exact (keepsIds_startPage _ _).ids_eq

/-- Pages of any length but the very greatest ones are in range behind all ids in memory. -/
theorem neverStrands_of_pageLength_le (hlength : setup.pageLength ≤ 2 ^ 64 - 2 ^ 60)
    {moves : List Move} (hmemory : y.StaysInMemory setup moves) : y.NeverStrands setup moves := by
  rintro earlier m hpart ⟨ids, hids, hcursor, hlimit⟩
  have hafter := hmemory _ hpart
  rw [run_append, run_cons] at hafter
  change InMemory ((y.run setup earlier).move setup m).state.ids at hafter
  rw [ids_move_of_installed? hids] at hafter
  have hword : Json.wordLimit = 2 ^ 64 := rfl
  unfold InMemory at hafter
  omega

/-- A search that is kept apart from other calls finds the cursor at the beginning. -/
theorem Bounded.not_strands (h : y.Bounded) (m : Move) : ¬ y.Strands setup m := by
  rintro ⟨ids, hids, -, hlimit⟩
  obtain ⟨i, network, call, url, next, rfl, hcall, hwaiting, hinstalled⟩ := exists_of_installed? hids
  have hstage := h.steady.stage_next (List.mem_of_getElem? hcall) hwaiting (network url)
  have hsearching : (next (network url)).stage = .searching := by
    cases hnext : next (network url) with
    | browse found => rfl
    | find filters found => rfl
    | page search cursor total documents => rw [hnext] at hinstalled; cases hinstalled
    | exportAll filters ranking documents => rw [hnext] at hinstalled; cases hinstalled
  rw [hsearching] at hstage
  rw [(h.alone i call hcall hstage).2.1, Nat.zero_add] at hlimit
  exact absurd setup.pageLength_lt (Nat.not_lt.mpr hlimit)

theorem SearchesApart.of_append {first last : List Move}
    (h : y.SearchesApart setup (first ++ last)) : y.SearchesApart setup first := by
  induction first generalizing y with
  | nil => trivial
  | cons m rest ih => exact ⟨h.1, ih h.2⟩

theorem neverStrands_of_apart {moves : List Move}
    (h : (System.opened setup).SearchesApart setup moves) :
    (System.opened setup).NeverStrands setup moves := by
  rintro earlier m ⟨later, rfl⟩
  exact ((bounded_opened setup).run h.of_append.of_append).not_strands m

end Moves

end System

/-- In any interleaving of calls, under networks that change at will and with pages of any length,
every page ends at a 64-bit number and within the ids, as long as no move strands the cursor. -/
theorem pages_in_range_unless_stranded (setup : Setup) (moves : List Move)
    (hmemory : (System.opened setup).StaysInMemory setup moves)
    (hstrands : (System.opened setup).NeverStrands setup moves) :
    (System.opened setup).PagesInRange setup moves := by
  have hfound : ∀ p ∈ (System.opened setup).pages setup moves,
      p.first + setup.pageLength < 2 ^ 64 ∧
        p.last = min (p.first + setup.pageLength) p.list.length ∧
        p.first ≤ p.last ∧ p.last ≤ p.list.length := by
    intro p hp
    obtain ⟨call, found, haccepted, rfl⟩ :=
      System.exists_found_of_mem_pages (System.steady_idle _) hp
    obtain ⟨-, hcursor, hlimit⟩ := State.refusal?_eq_none.mp haccepted
    have hforward : found.cursor ≤ found.pageEnd setup :=
      Nat.le_min.mpr ⟨Nat.le_add_right _ _, Nat.le_of_lt hcursor⟩
    exact ⟨hlimit, rfl, hforward, Nat.min_le_right _ _⟩
  exact ⟨((System.sound_opened setup).run hmemory hstrands).overflows, fun p hp ↦ (hfound p hp).1,
    fun p hp ↦ (hfound p hp).2.1, fun p hp ↦ (hfound p hp).2.2⟩

/-- Pages of the greatest length that a configuration can have. -/
def boundlessSetup : Setup :=
  { smallSetup with config := { search := { batchSize := 18446744073709551615 } } }

/-- Searches that overlap come to pages in range only, if pages are short. So do searches that are
kept apart, whatever the length of a page is. -/
theorem overtaking_pages_in_range :
    (((System.opened smallSetup).StaysInMemory smallSetup overtakingMoves ∧
        (System.opened smallSetup).NeverStrands smallSetup overtakingMoves) ∧
      (System.opened smallSetup).PagesInRange smallSetup overtakingMoves) ∧
    ((System.opened boundlessSetup).StaysInMemory boundlessSetup countedMoves ∧
        (System.opened boundlessSetup).NeverStrands boundlessSetup countedMoves) ∧
      (System.opened boundlessSetup).PagesInRange boundlessSetup countedMoves := by
  constructor
  · have hmemory : (System.opened smallSetup).StaysInMemory smallSetup overtakingMoves := by
      decide +kernel
    have hstrands : (System.opened smallSetup).NeverStrands smallSetup overtakingMoves :=
      System.neverStrands_of_pageLength_le (by decide) hmemory
    exact ⟨⟨hmemory, hstrands⟩, pages_in_range_unless_stranded smallSetup _ hmemory hstrands⟩
  · have hmemory : (System.opened boundlessSetup).StaysInMemory boundlessSetup countedMoves := by
      decide +kernel
    have hstrands : (System.opened boundlessSetup).NeverStrands boundlessSetup countedMoves :=
      System.neverStrands_of_apart (by decide +kernel)
    exact ⟨⟨hmemory, hstrands⟩, pages_in_range_unless_stranded boundlessSetup _ hmemory hstrands⟩

/-- The listing is browsed. Before it is there, a search finds one other id, and its page is loaded.
So the page of the listing begins behind its first id. -/
def strandingMoves : List Move :=
  [.start (.search "" true), .start (.search "guild.name:ab" false), .reply 1 indexedNetwork,
    .reply 1 indexedNetwork, .reply 0 indexedNetwork]

/-- Searches that overlap can come to a page whose end is no 64-bit number. -/
theorem not_pages_in_range_of_overtaking :
    ¬ ∀ (setup : Setup) (moves : List Move), (System.opened setup).StaysInMemory setup moves →
      ∀ call ∈ ((System.opened setup).run setup moves).calls, call.progress.overflows = false := by
  intro hall
  have hmemory : (System.opened boundlessSetup).StaysInMemory boundlessSetup strandingMoves := by
    decide +kernel
  have hnone := hall boundlessSetup strandingMoves hmemory
  revert hnone
  decide +kernel

end ShardSearch.Session
