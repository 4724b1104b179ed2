import ShardSearch.Proofs.PageHistory
import ShardSearch.Proofs.SearchStart

/-!
The flag of loading as a lock. A search frees the flag without ending the page that holds it, and a
page frees the flag when it ends, whoever holds it by then. So a page from before a search that ends
while one from after it is being loaded lets a further page in (`not_exclusive_of_overtaking`).

Nothing else does. Since a search has reset the session, the pages that are being loaded at once are
at most one more than the pages from before the reset that have ended beside one of them, and as
long as there is none of the latter, the documents of the pages join the loaded ones in the order in
which the pages were taken (`Exclusive.move`, `exclusive_unless_overtaken`).
-/

set_option autoImplicit false

namespace ShardSearch.Session

namespace System

/-- The calls that are loading a page which they have taken since an earlier moment. -/
def pagingSince (z base : System) : List Nat :=
  (List.range z.calls.length).filter fun i ↦ z.paging i && !base.paging i

/-- A move ends a page from before a moment while one from after it is being loaded. -/
def overtakes (setup : Setup) (z base : System) (m : Move) : Bool :=
  z.ends setup m && base.paging (m.call z) && !(z.pagingSince base).isEmpty

/-- The call whose page a move ends, if this overtakes another one. -/
def overtakingEntry (setup : Setup) (z base : System) (m : Move) : List Nat :=
  if z.overtakes setup base m then [m.call z] else []

/-- The calls whose pages, taken before a run, end in the run while one that is taken in the run is
being loaded. -/
def overtaking (setup : Setup) (base : System) (moves : List Move) : List Nat :=
  record setup (overtakingEntry setup · base) base moves

theorem paging_congr {y z : System} {i : Nat} (h : z.report? i = y.report? i) :
    z.paging i = y.paging i := by
  rw [paging, h, paging]

theorem overtakingEntry_of_endEntry_nil {setup : Setup} {z : System} {m : Move} (base : System)
    (h : z.endEntry setup m = []) : z.overtakingEntry setup base m = [] := by
  unfold endEntry at h
  split at h
  · cases h
  · next hends =>
    rw [Bool.not_eq_true] at hends
    rw [overtakingEntry, overtakes, hends]
    rfl

theorem mem_pagingSince {base z : System} {i : Nat} :
    i ∈ z.pagingSince base ↔ z.paging i = true ∧ base.paging i = false := by
  have hrange : z.paging i = true → i < z.calls.length := by
    intro hpaging
    by_contra hge
    rw [paging, report?, List.getElem?_eq_none (Nat.le_of_not_lt hge)] at hpaging
    cases hpaging
  rw [pagingSince, List.mem_filter, List.mem_range, Bool.and_eq_true, Bool.not_eq_true']
  exact ⟨And.right, fun h ↦ ⟨hrange h.1, h⟩⟩

theorem nodup_pagingSince (z base : System) : (z.pagingSince base).Nodup :=
  List.nodup_range.filter _

theorem pagingSince_self (z : System) : z.pagingSince z = [] := by
  rw [List.eq_nil_iff_forall_not_mem]
  intro i hi
  obtain ⟨hpaging, hnot⟩ := mem_pagingSince.mp hi
  exact Bool.false_ne_true (hnot.symm.trans hpaging)

/-- No call but one starts or stops loading a page, and this one only if it is new since the earlier
moment. -/
theorem pagingSince_perm {base y z : System} {c : Nat}
    (hother : ∀ j, j ≠ c → z.report? j = y.report? j)
    (hsame : base.paging c = false → z.paging c = y.paging c) :
    (z.pagingSince base).Perm (y.pagingSince base) := by
  rw [List.perm_ext_iff_of_nodup (nodup_pagingSince z base) (nodup_pagingSince y base)]
  intro j
  rw [mem_pagingSince, mem_pagingSince]
  by_cases hj : j = c
  · subst hj
    exact and_congr_left fun hbase ↦ by rw [hsame hbase]
  · rw [paging_congr (hother j hj)]

/-- A call that is loading a page in one of two systems, and otherwise the same. -/
theorem pagingSince_perm_cons {base y z : System} {c : Nat}
    (hother : ∀ j, j ≠ c → z.report? j = y.report? j) (hbase : base.paging c = false)
    (hy : y.paging c = false) (hz : z.paging c = true) :
    (z.pagingSince base).Perm (c :: y.pagingSince base) := by
  have hc : c ∉ y.pagingSince base := fun hmem ↦
    Bool.false_ne_true (hy.symm.trans (mem_pagingSince.mp hmem).1)
  rw [List.perm_ext_iff_of_nodup (nodup_pagingSince z base)
    (List.nodup_cons.mpr ⟨hc, nodup_pagingSince y base⟩)]
  intro j
  rw [List.mem_cons, mem_pagingSince, mem_pagingSince]
  by_cases hj : j = c
  · subst hj
    exact ⟨fun _ ↦ .inl rfl, fun _ ↦ ⟨hz, hbase⟩⟩
  · rw [paging_congr (hother j hj)]
    exact ⟨.inr, fun h ↦ h.resolve_left hj⟩

end System

/-! ### Pages since a reset -/

section Exclusive

variable {setup : Setup} {base z : System} {taken ended overtaking : List Nat}

/-- Where a session stands since an earlier moment, after some calls have taken pages, some pages
have ended, and some of these have overtaken others. -/
structure Exclusive (base z : System) (taken ended overtaking : List Nat) : Prop where
  length_le : (z.pagingSince base).length ≤
    overtaking.length + if z.state.fetching then 1 else 0
  in_order : overtaking = [] → ∃ loading, loading.Perm (z.pagingSince base) ∧
    taken = (ended.filter fun i ↦ !base.paging i) ++ loading
  reported : ∀ i, base.paging i = true → z.report? i ≠ none

theorem Exclusive.reported_move (h : Exclusive base z taken ended overtaking) {m : Move}
    (hcall : z.report? (m.call z) ≠ none → (z.move setup m).report? (m.call z) ≠ none) :
    ∀ i, base.paging i = true → (z.move setup m).report? i ≠ none := by
  intro i hi
  by_cases hic : i = m.call z
  · subst hic
    exact hcall (h.reported _ hi)
  · rw [System.report?_move_of_ne hic]
    exact h.reported i hi

/-- No page is taken, and none ends. -/
theorem Exclusive.quiet (h : Exclusive base z taken ended overtaking) {m : Move} {s : State}
    (hlength : (z.pagingSince base).length ≤ overtaking.length + if s.fetching then 1 else 0)
    (hfetching : (z.move setup m).state.fetching = s.fetching)
    (hreport : (z.move setup m).report? (m.call z) = z.report? (m.call z)) :
    Exclusive base (z.move setup m) taken ended overtaking := by
  have hperm : ((z.move setup m).pagingSince base).Perm (z.pagingSince base) :=
    System.pagingSince_perm (fun _ hj ↦ System.report?_move_of_ne hj)
      fun _ ↦ System.paging_congr hreport
  refine ⟨?_, fun hnone ↦ ?_, h.reported_move fun hsome ↦ hreport ▸ hsome⟩
  · rw [hperm.length_eq, hfetching]
    exact hlength
  · obtain ⟨loading, hloading, horder⟩ := h.in_order hnone
    exact ⟨loading, hloading.trans hperm.symm, horder⟩

/-- A page is taken. The flag was free, so the bound leaves room for one more. -/
theorem Exclusive.take (h : Exclusive base z taken ended overtaking) {m : Move}
    (hlength : (z.pagingSince base).length ≤ overtaking.length) {cursor total : Nat}
    (hfetching : (z.move setup m).state.fetching = true)
    (hbefore : z.report? (m.call z) = none)
    (hnow : (z.move setup m).report? (m.call z) = some ⟨cursor, total, true⟩) :
    Exclusive base (z.move setup m) (taken ++ [m.call z]) ended overtaking := by
  have hbase : base.paging (m.call z) = false := by
    by_contra hpaging
    exact h.reported _ (by simpa using hpaging) hbefore
  have hperm : ((z.move setup m).pagingSince base).Perm (m.call z :: z.pagingSince base) :=
    System.pagingSince_perm_cons (fun _ hj ↦ System.report?_move_of_ne hj) hbase
      (by rw [System.paging, hbefore]; rfl) (by rw [System.paging, hnow]; rfl)
  refine ⟨?_, fun hnone ↦ ?_, h.reported_move fun hsome ↦ absurd hbefore hsome⟩
  · rw [hperm.length_eq, List.length_cons, hfetching, if_pos rfl]
    exact Nat.add_le_add_right hlength 1
  · rw [hnone, List.length_nil, Nat.le_zero, List.length_eq_zero_iff] at hlength
    obtain ⟨loading, hloading, horder⟩ := h.in_order hnone
    rw [hlength] at hloading hperm
    rw [hloading.eq_nil, List.append_nil] at horder
    exact ⟨[m.call z], hperm.symm, by rw [horder]⟩

/-- A page ends: one from before the earlier moment, which may overtake others, or one since. -/
theorem Exclusive.finish (h : Exclusive base z taken ended overtaking) {m : Move}
    (hlength : (z.pagingSince base).length ≤ overtaking.length + 1) {cursor total : Nat}
    (hfetching : (z.move setup m).state.fetching = false)
    (hbefore : z.report? (m.call z) = some ⟨cursor, total, true⟩)
    (hnow : (z.move setup m).report? (m.call z) = some ⟨cursor, total, false⟩) :
    Exclusive base (z.move setup m) taken (ended ++ [m.call z])
      (overtaking ++ z.overtakingEntry setup base m) := by
  have hother : ∀ j, j ≠ m.call z → (z.move setup m).report? j = z.report? j :=
    fun _ hj ↦ System.report?_move_of_ne hj
  have hpaging : z.paging (m.call z) = true := by
    rw [System.paging, hbefore]
    rfl
  have hstopped : (z.move setup m).paging (m.call z) = false := by
    rw [System.paging, hnow]
    rfl
  have hreported : ∀ i, base.paging i = true → (z.move setup m).report? i ≠ none :=
    h.reported_move fun _ ↦ hnow ▸ Option.some_ne_none _
  have hends : z.ends setup m = true := by
    rw [System.ends, hpaging, hstopped]
    rfl
  rw [System.overtakingEntry, System.overtakes, hends, Bool.true_and]
  cases hbase : base.paging (m.call z) with
  | true =>
    have hperm : ((z.move setup m).pagingSince base).Perm (z.pagingSince base) :=
      System.pagingSince_perm hother fun hnot ↦ absurd (hnot.symm.trans hbase) Bool.false_ne_true
    refine ⟨?_, fun hnone ↦ ?_, hreported⟩
    · rw [hperm.length_eq, hfetching, if_neg Bool.false_ne_true, Nat.add_zero, List.length_append]
      cases hsince : z.pagingSince base with
      | nil => exact Nat.zero_le _
      | cons i rest =>
        rw [hsince] at hlength
        exact hlength
    · obtain ⟨loading, hloading, horder⟩ := h.in_order (List.append_eq_nil_iff.mp hnone).1
      refine ⟨loading, hloading.trans hperm.symm, ?_⟩
      rw [List.filter_append, List.filter_cons_of_neg (by simp [hbase]), List.filter_nil,
        List.append_nil]
      exact horder
  | false =>
    have hperm : (z.pagingSince base).Perm (m.call z :: (z.move setup m).pagingSince base) :=
      System.pagingSince_perm_cons (fun j hj ↦ (hother j hj).symm) hbase hstopped hpaging
    rw [hperm.length_eq, List.length_cons, Nat.add_le_add_iff_right] at hlength
    rw [Bool.false_and, if_neg Bool.false_ne_true, List.append_nil]
    refine ⟨?_, fun hnone ↦ ?_, hreported⟩
    · rw [hfetching]
      exact hlength
    · rw [hnone, List.length_nil, Nat.le_zero, List.length_eq_zero_iff] at hlength
      obtain ⟨loading, hloading, horder⟩ := h.in_order hnone
      rw [hlength] at hperm
      refine ⟨[], by rw [hlength], ?_⟩
      rw [List.filter_append, List.filter_cons_of_pos (by simp [hbase]), List.filter_nil,
        List.append_nil, ← (hloading.trans hperm).eq_singleton]
      exact horder

/-- A step of one call, also on a state in which a search has freed the flag. -/
theorem Exclusive.step (h : Exclusive base z taken ended overtaking) {m : Move} {s : State}
    (hlength : (z.pagingSince base).length ≤ overtaking.length + if s.fetching then 1 else 0)
    (hstep : z.PageMove setup m s) :
    Exclusive base (z.move setup m) (taken ++ (z.pageEntry setup m).map Page.call)
      (ended ++ z.endEntry setup m) (overtaking ++ z.overtakingEntry setup base m) := by
  cases hstep with
  | quiet fetching_eq cursor_eq report_eq =>
    obtain ⟨hpage, -, hend⟩ := System.entries_of_quiet report_eq
    rw [hpage, System.overtakingEntry_of_endEntry_nil base hend, hend, List.map_nil,
      List.append_nil, List.append_nil, List.append_nil]
    exact h.quiet hlength fetching_eq report_eq
  | taken found fetching_eq cursor_eq accepted after_eq before_eq now_eq load_eq =>
    obtain ⟨hpage, -, hend⟩ := System.entries_of_taken before_eq now_eq
    have hfree : s.fetching = false :=
      fetching_eq.symm.trans (State.refusal?_eq_none.mp accepted).1
    rw [hfree] at hlength
    rw [hpage, System.overtakingEntry_of_endEntry_nil base hend, hend, List.map_singleton,
      List.append_nil, List.append_nil]
    exact h.take hlength (by rw [after_eq]; rfl) before_eq now_eq
  | ended cursor total before_eq now_eq fetching_eq cursor_eq =>
    obtain ⟨hpage, -, hend⟩ := System.entries_of_ended before_eq now_eq
    have hbound : (if s.fetching then 1 else 0) ≤ 1 := by
      split
      · exact Nat.le_refl 1
      · exact Nat.zero_le 1
    rw [hpage, hend, List.map_nil, List.append_nil]
    exact h.finish (Nat.le_trans hlength (Nat.add_le_add_left hbound _)) fetching_eq before_eq
      now_eq

theorem exclusive_self (base : System) : Exclusive base base [] [] [] where
  length_le := by
    rw [System.pagingSince_self]
    exact Nat.zero_le _
  in_order _ := ⟨[], by rw [System.pagingSince_self], rfl⟩
  reported i hi hnone := by
    rw [System.paging, hnone] at hi
    cases hi

/-! ### Runs -/

/-- A search that is ignored is a step that changes nothing. -/
theorem System.pageMove_ignored {request : Request} (hignored : request.Ignored) (y : System) :
    y.PageMove setup (.start request) y.state := by
  rw [pageMove_start, start_of_ignored setup hignored]
  exact .quiet rfl rfl rfl

variable (setup) in
/-- Any other search is a step on the state that it has reset. -/
theorem System.pageMove_reset {request : Request} (hsearch : request.Searches)
    (hignored : ¬ request.Ignored) {y : System} (hquery : Text.trim y.state.query = y.state.query) :
    y.PageMove setup (.start request) (y.state.reset (request.query y.state)) := by
  rw [pageMove_start, start_of_searches setup hsearch hignored hquery]
  exact pageStep_searchCall setup _ _ _

/-- A move resets the session unless it is no search or one that is ignored. -/
def Move.Resets (m : Move) : Prop := ∃ request, m = .start request ∧ request.Searches ∧
  ¬ request.Ignored

theorem Exclusive.move (hsteady : z.Steady) (h : Exclusive base z taken ended overtaking)
    {m : Move} (hm : ¬ m.Resets) :
    Exclusive base (z.move setup m) (taken ++ (z.pageEntry setup m).map Page.call)
      (ended ++ z.endEntry setup m) (overtaking ++ z.overtakingEntry setup base m) := by
  refine h.step h.length_le ?_
  by_cases hsearch : ∃ request, m = .start request ∧ request.Searches
  · obtain ⟨request, rfl, hsearch⟩ := hsearch
    have hignored : request.Ignored := by
      by_contra hnot
      exact hm ⟨request, rfl, hsearch, hnot⟩
    exact System.pageMove_ignored hignored z
  · exact (System.pageMove_of_not_searches setup hsteady fun request hstart hrequest ↦
      hsearch ⟨request, hstart, hrequest⟩).1

variable (setup) in
theorem Exclusive.run (hsteady : z.Steady) (h : Exclusive base z taken ended overtaking)
    {moves : List Move} (hmoves : ∀ m ∈ moves, ¬ m.Resets) :
    Exclusive base (z.run setup moves) (taken ++ (z.pages setup moves).map Page.call)
      (ended ++ z.ended setup moves)
      (overtaking ++ z.record setup (·.overtakingEntry setup base) moves) := by
  induction moves generalizing z taken ended overtaking with
  | nil => simpa [System.pages, System.ended, System.record, System.run] using h
  | cons m rest ih =>
    rw [List.forall_mem_cons] at hmoves
    have hrest := ih (hsteady.move setup m) (h.move hsteady hmoves.1) hmoves.2
    rw [List.append_assoc, List.append_assoc, List.append_assoc, ← List.map_append] at hrest
    exact hrest

end Exclusive

/-- Since a search has reset the session, and until another one does, the pages that are being
loaded at once are at most one more than the pages from before the reset that have ended beside one
of them. As long as there is none of the latter, the pages end in the order in which they are taken,
the one that is being loaded last. -/
theorem exclusive_unless_overtaken (setup : Setup) (earlier later : List Move) {m : Move}
    (hreset : m.Resets) (hlast : ∀ other ∈ later, ¬ other.Resets) :
    let y := (System.opened setup).run setup earlier
    let moves := m :: later
    let z := y.run setup moves
    (z.pagingSince y).length ≤ (y.overtaking setup moves).length + 1 ∧
      (y.overtaking setup moves = [] →
        (y.pages setup moves).map Page.call =
          ((y.ended setup moves).filter fun i ↦ !y.paging i) ++ z.pagingSince y) := by
  intro y moves z
  have htrim : Text.trim "" = "" := by decide
  have hquery : Text.trim y.state.query = y.state.query :=
    trim_query_run setup (y := System.opened setup) htrim earlier
  have hsteady : y.Steady := (System.steady_idle _).run setup earlier
  obtain ⟨request, rfl, hsearch, hignored⟩ := hreset
  have hfirst := (exclusive_self y).step (m := .start request)
    (by rw [System.pagingSince_self]; exact Nat.zero_le _)
    (System.pageMove_reset setup hsearch hignored hquery)
  have hz := hfirst.run setup (hsteady.move setup _) hlast
  have hlength : (z.pagingSince y).length ≤ (y.overtaking setup moves).length + 1 := by
    refine Nat.le_trans hz.length_le (Nat.add_le_add_left ?_ _)
    split
    · exact Nat.le_refl 1
    · exact Nat.zero_le 1
  refine ⟨hlength, fun hnone ↦ ?_⟩
  obtain ⟨loading, hloading, horder⟩ := hz.in_order hnone
  rw [hnone, List.length_nil, Nat.zero_add] at hlength
  have hpaging : loading = z.pagingSince y := by
    match hsince : z.pagingSince y, hlength with
    | [], _ => exact (hsince ▸ hloading).eq_nil
    | [i], _ => exact (hsince ▸ hloading).eq_singleton
  rw [← hpaging, System.pages, System.record, List.map_append]
  exact horder

/-- The listing is browsed, with a page that finds another one under way and one that does not. -/
def tickingMoves : List Move :=
  [.reply 0 smallNetwork, .start .nextPage, .reply 0 smallNetwork, .start .nextPage]

theorem ticking_exclusive_unless_overtaken :
    let moves := .start (.search "" true) :: tickingMoves
    let z := (System.opened smallSetup).run smallSetup moves
    (System.opened smallSetup).overtaking smallSetup moves = [] ∧
      ((System.opened smallSetup).pages smallSetup moves).map Page.call =
        (((System.opened smallSetup).ended smallSetup moves).filter fun i ↦
          !(System.opened smallSetup).paging i) ++ z.pagingSince (System.opened smallSetup) := by
  have hreset : (Move.start (.search "" true)).Resets :=
    ⟨_, rfl, trivial, fun hignored ↦ Bool.noConfusion hignored.2⟩
  have hlast : ∀ other ∈ tickingMoves, ¬ other.Resets := by
    rintro _ hother ⟨request, rfl, hsearch, -⟩
    simp only [tickingMoves, List.mem_cons, List.not_mem_nil, Move.start.injEq, reduceCtorEq,
      or_false, false_or, or_self] at hother
    subst hother
    exact hsearch
  have hnone : (System.opened smallSetup).overtaking smallSetup
      (.start (.search "" true) :: tickingMoves) = [] := by
    decide +kernel
  exact ⟨hnone, (exclusive_unless_overtaken smallSetup [] tickingMoves hreset hlast).2 hnone⟩

/-- The listing is browsed twice, the second time while the first page of the first time is being
loaded. This page ends while the first page of the second time is being loaded, which lets another
one in. -/
def overtakenMoves : List Move :=
  [.reply 1 smallNetwork, .reply 0 smallNetwork, .start .nextPage]

/-- Of two pages of one list of ids, the one that is taken first ends first. -/
def InOrder (pages : List Page) (ended : List Nat) : Prop :=
  ∀ p q, [p, q].Sublist pages → p.list = q.list → q.call ∈ ended → [p.call, q.call].Sublist ended

/-- The listing is browsed and browsed again within the read of the first page, two pages of it. -/
def nestedMoves : List Move :=
  [.start (.search "" true), .reply 0 smallNetwork, .start .rerun, .reply 1 smallNetwork,
    .reply 1 smallNetwork, .start .nextPage, .reply 2 smallNetwork, .reply 0 smallNetwork]

/-- Two pages since the last search can be loaded at once, and pages of one list of ids can end out
of order. -/
theorem not_exclusive_of_overtaking :
    (¬ ∀ (setup : Setup) (earlier later : List Move) (m : Move), m.Resets →
        (∀ other ∈ later, ¬ other.Resets) →
        ((((System.opened setup).run setup earlier).run setup (m :: later)).pagingSince
          ((System.opened setup).run setup earlier)).length ≤ 1) ∧
      ¬ ∀ (setup : Setup) (moves : List Move),
        InOrder ((System.opened setup).pages setup moves)
          ((System.opened setup).ended setup moves) := by
  constructor
  · intro hall
    have hreset : (Move.start (.search "" true)).Resets :=
      ⟨_, rfl, trivial, fun hignored ↦ Bool.noConfusion hignored.2⟩
    have hlast : ∀ other ∈ overtakenMoves, ¬ other.Resets := by
      rintro _ hother ⟨request, rfl, hsearch, -⟩
      simp only [overtakenMoves, List.mem_cons, List.not_mem_nil, Move.start.injEq, reduceCtorEq,
        or_false, false_or] at hother
      subst hother
      exact hsearch
    have hlength := hall smallSetup [.start (.search "" true), .reply 0 smallNetwork]
      overtakenMoves _ hreset hlast
    revert hlength
    decide +kernel
  · intro hall
    have hpages : (System.opened smallSetup).pages smallSetup nestedMoves =
        [⟨0, 0, 1, [1, 2]⟩, ⟨1, 0, 1, [1, 2]⟩, ⟨2, 1, 2, [1, 2]⟩] := by
      decide +kernel
    have hended : (System.opened smallSetup).ended smallSetup nestedMoves = [1, 2, 0] := by
      decide +kernel
    have horder := hall smallSetup nestedMoves ⟨0, 0, 1, [1, 2]⟩ ⟨2, 1, 2, [1, 2]⟩
    rw [hpages, hended] at horder
    have hsublist := horder (by decide) rfl (by decide)
    revert hsublist
    decide

end ShardSearch.Session
