import Mathlib.Data.List.Forall2
import Mathlib.Data.List.Induction
import ShardSearch.Proofs.TermRuns

/-!
The words of a text are found among its maximal runs. `maximalRuns` are the parts between the
characters that are in no word, and they are just the parts that cannot be made longer
(`mem_maximalRuns_iff`). A run counts as a word if it is long enough and has only lowercase letters
and digits, so an underscore or a capital letter spoils all of its run (`wordRuns_eq_maximalRuns`).

Which words a text has does not depend on what stands between them (`maximalRuns_congr`). So an
ASCII character that is in no word cuts a text in two that have their index terms to themselves,
even where it does not cut lowercasing: an apostrophe between two letters decides the form of a
capital sigma next to it, but a sigma of either form is in no word (`words_by_maximal_runs`).
-/

set_option autoImplicit false

namespace ShardSearch.Text

/-! ### Maximal runs -/

section MaximalRuns

variable {p : Char → Bool}

/-- The maximal runs of characters with a property, in the order of the text. -/
def maximalRuns (p : Char → Bool) (cs : List Char) : List (List Char) :=
  (cs.splitOnP fun c ↦ !p c).filter fun run ↦ !run.isEmpty

theorem maximalRuns_append_cons {c : Char} (hc : p c = false) (first second : List Char) :
    maximalRuns p (first ++ c :: second) = maximalRuns p first ++ maximalRuns p second := by
  have hgap : (!p c) = true := by rw [hc]; rfl
  rw [maximalRuns, List.splitOnP_append_cons first second hgap, List.filter_append]
  rfl

theorem maximalRuns_of_forall {cs : List Char} (h : ∀ c ∈ cs, p c = true) :
    maximalRuns p cs = if cs.isEmpty then [] else [cs] := by
  have hnone : ∀ c ∈ cs, (!p c) = false := fun c hc ↦ by rw [h c hc]; rfl
  rw [maximalRuns, List.splitOnP_eq_singleton hnone]
  cases cs <;> rfl

/-- A text is one run, or it has a run, possibly empty, with a gap after it. -/
theorem gap_induction {motive : List Char → Prop}
    (run : ∀ cs, (∀ c ∈ cs, p c = true) → motive cs)
    (gap : ∀ first c rest, (∀ d ∈ first, p d = true) → p c = false → motive rest →
      motive (first ++ c :: rest)) (cs : List Char) : motive cs := by
  -- What has been read of the first run goes before the text that the induction is on.
  have hfrom : ∀ first, (∀ d ∈ first, p d = true) → motive (first ++ cs) := by
    induction cs with
    | nil =>
      intro first hfirst
      rw [List.append_nil]
      exact run first hfirst
    | cons c rest ih =>
      intro first hfirst
      cases hc : p c with
      | false => exact gap first c rest hfirst hc (ih [] fun _ hd ↦ nomatch hd)
      | true =>
        have hlonger : ∀ d ∈ first ++ [c], p d = true := by
          simpa [or_imp, forall_and, hc] using hfirst
        have hread := ih (first ++ [c]) hlonger
        rwa [List.append_assoc, List.singleton_append] at hread
  exact hfrom [] fun _ hd ↦ nomatch hd

/-- A maximal run is a part of the text that has the property throughout and cannot be made longer
at either end. -/
theorem mem_maximalRuns_iff {cs run : List Char} : run ∈ maximalRuns p cs ↔
    run ≠ [] ∧ (∀ c ∈ run, p c = true) ∧ ∃ before after, cs = before ++ run ++ after ∧
      (∀ c ∈ before.getLast?, p c = false) ∧ ∀ c ∈ after.head?, p c = false := by
  constructor
  · intro hrun
    induction cs using gap_induction (p := p) with
    | run cs hcs =>
      rw [maximalRuns_of_forall hcs] at hrun
      split at hrun
      · cases hrun
      · next hne =>
        rw [List.mem_singleton.mp hrun]
        rw [List.isEmpty_iff] at hne
        exact ⟨hne, hcs, [], [], by simp, by simp, by simp⟩
    | gap first c rest hfirst hc ih =>
      rw [maximalRuns_append_cons hc, List.mem_append, maximalRuns_of_forall hfirst] at hrun
      rcases hrun with hrun | hrun
      · split at hrun
        · cases hrun
        · next hne =>
          rw [List.mem_singleton.mp hrun]
          rw [List.isEmpty_iff] at hne
          exact ⟨hne, hfirst, [], c :: rest, by simp, by simp, by simpa using hc⟩
      · obtain ⟨hne, hall, before, after, rfl, hbefore, hafter⟩ := ih hrun
        refine ⟨hne, hall, first ++ c :: before, after, by simp, ?_, hafter⟩
        cases before with
        | nil => simpa using hc
        | cons d before => simpa using hbefore
  · rintro ⟨hne, hall, before, after, rfl, hbefore, hafter⟩
    have hwhole : run ∈ maximalRuns p run := by
      rw [maximalRuns_of_forall hall, if_neg (by simpa using hne)]
      exact List.mem_singleton_self run
    have hright : run ∈ maximalRuns p (run ++ after) := by
      cases after with
      | nil => rwa [List.append_nil]
      | cons c after =>
        rw [maximalRuns_append_cons (hafter c rfl)]
        exact List.mem_append_left _ hwhole
    cases before using List.reverseRecOn with
    | nil => exact hright
    | append_singleton before c =>
      have hc : p c = false := hbefore c List.getLast?_concat
      rw [List.append_assoc, List.append_assoc, List.singleton_append, maximalRuns_append_cons hc]
      exact List.mem_append_right _ hright

/-- The same text but for the gaps. -/
def SameButGaps (p : Char → Bool) (c d : Char) : Prop := c = d ∨ p c = false ∧ p d = false

/-- Runs do not depend on what fills the gaps between them. -/
theorem maximalRuns_congr {cs ds : List Char} (h : List.Forall₂ (SameButGaps p) cs ds) :
    maximalRuns p cs = maximalRuns p ds := by
  have hparts : (cs.splitOnP fun c ↦ !p c) = ds.splitOnP fun c ↦ !p c := by
    induction h with
    | nil => rfl
    | cons hcd _ ih =>
      rw [List.splitOnP_cons_eq_if_modifyHead, List.splitOnP_cons_eq_if_modifyHead, ih]
      rcases hcd with rfl | ⟨hc, hd⟩
      · rfl
      · rw [hc, hd]
        rfl
  rw [maximalRuns, maximalRuns, hparts]

end MaximalRuns

/-! ### Words -/

/-- At least two characters, all of them lowercase letters or digits. -/
def isTermRun (run : List Char) : Bool := 2 ≤ run.length && run.all isTermChar

theorem isTermRun_iff {run : List Char} :
    isTermRun run = true ↔ 2 ≤ run.length ∧ ∀ c ∈ run, isTermChar c = true := by
  simp [isTermRun]

section Words

variable {cs : List Char}

theorem runsFrom_true_of_forall (h : ∀ c ∈ cs, isWordChar c = true) : runsFrom true cs = [] := by
  induction cs with
  | nil => rfl
  | cons c rest ih =>
    rw [runsFrom, h c List.mem_cons_self]
    exact ih fun d hd ↦ h d (List.mem_cons_of_mem c hd)

/-- A run of word characters is a word as a whole or not at all. -/
theorem runAtBoundary?_of_forall (h : ∀ c ∈ cs, isWordChar c = true) :
    runAtBoundary? cs = if isTermRun cs then some cs else none := by
  split
  · next hterm =>
    obtain ⟨hlength, hall⟩ := isTermRun_iff.mp hterm
    exact runAtBoundary?_eq_some_iff.mpr ⟨[], by simp, hlength, hall, rfl⟩
  · next hterm =>
    rw [Option.eq_none_iff_forall_ne_some]
    intro run hrun
    obtain ⟨after, rfl, hlength, hall, hafter⟩ := runAtBoundary?_eq_some_iff.mp hrun
    cases after with
    | nil =>
      rw [List.append_nil] at hterm
      exact hterm (isTermRun_iff.mpr ⟨hlength, hall⟩)
    | cons c after =>
      have hc : isWordChar c = true := h c (by simp)
      exact Bool.false_ne_true (hafter.symm.trans hc)

theorem runsFrom_of_forall (h : ∀ c ∈ cs, isWordChar c = true) :
    runsFrom false cs = if isTermRun cs then [cs] else [] := by
  cases cs with
  | nil => rfl
  | cons c rest =>
    have hrest : ∀ d ∈ rest, isWordChar d = true := fun d hd ↦ h d (List.mem_cons_of_mem c hd)
    rw [runsFrom_cons, if_neg Bool.false_ne_true, h c List.mem_cons_self,
      runsFrom_true_of_forall hrest, List.append_nil, runAtBoundary?_of_forall h]
    split <;> rfl

theorem runsFrom_eq_maximalRuns (cs : List Char) :
    runsFrom false cs = (maximalRuns isWordChar cs).filter isTermRun := by
  have hrun : ∀ run, (∀ c ∈ run, isWordChar c = true) →
      runsFrom false run = (maximalRuns isWordChar run).filter isTermRun := by
    intro run h
    rw [runsFrom_of_forall h, maximalRuns_of_forall h]
    cases run with
    | nil => rfl
    | cons c rest =>
      rw [List.isEmpty_cons, if_neg Bool.false_ne_true, List.filter_cons, List.filter_nil]
  induction cs using gap_induction (p := isWordChar) with
  | run cs hcs => exact hrun cs hcs
  | gap first c rest hfirst hc ih =>
    rw [runsFrom_append_cons hc, maximalRuns_append_cons hc, List.filter_append, hrun first hfirst,
      ih]

theorem wordRuns_eq_maximalRuns (s : String) :
    wordRuns s = ((maximalRuns isWordChar s.toList).filter isTermRun).map String.ofList := by
  rw [wordRuns, runsFrom_eq_maximalRuns]

end Words

/-! ### Words of lowercase parts -/

/-- A character is lowercased in two places to texts with the same words. -/
theorem lowerAt_sameButGaps (before other : List Char) (c : Char) (after rest : List Char) :
    List.Forall₂ (SameButGaps isWordChar) (lowerAt before c after) (lowerAt other c rest) := by
  by_cases hc : c = 'Σ'
  · have hsigma : ∀ final : Bool, isWordChar (if final then 'ς' else 'σ') = false := by decide
    rw [hc, lowerAt_sigma, lowerAt_sigma]
    exact .cons (.inr ⟨hsigma _, hsigma _⟩) .nil
  · rw [lowerAt_congr hc before other after rest]
    exact List.forall₂_same.mpr fun _ _ ↦ .inl rfl

theorem lowerBetween_sameButGaps (before other cs after rest : List Char) :
    List.Forall₂ (SameButGaps isWordChar) (lowerBetween before cs after)
      (lowerBetween other cs rest) := by
  induction cs generalizing before other with
  | nil => exact .nil
  | cons c cs ih =>
    exact List.rel_append (lowerAt_sameButGaps before other c _ _) (ih (c :: before) (c :: other))

/-- A part of a text has the words that it has alone. -/
theorem runsFrom_lowerBetween (before cs after : List Char) :
    runsFrom false (lowerBetween before cs after) = runsFrom false (lowerChars cs) := by
  rw [lowerChars, lowerFrom_eq_lowerBetween, runsFrom_eq_maximalRuns, runsFrom_eq_maximalRuns,
    maximalRuns_congr (lowerBetween_sameButGaps before [] cs after [])]

section Marks

variable {c : Char} (hascii : c.toNat < 0x80) (hc : isWordChar c = false)

include hascii hc

theorem lowerAt_of_mark (before after : List Char) : lowerAt before c after = [c] := by
  have hne : ∀ d : Char, 0x80 ≤ d.toNat → c ≠ d := by
    rintro d hd rfl
    exact absurd hascii (Nat.not_lt.mpr hd)
  have hupper : ¬ (c.val ≥ 'A'.val ∧ c.val ≤ 'Z'.val) := by
    intro hrange
    have hletter : c.isUpper = true := decide_eq_true hrange
    have hword : isWordChar c = (c.isUpper || c.isLower || c.isDigit || c == '_') := rfl
    rw [hword, hletter] at hc
    cases hc
  have hlower : c.toLower = c := dif_neg hupper
  rw [lowerAt, if_neg (hne 'Σ' (by decide)), if_neg (hne 'İ' (by decide)),
    lowerChar_of_ascii hascii, hlower]

theorem runsFrom_lowerChars_append_cons (first second : List Char) :
    runsFrom false (lowerChars (first ++ c :: second)) =
      runsFrom false (lowerChars first) ++ runsFrom false (lowerChars second) := by
  rw [lowerChars, lowerFrom_append, lowerFrom, lowerAt_of_mark hascii hc, lowerFrom_eq_lowerBetween,
    List.singleton_append, runsFrom_append_cons hc, runsFrom_lowerBetween, runsFrom_lowerBetween]

theorem tokenize_append_mark (first second : String) :
    tokenize (first ++ String.singleton c ++ second) = tokenize first ++ tokenize second := by
  have htext : (first ++ String.singleton c ++ second).toList =
      first.toList ++ c :: second.toList := by simp
  simp only [tokenize, wordRuns, toList_lowercase, htext,
    runsFrom_lowerChars_append_cons hascii hc, List.map_append, List.filter_append]

end Marks

/-- The words of a text are those of its maximal runs of word characters that have at least two
characters, all of them lowercase letters or digits. Around an ASCII character that is no word
character a text has the index terms of what stands before it, and then of what stands after it. -/
theorem words_by_maximal_runs :
    (∀ s, wordRuns s = ((maximalRuns isWordChar s.toList).filter isTermRun).map String.ofList) ∧
      ∀ (first second : String) (c : Char), c.toNat < 0x80 → isWordChar c = false →
        tokenize (first ++ String.singleton c ++ second) = tokenize first ++ tokenize second :=
  ⟨wordRuns_eq_maximalRuns, fun first second _ hascii hc ↦
    tokenize_append_mark hascii hc first second⟩

/-- The apostrophe decides the form of the sigma before it. -/
theorem words_by_apostrophe : ('\''.toNat < 0x80 ∧ isWordChar '\'' = false) ∧
    wordRuns "ab_cd ef gH 10" =
      ((maximalRuns isWordChar "ab_cd ef gH 10".toList).filter isTermRun).map String.ofList ∧
    tokenize ("Dogs ΟΔΟΣ" ++ String.singleton '\'' ++ "Σ's cats") =
      tokenize "Dogs ΟΔΟΣ" ++ tokenize "Σ's cats" := by
  have hmark : '\''.toNat < 0x80 ∧ isWordChar '\'' = false := by decide
  exact ⟨hmark, words_by_maximal_runs.1 _, words_by_maximal_runs.2 _ _ _ hmark.1 hmark.2⟩

example : wordRuns "ab_cd ef gH 10" = ["ef", "10"] := by decide +kernel

end ShardSearch.Text
