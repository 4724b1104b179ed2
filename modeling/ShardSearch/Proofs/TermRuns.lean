import Mathlib.Data.List.TakeWhile
import ShardSearch.Proofs.LowercaseContext
import ShardSearch.Text.Words

/-!
Index terms of parts of texts and of texts put together. A run of a text is a part of it that
consists of at least two term characters and has no word character next to it (`mem_runsFrom_iff`).
A text that stands in another one without breaking a word of it at its ends (`StandsWhole`) has all
of its runs there, too, so it has no index term that the other one has not. A space is no word
character, and it cuts lowercasing; texts with spaces between them have the index terms that they
have one by one (`tokenize_intercalate`).
-/

set_option autoImplicit false

namespace ShardSearch.Text

/-! ### Runs -/

theorem isTermChar_eq_false {c : Char} (h : isWordChar c = false) : isTermChar c = false := by
  by_contra hterm
  rw [isWordChar_of_isTermChar (Bool.not_eq_false _ ▸ hterm)] at h
  cases h

/-- What has no word character at its head does not go on a run. -/
theorem takeWhile_isTermChar {run after : List Char} (hrun : ∀ c ∈ run, isTermChar c = true)
    (hafter : startsWithWordChar after = false) :
    (run ++ after).takeWhile isTermChar = run ∧ (run ++ after).dropWhile isTermChar = after := by
  rw [List.takeWhile_append_of_pos hrun, List.dropWhile_append_of_pos hrun]
  cases after with
  | nil => simp
  | cons c rest =>
    have hc : ¬ isTermChar c = true := by
      rw [isTermChar_eq_false hafter]
      exact Bool.false_ne_true
    rw [List.takeWhile_cons_of_neg hc, List.dropWhile_cons_of_neg hc, List.append_nil]
    exact ⟨rfl, rfl⟩

theorem runAtBoundary?_eq_some_iff {cs run : List Char} : runAtBoundary? cs = some run ↔
    ∃ after, cs = run ++ after ∧ 2 ≤ run.length ∧ (∀ c ∈ run, isTermChar c = true) ∧
      startsWithWordChar after = false := by
  rw [runAtBoundary?]
  constructor
  · intro h
    split at h
    · next hboundary =>
      rw [Bool.and_eq_true, decide_eq_true_eq, Bool.not_eq_true'] at hboundary
      obtain rfl := Option.some.inj h
      exact ⟨_, List.takeWhile_append_dropWhile.symm, hboundary.1,
        fun c hc ↦ List.mem_takeWhile_imp hc, hboundary.2⟩
    · cases h
  · rintro ⟨after, rfl, hlength, hrun, hafter⟩
    obtain ⟨htake, hdrop⟩ := takeWhile_isTermChar hrun hafter
    simp only [htake, hdrop, hlength, hafter, decide_true, Bool.not_false, Bool.and_self, if_true]

theorem runsFrom_cons (inWord : Bool) (c : Char) (rest : List Char) :
    runsFrom inWord (c :: rest) =
      (if inWord then none else runAtBoundary? (c :: rest)).toList ++
        runsFrom (isWordChar c) rest := by
  rw [runsFrom]
  cases inWord with
  | true => rfl
  | false => cases runAtBoundary? (c :: rest) <;> rfl

/-- A text ends with a word character. Of the empty one the character before it decides. -/
def endsInWord (inWord : Bool) : List Char → Bool
  | [] => inWord
  | c :: rest => endsInWord (isWordChar c) rest

theorem endsInWord_append_singleton (inWord : Bool) (before : List Char) (c : Char) :
    endsInWord inWord (before ++ [c]) = isWordChar c := by
  induction before generalizing inWord with
  | nil => rfl
  | cons d before ih => exact ih (isWordChar d)

theorem endsInWord_append (inWord : Bool) (first second : List Char) :
    endsInWord inWord (first ++ second) = endsInWord (endsInWord inWord first) second := by
  induction first generalizing inWord with
  | nil => rfl
  | cons c first ih => exact ih (isWordChar c)

/-- A run is a maximal part of term characters, at least two of them, between word boundaries. -/
theorem mem_runsFrom_iff {inWord : Bool} {cs run : List Char} : run ∈ runsFrom inWord cs ↔
    ∃ before after, cs = before ++ run ++ after ∧ 2 ≤ run.length ∧
      (∀ c ∈ run, isTermChar c = true) ∧ endsInWord inWord before = false ∧
      startsWithWordChar after = false := by
  induction cs generalizing inWord with
  | nil =>
    refine iff_of_false List.not_mem_nil ?_
    rintro ⟨before, after, hsplit, hlength, -⟩
    have := congrArg List.length hsplit
    simp only [List.length_nil, List.length_append] at this
    omega
  | cons c rest ih =>
    rw [runsFrom_cons, List.mem_append, Option.mem_toList, ih]
    constructor
    · rintro (hhead | ⟨before, after, rfl, hrun⟩)
      · cases inWord with
        | true => cases hhead
        | false =>
          obtain ⟨after, hsplit, hlength, hterm, hafter⟩ := runAtBoundary?_eq_some_iff.mp hhead
          exact ⟨[], after, hsplit, hlength, hterm, rfl, hafter⟩
      · exact ⟨c :: before, after, rfl, hrun⟩
    · rintro ⟨before, after, hsplit, hlength, hterm, hbefore, hafter⟩
      cases before with
      | nil =>
        refine .inl ?_
        rw [endsInWord] at hbefore
        rw [hbefore, if_neg Bool.false_ne_true]
        exact runAtBoundary?_eq_some_iff.mpr ⟨after, hsplit, hlength, hterm, hafter⟩
      | cons d before =>
        obtain ⟨rfl, hrest⟩ := List.cons.inj hsplit
        exact .inr ⟨before, after, hrest, hlength, hterm, hbefore, hafter⟩

/-! ### Whole words -/

/-- There are word characters on both sides of a place between two texts. -/
def splitsWord (before after : List Char) : Bool :=
  endsInWord false before && startsWithWordChar after

/-- A text stands in another one at a place where neither of its ends is within a word. -/
def StandsWhole (part cs : List Char) : Prop :=
  ∃ before after, cs = before ++ part ++ after ∧ splitsWord before (part ++ after) = false ∧
    splitsWord (before ++ part) after = false

theorem startsWithWordChar_run {run : List Char} (hlength : 2 ≤ run.length)
    (hterm : ∀ c ∈ run, isTermChar c = true) (rest : List Char) :
    startsWithWordChar (run ++ rest) = true := by
  cases run with
  | nil => simp at hlength
  | cons c run => exact isWordChar_of_isTermChar (hterm c List.mem_cons_self)

theorem endsInWord_run {run : List Char} (hlength : 2 ≤ run.length)
    (hterm : ∀ c ∈ run, isTermChar c = true) (inWord : Bool) : endsInWord inWord run = true := by
  cases run using List.reverseRecOn with
  | nil => simp at hlength
  | append_singleton run c =>
    rw [endsInWord_append_singleton]
    exact isWordChar_of_isTermChar (hterm c (List.mem_append_right _ List.mem_cons_self))

theorem mem_runsFrom_of_standsWhole {part cs run : List Char} (h : StandsWhole part cs)
    (hrun : run ∈ runsFrom false part) : run ∈ runsFrom false cs := by
  obtain ⟨before, after, rfl, hstart, hend⟩ := h
  obtain ⟨first, last, rfl, hlength, hterm, hfirst, hlast⟩ := mem_runsFrom_iff.mp hrun
  rw [mem_runsFrom_iff]
  refine ⟨before ++ first, last ++ after, by simp, hlength, hterm, ?_, ?_⟩
  · -- A run at the head of the part is a word character at its head.
    cases first with
    | nil =>
      rw [splitsWord, List.nil_append, List.append_assoc, startsWithWordChar_run hlength hterm,
        Bool.and_true] at hstart
      rwa [List.append_nil]
    | cons c first =>
      rw [endsInWord_append]
      exact hfirst
  · cases last with
    | nil =>
      rw [splitsWord, List.append_nil, ← List.append_assoc, endsInWord_append,
        endsInWord_run hlength hterm, Bool.true_and] at hend
      exact hend
    | cons c last => exact hlast

/-! ### Index terms -/

theorem mem_tokenize_iff {s term : String} : term ∈ tokenize s ↔
    ∃ run ∈ runsFrom false (lowerChars s.toList),
      isStopWord (String.ofList run) = false ∧ stem (String.ofList run) = term := by
  simp only [tokenize, wordRuns, toList_lowercase, List.mem_map, List.mem_filter, Bool.not_eq_true',
    and_assoc]
  constructor
  · rintro ⟨_, ⟨run, hrun, rfl⟩, hstop, hstem⟩
    exact ⟨run, hrun, hstop, hstem⟩
  · rintro ⟨run, hrun, hstop, hstem⟩
    exact ⟨_, ⟨run, hrun, rfl⟩, hstop, hstem⟩

/-- A text that stands in another one as whole words has no index term that the other has not. -/
theorem mem_tokenize_of_standsWhole {part s term : String}
    (h : StandsWhole (lowerChars part.toList) (lowerChars s.toList))
    (hterm : term ∈ tokenize part) : term ∈ tokenize s := by
  obtain ⟨run, hrun, hstop, hstem⟩ := mem_tokenize_iff.mp hterm
  exact mem_tokenize_iff.mpr ⟨run, mem_runsFrom_of_standsWhole h hrun, hstop, hstem⟩

section Cuts

variable {c : Char} (hc : isWordChar c = false)

include hc

/-- A character that is no word character is not in a run, and the text before it ends there as at
its end. -/
theorem runAtBoundary?_append_cons (cs rest : List Char) :
    runAtBoundary? (cs ++ c :: rest) = runAtBoundary? cs := by
  have hterm : isTermChar c = false := isTermChar_eq_false hc
  have hsame : (cs ++ c :: rest).takeWhile isTermChar = cs.takeWhile isTermChar ∧
      startsWithWordChar ((cs ++ c :: rest).dropWhile isTermChar) =
        startsWithWordChar (cs.dropWhile isTermChar) := by
    induction cs with
    | nil => simp [hterm, startsWithWordChar, hc]
    | cons d cs ih =>
      by_cases hd : isTermChar d = true
      · simp [hd, ih]
      · simp [hd, startsWithWordChar]
  rw [runAtBoundary?, runAtBoundary?, hsame.1, hsame.2]

theorem runsFrom_append_cons (inWord : Bool) (first second : List Char) :
    runsFrom inWord (first ++ c :: second) = runsFrom inWord first ++ runsFrom false second := by
  induction first generalizing inWord with
  | nil =>
    have hnone : runAtBoundary? (c :: second) = none := runAtBoundary?_append_cons hc [] second
    rw [List.nil_append, runsFrom_cons, hnone, ite_self, hc]
    rfl
  | cons d first ih =>
    rw [runsFrom_cons, List.cons_append, runsFrom_cons, ih, ← List.cons_append,
      runAtBoundary?_append_cons hc, List.append_assoc]

/-- A character that cuts lowercasing and is no word character cuts a text in two that have their
index terms to themselves. -/
theorem tokenize_append_cons (hcut : IsCut c) (first second : List Char) :
    tokenize (String.ofList (first ++ c :: second)) =
      tokenize (String.ofList first) ++ tokenize (String.ofList second) := by
  simp only [tokenize, wordRuns, toList_lowercase, String.toList_ofList,
    hcut.lowerChars_append_cons, runsFrom_append_cons hc, List.map_append, List.filter_append]

end Cuts

theorem tokenize_intercalate (texts : List String) :
    tokenize (" ".intercalate texts) = texts.flatMap tokenize := by
  rw [← String.ofList_toList (s := " ".intercalate texts), String.toList_intercalate]
  have hspace : " ".toList = [' '] := rfl
  rw [hspace]
  induction texts with
  | nil => decide +kernel
  | cons text rest ih =>
    cases rest with
    | nil => simp
    | cons next rest =>
      rw [List.map_cons] at ih
      rw [List.map_cons, List.map_cons, List.intercalate_cons_cons, List.append_assoc,
        List.singleton_append, tokenize_append_cons (by decide) isCut_space, ih,
        String.ofList_toList]
      exact List.flatMap_cons.symm

end ShardSearch.Text
