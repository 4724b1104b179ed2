import Mathlib.Data.List.Infix
import Mathlib.Data.List.TakeWhile
import ShardSearch.Proofs.TermRuns
import ShardSearch.Query.Plan

/-!
What the scanners find in a query text, from its parts. A separator between two groups is found
where it stands unless one reaches over from the group before it: `groups_append` asks that none
occurs in this group followed by a space. A term is read up to where it ends, at a space or at the
end of the group, whatever comes after that: `Reads` says so of a text in the place of a term, and
`terms_term` and `terms_word` find such a term at the head of a group. Without quotation marks a
text is made of runs, each of which is a term (`terms_run`), so a space after it changes none of its
terms (`terms_append_space`).
-/

set_option autoImplicit false

namespace ShardSearch.Query

/-! ### Separators -/

/-- The texts that separate groups. -/
def separators : List (List Char) :=
  [[' ', '|', ' '], [' ', 'O', 'R', ' '], [' ', 'O', 'r', ' '], [' ', 'o', 'R', ' '],
    [' ', 'o', 'r', ' ']]

/-- No separator occurs in a text. -/
def Unseparated (cs : List Char) : Prop := ∀ s ∈ separators, ¬ s <:+: cs

instance : DecidablePred Unseparated := fun cs ↦
  inferInstanceAs (Decidable (∀ s ∈ separators, ¬ s <:+: cs))

theorem Unseparated.of_part {part cs : List Char} (h : Unseparated cs) (hpart : part <:+: cs) :
    Unseparated part :=
  fun s hs hoccurs ↦ h s hs (hoccurs.trans hpart)

theorem Unseparated.tail {c : Char} {cs : List Char} (h : Unseparated (c :: cs)) :
    Unseparated cs :=
  h.of_part (List.suffix_cons c cs).isInfix

/-- Only the ends of a separator are spaces. -/
theorem separator_inside : ∀ s ∈ separators, ∀ i < s.length - 1, 0 < i → s[i]? ≠ some ' ' := by
  decide

theorem separator_eq_cons {s : List Char} (hs : s ∈ separators) : ∃ later, s = ' ' :: later := by
  simp only [separators, List.mem_cons, List.not_mem_nil, or_false] at hs
  rcases hs with rfl | rfl | rfl | rfl | rfl <;> exact ⟨_, rfl⟩

theorem eq_of_toLower_eq {c lower upper : Char} (hc : c.toLower = lower)
    (hcode : lower.val = upper.val + 32) : c = lower ∨ c = upper := by
  unfold Char.toLower at hc
  split at hc
  · refine .inr (Char.ext ?_)
    have hval := congrArg Char.val hc
    rw [hcode] at hval
    exact (UInt32.add_right_inj 32).mp (by simpa using hval)
  · exact .inl hc

theorem separatorLength_eq_zero {cs : List Char} (h : ∀ s ∈ separators, ¬ s <+: cs) :
    separatorLength cs = 0 := by
  unfold separatorLength
  split
  · next rest => exact absurd ⟨rest, rfl⟩ (h [' ', '|', ' '] (by decide))
  · next o r rest _ =>
    split
    · next hor =>
      rw [Bool.and_eq_true, beq_iff_eq, beq_iff_eq] at hor
      have ho : o = 'o' ∨ o = 'O' := eq_of_toLower_eq hor.1 rfl
      have hr : r = 'r' ∨ r = 'R' := eq_of_toLower_eq hor.2 rfl
      have hs : [' ', o, r, ' '] ∈ separators := by
        rcases ho with rfl | rfl <;> rcases hr with rfl | rfl <;> decide
      exact absurd ⟨rest, rfl⟩ (h _ hs)
    · rfl
  · rfl

theorem groups_separator {s : List Char} (hs : s ∈ separators) (rest : List Char) :
    groups (s ++ rest) = [] :: groups rest := by
  simp only [separators, List.mem_cons, List.not_mem_nil, or_false] at hs
  rcases hs with rfl | rfl | rfl | rfl | rfl <;> rfl

theorem groups_cons {c : Char} {rest : List Char} (h : ∀ s ∈ separators, ¬ s <+: c :: rest) :
    groups (c :: rest) = consHead c (groups rest) := by
  rw [groups, groupsFrom, separatorLength_eq_zero h]
  rfl

/-- A text without separators is one group. -/
theorem groups_of_unseparated {cs : List Char} (h : Unseparated cs) : groups cs = [cs] := by
  induction cs with
  | nil => rfl
  | cons c rest ih =>
    rw [groups_cons fun s hs hstarts ↦ h s hs hstarts.isInfix, ih h.tail]
    rfl

/-- A separator that begins in a text ends with the space after it at the latest. -/
theorem prefix_append_space {s cs rest : List Char} (hs : s ∈ separators) (hcs : cs ≠ [])
    (h : s <+: cs ++ ' ' :: rest) : s <+: cs ++ [' '] := by
  have hspace : cs ++ [' '] <+: cs ++ ' ' :: rest := ⟨rest, by simp⟩
  by_cases hlength : s.length ≤ (cs ++ [' ']).length
  · exact List.prefix_of_prefix_length_le h hspace hlength
  · have hlonger : cs.length < s.length - 1 := by
      rw [List.length_append, List.length_singleton] at hlength
      omega
    obtain ⟨later, rfl⟩ : cs ++ [' '] <+: s :=
      List.prefix_of_prefix_length_le hspace h (Nat.le_of_not_le hlength)
    exact absurd (by simp) (separator_inside _ hs _ hlonger (List.length_pos_iff.mpr hcs))

/-- Two parts of a text have no separators in common with the space between them if each has none
together with it. -/
theorem Unseparated.append_space {first last : List Char} (hfirst : Unseparated (first ++ [' ']))
    (hlast : Unseparated (' ' :: last)) : Unseparated (first ++ ' ' :: last) := by
  induction first with
  | nil => exact hlast
  | cons c first ih =>
    intro s hs hoccurs
    rw [List.cons_append, List.infix_cons_iff, ← List.cons_append] at hoccurs
    rcases hoccurs with hstarts | hlater
    · exact hfirst s hs (prefix_append_space hs (List.cons_ne_nil c first) hstarts).isInfix
    · exact ih hfirst.tail s hs hlater

/-- A separator has two spaces. -/
theorem unseparated_of_count {cs : List Char} (h : cs.count ' ' ≤ 1) : Unseparated cs := by
  intro s hs hoccurs
  have hcount : ∀ s ∈ separators, s.count ' ' = 2 := by decide
  have hle := hoccurs.sublist.count_le ' '
  rw [hcount s hs] at hle
  omega

theorem groups_append {cs s : List Char} (hcs : Unseparated (cs ++ [' '])) (hs : s ∈ separators)
    (rest : List Char) : groups (cs ++ s ++ rest) = cs :: groups rest := by
  obtain ⟨later, hlater⟩ := separator_eq_cons hs
  induction cs with
  | nil => exact groups_separator hs rest
  | cons c cs ih =>
    have hnone : ∀ other ∈ separators, ¬ other <+: c :: (cs ++ s ++ rest) := by
      intro other hother hstarts
      have hspace : other <+: (c :: cs) ++ ' ' :: (later ++ rest) := by
        rw [hlater] at hstarts
        simpa using hstarts
      exact hcs other hother (prefix_append_space hother (List.cons_ne_nil c cs) hspace).isInfix
    rw [List.cons_append, List.cons_append, groups_cons hnone, ih hcs.tail]
    rfl

/-! ### Terms -/

/-- A term ends at the end of a text and before a space. -/
def EndsTerm (tail : List Char) : Prop := ∀ c ∈ tail.head?, c = ' '

theorem endsTerm_nil : EndsTerm [] := fun _ hc ↦ nomatch hc

theorem endsTerm_space (rest : List Char) : EndsTerm (' ' :: rest) :=
  fun _ hc ↦ (Option.mem_some.mp hc).symm

/-- A text between quotation marks. -/
def quoted (cs : List Char) : List Char := '"' :: (cs ++ ['"'])

/-- A separator that begins before a quotation mark ends before it. -/
theorem prefix_of_append_quote {s cs rest : List Char} (hs : s ∈ separators)
    (h : s <+: cs ++ '"' :: rest) : s <+: cs := by
  have hfree : ∀ s ∈ separators, '"' ∉ s := by decide
  by_cases hlength : s.length ≤ cs.length
  · exact List.prefix_of_prefix_length_le h (List.prefix_append _ _) hlength
  · have hquote : cs ++ ['"'] <+: cs ++ '"' :: rest := ⟨rest, by simp⟩
    have hlonger : (cs ++ ['"']).length ≤ s.length := by
      rw [List.length_append, List.length_singleton]
      omega
    have hmem : '"' ∈ s := (List.prefix_of_prefix_length_le hquote h hlonger).subset (by simp)
    exact absurd hmem (hfree s hs)

theorem Unseparated.append_quote {first last : List Char} (hfirst : Unseparated first)
    (hlast : Unseparated last) : Unseparated (first ++ '"' :: last) := by
  intro s hs hoccurs
  induction first with
  | nil =>
    rw [List.nil_append, List.infix_cons_iff] at hoccurs
    rcases hoccurs with hstarts | hlater
    · exact hfirst s hs (prefix_of_append_quote hs hstarts).isInfix
    · exact hlast s hs hlater
  | cons c first ih =>
    rw [List.cons_append, List.infix_cons_iff, ← List.cons_append] at hoccurs
    rcases hoccurs with hstarts | hlater
    · exact hfirst s hs (prefix_of_append_quote hs hstarts).isInfix
    · exact ih hfirst.tail hlater

theorem Unseparated.quoted {cs : List Char} (h : Unseparated cs) : Unseparated (quoted cs) := by
  have hnil : Unseparated [] := by decide
  exact hnil.append_quote (h.append_quote hnil)

section Reading

variable {cs name tail : List Char}

theorem head?_ne {c : Char} (h : c ∉ cs) : cs.head? ≠ some c :=
  fun hhead ↦ h (List.mem_of_mem_head? hhead)

theorem forall_bne {c : Char} (h : c ∉ cs) : ∀ other ∈ cs, (other != c) = true :=
  fun _ hother ↦ bne_iff_ne.mpr fun heq ↦ h (heq ▸ hother)

theorem EndsTerm.eq_nil_or (h : EndsTerm tail) : tail = [] ∨ ∃ rest, tail = ' ' :: rest := by
  cases tail with
  | nil => exact .inl rfl
  | cons c rest => exact .inr ⟨rest, by rw [h c rfl]⟩

theorem run_append (hcs : ' ' ∉ cs) (h : EndsTerm tail) : run (cs ++ tail) = cs := by
  rw [run, List.takeWhile_append_of_pos (forall_bne hcs)]
  rcases h.eq_nil_or with rfl | ⟨rest, rfl⟩ <;> simp

theorem quotation?_eq_none (h : cs.head? ≠ some '"') : quotation? cs = none := by
  unfold quotation?
  split
  · exact absurd rfl h
  · rfl

theorem value_append (hspace : ' ' ∉ cs) (hquote : '"' ∉ cs) (h : EndsTerm tail) :
    value (cs ++ tail) = cs := by
  have hhead : (cs ++ tail).head? ≠ some '"' := by
    cases cs with
    | nil => rcases h.eq_nil_or with rfl | ⟨rest, rfl⟩ <;> simp
    | cons c rest => exact (head?_ne hquote : (c :: rest).head? ≠ some '"')
  rw [value, quotation?_eq_none hhead, Option.getD_none, run_append hspace h]

theorem value_quoted (hcs : '"' ∉ cs) (tail : List Char) :
    value (quoted cs ++ tail) = quoted cs := by
  have htext : quoted cs ++ tail = '"' :: (cs ++ '"' :: tail) := by simp [quoted]
  have hclosed : (cs ++ '"' :: tail).contains '"' = true := by simp
  rw [htext, value, quotation?, if_pos hclosed, Option.getD_some,
    List.takeWhile_append_of_pos (forall_bne hcs), List.takeWhile_cons_of_neg (by decide),
    List.append_nil]
  rfl

theorem named?_append (hname : ∀ c ∈ name, isNameChar c = true) (hne : name ≠ [])
    (hvalue : value tail ≠ []) :
    named? (name ++ ':' :: tail) = some (name ++ ':' :: value tail) := by
  have htake : (name ++ ':' :: tail).takeWhile isNameChar = name := by
    rw [List.takeWhile_append_of_pos hname, List.takeWhile_cons_of_neg (by decide), List.append_nil]
  have hdrop : (name ++ ':' :: tail).dropWhile isNameChar = ':' :: tail := by
    rw [List.dropWhile_append_of_pos hname, List.dropWhile_cons_of_neg (by decide)]
  simp only [named?, htake, hdrop]
  rw [if_neg (by simp [hne, hvalue])]

/-- A name with its value at the head of a run of characters is the whole run. -/
theorem eq_of_named?_run {named : List Char} (hspace : ' ' ∉ cs) (hquote : '"' ∉ cs)
    (h : EndsTerm tail) (hnamed : named? (cs ++ tail) = some named) : named = cs := by
  unfold named? at hnamed
  split at hnamed
  · next rest hdrop =>
    obtain ⟨v, hv, rfl⟩ : ∃ v, cs.dropWhile isNameChar = ':' :: v ∧ rest = v ++ tail := by
      cases hcs : cs.dropWhile isNameChar with
      | nil =>
        rw [List.dropWhile_append, hcs, if_pos List.isEmpty_nil] at hdrop
        rcases h.eq_nil_or with rfl | ⟨later, rfl⟩
        · cases hdrop
        · rw [List.dropWhile_cons_of_neg (by decide)] at hdrop
          cases hdrop
      | cons d v =>
        rw [List.dropWhile_append, hcs, if_neg (by simp), List.cons_append] at hdrop
        obtain ⟨rfl, hrest⟩ := List.cons.inj hdrop
        exact ⟨v, rfl, hrest.symm⟩
    have hsub : ∀ c ∈ v, c ∈ cs := fun c hc ↦
      (List.dropWhile_suffix isNameChar).subset (hv ▸ List.mem_cons_of_mem _ hc)
    have hvalue : value (v ++ tail) = v :=
      value_append (fun hc ↦ hspace (hsub _ hc)) (fun hc ↦ hquote (hsub _ hc)) h
    have hwhole : (cs ++ tail).takeWhile isNameChar ++ ':' :: v ++ tail = cs ++ tail := by
      have hsplit := List.takeWhile_append_dropWhile (p := isNameChar) (l := cs ++ tail)
      rwa [hdrop, ← List.cons_append, ← List.append_assoc] at hsplit
    rw [hvalue] at hnamed
    rcases Option.ite_none_left_eq_some.mp hnamed with ⟨-, hwritten⟩
    rw [← Option.some.inj hwritten]
    exact List.append_cancel_right hwhole
  · cases hnamed

/-- In the place of a term a text is read as it stands, whatever comes after it. -/
def Reads (cs : List Char) : Prop := ∀ tail, EndsTerm tail → body (cs ++ tail) = cs

theorem reads_run (hspace : ' ' ∉ cs) (hquote : '"' ∉ cs) : Reads cs := by
  intro tail h
  rw [body]
  cases hnamed : named? (cs ++ tail) with
  | none => rw [Option.getD_none, value_append hspace hquote h]
  | some named => rw [Option.getD_some, eq_of_named?_run hspace hquote h hnamed]

theorem reads_quoted (hcs : '"' ∉ cs) : Reads (quoted cs) := by
  intro tail _
  have hnamed : named? (quoted cs ++ tail) = none := rfl
  rw [body, hnamed, Option.getD_none, value_quoted hcs]

theorem reads_named (hname : ∀ c ∈ name, isNameChar c = true) (hne : name ≠ []) (hcs : cs ≠ [])
    (hvalue : ∀ tail, EndsTerm tail → value (cs ++ tail) = cs) : Reads (name ++ ':' :: cs) := by
  intro tail h
  rw [List.append_assoc, List.cons_append, body,
    named?_append hname hne (by rw [hvalue tail h]; exact hcs), hvalue tail h, Option.getD_some]

/-- The sign of a negated term. -/
def dash (negated : Bool) : List Char := if negated then ['-'] else []

theorem leadingTerm_dash (hreads : Reads cs) (hne : cs ≠ []) (h : EndsTerm tail) :
    leadingTerm ('-' :: (cs ++ tail)) = ⟨true, cs⟩ := by
  rw [leadingTerm, hreads tail h, if_neg (by simpa using hne)]

theorem leadingTerm_of_ne_dash {c : Char} (hc : c ≠ '-') (cs : List Char) :
    leadingTerm (c :: cs) = ⟨false, body (c :: cs)⟩ := by
  unfold leadingTerm
  split
  · next heq => exact absurd (List.cons.inj heq).1 hc
  · rfl

theorem leadingTerm_append (hreads : Reads cs) (hne : cs ≠ []) (hdash : cs.head? ≠ some '-')
    (h : EndsTerm tail) : leadingTerm (cs ++ tail) = ⟨false, cs⟩ := by
  cases cs with
  | nil => exact absurd rfl hne
  | cons c rest =>
    have hc : c ≠ '-' := fun hc ↦ hdash (congrArg some hc)
    rw [List.cons_append, leadingTerm_of_ne_dash hc, ← List.cons_append, hreads tail h]

theorem body_lone_dash (h : EndsTerm tail) : body ('-' :: tail) = ['-'] := by
  have hspace : ' ' ∉ ['-'] := by decide
  have hquote : '"' ∉ ['-'] := by decide
  exact reads_run hspace hquote tail h

/-- A dash with nothing to negate is a term itself. -/
theorem leadingTerm_lone_dash (h : EndsTerm tail) :
    leadingTerm ('-' :: tail) = ⟨false, ['-']⟩ := by
  have hbody : body tail = [] := reads_run List.not_mem_nil List.not_mem_nil tail h
  rw [leadingTerm, hbody, if_pos List.isEmpty_nil, body_lone_dash h]

/-- The rest of a group is scanned after the whole of its first term. -/
theorem terms_append {term : Term} (hhead : cs.head? ≠ some ' ') (hne : cs ≠ [])
    (hterm : leadingTerm (cs ++ tail) = term) (hwidth : term.width = cs.length) :
    terms (cs ++ tail) = term :: terms tail := by
  cases cs with
  | nil => exact absurd rfl hne
  | cons c rest =>
    have hc : (c == ' ') = false := beq_eq_false_iff_ne.mpr fun hc ↦ hhead (congrArg some hc)
    rw [List.cons_append] at hterm ⊢
    rw [terms, termsFrom, hc, if_neg Bool.false_ne_true, hterm]
    simp only [termsFrom_skip, hwidth, List.length_cons, Nat.add_sub_cancel, List.drop_left]

theorem terms_dash (hreads : Reads cs) (hne : cs ≠ []) (h : EndsTerm tail) :
    terms ('-' :: (cs ++ tail)) = ⟨true, cs⟩ :: terms tail := by
  rw [← List.cons_append]
  exact terms_append (by simp) (List.cons_ne_nil '-' cs) (leadingTerm_dash hreads hne h) rfl

theorem terms_term (negated : Bool) (hreads : Reads cs) (hne : cs ≠ [])
    (hdash : cs.head? ≠ some '-') (hspace : cs.head? ≠ some ' ') (h : EndsTerm tail) :
    terms (dash negated ++ cs ++ tail) = ⟨negated, cs⟩ :: terms tail := by
  cases negated with
  | false => exact terms_append hspace hne (leadingTerm_append hreads hne hdash h) rfl
  | true => exact terms_dash hreads hne h

/-- The term that a run of characters is: a dash before more of them negates these. -/
def runTerm : List Char → Term
  | '-' :: c :: rest => ⟨true, c :: rest⟩
  | cs => ⟨false, cs⟩

theorem terms_run (hne : cs ≠ []) (hspace : ' ' ∉ cs) (hquote : '"' ∉ cs) (h : EndsTerm tail) :
    terms (cs ++ tail) = runTerm cs :: terms tail := by
  have hreads : Reads cs := reads_run hspace hquote
  by_cases hdash : cs.head? = some '-'
  · obtain ⟨word, rfl⟩ : ∃ word, cs = '-' :: word := by
      cases cs with
      | nil => cases hdash
      | cons c word => exact ⟨word, by rw [Option.some.inj hdash]⟩
    have hword : Reads word := reads_run (List.not_mem_of_not_mem_cons hspace)
      (List.not_mem_of_not_mem_cons hquote)
    cases word with
    | nil => exact terms_append (by simp) hne (leadingTerm_lone_dash h) rfl
    | cons c rest => exact terms_dash hword (List.cons_ne_nil c rest) h
  · have hrun : runTerm cs = ⟨false, cs⟩ := by
      unfold runTerm
      split
      · exact absurd rfl hdash
      · rfl
    rw [hrun]
    exact terms_term false hreads hne hdash (head?_ne hspace) h

/-- A text that does not begin with a space begins with a run. -/
theorem exists_run {c : Char} (hc : c ≠ ' ') (cs : List Char) : ∃ first last,
    c :: cs = first ++ last ∧ first ≠ [] ∧ ' ' ∉ first ∧ EndsTerm last := by
  have hrun : (c :: cs).takeWhile (· != ' ') = c :: cs.takeWhile (· != ' ') :=
    List.takeWhile_cons_of_pos (bne_iff_ne.mpr hc)
  refine ⟨(c :: cs).takeWhile (· != ' '), (c :: cs).dropWhile (· != ' '),
    List.takeWhile_append_dropWhile.symm, ?_, ?_, ?_⟩
  · rw [hrun]
    exact List.cons_ne_nil _ _
  · exact fun hmem ↦ absurd (List.mem_takeWhile_imp hmem) (by decide)
  · intro d hd
    have hnot := List.head?_dropWhile_not (· != ' ') (c :: cs)
    rw [Option.mem_def.mp hd] at hnot
    simpa using hnot

/-- Before a space a text without quotation marks has the terms that it has at the end. -/
theorem terms_append_space (hquote : '"' ∉ cs) (rest : List Char) :
    terms (cs ++ ' ' :: rest) = terms cs ++ terms rest := by
  -- The first run of the text is its first term, and what is left of it is shorter.
  induction hlength : cs.length using Nat.strong_induction_on generalizing cs with
  | _ n ih =>
    subst hlength
    cases cs with
    | nil => rfl
    | cons c cs =>
      by_cases hc : c = ' '
      · subst hc
        have hrest : terms (cs ++ ' ' :: rest) = terms cs ++ terms rest :=
          ih cs.length (Nat.lt_succ_self _) (List.not_mem_of_not_mem_cons hquote) rfl
        exact hrest
      · obtain ⟨first, last, hsplit, hne, hspace, hends⟩ := exists_run hc cs
        rw [hsplit, List.mem_append, not_or] at hquote
        have hshorter : last.length < (c :: cs).length := by
          rw [hsplit, List.length_append]
          have := List.length_pos_iff.mpr hne
          omega
        have hlater : EndsTerm (last ++ ' ' :: rest) := by
          rcases hends.eq_nil_or with rfl | ⟨later, rfl⟩
          · exact endsTerm_space rest
          · exact endsTerm_space _
        rw [hsplit, List.append_assoc, terms_run hne hspace hquote.1 hlater,
          terms_run hne hspace hquote.1 hends, ih last.length hshorter hquote.2 rfl,
          List.cons_append]

end Reading

/-! ### Words -/

section Words

open Text

/-- A dash before a text adds no index term to it. -/
theorem tokenize_dash (cs : List Char) :
    tokenize (String.ofList ('-' :: cs)) = tokenize (String.ofList cs) := by
  have hnone : tokenize (String.ofList []) = [] := by decide +kernel
  have hcut := tokenize_append_cons (by decide) isCut_dash [] cs
  simpa only [hnone, List.nil_append] using hcut

theorem isQuoted_eq_false {cs : List Char} (h : cs.head? ≠ some '"') : isQuoted cs = false := by
  rw [isQuoted, beq_eq_false_iff_ne.mpr h, Bool.false_and]

variable {cs tail : List Char}

theorem contribution_of_word (negated : Bool) (hcolon : ':' ∉ cs) (hquote : '"' ∉ cs) :
    (⟨negated, cs⟩ : Term).contribution = { conditions := keywords (String.ofList cs) } := by
  have hcut : cutAt? [':'] cs = none := by
    rw [cutAt?_eq_none_iff, List.singleton_infix_iff]
    exact hcolon
  have hbare : nameAndValue? cs = none := by
    rw [nameAndValue?, isQuoted_eq_false (head?_ne hquote), if_neg Bool.false_ne_true, hcut]
  rw [Term.contribution, hbare]

/-- A word adds its index terms to its group, also after a dash or with one. -/
theorem terms_word (hne : cs ≠ []) (hspace : ' ' ∉ cs) (hcolon : ':' ∉ cs) (hquote : '"' ∉ cs)
    (h : EndsTerm tail) : ∃ term, terms (cs ++ tail) = term :: terms tail ∧
      term.contribution = { conditions := keywords (String.ofList cs) } := by
  refine ⟨runTerm cs, terms_run hne hspace hquote h, ?_⟩
  unfold runTerm
  split
  · rw [contribution_of_word true (List.not_mem_of_not_mem_cons hcolon)
      (List.not_mem_of_not_mem_cons hquote), keywords, keywords, tokenize_dash]
  · exact contribution_of_word false hcolon hquote

end Words

end ShardSearch.Query
