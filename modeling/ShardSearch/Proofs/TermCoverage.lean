import ShardSearch.Proofs.TermForms

/-!
Scanning a group loses nothing. `Scanned` says of a text and some terms that the text is made up of
the terms, in their order and each with its dash, and of spaces. What may stand there as a term is
in `Stands` and `Term.Leads`: it has spaces only between two quotation marks at its end, without
such marks it goes on to the next space, and what looks like the beginning of a quotation or like a
dash is taken for one wherever it can be. So a text is made up of terms in one way only, the one
that the scanner finds (`scanned_terms`, `Scanned.eq_terms`).

A step of the scanner takes one term off the text: `exists_term_append` says that there is one, and
`terms_written_append` that it is found. The dash needs a look ahead, since it belongs to a term
only if there is one behind it, so `exists_body_append` asks of a text that it has a term at all,
and not what it begins with.
-/

set_option autoImplicit false

namespace ShardSearch.Query

/-- A term as it is written. -/
def Term.written (t : Term) : List Char := dash t.negated ++ t.text

theorem Term.length_written (t : Term) : t.written.length = t.width := by
  rw [written, width, List.length_append]
  cases t.negated with
  | false => exact Nat.zero_add _
  | true => exact Nat.add_comm 1 _

/-- A text does not begin with a closed quotation. -/
def Unquoted (cs : List Char) : Prop := cs.head? = some '"' → '"' ∉ cs.tail

/-- A text is a term, its dash apart, with another text behind it. -/
inductive Stands : List Char → List Char → Prop where
  | plain {cs rest : List Char} (hne : cs ≠ []) (hspace : ' ' ∉ cs) (hends : EndsTerm rest)
      (hunquoted : Unquoted (cs ++ rest))
      (hvalue : ∀ name behind, cs = name ++ ':' :: behind →
        (∀ c ∈ name, isNameChar c = true) → name ≠ [] → Unquoted (behind ++ rest)) :
      Stands cs rest
  | quotation {inner rest : List Char} (hquote : '"' ∉ inner) : Stands (quoted inner) rest
  | named {name inner rest : List Char} (hname : ∀ c ∈ name, isNameChar c = true)
      (hne : name ≠ []) (hquote : '"' ∉ inner) : Stands (name ++ ':' :: quoted inner) rest

/-- A dash that does not negate a term is one by itself. -/
structure Term.Leads (t : Term) (rest : List Char) : Prop where
  stands : Stands t.text rest
  lone_dash : t.negated = false → t.text.head? = some '-' → t.text = ['-']

/-- Terms and spaces make up a text. -/
inductive Scanned : List Char → List Term → Prop where
  | nil : Scanned [] []
  | space {cs : List Char} {found : List Term} (h : Scanned cs found) : Scanned (' ' :: cs) found
  | term {t : Term} {rest : List Char} {found : List Term} (hleads : t.Leads rest)
      (h : Scanned rest found) : Scanned (t.written ++ rest) (t :: found)

/-! ### What stands is read -/

section Reading

variable {cs rest : List Char}

theorem run_append_dropWhile (cs : List Char) : run cs ++ cs.dropWhile (· != ' ') = cs :=
  List.takeWhile_append_dropWhile

theorem endsTerm_dropWhile (cs : List Char) : EndsTerm (cs.dropWhile (· != ' ')) := by
  intro c hc
  have hnot := List.head?_dropWhile_not (· != ' ') cs
  rw [Option.mem_def.mp hc] at hnot
  simpa using hnot

/-- Text in front of a colon that is all name is the name that the colon ends. -/
theorem named_inj {name other first last : List Char} (hname : ∀ c ∈ name, isNameChar c = true)
    (hother : ∀ c ∈ other, isNameChar c = true)
    (h : name ++ ':' :: first = other ++ ':' :: last) : name = other ∧ first = last := by
  have htake : ∀ part rest : List Char, (∀ c ∈ part, isNameChar c = true) →
      (part ++ ':' :: rest).takeWhile isNameChar = part := by
    intro part rest hpart
    rw [List.takeWhile_append_of_pos hpart, List.takeWhile_cons_of_neg (by decide),
      List.append_nil]
  have hsame : name = other := by
    rw [← htake name first hname, h, htake other last hother]
  subst hsame
  exact ⟨rfl, (List.cons.inj (List.append_cancel_left h)).2⟩

theorem value_of_unquoted (h : Unquoted cs) : value cs = run cs := by
  rcases value_cases cs with ⟨inner, rest, hinner, rfl, -⟩ | ⟨-, hvalue⟩
  · exact absurd (by simp [quoted]) (h rfl)
  · exact hvalue

theorem Stands.ne_nil (h : Stands cs rest) : cs ≠ [] := by
  cases h with
  | plain hne hspace hends hunquoted hvalue => exact hne
  | quotation hquote => exact List.cons_ne_nil _ _
  | named hname hne hquote => simp

theorem Stands.head?_ne_space (h : Stands cs rest) : cs.head? ≠ some ' ' := by
  cases h with
  | plain hne hspace hends hunquoted hvalue => exact head?_ne hspace
  | quotation hquote => simp [quoted]
  | named hname hne hquote =>
    exact head?_append_ne hne (not_mem_of_isNameChar hname (by decide)) _

theorem Stands.endsTerm (h : Stands cs rest) (hquote : '"' ∉ cs) : EndsTerm rest := by
  cases h with
  | plain hne hspace hends hunquoted hvalue => exact hends
  | quotation _ => exact absurd (by simp [quoted]) hquote
  | named _ _ _ => exact absurd (by simp [quoted]) hquote

/-- A text that stands as a term is read as one. -/
theorem Stands.body_append (h : Stands cs rest) : body (cs ++ rest) = cs := by
  cases h with
  | @quotation inner _ hquote =>
    have hnamed : named? (quoted inner ++ rest) = none := rfl
    rw [body, hnamed, Option.getD_none, value_quoted hquote]
  | named hname hne hquote =>
    rw [List.append_assoc, List.cons_append, body,
      named?_append hname hne (by rw [value_quoted hquote]; exact List.cons_ne_nil _ _),
      value_quoted hquote, Option.getD_some]
  | plain hne hspace hends hunquoted hvalue =>
    have hrun : run (cs ++ rest) = cs := run_append hspace hends
    rw [body]
    cases hnamed : named? (cs ++ rest) with
    | none => rw [Option.getD_none, value_of_unquoted hunquoted, hrun]
    | some text =>
      obtain ⟨name, behind, htext, hname, hne', -, rfl⟩ := exists_of_named? hnamed
      -- A name has no space, so the run of the text is the name with the run behind the colon.
      have hbehind : cs = name ++ ':' :: run behind := by
        have hfree : ∀ c ∈ name, (c != ' ') = true :=
          forall_bne (not_mem_of_isNameChar hname (by decide))
        rw [← hrun, htext, run, List.takeWhile_append_of_pos hfree,
          List.takeWhile_cons_of_pos (by decide), run]
      have hrest : run behind ++ rest = behind := by
        rw [hbehind, List.append_assoc, List.cons_append] at htext
        exact (List.cons.inj (List.append_cancel_left htext)).2
      have hunquoted' := hvalue name (run behind) hbehind hname hne'
      rw [hrest] at hunquoted'
      rw [Option.getD_some, value_of_unquoted hunquoted', ← hbehind]

theorem Term.Leads.leadingTerm_append {t : Term} (h : t.Leads rest) :
    leadingTerm (t.written ++ rest) = t := by
  obtain ⟨negated, text⟩ := t
  have hbody : body (text ++ rest) = text := h.stands.body_append
  have hne : text ≠ [] := h.stands.ne_nil
  cases negated with
  | true =>
    change leadingTerm ('-' :: (text ++ rest)) = _
    rw [leadingTerm, hbody, if_neg (by simpa using hne)]
  | false =>
    change leadingTerm (text ++ rest) = _
    cases text with
    | nil => exact absurd rfl hne
    | cons c tail =>
      by_cases hc : c = '-'
      · subst hc
        obtain rfl : tail = [] := (List.cons.inj (h.lone_dash rfl rfl)).2
        have hquote : '"' ∉ ['-'] := by decide
        exact leadingTerm_lone_dash (h.stands.endsTerm hquote)
      · rw [List.cons_append] at hbody ⊢
        rw [leadingTerm_of_ne_dash hc, hbody]

/-- A term at the head of a text is found, and the scanner goes on behind it. -/
theorem terms_written_append {t : Term} (h : t.Leads rest) :
    terms (t.written ++ rest) = t :: terms rest := by
  have hne : t.written ≠ [] := List.append_ne_nil_of_right_ne_nil _ h.stands.ne_nil
  have hhead : t.written.head? ≠ some ' ' := by
    rw [Term.written]
    cases t.negated with
    | true => simp [dash]
    | false => exact h.stands.head?_ne_space
  exact terms_append hhead hne h.leadingTerm_append t.length_written.symm

theorem Scanned.eq_terms {found : List Term} (h : Scanned cs found) : found = terms cs := by
  induction h with
  | nil => rfl
  | space h ih => exact ih
  | term hleads h ih => rw [terms_written_append hleads, ih]

end Reading

/-! ### What is read stands -/

/-- A value at the head of a text is a closed quotation, or it goes on to the next space. -/
theorem exists_value_append (cs : List Char) : ∃ rest, cs = value cs ++ rest ∧
    ((∃ inner, '"' ∉ inner ∧ value cs = quoted inner) ∨
      ' ' ∉ value cs ∧ EndsTerm rest ∧ Unquoted cs) := by
  rcases value_cases cs with ⟨inner, rest, hinner, htext, hvalue⟩ | ⟨hunquoted, hvalue⟩
  · exact ⟨rest, by rw [hvalue]; exact htext, .inl ⟨inner, hinner, hvalue⟩⟩
  · rw [hvalue]
    exact ⟨cs.dropWhile (· != ' '), (run_append_dropWhile cs).symm,
      .inr ⟨space_not_mem_run cs, endsTerm_dropWhile cs, hunquoted⟩⟩

theorem exists_body_append {cs : List Char} (hne : body cs ≠ []) :
    ∃ rest, cs = body cs ++ rest ∧ Stands (body cs) rest := by
  rw [body] at hne ⊢
  cases hnamed : named? cs with
  | some text =>
    obtain ⟨name, behind, htext, hname, hne', -, rfl⟩ := exists_of_named? hnamed
    obtain ⟨rest, hrest, hvalue⟩ := exists_value_append behind
    rw [Option.getD_some]
    refine ⟨rest, ?_, ?_⟩
    · rw [htext, List.append_assoc, List.cons_append, ← hrest]
    · rcases hvalue with ⟨inner, hinner, hquoted⟩ | ⟨hspace, hends, hunquoted⟩
      · rw [hquoted]
        exact .named hname hne' hinner
      · refine .plain (by simp) ?_ hends ?_ ?_
        · have hfree : ' ' ∉ name := not_mem_of_isNameChar hname (by decide)
          simp [hfree, hspace]
        · intro hhead
          rw [List.append_assoc] at hhead
          exact absurd hhead (head?_named_ne hname hne' _)
        · intro other v hother hchars _
          obtain ⟨-, rfl⟩ := named_inj hname hchars hother
          rw [← hrest]
          exact hunquoted
  | none =>
    rw [hnamed, Option.getD_none] at hne
    obtain ⟨rest, hrest, hvalue⟩ := exists_value_append cs
    rw [Option.getD_none]
    refine ⟨rest, hrest, ?_⟩
    rcases hvalue with ⟨inner, hinner, hquoted⟩ | ⟨hspace, hends, hunquoted⟩
    · rw [hquoted]
      exact .quotation hinner
    · refine .plain hne hspace hends (hrest ▸ hunquoted) ?_
      -- With a quotation behind the colon the name would have been found.
      intro name behind htext hname hne' hhead
      obtain ⟨tail, htail⟩ := List.head?_eq_some_iff.mp hhead
      have hsome : value (behind ++ rest) ≠ [] := htail ▸ value_cons_ne_nil (by decide) tail
      rw [htext, List.append_assoc, List.cons_append] at hrest
      rw [hrest, named?_append hname hne' hsome] at hnamed
      cases hnamed

theorem body_cons_ne_nil {c : Char} (hc : c ≠ ' ') (cs : List Char) : body (c :: cs) ≠ [] := by
  rw [body]
  cases hnamed : named? (c :: cs) with
  | some text =>
    obtain ⟨name, rest, -, -, -, -, rfl⟩ := exists_of_named? hnamed
    simp
  | none => exact value_cons_ne_nil hc cs

theorem endsTerm_of_body_eq_nil {cs : List Char} (h : body cs = []) : EndsTerm cs := by
  intro c hc
  obtain ⟨tail, rfl⟩ := List.head?_eq_some_iff.mp hc
  by_contra hne
  exact body_cons_ne_nil hne tail h

/-- A text that does not begin with a space begins with a term. -/
theorem exists_term_append {c : Char} (hc : c ≠ ' ') (cs : List Char) :
    ∃ (t : Term) (rest : List Char), c :: cs = t.written ++ rest ∧ t.Leads rest := by
  by_cases hdash : c = '-'
  · subst hdash
    by_cases hbody : body cs = []
    · have hends : EndsTerm cs := endsTerm_of_body_eq_nil hbody
      have hlone : body ('-' :: cs) ≠ [] := body_cons_ne_nil hc cs
      obtain ⟨rest, htext, hstands⟩ := exists_body_append hlone
      rw [body_lone_dash hends] at htext hstands
      exact ⟨⟨false, ['-']⟩, rest, htext, hstands, fun _ _ ↦ rfl⟩
    · obtain ⟨rest, htext, hstands⟩ := exists_body_append hbody
      exact ⟨⟨true, body cs⟩, rest, congrArg ('-' :: ·) htext, hstands, fun h ↦ by cases h⟩
  · obtain ⟨rest, htext, hstands⟩ := exists_body_append (body_cons_ne_nil hc cs)
    refine ⟨⟨false, body (c :: cs)⟩, rest, htext, hstands, fun _ hhead ↦ ?_⟩
    have hsame := congrArg List.head? htext
    rw [List.head?_append_of_ne_nil _ hstands.ne_nil, List.head?_cons, hhead] at hsame
    exact absurd (Option.some.inj hsame) hdash

theorem scanned_terms (cs : List Char) : Scanned cs (terms cs) := by
  -- What is left of the text after its first space or term is shorter.
  induction hlength : cs.length using Nat.strong_induction_on generalizing cs with
  | _ n ih =>
    subst hlength
    cases cs with
    | nil => exact .nil
    | cons c cs =>
      by_cases hc : c = ' '
      · subst hc
        exact .space (ih cs.length (Nat.lt_succ_self _) cs rfl)
      · obtain ⟨t, rest, htext, hleads⟩ := exists_term_append hc cs
        have hshorter : rest.length < (c :: cs).length := by
          have hpositive := List.length_pos_iff.mpr hleads.stands.ne_nil
          rw [htext, Term.written, List.length_append, List.length_append]
          omega
        rw [htext, terms_written_append hleads]
        exact .term hleads (ih rest.length hshorter rest rfl)

theorem Scanned.filter_eq {cs : List Char} {found : List Term} (h : Scanned cs found) :
    cs.filter (· != ' ') = found.flatMap fun t ↦ t.written.filter (· != ' ') := by
  induction h with
  | nil => rfl
  | space h ih => rw [List.filter_cons_of_neg (by decide), ih]
  | term hleads h ih => rw [List.filter_append, List.flatMap_cons, ih]

/-- The terms of a text are what it is made up of besides spaces, in the only way in which it is
made up of terms. So one after the other they have all its characters that are no spaces. -/
theorem terms_lose_nothing (cs : List Char) : (∀ found, Scanned cs found ↔ found = terms cs) ∧
    cs.filter (· != ' ') = (terms cs).flatMap fun t ↦ t.written.filter (· != ' ') := by
  refine ⟨fun found ↦ ⟨Scanned.eq_terms, ?_⟩, (scanned_terms cs).filter_eq⟩
  rintro rfl
  exact scanned_terms cs

end ShardSearch.Query
