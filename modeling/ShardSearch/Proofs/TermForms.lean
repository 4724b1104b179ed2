import ShardSearch.Proofs.QueryGrammar

/-!
The forms of a term, in any text. What the scanner takes for a value is a closed quotation or a run
up to a space, and a run that begins with a quotation mark has no other one, or else it would have
been a quotation (`scannedValue_value`). What it takes for a term is a name with such a value, or a
value alone, and a value alone does not begin with a name, a colon and something after it
(`scannedBody_body`).

So the value that a term has for a known field is one that the scanner took for a value
(`ScannedBody.scannedValue`): within a run there may be anything behind a colon, but what stands
before it names no field then. With its quotation marks taken off a value has no other ones left,
and one that has none around it has no space (`ScannedValue.unquote_cases`).
-/

set_option autoImplicit false

namespace ShardSearch.Query

/-! ### Values -/

/-- A text that the scanner can take for a value. -/
inductive ScannedValue : List Char → Prop where
  | quotation {cs : List Char} (hquote : '"' ∉ cs) : ScannedValue (quoted cs)
  | run {cs : List Char} (hspace : ' ' ∉ cs) (hquote : cs.head? = some '"' → '"' ∉ cs.tail) :
      ScannedValue cs

theorem run_prefix (cs : List Char) : run cs <+: cs := List.takeWhile_prefix _

theorem space_not_mem_run (cs : List Char) : ' ' ∉ run cs :=
  fun hspace ↦ absurd (List.mem_takeWhile_imp hspace) (by decide)

/-- A text begins with a closed quotation, or else a quotation mark at its head has no partner. -/
theorem value_cases (cs : List Char) :
    (∃ inner rest, '"' ∉ inner ∧ cs = quoted inner ++ rest ∧ value cs = quoted inner) ∨
      (cs.head? = some '"' → '"' ∉ cs.tail) ∧ value cs = run cs := by
  by_cases hclosed : cs.head? = some '"' ∧ '"' ∈ cs.tail
  · obtain ⟨tail, rfl⟩ := List.head?_eq_some_iff.mp hclosed.1
    obtain ⟨inner, rest, htail, hinner⟩ := List.eq_append_cons_of_mem hclosed.2
    have htext : '"' :: tail = quoted inner ++ rest := by
      rw [List.tail_cons] at htail
      simp [htail, quoted]
    exact .inl ⟨inner, rest, hinner, htext, by rw [htext, value_quoted hinner]⟩
  · rw [not_and] at hclosed
    have hnone : quotation? cs = none := by
      unfold quotation?
      split
      · next rest => rw [if_neg (by simpa using hclosed rfl)]
      · rfl
    exact .inr ⟨hclosed, by rw [value, hnone, Option.getD_none]⟩

theorem value_prefix (cs : List Char) : value cs <+: cs := by
  rcases value_cases cs with ⟨inner, rest, -, htext, hvalue⟩ | ⟨-, hvalue⟩
  · rw [hvalue, htext]
    exact List.prefix_append _ _
  · rw [hvalue]
    exact run_prefix cs

theorem value_cons_ne_nil {c : Char} (hc : c ≠ ' ') (cs : List Char) : value (c :: cs) ≠ [] := by
  rcases value_cases (c :: cs) with ⟨inner, rest, -, -, hvalue⟩ | ⟨-, hvalue⟩
  · rw [hvalue]
    exact List.cons_ne_nil _ _
  · rw [hvalue, run, List.takeWhile_cons_of_pos (by simpa using hc)]
    exact List.cons_ne_nil _ _

theorem scannedValue_value (cs : List Char) : ScannedValue (value cs) := by
  rcases value_cases cs with ⟨inner, rest, hinner, -, hvalue⟩ | ⟨hquote, hvalue⟩
  · rw [hvalue]
    exact .quotation hinner
  · rw [hvalue]
    refine .run (space_not_mem_run cs) fun hhead hmem ↦ ?_
    obtain ⟨tail, htail⟩ := List.head?_eq_some_iff.mp hhead
    obtain ⟨rest, hrest⟩ := run_prefix cs
    rw [htail] at hrest hmem
    rw [← hrest] at hquote
    exact hquote rfl (List.mem_append_left _ hmem)

namespace ScannedValue

variable {cs : List Char} (h : ScannedValue cs)

include h

theorem space_not_mem (hhead : cs.head? ≠ some '"') : ' ' ∉ cs := by
  cases h with
  | quotation hquote => exact absurd rfl hhead
  | run hspace hquote => exact hspace

theorem unquote_cases : (∃ inner, unquote cs = (inner, true) ∧ '"' ∉ inner) ∨
    unquote cs = (cs, false) ∧ ' ' ∉ cs := by
  cases h with
  | quotation hquote => exact .inl ⟨_, unquote_quoted _, hquote⟩
  | run hspace hquote =>
    cases hquoted : isQuoted cs with
    | true =>
      -- Only the quotation mark that is a run by itself counts as both marks.
      have hhead : cs.head? = some '"' := by
        rw [isQuoted, Bool.and_eq_true] at hquoted
        exact beq_iff_eq.mp hquoted.1
      refine .inl ⟨cs.tail.dropLast, by rw [unquote, hquoted, if_pos rfl], fun hmem ↦ ?_⟩
      exact hquote hhead (List.mem_of_mem_dropLast hmem)
    | false => exact .inr ⟨by rw [unquote, hquoted, if_neg Bool.false_ne_true], hspace⟩

end ScannedValue

/-! ### Terms -/

/-- A text that the scanner can take for a term, without the dash. -/
inductive ScannedBody : List Char → Prop where
  | named {name cs : List Char} (hname : ∀ c ∈ name, isNameChar c = true) (hne : name ≠ [])
      (hvalue : ScannedValue cs) : ScannedBody (name ++ ':' :: cs)
  | value {cs : List Char} (hvalue : ScannedValue cs)
      (hunnamed : ∀ name rest, cs = name ++ ':' :: rest → (∀ c ∈ name, isNameChar c = true) →
        name ≠ [] → rest = []) : ScannedBody cs

theorem exists_of_named? {cs text : List Char} (h : named? cs = some text) :
    ∃ name rest, cs = name ++ ':' :: rest ∧ (∀ c ∈ name, isNameChar c = true) ∧ name ≠ [] ∧
      value rest ≠ [] ∧ text = name ++ ':' :: value rest := by
  unfold named? at h
  split at h
  · next rest hrest =>
    obtain ⟨hparts, htext⟩ := Option.ite_none_left_eq_some.mp h
    obtain rfl := Option.some.inj htext
    have hsplit := List.takeWhile_append_dropWhile (p := isNameChar) (l := cs)
    rw [hrest] at hsplit
    simp only [Bool.or_eq_true, List.isEmpty_iff, not_or] at hparts
    exact ⟨_, rest, hsplit.symm, fun c hc ↦ List.mem_takeWhile_imp hc, hparts.1, hparts.2, rfl⟩
  · cases h

/-- A name does not begin with a quotation mark. -/
theorem head?_named_ne {name : List Char} (hname : ∀ c ∈ name, isNameChar c = true)
    (hne : name ≠ []) (cs : List Char) : (name ++ cs).head? ≠ some '"' :=
  head?_append_ne hne (not_mem_of_isNameChar hname (by decide)) cs

theorem scannedBody_body (cs : List Char) : ScannedBody (body cs) := by
  rw [body]
  cases hnamed : named? cs with
  | some text =>
    obtain ⟨name, rest, -, hname, hne, -, rfl⟩ := exists_of_named? hnamed
    exact .named hname hne (scannedValue_value rest)
  | none =>
    refine .value (scannedValue_value cs) fun name rest hvalue hname hne ↦ ?_
    -- With something behind the colon the name would have been found.
    cases rest with
    | nil => rfl
    | cons c rest =>
      have hspace : ' ' ∉ name ++ ':' :: c :: rest := by
        rw [← hvalue]
        refine (scannedValue_value cs).space_not_mem ?_
        rw [Option.getD_none] at hvalue
        rw [hvalue]
        exact head?_named_ne hname hne _
      have hc : c ≠ ' ' := by
        rintro rfl
        exact hspace (by simp)
      obtain ⟨tail, htail⟩ := value_prefix cs
      have htext : cs = name ++ ':' :: (c :: (rest ++ tail)) := by
        rw [Option.getD_none] at hvalue
        rw [← htail, hvalue]
        simp
      rw [htext, named?_append hname hne (value_cons_ne_nil hc _)] at hnamed
      cases hnamed

/-- The value that a term has for a field is one that the scanner took for a value. -/
theorem ScannedBody.scannedValue {cs name raw : List Char} {field : Field} (h : ScannedBody cs)
    (hsome : nameAndValue? cs = some (name, raw))
    (hresolve : Field.resolve? (String.ofList name) = some field) (hne : raw ≠ []) :
    ScannedValue raw := by
  cases h with
  | named hname hname' hvalue =>
    rw [nameAndValue?_named hname hname'] at hsome
    obtain ⟨-, rfl⟩ := Prod.mk.inj (Option.some.inj hsome)
    exact hvalue
  | value hvalue hunnamed =>
    rw [nameAndValue?] at hsome
    split at hsome
    · obtain ⟨-, rfl⟩ := Prod.mk.inj (Option.some.inj hsome)
      exact hvalue
    · have hcut := Text.append_of_cutAt? hsome
      rw [List.append_assoc, List.singleton_append] at hcut
      let fieldName : FieldName := ⟨name, field, hresolve⟩
      exact absurd (hunnamed name raw hcut.symm fieldName.isNameChar fieldName.chars_ne_nil) hne

theorem exists_body_of_leadingTerm (cs : List Char) :
    ∃ rest, (leadingTerm cs).text = body rest := by
  unfold leadingTerm
  split
  · next rest =>
    split
    · exact ⟨'-' :: rest, rfl⟩
    · exact ⟨rest, rfl⟩
  · exact ⟨cs, rfl⟩

theorem exists_body_of_mem_termsFrom {skip : Nat} {cs : List Char} {t : Term}
    (h : t ∈ termsFrom skip cs) : ∃ rest, t.text = body rest := by
  induction cs generalizing skip with
  | nil => cases skip <;> cases h
  | cons c cs ih =>
    cases skip with
    | succ skip => exact ih h
    | zero =>
      rw [termsFrom] at h
      split at h
      · exact ih h
      · rcases List.mem_cons.mp h with rfl | hlater
        · exact exists_body_of_leadingTerm (c :: cs)
        · exact ih hlater

/-- The terms of any text have one of the forms of a term. -/
theorem scannedBody_of_mem_terms {cs : List Char} {t : Term} (h : t ∈ terms cs) :
    ScannedBody t.text := by
  obtain ⟨rest, hrest⟩ := exists_body_of_mem_termsFrom h
  rw [hrest]
  exact scannedBody_body rest

end ShardSearch.Query
