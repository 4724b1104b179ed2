import Mathlib.Data.List.DropRight
import ShardSearch.Proofs.QueryGrammar

/-!
A phrase at the end of a query. After a query without quotation marks, a space and a phrase add one
term to its group (`Phrase.groupContributions_append`). The term gives a required keyword for each
index term of the phrase, whatever its field, and a filter, which alone knows of the field
(`Plan.ofQuery_append_phrase`).

A query is trimmed when it is searched for. With a phrase after it the blanks at its end stay, and
such a blank can belong to the last term; `EndsFreely` says that they make no difference.
-/

set_option autoImplicit false

namespace ShardSearch

namespace Query

/-- A phrase in quotation marks, of free text or of a field, that a query asks for. On a field that
can have ranges it is no range. -/
structure Phrase where
  scope : Option FieldName
  words : Piece ['"']
  unranged : ∀ name ∈ scope, ¬ HasRange name.field words.chars
  unseparated : Unseparated words.chars

namespace Phrase

variable (t : Phrase)

/-- What stands before the quotation marks. -/
def lead : List Char := t.scope.elim [] fun name ↦ name.chars ++ [':']

def chars : List Char := t.lead ++ quoted t.words.chars

def field : Field := t.scope.elim .freeText FieldName.field

/-- The text between the quotation marks. -/
def text : String := String.ofList t.words.chars

def filter : PostFilter := ⟨.phrase, t.field, some t.text, false⟩

theorem space_not_mem_lead : ' ' ∉ t.lead := by
  rw [lead]
  cases t.scope with
  | none => exact List.not_mem_nil
  | some name =>
    rw [Option.elim_some, List.mem_append, not_or]
    exact ⟨not_mem_of_isNameChar name.isNameChar (by decide), by decide⟩

theorem unseparated_chars : Unseparated (' ' :: t.chars) := by
  have hlead : (' ' :: t.lead).count ' ' ≤ 1 := by
    rw [List.count_cons_self, List.count_eq_zero_of_not_mem t.space_not_mem_lead]
  have hnil : Unseparated [] := by decide
  exact (unseparated_of_count hlead).append_quote (t.unseparated.append_quote hnil)

/-- A phrase is read as one term. -/
theorem groupContributions_chars :
    groupContributions t.chars = [⟨keywords t.text, [t.filter]⟩] := by
  have hread : ∀ clause : Clause, clause.text = t.chars →
      (∀ c, clause.Means c → c = ⟨keywords t.text, [t.filter]⟩) →
      groupContributions t.chars = [⟨keywords t.text, [t.filter]⟩] := by
    intro clause htext hmeans
    obtain ⟨term, hterms, hterm⟩ := clause.exists_term endsTerm_nil
    rw [List.append_nil, htext] at hterms
    rw [groupContributions, hterms, List.map_cons, hmeans _ hterm]
    rfl
  obtain ⟨scope, words, unranged, unseparated⟩ := t
  cases scope with
  | none =>
    refine hread (.phrase false words) (by simp [Clause.text, chars, lead, dash]) ?_
    rintro c ⟨⟩
    rfl
  | some name =>
    refine hread (.fieldPhrase false name words (unranged name rfl))
      (by simp [Clause.text, chars, lead, dash]) ?_
    rintro c ⟨⟩
    rfl

end Phrase

/-! ### The query before the phrase -/

/-- Blanks at the end of a query make no difference to what it means as one group. -/
structure EndsFreely (cs : List Char) : Prop where
  conditions_eq : groupConditions (Text.trimStart cs) = groupConditions (Text.trimChars cs)
  filters_eq : groupFilters (Text.trimStart cs) = groupFilters (Text.trimChars cs)

theorem trimChars_isInfix (cs : List Char) : Text.trimChars cs <:+: cs :=
  (List.rdropWhile_prefix Text.isBlank (Text.trimStart cs)).isInfix.trans
    (List.dropWhile_suffix Text.isBlank).isInfix

/-- Spaces at the end make no difference. -/
theorem endsFreely_of_spaces {cs : List Char} (hquote : '"' ∉ cs) {spaces : Nat}
    (h : Text.trimStart cs = Text.trimChars cs ++ List.replicate spaces ' ') : EndsFreely cs := by
  have hterms : terms (Text.trimStart cs) = terms (Text.trimChars cs) := by
    cases spaces with
    | zero => rw [h, List.replicate_zero, List.append_nil]
    | succ n =>
      have hinside : '"' ∉ Text.trimChars cs := fun hmem ↦
        hquote ((trimChars_isInfix cs).subset hmem)
      have hspaces : terms (List.replicate n ' ') = [] := by
        have hskip := terms_replicate_append n []
        rwa [List.append_nil] at hskip
      rw [h, List.replicate_succ, terms_append_space hinside, hspaces, List.append_nil]
  constructor
  · rw [groupConditions, groupContributions, hterms]
    rfl
  · rw [groupFilters, groupContributions, hterms]
    rfl

/-- Trimming leaves the end of a query that ends with a quotation mark. -/
theorem trimChars_append_quote {cs : List Char} (hcs : Text.trimStart cs ≠ []) (rest : List Char) :
    Text.trimChars (cs ++ rest ++ ['"']) = Text.trimStart cs ++ rest ++ ['"'] := by
  have hquote : Text.isBlank '"' = false := by decide
  have hstart : Text.trimStart (cs ++ (rest ++ ['"'])) = Text.trimStart cs ++ (rest ++ ['"']) := by
    have hrest : ¬ (cs.dropWhile Text.isBlank).isEmpty = true := by
      rwa [List.isEmpty_iff]
    rw [Text.trimStart, List.dropWhile_append, if_neg hrest, ← Text.trimStart]
  rw [Text.trimChars, List.append_assoc, hstart, Text.trimEnd, ← List.append_assoc,
    List.reverse_append, List.reverse_singleton, List.singleton_append,
    List.dropWhile_cons_of_neg (by rw [hquote]; exact Bool.false_ne_true), List.reverse_cons,
    List.reverse_reverse]

namespace Phrase

variable (t : Phrase) {cs : List Char}

theorem trimChars_append (hcs : Text.trimStart cs ≠ []) :
    Text.trimChars (cs ++ ' ' :: t.chars) = Text.trimStart cs ++ ' ' :: t.chars := by
  have hchars : ∀ first : List Char, first ++ ' ' :: t.chars =
      first ++ (' ' :: t.lead ++ '"' :: t.words.chars) ++ ['"'] := by
    intro first
    simp [chars, quoted]
  rw [hchars, trimChars_append_quote hcs, ← hchars]

/-- After a text without quotation marks the phrase is one more term. -/
theorem groupContributions_append (hquote : '"' ∉ cs) :
    groupContributions (cs ++ ' ' :: t.chars) =
      groupContributions cs ++ [⟨keywords t.text, [t.filter]⟩] := by
  rw [groupContributions, terms_append_space hquote, List.map_append, ← groupContributions,
    ← groupContributions, t.groupContributions_chars]

theorem groupConditions_append (hquote : '"' ∉ cs) :
    groupConditions (cs ++ ' ' :: t.chars) = groupConditions cs ++ keywords t.text := by
  rw [groupConditions, t.groupContributions_append hquote, List.flatMap_append,
    List.flatMap_singleton, ← groupConditions]

theorem groupFilters_append (hquote : '"' ∉ cs) :
    groupFilters (cs ++ ' ' :: t.chars) = groupFilters cs ++ [t.filter] := by
  rw [groupFilters, t.groupContributions_append hquote, List.flatMap_append,
    List.flatMap_singleton, ← groupFilters]

end Phrase

end Query

open Query

/-- A text without separators that has conditions is read as one group. -/
theorem Plan.ofQuery_of_unseparated {query : String} (h : Unseparated query.toList)
    (hne : groupConditions query.toList ≠ []) :
    Plan.ofQuery query = ⟨[groupConditions query.toList], groupFilters query.toList⟩ := by
  have hkept : (groupConditions query.toList).isEmpty = false := by simpa using hne
  rw [ofQuery, groups_of_unseparated h, List.map_singleton, List.flatMap_singleton]
  simp only [List.filter_cons, hkept, Bool.not_false, if_true, List.filter_nil]

/-- A text whose plan has a group is not empty. -/
theorem Plan.isEmpty_eq_false_of_groups {text : String} {group : List Condition}
    (h : (Plan.ofQuery text).groups = [group]) : text.isEmpty = false := by
  rw [← Bool.not_eq_true, String.isEmpty_iff]
  rintro rfl
  have hnone : (Plan.ofQuery "").groups = [] := by decide +kernel
  rw [hnone] at h
  cases h

/-- A query without quotation marks and separators, and the query with a phrase after it, as they
are searched for. The phrase adds required keywords to the one group, and a filter. -/
theorem Plan.ofQuery_append_phrase {query : String} (hquote : '"' ∉ query.toList)
    (hsep : Unseparated (query.toList ++ [' '])) (hends : EndsFreely query.toList)
    (hne : groupConditions (Text.trimChars query.toList) ≠ []) (t : Phrase) :
    Plan.ofQuery (Text.trim query) = ⟨[groupConditions (Text.trimChars query.toList)],
        groupFilters (Text.trimChars query.toList)⟩ ∧
      Plan.ofQuery (Text.trim (query ++ " " ++ String.ofList t.chars)) =
        ⟨[groupConditions (Text.trimChars query.toList) ++ keywords t.text],
          groupFilters (Text.trimChars query.toList) ++ [t.filter]⟩ := by
  have hstart : Text.trimStart query.toList ≠ [] := by
    intro hnil
    rw [Text.trimChars, hnil] at hne
    exact hne rfl
  have hsuffix : Text.trimStart query.toList <:+ query.toList :=
    List.dropWhile_suffix Text.isBlank
  have hfree : '"' ∉ Text.trimStart query.toList := fun hmem ↦ hquote (hsuffix.subset hmem)
  have htrim : (Text.trim (query ++ " " ++ String.ofList t.chars)).toList =
      Text.trimStart query.toList ++ ' ' :: t.chars := by
    have htext : (query ++ " " ++ String.ofList t.chars).toList =
        query.toList ++ ' ' :: t.chars := by simp
    rw [Text.toList_trim, htext, t.trimChars_append hstart]
  have hconditions := t.groupConditions_append hfree
  have hfilters := t.groupFilters_append hfree
  rw [hends.conditions_eq] at hconditions
  rw [hends.filters_eq] at hfilters
  constructor
  · have hunseparated : Unseparated (Text.trimChars query.toList) :=
      hsep.of_part ((trimChars_isInfix _).trans (List.prefix_append _ _).isInfix)
    rw [← Text.toList_trim] at hunseparated hne ⊢
    exact ofQuery_of_unseparated hunseparated hne
  · have hunseparated : Unseparated (Text.trimStart query.toList ++ ' ' :: t.chars) := by
      obtain ⟨blanks, hblanks⟩ := hsuffix
      refine (hsep.of_part ⟨blanks, [], ?_⟩).append_space t.unseparated_chars
      rw [List.append_nil, ← List.append_assoc, hblanks]
    rw [← htrim] at hunseparated hconditions hfilters
    have hsome : groupConditions
        (Text.trim (query ++ " " ++ String.ofList t.chars)).toList ≠ [] := by
      rw [hconditions]
      exact List.append_ne_nil_of_left_ne_nil hne _
    rw [ofQuery_of_unseparated hunseparated hsome, hconditions, hfilters]

end ShardSearch
