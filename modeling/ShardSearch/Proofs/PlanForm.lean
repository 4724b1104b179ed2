import ShardSearch.Proofs.PhrasePrefilter
import ShardSearch.Proofs.TermForms

/-!
The form of a plan. Whatever the text of a query is, its plan asks only what can be answered
(`Plan.wellFormed_ofQuery`): the index can look up every condition of a group, every filter has a
text if and only if it is for a phrase, and the index terms of a phrase are asked for one after
another in some group. All but the last is true of what a single term adds, since a term has one of
the forms that the scanner finds (`Query.Term.wellFormed_contribution`).

A keyword of a field is a run of the text with no space in it, and lowercasing makes no space of
another character (`Text.lowerChar_ne_space`).
-/

set_option autoImplicit false

namespace ShardSearch

open Decimal (Binary64)

/-! ### Keywords -/

namespace Text

/-- A text that can be the key of a file of the index. -/
def IsKeyword (term : String) : Prop := term ≠ "" ∧ ' ' ∉ term.toList

theorem isKeyword_ofList {cs : List Char} (hne : cs ≠ []) (hspace : ' ' ∉ cs) :
    IsKeyword (String.ofList cs) := by
  rw [IsKeyword, String.toList_ofList, Ne, String.ofList_eq_empty_iff]
  exact ⟨hne, hspace⟩

theorem stemChars_ne_nil {word : List Char} (h : word ≠ []) : stemChars word ≠ [] := by
  unfold stemChars
  split
  · next hlong =>
    rw [Bool.and_eq_true, decide_eq_true_eq] at hlong
    refine List.ne_nil_of_length_pos ?_
    rw [List.length_dropLast]
    omega
  · exact h

theorem mem_of_mem_stemChars {c : Char} {word : List Char} (h : c ∈ stemChars word) : c ∈ word := by
  unfold stemChars at h
  split at h
  · exact List.mem_of_mem_dropLast h
  · exact h

theorem IsKeyword.stem {word : String} (h : IsKeyword word) : IsKeyword (stem word) := by
  have hchars : word.toList ≠ [] := by simpa using h.1
  exact isKeyword_ofList (stemChars_ne_nil hchars) fun hspace ↦ h.2 (mem_of_mem_stemChars hspace)

theorem isKeyword_of_mem_tokenize {s term : String} (h : term ∈ tokenize s) : IsKeyword term := by
  obtain ⟨run, hrun, -, rfl⟩ := mem_tokenize_iff.mp h
  obtain ⟨-, -, -, hlength, hterm, -, -⟩ := mem_runsFrom_iff.mp hrun
  have hne : run ≠ [] := List.ne_nil_of_length_pos (by omega)
  exact (isKeyword_ofList hne fun hspace ↦ absurd (hterm ' ' hspace) (by decide)).stem

/-- No lowercase form of a run of characters comes before the lowercase ASCII letters. -/
theorem lower_of_mem_caseRuns : ∀ run ∈ caseRuns, 0x61 ≤ run.lower := by
  decide +kernel

theorem ofNat_ne_space {code : Nat} (h : 0x61 ≤ code) : Char.ofNat code ≠ ' ' := by
  by_cases hvalid : code.isValidChar
  · have hchar : Char.ofNat code = Char.ofNatAux code hvalid := dif_pos hvalid
    intro heq
    have hcode : code = 0x20 := congrArg Char.toNat (hchar.symm.trans heq)
    omega
  · have hchar : Char.ofNat code = '\x00' := dif_neg hvalid
    rw [hchar]
    decide

theorem lowerChar_ne_space {c : Char} (hc : c ≠ ' ') : lowerChar c ≠ ' ' := by
  unfold lowerChar
  split
  · -- In ASCII a character that has a space for its lowercase form would be 32 before it.
    intro heq
    have hcases : c = ' ' ∨ c = '\x00' := Query.eq_of_toLower_eq heq rfl
    rcases hcases with rfl | rfl
    · exact hc rfl
    · cases heq
  · split
    · next run hrun =>
      have hlower := lower_of_mem_caseRuns run (List.mem_of_find?_eq_some hrun)
      exact ofNat_ne_space (hlower.trans (Nat.le_add_right _ _))
    · exact hc

theorem space_not_mem_lowerAt {c : Char} (hc : c ≠ ' ') (before after : List Char) :
    ' ' ∉ lowerAt before c after := by
  unfold lowerAt
  split
  · split <;> decide
  · split
    · decide
    · simpa using (lowerChar_ne_space hc).symm

theorem space_not_mem_lowerFrom {cs : List Char} (h : ' ' ∉ cs) (before : List Char) :
    ' ' ∉ lowerFrom before cs := by
  induction cs generalizing before with
  | nil => exact List.not_mem_nil
  | cons c after ih =>
    rw [List.mem_cons, not_or] at h
    rw [lowerFrom, List.mem_append, not_or]
    exact ⟨space_not_mem_lowerAt (Ne.symm h.1) before after, ih h.2 (c :: before)⟩

theorem lowerChars_ne_nil {cs : List Char} (h : cs ≠ []) : lowerChars cs ≠ [] := by
  obtain ⟨c, after, rfl⟩ := List.exists_cons_of_ne_nil h
  exact List.append_ne_nil_of_left_ne_nil (lowerAt_ne_nil [] c after) _

theorem IsKeyword.lowercase {word : String} (h : IsKeyword word) : IsKeyword (lowercase word) := by
  have hchars : word.toList ≠ [] := by simpa using h.1
  exact isKeyword_ofList (lowerChars_ne_nil hchars) (space_not_mem_lowerFrom h.2 [])

end Text

/-! ### Conditions and filters -/

/-- A condition that the index can look up. -/
def Condition.Answerable : Condition → Prop
  | ⟨_, .keyword term, _⟩ => Text.IsKeyword term
  | ⟨_, .compare _ _, _⟩ => True
  | ⟨field, .range first last, _⟩ =>
    first.isFinite = true ∧ last.isFinite = true ∧ field ≠ .freeText
  | ⟨_, .deferred _ _, _⟩ => False

/-- A filter for a phrase has its text, and no other filter has one. -/
def PostFilter.WellFormed (f : PostFilter) : Prop :=
  match f.kind with
  | .phrase => ∃ p, f.text = some p ∧ p ≠ "" ∧ '"' ∉ p.toList
  | .has | .missing => f.text = none

namespace Query

/-- What one term may add to a plan that can be answered. -/
structure Contribution.WellFormed (c : Contribution) : Prop where
  answerable : ∀ condition ∈ c.conditions, condition.Answerable
  filters : ∀ filter ∈ c.filters, filter.WellFormed

theorem Contribution.WellFormed.nil : Contribution.WellFormed {} :=
  ⟨List.forall_mem_nil _, List.forall_mem_nil _⟩

theorem Contribution.WellFormed.ofCondition {condition : Condition} (h : condition.Answerable) :
    Contribution.WellFormed { conditions := [condition] } :=
  ⟨List.forall_mem_singleton.mpr h, List.forall_mem_nil _⟩

theorem Contribution.WellFormed.ofFilter {filter : PostFilter} (h : filter.WellFormed) :
    Contribution.WellFormed { filters := [filter] } :=
  ⟨List.forall_mem_nil _, List.forall_mem_singleton.mpr h⟩

theorem answerable_of_mem_keywords {text : String} {condition : Condition}
    (h : condition ∈ keywords text) : condition.Answerable := by
  obtain ⟨term, hterm, rfl⟩ := List.mem_map.mp h
  exact Text.isKeyword_of_mem_tokenize hterm

theorem Contribution.WellFormed.ofKeywords (text : String) {filters : List PostFilter}
    (h : ∀ filter ∈ filters, filter.WellFormed) :
    Contribution.WellFormed { conditions := keywords text, filters := filters } where
  answerable := by
    dsimp only
    exact fun _ ↦ answerable_of_mem_keywords
  filters := h

theorem wellFormed_of_presence? {name : String} {kind : FilterKind} (h : presence? name = some kind)
    (field : Field) (negated : Bool) : PostFilter.WellFormed ⟨kind, field, none, negated⟩ := by
  unfold presence? at h
  split at h
  · cases h
    rfl
  · split at h
    · cases h
      rfl
    · cases h

theorem answerable_range {field : Field} {cs : List Char} {low high : Binary64}
    (hfield : field ≠ .freeText) (hrange : IsRange cs low high) (negated : Bool) :
    Condition.Answerable ⟨field, .range low high, negated⟩ := by
  obtain ⟨-, -, -, -, -, hlow, -, hhigh⟩ := hrange
  exact ⟨hlow, hhigh, hfield⟩

theorem ValueTest.answerable {field : Field} {cs : List Char} {test : Test}
    (h : ValueTest field cs test) (hne : cs ≠ []) (hspace : ' ' ∉ cs) (negated : Bool) :
    Condition.Answerable ⟨field, test, negated⟩ := by
  cases h with
  | range hfield hrange => exact answerable_range hfield hrange negated
  | compare hrange hcompare => trivial
  | keyword hrange hcompare => exact (Text.isKeyword_ofList hne hspace).lowercase.stem

theorem wellFormed_onField_run (negated : Bool) (field : Field) {cs : List Char} (hne : cs ≠ [])
    (hspace : ' ' ∉ cs) : (onField negated field cs false).WellFormed := by
  obtain ⟨test, htest, hread⟩ := exists_valueTest negated field cs
  rw [hread]
  exact .ofCondition (htest.answerable hne hspace negated)

theorem wellFormed_onField_quotation (negated : Bool) (field : Field) {cs : List Char}
    (hne : cs ≠ []) (hquote : '"' ∉ cs) : (onField negated field cs true).WellFormed := by
  rcases range?_cases field cs with ⟨hfield, low, high, hrange, hread⟩ | ⟨hrange, -⟩
  · rw [onField, hread]
    exact .ofCondition (answerable_range hfield hrange negated)
  · rw [onField_quoted negated hrange]
    refine .ofKeywords _ (List.forall_mem_singleton.mpr ⟨String.ofList cs, rfl, ?_, ?_⟩)
    · rwa [Ne, String.ofList_eq_empty_iff]
    · rwa [String.toList_ofList]

/-- A term in one of the forms that the scanner finds adds only what can be answered. -/
theorem Term.wellFormed_contribution {t : Term} (h : ScannedBody t.text) :
    t.contribution.WellFormed := by
  unfold Term.contribution
  cases hparts : nameAndValue? t.text with
  | none => exact .ofKeywords _ (List.forall_mem_nil _)
  | some parts =>
    obtain ⟨name, raw⟩ := parts
    dsimp only
    split
    · exact .nil
    · next hvalue =>
      rw [List.isEmpty_iff] at hvalue
      cases hpresence : presence? (String.ofList name) with
      | some kind =>
        cases Field.resolve? (String.ofList (unquote raw).1) with
        | some field => exact .ofFilter (wellFormed_of_presence? hpresence field t.negated)
        | none => exact .nil
      | none =>
        cases hresolve : Field.resolve? (String.ofList name) with
        | none => exact .nil
        | some field =>
          have hraw : raw ≠ [] := by
            rintro rfl
            exact hvalue rfl
          -- A name of a field is the name that the scanner found, so its value is scanned as well.
          rcases (h.scannedValue hparts hresolve hraw).unquote_cases with
            ⟨inner, hinner, hquote⟩ | ⟨hplain, hspace⟩
          · rw [hinner] at hvalue ⊢
            exact wellFormed_onField_quotation t.negated field hvalue hquote
          · rw [hplain] at hvalue ⊢
            exact wellFormed_onField_run t.negated field hvalue hspace

theorem wellFormed_of_mem_groupContributions {group : List Char} {c : Contribution}
    (h : c ∈ groupContributions group) : c.WellFormed := by
  obtain ⟨t, ht, rfl⟩ := List.mem_map.mp h
  exact t.wellFormed_contribution (scannedBody_of_mem_terms ht)

/-- Within the conditions of its group, a term with a phrase has the keywords of the phrase. -/
theorem keywords_isInfix_groupConditions {group : List Char} {filter : PostFilter} {p : String}
    (hfilter : filter ∈ groupFilters group) (htext : filter.text = some p) :
    keywords p <:+: groupConditions group := by
  obtain ⟨c, hc, hmem⟩ := List.mem_flatMap.mp hfilter
  obtain ⟨t, -, rfl⟩ := List.mem_map.mp hc
  rw [← t.keepsKeywords_contribution filter hmem p htext, groupConditions, List.flatMap_def]
  exact List.infix_of_mem_flatten (List.mem_map_of_mem hc)

end Query

/-! ### Plans -/

/-- A plan that can be answered: groups that are not empty, with conditions that the index can look
up, and filters that have a text if and only if they are for a phrase. The index terms of a phrase
are asked for as free text, one after another in some group. -/
structure Plan.WellFormed (plan : Plan) : Prop where
  groups_ne_nil : ∀ group ∈ plan.groups, group ≠ []
  answerable : ∀ group ∈ plan.groups, ∀ condition ∈ group, condition.Answerable
  filters : ∀ filter ∈ plan.filters, filter.WellFormed
  phrase_keywords : ∀ filter ∈ plan.filters, filter.kind = .phrase → ∀ p, filter.text = some p →
    Text.tokenize p ≠ [] →
      ∃ group ∈ plan.groups, (Text.tokenize p).map Condition.ofTerm <:+: group

/-- Every query text has a plan that can be answered. -/
theorem Plan.wellFormed_ofQuery (query : String) : (Plan.ofQuery query).WellFormed where
  groups_ne_nil group hgroup := by
    have hkept := (List.mem_filter.mp hgroup).2
    rwa [Bool.not_eq_true', List.isEmpty_eq_false_iff] at hkept
  answerable group hgroup condition hcondition := by
    obtain ⟨part, -, rfl⟩ := List.mem_map.mp (List.mem_filter.mp hgroup).1
    obtain ⟨c, hc, hin⟩ := List.mem_flatMap.mp hcondition
    exact (Query.wellFormed_of_mem_groupContributions hc).answerable condition hin
  filters filter hfilter := by
    obtain ⟨part, -, hpart⟩ := List.mem_flatMap.mp hfilter
    obtain ⟨c, hc, hin⟩ := List.mem_flatMap.mp hpart
    exact (Query.wellFormed_of_mem_groupContributions hc).filters filter hin
  phrase_keywords filter hfilter _ p htext hterms := by
    obtain ⟨part, hmem, hpart⟩ := List.mem_flatMap.mp hfilter
    have hinfix := Query.keywords_isInfix_groupConditions hpart htext
    refine ⟨Query.groupConditions part, List.mem_filter.mpr ⟨List.mem_map_of_mem hmem, ?_⟩, hinfix⟩
    -- A group with a keyword of the phrase is not left out.
    rw [Bool.not_eq_true', List.isEmpty_eq_false_iff]
    intro hempty
    rw [hempty, List.infix_nil, Query.keywords, List.map_eq_nil_iff] at hinfix
    exact hterms hinfix

end ShardSearch
