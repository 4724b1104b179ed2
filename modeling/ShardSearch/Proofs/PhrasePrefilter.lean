import ShardSearch.Proofs.PhraseOccurrence
import ShardSearch.Proofs.PhraseSearch
import ShardSearch.Proofs.TermRuns

/-!
Why the index terms of a phrase may be asked for before its exact text is. A term with a phrase adds
a filter to the plan and a required keyword for each index term of the phrase, which are looked up
in all text fields (`Query.Term.keepsKeywords_contribution`). If the phrase stands in the texts of
its field without breaking a word at its ends, also from one text over into the next one, then the
filter accepts the document and each index term of the phrase is one of some text
(`phrase_prefilter_complete`). An index that lists the document under the terms of its texts finds
it for all these keywords. A phrase that breaks a word has no such right: `ca` is in `cat`, but not
among its terms.
-/

set_option autoImplicit false

namespace ShardSearch

namespace Query

/-- A contribution with a filter for a text has the keywords of the text as its conditions. -/
def Contribution.KeepsKeywords (c : Contribution) : Prop :=
  ∀ filter ∈ c.filters, ∀ text, filter.text = some text → c.conditions = keywords text

theorem Contribution.keepsKeywords_of_textless {c : Contribution}
    (h : ∀ filter ∈ c.filters, filter.text = none) : c.KeepsKeywords := by
  intro filter hfilter text htext
  rw [h filter hfilter] at htext
  cases htext

theorem keepsKeywords_onField (negated : Bool) (field : Field) (cs : List Char) (quoted : Bool) :
    (onField negated field cs quoted).KeepsKeywords := by
  unfold onField
  cases range? field cs with
  | some test => exact Contribution.keepsKeywords_of_textless (by simp)
  | none =>
    cases quoted with
    | false => exact Contribution.keepsKeywords_of_textless (by simp)
    | true =>
      intro filter hfilter text htext
      simp only [if_true, List.mem_singleton] at hfilter
      simp only [hfilter, Option.some.injEq] at htext
      simp only [if_true, htext]

/-- Only a term with a phrase adds a filter for a text. -/
theorem Term.keepsKeywords_contribution (t : Term) : t.contribution.KeepsKeywords := by
  unfold Term.contribution
  cases nameAndValue? t.text with
  | none => exact Contribution.keepsKeywords_of_textless (by simp)
  | some pair =>
    dsimp only
    split
    · exact Contribution.keepsKeywords_of_textless (by simp)
    · cases presence? (String.ofList pair.1) with
      | some kind =>
        cases Field.resolve? (String.ofList (unquote pair.2).1) <;>
          exact Contribution.keepsKeywords_of_textless (by simp)
      | none =>
        cases Field.resolve? (String.ofList pair.1) with
        | none => exact Contribution.keepsKeywords_of_textless (by simp)
        | some field => exact keepsKeywords_onField _ _ _ _

end Query

namespace Document

/-- The index lists a document under all terms of its text fields. -/
def Listed (c : Catalog) (network : String → Option Json) (d : Document) : Prop :=
  ∀ field ∈ Field.textFields, ∀ text ∈ d.textsIn field, ∀ term ∈ Text.tokenize text,
    ∃ p ∈ (Index.lookup c.manifest field term).run network, p.id = d.id

instance (c : Catalog) (network : String → Option Json) (d : Document) :
    Decidable (d.Listed c network) :=
  inferInstanceAs (Decidable (∀ field ∈ Field.textFields, ∀ text ∈ d.textsIn field,
    ∀ term ∈ Text.tokenize text, ∃ p ∈ (Index.lookup c.manifest field term).run network,
      p.id = d.id))

/-- The fields that a phrase can have and whose texts the text fields have. -/
def phraseFields : List Field := [.freeText, .guildName, .guildDescription, .profileTag]

theorem exists_textField {d : Document} {field : Field} {text : String}
    (hfield : field ∈ phraseFields) (htext : text ∈ d.textsOf field) :
    ∃ other ∈ Field.textFields, text ∈ d.textsIn other := by
  by_cases hfree : field = .freeText
  · rw [textsOf, if_pos hfree, freeTexts_eq, List.mem_flatMap] at htext
    exact htext
  · rw [textsOf, if_neg hfree] at htext
    simp only [phraseFields, List.mem_cons, hfree, false_or, List.not_mem_nil, or_false] at hfield
    refine ⟨field, ?_, ?_⟩
    · rcases hfield with rfl | rfl | rfl <;> decide
    · rwa [textsIn, if_neg (by rcases hfield with rfl | rfl | rfl <;> decide)]

theorem Listed.listsTerm {c : Catalog} {network : String → Option Json} {d : Document}
    {field : Field} {text term : String} (h : d.Listed c network) (hfield : field ∈ phraseFields)
    (htext : text ∈ d.textsOf field) (hterm : term ∈ Text.tokenize text) :
    Index.ListsTerm c network d.id term := by
  obtain ⟨other, hother, hin⟩ := exists_textField hfield htext
  exact ⟨other, hother, h other hother text hin term hterm⟩

/-- A phrase that stands in the texts of its field as whole words: the filter for it accepts the
document, and each index term of the phrase is one of some text of the field. So if the index lists
the document under the terms of its text fields, it lists the document for each keyword that a term
with the phrase adds to its group. -/
theorem phrase_prefilter_complete (c : Catalog) (network : String → Option Json) {d : Document}
    {field : Field} {phrase : String}
    (h : Text.StandsWhole (Text.lowercase phrase).toList (d.searchText field).toList) :
    (⟨.phrase, field, some phrase, false⟩ : PostFilter).accepts d = true ∧
      (∀ term ∈ Text.tokenize phrase, ∃ text ∈ d.textsOf field, term ∈ Text.tokenize text) ∧
      (field ∈ phraseFields → d.Listed c network → ∀ condition ∈ Query.keywords phrase,
        d.id ∈ (Index.found c network condition).map (·.id)) ∧
      ∀ (t : Query.Term) (negated : Bool),
        (⟨.phrase, field, some phrase, negated⟩ : PostFilter) ∈ t.contribution.filters →
        t.contribution.conditions = Query.keywords phrase := by
  have hterms : ∀ term ∈ Text.tokenize phrase,
      ∃ text ∈ d.textsOf field, term ∈ Text.tokenize text := by
    intro term hterm
    rw [searchText_eq, Text.toList_lowercase, Text.toList_lowercase] at h
    have hjoined := Text.mem_tokenize_of_standsWhole h hterm
    rwa [Text.tokenize_intercalate, List.mem_flatMap] at hjoined
  refine ⟨?_, hterms, fun hfield hlisted condition hcondition ↦ ?_,
    fun t negated hfilter ↦ t.keepsKeywords_contribution _ hfilter phrase rfl⟩
  · obtain ⟨before, after, hsplit, -⟩ := h
    have hasks : (⟨.phrase, field, some phrase, false⟩ : PostFilter).asks d = true := by
      rw [PostFilter.asks, Option.getD_some, Text.occursIn_iff]
      exact ⟨before, after, hsplit.symm⟩
    rw [PostFilter.accepts, hasks]
    rfl
  · obtain ⟨term, hterm, rfl⟩ := List.mem_map.mp hcondition
    obtain ⟨text, htext, hin⟩ := hterms term hterm
    exact Index.mem_map_id_found_ofTerm.mpr (hlisted.listsTerm hfield htext hin)

/-- A document whose name ends as its description goes on. -/
def napping : Document :=
  ⟨1, .object [("guild", .object [("description", .string "naps: all day"),
    ("name", .string "Big CAT")])]⟩

/-- A network in which every file lists the napping document under all its terms. -/
def nappingFile (_ : String) : Option Json :=
  some (.object (["all", "big", "cat", "day", "nap"].map fun term ↦
    (term, .array [.array [.number (.int 1)]])))

theorem listed_napping : napping.Listed Session.smallSetup.catalog nappingFile := by
  decide +kernel

theorem standsWhole_napping : Text.StandsWhole (Text.lowercase "cat NAPS").toList
    (napping.searchText .freeText).toList :=
  ⟨"big ".toList, ": all day ".toList, by decide +kernel, by decide +kernel, by decide +kernel⟩

theorem napping_phrase_prefilter_complete :
    (⟨.phrase, .freeText, some "cat NAPS", false⟩ : PostFilter).accepts napping = true ∧
      (∀ term ∈ ["cat", "nap"], ∃ text ∈ ["Big CAT", "naps: all day", ""],
        term ∈ Text.tokenize text) ∧
      (∀ condition ∈ [Condition.ofTerm "cat", Condition.ofTerm "nap"],
        1 ∈ (Index.found Session.smallSetup.catalog nappingFile condition).map (·.id)) ∧
      (⟨true, "\"cat NAPS\"".toList⟩ : Query.Term).contribution.conditions =
        Query.keywords "cat NAPS" := by
  have hterms : Text.tokenize "cat NAPS" = ["cat", "nap"] := by decide +kernel
  have htexts : napping.textsOf .freeText = ["Big CAT", "naps: all day", ""] := by decide +kernel
  have hkeywords :
      Query.keywords "cat NAPS" = [Condition.ofTerm "cat", Condition.ofTerm "nap"] := by
    rw [Query.keywords, hterms]
    rfl
  obtain ⟨haccepts, hin, hfound, hparsed⟩ :=
    phrase_prefilter_complete Session.smallSetup.catalog nappingFile standsWhole_napping
  rw [hterms, htexts] at hin
  rw [hkeywords] at hfound
  exact ⟨haccepts, hin, hfound (by decide) listed_napping,
    hparsed ⟨true, "\"cat NAPS\"".toList⟩ true (by decide +kernel)⟩

end Document

end ShardSearch
