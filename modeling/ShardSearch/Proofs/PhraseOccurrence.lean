import ShardSearch.Document.Filter
import ShardSearch.Proofs.LowercaseContext

/-!
Phrases that stand in a document as they are. A phrase and the text that it is looked for in are
lowercased each on its own. A phrase without capital sigmas is found wherever it stands in a text of
its field, and so is one whose capital sigmas end words in the text just where they do in the phrase
(`accepts_phrase_of_occurs`). Other phrases need not be found: one that ends with a capital sigma
has a final sigma there, which is not in a text where the word goes on.

Free text has several texts, with a space between any two; a space keeps what happens in one of them
from the others.
-/

set_option autoImplicit false

namespace ShardSearch

theorem Text.occursIn_iff {mark cs : List Char} : occursIn mark cs = true ↔ mark <:+: cs := by
  rw [occursIn, ← not_iff_not, ← cutAt?_eq_none_iff, Bool.not_eq_true, Option.isSome_eq_false_iff,
    Option.isNone_iff_eq_none]

/-- A text is a part of texts put together. -/
theorem isInfix_intercalate {α : Type} {text sep : List α} {texts : List (List α)}
    (h : text ∈ texts) : text <:+: sep.intercalate texts := by
  induction texts with
  | nil => exact absurd h List.not_mem_nil
  | cons first rest ih =>
    cases rest with
    | nil =>
      rw [List.intercalate_singleton, List.mem_singleton.mp h]
    | cons second rest =>
      rw [List.intercalate_cons_cons]
      rcases List.mem_cons.mp h with rfl | hlater
      · rw [List.append_assoc]
        exact (List.prefix_append _ _).isInfix
      · exact (ih hlater).trans (List.suffix_append _ _).isInfix

namespace Document

/-- The texts of a document that a phrase on a field is looked for in. -/
def textsOf (d : Document) (field : Field) : List String :=
  if field = .freeText then d.freeTexts else [d.textAt field.path]

theorem searchText_eq (d : Document) (field : Field) :
    d.searchText field = Text.lowercase (" ".intercalate (d.textsOf field)) := by
  rw [searchText, textsOf]
  split
  · rfl
  · rw [String.intercalate_singleton]

/-- A document has a text that phrases on a field are looked for in: its value if it is a text or,
as free text, its name, its description, its tag and the labels of its traits. -/
inductive Says (d : Document) : Field → String → Prop
  | value {field : Field} {text : String} (hfield : field ≠ .freeText)
      (h : d.get? field.path = some (.string text)) : Says d field text
  | named {field : Field} {text : String}
      (hfield : field ∈ [Field.guildName, .guildDescription, .profileTag])
      (h : d.get? field.path = some (.string text)) : Says d .freeText text
  | label {traits : List Json} {trait : Json} {text : String}
      (htraits : d.get? Field.profileTraits.path = some (.array traits)) (hmem : trait ∈ traits)
      (h : trait.get? "label" = some (.string text)) : Says d .freeText text

section Says

variable {d : Document} {field : Field} {text : String}

theorem textAt_of_string {path : String} (h : d.get? path = some (.string text)) :
    d.textAt path = text := by
  rw [textAt, h]
  rfl

theorem Says.mem_textsOf (h : d.Says field text) : text ∈ d.textsOf field := by
  cases h with
  | value hfield h =>
    rw [textsOf, if_neg hfield, List.mem_singleton, textAt_of_string h]
  | named hfield h =>
    rw [textsOf, if_pos rfl, freeTexts, List.mem_append, ← textAt_of_string h]
    left
    simp only [List.mem_cons, List.not_mem_nil, or_false] at hfield ⊢
    rcases hfield with rfl | rfl | rfl <;> simp
  | label htraits hmem h =>
    rw [textsOf, if_pos rfl, freeTexts, List.mem_append, traitLabels, htraits]
    right
    refine List.mem_map.mpr ⟨_, hmem, ?_⟩
    rw [traitLabel, h]
    rfl

/-- A part of a text of a document whose sigmas are kept is found in it. -/
theorem lowerChars_isInfix_searchText {before cs after : List Char} (hsaid : d.Says field text)
    (htext : text.toList = before ++ cs ++ after) (hkept : Text.SigmasKept before cs after) :
    Text.lowerChars cs <:+: (d.searchText field).toList := by
  have hspace : " ".toList = [' '] := rfl
  rw [searchText_eq, Text.toList_lowercase, String.toList_intercalate, hspace,
    Text.isCut_space.lowerChars_intercalate, List.map_map]
  refine (Text.lowerChars_isInfix hkept).trans (isInfix_intercalate ?_)
  rw [← htext]
  exact List.mem_map.mpr ⟨text, hsaid.mem_textsOf, rfl⟩

end Says

end Document

namespace PostFilter

/-- A document that has a phrase in a text of its field passes the filter for the phrase and does
not pass its negation, unless a capital sigma of the phrase ends a word in the phrase and not in the
text, or the other way round. -/
theorem accepts_phrase_of_occurs {d : Document} {field : Field} {text phrase : String}
    {before after : List Char} (hsaid : d.Says field text)
    (htext : text.toList = before ++ phrase.toList ++ after)
    (hkept : 'Σ' ∈ phrase.toList → Text.SigmasKept before phrase.toList after) :
    (⟨.phrase, field, some phrase, false⟩ : PostFilter).accepts d = true ∧
      (⟨.phrase, field, some phrase, true⟩ : PostFilter).accepts d = false := by
  have hsigmas : Text.SigmasKept before phrase.toList after := by
    by_cases hsigma : 'Σ' ∈ phrase.toList
    · exact hkept hsigma
    · exact Text.sigmasKept_of_not_mem hsigma
  have hfound := Document.lowerChars_isInfix_searchText hsaid htext hsigmas
  have hasks : ∀ negated, (⟨.phrase, field, some phrase, negated⟩ : PostFilter).asks d = true := by
    intro negated
    rw [asks, Option.getD_some, Text.toList_lowercase, Text.occursIn_iff]
    exact hfound
  rw [accepts, accepts, hasks, hasks]
  exact ⟨rfl, rfl⟩

/-- A document with a name. -/
def named (name : String) : Document := ⟨1, .object [("guild", .object [("name", .string name)])]⟩

theorem says_named (name : String) : (named name).Says .guildName name :=
  .value (by decide) (by rfl)

/-- A word that ends with a sigma, by itself and at the head of a longer one. -/
theorem word_accepts_phrase_of_occurs :
    ((named "ΑΣΑ ΑΣ").Says .guildName "ΑΣΑ ΑΣ" ∧
        "ΑΣΑ ΑΣ".toList = "ΑΣΑ ".toList ++ "ΑΣ".toList ++ [] ∧
        Text.SigmasKept "ΑΣΑ ".toList "ΑΣ".toList []) ∧
      (⟨.phrase, .guildName, some "ΑΣ", false⟩ : PostFilter).accepts (named "ΑΣΑ ΑΣ") = true ∧
      (⟨.phrase, .guildName, some "ΑΣ", true⟩ : PostFilter).accepts (named "ΑΣΑ ΑΣ") = false := by
  have htext : "ΑΣΑ ΑΣ".toList = "ΑΣΑ ".toList ++ "ΑΣ".toList ++ [] := by decide
  have hkept : Text.SigmasKept "ΑΣΑ ".toList "ΑΣ".toList [] := by decide +kernel
  exact ⟨⟨says_named _, htext, hkept⟩,
    accepts_phrase_of_occurs (says_named _) htext fun _ ↦ hkept⟩

/-- A sigma at the end of a phrase is a final one, and in a text where the word goes on it is
not. -/
theorem not_accepts_phrase_of_sigma : ¬ ∀ (d : Document) (field : Field) (text phrase : String),
    phrase ≠ "" → d.Says field text → phrase.toList <:+: text.toList →
    (⟨.phrase, field, some phrase, false⟩ : PostFilter).accepts d = true ∧
      (⟨.phrase, field, some phrase, true⟩ : PostFilter).accepts d = false := by
  intro h
  have hinfix : "ΑΣ".toList <:+: "ΑΣΑ".toList := ⟨[], ['Α'], by decide⟩
  have haccepts := (h (named "ΑΣΑ") .guildName "ΑΣΑ" "ΑΣ" (by decide) (says_named _) hinfix).1
  revert haccepts
  decide +kernel

end PostFilter

end ShardSearch
