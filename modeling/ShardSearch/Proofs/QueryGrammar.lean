import Mathlib.Data.List.Forall2
import ShardSearch.Proofs.QueryValues

/-!
The grammar of query texts. `QueryText` and `GroupText` say how a text is written, as groups with
separators between them and clauses with spaces between them, and `Clause.Means` what a clause adds
to its group and to the filters of the plan. Neither mentions a scanner: what a value stands for is
told by its form alone.

Reading a text of the grammar gives the meaning of its clauses, in their order
(`Plan.ofQuery_of_queryText`). A phrase in quotation marks is one clause unless a separator stands
in it, since groups are told apart before quotations are (`Plan.ofQuery_quoted`).
-/

set_option autoImplicit false

namespace ShardSearch

namespace Query

/-! ### Clauses -/

/-- A nonempty text in which some characters do not occur. -/
structure Piece (barred : List Char) where
  chars : List Char
  ne_nil : chars ≠ []
  free : ∀ c ∈ barred, c ∉ chars

/-- A name that a query can call a field by. -/
structure FieldName where
  chars : List Char
  field : Field
  resolve_eq : Field.resolve? (String.ofList chars) = some field

/-- What a clause can say about the value of a field as a whole. -/
inductive Presence where
  | has
  | missing
deriving DecidableEq

def Presence.chars : Presence → List Char
  | has => ['h', 'a', 's']
  | missing => ['m', 'i', 's', 's', 'i', 'n', 'g']

def Presence.kind : Presence → FilterKind
  | has => .has
  | missing => .missing

/-- A part of a query that is written without separators and, but for phrases, without spaces. A
phrase on a field that can have ranges is no range. -/
inductive Clause where
  | word (dashed : Bool) (w : Piece [' ', ':', '"'])
  | value (negated : Bool) (name : FieldName) (v : Piece [' ', '"'])
  | presence (negated : Bool) (kind : Presence) (name : FieldName)
  | phrase (negated : Bool) (p : Piece ['"'])
  | fieldPhrase (negated : Bool) (name : FieldName) (p : Piece ['"'])
      (unranged : ¬ HasRange name.field p.chars)

def Clause.text : Clause → List Char
  | word dashed w => dash dashed ++ w.chars
  | value negated name v => dash negated ++ (name.chars ++ ':' :: v.chars)
  | presence negated kind name => dash negated ++ (kind.chars ++ ':' :: name.chars)
  | phrase negated p => dash negated ++ quoted p.chars
  | fieldPhrase negated name p _ => dash negated ++ (name.chars ++ ':' :: quoted p.chars)

/-- The test that a value of a field stands for: a range, else a comparison, else a keyword. -/
inductive ValueTest (field : Field) (cs : List Char) : Test → Prop where
  | range {low high : Decimal.Binary64} (hfield : field ≠ .freeText)
      (hrange : IsRange cs low high) : ValueTest field cs (.range low high)
  | compare {op : Comparison} {bound : Decimal.Binary64} (hrange : ¬ HasRange field cs)
      (hcompare : IsComparison cs op bound) : ValueTest field cs (.compare op bound)
  | keyword (hrange : ¬ HasRange field cs) (hcompare : ∀ op bound, ¬ IsComparison cs op bound) :
      ValueTest field cs (.keyword (Text.stem (Text.lowercase (String.ofList cs))))

/-- What a clause adds to its group and to the filters. A word is never negated, and a phrase adds
its index terms to the group as words do. -/
inductive Clause.Means : Clause → Contribution → Prop where
  | word (dashed : Bool) (w : Piece [' ', ':', '"']) :
      Means (.word dashed w) ⟨keywords (String.ofList w.chars), []⟩
  | value (negated : Bool) {name : FieldName} {v : Piece [' ', '"']} {test : Test}
      (htest : ValueTest name.field v.chars test) :
      Means (.value negated name v) ⟨[⟨name.field, test, negated⟩], []⟩
  | presence (negated : Bool) (kind : Presence) (name : FieldName) :
      Means (.presence negated kind name) ⟨[], [⟨kind.kind, name.field, none, negated⟩]⟩
  | phrase (negated : Bool) (p : Piece ['"']) :
      Means (.phrase negated p) ⟨keywords (String.ofList p.chars),
        [⟨.phrase, .freeText, some (String.ofList p.chars), negated⟩]⟩
  | fieldPhrase (negated : Bool) (name : FieldName) (p : Piece ['"'])
      (unranged : ¬ HasRange name.field p.chars) :
      Means (.fieldPhrase negated name p unranged) ⟨keywords (String.ofList p.chars),
        [⟨.phrase, name.field, some (String.ofList p.chars), negated⟩]⟩

/-! ### Reading a clause -/

/-- All names that a query can call a field by. -/
def fieldNames : List String := Field.aliases.map Prod.fst ++ Field.all.map Field.path

theorem mem_fieldNames {name : String} {field : Field} (h : Field.resolve? name = some field) :
    name ∈ fieldNames := by
  rw [Field.resolve?, Option.or_eq_some_iff] at h
  rw [fieldNames, List.mem_append]
  rcases h with halias | ⟨-, hpath⟩
  · obtain ⟨first, last, hsplit, -⟩ := List.lookup_eq_some_iff.mp halias
    refine .inl (List.mem_map.mpr ⟨(name, field), ?_, rfl⟩)
    rw [hsplit]
    exact List.mem_append_right first List.mem_cons_self
  · exact .inr (List.mem_map.mpr ⟨field, Field.mem_all field, Field.path_of_fromPath? hpath⟩)

/-- The name of a field is one for the scanner, and it is no name of a presence. -/
theorem fieldName_props : ∀ name ∈ fieldNames, name.toList ≠ [] ∧
    name.toList.all isNameChar = true ∧ presence? name = none := by
  decide +kernel

namespace FieldName

variable (name : FieldName)

theorem chars_ne_nil : name.chars ≠ [] := by
  have h := (fieldName_props _ (mem_fieldNames name.resolve_eq)).1
  rwa [String.toList_ofList] at h

theorem isNameChar : ∀ c ∈ name.chars, isNameChar c = true := by
  have h := (fieldName_props _ (mem_fieldNames name.resolve_eq)).2.1
  rw [String.toList_ofList] at h
  exact List.all_eq_true.mp h

end FieldName

theorem Presence.isNameChar (presence : Presence) : ∀ c ∈ presence.chars, isNameChar c = true := by
  have h : presence.chars.all Query.isNameChar = true := by cases presence <;> decide
  exact List.all_eq_true.mp h

theorem Presence.chars_ne_nil (presence : Presence) : presence.chars ≠ [] := by
  cases presence <;> exact List.cons_ne_nil _ _

theorem Presence.presence?_eq (presence : Presence) :
    presence? (String.ofList presence.chars) = some presence.kind := by
  cases presence <;> decide +kernel

section Reading

variable {name cs : List Char}

/-- No character of a name is one that a scanner looks for. -/
theorem not_mem_of_isNameChar (hname : ∀ c ∈ name, isNameChar c = true) {c : Char}
    (hc : isNameChar c = false) : c ∉ name :=
  fun hmem ↦ Bool.false_ne_true (hc.symm.trans (hname c hmem))

theorem isQuoted_quoted (cs : List Char) : isQuoted (quoted cs) = true := by
  have hlast : (quoted cs).getLast? = some '"' := by
    rw [quoted, ← List.cons_append, List.getLast?_concat]
  rw [isQuoted, hlast]
  rfl

theorem head?_append_ne {c : Char} (hne : name ≠ []) (hname : c ∉ name) (cs : List Char) :
    (name ++ cs).head? ≠ some c := by
  obtain ⟨first, rest, rfl⟩ := List.exists_cons_of_ne_nil hne
  rintro heq
  exact hname (Option.some.inj heq ▸ List.mem_cons_self)

theorem nameAndValue?_named (hname : ∀ c ∈ name, isNameChar c = true) (hne : name ≠ []) :
    nameAndValue? (name ++ ':' :: cs) = some (name, cs) := by
  have hcolon : ':' ∉ name := not_mem_of_isNameChar hname (by decide)
  have hquote : '"' ∉ name := not_mem_of_isNameChar hname (by decide)
  have hcut : Text.cutAt? [':'] (name ++ [':'] ++ cs) = some (name, cs) := by
    refine Text.cutAt?_append (List.cons_ne_nil ':' []) ?_ cs
    rwa [List.dropLast_singleton, List.append_nil, List.singleton_infix_iff]
  rw [nameAndValue?, isQuoted_eq_false (head?_append_ne hne hquote _), if_neg Bool.false_ne_true,
    ← hcut, List.append_assoc]
  rfl

theorem nameAndValue?_quoted (cs : List Char) :
    nameAndValue? (quoted cs) = some (Field.freeText.path.toList, quoted cs) := by
  rw [nameAndValue?, isQuoted_quoted, if_pos rfl]

theorem unquote_eq (h : '"' ∉ cs) : unquote cs = (cs, false) := by
  rw [unquote, isQuoted_eq_false (head?_ne h), if_neg Bool.false_ne_true]

theorem unquote_quoted (cs : List Char) : unquote (quoted cs) = (cs, true) := by
  rw [unquote, isQuoted_quoted, if_pos rfl, quoted, List.tail_cons, List.dropLast_concat]

/-- A term that consists of the name of a field and a value. -/
theorem contribution_of_field (negated : Bool) {text raw : List Char} {field : Field}
    {inQuotes : Bool} (hresolve : Field.resolve? (String.ofList name) = some field)
    (htext : nameAndValue? text = some (name, raw)) (hraw : unquote raw = (cs, inQuotes))
    (hne : cs ≠ []) :
    (⟨negated, text⟩ : Term).contribution = onField negated field cs inQuotes := by
  have hempty : cs.isEmpty = false := by simpa using hne
  have hpresence := (fieldName_props _ (mem_fieldNames hresolve)).2.2
  simp only [Term.contribution, htext, hraw, hempty, hpresence, hresolve]
  rfl

theorem contribution_of_presence (negated : Bool) (kind : Presence) (name : FieldName) :
    (⟨negated, kind.chars ++ ':' :: name.chars⟩ : Term).contribution =
      ⟨[], [⟨kind.kind, name.field, none, negated⟩]⟩ := by
  have hquote : '"' ∉ name.chars := not_mem_of_isNameChar name.isNameChar (by decide)
  have hempty : name.chars.isEmpty = false := by simpa using name.chars_ne_nil
  simp only [Term.contribution, nameAndValue?_named kind.isNameChar kind.chars_ne_nil,
    unquote_eq hquote, hempty, kind.presence?_eq, name.resolve_eq]
  rfl

/-- A value outside of quotation marks. -/
theorem exists_valueTest (negated : Bool) (field : Field) (cs : List Char) :
    ∃ test, ValueTest field cs test ∧
      onField negated field cs false = ⟨[⟨field, test, negated⟩], []⟩ := by
  rcases range?_cases field cs with ⟨hfield, low, high, hrange, hread⟩ | ⟨hrange, hread⟩
  · exact ⟨_, .range hfield hrange, by rw [onField, hread]⟩
  · rcases comparison?_cases cs with ⟨op, bound, hcompare, hread'⟩ | ⟨hcompare, hread'⟩
    · refine ⟨_, .compare hrange hcompare, ?_⟩
      rw [onField, hread, hread']
      rfl
    · refine ⟨_, .keyword hrange hcompare, ?_⟩
      rw [onField, hread, hread']
      rfl

/-- A value in quotation marks that is no range. -/
theorem onField_quoted (negated : Bool) {field : Field} (h : ¬ HasRange field cs) :
    onField negated field cs true = ⟨keywords (String.ofList cs),
      [⟨.phrase, field, some (String.ofList cs), negated⟩]⟩ := by
  rcases range?_cases field cs with ⟨hfield, low, high, hrange, -⟩ | ⟨-, hread⟩
  · exact absurd ⟨hfield, low, high, hrange⟩ h
  · rw [onField, hread]
    rfl

theorem contribution_of_phrase (negated : Bool) (hne : cs ≠ []) :
    (⟨negated, quoted cs⟩ : Term).contribution = ⟨keywords (String.ofList cs),
      [⟨.phrase, .freeText, some (String.ofList cs), negated⟩]⟩ := by
  have hresolve : Field.resolve? (String.ofList Field.freeText.path.toList) = some .freeText := by
    decide +kernel
  rw [contribution_of_field negated hresolve (nameAndValue?_quoted cs) (unquote_quoted cs) hne]
  exact onField_quoted negated fun h ↦ h.1 rfl

theorem terms_named (negated : Bool) (hname : ∀ c ∈ name, isNameChar c = true) (hne : name ≠ [])
    (hcs : cs ≠ []) (hvalue : ∀ tail, EndsTerm tail → value (cs ++ tail) = cs) {tail : List Char}
    (h : EndsTerm tail) : terms (dash negated ++ (name ++ ':' :: cs) ++ tail) =
      ⟨negated, name ++ ':' :: cs⟩ :: terms tail := by
  have hdash : '-' ∉ name := not_mem_of_isNameChar hname (by decide)
  have hspace : ' ' ∉ name := not_mem_of_isNameChar hname (by decide)
  exact terms_term negated (reads_named hname hne hcs hvalue)
    (List.append_ne_nil_of_left_ne_nil hne _) (head?_append_ne hne hdash _)
    (head?_append_ne hne hspace _) h

end Reading

/-- At the head of a group a clause is read as one term, which means what the clause does. -/
theorem Clause.exists_term (clause : Clause) {tail : List Char} (h : EndsTerm tail) :
    ∃ term, terms (clause.text ++ tail) = term :: terms tail ∧ clause.Means term.contribution := by
  cases clause with
  | word dashed w =>
    have hspace : ' ' ∉ w.chars := w.free ' ' (by decide)
    have hcolon : ':' ∉ w.chars := w.free ':' (by decide)
    have hquote : '"' ∉ w.chars := w.free '"' (by decide)
    cases dashed with
    | false =>
      obtain ⟨term, hterms, hterm⟩ := terms_word w.ne_nil hspace hcolon hquote h
      exact ⟨term, hterms, hterm ▸ .word false w⟩
    | true =>
      -- A word after a dash is a word again, with the same index terms.
      obtain ⟨term, hterms, hterm⟩ := terms_word (List.cons_ne_nil '-' w.chars)
        (by simpa using hspace) (by simpa using hcolon) (by simpa using hquote) h
      rw [keywords, tokenize_dash] at hterm
      exact ⟨term, hterms, hterm ▸ .word true w⟩
  | value negated name v =>
    have hquote : '"' ∉ v.chars := v.free '"' (by decide)
    obtain ⟨test, htest, hread⟩ := exists_valueTest negated name.field v.chars
    refine ⟨⟨negated, name.chars ++ ':' :: v.chars⟩, terms_named negated name.isNameChar
      name.chars_ne_nil v.ne_nil (fun _ ↦ value_append (v.free ' ' (by decide)) hquote) h, ?_⟩
    rw [contribution_of_field negated name.resolve_eq
      (nameAndValue?_named name.isNameChar name.chars_ne_nil) (unquote_eq hquote) v.ne_nil, hread]
    exact .value negated htest
  | presence negated kind name =>
    have hspace : ' ' ∉ name.chars := not_mem_of_isNameChar name.isNameChar (by decide)
    have hquote : '"' ∉ name.chars := not_mem_of_isNameChar name.isNameChar (by decide)
    refine ⟨⟨negated, kind.chars ++ ':' :: name.chars⟩, terms_named negated kind.isNameChar
      kind.chars_ne_nil name.chars_ne_nil (fun _ ↦ value_append hspace hquote) h, ?_⟩
    rw [contribution_of_presence]
    exact .presence negated kind name
  | phrase negated p =>
    refine ⟨⟨negated, quoted p.chars⟩, terms_term negated (reads_quoted (p.free '"' (by decide)))
      (List.cons_ne_nil _ _) (by simp [quoted]) (by simp [quoted]) h, ?_⟩
    rw [contribution_of_phrase negated p.ne_nil]
    exact .phrase negated p
  | fieldPhrase negated name p unranged =>
    refine ⟨⟨negated, name.chars ++ ':' :: quoted p.chars⟩, terms_named negated
      name.isNameChar name.chars_ne_nil (List.cons_ne_nil _ _)
      (fun tail _ ↦ value_quoted (p.free '"' (by decide)) tail) h, ?_⟩
    rw [contribution_of_field negated name.resolve_eq
      (nameAndValue?_named name.isNameChar name.chars_ne_nil) (unquote_quoted p.chars) p.ne_nil,
      onField_quoted negated unranged]
    exact .fieldPhrase negated name p unranged

/-! ### Groups and queries -/

/-- Clauses with one or more spaces between them. -/
inductive GroupText : List Clause → List Char → Prop where
  | single (clause : Clause) : GroupText [clause] clause.text
  | cons (clause : Clause) (spaces : Nat) {later : List Clause} {cs : List Char}
      (hlater : GroupText later cs) :
      GroupText (clause :: later) (clause.text ++ ' ' :: (List.replicate spaces ' ' ++ cs))

/-- Groups with separators between them. Within a group there is none, also not together with the
space that the next separator begins with. -/
inductive QueryText : List (List Clause) → List Char → Prop where
  | nil : QueryText [] []
  | single {clauses : List Clause} {cs : List Char} (hgroup : GroupText clauses cs)
      (hcs : Unseparated (cs ++ [' '])) : QueryText [clauses] cs
  | cons {clauses next : List Clause} {later : List (List Clause)} {cs s rest : List Char}
      (hgroup : GroupText clauses cs) (hcs : Unseparated (cs ++ [' '])) (hs : s ∈ separators)
      (hlater : QueryText (next :: later) rest) :
      QueryText (clauses :: next :: later) (cs ++ s ++ rest)

theorem terms_replicate_append (spaces : Nat) (cs : List Char) :
    terms (List.replicate spaces ' ' ++ cs) = terms cs := by
  induction spaces with
  | zero => rfl
  | succ n ih => exact ih

/-- Reading a group gives the meanings of its clauses. -/
theorem GroupText.means {clauses : List Clause} {cs : List Char} (h : GroupText clauses cs) :
    List.Forall₂ Clause.Means clauses (groupContributions cs) := by
  induction h with
  | single clause =>
    obtain ⟨term, hterms, hmeans⟩ := clause.exists_term endsTerm_nil
    rw [List.append_nil] at hterms
    rw [groupContributions, hterms]
    exact .cons hmeans .nil
  | cons clause spaces hlater ih =>
    obtain ⟨term, hterms, hmeans⟩ := clause.exists_term (endsTerm_space _)
    rw [groupContributions, hterms]
    refine .cons hmeans ?_
    have hspace : ∀ cs, terms (' ' :: cs) = terms cs := fun _ ↦ rfl
    rw [hspace, terms_replicate_append]
    exact ih

/-- The groups of a query are found as they are written. -/
theorem QueryText.groups {written : List (List Clause)} {cs : List Char}
    (h : QueryText written cs) (hne : written ≠ []) :
    List.Forall₂ GroupText written (groups cs) := by
  induction h with
  | nil => exact absurd rfl hne
  | single hgroup hcs =>
    rw [groups_of_unseparated (hcs.of_part (List.prefix_append _ _).isInfix)]
    exact .cons hgroup .nil
  | cons hgroup hcs hs hlater ih =>
    rw [groups_append hcs hs]
    exact .cons hgroup (ih (List.cons_ne_nil _ _))

end Query

open Query

/-- The plan of what the clauses of each group add: groups without conditions are left out, and the
filters of all groups stay, in the order of the text. -/
def Plan.ofContributions (contributions : List (List Contribution)) : Plan where
  groups := (contributions.map fun group ↦ group.flatMap Contribution.conditions).filter
    fun conditions ↦ !conditions.isEmpty
  filters := contributions.flatten.flatMap Contribution.filters

theorem Plan.ofQuery_eq (query : String) : Plan.ofQuery query =
    .ofContributions ((Query.groups query.toList).map groupContributions) := by
  have hfilters : ∀ groups : List (List Char), groups.flatMap groupFilters =
      (groups.map groupContributions).flatten.flatMap Contribution.filters := by
    intro groups
    rw [← List.flatMap_def, List.flatMap_assoc]
    rfl
  rw [ofQuery, ofContributions, hfilters, List.map_map]
  rfl

/-- A text of the grammar is read as the plan of what its clauses mean. -/
theorem Plan.ofQuery_of_queryText {written : List (List Clause)} {query : String}
    (h : QueryText written query.toList) : ∃ contributions,
      List.Forall₂ (List.Forall₂ Clause.Means) written contributions ∧
        Plan.ofQuery query = .ofContributions contributions := by
  cases written with
  | nil =>
    have hempty : ∀ {cs}, QueryText [] cs → cs = [] := by
      rintro cs ⟨⟩
      rfl
    refine ⟨[], .nil, ?_⟩
    rw [ofQuery_eq, hempty h]
    rfl
  | cons clauses later =>
    refine ⟨(Query.groups query.toList).map groupContributions, ?_, ofQuery_eq query⟩
    rw [List.forall₂_map_right_iff]
    exact (h.groups (List.cons_ne_nil _ _)).imp fun _ _ hgroup ↦ hgroup.means

/-- A negated keyword and a comparison, or a presence and a word. -/
def mixedClauses : List (List Clause) :=
  [[.value true ⟨['t', 'a', 'g'], .profileTag, by decide +kernel⟩
        ⟨['c', 'a', 't'], by simp, by simp⟩,
      .value false ⟨['t', 'i', 'e', 'r'], .guildPremiumTier, by decide +kernel⟩
        ⟨['>', '=', '2'], by simp, by simp⟩],
    [.presence false .has
        ⟨['b', 'o', 'o', 's', 't', 's'], .guildPremiumSubscriptionCount, by decide +kernel⟩,
      .word true ⟨['p', 'i', 'x', 'e', 'l'], by simp, by simp⟩]]

theorem ofQuery_mixedText : ∃ contributions,
    List.Forall₂ (List.Forall₂ Clause.Means) mixedClauses contributions ∧
      Plan.ofQuery "-tag:cat  tier:>=2 oR has:boosts -pixel" = .ofContributions contributions := by
  have htext : QueryText mixedClauses "-tag:cat  tier:>=2 oR has:boosts -pixel".toList :=
    .cons (s := [' ', 'o', 'R', ' ']) (.cons _ 1 (.single _)) (by decide +kernel) (by decide)
      (.single (.cons _ 0 (.single _)) (by decide +kernel))
  exact Plan.ofQuery_of_queryText htext

/-! ### Quotations -/

/-- A text in quotation marks is one phrase, unless a separator stands in it. -/
theorem Plan.ofQuery_quoted {p : String} (hne : p ≠ "") (hquote : '"' ∉ p.toList)
    (hsep : Unseparated p.toList) : Plan.ofQuery (String.ofList (quoted p.toList)) =
      { groups := if Text.tokenize p = [] then []
          else [(Text.tokenize p).map fun term ↦ ⟨.freeText, .keyword term, false⟩],
        filters := [⟨.phrase, .freeText, some p, false⟩] } := by
  have hchars : p.toList ≠ [] := by simpa using hne
  have hterms : terms (quoted p.toList) = [⟨false, quoted p.toList⟩] := by
    have h := terms_term false (reads_quoted hquote) (List.cons_ne_nil _ _) (by simp [quoted])
      (by simp [quoted]) endsTerm_nil
    rwa [List.append_nil] at h
  rw [ofQuery_eq, String.toList_ofList, groups_of_unseparated hsep.quoted, List.map_singleton,
    groupContributions, hterms, List.map_singleton, contribution_of_phrase false hchars,
    String.ofList_toList]
  by_cases htokens : Text.tokenize p = []
  · rw [if_pos htokens, keywords, htokens]
    rfl
  · have hconditions : (keywords p).isEmpty = false := by simpa [keywords] using htokens
    rw [if_neg htokens]
    simp only [ofContributions, List.map_cons, List.map_nil, List.flatMap_cons, List.flatMap_nil,
      List.flatten_cons, List.flatten_nil, List.append_nil]
    rw [List.filter_cons_of_pos (by rw [hconditions]; rfl), List.filter_nil]
    rfl

theorem ofQuery_quoted_words : Plan.ofQuery (String.ofList (quoted "rock and roll".toList)) =
    { groups := [[⟨.freeText, .keyword "rock", false⟩, ⟨.freeText, .keyword "roll", false⟩]],
      filters := [⟨.phrase, .freeText, some "rock and roll", false⟩] } := by
  have htokens : Text.tokenize "rock and roll" = ["rock", "roll"] := by decide +kernel
  rw [Plan.ofQuery_quoted (by decide) (by decide +kernel) (by decide +kernel), htokens]
  rfl

/-- A separator in quotation marks separates groups. -/
theorem not_ofQuery_quoted_of_separator :
    ¬ ∀ p : String, p ≠ "" → '"' ∉ p.toList → Plan.ofQuery (String.ofList (quoted p.toList)) =
      { groups := if Text.tokenize p = [] then []
          else [(Text.tokenize p).map fun term ↦ ⟨.freeText, .keyword term, false⟩],
        filters := [⟨.phrase, .freeText, some p, false⟩] } := by
  intro h
  have hplan := h "rock | roll" (by decide) (by decide +kernel)
  revert hplan
  decide +kernel

end ShardSearch
