import Mathlib.Data.List.Forall2
import ShardSearch.Proofs.IndexResolution

/-!
What a condition finds, told by segments. `Lists` says what the body of an index file lists under a
key, and `Resolves` states the rules by which conditions are resolved: a keyword copy by copy of the
index, a numeric condition value by value, free text field by field.

A condition is looked up at `places`, each a file and a key in it, that do not depend on what the
files hold. Each place has a segment of its own in what the condition finds
(`found_eq_flatMap_places`), and the files of the places are what is read (`reads_resolve`). So a
file that changes, or fails, takes its own segments with it and no other.
-/

set_option autoImplicit false

namespace ShardSearch.Index

open Decimal (Binary64)

/-! ### The rules -/

/-- What the body of an index file lists under a key: the well-formed pointers of the array that
stands under just this key, in its order. Where there is no such array, nothing is listed. -/
inductive Lists (key : String) : Option Json → List Pointer → Prop
  | array {entries : List (String × Json)} {items : List Json}
      (h : entries.lookup key = some (.array items)) :
      Lists key (some (.object entries)) (items.filterMap Pointer.ofJson?)
  | failed : Lists key none []
  | noObject {body : Json} (h : ∀ entries, body ≠ .object entries) : Lists key (some body) []
  | noKey {entries : List (String × Json)} (h : entries.lookup key = none) :
      Lists key (some (.object entries)) []
  | noArray {entries : List (String × Json)} {value : Json}
      (h : entries.lookup key = some value) (hvalue : ∀ items, value ≠ .array items) :
      Lists key (some (.object entries)) []

/-- The rules by which conditions are resolved to pointers over a network. -/
structure Resolves (c : Catalog) (network : String → Option Json)
    (resolved : Condition → List Pointer) : Prop where
  /-- A keyword has one segment for each copy of the index, from the first repository on. -/
  keyword : ∀ field key negated, field ≠ .freeText → ∃ segments,
    List.Forall₂ (fun repository segment ↦
        Lists key (network (c.manifest.indexFile repository field key)) segment)
      (List.range' 1 (max c.manifest.indexCopies 1)) segments ∧
    resolved ⟨field, .keyword key, negated⟩ = segments.flatten
  /-- A comparison is one keyword for each known value on its side, as often as it is known. -/
  comparison : ∀ field op bound negated, field ≠ .freeText →
    resolved ⟨field, .compare op bound, negated⟩ =
      ((c.numericValues field).filter (op.holds · bound)).flatMap fun value ↦
        resolved ⟨field, .keyword value.plain, negated⟩
  /-- A range is one keyword for each known value that is neither below nor above it. -/
  range : ∀ field first last negated, field ≠ .freeText →
    resolved ⟨field, .range first last, negated⟩ =
      ((c.numericValues field).filter fun value ↦
        first.atMost value && value.atMost last).flatMap fun value ↦
          resolved ⟨field, .keyword value.plain, negated⟩
  freeText : ∀ test negated, resolved ⟨.freeText, test, negated⟩ =
    [.guildName, .guildDescription, .profileTag, .profileTraits].flatMap fun field ↦
      resolved ⟨field, test, negated⟩
  deferred : ∀ field kind text negated, resolved ⟨field, .deferred kind text, negated⟩ = []
  negation : ∀ field test, resolved ⟨field, test, true⟩ = resolved ⟨field, test, false⟩

theorem pointersUnder_eq_nil {key : String} {body : Option Json}
    (h : (body.bind (·.get? key)).bind Json.array? = none) : pointersUnder key body = [] := by
  rw [pointersUnder, h]

theorem lists_pointersUnder (key : String) (body : Option Json) :
    Lists key body (pointersUnder key body) := by
  cases body with
  | none => exact .failed
  | some j =>
    cases j with
    | object entries =>
      have hget : (some (Json.object entries)).bind (·.get? key) = entries.lookup key := rfl
      cases hvalue : entries.lookup key with
      | none =>
        rw [pointersUnder_eq_nil (by rw [hget, hvalue, Option.bind_none])]
        exact .noKey hvalue
      | some value =>
        cases value with
        | array items =>
          rw [pointersUnder, hget, hvalue]
          exact .array hvalue
        | _ =>
          rw [pointersUnder_eq_nil (by rw [hget, hvalue]; rfl)]
          exact .noArray hvalue fun items ↦ Json.noConfusion
    | _ => exact .noObject fun entries ↦ Json.noConfusion

/-- Entries that are no pointers are passed over. -/
example : pointersUnder "chill" (some (.object [("chill",
    .array [.object [("id", .number (.int 4))], .object [("oops", .bool true)], .string "x"])])) =
      [⟨4, none, none⟩] := by
  decide +kernel

section Found

variable {c : Catalog} {network : String → Option Json} {field : Field} {negated : Bool}

theorem found_of_ne_freeText (hfield : field ≠ .freeText) (test : Test) :
    found c network ⟨field, test, negated⟩ =
      (keys c field test).flatMap fun key ↦ (lookup c.manifest field key).run network := by
  rw [found_eq, lookupFields, if_neg hfield, List.flatMap_singleton]

/-- A keyword on one field finds what its one look-up lists. -/
theorem found_keyword (hfield : field ≠ .freeText) (key : String) :
    found c network ⟨field, .keyword key, negated⟩ =
      (lookup c.manifest field key).run network := by
  rw [found_of_ne_freeText hfield, keys, List.flatMap_singleton]

/-- A numeric test on one field finds what keywords for the values that it is looked up under
find. -/
theorem found_of_values (hfield : field ≠ .freeText) {test : Test} {values : List Binary64}
    (hkeys : keys c field test = values.map (·.plain)) :
    found c network ⟨field, test, negated⟩ =
      values.flatMap fun value ↦ found c network ⟨field, .keyword value.plain, negated⟩ := by
  simp only [found_of_ne_freeText hfield test, hkeys, found_keyword hfield, List.flatMap_map]

theorem ne_freeText_of_mem_textFields (h : field ∈ Field.textFields) : field ≠ .freeText := by
  rintro rfl
  exact absurd h (by decide)

theorem found_freeText (test : Test) : found c network ⟨.freeText, test, negated⟩ =
    Field.textFields.flatMap fun field ↦ found c network ⟨field, test, negated⟩ := by
  rw [found_eq, lookupFields, if_pos rfl]
  exact List.flatMap_congr fun field hfield ↦
    (found_of_ne_freeText (ne_freeText_of_mem_textFields hfield) test).symm

/-- What conditions find follows the rules. -/
theorem resolves_found (c : Catalog) (network : String → Option Json) :
    Resolves c network (found c network) where
  keyword := by
    intro field key negated hfield
    refine ⟨(List.range' 1 (max c.manifest.indexCopies 1)).map fun repository ↦
      pointersUnder key (network (c.manifest.indexFile repository field key)), ?_, ?_⟩
    · rw [List.forall₂_map_right_iff]
      exact List.forall₂_same.mpr fun repository _ ↦ lists_pointersUnder key _
    · rw [found_keyword hfield, run_lookup, Manifest.indexUrls, Manifest.indexCopyNumbers,
        List.flatMap_map, List.flatMap_def]
  comparison := fun _ _ _ _ hfield ↦ found_of_values hfield rfl
  range := fun _ _ _ _ hfield ↦ found_of_values hfield rfl
  freeText := fun test _ ↦ found_freeText test
  deferred := fun _ _ _ _ ↦ found_deferred c network rfl
  negation := fun _ _ ↦ by simp only [found_eq]

end Found

/-! ### The segments -/

/-- A place to look at: a file, and a key in it. -/
structure Place where
  url : String
  key : String

/-- The places that a condition is looked up at, in the order of the look-ups. -/
def places (c : Catalog) (condition : Condition) : List Place :=
  (lookupFields condition.field).flatMap fun field ↦
    (keys c field condition.test).flatMap fun key ↦
      (c.manifest.indexUrls field key).map fun url ↦ ⟨url, key⟩

/-- The part of each place in what a condition finds, under the address of its file. -/
def segments (c : Catalog) (network : String → Option Json) (condition : Condition) :
    List (String × List Pointer) :=
  (places c condition).map fun place ↦
    (place.url, pointersUnder place.key (network place.url))

theorem found_eq_flatMap_places (c : Catalog) (network : String → Option Json)
    (condition : Condition) : found c network condition =
      (places c condition).flatMap fun place ↦ pointersUnder place.key (network place.url) := by
  simp only [found_eq, places, run_lookup, List.flatMap_assoc, List.flatMap_map]

/-- A condition reads the file of each of its places, once for each place. -/
theorem reads_resolve (c : Catalog) (network : String → Option Json) (condition : Condition) :
    (resolve c condition).reads network = (places c condition).map (·.url) := by
  simp [resolve, resolveOn, places, reads_lookup, List.map_flatMap, Function.comp_def]

/-- What conditions find follows the rules of `Resolves`, over every network. It consists of the
segments of the places that a condition is looked up at, one after the other. Whatever two networks
have to offer, the segments have the same addresses in the same order, and only those differ whose
own address is answered differently. -/
theorem found_by_segments (c : Catalog) (network : String → Option Json) :
    Resolves c network (found c network) ∧
      ∀ condition,
        found c network condition = (segments c network condition).flatMap (·.2) ∧
        ∀ other : String → Option Json,
          List.Forall₂ (fun before after ↦ after.1 = before.1 ∧
              (other before.1 = network before.1 → after.2 = before.2))
            (segments c network condition) (segments c other condition) := by
  refine ⟨resolves_found c network, fun condition ↦ ⟨?_, fun other ↦ ?_⟩⟩
  · rw [found_eq_flatMap_places, segments, List.flatMap_map]
  · rw [segments, segments, List.forall₂_map_left_iff, List.forall₂_map_right_iff]
    refine List.forall₂_same.mpr fun place _ ↦ ⟨rfl, fun hsame ↦ ?_⟩
    dsimp only at hsame ⊢
    rw [hsame]

end ShardSearch.Index
