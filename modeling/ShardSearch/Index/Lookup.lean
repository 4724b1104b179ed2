import ShardSearch.Catalog
import ShardSearch.Decimal.Plain
import ShardSearch.Manifest.Route
import ShardSearch.Pointer
import ShardSearch.Query.Condition

/-!
Looking conditions up in the index. A keyword is read from its file in every repository with a copy
of the index, and what the copies list is put together; a copy that cannot be read, or an entry that
is no pointer, adds nothing. A numeric condition is looked up as one keyword for each known value
that meets it. A condition on free text is looked up in each text field. Negation plays no part
here, and pointers may be listed more than once.
-/

set_option autoImplicit false

namespace ShardSearch

namespace Index

/-- The pointers that an index file lists under a value. -/
def pointersUnder (value : String) (body : Option Json) : List Pointer :=
  match (body.bind (·.get? value)).bind Json.array? with
  | some items => items.filterMap Pointer.ofJson?
  | none => []

def lookup (m : Manifest) (field : Field) (value : String) : Fetch (List Pointer) :=
  (Fetch.each Fetch.get (m.indexUrls field value)).bind fun bodies ↦
    .done (bodies.flatMap (pointersUnder value))

/-- The texts that a test on one field is looked up under. -/
def keys (c : Catalog) (field : Field) : Test → List String
  | .keyword term => [term]
  | .compare op bound =>
    ((c.numericValues field).filter fun v ↦ op.holds v bound).map (·.plain)
  | .range first last =>
    ((c.numericValues field).filter fun v ↦ first.atMost v && v.atMost last).map (·.plain)
  | .deferred _ _ => []

/-- The fields that a condition on a field is looked up in. -/
def lookupFields (field : Field) : List Field :=
  if field = .freeText then Field.textFields else [field]

def resolveOn (c : Catalog) (condition : Condition) : Fetch (List Pointer) :=
  (Fetch.each (lookup c.manifest condition.field) (keys c condition.field condition.test)).bind
    fun lists ↦ .done lists.flatten

def resolve (c : Catalog) (condition : Condition) : Fetch (List Pointer) :=
  (Fetch.each (fun field ↦ resolveOn c (condition.on field))
    (lookupFields condition.field)).bind fun lists ↦ .done lists.flatten

theorem run_lookup (answer : String → Option Json) (m : Manifest) (field : Field)
    (value : String) : (lookup m field value).run answer =
      (m.indexUrls field value).flatMap fun url ↦ pointersUnder value (answer url) := by
  simp [lookup, List.flatMap_map]

theorem reads_lookup (answer : String → Option Json) (m : Manifest) (field : Field)
    (value : String) : (lookup m field value).reads answer = m.indexUrls field value := by
  simp [lookup]

end Index

end ShardSearch
