import ShardSearch.Document
import ShardSearch.Fetch
import ShardSearch.Manifest.Route

/-!
Loading documents. The files that hold the wanted ids are read once each, and the documents come
back in the order of the ids, one for each time that an id is wanted. Files that cannot be read or
are no lists, and items that are no documents, add nothing; of several documents with one id the
last one read counts.
-/

set_option autoImplicit false

namespace ShardSearch.Document

/-- The documents in the body of a data file. -/
def ofFile (body : Option Json) : List Document :=
  match body.bind Json.array? with
  | some items => items.filterMap ofJson?
  | none => []

def last? (documents : List Document) (id : Nat) : Option Document :=
  documents.findRev? (·.id == id)

def load (m : Manifest) (ids : List Nat) : Fetch (List Document) :=
  (Fetch.each Fetch.get (m.dataUrls ids)).bind fun bodies ↦
    .done (ids.filterMap (last? (bodies.flatMap ofFile)))

theorem reads_load (answer : String → Option Json) (m : Manifest) (ids : List Nat) :
    (load m ids).reads answer = m.dataUrls ids := by
  simp [load]

theorem run_load (answer : String → Option Json) (m : Manifest) (ids : List Nat) :
    (load m ids).run answer =
      ids.filterMap (last? ((m.dataUrls ids).flatMap fun url ↦ ofFile (answer url))) := by
  simp [load, List.flatMap_map]

end ShardSearch.Document
