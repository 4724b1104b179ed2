import ShardSearch.Field
import ShardSearch.Manifest
import ShardSearch.Text.Percent

/-!
Addresses of files. The keyword index has one file for each field and shard key; the shard key of a
value is its first two characters, or an underscore if it is shorter. Every repository with a copy
of the index has the file. A document is in the data file that its id falls into: the repository is
that of the first range that contains the id, and failing that of the first range at all.
-/

set_option autoImplicit false

namespace ShardSearch

def shardKeyLength : Nat := 2

def shardKey (value : String) : String :=
  if shardKeyLength ≤ value.toList.length then String.ofList (value.toList.take shardKeyLength)
  else "_"

namespace Manifest

/-- A template with a text in every place of the two braces. -/
def fillTemplate (text : List Char) : List Char → List Char
  | '\x7b' :: '\x7d' :: rest => text ++ fillTemplate text rest
  | c :: rest => c :: fillTemplate text rest
  | [] => []

def repositoryUrl (m : Manifest) (repository : Nat) : String :=
  m.baseUrl ++
    String.ofList (fillTemplate (toString repository).toList m.repositoryTemplate.toList)

/-- The file of a field and the shard key of a value in one repository. -/
def indexFile (m : Manifest) (repository : Nat) (field : Field) (value : String) : String :=
  m.versioned <| m.repositoryUrl repository ++ "/index/" ++ field.indexDirectory ++ "/" ++
    Text.Percent.encode (shardKey value) ++ ".json"

/-- The index file in the repository that the manifest names for the field. -/
def indexUrl (m : Manifest) (field : Field) (value : String) : String :=
  m.indexFile ((m.indexRepositories.lookup field.path).getD 1) field value

/-- The repositories with a copy of the index, from one on. -/
def indexCopyNumbers (m : Manifest) : List Nat := List.range' 1 (max m.indexCopies 1)

def indexUrls (m : Manifest) (field : Field) (value : String) : List String :=
  m.indexCopyNumbers.map fun repository ↦ m.indexFile repository field value

def dataRange? (m : Manifest) (id : Nat) : Option IdRange :=
  (m.dataRanges.find? (·.contains id)).or m.dataRanges.head?

/-- The number of the file of an id within its repository. -/
def fileNumber (m : Manifest) (id : Nat) : Nat :=
  let relative := match m.idsPerRepository with
    | some span => if span = 0 then id else id % span
    | none => id
  relative / max m.documentsPerFile 1

def dataRepository (m : Manifest) (id : Nat) : Nat :=
  match m.dataRange? id with
  | some range => range.repository
  | none => 1

def dataUrl (m : Manifest) (id : Nat) : String :=
  m.versioned <| m.repositoryUrl (m.dataRepository id) ++ "/data/d_" ++
    toString (m.fileNumber id) ++ ".json"

/-- The files that hold some of the ids, each once, in the order of the ids. -/
def dataUrls (m : Manifest) (ids : List Nat) : List String := (ids.map m.dataUrl).eraseDups

theorem length_indexUrls (m : Manifest) (field : Field) (value : String) :
    (m.indexUrls field value).length = max m.indexCopies 1 := by
  simp [indexUrls, indexCopyNumbers]

end Manifest

end ShardSearch
