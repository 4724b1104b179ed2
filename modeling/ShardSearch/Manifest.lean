import ShardSearch.Json.Decode
import ShardSearch.Json.Writer

/-!
The routing manifest. It says where the repositories are, how many of them hold a copy of the
keyword index, which of them holds the documents of which ids, and how many documents one file
holds. Its version goes into the addresses of all files, so that a cache never mixes two versions.
-/

set_option autoImplicit false

namespace ShardSearch

/-- The ids that one repository holds; without a last one, all from the first on. -/
structure IdRange where
  first : Nat
  last : Option Nat
  repository : Nat
deriving DecidableEq

namespace IdRange

def contains (r : IdRange) (id : Nat) : Bool :=
  r.first ≤ id && match r.last with
    | none => true
    | some last => id ≤ last

def ofJson? (j : Json) : Option IdRange :=
  if j.isRecord 3 then do
    let first ← (← j.slot? 0 "start_id").natBelow? Json.wordLimit
    let last ← Json.optional? (Json.natBelow? Json.wordLimit) (j.slot? 1 "end_id")
    let repository ← (← j.slot? 2 "repo").natBelow? Json.halfWordLimit
    pure ⟨first, last, repository⟩
  else none

theorem contains_iff {r : IdRange} {id : Nat} :
    r.contains id = true ↔ r.first ≤ id ∧ ∀ last, r.last = some last → id ≤ last := by
  obtain ⟨first, last, repository⟩ := r
  cases last <;> simp [contains]

end IdRange

structure Manifest where
  serverCount : Nat
  /-- The number of repositories with a copy of the keyword index. -/
  indexCopies : Nat
  baseUrl : String
  /-- The path of a repository, braces standing for its number. -/
  repositoryTemplate : String
  indexRepositories : List (String × Nat)
  dataRanges : List IdRange
  /-- The number of ids of one repository; without it there is one repository. -/
  idsPerRepository : Option Nat
  documentsPerFile : Nat
  lastUpdated : Option Json

namespace Manifest

def ofJson? (j : Json) : Option Manifest :=
  if j.isRecord 9 then do
    let serverCount ← Json.orDefault? (Json.natBelow? Json.wordLimit) 0 (j.slot? 0 "total_servers")
    let indexCopies ←
      Json.orDefault? (Json.natBelow? Json.halfWordLimit) 1 (j.slot? 1 "total_shards")
    let baseUrl ← (← j.slot? 2 "repo_base_url").string?
    let repositoryTemplate ← (← j.slot? 3 "repo_name_template").string?
    let indexRepositories ← Json.orDefault? (Json.entries? (Json.natBelow? Json.halfWordLimit)) []
      (j.slot? 4 "index_shard_map")
    let dataRanges ← Json.orDefault? (Json.list? IdRange.ofJson?) [] (j.slot? 5 "data_shard_map")
    let idsPerRepository ←
      Json.optional? (Json.natBelow? Json.wordLimit) (j.slot? 6 "servers_per_shard")
    let documentsPerFile ← (← j.slot? 7 "docs_per_file").natBelow? Json.wordLimit
    let lastUpdated ← Json.optional? some (j.slot? 8 "last_updated")
    pure ⟨serverCount, indexCopies, baseUrl, repositoryTemplate, indexRepositories, dataRanges,
      idsPerRepository, documentsPerFile, lastUpdated⟩
  else none

/-- The version of the files: a text that is not empty, or a number. -/
def version? (m : Manifest) : Option String :=
  match m.lastUpdated with
  | some (.string s) => if s.isEmpty then none else some s
  | some (.number n) => some n.text
  | _ => none

/-- An address with the version of the manifest. -/
def versioned (m : Manifest) (url : String) : String :=
  match m.version? with
  | some version => url ++ "?v=" ++ version
  | none => url

end Manifest

end ShardSearch
