import ShardSearch.Ranking

/-!
The configuration: where the root resources are, how they are read, and how results are paged and
ranked at first. `{}` as a `Config` is the default configuration.
-/

set_option autoImplicit false

namespace ShardSearch

/-- The address of the root and the names of the files in it. -/
structure Source where
  rootUrl : String := "."
  manifestFile : String := "manifest.json"
  numericManifestFile : String := "numeric_manifest.json"
  listingFile : String := "all_servers_sorted_by_members.json"
deriving DecidableEq

/-- The address of a file in the root. Slashes at the end of the root do not count. -/
def Source.resource (s : Source) (file : String) : String :=
  String.ofList (s.rootUrl.toList.reverse.dropWhile (· == '/')).reverse ++ "/" ++ file

structure HttpOptions where
  timeoutSeconds : UInt64 := 30
  userAgent : String := "pdsl-query/1.0.0"
deriving DecidableEq

structure SearchOptions where
  /-- The number of ids of one page; zero counts as one. -/
  batchSize : UInt64 := 20
  rankingPath : String := Ranking.byPopularity.field.path
  rankingDirection : Direction := .descending
deriving DecidableEq

structure Config where
  source : Source := {}
  http : HttpOptions := {}
  search : SearchOptions := {}
deriving DecidableEq

end ShardSearch
