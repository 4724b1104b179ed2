import ShardSearch.Catalog
import ShardSearch.Document.Filter
import ShardSearch.Document.Order

/-!
The state of a search session: the last query, the ids that it found, how far they have been taken
for loading, the filters and the ranking in force, the documents loaded so far, and two flags, one
held while a page is loaded and one while everything is exported.

`Status` is what a session shows of its progress.
-/

set_option autoImplicit false

namespace ShardSearch.Session

/-- What a session is opened with. -/
structure Setup where
  catalog : Catalog
  config : Config

/-- The number of ids of one page. -/
def Setup.pageLength (setup : Setup) : Nat := max setup.config.search.batchSize.toNat 1

/-- The address of the listing of all ids, the most popular first. -/
def Setup.listingUrl (setup : Setup) : String :=
  setup.catalog.manifest.versioned (setup.config.source.resource setup.config.source.listingFile)

structure State where
  query : String := ""
  ids : List Nat := []
  cursor : Nat := 0
  filters : List PostFilter := []
  loaded : List Document := []
  ranking : Ranking
  fetching : Bool := false
  exporting : Bool := false

namespace State

/-- The state of a new session. A ranking by no known field is one by member count. -/
def initial (options : SearchOptions) : State where
  ranking := ⟨(Field.fromPath? options.rankingPath).getD .memberCount, options.rankingDirection⟩

/-- The state at the beginning of a search: everything of the last one is gone but the ranking. A
page that is still being loaded no longer holds its flag. -/
def reset (s : State) (query : String) : State :=
  { s with query := query, ids := [], cursor := 0, filters := [], loaded := [], fetching := false }

/-- The loaded documents with more of them, in order where the index does not order them. -/
def append (s : State) (documents : List Document) : State :=
  let loaded := s.loaded ++ documents
  { s with loaded := if s.ranking.indexKey?.isSome then loaded
      else Document.sortBy s.ranking loaded }

/-- The value of a field in each loaded document. -/
def column (s : State) (field : Field) : List (Option Json) :=
  s.loaded.map fun d ↦ d.get? field.path

@[simp] theorem ranking_reset (s : State) (query : String) :
    (s.reset query).ranking = s.ranking := rfl

@[simp] theorem exporting_reset (s : State) (query : String) :
    (s.reset query).exporting = s.exporting := rfl

theorem loaded_append_perm (s : State) (documents : List Document) :
    (s.append documents).loaded.Perm (s.loaded ++ documents) := by
  simp only [append]
  split
  · exact List.Perm.refl _
  · exact Document.sortBy_perm _ _

end State

structure Status where
  shown : Nat
  total : Nat
  cursor : Nat
deriving DecidableEq

def State.status (s : State) : Status := ⟨s.loaded.length, s.ids.length, s.cursor⟩

namespace Status

def moreAvailable (s : Status) : Bool := s.shown < s.total

def text (s : Status) : String :=
  "Showing " ++ toString s.shown ++ " of " ++ toString s.total ++ " results..." ++
    if s.moreAvailable then " (scroll for more)" else ""

end Status

/-- Digits in groups of three from the end, with commas between the groups. -/
def groupThousands : List Char → List Char
  | [] => []
  | c :: rest =>
    if rest.length % 3 = 0 && !rest.isEmpty then c :: ',' :: groupThousands rest
    else c :: groupThousands rest

def Setup.readyText (setup : Setup) : String :=
  let count := (toString setup.catalog.manifest.serverCount).toList
  "Ready. " ++ String.ofList (groupThousands count) ++ " servers indexed."

end ShardSearch.Session
