import ShardSearch.Document.Load
import ShardSearch.Query.Execution
import ShardSearch.Session.State
import ShardSearch.Text.Blank

/-!
Calls on a session. A call runs in steps: `start` takes its first step and `resume` each further
one, on the state as it then is, with the answer of a read. Between the steps of a call, other calls
may take theirs, so a call finds in the state what they have left there. What a call keeps for
itself over a read is in its `Waiting` form and nowhere else.

The two flags are not locks. A call that finds its flag taken is refused and does not wait, and a
search takes the flag of loading away from whoever has it.
-/

set_option autoImplicit false

namespace ShardSearch.Session

inductive Request where
  /-- Only the first search of a session may be empty: it browses the listing. -/
  | search (query : String) (first : Bool)
  | rerun
  | nextPage
  | exportAll
  | rank (field : Field)

inductive PageOutcome where
  /-- Another page or an export is under way. -/
  | busy
  | exhausted
  | loaded (appended cursor total : Nat)
  /-- The end of the page is no 64-bit number. -/
  | overflow
deriving DecidableEq

inductive SearchOutcome where
  | ignored
  | noResults
  | found (total : Nat) (page : PageOutcome)
deriving DecidableEq

inductive RankOutcome where
  /-- The order of the ids has changed: the search has to run again. -/
  | rerun
  | resorted
deriving DecidableEq

inductive Outcome where
  | search (outcome : SearchOutcome)
  | page (outcome : PageOutcome)
  | exported (documents : Option (List Document))
  | rank (outcome : RankOutcome)

/-- A call between two steps: what it does once its reads are done. -/
inductive Call where
  /-- The first search, going to install the listing. -/
  | browse (ids : Fetch (List Nat))
  /-- A search, going to install the ids that its query found and its filters. -/
  | find (filters : List PostFilter) (ids : Fetch (List Nat))
  /-- A page up to a cursor, on its own or as the first one of a search with a total. -/
  | page (search : Option Nat) (cursor total : Nat) (documents : Fetch (List Document))
  /-- An export, with the filters and the ranking that it started with. -/
  | exportAll (filters : List PostFilter) (ranking : Ranking) (documents : Fetch (List Document))

inductive Progress where
  | waiting (url : String) (next : Option Json → Call)
  | finished (outcome : Outcome)

/-- The outcome of a page is that of its search, if it is the first page of one. -/
def pageFinished (search : Option Nat) (outcome : PageOutcome) : Progress :=
  .finished <| match search with
    | some total => .search (.found total outcome)
    | none => .page outcome

/-- A page goes on: its documents pass the filters now in force and join the loaded ones. -/
def continuePage (s : State) (search : Option Nat) (cursor total : Nat) :
    Fetch (List Document) → State × Progress
  | .read url next => (s, .waiting url fun answer ↦ .page search cursor total (next answer))
  | .done documents =>
    let passing := documents.filter (PostFilter.allAccept s.filters)
    ({ s.append passing with fetching := false },
      pageFinished search (.loaded passing.length cursor total))

/-- A page takes its ids, whether or not they can then be loaded. -/
def startPage (setup : Setup) (s : State) (search : Option Nat) : State × Progress :=
  if s.fetching then (s, pageFinished search .busy)
  else if s.ids.length ≤ s.cursor then (s, pageFinished search .exhausted)
  else if Json.wordLimit ≤ s.cursor + setup.pageLength then (s, pageFinished search .overflow)
  else
    let cursor := min (s.cursor + setup.pageLength) s.ids.length
    let ids := (s.ids.take cursor).drop s.cursor
    continuePage { s with cursor := cursor, fetching := true } search cursor s.ids.length
      (Document.load setup.catalog.manifest ids)

def continueBrowse (setup : Setup) (s : State) : Fetch (List Nat) → State × Progress
  | .read url next => (s, .waiting url fun answer ↦ .browse (next answer))
  | .done ids => startPage setup { s with ids := ids } (some ids.length)

def continueFind (setup : Setup) (s : State) (filters : List PostFilter) :
    Fetch (List Nat) → State × Progress
  | .read url next => (s, .waiting url fun answer ↦ .find filters (next answer))
  | .done ids =>
    if ids.isEmpty then (s, .finished (.search .noResults))
    else startPage setup { s with filters := filters, ids := ids } (some ids.length)

def continueExport (s : State) (filters : List PostFilter) (ranking : Ranking) :
    Fetch (List Document) → State × Progress
  | .read url next => (s, .waiting url fun answer ↦ .exportAll filters ranking (next answer))
  | .done documents =>
    ({ s with exporting := false }, .finished <| .exported <| some <|
      Document.sortBy ranking (documents.filter (PostFilter.allAccept filters)))

/-- The ids of the listing, none if it cannot be read. -/
def listing (setup : Setup) : Fetch (List Nat) :=
  (Fetch.typed (Json.list? (Json.natBelow? Json.wordLimit)) setup.listingUrl).bind fun ids ↦
    .done (ids.getD [])

def startSearch (setup : Setup) (s : State) (text : String) (first : Bool) : State × Progress :=
  let query := Text.trim text
  if query.isEmpty then
    if first then continueBrowse setup (s.reset query) (listing setup)
    else (s, .finished (.search .ignored))
  else
    let plan := Plan.ofQuery query
    continueFind setup (s.reset query) plan.filters (plan.ids setup.catalog s.ranking)

def startExport (setup : Setup) (s : State) : State × Progress :=
  if s.exporting || s.ids.isEmpty then (s, .finished (.exported none))
  else continueExport { s with exporting := true } s.filters s.ranking
    (Document.load setup.catalog.manifest s.ids)

/-- The documents loaded so far are sorted again where the index has no part in either ranking. -/
def chooseRanking (s : State) (field : Field) : State × RankOutcome :=
  let ranking := s.ranking.choose field
  if s.ranking.indexKey?.isSome || ranking.indexKey?.isSome then
    ({ s with ranking := ranking }, .rerun)
  else ({ s with ranking := ranking, loaded := Document.sortBy ranking s.loaded }, .resorted)

def start (setup : Setup) (s : State) : Request → State × Progress
  | .search query first => startSearch setup s query first
  | .rerun => startSearch setup s s.query s.query.isEmpty
  | .nextPage => if s.exporting then (s, pageFinished none .busy) else startPage setup s none
  | .exportAll => startExport setup s
  | .rank field =>
    let (s, outcome) := chooseRanking s field
    (s, .finished (.rank outcome))

def resume (setup : Setup) (s : State) : Call → State × Progress
  | .browse ids => continueBrowse setup s ids
  | .find filters ids => continueFind setup s filters ids
  | .page search cursor total documents => continuePage s search cursor total documents
  | .exportAll filters ranking documents => continueExport s filters ranking documents

end ShardSearch.Session
