import ShardSearch.Config
import ShardSearch.Json.Tree
import ShardSearch.Json.Writer

/-!
The text of a configuration. `render` writes all its fields, in order, as indented JSON; `parse?`
reads such a text, or any other that says the same.

A section may be left out of the configuration, but no field out of a section. A record is an object
in which no field occurs twice, or an array of the fields in their order. What is no field is not
looked at, beyond being JSON. A direction is a text, or an object whose only key is that text and
whose value is null.
-/

set_option autoImplicit false

namespace ShardSearch

/-! ### Writing -/

def Direction.text : Direction → String
  | .ascending => "asc"
  | .descending => "desc"

def Direction.ofText? : String → Option Direction
  | "asc" => some .ascending
  | "desc" => some .descending
  | _ => none

theorem Direction.ofText?_text (d : Direction) : ofText? d.text = some d := by cases d <;> rfl

def Source.toJson (s : Source) : Json :=
  .object [("root_url", .string s.rootUrl), ("manifest_file", .string s.manifestFile),
    ("numeric_manifest_file", .string s.numericManifestFile),
    ("sorted_ids_file", .string s.listingFile)]

def HttpOptions.toJson (o : HttpOptions) : Json :=
  .object [("timeout_secs", .number (.int o.timeoutSeconds.toNat)),
    ("user_agent", .string o.userAgent)]

def SearchOptions.toJson (o : SearchOptions) : Json :=
  .object [("batch_size", .number (.int o.batchSize.toNat)),
    ("default_sort_key", .string o.rankingPath),
    ("default_sort_direction", .string o.rankingDirection.text)]

namespace Config

def toJson (c : Config) : Json :=
  .object [("source", c.source.toJson), ("http", c.http.toJson), ("search", c.search.toJson)]

def render (c : Config) : String := c.toJson.pretty

end Config

/-! ### Reading -/

namespace Json.Tree

/-- A tree with the form of a record of the named fields. -/
def isRecord (fields : List String) : Tree → Bool
  | object entries =>
    entries.all (fun entry ↦ entry.1.isSome) &&
      fields.all fun field ↦ (entries.filter fun entry ↦ entry.1 == some field).length ≤ 1
  | array items => items.length ≤ fields.length
  | _ => false

/-- The field of a record that is called `name` and stands at `position`. -/
def slot? (position : Nat) (name : String) : Tree → Option Tree
  | object entries => entries.lookup (some name)
  | array items => items[position]?
  | _ => none

def string? : Tree → Option String
  | string s => s
  | _ => none

/-- A whole number that fits 64 bits. -/
def word? : Tree → Option UInt64
  | number (some (.int n)) => if 0 ≤ n ∧ n < Nat.pow 2 64 then some (UInt64.ofNat n.toNat) else none
  | _ => none

def direction? : Tree → Option Direction
  | string s => s.bind Direction.ofText?
  | object [(key, null)] => key.bind Direction.ofText?
  | _ => none

/-- The value of a field that may be missing. -/
def orDefault? {α : Type} (decode : Tree → Option α) (default : α) : Option Tree → Option α
  | none => some default
  | some t => decode t

end Json.Tree

open Json (Tree)

def Source.ofTree? (t : Tree) : Option Source :=
  if t.isRecord ["root_url", "manifest_file", "numeric_manifest_file", "sorted_ids_file"] then do
    let rootUrl ← (← t.slot? 0 "root_url").string?
    let manifestFile ← (← t.slot? 1 "manifest_file").string?
    let numericManifestFile ← (← t.slot? 2 "numeric_manifest_file").string?
    let listingFile ← (← t.slot? 3 "sorted_ids_file").string?
    pure ⟨rootUrl, manifestFile, numericManifestFile, listingFile⟩
  else none

def HttpOptions.ofTree? (t : Tree) : Option HttpOptions :=
  if t.isRecord ["timeout_secs", "user_agent"] then do
    let timeoutSeconds ← (← t.slot? 0 "timeout_secs").word?
    let userAgent ← (← t.slot? 1 "user_agent").string?
    pure ⟨timeoutSeconds, userAgent⟩
  else none

def SearchOptions.ofTree? (t : Tree) : Option SearchOptions :=
  if t.isRecord ["batch_size", "default_sort_key", "default_sort_direction"] then do
    let batchSize ← (← t.slot? 0 "batch_size").word?
    let rankingPath ← (← t.slot? 1 "default_sort_key").string?
    let rankingDirection ← (← t.slot? 2 "default_sort_direction").direction?
    pure ⟨batchSize, rankingPath, rankingDirection⟩
  else none

namespace Config

def ofTree? (t : Tree) : Option Config :=
  if t.isRecord ["source", "http", "search"] then do
    let source ← Tree.orDefault? Source.ofTree? {} (t.slot? 0 "source")
    let http ← Tree.orDefault? HttpOptions.ofTree? {} (t.slot? 1 "http")
    let search ← Tree.orDefault? SearchOptions.ofTree? {} (t.slot? 2 "search")
    pure ⟨source, http, search⟩
  else none

def parse? (text : String) : Option Config := (Tree.parse? text).bind ofTree?

end Config

end ShardSearch
