import ShardSearch.Config
import ShardSearch.Fetch
import ShardSearch.Manifest

/-!
The catalog: the routing manifest and, where there is one, the numeric manifest, which lists the
values that occur in numeric fields. Both are read once, before any query. Without the first there
is no catalog; without the second only numeric conditions find nothing.
-/

set_option autoImplicit false

namespace ShardSearch

open Decimal (Binary64)

/-- The values of each numeric field. -/
abbrev NumericManifest := List (String × List Binary64)

def NumericManifest.ofJson? (j : Json) : Option NumericManifest :=
  j.entries? (Json.list? Json.float?)

structure Catalog where
  manifest : Manifest
  numeric : Option NumericManifest

namespace Catalog

/-- Why there is no catalog. -/
inductive Unavailable where
  | notFound
  | invalid
deriving DecidableEq

def Unavailable.message : Unavailable → String
  | notFound => "search manifest unavailable: Manifest not found"
  | invalid => "search manifest unavailable: Invalid manifest"

/-- The numeric values of a field, as far as they are known. -/
def numericValues (c : Catalog) (field : Field) : List Binary64 :=
  ((c.numeric.getD []).lookup field.path).getD []

/-- The address of the routing manifest. A time stamp keeps it out of caches. -/
def manifestUrl (source : Source) (stamp : Nat) : String :=
  source.resource source.manifestFile ++ "?t=" ++ toString stamp

def numericUrl (source : Source) (m : Manifest) : String :=
  m.versioned (source.resource source.numericManifestFile)

def load (source : Source) (stamp : Nat) : Fetch (Except Unavailable Catalog) := do
  match ← Fetch.get (manifestUrl source stamp) with
  | none => pure (.error .notFound)
  | some body =>
    match Manifest.ofJson? body with
    | none => pure (.error .invalid)
    | some manifest =>
      let numeric ← Fetch.typed NumericManifest.ofJson? (numericUrl source manifest)
      pure (.ok ⟨manifest, numeric⟩)

end Catalog

end ShardSearch
