import ShardSearch.Decimal.Binary64
import ShardSearch.Text.Order

/-!
JSON values. Whole numbers are kept apart from the other ones, which are doubles. The entries of an
object that is read from a text or built by `ofEntries` are in the order of their keys, each key
once, the last entry of a key being the one that counts.
-/

set_option autoImplicit false

namespace ShardSearch

open Decimal (Binary64)

inductive Json.Number where
  | int (n : Int)
  | float (x : Binary64)
deriving DecidableEq

inductive Json where
  | null
  | bool (b : Bool)
  | number (n : Json.Number)
  | string (s : String)
  | array (items : List Json)
  | object (entries : List (String × Json))
deriving Inhabited

namespace Json

def isNull : Json → Bool
  | null => true
  | _ => false

/-- Entries in key order with a key set to a value. -/
def setEntry (key : String) (value : Json) : List (String × Json) → List (String × Json)
  | [] => [(key, value)]
  | (k, v) :: rest =>
    match Text.order key k with
    | .lt => (key, value) :: (k, v) :: rest
    | .eq => (key, value) :: rest
    | .gt => (k, v) :: setEntry key value rest

def ofEntries (entries : List (String × Json)) : Json :=
  object (entries.foldl (fun sorted entry ↦ setEntry entry.1 entry.2 sorted) [])

/-- The value of a key of an object. -/
def get? (key : String) : Json → Option Json
  | object entries => entries.lookup key
  | _ => none

def string? : Json → Option String
  | string s => some s
  | _ => none

def array? : Json → Option (List Json)
  | array items => some items
  | _ => none

end Json

end ShardSearch
