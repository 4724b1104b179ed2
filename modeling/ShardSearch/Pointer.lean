import ShardSearch.Json.Decode
import ShardSearch.Ranking

/-!
Index pointers. The index lists documents by their ids, and each entry may carry the two counts
that results are sorted by most often, so that they can be sorted before any document is loaded. A
missing count sorts as zero.
-/

set_option autoImplicit false

namespace ShardSearch

open Decimal (Binary64)

structure Pointer where
  id : Nat
  members : Option Binary64
  online : Option Binary64
deriving DecidableEq

namespace Pointer

def sortValue (p : Pointer) : IndexKey → Binary64
  | .memberCount => p.members.getD .zero
  | .onlineCount => p.online.getD .zero

def ofJson? (j : Json) : Option Pointer :=
  if j.isRecord 3 then do
    let id ← (← j.slot? 0 "id").natBelow? Json.wordLimit
    let members ← Json.optional? Json.float? (j.slot? 1 "mc")
    let online ← Json.optional? Json.float? (j.slot? 2 "oc")
    pure ⟨id, members, online⟩
  else none

/-- A pointer leaves out the counts that it does not carry. -/
def toJson (p : Pointer) : Json :=
  .ofEntries <| [("id", .number (.int p.id))] ++
    (p.members.toList.map fun x ↦ ("mc", .number (.float x))) ++
    (p.online.toList.map fun x ↦ ("oc", .number (.float x)))

/-- The order of two pointers under a sort value, in a direction. -/
def compareBy (key : IndexKey) (direction : Direction) (p q : Pointer) : Ordering :=
  direction.apply ((p.sortValue key).totalCompare (q.sortValue key))

/-- Pointers sorted by a count that they carry; ones that are tied keep their order. -/
def sortBy (key : IndexKey) (direction : Direction) (pointers : List Pointer) : List Pointer :=
  pointers.mergeSort fun p q ↦ (compareBy key direction p q).isLE

theorem sortBy_perm (key : IndexKey) (direction : Direction) (pointers : List Pointer) :
    (sortBy key direction pointers).Perm pointers :=
  List.mergeSort_perm _ _

end Pointer

end ShardSearch
