import ShardSearch.Index.Lookup
import ShardSearch.Pointer.Table
import ShardSearch.Query.Plan

/-!
Executing a plan on the index. A group keeps the pointers of its first required condition whose ids
all its other required conditions list and none of its negated ones does. It yields nothing when it
has no required condition or one of them finds nothing, and then its negated conditions are not
looked up. Groups are put together in order, the first to yield an id keeping it, and the result is
sorted if the index carries the count that it is ranked by.
-/

set_option autoImplicit false

namespace ShardSearch

namespace Query

def listsId (pointers : List Pointer) (id : Nat) : Bool := pointers.any (·.id == id)

/-- The first list's pointers whose ids are in all the lists. -/
def intersect : List (List Pointer) → PointerTable
  | [] => .empty
  | first :: others =>
    others.foldl (fun table list ↦ table.retain (listsId list)) (.ofList first)

def exclude (c : Catalog) (table : PointerTable) : List Condition → Fetch PointerTable
  | [] => .done table
  | condition :: rest => (Index.resolve c condition).bind fun list ↦
    exclude c (table.retain fun id ↦ !listsId list id) rest

/-- The pointers that a group of conditions yields. -/
def groupPointers (c : Catalog) (group : List Condition) : Fetch (List Pointer) :=
  match group.partition fun condition ↦ !condition.negated with
  | ([], _) => .done []
  | (required, negated) =>
    (Fetch.each (Index.resolve c) required).bind fun lists ↦
      if lists.any List.isEmpty then .done []
      else (exclude c (intersect lists) negated).bind fun table ↦ .done table.values

end Query

namespace Plan

/-- The pointers of all groups, each id once. -/
def merge (lists : List (List Pointer)) : List Pointer :=
  (lists.flatten.foldl PointerTable.insertIfAbsent PointerTable.empty).values

def rank (ranking : Ranking) (pointers : List Pointer) : List Pointer :=
  match ranking.indexKey? with
  | some key => Pointer.sortBy key ranking.direction pointers
  | none => pointers

def pointers (p : Plan) (c : Catalog) (ranking : Ranking) : Fetch (List Pointer) :=
  (Fetch.each (Query.groupPointers c) p.groups).bind fun lists ↦ .done (rank ranking (merge lists))

def ids (p : Plan) (c : Catalog) (ranking : Ranking) : Fetch (List Nat) :=
  (p.pointers c ranking).bind fun pointers ↦ .done (pointers.map (·.id))

end Plan

end ShardSearch
