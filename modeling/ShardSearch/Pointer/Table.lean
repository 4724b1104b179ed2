import Std.Data.TreeMap
import ShardSearch.Pointer

/-!
Tables of pointers that remember the order in which ids came in. Within one list the first
occurrence of an id gives its position and the last one its pointer; between lists the first to
bring an id keeps it.
-/

set_option autoImplicit false

namespace ShardSearch

structure PointerTable where
  order : List Nat
  pointers : Std.TreeMap Nat Pointer

namespace PointerTable

def empty : PointerTable := ⟨[], ∅⟩

/-- The table with a pointer under its id, in the place of the one that was there. -/
def set (t : PointerTable) (p : Pointer) : PointerTable :=
  ⟨if t.pointers.contains p.id then t.order else t.order ++ [p.id], t.pointers.insert p.id p⟩

def insertIfAbsent (t : PointerTable) (p : Pointer) : PointerTable :=
  if t.pointers.contains p.id then t else ⟨t.order ++ [p.id], t.pointers.insert p.id p⟩

def ofList (pointers : List Pointer) : PointerTable := pointers.foldl set empty

def retain (t : PointerTable) (keep : Nat → Bool) : PointerTable :=
  let kept := t.pointers.filter fun id _ ↦ keep id
  ⟨t.order.filter kept.contains, kept⟩

def size (t : PointerTable) : Nat := t.order.length

def values (t : PointerTable) : List Pointer := t.order.filterMap fun id ↦ t.pointers[id]?

end PointerTable

end ShardSearch
