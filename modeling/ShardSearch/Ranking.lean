import ShardSearch.Field

/-!
What results are ranked by: a field and a direction. Choosing the field of the current ranking
again turns its direction around.
-/

set_option autoImplicit false

namespace ShardSearch

inductive Direction where
  | ascending
  | descending
deriving DecidableEq

def Direction.reversed : Direction → Direction
  | ascending => descending
  | descending => ascending

/-- An ordering as it is in a direction. -/
def Direction.apply : Direction → Ordering → Ordering
  | ascending, o => o
  | descending, o => o.swap

@[simp] theorem Direction.reversed_reversed (d : Direction) : d.reversed.reversed = d := by
  cases d <;> rfl

structure Ranking where
  field : Field
  direction : Direction
deriving DecidableEq

namespace Ranking

/-- The most popular come first. -/
def byPopularity : Ranking := ⟨.memberCount, .descending⟩

/-- The count of index pointers that ranks this way without the documents. -/
def indexKey? (r : Ranking) : Option IndexKey := r.field.indexKey?

/-- The ranking after `field` is chosen. -/
def choose (r : Ranking) (field : Field) : Ranking :=
  if r.field = field then ⟨field, r.direction.reversed⟩ else ⟨field, .descending⟩

@[simp] theorem field_choose (r : Ranking) (field : Field) : (r.choose field).field = field := by
  unfold choose
  split <;> rfl

@[simp] theorem indexKey?_choose (r : Ranking) (field : Field) :
    (r.choose field).indexKey? = field.indexKey? := by
  rw [indexKey?, field_choose]

end Ranking

end ShardSearch
