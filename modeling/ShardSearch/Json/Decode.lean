import ShardSearch.Decimal.Rounding
import ShardSearch.Json.Basic

/-!
Reading typed data out of JSON values. A record is an object of its fields, or an array of them in
their order, which may leave out the last ones; `slot?` finds a field either way. Keys that are no
field do not count. Whole numbers are read as naturals below a limit, and never from a double; any
number is read as a double. A missing field and a null are both no value of an optional field.
-/

set_option autoImplicit false

namespace ShardSearch.Json

open Decimal (Binary64)

/-- The number of values of a 64-bit word. -/
def wordLimit : Nat := Nat.pow 2 64

/-- The number of values of a 32-bit word. -/
def halfWordLimit : Nat := Nat.pow 2 32

def natBelow? (limit : Nat) : Json → Option Nat
  | number (.int n) => if 0 ≤ n ∧ n < limit then some n.toNat else none
  | _ => none

def float? : Json → Option Binary64
  | number (.int n) => some (.ofInt n)
  | number (.float x) => some x
  | _ => none

def list? {α : Type} (decode : Json → Option α) : Json → Option (List α)
  | array items => items.mapM decode
  | _ => none

/-- The entries of an object whose values are all of one kind. -/
def entries? {α : Type} (decode : Json → Option α) : Json → Option (List (String × α))
  | object entries => entries.mapM fun entry ↦ (decode entry.2).map fun value ↦ (entry.1, value)
  | _ => none

/-- A value with the form of a record of `size` fields. -/
def isRecord (size : Nat) : Json → Bool
  | object _ => true
  | array items => items.length ≤ size
  | _ => false

/-- The field of a record that is called `name` and stands at `position`. -/
def slot? (position : Nat) (name : String) : Json → Option Json
  | object entries => entries.lookup name
  | array items => items[position]?
  | _ => none

/-- The value of a field that may be missing, and then has the default value. -/
def orDefault? {α : Type} (decode : Json → Option α) (default : α) : Option Json → Option α
  | none => some default
  | some j => decode j

/-- The value of an optional field. -/
def optional? {α : Type} (decode : Json → Option α) : Option Json → Option (Option α)
  | none => some none
  | some null => some none
  | some j => (decode j).map some

end ShardSearch.Json
