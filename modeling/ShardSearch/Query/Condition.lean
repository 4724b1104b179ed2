import ShardSearch.Decimal.Binary64
import ShardSearch.Field

/-!
Conditions and filters. A condition asks a question about one field; keywords, comparisons and
ranges are answered by the index. A post filter asks about the document itself, whether a phrase
occurs in a field or a field is there at all, and is answered once the document is loaded; a
condition whose test is deferred is such a filter in the place of a condition, and the index has no
answer to it.
-/

set_option autoImplicit false

namespace ShardSearch

open Decimal (Binary64)

inductive Comparison where
  | greater
  | atLeast
  | less
  | atMost
deriving DecidableEq

/-- Whether a value stands on the asked side of a bound. NaN stands on no side. -/
def Comparison.holds : Comparison → Binary64 → Binary64 → Bool
  | greater, value, bound => bound.before value
  | atLeast, value, bound => bound.atMost value
  | less, value, bound => value.before bound
  | atMost, value, bound => value.atMost bound

inductive FilterKind where
  | phrase
  | has
  | missing
deriving DecidableEq

/-- A question about a loaded document. Only a phrase has a text. -/
structure PostFilter where
  kind : FilterKind
  field : Field
  text : Option String
  negated : Bool
deriving DecidableEq

inductive Test where
  | keyword (term : String)
  | compare (op : Comparison) (bound : Binary64)
  | range (first last : Binary64)
  | deferred (kind : FilterKind) (text : Option String)
deriving DecidableEq

structure Condition where
  field : Field
  test : Test
  negated : Bool
deriving DecidableEq

namespace Condition

/-- The condition that free text contains a term. -/
def ofTerm (term : String) : Condition := ⟨.freeText, .keyword term, false⟩

/-- The same question about another field. -/
def on (c : Condition) (field : Field) : Condition := { c with field := field }

@[simp] theorem field_on (c : Condition) (field : Field) : (c.on field).field = field := rfl

@[simp] theorem test_on (c : Condition) (field : Field) : (c.on field).test = c.test := rfl

@[simp] theorem negated_on (c : Condition) (field : Field) :
    (c.on field).negated = c.negated := rfl

end Condition

end ShardSearch
