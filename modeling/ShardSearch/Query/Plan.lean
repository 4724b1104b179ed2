import ShardSearch.Decimal.Reader
import ShardSearch.Query.Condition
import ShardSearch.Query.Term
import ShardSearch.Text.Blank
import ShardSearch.Text.Cut
import ShardSearch.Text.Words

/-!
Query plans. A plan is a list of groups of conditions, of which a result meets one group, and a
list of filters, which it meets all. `ofQuery` reads a plan from a query text and never fails: a
term that names no known field is dropped, and a value that is no number or range is a keyword.

A phrase gives two things: a filter for its exact text, and a keyword condition for each of its
index terms, so that only documents that can contain it are loaded.
-/

set_option autoImplicit false

namespace ShardSearch

open Decimal (Binary64)

structure Plan where
  groups : List (List Condition)
  filters : List PostFilter
deriving DecidableEq

namespace Query

/-- What one term adds to its group and to the filters of the plan. -/
structure Contribution where
  conditions : List Condition := []
  filters : List PostFilter := []
deriving DecidableEq

/-- One required condition for each index term of a free text. -/
def keywords (text : String) : List Condition := (Text.tokenize text).map Condition.ofTerm

def isQuoted (cs : List Char) : Bool := cs.head? == some '"' && cs.getLast? == some '"'

/-- The field name and the value that a term text consists of, none for a bare word. A quotation
is a value of the free text. -/
def nameAndValue? (cs : List Char) : Option (List Char × List Char) :=
  if isQuoted cs then some (Field.freeText.path.toList, cs) else Text.cutAt? [':'] cs

/-- A value without the quotation marks around it, and whether they were there. -/
def unquote (cs : List Char) : List Char × Bool :=
  if isQuoted cs then (cs.tail.dropLast, true) else (cs, false)

/-- Two finite numbers with two dots between them. -/
def bounds? (cs : List Char) : Option (Binary64 × Binary64) := do
  let (first, last) ← Text.cutAt? ['.', '.'] cs
  let low ← Decimal.number? (Text.trimChars first)
  let high ← Decimal.number? (Text.trimChars last)
  if low.isFinite && high.isFinite then some (low, high) else none

/-- A comparison sign at the head of a text, and the rest. -/
def sign? : List Char → Option (Comparison × List Char)
  | '>' :: '=' :: rest => some (.atLeast, rest)
  | '>' :: rest => some (.greater, rest)
  | '<' :: '=' :: rest => some (.atMost, rest)
  | '<' :: rest => some (.less, rest)
  | _ => none

/-- ASCII digits, at least one, with an optional fraction of at least one. -/
def unsigned? (cs : List Char) : Option Binary64 :=
  let whole := cs.takeWhile Char.isDigit
  if whole.isEmpty then none
  else match cs.dropWhile Char.isDigit with
    | [] => some (.ofDecimal false (Decimal.digitsValue whole) 0)
    | '.' :: fraction =>
      if fraction.isEmpty || !fraction.all Char.isDigit then none
      else some (.ofDecimal false (Decimal.digitsValue (whole ++ fraction)) (-fraction.length))
    | _ => none

def comparison? (cs : List Char) : Option Test := do
  let (op, rest) ← sign? cs
  let bound ← unsigned? rest
  pure (.compare op bound)

/-- A range in a value of a field. Free text has no ranges. -/
def range? (field : Field) (cs : List Char) : Option Test :=
  if field = .freeText then none else (bounds? cs).map fun (low, high) ↦ .range low high

/-- The filter kind that a name stands for when it is no field name. -/
def presence? (name : String) : Option FilterKind :=
  if name = "has" then some .has else if name = "missing" then some .missing else none

/-- The contribution of a nonempty value on a known field. -/
def onField (negated : Bool) (field : Field) (cs : List Char) (quoted : Bool) : Contribution :=
  match range? field cs with
  | some test => { conditions := [⟨field, test, negated⟩] }
  | none =>
    let text := String.ofList cs
    if quoted then
      { conditions := keywords text, filters := [⟨.phrase, field, some text, negated⟩] }
    else
      let test := (comparison? cs).getD (.keyword (Text.stem (Text.lowercase text)))
      { conditions := [⟨field, test, negated⟩] }

def Term.contribution (t : Term) : Contribution :=
  match nameAndValue? t.text with
  | none => { conditions := keywords (String.ofList t.text) }
  | some (name, raw) =>
    let (value, quoted) := unquote raw
    if value.isEmpty then {}
    else match presence? (String.ofList name) with
      | some kind =>
        match Field.resolve? (String.ofList value) with
        | some field => { filters := [⟨kind, field, none, t.negated⟩] }
        | none => {}
      | none =>
        match Field.resolve? (String.ofList name) with
        | some field => onField t.negated field value quoted
        | none => {}

def groupContributions (group : List Char) : List Contribution :=
  (terms group).map Term.contribution

def groupConditions (group : List Char) : List Condition :=
  (groupContributions group).flatMap Contribution.conditions

def groupFilters (group : List Char) : List PostFilter :=
  (groupContributions group).flatMap Contribution.filters

end Query

/-- A group without conditions is left out, but its filters stay. -/
def Plan.ofQuery (query : String) : Plan where
  groups := ((Query.groups query.toList).map Query.groupConditions).filter fun g ↦ !g.isEmpty
  filters := (Query.groups query.toList).flatMap Query.groupFilters

/-- A plan without groups matches nothing. -/
def Plan.isEmpty (p : Plan) : Bool := p.groups.isEmpty

end ShardSearch
