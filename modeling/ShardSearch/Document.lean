import ShardSearch.Json.Decode

/-!
Documents. A document has an id and data; its values are reached by dotted paths through nested
objects. A null anywhere on the way is no value.
-/

set_option autoImplicit false

namespace ShardSearch

/-- The parts of a dotted path. -/
def pathParts (path : String) : List String := (path.toList.splitOn '.').map String.ofList

/-- The value at the end of a path, if there is one and nothing on the way is null. -/
def Json.follow? : Json → List String → Option Json
  | j, [] => some j
  | j, part :: rest =>
    match j.get? part with
    | some .null => none
    | some value => follow? value rest
    | none => none

def Json.at? (j : Json) (path : String) : Option Json := j.follow? (pathParts path)

structure Document where
  id : Nat
  data : Json

namespace Document

def get? (d : Document) (path : String) : Option Json := d.data.at? path

/-- The text at a path, empty where there is no text. -/
def textAt (d : Document) (path : String) : String :=
  ((d.get? path).bind Json.string?).getD ""

def ofJson? (j : Json) : Option Document :=
  if j.isRecord 2 then do
    let id ← (← j.slot? 0 "internal_id").natBelow? Json.wordLimit
    pure ⟨id, (j.slot? 1 "data").getD .null⟩
  else none

def toJson (d : Document) : Json :=
  .ofEntries [("internal_id", .number (.int d.id)), ("data", d.data)]

end Document

end ShardSearch
