import ShardSearch.Document
import ShardSearch.Query.Condition
import ShardSearch.Text.Cut
import ShardSearch.Text.Lowercase

/-!
Post filters on documents. A phrase is looked for in lowercase, in the text of its field; free text
is the name, the description, the tag and the labels of the traits, one space between them. A field
is there when its value is neither an empty text nor an empty list.
-/

set_option autoImplicit false

namespace ShardSearch

def isPresent : Option Json → Bool
  | none => false
  | some .null => false
  | some (.string s) => !s.isEmpty
  | some (.array items) => !items.isEmpty
  | some _ => true

namespace Document

/-- The label of a trait, empty where it has none. -/
def traitLabel (j : Json) : String := ((j.get? "label").bind Json.string?).getD ""

def traitLabels (d : Document) : List String :=
  match (d.get? Field.profileTraits.path).bind Json.array? with
  | some traits => traits.map traitLabel
  | none => []

/-- The texts that free text consists of. -/
def freeTexts (d : Document) : List String :=
  [d.textAt Field.guildName.path, d.textAt Field.guildDescription.path,
    d.textAt Field.profileTag.path] ++ d.traitLabels

/-- The lowercase text that a phrase on a field is looked for in. -/
def searchText (d : Document) (field : Field) : String :=
  Text.lowercase <|
    if field = .freeText then " ".intercalate d.freeTexts else d.textAt field.path

end Document

namespace PostFilter

/-- The answer of a document to the question of a filter, its negation aside. -/
def asks (f : PostFilter) (d : Document) : Bool :=
  match f.kind with
  | .phrase =>
    Text.occursIn (Text.lowercase (f.text.getD "")).toList (d.searchText f.field).toList
  | .has => isPresent (d.get? f.field.path)
  | .missing => !isPresent (d.get? f.field.path)

def accepts (f : PostFilter) (d : Document) : Bool := f.asks d != f.negated

def allAccept (filters : List PostFilter) (d : Document) : Bool := filters.all (·.accepts d)

end PostFilter

end ShardSearch
