import ShardSearch.Decimal.Reader
import ShardSearch.Document
import ShardSearch.Json.Writer
import ShardSearch.Ranking
import ShardSearch.Text.Blank
import ShardSearch.Text.DecimalDigit

/-!
The order of documents under a ranking. Documents without a value, or with an empty text, come last
in both directions. Two values whose texts both begin with a number are compared by these numbers,
in the total order of doubles, and any other two by their texts. The text of a list is its items'
texts with commas between them, nulls being empty; any other value that is no text is compared by
its JSON text.
-/

set_option autoImplicit false

namespace ShardSearch

mutual

def Json.displayChars : Json → List Char
  | .string s => s.toList
  | .array items => Json.displayItems items
  | j => j.compactChars

def Json.displayItems : List Json → List Char
  | [] => []
  | [item] => Json.displayItem item
  | item :: rest => Json.displayItem item ++ ',' :: Json.displayItems rest

def Json.displayItem : Json → List Char
  | .null => []
  | j => Json.displayChars j

end

namespace Text

/-- The sign at the head of a text. -/
def signPart : List Char → List Char
  | '-' :: _ => ['-']
  | '+' :: _ => ['+']
  | _ => []

/-- Digits with an optional point among them or after them, or a point with digits after it. -/
def mantissaPart? (cs : List Char) : Option (List Char) :=
  let whole := cs.takeWhile isDecimalDigit
  match cs.dropWhile isDecimalDigit with
  | '.' :: rest =>
    let fraction := rest.takeWhile isDecimalDigit
    if whole.isEmpty && fraction.isEmpty then none else some (whole ++ '.' :: fraction)
  | _ => if whole.isEmpty then none else some whole

/-- An exponent with at least one digit, or nothing. -/
def exponentPart : List Char → List Char
  | [] => []
  | e :: rest =>
    let sign := signPart rest
    let digits := (rest.drop sign.length).takeWhile isDecimalDigit
    if (e == 'e' || e == 'E') && !digits.isEmpty then e :: sign ++ digits else []

/-- The number that a text begins with, blanks aside. A number with digits other than ASCII ones
has no value. -/
def leadingNumber? (cs : List Char) : Option Decimal.Binary64 := do
  let cs := trimStart cs
  let sign := signPart cs
  let mantissa ← mantissaPart? (cs.drop sign.length)
  let lexeme := sign ++ mantissa
  Decimal.number? (lexeme ++ exponentPart (cs.drop lexeme.length))

/-- Texts that both begin with a number are compared by these. -/
def displayOrder (first second : List Char) : Ordering :=
  match leadingNumber? first, leadingNumber? second with
  | some x, some y => x.totalCompare y
  | _, _ => compare first second

end Text

namespace Document

/-- The text that a document is ranked by, none where it has no value or an empty text. -/
def rankingText? (field : Field) (d : Document) : Option (List Char) :=
  match d.get? field.path with
  | none => none
  | some (.string s) => if s.isEmpty then none else some s.toList
  | some j => some j.displayChars

def compareBy (ranking : Ranking) (a b : Document) : Ordering :=
  match rankingText? ranking.field a, rankingText? ranking.field b with
  | none, none => .eq
  | none, some _ => .gt
  | some _, none => .lt
  | some first, some second => ranking.direction.apply (Text.displayOrder first second)

/-- Documents in the order of a ranking; ones that are tied keep their order. Every stable sort
leaves them so where the ranking orders them, up to ties. On documents that it does not order, a
sort by comparisons may leave any arrangement and need not even return: that they stay the same
documents is all that can be said there of every sort that does. -/
def sortBy (ranking : Ranking) (documents : List Document) : List Document :=
  documents.mergeSort fun a b ↦ (compareBy ranking a b).isLE

theorem sortBy_perm (ranking : Ranking) (documents : List Document) :
    (sortBy ranking documents).Perm documents :=
  List.mergeSort_perm _ _

end Document

end ShardSearch
