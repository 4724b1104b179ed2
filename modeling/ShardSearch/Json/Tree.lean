import ShardSearch.Json.Lexer

/-!
JSON texts as trees. A tree keeps what a text says before it is taken for a value: the entries of an
object in the order of the text, with repeated keys, and numbers and strings that have no value. It
is built from the tokens by a machine that holds the containers that are still open.

`parse?` reads a text that is to be a value throughout. Who needs only a part of a text reads the
tree instead.
-/

set_option autoImplicit false

namespace ShardSearch.Json

inductive Tree where
  | null
  | bool (b : Bool)
  | number (n : Option Number)
  | string (s : Option String)
  | array (items : List Tree)
  | object (entries : List (Option String × Tree))
deriving Inhabited

namespace Tree

/-- A container whose next value is being read: the ones before it, last first. -/
inductive Frame where
  | array (done : List Tree)
  | object (done : List (Option String × Tree)) (key : Option String)

/-- What may come next, inside the open containers. -/
inductive Progress where
  | value (frames : List Frame)
  | valueOrClose (frames : List Frame)
  | keyOrClose (frames : List Frame)
  | nextKey (frames : List Frame) (done : List (Option String × Tree))
  | colon (frames : List Frame) (done : List (Option String × Tree)) (key : Option String)
  | afterValue (frames : List Frame) (value : Tree)

def beginValue (frames : List Frame) : Token → Option Progress
  | .null => some (.afterValue frames null)
  | .bool b => some (.afterValue frames (bool b))
  | .number n => some (.afterValue frames (number n))
  | .string s => some (.afterValue frames (string s))
  | .openArray => some (.valueOrClose frames)
  | .openObject => some (.keyOrClose frames)
  | _ => none

def Progress.step : Progress → Token → Option Progress
  | .value frames, token => beginValue frames token
  | .valueOrClose frames, .closeArray => some (.afterValue frames (array []))
  | .valueOrClose frames, token => beginValue (.array [] :: frames) token
  | .keyOrClose frames, .closeObject => some (.afterValue frames (object []))
  | .keyOrClose frames, .string key => some (.colon frames [] key)
  | .nextKey frames done, .string key => some (.colon frames done key)
  | .colon frames done key, .colon => some (.value (.object done key :: frames))
  | .afterValue (.array done :: frames) v, .comma => some (.value (.array (v :: done) :: frames))
  | .afterValue (.array done :: frames) v, .closeArray =>
    some (.afterValue frames (array (v :: done).reverse))
  | .afterValue (.object done key :: frames) v, .comma => some (.nextKey frames ((key, v) :: done))
  | .afterValue (.object done key :: frames) v, .closeObject =>
    some (.afterValue frames (object ((key, v) :: done).reverse))
  | _, _ => none

def Progress.run : Progress → List Token → Option Progress
  | p, [] => some p
  | p, token :: rest => (p.step token).bind fun next ↦ next.run rest

def Progress.finish? : Progress → Option Tree
  | .afterValue [] v => some v
  | _ => none

def ofTokens? (tokens : List Token) : Option Tree :=
  ((Progress.value []).run tokens).bind Progress.finish?

/-- The tree of a text that is one JSON value with blanks around it. -/
def parse? (s : String) : Option Tree := (tokens? s.toList).bind ofTokens?

theorem Progress.run_append (p : Progress) (first second : List Token) :
    p.run (first ++ second) = (p.run first).bind fun next ↦ next.run second := by
  induction first generalizing p with
  | nil => rfl
  | cons token rest ih =>
    simp only [List.cons_append, Progress.run]
    cases p.step token with
    | none => rfl
    | some next => exact ih next

mutual

def toJson? : Tree → Option Json
  | null => some .null
  | bool b => some (.bool b)
  | number n => n.map .number
  | string s => s.map .string
  | array items => (itemsToJson? items).map .array
  | object entries => (entriesToJson? entries).map Json.ofEntries

def itemsToJson? : List Tree → Option (List Json)
  | [] => some []
  | item :: rest => do
    let value ← toJson? item
    let values ← itemsToJson? rest
    pure (value :: values)

def entriesToJson? : List (Option String × Tree) → Option (List (String × Json))
  | [] => some []
  | (key, item) :: rest => do
    let key ← key
    let value ← toJson? item
    let entries ← entriesToJson? rest
    pure ((key, value) :: entries)

end

mutual

/-- The tree of a value, which has every part of it. -/
def ofJson : Json → Tree
  | .null => null
  | .bool b => bool b
  | .number n => number (some n)
  | .string s => string (some s)
  | .array items => array (ofItems items)
  | .object entries => object (ofEntries entries)

def ofItems : List Json → List Tree
  | [] => []
  | item :: rest => ofJson item :: ofItems rest

def ofEntries : List (String × Json) → List (Option String × Tree)
  | [] => []
  | (key, item) :: rest => (some key, ofJson item) :: ofEntries rest

end

end Tree

def parse? (s : String) : Option Json := (Tree.parse? s).bind Tree.toJson?

end ShardSearch.Json
