/-!
The terms of a query text. `OR` in any letter case and `|`, each between two spaces, separate
groups, leftmost first; the separator takes its spaces with it. Within a group, terms are separated
by spaces. A term may begin with `-`. Its text is a name, a colon and a value, or a value alone; a
value is a closed quotation, in which spaces do not separate, or else a run up to the next space. A
quotation mark without a partner is an ordinary character.

Both scanners go through a text character by character and step over the characters that belong to
what they found last. Stepping over `n` characters is going on from the text without them
(`termsFrom_skip`).
-/

set_option autoImplicit false

namespace ShardSearch.Query

/-- The length of the group separator at the head of a text, zero if none is there. -/
def separatorLength : List Char → Nat
  | ' ' :: '|' :: ' ' :: _ => 3
  | ' ' :: o :: r :: ' ' :: _ => if o.toLower == 'o' && r.toLower == 'r' then 4 else 0
  | _ => 0

def consHead (c : Char) : List (List Char) → List (List Char)
  | [] => [[c]]
  | group :: later => (c :: group) :: later

/-- The groups of a text after its first `skip` characters. -/
def groupsFrom : Nat → List Char → List (List Char)
  | _, [] => [[]]
  | skip + 1, _ :: rest => groupsFrom skip rest
  | 0, c :: rest =>
    match separatorLength (c :: rest) with
    | 0 => consHead c (groupsFrom 0 rest)
    | more + 1 => [] :: groupsFrom more rest

def groups (cs : List Char) : List (List Char) := groupsFrom 0 cs

/-- The quotation at the head of a text, with both its marks. -/
def quotation? : List Char → Option (List Char)
  | '"' :: rest =>
    if rest.contains '"' then some ('"' :: rest.takeWhile (· != '"') ++ ['"']) else none
  | _ => none

def run (cs : List Char) : List Char := cs.takeWhile (· != ' ')

def value (cs : List Char) : List Char := (quotation? cs).getD (run cs)

def isNameChar (c : Char) : Bool := c.isAlpha || c == '.' || c == '_'

/-- The name, colon and value at the head of a text. -/
def named? (cs : List Char) : Option (List Char) :=
  let name := cs.takeWhile isNameChar
  match cs.dropWhile isNameChar with
  | ':' :: rest =>
    if name.isEmpty || (value rest).isEmpty then none else some (name ++ ':' :: value rest)
  | _ => none

def body (cs : List Char) : List Char := (named? cs).getD (value cs)

structure Term where
  negated : Bool
  text : List Char
deriving DecidableEq

/-- The number of characters that the term takes, with its `-`. -/
def Term.width (t : Term) : Nat := if t.negated then t.text.length + 1 else t.text.length

/-- The term at the head of a text. A `-` before a space or the end negates nothing: it is a term
itself. -/
def leadingTerm : List Char → Term
  | '-' :: rest => if (body rest).isEmpty then ⟨false, body ('-' :: rest)⟩ else ⟨true, body rest⟩
  | cs => ⟨false, body cs⟩

/-- The terms of a text after its first `skip` characters. -/
def termsFrom : Nat → List Char → List Term
  | _, [] => []
  | skip + 1, _ :: rest => termsFrom skip rest
  | 0, c :: rest =>
    if c == ' ' then termsFrom 0 rest
    else
      let term := leadingTerm (c :: rest)
      term :: termsFrom (term.width - 1) rest

def terms (cs : List Char) : List Term := termsFrom 0 cs

theorem termsFrom_skip (n : Nat) (cs : List Char) : termsFrom n cs = terms (cs.drop n) := by
  induction cs generalizing n with
  | nil => cases n <;> rfl
  | cons c rest ih =>
    cases n with
    | zero => rfl
    | succ n => simpa [termsFrom] using ih n

end ShardSearch.Query
