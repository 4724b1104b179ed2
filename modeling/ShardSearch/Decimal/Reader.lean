import ShardSearch.Decimal.Rounding

/-!
Reading decimal text. `number?` takes a whole text: an optional sign, then `inf`, `infinity` or
`nan` in any letter case, or digits with an optional fraction and exponent. At least one digit
stands before or after the point, and at least one in the exponent where there is one.
-/

set_option autoImplicit false

namespace ShardSearch.Decimal

def digitValue (c : Char) : Nat := c.toNat - '0'.toNat

def digitsValue (cs : List Char) : Nat := cs.foldl (fun n c ↦ 10 * n + digitValue c) 0

/-- The sign that a text may begin with, and the rest. -/
def takeSign : List Char → Bool × List Char
  | '-' :: rest => (true, rest)
  | '+' :: rest => (false, rest)
  | cs => (false, cs)

/-- An exponent that is the whole of a text: signed digits, at least one. -/
def exponent? (cs : List Char) : Option Int :=
  let (negative, digits) := takeSign cs
  if digits.isEmpty || !digits.all Char.isDigit then none
  else if negative then some (-(digitsValue digits : Int))
  else some (digitsValue digits)

/-- The exponent part at the end of a number: nothing, or `e` and an exponent. -/
def exponentPart? : List Char → Option Int
  | [] => some 0
  | c :: rest => if c == 'e' || c == 'E' then exponent? rest else none

/-- The digits after a decimal point, and the rest. -/
def takeFraction : List Char → List Char × List Char
  | '.' :: rest => (rest.takeWhile Char.isDigit, rest.dropWhile Char.isDigit)
  | cs => ([], cs)

/-- An unsigned decimal: its digits read as one natural, and the place of the last of them. -/
def decimal? (cs : List Char) : Option (Nat × Int) :=
  let whole := cs.takeWhile Char.isDigit
  let (fraction, rest) := takeFraction (cs.dropWhile Char.isDigit)
  if whole.isEmpty && fraction.isEmpty then none
  else (exponentPart? rest).map fun e ↦ (digitsValue (whole ++ fraction), e - fraction.length)

def number? (cs : List Char) : Option Binary64 :=
  let (negative, rest) := takeSign cs
  let word := rest.map Char.toLower
  if word = "inf".toList ∨ word = "infinity".toList then some (.infinite negative)
  else if word = "nan".toList then some { Binary64.nan with negative := negative }
  else (decimal? rest).map fun (digits, place) ↦ .ofDecimal negative digits place

end ShardSearch.Decimal
