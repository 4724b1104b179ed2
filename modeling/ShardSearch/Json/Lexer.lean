import ShardSearch.Decimal.Reader
import ShardSearch.Json.Basic

/-!
The tokens of a JSON text. Reading is strict: blanks are space, tab, line feed and carriage return;
numbers have no leading zeros and a digit on each side of a point; strings hold no bare control
characters and end; there are no comments. Two kinds of tokens are well formed and have no value
all the same, a number beyond the doubles and a string whose escapes leave half of a surrogate pair
alone: whether that is an error depends on who asks for the value.
-/

set_option autoImplicit false

namespace ShardSearch.Json

open Decimal (Binary64)

inductive Token where
  | openArray
  | closeArray
  | openObject
  | closeObject
  | comma
  | colon
  | null
  | bool (b : Bool)
  | number (n : Option Number)
  | string (s : Option String)
deriving DecidableEq

def isJsonBlank (c : Char) : Bool := c == ' ' || c == '\t' || c == '\n' || c == '\x0d'

/-! ### Numbers -/

def isNumberChar (c : Char) : Bool :=
  c.isDigit || c == '-' || c == '+' || c == '.' || c == 'e' || c == 'E'

/-- A whole number keeps its value while it fits 64 bits, signed or not, and is a double beyond
them; so is the negative zero. -/
def Number.ofWhole (negative : Bool) (n : Nat) : Number :=
  if negative then
    if n = 0 || Nat.pow 2 63 < n then .float (.ofDecimal true n 0) else .int (-n)
  else if n < Nat.pow 2 64 then .int n else .float (.ofDecimal false n 0)

/-- The value of a number that is written with a fraction or an exponent. -/
def Number.ofDecimal? (negative : Bool) (digits : Nat) (place : Int) : Option Number :=
  let x := Binary64.ofDecimal negative digits place
  if x.isFinite then some (.float x) else none

/-- The digits before the point are `0` alone or begin with another digit. -/
def isWholePart : List Char → Bool
  | ['0'] => true
  | c :: _ => c != '0'
  | [] => false

/-- The number that a lexeme spells: no number at all, or one with or without a value. -/
def numberToken? (lexeme : List Char) : Option Token :=
  let negative := lexeme.head? == some '-'
  let unsigned := if negative then lexeme.tail else lexeme
  let whole := unsigned.takeWhile Char.isDigit
  let rest := unsigned.dropWhile Char.isDigit
  if !isWholePart whole then none
  else if rest.isEmpty then
    some (.number (some (.ofWhole negative (Decimal.digitsValue whole))))
  else
    let (fraction, rest) := Decimal.takeFraction rest
    if fraction.isEmpty && unsigned.contains '.' then none
    else
      let digits := Decimal.digitsValue (whole ++ fraction)
      (Decimal.exponentPart? rest).map fun e ↦
        .number (Number.ofDecimal? negative digits (e - fraction.length))

/-! ### Strings -/

def hexValue? (c : Char) : Option Nat :=
  if c.isDigit then some (c.toNat - '0'.toNat)
  else if 'a' ≤ c && c ≤ 'f' then some (c.toNat - 'a'.toNat + 10)
  else if 'A' ≤ c && c ≤ 'F' then some (c.toNat - 'A'.toNat + 10)
  else none

/-- The number that four hexadecimal digits write. -/
def hex4? (a b c d : Char) : Option Nat := do
  let a ← hexValue? a
  let b ← hexValue? b
  let c ← hexValue? c
  let d ← hexValue? d
  pure (((a * 16 + b) * 16 + c) * 16 + d)

/-- The character of an escape of one letter. -/
def escaped? : Char → Option Char
  | '"' => some '"'
  | '\\' => some '\\'
  | '/' => some '/'
  | 'b' => some '\x08'
  | 'f' => some '\x0c'
  | 'n' => some '\n'
  | 'r' => some '\x0d'
  | 't' => some '\t'
  | _ => none

/-- The code points and surrogates of a string whose opening mark has been read, and the number of
characters up to and with its closing mark. -/
def stringUnits? : List Char → Option (List Nat × Nat)
  | [] => none
  | '"' :: _ => some ([], 1)
  | '\\' :: 'u' :: a :: b :: c :: d :: rest => do
    let unit ← hex4? a b c d
    let (units, width) ← stringUnits? rest
    pure (unit :: units, width + 6)
  | '\\' :: e :: rest => do
    let c ← escaped? e
    let (units, width) ← stringUnits? rest
    pure (c.toNat :: units, width + 2)
  | c :: rest =>
    if c.toNat < 0x20 || c == '\\' then none
    else (stringUnits? rest).map fun (units, width) ↦ (c.toNat :: units, width + 1)

def isHighSurrogate (unit : Nat) : Bool := 0xD800 ≤ unit && unit < 0xDC00

def isLowSurrogate (unit : Nat) : Bool := 0xDC00 ≤ unit && unit < 0xE000

/-- The text of code points and surrogate pairs. -/
def ofUnits? : List Nat → Option (List Char)
  | [] => some []
  | unit :: rest =>
    if isLowSurrogate unit then none
    else if isHighSurrogate unit then
      match rest with
      | low :: rest =>
        if isLowSurrogate low then
          (ofUnits? rest).map (Char.ofNat (0x10000 + (unit - 0xD800) * 0x400 + (low - 0xDC00)) :: ·)
        else none
      | [] => none
    else (ofUnits? rest).map (Char.ofNat unit :: ·)

/-! ### Tokens -/

/-- The token at the head of a text that begins with no blank, and its length. -/
def leadingToken? : List Char → Option (Token × Nat)
  | '[' :: _ => some (.openArray, 1)
  | ']' :: _ => some (.closeArray, 1)
  | '\x7b' :: _ => some (.openObject, 1)
  | '\x7d' :: _ => some (.closeObject, 1)
  | ',' :: _ => some (.comma, 1)
  | ':' :: _ => some (.colon, 1)
  | 'n' :: 'u' :: 'l' :: 'l' :: _ => some (.null, 4)
  | 't' :: 'r' :: 'u' :: 'e' :: _ => some (.bool true, 4)
  | 'f' :: 'a' :: 'l' :: 's' :: 'e' :: _ => some (.bool false, 5)
  | '"' :: rest => (stringUnits? rest).map fun (units, width) ↦
      (.string ((ofUnits? units).map String.ofList), width + 1)
  | cs =>
    let lexeme := cs.takeWhile isNumberChar
    (numberToken? lexeme).map fun token ↦ (token, lexeme.length)

/-- The tokens of a text after its first `skip` characters. -/
def tokensFrom : Nat → List Char → Option (List Token)
  | _, [] => some []
  | skip + 1, _ :: rest => tokensFrom skip rest
  | 0, c :: rest =>
    if isJsonBlank c then tokensFrom 0 rest
    else do
      let (token, width) ← leadingToken? (c :: rest)
      let later ← tokensFrom (width - 1) rest
      pure (token :: later)

def tokens? (cs : List Char) : Option (List Token) := tokensFrom 0 cs

theorem tokensFrom_skip (n : Nat) (cs : List Char) : tokensFrom n cs = tokens? (cs.drop n) := by
  induction cs generalizing n with
  | nil => cases n <;> rfl
  | cons c rest ih =>
    cases n with
    | zero => rfl
    | succ n => simpa [tokensFrom] using ih n

end ShardSearch.Json
