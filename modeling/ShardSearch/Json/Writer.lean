import ShardSearch.Decimal.Plain
import ShardSearch.Json.Basic

/-!
JSON text. `compact` writes a value without blanks. `pretty` writes every item and entry on a line
of its own, two more spaces in for each container around it. Strings escape quotation marks,
backslashes and control characters, the latter by a letter where there is one; all other characters
stand for themselves. Doubles keep a fraction where they are whole, and have an exponent from
10^16 on and below 10^(-5).
-/

set_option autoImplicit false

namespace ShardSearch.Json

open Decimal (Binary64)

/-! ### Numbers -/

def exponentChars (e : Int) : List Char :=
  'e' :: (if e < 0 then '-' else '+') :: Nat.toDigits 10 e.natAbs

/-- Digits with a point after the first, times a power of ten. -/
def scientificChars (digits : List Char) (point : Int) : List Char :=
  digits.take 1 ++ (if digits.length ≤ 1 then [] else '.' :: digits.drop 1) ++
    exponentChars (point - 1)

/-- A double with digits on both sides of a point. -/
def fractionChars (digits : List Char) (point : Int) : List Char :=
  let (whole, fraction) := Decimal.positional digits point
  whole ++ '.' :: if fraction.isEmpty then ['0'] else fraction

def floatChars (x : Binary64) : List Char :=
  if !x.isFinite then ['n', 'u', 'l', 'l']
  else Binary64.withSign x.negative <|
    if x.isZero then ['0', '.', '0']
    else
      let (digits, point) := (Decimal.shortest .even x.magnitude).spread
      if -5 < point && point ≤ 16 then fractionChars digits point
      else scientificChars digits point

def intChars (n : Int) : List Char :=
  Binary64.withSign (decide (n < 0)) (Nat.toDigits 10 n.natAbs)

def Number.chars : Number → List Char
  | .int n => intChars n
  | .float x => floatChars x

def Number.text (n : Number) : String := String.ofList n.chars

/-! ### Strings -/

def hexChars (n : Nat) : List Char := [Nat.digitChar (n / 16), Nat.digitChar (n % 16)]

def escapeChar (c : Char) : List Char :=
  if c == '"' then ['\\', '"']
  else if c == '\\' then ['\\', '\\']
  else if c == '\x08' then ['\\', 'b']
  else if c == '\x0c' then ['\\', 'f']
  else if c == '\n' then ['\\', 'n']
  else if c == '\x0d' then ['\\', 'r']
  else if c == '\t' then ['\\', 't']
  else if c.toNat < 0x20 then '\\' :: 'u' :: '0' :: '0' :: hexChars c.toNat
  else [c]

def quoted (s : String) : List Char := '"' :: s.toList.flatMap escapeChar ++ ['"']

/-! ### Values -/

mutual

def compactChars : Json → List Char
  | null => ['n', 'u', 'l', 'l']
  | bool true => ['t', 'r', 'u', 'e']
  | bool false => ['f', 'a', 'l', 's', 'e']
  | number n => n.chars
  | string s => quoted s
  | array items => '[' :: compactItems items ++ [']']
  | object entries => '\x7b' :: compactEntries entries ++ ['\x7d']

def compactItems : List Json → List Char
  | [] => []
  | [item] => compactChars item
  | item :: rest => compactChars item ++ ',' :: compactItems rest

def compactEntries : List (String × Json) → List Char
  | [] => []
  | [(key, item)] => quoted key ++ ':' :: compactChars item
  | (key, item) :: rest => quoted key ++ ':' :: compactChars item ++ ',' :: compactEntries rest

end

def compact (j : Json) : String := String.ofList (compactChars j)

def newLine (indent : Nat) : List Char := '\n' :: List.replicate indent ' '

mutual

def prettyChars (indent : Nat) : Json → List Char
  | array [] => ['[', ']']
  | array (item :: rest) =>
    '[' :: prettyItems (indent + 2) (item :: rest) ++ newLine indent ++ [']']
  | object [] => ['\x7b', '\x7d']
  | object (entry :: rest) =>
    '\x7b' :: prettyEntries (indent + 2) (entry :: rest) ++ newLine indent ++ ['\x7d']
  | null => ['n', 'u', 'l', 'l']
  | bool true => ['t', 'r', 'u', 'e']
  | bool false => ['f', 'a', 'l', 's', 'e']
  | number n => n.chars
  | string s => quoted s

def prettyItems (indent : Nat) : List Json → List Char
  | [] => []
  | [item] => newLine indent ++ prettyChars indent item
  | item :: rest => newLine indent ++ prettyChars indent item ++ ',' :: prettyItems indent rest

def prettyEntries (indent : Nat) : List (String × Json) → List Char
  | [] => []
  | [(key, item)] => newLine indent ++ quoted key ++ ':' :: ' ' :: prettyChars indent item
  | (key, item) :: rest =>
    newLine indent ++ quoted key ++ ':' :: ' ' :: prettyChars indent item ++
      ',' :: prettyEntries indent rest

end

def pretty (j : Json) : String := String.ofList (prettyChars 0 j)

end ShardSearch.Json
