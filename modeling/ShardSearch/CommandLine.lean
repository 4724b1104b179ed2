import ShardSearch.Decimal.Reader

/-!
Arguments of the command line. `--export` asks for all results, `--pages` for a number of pages, one
by default; all other words are the query, and `--` ends the options, so that a query may begin with
a negated term.
-/

set_option autoImplicit false

namespace ShardSearch

structure CommandLine where
  exportAll : Bool := false
  pages : Nat := 1
  words : List String := []
deriving DecidableEq

namespace CommandLine

inductive Error where
  | unknownOption (word : String)
  | noPageCount (word : String)
deriving DecidableEq

def Error.message : Error → String
  | unknownOption word => "error: unexpected argument " ++ word
  | noPageCount word => "error: invalid value " ++ word ++ " for --pages"

def isOption (word : String) : Bool := word.toList.head? == some '-' && word.toList.length != 1

def pageCount? (word : String) : Option Nat :=
  let digits := word.toList
  if digits.isEmpty || !digits.all Char.isDigit then none else some (Decimal.digitsValue digits)

/-- The command line that a list of arguments adds to one. -/
def addAll (c : CommandLine) : List String → Except Error CommandLine
  | [] => .ok c
  | "--" :: rest => .ok { c with words := c.words ++ rest }
  | "--export" :: rest => addAll { c with exportAll := true } rest
  | "--pages" :: count :: rest =>
    match pageCount? count with
    | some n => addAll { c with pages := n } rest
    | none => .error (.noPageCount count)
  | word :: rest =>
    if isOption word then .error (.unknownOption word)
    else addAll { c with words := c.words ++ [word] } rest

def ofArguments (arguments : List String) : Except Error CommandLine := addAll {} arguments

def query (c : CommandLine) : String := " ".intercalate c.words

end CommandLine

end ShardSearch
