import ShardSearch.Text.Lowercase

/-!
Index terms of free text. The terms of a text are found in its lowercase form: each run of
lowercase ASCII letters and digits, at least two characters long, that stands between word
boundaries; stop words are dropped, and one trailing `s` is removed from longer words. The index
was built by the same rules, so a term is looked up under the exact spelling that the index uses.
-/

set_option autoImplicit false

namespace ShardSearch.Text

/-- ASCII word characters; a boundary lies where exactly one of two neighbours is one. -/
def isWordChar (c : Char) : Bool := c.isAlphanum || c == '_'

def isTermChar (c : Char) : Bool := c.isLower || c.isDigit

def startsWithWordChar : List Char → Bool
  | c :: _ => isWordChar c
  | [] => false

/-- The run of term characters at the head of a text that begins at a word boundary. -/
def runAtBoundary? (cs : List Char) : Option (List Char) :=
  let run := cs.takeWhile isTermChar
  if 2 ≤ run.length && !startsWithWordChar (cs.dropWhile isTermChar) then some run else none

/-- The runs of a text whose previous character is a word character iff `inWord`. -/
def runsFrom (inWord : Bool) : List Char → List (List Char)
  | [] => []
  | c :: rest =>
    let later := runsFrom (isWordChar c) rest
    if inWord then later
    else match runAtBoundary? (c :: rest) with
      | some run => run :: later
      | none => later

def wordRuns (s : String) : List String := (runsFrom false s.toList).map String.ofList

def stopWords : List String :=
  ["the", "and", "for", "with", "you", "are", "server", "our", "from", "a", "is", "in", "it",
    "us", "to", "of", "we"]

def isStopWord (word : String) : Bool := stopWords.contains word

def stemChars (word : List Char) : List Char :=
  if 3 < word.length && word.getLast? == some 's' then word.dropLast else word

def stem (word : String) : String := String.ofList (stemChars word.toList)

def tokenize (s : String) : List String :=
  ((wordRuns (lowercase s)).filter fun word ↦ !isStopWord word).map stem

theorem isWordChar_of_isTermChar {c : Char} (h : isTermChar c = true) : isWordChar c = true := by
  have hletter : c.isAlphanum = (c.isUpper || c.isLower || c.isDigit) := rfl
  simp only [isTermChar, isWordChar, hletter, Bool.or_eq_true] at *
  rcases h with h | h
  · exact Or.inl (Or.inl (Or.inr h))
  · exact Or.inl (Or.inr h)

@[simp] theorem toList_stem (word : String) : (stem word).toList = stemChars word.toList :=
  String.toList_ofList

end ShardSearch.Text
