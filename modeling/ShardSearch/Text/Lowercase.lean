import ShardSearch.Text.Case

/-!
Lowercasing of text, the full Unicode mapping without a locale. Each character is mapped on its
own, with two exceptions: capital I with a dot becomes two characters, and capital sigma at the
end of a word takes its final form.
-/

set_option autoImplicit false

namespace ShardSearch.Text

/-- The nearest character that is not case-ignorable exists and is cased. -/
def nextIsCased (cs : List Char) : Bool :=
  match cs.dropWhile isCaseIgnorable with
  | c :: _ => isCased c
  | [] => false

/-- The lowercase form of `c` between the characters before it, nearest first, and those
after it. -/
def lowerAt (before : List Char) (c : Char) (after : List Char) : List Char :=
  if c = 'Σ' then [if nextIsCased before && !nextIsCased after then 'ς' else 'σ']
  else if c = 'İ' then ['i', '\u0307']
  else [lowerChar c]

def lowerFrom (before : List Char) : List Char → List Char
  | [] => []
  | c :: after => lowerAt before c after ++ lowerFrom (c :: before) after

def lowerChars (cs : List Char) : List Char := lowerFrom [] cs

def lowercase (s : String) : String := String.ofList (lowerChars s.toList)

@[simp] theorem toList_lowercase (s : String) : (lowercase s).toList = lowerChars s.toList :=
  String.toList_ofList

theorem lowerAt_ne_nil (before : List Char) (c : Char) (after : List Char) :
    lowerAt before c after ≠ [] := by
  unfold lowerAt
  split
  · simp
  · split <;> simp

end ShardSearch.Text
