import ShardSearch.Decimal.Shortest

/-!
Plain decimal text. A number is written with the digits of `shortest`, always positionally: no
exponent, however large or small it is, and no fraction where it is whole. The index lists numbers
under this text, so it is also the key of a numeric look-up.
-/

set_option autoImplicit false

namespace ShardSearch.Decimal

def dropTrailingZeros (digits : List Char) : List Char :=
  (digits.reverse.dropWhile (· == '0')).reverse

/-- The digits of a numeral without trailing zeros, and how many of its places stand before the
decimal point. -/
def Numeral.spread (n : Numeral) : List Char × Int :=
  let digits := Nat.toDigits 10 n.digits
  (dropTrailingZeros digits, digits.length + n.place)

/-- The digits on the two sides of a decimal point that stands after the first `point` of them,
with zeros where they do not reach it. -/
def positional (digits : List Char) (point : Int) : List Char × List Char :=
  if point ≤ 0 then (['0'], List.replicate (-point).toNat '0' ++ digits)
  else
    let whole := point.toNat
    (digits.take whole ++ List.replicate (whole - digits.length) '0', digits.drop whole)

namespace Binary64

def withSign (negative : Bool) (text : List Char) : List Char :=
  if negative then '-' :: text else text

def plainChars (x : Binary64) : List Char :=
  if x.isNaN then ['N', 'a', 'N']
  else withSign x.negative <|
    if !x.isFinite then ['i', 'n', 'f']
    else if x.isZero then ['0']
    else
      let (digits, point) := (shortest .up x.magnitude).spread
      match positional digits point with
      | (whole, []) => whole
      | (whole, fraction) => whole ++ '.' :: fraction

def plain (x : Binary64) : String := String.ofList x.plainChars

@[simp] theorem toList_plain (x : Binary64) : x.plain.toList = x.plainChars :=
  String.toList_ofList

end Binary64

end ShardSearch.Decimal
