/-!
Percent-encoding of a path segment. Every UTF-8 byte of the text is written as `%XX`, except the
unreserved ones: ASCII letters, digits, `-`, `_`, `.` and `~`.
-/

set_option autoImplicit false

namespace ShardSearch.Text.Percent

def isUnreserved (c : Char) : Bool :=
  c.isAlphanum || c == '-' || c == '_' || c == '.' || c == '~'

def hexDigit (n : Nat) : Char := Nat.digitChar n |>.toUpper

def encodeByte (b : UInt8) : List Char :=
  let c := Char.ofNat b.toNat
  if b.toNat < 0x80 && isUnreserved c then [c]
  else ['%', hexDigit (b.toNat / 16), hexDigit (b.toNat % 16)]

def encodeChars (cs : List Char) : List Char :=
  (cs.flatMap String.utf8EncodeChar).flatMap encodeByte

def encode (s : String) : String := String.ofList (encodeChars s.toList)

@[simp] theorem toList_encode (s : String) : (encode s).toList = encodeChars s.toList :=
  String.toList_ofList

end ShardSearch.Text.Percent
