import Scaffold.Text.Quoted

/-!
# Percent encoding

All bytes but those of letters, digits and the four characters `/.-_` are written as a percent sign
and two digits.
-/

namespace Scaffold.Text

/-- The bytes of a character in UTF-8. -/
def utf8Bytes (c : Char) : List Nat :=
  let n := c.toNat
  if n < 0x80 then [n]
  else if n < 0x800 then [0xC0 + n / 0x40, 0x80 + n % 0x40]
  else if n < 0x10000 then [0xE0 + n / 0x1000, 0x80 + n / 0x40 % 0x40, 0x80 + n % 0x40]
  else [0xF0 + n / 0x40000, 0x80 + n / 0x1000 % 0x40, 0x80 + n / 0x40 % 0x40, 0x80 + n % 0x40]

def percentByte (b : Nat) : List Char :=
  ['%', (Nat.digitChar (b / 16)).toUpper, (Nat.digitChar (b % 16)).toUpper]

def isPercentFree (c : Char) : Bool :=
  c.isAlphanum || c == '/' || c == '.' || c == '-' || c == '_'

def percentEncoded (s : String) : String :=
  String.ofList (s.toList.flatMap fun c =>
    if isPercentFree c then [c] else (utf8Bytes c).flatMap percentByte)

end Scaffold.Text
