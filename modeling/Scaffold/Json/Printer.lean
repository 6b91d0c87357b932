import Scaffold.Json.Basic
import Scaffold.Text.Quoted

/-!
# Compact JSON text

`Json.chars` writes a value without any blank between its parts. Characters below U+0020, the
quote and the backslash are escaped, all others stand as they are.
-/

namespace Scaffold

/-- How numbers are written in JSON text. -/
def JsonNumber.text : JsonNumber → String
  | .int i => toString i
  | .real x => Number.Layout.signed.write "null" x

namespace Json

/-- The escape of a character below U+0020. -/
def controlEscape (c : Char) : List Char :=
  if c = '\x08' then ['\\', 'b']
  else if c = '\x0c' then ['\\', 'f']
  else if c = '\n' then ['\\', 'n']
  else if c = '\r' then ['\\', 'r']
  else if c = '\t' then ['\\', 't']
  else
    let digits := Text.hexDigits c.toNat
    ['\\', 'u'] ++ List.replicate (4 - digits.length) '0' ++ digits

def escapeChar (c : Char) : List Char :=
  if c = '"' then ['\\', '"']
  else if c = '\\' then ['\\', '\\']
  else if c.toNat < 0x20 then controlEscape c
  else [c]

def quote (s : String) : List Char := '"' :: (s.toList.flatMap escapeChar ++ ['"'])

mutual

def chars : Json → List Char
  | .null => "null".toList
  | .bool true => "true".toList
  | .bool false => "false".toList
  | .number n => n.text.toList
  | .string s => quote s
  | .array items => '[' :: (itemChars items ++ [']'])
  | .object members => '\x7b' :: (memberChars members ++ ['\x7d'])

def itemChars : List Json → List Char
  | [] => []
  | [v] => chars v
  | v :: r => chars v ++ ',' :: itemChars r

def memberChars : List (String × Json) → List Char
  | [] => []
  | [(k, v)] => quote k ++ ':' :: chars v
  | (k, v) :: r => quote k ++ ':' :: (chars v ++ ',' :: memberChars r)

end

/-- The compact text of a value. -/
def compact (v : Json) : String := String.ofList v.chars

end Json

end Scaffold
