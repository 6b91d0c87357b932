import Scaffold.Markup.Fault
import Scaffold.Number.Powers
import Scaffold.Text.Blank

/-!
# References in XML text

`resolve` replaces the five named entities and the character references of a text. It stops at
the first reference that is unknown, not terminated, or names no character.
-/

namespace Scaffold.Markup

/-- The characters that have a named entity. -/
def entity? (name : List Char) : Option Char :=
  if name = "lt".toList then some '<'
  else if name = "gt".toList then some '>'
  else if name = "amp".toList then some '&'
  else if name = "apos".toList then some '\''
  else if name = "quot".toList then some '"'
  else none

def digitIn? (base : Nat) (c : Char) : Option Nat :=
  let d :=
    if '0' ≤ c && c ≤ '9' then c.toNat - '0'.toNat
    else if 'a' ≤ c && c ≤ 'z' then c.toNat - 'a'.toNat + 10
    else if 'A' ≤ c && c ≤ 'Z' then c.toNat - 'A'.toNat + 10
    else base
  if d < base then some d else none

/-- Reads digits into a number of 32 bits; the first digit that is wrong or too much decides. -/
def codeOf (base : Nat) : Nat → List Char → Except CharacterFault Nat
  | n, [] => .ok n
  | n, c :: r =>
    match digitIn? base c with
    | none => .error .notDigit
    | some d =>
      let m := n * base + d
      if Number.pow2 32 ≤ m then .error .tooLarge else codeOf base m r

def character (digits : List Char) : Except CharacterFault Char := do
  let (base, digits) := match digits with
    | 'x' :: r => (16, r)
    | r => (10, r)
  let code ← match digits with
    | [] => .error .noDigits
    | '+' :: _ => .error .sign
    | '-' :: _ => .error .sign
    | ds => codeOf base 0 ds
  if code = 0 then .error .null
  else if code < 0xD800 ∨ (0xE000 ≤ code ∧ code < 0x110000) then .ok (Char.ofNat code)
  else .error (.notScalar code)

/-- The name of a reference, read up to its semicolon; another ampersand ends the search. -/
def referenceName? : List Char → Option (List Char × List Char)
  | [] => none
  | c :: r =>
    if c = ';' then some ([], r)
    else if c = '&' then none
    else (referenceName? r).map fun (n, r) => (c :: n, r)

/-- The character of the reference with this name, which starts at `position`. -/
def referenced (position : Nat) (name : List Char) : Except ReferenceFault Char :=
  match name with
  | '#' :: digits => (character digits).mapError .character
  | name =>
    match entity? name with
    | some c => .ok c
    | none =>
      .error (.unknownEntity position (position + Text.byteLength name) (String.ofList name))

/-- Replaces the references of a text that starts at `position` and ends at `limit`. -/
def resolveFrom (fuel position limit : Nat) (cs : List Char) :
    Except ReferenceFault (List Char) :=
  match fuel with
  | 0 => .ok []
  | fuel + 1 =>
    match cs with
    | [] => .ok []
    | c :: r =>
      if c = '&' then
        match referenceName? r with
        | none => .error (.unterminated position limit)
        | some (name, rest) => do
          let x ← referenced (position + 1) name
          let s ← resolveFrom fuel (position + Text.byteLength name + 2) limit rest
          .ok (x :: s)
      else do
        let s ← resolveFrom fuel (position + c.utf8Size) limit r
        .ok (c :: s)

/-- The text with all references replaced. -/
def resolve (cs : List Char) : Except ReferenceFault (List Char) :=
  resolveFrom (cs.length + 1) 0 (Text.byteLength cs) cs

end Scaffold.Markup
