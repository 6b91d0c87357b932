import Scaffold.Json.Numeral

/-!
# JSON text as far as it can be read

`Draft.ofChars` reads a text into a tree that records where the text stops being JSON: a value
that is not there is `broken`, and an array or object whose end is not reached is not closed. A
reader with expectations walks the tree in the order of the text, and so reports the fault that
comes first, be it one of form or one of content. `Json.ofDraft?` takes only sound trees that are
nested less than `depthLimit` levels deep.
-/

namespace Scaffold

/-- What can be read of a JSON text. -/
inductive Draft
  | null
  | bool (b : Bool)
  /-- A number, absent if it is too large. -/
  | number (n : Option JsonNumber)
  /-- A string, absent if it holds half of a surrogate pair. -/
  | string (s : Option String)
  | array (items : List Draft) (closed : Bool)
  | object (members : List (Option String × Draft)) (closed : Bool)
  | broken
deriving Inhabited

namespace Draft

/-- The rest of a text that could be read up to there. -/
abbrev Rest := Option (List Char)

def isSpace (c : Char) : Bool := c == ' ' || c == '\n' || c == '\t' || c == '\r'

def skip (cs : List Char) : List Char := cs.dropWhile isSpace

def hexValue? (c : Char) : Option Nat :=
  if '0' ≤ c && c ≤ '9' then some (c.toNat - '0'.toNat)
  else if 'a' ≤ c && c ≤ 'f' then some (c.toNat - 'a'.toNat + 10)
  else if 'A' ≤ c && c ≤ 'F' then some (c.toNat - 'A'.toNat + 10)
  else none

def hex4? : List Char → Option (Nat × List Char)
  | a :: b :: c :: d :: r => do
    let a ← hexValue? a
    let b ← hexValue? b
    let c ← hexValue? c
    let d ← hexValue? d
    some (((a * 16 + b) * 16 + c) * 16 + d, r)
  | _ => none

def simpleEscape? (c : Char) : Option Char :=
  if c = '"' then some '"'
  else if c = '\\' then some '\\'
  else if c = '/' then some '/'
  else if c = 'b' then some '\x08'
  else if c = 'f' then some '\x0c'
  else if c = 'n' then some '\n'
  else if c = 'r' then some '\r'
  else if c = 't' then some '\t'
  else none

/-- The content of a string, read up to its closing quote. A half of a surrogate pair makes the
content absent, and does not end the reading. -/
def content (fuel : Nat) (cs : List Char) : Option (Option (List Char) × List Char) :=
  match fuel with
  | 0 => none
  | fuel + 1 =>
    match cs with
    | [] => none
    | '"' :: r => some (some [], r)
    | '\\' :: 'u' :: r => do
      let (hi, r) ← hex4? r
      if 0xD800 ≤ hi && hi < 0xDC00 then
        match r with
        | '\\' :: 'u' :: r' =>
          let (lo, r') ← hex4? r'
          if 0xDC00 ≤ lo && lo < 0xE000 then
            let (s, r') ← content fuel r'
            let c := Char.ofNat (0x10000 + (hi - 0xD800) * 0x400 + (lo - 0xDC00))
            some (s.map (c :: ·), r')
          else
            let (_, r) ← content fuel r
            some (none, r)
        | _ =>
          let (_, r) ← content fuel r
          some (none, r)
      else
        let (s, r) ← content fuel r
        if 0xDC00 ≤ hi && hi < 0xE000 then some (none, r)
        else some (s.map (Char.ofNat hi :: ·), r)
    | '\\' :: c :: r => do
      let c ← simpleEscape? c
      let (s, r) ← content fuel r
      some (s.map (c :: ·), r)
    | c :: r =>
      if c.toNat < 0x20 || c == '\\' then none
      else do
        let (s, r) ← content fuel r
        some (s.map (c :: ·), r)

def quotedText (cs : List Char) : Option (Option String × List Char) :=
  (content (cs.length + 1) cs).map fun (s, r) => (s.map String.ofList, r)

/-- Digits, of which there must be one, and the rest. -/
def digits? (cs : List Char) : Option (List Char × List Char) :=
  let ds := cs.takeWhile Char.isDigit
  if ds.isEmpty then none else some (ds, cs.dropWhile Char.isDigit)

/-- The digits after a point, if there is one, and the rest. -/
def fraction? : List Char → Option (List Char × List Char)
  | '.' :: r => digits? r
  | cs => some ([], cs)

/-- Whether there is a minus in front, and what follows the sign. -/
def sign : List Char → Bool × List Char
  | '-' :: r => (true, r)
  | '+' :: r => (false, r)
  | cs => (false, cs)

/-- The exponent, if there is one, and the rest. -/
def exponent? : List Char → Option (Option (Bool × List Char) × List Char)
  | [] => some (none, [])
  | c :: r =>
    if c = 'e' ∨ c = 'E' then
      (digits? (sign r).2).map fun (ds, rest) => (some ((sign r).1, ds), rest)
    else some (none, c :: r)

/-- A numeral after its sign, and the rest. -/
def numeral? (negative : Bool) (cs : List Char) : Option (Numeral × List Char) := do
  let (whole, rest) ← digits? cs
  if whole.head? = some '0' ∧ 1 < whole.length then none
  let (fraction, rest) ← fraction? rest
  let (exponent, rest) ← exponent? rest
  some (⟨negative, whole, fraction, exponent⟩, rest)

def numeral (negative : Bool) (cs : List Char) : Draft × Rest :=
  match numeral? negative cs with
  | some (n, r) => (.number n.value?, some r)
  | none => (.broken, none)

mutual

/-- Reads the value that starts at the first character. -/
def value (fuel : Nat) (cs : List Char) : Draft × Rest :=
  match fuel with
  | 0 => (.broken, none)
  | fuel + 1 =>
    match cs with
    | 'n' :: 'u' :: 'l' :: 'l' :: r => (.null, some r)
    | 't' :: 'r' :: 'u' :: 'e' :: r => (.bool true, some r)
    | 'f' :: 'a' :: 'l' :: 's' :: 'e' :: r => (.bool false, some r)
    | '-' :: r => numeral true r
    | '"' :: r =>
      match quotedText r with
      | some (s, r) => (.string s, some r)
      | none => (.broken, none)
    | '[' :: r =>
      match skip r with
      | ']' :: r => (.array [] true, some r)
      | r =>
        let (vs, rest) := items fuel r
        (.array vs rest.isSome, rest)
    | '\x7b' :: r =>
      match skip r with
      | '\x7d' :: r => (.object [] true, some r)
      | r =>
        let (ms, rest) := members fuel r
        (.object ms rest.isSome, rest)
    | cs => numeral false cs

/-- Reads values up to the bracket that closes their array. -/
def items (fuel : Nat) (cs : List Char) : List Draft × Rest :=
  match fuel with
  | 0 => ([], none)
  | fuel + 1 =>
    match value fuel cs with
    | (v, none) => ([v], none)
    | (v, some r) =>
      match skip r with
      | ']' :: r => ([v], some r)
      | ',' :: r =>
        match skip r with
        | ']' :: _ => ([v], none)
        | r =>
          let (vs, rest) := items fuel r
          (v :: vs, rest)
      | _ => ([v], none)

/-- Reads members up to the brace that closes their object. -/
def members (fuel : Nat) (cs : List Char) : List (Option String × Draft) × Rest :=
  match fuel with
  | 0 => ([], none)
  | fuel + 1 =>
    match cs with
    | '"' :: r =>
      match quotedText r with
      | none => ([], none)
      | some (k, r) =>
        match skip r with
        | ':' :: r =>
          match value fuel (skip r) with
          | (v, none) => ([(k, v)], none)
          | (v, some r) =>
            match skip r with
            | '\x7d' :: r => ([(k, v)], some r)
            | ',' :: r =>
              let (ms, rest) := members fuel (skip r)
              ((k, v) :: ms, rest)
            | _ => ([(k, v)], none)
        | _ => ([(k, .broken)], none)
    | _ => ([], none)

end

/-- Reads a whole text; the flag says whether nothing but blanks follows the value. -/
def ofChars (cs : List Char) : Draft × Bool :=
  match value (cs.length + 1) (skip cs) with
  | (v, some r) => (v, (skip r).isEmpty)
  | (v, none) => (v, false)

mutual

/-- Whether the value could be read to its end. -/
def isWhole : Draft → Bool
  | .array items closed => closed && areWhole items
  | .object members closed => closed && membersAreWhole members
  | .broken => false
  | _ => true

def areWhole : List Draft → Bool
  | [] => true
  | v :: r => isWhole v && areWhole r

def membersAreWhole : List (Option String × Draft) → Bool
  | [] => true
  | (_, v) :: r => isWhole v && membersAreWhole r

end

/-- Arrays and objects are nested less than this many levels deep. -/
def depthLimit : Nat := 128

end Draft

namespace Json

mutual

/-- The value of a sound draft; objects have their keys in increasing order. -/
def ofDraft? (depth : Nat) : Draft → Option Json
  | .null => some .null
  | .bool b => some (.bool b)
  | .number n => n.map .number
  | .string s => s.map .string
  | .array items closed =>
    if depth ≤ 1 ∨ !closed then none else (ofDrafts? (depth - 1) items).map .array
  | .object members closed =>
    if depth ≤ 1 ∨ !closed then none
    else (ofDraftMembers? (depth - 1) members).map fun ms => .object (sortMembers ms)
  | .broken => none

def ofDrafts? (depth : Nat) : List Draft → Option (List Json)
  | [] => some []
  | v :: r => do
    let v ← ofDraft? depth v
    let r ← ofDrafts? depth r
    some (v :: r)

def ofDraftMembers? (depth : Nat) : List (Option String × Draft) → Option (List (String × Json))
  | [] => some []
  | (k, v) :: r => do
    let k ← k
    let v ← ofDraft? depth v
    let r ← ofDraftMembers? depth r
    some ((k, v) :: r)

end

/-- The value of a JSON text. -/
def read? (text : String) : Option Json :=
  match Draft.ofChars text.toList with
  | (d, true) => ofDraft? Draft.depthLimit d
  | (_, false) => none

end Json

end Scaffold
