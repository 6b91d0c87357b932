/-!
# Characters in their places

A YAML text is read as a list of spots: characters with the line and column they stand in. Line
ends are uniform there: a carriage return, a line feed, both together and a next-line character are
all written as a line feed, while the line and paragraph separators stay as they are.
-/

namespace Scaffold.Yaml

/-- A character and its place: how many characters, how many lines, and how many characters of the
same line stand before it. -/
structure Spot where
  char : Char
  index : Nat
  line : Nat
  column : Nat
deriving DecidableEq, Inhabited

/-- What is left of a text. -/
abbrev Rest := List Spot

/-- The characters that a YAML text may hold. -/
def isPrintable (c : Char) : Bool :=
  let n := c.toNat
  n == 9 || n == 0xA || n == 0xD || (0x20 ≤ n && n ≤ 0x7E) || n == 0x85 ||
    (0xA0 ≤ n && n ≤ 0xD7FF) || (0xE000 ≤ n && n ≤ 0xFFFD) || 0x10000 ≤ n

def byteOrderMark : Char := '\uFEFF'

/-- Characters that end a line, once line ends are uniform. -/
def isBreak (c : Char) : Bool := c == '\n' || c == '\u2028' || c == '\u2029'

def isGap (c : Char) : Bool := c == ' ' || c == '\t'

/-- Characters of names: ASCII letters and digits, `_` and `-`. -/
def isWord (c : Char) : Bool := c.isAlphanum || c == '_' || c == '-'

/-- Puts every character in its place, with uniform line ends. -/
def placeFrom (index line column : Nat) : List Char → Rest
  | [] => []
  | '\r' :: '\n' :: r => ⟨'\n', index, line, column⟩ :: placeFrom (index + 2) (line + 1) 0 r
  | c :: r =>
    if c = '\n' ∨ c = '\r' ∨ c = '\u0085' then
      ⟨'\n', index, line, column⟩ :: placeFrom (index + 1) (line + 1) 0 r
    else if isBreak c then ⟨c, index, line, column⟩ :: placeFrom (index + 1) (line + 1) 0 r
    else ⟨c, index, line, column⟩ :: placeFrom (index + 1) line (column + 1) r

/-- The spots of a whole text, unless it holds a character that no YAML text may hold. A byte order
mark in front is no part of the text. -/
def place? (cs : List Char) : Option Rest :=
  let cs := match cs with
    | c :: r => if c = byteOrderMark then r else c :: r
    | [] => []
  if cs.all isPrintable then some (placeFrom 0 0 0 cs) else none

namespace Rest

/-- Whether the text ends here, or a line, or a word. -/
def endsWord : Rest → Bool
  | [] => true
  | s :: _ => isGap s.char || isBreak s.char

def endsLine : Rest → Bool
  | [] => true
  | s :: _ => isBreak s.char

/-- The next character. -/
def front? (r : Rest) : Option Char := r.head?.map Spot.char

/-- The longest run at the front whose characters satisfy `p`, and what follows it. -/
def span (p : Char → Bool) : Rest → List Char × Rest
  | [] => ([], [])
  | s :: r =>
    if p s.char then
      let (a, b) := span p r
      (s.char :: a, b)
    else ([], s :: r)

def skip (p : Char → Bool) (r : Rest) : Rest := r.dropWhile fun s => p s.char

/-- Skips what stands before the end of the line. -/
def skipLine (r : Rest) : Rest := r.skip fun c => !isBreak c

/-- Skips gaps, and a comment if one follows. -/
def skipComment (r : Rest) : Rest :=
  let r := r.skip isGap
  if r.front? = some '#' then r.skipLine else r

/-- Whether three equal marks that stand alone begin a line here. -/
def startsWithMark (mark : Char) : Rest → Bool
  | a :: b :: c :: r =>
    a.column == 0 && a.char == mark && b.char == mark && c.char == mark && endsWord r
  | _ => false

/-- Whether a mark of the start or the end of a document begins here. -/
def atDocumentMark (r : Rest) : Bool := r.startsWithMark '-' || r.startsWithMark '.'

end Rest

end Scaffold.Yaml
