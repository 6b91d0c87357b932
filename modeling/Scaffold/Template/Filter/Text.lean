import Scaffold.Template.Argument
import Scaffold.Text.Case
import Scaffold.Text.Pieces

/-!
# Filters of texts

The filters whose input is taken as a text, whatever it is.
-/

namespace Scaffold.Template.Filter

open Text

def ofChars (cs : List Char) : Value := .ofText (String.ofList cs)

/-- A text in another text's place, character by character. -/
def onText (f : String → String) : Taking Value := do
  let s ← Taking.asked Form.text
  Taking.finish
  pure (.ofText (f s))

def safe : Taking Value := do
  let s ← Taking.asked Form.text
  Taking.finish
  pure (.text s true)

/-- The characters of ASCII that are neither letters, digits, blanks nor controls. -/
def isPunctuation (c : Char) : Bool :=
  let n := c.toNat
  (0x21 ≤ n && n ≤ 0x2F) || (0x3A ≤ n && n ≤ 0x40) || (0x5B ≤ n && n ≤ 0x60) ||
    (0x7B ≤ n && n ≤ 0x7E)

/-- The first letter of each word in upper case and the others in lower case. -/
def titled (atStart : Bool) : List Char → List Char
  | [] => []
  | c :: r =>
    if isPunctuation c || isBlank c then c :: titled true r
    else (if atStart then upperChar c else lowerChar c) ++ titled false r

def title (s : String) : String := String.ofList (titled true s.toList)

def capitalize (s : String) : String :=
  match s.toList with
  | [] => ""
  | c :: r => String.ofList (upperChar c) ++ lower (String.ofList r)

def replace : Taking Value := do
  let s ← Taking.asked Form.text
  let old ← Taking.asked Form.text
  let new ← Taking.asked Form.text
  Taking.finish
  pure (ofChars (replaceAll old.toList new.toList s.toList))

def trimmed : Taking Value := do
  let s ← Taking.asked Form.text
  let chars ← Taking.optional Form.text
  Taking.finish
  let drops (c : Char) : Bool := match chars with
    | some cs => cs.toList.contains c
    | none => isBlank c
  pure (ofChars (stripWhile drops s.toList))

/-- The pieces of a text; the last argument bounds the number of splits. -/
def split : Taking Value := do
  let s ← Taking.asked Form.text
  let sep ← Taking.optional Form.text
  let splits ← Taking.optional Form.int64
  Taking.finish
  let cs := s.toList
  let limit := match splits with
    | some n => if 0 ≤ n then n.toNat + 1 else cs.length + 2
    | none => cs.length + 2
  let parts := match sep with
    | some sep => piecesUpTo limit sep.toList cs
    | none => wordsUpTo limit cs
  pure (.list (parts.map ofChars))

def splitLines : Taking Value := do
  let s ← Taking.asked Form.text
  Taking.finish
  pure (.list ((lines s.toList).map ofChars))

/-- A text without the line end at its end. -/
def dropLineEnd (cs : List Char) : List Char := withoutLastLineEnd cs

/-- Lines joined, each ended and indented; the flags say whether the first line and empty ones are. -/
def indented (width : Nat) (first blanks : Bool) (cs : List Char) : List Char :=
  let margin := List.replicate width ' '
  let indent (l : List Char) : List Char :=
    if l.isEmpty && !blanks then [] else margin ++ l
  let ls := splitAll '\n' (dropLineEnd cs)
  let shown := match ls with
    | [] => []
    | l :: r => (if first then indent l else l) :: r.map indent
  dropLineEnd (shown.flatMap fun l => l ++ ['\n'])

def indent : Taking Value := do
  let s ← Taking.asked Form.text
  let width ← Taking.asked Form.count
  let first ← Taking.optional Form.bool
  let blanks ← Taking.optional Form.bool
  Taking.finish
  pure (ofChars (indented width (first.getD false) (blanks.getD false) s.toList))

end Scaffold.Template.Filter
