import Scaffold.Text.Blank

/-!
# Texts in pieces

Splitting at a text, at blanks and at line ends. The empty text stands before, between and behind
all characters.
-/

namespace Scaffold.Text

/-- What comes before and behind the first occurrence of a text that is not empty. -/
def splitAtText? (sep : List Char) : List Char → Option (List Char × List Char)
  | [] => none
  | c :: r =>
    match dropLead? sep (c :: r) with
    | some after => some ([], after)
    | none => (splitAtText? sep r).map fun (b, a) => (c :: b, a)

/-- At most so many pieces between the occurrences of a text that is not empty. -/
def piecesAt (sep : List Char) : Nat → List Char → List (List Char)
  | 0, _ => []
  | 1, cs => [cs]
  | n + 2, cs =>
    match splitAtText? sep cs with
    | some (b, a) => b :: piecesAt sep (n + 1) a
    | none => [cs]

/-- At most so many pieces of one character each, the last of which holds the rest. -/
def singles : Nat → List Char → List (List Char)
  | 0, _ => []
  | 1, cs => [cs]
  | _ + 2, [] => [[]]
  | n + 2, c :: r => [c] :: singles (n + 1) r

/-- At most so many pieces between the occurrences of a text. -/
def piecesUpTo (limit : Nat) (sep cs : List Char) : List (List Char) :=
  match sep, limit with
  | [], n + 2 => [] :: singles (n + 1) cs
  | sep, n => piecesAt sep n cs

/-- All pieces between the occurrences of a text. -/
def pieces (sep cs : List Char) : List (List Char) := piecesUpTo (cs.length + 2) sep cs

/-- Puts another text in the place of each occurrence of a text. -/
def replaceAll (sep new cs : List Char) : List Char := List.intercalate new (pieces sep cs)

/-- At most so many words, the last of which holds the rest. -/
def wordsUpTo : Nat → List Char → List (List Char)
  | 0, _ => []
  | n + 1, cs =>
    match cs.dropWhile isBlank with
    | [] => []
    | c :: r =>
      if n = 0 then [c :: r]
      else
        let word := (c :: r).takeWhile fun d => !isBlank d
        word :: wordsUpTo n ((c :: r).drop word.length)

def words (cs : List Char) : List (List Char) := wordsUpTo (cs.length + 1) cs

/-- The lines of a text, without the marks that end them. -/
def lines (cs : List Char) : List (List Char) :=
  let ls := splitAll '\n' cs
  let ls := if ls.getLast? = some [] then ls.dropLast else ls
  ls.map fun l => if l.getLast? = some '\r' then l.dropLast else l

end Scaffold.Text
