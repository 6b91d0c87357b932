/-!
# Blank characters

The Unicode property White_Space (`isBlank`) and trimming by it, on lists of characters and on
strings. Trimming one end twice changes nothing more (`dropEndWhile_idem`).
-/

namespace Scaffold.Text

/-- The characters with the Unicode property White_Space. -/
def isBlank (c : Char) : Bool :=
  let n := c.toNat
  (9 ≤ n && n ≤ 13) || n == 0x20 || n == 0x85 || n == 0xA0 || n == 0x1680 ||
    (0x2000 ≤ n && n ≤ 0x200A) || n == 0x2028 || n == 0x2029 || n == 0x202F || n == 0x205F ||
    n == 0x3000

/-- Drops the longest run at the end whose characters satisfy `p`. -/
def dropEndWhile (p : Char → Bool) (cs : List Char) : List Char := (cs.reverse.dropWhile p).reverse

/-- Drops the characters that satisfy `p` at both ends. -/
def stripWhile (p : Char → Bool) (cs : List Char) : List Char := dropEndWhile p (cs.dropWhile p)

def trimStart (s : String) : String := String.ofList (s.toList.dropWhile isBlank)

def trim (s : String) : String := String.ofList (stripWhile isBlank s.toList)

/-- The trimmed text, absent when nothing is left. -/
def trimmed? (s : String) : Option String :=
  let t := trim s
  if t = "" then none else some t

def isBlankText (s : String) : Bool := s.toList.all isBlank

/-- The first piece up to `sep` and what follows it. -/
def splitOnce? (sep : Char) : List Char → Option (List Char × List Char)
  | [] => none
  | c :: r => if c = sep then some ([], r) else (splitOnce? sep r).map fun (a, b) => (c :: a, b)

/-- All pieces between the occurrences of `sep`; never empty. -/
def splitAll (sep : Char) : List Char → List (List Char)
  | [] => [[]]
  | c :: r =>
    if c = sep then [] :: splitAll sep r
    else match splitAll sep r with
      | [] => [[c]]
      | p :: ps => (c :: p) :: ps

/-- What follows `lead` in a text that starts with it. -/
def dropLead? : List Char → List Char → Option (List Char)
  | [], cs => some cs
  | _ :: _, [] => none
  | l :: ls, c :: cs => if l = c then dropLead? ls cs else none

/-- Number of bytes of the UTF-8 form. -/
def byteLength : List Char → Nat
  | [] => 0
  | c :: r => c.utf8Size + byteLength r

/-- ASCII letters in lower case, all else unchanged. -/
def lowerAscii (s : String) : String := s.map Char.toLower

private theorem dropWhile_dropWhile (p : Char → Bool) (cs : List Char) :
    (cs.dropWhile p).dropWhile p = cs.dropWhile p := by
  induction cs with
  | nil => rfl
  | cons c r ih =>
    by_cases h : p c
    · simp [h, ih]
    · simp [h]

theorem dropEndWhile_idem (p : Char → Bool) (cs : List Char) :
    dropEndWhile p (dropEndWhile p cs) = dropEndWhile p cs := by
  simp [dropEndWhile, dropWhile_dropWhile]

end Scaffold.Text
