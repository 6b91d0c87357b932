import Scaffold.Text.CaseTable

/-!
# Letter case

Full case mappings of characters and of texts. In a text, a capital sigma becomes a final sigma
where a cased letter stands before it and none after it, case-ignorable characters not counted.
-/

namespace Scaffold.Text

def isLowercase (c : Char) : Bool := lowercaseSet.contains c

def isUppercase (c : Char) : Bool := uppercaseSet.contains c

def CaseRun.move? (n : Nat) (r : CaseRun) : Option Nat :=
  if r.first ≤ n ∧ n ≤ r.last ∧ (n - r.first) % r.step = 0 then some (n + r.shift).toNat else none

def mapCase (several : List (Nat × List Nat)) (runs : List CaseRun) (c : Char) : List Char :=
  match several.lookup c.toNat with
  | some cs => cs.map Char.ofNat
  | none => match runs.findSome? (CaseRun.move? c.toNat) with
    | some n => [Char.ofNat n]
    | none => [c]

/-- The characters that the upper case of `c` consists of. -/
def upperChar (c : Char) : List Char :=
  if c.toNat < 128 then [c.toUpper] else mapCase upperSeveral upperRuns c

/-- The characters that the lower case of `c` consists of, without regard to its neighbours. -/
def lowerChar (c : Char) : List Char :=
  if c.toNat < 128 then [c.toLower] else mapCase lowerSeveral lowerRuns c

/-- Whether the nearest character that is not case-ignorable is a cased letter. -/
def meetsCased (cs : List Char) : Bool :=
  match cs.dropWhile caseIgnorableSet.contains with
  | c :: _ => casedSet.contains c
  | [] => false

/-- The lower case of what follows `before`, whose characters stand nearest first. -/
def lowerFrom (before : List Char) : List Char → List Char
  | [] => []
  | c :: r =>
    (if c.toNat = 0x3A3 then
      [if meetsCased before && !meetsCased r then Char.ofNat 0x3C2 else Char.ofNat 0x3C3]
    else lowerChar c) ++ lowerFrom (c :: before) r

def lower (s : String) : String := String.ofList (lowerFrom [] s.toList)

def upper (s : String) : String := String.ofList (s.toList.flatMap upperChar)

end Scaffold.Text
