import Scaffold.Text.Blank

/-!
# Paths

A path is a text; what it means are its components, which leave out repeated slashes and every
single dot but a leading one. Two paths are the same if their components are. Joining works on
the text and normalizes nothing.
-/

namespace Scaffold

structure Path where
  text : String
deriving DecidableEq, Inhabited

inductive PathComponent
  | root
  | here
  | up
  | name (s : String)
deriving DecidableEq, Inhabited

namespace Path

def pieces (p : Path) : List (List Char) := Text.splitAll '/' p.text.toList

/-- The pieces of a path that are not empty. -/
def names (p : Path) : List (List Char) := p.pieces.filter (· != [])

def isAbsolute (p : Path) : Bool := p.text.toList.head? == some '/'

/-- The component of a piece that is not the first one of a relative path. -/
def component? (piece : List Char) : Option PathComponent :=
  if piece = [] ∨ piece = ['.'] then none
  else if piece = ['.', '.'] then some .up
  else some (.name (String.ofList piece))

def components (p : Path) : List PathComponent :=
  if p.isAbsolute then .root :: p.pieces.filterMap component?
  else match p.pieces with
    | ['.'] :: r => .here :: r.filterMap component?
    | ps => ps.filterMap component?

/-- Equality of paths by components. -/
def same (p q : Path) : Bool := p.components == q.components

/-- Appends a path, with one slash between if there is none; an absolute path replaces. -/
def join (p q : Path) : Path :=
  if q.isAbsolute then q
  else if p.text = "" ∨ p.text.toList.getLast? = some '/' then ⟨p.text ++ q.text⟩
  else ⟨p.text ++ "/" ++ q.text⟩

def joinName (p : Path) (name : String) : Path := p.join ⟨name⟩

/-- The last component, if it is a name. -/
def fileName? (p : Path) : Option String :=
  match p.components.getLast? with
  | some (.name s) => some s
  | _ => none

/-- Splits a name at its last dot, unless the name begins with that dot. -/
def splitName (s : String) : String × Option String :=
  match Text.splitOnce? '.' s.toList.reverse with
  | some (_, []) => (s, none)
  | some (e, b) => (String.ofList b.reverse, some (String.ofList e.reverse))
  | none => (s, none)

def extension? (p : Path) : Option String := p.fileName?.bind fun s => (splitName s).2

/-- The extension without regard to the case of its ASCII letters. -/
def hasExtension (p : Path) (lowered : String) : Bool :=
  match p.extension? with
  | some e => Text.lowerAscii e == lowered
  | none => false

/-- Pieces from the end on, after those that are no component. -/
def dropNone (first : Bool) : List (List Char) → List (List Char)
  | [] => []
  | piece :: r =>
    if (component? piece).isSome then piece :: r
    else if first && r.isEmpty && piece == ['.'] then [piece]
    else dropNone first r

/-- The text of pieces that are listed from the end. -/
def ofReversed (ps : List (List Char)) : String :=
  "/".intercalate (ps.reverse.map String.ofList)

/-- The path without its last component; a root and an empty path have none. -/
def parent? (p : Path) : Option Path :=
  if p.isAbsolute then
    match dropNone false p.pieces.reverse with
    | [] => none
    | _ :: r =>
      match dropNone false r with
      | [] => some ⟨"/"⟩
      | ps => some ⟨ofReversed ps⟩
  else
    match dropNone true p.pieces.reverse with
    | [] => none
    | _ :: r => some ⟨ofReversed (dropNone true r)⟩

/-- The path and the paths that it lies in, innermost first. -/
def ancestorsFrom (fuel : Nat) (p : Path) : List Path :=
  match fuel with
  | 0 => [p]
  | fuel + 1 =>
    match p.parent? with
    | some q => p :: ancestorsFrom fuel q
    | none => [p]

def ancestors (p : Path) : List Path := ancestorsFrom (p.text.length + 1) p

end Path

/-- A name that is a single component of a relative path and stays where it is joined. -/
def isPlainSegment (s : String) : Bool :=
  s != "" && s != "." && s != ".." && !s.toList.any fun c => c == '/' || c == '\\' || c == '\x00'

end Scaffold
