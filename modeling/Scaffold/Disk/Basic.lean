import Scaffold.Entries
import Scaffold.Path

/-!
# The state of a file system

A disk is a tree of directories and files together with the directory in which relative paths start.
`Disk.locate` follows a path from component to component: every component but the last must be a
directory, and `..` is the directory that a directory lies in.

`Disk` has regular files only. On a `Disk true` files may also be symbolic links, which are followed
on the way of a path and at its end. Permissions and special files (devices, pipes, sockets) are left
out, and names are texts: those that are not UTF-8 do not occur.
-/

namespace Scaffold

/-- What a file holds: a text, or bytes that are no text. A symbolic link holds the path that it
stands for; `linked` says whether there may be links. -/
inductive Content (linked : Bool := false)
  | text (s : String)
  | binary (bytes : List UInt8)
  | link (allowed : linked = true) (target : Path)
deriving DecidableEq, Inhabited

/-- An entry of a directory. -/
inductive DiskEntry (linked : Bool := false)
  | file (content : Content linked)
  | directory (entries : List (String × DiskEntry linked))
deriving Inhabited

variable {linked : Bool}

namespace Content

/-- What a file of these bytes holds. -/
def ofBytes (bytes : List UInt8) : Content linked :=
  match String.fromUTF8? ⟨bytes.toArray⟩ with
  | some s => .text s
  | none => .binary bytes

/-- The path that a link stands for. -/
def target? : Content linked → Option Path
  | link _ p => some p
  | _ => none

end Content

/-- Why an operation on files fails. -/
inductive IoFault
  | notFound
  | exists_
  | notDirectory
  | isDirectory
  | nameTooLong
  | tooManyLinks
  | invalidText
  | nullByte
  | other (message : String)
deriving DecidableEq, Inhabited

def IoFault.message : IoFault → String
  | .notFound => "No such file or directory (os error 2)"
  | .exists_ => "File exists (os error 17)"
  | .notDirectory => "Not a directory (os error 20)"
  | .isDirectory => "Is a directory (os error 21)"
  | .nameTooLong => "File name too long (os error 36)"
  | .tooManyLinks => "Too many levels of symbolic links (os error 40)"
  | .invalidText => "stream did not contain valid UTF-8"
  | .nullByte => "file name contained an unexpected NUL byte"
  | .other m => m

/-- The names that lead from the root to an entry. -/
abbrev Location := List String

namespace DiskEntry

/-- A symbolic link. -/
def linkTo (target : Path) : DiskEntry true := .file (.link rfl target)

/-- The entry at the end of a chain of names. -/
def at? : Location → DiskEntry linked → Option (DiskEntry linked)
  | [], e => some e
  | _ :: _, .file _ => none
  | k :: l, .directory es => (es.lookup k).bind (at? l)

/-- Puts an entry at the end of a chain of names, whose directories exist. -/
def putAt (new : DiskEntry linked) : Location → DiskEntry linked → DiskEntry linked
  | [], _ => new
  | _ :: _, .file c => .file c
  | [k], .directory es => .directory (Entries.put k new es)
  | k :: l, .directory es =>
    match es.lookup k with
    | some e => .directory (Entries.put k (putAt new l e) es)
    | none => .directory es

/-- Takes away the entry at the end of a chain of names. -/
def removeAt : Location → DiskEntry linked → DiskEntry linked
  | [], e => e
  | _ :: _, .file c => .file c
  | [k], .directory es => .directory (Entries.erase k es)
  | k :: l, .directory es =>
    match es.lookup k with
    | some e => .directory (Entries.put k (removeAt l e) es)
    | none => .directory es

def isDirectory : DiskEntry linked → Bool
  | .directory _ => true
  | .file _ => false

def isLink : DiskEntry linked → Bool
  | .directory _ => false
  | .file c => c.target?.isSome

mutual

/-- What lies below an entry, depth first: the path of each entry, and its content if it has one. -/
def rows (path : String) : DiskEntry linked → List (String × Option (Content linked))
  | .file c => [(path, some c)]
  | .directory es => (path, none) :: rowsOf (path ++ "/") es

def rowsOf (lead : String) :
    List (String × DiskEntry linked) → List (String × Option (Content linked))
  | [] => []
  | (k, e) :: r => rows (lead ++ k) e ++ rowsOf lead r

end

end DiskEntry

/-- A file system and the directory in which relative paths start. -/
structure Disk (linked : Bool := false) where
  root : DiskEntry linked
  home : Location
deriving Inhabited

/-- Where a path leads: to an entry, or to a directory in which its last name is missing. -/
inductive Reached
  | entry (l : Location)
  | missing (l : Location) (name : List Char)
deriving DecidableEq, Inhabited

namespace Disk

/-- An empty working directory. -/
def empty : Disk := ⟨.directory [("work", .directory [])], ["work"]⟩

def at? (d : Disk linked) (l : Location) : Option (DiskEntry linked) := d.root.at? l

/-- The entries below the working directory. -/
def snapshot (d : Disk linked) : List (String × Option (Content linked)) :=
  match d.at? d.home with
  | some (.directory es) => DiskEntry.rowsOf "" es
  | _ => []

/-- Names are at most this many bytes long. -/
def nameLimit : Nat := 255

/-- Paths are shorter than this many bytes. -/
def pathLimit : Nat := 4096

/-- On the way of a path at most this many links are followed. -/
def linkLimit : Nat := 40

/-- Follows one piece of a path from an existing entry. -/
def step (d : Disk linked) (l : Location) (piece : List Char) : Except IoFault Location :=
  match d.at? l with
  | some (.directory es) =>
    if piece = ['.'] then .ok l
    else if piece = ['.', '.'] then .ok l.dropLast
    else if nameLimit < Text.byteLength piece then .error .nameTooLong
    else
      let k := String.ofList piece
      match es.lookup k with
      | some _ => .ok (l ++ [k])
      | none => .error .notFound
  | some (.file _) => .error .notDirectory
  | none => .error .notFound

/-- The path that the link at a place stands for, if there is one. -/
def linkAt? (d : Disk linked) (l : Location) : Option Path :=
  match d.at? l with
  | some (.file c) => c.target?
  | _ => none

/-- The pieces of a path that are followed; a slash at the end asks for a directory. -/
def followed (p : Path) : List (List Char) :=
  if p.text.toList.getLast? = some '/' ∧ p.names ≠ [] then p.names ++ [['.']] else p.names

/-- Follows the pieces of a path up to a link; `onward` goes on there with the path that the link
stands for and the pieces that are left. -/
def followTo (d : Disk linked)
    (onward : Location → Path → List (List Char) → Except IoFault Reached) :
    Location → List (List Char) → Except IoFault Reached
  | l, [] => if (d.at? l).isSome then .ok (.entry l) else .error .notFound
  | l, p :: ps =>
    match d.step l p with
    | .ok m =>
      match d.linkAt? m with
      | some target => onward l target ps
      | none => followTo d onward m ps
    | .error .notFound =>
      if ps = [] ∧ (d.at? l).isSome then .ok (.missing l p) else .error .notFound
    | .error f => .error f

/-- Follows the pieces of a path, and on the way at most so many links. -/
def reach (d : Disk linked) : Nat → Location → List (List Char) → Except IoFault Reached
  | 0 => d.followTo fun _ _ _ => .error .tooManyLinks
  | n + 1 => d.followTo fun l target ps =>
    reach d n (if target.isAbsolute then [] else l) (followed target ++ ps)

/-- Follows the pieces of a path; the place that is reached has to exist. -/
def walk (d : Disk linked) (l : Location) (ps : List (List Char)) : Except IoFault Location := do
  match ← d.reach linkLimit l ps with
  | .entry m => .ok m
  | .missing .. => .error .notFound

/-- Where a path starts. -/
def origin (d : Disk linked) (p : Path) : Location := if p.isAbsolute then [] else d.home

/-- Faults of a path before anything is looked up. -/
def check (p : Path) : Except IoFault Unit :=
  if p.text.toList.contains '\x00' then .error .nullByte
  else if p.text = "" then .error .notFound
  else if pathLimit ≤ Text.byteLength p.text.toList then .error .nameTooLong
  else .ok ()

/-- The location of an existing entry. -/
def locate (d : Disk linked) (p : Path) : Except IoFault Location := do
  check p
  d.walk (d.origin p) (followed p)

def entry? (d : Disk linked) (p : Path) : Option (DiskEntry linked) :=
  match d.locate p with
  | .ok l => d.at? l
  | .error _ => none

def pathExists (d : Disk linked) (p : Path) : Bool := (d.entry? p).isSome

def isDirectory (d : Disk linked) (p : Path) : Bool :=
  match d.entry? p with
  | some (.directory _) => true
  | _ => false

def isFile (d : Disk linked) (p : Path) : Bool :=
  match d.entry? p with
  | some (.file _) => true
  | _ => false

/-- The directory in which the last name of a path is to stand, and that name. -/
def locateParent (d : Disk linked) (p : Path) : Except IoFault (Location × List Char) := do
  check p
  match p.names.reverse with
  | [] => .ok (← d.walk (d.origin p) [], ['.'])
  | last :: r => .ok (← d.walk (d.origin p) r.reverse, last)

/-- Makes one directory; all directories above it must exist. -/
def makeDirectory (d : Disk linked) (p : Path) : Except IoFault (Disk linked) := do
  let (l, last) ← d.locateParent p
  match d.step l last with
  | .ok _ => .error .exists_
  | .error .notFound =>
    .ok { d with root := DiskEntry.putAt (.directory []) (l ++ [String.ofList last]) d.root }
  | .error f => .error f

/-- Makes the directories of a list, from the outermost on, which stands last. Stops at the first
that is missing no more; a directory that is there already is fine. -/
def makeChain (d : Disk linked) : List Path → Disk linked × Option IoFault
  | [] => (d, none)
  | p :: above =>
    if p.text = "" then (d, none)
    else
      match d.makeDirectory p with
      | .ok d => (d, none)
      | .error .notFound =>
        match above with
        | [] => (d, some (.other "failed to create whole tree"))
        | _ :: _ =>
          match makeChain d above with
          | (d, some f) => (d, some f)
          | (d, none) =>
            match d.makeDirectory p with
            | .ok d => (d, none)
            | .error f => if d.isDirectory p then (d, none) else (d, some f)
      | .error f => if d.isDirectory p then (d, none) else (d, some f)

/-- Makes a directory and all directories above it that are missing. What was made before a
failure stays. -/
def makeDirectories (d : Disk linked) (p : Path) : Disk linked × Option IoFault :=
  d.makeChain p.ancestors

/-- Writes a whole file, which is made if it is missing. A link at the end of the path is followed. -/
def writeFile (d : Disk linked) (p : Path) (c : Content linked) :
    Except IoFault (Disk linked) := do
  if p.text.toList.getLast? = some '/' then
    let _ ← d.locateParent p
    .error .isDirectory
  else
    check p
    match ← d.reach linkLimit (d.origin p) p.names with
    | .entry l =>
      match d.at? l with
      | some (.file _) => .ok { d with root := DiskEntry.putAt (.file c) l d.root }
      | _ => .error .isDirectory
    | .missing l last =>
      .ok { d with root := DiskEntry.putAt (.file c) (l ++ [String.ofList last]) d.root }

/-- Reads a whole file as text. -/
def readText (d : Disk linked) (p : Path) : Except IoFault String := do
  let l ← d.locate p
  match d.at? l with
  | some (.file (.text s)) => .ok s
  | some (.file (.binary _)) => .error .invalidText
  | some (.file (.link ..)) => .error .tooManyLinks
  | some (.directory _) => .error .isDirectory
  | none => .error .notFound

/-- The names in a directory, links left out, and whether each is a file. -/
def list (d : Disk linked) (p : Path) : Except IoFault (List (String × Bool)) := do
  let l ← d.locate p
  match d.at? l with
  | some (.directory es) =>
    .ok ((es.filter fun e => !e.2.isLink).map fun (k, e) => (k, !e.isDirectory))
  | some (.file _) => .error .notDirectory
  | none => .error .notFound

/-- Removes a file or a whole directory; the flag says whether there was one. -/
def remove (d : Disk linked) (p : Path) : Disk linked × Bool :=
  match d.locate p with
  | .ok l => ({ d with root := DiskEntry.removeAt l d.root }, true)
  | .error _ => (d, false)

end Disk

end Scaffold
