import Scaffold.Failure
import Scaffold.Json.Printer

/-!
# Specifications of directory layouts

A specification names a project, an output directory, and a nested list of directories and files.
It is sound if the project and every entry have names that are plain segments and the output
directory is not empty; `Specification.fault?` is the first fault in pre-order.
-/

namespace Scaffold

/-- A directory or a file of a layout. -/
inductive LayoutEntry
  | directory (name : String) (children : List LayoutEntry)
  | file (name content : String)
deriving Inhabited

namespace LayoutEntry

def name : LayoutEntry → String
  | directory n _ => n
  | file n _ => n

mutual

def same : LayoutEntry → LayoutEntry → Bool
  | directory n c, directory m d => n == m && sameList c d
  | file n c, file m d => n == m && c == d
  | _, _ => false

def sameList : List LayoutEntry → List LayoutEntry → Bool
  | [], [] => true
  | a :: r, b :: s => same a b && sameList r s
  | _, _ => false

end

mutual

/-- The entries in pre-order, each with its depth. -/
def rows (depth : Nat) : LayoutEntry → List (Nat × LayoutEntry)
  | e@(directory _ c) => (depth, e) :: rowsOfList (depth + 1) c
  | e@(file _ _) => [(depth, e)]

def rowsOfList (depth : Nat) : List LayoutEntry → List (Nat × LayoutEntry)
  | [] => []
  | e :: r => rows depth e ++ rowsOfList depth r

end

mutual

def toJson : LayoutEntry → Json
  | directory n c =>
    .object [("type", .string "directory"), ("name", .string n), ("children", .array (toJsons c))]
  | file n c =>
    .object [("type", .string "file"), ("name", .string n), ("content", .string c)]

def toJsons : List LayoutEntry → List Json
  | [] => []
  | e :: r => toJson e :: toJsons r

end

end LayoutEntry

/-- A layout and where it is to stand. -/
structure Specification where
  projectName : String
  outputDir : Path
  entries : List LayoutEntry
deriving Inhabited

/-- Why a specification is not sound. -/
inductive LayoutFault
  | projectName (name : String)
  | emptyOutput
  | entryName (name : String) (parent : Path)
deriving DecidableEq, Inhabited

def LayoutFault.message : LayoutFault → String
  | .projectName n => "project_name '" ++ n ++ "' is not a single path segment"
  | .emptyOutput => "output_dir is empty"
  | .entryName n p =>
    "entry name '" ++ n ++ "' under '" ++ p.text ++ "' is not a single path segment"

namespace LayoutEntry

mutual

/-- The first entry, in pre-order, whose name is no plain segment. -/
def fault? (parent : Path) : LayoutEntry → Option LayoutFault
  | directory n c =>
    if isPlainSegment n then faultOfList? (parent.joinName n) c else some (.entryName n parent)
  | file n _ => if isPlainSegment n then none else some (.entryName n parent)

def faultOfList? (parent : Path) : List LayoutEntry → Option LayoutFault
  | [] => none
  | e :: r => (fault? parent e).or (faultOfList? parent r)

end

end LayoutEntry

namespace Specification

/-- Equality, where the output directory is compared by components. -/
def same (a b : Specification) : Bool :=
  a.projectName == b.projectName && a.outputDir.same b.outputDir &&
    LayoutEntry.sameList a.entries b.entries

/-- Where the layout stands, seen from the directory it is built under. -/
def basePath (s : Specification) : Path := s.outputDir.joinName s.projectName

/-- The first fault of a specification. -/
def fault? (s : Specification) : Option LayoutFault :=
  if !isPlainSegment s.projectName then some (.projectName s.projectName)
  else if s.outputDir.text = "" then some .emptyOutput
  else LayoutEntry.faultOfList? ⟨s.projectName⟩ s.entries

def validate (s : Specification) : Except Failure Unit :=
  match s.fault? with
  | some f => .error (.specification f.message)
  | none => .ok ()

def rows (s : Specification) : List (Nat × LayoutEntry) := LayoutEntry.rowsOfList 0 s.entries

def toJson (s : Specification) : Json :=
  .object [("project_name", .string s.projectName), ("output_dir", .string s.outputDir.text),
    ("structure", .array (LayoutEntry.toJsons s.entries))]

end Specification

end Scaffold
