import Scaffold.Markup.Document
import Scaffold.Specification.Basic

/-!
# Specifications in XML

A specification document has the elements `project_name`, `output_dir` and `structure`, the first
of each name counting. Below `structure` stand `directory` and `file` elements with a `name`; the
content of a file is the text of its first `content` element as it is written.
-/

namespace Scaffold.Specification

def childNamed? (n : Node) (tag : String) : Option Node := n.children.find? (·.tag == tag)

/-- Why a tree is no specification. -/
inductive ShapeFault
  | missing (tag : String)
  | noName (tag : String)
  | unknownEntry (tag name : String)
deriving DecidableEq, Inhabited

def ShapeFault.message : ShapeFault → String
  | .missing t => "missing '" ++ t ++ "'"
  | .noName t => "<" ++ t ++ "> entry has no name"
  | .unknownEntry t n =>
    "unknown entry <" ++ t ++ "> named '" ++ n ++ "', expected <directory> or <file>"

/-- The trimmed text of a child; a blank text is as good as none. -/
def childText (n : Node) (tag : String) : Except ShapeFault String :=
  match ((childNamed? n tag).bind Node.text?).bind Text.trimmed? with
  | some t => .ok t
  | none => .error (.missing tag)

mutual

def entryOf : Node → Except ShapeFault LayoutEntry
  | .mk tag attributes children _ _ =>
    match (attributes.get? "name").bind Json.string? with
    | none => .error (.noName tag)
    | some name =>
      if tag = "directory" then do
        .ok (.directory name (← entriesOf children))
      else if tag = "file" then
        let content := (children.find? (·.tag == "content")).bind Node.text?
        .ok (.file name (content.getD ""))
      else .error (.unknownEntry tag name)

def entriesOf : List Node → Except ShapeFault (List LayoutEntry)
  | [] => .ok []
  | n :: r => do
    let e ← entryOf n
    let es ← entriesOf r
    .ok (e :: es)

end

/-- The specification that a tree holds. -/
def ofNode (root : Node) : Except ShapeFault Specification := do
  let projectName ← childText root "project_name"
  let outputDir ← childText root "output_dir"
  match childNamed? root "structure" with
  | none => .error (.missing "structure")
  | some s => do
    .ok ⟨projectName, ⟨outputDir⟩, ← entriesOf s.children⟩

/-- The tree of an XML text. -/
def rootOf (text : String) : Except Failure Node :=
  (Markup.read .raw text).mapError fun f => .specification ("invalid specification: " ++ f.message)

/-- The specification of a tree. -/
def ofRoot (root : Node) : Except Failure Specification :=
  (ofNode root).mapError fun f => .specification f.message

/-- Reads a specification from XML text. -/
def ofMarkup (text : String) : Except Failure Specification := do ofRoot (← rootOf text)

end Scaffold.Specification
