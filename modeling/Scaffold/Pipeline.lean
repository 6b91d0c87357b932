import Scaffold.Build
import Scaffold.Config
import Scaffold.Input
import Scaffold.Rendering
import Scaffold.Schema.Read
import Scaffold.Schema.Tree

/-!
# Pipelines

A pipeline reads a document as a tree, checks the tree against a schema, renders its root, writes
the text to a file, and builds the specification that the text holds. `Pipeline.run` does all of it.
Each failure belongs to one stage, and no later stage begins after it.
-/

namespace Scaffold

variable {linked : Bool}

structure Pipeline where
  config : Config
  templates : Repository
deriving Inhabited

/-- Where a run has put the text, and what it has built from it. -/
structure Outcome where
  specification : Path
  report : BuildReport
deriving Inhabited

namespace Pipeline

/-- A pipeline with the template store that its settings name. -/
def «open» (c : Config) : WorkOn linked Pipeline := do pure ⟨c, ← Repository.open c.templatesDir⟩

/-- The schema that trees are checked against, if they are. -/
def schema? (p : Pipeline) : WorkOn linked (Option Schema) := do
  if p.config.validate then
    match p.config.schema with
    | some path => do pure (some (← Schema.load path))
    | none => pure (some Schema.tree)
  else pure none

/-- Checks the JSON form of a tree. -/
def check (schema : Option Schema) (v : Json) : WorkOn linked Unit :=
  match schema with
  | some s => Work.atStage .validate (Work.ofExcept (s.validate v))
  | none => pure ()

/-- The tree of a document. A JSON document is checked as it is, an XML document in the form that
its tree is written in. -/
def parse (p : Pipeline) (text : String) (format : DocumentFormat) : WorkOn linked Node := do
  let schema ← Work.atStage .validate p.schema?
  let root ← match format with
    | .json => do
      let v ← Work.atStage .parse (Work.ofExcept (Node.readJson text))
      check schema v
      Work.atStage .parse (Work.ofExcept (Node.ofJson v))
    | .xml => do
      let root ← Work.atStage .parse (Work.ofExcept (Node.ofMarkup .normalized text))
      noteMarkup root
      check schema root.document.canonical
      pure root
  Work.debug ("Built node tree with root <" ++ root.tag ++ ">")
  pure root

/-- Renders a tree, in the standard mode unless another is asked for. -/
def compile (p : Pipeline) (root : Node) (mode : Option String) : WorkOn linked String := do
  let mode := mode.getD p.config.defaultMode
  Work.info ("Compiling <" ++ root.tag ++ "> as '" ++ mode ++ "'")
  Work.atStage .compile (root.render p.templates mode)

/-- Writes a file and makes the directory that it lies in. -/
def writeFile (path : Path) (text : String) : WorkOn linked Unit := do
  match path.parent? with
  | some parent => if parent.text != "" then Work.makeDirectories parent
  | none => pure ()
  Work.writeFile path text

/-- Writes the output. -/
def write (p : Pipeline) (text : String) : WorkOn linked Path := do
  Work.atStage .write (writeFile p.config.output text)
  Work.info ("File generated at: " ++ p.config.output.text)
  pure p.config.output

/-- Builds the specification in a file. -/
def build (p : Pipeline) (specification : Path) : WorkOn linked BuildReport :=
  Work.atStage .build (buildFile specification p.config.buildRoot)

/-- Renders a document and writes the text. -/
def compileText (p : Pipeline) (text : String) (format : DocumentFormat) (mode : Option String) :
    WorkOn linked Path := do
  let root ← p.parse text format
  let rendered ← p.compile root mode
  p.write rendered

/-- Renders a document, writes the text, and builds the specification in it. -/
def run (p : Pipeline) (text : String) (format : DocumentFormat) (mode : Option String) :
    WorkOn linked Outcome := do
  let path ← p.compileText text format mode
  let report ← p.build path
  pure ⟨path, report⟩

/-- Does the same for the document in a file. -/
def runFile (p : Pipeline) (input : Path) (mode : Option String) : WorkOn linked Outcome := do
  let (text, format) ← Work.atStage .parse (readInput input)
  p.run text format mode

end Pipeline

end Scaffold
