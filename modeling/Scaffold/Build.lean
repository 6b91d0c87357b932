import Scaffold.Specification.Load

/-!
# Building layouts

`build` makes the directories and writes the files of a specification below a root, in pre-order,
after all names have been checked. Directories that exist are kept, files are overwritten; an entry
of the other kind in the way is a conflict. The first failure ends the build, and what has been made
by then stays. The `BuildReport` lists one step for each entry.
-/

namespace Scaffold

variable {linked : Bool}

inductive StepKind
  | directory
  | file
deriving DecidableEq, Inhabited

def StepKind.name : StepKind → String
  | .directory => "directory"
  | .file => "file"

/-- An entry that has been made. -/
structure BuildStep where
  kind : StepKind
  path : Path
deriving DecidableEq, Inhabited

def BuildStep.line (s : BuildStep) : String :=
  "Created " ++ s.kind.name ++ ": '" ++ s.path.text ++ "'"

structure BuildReport where
  basePath : Path
  steps : List BuildStep
deriving Inhabited

namespace BuildReport

def paths (k : StepKind) (r : BuildReport) : List Path :=
  (r.steps.filter (·.kind == k)).map (·.path)

def directories (r : BuildReport) : List Path := r.paths .directory

def files (r : BuildReport) : List Path := r.paths .file

/-- What is said at the end of a build. -/
def summary (r : BuildReport) : String :=
  "Project structure generated in " ++ r.basePath.text ++ " (" ++
    toString r.directories.length ++ " directories, " ++ toString r.files.length ++ " files)"

end BuildReport

namespace Build

/-- Makes a directory, unless something else is in the way. -/
def makeDirectory (p : Path) : WorkOn linked Unit := do
  let d ← Work.disk
  if d.pathExists p && !d.isDirectory p then
    Work.fail (.conflict p "a file exists where a directory is expected")
  else Work.makeDirectories p

/-- Writes a file, unless a directory is in the way. -/
def writeFile (p : Path) (content : String) : WorkOn linked Unit := do
  if (← Work.disk).isDirectory p then
    Work.fail (.conflict p "a directory exists where a file is expected")
  else Work.writeFile p content

mutual

/-- Makes an entry and what lies below it. -/
def makeEntry (base : Path) : LayoutEntry → WorkOn linked (List BuildStep)
  | .directory name children => do
    let p := base.joinName name
    makeDirectory p
    Work.debug ("Created directory: " ++ p.text)
    let steps ← makeEntries p children
    pure (⟨.directory, p⟩ :: steps)
  | .file name content => do
    let p := base.joinName name
    writeFile p content
    Work.debug ("Created file: " ++ p.text)
    pure [⟨.file, p⟩]

def makeEntries (base : Path) : List LayoutEntry → WorkOn linked (List BuildStep)
  | [] => pure []
  | e :: r => do
    let steps ← makeEntry base e
    let rest ← makeEntries base r
    pure (steps ++ rest)

end

end Build

/-- Builds a specification below a root. -/
def Specification.build (s : Specification) (root : Path) : WorkOn linked BuildReport := do
  Work.ofExcept s.validate
  let base := root.join s.basePath
  Build.makeDirectory base
  let steps ← Build.makeEntries base s.entries
  let report : BuildReport := ⟨base, steps⟩
  Work.info report.summary
  pure report

/-- Builds the specification in a file below a root. -/
def buildFile (p root : Path) : WorkOn linked BuildReport := do
  let s ← Specification.load p
  s.build root

end Scaffold
