import Scaffold.CommandLine.Reader
import Scaffold.Config.Load
import Scaffold.Pipeline

/-!
# The program

What each command does and prints, and how the program ends: with exit code 0, or with 1 and the
sentence for the failure.
-/

namespace Scaffold.CommandLine

variable {linked : Bool}

def printGenerated (p : Path) : WorkOn linked Unit := Work.print ("File generated at: " ++ p.text)

def printReport (r : BuildReport) : WorkOn linked Unit := do
  r.steps.forM fun s => Work.print s.line
  Work.print ("Project structure generated in " ++ r.basePath.text ++ ".")

/-- Prints the modes of each tag. -/
def printGroups (r : Repository) : WorkOn linked Unit := do
  let tags ← r.tags
  if tags.isEmpty then Work.fail (.config "template store has no groups")
  tags.forM fun t => do
    let modes ← r.modes t
    Work.print (t ++ ": " ++ ", ".intercalate modes)

/-- Does what a command asks for, under the settings of a directory. -/
def Command.perform (c : Config) : Command → WorkOn linked Unit
  | .compile a => do
    let p ← Pipeline.open (a.apply c)
    let (text, format) ← Work.atStage .parse (readInput a.input)
    printGenerated (← p.compileText text format none)
  | .build specification root =>
    Work.atStage .build (buildFile specification (root.getD c.buildRoot)) >>= printReport
  | .run a root => do
    let c := a.apply c
    let p ← Pipeline.open { c with buildRoot := root.getD c.buildRoot }
    let o ← p.runFile a.input none
    printGenerated o.specification
    printReport o.report
  | .modes tag templates => do
    let r ← Repository.open (templates.getD c.templatesDir)
    match tag with
    | some t => do (← r.modes t).forM Work.print
    | none => printGroups r

/-- The directory whose settings hold if no other is named. -/
def standardDirectory : Path := ⟨"."⟩

def Invocation.perform (i : Invocation) : WorkOn linked Unit := do
  let c ← Config.load (i.config.getD standardDirectory)
  i.command.perform c

/-- How the program has ended. -/
structure Ending (linked : Bool := false) where
  code : Nat
  /-- The lines on the standard output. -/
  lines : List String
  /-- The notices, of which those for debugging are left out unless they are asked for. -/
  notices : List Notice
  /-- The failure, if the program has failed. -/
  failure : Option Failure
  disk : Disk linked
deriving Inhabited

/-- The notices that are shown. -/
def shown (verbose : Bool) (ns : List Notice) : List Notice :=
  ns.filter fun n => verbose || n.level == .info

/-- Runs an invocation on a disk. -/
def Invocation.execute (i : Invocation) (d : Disk linked) : Ending linked :=
  match i.perform (Site.on d) with
  | (r, s) =>
    let failure := match r with
      | .ok _ => none
      | .error f => some f
    ⟨if failure.isSome then 1 else 0, s.lines.reverse, shown i.verbose s.notices.reverse, failure,
      s.disk⟩

namespace UsageFault

/-- The exit code when arguments are no invocation. -/
def code : UsageFault → Nat
  | displayHelp => 0
  | displayVersion => 0
  | missingArgument => 1
  | missingCommand => 1
  | _ => 2

/-- Whether what is said then goes to the standard output. -/
def isPrinted (f : UsageFault) : Bool := f.code != 2

end UsageFault

end Scaffold.CommandLine
