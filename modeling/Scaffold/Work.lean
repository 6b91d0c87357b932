import Scaffold.Failure
import Scaffold.Template.Basic

/-!
# Work on a file system

`Work α` is an activity that reads and changes a disk, keeps templates that it has read on shelves,
prints lines, leaves notices of what it does, and gives a result or fails. What was done before a
failure stays done. `WorkOn linked α` is the same where the disk may have links.
-/

namespace Scaffold

inductive NoticeLevel
  | debug
  | info
deriving DecidableEq, Inhabited

/-- A remark about what is being done. -/
structure Notice where
  level : NoticeLevel
  text : String
deriving DecidableEq, Inhabited

def NoticeLevel.name : NoticeLevel → String
  | .debug => "DEBUG"
  | .info => "INFO"

/-- Templates by name, each as it was when it was first read. -/
abbrev Shelf := List (String × Template)

/-- What work is done on: a disk, shelves, and the lines and the notices so far, latest first. -/
structure Site (linked : Bool := false) where
  disk : Disk linked
  shelves : List Shelf
  lines : List String
  notices : List Notice
deriving Inhabited

variable {linked : Bool}

/-- A site with nothing but a disk. -/
def Site.on (d : Disk linked) : Site linked := ⟨d, [], [], []⟩

/-- A site with nothing on it. -/
def Site.empty : Site := .on Disk.empty

def WorkOn (linked : Bool) (α : Type) := Site linked → Except Failure α × Site linked

abbrev Work := WorkOn false

namespace Work

variable {α β : Type}

def pure (a : α) : WorkOn linked α := fun s => (.ok a, s)

def bind (m : WorkOn linked α) (f : α → WorkOn linked β) : WorkOn linked β := fun s =>
  match m s with
  | (.ok a, s) => f a s
  | (.error e, s) => (.error e, s)

instance : Monad (WorkOn linked) := { pure := pure, bind := bind }

instance : Inhabited (WorkOn linked α) := ⟨fun s => (.error default, s)⟩

def fail (f : Failure) : WorkOn linked α := fun s => (.error f, s)

def ofExcept : Except Failure α → WorkOn linked α
  | .ok a => pure a
  | .error f => fail f

/-- Changes every failure. -/
def mapFailure (g : Failure → Failure) (m : WorkOn linked α) : WorkOn linked α := fun s =>
  match m s with
  | (.ok a, s) => (.ok a, s)
  | (.error e, s) => (.error (g e), s)

/-- Goes on after a failure, which becomes the result. -/
def attempt (m : WorkOn linked α) : WorkOn linked (Except Failure α) := fun s =>
  match m s with
  | (r, s) => (.ok r, s)

/-- Notes the stage to which failures belong. -/
def atStage (stage : Stage) (m : WorkOn linked α) : WorkOn linked α :=
  mapFailure (Failure.at stage) m

def disk : WorkOn linked (Disk linked) := fun s => (.ok s.disk, s)

def setDisk (d : Disk linked) : WorkOn linked Unit := fun s => (.ok (), { s with disk := d })

/-- Prints a line. -/
def print (line : String) : WorkOn linked Unit := fun s =>
  (.ok (), { s with lines := line :: s.lines })

def notice (level : NoticeLevel) (text : String) : WorkOn linked Unit := fun s =>
  (.ok (), { s with notices := ⟨level, text⟩ :: s.notices })

def debug (text : String) : WorkOn linked Unit := notice .debug text

def info (text : String) : WorkOn linked Unit := notice .info text

/-- Adds an empty shelf and gives its number. -/
def newShelf : WorkOn linked Nat := fun s =>
  (.ok s.shelves.length, { s with shelves := s.shelves ++ [[]] })

/-- The template of a name on a shelf. -/
def shelved? (shelf : Nat) (name : String) : WorkOn linked (Option Template) := fun s =>
  (.ok ((s.shelves[shelf]?.getD []).lookup name), s)

/-- The names of the templates on a shelf. -/
def shelfNames (shelf : Nat) : WorkOn linked (List String) := fun s =>
  (.ok (Entries.keys (s.shelves[shelf]?.getD [])), s)

/-- Puts a template on a shelf. -/
def putOnShelf (shelf : Nat) (name : String) (t : Template) : WorkOn linked Unit := fun s =>
  (.ok (), { s with shelves := s.shelves.modify shelf (Entries.insert name t) })

/-- Makes a directory and those above it. -/
def makeDirectories (p : Path) : WorkOn linked Unit := do
  let d ← disk
  let (d, fault) := d.makeDirectories p
  setDisk d
  match fault with
  | some f => fail (.ioFailure p f)
  | none => pure ()

/-- Writes a file. -/
def writeFile (p : Path) (text : String) : WorkOn linked Unit := do
  match (← disk).writeFile p (.text text) with
  | .ok d => setDisk d
  | .error f => fail (.ioFailure p f)

/-- Reads a file as text. -/
def readText (p : Path) : WorkOn linked String := do
  match (← disk).readText p with
  | .ok s => pure s
  | .error f => fail (.io f)

end Work

/-- Reads the first of the named files that exists in a directory. -/
def Work.readFirst (dir : Path) (names : List String) : WorkOn linked (Option String) :=
  go names
where
  go : List String → WorkOn linked (Option String)
    | [] => do
      Work.debug ("No configuration file found (tried: " ++ ", ".intercalate names ++ ")")
      pure none
    | n :: r => do
      let p := dir.joinName n
      if (← Work.disk).pathExists p then
        Work.debug ("Loading configuration from " ++ p.text)
        pure (some (← Work.readText p))
      else go r

end Scaffold
