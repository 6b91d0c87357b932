import Scaffold.CommandLine.Program

/-!
# The command line

Takes the files below the current directory as the disk, runs the program on it, and writes back
what the program has changed.
-/

namespace Scaffold.CommandLine

/-- What is said when help is asked for or a command is missing. The help of a single command is left
out. -/
def helpText : String := "\n".intercalate
  ["Trellis: compile document trees through templates and scaffold the result", "",
    "Usage: trellis [OPTIONS] <COMMAND>", "",
    "Commands:",
    "  compile  Render an XML or JSON document into an infrastructure specification",
    "  build    Materialize an infrastructure specification on disk",
    "  run      Compile a document and build the resulting specification",
    "  modes    List template groups, or the modes available for one tag",
    "  help     Print this message or the help of the given subcommand(s)", "",
    "Options:",
    "  -v, --verbose       Enable verbose logging output",
    "  -c, --config <DIR>  Directory containing trellis.json, trellis.yml or trellis.yaml",
    "  -h, --help          Print help",
    "  -V, --version       Print version"]

def versionText : String := "trellis 0.3.0"

/-- What is said of arguments that cannot be read, without the argument that is at fault. -/
def UsageFault.text : UsageFault → String
  | displayVersion => versionText
  | unknownCommand => "error: unrecognized subcommand"
  | unknownArgument => "error: unexpected argument found"
  | invalidValue => "error: a value is required but none was supplied"
  | conflict => "error: an argument cannot be used multiple times"
  | tooManyValues => "error: unexpected value for an option without values"
  | _ => helpText

/-- An entry of a directory with what lies below it. A symbolic link is taken for what it leads to. -/
partial def entryOf (e : IO.FS.DirEntry) : IO (String × DiskEntry) := do
  if ← e.path.isDir then
    let es ← (← e.path.readDir).toList.mapM entryOf
    pure (e.fileName, .directory (es.foldl (fun acc (k, v) => Entries.put k v acc) []))
  else
    let bytes ← IO.FS.readBinFile e.path
    pure (e.fileName, .file (Content.ofBytes bytes.toList))

/-- The current directory as a disk. -/
def currentDisk : IO Disk := do
  let here ← IO.currentDir
  let es ← (← here.readDir).toList.mapM entryOf
  let home := here.components.filter fun c => c != "" && c != "/"
  let dir := DiskEntry.directory (es.foldl (fun acc (k, v) => Entries.put k v acc) [])
  pure ⟨home.foldr (fun k e => .directory [(k, e)]) dir, home⟩

/-- Writes an entry, unless it was there before. -/
def writeBack (before : List (String × Option Content)) (row : String × Option Content) :
    IO Unit := do
  if before.contains row then pure ()
  else
    match row.2 with
    | none => IO.FS.createDirAll row.1
    | some (.text s) => IO.FS.writeFile row.1 s
    | some (.binary bs) => IO.FS.writeBinFile row.1 ⟨bs.toArray⟩

/-- Runs the program. -/
def runMain (args : List String) : IO UInt32 := do
  match CommandLine.read args with
  | .error f =>
    if f.isPrinted then IO.println f.text else IO.eprintln f.text
    pure f.code.toUInt32
  | .ok i =>
    let disk ← currentDisk
    let e := i.execute disk
    e.notices.forM fun n => IO.eprintln ("[" ++ n.level.name ++ "] " ++ n.text)
    (e.disk.root.rows "").forM (writeBack (disk.root.rows ""))
    e.lines.forM IO.println
    match e.failure with
    | some f => IO.eprintln f.message
    | none => pure ()
    pure e.code.toUInt32

end Scaffold.CommandLine

def main (args : List String) : IO UInt32 := Scaffold.CommandLine.runMain args
