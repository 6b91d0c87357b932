import Scaffold.CommandLine.Arguments

/-!
# Reading arguments

Arguments are read from left to right. The value of a field is looked at only when the next switch
or field begins, or at the end: `Found.settle`. So a fault in what comes next is often found first.
After `--` every argument is told by its place.
-/

namespace Scaffold.CommandLine

/-- What has been read. The open field has got its value, or still waits for it. -/
structure Found where
  switches : List Switch
  values : List (Field × String)
  open? : Option (Field × Option String)
deriving Inhabited

namespace Found

def nothing : Found := ⟨[], [], none⟩

/-- Gives a field its value: not twice, and a path is not empty. -/
def put (d : Field) (v : String) (f : Found) : Except UsageFault Found :=
  if (f.values.lookup d).isSome then .error .conflict
  else if d.isPath && v == "" then .error .invalidValue
  else .ok { f with values := (d, v) :: f.values }

/-- Closes the open field. -/
def settle (f : Found) : Except UsageFault Found :=
  match f.open? with
  | none => .ok f
  | some (_, none) => .error .invalidValue
  | some (d, some v) => put d v { f with open? := none }

/-- Meets a switch. -/
def switch (s : Switch) (f : Found) : Except UsageFault Found := do
  let f ← f.settle
  match s with
  | .help => .error .displayHelp
  | .version => .error .displayVersion
  | s => if f.switches.contains s then .error .conflict else .ok { f with switches := s :: f.switches }

/-- Meets a field, with its value if that is attached. -/
def field (d : Field) (attached : Option String) (f : Found) : Except UsageFault Found := do
  let f ← f.settle
  match attached with
  | some v => f.put d v
  | none => .ok { f with open? := some (d, none) }

/-- Whether the next argument is the value of a field. -/
def isWaiting (f : Found) : Bool :=
  match f.open? with
  | some (_, none) => true
  | _ => false

/-- Meets an argument that is told by its place. -/
def placed (form : Form) (v : String) (f : Found) : Option (Except UsageFault Found) :=
  match form.place with
  | none => none
  | some (d, _) =>
    let taken := match f.open? with
      | some (e, _) => e == d
      | none => false
    if taken || (f.values.lookup d).isSome then none
    else some do
      let f ← f.settle
      .ok { f with open? := some (d, some v) }

end Found

/-- An argument that begins with two dashes: its name, and what follows `=`. -/
def longParts (rest : List Char) : String × Option String :=
  match Text.splitOnce? '=' rest with
  | some (n, v) => (String.ofList n, some (String.ofList v))
  | none => (String.ofList rest, none)

def readLong (form : Form) (rest : List Char) (f : Found) : Except UsageFault Found :=
  let (name, attached) := longParts rest
  match form.long? name, attached with
  | none, _ => .error .unknownArgument
  | some (.inl _), some _ => .error .tooManyValues
  | some (.inl s), none => f.switch s
  | some (.inr d), v => f.field d v

/-- Reads short options that stand together. What follows a field is its value. -/
def readShort (form : Form) : List Char → Found → Except UsageFault Found
  | [], f => .ok f
  | c :: r, f =>
    match form.short? c with
    | none => .error .unknownArgument
    | some (.inl s) => do readShort form r (← f.switch s)
    | some (.inr d) =>
      match r with
      | [] => f.field d none
      | '=' :: v => f.field d (some (String.ofList v))
      | v => f.field d (some (String.ofList v))

/-- What an argument is by its looks. -/
inductive Shape
  | escape
  | long (rest : List Char)
  | short (letters : List Char)
  | plain

def shapeOf (s : String) : Shape :=
  match s.toList with
  | ['-', '-'] => .escape
  | '-' :: '-' :: r => .long r
  | ['-'] => .plain
  | '-' :: r => .short r
  | _ => .plain

/-- Reads an argument that stands in its place. -/
def readPlaced (form : Form) (refused : UsageFault) (v : String) (f : Found) :
    Except UsageFault Found :=
  (f.placed form v).getD (.error refused)

/-- Reads one argument before `--`, which is no `--` itself. -/
def readArgument (form : Form) (refused : UsageFault) (s : String) (f : Found) :
    Except UsageFault Found :=
  match shapeOf s with
  | .long r => readLong form r f
  | .short r => readShort form r f
  | _ =>
    match f.open? with
    | some (d, none) => .ok { f with open? := some (d, some s) }
    | _ => readPlaced form refused s f

/-- Reads the arguments of a command. -/
def readArguments (form : Form) (escaped : Bool) : List String → Found → Except UsageFault Found
  | [], f => .ok f
  | s :: r, f =>
    if escaped then do
      readArguments form true r (← readPlaced form .unknownArgument s f)
    else if s = "--" then readArguments form true r f
    else do readArguments form false r (← readArgument form .unknownArgument s f)

/-- The value of a field as a path. -/
def Found.path? (f : Found) (d : Field) : Option Path := (f.values.lookup d).map fun s => ⟨s⟩

/-- The value of a field that has to be there. -/
def Found.required (f : Found) (d : Field) : Except UsageFault Path :=
  match f.path? d with
  | some p => .ok p
  | none => .error .missingArgument

def Found.compileArguments (f : Found) : Except UsageFault CompileArguments := do
  .ok ⟨← f.required .input, f.path? .templates, f.values.lookup .mode, f.path? .output,
    f.switches.contains .noValidate⟩

def Found.command (f : Found) : CommandName → Except UsageFault Command
  | .compile => do .ok (.compile (← f.compileArguments))
  | .run => do .ok (.run (← f.compileArguments) (f.path? .root))
  | .build => do .ok (.build (← f.required .specification) (f.path? .root))
  | .modes => .ok (.modes (f.values.lookup .tag) (f.path? .templates))

/-- Reads a command after what stands before its name. -/
def readCommand (before : Found) (n : CommandName) (args : List String) :
    Except UsageFault Invocation := do
  let own ← readArguments (Form.ofCommand n) false args .nothing
  let own ← own.settle
  let command ← own.command n
  let before ← before.settle
  .ok ⟨own.switches.contains .verbose || before.switches.contains .verbose,
    (own.path? .config).or (before.path? .config), command⟩

/-- The command that asks for help. -/
def helpName : String := "help"

/-- Reads what comes after the command that asks for help: the name of a command, if anything. -/
def readHelp : List String → UsageFault
  | [] => .displayHelp
  | [n] =>
    if n = helpName || CommandName.all.any (·.text == n) then .displayHelp else .unknownCommand
  | _ => .unknownCommand

/-- Reads arguments after `--` where no command has been named: it is too late for one. -/
def tooLate (s : String) : UsageFault :=
  if s = helpName || CommandName.all.any (·.text == s) then .unknownArgument else .unknownCommand

/-- Reads the arguments up to the name of a command and then the command. -/
def readFrom : List String → Found → Except UsageFault Invocation
  | [], f => do
    let f ← f.settle
    .error (if f.switches.isEmpty && f.values.isEmpty then .helpWithoutArguments
      else .missingCommand)
  | s :: r, f =>
    if !f.isWaiting && s = helpName then .error (readHelp r)
    else
      match if f.isWaiting then none else CommandName.all.find? (·.text == s) with
      | some n => readCommand f n r
      | none =>
        if s = "--" then
          match r with
          | [] => readFrom [] f
          | t :: _ => .error (tooLate t)
        else do readFrom r (← readArgument .leading .unknownCommand s f)
termination_by args => args.length
decreasing_by all_goals (simp only [List.length_cons, List.length_nil]; omega)

/-- Reads the arguments of the command line. -/
def read (args : List String) : Except UsageFault Invocation := readFrom args .nothing

end Scaffold.CommandLine
