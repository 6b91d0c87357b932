import Scaffold.Config

/-!
# Arguments of the command line

The four commands with their arguments, and the options of which the arguments consist: switches,
and fields with a value. `Form` says which of these a command takes.
-/

namespace Scaffold.CommandLine

/-- What is said about a compilation. -/
structure CompileArguments where
  input : Path
  templates : Option Path
  mode : Option String
  output : Option Path
  noValidate : Bool
deriving DecidableEq, Inhabited

/-- The settings with what is said in their place. -/
def CompileArguments.apply (a : CompileArguments) (c : Config) : Config :=
  { c with
    templatesDir := a.templates.getD c.templatesDir
    defaultMode := a.mode.getD c.defaultMode
    output := a.output.getD c.output
    validate := c.validate && !a.noValidate }

inductive Command
  | compile (arguments : CompileArguments)
  | build (specification : Path) (root : Option Path)
  | run (arguments : CompileArguments) (root : Option Path)
  | modes (tag : Option String) (templates : Option Path)
deriving DecidableEq, Inhabited

/-- A command with what is said for all commands. -/
structure Invocation where
  verbose : Bool
  config : Option Path
  command : Command
deriving DecidableEq, Inhabited

/-- Why arguments are no invocation. -/
inductive UsageFault
  | displayHelp
  | displayVersion
  | helpWithoutArguments
  | missingArgument
  | missingCommand
  | unknownCommand
  | unknownArgument
  | invalidValue
  | conflict
  | tooManyValues
deriving DecidableEq, Inhabited

inductive CommandName
  | compile
  | build
  | run
  | modes
deriving DecidableEq, Inhabited

namespace CommandName

def all : List CommandName := [compile, build, run, modes]

def text : CommandName → String
  | compile => "compile"
  | build => "build"
  | run => "run"
  | modes => "modes"

end CommandName

/-- An option without a value. -/
inductive Switch
  | help
  | version
  | verbose
  | noValidate
deriving DecidableEq, Inhabited

/-- An argument with a value. The last three are told by their place. -/
inductive Field
  | config
  | templates
  | mode
  | output
  | root
  | input
  | specification
  | tag
deriving DecidableEq, Inhabited

/-- Whether the value is a path, which is never empty. -/
def Field.isPath : Field → Bool
  | .mode => false
  | .tag => false
  | _ => true

/-- An option: the short and the long way to write it. -/
structure Named (α : Type) where
  item : α
  short : Option Char
  long : String

/-- What a command, or the line before its name, may consist of. -/
structure Form where
  switches : List (Named Switch)
  fields : List (Named Field)
  /-- The argument that is told by its place, and whether it may be missing. -/
  place : Option (Field × Bool)

namespace Form

def helpSwitch : Named Switch := ⟨.help, some 'h', "help"⟩

def verboseSwitch : Named Switch := ⟨.verbose, some 'v', "verbose"⟩

def noValidateSwitch : Named Switch := ⟨.noValidate, none, "no-validate"⟩

def versionSwitch : Named Switch := ⟨.version, some 'V', "version"⟩

def configField : Named Field := ⟨.config, some 'c', "config"⟩

def rootField : Named Field := ⟨.root, some 'r', "root"⟩

def templatesField : Named Field := ⟨.templates, some 't', "templates"⟩

def compileFields : List (Named Field) :=
  [templatesField, ⟨.mode, some 'm', "mode"⟩, ⟨.output, some 'o', "output"⟩, configField]

/-- What may stand before the name of a command. -/
def leading : Form := ⟨[helpSwitch, versionSwitch, verboseSwitch], [configField], none⟩

def ofCommand : CommandName → Form
  | .compile =>
    ⟨[helpSwitch, verboseSwitch, noValidateSwitch], compileFields, some (.input, false)⟩
  | .run =>
    ⟨[helpSwitch, verboseSwitch, noValidateSwitch], rootField :: compileFields,
      some (.input, false)⟩
  | .build =>
    ⟨[helpSwitch, verboseSwitch], [rootField, configField], some (.specification, false)⟩
  | .modes => ⟨[helpSwitch, verboseSwitch], [templatesField, configField], some (.tag, true)⟩

/-- The switch or the field with a long name. -/
def long? (f : Form) (name : String) : Option (Switch ⊕ Field) :=
  match f.switches.find? (·.long == name), f.fields.find? (·.long == name) with
  | some s, _ => some (.inl s.item)
  | none, some d => some (.inr d.item)
  | none, none => none

def short? (f : Form) (c : Char) : Option (Switch ⊕ Field) :=
  match f.switches.find? (·.short == some c), f.fields.find? (·.short == some c) with
  | some s, _ => some (.inl s.item)
  | none, some d => some (.inr d.item)
  | none, none => none

end Form

end Scaffold.CommandLine
