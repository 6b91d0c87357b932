import Scaffold.Disk.Basic

/-!
# Failures

`Failure` has one constructor for each way in which a request can fail, and `Failure.at` adds the
stage of a pipeline. A failure in a template is a `RenderFault`; faults have
causes, and the cause of a fault may again be a failure, where a template asked for a child to be
rendered. `Failure.innermost` looks through all of that for the failure that started it.
-/

namespace Scaffold

/-- The stages of a pipeline. -/
inductive Stage
  | parse
  | validate
  | compile
  | write
  | build
deriving DecidableEq, Inhabited

def Stage.name : Stage → String
  | .parse => "parse"
  | .validate => "validate"
  | .compile => "compile"
  | .write => "write"
  | .build => "build"

/-- The kinds of faults of the template engine. -/
inductive FaultKind
  | nonPrimitive
  | invalidOperation
  | form
  | templateNotFound
  | tooManyArguments
  | missingArgument
  | unknownFilter
  | unknownTest
  | unknownFunction
  | unknownMethod
  | badEscape
  | undefinedValue
  | badSerialization
  | cannotUnpack
  | badInclude
  | evalBlock
  | cannotDeserialize
  | writeFailure
  | unknownBlock
deriving DecidableEq, Inhabited

def FaultKind.name : FaultKind → String
  | .nonPrimitive => "not a primitive"
  | .invalidOperation => "invalid operation"
  | .form => "syntax error"
  | .templateNotFound => "template not found"
  | .tooManyArguments => "too many arguments"
  | .missingArgument => "missing argument"
  | .unknownFilter => "unknown filter"
  | .unknownTest => "unknown test"
  | .unknownFunction => "unknown function"
  | .unknownMethod => "unknown method"
  | .badEscape => "bad string escape"
  | .undefinedValue => "undefined value"
  | .badSerialization => "could not serialize to value"
  | .cannotUnpack => "cannot unpack"
  | .badInclude => "could not render include"
  | .evalBlock => "could not render block"
  | .cannotDeserialize => "cannot deserialize"
  | .writeFailure => "failed to write output"
  | .unknownBlock => "unknown block"

mutual

/-- Every way in which a request fails. -/
inductive Failure
  | io (fault : IoFault)
  | parse (detail : String)
  | templateNotFound (name : String)
  | invalidMode (tag mode : String) (available : List String)
  | render (template : String) (fault : RenderFault)
  | specificationNotFound (path : Path)
  | specification (detail : String)
  | conflict (path : Path) (reason : String)
  | ioFailure (path : Path) (fault : IoFault)
  | validation (detail : String)
  | config (detail : String)
  | staged (stage : Stage) (failure : Failure)

/-- A fault of the template engine: its kind, a detail, the template and line it arose at, and
what caused it. -/
inductive RenderFault
  | mk (kind : FaultKind) (detail : Option String) (place : Option (String × Nat)) (cause : Cause)

/-- What causes a fault, if anything does. -/
inductive Cause
  | none
  | failure (f : Failure)
  | fault (f : RenderFault)

end

instance : Inhabited Failure := ⟨.parse ""⟩

instance : Inhabited RenderFault := ⟨.mk .invalidOperation none none .none⟩

namespace RenderFault

def kind : RenderFault → FaultKind
  | mk k _ _ _ => k

def detail : RenderFault → Option String
  | mk _ d _ _ => d

def place : RenderFault → Option (String × Nat)
  | mk _ _ p _ => p

def cause : RenderFault → Cause
  | mk _ _ _ c => c

/-- A fault with a detail that arose at no known place. -/
def of (k : FaultKind) (detail : String) : RenderFault := mk k (some detail) none .none

def bare (k : FaultKind) : RenderFault := mk k none none .none

def causedBy (f : RenderFault) (c : Cause) : RenderFault := mk f.kind f.detail f.place c

/-- Notes where the fault arose, unless that is known already. -/
def placed (f : RenderFault) (template : String) (line : Nat) : RenderFault :=
  match f.place with
  | some _ => f
  | none => mk f.kind f.detail (some (template, line)) f.cause

/-- The sentence for a fault. The detail of a fault of form is not part of it. -/
def message (f : RenderFault) : String :=
  f.kind.name ++
    (match f.kind, f.detail with
      | .form, _ => ""
      | _, some d => ": " ++ d
      | _, none => "") ++
    (match f.place with
      | some (t, l) => " (in " ++ t ++ ":" ++ toString l ++ ")"
      | none => "")

end RenderFault

namespace Failure

def «at» (s : Stage) (f : Failure) : Failure := .staged s f

/-- The sentence for a failure. -/
def message : Failure → String
  | .io f => "IO error: " ++ f.message ++ "."
  | .parse d => "Parse error: " ++ d ++ "."
  | .templateNotFound n => "Template not found: '" ++ n ++ "'."
  | .invalidMode t m a =>
    "Invalid mode '" ++ m ++ "' for tag '" ++ t ++ "' (available: " ++ ", ".intercalate a ++ ")."
  | .render t f => "Render error in template '" ++ t ++ "': " ++ f.message ++ "."
  | .specificationNotFound p => "Specification file not found: '" ++ p.text ++ "'."
  | .specification d => "Specification error: " ++ d ++ "."
  | .conflict p r => "Filesystem conflict at '" ++ p.text ++ "': " ++ r ++ "."
  | .ioFailure p f => "Failed to materialize '" ++ p.text ++ "': " ++ f.message ++ "."
  | .validation d => "Validation error: " ++ d ++ "."
  | .config d => "Configuration error: " ++ d ++ "."
  | .staged s f => "Stage '" ++ s.name ++ "' failed: " ++ message f

/-- The failure inside all stages. -/
def rootCause : Failure → Failure
  | .staged _ f => rootCause f
  | f => f

/-- The outermost stage. -/
def stage? : Failure → Option Stage
  | .staged s _ => some s
  | _ => none

mutual

/-- The failure that started it all, found through stages and through rendered children. -/
def innermost : Failure → Failure
  | .staged _ f => innermost f
  | .render t f => (ofFault f).getD (.render t f)
  | f => f

/-- The failure that started a fault, if a failure is among its causes. -/
def ofFault : RenderFault → Option Failure
  | .mk _ _ _ c => ofCause c

def ofCause : Cause → Option Failure
  | .none => none
  | .failure f => some (innermost f)
  | .fault f => ofFault f

end

end Failure

end Scaffold
