import Scaffold.Template.Machine

/-!
# Arguments

`Taking α` takes arguments one after the other and turns each into what is asked for. Options,
the named arguments of a call, stand last and are taken first.
-/

namespace Scaffold.Template

abbrev Taking := StateT (List Value) Run

/-- The named arguments of a call. -/
abbrev Options := List (String × Value)

namespace Taking

variable {α : Type}

/-- Takes the next argument if there is one. -/
def next? : Taking (Option Value) := do
  match ← get with
  | [] => pure none
  | v :: r =>
    set r
    pure (some v)

def value : Taking Value := do
  match ← next? with
  | some v => pure v
  | none => throw (.bare .missingArgument)

/-- Takes all arguments that are left. -/
def rest : Taking (List Value) := do
  let vs ← get
  set ([] : List Value)
  pure vs

/-- Takes an argument in a given form. It has to be defined. -/
def asked (form : Value → Run α) : Taking α := do
  match ← value with
  | .undefined false => throw (.bare .undefinedValue)
  | v => form v

/-- Whether an argument counts as left out. -/
def isLeftOut : Value → Bool
  | .undefined _ => true
  | .none => true
  | _ => false

/-- Takes an argument that may be left out. -/
def optional (form : Value → Run α) : Taking (Option α) := do
  match ← next? with
  | some v => if isLeftOut v then pure none else some <$> form v
  | none => pure none

/-- Takes the named arguments. -/
def options : Taking Options := do
  let vs ← get
  match vs.getLast? with
  | some (.options ms) =>
    set vs.dropLast
    pure (ms.filterMap fun m => m.key.text?.map fun k => (k, m.value))
  | _ => pure []

/-- Fails if arguments are left. -/
def finish : Taking Unit := do
  match ← get with
  | [] => pure ()
  | _ :: _ => throw (.bare .tooManyArguments)

end Taking

namespace Form

/-- Any value, as the text that it is written as. -/
def text (v : Value) : Run String := do
  match v with
  | .options _ => throw (.of .invalidOperation "cannot convert kwargs to string")
  | v => pure (v.shown (← Run.heap))

/-- A value that is a text. -/
def string (v : Value) : Run String :=
  match v with
  | .text s _ => pure s
  | _ => throw (.of .invalidOperation "value is not a string")

def unfit {α : Type} (v : Value) (type : String) : Run α :=
  throw (.of .invalidOperation ("cannot convert " ++ v.kind.name ++ " to " ++ type))

def bool (v : Value) : Run Bool :=
  match v with
  | .bool b => pure b
  | v => unfit v "bool"

/-- An integer within bounds. -/
def integer (type : String) (low high : Int) (v : Value) : Run Int :=
  match v.integer? with
  | some i => if low ≤ i ∧ i < high then pure i else unfit v type
  | none => unfit v type

/-- A count of things. -/
def count (v : Value) : Run Nat := do pure (← integer "usize" 0 (Number.pow2 64) v).toNat

def int32 (v : Value) : Run Int := integer "i32" (-(Number.pow2 31)) (Number.pow2 31) v

def int64 (v : Value) : Run Int := integer "i64" (-(Number.pow2 63)) (Number.pow2 63) v

end Form

namespace Options

variable {α : Type}

/-- The option of a name, if it is given. -/
def get (os : Options) (name : String) (form : Value → Run α) : Run (Option α) :=
  match os.lookup name with
  | some v => if Taking.isLeftOut v then pure none else some <$> form v
  | none => pure none

/-- Fails if there are other options than these. -/
def onlyFrom (os : Options) (names : List String) : Run Unit :=
  match os.find? fun o => !names.contains o.1 with
  | some (k, _) => throw (.of .tooManyArguments ("unknown keyword argument '" ++ k ++ "'"))
  | none => pure ()

end Options

end Scaffold.Template
