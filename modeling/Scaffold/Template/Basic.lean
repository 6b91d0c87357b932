import Scaffold.Number.Binary64

/-!
# Templates

A template is a list of statements: text that is written as it stands, expressions whose values
are written, and control statements with bodies of their own. Expressions and statements carry the
line they begin on. The line at which an operation is blamed for a fault is that of the operand
read last before it (`Expression.blame`).
-/

namespace Scaffold.Template

/-- The values that can be written in a template. `nothing` is what a missing alternative of a
conditional expression stands for. -/
inductive Literal
  | nothing
  | none
  | bool (b : Bool)
  | int (i : Int)
  | real (x : Number.Binary64)
  | text (s : String)
deriving DecidableEq, Inhabited

inductive UnaryOperator
  | not
  | negate
deriving DecidableEq, Inhabited

/-- The operators that evaluate both operands. -/
inductive BinaryOperator
  | eq
  | ne
  | lt
  | le
  | gt
  | ge
  | member
  | add
  | sub
  | mul
  | div
  | floorDiv
  | rem
  | power
  | concat
deriving DecidableEq, Inhabited

mutual

inductive Expression
  | literal (line : Nat) (value : Literal)
  | name (line : Nat) (name : String)
  | list (line : Nat) (items : List Expression)
  | dictionary (line : Nat) (entries : List Entry)
  | unary (line : Nat) (op : UnaryOperator) (operand : Expression)
  | binary (op : BinaryOperator) (left right : Expression)
  | and (left right : Expression)
  | or (left right : Expression)
  | conditional (line : Nat) (test yes no : Expression)
  | attribute (operand : Expression) (name : String)
  | item (operand key : Expression)
  | slice (operand start stop step : Expression)
  | filtered (operand : Expression) (filter : Link)
  | tested (operand : Expression) (test : Link)
  | call (line : Nat) (callee : Expression) (arguments : List Argument)

/-- A key and its value in a written map. -/
inductive Entry
  | mk (key value : Expression)

/-- A filter or a test with its arguments. -/
inductive Link
  | mk (line : Nat) (name : String) (arguments : List Argument)

inductive Argument
  | value (e : Expression)
  | spread (e : Expression)
  | named (name : String) (e : Expression)
  | spreadNamed (e : Expression)

end

instance : Inhabited Expression := ⟨.literal 0 .none⟩

instance : Inhabited Link := ⟨.mk 0 "" []⟩

/-- What values are assigned to: a name, the parts of a list, or a field reached from a name. -/
inductive Target
  | name (name : String)
  | parts (line : Nat) (targets : List Target)
  | field (line : Nat) (root : String) (path : List String) (name : String)
deriving Inhabited

/-- A name to take from another template, and the name to give it. -/
structure Picked where
  name : String
  given : String
deriving DecidableEq, Inhabited

/-- A target with its value. -/
structure Binding where
  target : Target
  value : Expression
deriving Inhabited

mutual

inductive Statement
  | text (s : String)
  | emit (line : Nat) (e : Expression)
  | loop (line : Nat) (target : Target) (items : Expression) (guards : List Expression)
      (recursive : Bool) (body otherwise : List Statement)
  | branch (line : Nat) (test : Expression) (yes no : List Statement)
  | scope (line : Nat) (bindings : List Binding) (body : List Statement)
  | assign (target : Target) (e : Expression)
  | capture (line : Nat) (target : Target) (links : List Link) (body : List Statement)
  | escaping (mode : Expression) (body : List Statement)
  | filtering (line : Nat) (links : List Link) (body : List Statement)
  | block (line : Nat) (name : String) (body : List Statement)
  | inherit (line : Nat) (parent : Expression)
  | insert (line : Nat) (source : Expression) (ignoreMissing : Bool)
  | load (line : Nat) (source : Expression) (name : String)
  | pick (line : Nat) (source : Expression) (names : List Picked)
  | define (m : Macro)
  | callWith (line : Nat) (callee : Expression) (arguments : List Argument) (caller : Macro)
  | perform (line : Nat) (callee : Expression) (arguments : List Argument)
  | leave
  | skip

/-- A macro: its parameters, the last of which may have default values, and its body. -/
inductive Macro
  | mk (line : Nat) (name : String) (parameters : List String) (defaults : List Expression)
      (body : List Statement)

end

instance : Inhabited Statement := ⟨.leave⟩

namespace Macro

def name : Macro → String
  | mk _ n _ _ _ => n

def parameters : Macro → List String
  | mk _ _ p _ _ => p

def defaults : Macro → List Expression
  | mk _ _ _ d _ => d

def body : Macro → List Statement
  | mk _ _ _ _ b => b

/-- The parameters, last first, each with its default value if it has one. -/
def reversedParameters (m : Macro) : List (String × Option Expression) :=
  let ds := m.defaults.reverse.map some
  let ps := m.parameters.reverse
  ps.zip (ds ++ List.replicate (ps.length - ds.length) none)

end Macro

mutual

/-- Whether an expression is written out in full, without names or calls. -/
def Expression.isConstant : Expression → Bool
  | .literal .. => true
  | .list _ items => areConstant items
  | .dictionary _ es => areConstantEntries es
  | .unary _ _ e => e.isConstant
  | _ => false

def areConstant : List Expression → Bool
  | [] => true
  | e :: r => e.isConstant && areConstant r

def areConstantEntries : List Entry → Bool
  | [] => true
  | .mk k v :: r => k.isConstant && v.isConstant && areConstantEntries r

end

/-- Whether all named arguments are literals. -/
def haveConstantNames (args : List Argument) : Bool :=
  args.all fun a =>
    match a with
    | .named _ (.literal ..) => true
    | .named .. => false
    | .spreadNamed _ => false
    | _ => true

mutual

/-- The line on which the last part of an expression begins. -/
def Expression.blame : Expression → Nat
  | .literal l _ => l
  | .name l _ => l
  | .list l items => if areConstant items then l else blameItems l items
  | .dictionary l es => if areConstantEntries es then l else blameEntries l es
  | .unary _ _ e => e.blame
  | .binary _ _ r => r.blame
  | .and _ r => r.blame
  | .or _ r => r.blame
  | .conditional _ _ yes no => blameOptional yes.blame no
  | .attribute e _ => e.blame
  | .item _ k => k.blame
  | .slice e start stop step => blameOptional (blameOptional (blameOptional e.blame start) stop) step
  | .filtered e f => blameLink e.blame f
  | .tested e t => blameLink e.blame t
  | .call l (.name _ _) args => blameEach args (haveConstantNames args) l
  | .call _ (.attribute e _) args => blameEach args (haveConstantNames args) e.blame
  | .call _ e args => blameEach args (haveConstantNames args) e.blame

/-- The line of a part that may be left out. -/
def blameOptional (line : Nat) : Expression → Nat
  | .literal _ .nothing => line
  | e => e.blame

def blameItems (line : Nat) : List Expression → Nat
  | [] => line
  | e :: r => blameItems e.blame r

def blameEntries (line : Nat) : List Entry → Nat
  | [] => line
  | .mk _ v :: r => blameEntries v.blame r

def blameLink (line : Nat) : Link → Nat
  | .mk _ _ args => blameEach args (haveConstantNames args) line

/-- The line of the last argument that is not skipped. -/
def blameEach : List Argument → Bool → Nat → Nat
  | [], _, line => line
  | a :: r, skipNamed, line => blameEach r skipNamed (blameArgument a skipNamed line)

def blameArgument : Argument → Bool → Nat → Nat
  | .value e, _, _ => e.blame
  | .spread e, _, _ => e.blame
  | .named _ e, skipNamed, line => if skipNamed then line else e.blame
  | .spreadNamed e, _, _ => e.blame

end

/-- The line on which the last argument begins; named ones do not count if all are literals. -/
def blameArguments (line : Nat) (args : List Argument) : Nat :=
  blameEach args (haveConstantNames args) line

end Scaffold.Template

/-- A template that has been read. -/
structure Scaffold.Template where
  name : String
  body : List Scaffold.Template.Statement
deriving Inhabited
