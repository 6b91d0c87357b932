import Scaffold.Template.Block
import Scaffold.Template.Function
import Scaffold.Template.Loop

/-!
# Calls

What can be called: functions, macros, the methods of nodes and of running loops, and the names
`super` and `loop`, which stand for bodies around the call.
-/

namespace Scaffold.Template

/-- The value of each parameter of a macro. -/
def bindParameters (os : Options) : List String → List Value → Run (List (String × Value))
  | [], _ => pure []
  | p :: ps, vs => do
    let v ← match vs.head?, os.lookup p with
      | some _, some _ => Run.failWith .tooManyArguments ("duplicate argument `" ++ p ++ "`")
      | some v, none => pure v
      | none, some v => pure v
      | none, none => pure (.undefined false)
    pure ((p, v) :: (← bindParameters os ps vs.tail))

/-- What calling a macro adds to the depth, besides its frame. -/
def macroCost : Nat := 4

/-- Runs in frames that see nothing but what is given, and gives the text that is written. -/
def apart (frame : Frame) (m : Run Unit) : Run Value := do
  let s ← get
  set { s with
    frames := [frame], outer := s.outer + s.frames.length + macroCost, out := ""
    discarding := false, blocks := [], block := none, loaded := [], parent := none }
  Run.checkDepth
  m
  let r ← get
  let t := if r.parent.isSome then r.kept.1 else r.out
  modify fun r => { r with
    frames := s.frames, outer := s.outer, out := s.out, discarding := s.discarding
    blocks := s.blocks, block := s.block, loaded := s.loaded, escaping := s.escaping
    parent := s.parent, kept := s.kept }
  Run.textValue t

/-- Assigns the parameters of a macro, the last first. -/
def assignParameters (low : Lower) (home : String) (bound : List (String × Value)) :
    List (String × Option Expression) → Run Unit
  | [] => pure ()
  | (p, d) :: r => do
    let v := (bound.lookup p).getD (.undefined false)
    let v ← match v, d with
      | .undefined _, some e => low.eval home e
      | v, _ => pure v
    Run.assign p v
    assignParameters low home bound r

def callMacro (low : Lower) (home : String) (m : Macro) (closure : Nat) (takesCaller : Bool)
    (args : List Value) : Run Value := do
  let (os, vs) ← Taking.options.run args
  if m.parameters.length < vs.length then Run.fail (.bare .tooManyArguments)
  let bound ← bindParameters os m.parameters vs
  let known := m.parameters ++ (if takesCaller then ["caller"] else [])
  match os.find? fun o => !known.contains o.1 with
  | some (k, _) =>
    Run.failWith .tooManyArguments ("unknown keyword argument `" ++ k ++ "`")
  | none =>
    apart (Frame.on (.closure closure)) do
      if takesCaller then Run.assign "caller" ((os.lookup "caller").getD (.undefined false))
      assignParameters low home bound m.reversedParameters
      low.statements home m.body

def callValue (low : Lower) (v : Value) (args : List Value) : Run Value :=
  match v with
  | .builtin f => f.call args
  | .routine home m closure takesCaller => callMacro low home m closure takesCaller args
  | .loop _ =>
    Run.failWith .invalidOperation "loop cannot be called if reassigned to different variable"
  | v =>
    match v.kind with
    | .sequence | .iterator | .map =>
      Run.failWith .invalidOperation "tried to call non callable object"
    | k => Run.failWith .invalidOperation ("value of type " ++ k.name ++ " is not callable")

def renderChild (low : Lower) (n : Node) (args : List Value) : Run Value := do
  let take : Taking String := do
    let mode ← Form.string (← Taking.value)
    Taking.finish
    pure mode
  let mode ← take.run' args
  let toFault (f : Failure) : RenderFault :=
    (RenderFault.of .invalidOperation
      ("cannot render <" ++ n.tag ++ "> as '" ++ mode ++ "'")).causedBy (.failure f)
  pure (.text (← Run.askOr toFault (low.child n mode)) true)

def childModes (n : Node) (args : List Value) : Run Value := do
  if !args.isEmpty then Run.fail (.bare .tooManyArguments)
  let toFault (f : Failure) : RenderFault :=
    (RenderFault.of .invalidOperation ("cannot list modes of <" ++ n.tag ++ ">")).causedBy
      (.failure f)
  pure (.list ((← Run.askOr toFault (.modesOf n.tag)).map .ofText))

/-- Whether the arguments differ from those of the last such call. -/
def loopChanged (cell : Nat) (args : List Value) : Run Value := do
  let h ← Run.heap
  let r := h.running cell
  let same := match r.changed with
    | some vs => ((Value.list vs).datum h).same ((Value.list args).datum h)
    | none => false
  if same then pure (.bool false)
  else do
    Run.setCell cell (.running { r with changed := some args })
    pure (.bool true)

/-- The argument whose turn it is in this round. -/
def loopCycle (cell : Nat) (args : List Value) : Run Value := do
  let r := (← Run.heap).running cell
  pure (args[r.index % args.length]?.getD (.undefined false))

/-- Calls what a value has under a name. -/
def callAttribute (low : Lower) (v : Value) (name : String) (args : List Value) : Run Value := do
  match v.attribute? (← Run.heap) name with
  | some f => callValue low f args
  | none =>
    match v with
    | .loop _ => Run.failWith .unknownMethod ("loop object has no method named " ++ name)
    | v => Run.failWith .unknownMethod (v.kind.name ++ " has no method named " ++ name)

def callMethod (low : Lower) (v : Value) (name : String) (args : List Value) : Run Value :=
  match v, name with
  | .node n, "render" => renderChild low n args
  | .node n, "modes" => childModes n args
  | .loop c, "changed" => loopChanged c args
  | .loop c, "cycle" => loopCycle c args
  | v, name => callAttribute low v name args

/-- The named arguments of a call as the last of its arguments, if there are any. -/
def withOptions (args : List Value) (named : Option (List (Value × Value))) : Run (List Value) := do
  match named with
  | none => pure args
  | some ms => pure (args ++ [.options (Member.putAll (← Run.heap) ms)])

def Argument.isNamed : Argument → Bool
  | .named .. => true
  | .spreadNamed _ => true
  | _ => false

/-- The members of a map whose names and values are spread over a call. -/
def spreadMembers (v : Value) : Run (List (Value × Value)) := do
  match v with
  | .undefined false => Run.fail (.bare .undefinedValue)
  | v =>
    match v.pairs? (← Run.heap) with
    | some ps => pure ps
    | none =>
      Run.failWith .invalidOperation
        ("attempted to apply keyword arguments from non map (got " ++ v.kind.name ++ ")")

/-- Gives the text that a body writes. -/
def bodyText (m : Run Unit) : Run Value := do
  let (_, t) ← Run.captured false m
  Run.textValue t

/-- Calls a function by its name. -/
def callName (low : Lower) (home name : String) (args : List Value) : Run Value := do
  match name with
  | "super" =>
    if !args.isEmpty then Run.failWith .invalidOperation "super() takes no arguments"
    bodyText (callSuper low)
  | "loop" =>
    match args with
    | [items] => bodyText (recurse low home items)
    | args =>
      Run.failWith .invalidOperation
        ("loop() takes one argument, got " ++ toString args.length)
  | name =>
    match ← Run.lookup? name with
    | some f => callValue low f args
    | none => Run.failWith .unknownFunction (name ++ " is unknown")

/-- What a call is directed at. -/
inductive Callee
  | name (n : String)
  | block (n : String)
  | method (owner : Value) (n : String)
  | value (v : Value)
deriving Inhabited

def Callee.call (low : Lower) (home : String) (args : List Value) : Callee → Run Value
  | .name n => callName low home n args
  | .block n => bodyText (showBlock low n)
  | .method v n => callMethod low v n args
  | .value v => callValue low v args

end Scaffold.Template
