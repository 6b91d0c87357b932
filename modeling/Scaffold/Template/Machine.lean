import Scaffold.Store.Inquiry
import Scaffold.Template.Operation

/-!
# The state of a rendering

`Run α` is an activity that renders: it reads and assigns names, writes text, asks for templates and
modes, and gives a result or fails with a fault. Names stand in frames, the innermost first; loops,
blocks, macros and scopes have frames of their own.
-/

namespace Scaffold.Template

/-- How values are written. -/
inductive Escaping
  | none
  | html
  | json
deriving DecidableEq, Inhabited

/-- What a recursive loop does with the items that it is called with. Faults in these are blamed
on the line of its head. -/
structure Repetition where
  line : Nat
  target : Target
  body : List Statement
deriving Inhabited

/-- The loop that a frame belongs to. Without a name it cannot be referred to. -/
structure LoopPlace where
  cell : Nat
  named : Bool
  repetition : Option Repetition
deriving Inhabited

/-- Where names are looked up that a frame does not assign itself. -/
inductive Ground
  | nothing
  | given (v : Value)
  | closure (cell : Nat)
deriving Inhabited

structure Frame where
  ground : Ground
  locals : List (String × Value)
  closure : Option Nat
  loop : Option LoopPlace
deriving Inhabited

def Frame.on (g : Ground) : Frame := ⟨g, [], none, none⟩

/-- A body with the name of the template that it stands in. -/
structure Placed where
  home : String
  body : List Statement
deriving Inhabited

/-- The versions of a block, that of the innermost template first, and the one that is in use. -/
structure BlockStack where
  versions : List Placed
  level : Nat
deriving Inhabited

structure Machine where
  heap : Heap
  frames : List Frame
  /-- The depth of what surrounds the frames. -/
  outer : Nat
  out : String
  discarding : Bool
  escaping : Escaping
  blocks : List (String × BlockStack)
  block : Option String
  /-- The names of the templates that blocks were taken from. -/
  loaded : List String
  /-- The template that is rendered instead of the present one, when this has come to its end. -/
  parent : Option Template
  /-- What had been written, and whether it was to be discarded, when a parent was found. -/
  kept : String × Bool
deriving Inhabited

abbrev Run := ExceptT RenderFault (StateT Machine Inquiry)

namespace Run

variable {α : Type}

def fail (f : RenderFault) : Run α := throw f

def failWith (k : FaultKind) (detail : String) : Run α := throw (.of k detail)

def ofExcept (r : Except RenderFault α) : Run α :=
  match r with
  | .ok a => pure a
  | .error f => throw f

/-- Blames faults that arise in `m` on a line of a template, unless a place is known. -/
def blaming (home : String) (line : Nat) (m : Run α) : Run α :=
  tryCatch m fun f => throw (f.placed home line)

/-- Asks what an inquiry asks. -/
def ask (q : Inquiry α) : Run α := liftM q

/-- The result of an inquiry that may fail. -/
def askOr (toFault : Failure → RenderFault) (q : Inquiry (Except Failure α)) : Run α := do
  match ← ask q with
  | .ok a => pure a
  | .error f => throw (toFault f)

def heap : Run Heap := do pure (← get).heap

def newCell (c : Cell) : Run Nat := do
  let s ← get
  let (n, h) := s.heap.new c
  set { s with heap := h }
  pure n

def setCell (n : Nat) (c : Cell) : Run Unit := modify fun s => { s with heap := s.heap.set n c }

def write (t : String) : Run Unit := modify fun s => { s with out := s.out ++ t }

/-- How deeply frames may be nested. -/
def depthLimit : Nat := 500

def tooDeep : RenderFault := .of .invalidOperation "recursion limit exceeded"

/-- Fails if the frames are nested too deeply. -/
def checkDepth : Run Unit := do
  let s ← get
  if depthLimit < s.outer + s.frames.length then fail tooDeep

/-- Runs in a new frame. -/
def inFrame (f : Frame) (m : Run α) : Run α := do
  modify fun s => { s with frames := f :: s.frames }
  checkDepth
  let a ← m
  modify fun s => { s with frames := s.frames.drop 1 }
  pure a

/-- The text that `m` writes. -/
def captured (discarding : Bool) (m : Run α) : Run (α × String) := do
  let s ← get
  set { s with out := "", discarding := discarding }
  let a ← m
  let t := (← get).out
  modify fun r => { r with out := s.out, discarding := s.discarding }
  pure (a, t)

/-- The text of a body as a value, which is safe where values are escaped. -/
def textValue (t : String) : Run Value := do
  pure (.text t ((← get).escaping != .none))

/-- The value that a frame has for a name. -/
def inFrame? (h : Heap) (name : String) (f : Frame) : Option Value :=
  match f.locals.lookup name with
  | some v => some v
  | none =>
    match f.loop with
    | some l => if l.named && name == "loop" then some (.loop l.cell) else grounded
    | none => grounded
where
  grounded : Option Value :=
    match f.ground with
    | .nothing => none
    | .given v => v.attribute? h name
    | .closure n => (h.fields n).lookup name

/-- The functions by name. -/
def builtin? : String → Option Value
  | "range" => some (.builtin .range)
  | "dict" => some (.builtin .dictionary)
  | "namespace" => some (.builtin .space)
  | "debug" => some (.builtin .inspect)
  | _ => none

/-- The value of a name. -/
def lookup? (name : String) : Run (Option Value) := do
  let s ← get
  pure ((s.frames.findSome? (inFrame? s.heap name)).or (builtin? name))

def lookup (name : String) : Run Value := do
  pure ((← lookup? name).getD (.undefined false))

/-- Assigns a name in the innermost frame. -/
def assign (name : String) (v : Value) : Run Unit := do
  let s ← get
  match s.frames with
  | [] => pure ()
  | f :: r =>
    let h := match f.closure with
      | some n => s.heap.set n (.fields (Entries.put name v (s.heap.fields n)))
      | none => s.heap
    set { s with heap := h, frames := { f with locals := Entries.put name v f.locals } :: r }

/-- The cell that the macros of the innermost frame share. -/
def closure : Run Nat := do
  let s ← get
  match s.frames with
  | [] => newCell (.fields [])
  | f :: r =>
    match f.closure with
    | some n => pure n
    | none =>
      let (n, h) := s.heap.new (.fields [])
      set { s with heap := h, frames := { f with closure := some n } :: r }
      pure n

/-- Makes a name known to the macros of the innermost frame. -/
def enclose (cell : Nat) (name : String) : Run Unit := do
  let v ← lookup name
  let h ← heap
  match (h.fields cell).lookup name with
  | some _ => pure ()
  | none => setCell cell (.fields (Entries.put name v (h.fields cell)))

/-- Whether a value, which has to be defined, counts as true. -/
def truth (v : Value) : Run Bool := do
  match v with
  | .undefined false => fail (.bare .undefinedValue)
  | v => pure (v.isTrue (← heap))

/-- What a value, which has to be defined, consists of. -/
def iterated (v : Value) : Run (List Value) := do
  match v with
  | .undefined false => fail (.bare .undefinedValue)
  | v =>
    match v.items? (← heap) with
    | some items => pure items
    | none => failWith .invalidOperation (v.kind.name ++ " is not iterable")

/-- A part that may be missing, of a value that has to be defined. -/
def part (owner : Value) (v : Option Value) : Run Value :=
  match v with
  | some v => pure v
  | none => if owner.isUndefined then fail (.bare .undefinedValue) else pure (.undefined false)

/-- The attribute of a value that has to be defined. -/
def attributeOf (v : Value) (name : String) : Run Value := do
  part v (v.attribute? (← heap) name)

def itemOf (v key : Value) : Run Value := do part v (v.item? (← heap) key)

/-- The value at the end of a path of names and numbers separated by dots. -/
def follow (v : Value) (path : String) : Run Value :=
  ((Text.splitAll '.' path.toList).map String.ofList).foldlM step v
where
  step (v : Value) (name : String) : Run Value :=
    match Number.natural? 10 name.toList with
    | some n => itemOf v (.int n)
    | none => attributeOf v name

/-- The value at the end of a path, or another if there is none. -/
def followOr (v : Value) (path : String) (other : Value) : Run Value := do
  let found ← tryCatch (some <$> follow v path) fun _ => pure none
  match found with
  | some v => pure (if v.isUndefined then other else v)
  | none => pure other

end Run

/-- How a character is written in HTML. -/
def htmlChar (c : Char) : String :=
  match c with
  | '<' => "&lt;"
  | '>' => "&gt;"
  | '&' => "&amp;"
  | '"' => "&quot;"
  | '\'' => "&#x27;"
  | '/' => "&#x2f;"
  | c => String.singleton c

def htmlText (s : String) : String := String.join (s.toList.map htmlChar)

/-- The JSON form of a value. -/
def jsonOf (h : Heap) (k : FaultKind) (detail : String) (v : Value) : Except RenderFault Json :=
  match (v.datum h).toJson? with
  | some j => .ok j
  | none => .error (.of k detail)

/-- The text of a value as it is written. Safe texts are written as they are. -/
def writtenText (h : Heap) (e : Escaping) (v : Value) : Except RenderFault String :=
  match e, v with
  | .none, v => .ok (v.shown h)
  | _, .text s true => .ok s
  | .html, v => .ok (htmlText (v.shown h))
  | .json, v => (jsonOf h .badSerialization "unable to format to JSON" v).map Json.compact

/-- Writes a value, which has to be defined. -/
def Run.emit (v : Value) : Run Unit := do
  match v with
  | .undefined false => fail (.bare .undefinedValue)
  | v =>
    let s ← get
    write (← ofExcept (writtenText s.heap s.escaping v))

end Scaffold.Template
