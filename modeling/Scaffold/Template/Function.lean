import Scaffold.Template.Argument

/-!
# Functions

What every template may call: `range`, `dict`, `namespace` and `debug`. What `debug` shows of the
state of a rendering is described by `stateText`.
-/

namespace Scaffold.Template.Builtin

open Taking

/-- The most numbers that a range may have. -/
def rangeLimit : Nat := 100000

/-- The number of steps from one number up or down to another, which is left out. -/
def stepCount (low high step : Int) : Nat :=
  if 0 < step then ((high - low + step - 1) / step).toNat
  else ((low - high - step - 1) / (-step)).toNat

def rangeOf : Taking Value := do
  let first ← asked Form.int64
  let second ← optional Form.int64
  let step ← optional Form.int64
  finish
  let step := step.getD 1
  let (low, high) := match second with
    | some high => (first, high)
    | none => (0, first)
  if step = 0 then throw (.of .invalidOperation "cannot create range with step of 0")
  let n := stepCount low high step
  if rangeLimit < n then throw (.of .invalidOperation "range has too many elements")
  pure (.stream ((List.range n).map fun (i : Nat) => Value.int (low + step * (i : Int))))

/-- A map of the members of another and of the named arguments. -/
def mapOf : Taking Value := do
  let os ← options
  let v ← optional pure
  finish
  let h ← Run.heap
  let own ← match v with
    | none => pure []
    | some v =>
      match v.pairs? h with
      | some ps => pure ps
      | none => throw (.bare .invalidOperation)
  pure (.map (Member.putAll h (own ++ os.map fun o => (Value.ofText o.1, o.2))))

/-- A namespace with the members of a map. -/
def spaceOf : Taking Value := do
  let v ← optional pure
  finish
  let h ← Run.heap
  let es ← match v with
    | none => pure []
    | some v =>
      match v.pairs? h with
      | some ps => pure (ps.filterMap fun p => p.1.text?.map fun k => (k, p.2))
      | none =>
        throw (.of .invalidOperation
          ("expected object or keyword arguments, got " ++ v.kind.name))
  pure (.space (← Run.newCell (.fields (es.foldl (fun acc e => Entries.put e.1 e.2 acc) []))))

/-- The name of a way of writing values, as it is shown. -/
def escapingName : Escaping → String
  | .none => "None"
  | .html => "Html"
  | .json => "Json"

/-- The names that a frame has values for. -/
def namesIn (h : Heap) (f : Frame) : List String :=
  Entries.keys f.locals ++ (if f.loop.any LoopPlace.named then ["loop"] else []) ++
    match f.ground with
    | .nothing => []
    | .given v => ((v.pairs? h).getD []).filterMap fun p => p.1.text?
    | .closure n => Entries.keys (h.fields n)

/-- The names that can be seen and their values, those of the innermost frame first. -/
def visible (s : Machine) : List (String × Value) :=
  (s.frames.flatMap (namesIn s.heap)).eraseDups.filterMap fun n =>
    (s.frames.findSome? (Run.inFrame? s.heap n)).map (n, ·)

/-- A record over several lines. -/
def recordText (title : String) (fields : List (String × String)) : String :=
  Datum.listing (title ++ " \x7b") "\x7d" (fields.map fun f => f.1 ++ ": " ++ f.2)

/-- The state of a rendering over several lines: the block, the way of writing values, the names that
can be seen, and the templates that are kept, in order of their names. The name of the template and
the functions, tests and filters that the engine also shows are left out. -/
def stateText (s : Machine) (kept : List String) : String :=
  let block := match s.block with
    | some n => Datum.listing "Some(" ")" [Text.quoted n]
    | none => "None"
  let names := (Value.map (Member.ofEntries (visible s))).datum s.heap
  let templates := Datum.list (kept.map .text)
  recordText "State" [("current_block", block), ("auto_escape", escapingName s.escaping),
    ("ctx", names.spread), ("env", recordText "Environment" [("templates", templates.spread)])]

/-- The values over several lines, or the state of the rendering if there are none. -/
def inspected : Taking Value := do
  let vs ← rest
  let h ← Run.heap
  match vs with
  | [] => do
    let names ← Run.ask Inquiry.keptNames
    let s ← (get : Run Machine)
    pure (.ofText (stateText s names))
  | [v] => pure (.ofText (v.datum h).spread)
  | vs => pure (.ofText ((Value.list vs).datum h).spread)

def call : Builtin → List Value → Run Value
  | range, args => rangeOf.run' args
  | dictionary, args => mapOf.run' args
  | space, args => spaceOf.run' args
  | inspect, args => inspected.run' args

end Scaffold.Template.Builtin
