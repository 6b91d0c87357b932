import Scaffold.Json.Indented
import Scaffold.Template.Filter.Number
import Scaffold.Template.Filter.Row
import Scaffold.Template.Filter.Text
import Scaffold.Template.Test
import Scaffold.Text.Percent

/-!
# Filters by name

All filters, those that apply other filters and tests to what a value consists of included.
-/

namespace Scaffold.Template.Filter

open Taking

/-- Finds a filter or a test by its name. -/
structure Finder where
  filter? : String → Option (List Value → Run Value)
  test? : String → Option (List Value → Run Bool)

def escape : Taking Value := do
  let v ← value
  finish
  if v.isSafe then pure v
  else do
    let s ← (get : Run Machine)
    let e := if s.escaping = .none then .html else s.escaping
    pure (.text (← Run.ofExcept (writtenText s.heap e v)) true)

/-- Another value in the place of one that is undefined or, if asked for, counts as false. -/
def default : Taking Value := do
  let os ← options
  let v ← value
  let other ← next?
  let lax ← optional Form.bool
  finish
  let lax := lax.getD ((← os.get "boolean" Form.bool).getD false)
  os.onlyFrom ["boolean"]
  let h ← Run.heap
  if v.isUndefined || (lax && !v.isTrue h) then pure (other.getD (.ofText "")) else pure v

def attr : Taking Value := do
  let v ← value
  let key ← value
  finish
  Run.itemOf v key

def string : Taking Value := do
  let v ← value
  finish
  match v with
  | .text .. => pure v
  | v => pure (.ofText (v.shown (← Run.heap)))

def bool : Taking Value := do
  let v ← value
  finish
  pure (.bool (v.isTrue (← Run.heap)))

def pprint : Taking Value := do
  let v ← value
  finish
  pure (.ofText (v.datum (← Run.heap)).spread)

/-- How a character of JSON text is written where the text may stand in HTML. -/
def jsonChar (c : Char) : List Char :=
  match c with
  | '<' => "\\u003c".toList
  | '>' => "\\u003e".toList
  | '&' => "\\u0026".toList
  | '\'' => "\\u0027".toList
  | c => [c]

/-- The number of blanks by which JSON text is indented, if it is. -/
def indentOf (v : Value) : Run (Option Nat) := do
  match v with
  | .bool true => pure (some 2)
  | .bool false => pure none
  | v => do pure (some (← Form.count v))

def tojson : Taking Value := do
  let os ← options
  let v ← value
  let width ← optional pure
  finish
  let width ← match width with
    | some w => pure (some w)
    | none => os.get "indent" pure
  let width ← match width with
    | some w => indentOf w
    | none => pure none
  os.onlyFrom ["indent"]
  let j ← Run.ofExcept
    (jsonOf (← Run.heap) .badSerialization "cannot serialize to JSON" v)
  let cs := match width with
    | some n => j.indented n
    | none => j.chars
  pure (.text (String.ofList (cs.flatMap jsonChar)) true)

def urlencode : Taking Value := do
  let v ← value
  finish
  let h ← Run.heap
  match v.kind with
  | .map =>
    let shown := ((v.pairs? h).getD []).filter fun p => !isLeftOut p.2
    pure (.ofText ("&".intercalate (shown.map fun p =>
      Text.percentEncoded (p.1.shown h) ++ "=" ++ Text.percentEncoded (p.2.shown h))))
  | _ => if isLeftOut v then pure (.ofText "") else pure (.ofText (Text.percentEncoded (v.shown h)))

/-- Keeps the items of which a test, or their own truth, is as asked for. -/
def selectBy (f : Finder) (keep : Bool) (path : Option String) (v : Value) (test : Option String)
    (args : List Value) : Run Value := do
  let test ← match test with
    | some name =>
      match f.test? name with
      | some t => pure (some t)
      | none => throw (.bare .unknownTest)
    | none => pure none
  let h ← Run.heap
  let kept ← (← Run.iterated v).filterM fun v => do
    let tested ← match path with
      | some p => Run.follow v p
      | none => pure v
    let passed ← match test with
      | some t => t (tested :: args)
      | none => pure (tested.isTrue h)
    pure (passed == keep)
  pure (.list kept)

def select (f : Finder) (keep : Bool) : Taking Value := do
  let v ← value
  let test ← optional Form.text
  selectBy f keep none v test (← rest)

def selectattr (f : Finder) (keep : Bool) : Taking Value := do
  let v ← value
  let path ← asked Form.text
  let test ← optional Form.text
  selectBy f keep (some path) v test (← rest)

/-- The attribute of each item, or another value where there is none. -/
def mapAttribute (os : Options) (key v : Value) : Run Value := do
  let other := (os.lookup "default").getD (.undefined false)
  let one (v : Value) : Run Value :=
    match key with
    | .text path _ => Run.follow v path
    | key => Run.itemOf v key
  let found ← (← Run.iterated v).mapM fun v => do
    if other.isUndefined then one v
    else do
      let w ← tryCatch (one v) fun _ => pure (.undefined false)
      pure (if w.isUndefined then other else w)
  os.onlyFrom ["attribute", "default"]
  pure (.list found)

def map (f : Finder) : Taking Value := do
  let v ← value
  let all ← rest
  let (os, args) ← (options.run all : Run (Options × List Value))
  match ← os.get "attribute" pure with
  | some key =>
    if args.isEmpty then mapAttribute os key v else throw (.bare .tooManyArguments)
  | none =>
    match args with
    | [] => throw (.of .invalidOperation "filter name is required")
    | name :: args =>
      match name with
      | .text name _ =>
        match f.filter? name with
        | some g => do
          let ws ← (← Run.iterated v).mapM fun v => (g (v :: args) : Run Value)
          pure (.list ws)
        | none => throw (.bare .unknownFilter)
      | _ => throw (.of .invalidOperation "filter name must be a string")

/-- The filter of a name, given how filters and tests are found. -/
def named? (f : Finder) (name : String) : Option (Taking Value) :=
  match name with
  | "safe" => some safe
  | "escape" => some escape
  | "e" => some escape
  | "lower" => some (onText Text.lower)
  | "upper" => some (onText Text.upper)
  | "title" => some (onText title)
  | "capitalize" => some (onText capitalize)
  | "replace" => some replace
  | "length" => some length
  | "count" => some length
  | "dictsort" => some dictsort
  | "items" => some items
  | "reverse" => some reverse
  | "trim" => some trimmed
  | "join" => some join
  | "split" => some split
  | "lines" => some splitLines
  | "default" => some default
  | "d" => some default
  | "round" => some round
  | "abs" => some abs
  | "int" => some int
  | "float" => some float
  | "attr" => some attr
  | "first" => some first
  | "last" => some last
  | "min" => some min
  | "max" => some max
  | "sort" => some sort
  | "sum" => some sum
  | "list" => some list
  | "string" => some string
  | "bool" => some bool
  | "batch" => some batch
  | "slice" => some slice
  | "indent" => some indent
  | "select" => some (select f true)
  | "reject" => some (select f false)
  | "selectattr" => some (selectattr f true)
  | "rejectattr" => some (selectattr f false)
  | "map" => some (map f)
  | "groupby" => some groupby
  | "unique" => some unique
  | "chain" => some chain
  | "zip" => some zip
  | "pprint" => some pprint
  | "tojson" => some tojson
  | "urlencode" => some urlencode
  | _ => none

/-- Whether there is a filter of this name. -/
def isKnown (name : String) : Bool := (named? ⟨fun _ => none, fun _ => none⟩ name).isSome

def test? (name : String) : Option (List Value → Run Bool) := Test.run isKnown name

/-- Filters in which others are applied as often as `depth` allows. -/
def within : Nat → String → Option (List Value → Run Value)
  | 0, _ => none
  | depth + 1, name =>
    (named? ⟨within depth, test?⟩ name).map fun t args => t.run' args

/-- Applies a filter to a value and arguments. A filter that applies another one uses up an argument
for its name. -/
def apply (name : String) (args : List Value) : Run Value :=
  match within (args.length + 1) name with
  | some f => f args
  | none => throw (.of .unknownFilter ("filter " ++ name ++ " is unknown"))

def applyTest (name : String) (args : List Value) : Run Bool :=
  match test? name with
  | some t => t args
  | none => throw (.of .unknownTest ("test " ++ name ++ " is unknown"))

end Scaffold.Template.Filter
