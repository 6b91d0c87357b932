import Scaffold.Template.Argument
import Scaffold.Text.Case

/-!
# Tests

What can be asked about a value behind the word `is`, and by filters that select.
-/

namespace Scaffold.Template.Test

open Taking

/-- A test of a value by itself. -/
def ofValue (p : Heap → Value → Bool) : Taking Bool := do
  let v ← value
  finish
  pure (p (← Run.heap) v)

/-- A test of a value against another. -/
def ofPair (p : Heap → Value → Value → Bool) : Taking Bool := do
  let v ← value
  let w ← value
  finish
  pure (p (← Run.heap) v w)

def ofString (p : String → Bool) : Taking Bool := do
  let s ← asked Form.string
  finish
  pure (p s)

def ofTexts (p : List Char → List Char → Bool) : Taking Bool := do
  let s ← asked Form.text
  let t ← asked Form.text
  finish
  pure (p s.toList t.toList)

def isTrueItself : Value → Bool
  | .bool b => b
  | _ => false

def isFalseItself : Value → Bool
  | .bool b => !b
  | _ => false

def isInteger : Value → Bool
  | .int _ => true
  | _ => false

def isReal : Value → Bool
  | .real _ => true
  | _ => false

def divides (h : Heap) (v w : Value) : Bool :=
  match Value.coerce? h v w with
  | some (.ints i j) => j != 0 && i % j == 0
  | some (.reals x y) => (Number.Binary64.remainder x y).isZero
  | _ => false

/-- Whether two values are one: of the same kind, both integers or neither, and equal. Values have no
identity here, so two objects that are equal count as one, which the engine may tell apart. -/
def isOne (h : Heap) (v w : Value) : Bool :=
  v.kind == w.kind && isInteger v == isInteger w && (v.datum h).same (w.datum h)

def ordered (p : Ordering → Bool) : Taking Bool :=
  ofPair fun h v w => p ((v.datum h).order (w.datum h))

def contained : Taking Bool := do
  let v ← value
  let w ← value
  finish
  let h ← Run.heap
  match w with
  | .undefined _ => pure false
  | w => Run.ofExcept (Value.contains h v w)

def same (h : Heap) (v w : Value) : Bool := (v.datum h).same (w.datum h)

/-- The tests that can be named with signs. -/
def sign? : String → Option (Taking Bool)
  | "==" => some (ofPair same)
  | "!=" => some (ofPair fun h v w => !same h v w)
  | "<" => some (ordered (· == .lt))
  | "<=" => some (ordered (· != .gt))
  | ">" => some (ordered (· == .gt))
  | ">=" => some (ordered (· != .lt))
  | _ => none

/-- The test of a name, given the names of filters and tests. -/
def named? (isFilter isTest : String → Bool) (name : String) : Option (Taking Bool) :=
  match name with
  | "undefined" => some (ofValue fun _ v => v.isUndefined)
  | "defined" => some (ofValue fun _ v => !v.isUndefined)
  | "none" => some (ofValue fun _ v => v.isNone)
  | "safe" => some (ofValue fun _ v => v.isSafe)
  | "escaped" => some (ofValue fun _ v => v.isSafe)
  | "boolean" => some (ofValue fun _ v => v.kind == .bool)
  | "odd" => some (ofValue fun _ v => v.integer?.any (· % 2 == 1))
  | "even" => some (ofValue fun _ v => v.integer?.any (· % 2 == 0))
  | "divisibleby" => some (ofPair divides)
  | "number" => some (ofValue fun _ v => v.kind == .number)
  | "integer" => some (ofValue fun _ v => isInteger v)
  | "int" => some (ofValue fun _ v => isInteger v)
  | "float" => some (ofValue fun _ v => isReal v)
  | "string" => some (ofValue fun _ v => v.kind == .string)
  | "sequence" => some (ofValue fun _ v => v.kind == .sequence)
  | "iterable" => some (ofValue fun h v => (v.items? h).isSome)
  | "mapping" => some (ofValue fun _ v => v.kind == .map)
  | "startingwith" => some (ofTexts fun s t => t.isPrefixOf s)
  | "endingwith" => some (ofTexts fun s t => t.reverse.isPrefixOf s.reverse)
  | "lower" => some (ofString fun s => s.toList.all Text.isLowercase)
  | "upper" => some (ofString fun s => s.toList.all Text.isUppercase)
  | "sameas" => some (ofPair isOne)
  | "eq" => some (ofPair same)
  | "equalto" => some (ofPair same)
  | "ne" => some (ofPair fun h v w => !same h v w)
  | "lt" => some (ordered (· == .lt))
  | "lessthan" => some (ordered (· == .lt))
  | "le" => some (ordered (· != .gt))
  | "gt" => some (ordered (· == .gt))
  | "greaterthan" => some (ordered (· == .gt))
  | "ge" => some (ordered (· != .lt))
  | "in" => some contained
  | "true" => some (ofValue fun _ v => isTrueItself v)
  | "false" => some (ofValue fun _ v => isFalseItself v)
  | "filter" => some (ofString isFilter)
  | "test" => some (ofString isTest)
  | name => sign? name

/-- Whether there is a test of this name. -/
def isKnown (name : String) : Bool := (named? (fun _ => false) (fun _ => false) name).isSome

/-- Runs a test. -/
def run (isFilter : String → Bool) (name : String) : Option (List Value → Run Bool) :=
  (named? isFilter isKnown name).map fun t args => t.run' args

end Scaffold.Template.Test
