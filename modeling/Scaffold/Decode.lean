import Scaffold.Number.Shortest
import Scaffold.Text.Quoted

/-!
# Faults of reading a document with expectations

A reader that expects certain shapes stops at the first thing it does not expect. `Decode.Fault`
says what it was; `Fault.message` writes it in the `Wording` of the document's format.
-/

namespace Scaffold.Decode

open Number

/-- What stands in a document where something else was expected. -/
inductive Found
  | null
  | bool (b : Bool)
  | int (i : Int)
  | wide (i : Int)
  | real (x : Binary64)
  | string (s : String)
  | sequence
  | map
  | tagged
deriving Inhabited

inductive Fault
  /-- The text breaks the rules of its format. -/
  | form
  | invalidType (found : Found) (expected : String)
  | invalidValue (found : Found) (expected : String)
  | invalidLength (length : Nat) (expected : String)
  | missingField (name : String)
  | duplicateField (name : String)
  | unknownField (name : String) (known : List String)
  | unknownVariant (name : String) (known : List String)
  | taggedNotSupported
deriving Inhabited

/-- How a format speaks of nulls and of floating point numbers. -/
structure Wording where
  null : String
  layout : Layout

/-- JSON speaks of null, and writes numbers as its text does. -/
def Wording.json : Wording := ⟨"null", .signed⟩

/-- Other formats speak of a unit value, and never write an exponent. -/
def Wording.plain : Wording := ⟨"unit value", .positional⟩

def ticked (s : String) : String := "`" ++ s ++ "`"

def Found.text (w : Wording) : Found → String
  | .null => w.null
  | .bool b => "boolean " ++ ticked (if b then "true" else "false")
  | .int i => "integer " ++ ticked (toString i)
  | .wide i => "integer " ++ ticked (toString i) ++ (if i < 0 then " as i128" else " as u128")
  | .real x => "floating point " ++ ticked (w.layout.write "NaN" x)
  | .string s => "string " ++ Text.quoted s
  | .sequence => "sequence"
  | .map => "map"
  | .tagged => "enum"

/-- An enumeration of names: one alone, two with `or`, more after `one of`. -/
def oneOf : List String → String
  | [] => "there are no fields"
  | [a] => "expected " ++ ticked a
  | [a, b] => "expected " ++ ticked a ++ " or " ++ ticked b
  | l => "expected one of " ++ ", ".intercalate (l.map ticked)

/-- The sentence for a fault; a fault of form has none. -/
def Fault.message? (w : Wording) : Fault → Option String
  | .form => none
  | .invalidType f e => some ("invalid type: " ++ f.text w ++ ", expected " ++ e)
  | .invalidValue f e => some ("invalid value: " ++ f.text w ++ ", expected " ++ e)
  | .invalidLength n e => some ("invalid length " ++ toString n ++ ", expected " ++ e)
  | .missingField n => some ("missing field " ++ ticked n)
  | .duplicateField n => some ("duplicate field " ++ ticked n)
  | .unknownField n known => some ("unknown field " ++ ticked n ++ ", " ++ oneOf known)
  | .unknownVariant n known => some ("unknown variant " ++ ticked n ++ ", " ++ oneOf known)
  | .taggedNotSupported =>
    some "untagged and internally tagged enums do not support enum input"

/-- The sentence for a fault, where a fault of form is only named. -/
def Fault.message (w : Wording) (f : Fault) : String := (f.message? w).getD "<syntax>"

end Scaffold.Decode
