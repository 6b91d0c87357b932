import Scaffold.Json.Printer

/-!
# JSON text over several lines

Each item and each member stands on a line of its own, indented by its depth.
-/

namespace Scaffold.Json

/-- A line end and the blanks of a depth. -/
def lineBreak (width depth : Nat) : List Char := '\n' :: List.replicate (width * depth) ' '

/-- Items between brackets, each on its own line. -/
def bracketed (left right : Char) (width depth : Nat) (items : List (List Char)) : List Char :=
  if items.isEmpty then [left, right]
  else
    left :: (List.intercalate [','] (items.map fun i => lineBreak width (depth + 1) ++ i) ++
      (lineBreak width depth ++ [right]))

mutual

def indentedAt (width depth : Nat) : Json → List Char
  | .array items => bracketed '[' ']' width depth (indentedItems width (depth + 1) items)
  | .object ms => bracketed '\x7b' '\x7d' width depth (indentedMembers width (depth + 1) ms)
  | v => v.chars

def indentedItems (width depth : Nat) : List Json → List (List Char)
  | [] => []
  | v :: r => indentedAt width depth v :: indentedItems width depth r

def indentedMembers (width depth : Nat) : List (String × Json) → List (List Char)
  | [] => []
  | (k, v) :: r =>
    (quote k ++ ':' :: ' ' :: indentedAt width depth v) :: indentedMembers width depth r

end

/-- The text of a value with so many blanks for each level. -/
def indented (v : Json) (width : Nat) : List Char := indentedAt width 0 v

end Scaffold.Json
