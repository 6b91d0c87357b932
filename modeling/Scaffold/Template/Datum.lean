import Scaffold.Json.Printer
import Scaffold.Template.Value
import Scaffold.Text.Blank

/-!
# Values as data

A `Datum` is what a value amounts to at one moment: namespaces become maps, nodes become maps of
their tag, children and attributes, and what cannot be looked into is known by its text only. Data
are what is written, compared and turned into JSON.
-/

namespace Scaffold.Template

inductive Datum
  | undefined
  | none
  | bool (b : Bool)
  | int (i : Int)
  | real (x : Number.Binary64)
  | text (s : String)
  | list (items : List Datum)
  | stream (items : List Datum)
  | map (keys values : List Datum)
  | closed (text : String)
deriving Inhabited

namespace Datum

def kind : Datum → Kind
  | undefined => .undefined
  | none => .none
  | bool _ => .bool
  | int _ => .number
  | real _ => .number
  | text _ => .string
  | list _ => .sequence
  | stream _ => .iterator
  | map .. => .map
  | closed _ => .plain

def ofNumber : JsonNumber → Datum
  | .int i => int i
  | .real x => real x

mutual

def ofSorted : Json → Datum
  | .null => none
  | .bool b => bool b
  | .number n => ofNumber n
  | .string s => text s
  | .array items => list (ofItems items)
  | .object ms => map (ms.map fun m => text m.1) (ofMemberValues ms)

def ofItems : List Json → List Datum
  | [] => []
  | v :: r => ofSorted v :: ofItems r

def ofMemberValues : List (String × Json) → List Datum
  | [] => []
  | (_, v) :: r => ofSorted v :: ofMemberValues r

end

def ofJson (v : Json) : Datum := ofSorted v.canonical

mutual

/-- A node as a map: its tag, its children and its attributes, in this order. -/
def ofNode : Node → Datum
  | .mk tag a cs _ _ =>
    map (text "tag" :: text "children" :: a.entries.map fun e => text e.1)
      (text tag :: list (ofNodes cs) :: a.entries.map fun e => ofJson e.2)

def ofNodes : List Node → List Datum
  | [] => []
  | n :: r => ofNode n :: ofNodes r

end

end Datum

def Builtin.title : Builtin → String
  | .range => "minijinja::functions::builtins::range"
  | .dictionary => "minijinja::functions::builtins::dict"
  | .space => "minijinja::functions::builtins::namespace"
  | .inspect => "minijinja::functions::builtins::debug"

def Running.title (r : Running) : String :=
  "<loop " ++ toString r.index ++ "/" ++ toString r.count ++ ">"

mutual

/-- The datum of a value, given those of namespaces. -/
def Value.datumWith (h : Heap) (space : Nat → Datum) : Value → Datum
  | .undefined _ => .undefined
  | .none => .none
  | .bool b => .bool b
  | .int i => .int i
  | .real x => .real x
  | .text s _ => .text s
  | .list items => .list (dataWith h space items)
  | .stream items => .stream (dataWith h space items)
  | .map ms => .map (keyDataWith h space ms) (valueDataWith h space ms)
  | .options ms => .map (keyDataWith h space ms) (valueDataWith h space ms)
  | .group k items => .list [k.datumWith h space, .list (dataWith h space items)]
  | .node n => .ofNode n
  | .builtin f => .closed f.title
  | .routine _ (.mk _ name _ _ _) _ _ => .closed ("<macro " ++ name ++ ">")
  | .loop n => .closed (h.running n).title
  | .space n => space n

def dataWith (h : Heap) (space : Nat → Datum) : List Value → List Datum
  | [] => []
  | v :: r => v.datumWith h space :: dataWith h space r

def keyDataWith (h : Heap) (space : Nat → Datum) : List Member → List Datum
  | [] => []
  | .mk k _ :: r => k.datumWith h space :: keyDataWith h space r

def valueDataWith (h : Heap) (space : Nat → Datum) : List Member → List Datum
  | [] => []
  | .mk _ v :: r => v.datumWith h space :: valueDataWith h space r

end

/-- The datum of a namespace, looking into namespaces inside it as long as `depth` lasts. -/
def Heap.spaceDatum (h : Heap) : Nat → Nat → Datum
  | 0, _ => .closed "..."
  | depth + 1, n =>
    let es := h.fields n
    .map (es.map fun e => .text e.1) (es.map fun e => e.2.datumWith h (h.spaceDatum depth))

/-- What a value amounts to now. -/
def Value.datum (h : Heap) (v : Value) : Datum := v.datumWith h (h.spaceDatum (h.cells.size + 1))

namespace Datum

/-- The text of a number as it stands alone: no exponent. -/
def realText (x : Number.Binary64) : String := Number.Layout.positional.write "NaN" x

/-- The text of a number inside a list or map. -/
def realInside (x : Number.Binary64) : String := Number.Layout.quoted.write "NaN" x

/-- The texts of members from those of keys and values. -/
def joined (keys values : List String) : List String :=
  keys.zipWith (fun k v => k ++ ": " ++ v) values

mutual

/-- The text of a datum inside a list or map, where texts are quoted. -/
def inner : Datum → String
  | undefined => "undefined"
  | none => "None"
  | bool true => "True"
  | bool false => "False"
  | int i => toString i
  | real x => realInside x
  | text s => Text.quoted s
  | list items => "[" ++ ", ".intercalate (inners items) ++ "]"
  | stream items => "[" ++ ", ".intercalate (inners items) ++ "]"
  | map ks vs => "\x7b" ++ ", ".intercalate (joined (inners ks) (inners vs)) ++ "\x7d"
  | closed t => t

def inners : List Datum → List String
  | [] => []
  | d :: r => inner d :: inners r

end

/-- The text of a datum by itself. -/
def shown : Datum → String
  | undefined => ""
  | real x => realText x
  | text s => s
  | d => inner d

/-- The lines of a bracketed listing, its items indented by four blanks. -/
def listing (left right : String) (items : List String) : String :=
  if items.isEmpty then left ++ right
  else
    left ++ "\n" ++
      String.join (items.map fun i =>
        "    " ++ String.ofList (i.toList.flatMap fun c => if c = '\n' then "\n    ".toList else [c])
          ++ ",\n") ++
      right

mutual

/-- The text of a datum over several lines. -/
def spread : Datum → String
  | list items => listing "[" "]" (spreads items)
  | stream items => listing "[" "]" (spreads items)
  | map ks vs => listing "\x7b" "\x7d" (joined (spreads ks) (spreads vs))
  | d => inner d

def spreads : List Datum → List String
  | [] => []
  | d :: r => spread d :: spreads r

end

/-- The member name that a key becomes in JSON, if it can be one. -/
def memberName? : Datum → Option String
  | text s => some s
  | bool true => some "true"
  | bool false => some "false"
  | int i => some (toString i)
  | real x => if x.isFinite then some (Number.Layout.signed.write "" x) else Option.none
  | _ => Option.none

mutual

/-- The JSON value of a datum, members in the order of the map. -/
def toJson? : Datum → Option Json
  | undefined => some .null
  | none => some .null
  | bool b => some (.bool b)
  | int i => some (.number (.int i))
  | real x => some (.number (.real x))
  | text s => some (.string s)
  | list items => (toJsons? items).map .array
  | stream items => (toJsons? items).map .array
  | map ks vs => do
    let names ← ks.mapM memberName?
    let values ← toJsons? vs
    some (.object (names.zip values))
  | closed t => some (.string t)

def toJsons? : List Datum → Option (List Json)
  | [] => some []
  | d :: r => do some ((← toJson? d) :: (← toJsons? r))

end

end Datum

/-- The text of a value by itself. -/
def Value.shown (h : Heap) (v : Value) : String := (v.datum h).shown

end Scaffold.Template
