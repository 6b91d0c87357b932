import Scaffold.Template.Argument

/-!
# Filters of lists and maps

Sorting, grouping and cutting what a value consists of.
-/

namespace Scaffold.Template.Filter

open Taking

/-- What a value consists of, or another fault if it consists of nothing. -/
def itemsOr (detail : String) (v : Value) : Run (List Value) :=
  tryCatch (Run.iterated v) fun f => throw ((RenderFault.of .invalidOperation detail).causedBy (.fault f))

def listed (v : Value) : Run (List Value) := itemsOr "cannot convert value to list" v

def length : Taking Value := do
  let v ← value
  finish
  match v.length? (← Run.heap) with
  | some n => pure (.int n)
  | none =>
    throw (.of .invalidOperation ("cannot calculate length of value of type " ++ v.kind.name))

def pairList : RenderFault := .of .invalidOperation "cannot convert value into pair list"

/-- The members of a map. -/
def membersOf (v : Value) : Run (List (Value × Value)) := do
  match v.pairs? (← Run.heap) with
  | some ps => pure ps
  | none => throw pairList

def dictsort : Taking Value := do
  let os ← options
  let v ← value
  finish
  let h ← Run.heap
  let pairs ← membersOf v
  let byValue := (← os.get "by" Form.string) == some "value"
  let strict := (← os.get "case_sensitive" Form.bool).getD false
  let reversed ← os.get "reverse" Form.bool
  os.onlyFrom ["by", "case_sensitive", "reverse"]
  let key (p : Value × Value) : Datum := (if byValue then p.2 else p.1).datum h
  let sorted := sortBy (fun a b => (key a).sortOrder strict (key b)) pairs
  let sorted := if reversed == some true then sorted.reverse else sorted
  pure (.list (sorted.map fun p => .pair p.1 p.2))

def items : Taking Value := do
  let v ← value
  finish
  pure (.list ((← membersOf v).map fun p => .pair p.1 p.2))

def reverse : Taking Value := do
  let v ← value
  finish
  match v with
  | .undefined _ => pure v
  | .none => pure v
  | .text s _ => pure (.ofText (String.ofList s.toList.reverse))
  | v =>
    match v.items? (← Run.heap) with
    | some items => pure (.stream items.reverse)
    | none => throw (.of .invalidOperation ("cannot reverse values of type " ++ v.kind.name))

def join : Taking Value := do
  let v ← value
  let glue ← optional Form.text
  finish
  let h ← Run.heap
  if isLeftOut v then pure (.ofText "")
  else
    let items ← itemsOr ("cannot join value of type " ++ v.kind.name) v
    let glue := glue.getD ""
    pure (.ofText (items.foldl (fun acc i => (if acc = "" then "" else acc ++ glue) ++ i.shown h) ""))

def first : Taking Value := do
  let v ← value
  finish
  match v with
  | .text s _ => pure ((s.toList.head?.map fun c => Value.ofText (String.singleton c)).getD
      (.undefined false))
  | v =>
    match v.parts? (← Run.heap) with
    | some items => pure (items.head?.getD (.undefined false))
    | none => throw (.of .invalidOperation "cannot get first item from value")

def last : Taking Value := do
  let v ← value
  finish
  let h ← Run.heap
  match v with
  | .text s _ => pure ((s.toList.getLast?.map fun c => Value.ofText (String.singleton c)).getD
      (.undefined false))
  | v =>
    match (if v.isRow then v.parts? h else none) with
    | some items => pure (items.getLast?.getD (.undefined false))
    | none => throw (.of .invalidOperation "cannot get last item from value")

/-- The item that comes before all others in an order; of equal ones the first or the last. -/
def extreme (h : Heap) (better : Ordering → Bool) : List Value → Value
  | [] => .undefined false
  | v :: r => r.foldl (fun best w =>
      if better ((w.datum h).order (best.datum h)) then w else best) v

def min : Taking Value := do
  let v ← value
  finish
  pure (extreme (← Run.heap) (· == .lt) (← listed v))

def max : Taking Value := do
  let v ← value
  finish
  pure (extreme (← Run.heap) (· != .lt) (← listed v))

/-- What is compared when values are sorted by attributes, missing ones left out. -/
def keysOf (paths : List String) (v : Value) : Run (List (Option Datum)) :=
  paths.mapM fun p => do
    let h ← Run.heap
    tryCatch (do pure (some ((← Run.follow v p).datum h))) fun _ => pure none

/-- Keys in the order of the first difference; a missing one is equal to all. -/
def orderKeys (strict : Bool) : List (Option Datum) → List (Option Datum) → Ordering
  | some a :: r, some b :: s => (a.sortOrder strict b).then (orderKeys strict r s)
  | _ :: r, _ :: s => orderKeys strict r s
  | _, _ => .eq

def sort : Taking Value := do
  let os ← options
  let v ← value
  finish
  let h ← Run.heap
  let items ← listed v
  let strict := (← os.get "case_sensitive" Form.bool).getD false
  let sorted ← match ← os.get "attribute" Form.string with
    | some path => do
      let paths := (Text.splitAll ',' path.toList).map fun p => Text.trim (String.ofList p)
      let keyed ← items.mapM fun v => do pure (← keysOf paths v, v)
      pure ((sortBy (fun a b => orderKeys strict a.1 b.1) keyed).map Prod.snd)
    | none => pure (sortBy (fun a b => (a.datum h).sortOrder strict (b.datum h)) items)
  let reversed ← os.get "reverse" Form.bool
  os.onlyFrom ["case_sensitive", "attribute", "reverse"]
  pure (.list (if reversed == some true then sorted.reverse else sorted))

def sum : Taking Value := do
  let v ← value
  finish
  let h ← Run.heap
  (← Run.iterated v).foldlM (fun total v =>
    match v with
    | .undefined false => throw (.bare .undefinedValue)
    | v =>
      if v.kind == .number then Run.ofExcept (Value.add h total v)
      else throw (.of .invalidOperation ("can only sum numbers, got " ++ v.kind.name)))
    (.int 0)

def list : Taking Value := do
  let v ← value
  finish
  pure (.list (← listed v))

/-- Groups of so many items, the last of which may be smaller. -/
def groupsOf (size : Nat) : Nat → List Value → List (List Value)
  | 0, _ => []
  | _ + 1, [] => []
  | n + 1, v :: r => ((v :: r).take size) :: groupsOf size n ((v :: r).drop size)

def countIsZero : RenderFault := .of .invalidOperation "count cannot be 0"

def batch : Taking Value := do
  let v ← value
  let size ← asked Form.count
  let filler ← optional pure
  finish
  if size = 0 then throw countIsZero
  let items ← Run.iterated v
  let fill (g : List Value) : List Value := match filler with
    | some f => g ++ List.replicate (size - g.length) f
    | none => g
  pure (.list ((groupsOf size items.length items).map fun g => .list (fill g)))

/-- The items in so many parts, the first of which take one item more if there are some left over. -/
def partsFrom (size extra : Nat) (filler : Option Value) : Nat → Nat → List Value → List (List Value)
  | 0, _, _ => []
  | n + 1, i, vs =>
    let own := vs.take (if i < extra then size + 1 else size)
    let own' := match filler with
      | some f => if i < extra then own else own ++ [f]
      | none => own
    own' :: partsFrom size extra filler n (i + 1) (vs.drop own.length)

def slice : Taking Value := do
  let v ← value
  let count ← asked Form.count
  let filler ← optional pure
  finish
  if count = 0 then throw countIsZero
  let items ← Run.iterated v
  let parts := partsFrom (items.length / count) (items.length % count) filler count 0 items
  pure (.list (parts.map .list))

/-- Items with equal keys side by side are one group, known by the last of their keys. -/
def groupKeyed (strict : Bool) (h : Heap) : List (Value × Value) → List (Value × List Value)
  | [] => []
  | (k, v) :: r =>
    match groupKeyed strict h r with
    | [] => [(k, [v])]
    | (l, vs) :: gs =>
      match r with
      | (next, _) :: _ =>
        if (k.datum h).sortOrder strict (next.datum h) == .eq then (l, v :: vs) :: gs
        else (k, [v]) :: (l, vs) :: gs
      | [] => (k, [v]) :: (l, vs) :: gs

def groupby : Taking Value := do
  let os ← options
  let v ← value
  let path ← optional Form.string
  finish
  let h ← Run.heap
  let other := (← os.get "default" pure).getD (.undefined false)
  let strict := (← os.get "case_sensitive" Form.bool).getD false
  let path ← match path with
    | some p => pure p
    | none =>
      match os.lookup "attribute" with
      | some v => Form.string v
      | none => throw (.bare .missingArgument)
  let items ← match v.items? h with
    | some items => pure items
    | none => throw (.of .invalidOperation (v.kind.name ++ " is not iterable"))
  let keyed ← items.mapM fun v => do pure (← Run.followOr v path other, v)
  os.onlyFrom ["default", "case_sensitive", "attribute"]
  let sorted := sortBy (fun a b => (a.1.datum h).sortOrder strict (b.1.datum h)) keyed
  pure (.list ((groupKeyed strict h sorted).map fun g => .group g.1 g.2))

/-- Keeps the first of items with equal keys. -/
def distinct (seen : List Datum) : List (Datum × Value) → List Value
  | [] => []
  | (k, v) :: r =>
    if seen.any fun d => d.order k == .eq then distinct seen r else v :: distinct (k :: seen) r

def unique : Taking Value := do
  let os ← options
  let v ← value
  finish
  let h ← Run.heap
  let path ← os.get "attribute" Form.string
  let strict := (← os.get "case_sensitive" Form.bool).getD false
  os.onlyFrom ["attribute", "case_sensitive"]
  let keyed ← (← Run.iterated v).mapM fun v => do
    let k ← match path with
      | some p => Run.followOr v p (.undefined false)
      | none => pure v
    let d := match k.datum h, strict with
      | .text s, false => Datum.text (Text.lower s)
      | d, _ => d
    pure (d, v)
  pure (.list (distinct [] keyed))

def chain : Taking Value := do
  let vs ← rest
  let h ← Run.heap
  if vs.isEmpty then throw (.bare .missingArgument)
  if vs.all fun v => v.kind == .map then
    pure (.map (Member.putAll h (vs.flatMap fun v => (v.pairs? h).getD [])))
  else do
    let rows ← (vs.mapM Run.iterated : Run (List (List Value)))
    pure (.stream rows.flatten)

/-- The first items of all lists, then the second ones, as long as all have one. -/
def transpose (rows : List (List Value)) (n : Nat) : List (List Value) :=
  match n with
  | 0 => []
  | n + 1 =>
    if rows.any List.isEmpty then []
    else rows.filterMap List.head? :: transpose (rows.map List.tail) n

def zip : Taking Value := do
  let vs ← rest
  if vs.isEmpty then throw (.bare .missingArgument)
  let rows ← (vs.mapM Run.iterated : Run (List (List Value)))
  pure (.stream ((transpose rows ((rows.head?.map List.length).getD 0)).map .list))

end Scaffold.Template.Filter
