import Scaffold.Yaml.Literal

/-!
# Reading a YAML document with expectations

`Decoding` reads parts of a document: it follows aliases, of which there may be only so many, and
an error that it stops with is `Trouble`, a fault together with the path of the value it belongs
to. A path is set once, by the innermost value that is read as such (`Decoding.located`).
-/

namespace Scaffold.Yaml

open Decode (Fault Found Wording)

/-- A fault and the path of the value in which it was found, once that is known. -/
structure Trouble where
  path : Option String
  fault : Fault
deriving Inhabited

/-- The sentence for a fault, with its path in front unless it is that of the whole document. -/
def Trouble.message (t : Trouble) : String :=
  match t.fault.message? .plain with
  | none => t.fault.message .plain
  | some m =>
    match t.path with
    | none => m
    | some "" => m
    | some p => p ++ ": " ++ m

/-- Reading in a document, counting the aliases that are followed. -/
abbrev Decoding (α : Type) := Document → Nat → Except Trouble (α × Nat)

namespace Decoding

variable {α β : Type}

def pure (a : α) : Decoding α := fun _ n => .ok (a, n)

def bind (m : Decoding α) (f : α → Decoding β) : Decoding β := fun d n =>
  match m d n with
  | .error t => .error t
  | .ok (a, n) => f a d n

instance : Monad Decoding := { pure := pure, bind := bind }

def fail (f : Fault) : Decoding α := fun _ _ => .error ⟨none, f⟩

def ofExcept : Except Fault α → Decoding α
  | .ok a => pure a
  | .error f => fail f

/-- Says that a fault found here belongs to the value at a path, unless it belongs to another. -/
def located (path : String) (m : Decoding α) : Decoding α := fun d n =>
  match m d n with
  | .ok r => .ok r
  | .error t => .error ⟨some (t.path.getD path), t.fault⟩

/-- A document may have aliases followed this many times for each of its marks. -/
def aliasLimit : Nat := 100

/-- The tree itself, or the one that an alias stands for. -/
def follow (d : Draft) : Decoding Draft := fun doc n =>
  match d with
  | .reference a =>
    if aliasLimit * doc.size ≤ n then .error ⟨none, .form⟩
    else
      match doc.target? a with
      | some t => .ok (t, n + 1)
      | none => .error ⟨none, .form⟩
  | d => .ok (d, n)

/-- Containers may be nested this deep. -/
def depthLimit : Nat := 128

/-- The fault of a tree that is not what was expected. -/
def unexpected (expected : String) : Draft → Fault
  | .scalar m style text =>
    match Literal.of m.tag style text with
    | .ok l => .invalidType l.found expected
    | .error f => f
  | .sequence _ _ _ => .invalidType .sequence expected
  | .mapping _ _ _ => .invalidType .map expected
  | _ => .form

/-- Whether a container that has been read to its end is closed. -/
def closing (closed : Bool) : Decoding Unit := if closed then pure () else fail .form

/-- Reads any scalar as its text. -/
def string (expected path : String) (d : Draft) : Decoding String :=
  located path do
    match ← follow d with
    | .scalar _ _ text => pure text
    | d => fail (unexpected expected d)

def bool (path : String) (d : Draft) : Decoding Bool :=
  located path do
    let d ← follow d
    match d with
    | .scalar m style text =>
      let literal := style = .literal ∧ m.tag = some (Literal.standardTag "bool")
      match if style = .plain ∨ literal then Literal.bool? text else none with
      | some b => pure b
      | none => fail (unexpected "a boolean" d)
    | d => fail (unexpected "a boolean" d)

/-- Reads a scalar that may be null as its text. -/
def optionalString (expected path : String) (d : Draft) : Decoding (Option String) := do
  let d ← follow d
  match d with
  | .scalar m .plain text =>
    match m.tag with
    | none =>
      if text = "" ∨ Literal.isNull text then pure none
      else some <$> string expected path d
    | some t =>
      if t = Literal.standardTag "null" then
        if Literal.isNull text then pure none
        else fail (.invalidValue (.string text) "null")
      else some <$> string expected path d
  | .broken => fail .form
  | d => some <$> string expected path d

/-- Whether nothing is written. -/
def isNothing : Draft → Bool
  | .scalar _ .plain "" => true
  | _ => false

/-- The path of a value in a mapping; the key of an alias is not known. -/
def keyPath (path : String) (key : Draft) : String :=
  let k := match key with
    | .scalar _ _ text => text
    | _ => "?"
  if path = "" then k else path ++ "." ++ k

def itemPath (path : String) (i : Nat) : String := path ++ "[" ++ toString i ++ "]"

/-- Reads the pairs of a mapping in order; `step` takes the name of a field and its value. -/
def fields (path : String) (step : β → String → (String × Draft) → Decoding β) :
    List (Draft × Draft) → β → Decoding β
  | [], b => pure b
  | (k, v) :: r, b => do
    let name ← string "field identifier" path k
    fields path step r (← step b name (keyPath path k, v))

/-- Reads the whole document as a record; a document in which nothing is written has no fields. -/
def record (expected : String) (step : β → String → (String × Draft) → Decoding β) (b : β)
    (finish : β → Except Fault α) (root : Option Draft) : Decoding α :=
  located "" do
    match root with
    | none => ofExcept (finish b)
    | some d =>
      match d with
      | .mapping _ pairs closed => do
        let b ← fields "" step pairs b
        closing closed
        ofExcept (finish b)
      | d =>
        if isNothing d then ofExcept (finish b)
        else fail (unexpected expected d)

/-- The result of reading a whole text: any rule that is broken after the part that was read counts
only if that part has no fault. -/
def run (m : Option Draft → Decoding α) (text : String) : Except Trouble α :=
  let doc := Document.read text
  match m doc.root doc 0 with
  | .error t => .error t
  | .ok (a, _) => if doc.whole then .ok a else .error ⟨none, .form⟩

end Decoding

end Scaffold.Yaml
