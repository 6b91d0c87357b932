import Scaffold.Specification.Basic
import Scaffold.Yaml.Decoding

/-!
# Specifications in YAML

The fields of a specification are texts, however their scalars look. The entries of its structure
name their type among their other fields, so all of an entry is read first, into a `Buffer` in which
scalars have the meaning they have in YAML, and then taken apart.
-/

namespace Scaffold.Specification

open Decode (Fault Found)
open Yaml (Decoding Literal)

/-- A value that has been read before it is known what it should be. -/
inductive Buffer
  | null
  | bool (b : Bool)
  | natural (n : Nat)
  | negative (i : Int)
  | real (x : Number.Binary64)
  | string (s : String)
  | sequence (items : List Buffer)
  | map (pairs : List (Buffer × Buffer))
deriving Inhabited

namespace Buffer

/-- Integers of more than 64 bits cannot be buffered. -/
def ofLiteral (expected : String) : Literal → Except Fault Buffer
  | .null => .ok null
  | .bool b => .ok (bool b)
  | .natural n => .ok (natural n)
  | .negative i => .ok (negative i)
  | .wide i => .error (.invalidType (.wide i) expected)
  | .real x => .ok (real x)
  | .string s => .ok (string s)

def found : Buffer → Found
  | null => .null
  | bool b => .bool b
  | natural n => .int n
  | negative i => .int i
  | real x => .real x
  | string s => .string s
  | sequence _ => .sequence
  | map _ => .map

/-- Whether a tree has a tag that no standard names. -/
def isTagged (d : Yaml.Draft) : Bool := d.mark.tag.any Literal.isLocalTag

/-- Buffers a tree with containers nested at most `depth` deep. -/
def ofDraft (expected : String) : Nat → String → Yaml.Draft → Decoding Buffer
  | depth, path, d => Decoding.located path do
    let d ← Decoding.follow d
    if isTagged d then Decoding.fail .taggedNotSupported
    else
      match d with
      | .scalar m style text => do
        Decoding.ofExcept (ofLiteral expected (← Decoding.ofExcept (Literal.of m.tag style text)))
      | .sequence _ items closed =>
        match depth with
        | 0 => Decoding.fail .form
        | depth + 1 => do
          let bs ← items.zipIdx.mapM fun (d, i) =>
            ofDraft "any value" depth (Decoding.itemPath path i) d
          Decoding.closing closed
          pure (.sequence bs)
      | .mapping _ pairs closed =>
        match depth with
        | 0 => Decoding.fail .form
        | depth + 1 => do
          let bs ← pairs.mapM fun (k, v) => do
            let b ← ofDraft "any value" depth path k
            let c ← ofDraft "any value" depth (Decoding.keyPath path k) v
            pure (b, c)
          Decoding.closing closed
          pure (.map bs)
      | _ => Decoding.fail .form

def stringOf : Buffer → Except Fault String
  | .string s => .ok s
  | b => .error (.invalidType b.found "a string")

end Buffer

/-- What an entry is, by its `type`. -/
inductive EntryType
  | directory
  | file
deriving DecidableEq, Inhabited

namespace EntryType

def names : List String := ["directory", "file"]

def ofName (s : String) : Except Fault EntryType :=
  if s = "directory" then .ok directory
  else if s = "file" then .ok file
  else .error (.unknownVariant s names)

def identifier : String := "variant identifier"

/-- A type that has been buffered is its name, or its place in the list of names. -/
def ofBuffer : Buffer → Except Fault EntryType
  | .string s => ofName s
  | .natural 0 => .ok directory
  | .natural 1 => .ok file
  | .natural n => .error (.invalidValue (.int n) "variant index 0 <= i < 2")
  | b => .error (.invalidType b.found identifier)

/-- The name of the second field, next to `name`. -/
def secondField : EntryType → String
  | directory => "children"
  | file => "content"

def shape : EntryType → String
  | directory => "struct variant Entry::Directory with 2 elements"
  | file => "struct variant Entry::File with 2 elements"

end EntryType

/-- The name of the field that holds the type of an entry. -/
def typeField : String := "type"

def entryShape : String := "internally tagged enum Entry"

/-- A field of an entry. -/
inductive EntryField
  | name
  | second
  | other
deriving DecidableEq

/-- The field that a key names, by its text or by its place. -/
def entryField (t : EntryType) : Buffer → Except Fault EntryField
  | .string s => .ok (if s = "name" then .name else if s = t.secondField then .second else .other)
  | .natural n => .ok (if n = 0 then .name else if n = 1 then .second else .other)
  | b => .error (.invalidType b.found "field identifier")

/-- The type among the fields of a buffered entry. -/
def bufferedType : List (Buffer × Buffer) → Option EntryType → Except Fault EntryType
  | [], some t => .ok t
  | [], none => .error (.missingField typeField)
  | (.string s, v) :: r, t => do
    if s = typeField then
      if t.isSome then .error (.duplicateField typeField)
      else bufferedType r (some (← EntryType.ofBuffer v))
    else bufferedType r t
  | _ :: r, t => bufferedType r t

/-- The content of a file: a text, empty where it is null. -/
def contentOf : Buffer → Except Fault String
  | .null => .ok ""
  | b => b.stringOf

/-- The file that the fields of an entry make up. -/
def fileOfPairs : List (Buffer × Buffer) → Option String → Option String →
    Except Fault LayoutEntry
  | [], none, _ => .error (.missingField "name")
  | [], some n, c => .ok (.file n (c.getD ""))
  | (k, v) :: r, n, c => do
    match ← entryField .file k with
    | .name =>
      if n.isSome then .error (.duplicateField "name")
      else fileOfPairs r (some (← v.stringOf)) c
    | .second =>
      if c.isSome then .error (.duplicateField "content")
      else fileOfPairs r n (some (← contentOf v))
    | .other => fileOfPairs r n c

/-- Nothing may follow the two fields of an entry that is written by position. -/
def atMostTwo (rest : List Buffer) (e : LayoutEntry) : Except Fault LayoutEntry :=
  if rest.isEmpty then .ok e
  else .error (.invalidLength (rest.length + 2) "2 elements in sequence")

def fileOfItems : List Buffer → Except Fault LayoutEntry
  | [] => .error (.invalidLength 0 EntryType.file.shape)
  | [n] => do
    .ok (.file (← n.stringOf) "")
  | n :: c :: rest => do
    let n ← n.stringOf
    let c ← contentOf c
    atMostTwo rest (.file n c)

mutual

/-- The directory that the fields of an entry make up. -/
def directoryOfPairs : List (Buffer × Buffer) → Option String → Option (List LayoutEntry) →
    Except Fault LayoutEntry
  | [], none, _ => .error (.missingField "name")
  | [], some n, c => .ok (.directory n (c.getD []))
  | (k, v) :: r, n, c => do
    match ← entryField .directory k with
    | .name =>
      if n.isSome then .error (.duplicateField "name")
      else directoryOfPairs r (some (← v.stringOf)) c
    | .second =>
      if c.isSome then .error (.duplicateField "children")
      else directoryOfPairs r n (some (← childrenOf v))
    | .other => directoryOfPairs r n c

def directoryOfItems : List Buffer → Except Fault LayoutEntry
  | [] => .error (.invalidLength 0 EntryType.directory.shape)
  | [n] => do
    .ok (.directory (← n.stringOf) [])
  | n :: c :: rest => do
    let n ← n.stringOf
    let c ← childrenOf c
    atMostTwo rest (.directory n c)

/-- The children of a directory: a list of entries, empty where it is null. -/
def childrenOf : Buffer → Except Fault (List LayoutEntry)
  | .null => .ok []
  | .sequence items => bufferedEntries items
  | b => .error (.invalidType b.found "a sequence")

/-- The entry that a buffered value holds, by the names or by the places of its fields. -/
def bufferedEntry : Buffer → Except Fault LayoutEntry
  | .map pairs => do
    match ← bufferedType pairs none with
    | .directory => directoryOfPairs pairs none none
    | .file => fileOfPairs pairs none none
  | .sequence items =>
    match items with
    | [] => .error (.missingField typeField)
    | t :: rest => do
      match ← EntryType.ofBuffer t with
      | .directory => directoryOfItems rest
      | .file => fileOfItems rest
  | b => .error (.invalidType b.found entryShape)

def bufferedEntries : List Buffer → Except Fault (List LayoutEntry)
  | [] => .ok []
  | b :: r => do
    let e ← bufferedEntry b
    let es ← bufferedEntries r
    .ok (e :: es)

end

/-- What an entry is made of, once its type is known. -/
inductive EntryBody
  | fields (pairs : List (Buffer × Buffer))
  | positions (items : List Buffer)

def EntryBody.toEntry : EntryType → EntryBody → Except Fault LayoutEntry
  | .directory, .fields ps => directoryOfPairs ps none none
  | .directory, .positions bs => directoryOfItems bs
  | .file, .fields ps => fileOfPairs ps none none
  | .file, .positions bs => fileOfItems bs

def entryType (path : String) (d : Yaml.Draft) : Decoding EntryType :=
  Decoding.located path do
    Decoding.ofExcept (EntryType.ofName (← Decoding.string EntryType.identifier path d))

/-- Reads the fields of an entry: its type, if it is among them, and all others into a buffer. -/
def entryFields (depth : Nat) (path : String) :
    List (Yaml.Draft × Yaml.Draft) → Option EntryType → List (Buffer × Buffer) →
    Decoding (Option EntryType × List (Buffer × Buffer))
  | [], t, acc => pure (t, acc.reverse)
  | (k, v) :: r, t, acc => do
    match ← Buffer.ofDraft "a type tag `type` or any other value" depth path k with
    | .string s =>
      if s = typeField then
        if t.isSome then Decoding.fail (.duplicateField typeField)
        else entryFields depth path r (some (← entryType (Decoding.keyPath path k) v)) acc
      else
        let b ← Buffer.ofDraft "any value" depth (Decoding.keyPath path k) v
        entryFields depth path r t ((.string s, b) :: acc)
    | key =>
      let b ← Buffer.ofDraft "any value" depth (Decoding.keyPath path k) v
      entryFields depth path r t ((key, b) :: acc)

/-- Reads an entry by the names of its fields. -/
def entryOfPairs (depth : Nat) (path : String) (pairs : List (Yaml.Draft × Yaml.Draft)) (closed : Bool) :
    Decoding (EntryType × EntryBody) := do
  let (t, ps) ← entryFields depth path pairs none []
  Decoding.closing closed
  match t with
  | some t => pure (t, .fields ps)
  | none => Decoding.fail (.missingField typeField)

/-- Reads an entry by the places of its fields. -/
def entryOfItems (depth : Nat) (path : String) (closed : Bool) :
    List Yaml.Draft → Decoding (EntryType × EntryBody)
  | [] => do
    Decoding.closing closed
    Decoding.fail (.missingField typeField)
  | t :: rest => do
    let t ← entryType (Decoding.itemPath path 0) t
    let bs ← rest.zipIdx.mapM fun (d, i) =>
      Buffer.ofDraft "any value" depth (Decoding.itemPath path (i + 1)) d
    Decoding.closing closed
    pure (t, .positions bs)

/-- Reads an entry as far as its type, nested at most `depth` deep. -/
def entryParts (depth : Nat) (path : String) (d : Yaml.Draft) : Decoding (EntryType × EntryBody) :=
  Decoding.located path do
    let d ← Decoding.follow d
    if Buffer.isTagged d then Decoding.fail (.invalidType .tagged entryShape)
    else
      match d, depth with
      | .mapping _ pairs closed, depth + 1 => entryOfPairs depth path pairs closed
      | .sequence _ items closed, depth + 1 => entryOfItems depth path closed items
      | .mapping _ _ _, 0 => Decoding.fail .form
      | .sequence _ _ _, 0 => Decoding.fail .form
      | d, _ => Decoding.fail (Decoding.unexpected entryShape d)

/-- Reads the entries of a structure. -/
def structureOf (depth : Nat) (path : String) (d : Yaml.Draft) : Decoding (List LayoutEntry) :=
  Decoding.located path do
    let d ← Decoding.follow d
    match d, depth with
    | .sequence _ items closed, depth + 1 => do
      let es ← items.zipIdx.mapM fun (d, i) => do
        let (t, body) ← entryParts depth (Decoding.itemPath path i) d
        Decoding.ofExcept (body.toEntry t)
      Decoding.closing closed
      pure es
    | .sequence _ _ _, 0 => Decoding.fail .form
    | d, _ =>
      if Decoding.isNothing d then pure []
      else Decoding.fail (Decoding.unexpected "a sequence" d)

/-- The fields that have been read so far. -/
structure Parts where
  projectName : Option String
  outputDir : Option String
  entries : Option (List LayoutEntry)

def Parts.none : Parts := ⟨.none, .none, .none⟩

def Parts.finish (p : Parts) : Except Fault Specification :=
  match p.projectName, p.outputDir, p.entries with
  | some n, some o, some es => .ok ⟨n, ⟨o⟩, es⟩
  | .none, _, _ => .error (.missingField "project_name")
  | _, .none, _ => .error (.missingField "output_dir")
  | _, _, .none => .error (.missingField "structure")

/-- Reads one field; fields of other names must only break no rule. -/
def Parts.read (p : Parts) (name : String) : (String × Yaml.Draft) → Decoding Parts
  | (path, d) =>
    if name = "project_name" then do
      if p.projectName.isSome then Decoding.fail (.duplicateField name)
      else pure { p with projectName := some (← Decoding.string "a string" path d) }
    else if name = "output_dir" then do
      if p.outputDir.isSome then Decoding.fail (.duplicateField name)
      else pure { p with outputDir := some (← Decoding.string "path string" path d) }
    else if name = "structure" then do
      if p.entries.isSome then Decoding.fail (.duplicateField name)
      else pure { p with entries := some (← structureOf (Decoding.depthLimit - 1) path d) }
    else if d.isWhole then pure p
    else Decoding.fail .form

/-- Reads a specification from YAML text. -/
def ofYaml (text : String) : Except Failure Specification :=
  (Decoding.run (Decoding.record "struct InfrastructureSpec" Parts.read Parts.none Parts.finish)
    text).mapError fun t => .specification ("invalid specification: " ++ t.message)

end Scaffold.Specification
