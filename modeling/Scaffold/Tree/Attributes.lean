import Scaffold.Entries
import Scaffold.Json.Basic

/-!
# Attributes

Named JSON values in the order in which they were first put, each name once.
-/

namespace Scaffold

/-- Named JSON values in order, each name once. -/
structure Attributes where
  entries : List (String × Json)
  distinct : (Entries.keys entries).Nodup

namespace Attributes

instance : Inhabited Attributes := ⟨⟨[], by simp [Entries.keys]⟩⟩

def empty : Attributes := ⟨[], by simp [Entries.keys]⟩

def keys (a : Attributes) : List String := Entries.keys a.entries

def get? (a : Attributes) (k : String) : Option Json := a.entries.lookup k

def contains (a : Attributes) (k : String) : Bool := a.keys.contains k

def insert (a : Attributes) (k : String) (v : Json) : Attributes :=
  ⟨Entries.insert k v a.entries, Entries.nodup_insert a.distinct⟩

/-- Puts entries one after the other. -/
def insertAll (a : Attributes) (es : List (String × Json)) : Attributes :=
  es.foldl (fun a (k, v) => a.insert k v) a

def ofList (es : List (String × Json)) : Attributes := empty.insertAll es

/-- Equality without regard to the order of the entries. -/
def same (a b : Attributes) : Bool :=
  a.entries.length == b.entries.length &&
    a.entries.all fun (k, v) => match b.get? k with
      | some w => v.same w
      | none => false

end Attributes

end Scaffold
