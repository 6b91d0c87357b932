import Scaffold.Json.Draft
import Scaffold.Failure
import Scaffold.Yaml.Decoding

/-!
# Settings of a pipeline

`Config` holds the settings; `Config.standard` are those where nothing is set. A text of settings
is read as JSON first (`ofJson?`) and as YAML where that fails in any way (`ofYaml`), so the faults
that are reported are those of the YAML reading.
-/

namespace Scaffold

structure Config where
  /-- Where the template store is. -/
  templatesDir : Path
  /-- The mode of the root of a tree where no mode is asked for. -/
  defaultMode : String
  /-- Where the rendered specification goes. -/
  output : Path
  /-- The directory in which layouts are built. -/
  buildRoot : Path
  /-- Whether trees are checked against a schema before they are rendered. -/
  validate : Bool
  /-- The schema, if it is not the schema of trees. -/
  schema : Option Path
deriving DecidableEq, Inhabited

namespace Config

def standard : Config where
  templatesDir := ⟨"templates"⟩
  defaultMode := "default"
  output := ⟨"output/infrastructure.yml"⟩
  buildRoot := ⟨"."⟩
  validate := true
  schema := none

/-- The names of the fields in their order. -/
def fieldNames : List String :=
  ["templates_dir", "default_mode", "output", "build_root", "validate", "schema"]

/-- A value of a field, by the field's type. -/
inductive Setting
  | text (s : String)
  | flag (b : Bool)
  | none
deriving DecidableEq

/-- Sets a field, unless the value is of another type than the field. -/
def set? (c : Config) (name : String) : Setting → Option Config
  | .text s =>
    if name = "templates_dir" then some { c with templatesDir := ⟨s⟩ }
    else if name = "default_mode" then some { c with defaultMode := s }
    else if name = "output" then some { c with output := ⟨s⟩ }
    else if name = "build_root" then some { c with buildRoot := ⟨s⟩ }
    else if name = "schema" then some { c with schema := some ⟨s⟩ }
    else .none
  | .flag b => if name = "validate" then some { c with validate := b } else .none
  | .none => if name = "schema" then some { c with schema := .none } else .none

/-! ### From JSON -/

def jsonSetting? : Draft → Option Setting
  | .string (some s) => some (.text s)
  | .bool b => some (.flag b)
  | .null => some .none
  | _ => .none

/-- The settings of an object whose fields are known and not repeated. -/
def ofMembers? (c : Config) (seen : List String) : List (Option String × Draft) → Option Config
  | [] => some c
  | (k, d) :: r => do
    let k ← k
    if seen.contains k then none
    ofMembers? (← c.set? k (← jsonSetting? d)) (k :: seen) r

/-- The settings of an array that lists the fields in their order; the last ones may be missing. -/
def ofItems? (c : Config) : List String → List Draft → Option Config
  | _, [] => some c
  | [], _ :: _ => none
  | k :: ks, d :: r => do ofItems? (← c.set? k (← jsonSetting? d)) ks r

def ofJson? (text : String) : Option Config :=
  match Draft.ofChars text.toList with
  | (.object ms true, true) => ofMembers? standard [] ms
  | (.array items true, true) => ofItems? standard fieldNames items
  | _ => none

/-! ### From YAML -/

open Yaml (Decoding)

/-- Reads the value of a field. -/
def readSetting (name : String) : (String × Yaml.Draft) → Decoding Setting
  | (path, d) =>
    if name = "validate" then do
      pure (.flag (← Decoding.bool path d))
    else if name = "schema" then do
      match ← Decoding.optionalString "path string" path d with
      | some s => pure (.text s)
      | none => pure .none
    else do
      let expected := if name = "default_mode" then "a string" else "path string"
      pure (.text (← Decoding.string expected path d))

/-- Reads one field, which must be known and not repeated. -/
def readField (c : Config × List String) (name : String) (v : String × Yaml.Draft) :
    Decoding (Config × List String) := do
  if !fieldNames.contains name then Decoding.fail (.unknownField name fieldNames)
  else if c.2.contains name then Decoding.fail (.duplicateField name)
  else
    let s ← readSetting name v
    pure ((c.1.set? name s).getD c.1, name :: c.2)

def ofYaml (text : String) : Except Yaml.Trouble Config :=
  Decoding.run (Decoding.record "struct PipelineConfig" readField (standard, [])
    fun c => .ok c.1) text

/-! ### From any text -/

def parse (text : String) : Except Failure Config :=
  match ofJson? text with
  | some c => .ok c
  | none =>
    (ofYaml text).mapError fun t => .config ("Invalid configuration format: " ++ t.message)

/-- The files in which settings are looked for, in this order. -/
def fileNames : List String := ["trellis.json", "trellis.yml", "trellis.yaml"]

end Config

end Scaffold
