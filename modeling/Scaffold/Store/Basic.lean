import Scaffold.Work

/-!
# Template stores

A store holds the texts of templates under the names `tag/mode.jinja`, grouped by tag, and further
files, macros, under names of their own. A `MemoryStore` holds them in lists; a `DirectoryStore`
reads them from the directories `templates` and `macros` below a root, at every look anew.
-/

namespace Scaffold

variable {linked : Bool}

/-- What the names of template files end in. -/
def templateExtension : String := "jinja"

def templateSuffix : String := "." ++ templateExtension

/-- The name of the template for a tag and a mode. -/
def templateName (tag mode : String) : String := tag ++ "/" ++ mode ++ templateSuffix

/-- Texts in increasing order without repetition. -/
def distinctSorted (xs : List String) : List String :=
  Entries.keys (xs.foldl (fun acc x => Entries.put x () acc) [])

/-- What follows `tag/` and comes before the suffix in the name of a template. -/
def splitTemplateName? (name : String) : Option (String × String) := do
  let (tag, file) ← Text.splitOnce? '/' name.toList
  let mode ← Text.dropLead? templateSuffix.toList.reverse file.reverse
  some (String.ofList tag, String.ofList mode.reverse)

/-- Templates by tag and mode, and macros by name. -/
structure MemoryStore where
  groups : List (String × List (String × String))
  macros : List (String × String)
deriving Inhabited

namespace MemoryStore

def empty : MemoryStore := ⟨[], []⟩

/-- Adds a group without templates, unless the tag has one. -/
def insertGroup (s : MemoryStore) (tag : String) : MemoryStore :=
  match s.groups.lookup tag with
  | some _ => s
  | none => { s with groups := s.groups ++ [(tag, [])] }

/-- Puts the template for a tag and a mode in the place of any other. -/
def insert (s : MemoryStore) (tag mode source : String) : MemoryStore :=
  let group := (s.groups.lookup tag).getD []
  { s with groups := Entries.insert tag (Entries.insert mode source group) s.groups }

def insertMacro (s : MemoryStore) (name source : String) : MemoryStore :=
  { s with macros := Entries.insert name source s.macros }

def tags (s : MemoryStore) : List String := distinctSorted (Entries.keys s.groups)

def modes? (s : MemoryStore) (tag : String) : Option (List String) :=
  (s.groups.lookup tag).map fun g => distinctSorted (Entries.keys g)

/-- The text under a name: that of a template comes before that of a macro. -/
def source? (s : MemoryStore) (name : String) : Option String :=
  let template := do
    let (tag, mode) ← splitTemplateName? name
    let group ← s.groups.lookup tag
    group.lookup mode
  template.or (s.macros.lookup name)

end MemoryStore

/-- The two directories of a store. -/
structure DirectoryStore where
  templates : Path
  macros : Path
deriving DecidableEq, Inhabited

namespace DirectoryStore

/-- The store below a root, which has to be a directory. -/
def «open» (root : Path) : WorkOn linked DirectoryStore := do
  if (← Work.disk).isDirectory root then
    Work.debug ("Using template store at " ++ root.text)
    pure ⟨root.joinName "templates", root.joinName "macros"⟩
  else Work.fail (.config ("template store '" ++ root.text ++ "' does not exist"))

/-- The path of a name below a directory, if all its pieces stay where they are joined. -/
def resolve? (base : Path) (name : String) : Option Path :=
  let pieces := (Text.splitAll '/' name.toList).map String.ofList
  if pieces.all isPlainSegment then some (pieces.foldl Path.joinName base) else none

/-- The names in a directory, and whether each is a file. -/
def listing (p : Path) : WorkOn linked (List (String × Bool)) := do
  match (← Work.disk).list p with
  | .ok es => pure es
  | .error f => Work.fail (.io f)

/-- The names of the directories for templates. On a disk all names are texts; what a name that is not
UTF-8 would be read as is left out. -/
def tags (s : DirectoryStore) : WorkOn linked (List String) := do
  if (← Work.disk).isDirectory s.templates then
    let es ← listing s.templates
    pure (distinctSorted ((es.filter fun e => !e.2).map Prod.fst))
  else pure []

/-- The mode that a file name stands for. -/
def modeOf? (name : String) : Option String :=
  match Path.splitName name with
  | (stem, some e) => if e = templateExtension then some stem else none
  | (_, none) => none

/-- The directory of a tag. -/
def group? (s : DirectoryStore) (tag : String) : WorkOn linked (Option Path) := do
  let d ← Work.disk
  pure ((resolve? s.templates tag).filter fun p => isPlainSegment tag && d.isDirectory p)

def modes (s : DirectoryStore) (tag : String) : WorkOn linked (List String) := do
  match ← s.group? tag with
  | some dir =>
    let es ← listing dir
    pure (distinctSorted ((es.filter Prod.snd).filterMap fun e => modeOf? e.1))
  | none => Work.fail (.templateNotFound tag)

/-- The text of the first of some files that exists. -/
def firstFile : List (Option Path) → WorkOn linked (Option String)
  | [] => pure none
  | none :: r => firstFile r
  | some p :: r => do
    if (← Work.disk).isFile p then
      Work.debug ("Loading template " ++ p.text)
      pure (some (← Work.readText p))
    else firstFile r

def source (s : DirectoryStore) (name : String) : WorkOn linked (Option String) :=
  firstFile [resolve? s.templates name, resolve? s.macros name]

end DirectoryStore

/-- A place that templates come from. -/
inductive Store
  | memory (s : MemoryStore)
  | directory (s : DirectoryStore)
deriving Inhabited

namespace Store

/-- The tags that have a group. -/
def tags : Store → WorkOn linked (List String)
  | memory s => pure s.tags
  | directory s => s.tags

/-- The modes of the templates for a tag, which has to have a group. -/
def modes (s : Store) (tag : String) : WorkOn linked (List String) :=
  match s with
  | memory s =>
    match s.modes? tag with
    | some ms => pure ms
    | none => Work.fail (.templateNotFound tag)
  | directory s => s.modes tag

/-- The text of a template or of a macro. -/
def source (s : Store) (name : String) : WorkOn linked (Option String) :=
  match s with
  | memory s => pure (s.source? name)
  | directory s => s.source name

end Store

end Scaffold
