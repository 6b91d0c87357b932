import Scaffold.Store.Basic
import Scaffold.Template.Statement
import Scaffold.Text.Quoted

/-!
# Repositories

A repository is a store with a shelf. A template is read at its first use and kept on the shelf; one
that is missing or cannot be read is looked up again the next time. Repositories may share a shelf.
-/

namespace Scaffold

variable {linked : Bool}

structure Repository where
  store : Store
  shelf : Nat
deriving Inhabited

namespace Repository

/-- A repository with a shelf of its own. -/
def new (s : Store) : WorkOn linked Repository := do pure ⟨s, ← Work.newShelf⟩

def «open» (root : Path) : WorkOn linked Repository := do
  new (.directory (← DirectoryStore.open root))

/-- The repository with an empty shelf; others that share the old one keep it. -/
def cleared (r : Repository) : WorkOn linked Repository := do
  Work.debug "Clearing template cache"
  new r.store

def tags (r : Repository) : WorkOn linked (List String) := r.store.tags

def modes (r : Repository) (tag : String) : WorkOn linked (List String) := r.store.modes tag

/-- The fault of a store that cannot give the text under a name. -/
def loadFault (name : String) (f : Failure) : RenderFault :=
  .mk .invalidOperation (some ("failed to load template '" ++ name ++ "'")) none (.failure f)

/-- The template that the text under a name is read as, if there is one. -/
def compiled (name : String) : Except Failure (Option String) → Except RenderFault Template
  | .error f => .error (loadFault name f)
  | .ok none =>
    .error (.of .templateNotFound ("template " ++ Text.quoted name ++ " does not exist"))
  | .ok (some source) => Template.read name source

/-- The template of a name, from the shelf if it is there. -/
def template (r : Repository) (name : String) : WorkOn linked (Except RenderFault Template) := do
  match ← Work.shelved? r.shelf name with
  | some t => pure (.ok t)
  | none =>
    match compiled name (← Work.attempt (r.store.source name)) with
    | .error f => pure (.error f)
    | .ok t =>
      Work.putOnShelf r.shelf name t
      pure (.ok t)

/-- The names of the templates on the shelf, in order. -/
def keptNames (r : Repository) : WorkOn linked (List String) := do
  pure (distinctSorted (← Work.shelfNames r.shelf))

end Repository

end Scaffold
