import Scaffold.Config
import Scaffold.Text.Blank
import Scaffold.Work

/-!
# Settings in files

The settings that hold in a directory are those of the first file there that may hold any. A file
with nothing but blanks sets nothing.
-/

namespace Scaffold.Config

variable {linked : Bool}

/-- The settings of a text, of which every field may be missing. -/
def ofFile (text : String) : Except Failure Config :=
  if text.toList.all Text.isBlank then .ok standard else parse text

/-- The settings that hold in a directory. -/
def load (dir : Path) : WorkOn linked Config := do
  match ← Work.readFirst dir fileNames with
  | none => pure standard
  | some text => Work.ofExcept (ofFile text)

end Scaffold.Config
