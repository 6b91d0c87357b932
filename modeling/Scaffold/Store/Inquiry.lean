import Scaffold.Store.Repository

/-!
# Inquiries

An inquiry is an activity that knows templates and modes only by asking for them, and also what
templates are kept. It comes to a result with the answers that it is given; `Inquiry.conduct` takes
them from a repository.
-/

namespace Scaffold

inductive Inquiry (α : Type)
  | done (a : α)
  /-- A remark about what is being done. -/
  | remark (text : String) (rest : Inquiry α)
  /-- Asks for the template of a name. -/
  | template (name : String) (rest : Except RenderFault Template → Inquiry α)
  /-- Asks for the modes of a tag. -/
  | modes (tag : String) (rest : Except Failure (List String) → Inquiry α)
  /-- Asks for the names of the templates that are kept. -/
  | kept (rest : List String → Inquiry α)

namespace Inquiry

variable {α β : Type} {linked : Bool}

def bind : Inquiry α → (α → Inquiry β) → Inquiry β
  | done a, f => f a
  | remark text rest, f => remark text (rest.bind f)
  | template name rest, f => template name fun t => (rest t).bind f
  | modes tag rest, f => modes tag fun ms => (rest ms).bind f
  | kept rest, f => kept fun names => (rest names).bind f

instance : Monad Inquiry := { pure := done, bind := bind }

instance [Inhabited α] : Inhabited (Inquiry α) := ⟨done default⟩

def noting (text : String) : Inquiry Unit := remark text (done ())

def templateOf (name : String) : Inquiry (Except RenderFault Template) := template name done

def modesOf (tag : String) : Inquiry (Except Failure (List String)) := modes tag done

def keptNames : Inquiry (List String) := kept done

/-- Answers every question from a repository. -/
def conduct (r : Repository) : Inquiry α → WorkOn linked α
  | done a => pure a
  | remark text rest => do
    Work.debug text
    rest.conduct r
  | template name rest => do
    let t ← r.template name
    (rest t).conduct r
  | modes tag rest => do
    let ms ← Work.attempt (r.modes tag)
    (rest ms).conduct r
  | kept rest => do
    let names ← r.keptNames
    (rest names).conduct r

end Inquiry

end Scaffold
