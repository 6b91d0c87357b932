import Scaffold.Template.Machine

/-!
# Below an evaluation

Expressions and statements are evaluated by recursion on their structure. What leads out of the
structure goes through a `Lower`: bodies of macros, blocks and other templates, further rounds of
recursive loops, and children of the node that is rendered.
-/

namespace Scaffold.Template

/-- What an evaluation can ask of what lies deeper. -/
structure Lower where
  /-- The value of an expression of a template. -/
  eval : String → Expression → Run Value
  /-- Runs statements of a template. -/
  statements : String → List Statement → Run Unit
  /-- Runs a body of a template to its end, and its parent's if it has one. -/
  body : String → List Statement → Run Unit
  /-- Runs a recursive loop of a template over other items. -/
  again : String → Repetition → Value → Run Unit
  /-- Renders a child. -/
  child : Node → String → Inquiry (Except Failure String)

end Scaffold.Template
