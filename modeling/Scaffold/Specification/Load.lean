import Scaffold.Input
import Scaffold.Specification.Markup
import Scaffold.Specification.Yaml
import Scaffold.Work

/-!
# Specifications in files

A specification is read as XML where its text begins with `<`, or where its file is named `.xml`;
any other one is read as YAML, of which JSON is a part.
-/

namespace Scaffold.Specification

variable {linked : Bool}

/-- Whether a text is read as XML whatever it is called. -/
def looksLikeMarkup (text : String) : Bool := (Text.trimStart text).toList.head? == some '<'

/-- Reads a specification from a text of either kind. -/
def parse (text : String) : Except Failure Specification :=
  if looksLikeMarkup text then ofMarkup text else ofYaml text

/-- Reads a specification from XML text, and notes that it could be read as a tree. -/
def readMarkup (text : String) : WorkOn linked Specification := do
  let root ← Work.ofExcept (rootOf text)
  noteMarkup root
  Work.ofExcept (ofRoot root)

/-- Reads the specification in a file. -/
def load (p : Path) : WorkOn linked Specification := do
  if !(← Work.disk).isFile p then Work.fail (.specificationNotFound p)
  else
    Work.debug ("Loading specification from " ++ p.text)
    let text ← Work.readText p
    if p.hasExtension "xml" || looksLikeMarkup text then readMarkup text
    else Work.ofExcept (ofYaml text)

end Scaffold.Specification
