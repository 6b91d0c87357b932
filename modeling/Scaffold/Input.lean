import Scaffold.Markup.Document
import Scaffold.Tree.Record
import Scaffold.Work

/-!
# Input documents

A document is an XML or a JSON text, told apart by the extension of its file. Either way it is read
as a tree of nodes.
-/

namespace Scaffold

variable {linked : Bool}

inductive DocumentFormat
  | xml
  | json
deriving DecidableEq, Inhabited

namespace DocumentFormat

def name : DocumentFormat → String
  | xml => "XML"
  | json => "JSON"

/-- The format that the extension of a path tells. -/
def ofPath (p : Path) : Except Failure DocumentFormat :=
  if p.hasExtension "xml" then .ok xml
  else if p.hasExtension "json" then .ok json
  else .error (.parse ("input '" ++ p.text ++ "' must be an XML or JSON file"))

end DocumentFormat

namespace Node

/-- The tree of an XML text. -/
def ofMarkup (mode : Markup.TextMode) (text : String) : Except Failure Node :=
  (Markup.read mode text).mapError fun f => .parse f.message

def ofRecord (r : Except Decode.Fault Record) : Except Failure Node := do
  let r ← r.mapError fun f => .parse ("invalid JSON tree: " ++ f.message .json)
  r.toNode.mapError fun f => .parse f.message

/-- The tree of a JSON text. -/
def ofJsonText (text : String) : Except Failure Node := ofRecord (Record.read text)

/-- The tree of a JSON value. -/
def ofJson (v : Json) : Except Failure Node := ofRecord (Record.ofJson v)

/-- The value of a JSON text. -/
def readJson (text : String) : Except Failure Json :=
  match Json.read? text with
  | some v => .ok v
  | none => .error (.parse "invalid JSON: <syntax>")

end Node

/-- Reads an input document, and tells its format. -/
def readInput (p : Path) : WorkOn linked (String × DocumentFormat) := do
  let format ← Work.ofExcept (DocumentFormat.ofPath p)
  Work.debug ("Reading " ++ format.name ++ " input from " ++ p.text)
  let text ← Work.readText p
  pure (text, format)

/-- Notes that an XML document has been read. -/
def noteMarkup (n : Node) : WorkOn linked Unit :=
  Work.debug ("Parsed XML document with root <" ++ n.tag ++ ">")

end Scaffold
