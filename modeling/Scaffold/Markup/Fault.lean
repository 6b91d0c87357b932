import Scaffold.Tree.Node

/-!
# Faults of XML documents

Positions are counted in bytes: of the whole text where a construct is not closed or does not
match, of a tag's own text for its attributes, of a piece of text for its references.
-/

namespace Scaffold.Markup

/-- A construct that is not known or whose end is missing. -/
inductive LexicalFault
  | unknownDeclaration
  | unclosedInstruction
  | unclosedComment
  | unclosedDoctype
  | unclosedCData
  | unclosedTag
deriving DecidableEq, Inhabited

def LexicalFault.message : LexicalFault → String
  | .unknownDeclaration => "unknown or missed symbol in markup"
  | .unclosedInstruction =>
    "processing instruction or xml declaration not closed: `?>` not found before end of input"
  | .unclosedComment => "comment not closed: `-->` not found before end of input"
  | .unclosedDoctype => "DOCTYPE not closed: `>` not found before end of input"
  | .unclosedCData => "CDATA not closed: `]]>` not found before end of input"
  | .unclosedTag => "tag not closed: `>` not found before end of input"

/-- Tags that do not match, or a document type without a name. -/
inductive NestingFault
  | missingDoctypeName
  | mismatchedEnd (expected found : String)
  | unmatchedEnd (found : String)
deriving DecidableEq, Inhabited

def NestingFault.message : NestingFault → String
  | .missingDoctypeName =>
    "`<!DOCTYPE>` declaration does not contain a name of a document type"
  | .mismatchedEnd e f => "expected `</" ++ e ++ ">`, but `</" ++ f ++ ">` was found"
  | .unmatchedEnd f => "close tag `</" ++ f ++ ">` does not match any open tag"

inductive AttributeFault
  | expectedEquals (at_ : Nat)
  | expectedValue (at_ : Nat)
  | unquotedValue (at_ : Nat)
  | missingQuote (at_ : Nat) (quote : Char)
  | duplicated (at_ previous : Nat)
deriving DecidableEq, Inhabited

def AttributeFault.message : AttributeFault → String
  | .expectedEquals p =>
    "position " ++ toString p ++ ": attribute key must be directly followed by `=` or space"
  | .expectedValue p => "position " ++ toString p ++ ": `=` must be followed by an attribute value"
  | .unquotedValue p =>
    "position " ++ toString p ++ ": attribute value must be enclosed in `\"` or `'`"
  | .missingQuote p q =>
    "position " ++ toString p ++ ": missing closing quote `" ++ q.toString ++ "` in attribute value"
  | .duplicated p q =>
    "position " ++ toString p ++ ": duplicated attribute, previous declaration at position " ++
      toString q

/-- Why a character reference stands for no character. -/
inductive CharacterFault
  | sign
  | noDigits
  | notDigit
  | tooLarge
  | notScalar (code : Nat)
  | null
deriving DecidableEq, Inhabited

def CharacterFault.message : CharacterFault → String
  | .sign => "unexpected number sign"
  | .noDigits => "cannot parse integer from empty string"
  | .notDigit => "invalid digit found in string"
  | .tooLarge => "number too large to fit in target type"
  | .notScalar n => "`" ++ toString n ++ "` is not a valid codepoint"
  | .null => "0x0 character is not permitted in XML"

inductive ReferenceFault
  | unknownEntity (first last : Nat) (name : String)
  | unterminated (first last : Nat)
  | character (fault : CharacterFault)
deriving DecidableEq, Inhabited

def ReferenceFault.message : ReferenceFault → String
  | .unknownEntity a b n =>
    "at " ++ toString a ++ ".." ++ toString b ++ ": unrecognized entity `" ++ n ++ "`"
  | .unterminated a b =>
    "Error while escaping character at range " ++ toString a ++ ".." ++ toString b ++
      ": Cannot find ';' after '&'"
  | .character f => "invalid character reference: " ++ f.message

/-- Why a text is no XML document, or its tree cannot be built. -/
inductive Fault
  | lexical (position : Nat) (fault : LexicalFault)
  | nesting (position : Nat) (fault : NestingFault)
  | attribute (tag : String) (fault : AttributeFault)
  | value (key tag : String) (fault : ReferenceFault)
  | text (fault : ReferenceFault)
  | unexpectedEnd
  | textOutside
  | secondRoot (tag : String)
  | neverClosed (tag : String)
  | noRoot
  | tree (fault : TreeFault)
deriving DecidableEq, Inhabited

def Fault.message : Fault → String
  | .lexical p f => "XML error at byte " ++ toString p ++ ": syntax error: " ++ f.message
  | .nesting p f => "XML error at byte " ++ toString p ++ ": ill-formed document: " ++ f.message
  | .attribute t f => "bad attribute on <" ++ t ++ ">: " ++ f.message
  | .value k t f => "bad value for '" ++ k ++ "' on <" ++ t ++ ">: " ++ f.message
  | .text f => "bad text content: " ++ f.message
  | .unexpectedEnd => "unexpected closing tag"
  | .textOutside => "text found outside of the root element"
  | .secondRoot t => "document has more than one root element (second is <" ++ t ++ ">)"
  | .neverClosed t => "element <" ++ t ++ "> is never closed"
  | .noRoot => "document has no root element"
  | .tree f => f.message

end Scaffold.Markup
