import Scaffold.Markup.Reference

/-!
# Events of XML text

`events` reads a text into the events of its markup, in order, up to its end or to the first
fault. Names are any characters up to white space, texts are taken as they are written, and end
tags have to match the start tags before them.
-/

namespace Scaffold.Markup

/-- What stands in an XML text. References are replaced already. -/
inductive Event
  | start (name : String) (attributes : List (String × String))
  | empty (name : String) (attributes : List (String × String))
  | finish
  | text (content : String)
  | cdata (content : String)
  | other
deriving DecidableEq, Inhabited

def isSpace (c : Char) : Bool := c == ' ' || c == '\r' || c == '\n' || c == '\t'

/-! ### Where constructs end -/

/-- A tag ends at the first `>` that is not between quotes. -/
def tagEnd? (quote : Option Char) : List Char → Option (List Char × List Char)
  | [] => none
  | c :: r =>
    let next (q : Option Char) := (tagEnd? q r).map fun (t, r) => (c :: t, r)
    match quote with
    | none =>
      if c = '>' then some ([], r)
      else if c = '\'' ∨ c = '"' then next (some c)
      else next none
    | some q => if c = q then next none else next (some q)

/-- What stands before the first `>` whose preceding characters, nearest first, satisfy `stop`. -/
def closedBy? (stop : List Char → Bool) (before : List Char) :
    List Char → Option (List Char × List Char)
  | [] => none
  | c :: r =>
    if c = '>' ∧ stop before then some (before.reverse, r)
    else closedBy? stop (c :: before) r

/-- A document type ends where its angle brackets are balanced. -/
def doctypeEnd? (depth : Nat) : List Char → Option (List Char × List Char)
  | [] => none
  | c :: r =>
    let next (d : Nat) := (doctypeEnd? d r).map fun (t, r) => (c :: t, r)
    if c = '<' then next (depth + 1)
    else if c = '>' then
      match depth with
      | 0 => some ([], r)
      | d + 1 => next d
    else next depth

def endsInstruction : List Char → Bool
  | '?' :: _ => true
  | _ => false

def endsComment : List Char → Bool
  | '-' :: '-' :: r => decide (3 ≤ r.length)
  | _ => false

def endsCData : List Char → Bool
  | ']' :: ']' :: _ => true
  | _ => false

/-! ### Attributes -/

/-- Reads attributes from byte `position` of a tag on; `seen` holds the keys before it and their
positions. -/
def attributesFrom (tag : String) (fuel position : Nat) (seen : List (String × Nat))
    (cs : List Char) : Except Fault (List (String × String)) :=
  match fuel with
  | 0 => .ok []
  | fuel + 1 =>
    let bytes := Text.byteLength
    let blank := cs.takeWhile isSpace
    let start := position + bytes blank
    match cs.dropWhile isSpace with
    | [] => .ok []
    | k :: r =>
      let inKey (c : Char) : Bool := c != '=' && !isSpace c
      let key := k :: r.takeWhile inKey
      let afterKey := start + bytes key
      let r := r.dropWhile inKey
      let gap := r.takeWhile isSpace
      let atEquals := afterKey + bytes gap
      match r.dropWhile isSpace with
      | '=' :: r =>
        let name := String.ofList key
        match seen.lookup name with
        | some previous => .error (.attribute tag (.duplicated start previous))
        | none =>
          let gap := r.takeWhile isSpace
          let atQuote := atEquals + 1 + bytes gap
          match r.dropWhile isSpace with
          | [] => .error (.attribute tag (.expectedValue atQuote))
          | q :: r =>
            if q = '\'' ∨ q = '"' then
              let raw := r.takeWhile (· != q)
              match r.dropWhile (· != q) with
              | [] =>
                .error (.attribute tag (.missingQuote (atQuote + 1 + bytes raw) q))
              | _ :: r =>
                match resolve raw with
                | .error f => .error (.value name tag f)
                | .ok v => do
                  let rest ← attributesFrom tag fuel (atQuote + bytes raw + 2)
                    (seen ++ [(name, start)]) r
                  .ok ((name, String.ofList v) :: rest)
            else .error (.attribute tag (.unquotedValue atQuote))
      | _ => .error (.attribute tag (.expectedEquals atEquals))

/-- The name of a tag and its attributes. -/
def tagParts (content : List Char) : Except Fault (String × List (String × String)) := do
  let inName (c : Char) : Bool := !isSpace c
  let name := content.takeWhile inName
  let tag := String.ofList name
  let attributes ← attributesFrom tag (content.length + 1) (Text.byteLength name) []
    (content.dropWhile inName)
  .ok (tag, attributes)

/-! ### The reader -/

/-- The place of the reader: its byte position, the names of the open elements with the innermost
first, and the text that is left. -/
structure Cursor where
  position : Nat
  names : List String
  rest : List Char

/-- The end of the text as a position. -/
def Cursor.limit (c : Cursor) : Nat := c.position + Text.byteLength c.rest

/-- Moves past a construct and the `>` behind it. -/
def Cursor.past (c : Cursor) (content rest : List Char) : Cursor :=
  ⟨c.position + Text.byteLength content + 1, c.names, rest⟩

abbrev Reading := Except Fault (Event × Cursor)

def Cursor.lexical (c : Cursor) (f : LexicalFault) : Reading := .error (.lexical c.position f)

/-- The fault of a construct that reaches to the end of the text. -/
def Cursor.unclosed (c : Cursor) (f : LexicalFault) : Reading := .error (.lexical c.limit f)

/-- A tag's name without the white space behind it, unless it is nothing else. -/
def endName (content : List Char) : List Char :=
  if content.all isSpace then content else Text.dropEndWhile isSpace content

def endTag (c : Cursor) (content : List Char) (rest : List Char) : Reading :=
  let after := c.past ('/' :: content) rest
  let found := String.ofList (endName content)
  match c.names with
  | [] => .error (.nesting after.position (.unmatchedEnd found))
  | name :: names =>
    if found = name then .ok (.finish, { after with names })
    else .error (.nesting after.position (.mismatchedEnd name found))

def startTag (c : Cursor) (content rest : List Char) : Reading := do
  let after := c.past content rest
  if content.getLast? = some '/' then
    let (tag, attributes) ← tagParts content.dropLast
    .ok (.empty tag attributes, after)
  else
    let (tag, attributes) ← tagParts content
    .ok (.start tag attributes, { after with names := tag :: c.names })

/-- Reads what starts with `<!`; the text after `<` is at the cursor. -/
def declaration (c : Cursor) : Reading :=
  match c.rest with
  | '!' :: '[' :: _ =>
    match closedBy? endsCData [] c.rest with
    | none => c.unclosed .unclosedCData
    | some (content, rest) =>
      let after := c.past content rest
      match Text.dropLead? "![CDATA[".toList content with
      | some data =>
        .ok (.cdata (String.ofList data.dropLast.dropLast), after)
      | none => after.lexical .unclosedCData
  | '!' :: '-' :: _ =>
    match closedBy? endsComment [] c.rest with
    | none => c.unclosed .unclosedComment
    | some (content, rest) =>
      let after := c.past content rest
      match content with
      | '!' :: '-' :: '-' :: _ => .ok (.other, after)
      | _ => after.lexical .unclosedComment
  | '!' :: d :: _ =>
    if d = 'D' ∨ d = 'd' then
      match doctypeEnd? 0 c.rest with
      | none => c.unclosed .unclosedDoctype
      | some (content, rest) =>
        let after := c.past content rest
        match Text.dropLead? "!doctype".toList (content.take 8 |>.map Char.toLower) with
        | some _ =>
          if (content.drop 8).all isSpace then
            .error (.nesting after.position .missingDoctypeName)
          else .ok (.other, after)
        | none => after.lexical .unclosedDoctype
    else c.lexical .unknownDeclaration
  | _ => c.lexical .unknownDeclaration

def instruction (c : Cursor) : Reading :=
  match closedBy? endsInstruction [] c.rest with
  | none => c.unclosed .unclosedInstruction
  | some (content, rest) =>
    let after := c.past content rest
    if content.length = 1 then after.lexical .unclosedInstruction else .ok (.other, after)

/-- Reads the construct whose `<` is just before the cursor. -/
def construct (c : Cursor) : Reading :=
  match c.rest with
  | [] => c.lexical .unclosedTag
  | '!' :: _ => declaration c
  | '?' :: _ => instruction c
  | '/' :: r =>
    match tagEnd? none r with
    | none => c.unclosed .unclosedTag
    | some (content, rest) => endTag c content rest
  | r =>
    match tagEnd? none r with
    | none => c.unclosed .unclosedTag
    | some (content, rest) => startTag c content rest

/-- The events from the cursor on, and the fault that ends them, if one does. -/
def eventsFrom (fuel : Nat) (c : Cursor) : List Event × Option Fault :=
  match fuel with
  | 0 => ([], none)
  | fuel + 1 =>
    match c.rest with
    | [] => ([], none)
    | '<' :: r =>
      match construct { c with position := c.position + 1, rest := r } with
      | .error f => ([], some f)
      | .ok (e, c) =>
        let (es, f) := eventsFrom fuel c
        (e :: es, f)
    | cs =>
      let raw := cs.takeWhile (· != '<')
      let after : Cursor :=
        ⟨c.position + Text.byteLength raw, c.names, cs.dropWhile (· != '<')⟩
      match resolve raw with
      | .error f => ([], some (.text f))
      | .ok s =>
        let (es, f) := eventsFrom fuel after
        (.text (String.ofList s) :: es, f)

def byteOrderMark : Char := '\ufeff'

/-- The events of a text; one byte order mark at its start is passed over. -/
def events (cs : List Char) : List Event × Option Fault :=
  let cs := match cs with
    | c :: r => if c = byteOrderMark then r else cs
    | [] => []
  eventsFrom (cs.length + 1) ⟨0, [], cs⟩

end Scaffold.Markup
