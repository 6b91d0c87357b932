import Scaffold.Failure
import Scaffold.Number.Written
import Scaffold.Text.Blank

/-!
# Tokens of templates

A template is text with tags in it: expressions between double braces, statements between a brace
and a percent sign, and comments between a brace and a hash sign, which leave no token. Inside a
raw statement everything is text. A minus sign at the inner edge of a tag removes the blanks beside the
tag. `scan` gives the tokens up to the end or up to the first place where none can be read; the
latter is only a fault for a reader who gets that far.
-/

namespace Scaffold.Template

/-- Operators and punctuation. -/
inductive Mark
  | plus
  | minus
  | times
  | power
  | over
  | floorOver
  | percent
  | tilde
  | pipe
  | eq
  | ne
  | ge
  | gt
  | le
  | lt
  | assign
  | dot
  | comma
  | colon
  | openParen
  | closeParen
  | openBracket
  | closeBracket
  | openBrace
  | closeBrace
deriving DecidableEq, Inhabited, Repr

inductive Token
  | text (s : String)
  | openVariable
  | closeVariable
  | openBlock
  | closeBlock
  | word (s : String)
  | quoted (s : String)
  | int (n : Nat)
  | real (x : Number.Binary64)
  | mark (m : Mark)
deriving DecidableEq, Inhabited

/-- A token with the line it begins on. -/
structure PlacedToken where
  token : Token
  line : Nat
deriving DecidableEq, Inhabited

/-- What can be wrong with the text of a template. -/
inductive TextFault
  | form
  | badEscape
deriving DecidableEq, Inhabited

def TextFault.kind : TextFault → FaultKind
  | form => .form
  | badEscape => .badEscape

/-- Why no token can be read. The line may be left to the reader to tell. -/
structure TokenFault where
  fault : TextFault
  line : Option Nat
deriving DecidableEq, Inhabited

/-- Tokens, and the fault that follows them if there is one. -/
structure TokenStream where
  tokens : List PlacedToken
  fault : Option TokenFault
deriving Inhabited

/-- Which kind of tag is being read. -/
inductive TagKind
  | variable
  | block
deriving DecidableEq, Inhabited

/-- What is read next: text, whose first blanks may have to go, or the inside of a tag, with the
number of brackets that are open. -/
inductive ScanMode
  | text (trim : Bool)
  | tag (kind : TagKind) (depth : Nat)
deriving DecidableEq, Inhabited

/-- One step of scanning. -/
inductive ScanStep
  | token (t : Token) (mode : ScanMode) (line : Nat) (rest : List Char)
  | silent (mode : ScanMode) (line : Nat) (rest : List Char)
  | done
  | fault (f : TokenFault)

namespace Scan

open Text

def newlines (cs : List Char) : Nat := cs.count '\n'

/-- The blanks between tokens. -/
def isSpace (c : Char) : Bool :=
  c == ' ' || c == '\t' || c == '\n' || c == '\x0c' || c == '\r'

/-- How a tag begins or ends with regard to the blanks beside it. -/
inductive Edge
  | plain
  | keep
  | remove
deriving DecidableEq, Inhabited

/-- Reads the sign at the inner edge of a tag. -/
def edge : List Char → Edge × List Char
  | '-' :: r => (.remove, r)
  | '+' :: r => (.keep, r)
  | r => (.plain, r)

/-- The openings of tags and comments. -/
inductive Opening
  | variable
  | block
  | comment
deriving DecidableEq, Inhabited

def opening? : List Char → Option (Opening × List Char)
  | '\x7b' :: '\x7b' :: r => some (.variable, r)
  | '\x7b' :: '%' :: r => some (.block, r)
  | '\x7b' :: '#' :: r => some (.comment, r)
  | _ => none

/-- The text before the first opening. -/
def leadingText : List Char → List Char
  | [] => []
  | c :: r => if (opening? (c :: r)).isSome then [] else c :: leadingText r

/-- The number of characters before the first occurrence of the two characters. -/
def find? (a b : Char) : List Char → Option Nat
  | [] => none
  | c :: r =>
    if c = a ∧ r.head? = some b then some 0 else (find? a b r).map (· + 1)

/-- What follows a statement that consists of one given word. -/
def afterWord? (name : String) (cs : List Char) : Option (Edge × List Char) := do
  let r ← dropLead? name.toList (cs.dropWhile isSpace)
  let (e, r) := edge (r.dropWhile isSpace)
  let r ← dropLead? ['%', '\x7d'] r
  some (e, r)

/-- The text up to the statement that ends a raw part, the edges of that statement, and what
follows it. -/
def rawText? : List Char → Option (List Char × Edge × Edge × List Char)
  | [] => none
  | c :: r =>
    let here := do
      let r ← dropLead? ['\x7b', '%'] (c :: r)
      let (before, r) := edge r
      let (after, r) ← afterWord? "endraw" r
      some ([], before, after, r)
    match here with
    | some h => some h
    | none => (rawText? r).map fun (t, b, a, r) => (c :: t, b, a, r)

def trimLeadIf (e : Edge) (cs : List Char) : List Char :=
  if e = .remove then cs.dropWhile isBlank else cs

def trimTrailIf (e : Edge) (cs : List Char) : List Char :=
  if e = .remove then dropEndWhile isBlank cs else cs

/-- A raw part, read from behind the statement that begins it. -/
def raw (first : Edge) (line : Nat) (cs : List Char) : ScanStep :=
  match rawText? cs with
  | none => .fault ⟨.form, some line⟩
  | some (t, before, after, r) =>
    let consumed := cs.length - r.length
    .token (.text (String.ofList (trimTrailIf before (trimLeadIf first t))))
      (.text (after = .remove)) (line + newlines (cs.take consumed)) r

/-- A comment, read from behind its opening. -/
def comment (line : Nat) (cs : List Char) : ScanStep :=
  match find? '#' '\x7d' cs with
  | none => .fault ⟨.form, some line⟩
  | some n =>
    let inside := cs.take n
    .silent (.text (inside.getLast? = some '-')) (line + newlines inside) (cs.drop (n + 2))

/-- A tag or comment, read from its opening on. -/
def tag (line : Nat) (kind : Opening) (cs : List Char) : ScanStep :=
  let r := (edge cs).2
  match kind with
  | .comment => comment line r
  | .variable => .token .openVariable (.tag .variable 0) line r
  | .block =>
    match afterWord? "raw" r with
    | some (first, after) => raw first (line + newlines (r.take (r.length - after.length))) after
    | none => .token .openBlock (.tag .block 0) line r

/-- Text up to the next tag, or the tag itself if there is no text before it. -/
def text (line : Nat) (cs : List Char) : ScanStep :=
  match opening? cs with
  | some (kind, r) => tag line kind r
  | none =>
    if cs.isEmpty then .done
    else
      let lead := leadingText cs
      let rest := cs.drop lead.length
      let shown := match opening? rest with
        | some (_, r) => trimTrailIf (edge r).1 lead
        | none => lead
      let after := line + newlines lead
      if shown.isEmpty then .silent (.text false) after rest
      else .token (.text (String.ofList shown)) (.text false) after rest

/-- What is written at the end of a tag, behind the sign at its edge. -/
def closing (kind : TagKind) : List Char :=
  match kind with
  | .variable => ['\x7d', '\x7d']
  | .block => ['%', '\x7d']

def closeToken : TagKind → Token
  | .variable => .closeVariable
  | .block => .closeBlock

def close? (kind : TagKind) (cs : List Char) : Option (Edge × List Char) :=
  let (e, r) := edge cs
  match dropLead? (closing kind) cs with
  | some rest => some (.plain, rest)
  | none => (dropLead? (closing kind) r).map fun rest => (e, rest)

/-- The operators and punctuation, the longest first. -/
def mark? : List Char → Option (Mark × List Char)
  | '/' :: '/' :: r => some (.floorOver, r)
  | '*' :: '*' :: r => some (.power, r)
  | '=' :: '=' :: r => some (.eq, r)
  | '!' :: '=' :: r => some (.ne, r)
  | '>' :: '=' :: r => some (.ge, r)
  | '<' :: '=' :: r => some (.le, r)
  | '+' :: r => some (.plus, r)
  | '-' :: r => some (.minus, r)
  | '*' :: r => some (.times, r)
  | '/' :: r => some (.over, r)
  | '%' :: r => some (.percent, r)
  | '~' :: r => some (.tilde, r)
  | '|' :: r => some (.pipe, r)
  | '>' :: r => some (.gt, r)
  | '<' :: r => some (.lt, r)
  | '=' :: r => some (.assign, r)
  | '.' :: r => some (.dot, r)
  | ',' :: r => some (.comma, r)
  | ':' :: r => some (.colon, r)
  | '(' :: r => some (.openParen, r)
  | ')' :: r => some (.closeParen, r)
  | '[' :: r => some (.openBracket, r)
  | ']' :: r => some (.closeBracket, r)
  | '\x7b' :: r => some (.openBrace, r)
  | '\x7d' :: r => some (.closeBrace, r)
  | _ => none

/-- The number of open brackets behind a mark. -/
def depthAfter (depth : Nat) : Mark → Nat
  | .openParen => depth + 1
  | .openBracket => depth + 1
  | .openBrace => depth + 1
  | .closeParen => depth - 1
  | .closeBracket => depth - 1
  | .closeBrace => depth - 1
  | _ => depth

def isWordStart (c : Char) : Bool := c.isAlpha || c == '_'

def isWordPart (c : Char) : Bool := c.isAlphanum || c == '_'

/-- The characters of a quoted text as they are written, up to its closing quote. -/
def quotedBody? (quote : Char) : List Char → Option (List Char × List Char)
  | [] => none
  | '\\' :: c :: r => (quotedBody? quote r).map fun (s, rest) => ('\\' :: c :: s, rest)
  | c :: r =>
    if c = quote then some ([], r)
    else if c = '\\' then none
    else (quotedBody? quote r).map fun (s, rest) => (c :: s, rest)

/-- The value of the four characters of a unicode escape. A plus sign may stand first. -/
def unit? (cs : List Char) : Option Nat :=
  match cs with
  | ['+', a, b, c] => Number.natural? 16 [a, b, c]
  | [a, b, c, d] => Number.natural? 16 [a, b, c, d]
  | _ => none

/-- The code point that two halves of a surrogate pair stand for. -/
def joinHalves? (high low : Nat) : Option Char :=
  if high < 0xDC00 ∧ 0xDC00 ≤ low then
    some (Char.ofNat (0x10000 + (high - 0xD800) * 0x400 + (low - 0xDC00)))
  else none

def isHalf (n : Nat) : Bool := 0xD800 ≤ n && n ≤ 0xDFFF

def simpleEscape? : Char → Option Char
  | '"' => some '"'
  | '\\' => some '\\'
  | '/' => some '/'
  | '\'' => some '\''
  | 'b' => some '\x08'
  | 'f' => some '\x0c'
  | 'n' => some '\n'
  | 'r' => some '\r'
  | 't' => some '\t'
  | _ => none

/-- Replaces escapes; `pending` is a first half that waits for its second. -/
def unescape? (pending : Option Nat) : List Char → Option (List Char)
  | [] => if pending.isSome then none else some []
  | '\\' :: 'u' :: a :: b :: c :: d :: r => do
    let n ← unit? [a, b, c, d]
    match pending, isHalf n with
    | none, false => (unescape? none r).map (Char.ofNat n :: ·)
    | none, true => unescape? (some n) r
    | some _, false => none
    | some p, true => do
      let ch ← joinHalves? p n
      (unescape? none r).map (ch :: ·)
  | '\\' :: c :: r =>
    if pending.isSome then none
    else do
      let e ← simpleEscape? c
      (unescape? none r).map (e :: ·)
  | c :: r =>
    if pending.isSome ∨ c = '\\' then none
    else (unescape? none r).map (c :: ·)

/-- How far the reading of a number has come. -/
inductive NumberPart
  | based
  | whole
  | fraction
  | exponent
  | exponentDigits
deriving DecidableEq, Inhabited

def NumberPart.next? (hexadecimal : Bool) (c : Char) : NumberPart → Option NumberPart
  | .whole => if c = '.' then some .fraction else if c = 'e' ∨ c = 'E' then some .exponent else same .whole
  | .fraction => if c = 'e' ∨ c = 'E' then some .exponent else same .fraction
  | .exponent =>
    if c = '+' ∨ c = '-' ∨ c.isDigit then some .exponentDigits else same .exponent
  | .exponentDigits => same .exponentDigits
  | .based =>
    if hexadecimal ∧ (Number.digitOf? 16 c).isSome then some .based else same .based
where
  same (p : NumberPart) : Option NumberPart := if c.isDigit || c == '_' then some p else none

/-- The characters of a number and the part in which it ends. -/
def numberChars (hexadecimal : Bool) (part : NumberPart) : List Char → List Char × NumberPart
  | [] => ([], part)
  | c :: r =>
    match part.next? hexadecimal c with
    | some p =>
      let (cs, last) := numberChars hexadecimal p r
      (c :: cs, last)
    | none => ([], part)

/-- The base that the first two characters of a number announce. -/
def base : List Char → Nat
  | '0' :: c :: _ =>
    if c = 'b' ∨ c = 'B' then 2 else if c = 'o' ∨ c = 'O' then 8
    else if c = 'x' ∨ c = 'X' then 16 else 10
  | _ => 10

/-- The least number that is too large to be written. -/
def numberLimit : Nat := Number.pow2 128

/-- A number, and what follows it. -/
def number? (cs : List Char) : Option (Token × List Char) :=
  let b := base cs
  let body := if b = 10 then cs else cs.drop 2
  let (written, last) := numberChars (b = 16) (if b = 10 then .whole else .based) body
  let rest := body.drop written.length
  if written.getLast? = some '_' then none
  else
    let digits := written.filter (· ≠ '_')
    if last = .whole ∨ last = .based then
      match Number.natural? b digits with
      | some n => if n < numberLimit then some (.int n, rest) else none
      | none => none
    else (Number.Binary64.read? digits).map fun x => (.real x, rest)

/-- The next token inside a tag. -/
def inside (kind : TagKind) (depth : Nat) (line : Nat) (cs : List Char) : ScanStep :=
  let here := ScanMode.tag kind depth
  match cs with
  | [] => .done
  | c :: r =>
    if isSpace c then .silent here (line + newlines [c]) r
    else
      match (if depth = 0 then close? kind cs else none) with
      | some (e, rest) => .token (closeToken kind) (.text (e = .remove)) line rest
      | none =>
        match mark? cs with
        | some (m, rest) => .token (.mark m) (.tag kind (depthAfter depth m)) line rest
        | none =>
          if c = '"' ∨ c = '\'' then
            match quotedBody? c r with
            | none => .fault ⟨.form, some line⟩
            | some (body, rest) =>
              match unescape? none body with
              | none => .fault ⟨.badEscape, none⟩
              | some s => .token (.quoted (String.ofList s)) here (line + newlines body) rest
          else if c.isDigit then
            match number? cs with
            | some (t, rest) => .token t here line rest
            | none => .fault ⟨.form, some line⟩
          else if isWordStart c then
            .token (.word (String.ofList (cs.takeWhile isWordPart))) here line
              (cs.dropWhile isWordPart)
          else .fault ⟨.form, some line⟩

/-- One step. A token begins where the step that gives it does. -/
def step (mode : ScanMode) (line : Nat) (cs : List Char) : ScanStep :=
  match mode with
  | .text false => text line cs
  | .text true =>
    .silent (.text false) (line + newlines (cs.takeWhile isBlank)) (cs.dropWhile isBlank)
  | .tag kind depth => inside kind depth line cs

/-- Steps as long as `fuel` lasts. -/
def run : Nat → ScanMode → Nat → List Char → TokenStream
  | 0, _, _, _ => ⟨[], none⟩
  | fuel + 1, mode, line, cs =>
    match step mode line cs with
    | .done => ⟨[], none⟩
    | .fault f => ⟨[], some f⟩
    | .silent m l r => run fuel m l r
    | .token t m l r =>
      let s := run fuel m l r
      ⟨⟨t, line⟩ :: s.tokens, s.fault⟩

end Scan

/-- One line end at the end of a template does not belong to it. -/
def withoutLastLineEnd (cs : List Char) : List Char :=
  let r := match cs.reverse with
    | '\n' :: r => r
    | r => r
  match r with
  | '\r' :: r => r.reverse
  | r => r.reverse

/-- The tokens of a template. A step either takes a character or is the trimming behind a tag, so
that there are at most two steps for a character. -/
def scan (text : String) : TokenStream :=
  let cs := withoutLastLineEnd text.toList
  Scan.run (2 * cs.length + 2) (.text false) 1 cs

end Scaffold.Template
