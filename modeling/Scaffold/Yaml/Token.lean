import Scaffold.Yaml.Label
import Scaffold.Yaml.Scalar

/-!
# Tokens

`tokens` turns the spots of a text into tokens. Whether a token begins a key is known only when
a colon follows it, so a `Scan` remembers one candidate for each level of nesting, and puts the
marks of a key, and of a mapping that begins with it, in front of the candidate afterwards. A text
that breaks a rule has the tokens that were certain before: those in front of the first candidate.
-/

namespace Scaffold.Yaml

inductive Token
  | streamEnd
  | directive (d : Directive)
  | documentStart
  | documentEnd
  | sequenceStart
  | mappingStart
  | blockEnd
  | flowSequenceStart
  | flowSequenceEnd
  | flowMappingStart
  | flowMappingEnd
  | entry
  | comma
  | key
  | value
  | reference (name : String)
  | anchor (name : String)
  | tag (name : TagName)
  | scalar (style : ScalarStyle) (text : String)
deriving DecidableEq, Inhabited

/-- A place where a key may have begun: how many tokens stand before it, and where it is. A
candidate that is required must turn out to be a key. -/
structure KeyCandidate where
  number : Nat
  index : Nat
  line : Nat
  column : Nat
  required : Bool
deriving DecidableEq, Inhabited

/-- A key has its colon in the same line, within this many characters. -/
def keyReach : Nat := 1024

/-- Whether it is too late for the colon of a candidate. -/
def KeyCandidate.isStale (k : KeyCandidate) : Rest → Bool
  | [] => true
  | s :: _ => k.line < s.line || k.index + keyReach < s.index

/-- A text on its way to tokens. The tokens are listed latest first; `outer` holds the candidates
of the enclosing levels, innermost first, and `indents` the columns of the open blocks. -/
structure Scan where
  rest : Rest
  tokens : List Token
  count : Nat
  candidate : Option KeyCandidate
  outer : List (Option KeyCandidate)
  keyAllowed : Bool
  indents : List Nat
deriving Inhabited

namespace Scan

def start (r : Rest) : Scan := ⟨r, [], 0, none, [], true, []⟩

/-- Whether the text is within brackets or braces. -/
def inFlow (s : Scan) : Bool := !s.outer.isEmpty

def push (t : Token) (s : Scan) : Scan := { s with tokens := t :: s.tokens, count := s.count + 1 }

/-- Puts a token in front of the tokens from the given number on. -/
def insertAt (n : Nat) (t : Token) (s : Scan) : Scan :=
  { s with
    tokens := s.tokens.take (s.count - n) ++ t :: s.tokens.drop (s.count - n)
    count := s.count + 1 }

/-- The tokens that no candidate can change any more. -/
def certain (s : Scan) : List Token :=
  let limit := (s.candidate :: s.outer).foldl (fun n k => min n ((k.map (·.number)).getD n)) s.count
  (s.tokens.drop (s.count - limit)).reverse

/-- Gives up a candidate; one that is required must not be given up. -/
def dropCandidate (s : Scan) : Option Scan :=
  if s.candidate.any (·.required) then none else some { s with candidate := none }

/-- Gives up all candidates that are stale. -/
def dropStale (s : Scan) : Option Scan :=
  let stale (k : KeyCandidate) : Bool := k.isStale s.rest
  if (s.candidate :: s.outer).any fun k => k.any fun k => stale k && k.required then none
  else
    let fresh (k : Option KeyCandidate) : Option KeyCandidate := k.filter (!stale ·)
    some { s with candidate := fresh s.candidate, outer := s.outer.map fresh }

/-- Notes that a key may begin here, if one may. -/
def addCandidate (here : Spot) (s : Scan) : Option Scan :=
  if s.keyAllowed then do
    let s ← s.dropCandidate
    let required := !s.inFlow && s.indents.head? == some here.column
    some { s with candidate := some ⟨s.count, here.index, here.line, here.column, required⟩ }
  else some s

def open_ (s : Scan) : Scan := { s with outer := s.candidate :: s.outer, candidate := none }

def close (s : Scan) : Scan :=
  match s.outer with
  | k :: ks => { s with candidate := k, outer := ks }
  | [] => s

/-- Begins a block at a column that is deeper than the blocks around it. Its token goes in front of
the tokens from the given number on. -/
def roll (column number : Nat) (t : Token) (s : Scan) : Scan :=
  if s.inFlow then s
  else if s.indents.head?.all (· < column) then
    { s.insertAt number t with indents := column :: s.indents }
  else s

/-- Ends the blocks that satisfy `p`, innermost first. -/
def unroll (p : Nat → Bool) (s : Scan) : Scan :=
  if s.inFlow then s
  else
    let n := (s.indents.takeWhile p).length
    { s with
      tokens := List.replicate n .blockEnd ++ s.tokens
      count := s.count + n
      indents := s.indents.drop n }

/-- Ends everything that is open, in front of a mark that stands for itself. -/
def unrollAll (s : Scan) : Option Scan := do
  let s ← (s.unroll fun _ => true).dropCandidate
  some { s with keyAllowed := false }

/-- Skips blanks, comments and line ends. A new line outside brackets allows a key; where a key is
allowed there, tabs are not skipped. -/
def skipToToken (flow : Bool) (allowed comment : Bool) : Rest → Bool × Rest
  | [] => (allowed, [])
  | s :: r =>
    if isBreak s.char then skipToToken flow (allowed || !flow) false r
    else if comment then skipToToken flow allowed true r
    else if s.char = byteOrderMark ∧ s.column = 0 then skipToToken flow allowed false r
    else if s.char = ' ' ∨ (s.char = '\t' ∧ (flow ∨ !allowed)) then skipToToken flow allowed false r
    else if s.char = '#' then skipToToken flow allowed true r
    else (allowed, s :: r)

/-- Marks that cannot begin a plain scalar. -/
def isIndicator (c : Char) : Bool := "-?:,[]\x7b\x7d#&*!|>'\"%@`".toList.contains c

/-- Whether a plain scalar begins with this character, given what follows it. -/
def startsPlain (flow : Bool) (c : Char) (r : Rest) : Bool :=
  !(isGap c || isBreak c || isIndicator c) ||
    (c == '-' && !(r.front?.any isGap)) ||
    (!flow && (c == '?' || c == ':') && !r.endsWord)

/-- Reads an anchor or an alias. -/
def label (make : String → Token) (here : Spot) (r : Rest) (s : Scan) : Option Scan := do
  let s ← s.addCandidate here
  let (name, r) ← anchor? r
  some ({ s with keyAllowed := false, rest := r }.push (make name))

def quoted (here : Spot) (r : Rest) (s : Scan) : Option Scan := do
  let s ← s.addCandidate here
  let (text, r) ← quoted? here.char r
  some ({ s with keyAllowed := false, rest := r }.push (.scalar .other (String.ofList text)))

/-- Reads a plain scalar. After one that is followed by a line end, a key may begin. -/
def plain (here : Spot) (r : Rest) (s : Scan) : Option Scan := do
  let s ← s.addCandidate here
  let p ← plain? s.inFlow ((s.indents.head?.map (· + 1)).getD 0) (here :: r)
  some ({ s with keyAllowed := p.fold.hasBreaks, rest := p.rest }.push
    (.scalar .plain (String.ofList p.text)))

def block (folded : Bool) (r : Rest) (s : Scan) : Option Scan := do
  let s ← s.dropCandidate
  let (text, r) ← block? folded s.indents.head? r
  some ({ s with keyAllowed := true, rest := r }.push
    (.scalar (if folded then .other else .literal) (String.ofList text)))

/-- Begins a list or a mapping in brackets. -/
def flowStart (t : Token) (here : Spot) (r : Rest) (s : Scan) : Option Scan := do
  let s ← s.addCandidate here
  some ({ s.open_ with keyAllowed := true, rest := r }.push t)

def flowEnd (t : Token) (r : Rest) (s : Scan) : Option Scan := do
  let s ← s.dropCandidate
  some ({ s.close with keyAllowed := false, rest := r }.push t)

/-- Reads the mark of an entry of a block, or of a key that is written with its mark. -/
def blockMark (opening t : Token) (allowedAfter : Bool) (here : Spot) (r : Rest) (s : Scan) :
    Option Scan := do
  if !s.inFlow && !s.keyAllowed then none
  let s ← (s.roll here.column s.count opening).dropCandidate
  some ({ s with keyAllowed := allowedAfter, rest := r }.push t)

/-- Reads the colon of a value. The candidate, if there is one, is a key. -/
def value (here : Spot) (r : Rest) (s : Scan) : Option Scan :=
  match s.candidate with
  | some k =>
    let s := (s.insertAt k.number .key).roll k.column k.number .mappingStart
    some ({ s with candidate := none, keyAllowed := false, rest := r }.push .value)
  | none =>
    if s.inFlow then some ({ s with keyAllowed := false, rest := r }.push .value)
    else if s.keyAllowed then
      some ({ s.roll here.column s.count .mappingStart with keyAllowed := true, rest := r }.push
        .value)
    else none

/-- Reads the next token. -/
def next (s : Scan) : Option Scan := do
  let (allowed, rest) := skipToToken s.inFlow s.keyAllowed false s.rest
  let s ← { s with rest := rest, keyAllowed := allowed }.dropStale
  match rest with
  | [] =>
    let s ← s.unrollAll
    some (s.push .streamEnd)
  | here :: r =>
    let s := s.unroll (here.column < ·)
    let c := here.char
    if here.column = 0 ∧ c = '%' then
      let s ← s.unrollAll
      let (d, r) ← directive? r
      some ({ s with rest := r }.push (.directive d))
    else if Rest.startsWithMark '-' rest then
      let s ← s.unrollAll
      some ({ s with rest := r.drop 2 }.push .documentStart)
    else if Rest.startsWithMark '.' rest then
      let s ← s.unrollAll
      some ({ s with rest := r.drop 2 }.push .documentEnd)
    else if c = '[' then s.flowStart .flowSequenceStart here r
    else if c = '\x7b' then s.flowStart .flowMappingStart here r
    else if c = ']' then s.flowEnd .flowSequenceEnd r
    else if c = '\x7d' then s.flowEnd .flowMappingEnd r
    else if c = ',' then
      let s ← s.dropCandidate
      some ({ s with keyAllowed := true, rest := r }.push .comma)
    else if c = '-' ∧ Rest.endsWord r then s.blockMark .sequenceStart .entry true here r
    else if c = '?' ∧ (s.inFlow ∨ Rest.endsWord r) then
      s.blockMark .mappingStart .key (!s.inFlow) here r
    else if c = ':' ∧ (s.inFlow ∨ Rest.endsWord r) then s.value here r
    else if c = '*' then s.label .reference here r
    else if c = '&' then s.label .anchor here r
    else if c = '!' then
      let s ← s.addCandidate here
      let (t, r) ← tag? s.inFlow r
      some ({ s with keyAllowed := false, rest := r }.push (.tag t))
    else if c = '|' ∧ !s.inFlow then s.block false r
    else if c = '>' ∧ !s.inFlow then s.block true r
    else if c = '\'' ∨ c = '"' then s.quoted here r
    else if startsPlain s.inFlow c r then s.plain here r
    else none

/-- Reads tokens to the end of the text, or to the first fault. -/
def run (fuel : Nat) (s : Scan) : List Token :=
  match s.dropStale with
  | none => s.certain
  | some s =>
    if s.tokens.head? = some .streamEnd then s.certain
    else
      match fuel with
      | 0 => s.certain
      | fuel + 1 =>
        match s.next with
        | none => s.certain
        | some t => run fuel t

end Scan

/-- The tokens of a text; the last one is the end of the stream if no rule is broken. -/
def tokens (r : Rest) : List Token := (Scan.start r).run (r.length + 2)

end Scaffold.Yaml
