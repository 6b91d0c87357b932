import Scaffold.Entries
import Scaffold.Yaml.Token

/-!
# Trees of a YAML text, as far as they can be read

A `Draft` is the tree that a text writes. Where the text breaks a rule the tree is cut: containers
that are not closed say so, and what stands in the place of the fault is `broken`. Aliases are not
followed; a `Document` knows the trees that they stand for.
-/

namespace Scaffold.Yaml

/-- The anchor of a tree, as a number, and its tag. -/
structure Mark where
  anchor : Option Nat
  tag : Option String
deriving DecidableEq, Inhabited

def Mark.none : Mark := ⟨.none, .none⟩

inductive Draft
  | scalar (mark : Mark) (style : ScalarStyle) (text : String)
  | sequence (mark : Mark) (items : List Draft) (closed : Bool)
  | mapping (mark : Mark) (pairs : List (Draft × Draft)) (closed : Bool)
  | reference (anchor : Nat)
  | broken
deriving Inhabited

namespace Draft

/-- What stands where nothing is written. -/
def empty : Draft := .scalar .none .plain ""

def mark : Draft → Mark
  | scalar m _ _ => m
  | sequence m _ _ => m
  | mapping m _ _ => m
  | _ => .none

mutual

/-- Whether no rule is broken in the tree. -/
def isWhole : Draft → Bool
  | scalar _ _ _ => true
  | sequence _ items closed => allWhole items && closed
  | mapping _ pairs closed => pairsWhole pairs && closed
  | reference _ => true
  | broken => false

def allWhole : List Draft → Bool
  | [] => true
  | d :: r => isWhole d && allWhole r

def pairsWhole : List (Draft × Draft) → Bool
  | [] => true
  | (k, v) :: r => isWhole k && isWhole v && pairsWhole r

end

mutual

/-- The number of marks that the tree is made of: one for a scalar or an alias, and one for each
end of a container. -/
def size : Draft → Nat
  | scalar _ _ _ => 1
  | sequence _ items closed => sizeOfList items + (if closed then 2 else 1)
  | mapping _ pairs closed => sizeOfPairs pairs + (if closed then 2 else 1)
  | reference _ => 1
  | broken => 0

def sizeOfList : List Draft → Nat
  | [] => 0
  | d :: r => size d + sizeOfList r

def sizeOfPairs : List (Draft × Draft) → Nat
  | [] => 0
  | (k, v) :: r => size k + size v + sizeOfPairs r

end

def ownAnchor (d : Draft) : List (Nat × Draft) :=
  match d.mark.anchor with
  | some n => [(n, d)]
  | none => []

mutual

/-- The trees that have an anchor, in pre-order. -/
def anchored : Draft → List (Nat × Draft)
  | d@(sequence _ items _) => d.ownAnchor ++ anchoredOfList items
  | d@(mapping _ pairs _) => d.ownAnchor ++ anchoredOfPairs pairs
  | d => d.ownAnchor

def anchoredOfList : List Draft → List (Nat × Draft)
  | [] => []
  | d :: r => anchored d ++ anchoredOfList r

def anchoredOfPairs : List (Draft × Draft) → List (Nat × Draft)
  | [] => []
  | (k, v) :: r => anchored k ++ anchored v ++ anchoredOfPairs r

end

end Draft

/-- What the reading of a tree starts from: the tokens that are left, the anchors seen so far with
their numbers, and the handles of tags. -/
structure Supply where
  tokens : List Token
  anchors : List (String × Nat)
  handles : List (String × String)
deriving Inhabited

namespace Supply

def with_ (s : Supply) (ts : List Token) : Supply := { s with tokens := ts }

/-- Gives an anchor its number: how many names were anchored before. -/
def register (s : Supply) : Option String → Option Nat × Supply
  | none => (none, s)
  | some a => (some s.anchors.length,
      { s with anchors := Entries.insert a s.anchors.length s.anchors })

/-- The full tag that a tag as it is written stands for. -/
def resolve? (s : Supply) (t : TagName) : Option String :=
  if t.handle = "" then some t.suffix
  else (s.handles.lookup t.handle).map (· ++ t.suffix)

/-- Reads an anchor and a tag, each at most once, in either order. -/
def labels (s : Supply) : Option String × Option TagName × Supply :=
  match s.tokens with
  | .anchor a :: .tag t :: r => (some a, some t, s.with_ r)
  | .tag t :: .anchor a :: r => (some a, some t, s.with_ r)
  | .anchor a :: r => (some a, none, s.with_ r)
  | .tag t :: r => (none, some t, s.with_ r)
  | _ => (none, none, s)

end Supply

/-- The part of a text that has been read, and the supply for what follows if all is well. -/
abbrev Reading (α : Type) := α × Option Supply

def failed {α : Type} (a : α) : Reading α := (a, none)

/-- Puts an item in front of those that are read after it. -/
def consItem {α : Type} (first : Reading α) (rest : Supply → Reading (List α)) : Reading (List α) :=
  match first with
  | (d, none) => failed [d]
  | (d, some s) =>
    let (ds, s) := rest s
    (d :: ds, s)

/-- Reads a key and the value after it. -/
def pairWith (first : Reading Draft) (second : Supply → Reading Draft) :
    Reading (Draft × Draft) :=
  match first with
  | (k, none) => failed (k, .broken)
  | (k, some s) =>
    let (v, s) := second s
    ((k, v), s)

def sequenceOf (m : Mark) (r : Reading (List Draft)) : Reading Draft :=
  (.sequence m r.1 r.2.isSome, r.2)

def mappingOf (m : Mark) (r : Reading (List (Draft × Draft))) : Reading Draft :=
  (.mapping m r.1 r.2.isSome, r.2)

/-- What follows an entry mark of an indented list and ends an empty entry. -/
def endsEntry : Token → Bool
  | .entry | .blockEnd => true
  | _ => false

/-- What ends an empty key or value of a block. -/
def endsPair : Token → Bool
  | .key | .value | .blockEnd => true
  | _ => false

def endsFlowKey : Token → Bool
  | .value | .comma | .flowMappingEnd => true
  | _ => false

def endsFlowValue : Token → Bool
  | .comma | .flowMappingEnd => true
  | _ => false

def endsSingleKey : Token → Bool
  | .value | .comma | .flowSequenceEnd => true
  | _ => false

def endsSingleValue : Token → Bool
  | .comma | .flowSequenceEnd => true
  | _ => false

/-- Reads a tree unless an ending token comes next, in which case nothing is written. -/
def unlessEnds (ends : Token → Bool) (node : Supply → Reading Draft) (s : Supply) : Reading Draft :=
  match s.tokens with
  | [] => failed .broken
  | t :: _ => if ends t then (.empty, some s) else node s

mutual

/-- Reads a tree. Blocks are allowed if `block`, and lists that are not indented if `loose`. -/
def nodeFrom (fuel : Nat) (block loose : Bool) (s : Supply) : Reading Draft :=
  match fuel with
  | 0 => failed .broken
  | fuel + 1 =>
    match s.tokens with
    | .reference a :: r =>
      match s.anchors.lookup a with
      | some n => (.reference n, some (s.with_ r))
      | none => failed .broken
    | _ =>
      let (anchor, written, s) := s.labels
      match written.map s.resolve? with
      | some none => failed .broken
      | tag =>
        let tag := tag.join
        let (number, after) := s.register anchor
        let m : Mark := ⟨number, tag⟩
        match s.tokens with
        | .scalar style text :: r =>
          let m := if tag = some "!" then ⟨number, none⟩ else m
          (.scalar m style text, some (after.with_ r))
        | .entry :: _ =>
          if loose then sequenceOf m (looseItems fuel after)
          else bare anchor tag m after
        | .flowSequenceStart :: r => sequenceOf m (flowItems fuel true (after.with_ r))
        | .flowMappingStart :: r => mappingOf m (flowPairs fuel true (after.with_ r))
        | .sequenceStart :: r =>
          if block then sequenceOf m (blockItems fuel (after.with_ r))
          else bare anchor tag m after
        | .mappingStart :: r =>
          if block then mappingOf m (blockPairs fuel (after.with_ r))
          else bare anchor tag m after
        | [] => failed .broken
        | _ => bare anchor tag m after

/-- An anchor or a tag with nothing after it. -/
def bare (anchor tag : Option String) (m : Mark) (after : Supply) : Reading Draft :=
  if anchor.isSome || tag.isSome then (.scalar m .plain "", some after) else failed .broken

/-- Reads the entries of an indented list. -/
def blockItems (fuel : Nat) (s : Supply) : Reading (List Draft) :=
  match fuel with
  | 0 => failed []
  | fuel + 1 =>
    match s.tokens with
    | .entry :: r =>
      consItem (unlessEnds endsEntry (nodeFrom fuel true false) (s.with_ r)) (blockItems fuel)
    | .blockEnd :: r => ([], some (s.with_ r))
    | _ => failed []

/-- Reads the entries of a list that is not indented. -/
def looseItems (fuel : Nat) (s : Supply) : Reading (List Draft) :=
  match fuel with
  | 0 => failed []
  | fuel + 1 =>
    match s.tokens with
    | .entry :: r =>
      consItem
        (unlessEnds (fun t => endsEntry t || endsPair t) (nodeFrom fuel true false) (s.with_ r))
        (looseItems fuel)
    | [] => failed []
    | _ => ([], some s)

/-- Reads the pairs of an indented mapping. -/
def blockPairs (fuel : Nat) (s : Supply) : Reading (List (Draft × Draft)) :=
  match fuel with
  | 0 => failed []
  | fuel + 1 =>
    match s.tokens with
    | .key :: r =>
      consItem
        (pairWith (unlessEnds endsPair (nodeFrom fuel true true) (s.with_ r)) (blockValue fuel))
        (blockPairs fuel)
    | .blockEnd :: r => ([], some (s.with_ r))
    | _ => failed []

def blockValue (fuel : Nat) (s : Supply) : Reading Draft :=
  match fuel with
  | 0 => failed .broken
  | fuel + 1 =>
    match s.tokens with
    | .value :: r => unlessEnds endsPair (nodeFrom fuel true true) (s.with_ r)
    | [] => failed .broken
    | _ => (.empty, some s)

/-- Reads the entries of a list in brackets; a comma stands between two, and may stand after the
last. An entry with a colon is a mapping with this one pair. -/
def flowItems (fuel : Nat) (first : Bool) (s : Supply) : Reading (List Draft) :=
  match fuel with
  | 0 => failed []
  | fuel + 1 =>
    match s.tokens with
    | .flowSequenceEnd :: r => ([], some (s.with_ r))
    | ts =>
      let ts := if first then some ts else
        match ts with
        | .comma :: r => some r
        | _ => none
      match ts with
      | none => failed []
      | some (.key :: r) =>
        consItem (mappingOf .none (singlePair fuel (s.with_ r))) (flowItems fuel false)
      | some (.flowSequenceEnd :: r) => ([], some (s.with_ r))
      | some r => consItem (nodeFrom fuel false false (s.with_ r)) (flowItems fuel false)

/-- Reads the pair of a mapping that is an entry of a list. An empty key swallows its mark. -/
def singlePair (fuel : Nat) (s : Supply) : Reading (List (Draft × Draft)) :=
  match fuel with
  | 0 => failed []
  | fuel + 1 =>
    let key : Reading Draft :=
      match s.tokens with
      | [] => failed .broken
      | t :: r => if endsSingleKey t then (.empty, some (s.with_ r)) else nodeFrom fuel false false s
    consItem (pairWith key (singleValue fuel)) (fun s => ([], some s))

def singleValue (fuel : Nat) (s : Supply) : Reading Draft :=
  match fuel with
  | 0 => failed .broken
  | fuel + 1 =>
    match s.tokens with
    | .value :: r => unlessEnds endsSingleValue (nodeFrom fuel false false) (s.with_ r)
    | [] => failed .broken
    | _ => (.empty, some s)

/-- Reads the pairs of a mapping in braces; a comma stands between two, and may stand after the
last. -/
def flowPairs (fuel : Nat) (first : Bool) (s : Supply) : Reading (List (Draft × Draft)) :=
  match fuel with
  | 0 => failed []
  | fuel + 1 =>
    match s.tokens with
    | .flowMappingEnd :: r => ([], some (s.with_ r))
    | ts =>
      let ts := if first then some ts else
        match ts with
        | .comma :: r => some r
        | _ => none
      match ts with
      | none => failed []
      | some (.key :: r) =>
        consItem
          (pairWith (unlessEnds endsFlowKey (nodeFrom fuel false false) (s.with_ r))
            (flowValue fuel))
          (flowPairs fuel false)
      | some (.flowMappingEnd :: r) => ([], some (s.with_ r))
      | some r =>
        consItem (pairWith (nodeFrom fuel false false (s.with_ r)) fun s => (.empty, some s))
          (flowPairs fuel false)

def flowValue (fuel : Nat) (s : Supply) : Reading Draft :=
  match fuel with
  | 0 => failed .broken
  | fuel + 1 =>
    match s.tokens with
    | .value :: r => unlessEnds endsFlowValue (nodeFrom fuel false false) (s.with_ r)
    | [] => failed .broken
    | _ => (.empty, some s)

end

/-- A text with one document: its tree, if anything is written at all, the trees that its anchors
stand for, and whether the text holds nothing else and breaks no rule. -/
structure Document where
  root : Option Draft
  anchored : List (Nat × Draft)
  size : Nat
  whole : Bool
deriving Inhabited

namespace Document

/-- The handles that are always there. -/
def standardHandles : List (String × String) := [("!", "!"), ("!!", "tag:yaml.org,2002:")]

/-- Reads the directives in front of a document: each at most once, and no other version than 1.1
and 1.2. -/
def directives (version : Bool) (handles : List (String × String)) :
    List Token → Option (List (String × String) × List Token)
  | .directive (.version major minor) :: r =>
    if version || major != 1 || !(minor == 1 || minor == 2) then none
    else directives true handles r
  | .directive (.handle name lead) :: r =>
    if (handles.lookup name).isSome then none else directives version (handles ++ [(name, lead)]) r
  | ts => some (handles ++ standardHandles, ts)

/-- Whether nothing but ends of the document is left. -/
def isOver (ts : List Token) : Bool :=
  ts.dropWhile (· == .documentEnd) == [.streamEnd]

def ofReading (r : Reading Draft) : Document :=
  ⟨some r.1, r.1.anchored, r.1.size, r.2.any fun s => isOver s.tokens⟩

/-- What stands in place of a text that breaks a rule before anything is written. -/
def broken : Document := ⟨some .broken, [], 0, false⟩

/-- What is read of the root: nothing at all may be written after the mark of the document. -/
def content (fuel : Nat) (s : Supply) : Reading Draft :=
  match s.tokens with
  | .directive _ :: _ | .documentStart :: _ | .documentEnd :: _ | .streamEnd :: _ =>
    (.empty, some s)
  | _ => nodeFrom fuel true false s

def ofTokens (ts : List Token) : Document :=
  let fuel := 4 * ts.length + 4
  match ts with
  | [.streamEnd] => ⟨none, [], 1, true⟩
  | .directive _ :: _ | .documentStart :: _ =>
    match directives false [] ts with
    | some (handles, .documentStart :: r) => ofReading (content fuel ⟨r, [], handles⟩)
    | _ => broken
  | ts => ofReading (nodeFrom fuel true false ⟨ts, [], standardHandles⟩)

/-- The document that a text holds, as far as it can be read. -/
def read (text : String) : Document :=
  match place? text.toList with
  | some r => ofTokens (tokens r)
  | none => broken

/-- The tree that an anchor stands for: the last one with its number. -/
def target? (d : Document) (anchor : Nat) : Option Draft := d.anchored.reverse.lookup anchor

end Document

end Scaffold.Yaml
