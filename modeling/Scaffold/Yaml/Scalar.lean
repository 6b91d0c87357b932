import Scaffold.Yaml.Spot

/-!
# Scalars

The five ways in which a scalar is written: plain, in single quotes, in double quotes, and as a
literal or folded block. Each reader takes what stands after the opening mark and gives the text
and what follows; a text that breaks a rule gives none.

Lines are folded by one rule (`Fold.join`): a single line end becomes a space, and of several the
first one is dropped.
-/

namespace Scaffold.Yaml

/-- How a scalar is written. Single and double quotes and folded blocks count alike. -/
inductive ScalarStyle
  | plain
  | literal
  | other
deriving DecidableEq, Inhabited

/-- The gap between two pieces of a scalar: either blanks of one line, or line ends, the first one
apart from the others. Both are kept latest first. -/
inductive Fold
  | blanks (cs : List Char)
  | breaks (first : Option Char) (more : List Char)
deriving Inhabited

namespace Fold

def none : Fold := blanks []

def addBlank (c : Char) : Fold → Fold
  | blanks cs => blanks (c :: cs)
  | f => f

def addBreak (c : Char) : Fold → Fold
  | blanks _ => breaks (some c) []
  | breaks first more => breaks first (c :: more)

/-- The text that stands for the gap, latest first. -/
def join : Fold → List Char
  | blanks cs => cs
  | breaks (some '\n') [] => [' ']
  | breaks (some '\n') more => more
  | breaks (some c) more => more ++ [c]
  | breaks .none more => more

def hasBreaks : Fold → Bool
  | breaks _ _ => true
  | blanks _ => false

def isNone : Fold → Bool
  | blanks [] => true
  | _ => false

end Fold

/-! ### Quoted scalars -/

def hexValue? (c : Char) : Option Nat :=
  if '0' ≤ c ∧ c ≤ '9' then some (c.toNat - '0'.toNat)
  else if 'a' ≤ c ∧ c ≤ 'f' then some (c.toNat - 'a'.toNat + 10)
  else if 'A' ≤ c ∧ c ≤ 'F' then some (c.toNat - 'A'.toNat + 10)
  else none

/-- The number that `n` hexadecimal digits write, and what follows them. -/
def hexNumber? (n value : Nat) (r : Rest) : Option (Nat × Rest) :=
  match n, r with
  | 0, r => some (value, r)
  | n + 1, s :: r => do hexNumber? n (value * 16 + (← hexValue? s.char)) r
  | _ + 1, [] => none

def scalarValue? (n : Nat) : Option Char := if h : n.isValidChar then some (Char.ofNatAux n h) else none

/-- What the character after a backslash stands for. -/
def simpleEscape? : Char → Option Char
  | '0' => some '\x00'
  | 'a' => some '\x07'
  | 'b' => some '\x08'
  | 't' => some '\t'
  | '\t' => some '\t'
  | 'n' => some '\n'
  | 'v' => some '\x0b'
  | 'f' => some '\x0c'
  | 'r' => some '\r'
  | 'e' => some '\x1b'
  | ' ' => some ' '
  | '"' => some '"'
  | '/' => some '/'
  | '\\' => some '\\'
  | 'N' => some '\u0085'
  | '_' => some '\u00a0'
  | 'L' => some '\u2028'
  | 'P' => some '\u2029'
  | _ => none

/-- How many digits follow an escape that names a character by its number. -/
def digitsOfEscape? : Char → Option Nat
  | 'x' => some 2
  | 'u' => some 4
  | 'U' => some 8
  | _ => none

theorem hexNumber?_length {n value : Nat} {r : Rest} {m : Nat} {t : Rest}
    (h : hexNumber? n value r = some (m, t)) : t.length ≤ r.length := by
  induction n generalizing value r with
  | zero => simp [hexNumber?] at h; simp [h.2]
  | succ n ih =>
    cases r with
    | nil => simp [hexNumber?] at h
    | cons s r =>
      simp only [hexNumber?, Option.bind_eq_bind, Option.bind_eq_some_iff] at h
      obtain ⟨d, _, h⟩ := h
      exact Nat.le_succ_of_le (ih h)

/-- Reads a quoted scalar from its `fold` on; `out` is the text so far, latest character first.
Blanks and line ends wait in the fold until something follows them. -/
def quotedFrom (quote : Char) (out : List Char) (fold : Fold) (r : Rest) :
    Option (List Char × Rest) :=
  if r.atDocumentMark then none
  else
    match r with
    | [] => none
    | s :: r =>
      if isGap s.char then quotedFrom quote out (fold.addBlank s.char) r
      else if isBreak s.char then quotedFrom quote out (fold.addBreak s.char) r
      else
        let out := fold.join ++ out
        if s.char = quote then
          match r with
          | s' :: r' =>
            if quote = '\'' ∧ s'.char = quote then quotedFrom quote (quote :: out) .none r'
            else some (out.reverse, s' :: r')
          | [] => some (out.reverse, [])
        else if quote = '"' ∧ s.char = '\\' then
          match r with
          | [] => none
          | e :: r =>
            if isBreak e.char then quotedFrom quote out (.breaks .none []) r
            else
              match simpleEscape? e.char, digitsOfEscape? e.char with
              | some c, _ => quotedFrom quote (c :: out) .none r
              | .none, some n =>
                match h : hexNumber? n 0 r with
                | some (m, t) =>
                  match scalarValue? m with
                  | some c =>
                    have := hexNumber?_length h
                    quotedFrom quote (c :: out) .none t
                  | .none => none
                | .none => none
              | .none, .none => none
        else quotedFrom quote (s.char :: out) .none r
termination_by r.length
decreasing_by all_goals (simp only [List.length_cons] at *; omega)

/-- Reads a quoted scalar after its opening quote. -/
def quoted? (quote : Char) (r : Rest) : Option (List Char × Rest) := quotedFrom quote [] .none r

/-! ### Plain scalars -/

/-- The marks that begin and end collections within a line, and what parts their entries. -/
def isFlowMark (c : Char) : Bool := c == ',' || c == '[' || c == ']' || c == '\x7b' || c == '\x7d'

/-- A plain scalar as far as it reaches: its text, the gap after it, and what follows the gap. -/
structure Plain where
  text : List Char
  fold : Fold
  rest : Rest
deriving Inhabited

/-- Reads a plain scalar. Within a line of marks (`flow`) those marks end it, and a colon right
before one breaks the rules; elsewhere it ends with a line that is not deeper than `indent - 1`
columns. -/
def plainFrom (flow : Bool) (indent : Nat) (out : List Char) (fold : Fold) (r : Rest) :
    Option Plain :=
  let done : Option Plain := some ⟨out.reverse, fold, r⟩
  match r with
  | [] => done
  | s :: t =>
    if isGap s.char then
      if fold.hasBreaks && s.column < indent && s.char == '\t' then none
      else plainFrom flow indent out (fold.addBlank s.char) t
    else if isBreak s.char then plainFrom flow indent out (fold.addBreak s.char) t
    else if fold.hasBreaks && !flow && s.column < indent then done
    else if Rest.atDocumentMark (s :: t) then done
    else
      if !fold.isNone && s.char == '#' then done
      else if flow && s.char == ':' && ((Rest.front? t).any fun c => isFlowMark c || c == '?') then none
      else if s.char == ':' && Rest.endsWord t then done
      else if flow && isFlowMark s.char then done
      else plainFrom flow indent (s.char :: (fold.join ++ out)) .none t

/-- Reads a plain scalar from its first character on. -/
def plain? (flow : Bool) (indent : Nat) (r : Rest) : Option Plain :=
  plainFrom flow indent [] .none r

/-! ### Block scalars -/

/-- What happens to the line ends after a block. -/
inductive Chomping
  | strip
  | clip
  | keep
deriving DecidableEq, Inhabited

/-- The head of a block: its chomping, and by how many columns it is indented if that is given. -/
structure BlockHead where
  chomping : Chomping
  increment : Option Nat
deriving Inhabited

def chompingOf? : Char → Option Chomping
  | '+' => some .keep
  | '-' => some .strip
  | _ => none

def incrementOf? (c : Char) : Option Nat := if c.isDigit then some (c.toNat - '0'.toNat) else none

/-- Reads the marks after `|` or `>`, each at most once, in either order. -/
def blockMarks (r : Rest) : BlockHead × Rest :=
  match r with
  | [] => (⟨.clip, none⟩, [])
  | s :: t =>
    match chompingOf? s.char, incrementOf? s.char with
    | some c, _ =>
      match (Rest.front? t).bind incrementOf? with
      | some n => (⟨c, some n⟩, t.drop 1)
      | none => (⟨c, none⟩, t)
    | none, some n =>
      match (Rest.front? t).bind chompingOf? with
      | some c => (⟨c, some n⟩, t.drop 1)
      | none => (⟨.clip, some n⟩, t)
    | none, none => (⟨.clip, none⟩, s :: t)

/-- Reads the head of a block up to the end of its line, where a comment may stand. -/
def blockHead? (r : Rest) : Option (BlockHead × Rest) := do
  let (head, r) := blockMarks r
  if head.increment = some 0 then none
  let r := r.skipComment
  match r with
  | [] => some (head, [])
  | s :: t => if isBreak s.char then some (head, t) else none

/-- Skips the indentation of empty lines up to the first line with content; with no indentation
known (`indent = 0`) all leading spaces count as such. Gives the line ends, latest first, and the
deepest column seen. -/
def blockGap (indent : Nat) (breaks : List Char) (deepest : Nat) : Rest →
    Option (List Char × Nat × Rest)
  | [] => some (breaks, deepest, [])
  | s :: r =>
    let deepest := max deepest s.column
    if (indent = 0 ∨ s.column < indent) ∧ s.char = ' ' then
      blockGap indent breaks (max deepest (s.column + 1)) r
    else if (indent = 0 ∨ s.column < indent) ∧ s.char = '\t' then none
    else if isBreak s.char then blockGap indent (s.char :: breaks) deepest r
    else some (breaks, deepest, s :: r)

theorem blockGap_length {indent deepest : Nat} {breaks : List Char} {r : Rest}
    {b : List Char} {d : Nat} {t : Rest} (h : blockGap indent breaks deepest r = some (b, d, t)) :
    t.length ≤ r.length := by
  induction r generalizing breaks deepest with
  | nil => simp [blockGap] at h; simp [h.2.2]
  | cons s r ih =>
    simp only [blockGap] at h
    split at h
    · exact Nat.le_succ_of_le (ih h)
    · split at h
      · simp at h
      · split at h
        · exact Nat.le_succ_of_le (ih h)
        · simp only [Option.some.injEq, Prod.mk.injEq] at h
          simp [← h.2.2]

theorem span_length (p : Char → Bool) (r : Rest) : (r.span p).2.length ≤ r.length := by
  induction r with
  | nil => simp [Rest.span]
  | cons s r ih =>
    simp only [Rest.span]
    split
    · exact Nat.le_succ_of_le ih
    · exact Nat.le_refl _

/-- What a block has gathered: the text, the line end of its last line, the line ends of the empty
lines after that, all latest first, and whether its last line began with a blank. -/
structure Gathered where
  out : List Char
  last : List Char
  empty : List Char
  blank : Bool
deriving Inhabited

/-- Reads the lines of a block that start at column `indent`. -/
def blockLines (folded : Bool) (indent : Nat) (g : Gathered) (r : Rest) :
    Option (Gathered × Rest) :=
  match hr : r with
  | [] => some (g, r)
  | s :: _ =>
    if s.column ≠ indent then some (g, r)
    else
      let blank := isGap s.char
      let joined :=
        if folded && g.last == ['\n'] && !g.blank && !blank then
          if g.empty.isEmpty then [' '] else []
        else g.last
      let out := g.empty ++ joined ++ g.out
      match hs : Rest.span (fun c => !isBreak c) r with
      | (line, []) => some (⟨line.reverse ++ out, [], [], blank⟩, [])
      | (line, e :: t) =>
        match hg : blockGap indent [] 0 t with
        | none => none
        | some (empty, _, t) =>
          have : t.length < r.length := by
            have h1 := blockGap_length hg
            have h2 := span_length (fun c => !isBreak c) r
            rw [hs] at h2
            simp only [List.length_cons] at h2
            omega
          blockLines folded indent ⟨line.reverse ++ out, [e.char], empty, blank⟩ t
termination_by r.length
decreasing_by all_goals (subst hr; assumption)

/-- Reads a block scalar after its mark. `outer` is the indentation of what it stands in. -/
def block? (folded : Bool) (outer : Option Nat) (r : Rest) : Option (List Char × Rest) := do
  let (head, r) ← blockHead? r
  let known := match head.increment with
    | some n => outer.getD 0 + n
    | none => 0
  let (empty, deepest, r) ← blockGap known [] 0 r
  let least := match outer with
    | some n => n + 1
    | none => 1
  let indent := if known = 0 then max deepest least else known
  let (g, r) ← blockLines folded indent ⟨[], [], empty, false⟩ r
  let out := match head.chomping with
    | .strip => g.out
    | .clip => g.last ++ g.out
    | .keep => g.empty ++ g.last ++ g.out
  some (out.reverse, r)

end Scaffold.Yaml
