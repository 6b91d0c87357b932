import Scaffold.Yaml.Spot

/-!
# Anchors, tags and directives

Each reader takes what stands after the opening mark and gives the name it reads and what follows;
a name that breaks a rule gives none.
-/

namespace Scaffold.Yaml

/-- Characters that may stand right after an anchor or an alias, blanks and line ends apart. -/
def endsAnchor (c : Char) : Bool := "?:,]\x7d%@`".toList.contains c

/-- Reads the name of an anchor or an alias. -/
def anchor? (r : Rest) : Option (String × Rest) :=
  let (name, r) := r.span isWord
  if name.isEmpty then none
  else if r.endsWord || r.front?.any endsAnchor then some (String.ofList name, r)
  else none

/-- Marks that may stand in a tag as they are. -/
def isTagMark (c : Char) : Bool := ";/?:@&=+$.!~*'()".toList.contains c

/-- Marks that may stand in a tag only where it is delimited. -/
def isDelimitedMark (c : Char) : Bool := c == ',' || c == '[' || c == ']'

def hexDigit? (s : Spot) : Option Nat :=
  let c := s.char
  if '0' ≤ c ∧ c ≤ '9' then some (c.toNat - '0'.toNat)
  else if 'a' ≤ c ∧ c ≤ 'f' then some (c.toNat - 'a'.toNat + 10)
  else if 'A' ≤ c ∧ c ≤ 'F' then some (c.toNat - 'A'.toNat + 10)
  else none

/-- An octet written as a percent sign and two digits. -/
def octet? : Rest → Option (Nat × Rest)
  | p :: a :: b :: r => do
    if p.char ≠ '%' then none
    some ((← hexDigit? a) * 16 + (← hexDigit? b), r)
  | _ => none

theorem octet?_length {r t : Rest} {n : Nat} (h : octet? r = some (n, t)) :
    t.length < r.length := by
  match r, h with
  | p :: a :: b :: r, h =>
    simp only [octet?] at h
    split at h
    · simp at h
    · cases ha : hexDigit? a <;> cases hb : hexDigit? b <;> simp [ha, hb] at h
      simp [← h.2]; omega

/-- How many octets make up the character that begins with this one, and its leading bits. -/
def leadOctet? (n : Nat) : Option (Nat × Nat) :=
  if n < 0x80 then some (0, n)
  else if n / 0x20 = 6 then some (1, n % 0x20)
  else if n / 0x10 = 14 then some (2, n % 0x10)
  else if n / 8 = 30 then some (3, n % 8)
  else none

/-- Reads the octets that continue a character. -/
def moreOctets? (n value : Nat) (r : Rest) : Option (Nat × Rest) :=
  match n with
  | 0 => some (value, r)
  | n + 1 => do
    let (o, r) ← octet? r
    if o / 0x40 ≠ 2 then none
    moreOctets? n (value * 0x40 + o % 0x40) r

theorem moreOctets?_length {n value m : Nat} {r t : Rest} (h : moreOctets? n value r = some (m, t)) :
    t.length ≤ r.length := by
  induction n generalizing value r with
  | zero => simp [moreOctets?] at h; simp [h.2]
  | succ n ih =>
    simp only [moreOctets?, Option.bind_eq_bind, Option.bind_eq_some_iff] at h
    obtain ⟨⟨o, u⟩, hu, h⟩ := h
    have h1 := octet?_length hu
    simp only at h
    split at h
    · simp at h
    · have := ih h
      omega

/-- A character written by its octets. -/
def escaped? (r : Rest) : Option (Char × Rest) := do
  let (o, r) ← octet? r
  let (n, bits) ← leadOctet? o
  let (value, r) ← moreOctets? n bits r
  some (Char.ofNat value, r)

theorem escaped?_length {r t : Rest} {c : Char} (h : escaped? r = some (c, t)) :
    t.length < r.length := by
  simp only [escaped?, Option.bind_eq_bind, Option.bind_eq_some_iff] at h
  obtain ⟨⟨o, u⟩, hu, ⟨n, bits⟩, _, ⟨value, v⟩, hv, h⟩ := h
  simp only [Option.some.injEq, Prod.mk.injEq] at h
  have h1 := octet?_length hu
  have h2 := moreOctets?_length hv
  simp only at hv h2
  rw [← h.2]
  omega

/-- Reads the characters of a tag, escapes resolved. -/
def tagText? (delimited : Bool) (r : Rest) : Option (List Char × Rest) :=
  match r with
  | [] => some ([], [])
  | s :: t =>
    if s.char = '%' then
      match h : escaped? (s :: t) with
      | none => none
      | some (c, u) =>
        have := escaped?_length h
        match tagText? delimited u with
        | some (cs, v) => some (c :: cs, v)
        | none => none
    else if isWord s.char || isTagMark s.char || (delimited && isDelimitedMark s.char) then
      match tagText? delimited t with
      | some (cs, v) => some (s.char :: cs, v)
      | none => none
    else some ([], s :: t)
termination_by r.length
decreasing_by all_goals (simp only [List.length_cons] at *; omega)

/-- A tag as it is written: a handle, which a directive may have declared, and the rest. The empty
handle stands for a tag that is written in full. -/
structure TagName where
  handle : String
  suffix : String
deriving DecidableEq, Inhabited

/-- Reads a tag after its exclamation mark. -/
def tagName? (r : Rest) : Option (TagName × Rest) :=
  if r.front? = some '<' then do
    let (text, r) ← tagText? true (r.drop 1)
    if text.isEmpty ∨ r.front? ≠ some '>' then none
    some (⟨"", String.ofList text⟩, r.drop 1)
  else
    let (word, t) := r.span isWord
    if t.front? = some '!' then do
      let (text, u) ← tagText? false (t.drop 1)
      if text.isEmpty then none
      some (⟨"!" ++ String.ofList word ++ "!", String.ofList text⟩, u)
    else do
      let (text, u) ← tagText? false t
      let suffix := String.ofList (word ++ text)
      some (if suffix = "" then ⟨"", "!"⟩ else ⟨"!", suffix⟩, u)

/-- Reads a tag; only a blank, the end of the line, or a comma between entries may follow. -/
def tag? (flow : Bool) (r : Rest) : Option (TagName × Rest) := do
  let (t, r) ← tagName? r
  if r.endsWord || (flow && r.front? = some ',') then some (t, r) else none

/-- A directive in front of a document. -/
inductive Directive
  | version (major minor : Nat)
  | handle (name lead : String)
deriving DecidableEq, Inhabited

/-- A number of a version has at most this many digits. -/
def versionDigits : Nat := 9

def versionNumber? (r : Rest) : Option (Nat × Rest) :=
  let (ds, r) := r.span Char.isDigit
  if ds.isEmpty || versionDigits < ds.length then none
  else some (ds.foldl (fun n c => n * 10 + (c.toNat - '0'.toNat)) 0, r)

def version? (r : Rest) : Option (Directive × Rest) := do
  let (major, r) ← versionNumber? r
  if r.front? ≠ some '.' then none
  let (minor, r) ← versionNumber? (r.drop 1)
  some (.version major minor, r)

def tagHandle? (r : Rest) : Option (Directive × Rest) := do
  if r.front? ≠ some '!' then none
  let (word, r) := Rest.span isWord (r.drop 1)
  let (name, r) : String × Rest ←
    if r.front? = some '!' then some ("!" ++ String.ofList word ++ "!", r.drop 1)
    else if word.isEmpty then some ("!", r)
    else none
  if !r.front?.any isGap then none
  let (text, r) ← tagText? true (r.skip isGap)
  if text.isEmpty || !r.endsWord then none
  some (.handle name (String.ofList text), r)

/-- Reads a directive after its percent sign; nothing but a comment may follow in its line. -/
def directive? (r : Rest) : Option (Directive × Rest) := do
  let (name, r) := r.span isWord
  if !r.endsWord then none
  let r := r.skip isGap
  let (d, r) ←
    if name = "YAML".toList then version? r
    else if name = "TAG".toList then tagHandle? r
    else none
  let r := r.skipComment
  if r.endsLine then some (d, r.drop 1) else none

end Scaffold.Yaml
