import Mathlib.Data.List.Basic
import Scaffold.Json.Draft
import Scaffold.Json.Printer

/-!
# Reading what has been written

The compact text of a value without numbers is read as this value (`value_chars`,
`ofChars_chars`). Each character of a string is read from its escape (`content_escapeChar`).
`Json.nesting` counts levels of arrays and objects, of which a reader allows only so many.
-/

namespace Scaffold

open Json

namespace Draft

variable {c d : Char} {r cs : List Char} {n : Nat}

/-! ### Strings -/

theorem content_simple (h : simpleEscape? d = some c) (hd : d ≠ 'u') (fuel : Nat) (r : List Char) :
    content (fuel + 1) ('\\' :: d :: r) =
      (content fuel r).map fun p => (p.1.map (c :: ·), p.2) := by
  rw [content]
  · rw [h]
    cases content fuel r <;> rfl
  · simpa using hd

theorem content_unicode (h : hex4? cs = some (n, r)) (hn : n < 0xD800) (fuel : Nat) :
    content (fuel + 1) ('\\' :: 'u' :: cs) =
      (content fuel r).map fun p => (p.1.map (Char.ofNat n :: ·), p.2) := by
  have hlow : ¬ 0xD800 ≤ n := by omega
  have hhigh : ¬ 0xDC00 ≤ n := by omega
  rw [content, h]
  simp only [Option.bind_eq_bind, Option.bind_some, hlow, hhigh, decide_false, Bool.false_and,
    Bool.false_eq_true, if_false]
  cases content fuel r <;> rfl

theorem content_plain (hc : 0x20 ≤ c.toNat) (hq : c ≠ '"') (hb : c ≠ '\\') (fuel : Nat)
    (r : List Char) :
    content (fuel + 1) (c :: r) = (content fuel r).map fun p => (p.1.map (c :: ·), p.2) := by
  have hno : ¬ (c.toNat < 0x20 ∨ c = '\\') := by
    rintro (h | h)
    · omega
    · exact hb h
  rw [content]
  · cases content fuel r <;> simp [hno]
  · exact hq
  · simp [hb]
  · simp [hb]

/-- Below U+0020, what has no letter of its own is written with four digits. -/
theorem controlEscape_digits : ∀ n < 0x20, n ∉ [8, 9, 10, 12, 13] →
    controlEscape (Char.ofNat n) =
      ['\\', 'u', '0', '0', Nat.digitChar (n / 16), Nat.digitChar (n % 16)] := by
  decide

theorem hexValue?_digitChar : ∀ n < 16, hexValue? (Nat.digitChar n) = some n := by decide

theorem hex4?_digits (hn : n < 0x20) (r : List Char) :
    hex4? ('0' :: '0' :: Nat.digitChar (n / 16) :: Nat.digitChar (n % 16) :: r) = some (n, r) := by
  have hzero : hexValue? '0' = some 0 := by decide
  have hhigh := hexValue?_digitChar (n / 16) (by omega)
  have hlow := hexValue?_digitChar (n % 16) (by omega)
  rw [hex4?, hzero, hhigh, hlow]
  simp
  omega

/-- **Every character is read from its escape.** -/
theorem content_escapeChar (c : Char) (fuel : Nat) (r : List Char) :
    content (fuel + 1) (escapeChar c ++ r) =
      (content fuel r).map fun p => (p.1.map (c :: ·), p.2) := by
  rw [escapeChar]
  split_ifs with hq hb hcontrol
  · subst hq
    exact content_simple (by decide) (by decide) fuel r
  · subst hb
    exact content_simple (by decide) (by decide) fuel r
  · obtain ⟨n, hn, rfl⟩ : ∃ n, n < 0x20 ∧ c = Char.ofNat n :=
      ⟨c.toNat, hcontrol, (Char.ofNat_toNat c).symm⟩
    by_cases hnamed : n ∈ [8, 9, 10, 12, 13]
    · simp only [List.mem_cons, List.not_mem_nil, or_false] at hnamed
      rcases hnamed with rfl | rfl | rfl | rfl | rfl <;>
        exact content_simple (by decide) (by decide) fuel r
    · rw [controlEscape_digits n hn hnamed]
      exact content_unicode (hex4?_digits hn r) (by omega) fuel
  · exact content_plain (by omega) hq hb fuel r

theorem content_flatMap (cs : List Char) {fuel : Nat} (h : cs.length < fuel) (r : List Char) :
    content fuel (cs.flatMap escapeChar ++ '"' :: r) = some (some cs, r) := by
  induction cs generalizing fuel with
  | nil =>
    obtain ⟨fuel, rfl⟩ := Nat.exists_eq_add_of_lt h
    rfl
  | cons c l ih =>
    obtain ⟨fuel, rfl⟩ : ∃ f, fuel = f + 1 := ⟨fuel - 1, by simp at h; omega⟩
    rw [List.flatMap_cons, List.append_assoc, content_escapeChar, ih (by simpa using h)]
    rfl

theorem length_le_flatMap_escapeChar (cs : List Char) :
    cs.length ≤ (cs.flatMap escapeChar).length := by
  have hone : ∀ c, 1 ≤ (escapeChar c).length := by
    intro c
    rw [escapeChar, controlEscape]
    split_ifs <;> simp
  induction cs with
  | nil => exact Nat.zero_le _
  | cons c l ih =>
    rw [List.flatMap_cons, List.length_append, List.length_cons]
    have hc := hone c
    omega

/-- **A quoted text is read as the text.** -/
theorem quotedText_quote (s : String) (r : List Char) :
    quotedText (s.toList.flatMap escapeChar ++ '"' :: r) = some (some s, r) := by
  have hlen := length_le_flatMap_escapeChar s.toList
  rw [quotedText, content_flatMap]
  · simp
  · rw [List.length_append]
    omega

end Draft

namespace Json

mutual

/-- There is no number in the value. -/
def NumberFree : Json → Prop
  | .number _ => False
  | .array items => NumberFreeItems items
  | .object members => NumberFreeMembers members
  | _ => True

def NumberFreeItems : List Json → Prop
  | [] => True
  | v :: r => NumberFree v ∧ NumberFreeItems r

def NumberFreeMembers : List (String × Json) → Prop
  | [] => True
  | (_, v) :: r => NumberFree v ∧ NumberFreeMembers r

end

end Json

namespace Draft

mutual

/-- What is read of a value that has been written. -/
def written : Json → Draft
  | .null => .null
  | .bool b => .bool b
  | .number n => .number (some n)
  | .string s => .string (some s)
  | .array items => .array (writtenItems items) true
  | .object members => .object (writtenMembers members) true

def writtenItems : List Json → List Draft
  | [] => []
  | v :: r => written v :: writtenItems r

def writtenMembers : List (String × Json) → List (Option String × Draft)
  | [] => []
  | (k, v) :: r => (some k, written v) :: writtenMembers r

end

/-! ### Values -/

theorem skip_cons (h : isSpace c = false) (r : List Char) : skip (c :: r) = c :: r := by
  simp [skip, h]

/-- A value starts neither with a blank nor with a bracket that closes. -/
theorem exists_chars_eq {v : Json} (h : v.NumberFree) :
    ∃ c r, chars v = c :: r ∧ isSpace c = false ∧ c ≠ ']' := by
  cases v with
  | null => exact ⟨'n', _, rfl, by decide, by decide⟩
  | bool b => cases b
              · exact ⟨'f', _, rfl, by decide, by decide⟩
              · exact ⟨'t', _, rfl, by decide, by decide⟩
  | number n => rw [NumberFree] at h; exact h.elim
  | string s => exact ⟨'"', _, rfl, by decide, by decide⟩
  | array items => exact ⟨'[', _, rfl, by decide, by decide⟩
  | object members => exact ⟨'\x7b', _, rfl, by decide, by decide⟩

theorem exists_itemChars_eq {v : Json} (h : v.NumberFree) (vs : List Json) :
    ∃ c r, itemChars (v :: vs) = c :: r ∧ isSpace c = false ∧ c ≠ ']' := by
  obtain ⟨c, r, hv, hc⟩ := exists_chars_eq h
  cases vs with
  | nil => exact ⟨c, r, by rw [itemChars, hv], hc⟩
  | cons w l => exact ⟨c, r ++ ',' :: itemChars (w :: l), by rw [itemChars, hv]; rfl; simp, hc⟩

theorem exists_fuel {v : Json} (h : v.NumberFree) {fuel : Nat} (hf : (chars v).length ≤ fuel) :
    ∃ f, fuel = f + 1 := by
  obtain ⟨c, r, hv, -⟩ := exists_chars_eq h
  rw [hv, List.length_cons] at hf
  exact ⟨fuel - 1, by omega⟩

/-- An array is read as its items, unless its bracket closes at once. -/
theorem value_array {ds : List Draft} {rest : List Char} {fuel : Nat} (hc : isSpace c = false)
    (hd : c ≠ ']') (h : items fuel (c :: r) = (ds, some rest)) :
    value (fuel + 1) ('[' :: c :: r) = (.array ds true, some rest) := by
  rw [value, skip_cons hc]
  split
  next heq => exact absurd (List.cons.inj heq).1 hd
  · rw [h]
    rfl

/-- An object is read as its members, which start with a quote. -/
theorem value_object {ds : List (Option String × Draft)} {rest : List Char} {fuel : Nat}
    (h : members fuel ('"' :: r) = (ds, some rest)) :
    value (fuel + 1) ('\x7b' :: '"' :: r) = (.object ds true, some rest) := by
  have hquote : skip ('"' :: r) = '"' :: r := skip_cons (by decide) r
  rw [value, hquote]
  split
  next heq => exact absurd (List.cons.inj heq).1 (by decide)
  · rw [h]
    rfl

/-- The last item ends the array. -/
theorem items_last {d : Draft} {rest : List Char} {fuel : Nat}
    (h : value fuel cs = (d, some (']' :: rest))) :
    items (fuel + 1) cs = ([d], some rest) := by
  have hskip : skip (']' :: rest) = ']' :: rest := skip_cons (by decide) rest
  rw [items, h]
  simp only [hskip]

/-- Behind an item and a comma the next items follow. -/
theorem items_more {d : Draft} {ds : List Draft} {rest : List Char} {fuel : Nat}
    (hc : isSpace c = false) (hd : c ≠ ']') (h : value fuel cs = (d, some (',' :: c :: r)))
    (hr : items fuel (c :: r) = (ds, some rest)) :
    items (fuel + 1) cs = (d :: ds, some rest) := by
  have hskip : skip (',' :: c :: r) = ',' :: c :: r := skip_cons (by decide) _
  rw [items, h]
  simp only [hskip, skip_cons hc]
  split
  next heq => exact absurd (List.cons.inj heq).1 hd
  · rw [hr]

/-- A member is a quoted name, a colon and a value; the last one ends the object. -/
theorem members_last {k : String} {d : Draft} {rest : List Char} {fuel : Nat}
    (hc : isSpace c = false) (h : value fuel (c :: r) = (d, some ('\x7d' :: rest))) :
    members (fuel + 1) (quote k ++ ':' :: c :: r) = ([(some k, d)], some rest) := by
  have hcolon : skip (':' :: c :: r) = ':' :: c :: r := skip_cons (by decide) _
  have hskip : skip ('\x7d' :: rest) = '\x7d' :: rest := skip_cons (by decide) rest
  rw [quote, List.cons_append, List.append_assoc, List.singleton_append, members, quotedText_quote]
  simp only [hcolon, skip_cons hc, h, hskip]

/-- Behind a member and a comma the next members follow. -/
theorem members_more {k : String} {d : Draft} {ds : List (Option String × Draft)}
    {r' rest : List Char} {fuel : Nat} (hc : isSpace c = false)
    (h : value fuel (c :: r) = (d, some (',' :: '"' :: r')))
    (hr : members fuel ('"' :: r') = (ds, some rest)) :
    members (fuel + 1) (quote k ++ ':' :: c :: r) = ((some k, d) :: ds, some rest) := by
  have hcolon : skip (':' :: c :: r) = ':' :: c :: r := skip_cons (by decide) _
  have hcomma : skip (',' :: '"' :: r') = ',' :: '"' :: r' := skip_cons (by decide) _
  have hquote : skip ('"' :: r') = '"' :: r' := skip_cons (by decide) _
  rw [quote, List.cons_append, List.append_assoc, List.singleton_append, members, quotedText_quote]
  simp only [hcolon, skip_cons hc, h, hcomma, hquote, hr]

/-- Members start with the quote of the first name. -/
theorem exists_memberChars_eq (k : String) (v : Json) (ms : List (String × Json)) :
    ∃ r, memberChars ((k, v) :: ms) = '"' :: r := by
  cases ms with
  | nil => exact ⟨_, rfl⟩
  | cons e ms => exact ⟨_, by rw [memberChars, quote, List.cons_append]; simp⟩

mutual

/-- **A value is read from its text**, whatever follows it. -/
theorem value_chars : (v : Json) → v.NumberFree → ∀ (fuel : Nat) (rest : List Char),
    (chars v).length ≤ fuel → value fuel (chars v ++ rest) = (written v, some rest)
  | .null, h, _, rest, hf => by
    obtain ⟨fuel, rfl⟩ := exists_fuel h hf
    rfl
  | .bool b, h, _, rest, hf => by
    obtain ⟨fuel, rfl⟩ := exists_fuel h hf
    cases b <;> rfl
  | .number n, h, _, _, _ => by
    rw [NumberFree] at h
    exact h.elim
  | .string s, h, _, rest, hf => by
    obtain ⟨fuel, rfl⟩ := exists_fuel h hf
    rw [chars, quote, List.cons_append, List.append_assoc, List.singleton_append, value,
      quotedText_quote]
    rfl
  | .array [], h, _, rest, hf => by
    obtain ⟨fuel, rfl⟩ := exists_fuel h hf
    rfl
  | .array (v :: vs), h, _, rest, hf => by
    obtain ⟨fuel, rfl⟩ := exists_fuel h hf
    rw [NumberFree, NumberFreeItems] at h
    have hitems := items_chars (v :: vs) (by simp) (by rwa [NumberFreeItems]) fuel rest (by
      simp only [chars, List.length_cons, List.length_append, List.length_nil] at hf
      omega)
    obtain ⟨c, r, hc, hspace, hclose⟩ := exists_itemChars_eq h.1 vs
    rw [chars, List.cons_append, List.append_assoc, List.singleton_append]
    rw [hc] at hitems ⊢
    exact value_array hspace hclose hitems
  | .object [], h, _, rest, hf => by
    obtain ⟨fuel, rfl⟩ := exists_fuel h hf
    rfl
  | .object ((k, v) :: ms), h, _, rest, hf => by
    obtain ⟨fuel, rfl⟩ := exists_fuel h hf
    rw [NumberFree, NumberFreeMembers] at h
    have hmembers := members_chars ((k, v) :: ms) (by simp) (by rwa [NumberFreeMembers])
      fuel rest (by
      simp only [chars, List.length_cons, List.length_append, List.length_nil] at hf
      omega)
    obtain ⟨r, hr⟩ := exists_memberChars_eq k v ms
    rw [chars, List.cons_append, List.append_assoc, List.singleton_append]
    rw [hr] at hmembers ⊢
    exact value_object hmembers

theorem items_chars : (vs : List Json) → vs ≠ [] → NumberFreeItems vs →
    ∀ (fuel : Nat) (rest : List Char), (itemChars vs).length < fuel →
    items fuel (itemChars vs ++ ']' :: rest) = (writtenItems vs, some rest)
  | [], h, _, _, _, _ => absurd rfl h
  | [v], _, h, fuel, rest, hf => by
    rw [NumberFreeItems] at h
    obtain ⟨fuel, rfl⟩ : ∃ f, fuel = f + 1 := ⟨fuel - 1, by omega⟩
    rw [itemChars] at hf ⊢
    exact items_last (value_chars v h.1 fuel _ (by omega))
  | v :: w :: l, _, h, fuel, rest, hf => by
    obtain ⟨fuel, rfl⟩ : ∃ f, fuel = f + 1 := ⟨fuel - 1, by omega⟩
    rw [NumberFreeItems, NumberFreeItems] at h
    have hlen : (itemChars (v :: w :: l)).length =
        (chars v).length + (itemChars (w :: l)).length + 1 := by
      simp [itemChars, Nat.add_assoc]
    obtain ⟨c, r, hc, hspace, hclose⟩ := exists_itemChars_eq h.2.1 l
    have hfirst := value_chars v h.1 fuel (',' :: (itemChars (w :: l) ++ ']' :: rest))
      (by omega)
    have hnext := items_chars (w :: l) (by simp) (by rw [NumberFreeItems]; exact h.2) fuel
      rest (by omega)
    have htext : itemChars (v :: w :: l) ++ ']' :: rest =
        chars v ++ ',' :: (itemChars (w :: l) ++ ']' :: rest) := by
      simp [itemChars]
    rw [hc] at hfirst hnext
    rw [htext, hc]
    exact items_more hspace hclose hfirst hnext

theorem members_chars : (ms : List (String × Json)) → ms ≠ [] → NumberFreeMembers ms →
    ∀ (fuel : Nat) (rest : List Char), (memberChars ms).length < fuel →
    members fuel (memberChars ms ++ '\x7d' :: rest) = (writtenMembers ms, some rest)
  | [], h, _, _, _, _ => absurd rfl h
  | [(k, v)], _, h, fuel, rest, hf => by
    rw [NumberFreeMembers] at h
    obtain ⟨fuel, rfl⟩ : ∃ f, fuel = f + 1 := ⟨fuel - 1, by omega⟩
    obtain ⟨c, r, hc, hspace, -⟩ := exists_chars_eq h.1
    have hlen : (memberChars [(k, v)]).length = (quote k).length + (chars v).length + 1 := by
      simp [memberChars, Nat.add_assoc]
    have hvalue := value_chars v h.1 fuel ('\x7d' :: rest) (by omega)
    have htext : memberChars [(k, v)] ++ '\x7d' :: rest =
        quote k ++ ':' :: (chars v ++ '\x7d' :: rest) := by
      simp [memberChars]
    rw [hc] at hvalue
    rw [htext, hc]
    exact members_last hspace hvalue
  | (k, v) :: (l, w) :: ms, _, h, fuel, rest, hf => by
    obtain ⟨fuel, rfl⟩ : ∃ f, fuel = f + 1 := ⟨fuel - 1, by omega⟩
    rw [NumberFreeMembers, NumberFreeMembers] at h
    obtain ⟨c, r, hc, hspace, -⟩ := exists_chars_eq h.1
    obtain ⟨r', hr'⟩ := exists_memberChars_eq l w ms
    have hlen : (memberChars ((k, v) :: (l, w) :: ms)).length =
        (quote k).length + (chars v).length + (memberChars ((l, w) :: ms)).length + 2 := by
      simp [memberChars]
      omega
    have hvalue := value_chars v h.1 fuel
      (',' :: (memberChars ((l, w) :: ms) ++ '\x7d' :: rest)) (by omega)
    have hnext := members_chars ((l, w) :: ms) (by simp) (by rw [NumberFreeMembers]; exact h.2)
      fuel rest (by omega)
    have htext : memberChars ((k, v) :: (l, w) :: ms) ++ '\x7d' :: rest =
        quote k ++ ':' :: (chars v ++ ',' :: (memberChars ((l, w) :: ms) ++ '\x7d' :: rest)) := by
      simp [memberChars]
    rw [hc, hr'] at hvalue
    rw [hr'] at hnext
    rw [htext, hc, hr']
    exact members_more hspace hvalue hnext

end

/-- **The text of a value is read as the value**, up to its end. -/
theorem ofChars_chars {v : Json} (h : v.NumberFree) : ofChars (chars v) = (written v, true) := by
  have hvalue := value_chars v h ((chars v).length + 1) [] (Nat.le_succ _)
  have hskip : skip (chars v) = chars v := by
    obtain ⟨c, r, hv, hspace, -⟩ := exists_chars_eq h
    rw [hv, skip_cons hspace]
  rw [List.append_nil] at hvalue
  rw [ofChars, hskip, hvalue]
  rfl

end Draft

namespace Json

mutual

/-- How many levels of arrays and objects there are. -/
def nesting : Json → Nat
  | .array items => nestingItems items + 1
  | .object members => nestingMembers members + 1
  | _ => 0

def nestingItems : List Json → Nat
  | [] => 0
  | v :: r => max (nesting v) (nestingItems r)

def nestingMembers : List (String × Json) → Nat
  | [] => 0
  | (_, v) :: r => max (nesting v) (nestingMembers r)

end

theorem nestingMembers_append (ms ns : List (String × Json)) :
    nestingMembers (ms ++ ns) = max (nestingMembers ms) (nestingMembers ns) := by
  induction ms with
  | nil => simp [nestingMembers]
  | cons e r ih =>
    obtain ⟨k, v⟩ := e
    rw [List.cons_append, nestingMembers, nestingMembers, ih, Nat.max_assoc]

/-- Members whose values are strings. -/
def Strings (ms : List (String × Json)) : Prop := ∀ e ∈ ms, ∃ s, e.2 = .string s

theorem numberFreeMembers_append {ms ns : List (String × Json)} (hm : NumberFreeMembers ms)
    (hn : NumberFreeMembers ns) : NumberFreeMembers (ms ++ ns) := by
  induction ms with
  | nil => exact hn
  | cons e r ih =>
    obtain ⟨k, v⟩ := e
    rw [NumberFreeMembers] at hm
    rw [List.cons_append, NumberFreeMembers]
    exact ⟨hm.1, ih hm.2⟩

theorem numberFreeMembers_of_strings {ms : List (String × Json)} (h : Strings ms) :
    NumberFreeMembers ms := by
  induction ms with
  | nil => rw [NumberFreeMembers]; trivial
  | cons e r ih =>
    obtain ⟨k, v⟩ := e
    obtain ⟨s, rfl⟩ : ∃ s, v = .string s := h (k, v) (by simp)
    rw [NumberFreeMembers]
    exact ⟨by simp [NumberFree], ih fun e he => h e (by simp [he])⟩

theorem nestingMembers_of_strings {ms : List (String × Json)} (h : Strings ms) :
    nestingMembers ms = 0 := by
  induction ms with
  | nil => rfl
  | cons e r ih =>
    obtain ⟨k, v⟩ := e
    obtain ⟨s, rfl⟩ : ∃ s, v = .string s := h (k, v) (by simp)
    rw [nestingMembers, ih fun e he => h e (by simp [he])]
    rfl

end Json

end Scaffold
