import Mathlib.Data.Bool.AllAny
import Mathlib.Data.List.Infix
import Scaffold.Json.Printer
import Scaffold.Proofs.Json.Printed
import Scaffold.Yaml.Scalar

/-!
# JSON strings as YAML scalars

The text of a JSON string is also a double-quoted scalar of YAML. The rules of YAML are others: not
every character may stand there, blanks around a line end are dropped, a next-line character counts as
a line end, and a line may look like the mark of a document. A text to which none of this happens
(`Quotable`) is read as it is (`quoted?_quote`).
-/

namespace Scaffold.Yaml

variable {c m : Char} {cs xs : List Char} {i l k : Nat}

/-- The line and paragraph separators, which end a line and stand as they are. -/
def separators : List Char := ['\u2028', '\u2029']

def isSeparator (c : Char) : Bool := c == '\u2028' || c == '\u2029'

theorem isSeparator_iff : isSeparator c = true ↔ c ∈ separators := by
  simp [isSeparator, separators]

/-- **A text that is the same between quotation marks in JSON and in YAML.** Characters below U+0020
are escaped there. -/
structure Quotable (cs : List Char) : Prop where
  printable : ∀ c ∈ cs, 0x20 ≤ c.toNat → isPrintable c
  next_line : '\u0085' ∉ cs
  blank_before : ∀ c, isSeparator c → ¬ [' ', c] <:+: cs
  blank_after : ∀ c, isSeparator c → ¬ [c, ' '] <:+: cs
  mark : ∀ c m d, isSeparator c → m ∈ ['-', '.'] → d = ' ' ∨ isSeparator d →
    ¬ [c, m, m, m, d] <:+: cs

/-- The conditions of `Quotable`, one after the other. -/
def isQuotable (cs : List Char) : Bool :=
  cs.all (fun c => c.toNat < 0x20 || isPrintable c) && !cs.contains '\u0085' &&
    separators.all fun c => !decide ([' ', c] <:+: cs) && !decide ([c, ' '] <:+: cs) &&
      ['-', '.'].all fun m => (' ' :: separators).all fun d => !decide ([c, m, m, m, d] <:+: cs)

theorem isQuotable_iff : isQuotable cs = true ↔ Quotable cs := by
  simp only [isQuotable, Bool.and_eq_true, List.all_eq_true, Bool.or_eq_true, decide_eq_true_eq,
    Bool.not_eq_true', decide_eq_false_iff_not, List.contains_eq_mem]
  constructor
  · rintro ⟨⟨hprint, hline⟩, hseparator⟩
    exact {
      printable := fun c hc hlow => (hprint c hc).resolve_left (Nat.not_lt.2 hlow)
      next_line := hline
      blank_before := fun c hc => (hseparator c (isSeparator_iff.1 hc)).1.1
      blank_after := fun c hc => (hseparator c (isSeparator_iff.1 hc)).1.2
      mark := fun c m d hc hm hd => (hseparator c (isSeparator_iff.1 hc)).2 m hm d
        (List.mem_cons.2 (hd.imp id isSeparator_iff.1)) }
  · intro h
    refine ⟨⟨fun c hc => (Nat.lt_or_ge _ _).imp id (h.printable c hc), h.next_line⟩, fun c hc => ?_⟩
    have hc := isSeparator_iff.2 hc
    exact ⟨⟨h.blank_before c hc, h.blank_after c hc⟩, fun m hm d hd => h.mark c m d hc hm
      ((List.mem_cons.1 hd).imp id isSeparator_iff.2)⟩

instance (cs : List Char) : Decidable (Quotable cs) := decidable_of_iff _ isQuotable_iff

theorem Quotable.tail (h : Quotable (c :: cs)) : Quotable cs where
  printable d hd := h.printable d (List.mem_cons_of_mem _ hd)
  next_line hd := h.next_line (List.mem_cons_of_mem _ hd)
  blank_before d hs hd := h.blank_before d hs (List.infix_cons hd)
  blank_after d hs hd := h.blank_after d hs (List.infix_cons hd)
  mark b m d hs hm hd hi := h.mark b m d hs hm hd (List.infix_cons hi)

/-- No line begins with the mark of a document here. -/
def Unmarked (cs : List Char) : Prop :=
  ∀ m d r, m ∈ ['-', '.'] → d = ' ' ∨ isSeparator d → cs ≠ m :: m :: m :: d :: r

theorem Quotable.unmarked (h : Quotable (c :: cs)) (hc : isSeparator c) : Unmarked cs := by
  rintro m d r hm hd rfl
  exact h.mark c m d hc hm hd ⟨[], r, rfl⟩

/-! ### Places -/

theorem placeFrom_cons (hn : c ≠ '\n') (hr : c ≠ '\r') (hl : c ≠ '\u0085') :
    placeFrom i l k (c :: cs) = ⟨c, i, l, k⟩ ::
      if isBreak c then placeFrom (i + 1) (l + 1) 0 cs else placeFrom (i + 1) l (k + 1) cs := by
  rw [placeFrom]
  · simp only [hn, hr, hl, or_self, if_false]
    split_ifs <;> rfl
  · exact fun _ h _ => absurd h hr

/-- A character that stands within a line. -/
theorem placeFrom_still (hr : c ≠ '\r') (hl : c ≠ '\u0085') (hb : isBreak c = false) :
    placeFrom i l k (c :: cs) = ⟨c, i, l, k⟩ :: placeFrom (i + 1) l (k + 1) cs := by
  have hn : c ≠ '\n' := by
    rintro rfl
    exact absurd hb (by decide)
  rw [placeFrom_cons hn hr hl, hb, if_neg Bool.false_ne_true]

/-- Without carriage returns every character has a place of its own. -/
theorem length_placeFrom (h : '\r' ∉ cs) : (placeFrom i l k cs).length = cs.length := by
  induction cs generalizing i l k with
  | nil => rfl
  | cons c cs ih =>
    have hrest := fun i l k => ih (i := i) (l := l) (k := k) fun hr => h (List.mem_cons_of_mem _ hr)
    rw [placeFrom]
    · split_ifs <;> simp [hrest]
    · rintro r rfl
      exact absurd List.mem_cons_self h

/-- Line ends are uniform. -/
theorem exists_placeFrom_lineEnd (i l k : Nat) (cs : List Char) (h : c ∈ ['\n', '\r', '\u0085']) : ∃ s t,
    placeFrom i l k (c :: cs) = s :: t ∧ s.char = '\n' := by
  have hc : c = '\n' ∨ c = '\r' ∨ c = '\u0085' := by simpa using h
  by_cases hpair : ∃ r, c = '\r' ∧ cs = '\n' :: r
  · obtain ⟨r, rfl, rfl⟩ := hpair
    exact ⟨_, _, rfl, rfl⟩
  · rw [placeFrom, if_pos hc]
    · exact ⟨_, _, rfl, rfl⟩
    · exact fun r hr hcs => hpair ⟨r, hr, hcs⟩

/-- A dash or a dot in its place. -/
theorem placeFrom_eq_cons {s : Spot} {t : Rest} (hm : s.char ∈ ['-', '.'])
    (h : placeFrom i l k xs = s :: t) : ∃ ys, xs = s.char :: ys ∧ s.column = k ∧
      t = placeFrom (i + 1) l (k + 1) ys := by
  cases xs with
  | nil => cases h
  | cons c ys =>
    by_cases hc : c ∈ ['\n', '\r', '\u0085']
    · obtain ⟨s', t', hplaced, hchar⟩ := exists_placeFrom_lineEnd i l k ys hc
      obtain ⟨rfl, -⟩ := List.cons.inj (hplaced.symm.trans h)
      rw [hchar] at hm
      exact absurd hm (by decide)
    · simp only [List.mem_cons, List.not_mem_nil, or_false, not_or] at hc
      rw [placeFrom_cons hc.1 hc.2.1 hc.2.2] at h
      obtain ⟨rfl, rfl⟩ := List.cons.inj h
      have hb : isBreak c = false := by
        revert hm
        simp only [List.mem_cons, List.not_mem_nil, or_false]
        rintro (rfl | rfl) <;> rfl
      exact ⟨ys, rfl, rfl, by rw [hb, if_neg Bool.false_ne_true]⟩

/-- A mark of a document is a character three times, at the beginning of a line and by itself. -/
theorem startsWithMark_eq_true_iff {r : Rest} : r.startsWithMark m = true ↔
    ∃ a b c t, r = a :: b :: c :: t ∧ a.column = 0 ∧ a.char = m ∧ b.char = m ∧ c.char = m ∧
      Rest.endsWord t = true := by
  constructor
  · intro h
    rw [Rest.startsWithMark.eq_def] at h
    split at h
    next a b c t =>
      simp only [Bool.and_eq_true, beq_iff_eq, and_assoc] at h
      exact ⟨a, b, c, t, rfl, h⟩
    next => cases h
  · rintro ⟨a, b, c, t, rfl, hcolumn, ha, hb, hc, hends⟩
    rw [Rest.startsWithMark]
    simp [hcolumn, ha, hb, hc, hends]

theorem startsWithMark_of_ne {here : Spot} (h : here.char ≠ m) (r : Rest) :
    Rest.startsWithMark m (here :: r) = false := by
  refine Bool.eq_false_iff.2 fun hmark => ?_
  obtain ⟨a, b, c, t, heq, -, ha, -⟩ := startsWithMark_eq_true_iff.1 hmark
  exact h ((List.cons.inj heq).1 ▸ ha)

theorem startsWithMark_placeFrom (hm : m ∈ ['-', '.'])
    (h : (placeFrom i l k xs).startsWithMark m = true) :
    k = 0 ∧ ∃ ys, xs = m :: m :: m :: ys ∧ Rest.endsWord (placeFrom (i + 3) l (k + 3) ys) = true := by
  obtain ⟨a, b, c, r, hplaced, hcolumn, rfl, hb, hc, hends⟩ := startsWithMark_eq_true_iff.1 h
  obtain ⟨ys, rfl, hk, hys⟩ := placeFrom_eq_cons hm hplaced
  obtain ⟨zs, rfl, -, hzs⟩ := placeFrom_eq_cons (hb ▸ hm) hys.symm
  obtain ⟨ws, rfl, -, hws⟩ := placeFrom_eq_cons (hc ▸ hm) hzs.symm
  rw [hws] at hends
  exact ⟨hk.symm.trans hcolumn, ws, by rw [hb, hc], hends⟩

open Json (escapeChar)

/-- A dash or a dot among escaped characters is one of the text. -/
theorem flatMap_escapeChar_eq_cons {r ys : List Char} (hm : m ∈ ['-', '.'])
    (h : cs.flatMap escapeChar ++ '"' :: r = m :: ys) :
    ∃ cs', cs = m :: cs' ∧ cs'.flatMap escapeChar ++ '"' :: r = ys := by
  have hne : m ≠ '"' ∧ m ≠ '\\' := by
    simp only [List.mem_cons, List.not_mem_nil, or_false] at hm
    rcases hm with rfl | rfl <;> decide
  cases cs with
  | nil => exact absurd (List.cons.inj h).1.symm hne.1
  | cons c cs =>
    rw [List.flatMap_cons, escapeChar] at h
    split_ifs at h
    · exact absurd (List.cons.inj h).1.symm hne.2
    · exact absurd (List.cons.inj h).1.symm hne.2
    · rw [Json.controlEscape] at h
      split_ifs at h
      all_goals exact absurd (List.cons.inj h).1.symm hne.2
    · obtain ⟨rfl, hys⟩ := List.cons.inj h
      exact ⟨cs, rfl, hys⟩

/-- A character stands as it is, or its escape begins with a backslash. -/
theorem escapeChar_cases (c : Char) :
    (escapeChar c = [c] ∧ 0x20 ≤ c.toNat ∧ c ≠ '"' ∧ c ≠ '\\') ∨
      (c = '"' ∨ c = '\\' ∨ c.toNat < 0x20) ∧ ∃ r, escapeChar c = '\\' :: r := by
  rw [escapeChar]
  split_ifs with hq hb hcontrol
  · exact .inr ⟨.inl hq, _, rfl⟩
  · exact .inr ⟨.inr (.inl hb), _, rfl⟩
  · refine .inr ⟨.inr (.inr hcontrol), ?_⟩
    rw [Json.controlEscape]
    split_ifs
    all_goals exact ⟨_, rfl⟩
  · exact .inl ⟨rfl, Nat.le_of_not_lt hcontrol, hq, hb⟩

/-- Of the characters that stand as they are, a space is the only blank and the separators are the
only line ends. -/
theorem isGap_or_isBreak (hc : 0x20 ≤ c.toNat) (h : (isGap c || isBreak c) = true) :
    c = ' ' ∨ isSeparator c = true := by
  simp only [isGap, isBreak, isSeparator, Bool.or_eq_true, beq_iff_eq] at h ⊢
  rcases h with (rfl | rfl) | (rfl | h) | h
  · exact .inl rfl
  · exact absurd hc (by decide)
  · exact absurd hc (by decide)
  · exact .inr (.inl h)
  · exact .inr (.inr h)

theorem ne_lineEnd (hc : 0x20 ≤ c.toNat) : c ≠ '\n' ∧ c ≠ '\r' := by
  constructor
  all_goals
    rintro rfl
    exact absurd hc (by decide)

/-- A line of an unmarked text is no mark of a document. -/
theorem atDocumentMark_quote (h : Quotable cs) (hk : k = 0 → Unmarked cs) (r : List Char) :
    (placeFrom i l k (cs.flatMap escapeChar ++ '"' :: r)).atDocumentMark = false := by
  have hno : ∀ m ∈ ['-', '.'],
      (placeFrom i l k (cs.flatMap escapeChar ++ '"' :: r)).startsWithMark m = false := by
    intro m hm
    by_contra hstarts
    obtain ⟨hzero, ys, hys, hends⟩ := startsWithMark_placeFrom hm (Bool.not_eq_false _ ▸ hstarts)
    obtain ⟨cs₁, rfl, h₁⟩ := flatMap_escapeChar_eq_cons hm hys
    obtain ⟨cs₂, rfl, h₂⟩ := flatMap_escapeChar_eq_cons hm h₁
    obtain ⟨cs₃, rfl, rfl⟩ := flatMap_escapeChar_eq_cons hm h₂
    cases cs₃ with
    | nil =>
      rw [List.flatMap_nil, List.nil_append, placeFrom_still (by decide) (by decide) (by decide)]
        at hends
      exact absurd hends Bool.false_ne_true
    | cons d ds =>
      rw [List.flatMap_cons, List.append_assoc] at hends
      rcases escapeChar_cases d with ⟨hd, hlow, -, -⟩ | ⟨-, e, he⟩
      · have hline : d ≠ '\u0085' := by
          rintro rfl
          exact h.next_line (by simp)
        rw [hd, List.singleton_append, placeFrom_cons (ne_lineEnd hlow).1 (ne_lineEnd hlow).2 hline]
          at hends
        exact hk hzero m d ds hm (isGap_or_isBreak hlow hends) rfl
      · rw [he, List.cons_append, placeFrom_still (by decide) (by decide) (by decide)] at hends
        exact absurd hends Bool.false_ne_true
  rw [Rest.atDocumentMark, hno '-' (by simp), hno '.' (by simp), Bool.or_false]

/-! ### Reading -/

section

variable {out : List Char} {fold : Fold} {r : Rest}

theorem quotedFrom_end {s : Spot} (hmark : Rest.atDocumentMark (s :: r) = false)
    (hs : s.char = '"') :
    quotedFrom '"' out fold (s :: r) = some ((fold.join ++ out).reverse, r) := by
  rw [quotedFrom]
  simp only [hmark, hs, Bool.false_eq_true, if_false]
  rw [if_neg (by decide), if_neg (by decide), if_pos trivial]
  cases r with
  | nil => rfl
  | cons t r => exact if_neg fun h => absurd h.1 (by decide)

theorem quotedFrom_blank {s : Spot} (hmark : Rest.atDocumentMark (s :: r) = false)
    (hs : s.char = ' ') :
    quotedFrom '"' out fold (s :: r) = quotedFrom '"' out (fold.addBlank ' ') r := by
  rw [quotedFrom]
  simp only [hmark, hs, Bool.false_eq_true, if_false]
  exact if_pos (by decide)

theorem quotedFrom_separator {s : Spot} (hmark : Rest.atDocumentMark (s :: r) = false)
    (hs : isSeparator s.char = true) :
    quotedFrom '"' out fold (s :: r) = quotedFrom '"' out (fold.addBreak s.char) r := by
  have hgap : isGap s.char = false ∧ isBreak s.char = true := by
    simp only [isSeparator, Bool.or_eq_true, beq_iff_eq] at hs
    rcases hs with hs | hs <;> rw [hs] <;> decide
  rw [quotedFrom]
  simp only [hmark, hgap.1, hgap.2, Bool.false_eq_true, if_false, if_true]

theorem quotedFrom_plain {s : Spot} (hmark : Rest.atDocumentMark (s :: r) = false)
    (hs : (isGap s.char || isBreak s.char) = false) (hq : s.char ≠ '"') (hb : s.char ≠ '\\') :
    quotedFrom '"' out fold (s :: r) =
      quotedFrom '"' (s.char :: (fold.join ++ out)) .none r := by
  obtain ⟨hgap, hbreak⟩ := Bool.or_eq_false_iff.1 hs
  rw [quotedFrom]
  simp only [hmark, hgap, hbreak, hq, hb, Bool.false_eq_true, if_false, and_false]

/-- An escape by one letter. -/
theorem quotedFrom_simple {s e : Spot} (hmark : Rest.atDocumentMark (s :: e :: r) = false)
    (hs : s.char = '\\') (he : isBreak e.char = false) (hc : simpleEscape? e.char = some c) :
    quotedFrom '"' out fold (s :: e :: r) = quotedFrom '"' (c :: (fold.join ++ out)) .none r := by
  rw [quotedFrom]
  simp only [hmark, hs, he, hc, Bool.false_eq_true, if_false]
  rw [if_neg (by decide), if_neg (by decide), if_neg (by decide), if_pos (by decide)]

/-- An escape by four digits. -/
theorem quotedFrom_digits {s e : Spot} {t : Rest} {n : Nat}
    (hmark : Rest.atDocumentMark (s :: e :: r) = false) (hs : s.char = '\\') (he : e.char = 'u')
    (hn : hexNumber? 4 0 r = some (n, t)) (hc : scalarValue? n = some c) :
    quotedFrom '"' out fold (s :: e :: r) = quotedFrom '"' (c :: (fold.join ++ out)) .none t := by
  have hsimple : simpleEscape? 'u' = none := rfl
  have hdigits : digitsOfEscape? 'u' = some 4 := rfl
  have hbreak : isBreak 'u' = false := rfl
  rw [quotedFrom]
  simp only [hmark, hs, he, hsimple, hdigits, hbreak, Bool.false_eq_true, if_false]
  rw [if_neg (by decide), if_neg (by decide), if_neg (by decide), if_pos (by decide)]
  split
  next m u hm =>
    obtain ⟨rfl, rfl⟩ := Prod.mk.inj (Option.some.inj (hm.symm.trans hn))
    rw [hc]
  next hm => rw [hn] at hm; cases hm

/-- A digit stands within its line. -/
theorem placeFrom_digit : ∀ n < 16, Nat.digitChar n ≠ '\r' ∧ Nat.digitChar n ≠ '\u0085' ∧
    isBreak (Nat.digitChar n) = false ∧ hexValue? (Nat.digitChar n) = some n := by decide

theorem hexNumber?_digits {n : Nat} (hn : n < 0x20) (xs : List Char) :
    hexNumber? 4 0 (placeFrom i l k
      ('0' :: '0' :: Nat.digitChar (n / 16) :: Nat.digitChar (n % 16) :: xs)) =
        some (n, placeFrom (i + 4) l (k + 4) xs) := by
  obtain ⟨hr, hl, hb, hhigh⟩ := placeFrom_digit (n / 16) (by omega)
  obtain ⟨hr', hl', hb', hlow⟩ := placeFrom_digit (n % 16) (by omega)
  have hzero : hexValue? '0' = some 0 := rfl
  rw [placeFrom_still (by decide) (by decide) (by decide),
    placeFrom_still (by decide) (by decide) (by decide), placeFrom_still hr hl hb,
    placeFrom_still hr' hl' hb']
  simp only [hexNumber?, hzero, hhigh, hlow, Option.bind_eq_bind, Option.bind_some,
    Option.some.injEq, Prod.mk.injEq, Nat.add_assoc, Nat.reduceAdd, and_true]
  omega

/-- Below U+0020, what has no letter of its own is written with four digits. -/
theorem escapeChar_digits : ∀ n < 0x20, n ∉ [8, 9, 10, 12, 13] →
    escapeChar (Char.ofNat n) =
        ['\\', 'u', '0', '0', Nat.digitChar (n / 16), Nat.digitChar (n % 16)] ∧
      scalarValue? n = some (Char.ofNat n) := by
  decide

/-- **Every escaped character is read from its escape.** -/
theorem quotedFrom_escape (xs : List Char)
    (hmark : (placeFrom i l k (escapeChar c ++ xs)).atDocumentMark = false)
    (hc : c = '"' ∨ c = '\\' ∨ c.toNat < 0x20) :
    quotedFrom '"' out fold (placeFrom i l k (escapeChar c ++ xs)) =
      quotedFrom '"' (c :: (fold.join ++ out)) .none
        (placeFrom (i + (escapeChar c).length) l (k + (escapeChar c).length) xs) := by
  have hletter : ∀ d : Char, escapeChar c = ['\\', d] → simpleEscape? d = some c → d ≠ '\r' →
      d ≠ '\u0085' → isBreak d = false → quotedFrom '"' out fold
        (placeFrom i l k (escapeChar c ++ xs)) = quotedFrom '"' (c :: (fold.join ++ out)) .none
          (placeFrom (i + (escapeChar c).length) l (k + (escapeChar c).length) xs) := by
    intro d hd hsimple hr hl hb
    rw [hd, List.cons_append, List.singleton_append, placeFrom_still (by decide) (by decide)
      (by decide), placeFrom_still hr hl hb] at hmark ⊢
    exact quotedFrom_simple hmark rfl hb hsimple
  rcases hc with rfl | rfl | hlow
  · exact hletter '"' (by decide) (by decide) (by decide) (by decide) (by decide)
  · exact hletter '\\' (by decide) (by decide) (by decide) (by decide) (by decide)
  · obtain ⟨n, hn, rfl⟩ : ∃ n, n < 0x20 ∧ c = Char.ofNat n :=
      ⟨c.toNat, hlow, (Char.ofNat_toNat c).symm⟩
    by_cases hnamed : n ∈ [8, 9, 10, 12, 13]
    · simp only [List.mem_cons, List.not_mem_nil, or_false] at hnamed
      rcases hnamed with rfl | rfl | rfl | rfl | rfl
      · exact hletter 'b' (by decide) (by decide) (by decide) (by decide) (by decide)
      · exact hletter 't' (by decide) (by decide) (by decide) (by decide) (by decide)
      · exact hletter 'n' (by decide) (by decide) (by decide) (by decide) (by decide)
      · exact hletter 'f' (by decide) (by decide) (by decide) (by decide) (by decide)
      · exact hletter 'r' (by decide) (by decide) (by decide) (by decide) (by decide)
    · obtain ⟨hdigits, hvalue⟩ := escapeChar_digits n hn hnamed
      have hnumber := hexNumber?_digits (i := i + 1 + 1) (l := l) (k := k + 1 + 1) hn xs
      rw [hdigits, List.cons_append, List.cons_append, placeFrom_still (by decide) (by decide)
        (by decide), placeFrom_still (by decide) (by decide) (by decide)] at hmark ⊢
      exact quotedFrom_digits hmark rfl rfl hnumber hvalue

end

/-! A gap is blanks or separators: neither stands next to the other. -/

namespace Fold

variable {fold : Fold}

/-- What a gap asks of the text after it. -/
def Fits : Fold → List Char → Prop
  | blanks [], _ => True
  | blanks (_ :: _), cs => ∀ c ∈ cs.head?, isSeparator c = false
  | breaks (some b) _, cs => b ≠ '\n' ∧ cs.head? ≠ some ' '
  | breaks .none _, _ => False

theorem join_breaks {b : Char} (hb : b ≠ '\n') (more : List Char) :
    (breaks (some b) more).join = more ++ [b] := by
  rw [join]
  all_goals simp_all

theorem addBlank_of_fits (h : fold.Fits (' ' :: cs)) (hnext : ∀ c ∈ cs.head?, isSeparator c = false) :
    (fold.addBlank ' ').join = ' ' :: fold.join ∧ (fold.addBlank ' ').Fits cs := by
  match fold, h with
  | blanks bs, _ => exact ⟨rfl, hnext⟩
  | breaks (some b) more, h => exact absurd rfl h.2

theorem addBreak_of_fits (h : fold.Fits (c :: cs)) (hc : isSeparator c = true)
    (hnext : cs.head? ≠ some ' ') :
    (fold.addBreak c).join = c :: fold.join ∧ (fold.addBreak c).Fits cs := by
  have hne : c ≠ '\n' := by
    rintro rfl
    exact absurd hc (by decide)
  match fold, h with
  | blanks [], _ => exact ⟨join_breaks hne [], hne, hnext⟩
  | blanks (b :: bs), h =>
    have hno : isSeparator c = false := h c rfl
    rw [hc] at hno
    exact absurd hno.symm Bool.false_ne_true
  | breaks (some b) more, h =>
    refine ⟨?_, h.1, hnext⟩
    rw [addBreak, join_breaks h.1, join_breaks h.1, List.cons_append]

end Fold

theorem isBreak_of_isSeparator (h : isSeparator c = true) : isBreak c = true := by
  simp only [isSeparator, isBreak, Bool.or_eq_true] at h ⊢
  exact h.elim (fun h => .inl (.inr h)) .inr

/-- Reading goes past a character, and then stands to the text after it as it did before. -/
def Passes (c : Char) (cs out : List Char) (fold : Fold) (i l k : Nat) (r : List Char) : Prop :=
  ∃ out' fold' k', fold'.Fits cs ∧ fold'.join ++ out' = c :: (fold.join ++ out) ∧
    (k' = 0 → Unmarked cs) ∧
    quotedFrom '"' out fold (placeFrom i l k (escapeChar c ++ (cs.flatMap escapeChar ++ '"' :: r))) =
      quotedFrom '"' out' fold' (placeFrom (i + (escapeChar c).length)
        (l + if isSeparator c then 1 else 0) k' (cs.flatMap escapeChar ++ '"' :: r))

section

variable {out r : List Char} {fold : Fold}

section

variable (h : Quotable (c :: cs)) (hfits : fold.Fits (c :: cs))
  (hmark : (placeFrom i l k (escapeChar c ++ (cs.flatMap escapeChar ++ '"' :: r))).atDocumentMark = false)
  (hc : escapeChar c = [c]) (hlow : 0x20 ≤ c.toNat)

include h hfits hmark hc hlow

theorem passes_separator (hseparator : isSeparator c = true) : Passes c cs out fold i l k r := by
  obtain ⟨hn, hr⟩ := ne_lineEnd hlow
  have hline : c ≠ '\u0085' := fun heq => h.next_line (heq ▸ List.mem_cons_self)
  obtain ⟨hjoin, hfits'⟩ := Fold.addBreak_of_fits hfits hseparator fun hhead => by
    obtain ⟨ds, rfl⟩ := List.head?_eq_some_iff.1 hhead
    exact h.blank_after c hseparator ⟨[], ds, rfl⟩
  refine ⟨out, fold.addBreak c, 0, hfits', by rw [hjoin]; rfl, fun _ => h.unmarked hseparator, ?_⟩
  rw [hc, List.singleton_append, placeFrom_cons hn hr hline] at hmark ⊢
  rw [quotedFrom_separator hmark hseparator, if_pos (isBreak_of_isSeparator hseparator),
    if_pos hseparator]
  rfl

/-- A character that stands as it is and ends no line. -/
theorem passes_still (hq : c ≠ '"') (hb : c ≠ '\\') (hseparator : ¬ isSeparator c = true) :
    Passes c cs out fold i l k r := by
  obtain ⟨hn, hr⟩ := ne_lineEnd hlow
  have hline : c ≠ '\u0085' := fun heq => h.next_line (heq ▸ List.mem_cons_self)
  -- what is below U+0020 is escaped, and separators are another case
  have hgap : isGap c = true ∨ isBreak c = true → c = ' ' := fun hgap =>
    (isGap_or_isBreak hlow (by simpa using hgap)).resolve_right hseparator
  have hstill : isBreak c = false := by
    by_contra hbreak
    obtain rfl := hgap (.inr (by simpa using hbreak))
    exact hbreak rfl
  rw [Passes, if_neg hseparator]
  rw [hc, List.singleton_append, placeFrom_cons hn hr hline, hstill, if_neg Bool.false_ne_true]
    at hmark ⊢
  by_cases hblank : c = ' '
  · subst hblank
    obtain ⟨hjoin, hfits'⟩ := Fold.addBlank_of_fits hfits fun d hd => by
      obtain ⟨ds, rfl⟩ := List.head?_eq_some_iff.1 hd
      by_contra hs
      exact h.blank_before d (by simpa using hs) ⟨[], ds, rfl⟩
    refine ⟨out, fold.addBlank ' ', k + 1, hfits', by rw [hjoin]; rfl,
      fun h => absurd h (Nat.succ_ne_zero k), ?_⟩
    rw [quotedFrom_blank hmark rfl]
    rfl
  · have hplain : (isGap c || isBreak c) = false := by
      by_contra h
      exact hblank (hgap (Bool.or_eq_true_iff.1 (Bool.not_eq_false _ ▸ h)))
    refine ⟨c :: (fold.join ++ out), .none, k + 1, trivial, rfl,
      fun h => absurd h (Nat.succ_ne_zero k), ?_⟩
    rw [quotedFrom_plain hmark hplain hq hb]
    rfl

end

/-- **One character of a quoted text**, in whatever way it is written. -/
theorem passes_char (h : Quotable (c :: cs)) (hfits : fold.Fits (c :: cs))
    (hk : k = 0 → Unmarked (c :: cs)) (r : List Char) : Passes c cs out fold i l k r := by
  have hmark := atDocumentMark_quote (i := i) (l := l) h hk r
  rw [List.flatMap_cons, List.append_assoc] at hmark
  rcases escapeChar_cases c with ⟨hc, hlow, hq, hb⟩ | ⟨hescaped, e, he⟩
  · by_cases hseparator : isSeparator c = true
    · exact passes_separator h hfits hmark hc hlow hseparator
    · exact passes_still h hfits hmark hc hlow hq hb hseparator
  · have hseparator : isSeparator c = false := by
      rcases hescaped with rfl | rfl | hlow
      · rfl
      · rfl
      · by_contra hs
        simp only [isSeparator, Bool.not_eq_false, Bool.or_eq_true, beq_iff_eq] at hs
        rcases hs with rfl | rfl
        all_goals exact absurd hlow (by decide)
    refine ⟨c :: (fold.join ++ out), .none, k + (escapeChar c).length, trivial, rfl, fun h => ?_, ?_⟩
    · rw [he, List.length_cons] at h
      omega
    · rw [quotedFrom_escape _ hmark hescaped, hseparator, if_neg Bool.false_ne_true, Nat.add_zero]

end

/-- **What JSON writes between quotation marks is read as it is.** Only separators end lines. -/
theorem quotedFrom_quote (cs : List Char) (r : List Char) : ∀ (out : List Char) (fold : Fold)
    (i l k : Nat), Quotable cs → fold.Fits cs → (k = 0 → Unmarked cs) → ∃ k',
      quotedFrom '"' out fold (placeFrom i l k (cs.flatMap escapeChar ++ '"' :: r)) =
        some ((fold.join ++ out).reverse ++ cs,
          placeFrom (i + (cs.flatMap escapeChar).length + 1) (l + cs.countP isSeparator) k' r) := by
  induction cs with
  | nil =>
    intro out fold i l k h hfits hk
    have hmark := atDocumentMark_quote (i := i) (l := l) h hk r
    rw [List.flatMap_nil, List.nil_append, placeFrom_still (by decide) (by decide) (by decide)]
      at hmark ⊢
    exact ⟨k + 1, by rw [quotedFrom_end hmark rfl, List.append_nil]; rfl⟩
  | cons c cs ih =>
    intro out fold i l k h hfits hk
    obtain ⟨out', fold', k', hfits', hjoin, hk', hread⟩ : Passes c cs out fold i l k r :=
      passes_char h hfits hk r
    obtain ⟨k'', hrest⟩ := ih out' fold' (i + (escapeChar c).length)
      (l + if isSeparator c then 1 else 0) k' h.tail hfits' hk'
    refine ⟨k'', ?_⟩
    rw [List.flatMap_cons, List.append_assoc, hread, hrest, hjoin, List.reverse_cons,
      List.append_assoc, List.singleton_append, List.length_append, List.countP_cons, Nat.add_assoc i, Nat.add_assoc l,
      Nat.add_comm (List.countP _ _)]

/-- A text between quotation marks. -/
theorem quoted?_quote {s : String} (h : Quotable s.toList) (i l : Nat) (k : Nat) (r : List Char) :
    ∃ k', quoted? '"' (placeFrom i l (k + 1) (s.toList.flatMap escapeChar ++ '"' :: r)) =
      some (s.toList, placeFrom (i + (s.toList.flatMap escapeChar).length + 1)
        (l + s.toList.countP isSeparator) k' r) :=
  quotedFrom_quote s.toList r [] .none i l (k + 1) h trivial fun h => absurd h (Nat.succ_ne_zero k)

end Scaffold.Yaml
