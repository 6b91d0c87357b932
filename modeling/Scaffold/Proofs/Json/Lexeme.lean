import Mathlib.Data.List.TakeWhile
import Scaffold.Json.Draft

/-!
# How the scalars of JSON are written

A string is written in pieces (`Piece`), and its content is what the pieces stand for, one after the
other (`Piece.exists_writes`). A numeral is read in a text as it would be alone (`exists_numeral`).
-/

namespace Scaffold.Json

/-! ### Strings -/

/-- A part of a string as it is written: a character, an escape by a letter, or one by four digits. -/
inductive Piece
  | plain (c : Char)
  | escape (c : Char)
  | code (a b c d : Char)

namespace Piece

def chars : Piece → List Char
  | plain c => [c]
  | escape c => ['\\', c]
  | code a b c d => ['\\', 'u', a, b, c, d]

/-- The number that four digits write. -/
def number? (a b c d : Char) : Option Nat := (Draft.hex4? [a, b, c, d]).map Prod.fst

def Sound : Piece → Prop
  | plain c => 0x20 ≤ c.toNat ∧ c ≠ '"' ∧ c ≠ '\\'
  | escape c => (Draft.simpleEscape? c).isSome
  | code a b c d => (number? a b c d).isSome

/-- The halves of a surrogate pair. -/
def IsHigh (n : Nat) : Prop := 0xD800 ≤ n ∧ n < 0xDC00

def IsLow (n : Nat) : Prop := 0xDC00 ≤ n ∧ n < 0xE000

instance (n : Nat) : Decidable (IsHigh n) := inferInstanceAs (Decidable (_ ∧ _))

instance (n : Nat) : Decidable (IsLow n) := inferInstanceAs (Decidable (_ ∧ _))

/-- The text that pieces stand for; there is none if half of a surrogate pair stands alone. -/
def text? : List Piece → Option (List Char)
  | [] => some []
  | plain c :: r => (text? r).map (c :: ·)
  | escape e :: r => (text? r).map ((Draft.simpleEscape? e).getD e :: ·)
  | code a b c d :: code a' b' c' d' :: r =>
    let n := (number? a b c d).getD 0
    let m := (number? a' b' c' d').getD 0
    if IsHigh n then
      if IsLow m then
        (text? r).map (Char.ofNat (0x10000 + (n - 0xD800) * 0x400 + (m - 0xDC00)) :: ·)
      else none
    else if IsLow n then none
    else (text? (code a' b' c' d' :: r)).map (Char.ofNat n :: ·)
  | code a b c d :: r =>
    let n := (number? a b c d).getD 0
    if IsHigh n ∨ IsLow n then none else (text? r).map (Char.ofNat n :: ·)

variable {a b c d a' b' c' d' : Char} {r : List Char} {ps : List Piece} {n m : Nat}

theorem hex4?_eq_some {cs : List Char} (h : Draft.hex4? cs = some (n, r)) :
    ∃ a b c d, cs = a :: b :: c :: d :: r ∧ number? a b c d = some n := by
  match cs, h with
  | a :: b :: c :: d :: cs, h =>
    simp only [Draft.hex4?, Option.bind_eq_bind, Option.bind_eq_some_iff, Option.some.injEq,
      Prod.mk.injEq] at h
    obtain ⟨w, hw, x, hx, y, hy, z, hz, rfl, rfl⟩ := h
    exact ⟨a, b, c, d, rfl, by simp [number?, Draft.hex4?, hw, hx, hy, hz]⟩

theorem sound_code (hn : number? a b c d = some n) : (code a b c d).Sound := by
  rw [Sound, hn]
  rfl

theorem text?_pair (hn : number? a b c d = some n) (hm : number? a' b' c' d' = some m)
    (hhigh : IsHigh n) : text? (code a b c d :: code a' b' c' d' :: ps) =
      if IsLow m then
        (text? ps).map (Char.ofNat (0x10000 + (n - 0xD800) * 0x400 + (m - 0xDC00)) :: ·)
      else none := by
  rw [text?, hn, hm]
  exact if_pos hhigh

/-- A code that is no high half stands for itself. -/
theorem text?_code (ps : List Piece) (hn : number? a b c d = some n) (hhigh : ¬ IsHigh n) :
    text? (code a b c d :: ps) =
      if IsLow n then none else (text? ps).map (Char.ofNat n :: ·) := by
  rw [text?.eq_def]
  split
  next h => cases h
  next h => cases h
  next h => cases h
  next h =>
    cases h
    simp only [hn, Option.getD_some, if_neg hhigh]
  next h =>
    cases h
    simp only [hn, Option.getD_some, hhigh, false_or]

/-- A high half stands alone unless the code of a low half follows. -/
theorem text?_alone (hn : number? a b c d = some n) (hhigh : IsHigh n)
    (h : ∀ a' b' c' d' m qs, ps = code a' b' c' d' :: qs → number? a' b' c' d' = some m →
      ¬ IsLow m) (hps : ∀ p ∈ ps, p.Sound) : text? (code a b c d :: ps) = none := by
  match ps, h, hps with
  | [], _, _ => simp only [text?, hn, Option.getD_some, hhigh, true_or, if_true]
  | plain c :: qs, _, _ => simp only [text?, hn, Option.getD_some, hhigh, true_or, if_true]
  | escape e :: qs, _, _ => simp only [text?, hn, Option.getD_some, hhigh, true_or, if_true]
  | code a' b' c' d' :: qs, h, hps =>
    obtain ⟨m, hm⟩ := Option.isSome_iff_exists.1 (hps _ List.mem_cons_self)
    rw [text?_pair hn hm hhigh, if_neg (h _ _ _ _ m qs rfl hm)]

/-- Pieces that write a text up to its closing quote, with this content. -/
structure Writes (ps : List Piece) (cs : List Char) (s : Option (List Char)) (r : List Char) :
    Prop where
  sound : ∀ p ∈ ps, p.Sound
  chars : cs = ps.flatMap chars ++ '"' :: r
  text : text? ps = s

variable {cs : List Char} {s s' : Option (List Char)} {p : Piece} {fuel : Nat}

/-- One more piece in front. -/
theorem Writes.cons (h : Writes ps cs s r) (hp : p.Sound) (hs : text? (p :: ps) = s') :
    Writes (p :: ps) (p.chars ++ cs) s' r where
  sound := List.forall_mem_cons.2 ⟨hp, h.sound⟩
  chars := by rw [h.chars, List.flatMap_cons, List.append_assoc]
  text := hs

/-- What follows a high half is read again, unless it is a low half. -/
theorem exists_writes_high
    (ih : ∀ cs s r, Draft.content fuel cs = some (s, r) → ∃ ps, Writes ps cs s r)
    (hn : number? a b c d = some n) (hhigh : IsHigh n)
    (h : (match cs with
      | '\\' :: 'u' :: r' => do
        let (m, r') ← Draft.hex4? r'
        if 0xDC00 ≤ m && m < 0xE000 then
          let (s, r') ← Draft.content fuel r'
          some (s.map (Char.ofNat (0x10000 + (n - 0xD800) * 0x400 + (m - 0xDC00)) :: ·), r')
        else
          let (_, r) ← Draft.content fuel cs
          some (none, r)
      | _ => do
        let (_, r) ← Draft.content fuel cs
        some (none, r)) = some (s, r)) :
    ∃ ps, Writes ps ((code a b c d).chars ++ cs) s r := by
  -- a high half that stands alone leaves no text, and what follows it is read on its own
  have hagain : (∀ a' b' c' d' m qs, cs = '\\' :: 'u' :: a' :: b' :: c' :: d' :: qs →
      number? a' b' c' d' = some m → ¬ IsLow m) →
      (Draft.content fuel cs).bind (fun x => some ((none : Option (List Char)), x.2)) =
        some (s, r) → ∃ ps, Writes ps ((code a b c d).chars ++ cs) s r := by
    intro hlow h
    obtain ⟨⟨s', r'⟩, hread, h⟩ := Option.bind_eq_some_iff.1 h
    obtain ⟨rfl, rfl⟩ := Prod.mk.inj (Option.some.inj h)
    obtain ⟨ps, hps⟩ := ih _ _ _ hread
    refine ⟨_, hps.cons (sound_code hn) (text?_alone hn hhigh ?_ hps.sound)⟩
    rintro a' b' c' d' m qs rfl
    exact hlow a' b' c' d' m _ hps.chars
  split at h
  next cs =>
    simp only [Option.bind_eq_bind, Option.bind_eq_some_iff, Prod.exists] at h
    obtain ⟨m, cs', hhex, h⟩ := h
    obtain ⟨a', b', c', d', rfl, hm⟩ := hex4?_eq_some hhex
    split_ifs at h with hlow
    · have hlow : IsLow m := by simpa [IsLow] using hlow
      obtain ⟨⟨s', r'⟩, hread, h⟩ := Option.bind_eq_some_iff.1 h
      obtain ⟨rfl, rfl⟩ := Prod.mk.inj (Option.some.inj h)
      obtain ⟨ps, hps⟩ := ih _ _ _ hread
      refine ⟨_, Writes.cons (hps.cons (sound_code hm) rfl) (sound_code hn) ?_⟩
      rw [text?_pair hn hm hhigh, if_pos hlow, hps.text]
    · refine hagain ?_ h
      rintro _ _ _ _ k qs heq hk
      cases heq
      obtain rfl := Option.some.inj (hm.symm.trans hk)
      simpa [IsLow] using hlow
  next hno =>
    refine hagain ?_ h
    rintro a' b' c' d' m qs rfl -
    exact absurd rfl (hno _)

/-- **The content of a string is read piece by piece.** -/
theorem exists_writes (fuel : Nat) : ∀ (cs : List Char) (s : Option (List Char)) (r : List Char),
    Draft.content fuel cs = some (s, r) → ∃ ps, Writes ps cs s r := by
  induction fuel with
  | zero => exact fun cs s r h => by cases h
  | succ fuel ih =>
    intro cs s r h
    rw [Draft.content.eq_def] at h
    simp only at h
    split at h
    next => cases h
    next =>
      -- the closing quote
      obtain ⟨rfl, rfl⟩ := Prod.mk.inj (Option.some.inj h)
      exact ⟨[], by simp, rfl, rfl⟩
    next =>
      -- an escape by digits
      simp only [Option.bind_eq_bind, Option.bind_eq_some_iff, Prod.exists] at h
      obtain ⟨n, cs, hhex, h⟩ := h
      obtain ⟨a, b, c, d, rfl, hn⟩ := hex4?_eq_some hhex
      by_cases hhigh : IsHigh n
      · rw [if_pos (by simpa [IsHigh] using hhigh)] at h
        exact exists_writes_high ih hn hhigh h
      · rw [if_neg (by simpa [IsHigh] using hhigh)] at h
        obtain ⟨⟨s', r'⟩, hread, h⟩ := Option.bind_eq_some_iff.1 h
        obtain ⟨ps, hps⟩ := ih _ _ _ hread
        have htext := text?_code ps hn hhigh
        split_ifs at h with hlow
        · obtain ⟨rfl, rfl⟩ := Prod.mk.inj (Option.some.inj h)
          rw [if_pos (by simpa [IsLow] using hlow)] at htext
          exact ⟨_, hps.cons (sound_code hn) htext⟩
        · obtain ⟨rfl, rfl⟩ := Prod.mk.inj (Option.some.inj h)
          rw [if_neg (by simpa [IsLow] using hlow), hps.text] at htext
          exact ⟨_, hps.cons (sound_code hn) htext⟩
    next e cs _ =>
      -- an escape by a letter
      simp only [Option.bind_eq_bind, Option.bind_eq_some_iff, Prod.exists] at h
      obtain ⟨c, hc, s', r', hread, h⟩ := h
      obtain ⟨rfl, rfl⟩ := Prod.mk.inj (Option.some.inj h)
      obtain ⟨ps, hps⟩ := ih _ _ _ hread
      refine ⟨_, hps.cons (p := escape e) (by rw [Sound, hc]; rfl) ?_⟩
      rw [text?, hps.text, hc]
      rfl
    next c cs hquote _ _ =>
      -- a character that stands for itself, which no control character does
      split_ifs at h with hcontrol
      simp only [Option.bind_eq_bind, Option.bind_eq_some_iff, Prod.exists] at h
      obtain ⟨s', r', hread, h⟩ := h
      obtain ⟨rfl, rfl⟩ := Prod.mk.inj (Option.some.inj h)
      obtain ⟨ps, hps⟩ := ih _ _ _ hread
      simp only [Bool.or_eq_true, decide_eq_true_eq, beq_iff_eq, not_or, Nat.not_lt] at hcontrol
      refine ⟨_, hps.cons (p := plain c) ⟨hcontrol.1, hquote, hcontrol.2⟩ ?_⟩
      rw [text?, hps.text]

end Piece

/-! ### Numbers -/

section Numeral

open Draft (digits? fraction? sign exponent? numeral?)

variable {cs r x : List Char} {n : Numeral} {negative : Bool}

/-- The characters that numbers are made of. -/
def isNumeric (c : Char) : Bool := c.isDigit || ".eE+-".toList.contains c

/-- No digit comes next. -/
def NoDigit (cs : List Char) : Prop := ∀ c ∈ cs.head?, c.isDigit = false

theorem digits?_eq_some {ds : List Char} : digits? cs = some (ds, r) ↔
    cs = ds ++ r ∧ ds ≠ [] ∧ (∀ c ∈ ds, c.isDigit = true) ∧ NoDigit r := by
  rw [digits?]
  constructor
  · intro h
    split_ifs at h with hempty
    obtain ⟨rfl, rfl⟩ := Prod.mk.inj (Option.some.inj h)
    refine ⟨List.takeWhile_append_dropWhile.symm, by simpa using hempty,
      fun c hc => List.mem_takeWhile_imp hc, fun c hc => ?_⟩
    have hnot := List.head?_dropWhile_not Char.isDigit cs
    rw [Option.mem_def.1 hc] at hnot
    simpa using hnot
  · rintro ⟨rfl, hne, hall, hno⟩
    have htake : r.takeWhile Char.isDigit = [] ∧ r.dropWhile Char.isDigit = r := by
      cases r with
      | nil => exact ⟨rfl, rfl⟩
      | cons c r => simp [hno c rfl]
    rw [List.takeWhile_append_of_pos hall, List.dropWhile_append_of_pos hall, htake.1, htake.2,
      List.append_nil, if_neg (by simpa using hne)]

theorem isNumeric_of_isDigit {c : Char} (h : c.isDigit = true) : isNumeric c = true := by
  rw [isNumeric, h, Bool.true_or]

/-- A sign is told apart from the digits after it. -/
theorem exists_sign (cs : List Char) : ∃ s, cs = s ++ (sign cs).2 ∧ (∀ c ∈ s, isNumeric c = true) ∧
    ∀ ds r, (sign cs).2 = ds ++ r → ds ≠ [] → sign (s ++ ds) = ((sign cs).1, ds) := by
  unfold sign
  split
  · exact ⟨['-'], rfl, List.forall_mem_singleton.2 rfl, fun ds r _ _ => rfl⟩
  · exact ⟨['+'], rfl, List.forall_mem_singleton.2 rfl, fun ds r _ _ => rfl⟩
  next hminus hplus =>
    refine ⟨[], rfl, by simp, fun ds r hcs hne => ?_⟩
    obtain ⟨c, ds, rfl⟩ := List.exists_cons_of_ne_nil hne
    rw [List.nil_append]
    split
    next heq => exact absurd (hcs.trans (congrArg (· ++ r) heq)) (hminus _)
    next heq => exact absurd (hcs.trans (congrArg (· ++ r) heq)) (hplus _)
    next => rfl

theorem exists_exponent {e : Option (Bool × List Char)} (h : exponent? cs = some (e, r)) :
    ∃ x, cs = x ++ r ∧ exponent? x = some (e, []) ∧ (∀ c ∈ x, isNumeric c = true) ∧ NoDigit x ∧
      x.head? ≠ some '.' := by
  cases cs with
  | nil =>
    obtain ⟨rfl, rfl⟩ := Prod.mk.inj (Option.some.inj h)
    exact ⟨[], rfl, rfl, by simp, by simp [NoDigit], by simp⟩
  | cons c cs =>
    rw [exponent?] at h
    split_ifs at h with hc
    · obtain ⟨⟨ds, r'⟩, hdigits, h⟩ := Option.map_eq_some_iff.1 h
      obtain ⟨rfl, rfl⟩ := Prod.mk.inj h
      obtain ⟨hcs, hne, hall, hno⟩ := digits?_eq_some.1 hdigits
      obtain ⟨s, hs, hsnumeric, hsign⟩ := exists_sign cs
      have hletter : isNumeric c = true ∧ c.isDigit = false ∧ c ≠ '.' := by
        rcases hc with rfl | rfl <;> decide
      refine ⟨c :: (s ++ ds), ?_, ?_, ?_, by simp [NoDigit, hletter.2.1], by simp [hletter.2.2]⟩
      · rw [hcs] at hs
        rw [hs]
        simp
      · rw [exponent?, if_pos hc, hsign ds r' hcs hne]
        simp only
        rw [digits?_eq_some.2 ⟨(List.append_nil ds).symm, hne, hall, by simp [NoDigit]⟩]
        rfl
      · simp only [List.mem_cons, List.mem_append]
        rintro d (rfl | hd | hd)
        · exact hletter.1
        · exact hsnumeric d hd
        · exact isNumeric_of_isDigit (hall d hd)
    · obtain ⟨rfl, rfl⟩ := Prod.mk.inj (Option.some.inj h)
      exact ⟨[], rfl, rfl, by simp, by simp [NoDigit], by simp⟩

theorem exists_fraction {f : List Char} (h : fraction? cs = some (f, r)) :
    ∃ x, cs = x ++ r ∧ (∀ c ∈ x, isNumeric c = true) ∧
      ∀ y, NoDigit y → y.head? ≠ some '.' → fraction? (x ++ y) = some (f, y) ∧ NoDigit (x ++ y) := by
  unfold fraction? at h
  split at h
  next cs =>
    obtain ⟨rfl, hne, hall, -⟩ := digits?_eq_some.1 h
    refine ⟨'.' :: f, rfl, ?_, fun y hno _ => ⟨digits?_eq_some.2 ⟨rfl, hne, hall, hno⟩, ?_⟩⟩
    · exact List.forall_mem_cons.2 ⟨by decide, fun c hc => isNumeric_of_isDigit (hall c hc)⟩
    · intro c hc
      cases hc
      rfl
  next =>
    obtain ⟨rfl, rfl⟩ := Prod.mk.inj (Option.some.inj h)
    refine ⟨[], rfl, by simp, fun y hno hpoint => ⟨?_, hno⟩⟩
    rw [List.nil_append]
    unfold fraction?
    split
    · exact absurd rfl hpoint
    · rfl

/-- **A numeral is read as it would be alone.** -/
theorem exists_numeral (h : numeral? negative cs = some (n, r)) :
    ∃ x, cs = x ++ r ∧ numeral? negative x = some (n, []) ∧ (∀ c ∈ x, isNumeric c = true) ∧
      ∃ c ∈ x.head?, c.isDigit = true := by
  rw [numeral?] at h
  simp only [Option.bind_eq_bind, Option.bind_eq_some_iff, Prod.exists] at h
  obtain ⟨whole, rest, hdigits, h⟩ := h
  by_cases hzero : whole.head? = some '0' ∧ 1 < whole.length
  · rw [if_pos hzero] at h
    cases h
  rw [if_neg hzero] at h
  obtain ⟨⟨f, rest'⟩, hfraction, h⟩ := Option.bind_eq_some_iff.1 h
  obtain ⟨⟨e, r'⟩, hexponent, h⟩ := Option.bind_eq_some_iff.1 h
  obtain ⟨rfl, rfl⟩ := Prod.mk.inj (Option.some.inj h)
  obtain ⟨rfl, hne, hall, -⟩ := digits?_eq_some.1 hdigits
  obtain ⟨x, rfl, hx, hfollowed⟩ := exists_fraction hfraction
  obtain ⟨y, rfl, hy, hynumeric, hyno, hypoint⟩ := exists_exponent hexponent
  obtain ⟨hread, hno⟩ := hfollowed y hyno hypoint
  refine ⟨whole ++ (x ++ y), by simp, ?_, ?_, ?_⟩
  · rw [numeral?, digits?_eq_some.2 ⟨rfl, hne, hall, hno⟩]
    simp only [Option.bind_eq_bind, Option.bind_some, if_neg hzero, hread, hy]
  · simp only [List.mem_append]
    rintro c (hc | hc | hc)
    · exact isNumeric_of_isDigit (hall c hc)
    · exact hx c hc
    · exact hynumeric c hc
  · obtain ⟨c, ds, rfl⟩ := List.exists_cons_of_ne_nil hne
    exact ⟨c, rfl, hall c List.mem_cons_self⟩

end Numeral

end Scaffold.Json
