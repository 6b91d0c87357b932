import Scaffold.Proofs.Json.Lexeme

/-!
# How a JSON text is written

`Written` is a JSON value with its scalars as they are written. A text that is read to its end as JSON
is such a value with blanks between its lexemes (`Written.exists_isTextOf`).
-/

namespace Scaffold.Json

/-! ### Lexemes -/

/-- A mark, a word (a number or one of `true`, `false` and `null`), or a string. -/
inductive Lexeme
  | mark (c : Char)
  | word (x : List Char)
  | quoted (ps : List Piece)

def Lexeme.chars : Lexeme → List Char
  | mark c => [c]
  | word x => x
  | quoted ps => '"' :: (ps.flatMap Piece.chars ++ ['"'])

def Blank (cs : List Char) : Prop := ∀ c ∈ cs, Draft.isSpace c = true

/-- A text consists of lexemes with blanks in front of each, and goes on after some more blanks. -/
inductive Spaced : List Lexeme → List Char → List Char → Prop
  | nil {b r : List Char} (hb : Blank b) : Spaced [] (b ++ r) r
  | cons {x : Lexeme} {xs : List Lexeme} {b cs r : List Char} (hb : Blank b)
      (hcs : Spaced xs cs r) : Spaced (x :: xs) (b ++ (x.chars ++ cs)) r

section

variable {xs ys : List Lexeme} {x : Lexeme} {b cs m r : List Char}

theorem Blank.append (hb : Blank b) (hcs : Blank cs) : Blank (b ++ cs) := fun c hc =>
  (List.mem_append.1 hc).elim (hb c) (hcs c)

theorem Spaced.refl (r : List Char) : Spaced [] r r := .nil (b := []) (by simp [Blank])

theorem Spaced.single (x : Lexeme) (r : List Char) : Spaced [x] (x.chars ++ r) r :=
  .cons (b := []) (by simp [Blank]) (.refl r)

theorem Spaced.blank (hb : Blank b) (h : Spaced xs cs r) : Spaced xs (b ++ cs) r := by
  cases h with
  | nil hb' =>
    rw [← List.append_assoc]
    exact .nil (hb.append hb')
  | cons hb' hcs =>
    rw [← List.append_assoc]
    exact .cons (hb.append hb') hcs

/-- Blanks in front may be skipped or not. -/
theorem Spaced.of_skip (h : Spaced xs (Draft.skip cs) r) : Spaced xs cs r := by
  have hcs : cs.takeWhile Draft.isSpace ++ Draft.skip cs = cs := List.takeWhile_append_dropWhile
  rw [← hcs]
  exact h.blank fun c hc => List.mem_takeWhile_imp hc

/-- A mark that is read behind blanks. -/
theorem Spaced.mark_of_skip {c : Char} (h : Draft.skip cs = c :: r) : Spaced [.mark c] cs r :=
  .of_skip (h ▸ .single (.mark c) r)

theorem Spaced.append (h : Spaced xs cs m) (h' : Spaced ys m r) : Spaced (xs ++ ys) cs r := by
  induction h with
  | nil hb => exact h'.blank hb
  | cons hb _ ih => exact .cons hb (ih h')

theorem Spaced.of_append (h : Spaced (xs ++ ys) cs r) : ∃ m, Spaced xs cs m ∧ Spaced ys m r := by
  induction xs generalizing cs with
  | nil => exact ⟨cs, .refl cs, h⟩
  | cons x xs ih =>
    cases h with
    | cons hb hcs =>
      obtain ⟨m, hxs, hys⟩ := ih hcs
      exact ⟨m, .cons hb hxs, hys⟩

end

/-! ### Values -/

/-- A value with its scalars as they are written. -/
inductive Written
  | word (x : List Char)
  | quoted (ps : List Piece)
  | array (items : List Written)
  | object (members : List (List Piece × Written))

/-- Words of JSON. -/
def IsWord (x : List Char) : Prop :=
  x ∈ ["null".toList, "true".toList, "false".toList] ∨
    (∃ n, Draft.numeral? false x = some (n, [])) ∨
    ∃ y n, x = '-' :: y ∧ Draft.numeral? true y = some (n, [])

namespace Written

mutual

/-- Whether every scalar is written by the rules. -/
def Sound : Written → Prop
  | word x => IsWord x
  | quoted ps => ∀ p ∈ ps, p.Sound
  | array items => SoundItems items
  | object members => SoundMembers members

def SoundItems : List Written → Prop
  | [] => True
  | w :: r => w.Sound ∧ SoundItems r

def SoundMembers : List (List Piece × Written) → Prop
  | [] => True
  | (ps, w) :: r => (∀ p ∈ ps, p.Sound) ∧ w.Sound ∧ SoundMembers r

end

mutual

def lexemes : Written → List Lexeme
  | word x => [.word x]
  | quoted ps => [.quoted ps]
  | array items => .mark '[' :: (itemLexemes true items ++ [.mark ']'])
  | object members => .mark '\x7b' :: (memberLexemes true members ++ [.mark '\x7d'])

/-- The lexemes of items, with a comma in front of all but the `first` one. -/
def itemLexemes (first : Bool) : List Written → List Lexeme
  | [] => []
  | w :: r => (if first then [] else [.mark ',']) ++ (w.lexemes ++ itemLexemes false r)

def memberLexemes (first : Bool) : List (List Piece × Written) → List Lexeme
  | [] => []
  | (ps, w) :: r => (if first then [] else [.mark ',']) ++
      (.quoted ps :: .mark ':' :: (w.lexemes ++ memberLexemes false r))

end

/-- The text of pieces as it is read, if they have one. -/
def text? (ps : List Piece) : Option String := (Piece.text? ps).map String.ofList

mutual

/-- What is read of a value. -/
def draft : Written → Draft
  | word x => (Draft.value 1 x).1
  | quoted ps => .string (text? ps)
  | array items => .array (drafts items) true
  | object members => .object (memberDrafts members) true

def drafts : List Written → List Draft
  | [] => []
  | w :: r => w.draft :: drafts r

def memberDrafts : List (List Piece × Written) → List (Option String × Draft)
  | [] => []
  | (ps, w) :: r => (text? ps, w.draft) :: memberDrafts r

end

/-! ### Reading -/

theorem value_of_isDigit {c : Char} (hc : c.isDigit = true) (fuel : Nat) (cs : List Char) :
    Draft.value (fuel + 1) (c :: cs) = Draft.numeral false (c :: cs) := by
  have hne : ∀ d : Char, d.isDigit = false → c ≠ d := by
    rintro d hd rfl
    rw [hc] at hd
    cases hd
  -- every other kind of value begins with a character that is no digit
  unfold Draft.value
  split <;> first
    | rfl
    | next h => exact absurd (List.cons.inj h).1 (hne _ (by decide))

theorem exists_number {cs r : List Char} {d : Draft} {negative : Bool}
    (h : Draft.numeral negative cs = (d, some r)) : ∃ x n, cs = x ++ r ∧
      Draft.numeral? negative x = some (n, []) ∧ d = (Draft.numeral negative x).1 ∧
      ∃ c ∈ x.head?, c.isDigit = true := by
  rw [Draft.numeral] at h
  split at h
  next n r' hread =>
    cases h
    obtain ⟨x, rfl, hx, -, hfirst⟩ := exists_numeral hread
    exact ⟨x, n, rfl, hx, by rw [Draft.numeral, hx], hfirst⟩
  next => cases h

/-- A string is read up to its closing quote. -/
theorem exists_quoted {cs r : List Char} {s : Option String}
    (h : Draft.quotedText cs = some (s, r)) : ∃ ps, (∀ p ∈ ps, p.Sound) ∧
      '"' :: cs = (Lexeme.quoted ps).chars ++ r ∧ text? ps = s := by
  obtain ⟨⟨s', r'⟩, hread, h⟩ := Option.map_eq_some_iff.1 h
  obtain ⟨rfl, rfl⟩ := Prod.mk.inj h
  obtain ⟨ps, hps⟩ := Piece.exists_writes _ _ _ _ hread
  refine ⟨ps, hps.sound, ?_, by rw [text?, hps.text]⟩
  rw [hps.chars, Lexeme.chars]
  simp

mutual

/-- **A value that is read is written as such.** -/
theorem exists_value : (fuel : Nat) → ∀ (cs : List Char) (d : Draft) (r : List Char),
    Draft.value fuel cs = (d, some r) →
    ∃ w : Written, w.Sound ∧ Spaced w.lexemes cs r ∧ w.draft = d
  | 0, _, _, _, h => by cases h
  | fuel + 1, cs, d, r, h => by
    -- words stand by themselves
    have hword : ∀ x, IsWord x → (Draft.value 1 x).1 = d →
        ∃ w : Written, w.Sound ∧ Spaced w.lexemes (x ++ r) r ∧ w.draft = d :=
      fun x hx hd => ⟨word x, hx, .single (.word x) r, hd⟩
    unfold Draft.value at h
    split at h
    next => cases h; exact hword "null".toList (.inl (by simp)) rfl
    next => cases h; exact hword "true".toList (.inl (by simp)) rfl
    next => cases h; exact hword "false".toList (.inl (by simp)) rfl
    next cs =>
      obtain ⟨x, n, rfl, hx, rfl, -⟩ := exists_number h
      exact hword ('-' :: x) (.inr (.inr ⟨x, n, rfl, hx⟩)) rfl
    next cs =>
      -- a string
      split at h
      next s r' hread =>
        cases h
        obtain ⟨ps, hps, hcs, rfl⟩ := exists_quoted hread
        rw [hcs]
        exact ⟨quoted ps, hps, .single (.quoted ps) r, rfl⟩
      next => cases h
    next cs =>
      -- an array, empty or not
      split at h
      next r' hskip =>
        cases h
        have hend : Spaced [.mark ']'] cs r := .mark_of_skip hskip
        exact ⟨array [], trivial, .append (.single (.mark '[') cs) hend, rfl⟩
      next r' hno hskip =>
        obtain ⟨rfl, hrest⟩ := Prod.mk.inj h
        obtain ⟨w, ws, hsound, hspaced, hdrafts⟩ :=
          exists_items fuel (Draft.skip cs) _ r (Prod.ext rfl hrest)
        refine ⟨array (w :: ws), hsound, ?_, ?_⟩
        · exact .append (.single (.mark '[') cs) (.of_skip hspaced)
        · rw [draft, hdrafts, hrest]
          rfl
    next cs =>
      -- an object, empty or not
      split at h
      next r' hskip =>
        cases h
        have hend : Spaced [.mark '\x7d'] cs r := .mark_of_skip hskip
        exact ⟨object [], trivial, .append (.single (.mark '\x7b') cs) hend, rfl⟩
      next =>
        obtain ⟨rfl, hrest⟩ := Prod.mk.inj h
        obtain ⟨m, ms, hsound, hspaced, hdrafts⟩ :=
          exists_members fuel (Draft.skip cs) _ r (Prod.ext rfl hrest)
        refine ⟨object (m :: ms), hsound, ?_, ?_⟩
        · exact .append (.single (.mark '\x7b') cs) (.of_skip hspaced)
        · rw [draft, hdrafts, hrest]
          rfl
    next =>
      -- a number without a sign; its digit tells it from the other kinds
      obtain ⟨x, n, rfl, hx, rfl, c, hfirst, hc⟩ := exists_number h
      obtain ⟨x, rfl⟩ := List.head?_eq_some_iff.1 hfirst
      exact hword (c :: x) (.inr (.inl ⟨n, hx⟩)) (congrArg Prod.fst (value_of_isDigit hc 0 x))

theorem exists_items : (fuel : Nat) → ∀ (cs : List Char) (ds : List Draft) (r : List Char),
    Draft.items fuel cs = (ds, some r) →
    ∃ (w : Written) (ws : List Written), SoundItems (w :: ws) ∧
      Spaced (itemLexemes true (w :: ws) ++ [.mark ']']) cs r ∧ drafts (w :: ws) = ds
  | 0, _, _, _, h => by cases h
  | fuel + 1, cs, ds, r, h => by
    unfold Draft.items at h
    split at h
    next => cases h
    next d r' hvalue =>
      obtain ⟨w, hw, hspaced, rfl⟩ := exists_value fuel cs d r' hvalue
      split at h
      next r'' hskip =>
        cases h
        have hend : Spaced [.mark ']'] r' r := .mark_of_skip hskip
        refine ⟨w, [], ⟨hw, trivial⟩, ?_, rfl⟩
        simpa [itemLexemes] using hspaced.append hend
      next r'' hskip =>
        split at h
        next => cases h
        next =>
          obtain ⟨rfl, hrest⟩ := Prod.mk.inj h
          obtain ⟨w', ws, hsound, hmore, hdrafts⟩ :=
            exists_items fuel (Draft.skip r'') _ r (Prod.ext rfl hrest)
          have hcomma : Spaced [.mark ','] r' r'' := .mark_of_skip hskip
          refine ⟨w, w' :: ws, ⟨hw, hsound⟩, ?_, by rw [drafts, hdrafts]⟩
          simpa [itemLexemes] using hspaced.append (hcomma.append hmore.of_skip)
      next => cases h

theorem exists_members : (fuel : Nat) → ∀ (cs : List Char) (ds : List (Option String × Draft))
    (r : List Char), Draft.members fuel cs = (ds, some r) →
    ∃ (m : List Piece × Written) (ms : List (List Piece × Written)), SoundMembers (m :: ms) ∧
      Spaced (memberLexemes true (m :: ms) ++ [.mark '\x7d']) cs r ∧ memberDrafts (m :: ms) = ds
  | 0, _, _, _, h => by cases h
  | fuel + 1, cs, ds, r, h => by
    unfold Draft.members at h
    split at h
    next cs =>
      split at h
      next => cases h
      next k r' hkey =>
        obtain ⟨ps, hps, hcs, rfl⟩ := exists_quoted hkey
        rw [hcs]
        split at h
        next r'' hskip =>
          have hcolon : Spaced [.mark ':'] r' r'' := .mark_of_skip hskip
          have hpair := (Spaced.single (.quoted ps) r').append hcolon
          split at h
          next => cases h
          next d r₁ hvalue =>
            obtain ⟨w, hw, hspaced, rfl⟩ := exists_value fuel _ d r₁ hvalue
            have hmember := hpair.append hspaced.of_skip
            split at h
            next r₂ hskip =>
              cases h
              have hend : Spaced [.mark '\x7d'] r₁ r := .mark_of_skip hskip
              refine ⟨(ps, w), [], ⟨hps, hw, trivial⟩, ?_, rfl⟩
              simpa [memberLexemes] using hmember.append hend
            next r₂ hskip =>
              obtain ⟨rfl, hrest⟩ := Prod.mk.inj h
              obtain ⟨m, ms, hsound, hmore, hdrafts⟩ :=
                exists_members fuel (Draft.skip r₂) _ r (Prod.ext rfl hrest)
              have hcomma : Spaced [.mark ','] r₁ r₂ := .mark_of_skip hskip
              refine ⟨(ps, w), m :: ms, ⟨hps, hw, hsound⟩, ?_, by rw [memberDrafts, hdrafts]⟩
              simpa [memberLexemes] using hmember.append (hcomma.append hmore.of_skip)
            next => cases h
        next => cases h
    next => cases h

end

/-- A text that is the value and nothing else. -/
structure IsTextOf (w : Written) (cs : List Char) : Prop where
  sound : w.Sound
  spaced : Spaced w.lexemes cs []

/-- **A text that is read to its end** is a value with blanks between its lexemes. -/
theorem exists_isTextOf {cs : List Char} {d : Draft} (h : Draft.ofChars cs = (d, true)) :
    ∃ w : Written, w.IsTextOf cs ∧ w.draft = d := by
  rw [Draft.ofChars] at h
  split at h
  next v r hvalue =>
    obtain ⟨rfl, hempty⟩ := Prod.mk.inj h
    obtain ⟨w, hsound, hspaced, rfl⟩ := exists_value _ _ _ _ hvalue
    have hend : Spaced [] r [] := .of_skip (List.isEmpty_iff.1 hempty ▸ .refl [])
    refine ⟨w, ⟨hsound, ?_⟩, rfl⟩
    simpa using hspaced.of_skip.append hend
  next => cases h

end Written

end Scaffold.Json
