import Scaffold.Proofs.Json.Lexeme
import Scaffold.Proofs.Yaml.Quoted

/-!
# JSON strings as YAML reads them

A YAML reader of a JSON string folds the line ends that may stand in it: a next-line character, and the
line and paragraph separators. If it can read the string at all, it reads `folded` (`quoted?_pieces`).
Where this has neither blanks nor line ends, it is what JSON says (`text?_of_folded`).
-/

namespace Scaffold.Yaml

open Json (Piece)

variable {c : Char} {out x cs more : List Char} {fold : Fold} {ps : List Piece} {i l k n : Nat}
variable {r : Rest}

/-- One piece as YAML reads it, after a text that is listed latest character first, and a gap. -/
def foldPiece (s : List Char × Fold) : Piece → List Char × Fold
  | .plain c =>
    if c = ' ' then (s.1, s.2.addBlank ' ')
    else if c = '\u0085' then (s.1, s.2.addBreak '\n')
    else if isSeparator c then (s.1, s.2.addBreak c)
    else (c :: (s.2.join ++ s.1), .none)
  | .escape e => ((Draft.simpleEscape? e).getD e :: (s.2.join ++ s.1), .none)
  | .code a b c d => (Char.ofNat ((Piece.number? a b c d).getD 0) :: (s.2.join ++ s.1), .none)

/-- What is read, once nothing follows the gap. -/
def foldEnd (s : List Char × Fold) : List Char := (s.2.join ++ s.1).reverse

/-- **The text of a JSON string in YAML.** -/
def folded (ps : List Piece) : List Char := foldEnd (ps.foldl foldPiece ([], .none))

/-- YAML knows no surrogate pairs: every code is one of a character. -/
def Alone : Piece → Prop
  | .code a b c d => ∃ n, Piece.number? a b c d = some n ∧ n.isValidChar
  | _ => True

theorem quotedFrom_mark {quote : Char} (h : r.atDocumentMark = true) :
    quotedFrom quote out fold r = none := by
  rw [quotedFrom.eq_def, if_pos h]

theorem not_mark_of_some {quote : Char} {y : List Char × Rest}
    (h : quotedFrom quote out fold r = some y) : r.atDocumentMark = false := by
  by_contra hmark
  rw [quotedFrom_mark (Bool.not_eq_false _ ▸ hmark)] at h
  cases h

theorem quotedFrom_break {s : Spot} (hmark : Rest.atDocumentMark (s :: r) = false)
    (hs : isBreak s.char = true) :
    quotedFrom '"' out fold (s :: r) = quotedFrom '"' out (fold.addBreak s.char) r := by
  have hgap : isGap s.char = false := by
    simp only [isBreak, Bool.or_eq_true, beq_iff_eq] at hs
    rcases hs with (hs | hs) | hs <;> rw [hs] <;> decide
  rw [quotedFrom]
  simp only [hmark, hgap, hs, Bool.false_eq_true, if_false, if_true]

/-- An escape by digits that write no character breaks the rules. -/
theorem isValidChar_of_some {s e : Spot} {t : Rest} {y : List Char × Rest}
    (hs : s.char = '\\') (he : e.char = 'u') (hn : hexNumber? 4 0 r = some (n, t))
    (h : quotedFrom '"' out fold (s :: e :: r) = some y) : n.isValidChar := by
  have hmark := not_mark_of_some h
  have hsimple : simpleEscape? 'u' = none := rfl
  have hdigits : digitsOfEscape? 'u' = some 4 := rfl
  have hbreak : isBreak 'u' = false := rfl
  rw [quotedFrom] at h
  simp only [hmark, hs, he, hsimple, hdigits, hbreak, Bool.false_eq_true, if_false] at h
  rw [if_neg (by decide), if_neg (by decide), if_neg (by decide), if_pos (by decide)] at h
  split at h
  next m u hm =>
    obtain ⟨rfl, rfl⟩ := Prod.mk.inj (Option.some.inj (hm.symm.trans hn))
    by_contra hvalid
    rw [scalarValue?, dif_neg hvalid] at h
    cases h
  next hm =>
    rw [hn] at hm
    cases hm

theorem scalarValue?_of_valid (h : n.isValidChar) : scalarValue? n = some (Char.ofNat n) := by
  rw [scalarValue?, dif_pos h, Char.ofNat, dif_pos h]

/-- JSON and YAML agree on the escapes by a letter that JSON has. -/
theorem simpleEscape?_of_json {e : Char} (h : Draft.simpleEscape? e = some c) :
    simpleEscape? e = some c ∧ e ≠ '\r' ∧ e ≠ '\u0085' ∧ isBreak e = false := by
  rw [Draft.simpleEscape?] at h
  split_ifs at h with h₁ h₂ h₃ h₄ h₅ h₆ h₇ h₈
  all_goals
    cases h
    subst_vars
    decide

/-- They agree on digits as well. -/
theorem hexValue?_of_json {d : Char} (h : Draft.hexValue? d = some n) :
    hexValue? d = some n ∧ d ≠ '\r' ∧ d ≠ '\u0085' ∧ isBreak d = false := by
  have hsame : hexValue? d = Draft.hexValue? d := by
    simp only [hexValue?, Draft.hexValue?, Bool.and_eq_true, decide_eq_true_eq]
  have hne : ∀ e : Char, Draft.hexValue? e = none → d ≠ e := by
    rintro e he rfl
    rw [he] at h
    cases h
  refine ⟨hsame.trans h, hne _ (by decide), hne _ (by decide), ?_⟩
  simp only [isBreak, Bool.or_eq_false_iff, beq_eq_false_iff_ne]
  exact ⟨⟨hne _ (by decide), hne _ (by decide)⟩, hne _ (by decide)⟩

theorem placeFrom_still_digit {d : Char} (h : Draft.hexValue? d = some n) (cs : List Char) :
    placeFrom i l k (d :: cs) = ⟨d, i, l, k⟩ :: placeFrom (i + 1) l (k + 1) cs := by
  obtain ⟨-, hr, hl, hb⟩ := hexValue?_of_json h
  exact placeFrom_still hr hl hb

theorem hexNumber?_of_number? {a b c d : Char} (h : Piece.number? a b c d = some n)
    (cs : List Char) : hexNumber? 4 0 (placeFrom i l k (a :: b :: c :: d :: cs)) =
      some (n, placeFrom (i + 4) l (k + 4) cs) := by
  simp only [Piece.number?, Draft.hex4?, Option.bind_eq_bind, Option.map_eq_some_iff,
    Option.bind_eq_some_iff, Option.some.injEq, Prod.exists, Prod.mk.injEq] at h
  obtain ⟨m, -, ⟨w, hw, x, hx, y, hy, z, hz, rfl, -⟩, rfl⟩ := h
  rw [placeFrom_still_digit hw, placeFrom_still_digit hx, placeFrom_still_digit hy,
    placeFrom_still_digit hz]
  simp only [hexNumber?, (hexValue?_of_json hw).1, (hexValue?_of_json hx).1,
    (hexValue?_of_json hy).1, (hexValue?_of_json hz).1, Option.bind_eq_bind, Option.bind_some,
    Nat.zero_mul, Nat.zero_add]

/-- One piece is read, whatever stands in front of it. -/
theorem quotedFrom_piece {p : Piece} {y : List Char × Rest} (hp : p.Sound)
    (h : quotedFrom '"' out fold (placeFrom i l k (p.chars ++ cs)) = some y) : Alone p ∧
      ∃ i' l' k', quotedFrom '"' (foldPiece (out, fold) p).1 (foldPiece (out, fold) p).2
        (placeFrom i' l' k' cs) = some y := by
  have hmark := not_mark_of_some h
  cases p with
  | plain c =>
    obtain ⟨hlow, hquote, hback⟩ := hp
    refine ⟨trivial, ?_⟩
    rw [Piece.chars, List.singleton_append] at h hmark
    rw [foldPiece]
    -- a next-line character is placed as a line end, and a separator ends a line as itself
    split_ifs with hblank hline hseparator
    · subst hblank
      rw [placeFrom_still (by decide) (by decide) (by decide)] at h hmark
      rw [quotedFrom_blank hmark rfl] at h
      exact ⟨_, _, _, h⟩
    · subst hline
      have hplace : placeFrom i l k ('\u0085' :: cs) =
          ⟨'\n', i, l, k⟩ :: placeFrom (i + 1) (l + 1) 0 cs := rfl
      rw [hplace] at h hmark
      rw [quotedFrom_break hmark rfl] at h
      exact ⟨_, _, _, h⟩
    · have hbreak := isBreak_of_isSeparator hseparator
      rw [placeFrom_cons (ne_lineEnd hlow).1 (ne_lineEnd hlow).2 hline, if_pos hbreak] at h hmark
      rw [quotedFrom_break hmark hbreak] at h
      exact ⟨_, _, _, h⟩
    · -- no other character of a JSON string is a gap or a line end
      have hplain : (isGap c || isBreak c) = false := by
        by_contra hgap
        exact (isGap_or_isBreak hlow (Bool.not_eq_false _ ▸ hgap)).elim hblank hseparator
      rw [placeFrom_still (ne_lineEnd hlow).2 hline (Bool.or_eq_false_iff.1 hplain).2] at h hmark
      rw [quotedFrom_plain hmark hplain hquote hback] at h
      exact ⟨_, _, _, h⟩
  | escape e =>
    obtain ⟨c, hc⟩ := Option.isSome_iff_exists.1 hp
    obtain ⟨hsimple, hr, hl, hb⟩ := simpleEscape?_of_json hc
    refine ⟨trivial, ?_⟩
    rw [Piece.chars, List.cons_append, List.singleton_append,
      placeFrom_still (by decide) (by decide) (by decide), placeFrom_still hr hl hb] at h hmark
    rw [quotedFrom_simple hmark rfl hb hsimple] at h
    rw [foldPiece, hc]
    exact ⟨_, _, _, h⟩
  | code a b c d =>
    obtain ⟨n, hn⟩ := Option.isSome_iff_exists.1 hp
    rw [Piece.chars] at h hmark
    simp only [List.cons_append, List.nil_append] at h hmark
    rw [placeFrom_still (by decide) (by decide) (by decide),
      placeFrom_still (by decide) (by decide) (by decide)] at h hmark
    have hnumber := hexNumber?_of_number? (i := i + 1 + 1) (l := l) (k := k + 1 + 1) hn cs
    have hvalid := isValidChar_of_some rfl rfl hnumber h
    rw [quotedFrom_digits hmark rfl rfl hnumber (scalarValue?_of_valid hvalid)] at h
    rw [foldPiece, hn]
    exact ⟨⟨n, hn, hvalid⟩, _, _, _, h⟩

/-- **The pieces of a JSON string in a YAML text**: what is read of them is folded, whatever stood in
front of them, and it ends at their quote. -/
theorem quotedFrom_pieces (ps : List Piece) : ∀ (s : List Char × Fold) (i l k : Nat),
    (∀ p ∈ ps, p.Sound) → quotedFrom '"' s.1 s.2
      (placeFrom i l k (ps.flatMap Piece.chars ++ '"' :: more)) = some (x, r) →
    x = foldEnd (ps.foldl foldPiece s) ∧ (∀ p ∈ ps, Alone p) ∧
      ∃ i' l' k', r = placeFrom i' l' k' more := by
  induction ps with
  | nil =>
    intro s i l k _ h
    have hmark := not_mark_of_some h
    rw [List.flatMap_nil, List.nil_append, placeFrom_still (by decide) (by decide) (by decide)]
      at h hmark
    rw [quotedFrom_end hmark rfl] at h
    obtain ⟨rfl, rfl⟩ := Prod.mk.inj (Option.some.inj h)
    exact ⟨rfl, by simp, _, _, _, rfl⟩
  | cons p ps ih =>
    intro s i l k hps h
    obtain ⟨hp, hps⟩ := List.forall_mem_cons.1 hps
    rw [List.flatMap_cons, List.append_assoc] at h
    obtain ⟨halone, i', l', k', h⟩ := quotedFrom_piece hp h
    obtain ⟨hx, hall, hr⟩ := ih _ i' l' k' hps h
    exact ⟨hx, List.forall_mem_cons.2 ⟨halone, hall⟩, hr⟩

/-- **A JSON string that YAML can read is read folded.** -/
theorem quoted?_pieces (hps : ∀ p ∈ ps, p.Sound)
    (h : quoted? '"' (placeFrom i l k (ps.flatMap Piece.chars ++ '"' :: more)) = some (x, r)) :
    x = folded ps ∧ (∀ p ∈ ps, Alone p) ∧ ∃ i' l' k', r = placeFrom i' l' k' more :=
  quotedFrom_pieces ps ([], .none) i l k hps h

/-! ### Strings without line ends -/

/-- Blanks or line ends have been read. -/
def Gapped (cs : List Char) : Prop := ∃ c ∈ cs, (isGap c || isBreak c) = true

theorem gapped_addBreak (hc : isBreak c = true) (fold : Fold) : Gapped (fold.addBreak c).join := by
  have hgap : (isGap c || isBreak c) = true := by rw [hc, Bool.or_true]
  cases fold with
  | blanks bs =>
    by_cases hn : c = '\n'
    · subst hn
      exact ⟨' ', List.mem_cons_self, rfl⟩
    · exact ⟨c, by rw [Fold.addBreak, Fold.join_breaks hn]; simp, hgap⟩
  | breaks first bs =>
    refine ⟨c, ?_, hgap⟩
    rw [Fold.addBreak]
    cases first with
    | none => exact List.mem_cons_self
    | some d =>
      by_cases hn : d = '\n'
      · subst hn
        exact List.mem_cons_self
      · rw [Fold.join_breaks hn]
        simp

/-- Once there has been a gap it is seen in the end. -/
theorem gapped_foldPiece {s : List Char × Fold} (h : Gapped (s.2.join ++ s.1)) (p : Piece) :
    Gapped ((foldPiece s p).2.join ++ (foldPiece s p).1) := by
  have hkept : ∀ cs, (∀ c ∈ s.2.join ++ s.1, c ∈ cs) → Gapped cs := by
    obtain ⟨c, hc, hgap⟩ := h
    exact fun cs hsub => ⟨c, hsub c hc, hgap⟩
  have hbreak : ∀ c, isBreak c = true → Gapped ((s.2.addBreak c).join ++ s.1) := by
    intro c hc
    obtain ⟨d, hd, hgap⟩ := gapped_addBreak hc s.2
    exact ⟨d, List.mem_append_left _ hd, hgap⟩
  cases p with
  | plain c =>
    rw [foldPiece]
    split_ifs with hblank hline hseparator
    · obtain ⟨out, fold⟩ := s
      refine hkept _ fun d hd => ?_
      rcases List.mem_append.1 hd with hd | hd
      · cases fold with
        | blanks bs => exact List.mem_append_left _ (List.mem_cons_of_mem _ hd)
        | breaks first bs => exact List.mem_append_left _ hd
      · exact List.mem_append_right _ hd
    · exact hbreak '\n' rfl
    · exact hbreak c (isBreak_of_isSeparator hseparator)
    · exact hkept _ fun d hd => List.mem_cons_of_mem _ hd
  | escape e => exact hkept _ fun d hd => List.mem_cons_of_mem _ hd
  | code a b c d => exact hkept _ fun d hd => List.mem_cons_of_mem _ hd

theorem gapped_foldEnd (ps : List Piece) : ∀ s : List Char × Fold, Gapped (s.2.join ++ s.1) →
    Gapped (foldEnd (ps.foldl foldPiece s)) := by
  induction ps with
  | nil =>
    rintro s ⟨c, hc, hgap⟩
    exact ⟨c, List.mem_reverse.2 hc, hgap⟩
  | cons p ps ih => exact fun s h => ih _ (gapped_foldPiece h p)

theorem text?_code_of_valid {a b c d : Char} (hn : Piece.number? a b c d = some n)
    (hvalid : n.isValidChar) (ps : List Piece) :
    Piece.text? (.code a b c d :: ps) = (Piece.text? ps).map (Char.ofNat n :: ·) := by
  have hhigh : ¬ Piece.IsHigh n := by
    rw [Piece.IsHigh]
    rw [Nat.isValidChar] at hvalid
    omega
  have hlow : ¬ Piece.IsLow n := by
    rw [Piece.IsLow]
    rw [Nat.isValidChar] at hvalid
    omega
  rw [Piece.text?_code ps hn hhigh, if_neg hlow]

/-- Without a gap in the end nothing has been folded. -/
theorem text?_of_foldEnd (ps : List Piece) : ∀ out : List Char,
    (∀ p ∈ ps, p.Sound ∧ Alone p) → ¬ Gapped (foldEnd (ps.foldl foldPiece (out, .none))) →
    ∃ x, Piece.text? ps = some x ∧ foldEnd (ps.foldl foldPiece (out, .none)) = out.reverse ++ x := by
  induction ps with
  | nil => exact fun out _ _ => ⟨[], rfl, (List.append_nil _).symm⟩
  | cons p ps ih =>
    intro out hps hno
    obtain ⟨⟨hsound, halone⟩, hps⟩ := List.forall_mem_cons.1 hps
    -- a piece that stands for one character leaves no gap, so the induction goes on
    have hnext : ∀ c, foldPiece (out, .none) p = (c :: out, .none) →
        (∀ x, Piece.text? ps = some x → Piece.text? (p :: ps) = some (c :: x)) →
        ∃ x, Piece.text? (p :: ps) = some x ∧
          foldEnd ((p :: ps).foldl foldPiece (out, .none)) = out.reverse ++ x := by
      intro c hp htext
      rw [List.foldl_cons, hp] at hno ⊢
      obtain ⟨x, hx, hfold⟩ := ih (c :: out) hps hno
      exact ⟨c :: x, htext x hx, by rw [hfold]; simp⟩
    cases p with
    | plain c =>
      -- a gap would be seen in the end
      have hgapped : Gapped ((foldPiece (out, .none) (.plain c)).2.join ++
          (foldPiece (out, .none) (.plain c)).1) → False := fun h => hno (gapped_foldEnd ps _ h)
      by_cases hblank : c = ' '
      · subst hblank
        exact (hgapped ⟨' ', List.mem_cons_self, rfl⟩).elim
      by_cases hline : c = '\u0085'
      · subst hline
        exact (hgapped ⟨' ', List.mem_cons_self, rfl⟩).elim
      by_cases hseparator : isSeparator c = true
      · refine (hgapped ?_).elim
        rw [foldPiece, if_neg hblank, if_neg hline, if_pos hseparator]
        obtain ⟨d, hd, hgap⟩ := gapped_addBreak (isBreak_of_isSeparator hseparator) .none
        exact ⟨d, List.mem_append_left _ hd, hgap⟩
      · refine hnext c ?_ fun x hx => by rw [Piece.text?, hx]; rfl
        rw [foldPiece, if_neg hblank, if_neg hline, if_neg hseparator]
        rfl
    | escape e => exact hnext _ rfl fun x hx => by rw [Piece.text?, hx]; rfl
    | code a b c d =>
      obtain ⟨n, hn, hvalid⟩ := halone
      refine hnext (Char.ofNat n) (by rw [foldPiece, hn]; rfl) fun x hx => ?_
      rw [text?_code_of_valid hn hvalid, hx]
      rfl

/-- **Where no gap is read, YAML reads what JSON does.** -/
theorem text?_of_folded (hps : ∀ p ∈ ps, p.Sound ∧ Alone p) (hno : ¬ Gapped (folded ps)) :
    Piece.text? ps = some (folded ps) := by
  obtain ⟨x, hx, hfold⟩ := text?_of_foldEnd ps [] hps hno
  rw [folded, hfold, hx]
  rfl

end Scaffold.Yaml
