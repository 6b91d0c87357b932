import Mathlib.Data.Bool.AllAny
import Mathlib.Tactic.IntervalCases
import Scaffold.Proofs.Yaml.Leads

/-!
# Words of JSON as YAML scalars

A number of JSON, and each of its three words, is a plain scalar of YAML. Such a scalar reaches up to
the next mark, and what stands between is dropped (`Clear.leads_word`).
-/

namespace Scaffold.Yaml.Scan

open Json (Blank)

variable {s : Scan} {b cs out x : List Char} {c : Char} {flow : Bool} {i l k : Nat}

/-- The characters of words. -/
def wordChars : List Char := "0123456789.eE+-nultrafs".toList

/-- They are read as they are. -/
theorem wordChars_solid : ∀ c ∈ wordChars, Solid c ∧ isGap c = false ∧ isBreak c = false ∧
    c ≠ ':' ∧ c ≠ '#' ∧ isFlowMark c = false := List.all_iff_forall_prop.1 (by decide)

/-- A digit, a minus in front of one, or a letter. -/
def BeginsWord (c : Char) (r : List Char) : Prop :=
  c ∈ "0123456789ntf".toList ∨ c = '-' ∧ ∃ d ∈ r.head?, d ∈ "0123456789".toList

theorem mem_digits (h : c.isDigit = true) : c ∈ "0123456789".toList := by
  have hc : Char.ofNat c.toNat = c := Char.ofNat_toNat c
  rw [Char.isDigit] at h
  simp only [Bool.and_eq_true, decide_eq_true_eq, ge_iff_le] at h
  have hlow : 48 ≤ c.toNat := h.1
  have hhigh : c.toNat ≤ 57 := h.2
  generalize c.toNat = n at hc hlow hhigh
  rw [← hc]
  interval_cases n <;> decide

theorem mem_wordChars (h : Json.isNumeric c = true) : c ∈ wordChars := by
  rw [Json.isNumeric, Bool.or_eq_true] at h
  rcases h with h | h
  · have hsub : ∀ d ∈ "0123456789".toList, d ∈ wordChars :=
      List.all_iff_forall_prop.1 (by decide)
    exact hsub c (mem_digits h)
  · have hsub : ∀ d ∈ ".eE+-".toList, d ∈ wordChars := List.all_iff_forall_prop.1 (by decide)
    exact hsub c (by simpa using h)

theorem word_eq_cons {x : List Char} (h : Json.IsWord x) : (∀ c ∈ x, c ∈ wordChars) ∧
    ∃ c r, x = c :: r ∧ BeginsWord c r := by
  have hdigit : ∀ d : Char, d.isDigit = true → d ∈ "0123456789ntf".toList := by
    have hsub : ∀ d ∈ "0123456789".toList, d ∈ "0123456789ntf".toList :=
      List.all_iff_forall_prop.1 (by decide)
    exact fun d hd => hsub d (mem_digits hd)
  rcases h with h | ⟨n, h⟩ | ⟨y, n, rfl, h⟩
  · have hall : ∀ x ∈ ["null".toList, "true".toList, "false".toList],
        x.all (wordChars.contains ·) = true ∧ x.head?.any ("0123456789ntf".toList.contains ·) = true := by
      decide
    obtain ⟨hall, hhead⟩ := hall x h
    have hchars : ∀ c ∈ x, c ∈ wordChars := by simpa using hall
    cases x with
    | nil => cases hhead
    | cons c r => exact ⟨hchars, c, r, rfl, .inl (by simpa using hhead)⟩
  · obtain ⟨x', rfl, -, hnumeric, c, hc, hdig⟩ := Json.exists_numeral h
    cases x' with
    | nil => cases hc
    | cons c' r =>
      cases hc
      refine ⟨fun d hd => mem_wordChars (hnumeric d (by simpa using hd)), c, r ++ [], rfl,
        .inl (hdigit c hdig)⟩
  · obtain ⟨y', rfl, -, hnumeric, d, hd, hdig⟩ := Json.exists_numeral h
    refine ⟨?_, '-', _, rfl, .inr ⟨rfl, d, by simpa using hd, mem_digits hdig⟩⟩
    intro e he
    rcases List.mem_cons.1 he with rfl | he
    · decide
    · exact mem_wordChars (hnumeric e (by simpa using he))

/-! ### Reading -/

/-- A mark of a document stands at the beginning of a line. -/
theorem atDocumentMark_of_column {here : Spot} (h : here.column ≠ 0) (r : Rest) :
    Rest.atDocumentMark (here :: r) = false := by
  have hno : ∀ m, Rest.startsWithMark m (here :: r) = false := by
    refine fun m => Bool.eq_false_iff.2 fun hmark => ?_
    obtain ⟨a, b, c, t, heq, hcolumn, -⟩ := startsWithMark_eq_true_iff.1 hmark
    exact h ((List.cons.inj heq).1 ▸ hcolumn)
  rw [Rest.atDocumentMark, hno, hno, Bool.or_self]

/-- One more character of a plain scalar. -/
theorem plainFrom_cons (flow : Bool) (out : List Char) (hc : c ∈ wordChars)
    (hmark : Rest.atDocumentMark (placeFrom i l k (c :: cs)) = false) :
    plainFrom flow 0 out .none (placeFrom i l k (c :: cs)) =
      plainFrom flow 0 (c :: out) .none (placeFrom (i + 1) l (k + 1) cs) := by
  obtain ⟨hsolid, hgap, hbreak, hcolon, hhash, hflow⟩ := wordChars_solid c hc
  rw [placeFrom_solid hsolid] at hmark ⊢
  rw [plainFrom]
  simp [hgap, hbreak, hmark, hcolon, hhash, hflow, Fold.hasBreaks, Fold.join, Fold.none]

theorem plainFrom_wordChars (flow : Bool) (cs x : List Char) : ∀ (out : List Char) (i l k : Nat), k ≠ 0 →
    (∀ c ∈ x, c ∈ wordChars) → ∃ i' k', k' ≠ 0 ∧
      plainFrom flow 0 out .none (placeFrom i l k (x ++ cs)) =
        plainFrom flow 0 (x.reverse ++ out) .none (placeFrom i' l k' cs) := by
  induction x with
  | nil => exact fun out i l k hk _ => ⟨i, k, hk, rfl⟩
  | cons c x ih =>
    intro out i l k hk hall
    obtain ⟨hc, hx⟩ := List.forall_mem_cons.1 hall
    have hsolid := (wordChars_solid c hc).1
    have hmark : Rest.atDocumentMark (placeFrom i l k (c :: (x ++ cs))) = false := by
      rw [placeFrom_solid hsolid]
      exact atDocumentMark_of_column hk _
    obtain ⟨i', k', hk', hread⟩ := ih (c :: out) (i + 1) l (k + 1) (Nat.succ_ne_zero k) hx
    refine ⟨i', k', hk', ?_⟩
    rw [List.cons_append, plainFrom_cons flow out hc hmark, hread]
    simp

/-- Blanks after a plain scalar wait in its gap. -/
theorem plainFrom_blank (flow : Bool) (out : List Char) (hcs : Starts cs) : ∀ (b : List Char) (fold : Fold) (i l k : Nat), Blank b →
    ∃ fold' i' l' k', plainFrom flow 0 out fold (placeFrom i l k (b ++ cs)) =
      plainFrom flow 0 out fold' (placeFrom i' l' k' cs) := by
  intro b
  induction hn : b.length using Nat.strong_induction_on generalizing b with
  | _ n ih =>
    intro fold i l k hb
    cases b with
    | nil => exact ⟨fold, i, l, k, rfl⟩
    | cons c b =>
      obtain ⟨hc, hb⟩ := List.forall_mem_cons.1 hb
      simp only [Draft.isSpace, Bool.or_eq_true, beq_iff_eq] at hc
      by_cases hnewline : c = '\n' ∨ c = '\r'
      · obtain ⟨b', i', hplace, hb', hlength⟩ :=
          exists_placeFrom_newline (i := i) (l := l) (k := k) hnewline hb hcs
        rw [List.cons_append, hplace, plainFrom]
        simp only [isGap, isBreak, beq_self_eq_true, Bool.true_or, if_true]
        exact ih b'.length (by rw [← hn]; exact Nat.lt_succ_of_le hlength) b' rfl _ i' (l + 1) 0 hb'
      · have hgap : c = ' ' ∨ c = '\t' := by tauto
        have hstill : placeFrom i l k (c :: (b ++ cs)) =
            ⟨c, i, l, k⟩ :: placeFrom (i + 1) l (k + 1) (b ++ cs) := by
          rcases hgap with rfl | rfl <;> exact placeFrom_still (by decide) (by decide) (by decide)
        have hisGap : isGap c = true := by rcases hgap with rfl | rfl <;> decide
        rw [List.cons_append, hstill, plainFrom]
        simp only [hisGap, if_true, Nat.not_lt_zero, decide_false, Bool.and_false, Bool.false_and,
          Bool.false_eq_true, if_false]
        exact ih b.length (by rw [← hn]; exact Nat.lt_succ_self _) b rfl _ (i + 1) l (k + 1) hb

/-- What may follow a word: the end of the text, or a mark between brackets. -/
def Follows (flow : Bool) (cs : List Char) : Prop :=
  Draft.skip cs = [] ∨ flow = true ∧ ∃ c ∈ (Draft.skip cs).head?, c = ',' ∨ c = ']' ∨ c = '\x7d'

theorem Follows.starts (h : Follows flow cs) : Starts (Draft.skip cs) := by
  rcases h with h | ⟨-, c, hc, hmark⟩
  · rw [h]
    exact fun c hc => by cases hc
  · intro d hd
    obtain rfl := Option.some.inj (hc.symm.trans hd)
    rcases hmark with rfl | rfl | rfl <;> decide

/-- A plain scalar ends in front of such a mark. -/
theorem plainFrom_follows (h : Follows flow cs) (fold : Fold) :
    plainFrom flow 0 out fold (placeFrom i l k (Draft.skip cs)) =
      some ⟨out.reverse, fold, placeFrom i l k (Draft.skip cs)⟩ := by
  rcases h with h | ⟨rfl, c, hc, hmark⟩
  · rw [h]
    rfl
  · obtain ⟨r, hr⟩ : ∃ r, Draft.skip cs = c :: r := by
      obtain ⟨r, hr⟩ := List.head?_eq_some_iff.1 hc
      exact ⟨r, hr⟩
    have hsolid : Solid c := by rcases hmark with rfl | rfl | rfl <;> decide
    have hdocument : Rest.atDocumentMark
        (⟨c, i, l, k⟩ :: placeFrom (i + 1) l (k + 1) r) = false := by
      have hne : c ≠ '-' ∧ c ≠ '.' := by rcases hmark with rfl | rfl | rfl <;> decide
      rw [Rest.atDocumentMark, startsWithMark_of_ne hne.1, startsWithMark_of_ne hne.2, Bool.or_self]
    rw [hr, placeFrom_solid hsolid, plainFrom]
    have hchar : isGap c = false ∧ isBreak c = false ∧ isFlowMark c = true ∧ c ≠ ':' ∧ c ≠ '#' := by
      rcases hmark with rfl | rfl | rfl <;> decide
    simp [hdocument, hchar]

/-- No word looks like the mark of a document. -/
theorem atDocumentMark_word {r : List Char} (h : BeginsWord c r) (hr : ∀ d ∈ r, d ∈ wordChars)
    (hc : c ∈ wordChars) (i l k : Nat) (cs : List Char) :
    Rest.atDocumentMark (placeFrom i l k (c :: (r ++ cs))) = false := by
  rw [placeFrom_solid (wordChars_solid c hc).1]
  rcases h with h | ⟨rfl, d, hd, hdigit⟩
  · have hne : ∀ e ∈ "0123456789ntf".toList, e ≠ '-' ∧ e ≠ '.' :=
      List.all_iff_forall_prop.1 (by decide)
    rw [Rest.atDocumentMark, startsWithMark_of_ne (hne c h).1, startsWithMark_of_ne (hne c h).2,
      Bool.or_self]
  · obtain ⟨r, rfl⟩ := List.head?_eq_some_iff.1 hd
    have hne : ∀ e ∈ "0123456789".toList, e ≠ '-' := List.all_iff_forall_prop.1 (by decide)
    have hpoint : '-' ≠ '.' := by decide
    have hdash : Rest.startsWithMark '-' (⟨'-', i, l, k⟩ :: placeFrom (i + 1) l (k + 1) (d :: r ++ cs))
        = false := by
      rw [List.cons_append, placeFrom_solid (wordChars_solid d (hr d List.mem_cons_self)).1]
      refine Bool.eq_false_iff.2 fun hmark => ?_
      -- a digit comes second
      obtain ⟨a, b, c, t, heq, -, -, hb, -⟩ := startsWithMark_eq_true_iff.1 hmark
      obtain ⟨rfl, -⟩ := List.cons.inj (List.cons.inj heq).2
      exact hne d hdigit hb
    rw [Rest.atDocumentMark, hdash, startsWithMark_of_ne hpoint, Bool.or_self]

/-- **A word is read as it is**, and so are no blanks after it. -/
theorem plain?_word (hx : Json.IsWord x) (h : Follows flow cs) : ∃ fold i' l' k',
    plain? flow 0 (placeFrom i l k (x ++ cs)) =
      some ⟨x, fold, placeFrom i' l' k' (Draft.skip cs)⟩ := by
  obtain ⟨hchars, c, r, rfl, hbegins⟩ := word_eq_cons hx
  obtain ⟨hc, hr⟩ := List.forall_mem_cons.1 hchars
  have hfirst := plainFrom_cons flow [] hc (atDocumentMark_word hbegins hr hc i l k cs)
  obtain ⟨i₁, k₁, -, hrest⟩ := plainFrom_wordChars flow cs r [c] (i + 1) l (k + 1)
    (Nat.succ_ne_zero k) hr
  have hblank : Blank (cs.takeWhile Draft.isSpace) := fun d hd => List.mem_takeWhile_imp hd
  obtain ⟨fold, i₂, l₂, k₂, hskip⟩ := plainFrom_blank flow (r.reverse ++ [c]) h.starts
    (cs.takeWhile Draft.isSpace) .none i₁ l k₁ hblank
  have hcs : cs.takeWhile Draft.isSpace ++ Draft.skip cs = cs := List.takeWhile_append_dropWhile
  rw [hcs, plainFrom_follows h] at hskip
  refine ⟨fold, i₂, l₂, k₂, ?_⟩
  rw [plain?, List.cons_append, hfirst, hrest, hskip]
  simp

/-- A word begins a plain scalar. -/
theorem next_word {r : List Char} (h : Flows s) (hbegins : BeginsWord c r)
    (hr : ∀ d ∈ r, d ∈ wordChars) (hc : c ∈ wordChars)
    (hrest : s.rest = placeFrom i l k (c :: (r ++ cs))) :
    s.fresh.next = s.fresh.plain ⟨c, i, l, k⟩ (placeFrom (i + 1) l (k + 1) (r ++ cs)) := by
  have hsolid := (wordChars_solid c hc).1
  have hmark := atDocumentMark_word hbegins hr hc i l k cs
  rw [placeFrom_solid hsolid] at hrest hmark
  simp only [Rest.atDocumentMark, Bool.or_eq_false_iff] at hmark
  have hplaced : s.fresh.rest = ⟨c, i, l, k⟩ :: placeFrom (i + 1) l (k + 1) (r ++ cs) := hrest
  have hsame : { s.fresh with
      rest := ⟨c, i, l, k⟩ :: placeFrom (i + 1) l (k + 1) (r ++ cs)
      keyAllowed := s.fresh.keyAllowed } = s.fresh := by rw [← hplaced]
  have hfacts : ∀ d ∈ wordChars, d ∉ ['%', '[', ']', '\x7b', '\x7d', ',', '?', ':', '*', '&', '!',
      '|', '>', '\'', '"'] := List.all_iff_forall_prop.1 (by decide)
  have hother := hfacts c hc
  have hstarts : startsPlain s.fresh.inFlow c (placeFrom (i + 1) l (k + 1) (r ++ cs)) = true ∧
      ¬ (c = '-' ∧ Rest.endsWord (placeFrom (i + 1) l (k + 1) (r ++ cs)) = true) := by
    rcases hbegins with hfirst | ⟨rfl, d, hd, hdigit⟩
    · have hall : ∀ e ∈ "0123456789ntf".toList,
          (isGap e || isBreak e || isIndicator e) = false ∧ e ≠ '-' := List.all_iff_forall_prop.1 (by decide)
      exact ⟨by simp [startsPlain, hall c hfirst], fun h => (hall c hfirst).2 h.1⟩
    · obtain ⟨r, rfl⟩ := List.head?_eq_some_iff.1 hd
      obtain ⟨hdsolid, hdgap, hdbreak, -⟩ := wordChars_solid d (hr d List.mem_cons_self)
      rw [List.cons_append, placeFrom_solid hdsolid]
      exact ⟨by simp [startsPlain, Rest.front?, hdgap], by simp [Rest.endsWord, hdgap, hdbreak]⟩
  rw [next, hplaced, skipToToken_solid hsolid]
  simp only [hsame, h.fresh.dropStale, fresh_fresh, Option.bind_eq_bind, Option.bind_some,
    h.fresh.unroll, hmark, hstarts]
  simp only [List.mem_cons, List.not_mem_nil, or_false, not_or] at hother
  simp [hother]

/-- **A word**, with what may stand after it. -/
theorem Clear.leads_word (h : Clear s) (hx : Json.IsWord x) (hs : s.Stands (x ++ cs))
    (hfollows : Follows s.inFlow cs) :
    s.Leads fun t => Gains s t [.scalar .plain (String.ofList x)] cs := by
  obtain ⟨hchars, c, r, rfl, hbegins⟩ := word_eq_cons hx
  obtain ⟨hc, hr⟩ := List.forall_mem_cons.1 hchars
  refine h.settle hs (starts_cons (wordChars_solid c hc).1 _) fun t ht u hnext => ?_
  obtain ⟨i, l, k, hrest⟩ := ht.rest
  have hin : t.fresh.inFlow = s.inFlow :=
    inFlow_of_length (by rw [← ht.outer]; simp [fresh])
  obtain ⟨fold, i', l', k', hread⟩ := plain?_word (i := i) (l := l) (k := k) hx hfollows
  obtain ⟨key, hfree, hadd, -⟩ := addCandidate_of_flows ht.clear.toFlows.fresh ⟨c, i, l, k⟩
  have hplaced : placeFrom i l k (c :: (r ++ cs)) =
      ⟨c, i, l, k⟩ :: placeFrom (i + 1) l (k + 1) (r ++ cs) := placeFrom_solid (wordChars_solid c hc).1
  rw [List.cons_append, hplaced] at hread
  have hindents : t.fresh.indents = [] := ht.clear.indents
  rw [next_word ht.clear.toFlows hbegins hr hc hrest, plain, hadd] at hnext
  -- the candidate does not bear on how a scalar is read
  have hplain : plain? { t.fresh with candidate := key }.inFlow
      ((t.fresh.indents.head?.map (· + 1)).getD 0)
      (⟨c, i, l, k⟩ :: placeFrom (i + 1) l (k + 1) (r ++ cs)) =
        some ⟨c :: r, fold, placeFrom i' l' k' (Draft.skip cs)⟩ := by
    have hin' : { t.fresh with candidate := key }.inFlow = s.inFlow := hin
    rw [hin', hindents]
    exact hread
  simp only [Option.bind_eq_bind, Option.bind_some, hplain] at hnext
  obtain rfl := Option.some.inj hnext
  exact ht.gains (by simp) rfl rfl hfree rfl ⟨[], i', l', k', by simp [Blank], rfl⟩

end Scaffold.Yaml.Scan
