import Scaffold.Proofs.Yaml.Spelled

/-!
# Texts in which nothing is written

A text of spaces, line ends and comments has no tokens, so nothing is written in the document
(`Document.read_silent`). Other white space may begin a scalar or break a rule, but it never writes a mapping
(`Document.root_of_blank`).
-/

namespace Scaffold.Yaml

/-- Whether a text is nothing but spaces, line ends and comments, from within a comment or not. -/
def isSilent (comment : Bool) : List Char → Bool
  | [] => true
  | c :: r =>
    if c = '\n' ∨ c = '\r' ∨ c = '\u0085' ∨ isBreak c = true then isSilent false r
    else if comment then isSilent true r
    else if c = ' ' then isSilent false r
    else if c = '#' then isSilent true r
    else false

/-- **Nothing is written in a text**: it is nothing but spaces, line ends and comments, in characters that a
YAML text may hold. -/
structure Silent (cs : List Char) : Prop where
  silent : isSilent false cs = true
  printable : ∀ c ∈ cs, isPrintable c = true

namespace Scan

variable {s t : Scan} {here : Spot} {r : Rest} {cs : List Char} {i l k : Nat}

/-! ### Comments -/

theorem skipToToken_silent (i l k : Nat) (cs : List Char) : ∀ comment, isSilent comment cs = true →
    skipToToken false true comment (placeFrom i l k cs) = (true, []) := by
  -- along the places, in which a carriage return takes the line feed behind it
  fun_induction placeFrom i l k cs with
  | case1 => exact fun _ _ => rfl
  | case2 i l k r ih =>
    intro comment h
    have hline : isBreak '\n' = true := rfl
    rw [skipToToken, if_pos hline]
    refine ih false ?_
    simpa [isSilent] using h
  | case3 i l k c r hr hc ih =>
    intro comment h
    have hline : isBreak '\n' = true := rfl
    rw [skipToToken, if_pos hline]
    refine ih false ?_
    rw [isSilent, if_pos (by tauto)] at h
    exact h
  | case4 i l k c r hr hc hbreak ih =>
    intro comment h
    rw [skipToToken, if_pos hbreak]
    refine ih false ?_
    rw [isSilent, if_pos (by tauto)] at h
    exact h
  | case5 i l k c r hr hc hbreak ih =>
    intro comment h
    rw [isSilent, if_neg (by tauto)] at h
    rw [skipToToken, if_neg hbreak]
    cases comment with
    | true =>
      rw [if_pos rfl] at h ⊢
      exact ih true h
    | false =>
      rw [if_neg Bool.false_ne_true] at h ⊢
      split_ifs at h with hspace hmark
      · subst hspace
        have hmark : ' ' ≠ byteOrderMark := by decide
        rw [if_neg fun h => hmark h.1, if_pos (.inl rfl)]
        exact ih false h
      · subst hmark
        have hmark : '#' ≠ byteOrderMark := by decide
        have hgap : ¬ ('#' = ' ' ∨ '#' = '\t' ∧ (false = true ∨ (!true) = true)) := by decide
        rw [if_neg fun h => hmark h.1, if_neg hgap, if_pos rfl]
        exact ih true h

/-- Where only blanks and comments are left, the end of the stream comes next. -/
theorem run_of_skipped (h : Flows s) (houter : s.outer = [])
    (hskip : (skipToToken s.inFlow s.keyAllowed false s.rest).2 = []) (fuel : Nat) :
    s.run (fuel + 1) = s.tokens.reverse ++ [.streamEnd] := by
  have hrest : s.pastBlanks.rest = [] := hskip
  have houter' : s.pastBlanks.outer = [] := by rw [pastBlanks, fresh, houter]; rfl
  have hlast := next_of_end h.pastBlanks hrest
  have hnext : s.fresh.next = s.pastBlanks.fresh.next := by
    apply h.next_pastBlanks
    rw [hrest]
    rfl
  rw [Goes.of_next h (hnext.trans hlast) fuel, ← Goes.of_next h.pastBlanks hlast fuel,
    run_of_end h.pastBlanks houter' hrest fuel]
  rfl

/-! ### White space -/

/-- White space in its place, where carriage returns and next-line characters are line feeds. -/
def IsVoid (x : Spot) : Prop := Text.isBlank x.char = true ∧ x.char ∉ ['\r', '\u0085']

/-- White space that is no gap and ends no line. -/
def IsStrange (c : Char) : Prop := Text.isBlank c = true ∧ Solid c

theorem isVoid_placeFrom (i l k : Nat) (cs : List Char) (hcs : ∀ c ∈ cs, Text.isBlank c = true) :
    ∀ x ∈ placeFrom i l k cs, IsVoid x := by
  have hnewline : ∀ i l k, IsVoid ⟨'\n', i, l, k⟩ := fun i l k =>
    ⟨rfl, (by decide : '\n' ∉ ['\r', '\u0085'])⟩
  fun_induction placeFrom i l k cs with
  | case1 => exact fun x hx => nomatch hx
  | case2 i l k r ih =>
    have hr := fun c hc => hcs c (List.mem_cons_of_mem _ (List.mem_cons_of_mem _ hc))
    exact List.forall_mem_cons.2 ⟨hnewline i l k, ih hr⟩
  | case3 i l k c r hr hc ih =>
    have hr := fun c hc => hcs c (List.mem_cons_of_mem _ hc)
    exact List.forall_mem_cons.2 ⟨hnewline i l k, ih hr⟩
  | case4 i l k c r hr hc hbreak ih =>
    have hr := fun c hc => hcs c (List.mem_cons_of_mem _ hc)
    exact List.forall_mem_cons.2 ⟨⟨hcs c List.mem_cons_self, by simp_all⟩, ih hr⟩
  | case5 i l k c r hr hc hbreak ih =>
    have hr := fun c hc => hcs c (List.mem_cons_of_mem _ hc)
    exact List.forall_mem_cons.2 ⟨⟨hcs c List.mem_cons_self, by simp_all⟩, ih hr⟩

/-- No mark is white space. -/
theorem ne_of_isBlank {c d : Char} (hc : Text.isBlank c = true) (hd : Text.isBlank d = false) : c ≠ d := by
  rintro rfl
  rw [hc] at hd
  cases hd

/-- White space is skipped up to a tab or to something strange. -/
theorem skipToToken_void {r : Rest} (hr : ∀ x ∈ r, IsVoid x) :
    (skipToToken false true false r).2 = [] ∨ ∃ here r', skipToToken false true false r =
      (true, here :: r') ∧ (∀ x ∈ here :: r', IsVoid x) ∧ (here.char = '\t' ∨ IsStrange here.char) := by
  induction r with
  | nil => exact .inl rfl
  | cons x r ih =>
    obtain ⟨hx, hr'⟩ := List.forall_mem_cons.1 hr
    have hmark : x.char ≠ byteOrderMark := ne_of_isBlank hx.1 rfl
    have hcomment : x.char ≠ '#' := ne_of_isBlank hx.1 rfl
    rw [skipToToken]
    by_cases hbreak : isBreak x.char = true
    · rw [if_pos hbreak]
      exact ih hr'
    by_cases hspace : x.char = ' '
    · rw [if_neg hbreak, if_neg Bool.false_ne_true, if_neg fun h => hmark h.1, if_pos (.inl hspace)]
      exact ih hr'
    have hgap : ¬ (x.char = ' ' ∨ x.char = '\t' ∧ (false = true ∨ (!true) = true)) := by simp [hspace]
    rw [if_neg hbreak, if_neg Bool.false_ne_true, if_neg fun h => hmark h.1, if_neg hgap, if_neg hcomment]
    refine .inr ⟨x, r, rfl, hr, ?_⟩
    by_cases htab : x.char = '\t'
    · exact .inl htab
    · have hlines := hx.2
      simp only [isBreak, Bool.or_eq_true, beq_iff_eq, not_or] at hbreak
      simp only [List.mem_cons, List.not_mem_nil, or_false, not_or] at hlines
      refine .inr ⟨hx.1, ?_⟩
      simp only [Solid, List.mem_cons, List.not_mem_nil, or_false, not_or]
      exact ⟨hspace, htab, hbreak.1.1, hlines.1, hlines.2, hbreak.1.2, hbreak.2, hcomment, hmark⟩

/-- A plain scalar takes all the white space that follows. -/
theorem plainFrom_void {r : Rest} (hr : ∀ x ∈ r, IsVoid x) : ∀ out fold,
    ∃ p, plainFrom false 0 out fold r = some p ∧ p.rest = [] := by
  induction r with
  | nil => exact fun out fold => ⟨_, rfl, rfl⟩
  | cons x r ih =>
    intro out fold
    obtain ⟨hx, hr⟩ := List.forall_mem_cons.1 hr
    have hmark : Rest.atDocumentMark (x :: r) = false := by
      rw [Rest.atDocumentMark, startsWithMark_of_ne (ne_of_isBlank hx.1 rfl),
        startsWithMark_of_ne (ne_of_isBlank hx.1 rfl), Bool.or_self]
    have hcomment : x.char ≠ '#' := ne_of_isBlank hx.1 rfl
    have hcolon : x.char ≠ ':' := ne_of_isBlank hx.1 rfl
    rw [plainFrom]
    by_cases hgap : isGap x.char = true
    · simp only [hgap, if_true, Nat.not_lt_zero, decide_false, Bool.and_false, Bool.false_and,
        Bool.false_eq_true, if_false]
      exact ih hr _ _
    by_cases hbreak : isBreak x.char = true
    · simp only [hgap, hbreak, if_true, Bool.false_eq_true, if_false]
      exact ih hr _ _
    simp only [hgap, hbreak, hmark, Nat.not_lt_zero, decide_false, Bool.and_false,
      Bool.false_and, Bool.false_eq_true, if_false, beq_eq_false_iff_ne.2 hcomment,
      beq_eq_false_iff_ne.2 hcolon]
    exact ih hr _ _

/-- Something strange begins a plain scalar. -/
theorem next_strange (h : Flows s) (hin : s.inFlow = false) (hrest : s.rest = here :: r)
    (hc : IsStrange here.char) : s.fresh.next = s.fresh.plain here r := by
  have hrest' : s.fresh.rest = here :: r := hrest
  have hin' : s.fresh.inFlow = false := (inFlow_of_length (by simp [fresh])).trans hin
  have hsame : { s.fresh with rest := here :: r, keyAllowed := s.fresh.keyAllowed } = s.fresh := by
    rw [← hrest']
  have hmark : ∀ m, Text.isBlank m = false → Rest.startsWithMark m (here :: r) = false := fun m hm =>
    startsWithMark_of_ne (ne_of_isBlank hc.1 hm) r
  have hother : here.char ∉ ['%', '[', ']', '\x7b', '\x7d', ',', '-', '?', ':', '*', '&', '!', '|', '>',
      '\'', '"'] := fun hmem =>
    have hmarks : ∀ d ∈ ['%', '[', ']', '\x7b', '\x7d', ',', '-', '?', ':', '*', '&', '!', '|', '>', '\'',
      '"'], Text.isBlank d = false := List.all_iff_forall_prop.1 (by decide)
    ne_of_isBlank hc.1 (hmarks _ hmem) rfl
  have hstarts : startsPlain s.fresh.inFlow here.char r = true := by
    have hindicators : ∀ d ∈ "-?:,[]\x7b\x7d#&*!|>'\"%@`".toList, Text.isBlank d = false :=
      List.all_iff_forall_prop.1 (by decide)
    have hindicator : isIndicator here.char = false := by
      rw [isIndicator, List.contains_eq_mem, decide_eq_false_iff_not]
      exact fun hmem => ne_of_isBlank hc.1 (hindicators _ hmem) rfl
    have hsolid := hc.2
    simp only [Solid, List.mem_cons, List.not_mem_nil, or_false, not_or] at hsolid
    simp [startsPlain, isGap, isBreak, hsolid, hindicator]
  rw [next, hrest', skipToToken_solid hc.2]
  simp only [hsame, h.fresh.dropStale, fresh_fresh, Option.bind_eq_bind, Option.bind_some,
    h.fresh.unroll, hmark '-' rfl, hmark '.' rfl, hstarts]
  simp only [List.mem_cons, List.not_mem_nil, or_false, not_or] at hother
  simp [hother]

/-- Where something strange begins a plain scalar, the scalar takes all that follows. -/
theorem plain_strange (h : Clear s) (houter : s.outer = []) (hr : ∀ x ∈ here :: r, IsVoid x)
    (hnext : s.fresh.plain here r = some t) : Clear t ∧ t.outer = [] ∧ t.rest = [] ∧
      ∃ x, t.tokens = .scalar .plain x :: s.tokens := by
  obtain ⟨p, hread, hrest⟩ := plainFrom_void hr [] .none
  obtain ⟨key, hfree, hadd, -⟩ := addCandidate_of_flows h.toFlows.fresh here
  have hnone : s.fresh.outer = [] := by rw [fresh, houter]; rfl
  have hplain : plain? { s.fresh with candidate := key }.inFlow
      ((s.fresh.indents.head?.map (· + 1)).getD 0) (here :: r) = some p := by
    have hin : { s.fresh with candidate := key }.inFlow = false := by rw [inFlow, hnone]; rfl
    have hindents : s.fresh.indents = [] := h.indents
    rw [hin, hindents]
    exact hread
  rw [plain, hadd] at hnext
  simp only [Option.bind_eq_bind, Option.bind_some, hplain] at hnext
  obtain rfl := Option.some.inj hnext
  exact ⟨h.grows (by simp) rfl rfl hfree rfl, hnone, hrest, String.ofList p.text, rfl⟩

/-- **White space is at most one plain scalar.** -/
theorem tokens_of_blank (hcs : ∀ c ∈ cs, Text.isBlank c = true)
    (hmem : .streamEnd ∈ Yaml.tokens (placeFrom 0 0 0 cs)) :
    Yaml.tokens (placeFrom 0 0 0 cs) = [.streamEnd] ∨
      ∃ x, Yaml.tokens (placeFrom 0 0 0 cs) = [.scalar .plain x, .streamEnd] := by
  have hvoid := isVoid_placeFrom 0 0 0 cs hcs
  generalize placeFrom 0 0 0 cs = r at hvoid hmem ⊢
  have hclear := clear_start r
  rcases skipToToken_void hvoid with hskip | ⟨here, r', hskip, hvoid', hhere⟩
  · exact .inl (run_of_skipped hclear.toFlows rfl hskip _)
  right
  -- the first token is that of the scan behind the white space that is skipped
  obtain ⟨s, hs⟩ : ∃ s, s = (start r).pastBlanks := ⟨_, rfl⟩
  have hpast : Clear s := hs ▸ ⟨hclear.toFlows.pastBlanks, hclear.unended⟩
  have hrest : s.rest = here :: r' := hs ▸ congrArg Prod.snd hskip
  have hallowed : s.keyAllowed = true := hs ▸ congrArg Prod.fst hskip
  have houter : s.outer = [] := hs ▸ rfl
  have hin : s.inFlow = false := by rw [inFlow, houter]; rfl
  have htokens : s.tokens = [] := hs ▸ rfl
  have hstops : skipToToken false true false (here :: r') = (true, here :: r') := by
    rcases hhere with htab | hstrange
    · rw [skipToToken]
      simp [htab, isBreak, byteOrderMark]
    · exact skipToToken_solid hstrange.2 false true
  have hsame : (start r).fresh.next = s.fresh.next := by
    rw [hs]
    apply hclear.toFlows.next_pastBlanks
    rw [← hs, hallowed, hrest]
    exact hstops
  have hends : (start r).Ends fun ts => ∃ x, ts = [.scalar .plain x, .streamEnd] := by
    refine hclear.leads (P := fun t => t.Ends fun ts => ∃ x, ts = [.scalar .plain x, .streamEnd])
      (fun t hnext => ?_) _ fun t ht => ht
    rw [hsame] at hnext
    rcases hhere with htab | hstrange
    · rw [next_tab hpast.toFlows hin hallowed hrest htab] at hnext
      cases hnext
    · rw [next_strange hpast.toFlows hin hrest hstrange] at hnext
      obtain ⟨ht, htouter, htrest, x, htx⟩ := plain_strange hpast houter hvoid' hnext
      have hstands : t.Stands [] := stands_of_rest (i := 0) (l := 0) (k := 0) htrest
      refine ht.ends htouter hstands ⟨x, ?_⟩
      rw [htx, htokens]
      rfl
  exact hends _ hmem

end Scan

namespace Document

variable {text : String}

/-- **A text of spaces, line ends and comments** is a document in which nothing is written. -/
theorem read_silent (h : Silent text.toList) : read text = ⟨none, [], 1, true⟩ := by
  have hsilent := h.silent
  have hmark : ∀ c ∈ text.toList.head?, c ≠ byteOrderMark := by
    rintro c hc rfl
    obtain ⟨cs, hcs⟩ := List.head?_eq_some_iff.1 hc
    rw [hcs] at hsilent
    simp [isSilent, isBreak, byteOrderMark] at hsilent
  have hskip := Scan.skipToToken_silent 0 0 0 text.toList false hsilent
  have htokens : tokens (placeFrom 0 0 0 text.toList) = [.streamEnd] :=
    Scan.run_of_skipped (Scan.clear_start _).toFlows rfl (congrArg Prod.snd hskip) _
  rw [read_eq hmark, if_pos (List.all_eq_true.2 h.printable), htokens]
  rfl

/-- A text in which nothing is written is no JSON text. -/
theorem not_isTextOf_of_silent {w : Json.Written} {cs : List Char} (h : Silent cs) : ¬ w.IsTextOf cs := by
  intro hw
  obtain ⟨b, c, r, hb, rfl, hc, -⟩ := exists_of_isTextOf hw
  have hsilent := h.silent
  simp only [Scan.Solid, List.mem_cons, List.not_mem_nil, or_false, not_or] at hc
  clear h hw
  -- a tab among the blanks, or else the first solid character, is no silence
  induction b with
  | nil => simp [isSilent, isBreak, hc] at hsilent
  | cons d b ih =>
    obtain ⟨hd, hb⟩ := List.forall_mem_cons.1 hb
    refine ih hb ?_
    rw [List.cons_append, isSilent] at hsilent
    simp only [Bool.false_eq_true, if_false] at hsilent
    split_ifs at hsilent with hline hspace hcomment
    · exact hsilent
    · exact hsilent
    · rw [hcomment] at hd
      exact absurd hd (by decide)

/-- **White space writes no mapping.** -/
theorem root_of_blank (h : ∀ c ∈ text.toList, Text.isBlank c = true) (hwhole : (read text).whole = true)
    (mk : Mark) (pairs : List (Draft × Draft)) (closed : Bool) :
    (read text).root ≠ some (.mapping mk pairs closed) := by
  have hmark : ∀ c ∈ text.toList.head?, c ≠ byteOrderMark := fun c hc =>
    Scan.ne_of_isBlank (h c (List.mem_of_mem_head? hc)) rfl
  rw [read_eq hmark] at hwhole ⊢
  split_ifs at hwhole ⊢
  · rcases Scan.tokens_of_blank h (streamEnd_mem_of_whole hwhole) with htokens | ⟨x, htokens⟩
    · rw [htokens]
      exact (nomatch ·)
    · rw [htokens, ofTokens_of_begins (by constructor)]
      exact (nomatch ·)
  · cases hwhole

end Document

end Scaffold.Yaml
