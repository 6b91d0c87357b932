import Scaffold.Proofs.Json.Spelling
import Scaffold.Proofs.Yaml.Folded
import Scaffold.Proofs.Yaml.Scan

/-!
# Scans that come to the end of a text

A text need not be one that YAML can read. `Leads` says where a scan comes to if it comes to the end of
the stream at all: a step that fails leads wherever one likes. So each step is described by what it does
if it does not fail, here with blanks in front of what it takes.
-/

namespace Scaffold.Yaml.Scan

open Json (Blank)

variable {s t : Scan} {P R : Scan → Prop} {b cs more : List Char} {c : Char} {i l k : Nat}

/-- The tokens of the scan, if they come to the end of the stream. -/
def Ends (s : Scan) (Q : List Token → Prop) : Prop :=
  ∀ fuel, .streamEnd ∈ s.run fuel → Q (s.run fuel)

/-- **If the scan comes to the end of the stream, it does so by way of a scan with `P`.** -/
def Leads (s : Scan) (P : Scan → Prop) : Prop := ∀ Q, (∀ t, P t → t.Ends Q) → s.Ends Q

theorem Leads.here (h : P s) : s.Leads P := fun _ hQ => hQ s h

theorem Leads.bind (h : s.Leads P) (hP : ∀ t, P t → t.Leads R) : s.Leads R :=
  fun Q hQ => h Q fun t ht => hP t ht Q hQ

theorem Leads.mono (h : s.Leads P) (hP : ∀ t, P t → R t) : s.Leads R :=
  h.bind fun t ht => .here (hP t ht)

/-- A scan in no block that has not come to the end of the stream. -/
structure Clear (s : Scan) : Prop extends Flows s where
  unended : .streamEnd ∉ s.tokens

theorem mem_of_mem_certain {tok : Token} (h : tok ∈ s.certain) : tok ∈ s.tokens :=
  List.mem_of_mem_drop (List.mem_reverse.1 h)

/-- A scan goes on only by its next step. -/
theorem Clear.leads (h : Clear s) (hP : ∀ t, s.fresh.next = some t → P t) : s.Leads P := by
  intro Q hQ fuel hmem
  have hcertain : .streamEnd ∉ s.fresh.certain := fun hmem =>
    have htokens : .streamEnd ∈ s.fresh.tokens := mem_of_mem_certain hmem
    h.unended htokens
  have hhead : ¬ s.fresh.tokens.head? = some .streamEnd := h.unfinished
  unfold run at hmem ⊢
  rw [h.dropStale] at hmem ⊢
  simp only at hmem ⊢
  rw [if_neg hhead] at hmem ⊢
  cases fuel with
  | zero => exact absurd hmem hcertain
  | succ fuel =>
    cases hnext : s.fresh.next with
    | none =>
      rw [hnext] at hmem
      exact absurd hmem hcertain
    | some t =>
      rw [hnext] at hmem
      exact hQ t (hP t hnext) fuel hmem

/-! ### Blanks -/

/-- Characters that are no blank, end no line and begin no comment. -/
def Solid (c : Char) : Prop :=
  c ∉ [' ', '\t', '\n', '\r', '\u0085', '\u2028', '\u2029', '#', byteOrderMark]

instance (c : Char) : Decidable (Solid c) := inferInstanceAs (Decidable (¬ _))

theorem placeFrom_solid (hc : Solid c) :
    placeFrom i l k (c :: cs) = ⟨c, i, l, k⟩ :: placeFrom (i + 1) l (k + 1) cs := by
  simp only [Solid, List.mem_cons, List.not_mem_nil, or_false, not_or] at hc
  refine placeFrom_still hc.2.2.2.1 hc.2.2.2.2.1 ?_
  simp [isBreak, hc]

theorem skipToToken_solid {here : Spot} {r : Rest} (hc : Solid here.char) (flow allowed : Bool) :
    skipToToken flow allowed false (here :: r) = (allowed, here :: r) := by
  simp only [Solid, List.mem_cons, List.not_mem_nil, or_false, not_or] at hc
  rw [skipToToken]
  simp [isBreak, hc]

/-- The text goes on with a solid character, or is over. -/
def Starts (cs : List Char) : Prop := ∀ c ∈ cs.head?, Solid c

theorem skipToToken_starts (h : Starts cs) (flow allowed : Bool) :
    skipToToken flow allowed false (placeFrom i l k cs) = (allowed, placeFrom i l k cs) := by
  cases cs with
  | nil => rfl
  | cons c cs =>
    have hc := h c rfl
    rw [placeFrom_solid hc]
    exact skipToToken_solid hc flow allowed

/-- A line feed or a carriage return, or both together, is one line end. -/
theorem exists_placeFrom_newline (hc : c = '\n' ∨ c = '\r') (hb : Blank b) (hcs : Starts cs) :
    ∃ b' i', placeFrom i l k (c :: (b ++ cs)) = ⟨'\n', i, l, k⟩ :: placeFrom i' (l + 1) 0 (b' ++ cs) ∧
      Blank b' ∧ b'.length ≤ b.length := by
  rcases hc with rfl | rfl
  · exact ⟨b, i + 1, rfl, hb, Nat.le_refl _⟩
  · cases b with
    | nil =>
      refine ⟨[], i + 1, ?_, hb, Nat.le_refl _⟩
      cases cs with
      | nil => rfl
      | cons d cs =>
        have hd : Solid d := hcs d rfl
        rw [List.nil_append, placeFrom]
        · rfl
        · rintro r - h
          obtain ⟨rfl, -⟩ := List.cons.inj h
          exact absurd hd (by decide)
    | cons d b =>
      by_cases hd : d = '\n'
      · subst hd
        exact ⟨b, i + 2, rfl, fun e he => hb e (List.mem_cons_of_mem _ he), Nat.le_succ _⟩
      · refine ⟨d :: b, i + 1, ?_, hb, Nat.le_refl _⟩
        rw [List.cons_append, placeFrom]
        · rfl
        · rintro r - h
          exact hd (List.cons.inj h).1

/-- **Blanks of JSON are skipped**, but for a tab where a block key may begin. -/
theorem skipToToken_blank (hcs : Starts cs) (flow : Bool) : ∀ (b : List Char) (allowed : Bool)
    (i l k : Nat), Blank b →
    (∃ allowed' i' l' k', skipToToken flow allowed false (placeFrom i l k (b ++ cs)) =
        (allowed', placeFrom i' l' k' cs) ∧ (flow = true → allowed' = allowed)) ∨
      flow = false ∧ ∃ here r, here.char = '\t' ∧
        skipToToken flow allowed false (placeFrom i l k (b ++ cs)) = (true, here :: r) := by
  intro b
  induction hn : b.length using Nat.strong_induction_on generalizing b with
  | _ n ih =>
    intro allowed i l k hb
    cases b with
    | nil => exact .inl ⟨allowed, i, l, k, skipToToken_starts hcs flow allowed, fun _ => rfl⟩
    | cons c b =>
      obtain ⟨hc, hb⟩ := List.forall_mem_cons.1 hb
      have hrest := ih b.length (by rw [← hn]; exact Nat.lt_succ_self _) b rfl
      simp only [Draft.isSpace, Bool.or_eq_true, beq_iff_eq] at hc
      -- within a line the next character comes next
      have hgap : (c = ' ' ∨ c = '\t' ∧ (flow = true ∨ allowed = false)) →
          skipToToken flow allowed false (placeFrom i l k (c :: (b ++ cs))) =
            skipToToken flow allowed false (placeFrom (i + 1) l (k + 1) (b ++ cs)) := by
        rintro (rfl | ⟨rfl, h⟩)
        · rw [placeFrom_still (by decide) (by decide) (by decide), skipToToken]
          simp [isBreak, byteOrderMark]
        · rw [placeFrom_still (by decide) (by decide) (by decide), skipToToken]
          simp [isBreak, byteOrderMark, h]
      by_cases hnewline : c = '\n' ∨ c = '\r'
      · obtain ⟨b', i', hplace, hb', hlength⟩ :=
          exists_placeFrom_newline (i := i) (l := l) (k := k) hnewline hb hcs
        rw [List.cons_append, hplace, skipToToken]
        simp only [isBreak, beq_self_eq_true, Bool.true_or, if_true]
        have hnext := ih b'.length (by rw [← hn]; exact Nat.lt_succ_of_le hlength) b' rfl
          (allowed || !flow) i' (l + 1) 0 hb'
        rcases hnext with ⟨a, i, l, k, hskip, hflow⟩ | htab
        · exact .inl ⟨a, i, l, k, hskip, fun h => by rw [hflow h, h]; simp⟩
        · exact .inr htab
      · by_cases hskipped : c = ' ' ∨ c = '\t' ∧ (flow = true ∨ allowed = false)
        · rw [List.cons_append, hgap hskipped]
          exact hrest allowed (i + 1) l (k + 1) hb
        · -- a tab where a key may begin
          obtain rfl : c = '\t' := by tauto
          obtain ⟨rfl, rfl⟩ : flow = false ∧ allowed = true := by simpa using hskipped
          refine .inr ⟨rfl, ⟨'\t', i, l, k⟩, placeFrom (i + 1) l (k + 1) (b ++ cs), rfl, ?_⟩
          rw [List.cons_append, placeFrom_still (by decide) (by decide) (by decide), skipToToken]
          simp [isBreak, byteOrderMark]

/-- The scan after the blanks in front. -/
def pastBlanks (s : Scan) : Scan :=
  { s.fresh with
    rest := (skipToToken s.inFlow s.keyAllowed false s.rest).2
    keyAllowed := (skipToToken s.inFlow s.keyAllowed false s.rest).1 }

theorem length_outer_pastBlanks (s : Scan) : s.pastBlanks.outer.length = s.outer.length := by
  simp [pastBlanks, fresh]

theorem Flows.pastBlanks (h : Flows s) : Flows s.pastBlanks :=
  ⟨h.indents, h.fresh.free, h.unfinished⟩

/-- **Blanks are no step of their own.** -/
theorem Flows.next_pastBlanks (h : Flows s)
    (hskip : skipToToken s.inFlow s.pastBlanks.keyAllowed false s.pastBlanks.rest =
      (s.pastBlanks.keyAllowed, s.pastBlanks.rest)) : s.fresh.next = s.pastBlanks.fresh.next := by
  have hin : s.fresh.inFlow = s.inFlow := inFlow_of_length (by simp [Scan.fresh])
  have hin' : s.pastBlanks.fresh.inFlow = s.inFlow :=
    inFlow_of_length (by rw [← length_outer_pastBlanks s]; simp [Scan.fresh])
  have hleft : skipToToken s.fresh.inFlow s.fresh.keyAllowed false s.fresh.rest =
      (s.pastBlanks.keyAllowed, s.pastBlanks.rest) := by
    rw [hin]
    rfl
  have hright : skipToToken s.pastBlanks.fresh.inFlow s.pastBlanks.fresh.keyAllowed false
      s.pastBlanks.fresh.rest = (s.pastBlanks.keyAllowed, s.pastBlanks.rest) := by
    rw [hin']
    exact hskip
  -- either way the candidates are looked at again where the blanks end
  have hpast : { s.fresh with rest := s.pastBlanks.rest, keyAllowed := s.pastBlanks.keyAllowed } =
      s.pastBlanks := rfl
  have hfresh : { s.pastBlanks.fresh with
      rest := s.pastBlanks.rest, keyAllowed := s.pastBlanks.keyAllowed } = s.pastBlanks.fresh := rfl
  rw [next, next, hleft, hright]
  simp only [hpast, hfresh, h.pastBlanks.dropStale, h.pastBlanks.fresh.dropStale, fresh_fresh]

/-- A tab stops a scan where a key may begin. -/
theorem next_tab {here : Spot} {r : Rest} (h : Flows s) (hflow : s.inFlow = false)
    (hallowed : s.keyAllowed = true) (hrest : s.rest = here :: r) (hc : here.char = '\t') :
    s.fresh.next = none := by
  have hin : s.fresh.inFlow = false := (inFlow_of_length (by simp [fresh])).trans hflow
  have hskip : skipToToken s.fresh.inFlow s.fresh.keyAllowed false s.fresh.rest =
      (s.fresh.keyAllowed, here :: r) := by
    have hallowed' : s.fresh.keyAllowed = true := hallowed
    have hrest' : s.fresh.rest = here :: r := hrest
    rw [hin, hallowed', hrest', skipToToken]
    simp [hc, isBreak, byteOrderMark]
  have hsame : { s.fresh with rest := here :: r, keyAllowed := s.fresh.keyAllowed } = s.fresh := by
    rw [← hrest]
    rfl
  rw [next, hskip]
  simp only [hsame, h.fresh.dropStale, fresh_fresh, Option.bind_eq_bind, Option.bind_some,
    h.fresh.unroll]
  have hmark : ∀ m, m ≠ '\t' → Rest.startsWithMark m (here :: r) = false := fun m hm =>
    startsWithMark_of_ne (by rw [hc]; exact hm.symm) r
  simp [hc, hmark, startsPlain, isGap]

theorem skip_starts (h : Starts cs) : Draft.skip cs = cs := by
  cases cs with
  | nil => rfl
  | cons c cs =>
    have hc := h c rfl
    simp only [Solid, List.mem_cons, List.not_mem_nil, or_false, not_or] at hc
    rw [Draft.skip, List.dropWhile_cons_of_neg]
    simp [Draft.isSpace, hc]

theorem skip_blank (hb : Blank b) (cs : List Char) : Draft.skip (b ++ cs) = Draft.skip cs :=
  List.dropWhile_append_of_pos hb

/-- The scan is in front of a text, apart from blanks. -/
def Stands (s : Scan) (cs : List Char) : Prop :=
  ∃ b i l k, Blank b ∧ s.rest = placeFrom i l k (b ++ Draft.skip cs)

/-- The second scan is the first one after some blanks. -/
structure Settles (s t : Scan) (cs : List Char) : Prop where
  clear : Clear t
  tokens : t.tokens = s.tokens
  count : t.count = s.count
  outer : t.outer.length = s.outer.length
  candidate : ∀ key ∈ t.candidate, key ∈ s.candidate
  allowed : s.inFlow = true → t.keyAllowed = s.keyAllowed
  rest : ∃ i l k, t.rest = placeFrom i l k cs

/-- **The step after blanks** decides where a scan leads. -/
theorem Clear.settle (h : Clear s) (hs : s.Stands cs) (hcs : Starts cs)
    (hP : ∀ t, Settles s t cs → ∀ u, t.fresh.next = some u → P u) : s.Leads P := by
  refine h.leads fun u hnext => ?_
  obtain ⟨b, i, l, k, hb, hrest⟩ := hs
  rw [skip_starts hcs] at hrest
  have hflows : Flows s.pastBlanks := h.toFlows.pastBlanks
  rcases skipToToken_blank hcs s.inFlow b s.keyAllowed i l k hb with
    ⟨a, i', l', k', hskip, hflow⟩ | ⟨hflow, here, r, hc, hskip⟩
  · rw [← hrest] at hskip
    have hrest' : s.pastBlanks.rest = placeFrom i' l' k' cs := by rw [pastBlanks, hskip]
    have hallowed : s.pastBlanks.keyAllowed = a := by rw [pastBlanks, hskip]
    have hagain : s.fresh.next = s.pastBlanks.fresh.next := h.next_pastBlanks (by
      rw [hrest']
      exact skipToToken_starts hcs _ _)
    refine hP s.pastBlanks ⟨⟨hflows, h.unended⟩, rfl, rfl, length_outer_pastBlanks s, ?_,
      fun hin => hallowed.trans (hflow hin), _, _, _, hrest'⟩ u (hagain ▸ hnext)
    intro key hkey
    exact (Option.filter_eq_some_iff.1 hkey).1
  · -- the scan stops at a tab
    rw [← hrest] at hskip
    have hrest' : s.pastBlanks.rest = here :: r := by rw [pastBlanks, hskip]
    have hallowed : s.pastBlanks.keyAllowed = true := by rw [pastBlanks, hskip]
    have hin : s.pastBlanks.inFlow = false :=
      (inFlow_of_length (length_outer_pastBlanks s)).trans hflow
    have hagain : s.fresh.next = s.pastBlanks.fresh.next := h.next_pastBlanks (by
      rw [hrest', hallowed, hflow, skipToToken]
      simp [hc, isBreak, byteOrderMark])
    rw [hagain, next_tab hflows hin hallowed hrest' hc] at hnext
    cases hnext

/-! ### Lexemes -/

/-- The scan has become another one: it has more tokens, and is in front of what is left. -/
structure Gains (s t : Scan) (ts : List Token) (cs : List Char) : Prop where
  clear : Clear t
  outer : t.outer.length = s.outer.length
  tokens : t.tokens = ts.reverse ++ s.tokens
  stands : t.Stands cs

theorem Gains.trans {u : Scan} {ts us : List Token} (h : Gains s t ts cs) (h' : Gains t u us more) :
    Gains s u (ts ++ us) more where
  clear := h'.clear
  outer := h'.outer.trans h.outer
  tokens := by rw [h'.tokens, h.tokens, List.reverse_append, List.append_assoc]
  stands := h'.stands

theorem stands_of_rest (h : s.rest = placeFrom i l k cs) : s.Stands cs := by
  refine ⟨cs.takeWhile Draft.isSpace, i, l, k, fun c hc => List.mem_takeWhile_imp hc, ?_⟩
  rw [Draft.skip, List.takeWhile_append_dropWhile]
  exact h

/-- It does not matter which blanks stand in front. -/
theorem Stands.of_blank (h : s.Stands (b ++ cs)) (hb : Blank b) : s.Stands cs := by
  rwa [Stands, skip_blank hb] at h

/-- A token that does not end the stream. -/
theorem Clear.unended_cons {tok : Token} {ts : List Token} (h : .streamEnd ∉ ts)
    (htok : tok ≠ .streamEnd) : .streamEnd ∉ tok :: ts := fun hmem =>
  (List.mem_cons.1 hmem).elim (fun heq => htok heq.symm) h

/-- One token more, with a free candidate in the place of the old one. -/
theorem Clear.grows {t u : Scan} {tok : Token} (h : Clear t) (htok : tok ≠ .streamEnd)
    (hindents : u.indents = t.indents) (houter : u.outer = t.fresh.outer)
    (hfree : u.candidate.any (·.required) = false) (htokens : u.tokens = tok :: t.tokens) :
    Clear u where
  indents := hindents.trans h.indents
  free key hkey := by
    rcases List.mem_cons.1 hkey with rfl | hkey
    · exact hfree
    · exact h.toFlows.fresh.free key (List.mem_cons_of_mem _ (houter ▸ hkey))
  unfinished := by
    rw [htokens, List.head?_cons, Ne, Option.some.injEq]
    exact htok
  unended := by
    rw [htokens]
    exact Clear.unended_cons h.unended htok

/-- **One token more behind the blanks.** -/
theorem Settles.gains {t u : Scan} {tok : Token} (ht : Settles s t cs) (htok : tok ≠ .streamEnd)
    (hindents : u.indents = t.indents) (houter : u.outer = t.fresh.outer)
    (hfree : u.candidate.any (·.required) = false) (htokens : u.tokens = tok :: t.tokens)
    (hstands : u.Stands more) : Gains s u [tok] more where
  clear := ht.clear.grows htok hindents houter hfree htokens
  outer := by
    rw [houter, ← ht.outer]
    simp [fresh]
  tokens := by
    rw [htokens, ht.tokens]
    rfl
  stands := hstands

theorem isMark_solid (h : isMark c = true) : Solid c := by
  rcases isMark_cases h with rfl | rfl | rfl | rfl | rfl | rfl | rfl <;> decide

theorem starts_cons (h : Solid c) (cs : List Char) : Starts (c :: cs) := fun d hd => by
  cases hd
  exact h

/-- The step in front of a solid character, with the places at which this and the rest stand. -/
theorem Clear.settle_cons (h : Clear s) (hs : s.Stands (c :: cs)) (hc : Solid c)
    (hP : ∀ t, Settles s t (c :: cs) → ∀ i l k,
      t.rest = ⟨c, i, l, k⟩ :: placeFrom (i + 1) l (k + 1) cs → ∀ u, t.fresh.next = some u → P u) :
    s.Leads P := by
  refine h.settle hs (starts_cons hc cs) fun t ht u hnext => ?_
  obtain ⟨i, l, k, hrest⟩ := ht.rest
  rw [placeFrom_solid hc] at hrest
  exact hP t ht i l k hrest u hnext

/-- One level further in. -/
theorem Clear.leads_opens {tok : Token} (h : Clear s) (hc : Opens c tok) (hs : s.Stands (c :: cs)) :
    s.Leads fun t => Clear t ∧ t.outer.length = s.outer.length + 1 ∧ t.keyAllowed = true ∧
      t.tokens = tok :: s.tokens ∧ t.Stands cs := by
  have hmark : isMark c = true ∧ tok ≠ .streamEnd := by
    rcases hc with ⟨rfl, rfl⟩ | ⟨rfl, rfl⟩ <;> decide
  refine h.settle_cons hs (isMark_solid hmark.1) fun t ht i l k hrest u hnext => ?_
  obtain ⟨u', hnext', hflows, houter, hallowed, htokens, hrest'⟩ :=
    next_of_opens ht.clear.toFlows hrest hc
  obtain rfl := Option.some.inj (hnext'.symm.trans hnext)
  refine ⟨⟨hflows, ?_⟩, by rw [houter, ht.outer], hallowed, by rw [htokens, ht.tokens],
    stands_of_rest hrest'⟩
  rw [htokens]
  exact Clear.unended_cons ht.clear.unended hmark.2

/-- One level further out. -/
theorem Clear.leads_closes {tok : Token} (h : Clear s) (hin : s.inFlow = true) (hc : Closes c tok)
    (hs : s.Stands (c :: cs)) :
    s.Leads fun t => Clear t ∧ t.outer.length + 1 = s.outer.length ∧
      t.tokens = tok :: s.tokens ∧ t.Stands cs := by
  have hmark : isMark c = true ∧ tok ≠ .streamEnd := by
    rcases hc with ⟨rfl, rfl⟩ | ⟨rfl, rfl⟩ <;> decide
  refine h.settle_cons hs (isMark_solid hmark.1) fun t ht i l k hrest u hnext => ?_
  obtain ⟨u', hnext', hflows, houter, -, htokens, hrest'⟩ :=
    next_of_closes ht.clear.toFlows ((inFlow_of_length ht.outer).trans hin) hrest hc
  obtain rfl := Option.some.inj (hnext'.symm.trans hnext)
  refine ⟨⟨hflows, ?_⟩, by rw [houter, ht.outer], by rw [htokens, ht.tokens],
    stands_of_rest hrest'⟩
  rw [htokens]
  exact Clear.unended_cons ht.clear.unended hmark.2

/-- After a comma a key may begin. -/
theorem Clear.leads_comma (h : Clear s) (hs : s.Stands (',' :: cs)) :
    s.Leads fun t => Gains s t [.comma] cs ∧ t.keyAllowed = true := by
  refine h.settle_cons hs (by decide) fun t ht i l k hrest u hnext => ?_
  rw [next_mark ht.clear.toFlows hrest rfl fun h : ',' = ':' => absurd h (by decide)] at hnext
  obtain rfl := Option.some.inj hnext
  exact ⟨ht.gains (by decide) rfl rfl rfl rfl (stands_of_rest rfl), rfl⟩

open Json (Lexeme Piece)

/-- **A quoted text**, where a key may begin or not. -/
theorem Clear.leads_quoted {ps : List Piece} (h : Clear s) (hps : ∀ p ∈ ps, p.Sound)
    (hs : s.Stands ((Lexeme.quoted ps).chars ++ cs)) :
    s.Leads fun t => Gains s t [.scalar .other (String.ofList (folded ps))] cs ∧
      (∀ p ∈ ps, Alone p) ∧ t.count = s.count + 1 ∧
      (s.inFlow = true → s.keyAllowed = true → ∀ key ∈ t.candidate, key.number = s.count) := by
  rw [Lexeme.chars, List.cons_append, List.append_assoc] at hs
  refine h.settle_cons hs (by decide) fun t ht i l k hrest u hnext => ?_
  obtain ⟨key, hfree, hadd, hkey⟩ := addCandidate_of_flows ht.clear.toFlows.fresh ⟨'"', i, l, k⟩
  have hstep : t.fresh.next = t.fresh.quoted ⟨'"', i, l, k⟩
      (placeFrom (i + 1) l (k + 1) (ps.flatMap Piece.chars ++ (['"'] ++ cs))) :=
    next_mark ht.clear.toFlows hrest rfl fun h : '"' = ':' => absurd h (by decide)
  rw [hstep, quoted, hadd, Option.bind_eq_bind, Option.bind_some] at hnext
  obtain ⟨⟨x, r⟩, hquoted, hnext⟩ := Option.bind_eq_some_iff.1 hnext
  obtain ⟨rfl, halone, i', l', k', rfl⟩ := quoted?_pieces hps hquoted
  obtain rfl := Option.some.inj hnext
  refine ⟨ht.gains (by simp) rfl rfl hfree rfl (stands_of_rest rfl), halone, ?_, ?_⟩
  · rw [← ht.count]
    rfl
  · intro hin hallowed key' hkey'
    have hsome := hkey ((ht.allowed hin).trans hallowed)
    have hcandidate : key = some key' := hkey'
    rw [hsome, Option.some.injEq] at hcandidate
    rw [← hcandidate, ← ht.count]
    rfl

/-- **A colon** makes the candidate a key, unless it has been given up. -/
theorem Clear.leads_colon {tok : Token} {ts : List Token} (h : Clear s) (hin : s.inFlow = true)
    (hs : s.Stands (':' :: cs)) (htokens : s.tokens = tok :: ts)
    (hkey : ∀ key ∈ s.candidate, s.count = key.number + 1) :
    s.Leads fun t => Clear t ∧ t.outer.length = s.outer.length ∧ t.Stands cs ∧
      (t.tokens = .value :: tok :: ts ∨ t.tokens = .value :: tok :: .key :: ts) := by
  refine h.settle_cons hs (by decide) fun t ht i l k hrest u hnext => ?_
  have hin' : t.inFlow = true := (inFlow_of_length ht.outer).trans hin
  have htokens' : t.tokens = tok :: ts := ht.tokens.trans htokens
  cases hcandidate : t.fresh.candidate with
  | some key =>
    have hmem : key ∈ s.candidate := ht.candidate key (Option.filter_eq_some_iff.1 hcandidate).1
    obtain ⟨u', hnext', hflows, houter, -, hutokens, hurest⟩ := colon_of_flows ht.clear.toFlows hin'
      hrest rfl hcandidate (ht.count.trans (hkey key hmem)) htokens'
    obtain rfl := Option.some.inj (hnext'.symm.trans hnext)
    refine ⟨⟨hflows, ?_⟩, ?_, stands_of_rest hurest, .inr hutokens⟩
    · have hunended := ht.clear.unended
      rw [htokens'] at hunended
      rw [hutokens]
      simp only [List.mem_cons, not_or] at hunended ⊢
      exact ⟨by simp, hunended.1, by simp, hunended.2⟩
    · rw [houter, ← ht.outer]
      simp [fresh]
  | none =>
    have hfresh : t.fresh.inFlow = true := (inFlow_of_length (by simp [fresh])).trans hin'
    have hstep : t.fresh.next = t.fresh.value ⟨':', i, l, k⟩ (placeFrom (i + 1) l (k + 1) cs) :=
      next_mark ht.clear.toFlows hrest rfl fun _ => hin'
    rw [hstep, value, hcandidate] at hnext
    simp only [hfresh, if_true, Option.some.injEq] at hnext
    have hgains : Gains s u [.value] cs := by
      subst hnext
      exact ht.gains (by simp) rfl rfl rfl rfl (stands_of_rest rfl)
    refine ⟨hgains.clear, hgains.outer, hgains.stands, .inl ?_⟩
    rw [hgains.tokens, htokens]
    rfl

end Scaffold.Yaml.Scan
