import Scaffold.Proofs.Yaml.Quoted
import Scaffold.Yaml.Token

/-!
# Scanning JSON text as YAML

JSON text is one collection in braces or brackets. Within it no block begins, no key candidate is
required, and every step of a scan takes one token.
-/

namespace Scaffold.Yaml.Scan

variable {s t u : Scan} {here : Spot} {r : Rest} {n m : Nat}

/-- A scan that is in no block: every candidate may be given up, and there is more to read. -/
structure Flows (s : Scan) : Prop where
  indents : s.indents = []
  free : ∀ k ∈ s.candidate :: s.outer, k.any (·.required) = false
  unfinished : s.tokens.head? ≠ some .streamEnd

/-- The scan without the candidates that are stale. -/
def fresh (s : Scan) : Scan :=
  { s with
    candidate := s.candidate.filter (!·.isStale s.rest)
    outer := s.outer.map (·.filter (!·.isStale s.rest)) }

theorem fresh_fresh (s : Scan) : s.fresh.fresh = s.fresh := by
  simp [fresh, Option.filter_filter]

theorem Flows.dropStale (h : Flows s) : s.dropStale = some s.fresh := by
  have hnone : ((s.candidate :: s.outer).any fun k => k.any fun k => k.isStale s.rest && k.required)
      = false := by
    rw [List.any_eq_false]
    intro k hk
    have hfree := h.free k hk
    cases k with
    | none => simp
    | some k =>
      simp only [Option.any_some] at hfree ⊢
      simp [hfree]
  rw [Scan.dropStale, hnone, if_neg Bool.false_ne_true]
  rfl

theorem any_filter_of_any {p q : KeyCandidate → Bool} {k : Option KeyCandidate}
    (h : k.any p = false) : (k.filter q).any p = false := by
  cases k with
  | none => rfl
  | some k =>
    rw [Option.filter_some]
    split_ifs
    · exact h
    · rfl

theorem Flows.fresh (h : Flows s) : Flows s.fresh where
  indents := h.indents
  free := by
    intro k hk
    rcases List.mem_cons.1 hk with rfl | hk
    · exact any_filter_of_any (h.free _ List.mem_cons_self)
    · obtain ⟨k', hk', rfl⟩ := List.mem_map.1 hk
      exact any_filter_of_any (h.free k' (List.mem_cons_of_mem _ hk'))
  unfinished := h.unfinished

/-- Within that many steps a scan becomes another. -/
def Goes (s t : Scan) (n : Nat) : Prop := ∀ fuel, s.run (fuel + n) = t.run fuel

theorem Goes.trans (h : Goes s t n) (h' : Goes t u m) : Goes s u (m + n) := fun fuel => by
  rw [← Nat.add_assoc, h, h']

theorem Goes.of_next (h : Flows s) (hnext : s.fresh.next = some t) : Goes s t 1 := fun fuel => by
  rw [run, h.dropStale]
  simp only
  rw [if_neg h.fresh.unfinished, hnext]

theorem Flows.dropCandidate (h : Flows s) :
    s.dropCandidate = some { s with candidate := none } := by
  rw [Scan.dropCandidate, if_neg (by rw [h.free _ List.mem_cons_self]; exact Bool.false_ne_true)]

theorem Flows.unroll (h : Flows s) (p : Nat → Bool) : s.unroll p = s := by
  rw [Scan.unroll, h.indents]
  split_ifs
  · rfl
  · obtain ⟨rest, tokens, count, candidate, outer, keyAllowed, indents⟩ := s
    obtain rfl : indents = [] := h.indents
    rfl

/-! ### One token -/

/-- The marks of JSON text. No blank, comment or block begins with them. -/
def isMark (c : Char) : Bool := "[\x7b]\x7d,:\"".toList.contains c

theorem isMark_cases {c : Char} (h : isMark c = true) :
    c = '[' ∨ c = '\x7b' ∨ c = ']' ∨ c = '\x7d' ∨ c = ',' ∨ c = ':' ∨ c = '"' := by
  simpa [isMark] using h

theorem skipToToken_mark (flow allowed : Bool) (hc : isMark here.char = true) :
    skipToToken flow allowed false (here :: r) = (allowed, here :: r) := by
  rw [skipToToken]
  rcases isMark_cases hc with hc | hc | hc | hc | hc | hc | hc <;> rw [hc] <;>
    simp [isBreak, byteOrderMark]

theorem startsWithMark_mark {c : Char} (hc : isMark here.char = true) (hm : c ∈ ['-', '.']) :
    Rest.startsWithMark c (here :: r) = false := by
  refine startsWithMark_of_ne ?_ r
  simp only [List.mem_cons, List.not_mem_nil, or_false] at hm
  rcases isMark_cases hc with hc | hc | hc | hc | hc | hc | hc <;> rw [hc] <;>
    rcases hm with rfl | rfl <;> decide

theorem next_mark (h : Flows s) (hr : s.rest = here :: r) (hc : isMark here.char = true)
    (hflow : here.char = ':' → s.inFlow = true) :
    s.fresh.next = match here.char with
      | '[' => s.fresh.flowStart .flowSequenceStart here r
      | '\x7b' => s.fresh.flowStart .flowMappingStart here r
      | ']' => s.fresh.flowEnd .flowSequenceEnd r
      | '\x7d' => s.fresh.flowEnd .flowMappingEnd r
      | ',' => some ({ s.fresh with candidate := none, keyAllowed := true, rest := r }.push .comma)
      | ':' => s.fresh.value here r
      | _ => s.fresh.quoted here r := by
  have hrest : s.fresh.rest = here :: r := hr
  have hinFlow : s.fresh.inFlow = s.inFlow := by simp [inFlow, fresh]
  have hsame : { s.fresh with rest := here :: r, keyAllowed := s.fresh.keyAllowed } = s.fresh := by
    rw [← hrest]
  rw [next, hrest, skipToToken_mark _ _ hc]
  simp only [hsame, h.fresh.dropStale, fresh_fresh, Option.bind_eq_bind, Option.bind_some,
    h.fresh.unroll, startsWithMark_mark hc (c := '-') (by simp),
    startsWithMark_mark hc (c := '.') (by simp), h.fresh.dropCandidate]
  rcases isMark_cases hc with hc | hc | hc | hc | hc | hc | hc <;>
    simp [hc, hinFlow, hflow]

/-- From one scan another is reached: some tokens have been added and these characters are left. -/
structure Reaches (s : Scan) (ts : List Token) (allowed : Bool) (more : List Char) (n : Nat)
    (t : Scan) : Prop where
  flows : Flows t
  outer : t.outer.length = s.outer.length
  allowed : t.keyAllowed = allowed
  tokens : t.tokens = ts.reverse ++ s.tokens
  rest : ∃ i l k, t.rest = placeFrom i l k more
  goes : ∃ m ≤ n, Goes s t m

/-- **A piece of text within brackets** is scanned as these tokens, whatever follows it. It begins
where a key is `allowed`, or not. -/
def Scans (cs : List Char) (ts : List Token) (allowed after : Bool) : Prop :=
  ∀ (s : Scan) (i l k : Nat) (more : List Char), Flows s → s.inFlow = true →
    s.keyAllowed = allowed → s.rest = placeFrom i l k (cs ++ more) →
    ∃ t, Reaches s ts after more cs.length t

variable {cs ds : List Char} {ts us : List Token} {a b c : Bool}

theorem inFlow_of_length (h : t.outer.length = s.outer.length) : t.inFlow = s.inFlow := by
  rw [inFlow, inFlow]
  cases hs : s.outer <;> cases ht : t.outer <;> simp_all

theorem scans_nil (a : Bool) : Scans [] [] a a := fun s i l k _ hs _ ha hrest =>
  ⟨s, hs, rfl, ha, rfl, ⟨i, l, k, hrest⟩, 0, Nat.le_refl _, fun _ => rfl⟩

theorem Scans.append (h : Scans cs ts a b) (h' : Scans ds us b c) :
    Scans (cs ++ ds) (ts ++ us) a c := by
  intro s i l k more hs hin ha hrest
  rw [List.append_assoc] at hrest
  obtain ⟨t, ht⟩ := h s i l k _ hs hin ha hrest
  obtain ⟨i', l', k', hrest'⟩ := ht.rest
  obtain ⟨u, hu⟩ := h' t i' l' k' more ht.flows ((inFlow_of_length ht.outer).trans hin) ht.allowed
    hrest'
  obtain ⟨m, hm, hgoes⟩ := ht.goes
  obtain ⟨m', hm', hgoes'⟩ := hu.goes
  refine ⟨u, hu.flows, hu.outer.trans ht.outer, hu.allowed, ?_, hu.rest, m' + m, ?_,
    hgoes.trans hgoes'⟩
  · rw [hu.tokens, ht.tokens, List.reverse_append, List.append_assoc]
  · rw [List.length_append, Nat.add_comm]
    exact Nat.add_le_add hm hm'

/-- A piece that is one token. -/
theorem Scans.of_next (hcs : cs ≠ []) (h : ∀ (s : Scan) (i l k : Nat) (more : List Char), Flows s →
    s.inFlow = true → s.keyAllowed = a → s.rest = placeFrom i l k (cs ++ more) →
    ∃ t, s.fresh.next = some t ∧ Flows t ∧ t.outer.length = s.outer.length ∧ t.keyAllowed = b ∧
      t.tokens = ts.reverse ++ s.tokens ∧ ∃ i l k, t.rest = placeFrom i l k more) :
    Scans cs ts a b := by
  intro s i l k more hs hin ha hrest
  obtain ⟨t, hnext, hflows, houter, hb, htokens, hrest'⟩ := h s i l k more hs hin ha hrest
  exact ⟨t, hflows, houter, hb, htokens, hrest', 1, List.length_pos_iff.2 hcs,
    Goes.of_next hs hnext⟩

theorem scans_comma (a : Bool) : Scans [','] [.comma] a true := by
  refine Scans.of_next (by simp) fun s i l k more hs hin _ hrest => ?_
  rw [List.singleton_append, placeFrom_still (by decide) (by decide) (by decide)] at hrest
  refine ⟨_, next_mark hs hrest rfl fun h : ',' = ':' => absurd h (by decide),
    ⟨hs.fresh.indents, ?_, by simp [push]⟩,
    by simp [push, fresh], rfl, rfl, _, _, _, rfl⟩
  intro k' hk'
  rcases List.mem_cons.1 hk' with rfl | hk'
  · rfl
  · exact hs.fresh.free k' (List.mem_cons_of_mem _ hk')

/-! ### Quoted texts -/

theorem addCandidate_of_flows (h : Flows s) (here : Spot) : ∃ k, k.any (·.required) = false ∧
    s.addCandidate here = some { s with candidate := k } ∧
    (s.keyAllowed = true → k = some ⟨s.count, here.index, here.line, here.column, false⟩) := by
  rw [addCandidate]
  split_ifs with hallowed
  · refine ⟨some ⟨s.count, here.index, here.line, here.column, false⟩, rfl, ?_, fun _ => rfl⟩
    have hindents : ¬ s.indents.head? = some here.column := by
      rw [h.indents]
      exact fun hnone => nomatch hnone
    simp [h.dropCandidate, hindents]
  · exact ⟨s.candidate, h.free _ List.mem_cons_self, rfl, fun hno => absurd hno hallowed⟩

open Json (escapeChar)

/-- **A quoted text.** If a key may begin here, the text is remembered as one. -/
theorem quoted_of_flows {x : String} (hx : Quotable x.toList) (h : Flows s) (i l k : Nat)
    (more : List Char)
    (hrest : s.rest = placeFrom i l k (Json.quote x ++ more)) :
    ∃ t key, s.fresh.next = some t ∧ Flows t ∧ t.outer = s.fresh.outer ∧ t.keyAllowed = false ∧
      t.tokens = .scalar .other x :: s.tokens ∧ t.count = s.count + 1 ∧ t.candidate = key ∧
      (s.keyAllowed = true → key = some ⟨s.count, i, l, k, false⟩) ∧
      ∃ k', t.rest = placeFrom (i + (x.toList.flatMap escapeChar).length + 2)
        (l + x.toList.countP isSeparator) k' more := by
  rw [Json.quote, List.cons_append, List.append_assoc, List.singleton_append,
    placeFrom_still (by decide) (by decide) (by decide)] at hrest
  obtain ⟨k', hquoted⟩ := quoted?_quote hx (i + 1) l k more
  obtain ⟨key, hfree, hadd, hkey⟩ := addCandidate_of_flows h.fresh ⟨'"', i, l, k⟩
  have hnext : s.fresh.next = s.fresh.quoted ⟨'"', i, l, k⟩ (placeFrom (i + 1) l (k + 1)
      (x.toList.flatMap escapeChar ++ '"' :: more)) :=
    next_mark h hrest rfl fun h : '"' = ':' => absurd h (by decide)
  rw [quoted, hadd, Option.bind_eq_bind, Option.bind_some, hquoted] at hnext
  simp only [Option.bind_eq_bind, Option.bind_some, String.ofList_toList] at hnext
  refine ⟨_, key, hnext, ⟨h.indents, ?_, by simp [push]⟩, rfl, rfl, rfl, rfl, rfl, hkey, k', ?_⟩
  · intro k₀ hk₀
    rcases List.mem_cons.1 hk₀ with rfl | hk₀
    · exact hfree
    · exact h.fresh.free k₀ (List.mem_cons_of_mem _ hk₀)
  · simp only [push]
    congr 1
    omega

theorem scans_quote {x : String} (hx : Quotable x.toList) (a : Bool) :
    Scans (Json.quote x) [.scalar .other x] a false := by
  refine Scans.of_next (by simp [Json.quote]) fun s i l k more hs _ _ hrest => ?_
  obtain ⟨t, key, hnext, hflows, houter, hallowed, htokens, -, -, -, k', hrest'⟩ :=
    quoted_of_flows hx hs i l k more hrest
  exact ⟨t, hnext, hflows, by simp [houter, fresh], hallowed, htokens, _, _, k', hrest'⟩

/-- A text that may be a key: it stands in one line and its colon is near. -/
structure IsKey (x : String) : Prop where
  quotable : Quotable x.toList
  line : x.toList.countP isSeparator = 0
  near : (x.toList.flatMap escapeChar).length + 2 ≤ keyReach

/-- **A colon makes the candidate a key**: its mark is put in front of the last token. -/
theorem colon_of_flows {key : KeyCandidate} {tok : Token} (h : Flows s) (hin : s.inFlow = true)
    (hrest : s.rest = here :: r) (hc : here.char = ':') (hkey : s.fresh.candidate = some key)
    (hcount : s.count = key.number + 1) (htokens : s.tokens = tok :: ts) :
    ∃ t, s.fresh.next = some t ∧ Flows t ∧ t.outer = s.fresh.outer ∧ t.keyAllowed = false ∧
      t.tokens = .value :: tok :: .key :: ts ∧ t.rest = r := by
  have hmark : isMark here.char = true := by rw [hc]; rfl
  have hcount' : s.fresh.count = key.number + 1 := hcount
  have htokens' : s.fresh.tokens = tok :: ts := htokens
  -- the text of the key is the last token so far
  have hinsert : s.fresh.insertAt key.number .key =
      { s.fresh with tokens := tok :: .key :: ts, count := key.number + 2 } := by
    rw [insertAt, hcount', htokens', Nat.add_sub_cancel_left]
    rfl
  have hin' : s.fresh.inFlow = true := (inFlow_of_length (by simp [fresh])).trans hin
  have hroll : Scan.roll key.column key.number .mappingStart
      { s.fresh with tokens := tok :: .key :: ts, count := key.number + 2 } =
        { s.fresh with tokens := tok :: .key :: ts, count := key.number + 2 } := if_pos hin'
  have hnext : s.fresh.next = s.fresh.value here r := by
    rw [next_mark h hrest hmark fun _ => hin, hc]
    rfl
  rw [value, hkey] at hnext
  simp only [hinsert, hroll] at hnext
  refine ⟨_, hnext, ⟨h.indents, ?_, by simp [push]⟩, rfl, rfl, rfl, rfl⟩
  intro k hk
  rcases List.mem_cons.1 hk with rfl | hk
  · rfl
  · exact h.fresh.free k (List.mem_cons_of_mem _ hk)

/-- **A key and its colon.** -/
theorem scans_key {x : String} (hx : IsKey x) :
    Scans (Json.quote x ++ [':']) [.key, .scalar .other x, .value] true false := by
  intro s i l k more hs hin ha hrest
  rw [List.append_assoc] at hrest
  obtain ⟨t, key, hnext, hflows, houter, -, htokens, hcount, hcandidate, hkey, k', hrest'⟩ :=
    quoted_of_flows hx.quotable hs i l k _ hrest
  rw [List.singleton_append, placeFrom_still (by decide) (by decide) (by decide), hx.line] at hrest'
  obtain rfl := hkey ha
  have hlength : t.outer.length = s.outer.length := by simp [houter, fresh]
  -- the colon is on the same line and near, so the candidate is not given up before it
  have hfresh : t.fresh.candidate = some ⟨s.count, i, l, k, false⟩ := by
    have hnear := hx.near
    rw [fresh, hcandidate, hrest', Option.filter_some, KeyCandidate.isStale, if_pos]
    simp only [Nat.add_zero, Nat.lt_irrefl, decide_false, Bool.false_or, Bool.not_eq_true',
      decide_eq_false_iff_not]
    omega
  obtain ⟨u, hcolon, huflows, huouter, huallowed, hutokens, hurest⟩ :=
    colon_of_flows hflows ((inFlow_of_length hlength).trans hin) hrest' rfl hfresh hcount htokens
  exact ⟨u, huflows, by simp [huouter, fresh, hlength], huallowed, hutokens, ⟨_, _, _, hurest⟩, 2,
    by simp [Json.quote], (Goes.of_next hs hnext).trans (Goes.of_next hflows hcolon)⟩

/-! ### Brackets -/

/-- The characters and the tokens at the beginning of a collection, and at its end. -/
def Opens (c : Char) (tok : Token) : Prop :=
  c = '[' ∧ tok = .flowSequenceStart ∨ c = '\x7b' ∧ tok = .flowMappingStart

def Closes (c : Char) (tok : Token) : Prop :=
  c = ']' ∧ tok = .flowSequenceEnd ∨ c = '\x7d' ∧ tok = .flowMappingEnd

/-- One level further in, a key may begin. -/
theorem next_of_opens {tok : Token} (h : Flows s) (hrest : s.rest = here :: r)
    (hc : Opens here.char tok) : ∃ t, s.fresh.next = some t ∧ Flows t ∧
      t.outer.length = s.outer.length + 1 ∧ t.keyAllowed = true ∧ t.tokens = tok :: s.tokens ∧
      t.rest = r := by
  obtain ⟨key, hfree, hadd, -⟩ := addCandidate_of_flows h.fresh here
  have hnext : s.fresh.next = s.fresh.flowStart tok here r ∧ tok ≠ .streamEnd := by
    rcases hc with ⟨hc, rfl⟩ | ⟨hc, rfl⟩
    all_goals
      rw [next_mark h hrest (by rw [hc]; rfl) fun h => by rw [hc] at h; exact absurd h (by decide), hc]
      exact ⟨rfl, Token.noConfusion⟩
  rw [flowStart, hadd] at hnext
  refine ⟨_, hnext.1, ⟨h.indents, ?_, by simpa [push] using hnext.2⟩, by simp [push, open_, fresh], rfl,
    rfl, rfl⟩
  intro k hk
  rcases List.mem_cons.1 hk with rfl | hk
  · rfl
  · rcases List.mem_cons.1 hk with rfl | hk
    · exact hfree
    · exact h.fresh.free k (List.mem_cons_of_mem _ hk)

/-- One level further out. -/
theorem next_of_closes {tok : Token} (h : Flows s) (hin : s.inFlow = true) (hrest : s.rest = here :: r)
    (hc : Closes here.char tok) : ∃ t, s.fresh.next = some t ∧ Flows t ∧
      t.outer.length + 1 = s.outer.length ∧ t.keyAllowed = false ∧ t.tokens = tok :: s.tokens ∧
      t.rest = r := by
  have hnext : s.fresh.next = s.fresh.flowEnd tok r ∧ tok ≠ .streamEnd := by
    rcases hc with ⟨hc, rfl⟩ | ⟨hc, rfl⟩
    all_goals
      rw [next_mark h hrest (by rw [hc]; rfl) fun h => by rw [hc] at h; exact absurd h (by decide), hc]
      exact ⟨rfl, Token.noConfusion⟩
  -- there is a level to go back to
  obtain ⟨k₀, ks, houter⟩ : ∃ k₀ ks, s.fresh.outer = k₀ :: ks := by
    refine List.exists_cons_of_ne_nil fun hnil => ?_
    have hlength : s.fresh.outer.length = s.outer.length := by simp [fresh]
    rw [inFlow, List.eq_nil_of_length_eq_zero (hlength.symm.trans (by rw [hnil]; rfl))] at hin
    exact absurd hin (by decide)
  rw [flowEnd, h.fresh.dropCandidate] at hnext
  simp only [Option.bind_eq_bind, Option.bind_some, close, houter] at hnext
  refine ⟨_, hnext.1, ⟨h.indents, ?_, by simpa [push] using hnext.2⟩, ?_, rfl, rfl, rfl⟩
  · intro k hk
    exact h.fresh.free k (List.mem_cons_of_mem _ (houter ▸ hk))
  · have hlength : s.fresh.outer.length = s.outer.length := by simp [fresh]
    rw [← hlength, houter]
    rfl

/-- **A collection** that contains what is scanned as these tokens. It may be the whole text. -/
theorem exists_reaches_bracket {o e : Char} {first last : Token} (hinner : Scans cs ts true b)
    (ho : Opens o first) (he : Closes e last) (i l k : Nat) (more : List Char) (hs : Flows s)
    (hrest : s.rest = placeFrom i l k (o :: (cs ++ [e]) ++ more)) :
    ∃ t, Reaches s (first :: (ts ++ [last])) false more (o :: (cs ++ [e])).length t := by
  have hstill : ∀ c tok, Opens c tok ∨ Closes c tok → c ≠ '\r' ∧ c ≠ '\u0085' ∧ isBreak c = false := by
    rintro c tok ((⟨rfl, -⟩ | ⟨rfl, -⟩) | (⟨rfl, -⟩ | ⟨rfl, -⟩)) <;> decide
  obtain ⟨hr, hl, hb⟩ := hstill o first (.inl ho)
  rw [List.cons_append, placeFrom_still hr hl hb, List.append_assoc] at hrest
  obtain ⟨t, hopen, htflows, htouter, htallowed, httokens, htrest⟩ := next_of_opens hs hrest ho
  have htin : t.inFlow = true := by
    rw [inFlow]
    cases hnil : t.outer with
    | nil => rw [hnil] at htouter; cases htouter
    | cons _ _ => rfl
  obtain ⟨u, hu⟩ := hinner t _ _ _ _ htflows htin htallowed htrest
  obtain ⟨i', l', k', hurest⟩ := hu.rest
  obtain ⟨hr, hl, hb⟩ := hstill e last (.inr he)
  rw [List.singleton_append, placeFrom_still hr hl hb] at hurest
  obtain ⟨v, hclose, hvflows, hvouter, hvallowed, hvtokens, hvrest⟩ :=
    next_of_closes hu.flows ((inFlow_of_length hu.outer).trans htin) hurest he
  obtain ⟨m, hm, hgoes⟩ := hu.goes
  refine ⟨v, hvflows, ?_, hvallowed, ?_, ⟨_, _, _, hvrest⟩, 1 + m + 1, ?_,
    (Goes.of_next hs hopen).trans (hgoes.trans (Goes.of_next hu.flows hclose))⟩
  · have := hu.outer
    omega
  · rw [hvtokens, hu.tokens, httokens]
    simp
  · simp only [List.length_cons, List.length_append, List.length_nil]
    omega

theorem scans_bracket {o e : Char} {first last : Token} (hinner : Scans cs ts true b)
    (ho : Opens o first) (he : Closes e last) (a : Bool) :
    Scans (o :: (cs ++ [e])) (first :: (ts ++ [last])) a false :=
  fun _ i l k more hs _ _ hrest => exists_reaches_bracket hinner ho he i l k more hs hrest

/-! ### Whole texts -/

theorem flows_start : Flows (start r) := ⟨rfl, by simp [start], by simp [start]⟩

/-- **At the end of a text** nothing is open, and all tokens are certain. -/
theorem next_of_end (h : Flows s) (hrest : s.rest = []) : s.fresh.next =
    some ({ s.fresh with candidate := none, keyAllowed := false }.push .streamEnd) := by
  have hrest' : s.fresh.rest = [] := hrest
  have hsame : { s.fresh with rest := [], keyAllowed := s.fresh.keyAllowed } = s.fresh := by
    rw [← hrest']
  rw [next, hrest', skipToToken]
  simp only [hsame, h.fresh.dropStale, fresh_fresh, unrollAll, h.fresh.unroll,
    h.fresh.dropCandidate, Option.bind_eq_bind, Option.bind_some]

theorem run_of_end (h : Flows s) (houter : s.outer = []) (hrest : s.rest = []) (fuel : Nat) :
    s.run (fuel + 1) = s.tokens.reverse ++ [.streamEnd] := by
  have hnext := next_of_end h hrest
  have hnone : s.fresh.outer = [] := by rw [fresh, houter]; rfl
  obtain ⟨u, hu⟩ : ∃ u, u = { s.fresh with candidate := none, keyAllowed := false }.push
    .streamEnd := ⟨_, rfl⟩
  have hcandidate : u.candidate = none := by rw [hu]; rfl
  have huouter : u.outer = [] := by rw [hu, ← hnone]; rfl
  have htokens : u.tokens = .streamEnd :: s.tokens := by rw [hu]; rfl
  have hdrop : u.dropStale = some u := by
    rw [Scan.dropStale, hcandidate, huouter]
    obtain ⟨rest, tokens, count, candidate, outer, keyAllowed, indents⟩ := u
    obtain rfl : candidate = none := hcandidate
    obtain rfl : outer = [] := huouter
    rfl
  -- no candidate is left before which a token could be put
  have hcertain : u.certain = s.tokens.reverse ++ [.streamEnd] := by
    rw [certain, hcandidate, huouter, htokens]
    simp
  rw [Goes.of_next h (hu ▸ hnext) fuel, run, hdrop]
  simp only [htokens, List.head?_cons, if_true, hcertain]

end Scaffold.Yaml.Scan
