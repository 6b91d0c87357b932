import Scaffold.Proofs.Yaml.Flow
import Scaffold.Proofs.Yaml.Supply
import Scaffold.Proofs.Yaml.Words
import Scaffold.Text.Blank

/-!
# Any JSON text as a YAML document

YAML need not be able to read a JSON text: a string may hold what YAML does not allow, and a key that is
too far from its colon is none. But a JSON text that is a whole YAML document is read as its own tree, in
which every scalar has the text that is written (`Document.root_of_isTextOf`).
-/

namespace Scaffold.Json.Written

open Yaml (Token Alone folded)

mutual

/-- The tokens of a value. The marks of its keys may be missing. -/
def Tokens : Written → List Token → Prop
  | word x, ts => ts = [.scalar .plain (String.ofList x)]
  | quoted ps, ts => ts = [.scalar .other (String.ofList (folded ps))]
  | array items, ts =>
    ∃ us, ItemTokens true items us ∧ ts = .flowSequenceStart :: (us ++ [.flowSequenceEnd])
  | object members, ts =>
    ∃ us, MemberTokens true members us ∧ ts = .flowMappingStart :: (us ++ [.flowMappingEnd])

def ItemTokens (first : Bool) : List Written → List Token → Prop
  | [], ts => ts = []
  | w :: r, ts => ∃ us vs, w.Tokens us ∧ ItemTokens false r vs ∧
    ts = (if first then [] else [.comma]) ++ (us ++ vs)

def MemberTokens (first : Bool) : List (List Piece × Written) → List Token → Prop
  | [], ts => ts = []
  | (ps, w) :: r, ts => ∃ marks us vs, (marks = [] ∨ marks = [.key]) ∧ w.Tokens us ∧
    MemberTokens false r vs ∧ (∀ p ∈ ps, Alone p) ∧
    ts = (if first then [] else [.comma]) ++
      (marks ++ .scalar .other (String.ofList (folded ps)) :: .value :: (us ++ vs))

end

mutual

/-- The tree of a value. -/
def yamlDraft : Written → Yaml.Draft
  | word x => .scalar .none .plain (String.ofList x)
  | quoted ps => .scalar .none .other (String.ofList (folded ps))
  | array items => .sequence .none (itemDrafts items) true
  | object members => .mapping .none (pairDrafts members) true

def itemDrafts : List Written → List Yaml.Draft
  | [] => []
  | w :: r => w.yamlDraft :: itemDrafts r

def pairDrafts : List (List Piece × Written) → List (Yaml.Draft × Yaml.Draft)
  | [] => []
  | (ps, w) :: r =>
    (.scalar .none .other (String.ofList (folded ps)), w.yamlDraft) :: pairDrafts r

end

end Scaffold.Json.Written

namespace Scaffold.Yaml

open Json (Written Piece Lexeme Spaced Blank)
open Scan (Clear Gains Follows Stands)

namespace Scan

variable {s t : Scan} {xs : List Lexeme} {x : Lexeme} {cs m more : List Char} {c : Char}

/-- The next lexeme of a text. -/
theorem Stands.lexeme (h : s.Stands cs) (hcs : Spaced (x :: xs) cs more) :
    ∃ m, s.Stands (x.chars ++ m) ∧ Spaced xs m more := by
  cases hcs with
  | cons hb hcs => exact ⟨_, h.of_blank hb, hcs⟩

theorem Stands.rest (h : s.Stands cs) (hcs : Spaced [] cs more) : s.Stands more := by
  cases hcs with
  | nil hb => exact h.of_blank hb

theorem skip_eq_of_spaced (hcs : Spaced [] cs more) : Draft.skip cs = Draft.skip more := by
  cases hcs with
  | nil hb => exact skip_blank hb more

theorem Follows.of_spaced {flow : Bool} (h : Follows flow more) (hcs : Spaced [] cs more) :
    Follows flow cs := by
  rwa [Follows, skip_eq_of_spaced hcs]

theorem follows_mark (hc : c = ',' ∨ c = ']' ∨ c = '\x7d') (hcs : Spaced (.mark c :: xs) cs more) :
    Follows true cs := by
  have hsolid : Solid c := by rcases hc with rfl | rfl | rfl <;> decide
  cases hcs with
  | @cons _ _ b cs' _ hb hcs =>
    have hskip : Draft.skip (b ++ ((Lexeme.mark c).chars ++ cs')) = c :: cs' := by
      rw [skip_blank hb]
      exact skip_starts (starts_cons hsolid cs')
    exact .inr ⟨rfl, c, by rw [hskip]; rfl, hc⟩

/-- Where an entry may begin, after the comma in front of it. -/
theorem leads_separator {first : Bool} (h : Clear s) (hallowed : first = true → s.keyAllowed = true)
    (hs : s.Stands cs)
    (hcs : Spaced ((if first then [] else [.mark ',']) ++ xs) cs more) :
    s.Leads fun t => ∃ m, Gains s t (if first then [] else [.comma]) m ∧ t.keyAllowed = true ∧
      Spaced xs m more := by
  cases first with
  | true => exact .here ⟨cs, ⟨h, rfl, rfl, hs⟩, hallowed rfl, hcs⟩
  | false =>
    obtain ⟨m, hm, hrest⟩ := hs.lexeme hcs
    exact (h.leads_comma hm).mono fun t ht => ⟨m, ht.1, ht.2, hrest⟩

/-- **A key and its colon**: the mark of the key is missing if the colon is too far away. -/
theorem leads_key {ps : List Piece} (h : Clear s) (hin : s.inFlow = true)
    (hallowed : s.keyAllowed = true) (hps : ∀ p ∈ ps, p.Sound) (hs : s.Stands cs)
    (hcs : Spaced (.quoted ps :: .mark ':' :: xs) cs more) :
    s.Leads fun t => ∃ m marks, Gains s t
      (marks ++ [.scalar .other (String.ofList (folded ps)), .value]) m ∧
        (marks = [] ∨ marks = [.key]) ∧ (∀ p ∈ ps, Alone p) ∧ Spaced xs m more := by
  obtain ⟨m, hm, hrest⟩ := hs.lexeme hcs
  refine (h.leads_quoted hps hm).bind fun t ⟨ht, halone, hcount, hkey⟩ => ?_
  obtain ⟨m', hm', hrest'⟩ := ht.stands.lexeme hrest
  have hcandidate : ∀ key ∈ t.candidate, t.count = key.number + 1 := by
    intro key hmem
    rw [hcount, hkey hin hallowed key hmem]
  refine (ht.clear.leads_colon ((inFlow_of_length ht.outer).trans hin) hm' ht.tokens
    hcandidate).mono fun u ⟨hu, houter, hstands, htokens⟩ => ?_
  rcases htokens with htokens | htokens
  · exact ⟨m', [], ⟨hu, houter.trans ht.outer, htokens, hstands⟩, .inl rfl, halone, hrest'⟩
  · exact ⟨m', [.key], ⟨hu, houter.trans ht.outer, htokens, hstands⟩, .inr rfl, halone, hrest'⟩

/-- **Brackets** around what is scanned between them. -/
theorem leads_bracket {o e : Char} {first last : Token} {T : List Token → Prop} (h : Clear s)
    (ho : Opens o first) (he : Closes e last) (hs : s.Stands cs)
    (hcs : Spaced (.mark o :: (xs ++ [.mark e])) cs more)
    (hinner : ∀ t m m', Clear t → t.inFlow = true → t.keyAllowed = true → t.Stands m →
      Spaced xs m m' → Follows true m' → t.Leads fun u => ∃ ts, T ts ∧ Gains t u ts m') :
    s.Leads fun t => ∃ ts, T ts ∧ Gains s t (first :: (ts ++ [last])) more := by
  obtain ⟨m, hm, hrest⟩ := hs.lexeme hcs
  obtain ⟨m', hxs, hlast⟩ := hrest.of_append
  have hclose : e = ',' ∨ e = ']' ∨ e = '\x7d' := by
    rcases he with ⟨rfl, -⟩ | ⟨rfl, -⟩ <;> simp
  refine (h.leads_opens ho hm).bind fun t hopened => ?_
  obtain ⟨ht, houter, hallowed, htokens, hstands⟩ := hopened
  have hin : ∀ u : Scan, u.outer.length = s.outer.length + 1 → u.inFlow = true := by
    intro u hu
    rw [inFlow]
    cases hnil : u.outer with
    | nil => rw [hnil] at hu; cases hu
    | cons _ _ => rfl
  refine (hinner t m m' ht (hin t houter) hallowed hstands hxs (follows_mark hclose hlast)).bind
    fun u hinside => ?_
  obtain ⟨ts, hts, hu⟩ := hinside
  obtain ⟨m'', hm'', hend⟩ := hu.stands.lexeme hlast
  refine (hu.clear.leads_closes (hin u (hu.outer.trans houter)) he hm'').mono fun v hclosed => ?_
  obtain ⟨hv, hvouter, hvtokens, hvstands⟩ := hclosed
  refine ⟨ts, hts, hv, ?_, ?_, hvstands.rest hend⟩
  · have hlength := hu.outer
    omega
  · rw [hvtokens, hu.tokens, htokens]
    simp

mutual

/-- **The tokens of a value**, if its text is scanned to the end. -/
theorem leads_value : (w : Written) → w.Sound → ∀ (s : Scan) (cs more : List Char), Clear s →
    s.Stands cs → Spaced w.lexemes cs more → Follows s.inFlow more →
    s.Leads fun t => ∃ ts, w.Tokens ts ∧ Gains s t ts more
  | .word x, hw, s, cs, more, h, hs, hcs, hfollows => by
    rw [Written.Sound] at hw
    obtain ⟨m, hm, hrest⟩ := hs.lexeme hcs
    refine (h.leads_word hw hm (hfollows.of_spaced hrest)).mono fun t ht => ?_
    exact ⟨_, rfl, ht.clear, ht.outer, ht.tokens, ht.stands.rest hrest⟩
  | .quoted ps, hw, s, cs, more, h, hs, hcs, _ => by
    rw [Written.Sound] at hw
    obtain ⟨m, hm, hrest⟩ := hs.lexeme hcs
    refine (h.leads_quoted hw hm).mono fun t ⟨ht, _⟩ => ?_
    exact ⟨_, rfl, ht.clear, ht.outer, ht.tokens, ht.stands.rest hrest⟩
  | .array items, hw, s, cs, more, h, hs, hcs, _ => by
    rw [Written.Sound] at hw
    refine (leads_bracket h (.inl ⟨rfl, rfl⟩) (.inl ⟨rfl, rfl⟩) hs hcs
      fun t m m' ht hin hallowed hstands hxs hmore =>
        leads_items items hw true t m m' ht hin (fun _ => hallowed) hstands hxs hmore).mono
      fun t ⟨ts, hts, ht⟩ => ⟨_, ⟨ts, hts, rfl⟩, ht⟩
  | .object members, hw, s, cs, more, h, hs, hcs, _ => by
    rw [Written.Sound] at hw
    refine (leads_bracket h (.inr ⟨rfl, rfl⟩) (.inr ⟨rfl, rfl⟩) hs hcs
      fun t m m' ht hin hallowed hstands hxs hmore =>
        leads_members members hw true t m m' ht hin (fun _ => hallowed) hstands hxs hmore).mono
      fun t ⟨ts, hts, ht⟩ => ⟨_, ⟨ts, hts, rfl⟩, ht⟩

theorem leads_items : (items : List Written) → Written.SoundItems items → ∀ (first : Bool)
    (s : Scan) (cs more : List Char), Clear s → s.inFlow = true →
    (first = true → s.keyAllowed = true) → s.Stands cs →
    Spaced (Written.itemLexemes first items) cs more → Follows true more →
    s.Leads fun t => ∃ ts, Written.ItemTokens first items ts ∧ Gains s t ts more
  | [], _, first, s, cs, more, h, _, _, hs, hcs, _ => by
    rw [Written.itemLexemes] at hcs
    exact .here ⟨[], rfl, h, rfl, rfl, hs.rest hcs⟩
  | w :: r, hw, first, s, cs, more, h, hin, hallowed, hs, hcs, hmore => by
    rw [Written.SoundItems] at hw
    rw [Written.itemLexemes] at hcs
    refine (leads_separator h hallowed hs hcs).bind fun t ⟨m, ht, _, hrest⟩ => ?_
    obtain ⟨m', hvalue, hitems⟩ := hrest.of_append
    have htin : t.inFlow = true := (inFlow_of_length ht.outer).trans hin
    -- a comma or the closing bracket comes next
    have hfollows : Follows true m' := by
      cases r with
      | nil =>
        rw [Written.itemLexemes] at hitems
        exact hmore.of_spaced hitems
      | cons w' r =>
        rw [Written.itemLexemes] at hitems
        exact follows_mark (.inl rfl) hitems
    refine (leads_value w hw.1 t m m' ht.clear ht.stands hvalue (by rw [htin]; exact hfollows)).bind
      fun u ⟨us, hus, hu⟩ => ?_
    refine (leads_items r hw.2 false u m' more hu.clear ((inFlow_of_length hu.outer).trans htin)
      (fun hno => absurd hno Bool.false_ne_true) hu.stands hitems hmore).mono
      fun v ⟨vs, hvs, hv⟩ => ?_
    exact ⟨_, ⟨us, vs, hus, hvs, rfl⟩, ht.trans (hu.trans hv)⟩

theorem leads_members : (members : List (List Piece × Written)) → Written.SoundMembers members →
    ∀ (first : Bool) (s : Scan) (cs more : List Char), Clear s → s.inFlow = true →
    (first = true → s.keyAllowed = true) → s.Stands cs →
    Spaced (Written.memberLexemes first members) cs more → Follows true more →
    s.Leads fun t => ∃ ts, Written.MemberTokens first members ts ∧ Gains s t ts more
  | [], _, first, s, cs, more, h, _, _, hs, hcs, _ => by
    rw [Written.memberLexemes] at hcs
    exact .here ⟨[], rfl, h, rfl, rfl, hs.rest hcs⟩
  | (ps, w) :: r, hw, first, s, cs, more, h, hin, hallowed, hs, hcs, hmore => by
    rw [Written.SoundMembers] at hw
    rw [Written.memberLexemes] at hcs
    refine (leads_separator h hallowed hs hcs).bind fun t ⟨m, ht, htallowed, hrest⟩ => ?_
    have htin : t.inFlow = true := (inFlow_of_length ht.outer).trans hin
    refine (leads_key ht.clear htin htallowed hw.1 ht.stands hrest).bind
      fun u ⟨m', marks, hu, hmarks, halone, hrest'⟩ => ?_
    obtain ⟨m'', hvalue, hmembers⟩ := hrest'.of_append
    have huin : u.inFlow = true := (inFlow_of_length hu.outer).trans htin
    have hfollows : Follows true m'' := by
      cases r with
      | nil =>
        rw [Written.memberLexemes] at hmembers
        exact hmore.of_spaced hmembers
      | cons e r =>
        rw [Written.memberLexemes] at hmembers
        exact follows_mark (.inl rfl) hmembers
    refine (leads_value w hw.2.1 u m' m'' hu.clear hu.stands hvalue
      (by rw [huin]; exact hfollows)).bind fun v ⟨us, hus, hv⟩ => ?_
    refine (leads_members r hw.2.2 false v m'' more hv.clear ((inFlow_of_length hv.outer).trans huin)
      (fun hno => absurd hno Bool.false_ne_true) hv.stands hmembers hmore).mono
      fun z ⟨vs, hvs, hz⟩ => ?_
    refine ⟨_, ⟨marks, us, vs, hmarks, hus, hvs, halone, rfl⟩, ?_⟩
    have htokens := ht.trans (hu.trans (hv.trans hz))
    simpa using htokens

end

/-! ### Whole texts -/

theorem clear_start (r : Rest) : Clear (start r) := ⟨flows_start, by simp [start]⟩

/-- **At the end of a text** only the end of the stream is added. -/
theorem Clear.ends {Q : List Token → Prop} (h : Clear s) (houter : s.outer = []) (hs : s.Stands [])
    (hQ : Q (s.tokens.reverse ++ [.streamEnd])) : s.Ends Q := by
  refine h.settle (P := fun u => u.Ends Q) hs (fun c hc => by cases hc)
    (fun t ht u hnext fuel _ => ?_) Q fun u hu => hu
  obtain ⟨i, l, k, hrest⟩ := ht.rest
  have htouter : t.outer = [] := List.eq_nil_of_length_eq_zero (by rw [ht.outer, houter]; rfl)
  rw [← Goes.of_next ht.clear.toFlows hnext fuel, run_of_end ht.clear.toFlows htouter hrest fuel,
    ht.tokens]
  exact hQ

/-- **The tokens of a JSON text**, if it is scanned to the end. -/
theorem tokens_of_isTextOf {w : Written} (hw : w.IsTextOf cs)
    (hmem : .streamEnd ∈ Yaml.tokens (placeFrom 0 0 0 cs)) :
    ∃ ts, w.Tokens ts ∧ Yaml.tokens (placeFrom 0 0 0 cs) = ts ++ [.streamEnd] := by
  have hclear := clear_start (placeFrom 0 0 0 cs)
  have hends : (start (placeFrom 0 0 0 cs)).Ends fun ts' =>
      ∃ ts, w.Tokens ts ∧ ts' = ts ++ [.streamEnd] := by
    refine leads_value w hw.sound _ cs [] hclear (stands_of_rest rfl) hw.spaced (.inl rfl) _
      fun t ⟨ts, hts, ht⟩ => ?_
    have houter : t.outer = [] := List.eq_nil_of_length_eq_zero ht.outer
    refine ht.clear.ends houter ht.stands ⟨ts, hts, ?_⟩
    rw [ht.tokens]
    simp [start]
  exact hends _ hmem

end Scan

/-! ### Trees -/

section

variable {α : Type} {s u : Supply} {r : List Token}

theorem consItem_eq_some {first : Reading α} {rest : Supply → Reading (List α)} {as : List α}
    (h : consItem first rest = (as, some u)) : ∃ a t as', first = (a, some t) ∧
      rest t = (as', some u) ∧ as = a :: as' := by
  obtain ⟨a, _ | t⟩ := first
  · cases h
  · obtain ⟨rfl, hrest⟩ := Prod.mk.inj h
    exact ⟨a, t, _, rfl, Prod.ext rfl hrest, rfl⟩

theorem pairWith_eq_some {first : Reading Draft} {second : Supply → Reading Draft}
    {p : Draft × Draft} (h : pairWith first second = (p, some u)) : ∃ k t v,
      first = (k, some t) ∧ second t = (v, some u) ∧ p = (k, v) := by
  obtain ⟨k, _ | t⟩ := first
  · cases h
  · obtain ⟨rfl, hsecond⟩ := Prod.mk.inj h
    exact ⟨k, t, _, rfl, Prod.ext rfl hsecond, rfl⟩

theorem sequenceOf_eq_some {m : Mark} {x : Reading (List Draft)} {d : Draft}
    (h : sequenceOf m x = (d, some u)) : ∃ ds, x = (ds, some u) ∧ d = .sequence m ds true := by
  obtain ⟨hd, hsome⟩ := Prod.mk.inj h
  refine ⟨x.1, Prod.ext rfl hsome, ?_⟩
  rw [← hd, hsome]
  rfl

theorem mappingOf_eq_some {m : Mark} {x : Reading (List (Draft × Draft))} {d : Draft}
    (h : mappingOf m x = (d, some u)) : ∃ ps, x = (ps, some u) ∧ d = .mapping m ps true := by
  obtain ⟨hd, hsome⟩ := Prod.mk.inj h
  refine ⟨x.1, Prod.ext rfl hsome, ?_⟩
  rw [← hd, hsome]
  rfl

/-- A value begins with one of these tokens. -/
theorem begins_tokens (w : Written) {ts : List Token} (h : w.Tokens ts) :
    ∃ t ts', ts = t :: ts' ∧ Begins t := by
  cases w with
  | word x =>
    obtain rfl := h
    exact ⟨_, _, rfl, .scalar _ _⟩
  | quoted ps =>
    obtain rfl := h
    exact ⟨_, _, rfl, .scalar _ _⟩
  | array items =>
    obtain ⟨us, -, rfl⟩ := h
    exact ⟨_, _, rfl, .sequence⟩
  | object members =>
    obtain ⟨us, -, rfl⟩ := h
    exact ⟨_, _, rfl, .mapping⟩

/-- What stands between two entries is skipped. -/
theorem flowItems_separator {fuel : Nat} {first : Bool} {t : Token}
    (h : s.tokens = (if first then [] else [.comma]) ++ (t :: r)) (ht : Begins t) :
    flowItems fuel first s = flowItems fuel true (s.with_ (t :: r)) := by
  cases first with
  | true =>
    have hs : s.with_ (t :: r) = s := congrArg s.with_ h.symm
    rw [hs]
  | false => exact flowItems_comma h ht

theorem flowPairs_separator {fuel : Nat} {first : Bool} {t : Token}
    (h : s.tokens = (if first then [] else [.comma]) ++ (t :: r)) :
    flowPairs fuel first s = flowPairs fuel true (s.with_ (t :: r)) := by
  cases first with
  | true =>
    have hs : s.with_ (t :: r) = s := congrArg s.with_ h.symm
    rw [hs]
  | false => exact flowPairs_comma h

/-- A pair with the mark of its key is read as its key, its value, and what comes after it. -/
theorem flowPairs_eq_some {fuel : Nat} {style : ScalarStyle} {x : String} {t : Token}
    {ps : List (Draft × Draft)} (hs : s.tokens = .key :: .scalar style x :: .value :: t :: r)
    (ht : Begins t) (h : flowPairs (fuel + 1) true s = (ps, some u)) : ∃ v s' ps',
      nodeFrom (fuel - 1) false false (s.with_ (t :: r)) = (v, some s') ∧
        flowPairs fuel false s' = (ps', some u) ∧ ps = (.scalar .none style x, v) :: ps' := by
  cases fuel with
  | zero =>
    rw [flowPairs, hs] at h
    simp only [if_true, nodeFrom] at h
    cases h
  | succ fuel =>
    rw [flowPairs_cons hs ht] at h
    obtain ⟨p, s', ps', hpair, hrest, rfl⟩ := consItem_eq_some h
    obtain ⟨k, t', v, hkey, hvalue, rfl⟩ := pairWith_eq_some hpair
    cases hkey
    exact ⟨v, s', ps', hvalue, hrest, rfl⟩

/-- A pair without the mark of its key has no value, and what is left cannot be read. -/
theorem flowPairs_unmarked {fuel : Nat} {style : ScalarStyle} {x : String}
    (hs : s.tokens = .scalar style x :: .value :: r) (ps : List (Draft × Draft)) :
    flowPairs fuel true s ≠ (ps, some u) := by
  suffices h : (flowPairs fuel true s).2 = none by
    intro hread
    rw [hread] at h
    cases h
  cases fuel with
  | zero => rw [flowPairs]; rfl
  | succ fuel =>
    rw [flowPairs, hs]
    cases fuel with
    | zero =>
      simp only [if_true, nodeFrom]
      rfl
    | succ fuel =>
      have hkey : nodeFrom (fuel + 1) false false (s.with_ (.scalar style x :: .value :: r)) =
          (.scalar .none style x, some (s.with_ (.value :: r))) := nodeFrom_scalar rfl
      simp only [if_true, hkey, pairWith, consItem]
      rw [flowPairs]
      rfl

mutual

/-- **The tokens of a value are read as its tree**, if they are read at all. -/
theorem nodeFrom_tokens : (w : Written) → ∀ (ts : List Token), w.Tokens ts → ∀ (fuel : Nat)
    (block loose : Bool) (s u : Supply) (r : List Token) (d : Draft), s.tokens = ts ++ r →
    nodeFrom fuel block loose s = (d, some u) → d = w.yamlDraft ∧ u = s.with_ r
  | w, ts, hts, 0, block, loose, s, u, r, d, hs, h => by
    rw [nodeFrom] at h
    cases h
  | .word x, ts, hts, fuel + 1, block, loose, s, u, r, d, hs, h => by
    rw [Written.Tokens] at hts
    subst hts
    rw [nodeFrom_scalar hs] at h
    cases h
    exact ⟨rfl, rfl⟩
  | .quoted ps, ts, hts, fuel + 1, block, loose, s, u, r, d, hs, h => by
    rw [Written.Tokens] at hts
    subst hts
    rw [nodeFrom_scalar hs] at h
    cases h
    exact ⟨rfl, rfl⟩
  | .array items, ts, hts, fuel + 1, block, loose, s, u, r, d, hs, h => by
    obtain ⟨us, hus, rfl⟩ := hts
    rw [List.cons_append, List.append_assoc] at hs
    rw [nodeFrom_sequence hs] at h
    obtain ⟨ds, hread, rfl⟩ := sequenceOf_eq_some h
    obtain ⟨rfl, rfl⟩ := flowItems_tokens items true us hus fuel _ u r ds rfl hread
    exact ⟨rfl, rfl⟩
  | .object members, ts, hts, fuel + 1, block, loose, s, u, r, d, hs, h => by
    obtain ⟨us, hus, rfl⟩ := hts
    rw [List.cons_append, List.append_assoc] at hs
    rw [nodeFrom_mapping hs] at h
    obtain ⟨ps, hread, rfl⟩ := mappingOf_eq_some h
    obtain ⟨rfl, rfl⟩ := flowPairs_tokens members true us hus fuel _ u r ps rfl hread
    exact ⟨rfl, rfl⟩

theorem flowItems_tokens : (items : List Written) → ∀ (first : Bool) (ts : List Token),
    Written.ItemTokens first items ts → ∀ (fuel : Nat) (s u : Supply) (r : List Token)
    (ds : List Draft), s.tokens = ts ++ ([.flowSequenceEnd] ++ r) →
    flowItems fuel first s = (ds, some u) → ds = Written.itemDrafts items ∧ u = s.with_ r
  | items, first, ts, hts, 0, s, u, r, ds, hs, h => by
    rw [flowItems] at h
    cases h
  | [], first, ts, hts, fuel + 1, s, u, r, ds, hs, h => by
    rw [Written.ItemTokens] at hts
    subst hts
    rw [flowItems_end hs] at h
    cases h
    exact ⟨rfl, rfl⟩
  | w :: items, first, ts, hts, fuel + 1, s, u, r, ds, hs, h => by
    obtain ⟨us, vs, hus, hvs, rfl⟩ := hts
    obtain ⟨t, us', rfl, ht⟩ := begins_tokens w hus
    rw [List.append_assoc, List.append_assoc] at hs
    rw [flowItems_separator hs ht, flowItems_cons rfl ht] at h
    obtain ⟨d, s', ds', hvalue, hrest, rfl⟩ := consItem_eq_some h
    obtain ⟨rfl, rfl⟩ := nodeFrom_tokens w _ hus fuel false false _ s' _ d rfl hvalue
    obtain ⟨rfl, rfl⟩ := flowItems_tokens items false vs hvs fuel _ u r ds' rfl hrest
    exact ⟨rfl, rfl⟩

theorem flowPairs_tokens : (members : List (List Piece × Written)) → ∀ (first : Bool)
    (ts : List Token), Written.MemberTokens first members ts → ∀ (fuel : Nat) (s u : Supply)
    (r : List Token) (ps : List (Draft × Draft)), s.tokens = ts ++ ([.flowMappingEnd] ++ r) →
    flowPairs fuel first s = (ps, some u) → ps = Written.pairDrafts members ∧ u = s.with_ r
  | members, first, ts, hts, 0, s, u, r, ps, hs, h => by
    rw [flowPairs] at h
    cases h
  | [], first, ts, hts, fuel + 1, s, u, r, ps, hs, h => by
    rw [Written.MemberTokens] at hts
    subst hts
    rw [flowPairs_end hs] at h
    cases h
    exact ⟨rfl, rfl⟩
  | (qs, w) :: members, first, ts, hts, fuel + 1, s, u, r, ps, hs, h => by
    obtain ⟨marks, us, vs, hmarks, hus, hvs, -, rfl⟩ := hts
    obtain ⟨t, us', rfl, ht⟩ := begins_tokens w hus
    simp only [List.append_assoc, List.cons_append] at hs
    rcases hmarks with rfl | rfl
    · rw [flowPairs_separator hs] at h
      exact absurd h (flowPairs_unmarked rfl ps)
    · rw [flowPairs_separator hs] at h
      obtain ⟨v, s', ps', hvalue, hrest, rfl⟩ := flowPairs_eq_some rfl ht h
      obtain ⟨rfl, rfl⟩ := nodeFrom_tokens w _ hus _ false false _ s' _ v rfl hvalue
      obtain ⟨rfl, rfl⟩ := flowPairs_tokens members false vs hvs fuel _ u r ps' rfl hrest
      exact ⟨rfl, rfl⟩

end

end

/-! ### Documents -/

namespace Document

open Scan (Solid word_eq_cons wordChars_solid tokens_of_isTextOf)

/-- The first character of a value is a solid one, and no white space. -/
theorem exists_lexemes_eq (w : Written) (h : w.Sound) : ∃ x xs c cs, w.lexemes = x :: xs ∧
    x.chars = c :: cs ∧ Solid c ∧ Text.isBlank c = false := by
  cases w with
  | word x =>
    obtain ⟨hchars, c, r, rfl, -⟩ := word_eq_cons h
    have hblank : ∀ d ∈ Scan.wordChars, Text.isBlank d = false :=
      List.all_iff_forall_prop.1 (by decide)
    have hc := hchars c (by simp)
    exact ⟨_, _, c, r, by rw [Written.lexemes], rfl, (wordChars_solid c hc).1, hblank c hc⟩
  | quoted ps => exact ⟨_, _, _, _, by rw [Written.lexemes], rfl, by decide⟩
  | array items => exact ⟨_, _, _, _, by rw [Written.lexemes], rfl, by decide⟩
  | object members => exact ⟨_, _, _, _, by rw [Written.lexemes], rfl, by decide⟩

/-- **A JSON text begins with blanks and a solid character.** -/
theorem exists_of_isTextOf {w : Written} {cs : List Char} (h : w.IsTextOf cs) :
    ∃ b c r, Blank b ∧ cs = b ++ (c :: r) ∧ Solid c ∧ Text.isBlank c = false := by
  obtain ⟨x, xs, c, r, hlexemes, hx, hc⟩ := exists_lexemes_eq w h.sound
  have hspaced := h.spaced
  rw [hlexemes] at hspaced
  cases hspaced with
  | @cons _ _ b m _ hb _ => exact ⟨b, c, r ++ m, hb, by rw [hx]; rfl, hc⟩

/-- No JSON text has a byte order mark. -/
theorem ne_byteOrderMark {w : Written} {c : Char} {cs : List Char} (h : w.IsTextOf (c :: cs)) :
    c ≠ byteOrderMark := by
  obtain ⟨b, d, r, hb, hcs, hd, -⟩ := exists_of_isTextOf h
  rintro rfl
  cases b with
  | nil =>
    obtain ⟨rfl, -⟩ := List.cons.inj hcs
    exact absurd hd (by decide)
  | cons e b =>
    obtain ⟨rfl, -⟩ := List.cons.inj hcs
    exact absurd (hb _ List.mem_cons_self) (by decide)

theorem ofTokens_of_begins {t : Token} {ts : List Token} (h : Begins t) : ofTokens (t :: ts) =
    ofReading (nodeFrom (4 * (t :: ts).length + 4) true false ⟨t :: ts, [], standardHandles⟩) := by
  cases h <;> rfl

/-- A text without a byte order mark in front is read as it stands. -/
theorem read_eq {text : String} (hmark : ∀ c ∈ text.toList.head?, c ≠ byteOrderMark) :
    read text = if text.toList.all isPrintable then ofTokens (tokens (placeFrom 0 0 0 text.toList))
      else broken := by
  have hplace : place? text.toList =
      if text.toList.all isPrintable then some (placeFrom 0 0 0 text.toList) else none := by
    generalize text.toList = cs at hmark ⊢
    rw [place?.eq_def]
    cases cs with
    | nil => rfl
    | cons c cs =>
      have hc : ¬ c = byteOrderMark := hmark c rfl
      simp only [if_neg hc]
  rw [read, hplace]
  split_ifs <;> rfl

/-- The tokens of a JSON text that is a whole YAML document. -/
theorem exists_tokens {w : Written} {text : String} (hw : w.IsTextOf text.toList)
    (h : (read text).whole = true) :
    ∃ ts, w.Tokens ts ∧ read text = ofTokens (ts ++ [.streamEnd]) := by
  have hmark : ∀ c ∈ text.toList.head?, c ≠ byteOrderMark := by
    intro c hc
    obtain ⟨cs, hcs⟩ := List.head?_eq_some_iff.1 hc
    exact ne_byteOrderMark (hcs ▸ hw)
  rw [read_eq hmark] at h ⊢
  split_ifs at h ⊢
  · obtain ⟨ts, hts, htokens⟩ := tokens_of_isTextOf hw (streamEnd_mem_of_whole h)
    exact ⟨ts, hts, by rw [htokens]⟩
  · cases h

/-- **A JSON text that is a whole YAML document is read as its own tree.** -/
theorem root_of_isTextOf {w : Written} {text : String} (hw : w.IsTextOf text.toList)
    (h : (Document.read text).whole = true) :
    (Document.read text).root = some w.yamlDraft := by
  obtain ⟨ts, hts, hread⟩ := exists_tokens hw h
  obtain ⟨t, ts', rfl, ht⟩ := begins_tokens w hts
  rw [hread, List.cons_append, ofTokens_of_begins ht] at h ⊢
  obtain ⟨u, hu, -⟩ := (Option.any_eq_true _ _).1 h
  obtain ⟨hd, -⟩ := nodeFrom_tokens w _ hts _ true false
    ⟨t :: (ts' ++ [.streamEnd]), [], standardHandles⟩ u [.streamEnd] _ rfl (Prod.ext rfl hu)
  rw [← hd]
  rfl

/-- YAML can read the keys of a whole document, so none of them holds half of a surrogate pair. -/
theorem alone_of_isTextOf {members : List (List Piece × Written)} {text : String}
    (hw : (Written.object members).IsTextOf text.toList) (h : (read text).whole = true) :
    ∀ m ∈ members, ∀ p ∈ m.1, Alone p := by
  obtain ⟨ts, hts, -⟩ := exists_tokens hw h
  rw [Written.Tokens] at hts
  obtain ⟨us, hus, -⟩ := hts
  clear hw h
  generalize true = first at hus
  induction members generalizing first us with
  | nil => exact fun m hm => nomatch hm
  | cons m members ih =>
    obtain ⟨ps, w⟩ := m
    obtain ⟨-, -, vs, -, -, hvs, halone, -⟩ := hus
    exact List.forall_mem_cons.2 ⟨halone, ih vs false hvs⟩

end Document

end Scaffold.Yaml
