import Scaffold.Proofs.Markup.Spelling

/-!
# Comments and instructions in content

An `Aside` is a comment or an instruction. A text is `Interspersed` with asides where they stand
anywhere between its characters, so that it is read in several pieces. `Carries` says which items the
reader makes of such content, asides apart, and `Shows` the same of an element. Both are put together
from their parts (`carries_interspersed`, `Carries.cons`, `Carries.element`), and a document is read to
its end (`Carries.events`).
-/

namespace Scaffold.Markup

open Item

/-! ### Asides -/

/-- **A comment or an instruction.** What ends it does not occur in it before. -/
inductive Aside : List Char → Prop
  | comment (body : List Char) : ¬ "-->".toList <:+: body →
      Aside ("<!--".toList ++ (body ++ "-->".toList))
  | instruction (body : List Char) : ¬ "?>".toList <:+: '?' :: body →
      Aside ("<?".toList ++ (body ++ "?>".toList))

theorem closedBy?_append {stop : List Char → Bool} {cs before : List Char} (r : List Char)
    (hno : ∀ pre post, cs = pre ++ '>' :: post → stop (pre.reverse ++ before) = false)
    (hstop : stop (cs.reverse ++ before) = true) :
    closedBy? stop before (cs ++ '>' :: r) = some (before.reverse ++ cs, r) := by
  induction cs generalizing before with
  | nil =>
    have hb : stop before = true := by simpa using hstop
    simp [closedBy?, hb]
  | cons c cs ih =>
    have hc : ¬ (c = '>' ∧ stop before = true) := by
      rintro ⟨rfl, hb⟩
      have hfirst := hno [] cs rfl
      simp only [List.reverse_nil, List.nil_append, hb] at hfirst
      cases hfirst
    rw [List.cons_append, closedBy?, if_neg hc, ih]
    · simp
    · intro pre post h
      have hpre := hno (c :: pre) post (by rw [h, List.cons_append])
      simpa using hpre
    · simpa using hstop

/-- A mark that ends in `>` and begins in a text does not reach behind it into one without `>`. -/
theorem infix_of_append_eq {xs tail : List Char} (q mark post : List Char) (htail : '>' ∉ tail)
    (h : xs ++ tail = (q ++ (mark ++ ['>'])) ++ post) : mark ++ ['>'] <:+: xs := by
  rcases List.append_eq_append_iff.1 h with ⟨as, hq, ht⟩ | ⟨as, hxs, -⟩
  · rcases List.eq_nil_or_concat as with rfl | ⟨as', c, rfl⟩
    · rw [List.append_nil] at hq
      exact ⟨q, [], by rw [List.append_nil, hq]⟩
    · -- the last character of the mark would be one of the tail
      have hlast := congrArg List.getLast? hq
      simp only [List.concat_eq_append, ← List.append_assoc, List.getLast?_concat,
        Option.some.injEq] at hlast
      subst hlast
      exact absurd (by rw [ht]; simp) htail
  · exact ⟨q, as, by rw [hxs]⟩

theorem exists_of_endsComment {pre : List Char} (h : endsComment pre.reverse = true) :
    ∃ q, pre = q ++ ['-', '-'] ∧ 3 ≤ q.length := by
  rw [endsComment.eq_def] at h
  split at h
  next r hr =>
    have hpre := congrArg List.reverse hr
    rw [List.reverse_reverse] at hpre
    exact ⟨r.reverse, by simpa using hpre, by simpa using h⟩
  · cases h

theorem exists_of_endsInstruction {pre : List Char} (h : endsInstruction pre.reverse = true) :
    ∃ q, pre = q ++ ['?'] := by
  rw [endsInstruction.eq_def] at h
  split at h
  next r hr =>
    have hpre := congrArg List.reverse hr
    rw [List.reverse_reverse] at hpre
    exact ⟨r.reverse, by simpa using hpre⟩
  · cases h

theorem closedBy?_comment {body : List Char} (h : ¬ "-->".toList <:+: body) (r : List Char) :
    closedBy? endsComment [] (('!' :: '-' :: '-' :: (body ++ ['-', '-'])) ++ '>' :: r) =
      some ('!' :: '-' :: '-' :: (body ++ ['-', '-']), r) := by
  refine closedBy?_append r (fun pre post heq => ?_) ?_
  · rw [List.append_nil, Bool.eq_false_iff]
    intro hends
    obtain ⟨q, rfl, hq⟩ := exists_of_endsComment hends
    -- the mark begins behind that of the beginning
    obtain ⟨q', rfl⟩ : ∃ q', q = '!' :: '-' :: '-' :: q' := by
      match q, hq with
      | a :: b :: c :: q', _ =>
        simp only [List.cons_append, List.cons.injEq] at heq
        obtain ⟨rfl, rfl, rfl, -⟩ := heq
        exact ⟨q', rfl⟩
    have hmark : (body ++ ['-', '-']) = (q' ++ (['-', '-'] ++ ['>'])) ++ post := by simpa using heq
    exact h (infix_of_append_eq q' ['-', '-'] post (by decide) hmark)
  · simp [endsComment]

theorem closedBy?_instruction {body : List Char} (h : ¬ "?>".toList <:+: '?' :: body)
    (r : List Char) : closedBy? endsInstruction [] (('?' :: (body ++ ['?'])) ++ '>' :: r) =
      some ('?' :: (body ++ ['?']), r) := by
  refine closedBy?_append r (fun pre post heq => ?_) ?_
  · rw [List.append_nil, Bool.eq_false_iff]
    intro hends
    obtain ⟨q, rfl⟩ := exists_of_endsInstruction hends
    have hmark : ('?' :: body) ++ ['?'] = (q ++ (['?'] ++ ['>'])) ++ post := by simpa using heq
    exact h (infix_of_append_eq q ['?'] post (by decide) hmark)
  · simp [endsInstruction]

variable {names : List String} {cs ds xs : List Char} {es : List Event} {i : Item} {c d : List Item}
  {tag : String} {a : List (String × String)} {s last : String}

/-- **An aside is passed over.** -/
theorem Aside.reads (h : Aside cs) (names : List String) : Reads names cs [.other] names := by
  cases h with
  | comment body hbody =>
    change Reads names ('<' :: '!' :: '-' :: '-' :: (body ++ ['-', '-', '>'])) [.other] names
    refine reads_construct fun position r => ?_
    have hclosed := closedBy?_comment hbody r
    have htext : ('!' :: '-' :: '-' :: (body ++ ['-', '-', '>'])) ++ r =
        '!' :: '-' :: '-' :: (body ++ ['-', '-'] ++ '>' :: r) := by simp
    simp only [List.cons_append] at hclosed
    rw [htext, construct]
    simp only [declaration, hclosed]
    exact ⟨_, rfl⟩
  | instruction body hbody =>
    change Reads names ('<' :: '?' :: (body ++ ['?', '>'])) [.other] names
    refine reads_construct fun position r => ?_
    have hclosed := closedBy?_instruction hbody r
    have htext : ('?' :: (body ++ ['?', '>'])) ++ r = '?' :: (body ++ ['?'] ++ '>' :: r) := by simp
    simp only [List.cons_append] at hclosed
    rw [htext, construct]
    simp only [Markup.instruction, hclosed]
    simp
    exact ⟨_, rfl⟩

theorem Aside.head (h : Aside cs) : cs.head? = some '<' := by
  cases h <;> rfl

/-- **The written forms of a text**: its characters, escaped, with asides anywhere between them. -/
inductive Interspersed : List Char → List Char → Prop
  | nil : Interspersed [] []
  | char (c : Char) {s cs : List Char} : Interspersed s cs →
      Interspersed (c :: s) (escapeChar c ++ cs)
  | aside {x s cs : List Char} : Aside x → Interspersed s cs → Interspersed s (x ++ cs)

/-- A text in front, without asides. -/
theorem Interspersed.append {s cs : List Char} (h : Interspersed s cs) (t : List Char) :
    Interspersed (t ++ s) (escape t ++ cs) := by
  induction t with
  | nil => exact h
  | cons c t ih =>
    rw [escape_cons, List.append_assoc]
    exact .char c ih

theorem Interspersed.escape (s : List Char) : Interspersed s (escape s) := by
  simpa using Interspersed.nil.append s

/-! ### Content -/

/-- The text is this element, wherever it stands, asides apart. -/
structure Shows (cs : List Char) (i : Item) : Prop where
  head : cs.head? = some '<'
  reads : ∃ es, (∀ names, Reads names cs es names) ∧ es.filter (· != .other) = i.events

/-- **The reader makes these items of content**, asides apart: those of some markup, and behind it
those of a last text. -/
def Carries (cs : List Char) (c : List Item) : Prop :=
  ∃ ds es d last, (∀ names, Reads names ds es names) ∧
    es.filter (· != .other) = eventsOfList d ∧ cs = ds ++ escape last.toList ∧ c = d ++ ofText last

theorem carries_text (s : String) : Carries (escape s.toList) (ofText s) := by
  have hnil : ∀ names, Reads names [] [] names := fun names fuel position r hfuel =>
    ⟨fuel, position, hfuel, by simp [Prod.map]⟩
  exact ⟨[], [], [], s, hnil, by simp [eventsOfList], rfl, rfl⟩

/-- Text in front of an element or an aside. -/
theorem reads_text (hes : ∀ names, Reads names xs es names) (hhead : xs.head? = some '<')
    (s : String) (names : List String) :
    Reads names (escape s.toList ++ xs) (eventsOfList (ofText s) ++ es) names :=
  leads_text names s _ _ _ hhead (hes names)

/-- **Content, an element, and content.** -/
theorem Carries.cons (hc : Carries cs c) (hx : Shows xs i) (hd : Carries ds d) :
    Carries (cs ++ (xs ++ ds)) (c ++ i :: d) := by
  obtain ⟨bs, es, b, s, hes, hb, rfl, rfl⟩ := hc
  obtain ⟨fs, hfs, hi⟩ := hx.reads
  obtain ⟨ds, gs, d, last, hgs, hd, rfl, rfl⟩ := hd
  refine ⟨bs ++ ((escape s.toList ++ xs) ++ ds), es ++ ((eventsOfList (ofText s) ++ fs) ++ gs),
    b ++ ((ofText s ++ [i]) ++ d), last, fun names => ?_, ?_, by simp, by simp⟩
  · exact (hes names).append ((reads_text hfs hx.head s names).append (hgs names))
  · simp only [List.filter_append, filter_eventsOfList, eventsOfList_append,
      eventsOfList_singleton, hb, hi, hd]

/-- Text and an aside in front of content. -/
theorem Carries.aside (hd : Carries ds d) (hx : Aside xs) (s : String) :
    Carries (escape s.toList ++ (xs ++ ds)) (ofText s ++ d) := by
  obtain ⟨ds, es, d, last, hes, hd, rfl, rfl⟩ := hd
  refine ⟨(escape s.toList ++ xs) ++ ds, (eventsOfList (ofText s) ++ [.other]) ++ es, ofText s ++ d,
    last, fun names => ?_, ?_, by simp, by simp⟩
  · exact (reads_text hx.reads hx.head s names).append (hes names)
  · simp only [List.filter_append, filter_eventsOfList, eventsOfList_append, hd]
    simp

theorem isElement_of_mem_ofText (h : i ∈ ofText s) : i.isElement = false := by
  rw [ofText] at h
  split_ifs at h
  · cases h
  · rw [List.mem_singleton.1 h]
    rfl

theorem leadingText_ofText (s : String) : leadingText (ofText s) = s := by
  rw [ofText]
  split_ifs with hs
  · exact hs.symm
  · simp [leadingText]

/-- **A text that is interspersed with asides** is read as texts that make up the whole of it. The
characters up to the next aside make up one of them. -/
theorem carries_interspersed {s : List Char} (h : Interspersed s cs) (lead : String) :
    ∃ c, Carries (escape lead.toList ++ cs) c ∧ (∀ i ∈ c, i.isElement = false) ∧
      leadingText c = lead ++ String.ofList s := by
  induction h generalizing lead with
  | nil =>
    refine ⟨ofText lead, ?_, fun i => isElement_of_mem_ofText, by simp [leadingText_ofText]⟩
    rw [List.append_nil]
    exact carries_text lead
  | @char x s cs _ ih =>
    obtain ⟨c, hc, htexts, hlead⟩ := ih (lead ++ String.singleton x)
    refine ⟨c, ?_, htexts, ?_⟩
    · rw [String.toList_append, escape_append] at hc
      simpa [escape] using hc
    · rw [hlead, String.append_assoc]
      congr 1
      exact String.toList_injective (by simp)
  | @aside x s cs hx _ ih =>
    obtain ⟨c, hc, htexts, hlead⟩ := ih ""
    have hno : (ofText lead).any isElement = false := by
      rw [List.any_eq_false]
      exact fun i hi => by simp [isElement_of_mem_ofText hi]
    refine ⟨ofText lead ++ c, Carries.aside (by simpa [escape] using hc) hx lead, fun i hi => ?_, ?_⟩
    · exact (List.mem_append.1 hi).elim isElement_of_mem_ofText (htexts i)
    · rw [leadingText_append, hno, leadingText_ofText, hlead]
      simp

/-- **An element with content between its tags.** -/
theorem Carries.element (h : Carries cs c) (ht : IsName tag) (ha : ∀ e ∈ a, IsName e.1)
    (hd : (Entries.keys a).Nodup) : Shows (elementText tag a cs) (.element tag a c) := by
  obtain ⟨ds, es, d, last, hes, hd', rfl, rfl⟩ := h
  refine ⟨rfl, .start tag a :: (es ++ eventsOfList (ofText last)) ++ [.finish], fun names => ?_, ?_⟩
  · have hcontent : Leads (tag :: names) (ds ++ escape last.toList)
        (es ++ eventsOfList (ofText last)) := by
      intro markup fs after hhead hmarkup
      have hall := (hes (tag :: names)).append (leads_text _ last _ _ _ hhead hmarkup)
      simpa only [List.append_assoc] using hall
    have hall := (reads_start ht ha hd).append (hcontent _ _ _ rfl (reads_finish ht))
    simpa only [elementText, List.singleton_append, List.nil_append, List.cons_append,
      List.append_assoc] using hall
  · simp [Item.events, eventsOfList_append, filter_eventsOfList, hd']

/-- An element that is written without an end tag. -/
theorem shows_empty (ht : IsName tag) (ha : ∀ e ∈ a, IsName e.1) (hd : (Entries.keys a).Nodup) :
    Shows ('<' :: (tagText tag a ++ ['/', '>'])) (.empty tag a) := by
  refine ⟨rfl, [.empty tag a], fun names => reads_construct fun position r => ?_, rfl⟩
  obtain ⟨⟨c, cs, htext, hc⟩, -⟩ := tagText_ends ht a
  have hend : tagEnd? none (tagText tag a ++ '/' :: '>' :: r) = some (tagText tag a ++ ['/'], r) := by
    rw [passed_tagText ht ha]
    simp [tagEnd?]
  have hconstruct := construct_tag names position hc
    (by rw [← List.cons_append, ← htext]; exact hend)
  rw [← List.cons_append, ← htext] at hconstruct
  rw [List.append_assoc, List.cons_append, List.singleton_append, hconstruct, startTag]
  simp only [List.getLast?_concat, if_true, List.dropLast_concat, tagParts_tagText ht ha hd]
  exact ⟨_, rfl⟩

/-- **Content is read to the end of a document.** -/
theorem Carries.events (h : Carries cs c) (hmark : cs.head? ≠ some byteOrderMark) :
    ∃ es, Markup.events cs = (es, none) ∧ es.filter (· != .other) = eventsOfList c := by
  obtain ⟨ds, es, d, last, hes, hd, rfl, rfl⟩ := h
  refine ⟨es ++ eventsOfList (ofText last), ?_, by
    rw [List.filter_append, filter_eventsOfList, hd, eventsOfList_append]⟩
  have hfrom : Markup.events (ds ++ escape last.toList) =
      eventsFrom ((ds ++ escape last.toList).length + 1) ⟨0, [], ds ++ escape last.toList⟩ := by
    rw [Markup.events.eq_def]
    split
    next x r heq =>
      rw [heq] at hmark ⊢
      rw [if_neg (by simpa using hmark)]
    next heq => rw [heq]
  obtain ⟨f, p, hf, hread⟩ := hes [] _ 0 (escape last.toList) (Nat.lt_succ_self _)
  rw [hfrom, hread, eventsFrom_last last hf]
  rfl

end Scaffold.Markup
