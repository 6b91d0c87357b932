import Scaffold.Proofs.Markup.Written

/-!
# Written markup in its place

`Reads` says which events the reader makes of a piece of markup, wherever it stands, and `Leads` the
same of text and markup in front of more markup. Both are closed under concatenation (`Reads.append`,
`Leads.cons`), so the events of an element are those between its tags (`Leads.element`), and a
document is read to its end (`events_document`).
-/

namespace Scaffold.Markup

variable {tag : String} {a : List (String × String)}

/-- **The reader makes these events of a piece of markup**, wherever it stands. The names are those
of the open elements before and behind the piece. -/
def Reads (before : List String) (cs : List Char) (es : List Event) (after : List String) : Prop :=
  ∀ fuel position r, (cs ++ r).length < fuel → ∃ fuel' position', r.length < fuel' ∧
    eventsFrom fuel ⟨position, before, cs ++ r⟩ =
      (eventsFrom fuel' ⟨position', after, r⟩).map (es ++ ·) id

variable {before after names : List String} {cs ds : List Char} {es fs : List Event}

theorem Reads.append (hc : Reads before cs es names) (hd : Reads names ds fs after) :
    Reads before (cs ++ ds) (es ++ fs) after := by
  intro fuel position r hfuel
  rw [List.append_assoc] at hfuel ⊢
  obtain ⟨f, p, hf, hes⟩ := hc fuel position (ds ++ r) hfuel
  obtain ⟨g, q, hg, hfs⟩ := hd f p r hf
  refine ⟨g, q, hg, ?_⟩
  rw [hes, hfs, Prod.map_map]
  simp only [Function.comp_def, id, List.append_assoc]
  rfl

/-- A construct is read as one event. -/
theorem reads_construct {e : Event}
    (h : ∀ position r, ∃ position', construct ⟨position, before, cs ++ r⟩ =
      .ok (e, ⟨position', after, r⟩)) : Reads before ('<' :: cs) [e] after := by
  intro fuel position r hfuel
  obtain ⟨fuel, rfl⟩ := Nat.exists_eq_add_one_of_ne_zero (Nat.ne_zero_of_lt hfuel)
  obtain ⟨position', hread⟩ := h (position + 1) r
  refine ⟨fuel, position', ?_, ?_⟩
  · simp at hfuel
    omega
  · rw [List.cons_append, eventsFrom]
    simp only [hread]
    rfl

/-- The text of a tag starts with a letter of its name, and does not end in a slash. -/
theorem tagText_ends (ht : IsName tag) (a : List (String × String)) :
    (∃ c r, tagText tag a = c :: r ∧ isNameChar c = true) ∧
      (tagText tag a).getLast? ≠ some '/' := by
  obtain ⟨c, r, hc, hname, hr⟩ := ht.exists_cons
  refine ⟨⟨c, _, by rw [tagText, hc, List.cons_append], hname⟩, ?_⟩
  rcases List.eq_nil_or_concat a with rfl | ⟨a, e, rfl⟩
  · rw [tagText, List.flatMap_nil, List.append_nil]
    intro hlast
    exact isNameChar_ne (ht.plain '/' (List.mem_of_getLast? hlast)) (by decide) rfl
  · have hsplit : tagText tag (a.concat e) = (tag.toList ++ a.flatMap attributeText ++
        (' ' :: (e.1.toList ++ '=' :: '"' :: escape e.2.toList))) ++ ['"'] := by
      simp [tagText, attributeText]
    rw [hsplit, List.getLast?_concat]
    decide

/-- What starts with a letter of a name is a start tag. -/
theorem construct_tag (before : List String) {c : Char} {r content rest : List Char} (position : Nat)
    (hc : isNameChar c = true) (hend : tagEnd? none (c :: r) = some (content, rest)) :
    construct ⟨position, before, c :: r⟩ = startTag ⟨position, before, c :: r⟩ content rest := by
  have hne := fun d => isNameChar_ne (d := d) hc
  rw [construct]
  simp only
  split
  · simp_all
  · simp_all
  · simp_all
  · simp_all
  · rename_i h1 h2 h3 h4
    rw [hend]

theorem reads_start (ht : IsName tag) (ha : ∀ e ∈ a, IsName e.1) (hd : (Entries.keys a).Nodup) :
    Reads names ('<' :: (tagText tag a ++ ['>'])) [.start tag a] (tag :: names) := by
  refine reads_construct fun position r => ?_
  obtain ⟨⟨c, cs, htext, hc⟩, hlast⟩ := tagText_ends ht a
  have hend : tagEnd? none (tagText tag a ++ '>' :: r) = some (tagText tag a, r) := by
    rw [passed_tagText ht ha]
    simp [tagEnd?]
  have hconstruct := construct_tag names position hc
    (by rw [← List.cons_append, ← htext]; exact hend)
  rw [← List.cons_append, ← htext] at hconstruct
  rw [List.append_assoc, List.singleton_append, hconstruct, startTag]
  simp only [if_neg hlast, tagParts_tagText ht ha hd]
  exact ⟨_, rfl⟩

theorem reads_finish (ht : IsName tag) :
    Reads (tag :: names) ('<' :: '/' :: (tag.toList ++ ['>'])) [.finish] names := by
  refine reads_construct fun position r => ?_
  have hend : tagEnd? none (tag.toList ++ '>' :: r) = some (tag.toList, r) := by
    rw [ht.passed]
    simp [tagEnd?]
  obtain ⟨c, cs, hcs, hc, -⟩ := ht.exists_cons
  -- the name has no white space behind it
  have hname : endName tag.toList = tag.toList := by
    have hlast : ∀ x ∈ tag.toList.reverse.head?, isSpace x = false := fun x hx =>
      isNameChar_not_space (ht.plain x (List.mem_reverse.1 (List.mem_of_mem_head? hx)))
    rw [endName, if_neg (by rw [hcs]; simp [isNameChar_not_space hc]), Text.dropEndWhile]
    cases hrev : tag.toList.reverse with
    | nil => simp_all
    | cons x xs =>
      rw [List.dropWhile_cons_of_neg (by simp [hlast x (by simp [hrev])]), ← hrev,
        List.reverse_reverse]
  rw [List.cons_append, List.append_assoc, List.singleton_append, construct]
  simp only [hend, endTag, hname, String.ofList_toList, if_true]
  exact ⟨_, rfl⟩

/-! ### Text before markup -/

/-- The items of a text between tags: none if it is empty. -/
def Item.ofText (s : String) : List Item := if s = "" then [] else [.text s]

theorem Item.mirrorsList_ofText {mode : TextMode} (s : String) :
    Item.MirrorsList mode (Item.ofText s) [] := by
  rw [ofText]
  split_ifs
  · rw [MirrorsList]
  · exact mirrorsList_text rfl

theorem Item.textOf?_ofText (s : String) :
    Item.textOf? .raw (Item.ofText s) = if s = "" then none else some s := by
  by_cases hs : s = "" <;> simp [ofText, textOf?, leadingText, isElement, hs]

/-- **The reader makes these events of a piece that stands in front of markup.** -/
def Leads (names : List String) (cs : List Char) (es : List Event) : Prop :=
  ∀ markup fs after, markup.head? = some '<' → Reads names markup fs after →
    Reads names (cs ++ markup) (es ++ fs) after

theorem Reads.leads (h : Reads names cs es names) : Leads names cs es :=
  fun _ _ _ _ hmarkup => h.append hmarkup

/-- Escaped text that is not empty is read up to the next angle bracket. -/
theorem eventsFrom_text (names : List String) {s : String} (hs : s ≠ "") {r : List Char}
    (hr : r = [] ∨ r.head? = some '<') (fuel position : Nat) : ∃ position',
      eventsFrom (fuel + 1) ⟨position, names, escape s.toList ++ r⟩ =
        (eventsFrom fuel ⟨position', names, r⟩).map (.text s :: ·) id := by
  have hne : ∀ c ∈ escape s.toList, (c != '<') = true := by
    intro c hc
    have hno := not_mem_escape s.toList '<' (by simp)
    simp only [bne_iff_ne]
    rintro rfl
    exact hno hc
  obtain ⟨c, cs, hcs⟩ := List.exists_cons_of_ne_nil (escape_ne_nil (String.toList_eq_nil_iff.not.2 hs))
  have hstop : r.takeWhile (· != '<') = [] ∧ r.dropWhile (· != '<') = r := by
    rcases hr with rfl | hr
    · exact ⟨rfl, rfl⟩
    · obtain ⟨t, rfl⟩ := List.head?_eq_some_iff.1 hr
      exact ⟨rfl, rfl⟩
  have htake : (escape s.toList ++ r).takeWhile (· != '<') = escape s.toList := by
    rw [List.takeWhile_append_of_pos hne, hstop.1, List.append_nil]
  have hdrop : (escape s.toList ++ r).dropWhile (· != '<') = r := by
    rw [List.dropWhile_append_of_pos hne, hstop.2]
  have hc : c ≠ '<' := by simpa using hne c (by simp [hcs])
  rw [eventsFrom]
  split
  · simp_all
  · simp_all
  · simp only [htake, hdrop, resolve_escape, String.ofList_toList]
    exact ⟨_, rfl⟩

theorem leads_text (names : List String) (s : String) :
    Leads names (escape s.toList) (Item.eventsOfList (Item.ofText s)) := by
  intro markup fs after hhead hmarkup
  by_cases hs : s = ""
  · subst hs
    exact hmarkup
  · intro fuel position r hfuel
    obtain ⟨fuel, rfl⟩ := Nat.exists_eq_add_one_of_ne_zero (Nat.ne_zero_of_lt hfuel)
    rw [List.append_assoc] at hfuel ⊢
    obtain ⟨p, hp⟩ := eventsFrom_text names hs (r := markup ++ r)
      (.inr (by rw [List.head?_append, hhead]; rfl)) fuel position
    have hpos := List.length_pos_of_ne_nil (escape_ne_nil (String.toList_eq_nil_iff.not.2 hs))
    obtain ⟨f, q, hf, hfs⟩ := hmarkup fuel p r (by rw [List.length_append] at hfuel; omega)
    refine ⟨f, q, hf, ?_⟩
    rw [hp, hfs, Prod.map_map, Item.ofText, if_neg hs]
    rfl

/-- Text, a construct, and what follows it. -/
theorem Leads.cons (hd : Leads names ds fs) (hc : Reads names cs es names)
    (hhead : cs.head? = some '<') (s : String) :
    Leads names (escape s.toList ++ (cs ++ ds)) (Item.eventsOfList (Item.ofText s) ++ (es ++ fs)) := by
  intro markup gs after hmarkup hgs
  have hrest := hc.append (hd _ _ _ hmarkup hgs)
  have hall := leads_text names s _ _ _ (by rw [List.head?_append, hhead]; rfl) hrest
  simpa only [List.append_assoc] using hall

/-- An element with this between its tags. -/
def elementText (tag : String) (a : List (String × String)) (content : List Char) : List Char :=
  '<' :: (tagText tag a ++ ['>']) ++ (content ++ '<' :: '/' :: (tag.toList ++ ['>']))

/-- **The events of an element** are those of its content between its tags. -/
theorem Leads.element {c : List Item} (h : Leads (tag :: names) cs (Item.eventsOfList c))
    (ht : IsName tag) (ha : ∀ e ∈ a, IsName e.1) (hd : (Entries.keys a).Nodup) :
    Reads names (elementText tag a cs) (Item.element tag a c).events names :=
  (reads_start ht ha hd).append (h _ _ _ rfl (reads_finish ht))

theorem eventsFrom_last (s : String) {fuel : Nat} (hfuel : (escape s.toList).length < fuel)
    (position : Nat) : eventsFrom fuel ⟨position, names, escape s.toList⟩ =
      (Item.eventsOfList (Item.ofText s), none) := by
  obtain ⟨fuel, rfl⟩ := Nat.exists_eq_add_one_of_ne_zero (Nat.ne_zero_of_lt hfuel)
  by_cases hs : s = ""
  · subst hs
    rfl
  · obtain ⟨p, hp⟩ := eventsFrom_text names hs (.inl rfl) fuel position
    rw [List.append_nil] at hp
    rw [hp, Item.ofText, if_neg hs]
    cases fuel <;> rfl

/-- **A document is read to its end**, with blank text around its root. -/
theorem events_document (h : Reads [] cs es []) (hhead : cs.head? = some '<') {lead : String}
    (hlead : Text.isBlankText lead = true) (trail : String) :
    events (escape lead.toList ++ (cs ++ escape trail.toList)) =
      (Item.eventsOfList (Item.ofText lead) ++ (es ++ Item.eventsOfList (Item.ofText trail)),
        none) := by
  have hmark : ∀ r, events (escape lead.toList ++ (cs ++ r)) =
      eventsFrom ((escape lead.toList ++ (cs ++ r)).length + 1)
        ⟨0, [], escape lead.toList ++ (cs ++ r)⟩ := by
    intro r
    obtain ⟨t, rfl⟩ := List.head?_eq_some_iff.1 hhead
    cases hl : lead.toList with
    | nil => rfl
    | cons c l =>
      have hc : Text.isBlank c = true := List.all_eq_true.1 hlead c (by simp [hl])
      rw [escape_cons]
      rcases escapeChar_cases c with ⟨heq, -⟩ | ⟨name, heq, -⟩
      · have hne : c ≠ byteOrderMark := by
          rintro rfl
          exact absurd hc (by decide)
        rw [heq, List.singleton_append, List.cons_append, events.eq_def]
        simp only [if_neg hne]
      · rw [heq]
        rfl
  have hroot := leads_text [] lead _ _ _ hhead h
  obtain ⟨f, p, hf, hes⟩ := hroot _ 0 (escape trail.toList) (Nat.lt_succ_self _)
  rw [hmark, ← List.append_assoc, hes, eventsFrom_last trail hf]
  simp

end Scaffold.Markup
