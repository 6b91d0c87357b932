import Scaffold.Markup.Document
import Scaffold.Proofs.Tree.Attributes

/-!
# Items of XML documents

The grammar of documents, apart from the machine that reads them. An `Item` is a text, or an
element with the items between its tags, and `Item.events` are the events of its markup.
`Item.Mirrors` says which node an element stands for: its name, its text before its attributes, and
the nodes of its child elements. There is such a node exactly if the element is `Item.Sound`
(`Mirrors.sound`, `exists_mirrors`).
-/

namespace Scaffold.Markup

/-- The attributes of a tag; other events have none. -/
def Event.attributes : Event → List (String × String)
  | .start _ a => a
  | .empty _ a => a
  | _ => []

/-- No name is repeated among the attributes of a tag. -/
def Event.DistinctKeys (e : Event) : Prop := (Entries.keys e.attributes).Nodup

instance (e : Event) : Decidable e.DistinctKeys :=
  inferInstanceAs (Decidable (Entries.keys e.attributes).Nodup)

/-- A piece of a document: a text, or an element and the pieces between its tags. -/
inductive Item
  | text (s : String)
  | cdata (s : String)
  | empty (tag : String) (attributes : List (String × String))
  | element (tag : String) (attributes : List (String × String)) (content : List Item)

namespace Item

mutual

/-- The events of an item, from its start to its end. -/
def events : Item → List Event
  | text s => [.text s]
  | cdata s => [.cdata s]
  | empty t a => [.empty t a]
  | element t a c => .start t a :: (eventsOfList c ++ [.finish])

def eventsOfList : List Item → List Event
  | [] => []
  | i :: r => events i ++ eventsOfList r

end

def isElement : Item → Bool
  | text _ => false
  | cdata _ => false
  | empty _ _ => true
  | element _ _ _ => true

/-- Texts of nothing but blanks. -/
def isBlank : Item → Bool
  | text s => Text.isBlankText s
  | cdata s => Text.isBlankText s
  | empty _ _ => false
  | element _ _ _ => false

/-- All texts before the first element, one after the other. -/
def leadingText : List Item → String
  | text s :: r => s ++ leadingText r
  | cdata s :: r => s ++ leadingText r
  | _ => ""

/-- The text of an element with this content. As it is written, it is left out if it is empty, and
also if it is blank and an element follows. -/
def textOf? : TextMode → List Item → Option String
  | .normalized, c => Text.trimmed? (leadingText c)
  | .raw, c =>
    if leadingText c = "" ∨ (Text.isBlankText (leadingText c) = true ∧ c.any isElement = true) then
      none
    else some (leadingText c)

/-- The attributes of a node: its text, and then those of the tag as strings. -/
def nodeEntries (text : Option String) (a : List (String × String)) : List (String × Json) :=
  (text.map fun s => (textName, Json.string s)).toList ++ a.map fun e => (e.1, Json.string e.2)

/-- A tag that can become a node: it has a name, none of its attributes is reserved, and none is
named as the text where there is a text. -/
structure SoundTag (tag : String) (a : List (String × String)) (text : Option String) : Prop where
  tag_ne : tag ≠ ""
  free : ∀ k ∈ Entries.keys a, k ∉ reservedNames
  single : textName ∈ Entries.keys a → text = none

mutual

/-- Every element in the item can become a node. -/
def Sound (mode : TextMode) : Item → Prop
  | text _ => True
  | cdata _ => True
  | empty t a => SoundTag t a none
  | element t a c => SoundTag t a (textOf? mode c) ∧ SoundList mode c

def SoundList (mode : TextMode) : List Item → Prop
  | [] => True
  | i :: r => Sound mode i ∧ SoundList mode r

end

mutual

/-- **The node that an element stands for**: its name, its text and its attributes in their order,
and as children the nodes of its elements. -/
def Mirrors (mode : TextMode) : Item → Node → Prop
  | text _, _ => False
  | cdata _, _ => False
  | empty t a, n => n.tag = t ∧ n.attributes.entries = nodeEntries none a ∧ n.children = []
  | element t a c, n =>
    n.tag = t ∧ n.attributes.entries = nodeEntries (textOf? mode c) a ∧ MirrorsList mode c n.children

/-- The nodes are those of the elements in the list, in their order. -/
def MirrorsList (mode : TextMode) : List Item → List Node → Prop
  | [], ns => ns = []
  | i :: r, ns =>
    (isElement i = false ∧ MirrorsList mode r ns) ∨
      ∃ n ms, ns = n :: ms ∧ Mirrors mode i n ∧ MirrorsList mode r ms

end

variable {mode : TextMode} {i : Item} {c d : List Item} {n : Node} {ns ms : List Node}

theorem eventsOfList_append (c d : List Item) :
    eventsOfList (c ++ d) = eventsOfList c ++ eventsOfList d := by
  induction c with
  | nil => simp [eventsOfList]
  | cons i r ih => rw [List.cons_append, eventsOfList, eventsOfList, ih, List.append_assoc]

theorem eventsOfList_singleton (i : Item) : eventsOfList [i] = events i := by simp [eventsOfList]

theorem events_text (h : i.isElement = false) : ∃ e s, i.events = [e] ∧ leadingText [i] = s ∧
    (e = .text s ∨ e = .cdata s) := by
  cases i with
  | text s => exact ⟨.text s, s, rfl, by simp [leadingText], .inl rfl⟩
  | cdata s => exact ⟨.cdata s, s, rfl, by simp [leadingText], .inr rfl⟩
  | empty t a => simp [isElement] at h
  | element t a d => simp [isElement] at h

/-! ### Items that have the same events -/

mutual

/-- **The events of an item tell the item**, whatever comes behind them. -/
theorem events_append_inj : (i j : Item) → (x y : List Event) →
    i.events ++ x = j.events ++ y → i = j ∧ x = y
  | text s, j, x, y, h => by
    cases j with
    | text s' => simpa [events] using h
    | _ => simp [events] at h
  | cdata s, j, x, y, h => by
    cases j with
    | cdata s' => simpa [events] using h
    | _ => simp [events] at h
  | empty t a, j, x, y, h => by
    cases j with
    | empty u b => simpa [events] using h
    | _ => simp [events] at h
  | element t a c, j, x, y, h => by
    cases j with
    | element u b d =>
      simp only [events, List.cons_append, List.append_assoc, List.nil_append, List.cons.injEq,
        Event.start.injEq] at h
      obtain ⟨⟨rfl, rfl⟩, hcontent⟩ := h
      obtain ⟨rfl, hrest⟩ := eventsOfList_append_inj c d x y hcontent
      exact ⟨rfl, hrest⟩
    | _ => simp [events] at h

/-- The end of an element tells where its content ends. -/
theorem eventsOfList_append_inj : (c d : List Item) → (x y : List Event) →
    eventsOfList c ++ .finish :: x = eventsOfList d ++ .finish :: y → c = d ∧ x = y
  | [], [], x, y, h => ⟨rfl, (List.cons.inj h).2⟩
  | [], j :: r, x, y, h => by cases j <;> simp [eventsOfList, events] at h
  | i :: r, [], x, y, h => by cases i <;> simp [eventsOfList, events] at h
  | i :: r, j :: r', x, y, h => by
    rw [eventsOfList, eventsOfList, List.append_assoc, List.append_assoc] at h
    obtain ⟨rfl, hrest⟩ := events_append_inj i j _ _ h
    obtain ⟨rfl, hxy⟩ := eventsOfList_append_inj r r' x y hrest
    exact ⟨rfl, hxy⟩

end

theorem eventsOfList_injective (h : eventsOfList c = eventsOfList d) : c = d :=
  (eventsOfList_append_inj c d [] [] (by rw [h])).1

/-! ### Texts before the first element -/

/-- What follows the first element does not count. -/
theorem leadingText_append (c d : List Item) :
    leadingText (c ++ d) = if c.any isElement then leadingText c
      else leadingText c ++ leadingText d := by
  induction c with
  | nil => simp [leadingText]
  | cons i r ih =>
    cases i with
    | text s =>
      simp only [List.cons_append, leadingText, ih, List.any_cons, isElement, Bool.false_or]
      split_ifs
      · rfl
      · rw [String.append_assoc]
    | cdata s =>
      simp only [List.cons_append, leadingText, ih, List.any_cons, isElement, Bool.false_or]
      split_ifs
      · rfl
      · rw [String.append_assoc]
    | empty t a => simp [leadingText, isElement]
    | element t a e => simp [leadingText, isElement]

/-! ### Nodes of elements -/

theorem Mirrors.isElement (h : i.Mirrors mode n) : i.isElement = true := by
  cases i with
  | text s => rw [Mirrors] at h; exact h.elim
  | cdata s => rw [Mirrors] at h; exact h.elim
  | empty t a => rfl
  | element t a c => rfl

theorem MirrorsList.append (hc : MirrorsList mode c ns) (hd : MirrorsList mode d ms) :
    MirrorsList mode (c ++ d) (ns ++ ms) := by
  induction c generalizing ns with
  | nil =>
    rw [MirrorsList] at hc
    subst hc
    exact hd
  | cons i r ih =>
    rw [MirrorsList] at hc
    rw [List.cons_append, MirrorsList]
    rcases hc with ⟨hi, hr⟩ | ⟨n, ns', rfl, hn, hr⟩
    · exact .inl ⟨hi, ih hr⟩
    · exact .inr ⟨n, ns' ++ ms, rfl, hn, ih hr⟩

theorem mirrorsList_text (h : i.isElement = false) : MirrorsList mode [i] [] := by
  rw [MirrorsList]
  exact .inl ⟨h, by rw [MirrorsList]⟩

theorem mirrorsList_element (h : i.Mirrors mode n) : MirrorsList mode [i] [n] := by
  rw [MirrorsList]
  exact .inr ⟨n, [], rfl, h, by rw [MirrorsList]⟩

/-- There are children exactly if there is an element. -/
theorem MirrorsList.isEmpty (h : MirrorsList mode c ns) : ns.isEmpty = !c.any Item.isElement := by
  induction c generalizing ns with
  | nil =>
    rw [MirrorsList] at h
    subst h
    rfl
  | cons i r ih =>
    rw [MirrorsList] at h
    rcases h with ⟨hi, hr⟩ | ⟨n, ns', rfl, hn, hr⟩
    · rw [List.any_cons, hi, Bool.false_or]
      exact ih hr
    · rw [List.any_cons, hn.isElement]
      rfl

theorem keys_nodeEntries (text : Option String) (a : List (String × String)) :
    Entries.keys (nodeEntries text a) =
      (text.map fun _ => textName).toList ++ Entries.keys a := by
  cases text <;> simp [nodeEntries, Entries.keys, List.map_map, Function.comp_def]

theorem nodup_of_entries {a : List (String × String)} {text : Option String}
    (h : n.attributes.entries = nodeEntries text a) : (Entries.keys a).Nodup := by
  have hd := n.attributes.distinct
  rw [h, keys_nodeEntries] at hd
  exact (List.nodup_append.1 hd).2.1

/-- The names of a node's attributes show that its tag is sound. -/
theorem soundTag_of_entries {t : String} {a : List (String × String)} {text : Option String}
    (ht : n.tag = t) (ha : n.attributes.entries = nodeEntries text a) : SoundTag t a text := by
  obtain ⟨u, b, c, tag_ne, free⟩ := n
  have hb : b.entries = nodeEntries text a := ha
  have hkeys : b.keys = (text.map fun _ => textName).toList ++ Entries.keys a := by
    rw [Attributes.keys, hb, keys_nodeEntries]
  have hd : b.keys.Nodup := b.distinct
  refine ⟨ht ▸ tag_ne, ?_, ?_⟩
  · intro k hk
    exact free k (by rw [hkeys]; exact List.mem_append_right _ hk)
  · intro hk
    cases text with
    | none => rfl
    | some s =>
      rw [hkeys] at hd
      exact absurd hk (List.nodup_cons.1 hd).1

mutual

/-- **What stands for a node is sound.** -/
theorem Mirrors.sound : (i : Item) → (n : Node) → i.Mirrors mode n → i.Sound mode
  | text _, _, h => by rw [Mirrors] at h; exact h.elim
  | cdata _, _, h => by rw [Mirrors] at h; exact h.elim
  | empty t a, n, h => by
    rw [Mirrors] at h
    rw [Sound]
    exact soundTag_of_entries h.1 h.2.1
  | element t a c, n, h => by
    rw [Mirrors] at h
    rw [Sound]
    exact ⟨soundTag_of_entries h.1 h.2.1, MirrorsList.sound c n.children h.2.2⟩

theorem MirrorsList.sound : (c : List Item) → (ns : List Node) → MirrorsList mode c ns →
    SoundList mode c
  | [], _, _ => by rw [SoundList]; trivial
  | i :: r, ns, h => by
    rw [MirrorsList] at h
    rw [SoundList]
    rcases h with ⟨hi, hr⟩ | ⟨n, ms, -, hn, hr⟩
    · have htext : i.Sound mode := by
        cases i <;> simp_all [isElement, Sound]
      exact ⟨htext, MirrorsList.sound r ns hr⟩
    · exact ⟨Mirrors.sound i n hn, MirrorsList.sound r ms hr⟩

end

/-- A sound tag and its children make up a node. -/
theorem exists_node_of_soundTag {t : String} {a : List (String × String)} {text : Option String}
    (h : SoundTag t a text) (hd : (Entries.keys a).Nodup) (ns : List Node) :
    ∃ n : Node, n.tag = t ∧ n.attributes.entries = nodeEntries text a ∧ n.children = ns := by
  have hnodup : (Entries.keys (nodeEntries text a)).Nodup := by
    rw [keys_nodeEntries]
    cases text with
    | none => exact hd
    | some s =>
      have hno : textName ∉ Entries.keys a := fun hk => by cases h.single hk
      exact List.nodup_cons.2 ⟨hno, hd⟩
  have hfree : ∀ k ∈ Entries.keys (nodeEntries text a), k ∉ reservedNames := by
    intro k hk
    rw [keys_nodeEntries, List.mem_append] at hk
    rcases hk with hk | hk
    · have hname : k = textName := by
        cases text <;> simp_all
      subst hname
      decide
    · exact h.free k hk
  exact ⟨.mk t ⟨nodeEntries text a, hnodup⟩ ns h.tag_ne hfree, rfl, rfl, rfl⟩

mutual

/-- **Every sound element stands for a node.** -/
theorem exists_mirrors : (i : Item) → i.isElement = true → i.Sound mode →
    (∀ e ∈ i.events, e.DistinctKeys) → ∃ n, i.Mirrors mode n
  | text _, h, _, _ => by simp [isElement] at h
  | cdata _, h, _, _ => by simp [isElement] at h
  | empty t a, _, h, hd => by
    rw [Sound] at h
    have ha : (Entries.keys a).Nodup := hd (.empty t a) (by simp [events])
    obtain ⟨n, ht, hn, hc⟩ := exists_node_of_soundTag h ha []
    refine ⟨n, ?_⟩
    rw [Mirrors]
    exact ⟨ht, hn, hc⟩
  | element t a c, _, h, hd => by
    rw [Sound] at h
    have ha : (Entries.keys a).Nodup := hd (.start t a) (by simp [events])
    obtain ⟨ns, hns⟩ := exists_mirrorsList c h.2 fun e he => hd e (by simp [events, he])
    obtain ⟨n, ht, hn, hc⟩ := exists_node_of_soundTag h.1 ha ns
    refine ⟨n, ?_⟩
    rw [Mirrors]
    exact ⟨ht, hn, hc ▸ hns⟩

theorem exists_mirrorsList : (c : List Item) → SoundList mode c →
    (∀ e ∈ eventsOfList c, e.DistinctKeys) → ∃ ns, MirrorsList mode c ns
  | [], _, _ => ⟨[], by rw [MirrorsList]⟩
  | i :: r, h, hd => by
    rw [SoundList] at h
    obtain ⟨ns, hns⟩ := exists_mirrorsList r h.2 fun e he => hd e (by simp [eventsOfList, he])
    cases hi : i.isElement with
    | false =>
      refine ⟨ns, ?_⟩
      rw [MirrorsList]
      exact .inl ⟨hi, hns⟩
    | true =>
      obtain ⟨n, hn⟩ := exists_mirrors i hi h.1 fun e he => hd e (by simp [eventsOfList, he])
      refine ⟨n :: ns, ?_⟩
      rw [MirrorsList]
      exact .inr ⟨n, ns, rfl, hn, hns⟩

end

/-! ### The node of an element -/

variable {t : String} {a : List (String × String)}

/-- A sound element has a node over the nodes of its content. -/
theorem exists_mirrors_element (h : MirrorsList mode c ns) (ht : SoundTag t a (textOf? mode c))
    (hd : (Entries.keys a).Nodup) : ∃ n : Node, (element t a c).Mirrors mode n ∧ n.children = ns := by
  obtain ⟨n, htag, hentries, hchildren⟩ := exists_node_of_soundTag ht hd ns
  refine ⟨n, ?_, hchildren⟩
  rw [Mirrors]
  exact ⟨htag, hentries, hchildren ▸ h⟩

theorem tag_of_mirrors (h : (element t a c).Mirrors mode n) : n.tag = t := by
  rw [Mirrors] at h
  exact h.1

theorem get?_of_mirrors (h : (element t a c).Mirrors mode n) {k v : String} (hk : (k, v) ∈ a) :
    n.attributes.get? k = some (.string v) := by
  rw [Mirrors] at h
  rw [Attributes.get?_eq_some_iff, h.2.1, nodeEntries]
  exact List.mem_append_right _ (List.mem_map.2 ⟨(k, v), hk, rfl⟩)

/-- The text of a node is that of its content, if no attribute is named as the text. -/
theorem text?_of_mirrors (h : (element t a c).Mirrors mode n) (ha : textName ∉ Entries.keys a) :
    n.text? = textOf? mode c := by
  rw [Mirrors] at h
  obtain ⟨-, hentries, -⟩ := h
  have hkeys : Entries.keys (a.map fun e => (e.1, Json.string e.2)) = Entries.keys a := by
    simp [Entries.keys, List.map_map, Function.comp_def]
  rw [Node.text?, Node.attribute?, Attributes.get?, hentries, nodeEntries]
  cases textOf? mode c with
  | none =>
    have hnone : (a.map fun e => (e.1, Json.string e.2)).lookup textName = none :=
      Entries.lookup_eq_none (by rwa [hkeys])
    simp [hnone]
  | some s => simp [Json.string?]

end Item

end Scaffold.Markup
