import Scaffold.Proofs.Markup.Aside
import Scaffold.Proofs.Text.Trim
import Scaffold.Proofs.Tree.Preorder
import Scaffold.Proofs.Tree.RoundTrip

/-!
# Trees written in XML

`WrittenDocument` relates a tree of strings to the XML texts that it is written as: the text of a
node stands before its children, comments and instructions may stand anywhere between tags, also
within a text, and blanks around everything but inside a text. Each of these texts is read as the
tree, but for the order of attributes (`ofMarkup_writtenDocument`).
-/

namespace Scaffold.Node

open Markup Item

/-! ### Written trees -/

/-- What may stand between elements: blanks, comments and instructions. -/
def Gap (cs : List Char) : Prop :=
  ∃ s : String, Text.isBlankText s = true ∧ Interspersed s.toList cs

/-- The attributes of a tag are those of the node but for its text, in any order. -/
def Tagged (n : Node) (a : List (String × String)) : Prop :=
  (a.map fun e => (e.1, Json.string e.2)).Perm (others n.attributes)

mutual

/-- The written forms of a tree. An element without content may have no end tag. -/
inductive WrittenTree : Node → List Char → Prop
  | empty {n : Node} (a : List (String × String)) : Tagged n a → textOf? n.attributes = none →
      n.children = [] → WrittenTree n ('<' :: (tagText n.tag a ++ ['/', '>']))
  | element {n : Node} (a : List (String × String)) (lead trail : String) {cs ds : List Char} :
      Tagged n a → Text.isBlankText lead = true → Text.isBlankText trail = true →
      Interspersed (lead ++ ((textOf? n.attributes).getD "" ++ trail)).toList cs →
      WrittenTrees n.children ds → WrittenTree n (elementText n.tag a (cs ++ ds))

/-- The written forms of trees in a row, with a gap behind each of them. -/
inductive WrittenTrees : List Node → List Char → Prop
  | nil : WrittenTrees [] []
  | cons {n : Node} {ns : List Node} {cs gap ds : List Char} : WrittenTree n cs → Gap gap →
      WrittenTrees ns ds → WrittenTrees (n :: ns) (cs ++ (gap ++ ds))

end

/-- **The written forms of a tree as a document.** -/
def WrittenDocument (n : Node) (cs : List Char) : Prop :=
  ∃ lead root trail, Gap lead ∧ WrittenTree n root ∧ Gap trail ∧ cs = lead ++ (root ++ trail)

/-- A node that has a written form: its tag and its attributes are named as in a tag, all attributes
are strings, and its text is trimmed and not empty. -/
structure Writable (n : Node) : Prop where
  tag : IsName n.tag
  keys : ∀ k ∈ n.attributes.keys, IsName k
  strings : ∀ e ∈ n.attributes.entries, ∃ s, e.2 = .string s
  text : ∀ s, textOf? n.attributes = some s → s ≠ "" ∧ Text.trim s = s

/-! ### Gaps and texts -/

variable {n : Node} {ns : List Node} {a : List (String × String)} {i : Item} {c : List Item}
  {cs ds : List Char}

theorem mirrorsList_texts {mode : TextMode} (h : ∀ i ∈ c, i.isElement = false) :
    MirrorsList mode c [] := by
  induction c with
  | nil => rw [MirrorsList]
  | cons i r ih => exact (mirrorsList_text (h i (by simp))).append (ih fun j hj => h j (by simp [hj]))

theorem isBlank_of_leadingText (h : ∀ i ∈ c, i.isElement = false)
    (hblank : Text.isBlankText (leadingText c) = true) : ∀ i ∈ c, i.isBlank = true := by
  induction c with
  | nil => simp
  | cons i r ih =>
    have hr := fun j hj => h j (List.mem_cons_of_mem i hj)
    cases i with
    | text s | cdata s =>
      have hboth : Text.isBlankText s = true ∧ Text.isBlankText (leadingText r) = true := by
        simpa [leadingText, Text.isBlankText] using hblank
      exact List.forall_mem_cons.2 ⟨hboth.1, ih hr hboth.2⟩
    | empty t a => cases h (.empty t a) (by simp)
    | element t a d => cases h (.element t a d) (by simp)

/-- A gap is read as blank texts. -/
theorem Gap.carries (h : Gap cs) : ∃ c, Carries cs c ∧ (∀ i ∈ c, i.isElement = false) ∧
    ∀ i ∈ c, i.isBlank = true := by
  obtain ⟨s, hs, hcs⟩ := h
  obtain ⟨c, hc, htexts, hlead⟩ := carries_interspersed hcs ""
  refine ⟨c, by simpa [escape] using hc, htexts, isBlank_of_leadingText htexts ?_⟩
  rw [hlead, String.empty_append, String.ofList_toList]
  exact hs

theorem head?_of_gap (h : Gap cs) (hds : ds.head? = some '<') :
    (cs ++ ds).head? ≠ some byteOrderMark := by
  obtain ⟨s, hs, hcs⟩ := h
  have hall : ∀ c ∈ s.toList, Text.isBlank c = true := List.all_eq_true.1 hs
  have hmark : '<' ≠ byteOrderMark := by decide
  generalize s.toList = t at hcs hall
  cases hcs with
  | nil => simpa [hds] using hmark
  | @char x _ r _ =>
    have hx := hall x (by simp)
    have hself : escapeChar x = [x] := by
      have hno : ∀ d ∈ ['&', '<', '>', '"'], Text.isBlank d = false :=
        List.all_iff_forall_prop.1 (by decide)
      have hx' : escape [x] = [x] := escape_eq_self fun y hy hmem => by
        rw [List.mem_singleton.1 hy] at hmem
        rw [hno x hmem] at hx
        cases hx
      simpa [escape] using hx'
    rw [hself]
    have hne : x ≠ byteOrderMark := by
      rintro rfl
      exact absurd hx (by decide)
    simpa using hne
  | aside hx _ =>
    obtain ⟨r, rfl⟩ := List.head?_eq_some_iff.1 hx.head
    simpa using hmark

/-- The text of an element is trimmed to that of the node, if it is trimmed already. -/
theorem trimmed?_padded {t : Option String} {lead trail : String}
    (h : ∀ s, t = some s → s ≠ "" ∧ Text.trim s = s) (hlead : Text.isBlankText lead = true)
    (htrail : Text.isBlankText trail = true) :
    Text.trimmed? (lead ++ (t.getD "" ++ trail)) = t := by
  have htrim := Text.trim_padded (t.getD "") hlead htrail
  rw [Text.trimmed?, htrim]
  cases t with
  | none => simp [Text.trim_eq_empty_iff.2 (by rfl : Text.isBlankText "" = true)]
  | some s => simp [h s rfl]

/-! ### Tags -/

theorem Tagged.keys (h : Tagged n a) : (Entries.keys a).Perm (Entries.keys (others n.attributes)) := by
  have hkeys := Entries.keys_perm h
  rwa [Entries.keys, List.map_map] at hkeys

theorem Tagged.nodup (h : Tagged n a) : (Entries.keys a).Nodup :=
  h.keys.nodup_iff.2 (nodup_others n.attributes)

theorem Tagged.mem_keys (h : Tagged n a) {k : String} (hk : k ∈ Entries.keys a) :
    k ∈ n.attributes.keys :=
  mem_keys_of_others (h.keys.mem_iff.1 hk)

theorem Tagged.isName (h : Tagged n a) (hn : n.Writable) : ∀ e ∈ a, IsName e.1 :=
  fun _ he => hn.keys _ (h.mem_keys (List.mem_map_of_mem he))

theorem Tagged.soundTag (h : Tagged n a) : SoundTag n.tag a (textOf? n.attributes) := by
  obtain ⟨t, b, c, tag_ne, free⟩ := n
  refine ⟨tag_ne, fun k hk => free k (h.mem_keys hk), fun hk => ?_⟩
  by_contra hsome
  obtain ⟨s, hs⟩ := Option.ne_none_iff_exists'.1 hsome
  exact textName_notMem_others hs (h.keys.mem_iff.1 hk)

/-- The attributes of a tag and the text are all attributes of the node. -/
theorem Tagged.entries_perm (h : Tagged n a) :
    (nodeEntries (textOf? n.attributes) a).Perm n.attributes.entries := by
  have hsplit := List.filter_append_perm isText n.attributes.entries
  rw [filter_isText n.attributes.distinct] at hsplit
  exact (h.append_left _).trans hsplit

theorem Tagged.reorders (h : Tagged n a) {m : Node} (htag : m.tag = n.tag)
    (hm : m.attributes.entries = nodeEntries (textOf? n.attributes) a)
    (hc : ReordersList m.children n.children) : m.Reorders n := by
  have hperm := h.entries_perm
  rw [← hm] at hperm
  obtain ⟨t, b, c, _, _⟩ := m
  obtain ⟨u, d, e, _, _⟩ := n
  rw [Reorders]
  exact ⟨htag, hperm, hc⟩

/-! ### Reading -/

mutual

/-- **A written tree is read as an element** that stands for the tree, but for the order of
attributes. -/
theorem WrittenTree.shows {n : Node} {cs : List Char} (hn : ∀ m ∈ n.preorder, m.Writable) :
    WrittenTree n cs → ∃ i m, Shows cs i ∧ i.Mirrors .normalized m ∧ m.Reorders n
  | .empty a ha htext hchildren => by
    have hself := hn n n.mem_preorder
    obtain ⟨m, htag, hentries, hm⟩ := exists_node_of_soundTag (htext ▸ ha.soundTag) ha.nodup []
    refine ⟨.empty n.tag a, m, shows_empty hself.tag (ha.isName hself) ha.nodup, ?_, ?_⟩
    · rw [Mirrors]
      exact ⟨htag, hentries, hm⟩
    · exact ha.reorders htag (htext ▸ hentries) (by rw [hm, hchildren, ReordersList]; trivial)
  | .element a lead trail ha hlead htrail hcs hds => by
    have hself := hn n n.mem_preorder
    obtain ⟨t, ht, htexts, htext⟩ := carries_interspersed hcs ""
    obtain ⟨d, ms, hd, hnext, hms, hre⟩ := WrittenTrees.carries
      (fun k hk m hm => hn m (preorder_subset hk hm)) hds _ _ ht
    -- what stands behind the first child does not count as text
    have hlead : Item.textOf? .normalized (t ++ d) = textOf? n.attributes := by
      have hno : t.any isElement = false := List.any_eq_false.2 fun i hi => by simp [htexts i hi]
      have hpadded := trimmed?_padded hself.text hlead htrail
      simpa [Item.textOf?, leadingText_append, hno, hnext, htext] using hpadded
    obtain ⟨m, hm, hchildren⟩ := exists_mirrors_element ((mirrorsList_texts htexts).append hms)
      (hlead ▸ ha.soundTag) ha.nodup
    refine ⟨.element n.tag a (t ++ d), m, ?_, hm, ?_⟩
    · exact Carries.element (by simpa [escape] using hd) hself.tag (ha.isName hself) ha.nodup
    · rw [Mirrors, hlead] at hm
      exact ha.reorders hm.1 hm.2.1 (by rw [hchildren]; exact hre)

theorem WrittenTrees.carries {ns : List Node} {ds : List Char}
    (hns : ∀ n ∈ ns, ∀ m ∈ n.preorder, m.Writable) : WrittenTrees ns ds → ∀ cs c, Carries cs c →
    ∃ d ms, Carries (cs ++ ds) (c ++ d) ∧ leadingText d = "" ∧ MirrorsList .normalized d ms ∧
      ReordersList ms ns
  | .nil, cs, c, hc => ⟨[], [], by simpa using hc, rfl, by rw [MirrorsList],
      by rw [ReordersList]; trivial⟩
  | @WrittenTrees.cons n ns xs gap ds hx hgap hds, cs, c, hc => by
    obtain ⟨i, m, hi, hm, hmn⟩ := WrittenTree.shows (hns n (by simp)) hx
    obtain ⟨g, hg, htexts, -⟩ := hgap.carries
    obtain ⟨d, ms, hd, -, hms, hre⟩ := WrittenTrees.carries (fun k hk => hns k (by simp [hk])) hds
      _ _ (hc.cons hi hg)
    refine ⟨i :: (g ++ d), m :: ms, by simpa using hd, ?_, ?_, ?_⟩
    · cases i <;> first | rfl | cases hm.isElement
    · rw [MirrorsList]
      exact .inr ⟨m, ms, rfl, hm, (mirrorsList_texts htexts).append hms⟩
    · rw [ReordersList]
      exact ⟨hmn, hre⟩

end

mutual

theorem eachAttribute_of_preorder {P : String → Json → Prop} : (n : Node) →
    (∀ m ∈ n.preorder, ∀ e ∈ m.attributes.entries, P e.1 e.2) → n.EachAttribute P
  | mk t a c tag_ne free, h => by
    rw [EachAttribute]
    exact ⟨h _ (mem_preorder _), eachAttributeOfList_of_preorder c fun n hn m hm =>
      h m (preorder_subset (n := mk t a c tag_ne free) hn hm)⟩

theorem eachAttributeOfList_of_preorder {P : String → Json → Prop} : (ns : List Node) →
    (∀ n ∈ ns, ∀ m ∈ n.preorder, ∀ e ∈ m.attributes.entries, P e.1 e.2) →
    EachAttributeOfList P ns
  | [], _ => by rw [EachAttributeOfList]; trivial
  | n :: ns, h => by
    rw [EachAttributeOfList]
    exact ⟨eachAttribute_of_preorder n (h n (by simp)),
      eachAttributeOfList_of_preorder ns fun m hm => h m (by simp [hm])⟩

end

theorem ofMarkup_of_writtenDocument {text : String} (hn : ∀ m ∈ n.preorder, m.Writable)
    (h : WrittenDocument n text.toList) :
    ∃ m, ofMarkup .normalized text = .ok m ∧ m.Reorders n := by
  obtain ⟨lead, root, trail, hlead, hroot, htrail, htext⟩ := h
  obtain ⟨i, m, hi, hm, hmn⟩ := hroot.shows hn
  obtain ⟨c, hc, -, hcblank⟩ := hlead.carries
  obtain ⟨d, hd, -, hdblank⟩ := htrail.carries
  have hhead : (root ++ trail).head? = some '<' := by
    rw [List.head?_append, hi.head]
    rfl
  obtain ⟨es, hes, hitems⟩ := (hc.cons hi hd).events (head?_of_gap hlead hhead)
  rw [← htext] at hes
  refine ⟨m, ?_, hmn⟩
  rw [ofMarkup_eq_ofEvents hes, ofEvents_eq_ok_iff]
  exact build_of_hasRoot ⟨hm.isElement, c, d, hcblank, hdblank, hitems⟩ hm

/-! ### Every writable tree can be written -/

theorem exists_tagged (h : n.Writable) : ∃ a, Tagged n a := by
  refine ⟨(others n.attributes).map fun e => (e.1, (e.2.string?).getD ""), ?_⟩
  rw [Tagged, List.map_map, List.map_congr_left (g := id), List.map_id]
  rintro ⟨k, v⟩ he
  obtain ⟨s, rfl⟩ := h.strings (k, v) (List.mem_filter.1 he).1
  rfl

mutual

theorem exists_writtenTree : (n : Node) → (∀ m ∈ n.preorder, m.Writable) → ∃ cs, WrittenTree n cs
  | mk t b c tag_ne free, h => by
    obtain ⟨a, ha⟩ := exists_tagged (h _ (mem_preorder _))
    obtain ⟨ds, hds⟩ := exists_writtenTrees c fun n hn m hm =>
      h m (preorder_subset (n := mk t b c tag_ne free) hn hm)
    exact ⟨_, WrittenTree.element a "" "" ha rfl rfl (Interspersed.escape _) hds⟩

theorem exists_writtenTrees : (ns : List Node) → (∀ n ∈ ns, ∀ m ∈ n.preorder, m.Writable) →
    ∃ ds, WrittenTrees ns ds
  | [], _ => ⟨[], .nil⟩
  | n :: ns, h => by
    obtain ⟨cs, hcs⟩ := exists_writtenTree n (h n (by simp))
    obtain ⟨ds, hds⟩ := exists_writtenTrees ns fun m hm => h m (by simp [hm])
    exact ⟨_, .cons hcs ⟨"", rfl, .nil⟩ hds⟩

end

/-- **A tree of strings can be written in XML, and is read back** from whatever it is written as: the
tree that is read is the same, but for the order of attributes. -/
theorem ofMarkup_writtenDocument (hn : ∀ m ∈ n.preorder, m.Writable) :
    (∃ text : String, WrittenDocument n text.toList) ∧
      ∀ text : String, WrittenDocument n text.toList →
        ∃ m, ofMarkup .normalized text = .ok m ∧ m.same n = true := by
  constructor
  · obtain ⟨cs, hcs⟩ := exists_writtenTree n hn
    have hgap : Gap [] := ⟨"", rfl, .nil⟩
    exact ⟨String.ofList cs, [], cs, [], hgap, hcs, hgap, by simp⟩
  · intro text h
    obtain ⟨m, hm, hmn⟩ := ofMarkup_of_writtenDocument hn h
    refine ⟨m, hm, same_of_reorders m n hmn ?_⟩
    exact eachAttribute_of_preorder n fun k hk e he => by
      obtain ⟨s, hs⟩ := (hn k hk).strings e he
      rw [hs]
      exact Json.proper_string s

def writtenItem : Node :=
  .mk "item" ⟨[("a", .string "1"), ("b", .string "say \"2\"")], by decide⟩ [] (by decide) (by decide)

def writtenRest : Node := .mk "rest" .empty [] (by decide) (by decide)

/-- An element with a text and two children. -/
def writtenSample : Node :=
  .mk "list" ⟨[("id", .string "<x>"), ("value", .string "a & b")], by decide⟩
    [writtenItem, writtenRest] (by decide) (by decide)

/-- The text of the root is in two pieces, the attributes of its first child are in another order,
and its second child has only a comment in it. -/
def writtenSampleText : String :=
  "<?xml version=\"1.0\"?>\n<list id=\"&lt;x&gt;\">\n  a &amp;<!-- - > --> b\n  " ++
  "<item b=\"say &quot;2&quot;\" a=\"1\"/><?next?>\n  <rest><!----></rest></list>\n"

theorem ofMarkup_writtenSample : (∀ m ∈ writtenSample.preorder, m.Writable) ∧
    WrittenDocument writtenSample writtenSampleText.toList ∧
    ∃ m, ofMarkup .normalized writtenSampleText = .ok m ∧ m.same writtenSample = true := by
  have hname : ∀ s ∈ ["list", "item", "rest", "id", "value", "a", "b"], IsName s := by
    have hall : ∀ s ∈ ["list", "item", "rest", "id", "value", "a", "b"],
        s ≠ "" ∧ s.toList.all isNameChar = true := by decide
    exact fun s hs => ⟨(hall s hs).1, List.all_eq_true.1 (hall s hs).2⟩
  have hwritable : ∀ m ∈ writtenSample.preorder, m.Writable := by
    have hkeys : ∀ m ∈ writtenSample.preorder, ∀ k ∈ m.tag :: m.attributes.keys,
        k ∈ ["list", "item", "rest", "id", "value", "a", "b"] := by decide
    have hstrings : ∀ m ∈ writtenSample.preorder, ∀ e ∈ m.attributes.entries,
        e.2.isString = true := by decide
    have htext : ∀ m ∈ writtenSample.preorder, ∀ s ∈ textOf? m.attributes,
        s ≠ "" ∧ Text.trim s = s := by decide +kernel
    refine fun m hm => ⟨hname _ (hkeys m hm _ (by simp)),
      fun k hk => hname k (hkeys m hm k (by simp [hk])), fun e he => ?_, htext m hm⟩
    have hstring := hstrings m hm e he
    cases hv : e.2 <;> simp_all [Json.isString]
  have htext : Interspersed "\n  a & b\n  ".toList _ :=
    Interspersed.append (.aside (.comment " - > ".toList (by decide +kernel))
      (.escape " b\n  ".toList)) "\n  a &".toList
  have hitem : WrittenTree writtenItem _ :=
    .empty [("b", "say \"2\""), ("a", "1")] (.swap _ _ []) rfl rfl
  have hrest : WrittenTree writtenRest _ :=
    .element [] "" "" .nil rfl rfl (.aside (.comment [] (by decide +kernel)) .nil) .nil
  have hroot : WrittenTree writtenSample _ :=
    .element [("id", "<x>")] "\n  " "\n  " (.refl _) rfl rfl htext
      (.cons hitem ⟨"\n  ", rfl, .aside (.instruction "next".toList
        (by decide +kernel)) (.escape _)⟩ (.cons hrest ⟨"", rfl, .nil⟩ .nil))
  have hwritten : WrittenDocument writtenSample writtenSampleText.toList := by
    refine ⟨_, _, _, ⟨"\n", rfl, .aside (.instruction "xml version=\"1.0\"".toList
      (by decide +kernel)) (.escape _)⟩, hroot, ⟨"\n", rfl, .escape _⟩, ?_⟩
    decide +kernel
  exact ⟨hwritable, hwritten, (ofMarkup_writtenDocument hwritable).2 _ hwritten⟩

end Scaffold.Node
