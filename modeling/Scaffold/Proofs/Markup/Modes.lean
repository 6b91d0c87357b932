import Scaffold.Proofs.Markup.RoundTrip

/-!
# Texts as they are written, and trimmed

A document is read with its texts as they are written, or with its texts trimmed. The two trees of
it are the same but for the texts (`Item.Retold`). What is read as it is written is also read
trimmed. The other way round one thing is in the way: a text of blanks alone is none once it is
trimmed, and so it can stand beside an attribute of its name only then (`Item.BlankBeside`). Since a
document has one root (`HasRoot.unique`), that root tells which of the two happens
(`ofMarkup_modes`).
-/

namespace Scaffold

namespace Markup

namespace Item

variable {i : Item} {c : List Item} {t : String} {a : List (String × String)} {n m : Node}
  {ns ms : List Node}

/-! ### The two nodes of an element -/

mutual

/-- **The nodes of an element, with its texts as they are written and with its texts trimmed**: they
have the same tag, the same children in order, and the same attributes but for the text of the
element. This is trimmed in the second node, and left out if nothing is left of it. -/
def Retold : Item → Node → Node → Prop
  | text _, _, _ => False
  | cdata _, _, _ => False
  | empty t a, n, m =>
    n.tag = t ∧ m.tag = t ∧ n.attributes.entries = nodeEntries none a ∧
      m.attributes.entries = nodeEntries none a ∧ n.children = [] ∧ m.children = []
  | element t a c, n, m =>
    n.tag = t ∧ m.tag = t ∧ n.attributes.entries = nodeEntries (textOf? .raw c) a ∧
      m.attributes.entries = nodeEntries ((textOf? .raw c).bind Text.trimmed?) a ∧
      RetoldList c n.children m.children

/-- The nodes are those of the elements in the list, one by one. -/
def RetoldList : List Item → List Node → List Node → Prop
  | [], ns, ms => ns = [] ∧ ms = []
  | i :: r, ns, ms =>
    (isElement i = false ∧ RetoldList r ns ms) ∨
      ∃ n m ns' ms', ns = n :: ns' ∧ ms = m :: ms' ∧ Retold i n m ∧ RetoldList r ns' ms'

end

/-- A text that is left out as it is written is empty or blank, and so it is left out trimmed. -/
theorem textOf?_normalized (c : List Item) :
    textOf? .normalized c = (textOf? .raw c).bind Text.trimmed? := by
  rw [textOf?, textOf?]
  split_ifs with h
  · rw [Option.bind_none, Text.trimmed?_eq_none_iff]
    rcases h with h | h
    · rw [h]
      rfl
    · exact h.1
  · rfl

mutual

/-- **The two trees of an element are the same but for the texts.** -/
theorem Retold.of_mirrors : (i : Item) → (n m : Node) → i.Mirrors .raw n →
    i.Mirrors .normalized m → i.Retold n m
  | text _, _, _, h, _ => by rw [Mirrors] at h; exact h.elim
  | cdata _, _, _, h, _ => by rw [Mirrors] at h; exact h.elim
  | empty t a, n, m, h, h' => by
    rw [Mirrors] at h h'
    rw [Retold]
    exact ⟨h.1, h'.1, h.2.1, h'.2.1, h.2.2, h'.2.2⟩
  | element t a c, n, m, h, h' => by
    rw [Mirrors] at h h'
    obtain ⟨htag, hentries, hchildren⟩ := h
    obtain ⟨htag', hentries', hchildren'⟩ := h'
    rw [textOf?_normalized] at hentries'
    rw [Retold]
    exact ⟨htag, htag', hentries, hentries',
      RetoldList.of_mirrors c n.children m.children hchildren hchildren'⟩

theorem RetoldList.of_mirrors : (c : List Item) → (ns ms : List Node) →
    MirrorsList .raw c ns → MirrorsList .normalized c ms → RetoldList c ns ms
  | [], ns, ms, h, h' => by
    rw [MirrorsList] at h h'
    rw [RetoldList]
    exact ⟨h, h'⟩
  | i :: r, ns, ms, h, h' => by
    rw [MirrorsList] at h h'
    rw [RetoldList]
    -- an item is an element in both trees, or in neither
    rcases h with ⟨hi, hr⟩ | ⟨n, ns', rfl, hn, hr⟩
    · rcases h' with ⟨-, hr'⟩ | ⟨m, ms', -, hm, -⟩
      · exact .inl ⟨hi, RetoldList.of_mirrors r ns ms hr hr'⟩
      · rw [hm.isElement] at hi
        cases hi
    · rcases h' with ⟨hi, -⟩ | ⟨m, ms', rfl, hm, hr'⟩
      · rw [hn.isElement] at hi
        cases hi
      · exact .inr ⟨n, m, ns', ms', rfl, rfl, Retold.of_mirrors i n m hn hm,
          RetoldList.of_mirrors r ns' ms' hr hr'⟩

end

/-! ### Elements that are sound in one mode only -/

/-- **A text of blanks alone beside an attribute of its name**, in an element without child
elements. -/
def BlankBeside : Item → Prop
  | element _ a c =>
    c.any isElement = false ∧ textName ∈ Entries.keys a ∧ leadingText c ≠ "" ∧
      Text.isBlankText (leadingText c) = true
  | _ => False

mutual

/-- The elements of an item, itself included, each before those in it. -/
def elements : Item → List Item
  | text _ => []
  | cdata _ => []
  | empty t a => [empty t a]
  | element t a c => element t a c :: elementsOfList c

def elementsOfList : List Item → List Item
  | [] => []
  | i :: r => elements i ++ elementsOfList r

end

/-- No text is left as it is written exactly if none is left trimmed, and blanks stand there only
before a child. -/
theorem textOf?_raw_eq_none_iff : textOf? .raw c = none ↔
    textOf? .normalized c = none ∧ (leadingText c ≠ "" → c.any isElement = true) := by
  have hempty : leadingText c = "" → Text.isBlankText (leadingText c) = true := by
    intro h
    rw [h]
    rfl
  rw [textOf?, textOf?, Text.trimmed?_eq_none_iff]
  split_ifs with h
  · simp only [true_iff]
    rcases h with h | ⟨hblank, hchild⟩
    · exact ⟨hempty h, fun hne => absurd h hne⟩
    · exact ⟨hblank, fun _ => hchild⟩
  · simp only [false_iff]
    rintro ⟨hblank, hchild⟩
    by_cases hlead : leadingText c = ""
    · exact h (.inl hlead)
    · exact h (.inr ⟨hblank, hchild hlead⟩)

/-- A tag with its text as it is written is sound exactly if it is with its text trimmed, and this
is not blank beside an attribute of its name. -/
theorem soundTag_raw_iff : SoundTag t a (textOf? .raw c) ↔
    SoundTag t a (textOf? .normalized c) ∧ ¬ (element t a c).BlankBeside := by
  constructor
  · intro h
    refine ⟨⟨h.tag_ne, h.free, fun hk => (textOf?_raw_eq_none_iff.1 (h.single hk)).1⟩, ?_⟩
    rintro ⟨hchild, hk, hne, -⟩
    have hany := (textOf?_raw_eq_none_iff.1 (h.single hk)).2 hne
    rw [hchild] at hany
    cases hany
  · rintro ⟨h, hbeside⟩
    refine ⟨h.tag_ne, h.free, fun hk => textOf?_raw_eq_none_iff.2 ⟨h.single hk, fun hne => ?_⟩⟩
    by_contra hchild
    have hblank : Text.isBlankText (leadingText c) = true :=
      Text.trimmed?_eq_none_iff.1 (h.single hk)
    exact hbeside ⟨Bool.eq_false_iff.2 hchild, hk, hne, hblank⟩

mutual

/-- **Of the elements that are sound trimmed, those are sound as they are written** in which no
blank text stands beside an attribute of its name. -/
theorem sound_raw_iff : (i : Item) →
    (i.Sound .raw ↔ i.Sound .normalized ∧ ∀ e ∈ i.elements, ¬ e.BlankBeside)
  | text _ => by simp [Sound, elements]
  | cdata _ => by simp [Sound, elements]
  | empty t a => by simp [Sound, elements, BlankBeside]
  | element t a c => by
    rw [Sound, Sound, elements, List.forall_mem_cons, soundTag_raw_iff, soundList_raw_iff c]
    exact and_and_and_comm

theorem soundList_raw_iff : (c : List Item) →
    (SoundList .raw c ↔ SoundList .normalized c ∧ ∀ e ∈ elementsOfList c, ¬ e.BlankBeside)
  | [] => by simp [SoundList, elementsOfList]
  | i :: r => by
    rw [SoundList, SoundList, elementsOfList, List.forall_mem_append, sound_raw_iff i,
      soundList_raw_iff r]
    exact and_and_and_comm

end

end Item

end Markup

namespace Node

open Markup

variable {text : String} {mode : TextMode} {root : Item} {n : Node}

/-- **A text that is read in one mode is read in the other** exactly if its root is sound there. -/
theorem exists_ofMarkup_iff (mode' : TextMode) (h : ofMarkup mode text = .ok n)
    (hroot : HasRoot (events text.toList).1 root) :
    (∃ m, ofMarkup mode' text = .ok m) ↔ root.Sound mode' := by
  have hevents := events_of_read (ofMarkup_eq_ok_iff.1 h)
  constructor
  · rintro ⟨m, hm⟩
    obtain ⟨root', hroot', hmirrors⟩ := exists_root_of_ofMarkup hm
    obtain rfl := hroot.unique hroot'
    exact Item.Mirrors.sound root m hmirrors
  · intro hsound
    obtain ⟨m, hm⟩ := Item.exists_mirrors root hroot.1 hsound
      (hroot.distinctKeys (distinctKeys_events text.toList))
    refine ⟨m, ?_⟩
    rw [ofMarkup_eq_ok_iff, read_eq_build hevents]
    exact build_of_hasRoot hroot hm

/-- A text that is not read is a failure of parsing. -/
theorem exists_parse_iff :
    (∃ d, ofMarkup mode text = .error (.parse d)) ↔ ¬ ∃ n, ofMarkup mode text = .ok n := by
  rw [ofMarkup]
  cases read mode text with
  | error f => simp [Except.mapError]
  | ok n => simp [Except.mapError]

/-- **Reading texts as they are written and reading them trimmed.** What is read as it is written is
read trimmed, and the two trees are the same but for the texts. What is read trimmed is not read as
it is written exactly if, somewhere in its one root, a text of blanks alone stands in an element
without child elements and beside an attribute of its name. -/
theorem ofMarkup_modes (text : String) :
    (∀ n, ofMarkup .raw text = .ok n → ∃ root m, HasRoot (events text.toList).1 root ∧
      ofMarkup .normalized text = .ok m ∧ root.Retold n m) ∧
    ∀ m, ofMarkup .normalized text = .ok m →
      ∃ root, (∀ r, HasRoot (events text.toList).1 r ↔ r = root) ∧
        ((∃ d, ofMarkup .raw text = .error (.parse d)) ↔ ∃ e ∈ root.elements, e.BlankBeside) := by
  constructor
  · intro n hn
    obtain ⟨root, hroot, hraw⟩ := exists_root_of_ofMarkup hn
    have hsound := (Item.sound_raw_iff root).1 (Item.Mirrors.sound root n hraw)
    obtain ⟨m, hm⟩ := (exists_ofMarkup_iff .normalized hn hroot).2 hsound.1
    obtain ⟨root', hroot', hnormalized⟩ := exists_root_of_ofMarkup hm
    obtain rfl := hroot.unique hroot'
    exact ⟨root, m, hroot, hm, Item.Retold.of_mirrors root n m hraw hnormalized⟩
  · intro m hm
    obtain ⟨root, hroot, hnormalized⟩ := exists_root_of_ofMarkup hm
    have hsound := Item.Mirrors.sound root m hnormalized
    refine ⟨root, fun r => ⟨fun hr => hr.unique hroot, fun hr => hr ▸ hroot⟩, ?_⟩
    rw [exists_parse_iff, exists_ofMarkup_iff .raw hm hroot, Item.sound_raw_iff]
    constructor
    · intro hno
      by_contra hnone
      refine hno ⟨hsound, fun e he hbeside => hnone ⟨e, he, hbeside⟩⟩
    · rintro ⟨e, he, hbeside⟩ hraw
      exact hraw.2 e he hbeside

/-- Blanks in an element that has an attribute of the name of the text. -/
def besideRoot : Item := .element "a" [] [.element "b" [("value", "v")] [.text " "]]

/-- A text before a child, an attribute of its name, and a text of blanks alone are read in both
modes; blanks beside such an attribute only in one. -/
theorem ofMarkup_modes_blanks :
    (∃ (n m : Node) (root : Item),
      ofMarkup .raw "<a> t <b value=\" v \"/><c> </c></a>" = .ok n ∧
      ofMarkup .normalized "<a> t <b value=\" v \"/><c> </c></a>" = .ok m ∧ root.Retold n m ∧
      n.text? = some " t " ∧ m.text? = some "t") ∧
    (∃ m, ofMarkup .normalized "<a><b value=\"v\"> </b></a>" = .ok m) ∧
    ∃ d, ofMarkup .raw "<a><b value=\"v\"> </b></a>" = .error (.parse d) := by
  constructor
  · have hraw : ((ofMarkup .raw "<a> t <b value=\" v \"/><c> </c></a>").map
        Node.text?).toOption = some (some " t ") := by decide +kernel
    have hnormalized : ((ofMarkup .normalized "<a> t <b value=\" v \"/><c> </c></a>").map
        Node.text?).toOption = some (some "t") := by decide +kernel
    obtain ⟨n, hn, hnt⟩ := exists_of_map_eq_ok (eq_ok_of_toOption hraw)
    obtain ⟨m', hm', hmt⟩ := exists_of_map_eq_ok (eq_ok_of_toOption hnormalized)
    obtain ⟨root, m, -, hm, hretold⟩ := (ofMarkup_modes _).1 n hn
    obtain rfl : m' = m := Except.ok.inj (hm'.symm.trans hm)
    exact ⟨n, m', root, hn, hm, hretold, hnt, hmt⟩
  · have hread : ((ofMarkup .normalized "<a><b value=\"v\"> </b></a>").map
        Node.tag).toOption = some "a" := by decide +kernel
    have hevents : (events "<a><b value=\"v\"> </b></a>".toList).1 = besideRoot.events := by
      decide +kernel
    obtain ⟨m, hm, -⟩ := exists_of_map_eq_ok (eq_ok_of_toOption hread)
    obtain ⟨root, honly, hfails⟩ := (ofMarkup_modes _).2 m hm
    have hroot : besideRoot = root := by
      rw [← honly, hevents]
      exact ⟨rfl, [], [], by simp, by simp, by decide⟩
    refine ⟨⟨m, hm⟩, hfails.2 ⟨.element "b" [("value", "v")] [.text " "], ?_, ?_⟩⟩
    · rw [← hroot]
      simp [besideRoot, Item.elements, Item.elementsOfList]
    · exact ⟨rfl, by decide, by simp [Item.leadingText], by decide⟩

end Node

end Scaffold
