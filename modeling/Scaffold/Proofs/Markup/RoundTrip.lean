import Scaffold.Proofs.Markup.Reader
import Scaffold.Proofs.Markup.Root
import Scaffold.Proofs.Text.Trim
import Scaffold.Proofs.Tree.Text

/-!
# From XML text to JSON text and back

A tree of an XML text is read again from its compact JSON text, with every text trimmed, as long as
the text is not nested too deeply (`ofJsonText_ofMarkup`). It is the same tree exactly if each
attribute of the XML text that has the name of the text is trimmed already and not empty; what
stands between tags always is.
-/

namespace Scaffold

namespace Markup

open Attributes Item

/-- An attribute of the name of the text is trimmed and not empty. -/
def Event.TrimmedValue (e : Event) : Prop :=
  ∀ s, (textName, s) ∈ e.attributes → s ≠ "" ∧ Text.trim s = s

theorem trimmedValue_of_attributes {e : Event} (h : e.attributes = []) : e.TrimmedValue := by
  intro s hs
  rw [h] at hs
  cases hs

/-! ### Nodes of elements -/

theorem strings_nodeEntries (text : Option String) (a : List (String × String)) :
    Json.Strings (nodeEntries text a) := by
  intro e he
  rw [nodeEntries, List.mem_append] at he
  rcases he with he | he
  · obtain ⟨s, -, rfl⟩ := Option.map_eq_some_iff.1 (Option.mem_toList.1 he)
    exact ⟨s, rfl⟩
  · obtain ⟨b, -, rfl⟩ := List.mem_map.1 he
    exact ⟨b.2, rfl⟩

/-- Of a node's attributes only those of its tag can be untrimmed. -/
theorem trimmedText_nodeEntries {text : Option String} {a : List (String × String)}
    (h : ∀ s, text = some s → s ≠ "" ∧ Text.trim s = s) :
    (∀ e ∈ nodeEntries text a, TrimmedText e.1 e.2) ↔
      ∀ s, (textName, s) ∈ a → s ≠ "" ∧ Text.trim s = s := by
  constructor
  · intro hall s hs
    exact hall (textName, .string s)
      (List.mem_append_right _ (List.mem_map.2 ⟨(textName, s), hs, rfl⟩)) rfl s rfl
  · rintro ha e he hk s hs
    rw [nodeEntries, List.mem_append] at he
    rcases he with he | he
    · obtain ⟨x, hx, rfl⟩ := Option.map_eq_some_iff.1 (Option.mem_toList.1 he)
      cases hs
      exact h s hx
    · obtain ⟨⟨k, x⟩, hx, rfl⟩ := List.mem_map.1 he
      cases hs
      obtain rfl : k = textName := hk
      exact ha x hx

theorem trimmed_textOf? {c : List Item} : ∀ s, textOf? .normalized c = some s →
    s ≠ "" ∧ Text.trim s = s := fun _ hs => Text.trim_of_trimmed? hs

mutual

/-- **A node is made of texts.** -/
theorem Mirrors.textOnly {mode : TextMode} : (i : Item) → (n : Node) → i.Mirrors mode n →
    n.TextOnly
  | .text _, _, h => by rw [Mirrors] at h; exact h.elim
  | .cdata _, _, h => by rw [Mirrors] at h; exact h.elim
  | .empty t a, n, h => by
    rw [Mirrors] at h
    obtain ⟨-, ha, hc⟩ := h
    rw [Node.TextOnly, Node.eachAttribute_iff, ha, hc]
    exact ⟨strings_nodeEntries none a, by rw [Node.EachAttributeOfList]; trivial⟩
  | .element t a c, n, h => by
    rw [Mirrors] at h
    obtain ⟨-, ha, hc⟩ := h
    rw [Node.TextOnly, Node.eachAttribute_iff, ha]
    exact ⟨strings_nodeEntries _ a, MirrorsList.textOnly c n.children hc⟩

theorem MirrorsList.textOnly {mode : TextMode} : (c : List Item) → (ns : List Node) →
    MirrorsList mode c ns → Node.EachAttributeOfList (fun _ v => ∃ s, v = Json.string s) ns
  | [], ns, h => by
    rw [MirrorsList] at h
    subst h
    rw [Node.EachAttributeOfList]
    trivial
  | i :: r, ns, h => by
    rw [MirrorsList] at h
    rcases h with ⟨-, hr⟩ | ⟨n, ms, rfl, hn, hr⟩
    · exact MirrorsList.textOnly r ns hr
    · rw [Node.EachAttributeOfList]
      exact ⟨Mirrors.textOnly i n hn, MirrorsList.textOnly r ms hr⟩

end

mutual

/-- The texts of a node are trimmed exactly if those in the tags are. -/
theorem trimmed_iff_of_mirrors : (i : Item) → (n : Node) → i.Mirrors .normalized n →
    (n.EachAttribute TrimmedText ↔ ∀ e ∈ i.events, e.TrimmedValue)
  | .text _, _, h => by rw [Mirrors] at h; exact h.elim
  | .cdata _, _, h => by rw [Mirrors] at h; exact h.elim
  | .empty t a, n, h => by
    rw [Mirrors] at h
    obtain ⟨-, ha, hc⟩ := h
    rw [Node.eachAttribute_iff, ha, hc, trimmedText_nodeEntries (by simp)]
    simp [Item.events, Event.TrimmedValue, Event.attributes, Node.EachAttributeOfList]
  | .element t a c, n, h => by
    rw [Mirrors] at h
    obtain ⟨-, ha, hc⟩ := h
    rw [Node.eachAttribute_iff, ha, trimmedText_nodeEntries trimmed_textOf?,
      trimmed_iff_of_mirrorsList c n.children hc, Item.events, List.forall_mem_cons,
      List.forall_mem_append]
    simp [Event.TrimmedValue, Event.attributes]

theorem trimmed_iff_of_mirrorsList : (c : List Item) → (ns : List Node) →
    MirrorsList .normalized c ns →
    (Node.EachAttributeOfList TrimmedText ns ↔ ∀ e ∈ eventsOfList c, e.TrimmedValue)
  | [], ns, h => by
    rw [MirrorsList] at h
    subst h
    simp [Node.EachAttributeOfList, eventsOfList]
  | i :: r, ns, h => by
    rw [MirrorsList] at h
    rw [eventsOfList, List.forall_mem_append]
    rcases h with ⟨hi, hr⟩ | ⟨n, ms, rfl, hn, hr⟩
    · have htext : ∀ e ∈ i.events, e.TrimmedValue := by
        obtain ⟨ev, s, hev, -, hkind⟩ := events_text hi
        rw [hev, List.forall_mem_singleton]
        rcases hkind with rfl | rfl <;> exact trimmedValue_of_attributes rfl
      rw [trimmed_iff_of_mirrorsList r ns hr]
      exact ⟨fun h => ⟨htext, h⟩, fun h => h.2⟩
    · rw [Node.EachAttributeOfList, trimmed_iff_of_mirrors i n hn,
        trimmed_iff_of_mirrorsList r ms hr]

end

theorem textOnly_of_mirrors (i : Item) (n : Node) (h : i.Mirrors .normalized n) :
    n.TextOnly ∧ (n.EachAttribute TrimmedText ↔ ∀ e ∈ i.events, e.TrimmedValue) :=
  ⟨Mirrors.textOnly i n h, trimmed_iff_of_mirrors i n h⟩

/-- Outside of the root there are no attributes. -/
theorem trimmedValue_iff_of_hasRoot {es : List Event} {root : Item} (h : HasRoot es root) :
    (∀ e ∈ es, e.TrimmedValue) ↔ ∀ e ∈ root.events, e.TrimmedValue := by
  obtain ⟨-, lead, trail, hlead, htrail, heq⟩ := h
  have hblank : ∀ c : List Item, (∀ i ∈ c, i.isBlank = true) →
      ∀ e ∈ eventsOfList c, e.TrimmedValue := by
    intro c
    induction c with
    | nil => simp [eventsOfList]
    | cons i r ih =>
      intro hc
      rw [eventsOfList, List.forall_mem_append]
      refine ⟨?_, ih fun j hj => hc j (by simp [hj])⟩
      have hi := hc i (by simp)
      cases i with
      | text s => simpa [Item.events] using trimmedValue_of_attributes (e := .text s) rfl
      | cdata s => simpa [Item.events] using trimmedValue_of_attributes (e := .cdata s) rfl
      | empty t a => simp [isBlank] at hi
      | element t a d => simp [isBlank] at hi
  have hother : (∀ e ∈ es, e.TrimmedValue) ↔ ∀ e ∈ es.filter (· != .other), e.TrimmedValue := by
    constructor
    · intro h e he
      exact h e (List.mem_filter.1 he).1
    · intro h e he
      by_cases ho : e = .other
      · exact trimmedValue_of_attributes (by rw [ho]; rfl)
      · exact h e (List.mem_filter.2 ⟨he, by simpa using ho⟩)
  rw [hother, heq, eventsOfList_append, eventsOfList, List.forall_mem_append,
    List.forall_mem_append]
  exact ⟨fun h => h.2.1, fun h => ⟨hblank lead hlead, h, hblank trail htrail⟩⟩

/-- A text that is read as a tree has no fault of its own. -/
theorem events_of_read {mode : TextMode} {text : String} {n : Node} (h : read mode text = .ok n) :
    events text.toList = ((events text.toList).1, none) := by
  cases hevents : events text.toList with
  | mk es fault =>
    cases fault with
    | none => rfl
    | some f =>
      -- a fault of the text is a fault of reading it, if none comes before
      rw [read, hevents] at h
      obtain ⟨p, -, hp⟩ := exists_of_bind_eq_ok h
      cases hp

/-- The events of a text that is read as a tree have the one root of the tree. -/
theorem exists_root_of_read {mode : TextMode} {text : String} {n : Node}
    (h : read mode text = .ok n) :
    ∃ root, HasRoot (events text.toList).1 root ∧ root.Mirrors mode n := by
  have hbuild : build mode (events text.toList).1 = .ok n := by
    rw [← read_eq_build (events_of_read h)]
    exact h
  exact hasRoot_of_build (distinctKeys_events text.toList) hbuild

end Markup

namespace Node

open Markup

/-- A tree is that of a text exactly if the text is read as the tree. -/
theorem ofMarkup_eq_ok_iff {mode : TextMode} {d : String} {n : Node} :
    ofMarkup mode d = .ok n ↔ read mode d = .ok n := by
  rw [ofMarkup, mapError_eq_ok_iff]

theorem exists_root_of_ofMarkup {mode : TextMode} {d : String} {n : Node}
    (h : ofMarkup mode d = .ok n) :
    ∃ root, HasRoot (events d.toList).1 root ∧ root.Mirrors mode n :=
  exists_root_of_read (ofMarkup_eq_ok_iff.1 h)

/-- **A tree of an XML text is read again from its JSON text**, with its texts trimmed, if this is
nested in fewer levels than a reader allows, and not otherwise. It is the same tree exactly if no
attribute of the name of the text is empty or untrimmed. -/
theorem ofJsonText_ofMarkup {d : String} {n : Node} (h : ofMarkup .normalized d = .ok n) :
    (n.document.nesting < Draft.depthLimit → ∃ m, ofJsonText n.text = .ok m ∧
      m.same n.trimmed = true ∧
      (m.same n = true ↔ ∀ e ∈ (events d.toList).1, e.TrimmedValue)) ∧
    (Draft.depthLimit ≤ n.document.nesting → ∃ f, ofJsonText n.text = .error (.parse f)) := by
  obtain ⟨root, hroot, hmirrors⟩ := exists_root_of_ofMarkup h
  obtain ⟨hstrings, htrimmed⟩ := textOnly_of_mirrors root n hmirrors
  have hproper : n.EachAttribute fun _ v => v.Proper := by
    refine EachAttribute.imp ?_ n hstrings
    rintro k v ⟨s, rfl⟩
    exact Json.proper_string s
  obtain ⟨hok, herror⟩ := ofJsonText_text hstrings
  refine ⟨fun hnesting => ?_, herror⟩
  obtain ⟨m, hm, hre⟩ := hok hnesting
  refine ⟨m, hm, same_of_reorders m _ hre (eachAttribute_proper_trimmed n hproper), ?_⟩
  rw [same_iff_of_reorders_trimmed hre hproper, htrimmed, trimmedValue_iff_of_hasRoot hroot]

/-- A text, an attribute of its name that is trimmed, and one of another name that is not. -/
theorem ofJsonText_ofMarkup_tidy : ∃ n m,
    ofMarkup .normalized "<a x=\" \"> t <b value=\"v\"/></a>" = .ok n ∧
      ofJsonText n.text = .ok m ∧ m.same n = true := by
  have hnesting : ((ofMarkup .normalized "<a x=\" \"> t <b value=\"v\"/></a>").map
      fun n => n.document.nesting).toOption = some 3 := by decide +kernel
  obtain ⟨n, hn, hlevels⟩ := exists_of_map_eq_ok (eq_ok_of_toOption hnesting)
  obtain ⟨m, hm, -, hsame⟩ := (ofJsonText_ofMarkup hn).1 (by rw [hlevels]; decide)
  refine ⟨n, m, hn, hm, hsame.2 ?_⟩
  have hevents : (events "<a x=\" \"> t <b value=\"v\"/></a>".toList).1 =
      [.start "a" [("x", " ")], .text " t ", .empty "b" [("value", "v")], .finish] := by
    decide +kernel
  have hv : "v" ≠ "" ∧ Text.trim "v" = "v" := by decide +kernel
  rw [hevents]
  simp [Event.TrimmedValue, Event.attributes, textName, hv]

/-- The events of elements that are nested so deeply. -/
def nestedEvents (levels : Nat) : List Event :=
  List.replicate levels (.start "a" []) ++ List.replicate levels .finish

/-- The XML text of elements that are nested so deeply. -/
def nestedText (levels : Nat) : String :=
  String.ofList ((List.replicate levels "<a>".toList).flatten ++
    (List.replicate levels "</a>".toList).flatten)

/-- A tree is not the same afterwards if an attribute of the name of the text is not trimmed, and
65 nested elements are nested too deeply to be read again. -/
theorem ofJsonText_padded_nested :
    (∃ n m, ofMarkup .normalized "<a value=\" x \"/>" = .ok n ∧ ofJsonText n.text = .ok m ∧
      m.same n = false) ∧
    ∃ n f, ofMarkup .normalized (nestedText 65) = .ok n ∧
      ofJsonText n.text = .error (.parse f) := by
  constructor
  · have hsame := eq_ok_of_toOption (x := (do
        let n ← ofMarkup .normalized "<a value=\" x \"/>"
        let m ← ofJsonText n.text
        .ok (m.same n) : Except Failure Bool)) (a := false) (by decide +kernel)
    obtain ⟨n, hn, hread⟩ := exists_of_bind_eq_ok hsame
    obtain ⟨m, hm, hno⟩ := exists_of_bind_eq_ok hread
    exact ⟨n, m, hn, hm, Except.ok.inj hno⟩
  · have hevents : events (nestedText 65).toList = (nestedEvents 65, none) := by
      rw [nestedText, String.toList_ofList]
      decide +kernel
    have hnesting : ((ofEvents .normalized (nestedEvents 65)).map
        fun n => n.document.nesting).toOption = some 129 := by decide +kernel
    rw [ofMarkup_eq_ofEvents hevents]
    obtain ⟨n, hn, hlevels⟩ := exists_of_map_eq_ok (eq_ok_of_toOption hnesting)
    obtain ⟨root, -, hmirrors⟩ := exists_root_of_ofMarkup ((ofMarkup_eq_ofEvents hevents).trans hn)
    obtain ⟨f, hf⟩ := (ofJsonText_text (textOnly_of_mirrors root n hmirrors).1).2
      (by rw [hlevels]; decide)
    exact ⟨n, f, hn, hf⟩

end Node

end Scaffold
