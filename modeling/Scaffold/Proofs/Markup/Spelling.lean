import Scaffold.Proofs.Markup.Reads
import Scaffold.Proofs.Markup.Root

/-!
# Texts that spell nodes

`Spells` relates a piece of text to the node that is built from it, and `SpellsList` the text between
two tags to the nodes of its elements. The second is put together from text and elements
(`SpellsList.ofText`, `SpellsList.cons`) and makes up an element (`SpellsList.element`); a document
that spells a node is read as that node (`Spells.read`).
-/

namespace Scaffold.Markup

open Item

variable {mode : TextMode} {tag : String} {a : List (String × String)} {cs ds : List Char}
  {i : Item} {c : List Item} {n : Node} {ns : List Node}

/-- The text is an element, wherever it stands, and the node is what the element stands for. -/
structure Spells (mode : TextMode) (cs : List Char) (i : Item) (n : Node) : Prop where
  head : cs.head? = some '<'
  reads : ∀ names, Reads names cs i.events names
  mirrors : i.Mirrors mode n

/-- The text in front of an end tag holds these items, and the nodes are those of its elements. -/
structure SpellsList (mode : TextMode) (cs : List Char) (c : List Item) (ns : List Node) : Prop where
  leads : ∀ names, Leads names cs (eventsOfList c)
  mirrors : MirrorsList mode c ns

theorem SpellsList.ofText (mode : TextMode) (s : String) :
    SpellsList mode (escape s.toList) (ofText s) [] :=
  ⟨fun names => leads_text names s, mirrorsList_ofText s⟩

theorem SpellsList.cons (h : SpellsList mode ds c ns) (hi : Spells mode cs i n) (s : String) :
    SpellsList mode (escape s.toList ++ (cs ++ ds)) (Item.ofText s ++ i :: c) (n :: ns) where
  leads names := by
    rw [eventsOfList_append, eventsOfList]
    exact (h.leads names).cons (hi.reads names) hi.head s
  mirrors := by
    refine (mirrorsList_ofText s).append ?_
    rw [MirrorsList]
    exact .inr ⟨n, ns, rfl, hi.mirrors, h.mirrors⟩

/-- **A sound element spells a node** over the nodes of its content. -/
theorem SpellsList.element (h : SpellsList mode cs c ns) (ht : IsName tag)
    (ha : ∀ e ∈ a, IsName e.1) (hd : (Entries.keys a).Nodup)
    (hsound : SoundTag tag a (textOf? mode c)) :
    ∃ n, Spells mode (elementText tag a cs) (.element tag a c) n ∧ n.children = ns := by
  obtain ⟨n, hn, hchildren⟩ := exists_mirrors_element h.mirrors hsound hd
  exact ⟨n, ⟨rfl, fun names => (h.leads (tag :: names)).element ht ha hd, hn⟩, hchildren⟩

theorem isBlank_ofText {s : String} (h : Text.isBlankText s = true) :
    ∀ i ∈ Item.ofText s, i.isBlank = true := by
  intro i hi
  rw [Item.ofText] at hi
  split_ifs at hi
  · cases hi
  · rw [List.mem_singleton] at hi
    subst hi
    exact h

mutual

/-- Items are written without comments and the like. -/
theorem filter_events : (i : Item) → i.events.filter (· != .other) = i.events
  | .text _ => rfl
  | .cdata _ => rfl
  | .empty _ _ => rfl
  | .element t a c => by
    have hother : ∀ e : Event, (e != .other) = true → ∀ es : List Event,
        (e :: es).filter (· != .other) = e :: es.filter (· != .other) :=
      fun e he es => List.filter_cons_of_pos he
    rw [Item.events, hother _ rfl, List.filter_append, filter_eventsOfList c, hother _ rfl]
    rfl

theorem filter_eventsOfList : (c : List Item) →
    (eventsOfList c).filter (· != .other) = eventsOfList c
  | [] => rfl
  | i :: r => by rw [eventsOfList, List.filter_append, filter_events i, filter_eventsOfList r]

end

/-- **A document is read as the node that its root spells.** -/
theorem Spells.read (h : Spells mode cs i n) {lead trail : String}
    (hlead : Text.isBlankText lead = true) (htrail : Text.isBlankText trail = true) :
    Markup.read mode (String.ofList (escape lead.toList ++ (cs ++ escape trail.toList))) = .ok n := by
  have hevents := events_document (h.reads []) h.head hlead trail
  rw [read_eq_build (by rw [String.toList_ofList]; exact hevents)]
  refine build_of_hasRoot ⟨h.mirrors.isElement, Item.ofText lead, Item.ofText trail,
    isBlank_ofText hlead, isBlank_ofText htrail, ?_⟩ h.mirrors
  rw [← eventsOfList, ← eventsOfList_append]
  exact filter_eventsOfList _

end Scaffold.Markup
