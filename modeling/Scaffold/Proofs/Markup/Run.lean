import Scaffold.Proofs.Markup.Item
import Scaffold.Proofs.Tree.RoundTrip

/-!
# The machine that builds trees

The machine reads the events of an element that mirrors a node as one thing: it goes on as if the
node were attached (`run_events`). The other way round, whatever it has read without a fault stands
for complete items at the top and for the elements that are still open, the content of each behind
its start tag (`Stands`). One step keeps this (`Stands.step`), and so does a run (`Stands.run`).
-/

namespace Scaffold.Markup

open Item

variable {mode : TextMode} {n : Node} {ns : List Node} {i : Item} {c : List Item}
  {p q : Progress} {es fs : List Event} {e : OpenElement}

/-! ### Closing an element -/

/-- The text of an open element is that of the content which has been read. -/
theorem OpenElement.text?_eq (ht : e.text = leadingText c) (hc : MirrorsList mode c e.children) :
    e.text? mode = textOf? mode c := by
  cases mode with
  | normalized => rw [OpenElement.text?, textOf?, ht]
  | raw =>
    have hempty := hc.isEmpty
    rw [OpenElement.text?, textOf?, ht, hempty]
    cases hany : c.any isElement with
    | false => simp
    | true =>
      cases hblank : Text.isBlankText (leadingText c) with
      | false => simp
      | true => simp

/-- The attributes of a tag as they are given to a node. -/
def own (a : List (String × String)) : List (String × Json) :=
  a.map fun (k, v) => (k, Json.string v)

theorem keys_own (a : List (String × String)) : Entries.keys (own a) = Entries.keys a := by
  simp [own, Entries.keys, List.map_map, Function.comp_def]

theorem entries_own {a : List (String × String)} (h : (Entries.keys a).Nodup) :
    (Attributes.ofList (own a)).entries = nodeEntries none a := by
  rw [Attributes.entries_ofList (by rw [keys_own]; exact h)]
  rfl

theorem entries_text_own {a : List (String × String)} (h : (Entries.keys a).Nodup) {s : String}
    (hs : textName ∉ Entries.keys a) :
    ((Attributes.empty.insert textName (.string s)).insertAll (own a)).entries =
      nodeEntries (some s) a := by
  have hfirst : (Attributes.empty.insert textName (.string s)).entries =
      [(textName, .string s)] := rfl
  rw [Attributes.entries_insertAll, hfirst]
  · rfl
  · rw [hfirst, List.singleton_append, Entries.keys_cons, keys_own]
    exact List.nodup_cons.2 ⟨hs, h⟩

/-- **An element closes to a node** of its name, its text and attributes, and its children. -/
theorem OpenElement.close_eq_ok_iff (h : (Entries.keys e.attributes).Nodup) :
    e.close mode = .ok n ↔ n.tag = e.tag ∧
      n.attributes.entries = nodeEntries (e.text? mode) e.attributes ∧ n.children = e.children := by
  have hattributes : ∀ a : Attributes, n.attributes = a ↔ n.attributes.entries = a.entries := by
    intro a
    obtain ⟨es, hes⟩ := a
    cases n.attributes
    simp
  have hany : (own e.attributes).any (·.1 == textName) = true ↔
      textName ∈ Entries.keys e.attributes := by
    rw [← keys_own]
    simp [Entries.keys]
  cases htext : e.text? mode with
  | none =>
    have hclose : e.close mode = Node.make e.tag (Attributes.ofList (own e.attributes)) e.children := by
      simp only [OpenElement.close, htext, own]
    rw [hclose, Node.make_eq_ok_iff, hattributes, entries_own h]
  | some s =>
    have hclose : e.close mode = if (own e.attributes).any (·.1 == textName) then
        .error (.textAndValue e.tag)
      else Node.make e.tag
        ((Attributes.empty.insert textName (.string s)).insertAll (own e.attributes)) e.children := by
      rw [OpenElement.close]
      simp only [htext]
      rfl
    rw [hclose]
    by_cases hs : textName ∈ Entries.keys e.attributes
    · -- both a text and an attribute of its name: there is no such node
      rw [if_pos (hany.2 hs)]
      refine ⟨fun herror => (by cases herror), ?_⟩
      rintro ⟨ht, hn, -⟩
      exact absurd ((soundTag_of_entries ht hn).single hs) (by simp)
    · rw [if_neg (fun hb => hs (hany.1 hb)), Node.make_eq_ok_iff, hattributes,
        entries_text_own h hs]

/-- An element without content closes to the node that mirrors it. -/
theorem close_start_eq_ok_iff {t : String} {a : List (String × String)}
    (hd : (Entries.keys a).Nodup) :
    (OpenElement.start t a).close mode = .ok n ↔ (Item.empty t a).Mirrors mode n := by
  have htext : (OpenElement.start t a).text? mode = none := by cases mode <;> rfl
  rw [OpenElement.close_eq_ok_iff hd, htext, Mirrors]
  rfl

/-- An element into which its content has been read closes to the node that mirrors both. -/
theorem OpenElement.close_eq_ok_iff_mirrors (hd : (Entries.keys e.attributes).Nodup)
    (htext : e.text = leadingText c) (hc : MirrorsList mode c e.children) :
    e.close mode = .ok n ↔
      (Item.element e.tag e.attributes c).Mirrors mode n ∧ n.children = e.children := by
  rw [OpenElement.close_eq_ok_iff hd, OpenElement.text?_eq htext hc, Mirrors]
  constructor
  · rintro ⟨ht, ha, hchildren⟩
    exact ⟨⟨ht, ha, hchildren ▸ hc⟩, hchildren⟩
  · rintro ⟨⟨ht, ha, -⟩, hchildren⟩
    exact ⟨ht, ha, hchildren⟩

/-! ### Reading an item -/

/-- An open element after items with these nodes. -/
def OpenElement.take (e : OpenElement) (c : List Item) (ns : List Node) : OpenElement :=
  { e with
    text := if e.children.isEmpty then e.text ++ leadingText c else e.text
    children := e.children ++ ns }

theorem attach_open (e : OpenElement) (es : List OpenElement) (r : Option Node) (n : Node) :
    Progress.attach ⟨e :: es, r⟩ n =
      .ok ⟨{ e with children := e.children ++ [n] } :: es, r⟩ := rfl

theorem addText_open (e : OpenElement) (es : List OpenElement) (r : Option Node) (s : String) :
    Progress.addText ⟨e :: es, r⟩ s =
      .ok ⟨{ e with text := if e.children.isEmpty then e.text ++ s else e.text } :: es, r⟩ := by
  simp only [Progress.addText]
  split_ifs <;> rfl

theorem take_nil (e : OpenElement) : e.take [] [] = e := by
  rw [OpenElement.take]
  simp [leadingText]

theorem take_text (e : OpenElement) (h : i.isElement = false) (c : List Item) (ns : List Node) :
    ({ e with text := if e.children.isEmpty then e.text ++ leadingText [i] else e.text } :
      OpenElement).take c ns = e.take (i :: c) ns := by
  have hlead : leadingText (i :: c) = leadingText [i] ++ leadingText c := by
    have happend := leadingText_append [i] c
    simpa [h] using happend
  simp only [OpenElement.take, hlead]
  split_ifs
  · rw [String.append_assoc]
  · rfl

/-- The text of an element ends at its first child. -/
theorem leadingText_cons_of_isElement (h : i.isElement = true) (c : List Item) :
    leadingText (i :: c) = "" := by
  cases i <;> simp_all [isElement, leadingText]

theorem take_element (e : OpenElement) (h : i.isElement = true) (c : List Item) (n : Node)
    (ns : List Node) :
    ({ e with children := e.children ++ [n] } : OpenElement).take c ns = e.take (i :: c) (n :: ns) := by
  have hfull : (e.children ++ [n]).isEmpty = false := by simp
  simp [OpenElement.take, leadingText_cons_of_isElement h, hfull]

mutual

/-- **An element is read as a whole.** -/
theorem run_events : (i : Item) → (n : Node) → i.Mirrors mode n → ∀ p fs,
    run mode p (i.events ++ fs) = (p.attach n).bind fun q => run mode q fs
  | .text _, _, h, _, _ => by rw [Mirrors] at h; exact h.elim
  | .cdata _, _, h, _, _ => by rw [Mirrors] at h; exact h.elim
  | .empty t a, n, h, p, fs => by
    have hd : (Entries.keys a).Nodup := by
      rw [Mirrors] at h
      exact nodup_of_entries h.2.1
    rw [Item.events, List.singleton_append, run, Progress.step, (close_start_eq_ok_iff hd).2 h]
    rfl
  | .element t a c, n, h, p, fs => by
    have hparts := h
    rw [Mirrors] at hparts
    -- the content is read into the element that its start tag has opened
    have hcontent := run_eventsOfList c n.children hparts.2.2 (.start t a) p.stack p.root
      (.finish :: fs)
    have hclose : ((OpenElement.start t a).take c n.children).close mode = .ok n :=
      (OpenElement.close_eq_ok_iff_mirrors (c := c) (nodup_of_entries hparts.2.1)
        (by simp [OpenElement.take, OpenElement.start])
        (by simpa [OpenElement.take, OpenElement.start] using hparts.2.2)).2
          ⟨h, by simp [OpenElement.take, OpenElement.start]⟩
    rw [Item.events, List.cons_append, List.append_assoc, List.singleton_append, run,
      Progress.step]
    refine hcontent.trans ?_
    rw [run, Progress.step]
    simp only [hclose]
    rfl

theorem run_eventsOfList : (c : List Item) → (ns : List Node) → MirrorsList mode c ns →
    ∀ e es r fs, run mode ⟨e :: es, r⟩ (eventsOfList c ++ fs) = run mode ⟨e.take c ns :: es, r⟩ fs
  | [], ns, h, e, es, r, fs => by
    rw [MirrorsList] at h
    subst h
    rw [take_nil]
    rfl
  | i :: c, ns, h, e, es, r, fs => by
    rw [MirrorsList] at h
    rw [eventsOfList, List.append_assoc]
    rcases h with ⟨hi, hc⟩ | ⟨n, ms, rfl, hn, hc⟩
    · obtain ⟨ev, s, hev, hs, hkind⟩ := events_text hi
      have hstep : Progress.step mode ⟨e :: es, r⟩ ev = Progress.addText ⟨e :: es, r⟩ s := by
        rcases hkind with rfl | rfl <;> rfl
      rw [hev, List.singleton_append, run, hstep, addText_open, ← hs]
      refine (run_eventsOfList c ns hc _ es r fs).trans ?_
      rw [take_text e hi]
    · rw [run_events i n hn, attach_open]
      refine (run_eventsOfList c ms hc _ es r fs).trans ?_
      rw [take_element e hn.isElement]

end

/-! ### What has been read -/

/-- The events from the outermost open element on: each element behind its start tag has the items
that have been read of it. -/
inductive Opened (mode : TextMode) : List Event → List OpenElement → Prop
  | nil : Opened mode [] []
  | cons {es : List Event} {stack : List OpenElement} {e : OpenElement} {c : List Item} :
      Opened mode es stack → (Entries.keys e.attributes).Nodup → e.text = leadingText c →
      MirrorsList mode c e.children →
      Opened mode (es ++ .start e.tag e.attributes :: eventsOfList c) (e :: stack)

/-- The items outside of all open elements: blank texts, and the root once it is complete. -/
inductive Outside (mode : TextMode) : List Item → Option Node → Prop
  | blank {lead : List Item} : (∀ i ∈ lead, i.isBlank = true) → Outside mode lead none
  | rooted {lead trail : List Item} {root : Item} {n : Node} :
      (∀ i ∈ lead, i.isBlank = true) → root.Mirrors mode n → (∀ i ∈ trail, i.isBlank = true) →
      Outside mode (lead ++ root :: trail) (some n)

/-- **What the machine has read**: the items outside, and then those of the open elements. -/
def Stands (mode : TextMode) (es : List Event) (p : Progress) : Prop :=
  ∃ items opened, Outside mode items p.root ∧ Opened mode opened p.stack ∧
    es = eventsOfList items ++ opened

theorem stands_start (mode : TextMode) : Stands mode [] .start :=
  ⟨[], [], .blank (by simp), .nil, rfl⟩

/-- A text that is read is one more item, of the innermost element or outside. -/
theorem Stands.addText (h : Stands mode es p) (hi : i.isElement = false) {s : String}
    (hs : leadingText [i] = s) (hq : p.addText s = .ok q) : Stands mode (es ++ i.events) q := by
  obtain ⟨items, opened, hout, hopen, rfl⟩ := h
  obtain ⟨stack, root⟩ := p
  cases stack with
  | nil =>
    -- outside, the text is blank
    cases hopen
    rw [Progress.addText] at hq
    split_ifs at hq with hblank
    cases hq
    have hi' : i.isBlank = true := by
      cases i <;> simp_all [leadingText, isElement, Item.isBlank]
    refine ⟨items ++ [i], [], ?_, .nil, by
      rw [eventsOfList_append, eventsOfList_singleton, List.append_nil, List.append_nil]⟩
    cases hout with
    | blank hlead =>
      refine .blank fun j hj => ?_
      rcases List.mem_append.1 hj with hj | hj
      · exact hlead j hj
      · exact List.mem_singleton.1 hj ▸ hi'
    | rooted hlead hroot htrail =>
      rw [List.append_assoc, List.cons_append]
      refine .rooted hlead hroot fun j hj => ?_
      rcases List.mem_append.1 hj with hj | hj
      · exact htrail j hj
      · exact List.mem_singleton.1 hj ▸ hi'
  | cons e stack =>
    rw [addText_open] at hq
    cases hq
    cases hopen with
    | @cons opened _ _ c hstack hd htext hc =>
      refine ⟨items, _, hout, .cons (c := c ++ [i]) hstack hd ?_ ?_, ?_⟩
      · -- the text counts exactly if no child has come before it
        rw [leadingText_append, hs, hc.isEmpty, htext]
        cases c.any isElement <;> rfl
      · simpa using hc.append (mirrorsList_text hi)
      · rw [eventsOfList_append, eventsOfList_singleton]
        simp only [List.append_assoc, List.cons_append]

/-- An element that is complete is one more item, of the innermost open element or outside. -/
theorem Stands.attach (h : Stands mode es p) (hn : i.Mirrors mode n) (hq : p.attach n = .ok q) :
    Stands mode (es ++ i.events) q := by
  obtain ⟨items, opened, hout, hopen, rfl⟩ := h
  obtain ⟨stack, root⟩ := p
  cases stack with
  | nil =>
    cases hopen
    cases hout with
    | rooted hlead hroot htrail =>
      -- there is a root already
      cases hq
    | blank hlead =>
      cases hq
      refine ⟨items ++ [i], [], .rooted hlead hn (by simp), .nil, ?_⟩
      rw [eventsOfList_append, eventsOfList_singleton, List.append_nil, List.append_nil]
  | cons e stack =>
    rw [attach_open] at hq
    cases hq
    cases hopen with
    | @cons opened _ _ c hstack hd htext hc =>
      refine ⟨items, _, hout, .cons (c := c ++ [i]) hstack hd ?_ ?_, ?_⟩
      · rw [leadingText_append, leadingText_cons_of_isElement hn.isElement, String.append_empty,
          ite_self]
        exact htext
      · exact hc.append (mirrorsList_element hn)
      · rw [eventsOfList_append, eventsOfList_singleton]
        simp only [List.append_assoc, List.cons_append]

/-- **One step keeps what the state stands for**; comments and the like stand for nothing. -/
theorem Stands.step {ev : Event} (h : Stands mode es p) (hd : ev.DistinctKeys)
    (hq : p.step mode ev = .ok q) : Stands mode (es ++ [ev].filter (· != .other)) q := by
  cases ev with
  | start t a =>
    obtain ⟨items, opened, hout, hopen, rfl⟩ := h
    cases hq
    refine ⟨items, _, hout, .cons (e := .start t a) (c := []) hopen hd rfl (by
      rw [MirrorsList]; rfl), ?_⟩
    rw [List.append_assoc]
    rfl
  | empty t a =>
    rw [Progress.step] at hq
    cases hclose : (OpenElement.start t a).close mode with
    | error f => rw [hclose] at hq; cases hq
    | ok n =>
      rw [hclose] at hq
      exact h.attach ((close_start_eq_ok_iff hd).1 hclose) hq
  | finish =>
    obtain ⟨items, opened, hout, hopen, rfl⟩ := h
    obtain ⟨stack, root⟩ := p
    cases hopen with
    | nil => cases hq
    | @cons opened stack e c hstack hdist htext hc =>
      rw [Progress.step] at hq
      cases hclose : e.close mode with
      | error f => simp only [hclose] at hq; cases hq
      | ok n =>
        simp only [hclose] at hq
        have hn : (Item.element e.tag e.attributes c).Mirrors mode n :=
          ((OpenElement.close_eq_ok_iff_mirrors hdist htext hc).1 hclose).1
        -- before its start tag, the state was that without the element
        have hbefore : Stands mode (eventsOfList items ++ opened) ⟨stack, root⟩ :=
          ⟨items, opened, hout, hstack, rfl⟩
        have hafter := hbefore.attach hn hq
        rw [Item.events] at hafter
        simpa [List.append_assoc] using hafter
  | text s => exact h.addText (i := .text s) rfl (by simp [leadingText]) hq
  | cdata s => exact h.addText (i := .cdata s) rfl (by simp [leadingText]) hq
  | other =>
    cases hq
    simpa using h

/-- **A run keeps what the state stands for.** -/
theorem Stands.run (h : Stands mode es p) (hd : ∀ ev ∈ fs, ev.DistinctKeys)
    (hq : run mode p fs = .ok q) : Stands mode (es ++ fs.filter (· != .other)) q := by
  induction fs generalizing es p with
  | nil =>
    cases hq
    simpa using h
  | cons ev r ih =>
    rw [Markup.run] at hq
    cases hstep : p.step mode ev with
    | error f => rw [hstep] at hq; cases hq
    | ok p' =>
      rw [hstep] at hq
      have hp' := h.step (hd ev (by simp)) hstep
      have hrest := ih hp' (fun e he => hd e (by simp [he])) hq
      rw [List.append_assoc, ← List.filter_append] at hrest
      exact hrest

end Scaffold.Markup
