import Scaffold.Input
import Scaffold.Proofs.Markup.Run

/-!
# Documents with one root

A sequence of events `HasRoot` if it is, but for comments and the like, one element between blank
texts. These are the sequences from which a tree is built, as far as the root is sound, and the
tree mirrors the root; any other sequence is a fault (`ofEvents_of_distinct`). A text without a
fault of its own is read as its events are (`ofMarkup_eq_ofEvents`).
-/

namespace Scaffold

namespace Markup

open Item

variable {mode : TextMode} {es : List Event} {root root' : Item} {n : Node}

/-- **One element between blank texts**; comments, instructions and declarations do not count. -/
def HasRoot (es : List Event) (root : Item) : Prop :=
  root.isElement = true ∧ ∃ lead trail : List Item,
    (∀ i ∈ lead, i.isBlank = true) ∧ (∀ i ∈ trail, i.isBlank = true) ∧
      es.filter (· != .other) = eventsOfList (lead ++ root :: trail)

/-- **A document has one root.** -/
theorem HasRoot.unique (h : HasRoot es root) (h' : HasRoot es root') : root = root' := by
  obtain ⟨hroot, lead, trail, hlead, htrail, hes⟩ := h
  obtain ⟨hroot', lead', trail', hlead', htrail', hes'⟩ := h'
  have hitems := Item.eventsOfList_injective (hes.symm.trans hes')
  have hno : ∀ c : List Item, (∀ i ∈ c, i.isBlank = true) → c.filter isElement = [] := by
    intro c hc
    rw [List.filter_eq_nil_iff]
    intro i hi helement
    have hblank := hc i hi
    cases i <;> simp_all [isBlank, isElement]
  -- it is the one element of the items
  have honly := congrArg (List.filter isElement) hitems
  rw [List.filter_append, List.filter_append, List.filter_cons_of_pos hroot,
    List.filter_cons_of_pos hroot', hno lead hlead, hno trail htrail, hno lead' hlead',
    hno trail' htrail'] at honly
  exact (List.cons.inj honly).1

/-- The tags of the root repeat no attribute if none of the events does. -/
theorem HasRoot.distinctKeys (h : HasRoot es root) (hd : ∀ e ∈ es, e.DistinctKeys) :
    ∀ e ∈ root.events, e.DistinctKeys := by
  obtain ⟨-, lead, trail, -, -, heq⟩ := h
  intro e he
  have hmem : e ∈ es.filter (· != .other) := by
    rw [heq, eventsOfList_append, eventsOfList]
    simp [he]
  exact hd e (List.mem_filter.1 hmem).1

theorem run_filter (mode : TextMode) (p : Progress) (es : List Event) :
    run mode p (es.filter (· != .other)) = run mode p es := by
  induction es generalizing p with
  | nil => rfl
  | cons e r ih =>
    by_cases he : e = .other
    · subst he
      have hstep : p.step mode .other = .ok p := rfl
      rw [run, hstep]
      exact ih p
    · rw [List.filter_cons_of_pos (by simpa using he), run, run]
      cases p.step mode e with
      | error f => rfl
      | ok q => exact ih q

/-- Outside of all elements, blank texts change nothing. -/
theorem run_blank {c : List Item} (hc : ∀ i ∈ c, i.isBlank = true) (root : Option Node)
    (es : List Event) : run mode ⟨[], root⟩ (eventsOfList c ++ es) = run mode ⟨[], root⟩ es := by
  induction c with
  | nil => rfl
  | cons i r ih =>
    have hi := hc i (by simp)
    have hr := ih fun j hj => hc j (by simp [hj])
    cases i with
    | text s =>
      have hstep : Progress.step mode ⟨[], root⟩ (.text s) = .ok ⟨[], root⟩ := if_pos hi
      rw [eventsOfList, Item.events, List.append_assoc, List.singleton_append, run, hstep]
      exact hr
    | cdata s =>
      have hstep : Progress.step mode ⟨[], root⟩ (.cdata s) = .ok ⟨[], root⟩ := if_pos hi
      rw [eventsOfList, Item.events, List.append_assoc, List.singleton_append, run, hstep]
      exact hr
    | empty t a => simp [isBlank] at hi
    | element t a d => simp [isBlank] at hi

/-- A root that mirrors a node is built as that node. -/
theorem build_of_hasRoot (h : HasRoot es root) (hn : root.Mirrors mode n) :
    build mode es = .ok n := by
  obtain ⟨-, lead, trail, hlead, htrail, hes⟩ := h
  have hattach : Progress.attach ⟨[], none⟩ n = .ok ⟨[], some n⟩ := rfl
  have hrun : run mode .start es = .ok ⟨[], some n⟩ := by
    calc run mode .start es
        = run mode ⟨[], none⟩ (eventsOfList lead ++ (root.events ++ eventsOfList trail)) := by
          rw [← run_filter, hes, eventsOfList_append, eventsOfList]; rfl
      _ = run mode ⟨[], none⟩ (root.events ++ eventsOfList trail) := run_blank hlead _ _
      _ = run mode ⟨[], some n⟩ (eventsOfList trail ++ []) := by
          rw [run_events root n hn, hattach, List.append_nil]; rfl
      _ = .ok ⟨[], some n⟩ := run_blank htrail _ _
  rw [build, hrun]
  rfl

/-- Whatever is built mirrors the one root of the events. -/
theorem hasRoot_of_build (hd : ∀ e ∈ es, e.DistinctKeys) (h : build mode es = .ok n) :
    ∃ root, HasRoot es root ∧ root.Mirrors mode n := by
  rw [build] at h
  cases hrun : run mode .start es with
  | error f => rw [hrun] at h; cases h
  | ok p =>
    rw [hrun] at h
    have hstands := (stands_start mode).run hd hrun
    obtain ⟨items, opened, hout, hopen, heq⟩ := hstands
    obtain ⟨stack, r⟩ := p
    -- no element is open at the end, and there is a root
    cases hopen with
    | cons _ _ _ _ => cases h
    | nil =>
      cases hout with
      | blank _ => cases h
      | @rooted lead trail root m hlead hroot htrail =>
        cases h
        refine ⟨root, ⟨hroot.isElement, lead, trail, hlead, htrail, ?_⟩, hroot⟩
        rw [List.nil_append, List.append_nil] at heq
        exact heq

theorem read_eq_build {text : String} (h : events text.toList = (es, none)) :
    read mode text = build mode es := by
  rw [read, h, build]

end Markup

namespace Node

open Markup

variable {mode : TextMode} {es : List Event}

/-- The tree of a sequence of events. -/
def ofEvents (mode : TextMode) (es : List Event) : Except Failure Node :=
  (build mode es).mapError fun f => .parse f.message

theorem ofMarkup_eq_ofEvents {text : String} (h : events text.toList = (es, none)) :
    ofMarkup mode text = ofEvents mode es := by rw [ofMarkup, ofEvents, read_eq_build h]

theorem ofEvents_eq_ok_iff {n : Node} : ofEvents mode es = .ok n ↔ build mode es = .ok n := by
  rw [ofEvents]
  cases build mode es <;> simp [Except.mapError]

/-- **A tree is built exactly from the events of one sound root** between blank texts, and it
mirrors the root; all other events are a failure of parsing. -/
theorem ofEvents_of_distinct (mode : TextMode) (es : List Event)
    (hd : ∀ e ∈ es, e.DistinctKeys) :
    (∀ n, ofEvents mode es = .ok n ↔ ∃ root, HasRoot es root ∧ root.Mirrors mode n) ∧
      ((∃ n, ofEvents mode es = .ok n) ↔ ∃ root, HasRoot es root ∧ root.Sound mode) ∧
      ((¬∃ root, HasRoot es root ∧ root.Sound mode) →
        ∃ d, ofEvents mode es = .error (.parse d)) := by
  have hok : ∀ n, ofEvents mode es = .ok n ↔ ∃ root, HasRoot es root ∧ root.Mirrors mode n := by
    intro n
    rw [ofEvents_eq_ok_iff]
    constructor
    · exact hasRoot_of_build hd
    · rintro ⟨root, hroot, hn⟩
      exact build_of_hasRoot hroot hn
  have hsound : (∃ n, ofEvents mode es = .ok n) ↔ ∃ root, HasRoot es root ∧ root.Sound mode := by
    constructor
    · rintro ⟨n, hn⟩
      obtain ⟨root, hroot, hmirrors⟩ := (hok n).1 hn
      exact ⟨root, hroot, Item.Mirrors.sound root n hmirrors⟩
    · rintro ⟨root, hroot, hs⟩
      obtain ⟨helement, lead, trail, -, -, heq⟩ := id hroot
      have hevents : ∀ e ∈ root.events, e.DistinctKeys := by
        intro e he
        have hmem : e ∈ es.filter (· != .other) := by
          rw [heq, Item.eventsOfList_append, Item.eventsOfList]
          simp [he]
        exact hd e (List.mem_filter.1 hmem).1
      obtain ⟨n, hn⟩ := Item.exists_mirrors root helement hs hevents
      exact ⟨n, (hok n).2 ⟨root, hroot, hn⟩⟩
  refine ⟨hok, hsound, fun hno => ?_⟩
  rw [← hsound] at hno
  cases hbuild : build mode es with
  | ok n => exact absurd ⟨n, ofEvents_eq_ok_iff.2 hbuild⟩ hno
  | error f => exact ⟨f.message, by rw [ofEvents, hbuild]; rfl⟩

/-- A comment, a blank text, and an element with an attribute, texts and a child. -/
def greeting : List Event :=
  [.other, .text "\n", .start "a" [("x", "1")], .text " hi", .other, .cdata " & ", .empty "b" [],
    .text "late", .finish, .text " "]

def greetingRoot : Item :=
  .element "a" [("x", "1")] [.text " hi", .cdata " & ", .empty "b" [], .text "late"]

theorem ofEvents_greeting : (∀ e ∈ greeting, e.DistinctKeys) ∧
    ∃ n, ofEvents .normalized greeting = .ok n := by
  have hd : ∀ e ∈ greeting, e.DistinctKeys := by decide
  have hroot : HasRoot greeting greetingRoot :=
    ⟨rfl, [.text "\n"], [.text " "], by decide, by decide, by decide⟩
  have hb : Item.SoundTag "b" [] none := ⟨by decide, by decide, fun _ => rfl⟩
  have hs : greetingRoot.Sound .normalized := by
    rw [greetingRoot, Item.Sound]
    exact ⟨⟨by decide, by decide, fun h => absurd h (by decide)⟩,
      by simp [Item.SoundList, Item.Sound, hb]⟩
  exact ⟨hd, (ofEvents_of_distinct .normalized greeting hd).2.1.2 ⟨greetingRoot, hroot, hs⟩⟩

end Node

end Scaffold
