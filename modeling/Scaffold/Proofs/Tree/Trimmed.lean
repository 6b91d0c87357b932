import Scaffold.Proofs.Tree.Attributes
import Scaffold.Text.Blank
import Scaffold.Tree.Node

/-!
# Trees with trimmed texts

`Node.trimmed` is the tree with the text of every node trimmed, and without the texts of which
nothing remains. Trees that are equal but for the order of attributes are related by
`Node.Reorders`; they are the same (`same_of_reorders`). A tree is the same as its trimmed one
exactly if each text is trimmed already and not empty (`same_iff_of_reorders_trimmed`).
-/

namespace Scaffold

namespace Attributes

variable {a b : Attributes} {e : String × Json} {s : String}

/-- The text of a node is trimmed, or left out if nothing remains; every other attribute stays. -/
def trimEntry : String × Json → Option (String × Json)
  | (k, .string s) =>
    if k = textName then (Text.trimmed? s).map fun t => (k, .string t) else some (k, .string s)
  | e => some e

@[simp] theorem trimEntry_text (s : String) :
    trimEntry (textName, .string s) = (Text.trimmed? s).map fun t => (textName, .string t) := by
  simp [trimEntry]

theorem isText_iff : Node.isText e = true ↔ ∃ s, e = (textName, .string s) := by
  obtain ⟨k, v⟩ := e
  cases v <;> simp [Node.isText, Json.isString]

theorem trimEntry_of_not_text (h : Node.isText e = false) : trimEntry e = some e := by
  obtain ⟨k, v⟩ := e
  cases v with
  | string s =>
    have hk : k ≠ textName := by simpa [Node.isText, Json.isString] using h
    simp [trimEntry, hk]
  | _ => rfl

/-- What trimming leaves of an entry is of the same name. -/
theorem fst_of_trimEntry {e' : String × Json} (h : trimEntry e = some e') : e'.1 = e.1 := by
  cases ht : Node.isText e with
  | false =>
    rw [trimEntry_of_not_text ht] at h
    rw [Option.some.inj h]
  | true =>
    obtain ⟨s, rfl⟩ := isText_iff.1 ht
    rw [trimEntry_text, Option.map_eq_some_iff] at h
    obtain ⟨t, -, rfl⟩ := h
    rfl

theorem keys_trimEntry_sublist (es : List (String × Json)) :
    (Entries.keys (es.filterMap trimEntry)).Sublist (Entries.keys es) := by
  induction es with
  | nil => simp
  | cons e r ih =>
    rw [List.filterMap_cons, Entries.keys_cons]
    cases h : trimEntry e with
    | none => exact ih.cons _
    | some e' =>
      simp only [Entries.keys_cons, fst_of_trimEntry h]
      exact ih.cons_cons _

/-- The attributes with the text trimmed, or without it if it is blank. -/
def trimmed (a : Attributes) : Attributes :=
  ⟨a.entries.filterMap trimEntry, List.Nodup.sublist (keys_trimEntry_sublist a.entries) a.distinct⟩

theorem mem_keys_of_trimmed {k : String} (h : k ∈ a.trimmed.keys) : k ∈ a.keys :=
  (keys_trimEntry_sublist a.entries).subset h

/-- A text that trimming does not change. -/
def TrimmedText (k : String) (v : Json) : Prop :=
  k = textName → ∀ s, v = .string s → s ≠ "" ∧ Text.trim s = s

theorem trimEntry_eq_self (h : TrimmedText e.1 e.2) : trimEntry e = some e := by
  cases ht : Node.isText e with
  | false => exact trimEntry_of_not_text ht
  | true =>
    obtain ⟨s, rfl⟩ := isText_iff.1 ht
    obtain ⟨hne, htrim⟩ := h rfl s rfl
    simp [Text.trimmed?, htrim, hne]

theorem trimmed_eq_self (h : ∀ e ∈ a.entries, TrimmedText e.1 e.2) : a.trimmed = a := by
  obtain ⟨es, hd⟩ := a
  have hes : es.filterMap trimEntry = es := by
    rw [List.filterMap_congr fun e he => trimEntry_eq_self (h e he), List.filterMap_some]
  simp only [trimmed, hes]

theorem proper_trimmed (h : ∀ e ∈ a.entries, e.2.Proper) : ∀ e ∈ a.trimmed.entries, e.2.Proper := by
  intro e' he'
  obtain ⟨e, he, ht⟩ := List.mem_filterMap.1 he'
  cases htext : Node.isText e with
  | false =>
    rw [trimEntry_of_not_text htext] at ht
    exact Option.some.inj ht ▸ h e he
  | true =>
    obtain ⟨s, rfl⟩ := isText_iff.1 htext
    rw [trimEntry_text, Option.map_eq_some_iff] at ht
    obtain ⟨t, -, rfl⟩ := ht
    simp

/-- **Only trimmed texts stay the same when they are trimmed.** -/
theorem trimmedText_of_same (hperm : b.entries.Perm a.trimmed.entries) (h : b.same a = true) :
    ∀ e ∈ a.entries, TrimmedText e.1 e.2 := by
  rintro ⟨k, v⟩ he hk s hv
  obtain rfl : k = textName := hk
  obtain rfl : v = .string s := hv
  -- nothing has been left out, since the lengths agree
  have hlen : (a.entries.filterMap trimEntry).length = a.entries.length :=
    hperm.length_eq.symm.trans (length_eq_of_same h)
  have hsome := List.filterMap_length_eq_length.1 hlen _ he
  rw [trimEntry_text, Option.isSome_map] at hsome
  obtain ⟨t, ht⟩ := Option.isSome_iff_exists.1 hsome
  have hmem : (textName, Json.string t) ∈ a.trimmed.entries :=
    List.mem_filterMap.2 ⟨_, he, by simp [ht]⟩
  obtain ⟨w, hw, hsame⟩ := exists_of_same h (hperm.mem_iff.2 hmem)
  rw [get?_eq_some_iff.2 he] at hw
  obtain rfl := Option.some.inj hw
  obtain rfl : t = s := by simpa [Json.same] using hsame
  rw [Text.trimmed?] at ht
  split_ifs at ht with hne
  have htrim := Option.some.inj ht
  exact ⟨htrim ▸ hne, htrim⟩

end Attributes

namespace Node

open Attributes

mutual

/-- Every attribute in the tree satisfies `P`. -/
def EachAttribute (P : String → Json → Prop) : Node → Prop
  | mk _ a c _ _ => (∀ e ∈ a.entries, P e.1 e.2) ∧ EachAttributeOfList P c

def EachAttributeOfList (P : String → Json → Prop) : List Node → Prop
  | [] => True
  | n :: r => EachAttribute P n ∧ EachAttributeOfList P r

end

theorem eachAttribute_iff {P : String → Json → Prop} {n : Node} : n.EachAttribute P ↔
    (∀ e ∈ n.attributes.entries, P e.1 e.2) ∧ EachAttributeOfList P n.children := by
  cases n
  rw [EachAttribute]
  rfl

theorem eachAttributeOfList_iff {P : String → Json → Prop} {ns : List Node} :
    EachAttributeOfList P ns ↔ ∀ n ∈ ns, n.EachAttribute P := by
  induction ns with
  | nil => simp [EachAttributeOfList]
  | cons n r ih => rw [EachAttributeOfList, ih, List.forall_mem_cons]

mutual

theorem EachAttribute.imp {P Q : String → Json → Prop} (hPQ : ∀ k v, P k v → Q k v) :
    (n : Node) → n.EachAttribute P → n.EachAttribute Q
  | mk _ a c _ _, h => by
    rw [EachAttribute] at h ⊢
    exact ⟨fun e he => hPQ _ _ (h.1 e he), EachAttributeOfList.imp hPQ c h.2⟩

theorem EachAttributeOfList.imp {P Q : String → Json → Prop} (hPQ : ∀ k v, P k v → Q k v) :
    (ns : List Node) → EachAttributeOfList P ns → EachAttributeOfList Q ns
  | [], _ => by rw [EachAttributeOfList]; trivial
  | n :: r, h => by
    rw [EachAttributeOfList] at h ⊢
    exact ⟨EachAttribute.imp hPQ n h.1, EachAttributeOfList.imp hPQ r h.2⟩

end

mutual

/-- **The tree with every text trimmed**, and without the texts that are blank. -/
def trimmed : Node → Node
  | mk t a c tag_ne free =>
    mk t a.trimmed (trimmedList c) tag_ne fun k hk => free k (mem_keys_of_trimmed hk)

def trimmedList : List Node → List Node
  | [] => []
  | n :: r => trimmed n :: trimmedList r

end

mutual

/-- The trees are equal but for the order of the attributes of each node. -/
def Reorders : Node → Node → Prop
  | mk t a c _ _, mk u b d _ _ => t = u ∧ a.entries.Perm b.entries ∧ ReordersList c d

def ReordersList : List Node → List Node → Prop
  | [], [] => True
  | n :: r, m :: s => Reorders n m ∧ ReordersList r s
  | _, _ => False

end

mutual

theorem same_of_reorders : (m n : Node) → m.Reorders n → (n.EachAttribute fun _ v => v.Proper) →
    m.same n = true
  | mk t a c _ _, mk u b d _ _, h, hn => by
    rw [Reorders] at h
    rw [EachAttribute] at hn
    have ha := same_of_perm h.2.1 fun e he => Json.same_self e.2 (hn.1 e (h.2.1.mem_iff.1 he))
    have hc := sameList_of_reordersList c d h.2.2 hn.2
    simp [same, h.1, ha, hc]

theorem sameList_of_reordersList : (ms ns : List Node) → ReordersList ms ns →
    EachAttributeOfList (fun _ v => v.Proper) ns → sameList ms ns = true
  | [], [], _, _ => rfl
  | [], _ :: _, h, _ => by simp [ReordersList] at h
  | _ :: _, [], h, _ => by simp [ReordersList] at h
  | m :: r, n :: s, h, hn => by
    rw [ReordersList] at h
    rw [EachAttributeOfList] at hn
    rw [sameList, same_of_reorders m n h.1 hn.1, sameList_of_reordersList r s h.2 hn.2]
    rfl

end

mutual

theorem eachAttribute_proper_trimmed : (n : Node) → (n.EachAttribute fun _ v => v.Proper) →
    n.trimmed.EachAttribute fun _ v => v.Proper
  | mk t a c _ _, h => by
    rw [EachAttribute] at h
    rw [trimmed, EachAttribute]
    exact ⟨proper_trimmed h.1, eachAttributeOfList_proper_trimmed c h.2⟩

theorem eachAttributeOfList_proper_trimmed : (ns : List Node) →
    EachAttributeOfList (fun _ v => v.Proper) ns →
    EachAttributeOfList (fun _ v => v.Proper) (trimmedList ns)
  | [], _ => by simp [trimmedList, EachAttributeOfList]
  | n :: r, h => by
    rw [EachAttributeOfList] at h
    rw [trimmedList, EachAttributeOfList]
    exact ⟨eachAttribute_proper_trimmed n h.1, eachAttributeOfList_proper_trimmed r h.2⟩

end

mutual

theorem trimmed_eq_self : (n : Node) → n.EachAttribute TrimmedText → n.trimmed = n
  | mk t a c _ _, h => by
    rw [EachAttribute] at h
    simp only [trimmed, Attributes.trimmed_eq_self h.1, trimmedList_eq_self c h.2]

theorem trimmedList_eq_self : (ns : List Node) → EachAttributeOfList TrimmedText ns →
    trimmedList ns = ns
  | [], _ => by rw [trimmedList]
  | n :: r, h => by
    rw [EachAttributeOfList] at h
    rw [trimmedList, trimmed_eq_self n h.1, trimmedList_eq_self r h.2]

end

mutual

theorem eachAttribute_of_same : (m n : Node) → m.Reorders n.trimmed → m.same n = true →
    n.EachAttribute TrimmedText
  | mk t a c _ _, mk u b d _ _, h, hs => by
    rw [trimmed, Reorders] at h
    rw [same, Bool.and_eq_true, Bool.and_eq_true] at hs
    rw [EachAttribute]
    exact ⟨trimmedText_of_same h.2.1 hs.1.2, eachAttributeOfList_of_sameList c d h.2.2 hs.2⟩

theorem eachAttributeOfList_of_sameList : (ms ns : List Node) → ReordersList ms (trimmedList ns) →
    sameList ms ns = true → EachAttributeOfList TrimmedText ns
  | _, [], _, _ => by rw [EachAttributeOfList]; trivial
  | [], _ :: _, h, _ => by simp [trimmedList, ReordersList] at h
  | m :: r, n :: s, h, hs => by
    rw [trimmedList, ReordersList] at h
    rw [sameList, Bool.and_eq_true] at hs
    rw [EachAttributeOfList]
    exact ⟨eachAttribute_of_same m n h.1 hs.1, eachAttributeOfList_of_sameList r s h.2 hs.2⟩

end

/-- **The trimmed tree is the same as the tree exactly if no text is changed by trimming.** -/
theorem same_iff_of_reorders_trimmed {m n : Node} (h : m.Reorders n.trimmed)
    (hn : n.EachAttribute fun _ v => v.Proper) :
    m.same n = true ↔ n.EachAttribute TrimmedText := by
  constructor
  · exact eachAttribute_of_same m n h
  · intro ht
    rw [trimmed_eq_self n ht] at h
    exact same_of_reorders m n h hn

end Node

end Scaffold
