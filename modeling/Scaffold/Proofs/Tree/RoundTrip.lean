import Scaffold.Input
import Scaffold.Proofs.Tree.Fields
import Scaffold.Proofs.Tree.Trimmed

/-!
# Trees and their JSON form

Reading back the JSON form of a tree succeeds and gives the tree with its texts trimmed
(`ofJson_toJson`). On the way the text of a node stands apart from its other attributes (`toJson_mk`)
and is put before them again (`toNode_mk`).
-/

namespace Scaffold

open Attributes

namespace Node

variable {t : String} {a : Attributes} {c : List Node}

/-- The text of a node as it is. -/
def textOf? (a : Attributes) : Option String := (a.get? textName).bind Json.string?

/-- The attributes of a node but for its text. -/
def others (a : Attributes) : List (String × Json) := a.entries.filter fun e => !isText e

/-- The text is the only attribute that is written as text. -/
theorem filter_isText {es : List (String × Json)} (h : (Entries.keys es).Nodup) :
    es.filter isText =
      (((es.lookup textName).bind Json.string?).map fun s => (textName, Json.string s)).toList := by
  induction es with
  | nil => rfl
  | cons e r ih =>
    obtain ⟨k, v⟩ := e
    rw [Entries.keys_cons, List.nodup_cons] at h
    by_cases hk : textName = k
    · subst hk
      have hr : r.filter isText = [] := by
        refine List.filter_eq_nil_iff.2 fun e he ht => h.1 ?_
        obtain ⟨s, rfl⟩ := isText_iff.1 ht
        exact Entries.mem_keys.2 ⟨_, he⟩
      cases v <;> simp [isText, Json.isString, Json.string?, hr]
    · have hb : (textName == k) = false := by simpa using hk
      have ht : isText (k, v) = false := by simp [isText, Ne.symm hk]
      rw [List.filter_cons_of_neg (by simp [ht]), ih h.2, List.lookup_cons, hb]

theorem find?_isText (a : Attributes) :
    a.entries.find? isText = (textOf? a).map fun s => (textName, Json.string s) := by
  rw [← List.head?_filter, filter_isText a.distinct, textOf?, Attributes.get?]
  cases (a.entries.lookup textName).bind Json.string? <;> rfl

theorem nodup_others (a : Attributes) : (Entries.keys (others a)).Nodup :=
  Entries.nodup_keys_filter _ a.distinct

theorem mem_keys_of_others {k : String} (h : k ∈ Entries.keys (others a)) : k ∈ a.keys :=
  (List.filter_sublist.map Prod.fst).subset h

/-- Sorting does not lose any of the other attributes. -/
theorem perm_sort_others (a : Attributes) :
    (Json.sortMembers (Json.canonicalMembers (others a))).Perm (Json.canonicalMembers (others a)) :=
  Json.perm_sortMembers (by rw [Json.keys_canonicalMembers]; exact nodup_others a)

/-- Where a node has a text, no other attribute has its name. -/
theorem textName_notMem_others {s : String} (h : textOf? a = some s) :
    textName ∉ Entries.keys (others a) := by
  intro hm
  obtain ⟨v, hv⟩ := Entries.mem_keys.1 hm
  obtain ⟨hmem, hno⟩ := List.mem_filter.1 hv
  rw [textOf?, get?_eq_some_iff.2 hmem] at h
  cases v <;> simp_all [Json.string?, isText, Json.isString]

/-- **What trimming leaves is the trimmed text, if there is one, and all other attributes.** -/
theorem entries_trimmed_perm (a : Attributes) : a.trimmed.entries.Perm
    ((((textOf? a).bind Text.trimmed?).map fun s => (textName, Json.string s)).toList ++
      others a) := by
  -- the text and the others apart: only the text is changed by trimming
  have hsplit := (List.filter_append_perm isText a.entries).symm.filterMap trimEntry
  have hothers : (others a).filterMap trimEntry = others a := by
    have h : ∀ e ∈ others a, trimEntry e = some e := fun e he =>
      trimEntry_of_not_text (by simpa using (List.mem_filter.1 he).2)
    rw [List.filterMap_congr h, List.filterMap_some]
  have htext : (a.entries.filter isText).filterMap trimEntry =
      (((textOf? a).bind Text.trimmed?).map fun s => (textName, Json.string s)).toList := by
    rw [filter_isText a.distinct, textOf?, Attributes.get?]
    cases (a.entries.lookup textName).bind Json.string? with
    | none => rfl
    | some s => cases h : Text.trimmed? s <;> simp [h]
  rw [List.filterMap_append, htext] at hsplit
  rw [← hothers]
  exact hsplit

theorem make_eq_ok (tag_ne : t ≠ "") (free : ∀ k ∈ a.keys, k ∉ reservedNames) :
    make t a c = .ok (.mk t a c tag_ne free) := by
  have hf : a.keys.find? (reservedNames.contains ·) = none :=
    List.find?_eq_none.2 fun k hk => by simpa using free k hk
  rw [make, dif_neg tag_ne]
  split
  next key hkey => rw [hf] at hkey; cases hkey
  · rfl

theorem make_eq_ok_iff {n : Node} :
    make t a c = .ok n ↔ n.tag = t ∧ n.attributes = a ∧ n.children = c := by
  constructor
  · intro h
    rw [make] at h
    split_ifs at h with ht
    split at h
    · cases h
    · cases h
      exact ⟨rfl, rfl, rfl⟩
  · obtain ⟨u, b, d, tag_ne, free⟩ := n
    rintro ⟨rfl, rfl, rfl⟩
    exact make_eq_ok tag_ne free

/-! ### Written and read -/

theorem canonicalItems_documents (c : List Node) :
    Json.canonicalItems (documents c) = c.map toJson := by
  induction c with
  | nil => rfl
  | cons n r ih => rw [documents, Json.canonicalItems, ih, List.map_cons, toJson]

theorem canonicalMembers_fieldOf (k : String) (v : Option Json) :
    Json.canonicalMembers (Json.fieldOf k v) = Json.fieldOf k (v.map Json.canonical) := by
  cases v <;> rfl

/-- The fields of a node's JSON form as they are written. -/
theorem document_mk (tag_ne : t ≠ "") (free : ∀ k ∈ a.keys, k ∉ reservedNames) :
    (mk t a c tag_ne free).document = .object ([("tag", .string t)] ++
      Json.fieldOf "value" ((textOf? a).map .string) ++
      Json.fieldOf "attributes" ((present (others a)).map .object) ++
      Json.fieldOf "children" ((present (documents c)).map .array)) := by
  have hown : ownMembers t a = [("tag", .string t)] ++
      Json.fieldOf "value" ((textOf? a).map .string) ++
      Json.fieldOf "attributes" ((present (others a)).map .object) := by
    rw [ownMembers, find?_isText, others]
    unfold present
    cases textOf? a <;> split_ifs <;> rfl
  have hchildren : (if c.isEmpty then [] else [("children", Json.array (documents c))]) =
      Json.fieldOf "children" ((present (documents c)).map .array) := by
    cases c <;> rfl
  rw [document, hown, hchildren]

/-- **The fields of a node's JSON form**, in increasing order. -/
theorem toJson_mk (tag_ne : t ≠ "") (free : ∀ k ∈ a.keys, k ∉ reservedNames) :
    (mk t a c tag_ne free).toJson = .object (Json.treeMembers t ((textOf? a).map .string)
      (present (Json.sortMembers (Json.canonicalMembers (others a))))
      (present (c.map toJson))) := by
  have hempty : (Json.sortMembers (Json.canonicalMembers (others a))).isEmpty =
      (others a).isEmpty := by
    rw [(perm_sort_others a).isEmpty_eq, Json.canonicalMembers_eq_map]
    cases others a <;> rfl
  have htext : ((textOf? a).map Json.string).map Json.canonical = (textOf? a).map .string := by
    cases textOf? a <;> simp [Json.canonical]
  have hattributes : ((present (others a)).map Json.object).map Json.canonical =
      (present (Json.sortMembers (Json.canonicalMembers (others a)))).map .object := by
    rw [present, present, hempty]
    split_ifs <;> simp [Json.canonical]
  have hnodes : ((present (documents c)).map Json.array).map Json.canonical =
      (present (c.map toJson)).map .array := by
    rw [← canonicalItems_documents]
    cases c <;> simp [present, documents, Json.canonical, Json.canonicalItems]
  have htag : Json.canonicalMembers [("tag", Json.string t)] = [("tag", .string t)] := by
    simp [Json.canonicalMembers, Json.canonical]
  rw [Json.treeMembers, ← Json.sortMembers_fields, toJson, document_mk, Json.canonical]
  simp only [Json.canonicalMembers_append, canonicalMembers_fieldOf, htext, hattributes, hnodes,
    htag]

/-- The same where the values of the attributes are in canonical form. -/
theorem toJson_mk_of_canonical (tag_ne : t ≠ "") (free : ∀ k ∈ a.keys, k ∉ reservedNames)
    (ha : ∀ e ∈ a.entries, e.2.canonical = e.2) :
    (mk t a c tag_ne free).toJson = .object (Json.treeMembers t ((textOf? a).map .string)
      (present (Json.sortMembers (others a))) (present (c.map toJson))) := by
  have hothers : Json.canonicalMembers (others a) = others a :=
    Json.canonicalMembers_of_canonical fun e he => ha e (List.mem_filter.1 he).1
  rw [toJson_mk, hothers]

/-- **The value of a record becomes the first attribute** if it is not blank, unless there is one
of its name already; the children are turned into nodes after that. -/
theorem toNode_eq_make (t : String) {s : Option String} (rs : List Record)
    (hone : s.bind Text.trimmed? = none ∨ textName ∉ a.keys) :
    ∃ b : Attributes, (Record.mk t s a rs).toNode = Record.toNodes rs >>= Node.make t b ∧
      b.entries = ((s.bind Text.trimmed?).map fun x => (textName, Json.string x)).toList ++
        a.entries := by
  rw [Record.toNode]
  cases htext : s.bind Text.trimmed? with
  | none => exact ⟨a, rfl, rfl⟩
  | some x =>
    have hno : textName ∉ a.keys := hone.resolve_left (by simp [htext])
    have hcontains : a.contains textName = false := Bool.eq_false_iff.2 (mt contains_iff.1 hno)
    have hentries : ((Attributes.empty.insert textName (.string x)).insertAll a.entries).entries =
        (textName, .string x) :: a.entries :=
      entries_insertAll (List.nodup_cons.2 ⟨hno, a.distinct⟩)
    refine ⟨_, ?_, hentries⟩
    simp only [hcontains, Bool.false_eq_true, if_false]
    rfl

/-- It is a node if the tag is not empty, no name is reserved and the children are nodes. -/
theorem toNode_of_single {s : Option String} {rs : List Record} {ms : List Node} (tag_ne : t ≠ "")
    (free : ∀ k ∈ a.keys, k ∉ reservedNames)
    (hone : s.bind Text.trimmed? = none ∨ textName ∉ a.keys) (hrs : Record.toNodes rs = .ok ms) :
    ∃ b hb, (Record.mk t s a rs).toNode = .ok (.mk t b ms tag_ne hb) ∧
      b.entries = ((s.bind Text.trimmed?).map fun x => (textName, Json.string x)).toList ++
        a.entries := by
  obtain ⟨b, hmake, hentries⟩ := toNode_eq_make t rs hone
  have hfree : ∀ k ∈ b.keys, k ∉ reservedNames := by
    intro k hk
    rw [Attributes.keys, hentries, Entries.keys, List.map_append, List.mem_append] at hk
    rcases hk with hk | hk
    · obtain ⟨e, he, rfl⟩ := List.mem_map.1 hk
      obtain ⟨x, -, rfl⟩ := Option.map_eq_some_iff.1 (Option.mem_toList.1 he)
      exact (by decide : textName ∉ reservedNames)
    · exact free k hk
  refine ⟨b, hfree, ?_, hentries⟩
  rw [hmake, hrs]
  exact make_eq_ok tag_ne hfree

/-- A value that is not blank and an attribute of its name are a fault. -/
theorem toNode_of_both {s : Option String} {rs : List Record} (hs : s.bind Text.trimmed? ≠ none)
    (ha : textName ∈ a.keys) : (Record.mk t s a rs).toNode = .error (.valueTwice t) := by
  obtain ⟨x, hx⟩ := Option.ne_none_iff_exists'.1 hs
  have hcontains : a.contains textName = true := contains_iff.2 ha
  rw [Record.toNode, hx]
  simp [bind, Except.bind, hcontains]

/-- Otherwise a fault among the children decides. -/
theorem toNode_of_children {s : Option String} {rs : List Record} {f : TreeFault}
    (hone : s.bind Text.trimmed? = none ∨ textName ∉ a.keys)
    (hrs : Record.toNodes rs = .error f) : (Record.mk t s a rs).toNode = .error f := by
  obtain ⟨b, hmake, -⟩ := toNode_eq_make t rs hone
  rw [hmake, hrs]
  rfl

/-- **The text is put before the other attributes again**, trimmed, and never meets another
attribute of its name. -/
theorem toNode_mk (tag_ne : t ≠ "") (free : ∀ k ∈ a.keys, k ∉ reservedNames) {b : Attributes}
    (hb : b.entries.Perm (others a)) {rs : List Record} {ms : List Node}
    (hrs : Record.toNodes rs = .ok ms) :
    ∃ b' hb', (Record.mk t (textOf? a) b rs).toNode = .ok (.mk t b' ms tag_ne hb') ∧
      b'.entries.Perm a.trimmed.entries := by
  have hkeys : ∀ k, k ∈ b.keys ↔ k ∈ Entries.keys (others a) := fun k =>
    (Entries.keys_perm hb).mem_iff
  have hfree : ∀ k ∈ b.keys, k ∉ reservedNames := fun k hk =>
    free k (mem_keys_of_others ((hkeys k).1 hk))
  have hone : (textOf? a).bind Text.trimmed? = none ∨ textName ∉ b.keys := by
    cases htext : textOf? a with
    | none => exact .inl rfl
    | some s => exact .inr fun hm => textName_notMem_others htext ((hkeys _).1 hm)
  obtain ⟨b', hb', hnode, hentries⟩ := toNode_of_single tag_ne hfree hone hrs
  refine ⟨b', hb', hnode, ?_⟩
  rw [hentries]
  exact (hb.append_left _).trans (entries_trimmed_perm a).symm

mutual

/-- The JSON form of a tree is read as a record, and this as the trimmed tree. -/
theorem reads_toJson : (n : Node) → (n.EachAttribute fun _ v => v.Proper) →
    ∃ r m, Record.ofJson n.toJson = .ok r ∧ r.toNode = .ok m ∧ m.Reorders n.trimmed
  | mk t a c tag_ne free, h => by
    rw [EachAttribute] at h
    obtain ⟨rs, ms, hrs, hms, hre⟩ := reads_documents c h.2
    have hsorted := Json.perm_sortMembers (nodup_others a)
    have hnodup := (Entries.keys_perm hsorted).nodup_iff.2 (nodup_others a)
    obtain ⟨b, hb, hnode, hperm⟩ := toNode_mk tag_ne free
      (b := .ofList (Json.sortMembers (others a))) (by rwa [entries_ofList hnodup]) hms
    have hvalue : Record.optionalOf (((textOf? a).map Json.string).getD .null) = .ok (textOf? a) := by
      cases textOf? a <;> rfl
    refine ⟨_, _, ?_, hnode, ?_⟩
    · rw [toJson_mk_of_canonical tag_ne free fun e he => Json.canonical_of_proper e.2 (h.1 e he),
        Record.ofJson_treeMembers hvalue (by rw [getD_present]; exact hrs), getD_present]
    · rw [trimmed, Reorders]
      exact ⟨rfl, hperm, hre⟩

theorem reads_documents : (ns : List Node) → EachAttributeOfList (fun _ v => v.Proper) ns →
    ∃ rs ms, Record.ofItems (ns.map toJson) = .ok rs ∧
      Record.toNodes rs = .ok ms ∧ ReordersList ms (trimmedList ns)
  | [], _ => ⟨[], [], rfl, rfl, by simp [trimmedList, ReordersList]⟩
  | n :: r, h => by
    rw [EachAttributeOfList] at h
    obtain ⟨x, m, hx, hm, hre⟩ := reads_toJson n h.1
    obtain ⟨xs, ms, hxs, hms, hres⟩ := reads_documents r h.2
    refine ⟨x :: xs, m :: ms, ?_, ?_, ?_⟩
    · rw [List.map_cons, Record.ofItems, hx, hxs]
      rfl
    · rw [Record.toNodes, hm, hms]
      rfl
    · rw [trimmedList, ReordersList]
      exact ⟨hre, hres⟩

end

/-- **Reading the JSON form of a tree** succeeds and gives the tree with its texts trimmed. It
gives the tree itself exactly if every text in it is trimmed already and not empty. -/
theorem ofJson_toJson (n : Node) (hn : n.EachAttribute fun _ v => v.Proper) :
    ∃ m, ofJson n.toJson = .ok m ∧ m.same n.trimmed = true ∧
      (m.same n = true ↔ n.EachAttribute TrimmedText) := by
  obtain ⟨r, m, hr, hm, hre⟩ := reads_toJson n hn
  refine ⟨m, ?_, same_of_reorders m _ hre (eachAttribute_proper_trimmed n hn),
    same_iff_of_reorders_trimmed hre hn⟩
  rw [ofJson, ofRecord, hr]
  simp [bind, Except.bind, Except.mapError, hm]

/-- A tree with a text between blanks, and below it one that is blank. -/
def padded : Node :=
  mk "p" ⟨[("n", .number (.int 1)), ("value", .string " a ")], by decide⟩
    [mk "q" ⟨[("value", .string " ")], by decide⟩ [] (by decide) (by decide)]
    (by decide) (by decide)

theorem ofJson_padded : ∃ m, ofJson padded.toJson = .ok m ∧ m.same padded.trimmed = true ∧
    m.same padded = false := by
  have hp : padded.EachAttribute fun _ v => v.Proper := by
    simp [padded, EachAttribute, EachAttributeOfList, Json.Proper, JsonNumber.IsFinite]
  obtain ⟨m, hm, ht, hs⟩ := ofJson_toJson padded hp
  refine ⟨m, hm, ht, Bool.eq_false_iff.2 fun h => ?_⟩
  have htext := hs.1 h
  rw [padded, EachAttribute] at htext
  have ha := (htext.1 ("value", .string " a ") (by simp) rfl " a " rfl).2
  exact absurd ha (by decide)

end Node

end Scaffold
