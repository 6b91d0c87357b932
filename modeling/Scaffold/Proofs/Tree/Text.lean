import Scaffold.Proofs.Json.Printed
import Scaffold.Proofs.Tree.RoundTrip

/-!
# Trees in compact text

A tree whose attributes are texts is read from its compact text as the tree with its texts trimmed,
as long as the text is not nested too deeply (`ofJsonText_text`); otherwise reading it fails.
-/

namespace Scaffold

open Draft Json

namespace Record

/-- What is read of attributes that have been written, or left out. -/
def attributesWritten (depth : Nat) : Option (List (String × Json)) → Except Decode.Fault Attributes
  | none => .ok .empty
  | some ms => attributesIn depth (written (.object ms))

/-- What is read of children that have been written, or left out. -/
def childrenWritten (depth : Nat) : Option (List Json) → Except Decode.Fault (List Record)
  | none => .ok []
  | some vs => childrenIn depth (written (.array vs))

/-- What is read of the fields of a tree document in the order in which a tree writes them. -/
theorem ofDraft_fields (depth : Nat) (t : String) (v : Option String)
    (a : Option (List (String × Json))) (c : Option (List Json)) :
    ofDraft depth (written (.object ([("tag", .string t)] ++ fieldOf "value" (v.map .string) ++
      fieldOf "attributes" (a.map .object) ++ fieldOf "children" (c.map .array)))) =
    if depth ≤ 1 then .error .form else (do
      let as ← attributesWritten (depth - 1) a
      let cs ← childrenWritten (depth - 1) c
      .ok (.mk t v as cs)) := by
  rw [written, ofDraft]
  by_cases hd : depth ≤ 1
  · simp [hd]
  · have hok : ∀ {α β : Type} (x : α) (f : α → Except Decode.Fault β),
        (Except.ok x >>= f) = f x := fun _ _ => rfl
    cases v <;> cases a <;> cases c <;>
      simp [hd, fieldOf, writtenMembers, written, ofDraftMembers, stringIn, optionalIn, Parts.none,
        Parts.finish, attributesWritten, childrenWritten, Except.map, hok]

theorem entriesIn_written (depth : Nat) {ms : List (String × Json)} (h : Strings ms) :
    entriesIn depth (writtenMembers ms) = .ok ms := by
  induction ms with
  | nil => rfl
  | cons e r ih =>
    obtain ⟨k, v⟩ := e
    obtain ⟨s, rfl⟩ : ∃ s, v = .string s := h (k, v) (by simp)
    have hr := ih fun e he => h e (by simp [he])
    rw [writtenMembers, written, entriesIn, hr]
    rfl

theorem attributesWritten_present (depth : Nat) {ms : List (String × Json)} (h : Strings ms) :
    attributesWritten depth (present ms) =
      if ms ≠ [] ∧ depth ≤ 1 then .error .form else .ok (Attributes.ofList ms) := by
  cases ms with
  | nil => rfl
  | cons e r =>
    have hpresent : present (e :: r) = some (e :: r) := rfl
    rw [hpresent, attributesWritten, written, attributesIn]
    by_cases hd : depth ≤ 1
    · simp [hd]
    · rw [if_neg hd, entriesIn_written _ h, if_neg (by simp [hd])]
      rfl

theorem childrenWritten_present (depth : Nat) (vs : List Json) :
    childrenWritten depth (present vs) = if vs = [] then .ok [] else
      if depth ≤ 1 then .error .form else ofDrafts (depth - 1) (writtenItems vs) := by
  cases vs with
  | nil => rfl
  | cons v r =>
    have hpresent : present (v :: r) = some (v :: r) := rfl
    rw [hpresent, childrenWritten, written, childrenIn, if_neg (List.cons_ne_nil v r)]
    by_cases hd : depth ≤ 1
    · simp [hd]
    · rw [if_neg hd, if_neg hd]
      exact bind_pure _

end Record

namespace Node

variable {t : String} {a : Attributes} {c : List Node}

/-- Every attribute in the tree is a string. -/
def TextOnly (n : Node) : Prop := n.EachAttribute fun _ v => ∃ s, v = .string s

theorem strings_others (h : Strings a.entries) : Strings (others a) :=
  fun e he => h e (List.mem_filter.1 he).1

/-- The levels of a tree's JSON form: one for the node, one for its attributes if it has any, and
one for its children above theirs. -/
theorem nesting_document (tag_ne : t ≠ "") (free : ∀ k ∈ a.keys, k ∉ reservedNames)
    (h : Strings a.entries) : (mk t a c tag_ne free).document.nesting =
      max (if others a = [] then 0 else 1)
        (if documents c = [] then 0 else nestingItems (documents c) + 1) + 1 := by
  have hfield : ∀ k v, nestingMembers (fieldOf k v) = (v.map nesting).getD 0 := by
    intro k v
    cases v <;> simp [fieldOf, nestingMembers]
  have hothers := nestingMembers_of_strings (strings_others h)
  have htag : nestingMembers [("tag", .string t)] = 0 := rfl
  have htext : (((textOf? a).map Json.string).map nesting).getD 0 = 0 := by
    cases textOf? a <;> rfl
  have hattributes : (((present (others a)).map Json.object).map nesting).getD 0 =
      if others a = [] then 0 else 1 := by
    cases ho : others a with
    | nil => rfl
    | cons e r =>
      rw [ho] at hothers
      simp [present, nesting, hothers]
  have hchildren : (((present (documents c)).map Json.array).map nesting).getD 0 =
      if documents c = [] then 0 else nestingItems (documents c) + 1 := by
    cases documents c with
    | nil => rfl
    | cons v r => simp [present, nesting]
  rw [document_mk, nesting]
  simp only [nestingMembers_append, hfield, htag, htext, hattributes, hchildren, Nat.zero_max]

/-- The record of the fields that a tree writes is the tree with its text trimmed, once the children
are the ones with theirs trimmed. -/
theorem exists_toNode_trimmed (tag_ne : t ≠ "") (free : ∀ k ∈ a.keys, k ∉ reservedNames)
    {rs : List Record} {ms : List Node} (hms : Record.toNodes rs = .ok ms)
    (hre : ReordersList ms (trimmedList c)) :
    ∃ m, (Record.mk t (textOf? a) (.ofList (others a)) rs).toNode = .ok m ∧
      m.Reorders (mk t a c tag_ne free).trimmed := by
  have hofList : (Attributes.ofList (others a)).entries = others a :=
    Attributes.entries_ofList (nodup_others a)
  obtain ⟨b, hb, hnode, hperm⟩ := toNode_mk tag_ne free (b := .ofList (others a))
    (by rw [hofList]) hms
  refine ⟨_, hnode, ?_⟩
  rw [trimmed, Reorders]
  exact ⟨rfl, hperm, hre⟩

mutual

/-- **The written form of a tree is read again**, if it is not nested too deeply: as the tree with
its texts trimmed. -/
theorem reads_written : (n : Node) → n.TextOnly → ∀ depth,
    (n.document.nesting < depth → ∃ r m, Record.ofDraft depth (written n.document) = .ok r ∧
      r.toNode = .ok m ∧ m.Reorders n.trimmed) ∧
    (depth ≤ n.document.nesting → ∃ f, Record.ofDraft depth (written n.document) = .error f)
  | mk t a c tag_ne free, h, depth => by
    rw [TextOnly, EachAttribute] at h
    have hstrings : Strings (others a) := strings_others h.1
    rw [nesting_document tag_ne free h.1, document_mk, Record.ofDraft_fields,
      Record.attributesWritten_present _ hstrings, Record.childrenWritten_present]
    constructor
    · intro hd
      have hattributes : ¬ (others a ≠ [] ∧ depth - 1 ≤ 1) := by
        rintro ⟨ho, hle⟩
        rw [if_neg ho] at hd
        omega
      rw [if_neg (by omega), if_neg hattributes]
      by_cases hc : documents c = []
      · -- there are no children
        obtain rfl : c = [] := by
          cases c with
          | nil => rfl
          | cons n r => simp [documents] at hc
        obtain ⟨m, hm, hre⟩ := exists_toNode_trimmed (c := []) tag_ne free
          (show Record.toNodes [] = .ok [] from rfl) (by simp [trimmedList, ReordersList])
        exact ⟨_, m, rfl, hm, hre⟩
      · rw [if_neg hc] at hd ⊢
        rw [if_neg (by omega)]
        obtain ⟨rs, ms, hrs, hms, hre⟩ := (reads_writtenItems c h.2 (depth - 1 - 1) (by omega)).1
          (by omega)
        obtain ⟨m, hm, hre⟩ := exists_toNode_trimmed tag_ne free hms hre
        exact ⟨_, m, by rw [hrs]; rfl, hm, hre⟩
    · intro hd
      by_cases hone : depth ≤ 1
      · exact ⟨_, if_pos hone⟩
      rw [if_neg hone]
      by_cases hattributes : others a ≠ [] ∧ depth - 1 ≤ 1
      · exact ⟨_, by rw [if_pos hattributes]; rfl⟩
      rw [if_neg hattributes]
      -- what is nested too deeply is among the children
      have hc : documents c ≠ [] := by
        intro hc
        rw [if_pos hc] at hd
        by_cases ho : others a = []
        · rw [if_pos ho] at hd
          omega
        · rw [if_neg ho] at hd
          exact hattributes ⟨ho, by omega⟩
      rw [if_neg hc] at hd ⊢
      by_cases hle : depth - 1 ≤ 1
      · exact ⟨_, by rw [if_pos hle]; rfl⟩
      rw [if_neg hle]
      have hitems : depth - 1 - 1 ≤ nestingItems (documents c) := by
        split_ifs at hd <;> omega
      obtain ⟨f, hf⟩ := (reads_writtenItems c h.2 (depth - 1 - 1) (by omega)).2 hitems
      exact ⟨f, by rw [hf]; rfl⟩

theorem reads_writtenItems : (ns : List Node) →
    EachAttributeOfList (fun _ v => ∃ s, v = Json.string s) ns → ∀ depth, 0 < depth →
    (nestingItems (documents ns) < depth →
      ∃ rs ms, Record.ofDrafts depth (writtenItems (documents ns)) = .ok rs ∧
        Record.toNodes rs = .ok ms ∧ ReordersList ms (trimmedList ns)) ∧
    (depth ≤ nestingItems (documents ns) →
      ∃ f, Record.ofDrafts depth (writtenItems (documents ns)) = .error f)
  | [], _, depth, hpos => by
    refine ⟨fun _ => ⟨[], [], rfl, rfl, by simp [trimmedList, ReordersList]⟩, fun hd => ?_⟩
    simp only [documents, nestingItems] at hd
    omega
  | n :: r, h, depth, hpos => by
    rw [EachAttributeOfList] at h
    obtain ⟨hok, herror⟩ := reads_written n h.1 depth
    obtain ⟨hoks, herrors⟩ := reads_writtenItems r h.2 depth hpos
    rw [documents, nestingItems, writtenItems, Record.ofDrafts]
    constructor
    · intro hd
      obtain ⟨x, m, hx, hm, hre⟩ := hok (by omega)
      obtain ⟨xs, ms, hxs, hms, hres⟩ := hoks (by omega)
      refine ⟨x :: xs, m :: ms, by rw [hx, hxs]; rfl, by rw [Record.toNodes, hm, hms]; rfl, ?_⟩
      rw [trimmedList, ReordersList]
      exact ⟨hre, hres⟩
    · intro hd
      -- the first part that is nested too deeply is the fault
      by_cases hn : depth ≤ n.document.nesting
      · obtain ⟨f, hf⟩ := herror hn
        exact ⟨f, by rw [hf]; rfl⟩
      · obtain ⟨x, m, hx, -⟩ := hok (by omega)
        obtain ⟨f, hf⟩ := herrors (by omega)
        exact ⟨f, by rw [hx, hf]; rfl⟩

end

mutual

/-- The JSON form of a tree of texts has no numbers. -/
theorem numberFree_document : (n : Node) → n.TextOnly → n.document.NumberFree
  | mk t a c tag_ne free, h => by
    rw [TextOnly, EachAttribute] at h
    have hitems := numberFree_documents c h.2
    have hfield : ∀ k v, (∀ w, v = some w → w.NumberFree) → NumberFreeMembers (fieldOf k v) := by
      intro k v hv
      cases v with
      | none => simp [fieldOf, NumberFreeMembers]
      | some w => simpa [fieldOf, NumberFreeMembers] using hv w rfl
    rw [document_mk, NumberFree]
    refine numberFreeMembers_append (numberFreeMembers_append (numberFreeMembers_append ?_ ?_) ?_) ?_
    · simp [NumberFreeMembers, NumberFree]
    · refine hfield _ _ fun w hw => ?_
      obtain ⟨s, -, rfl⟩ := Option.map_eq_some_iff.1 hw
      simp [NumberFree]
    · refine hfield _ _ fun w hw => ?_
      obtain ⟨ms, hms, rfl⟩ := Option.map_eq_some_iff.1 hw
      rw [present] at hms
      split_ifs at hms
      cases hms
      rw [NumberFree]
      exact numberFreeMembers_of_strings (strings_others h.1)
    · refine hfield _ _ fun w hw => ?_
      obtain ⟨vs, hvs, rfl⟩ := Option.map_eq_some_iff.1 hw
      rw [present] at hvs
      split_ifs at hvs
      cases hvs
      rwa [NumberFree]

theorem numberFree_documents : (ns : List Node) →
    EachAttributeOfList (fun _ v => ∃ s, v = Json.string s) ns → NumberFreeItems (documents ns)
  | [], _ => by rw [documents, NumberFreeItems]; trivial
  | n :: r, h => by
    rw [EachAttributeOfList] at h
    rw [documents, NumberFreeItems]
    exact ⟨numberFree_document n h.1, numberFree_documents r h.2⟩

end

/-- What a reader of trees makes of the compact text of one. -/
theorem ofJsonText_text_eq {n : Node} (h : n.TextOnly) :
    ofJsonText n.text = ofRecord (Record.ofDraft depthLimit (written n.document)) := by
  have hchars : n.text.toList = chars n.document := by
    rw [text, compact, String.toList_ofList]
  rw [ofJsonText, Record.read, hchars, ofChars_chars (numberFree_document n h)]
  exact congrArg ofRecord (bind_pure _)

/-- **A tree of texts is read from its compact text** as the tree with its texts trimmed, unless
the text is nested too deeply. -/
theorem ofJsonText_text {n : Node} (h : n.TextOnly) :
    (n.document.nesting < depthLimit → ∃ m, ofJsonText n.text = .ok m ∧ m.Reorders n.trimmed) ∧
      (depthLimit ≤ n.document.nesting → ∃ d, ofJsonText n.text = .error (.parse d)) := by
  obtain ⟨hok, herror⟩ := reads_written n h depthLimit
  rw [ofJsonText_text_eq h]
  constructor
  · intro hd
    obtain ⟨r, m, hr, hm, hre⟩ := hok hd
    refine ⟨m, ?_, hre⟩
    rw [hr, ofRecord]
    simp [bind, Except.bind, Except.mapError, hm]
  · intro hd
    obtain ⟨f, hf⟩ := herror hd
    exact ⟨_, by rw [hf]; rfl⟩

end Node

end Scaffold
