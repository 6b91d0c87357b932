import Scaffold.Proofs.Json.Draft
import Scaffold.Proofs.Results
import Scaffold.Proofs.Tree.RoundTrip

/-!
# Records that agree

Records agree if they are the same but for the order of attributes; they become the same node, or
none (`alike_toNode`). What is read of the members of a value does not depend on their order as long
as none of the four fields is repeated (`ofMembers_sortMembers`).
-/

namespace Scaffold

open Json

namespace Attributes

variable {a b : Attributes}

/-- The same entries in whatever order, of values that are the same as themselves. -/
structure Agrees (a b : Attributes) : Prop where
  perm : a.entries.Perm b.entries
  same : ∀ e ∈ b.entries, e.2.same e.2 = true

theorem Agrees.attributes_same (h : a.Agrees b) : a.same b = true :=
  same_of_perm h.perm fun e he => h.same e (h.perm.mem_iff.1 he)

theorem lookup_insertAll (k : String) (es : List (String × Json)) :
    (a.insertAll es).get? k = (es.reverse.lookup k).or (a.get? k) := by
  induction es generalizing a with
  | nil => rfl
  | cons e es ih =>
    obtain ⟨l, v⟩ := e
    have hcons : a.insertAll ((l, v) :: es) = (a.insert l v).insertAll es := rfl
    rw [hcons, ih, List.reverse_cons, List.lookup_append, Option.or_assoc]
    congr 1
    by_cases hk : k = l
    · subst hk
      rw [List.lookup_cons_self, Option.some_or]
      exact Entries.lookup_insert_self _ _ _
    · have hne : (k == l) = false := by simpa using hk
      rw [List.lookup_cons, hne]
      exact Entries.lookup_insert_of_ne _ _ hk

/-- Putting entries one after the other gives those of the sorted list, the last of each key. -/
theorem perm_ofList (es : List (String × Json)) : (ofList es).entries.Perm (sortMembers es) := by
  refine Entries.perm_of_lookup (ofList es).distinct (increasing_sortMembers es).nodup fun k => ?_
  exact (lookup_insertAll k es).trans (Entries.lookup_foldl_put k es []).symm

theorem agrees_ofList {es : List (String × Json)} (h : ∀ e ∈ es, e.2.same e.2 = true) :
    (ofList es).Agrees (ofList (sortMembers es)) := by
  have hentries := entries_ofList (increasing_sortMembers es).nodup
  refine ⟨by rw [hentries]; exact perm_ofList es, fun e he => ?_⟩
  rw [hentries] at he
  exact h e (mem_of_mem_sortMembers he)

end Attributes

namespace Record

/-! ### Records that agree -/

mutual

/-- The same record but for the order of attributes. -/
def Agrees : Record → Record → Prop
  | mk t v a c, mk u w b d => t = u ∧ v = w ∧ a.Agrees b ∧ AgreesList c d

def AgreesList : List Record → List Record → Prop
  | [], [] => True
  | r :: rs, s :: ss => Agrees r s ∧ AgreesList rs ss
  | _, _ => False

end

/-- The same fields have been read so far. -/
structure Parts.Agrees (p q : Parts) : Prop where
  tag : p.tag = q.tag
  value : p.value = q.value
  attributes : Option.Rel Attributes.Agrees p.attributes q.attributes
  children : Option.Rel AgreesList p.children q.children

theorem Parts.agrees_none : Parts.none.Agrees Parts.none := ⟨rfl, rfl, .none, .none⟩

theorem agrees_empty : Attributes.empty.Agrees Attributes.empty :=
  ⟨.refl _, fun e he => by cases he⟩

theorem Parts.Agrees.finish {p q : Parts} (h : p.Agrees q) :
    Alike Record.Agrees p.finish q.finish := by
  obtain ⟨t, v, a, c⟩ := p
  obtain ⟨u, w, b, d⟩ := q
  obtain ⟨rfl, rfl, ha, hc⟩ := h
  cases t with
  | none => exact .error _ _
  | some t =>
    refine .ok ?_
    rw [Record.Agrees]
    refine ⟨rfl, rfl, ?_, ?_⟩
    · cases ha with
      | none => exact agrees_empty
      | some ha => exact ha
    · cases hc with
      | none => rw [Option.getD_none, AgreesList]; trivial
      | some hc => exact hc

theorem alike_make {t : String} {a b : Attributes} {c d : List Node} (h : a.Agrees b)
    (hc : Node.sameList c d = true) :
    Alike (fun m n : Node => m.same n = true) (Node.make t a c) (Node.make t b d) := by
  have hkeys : ∀ k, k ∈ a.keys ↔ k ∈ b.keys := fun k => (Entries.keys_perm h.perm).mem_iff
  have hfree : ∀ n : Node, ∀ k ∈ n.attributes.keys, k ∉ reservedNames := by
    rintro ⟨_, _, _, _, free⟩
    exact free
  by_cases ht : t = ""
  · rw [Node.make, Node.make, dif_pos ht, dif_pos ht]
    exact .error _ _
  by_cases ha : ∀ k ∈ a.keys, k ∉ reservedNames
  · have hb : ∀ k ∈ b.keys, k ∉ reservedNames := fun k hk => ha k ((hkeys k).2 hk)
    rw [Node.make_eq_ok ht ha, Node.make_eq_ok ht hb]
    exact .ok (by simp [Node.same, h.attributes_same, hc])
  · refine .of_not_ok (fun m hm => ha ?_) fun n hn => ha fun k hk => hfree n k ?_
    · rw [← (Node.make_eq_ok_iff.1 hm).2.1]
      exact hfree m
    · rw [(Node.make_eq_ok_iff.1 hn).2.1]
      exact (hkeys k).1 hk

theorem entries_withText {a : Attributes} (h : textName ∉ a.keys) (x : String) :
    ((Attributes.empty.insert textName (.string x)).insertAll a.entries).entries =
      (textName, .string x) :: a.entries :=
  Attributes.entries_insertAll (List.nodup_cons.2 ⟨h, a.distinct⟩)

/-- A text in front of attributes that agree. -/
theorem agrees_withText {a b : Attributes} (h : a.Agrees b) (ha : textName ∉ a.keys)
    (hb : textName ∉ b.keys) (x : String) :
    ((Attributes.empty.insert textName (.string x)).insertAll a.entries).Agrees
      ((Attributes.empty.insert textName (.string x)).insertAll b.entries) := by
  refine ⟨?_, ?_⟩
  · rw [entries_withText ha, entries_withText hb]
    exact h.perm.cons _
  · rw [entries_withText hb, List.forall_mem_cons]
    exact ⟨by simp [same], h.same⟩

mutual

/-- **Records that agree become the same node**, or no node at all. -/
theorem alike_toNode : (r s : Record) → r.Agrees s →
    Alike (fun m n : Node => m.same n = true) r.toNode s.toNode
  | mk t v a c, mk u w b d, h => by
    rw [Agrees] at h
    obtain ⟨rfl, rfl, ha, hc⟩ := h
    have hchildren := alike_toNodes c d hc
    have hcontains : a.contains textName = b.contains textName := by
      rw [Bool.eq_iff_iff, Attributes.contains_iff, Attributes.contains_iff]
      exact (Entries.keys_perm ha.perm).mem_iff
    rw [toNode, toNode, ← hcontains]
    cases v.bind Text.trimmed? with
    | none => exact hchildren.bind fun ms ns hms => alike_make ha hms
    | some x =>
      cases hx : a.contains textName with
      | true => exact .error _ _
      | false =>
        have hno : textName ∉ a.keys := fun hm => by
          rw [Attributes.contains_iff.2 hm] at hx
          cases hx
        have hno' : textName ∉ b.keys := fun hm => by
          rw [hcontains, Attributes.contains_iff.2 hm] at hx
          cases hx
        exact hchildren.bind fun ms ns hms => alike_make (agrees_withText ha hno hno' x) hms

theorem alike_toNodes : (rs ss : List Record) → AgreesList rs ss →
    Alike (fun ms ns => Node.sameList ms ns = true) (toNodes rs) (toNodes ss)
  | [], [], _ => .ok rfl
  | [], _ :: _, h => by simp [AgreesList] at h
  | _ :: _, [], h => by simp [AgreesList] at h
  | r :: rs, s :: ss, h => by
    rw [AgreesList] at h
    rw [toNodes, toNodes]
    exact (alike_toNode r s h.1).bind fun m n hm => (alike_toNodes rs ss h.2).bind
      fun ms ns hms => .ok (by simp [Node.sameList, hm, hms])

end

/-! ### Fields of a value in any order -/

def fieldNames : List String := ["tag", "value", "attributes", "children"]

def childrenOf : Json → Except Decode.Fault (List Record)
  | .array cs => ofItems cs
  | v => .error (.invalidType (foundJson v) "a sequence")

/-- What is read of a field that may be missing. -/
def slot {α : Type} (read : Json → Except Decode.Fault α) (now : Option α) :
    Option Json → Except Decode.Fault (Option α)
  | none => .ok now
  | some v => (read v).map some

theorem slot_none_iff {α : Type} {read : Json → Except Decode.Fault α} {now o : Option α} :
    slot read now none = .ok o ↔ o = now := by
  rw [slot, Except.ok.injEq, eq_comm]

theorem slot_some_iff {α : Type} {read : Json → Except Decode.Fault α} {now : Option α} {v : Json}
    {o : Option α} : slot read now (some v) = .ok o ↔ ∃ a, read v = .ok a ∧ o = some a := by
  rw [slot]
  cases read v <;> simp [Except.map, eq_comm]

section

variable (v : Json) (r : List (String × Json)) (p : Parts)

theorem ofMembers_tag : ofMembers (("tag", v) :: r) p =
    stringOf v >>= fun t => ofMembers r { p with tag := some t } := rfl

theorem ofMembers_value : ofMembers (("value", v) :: r) p =
    optionalOf v >>= fun t => ofMembers r { p with value := some t } := rfl

theorem ofMembers_attributes : ofMembers (("attributes", v) :: r) p =
    attributesOf v >>= fun a => ofMembers r { p with attributes := some a } := rfl

theorem ofMembers_children : ofMembers (("children", v) :: r) p =
    childrenOf v >>= fun c => ofMembers r { p with children := some c } := by
  cases v <;> rfl

theorem ofMembers_other {k : String} (h : k ∉ fieldNames) :
    ofMembers ((k, v) :: r) p = ofMembers r p := by
  simp only [fieldNames, List.mem_cons, List.not_mem_nil, or_false, not_or] at h
  cases v <;> simp [ofMembers, h]

end

/-- **What is read of members whose fields are not repeated** depends only on what is found under
the names of the fields. -/
theorem ofMembers_eq_ok_iff {ms : List (String × Json)} {p q : Parts}
    (h : ∀ k ∈ fieldNames, (Entries.keys ms).count k ≤ 1) : ofMembers ms p = .ok q ↔
      slot stringOf p.tag (ms.lookup "tag") = .ok q.tag ∧
      slot optionalOf p.value (ms.lookup "value") = .ok q.value ∧
      slot attributesOf p.attributes (ms.lookup "attributes") = .ok q.attributes ∧
      slot childrenOf p.children (ms.lookup "children") = .ok q.children := by
  induction ms generalizing p with
  | nil =>
    obtain ⟨t, v, a, c⟩ := p
    obtain ⟨u, w, b, d⟩ := q
    simp [ofMembers, slot]
  | cons e r ih =>
    obtain ⟨k, v⟩ := e
    have hr := fun p => ih (p := p) fun l hl => List.count_le_count_cons.trans (h l hl)
    by_cases hk : k ∈ fieldNames
    · -- a field is not found a second time
      have hnone : r.lookup k = none := by
        have hcount := h k hk
        rw [Entries.keys_cons, List.count_cons_self] at hcount
        exact Entries.lookup_eq_none (List.count_eq_zero.1 (by omega))
      simp only [fieldNames, List.mem_cons, List.not_mem_nil, or_false] at hk
      rcases hk with rfl | rfl | rfl | rfl <;>
      · simp only [ofMembers_tag, ofMembers_value, ofMembers_attributes, ofMembers_children,
          bind_eq_ok_iff, hr, hnone, List.lookup_cons]
        simp [slot_some_iff, slot_none_iff]
        grind
    · rw [ofMembers_other v r p hk, hr]
      simp only [fieldNames, List.mem_cons, List.not_mem_nil, or_false, not_or] at hk
      have hne : ∀ l, k ≠ l → ((k, v) :: r).lookup l = r.lookup l := fun l hl => by
        rw [List.lookup_cons, beq_false_of_ne (Ne.symm hl)]
      rw [hne _ hk.1, hne _ hk.2.1, hne _ hk.2.2.1, hne _ hk.2.2.2]

/-- So it does not matter that the members of a value are sorted. -/
theorem ofMembers_sortMembers {ms : List (String × Json)}
    (h : ∀ k ∈ fieldNames, (Entries.keys ms).count k ≤ 1) (q : Parts) :
    ofMembers ms Parts.none = .ok q ↔ ofMembers (sortMembers ms) Parts.none = .ok q := by
  have hsorted := (increasing_sortMembers ms).nodup
  have hlookup : ∀ k ∈ fieldNames, (sortMembers ms).lookup k = ms.lookup k := fun k hk => by
    rw [← Entries.lookup_reverse_of_count (h k hk)]
    exact (Entries.lookup_foldl_put k ms []).trans Option.or_none
  rw [ofMembers_eq_ok_iff h,
    ofMembers_eq_ok_iff fun k _ => List.nodup_iff_count_le_one.1 hsorted k,
    hlookup _ (by decide), hlookup _ (by decide), hlookup _ (by decide), hlookup _ (by decide)]

end Record

end Scaffold
