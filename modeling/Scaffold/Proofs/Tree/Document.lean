import Scaffold.Proofs.Schema.Tree
import Scaffold.Proofs.Text.Trim
import Scaffold.Proofs.Tree.RoundTrip

/-!
# Trees and tree documents

The JSON form of every tree is a tree document (`treeDocument_toJson`). The other way, a tree
document is read as a tree unless a text and an attribute of its name collide somewhere in it
(`Json.Collides`), and what is written again is the document in its own form (`Json.treeForm`).
-/

namespace Scaffold

open Attributes

mutual

/-- **The JSON form of a tree is a tree document.** -/
theorem treeDocument_toJson : (n : Node) → TreeDocument n.toJson
  | .mk t a c tag_ne free => by
    have hvalue : ∀ w, (Node.textOf? a).map Json.string = some w →
        w = .null ∨ ∃ s, w = .string s := by
      intro w hw
      obtain ⟨s, -, rfl⟩ := Option.map_eq_some_iff.1 hw
      exact .inr ⟨s, rfl⟩
    have hfree : ∀ k ∈ Entries.keys (Json.sortMembers (Json.canonicalMembers (Node.others a))),
        k ∉ reservedNames := by
      intro k hk
      rw [(Entries.keys_perm (Node.perm_sort_others a)).mem_iff, Json.keys_canonicalMembers] at hk
      exact free k (Node.mem_keys_of_others hk)
    rw [Node.toJson_mk]
    refine .mk tag_ne hvalue ?_ ?_
    · rwa [getD_present]
    · rw [getD_present]
      exact treeDocument_toJson_of_mem c

theorem treeDocument_toJson_of_mem : (ns : List Node) → ∀ d ∈ ns.map Node.toJson, TreeDocument d
  | [], _, h => nomatch h
  | n :: r, d, h => by
    rw [List.map_cons, List.mem_cons] at h
    rcases h with rfl | h
    · exact treeDocument_toJson n
    · exact treeDocument_toJson_of_mem r d h

end

namespace Json

/-! ### The form of a tree document -/

/-- The attributes that an object lists. -/
def listedAttributes (ms : List (String × Json)) : List (String × Json) :=
  match ms.lookup "attributes" with
  | some (.object as) => as
  | _ => []

/-- The text that the value of an object becomes: trimmed, and left out if it is null or blank. -/
def valueText? (ms : List (String × Json)) : Option String :=
  ((ms.lookup "value").bind string?).bind Text.trimmed?

mutual

/-- **The form in which a tree document is written again.** The value is trimmed and left out if
nothing remains, a text among the attributes stands as the value, and there are no empty
attributes and children. -/
def treeForm : Json → Json
  | .object ms => .object (treeFields
      ((present ((listedAttributes ms).filter fun e => !Node.isText e)).map .object)
      ((present (childForms ms)).map .array)
      (ms.lookup "tag")
      (((valueText? ms).or (((listedAttributes ms).lookup textName).bind string?)).map .string))
  | v => v

/-- The forms of the children of an object. -/
def childForms : List (String × Json) → List Json
  | [] => []
  | (k, v) :: r =>
    if k = "children" then
      match v with
      | .array vs => treeForms vs
      | _ => []
    else childForms r

def treeForms : List Json → List Json
  | [] => []
  | v :: r => treeForm v :: treeForms r

end

/-- **A text and an attribute of its name**, both in one object of a tree document: a value that is
not blank, where the attributes have the name of the text. -/
inductive Collides : Json → Prop
  | own {ms : List (String × Json)} {s : String} :
      ms.lookup "value" = some (.string s) → Text.isBlankText s = false →
      textName ∈ Entries.keys (listedAttributes ms) → Collides (.object ms)
  | child {ms : List (String × Json)} {vs : List Json} {d : Json} :
      ms.lookup "children" = some (.array vs) → d ∈ vs → Collides d → Collides (.object ms)

variable {t : String} {v : Option Json} {a : Option (List (String × Json))} {c : Option (List Json)}

theorem lookup_treeFields {a c t v : Option Json} :
    (treeFields a c t v).lookup "attributes" = a ∧ (treeFields a c t v).lookup "children" = c ∧
      (treeFields a c t v).lookup "tag" = t ∧ (treeFields a c t v).lookup "value" = v := by
  cases a <;> cases c <;> cases t <;> cases v <;> exact ⟨rfl, rfl, rfl, rfl⟩

theorem listedAttributes_treeMembers :
    listedAttributes (treeMembers t v a c) = a.getD [] := by
  rw [listedAttributes, treeMembers, lookup_treeFields.1]
  cases a <;> rfl

theorem treeForms_eq_map (vs : List Json) : treeForms vs = vs.map treeForm := by
  induction vs with
  | nil => rfl
  | cons d r ih => rw [treeForms, ih, List.map_cons]

theorem childForms_eq (ms : List (String × Json)) : childForms ms =
    match ms.lookup "children" with
    | some (.array vs) => vs.map treeForm
    | _ => [] := by
  induction ms with
  | nil => rfl
  | cons e r ih =>
    obtain ⟨k, w⟩ := e
    by_cases hk : k = "children"
    · subst hk
      rw [List.lookup_cons_self]
      cases w <;> simp [childForms, treeForms_eq_map]
    · have hb : ("children" == k) = false := by simpa using Ne.symm hk
      rw [List.lookup_cons, hb, ← ih]
      cases w <;> simp [childForms, hk]

/-- The form of a tree document by its fields. -/
theorem treeForm_treeMembers (t : String) (v : Option Json) (a : Option (List (String × Json)))
    (c : Option (List Json)) : (object (treeMembers t v a c)).treeForm =
      .object (treeMembers t
        ((((v.bind string?).bind Text.trimmed?).or (((a.getD []).lookup textName).bind string?)).map
          .string)
        (present ((a.getD []).filter fun e => !Node.isText e))
        (present ((c.getD []).map treeForm))) := by
  have hchildren : childForms (treeMembers t v a c) = (c.getD []).map treeForm := by
    rw [childForms_eq, treeMembers, lookup_treeFields.2.1]
    cases c <;> rfl
  have htext : valueText? (treeMembers t v a c) = (v.bind string?).bind Text.trimmed? := by
    rw [valueText?, treeMembers, lookup_treeFields.2.2.2]
  rw [treeForm, hchildren, htext, listedAttributes_treeMembers]
  simp only [treeMembers, lookup_treeFields.2.2.1]

/-- Where a tree document collides, by its fields. -/
theorem collides_treeMembers_iff : (object (treeMembers t v a c)).Collides ↔
    (∃ s, v = some (.string s) ∧ Text.isBlankText s = false ∧
      textName ∈ Entries.keys (a.getD [])) ∨ ∃ d ∈ c.getD [], d.Collides := by
  constructor
  · intro h
    cases h with
    | own hv hs ha =>
      rw [treeMembers, lookup_treeFields.2.2.2] at hv
      rw [listedAttributes_treeMembers] at ha
      exact .inl ⟨_, hv, hs, ha⟩
    | child hc hd h =>
      rw [treeMembers, lookup_treeFields.2.1] at hc
      obtain ⟨vs, rfl, hvs⟩ := Option.map_eq_some_iff.1 hc
      cases hvs
      exact .inr ⟨_, hd, h⟩
  · rintro (⟨s, hv, hs, ha⟩ | ⟨d, hd, h⟩)
    · refine .own (s := s) ?_ hs ?_
      · rw [treeMembers, lookup_treeFields.2.2.2, hv]
      · rwa [listedAttributes_treeMembers]
    · cases c with
      | none => simp at hd
      | some vs =>
        refine @Collides.child _ vs d ?_ hd h
        rw [treeMembers, lookup_treeFields.2.1]
        rfl

/-- What canonical form says of the fields of a tree document. -/
theorem canonical_treeMembers (h : (object (treeMembers t v a c)).canonical =
    .object (treeMembers t v a c)) : Entries.Increasing (a.getD []) ∧
      (∀ e ∈ a.getD [], e.2.canonical = e.2) ∧ ∀ d ∈ c.getD [], d.canonical = d := by
  obtain ⟨-, hms⟩ := canonical_object_iff.1 h
  have hattributes : ∀ as, a = some as → (object as).canonical = .object as := fun as has =>
    hms ("attributes", .object as) (mem_treeFields.2 (.inl ⟨by rw [has]; rfl, rfl⟩))
  have hchildren : ∀ vs, c = some vs → (array vs).canonical = .array vs := fun vs hvs =>
    hms ("children", .array vs) (mem_treeFields.2 (.inr (.inl ⟨by rw [hvs]; rfl, rfl⟩)))
  refine ⟨?_, ?_, ?_⟩
  · cases a with
    | none => exact List.Pairwise.nil
    | some as => exact (canonical_object_iff.1 (hattributes as rfl)).1
  · cases a with
    | none => simp
    | some as => exact (canonical_object_iff.1 (hattributes as rfl)).2
  · cases c with
    | none => simp
    | some vs => exact canonical_array_iff.1 (hchildren vs rfl)

/-- The value is read as a record. If it collides, this is no node; otherwise its node is written
in the form of the document. -/
def ReadsAsTree (v : Json) : Prop :=
  ∃ r, Record.ofJson v = .ok r ∧ (v.Collides → ∃ t, r.toNode = .error (.valueTwice t)) ∧
    (¬ v.Collides → ∃ n, r.toNode = .ok n ∧ n.toJson = v.treeForm)

/-- The same for the items of a list, one after the other. -/
theorem readsAsTree_items {vs : List Json} (h : ∀ d ∈ vs, d.ReadsAsTree) :
    ∃ rs, Record.ofItems vs = .ok rs ∧
      ((∃ d ∈ vs, d.Collides) → ∃ t, Record.toNodes rs = .error (.valueTwice t)) ∧
      ((∀ d ∈ vs, ¬ d.Collides) →
        ∃ ns, Record.toNodes rs = .ok ns ∧ ns.map Node.toJson = vs.map treeForm) := by
  induction vs with
  | nil => exact ⟨[], rfl, by simp, fun _ => ⟨[], rfl, rfl⟩⟩
  | cons d l ih =>
    obtain ⟨r, hr, hfault, hnode⟩ := h d (by simp)
    obtain ⟨rs, hrs, hfaults, hnodes⟩ := ih fun e he => h e (by simp [he])
    refine ⟨r :: rs, ?_, ?_, ?_⟩
    · rw [Record.ofItems, hr, hrs]
      rfl
    · intro hcollides
      rw [Record.toNodes]
      -- the first item that collides is the fault
      by_cases hd : d.Collides
      · obtain ⟨t, ht⟩ := hfault hd
        exact ⟨t, by rw [ht]; rfl⟩
      · obtain ⟨n, hn, -⟩ := hnode hd
        have hl : ∃ e ∈ l, e.Collides := by
          obtain ⟨e, he, hc⟩ := hcollides
          rcases List.mem_cons.1 he with rfl | he
          · exact absurd hc hd
          · exact ⟨e, he, hc⟩
        obtain ⟨t, ht⟩ := hfaults hl
        exact ⟨t, by rw [hn, ht]; rfl⟩
    · intro hno
      obtain ⟨n, hn, hform⟩ := hnode (hno d (by simp))
      obtain ⟨ns, hns, hforms⟩ := hnodes fun e he => hno e (by simp [he])
      refine ⟨n :: ns, ?_, ?_⟩
      · rw [Record.toNodes, hn, hns]
        rfl
      · rw [List.map_cons, List.map_cons, hform, hforms]

end Json

namespace Node

/-- What is written of attributes that start with a text, or that have none before the others. -/
theorem textOf?_of_entries {b : Attributes} {x : Option String} {es : List (String × Json)}
    (h : b.entries = (x.map fun s => (textName, Json.string s)).toList ++ es)
    (hone : x = none ∨ textName ∉ Entries.keys es) :
    textOf? b = x.or ((es.lookup textName).bind Json.string?) ∧
      others b = es.filter fun e => !isText e := by
  cases x with
  | none =>
    rw [textOf?, others, Attributes.get?, h]
    exact ⟨rfl, rfl⟩
  | some s =>
    rw [textOf?, others, Attributes.get?, h]
    simp [isText, Json.isString, Json.string?]

end Node

namespace Json

open Node

/-- A value that may stand in a tree document is a text, or none. -/
theorem optionalOf_value (hvalue : ∀ w, v = some w → w = .null ∨ ∃ s, w = .string s) :
    Record.optionalOf (v.getD .null) = .ok (v.bind string?) := by
  cases v with
  | none => rfl
  | some w => rcases hvalue w rfl with rfl | ⟨s, rfl⟩ <;> rfl

/-- Whether an object itself collides, and what the reader asks for: that there is no text before
the attributes, or none among them. -/
theorem collidesItself_iff (hvalue : ∀ w, v = some w → w = .null ∨ ∃ s, w = .string s)
    (ks : List String) :
    (∃ s, v = some (.string s) ∧ Text.isBlankText s = false ∧ textName ∈ ks) ↔
      ¬ ((v.bind string?).bind Text.trimmed? = none ∨ textName ∉ ks) := by
  cases v with
  | none => simp
  | some w =>
    rcases hvalue w rfl with rfl | ⟨s, rfl⟩
    · simp [string?]
    · simp [string?, Text.trimmed?_eq_none_iff]

/-- A text that is put before other attributes leaves them in canonical form. -/
theorem canonical_textFirst {x : Option String} {es : List (String × Json)}
    (h : ∀ e ∈ es, e.2.canonical = e.2) :
    ∀ e ∈ (x.map fun s => (textName, Json.string s)).toList ++ es, e.2.canonical = e.2 := by
  intro e he
  rcases List.mem_append.1 he with he | he
  · obtain ⟨s, -, rfl⟩ := Option.map_eq_some_iff.1 (Option.mem_toList.1 he)
    simp [canonical]
  · exact h e he

/-- **A tree document is read as a tree unless something collides in it.** -/
theorem readsAsTree_of_treeDocument {v : Json} (h : TreeDocument v) (hv : v.canonical = v) :
    v.ReadsAsTree := by
  induction h with
  | @mk t v a c ht hvalue hfree hc ih =>
    obtain ⟨hinc, ha, hchildren⟩ := canonical_treeMembers hv
    obtain ⟨rs, hrs, hfaults, hnodes⟩ := readsAsTree_items fun d hd => ih d hd (hchildren d hd)
    have hentries : (Attributes.ofList (a.getD [])).entries = a.getD [] :=
      entries_ofList hinc.nodup
    have hkeys : (Attributes.ofList (a.getD [])).keys = Entries.keys (a.getD []) := by
      rw [Attributes.keys, hentries]
    have hfree' : ∀ k ∈ (Attributes.ofList (a.getD [])).keys, k ∉ reservedNames := by
      rwa [hkeys]
    have hown := collidesItself_iff hvalue (Attributes.ofList (a.getD [])).keys
    refine ⟨_, Record.ofJson_treeMembers (optionalOf_value hvalue) hrs, ?_, ?_⟩
    · rw [collides_treeMembers_iff, ← hkeys, hown]
      intro hcollides
      by_cases hone : (v.bind string?).bind Text.trimmed? = none ∨
          textName ∉ (Attributes.ofList (a.getD [])).keys
      · obtain ⟨u, hu⟩ := hfaults (hcollides.resolve_left (not_not.2 hone))
        exact ⟨u, toNode_of_children hone hu⟩
      · rw [not_or, not_not] at hone
        exact ⟨t, toNode_of_both hone.1 hone.2⟩
    · rw [collides_treeMembers_iff, ← hkeys, hown, not_or, not_not]
      rintro ⟨hone, hno⟩
      obtain ⟨ns, hns, hforms⟩ := hnodes fun d hd hcd => hno ⟨d, hd, hcd⟩
      obtain ⟨b, hb, hnode, hbe⟩ := toNode_of_single ht hfree' hone hns
      rw [hentries] at hbe
      rw [hkeys] at hone
      obtain ⟨htext, hothers⟩ := textOf?_of_entries hbe hone
      refine ⟨_, hnode, ?_⟩
      have hvalues : ∀ e ∈ b.entries, e.2.canonical = e.2 := by
        rw [hbe]
        exact canonical_textFirst ha
      -- leaving out the text keeps the attributes sorted
      have hsorted : Entries.Increasing ((a.getD []).filter fun e => !isText e) :=
        List.Pairwise.sublist (List.filter_sublist.map Prod.fst) hinc
      rw [toJson_mk_of_canonical ht hb hvalues, treeForm_treeMembers, htext, hothers,
        sortMembers_of_increasing hsorted, hforms]

end Json

/-- **A tree document is a tree, or collides**, which is a parse failure. -/
theorem Node.ofJson_of_treeDocument {v : Json} (h : TreeDocument v) (hv : v.canonical = v) :
    (v.Collides → ∃ d, ofJson v = .error (.parse d)) ∧
      (¬ v.Collides → ∃ n, ofJson v = .ok n ∧ n.toJson = v.treeForm) := by
  obtain ⟨r, hr, hfault, hnode⟩ := Json.readsAsTree_of_treeDocument h hv
  have hread : ofJson v = r.toNode.mapError fun f => .parse f.message := by
    rw [ofJson, ofRecord, hr]
    rfl
  constructor
  · intro hc
    obtain ⟨t, ht⟩ := hfault hc
    exact ⟨_, by rw [hread, ht]; rfl⟩
  · intro hc
    obtain ⟨n, hn, hform⟩ := hnode hc
    exact ⟨n, by rw [hread, hn]; rfl, hform⟩

end Scaffold
