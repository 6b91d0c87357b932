import Scaffold.Proofs.Tree.Fields
import Scaffold.Schema.Read
import Scaffold.Schema.Tree

/-!
# What the schema of trees allows

A `TreeDocument` is what the schema of trees describes, said without the schema. A value in
canonical form has no violation of the schema exactly if it is a tree document
(`validate_tree_eq_ok_iff`). The lemmas before that say what a checker finds in the parts of a
value, for any schema.
-/

namespace Scaffold

namespace Schema

variable {root s : Schema} {v : Json} {vs : List Json} {ms : List (String × Json)}

/-! ### The parts of a value -/

theorem ofRules_eq_nil_iff {rs : List Rule} :
    ofRules root rs v = [] ↔ ∀ r ∈ rs, ofRule root r v = [] := by
  induction rs with
  | nil => simp [ofRules]
  | cons r rs ih => rw [ofRules, List.append_eq_nil_iff, ih, List.forall_mem_cons]

/-- The violations of a part of a value. -/
def partViolations (root : Schema) (v : Json) : Target → List Violation
  | .whole => violationsIn root root v
  | .schema s => violationsIn root s v

theorem ofItems_eq_nil_iff {t : Target} :
    ofItems root t vs = [] ↔ ∀ v ∈ vs, partViolations root v t = [] := by
  induction vs with
  | nil => simp [ofItems]
  | cons v vs ih =>
    rw [List.forall_mem_cons, ← ih]
    cases t <;> rw [ofItems, List.append_eq_nil_iff] <;> rfl

theorem ofNames_eq_nil_iff :
    ofNames root s ms = [] ↔ ∀ k ∈ Entries.keys ms, violationsIn root s (.string k) = [] := by
  induction ms with
  | nil => simp [ofNames]
  | cons e r ih =>
    obtain ⟨k, v⟩ := e
    rw [ofNames, List.append_eq_nil_iff, ih, Entries.keys_cons, List.forall_mem_cons]

/-- Members that are named are checked by what is said of their names. -/
theorem ofMembers_eq_nil_iff {named : List (String × Target)} :
    ofMembers root named .refused ms = [] ↔
      ∀ e ∈ ms, ∀ t, named.lookup e.1 = some t → partViolations root e.2 t = [] := by
  induction ms with
  | nil => simp [ofMembers]
  | cons e r ih =>
    obtain ⟨k, v⟩ := e
    rw [ofMembers, List.append_eq_nil_iff, ih, List.forall_mem_cons]
    · cases named.lookup k with
      | none => simp
      | some t => cases t <;> simp [partViolations]
    · intro h
      cases h
    · intro s h
      cases h

theorem validate_eq_ok_iff : s.validate v = .ok () ↔ s.violations v = [] := by
  rw [validate]
  cases s.violations v <;> simp

theorem validate_eq_error (h : s.validate v ≠ .ok ()) :
    ∃ d, s.validate v = .error (.validation d) := by
  rw [validate] at h ⊢
  cases hv : s.violations v with
  | nil => rw [hv] at h; exact absurd rfl h
  | cons w ws => exact ⟨_, rfl⟩

end Schema

open Json

/-- **A tree document**: an object of a tag that is not empty and, where it has them, a text or
null as its value, attributes without reserved names, and tree documents as its children. -/
inductive TreeDocument : Json → Prop
  | mk {t : String} {v : Option Json} {a : Option (List (String × Json))} {c : Option (List Json)} :
      t ≠ "" → (∀ w, v = some w → w = .null ∨ ∃ s, w = .string s) →
      (∀ k ∈ Entries.keys (a.getD []), k ∉ reservedNames) →
      (∀ d ∈ c.getD [], TreeDocument d) → TreeDocument (.object (treeMembers t v a c))

namespace Schema

variable {v : Json} {ms : List (String × Json)}

/-! ### The fields of a tree document -/

/-- The schemas of the fields. -/
def treeTargets : List (String × Target) :=
  [("attributes", .schema (.rules [.propertyNames attributeName, .types [.object]])),
    ("children", .schema (.rules [.items .whole, .types [.array]])),
    ("tag", .schema (.rules [.minLength 1, .types [.string]])),
    ("value", .schema (.rules [.types [.null, .string]]))]

theorem tree_eq : tree =
    .rules [.members treeTargets .refused, .required ["tag"], .types [.object]] := rfl

/-- Rules of a type, and of one more keyword. -/
theorem typed_eq_nil_iff {root : Schema} {r : Rule} {ts : List JsonType} :
    violationsIn root (.rules [r, .types ts]) v = [] ↔
      ofRule root r v = [] ∧ ∃ t ∈ ts, v.hasType t = true := by
  have htypes : ofRule root (.types ts) v = [] ↔ ∃ t ∈ ts, v.hasType t = true := by
    rw [ofRule, flatViolations, ← List.any_eq_true]
    split_ifs with h <;> simp [h]
    all_goals simp
  rw [violationsIn, ofRules_eq_nil_iff, ← htypes]
  simp

theorem tagField_eq_nil_iff {root : Schema} :
    violationsIn root (.rules [.minLength 1, .types [.string]]) v = [] ↔
      ∃ t, v = .string t ∧ t ≠ "" := by
  rw [typed_eq_nil_iff]
  cases v <;> simp [hasType, isString, ofRule, flatViolations]

theorem valueField_eq_nil_iff {root : Schema} :
    violationsIn root (.rules [.types [.null, .string]]) v = [] ↔
      v = .null ∨ ∃ s, v = .string s := by
  rw [violationsIn, ofRules_eq_nil_iff]
  cases v <;> simp [hasType, isString, ofRule, flatViolations]

theorem attributeName_eq_nil_iff {root : Schema} {k : String} :
    violationsIn root attributeName (.string k) = [] ↔ k ∉ reservedNames := by
  have hnames : reservedNames = ["tag", "children"] := rfl
  rw [attributeName, violationsIn, ofRules_eq_nil_iff, hnames]
  simp [ofRule, violationsIn, ofRules, flatViolations, equals]

theorem attributesField_eq_nil_iff {root : Schema} :
    violationsIn root (.rules [.propertyNames attributeName, .types [.object]]) v = [] ↔
      ∃ ms, v = .object ms ∧ ∀ k ∈ Entries.keys ms, k ∉ reservedNames := by
  rw [typed_eq_nil_iff]
  cases v <;> simp [hasType, isString, ofRule, ofNames_eq_nil_iff, attributeName_eq_nil_iff]

theorem childrenField_eq_nil_iff {root : Schema} :
    violationsIn root (.rules [.items .whole, .types [.array]]) v = [] ↔
      ∃ vs, v = .array vs ∧ ∀ d ∈ vs, violationsIn root root d = [] := by
  rw [typed_eq_nil_iff]
  cases v <;> simp [hasType, isString, ofRule, ofItems_eq_nil_iff, partViolations]

/-- No name of an object is unexpected exactly if each is the name of a field. -/
theorem unnamed_eq_nil_iff : unnamed treeTargets .refused ms = [] ↔
    ∀ k ∈ Entries.keys ms, k ∈ ["attributes", "children", "tag", "value"] := by
  have hlookup : ∀ k, (treeTargets.lookup k).isNone = false ↔
      k ∈ ["attributes", "children", "tag", "value"] := by
    intro k
    rw [Option.isNone_eq_false_iff, Option.isSome_iff_ne_none, Ne, List.lookup_eq_none_iff]
    simp [treeTargets]
    tauto
  rw [unnamed, List.filter_eq_nil_iff]
  simp only [Bool.not_eq_true, hlookup, Entries.keys]

/-- **Which values the schema allows**, by the fields of objects. -/
theorem violations_tree_eq_nil_iff : tree.violations v = [] ↔
    ∃ ms, v = .object ms ∧
      (∀ k ∈ Entries.keys ms, k ∈ ["attributes", "children", "tag", "value"]) ∧
      "tag" ∈ Entries.keys ms ∧
        ∀ e ∈ ms, ∀ t, treeTargets.lookup e.1 = some t → partViolations tree e.2 t = [] := by
  rw [violations, tree_eq, violationsIn, ofRules_eq_nil_iff, ← tree_eq]
  cases v with
  | object ms =>
    have hmembers : ofRule tree (.members treeTargets .refused) (.object ms) = [] ↔
        (∀ k ∈ Entries.keys ms, k ∈ ["attributes", "children", "tag", "value"]) ∧
          ∀ e ∈ ms, ∀ t, treeTargets.lookup e.1 = some t → partViolations tree e.2 t = [] := by
      rw [ofRule, List.append_eq_nil_iff, ofMembers_eq_nil_iff, ← unnamed_eq_nil_iff, and_comm]
      cases unnamed treeTargets .refused ms <;> simp
    have hrequired : ofRule tree (.required ["tag"]) (.object ms) = [] ↔
        "tag" ∈ Entries.keys ms := by
      simp [ofRule, flatViolations, Entries.keys]
    simp only [List.forall_mem_cons, hmembers, hrequired]
    simp [ofRule, flatViolations, hasType]
    tauto
  | _ => simp [hasType, ofRule, flatViolations]
/-! ### Tree documents -/

/-- **A tree document has no violation.** -/
theorem violations_of_treeDocument (h : TreeDocument v) : tree.violations v = [] := by
  induction h with
  | @mk t v a c ht hv ha hc ih =>
    refine violations_tree_eq_nil_iff.2 ⟨_, rfl, ?_, ?_, ?_⟩
    · intro k hk
      obtain ⟨w, hw⟩ := Entries.mem_keys.1 hk
      rcases mem_treeFields.1 hw with ⟨-, rfl⟩ | ⟨-, rfl⟩ | ⟨-, rfl⟩ | ⟨-, rfl⟩ <;> simp
    · exact Entries.mem_keys.2 ⟨.string t, mem_treeFields.2 (.inr (.inr (.inl ⟨rfl, rfl⟩)))⟩
    · rintro ⟨k, w⟩ he target htarget
      rcases mem_treeFields.1 he with ⟨hw, rfl⟩ | ⟨hw, rfl⟩ | ⟨hw, rfl⟩ | ⟨hw, rfl⟩
      · obtain ⟨ms, rfl, rfl⟩ := Option.map_eq_some_iff.1 hw
        cases htarget
        exact attributesField_eq_nil_iff.2 ⟨ms, rfl, ha⟩
      · obtain ⟨vs, rfl, rfl⟩ := Option.map_eq_some_iff.1 hw
        cases htarget
        exact childrenField_eq_nil_iff.2 ⟨vs, rfl, ih⟩
      · cases hw
        cases htarget
        exact tagField_eq_nil_iff.2 ⟨t, rfl, ht⟩
      · cases htarget
        exact valueField_eq_nil_iff.2 (hv w hw)

/-- **A value in canonical form without a violation is a tree document.** -/
theorem treeDocument_of_violations (v : Json) (hv : v.canonical = v)
    (h : tree.violations v = []) : TreeDocument v := by
  obtain ⟨ms, rfl, hnames, htag, hfields⟩ := violations_tree_eq_nil_iff.1 h
  obtain ⟨hinc, hms⟩ := canonical_object_iff.1 hv
  have hlookup := fun k w => (Entries.lookup_eq_some_iff_mem (k := k) (v := w) hinc.nodup).1
  -- each field is what the schema says of it
  obtain ⟨t, ht, hne⟩ : ∃ t, ms.lookup "tag" = some (.string t) ∧ t ≠ "" := by
    obtain ⟨w, hw⟩ := Entries.mem_keys.1 htag
    obtain ⟨t, rfl, hne⟩ := tagField_eq_nil_iff.1 (hfields _ hw _ rfl)
    exact ⟨t, (Entries.lookup_eq_some_iff_mem hinc.nodup).2 hw, hne⟩
  have hvalue : ∀ w, ms.lookup "value" = some w → w = .null ∨ ∃ s, w = .string s := fun w hw =>
    valueField_eq_nil_iff.1 (hfields _ (hlookup _ _ hw) _ rfl)
  obtain ⟨a, ha, hfree⟩ : ∃ a : Option (List (String × Json)),
      ms.lookup "attributes" = a.map .object ∧ ∀ k ∈ Entries.keys (a.getD []), k ∉ reservedNames := by
    cases ha : ms.lookup "attributes" with
    | none => exact ⟨none, rfl, by simp⟩
    | some w =>
      obtain ⟨as, rfl, hfree⟩ := attributesField_eq_nil_iff.1 (hfields _ (hlookup _ _ ha) _ rfl)
      exact ⟨some as, rfl, hfree⟩
  obtain ⟨c, hc, hchildren⟩ : ∃ c : Option (List Json),
      ms.lookup "children" = c.map .array ∧ ∀ d ∈ c.getD [], TreeDocument d := by
    cases hc : ms.lookup "children" with
    | none => exact ⟨none, rfl, by simp⟩
    | some w =>
      have hmem := hlookup _ _ hc
      obtain ⟨vs, rfl, hvs⟩ := childrenField_eq_nil_iff.1 (hfields _ hmem _ rfl)
      refine ⟨some vs, rfl, fun d hd => ?_⟩
      have hd : d ∈ vs := hd
      have hcanonical := canonical_array_iff.1 (hms _ hmem) d hd
      exact treeDocument_of_violations d hcanonical (hvs d hd)
  rw [eq_treeFields hinc hnames, ht, ha, hc]
  exact .mk hne hvalue hfree hchildren
termination_by sizeOf v
decreasing_by
  subst_vars
  have h₁ := List.sizeOf_lt_of_mem hd
  have h₂ := List.sizeOf_lt_of_mem hmem
  simp only [Prod.mk.sizeOf_spec, Json.array.sizeOf_spec, Json.object.sizeOf_spec] at h₂ ⊢
  omega

/-- **The schema allows exactly the tree documents**, among the values in canonical form. -/
theorem validate_tree_eq_ok_iff (hv : v.canonical = v) :
    tree.validate v = .ok () ↔ TreeDocument v := by
  rw [validate_eq_ok_iff]
  exact ⟨treeDocument_of_violations v hv, violations_of_treeDocument⟩

end Schema

end Scaffold
