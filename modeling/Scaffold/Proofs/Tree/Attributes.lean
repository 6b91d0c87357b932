import Mathlib.Data.List.Perm.Subperm
import Scaffold.Proofs.Json.Proper
import Scaffold.Tree.Attributes

/-!
# Attributes and the order of their entries

Attributes of the same entries are the same in whatever order these stand (`same_of_perm`), and
putting entries of new names one after the other appends them (`entries_insertAll`).
-/

namespace Scaffold.Attributes

variable {a b : Attributes} {k : String} {v : Json} {es : List (String × Json)}

theorem get?_eq_some_iff : a.get? k = some v ↔ (k, v) ∈ a.entries :=
  Entries.lookup_eq_some_iff_mem a.distinct

theorem contains_iff : a.contains k = true ↔ k ∈ a.keys := by
  rw [contains]
  exact List.contains_iff_mem

theorem entries_insert (h : k ∉ a.keys) : (a.insert k v).entries = a.entries ++ [(k, v)] :=
  Entries.insert_of_not_mem h

/-- Entries of new names go to the end, in their order. -/
theorem entries_insertAll (h : (Entries.keys (a.entries ++ es)).Nodup) :
    (a.insertAll es).entries = a.entries ++ es := by
  induction es generalizing a with
  | nil => simp [insertAll]
  | cons e r ih =>
    have hk : e.1 ∉ a.keys := by
      rw [Entries.keys_append, List.nodup_append] at h
      exact fun hm => h.2.2 e.1 hm e.1 (by simp) rfl
    have he := entries_insert (v := e.2) hk
    have hr := ih (a := a.insert e.1 e.2) (by rw [he]; simpa using h)
    rw [he, List.append_assoc] at hr
    exact hr

theorem entries_ofList (h : (Entries.keys es).Nodup) : (ofList es).entries = es :=
  entries_insertAll (a := empty) h

/-- **The order of entries does not matter** for whether attributes are the same. -/
theorem same_of_perm (h : a.entries.Perm b.entries)
    (hs : ∀ e ∈ a.entries, e.2.same e.2 = true) : a.same b = true := by
  rw [same, Bool.and_eq_true, beq_iff_eq, List.all_eq_true]
  refine ⟨h.length_eq, fun e he => ?_⟩
  obtain ⟨k, v⟩ := e
  have hb : b.get? k = some v := get?_eq_some_iff.2 (h.mem_iff.1 he)
  simp only [hb]
  exact hs (k, v) he

theorem length_eq_of_same (h : a.same b = true) : a.entries.length = b.entries.length := by
  rw [same, Bool.and_eq_true, beq_iff_eq] at h
  exact h.1

theorem exists_of_same (h : a.same b = true) (hm : (k, v) ∈ a.entries) :
    ∃ w, b.get? k = some w ∧ v.same w = true := by
  rw [same, Bool.and_eq_true, List.all_eq_true] at h
  have hv := h.2 _ hm
  simp only at hv
  cases hb : b.get? k with
  | none => rw [hb] at hv; cases hv
  | some w => exact ⟨w, rfl, by rw [hb] at hv; exact hv⟩

/-- Attributes that are the same have the same keys, in some order. -/
theorem keys_perm_of_same (h : a.same b = true) : a.keys.Perm b.keys := by
  -- all keys of the one are keys of the other, which has no more
  refine (a.distinct.subperm fun k hk => ?_).perm_of_length_le ?_
  · obtain ⟨v, hv⟩ := Entries.mem_keys.1 hk
    obtain ⟨w, hw, -⟩ := exists_of_same h hv
    exact Entries.mem_keys.2 ⟨w, get?_eq_some_iff.1 hw⟩
  · simp [keys, Entries.keys, length_eq_of_same h]

/-- Attributes that are the same lack the same names. -/
theorem get?_eq_none_of_same (h : a.same b = true) (ha : a.get? k = none) : b.get? k = none := by
  refine Entries.lookup_eq_none fun hb => ?_
  have hk : k ∈ Entries.keys a.entries := (keys_perm_of_same h).mem_iff.2 hb
  rw [← Entries.isSome_lookup, ← get?, ha] at hk
  cases hk

end Scaffold.Attributes
