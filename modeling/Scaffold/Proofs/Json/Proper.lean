import Scaffold.Json.Basic
import Scaffold.Proofs.Entries

/-!
# Proper JSON values

A value is proper if its numbers are finite and its objects list their members in increasing order
of the keys. Proper values are their own canonical form (`canonical_of_proper`) and the same as
themselves (`same_self`). Sorting members gives them in increasing order, and if no key is repeated
it does nothing else (`increasing_sortMembers`, `perm_sortMembers`).
-/

namespace Scaffold

def JsonNumber.IsFinite : JsonNumber → Prop
  | .int _ => True
  | .real x => x.isFinite = true

theorem JsonNumber.same_self {n : JsonNumber} (h : n.IsFinite) : n.same n = true := by
  cases n with
  | int i => simp [same]
  | real x =>
    have hx : x.isNaN = false := by
      have hx : x.isFinite = true := h
      simp only [Number.Binary64.isFinite, bne_iff_ne] at hx
      simp [Number.Binary64.isNaN, hx]
    simp [same, Number.Binary64.numEq, hx]

namespace Json

variable {es : List (String × Json)}

mutual

/-- **Numbers are finite, and members stand in increasing order of their keys**, at every depth. -/
def Proper : Json → Prop
  | .number n => n.IsFinite
  | .array items => ProperItems items
  | .object members => Entries.Increasing members ∧ ProperMembers members
  | _ => True

def ProperItems : List Json → Prop
  | [] => True
  | v :: r => Proper v ∧ ProperItems r

def ProperMembers : List (String × Json) → Prop
  | [] => True
  | (_, v) :: r => Proper v ∧ ProperMembers r

end

@[simp] theorem proper_string (s : String) : (string s).Proper := by simp [Proper]

mutual

theorem same_self : (v : Json) → v.Proper → v.same v = true
  | .null, _ => rfl
  | .bool b, _ => by simp [same]
  | .number n, h => by
    rw [same]
    exact JsonNumber.same_self (by simpa [Proper] using h)
  | .string s, _ => by simp [same]
  | .array items, h => by
    rw [Proper] at h
    rw [same, sameItems_self items h]
  | .object members, h => by
    rw [Proper] at h
    rw [same, sameMembers_self members h.2]

theorem sameItems_self : (vs : List Json) → ProperItems vs → sameItems vs vs = true
  | [], _ => rfl
  | v :: r, h => by
    rw [ProperItems] at h
    rw [sameItems, same_self v h.1, sameItems_self r h.2]
    rfl

theorem sameMembers_self : (ms : List (String × Json)) → ProperMembers ms →
    sameMembers ms ms = true
  | [], _ => rfl
  | (k, v) :: r, h => by
    rw [ProperMembers] at h
    simp [sameMembers, same_self v h.1, sameMembers_self r h.2]

end

/-! ### Sorting members -/

theorem canonicalMembers_eq_map (ms : List (String × Json)) :
    canonicalMembers ms = ms.map fun e => (e.1, e.2.canonical) := by
  induction ms with
  | nil => rfl
  | cons e r ih =>
    obtain ⟨k, v⟩ := e
    rw [canonicalMembers, ih, List.map_cons]

theorem canonicalMembers_append (ms ns : List (String × Json)) :
    canonicalMembers (ms ++ ns) = canonicalMembers ms ++ canonicalMembers ns := by
  simp only [canonicalMembers_eq_map, List.map_append]

theorem keys_canonicalMembers (ms : List (String × Json)) :
    Entries.keys (canonicalMembers ms) = Entries.keys ms := by
  rw [canonicalMembers_eq_map, Entries.keys, List.map_map]
  rfl

theorem canonicalMembers_of_canonical {ms : List (String × Json)}
    (h : ∀ e ∈ ms, e.2.canonical = e.2) : canonicalMembers ms = ms := by
  rw [canonicalMembers_eq_map]
  refine (List.map_congr_left fun e he => ?_).trans (List.map_id _)
  rw [h e he]
  rfl

theorem increasing_sortMembers (ms : List (String × Json)) :
    Entries.Increasing (sortMembers ms) := Entries.increasing_foldl_put ms [] List.Pairwise.nil

/-- Sorting members of different keys gives the same members in another order. -/
theorem perm_sortMembers (h : (Entries.keys es).Nodup) : (sortMembers es).Perm es := by
  suffices hacc : ∀ acc, (Entries.keys (acc ++ es)).Nodup →
      (es.foldl (fun acc e => Entries.put e.1 e.2 acc) acc).Perm (acc ++ es) from
    hacc [] (by simpa using h)
  clear h
  induction es with
  | nil => intro acc _; simp
  | cons e r ih =>
    intro acc h
    -- the new key is not among those that have been put already
    have hmid : (acc ++ e :: r).Perm (e :: acc ++ r) := List.perm_middle
    have hn := (Entries.keys_perm hmid).nodup_iff.1 h
    have hk : e.1 ∉ Entries.keys acc := by
      rw [List.cons_append, Entries.keys_cons, List.nodup_cons] at hn
      exact fun hm => hn.1 (by simp [hm])
    have hput := (Entries.perm_put (v := e.2) hk).append_right r
    have hr := ih (Entries.put e.1 e.2 acc) ((Entries.keys_perm hput).nodup_iff.2 hn)
    exact (hr.trans hput).trans hmid.symm

theorem sortMembers_of_increasing (h : Entries.Increasing es) : sortMembers es = es :=
  Entries.eq_of_perm (perm_sortMembers h.nodup) (increasing_sortMembers es) h

theorem canonicalItems_eq_map (vs : List Json) : canonicalItems vs = vs.map canonical := by
  induction vs with
  | nil => rfl
  | cons v r ih => rw [canonicalItems, ih, List.map_cons]

theorem canonical_array_iff {vs : List Json} :
    (array vs).canonical = .array vs ↔ ∀ v ∈ vs, v.canonical = v := by
  have h : vs.map canonical = vs.map id ↔ ∀ v ∈ vs, v.canonical = id v := List.map_inj_left
  rw [canonical, array.injEq, canonicalItems_eq_map]
  simpa using h

/-- An object is in canonical form if its keys are increasing and its members are in canonical
form. -/
theorem canonical_object_iff {ms : List (String × Json)} :
    (object ms).canonical = .object ms ↔
      Entries.Increasing ms ∧ ∀ e ∈ ms, e.2.canonical = e.2 := by
  rw [canonical, object.injEq]
  constructor
  · intro h
    have hinc : Entries.Increasing ms := h ▸ increasing_sortMembers _
    refine ⟨hinc, ?_⟩
    rintro ⟨k, v⟩ he
    -- the canonical form of the member is the member of its name
    have hperm : (sortMembers (canonicalMembers ms)).Perm (canonicalMembers ms) :=
      perm_sortMembers (by rw [keys_canonicalMembers]; exact hinc.nodup)
    rw [h] at hperm
    have hcanonical : (k, v.canonical) ∈ ms := by
      rw [hperm.mem_iff, canonicalMembers_eq_map]
      exact List.mem_map.2 ⟨(k, v), he, rfl⟩
    have hv := (Entries.lookup_eq_some_iff_mem hinc.nodup).2 he
    rw [(Entries.lookup_eq_some_iff_mem hinc.nodup).2 hcanonical] at hv
    exact Option.some.inj hv
  · rintro ⟨hinc, hms⟩
    rw [canonicalMembers_of_canonical hms, sortMembers_of_increasing hinc]

mutual

/-- **A proper value is its own canonical form.** -/
theorem canonical_of_proper : (v : Json) → v.Proper → v.canonical = v
  | .null, _ => by simp [canonical]
  | .bool b, _ => by simp [canonical]
  | .number n, _ => by simp [canonical]
  | .string s, _ => by simp [canonical]
  | .array items, h => by
    rw [Proper] at h
    rw [canonical, canonicalItems_of_proper items h]
  | .object members, h => by
    rw [Proper] at h
    rw [canonical, canonicalMembers_of_proper members h.2, sortMembers_of_increasing h.1]

theorem canonicalItems_of_proper : (vs : List Json) → ProperItems vs → canonicalItems vs = vs
  | [], _ => rfl
  | v :: r, h => by
    rw [ProperItems] at h
    rw [canonicalItems, canonical_of_proper v h.1, canonicalItems_of_proper r h.2]

theorem canonicalMembers_of_proper : (ms : List (String × Json)) → ProperMembers ms →
    canonicalMembers ms = ms
  | [], _ => rfl
  | (k, v) :: r, h => by
    rw [ProperMembers] at h
    rw [canonicalMembers, canonical_of_proper v h.1, canonicalMembers_of_proper r h.2]

end

end Json

end Scaffold
