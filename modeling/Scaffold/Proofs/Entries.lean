import Mathlib.Data.List.Nodup
import Mathlib.Data.String.Basic
import Scaffold.Entries

/-!
# Entries with distinct or increasing keys

With distinct keys a look-up finds exactly the entries of the list (`lookup_eq_some_iff_mem`).
`Entries.put` keeps keys increasing (`increasing_put`), and only adds the entry of a new key
(`perm_put`). Entries with increasing keys are determined by what is found in them
(`eq_of_lookup`), and any others if their order is known too (`eq_of_keys`). Where a key has
several entries, the last counts (`lookup_foldl_put`).
-/

namespace Scaffold.Entries

variable {α : Type} {k : String} {v : α} {es fs : List (String × α)}

@[simp] theorem keys_nil : keys ([] : List (String × α)) = [] := rfl

@[simp] theorem keys_cons (e : String × α) (es : List (String × α)) :
    keys (e :: es) = e.1 :: keys es := rfl

@[simp] theorem keys_append (es fs : List (String × α)) : keys (es ++ fs) = keys es ++ keys fs :=
  List.map_append

theorem mem_keys : k ∈ keys es ↔ ∃ v, (k, v) ∈ es := by simp [keys]

/-- **With distinct keys** a look-up finds what the list holds. -/
theorem lookup_eq_some_iff_mem (h : (keys es).Nodup) : es.lookup k = some v ↔ (k, v) ∈ es := by
  induction es with
  | nil => simp
  | cons e r ih =>
    obtain ⟨l, w⟩ := e
    rw [keys_cons, List.nodup_cons] at h
    by_cases hk : k = l
    · subst hk
      have hno : (k, v) ∉ r := fun hm => h.1 (mem_keys.2 ⟨v, hm⟩)
      simp [hno, eq_comm]
    · have hb : (k == l) = false := by simpa using hk
      simp [List.lookup_cons, hb, hk, ih h.2]

theorem isSome_lookup : (es.lookup k).isSome ↔ k ∈ keys es := by
  induction es with
  | nil => simp
  | cons e r ih =>
    obtain ⟨l, w⟩ := e
    by_cases hk : k = l
    · simp [hk]
    · have hb : (k == l) = false := by simpa using hk
      simp [List.lookup_cons, hb, hk, ih]

theorem lookup_eq_none (h : k ∉ keys es) : es.lookup k = none := by
  rw [← Option.not_isSome_iff_eq_none, isSome_lookup]
  exact h

theorem keys_perm (h : es.Perm fs) : (keys es).Perm (keys fs) := h.map Prod.fst

theorem nodup_keys_filter (p : String × α → Bool) (h : (keys es).Nodup) :
    (keys (es.filter p)).Nodup := List.Nodup.sublist (List.filter_sublist.map Prod.fst) h

/-- With distinct keys the order of the entries does not matter. -/
theorem lookup_perm (hes : (keys es).Nodup) (h : es.Perm fs) (k : String) :
    es.lookup k = fs.lookup k := by
  ext v
  rw [lookup_eq_some_iff_mem hes, lookup_eq_some_iff_mem ((keys_perm h).nodup_iff.1 hes), h.mem_iff]

theorem lookup_filter (hes : (keys es).Nodup) (p : String × α → Bool) (k : String) :
    (es.filter p).lookup k = (es.lookup k).filter fun v => p (k, v) := by
  ext v
  rw [lookup_eq_some_iff_mem (nodup_keys_filter p hes), List.mem_filter,
    ← lookup_eq_some_iff_mem hes, Option.filter_eq_some_iff]

theorem insert_of_not_mem (h : k ∉ keys es) : insert k v es = es ++ [(k, v)] := by
  induction es with
  | nil => rfl
  | cons e r ih =>
    obtain ⟨l, w⟩ := e
    rw [keys_cons, List.mem_cons, not_or] at h
    rw [insert, if_neg (Ne.symm h.1), ih h.2]
    rfl

/-! ### Increasing keys -/

/-- The keys stand in increasing order, each once. -/
def Increasing (es : List (String × α)) : Prop := (keys es).Pairwise (· < ·)

theorem Increasing.nodup (h : Increasing es) : (keys es).Nodup := List.Pairwise.imp ne_of_lt h

theorem increasing_cons {e : String × α} :
    Increasing (e :: es) ↔ (∀ l ∈ keys es, e.1 < l) ∧ Increasing es := List.pairwise_cons

/-- Nothing is found before the first key. -/
theorem Increasing.lookup_of_lt {l : String} (h : Increasing ((l, v) :: es)) (hk : k < l) :
    ((l, v) :: es).lookup k = none := by
  refine lookup_eq_none fun hm => ?_
  rcases List.mem_cons.1 hm with rfl | hm
  · exact absurd hk (lt_irrefl _)
  · exact absurd (hk.trans ((increasing_cons.1 h).1 k hm)) (lt_irrefl _)

/-- The first key is not found again. -/
theorem Increasing.lookup_tail (h : Increasing ((k, v) :: es)) : es.lookup k = none :=
  lookup_eq_none fun hm => absurd ((increasing_cons.1 h).1 k hm) (lt_irrefl _)

theorem mem_keys_put {l : String} : l ∈ keys (put k v es) ↔ l = k ∨ l ∈ keys es := by
  induction es with
  | nil => simp [put]
  | cons e r ih =>
    obtain ⟨j, w⟩ := e
    rw [put]
    split_ifs with h₁ h₂
    · subst h₁; simp
    · simp
    · rw [keys_cons, List.mem_cons, ih, keys_cons, List.mem_cons, or_left_comm]

/-- **Putting an entry keeps the keys increasing.** -/
theorem increasing_put (k : String) (v : α) (h : Increasing es) : Increasing (put k v es) := by
  induction es with
  | nil => simp [put, Increasing]
  | cons e r ih =>
    obtain ⟨j, w⟩ := e
    rw [increasing_cons] at h
    rw [put]
    split_ifs with h₁ h₂
    · subst h₁
      exact increasing_cons.2 h
    · refine increasing_cons.2 ⟨fun l hl => ?_, increasing_cons.2 h⟩
      rcases List.mem_cons.1 hl with rfl | hl
      · exact h₂
      · exact h₂.trans (h.1 l hl)
    · refine increasing_cons.2 ⟨fun l hl => ?_, ih h.2⟩
      rcases mem_keys_put.1 hl with rfl | hl
      · exact lt_of_le_of_ne (not_lt.1 h₂) (Ne.symm h₁)
      · exact h.1 l hl

/-- A new key only adds its entry. -/
theorem perm_put (h : k ∉ keys es) : (put k v es).Perm ((k, v) :: es) := by
  induction es with
  | nil => rfl
  | cons e r ih =>
    obtain ⟨j, w⟩ := e
    rw [keys_cons, List.mem_cons, not_or] at h
    rw [put, if_neg h.1]
    split_ifs
    · rfl
    · exact ((ih h.2).cons _).trans (.swap ..)

/-- **Entries with increasing keys are determined by what they are**, without their order. -/
theorem eq_of_perm (h : es.Perm fs) (hes : Increasing es) (hfs : Increasing fs) : es = fs :=
  h.eq_of_pairwise (fun _ _ _ _ hab hba => absurd hba (lt_asymm hab)) (List.pairwise_map.1 hes)
    (List.pairwise_map.1 hfs)

theorem perm_of_lookup (hes : (keys es).Nodup) (hfs : (keys fs).Nodup)
    (h : ∀ k, es.lookup k = fs.lookup k) : es.Perm fs := by
  refine (List.perm_ext_iff_of_nodup hes.of_map hfs.of_map).2 fun e => ?_
  obtain ⟨k, v⟩ := e
  rw [← lookup_eq_some_iff_mem hes, ← lookup_eq_some_iff_mem hfs, h]

theorem eq_of_lookup (hes : Increasing es) (hfs : Increasing fs)
    (h : ∀ k, es.lookup k = fs.lookup k) : es = fs :=
  eq_of_perm (perm_of_lookup hes.nodup hfs.nodup h) hes hfs

theorem eq_or_mem_of_mem_put {e : String × α} (h : e ∈ put k v es) : e = (k, v) ∨ e ∈ es := by
  induction es with
  | nil => simpa [put] using h
  | cons f r ih =>
    obtain ⟨l, u⟩ := f
    rw [put] at h
    split_ifs at h with h₁ h₂
    · rcases List.mem_cons.1 h with h | h
      · exact .inl h
      · exact .inr (List.mem_cons_of_mem _ h)
    · exact List.mem_cons.1 h
    · rcases List.mem_cons.1 h with h | h
      · exact .inr (h ▸ List.mem_cons_self)
      · exact (ih h).imp_right (List.mem_cons_of_mem _)

/-- Entries are determined by their keys in order and what is found under them. -/
theorem eq_of_keys (hn : (keys es).Nodup) (hk : keys es = keys fs)
    (h : ∀ k, es.lookup k = fs.lookup k) : es = fs := by
  induction es generalizing fs with
  | nil => exact (List.map_eq_nil_iff.1 hk.symm).symm
  | cons e r ih =>
    cases fs with
    | nil => cases hk
    | cons f s =>
      obtain ⟨k, v⟩ := e
      obtain ⟨l, w⟩ := f
      obtain ⟨rfl, hrs⟩ := List.cons.inj hk
      have hrs : keys r = keys s := hrs
      obtain ⟨hr, hn⟩ := List.nodup_cons.1 hn
      have hv := h k
      rw [List.lookup_cons_self, List.lookup_cons_self, Option.some_inj] at hv
      rw [hv, ih hn hrs fun j => ?_]
      by_cases hj : j = k
      · -- the first key is found neither in the one rest nor in the other
        rw [hj, lookup_eq_none hr, lookup_eq_none (hrs ▸ hr)]
      · have hne : (j == k) = false := by simpa using hj
        simpa only [List.lookup_cons, hne] using h j

/-! ### Several entries for a key -/

theorem increasing_foldl_put (es acc : List (String × α)) (h : Increasing acc) :
    Increasing (es.foldl (fun acc e => put e.1 e.2 acc) acc) := by
  induction es generalizing acc with
  | nil => exact h
  | cons e r ih => exact ih _ (increasing_put e.1 e.2 h)

/-- Of several entries for a key the last counts. -/
theorem lookup_foldl_put (k : String) (es acc : List (String × α)) :
    (es.foldl (fun acc e => put e.1 e.2 acc) acc).lookup k =
      (es.reverse.lookup k).or (acc.lookup k) := by
  induction es generalizing acc with
  | nil => rfl
  | cons e es ih =>
    rw [List.foldl_cons, ih, List.reverse_cons, List.lookup_append, Option.or_assoc]
    congr 1
    by_cases hk : k = e.1
    · rw [hk, lookup_put_self, List.lookup_cons_self, Option.some_or]
    · have hne : (k == e.1) = false := by simpa using hk
      rw [lookup_put_of_ne _ _ hk, List.lookup_cons, hne]
      rfl

/-- A key without a second entry is found from either end. -/
theorem lookup_reverse_of_count (h : (keys es).count k ≤ 1) : es.reverse.lookup k = es.lookup k := by
  induction es with
  | nil => rfl
  | cons e r ih =>
    obtain ⟨l, w⟩ := e
    rw [keys_cons] at h
    rw [List.reverse_cons, List.lookup_append]
    by_cases hk : k = l
    · subst hk
      rw [List.count_cons_self] at h
      have hr : k ∉ keys r := List.count_eq_zero.1 (by omega)
      rw [ih (by omega), lookup_eq_none hr, List.lookup_cons_self, List.lookup_cons_self, Option.none_or]
    · have hne : (k == l) = false := by simpa using hk
      rw [ih (List.count_le_count_cons.trans h), List.lookup_cons, List.lookup_cons, hne]
      exact Option.or_none

/-- Where keys are distinct, their order does not matter. -/
theorem lookup_reverse (h : (keys es).Nodup) (k : String) : es.reverse.lookup k = es.lookup k :=
  lookup_reverse_of_count (List.nodup_iff_count_le_one.1 h k)

end Scaffold.Entries
