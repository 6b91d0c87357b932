/-!
# Keyed entries

Lists of entries with distinct keys. `Entries.insert` keeps the order of first insertion: a key
that is there keeps its place (`keys_insert_of_mem`), a new one goes to the end
(`keys_insert_of_not_mem`). `Entries.put` keeps the keys in increasing order.
-/

namespace Scaffold.Entries

variable {α : Type}

/-- Replaces the value under a key in place, or appends the entry. -/
def insert (k : String) (v : α) : List (String × α) → List (String × α)
  | [] => [(k, v)]
  | (l, w) :: r => if l = k then (k, v) :: r else (l, w) :: insert k v r

/-- Replaces the value under a key, or adds the entry before the first larger key. -/
def put (k : String) (v : α) : List (String × α) → List (String × α)
  | [] => [(k, v)]
  | (l, w) :: r =>
    if k = l then (k, v) :: r
    else if k < l then (k, v) :: (l, w) :: r
    else (l, w) :: put k v r

def erase (k : String) (es : List (String × α)) : List (String × α) :=
  es.filter fun e => e.1 != k

def keys (es : List (String × α)) : List String := es.map Prod.fst

theorem keys_insert_of_mem {k : String} {v : α} {es : List (String × α)} (h : k ∈ keys es) :
    keys (insert k v es) = keys es := by
  induction es with
  | nil => simp [keys] at h
  | cons e r ih =>
    obtain ⟨l, w⟩ := e
    by_cases hl : l = k
    · simp [insert, keys, hl]
    · have : k ∈ keys r := by
        simp only [keys, List.map_cons, List.mem_cons] at h ⊢
        rcases h with h | h
        · exact absurd h.symm hl
        · exact h
      simpa [insert, keys, hl] using ih this

theorem keys_insert_of_not_mem {k : String} {v : α} {es : List (String × α)} (h : k ∉ keys es) :
    keys (insert k v es) = keys es ++ [k] := by
  induction es with
  | nil => simp [insert, keys]
  | cons e r ih =>
    obtain ⟨l, w⟩ := e
    simp only [keys, List.map_cons, List.mem_cons, not_or] at h
    have hl : l ≠ k := fun hl => h.1 hl.symm
    simpa [insert, keys, hl] using ih h.2

theorem nodup_insert {k : String} {v : α} {es : List (String × α)} (h : (keys es).Nodup) :
    (keys (insert k v es)).Nodup := by
  by_cases hk : k ∈ keys es
  · rw [keys_insert_of_mem hk]; exact h
  · rw [keys_insert_of_not_mem hk]
    exact List.nodup_append.2 ⟨h, by simp, by
      intro a ha b hb
      simp only [List.mem_singleton] at hb
      subst hb
      exact fun hab => hk (hab ▸ ha)⟩

theorem mem_keys_insert {k l : String} {v : α} {es : List (String × α)} :
    l ∈ keys (insert k v es) ↔ l = k ∨ l ∈ keys es := by
  by_cases hk : k ∈ keys es
  · rw [keys_insert_of_mem hk]
    exact ⟨.inr, fun h => h.elim (fun h => h ▸ hk) id⟩
  · rw [keys_insert_of_not_mem hk, List.mem_append, List.mem_singleton, or_comm]

theorem lookup_insert_self (k : String) (v : α) (es : List (String × α)) :
    (insert k v es).lookup k = some v := by
  induction es with
  | nil => simp [insert]
  | cons e r ih =>
    obtain ⟨l, w⟩ := e
    by_cases hl : l = k
    · simp [insert, hl]
    · have hb : (k == l) = false := by simpa using Ne.symm hl
      simp [insert, hl, List.lookup_cons, hb, ih]

theorem lookup_insert_of_ne {k j : String} (v : α) (es : List (String × α)) (h : j ≠ k) :
    (insert k v es).lookup j = es.lookup j := by
  have hjk : (j == k) = false := by simpa using h
  induction es with
  | nil => simp [insert, List.lookup_cons, hjk]
  | cons e r ih =>
    obtain ⟨l, w⟩ := e
    by_cases hl : l = k
    · subst hl
      simp [insert, List.lookup_cons, hjk]
    · simp [insert, hl, List.lookup_cons, ih]

theorem lookup_put_self (k : String) (v : α) (es : List (String × α)) :
    (put k v es).lookup k = some v := by
  induction es with
  | nil => simp [put]
  | cons e r ih =>
    obtain ⟨l, w⟩ := e
    by_cases hl : k = l
    · simp [put, hl]
    · by_cases hlt : k < l
      · simp [put, hl, hlt]
      · have hb : (k == l) = false := by simpa using hl
        simp [put, hl, hlt, List.lookup_cons, hb, ih]

theorem lookup_put_of_ne {k j : String} (v : α) (es : List (String × α)) (h : j ≠ k) :
    (put k v es).lookup j = es.lookup j := by
  have hjk : (j == k) = false := by simpa using h
  induction es with
  | nil => simp [put, List.lookup_cons, hjk]
  | cons e r ih =>
    obtain ⟨l, w⟩ := e
    by_cases hl : k = l
    · subst hl
      simp [put, List.lookup_cons, hjk]
    · by_cases hlt : k < l
      · simp [put, hl, hlt, List.lookup_cons, hjk]
      · simp [put, hl, hlt, List.lookup_cons, ih]

end Scaffold.Entries
