import Mathlib.Tactic.SplitIfs
import Scaffold.Text.Blank

/-!
# Splitting texts at a separator

`splitAll sep` and joining with `sep` between are inverse to each other on pieces without `sep`
(`splitAll_intercalate`). Splitting commutes with joining two texts by one separator
(`splitAll_append`), no piece holds the separator, and every other character stays in a piece
(`exists_mem_splitAll`). Splitting once takes what comes before the
first separator (`splitOnce?_eq_some`).
-/

namespace Scaffold.Text

variable {sep : Char} {cs : List Char}

theorem splitAll_ne_nil (sep : Char) (cs : List Char) : splitAll sep cs ≠ [] := by
  cases cs with
  | nil => simp [splitAll]
  | cons c r =>
    simp only [splitAll]
    split
    · simp
    · split <;> simp

theorem splitAll_of_not_mem (h : sep ∉ cs) : splitAll sep cs = [cs] := by
  induction cs with
  | nil => rfl
  | cons c r ih =>
    simp only [List.mem_cons, not_or] at h
    simp only [splitAll, if_neg (Ne.symm h.1), ih h.2]

theorem not_mem_of_mem_splitAll {piece : List Char} (h : piece ∈ splitAll sep cs) :
    sep ∉ piece := by
  induction cs generalizing piece with
  | nil => simp_all [splitAll]
  | cons c r ih =>
    simp only [splitAll] at h
    split at h
    · rcases List.mem_cons.1 h with rfl | h
      · simp
      · exact ih h
    next hc =>
      cases hr : splitAll sep r with
      | nil => exact absurd hr (splitAll_ne_nil sep r)
      | cons p ps =>
        rw [hr] at h ih
        rcases List.mem_cons.1 h with rfl | h
        · simp only [List.mem_cons, not_or]
          exact ⟨Ne.symm hc, ih (by simp)⟩
        · exact ih (by simp [h])

theorem length_splitAll_le (sep : Char) (cs : List Char) :
    (splitAll sep cs).length ≤ cs.length + 1 := by
  induction cs with
  | nil => simp [splitAll]
  | cons c r ih =>
    obtain ⟨p, ps, hp⟩ := List.exists_cons_of_ne_nil (splitAll_ne_nil sep r)
    rw [hp, List.length_cons] at ih
    rw [splitAll, hp]
    split <;> simp only [List.length_cons] <;> omega

/-- A character other than the separator is in one of the pieces. -/
theorem exists_mem_splitAll {c : Char} (hc : c ≠ sep) :
    (∃ p ∈ splitAll sep cs, c ∈ p) ↔ c ∈ cs := by
  induction cs with
  | nil => simp [splitAll]
  | cons d r ih =>
    obtain ⟨p, ps, hp⟩ := List.exists_cons_of_ne_nil (splitAll_ne_nil sep r)
    rw [hp] at ih
    simp only [List.mem_cons, exists_eq_or_imp] at ih
    rw [splitAll, hp]
    split
    next hd => simp [hd, hc, ih]
    next => simp only [List.mem_cons, exists_eq_or_imp, or_assoc, ih]

/-- **Splitting at a separator between two texts** gives the pieces of both. -/
theorem splitAll_append (a b : List Char) :
    splitAll sep (a ++ sep :: b) = splitAll sep a ++ splitAll sep b := by
  induction a with
  | nil => simp [splitAll]
  | cons c r ih =>
    simp only [List.cons_append, splitAll]
    split
    · rw [ih]; rfl
    · rw [ih]
      cases hr : splitAll sep r with
      | nil => exact absurd hr (splitAll_ne_nil sep r)
      | cons p ps => rfl

/-- **Joining pieces and splitting again** gives the pieces back. -/
theorem splitAll_intercalate {ps : List (List Char)} (hne : ps ≠ []) (h : ∀ p ∈ ps, sep ∉ p) :
    splitAll sep ([sep].intercalate ps) = ps := by
  induction ps with
  | nil => exact absurd rfl hne
  | cons p r ih =>
    have hp : sep ∉ p := h p (by simp)
    cases r with
    | nil => simpa using splitAll_of_not_mem hp
    | cons q qs =>
      have hr := ih (by simp) fun x hx => h x (by simp [hx])
      rw [List.intercalate_cons_cons, List.append_assoc, List.singleton_append, splitAll_append,
        splitAll_of_not_mem hp, hr]
      rfl

/-- **Splitting and joining the pieces again** gives the text back. -/
theorem intercalate_splitAll (sep : Char) (cs : List Char) :
    [sep].intercalate (splitAll sep cs) = cs := by
  induction cs with
  | nil => rfl
  | cons c r ih =>
    rw [splitAll]
    obtain ⟨p, ps, hp⟩ := List.exists_cons_of_ne_nil (splitAll_ne_nil sep r)
    rw [hp] at ih ⊢
    split
    next hc => rw [List.intercalate_cons_cons, ih, hc]; rfl
    · cases ps with
      | nil => simpa using ih
      | cons q qs =>
        rw [List.intercalate_cons_cons] at ih ⊢
        simp [← ih]

theorem splitOnce?_append {a : List Char} (h : sep ∉ a) (b : List Char) :
    splitOnce? sep (a ++ sep :: b) = some (a, b) := by
  induction a with
  | nil => simp [splitOnce?]
  | cons c r ih =>
    rw [List.mem_cons, not_or] at h
    rw [List.cons_append, splitOnce?, if_neg (Ne.symm h.1), ih h.2]
    rfl

/-- **Splitting once** is at the first separator. -/
theorem splitOnce?_eq_some {a b : List Char} :
    splitOnce? sep cs = some (a, b) ↔ cs = a ++ sep :: b ∧ sep ∉ a := by
  constructor
  · intro h
    induction cs generalizing a with
    | nil => simp [splitOnce?] at h
    | cons c r ih =>
      rw [splitOnce?] at h
      split_ifs at h with hc
      · obtain ⟨rfl, rfl⟩ := Prod.mk.inj (Option.some.inj h)
        simp [hc]
      · obtain ⟨⟨x, y⟩, hx, heq⟩ := Option.map_eq_some_iff.1 h
        obtain ⟨rfl, rfl⟩ := Prod.mk.inj heq
        obtain ⟨rfl, hn⟩ := ih hx
        simp [Ne.symm hc, hn]
  · rintro ⟨rfl, h⟩
    exact splitOnce?_append h b

end Scaffold.Text
