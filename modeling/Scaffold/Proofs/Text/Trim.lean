import Mathlib.Data.List.DropRight
import Mathlib.Data.String.Basic
import Scaffold.Text.Blank

/-!
# Trimmed texts

Trimming leaves nothing exactly of blank texts (`trimmed?_eq_none_iff`), and a trimmed text is not
changed by trimming it again (`trim_of_trimmed?`). Blanks that are added around a text make no
difference to what trimming leaves (`trim_padded`).
-/

namespace Scaffold.Text

variable {s t : String}

theorem stripWhile_eq_nil_iff {p : Char → Bool} {cs : List Char} :
    stripWhile p cs = [] ↔ ∀ c ∈ cs, p c = true := by
  rw [stripWhile, dropEndWhile, List.reverse_eq_nil_iff, List.dropWhile_eq_nil_iff]
  constructor
  · intro h
    -- what is dropped at the end has not been dropped at the start
    have hnil : cs.dropWhile p = [] := by
      by_contra hne
      have hhead := List.head_dropWhile_not p hne
      rw [h _ (by simp)] at hhead
      cases hhead
    exact List.dropWhile_eq_nil_iff.1 hnil
  · intro h c hc
    exact h c ((List.dropWhile_sublist p).subset (by simpa using hc))

/-- Dropping at both ends twice changes nothing more. -/
theorem stripWhile_idem (p : Char → Bool) (cs : List Char) :
    stripWhile p (stripWhile p cs) = stripWhile p cs := by
  have hkeep : (stripWhile p cs).dropWhile p = stripWhile p cs := by
    have hlead : stripWhile p cs <+: cs.dropWhile p := List.rdropWhile_prefix p _
    cases h : stripWhile p cs with
    | nil => rfl
    | cons c r =>
      -- the first character that is left stands also first after dropping at the start
      rw [h] at hlead
      obtain ⟨d, hd⟩ := hlead
      have hc : p c = false := by
        have hhead := List.head_dropWhile_not p (l := cs) (by rw [← hd]; simp)
        simpa [← hd] using hhead
      rw [List.dropWhile_cons_of_neg (by simp [hc])]
  rw [stripWhile, hkeep, stripWhile, dropEndWhile_idem]

/-- What is dropped anyway may stand around a text. -/
theorem stripWhile_padded {p : Char → Bool} {lead trail : List Char} (cs : List Char)
    (hlead : ∀ c ∈ lead, p c = true) (htrail : ∀ c ∈ trail, p c = true) :
    stripWhile p (lead ++ (cs ++ trail)) = stripWhile p cs := by
  have hend : ∀ ds, dropEndWhile p (ds ++ trail) = dropEndWhile p ds := by
    intro ds
    rw [dropEndWhile, dropEndWhile, List.reverse_append,
      List.dropWhile_append_of_pos (by simpa using htrail)]
  rw [stripWhile, stripWhile, List.dropWhile_append_of_pos hlead, List.dropWhile_append]
  split_ifs with hempty
  · rw [List.isEmpty_iff.1 hempty, List.dropWhile_eq_nil_iff.2 htrail]
  · exact hend _

theorem trim_padded {lead trail : String} (s : String) (hlead : isBlankText lead = true)
    (htrail : isBlankText trail = true) : trim (lead ++ (s ++ trail)) = trim s := by
  rw [trim, trim, String.toList_append, String.toList_append,
    stripWhile_padded _ (List.all_eq_true.1 hlead) (List.all_eq_true.1 htrail)]

theorem trim_eq_empty_iff : trim s = "" ↔ isBlankText s = true := by
  rw [trim, isBlankText, List.all_eq_true, ← stripWhile_eq_nil_iff, ← String.toList_inj]
  simp

theorem trimmed?_eq_none_iff : trimmed? s = none ↔ isBlankText s = true := by
  rw [trimmed?, ← trim_eq_empty_iff]
  simp

/-- **What trimming leaves is trimmed.** -/
theorem trim_of_trimmed? (h : trimmed? s = some t) : t ≠ "" ∧ trim t = t := by
  rw [trimmed?] at h
  split_ifs at h with hne
  obtain rfl := Option.some.inj h
  refine ⟨hne, ?_⟩
  rw [trim, trim, String.toList_ofList, stripWhile_idem]

end Scaffold.Text
