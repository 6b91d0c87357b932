import Mathlib.Data.List.Sort
import Scaffold.Proofs.Entries
import Scaffold.Proofs.Text.Split
import Scaffold.Store.Basic

/-!
# Names of templates

The name of a template is split into its tag and its mode again if the tag holds no slash
(`splitTemplateName?_templateName`). The file of a template is named for its mode, and its mode is
found in its name again (`modeOf?_eq_some`).
-/

namespace Scaffold

variable {tag mode name : String}

theorem mem_distinctSorted {x : String} {xs : List String} : x ∈ distinctSorted xs ↔ x ∈ xs := by
  have hfold : ∀ (acc : List (String × Unit)),
      x ∈ Entries.keys (xs.foldl (fun acc x => Entries.put x () acc) acc) ↔
        x ∈ xs ∨ x ∈ Entries.keys acc := by
    induction xs with
    | nil => simp
    | cons y ys ih =>
      intro acc
      rw [List.foldl_cons, ih, Entries.mem_keys_put, List.mem_cons, ← or_assoc, or_comm (a := x ∈ ys)]
  simpa [distinctSorted] using hfold []

theorem pairwise_distinctSorted (xs : List String) : (distinctSorted xs).Pairwise (· < ·) := by
  have hfold : ∀ acc : List (String × Unit), Entries.Increasing acc →
      Entries.Increasing (xs.foldl (fun acc x => Entries.put x () acc) acc) := by
    induction xs with
    | nil => exact fun _ h => h
    | cons x xs ih => exact fun acc h => ih _ (Entries.increasing_put x () h)
  exact hfold [] List.Pairwise.nil

/-- Lists with the same members give the same sorted list. -/
theorem distinctSorted_congr {xs ys : List String} (h : ∀ x, x ∈ xs ↔ x ∈ ys) :
    distinctSorted xs = distinctSorted ys :=
  (pairwise_distinctSorted xs).eq_of_mem_iff (pairwise_distinctSorted ys) fun x => by
    rw [mem_distinctSorted, mem_distinctSorted, h]

/-- The name of the file that holds the template for a mode. -/
def templateFile (mode : String) : String := mode ++ templateSuffix

theorem templateName_eq (tag mode : String) :
    templateName tag mode = tag ++ "/" ++ templateFile mode := by
  rw [templateName, templateFile, String.append_assoc]

theorem toList_templateName (tag mode : String) :
    (templateName tag mode).toList = tag.toList ++ '/' :: (templateFile mode).toList := by
  simp [templateName_eq]

namespace Text

theorem dropLead?_append (l cs : List Char) : dropLead? l (l ++ cs) = some cs := by
  induction l with
  | nil => rfl
  | cons c l ih => simp [dropLead?, ih]

theorem dropLead?_eq_some {l cs r : List Char} : dropLead? l cs = some r ↔ cs = l ++ r := by
  constructor
  · intro h
    induction l generalizing cs with
    | nil => simpa [dropLead?] using h
    | cons c l ih =>
      cases cs with
      | nil => simp [dropLead?] at h
      | cons d ds =>
        simp only [dropLead?] at h
        split at h
        next hc => rw [ih h, hc]; rfl
        · cases h
  · rintro rfl
    exact dropLead?_append l r

end Text

/-- **The name of a template tells its tag and its mode**, unless the tag holds a slash. -/
theorem splitTemplateName?_templateName (h : '/' ∉ tag.toList) (mode : String) :
    splitTemplateName? (templateName tag mode) = some (tag, mode) := by
  have hfile : (templateFile mode).toList.reverse =
      templateSuffix.toList.reverse ++ mode.toList.reverse := by simp [templateFile]
  rw [splitTemplateName?, toList_templateName, Text.splitOnce?_append h]
  simp [hfile, Text.dropLead?_append]

/-- Only the name of a template is split. -/
theorem eq_templateName_of_split {name tag mode : String}
    (h : splitTemplateName? name = some (tag, mode)) :
    name = templateName tag mode ∧ '/' ∉ tag.toList := by
  rw [splitTemplateName?] at h
  obtain ⟨⟨t, file⟩, hsplit, h⟩ := Option.bind_eq_some_iff.1 h
  obtain ⟨m, hdrop, h⟩ := Option.bind_eq_some_iff.1 h
  obtain ⟨rfl, rfl⟩ := Prod.mk.inj (Option.some.inj h)
  obtain ⟨hname, hslash⟩ := Text.splitOnce?_eq_some.1 hsplit
  have hfile : file = m.reverse ++ templateSuffix.toList := by
    have hreverse := congrArg List.reverse (Text.dropLead?_eq_some.1 hdrop)
    simpa using hreverse
  refine ⟨String.toList_injective ?_, by simpa using hslash⟩
  rw [hname, hfile]
  simp [templateName]

theorem templateFile_injective : Function.Injective templateFile := by
  intro a b h
  have hlist := congrArg String.toList h
  simp only [templateFile, String.toList_append] at hlist
  exact String.toList_injective (List.append_cancel_right hlist)

namespace DirectoryStore

/-- **The mode of a file** is its name without the suffix of templates. -/
theorem modeOf?_eq_some : modeOf? name = some mode ↔ name = templateFile mode ∧ mode ≠ "" := by
  have hreverse : (templateFile mode).toList.reverse =
      templateExtension.toList.reverse ++ '.' :: mode.toList.reverse := by
    simp [templateFile, templateSuffix]
  constructor
  · intro h
    rw [modeOf?, Path.splitName] at h
    cases hs : Text.splitOnce? '.' name.toList.reverse with
    | none => simp [hs] at h
    | some p =>
      obtain ⟨e, b⟩ := p
      obtain ⟨hname, -⟩ := Text.splitOnce?_eq_some.1 hs
      cases b with
      | nil => simp [hs] at h
      | cons c b =>
        simp only [hs, Option.ite_none_right_eq_some, Option.some.injEq] at h
        obtain ⟨he, rfl⟩ := h
        refine ⟨String.toList_injective (List.reverse_injective ?_), by simp⟩
        rw [hname, hreverse, ← he]
        simp
  · rintro ⟨rfl, hne⟩
    have hsplit := Text.splitOnce?_append (show '.' ∉ templateExtension.toList.reverse by decide)
      mode.toList.reverse
    obtain ⟨c, r, hr⟩ := List.exists_cons_of_ne_nil
      (mt List.reverse_eq_nil_iff.1 (mt String.toList_eq_nil_iff.1 hne))
    rw [modeOf?, Path.splitName, hreverse, hsplit, hr]
    simp [← hr]

end DirectoryStore

end Scaffold
