import Scaffold.Proofs.Build.Blocked

/-!
# The first fault of a specification

The check of a specification stops at the first item, in pre-order, whose name is not plain
(`faultOfList?_eq_find?`). The directories that lead to this item come before it, so their names are
plain, and the path that the fault names is written with slashes between the name of the project and
theirs (`plainNames_of_first`). So a specification passes exactly if all of its names are plain and
it has an output directory, and otherwise its first fault is reported (`validate_exact`).
-/

namespace Scaffold

variable {before after : List LayoutItem} {i : LayoutItem}

namespace LayoutItem

/-- The fault of an item whose name is not plain. -/
def fault (base : Path) (i : LayoutItem) : LayoutFault := .entryName i.name (base.joinNames i.lead)

/-- Where items rest on those before them, which have plain names, the directories that lead to the
next item have plain names. -/
theorem plainNames_of_first (hrest : Rest [] (before ++ i :: after))
    (hplain : ∀ j ∈ before, PlainName j.name) : ∀ n ∈ i.lead, PlainName n := by
  -- by induction on the number of names, since a directory comes before what stands in it
  suffices h : ∀ k, ∀ before i after, Rest [] (before ++ i :: after) →
      (∀ j ∈ before, PlainName j.name) → i.lead.length ≤ k → ∀ n ∈ i.lead, PlainName n from
    h _ before i after hrest hplain (Nat.le_refl _)
  intro k
  induction k with
  | zero =>
    intro before i after _ _ hk n hn
    rw [List.length_eq_zero_iff.1 (Nat.le_zero.1 hk)] at hn
    cases hn
  | succ k ih =>
    intro before i after hrest hplain hk n hn
    have hi : i.RestsOn before := by
      have hlater := (rest_append.1 hrest).2
      rw [List.nil_append] at hlater
      exact hlater.1
    rcases hi with hlead | ⟨j, hj, -, hlead⟩
    · rw [hlead] at hn
      cases hn
    · rw [← hlead, names, List.mem_append, List.mem_singleton] at hn
      have hlen : i.lead.length = j.lead.length + 1 := by simp [← hlead, names]
      rcases hn with hn | rfl
      · obtain ⟨first, rest, rfl⟩ := List.append_of_mem hj
        have hfirst : ∀ x ∈ first, PlainName x.name := by
          intro x hx
          exact hplain x (by simp [hx])
        rw [List.append_assoc, List.cons_append] at hrest
        exact ih first j _ hrest hfirst (by omega) n hn
      · exact hplain j hj

end LayoutItem

namespace LayoutEntry

mutual

/-- **The check of an entry finds the first of its items** whose name is not plain. -/
theorem fault?_eq_find? (base : Path) (lead : List String) : (e : LayoutEntry) →
    e.fault? (base.joinNames lead) =
      ((e.items lead).find? fun i => !isPlainSegment i.name).map (LayoutItem.fault base)
  | directory name children => by
    have hchildren := faultOfList?_eq_find? base (lead ++ [name]) children
    rw [Path.joinNames_append, Path.joinNames_singleton] at hchildren
    rw [fault?, items]
    cases hname : isPlainSegment name with
    | true =>
      rw [if_pos rfl, List.find?_cons_of_neg (by simp [hname])]
      exact hchildren
    | false =>
      rw [if_neg (by simp), List.find?_cons_of_pos (by simp [hname])]
      rfl
  | file name content => by
    rw [fault?, items]
    cases hname : isPlainSegment name with
    | true =>
      rw [if_pos rfl, List.find?_cons_of_neg (by simp [hname])]
      rfl
    | false =>
      rw [if_neg (by simp), List.find?_cons_of_pos (by simp [hname])]
      rfl

theorem faultOfList?_eq_find? (base : Path) (lead : List String) : (es : List LayoutEntry) →
    faultOfList? (base.joinNames lead) es =
      ((itemsOfList lead es).find? fun i => !isPlainSegment i.name).map (LayoutItem.fault base)
  | [] => rfl
  | e :: r => by
    rw [faultOfList?, itemsOfList, List.find?_append, fault?_eq_find? base lead e,
      faultOfList?_eq_find? base lead r, Option.map_or]

end

end LayoutEntry

namespace Specification

variable {s : Specification} {f : Failure} {detail : String}

/-- **The first fault of a specification**, and how it is reported: that of its project comes before
that of its output directory, and both before those of its items in pre-order. The directories that
lead to an item are named from the project on. -/
inductive FirstFault (s : Specification) : String → Prop
  | project : ¬ PlainName s.projectName →
      FirstFault s ("project_name '" ++ s.projectName ++ "' is not a single path segment")
  | output : PlainName s.projectName → s.outputDir.text = "" → FirstFault s "output_dir is empty"
  | item {before after : List LayoutItem} {i : LayoutItem} :
      PlainName s.projectName → s.outputDir.text ≠ "" → s.items = before ++ i :: after →
      (∀ j ∈ before, PlainName j.name) → ¬ PlainName i.name →
      FirstFault s ("entry name '" ++ i.name ++ "' under '" ++
        "/".intercalate (s.projectName :: i.lead) ++ "' is not a single path segment")

/-- What is found among the items is the first of them that is not plain. -/
theorem find?_items_eq_some : (s.items.find? fun i => !isPlainSegment i.name) = some i ↔
    ∃ before after, s.items = before ++ i :: after ∧ (∀ j ∈ before, PlainName j.name) ∧
      ¬ PlainName i.name := by
  rw [List.find?_eq_some_iff_append]
  simp only [Bool.not_eq_true', Bool.not_not, ← Bool.not_eq_true, isPlainSegment_iff]
  constructor
  · rintro ⟨hi, before, after, hitems, hbefore⟩
    exact ⟨before, after, hitems, by simpa [isPlainSegment_iff] using hbefore, hi⟩
  · rintro ⟨before, after, hitems, hbefore, hi⟩
    exact ⟨hi, before, after, hitems, by simpa [isPlainSegment_iff] using hbefore⟩

/-- The message for an item names the project and the directories that lead to it. -/
theorem message_fault (hname : PlainName s.projectName) (hitems : s.items = before ++ i :: after)
    (hbefore : ∀ j ∈ before, PlainName j.name) : (i.fault ⟨s.projectName⟩).message =
      "entry name '" ++ i.name ++ "' under '" ++ "/".intercalate (s.projectName :: i.lead) ++
        "' is not a single path segment" := by
  have hrest : LayoutItem.Rest [] s.items :=
    LayoutEntry.rest_itemsOfList [] [] (.inl rfl) s.entries
  rw [hitems] at hrest
  have hlead := LayoutItem.plainNames_of_first hrest hbefore
  rw [LayoutItem.fault, LayoutFault.message, Path.joinNames_eq_intercalate hname hlead]

/-- The three things that are checked, one after the other. -/
theorem fault?_eq : s.fault? =
    if ¬ PlainName s.projectName then some (.projectName s.projectName)
    else if s.outputDir.text = "" then some .emptyOutput
    else (s.items.find? fun i => !isPlainSegment i.name).map
      (LayoutItem.fault ⟨s.projectName⟩) := by
  have hitems := LayoutEntry.faultOfList?_eq_find? ⟨s.projectName⟩ [] s.entries
  rw [Path.joinNames_nil] at hitems
  rw [fault?, hitems, items]
  by_cases hname : PlainName s.projectName
  · simp [hname, isPlainSegment_iff.2 hname]
  · simp [hname, Bool.eq_false_iff.2 (mt isPlainSegment_iff.1 hname)]

theorem validate_eq_error : s.validate = .error f ↔
    ∃ fault, s.fault? = some fault ∧ f = .specification fault.message := by
  rw [validate]
  cases s.fault? with
  | none => simp
  | some g => simp [eq_comm]

theorem exists_fault?_of_firstFault (h : s.FirstFault detail) :
    ∃ fault, s.fault? = some fault ∧ fault.message = detail := by
  rw [fault?_eq]
  cases h with
  | project hname =>
    rw [if_pos hname]
    exact ⟨_, rfl, rfl⟩
  | output hname hdir =>
    rw [if_neg (not_not.2 hname), if_pos hdir]
    exact ⟨_, rfl, rfl⟩
  | item hname hdir hitems hbefore hi =>
    rw [if_neg (not_not.2 hname), if_neg hdir,
      find?_items_eq_some.2 ⟨_, _, hitems, hbefore, hi⟩]
    exact ⟨_, rfl, message_fault hname hitems hbefore⟩

theorem firstFault_of_fault? {fault : LayoutFault} (h : s.fault? = some fault) :
    s.FirstFault fault.message := by
  rw [fault?_eq] at h
  by_cases hname : PlainName s.projectName
  · rw [if_neg (not_not.2 hname)] at h
    by_cases hdir : s.outputDir.text = ""
    · rw [if_pos hdir] at h
      obtain rfl := Option.some.inj h
      exact .output hname hdir
    · rw [if_neg hdir] at h
      obtain ⟨i, hfind, rfl⟩ := Option.map_eq_some_iff.1 h
      obtain ⟨before, after, hitems, hbefore, hi⟩ := find?_items_eq_some.1 hfind
      rw [message_fault hname hitems hbefore]
      exact .item hname hdir hitems hbefore hi
  · rw [if_pos hname] at h
    obtain rfl := Option.some.inj h
    exact .project hname

/-- **The check of a specification is exact, and reports the first fault.** -/
theorem validate_exact (s : Specification) :
    (s.validate = .ok () ↔
      PlainName s.projectName ∧ s.outputDir.text ≠ "" ∧ ∀ i ∈ s.items, PlainName i.name) ∧
    ∀ f, s.validate = .error f ↔ ∃ detail, f = .specification detail ∧ s.FirstFault detail := by
  constructor
  · have hok : s.validate = .ok () ↔ s.fault? = none := by
      rw [validate]
      cases s.fault? <;> simp
    rw [hok, fault?_eq_none]
  · intro f
    rw [validate_eq_error]
    constructor
    · rintro ⟨fault, hfault, rfl⟩
      exact ⟨_, rfl, firstFault_of_fault? hfault⟩
    · rintro ⟨detail, rfl, hfirst⟩
      obtain ⟨fault, hfault, hmessage⟩ := exists_fault?_of_firstFault hfirst
      exact ⟨fault, hfault, by rw [hmessage]⟩

/-- The file is reported that comes first in pre-order, with the directories that it stands in. -/
example : (Specification.mk "demo" ⟨"out"⟩ [.directory "src" [.directory "a" [.file ".." ""]],
    .file "x/y" ""]).fault?.map LayoutFault.message =
      some "entry name '..' under 'demo/src/a' is not a single path segment" := by
  decide +kernel

end Specification

end Scaffold
