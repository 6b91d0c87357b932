import Scaffold.Proofs.Build.FinalState
import Scaffold.Proofs.Build.Siblings
import Scaffold.Proofs.Disk.Reach

/-!
# The report of a build

The items of a layout are its entries in pre-order, each at the depth of the directories that lead
to it (`rows_eq_items`). A build that succeeds reports one step for each of them in this order; its
directories and its files are the two parts of the steps, and what it reports is there in the end
(`build_report`).
-/

namespace Scaffold

open Build

namespace LayoutEntry

/-- What a file is to hold; a directory holds no text. -/
def content? : LayoutEntry → Option String
  | directory _ _ => none
  | file _ c => some c

/-- An entry at its depth, without what lies below it. -/
def label (r : Nat × LayoutEntry) : Nat × String × Option String := (r.1, r.2.name, r.2.content?)

end LayoutEntry

/-- An item at the depth of the names that lead to it. -/
def LayoutItem.label (i : LayoutItem) : Nat × String × Option String :=
  (i.lead.length, i.name, i.content?)

namespace LayoutEntry

mutual

theorem rows_eq_items (lead : List String) : (e : LayoutEntry) →
    (e.items lead).map LayoutItem.label = (e.rows lead.length).map label
  | directory name children => by
    have hbelow := rowsOfList_eq_items (lead ++ [name]) children
    rw [List.length_append, List.length_singleton] at hbelow
    rw [items, rows, List.map_cons, List.map_cons, hbelow]
    rfl
  | file name content => by
    rw [items, rows]
    rfl

/-- **The items are the entries in pre-order**, at the same depths. -/
theorem rowsOfList_eq_items (lead : List String) : (es : List LayoutEntry) →
    (itemsOfList lead es).map LayoutItem.label = (rowsOfList lead.length es).map label
  | [] => rfl
  | e :: r => by
    have hfirst := rows_eq_items lead e
    have hrest := rowsOfList_eq_items lead r
    rw [itemsOfList, rowsOfList, List.map_append, List.map_append, hfirst, hrest]

end

end LayoutEntry

namespace BuildReport

/-- The paths of one kind among the steps of items. -/
theorem paths_of_steps {base : Path} {items : List LayoutItem} {r : BuildReport}
    (h : r.steps = items.map (LayoutItem.step base)) (k : StepKind) :
    r.paths k = (items.filter fun i => (i.step base).kind == k).map (LayoutItem.path base) := by
  unfold paths
  rw [h, List.filter_map, List.map_map]
  rfl

/-- **Directories and files are all that a report lists**, and no step is in both. -/
theorem perm_paths (r : BuildReport) : (r.directories ++ r.files).Perm (r.steps.map (·.path)) := by
  have hfiles : r.files = (r.steps.filter fun s => !(s.kind == .directory)).map (·.path) := by
    have hkind : ∀ s ∈ r.steps, (s.kind == .file) = !(s.kind == .directory) := by
      intro s _
      cases s.kind <;> rfl
    unfold files paths
    rw [List.filter_congr hkind]
  rw [hfiles, directories, paths, ← List.map_append]
  exact (List.filter_append_perm _ _).map _

end BuildReport

theorem LayoutItem.kind_step (base : Path) (i : LayoutItem) :
    (i.step base).kind = if i.content? = none then .directory else .file := by
  rw [step, isDirectory_wanted]
  cases i.content? <;> rfl

namespace BuildReport

variable {base : Path} {items : List LayoutItem} {r : BuildReport}

/-- The directories among the steps are those of the items without a content. -/
theorem directories_of_steps (h : r.steps = items.map (LayoutItem.step base)) :
    r.directories = (items.filter (·.content? = none)).map (·.path base) := by
  have hkind : ∀ i ∈ items,
      ((i.step base).kind == StepKind.directory) = decide (i.content? = none) := by
    intro i _
    rw [LayoutItem.kind_step]
    split_ifs with hc <;> simp [hc]
  rw [directories, paths_of_steps h, List.filter_congr hkind]

theorem files_of_steps (h : r.steps = items.map (LayoutItem.step base)) :
    r.files = (items.filter (·.content? ≠ none)).map (·.path base) := by
  have hkind : ∀ i ∈ items,
      ((i.step base).kind == StepKind.file) = decide (i.content? ≠ none) := by
    intro i _
    rw [LayoutItem.kind_step]
    split_ifs with hc <;> simp [hc]
  rw [files, paths_of_steps h, List.filter_congr hkind]

end BuildReport

namespace Specification

variable {spec : Specification} {root : Path} {place : Location} {s : Site} {report : BuildReport}

/-- What has been put in the place of an item is of the item's kind in the end. -/
theorem isDirectory_or_isFile_of_mem {d : Disk} {σ : View} {i : LayoutItem}
    (hf : spec.fault? = none) (hd : d.Leads (spec.base root) place)
    (hv : d.view = (carryOut (spec.base root) place spec.items σ).1)
    (ho : (carryOut (spec.base root) place spec.items σ).2 = none) (hi : i ∈ spec.items) :
    if i.content? = none then d.isDirectory (i.path (spec.base root)) = true
      else d.isFile (i.path (spec.base root)) = true := by
  have hloc := locate_of_mem_items hf hd hv ho hi
  obtain ⟨-, st, hst, hkind⟩ := carryOut_mem ho hi
  rw [← hv] at hst
  rw [LayoutItem.isDirectory_wanted] at hkind
  split_ifs with hc
  · rw [hc] at hkind
    obtain rfl := Standing.eq_directory hkind
    exact Disk.isDirectory_iff.2 ⟨_, hloc, hst⟩
  · cases st with
    | directory =>
      have hnone : i.content?.isNone = true := hkind.symm
      exact absurd (Option.isNone_iff_eq_none.1 hnone) hc
    | file c => exact Disk.isFile_iff.2 ⟨_, c, hloc, hst⟩

/-- **The report of a build is the pre-order of its specification, and it is true.** There is one
step for each entry, of its kind and at the base path with the names on the way to the entry; the
directories and the files are its two parts; and each of them is there in the end. -/
theorem build_report (h : (spec.build root s).1 = .ok report) :
    let base := spec.base root
    let after := (spec.build root s).2.disk
    report.basePath = base ∧
    report.steps = spec.items.map (fun i =>
      ⟨if i.content? = none then .directory else .file, base.joinNames (i.lead ++ [i.name])⟩) ∧
    spec.items.map LayoutItem.label = spec.rows.map LayoutEntry.label ∧
    report.directories.Sublist (report.steps.map (·.path)) ∧
    report.files.Sublist (report.steps.map (·.path)) ∧
    (report.directories ++ report.files).Perm (report.steps.map (·.path)) ∧
    report.directories = (spec.items.filter (·.content? = none)).map (·.path base) ∧
    report.files = (spec.items.filter (·.content? ≠ none)).map (·.path base) ∧
    (∀ p ∈ report.directories, after.isDirectory p = true) ∧
    ∀ p ∈ report.files, after.isFile p = true := by
  intro base after
  obtain ⟨hf, t, place, -, hl, ho, hends⟩ := build_eq_ok h
  have hreport : report = ⟨base, spec.items.map (LayoutItem.step base)⟩ := by
    have hr := hends.result
    rw [h, ho] at hr
    exact Except.ok.inj hr
  have hsteps : report.steps = spec.items.map (LayoutItem.step base) := by rw [hreport]
  have hdirectories := BuildReport.directories_of_steps hsteps
  have hfiles := BuildReport.files_of_steps hsteps
  -- nothing that is done later turns what has been made into something else
  have hv : after.view = (carryOut base place spec.items t.disk.view).1 := hends.view
  have hl' : after.Leads base place := hl.of_keeps hends.home (hv ▸ keeps_carryOut _ _)
  have hthere := fun i (hi : i ∈ spec.items) => isDirectory_or_isFile_of_mem hf hl' hv ho hi
  refine ⟨by rw [hreport], ?_, LayoutEntry.rowsOfList_eq_items [] spec.entries,
    List.filter_sublist.map _, List.filter_sublist.map _, report.perm_paths, hdirectories, hfiles,
    ?_, ?_⟩
  · rw [hsteps]
    refine List.map_congr_left fun i _ => ?_
    rw [← LayoutItem.kind_step base]
    rfl
  · intro p hp
    rw [hdirectories] at hp
    obtain ⟨i, hi, rfl⟩ := List.mem_map.1 hp
    obtain ⟨hi, hc⟩ := List.mem_filter.1 hi
    have hkind := hthere i hi
    rwa [if_pos (of_decide_eq_true hc)] at hkind
  · intro p hp
    rw [hfiles] at hp
    obtain ⟨i, hi, rfl⟩ := List.mem_map.1 hp
    obtain ⟨hi, hc⟩ := List.mem_filter.1 hi
    have hkind := hthere i hi
    rwa [if_neg (of_decide_eq_true hc)] at hkind

/-- The report of two directories of one name, with a file below each of them. -/
theorem build_report_merging : ∃ report, (merging.build ⟨"."⟩ occupied).1 = .ok report ∧
    report.directories = [⟨"./out/demo/src"⟩, ⟨"./out/demo/src"⟩] ∧
    report.files = [⟨"./out/demo/src/a"⟩, ⟨"./out/demo/src/a"⟩] ∧
    (merging.build ⟨"."⟩ occupied).2.disk.isFile ⟨"./out/demo/src/a"⟩ = true := by
  have hok : (merging.build ⟨"."⟩ occupied).1.isOk = true := by decide +kernel
  obtain ⟨report, h⟩ := exists_of_isOk hok
  obtain ⟨-, -, -, -, -, -, hdirectories, hfiles, -, hthere⟩ := build_report h
  have hd : (merging.items.filter (·.content? = none)).map (·.path (merging.base ⟨"."⟩)) =
      [⟨"./out/demo/src"⟩, ⟨"./out/demo/src"⟩] := by decide +kernel
  have hf : (merging.items.filter (·.content? ≠ none)).map (·.path (merging.base ⟨"."⟩)) =
      [⟨"./out/demo/src/a"⟩, ⟨"./out/demo/src/a"⟩] := by decide +kernel
  rw [hd] at hdirectories
  rw [hf] at hfiles
  exact ⟨report, h, hdirectories, hfiles, hthere _ (by rw [hfiles]; simp)⟩

end Specification

end Scaffold
