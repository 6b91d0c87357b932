import Scaffold.Proofs.Build.FinalState
import Scaffold.Proofs.Disk.Ordered

/-!
# Building again

A second build of the same specification comes to the same end as the first and leaves the disk as
it found it, if the first one succeeded or ended with a conflict. After a build that succeeded it
also takes back what has been written to files of the specification since (`build_again`). Builds
keep directories in order (`ordered_build`), so that disks which agree afterwards are equal.
-/

namespace Scaffold

open Build

namespace Disk

variable {d e : Disk} {p : Path}

/-- Paths are located alike on disks that agree. -/
theorem Agrees.locate (h : e.Agrees d) (p : Path) : e.locate p = d.locate p := by
  have ho : e.origin p = d.origin p := by rw [origin, origin, h.home]
  simp only [Disk.locate, ho, walk_congr h.view]

theorem Agrees.pathExists (h : e.Agrees d) (p : Path) : e.pathExists p = d.pathExists p := by
  rw [Bool.eq_iff_iff, pathExists_iff, pathExists_iff, h.locate]

theorem Agrees.isDirectory (h : e.Agrees d) (p : Path) : e.isDirectory p = d.isDirectory p := by
  rw [Bool.eq_iff_iff, isDirectory_iff, isDirectory_iff, h.locate, h.view]

theorem locate_of_toOption {l : Location} (h : (d.locate p).toOption = some l) :
    d.locate p = .ok l := by
  cases hl : d.locate p with
  | error f => rw [hl] at h; cases h
  | ok m => rw [hl] at h; exact congrArg Except.ok (Option.some.inj h)

end Disk

namespace Build

open Work (Preserves)

theorem ordered_makeDirectory (p : Path) : Preserves Disk.Ordered (Build.makeDirectory p) := by
  intro s hs
  rw [makeDirectory_apply]
  split
  · exact hs
  · exact Preserves.makeDirectories p (fun _ => Disk.ordered_makeDirectories p) s hs

theorem ordered_writeFile (p : Path) (content : String) :
    Preserves Disk.Ordered (Build.writeFile p content) := by
  intro s hs
  rw [writeFile_apply]
  split
  · exact hs
  · exact Preserves.writeFile p content (fun _ _ => Disk.ordered_writeFile) s hs

mutual

theorem ordered_makeEntry (base : Path) : (e : LayoutEntry) →
    Preserves Disk.Ordered (makeEntry base e)
  | .directory name children => by
    rw [makeEntry]
    refine (ordered_makeDirectory _).bind fun _ => (Preserves.notice _ _).bind fun _ => ?_
    exact (ordered_makeEntries _ children).bind fun _ => Preserves.pure _
  | .file name content => by
    rw [makeEntry]
    refine (ordered_writeFile _ content).bind fun _ => (Preserves.notice _ _).bind fun _ => ?_
    exact Preserves.pure _

theorem ordered_makeEntries (base : Path) : (es : List LayoutEntry) →
    Preserves Disk.Ordered (makeEntries base es)
  | [] => Preserves.pure _
  | e :: r => by
    rw [makeEntries]
    refine (ordered_makeEntry base e).bind fun _ => ?_
    exact (ordered_makeEntries base r).bind fun _ => Preserves.pure _

end

end Build

namespace Specification

/-- A build keeps directories in order, whatever its outcome. -/
theorem ordered_build (spec : Specification) (root : Path) :
    Work.Preserves Disk.Ordered (spec.build root) := by
  rw [build_eq]
  refine (Work.Preserves.ofExcept _).bind fun _ => (ordered_makeDirectory _).bind fun _ => ?_
  refine (ordered_makeEntries _ _).bind fun _ => (Work.Preserves.notice _ _).bind fun _ => ?_
  exact Work.Preserves.pure _

variable {spec : Specification} {root : Path} {place : Location} {s t u : Site}
variable {report : BuildReport} {p : Path} {reason : String} {i : LayoutItem}

/-- **The disk `e` is `d` with files of the specification edited**: they hold any other contents,
and all else is the same. -/
structure Edited (spec : Specification) (base : Path) (d e : Disk) : Prop where
  home : e.home = d.home
  view : ∀ l, e.view l = d.view l ∨
    (∃ i ∈ spec.items, i.content?.isSome ∧ d.locate (i.path base) = .ok l) ∧
      ∃ c, e.view l = some (.file c)

/-- Putting a file in the place of one that belongs to the specification is an edit. -/
theorem edited_put {base : Path} {d : Disk} {l : Location} {k : String} (c : Content)
    (hi : i ∈ spec.items) (hc : i.content?.isSome) (hloc : d.locate (i.path base) = .ok (l ++ [k]))
    (hl : d.view l = some .directory) (hk : d.view (l ++ [k]) ≠ some .directory) :
    spec.Edited base d (d.put (.file c) (l ++ [k])) := by
  refine ⟨Disk.home_put .., fun m => ?_⟩
  rw [Disk.view_put_file c hl hk]
  by_cases hm : m = l ++ [k]
  · subst hm
    exact .inr ⟨⟨i, hi, hc, hloc⟩, c, Function.update_self ..⟩
  · exact .inl (Function.update_of_ne hm ..)

/-- Where the base path is a directory already, a build goes on from there. -/
theorem ends_of_leads (hf : spec.fault? = none) (hc : Disk.check (spec.base root) = .ok ())
    (hl : t.disk.Leads (spec.base root) place) : spec.Ends root place t (spec.build root t) :=
  build_of_ok hf (makeDirectory_of_isDirectory (Disk.isDirectory_iff_leads.2 ⟨hc, place, hl⟩)) hl

/-- **A build after one that succeeded** gives the same report and restores what was edited. -/
theorem build_again_of_ok (h : (spec.build root s).1 = .ok report)
    (ht : spec.Edited (spec.base root) (spec.build root s).2.disk t.disk) :
    (spec.build root t).1 = .ok report ∧
      (spec.build root t).2.disk.Agrees (spec.build root s).2.disk := by
  obtain ⟨f, -, he⟩ | ⟨-, f, u, -, he⟩ | ⟨hf, place, u, hc, hl, -, he⟩ := build_cases spec root s
  · rw [he] at h; cases h
  · rw [he] at h; cases h
  have hresult := he.result
  have ho : (carryOut (spec.base root) place spec.items u.disk.view).2 = none := by
    rw [h] at hresult
    cases ho : (carryOut (spec.base root) place spec.items u.disk.view).2 with
    | none => rfl
    | some f => rw [ho] at hresult; cases hresult
  have hl' := hl.of_keeps he.home (he.view ▸ keeps_carryOut _ _)
  -- what was edited are places of items
  have hτ : Refilled place spec.items
      (carryOut (spec.base root) place spec.items u.disk.view).1 t.disk.view := by
    intro l
    rcases ht.view l with hv | ⟨⟨i, hi, hcont, hloc⟩, hfile⟩
    · exact .inl (hv.trans (congrFun he.view l))
    · rw [locate_of_mem_items hf hl' he.view ho hi, Except.ok.injEq] at hloc
      exact .inr ⟨⟨i, hi, hcont, hloc.symm⟩, hfile⟩
  have hagain := carryOut_again ho hτ
  have hkeeps : (spec.build root s).2.disk.view.Keeps t.disk.view := he.view ▸ Refilled.keeps ho hτ
  have hends := ends_of_leads hf hc (hl'.of_keeps ht.home hkeeps)
  refine ⟨?_, hends.home.trans ht.home, ?_⟩
  · rw [hends.result, hagain, ← h, hresult, ho]
  · rw [hends.view, hagain, he.view]

/-- **A build after one that ended with a conflict** ends with the same and changes nothing. -/
theorem build_again_of_conflict (h : (spec.build root s).1 = .error (.conflict p reason))
    (ht : t.disk.Agrees (spec.build root s).2.disk) :
    (spec.build root t).1 = .error (.conflict p reason) ∧
      (spec.build root t).2.disk.Agrees t.disk := by
  obtain ⟨f, -, he⟩ | ⟨hf, f, u, hm, he⟩ | ⟨hf, place, u, hc, hl, -, he⟩ := build_cases spec root s
  · rw [he] at h; cases h
  · -- what stood in the way of the base path still does
    rw [he] at h ht
    obtain rfl : f = .conflict p reason := Except.error.inj h
    obtain ⟨rfl, hp, hd⟩ := (makeDirectory_eq_error hm).2 p reason rfl
    have hmt := makeDirectory_of_conflict ((ht.pathExists _).trans hp) ((ht.isDirectory _).trans hd)
    rw [makeDirectory_of_conflict hp hd] at hm
    have hsame := Except.error.inj (congrArg Prod.fst hm)
    rw [build_of_error hf hmt]
    exact ⟨congrArg Except.error hsame, rfl, rfl⟩
  · -- the items before the refused one are in place already, and it is refused again
    have hresult := he.result
    cases ho : (carryOut (spec.base root) place spec.items u.disk.view).2 with
    | none => rw [h, ho] at hresult; cases hresult
    | some f =>
      rw [h, ho, Except.error.injEq] at hresult
      have hk : u.disk.view.Keeps t.disk.view := by
        rw [ht.view, he.view]; exact keeps_carryOut _ _
      have hends := ends_of_leads hf hc (hl.of_keeps (ht.home.trans he.home) hk)
      have hagain := carryOut_again_of_some ho
      rw [← he.view, ← ht.view] at hagain
      refine ⟨?_, hends.home, ?_⟩
      · rw [hends.result, hagain, hresult]
      · rw [hends.view, hagain]

/-- **Building again comes to the same.** After success the second build gives the same report and
restores the disk that the first one left, also if files of the specification have been edited in
between; after a conflict it ends with the same conflict and changes nothing. If directories were
in order, the disks are equal. -/
theorem build_again (spec : Specification) (root : Path) (s t : Site) :
    let first := spec.build root s
    let second := spec.build root t
    (∀ report, first.1 = .ok report → spec.Edited (spec.base root) first.2.disk t.disk →
      second.1 = .ok report ∧ second.2.disk.Agrees first.2.disk) ∧
    (∀ p reason, first.1 = .error (.conflict p reason) → t.disk.Agrees first.2.disk →
      second.1 = .error (.conflict p reason) ∧ second.2.disk.Agrees first.2.disk) ∧
    (s.disk.Ordered → t.disk.Ordered → second.2.disk.Agrees first.2.disk →
      second.2.disk = first.2.disk) := by
  refine ⟨fun report h ht => build_again_of_ok h ht, fun p reason h ht => ?_, fun hs ht h => ?_⟩
  · obtain ⟨hr, ha⟩ := build_again_of_conflict h ht
    exact ⟨hr, ha.trans ht⟩
  · exact h.eq (ordered_build spec root t ht) (ordered_build spec root s hs)

/-- The site after `merging` has been built there and a file of it has been edited. -/
def edited : Site :=
  .on ((merging.build ⟨"."⟩ occupied).2.disk.put (.file (.text "edited"))
    (["work", "out", "demo", "src"] ++ ["a"]))

theorem build_edited : ∃ report, (merging.build ⟨"."⟩ occupied).1 = .ok report ∧
    (merging.build ⟨"."⟩ edited).1 = .ok report ∧
    (merging.build ⟨"."⟩ edited).2.disk.Agrees (merging.build ⟨"."⟩ occupied).2.disk := by
  have hok : (merging.build ⟨"."⟩ occupied).1.isOk = true := by decide +kernel
  cases h : (merging.build ⟨"."⟩ occupied).1 with
  | error f => rw [h] at hok; cases hok
  | ok report =>
    have hedit : merging.Edited (merging.base ⟨"."⟩) (merging.build ⟨"."⟩ occupied).2.disk
        edited.disk :=
      edited_put (i := ⟨["src"], "a", some "second"⟩) (.text "edited") (by decide +kernel) rfl
        (Disk.locate_of_toOption (by decide +kernel)) (by decide +kernel) (by decide +kernel)
    exact ⟨report, rfl, (build_again merging ⟨"."⟩ occupied edited).1 report h hedit⟩

end Specification

end Scaffold
