import Scaffold.Proofs.Build.Confinement
import Scaffold.Proofs.Build.FinalState
import Scaffold.Proofs.Disk.Below
import Scaffold.Proofs.Specification.FirstFault

/-!
# Files in the way of directories

A file in the place of the base path, or of a directory of the layout, is a conflict at its path.
A file further up is not seen as one: nothing below it exists, so that making the base path fails
instead, at the base path (`build_below_file`). What a file in the way of any directory comes to is
`build_obstructed`.
-/

namespace Scaffold

namespace Disk

variable {d : Disk} {p : Path} {k l : Location} {c : Content} {ps qs : List (List Char)}

/-- Nothing lies below a file. -/
theorem walk_below_file (h : d.walk k ps = .ok l) (hfile : d.view l = some (.file c))
    (hne : qs ≠ []) : d.walk k (ps ++ qs) = .error .notDirectory := by
  obtain ⟨q, r, rfl⟩ := List.exists_cons_of_ne_nil hne
  rw [walk_append_of_ok h, walk_cons, step_eq, hfile]
  rfl

/-- **A path that leads through a file.** -/
structure PassesFile (d : Disk) (p : Path) (ps qs : List (List Char)) : Prop where
  names : ps ++ qs = p.names
  below : qs ≠ []
  file : ∃ l c, d.walk (d.origin p) ps = .ok l ∧ d.view l = some (.file c)

/-- The pieces of such a path lead nowhere. -/
theorem PassesFile.walk (h : PassesFile d p ps qs) :
    d.walk (d.origin p) p.names = .error .notDirectory := by
  obtain ⟨l, c, hl, hfile⟩ := h.file
  rw [← h.names]
  exact walk_below_file hl hfile h.below

theorem PassesFile.not_exists (h : PassesFile d p ps qs) : d.pathExists p = false := by
  rw [Bool.eq_false_iff, ne_eq, pathExists_iff]
  rintro ⟨l, hl⟩
  have hwalk := walk_names_of_followed (locate_eq_ok.1 hl).2
  rw [h.walk] at hwalk
  cases hwalk

theorem PassesFile.not_isDirectory (h : PassesFile d p ps qs) : d.isDirectory p = false := by
  rw [Bool.eq_false_iff, ne_eq, isDirectory_iff_leads]
  rintro ⟨-, l, hl⟩
  have hwalk := hl.reached
  rw [h.walk] at hwalk
  cases hwalk

/-- The directory that a path through a file is to stand in is the file, or is not found. -/
theorem PassesFile.makeDirectory (h : PassesFile d p ps qs) (hc : check p = .ok ()) :
    d.makeDirectory p = .error .notDirectory := by
  obtain ⟨l, c, hl, hfile⟩ := h.file
  obtain ⟨last, hlast⟩ : ∃ last, qs = qs.dropLast ++ [last] :=
    ⟨qs.getLast h.below, (List.dropLast_concat_getLast h.below).symm⟩
  have hnames : p.names.reverse = last :: (ps ++ qs.dropLast).reverse := by
    rw [← h.names, hlast, ← List.append_assoc, List.reverse_append, List.dropLast_concat]
    rfl
  rw [Disk.makeDirectory, locateParent, hc]
  simp only [hnames, List.reverse_reverse, bind, Except.bind]
  by_cases hrest : qs.dropLast = []
  · rw [hrest, List.append_nil, hl]
    simp only [step_eq, hfile]
  · rw [walk_below_file hl hfile hrest]

/-- A path that cannot be looked up is the fault of making it. -/
theorem makeDirectory_of_check {f : IoFault} (hc : check p = .error f) :
    d.makeDirectory p = .error f := by
  rw [Disk.makeDirectory, locateParent, hc]
  rfl

theorem check_ne_notFound (hp : p.text ≠ "") : check p ≠ .error .notFound := by
  rw [check]
  split_ifs <;> simp

/-- **Nothing is made of a path through a file**, and the fault is not that something is missing. -/
theorem PassesFile.makeDirectories (h : PassesFile d p ps qs) (hp : p.text ≠ "") :
    ∃ f, d.makeDirectories p = (d, some f) ∧ (check p = .ok () → f = .notDirectory) := by
  obtain ⟨r, hr⟩ := Path.ancestors_eq_cons p
  have hdir : ¬ d.isDirectory p = true := by rw [h.not_isDirectory]; exact Bool.false_ne_true
  obtain ⟨f, hf, hne, hcheck⟩ : ∃ f, d.makeDirectory p = .error f ∧ f ≠ .notFound ∧
      (check p = .ok () → f = .notDirectory) := by
    cases hc : check p with
    | ok u => exact ⟨_, h.makeDirectory hc, by simp, fun _ => rfl⟩
    | error f =>
      refine ⟨f, makeDirectory_of_check hc, ?_, fun hok => by cases hok⟩
      rintro rfl
      exact check_ne_notFound hp hc
  refine ⟨f, ?_, hcheck⟩
  rw [Disk.makeDirectories, hr, makeChain.eq_def]
  simp only [if_neg hp, hf]
  cases f with
  | notFound => exact absurd rfl hne
  | _ => simp only [if_neg hdir]

end Disk

namespace Specification

open Build

variable {spec : Specification} {root : Path} {place : Location} {s : Site} {i : LayoutItem}
variable {ps qs : List (List Char)}

/-- **A file above the base path is no conflict.** The build fails at the base path, as if it could
not be made for any other reason, and leaves everything as it was. -/
theorem build_below_file (hf : spec.fault? = none)
    (hfile : s.disk.PassesFile (spec.base root) ps qs) :
    ∃ g, spec.build root s = (.error (.ioFailure (spec.base root) g), s) ∧
      (Disk.check (spec.base root) = .ok () → g = .notDirectory) := by
  obtain ⟨g, hmake, hg⟩ := hfile.makeDirectories (base_text_ne_empty hf)
  refine ⟨g, build_of_error hf ?_, hg⟩
  rw [makeDirectory_apply, hfile.not_exists, Work.makeDirectories_apply, hmake]
  rfl

/-- A file in the place of the base path itself is found. -/
theorem build_at_file (hf : spec.fault? = none) (hfile : s.disk.isFile (spec.base root) = true) :
    spec.build root s = (.error (.conflict (spec.base root) (conflictReason .directory)), s) := by
  obtain ⟨l, c, hl, hv⟩ := Disk.isFile_iff.1 hfile
  refine build_of_error hf (makeDirectory_of_conflict (Disk.pathExists_iff.2 ⟨l, hl⟩) ?_)
  rw [Bool.eq_false_iff, ne_eq, Disk.isDirectory_iff]
  rintro ⟨m, hm, hd⟩
  rw [hl, Except.ok.injEq] at hm
  rw [← hm, hv] at hd
  cases hd

/-- All names on the way to an item are plain. -/
theorem plainNames_of_mem (hf : spec.fault? = none) (hi : i ∈ spec.items) :
    ∀ n ∈ i.names, PlainName n := by
  have hplain := (fault?_eq_none.1 hf).2.2
  obtain ⟨before, after, hitems⟩ := List.append_of_mem hi
  have hrest : LayoutItem.Rest [] (before ++ i :: after) := by
    rw [← hitems]
    exact LayoutEntry.rest_itemsOfList [] [] (.inl rfl) spec.entries
  have hlead : ∀ n ∈ i.lead, PlainName n :=
    LayoutItem.plainNames_of_first hrest fun j hj => hplain j (by rw [hitems]; simp [hj])
  intro n hn
  rcases List.mem_append.1 hn with hn | hn
  · exact hlead n hn
  · obtain rfl := List.mem_singleton.1 hn
    exact hplain i hi

/-- **An item that is a file on a disk** stands there below the base path, and its path is not too
long. -/
theorem leads_of_isFile_item (hf : spec.fault? = none) (hi : i ∈ spec.items)
    (hfile : s.disk.isFile (i.path (spec.base root)) = true) :
    ∃ place, s.disk.Leads (spec.base root) place ∧ s.disk.isDirectory (spec.base root) = true ∧
      ¬ Disk.TooLong ((spec.base root).joinNames i.lead) i.name ∧
      ∃ c, s.disk.view (place ++ i.names) = some (.file c) := by
  have hplain := plainNames_of_mem hf hi
  obtain ⟨c, hentry⟩ := Disk.isFile_eq_true_iff.1 hfile
  obtain ⟨hreach, x, hx, hat⟩ :=
    (Disk.entry?_joinNames (base_text_ne_empty hf) hplain i.names_ne_nil).1 hentry
  -- the base path leads to a directory, since something stands below it
  obtain ⟨es, rfl⟩ := Disk.exists_of_at?_ne_nil hat i.names_ne_nil
  obtain ⟨l, hl, hes⟩ := Disk.entry?_eq_some.1 hx
  have hdir : s.disk.isDirectory (spec.base root) = true :=
    Disk.isDirectory_iff.2 ⟨l, hl, Disk.view_eq_directory.2 ⟨es, hes⟩⟩
  obtain ⟨-, place, hplace⟩ := Disk.isDirectory_iff_leads.1 hdir
  have hlong : ¬ Disk.TooLong ((spec.base root).joinNames i.lead) i.name := by
    have hpath := hreach.path
    have hname := hreach.name i.name (by simp [LayoutItem.names])
    rw [LayoutItem.names, Path.joinNames_append, Path.joinNames_singleton] at hpath
    rintro (h | h) <;> omega
  exact ⟨place, hplace, hdir, hlong, ((Disk.isFile_joinNames hplace hplain i.names_ne_nil).1 hfile).2⟩

/-- A directory is refused where a file stands. -/
theorem refusal?_of_file {base : Path} {σ : View} {c : Content} (hc : i.content? = none)
    (hlong : ¬ Disk.TooLong (base.joinNames i.lead) i.name)
    (hfile : σ (place ++ i.names) = some (.file c)) :
    refusal? base place σ i = some (.conflict (i.path base) (conflictReason .directory)) := by
  have hwanted : i.wanted = .directory := by rw [LayoutItem.wanted, hc]
  rw [refusal?, if_neg hlong, hfile, hwanted]
  rfl

/-- **Items among which a directory meets a file** are not all carried out: the first that is
refused is this directory or stands before it. -/
theorem carryOut_of_file {base : Path} {σ : View} {c : Content} (before after : List LayoutItem)
    (hc : i.content? = none) (hlong : ¬ Disk.TooLong (base.joinNames i.lead) i.name)
    (hfile : σ (place ++ i.names) = some (.file c)) :
    ∃ f, (carryOut base place (before ++ i :: after) σ).2 = some f ∧
      (f = .conflict (i.path base) (conflictReason .directory) ∨
        ∃ j ∈ before, refusal? base place (carryOut base place (before ++ i :: after) σ).1 j =
          some f) := by
  cases hbefore : (carryOut base place before σ).2 with
  | some f =>
    have hall := carryOut_append_of_some hbefore (i :: after)
    obtain ⟨done, j, rest, rfl, -, hview, hj⟩ := carryOut_of_some hbefore
    refine ⟨f, by rw [hall, hbefore], .inr ⟨j, by simp, ?_⟩⟩
    rw [hall, hview, hj]
  | none =>
    -- what has been carried out by then has kept the file
    have hkeeps : σ.Keeps (carryOut base place before σ).1 := keeps_carryOut _ _
    obtain ⟨st, hst, hkind⟩ := hkeeps _ _ hfile
    obtain ⟨c', rfl⟩ : ∃ c', st = .file c' := by
      cases st with
      | directory => cases hkind
      | file c' => exact ⟨c', rfl⟩
    refine ⟨_, ?_, .inl rfl⟩
    rw [carryOut_append_of_none hbefore, carryOut, refusal?_of_file hc hlong hst]

/-- **What a file in the way of a directory comes to.** In the place of the base path it is a
conflict at this path. Above the base path it is not found to be in the way: the build fails at the
base path, and nothing is done. In the place of a directory of the layout it is a conflict at its
path, unless an earlier entry is refused, because its path is too long or because something of the
other kind stands in its place. -/
theorem build_obstructed (hf : spec.fault? = none) (root : Path) (s : Site) :
    let base := spec.base root
    let left := (spec.build root s).2.disk
    (s.disk.isFile base = true → spec.build root s =
      (.error (.conflict base "a file exists where a directory is expected"), s)) ∧
    (∀ ps qs, s.disk.PassesFile base ps qs →
      ∃ g, spec.build root s = (.error (.ioFailure base g), s) ∧
        (Disk.check base = .ok () → g = .notDirectory)) ∧
    ∀ before i after, spec.items = before ++ i :: after → i.content? = none →
      s.disk.isFile (i.path base) = true →
      (spec.build root s).1 =
          .error (.conflict (i.path base) "a file exists where a directory is expected") ∨
        ∃ j ∈ before, ∃ place f, left.Leads base place ∧
          refusal? base place left.view j = some f ∧ (spec.build root s).1 = .error f := by
  intro base left
  refine ⟨build_at_file hf, fun ps qs => build_below_file hf, ?_⟩
  intro before i after hitems hc hfile
  have hi : i ∈ spec.items := by rw [hitems]; simp
  obtain ⟨place, hplace, hdir, hlong, c, hv⟩ := leads_of_isFile_item hf hi hfile
  have hends := build_of_ok hf (makeDirectory_of_isDirectory hdir) hplace
  have hleft : left.view = (carryOut base place spec.items s.disk.view).1 := hends.view
  have hplace' : left.Leads base place :=
    hplace.of_keeps hends.home (hleft ▸ keeps_carryOut _ _)
  obtain ⟨f, hfail, hf'⟩ := carryOut_of_file before after hc hlong hv
  rw [← hitems] at hfail hf'
  have hresult : (spec.build root s).1 = .error f := by
    rw [hends.result, hfail]
  rcases hf' with rfl | ⟨j, hj, hrefused⟩
  · exact .inl hresult
  · exact .inr ⟨j, hj, place, f, hplace', hleft ▸ hrefused, hresult⟩

/-- A site with a file in the place of a directory that the layout has. -/
def obstructed : Site := .on ⟨.directory [("work", .directory [("out", .directory [("demo",
  .directory [("src", .file (.text "x"))])])])], ["work"]⟩

/-- The first directory of the layout meets the file. -/
theorem build_obstructed_entry :
    ((Specification.mk "demo" ⟨"out"⟩ [.directory "src" [], .directory "lib" []]).build ⟨"."⟩
      obstructed).1 =
      .error (.conflict ⟨"./out/demo/src"⟩ "a file exists where a directory is expected") := by
  have hf : (Specification.mk "demo" ⟨"out"⟩ [.directory "src" [], .directory "lib" []]).fault? =
      none := by decide +kernel
  have hpath : LayoutItem.path (base ⟨"demo", ⟨"out"⟩, [.directory "src" [], .directory "lib" []]⟩
      ⟨"."⟩) ⟨[], "src", none⟩ = ⟨"./out/demo/src"⟩ := by decide +kernel
  have hfile : obstructed.disk.isFile (LayoutItem.path
      (base ⟨"demo", ⟨"out"⟩, [.directory "src" [], .directory "lib" []]⟩ ⟨"."⟩)
      ⟨[], "src", none⟩) = true := by decide +kernel
  rcases (build_obstructed hf ⟨"."⟩ obstructed).2.2 [] ⟨[], "src", none⟩ [⟨[], "lib", none⟩] rfl rfl
    hfile with h | ⟨j, hj, -⟩
  · rw [hpath] at h
    exact h
  · cases hj

/-- A site with a file where the output directory is to be. -/
def outTaken : Site := .on ⟨.directory [("work", .directory [("out", .file (.text "x"))])], ["work"]⟩

/-- The output directory is a file, and this is not reported as a conflict: the build fails at the
base path below it, which is not there. -/
theorem build_outTaken :
    outTaken.disk.isFile ⟨"./out"⟩ = true ∧
      (∀ reason, ((Specification.mk "demo" ⟨"out"⟩ []).build ⟨"."⟩ outTaken).1 ≠
        .error (.conflict ⟨"./out"⟩ reason)) ∧
      ((Specification.mk "demo" ⟨"out"⟩ []).build ⟨"."⟩ outTaken).1 =
        .error (.ioFailure ⟨"./out/demo"⟩ .notDirectory) := by
  have hf : (Specification.mk "demo" ⟨"out"⟩ []).fault? = none := by decide +kernel
  have hbase : (Specification.mk "demo" ⟨"out"⟩ []).base ⟨"."⟩ = ⟨"./out/demo"⟩ := by decide +kernel
  have hpasses : outTaken.disk.PassesFile ((Specification.mk "demo" ⟨"out"⟩ []).base ⟨"."⟩)
      [".".toList, "out".toList] ["demo".toList] := by
    rw [hbase]
    exact ⟨by decide +kernel, by simp, ["work", "out"], .text "x", rfl, rfl⟩
  have hcheck : Disk.check ((Specification.mk "demo" ⟨"out"⟩ []).base ⟨"."⟩) = .ok () := by
    rw [hbase, Disk.check_eq_ok]
    decide +kernel
  obtain ⟨g, hbuild, hg⟩ := build_below_file hf hpasses
  rw [hg hcheck, hbase] at hbuild
  refine ⟨by decide +kernel, fun reason h => ?_, by rw [hbuild]⟩
  rw [hbuild] at h
  cases h

end Specification

end Scaffold
