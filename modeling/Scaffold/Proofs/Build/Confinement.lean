import Scaffold.Proofs.Build.Run

/-!
# What a build may touch

However a build ends, nothing is removed or turned into something of the other kind, only files
strictly below the base path change, and what is new lies strictly below it or is a directory that a
prefix of it names. Where a name is not plain or the output directory is empty, nothing happens at
all (`build_confined`). All this is said of disks without links: a build follows links, and then it
can change a file elsewhere (`build_through_links`).
-/

namespace Scaffold

open Build

/-- A place below the one that a path leads to, and not this place itself. -/
def Disk.StrictlyBelow {linked : Bool} (d : Disk linked) (p : Path) (l : Location) : Prop :=
  ∃ m names, d.locate p = .ok m ∧ names ≠ [] ∧ l = m ++ names

theorem LayoutItem.names_ne_nil (i : LayoutItem) : i.names ≠ [] := by simp [names]

namespace Specification

variable {spec : Specification} {root : Path} {place l : Location} {s t : Site}

/-- Where items have been carried out, a place that is not strictly below the base path is as the
making of the base path left it. -/
theorem Ends.view_of_not_below {r : Except Failure BuildReport × Site}
    (h : spec.Ends root place t r) (hc : Disk.check (spec.base root) = .ok ())
    (hl : t.disk.Leads (spec.base root) place) (hb : ¬ r.2.disk.StrictlyBelow (spec.base root) l) :
    r.2.disk.view l = t.disk.view l := by
  have hk : t.disk.view.Keeps r.2.disk.view := h.view ▸ keeps_carryOut _ _
  have hloc := (hl.of_keeps h.home hk).locate hc
  rw [h.view]
  refine carryOut_of_not_mem fun i _ hi => hb ⟨place, i.names, hloc, i.names_ne_nil, hi⟩

/-- A fault of the specification is a name that is not plain, or an empty output directory. -/
theorem exists_fault? (h : ¬ PlainName spec.projectName ∨ spec.outputDir.text = "" ∨
    ∃ i ∈ spec.items, ¬ PlainName i.name) : ∃ f, spec.fault? = some f := by
  cases hf : spec.fault? with
  | some f => exact ⟨f, rfl⟩
  | none =>
    obtain ⟨hn, ho, hi⟩ := fault?_eq_none.1 hf
    rcases h with h | h | ⟨i, hm, h⟩
    · exact absurd hn h
    · exact absurd h ho
    · exact absurd (hi i hm) h

/-- **A build is confined to its base path**, whatever its outcome. -/
theorem build_confined (spec : Specification) (root : Path) (s : Site) :
    let base := spec.base root
    let before := s.disk
    let after := (spec.build root s).2.disk
    after.home = before.home ∧
    before.view.Keeps after.view ∧
    (∀ l c, before.view l = some (.file c) → ¬ after.StrictlyBelow base l →
      after.view l = some (.file c)) ∧
    (∀ l, before.view l = none → after.view l ≠ none →
      after.view l = some .directory ∧ after.NamedByPrefix base l ∨ after.StrictlyBelow base l) ∧
    ((¬ PlainName spec.projectName ∨ spec.outputDir.text = "" ∨
        ∃ i ∈ spec.items, ¬ PlainName i.name) →
      ∃ detail, spec.build root s = (.error (.specification detail), s)) := by
  intro base before after
  have hfault : (¬ PlainName spec.projectName ∨ spec.outputDir.text = "" ∨
      ∃ i ∈ spec.items, ¬ PlainName i.name) →
      ∃ detail, spec.build root s = (.error (.specification detail), s) := fun h => by
    obtain ⟨f, hf⟩ := exists_fault? h
    exact ⟨f.message, build_of_fault hf⟩
  -- nothing is done; or only directories towards the base path are made; or items are, below it
  obtain ⟨f, -, he⟩ | ⟨-, f, t, hm, he⟩ | ⟨-, place, t, hc, hl, hg, he⟩ := build_cases spec root s
  · have ha : after = before := by simp only [after, before, he]
    rw [ha]
    exact ⟨rfl, View.Keeps.refl _, fun _ _ h _ => h, fun _ h h' => absurd h h', hfault⟩
  · have hg : Disk.GrowsTowards base before after := by
      have := (makeDirectory_eq_error hm).1
      simpa only [after, he] using this
    refine ⟨hg.home, hg.keeps, ?_, ?_, hfault⟩
    · intro l c hlc _
      exact hg.view_of_some hlc
    · intro l hln hla
      exact .inl (hg.of_new hln hla)
  · have hk : t.disk.view.Keeps after.view := he.view ▸ keeps_carryOut _ _
    refine ⟨he.home.trans hg.home, hg.keeps.trans hk, ?_, ?_, hfault⟩
    · intro l c hlc hb
      rw [he.view_of_not_below hc hl hb]
      exact hg.view_of_some hlc
    · intro l hln hla
      by_cases hb : after.StrictlyBelow base l
      · exact .inr hb
      · have hvl := he.view_of_not_below hc hl hb
        obtain ⟨hd, hp⟩ := hg.of_new hln (hvl ▸ hla)
        exact .inl ⟨hvl.trans hd, hp.of_keeps he.home hk⟩

/-- A project whose name leads out of the place where its output goes. -/
def climbing : Specification := ⟨"..", ⟨"out"⟩, [.file "a" "text"]⟩

theorem build_climbing : ∃ detail,
    climbing.build ⟨"."⟩ Site.empty = (.error (.specification detail), Site.empty) := by
  have hn : ¬ PlainName climbing.projectName := by
    rw [← isPlainSegment_iff]
    decide
  exact (build_confined climbing ⟨"."⟩ Site.empty).2.2.2.2 (.inl hn)

/-! ### Links -/

/-- A disk on which the directory of a process links to the working directory, and `self` to the
directory of the process. -/
def processDisk : Disk true :=
  ⟨.directory [
    ("proc", .directory [
      ("7", .directory [("cwd", .linkTo ⟨"/work"⟩)]),
      ("self", .linkTo ⟨"7"⟩)]),
    ("work", .directory [("secret.txt", .file (.text "kept"))])], ["work"]⟩

/-- A project with the name of a link and a directory with the name of another. -/
def throughLinks : Specification :=
  ⟨"self", ⟨"/proc"⟩, [.directory "cwd" [.file "secret.txt" "changed"]]⟩

/-- **A build follows links**, and then a file changes that is not below the base path. -/
theorem build_through_links :
    let after := (throughLinks.build ⟨"."⟩ (.on processDisk)).2.disk
    (throughLinks.build ⟨"."⟩ (.on processDisk)).1.isOk = true ∧
    processDisk.readText ⟨"/work/secret.txt"⟩ = .ok "kept" ∧
    after.readText ⟨"/work/secret.txt"⟩ = .ok "changed" ∧
    after.locate ⟨"/work/secret.txt"⟩ = .ok ["work", "secret.txt"] ∧
    ¬ after.StrictlyBelow (throughLinks.base ⟨"."⟩) ["work", "secret.txt"] := by
  intro after
  have hbase : after.locate (throughLinks.base ⟨"."⟩) = .ok ["proc", "7"] :=
    eq_ok_of_toOption (by decide +kernel)
  refine ⟨by decide +kernel, eq_ok_of_toOption (by decide +kernel),
    eq_ok_of_toOption (by decide +kernel), eq_ok_of_toOption (by decide +kernel), ?_⟩
  rintro ⟨m, names, hm, -, hl⟩
  obtain rfl : m = ["proc", "7"] := Except.ok.inj (hm.symm.trans hbase)
  simp at hl

end Specification

end Scaffold
