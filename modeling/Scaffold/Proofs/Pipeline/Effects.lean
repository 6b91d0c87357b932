import Scaffold.Proofs.Disk.Changes
import Scaffold.Proofs.Pipeline.Stages
import Scaffold.Proofs.Work.Silent

/-!
# Effects of the parts of a pipeline

No part of a pipeline prints anything, from the store that is opened (`silent_open`) to the build
(`silent_buildFile`), and what comes before the build changes the disk only at the output and the
directories above it (`compileText_eq_ok`).
-/

namespace Scaffold

open Work (Reads Silent Preserves)

variable {α : Type}

/-! ### Lines -/

theorem Repository.silent_open (root : Path) : Silent (Repository.open root) :=
  (DirectoryStore.reads_open root).silent.bind fun _ =>
    Silent.newShelf.bind fun _ => (Reads.pure _).silent

theorem Repository.silent_template (r : Repository) (name : String) : Silent (r.template name) := by
  refine (Silent.shelved? _ _).bind fun kept => ?_
  cases kept with
  | some t => exact (Reads.pure _).silent
  | none =>
    refine (r.store.reads_source name).silent.attempt.bind fun text => ?_
    cases compiled name text with
    | error f => exact (Reads.pure _).silent
    | ok t => exact (Silent.putOnShelf _ _ _).bind fun _ => (Reads.pure _).silent

theorem Repository.silent_keptNames (r : Repository) : Silent r.keptNames :=
  (Silent.shelfNames _).bind fun _ => (Reads.pure _).silent

theorem Inquiry.silent_conduct (r : Repository) : (q : Inquiry α) → Silent (q.conduct r)
  | .done _ => (Reads.pure _).silent
  | .remark _ rest => (Reads.notice _ _).silent.bind fun _ => rest.silent_conduct r
  | .template name rest => (r.silent_template name).bind fun t => (rest t).silent_conduct r
  | .modes tag rest =>
    (r.store.reads_modes tag).silent.attempt.bind fun ms => (rest ms).silent_conduct r
  | .kept rest => r.silent_keptNames.bind fun names => (rest names).silent_conduct r

theorem Node.silent_render (r : Repository) (n : Node) (mode : String) : Silent (n.render r mode) :=
  (Inquiry.silent_conduct r _).bind fun _ => (Reads.ofExcept _).silent

namespace Pipeline

theorem silent_makeParent (p : Path) : Silent (makeParent p) := by
  rw [makeParent]
  cases p.parent? with
  | none => exact (Reads.pure ()).silent
  | some parent => exact .ite (.makeDirectories parent) (Reads.pure ()).silent

theorem silent_writeFile (p : Path) (text : String) : Silent (Pipeline.writeFile p text) := by
  rw [writeFile_eq]
  exact (silent_makeParent p).bind fun _ => .writeFile p text

theorem silent_compileText (p : Pipeline) (text : String) (format : DocumentFormat)
    (mode : Option String) : Silent (p.compileText text format mode) :=
  (reads_parse p text format).silent.bind fun root =>
    ((Reads.notice _ _).silent.bind fun _ => (root.silent_render _ _).atStage .compile).bind
      fun rendered => ((silent_writeFile _ rendered).atStage .write).bind fun _ =>
        (Reads.notice _ _).silent.bind fun _ => (Reads.pure _).silent

end Pipeline

namespace Build

theorem silent_makeDirectory (p : Path) : Silent (Build.makeDirectory p) :=
  Reads.disk.silent.bind fun _ => .ite (Reads.fail _).silent (.makeDirectories p)

theorem silent_writeFile (p : Path) (content : String) : Silent (Build.writeFile p content) :=
  Reads.disk.silent.bind fun _ => .ite (Reads.fail _).silent (.writeFile p content)

mutual

theorem silent_makeEntry (base : Path) : (e : LayoutEntry) → Silent (makeEntry base e)
  | .directory _ children => (silent_makeDirectory _).bind fun _ =>
    (Reads.notice _ _).silent.bind fun _ => (silent_makeEntries _ children).bind fun _ =>
      (Reads.pure _).silent
  | .file _ content => (silent_writeFile _ content).bind fun _ =>
    (Reads.notice _ _).silent.bind fun _ => (Reads.pure _).silent

theorem silent_makeEntries (base : Path) : (es : List LayoutEntry) → Silent (makeEntries base es)
  | [] => (Reads.pure _).silent
  | e :: r => (silent_makeEntry base e).bind fun _ => (silent_makeEntries base r).bind fun _ =>
    (Reads.pure _).silent

end

end Build

theorem silent_buildFile (p root : Path) : Silent (buildFile p root) :=
  (Specification.reads_load p).silent.bind fun spec =>
    (Reads.ofExcept spec.validate).silent.bind fun _ => (Build.silent_makeDirectory _).bind fun _ =>
      (Build.silent_makeEntries _ _).bind fun _ => (Reads.notice _ _).silent.bind fun _ =>
        (Reads.pure _).silent

/-! ### The disk -/

namespace Pipeline

variable {d : Disk}

theorem changes_writeFile (p : Path) (text : String) :
    Preserves (Disk.ChangesAt p.LiesIn d) (Pipeline.writeFile p text) := by
  have hparent : Preserves (Disk.ChangesAt p.LiesIn d) (makeParent p) := by
    rw [makeParent]
    cases hp : p.parent? with
    | none => exact Preserves.pure ()
    | some parent =>
      simp only
      split_ifs
      · exact .makeDirectories parent fun e he => he.trans
          ((Disk.changesAt_makeDirectories e parent).mono fun _ hq => hq.of_parent hp)
      · exact Preserves.pure ()
  rw [writeFile_eq]
  exact hparent.bind fun _ => .writeFile p text fun _ _ hw he => he.trans (Disk.changesAt_writeFile hw)

theorem open_eq_ok {c : Config} {p : Pipeline} {s t : Site} (h : Pipeline.open c s = (.ok p, t)) :
    p.config = c ∧ t.disk = s.disk := by
  obtain ⟨r, u, hr, h⟩ := Work.exists_of_bind_eq_ok h
  obtain ⟨st, v, hst, hr⟩ := Work.exists_of_bind_eq_ok hr
  have hd := (DirectoryStore.reads_open c.templatesDir).disk_eq s
  rw [hst] at hd
  cases hr
  cases h
  exact ⟨rfl, hd⟩

/-- **What comes before the build** gives the output, and changes the disk only there and at the
directories above it. -/
theorem compileText_eq_ok {p : Pipeline} {text : String} {format : DocumentFormat}
    {mode : Option String} {path : Path} {s t : Site}
    (h : p.compileText text format mode s = (.ok path, t)) :
    path = p.config.output ∧ Disk.ChangesAt p.config.output.LiesIn s.disk t.disk := by
  obtain ⟨stage, f, u, hc, -⟩ | ⟨rendered, u, v, hc, -, hw, hd, -⟩ :=
    compileText_cases p text format mode s
  · rw [hc] at h
    cases h
  · rw [hc] at h
    cases h
    refine ⟨rfl, ?_⟩
    have hchange := changes_writeFile p.config.output rendered s (.refl _ _)
    rwa [hw, ← hd] at hchange

end Pipeline

end Scaffold
