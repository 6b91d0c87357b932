import Scaffold.Pipeline
import Scaffold.Proofs.Disk.Files
import Scaffold.Proofs.Store.Inquiry
import Scaffold.Proofs.Work.Unstaged

/-!
# The parts of a pipeline

What a pipeline does within its stages. Each part fails with failures of no stage. Reading schemas,
documents and specifications only looks at the disk, and writing makes directories above a path and
then the file (`writeFile_cases`). A build depends on the disk alone (`Specification.isLocal_build`).
-/

namespace Scaffold

open Work (Reads Local)

/-! ### Documents and schemas -/

theorem Schema.unstaged_validate (sc : Schema) (v : Json) : Unstaged (sc.validate v) := by
  rw [Schema.validate]
  split
  · exact .ok ()
  · exact .error rfl

namespace Schema

theorem reads_load (p : Path) : Reads (Schema.load p) := by
  refine (Reads.notice _ _).bind fun _ => (Reads.readText p).bind fun text => ?_
  cases Json.read? text with
  | none => exact Reads.fail _
  | some v => exact Reads.ofExcept _

theorem unstaged_load (p : Path) : Work.Unstaged (Schema.load p) := by
  refine .bind (.notice _ _) fun _ => .bind (.readText p) fun text => ?_
  cases Json.read? text with
  | none => exact .fail rfl
  | some v =>
    refine .ofExcept ?_
    rw [Schema.read]
    split
    · exact .error rfl
    · exact .ok _

end Schema

theorem reads_readInput (p : Path) : Reads (readInput p) :=
  (Reads.ofExcept _).bind fun _ => (Reads.notice _ _).bind fun _ =>
    (Reads.readText p).bind fun _ => Reads.pure _

theorem unstaged_readInput (p : Path) : Work.Unstaged (readInput p) := by
  have hformat : Unstaged (DocumentFormat.ofPath p) := by
    rw [DocumentFormat.ofPath]
    split_ifs
    · exact .ok _
    · exact .ok _
    · exact .error rfl
  exact .bind (.ofExcept hformat) fun _ => .bind (.notice _ _) fun _ =>
    .bind (.readText p) fun _ => .pure _

namespace Node

theorem unstaged_readJson (text : String) : Unstaged (readJson text) := by
  rw [readJson]
  split
  · exact .ok _
  · exact .error rfl

theorem unstaged_ofJson (v : Json) : Unstaged (ofJson v) :=
  .bind (.mapError _ fun _ => rfl) fun _ => .mapError _ fun _ => rfl

theorem unstaged_ofMarkup (mode : Markup.TextMode) (text : String) :
    Unstaged (ofMarkup mode text) := .mapError _ fun _ => rfl

end Node

theorem DirectoryStore.unstaged_modes (s : DirectoryStore) (tag : String) :
    Work.Unstaged (s.modes tag) := by
  have hgroup : Work.Unstaged (s.group? tag) := .bind .disk fun _ => .pure _
  have hlisting : ∀ p, Work.Unstaged (listing p) := by
    intro p
    refine .bind .disk fun d => ?_
    cases d.list p with
    | error f => exact .fail rfl
    | ok es => exact .pure es
  refine .bind hgroup fun dir? => ?_
  cases dir? with
  | none => exact .fail rfl
  | some dir => exact .bind (hlisting dir) fun _ => .pure _

theorem Store.unstaged_listed (st : Store) (d : Disk) (tag : String) :
    Unstaged (st.listed d tag) := by
  cases st with
  | memory st =>
    simp only [listed, modes]
    cases st.modes? tag with
    | none => exact .error rfl
    | some ms => exact .ok ms
  | directory st => exact st.unstaged_modes tag (.on d)

theorem Node.unstaged_render (r : Repository) (n : Node) (mode : String) :
    Work.Unstaged (n.render r mode) := by
  intro s
  rw [(n.render_apply r mode s).1, Inquiry.resultAt, Node.eval_rendering]
  cases hl : r.store.listed s.disk n.tag with
  | error f => exact .error (r.store.unstaged_listed s.disk n.tag f hl)
  | ok available =>
    simp only
    split_ifs
    · rw [eval_renderNamed]
      cases r.answer s (templateName n.tag mode) with
      | ok t => exact .mapError _ fun _ => rfl
      | error f =>
        simp only
        split_ifs
        · exact .error rfl
        · exact .error rfl
    · exact .error rfl

/-! ### Building -/

namespace Specification

variable {p root : Path}

theorem reads_load (p : Path) : Reads (Specification.load p) := by
  refine Reads.disk.bind fun d => Reads.ite (Reads.fail _) ?_
  refine (Reads.notice _ _).bind fun _ => (Reads.readText p).bind fun text => Reads.ite ?_ ?_
  · exact (Reads.ofExcept _).bind fun _ => (Reads.notice _ _).bind fun _ => Reads.ofExcept _
  · exact Reads.ofExcept _

theorem unstaged_load (p : Path) : Work.Unstaged (Specification.load p) := by
  refine .bind .disk fun d => .ite (.fail rfl) ?_
  refine .bind (.notice _ _) fun _ => .bind (.readText p) fun text => .ite ?_ ?_
  · exact .bind (.ofExcept (.mapError _ fun _ => rfl)) fun _ => .bind (.notice _ _) fun _ =>
      .ofExcept (.mapError _ fun _ => rfl)
  · exact .ofExcept (.mapError _ fun _ => rfl)

/-- Reading a specification from XML text leaves a notice, and has the same result. -/
theorem fst_readMarkup (text : String) (s : Site) : (readMarkup text s).1 = ofMarkup text := by
  have hread : ∀ root, Reads (do noteMarkup root; Work.ofExcept (ofRoot root)) := fun root =>
    (Reads.notice _ _).bind fun _ => Reads.ofExcept _
  rw [readMarkup, (Reads.ofExcept _).fst_bind hread, Work.fst_ofExcept]
  exact bind_congr fun root => Work.fst_ofExcept (ofRoot root) _

/-- **The specification in a file** is the one that its text holds. -/
theorem load_of_readText {s : Site} {text : String} (h : s.disk.readText p = .ok text) :
    (Specification.load p s).1 =
      if p.hasExtension "xml" then ofMarkup text else Specification.parse text := by
  have hdisk : Work.disk s = (.ok s.disk, s) := rfl
  obtain ⟨t, hnote, ht⟩ : ∃ t, Work.debug ("Loading specification from " ++ p.text) s =
    (.ok (), t) ∧ t.disk = s.disk := ⟨_, rfl, rfl⟩
  rw [load, Work.bind_of_ok hdisk, Disk.isFile_of_readText h, if_neg (by simp),
    Work.bind_of_ok hnote, Work.bind_of_ok (Work.readText_of_ok (ht ▸ h)), Specification.parse]
  cases p.hasExtension "xml" <;> cases looksLikeMarkup text <;> simp [fst_readMarkup]

end Specification

namespace Build

theorem isLocal_makeDirectory (p : Path) : Local (Build.makeDirectory p) :=
  Reads.disk.isLocal.bind fun _ => .ite (Reads.fail _).isLocal (.makeDirectories p)

theorem isLocal_writeFile (p : Path) (content : String) : Local (Build.writeFile p content) :=
  Reads.disk.isLocal.bind fun _ => .ite (Reads.fail _).isLocal (.writeFile p content)

theorem unstaged_makeDirectory (p : Path) : Work.Unstaged (Build.makeDirectory p) :=
  .bind .disk fun _ => .ite (.fail rfl) (.makeDirectories p)

theorem unstaged_writeFile (p : Path) (content : String) :
    Work.Unstaged (Build.writeFile p content) :=
  .bind .disk fun _ => .ite (.fail rfl) (.writeFile p content)

mutual

theorem isLocal_makeEntry (base : Path) : (e : LayoutEntry) → Local (makeEntry base e)
  | .directory _ children => (isLocal_makeDirectory _).bind fun _ =>
    (Reads.notice _ _).isLocal.bind fun _ => (isLocal_makeEntries _ children).bind fun _ =>
      (Reads.pure _).isLocal
  | .file _ content => (isLocal_writeFile _ content).bind fun _ =>
    (Reads.notice _ _).isLocal.bind fun _ => (Reads.pure _).isLocal

theorem isLocal_makeEntries (base : Path) : (es : List LayoutEntry) → Local (makeEntries base es)
  | [] => (Reads.pure _).isLocal
  | e :: r => (isLocal_makeEntry base e).bind fun _ => (isLocal_makeEntries base r).bind fun _ =>
    (Reads.pure _).isLocal

end

mutual

theorem unstaged_makeEntry (base : Path) : (e : LayoutEntry) → Work.Unstaged (makeEntry base e)
  | .directory _ children => .bind (unstaged_makeDirectory _) fun _ =>
    .bind (.notice _ _) fun _ => .bind (unstaged_makeEntries _ children) fun _ => .pure _
  | .file _ content => .bind (unstaged_writeFile _ content) fun _ =>
    .bind (.notice _ _) fun _ => .pure _

theorem unstaged_makeEntries (base : Path) :
    (es : List LayoutEntry) → Work.Unstaged (makeEntries base es)
  | [] => .pure _
  | e :: r => .bind (unstaged_makeEntry base e) fun _ => .bind (unstaged_makeEntries base r)
    fun _ => .pure _

end

end Build

theorem Specification.isLocal_build (spec : Specification) (root : Path) :
    Local (spec.build root) :=
  (Reads.ofExcept _).isLocal.bind fun _ => (Build.isLocal_makeDirectory _).bind fun _ =>
    (Build.isLocal_makeEntries _ _).bind fun _ => (Reads.notice _ _).isLocal.bind fun _ =>
      (Reads.pure _).isLocal

theorem Specification.unstaged_build (spec : Specification) (root : Path) :
    Work.Unstaged (spec.build root) := by
  have hvalid : Unstaged spec.validate := by
    rw [Specification.validate]
    split
    · exact .error rfl
    · exact .ok ()
  exact .bind (.ofExcept hvalid) fun _ => .bind (Build.unstaged_makeDirectory _) fun _ =>
    .bind (Build.unstaged_makeEntries _ _) fun _ => .bind (.notice _ _) fun _ => .pure _

theorem isLocal_buildFile (p root : Path) : Local (buildFile p root) :=
  (Specification.reads_load p).isLocal.bind fun spec => spec.isLocal_build root

theorem unstaged_buildFile (p root : Path) : Work.Unstaged (buildFile p root) :=
  .bind (Specification.unstaged_load p) fun spec => spec.unstaged_build root

/-! ### Writing -/

namespace Disk

/-- Nothing has changed, but for directories above a path that have been made. -/
def GrowsAbove (p : Path) (d e : Disk) : Prop :=
  match p.parent? with
  | some q => GrowsTowards q d e
  | none => e = d

theorem GrowsAbove.refl (p : Path) (d : Disk) : GrowsAbove p d d := by
  rw [GrowsAbove]
  cases p.parent? with
  | none => rfl
  | some q => exact GrowsTowards.refl q d

/-- **The text stands in the file of a path**, and nothing else has changed, but for directories
above the path that have been made. -/
structure Written (p : Path) (text : String) (d e : Disk) : Prop where
  holds : e.readText p = .ok text
  grows : ∃ d' m, GrowsAbove p d d' ∧ e.locate p = .ok m ∧ d'.view m ≠ some .directory ∧
    e.home = d'.home ∧ e.view = Function.update d'.view m (some (.file (.text text)))

end Disk

namespace Pipeline

/-- Makes the directory that a path lies in. -/
def makeParent (p : Path) : Work Unit :=
  match p.parent? with
  | some parent => if parent.text != "" then Work.makeDirectories parent else Pure.pure ()
  | none => Pure.pure ()

theorem writeFile_eq (p : Path) (text : String) :
    Pipeline.writeFile p text = (do makeParent p; Work.writeFile p text) := by
  rw [Pipeline.writeFile, makeParent]
  cases p.parent? with
  | none => rfl
  | some parent =>
    simp only
    split_ifs
    · rfl
    · rfl

theorem isLocal_makeParent (p : Path) : Local (makeParent p) := by
  rw [makeParent]
  cases p.parent? with
  | none => exact (Reads.pure ()).isLocal
  | some parent => exact .ite (.makeDirectories parent) (Reads.pure ()).isLocal

theorem unstaged_makeParent (p : Path) : Work.Unstaged (makeParent p) := by
  rw [makeParent]
  cases p.parent? with
  | none => exact .pure ()
  | some parent => exact .ite (.makeDirectories parent) (.pure ())

theorem growsAbove_makeParent (p : Path) (s : Site) :
    Disk.GrowsAbove p s.disk (makeParent p s).2.disk := by
  rw [makeParent, Disk.GrowsAbove]
  cases p.parent? with
  | none => rfl
  | some parent =>
    simp only
    split_ifs
    · rw [Work.makeDirectories_apply]
      exact Disk.growsTowards_makeDirectories s.disk parent
    · exact Disk.GrowsTowards.refl parent s.disk

theorem isLocal_writeFile (p : Path) (text : String) : Local (Pipeline.writeFile p text) := by
  rw [writeFile_eq]
  exact (isLocal_makeParent p).bind fun _ => .writeFile p text

theorem unstaged_writeFile (p : Path) (text : String) :
    Work.Unstaged (Pipeline.writeFile p text) := by
  rw [writeFile_eq]
  exact .bind (unstaged_makeParent p) fun _ => .writeFile p text

/-- **What writing comes to**: the text stands in the file, or only directories have been made. -/
theorem writeFile_cases (p : Path) (text : String) (s : Site) :
    (∃ f t, Pipeline.writeFile p text s = (.error f, t) ∧ Disk.GrowsAbove p s.disk t.disk) ∨
      ∃ t, Pipeline.writeFile p text s = (.ok (), t) ∧ Disk.Written p text s.disk t.disk := by
  have hgrows := growsAbove_makeParent p s
  rw [writeFile_eq]
  obtain ⟨r, t, hm⟩ : ∃ r t, makeParent p s = (r, t) := ⟨_, _, rfl⟩
  rw [hm] at hgrows
  cases r with
  | error f => exact .inl ⟨f, t, Work.bind_of_error hm, hgrows⟩
  | ok _ =>
    rw [Work.bind_of_ok hm, Work.writeFile_apply]
    cases hw : t.disk.writeFile p (.text text) with
    | error f => exact .inl ⟨_, t, rfl, hgrows⟩
    | ok d =>
      obtain ⟨m, hl, hd, hh, hv⟩ := Disk.writeFile_eq_ok hw
      exact .inr ⟨_, rfl, Disk.readText_writeFile hw, t.disk, m, hgrows, hl, hd, hh, hv⟩

end Pipeline

end Scaffold
