import Scaffold.Proofs.Pipeline.Parts

/-!
# The stages of a run

`Pipeline.FailsFirst` says that a part of a run fails where all parts before it succeed, and in which
stage. Every failure of a run is such a failure, noted with its one stage; up to the stage that renders
the disk is as it was, in the stage that writes only directories above the output have been made and
nothing is built, and otherwise the specification in the written text is built, which makes up the
rest of the run (`run_disciplined`).
-/

namespace Scaffold

open Work (Reads Local)

namespace Pipeline

variable {p : Pipeline} {text rendered : String} {format : DocumentFormat} {mode : Option String}
variable {s t u : Site}

/-- A value passes the schema, if there is one. -/
def Passes (schema : Option Schema) (v : Json) : Prop :=
  ∀ sc, schema = some sc → sc.validate v = .ok ()

/-- The document is read as a tree, and passes the schema. -/
inductive IsRead (schema : Option Schema) (text : String) : DocumentFormat → Node → Prop
  | json {v root} : Node.readJson text = .ok v → Passes schema v → Node.ofJson v = .ok root →
    IsRead schema text .json root
  | xml {root} : Node.ofMarkup .normalized text = .ok root →
    Passes schema root.document.canonical → IsRead schema text .xml root

/-- What fails first where a document is read. -/
inductive IsNotRead (schema : Option Schema) (text : String) :
    DocumentFormat → Stage → Failure → Prop
  | noJson {f} : Node.readJson text = .error f → IsNotRead schema text .json .parse f
  | refusedJson {v sc f} : Node.readJson text = .ok v → schema = some sc →
    sc.validate v = .error f → IsNotRead schema text .json .validate f
  | noTree {v f} : Node.readJson text = .ok v → Passes schema v → Node.ofJson v = .error f →
    IsNotRead schema text .json .parse f
  | noMarkup {f} : Node.ofMarkup .normalized text = .error f → IsNotRead schema text .xml .parse f
  | refusedMarkup {root sc f} : Node.ofMarkup .normalized text = .ok root → schema = some sc →
    sc.validate root.document.canonical = .error f → IsNotRead schema text .xml .validate f

/-- The document is read as this tree, from the site `s` on. -/
def Parses (p : Pipeline) (text : String) (format : DocumentFormat) (s : Site) (root : Node) :
    Prop :=
  ∃ schema, (p.schema? s).1 = .ok schema ∧ IsRead schema text format root

/-- The mode in which the root of a tree is rendered. -/
def modeOf (p : Pipeline) (mode : Option String) : String := mode.getD p.config.defaultMode

/-- The document is read and rendered as this text. -/
def Renders (p : Pipeline) (text : String) (format : DocumentFormat) (mode : Option String)
    (s : Site) (rendered : String) : Prop :=
  ∃ root, p.Parses text format s root ∧
    (root.render p.templates (p.modeOf mode) s).1 = .ok rendered

/-- **The first part of a run that fails**, with its stage and its failure. All parts before it
succeed. -/
inductive FailsFirst (p : Pipeline) (text : String) (format : DocumentFormat)
    (mode : Option String) (s : Site) : Stage → Failure → Prop
  | schema {f} : (p.schema? s).1 = .error f → FailsFirst p text format mode s .validate f
  | reading {schema stage f} : (p.schema? s).1 = .ok schema →
    IsNotRead schema text format stage f → FailsFirst p text format mode s stage f
  | rendering {root f} : p.Parses text format s root →
    (root.render p.templates (p.modeOf mode) s).1 = .error f →
    FailsFirst p text format mode s .compile f
  | writing {rendered f} : p.Renders text format mode s rendered →
    (writeFile p.config.output rendered s).1 = .error f →
    FailsFirst p text format mode s .write f
  | building {rendered t f} : p.Renders text format mode s rendered →
    writeFile p.config.output rendered s = (.ok (), t) →
    (buildFile p.config.output p.config.buildRoot t).1 = .error f →
    FailsFirst p text format mode s .build f

/-! ### Reading -/

theorem reads_schema? (p : Pipeline) : Reads p.schema? := by
  rw [schema?]
  refine .ite ?_ (Reads.pure none)
  cases p.config.schema with
  | none => exact Reads.pure _
  | some path => exact (Schema.reads_load path).bind fun _ => Reads.pure _

theorem unstaged_schema? (p : Pipeline) : Work.Unstaged p.schema? := by
  rw [schema?]
  refine .ite ?_ (.pure none)
  cases p.config.schema with
  | none => exact .pure _
  | some path => exact .bind (Schema.unstaged_load path) fun _ => .pure _

theorem reads_check (schema : Option Schema) (v : Json) : Reads (check schema v) := by
  cases schema with
  | none => exact Reads.pure ()
  | some sc => exact (Reads.ofExcept _).atStage .validate

/-- A document is read with a schema. -/
def document (schema : Option Schema) (text : String) : DocumentFormat → Work Node
  | .json => do
    let v ← Work.atStage .parse (Work.ofExcept (Node.readJson text))
    check schema v
    Work.atStage .parse (Work.ofExcept (Node.ofJson v))
  | .xml => do
    let root ← Work.atStage .parse (Work.ofExcept (Node.ofMarkup .normalized text))
    noteMarkup root
    check schema root.document.canonical
    Pure.pure root

theorem reads_document (schema : Option Schema) (text : String) (format : DocumentFormat) :
    Reads (document schema text format) := by
  cases format with
  | json =>
    exact ((Reads.ofExcept _).atStage .parse).bind fun v =>
      (reads_check schema v).bind fun _ => (Reads.ofExcept _).atStage .parse
  | xml =>
    exact ((Reads.ofExcept _).atStage .parse).bind fun root =>
      (Reads.notice _ _).bind fun _ => (reads_check schema _).bind fun _ => Reads.pure root

theorem parse_eq (p : Pipeline) (text : String) (format : DocumentFormat) :
    p.parse text format = (do
      let schema ← Work.atStage .validate p.schema?
      let root ← document schema text format
      Work.debug ("Built node tree with root <" ++ root.tag ++ ">")
      Pure.pure root) := by
  cases format <;> simp [parse, document]

theorem reads_parse (p : Pipeline) (text : String) (format : DocumentFormat) :
    Reads (p.parse text format) := by
  rw [parse_eq]
  exact ((reads_schema? p).atStage .validate).bind fun schema =>
    (reads_document schema text format).bind fun root =>
      (Reads.notice _ _).bind fun _ => Reads.pure root

theorem fst_atStage_ofExcept {α : Type} (stage : Stage) (r : Except Failure α) (s : Site) :
    (Work.atStage stage (Work.ofExcept r) s).1 = r.mapError (.staged stage) := by
  rw [Work.atStage_ofExcept]

/-- What a schema says of a value, if there is one. -/
def verdict (schema : Option Schema) (v : Json) : Except Failure Unit :=
  match schema with
  | some sc => (sc.validate v).mapError (.staged .validate)
  | none => .ok ()

theorem fst_check (schema : Option Schema) (v : Json) (s : Site) :
    (check schema v s).1 = verdict schema v := by
  cases schema with
  | none => rfl
  | some sc => exact fst_atStage_ofExcept ..

theorem verdict_cases (schema : Option Schema) (v : Json) :
    Passes schema v ∧ verdict schema v = .ok () ∨
      ∃ sc f, schema = some sc ∧ sc.validate v = .error f ∧
        verdict schema v = .error (.staged .validate f) := by
  cases schema with
  | none => exact .inl ⟨by rintro _ ⟨⟩, rfl⟩
  | some sc =>
    rw [verdict]
    cases hv : sc.validate v with
    | ok _ => exact .inl ⟨by rintro _ ⟨⟩; exact hv, rfl⟩
    | error f => exact .inr ⟨sc, f, rfl, hv, rfl⟩

/-- The tree that a document is read as with a schema, or why it is not. -/
def treeOf (schema : Option Schema) (text : String) : DocumentFormat → Except Failure Node
  | .json => do
    let v ← (Node.readJson text).mapError (.staged .parse)
    verdict schema v
    (Node.ofJson v).mapError (.staged .parse)
  | .xml => do
    let root ← (Node.ofMarkup .normalized text).mapError (.staged .parse)
    verdict schema root.document.canonical
    Pure.pure root

theorem fst_document (schema : Option Schema) (text : String) (format : DocumentFormat)
    (s : Site) : (document schema text format s).1 = treeOf schema text format := by
  cases format with
  | json =>
    have hcheck : ∀ v, Reads (do
        check schema v
        Work.atStage .parse (Work.ofExcept (Node.ofJson v))) := fun v =>
      (reads_check schema v).bind fun _ => (Reads.ofExcept _).atStage .parse
    rw [document, ((Reads.ofExcept _).atStage .parse).fst_bind hcheck, fst_atStage_ofExcept]
    refine bind_congr fun v => ?_
    rw [(reads_check schema v).fst_bind fun _ => (Reads.ofExcept _).atStage .parse, fst_check]
    exact bind_congr fun _ => fst_atStage_ofExcept ..
  | xml =>
    have hcheck : ∀ root : Node, Reads (do
        check schema root.document.canonical
        Pure.pure root) := fun root => (reads_check schema _).bind fun _ => Reads.pure root
    have hnote : ∀ root : Node, Reads (do
        noteMarkup root
        check schema root.document.canonical
        Pure.pure root) := fun root => (Reads.notice _ _).bind fun _ => hcheck root
    rw [document, ((Reads.ofExcept _).atStage .parse).fst_bind hnote, fst_atStage_ofExcept]
    refine bind_congr fun root => ?_
    rw [noteMarkup, Work.debug, (Reads.notice _ _).fst_bind fun _ => hcheck root]
    refine ((reads_check schema _).fst_bind (fun _ => Reads.pure root) s).trans ?_
    rw [fst_check]
    rfl

/-- **What reading a document with a schema comes to.** -/
theorem treeOf_cases (schema : Option Schema) (text : String) (format : DocumentFormat) :
    (∃ root, treeOf schema text format = .ok root ∧ IsRead schema text format root) ∨
      ∃ stage f, treeOf schema text format = .error (.staged stage f) ∧
        IsNotRead schema text format stage f := by
  cases format with
  | json =>
    rw [treeOf]
    cases hj : Node.readJson text with
    | error f => exact .inr ⟨.parse, f, rfl, .noJson hj⟩
    | ok v =>
      obtain ⟨hpass, hc⟩ | ⟨sc, f, hsc, hv, hc⟩ := verdict_cases schema v
      · cases hn : Node.ofJson v with
        | error f =>
          exact .inr ⟨.parse, f, by simp [hc, hn, Except.mapError, bind, Except.bind],
            .noTree hj hpass hn⟩
        | ok root =>
          exact .inl ⟨root, by simp [hc, hn, Except.mapError, bind, Except.bind],
            .json hj hpass hn⟩
      · exact .inr ⟨.validate, f, by simp [hc, Except.mapError, bind, Except.bind],
          .refusedJson hj hsc hv⟩
  | xml =>
    rw [treeOf]
    cases hm : Node.ofMarkup .normalized text with
    | error f => exact .inr ⟨.parse, f, rfl, .noMarkup hm⟩
    | ok root =>
      obtain ⟨hpass, hc⟩ | ⟨sc, f, hsc, hv, hc⟩ := verdict_cases schema root.document.canonical
      · exact .inl ⟨root, by simp [hc, Except.mapError, bind, Except.bind, Pure.pure, Except.pure],
          .xml hm hpass⟩
      · exact .inr ⟨.validate, f, by simp [hc, Except.mapError, bind, Except.bind],
          .refusedMarkup hm hsc hv⟩

theorem IsNotRead.stage {schema : Option Schema} {stage : Stage} {f : Failure}
    (h : IsNotRead schema text format stage f) :
    (stage = .parse ∨ stage = .validate) ∧ f.stage? = none := by
  cases h with
  | noJson h => exact ⟨.inl rfl, Node.unstaged_readJson _ _ h⟩
  | refusedJson _ _ h => exact ⟨.inr rfl, Schema.unstaged_validate _ _ _ h⟩
  | noTree _ _ h => exact ⟨.inl rfl, Node.unstaged_ofJson _ _ h⟩
  | noMarkup h => exact ⟨.inl rfl, Node.unstaged_ofMarkup _ _ _ h⟩
  | refusedMarkup _ _ h => exact ⟨.inr rfl, Schema.unstaged_validate _ _ _ h⟩

/-- **What parsing comes to**: a tree, or a failure that is the first of the run. -/
theorem parse_cases (p : Pipeline) (text : String) (format : DocumentFormat) (s : Site) :
    (∃ root, (p.parse text format s).1 = .ok root ∧ p.Parses text format s root) ∨
      ∃ stage f, (p.parse text format s).1 = .error (.staged stage f) ∧
        (stage = .parse ∨ stage = .validate) ∧ ∀ mode, p.FailsFirst text format mode s stage f := by
  have hnote : ∀ root : Node, Reads (do
      Work.debug ("Built node tree with root <" ++ root.tag ++ ">")
      Pure.pure root) := fun root => (Reads.notice _ _).bind fun _ => Reads.pure root
  have hread : ∀ schema, Reads (do
      let root ← document schema text format
      Work.debug ("Built node tree with root <" ++ root.tag ++ ">")
      Pure.pure root) := fun schema => (reads_document schema text format).bind hnote
  rw [parse_eq, ((reads_schema? p).atStage .validate).fst_bind hread, Work.atStage_apply]
  cases hs : (p.schema? s).1 with
  | error f => exact .inr ⟨.validate, f, rfl, .inr rfl, fun _ => .schema hs⟩
  | ok schema =>
    change (∃ root, ((document schema text format >>= _) s).1 = _ ∧ _) ∨
      ∃ stage f, ((document schema text format >>= _) s).1 = _ ∧ _
    rw [(reads_document schema text format).fst_bind hnote, fst_document]
    obtain ⟨root, hr, hread⟩ | ⟨stage, f, hr, hfail⟩ := treeOf_cases schema text format
    · exact .inl ⟨root, by rw [hr]; rfl, schema, hs, hread⟩
    · exact .inr ⟨stage, f, by rw [hr]; rfl, hfail.stage.1, fun _ => .reading hs hfail⟩

theorem FailsFirst.unstaged {stage : Stage} {f : Failure}
    (h : p.FailsFirst text format mode s stage f) : f.stage? = none := by
  cases h with
  | schema h => exact unstaged_schema? p s f h
  | reading _ h => exact h.stage.2
  | rendering _ h => exact Node.unstaged_render _ _ _ s f h
  | writing _ h => exact unstaged_writeFile _ _ s f h
  | building _ _ h => exact unstaged_buildFile _ _ _ f h

/-! ### Rendering and writing -/

theorem render_congr (r : Repository) (n : Node) (mode : String) (hd : t.disk = s.disk)
    (hs : t.shelves = s.shelves) : (n.render r mode t).1 = (n.render r mode s).1 := by
  have hkeep : r.Keeps [] s t := .of_shelves hd hs
  rw [(n.render_apply r mode t).1, (n.render_apply r mode s).1, Inquiry.resultAt, hkeep.answer_eq,
    hkeep.shelfNames_nil, hd]
  rfl

theorem compile_apply (p : Pipeline) (root : Node) (mode : Option String) (s : Site) :
    (p.compile root mode s).1 =
        (root.render p.templates (p.modeOf mode) s).1.mapError (.staged .compile) ∧
      (p.compile root mode s).2.disk = s.disk := by
  obtain ⟨t, hnote, hd, hs⟩ : ∃ t, Work.info ("Compiling <" ++ root.tag ++ "> as '" ++
    p.modeOf mode ++ "'") s = (.ok (), t) ∧ t.disk = s.disk ∧ t.shelves = s.shelves :=
      ⟨_, rfl, rfl, rfl⟩
  have hcompile : p.compile root mode s =
      Work.atStage .compile (root.render p.templates (p.modeOf mode)) t := Work.bind_of_ok hnote
  rw [hcompile, Work.atStage_apply, render_congr _ _ _ hd hs]
  exact ⟨rfl, (root.render_apply p.templates (p.modeOf mode) t).2.trans hd⟩

/-- Writing, on a site with the disk of `s`. -/
theorem write_apply (p : Pipeline) (rendered : String) (hd : t.disk = s.disk) :
    (p.write rendered t).1 = ((writeFile p.config.output rendered s).1.mapError
        (.staged .write)).map (fun _ => p.config.output) ∧
      (p.write rendered t).2.disk = (writeFile p.config.output rendered s).2.disk := by
  obtain ⟨hr, hdisk⟩ := isLocal_writeFile p.config.output rendered t s hd
  have hstage := Work.atStage_apply .write (writeFile p.config.output rendered) t
  rw [← hr, ← hdisk]
  obtain ⟨r, u, hw⟩ : ∃ r u, writeFile p.config.output rendered t = (r, u) := ⟨_, _, rfl⟩
  rw [hw] at hstage ⊢
  cases r with
  | error f =>
    have hwrite : p.write rendered t = (.error (.staged .write f), u) := Work.bind_of_error hstage
    rw [hwrite]
    exact ⟨rfl, rfl⟩
  | ok _ =>
    have hwrite : p.write rendered t = _ := Work.bind_of_ok hstage
    rw [hwrite]
    exact ⟨rfl, rfl⟩

/-- **What writing comes to**: a failure that leaves at most new directories above the output, or the
output holds the text. -/
theorem write_cases (p : Pipeline) (rendered : String) (hd : t.disk = s.disk) :
    (∃ f u, p.write rendered t = (.error (.staged .write f), u) ∧
      (writeFile p.config.output rendered s).1 = .error f ∧
      Disk.GrowsAbove p.config.output s.disk u.disk) ∨
    ∃ u w, p.write rendered t = (.ok p.config.output, u) ∧
      writeFile p.config.output rendered s = (.ok (), w) ∧ u.disk = w.disk ∧
      Disk.Written p.config.output rendered s.disk w.disk := by
  have hwrite := write_apply p rendered hd
  obtain ⟨r, u, hu⟩ : ∃ r u, p.write rendered t = (r, u) := ⟨_, _, rfl⟩
  rw [hu] at hwrite ⊢
  obtain ⟨f, w, hw, hgrows⟩ | ⟨w, hw, hwritten⟩ := writeFile_cases p.config.output rendered s
  · rw [hw] at hwrite
    obtain ⟨rfl, hdu⟩ := hwrite
    refine .inl ⟨f, u, rfl, by rw [hw], ?_⟩
    rwa [show u.disk = w.disk from hdu]
  · rw [hw] at hwrite
    obtain ⟨rfl, hdu⟩ := hwrite
    exact .inr ⟨u, w, rfl, hw, hdu, hwritten⟩

/-- **What comes before the build**: a failure that is the first of the run, or the rendered text
stands in the output. -/
theorem compileText_cases (p : Pipeline) (text : String) (format : DocumentFormat)
    (mode : Option String) (s : Site) :
    (∃ stage f t, p.compileText text format mode s = (.error (.staged stage f), t) ∧
      p.FailsFirst text format mode s stage f ∧ stage ≠ .build ∧
      (stage ≠ .write → t.disk = s.disk) ∧ Disk.GrowsAbove p.config.output s.disk t.disk) ∨
    ∃ rendered t u, p.compileText text format mode s = (.ok p.config.output, u) ∧
      p.Renders text format mode s rendered ∧
      writeFile p.config.output rendered s = (.ok (), t) ∧ u.disk = t.disk ∧
      Disk.Written p.config.output rendered s.disk t.disk := by
  have hreads := reads_parse p text format
  obtain ⟨r, t, ht⟩ : ∃ r t, p.parse text format s = (r, t) := ⟨_, _, rfl⟩
  have hd : t.disk = s.disk := by simpa only [ht] using hreads.disk_eq s
  have hs : t.shelves = s.shelves := by simpa only [ht] using hreads.shelves_eq s
  have hparse := parse_cases p text format s
  rw [ht] at hparse
  obtain ⟨root, rfl, hroot⟩ | ⟨stage, f, rfl, hstage, hfirst⟩ := hparse
  · -- the tree is rendered on a site that differs in notices alone
    have hcompile := compile_apply p root mode t
    rw [render_congr _ _ _ hd hs, hd] at hcompile
    obtain ⟨r, u, hu⟩ : ∃ r u, p.compile root mode t = (r, u) := ⟨_, _, rfl⟩
    rw [hu] at hcompile
    cases hr : (root.render p.templates (p.modeOf mode) s).1 with
    | error f =>
      rw [hr] at hcompile
      obtain ⟨rfl, hdu⟩ := hcompile
      refine .inl ⟨.compile, f, u, ?_, .rendering hroot hr, by simp, fun _ => hdu, ?_⟩
      · exact (Work.bind_of_ok ht).trans (Work.bind_of_error hu)
      · rw [show u.disk = s.disk from hdu]
        exact .refl _ _
    | ok rendered =>
      rw [hr] at hcompile
      obtain ⟨rfl, hdu⟩ := hcompile
      have hrenders : p.Renders text format mode s rendered := ⟨root, hroot, hr⟩
      have hrun : p.compileText text format mode s = p.write rendered u :=
        (Work.bind_of_ok ht).trans (Work.bind_of_ok hu)
      rw [hrun]
      obtain ⟨f, v, hv, hf, hgrows⟩ | ⟨v, w, hv, hw, hdv, hwritten⟩ := write_cases p rendered hdu
      · exact .inl ⟨.write, f, v, hv, .writing hrenders hf, by simp, by simp, hgrows⟩
      · exact .inr ⟨rendered, w, v, hv, hrenders, hw, hdv, hwritten⟩
  · refine .inl ⟨stage, f, t, Work.bind_of_error ht, hfirst mode, ?_, fun _ => hd, ?_⟩
    · rcases hstage with rfl | rfl <;> simp
    · rw [hd]
      exact .refl _ _

/-! ### Whole runs -/

/-- A run with any work in the place of the build. -/
def runWith (p : Pipeline) (builder : Path → Work BuildReport) (text : String)
    (format : DocumentFormat) (mode : Option String) : Work Outcome := do
  let path ← p.compileText text format mode
  let report ← builder path
  pure ⟨path, report⟩

theorem run_eq_runWith (p : Pipeline) : p.run = p.runWith p.build := rfl

/-- **How a run may end** that begins on the site `s`. -/
structure Disciplined (p : Pipeline) (text : String) (format : DocumentFormat)
    (mode : Option String) (s : Site) (r : Except Failure Outcome × Site) : Prop where
  /-- A failure is the first one of the run, noted with its stage and no other. -/
  staged : ∀ f, r.1 = .error f → ∃ stage g, f = .staged stage g ∧ g.stage? = none ∧
    p.FailsFirst text format mode s stage g
  /-- Up to the stage that renders the disk is as it was. -/
  untouched : ∀ stage g, r.1 = .error (.staged stage g) →
    stage = .parse ∨ stage = .validate ∨ stage = .compile → r.2.disk = s.disk
  /-- Where writing fails nothing is built, and only directories above the output are new. -/
  unbuilt : ∀ g, r.1 = .error (.staged .write g) →
    (∀ builder, p.runWith builder text format mode s = r) ∧
      Disk.GrowsAbove p.config.output s.disk r.2.disk
  /-- Otherwise the output holds the rendered text, and the specification in it is built. -/
  built : (∀ stage g, r.1 = .error (.staged stage g) → stage = .build) → ∃ rendered t,
    p.Renders text format mode s rendered ∧
    writeFile p.config.output rendered s = (.ok (), t) ∧
    Disk.Written p.config.output rendered s.disk t.disk ∧
    (Specification.load p.config.output t).1 = (if p.config.output.hasExtension "xml" then
      Specification.ofMarkup rendered else Specification.parse rendered) ∧
    match (Specification.load p.config.output t).1 with
    | .error f => r.1 = .error (.staged .build f) ∧ r.2.disk = t.disk
    | .ok spec => r.2.disk = (spec.build p.config.buildRoot t).2.disk ∧
      r.1 = match (spec.build p.config.buildRoot t).1 with
        | .error f => .error (.staged .build f)
        | .ok report => .ok ⟨p.config.output, report⟩

/-- A specification is loaded, which keeps the disk, and is built. -/
theorem buildFile_apply (path root : Path) (t : Site) :
    match (Specification.load path t).1 with
    | .error f => (buildFile path root t).1 = .error f ∧ (buildFile path root t).2.disk = t.disk
    | .ok spec => (buildFile path root t).1 = (spec.build root t).1 ∧
      (buildFile path root t).2.disk = (spec.build root t).2.disk := by
  have hreads := Specification.reads_load path
  obtain ⟨r, u, hl⟩ : ∃ r u, Specification.load path t = (r, u) := ⟨_, _, rfl⟩
  have hd : u.disk = t.disk := by simpa only [hl] using hreads.disk_eq t
  rw [hl]
  cases r with
  | error f =>
    have hb : buildFile path root t = (.error f, u) := Work.bind_of_error hl
    rw [hb]
    exact ⟨rfl, hd⟩
  | ok spec =>
    have hb : buildFile path root t = spec.build root u := Work.bind_of_ok hl
    rw [hb]
    exact spec.isLocal_build root u t hd

/-- After the text has been written a run is the build of its specification. -/
theorem run_of_compileText (hc : p.compileText text format mode s = (.ok p.config.output, u))
    (hd : u.disk = t.disk) :
    (p.run text format mode s).2.disk =
        (buildFile p.config.output p.config.buildRoot t).2.disk ∧
      (p.run text format mode s).1 =
        match (buildFile p.config.output p.config.buildRoot t).1 with
        | .error f => .error (.staged .build f)
        | .ok report => .ok ⟨p.config.output, report⟩ := by
  have hstage := Work.atStage_apply .build (buildFile p.config.output p.config.buildRoot) u
  obtain ⟨hr, hdisk⟩ := isLocal_buildFile p.config.output p.config.buildRoot u t hd
  rw [← hr, ← hdisk]
  obtain ⟨r, v, hv⟩ : ∃ r v, buildFile p.config.output p.config.buildRoot u = (r, v) :=
    ⟨_, _, rfl⟩
  rw [hv] at hstage ⊢
  cases r with
  | error f =>
    have hrun : p.run text format mode s = (.error (.staged .build f), v) :=
      (Work.bind_of_ok hc).trans (Work.bind_of_error hstage)
    rw [hrun]
    exact ⟨rfl, rfl⟩
  | ok report =>
    have hrun : p.run text format mode s = (.ok ⟨p.config.output, report⟩, v) :=
      (Work.bind_of_ok hc).trans (Work.bind_of_ok hstage)
    rw [hrun]
    exact ⟨rfl, rfl⟩

/-- A run that fails before the build is disciplined, with any work in the place of the build. -/
theorem disciplined_of_error {stage : Stage} {f : Failure}
    (hc : p.compileText text format mode s = (.error (.staged stage f), t))
    (hfirst : p.FailsFirst text format mode s stage f) (hstage : stage ≠ .build)
    (hdisk : stage ≠ .write → t.disk = s.disk)
    (hgrows : Disk.GrowsAbove p.config.output s.disk t.disk) :
    p.Disciplined text format mode s (p.run text format mode s) := by
  have hrun : ∀ builder, p.runWith builder text format mode s =
    (.error (.staged stage f), t) := fun builder => Work.bind_of_error hc
  rw [run_eq_runWith, hrun]
  constructor
  · rintro _ ⟨⟩
    exact ⟨stage, f, rfl, hfirst.unstaged, hfirst⟩
  · rintro _ _ ⟨⟩ hearly
    exact hdisk (by rcases hearly with rfl | rfl | rfl <;> simp)
  · rintro _ ⟨⟩
    exact ⟨hrun, hgrows⟩
  · intro hbuild
    exact absurd (hbuild stage f rfl) hstage

/-- A run that comes to the build is disciplined. -/
theorem disciplined_of_written
    (hc : p.compileText text format mode s = (.ok p.config.output, u))
    (hrenders : p.Renders text format mode s rendered)
    (hw : writeFile p.config.output rendered s = (.ok (), t)) (hd : u.disk = t.disk)
    (hwritten : Disk.Written p.config.output rendered s.disk t.disk) :
    p.Disciplined text format mode s (p.run text format mode s) := by
  obtain ⟨hdisk, hresult⟩ := run_of_compileText hc hd
  have hbuild := buildFile_apply p.config.output p.config.buildRoot t
  -- a failure after the text has been written is a failure to build
  have hfails : ∀ f, (p.run text format mode s).1 = .error f → ∃ g, f = .staged .build g ∧
      (buildFile p.config.output p.config.buildRoot t).1 = .error g := by
    intro f hf
    rw [hresult] at hf
    cases hb : (buildFile p.config.output p.config.buildRoot t).1 with
    | error g =>
      rw [hb] at hf
      cases hf
      exact ⟨g, rfl, rfl⟩
    | ok report =>
      rw [hb] at hf
      cases hf
  constructor
  · intro f hf
    obtain ⟨g, rfl, hg⟩ := hfails f hf
    exact ⟨.build, g, rfl, (FailsFirst.building hrenders hw hg).unstaged,
      .building hrenders hw hg⟩
  · intro stage g hg hearly
    obtain ⟨_, heq, -⟩ := hfails _ hg
    cases heq
    simp at hearly
  · intro g hg
    obtain ⟨_, heq, -⟩ := hfails _ hg
    cases heq
  · intro _
    refine ⟨rendered, t, hrenders, hw, hwritten,
      Specification.load_of_readText hwritten.holds, ?_⟩
    cases hl : (Specification.load p.config.output t).1 with
    | error f =>
      rw [hl] at hbuild
      simp only at hbuild ⊢
      rw [hresult, hdisk, hbuild.1]
      exact ⟨rfl, hbuild.2⟩
    | ok spec =>
      rw [hl] at hbuild
      simp only at hbuild ⊢
      rw [hresult, hdisk, hbuild.1]
      exact ⟨hbuild.2, rfl⟩

/-- **Every run is disciplined.** -/
theorem disciplined_run (p : Pipeline) (text : String) (format : DocumentFormat)
    (mode : Option String) (s : Site) :
    p.Disciplined text format mode s (p.run text format mode s) := by
  obtain ⟨stage, f, t, hc, hfirst, hstage, hdisk, hgrows⟩ |
    ⟨rendered, t, u, hc, hrenders, hw, hd, hwritten⟩ := compileText_cases p text format mode s
  · exact disciplined_of_error hc hfirst hstage hdisk hgrows
  · exact disciplined_of_written hc hrenders hw hd hwritten

/-- **Stages of whole runs**, of texts and of files. A file that cannot be read fails the stage that
parses, and otherwise the run goes on from the text with the disk and the shelves as they were. -/
theorem run_disciplined (p : Pipeline) (mode : Option String) (s : Site) :
    (∀ text format, p.Disciplined text format mode s (p.run text format mode s)) ∧
    ∀ input,
      (∃ f t, readInput input s = (.error f, t) ∧ f.stage? = none ∧ t.disk = s.disk ∧
        p.runFile input mode s = (.error (.staged .parse f), t)) ∨
      ∃ text format t, readInput input s = (.ok (text, format), t) ∧ t.disk = s.disk ∧
        t.shelves = s.shelves ∧
        p.Disciplined text format mode t (p.runFile input mode s) := by
  refine ⟨fun text format => disciplined_run p text format mode s, fun input => ?_⟩
  have hreads := reads_readInput input
  have hstage := Work.atStage_apply .parse (readInput input) s
  obtain ⟨r, t, hr⟩ : ∃ r t, readInput input s = (r, t) := ⟨_, _, rfl⟩
  have hd : t.disk = s.disk := by simpa only [hr] using hreads.disk_eq s
  have hs : t.shelves = s.shelves := by simpa only [hr] using hreads.shelves_eq s
  rw [hr] at hstage
  cases r with
  | error f =>
    have hf : f.stage? = none := unstaged_readInput input s f (by rw [hr])
    exact .inl ⟨f, t, hr, hf, hd, Work.bind_of_error hstage⟩
  | ok input =>
    obtain ⟨text, format⟩ := input
    have hrun : p.runFile _ mode s = p.run text format mode t := Work.bind_of_ok hstage
    rw [hrun]
    exact .inr ⟨text, format, t, hr, hd, hs, disciplined_run p text format mode t⟩

end Pipeline

end Scaffold
