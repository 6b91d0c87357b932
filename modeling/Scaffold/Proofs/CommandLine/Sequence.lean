import Scaffold.CommandLine.Program
import Scaffold.Proofs.Config.Load
import Scaffold.Proofs.Pipeline.Effects

/-!
# Running as compiling and building

To run a document is to compile it and, where that succeeds, to build the file that has been written
(`execute_run`). The settings are read once more for the build, so that this takes files of settings
that the compilation leaves apart.
-/

namespace Scaffold.CommandLine

open Work (Reads Silent Local)

variable {α : Type}

/-! ### What is printed -/

theorem forM_print (xs : List α) (f : α → String) (s : Site) :
    (xs.forM fun x => Work.print (f x)) s =
      (.ok (), { s with lines := (xs.map f).reverse ++ s.lines }) := by
  induction xs generalizing s with
  | nil => rfl
  | cons x xs ih =>
    have hprint : Work.print (f x) s = (.ok (), { s with lines := f x :: s.lines }) := rfl
    refine (Work.bind_of_ok hprint).trans ((ih _).trans ?_)
    simp

/-- What is printed about a build. -/
def reportLines (r : BuildReport) : List String :=
  r.steps.map BuildStep.line ++ ["Project structure generated in " ++ r.basePath.text ++ "."]

theorem printReport_apply (r : BuildReport) (s : Site) :
    printReport r s = (.ok (), { s with lines := (reportLines r).reverse ++ s.lines }) := by
  rw [printReport, Work.bind_of_ok (forM_print r.steps BuildStep.line s)]
  simp [reportLines, Work.print]

theorem printGenerated_apply (p : Path) (s : Site) : printGenerated p s =
    (.ok (), { s with lines := ("File generated at: " ++ p.text) :: s.lines }) := rfl

/-! ### Compiling -/

/-- What compiling and running have in common: a document is rendered, and the text is written. -/
def CompileArguments.generate (a : CompileArguments) (c : Config) : Work Path := do
  let p ← Pipeline.open (a.apply c)
  let (text, format) ← Work.atStage .parse (readInput a.input)
  p.compileText text format none

variable (a : CompileArguments) (root : Option Path) (c : Config)

theorem perform_compile : (Command.compile a).perform c = a.generate c >>= printGenerated := by
  simp only [Command.perform, CompileArguments.generate, bind_assoc]

theorem perform_run : (Command.run a root).perform c = (do
    let path ← a.generate c
    let report ← Work.atStage .build (buildFile path (root.getD c.buildRoot))
    printGenerated path
    printReport report) := by
  simp only [Command.perform, CompileArguments.generate, bind_assoc, Pipeline.open, pure_bind,
    Pipeline.runFile, Pipeline.run]
  rfl

theorem perform_build (specification : Path) :
    ((Command.build specification root).perform c : Work Unit) =
      Work.atStage .build (buildFile specification (root.getD c.buildRoot)) >>= printReport := rfl

theorem silent_generate : Silent (a.generate c) :=
  ((Repository.silent_open _).bind fun _ => (Reads.pure _).silent).bind fun p =>
    ((reads_readInput a.input).atStage .parse).silent.bind fun (text, format) =>
      p.silent_compileText text format none

variable {a c} {path : Path} {s t : Site}

/-- **Where compiling succeeds** the output has been written, and the disk has changed only there. -/
theorem generate_eq_ok (h : a.generate c s = (.ok path, t)) :
    path = (a.apply c).output ∧ Disk.ChangesAt path.LiesIn s.disk t.disk := by
  obtain ⟨p, s₁, hopen, h⟩ := Work.exists_of_bind_eq_ok h
  obtain ⟨⟨text, format⟩, s₂, hinput, h⟩ := Work.exists_of_bind_eq_ok h
  obtain ⟨hconfig, hd₁⟩ := Pipeline.open_eq_ok hopen
  have hd₂ := ((reads_readInput a.input).atStage .parse).disk_eq s₁
  rw [hinput] at hd₂
  obtain ⟨rfl, hchange⟩ := Pipeline.compileText_eq_ok h
  rw [hconfig] at hchange ⊢
  rw [← hd₁, ← hd₂]
  exact ⟨rfl, hchange⟩

/-! ### Invocations -/

/-- The path that is written to, where the settings can be read. -/
def CompileArguments.outputOn? (a : CompileArguments) (config : Option Path) (d : Disk) :
    Option Path :=
  match (Config.load (config.getD standardDirectory) (.on d)).1 with
  | .ok c => some (a.apply c).output
  | .error _ => none

/-- Two invocations that have ended one after the other. -/
def Ending.followedBy (x y : Ending) : Ending :=
  { y with lines := x.lines ++ y.lines, notices := x.notices ++ y.notices }

/-- What comes of an invocation after which there is another one, unless it has failed. -/
def Ending.andThen (x : Ending) : Option Invocation → Ending
  | none => x
  | some i => if x.failure.isSome then x else x.followedBy (i.execute x.disk)

theorem Ending.andThen_of_failure {x : Ending} {f : Failure} (h : x.failure = some f)
    (next? : Option Invocation) : x.andThen next? = x := by
  cases next? with
  | none => rfl
  | some i => exact if_pos (by simp [h])

theorem Ending.andThen_some {x : Ending} (h : x.failure = none) (i : Invocation) :
    x.andThen (some i) = x.followedBy (i.execute x.disk) := if_neg (by simp [h])

/-- `compile`, and then `build` of the file that it has written, if it has written one. -/
def compileThenBuild (verbose : Bool) (config : Option Path) (a : CompileArguments)
    (root : Option Path) (d : Disk) : Ending :=
  (Invocation.execute ⟨verbose, config, .compile a⟩ d).andThen
    ((a.outputOn? config d).map fun output => ⟨verbose, config, .build output root⟩)

/-- **The same outcome**: the same failure or success, the same disk, and where it is a success the
same lines. -/
structure Ending.Matches (x y : Ending) : Prop where
  code : x.code = y.code
  failure : x.failure = y.failure
  disk : x.disk = y.disk
  lines : x.failure = none → x.lines = y.lines

theorem execute_of_ok {i : Invocation} {d : Disk} {u : Unit} (h : i.perform (.on d) = (.ok u, t)) :
    i.execute d = ⟨0, t.lines.reverse, shown i.verbose t.notices.reverse, none, t.disk⟩ := by
  rw [Invocation.execute, h]
  rfl

theorem execute_of_error {i : Invocation} {d : Disk} {f : Failure}
    (h : i.perform (.on d) = (.error f, t)) :
    i.execute d = ⟨1, t.lines.reverse, shown i.verbose t.notices.reverse, some f, t.disk⟩ := by
  rw [Invocation.execute, h]
  rfl

section

variable (verbose : Bool) {config : Option Path} (root : Option Path) {a : CompileArguments}
variable {d : Disk} {f : Failure}

/-- Where both fail alike before the build, nothing more is done. -/
theorem matches_of_error
    (hcompile : Invocation.perform ⟨verbose, config, .compile a⟩ (.on d) = (.error f, t))
    (hrun : Invocation.perform ⟨verbose, config, .run a root⟩ (.on d) = (.error f, t)) :
    Ending.Matches (Invocation.execute ⟨verbose, config, .run a root⟩ d)
      (compileThenBuild verbose config a root d) := by
  rw [execute_of_error hrun, compileThenBuild, execute_of_error hcompile,
    Ending.andThen_of_failure rfl]
  exact ⟨rfl, rfl, rfl, fun _ => rfl⟩

section

variable {c : Config} (hload : Config.load (config.getD standardDirectory) (.on d) = (.ok c, s))

include hload

theorem outputOn?_of_load : a.outputOn? config d = some (a.apply c).output := by
  rw [CompileArguments.outputOn?, hload]

/-- With its settings an invocation does what its command asks for. -/
theorem perform_of_load (command : Command) :
    Invocation.perform ⟨verbose, config, command⟩ (.on d) = command.perform c s :=
  Work.bind_of_ok hload

theorem perform_of_generate_error (hgenerate : a.generate c s = (.error f, t)) :
    Invocation.perform ⟨verbose, config, .compile a⟩ (.on d) = (.error f, t) ∧
      Invocation.perform ⟨verbose, config, .run a root⟩ (.on d) = (.error f, t) := by
  rw [perform_of_load verbose hload, perform_of_load verbose hload, perform_compile, perform_run]
  exact ⟨Work.bind_of_error hgenerate, Work.bind_of_error hgenerate⟩

theorem perform_of_generate_ok (hgenerate : a.generate c s = (.ok path, t)) :
    Invocation.perform ⟨verbose, config, .compile a⟩ (.on d) = printGenerated path t ∧
      Invocation.perform ⟨verbose, config, .run a root⟩ (.on d) = (do
        let report ← Work.atStage .build (buildFile path (root.getD c.buildRoot))
        printGenerated path
        printReport report) t := by
  rw [perform_of_load verbose hload, perform_of_load verbose hload, perform_compile, perform_run]
  exact ⟨Work.bind_of_ok hgenerate, Work.bind_of_ok hgenerate⟩

/-- Where compiling succeeds, the build does on its disk what is left of the run. -/
theorem matches_of_ok {u : Site} (hgenerate : a.generate c s = (.ok path, t))
    (hagain : Config.load (config.getD standardDirectory) (.on t.disk) = (.ok c, u)) :
    Ending.Matches (Invocation.execute ⟨verbose, config, .run a root⟩ d)
      (compileThenBuild verbose config a root d) := by
  have hreads := Config.reads_load (config.getD standardDirectory)
  have ht : t.lines = [] :=
    ((silent_generate a c).lines_eq hgenerate).trans (hreads.silent.lines_eq hload)
  have hu : u.lines = [] := hreads.silent.lines_eq hagain
  have hd : u.disk = t.disk := by
    have hd := hreads.disk_eq (.on t.disk)
    rwa [hagain] at hd
  -- the build has the same outcome on the site of the run and on a site of its own
  have hsilent := (silent_buildFile path (root.getD c.buildRoot)).atStage .build
  obtain ⟨r, v, w, hv, hw, hdisk, hvl, hwl⟩ :=
    hsilent.outcomes ((isLocal_buildFile path (root.getD c.buildRoot)).atStage .build) hd.symm
  rw [ht] at hvl
  rw [hu] at hwl
  obtain ⟨hcompile, hrun⟩ :=
    perform_of_generate_ok verbose root hload hgenerate
  have hbuild := perform_of_load verbose hagain (.build path root)
  rw [perform_build] at hbuild
  rw [compileThenBuild, execute_of_ok hcompile, outputOn?_of_load hload,
    ← (generate_eq_ok hgenerate).1, Option.map_some, Ending.andThen_some rfl]
  cases r with
  | error f =>
    have hbuilt : Invocation.execute ⟨verbose, config, .build path root⟩ t.disk = _ :=
      execute_of_error (hbuild.trans (Work.bind_of_error hw))
    rw [execute_of_error (hrun.trans (Work.bind_of_error hv)), hbuilt]
    exact ⟨rfl, rfl, hdisk, fun h => nomatch h⟩
  | ok report =>
    have hbuilt : Invocation.execute ⟨verbose, config, .build path root⟩ t.disk = _ :=
      execute_of_ok (hbuild.trans ((Work.bind_of_ok hw).trans (printReport_apply report w)))
    rw [execute_of_ok (hrun.trans ((Work.bind_of_ok hv).trans
      ((Work.bind_of_ok (printGenerated_apply path v)).trans (printReport_apply report _)))), hbuilt]
    refine ⟨rfl, rfl, hdisk, fun _ => ?_⟩
    simp [Ending.followedBy, hvl, hwl, ht]

end

/-- **Running is compiling and then building**, if the compilation leaves the files of settings
apart. -/
theorem execute_run (verbose : Bool) (config : Option Path) (a : CompileArguments)
    (root : Option Path) (d : Disk)
    (h : ∀ output, a.outputOn? config d = some output →
      Config.Apart (config.getD standardDirectory) output.LiesIn d
        (Invocation.execute ⟨verbose, config, .compile a⟩ d).disk) :
    Ending.Matches (Invocation.execute ⟨verbose, config, .run a root⟩ d)
      (compileThenBuild verbose config a root d) := by
  obtain ⟨r, s, hload⟩ : ∃ r s, Config.load (config.getD standardDirectory) (.on d) = (r, s) :=
    ⟨_, _, rfl⟩
  cases r with
  | error f =>
    exact matches_of_error verbose root (Work.bind_of_error hload) (Work.bind_of_error hload)
  | ok c =>
    obtain ⟨r, t, hgenerate⟩ : ∃ r t, a.generate c s = (r, t) := ⟨_, _, rfl⟩
    cases r with
    | error f =>
      obtain ⟨hcompile, hrun⟩ := perform_of_generate_error verbose root hload hgenerate
      exact matches_of_error verbose root hcompile hrun
    | ok path =>
      obtain ⟨hpath, hchange⟩ := generate_eq_ok hgenerate
      have hd : s.disk = d := by
        have hd := (Config.reads_load (config.getD standardDirectory)).disk_eq (.on d)
        rwa [hload] at hd
      have hapart := h path (by rw [outputOn?_of_load hload, hpath])
      rw [execute_of_ok (perform_of_generate_ok verbose root hload hgenerate).1] at hapart
      -- the settings are the same ones when they are read again
      have hsettings := Config.load_congr (s := .on d) (t := .on t.disk) (hd ▸ hchange) hapart
      rw [hload] at hsettings
      obtain ⟨r, u, hagain⟩ : ∃ r u,
        Config.load (config.getD standardDirectory) (.on t.disk) = (r, u) := ⟨_, _, rfl⟩
      rw [hagain] at hsettings
      obtain rfl : r = .ok c := hsettings
      exact matches_of_ok verbose root hload hgenerate hagain

end

/-- A working directory with a document, the template for it, and settings. -/
def sampleDisk : Disk where
  root := .directory [("work", .directory [
    ("doc.xml", .file (.text "<a/>")),
    ("templates", .directory [("templates", .directory [("a", .directory [
      ("default.jinja", .file (.text
        ("<p><project_name>p</project_name><output_dir>o</output_dir><structure/></p>")))])])]),
    ("trellis.json", .file (.text "\x7b\"build_root\":\"elsewhere\"\x7d"))])]
  home := ["work"]

def sampleArguments : CompileArguments := ⟨⟨"doc.xml"⟩, none, none, none, true⟩

/-- The standard output and its parent directories. -/
def sampleChain : List Path := [Config.standard.output, ⟨"output"⟩, ⟨""⟩]

theorem parent_mem_sampleChain : ∀ q ∈ sampleChain, ∀ r ∈ q.parent?, r ∈ sampleChain := by decide

theorem execute_run_sample :
    (Invocation.execute ⟨false, none, .run sampleArguments none⟩ sampleDisk).failure.isNone ∧
      Ending.Matches (Invocation.execute ⟨false, none, .run sampleArguments none⟩ sampleDisk)
        (compileThenBuild false none sampleArguments none sampleDisk) := by
  have houtput : sampleArguments.outputOn? none sampleDisk = some Config.standard.output := by
    decide +kernel
  refine ⟨by decide +kernel, execute_run false none sampleArguments none sampleDisk ?_⟩
  intro output h
  obtain rfl : Config.standard.output = output := Option.some.inj (houtput.symm.trans h)
  refine ⟨Config.elsewhere_of_mem (by decide) parent_mem_sampleChain ?_,
    .of_not_mem (by decide)⟩
  decide +kernel

/-- Settings in a directory whose path goes up out of the one that compiling makes: they are found
only when they are read again. -/
theorem execute_run_above_new :
    (∀ output, sampleArguments.outputOn? (some ⟨"output/.."⟩) sampleDisk = some output →
      ∀ q, output.LiesIn q → ∀ n ∈ Config.fileNames, ∀ l,
        (Invocation.execute ⟨false, some ⟨"output/.."⟩, .compile sampleArguments⟩
          sampleDisk).disk.locate q = .ok l →
        (Invocation.execute ⟨false, some ⟨"output/.."⟩, .compile sampleArguments⟩
          sampleDisk).disk.locate (Path.joinName ⟨"output/.."⟩ n) ≠ .ok l) ∧
    ¬ Ending.Matches
      (Invocation.execute ⟨false, some ⟨"output/.."⟩, .run sampleArguments none⟩ sampleDisk)
      (compileThenBuild false (some ⟨"output/.."⟩) sampleArguments none sampleDisk) := by
  have houtput : sampleArguments.outputOn? (some ⟨"output/.."⟩) sampleDisk =
    some Config.standard.output := by decide +kernel
  constructor
  · intro output h
    obtain rfl : Config.standard.output = output := Option.some.inj (houtput.symm.trans h)
    exact Config.elsewhere_of_mem (by decide) parent_mem_sampleChain
      (by decide +kernel)
  · intro h
    have hrun : (Invocation.execute ⟨false, some ⟨"output/.."⟩, .run sampleArguments none⟩
      sampleDisk).disk.isDirectory ⟨"o"⟩ = true := by decide +kernel
    have hturn : (compileThenBuild false (some ⟨"output/.."⟩) sampleArguments none
      sampleDisk).disk.isDirectory ⟨"o"⟩ = false := by decide +kernel
    have hsame := congrArg (Disk.isDirectory · ⟨"o"⟩) h.disk
    exact Bool.noConfusion (hrun.symm.trans (hsame.trans hturn))

end Scaffold.CommandLine
