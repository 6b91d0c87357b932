import Scaffold.Config.Load
import Scaffold.Proofs.Disk.Changes
import Scaffold.Proofs.Work.Reads

/-!
# Settings on a disk that changes

Loading settings only reads (`reads_load`), and the settings of a directory are what they were after
a change of the disk that leaves the files apart in which settings are looked for (`load_congr`).
-/

namespace Scaffold

open Work (Reads)

/-- Where a path leads there is a text, or there is a reason why it cannot be read. -/
theorem Disk.readText_eq {d : Disk} {p : Path} {l : Location} (h : d.locate p = .ok l) :
    d.readText p = match d.view l with
      | some (.file (.text s)) => .ok s
      | some (.file (.binary _)) => .error .invalidText
      | some .directory => .error .isDirectory
      | none => .error .notFound := by
  rw [Disk.readText, h, view, DiskEntry.view]
  simp only [bind, Except.bind, at?]
  cases d.root.at? l with
  | none => rfl
  | some e =>
    cases e with
    | directory es => rfl
    | file c =>
      cases c with
      | link linked _ => cases linked
      | _ => rfl

namespace Work

variable {dir : Path} {names : List String} {s t : Site}

theorem reads_readFirst (dir : Path) (names : List String) : Reads (readFirst dir names) := by
  have hgo : ∀ rest, Reads (readFirst.go dir names rest) := by
    intro rest
    induction rest with
    | nil => exact (Reads.notice _ _).bind fun _ => Reads.pure none
    | cons n r ih =>
      refine Reads.disk.bind fun d => .ite ?_ ih
      exact (Reads.notice _ _).bind fun _ => (Reads.readText _).bind fun _ => Reads.pure _
  exact hgo names

theorem fst_readText (p : Path) (s : Site) :
    (Work.readText p s).1 = (s.disk.readText p).mapError .io := by
  have hdisk : disk s = (.ok s.disk, s) := rfl
  rw [Work.readText, bind_of_ok hdisk]
  cases s.disk.readText p <;> rfl

/-- The first file is read if it exists, and otherwise the next ones are looked for. -/
theorem fst_readFirst_go_cons (n : String) (r : List String) (s : Site) :
    (readFirst.go dir names (n :: r) s).1 =
      if s.disk.pathExists (dir.joinName n) then
        ((s.disk.readText (dir.joinName n)).mapError .io).map some
      else (readFirst.go dir names r s).1 := by
  have hdisk : disk s = (.ok s.disk, s) := rfl
  have hnote : Reads (debug ("Loading configuration from " ++ (dir.joinName n).text)) :=
    Reads.notice _ _
  have hsome : ∀ text, Reads (Pure.pure (some text) : Work (Option String)) := fun _ => .pure _
  have hread := Reads.readText (dir.joinName n)
  rw [readFirst.go, bind_of_ok hdisk]
  split_ifs
  · refine (hnote.fst_bind (fun _ => hread.bind hsome) s).trans ?_
    refine (hread.fst_bind hsome s).trans ?_
    rw [fst_readText]
    cases s.disk.readText (dir.joinName n) <;> rfl
  · rfl

/-- The first of some files, on two disks with the same files. -/
theorem readFirst_congr
    (h : ∀ n ∈ names, s.disk.pathExists (dir.joinName n) = t.disk.pathExists (dir.joinName n) ∧
      (t.disk.pathExists (dir.joinName n) = true →
        s.disk.readText (dir.joinName n) = t.disk.readText (dir.joinName n))) :
    (readFirst dir names s).1 = (readFirst dir names t).1 := by
  have hgo : ∀ rest, rest ⊆ names →
      (readFirst.go dir names rest s).1 = (readFirst.go dir names rest t).1 := by
    intro rest hrest
    induction rest with
    | nil => rfl
    | cons n r ih =>
      obtain ⟨hn, hr⟩ := List.cons_subset.1 hrest
      obtain ⟨hexists, hread⟩ := h n hn
      rw [fst_readFirst_go_cons, fst_readFirst_go_cons, hexists, ih hr]
      split_ifs with he
      · rw [hread he]
      · rfl
  exact hgo names (List.Subset.refl _)

end Work

namespace Config

/-- The settings of the text of a file, if there is one. -/
def ofFile? (text : Option String) : Except Failure Config :=
  match text with
  | none => .ok standard
  | some text => ofFile text

theorem load_eq (dir : Path) :
    (load dir : Work Config) =
      Work.readFirst dir fileNames >>= fun text => Work.ofExcept (ofFile? text) := by
  refine bind_congr fun text => ?_
  cases text <;> rfl

theorem reads_load (dir : Path) : Reads (load dir) := by
  rw [load_eq]
  exact (Work.reads_readFirst dir fileNames).bind fun _ => Reads.ofExcept _

theorem plainName_of_mem_fileNames {n : String} (h : n ∈ fileNames) : PlainName n := by
  have hplain : ∀ n ∈ fileNames, isPlainSegment n = true := by decide
  exact isPlainSegment_iff.1 (hplain n h)

/-- **Files of settings that a change leaves apart**: none of them is where something has changed,
and the path of their directory does not go up out of something new. -/
structure Apart (dir : Path) (S : Path → Prop) (d e : Disk) : Prop where
  elsewhere : ∀ q, S q → ∀ n ∈ fileNames, ∀ l, e.locate q = .ok l →
    e.locate (dir.joinName n) ≠ .ok l
  upward : Disk.GoesUpFrom d e (e.origin dir) dir.names

/-- Places can be compared one by one, for a list that holds all that the path lies in. -/
theorem elsewhere_of_mem {dir p : Path} {e : Disk} {chain : List Path} (hp : p ∈ chain)
    (hchain : ∀ q ∈ chain, ∀ r ∈ q.parent?, r ∈ chain)
    (h : ∀ q ∈ chain, ∀ n ∈ fileNames, (e.locate q).isOk = true →
      (e.locate q).toOption ≠ (e.locate (dir.joinName n)).toOption) :
    ∀ q, p.LiesIn q → ∀ n ∈ fileNames, ∀ l, e.locate q = .ok l →
      e.locate (dir.joinName n) ≠ .ok l := by
  intro q hq n hn l hl hl'
  refine h q (hq.mem hp hchain) n hn ?_ ?_
  · rw [hl]; rfl
  · rw [hl, hl']

/-- **The settings are what they were** after a change that leaves their files apart. -/
theorem load_congr {dir : Path} {S : Path → Prop} {s t : Site}
    (hchange : Disk.ChangesAt S s.disk t.disk) (h : Apart dir S s.disk t.disk) :
    (load dir t).1 = (load dir s).1 := by
  have hfirst : (Work.readFirst dir fileNames t).1 = (Work.readFirst dir fileNames s).1 := by
    refine Work.readFirst_congr fun n hn => ?_
    have hfile := fun l => hchange.locate_iff (l := l) (plainName_of_mem_fileNames hn) h.upward
      fun q l hq => h.elsewhere q hq n hn l
    refine ⟨Bool.eq_iff_iff.2 ?_, fun hexists => ?_⟩
    · simp only [Disk.pathExists_iff, (hfile _).1]
    · obtain ⟨l, hl⟩ := Disk.pathExists_iff.1 hexists
      have hl' := (hfile l).1.2 hl
      rw [Disk.readText_eq hl, Disk.readText_eq hl', (hfile l).2 hl']
  have hfile : ∀ text, Reads (Work.ofExcept (ofFile? text)) := fun _ => Reads.ofExcept _
  have hread := Work.reads_readFirst dir fileNames
  rw [load_eq, hread.fst_bind hfile, hread.fst_bind hfile, hfirst]
  simp only [Work.fst_ofExcept]

end Config

end Scaffold
