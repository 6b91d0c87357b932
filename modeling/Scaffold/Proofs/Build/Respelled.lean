import Scaffold.Proofs.Build.Blocked
import Scaffold.Proofs.Disk.Respelled
import Scaffold.Proofs.Store.Interchange

/-!
# Building specifications that are the same

Specifications that are the same may spell their output directories differently. Two runs of a build
are compared step by step (`SameEnd`): the disks are equal after each, and both fail alike, or both
go on. The base path leads to the same place in either spelling, and so does every item below it. The
one thing that the spelling decides is whether a path is too long for the disk; where no path is in
one spelling only, the builds come to the same (`Specification.build_of_same`).
-/

namespace Scaffold

/-! ### Ends of two runs -/

/-- **The same failure**, at a path that may be spelled differently. -/
inductive Failure.Respelled : Failure → Failure → Prop
  | specification (detail : String) : Respelled (.specification detail) (.specification detail)
  | conflict {p q : Path} (reason : String) (h : p.same q = true) :
    Respelled (.conflict p reason) (.conflict q reason)
  | ioFailure {p q : Path} (fault : IoFault) (h : p.same q = true) :
    Respelled (.ioFailure p fault) (.ioFailure q fault)

/-- Two results are values that are related, or the same failure. -/
inductive SameResult {α β : Type} (R : α → β → Prop) : Except Failure α → Except Failure β → Prop
  | ok {a : α} {b : β} (h : R a b) : SameResult R (.ok a) (.ok b)
  | error {f g : Failure} (h : f.Respelled g) : SameResult R (.error f) (.error g)

/-- **Two runs end the same**: with equal disks, and with results that are. -/
structure SameEnd {α β : Type} (R : α → β → Prop) (x : Except Failure α × Site)
    (y : Except Failure β × Site) : Prop where
  disk : x.2.disk = y.2.disk
  result : SameResult R x.1 y.1

section

variable {α β γ δ : Type} {R : α → β → Prop} {S : γ → δ → Prop} {m : Work α} {n : Work β}
  {k : α → Work γ} {l : β → Work δ} {s t : Site}

/-- Runs that end the same, and then go on to the same end. -/
theorem SameEnd.bind (h : SameEnd R (m s) (n t))
    (hrest : ∀ a b u v, m s = (.ok a, u) → n t = (.ok b, v) → u.disk = v.disk → R a b →
      SameEnd S (k a u) (l b v)) : SameEnd S ((m >>= k) s) ((n >>= l) t) := by
  obtain ⟨x, u, hm⟩ : ∃ x u, m s = (x, u) := ⟨_, _, rfl⟩
  obtain ⟨y, v, hn⟩ : ∃ y v, n t = (y, v) := ⟨_, _, rfl⟩
  obtain ⟨hdisk, hresult⟩ := h
  rw [hm, hn] at hdisk hresult
  cases hresult with
  | ok hab =>
    rw [Work.bind_of_ok hm, Work.bind_of_ok hn]
    exact hrest _ _ u v hm hn hdisk hab
  | error hf =>
    rw [Work.bind_of_error hm, Work.bind_of_error hn]
    exact ⟨hdisk, .error hf⟩

theorem SameEnd.pure {a : α} {b : β} (hdisk : s.disk = t.disk) (h : R a b) :
    SameEnd R ((Pure.pure a : Work α) s) ((Pure.pure b : Work β) t) := ⟨hdisk, .ok h⟩

/-- Remarks on the way are no part of how a run ends. -/
theorem SameEnd.notice_bind {level : NoticeLevel} {x y : String} (k : Work γ) (l : Work δ)
    (h : ∀ s t : Site, s.disk = t.disk → SameEnd S (k s) (l t)) (hdisk : s.disk = t.disk) :
    SameEnd S ((Work.notice level x >>= fun _ => k) s) ((Work.notice level y >>= fun _ => l) t) :=
  h _ _ hdisk

end

/-! ### Specifications that are the same -/

namespace LayoutEntry

mutual

theorem eq_of_same : (a b : LayoutEntry) → a.same b = true → a = b
  | .directory n c, .directory m d, h => by
    rw [same, Bool.and_eq_true, beq_iff_eq] at h
    rw [h.1, eq_of_sameList c d h.2]
  | .file n c, .file m d, h => by
    rw [same, Bool.and_eq_true, beq_iff_eq, beq_iff_eq] at h
    rw [h.1, h.2]
  | .directory _ _, .file _ _, h => by simp [same] at h
  | .file _ _, .directory _ _, h => by simp [same] at h

theorem eq_of_sameList : (a b : List LayoutEntry) → sameList a b = true → a = b
  | [], [], _ => rfl
  | x :: r, y :: s, h => by
    rw [sameList, Bool.and_eq_true] at h
    rw [eq_of_same x y h.1, eq_of_sameList r s h.2]
  | [], _ :: _, h => by simp [sameList] at h
  | _ :: _, [], h => by simp [sameList] at h

end

end LayoutEntry

/-- The same step, at a path that may be spelled differently. -/
structure BuildStep.Same (a b : BuildStep) : Prop where
  kind : a.kind = b.kind
  path : a.path.same b.path = true

/-- **The same report**: the paths in it are the same, and so are the kinds of the steps. -/
structure BuildReport.Same (a b : BuildReport) : Prop where
  basePath : a.basePath.same b.basePath = true
  steps : List.Forall₂ BuildStep.Same a.steps b.steps

/-! ### Items -/

namespace Build

open LayoutItem (Rest RestsOn)

variable {base base' p q : Path} {place l : Location} {i : LayoutItem} {n : String}
variable {done rest : List LayoutItem} {s t u : Site}

/-- **The spelling does not decide whether the path of an item is too long.** -/
def LimitAlike (base base' : Path) (i : LayoutItem) : Prop :=
  Disk.pathLimit ≤ Text.byteLength (i.path base).text.toList ↔
    Disk.pathLimit ≤ Text.byteLength (i.path base').text.toList

theorem LimitAlike.tooLong_iff (h : LimitAlike base base' i) :
    Disk.TooLong (base.joinNames i.lead) i.name ↔ Disk.TooLong (base'.joinNames i.lead) i.name := by
  rw [LimitAlike, path_eq_joinName, path_eq_joinName] at h
  rw [Disk.TooLong, Disk.TooLong, h]

theorem same_step (h : base.same base' = true) (i : LayoutItem) :
    (i.step base).Same (i.step base') := ⟨rfl, Path.same_joinNames h i.names⟩

/-- **Making the directory of a name** below two spellings of a path. -/
theorem sameEnd_makeDirectory (hsame : p.same q = true) (hn : PlainName n)
    (hc : Disk.check (p.joinName n) = Disk.check (q.joinName n)) (hdisk : s.disk = t.disk) :
    SameEnd (fun _ _ => True) (Build.makeDirectory (p.joinName n) s)
      (Build.makeDirectory (q.joinName n) t) := by
  have hpath : (p.joinName n).same (q.joinName n) = true := Path.same_join_right hsame ⟨n⟩
  have hrespelled : Path.Respelled (p.joinName n) (q.joinName n) :=
    ⟨hpath, Path.trimmed_joinName hn, Path.trimmed_joinName hn⟩
  have hentry : t.disk.entry? (p.joinName n) = t.disk.entry? (q.joinName n) := by
    rw [Disk.entry?, Disk.entry?, Disk.locate_joinName_of_same hsame hn hc]
  rw [makeDirectory_apply, makeDirectory_apply, Work.makeDirectories_apply,
    Work.makeDirectories_apply, hdisk, Disk.makeDirectories_of_respelled hrespelled hc,
    Disk.pathExists, Disk.isDirectory, hentry, ← Disk.isDirectory, ← Disk.pathExists]
  split
  · exact ⟨hdisk, .error (.conflict _ hpath)⟩
  · refine ⟨rfl, ?_⟩
    cases (t.disk.makeDirectories (q.joinName n)).2 with
    | none => exact .ok trivial
    | some f => exact .error (.ioFailure f hpath)

/-- **Writing the file of a name** below two spellings of a path that lead to the same place. -/
theorem sameEnd_writeFile (hp : s.disk.Leads p l) (hq : t.disk.Leads q l) (hn : PlainName n)
    (hsame : (p.joinName n).same (q.joinName n) = true)
    (hlong : Disk.TooLong p n ↔ Disk.TooLong q n) (hdisk : s.disk = t.disk) (c : String) :
    SameEnd (fun _ _ => True) (Build.writeFile (p.joinName n) c s)
      (Build.writeFile (q.joinName n) c t) := by
  rw [writeFile_joinName hp hn, writeFile_joinName hq hn]
  simp only [← hlong, hdisk]
  split
  · exact ⟨hdisk, .error (.ioFailure _ hsame)⟩
  · split
    · exact ⟨hdisk, .error (.conflict _ hsame)⟩
    · exact ⟨rfl, .ok trivial⟩

/-- **Making one item** below two spellings of a path that lead to the same place. -/
theorem sameEnd_makeItem (hsame : base.same base' = true) (hlimit : LimitAlike base base' i)
    (hs : s.disk.Leads (base.joinNames i.lead) l) (ht : t.disk.Leads (base'.joinNames i.lead) l)
    (hn : PlainName i.name) (hdisk : s.disk = t.disk) :
    SameEnd (List.Forall₂ BuildStep.Same) (makeItem base i s) (makeItem base' i t) := by
  have hpath : (i.path base).same (i.path base') = true := Path.same_joinNames hsame i.names
  have hcheck := Disk.check_of_same hpath hlimit
  have hend : ∀ s t : Site, s.disk = t.disk → SameEnd (List.Forall₂ BuildStep.Same)
      ((Pure.pure [i.step base] : Work (List BuildStep)) s)
      ((Pure.pure [i.step base'] : Work (List BuildStep)) t) := fun _ _ h =>
    .pure h (.cons (same_step hsame i) .nil)
  rw [path_eq_joinName, path_eq_joinName] at hpath hcheck
  rw [makeItem, makeItem, path_eq_joinName, path_eq_joinName]
  cases i.content? with
  | none =>
    have hmake := sameEnd_makeDirectory (Path.same_joinNames hsame i.lead) hn hcheck hdisk
    exact hmake.bind fun _ _ u v _ _ huv _ => SameEnd.notice_bind _ _ hend huv
  | some c =>
    have hwrite := sameEnd_writeFile hs ht hn hpath hlimit.tooLong_iff hdisk c
    exact hwrite.bind fun _ _ u v _ _ huv _ => SameEnd.notice_bind _ _ hend huv

/-- The ground for the items after one that has been made. -/
theorem Ground.of_makeItem {steps : List BuildStep} (hg : Ground base place done s.disk)
    (hi : i.RestsOn done) (hn : PlainName i.name) (h : makeItem base i s = (.ok steps, u)) :
    Ground base place (done ++ [i]) u.disk := by
  rcases makeItem_cases (hg.leads hi) hn with ⟨f, hfail⟩ | ⟨-, hfail⟩ | ⟨v, hok, hput, hleads⟩
  · rw [hfail] at h
    cases h
  · rw [hfail] at h
    cases h
  · rw [hok] at h
    obtain ⟨-, rfl⟩ := Prod.mk.inj h
    refine hg.step hput fun hc => ?_
    rw [LayoutItem.names, ← List.append_assoc]
    exact hleads hc

/-- **Making items one after the other** below two spellings of a path. -/
theorem sameEnd_makeItems (hsame : base.same base' = true)
    (hs : Ground base place done s.disk) (ht : Ground base' place done t.disk)
    (hrest : Rest done rest) (hn : ∀ i ∈ rest, PlainName i.name)
    (hlimit : ∀ i ∈ rest, LimitAlike base base' i) (hdisk : s.disk = t.disk) :
    SameEnd (List.Forall₂ BuildStep.Same) (makeItems base rest s) (makeItems base' rest t) := by
  induction rest generalizing done s t with
  | nil => exact .pure hdisk .nil
  | cons i r ih =>
    obtain ⟨hi, hr⟩ := hrest
    rw [List.forall_mem_cons] at hn hlimit
    rw [makeItems, makeItems]
    have hitem := sameEnd_makeItem hsame hlimit.1 (hs.leads hi) (ht.leads hi) hn.1 hdisk
    refine hitem.bind fun a b u v hu hv huv hab => ?_
    have hitems := ih (hs.of_makeItem hi hn.1 hu) (ht.of_makeItem hi hn.1 hv) hr hn.2 hlimit.2 huv
    exact hitems.bind fun c d _ _ _ _ hdisk' hcd => .pure hdisk' (List.rel_append hab hcd)

/-! ### The base path -/

/-- A path that does not pass the check is not made. -/
theorem makeDirectory_of_check {f : IoFault} (hp : p.text ≠ "") (hc : Disk.check p = .error f) :
    Build.makeDirectory p s = (.error (.ioFailure p f), s) := by
  obtain ⟨above, habove⟩ := Path.ancestors_eq_cons p
  have hnone : s.disk.entry? p = none := by
    rw [Disk.entry?, Disk.locate, hc]
    rfl
  rw [makeDirectory_apply, Work.makeDirectories_apply, Disk.makeDirectories, habove,
    Disk.makeChain_of_check hp hc, Disk.pathExists, hnone]
  rfl

end Build

namespace Specification

open Build

variable {a b : Specification} {root : Path}

theorem same_iff : a.same b = true ↔ a.projectName = b.projectName ∧
    a.outputDir.same b.outputDir = true ∧ LayoutEntry.sameList a.entries b.entries = true := by
  simp [same, and_assoc]

/-- Specifications that are the same have the same first fault. -/
theorem fault?_of_same (h : a.same b = true) : a.fault? = b.fault? := by
  obtain ⟨hname, hout, hentries⟩ := same_iff.1 h
  rw [fault?, fault?, hname, LayoutEntry.eq_of_sameList _ _ hentries]
  simp only [Path.text_eq_empty_of_same hout]

/-- Specifications that are the same have the same base path, if they pass the check. -/
theorem same_base (h : a.same b = true) (hf : a.fault? = none) :
    (a.base root).same (b.base root) = true := by
  obtain ⟨hname, hout, -⟩ := same_iff.1 h
  rw [base_eq_joinName hf, base_eq_joinName (fault?_of_same h ▸ hf), hname]
  exact Path.same_join_right (Path.same_join hout) _

/-- **No path of the build is too long in one spelling only**: neither the base path, nor that of an
item below it. -/
structure LimitsAlike (a b : Specification) (root : Path) : Prop where
  base : Disk.pathLimit ≤ Text.byteLength (a.base root).text.toList ↔
    Disk.pathLimit ≤ Text.byteLength (b.base root).text.toList
  items : ∀ i ∈ a.items, LimitAlike (a.base root) (b.base root) i

/-- **Making the base path**, if its spelling does not decide whether it is too long. -/
theorem sameEnd_makeBase (h : a.same b = true) (hf : a.fault? = none)
    (hlimits : LimitsAlike a b root) (s : Site) :
    SameEnd (fun _ _ => True) (Build.makeDirectory (a.base root) s)
      (Build.makeDirectory (b.base root) s) := by
  obtain ⟨hname, hout, -⟩ := same_iff.1 h
  have hcheck := Disk.check_of_same (same_base h hf) hlimits.base
  rw [base_eq_joinName hf, base_eq_joinName (fault?_of_same h ▸ hf), ← hname] at hcheck ⊢
  exact sameEnd_makeDirectory (Path.same_join hout) (fault?_eq_none.1 hf).1 hcheck rfl

/-- **Specifications that are the same build the same.** Unless a path is too long for the disk in
one spelling only, the disks are equal after the two builds, and both fail with the same failure at
the same path, or both succeed with the same report. -/
theorem build_of_same (h : a.same b = true) (hlimits : LimitsAlike a b root) (s : Site) :
    (a.build root s).2.disk = (b.build root s).2.disk ∧
      SameResult BuildReport.Same (a.build root s).1 (b.build root s).1 := by
  have hend : SameEnd BuildReport.Same (a.build root s) (b.build root s) := by
    have hfault := fault?_of_same h
    obtain ⟨-, -, hentries⟩ := same_iff.1 h
    cases hf : a.fault? with
    | some f =>
      rw [build_of_fault hf, build_of_fault (hfault ▸ hf)]
      exact ⟨rfl, .error (.specification _)⟩
    | none =>
      have hf' : b.fault? = none := hfault ▸ hf
      have hvalid : ∀ {c : Specification}, c.fault? = none →
          Work.ofExcept c.validate s = (.ok (), s) := by
        intro c hc
        rw [validate, hc]
        rfl
      have hbase : (a.base root).same (b.base root) = true := same_base h hf
      rw [build_eq, build_eq, Work.bind_of_ok (hvalid hf), Work.bind_of_ok (hvalid hf')]
      refine (sameEnd_makeBase h hf hlimits s).bind fun _ _ u v hu hv huv _ => ?_
      -- the base path leads to the same place in either spelling
      obtain ⟨-, ⟨place, hleads⟩, -⟩ := makeDirectory_eq_ok hu (base_text_ne_empty hf)
      have hleads' : v.disk.Leads (b.base root) place := huv ▸ hleads.of_same hbase
      have hrest := LayoutEntry.rest_itemsOfList [] [] (.inl rfl) a.entries
      have hitems := sameEnd_makeItems hbase ⟨hleads, fun j hj => by cases hj⟩
        ⟨hleads', fun j hj => by cases hj⟩ hrest (fault?_eq_none.1 hf).2.2 hlimits.items huv
      rw [← makeEntries_eq_makeItems [], ← makeEntries_eq_makeItems [], Path.joinNames_nil,
        Path.joinNames_nil] at hitems
      rw [← LayoutEntry.eq_of_sameList _ _ hentries]
      exact hitems.bind fun c d w x _ _ hwx hcd =>
        SameEnd.notice_bind _ _ (fun _ _ hdisk => .pure hdisk ⟨hbase, hcd⟩) hwx
  exact ⟨hend.disk, hend.result⟩

namespace SampleRespelled

def entries : List LayoutEntry := [.directory "src" [.file "a" "text"], .file "b" ""]

def plain : Specification := ⟨"demo", ⟨"out/x"⟩, entries⟩

def spelled : Specification := ⟨"demo", ⟨"out//./x/."⟩, entries⟩

theorem limitsAlike : LimitsAlike plain spelled ⟨"."⟩ := by
  have hitems : plain.items = [⟨[], "src", none⟩, ⟨["src"], "a", some "text"⟩, ⟨[], "b", some ""⟩] :=
    rfl
  refine ⟨by decide +kernel, ?_⟩
  simp only [hitems, List.forall_mem_cons, LimitAlike]
  exact ⟨by decide +kernel, by decide +kernel, by decide +kernel, fun _ h => nomatch h⟩

end SampleRespelled

open SampleRespelled in
theorem build_of_same_sample : plain.same spelled = true ∧
    (plain.build ⟨"."⟩ .empty).1.isOk = true ∧
    (plain.build ⟨"."⟩ .empty).2.disk = (spelled.build ⟨"."⟩ .empty).2.disk ∧
      SameResult BuildReport.Same (plain.build ⟨"."⟩ .empty).1 (spelled.build ⟨"."⟩ .empty).1 := by
  have hsame : plain.same spelled = true := by decide +kernel
  exact ⟨hsame, by decide +kernel, build_of_same hsame limitsAlike .empty⟩

/-! ### A path that is too long in one spelling -/

namespace SampleSlashed

def plain : Specification := ⟨"demo", ⟨"store"⟩, []⟩

/-- The same with so many slashes behind the output directory that the base path is too long. -/
def long : Specification := ⟨"demo", slashed 4096, []⟩

theorem same_slashed (n : Nat) : (Path.mk "store").same (slashed n) = true := by
  have hsteps : (slashed n).steps = ["store".toList] := by
    rw [Path.steps, names_slashed]
    rfl
  have hrelative : (slashed n).isAbsolute = false := by
    rw [Path.isAbsolute, toList_slashed]
    rfl
  have hdot : (slashed n).pieces.head? ≠ some ['.'] := by
    intro hhead
    have hmem : ['.'] ∈ (slashed n).names :=
      List.mem_filter.2 ⟨List.mem_of_head? hhead, by decide⟩
    rw [names_slashed] at hmem
    revert hmem
    decide
  refine Path.same_iff.2 ⟨?_, hsteps.symm⟩
  rw [Path.start, Path.start, hrelative]
  simp only [Bool.false_eq_true, if_false, hdot]
  rfl

theorem fault?_long : long.fault? = none := by
  refine fault?_eq_none.2 ⟨by decide, fun h => ?_, fun i hi => by cases hi⟩
  have hlength := byteLength_slashed 4096
  have htext : (slashed 4096).text = "" := h
  rw [htext] at hlength
  cases hlength

/-- The text of the base path is longer than that of the output directory in it. -/
theorem check_base_long : Disk.check (long.base ⟨"."⟩) = .error .nameTooLong := by
  have hplain : PlainName long.projectName := by decide
  have hsame : (plain.base ⟨"."⟩).same (long.base ⟨"."⟩) = true :=
    same_base (same_iff.2 ⟨rfl, same_slashed 4096, rfl⟩) (by decide)
  have hnull : '\x00' ∉ (long.base ⟨"."⟩).text.toList :=
    mt (Path.null_mem_of_same hsame).2 (by decide)
  have hlength : Disk.pathLimit ≤ Text.byteLength (long.base ⟨"."⟩).text.toList := by
    have hlimit : Disk.pathLimit ≤ 4101 := by decide
    have hrelative : long.outputDir.isAbsolute = false := by
      rw [long, Path.isAbsolute, toList_slashed]
      rfl
    have hout : Text.byteLength long.outputDir.text.toList = 4101 := byteLength_slashed 4096
    have hlead : Text.byteLength ((Path.mk ".").join long.outputDir).text.toList ≤
        Text.byteLength ((Path.mk ".").join long.outputDir).lead := by
      rw [Path.lead]
      split <;> simp [Text.byteLength_append]
    rw [Path.toList_join hrelative, Text.byteLength_append, hout] at hlead
    rw [base_eq_joinName fault?_long, Path.toList_joinName hplain, Text.byteLength_append]
    exact (hlimit.trans ((Nat.le_add_left _ _).trans hlead)).trans (Nat.le_add_right _ _)
  rw [Disk.check, if_neg (by simpa using hnull), if_neg (base_text_ne_empty fault?_long),
    if_pos hlength]

end SampleSlashed

open SampleSlashed in
/-- **The spelling decides whether a path is too long.** -/
theorem build_of_slashes : plain.same long = true ∧
    (plain.build ⟨"."⟩ .empty).1.isOk = true ∧
    long.build ⟨"."⟩ .empty = (.error (.ioFailure (long.base ⟨"."⟩) .nameTooLong), .empty) := by
  refine ⟨same_iff.2 ⟨rfl, same_slashed 4096, rfl⟩, by decide +kernel, ?_⟩
  exact build_of_error fault?_long
    (makeDirectory_of_check (base_text_ne_empty fault?_long) check_base_long)

end Specification

end Scaffold
