import Scaffold.Proofs.Disk.Files
import Scaffold.Proofs.Results

/-!
# Names joined to a path that leads to a directory

Plain names that are joined to such a path one after the other are located below the directory,
all together, unless something is too long (`locate_joinNames`). What is a file or a directory at
the path is one in the view then (`isFile_joinNames`, `isDirectory_joinNames`). The other way
round, a path that leads to a file goes through the directory in which the file stands
(`leads_of_isFile`).
-/

namespace Scaffold

theorem Text.byteLength_append (a b : List Char) :
    byteLength (a ++ b) = byteLength a + byteLength b := by
  induction a with
  | nil => simp [byteLength]
  | cons c r ih => rw [List.cons_append, byteLength, byteLength, ih, Nat.add_assoc]

namespace Path

variable {p : Path} {ns : List String}

theorem isAbsolute_joinNames (hn : ∀ n ∈ ns, PlainName n) :
    (p.joinNames ns).isAbsolute = p.isAbsolute := by
  induction ns generalizing p with
  | nil => rfl
  | cons n ns ih =>
    rw [List.forall_mem_cons] at hn
    exact (ih hn.2).trans (isAbsolute_joinName hn.1)

/-- **Joining plain names adds exactly these names.** -/
theorem names_joinNames (hn : ∀ n ∈ ns, PlainName n) :
    (p.joinNames ns).names = p.names ++ ns.map String.toList := by
  induction ns generalizing p with
  | nil => simp
  | cons n ns ih =>
    rw [List.forall_mem_cons] at hn
    have hrest : (p.joinNames (n :: ns)).names = (p.joinName n).names ++ ns.map String.toList :=
      ih hn.2
    rw [hrest, names_joinName hn.1]
    simp

theorem null_mem_joinNames (hn : ∀ n ∈ ns, PlainName n) :
    '\x00' ∈ (p.joinNames ns).text.toList ↔ '\x00' ∈ p.text.toList := by
  induction ns generalizing p with
  | nil => rfl
  | cons n ns ih =>
    rw [List.forall_mem_cons] at hn
    exact (ih hn.2).trans (null_mem_joinName hn.1)

end Path

namespace Disk

variable {d : Disk} {p : Path} {l m : Location} {ns ms : List String}

/-- **Names that can be joined to a path**: neither the path nor one of the names gets too long. -/
structure Reaches (p : Path) (ns : List String) : Prop where
  path : Text.byteLength (p.joinNames ns).text.toList < pathLimit
  name : ∀ n ∈ ns, Text.byteLength n.toList ≤ nameLimit

theorem byteLength_le_joinNames (hn : ∀ n ∈ ns, PlainName n) :
    Text.byteLength p.text.toList ≤ Text.byteLength (p.joinNames ns).text.toList := by
  induction ns generalizing p with
  | nil => exact Nat.le_refl _
  | cons n ns ih =>
    rw [List.forall_mem_cons] at hn
    refine Nat.le_trans ?_ (ih (p := p.joinName n) hn.2)
    rw [Path.toList_joinName hn.1, Path.lead]
    split <;> simp only [Text.byteLength_append] <;> omega

/-- What can be joined can be joined in part. -/
theorem Reaches.left (h : Reaches p (ns ++ ms)) (hm : ∀ n ∈ ms, PlainName n) : Reaches p ns := by
  refine ⟨?_, fun n hn => h.name n (List.mem_append_left _ hn)⟩
  have hle := byteLength_le_joinNames (p := p.joinNames ns) hm
  rw [← Path.joinNames_append] at hle
  exact Nat.lt_of_le_of_lt hle h.path

/-- Below something that is no directory there is nothing. -/
theorem view_append_of_not_directory (h : d.view l ≠ some .directory) (hm : m ≠ []) :
    d.view (l ++ m) = none := DiskEntry.view_append_of_not_directory h hm

/-- Below what is missing there is nothing, itself included. -/
theorem view_append_of_missing (h : ¬ (d.view l).isSome) (m : Location) : d.view (l ++ m) = none := by
  have hnone : d.view l = none := Option.not_isSome_iff_eq_none.1 h
  by_cases hm : m = []
  · rw [hm, List.append_nil, hnone]
  · exact view_append_of_not_directory (by simp [hnone]) hm

/-- **Following plain names** from any place on leads right down. -/
theorem walk_names (hn : ∀ n ∈ ns, PlainName n) : d.walk l (ns.map String.toList) = .ok m ↔
    (∀ n ∈ ns, Text.byteLength n.toList ≤ nameLimit) ∧ m = l ++ ns ∧ (d.view m).isSome := by
  induction ns generalizing l with
  | nil =>
    rw [List.map_nil, walk_nil]
    split_ifs with hs
    · simp only [List.not_mem_nil, false_implies, implies_true, List.append_nil, true_and,
        Except.ok.injEq]
      exact ⟨fun h => ⟨h.symm, h ▸ hs⟩, fun h => h.1.symm⟩
    · simp only [List.append_nil, false_iff]
      rintro ⟨-, rfl, hm⟩
      exact hs hm
  | cons n ns ih =>
    rw [List.forall_mem_cons] at hn
    rw [List.map_cons, walk_cons]
    by_cases hd : d.view l = some .directory
    · rw [step_name hd hn.1]
      split_ifs with hlong hs
      · have hshort : ¬ Text.byteLength n.toList ≤ nameLimit := Nat.not_le.2 hlong
        simp [bind, Except.bind, hshort]
      · have hcons : l ++ n :: ns = (l ++ [n]) ++ ns := by simp
        have hshort : Text.byteLength n.toList ≤ nameLimit := Nat.not_lt.1 hlong
        rw [hcons, List.forall_mem_cons, and_iff_right hshort]
        exact ih hn.2
      · -- what is missing leads nowhere
        have hbelow : d.view (l ++ n :: ns) = none := by
          simpa using view_append_of_missing hs ns
        simp only [bind, Except.bind, reduceCtorEq, false_iff]
        rintro ⟨-, rfl, hm⟩
        simp [hbelow] at hm
    · have hbelow : d.view (l ++ n :: ns) = none := view_append_of_not_directory hd (by simp)
      have hstep : ∀ k, d.step l n.toList ≠ .ok k := fun k hk => hd (view_of_step hk)
      constructor
      · intro h
        obtain ⟨k, hk, -⟩ := exists_of_bind_eq_ok h
        exact absurd hk (hstep k)
      · rintro ⟨-, rfl, hm⟩
        simp [hbelow] at hm

theorem followed_joinNames (hn : ∀ n ∈ ns, PlainName n) (hne : ns ≠ []) :
    followed (p.joinNames ns) = p.names ++ ns.map String.toList := by
  rw [← List.dropLast_concat_getLast hne] at hn ⊢
  simp only [List.forall_mem_append, List.forall_mem_singleton] at hn
  rw [Path.joinNames_append, Path.joinNames_singleton, followed_joinName hn.2,
    Path.names_joinNames hn.1, List.map_append, List.append_assoc, List.map_singleton]

/-- **Where plain names below a directory are located.** -/
theorem locate_joinNames (h : d.Leads p l) (hn : ∀ n ∈ ns, PlainName n) (hne : ns ≠ []) :
    d.locate (p.joinNames ns) = .ok m ↔ Reaches p ns ∧ m = l ++ ns ∧ (d.view m).isSome := by
  have hnull : '\x00' ∉ (p.joinNames ns).text.toList := by
    rw [Path.null_mem_joinNames hn]
    exact h.no_null
  have htext : (p.joinNames ns).text ≠ "" := by
    rw [← List.dropLast_concat_getLast hne] at hn ⊢
    rw [Path.joinNames_append]
    exact Path.text_joinName_ne_empty (hn _ (by simp))
  have horigin : d.origin (p.joinNames ns) = d.origin p := by
    rw [origin, origin, Path.isAbsolute_joinNames hn]
  rw [locate_eq_ok, check_eq_ok, horigin, followed_joinNames hn hne, walk_append_of_ok h.reached,
    walk_names hn]
  constructor
  · rintro ⟨⟨-, -, hpath⟩, hnames, hm⟩
    exact ⟨⟨hpath, hnames⟩, hm⟩
  · rintro ⟨⟨hpath, hnames⟩, hm⟩
    exact ⟨⟨hnull, htext, hpath⟩, hnames, hm⟩

theorem isFile_iff : d.isFile p = true ↔ ∃ l c, d.locate p = .ok l ∧ d.view l = some (.file c) := by
  rw [isFile, entry?]
  cases h : d.locate p with
  | error f => simp
  | ok l =>
    simp only [Except.ok.injEq, exists_and_left, exists_eq_left', view_eq_file]
    cases d.at? l with
    | none => simp
    | some e => cases e <;> simp

/-- **A file that can be reached** stands in a directory that can be reached. -/
theorem leads_of_isFile {n : String} (hp : p.text ≠ "") (hn : PlainName n)
    (h : d.isFile (p.joinName n) = true) :
    check p = .ok () ∧ ∃ l c, d.Leads p l ∧ d.view (l ++ [n]) = some (.file c) := by
  obtain ⟨m, c, hm, hc⟩ := isFile_iff.1 h
  obtain ⟨hcheck, hwalk⟩ := locate_eq_ok.1 hm
  obtain ⟨hnull, -, hlong⟩ := check_eq_ok.1 hcheck
  rw [Path.null_mem_joinName hn] at hnull
  have hle : Text.byteLength p.text.toList ≤ Text.byteLength (p.joinNames [n]).text.toList :=
    byteLength_le_joinNames (by simpa using hn)
  rw [Path.joinNames_singleton] at hle
  rw [origin_joinName hn, followed_joinName hn] at hwalk
  obtain ⟨l, hl, hlast⟩ := walk_append_eq_ok hwalk
  -- the last name is followed in a directory, and leads to what has its name there
  rw [walk_cons] at hlast
  obtain ⟨k, hk, hend⟩ := exists_of_bind_eq_ok hlast
  have hd := view_of_step hk
  rw [step_name hd hn] at hk
  split_ifs at hk
  obtain rfl := Except.ok.inj hk
  rw [walk_nil] at hend
  split_ifs at hend
  obtain rfl := Except.ok.inj hend
  exact ⟨check_eq_ok.2 ⟨hnull, hp, Nat.lt_of_le_of_lt hle hlong⟩, l, c, ⟨hnull, hl, hd⟩, hc⟩

theorem isFile_joinNames (h : d.Leads p l) (hn : ∀ n ∈ ns, PlainName n) (hne : ns ≠ []) :
    d.isFile (p.joinNames ns) = true ↔ Reaches p ns ∧ ∃ c, d.view (l ++ ns) = some (.file c) := by
  simp only [isFile_iff, locate_joinNames h hn hne]
  constructor
  · rintro ⟨m, c, ⟨hr, rfl, -⟩, hc⟩
    exact ⟨hr, c, hc⟩
  · rintro ⟨hr, c, hc⟩
    exact ⟨_, c, ⟨hr, rfl, by simp [hc]⟩, hc⟩

theorem isDirectory_joinNames (h : d.Leads p l) (hn : ∀ n ∈ ns, PlainName n) (hne : ns ≠ []) :
    d.isDirectory (p.joinNames ns) = true ↔
      Reaches p ns ∧ d.view (l ++ ns) = some .directory := by
  simp only [isDirectory_iff, locate_joinNames h hn hne]
  constructor
  · rintro ⟨m, ⟨hr, rfl, -⟩, hd⟩
    exact ⟨hr, hd⟩
  · rintro ⟨hr, hd⟩
    exact ⟨_, ⟨hr, rfl, by simp [hd]⟩, hd⟩

/-- The text of a file below a directory. -/
theorem readText_joinNames (ns : List String) {text : String} (h : d.Leads p l) (hn : ∀ n ∈ ns, PlainName n)
    (hne : ns ≠ []) (hr : Reaches p ns) (hv : d.view (l ++ ns) = some (.file (.text text))) :
    d.readText (p.joinNames ns) = .ok text :=
  readText_of_view ((locate_joinNames h hn hne).2 ⟨hr, rfl, by simp [hv]⟩) hv

/-- A path that leads to a directory leads to the directories below it. -/
theorem Leads.joinNames (h : d.Leads p l) (hn : ∀ n ∈ ns, PlainName n) (hne : ns ≠ [])
    (hd : d.isDirectory (p.joinNames ns) = true) :
    d.Leads (p.joinNames ns) (l ++ ns) ∧ check (p.joinNames ns) = .ok () := by
  obtain ⟨hc, m, hm⟩ := isDirectory_iff_leads.1 hd
  obtain ⟨-, rfl, -⟩ := (locate_joinNames h hn hne).1 (hm.locate hc)
  exact ⟨hm, hc⟩

end Disk

end Scaffold
