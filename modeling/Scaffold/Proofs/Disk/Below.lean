import Scaffold.Proofs.Disk.Reach

/-!
# Disks that are the same below a path

Two disks are the same at a path if the same entry stands there, with everything in it (`SameAt`).
What stands under plain names that are joined to a path is decided by the entry at the path
(`entry?_joinNames`), so disks that are the same at a path are the same below it as well
(`SameAt.joinNames`), however different they are elsewhere.
-/

namespace Scaffold.Disk

variable {d e : Disk} {p : Path} {ns : List String}

theorem entry?_eq_some {x : DiskEntry} :
    d.entry? p = some x ↔ ∃ l, d.locate p = .ok l ∧ d.at? l = some x := by
  rw [ entry?]
  cases d.locate p <;> simp

theorem isFile_eq_true_iff : d.isFile p = true ↔ ∃ c, d.entry? p = some (.file c) := by
  rw [isFile]
  split
  next c hc => exact ⟨fun _ => ⟨c, hc⟩, fun _ => rfl⟩
  next hno => simpa using hno

/-- A file is read as the text that it holds, if it holds one. -/
theorem readText_of_file {c : Content} (h : d.entry? p = some (.file c)) : d.readText p =
    match c with
    | .text text => .ok text
    | _ => .error .invalidText := by
  obtain ⟨l, hl, hfile⟩ := entry?_eq_some.1 h
  rw [readText, hl]
  simp only [bind, Except.bind, hfile]
  cases c with
  | link linked _ => cases linked
  | _ => rfl

/-- The entries of a directory are listed in their order. -/
theorem list_of_directory {es : List (String × DiskEntry)} (h : d.entry? p = some (.directory es)) :
    d.list p = .ok (es.map fun e => (e.1, !e.2.isDirectory)) := by
  obtain ⟨l, hl, hes⟩ := entry?_eq_some.1 h
  rw [Disk.list, hl]
  simp only [bind, Except.bind, hes, DiskEntry.filter_isLink]

/-- What stands at names below a place. -/
theorem at?_append (d : Disk) (l m : Location) : d.at? (l ++ m) = (d.at? l).bind (DiskEntry.at? m) :=
  DiskEntry.at?_append d.root l m

/-- Only directories have entries below them. -/
theorem exists_of_at?_ne_nil {x y : DiskEntry} (h : x.at? ns = some y) (hne : ns ≠ []) :
    ∃ es, x = .directory es := by
  obtain ⟨k, ks, rfl⟩ := List.exists_cons_of_ne_nil hne
  cases x with
  | file c => cases h
  | directory es => exact ⟨es, rfl⟩

/-- **The entry at a path decides what stands below it**, under names that can be joined. -/
theorem entry?_joinNames (hp : p.text ≠ "") (hn : ∀ n ∈ ns, PlainName n) (hne : ns ≠ [])
    {x : DiskEntry} : d.entry? (p.joinNames ns) = some x ↔
      Reaches p ns ∧ ∃ y, d.entry? p = some y ∧ y.at? ns = some x := by
  constructor
  · intro h
    obtain ⟨m, hm, hx⟩ := entry?_eq_some.1 h
    obtain ⟨hcheck, hwalk⟩ := locate_eq_ok.1 hm
    obtain ⟨hnull, -, hpath⟩ := check_eq_ok.1 hcheck
    have horigin : d.origin (p.joinNames ns) = d.origin p := by
      rw [origin, origin, Path.isAbsolute_joinNames hn]
    rw [horigin, followed_joinNames hn hne] at hwalk
    obtain ⟨l, hl, hrest⟩ := walk_append_eq_ok hwalk
    obtain ⟨hnames, rfl, -⟩ := (walk_names hn).1 hrest
    rw [at?_append] at hx
    obtain ⟨y, hy, hyx⟩ := Option.bind_eq_some_iff.1 hx
    -- the names were followed from a directory, to which the path itself leads
    obtain ⟨es, rfl⟩ := exists_of_at?_ne_nil hyx hne
    have hdirectory : d.view l = some .directory := view_eq_directory.2 ⟨es, hy⟩
    have hcheckp : check p = .ok () := check_eq_ok.2 ⟨(Path.null_mem_joinNames hn).not.1 hnull, hp,
      Nat.lt_of_le_of_lt (byteLength_le_joinNames hn) hpath⟩
    have hleads : d.Leads p l := ⟨(check_eq_ok.1 hcheckp).1, hl, hdirectory⟩
    exact ⟨⟨hpath, hnames⟩, .directory es, entry?_eq_some.2 ⟨l, hleads.locate hcheckp, hy⟩, hyx⟩
  · rintro ⟨hreach, y, hy, hyx⟩
    obtain ⟨l, hl, hly⟩ := entry?_eq_some.1 hy
    obtain ⟨es, rfl⟩ := exists_of_at?_ne_nil hyx hne
    have hdirectory : d.view l = some .directory := view_eq_directory.2 ⟨es, hly⟩
    obtain ⟨hcheckp, hwalk⟩ := locate_eq_ok.1 hl
    have hleads : d.Leads p l :=
      ⟨(check_eq_ok.1 hcheckp).1, walk_names_of_followed hwalk, hdirectory⟩
    have hx : d.at? (l ++ ns) = some x := by
      rw [at?_append, hly]
      exact hyx
    have hsome : (d.view (l ++ ns)).isSome := by
      rw [isSome_view, hx]
      rfl
    exact entry?_eq_some.2 ⟨l ++ ns, (locate_joinNames hleads hn hne).2 ⟨hreach, rfl, hsome⟩, hx⟩

/-- **The same entry stands at a path**, with everything in it, or none on both disks. -/
def SameAt (p : Path) (d e : Disk) : Prop := d.entry? p = e.entry? p

namespace SameAt

/-- **Disks that are the same at a path are the same below it.** -/
theorem joinNames (h : SameAt p d e) (hp : p.text ≠ "") (hn : ∀ n ∈ ns, PlainName n) :
    SameAt (p.joinNames ns) d e := by
  by_cases hne : ns = []
  · subst hne
    exact h
  · refine Option.ext fun x => ?_
    rw [entry?_joinNames hp hn hne, entry?_joinNames hp hn hne, h]

theorem isDirectory_eq (h : SameAt p d e) : d.isDirectory p = e.isDirectory p := by
  rw [isDirectory, isDirectory, h]

theorem isFile_eq (h : SameAt p d e) : d.isFile p = e.isFile p := by
  rw [isFile, isFile, h]

end SameAt

/-- What is listed of an entry, and what is read of it, is decided by the entry. -/
theorem results_of_entry? {x : DiskEntry} (hd : d.entry? p = some x) (he : e.entry? p = some x) :
    d.list p = e.list p ∧ d.readText p = e.readText p := by
  obtain ⟨l, hl, hdx⟩ := entry?_eq_some.1 hd
  obtain ⟨m, hm, hex⟩ := entry?_eq_some.1 he
  rw [Disk.list, Disk.list, readText, readText, hl, hm]
  simp only [bind, Except.bind, hdx, hex, and_self]

namespace SameAt

/-- What is there can be listed and read in the same way on both disks. -/
theorem results_eq (h : SameAt p d e) (hd : d.pathExists p = true) :
    d.list p = e.list p ∧ d.readText p = e.readText p := by
  obtain ⟨x, hx⟩ := Option.isSome_iff_exists.1 hd
  exact results_of_entry? hx (h.symm.trans hx)

end SameAt

end Scaffold.Disk
