import Scaffold.Proofs.Disk.Files
import Scaffold.Proofs.Entries

/-!
# Disks that list their directories in order

If every directory lists its names in increasing order, a disk is determined by what stands at each
place (`Agrees.eq`). Making directories and writing files keep them in order. A path that leads to a
directory of such a disk lists exactly the names that stand in it, each as what it is
(`exists_list`).
-/

namespace Scaffold

namespace DiskEntry

variable {e f new : DiskEntry} {es fs : List (String × DiskEntry)}

mutual

/-- **Every directory lists its names in increasing order.** -/
def Ordered : DiskEntry → Prop
  | file _ => True
  | directory es => Entries.Increasing es ∧ AllOrdered es

def AllOrdered : List (String × DiskEntry) → Prop
  | [] => True
  | (_, e) :: r => Ordered e ∧ AllOrdered r

end

@[simp] theorem ordered_file (c : Content) : (file c).Ordered := by simp [Ordered]

theorem ordered_directory : (directory es).Ordered ↔ Entries.Increasing es ∧ AllOrdered es := by
  rw [Ordered]

theorem allOrdered_iff : AllOrdered es ↔ ∀ e ∈ es, e.2.Ordered := by
  induction es with
  | nil => simp [AllOrdered]
  | cons e r ih =>
    obtain ⟨k, e⟩ := e
    simp [AllOrdered, ih]

theorem ordered_of_lookup {k : String} (h : AllOrdered es) (hk : es.lookup k = some e) :
    e.Ordered := by
  obtain ⟨l₁, l₂, rfl, -⟩ := List.lookup_eq_some_iff.1 hk
  exact allOrdered_iff.1 h (k, e) (by simp)

theorem eq_file_of_view {c : Content} (h : e.view [] = some (.file c)) : e = file c := by
  cases e with
  | directory es => simp [standing] at h
  | file c' => simpa [standing] using h

mutual

/-- **Entries in order with the same view are equal.** -/
theorem eq_of_view : (e f : DiskEntry) → e.Ordered → f.Ordered → e.view = f.view → e = f
  | file c, f, _, _, h => (eq_file_of_view (by rw [← h]; simp [standing])).symm
  | directory es, f, he, hf, h => by
    obtain ⟨fs, rfl⟩ := exists_of_view_directory (e := f) (by rw [← h]; simp [standing])
    rw [ordered_directory] at he hf
    refine congrArg directory (Entries.eq_of_lookup he.1 hf.1 fun k => ?_)
    have hk : ∀ l, ((es.lookup k).bind fun e => e.view l) = (fs.lookup k).bind fun e => e.view l :=
      fun l => by rw [← view_directory_cons, ← view_directory_cons, h]
    have hroot := hk []
    cases hes : es.lookup k with
    | none =>
      cases hfs : fs.lookup k with
      | none => rfl
      | some f => simp [hes, hfs] at hroot
    | some e =>
      cases hfs : fs.lookup k with
      | none => simp [hes, hfs] at hroot
      | some f =>
        -- what lies below the name has the same view, and is smaller
        have hview : e.view = f.view := funext fun l => by simpa [hes, hfs] using hk l
        have hmem := (Entries.lookup_eq_some_iff_mem he.1.nodup).1 hes
        rw [eq_of_view_of_mem es he.2 k e hmem f (ordered_of_lookup hf.2 hfs) hview]

theorem eq_of_view_of_mem : (es : List (String × DiskEntry)) → AllOrdered es → ∀ k e, (k, e) ∈ es →
    ∀ f : DiskEntry, f.Ordered → e.view = f.view → e = f
  | [], _, _, _, hm, _, _, _ => by cases hm
  | (l, g) :: r, h, k, e, hm, f, hf, hv => by
    rw [AllOrdered] at h
    rcases List.mem_cons.1 hm with hm | hm
    · obtain ⟨-, rfl⟩ := Prod.mk.inj hm
      exact eq_of_view e f h.1 hf hv
    · exact eq_of_view_of_mem r h.2 k e hm f hf hv

end

theorem ordered_put {k : String} (h : (directory es).Ordered) (hnew : new.Ordered) :
    (directory (Entries.put k new es)).Ordered := by
  rw [ordered_directory, allOrdered_iff] at h ⊢
  refine ⟨Entries.increasing_put k new h.1, fun e he => ?_⟩
  rcases Entries.eq_or_mem_of_mem_put he with rfl | he
  · exact hnew
  · exact h.2 e he

theorem ordered_putAt (hnew : new.Ordered) (l : Location) (h : e.Ordered) :
    (putAt new l e).Ordered := by
  induction l generalizing e with
  | nil => exact hnew
  | cons k l ih =>
    cases e with
    | file c => cases l <;> simp [putAt]
    | directory es =>
      by_cases hl : l = []
      · subst hl
        exact ordered_put h hnew
      · rw [putAt_cons hl]
        cases hk : es.lookup k with
        | none => exact h
        | some e => exact ordered_put h (ih (ordered_of_lookup (ordered_directory.1 h).2 hk))

theorem ordered_at? {l : Location} (h : e.Ordered) (hf : e.at? l = some f) :
    f.Ordered := by
  induction l generalizing e with
  | nil => exact Option.some.inj hf ▸ h
  | cons k l ih =>
    cases e with
    | file c => simp [at?] at hf
    | directory es =>
      rw [at?] at hf
      obtain ⟨g, hg, hf⟩ := Option.bind_eq_some_iff.1 hf
      exact ih (ordered_of_lookup (ordered_directory.1 h).2 hg) hf

end DiskEntry

namespace Disk

variable {d e : Disk} {p : Path} {l : Location}

/-- Every directory lists its names in increasing order. -/
def Ordered (d : Disk) : Prop := d.root.Ordered

/-- The same stands at each place, and relative paths start at the same. -/
structure Agrees (d e : Disk) : Prop where
  home : d.home = e.home
  view : d.view = e.view

theorem Agrees.trans {f : Disk} (h : d.Agrees e) (h' : e.Agrees f) : d.Agrees f :=
  ⟨h.home.trans h'.home, h.view.trans h'.view⟩

/-- **Disks in order that agree are equal.** -/
theorem Agrees.eq (h : d.Agrees e) (hd : d.Ordered) (he : e.Ordered) : d = e := by
  obtain ⟨r, l⟩ := d
  obtain ⟨r', l'⟩ := e
  obtain rfl : l = l' := h.home
  obtain rfl := DiskEntry.eq_of_view r r' hd he h.view
  rfl

theorem ordered_makeDirectory (h : d.makeDirectory p = .ok e) (hd : d.Ordered) : e.Ordered := by
  obtain ⟨l, last, -, -, rfl⟩ := exists_of_makeDirectory h
  exact DiskEntry.ordered_putAt (by simp [DiskEntry.ordered_directory, Entries.Increasing,
    DiskEntry.AllOrdered]) _ hd

theorem ordered_makeChain (chain : List Path) (hd : d.Ordered) : (d.makeChain chain).1.Ordered := by
  induction chain with
  | nil => exact hd
  | cons p above ih =>
    by_cases hp : p.text = ""
    · rw [makeChain.eq_def]
      simpa [hp] using hd
    · obtain ⟨d', hd', h⟩ := makeChain_cons hp d above
      have ho : d'.Ordered := by
        rcases hd' with rfl | rfl
        · exact hd
        · exact ih
      rcases h with h | ⟨h, -⟩
      · exact ordered_makeDirectory h ho
      · rw [h]; exact ho

theorem ordered_makeDirectories (p : Path) (hd : d.Ordered) : (d.makeDirectories p).1.Ordered :=
  ordered_makeChain _ hd

theorem ordered_writeFile {c : Content} (h : d.writeFile p c = .ok e) (hd : d.Ordered) :
    e.Ordered := by
  obtain ⟨l, last, -, -, ⟨target, c', -, -, rfl⟩ | ⟨-, rfl⟩⟩ := exists_of_writeFile h
  · exact DiskEntry.ordered_putAt (DiskEntry.ordered_file c) _ hd
  · exact DiskEntry.ordered_putAt (DiskEntry.ordered_file c) _ hd

/-! ### Listing -/

/-- A directory lists its entries, and these are what stands below it. -/
theorem list_of_leads (h : d.Leads p l) (hc : check p = .ok ()) : ∃ es,
    d.at? l = some (.directory es) ∧ d.list p = .ok (es.map fun e => (e.1, !e.2.isDirectory)) ∧
      ∀ n, d.view (l ++ [n]) = (es.lookup n).map DiskEntry.standing := by
  obtain ⟨es, hes⟩ := view_eq_directory.1 h.directory
  refine ⟨es, hes, ?_, fun n => ?_⟩
  · rw [Disk.list, h.locate hc]
    simp only [bind, Except.bind, hes, DiskEntry.filter_isLink]
  · rw [view, DiskEntry.view, DiskEntry.at?_append, ← at?, hes]
    cases hn : es.lookup n <;> simp [DiskEntry.at?, hn]

/-- A file right below a directory is listed. -/
theorem mem_list_of_file {n : String} {c : Content} (h : d.Leads p l) (hc : check p = .ok ())
    (hv : d.view (l ++ [n]) = some (.file c)) : ∃ es, d.list p = .ok es ∧ (n, true) ∈ es := by
  obtain ⟨es, -, hlist, hview⟩ := list_of_leads h hc
  rw [hview, Option.map_eq_some_iff] at hv
  obtain ⟨e, hn, he⟩ := hv
  obtain ⟨before, after, rfl, -⟩ := List.lookup_eq_some_iff.1 hn
  refine ⟨_, hlist, List.mem_map.2 ⟨(n, e), by simp, ?_⟩⟩
  cases e <;> simp_all [DiskEntry.standing, DiskEntry.isDirectory]

/-- **What a directory lists**: the directories and the files that stand right below it. -/
theorem exists_list (ho : d.Ordered) (h : d.Leads p l) (hc : check p = .ok ()) :
    ∃ es, d.list p = .ok es ∧
      (∀ n, (n, false) ∈ es ↔ d.view (l ++ [n]) = some .directory) ∧
      ∀ n, (n, true) ∈ es ↔ ∃ c, d.view (l ++ [n]) = some (.file c) := by
  obtain ⟨es, hes, hlist, hview⟩ := list_of_leads h hc
  have hnodup := (DiskEntry.ordered_directory.1 (DiskEntry.ordered_at? ho hes)).1.nodup
  have hmem : ∀ n b, (n, b) ∈ es.map (fun e => (e.1, !e.2.isDirectory)) ↔
      ∃ e, es.lookup n = some e ∧ (!e.isDirectory) = b := by
    intro n b
    simp only [Entries.lookup_eq_some_iff_mem hnodup, List.mem_map, Prod.mk.injEq]
    constructor
    · rintro ⟨⟨k, e⟩, hm, rfl, hb⟩
      exact ⟨e, hm, hb⟩
    · rintro ⟨e, hm, hb⟩
      exact ⟨(n, e), hm, rfl, hb⟩
  refine ⟨_, hlist, fun n => ?_, fun n => ?_⟩
  · rw [hmem, hview, Option.map_eq_some_iff]
    refine exists_congr fun e => and_congr_right fun _ => ?_
    cases e <;> simp [DiskEntry.isDirectory, DiskEntry.standing]
  · simp only [hmem, hview, Option.map_eq_some_iff]
    rw [exists_comm]
    refine exists_congr fun e => ?_
    rw [exists_and_left]
    refine and_congr_right fun _ => ?_
    cases e <;> simp [DiskEntry.isDirectory, DiskEntry.standing]

end Disk

end Scaffold
