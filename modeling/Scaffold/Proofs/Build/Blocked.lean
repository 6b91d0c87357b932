import Scaffold.Proofs.Build.Run
import Scaffold.Proofs.Disk.Changes
import Scaffold.Proofs.Disk.Reach
import Scaffold.Proofs.Results

/-!
# Where a build stops

Making the entries of a layout is making its items one after the other, however deep they are
nested (`makeEntries_eq_makeItems`). Each of them is put in its place (`Disk.makeItem`) on the
disk that the items before it have left, unless something of the other kind is in the way
(`Disk.Blocks`). So a build stops at the first item that is blocked, with a conflict, and the disk
is what the items before it have made of it (`build_stops`).
-/

namespace Scaffold

variable {base : Path} {place l : Location} {d e f : Disk} {i j : LayoutItem}
variable {done rest before after xs ys : List LayoutItem}

namespace Disk

theorem isFile_joinName {p : Path} {n : String} (h : d.Leads p l) (hn : PlainName n)
    (hlong : ¬ TooLong p n) :
    d.isFile (p.joinName n) = true ↔ ∃ c, d.view (l ++ [n]) = some (.file c) := by
  rw [isFile_iff, locate_joinName h hn, if_neg hlong]
  split_ifs with hv
  · simp
  · simp [Option.not_isSome_iff_eq_none.1 hv]

/-- Something of the other kind stands in the place of an item. -/
def Blocks (base : Path) (d : Disk) (i : LayoutItem) : Prop :=
  match i.content? with
  | none => d.isFile (i.path base) = true
  | some _ => d.isDirectory (i.path base) = true

/-- Puts an item in its place: a directory is made unless it is there, and a file is written. -/
def makeItem (base : Path) (d : Disk) (i : LayoutItem) : Except IoFault Disk :=
  match i.content? with
  | none => if d.isDirectory (i.path base) then .ok d else d.makeDirectory (i.path base)
  | some c => d.writeFile (i.path base) (.text c)

/-- What is in the way of an item keeps it from being put in its place. -/
theorem not_blocks_of_makeItem (h : d.makeItem base i = .ok e) : ¬ d.Blocks base i := by
  intro hblocks
  rw [makeItem] at h
  rw [Blocks] at hblocks
  cases hc : i.content? with
  | none =>
    simp only [hc] at h hblocks
    obtain ⟨l, c, hl, hv⟩ := isFile_iff.1 hblocks
    split_ifs at h with hdir
    · obtain ⟨m, hm, hmv⟩ := isDirectory_iff.1 hdir
      rw [hl, Except.ok.injEq] at hm
      rw [← hm, hv] at hmv
      cases hmv
    · obtain ⟨m, hm, hcheck, hnone, hhome, hview⟩ := makeDirectory_eq_ok h
      have hkeeps : d.view.Keeps e.view := hview ▸ View.Keeps.update (by simp [hnone])
      have hloc := locate_of_keeps hhome hkeeps hl
      rw [hm.locate hcheck, Except.ok.injEq] at hloc
      rw [← hloc, hnone] at hv
      cases hv
  | some c =>
    simp only [hc] at h hblocks
    obtain ⟨l, hl, hv⟩ := isDirectory_iff.1 hblocks
    obtain ⟨m, hm, hdir, hhome, hview⟩ := writeFile_eq_ok h
    have hkeeps : d.view.Keeps e.view := (changesAt_writeFile h).keeps
    have hloc := locate_of_keeps hhome hkeeps hl
    rw [hm, Except.ok.injEq] at hloc
    exact hdir (hloc ▸ hv)

theorem changesAt_makeItem (h : d.makeItem base i = .ok e) : ChangesAt (i.path base).LiesIn d e := by
  rw [makeItem] at h
  cases hc : i.content? with
  | none =>
    simp only [hc] at h
    split_ifs at h
    · cases h
      exact .refl _ _
    · exact changesAt_makeDirectory (.self _) h
  | some c =>
    simp only [hc] at h
    exact changesAt_writeFile h

/-! ### Items that have been put in their places -/

/-- Where all items have been put in their places, none of them was blocked when its turn came. -/
theorem not_blocks_of_left (h : (before ++ i :: after).foldlM (makeItem base) d = .ok f)
    (hleft : before.foldlM (makeItem base) d = .ok e) : ¬ e.Blocks base i := by
  rw [List.foldlM_append, hleft] at h
  obtain ⟨e', he', -⟩ := exists_of_bind_eq_ok (g := fun e => after.foldlM (makeItem base) e) h
  exact not_blocks_of_makeItem he'

/-- Only one item can be the first that is blocked. -/
theorem first_blocked_unique {before' after' : List LayoutItem}
    (hxs : before ++ i :: after = before' ++ j :: after')
    (hi : before.foldlM (makeItem base) d = .ok e) (hib : e.Blocks base i)
    (hj : before'.foldlM (makeItem base) d = .ok f) (hjb : f.Blocks base j) :
    before = before' ∧ i = j ∧ e = f := by
  rcases List.append_eq_append_iff.1 hxs with ⟨as, rfl, has⟩ | ⟨as, rfl, has⟩
  · cases as with
    | nil =>
      rw [List.append_nil, hi, Except.ok.injEq] at hj
      exact ⟨(List.append_nil _).symm, (List.cons.inj has).1, hj⟩
    | cons a as =>
      rw [(List.cons.inj has).1] at hib
      exact absurd hib (not_blocks_of_left hj hi)
  · cases as with
    | nil =>
      rw [List.append_nil, hj, Except.ok.injEq] at hi
      exact ⟨List.append_nil _, (List.cons.inj has).1.symm, hi.symm⟩
    | cons a as =>
      rw [(List.cons.inj has).1] at hjb
      exact absurd hjb (not_blocks_of_left hi hj)

end Disk

/-! ### The directory of an item -/

namespace LayoutItem

/-- The item stands in the directory that the layout begins in, or in that of an earlier item. -/
def RestsOn (done : List LayoutItem) (i : LayoutItem) : Prop :=
  i.lead = [] ∨ ∃ j ∈ done, j.content? = none ∧ j.names = i.lead

/-- Each of the items rests on those before it. -/
def Rest : List LayoutItem → List LayoutItem → Prop
  | _, [] => True
  | done, i :: r => i.RestsOn done ∧ Rest (done ++ [i]) r

theorem rest_append : Rest done (xs ++ ys) ↔ Rest done xs ∧ Rest (done ++ xs) ys := by
  induction xs generalizing done with
  | nil => simp [Rest]
  | cons i r ih => simp [Rest, ih, and_assoc]

end LayoutItem

namespace LayoutEntry

open LayoutItem (Rest RestsOn)

mutual

theorem rest_items (done : List LayoutItem) (lead : List String)
    (h : lead = [] ∨ ∃ j ∈ done, j.content? = none ∧ j.names = lead) :
    (e : LayoutEntry) → Rest done (e.items lead)
  | directory name children => by
    rw [items, Rest]
    have hmade : ∃ j ∈ done ++ [⟨lead, name, none⟩], j.content? = none ∧ j.names = lead ++ [name] :=
      ⟨⟨lead, name, none⟩, by simp, rfl, rfl⟩
    exact ⟨h, rest_itemsOfList _ (lead ++ [name]) (.inr hmade) children⟩
  | file name content => by
    rw [items, Rest]
    exact ⟨h, trivial⟩

/-- **Every item of a layout rests on those before it.** -/
theorem rest_itemsOfList (done : List LayoutItem) (lead : List String)
    (h : lead = [] ∨ ∃ j ∈ done, j.content? = none ∧ j.names = lead) :
    (es : List LayoutEntry) → Rest done (itemsOfList lead es)
  | [] => by rw [itemsOfList, Rest]; trivial
  | e :: r => by
    rw [itemsOfList, LayoutItem.rest_append]
    refine ⟨rest_items done lead h e, rest_itemsOfList _ lead (h.imp_right ?_) r⟩
    rintro ⟨j, hj, hdir⟩
    exact ⟨j, List.mem_append_left _ hj, hdir⟩

end

end LayoutEntry

namespace Build

open LayoutItem (Rest RestsOn)

variable {s t : Site}

/-! ### Items one after the other -/

/-- Makes items one after the other. -/
def makeItems (base : Path) : List LayoutItem → Work (List BuildStep)
  | [] => pure []
  | i :: r => do
    let steps ← makeItem base i
    let rest ← makeItems base r
    pure (steps ++ rest)

theorem makeItems_append : makeItems base (xs ++ ys) = (do
    let steps ← makeItems base xs
    let rest ← makeItems base ys
    pure (steps ++ rest)) := by
  induction xs with
  | nil => simp [makeItems]
  | cons i r ih => simp only [List.cons_append, makeItems, ih, bind_assoc, pure_bind, List.append_assoc]

mutual

theorem makeEntry_eq_makeItems (lead : List String) : (e : LayoutEntry) →
    makeEntry (base.joinNames lead) e = makeItems base (e.items lead)
  | .directory name children => by
    rw [makeEntry_directory, LayoutEntry.items, makeItems,
      makeEntries_eq_makeItems (lead ++ [name]) children]
  | .file name content => by
    simp [makeEntry_file, LayoutEntry.items, makeItems]

/-- **However deep entries are nested, their items are made one after the other**, so that the first
failure ends all of it. -/
theorem makeEntries_eq_makeItems (lead : List String) : (es : List LayoutEntry) →
    makeEntries (base.joinNames lead) es = makeItems base (LayoutEntry.itemsOfList lead es)
  | [] => rfl
  | e :: r => by
    rw [makeEntries, LayoutEntry.itemsOfList, makeItems_append, makeEntry_eq_makeItems lead e,
      makeEntries_eq_makeItems lead r]

end

section

variable {p : Path} {n : String} (h : s.disk.Leads p l) (hn : PlainName n)

include h hn

/-- Below a directory, a directory cannot be made, or a file is in the way, or it is there then. -/
theorem makeDirectory_cases :
    (∃ g, Build.makeDirectory (p.joinName n) s = (.error (.ioFailure (p.joinName n) g), s)) ∨
    (s.disk.isFile (p.joinName n) = true ∧ Build.makeDirectory (p.joinName n) s =
      (.error (.conflict (p.joinName n) (conflictReason .directory)), s)) ∨
    ∃ t, Build.makeDirectory (p.joinName n) s = (.ok (), t) ∧
      (if s.disk.isDirectory (p.joinName n) then .ok s.disk
        else s.disk.makeDirectory (p.joinName n)) = .ok t.disk ∧
      t.disk.Leads (p.joinName n) (l ++ [n]) := by
  have hmake := makeDirectory_joinName h hn
  by_cases hlong : Disk.TooLong p n
  · exact .inl ⟨.nameTooLong, by rw [hmake, if_pos hlong]⟩
  refine .inr ?_
  have hdir := Disk.isDirectory_joinName h hn hlong
  rw [if_neg hlong] at hmake
  cases hv : s.disk.view (l ++ [n]) with
  | none =>
    rw [hv] at hmake
    have hno : ¬ s.disk.isDirectory (p.joinName n) = true := by simp [hdir, hv]
    have hnew := Disk.view_put_directory h.directory (k := n) (by simp [hv])
    have hkeeps := View.Keeps.update (σ := s.disk.view) (l := l ++ [n]) (s := .directory)
      (by simp [hv])
    refine .inr ⟨_, hmake, ?_, ?_⟩
    · simp [if_neg hno, Disk.makeDirectory_joinName h hn, if_neg hlong, hv]
    · refine (h.of_keeps (Disk.home_put ..) (hnew ▸ hkeeps)).joinName hn hlong ?_
      simp [hnew]
  | some st =>
    rw [hv] at hmake
    cases st with
    | directory =>
      exact .inr ⟨s, hmake, if_pos (hdir.2 hv), h.joinName hn hlong hv⟩
    | file c =>
      exact .inl ⟨(Disk.isFile_joinName h hn hlong).2 ⟨c, hv⟩, hmake⟩

/-- Below a directory, a file cannot be written, or a directory is in the way, or it is written. -/
theorem writeFile_cases (c : String) :
    (∃ g, Build.writeFile (p.joinName n) c s = (.error (.ioFailure (p.joinName n) g), s)) ∨
    (s.disk.isDirectory (p.joinName n) = true ∧ Build.writeFile (p.joinName n) c s =
      (.error (.conflict (p.joinName n) (conflictReason (.file (.text c)))), s)) ∨
    ∃ t, Build.writeFile (p.joinName n) c s = (.ok (), t) ∧
      s.disk.writeFile (p.joinName n) (.text c) = .ok t.disk := by
  have hwrite := writeFile_joinName h hn c
  have hdisk := Disk.writeFile_joinName h hn (.text c)
  by_cases hlong : Disk.TooLong p n
  · exact .inl ⟨.nameTooLong, by rw [hwrite, if_pos hlong]⟩
  rw [if_neg hlong] at hwrite hdisk
  by_cases hv : s.disk.view (l ++ [n]) = some .directory
  · rw [if_pos hv] at hwrite
    exact .inr (.inl ⟨(Disk.isDirectory_joinName h hn hlong).2 hv, hwrite⟩)
  · rw [if_neg hv] at hwrite hdisk
    exact .inr (.inr ⟨_, hwrite, hdisk⟩)

end

/-- **Making one item**: an operation fails, or the item is blocked, or it is put in its place. -/
theorem makeItem_cases (h : s.disk.Leads (base.joinNames i.lead) l) (hn : PlainName i.name) :
    (∃ g, makeItem base i s = (.error (.ioFailure (i.path base) g), s)) ∨
    (s.disk.Blocks base i ∧
      makeItem base i s = (.error (.conflict (i.path base) (conflictReason i.wanted)), s)) ∨
    ∃ t, makeItem base i s = (.ok [i.step base], t) ∧ s.disk.makeItem base i = .ok t.disk ∧
      (i.content? = none → t.disk.Leads (i.path base) (l ++ [i.name])) := by
  obtain ⟨lead, n, content?⟩ := i
  cases content? with
  | none =>
    have hcases := makeDirectory_cases h hn
    rw [← path_eq_joinName base ⟨lead, n, none⟩] at hcases
    rcases hcases with ⟨g, hg⟩ | ⟨hfile, hg⟩ | ⟨t, ht, hdisk, hleads⟩
    · exact .inl ⟨g, Work.bind_of_error hg⟩
    · exact .inr (.inl ⟨hfile, Work.bind_of_error hg⟩)
    · exact .inr (.inr ⟨_, Work.bind_of_ok ht, hdisk, fun _ => hleads⟩)
  | some c =>
    have hcases := writeFile_cases h hn c
    rw [← path_eq_joinName base ⟨lead, n, some c⟩] at hcases
    rcases hcases with ⟨g, hg⟩ | ⟨hdir, hg⟩ | ⟨t, ht, hdisk⟩
    · exact .inl ⟨g, Work.bind_of_error hg⟩
    · exact .inr (.inl ⟨hdir, Work.bind_of_error hg⟩)
    · exact .inr (.inr ⟨_, Work.bind_of_ok ht, hdisk, fun h => nomatch h⟩)

/-! ### A run of items -/

/-- The base path leads to its place, and the directories of items that have been made are there. -/
structure Ground (base : Path) (place : Location) (done : List LayoutItem) (d : Disk) : Prop where
  leads_base : d.Leads base place
  made : ∀ j ∈ done, j.content? = none → d.Leads (j.path base) (place ++ j.names)

theorem Ground.leads (h : Ground base place done d) (hi : i.RestsOn done) :
    d.Leads (base.joinNames i.lead) (place ++ i.lead) := by
  rcases hi with hlead | ⟨j, hj, hdir, hlead⟩
  · simpa [hlead] using h.leads_base
  · rw [← hlead]
    exact h.made j hj hdir

/-- An item that has been put in its place adds its directory. -/
theorem Ground.step (h : Ground base place done d) (hput : d.makeItem base i = .ok e)
    (hi : i.content? = none → e.Leads (i.path base) (place ++ i.names)) :
    Ground base place (done ++ [i]) e := by
  have hchange := Disk.changesAt_makeItem hput
  refine ⟨h.leads_base.of_keeps hchange.home hchange.keeps, fun j hj hdir => ?_⟩
  rcases List.mem_append.1 hj with hj | hj
  · exact (h.made j hj hdir).of_keeps hchange.home hchange.keeps
  · obtain rfl := List.mem_singleton.1 hj
    exact hi hdir

/-- **Making items one after the other**: an operation fails, or one of them is blocked on the disk
that those before it have left, or all are put in their places. -/
theorem makeItems_cases (hg : Ground base place done s.disk) (hrest : Rest done rest)
    (hn : ∀ i ∈ rest, PlainName i.name) :
    (∃ p g t, makeItems base rest s = (.error (.ioFailure p g), t)) ∨
    (∃ before i after t, rest = before ++ i :: after ∧
      before.foldlM (Disk.makeItem base) s.disk = .ok t.disk ∧ t.disk.Blocks base i ∧
      makeItems base rest s =
        (.error (.conflict (i.path base) (conflictReason i.wanted)), t)) ∨
    ∃ t, rest.foldlM (Disk.makeItem base) s.disk = .ok t.disk ∧
      makeItems base rest s = (.ok (rest.map (LayoutItem.step base)), t) := by
  induction rest generalizing done s with
  | nil => exact .inr (.inr ⟨s, rfl, rfl⟩)
  | cons i r ih =>
    obtain ⟨hi, hr⟩ := hrest
    have hplain := hn i (by simp)
    rw [makeItems]
    rcases makeItem_cases (hg.leads hi) hplain with ⟨g, hfail⟩ | ⟨hblocks, hfail⟩ | ⟨t, ht, hput, hdir⟩
    · exact .inl ⟨_, g, s, Work.bind_of_error hfail⟩
    · exact .inr (.inl ⟨[], i, r, s, rfl, rfl, hblocks, Work.bind_of_error hfail⟩)
    -- the rest goes on from the disk that the first item leaves
    have hground : Ground base place (done ++ [i]) t.disk := by
      refine hg.step hput fun hc => ?_
      rw [LayoutItem.names, ← List.append_assoc]
      exact hdir hc
    have hleft : ∀ xs, (i :: xs).foldlM (Disk.makeItem base) s.disk =
        xs.foldlM (Disk.makeItem base) t.disk := fun xs => by
      rw [List.foldlM_cons, hput]
      rfl
    rw [Work.bind_of_ok ht]
    rcases ih hground hr fun j hj => hn j (by simp [hj]) with
      ⟨p, g, u, hu⟩ | ⟨before, j, after, u, hsplit, hu, hblocks, hfail⟩ | ⟨u, hu, hall⟩
    · exact .inl ⟨p, g, u, Work.bind_of_error hu⟩
    · refine .inr (.inl ⟨i :: before, j, after, u, by rw [hsplit]; rfl, ?_, hblocks,
        Work.bind_of_error hfail⟩)
      rw [hleft, hu]
    · refine .inr (.inr ⟨u, by rw [hleft, hu], ?_⟩)
      rw [Work.bind_of_ok hall]
      rfl

end Build

namespace Specification

open Build

variable {spec : Specification} {root : Path} {s t : Site}

/-- After its base path a build makes its items. -/
theorem build_of_base (hf : spec.fault? = none)
    (hbase : Build.makeDirectory (spec.base root) s = (.ok (), t)) : spec.build root s = (do
      let steps ← makeItems (spec.base root) spec.items
      Work.info (BuildReport.mk (spec.base root) steps).summary
      pure ⟨spec.base root, steps⟩ : Work BuildReport) t := by
  have hvalid : Work.ofExcept spec.validate s = (.ok (), s) := by rw [validate, hf]; rfl
  have hitems : makeEntries ((spec.base root).joinNames []) spec.entries =
      makeItems (spec.base root) spec.items := makeEntries_eq_makeItems [] spec.entries
  rw [Path.joinNames_nil] at hitems
  rw [build_eq, Work.bind_of_ok hvalid, Work.bind_of_ok hbase, hitems]

/-- **All that a build can come to from its base path on.** -/
theorem build_of_base_cases (hf : spec.fault? = none)
    (hbase : Build.makeDirectory (spec.base root) s = (.ok (), t)) :
    (∃ p g, (spec.build root s).1 = .error (.ioFailure p g)) ∨
    (∃ before i after d, spec.items = before ++ i :: after ∧
      before.foldlM (Disk.makeItem (spec.base root)) t.disk = .ok d ∧
      d.Blocks (spec.base root) i ∧ (spec.build root s).2.disk = d ∧ (spec.build root s).1 =
        .error (.conflict (i.path (spec.base root)) (conflictReason i.wanted))) ∨
    ∃ d report, spec.items.foldlM (Disk.makeItem (spec.base root)) t.disk = .ok d ∧
      (spec.build root s).1 = .ok report := by
  obtain ⟨-, ⟨place, hleads⟩, -⟩ := makeDirectory_eq_ok hbase (base_text_ne_empty hf)
  have hground : Ground (spec.base root) place [] t.disk := ⟨hleads, fun j hj => by cases hj⟩
  have hrest : LayoutItem.Rest [] spec.items :=
    LayoutEntry.rest_itemsOfList [] [] (.inl rfl) spec.entries
  have hbuild := build_of_base hf hbase
  rcases makeItems_cases hground hrest (fault?_eq_none.1 hf).2.2 with
    ⟨p, g, u, hu⟩ | ⟨before, i, after, u, hsplit, hu, hblocks, hfail⟩ | ⟨u, hu, hall⟩
  · rw [Work.bind_of_error hu] at hbuild
    exact .inl ⟨p, g, congrArg Prod.fst hbuild⟩
  · rw [Work.bind_of_error hfail] at hbuild
    exact .inr (.inl ⟨before, i, after, u.disk, hsplit, hu, hblocks, by rw [hbuild], by rw [hbuild]⟩)
  · rw [Work.bind_of_ok hall] at hbuild
    exact .inr (.inr ⟨u.disk, _, hu, congrArg Prod.fst hbuild⟩)

/-- **Where a build stops.** If the base path can be made and no operation fails, a build fails
exactly if some item is blocked on the disk that the items before it have left; there is only one
such item, the conflict is at its path, and the disk is the one that it was blocked on. -/
theorem build_stops (hf : spec.fault? = none)
    (hbase : Build.makeDirectory (spec.base root) s = (.ok (), t))
    (hio : ∀ p g, (spec.build root s).1 ≠ .error (.ioFailure p g)) :
    let base := spec.base root
    ((∃ failure, (spec.build root s).1 = .error failure) ↔
      ∃ before i after d, spec.items = before ++ i :: after ∧
        before.foldlM (Disk.makeItem base) t.disk = .ok d ∧ d.Blocks base i) ∧
    ∀ before i after d, spec.items = before ++ i :: after →
      before.foldlM (Disk.makeItem base) t.disk = .ok d → d.Blocks base i →
      (spec.build root s).1 = .error (.conflict (i.path base) (conflictReason i.wanted)) ∧
      (spec.build root s).2.disk = d ∧
      ∀ before' j after' e, before = before' ++ j :: after' →
        before'.foldlM (Disk.makeItem base) t.disk = .ok e → ¬ e.Blocks base j := by
  intro base
  rcases build_of_base_cases hf hbase with
    ⟨p, g, hfail⟩ | ⟨before, i, after, d, hsplit, hleft, hblocks, hdisk, hfail⟩ | ⟨d, r, hleft, hok⟩
  · exact absurd hfail (hio p g)
  · refine ⟨⟨fun _ => ⟨before, i, after, d, hsplit, hleft, hblocks⟩, fun _ => ⟨_, hfail⟩⟩, ?_⟩
    intro before' i' after' d' hsplit' hleft' hblocks'
    obtain ⟨rfl, rfl, rfl⟩ := Disk.first_blocked_unique (hsplit.symm.trans hsplit')
      hleft hblocks hleft' hblocks'
    refine ⟨hfail, hdisk, ?_⟩
    rintro before'' j after'' e rfl he
    exact Disk.not_blocks_of_left hleft he
  · -- all items have been put in their places, so that none was blocked
    have hnone : ∀ before i after e, spec.items = before ++ i :: after →
        before.foldlM (Disk.makeItem base) t.disk = .ok e → ¬ e.Blocks base i := by
      intro before i after e hsplit he
      rw [hsplit] at hleft
      exact Disk.not_blocks_of_left hleft he
    refine ⟨⟨fun ⟨f, hf⟩ => ?_, fun ⟨before, i, after, e, hsplit, he, hblocks⟩ => ?_⟩, ?_⟩
    · rw [hok] at hf
      cases hf
    · exact absurd hblocks (hnone before i after e hsplit he)
    · intro before i after e hsplit he hblocks
      exact absurd hblocks (hnone before i after e hsplit he)

/-- Of two directories of one name, the second has a directory where the first has a file. -/
def tangled : Specification :=
  ⟨"demo", ⟨"out"⟩, [.directory "src" [.file "a" "text"],
    .directory "src" [.file "b" "text", .directory "a" [.file "x" ""], .file "c" ""], .file "d" ""]⟩

/-- The items of `tangled` before the one that is blocked. -/
def tangledBefore : List LayoutItem :=
  [⟨[], "src", none⟩, ⟨["src"], "a", some "text"⟩, ⟨[], "src", none⟩, ⟨["src"], "b", some "text"⟩]

theorem build_tangled : tangled.fault? = none ∧
    (tangled.build ⟨"."⟩ Site.empty).1 =
      .error (.conflict ⟨"./out/demo/src/a"⟩ "a file exists where a directory is expected") ∧
    (tangledBefore.foldlM (Disk.makeItem (tangled.base ⟨"."⟩))
      (Build.makeDirectory (tangled.base ⟨"."⟩) Site.empty).2.disk).toOption =
        some (tangled.build ⟨"."⟩ Site.empty).2.disk := by
  have hf : tangled.fault? = none := by decide +kernel
  have hok : (Build.makeDirectory (tangled.base ⟨"."⟩) Site.empty).1.isOk = true := by
    decide +kernel
  have hio : ∀ p g, (tangled.build ⟨"."⟩ Site.empty).1 ≠ .error (.ioFailure p g) := by
    have hkind : (match (tangled.build ⟨"."⟩ Site.empty).1 with
      | .error (.ioFailure _ _) => false
      | _ => true) = true := by decide +kernel
    intro p g h
    rw [h] at hkind
    cases hkind
  obtain ⟨t, ht⟩ : ∃ t, Build.makeDirectory (tangled.base ⟨"."⟩) Site.empty = (.ok (), t) := by
    obtain ⟨u, hu⟩ := exists_of_isOk hok
    refine ⟨(Build.makeDirectory (tangled.base ⟨"."⟩) Site.empty).2, ?_⟩
    rw [← hu]
  have hleft : (tangledBefore.foldlM (Disk.makeItem (tangled.base ⟨"."⟩))
      (Build.makeDirectory (tangled.base ⟨"."⟩) Site.empty).2.disk).toOption.map
        (·.isFile ⟨"./out/demo/src/a"⟩) = some true := by decide +kernel
  have hpath : LayoutItem.path (tangled.base ⟨"."⟩) ⟨["src"], "a", none⟩ = ⟨"./out/demo/src/a"⟩ := by
    decide +kernel
  rw [ht] at hleft ⊢
  obtain ⟨d, hd, hfile⟩ := Option.map_eq_some_iff.1 hleft
  obtain ⟨hfail, hdisk, -⟩ := (build_stops hf ht hio).2 tangledBefore ⟨["src"], "a", none⟩
    [⟨["src", "a"], "x", some ""⟩, ⟨["src"], "c", some ""⟩, ⟨[], "d", some ""⟩] d rfl
    (eq_ok_of_toOption hd) (by rw [Disk.Blocks, hpath]; exact hfile)
  rw [hpath] at hfail
  exact ⟨hf, hfail, by rw [hd, hdisk]⟩

end Specification

end Scaffold
