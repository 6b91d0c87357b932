import Scaffold.Proofs.Build.Run

/-!
# The disk after a build

After a build without failure every file of the layout holds the content that was specified last for
its path, every directory of the layout and on the way to it is there, and every other place is as
it was before (`build_final_state`).
-/

namespace Scaffold

open Build

namespace LayoutEntry

mutual

/-- An item stands in the directory that the layout begins in, or in that of another item. -/
theorem lead_of_mem_items (lead : List String) : (e : LayoutEntry) → ∀ i ∈ e.items lead,
    i.lead = lead ∨ ∃ j ∈ e.items lead, j.content? = none ∧ j.names = i.lead
  | directory name children => by
    intro i hi
    rw [items] at hi ⊢
    rcases List.mem_cons.1 hi with rfl | hi
    · exact .inl rfl
    · rcases lead_of_mem_itemsOfList (lead ++ [name]) children i hi with h | ⟨j, hj, hc, hn⟩
      · exact .inr ⟨⟨lead, name, none⟩, by simp, rfl, h.symm⟩
      · exact .inr ⟨j, by simp [hj], hc, hn⟩
  | file name content => by
    intro i hi
    rw [items, List.mem_singleton] at hi
    exact .inl (by rw [hi])

theorem lead_of_mem_itemsOfList (lead : List String) : (es : List LayoutEntry) →
    ∀ i ∈ itemsOfList lead es,
      i.lead = lead ∨ ∃ j ∈ itemsOfList lead es, j.content? = none ∧ j.names = i.lead
  | [] => by simp [itemsOfList]
  | e :: r => by
    intro i hi
    rw [itemsOfList] at hi ⊢
    rcases List.mem_append.1 hi with hi | hi
    · rcases lead_of_mem_items lead e i hi with h | ⟨j, hj, h⟩
      · exact .inl h
      · exact .inr ⟨j, by simp [hj], h⟩
    · rcases lead_of_mem_itemsOfList lead r i hi with h | ⟨j, hj, h⟩
      · exact .inl h
      · exact .inr ⟨j, by simp [hj], h⟩

end

end LayoutEntry

namespace Disk

variable {d : Disk} {p : Path} {l : Location} {c : String}

theorem readText_of_locate (h : d.locate p = .ok l) (hv : d.view l = some (.file (.text c))) :
    d.readText p = .ok c := by
  rw [readText, h]
  simp [bind, Except.bind, view_eq_file.1 hv]

/-- Every prefix of the names of a path that leads to a directory does so too. -/
theorem Leads.of_prefix (h : d.Leads p l) {ps : List (List Char)} (hps : ps <+: p.names) :
    ∃ m, d.walk (d.origin p) ps = .ok m ∧ d.view m = some .directory := by
  obtain ⟨qs, hqs⟩ := hps
  have hw := h.reached
  rw [← hqs] at hw
  obtain ⟨m, hm, hml⟩ := walk_append_eq_ok hw
  refine ⟨m, hm, ?_⟩
  cases qs with
  | nil =>
    rw [walk_nil, if_pos (isSome_view_of_walk hm), Except.ok.injEq] at hml
    rw [hml, h.directory]
  | cons q qs =>
    rw [walk_cons] at hml
    cases hs : d.step m q with
    | error f => rw [hs] at hml; simp [bind, Except.bind] at hml
    | ok k => exact view_of_step hs

end Disk

namespace Specification

variable {spec : Specification} {root : Path} {place : Location} {s t : Site}
variable {report : BuildReport} {i : LayoutItem}

/-- Where nothing is refused, the path to each item's directory leads there in the end. -/
theorem leads_of_mem_items {d : Disk} {σ : View} (hf : spec.fault? = none)
    (hd : d.Leads (spec.base root) place)
    (hv : d.view = (carryOut (spec.base root) place spec.items σ).1)
    (ho : (carryOut (spec.base root) place spec.items σ).2 = none) :
    ∀ i ∈ spec.items, d.Leads ((spec.base root).joinNames i.lead) (place ++ i.lead) := by
  -- by induction on the number of names, since the directory that an item stands in is an item
  suffices h : ∀ n, ∀ i ∈ spec.items, i.lead.length ≤ n →
      d.Leads ((spec.base root).joinNames i.lead) (place ++ i.lead) from
    fun i hi => h _ i hi (Nat.le_refl _)
  intro n
  induction n with
  | zero =>
    intro i hi hn
    rw [List.length_eq_zero_iff.1 (Nat.le_zero.1 hn)]
    simpa using hd
  | succ n ih =>
    intro i hi hn
    rcases LayoutEntry.lead_of_mem_itemsOfList [] spec.entries i hi with h | ⟨j, hj, hc, hjn⟩
    · rw [h]; simpa using hd
    · have hlen : i.lead.length = j.lead.length + 1 := by simp [← hjn, LayoutItem.names]
      have hl := ih j hj (by omega)
      have hplain := (fault?_eq_none.1 hf).2.2 j hj
      have hst := carryOut_mem_directory ho hj hc
      rw [← hv, LayoutItem.names, ← List.append_assoc] at hst
      have hj' := hl.joinName hplain (carryOut_mem ho hj).1 hst
      rw [← hjn, LayoutItem.names]
      simpa using hj'

/-- In the end each item is located below the place that the base path leads to. -/
theorem locate_of_mem_items {d : Disk} {σ : View} (hf : spec.fault? = none)
    (hd : d.Leads (spec.base root) place)
    (hv : d.view = (carryOut (spec.base root) place spec.items σ).1)
    (ho : (carryOut (spec.base root) place spec.items σ).2 = none) (hi : i ∈ spec.items) :
    d.locate (i.path (spec.base root)) = .ok (place ++ i.names) := by
  have hl := leads_of_mem_items hf hd hv ho i hi
  have hplain := (fault?_eq_none.1 hf).2.2 i hi
  obtain ⟨hlong, st, hst, -⟩ := carryOut_mem ho hi
  rw [LayoutItem.names, ← List.append_assoc, ← hv] at hst
  rw [path_eq_joinName, Disk.locate_joinName hl hplain, if_neg hlong, hst, LayoutItem.names,
    List.append_assoc]
  rfl

/-- **The final state of a build that succeeds.** Each file holds the content of the last file of
its path in pre-order; each directory of the layout, the base path and what a prefix of it names are
directories; and what stands anywhere else stood there before. -/
theorem build_final_state (h : (spec.build root s).1 = .ok report) :
    let base := spec.base root
    let after := (spec.build root s).2.disk
    (∀ done i rest c, spec.items = done ++ i :: rest → i.content? = some c →
      (∀ j ∈ rest, j.names = i.names → j.content? = none) →
      after.readText (i.path base) = .ok c) ∧
    (∀ i ∈ spec.items, i.content? = none → after.isDirectory (i.path base) = true) ∧
    after.isDirectory base = true ∧
    (∀ ps, ps <+: base.names → ∃ l, after.walk (after.origin base) ps = .ok l ∧
      after.view l = some .directory) ∧
    after.home = s.disk.home ∧
    ∀ l, ¬ after.NamedByPrefix base l → (∀ i ∈ spec.items, after.locate (i.path base) ≠ .ok l) →
      after.view l = s.disk.view l := by
  intro base after
  obtain ⟨f, -, he⟩ | ⟨-, f, t, -, he⟩ | ⟨hf, place, t, hc, hl, hg, he⟩ := build_cases spec root s
  · rw [he] at h; cases h
  · rw [he] at h; cases h
  have ho : (carryOut base place spec.items t.disk.view).2 = none := by
    have hr := he.result
    rw [h] at hr
    cases ho : (carryOut base place spec.items t.disk.view).2 with
    | none => rfl
    | some f => rw [ho] at hr; cases hr
  have hv : after.view = (carryOut base place spec.items t.disk.view).1 := he.view
  have hk : t.disk.view.Keeps after.view := hv ▸ keeps_carryOut _ _
  have hl' : after.Leads base place := hl.of_keeps he.home hk
  have hloc : ∀ i ∈ spec.items, after.locate (i.path base) = .ok (place ++ i.names) :=
    fun i hi => locate_of_mem_items hf hl' hv ho hi
  refine ⟨?_, ?_, Disk.isDirectory_iff_leads.2 ⟨hc, place, hl'⟩, fun ps => hl'.of_prefix,
    he.home.trans hg.home, ?_⟩
  · intro done i rest c hi hcont hlast
    refine Disk.readText_of_locate (hloc i (by simp [hi])) ?_
    rw [hv, hi]
    rw [hi] at ho
    exact carryOut_last_file ho hcont hlast
  · intro i hi hcont
    exact Disk.isDirectory_iff.2 ⟨_, hloc i hi, by rw [hv, carryOut_mem_directory ho hi hcont]⟩
  · intro l hprefix hitems
    -- neither the items nor the directories on the way to the base path have touched the place
    have hno : ∀ i ∈ spec.items, l ≠ place ++ i.names := fun i hi hli =>
      hitems i hi (hli ▸ hloc i hi)
    rw [hv, carryOut_of_not_mem hno]
    rcases hg.view l with hs | ⟨-, -, hn⟩
    · exact hs
    · exact absurd (hn.of_keeps he.home hk) hprefix

/-- Two directories of one name are merged, and the later of their files of one name stays. -/
def merging : Specification :=
  ⟨"demo", ⟨"out"⟩, [.directory "src" [.file "a" "first"], .directory "src" [.file "a" "second"]]⟩

/-- A site with a directory that is worked in, and a file in it. -/
def occupied : Site :=
  .on ⟨.directory [("work", .directory [("keep", .file (.text "k"))])], ["work"]⟩

theorem build_merging : ∃ report, (merging.build ⟨"."⟩ occupied).1 = .ok report ∧
    (merging.build ⟨"."⟩ occupied).2.disk.readText ⟨"./out/demo/src/a"⟩ = .ok "second" := by
  have hok : (merging.build ⟨"."⟩ occupied).1.isOk = true := by decide +kernel
  cases h : (merging.build ⟨"."⟩ occupied).1 with
  | error f => rw [h] at hok; cases hok
  | ok report =>
    have hfile := (build_final_state h).1
      [⟨[], "src", none⟩, ⟨["src"], "a", some "first"⟩, ⟨[], "src", none⟩]
      ⟨["src"], "a", some "second"⟩ [] "second" (by decide +kernel) rfl (by simp)
    have hp : LayoutItem.path (merging.base ⟨"."⟩) ⟨["src"], "a", some "second"⟩ =
        ⟨"./out/demo/src/a"⟩ := by decide +kernel
    exact ⟨report, rfl, hp ▸ hfile⟩

end Specification

end Scaffold
