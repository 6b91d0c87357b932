import Scaffold.Proofs.Work

/-!
# Work that only reads

Some work only looks at the disk: its result depends on nothing else, and nothing but notices is left
behind (`Reads`). Other work may write to the disk but looks at nothing else (`Local`). Both are true
of a sequence if they are true of its parts.
-/

namespace Scaffold.Work

variable {α β : Type} {m : Work α} {g : α → Work β} {s : Site}

/-- **The result depends on the disk alone**, and only notices are left behind. -/
structure Reads (m : Work α) : Prop where
  result : ∀ s, (m s).1 = (m (Site.on s.disk)).1
  site : ∀ s, ∃ ns, (m s).2 = { s with notices := ns }

namespace Reads

theorem disk_eq (h : Reads m) (s : Site) : (m s).2.disk = s.disk := by
  obtain ⟨ns, hs⟩ := h.site s
  rw [hs]

theorem shelves_eq (h : Reads m) (s : Site) : (m s).2.shelves = s.shelves := by
  obtain ⟨ns, hs⟩ := h.site s
  rw [hs]

/-- Sites with the same disk give the same result. -/
theorem result_congr {t : Site} (h : Reads m) (hd : s.disk = t.disk) : (m s).1 = (m t).1 := by
  rw [h.result s, h.result t, hd]

theorem pure (a : α) : Reads (Pure.pure a : Work α) := ⟨fun _ => rfl, fun s => ⟨s.notices, rfl⟩⟩

theorem fail (f : Failure) : Reads (Work.fail f : Work α) := ⟨fun _ => rfl, fun s => ⟨s.notices, rfl⟩⟩

theorem ofExcept (r : Except Failure α) : Reads (Work.ofExcept r) := by
  cases r with
  | error f => exact fail f
  | ok a => exact pure a

theorem notice (level : NoticeLevel) (text : String) : Reads (Work.notice level text) :=
  ⟨fun _ => rfl, fun s => ⟨⟨level, text⟩ :: s.notices, rfl⟩⟩

theorem disk : Reads Work.disk := ⟨fun _ => rfl, fun s => ⟨s.notices, rfl⟩⟩

theorem bind (hm : Reads m) (hg : ∀ a, Reads (g a)) : Reads (m >>= g) := by
  -- on both sites the first part has the same result, and the second part sees the same disk
  have hsame : ∀ s, ∃ r ns ns', m s = (r, { s with notices := ns }) ∧
      m (Site.on s.disk) = (r, { Site.on s.disk with notices := ns' }) := by
    intro s
    obtain ⟨ns, hs⟩ := hm.site s
    obtain ⟨ns', hs'⟩ := hm.site (Site.on s.disk)
    exact ⟨_, ns, ns', Prod.ext rfl hs, Prod.ext (hm.result s).symm hs'⟩
  constructor
  · intro s
    obtain ⟨r, ns, ns', hs, hs'⟩ := hsame s
    cases r with
    | error f => rw [bind_of_error hs, bind_of_error hs']
    | ok a =>
      rw [bind_of_ok hs, bind_of_ok hs']
      exact (hg a).result_congr rfl
  · intro s
    obtain ⟨r, ns, -, hs, -⟩ := hsame s
    cases r with
    | error f => exact ⟨ns, by rw [bind_of_error hs]⟩
    | ok a =>
      obtain ⟨ns'', ht⟩ := (hg a).site { s with notices := ns }
      exact ⟨ns'', by rw [bind_of_ok hs, ht]⟩

/-- The results alone make up the result of a sequence. -/
theorem fst_bind (hm : Reads m) (hg : ∀ a, Reads (g a)) (s : Site) :
    ((m >>= g) s).1 = (m s).1 >>= fun a => (g a s).1 := by
  obtain ⟨ns, hs⟩ := hm.site s
  cases hr : (m s).1 with
  | error f => exact congrArg Prod.fst (bind_of_error (Prod.ext hr hs))
  | ok a =>
    rw [bind_of_ok (Prod.ext hr hs)]
    exact (hg a).result_congr rfl

theorem ite {c : Prop} [Decidable c] {k : Work α} (hm : Reads m) (hk : Reads k) :
    Reads (if c then m else k) := by
  split
  · exact hm
  · exact hk

theorem readText (p : Path) : Reads (Work.readText p) := by
  refine disk.bind fun d => ?_
  cases d.readText p with
  | error f => exact fail _
  | ok text => exact pure text

theorem atStage (h : Reads m) (stage : Stage) : Reads (Work.atStage stage m) := by
  refine ⟨fun s => ?_, fun s => ?_⟩
  · rw [atStage_apply, atStage_apply, h.result s]
  · rw [atStage_apply]
    exact h.site s

end Reads

/-- **The result and the disk afterwards depend on the disk alone.** -/
def Local (m : Work α) : Prop :=
  ∀ s t : Site, s.disk = t.disk → (m s).1 = (m t).1 ∧ (m s).2.disk = (m t).2.disk

theorem Reads.isLocal (h : Reads m) : Local m := by
  intro s t hd
  exact ⟨h.result_congr hd, by rw [h.disk_eq, h.disk_eq, hd]⟩

namespace Local

theorem bind (hm : Local m) (hg : ∀ a, Local (g a)) : Local (m >>= g) := by
  intro s t hd
  obtain ⟨hr, hd'⟩ := hm s t hd
  obtain ⟨r, u, hu⟩ : ∃ r u, m s = (r, u) := ⟨_, _, rfl⟩
  obtain ⟨r', v, hv⟩ : ∃ r' v, m t = (r', v) := ⟨_, _, rfl⟩
  rw [hu, hv] at hr hd'
  obtain rfl : r = r' := hr
  cases r with
  | error f =>
    rw [bind_of_error hu, bind_of_error hv]
    exact ⟨rfl, hd'⟩
  | ok a =>
    rw [bind_of_ok hu, bind_of_ok hv]
    exact hg a u v hd'

theorem ite {c : Prop} [Decidable c] {k : Work α} (hm : Local m) (hk : Local k) :
    Local (if c then m else k) := by
  split
  · exact hm
  · exact hk

theorem atStage (h : Local m) (stage : Stage) : Local (Work.atStage stage m) := by
  intro s t hd
  obtain ⟨hr, hd'⟩ := h s t hd
  rw [atStage_apply, atStage_apply, hr]
  exact ⟨rfl, hd'⟩

theorem makeDirectories (p : Path) : Local (Work.makeDirectories p) := by
  intro s t hd
  rw [makeDirectories_apply, makeDirectories_apply, hd]
  exact ⟨rfl, rfl⟩

theorem writeFile (p : Path) (text : String) : Local (Work.writeFile p text) := by
  intro s t hd
  rw [writeFile_apply, writeFile_apply, hd]
  cases t.disk.writeFile p (.text text) with
  | error f => exact ⟨rfl, hd⟩
  | ok d => exact ⟨rfl, rfl⟩

end Local

end Scaffold.Work
