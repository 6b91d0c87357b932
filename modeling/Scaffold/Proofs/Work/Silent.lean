import Scaffold.Proofs.Work.Reads

/-!
# Work that prints nothing

Most work leaves the lines that have been printed as they are (`Silent`), and so does a sequence of
such work. Work that only reads is silent.
-/

namespace Scaffold.Work

variable {α β : Type} {m : Work α} {g : α → Work β} {s t : Site}

/-- **Nothing is printed**, whatever the outcome. -/
def Silent (m : Work α) : Prop := ∀ s, (m s).2.lines = s.lines

theorem Reads.silent (h : Reads m) : Silent m := by
  intro s
  obtain ⟨ns, hs⟩ := h.site s
  rw [hs]

theorem Silent.lines_eq {r : Except Failure α} (h : Silent m) (hm : m s = (r, t)) :
    t.lines = s.lines := by
  rw [← h s, hm]

/-- Silent work that depends on the disk alone, on two sites with the same disk. -/
theorem Silent.outcomes (h : Silent m) (hm : Local m) (hd : s.disk = t.disk) :
    ∃ r u v, m s = (r, u) ∧ m t = (r, v) ∧ u.disk = v.disk ∧ u.lines = s.lines ∧
      v.lines = t.lines := by
  obtain ⟨hr, hdisk⟩ := hm s t hd
  exact ⟨(m s).1, (m s).2, (m t).2, rfl, Prod.ext hr.symm rfl, hdisk, h s, h t⟩

namespace Silent

theorem bind (hm : Silent m) (hg : ∀ a, Silent (g a)) : Silent (m >>= g) := by
  intro s
  have hs := hm s
  obtain ⟨r, t, ht⟩ : ∃ r t, m s = (r, t) := ⟨_, _, rfl⟩
  rw [ht] at hs
  cases r with
  | error f => rwa [bind_of_error ht]
  | ok a => rw [bind_of_ok ht, hg a t, hs]

theorem ite {c : Prop} [Decidable c] {k : Work α} (hm : Silent m) (hk : Silent k) :
    Silent (if c then m else k) := by
  split
  · exact hm
  · exact hk

theorem atStage (h : Silent m) (stage : Stage) : Silent (Work.atStage stage m) := by
  intro s
  rw [atStage_apply]
  exact h s

theorem attempt (h : Silent m) : Silent (Work.attempt m) := fun s => h s

theorem newShelf : Silent Work.newShelf := fun _ => rfl

theorem shelved? (shelf : Nat) (name : String) : Silent (Work.shelved? shelf name) := fun _ => rfl

theorem shelfNames (shelf : Nat) : Silent (Work.shelfNames shelf) := fun _ => rfl

theorem putOnShelf (shelf : Nat) (name : String) (x : Template) :
    Silent (Work.putOnShelf shelf name x) := fun _ => rfl

theorem makeDirectories (p : Path) : Silent (Work.makeDirectories p) := by
  intro s
  rw [makeDirectories_apply]

theorem writeFile (p : Path) (text : String) : Silent (Work.writeFile p text) := by
  intro s
  rw [writeFile_apply]
  cases s.disk.writeFile p (.text text) <;> rfl

end Silent

end Scaffold.Work
