import Scaffold.Work

/-!
# Running work in sequence

Work in sequence goes on from the site that its first part leaves, or ends there with the failure
of the first part (`bind_of_ok`, `bind_of_error`). What every part of some work preserves of the
disk, the whole preserves (`Preserves.bind`).
-/

namespace Scaffold.Work

variable {α β : Type} {m : Work α} {g : α → Work β} {s t : Site} {a : α} {f : Failure}

theorem bind_of_ok (h : m s = (.ok a, t)) : (m >>= g) s = g a t := by
  change Work.bind m g s = _
  rw [Work.bind, h]

theorem bind_of_error (h : m s = (.error f, t)) : (m >>= g) s = (.error f, t) := by
  change Work.bind m g s = _
  rw [Work.bind, h]

theorem exists_of_bind_eq_ok {b : β} {u : Site} (h : (m >>= g) s = (.ok b, u)) :
    ∃ a t, m s = (.ok a, t) ∧ g a t = (.ok b, u) := by
  obtain ⟨r, t, ht⟩ : ∃ r t, m s = (r, t) := ⟨_, _, rfl⟩
  cases r with
  | error f => rw [bind_of_error ht] at h; cases h
  | ok a => exact ⟨a, t, ht, by rwa [bind_of_ok ht] at h⟩

/-- Work that leaves the site alone only hands on its result. -/
theorem fst_bind {r : Except Failure α} (h : m s = (r, s)) :
    ((m >>= g) s).1 = r >>= fun a => (g a s).1 := by
  cases r with
  | error f => exact congrArg Prod.fst (bind_of_error h)
  | ok a => exact congrArg Prod.fst (bind_of_ok h)

instance : LawfulMonad Work := LawfulMonad.mk' Work
  (fun m => funext fun s => by
    change Work.bind m Work.pure s = m s
    rw [Work.bind]
    cases m s with
    | mk r t => cases r <;> rfl)
  (fun _ _ => rfl)
  (fun m g k => funext fun s => by
    change Work.bind (Work.bind m g) k s = Work.bind m (fun a => Work.bind (g a) k) s
    simp only [Work.bind]
    cases m s with
    | mk r t => cases r <;> rfl)

@[simp] theorem fst_ofExcept (r : Except Failure α) (s : Site) : (ofExcept r s).1 = r := by
  cases r <;> rfl

theorem atStage_apply (stage : Stage) (m : Work α) (s : Site) :
    atStage stage m s = ((m s).1.mapError (.staged stage), (m s).2) := by
  rw [atStage, mapFailure]
  cases m s with
  | mk r t => cases r <;> rfl

theorem atStage_ofExcept (stage : Stage) (r : Except Failure α) (s : Site) :
    atStage stage (ofExcept r) s = (r.mapError (.staged stage), s) := by
  cases r <;> rfl

theorem makeDirectories_apply (p : Path) (s : Site) :
    Work.makeDirectories p s = (match (s.disk.makeDirectories p).2 with
      | some f => .error (.ioFailure p f)
      | none => .ok (), { s with disk := (s.disk.makeDirectories p).1 }) := by
  have hdisk : disk s = (.ok s.disk, s) := rfl
  rw [Work.makeDirectories, bind_of_ok hdisk]
  cases s.disk.makeDirectories p with
  | mk d fault => cases fault <;> rfl

theorem writeFile_apply (p : Path) (text : String) (s : Site) :
    Work.writeFile p text s = match s.disk.writeFile p (.text text) with
      | .ok d => (.ok (), { s with disk := d })
      | .error f => (.error (.ioFailure p f), s) := by
  have hdisk : disk s = (.ok s.disk, s) := rfl
  rw [Work.writeFile, bind_of_ok hdisk]
  cases s.disk.writeFile p (.text text) <;> rfl

theorem readText_of_ok {p : Path} {text : String} (h : s.disk.readText p = .ok text) :
    Work.readText p s = (.ok text, s) := by
  have hdisk : disk s = (.ok s.disk, s) := rfl
  rw [Work.readText, bind_of_ok hdisk, h]
  rfl

/-! ### What work preserves -/

/-- The disk has the property after the work if it had it before, whatever the outcome. -/
def Preserves (P : Disk → Prop) (m : Work α) : Prop := ∀ s, P s.disk → P (m s).2.disk

namespace Preserves

variable {P : Disk → Prop}

theorem pure (a : α) : Preserves P (Pure.pure a : Work α) := fun _ h => h

theorem bind (hm : Preserves P m) (hg : ∀ a, Preserves P (g a)) : Preserves P (m >>= g) := by
  intro s hs
  have hs' := hm s hs
  obtain ⟨r, t, ht⟩ : ∃ r t, m s = (r, t) := ⟨_, _, rfl⟩
  rw [ht] at hs'
  cases r with
  | error f => rwa [bind_of_error ht]
  | ok a =>
    rw [bind_of_ok ht]
    exact hg a t hs'

theorem fail (f : Failure) : Preserves P (Work.fail f : Work α) := fun _ h => h

theorem ofExcept (r : Except Failure α) : Preserves P (Work.ofExcept r) := by
  cases r with
  | error f => exact fail f
  | ok a => exact pure a

theorem notice (level : NoticeLevel) (text : String) : Preserves P (Work.notice level text) :=
  fun _ h => h

theorem makeDirectories (p : Path) (h : ∀ d, P d → P (d.makeDirectories p).1) :
    Preserves P (Work.makeDirectories p) := by
  intro s hs
  rw [makeDirectories_apply]
  exact h _ hs

theorem writeFile (p : Path) (text : String)
    (h : ∀ d e, d.writeFile p (.text text) = .ok e → P d → P e) :
    Preserves P (Work.writeFile p text) := by
  intro s hs
  rw [writeFile_apply]
  cases hw : s.disk.writeFile p (.text text) with
  | error f => exact hs
  | ok d => exact h _ _ hw hs

end Preserves

end Scaffold.Work
