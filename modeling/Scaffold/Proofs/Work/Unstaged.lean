import Scaffold.Proofs.Work

/-!
# Failures that belong to no stage

What fails with failures of no stage does so in sequence, too, and one stage noted around it is the
only one (`Unstaged.atStage`).
-/

namespace Scaffold

variable {α β : Type}

/-- A failure, if there is one, belongs to no stage. -/
def Unstaged (r : Except Failure α) : Prop := ∀ f, r = .error f → f.stage? = none

namespace Unstaged

theorem ok (a : α) : Unstaged (.ok a : Except Failure α) := fun _ h => nomatch h

theorem error {f : Failure} (h : f.stage? = none) : Unstaged (.error f : Except Failure α) := by
  rintro g ⟨⟩
  exact h

theorem bind {r : Except Failure α} {g : α → Except Failure β} (hr : Unstaged r)
    (hg : ∀ a, Unstaged (g a)) : Unstaged (r >>= g) := by
  cases r with
  | error f => exact error (hr f rfl)
  | ok a => exact hg a

theorem mapError {ε : Type} {g : ε → Failure} (r : Except ε α) (h : ∀ e, (g e).stage? = none) :
    Unstaged (r.mapError g) := by
  cases r with
  | error e => exact error (h e)
  | ok a => exact ok a

end Unstaged

namespace Work

/-- Every failure of the work belongs to no stage. -/
def Unstaged (m : Work α) : Prop := ∀ s, Scaffold.Unstaged (m s).1

namespace Unstaged

variable {m : Work α} {g : α → Work β} {s t : Site}

theorem pure (a : α) : Unstaged (Pure.pure a : Work α) := fun _ => .ok a

theorem fail {f : Failure} (h : f.stage? = none) : Unstaged (Work.fail f : Work α) :=
  fun _ => .error h

theorem ofExcept {r : Except Failure α} (h : Scaffold.Unstaged r) : Unstaged (Work.ofExcept r) := by
  intro s
  cases r with
  | error f => exact h
  | ok a => exact .ok a

theorem notice (level : NoticeLevel) (text : String) : Unstaged (Work.notice level text) :=
  fun _ => .ok ()

theorem disk : Unstaged Work.disk := fun _ => .ok _

theorem bind (hm : Unstaged m) (hg : ∀ a, Unstaged (g a)) : Unstaged (m >>= g) := by
  intro s
  obtain ⟨r, t, ht⟩ : ∃ r t, m s = (r, t) := ⟨_, _, rfl⟩
  cases r with
  | error f =>
    rw [bind_of_error ht]
    have hf := hm s f (by rw [ht])
    exact .error hf
  | ok a =>
    rw [bind_of_ok ht]
    exact hg a t

theorem ite {c : Prop} [Decidable c] {k : Work α} (hm : Unstaged m) (hk : Unstaged k) :
    Unstaged (if c then m else k) := by
  split
  · exact hm
  · exact hk

theorem readText (p : Path) : Unstaged (Work.readText p) := by
  refine disk.bind fun d => ?_
  cases d.readText p with
  | error f => exact fail rfl
  | ok text => exact pure text

theorem makeDirectories (p : Path) : Unstaged (Work.makeDirectories p) := by
  intro s
  rw [makeDirectories_apply]
  cases (s.disk.makeDirectories p).2 with
  | some f => exact .error rfl
  | none => exact .ok ()

theorem writeFile (p : Path) (text : String) : Unstaged (Work.writeFile p text) := by
  intro s
  rw [writeFile_apply]
  cases s.disk.writeFile p (.text text) with
  | error f => exact .error rfl
  | ok d => exact .ok ()

end Unstaged

end Work

end Scaffold
