import Mathlib.Logic.Function.Basic
import Mathlib.Tactic.SplitIfs
import Scaffold.Disk.Basic
import Scaffold.Proofs.Results

/-!
# What stands at the places of a disk

`Disk.view` gives for each place the directory or the file that stands there. Everything that
following a path looks at is in the view (`step_eq`, `walk_congr`), and following is not disturbed
by changes that keep every entry and its kind (`walk_of_keeps`). Putting a new entry into a
directory changes the view at one place (`view_putAt`).
-/

namespace Scaffold

/-- What stands at a place. -/
inductive Standing
  | directory
  | file (content : Content)
deriving DecidableEq

def Standing.isDirectory : Standing → Bool
  | .directory => true
  | .file _ => false

namespace Standing

@[simp] theorem isDirectory_directory : directory.isDirectory = true := rfl

@[simp] theorem isDirectory_file (c : Content) : (file c).isDirectory = false := rfl

theorem eq_directory {s : Standing} (h : s.isDirectory = true) : s = directory := by
  cases s with
  | directory => rfl
  | file c => cases h

end Standing

/-- What stands at each place. -/
abbrev View := Location → Option Standing

/-- **Every entry is still there, and of its kind.** Files may have other contents. -/
def View.Keeps (σ τ : View) : Prop :=
  ∀ l s, σ l = some s → ∃ t, τ l = some t ∧ t.isDirectory = s.isDirectory

namespace View.Keeps

variable {σ τ υ : View} {l : Location} {s : Standing}

theorem refl (σ : View) : σ.Keeps σ := fun _ s h => ⟨s, h, rfl⟩

theorem trans (h : σ.Keeps τ) (h' : τ.Keeps υ) : σ.Keeps υ := by
  intro l s hs
  obtain ⟨t, ht, hk⟩ := h l s hs
  obtain ⟨u, hu, hk'⟩ := h' l t ht
  exact ⟨u, hu, hk'.trans hk⟩

theorem directory (h : σ.Keeps τ) (hl : σ l = some .directory) : τ l = some .directory := by
  obtain ⟨t, ht, hk⟩ := h l _ hl
  rw [ht, Standing.eq_directory hk]

theorem isSome (h : σ.Keeps τ) (hl : (σ l).isSome) : (τ l).isSome := by
  obtain ⟨s, hs⟩ := Option.isSome_iff_exists.1 hl
  obtain ⟨t, ht, -⟩ := h l s hs
  exact Option.isSome_iff_exists.2 ⟨t, ht⟩

/-- Replacing an entry by one of its kind, or making a new one, keeps every entry. -/
theorem update (h : ∀ t, σ l = some t → t.isDirectory = s.isDirectory) :
    σ.Keeps (Function.update σ l (some s)) := by
  intro m t ht
  by_cases hm : m = l
  · subst hm
    exact ⟨s, by simp, (h t ht).symm⟩
  · exact ⟨t, by rw [Function.update_of_ne hm, ht], rfl⟩

end View.Keeps

@[simp] theorem Content.target?_eq_none (c : Content) : c.target? = none := by
  cases c with
  | link h _ => cases h
  | _ => rfl

namespace DiskEntry

variable {e new : DiskEntry} {l m : Location} {k : String}

@[simp] theorem isLink_eq_false (e : DiskEntry) : e.isLink = false := by
  cases e with
  | directory es => rfl
  | file c => simp [isLink]

/-- Without links a directory lists all its entries. -/
@[simp] theorem filter_isLink (es : List (String × DiskEntry)) :
    (es.filter fun e => !e.2.isLink) = es := by simp

def standing : DiskEntry → Standing
  | .directory _ => .directory
  | .file c => .file c

/-- What stands at each place below an entry. -/
def view (e : DiskEntry) : View := fun l => (e.at? l).map standing

theorem at?_append (e : DiskEntry) (l m : Location) : e.at? (l ++ m) = (e.at? l).bind (at? m) := by
  induction l generalizing e with
  | nil => simp [at?]
  | cons k l ih =>
    cases e with
    | file c => simp [at?]
    | directory es => cases h : es.lookup k <;> simp [at?, h, ih]

@[simp] theorem view_nil (e : DiskEntry) : e.view [] = some e.standing := by simp [view, at?]

@[simp] theorem view_file_cons (c : Content) (k : String) (l : Location) :
    (file c).view (k :: l) = none := by simp [view, at?]

theorem view_directory_cons (es : List (String × DiskEntry)) (k : String) (l : Location) :
    (directory es).view (k :: l) = (es.lookup k).bind fun e => e.view l := by
  cases h : es.lookup k <;> simp [view, at?, h]

theorem exists_of_view_directory (h : e.view [] = some .directory) : ∃ es, e = directory es := by
  cases e with
  | directory es => exact ⟨es, rfl⟩
  | file c => simp [standing] at h

/-- What lies below something that is no directory is nothing. -/
theorem view_append_of_not_directory (h : e.view l ≠ some .directory) (hm : m ≠ []) :
    e.view (l ++ m) = none := by
  obtain ⟨k, r, rfl⟩ := List.exists_cons_of_ne_nil hm
  rw [view] at h ⊢
  rw [at?_append]
  cases hl : e.at? l with
  | none => rfl
  | some f =>
    cases f with
    | directory es => simp [hl, standing] at h
    | file c => simp [at?]

theorem putAt_cons (hl : l ≠ []) (es : List (String × DiskEntry)) :
    putAt new (k :: l) (directory es) = match es.lookup k with
      | some e => directory (Entries.put k (putAt new l e) es)
      | none => directory es := by
  obtain ⟨j, r, rfl⟩ := List.exists_cons_of_ne_nil hl
  rw [putAt]
  · cases es.lookup k <;> rfl
  · simp

theorem view_put_self (es : List (String × DiskEntry)) (k : String) (f : DiskEntry)
    (m : Location) : (directory (Entries.put k f es)).view (k :: m) = f.view m := by
  rw [view_directory_cons, Entries.lookup_put_self, Option.bind_some]

theorem view_put_of_ne {j k : String} (h : j ≠ k) (es : List (String × DiskEntry))
    (f : DiskEntry) (m : Location) :
    (directory (Entries.put k f es)).view (j :: m) = (directory es).view (j :: m) := by
  rw [view_directory_cons, view_directory_cons, Entries.lookup_put_of_ne _ _ h]

/-- **A new entry changes the view only where it is put**: in a directory, in the place of nothing
or of a file, and with nothing below it. -/
theorem view_putAt (hnew : ∀ m, m ≠ [] → new.view m = none) (hl : e.view l = some .directory)
    (hk : e.view (l ++ [k]) ≠ some .directory) :
    (putAt new (l ++ [k]) e).view = Function.update e.view (l ++ [k]) (some new.standing) := by
  induction l generalizing e with
  | nil =>
    obtain ⟨es, rfl⟩ := exists_of_view_directory hl
    funext m
    rw [List.nil_append] at hk ⊢
    cases m with
    | nil => rw [Function.update_of_ne (by simp)]; rfl
    | cons j m =>
      rw [putAt]
      by_cases hj : j = k
      · subst hj
        rw [view_put_self]
        by_cases hm : m = []
        · subst hm; simp
        · -- below the new entry there is nothing, as there was nothing below the old one
          have hb := view_append_of_not_directory hk hm
          rw [Function.update_of_ne (by simpa using hm), hnew m hm, ← hb, List.singleton_append]
      · rw [view_put_of_ne hj, Function.update_of_ne (by simp [hj])]
  | cons i l ih =>
    cases e with
    | file c => simp at hl
    | directory es =>
      rw [view_directory_cons] at hl
      obtain ⟨f, hf, hfl⟩ := Option.bind_eq_some_iff.1 hl
      rw [List.cons_append, view_directory_cons, hf, Option.bind_some] at hk
      have hput := ih hfl hk
      rw [List.cons_append, putAt_cons (by simp), hf]
      funext m
      cases m with
      | nil => rw [Function.update_of_ne (by simp)]; rfl
      | cons j m =>
        by_cases hj : j = i
        · subst hj
          rw [view_put_self, hput]
          by_cases hm : m = l ++ [k]
          · subst hm; simp
          · rw [Function.update_of_ne hm, Function.update_of_ne (by simpa using hm),
              view_directory_cons, hf, Option.bind_some]
        · rw [view_put_of_ne hj, Function.update_of_ne (by simp [hj])]

end DiskEntry

namespace Disk

variable {d e : Disk} {l m : Location} {piece : List Char} {ps qs : List (List Char)}

/-- What stands at each place of a disk. -/
def view (d : Disk) : View := d.root.view

theorem isSome_view (d : Disk) (l : Location) : (d.view l).isSome = (d.at? l).isSome := by
  simp [view, DiskEntry.view, at?]

/-- **A step of following a path, in terms of the view.** -/
theorem step_eq (d : Disk) (l : Location) (piece : List Char) :
    d.step l piece = match d.view l with
      | some .directory =>
        if piece = ['.'] then .ok l
        else if piece = ['.', '.'] then .ok l.dropLast
        else if nameLimit < Text.byteLength piece then .error .nameTooLong
        else if (d.view (l ++ [String.ofList piece])).isSome then .ok (l ++ [String.ofList piece])
        else .error .notFound
      | some (.file _) => .error .notDirectory
      | none => .error .notFound := by
  have hsnoc := DiskEntry.at?_append d.root l [String.ofList piece]
  rw [step, view, DiskEntry.view, DiskEntry.view, hsnoc, at?]
  cases d.root.at? l with
  | none => rfl
  | some f =>
    cases f with
    | file c => rfl
    | directory es =>
      cases hes : es.lookup (String.ofList piece) <;> simp [DiskEntry.standing, DiskEntry.at?, hes]

/-- There are no links on a disk without links. -/
@[simp] theorem linkAt?_eq_none (d : Disk) (l : Location) : d.linkAt? l = none := by
  rw [linkAt?]
  split
  next c _ => exact c.target?_eq_none
  · rfl

theorem reach_nil (d : Disk) (n : Nat) (l : Location) :
    d.reach n l [] = if (d.view l).isSome then .ok (.entry l) else .error .notFound := by
  rw [isSome_view]
  cases n <;> rfl

theorem followTo_cons (d : Disk)
    (onward : Location → Path → List (List Char) → Except IoFault Reached) (l : Location)
    (piece : List Char) (ps : List (List Char)) :
    d.followTo onward l (piece :: ps) = match d.step l piece with
      | .ok m => d.followTo onward m ps
      | .error .notFound =>
        if ps = [] ∧ (d.view l).isSome then .ok (.missing l piece) else .error .notFound
      | .error f => .error f := by
  rw [followTo, isSome_view]
  cases d.step l piece with
  | ok m => simp only [linkAt?_eq_none]
  | error f => cases f <;> rfl

/-- Where there are no links, a path is followed piece by piece. -/
theorem reach_cons (d : Disk) (n : Nat) (l : Location) (piece : List Char)
    (ps : List (List Char)) : d.reach n l (piece :: ps) = match d.step l piece with
      | .ok m => d.reach n m ps
      | .error .notFound =>
        if ps = [] ∧ (d.view l).isSome then .ok (.missing l piece) else .error .notFound
      | .error f => .error f := by
  cases n <;> exact followTo_cons d _ l piece ps

@[simp] theorem walk_nil (d : Disk) (l : Location) :
    d.walk l [] = if (d.view l).isSome then .ok l else .error .notFound := by
  rw [walk, reach_nil]
  split_ifs <;> rfl

theorem walk_cons (d : Disk) (l : Location) (piece : List Char) (ps : List (List Char)) :
    d.walk l (piece :: ps) = d.step l piece >>= fun m => d.walk m ps := by
  rw [walk, reach_cons]
  cases d.step l piece with
  | ok m => rfl
  | error f =>
    cases f with
    | notFound => dsimp only; split_ifs <;> rfl
    | _ => rfl

/-- A step begins in a directory. -/
theorem view_of_step (h : d.step l piece = .ok m) : d.view l = some .directory := by
  rw [step_eq] at h
  split at h <;> simp_all

/-- A directory lies in a directory. -/
theorem view_dropLast (h : d.view l = some .directory) : d.view l.dropLast = some .directory := by
  by_cases hl : l = []
  · rwa [hl, List.dropLast_nil, ← hl]
  · by_contra hd
    have hnone := DiskEntry.view_append_of_not_directory (m := [l.getLast hl]) hd (by simp)
    rw [List.dropLast_concat_getLast hl] at hnone
    rw [view, hnone] at h
    cases h

/-- Where a step leads: to the same directory, to the one above, or to a name in it. -/
theorem step_eq_ok (h : d.step l piece = .ok m) :
    piece = ['.'] ∧ m = l ∨ piece = ['.', '.'] ∧ m = l.dropLast ∨
      (piece ≠ ['.'] ∧ piece ≠ ['.', '.'] ∧ ¬ nameLimit < Text.byteLength piece ∧
        (d.view m).isSome ∧ m = l ++ [String.ofList piece]) := by
  have hd := view_of_step h
  rw [step_eq, hd] at h
  simp only at h
  split_ifs at h with hhere hup hlong hs
  · exact .inl ⟨hhere, (Except.ok.inj h).symm⟩
  · exact .inr (.inl ⟨hup, (Except.ok.inj h).symm⟩)
  · cases h
    exact .inr (.inr ⟨hhere, hup, hlong, hs, rfl⟩)

/-- A step leads to something. -/
theorem isSome_view_of_step (h : d.step l piece = .ok m) : (d.view m).isSome := by
  have hd := view_of_step h
  obtain ⟨-, rfl⟩ | ⟨-, rfl⟩ | ⟨-, -, -, hs, -⟩ := step_eq_ok h
  · rw [hd]; rfl
  · rw [view_dropLast hd]; rfl
  · exact hs

/-- The last piece of a path may be missing where the pieces before it lead to. -/
theorem reach_concat (d : Disk) (n : Nat) (l : Location) (ps : List (List Char))
    (last : List Char) : d.reach n l (ps ++ [last]) = d.walk l ps >>= fun m =>
      match d.step m last with
      | .ok k => .ok (.entry k)
      | .error .notFound => .ok (.missing m last)
      | .error f => .error f := by
  induction ps generalizing l with
  | nil =>
    rw [List.nil_append, reach_cons, walk_nil]
    -- a name can be missing only in a place that is there
    by_cases hl : (d.view l).isSome
    · rw [if_pos hl]
      cases hs : d.step l last with
      | ok m => simp [reach_nil, isSome_view_of_step hs, hs, bind, Except.bind]
      | error f => cases f <;> simp [hl, hs, bind, Except.bind]
    · rw [if_neg hl, step_eq, Option.not_isSome_iff_eq_none.1 hl]
      rfl
  | cons p ps ih =>
    rw [List.cons_append, reach_cons, walk_cons]
    cases d.step l p with
    | ok m => exact ih m
    | error f => cases f <;> simp [bind, Except.bind]

theorem walk_append (d : Disk) (l : Location) (ps qs : List (List Char)) :
    d.walk l (ps ++ qs) = d.walk l ps >>= fun m => d.walk m qs := by
  induction ps generalizing l with
  | nil =>
    rw [List.nil_append, walk_nil]
    split
    · rfl
    next h =>
      -- nothing is reached from a place that is not there
      cases qs with
      | nil => rw [walk_nil, if_neg h]; rfl
      | cons q qs =>
        rw [walk_cons, step_eq, Option.not_isSome_iff_eq_none.1 h]
        rfl
  | cons p ps ih =>
    rw [List.cons_append, walk_cons, walk_cons]
    cases d.step l p with
    | error f => rfl
    | ok k => exact ih k

theorem walk_append_of_ok (h : d.walk l ps = .ok m) (qs : List (List Char)) :
    d.walk l (ps ++ qs) = d.walk m qs := by rw [walk_append, h]; rfl

theorem walk_append_eq_ok {n : Location} (h : d.walk l (ps ++ qs) = .ok n) :
    ∃ m, d.walk l ps = .ok m ∧ d.walk m qs = .ok n := by
  rw [walk_append] at h
  cases hm : d.walk l ps with
  | error f => rw [hm] at h; exact absurd h (by simp [bind, Except.bind])
  | ok m => exact ⟨m, rfl, by rw [hm] at h; exact h⟩

/-- What a path leads to is there. -/
theorem isSome_view_of_walk (h : d.walk l ps = .ok m) : (d.view m).isSome := by
  induction ps generalizing l with
  | nil =>
    rw [walk_nil] at h
    split at h
    next hs => exact Except.ok.inj h ▸ hs
    · simp at h
  | cons p ps ih =>
    rw [walk_cons] at h
    cases hk : d.step l p with
    | error f => rw [hk] at h; exact absurd h (by simp [bind, Except.bind])
    | ok k => exact ih (l := k) (by rw [hk] at h; exact h)

theorem step_of_keeps (hk : d.view.Keeps e.view) (h : d.step l piece = .ok m) :
    e.step l piece = .ok m := by
  have hd := view_of_step h
  rw [step_eq, hd] at h
  rw [step_eq, hk.directory hd]
  simp only at h ⊢
  -- a name that is missing may have come into being, but then the step had failed
  by_cases hs : (d.view (l ++ [String.ofList piece])).isSome
  · rw [if_pos hs] at h
    rw [if_pos (hk.isSome hs)]
    exact h
  · rw [if_neg hs] at h
    split_ifs at h ⊢ <;> exact h

/-- **A path still leads to the same place** after changes that keep every entry. -/
theorem walk_of_keeps (hk : d.view.Keeps e.view) (h : d.walk l ps = .ok m) :
    e.walk l ps = .ok m := by
  induction ps generalizing l with
  | nil =>
    rw [walk_nil] at h ⊢
    split at h
    next hs => rw [if_pos (hk.isSome hs)]; exact h
    · simp at h
  | cons p ps ih =>
    rw [walk_cons] at h ⊢
    cases hs : d.step l p with
    | error f => rw [hs] at h; exact absurd h (by simp [bind, Except.bind])
    | ok k =>
      rw [hs] at h
      rw [step_of_keeps hk hs]
      exact ih h

theorem step_congr (h : d.view = e.view) (l : Location) (piece : List Char) :
    d.step l piece = e.step l piece := by rw [step_eq, step_eq, h]

/-- Disks with the same view are followed in the same way. -/
theorem walk_congr (h : d.view = e.view) (l : Location) (ps : List (List Char)) :
    d.walk l ps = e.walk l ps := by
  induction ps generalizing l with
  | nil => rw [walk_nil, walk_nil, h]
  | cons p ps ih =>
    rw [walk_cons, walk_cons, step_congr h]
    exact congrArg _ (funext ih)

end Disk

end Scaffold
