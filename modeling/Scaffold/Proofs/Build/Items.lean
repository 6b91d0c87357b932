import Scaffold.Build
import Scaffold.Proofs.Disk.Paths

/-!
# Layouts as lists of items

The entries of a layout in pre-order, each with the names that lead to it, are its items. Carrying
out items on a view, one after the other until one is refused, is what a build amounts to: an item
is refused if its path is too long or an entry of the other kind stands in its place. Items that are
carried out to the end have the `effect` of being put one over the other (`carryOut_of_none`), and
whether one is refused depends on kinds alone (`carryOut_eq_none`).
-/

namespace Scaffold

/-- An entry of a layout: the directories that lead to it, its name, and the content of a file. -/
structure LayoutItem where
  lead : List String
  name : String
  content? : Option String
deriving DecidableEq

namespace LayoutItem

/-- The names that lead to an item from the directory that the layout stands in. -/
def names (i : LayoutItem) : List String := i.lead ++ [i.name]

/-- What is to stand in the place of the item. -/
def wanted (i : LayoutItem) : Standing :=
  match i.content? with
  | none => .directory
  | some c => .file (.text c)

@[simp] theorem isDirectory_wanted (i : LayoutItem) :
    i.wanted.isDirectory = i.content?.isNone := by
  rw [wanted]
  cases i.content? <;> rfl

def path (base : Path) (i : LayoutItem) : Path := base.joinNames i.names

/-- The step of a report that stands for the item. -/
def step (base : Path) (i : LayoutItem) : BuildStep :=
  ⟨if i.wanted.isDirectory then .directory else .file, i.path base⟩

end LayoutItem

namespace LayoutEntry

mutual

/-- The items of an entry in pre-order. -/
def items (lead : List String) : LayoutEntry → List LayoutItem
  | directory name children => ⟨lead, name, none⟩ :: itemsOfList (lead ++ [name]) children
  | file name content => [⟨lead, name, some content⟩]

def itemsOfList (lead : List String) : List LayoutEntry → List LayoutItem
  | [] => []
  | e :: r => items lead e ++ itemsOfList lead r

end

mutual

/-- An entry is without fault if the names of all its items are plain. -/
theorem fault?_eq_none (lead : List String) (parent : Path) : (e : LayoutEntry) →
    (e.fault? parent = none ↔ ∀ i ∈ e.items lead, PlainName i.name)
  | directory name children => by
    have ih := faultOfList?_eq_none (lead ++ [name]) (parent.joinName name) children
    by_cases hn : isPlainSegment name = true
    · simp [fault?, items, hn, ih, isPlainSegment_iff.1 hn]
    · have hp : ¬ PlainName name := fun h => hn (isPlainSegment_iff.2 h)
      simp [fault?, items, hn, hp]
  | file name content => by
    by_cases hn : isPlainSegment name = true
    · simp [fault?, items, hn, isPlainSegment_iff.1 hn]
    · have hp : ¬ PlainName name := fun h => hn (isPlainSegment_iff.2 h)
      simp [fault?, items, hn, hp]

theorem faultOfList?_eq_none (lead : List String) (parent : Path) : (es : List LayoutEntry) →
    (faultOfList? parent es = none ↔ ∀ i ∈ itemsOfList lead es, PlainName i.name)
  | [] => by simp [faultOfList?, itemsOfList]
  | e :: r => by
    have he := fault?_eq_none lead parent e
    have hr := faultOfList?_eq_none lead parent r
    simp [faultOfList?, itemsOfList, Option.or_eq_none_iff, he, hr, or_imp, forall_and]

end

end LayoutEntry

namespace Specification

/-- The items of a specification in pre-order. -/
def items (s : Specification) : List LayoutItem := LayoutEntry.itemsOfList [] s.entries

theorem fault?_eq_none {s : Specification} : s.fault? = none ↔
    PlainName s.projectName ∧ s.outputDir.text ≠ "" ∧ ∀ i ∈ s.items, PlainName i.name := by
  rw [fault?, items, ← LayoutEntry.faultOfList?_eq_none [] ⟨s.projectName⟩ s.entries,
    ← isPlainSegment_iff]
  split_ifs <;> simp_all

end Specification

namespace Build

variable {base : Path} {place l : Location} {σ τ : View} {xs ys : List LayoutItem} {i : LayoutItem}
variable {f : Failure}

/-- Why something else must not stand in the place of an entry. -/
def conflictReason : Standing → String
  | .directory => "a file exists where a directory is expected"
  | .file _ => "a directory exists where a file is expected"

/-- The failure of an item that cannot be made below `place`, to which the path `base` leads. -/
def refusal? (base : Path) (place : Location) (σ : View) (i : LayoutItem) : Option Failure :=
  if Disk.TooLong (base.joinNames i.lead) i.name then some (.ioFailure (i.path base) .nameTooLong)
  else match σ (place ++ i.names) with
    | none => none
    | some s =>
      if s.isDirectory = i.wanted.isDirectory then none
      else some (.conflict (i.path base) (conflictReason i.wanted))

/-- The view after an item has been put in its place. -/
def putItem (place : Location) (σ : View) (i : LayoutItem) : View :=
  Function.update σ (place ++ i.names) (some i.wanted)

/-- **Carries out items one after the other**, until one is refused. -/
def carryOut (base : Path) (place : Location) : List LayoutItem → View → View × Option Failure
  | [], σ => (σ, none)
  | i :: r, σ =>
    match refusal? base place σ i with
    | some f => (σ, some f)
    | none => carryOut base place r (putItem place σ i)

/-- The view after items have been put in their places, one over the other. -/
def effect (place : Location) (xs : List LayoutItem) (σ : View) : View := xs.foldl (putItem place) σ

theorem carryOut_append (xs ys : List LayoutItem) (σ : View) :
    carryOut base place (xs ++ ys) σ = match carryOut base place xs σ with
      | (τ, some f) => (τ, some f)
      | (τ, none) => carryOut base place ys τ := by
  induction xs generalizing σ with
  | nil => rfl
  | cons i r ih =>
    rw [List.cons_append, carryOut, carryOut]
    cases refusal? base place σ i with
    | some f => rfl
    | none => exact ih _

theorem carryOut_append_of_some (h : (carryOut base place xs σ).2 = some f)
    (ys : List LayoutItem) : carryOut base place (xs ++ ys) σ = carryOut base place xs σ := by
  rw [carryOut_append]
  cases hc : carryOut base place xs σ with
  | mk τ o => rw [hc] at h; obtain rfl : o = some f := h; rfl

theorem carryOut_append_of_none (h : (carryOut base place xs σ).2 = none) (ys : List LayoutItem) :
    carryOut base place (xs ++ ys) σ = carryOut base place ys (carryOut base place xs σ).1 := by
  rw [carryOut_append]
  cases hc : carryOut base place xs σ with
  | mk τ o => rw [hc] at h; obtain rfl : o = none := h; rfl

theorem carryOut_left_eq_none (h : (carryOut base place (xs ++ ys) σ).2 = none) :
    (carryOut base place xs σ).2 = none := by
  cases ho : (carryOut base place xs σ).2 with
  | some f => rw [carryOut_append_of_some ho, ho] at h; cases h
  | none => rfl

theorem refusal?_eq_none : refusal? base place σ i = none ↔
    ¬ Disk.TooLong (base.joinNames i.lead) i.name ∧
      ∀ s, σ (place ++ i.names) = some s → s.isDirectory = i.wanted.isDirectory := by
  rw [refusal?]
  split_ifs with h
  · simp [h]
  · cases σ (place ++ i.names) <;> simp [h]

theorem carryOut_of_none (h : (carryOut base place xs σ).2 = none) :
    (carryOut base place xs σ).1 = effect place xs σ := by
  induction xs generalizing σ with
  | nil => rfl
  | cons i r ih =>
    rw [carryOut] at h ⊢
    cases hr : refusal? base place σ i with
    | some f => rw [hr] at h; cases h
    | none => rw [hr] at h; exact ih h

theorem carryOut_singleton (h : (carryOut base place [i] σ).2 = none) :
    refusal? base place σ i = none ∧ (carryOut base place [i] σ).1 = putItem place σ i := by
  rw [carryOut] at h ⊢
  cases hr : refusal? base place σ i with
  | some f => rw [hr] at h; cases h
  | none => exact ⟨rfl, rfl⟩

theorem keeps_putItem (h : refusal? base place σ i = none) : σ.Keeps (putItem place σ i) :=
  View.Keeps.update (refusal?_eq_none.1 h).2

/-- Carrying out items keeps every entry, also where one is refused. -/
theorem keeps_carryOut (xs : List LayoutItem) (σ : View) :
    σ.Keeps (carryOut base place xs σ).1 := by
  induction xs generalizing σ with
  | nil => exact View.Keeps.refl σ
  | cons i r ih =>
    rw [carryOut]
    cases hr : refusal? base place σ i with
    | some f => exact View.Keeps.refl σ
    | none => exact (keeps_putItem hr).trans (ih _)

/-- **What is no item's place stays as it was.** -/
theorem carryOut_of_not_mem (h : ∀ i ∈ xs, l ≠ place ++ i.names) :
    (carryOut base place xs σ).1 l = σ l := by
  induction xs generalizing σ with
  | nil => rfl
  | cons i r ih =>
    rw [carryOut]
    cases refusal? base place σ i with
    | some f => rfl
    | none =>
      have hi : l ≠ place ++ i.names := h i (by simp)
      simp only
      rw [ih fun j hj => h j (List.mem_cons_of_mem i hj), putItem, Function.update_of_ne hi]

/-- **Items stop at the first that is refused**, after those before it have been carried out. -/
theorem carryOut_of_some (h : (carryOut base place xs σ).2 = some f) :
    ∃ done i rest, xs = done ++ i :: rest ∧ (carryOut base place done σ).2 = none ∧
      (carryOut base place xs σ).1 = (carryOut base place done σ).1 ∧
      refusal? base place (carryOut base place done σ).1 i = some f := by
  induction xs generalizing σ with
  | nil => cases h
  | cons i r ih =>
    rw [carryOut] at h
    cases hr : refusal? base place σ i with
    | some g =>
      rw [hr] at h
      exact ⟨[], i, r, rfl, rfl, by simp [carryOut, hr], by rw [carryOut, hr]; exact h⟩
    | none =>
      rw [hr] at h
      obtain ⟨done, j, rest, rfl, hd, hv, hj⟩ := ih h
      refine ⟨i :: done, j, rest, rfl, ?_, ?_, ?_⟩ <;> simp only [carryOut, hr]
      · exact hd
      · exact hv
      · exact hj

/-- **What items that are carried out leave in their places** is of the kind that they want. -/
theorem carryOut_mem (h : (carryOut base place xs σ).2 = none) (hi : i ∈ xs) :
    ¬ Disk.TooLong (base.joinNames i.lead) i.name ∧
      ∃ s, (carryOut base place xs σ).1 (place ++ i.names) = some s ∧
        s.isDirectory = i.wanted.isDirectory := by
  induction xs generalizing σ with
  | nil => cases hi
  | cons j r ih =>
    rw [carryOut] at h ⊢
    cases hr : refusal? base place σ j with
    | some f => rw [hr] at h; cases h
    | none =>
      rw [hr] at h
      rcases List.mem_cons.1 hi with rfl | hi
      · refine ⟨(refusal?_eq_none.1 hr).1, ?_⟩
        exact keeps_carryOut r (putItem place σ i) _ i.wanted (by simp [putItem])
      · exact ih h hi

theorem carryOut_mem_directory (h : (carryOut base place xs σ).2 = none) (hi : i ∈ xs)
    (hc : i.content? = none) :
    (carryOut base place xs σ).1 (place ++ i.names) = some .directory := by
  obtain ⟨-, s, hs, hk⟩ := carryOut_mem h hi
  have hd : s = .directory := Standing.eq_directory (by simpa [hc] using hk)
  rw [hs, hd]

/-- **The last file among items of the same names** is the one whose content stays. -/
theorem carryOut_last_file {c : String} {done rest : List LayoutItem}
    (h : (carryOut base place (done ++ i :: rest) σ).2 = none) (hc : i.content? = some c)
    (hlast : ∀ j ∈ rest, j.names = i.names → j.content? = none) :
    (carryOut base place (done ++ i :: rest) σ).1 (place ++ i.names) = some (.file (.text c)) := by
  obtain ⟨-, s, hs, hk⟩ := carryOut_mem h (i := i) (by simp)
  -- a directory of the same names would have left a directory
  have hno : ∀ j ∈ rest, place ++ i.names ≠ place ++ j.names := by
    intro j hj hn
    have hn' : j.names = i.names := (List.append_cancel_left hn).symm
    obtain ⟨-, t, ht, hkt⟩ := carryOut_mem h (i := j) (by simp [hj])
    rw [hn', hs] at ht
    obtain rfl := Option.some.inj ht
    simp [hk, hc, hlast j hj hn'] at hkt
  have hdone := carryOut_left_eq_none h
  rw [carryOut_append_of_none hdone, carryOut] at h ⊢
  cases hr : refusal? base place (carryOut base place done σ).1 i with
  | some f => rw [hr] at h; cases h
  | none =>
    simp only
    rw [carryOut_of_not_mem hno, putItem, Function.update_self, LayoutItem.wanted, hc]

/-! ### Carrying out again -/

/-- **Items whose places hold what they want are not refused.** -/
theorem carryOut_eq_none (h : ∀ i ∈ xs, ¬ Disk.TooLong (base.joinNames i.lead) i.name ∧
    ∃ s, σ (place ++ i.names) = some s ∧ s.isDirectory = i.wanted.isDirectory) :
    (carryOut base place xs σ).2 = none := by
  induction xs generalizing σ with
  | nil => rfl
  | cons i r ih =>
    obtain ⟨hlong, s, hs, hk⟩ := h i (by simp)
    have hr : refusal? base place σ i = none :=
      refusal?_eq_none.2 ⟨hlong, fun t ht => by rw [hs] at ht; exact Option.some.inj ht ▸ hk⟩
    rw [carryOut, hr]
    refine ih fun j hj => ?_
    obtain ⟨hlong', u, hu, hk'⟩ := h j (by simp [hj])
    obtain ⟨v, hv, hvu⟩ := keeps_putItem hr _ u hu
    exact ⟨hlong', v, hv, hvu.trans hk'⟩

/-- In the place of an item the effect does not depend on what stood there. -/
theorem effect_congr (h : σ l = τ l ∨ ∃ i ∈ xs, l = place ++ i.names) :
    effect place xs σ l = effect place xs τ l := by
  induction xs generalizing σ τ with
  | nil =>
    rcases h with h | ⟨i, hi, -⟩
    · exact h
    · cases hi
  | cons i r ih =>
    refine ih ?_
    by_cases hl : l = place ++ i.names
    · subst hl
      exact .inl (by simp [putItem])
    · rw [putItem, putItem, Function.update_of_ne hl, Function.update_of_ne hl]
      rcases h with h | ⟨j, hj, hlj⟩
      · exact .inl h
      · rcases List.mem_cons.1 hj with rfl | hj
        · exact absurd hlj hl
        · exact .inr ⟨j, hj, hlj⟩

/-- Files among the items hold any other contents, and all else is the same. -/
def Refilled (place : Location) (xs : List LayoutItem) (σ τ : View) : Prop :=
  ∀ l, τ l = σ l ∨
    (∃ i ∈ xs, i.content?.isSome ∧ l = place ++ i.names) ∧ ∃ c, τ l = some (.file c)

theorem Refilled.keeps (h : (carryOut base place xs σ).2 = none)
    (hτ : Refilled place xs (carryOut base place xs σ).1 τ) :
    (carryOut base place xs σ).1.Keeps τ := by
  intro l s hs
  rcases hτ l with he | ⟨⟨i, hi, hc, rfl⟩, c, hfile⟩
  · exact ⟨s, he.trans hs, rfl⟩
  · obtain ⟨-, t, ht, hk⟩ := carryOut_mem h hi
    rw [hs] at ht
    obtain rfl := Option.some.inj ht
    refine ⟨.file c, hfile, ?_⟩
    rw [hk, LayoutItem.isDirectory_wanted, Option.isNone_eq_false_iff.2 hc]
    rfl

/-- **Items that have been carried out are carried out again** to the same effect, also if files
among them have been given other contents. -/
theorem carryOut_again (h : (carryOut base place xs σ).2 = none)
    (hτ : Refilled place xs (carryOut base place xs σ).1 τ) :
    carryOut base place xs τ = ((carryOut base place xs σ).1, none) := by
  have ho : (carryOut base place xs τ).2 = none := by
    refine carryOut_eq_none fun i hi => ?_
    obtain ⟨hlong, s, hs, hk⟩ := carryOut_mem h hi
    obtain ⟨t, ht, hts⟩ := Refilled.keeps h hτ _ s hs
    exact ⟨hlong, t, ht, hts.trans hk⟩
  refine Prod.ext ?_ ho
  simp only
  rw [carryOut_of_none ho]
  funext l
  -- places of items are overwritten, and no other has been edited
  by_cases hl : ∃ i ∈ xs, l = place ++ i.names
  · rw [carryOut_of_none h]
    exact effect_congr (.inr hl)
  · have hno : ∀ i ∈ xs, l ≠ place ++ i.names := fun i hi he => hl ⟨i, hi, he⟩
    rw [← carryOut_of_none ho, carryOut_of_not_mem hno]
    rcases hτ l with he | ⟨⟨i, hi, -, he⟩, -⟩
    · exact he
    · exact absurd he (hno i hi)

/-- **Items that have been refused are refused again**, the same one of them. -/
theorem carryOut_again_of_some (h : (carryOut base place xs σ).2 = some f) :
    carryOut base place xs (carryOut base place xs σ).1 =
      ((carryOut base place xs σ).1, some f) := by
  obtain ⟨done, i, rest, rfl, hd, hv, hf⟩ := carryOut_of_some h
  have hagain := carryOut_again hd fun l => .inl rfl
  rw [hv, carryOut_append, hagain]
  simp only [carryOut, hf]

end Build

end Scaffold
