/-!
# Results that may be faults

What a result says of those it is put together from, and two results that are `Alike`: both are
faults, or both are values that are related.
-/

namespace Scaffold

theorem exists_of_bind_eq_ok {ε α β : Type} {x : Except ε α} {g : α → Except ε β} {b : β}
    (h : x >>= g = .ok b) : ∃ a, x = .ok a ∧ g a = .ok b := by
  cases x with
  | error f => cases h
  | ok a => exact ⟨a, rfl, h⟩

theorem bind_eq_ok_iff {ε α β : Type} {x : Except ε α} {g : α → Except ε β} {b : β} :
    x >>= g = .ok b ↔ ∃ a, x = .ok a ∧ g a = .ok b := by
  refine ⟨exists_of_bind_eq_ok, ?_⟩
  rintro ⟨a, rfl, h⟩
  exact h

theorem eq_ok_of_toOption {ε α : Type} {x : Except ε α} {a : α} (h : x.toOption = some a) :
    x = .ok a := by
  cases x with
  | error f => cases h
  | ok b => rw [Option.some.inj h]

theorem exists_of_map_eq_ok {ε α β : Type} {x : Except ε α} {g : α → β} {b : β}
    (h : x.map g = .ok b) : ∃ a, x = .ok a ∧ g a = b := by
  cases x with
  | error f => cases h
  | ok a => exact ⟨a, rfl, Except.ok.inj h⟩

/-- A value is not changed where faults are. -/
theorem mapError_eq_ok_iff {ε δ α : Type} {x : Except ε α} {f : ε → δ} {a : α} :
    x.mapError f = .ok a ↔ x = .ok a := by
  constructor
  · intro h
    cases x with
    | error e => cases h
    | ok b => rw [Except.ok.inj h]
  · rintro rfl
    rfl

theorem exists_of_isOk {ε α : Type} {x : Except ε α} (h : x.isOk = true) : ∃ a, x = .ok a := by
  cases x with
  | error f => cases h
  | ok a => exact ⟨a, rfl⟩

theorem exists_of_isOk_eq_false {ε α : Type} {x : Except ε α} (h : x.isOk = false) :
    ∃ f, x = .error f := by
  cases x with
  | error f => exact ⟨f, rfl⟩
  | ok a => cases h

/-- **Both results are faults, or they are values that are related.** -/
inductive Alike {ε δ α β : Type} (R : α → β → Prop) : Except ε α → Except δ β → Prop
  | ok {a : α} {b : β} : R a b → Alike R (.ok a) (.ok b)
  | error (e : ε) (d : δ) : Alike R (.error e) (.error d)

namespace Alike

variable {ε δ α β γ κ : Type} {R : α → β → Prop} {S : γ → κ → Prop} {x : Except ε α}
  {y z : Except δ β} {a : α} {b : β}

theorem bind {f : α → Except ε γ} {g : β → Except δ κ} (h : Alike R x y)
    (hfg : ∀ a b, R a b → Alike S (f a) (g b)) : Alike S (x >>= f) (y >>= g) := by
  cases h with
  | ok hab => exact hfg _ _ hab
  | error e d => exact .error e d

theorem mapError {ζ η : Type} {f : ε → ζ} {g : δ → η} (h : Alike R x y) :
    Alike R (x.mapError f) (y.mapError g) := by
  cases h with
  | ok hab => exact .ok hab
  | error e d => exact .error _ _

theorem mapError_right {η : Type} {g : δ → η} (h : Alike R x y) : Alike R x (y.mapError g) := by
  cases h with
  | ok hab => exact .ok hab
  | error e d => exact .error _ _

theorem exists_right (h : Alike R x y) (hx : x = .ok a) : ∃ b, y = .ok b ∧ R a b := by
  subst hx
  cases h with
  | ok hab => exact ⟨_, rfl, hab⟩

/-- A result of the same value in the other's place. -/
theorem congr_right (h : Alike R x y) (hyz : ∀ b, y = .ok b ↔ z = .ok b) : Alike R x z := by
  cases h with
  | @ok a b hab =>
    rw [(hyz b).1 rfl]
    exact .ok hab
  | error e d =>
    cases z with
    | ok b => cases (hyz b).2 rfl
    | error d' => exact .error e d'

/-- Two results without a value. -/
theorem of_not_ok (hx : ∀ a, x ≠ .ok a) (hy : ∀ b, y ≠ .ok b) : Alike R x y := by
  cases x with
  | ok a => exact absurd rfl (hx a)
  | error e =>
    cases y with
    | ok b => exact absurd rfl (hy b)
    | error d => exact .error e d

end Alike

end Scaffold
