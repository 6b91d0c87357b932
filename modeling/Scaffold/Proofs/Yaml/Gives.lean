import Scaffold.Proofs.Yaml.Json
import Scaffold.Yaml.Decoding

/-!
# Decodings that follow no alias

A decoding that follows no alias comes to the same in every document: it gives a value (`Gives`) or fails
(`Fails`). Such decodings can be put one after the other.
-/

namespace Scaffold.Yaml

theorem Decoding.bind_apply {α β : Type} (m : Decoding α) (f : α → Decoding β) (doc : Document) (n : Nat) :
    (m >>= f) doc n = match m doc n with
      | .error t => .error t
      | .ok (a, n) => f a doc n := rfl

/-- The decoding gives a value, in whatever document, and follows no alias. -/
def Gives {α : Type} (m : Decoding α) (a : α) : Prop := ∀ doc n, m doc n = .ok (a, n)

namespace Gives

variable {α β : Type} {m : Decoding α} {f : α → Decoding β} {a : α} {b : β}

theorem pure (a : α) : Gives (Pure.pure a) a := fun _ _ => rfl

/-- What follows a decoding that gives a value goes on with it. -/
theorem bind_eq (hm : Gives m a) (f : α → Decoding β) : m >>= f = f a := funext₂ fun doc n => by
  rw [Decoding.bind_apply, hm doc n]

theorem bind (hm : Gives m a) (hf : Gives (f a) b) : Gives (m >>= f) b := by
  rwa [hm.bind_eq]

theorem located (path : String) (hm : Gives m a) : Gives (Decoding.located path m) a :=
  fun doc n => by rw [Decoding.located, hm doc n]

theorem ofExcept {x : Except Decode.Fault α} (h : x = .ok a) : Gives (Decoding.ofExcept x) a := by
  rw [h]
  exact .pure a

theorem closing : Gives (Decoding.closing true) () := .pure ()

/-- The items of a list are decoded one after the other. -/
theorem mapM {γ : Type} {f : γ → Decoding β} {xs : List γ} {ys : List β}
    (h : List.Forall₂ (fun x y => Gives (f x) y) xs ys) : Gives (xs.mapM f) ys := by
  have hloop : ∀ acc, Gives (List.mapM.loop f xs acc) (acc.reverse ++ ys) := by
    induction h with
    | nil =>
      intro acc
      rw [List.mapM.loop, List.append_nil]
      exact .pure _
    | @cons _ y _ _ hx _ ih =>
      intro acc
      rw [List.mapM.loop]
      refine hx.bind ?_
      have hrest := ih (y :: acc)
      rw [List.reverse_cons, List.append_assoc] at hrest
      exact hrest
  exact hloop []

/-! ### Trees -/

theorem follow_scalar (mk : Mark) (style : ScalarStyle) (x : String) :
    Gives (Decoding.follow (.scalar mk style x)) (.scalar mk style x) := fun _ _ => rfl

theorem follow_sequence (mk : Mark) (items : List Draft) (closed : Bool) :
    Gives (Decoding.follow (.sequence mk items closed)) (.sequence mk items closed) := fun _ _ => rfl

theorem follow_mapping (mk : Mark) (pairs : List (Draft × Draft)) (closed : Bool) :
    Gives (Decoding.follow (.mapping mk pairs closed)) (.mapping mk pairs closed) := fun _ _ => rfl

theorem string (expected path : String) (mk : Mark) (style : ScalarStyle) (x : String) :
    Gives (Decoding.string expected path (.scalar mk style x)) x :=
  (follow_scalar mk style x).bind (.pure x) |>.located path

end Gives

/-- The decoding fails, in whatever document. -/
def Fails {α : Type} (m : Decoding α) : Prop := ∀ doc n, ∃ t, m doc n = .error t

namespace Fails

variable {α β : Type} {m : Decoding α} {f : α → Decoding β} {a : α}

theorem fail (e : Decode.Fault) : Fails (Decoding.fail e : Decoding α) := fun _ _ => ⟨_, rfl⟩

theorem bind (hm : Fails m) (f : α → Decoding β) : Fails (m >>= f) := fun doc n => by
  obtain ⟨t, ht⟩ := hm doc n
  exact ⟨t, by rw [Decoding.bind_apply, ht]⟩

theorem after (hm : Gives m a) (hf : Fails (f a)) : Fails (m >>= f) := by
  rwa [hm.bind_eq]

theorem located (path : String) (hm : Fails m) : Fails (Decoding.located path m) := fun doc n => by
  obtain ⟨t, ht⟩ := hm doc n
  exact ⟨_, by rw [Decoding.located, ht]⟩

/-- The items of a list are not decoded if one of them is not. -/
theorem mapM {γ : Type} {f : γ → Decoding β} {xs : List γ}
    (hall : ∀ x ∈ xs, (∃ y, Gives (f x) y) ∨ Fails (f x)) (hone : ∃ x ∈ xs, Fails (f x)) :
    Fails (xs.mapM f) := by
  have hloop : ∀ acc, Fails (List.mapM.loop f xs acc) := by
    induction xs with
    | nil => exact absurd hone (by simp)
    | cons x xs ih =>
      intro acc
      rw [List.mapM.loop]
      rcases hall x List.mem_cons_self with ⟨y, hy⟩ | hx
      · refine after hy (ih (fun z hz => hall z (List.mem_cons_of_mem _ hz)) ?_ _)
        obtain ⟨z, hz, hfails⟩ := hone
        rcases List.mem_cons.1 hz with rfl | hz
        · -- the first item gives a value
          obtain ⟨t, ht⟩ := hfails default 0
          rw [hy default 0] at ht
          cases ht
        · exact ⟨z, hz, hfails⟩
      · exact hx.bind _
  exact hloop []

end Fails

end Scaffold.Yaml
