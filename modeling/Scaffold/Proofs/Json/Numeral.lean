import Mathlib.Algebra.Order.Ring.Nat
import Mathlib.Tactic.NormNum
import Mathlib.Tactic.Ring
import Scaffold.Json.Numeral

/-!
# Numbers that are read

The quotient that `ofRatio` rounds is scaled below `2 ^ 53` (`below_guess`), so that what is packed is
a number or infinite, but always a number (`isNaN_ofRatio`). So the value of a numeral is the same as
itself (`Numeral.same_value?`).
-/

namespace Scaffold.Number

namespace Binary64

variable {num den : Nat}

theorem roundDiv_le {k : Nat} (h : num < den * k) : roundDiv num den ≤ k := by
  have hq : num / den < k := Nat.div_lt_of_lt_mul h
  rw [roundDiv]
  split_ifs <;> omega

/-- The quotient is less than `2 ^ k` when it is scaled by `2 ^ (-e)`. -/
def Below (num den k : Nat) (e : Int) : Prop :=
  num * 2 ^ (-e).toNat < den * 2 ^ e.toNat * 2 ^ k

theorem scale_lt_iff {k a b : Nat} {e : Int} (h : scale num den (-e) = (a, b)) :
    a < b * pow2 k ↔ Below num den k e := by
  rw [scale] at h
  rw [Below]
  split_ifs at h with he
  · have hzero : (-e).toNat = 0 := by omega
    cases h
    simp [hzero]
  · have hzero : e.toNat = 0 := by omega
    cases h
    simp [hzero]

theorem Below.succ {k : Nat} {e : Int} (h : Below num den k e) : Below num den k (e + 1) := by
  rw [Below] at h ⊢
  by_cases he : 0 ≤ e
  · have hsucc : (e + 1).toNat = e.toNat + 1 := by omega
    have hzero : (-(e + 1)).toNat = (-e).toNat := by omega
    rw [hsucc, hzero, pow_succ]
    refine h.trans_le ?_
    have hle : den * 2 ^ e.toNat * 2 ^ k ≤ 2 * (den * 2 ^ e.toNat * 2 ^ k) :=
      Nat.le_mul_of_pos_left _ two_pos
    refine hle.trans_eq (by ring)
  · have hpred : (-e).toNat = (-(e + 1)).toNat + 1 := by omega
    have hzero : (e + 1).toNat = e.toNat := by omega
    rw [hzero]
    refine lt_of_le_of_lt ?_ h
    rw [hpred, pow_succ]
    exact Nat.mul_le_mul_left _ (Nat.le_mul_of_pos_right _ two_pos)

theorem Below.mono {k : Nat} {e f : Int} (h : Below num den k e) (hf : e ≤ f) :
    Below num den k f := by
  obtain ⟨n, rfl⟩ := Int.le.dest hf
  clear hf
  induction n with
  | zero => simpa using h
  | succ n ih =>
    have hsucc : e + ((n + 1 : Nat) : Int) = e + n + 1 := by omega
    rw [hsucc]
    exact ih.succ

/-- One more digit in front for one less in the scale. -/
theorem Below.pred {k : Nat} {e : Int} (h : Below num den k e) : Below num den (k + 1) (e - 1) := by
  rw [Below] at h ⊢
  by_cases he : 1 ≤ e
  · have hpred : e.toNat = (e - 1).toNat + 1 := by omega
    have hzero : (-(e - 1)).toNat = (-e).toNat := by omega
    rw [hpred] at h
    rw [hzero]
    exact h.trans_eq (by ring)
  · have hsucc : (-(e - 1)).toNat = (-e).toNat + 1 := by omega
    have hzero : (e - 1).toNat = e.toNat := by omega
    rw [hsucc, hzero]
    have hdouble := Nat.mul_lt_mul_of_pos_right h two_pos
    calc num * 2 ^ ((-e).toNat + 1) = num * 2 ^ (-e).toNat * 2 := by ring
      _ < den * 2 ^ e.toNat * 2 ^ k * 2 := hdouble
      _ = den * 2 ^ e.toNat * 2 ^ (k + 1) := by ring

/-- The difference of the logarithms is a guess of the scale that is at most one too large. -/
theorem below_guess (hden : den ≠ 0) :
    Below num den 53 ((num.log2 : Int) - (den.log2 : Int) - 52) := by
  generalize hg : (num.log2 : Int) - (den.log2 : Int) - 52 = g
  have hnum : num < 2 ^ (num.log2 + 1) := Nat.lt_log2_self
  have hpow : 2 ^ den.log2 ≤ den := Nat.log2_self_le hden
  rw [Below]
  have hexp : num.log2 + 1 + (-g).toNat = den.log2 + g.toNat + 53 := by omega
  calc num * 2 ^ (-g).toNat < 2 ^ (num.log2 + 1) * 2 ^ (-g).toNat :=
        Nat.mul_lt_mul_of_pos_right hnum (Nat.two_pow_pos _)
    _ = 2 ^ den.log2 * (2 ^ g.toNat * 2 ^ 53) := by
        rw [← pow_add, hexp]
        ring
    _ ≤ den * (2 ^ g.toNat * 2 ^ 53) := Nat.mul_le_mul_right _ hpow
    _ = den * 2 ^ g.toNat * 2 ^ 53 := by ring

theorem isNaN_of_bits {n : Nat} (h : n < 2047 * 2 ^ 52) : isNaN ⟨UInt64.ofNat n⟩ = false := by
  have hn : (UInt64.ofNat n).toNat = n := by
    rw [UInt64.toNat_ofNat']
    exact Nat.mod_eq_of_lt (by omega)
  have hfield : exponentField ⟨UInt64.ofNat n⟩ ≠ 2047 := by
    have hlt : n / 2 ^ 52 < 2047 := Nat.div_lt_of_lt_mul (by omega)
    have hle : n / 2 ^ 52 % 2 ^ 11 ≤ n / 2 ^ 52 := Nat.mod_le _ _
    have heq : exponentField ⟨UInt64.ofNat n⟩ = n / 2 ^ 52 % 2 ^ 11 := by
      rw [exponentField, hn]
      rfl
    omega
  simp [isNaN, hfield]

theorem isNaN_pack {m : Nat} {e : Int} (h : m ≤ pow2 53) : isNaN (pack m e) = false := by
  -- the carry into the next power of two leaves less than `2 ^ 53`
  obtain ⟨m', e', hpack, hm⟩ : ∃ m' e', (if m = pow2 53 then (pow2 52, e + 1) else (m, e)) =
      (m', e') ∧ m' < pow2 53 := by
    split_ifs with hm
    · exact ⟨_, _, rfl, by norm_num⟩
    · exact ⟨_, _, rfl, lt_of_le_of_ne h hm⟩
  rw [pack, hpack]
  simp only
  split_ifs with hsmall hlarge
  · exact isNaN_of_bits (hsmall.trans (by norm_num))
  · decide
  · have he : (e' + 1075).toNat ≤ 2046 := by omega
    have hmul : (e' + 1075).toNat * pow2 52 ≤ 2046 * 2 ^ 52 := Nat.mul_le_mul_right _ he
    have hrest : m' - pow2 52 < 2 ^ 52 := by
      have hpow : pow2 52 = 2 ^ 52 ∧ pow2 53 = 2 ^ 53 := ⟨rfl, rfl⟩
      omega
    refine isNaN_of_bits ((Nat.add_lt_add_of_le_of_lt hmul hrest).trans_le ?_)
    norm_num

/-- The packed number by the exponent that is chosen for it, whatever scales and rounds it. With the
functions themselves, this would be computed with their powers. -/
theorem packed_eq (scaled : Int → Nat × Nat) (rounded : Nat → Nat → Nat)
    (packed : Nat → Int → Binary64) (g low : Int) (limit : Nat) : ∃ e,
    e = max (if (scaled (-g)).1 < (scaled (-g)).2 * limit then g - 1 else g) low ∧
      (let guess : Int := g
      let (a, b) := scaled (-guess)
      let e := max (if a < b * limit then guess - 1 else guess) low
      let (a, b) := scaled (-e)
      packed (rounded a b) e) = packed (rounded (scaled (-e)).1 (scaled (-e)).2) e :=
  ⟨_, rfl, rfl⟩

/-- **Whatever is rounded, the result is a number.** -/
theorem isNaN_ofRatio (num den : Nat) : isNaN (ofRatio num den) = false := by
  rw [ofRatio]
  split_ifs with h
  · decide
  · push Not at h
    obtain ⟨e, he, hpacked⟩ := packed_eq (scale num den) roundDiv pack
      ((num.log2 : Int) - (den.log2 : Int) - 52) (-1074) (pow2 52)
    have hbelow : Below num den 53 e := by
      rw [he]
      refine Below.mono ?_ (le_max_left _ _)
      split_ifs with hlt
      · exact ((scale_lt_iff rfl).1 hlt).pred
      · exact below_guess h.2
    refine (congrArg isNaN hpacked).trans (isNaN_pack (roundDiv_le ?_))
    exact (scale_lt_iff rfl).2 hbelow

theorem isNaN_mul (x y : Binary64) : isNaN (x.mul y) = false := isNaN_ofRatio _ _

theorem isNaN_div (x y : Binary64) : isNaN (x.div y) = false := isNaN_ofRatio _ _

/-- The sign is not among the bits that tell whether it is a number. -/
theorem isNaN_neg (x : Binary64) : isNaN x.neg = isNaN x := by
  have hlt : x.bits.toNat < 2 ^ 64 := x.bits.toNat_lt
  have hpow : pow2 63 = 2 ^ 63 := rfl
  obtain ⟨n, hneg, hn, hsign⟩ : ∃ n, x.neg = ⟨UInt64.ofNat n⟩ ∧ n < 2 ^ 64 ∧
      (n = x.bits.toNat + 2 ^ 63 ∨ n + 2 ^ 63 = x.bits.toNat) := by
    rw [neg]
    split_ifs with hsign
    · have hone : x.bits.toNat / 2 ^ 63 = 1 := beq_iff_eq.1 hsign
      exact ⟨x.bits.toNat - pow2 63, rfl, by omega, .inr (by omega)⟩
    · have hone : x.bits.toNat / 2 ^ 63 ≠ 1 := fun h => hsign (beq_iff_eq.2 h)
      exact ⟨x.bits.toNat + pow2 63, rfl, by omega, .inl (by omega)⟩
  have hbits : x.neg.bits.toNat = n := by
    rw [hneg, UInt64.toNat_ofNat']
    exact Nat.mod_eq_of_lt hn
  have hexponent : x.neg.exponentField = x.exponentField := by
    have hfields : n / 2 ^ 52 % 2 ^ 11 = x.bits.toNat / 2 ^ 52 % 2 ^ 11 := by omega
    rw [exponentField, hbits]
    exact hfields
  have hfraction : x.neg.fractionField = x.fractionField := by
    have hfields : n % 2 ^ 52 = x.bits.toNat % 2 ^ 52 := by omega
    rw [fractionField, hbits]
    exact hfields
  rw [isNaN, isNaN, hexponent, hfraction]

end Binary64

end Scaffold.Number

namespace Scaffold.Numeral

open Number Binary64

theorem isNaN_scaleBy {fuel : Nat} {f r : Binary64} {e : Int} (hf : f.isNaN = false)
    (h : scaleBy fuel f e = some r) : r.isNaN = false := by
  induction fuel generalizing f e with
  | zero => exact Option.some.inj h ▸ hf
  | succ fuel ih =>
    rw [scaleBy] at h
    simp only at h
    split_ifs at h
    · exact Option.some.inj h ▸ isNaN_mul _ _
    · exact Option.some.inj h ▸ isNaN_div _ _
    · exact Option.some.inj h ▸ hf
    · exact ih (isNaN_div _ _) h

theorem isNaN_signed {negative : Bool} {f : Binary64} (hf : f.isNaN = false) :
    (signed negative f).isNaN = false := by
  rw [signed]
  split_ifs
  · rw [isNaN_neg, hf]
  · exact hf

theorem isNaN_real? {n : Numeral} {x : Binary64} (h : n.real? = some x) : x.isNaN = false := by
  have hscaled : ∀ digits e, (scaleBy 8 (ofNat digits) e).map (signed n.negative) = some x →
      x.isNaN = false := by
    intro digits e h
    obtain ⟨r, hr, rfl⟩ := Option.map_eq_some_iff.1 h
    exact isNaN_signed (isNaN_scaleBy (isNaN_ofRatio _ _) hr)
  rw [real?] at h
  simp only at h
  split at h
  · exact hscaled _ _ h
  · split_ifs at h
    · exact Option.some.inj h ▸ isNaN_signed (by decide)
    · exact hscaled _ _ h
    · exact hscaled _ _ h

/-- **A number that is read is the same as itself.** -/
theorem same_value? {n : Numeral} {x : JsonNumber} (h : n.value? = some x) : x.same x = true := by
  have hreal : ∀ y : Binary64, y.isNaN = false → (JsonNumber.real y).same (.real y) = true := by
    intro y hy
    simp [JsonNumber.same, numEq, hy]
  rw [value?] at h
  split_ifs at h
  · cases h
    simp [JsonNumber.same]
  · cases h
    exact hreal _ (by rw [isNaN_neg]; exact isNaN_ofRatio _ _)
  · cases h
    simp [JsonNumber.same]
  · obtain ⟨y, hy, rfl⟩ := Option.map_eq_some_iff.1 h
    exact hreal y (isNaN_real? hy)

end Scaffold.Numeral
