import ApiBindings.Decimal.Binary64
import Mathlib.Tactic.Common
import Mathlib.Tactic.Ring
import Mathlib.Algebra.Order.Ring.Int
/-!
# The integers among binary64 numbers

Counted in units of the smallest positive number, every finite number has a
magnitude that determines its word up to the sign.  A number is therefore at
most one integer, and two numbers that are the same integer are the same number.
-/

namespace ApiBindings

theorem pow2_pos (n : Nat) : 0 < pow2 n :=
  Nat.pow_pos (by decide)

theorem pow2_add (m n : Nat) : pow2 (m + n) = pow2 m * pow2 n :=
  Nat.pow_add 2 m n

theorem pow2_succ (n : Nat) : pow2 (n + 1) = 2 * pow2 n := by
  rw [pow2_add, Nat.mul_comm]
  rfl

theorem pow2_le {m n : Nat} (hle : m ≤ n) : pow2 m ≤ pow2 n :=
  Nat.pow_le_pow_right (by decide) hle

namespace Binary64

/-- The magnitude of a finite number in units of the smallest positive one. -/
def magnitude (x : Binary64) : Nat :=
  x.significand * pow2 (x.exponentField - 1)

/-- A finite number in these units. -/
def units (x : Binary64) : Int :=
  if x.isNegative then -x.magnitude else x.magnitude

theorem fraction_lt (x : Binary64) : x.fraction < pow2 52 :=
  Nat.mod_lt _ (pow2_pos 52)

theorem significand_lt (x : Binary64) : x.significand < 2 * pow2 52 := by
  have hfraction := x.fraction_lt
  unfold significand
  split <;> omega

theorem significand_ge {x : Binary64} (hnormal : x.exponentField ≠ 0) :
    pow2 52 ≤ x.significand := by
  simp [significand, hnormal]

theorem magnitude_lt {x y : Binary64} (hlt : x.exponentField < y.exponentField) :
    x.magnitude < y.magnitude := by
  have hy : pow2 52 * pow2 (y.exponentField - 1) ≤ y.magnitude :=
    Nat.mul_le_mul_right _ (significand_ge (by omega))
  refine Nat.lt_of_lt_of_le ?_ hy
  by_cases hzero : x.exponentField = 0
  · have hx : x.magnitude = x.fraction := by
      simp [magnitude, significand, hzero, pow2]
    rw [hx]
    exact Nat.lt_of_lt_of_le x.fraction_lt (Nat.le_mul_of_pos_right _ (pow2_pos _))
  · calc x.magnitude
        < 2 * pow2 52 * pow2 (x.exponentField - 1) :=
          Nat.mul_lt_mul_of_pos_right x.significand_lt (pow2_pos _)
      _ = pow2 52 * pow2 (x.exponentField - 1 + 1) := by
          rw [pow2_succ (x.exponentField - 1), Nat.mul_comm 2, Nat.mul_assoc]
      _ ≤ pow2 52 * pow2 (y.exponentField - 1) :=
          Nat.mul_le_mul_left _ (pow2_le (by omega))

theorem fields_eq_of_magnitude_eq {x y : Binary64} (heq : x.magnitude = y.magnitude) :
    x.exponentField = y.exponentField ∧ x.fraction = y.fraction := by
  have hexponent : x.exponentField = y.exponentField := by
    rcases Nat.lt_trichotomy x.exponentField y.exponentField with hlt | heq' | hlt
    · exact absurd heq (Nat.ne_of_lt (magnitude_lt hlt))
    · exact heq'
    · exact absurd heq.symm (Nat.ne_of_lt (magnitude_lt hlt))
  refine ⟨hexponent, ?_⟩
  unfold magnitude at heq
  rw [hexponent] at heq
  have hsignificand := Nat.eq_of_mul_eq_mul_right (pow2_pos _) heq
  unfold significand at hsignificand
  rw [hexponent] at hsignificand
  split at hsignificand <;> omega

theorem word_eq (x : Binary64) :
    x.word.toNat =
      (x.word.toNat / pow2 63) * pow2 63 + x.exponentField * pow2 52 + x.fraction := by
  have hsplit : pow2 63 = pow2 52 * pow2 11 := pow2_add 52 11
  have hhigh := Nat.div_add_mod (x.word.toNat / pow2 52) (pow2 11)
  have hlow := Nat.div_add_mod x.word.toNat (pow2 52)
  rw [hsplit, ← Nat.div_div_eq_div_mul]
  simp only [exponentField, fraction]
  generalize x.word.toNat / pow2 52 / pow2 11 = sign at *
  generalize hmid : x.word.toNat / pow2 52 = mid at *
  calc x.word.toNat = pow2 52 * mid + x.word.toNat % pow2 52 := hlow.symm
    _ = pow2 52 * (pow2 11 * sign + mid % pow2 11) + x.word.toNat % pow2 52 := by
        rw [hhigh]
    _ = _ := by ring

theorem eq_of_fields {x y : Binary64} (hsign : x.isNegative = y.isNegative)
    (hexponent : x.exponentField = y.exponentField)
    (hfraction : x.fraction = y.fraction) : x = y := by
  have hbit : ∀ z : Binary64, z.word.toNat / pow2 63 < 2 := by
    intro z
    have hword := z.word.toNat_lt
    apply Nat.div_lt_of_lt_mul
    calc z.word.toNat < 2 ^ 64 := hword
      _ = pow2 63 * 2 := by decide
  have hx := hbit x
  have hy := hbit y
  have hsign' : x.word.toNat / pow2 63 = 1 ↔ y.word.toNat / pow2 63 = 1 := by
    simpa [isNegative] using hsign
  have hhigh : x.word.toNat / pow2 63 = y.word.toNat / pow2 63 := by
    generalize x.word.toNat / pow2 63 = bit at hx hsign' ⊢
    generalize y.word.toNat / pow2 63 = bit' at hy hsign' ⊢
    by_cases h : bit' = 1
    · exact (hsign'.mpr h).trans h.symm
    · have h' : bit ≠ 1 := fun h' => h (hsign'.mp h')
      omega
  have hword : x.word.toNat = y.word.toNat := by
    rw [word_eq x, word_eq y, hhigh, hexponent, hfraction]
  obtain ⟨w⟩ := x
  obtain ⟨w'⟩ := y
  exact congrArg Binary64.mk (UInt64.toNat_inj.mp hword)

theorem isZero_iff (x : Binary64) : x.isZero = true ↔ x.magnitude = 0 := by
  have hpow := pow2_pos (x.exponentField - 1)
  have hpow' := pow2_pos 52
  simp only [isZero, decide_eq_true_eq, magnitude, Nat.mul_eq_zero, significand]
  constructor
  · rintro ⟨hexponent, hfraction⟩
    simp [hexponent, hfraction]
  · intro h
    split at h <;> omega

theorem power_eq (x : Binary64) : x.power = (x.exponentField - 1 : Nat) - 1074 := by
  unfold power
  split <;> omega

theorem units_eq (x : Binary64) :
    x.units = (if x.isNegative then -(x.significand : Int) else x.significand) *
      pow2 (x.exponentField - 1) := by
  unfold units magnitude
  split <;> push_cast <;> ring

/-- Whether a finite number is an integer shows in its units. -/
theorem isInt_iff (x : Binary64) (n : Int) :
    x.isInt n = true ↔ x.isFinite = true ∧ x.units = n * pow2 1074 := by
  rw [isInt, Bool.and_eq_true, units_eq, power_eq]
  apply and_congr_right
  intro _
  generalize (if x.isNegative then -(x.significand : Int) else x.significand) = signed
  generalize x.exponentField - 1 = k
  by_cases hlarge : 1074 ≤ k
  · have hpower : (0 : Int) ≤ k - 1074 := by omega
    have hnat : ((k : Int) - 1074).toNat = k - 1074 := by omega
    have hsplit : (pow2 k : Int) = pow2 (k - 1074) * pow2 1074 := by
      rw [← Nat.cast_mul, ← pow2_add]
      congr 2
      omega
    have hpos : (pow2 1074 : Int) ≠ 0 := Int.ofNat_ne_zero.mpr (Nat.ne_of_gt (pow2_pos _))
    simp only [hpower, if_true, hnat, decide_eq_true_eq, hsplit, ← mul_assoc]
    exact (mul_left_inj' hpos).symm
  · have hpower : ¬(0 : Int) ≤ k - 1074 := by omega
    have hnat : (-((k : Int) - 1074)).toNat = 1074 - k := by omega
    have hsplit : (pow2 1074 : Int) = pow2 (1074 - k) * pow2 k := by
      rw [← Nat.cast_mul, ← pow2_add]
      congr 2
      omega
    have hpos : (pow2 k : Int) ≠ 0 := Int.ofNat_ne_zero.mpr (Nat.ne_of_gt (pow2_pos _))
    simp only [hpower, if_false, hnat, decide_eq_true_eq, hsplit, ← mul_assoc]
    exact (mul_left_inj' hpos).symm

theorem isInt_unique {x : Binary64} {m n : Int} (hm : x.isInt m = true)
    (hn : x.isInt n = true) : m = n := by
  have hpos : (pow2 1074 : Int) ≠ 0 := Int.ofNat_ne_zero.mpr (Nat.ne_of_gt (pow2_pos _))
  have heq := ((isInt_iff x m).mp hm).2.symm.trans ((isInt_iff x n).mp hn).2
  exact mul_right_cancel₀ hpos heq

theorem units_eq_zero_iff (x : Binary64) : x.units = 0 ↔ x.isZero = true := by
  rw [isZero_iff, units]
  split <;> omega

theorem sameNumber_of_isInt {x y : Binary64} {n : Int} (hx : x.isInt n = true)
    (hy : y.isInt n = true) : x.sameNumber y = true := by
  have heq := ((isInt_iff x n).mp hx).2.trans ((isInt_iff y n).mp hy).2.symm
  rw [sameNumber, Bool.or_eq_true, Bool.and_eq_true, decide_eq_true_eq]
  by_cases hzero : x.units = 0
  · exact .inr ⟨(units_eq_zero_iff x).mp hzero, (units_eq_zero_iff y).mp (heq ▸ hzero)⟩
  · left
    have hsign : x.isNegative = y.isNegative ∧ x.magnitude = y.magnitude := by
      unfold units at heq hzero
      cases hnx : x.isNegative <;> cases hny : y.isNegative <;>
        simp only [hnx, hny, if_true, if_false, Bool.false_eq_true] at heq hzero <;>
        simp only [true_and, reduceCtorEq, false_and] <;> omega
    obtain ⟨hexponent, hfraction⟩ := fields_eq_of_magnitude_eq hsign.2
    exact eq_of_fields hsign.1 hexponent hfraction

theorem isInt_zero_of_isZero {x : Binary64} (hzero : x.isZero = true) :
    x.isInt 0 = true := by
  refine (isInt_iff x 0).mpr ⟨?_, ?_⟩
  · have hexponent : x.exponentField = 0 := by
      simp only [isZero, decide_eq_true_eq] at hzero
      exact hzero.1
    simp [isFinite, hexponent]
  · rw [(units_eq_zero_iff x).mpr hzero, zero_mul]

end Binary64
end ApiBindings
