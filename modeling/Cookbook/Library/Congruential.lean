import Mathlib.Algebra.BigOperators.ModEq
import Mathlib.Data.Matrix.Mul
import Mathlib.RingTheory.Coprime.Lemmas

/-!
# Truncated linear congruential sequences

A generator advances its state by an affine map and shows a window of bits of each state. The
windows depend on the low bits of the seed alone. That they determine these bits is a fact about a
lattice: a few short integer relations between the powers of the multiplier force the difference of
two seeds with equal windows to be zero.
-/
namespace Library.Congruential

open Matrix

/-- The state behind some steps, with nothing cut off. -/
def state (multiplier increment : Nat) : Nat → Nat → Nat
  | 0, seed => seed
  | steps + 1, seed => state multiplier increment steps (seed * multiplier + increment)

/-- The bits of a state that the generator shows: `count` values of width `window`. -/
def shown (window count : Nat) (state : Nat) : Nat := state / window % count

/-- What is shown is the upper part of the residue. -/
theorem shown_eq (window count value : Nat) :
    shown window count value = value % (window * count) / window :=
  (Nat.mod_mul_right_div_self value window count).symm

section States

variable (multiplier increment : Nat)

/-- Two seeds stay a multiple of their difference apart. -/
theorem state_sub (steps x y : Nat) :
    (state multiplier increment steps x : ℤ) - state multiplier increment steps y =
      multiplier ^ steps * (x - y) := by
  induction steps generalizing x y with
  | zero => simp [state]
  | succ steps ih =>
    rw [state, state, ih]
    push_cast
    ring

variable {modulus : Nat}

/-- Congruent seeds have congruent states. -/
theorem state_congr {x y : Nat} (same : x ≡ y [MOD modulus]) (steps : Nat) :
    state multiplier increment steps x ≡ state multiplier increment steps y [MOD modulus] := by
  induction steps generalizing x y with
  | zero => exact same
  | succ steps ih => exact ih ((same.mul_right multiplier).add_right increment)

/-- A generator on words shows what the one on numbers does, where the windows lie in a word. -/
theorem shown_words {window count : Nat} (multiplier increment : UInt64)
    (wraps : window * count ∣ 2 ^ 64) (steps : Nat) (seed : UInt64) :
    shown window count (state multiplier.toNat increment.toNat steps
        (seed * multiplier + increment).toNat) =
      shown window count (state multiplier.toNat increment.toNat (steps + 1) seed.toNat) := by
  have word : (seed * multiplier + increment).toNat ≡
      seed.toNat * multiplier.toNat + increment.toNat [MOD window * count] := by
    rw [UInt64.toNat_add, UInt64.toNat_mul]
    refine ((Nat.mod_modEq _ _).of_dvd wraps).trans (Nat.ModEq.add_right _ ?_)
    exact (Nat.mod_modEq _ _).of_dvd wraps
  rw [shown_eq, state_congr multiplier.toNat increment.toNat word steps, state, ← shown_eq]

end States

/-! ## Relations -/

/-- Short integer relations between consecutive powers of a multiplier, with a combination of them
that isolates the first power. -/
structure Relations (multiplier modulus window : ℤ) (size : Nat) where
  /-- The coefficients of the relations. -/
  rows : Matrix (Fin (size + 1)) (Fin (size + 1)) ℤ
  /-- The weights of the combination. -/
  weights : Fin (size + 1) → ℤ
  /-- The coefficient that the combination leaves. -/
  scale : ℤ
  divides : ∀ i, modulus ∣ ∑ j, rows i j * multiplier ^ (j : Nat)
  short : ∀ i, (∑ j, |rows i j|) * window ≤ modulus
  nonzero : scale ≠ 0
  isolates : weights ᵥ* rows = Pi.single 0 scale

variable {multiplier modulus window : ℤ} {size : Nat}

/-- A relation holds of every geometric sequence, up to multiples of the modulus. -/
theorem Relations.divides_row (relations : Relations multiplier modulus window size)
    {δ : Fin (size + 1) → ℤ} {first : ℤ}
    (geometric : ∀ j : Fin (size + 1), δ j ≡ multiplier ^ (j : Nat) * first [ZMOD modulus])
    (i : Fin (size + 1)) : modulus ∣ ∑ j, relations.rows i j * δ j := by
  have scaled : ∑ j, relations.rows i j * δ j ≡
      ∑ j, relations.rows i j * multiplier ^ (j : Nat) * first [ZMOD modulus] := by
    refine Int.ModEq.sum fun j _ => ?_
    rw [mul_assoc]
    exact (geometric j).mul_left _
  rw [← Finset.sum_mul] at scaled
  exact (Int.modEq_zero_iff_dvd.mp
    (scaled.trans (Int.modEq_zero_iff_dvd.mpr ((relations.divides i).mul_right first))))

/-- A relation holds exactly of a geometric sequence of small residues. -/
theorem Relations.row_eq_zero (relations : Relations multiplier modulus window size)
    {δ : Fin (size + 1) → ℤ} {first : ℤ}
    (geometric : ∀ j : Fin (size + 1), δ j ≡ multiplier ^ (j : Nat) * first [ZMOD modulus])
    (small : ∀ j, |δ j| < window) (i : Fin (size + 1)) :
    ∑ j, relations.rows i j * δ j = 0 := by
  have divides := relations.divides_row geometric i
  have short := relations.short i
  by_cases blank : ∑ j, |relations.rows i j| = 0
  · refine Finset.sum_eq_zero fun j member => ?_
    have zero := (Finset.sum_eq_zero_iff_of_nonneg fun j _ => abs_nonneg _).mp blank j member
    rw [abs_eq_zero.mp zero, zero_mul]
  · have bound : |∑ j, relations.rows i j * δ j| < modulus := by
      have nonneg : 0 ≤ ∑ j, |relations.rows i j| := Finset.sum_nonneg fun j _ => abs_nonneg _
      calc
        |∑ j, relations.rows i j * δ j| ≤ ∑ j, |relations.rows i j * δ j| :=
          Finset.abs_sum_le_sum_abs _ _
        _ ≤ ∑ j, |relations.rows i j| * (window - 1) := by
          refine Finset.sum_le_sum fun j _ => ?_
          rw [abs_mul]
          exact mul_le_mul_of_nonneg_left (Int.le_sub_one_of_lt (small j)) (abs_nonneg _)
        _ = (∑ j, |relations.rows i j|) * (window - 1) := (Finset.sum_mul ..).symm
        _ < (∑ j, |relations.rows i j|) * window :=
          mul_lt_mul_of_pos_left (by omega) (by omega)
        _ ≤ modulus := short
    exact Int.eq_zero_of_abs_lt_dvd divides bound

/-- A geometric sequence of small residues starts with zero. -/
theorem Relations.eq_zero (relations : Relations multiplier modulus window size)
    {δ : Fin (size + 1) → ℤ} {first : ℤ}
    (geometric : ∀ j : Fin (size + 1), δ j ≡ multiplier ^ (j : Nat) * first [ZMOD modulus])
    (small : ∀ j, |δ j| < window) : δ 0 = 0 := by
  have kernel : relations.rows *ᵥ δ = 0 := by
    funext i
    exact relations.row_eq_zero geometric small i
  have combined := dotProduct_mulVec relations.weights relations.rows δ
  rw [kernel, dotProduct_zero, relations.isolates, single_dotProduct] at combined
  exact (mul_eq_zero.mp combined.symm).resolve_left relations.nonzero

/-! ## Windows -/

/-- Seeds with equal windows in as many steps as there are relations are congruent, and congruent
seeds have equal windows at every step. -/
theorem shown_eq_iff {multiplier window count size draws : Nat} (increment : Nat)
    (relations : Relations multiplier ((window * count : Nat) : ℤ) window size)
    (unit : Nat.Coprime (window * count) multiplier) (positive : 0 < window)
    (enough : size < draws) (x y : Nat) :
    (∀ steps < draws, shown window count (state multiplier increment (steps + 1) x) =
        shown window count (state multiplier increment (steps + 1) y)) ↔
      x ≡ y [MOD window * count] := by
  constructor
  · intro same
    -- the differences of the residues form a geometric sequence of small numbers
    let residue (seed : Nat) (j : Fin (size + 1)) : ℤ :=
      (state multiplier increment (j + 1) seed % (window * count) : Nat)
    have geometric (j : Fin (size + 1)) : residue x j - residue y j ≡
        multiplier ^ (j : Nat) * (multiplier * (x - y)) [ZMOD (window * count : Nat)] := by
      have apart := state_sub multiplier increment (j + 1) x y
      rw [pow_succ, mul_assoc] at apart
      rw [← apart]
      simp only [residue, Int.natCast_mod]
      exact (Int.mod_modEq _ _).sub (Int.mod_modEq _ _)
    have small (j : Fin (size + 1)) : |residue x j - residue y j| < (window : ℤ) := by
      have shared := same j (lt_of_lt_of_le j.isLt enough)
      rw [shown_eq, shown_eq] at shared
      simp only [residue]
      generalize state multiplier increment (j + 1) x % (window * count) = r at shared
      generalize state multiplier increment (j + 1) y % (window * count) = s at shared
      have split := Nat.div_add_mod r window
      have splitOther := Nat.div_add_mod s window
      have low := Nat.mod_lt r positive
      have lowOther := Nat.mod_lt s positive
      rw [shared] at split
      rw [abs_lt]
      omega
    have equal := relations.eq_zero geometric small
    have first := geometric 0
    rw [equal, Fin.val_zero, pow_zero, one_mul] at first
    have divides := Int.modEq_zero_iff_dvd.mp first.symm
    have coprime : IsCoprime ((window * count : Nat) : ℤ) (multiplier : ℤ) :=
      Nat.isCoprime_iff_coprime.mpr unit
    exact (Nat.modEq_iff_dvd.mpr (coprime.dvd_of_dvd_mul_left divides)).symm
  · intro same steps _
    rw [shown_eq, shown_eq, state_congr multiplier increment same (steps + 1)]

end Library.Congruential
