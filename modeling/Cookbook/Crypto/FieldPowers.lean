import Cookbook.Crypto.FieldValues
import Cookbook.Library.Lucas
import Mathlib.FieldTheory.Finite.Basic
import Mathlib.Tactic.NormNum.Prime

/-!
# Powers of field elements

`fe_invert` and `fe_pow22523` raise an element to a fixed power by squarings and multiplications. The
exponent is followed through every step; the order of the field is prime, so the first power is the
inverse.
-/
namespace Cookbook.Crypto

open Library.Lucas

/-! ## The order -/

theorem prime_31757755568855353 : Nat.Prime 31757755568855353 :=
  @prime_of_passes _ 10
    [(2, 3), (3, 1), (31, 1), (107, 1), (223, 1), (4153, 1), (430751, 1)] (by norm_num) rfl

theorem prime_72106336199 : Nat.Prime 72106336199 := by
  have large : Nat.Prime 2773320623 :=
    @prime_of_passes _ 5 [(2, 1), (2437, 1), (569003, 1)] (by norm_num) rfl
  refine @prime_of_passes _ 7 [(2, 1), (13, 1), (2773320623, 1)] ?_ rfl
  simp only [List.forall_mem_cons]
  exact ⟨by norm_num, by norm_num, large, by simp⟩

theorem prime_1919519569386763 : Nat.Prime 1919519569386763 :=
  @prime_of_passes _ 2 [(2, 1), (3, 1), (7, 1), (19, 1), (47, 2), (127, 1), (8574133, 1)]
    (by norm_num) rfl

theorem prime_75445702479781427272750846543864801 :
    Nat.Prime 75445702479781427272750846543864801 := by
  refine @prime_of_passes _ 7 [(2, 5), (3, 2), (5, 2), (75707, 1), (72106336199, 1),
    (1919519569386763, 1)] ?_ (by decide +kernel)
  simp only [List.forall_mem_cons]
  exact ⟨by norm_num, by norm_num, by norm_num, by norm_num, prime_72106336199,
    prime_1919519569386763, by simp⟩

theorem prime_large : Nat.Prime
    74058212732561358302231226437062788676166966415465897661863160754340907 := by
  refine @prime_of_passes _ 2 [(2, 1), (3, 1), (353, 1), (57467, 1), (132049, 1), (1923133, 1),
    (31757755568855353, 1), (75445702479781427272750846543864801, 1)] ?_ (by decide +kernel)
  simp only [List.forall_mem_cons]
  exact ⟨by norm_num, by norm_num, by norm_num, by norm_num, by norm_num, by norm_num,
    prime_31757755568855353, prime_75445702479781427272750846543864801, by simp⟩

/-- The order of the field is prime. -/
theorem order_prime : order.Prime := by
  refine @prime_of_passes _ 2 [(2, 2), (3, 1), (65147, 1),
    (74058212732561358302231226437062788676166966415465897661863160754340907, 1)] ?_
    (by decide +kernel)
  simp only [List.forall_mem_cons]
  exact ⟨by norm_num, by norm_num, by norm_num, prime_large, by simp⟩

/-! ## Chains of products -/

/-- An element that stands for a power of another, and may be multiplied. -/
structure Power (z : Fe) (exponent : Nat) (f : Fe) : Prop where
  /-- It is the power modulo the order. -/
  value : f.value ≡ z.value ^ exponent [MOD order]
  /-- Its limbs are small enough. -/
  small : f.AtMost productBound

variable {z : Fe}

/-- An element is its own first power. -/
theorem Power.self (small : z.AtMost productBound) : Power z 1 z :=
  ⟨by rw [pow_one], small⟩

/-- A product adds the exponents. -/
theorem Power.mul {m n : Nat} {f g : Fe} (left : Power z m f) (right : Power z n g) :
    Power z (m + n) (feMul f g) := by
  obtain ⟨value, small⟩ := feMul_spec left.small right.small
  refine ⟨value.trans ?_, small.mono (by decide)⟩
  rw [pow_add]
  exact left.value.mul right.value

/-- A square doubles the exponent. -/
theorem Power.sq {n : Nat} {f : Fe} (power : Power z n f) : Power z (2 * n) (feSq f) := by
  obtain ⟨value, small⟩ := feSq_spec power.small
  refine ⟨value.trans ?_, small.mono (by decide)⟩
  rw [two_mul, pow_add]
  exact power.value.mul power.value

/-- A loop of squarings doubles it every time. -/
theorem Power.squarings {n : Nat} {f : Fe} (power : Power z n f) (count : Nat) :
    Power z (2 ^ count * n) (feSquarings count f) := by
  induction count generalizing n f with
  | zero => rwa [pow_zero, one_mul]
  | succ count ih =>
    rw [feSquarings, Function.iterate_succ_apply, pow_succ, mul_assoc]
    exact ih power.sq

/-- The front of both chains: the element to the eleventh power, and to the powers of five and of ten
ones in binary. -/
theorem Power.front (small : z.AtMost productBound) :
    Power z 11 (feMul (feSq z) (feMul z (feSq (feSq (feSq z))))) ∧
      Power z (2 ^ 5 - 1) (feMul (feMul z (feSq (feSq (feSq z))))
        (feSq (feMul (feSq z) (feMul z (feSq (feSq (feSq z))))))) := by
  have one := Power.self small
  have two := one.sq
  have nine := one.mul two.sq.sq
  have eleven := two.mul nine
  exact ⟨eleven, nine.mul eleven.sq⟩

/-- `fe_invert` raises to the power of the order less two. -/
theorem feInvert_power (small : z.AtMost productBound) : Power z (order - 2) (feInvert z) := by
  -- From here on an exponent is a row of ones in binary, named by its length.
  obtain ⟨eleven, five⟩ := Power.front small
  have ten := (five.sq.squarings 4).mul five
  have twenty := (ten.sq.squarings 9).mul ten
  have forty := (twenty.sq.squarings 19).mul twenty
  have fifty := (forty.sq.squarings 9).mul ten
  have hundred := (fifty.sq.squarings 49).mul fifty
  have twoHundred := (hundred.sq.squarings 99).mul hundred
  have whole := (twoHundred.sq.squarings 49).mul fifty
  exact (whole.sq.squarings 4).mul eleven

/-- `fe_pow22523` raises to the power of the order less five, by eight. -/
theorem fePow22523_power (small : z.AtMost productBound) :
    Power z ((order - 5) / 8) (fePow22523 z) := by
  obtain ⟨-, five⟩ := Power.front small
  have ten := (five.sq.squarings 4).mul five
  have twenty := (ten.sq.squarings 9).mul ten
  have forty := (twenty.sq.squarings 19).mul twenty
  have fifty := (forty.sq.squarings 9).mul ten
  have hundred := (fifty.sq.squarings 49).mul fifty
  have twoHundred := (hundred.sq.squarings 99).mul hundred
  have whole := (twoHundred.sq.squarings 49).mul fifty
  exact whole.sq.sq.mul (Power.self small)

/-- An element that is not zero times its power is one. -/
theorem fermat (number : Nat) (nonzero : ¬ order ∣ number) :
    number ^ (order - 2) * number ≡ 1 [MOD order] := by
  have coprime : number.Coprime order := (order_prime.coprime_iff_not_dvd.mpr nonzero).symm
  have power := Nat.ModEq.pow_totient coprime
  rw [Nat.totient_prime order_prime] at power
  rw [← pow_succ]
  exact power

/-- The two powers: one is the inverse of every element that is not zero, the other serves for square
roots. -/
theorem fieldPowers (small : z.AtMost productBound) :
    (feInvert z).value ≡ z.value ^ (order - 2) [MOD order] ∧
      (¬ order ∣ z.value → (feInvert z).value * z.value ≡ 1 [MOD order]) ∧
      (fePow22523 z).value ≡ z.value ^ ((order - 5) / 8) [MOD order] := by
  have inverse := (feInvert_power small).value
  refine ⟨inverse, fun nonzero => ?_, (fePow22523_power small).value⟩
  exact (inverse.mul_right _).trans (fermat z.value nonzero)

/-- The constant of the curve is inverted. -/
theorem fieldPowers_edD :
    edD.AtMost productBound ∧ (feInvert edD).value * edD.value ≡ 1 [MOD order] := by
  have small : edD.AtMost productBound := ⟨by decide, by decide, by decide, by decide, by decide⟩
  exact ⟨small, (fieldPowers small).2.1 (by decide +kernel)⟩

end Cookbook.Crypto
