import Cookbook.Crypto.Field
import Mathlib.Data.Nat.ModEq

/-!
# What field elements stand for

Five limbs stand for the sum of the limbs times the powers of 2^51, modulo 2^255 - 19. Each operation
is followed in the natural numbers, under bounds on the limbs that keep every sum and every product
inside its word.
-/
namespace Cookbook.Crypto

/-- The order of the field. -/
def order : Nat := 2 ^ 255 - 19

/-- The number that the limbs stand for. -/
def Fe.value (f : Fe) : Nat :=
  f.h0.toNat + 2 ^ 51 * f.h1.toNat + 2 ^ 102 * f.h2.toNat + 2 ^ 153 * f.h3.toNat +
    2 ^ 204 * f.h4.toNat

/-- No limb exceeds a bound. -/
structure Fe.AtMost (bound : Nat) (f : Fe) : Prop where
  h0 : f.h0.toNat ≤ bound
  h1 : f.h1.toNat ≤ bound
  h2 : f.h2.toNat ≤ bound
  h3 : f.h3.toNat ≤ bound
  h4 : f.h4.toNat ≤ bound

/-- A larger bound holds as well. -/
theorem Fe.AtMost.mono {bound larger : Nat} {f : Fe} (small : f.AtMost bound)
    (wider : bound ≤ larger) : f.AtMost larger :=
  ⟨small.h0.trans wider, small.h1.trans wider, small.h2.trans wider, small.h3.trans wider,
    small.h4.trans wider⟩

/-! ## Words -/

/-- The mask leaves the rest modulo 2^51. -/
theorem mask_toNat (x : UInt64) : (x &&& feMask).toNat = x.toNat % 2 ^ 51 := by
  rw [UInt64.toNat_and]
  exact Nat.and_two_pow_sub_one_eq_mod _ 51

/-- The shift leaves the carry. -/
theorem carry_toNat (x : UInt64) : (x >>> 51).toNat = x.toNat / 2 ^ 51 := by
  rw [UInt64.toNat_shiftRight]
  exact Nat.shiftRight_eq_div_pow _ _

/-- A sum inside a word. -/
theorem add_toNat {x y : UInt64} (inside : x.toNat + y.toNat < 2 ^ 64) :
    (x + y).toNat = x.toNat + y.toNat := by
  rw [UInt64.toNat_add, Nat.mod_eq_of_lt inside]

/-- A difference that does not wrap. -/
theorem sub_toNat {x y : UInt64} (ordered : y.toNat ≤ x.toNat) :
    (x - y).toNat = x.toNat - y.toNat := UInt64.toNat_sub_of_le _ _ (UInt64.le_iff_toNat_le.mpr ordered)

/-- A product inside a word. -/
theorem mul_toNat {x y : UInt64} (inside : x.toNat * y.toNat < 2 ^ 64) :
    (x * y).toNat = x.toNat * y.toNat := by
  rw [UInt64.toNat_mul, Nat.mod_eq_of_lt inside]

/-! ## Carries -/

/-- A pass of carries keeps the number, and leaves limbs below 2^51 but for the last. -/
theorem feChain_spec {f : Fe} (small : f.AtMost (2 ^ 63)) :
    (feChain f).value = f.value ∧ (feChain f).h0.toNat < 2 ^ 51 ∧ (feChain f).h1.toNat < 2 ^ 51 ∧
      (feChain f).h2.toNat < 2 ^ 51 ∧ (feChain f).h3.toNat < 2 ^ 51 ∧
      (feChain f).h4.toNat ≤ f.h4.toNat + 2 ^ 13 := by
  obtain ⟨b0, b1, b2, b3, b4⟩ := small
  have t1 : (f.h1 + (f.h0 >>> 51)).toNat = f.h1.toNat + f.h0.toNat / 2 ^ 51 := by
    rw [add_toNat, carry_toNat]
    rw [carry_toNat]
    omega
  have t2 : (f.h2 + ((f.h1 + (f.h0 >>> 51)) >>> 51)).toNat =
      f.h2.toNat + (f.h1.toNat + f.h0.toNat / 2 ^ 51) / 2 ^ 51 := by
    rw [add_toNat, carry_toNat, t1]
    rw [carry_toNat, t1]
    omega
  have t3 : (f.h3 + ((f.h2 + ((f.h1 + (f.h0 >>> 51)) >>> 51)) >>> 51)).toNat =
      f.h3.toNat + (f.h2.toNat + (f.h1.toNat + f.h0.toNat / 2 ^ 51) / 2 ^ 51) / 2 ^ 51 := by
    rw [add_toNat, carry_toNat, t2]
    rw [carry_toNat, t2]
    omega
  have t4 : (f.h4 + ((f.h3 + ((f.h2 + ((f.h1 + (f.h0 >>> 51)) >>> 51)) >>> 51)) >>> 51)).toNat =
      f.h4.toNat +
        (f.h3.toNat + (f.h2.toNat + (f.h1.toNat + f.h0.toNat / 2 ^ 51) / 2 ^ 51) / 2 ^ 51) / 2 ^ 51 := by
    rw [add_toNat, carry_toNat, t3]
    rw [carry_toNat, t3]
    omega
  simp only [feChain, Fe.value, mask_toNat, t1, t2, t3, t4]
  omega

/-- The carry out of the last limb. -/
def topCarry (f : Fe) : Nat := (feChain f).h4.toNat / 2 ^ 51

/-- Folding takes the order away as often as the last limb carries. -/
theorem feFold_spec {f : Fe} (small : f.AtMost (2 ^ 63)) :
    (feFold f).value + order * topCarry f = f.value ∧
      (feFold f).h0.toNat < 2 ^ 51 + 19 * topCarry f ∧ (feFold f).h1.toNat < 2 ^ 51 ∧
      (feFold f).h2.toNat < 2 ^ 51 ∧ (feFold f).h3.toNat < 2 ^ 51 ∧ (feFold f).h4.toNat < 2 ^ 51 := by
  obtain ⟨value, b0, b1, b2, b3, b4⟩ := feChain_spec small
  have limb := small.h4
  have scaled : ((feChain f).h4 >>> 51 * 19).toNat = (feChain f).h4.toNat / 2 ^ 51 * 19 := by
    rw [mul_toNat, carry_toNat]
    · rfl
    · rw [carry_toNat]
      change _ * 19 < _
      omega
  have low : ((feChain f).h0 + (feChain f).h4 >>> 51 * 19).toNat =
      (feChain f).h0.toNat + (feChain f).h4.toNat / 2 ^ 51 * 19 := by
    rw [add_toNat, scaled]
    rw [scaled]
    omega
  rw [← value]
  simp only [feFold, topCarry, order, Fe.value, mask_toNat, low]
  omega

/-- A sum of limbs. -/
theorem feAdd_spec {f g : Fe} {m n : Nat} (left : f.AtMost m) (right : g.AtMost n)
    (room : m + n < 2 ^ 64) :
    (feAdd f g).value = f.value + g.value ∧ (feAdd f g).AtMost (m + n) := by
  obtain ⟨f0, f1, f2, f3, f4⟩ := left
  obtain ⟨g0, g1, g2, g3, g4⟩ := right
  have s0 := add_toNat (show f.h0.toNat + g.h0.toNat < 2 ^ 64 by omega)
  have s1 := add_toNat (show f.h1.toNat + g.h1.toNat < 2 ^ 64 by omega)
  have s2 := add_toNat (show f.h2.toNat + g.h2.toNat < 2 ^ 64 by omega)
  have s3 := add_toNat (show f.h3.toNat + g.h3.toNat < 2 ^ 64 by omega)
  have s4 := add_toNat (show f.h4.toNat + g.h4.toNat < 2 ^ 64 by omega)
  constructor
  · simp only [feAdd, Fe.value, s0, s1, s2, s3, s4]
    omega
  · constructor
    all_goals simp only [feAdd, s0, s1, s2, s3, s4]
    all_goals omega

/-- The folded subtrahend is below the bias, limb by limb, so that no difference wraps. -/
theorem feSub_bias {g : Fe} (small : g.AtMost (2 ^ 63)) :
    (feFold g).h0.toNat ≤ 0xfffffffffffda ∧ (feFold g).h1.toNat ≤ 0xffffffffffffe ∧
      (feFold g).h2.toNat ≤ 0xffffffffffffe ∧ (feFold g).h3.toNat ≤ 0xffffffffffffe ∧
      (feFold g).h4.toNat ≤ 0xffffffffffffe := by
  obtain ⟨-, b0, b1, b2, b3, b4⟩ := feFold_spec small
  have carried : topCarry g ≤ 2 ^ 13 := by
    have chained := (feChain_spec small).2.2.2.2.2
    have limb := small.h4
    rw [topCarry]
    omega
  omega

/-- One limb of a difference. -/
theorem limb_sub {x bias y : UInt64} (room : x.toNat + bias.toNat < 2 ^ 64)
    (below : y.toNat ≤ bias.toNat) : (x + bias - y).toNat = x.toNat + bias.toNat - y.toNat := by
  have sum := add_toNat room
  rw [sub_toNat, sum]
  rw [sum]
  omega

/-- A difference of limbs. -/
theorem feSub_spec {f g : Fe} {m : Nat} (left : f.AtMost m) (right : g.AtMost (2 ^ 63))
    (room : m + 2 ^ 52 ≤ 2 ^ 64) :
    (feSub f g).value + g.value = f.value + order * (2 + topCarry g) ∧
      (feSub f g).AtMost (m + (2 ^ 52 - 2)) := by
  obtain ⟨f0, f1, f2, f3, f4⟩ := left
  obtain ⟨folded, -⟩ := feFold_spec right
  obtain ⟨b0, b1, b2, b3, b4⟩ := feSub_bias right
  have first : (0xfffffffffffda : UInt64).toNat = 0xfffffffffffda := rfl
  have other : (0xffffffffffffe : UInt64).toNat = 0xffffffffffffe := rfl
  have s0 := limb_sub (show f.h0.toNat + (0xfffffffffffda : UInt64).toNat < 2 ^ 64 by omega) b0
  have s1 := limb_sub (show f.h1.toNat + (0xffffffffffffe : UInt64).toNat < 2 ^ 64 by omega) b1
  have s2 := limb_sub (show f.h2.toNat + (0xffffffffffffe : UInt64).toNat < 2 ^ 64 by omega) b2
  have s3 := limb_sub (show f.h3.toNat + (0xffffffffffffe : UInt64).toNat < 2 ^ 64 by omega) b3
  have s4 := limb_sub (show f.h4.toNat + (0xffffffffffffe : UInt64).toNat < 2 ^ 64 by omega) b4
  rw [first] at s0
  rw [other] at s1 s2 s3 s4
  constructor
  · rw [← folded]
    simp only [feSub, Fe.value, order, s0, s1, s2, s3, s4]
    omega
  · constructor
    all_goals simp only [feSub, s0, s1, s2, s3, s4]
    all_goals omega

/-! ## Products -/

/-- A product of two words fits an accumulator. -/
theorem wide_mul_toNat (x y : UInt64) : (wide x * wide y).toNat = x.toNat * y.toNat := by
  have left := x.toNat_lt
  have right := y.toNat_lt
  have product : x.toNat * y.toNat < 2 ^ 128 := by
    calc x.toNat * y.toNat < 2 ^ 64 * 2 ^ 64 := Nat.mul_lt_mul'' left right
      _ = 2 ^ 128 := by norm_num
  have wider (z : UInt64) : (wide z).toNat = z.toNat := by
    have small := z.toNat_lt
    rw [wide, BitVec.toNat_setWidth, UInt64.toNat_toBitVec, Nat.mod_eq_of_lt (by omega)]
  rw [BitVec.toNat_mul, wider, wider, Nat.mod_eq_of_lt product]

/-- A sum of accumulators that fits. -/
theorem sum_toNat {s t : BitVec 128} (inside : s.toNat + t.toNat < 2 ^ 128) :
    (s + t).toNat = s.toNat + t.toNat := by
  rw [BitVec.toNat_add, Nat.mod_eq_of_lt inside]

/-- The five sums of products that a multiplication accumulates, in the natural numbers. -/
structure Sums where
  t0 : Nat
  t1 : Nat
  t2 : Nat
  t3 : Nat
  t4 : Nat

namespace Sums

/-- The number that the sums stand for. -/
def value (sums : Sums) : Nat :=
  sums.t0 + 2 ^ 51 * sums.t1 + 2 ^ 102 * sums.t2 + 2 ^ 153 * sums.t3 + 2 ^ 204 * sums.t4

/-- The second sum with the carry of the first. -/
def u1 (sums : Sums) : Nat := sums.t1 + sums.t0 / 2 ^ 51
/-- The third sum with the carry of the second. -/
def u2 (sums : Sums) : Nat := sums.t2 + sums.u1 / 2 ^ 51
/-- The fourth sum with the carry of the third. -/
def u3 (sums : Sums) : Nat := sums.t3 + sums.u2 / 2 ^ 51
/-- The fifth sum with the carry of the fourth. -/
def u4 (sums : Sums) : Nat := sums.t4 + sums.u3 / 2 ^ 51
/-- The first limb with the carry of the last. -/
def low (sums : Sums) : Nat := sums.t0 % 2 ^ 51 + sums.u4 / 2 ^ 51 * 19

/-- No accumulator overflows, the last carry fits a word also when it is scaled, and neither does the
sum that takes it. -/
structure Fit (sums : Sums) : Prop where
  u0 : sums.t0 < 2 ^ 128
  u1 : sums.u1 < 2 ^ 128
  u2 : sums.u2 < 2 ^ 128
  u3 : sums.u3 < 2 ^ 128
  u4 : sums.u4 < 2 ^ 128
  low : sums.low < 2 ^ 64

end Sums

/-- The accumulators hold the sums. -/
structure Accumulate (t0 t1 t2 t3 t4 : BitVec 128) (sums : Sums) : Prop where
  t0 : t0.toNat = sums.t0
  t1 : t1.toNat = sums.t1
  t2 : t2.toNat = sums.t2
  t3 : t3.toNat = sums.t3
  t4 : t4.toNat = sums.t4

/-- The limbs of a product. -/
theorem narrow_mask (t : BitVec 128) : (narrow t &&& feMask).toNat = t.toNat % 2 ^ 51 := by
  rw [mask_toNat]
  change (t.setWidth 64).toNat % 2 ^ 51 = _
  rw [BitVec.toNat_setWidth]
  omega

/-- The carry of an accumulator. -/
theorem sum_carry (t : BitVec 128) : (t >>> 51).toNat = t.toNat / 2 ^ 51 := by
  rw [BitVec.toNat_ushiftRight, Nat.shiftRight_eq_div_pow]

/-- The limbs that a multiplication leaves of its accumulators behind the carries. -/
def feOutput (t0 t1 t2 t3 t4 : BitVec 128) : Fe :=
  let h0 := (narrow t0 &&& feMask) + narrow (t4 >>> 51) * 19
  ⟨h0 &&& feMask, (narrow t1 &&& feMask) + (h0 >>> 51), narrow t2 &&& feMask, narrow t3 &&& feMask,
    narrow t4 &&& feMask⟩

/-- They stand for the sums, less the order as often as the last one carries. -/
theorem feOutput_spec {t0 t1 t2 t3 t4 : BitVec 128} {sums : Sums} (e0 : t0.toNat = sums.t0)
    (e1 : t1.toNat = sums.u1) (e2 : t2.toNat = sums.u2) (e3 : t3.toNat = sums.u3)
    (e4 : t4.toNat = sums.u4) (low : sums.low < 2 ^ 64) :
    (feOutput t0 t1 t2 t3 t4).value + order * (sums.u4 / 2 ^ 51) = sums.value ∧
      (feOutput t0 t1 t2 t3 t4).AtMost (2 ^ 51 + 2 ^ 13) := by
  have bound : sums.t0 % 2 ^ 51 + sums.u4 / 2 ^ 51 * 19 < 2 ^ 64 := low
  have carry : (narrow (t4 >>> 51)).toNat = sums.u4 / 2 ^ 51 := by
    change ((t4 >>> 51).setWidth 64).toNat = _
    rw [BitVec.toNat_setWidth, sum_carry, e4, Nat.mod_eq_of_lt (by omega)]
  have scaled : (narrow (t4 >>> 51) * 19).toNat = sums.u4 / 2 ^ 51 * 19 := by
    rw [mul_toNat, carry]
    · rfl
    · rw [carry]
      change _ * 19 < _
      omega
  have first : ((narrow t0 &&& feMask) + narrow (t4 >>> 51) * 19).toNat = sums.low := by
    rw [add_toNat, narrow_mask, scaled, e0]
    · rfl
    · rw [narrow_mask, scaled, e0]
      exact bound
  have second : ((narrow t1 &&& feMask) +
      ((narrow t0 &&& feMask) + narrow (t4 >>> 51) * 19) >>> 51).toNat =
        sums.u1 % 2 ^ 51 + sums.low / 2 ^ 51 := by
    rw [add_toNat, narrow_mask, carry_toNat, first, e1]
    rw [narrow_mask, carry_toNat, first, e1]
    omega
  have masked : (((narrow t0 &&& feMask) + narrow (t4 >>> 51) * 19) &&& feMask).toNat =
      sums.low % 2 ^ 51 := by rw [mask_toNat, first]
  have u1 : sums.u1 = sums.t1 + sums.t0 / 2 ^ 51 := rfl
  have u2 : sums.u2 = sums.t2 + sums.u1 / 2 ^ 51 := rfl
  have u3 : sums.u3 = sums.t3 + sums.u2 / 2 ^ 51 := rfl
  have u4 : sums.u4 = sums.t4 + sums.u3 / 2 ^ 51 := rfl
  have sum : sums.low = sums.t0 % 2 ^ 51 + sums.u4 / 2 ^ 51 * 19 := rfl
  constructor
  · simp only [feOutput, Fe.value, Sums.value, order, masked, narrow_mask, second, e2, e3, e4]
    omega
  · constructor
    all_goals simp only [feOutput, masked, narrow_mask, second, e2, e3, e4]
    all_goals omega

/-- The carries at the end of a multiplication keep the sums modulo the order, and leave limbs of
little more than 51 bits. -/
theorem feReduce_spec {t0 t1 t2 t3 t4 : BitVec 128} {sums : Sums}
    (holds : Accumulate t0 t1 t2 t3 t4 sums) (fit : sums.Fit) :
    (feReduce t0 t1 t2 t3 t4).value + order * (sums.u4 / 2 ^ 51) = sums.value ∧
      (feReduce t0 t1 t2 t3 t4).AtMost (2 ^ 51 + 2 ^ 13) := by
  obtain ⟨e0, e1, e2, e3, e4⟩ := holds
  obtain ⟨-, b1, b2, b3, b4, low⟩ := fit
  have s1 : (t1 + t0 >>> 51).toNat = sums.u1 := by
    rw [sum_toNat, sum_carry, e0, e1]
    · rfl
    · rw [sum_carry, e0, e1]
      exact b1
  have s2 : (t2 + (t1 + t0 >>> 51) >>> 51).toNat = sums.u2 := by
    rw [sum_toNat, sum_carry, s1, e2]
    · rfl
    · rw [sum_carry, s1, e2]
      exact b2
  have s3 : (t3 + (t2 + (t1 + t0 >>> 51) >>> 51) >>> 51).toNat = sums.u3 := by
    rw [sum_toNat, sum_carry, s2, e3]
    · rfl
    · rw [sum_carry, s2, e3]
      exact b3
  have s4 : (t4 + (t3 + (t2 + (t1 + t0 >>> 51) >>> 51) >>> 51) >>> 51).toNat = sums.u4 := by
    rw [sum_toNat, sum_carry, s3, e4]
    · rfl
    · rw [sum_carry, s3, e4]
      exact b4
  have shape : feReduce t0 t1 t2 t3 t4 =
      feOutput t0 (t1 + t0 >>> 51) (t2 + (t1 + t0 >>> 51) >>> 51)
        (t3 + (t2 + (t1 + t0 >>> 51) >>> 51) >>> 51)
        (t4 + (t3 + (t2 + (t1 + t0 >>> 51) >>> 51) >>> 51) >>> 51) := rfl
  rw [shape]
  exact feOutput_spec e0 s1 s2 s3 s4 low

/-! ## Multiplication -/

/-- The sums of products of `fe_mul`. -/
def mulSums (f g : Fe) : Sums where
  t0 := f.h0.toNat * g.h0.toNat + f.h1.toNat * (19 * g.h4.toNat) + f.h2.toNat * (19 * g.h3.toNat) +
    f.h3.toNat * (19 * g.h2.toNat) + f.h4.toNat * (19 * g.h1.toNat)
  t1 := f.h0.toNat * g.h1.toNat + f.h1.toNat * g.h0.toNat + f.h2.toNat * (19 * g.h4.toNat) +
    f.h3.toNat * (19 * g.h3.toNat) + f.h4.toNat * (19 * g.h2.toNat)
  t2 := f.h0.toNat * g.h2.toNat + f.h1.toNat * g.h1.toNat + f.h2.toNat * g.h0.toNat +
    f.h3.toNat * (19 * g.h4.toNat) + f.h4.toNat * (19 * g.h3.toNat)
  t3 := f.h0.toNat * g.h3.toNat + f.h1.toNat * g.h2.toNat + f.h2.toNat * g.h1.toNat +
    f.h3.toNat * g.h0.toNat + f.h4.toNat * (19 * g.h4.toNat)
  t4 := f.h0.toNat * g.h4.toNat + f.h1.toNat * g.h3.toNat + f.h2.toNat * g.h2.toNat +
    f.h3.toNat * g.h1.toNat + f.h4.toNat * g.h0.toNat

/-- They stand for the product of the numbers: 2^255 is nineteen modulo the order. -/
theorem mulSums_value (f g : Fe) : (mulSums f g).value ≡ f.value * g.value [MOD order] := by
  have whole : f.value * g.value = (mulSums f g).value + order *
      (f.h1.toNat * g.h4.toNat + f.h2.toNat * g.h3.toNat + f.h3.toNat * g.h2.toNat +
        f.h4.toNat * g.h1.toNat +
        2 ^ 51 * (f.h2.toNat * g.h4.toNat + f.h3.toNat * g.h3.toNat + f.h4.toNat * g.h2.toNat) +
        2 ^ 102 * (f.h3.toNat * g.h4.toNat + f.h4.toNat * g.h3.toNat) +
        2 ^ 153 * (f.h4.toNat * g.h4.toNat)) := by
    simp only [Fe.value, mulSums, Sums.value, order]
    ring
  rw [whole]
  exact Nat.modEq_add_modulus_mul_iff.mpr rfl

/-- The bound under which products are formed: limbs below 2^54. -/
def productBound : Nat := 2 ^ 54 - 1

/-- Sums below these multiples of a bound fit. -/
theorem fit_of_bounds {sums : Sums} {bound : Nat} (t0 : sums.t0 ≤ 77 * bound)
    (t1 : sums.t1 ≤ 59 * bound) (t2 : sums.t2 ≤ 41 * bound) (t3 : sums.t3 ≤ 23 * bound)
    (t4 : sums.t4 ≤ 5 * bound) (room : 77 * bound < 2 ^ 127)
    (top : 5 * bound < 2 ^ 51 * (2 ^ 64 / 19 - 2 ^ 53)) : sums.Fit := by
  have u1 : sums.u1 = sums.t1 + sums.t0 / 2 ^ 51 := rfl
  have u2 : sums.u2 = sums.t2 + sums.u1 / 2 ^ 51 := rfl
  have u3 : sums.u3 = sums.t3 + sums.u2 / 2 ^ 51 := rfl
  have u4 : sums.u4 = sums.t4 + sums.u3 / 2 ^ 51 := rfl
  have low : sums.low = sums.t0 % 2 ^ 51 + sums.u4 / 2 ^ 51 * 19 := rfl
  constructor
  all_goals omega

/-- How large the sums of products are. -/
theorem mulSums_bounds {f g : Fe} {bound : Nat} (left : f.AtMost bound) (right : g.AtMost bound) :
    (mulSums f g).t0 ≤ 77 * (bound * bound) ∧ (mulSums f g).t1 ≤ 59 * (bound * bound) ∧
      (mulSums f g).t2 ≤ 41 * (bound * bound) ∧ (mulSums f g).t3 ≤ 23 * (bound * bound) ∧
      (mulSums f g).t4 ≤ 5 * (bound * bound) := by
  have product {x y : Nat} (first : x ≤ bound) (second : y ≤ bound) :
      x * y ≤ bound * bound := Nat.mul_le_mul first second
  have p00 := product left.h0 right.h0
  have p01 := product left.h0 right.h1
  have p02 := product left.h0 right.h2
  have p03 := product left.h0 right.h3
  have p04 := product left.h0 right.h4
  have p10 := product left.h1 right.h0
  have p11 := product left.h1 right.h1
  have p12 := product left.h1 right.h2
  have p13 := product left.h1 right.h3
  have p14 := product left.h1 right.h4
  have p20 := product left.h2 right.h0
  have p21 := product left.h2 right.h1
  have p22 := product left.h2 right.h2
  have p23 := product left.h2 right.h3
  have p24 := product left.h2 right.h4
  have p30 := product left.h3 right.h0
  have p31 := product left.h3 right.h1
  have p32 := product left.h3 right.h2
  have p33 := product left.h3 right.h3
  have p34 := product left.h3 right.h4
  have p40 := product left.h4 right.h0
  have p41 := product left.h4 right.h1
  have p42 := product left.h4 right.h2
  have p43 := product left.h4 right.h3
  have p44 := product left.h4 right.h4
  simp only [mulSums, Nat.mul_left_comm _ 19]
  refine ⟨?_, ?_, ?_, ?_, ?_⟩
  all_goals omega

/-- Sums of products fit. -/
theorem mulSums_fit {f g : Fe} (left : f.AtMost productBound) (right : g.AtMost productBound) :
    (mulSums f g).Fit := by
  obtain ⟨t0, t1, t2, t3, t4⟩ := mulSums_bounds left right
  exact fit_of_bounds t0 t1 t2 t3 t4 (by decide) (by decide)

/-- A scaled limb. -/
theorem scaled_toNat {factor limb : UInt64} {bound : Nat} (small : limb.toNat ≤ bound)
    (room : factor.toNat * bound < 2 ^ 64) : (factor * limb).toNat = factor.toNat * limb.toNat :=
  mul_toNat ((Nat.mul_le_mul_left _ small).trans_lt room)

/-- An accumulator of five products. -/
theorem five_products {a b c d e a' b' c' d' e' : UInt64} {sum : Nat}
    (value : a.toNat * a'.toNat + b.toNat * b'.toNat + c.toNat * c'.toNat + d.toNat * d'.toNat +
      e.toNat * e'.toNat = sum) (room : sum < 2 ^ 128) :
    (wide a * wide a' + wide b * wide b' + wide c * wide c' + wide d * wide d' +
      wide e * wide e').toNat = sum := by
  simp only [BitVec.toNat_add, wide_mul_toNat]
  omega

/-- An accumulator of three products. -/
theorem three_products {a b c a' b' c' : UInt64} {sum : Nat}
    (value : a.toNat * a'.toNat + b.toNat * b'.toNat + c.toNat * c'.toNat = sum)
    (room : sum < 2 ^ 128) :
    (wide a * wide a' + wide b * wide b' + wide c * wide c').toNat = sum := by
  simp only [BitVec.toNat_add, wide_mul_toNat]
  omega

/-- What every operation on sums gives: the number of the sums modulo the order, in limbs of little
more than 51 bits. -/
theorem feReduce_modEq {t0 t1 t2 t3 t4 : BitVec 128} {sums : Sums}
    (holds : Accumulate t0 t1 t2 t3 t4 sums) (fit : sums.Fit) :
    (feReduce t0 t1 t2 t3 t4).value ≡ sums.value [MOD order] ∧
      (feReduce t0 t1 t2 t3 t4).AtMost (2 ^ 51 + 2 ^ 13) := by
  obtain ⟨value, small⟩ := feReduce_spec holds fit
  refine ⟨?_, small⟩
  rw [← value]
  exact (Nat.modEq_add_modulus_mul_iff.mpr rfl)

/-- The sums fit without the carries as well. -/
theorem Sums.Fit.sums {sums : Sums} (fit : sums.Fit) :
    sums.t0 < 2 ^ 128 ∧ sums.t1 < 2 ^ 128 ∧ sums.t2 < 2 ^ 128 ∧ sums.t3 < 2 ^ 128 ∧
      sums.t4 < 2 ^ 128 :=
  ⟨fit.u0, (Nat.le_add_right ..).trans_lt fit.u1, (Nat.le_add_right ..).trans_lt fit.u2,
    (Nat.le_add_right ..).trans_lt fit.u3, (Nat.le_add_right ..).trans_lt fit.u4⟩

/-- The accumulators of `fe_mul` hold its sums. -/
theorem feMul_accumulate {f g : Fe} (left : f.AtMost productBound) (right : g.AtMost productBound) :
    ∃ t0 t1 t2 t3 t4, Accumulate t0 t1 t2 t3 t4 (mulSums f g) ∧
      feMul f g = feReduce t0 t1 t2 t3 t4 := by
  have scaled {limb : UInt64} (small : limb.toNat ≤ productBound) :
      (19 * limb).toNat = 19 * limb.toNat := scaled_toNat small (by decide)
  have s1 := scaled right.h1
  have s2 := scaled right.h2
  have s3 := scaled right.h3
  have s4 := scaled right.h4
  obtain ⟨r0, r1, r2, r3, r4⟩ := (mulSums_fit left right).sums
  refine ⟨_, _, _, _, _, ⟨five_products ?_ r0, five_products ?_ r1, five_products ?_ r2,
    five_products ?_ r3, five_products ?_ r4⟩, rfl⟩
  · rw [s1, s2, s3, s4, mulSums]
  · rw [s2, s3, s4, mulSums]
  · rw [s3, s4, mulSums]
  · rw [s4, mulSums]
  · rw [mulSums]

/-- `fe_mul` multiplies. -/
theorem feMul_spec {f g : Fe} (left : f.AtMost productBound) (right : g.AtMost productBound) :
    (feMul f g).value ≡ f.value * g.value [MOD order] ∧ (feMul f g).AtMost (2 ^ 51 + 2 ^ 13) := by
  obtain ⟨t0, t1, t2, t3, t4, holds, shape⟩ := feMul_accumulate left right
  obtain ⟨value, small⟩ := feReduce_modEq holds (mulSums_fit left right)
  rw [shape]
  exact ⟨value.trans (mulSums_value f g), small⟩

/-! ## Squares -/

/-- The sums of `fe_sq` are those of a product with itself. -/
theorem feSquares_accumulate {f : Fe} (small : f.AtMost productBound)
    (finish : BitVec 128 → BitVec 128 → BitVec 128 → BitVec 128 → BitVec 128 → Fe) :
    ∃ t0 t1 t2 t3 t4, Accumulate t0 t1 t2 t3 t4 (mulSums f f) ∧
      feSquares f finish = finish t0 t1 t2 t3 t4 := by
  have scaled {factor limb : UInt64} (inside : factor.toNat * productBound < 2 ^ 64)
      (low : limb.toNat ≤ productBound) : (factor * limb).toNat = factor.toNat * limb.toNat :=
    scaled_toNat low inside
  have d0 : (2 * f.h0).toNat = 2 * f.h0.toNat := scaled (by decide) small.h0
  have d1 : (2 * f.h1).toNat = 2 * f.h1.toNat := scaled (by decide) small.h1
  have e1 : (38 * f.h1).toNat = 38 * f.h1.toNat := scaled (by decide) small.h1
  have e2 : (38 * f.h2).toNat = 38 * f.h2.toNat := scaled (by decide) small.h2
  have e3 : (38 * f.h3).toNat = 38 * f.h3.toNat := scaled (by decide) small.h3
  have n3 : (19 * f.h3).toNat = 19 * f.h3.toNat := scaled (by decide) small.h3
  have n4 : (19 * f.h4).toNat = 19 * f.h4.toNat := scaled (by decide) small.h4
  obtain ⟨r0, r1, r2, r3, r4⟩ := (mulSums_fit small small).sums
  refine ⟨_, _, _, _, _, ⟨three_products ?_ r0, three_products ?_ r1, three_products ?_ r2,
    three_products ?_ r3, three_products ?_ r4⟩, rfl⟩
  · rw [e1, e2, mulSums]
    ring
  · rw [d0, e2, n3, mulSums]
    ring
  · rw [d0, e3, mulSums]
    ring
  · rw [d0, d1, n4, mulSums]
    ring
  · rw [d0, d1, mulSums]
    ring

/-- `fe_sq` squares. -/
theorem feSq_spec {f : Fe} (small : f.AtMost productBound) :
    (feSq f).value ≡ f.value * f.value [MOD order] ∧ (feSq f).AtMost (2 ^ 51 + 2 ^ 13) := by
  obtain ⟨t0, t1, t2, t3, t4, holds, shape⟩ := feSquares_accumulate small feReduce
  rw [feSq, shape]
  obtain ⟨value, bound⟩ := feReduce_modEq holds (mulSums_fit small small)
  exact ⟨value.trans (mulSums_value f f), bound⟩

/-- The bound on the limbs that reach an operation of the group. -/
def limbBound : Nat := 2 ^ 53 + 2 ^ 16

/-- Limbs inside it may be multiplied. -/
theorem Fe.AtMost.factor {f : Fe} (small : f.AtMost limbBound) : f.AtMost productBound :=
  small.mono (by decide)

/-- Twice the sums. -/
def Sums.doubled (sums : Sums) : Sums :=
  ⟨sums.t0 * 2, sums.t1 * 2, sums.t2 * 2, sums.t3 * 2, sums.t4 * 2⟩

/-- They fit as well, below the tighter bound. -/
theorem doubled_fit {f : Fe} (small : f.AtMost limbBound) : (mulSums f f).doubled.Fit := by
  obtain ⟨t0, t1, t2, t3, t4⟩ := mulSums_bounds small small
  refine @fit_of_bounds _ (limbBound * limbBound * 2) ?_ ?_ ?_ ?_ ?_ (by decide) (by decide)
  all_goals simp only [Sums.doubled]
  all_goals omega

/-- `fe_sq2` squares and doubles. -/
theorem feSq2_spec {f : Fe} (small : f.AtMost limbBound) :
    (feSq2 f).value ≡ 2 * (f.value * f.value) [MOD order] ∧
      (feSq2 f).AtMost (2 ^ 51 + 2 ^ 13) := by
  obtain ⟨t0, t1, t2, t3, t4, holds, shape⟩ := feSquares_accumulate small.factor
    fun t0 t1 t2 t3 t4 => feReduce (t0 * 2) (t1 * 2) (t2 * 2) (t3 * 2) (t4 * 2)
  have fit := doubled_fit small
  obtain ⟨r0, r1, r2, r3, r4⟩ := fit.sums
  have twice {t : BitVec 128} {sum : Nat} (held : t.toNat = sum) (room : sum * 2 < 2 ^ 128) :
      (t * 2).toNat = sum * 2 := by
    rw [BitVec.toNat_mul, held]
    exact Nat.mod_eq_of_lt room
  obtain ⟨value, bound⟩ := feReduce_modEq ⟨twice holds.t0 r0, twice holds.t1 r1,
    twice holds.t2 r2, twice holds.t3 r3, twice holds.t4 r4⟩ fit
  rw [feSq2, shape]
  have double : (mulSums f f).doubled.value = 2 * (mulSums f f).value := by
    simp only [Sums.doubled, Sums.value]
    ring
  exact ⟨value.trans (double ▸ (mulSums_value f f).mul_left 2), bound⟩

end Cookbook.Crypto
