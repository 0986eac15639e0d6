import Mathlib.Data.List.Prime
import Mathlib.NumberTheory.LucasPrimality

/-!
# Primes by Lucas's test

A base whose order modulo a number is one less than the number shows that the number is prime. The
prime factors of the predecessor suffice to see that no smaller exponent does.
-/
namespace Library.Lucas

/-- Squaring and multiplying along the bits of an exponent, the lowest first. -/
def powerLoop (modulus : Nat) : Nat → Nat → Nat → Nat → Nat
  | 0, _, _, result => result
  | bits + 1, base, exponent, result =>
    powerLoop modulus bits (base * base % modulus) (exponent / 2)
      (if exponent % 2 = 1 then result * base % modulus else result)

/-- The power of a base modulo a number. -/
def powMod (modulus base exponent : Nat) : Nat :=
  powerLoop modulus (exponent.log2 + 1) base exponent (1 % modulus)

/-- The loop multiplies its result with the power. -/
theorem powerLoop_modEq (modulus bits base exponent result : Nat) (enough : exponent < 2 ^ bits) :
    powerLoop modulus bits base exponent result ≡ result * base ^ exponent [MOD modulus] := by
  induction bits generalizing base exponent result with
  | zero =>
    obtain rfl : exponent = 0 := by simpa using enough
    rw [pow_zero, mul_one, powerLoop]
  | succ bits ih =>
    have square : base * base % modulus ≡ base ^ 2 [MOD modulus] := by
      rw [sq]
      exact Nat.mod_modEq _ _
    have half : exponent / 2 < 2 ^ bits := by
      rw [pow_succ] at enough
      omega
    refine (ih _ _ _ half).trans ?_
    have halves : 2 * (exponent / 2) + exponent % 2 = exponent := Nat.div_add_mod exponent 2
    rcases Nat.mod_two_eq_zero_or_one exponent with even | odd
    · rw [if_neg (by omega)]
      refine (Nat.ModEq.mul_left _ (square.pow _)).trans ?_
      rw [← pow_mul, show 2 * (exponent / 2) = exponent by omega]
    · rw [if_pos odd]
      refine (Nat.ModEq.mul (Nat.mod_modEq _ _) (square.pow _)).trans ?_
      rw [← pow_mul, mul_assoc, ← pow_succ', show 2 * (exponent / 2) + 1 = exponent by omega]

/-- The power is that of the numbers modulo the modulus. -/
theorem powMod_modEq (modulus base exponent : Nat) :
    powMod modulus base exponent ≡ base ^ exponent [MOD modulus] := by
  have power := powerLoop_modEq modulus _ base exponent (1 % modulus) (Nat.lt_log2_self (n := exponent))
  refine power.trans ?_
  exact (Nat.ModEq.mul_right _ (Nat.mod_modEq 1 modulus)).trans (by rw [one_mul])

/-- The test: the factors make up the predecessor, the base has the predecessor for an exponent, and
none of its quotients by a factor. -/
def passes (number base : Nat) (factors : List (Nat × Nat)) : Bool :=
  decide (1 < number) && (factors.map fun factor => factor.1 ^ factor.2).prod == number - 1 &&
    powMod number base (number - 1) == 1 % number &&
    factors.all fun factor => powMod number base ((number - 1) / factor.1) % number != 1 % number

/-- A power that is one. -/
theorem power_eq_one_iff {number : Nat} (base exponent : Nat) :
    (base : ZMod number) ^ exponent = 1 ↔ powMod number base exponent % number = 1 % number := by
  rw [← Nat.cast_pow, ← Nat.cast_one, ZMod.natCast_eq_natCast_iff]
  exact ⟨(powMod_modEq number base exponent).trans, (powMod_modEq number base exponent).symm.trans⟩

/-- A number that passes with prime factors is prime. -/
theorem prime_of_passes {number base : Nat} {factors : List (Nat × Nat)}
    (primes : ∀ factor ∈ factors, factor.1.Prime) (passed : passes number base factors = true) :
    number.Prime := by
  simp only [passes, Bool.and_eq_true, decide_eq_true_eq, beq_iff_eq, bne_iff_ne,
    List.all_eq_true] at passed
  obtain ⟨⟨⟨large, product⟩, whole⟩, parts⟩ := passed
  refine lucas_primality number (base : ZMod number) ?_ fun q prime divides => ?_
  · rw [power_eq_one_iff, whole, Nat.mod_mod]
  · rw [← product, prime.prime.dvd_prod_iff] at divides
    obtain ⟨power, member, divides⟩ := divides
    obtain ⟨factor, listed, rfl⟩ := List.mem_map.mp member
    obtain rfl : q = factor.1 := (Nat.prime_dvd_prime_iff_eq prime (primes factor listed)).mp
      (prime.dvd_of_dvd_pow divides)
    rw [ne_eq, power_eq_one_iff]
    exact parts factor listed

end Library.Lucas
