import Cookbook.Library.Json
import Mathlib.Data.Int.Log
import Mathlib.Data.Rat.Floor
import Mathlib.Tactic.FieldSimp
import Mathlib.Tactic.Linarith
import Mathlib.Tactic.Positivity
import Mathlib.Tactic.Ring

/-!
# Floating point numbers in print

A finite number of the C type `double` is an integer times a power of two. `%.17g` prints it rounded to
seventeen significant digits, without trailing zeros; the text is a number of JSON, and it denotes the
rounded value.
-/
namespace Library.Floating

open Library.Text Library.Json

/-! ## The values -/

/-- A finite `double`. -/
structure Binary where
  /-- The sign. -/
  negative : Bool
  /-- The integer. -/
  mantissa : Nat
  /-- The power of two. -/
  exponent : Int
  /-- The integer has 53 bits. -/
  precise : mantissa < 2 ^ 53
  /-- The smallest power. -/
  low : -1074 ≤ exponent
  /-- The largest power. -/
  high : exponent ≤ 971

/-- A `double`. -/
inductive Double
  /-- No number. -/
  | nan (negative : Bool)
  /-- An infinity. -/
  | infinite (negative : Bool)
  /-- A number. -/
  | finite (number : Binary)

/-- The numerator of the absolute value. -/
def Binary.numerator (number : Binary) : Nat := number.mantissa * 2 ^ number.exponent.toNat

/-- The denominator of the absolute value. -/
def Binary.denominator (number : Binary) : Nat := 2 ^ (-number.exponent).toNat

/-- Neither an infinity nor no number. -/
def Double.IsFinite : Double → Prop
  | finite _ => True
  | _ => False

/-- A number with its sign. -/
def signed (negative : Bool) (size : ℚ) : ℚ := if negative then -size else size

/-- The value of a finite `double`. -/
def Binary.value (number : Binary) : ℚ :=
  signed number.negative (number.numerator / number.denominator)

/-! ## Decimal digits -/

/-- The quotient, rounded to the nearest integer, and to the even one of two. -/
def roundDiv (a b : Nat) : Nat :=
  if 2 * (a % b) < b then a / b
  else if b < 2 * (a % b) then a / b + 1
  else a / b + a / b % 2

/-- The power of ten of the first significant digit of a positive quotient. -/
def leading (a b : Nat) : Int := Int.log 10 ((a : ℚ) / b)

/-- A positive quotient to seventeen significant digits: the digits as an integer, and the power of ten
of the first one. -/
def significant (a b : Nat) : Nat × Int :=
  let power := 16 - leading a b
  let digits := roundDiv (a * 10 ^ power.toNat) (b * 10 ^ (-power).toNat)
  if digits = 10 ^ 17 then (10 ^ 16, leading a b + 1) else (digits, leading a b)

/-- The value of the digits. -/
def rounded (a b : Nat) : ℚ := ((significant a b).1 : ℚ) * 10 ^ ((significant a b).2 - 16)

/-- The last digits of a number, in their count. -/
def padded : Nat → Nat → Bytes
  | 0, _ => []
  | count + 1, number => padded count (number / 10) ++ [digitChar (number % 10)]

/-- The digits of a number with a decimal point in front of the last ones. -/
def pointed (number places : Nat) : Bytes :=
  decimalNat (number / 10 ^ places) ++
    if places = 0 then [] else dot :: padded places (number % 10 ^ places)

/-- Trailing zeros behind the decimal point are taken off. -/
def stripZeros : Nat → Nat → Nat × Nat
  | number, 0 => (number, 0)
  | number, places + 1 =>
    if number % 10 = 0 then stripZeros (number / 10) places else (number, places + 1)

/-- A number without trailing zeros. -/
def shortest (number places : Nat) : Bytes :=
  pointed (stripZeros number places).1 (stripZeros number places).2

/-- The exponent, with two digits at least. -/
def exponentText (power : Int) : Bytes :=
  0x65 :: (if power < 0 then 0x2D else 0x2B) ::
    ((if power.natAbs < 10 then [0x30] else []) ++ decimalNat power.natAbs)

/-- `%.17g` on a positive quotient. -/
def printG (a b : Nat) : Bytes :=
  let (digits, power) := significant a b
  if power < -4 ∨ 17 ≤ power then shortest digits 16 ++ exponentText power
  else shortest digits (16 - power).toNat

/-- `%.17g` -/
def Double.printG : Double → Bytes
  | nan negative => (if negative then [0x2D] else []) ++ ascii "nan"
  | infinite negative => (if negative then [0x2D] else []) ++ ascii "inf"
  | finite number =>
    (if number.negative then [0x2D] else []) ++
      if number.numerator = 0 then [0x30] else Floating.printG number.numerator number.denominator

example : Floating.printG 3602879701896397 36028797018963968 = ascii "0.10000000000000001" := by
  decide +kernel

/-! ## Rounding -/

/-- Rounding stays within one half. -/
theorem roundDiv_near (a : Nat) {b : Nat} (positive : 0 < b) :
    |(roundDiv a b : ℚ) - a / b| ≤ 1 / 2 := by
  have whole : (b : ℚ) * (a / b : Nat) + (a % b : Nat) = a := by exact_mod_cast Nat.div_add_mod a b
  have upper : (0 : ℚ) < b := by exact_mod_cast positive
  have quotient : (a : ℚ) / b = (a / b : Nat) + (a % b : Nat) / b := by
    rw [← whole]
    field_simp
  have small : ((a % b : Nat) : ℚ) / b * b = (a % b : Nat) := by field_simp
  have least : (0 : ℚ) ≤ ((a % b : Nat) : ℚ) / b := by positivity
  rw [quotient, roundDiv, abs_le]
  split_ifs with below above
  · have half : 2 * ((a % b : Nat) : ℚ) < b := by exact_mod_cast below
    constructor <;> nlinarith
  · have half : (b : ℚ) < 2 * ((a % b : Nat) : ℚ) := by exact_mod_cast above
    have part : ((a % b : Nat) : ℚ) < b := by exact_mod_cast Nat.mod_lt a positive
    push_cast
    constructor <;> nlinarith
  · have middle : 2 * ((a % b : Nat) : ℚ) = b := by exact_mod_cast (by omega : 2 * (a % b) = b)
    have even : a / b % 2 = 0 ∨ a / b % 2 = 1 := Nat.mod_two_eq_zero_or_one _
    push_cast
    rcases even with even | even <;> rw [even] <;> push_cast <;> constructor <;> nlinarith

/-- Rounding goes to the next integer at most. -/
theorem roundDiv_floor (a b : Nat) : a / b ≤ roundDiv a b ∧ roundDiv a b ≤ a / b + 1 := by
  unfold roundDiv
  split_ifs <;> omega

/-- The power of ten of the first digit. -/
theorem leading_spec {a b : Nat} (upper : 0 < a) (under : 0 < b) :
    (10 : ℚ) ^ leading a b ≤ a / b ∧ (a : ℚ) / b < 10 ^ (leading a b + 1) := by
  have positive : (0 : ℚ) < a / b := by positivity
  exact ⟨Int.zpow_log_le_self (by decide) positive, Int.lt_zpow_succ_log_self (by decide) _⟩

/-- A quotient scaled by a power of ten. -/
theorem scaled (a b : Nat) (power : Int) :
    ((a * 10 ^ power.toNat : Nat) : ℚ) / (b * 10 ^ (-power).toNat : Nat) = a / b * 10 ^ power := by
  push_cast
  rcases Int.le_total 0 power with up | down
  · rw [show (-power).toNat = 0 by omega, pow_zero, mul_one, ← zpow_natCast,
      Int.toNat_of_nonneg up]
    ring
  · rw [show power.toNat = 0 by omega, pow_zero, mul_one, ← zpow_natCast,
      Int.toNat_of_nonneg (by omega), zpow_neg]
    field_simp

/-- The digits of a quotient: seventeen of them, within one half of the quotient in their last
place. -/
theorem digits_spec {a b : Nat} (upper : 0 < a) (under : 0 < b) :
    let power := 16 - leading a b
    let digits := roundDiv (a * 10 ^ power.toNat) (b * 10 ^ (-power).toNat)
    10 ^ 16 ≤ digits ∧ digits ≤ 10 ^ 17 ∧ |(digits : ℚ) - a / b * 10 ^ power| ≤ 1 / 2 := by
  intro power digits
  obtain ⟨low, high⟩ := leading_spec upper under
  have below : 0 < b * 10 ^ (-power).toNat := Nat.mul_pos under (Nat.pow_pos (by decide))
  have scale := scaled a b power
  have unit : (0 : ℚ) < 10 ^ power := zpow_pos (by decide) power
  have least : (10 : ℚ) ^ (16 : Int) ≤ a / b * 10 ^ power := by
    calc (10 : ℚ) ^ (16 : Int) = 10 ^ leading a b * 10 ^ power := by
          rw [← zpow_add₀ (by norm_num), show leading a b + power = 16 by omega]
      _ ≤ a / b * 10 ^ power := mul_le_mul_of_nonneg_right low unit.le
  have most : (a : ℚ) / b * 10 ^ power < (10 : ℚ) ^ (17 : Int) := by
    calc (a : ℚ) / b * 10 ^ power < 10 ^ (leading a b + 1) * 10 ^ power :=
          mul_lt_mul_of_pos_right high unit
      _ = 10 ^ (17 : Int) := by
          rw [← zpow_add₀ (by norm_num), show leading a b + 1 + power = 17 by omega]
  rw [← scale] at least most ⊢
  have below' : (0 : ℚ) < (b * 10 ^ (-power).toNat : Nat) := by exact_mod_cast below
  rw [le_div_iff₀ below'] at least
  rw [div_lt_iff₀ below'] at most
  have floor := roundDiv_floor (a * 10 ^ power.toNat) (b * 10 ^ (-power).toNat)
  refine ⟨?_, ?_, roundDiv_near _ below⟩
  · have first : 10 ^ 16 ≤ a * 10 ^ power.toNat / (b * 10 ^ (-power).toNat) :=
      (Nat.le_div_iff_mul_le below).mpr (by exact_mod_cast least)
    exact first.trans floor.1
  · have last : a * 10 ^ power.toNat / (b * 10 ^ (-power).toNat) < 10 ^ 17 :=
      (Nat.div_lt_iff_lt_mul below).mpr (by exact_mod_cast most)
    exact floor.2.trans last

/-- The digits and the power that are printed: seventeen digits that make the rounded quotient. -/
theorem significant_spec {a b : Nat} (upper : 0 < a) (under : 0 < b) :
    10 ^ 16 ≤ (significant a b).1 ∧ (significant a b).1 < 10 ^ 17 ∧
      |rounded a b - a / b| ≤ a / b / (2 * 10 ^ 16) := by
  obtain ⟨least, most, near⟩ := digits_spec upper under
  obtain ⟨low, -⟩ := leading_spec upper under
  have unit : (0 : ℚ) < 10 ^ (leading a b - 16) := zpow_pos (by decide) _
  have inverse : (10 : ℚ) ^ (16 - leading a b) * 10 ^ (leading a b - 16) = 1 := by
    rw [← zpow_add₀ (by decide), show 16 - leading a b + (leading a b - 16) = 0 by omega, zpow_zero]
  have shape : rounded a b =
      roundDiv (a * 10 ^ (16 - leading a b).toNat) (b * 10 ^ (-(16 - leading a b)).toNat) *
        10 ^ (leading a b - 16) := by
    unfold rounded significant
    dsimp only
    split_ifs with carry
    · rw [carry, show leading a b + 1 - 16 = 1 + (leading a b - 16) by omega,
        zpow_add₀ (by decide)]
      push_cast
      ring
    · rfl
  refine ⟨?_, ?_, ?_⟩
  · unfold significant
    dsimp only
    split_ifs
    · exact le_rfl
    · exact least
  · unfold significant
    dsimp only
    split_ifs with carry
    · exact Nat.pow_lt_pow_right (by decide) (by decide)
    · exact lt_of_le_of_ne most carry
  · generalize roundDiv (a * 10 ^ (16 - leading a b).toNat)
      (b * 10 ^ (-(16 - leading a b)).toNat) = digits at near shape
    have moved : rounded a b - a / b =
        ((digits : ℚ) - a / b * 10 ^ (16 - leading a b)) * 10 ^ (leading a b - 16) := by
      rw [shape, sub_mul, mul_assoc, inverse, mul_one]
    rw [moved, abs_mul, abs_of_pos unit]
    calc |(digits : ℚ) - a / b * 10 ^ (16 - leading a b)| * 10 ^ (leading a b - 16)
        ≤ 1 / 2 * 10 ^ (leading a b - 16) := mul_le_mul_of_nonneg_right near unit.le
      _ = 10 ^ leading a b / (2 * 10 ^ 16) := by
          rw [zpow_sub₀ (by decide)]
          norm_num
          ring
      _ ≤ a / b / (2 * 10 ^ 16) := div_le_div_of_nonneg_right low (by norm_num)

/-! ## The digits in print -/

/-- Two digit strings in a row. -/
theorem readDigits_append (front last : Bytes) :
    readDigits (front ++ last) = readDigits front * 10 ^ last.length + readDigits last := by
  induction last using List.reverseRecOn with
  | nil => simp [readDigits]
  | append_singleton last c ih =>
    rw [← List.append_assoc, readDigits_concat, ih, readDigits_concat, List.length_append,
      List.length_singleton, pow_succ]
    ring

/-- A numeral of a positive number has no leading zero. -/
theorem prependDigits_head {fuel number : Nat} (text : Bytes) (positive : 0 < number)
    (enough : number < fuel) : (prependDigits fuel number text).head? ≠ some 0x30 := by
  induction fuel generalizing number text with
  | zero => omega
  | succ fuel ih =>
    rw [prependDigits]
    split_ifs with small
    · intro zero
      have value := (digitChar_spec (number % 10) (Nat.mod_lt _ (by decide))).2.1
      rw [Option.some.inj zero] at value
      have none : digitValue 0x30 = 0 := by decide
      omega
    · exact ih _ (by omega) (by omega)

/-- The last digits are digits in their count, and make the number up to it. -/
theorem padded_spec (count number : Nat) :
    (padded count number).length = count ∧ (∀ c ∈ padded count number, isDecimal c = true) ∧
      readDigits (padded count number) = number % 10 ^ count := by
  induction count generalizing number with
  | zero => simp [padded, readDigits, Nat.mod_one]
  | succ count ih =>
    obtain ⟨length, all, value⟩ := ih (number / 10)
    have last := digitChar_spec (number % 10) (Nat.mod_lt _ (by decide))
    refine ⟨by simp [padded, length], ?_, ?_⟩
    · intro c member
      rcases List.mem_append.mp member with front | same
      · exact all c front
      · rw [List.mem_singleton.mp same]
        exact last.1
    · rw [padded, readDigits_concat, value, last.2.1, pow_succ', Nat.mod_mul]
      ring

/-- Taking off zeros keeps the value. -/
theorem stripZeros_spec (number places : Nat) :
    (stripZeros number places).2 ≤ places ∧
      number = (stripZeros number places).1 * 10 ^ (places - (stripZeros number places).2) := by
  induction places generalizing number with
  | zero => exact ⟨le_rfl, by simp [stripZeros]⟩
  | succ places ih =>
    rw [stripZeros]
    split_ifs with zero
    · obtain ⟨fewer, value⟩ := ih (number / 10)
      refine ⟨by omega, ?_⟩
      rw [Nat.succ_sub fewer, pow_succ, ← mul_assoc, ← value]
      omega
    · exact ⟨le_rfl, by simp⟩

/-- The numeral of a decimal digit string in front of a text that does not continue it. -/
theorem digits_run {run rest : Bytes} (filled : run ≠ []) (all : ∀ c ∈ run, isDecimal c = true)
    (ends : ∀ c ∈ rest.head?, isDecimal c = false) : digits (run ++ rest) = some (run, rest) := by
  have front := takeWhile_decimal all ends
  have behind : (run ++ rest).dropWhile isDecimal = rest := by
    have whole := List.takeWhile_append_dropWhile (p := isDecimal) (l := run ++ rest)
    rw [front] at whole
    exact List.append_cancel_left whole
  rw [digits, front, if_neg filled, behind]

/-- No numeral has a digit behind a leading zero. -/
theorem decimalNat_strict (number : Nat) :
    ¬ (1 < (decimalNat number).length ∧ (decimalNat number).head? = some 0x30) := by
  rintro ⟨long, zero⟩
  rcases Nat.eq_zero_or_pos number with rfl | positive
  · revert long
    decide
  · exact prependDigits_head [] positive (Nat.lt_succ_self _) zero

/-- The digits behind the decimal point. -/
def fractionDigits (number places : Nat) : Bytes :=
  if places = 0 then [] else padded places (number % 10 ^ places)

/-- The count of the digits behind the point, and the value of all digits. -/
theorem fractionDigits_spec (number places : Nat) :
    (fractionDigits number places).length = places ∧
      readDigits (decimalNat (number / 10 ^ places) ++ fractionDigits number places) = number := by
  obtain ⟨length, -, value⟩ := padded_spec places (number % 10 ^ places)
  have whole := (decimalNat_spec (number / 10 ^ places)).2.2
  unfold fractionDigits
  split_ifs with none
  · subst none
    exact ⟨rfl, by simpa using whole⟩
  · refine ⟨length, ?_⟩
    rw [readDigits_append, whole, length, value, Nat.mod_mod, Nat.div_add_mod']

/-- The fraction of a pointed number. -/
theorem fraction_pointed (number places : Nat) {rest : Bytes}
    (ends : ∀ c ∈ rest.head?, isDecimal c = false ∧ c ≠ dot) :
    fraction ((if places = 0 then [] else dot :: padded places (number % 10 ^ places)) ++ rest) =
      some (fractionDigits number places, rest) := by
  unfold fractionDigits
  split_ifs with none
  · cases rest with
    | nil => rfl
    | cons c rest =>
      rw [List.nil_append, fraction, if_neg (ends c rfl).2]
  · obtain ⟨length, all, -⟩ := padded_spec places (number % 10 ^ places)
    have filled : padded places (number % 10 ^ places) ≠ [] :=
      List.ne_nil_of_length_pos (by omega)
    rw [List.cons_append, fraction, if_pos rfl, digits_run filled all fun c member => (ends c member).1]

/-- A number in front of a text: its value is that of all digits, scaled by the exponent and the count of
the digits behind the point. -/
theorem magnitude_pointed (number places : Nat) {power : Int} {rest behind : Bytes}
    (ends : ∀ c ∈ rest.head?, isDecimal c = false ∧ c ≠ dot)
    (scale : exponent rest = some (power, behind)) :
    magnitude (pointed number places ++ rest) =
      some ((number : ℚ) * 10 ^ (power - places), behind) := by
  obtain ⟨filled, all, -⟩ := decimalNat_spec (number / 10 ^ places)
  obtain ⟨length, value⟩ := fractionDigits_spec number places
  have whole : digits (pointed number places ++ rest) = some (decimalNat (number / 10 ^ places),
      (if places = 0 then [] else dot :: padded places (number % 10 ^ places)) ++ rest) := by
    rw [pointed, List.append_assoc]
    refine digits_run filled (fun c member => (all c member).1) fun c member => ?_
    split_ifs at member
    · exact (ends c member).1
    · cases member
      decide
  refine Option.bind_eq_some_iff.mpr ⟨_, whole, ?_⟩
  dsimp only
  rw [if_neg (decimalNat_strict _)]
  refine Option.bind_eq_some_iff.mpr ⟨_, fraction_pointed number places ends, ?_⟩
  refine Option.bind_eq_some_iff.mpr ⟨_, scale, ?_⟩
  rw [value, length]

/-- The exponent in print. -/
theorem exponent_text (power : Int) {rest : Bytes} (ends : ∀ c ∈ rest.head?, isDecimal c = false) :
    exponent (exponentText power ++ rest) = some (power, rest) := by
  obtain ⟨filled, all, value⟩ := decimalNat_spec power.natAbs
  generalize shape : (if power.natAbs < 10 then [0x30] else []) ++ decimalNat power.natAbs = run
  have run_all : ∀ c ∈ run, isDecimal c = true := by
    rw [← shape]
    intro c member
    rcases List.mem_append.mp member with pad | digit
    · split_ifs at pad
      · rw [List.mem_singleton.mp pad]
        decide
      · cases pad
    · exact (all c digit).1
  have run_filled : run ≠ [] := by
    rw [← shape]
    exact List.append_ne_nil_of_right_ne_nil _ filled
  have run_value : readDigits run = power.natAbs := by
    rw [← shape, readDigits_append, value]
    split_ifs <;> simp [readDigits, digitValue]
  have split := digits_run run_filled run_all ends
  rw [exponentText, shape, List.cons_append, List.cons_append, exponent, if_pos (.inl rfl)]
  by_cases below : power < 0
  · rw [if_pos below]
    refine Option.bind_eq_some_iff.mpr ⟨_, split, ?_⟩
    simp only [readSign, ↓reduceIte, run_value]
    rw [show -(power.natAbs : Int) = power by omega]
  · rw [if_neg below]
    refine Option.bind_eq_some_iff.mpr ⟨_, split, ?_⟩
    simp only [readSign, run_value]
    rw [show ((power.natAbs : Nat) : Int) = power by omega]
    rfl

/-- A text that no number goes on with. -/
def EndsNumber (rest : Bytes) : Prop :=
  ∀ c ∈ rest.head?, isDecimal c = false ∧ c ≠ dot ∧ c ≠ 0x65 ∧ c ≠ 0x45

/-- Behind a number there is no exponent. -/
theorem exponent_none {rest : Bytes} (ends : EndsNumber rest) : exponent rest = some (0, rest) := by
  cases rest with
  | nil => rfl
  | cons c rest =>
    obtain ⟨-, -, small, large⟩ := ends c rfl
    rw [exponent, if_neg (by simp [small, large])]

/-- A number without trailing zeros. -/
theorem magnitude_shortest (number places : Nat) {power : Int} {rest behind : Bytes}
    (ends : ∀ c ∈ rest.head?, isDecimal c = false ∧ c ≠ dot)
    (scale : exponent rest = some (power, behind)) :
    magnitude (shortest number places ++ rest) =
      some ((number : ℚ) * 10 ^ (power - places), behind) := by
  obtain ⟨fewer, value⟩ := stripZeros_spec number places
  rw [shortest, magnitude_pointed _ _ ends scale]
  generalize stripZeros number places = stripped at fewer value ⊢
  have same : (stripped.1 : ℚ) * 10 ^ (power - stripped.2) = number * 10 ^ (power - places) := by
    rw [value, show power - (stripped.2 : Int) =
      ((places - stripped.2 : Nat) : Int) + (power - places) by omega, zpow_add₀ (by decide),
      zpow_natCast]
    push_cast
    ring
  rw [same]

/-- What `%.17g` prints is read as the rounded quotient. -/
theorem magnitude_printG (a b : Nat) {rest : Bytes} (ends : EndsNumber rest) :
    magnitude (printG a b ++ rest) = some (rounded a b, rest) := by
  have short : ∀ c ∈ rest.head?, isDecimal c = false ∧ c ≠ dot := fun c member =>
    ⟨(ends c member).1, (ends c member).2.1⟩
  unfold printG rounded
  dsimp only
  split_ifs with scientific
  · rw [List.append_assoc]
    have inner := exponent_text (significant a b).2 fun c member => (ends c member).1
    rw [magnitude_shortest _ 16 (by rintro c ⟨⟩; decide) inner]
    rfl
  · rw [magnitude_shortest _ _ short (exponent_none ends),
      show (0 : Int) - ((16 - (significant a b).2).toNat : Nat) = (significant a b).2 - 16 by omega]

/-- A digit is no sign. -/
theorem decimal_ne_minus : ∀ c : UInt8, isDecimal c = true → c ≠ 0x2D :=
  byte_forall (by decide +kernel)

/-- A number begins with a digit. -/
theorem magnitude_starts {text behind : Bytes} {size : ℚ} (read : magnitude text = some (size, behind)) :
    ∃ c rest, text = c :: rest ∧ isDecimal c = true := by
  obtain ⟨⟨whole, rest⟩, first, -⟩ := Option.bind_eq_some_iff.mp read
  cases text with
  | nil => cases first
  | cons c rest =>
    refine ⟨c, rest, rfl, ?_⟩
    by_contra other
    rw [digits, List.takeWhile_cons_of_neg other, if_pos rfl] at first
    cases first

/-- A number with its sign. -/
theorem number_signed (negative : Bool) {text rest : Bytes} {size : ℚ}
    (read : magnitude (text ++ rest) = some (size, rest)) :
    number ((if negative then [0x2D] else []) ++ text ++ rest) =
      some (signed negative size, rest) := by
  obtain ⟨c, more, start, digit⟩ := magnitude_starts read
  rw [List.append_assoc]
  cases negative with
  | true =>
    rw [if_pos rfl, List.singleton_append, number, if_pos rfl, read]
    rfl
  | false =>
    rw [if_neg (by decide), List.nil_append, start, number, if_neg (decimal_ne_minus c digit), ← start,
      read]
    rfl

/-- An integer as `%lld` prints it. -/
theorem number_decimal (number : Int) {rest : Bytes} (ends : EndsNumber rest) :
    Json.number (decimal number ++ rest) = some ((number : ℚ), rest) := by
  have size : ∀ count : Nat, magnitude (decimalNat count ++ rest) = some ((count : ℚ), rest) := by
    intro count
    have read := magnitude_pointed count 0 (fun c member => ⟨(ends c member).1, (ends c member).2.1⟩)
      (exponent_none ends)
    simpa [pointed] using read
  cases number with
  | ofNat count => exact number_signed false (size count)
  | negSucc count =>
    have read := number_signed true (size (count + 1))
    rw [if_pos rfl, List.singleton_append] at read
    rw [decimal, read, signed, if_pos rfl]
    push_cast
    rfl

/-! ## The room in print -/

/-- A numeral has no more digits than its bound. -/
theorem decimalNat_length (count : Nat) {number : Nat} (bounded : number < 10 ^ (count + 1)) :
    (decimalNat number).length ≤ count + 1 := by
  have short := prependDigits_length (number + 1) number count [] bounded
  simpa [decimalNat] using short

/-- The room of a number without trailing zeros. -/
theorem shortest_length {number : Nat} (bounded : number < 10 ^ 17) (places : Nat) :
    (shortest number places).length ≤ 18 + places := by
  obtain ⟨fewer, value⟩ := stripZeros_spec number places
  have smaller : (stripZeros number places).1 ≤ number := by
    calc (stripZeros number places).1 ≤ _ := Nat.le_mul_of_pos_right _ (Nat.pow_pos (by decide))
      _ = number := value.symm
  unfold shortest pointed
  generalize stripZeros number places = stripped at fewer smaller ⊢
  have whole : (decimalNat (stripped.1 / 10 ^ stripped.2)).length ≤ 17 :=
    decimalNat_length 16 (lt_of_le_of_lt (Nat.div_le_self _ _) (lt_of_le_of_lt smaller bounded))
  have part := (padded_spec stripped.2 (stripped.1 % 10 ^ stripped.2)).1
  rw [List.length_append]
  split_ifs
  · simp only [List.length_nil]
    omega
  · rw [List.length_cons, part]
    omega

/-- The room of an exponent. -/
theorem exponentText_length {power : Int} (bounded : power.natAbs < 10 ^ 4) :
    (exponentText power).length ≤ 7 := by
  have short := decimalNat_length 3 bounded
  unfold exponentText
  simp only [List.length_cons, List.length_append]
  split_ifs <;> simp only [List.length_cons, List.length_nil] <;> omega

/-- A natural number below a power of ten. -/
theorem cast_lt_power {number count : Nat} (bounded : number < 10 ^ count) :
    (number : ℚ) < 10 ^ (count : Int) := by
  rw [zpow_natCast]
  exact_mod_cast bounded

/-- A power of two is below a power of ten. -/
theorem two_power_le {power count : Nat} (most : power ≤ count) : 2 ^ power ≤ 10 ^ count :=
  (Nat.pow_le_pow_left (by decide) power).trans (Nat.pow_le_pow_right (by decide) most)

/-- The power of ten of a `double`. -/
theorem Binary.leading_bound (number : Binary) (positive : 0 < number.numerator) :
    (leading number.numerator number.denominator).natAbs < 1100 := by
  have under : 0 < number.denominator := Nat.pow_pos (by decide)
  have under' : (1 : ℚ) ≤ number.denominator := by exact_mod_cast under
  have upper' : (1 : ℚ) ≤ number.numerator := by exact_mod_cast positive
  obtain ⟨low, high⟩ := leading_spec positive under
  have small := number.high
  have large := number.low
  have top : ∀ count, 53 + number.exponent.toNat ≤ count → number.numerator < 10 ^ count := by
    intro count most
    calc number.numerator < 2 ^ 53 * 2 ^ number.exponent.toNat :=
          Nat.mul_lt_mul_of_pos_right number.precise (Nat.pow_pos (by decide))
      _ = 2 ^ (53 + number.exponent.toNat) := (Nat.pow_add 2 53 _).symm
      _ ≤ 10 ^ count := two_power_le most
  have bottom : ∀ count, (-number.exponent).toNat ≤ count → number.denominator < 10 ^ (count + 1) := by
    intro count most
    calc number.denominator ≤ 10 ^ count := two_power_le most
      _ < 10 ^ (count + 1) := Nat.pow_lt_pow_right (by decide) (Nat.lt_succ_self _)
  have above : leading number.numerator number.denominator < ((1024 : Nat) : Int) := by
    refine (zpow_lt_zpow_iff_right₀ (by decide : (1 : ℚ) < 10)).mp (lt_of_le_of_lt low ?_)
    exact lt_of_le_of_lt (div_le_self (by positivity) under') (cast_lt_power (top _ (by omega)))
  have below : -((1074 + 1 : Nat) : Int) < leading number.numerator number.denominator + 1 := by
    refine (zpow_lt_zpow_iff_right₀ (by decide : (1 : ℚ) < 10)).mp (lt_of_le_of_lt ?_ high)
    rw [zpow_neg, ← one_div]
    exact div_le_div₀ (by positivity) upper' (by positivity) (cast_lt_power (bottom _ (by omega))).le
  omega

/-- What `%.17g` prints of a positive number. -/
theorem Binary.printG_length (number : Binary) (positive : 0 < number.numerator) :
    (Floating.printG number.numerator number.denominator).length ≤ 41 := by
  have under : 0 < number.denominator := Nat.pow_pos (by decide)
  obtain ⟨-, digits, -⟩ := significant_spec positive under
  have bound := number.leading_bound positive
  have power : (significant number.numerator number.denominator).2.natAbs < 10 ^ 4 := by
    unfold significant
    dsimp only
    split_ifs <;> dsimp only <;> omega
  unfold Floating.printG
  dsimp only
  split_ifs with scientific
  · have mantissa := shortest_length digits 16
    have exponent := exponentText_length power
    rw [List.length_append]
    omega
  · have fixed := shortest_length digits (16 - (significant number.numerator number.denominator).2).toNat
    omega

/-- What `%.17g` prints of a `double` is below fifty characters. -/
theorem printG_length (number : Double) : number.printG.length < 50 := by
  cases number with
  | nan negative => cases negative <;> decide
  | infinite negative => cases negative <;> decide
  | finite number =>
    have sign : (if number.negative then [0x2D] else [] : Bytes).length ≤ 1 := by
      cases number.negative <;> decide
    rw [Double.printG, List.length_append]
    by_cases zero : number.numerator = 0
    · rw [if_pos zero, List.length_singleton]
      omega
    · rw [if_neg zero]
      have short := Binary.printG_length number (Nat.pos_of_ne_zero zero)
      omega

/-! ## No terminator in print -/

/-- A digit is no terminator. -/
theorem decimal_ne_zero : ∀ c : UInt8, isDecimal c = true → c ≠ 0 :=
  byte_forall (by decide +kernel)

/-- A numeral has no terminator. -/
theorem decimalNat_terminated (number : Nat) : 0 ∉ decimalNat number := fun member =>
  decimal_ne_zero 0 ((decimalNat_spec number).2.1 0 member).1 rfl

/-- A number without trailing zeros has no terminator. -/
theorem shortest_terminated (number places : Nat) : 0 ∉ shortest number places := by
  have digits : ∀ count last, 0 ∉ padded count last := fun count last member =>
    decimal_ne_zero 0 ((padded_spec count last).2.1 0 member) rfl
  unfold shortest pointed
  split_ifs <;> simp [decimalNat_terminated, digits]

/-- What `%.17g` prints has no terminator. -/
theorem printG_terminated (number : Double) : 0 ∉ number.printG := by
  cases number with
  | nan negative => cases negative <;> decide
  | infinite negative => cases negative <;> decide
  | finite number =>
    unfold Double.printG Floating.printG exponentText
    dsimp only
    split_ifs <;> simp [decimalNat_terminated, shortest_terminated]

end Library.Floating
