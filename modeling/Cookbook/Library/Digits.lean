import Cookbook.Library.Text
import Mathlib.Algebra.BigOperators.Intervals
import Mathlib.Algebra.BigOperators.Ring.Finset
import Mathlib.Algebra.Order.Ring.Int
import Mathlib.Data.List.GetD
import Mathlib.Data.Nat.Digits.Defs
import Mathlib.Tactic.Ring

/-!
# Numbers written with signed digits

A list of digits, the lowest first, stands for the sum of its digits times the powers of a base.
Digits may be negative or exceed the base, so one number has many such lists, and a recoding is a
sequence of assignments that leaves the sum alone.
-/
namespace Library.Digits

open Library.Text Finset

/-- The number that digits stand for. -/
def weigh (base : Int) : List Int → Int
  | [] => 0
  | digit :: rest => digit + base * weigh base rest

variable {base : Int}

@[simp] theorem weigh_nil : weigh base [] = 0 := rfl

@[simp] theorem weigh_cons (digit : Int) (rest : List Int) :
    weigh base (digit :: rest) = digit + base * weigh base rest := rfl

/-- The number is the weighted sum of the digits. -/
theorem weigh_eq_sum (digits : List Int) :
    weigh base digits = ∑ i ∈ range digits.length, digits.getD i 0 * base ^ i := by
  induction digits with
  | nil => rfl
  | cons digit rest ih =>
    rw [weigh_cons, List.length_cons, sum_range_succ', ih, mul_sum]
    simp only [List.getD_cons_succ, List.getD_cons_zero, pow_zero, mul_one]
    rw [add_comm]
    congr 1
    refine sum_congr rfl fun i _ => ?_
    ring

/-- Digits behind others weigh by the length of those. -/
theorem weigh_append (base : Int) (front behind : List Int) :
    weigh base (front ++ behind) = weigh base front + base ^ front.length * weigh base behind := by
  induction front with
  | nil => simp
  | cons digit rest ih =>
    rw [List.cons_append, weigh_cons, ih, weigh_cons, List.length_cons, pow_succ]
    ring

/-- A list of digits is its lower and its upper part. -/
theorem weigh_split (base : Int) (digits : List Int) {position : Nat} (inside : position ≤ digits.length) :
    weigh base digits =
      weigh base (digits.take position) + base ^ position * weigh base (digits.drop position) := by
  have parts := weigh_append base (digits.take position) (digits.drop position)
  rwa [List.take_append_drop, List.length_take_of_le inside] at parts

/-- The upper part at a position is the digit there and the part above. -/
theorem weigh_drop (base : Int) {digits : List Int} {position : Nat} (inside : position < digits.length) :
    weigh base (digits.drop position) =
      digits.getD position 0 + base * weigh base (digits.drop (position + 1)) := by
  rw [List.drop_eq_getElem_cons inside, weigh_cons, List.getD_eq_getElem _ _ inside]

/-- The same for a width of digits above the position. -/
theorem weigh_drop_split (base : Int) (digits : List Int) {low width : Nat}
    (inside : low + width ≤ digits.length) :
    weigh base (digits.drop low) = weigh base ((digits.take (low + width)).drop low) +
      base ^ width * weigh base (digits.drop (low + width)) := by
  have shorter : width ≤ (digits.drop low).length := by
    rw [List.length_drop]
    omega
  have parts := weigh_split base (digits.drop low) shorter
  rwa [List.take_drop, List.drop_drop] at parts

/-- An assignment adds the difference of the digits at its position. -/
theorem weigh_set {digits : List Int} {position : Nat} (inside : position < digits.length)
    (digit : Int) :
    weigh base (digits.set position digit) =
      weigh base digits + base ^ position * (digit - digits.getD position 0) := by
  induction digits generalizing position with
  | nil => exact absurd inside (Nat.not_lt_zero _)
  | cons head rest ih =>
    cases position with
    | zero =>
      simp only [List.set_cons_zero, weigh_cons, List.getD_cons_zero, pow_zero]
      ring
    | succ position =>
      have deeper := ih (Nat.lt_of_succ_lt_succ inside)
      simp only [List.set_cons_succ, weigh_cons, List.getD_cons_succ, deeper]
      ring

/-- The same for the part above a position at or below the assignment. -/
theorem weigh_drop_set {digits : List Int} {position : Nat} (inside : position < digits.length)
    {low : Nat} (above : low ≤ position) (digit : Int) :
    weigh base ((digits.set position digit).drop low) =
      weigh base (digits.drop low) +
        base ^ (position - low) * (digit - digits.getD position 0) := by
  have shorter : position - low < (digits.drop low).length := by
    rw [List.length_drop]
    omega
  rw [List.drop_set, if_neg (Nat.not_lt.mpr above), weigh_set shorter, List.getD_eq_getElem?_getD,
    List.getElem?_drop, Nat.add_sub_cancel' above, ← List.getD_eq_getElem?_getD]

/-- The digit at a position after an assignment. -/
theorem getD_set (digits : List Int) {position : Nat} (inside : position < digits.length)
    (digit : Int) (other : Nat) :
    (digits.set position digit).getD other 0 =
      if other = position then digit else digits.getD other 0 := by
  rw [List.getD_eq_getElem?_getD, List.getElem?_set]
  by_cases same : other = position
  · subst same
    rw [if_pos rfl, if_pos inside, if_pos rfl]
    rfl
  · rw [if_neg (Ne.symm same), if_neg same, List.getD_eq_getElem?_getD]

/-- Digits of one sign weigh a number of that sign. -/
theorem weigh_nonneg {digits : List Int} (positive : 0 ≤ base) (all : ∀ j, 0 ≤ digits.getD j 0) :
    0 ≤ weigh base digits := by
  induction digits with
  | nil => exact le_rfl
  | cons digit rest ih =>
    have first : 0 ≤ digit := by simpa using all 0
    have others : 0 ≤ weigh base rest := ih fun j => by simpa using all (j + 1)
    exact add_nonneg first (mul_nonneg positive others)

/-- The digits of an upper part. -/
theorem getD_drop (digits : List Int) (low j : Nat) :
    (digits.drop low).getD j 0 = digits.getD (low + j) 0 := by
  rw [List.getD_eq_getElem?_getD, List.getElem?_drop, ← List.getD_eq_getElem?_getD]

/-- The digits of a lower part. -/
theorem getD_take (digits : List Int) (high j : Nat) :
    (digits.take high).getD j 0 = if j < high then digits.getD j 0 else 0 := by
  rw [List.getD_eq_getElem?_getD, List.getElem?_take]
  split
  · rw [← List.getD_eq_getElem?_getD]
  · rfl

/-! ## Bytes and bits -/

/-- The number that bytes stand for, the lowest byte first. -/
def littleEndian (bytes : Bytes) : Nat := Nat.ofDigits 256 (bytes.map UInt8.toNat)

@[simp] theorem littleEndian_nil : littleEndian [] = 0 := rfl

@[simp] theorem littleEndian_cons (byte : UInt8) (rest : Bytes) :
    littleEndian (byte :: rest) = byte.toNat + 256 * littleEndian rest :=
  Nat.ofDigits_cons

/-- Bytes behind others count by the length of those. -/
theorem littleEndian_append (front behind : Bytes) :
    littleEndian (front ++ behind) =
      littleEndian front + 256 ^ front.length * littleEndian behind := by
  rw [littleEndian, List.map_append, Nat.ofDigits_append, List.length_map]
  rfl

/-- A byte of a number. -/
theorem littleEndian_byte (bytes : Bytes) (i : Nat) :
    (bytes.getD i 0).toNat = littleEndian bytes / 256 ^ i % 256 := by
  induction bytes generalizing i with
  | nil => simp
  | cons byte rest ih =>
    have small := byte.toNat_lt
    rw [littleEndian_cons]
    cases i with
    | zero =>
      rw [List.getD_cons_zero, pow_zero, Nat.div_one]
      omega
    | succ i =>
      rw [List.getD_cons_succ, ih, pow_succ', ← Nat.div_div_eq_div_mul,
        Nat.add_mul_div_left _ _ (by decide), Nat.div_eq_of_lt small, Nat.zero_add]

/-- The bytes of a number count its low part. -/
theorem littleEndian_bytes (number count : Nat) :
    littleEndian ((List.range count).map fun i => UInt8.ofNat (number / 256 ^ i)) =
      number % 256 ^ count := by
  induction count with
  | zero => simp [Nat.mod_one]
  | succ count ih =>
    rw [List.range_succ, List.map_append, littleEndian_append, ih, List.length_map,
      List.length_range, List.map_singleton, littleEndian_cons, littleEndian_nil,
      UInt8.toNat_ofNat', Nat.mod_pow_succ (b := 256)]
    rfl

/-- Texts of one length with one number are equal. -/
theorem littleEndian_injective {left right : Bytes} (length : left.length = right.length)
    (same : littleEndian left = littleEndian right) : left = right := by
  refine List.ext_getElem length fun i first second => ?_
  have digit := littleEndian_byte left i
  rw [same, ← littleEndian_byte, List.getD_eq_getElem _ _ first,
    List.getD_eq_getElem _ _ second] at digit
  exact UInt8.toNat_inj.mp digit

/-- The bits of the number are those of its bytes. -/
theorem littleEndian_testBit (bytes : Bytes) (i : Nat) :
    (littleEndian bytes).testBit i = (bytes.getD (i / 8) 0).toNat.testBit (i % 8) := by
  induction bytes generalizing i with
  | nil => simp
  | cons byte rest ih =>
    have small : byte.toNat < 2 ^ 8 := byte.toNat_lt
    rw [littleEndian_cons, Nat.add_comm, show 256 = 2 ^ 8 from rfl,
      Nat.testBit_two_pow_mul_add _ small]
    by_cases low : i < 8
    · rw [if_pos low, Nat.div_eq_of_lt low, Nat.mod_eq_of_lt low, List.getD_cons_zero]
    · have next : i / 8 = (i - 8) / 8 + 1 := by omega
      rw [if_neg low, ih, next, List.getD_cons_succ, show (i - 8) % 8 = i % 8 by omega]

/-- The digits of a number weigh its low part. -/
theorem weigh_digits (radix number count : Nat) :
    weigh radix ((List.range count).map fun i => ((number / radix ^ i % radix : Nat) : Int)) =
      ((number % radix ^ count : Nat) : Int) := by
  induction count with
  | zero => simp [Nat.mod_one]
  | succ count ih =>
    rw [List.range_succ, List.map_append, weigh_append, ih, List.length_map, List.length_range,
      List.map_singleton, weigh_cons, weigh_nil, Nat.mod_pow_succ]
    push_cast
    ring

/-- The bits of a number weigh what its low part is. -/
theorem weigh_testBit (number count : Nat) :
    weigh 2 ((List.range count).map fun i => ((number.testBit i).toNat : Int)) =
      ((number % 2 ^ count : Nat) : Int) := by
  simp only [Nat.toNat_testBit]
  exact weigh_digits 2 number count

end Library.Digits
