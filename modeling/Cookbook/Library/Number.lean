import Cookbook.Library.Text

/-!
# Numerals

Decimal numerals as C prints and reads them. A printed number is read back exactly, whatever text
follows that does not continue it.
-/
namespace Library.Text

/-- A decimal digit character. -/
def isDecimal (c : UInt8) : Bool := decide (0x30 ≤ c) && decide (c ≤ 0x39)

/-- The character of a digit below ten. -/
def digitChar (digit : Nat) : UInt8 := UInt8.ofNat (0x30 + digit)

/-- The value of a digit character. -/
def digitValue (c : UInt8) : Nat := c.toNat - 0x30

/-- The white space that number readers skip. -/
def isSpace (c : UInt8) : Bool := c == space || (decide (0x09 ≤ c) && decide (c ≤ 0x0D))

/-- Put the digits of a number, least significant first, in front of a text. -/
def prependDigits : Nat → Nat → Bytes → Bytes
  | 0, _, text => text
  | fuel + 1, number, text =>
    let text := digitChar (number % 10) :: text
    if number < 10 then text else prependDigits fuel (number / 10) text

/-- The numeral of a natural number. -/
def decimalNat (number : Nat) : Bytes := prependDigits (number + 1) number []

/-- The numeral of an integer, as `%lld` prints it. -/
def decimal : Int → Bytes
  | .ofNat number => decimalNat number
  | .negSucc number => 0x2D :: decimalNat (number + 1)

/-- The value of a digit string. -/
def readDigits (digits : Bytes) : Nat :=
  digits.foldl (fun number c => number * 10 + digitValue c) 0

/-- The sign and the text behind it. -/
def readSign : Bytes → Bool × Bytes
  | c :: rest => if c = 0x2D then (true, rest) else if c = 0x2B then (false, rest)
    else (false, c :: rest)
  | [] => (false, [])

/-- `strtoll(text, NULL, 10)`: saturates at the ends of the 64-bit range. -/
def strtoll (text : Bytes) : Int :=
  let signed := readSign (text.dropWhile isSpace)
  let number := readDigits (signed.2.takeWhile isDecimal)
  if signed.1 then max (-9223372036854775808) (-(number : Int))
  else min 9223372036854775807 number

/-- `atoi`: the value that `strtol` reads, cut to 32 bits. -/
def atoi (text : Bytes) : Int := (strtoll text).bmod 4294967296

/-- A digit character is decimal and has its value. -/
theorem digitChar_spec (digit : Nat) (small : digit < 10) :
    isDecimal (digitChar digit) = true ∧ digitValue (digitChar digit) = digit ∧
      isSpace (digitChar digit) = false ∧ digitChar digit ≠ 0x2D ∧ digitChar digit ≠ 0x2B := by
  revert digit
  decide

/-- The digits put in front are digits, and there is at least one. -/
theorem prependDigits_split (fuel number : Nat) (text : Bytes) (enough : number < fuel) :
    ∃ digits, prependDigits fuel number text = digits ++ text ∧ digits ≠ [] ∧
      (∀ c ∈ digits, isDecimal c = true ∧ isSpace c = false ∧ c ≠ 0x2D ∧ c ≠ 0x2B) ∧
      readDigits digits = number := by
  induction fuel generalizing number text with
  | zero => omega
  | succ fuel ih =>
    have last := digitChar_spec (number % 10) (Nat.mod_lt _ (by decide))
    simp only [prependDigits]
    by_cases small : number < 10
    · refine ⟨[digitChar (number % 10)], by simp [small], by simp, ?_, ?_⟩
      · intro c member
        obtain rfl := List.mem_singleton.mp member
        exact ⟨last.1, last.2.2⟩
      · simp only [readDigits, List.foldl_cons, List.foldl_nil, last.2.1]
        omega
    · obtain ⟨digits, shape, _, all, value⟩ :=
        ih (number / 10) (digitChar (number % 10) :: text) (by omega)
      refine ⟨digits ++ [digitChar (number % 10)], by simp [small, shape], by simp, ?_, ?_⟩
      · intro c member
        rcases List.mem_append.mp member with inside | same
        · exact all c inside
        · obtain rfl := List.mem_singleton.mp same
          exact ⟨last.1, last.2.2⟩
      · simp only [readDigits, List.foldl_append, List.foldl_cons, List.foldl_nil, last.2.1] at value ⊢
        rw [value]
        omega

/-- A numeral is a nonempty digit string of its number. -/
theorem decimalNat_spec (number : Nat) :
    decimalNat number ≠ [] ∧
      (∀ c ∈ decimalNat number, isDecimal c = true ∧ isSpace c = false ∧ c ≠ 0x2D ∧ c ≠ 0x2B) ∧
      readDigits (decimalNat number) = number := by
  obtain ⟨digits, shape, nonempty, all, value⟩ :=
    prependDigits_split (number + 1) number [] (by omega)
  rw [List.append_nil] at shape
  rw [decimalNat, shape]
  exact ⟨nonempty, all, value⟩

/-- A text that no digit continues is cut where the digits end. -/
theorem takeWhile_decimal {digits rest : Bytes} (all : ∀ c ∈ digits, isDecimal c = true)
    (ends : ∀ c ∈ rest.head?, isDecimal c = false) :
    (digits ++ rest).takeWhile isDecimal = digits := by
  cases rest with
  | nil => simpa using all
  | cons c rest => exact takeWhile_stop all (ends c rfl)

/-- A printed 64-bit integer is read back from in front of any text that does not continue it. -/
theorem strtoll_decimal (number : Int) (rest : Bytes) (low : -9223372036854775808 ≤ number)
    (high : number < 9223372036854775808) (ends : ∀ c ∈ rest.head?, isDecimal c = false) :
    strtoll (decimal number ++ rest) = number := by
  cases number with
  | ofNat number =>
    obtain ⟨nonempty, all, value⟩ := decimalNat_spec number
    obtain ⟨c, digits, shape⟩ := List.exists_cons_of_ne_nil nonempty
    have first := all c (by simp [shape])
    have skipped : (decimalNat number ++ rest).dropWhile isSpace = decimalNat number ++ rest := by
      simp [shape, first.2.1]
    have sign : readSign (decimalNat number ++ rest) = (false, decimalNat number ++ rest) := by
      simp [shape, readSign, first.2.2.1, first.2.2.2]
    simp only [strtoll, decimal, skipped, sign,
      takeWhile_decimal (fun c member => (all c member).1) ends, value]
    simp only [Bool.false_eq_true, ↓reduceIte, Int.ofNat_eq_natCast] at high ⊢
    omega
  | negSucc number =>
    obtain ⟨_, all, value⟩ := decimalNat_spec (number + 1)
    have skipped : (0x2D :: decimalNat (number + 1) ++ rest).dropWhile isSpace =
        0x2D :: (decimalNat (number + 1) ++ rest) := by simp [isSpace]
    simp only [strtoll, decimal, skipped, readSign, ↓reduceIte,
      takeWhile_decimal (fun c member => (all c member).1) ends, value]
    omega

/-- A number with a bounded number of digits has a numeral of that length. -/
theorem prependDigits_length (fuel number digits : Nat) (text : Bytes)
    (small : number < Nat.pow 10 (digits + 1)) :
    (prependDigits fuel number text).length ≤ text.length + (digits + 1) := by
  induction fuel generalizing number digits text with
  | zero => simp [prependDigits]
  | succ fuel ih =>
    simp only [prependDigits]
    by_cases last : number < 10
    · simp [last]
    · rw [if_neg last]
      cases digits with
      | zero => exact absurd small last
      | succ digits =>
        have rest := ih (number / 10) digits (digitChar (number % 10) :: text)
          (by rw [Nat.div_lt_iff_lt_mul (by decide)]; simpa [Nat.pow_succ] using small)
        simp only [List.length_cons] at rest
        omega

/-- A 64-bit time that is not negative prints at most nineteen digits. -/
theorem decimal_length {number : Int} (low : 0 ≤ number) (high : number < 9223372036854775808) :
    (decimal number).length ≤ 19 := by
  cases number with
  | ofNat number =>
    have bounded : number < 10000000000000000000 := by
      simp only [Int.ofNat_eq_natCast] at high
      omega
    have short := prependDigits_length (number + 1) number 18 [] bounded
    simpa [decimal, decimalNat] using short
  | negSucc number => omega

/-! ## Cut numerals -/

/-- One more digit. -/
theorem readDigits_concat (digits : Bytes) (c : UInt8) :
    readDigits (digits ++ [c]) = readDigits digits * 10 + digitValue c := by
  simp [readDigits]

/-- More digits make no smaller number. -/
theorem readDigits_le_append (digits more : Bytes) :
    readDigits digits ≤ readDigits (digits ++ more) := by
  induction more using List.reverseRecOn with
  | nil => simp
  | append_singleton more c ih =>
    rw [← List.append_assoc, readDigits_concat]
    omega

/-- A numeral that lost digits is read as a smaller number. -/
theorem strtoll_cut {number size : Nat} {rest : Bytes} (positive : 0 < number)
    (cut : size < (decimalNat number).length) :
    strtoll ((decimalNat number ++ rest).take size) < number := by
  obtain ⟨_, all, value⟩ := decimalNat_spec number
  rw [List.take_append_of_le_length cut.le]
  have kept : ∀ c ∈ (decimalNat number).take size,
      isDecimal c = true ∧ isSpace c = false ∧ c ≠ 0x2D ∧ c ≠ 0x2B :=
    fun c member => all c (List.mem_of_mem_take member)
  have smaller : readDigits ((decimalNat number).take size) < number := by
    have longer := readDigits_le_append
      ((decimalNat number).take size ++ [(decimalNat number)[size]])
      ((decimalNat number).drop (size + 1))
    rw [readDigits_concat, List.append_assoc, List.singleton_append, List.getElem_cons_drop,
      List.take_append_drop, value] at longer
    omega
  generalize (decimalNat number).take size = digits at kept smaller
  cases digits with
  | nil => simp [strtoll, readSign, readDigits]; omega
  | cons c digits =>
    have first := kept c (by simp)
    have run : (c :: digits).takeWhile isDecimal = c :: digits :=
      List.takeWhile_eq_self_iff.mpr fun d member => (kept d member).1
    have sign : readSign ((c :: digits).dropWhile isSpace) = (false, c :: digits) := by
      simp [readSign, first.2.1, first.2.2.1, first.2.2.2]
    simp only [strtoll, sign, run, Bool.false_eq_true, ↓reduceIte]
    omega

/-! ## Digit strings -/

/-- A digit is no blank and no sign. -/
theorem decimal_plain : ∀ c : UInt8, isDecimal c = true →
    isSpace c = false ∧ c ≠ 0x2D ∧ c ≠ 0x2B := byte_forall (by decide +kernel)

/-- The digits of a number of any length are read, up to the end of the 64-bit range. -/
theorem strtoll_run {digits rest : Bytes} (filled : digits ≠ [])
    (all : ∀ c ∈ digits, isDecimal c = true) (ends : ∀ c ∈ rest.head?, isDecimal c = false) :
    strtoll (digits ++ rest) = min 9223372036854775807 (readDigits digits : Int) := by
  obtain ⟨c, others, shape⟩ := List.exists_cons_of_ne_nil filled
  have first : isDecimal c = true := all c (by rw [shape]; exact List.mem_cons_self)
  have skipped : (digits ++ rest).dropWhile isSpace = digits ++ rest := by
    rw [shape, List.cons_append, List.dropWhile_cons_of_neg]
    rw [(decimal_plain c first).1]
    exact Bool.false_ne_true
  have sign : readSign (digits ++ rest) = (false, digits ++ rest) := by
    rw [shape, List.cons_append, readSign, if_neg (decimal_plain c first).2.1,
      if_neg (decimal_plain c first).2.2]
  unfold strtoll
  rw [skipped, sign]
  dsimp only
  rw [takeWhile_decimal all ends, if_neg Bool.false_ne_true]

/-- The digits of a number that fits are read. -/
theorem strtoll_digits {digits rest : Bytes} (filled : digits ≠ [])
    (all : ∀ c ∈ digits, isDecimal c = true) (small : readDigits digits ≤ 9223372036854775807)
    (ends : ∀ c ∈ rest.head?, isDecimal c = false) :
    strtoll (digits ++ rest) = readDigits digits := by
  rw [strtoll_run filled all ends]
  omega

/-- A number that fits an `int` is read as one. -/
theorem atoi_digits {digits rest : Bytes} (filled : digits ≠ [])
    (all : ∀ c ∈ digits, isDecimal c = true) (small : readDigits digits < 2147483648)
    (ends : ∀ c ∈ rest.head?, isDecimal c = false) : atoi (digits ++ rest) = readDigits digits := by
  unfold atoi
  rw [strtoll_digits filled all (by omega) ends]
  exact Int.bmod_eq_of_le (by omega) (by omega)

/-- A digit is at most nine. -/
theorem digitValue_le : ∀ c : UInt8, isDecimal c = true → digitValue c ≤ 9 :=
  byte_forall (by decide +kernel)

/-- Digits give a number below the power of ten of their count. -/
theorem readDigits_lt (digits : Bytes) (all : ∀ c ∈ digits, isDecimal c = true) :
    readDigits digits < Nat.pow 10 digits.length := by
  induction digits using List.reverseRecOn with
  | nil => decide
  | append_singleton digits c ih =>
    have front := ih fun other member => all other (List.mem_append_left _ member)
    have here := digitValue_le c (all c (List.mem_append_right _ (List.mem_singleton.mpr rfl)))
    rw [readDigits_concat, List.length_append, List.length_singleton]
    show _ < Nat.pow 10 digits.length * 10
    omega

end Library.Text
