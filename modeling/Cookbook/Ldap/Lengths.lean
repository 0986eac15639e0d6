import Cookbook.Library.Ber
import Cookbook.Ldap.Client

/-!
# Length fields as the client reads and writes them

`ber_read_length` and `ber_read_int` move a cursor over a buffer; here they act on what stands behind
the cursor. A field with more than three length bytes is read as zero, and so is one that the buffer
does not hold.
-/
namespace Cookbook.Ldap

open Library.Text Library.Ber Tls

/-! ## Reading -/

/-- `ber_read_length` on what stands behind the cursor. -/
def lengthField : Bytes → Nat × Bytes
  | [] => (0, [])
  | first :: rest =>
    if first < 0x80 then (first.toNat, rest)
    else
      let nbytes := (first &&& 0x7F).toNat
      if 3 < nbytes ∨ rest.length < nbytes then (0, rest)
      else (number (rest.take nbytes), rest.drop nbytes)

/-- Where `ber_read_int` leaves the cursor. -/
def afterInt : Bytes → Bytes
  | [] => []
  | first :: rest =>
    if first ≠ berInteger then first :: rest
    else
      let (length, behind) := lengthField rest
      if length = 0 ∨ behind.length < length then behind else behind.drop length

/-- The bytes of a buffer. -/
theorem get_inside {bytes : Bytes} (beyond : Nat → UInt8) {pos : Nat} (inside : pos < bytes.length) :
    Region.get ⟨bytes, beyond⟩ pos = bytes[pos] := by
  simp [Region.get, List.getD, inside]

/-- Consecutive bytes inside the buffer. -/
theorem slice_eq {bytes : Bytes} (beyond : Nat → UInt8) {pos length : Nat}
    (inside : pos + length ≤ bytes.length) :
    Region.slice ⟨bytes, beyond⟩ pos length = (bytes.drop pos).take length := by
  apply List.ext_getElem
  · simp only [Region.slice, List.length_map, List.length_range, List.length_take, List.length_drop]
    omega
  · intro index low high
    simp only [Region.slice, List.length_map, List.length_range] at low
    simp [Region.slice, get_inside beyond (show pos + index < bytes.length by omega)]

/-- What stands behind a cursor inside the buffer. -/
theorem drop_eq {bytes : Bytes} (beyond : Nat → UInt8) {pos : Nat} (inside : pos < bytes.length) :
    bytes.drop pos = Region.get ⟨bytes, beyond⟩ pos :: bytes.drop (pos + 1) := by
  rw [get_inside beyond inside, List.drop_eq_getElem_cons inside]

/-- `ber_read_length` reads behind the cursor and leaves it inside the buffer. -/
theorem berReadLength_eq (bytes : Bytes) (beyond : Nat → UInt8) (pos : Nat)
    (inside : pos ≤ bytes.length) :
    pos ≤ (berReadLength ⟨bytes, beyond⟩ bytes.length pos).2 ∧
      (berReadLength ⟨bytes, beyond⟩ bytes.length pos).2 ≤ bytes.length ∧
      lengthField (bytes.drop pos) =
        ((berReadLength ⟨bytes, beyond⟩ bytes.length pos).1,
          bytes.drop (berReadLength ⟨bytes, beyond⟩ bytes.length pos).2) := by
  unfold berReadLength
  by_cases ends : bytes.length ≤ pos
  · rw [if_pos ends, List.drop_of_length_le ends]
    exact ⟨Nat.le_refl _, inside, rfl⟩
  rw [if_neg ends, drop_eq beyond (Nat.not_le.mp ends)]
  simp only [lengthField, List.length_drop]
  by_cases short : Region.get ⟨bytes, beyond⟩ pos < 0x80
  · rw [if_pos short, if_pos short]
    exact ⟨by omega, by omega, rfl⟩
  rw [if_neg short, if_neg short]
  by_cases refused : 3 < (Region.get ⟨bytes, beyond⟩ pos &&& 0x7F).toNat ∨
      bytes.length < pos + 1 + (Region.get ⟨bytes, beyond⟩ pos &&& 0x7F).toNat
  · rw [if_pos refused, if_pos (by omega)]
    exact ⟨by omega, by omega, rfl⟩
  · rw [if_neg refused, if_neg (by omega), slice_eq beyond (by omega), List.drop_drop]
    exact ⟨by omega, by omega, rfl⟩

/-- `ber_read_int` leaves the cursor inside the buffer. -/
theorem berReadInt_eq (bytes : Bytes) (beyond : Nat → UInt8) {pos : Nat}
    (inside : pos ≤ bytes.length) :
    (berReadInt ⟨bytes, beyond⟩ bytes.length pos).2 ≤ bytes.length ∧
      afterInt (bytes.drop pos) =
        bytes.drop (berReadInt ⟨bytes, beyond⟩ bytes.length pos).2 := by
  unfold berReadInt
  by_cases ends : bytes.length ≤ pos
  · rw [if_pos (.inl ends), List.drop_of_length_le ends]
    exact ⟨inside, rfl⟩
  rw [drop_eq beyond (Nat.not_le.mp ends)]
  by_cases other : Region.get ⟨bytes, beyond⟩ pos ≠ berInteger
  · rw [if_pos (.inr other)]
    simp only [afterInt, if_pos other]
    exact ⟨inside, (drop_eq beyond (Nat.not_le.mp ends)).symm⟩
  obtain ⟨-, within, read⟩ := berReadLength_eq bytes beyond (pos + 1) (by omega)
  rw [if_neg (not_or.mpr ⟨ends, other⟩)]
  simp only [afterInt, if_neg other, read, List.length_drop]
  generalize berReadLength ⟨bytes, beyond⟩ bytes.length (pos + 1) = field at within ⊢
  by_cases refused : field.1 = 0 ∨ bytes.length < field.2 + field.1
  · rw [if_pos refused, if_pos (by omega)]
    exact ⟨within, rfl⟩
  · have fits : ¬ (field.1 = 0 ∨ bytes.length - field.2 < field.1) := by omega
    rw [if_neg refused, if_neg fits, List.drop_drop]
    exact ⟨by omega, rfl⟩

/-! ## Short fields and long ones -/

/-- The number in a length byte. -/
theorem length_byte {first : UInt8} (long : ¬ first < 0x80) :
    (first &&& 0x7F).toNat = first.toNat - 128 := by
  have bound := first.toNat_lt
  have low : 128 ≤ first.toNat := Nat.not_lt.mp fun below => long (UInt8.lt_iff_toNat_lt.mpr below)
  rw [UInt8.toNat_and, show (0x7F : UInt8).toNat = 2 ^ 7 - 1 from rfl, Nat.and_two_pow_sub_one_eq_mod]
  omega

/-- A field whose number of length bytes is more than the client reads. -/
def LongField (text : Bytes) : Prop := 0x83 < text.headD 0

instance (text : Bytes) : Decidable (LongField text) := inferInstanceAs (Decidable (_ < _))

/-- A definite field of up to three length bytes is read as it is. -/
theorem lengthField_short {text rest : Bytes} {length : Nat}
    (read : definiteLength text = some (length, rest)) (short : ¬ LongField text) :
    lengthField text = (length, rest) := by
  cases text with
  | nil => cases read
  | cons first text =>
    simp only [definiteLength] at read
    simp only [lengthField]
    split at read
    · next below =>
      rw [if_pos below]
      exact Option.some.inj read
    · next above =>
      rw [if_neg above]
      have few : (first &&& 0x7F).toNat ≤ 3 := by
        rw [length_byte above]
        have : first.toNat ≤ 131 := Nat.not_lt.mp fun more => short (UInt8.lt_iff_toNat_lt.mpr more)
        omega
      split at read
      · cases read
      · next fits =>
        rw [if_neg (by omega)]
        exact Option.some.inj read

/-- A longer one is read as zero, up to its first length byte. -/
theorem lengthField_long {first : UInt8} (rest : Bytes) (long : LongField (first :: rest)) :
    lengthField (first :: rest) = (0, rest) := by
  have more : 131 < first.toNat := UInt8.lt_iff_toNat_lt.mp long
  have above : ¬ first < 0x80 := fun below => by
    have : first.toNat < 128 := UInt8.lt_iff_toNat_lt.mp below
    omega
  simp only [lengthField, if_neg above, length_byte above]
  rw [if_pos (.inl (by omega))]

/-- What is read as a length other than zero is a definite field of up to three length bytes. -/
theorem definiteLength_of_nonzero {text : Bytes} (nonzero : (lengthField text).1 ≠ 0) :
    definiteLength text = some ((lengthField text).1, (lengthField text).2) ∧ ¬ LongField text := by
  cases text with
  | nil => exact (nonzero rfl).elim
  | cons first text =>
    by_cases long : LongField (first :: text)
    · rw [lengthField_long text long] at nonzero
      exact (nonzero rfl).elim
    refine ⟨?_, long⟩
    simp only [lengthField] at nonzero ⊢
    simp only [definiteLength]
    split
    · rfl
    · next above =>
      rw [if_neg above] at nonzero
      split at nonzero
      · exact (nonzero rfl).elim
      · next fits =>
        have some : (first &&& 0x7F).toNat ≠ 0 := by
          intro none
          rw [none] at nonzero
          exact nonzero rfl
        rw [if_neg (by omega), if_neg fits]

end Cookbook.Ldap
