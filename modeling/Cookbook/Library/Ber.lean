import Mathlib.Algebra.Order.Ring.Nat
import Mathlib.Tactic.Ring
import Cookbook.Library.Text

/-!
# Elements of the basic encoding rules

An element is a tag, a length field and as many bytes. A length field in the definite form is one byte
below 128, or a count of length bytes and the number that they write, the highest byte first.
-/
namespace Library.Ber

open Library.Text

/-! ## Numbers -/

/-- The number that bytes write, the highest first. -/
def number (bytes : Bytes) : Nat := bytes.foldl (fun number byte => number * 256 + byte.toNat) 0

/-- A number in front counts by the bytes behind it. -/
theorem foldl_number (start : Nat) (bytes : Bytes) :
    bytes.foldl (fun number byte => number * 256 + byte.toNat) start =
      start * 256 ^ bytes.length + number bytes := by
  unfold number
  induction bytes generalizing start with
  | nil => simp
  | cons byte bytes ih =>
    rw [List.foldl_cons, List.foldl_cons, ih, ih (0 * 256 + byte.toNat), List.length_cons]
    ring

theorem number_cons (byte : UInt8) (bytes : Bytes) :
    number (byte :: bytes) = byte.toNat * 256 ^ bytes.length + number bytes := by
  rw [number, List.foldl_cons, foldl_number, Nat.zero_mul, Nat.zero_add]

theorem number_append (front back : Bytes) :
    number (front ++ back) = number front * 256 ^ back.length + number back := by
  rw [number, List.foldl_append, foldl_number]
  rfl

/-- A number is below the bound of its bytes. -/
theorem number_lt (bytes : Bytes) : number bytes < 256 ^ bytes.length := by
  induction bytes with
  | nil => exact Nat.one_pos
  | cons byte bytes ih =>
    have top : (byte.toNat + 1) * 256 ^ bytes.length ≤ 256 * 256 ^ bytes.length :=
      Nat.mul_le_mul_right _ byte.toNat_lt
    rw [number_cons, List.length_cons, Nat.pow_succ, Nat.mul_comm _ 256]
    calc
      byte.toNat * 256 ^ bytes.length + number bytes
        < byte.toNat * 256 ^ bytes.length + 256 ^ bytes.length := Nat.add_lt_add_left ih _
      _ = (byte.toNat + 1) * 256 ^ bytes.length := (Nat.succ_mul _ _).symm
      _ ≤ 256 * 256 ^ bytes.length := top

/-- Only zero bytes write zero. -/
theorem number_eq_zero {bytes : Bytes} : number bytes = 0 ↔ ∀ byte ∈ bytes, byte = 0 := by
  induction bytes with
  | nil => simp [number]
  | cons byte bytes ih =>
    rw [number_cons, Nat.add_eq_zero_iff, Nat.mul_eq_zero, ih, List.forall_mem_cons,
      ← UInt8.toNat_inj]
    simp

/-! ## Length fields -/

/-- A definite length field in front, and what stands behind it. -/
def definiteLength : Bytes → Option (Nat × Bytes)
  | [] => none
  | first :: rest =>
    if first < 0x80 then some (first.toNat, rest)
    else
      let count := (first &&& 0x7F).toNat
      if count = 0 ∨ count = 127 ∨ rest.length < count then none
      else some (number (rest.take count), rest.drop count)

/-- A definite length field. -/
def IsField (field : Bytes) (length : Nat) : Prop :=
  ∀ rest, definiteLength (field ++ rest) = some (length, rest)

/-- What a length is read from is a field of that length. -/
theorem definiteLength_some {text rest : Bytes} {length : Nat}
    (read : definiteLength text = some (length, rest)) :
    ∃ field, field ≠ [] ∧ text = field ++ rest ∧ IsField field length := by
  cases text with
  | nil => cases read
  | cons first text =>
    simp only [definiteLength] at read
    split at read
    · next short =>
      obtain ⟨rfl, rfl⟩ := Prod.mk.inj (Option.some.inj read)
      refine ⟨[first], List.cons_ne_nil _ _, rfl, fun behind => ?_⟩
      exact if_pos short
    · next long =>
      split at read
      · cases read
      · next fits =>
        obtain ⟨rfl, rfl⟩ := Prod.mk.inj (Option.some.inj read)
        simp only [not_or, Nat.not_lt] at fits
        obtain ⟨some, other, enough⟩ := fits
        refine ⟨first :: text.take _, List.cons_ne_nil _ _,
          congrArg (first :: ·) (List.take_append_drop _ text).symm, fun behind => ?_⟩
        have size : (text.take (first &&& 0x7F).toNat).length = (first &&& 0x7F).toNat :=
          List.length_take_of_le enough
        simp only [List.cons_append, definiteLength, if_neg long, List.length_append, size,
          some, other, false_or]
        rw [if_neg (by omega), List.take_append_of_le_length size.ge, List.take_of_length_le size.le,
          List.drop_append_of_le_length size.ge, List.drop_of_length_le size.le, List.nil_append]

theorem IsField.ne_nil {field : Bytes} {length : Nat} (isField : IsField field length) :
    field ≠ [] := by
  rintro rfl
  cases isField []

/-! ## Elements -/

/-- An element of a tag in front: its contents, and what stands behind it. -/
def element (tag : UInt8) : Bytes → Option (Bytes × Bytes)
  | [] => none
  | first :: rest =>
    if first = tag then
      (definiteLength rest).bind fun (length, behind) =>
        if length ≤ behind.length then some (behind.take length, behind.drop length) else none
    else none

/-- An element is its tag, a field of its length and its contents. -/
theorem element_eq_some {tag : UInt8} {text contents behind : Bytes} :
    element tag text = some (contents, behind) ↔
      ∃ field, IsField field contents.length ∧ text = tag :: (field ++ (contents ++ behind)) := by
  constructor
  · intro read
    cases text with
    | nil => cases read
    | cons first rest =>
      simp only [element] at read
      split at read
      · next same =>
        obtain ⟨⟨length, later⟩, found, inside⟩ := Option.bind_eq_some_iff.mp read
        simp only at inside
        split at inside
        · next fits =>
          obtain ⟨rfl, rfl⟩ := Prod.mk.inj (Option.some.inj inside)
          obtain ⟨field, -, shape, isField⟩ := definiteLength_some found
          refine ⟨field, ?_, ?_⟩
          · rwa [List.length_take_of_le fits]
          · rw [same, shape, List.take_append_drop]
        · cases inside
      · cases read
  · rintro ⟨field, isField, rfl⟩
    simp only [element, if_pos, isField (contents ++ behind), Option.bind_some]
    simp

/-- An element that ends in front of the rest of a longer text stands in the text in front. -/
theorem element_front {tag : UInt8} {front back behind rest : Bytes} {length : Nat}
    (whole : front ++ back = tag :: behind) (read : definiteLength behind = some (length, rest))
    (fits : length + back.length ≤ rest.length) :
    ∃ later, element tag front = some (rest.take length, later) := by
  obtain ⟨field, -, rfl, isField⟩ := definiteLength_some read
  have sizes := congrArg List.length whole
  simp only [List.length_append, List.length_cons] at sizes
  have cut : front = tag :: (field ++ rest.take (rest.length - back.length)) := by
    calc
      front = (front ++ back).take front.length := (List.take_left).symm
      _ = (tag :: field ++ rest).take (field.length + 1 + (rest.length - back.length)) := by
        rw [whole, List.cons_append]
        congr 1
        omega
      _ = tag :: (field ++ rest.take (rest.length - back.length)) := by
        rw [← List.length_cons (a := tag), List.take_length_add_append, List.cons_append]
  refine ⟨(rest.take (rest.length - back.length)).drop length, element_eq_some.mpr ⟨field, ?_, ?_⟩⟩
  · rwa [List.length_take_of_le (by omega)]
  · rw [cut]
    have start : rest.take length = (rest.take (rest.length - back.length)).take length := by
      rw [List.take_take, Nat.min_eq_left (by omega)]
    rw [start, List.take_append_drop]

/-! ## Writing -/

/-- The shortest length field; from four gigabytes on there is none here. -/
def shortestField (length : Nat) : Bytes :=
  if length < 0x80 then [UInt8.ofNat length]
  else if length < 256 then [0x81, UInt8.ofNat length]
  else if length < 65536 then [0x82, UInt8.ofNat (length / 256), UInt8.ofNat length]
  else if length < 16777216 then
    [0x83, UInt8.ofNat (length / 65536), UInt8.ofNat (length / 256), UInt8.ofNat length]
  else [0x84, UInt8.ofNat (length / 16777216), UInt8.ofNat (length / 65536),
    UInt8.ofNat (length / 256), UInt8.ofNat length]

/-- An element with the shortest field. -/
def writeElement (tag : UInt8) (contents : Bytes) : Bytes :=
  tag :: (shortestField contents.length ++ contents)

/-- The shortest field is one byte, or a count and up to four length bytes. -/
theorem shortestField_cases {length : Nat} (small : length < 4294967296) :
    (length < 0x80 ∧ shortestField length = [UInt8.ofNat length]) ∨
      ∃ first bytes, shortestField length = first :: bytes ∧ ¬ first < 0x80 ∧
        (first &&& 0x7F).toNat = bytes.length ∧ number bytes = length ∧ 0 < bytes.length ∧
          bytes.length ≤ 4 ∧ (bytes.length ≤ 3 ↔ length < 16777216) := by
  unfold shortestField
  split_ifs with one two three four
  · exact .inl ⟨one, rfl⟩
  all_goals
    refine .inr ⟨_, _, rfl, by decide, by simp only [List.length_cons, List.length_nil]; decide, ?_,
      ?_, ?_, ?_⟩
    · simp only [number, List.foldl_cons, List.foldl_nil, UInt8.toNat_ofNat']
      omega
    all_goals
      simp only [List.length_cons, List.length_nil]
      omega

/-- The byte of a short length. -/
theorem toNat_short {length : Nat} (short : length < 0x80) :
    (UInt8.ofNat length).toNat = length ∧ UInt8.ofNat length < 0x80 := by
  have size : (UInt8.ofNat length).toNat = length := by
    rw [UInt8.toNat_ofNat']
    omega
  exact ⟨size, UInt8.lt_iff_toNat_lt.mpr (by rw [size]; exact short)⟩

end Library.Ber
