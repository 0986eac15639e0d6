import Mathlib.Data.List.Basic
import Mathlib.Logic.Function.Iterate

/-!
# Cyclic redundancy checks

A check of 32 bits is the remainder in a shift register that takes the bits of a text one by one, the
lowest bit of every byte first. The standard shifts the register to the left. A program holds it
reversed, shifts it to the right, and takes eight bits at once from a table. Both are done here for any
polynomial.
-/
namespace Library.Crc

/-- The bits of a byte in the order in which they are taken. -/
def byteBits (byte : UInt8) : List Bool := (List.range 8).map fun i => byte.toBitVec.getLsbD i

/-! ## The register of the standard -/

/-- One bit: the register is shifted to the left, and the polynomial is added where the bit that leaves it
differs from the bit that comes. -/
def shiftIn (poly : BitVec 32) (register : BitVec 32) (bit : Bool) : BitVec 32 :=
  if register.msb ^^ bit then (register <<< 1) ^^^ poly else register <<< 1

/-- The check of a text: the register starts with ones, takes every bit, and is complemented and reversed
in the end. -/
def checksum (poly : BitVec 32) (text : List UInt8) : BitVec 32 :=
  ~~~((text.flatMap byteBits).foldl (shiftIn poly) (BitVec.allOnes 32)).reverse

/-! ## The reversed register -/

/-- One shift of the reversed register. -/
def shiftOut (poly : BitVec 32) (c : BitVec 32) : BitVec 32 :=
  (c >>> 1) ^^^ (if c &&& 1#32 ≠ 0 then poly else 0)

/-- The lowest bit as the program tests it. -/
theorem and_one_ne_zero (c : BitVec 32) : (c &&& 1#32 ≠ 0) ↔ c.getLsbD 0 = true := by
  rw [BitVec.and_one_eq_setWidth_ofBool_getLsbD]
  cases c.getLsbD 0 <;> decide

/-- A shift adds up. -/
theorem shiftOut_xor (poly a b : BitVec 32) :
    shiftOut poly (a ^^^ b) = shiftOut poly a ^^^ shiftOut poly b := by
  unfold shiftOut
  simp only [and_one_ne_zero, BitVec.getLsbD_xor, BitVec.ushiftRight_xor_distrib]
  have cancel : ∀ x y : BitVec 32, x ^^^ y = x ^^^ poly ^^^ (y ^^^ poly) := by
    intro x y
    calc x ^^^ y = x ^^^ y ^^^ (poly ^^^ poly) := by rw [BitVec.xor_self, BitVec.xor_zero]
      _ = x ^^^ poly ^^^ (y ^^^ poly) := by ac_rfl
  cases a.getLsbD 0 <;> cases b.getLsbD 0
  · simp
  · simp [BitVec.xor_assoc]
  · simp only [Bool.xor_false, ↓reduceIte, Bool.false_eq_true]
    rw [BitVec.ofNat_eq_ofNat, BitVec.xor_zero]
    ac_rfl
  · simp only [Bool.xor_true, Bool.not_true, Bool.false_eq_true, ↓reduceIte]
    rw [BitVec.ofNat_eq_ofNat, BitVec.xor_zero]
    exact cancel _ _

/-- Without a lowest bit the register is only shifted. -/
theorem shiftOut_even (poly : BitVec 32) {c : BitVec 32} (even : c.getLsbD 0 = false) :
    shiftOut poly c = c >>> 1 := by
  rw [shiftOut, if_neg (by rw [and_one_ne_zero, even]; decide), BitVec.ofNat_eq_ofNat, BitVec.xor_zero]

/-- One bit into the reversed register. -/
def takeBit (poly : BitVec 32) (c : BitVec 32) (bit : Bool) : BitVec 32 :=
  shiftOut poly (c ^^^ (BitVec.ofBool bit).setWidth 32)

/-- A word is its lowest bit and the others. -/
theorem split_low (x : BitVec 32) :
    ∃ rest : BitVec 32, x = (BitVec.ofBool (x.getLsbD 0)).setWidth 32 ^^^ rest ∧
      rest.getLsbD 0 = false ∧ rest >>> 1 = x >>> 1 := by
  refine ⟨(BitVec.ofBool (x.getLsbD 0)).setWidth 32 ^^^ x, ?_, ?_, ?_⟩
  · rw [← BitVec.xor_assoc, BitVec.xor_self, BitVec.zero_xor]
  · simp
  · rw [BitVec.ushiftRight_xor_distrib]
    cases x.getLsbD 0 <;> simp

/-- Bits that are added to the register are taken one by one, and the others move down. -/
theorem iterate_xor (poly c x : BitVec 32) (n : Nat) :
    (shiftOut poly)^[n] (c ^^^ x) =
      ((List.range n).map fun i => x.getLsbD i).foldl (takeBit poly) c ^^^ (x >>> n) := by
  induction n with
  | zero => simp
  | succ n ih =>
    obtain ⟨rest, split, even, moved⟩ := split_low (x >>> n)
    rw [Function.iterate_succ_apply', ih, List.range_succ, List.map_append, List.foldl_append]
    generalize ((List.range n).map fun i => x.getLsbD i).foldl (takeBit poly) c = front
    have bit : (x >>> n).getLsbD 0 = x.getLsbD n := by simp
    rw [bit] at split
    calc shiftOut poly (front ^^^ x >>> n)
        = shiftOut poly (front ^^^ (BitVec.ofBool (x.getLsbD n)).setWidth 32 ^^^ rest) := by
          rw [BitVec.xor_assoc, ← split]
      _ = takeBit poly front (x.getLsbD n) ^^^ (rest >>> 1) := by
          rw [shiftOut_xor, shiftOut_even poly even, takeBit]
      _ = takeBit poly front (x.getLsbD n) ^^^ (x >>> (n + 1)) := by
          rw [moved, BitVec.shiftRight_add]

/-! ## Eight bits from a table -/

/-- The low byte of a word. -/
theorem low_byte (x : BitVec 32) :
    (x &&& 255#32) >>> 8 = 0 ∧ ∀ i < 8, (x &&& 255#32).getLsbD i = x.getLsbD i := by
  have mask : ∀ i, (255#32).getLsbD i = decide (i < 8) := by
    intro i
    rw [BitVec.getLsbD_ofNat, show (255 : Nat) = 2 ^ 8 - 1 from rfl, Nat.testBit_two_pow_sub_one]
    by_cases small : i < 8
    · rw [decide_eq_true (by omega : i < 32), Bool.true_and]
    · rw [decide_eq_false small, Bool.and_false]
  refine ⟨?_, fun i small => ?_⟩
  · apply BitVec.eq_of_getLsbD_eq
    intro i _
    rw [BitVec.getLsbD_ushiftRight, BitVec.getLsbD_and, mask, decide_eq_false (by omega)]
    simp
  · rw [BitVec.getLsbD_and, mask, decide_eq_true small, Bool.and_true]

/-- The entry of a byte moves the register by eight bits, all but the bits of the register that move
down. -/
theorem iterate_split (poly x : BitVec 32) :
    (shiftOut poly)^[8] x = (shiftOut poly)^[8] (x &&& 255#32) ^^^ (x >>> 8) := by
  obtain ⟨clear, same⟩ := low_byte x
  have whole := iterate_xor poly 0#32 x 8
  have part := iterate_xor poly 0#32 (x &&& 255#32) 8
  rw [BitVec.zero_xor] at whole part
  have bits : (List.range 8).map (fun i => (x &&& 255#32).getLsbD i) =
      (List.range 8).map fun i => x.getLsbD i :=
    List.map_congr_left fun i member => same i (List.mem_range.mp member)
  rw [whole, part, bits, clear, BitVec.ofNat_eq_ofNat, BitVec.xor_zero]

/-- A byte in the low bits of a word. -/
theorem byte_bits (byte : UInt8) :
    ((List.range 8).map fun i => (byte.toBitVec.setWidth 32).getLsbD i) = byteBits byte ∧
      byte.toBitVec.setWidth 32 >>> 8 = 0 := by
  refine ⟨?_, ?_⟩
  · refine List.map_congr_left fun i member => ?_
    have small := List.mem_range.mp member
    rw [BitVec.getLsbD_setWidth, decide_eq_true (by omega), Bool.true_and]
  · apply BitVec.eq_of_getLsbD_eq
    intro i _
    rw [BitVec.getLsbD_ushiftRight, BitVec.getLsbD_setWidth, BitVec.getLsbD_of_ge _ _ (by omega)]
    simp

/-- A table with the registers behind every byte. -/
def IsTable (poly : BitVec 32) (table : List (BitVec 32)) : Prop :=
  ∀ i < 256, table.getD i 0 = (shiftOut poly)^[8] (BitVec.ofNat 32 i)

/-- Eight bits at once. -/
def takeByte (table : List (BitVec 32)) (c : BitVec 32) (byte : UInt8) : BitVec 32 :=
  table.getD ((c ^^^ byte.toBitVec.setWidth 32) &&& 255#32).toNat 0 ^^^ (c >>> 8)

/-- Eight bits at once are eight bits one by one. -/
theorem takeByte_eq {poly : BitVec 32} {table : List (BitVec 32)} (filled : IsTable poly table)
    (c : BitVec 32) (byte : UInt8) :
    takeByte table c byte = (byteBits byte).foldl (takeBit poly) c := by
  obtain ⟨bits, clear⟩ := byte_bits byte
  unfold takeByte
  generalize byte.toBitVec.setWidth 32 = b at bits clear
  have small : ((c ^^^ b) &&& 255#32).toNat < 256 := by
    rw [BitVec.toNat_and]
    exact Nat.lt_succ_of_le Nat.and_le_right
  have entry : table.getD ((c ^^^ b) &&& 255#32).toNat 0 =
      (shiftOut poly)^[8] ((c ^^^ b) &&& 255#32) := by
    rw [filled _ small, BitVec.ofNat_toNat, BitVec.setWidth_eq]
  have down : (c ^^^ b) >>> 8 = c >>> 8 := by
    rw [BitVec.ushiftRight_xor_distrib, clear, BitVec.ofNat_eq_ofNat, BitVec.xor_zero]
  calc table.getD ((c ^^^ b) &&& 255#32).toNat 0 ^^^ (c >>> 8)
      = (shiftOut poly)^[8] (c ^^^ b) := by rw [entry, ← down, ← iterate_split]
    _ = (byteBits byte).foldl (takeBit poly) c := by
        rw [iterate_xor, bits, clear, BitVec.ofNat_eq_ofNat, BitVec.xor_zero]

/-! ## The two registers -/

/-- A sum reversed. -/
theorem reverse_xor (a b : BitVec 32) : (a ^^^ b).reverse = a.reverse ^^^ b.reverse := by
  apply BitVec.eq_of_getLsbD_eq
  intro i _
  simp only [BitVec.getLsbD_reverse, BitVec.getLsbD_xor, BitVec.getMsbD_xor]

/-- A shift reversed. -/
theorem reverse_shiftLeft (a : BitVec 32) : (a <<< 1).reverse = a.reverse >>> 1 := by
  apply BitVec.eq_of_getLsbD_eq
  intro i _
  rw [BitVec.getLsbD_reverse, BitVec.getMsbD_shiftLeft, BitVec.getLsbD_ushiftRight,
    BitVec.getLsbD_reverse, Nat.add_comm]

/-- A bit into the register and into the reversed one. -/
theorem shiftIn_reverse (poly register : BitVec 32) (bit : Bool) :
    (shiftIn poly register bit).reverse = takeBit poly.reverse register.reverse bit := by
  have low : (register.reverse ^^^ (BitVec.ofBool bit).setWidth 32).getLsbD 0 =
      (register.msb ^^ bit) := by
    rw [BitVec.getLsbD_xor, BitVec.getLsbD_reverse, ← BitVec.msb_eq_getMsbD_zero]
    cases bit <;> simp
  have down : (register.reverse ^^^ (BitVec.ofBool bit).setWidth 32) >>> 1 = register.reverse >>> 1 := by
    rw [BitVec.ushiftRight_xor_distrib]
    cases bit <;> simp
  unfold shiftIn takeBit shiftOut
  simp only [and_one_ne_zero, low, down]
  cases (register.msb ^^ bit) with
  | true => simp only [↓reduceIte, reverse_xor, reverse_shiftLeft]
  | false => simp [reverse_shiftLeft]

/-- Bits into the register and into the reversed one. -/
theorem foldl_shiftIn_reverse (poly register : BitVec 32) (bits : List Bool) :
    (bits.foldl (shiftIn poly) register).reverse =
      bits.foldl (takeBit poly.reverse) register.reverse := by
  induction bits generalizing register with
  | nil => rfl
  | cons bit bits ih => rw [List.foldl_cons, List.foldl_cons, ih, shiftIn_reverse]

/-- A text that is taken byte by byte from a table has its check. -/
theorem foldl_takeByte {poly : BitVec 32} {table : List (BitVec 32)} (filled : IsTable poly.reverse table)
    (text : List UInt8) :
    ~~~(text.foldl (takeByte table) (BitVec.allOnes 32)) = checksum poly text := by
  have bytes : ∀ c, text.foldl (takeByte table) c =
      (text.flatMap byteBits).foldl (takeBit poly.reverse) c := by
    induction text with
    | nil => exact fun c => rfl
    | cons byte text ih =>
      intro c
      rw [List.foldl_cons, ih, List.flatMap_cons, List.foldl_append, takeByte_eq filled]
  have ones : (BitVec.allOnes 32).reverse = BitVec.allOnes 32 := by
    apply BitVec.eq_of_getLsbD_eq
    intro i small
    rw [BitVec.getLsbD_reverse, BitVec.getMsbD_eq_getLsbD, BitVec.getLsbD_allOnes,
      BitVec.getLsbD_allOnes]
    simp only [decide_eq_true small, Bool.true_and, decide_eq_true_eq]
    omega
  rw [checksum, foldl_shiftIn_reverse, ones, bytes]

end Library.Crc
