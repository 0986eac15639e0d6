import Cookbook.Library.Digits

/-!
# Words of bytes in little-endian order

The loads and stores that the field and the scalar arithmetic of `cookbook_ed25519.c` share.
-/
namespace Cookbook.Crypto

open Library.Text Library.Digits

/-- The bytes of a load, each shifted to its place. -/
def loadBytes (count : Nat) (s : Bytes) (offset : Nat) : UInt64 :=
  (List.range count).foldl
    (fun word i => word ||| ((s.getD (offset + i) 0).toUInt64 <<< UInt64.ofNat (8 * i))) 0

/-- `load64_le` -/
def load64 (s : Bytes) (offset : Nat) : UInt64 := loadBytes 8 s offset

/-- `store64_le` -/
def store64 (v : UInt64) : Bytes :=
  (List.range 8).map fun i => (v >>> UInt64.ofNat (8 * i)).toUInt8

/-- A load reads the number that stands in its bytes. -/
theorem loadBytes_toNat {count : Nat} (fits : count ≤ 8) (s : Bytes) (offset : Nat) :
    (loadBytes count s offset).toNat = littleEndian s / 256 ^ offset % 256 ^ count := by
  induction count with
  | zero => simp [loadBytes, Nat.mod_one]
  | succ count ih =>
    have small : 8 * count < 64 := by omega
    have byte := littleEndian_byte s (offset + count)
    have power : (256 : Nat) ^ count = 2 ^ (8 * count) := by rw [Nat.pow_mul]
    have place : (UInt64.ofNat (8 * count)).toNat = 8 * count := by
      rw [UInt64.toNat_ofNat', Nat.mod_eq_of_lt (by omega)]
    have inside : (s.getD (offset + count) 0).toNat * 2 ^ (8 * count) < 2 ^ 64 := by
      calc
        (s.getD (offset + count) 0).toNat * 2 ^ (8 * count) < 2 ^ 8 * 2 ^ (8 * count) :=
          Nat.mul_lt_mul_of_pos_right (UInt8.toNat_lt _) (Nat.two_pow_pos _)
        _ = 2 ^ (8 + 8 * count) := (Nat.pow_add _ _ _).symm
        _ ≤ 2 ^ 64 := Nat.pow_le_pow_right (by decide) (by omega)
    have shifted : ((s.getD (offset + count) 0).toUInt64 <<< UInt64.ofNat (8 * count)).toNat =
        2 ^ (8 * count) * (littleEndian s / 256 ^ offset / 256 ^ count % 256) := by
      rw [UInt64.toNat_shiftLeft, place, Nat.mod_eq_of_lt small, Nat.shiftLeft_eq,
        UInt8.toNat_toUInt64, Nat.mod_eq_of_lt inside, byte, pow_add, Nat.div_div_eq_div_mul,
        Nat.mul_comm]
    have low : littleEndian s / 256 ^ offset % 256 ^ count < 2 ^ (8 * count) := by
      rw [← power]
      exact Nat.mod_lt _ (by positivity)
    have before := ih (by omega)
    rw [loadBytes] at before
    rw [loadBytes, List.range_succ, List.foldl_append, List.foldl_cons, List.foldl_nil,
      UInt64.toNat_or, before, shifted, Nat.or_comm, ← Nat.two_pow_add_eq_or_of_lt low,
      Nat.mod_pow_succ, ← power, Nat.add_comm]

/-- A store writes the number of its word. -/
theorem store64_littleEndian (v : UInt64) : littleEndian (store64 v) = v.toNat := by
  have bytes : store64 v = (List.range 8).map fun i => UInt8.ofNat (v.toNat / 256 ^ i) := by
    refine List.map_congr_left fun i member => ?_
    have inside : i < 8 := List.mem_range.mp member
    apply UInt8.toNat_inj.mp
    rw [UInt64.toNat_toUInt8, UInt64.toNat_shiftRight, UInt64.toNat_ofNat',
      Nat.mod_eq_of_lt (show 8 * i < 2 ^ 64 by omega), Nat.mod_eq_of_lt (show 8 * i < 64 by omega),
      Nat.shiftRight_eq_div_pow, UInt8.toNat_ofNat', Nat.pow_mul]
  rw [bytes, littleEndian_bytes]
  exact Nat.mod_eq_of_lt v.toNat_lt

theorem store64_length (v : UInt64) : (store64 v).length = 8 := by
  rw [store64, List.length_map, List.length_range]

end Cookbook.Crypto
