import Cookbook.Crypto.Compression

/-!
# SHA-256

The digest behind every artifact. A context takes its message in pieces of any lengths; the final
call gives the digest of the standard for the whole message.
-/
namespace Cookbook.Crypto

open Library.Text Library.BlockHash Library.Sha2

/-! ## The transformation -/

/-- `K` -/
def k256 : List UInt32 :=
  [
    0x428a2f98, 0x71374491, 0xb5c0fbcf, 0xe9b5dba5, 0x3956c25b, 0x59f111f1,
    0x923f82a4, 0xab1c5ed5, 0xd807aa98, 0x12835b01, 0x243185be, 0x550c7dc3,
    0x72be5d74, 0x80deb1fe, 0x9bdc06a7, 0xc19bf174, 0xe49b69c1, 0xefbe4786,
    0x0fc19dc6, 0x240ca1cc, 0x2de92c6f, 0x4a7484aa, 0x5cb0a9dc, 0x76f988da,
    0x983e5152, 0xa831c66d, 0xb00327c8, 0xbf597fc7, 0xc6e00bf3, 0xd5a79147,
    0x06ca6351, 0x14292967, 0x27b70a85, 0x2e1b2138, 0x4d2c6dfc, 0x53380d13,
    0x650a7354, 0x766a0abb, 0x81c2c92e, 0x92722c85, 0xa2bfe8a1, 0xa81a664b,
    0xc24b8b70, 0xc76c51a3, 0xd192e819, 0xd6990624, 0xf40e3585, 0x106aa070,
    0x19a4c116, 0x1e376c08, 0x2748774c, 0x34b0bcb5, 0x391c0cb3, 0x4ed8aa4a,
    0x5b9cca4f, 0x682e6ff3, 0x748f82ee, 0x78a5636f, 0x84c87814, 0x8cc70208,
    0x90befffa, 0xa4506ceb, 0xbef9a3f7, 0xc67178f2]

/-- `ROR` -/
def ror (x n : UInt32) : UInt32 := (x >>> n) ||| (x <<< (32 - n))

/-- The macros of `cookbook_sha256.c`. -/
def macros256 : Macros UInt32 where
  ch x y z := (x &&& y) ^^^ (~~~x &&& z)
  maj x y z := (x &&& y) ^^^ (x &&& z) ^^^ (y &&& z)
  ep0 x := ror x 2 ^^^ ror x 13 ^^^ ror x 22
  ep1 x := ror x 6 ^^^ ror x 11 ^^^ ror x 25
  sig0 x := ror x 7 ^^^ ror x 18 ^^^ (x >>> 3)
  sig1 x := ror x 17 ^^^ ror x 19 ^^^ (x >>> 10)

/-- The words of a block. -/
def loadWords256 (block : Bytes) : List UInt32 :=
  (List.range 16).map fun i =>
    ((block.getD (i * 4) 0).toUInt32 <<< 24) ||| ((block.getD (i * 4 + 1) 0).toUInt32 <<< 16) |||
      ((block.getD (i * 4 + 2) 0).toUInt32 <<< 8) ||| (block.getD (i * 4 + 3) 0).toUInt32

/-- `sha256_transform` -/
def sha256Transform (state : Eight UInt32) (block : Bytes) : Eight UInt32 :=
  transform macros256 k256 loadWords256 state block

/-! ## Contexts -/

/-- `cookbook_sha256_ctx` -/
abbrev Sha256Ctx : Type := Context (Eight UInt32)

/-- `cookbook_sha256_init`, which leaves the buffer as it was. -/
def sha256Init (buf : Bytes) : Sha256Ctx where
  state := ⟨0x6a09e667, 0xbb67ae85, 0x3c6ef372, 0xa54ff53a, 0x510e527f, 0x9b05688c, 0x1f83d9ab,
    0x5be0cd19⟩
  count := 0
  buf := buf

/-- `cookbook_sha256_update` -/
def sha256Update (ctx : Sha256Ctx) (data : Bytes) : Sha256Ctx :=
  let idx := (ctx.count &&& 63).toNat
  let count := ctx.count + UInt64.ofNat data.length
  if idx ≠ 0 then
    let fill := 64 - idx
    if data.length < fill then ⟨ctx.state, count, write ctx.buf idx data⟩
    else
      let buf := write ctx.buf idx (data.take fill)
      let rest := absorbRest sha256Transform 64 0 (sha256Transform ctx.state buf) buf (data.drop fill)
      ⟨rest.1, count, rest.2⟩
  else
    let rest := absorbRest sha256Transform 64 0 ctx.state ctx.buf data
    ⟨rest.1, count, rest.2⟩

/-- The loop that stores the number of bits from the top. -/
def storeBits (bits : UInt64) : Bytes :=
  (List.range 8).map fun i => (bits >>> (56 - UInt64.ofNat i * 8)).toUInt8

/-- The loop that stores the words of the state. -/
def storeWords256 (state : Eight UInt32) : Bytes :=
  state.toList.flatMap fun (word : UInt32) =>
    [(word >>> 24).toUInt8, (word >>> 16).toUInt8, (word >>> 8).toUInt8, word.toUInt8]

/-- `cookbook_sha256_final` -/
def sha256Final (ctx : Sha256Ctx) : Bytes :=
  storeWords256
    (finish sha256Transform 64 (ctx.count &&& 63).toNat (storeBits (ctx.count * 8)) ctx)

/-! ## The standard -/

/-- The macros read as the functions of the standard. -/
theorem reads256 : Reads UInt32.toBitVec macros256 Library.Sha2.sha256 where
  add _ _ := rfl
  ch _ _ _ := rfl
  maj _ _ _ := rfl
  ep0 _ := rfl
  ep1 _ := rfl
  sig0 _ := rfl
  sig1 _ := rfl

/-- The constants are the roots of the standard. -/
theorem k256_fraction : ∀ i < 64, (k256.getD i default).toBitVec = fraction 32 3 i := by
  have checked : ∀ i < 64,
      isFraction 32 3 (primes.getD i 0) (k256.getD i default).toNat = true := by
    rw [primes_eq]
    decide +kernel
  exact fun i inside => fraction_eq (by decide) _ (checked i inside)

/-- A word of the source as one of the standard. -/
theorem ofNat_toNat32 (x : UInt32) : x.toBitVec = BitVec.ofNat 32 x.toNat := by
  apply BitVec.eq_of_toNat_eq
  rw [BitVec.toNat_ofNat, Nat.mod_eq_of_lt x.toNat_lt]
  rfl

/-- Four bytes make a word. -/
theorem word256 (b0 b1 b2 b3 : UInt8) :
    ((b0.toUInt32 <<< 24) ||| (b1.toUInt32 <<< 16) ||| (b2.toUInt32 <<< 8) ||| b3.toUInt32).toNat =
      bigEndian [b0, b1, b2, b3] := by
  have shifted (b : UInt8) (shift : UInt32) (inside : shift.toNat ≤ 24) :
      (b.toUInt32 <<< shift).toNat = b.toNat * 2 ^ shift.toNat := by
    have fits : b.toNat * 2 ^ shift.toNat < 2 ^ 32 :=
      calc b.toNat * 2 ^ shift.toNat < 2 ^ 8 * 2 ^ shift.toNat :=
            Nat.mul_lt_mul_of_pos_right b.toNat_lt (Nat.two_pow_pos _)
        _ ≤ 2 ^ 8 * 2 ^ 24 := Nat.mul_le_mul_left _ (Nat.pow_le_pow_right (by decide) inside)
    rw [UInt32.toNat_shiftLeft, Nat.shiftLeft_eq, UInt8.toNat_toUInt32,
      Nat.mod_eq_of_lt (show shift.toNat < 32 by omega), Nat.mod_eq_of_lt fits]
  have two : bigEndian [b0] * 2 ^ 24 ||| b1.toNat * 2 ^ 16 = bigEndian [b0, b1] * 2 ^ 16 :=
    or_byte [b0] b1 16
  have three : bigEndian [b0, b1] * 2 ^ 16 ||| b2.toNat * 2 ^ 8 = bigEndian [b0, b1, b2] * 2 ^ 8 :=
    or_byte [b0, b1] b2 8
  have four : bigEndian [b0, b1, b2] * 2 ^ 8 ||| b3.toNat = bigEndian [b0, b1, b2, b3] := by
    simpa using or_byte [b0, b1, b2] b3 0
  have first : (b0.toUInt32 <<< 24).toNat = b0.toNat * 2 ^ 24 := shifted b0 24 (by decide)
  have second : (b1.toUInt32 <<< 16).toNat = b1.toNat * 2 ^ 16 := shifted b1 16 (by decide)
  have third : (b2.toUInt32 <<< 8).toNat = b2.toNat * 2 ^ 8 := shifted b2 8 (by decide)
  rw [UInt32.toNat_or, UInt32.toNat_or, UInt32.toNat_or, first, second, third,
    UInt8.toNat_toUInt32, ← bigEndian_single b0, two, three, four]

/-- The words of a block are those of the standard. -/
theorem loadWords256_read {block : Bytes} (full : block.length = 64) {i : Nat} (inside : i < 16) :
    ((loadWords256 block).getD i default).toBitVec = blockWords 32 block i := by
  have length : i < (loadWords256 block).length := by
    rw [loadWords256, List.length_map, List.length_range]
    exact inside
  have part : (block.drop (i * 4)).take 4 = [block.getD (i * 4) 0, block.getD (i * 4 + 1) 0,
      block.getD (i * 4 + 2) 0, block.getD (i * 4 + 3) 0] := take_drop_bytes (by omega)
  rw [List.getD_eq_getElem _ _ length, blockWords]
  simp only [loadWords256, List.getElem_map, List.getElem_range]
  rw [show 32 / 8 = 4 from rfl, part, ← word256]
  exact ofNat_toNat32 _

/-- A transformation computes the compression of the standard. -/
theorem sha256Transform_read (state : Eight UInt32) {block : Bytes} (full : block.length = 64) :
    (sha256Transform state block).map UInt32.toBitVec =
      Library.Sha2.sha256.compress (state.map UInt32.toBitVec) (blockWords 32 block) :=
  reads256.transform rfl (by decide) k256_fraction (by rw [loadWords256, List.length_map,
    List.length_range]) (fun _ inside => loadWords256_read full inside) state

/-- The initial words are the roots of the standard. -/
theorem sha256Init_read (buf : Bytes) :
    (sha256Init buf).state.map UInt32.toBitVec = initial := by
  change (sha256Init []).state.map UInt32.toBitVec = initial
  simp only [initial, fraction, primes_eq]
  decide +kernel

/-! ## Runs -/

/-- The position in the buffer. -/
theorem idx256 (count : UInt64) : (count &&& 63).toNat = count.toNat % 64 := by
  rw [UInt64.toNat_and]
  exact Nat.and_two_pow_sub_one_eq_mod _ 6

/-- An update holds the message with the new data behind it. -/
theorem sha256Update_holds {start : Eight UInt32} {message : Bytes} {ctx : Sha256Ctx}
    (holds : Holds sha256Transform 64 start message ctx) (data : Bytes) :
    Holds sha256Transform 64 start (message ++ data) (sha256Update ctx data) := by
  have position : (ctx.count &&& 63).toNat = message.length % 64 := by
    rw [idx256, holds.position (by decide)]
  have below := Nat.mod_lt message.length (show 0 < 64 by decide)
  simp only [sha256Update, position]
  split
  · split
    · rename_i short
      exact holds.kept (by decide) (by omega)
    · rename_i long
      exact holds.filled (by decide) (by omega) (Nat.not_lt.mp long)
  · rename_i aligned
    exact holds.absorbed (by decide) (Decidable.of_not_not aligned)

/-- A run of updates holds its pieces joined. -/
theorem sha256_holds (buf : Bytes) (room : buf.length = 64) (pieces : List Bytes) :
    Holds sha256Transform 64 (sha256Init buf).state pieces.flatten
      (pieces.foldl sha256Update (sha256Init buf)) :=
  Holds.run sha256Update (fun holds data => sha256Update_holds holds data)
    (.fresh (by decide) room) pieces

/-! ## The digest -/

/-- The number of bits as the standard writes it. -/
theorem storeBits_eq (bits : UInt64) : storeBits bits = toBigEndian 8 bits.toNat := by
  have byte (shift : UInt64) : (bits >>> shift).toUInt8 =
      UInt8.ofNat (bits.toNat / 2 ^ (shift.toNat % 64)) := by
    rw [← Nat.shiftRight_eq_div_pow, ← UInt64.toNat_shiftRight, UInt8.ofNat_uInt64ToNat]
  simp [storeBits, toBigEndian, byte, List.range_succ, Nat.div_div_eq_div_mul]

/-- The words of the state as the standard writes them. -/
theorem storeWords256_eq (state : Eight UInt32) :
    storeWords256 state =
      (state.map UInt32.toBitVec).toList.flatMap fun word => toBigEndian 4 word.toNat := by
  have word (x : UInt32) : [(x >>> 24).toUInt8, (x >>> 16).toUInt8, (x >>> 8).toUInt8, x.toUInt8] =
      toBigEndian 4 x.toBitVec.toNat := by
    have byte (shift : UInt32) : (x >>> shift).toUInt8 =
        UInt8.ofNat (x.toNat / 2 ^ (shift.toNat % 32)) := by
      rw [← Nat.shiftRight_eq_div_pow, ← UInt32.toNat_shiftRight, UInt8.ofNat_uInt32ToNat]
    simp [toBigEndian, byte, Nat.div_div_eq_div_mul]
  rw [storeWords256]
  simp only [word]
  rfl

/-- A context that holds a message gives the digest of the standard. -/
theorem sha256Final_holds {buf message : Bytes} {ctx : Sha256Ctx}
    (holds : Holds sha256Transform 64 (sha256Init buf).state message ctx)
    (small : message.length < 2 ^ 61) :
    sha256Final ctx = Library.Sha2.sha256.digest message := by
  have bits := holds.bits small
  have field : (storeBits (ctx.count * 8)).length < 64 := by
    rw [storeBits_eq, toBigEndian_length]
    decide
  have finished := holds.finish field
  have read := @Family.hashValue_feed 32 _ Library.Sha2.sha256 _ _ _ (by decide)
    (fun state block full => sha256Transform_read state full) (sha256Init_read buf)
    (padded 32 message)
  rw [storeBits_eq, bits] at finished
  rw [sha256Final, idx256, holds.position (by decide), storeWords256_eq, storeBits_eq, bits,
    finished, Family.digest, ← read]
  rfl

/-- A digest has 32 bytes. -/
theorem sha256Final_length (ctx : Sha256Ctx) : (sha256Final ctx).length = 32 := by
  simp [sha256Final, storeWords256, Eight.toList]

/-- In pieces of any lengths the digest is that of the standard for the whole message. -/
theorem sha256_digest (buf : Bytes) (room : buf.length = 64) (pieces : List Bytes)
    (small : pieces.flatten.length < 2 ^ 61) :
    sha256Final (pieces.foldl sha256Update (sha256Init buf)) =
      Library.Sha2.sha256.digest pieces.flatten :=
  sha256Final_holds (sha256_holds buf room pieces) small

/-- Three bytes in three pieces, one of them empty. -/
theorem sha256_digest_three :
    sha256Final ([[0x61, 0x62], [], [0x63]].foldl sha256Update (sha256Init (List.replicate 64 0))) =
      Library.Sha2.sha256.digest [0x61, 0x62, 0x63] :=
  sha256_digest (List.replicate 64 0) List.length_replicate [[0x61, 0x62], [], [0x63]] (by decide)

end Cookbook.Crypto
