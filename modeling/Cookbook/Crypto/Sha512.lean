import Cookbook.Crypto.Sha256

/-!
# SHA-512

The hash behind the signatures: the same loops over words of 64 bits, with an update that handles a
partly filled buffer in another order and a length field of sixteen bytes, of which eight are zero.
-/
namespace Cookbook.Crypto

open Library.Text Library.BlockHash Library.Sha2

/-! ## The transformation -/

/-- `K512` -/
def k512 : List UInt64 :=
  [
    0x428a2f98d728ae22, 0x7137449123ef65cd, 0xb5c0fbcfec4d3b2f, 0xe9b5dba58189dbbc,
    0x3956c25bf348b538, 0x59f111f1b605d019, 0x923f82a4af194f9b, 0xab1c5ed5da6d8118,
    0xd807aa98a3030242, 0x12835b0145706fbe, 0x243185be4ee4b28c, 0x550c7dc3d5ffb4e2,
    0x72be5d74f27b896f, 0x80deb1fe3b1696b1, 0x9bdc06a725c71235, 0xc19bf174cf692694,
    0xe49b69c19ef14ad2, 0xefbe4786384f25e3, 0x0fc19dc68b8cd5b5, 0x240ca1cc77ac9c65,
    0x2de92c6f592b0275, 0x4a7484aa6ea6e483, 0x5cb0a9dcbd41fbd4, 0x76f988da831153b5,
    0x983e5152ee66dfab, 0xa831c66d2db43210, 0xb00327c898fb213f, 0xbf597fc7beef0ee4,
    0xc6e00bf33da88fc2, 0xd5a79147930aa725, 0x06ca6351e003826f, 0x142929670a0e6e70,
    0x27b70a8546d22ffc, 0x2e1b21385c26c926, 0x4d2c6dfc5ac42aed, 0x53380d139d95b3df,
    0x650a73548baf63de, 0x766a0abb3c77b2a8, 0x81c2c92e47edaee6, 0x92722c851482353b,
    0xa2bfe8a14cf10364, 0xa81a664bbc423001, 0xc24b8b70d0f89791, 0xc76c51a30654be30,
    0xd192e819d6ef5218, 0xd69906245565a910, 0xf40e35855771202a, 0x106aa07032bbd1b8,
    0x19a4c116b8d2d0c8, 0x1e376c085141ab53, 0x2748774cdf8eeb99, 0x34b0bcb5e19b48a8,
    0x391c0cb3c5c95a63, 0x4ed8aa4ae3418acb, 0x5b9cca4f7763e373, 0x682e6ff3d6b2b8a3,
    0x748f82ee5defb2fc, 0x78a5636f43172f60, 0x84c87814a1f0ab72, 0x8cc702081a6439ec,
    0x90befffa23631e28, 0xa4506cebde82bde9, 0xbef9a3f7b2c67915, 0xc67178f2e372532b,
    0xca273eceea26619c, 0xd186b8c721c0c207, 0xeada7dd6cde0eb1e, 0xf57d4f7fee6ed178,
    0x06f067aa72176fba, 0x0a637dc5a2c898a6, 0x113f9804bef90dae, 0x1b710b35131c471b,
    0x28db77f523047d84, 0x32caab7b40c72493, 0x3c9ebe0a15c9bebc, 0x431d67c49c100d4c,
    0x4cc5d4becb3e42b6, 0x597f299cfc657e2a, 0x5fcb6fab3ad6faec, 0x6c44198c4a475817]

/-- `ROR64` -/
def ror64 (x n : UInt64) : UInt64 := (x >>> n) ||| (x <<< (64 - n))

/-- The macros of `cookbook_ed25519.c`. -/
def macros512 : Macros UInt64 where
  ch x y z := (x &&& y) ^^^ (~~~x &&& z)
  maj x y z := (x &&& y) ^^^ (x &&& z) ^^^ (y &&& z)
  ep0 x := ror64 x 28 ^^^ ror64 x 34 ^^^ ror64 x 39
  ep1 x := ror64 x 14 ^^^ ror64 x 18 ^^^ ror64 x 41
  sig0 x := ror64 x 1 ^^^ ror64 x 8 ^^^ (x >>> 7)
  sig1 x := ror64 x 19 ^^^ ror64 x 61 ^^^ (x >>> 6)

/-- The words of a block. -/
def loadWords512 (blk : Bytes) : List UInt64 :=
  (List.range 16).map fun i =>
    ((blk.getD (i * 8) 0).toUInt64 <<< 56) ||| ((blk.getD (i * 8 + 1) 0).toUInt64 <<< 48) |||
      ((blk.getD (i * 8 + 2) 0).toUInt64 <<< 40) ||| ((blk.getD (i * 8 + 3) 0).toUInt64 <<< 32) |||
      ((blk.getD (i * 8 + 4) 0).toUInt64 <<< 24) ||| ((blk.getD (i * 8 + 5) 0).toUInt64 <<< 16) |||
      ((blk.getD (i * 8 + 6) 0).toUInt64 <<< 8) ||| (blk.getD (i * 8 + 7) 0).toUInt64

/-- `sha512_transform` -/
def sha512Transform (state : Eight UInt64) (blk : Bytes) : Eight UInt64 :=
  transform macros512 k512 loadWords512 state blk

/-! ## Contexts -/

/-- `sha512_ctx` -/
abbrev Sha512Ctx : Type := Context (Eight UInt64)

/-- `sha512_init`, which leaves the buffer as it was. -/
def sha512Init (buf : Bytes) : Sha512Ctx where
  state := ⟨0x6a09e667f3bcc908, 0xbb67ae8584caa73b, 0x3c6ef372fe94f82b, 0xa54ff53a5f1d36f1,
    0x510e527fade682d1, 0x9b05688c2b3e6c1f, 0x1f83d9abfb41bd6b, 0x5be0cd19137e2179⟩
  count := 0
  buf := buf

/-- `sha512_update` -/
def sha512Update (ctx : Sha512Ctx) (data : Bytes) : Sha512Ctx :=
  let buffered := (ctx.count &&& 127).toNat
  let count := ctx.count + UInt64.ofNat data.length
  if buffered ≠ 0 ∧ 128 ≤ buffered + data.length then
    let fill := 128 - buffered
    let buf := write ctx.buf buffered (data.take fill)
    let rest := absorbRest sha512Transform 128 0 (sha512Transform ctx.state buf) buf (data.drop fill)
    ⟨rest.1, count, rest.2⟩
  else
    let rest := absorbRest sha512Transform 128 buffered ctx.state ctx.buf data
    ⟨rest.1, count, rest.2⟩

/-- The loop that stores the words of the state. -/
def storeWords512 (state : Eight UInt64) : Bytes :=
  state.toList.flatMap fun (word : UInt64) =>
    [(word >>> 56).toUInt8, (word >>> 48).toUInt8, (word >>> 40).toUInt8, (word >>> 32).toUInt8,
      (word >>> 24).toUInt8, (word >>> 16).toUInt8, (word >>> 8).toUInt8, word.toUInt8]

/-- `sha512_final`: the upper half of the length field is zero. -/
def sha512Final (ctx : Sha512Ctx) : Bytes :=
  storeWords512 (finish sha512Transform 128 (ctx.count &&& 127).toNat
    (List.replicate 8 0 ++ storeBits (ctx.count * 8)) ctx)

/-! ## The standard -/

/-- The macros read as the functions of the standard. -/
theorem reads512 : Reads UInt64.toBitVec macros512 Library.Sha2.sha512 where
  add _ _ := rfl
  ch _ _ _ := rfl
  maj _ _ _ := rfl
  ep0 _ := rfl
  ep1 _ := rfl
  sig0 _ := rfl
  sig1 _ := rfl

/-- The constants are the roots of the standard. -/
theorem k512_fraction : ∀ i < 80, (k512.getD i default).toBitVec = fraction 64 3 i := by
  have checked : ∀ i < 80,
      isFraction 64 3 (primes.getD i 0) (k512.getD i default).toNat = true := by
    rw [primes_eq]
    decide +kernel
  exact fun i inside => fraction_eq (by decide) _ (checked i inside)

/-- A word of the source as one of the standard. -/
theorem ofNat_toNat64 (x : UInt64) : x.toBitVec = BitVec.ofNat 64 x.toNat := by
  apply BitVec.eq_of_toNat_eq
  rw [BitVec.toNat_ofNat, Nat.mod_eq_of_lt x.toNat_lt]
  rfl

/-- Eight bytes make a word. -/
theorem word512 (b0 b1 b2 b3 b4 b5 b6 b7 : UInt8) :
    ((b0.toUInt64 <<< 56) ||| (b1.toUInt64 <<< 48) ||| (b2.toUInt64 <<< 40) |||
      (b3.toUInt64 <<< 32) ||| (b4.toUInt64 <<< 24) ||| (b5.toUInt64 <<< 16) |||
      (b6.toUInt64 <<< 8) ||| b7.toUInt64).toNat = bigEndian [b0, b1, b2, b3, b4, b5, b6, b7] := by
  have shifted (b : UInt8) (shift : UInt64) (inside : shift.toNat ≤ 56) :
      (b.toUInt64 <<< shift).toNat = b.toNat * 2 ^ shift.toNat := by
    have fits : b.toNat * 2 ^ shift.toNat < 2 ^ 64 :=
      calc b.toNat * 2 ^ shift.toNat < 2 ^ 8 * 2 ^ shift.toNat :=
            Nat.mul_lt_mul_of_pos_right b.toNat_lt (Nat.two_pow_pos _)
        _ ≤ 2 ^ 8 * 2 ^ 56 := Nat.mul_le_mul_left _ (Nat.pow_le_pow_right (by decide) inside)
    rw [UInt64.toNat_shiftLeft, Nat.shiftLeft_eq, UInt8.toNat_toUInt64,
      Nat.mod_eq_of_lt (show shift.toNat < 64 by omega), Nat.mod_eq_of_lt fits]
  have two : bigEndian [b0] * 2 ^ 56 ||| b1.toNat * 2 ^ 48 = bigEndian [b0, b1] * 2 ^ 48 :=
    or_byte [b0] b1 48
  have three : bigEndian [b0, b1] * 2 ^ 48 ||| b2.toNat * 2 ^ 40 =
      bigEndian [b0, b1, b2] * 2 ^ 40 := or_byte [b0, b1] b2 40
  have four : bigEndian [b0, b1, b2] * 2 ^ 40 ||| b3.toNat * 2 ^ 32 =
      bigEndian [b0, b1, b2, b3] * 2 ^ 32 := or_byte [b0, b1, b2] b3 32
  have five : bigEndian [b0, b1, b2, b3] * 2 ^ 32 ||| b4.toNat * 2 ^ 24 =
      bigEndian [b0, b1, b2, b3, b4] * 2 ^ 24 := or_byte [b0, b1, b2, b3] b4 24
  have six : bigEndian [b0, b1, b2, b3, b4] * 2 ^ 24 ||| b5.toNat * 2 ^ 16 =
      bigEndian [b0, b1, b2, b3, b4, b5] * 2 ^ 16 := or_byte [b0, b1, b2, b3, b4] b5 16
  have seven : bigEndian [b0, b1, b2, b3, b4, b5] * 2 ^ 16 ||| b6.toNat * 2 ^ 8 =
      bigEndian [b0, b1, b2, b3, b4, b5, b6] * 2 ^ 8 := or_byte [b0, b1, b2, b3, b4, b5] b6 8
  have eight : bigEndian [b0, b1, b2, b3, b4, b5, b6] * 2 ^ 8 ||| b7.toNat =
      bigEndian [b0, b1, b2, b3, b4, b5, b6, b7] := by
    simpa using or_byte [b0, b1, b2, b3, b4, b5, b6] b7 0
  have place (b : UInt8) : (b.toUInt64 <<< 56).toNat = b.toNat * 2 ^ 56 ∧
      (b.toUInt64 <<< 48).toNat = b.toNat * 2 ^ 48 ∧
      (b.toUInt64 <<< 40).toNat = b.toNat * 2 ^ 40 ∧
      (b.toUInt64 <<< 32).toNat = b.toNat * 2 ^ 32 ∧
      (b.toUInt64 <<< 24).toNat = b.toNat * 2 ^ 24 ∧
      (b.toUInt64 <<< 16).toNat = b.toNat * 2 ^ 16 ∧
      (b.toUInt64 <<< 8).toNat = b.toNat * 2 ^ 8 :=
    ⟨shifted b 56 (by decide), shifted b 48 (by decide), shifted b 40 (by decide),
      shifted b 32 (by decide), shifted b 24 (by decide), shifted b 16 (by decide),
      shifted b 8 (by decide)⟩
  obtain ⟨p56, -⟩ := place b0
  obtain ⟨-, p48, -⟩ := place b1
  obtain ⟨-, -, p40, -⟩ := place b2
  obtain ⟨-, -, -, p32, -⟩ := place b3
  obtain ⟨-, -, -, -, p24, -⟩ := place b4
  obtain ⟨-, -, -, -, -, p16, -⟩ := place b5
  obtain ⟨-, -, -, -, -, -, p8⟩ := place b6
  simp only [UInt64.toNat_or, p56, p48, p40, p32, p24, p16, p8, UInt8.toNat_toUInt64]
  rw [← bigEndian_single b0, two, three, four, five, six, seven, eight]

/-- The words of a block are those of the standard. -/
theorem loadWords512_read {blk : Bytes} (full : blk.length = 128) {i : Nat} (inside : i < 16) :
    ((loadWords512 blk).getD i default).toBitVec = blockWords 64 blk i := by
  have length : i < (loadWords512 blk).length := by
    rw [loadWords512, List.length_map, List.length_range]
    exact inside
  have part : (blk.drop (i * 8)).take 8 = [blk.getD (i * 8) 0, blk.getD (i * 8 + 1) 0,
      blk.getD (i * 8 + 2) 0, blk.getD (i * 8 + 3) 0, blk.getD (i * 8 + 4) 0,
      blk.getD (i * 8 + 5) 0, blk.getD (i * 8 + 6) 0, blk.getD (i * 8 + 7) 0] :=
    take_drop_bytes (by omega)
  rw [List.getD_eq_getElem _ _ length, blockWords]
  simp only [loadWords512, List.getElem_map, List.getElem_range]
  rw [show 64 / 8 = 8 from rfl, part, ← word512]
  exact ofNat_toNat64 _

/-- A transformation computes the compression of the standard. -/
theorem sha512Transform_read (state : Eight UInt64) {blk : Bytes} (full : blk.length = 128) :
    (sha512Transform state blk).map UInt64.toBitVec =
      Library.Sha2.sha512.compress (state.map UInt64.toBitVec) (blockWords 64 blk) :=
  reads512.transform rfl (by decide) k512_fraction (by rw [loadWords512, List.length_map,
    List.length_range]) (fun _ inside => loadWords512_read full inside) state

/-- The initial words are the roots of the standard. -/
theorem sha512Init_read (buf : Bytes) :
    (sha512Init buf).state.map UInt64.toBitVec = initial := by
  change (sha512Init []).state.map UInt64.toBitVec = initial
  simp only [initial, fraction, primes_eq]
  decide +kernel

/-! ## Runs -/

/-- The position in the buffer. -/
theorem buffered512 (count : UInt64) : (count &&& 127).toNat = count.toNat % 128 := by
  rw [UInt64.toNat_and]
  exact Nat.and_two_pow_sub_one_eq_mod _ 7

/-- An update holds the message with the new data behind it. -/
theorem sha512Update_holds {start : Eight UInt64} {message : Bytes} {ctx : Sha512Ctx}
    (holds : Holds sha512Transform 128 start message ctx) (data : Bytes) :
    Holds sha512Transform 128 start (message ++ data) (sha512Update ctx data) := by
  have position : (ctx.count &&& 127).toNat = message.length % 128 := by
    rw [buffered512, holds.position (by decide)]
  have below := Nat.mod_lt message.length (show 0 < 128 by decide)
  simp only [sha512Update, position]
  split
  · rename_i full
    exact holds.filled (by decide) (by omega) (by omega)
  · rename_i other
    by_cases aligned : message.length % 128 = 0
    · rw [aligned]
      exact holds.absorbed (by decide) aligned
    · exact holds.kept_rest (by decide) (by omega)

/-- A run of updates holds its pieces joined. -/
theorem sha512_holds (buf : Bytes) (room : buf.length = 128) (pieces : List Bytes) :
    Holds sha512Transform 128 (sha512Init buf).state pieces.flatten
      (pieces.foldl sha512Update (sha512Init buf)) :=
  Holds.run sha512Update (fun holds data => sha512Update_holds holds data)
    (.fresh (by decide) room) pieces

/-! ## The digest -/

/-- The words of the state as the standard writes them. -/
theorem storeWords512_eq (state : Eight UInt64) :
    storeWords512 state =
      (state.map UInt64.toBitVec).toList.flatMap fun word => toBigEndian 8 word.toNat := by
  have word (x : UInt64) : [(x >>> 56).toUInt8, (x >>> 48).toUInt8, (x >>> 40).toUInt8,
      (x >>> 32).toUInt8, (x >>> 24).toUInt8, (x >>> 16).toUInt8, (x >>> 8).toUInt8, x.toUInt8] =
      toBigEndian 8 x.toBitVec.toNat := by
    have byte (shift : UInt64) : (x >>> shift).toUInt8 =
        UInt8.ofNat (x.toNat / 2 ^ (shift.toNat % 64)) := by
      rw [← Nat.shiftRight_eq_div_pow, ← UInt64.toNat_shiftRight, UInt8.ofNat_uInt64ToNat]
    simp [toBigEndian, byte, Nat.div_div_eq_div_mul]
  rw [storeWords512]
  simp only [word]
  rfl

/-- A number of 64 bits in sixteen bytes. -/
theorem storeBits_wide (bits : UInt64) :
    List.replicate 8 0 ++ storeBits bits = toBigEndian 16 bits.toNat := by
  have upper : bits.toNat / 256 ^ 8 = 0 := Nat.div_eq_of_lt bits.toNat_lt
  rw [storeBits_eq, toBigEndian_add 8 8, upper, toBigEndian_zero]

/-- In pieces of any lengths the digest is that of the standard for the whole message. -/
theorem sha512_digest (buf : Bytes) (room : buf.length = 128) (pieces : List Bytes)
    (small : pieces.flatten.length < 2 ^ 61) :
    sha512Final (pieces.foldl sha512Update (sha512Init buf)) =
      Library.Sha2.sha512.digest pieces.flatten := by
  have holds := sha512_holds buf room pieces
  generalize pieces.foldl sha512Update (sha512Init buf) = ctx at holds
  generalize pieces.flatten = message at holds small
  have bits := holds.bits small
  have wide := storeBits_wide (ctx.count * 8)
  have field : (List.replicate 8 0 ++ storeBits (ctx.count * 8)).length < 128 := by
    rw [wide, toBigEndian_length]
    decide
  have finished := holds.finish field
  have read := @Family.hashValue_feed 64 _ Library.Sha2.sha512 _ _ _ (by decide)
    (fun state blk full => sha512Transform_read state full) (sha512Init_read buf)
    (padded 64 message)
  rw [wide, bits] at finished
  rw [sha512Final, buffered512, holds.position (by decide), storeWords512_eq, wide, bits,
    finished, Family.digest, ← read]
  rfl

/-- Three bytes in three pieces, one of them empty. -/
theorem sha512_digest_three :
    sha512Final ([[0x61, 0x62], [], [0x63]].foldl sha512Update (sha512Init (List.replicate 128 0))) =
      Library.Sha2.sha512.digest [0x61, 0x62, 0x63] :=
  sha512_digest (List.replicate 128 0) List.length_replicate [[0x61, 0x62], [], [0x63]] (by decide)

end Cookbook.Crypto
