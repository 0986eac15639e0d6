import Cookbook.Crypto.FieldValues

/-!
# Field elements in bytes

`fe_tobytes` writes the residue of an element in 32 bytes. Two passes of carries bring it below 2^255;
nineteen is added to see whether it reaches the order, and taken back if it does not.
-/
namespace Cookbook.Crypto

open Library.Text Library.Digits

/-! ## Reduction -/

/-- The carry out of the last limb counts how often 2^255 goes into the number. -/
theorem topCarry_eq {f : Fe} (small : f.AtMost (2 ^ 63)) : topCarry f = f.value / 2 ^ 255 := by
  obtain ⟨value, b0, b1, b2, b3, -⟩ := feChain_spec small
  rw [← value, topCarry, Fe.value]
  omega

/-- All limbs below 2^51. -/
def Fe.Reduced (f : Fe) : Prop := f.AtMost (2 ^ 51 - 1)

/-- Two folds leave reduced limbs. -/
theorem feFold_twice {f : Fe} (small : f.AtMost productBound) :
    (feFold (feFold f)).Reduced ∧ (feFold (feFold f)).value ≡ f.value [MOD order] := by
  obtain ⟨value, b0, b1, b2, b3, b4⟩ := feFold_spec (small.mono (by decide))
  have carried : topCarry f ≤ 8 := by
    have chained := (feChain_spec (small.mono (by decide))).2.2.2.2.2
    have limb := small.h4
    simp only [productBound] at limb
    rw [topCarry]
    omega
  have once : (feFold f).AtMost (2 ^ 63) := ⟨by omega, by omega, by omega, by omega, by omega⟩
  obtain ⟨value', d0, d1, d2, d3, d4⟩ := feFold_spec once
  refine ⟨⟨?_, by omega, by omega, by omega, by omega⟩, ?_⟩
  · -- A second carry leaves less than the first one brought.
    have top := topCarry_eq once
    have whole : (feFold (feFold f)).h0.toNat ≤ (feFold (feFold f)).value := by
      simp only [Fe.value]
      omega
    have bound : (feFold f).value < 2 ^ 255 + 19 * 8 := by
      simp only [Fe.value]
      omega
    simp only [order] at value'
    omega
  · rw [← value, ← value']
    refine (Nat.modEq_add_modulus_mul_iff.mpr ?_)
    exact (Nat.modEq_add_modulus_mul_iff.mpr rfl)

/-- A pass of carries behind which the last limb is masked too leaves the number modulo 2^255. -/
theorem feChain_masked {f : Fe} (small : f.AtMost (2 ^ 63)) :
    ({ feChain f with h4 := (feChain f).h4 &&& feMask } : Fe).Reduced ∧
      ({ feChain f with h4 := (feChain f).h4 &&& feMask } : Fe).value = f.value % 2 ^ 255 := by
  obtain ⟨value, b0, b1, b2, b3, -⟩ := feChain_spec small
  rw [← value]
  constructor
  · constructor
    all_goals simp only [mask_toNat]
    all_goals omega
  · simp only [Fe.value, mask_toNat]
    omega

/-- The order added to limbs, unless a flag is set. -/
def feRestore (t : Fe) (c : UInt64) : Fe :=
  ⟨t.h0 + (1 - c) * (feMask - 18), t.h1 + (1 - c) * feMask, t.h2 + (1 - c) * feMask,
    t.h3 + (1 - c) * feMask, (t.h4 &&& feMask) + (1 - c) * feMask⟩

/-- A set flag leaves the limbs. -/
theorem feRestore_one (t : Fe) : feRestore t 1 = { t with h4 := t.h4 &&& feMask } := by
  simp [feRestore]

/-- Without a flag the order is added. -/
theorem feRestore_zero {t : Fe}
    (small : ({ t with h4 := t.h4 &&& feMask } : Fe).Reduced) :
    (feRestore t 0).AtMost (2 ^ 63) ∧
      (feRestore t 0).value = ({ t with h4 := t.h4 &&& feMask } : Fe).value + order := by
  obtain ⟨b0, b1, b2, b3, b4⟩ := small
  simp only at b0 b1 b2 b3 b4
  have low : ((1 - 0) * (feMask - 18)).toNat = 2 ^ 51 - 19 := rfl
  have other : ((1 - 0) * feMask).toNat = 2 ^ 51 - 1 := rfl
  have s0 : (t.h0 + (1 - 0) * (feMask - 18)).toNat = t.h0.toNat + (2 ^ 51 - 19) := by
    rw [add_toNat, low]
    rw [low]
    omega
  have limb {x : UInt64} (bound : x.toNat ≤ 2 ^ 51 - 1) :
      (x + (1 - 0) * feMask).toNat = x.toNat + (2 ^ 51 - 1) := by
    rw [add_toNat, other]
    rw [other]
    omega
  have s1 := limb b1
  have s2 := limb b2
  have s3 := limb b3
  have s4 := limb b4
  constructor
  · constructor
    all_goals simp only [feRestore, s0, s1, s2, s3, s4]
    all_goals omega
  · simp only [feRestore, Fe.value, order, s0, s1, s2, s3, s4]
    omega

/-- The correction of a number below 2^255 leaves its residue. -/
theorem feCorrect_spec {t : Fe} (reduced : t.Reduced) :
    let u := feChain { t with h0 := t.h0 + 19 }
    let v := feChain (feRestore u (u.h4 >>> 51))
    ({ v with h4 := v.h4 &&& feMask } : Fe).Reduced ∧
      ({ v with h4 := v.h4 &&& feMask } : Fe).value = t.value % order := by
  intro u v
  obtain ⟨b0, b1, b2, b3, b4⟩ := reduced
  have first : (t.h0 + 19).toNat = t.h0.toNat + 19 := add_toNat (show _ + 19 < _ by omega)
  have room : ({ t with h0 := t.h0 + 19 } : Fe).AtMost (2 ^ 63) := by
    constructor
    all_goals simp only [first]
    all_goals omega
  have sum : ({ t with h0 := t.h0 + 19 } : Fe).value = t.value + 19 := by
    simp only [Fe.value, first]
    omega
  have below : t.value < 2 ^ 255 := by
    simp only [Fe.value]
    omega
  obtain ⟨small, rest⟩ := feChain_masked room
  have carry : (u.h4 >>> 51).toNat = (t.value + 19) / 2 ^ 255 := by
    rw [carry_toNat, ← sum, ← topCarry_eq room]
    rfl
  rw [sum] at rest
  rcases Nat.lt_or_ge t.value order with less | reaches
  · -- The order was not reached: nineteen goes back to zero modulo 2^255.
    have none : u.h4 >>> 51 = 0 := UInt64.toNat_inj.mp (by
      rw [carry]
      simp only [order] at less
      exact Nat.div_eq_of_lt (by omega))
    obtain ⟨fits, value⟩ := feRestore_zero small
    obtain ⟨done, final⟩ := feChain_masked fits
    simp only [v, none]
    refine ⟨done, ?_⟩
    rw [final, value, rest, Nat.mod_eq_of_lt less]
    simp only [order] at less ⊢
    omega
  · have one : u.h4 >>> 51 = 1 := UInt64.toNat_inj.mp (by
      rw [carry]
      simp only [order] at reaches
      change _ = 1
      omega)
    simp only [v, one, feRestore_one]
    obtain ⟨done, final⟩ := feChain_masked (small.mono (by decide))
    refine ⟨done, ?_⟩
    rw [final, rest]
    simp only [order] at reaches ⊢
    omega

/-- The limbs that `fe_tobytes` writes are the residue's. -/
theorem feCanonical_spec {f : Fe} (small : f.AtMost productBound) :
    (feCanonical f).Reduced ∧ (feCanonical f).value = f.value % order := by
  obtain ⟨reduced, residue⟩ := feFold_twice small
  rw [← residue]
  exact feCorrect_spec reduced

/-! ## Writing and reading -/

/-- A word from the upper part of one limb and the lower part of the next. -/
theorem packed_toNat {low x : UInt64} {shift : Nat} (inside : shift < 64)
    (small : low.toNat < 2 ^ shift) :
    (low ||| (x <<< UInt64.ofNat shift)).toNat =
      low.toNat + 2 ^ shift * (x.toNat % 2 ^ (64 - shift)) := by
  have place : (UInt64.ofNat shift).toNat = shift := by
    rw [UInt64.toNat_ofNat', Nat.mod_eq_of_lt (by omega)]
  have shifted : (x <<< UInt64.ofNat shift).toNat = 2 ^ shift * (x.toNat % 2 ^ (64 - shift)) := by
    rw [UInt64.toNat_shiftLeft, place, Nat.mod_eq_of_lt inside, Nat.shiftLeft_eq, Nat.mul_comm,
      ← Nat.mul_mod_mul_left, ← pow_add, Nat.add_sub_cancel' inside.le]
  rw [UInt64.toNat_or, shifted, Nat.or_comm, ← Nat.two_pow_add_eq_or_of_lt small, Nat.add_comm]

/-- The upper part of a limb. -/
theorem upper_toNat (x : UInt64) {shift : Nat} (inside : shift < 64) :
    (x >>> UInt64.ofNat shift).toNat = x.toNat / 2 ^ shift := by
  have place : (UInt64.ofNat shift).toNat = shift := by
    rw [UInt64.toNat_ofNat', Nat.mod_eq_of_lt (by omega)]
  rw [UInt64.toNat_shiftRight, place, Nat.mod_eq_of_lt inside, Nat.shiftRight_eq_div_pow]

/-- `fe_tobytes` writes 32 bytes. -/
theorem feTobytes_length (f : Fe) : (feTobytes f).length = 32 := by
  simp only [feTobytes, List.length_append, store64_length]

/-- They are the residue in little-endian order. -/
theorem feTobytes_littleEndian {f : Fe} (small : f.AtMost productBound) :
    littleEndian (feTobytes f) = f.value % order := by
  obtain ⟨⟨b0, b1, b2, b3, b4⟩, value⟩ := feCanonical_spec small
  rw [← value]
  simp only [feTobytes]
  generalize feCanonical f = t at b0 b1 b2 b3 b4 ⊢
  have u1 : (t.h1 >>> 13).toNat = t.h1.toNat / 2 ^ 13 := upper_toNat t.h1 (by decide)
  have u2 : (t.h2 >>> 26).toNat = t.h2.toNat / 2 ^ 26 := upper_toNat t.h2 (by decide)
  have u3 : (t.h3 >>> 39).toNat = t.h3.toNat / 2 ^ 39 := upper_toNat t.h3 (by decide)
  have r0 : (t.h0 ||| (t.h1 <<< 51)).toNat = t.h0.toNat + 2 ^ 51 * (t.h1.toNat % 2 ^ 13) :=
    @packed_toNat _ _ 51 (by decide) (by omega)
  have r1 : ((t.h1 >>> 13) ||| (t.h2 <<< 38)).toNat =
      t.h1.toNat / 2 ^ 13 + 2 ^ 38 * (t.h2.toNat % 2 ^ 26) := by
    rw [← u1]
    exact @packed_toNat _ _ 38 (by decide) (by omega)
  have r2 : ((t.h2 >>> 26) ||| (t.h3 <<< 25)).toNat =
      t.h2.toNat / 2 ^ 26 + 2 ^ 25 * (t.h3.toNat % 2 ^ 39) := by
    rw [← u2]
    exact @packed_toNat _ _ 25 (by decide) (by omega)
  have r3 : ((t.h3 >>> 39) ||| (t.h4 <<< 12)).toNat =
      t.h3.toNat / 2 ^ 39 + 2 ^ 12 * (t.h4.toNat % 2 ^ 52) := by
    rw [← u3]
    exact @packed_toNat _ _ 12 (by decide) (by omega)
  simp only [littleEndian_append, store64_littleEndian, List.length_append, store64_length, r0, r1,
    r2, r3, Fe.value]
  omega

/-- `fe_frombytes` reads a number modulo 2^255 into reduced limbs. -/
theorem feFrombytes_spec (s : Bytes) :
    (feFrombytes s).Reduced ∧ (feFrombytes s).value = littleEndian s % 2 ^ 255 := by
  have word (offset : Nat) :
      (load64 s offset).toNat = littleEndian s / 256 ^ offset % 256 ^ 8 :=
    loadBytes_toNat (by decide) s offset
  have s1 : (load64 s 6 >>> 3).toNat = (load64 s 6).toNat / 2 ^ 3 := upper_toNat _ (by decide)
  have s2 : (load64 s 12 >>> 6).toNat = (load64 s 12).toNat / 2 ^ 6 := upper_toNat _ (by decide)
  have s3 : (load64 s 19 >>> 1).toNat = (load64 s 19).toNat / 2 ^ 1 := upper_toNat _ (by decide)
  have s4 : (load64 s 24 >>> 12).toNat = (load64 s 24).toNat / 2 ^ 12 := upper_toNat _ (by decide)
  constructor
  · constructor
    all_goals simp only [feFrombytes, mask_toNat]
    all_goals omega
  · simp only [feFrombytes, Fe.value, mask_toNat, s1, s2, s3, s4, word]
    omega

/-! ## Zero and parity -/

/-- The bits that occur in some byte. -/
theorem orBytes_eq (bytes : Bytes) (start : UInt8) :
    bytes.foldl (fun (d : UInt32) (byte : UInt8) => d ||| byte.toUInt32) start.toUInt32 =
      (bytes.foldl (· ||| ·) start).toUInt32 := by
  induction bytes generalizing start with
  | nil => rfl
  | cons byte bytes ih =>
    rw [List.foldl_cons, List.foldl_cons, ← UInt8.toUInt32_or]
    exact ih (start ||| byte)

/-- No bit occurs exactly if every byte is zero. -/
theorem orBytes_eq_zero_iff (bytes : Bytes) (start : UInt8) :
    bytes.foldl (· ||| ·) start = 0 ↔ start = 0 ∧ littleEndian bytes = 0 := by
  induction bytes generalizing start with
  | nil => simp
  | cons byte bytes ih =>
    have zero : byte.toNat = 0 ↔ byte = 0 := by
      rw [← UInt8.toNat_inj]
      rfl
    rw [List.foldl_cons, ih, UInt8.or_eq_zero_iff, littleEndian_cons, Nat.add_eq_zero_iff, zero,
      and_assoc]
    simp

/-- The flag that is taken from the bits. -/
theorem zeroFlag : ∀ d : UInt8,
    (1 : UInt32) &&& ((d.toUInt32 - 1) >>> 8) = if d = 0 then 1 else 0 :=
  byte_forall (by decide +kernel)

/-- What the encoding of an element is, and what is read off it. -/
structure Encodes (f : Fe) : Prop where
  /-- 32 bytes. -/
  length : (feTobytes f).length = 32
  /-- The residue, in little-endian order. -/
  residue : littleEndian (feTobytes f) = f.value % order
  /-- No other 32 bytes are. -/
  unique : ∀ bytes : Bytes, bytes.length = 32 → littleEndian bytes = f.value % order →
    bytes = feTobytes f
  /-- Reading them gives the element back, modulo the order. -/
  readBack : (feFrombytes (feTobytes f)).value ≡ f.value [MOD order]
  /-- Zero is decided. -/
  zero : feIszero f = if order ∣ f.value then 1 else 0
  /-- The parity of the residue is decided. -/
  parity : feIsnegative f = UInt32.ofNat (f.value % order % 2)

/-- Every element with limbs below 2^54 is encoded. -/
theorem fieldBytes_encodes {f : Fe} (small : f.AtMost productBound) : Encodes f := by
  have length := feTobytes_length f
  have residue := feTobytes_littleEndian small
  constructor
  case length => exact length
  case residue => exact residue
  case unique =>
    intro bytes width value
    exact littleEndian_injective (width.trans length.symm) (value.trans residue.symm)
  case readBack =>
    have below : f.value % order < 2 ^ 255 :=
      (Nat.mod_lt _ (by decide)).trans_le (Nat.sub_le _ _)
    rw [(feFrombytes_spec _).2, residue, Nat.mod_eq_of_lt below]
    exact Nat.mod_modEq _ _
  case zero =>
    have start := orBytes_eq (feTobytes f) 0
    have none := orBytes_eq_zero_iff (feTobytes f) 0
    rw [feIszero]
    change (1 : UInt32) &&& (((feTobytes f).foldl _ (0 : UInt8).toUInt32 - 1) >>> 8) = _
    rw [start, zeroFlag]
    refine if_congr ?_ rfl rfl
    rw [none, residue, Nat.dvd_iff_mod_eq_zero]
    exact ⟨fun holds => holds.2, fun holds => ⟨rfl, holds⟩⟩
  case parity =>
    have first := littleEndian_byte (feTobytes f) 0
    rw [residue, pow_zero, Nat.div_one] at first
    apply UInt32.toNat_inj.mp
    rw [feIsnegative, UInt32.toNat_and, UInt8.toNat_toUInt32, first, UInt32.toNat_ofNat']
    change f.value % order % 256 &&& 1 = _
    rw [Nat.and_one_is_mod]
    omega

/-- The order itself is encoded, as zero. -/
theorem fieldBytes_encodes_order :
    Encodes ⟨feMask - 18, feMask, feMask, feMask, feMask⟩ :=
  fieldBytes_encodes ⟨by decide, by decide, by decide, by decide, by decide⟩

end Cookbook.Crypto
