import Cookbook.Crypto.Words

/-!
# Field arithmetic of `cookbook_ed25519.c`

Elements of the field of order 2^255 - 19 as five limbs of fifty-one bits, which may be left
unreduced between operations. Sums and differences are taken in words of 64 bits, products in
accumulators of 128.
-/
namespace Cookbook.Crypto

open Library.Text

/-- `fe` -/
structure Fe where
  h0 : UInt64
  h1 : UInt64
  h2 : UInt64
  h3 : UInt64
  h4 : UInt64
  deriving DecidableEq, Repr

/-- `FE_MASK` -/
def feMask : UInt64 := 0x7ffffffffffff

/-- `fe_0` -/
def fe0 : Fe := ⟨0, 0, 0, 0, 0⟩

/-- `fe_1` -/
def fe1 : Fe := ⟨1, 0, 0, 0, 0⟩

/-! ## Sums and differences -/

/-- `fe_add` -/
def feAdd (f g : Fe) : Fe :=
  ⟨f.h0 + g.h0, f.h1 + g.h1, f.h2 + g.h2, f.h3 + g.h3, f.h4 + g.h4⟩

/-- One pass of carries from limb to limb, without the mask of the last. -/
def feChain (t : Fe) : Fe :=
  let t1 := t.h1 + (t.h0 >>> 51)
  let t2 := t.h2 + (t1 >>> 51)
  let t3 := t.h3 + (t2 >>> 51)
  let t4 := t.h4 + (t3 >>> 51)
  ⟨t.h0 &&& feMask, t1 &&& feMask, t2 &&& feMask, t3 &&& feMask, t4⟩

/-- The carry out of the last limb comes back to the first, times nineteen. -/
def feFold (t : Fe) : Fe :=
  let t := feChain t
  ⟨t.h0 + (t.h4 >>> 51) * 19, t.h1, t.h2, t.h3, t.h4 &&& feMask⟩

/-- `fe_sub` -/
def feSub (f g : Fe) : Fe :=
  let g := feFold g
  ⟨f.h0 + 0xfffffffffffda - g.h0, f.h1 + 0xffffffffffffe - g.h1, f.h2 + 0xffffffffffffe - g.h2,
    f.h3 + 0xffffffffffffe - g.h3, f.h4 + 0xffffffffffffe - g.h4⟩

/-- `fe_neg` -/
def feNeg (f : Fe) : Fe := feSub fe0 f

/-! ## Products -/

/-- A word as a `uint128_t`. -/
def wide (x : UInt64) : BitVec 128 := x.toBitVec.setWidth 128

/-- The conversion back, which drops the upper half. -/
def narrow (t : BitVec 128) : UInt64 := ⟨t.setWidth 64⟩

/-- The carries with which `fe_mul`, `fe_sq` and `fe_sq2` end. -/
def feReduce (t0 t1 t2 t3 t4 : BitVec 128) : Fe :=
  let t1 := t1 + (t0 >>> 51)
  let t2 := t2 + (t1 >>> 51)
  let t3 := t3 + (t2 >>> 51)
  let t4 := t4 + (t3 >>> 51)
  let h0 := (narrow t0 &&& feMask) + narrow (t4 >>> 51) * 19
  ⟨h0 &&& feMask, (narrow t1 &&& feMask) + (h0 >>> 51), narrow t2 &&& feMask, narrow t3 &&& feMask,
    narrow t4 &&& feMask⟩

/-- `fe_mul` -/
def feMul (f g : Fe) : Fe :=
  let g1_19 := 19 * g.h1
  let g2_19 := 19 * g.h2
  let g3_19 := 19 * g.h3
  let g4_19 := 19 * g.h4
  feReduce
    (wide f.h0 * wide g.h0 + wide f.h1 * wide g4_19 + wide f.h2 * wide g3_19 +
      wide f.h3 * wide g2_19 + wide f.h4 * wide g1_19)
    (wide f.h0 * wide g.h1 + wide f.h1 * wide g.h0 + wide f.h2 * wide g4_19 +
      wide f.h3 * wide g3_19 + wide f.h4 * wide g2_19)
    (wide f.h0 * wide g.h2 + wide f.h1 * wide g.h1 + wide f.h2 * wide g.h0 +
      wide f.h3 * wide g4_19 + wide f.h4 * wide g3_19)
    (wide f.h0 * wide g.h3 + wide f.h1 * wide g.h2 + wide f.h2 * wide g.h1 +
      wide f.h3 * wide g.h0 + wide f.h4 * wide g4_19)
    (wide f.h0 * wide g.h4 + wide f.h1 * wide g.h3 + wide f.h2 * wide g.h2 +
      wide f.h3 * wide g.h1 + wide f.h4 * wide g.h0)

/-- The accumulators of `fe_sq` and `fe_sq2`. -/
def feSquares (f : Fe) (finish : BitVec 128 → BitVec 128 → BitVec 128 → BitVec 128 → BitVec 128 → Fe) :
    Fe :=
  let f0_2 := 2 * f.h0
  let f1_2 := 2 * f.h1
  let f1_38 := 38 * f.h1
  let f2_38 := 38 * f.h2
  let f3_38 := 38 * f.h3
  let f4_19 := 19 * f.h4
  finish
    (wide f.h0 * wide f.h0 + wide f1_38 * wide f.h4 + wide f2_38 * wide f.h3)
    (wide f0_2 * wide f.h1 + wide f2_38 * wide f.h4 + wide (19 * f.h3) * wide f.h3)
    (wide f0_2 * wide f.h2 + wide f.h1 * wide f.h1 + wide f3_38 * wide f.h4)
    (wide f0_2 * wide f.h3 + wide f1_2 * wide f.h2 + wide f4_19 * wide f.h4)
    (wide f0_2 * wide f.h4 + wide f1_2 * wide f.h3 + wide f.h2 * wide f.h2)

/-- `fe_sq` -/
def feSq (f : Fe) : Fe := feSquares f feReduce

/-- `fe_sq2` -/
def feSq2 (f : Fe) : Fe :=
  feSquares f fun t0 t1 t2 t3 t4 => feReduce (t0 * 2) (t1 * 2) (t2 * 2) (t3 * 2) (t4 * 2)

/-! ## Selection -/

/-- One limb of `fe_cmov`. -/
def limbCmov (f g : UInt64) (b : UInt32) : UInt64 :=
  let mask := -b.toUInt64
  f ^^^ (mask &&& (f ^^^ g))

/-- `fe_cmov` -/
def feCmov (f g : Fe) (b : UInt32) : Fe :=
  ⟨limbCmov f.h0 g.h0 b, limbCmov f.h1 g.h1 b, limbCmov f.h2 g.h2 b, limbCmov f.h3 g.h3 b,
    limbCmov f.h4 g.h4 b⟩

theorem limbCmov_zero (f g : UInt64) : limbCmov f g 0 = f := by
  simp [limbCmov]

theorem limbCmov_one (f g : UInt64) : limbCmov f g 1 = g := by
  have mask : -(1 : UInt32).toUInt64 = -1 := rfl
  rw [limbCmov, mask, UInt64.neg_one_and, ← UInt64.xor_assoc, UInt64.xor_self, UInt64.zero_xor]

/-- A flag of zero keeps the element. -/
theorem feCmov_zero (f g : Fe) : feCmov f g 0 = f := by
  simp only [feCmov, limbCmov_zero]

/-- A flag of one takes the other. -/
theorem feCmov_one (f g : Fe) : feCmov f g 1 = g := by
  simp only [feCmov, limbCmov_one]

/-! ## Bytes -/

/-- `fe_frombytes` -/
def feFrombytes (s : Bytes) : Fe where
  h0 := load64 s 0 &&& feMask
  h1 := (load64 s 6 >>> 3) &&& feMask
  h2 := (load64 s 12 >>> 6) &&& feMask
  h3 := (load64 s 19 >>> 1) &&& feMask
  h4 := (load64 s 24 >>> 12) &&& feMask

/-- The canonical limbs that `fe_tobytes` computes: nineteen is added to see whether the element
exceeds the order, and taken back if it does not. -/
def feCanonical (h : Fe) : Fe :=
  let t := feFold (feFold h)
  let t := feChain { t with h0 := t.h0 + 19 }
  let c := t.h4 >>> 51
  let t := feChain ⟨t.h0 + (1 - c) * (feMask - 18), t.h1 + (1 - c) * feMask,
    t.h2 + (1 - c) * feMask, t.h3 + (1 - c) * feMask, (t.h4 &&& feMask) + (1 - c) * feMask⟩
  { t with h4 := t.h4 &&& feMask }

/-- `fe_tobytes` -/
def feTobytes (h : Fe) : Bytes :=
  let t := feCanonical h
  store64 (t.h0 ||| (t.h1 <<< 51)) ++ store64 ((t.h1 >>> 13) ||| (t.h2 <<< 38)) ++
    store64 ((t.h2 >>> 26) ||| (t.h3 <<< 25)) ++ store64 ((t.h3 >>> 39) ||| (t.h4 <<< 12))

/-- `fe_isnegative` -/
def feIsnegative (f : Fe) : UInt32 := ((feTobytes f).getD 0 0).toUInt32 &&& 1

/-- `fe_iszero` -/
def feIszero (f : Fe) : UInt32 :=
  let d := (feTobytes f).foldl (fun (d : UInt32) (byte : UInt8) => d ||| byte.toUInt32) 0
  (1 : UInt32) &&& ((d - 1) >>> 8)

/-! ## Powers -/

/-- A loop of squarings. -/
def feSquarings (n : Nat) (f : Fe) : Fe := feSq^[n] f

/-- `fe_invert` -/
def feInvert (z : Fe) : Fe :=
  let t0 := feSq z
  let t1 := feSq t0
  let t1 := feSq t1
  let t1 := feMul z t1
  let t0 := feMul t0 t1
  let t2 := feSq t0
  let t1 := feMul t1 t2
  let t2 := feSq t1
  let t2 := feSquarings 4 t2
  let t1 := feMul t2 t1
  let t2 := feSq t1
  let t2 := feSquarings 9 t2
  let t2 := feMul t2 t1
  let t3 := feSq t2
  let t3 := feSquarings 19 t3
  let t2 := feMul t3 t2
  let t2 := feSq t2
  let t2 := feSquarings 9 t2
  let t1 := feMul t2 t1
  let t2 := feSq t1
  let t2 := feSquarings 49 t2
  let t2 := feMul t2 t1
  let t3 := feSq t2
  let t3 := feSquarings 99 t3
  let t2 := feMul t3 t2
  let t2 := feSq t2
  let t2 := feSquarings 49 t2
  let t1 := feMul t2 t1
  let t1 := feSq t1
  let t1 := feSquarings 4 t1
  feMul t1 t0

/-- `fe_pow22523` -/
def fePow22523 (z : Fe) : Fe :=
  let t0 := feSq z
  let t1 := feSq t0
  let t1 := feSq t1
  let t1 := feMul z t1
  let t0 := feMul t0 t1
  let t0 := feSq t0
  let t0 := feMul t1 t0
  let t1 := feSq t0
  let t1 := feSquarings 4 t1
  let t0 := feMul t1 t0
  let t1 := feSq t0
  let t1 := feSquarings 9 t1
  let t1 := feMul t1 t0
  let t2 := feSq t1
  let t2 := feSquarings 19 t2
  let t1 := feMul t2 t1
  let t1 := feSq t1
  let t1 := feSquarings 9 t1
  let t0 := feMul t1 t0
  let t1 := feSq t0
  let t1 := feSquarings 49 t1
  let t1 := feMul t1 t0
  let t2 := feSq t1
  let t2 := feSquarings 99 t2
  let t1 := feMul t2 t1
  let t1 := feSq t1
  let t1 := feSquarings 49 t1
  let t0 := feMul t1 t0
  let t0 := feSq t0
  let t0 := feSq t0
  feMul t0 z

/-! ## Constants -/

/-- `ed_d` -/
def edD : Fe :=
  ⟨929955233495203, 466365720129213, 1662059464998953, 2033849074728123, 1442794654840575⟩

/-- `ed_d2` -/
def edD2 : Fe :=
  ⟨1859910466990425, 932731440258426, 1072319116312658, 1815898335770999, 633789495995903⟩

/-- `sqrtm1` -/
def sqrtm1 : Fe :=
  ⟨1718705420411056, 234908883556509, 2233514472574048, 2117202627021982, 765476049583133⟩

end Cookbook.Crypto
