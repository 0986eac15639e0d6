import Cookbook.Crypto.FieldValues
import Cookbook.Crypto.Recoding
import Cookbook.Library.Calls

/-!
# Group operations of `cookbook_ed25519.c`

Points of the curve in four forms, and the operations between them. Sums and differences are not
reduced before they reach a product, so every operation records the calls it makes to the field
arithmetic, with the elements that reach them.
-/
namespace Cookbook.Crypto

open Library.Text Library.Calls

/-! ## Calls of the field arithmetic -/

/-- A call with its operands. -/
inductive FeCall
  /-- `fe_add` -/
  | add (f g : Fe)
  /-- `fe_sub` -/
  | sub (f g : Fe)
  /-- `fe_mul` -/
  | mul (f g : Fe)
  /-- `fe_sq` -/
  | sq (f : Fe)
  /-- `fe_sq2` -/
  | sq2 (f : Fe)

/-- A computation that records its calls. -/
abbrev FeRun (α : Type) : Type := Traced FeCall α

namespace FeRun

/-- `fe_add` -/
def add (f g : Fe) : FeRun Fe := .call (.add f g) (feAdd f g)
/-- `fe_sub` -/
def sub (f g : Fe) : FeRun Fe := .call (.sub f g) (feSub f g)
/-- `fe_mul` -/
def mul (f g : Fe) : FeRun Fe := .call (.mul f g) (feMul f g)
/-- `fe_sq` -/
def sq (f : Fe) : FeRun Fe := .call (.sq f) (feSq f)
/-- `fe_sq2` -/
def sq2 (f : Fe) : FeRun Fe := .call (.sq2 f) (feSq2 f)
/-- `fe_neg` -/
def neg (f : Fe) : FeRun Fe := sub fe0 f

/-- A loop of squarings. -/
def squarings : Nat → Fe → FeRun Fe
  | 0, f => pure f
  | n + 1, f => do squarings n (← sq f)

/-- `fe_invert` -/
def invert (z : Fe) : FeRun Fe := do
  let t0 ← sq z
  let t1 ← sq t0
  let t1 ← sq t1
  let t1 ← mul z t1
  let t0 ← mul t0 t1
  let t2 ← sq t0
  let t1 ← mul t1 t2
  let t2 ← sq t1
  let t2 ← squarings 4 t2
  let t1 ← mul t2 t1
  let t2 ← sq t1
  let t2 ← squarings 9 t2
  let t2 ← mul t2 t1
  let t3 ← sq t2
  let t3 ← squarings 19 t3
  let t2 ← mul t3 t2
  let t2 ← sq t2
  let t2 ← squarings 9 t2
  let t1 ← mul t2 t1
  let t2 ← sq t1
  let t2 ← squarings 49 t2
  let t2 ← mul t2 t1
  let t3 ← sq t2
  let t3 ← squarings 99 t3
  let t2 ← mul t3 t2
  let t2 ← sq t2
  let t2 ← squarings 49 t2
  let t1 ← mul t2 t1
  let t1 ← sq t1
  let t1 ← squarings 4 t1
  mul t1 t0

/-- `fe_pow22523` -/
def pow22523 (z : Fe) : FeRun Fe := do
  let t0 ← sq z
  let t1 ← sq t0
  let t1 ← sq t1
  let t1 ← mul z t1
  let t0 ← mul t0 t1
  let t0 ← sq t0
  let t0 ← mul t1 t0
  let t1 ← sq t0
  let t1 ← squarings 4 t1
  let t0 ← mul t1 t0
  let t1 ← sq t0
  let t1 ← squarings 9 t1
  let t1 ← mul t1 t0
  let t2 ← sq t1
  let t2 ← squarings 19 t2
  let t1 ← mul t2 t1
  let t1 ← sq t1
  let t1 ← squarings 9 t1
  let t0 ← mul t1 t0
  let t1 ← sq t0
  let t1 ← squarings 49 t1
  let t1 ← mul t1 t0
  let t2 ← sq t1
  let t2 ← squarings 99 t2
  let t1 ← mul t2 t1
  let t1 ← sq t1
  let t1 ← squarings 49 t1
  let t0 ← mul t1 t0
  let t0 ← sq t0
  let t0 ← sq t0
  mul t0 z

/-- Recording the calls changes no result. -/
theorem squarings_value (n : Nat) (f : Fe) : (squarings n f).value = feSquarings n f := by
  induction n generalizing f with
  | zero => rfl
  | succ n ih => exact ih (feSq f)

end FeRun

/-! ## Points -/

/-- `ge_p2` -/
structure GeP2 where
  x : Fe
  y : Fe
  z : Fe

/-- `ge_p3` -/
structure GeP3 where
  x : Fe
  y : Fe
  z : Fe
  t : Fe

/-- `ge_p1p1` -/
structure GeP1p1 where
  x : Fe
  y : Fe
  z : Fe
  t : Fe

/-- `ge_cached` -/
structure GeCached where
  yPlusX : Fe
  yMinusX : Fe
  z : Fe
  t2d : Fe

/-- `ge_p2_0` -/
def geP20 : GeP2 := ⟨fe0, fe1, fe1⟩

/-- `ge_p3_0` -/
def geP30 : GeP3 := ⟨fe0, fe1, fe1, fe0⟩

open FeRun

/-- `ge_p1p1_to_p2` -/
def geP1p1ToP2 (p : GeP1p1) : FeRun GeP2 := do
  let x ← mul p.x p.t
  let y ← mul p.y p.z
  let z ← mul p.z p.t
  return ⟨x, y, z⟩

/-- `ge_p1p1_to_p3` -/
def geP1p1ToP3 (p : GeP1p1) : FeRun GeP3 := do
  let x ← mul p.x p.t
  let y ← mul p.y p.z
  let z ← mul p.z p.t
  let t ← mul p.x p.y
  return ⟨x, y, z, t⟩

/-- `ge_p3_to_p2` -/
def geP3ToP2 (p : GeP3) : GeP2 := ⟨p.x, p.y, p.z⟩

/-- `ge_p3_to_cached` -/
def geP3ToCached (p : GeP3) : FeRun GeCached := do
  let yPlusX ← add p.y p.x
  let yMinusX ← sub p.y p.x
  let t2d ← mul p.t edD2
  return ⟨yPlusX, yMinusX, p.z, t2d⟩

/-- `ge_p2_dbl` -/
def geP2Dbl (p : GeP2) : FeRun GeP1p1 := do
  let x ← sq p.x
  let z ← sq p.y
  let t ← sq2 p.z
  let y ← add p.x p.y
  let t0 ← sq y
  let y ← add z x
  let z ← sub z x
  let x ← sub t0 y
  let t ← sub t z
  return ⟨x, y, z, t⟩

/-- `ge_p3_dbl` -/
def geP3Dbl (p : GeP3) : FeRun GeP1p1 := geP2Dbl (geP3ToP2 p)

/-- `ge_madd` -/
def geMadd (p : GeP3) (q : GePrecomp) : FeRun GeP1p1 := do
  let x ← add p.y p.x
  let y ← sub p.y p.x
  let z ← mul x q.yplusx
  let y ← mul y q.yminusx
  let t ← mul q.xy2d p.t
  let t0 ← add p.z p.z
  let x ← sub z y
  let y ← add z y
  let z ← add t0 t
  let t ← sub t0 t
  return ⟨x, y, z, t⟩

/-- `ge_msub` -/
def geMsub (p : GeP3) (q : GePrecomp) : FeRun GeP1p1 := do
  let x ← add p.y p.x
  let y ← sub p.y p.x
  let z ← mul x q.yminusx
  let y ← mul y q.yplusx
  let t ← mul q.xy2d p.t
  let t0 ← add p.z p.z
  let x ← sub z y
  let y ← add z y
  let z ← sub t0 t
  let t ← add t0 t
  return ⟨x, y, z, t⟩

/-- `ge_add_cached` -/
def geAddCached (p : GeP3) (q : GeCached) : FeRun GeP1p1 := do
  let x ← add p.y p.x
  let y ← sub p.y p.x
  let z ← mul x q.yPlusX
  let y ← mul y q.yMinusX
  let t ← mul q.t2d p.t
  let x ← mul p.z q.z
  let t0 ← add x x
  let x ← sub z y
  let y ← add z y
  let z ← add t0 t
  let t ← sub t0 t
  return ⟨x, y, z, t⟩

/-- `ge_sub_cached` -/
def geSubCached (p : GeP3) (q : GeCached) : FeRun GeP1p1 := do
  let x ← add p.y p.x
  let y ← sub p.y p.x
  let z ← mul x q.yMinusX
  let y ← mul y q.yPlusX
  let t ← mul q.t2d p.t
  let x ← mul p.z q.z
  let t0 ← add x x
  let x ← sub z y
  let y ← add z y
  let z ← sub t0 t
  let t ← add t0 t
  return ⟨x, y, z, t⟩

/-- The encoding of a point in projective coordinates. -/
def encodePoint (x y z : Fe) : FeRun Bytes := do
  let recip ← invert z
  let x ← mul x recip
  let y ← mul y recip
  let s := feTobytes y
  return s.set 31 (s.getD 31 0 ^^^ (feIsnegative x <<< 7).toUInt8)

/-- `ge_tobytes` -/
def geTobytes (h : GeP2) : FeRun Bytes := encodePoint h.x h.y h.z

/-- `ge_p3_tobytes` -/
def geP3Tobytes (h : GeP3) : FeRun Bytes := encodePoint h.x h.y h.z

/-- The sign of a decoded coordinate: the opposite of the encoded one. -/
def oppositeSign (s : Bytes) (x : Fe) : FeRun Fe :=
  if feIsnegative x = (s.getD 31 0 >>> 7).toUInt32 then neg x else pure x

/-- The end of `ge_frombytes_negate_vartime`. -/
def finishDecoding (s : Bytes) (x y z : Fe) : FeRun (Option GeP3) := do
  let x ← oppositeSign s x
  let t ← mul x y
  return some ⟨x, y, z, t⟩

/-- `ge_frombytes_negate_vartime`, none where it returns a negative number. -/
def geFrombytesNegateVartime (s : Bytes) : FeRun (Option GeP3) := do
  let y := feFrombytes s
  let z := fe1
  let u ← sq y
  let v ← mul u edD
  let u ← sub u z
  let v ← add v z
  let v3 ← sq v
  let v3 ← mul v3 v
  let x ← sq v3
  let x ← mul x v
  let x ← mul x u
  let x ← pow22523 x
  let x ← mul x v3
  let x ← mul x u
  let vxx ← sq x
  let vxx ← mul vxx v
  let mRootCheck ← sub vxx u
  if feIszero mRootCheck = 0 then
    let pRootCheck ← add vxx u
    if feIszero pRootCheck = 0 then
      return none
    else
      let x ← mul x sqrtm1
      finishDecoding s x y z
  else finishDecoding s x y z

/-- The negative of an entry, as `ge_cmov8` computes it. -/
def negateEntry (t : GePrecomp) : FeRun GePrecomp := do
  let xy2d ← neg t.xy2d
  return ⟨t.yminusx, t.yplusx, xy2d⟩

end Cookbook.Crypto
