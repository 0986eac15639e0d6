import Cookbook.Crypto.BaseTable
import Cookbook.Crypto.FieldBytes
import Cookbook.Crypto.Group

/-!
# Limb bounds through the group operations

One bound holds for every element that reaches the field arithmetic in any sequence of group
operations, and below it no sum, no product and no difference leaves its word.
-/
namespace Cookbook.Crypto

open Library.Text Library.Calls FeRun

/-! ## What a call must meet -/

/-- The elements that reach a call. -/
def FeCall.operands : FeCall → List Fe
  | .add f g | .sub f g | .mul f g => [f, g]
  | .sq f | .sq2 f => [f]

/-- No sum of limbs overflows. -/
structure AddExact (f g : Fe) : Prop where
  h0 : f.h0.toNat + g.h0.toNat < 2 ^ 64
  h1 : f.h1.toNat + g.h1.toNat < 2 ^ 64
  h2 : f.h2.toNat + g.h2.toNat < 2 ^ 64
  h3 : f.h3.toNat + g.h3.toNat < 2 ^ 64
  h4 : f.h4.toNat + g.h4.toNat < 2 ^ 64

/-- No sum overflows while the subtrahend is folded and the bias is added, and no difference wraps. -/
structure SubExact (f g : Fe) : Prop where
  carry1 : g.h1.toNat + g.h0.toNat / 2 ^ 51 < 2 ^ 64
  carry2 : g.h2.toNat + (g.h1.toNat + g.h0.toNat / 2 ^ 51) / 2 ^ 51 < 2 ^ 64
  carry3 : g.h3.toNat + (g.h2.toNat + (g.h1.toNat + g.h0.toNat / 2 ^ 51) / 2 ^ 51) / 2 ^ 51 < 2 ^ 64
  carry4 : g.h4.toNat + (g.h3.toNat + (g.h2.toNat + (g.h1.toNat + g.h0.toNat / 2 ^ 51) / 2 ^ 51) /
    2 ^ 51) / 2 ^ 51 < 2 ^ 64
  carry0 : (feChain g).h0.toNat + topCarry g * 19 < 2 ^ 64
  bias0 : f.h0.toNat + 0xfffffffffffda < 2 ^ 64
  bias1 : f.h1.toNat + 0xffffffffffffe < 2 ^ 64
  bias2 : f.h2.toNat + 0xffffffffffffe < 2 ^ 64
  bias3 : f.h3.toNat + 0xffffffffffffe < 2 ^ 64
  bias4 : f.h4.toNat + 0xffffffffffffe < 2 ^ 64
  ordered0 : (feFold g).h0.toNat ≤ f.h0.toNat + 0xfffffffffffda
  ordered1 : (feFold g).h1.toNat ≤ f.h1.toNat + 0xffffffffffffe
  ordered2 : (feFold g).h2.toNat ≤ f.h2.toNat + 0xffffffffffffe
  ordered3 : (feFold g).h3.toNat ≤ f.h3.toNat + 0xffffffffffffe
  ordered4 : (feFold g).h4.toNat ≤ f.h4.toNat + 0xffffffffffffe

/-- No scaled limb and no accumulator overflows in a product. -/
structure MulExact (f g : Fe) : Prop where
  scaled1 : 19 * g.h1.toNat < 2 ^ 64
  scaled2 : 19 * g.h2.toNat < 2 ^ 64
  scaled3 : 19 * g.h3.toNat < 2 ^ 64
  scaled4 : 19 * g.h4.toNat < 2 ^ 64
  sums : (mulSums f g).Fit

/-- The sums of products of `fe_sq`. -/
def squareSums (f : Fe) : Sums where
  t0 := f.h0.toNat * f.h0.toNat + 38 * f.h1.toNat * f.h4.toNat + 38 * f.h2.toNat * f.h3.toNat
  t1 := 2 * f.h0.toNat * f.h1.toNat + 38 * f.h2.toNat * f.h4.toNat +
    19 * f.h3.toNat * f.h3.toNat
  t2 := 2 * f.h0.toNat * f.h2.toNat + f.h1.toNat * f.h1.toNat + 38 * f.h3.toNat * f.h4.toNat
  t3 := 2 * f.h0.toNat * f.h3.toNat + 2 * f.h1.toNat * f.h2.toNat +
    19 * f.h4.toNat * f.h4.toNat
  t4 := 2 * f.h0.toNat * f.h4.toNat + 2 * f.h1.toNat * f.h3.toNat + f.h2.toNat * f.h2.toNat

/-- They are those of the product with itself. -/
theorem squareSums_eq (f : Fe) : squareSums f = mulSums f f := by
  simp only [squareSums, mulSums, Sums.mk.injEq]
  refine ⟨?_, ?_, ?_, ?_, ?_⟩
  all_goals ring

/-- No scaled limb of a square overflows. -/
structure SquareExact (f : Fe) : Prop where
  scaled0 : 2 * f.h0.toNat < 2 ^ 64
  scaled1 : 38 * f.h1.toNat < 2 ^ 64
  scaled2 : 38 * f.h2.toNat < 2 ^ 64
  scaled3 : 38 * f.h3.toNat < 2 ^ 64
  scaled4 : 19 * f.h4.toNat < 2 ^ 64

/-- Nothing overflows or wraps in a call. -/
def FeCall.Exact : FeCall → Prop
  | .add f g => AddExact f g
  | .sub f g => SubExact f g
  | .mul f g => MulExact f g
  | .sq f => SquareExact f ∧ (squareSums f).Fit
  | .sq2 f => SquareExact f ∧ (squareSums f).doubled.Fit

/-- The result of a call is the mathematical one modulo the order. -/
def FeCall.Congruent : FeCall → Prop
  | .add f g => (feAdd f g).value ≡ f.value + g.value [MOD order]
  | .sub f g => (feSub f g).value + g.value ≡ f.value [MOD order]
  | .mul f g => (feMul f g).value ≡ f.value * g.value [MOD order]
  | .sq f => (feSq f).value ≡ f.value ^ 2 [MOD order]
  | .sq2 f => (feSq2 f).value ≡ 2 * f.value ^ 2 [MOD order]

/-- A call that meets a bound. -/
structure FeCall.Safe (bound : Nat) (call : FeCall) : Prop where
  /-- What reaches it has limbs below the bound. -/
  below : ∀ f ∈ call.operands, f.h0.toNat < bound ∧ f.h1.toNat < bound ∧ f.h2.toNat < bound ∧
    f.h3.toNat < bound ∧ f.h4.toNat < bound
  /-- It stays inside its words. -/
  exact : call.Exact
  /-- It computes what it stands for. -/
  congruent : call.Congruent

/-! ## The calls -/

/-- What may reach a call. -/
def Fe.Loose (f : Fe) : Prop := f.AtMost (2 ^ 53 + 2 ^ 15)

/-- What a product leaves. -/
def Fe.Tight (f : Fe) : Prop := f.AtMost (2 ^ 51 + 2 ^ 13)

theorem Fe.Loose.bound {f : Fe} (loose : f.Loose) : f.AtMost limbBound := loose.mono (by decide)

theorem Fe.Tight.loose {f : Fe} (tight : f.Tight) : f.Loose := tight.mono (by decide)

/-- A smaller bound is one as well. -/
theorem Fe.AtMost.loose {f : Fe} {bound : Nat} (small : f.AtMost bound)
    (inside : bound ≤ 2 ^ 53 + 2 ^ 15) : f.Loose := small.mono inside

/-- Loose limbs are below the bound. -/
theorem Fe.Loose.below {f : Fe} (loose : f.Loose) :
    f.h0.toNat < limbBound ∧ f.h1.toNat < limbBound ∧ f.h2.toNat < limbBound ∧
      f.h3.toNat < limbBound ∧ f.h4.toNat < limbBound := by
  obtain ⟨b0, b1, b2, b3, b4⟩ := loose
  simp only [limbBound]
  omega

/-- The same for the operands of a call. -/
theorem below_pair {f g : Fe} (left : f.Loose) (right : g.Loose) : ∀ e ∈ [f, g],
    e.h0.toNat < limbBound ∧ e.h1.toNat < limbBound ∧ e.h2.toNat < limbBound ∧
      e.h3.toNat < limbBound ∧ e.h4.toNat < limbBound := by
  simp only [List.forall_mem_cons]
  exact ⟨left.below, right.below, by simp⟩

variable {f g : Fe} {m n : Nat}

/-- A sum. -/
theorem add_runs (left : f.AtMost m) (right : g.AtMost n) (inside : m ≤ 2 ^ 53 + 2 ^ 15)
    (inside' : n ≤ 2 ^ 53 + 2 ^ 15) :
    Runs (FeCall.Safe limbBound) (add f g) (Fe.AtMost (m + n)) := by
  obtain ⟨value, small⟩ := feAdd_spec left right (by omega)
  refine Runs.call ⟨below_pair (left.loose inside) (right.loose inside'), ?_, ?_⟩ small
  · obtain ⟨f0, f1, f2, f3, f4⟩ := left
    obtain ⟨g0, g1, g2, g3, g4⟩ := right
    exact ⟨by omega, by omega, by omega, by omega, by omega⟩
  · rw [FeCall.Congruent, value]

/-- A difference. -/
theorem sub_runs (left : f.AtMost m) (right : g.Loose) (inside : m ≤ 2 ^ 53 + 2 ^ 15) :
    Runs (FeCall.Safe limbBound) (sub f g) (Fe.AtMost (m + (2 ^ 52 - 2))) := by
  have small : g.AtMost (2 ^ 63) := right.mono (by decide)
  obtain ⟨value, bound⟩ := feSub_spec left small (by omega)
  obtain ⟨o0, o1, o2, o3, o4⟩ := feSub_bias small
  obtain ⟨-, c0, -, -, -, c4⟩ := feChain_spec small
  refine Runs.call ⟨below_pair (left.loose inside) right, ?_, ?_⟩ bound
  · obtain ⟨f0, f1, f2, f3, f4⟩ := left
    obtain ⟨g0, g1, g2, g3, g4⟩ := small
    have carried : topCarry g ≤ 2 ^ 13 := by
      rw [topCarry]
      omega
    constructor
    all_goals omega
  · rw [FeCall.Congruent, value]
    exact Nat.add_modulus_mul_modEq_iff.mpr rfl

/-- A product. -/
theorem mul_runs (left : f.Loose) (right : g.Loose) :
    Runs (FeCall.Safe limbBound) (mul f g) Fe.Tight := by
  obtain ⟨value, bound⟩ := feMul_spec left.bound.factor right.bound.factor
  refine Runs.call ⟨below_pair left right, ?_, value⟩ bound
  have fit := mulSums_fit left.bound.factor right.bound.factor
  obtain ⟨-, b1, b2, b3, b4⟩ := right
  exact ⟨by omega, by omega, by omega, by omega, fit⟩

/-- The scaled limbs of a square. -/
theorem Fe.Loose.square (loose : f.Loose) : SquareExact f := by
  obtain ⟨b0, b1, b2, b3, b4⟩ := loose
  exact ⟨by omega, by omega, by omega, by omega, by omega⟩

/-- A square. -/
theorem sq_runs (loose : f.Loose) : Runs (FeCall.Safe limbBound) (sq f) Fe.Tight := by
  obtain ⟨value, bound⟩ := feSq_spec loose.bound.factor
  refine Runs.call ⟨by simpa [FeCall.operands] using loose.below, ⟨loose.square, ?_⟩, ?_⟩ bound
  · rw [squareSums_eq]
    exact mulSums_fit loose.bound.factor loose.bound.factor
  · rw [FeCall.Congruent, pow_two]
    exact value

/-- A doubled square. -/
theorem sq2_runs (loose : f.Loose) : Runs (FeCall.Safe limbBound) (sq2 f) Fe.Tight := by
  obtain ⟨value, bound⟩ := feSq2_spec loose.bound
  refine Runs.call ⟨by simpa [FeCall.operands] using loose.below, ⟨loose.square, ?_⟩, ?_⟩ bound
  · rw [squareSums_eq]
    exact doubled_fit loose.bound
  · rw [FeCall.Congruent, pow_two]
    exact value

/-- A loop of squarings. -/
theorem squarings_runs (count : Nat) {f : Fe} (tight : f.Tight) :
    Runs (FeCall.Safe limbBound) (squarings count f) Fe.Tight := by
  induction count generalizing f with
  | zero => exact Runs.pure tight
  | succ count ih => exact (sq_runs tight.loose).bind fun _ next => ih next

/-- `fe_invert` -/
theorem invert_runs {z : Fe} (loose : z.Loose) :
    Runs (FeCall.Safe limbBound) (invert z) Fe.Tight := by
  refine (sq_runs loose).bind fun t0 h0 => ?_
  refine (sq_runs h0.loose).bind fun t1 h1 => ?_
  refine (sq_runs h1.loose).bind fun t1 h1 => ?_
  refine (mul_runs loose h1.loose).bind fun t1 h1 => ?_
  refine (mul_runs h0.loose h1.loose).bind fun t0 h0 => ?_
  refine (sq_runs h0.loose).bind fun t2 h2 => ?_
  refine (mul_runs h1.loose h2.loose).bind fun t1 h1 => ?_
  refine (sq_runs h1.loose).bind fun t2 h2 => ?_
  refine (squarings_runs 4 h2).bind fun t2 h2 => ?_
  refine (mul_runs h2.loose h1.loose).bind fun t1 h1 => ?_
  refine (sq_runs h1.loose).bind fun t2 h2 => ?_
  refine (squarings_runs 9 h2).bind fun t2 h2 => ?_
  refine (mul_runs h2.loose h1.loose).bind fun t2 h2 => ?_
  refine (sq_runs h2.loose).bind fun t3 h3 => ?_
  refine (squarings_runs 19 h3).bind fun t3 h3 => ?_
  refine (mul_runs h3.loose h2.loose).bind fun t2 h2 => ?_
  refine (sq_runs h2.loose).bind fun t2 h2 => ?_
  refine (squarings_runs 9 h2).bind fun t2 h2 => ?_
  refine (mul_runs h2.loose h1.loose).bind fun t1 h1 => ?_
  refine (sq_runs h1.loose).bind fun t2 h2 => ?_
  refine (squarings_runs 49 h2).bind fun t2 h2 => ?_
  refine (mul_runs h2.loose h1.loose).bind fun t2 h2 => ?_
  refine (sq_runs h2.loose).bind fun t3 h3 => ?_
  refine (squarings_runs 99 h3).bind fun t3 h3 => ?_
  refine (mul_runs h3.loose h2.loose).bind fun t2 h2 => ?_
  refine (sq_runs h2.loose).bind fun t2 h2 => ?_
  refine (squarings_runs 49 h2).bind fun t2 h2 => ?_
  refine (mul_runs h2.loose h1.loose).bind fun t1 h1 => ?_
  refine (sq_runs h1.loose).bind fun t1 h1 => ?_
  refine (squarings_runs 4 h1).bind fun t1 h1 => ?_
  exact mul_runs h1.loose h0.loose

/-- `fe_pow22523` -/
theorem pow22523_runs {z : Fe} (loose : z.Loose) :
    Runs (FeCall.Safe limbBound) (pow22523 z) Fe.Tight := by
  refine (sq_runs loose).bind fun t0 h0 => ?_
  refine (sq_runs h0.loose).bind fun t1 h1 => ?_
  refine (sq_runs h1.loose).bind fun t1 h1 => ?_
  refine (mul_runs loose h1.loose).bind fun t1 h1 => ?_
  refine (mul_runs h0.loose h1.loose).bind fun t0 h0 => ?_
  refine (sq_runs h0.loose).bind fun t0 h0 => ?_
  refine (mul_runs h1.loose h0.loose).bind fun t0 h0 => ?_
  refine (sq_runs h0.loose).bind fun t1 h1 => ?_
  refine (squarings_runs 4 h1).bind fun t1 h1 => ?_
  refine (mul_runs h1.loose h0.loose).bind fun t0 h0 => ?_
  refine (sq_runs h0.loose).bind fun t1 h1 => ?_
  refine (squarings_runs 9 h1).bind fun t1 h1 => ?_
  refine (mul_runs h1.loose h0.loose).bind fun t1 h1 => ?_
  refine (sq_runs h1.loose).bind fun t2 h2 => ?_
  refine (squarings_runs 19 h2).bind fun t2 h2 => ?_
  refine (mul_runs h2.loose h1.loose).bind fun t1 h1 => ?_
  refine (sq_runs h1.loose).bind fun t1 h1 => ?_
  refine (squarings_runs 9 h1).bind fun t1 h1 => ?_
  refine (mul_runs h1.loose h0.loose).bind fun t0 h0 => ?_
  refine (sq_runs h0.loose).bind fun t1 h1 => ?_
  refine (squarings_runs 49 h1).bind fun t1 h1 => ?_
  refine (mul_runs h1.loose h0.loose).bind fun t1 h1 => ?_
  refine (sq_runs h1.loose).bind fun t2 h2 => ?_
  refine (squarings_runs 99 h2).bind fun t2 h2 => ?_
  refine (mul_runs h2.loose h1.loose).bind fun t1 h1 => ?_
  refine (sq_runs h1.loose).bind fun t1 h1 => ?_
  refine (squarings_runs 49 h1).bind fun t1 h1 => ?_
  refine (mul_runs h1.loose h0.loose).bind fun t0 h0 => ?_
  refine (sq_runs h0.loose).bind fun t0 h0 => ?_
  refine (sq_runs h0.loose).bind fun t0 h0 => ?_
  exact mul_runs h0.loose loose

/-! ## Points -/

/-- A decoded point may have a negated first coordinate, which is longer. -/
structure GeP3.Bounded (p : GeP3) : Prop where
  x : p.x.AtMost (2 ^ 52)
  y : p.y.Tight
  z : p.z.Tight
  t : p.t.Tight

/-- The same without the product. -/
structure GeP2.Bounded (p : GeP2) : Prop where
  x : p.x.AtMost (2 ^ 52)
  y : p.y.Tight
  z : p.z.Tight

/-- Sums and differences of products. -/
structure GeP1p1.Bounded (p : GeP1p1) : Prop where
  x : p.x.Loose
  y : p.y.Loose
  z : p.z.Loose
  t : p.t.Loose

/-- An entry of a table, or its negative. -/
structure GePrecomp.Bounded (q : GePrecomp) : Prop where
  yplusx : q.yplusx.Tight
  yminusx : q.yminusx.Tight
  xy2d : q.xy2d.AtMost (2 ^ 52)

/-- A cached point. -/
structure GeCached.Bounded (q : GeCached) : Prop where
  yPlusX : q.yPlusX.Loose
  yMinusX : q.yMinusX.Loose
  z : q.z.Tight
  t2d : q.t2d.Tight

theorem fe0_tight : fe0.Tight := ⟨by decide, by decide, by decide, by decide, by decide⟩

theorem fe1_tight : fe1.Tight := ⟨by decide, by decide, by decide, by decide, by decide⟩

theorem edD_tight : edD.Tight := ⟨by decide, by decide, by decide, by decide, by decide⟩

theorem edD2_tight : edD2.Tight := ⟨by decide, by decide, by decide, by decide, by decide⟩

theorem sqrtm1_tight : sqrtm1.Tight := ⟨by decide, by decide, by decide, by decide, by decide⟩

/-- A sum or difference of tight elements stays loose. -/
theorem Fe.Tight.short {f : Fe} (tight : f.Tight) : f.AtMost (2 ^ 52) := tight.mono (by decide)

/-- A negated element. -/
theorem neg_runs (loose : f.Loose) :
    Runs (FeCall.Safe limbBound) (neg f) (Fe.AtMost (2 ^ 52)) := by
  have zero : fe0.AtMost 0 := ⟨by decide, by decide, by decide, by decide, by decide⟩
  exact (sub_runs zero loose (by decide)).mono fun _ small => small.mono (by decide)

/-- `ge_p1p1_to_p2` -/
theorem geP1p1ToP2_runs {p : GeP1p1} (bounded : p.Bounded) :
    Runs (FeCall.Safe limbBound) (geP1p1ToP2 p) GeP2.Bounded := by
  refine (mul_runs bounded.x bounded.t).bind fun x hx => ?_
  refine (mul_runs bounded.y bounded.z).bind fun y hy => ?_
  refine (mul_runs bounded.z bounded.t).bind fun z hz => ?_
  exact Runs.pure ⟨hx.short, hy, hz⟩

/-- `ge_p1p1_to_p3` -/
theorem geP1p1ToP3_runs {p : GeP1p1} (bounded : p.Bounded) :
    Runs (FeCall.Safe limbBound) (geP1p1ToP3 p) GeP3.Bounded := by
  refine (mul_runs bounded.x bounded.t).bind fun x hx => ?_
  refine (mul_runs bounded.y bounded.z).bind fun y hy => ?_
  refine (mul_runs bounded.z bounded.t).bind fun z hz => ?_
  refine (mul_runs bounded.x bounded.y).bind fun t ht => ?_
  exact Runs.pure ⟨hx.short, hy, hz, ht⟩

/-- `ge_p3_to_cached` -/
theorem geP3ToCached_runs {p : GeP3} (bounded : p.Bounded) :
    Runs (FeCall.Safe limbBound) (geP3ToCached p) GeCached.Bounded := by
  refine (add_runs bounded.y bounded.x (by decide) (by decide)).bind fun yPlusX hPlus => ?_
  refine (sub_runs bounded.y (bounded.x.loose (by decide)) (by decide)).bind fun yMinusX hMinus => ?_
  refine (mul_runs bounded.t.loose edD2_tight.loose).bind fun t2d hProduct => ?_
  exact Runs.pure ⟨hPlus.loose (by decide), hMinus.loose (by decide), bounded.z, hProduct⟩

/-- `ge_p2_dbl` -/
theorem geP2Dbl_runs {p : GeP2} (bounded : p.Bounded) :
    Runs (FeCall.Safe limbBound) (geP2Dbl p) GeP1p1.Bounded := by
  refine (sq_runs (bounded.x.loose (by decide))).bind fun x hx => ?_
  refine (sq_runs bounded.y.loose).bind fun z hz => ?_
  refine (sq2_runs bounded.z.loose).bind fun t ht => ?_
  refine (add_runs bounded.x bounded.y (by decide) (by decide)).bind fun y hy => ?_
  refine (sq_runs (hy.loose (by decide))).bind fun t0 h0 => ?_
  refine (add_runs hz hx (by decide) (by decide)).bind fun y hy => ?_
  refine (sub_runs hz hx.loose (by decide)).bind fun z hz => ?_
  refine (sub_runs h0 (hy.loose (by decide)) (by decide)).bind fun x hx => ?_
  refine (sub_runs ht (hz.loose (by decide)) (by decide)).bind fun t ht => ?_
  exact Runs.pure ⟨hx.loose (by decide), hy.loose (by decide), hz.loose (by decide),
    ht.loose (by decide)⟩

/-- `ge_p3_dbl` -/
theorem geP3Dbl_runs {p : GeP3} (bounded : p.Bounded) :
    Runs (FeCall.Safe limbBound) (geP3Dbl p) GeP1p1.Bounded :=
  geP2Dbl_runs ⟨bounded.x, bounded.y, bounded.z⟩

/-- `ge_madd` -/
theorem geMadd_runs {p : GeP3} {q : GePrecomp} (point : p.Bounded) (entry : q.Bounded) :
    Runs (FeCall.Safe limbBound) (geMadd p q) GeP1p1.Bounded := by
  refine (add_runs point.y point.x (by decide) (by decide)).bind fun x hx => ?_
  refine (sub_runs point.y (point.x.loose (by decide)) (by decide)).bind fun y hy => ?_
  refine (mul_runs (hx.loose (by decide)) entry.yplusx.loose).bind fun z hz => ?_
  refine (mul_runs (hy.loose (by decide)) entry.yminusx.loose).bind fun y hy => ?_
  refine (mul_runs (entry.xy2d.loose (by decide)) point.t.loose).bind fun t ht => ?_
  refine (add_runs point.z point.z (by decide) (by decide)).bind fun t0 h0 => ?_
  refine (sub_runs hz hy.loose (by decide)).bind fun x hx => ?_
  refine (add_runs hz hy (by decide) (by decide)).bind fun y hy => ?_
  refine (add_runs h0 ht (by decide) (by decide)).bind fun z hz => ?_
  refine (sub_runs h0 ht.loose (by decide)).bind fun t ht => ?_
  exact Runs.pure ⟨hx.loose (by decide), hy.loose (by decide), hz.loose (by decide),
    ht.loose (by decide)⟩

/-- `ge_msub` -/
theorem geMsub_runs {p : GeP3} {q : GePrecomp} (point : p.Bounded) (entry : q.Bounded) :
    Runs (FeCall.Safe limbBound) (geMsub p q) GeP1p1.Bounded := by
  refine (add_runs point.y point.x (by decide) (by decide)).bind fun x hx => ?_
  refine (sub_runs point.y (point.x.loose (by decide)) (by decide)).bind fun y hy => ?_
  refine (mul_runs (hx.loose (by decide)) entry.yminusx.loose).bind fun z hz => ?_
  refine (mul_runs (hy.loose (by decide)) entry.yplusx.loose).bind fun y hy => ?_
  refine (mul_runs (entry.xy2d.loose (by decide)) point.t.loose).bind fun t ht => ?_
  refine (add_runs point.z point.z (by decide) (by decide)).bind fun t0 h0 => ?_
  refine (sub_runs hz hy.loose (by decide)).bind fun x hx => ?_
  refine (add_runs hz hy (by decide) (by decide)).bind fun y hy => ?_
  refine (sub_runs h0 ht.loose (by decide)).bind fun z hz => ?_
  refine (add_runs h0 ht (by decide) (by decide)).bind fun t ht => ?_
  exact Runs.pure ⟨hx.loose (by decide), hy.loose (by decide), hz.loose (by decide),
    ht.loose (by decide)⟩

/-- `ge_add_cached` -/
theorem geAddCached_runs {p : GeP3} {q : GeCached} (point : p.Bounded) (cached : q.Bounded) :
    Runs (FeCall.Safe limbBound) (geAddCached p q) GeP1p1.Bounded := by
  refine (add_runs point.y point.x (by decide) (by decide)).bind fun x hx => ?_
  refine (sub_runs point.y (point.x.loose (by decide)) (by decide)).bind fun y hy => ?_
  refine (mul_runs (hx.loose (by decide)) cached.yPlusX).bind fun z hz => ?_
  refine (mul_runs (hy.loose (by decide)) cached.yMinusX).bind fun y hy => ?_
  refine (mul_runs cached.t2d.loose point.t.loose).bind fun t ht => ?_
  refine (mul_runs point.z.loose cached.z.loose).bind fun x hx => ?_
  refine (add_runs hx hx (by decide) (by decide)).bind fun t0 h0 => ?_
  refine (sub_runs hz hy.loose (by decide)).bind fun x hx => ?_
  refine (add_runs hz hy (by decide) (by decide)).bind fun y hy => ?_
  refine (add_runs h0 ht (by decide) (by decide)).bind fun z hz => ?_
  refine (sub_runs h0 ht.loose (by decide)).bind fun t ht => ?_
  exact Runs.pure ⟨hx.loose (by decide), hy.loose (by decide), hz.loose (by decide),
    ht.loose (by decide)⟩

/-- `ge_sub_cached` -/
theorem geSubCached_runs {p : GeP3} {q : GeCached} (point : p.Bounded) (cached : q.Bounded) :
    Runs (FeCall.Safe limbBound) (geSubCached p q) GeP1p1.Bounded := by
  refine (add_runs point.y point.x (by decide) (by decide)).bind fun x hx => ?_
  refine (sub_runs point.y (point.x.loose (by decide)) (by decide)).bind fun y hy => ?_
  refine (mul_runs (hx.loose (by decide)) cached.yMinusX).bind fun z hz => ?_
  refine (mul_runs (hy.loose (by decide)) cached.yPlusX).bind fun y hy => ?_
  refine (mul_runs cached.t2d.loose point.t.loose).bind fun t ht => ?_
  refine (mul_runs point.z.loose cached.z.loose).bind fun x hx => ?_
  refine (add_runs hx hx (by decide) (by decide)).bind fun t0 h0 => ?_
  refine (sub_runs hz hy.loose (by decide)).bind fun x hx => ?_
  refine (add_runs hz hy (by decide) (by decide)).bind fun y hy => ?_
  refine (sub_runs h0 ht.loose (by decide)).bind fun z hz => ?_
  refine (add_runs h0 ht (by decide) (by decide)).bind fun t ht => ?_
  exact Runs.pure ⟨hx.loose (by decide), hy.loose (by decide), hz.loose (by decide),
    ht.loose (by decide)⟩

/-! ## Compression and decompression -/

/-- An encoding needs only a tight third coordinate. -/
theorem encodePoint_runs {x y z : Fe} (hx : x.Loose) (hy : y.Loose) (hz : z.Loose) :
    Runs (FeCall.Safe limbBound) (encodePoint x y z) fun _ => True := by
  refine (invert_runs hz).bind fun recip hr => ?_
  refine (mul_runs hx hr.loose).bind fun x hx => ?_
  refine (mul_runs hy hr.loose).bind fun y hy => ?_
  exact Runs.pure trivial

/-- What a decoding gives, if anything. -/
def Decoded (found : Option GeP3) : Prop := ∀ p, found = some p → p.Bounded

/-- The sign is set. -/
theorem finishDecoding_runs (s : Bytes) {x y z : Fe} (hx : x.Tight) (hy : y.Tight) (hz : z.Tight) :
    Runs (FeCall.Safe limbBound) (finishDecoding s x y z) Decoded := by
  have signed : Runs (FeCall.Safe limbBound) (oppositeSign s x) (Fe.AtMost (2 ^ 52)) := by
    unfold oppositeSign
    split
    · exact neg_runs hx.loose
    · exact Runs.pure hx.short
  refine signed.bind fun x hx => ?_
  refine (mul_runs (hx.loose (by decide)) hy.loose).bind fun t ht => ?_
  refine Runs.pure fun p found => ?_
  cases found
  exact ⟨hx, hy, hz, ht⟩

/-- `ge_frombytes_negate_vartime` -/
theorem geFrombytesNegateVartime_runs (s : Bytes) :
    Runs (FeCall.Safe limbBound) (geFrombytesNegateVartime s) Decoded := by
  have hy : (feFrombytes s).Tight := (feFrombytes_spec s).1.mono (by decide)
  refine (sq_runs hy.loose).bind fun u hu => ?_
  refine (mul_runs hu.loose edD_tight.loose).bind fun v hv => ?_
  refine (sub_runs hu fe1_tight.loose (by decide)).bind fun u hu => ?_
  refine (add_runs hv fe1_tight (by decide) (by decide)).bind fun v hv => ?_
  have hu := hu.loose (by decide)
  have hv := hv.loose (by decide)
  refine (sq_runs hv).bind fun v3 h3 => ?_
  refine (mul_runs h3.loose hv).bind fun v3 h3 => ?_
  refine (sq_runs h3.loose).bind fun x hx => ?_
  refine (mul_runs hx.loose hv).bind fun x hx => ?_
  refine (mul_runs hx.loose hu).bind fun x hx => ?_
  refine (pow22523_runs hx.loose).bind fun x hx => ?_
  refine (mul_runs hx.loose h3.loose).bind fun x hx => ?_
  refine (mul_runs hx.loose hu).bind fun x hx => ?_
  refine (sq_runs hx.loose).bind fun vxx hw => ?_
  refine (mul_runs hw.loose hv).bind fun vxx hw => ?_
  refine (sub_runs hw hu (by decide)).bind fun m hm => ?_
  split
  · refine (add_runs hw hu (by decide) (by decide)).bind fun p hp => ?_
    split
    · exact Runs.pure fun p found => nomatch found
    · refine (mul_runs hx.loose sqrtm1_tight.loose).bind fun x hx => ?_
      exact finishDecoding_runs s hx hy fe1_tight
  · exact finishDecoding_runs s hx hy fe1_tight

/-! ## Tables -/

/-- A check of the limbs of an entry. -/
def entryFits (q : GePrecomp) : Bool :=
  [q.yplusx, q.yminusx, q.xy2d].all fun f =>
    decide (f.h0.toNat < 2 ^ 51) && decide (f.h1.toNat < 2 ^ 51) && decide (f.h2.toNat < 2 ^ 51) &&
      decide (f.h3.toNat < 2 ^ 51) && decide (f.h4.toNat < 2 ^ 51)

/-- The entries of both tables pass it. -/
theorem tables_fit :
    (baseTable.flatten ++ oddMultiples).all entryFits = true := by decide +kernel

/-- An entry of a table. -/
theorem table_bounded {q : GePrecomp} (member : q ∈ baseTable.flatten ++ oddMultiples) :
    q.Bounded := by
  have fits := List.all_eq_true.mp tables_fit q member
  simp only [entryFits, List.all_cons, List.all_nil, Bool.and_true, Bool.and_eq_true,
    decide_eq_true_eq] at fits
  obtain ⟨⟨⟨⟨⟨p0, p1⟩, p2⟩, p3⟩, p4⟩, ⟨⟨⟨⟨m0, m1⟩, m2⟩, m3⟩, m4⟩, ⟨⟨⟨d0, d1⟩, d2⟩, d3⟩, d4⟩ :=
    fits
  have fit {f : Fe} {bound : Nat} (wide : 2 ^ 51 ≤ bound) (h0 : f.h0.toNat < 2 ^ 51)
      (h1 : f.h1.toNat < 2 ^ 51) (h2 : f.h2.toNat < 2 ^ 51) (h3 : f.h3.toNat < 2 ^ 51)
      (h4 : f.h4.toNat < 2 ^ 51) : f.AtMost bound :=
    ⟨by omega, by omega, by omega, by omega, by omega⟩
  exact ⟨fit (by decide) p0 p1 p2 p3 p4, fit (by decide) m0 m1 m2 m3 m4,
    fit (by decide) d0 d1 d2 d3 d4⟩

/-- The negative of an entry. -/
theorem negateEntry_runs {q : GePrecomp} (bounded : q.Bounded) :
    Runs (FeCall.Safe limbBound) (negateEntry q) GePrecomp.Bounded := by
  refine (neg_runs (bounded.xy2d.loose (by decide))).bind fun xy2d small => ?_
  exact Runs.pure ⟨bounded.yminusx, bounded.yplusx, small⟩

/-! ## Runs of group operations -/

/-- A point in one of its forms. -/
inductive GroupElement
  | p2 (h : GeP2)
  | p3 (h : GeP3)
  | p1p1 (h : GeP1p1)
  | precomp (q : GePrecomp)
  | cached (q : GeCached)

/-- The bounds of its form. -/
def GroupElement.Bounded : GroupElement → Prop
  | .p2 h => h.Bounded
  | .p3 h => h.Bounded
  | .p1p1 h => h.Bounded
  | .precomp q => q.Bounded
  | .cached q => q.Bounded

/-- The operations with the elements they take and the element they leave, if any. -/
inductive Computes : List GroupElement → FeRun (Option GroupElement) → Prop
  /-- `ge_frombytes_negate_vartime` -/
  | decode (s : Bytes) : Computes [] (do
      let found ← geFrombytesNegateVartime s
      return found.map .p3)
  /-- `ge_p2_0` -/
  | p2Zero : Computes [] (pure (some (.p2 geP20)))
  /-- `ge_p3_0` -/
  | p3Zero : Computes [] (pure (some (.p3 geP30)))
  /-- `ge_precomp_0` -/
  | precompZero : Computes [] (pure (some (.precomp gePrecomp0)))
  /-- An entry of `base_table` or `Bi`. -/
  | entry {q : GePrecomp} (member : q ∈ baseTable.flatten ++ oddMultiples) :
      Computes [] (pure (some (.precomp q)))
  /-- The negative of an entry. -/
  | negate (q : GePrecomp) : Computes [.precomp q] (do return some (.precomp (← negateEntry q)))
  /-- `ge_p1p1_to_p2` -/
  | toP2 (p : GeP1p1) : Computes [.p1p1 p] (do return some (.p2 (← geP1p1ToP2 p)))
  /-- `ge_p1p1_to_p3` -/
  | toP3 (p : GeP1p1) : Computes [.p1p1 p] (do return some (.p3 (← geP1p1ToP3 p)))
  /-- `ge_p3_to_p2` -/
  | p3ToP2 (p : GeP3) : Computes [.p3 p] (pure (some (.p2 (geP3ToP2 p))))
  /-- `ge_p3_to_cached` -/
  | toCached (p : GeP3) : Computes [.p3 p] (do return some (.cached (← geP3ToCached p)))
  /-- `ge_p2_dbl` -/
  | p2Dbl (p : GeP2) : Computes [.p2 p] (do return some (.p1p1 (← geP2Dbl p)))
  /-- `ge_p3_dbl` -/
  | p3Dbl (p : GeP3) : Computes [.p3 p] (do return some (.p1p1 (← geP3Dbl p)))
  /-- `ge_madd` -/
  | madd (p : GeP3) (q : GePrecomp) :
      Computes [.p3 p, .precomp q] (do return some (.p1p1 (← geMadd p q)))
  /-- `ge_msub` -/
  | msub (p : GeP3) (q : GePrecomp) :
      Computes [.p3 p, .precomp q] (do return some (.p1p1 (← geMsub p q)))
  /-- `ge_add_cached` -/
  | addCached (p : GeP3) (q : GeCached) :
      Computes [.p3 p, .cached q] (do return some (.p1p1 (← geAddCached p q)))
  /-- `ge_sub_cached` -/
  | subCached (p : GeP3) (q : GeCached) :
      Computes [.p3 p, .cached q] (do return some (.p1p1 (← geSubCached p q)))
  /-- `ge_tobytes` -/
  | encode (h : GeP2) : Computes [.p2 h] (do
      let _ ← geTobytes h
      return none)
  /-- `ge_p3_tobytes` -/
  | p3Encode (h : GeP3) : Computes [.p3 h] (do
      let _ ← geP3Tobytes h
      return none)

/-- What operations leave, one after the other in any order. -/
inductive Reached : GroupElement → Prop
  | computed {taken : List GroupElement} {run : FeRun (Option GroupElement)}
      {left : GroupElement} (before : ∀ element ∈ taken, Reached element)
      (computes : Computes taken run) (result : run.value = some left) : Reached left

/-- One operation: from bounded elements all its calls are safe, and it leaves a bounded one. -/
theorem Computes.runs {taken : List GroupElement} {run : FeRun (Option GroupElement)}
    (computes : Computes taken run) (bounded : ∀ element ∈ taken, element.Bounded) :
    Runs (FeCall.Safe limbBound) run fun left => ∀ element, left = some element →
      element.Bounded := by
  have leaves {element : GroupElement} (held : element.Bounded) :
      ∀ other, some element = some other → other.Bounded :=
    fun _ same => Option.some.inj same ▸ held
  cases computes with
  | decode s =>
    refine (geFrombytesNegateVartime_runs s).bind fun found held => Runs.pure fun element same => ?_
    obtain ⟨p, shape, rfl⟩ := Option.map_eq_some_iff.mp same
    exact held p shape
  | p2Zero => exact Runs.pure (leaves ⟨fe0_tight.short, fe1_tight, fe1_tight⟩)
  | p3Zero => exact Runs.pure (leaves ⟨fe0_tight.short, fe1_tight, fe1_tight, fe0_tight⟩)
  | precompZero => exact Runs.pure (leaves ⟨fe1_tight, fe1_tight, fe0_tight.short⟩)
  | entry member => exact Runs.pure (leaves (table_bounded member))
  | negate q =>
    exact (negateEntry_runs (bounded (.precomp q) (by simp))).bind
      fun _ held => Runs.pure (leaves held)
  | toP2 p =>
    exact (geP1p1ToP2_runs (bounded (.p1p1 p) (by simp))).bind fun _ held => Runs.pure (leaves held)
  | toP3 p =>
    exact (geP1p1ToP3_runs (bounded (.p1p1 p) (by simp))).bind fun _ held => Runs.pure (leaves held)
  | p3ToP2 p =>
    have held : p.Bounded := bounded (.p3 p) (by simp)
    exact Runs.pure (leaves ⟨held.x, held.y, held.z⟩)
  | toCached p =>
    exact (geP3ToCached_runs (bounded (.p3 p) (by simp))).bind fun _ held => Runs.pure (leaves held)
  | p2Dbl p =>
    exact (geP2Dbl_runs (bounded (.p2 p) (by simp))).bind fun _ held => Runs.pure (leaves held)
  | p3Dbl p =>
    exact (geP3Dbl_runs (bounded (.p3 p) (by simp))).bind fun _ held => Runs.pure (leaves held)
  | madd p q =>
    exact (geMadd_runs (bounded (.p3 p) (by simp)) (bounded (.precomp q) (by simp))).bind
      fun _ held => Runs.pure (leaves held)
  | msub p q =>
    exact (geMsub_runs (bounded (.p3 p) (by simp)) (bounded (.precomp q) (by simp))).bind
      fun _ held => Runs.pure (leaves held)
  | addCached p q =>
    exact (geAddCached_runs (bounded (.p3 p) (by simp)) (bounded (.cached q) (by simp))).bind
      fun _ held => Runs.pure (leaves held)
  | subCached p q =>
    exact (geSubCached_runs (bounded (.p3 p) (by simp)) (bounded (.cached q) (by simp))).bind
      fun _ held => Runs.pure (leaves held)
  | encode h =>
    have held : h.Bounded := bounded (.p2 h) (by simp)
    exact (encodePoint_runs (held.x.loose (by decide)) held.y.loose held.z.loose).bind
      fun _ _ => Runs.pure fun _ found => nomatch found
  | p3Encode h =>
    have held : h.Bounded := bounded (.p3 h) (by simp)
    exact (encodePoint_runs (held.x.loose (by decide)) held.y.loose held.z.loose).bind
      fun _ _ => Runs.pure fun _ found => nomatch found

/-- Every element that is reached is bounded. -/
theorem Reached.bounded {element : GroupElement} (reached : Reached element) : element.Bounded := by
  induction reached with
  | computed before computes result ih => exact (computes.runs ih).value _ result

/-- One bound on the limbs holds for every element that reaches the field arithmetic, in any sequence
of group operations from decoded points and table entries; under it every call stays inside its words
and computes what it stands for modulo the order. -/
theorem groupOperations_safe : ∃ bound, ∀ taken run, (∀ element ∈ taken, Reached element) →
    Computes taken run → ∀ call ∈ run.calls, call.Safe bound :=
  ⟨limbBound, fun _ _ reached computes =>
    (computes.runs fun element member => (reached element member).bounded).calls⟩

/-- The encoding of the base point. -/
def basePointBytes : Bytes := 0x58 :: List.replicate 31 0x66

/-- The base point is decoded, and the sums of it and each odd multiple are safe. -/
theorem groupOperations_safe_sums :
    ∃ bound point, (geFrombytesNegateVartime basePointBytes).value = some point ∧
      ∀ q ∈ oddMultiples, ∀ call ∈ (geMadd point q).calls, call.Safe bound := by
  obtain ⟨bound, safe⟩ := groupOperations_safe
  obtain ⟨point, decoded⟩ := Option.isSome_iff_exists.mp
    (by decide +kernel : (geFrombytesNegateVartime basePointBytes).value.isSome = true)
  have nothing : ∀ element ∈ ([] : List GroupElement), Reached element :=
    fun _ member => absurd member List.not_mem_nil
  have found (run : FeRun (Option GeP3)) :
      (do let found ← run; return found.map GroupElement.p3 : FeRun _).value =
        run.value.map .p3 := rfl
  have first : Reached (.p3 point) := by
    refine .computed nothing (.decode basePointBytes) ?_
    rw [found, decoded, Option.map_some]
  refine ⟨bound, point, decoded, fun q member call made => ?_⟩
  have second : Reached (.precomp q) :=
    .computed nothing (.entry (List.mem_append_right _ member)) rfl
  refine safe [.p3 point, .precomp q] _ ?_ (.madd point q) call (List.mem_append_left _ made)
  simpa using ⟨first, second⟩

end Cookbook.Crypto
