import Mathlib.Data.Int.Order.Basic
import Mathlib.Data.List.Basic
import Mathlib.Order.Compare

/-!
# Comparisons place by place

A comparison of two sequences asks one place after the other, and the first place at which they differ
decides. It is a total preorder as soon as the comparison of the places is one. Where the places are
compared by what is left of them, the result is the right one exactly when the first place from the
first difference on that what is left tells apart stands in the order of that difference.
-/
namespace Library.Decisions

/-! ## Signs -/

/-- The order that a difference stands for. -/
def sign (order : Int) : Ordering := compare order 0

/-- A negative difference. -/
theorem sign_eq_lt {order : Int} : sign order = .lt ↔ order < 0 := compare_lt_iff_lt

/-- No difference. -/
theorem sign_eq_eq {order : Int} : sign order = .eq ↔ order = 0 := compare_eq_iff_eq

/-- A positive difference. -/
theorem sign_eq_gt {order : Int} : sign order = .gt ↔ 0 < order := compare_gt_iff_gt

/-- The sign of a difference that is not too large. -/
theorem sign_sub (left right : Int) : sign (left - right) = compare left right := by
  rcases lt_trichotomy left right with less | same | more
  · rw [sign_eq_lt.mpr (by omega), compare_lt_iff_lt.mpr less]
  · rw [sign_eq_eq.mpr (by omega), compare_eq_iff_eq.mpr same]
  · rw [sign_eq_gt.mpr (by omega), compare_gt_iff_gt.mpr more]

/-- A comparison by differences is reflexive, antisymmetric in its sign, and transitive. -/
structure TotalPreorder {α : Type} (order : α → α → Int) : Prop where
  /-- Nothing differs from itself. -/
  refl : ∀ a, order a a = 0
  /-- The other way round the sign turns. -/
  swap : ∀ a b, sign (order b a) = (sign (order a b)).swap
  /-- What is not above a second one that is not above a third one is not above the third one. -/
  trans : ∀ a b c, order a b ≤ 0 → order b c ≤ 0 → order a c ≤ 0

/-- An order of keys is one of what has the keys. -/
theorem transCmp_on {α β : Type} {compared : β → β → Ordering} [Std.TransCmp compared] (key : α → β) :
    Std.TransCmp fun a b => compared (key a) (key b) where
  eq_swap := Std.OrientedCmp.eq_swap
  isLE_trans := Std.TransCmp.isLE_trans

/-- A difference whose sign is a transitive comparison of keys is a total preorder. -/
theorem TotalPreorder.of_key {α β : Type} {order : α → α → Int} {compared : β → β → Ordering}
    [Std.TransCmp compared] (key : α → β)
    (same : ∀ a b, sign (order a b) = compared (key a) (key b)) : TotalPreorder order := by
  have below : ∀ a b, order a b ≤ 0 ↔ (compared (key a) (key b)).isLE = true := by
    intro a b
    rw [← same]
    cases found : sign (order a b) with
    | lt => exact iff_of_true (sign_eq_lt.mp found).le rfl
    | eq => exact iff_of_true (sign_eq_eq.mp found).le rfl
    | gt => exact iff_of_false (not_le.mpr (sign_eq_gt.mp found)) Bool.false_ne_true
  refine ⟨?_, ?_, ?_⟩
  · intro a
    rw [← sign_eq_eq, same]
    exact Std.ReflCmp.compare_self
  · intro a b
    rw [same, same]
    exact Std.OrientedCmp.eq_swap
  · intro a b c first second
    rw [below] at first second ⊢
    exact Std.TransCmp.isLE_trans first second

/-! ## Places -/

/-- The first place that differs decides. -/
def firstDecision (places : List Ordering) : Ordering := places.foldr Ordering.then .eq

/-- Without a place nothing differs. -/
@[simp] theorem firstDecision_nil : firstDecision [] = .eq := rfl

/-- A place decides, or the rest does. -/
@[simp] theorem firstDecision_cons (place : Ordering) (places : List Ordering) :
    firstDecision (place :: places) = place.then (firstDecision places) := rfl

/-- Sequences are compared item by item, and then by their lengths. -/
theorem compareLex_eq_firstDecision {α : Type} (compared : α → α → Ordering) (left right : List α) :
    List.compareLex compared left right = firstDecision
      (List.zipWith compared left right ++ [compare left.length right.length]) := by
  induction left generalizing right with
  | nil =>
    cases right with
    | nil => rfl
    | cons b right =>
      rw [List.compareLex_nil_cons]
      symm
      simpa using Nat.compare_eq_lt.mpr (Nat.succ_pos right.length)
  | cons a left ih =>
    cases right with
    | nil =>
      rw [List.compareLex_cons_nil]
      symm
      simpa using Nat.compare_eq_gt.mpr (Nat.succ_pos left.length)
    | cons b right =>
      have lengths : compare (a :: left).length (b :: right).length =
          compare left.length right.length := by
        simp [Nat.compare_eq_ite_lt]
      rw [List.compareLex_cons_cons, ih, List.zipWith_cons_cons, List.cons_append,
        firstDecision_cons, lengths]

/-- The first place from the first difference on that is told apart stands in the order of that
difference: of every place there is the order and the order of what is left. -/
def Kept : List (Ordering × Ordering) → Prop
  | [] => True
  | (order, left) :: places =>
    if order = .eq then Kept places
    else left = order ∨ left = .eq ∧ firstDecision (places.map Prod.snd) = order

/-- What is left of equal places is equal. -/
def Sound (places : List (Ordering × Ordering)) : Prop :=
  ∀ place ∈ places, place.1 = .eq → place.2 = .eq

/-- The comparison by what is left is the comparison exactly when the first difference is kept. -/
theorem firstDecision_eq_iff_kept {places : List (Ordering × Ordering)} (sound : Sound places) :
    firstDecision (places.map Prod.snd) = firstDecision (places.map Prod.fst) ↔ Kept places := by
  induction places with
  | nil => exact iff_of_true rfl trivial
  | cons place places ih =>
    obtain ⟨order, left⟩ := place
    have rest := ih fun other member => sound other (List.mem_cons_of_mem _ member)
    have here := sound (order, left) List.mem_cons_self
    simp only [List.map_cons, firstDecision_cons, Kept]
    by_cases same : order = .eq
    · have behind : left = .eq := here same
      rw [if_pos same, behind, same]
      exact rest
    · rw [if_neg same]
      have decided : order.then (firstDecision (places.map Prod.fst)) = order := by
        cases order with
        | eq => exact absurd rfl same
        | lt => rfl
        | gt => rfl
      rw [decided]
      cases left with
      | eq => simp [Ordering.then, eq_comm (a := Ordering.eq), same]
      | lt => simp [Ordering.then]
      | gt => simp [Ordering.then]

/-- Where every place is told apart, the first difference is kept. -/
theorem kept_of_exact {places : List (Ordering × Ordering)}
    (told : ∀ place ∈ places, place.2 = place.1) : Kept places := by
  have sound : Sound places := fun place member same => (told place member).trans same
  rw [← firstDecision_eq_iff_kept sound]
  congr 1
  exact List.map_congr_left told

end Library.Decisions
