import Mathlib.Data.List.Perm.Subperm

/-!
# Every order that a sort may leave

A sort by a key says nothing about entries whose keys are equal. A relation holds between the earlier
and the later entries in every order that the sort allows exactly when it holds of every two entries
of which the sort may put the first in front.
-/
namespace Library.Sorting

variable {α : Type} {le : α → α → Bool}

/-- An order of entries that a sort allows. -/
structure Sorts (le : α → α → Bool) (entries sorted : List α) : Prop where
  /-- They are the same entries. -/
  perm : sorted.Perm entries
  /-- None is in front of one that comes before it. -/
  ordered : sorted.Pairwise fun first second => le first second = true

/-- A stable sort is one of them. -/
theorem mergeSort_sorts (trans : ∀ a b c, le a b = true → le b c = true → le a c = true)
    (total : ∀ a b, (le a b || le b a) = true) (entries : List α) :
    Sorts le entries (entries.mergeSort le) :=
  ⟨List.mergeSort_perm _ _, List.pairwise_mergeSort trans total _⟩

/-- Two entries of which the sort may put the first in front come in this order in one of them. -/
theorem exists_sorts_sublist (trans : ∀ a b c, le a b = true → le b c = true → le a c = true)
    (total : ∀ a b, (le a b || le b a) = true) {entries : List α} {first second : α}
    (both : [first, second].Subperm entries) (front : le first second = true) :
    ∃ sorted, Sorts le entries sorted ∧ [first, second].Sublist sorted := by
  obtain ⟨arranged, perm, inside⟩ := List.subperm_iff.mp both
  have sorts := mergeSort_sorts trans total arranged
  exact ⟨_, ⟨sorts.perm.trans perm, sorts.ordered⟩,
    List.pair_sublist_mergeSort trans total front inside⟩

/-- A relation holds in every order exactly when it holds of every two entries in theirs. -/
theorem sorts_pairwise_iff (trans : ∀ a b c, le a b = true → le b c = true → le a c = true)
    (total : ∀ a b, (le a b || le b a) = true) (related : α → α → Prop) (entries : List α) :
    (∀ sorted, Sorts le entries sorted → sorted.Pairwise related) ↔
      ∀ first second, [first, second].Subperm entries → le first second = true →
        related first second := by
  constructor
  · intro every first second both front
    obtain ⟨sorted, sorts, inside⟩ := exists_sorts_sublist trans total both front
    exact List.pairwise_iff_forall_sublist.mp (every sorted sorts) inside
  · intro pairs sorted sorts
    rw [List.pairwise_iff_forall_sublist]
    intro first second inside
    have front := List.pairwise_iff_forall_sublist.mp sorts.ordered inside
    exact pairs first second (inside.subperm.trans sorts.perm.subperm) front

end Library.Sorting
