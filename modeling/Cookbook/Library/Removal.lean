import Mathlib.Data.List.Nodup
import Mathlib.Data.List.Perm.Basic

/-!
# Removals from a counted array

An array whose used cells stand in front loses cells in two ways: one pass moves the cells that are kept
to the front, and a single cell is replaced by the last one. Neither loses a cell that is kept, and
neither keeps one twice.
-/
namespace Library.Removal

variable {α : Type}

/-! ## One pass -/

/-- The rest of a pass: `i` reads and `w` writes. The used cells, and those that are given up. -/
def compactFrom (keep : α → Bool) : Nat → Nat → Nat → List α → List α → List α × List α
  | 0, w, _, cells, dropped => (cells.take w, dropped)
  | rounds + 1, w, i, cells, dropped =>
    match cells[i]? with
    | none => (cells.take w, dropped)
    | some cell =>
      if keep cell then
        compactFrom keep rounds (w + 1) (i + 1) (if w ≠ i then cells.set w cell else cells) dropped
      else compactFrom keep rounds w (i + 1) cells (dropped ++ [cell])

/-- The cells that are kept, moved to the front, and those that are given up. -/
def compact (keep : α → Bool) (cells : List α) : List α × List α :=
  compactFrom keep cells.length 0 0 cells []

/-- A pass keeps what it has moved and every cell in front of it that is to be kept. -/
theorem compactFrom_eq (keep : α → Bool) (rounds w i : Nat) (cells dropped : List α)
    (behind : w ≤ i) (left : i + rounds = cells.length) :
    compactFrom keep rounds w i cells dropped =
      (cells.take w ++ (cells.drop i).filter keep,
        dropped ++ (cells.drop i).filter (!keep ·)) := by
  induction rounds generalizing w i cells dropped with
  | zero =>
    rw [compactFrom, List.drop_eq_nil_of_le (by omega)]
    simp
  | succ rounds ih =>
    have inside : i < cells.length := by omega
    have here : cells.drop i = cells[i] :: cells.drop (i + 1) := List.drop_eq_getElem_cons inside
    rw [compactFrom, List.getElem?_eq_getElem inside, here]
    by_cases kept : keep cells[i] = true
    · have moved : (if w ≠ i then cells.set w cells[i] else cells) = cells.set w cells[i] := by
        by_cases same : w = i
        · subst same
          rw [if_neg (not_not.mpr rfl), List.set_getElem_self]
        · rw [if_pos same]
      simp only [kept, ↓reduceIte, moved]
      rw [ih _ _ _ _ (by omega) (by rw [List.length_set]; omega), List.filter_cons_of_pos kept,
        List.filter_cons_of_neg (by simp [kept]), List.drop_set_of_lt (by omega)]
      have front : (cells.set w cells[i]).take (w + 1) = cells.take w ++ [cells[i]] := by
        rw [List.take_add_one, List.take_set_of_le (Nat.le_refl w),
          List.getElem?_set_self (by omega)]
        rfl
      rw [front, List.append_assoc, List.singleton_append]
    · simp only [kept, Bool.false_eq_true, ↓reduceIte]
      rw [ih _ _ _ _ (by omega) (by omega), List.filter_cons_of_neg kept,
        List.filter_cons_of_pos (by simp [kept]), List.append_assoc, List.singleton_append]

/-- The pass keeps exactly the cells that are to be kept, and gives up the others. -/
theorem compact_eq (keep : α → Bool) (cells : List α) :
    compact keep cells = (cells.filter keep, cells.filter (!keep ·)) := by
  rw [compact, compactFrom_eq _ _ _ _ _ _ (Nat.le_refl 0) (Nat.zero_add _)]
  simp

/-- Together they are the cells. -/
theorem compact_perm (keep : α → Bool) (cells : List α) :
    ((compact keep cells).1 ++ (compact keep cells).2).Perm cells := by
  rw [compact_eq]
  exact List.filter_append_perm keep cells

/-- Cells that are kept or given up alike under other names. -/
theorem compact_map {β : Type} (rename : α → β) {keep : α → Bool} {keepNamed : β → Bool}
    (alike : ∀ cell, keepNamed (rename cell) = keep cell) (cells : List α) :
    compact keepNamed (cells.map rename) =
      ((compact keep cells).1.map rename, (compact keep cells).2.map rename) := by
  have same : keepNamed ∘ rename = keep := funext alike
  have other : (fun cell => !keepNamed cell) ∘ rename = fun cell => !keep cell := by
    funext cell
    exact congrArg _ (alike cell)
  rw [compact_eq, compact_eq, List.filter_map, List.filter_map, same, other]

/-! ## One cell -/

/-- Replace a cell by the last one. -/
def swapRemove (cells : List α) (i : Nat) : List α :=
  match cells.getLast? with
  | some last => (cells.set i last).dropLast
  | none => []

/-- The names of the cells do not matter. -/
theorem swapRemove_map {β : Type} (rename : α → β) (cells : List α) (i : Nat) :
    swapRemove (cells.map rename) i = (swapRemove cells i).map rename := by
  unfold swapRemove
  rw [List.getLast?_map]
  cases cells.getLast? with
  | none => rfl
  | some last =>
    show ((cells.map rename).set i (rename last)).dropLast = _
    rw [← List.map_set, List.map_dropLast]

/-- The cell and the ones that remain are the cells. -/
theorem swapRemove_perm {cells : List α} {i : Nat} {cell : α} (here : cells[i]? = some cell) :
    (cell :: swapRemove cells i).Perm cells := by
  obtain ⟨inside, value⟩ := List.getElem?_eq_some_iff.mp here
  have filled : cells ≠ [] := List.ne_nil_of_length_pos (by omega)
  rw [swapRemove, List.getLast?_eq_some_getLast filled]
  generalize shape : cells.getLast filled = last
  have whole : cells.dropLast ++ [last] = cells := by
    rw [← shape]
    exact List.dropLast_concat_getLast filled
  generalize cells.dropLast = front at whole
  subst whole
  simp only
  rw [List.length_append, List.length_singleton] at inside
  by_cases own : i < front.length
  · rw [List.getElem_append_left own] at value
    rw [List.set_append_left _ _ own, List.dropLast_concat]
    have split : front = front.take i ++ cell :: front.drop (i + 1) := by
      rw [← value, List.getElem_cons_drop, List.take_append_drop]
    have swapped : front.set i last = front.take i ++ last :: front.drop (i + 1) := by
      rw [List.set_eq_take_append_cons_drop, if_pos own]
    have rest := @List.perm_middle _ cell (front.take i) (front.drop (i + 1))
    rw [← split] at rest
    rw [swapped]
    calc cell :: (front.take i ++ last :: front.drop (i + 1))
      _ |>.Perm (cell :: last :: (front.take i ++ front.drop (i + 1))) :=
        List.perm_middle.cons cell
      _ |>.Perm (last :: cell :: (front.take i ++ front.drop (i + 1))) := List.Perm.swap _ _ _
      _ |>.Perm (last :: front) := rest.symm.cons last
      _ |>.Perm (front ++ [last]) := (List.perm_append_singleton last front).symm
  · have behind : i = front.length := by omega
    subst behind
    rw [List.getElem_append_right (Nat.le_refl _)] at value
    simp only [Nat.sub_self, List.getElem_cons_zero] at value
    rw [List.set_append_right _ _ (Nat.le_refl _), Nat.sub_self, List.set_cons_zero,
      List.dropLast_concat, value]
    exact (List.perm_append_singleton cell front).symm

/-! ## One way out -/

/-- What is divided without repetitions has each of its elements in exactly one part. -/
theorem one_part {whole first second third : List α} (unique : whole.Nodup)
    (divided : whole.Perm (first ++ second ++ third)) {item : α} (member : item ∈ whole) :
    (item ∈ first ∧ item ∉ second ∧ item ∉ third) ∨
      (item ∉ first ∧ item ∈ second ∧ item ∉ third) ∨
      (item ∉ first ∧ item ∉ second ∧ item ∈ third) := by
  have apart := List.nodup_append.mp (divided.nodup_iff.mp unique)
  have front := List.nodup_append.mp apart.1
  rcases List.mem_append.mp (divided.mem_iff.mp member) with inside | inThird
  · have notThird : item ∉ third := fun other => apart.2.2 item inside item other rfl
    rcases List.mem_append.mp inside with inFirst | inSecond
    · exact .inl ⟨inFirst, fun other => front.2.2 item inFirst item other rfl, notThird⟩
    · exact .inr (.inl ⟨fun other => front.2.2 item other item inSecond rfl, inSecond, notThird⟩)
  · refine .inr (.inr ⟨fun other => ?_, fun other => ?_, inThird⟩)
    · exact apart.2.2 item (List.mem_append_left _ other) item inThird rfl
    · exact apart.2.2 item (List.mem_append_right _ other) item inThird rfl

end Library.Removal
