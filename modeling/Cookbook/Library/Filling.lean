import Cookbook.Library.Buffer

/-!
# Buffers that are filled piece by piece

A chain of writes that counts its position without looking at the end of the buffer. The position stays
below the size exactly as long as the whole text does; behind that the next size wraps around.
-/
namespace Library.Text

/-- `if (pos < cap) buf[pos++] = c` -/
def Cursor.push (cursor : Cursor) (c : UInt8) : Cursor :=
  if cursor.pos < cursor.cap then
    { cursor with
      text := if cursor.text.length = cursor.pos then cursor.text ++ [c] else cursor.text
      pos := cursor.pos + 1 }
  else cursor

/-- No write has left the buffer, and the position is still inside. -/
def Below (outcome : Outcome Cursor) : Prop :=
  ∃ cursor, outcome = .done cursor ∧ cursor.pos < cursor.cap

/-- A chain of writes that has been given a text: it holds the text, or it has come to the end of the
buffer. -/
structure Tracks (cap : Nat) (text : Bytes) (outcome : Outcome Cursor) : Prop where
  /-- A text that fits is written whole. -/
  whole : text.length < cap → outcome = .done (.ofText cap text)
  /-- Behind the end the position never comes back. -/
  past : cap ≤ text.length →
    outcome = .overrun ∨ ∃ cursor, outcome = .done cursor ∧ cursor.cap = cap ∧ cap ≤ cursor.pos

namespace Tracks

variable {cap : Nat} {text : Bytes} {outcome : Outcome Cursor}

/-- The start of a chain. -/
theorem start (cap : Nat) : Tracks cap [] (.done (.empty cap)) := by
  refine ⟨fun _ => by rw [Cursor.empty_eq_ofText], fun none => .inr ⟨_, rfl, rfl, ?_⟩⟩
  exact none

/-- The position stays inside exactly as long as the text does. -/
theorem below_iff (tracks : Tracks cap text outcome) : Below outcome ↔ text.length < cap := by
  constructor
  · rintro ⟨cursor, done, inside⟩
    by_contra outside
    rcases tracks.past (Nat.le_of_not_lt outside) with overrun | ⟨other, same, size, behind⟩
    · rw [overrun] at done
      cases done
    · rw [same] at done
      cases done
      omega
  · intro fits
    exact ⟨_, tracks.whole fits, fits⟩

/-- One more write. -/
theorem printf (tracks : Tracks cap text outcome) (more : Bytes) :
    Tracks cap (text ++ more) (outcome.bind (·.printf more)) := by
  by_cases fits : text.length < cap
  · have step := Cursor.ofText_printf (by omega : 0 < cap) text more
    rw [if_neg (by omega)] at step
    rw [tracks.whole fits, Outcome.bind_done, step]
    exact ⟨fun _ => rfl, fun long => .inr ⟨_, rfl, rfl, long⟩⟩
  · have long := Nat.le_of_not_lt fits
    refine ⟨fun short => ?_, fun _ => ?_⟩
    · rw [List.length_append] at short
      omega
    · rcases tracks.past long with overrun | ⟨cursor, done, size, behind⟩
      · rw [overrun]
        exact .inl rfl
      · rw [done, Outcome.bind_done, Cursor.printf]
        split
        · exact .inl rfl
        · exact .inr ⟨_, rfl, size, Nat.le_trans behind (Nat.le_add_right _ _)⟩

/-- One more character, where there is room. -/
theorem push (tracks : Tracks cap text outcome) (c : UInt8) :
    Tracks cap (text ++ [c]) (outcome.bind fun cursor => .done (cursor.push c)) := by
  by_cases fits : text.length < cap
  · rw [tracks.whole fits, Outcome.bind_done]
    have inside : (Cursor.ofText cap text).pos < (Cursor.ofText cap text).cap := fits
    rw [Cursor.push, if_pos inside]
    refine ⟨fun short => ?_, fun long => .inr ⟨_, rfl, rfl, ?_⟩⟩
    · rw [List.length_append, List.length_singleton] at short
      have kept : text.take (cap - 1) = text := List.take_of_length_le (by omega)
      have more : (text ++ [c]).take (cap - 1) = text ++ [c] :=
        List.take_of_length_le (by rw [List.length_append, List.length_singleton]; omega)
      simp only [Cursor.ofText, kept, more, ↓reduceIte, List.length_append, List.length_singleton]
    · rw [List.length_append, List.length_singleton] at long
      exact long
  · have long := Nat.le_of_not_lt fits
    refine ⟨fun short => ?_, fun _ => ?_⟩
    · rw [List.length_append] at short
      omega
    · rcases tracks.past long with overrun | ⟨cursor, done, size, behind⟩
      · rw [overrun]
        exact .inl rfl
      · rw [done, Outcome.bind_done, Cursor.push, if_neg (by omega)]
        exact .inr ⟨cursor, rfl, size, behind⟩

/-- A terminator at the position falls outside the buffer exactly when the text does not fit. -/
theorem terminate (tracks : Tracks cap text outcome) :
    (outcome.bind fun cursor =>
      if cursor.pos < cursor.cap then .done cursor.text else .overrun) = fitted cap text := by
  by_cases fits : text.length < cap
  · have inside : (Cursor.ofText cap text).pos < (Cursor.ofText cap text).cap := fits
    rw [tracks.whole fits, Outcome.bind_done, if_pos inside, Cursor.ofText_text fits, fitted,
      if_pos fits]
  · rw [fitted, if_neg fits]
    rcases tracks.past (Nat.le_of_not_lt fits) with overrun | ⟨cursor, done, size, behind⟩
    · rw [overrun]
      rfl
    · rw [done, Outcome.bind_done, if_neg (by omega)]

end Tracks

/-! ## Buffers that grow -/

/-- Items written one behind the other, each behind a reservation of its own. -/
def growItems : List (Nat × Bytes) → Cursor → Outcome Cursor
  | [], cursor => .done cursor
  | (need, item) :: items, cursor =>
    ((cursor.reserve need).printf item).bind (growItems items)

/-- The size of the buffer and the position behind items of these needs and lengths. -/
def growSize : List (Nat × Nat) → Nat → Nat → Nat × Nat
  | [], cap, pos => (cap, pos)
  | (need, length) :: items, cap, pos =>
    growSize items (if cap ≤ pos + need then cap * 2 + need else cap) (pos + length)

/-- A buffer that grows does not shrink. -/
theorem growSize_cap (items : List (Nat × Nat)) (cap pos : Nat) :
    cap ≤ (growSize items cap pos).1 := by
  induction items generalizing cap pos with
  | nil => exact Nat.le_refl _
  | cons item items ih =>
    refine Nat.le_trans ?_ (ih _ _)
    split <;> omega

/-- Where the reservations cover the items, all of them are written whole, and behind the last one
the rest of its reservation is free. -/
theorem growItems_whole (items : List (Nat × Bytes)) (slack : Nat)
    (covered : ∀ item ∈ items, item.2.length + slack ≤ item.1) {cursor : Cursor}
    (whole : cursor.Whole) :
    ∃ next, growItems items cursor = .done next ∧ next.Whole ∧
      next.text = cursor.text ++ items.flatMap Prod.snd ∧
      (next.cap, next.pos) =
        growSize (items.map fun item => (item.1, item.2.length)) cursor.cap cursor.pos ∧
      (items ≠ [] ∨ cursor.pos + slack < cursor.cap → next.pos + slack < next.cap) := by
  induction items generalizing cursor with
  | nil =>
    refine ⟨cursor, rfl, whole, (List.append_nil _).symm, rfl, fun room => ?_⟩
    exact room.resolve_left fun none => none rfl
  | cons item items ih =>
    obtain ⟨need, text⟩ := item
    obtain ⟨grown, sameText, samePos, room⟩ := Cursor.reserve_whole whole need
    have enough : text.length + slack ≤ need := covered (need, text) List.mem_cons_self
    obtain ⟨done, written⟩ := Cursor.printf_whole grown text (by omega)
    have rest : ∀ item ∈ items, item.2.length + slack ≤ item.1 :=
      fun item member => covered item (List.mem_cons_of_mem _ member)
    obtain ⟨next, nextDone, nextWhole, nextText, nextSize, nextRoom⟩ := ih rest written
    refine ⟨next, ?_, nextWhole, ?_, ?_, fun _ => nextRoom (.inr ?_)⟩
    · rw [growItems, done]
      exact nextDone
    · rw [nextText, sameText, List.flatMap_cons, List.append_assoc]
    · rw [nextSize, List.map_cons, growSize, samePos, Cursor.reserve]
      split <;> rfl
    · simp only [samePos]
      omega

/-- Behind a cut text the items grow the buffer and are not read any more. -/
theorem growItems_cut (items : List (Nat × Bytes))
    (covered : ∀ item ∈ items, item.2.length ≤ item.1) {cursor : Cursor}
    (cut : cursor.text.length < cursor.pos) (near : cursor.pos < cursor.cap * 2) :
    ∃ next, growItems items cursor = .done next ∧ next.text = cursor.text ∧
      next.text.length < next.pos ∧ (items ≠ [] → next.pos ≤ next.cap) := by
  induction items generalizing cursor with
  | nil => exact ⟨cursor, rfl, rfl, cut, fun none => absurd rfl none⟩
  | cons item items ih =>
    obtain ⟨need, text⟩ := item
    have enough : text.length ≤ need := covered (need, text) List.mem_cons_self
    obtain ⟨sameText, samePos, room, _⟩ := Cursor.reserve_spec cursor need near
    obtain ⟨between, done, text', cap', pos'⟩ := Cursor.printf_sealed (cursor.reserve need)
      (by rw [sameText, samePos]; exact cut) (by omega) text
    have rest : ∀ item ∈ items, item.2.length ≤ item.1 :=
      fun item member => covered item (List.mem_cons_of_mem _ member)
    obtain ⟨next, nextDone, nextText, nextCut, nextNear⟩ := ih rest
      (show between.text.length < between.pos by rw [text', sameText]; omega) (by omega)
    refine ⟨next, ?_, by rw [nextText, text', sameText], nextCut, fun _ => ?_⟩
    · rw [growItems, done]
      exact nextDone
    · by_cases last : items = []
      · subst last
        cases nextDone
        omega
      · exact nextNear last

end Library.Text
