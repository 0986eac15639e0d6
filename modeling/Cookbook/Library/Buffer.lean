import Cookbook.Library.Text

/-!
# Writes into buffers of a fixed size

A program that writes past the end of a buffer has no defined result. `Outcome` keeps such a run
apart from every value the program can return.
-/
namespace Library.Text

/-- The result of a computation that may write outside a buffer. -/
inductive Outcome (α : Type)
  /-- The computation ends with a value. -/
  | done (value : α)
  /-- A write fell outside its buffer. -/
  | overrun
  deriving DecidableEq, Repr

namespace Outcome

variable {α β : Type}

/-- Continue with the value of a computation that stayed inside its buffers. -/
def bind (outcome : Outcome α) (next : α → Outcome β) : Outcome β :=
  match outcome with
  | done value => next value
  | overrun => overrun

instance : Monad Outcome where
  pure := done
  bind := bind

/-- A value goes into the rest. -/
@[simp] theorem bind_done (value : α) (next : α → Outcome β) : (done value).bind next = next value :=
  rfl

/-- Behind an overrun nothing runs. -/
@[simp] theorem bind_overrun (next : α → Outcome β) : (overrun : Outcome α).bind next = overrun :=
  rfl

/-- A value is handed on. -/
@[simp] theorem done_bind (value : α) (next : α → Outcome β) :
    (done value >>= next) = next value := rfl

/-- An overrun stays one. -/
@[simp] theorem overrun_bind (next : α → Outcome β) : ((overrun : Outcome α) >>= next) = overrun :=
  rfl

end Outcome

/-- A computation that ends has ended in all of its parts. -/
theorem bind_eq_done {α β : Type} {first : Outcome α} {next : α → Outcome β} {value : β}
    (ends : first.bind next = .done value) : ∃ found, first = .done found ∧ next found = .done value := by
  cases first with
  | done found => exact ⟨found, rfl, ends⟩
  | overrun => cases ends

/-- A text and its terminator written to a buffer of `cap` bytes. -/
def fitted (cap : Nat) (text : Bytes) : Outcome Bytes :=
  if text.length < cap then .done text else .overrun

/-- What `snprintf` leaves in a buffer of `size` bytes: the text, cut to make room for the
terminator. -/
def snprintf (size : Nat) (text : Bytes) : Bytes := text.take (size - 1)

/-- A text that fits is written whole. -/
theorem snprintf_fits {size : Nat} {text : Bytes} (fits : text.length < size) :
    snprintf size text = text := List.take_of_length_le (by omega)

/-! ## Appending with a counted position -/

/-- A buffer written by a chain of `pos += snprintf(buf + pos, cap - pos, ...)`. The position counts
the untruncated lengths; the text is what a reader of the buffer finds before the terminator. -/
structure Cursor where
  /-- The size of the buffer. -/
  cap : Nat
  /-- The text before the first terminator. -/
  text : Bytes
  /-- The counted position. -/
  pos : Nat

namespace Cursor

/-- An empty buffer. -/
def empty (cap : Nat) : Cursor := ⟨cap, [], 0⟩

/-- One `snprintf` at the position. Behind the end of the buffer the size argument wraps around and
the write lands outside; behind a terminator left by a cut text the write is not read any more. -/
def printf (cursor : Cursor) (text : Bytes) : Outcome Cursor :=
  if cursor.cap < cursor.pos then .overrun
  else .done
    { cursor with
      text :=
        if cursor.text.length = cursor.pos then
          cursor.text ++ text.take (cursor.cap - cursor.pos - 1)
        else cursor.text
      pos := cursor.pos + text.length }

/-- `if (pos + need >= cap)` grow the buffer to `cap * 2 + need`. -/
def reserve (cursor : Cursor) (need : Nat) : Cursor :=
  if cursor.cap ≤ cursor.pos + need then { cursor with cap := cursor.cap * 2 + need } else cursor

/-- Nothing written so far was cut. -/
structure Whole (cursor : Cursor) : Prop where
  /-- The position is the length of the text. -/
  exact : cursor.text.length = cursor.pos
  /-- The terminator has its place. -/
  room : cursor.pos < cursor.cap

/-- A new buffer of positive size is whole. -/
theorem empty_whole {cap : Nat} (positive : 0 < cap) : (empty cap).Whole := ⟨rfl, positive⟩

/-- Growing keeps a whole buffer whole, and leaves the room asked for. -/
theorem reserve_whole {cursor : Cursor} (whole : cursor.Whole) (need : Nat) :
    (cursor.reserve need).Whole ∧ (cursor.reserve need).text = cursor.text ∧
      (cursor.reserve need).pos = cursor.pos ∧ cursor.pos + need < (cursor.reserve need).cap := by
  have room := whole.room
  unfold reserve
  split
  · refine ⟨⟨whole.exact, ?_⟩, rfl, rfl, ?_⟩ <;> simp only <;> omega
  · exact ⟨whole, rfl, rfl, by omega⟩

/-- A text that fits is appended whole. -/
theorem printf_whole {cursor : Cursor} (whole : cursor.Whole) (text : Bytes)
    (fits : cursor.pos + text.length < cursor.cap) :
    cursor.printf text = .done ⟨cursor.cap, cursor.text ++ text, cursor.pos + text.length⟩ ∧
      (⟨cursor.cap, cursor.text ++ text, cursor.pos + text.length⟩ : Cursor).Whole := by
  have inside : ¬ cursor.cap < cursor.pos := by omega
  refine ⟨?_, ⟨by simp [whole.exact], fits⟩⟩
  simp only [printf, if_neg inside, whole.exact, ↓reduceIte]
  rw [List.take_of_length_le (by omega)]

/-- A text that does not fit is cut at the end of the buffer. -/
theorem printf_cut {cursor : Cursor} (whole : cursor.Whole) (text : Bytes) :
    cursor.printf text = .done ⟨cursor.cap,
      cursor.text ++ text.take (cursor.cap - cursor.pos - 1), cursor.pos + text.length⟩ := by
  have room := whole.room
  simp only [printf, if_neg (by omega : ¬ cursor.cap < cursor.pos), whole.exact, ↓reduceIte]

/-- Behind a cut text nothing more is read. -/
theorem printf_sealed (cursor : Cursor) (cut : cursor.text.length < cursor.pos)
    (inside : cursor.pos ≤ cursor.cap) (text : Bytes) :
    ∃ next, cursor.printf text = .done next ∧ next.text = cursor.text ∧
      next.cap = cursor.cap ∧ next.pos = cursor.pos + text.length := by
  refine ⟨⟨cursor.cap, cursor.text, cursor.pos + text.length⟩, ?_, rfl, rfl, rfl⟩
  simp only [printf, if_neg (by omega : ¬ cursor.cap < cursor.pos),
    if_neg (by omega : ¬ cursor.text.length = cursor.pos)]

/-- The buffer behind a chain of writes: as much of the text as fits, and its full length. -/
def ofText (cap : Nat) (text : Bytes) : Cursor := ⟨cap, text.take (cap - 1), text.length⟩

/-- A chain of writes goes on, until one starts behind the end of the buffer. -/
theorem ofText_printf {cap : Nat} (positive : 0 < cap) (text more : Bytes) :
    (ofText cap text).printf more =
      if cap < text.length then .overrun else .done (ofText cap (text ++ more)) := by
  by_cases outside : cap < text.length
  · rw [if_pos outside]
    exact if_pos outside
  · rw [if_neg outside]
    refine (if_neg outside).trans ?_
    simp only [ofText, List.length_append, List.length_take, List.take_append]
    by_cases whole : text.length ≤ cap - 1
    · simp only [Nat.min_eq_right whole, ↓reduceIte]
      rw [show cap - text.length - 1 = cap - 1 - text.length by omega]
    · rw [if_neg (by omega), show cap - 1 - text.length = 0 by omega]
      simp

/-- A new buffer is the start of a chain. -/
theorem empty_eq_ofText (cap : Nat) : empty cap = ofText cap [] := by simp [empty, ofText]

/-- A chain of writes goes on with the next one, or ends outside the buffer. -/
theorem ofText_bind {α : Type} {cap : Nat} (positive : 0 < cap) (text more : Bytes)
    (next : Cursor → Outcome α) :
    ((ofText cap text).printf more).bind next =
      if cap < text.length then .overrun else next (ofText cap (text ++ more)) := by
  rw [ofText_printf positive]
  split <;> rfl

/-- A chain whose text fits has written it whole. -/
theorem ofText_text {cap : Nat} {text : Bytes} (fits : text.length < cap) :
    (ofText cap text).text = text := List.take_of_length_le (by omega)

/-- Growing keeps the text and the position, and makes room once the position is in reach. -/
theorem reserve_spec (cursor : Cursor) (need : Nat) (near : cursor.pos < cursor.cap * 2) :
    (cursor.reserve need).text = cursor.text ∧ (cursor.reserve need).pos = cursor.pos ∧
      cursor.pos + need < (cursor.reserve need).cap ∧ cursor.cap ≤ (cursor.reserve need).cap := by
  unfold reserve
  split
  · refine ⟨rfl, rfl, ?_, ?_⟩ <;> simp only <;> omega
  · exact ⟨rfl, rfl, by omega, Nat.le_refl _⟩

end Cursor

end Library.Text
