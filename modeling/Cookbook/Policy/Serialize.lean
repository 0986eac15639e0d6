import Cookbook.Library.Buffer
import Cookbook.Policy.Documents

/-!
# Writing resolved policies

`serializeEntries` is the writing half of `serialize_grants_json`: it prints the grants and the
excluded keys of a resolved policy into a growing buffer. The buffer is grown in front of every
entry and in front of the closing braces, but not in front of the text between the two maps.
-/
namespace Cookbook.Policy

open Library.Text

/-- Grow the buffer, print a comma behind an earlier item, and print the item. -/
def printItem (index need : Nat) (item : Bytes) (cursor : Cursor) : Outcome Cursor :=
  (if 0 < index then (cursor.reserve need).printf [comma] else .done (cursor.reserve need)).bind
    fun cursor => cursor.printf item

/-- The grants loop, from the entry with this index on. -/
def writeGrantEntries : List (Bytes × Bytes) → Nat → Cursor → Outcome Cursor
  | [], _, cursor => .done cursor
  | (key, val) :: rest, index, cursor =>
    (printItem index (key.length + val.length + 16) (grantItem (key, val)) cursor).bind
      (writeGrantEntries rest (index + 1))

/-- The exclude loop, from the key with this index on. -/
def writeExcludeKeys : List Bytes → Nat → Cursor → Outcome Cursor
  | [], _, cursor => .done cursor
  | key :: rest, index, cursor =>
    (printItem index (key.length + 16) (excludeItem key) cursor).bind
      (writeExcludeKeys rest (index + 1))

/-- `if (pos + 4 >= cap) cap += 16` in front of the closing braces. -/
def reserveEnd (cursor : Cursor) : Cursor :=
  if cursor.cap ≤ cursor.pos + 4 then { cursor with cap := cursor.cap + 16 } else cursor

/-- `serialize_grants_json` on the entries it prints. -/
def serializeEntries (grants : List (Bytes × Bytes)) (keys : List Bytes) : Outcome Bytes := do
  let cursor ← (Cursor.empty 256).printf (openBrace :: grantsMarker)
  let cursor ← writeGrantEntries grants 0 cursor
  let cursor ← cursor.printf (closeBrace :: comma :: excludeMarker)
  let cursor ← writeExcludeKeys keys 0 cursor
  let cursor ← (reserveEnd cursor).printf [closeBrace, closeBrace]
  return cursor.text

/-! ## What is printed -/

/-- The items behind the first one carry their comma. -/
def printed (items : List Bytes) (index : Nat) : Bytes :=
  if 0 < index then items.flatMap (comma :: ·) else [comma].intercalate items

/-- The first item of a list and the rest. -/
theorem printed_cons (item : Bytes) (items : List Bytes) (index : Nat) :
    printed (item :: items) index =
      (if 0 < index then [comma] else []) ++ item ++ printed items (index + 1) := by
  by_cases first : 0 < index <;> simp [printed, first, intercalate_items]

/-- The size of the buffer and the position behind the grants loop. -/
def afterGrants : List (Bytes × Bytes) → Nat → Nat → Nat → Nat × Nat
  | [], _, cap, pos => (cap, pos)
  | (key, val) :: rest, index, cap, pos =>
    let need := key.length + val.length + 16
    let cap := if cap ≤ pos + need then cap * 2 + need else cap
    afterGrants rest (index + 1) cap
      (pos + (if 0 < index then 1 else 0) + (key.length + val.length + 5))

/-- The text between the two maps: `},"exclude":{`. -/
def middle : Bytes := closeBrace :: comma :: excludeMarker

/-- The text between the maps has 13 bytes. -/
theorem middle_length : middle.length = 13 := by decide

/-- The buffer still has room for the text between the maps. -/
def MiddleFits (grants : List (Bytes × Bytes)) : Prop :=
  (afterGrants grants 0 256 11).2 + 13 < (afterGrants grants 0 256 11).1

instance (grants : List (Bytes × Bytes)) : Decidable (MiddleFits grants) :=
  inferInstanceAs (Decidable (_ < _))

/-- An item and its comma are appended whole behind a reservation of the item and two bytes. -/
theorem printItem_whole {cursor : Cursor} (whole : cursor.Whole) (index : Nat) (need : Nat)
    (item : Bytes) (enough : item.length + 2 ≤ need) :
    ∃ next, printItem index need item cursor = .done next ∧ next.Whole ∧
      next.cap = (cursor.reserve need).cap ∧
      next.text = cursor.text ++ (if 0 < index then [comma] else []) ++ item ∧
      next.pos = cursor.pos + (if 0 < index then 1 else 0) + item.length := by
  obtain ⟨grown, text, pos, room⟩ := Cursor.reserve_whole whole need
  by_cases first : 0 < index
  · obtain ⟨comma, separated⟩ := Cursor.printf_whole grown [comma]
      (by simp only [List.length_singleton]; omega)
    obtain ⟨done, printed⟩ := Cursor.printf_whole separated item
      (by simp only [List.length_singleton]; omega)
    refine ⟨_, ?_, printed, ?_⟩
    · simp only [printItem, first, ↓reduceIte, comma, Outcome.bind]
      exact done
    · simp [first, text, pos]
  · obtain ⟨done, printed⟩ := Cursor.printf_whole grown item (by omega)
    refine ⟨_, ?_, printed, ?_⟩
    · simp only [printItem, first, ↓reduceIte, Outcome.bind]
      exact done
    · simp [first, text, pos]

/-- The grants loop prints every entry and leaves at least eleven bytes of room. -/
theorem writeGrantEntries_spec (grants : List (Bytes × Bytes)) (index : Nat) {cursor : Cursor}
    (whole : cursor.Whole) (room : cursor.pos + 10 < cursor.cap) :
    ∃ next, writeGrantEntries grants index cursor = .done next ∧ next.Whole ∧
      next.text = cursor.text ++ printed (grants.map grantItem) index ∧
      (next.cap, next.pos) = afterGrants grants index cursor.cap cursor.pos ∧
      next.pos + 10 < next.cap := by
  induction grants generalizing index cursor with
  | nil => exact ⟨cursor, rfl, whole, by simp [printed], rfl, room⟩
  | cons entry grants ih =>
    obtain ⟨key, val⟩ := entry
    have length : (grantItem (key, val)).length = key.length + val.length + 5 := by
      simp only [grantItem, List.length_cons, List.length_append, List.length_nil]
      omega
    have grown := (Cursor.reserve_whole whole (key.length + val.length + 16)).2.2.2
    obtain ⟨next, done, nextWhole, cap, text, pos⟩ := printItem_whole whole index
      (key.length + val.length + 16) (grantItem (key, val)) (by omega)
    have nextRoom : next.pos + 10 < next.cap := by
      rw [pos, cap, length]
      split <;> omega
    obtain ⟨last, lastDone, lastWhole, lastText, lastSize, lastRoom⟩ :=
      ih (index + 1) nextWhole nextRoom
    refine ⟨last, ?_, lastWhole, ?_, ?_, lastRoom⟩
    · rw [writeGrantEntries, done]
      exact lastDone
    · rw [lastText, text, List.map_cons, printed_cons]
      simp [List.append_assoc]
    · rw [lastSize, afterGrants, cap, pos, length, Cursor.reserve]
      split <;> rfl

/-- The exclude loop prints every key. -/
theorem writeExcludeKeys_spec (keys : List Bytes) (index : Nat) {cursor : Cursor}
    (whole : cursor.Whole) :
    ∃ next, writeExcludeKeys keys index cursor = .done next ∧ next.Whole ∧
      next.text = cursor.text ++ printed (keys.map excludeItem) index := by
  induction keys generalizing index cursor with
  | nil => exact ⟨cursor, rfl, whole, by simp [printed]⟩
  | cons key keys ih =>
    obtain ⟨next, done, nextWhole, _, text, _⟩ := printItem_whole whole index (key.length + 16)
      (excludeItem key)
      (by simp only [excludeItem, ascii, List.length_cons, List.length_append]; simp)
    obtain ⟨last, lastDone, lastWhole, lastText⟩ := ih (index + 1) nextWhole
    refine ⟨last, ?_, lastWhole, ?_⟩
    · rw [writeExcludeKeys, done]
      exact lastDone
    · rw [lastText, text, List.map_cons, printed_cons]
      simp [List.append_assoc]

/-- A buffer whose text was cut, with the position within reach of the next growth. -/
structure Cut (cursor : Cursor) : Prop where
  /-- The terminator stands in front of the position. -/
  ended : cursor.text.length < cursor.pos
  /-- The next growth covers the position. -/
  near : cursor.pos ≤ cursor.cap + 2
  /-- The buffer has its initial size at least. -/
  large : 256 ≤ cursor.cap

/-- Behind a cut an item changes nothing that is read. -/
theorem printItem_cut {cursor : Cursor} (cut : Cut cursor) (index : Nat) (need : Nat)
    (item : Bytes) (enough : item.length + 2 ≤ need) :
    ∃ next, printItem index need item cursor = .done next ∧ Cut next ∧
      next.text = cursor.text := by
  obtain ⟨ended, near, large⟩ := cut
  obtain ⟨text, pos, room, larger⟩ := Cursor.reserve_spec cursor need (by omega)
  unfold printItem
  generalize cursor.reserve need = grown at text pos room larger
  by_cases first : 0 < index
  · obtain ⟨next, comma, nextText, nextCap, nextPos⟩ := Cursor.printf_sealed grown
      (by rw [text]; omega) (by omega) [comma]
    rw [List.length_singleton] at nextPos
    obtain ⟨last, done, lastText, lastCap, lastPos⟩ := Cursor.printf_sealed next
      (by rw [nextText, text]; omega) (by omega) item
    refine ⟨last, ?_, ⟨?_, by omega, by omega⟩, ?_⟩
    · simp only [first, ↓reduceIte, comma, Outcome.bind]
      exact done
    · rw [lastText, nextText, text]
      omega
    · rw [lastText, nextText, text]
  · obtain ⟨last, done, lastText, lastCap, lastPos⟩ := Cursor.printf_sealed grown
      (by rw [text]; omega) (by omega) item
    refine ⟨last, ?_, ⟨?_, by omega, by omega⟩, ?_⟩
    · simp only [first, ↓reduceIte, Outcome.bind]
      exact done
    · rw [lastText, text]
      omega
    · rw [lastText, text]

/-- Behind a cut the exclude loop changes nothing that is read. -/
theorem writeExcludeKeys_cut (keys : List Bytes) (index : Nat) {cursor : Cursor}
    (cut : Cut cursor) :
    ∃ next, writeExcludeKeys keys index cursor = .done next ∧ Cut next ∧
      next.text = cursor.text := by
  induction keys generalizing index cursor with
  | nil => exact ⟨cursor, rfl, cut, rfl⟩
  | cons key keys ih =>
    obtain ⟨next, done, nextCut, nextText⟩ := printItem_cut cut index (key.length + 16)
      (excludeItem key)
      (by simp only [excludeItem, ascii, List.length_cons, List.length_append]; simp)
    obtain ⟨last, lastDone, lastCut, lastText⟩ := ih (index + 1) nextCut
    refine ⟨last, ?_, lastCut, lastText.trans nextText⟩
    rw [writeExcludeKeys, done]
    exact lastDone

/-- The buffer only grows. -/
theorem afterGrants_cap (grants : List (Bytes × Bytes)) (index cap pos : Nat) :
    cap ≤ (afterGrants grants index cap pos).1 := by
  induction grants generalizing index cap pos with
  | nil => exact Nat.le_refl _
  | cons entry grants ih =>
    refine Nat.le_trans ?_ (ih _ _ _)
    split <;> omega

/-- The buffer behind the grants, with the header and every entry in it. -/
theorem grants_written (grants : List (Bytes × Bytes)) :
    ∃ start cursor, (Cursor.empty 256).printf (openBrace :: grantsMarker) = .done start ∧
      writeGrantEntries grants 0 start = .done cursor ∧ cursor.Whole ∧
      cursor.text = openBrace :: (grantsMarker ++ [comma].intercalate (grants.map grantItem)) ∧
      (cursor.cap, cursor.pos) = afterGrants grants 0 256 11 ∧ cursor.pos + 10 < cursor.cap ∧
      256 ≤ cursor.cap := by
  have length : (openBrace :: grantsMarker).length = 11 := by decide
  obtain ⟨header, start⟩ := Cursor.printf_whole (Cursor.empty_whole (by decide : 0 < 256))
    (openBrace :: grantsMarker) (by rw [length]; decide)
  obtain ⟨cursor, done, whole, text, size, room⟩ := writeGrantEntries_spec grants 0 start
    (by rw [length]; decide)
  refine ⟨_, cursor, header, done, whole, ?_, ?_, room, ?_⟩
  · rw [text]
    simp [printed, Cursor.empty]
  · rw [size, length]
    rfl
  · have size' := congrArg Prod.fst size
    simp only at size'
    rw [size', length]
    exact afterGrants_cap grants 0 256 11

/-- With room for the text between the maps the complete document is printed. -/
theorem serializeEntries_fits {grants : List (Bytes × Bytes)} (keys : List Bytes)
    (fits : MiddleFits grants) :
    serializeEntries grants keys = .done (openBrace :: (grantsMarker ++
      [comma].intercalate (grants.map grantItem) ++ closeBrace :: comma ::
        (excludeMarker ++ [comma].intercalate (keys.map excludeItem) ++
          [closeBrace, closeBrace]))) := by
  obtain ⟨start, cursor, header, entries, whole, text, size, _⟩ := grants_written grants
  have room : cursor.pos + middle.length < cursor.cap := by
    simp only [MiddleFits, ← size] at fits
    simpa [middle_length] using fits
  obtain ⟨between, betweenWhole⟩ := Cursor.printf_whole whole _ room
  obtain ⟨next, keysDone, nextWhole, nextText⟩ := writeExcludeKeys_spec keys 0 betweenWhole
  have grown : (reserveEnd next).Whole ∧ (reserveEnd next).text = next.text ∧
      (reserveEnd next).pos + 2 < (reserveEnd next).cap := by
    have exact' := nextWhole.exact
    have inside := nextWhole.room
    unfold reserveEnd
    split
    · exact ⟨⟨exact', by simp only; omega⟩, rfl, by simp only; omega⟩
    · exact ⟨nextWhole, rfl, by omega⟩
  obtain ⟨done, _⟩ := Cursor.printf_whole grown.1 [closeBrace, closeBrace]
    (by simpa using grown.2.2)
  change ((Cursor.empty 256).printf _ >>= _) = _
  rw [header, Outcome.done_bind, entries, Outcome.done_bind]
  change (cursor.printf middle >>= _) = _
  rw [between, Outcome.done_bind, keysDone, Outcome.done_bind, done, Outcome.done_bind]
  change Outcome.done _ = _
  simp only [grown.2.1, nextText, text, printed, Nat.lt_irrefl, ↓reduceIte, middle]
  simp [List.append_assoc]

/-- Without that room the document ends inside the text between the maps. -/
theorem serializeEntries_cut {grants : List (Bytes × Bytes)} (keys : List Bytes)
    (cut : ¬ MiddleFits grants) :
    ∃ kept, 10 ≤ kept ∧ kept < 13 ∧ serializeEntries grants keys =
      .done (openBrace :: (grantsMarker ++ [comma].intercalate (grants.map grantItem) ++
        middle.take kept)) := by
  obtain ⟨start, cursor, header, entries, whole, text, size, room, large⟩ := grants_written grants
  have crowded : cursor.cap ≤ cursor.pos + 13 := by
    simp only [MiddleFits, ← size, Nat.not_lt] at cut
    exact cut
  have exact' := whole.exact
  have between := Cursor.printf_cut whole middle
  have ended : Cut ⟨cursor.cap, cursor.text ++ middle.take (cursor.cap - cursor.pos - 1),
      cursor.pos + middle.length⟩ := by
    refine ⟨?_, ?_, large⟩ <;>
      simp only [List.length_append, List.length_take, middle_length] <;> omega
  obtain ⟨next, keysDone, nextCut, nextText⟩ := writeExcludeKeys_cut keys 0 ended
  obtain ⟨sealed, near, nextLarge⟩ := nextCut
  have grown : (reserveEnd next).text = next.text ∧ (reserveEnd next).pos = next.pos ∧
      next.pos ≤ (reserveEnd next).cap := by
    unfold reserveEnd
    split
    · exact ⟨rfl, rfl, by simp only; omega⟩
    · exact ⟨rfl, rfl, by omega⟩
  obtain ⟨last, done, lastText, _⟩ := Cursor.printf_sealed (reserveEnd next)
    (by rw [grown.1, grown.2.1]; exact sealed) (by rw [grown.2.1]; exact grown.2.2)
    [closeBrace, closeBrace]
  refine ⟨cursor.cap - cursor.pos - 1, by omega, by omega, ?_⟩
  change ((Cursor.empty 256).printf _ >>= _) = _
  rw [header, Outcome.done_bind, entries, Outcome.done_bind]
  change (cursor.printf middle >>= _) = _
  rw [between, Outcome.done_bind, keysDone, Outcome.done_bind, done, Outcome.done_bind]
  change Outcome.done _ = _
  rw [lastText, grown.1, nextText]
  simp [text, List.append_assoc]

/-- The maps of a policy are written whole when the text between them fits. -/
theorem serialize_wrapped {grants : GrantMap} (excludes : ExcludeMap)
    (fits : MiddleFits grants.entries) :
    serializeEntries grants.entries excludes.keys = .done (wrapped grants excludes) := by
  rw [serializeEntries_fits _ fits]
  simp [wrapped, GrantMap.body, ExcludeMap.body]

end Cookbook.Policy
