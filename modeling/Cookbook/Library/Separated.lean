import Cookbook.Library.Text

/-!
# Lists in a text

A text lists its parts with a separator between them. An empty part behind the last separator is not
listed, and so an empty text lists nothing.
-/
namespace Library.Text

variable {α : Type} [DecidableEq α] {stop : α}

/-- The parts that a text lists. -/
def listed (stop : α) (text : List α) : List (List α) :=
  let parts := text.splitOn stop
  if parts.getLast? = some [] then parts.dropLast else parts

/-! ## Parts -/

/-- No part holds the separator. -/
theorem stop_notMem_part {text : List α} {part : List α} (member : part ∈ text.splitOn stop) :
    stop ∉ part := by
  induction text generalizing part with
  | nil =>
    obtain rfl : part = [] := by simpa [List.splitOn_nil] using member
    exact List.not_mem_nil
  | cons c text ih =>
    obtain ⟨first, rest, split⟩ := List.exists_cons_of_ne_nil (List.splitOn_ne_nil stop text)
    rw [List.splitOn_cons_eq_if_modifyHead, split] at member
    split_ifs at member with same
    · rcases List.mem_cons.mp member with rfl | later
      · exact List.not_mem_nil
      · exact ih (split ▸ later)
    · rw [List.modifyHead_cons] at member
      rcases List.mem_cons.mp member with rfl | later
      · rw [List.mem_cons, not_or]
        exact ⟨fun equal => same (by simp [equal]), ih (split ▸ List.mem_cons_self ..)⟩
      · exact ih (split ▸ List.mem_cons_of_mem _ later)

/-- What a text lists are parts of it. -/
theorem listed_subset {text part : List α} (member : part ∈ listed stop text) :
    part ∈ text.splitOn stop := by
  unfold listed at member
  simp only at member
  split_ifs at member
  · exact List.mem_of_mem_dropLast member
  · exact member

/-- There is one part more than separators. -/
theorem splitOn_length (stop : α) (text : List α) :
    (text.splitOn stop).length = text.count stop + 1 := by
  induction text with
  | nil => simp [List.splitOn_nil]
  | cons c text ih =>
    rw [List.splitOn_cons_eq_if_modifyHead]
    split_ifs with same
    · obtain rfl := eq_of_beq same
      rw [List.length_cons, ih, List.count_cons_self]
    · rw [List.length_modifyHead, ih, List.count_cons_of_ne (by simpa using same)]

/-- Between parts stand their separators. -/
theorem count_joined {parts : List (List α)} (free : ∀ part ∈ parts, stop ∉ part) :
    ([stop].intercalate parts).count stop = parts.length - 1 := by
  induction parts with
  | nil => rfl
  | cons part parts ih =>
    have own := List.count_eq_zero_of_not_mem (free part (List.mem_cons_self ..))
    have later := ih fun other member => free other (List.mem_cons_of_mem _ member)
    cases parts with
    | nil => simpa using own
    | cons next parts =>
      rw [List.intercalate_cons_cons, List.count_append, List.count_append, own, later]
      simp
      omega

omit [DecidableEq α] in
/-- What a part holds, the joined text holds. -/
theorem mem_joined {parts : List (List α)} {part : List α} (member : part ∈ parts) {c : α}
    (inside : c ∈ part) : c ∈ [stop].intercalate parts := by
  cases parts with
  | nil => cases member
  | cons first parts =>
    rw [intercalate_items, List.mem_append, List.mem_flatMap]
    rcases List.mem_cons.mp member with rfl | later
    · exact .inl inside
    · exact .inr ⟨part, later, List.mem_cons_of_mem _ inside⟩

/-- What a listed part holds, the text holds. -/
theorem mem_of_mem_listed {text part : List α} (member : part ∈ listed stop text) {c : α}
    (inside : c ∈ part) : c ∈ text := by
  have joined : [stop].intercalate (text.splitOn stop) = text := List.intercalate_splitOn stop
  exact joined ▸ mem_joined (listed_subset member) inside

/-! ## Lists -/

/-- Joined parts are listed when the last one is not empty. -/
theorem listed_joined {parts : List (List α)} (free : ∀ part ∈ parts, stop ∉ part)
    (last : parts.getLast? ≠ some []) : listed stop ([stop].intercalate parts) = parts := by
  cases parts with
  | nil => rfl
  | cons part parts =>
    have split := List.splitOn_intercalate stop free (List.cons_ne_nil part parts)
    unfold listed
    simp only [split]
    exact if_neg last

/-- Parts joined as some programs do it: no separator behind empty parts in front. -/
def joinedTight (stop : α) (parts : List (List α)) : List α :=
  [stop].intercalate (parts.dropWhile (· == []))

/-- Empty parts in front leave nothing. -/
theorem joinedTight_nil (parts : List (List α)) :
    joinedTight stop ([] :: parts) = joinedTight stop parts := by
  rw [joinedTight, List.dropWhile_cons_of_pos rfl, joinedTight]

/-- Behind a first part that is not empty all separators stand. -/
theorem joinedTight_cons {part : List α} (some : part ≠ []) (parts : List (List α)) :
    joinedTight stop (part :: parts) = part ++ parts.flatMap (stop :: ·) := by
  rw [joinedTight, List.dropWhile_cons_of_neg (by simpa using some), intercalate_items]

/-- Without an empty part in front all separators stand. -/
theorem joinedTight_eq {parts : List (List α)} (first : parts.head? ≠ some []) :
    joinedTight stop parts = [stop].intercalate parts := by
  cases parts with
  | nil => rfl
  | cons part parts =>
    rw [joinedTight, List.dropWhile_cons_of_neg fun empty => first (by simp_all)]

/-- The joined text starts like the first part that is not empty. -/
theorem joinedTight_head (parts : List (List α)) :
    (joinedTight stop parts).head? = parts.flatten.head? := by
  induction parts with
  | nil => rfl
  | cons part parts ih =>
    cases part with
    | nil => rw [joinedTight_nil, ih, List.flatten_cons, List.nil_append]
    | cons c part => rw [joinedTight_cons (List.cons_ne_nil _ _)]; rfl

/-- A text that starts tightly joined parts lists as many of them as there are only where no part in
front is empty; it is then the list that is joined, and its last part is not empty. -/
theorem listed_tight {parts names : List (List α)} {text : List α}
    (free : ∀ part ∈ parts, stop ∉ part) (front : text <+: joinedTight stop parts)
    (count : names.length = parts.length) (some : parts ≠ []) (same : listed stop text = names) :
    parts.head? ≠ .some [] ∧ names.head? ≠ .some [] ∧ names.getLast? ≠ .some [] ∧
      [stop].intercalate names = text := by
  have kept := List.dropWhile_suffix (l := parts) (· == [])
  have free' : ∀ part ∈ parts.dropWhile (· == []), stop ∉ part := fun part member =>
    free part (kept.subset member)
  have separators : text.count stop ≤ (parts.dropWhile (· == [])).length - 1 :=
    (front.sublist.count_le stop).trans_eq (count_joined free')
  have pieces := splitOn_length stop text
  have fewer := kept.length_le
  have present := List.length_pos_of_ne_nil some
  have last : (text.splitOn stop).getLast? ≠ .some [] := by
    intro empty
    have dropped : names = (text.splitOn stop).dropLast := by
      rw [← same]
      exact if_pos empty
    have size := congrArg List.length dropped
    rw [List.length_dropLast] at size
    omega
  have whole : names = text.splitOn stop := by
    rw [← same]
    exact if_neg last
  have joined : [stop].intercalate names = text := whole ▸ List.intercalate_splitOn stop
  have size := congrArg List.length whole
  have nonempty : text ≠ [] := by
    rintro rfl
    exact last (by simp [List.splitOn_nil])
  have tight : parts.dropWhile (· == []) = parts := by
    refine kept.eq_of_length ?_
    have some' : parts.dropWhile (· == []) ≠ [] := fun none => by
      rw [joinedTight, none] at front
      exact nonempty (List.prefix_nil.mp front)
    have := List.length_pos_of_ne_nil some'
    omega
  have first : parts.head? ≠ .some [] := by
    intro empty
    obtain ⟨rest, rfl⟩ := List.head?_eq_some_iff.mp empty
    have shorter := (List.dropWhile_suffix (l := rest) (· == [])).length_le
    rw [List.dropWhile_cons_of_pos rfl] at tight
    have := congrArg List.length tight
    rw [List.length_cons] at this
    omega
  refine ⟨first, fun empty => ?_, whole ▸ last, joined⟩
  obtain ⟨rest, rfl⟩ := List.head?_eq_some_iff.mp empty
  obtain ⟨part, others, rfl⟩ := List.exists_cons_of_ne_nil some
  cases rest with
  | nil => exact last (whole ▸ rfl)
  | cons next rest =>
    -- the text starts with a separator, and the parts do not
    rw [List.intercalate_cons_cons, List.nil_append, List.singleton_append] at joined
    rw [joinedTight, tight, ← joined] at front
    cases part with
    | nil => exact first rfl
    | cons c part =>
      obtain ⟨more, starts⟩ : ∃ more, [stop].intercalate ((c :: part) :: others) = c :: more := by
        cases others <;> simp [List.intercalate_cons_cons]
      rw [starts, List.cons_prefix_cons] at front
      exact free _ (List.mem_cons_self ..) (front.1 ▸ List.mem_cons_self ..)

/-! ## Texts in front of a delimiter -/

/-- What stands in front of the first delimiter does not depend on what stands behind a later one. -/
theorem takeWhile_delimited (run rest : List α) :
    (run ++ stop :: rest).takeWhile (· != stop) = run.takeWhile (· != stop) := by
  induction run with
  | nil => simp
  | cons c run ih => simp only [List.cons_append, List.takeWhile_cons, ih]

end Library.Text
