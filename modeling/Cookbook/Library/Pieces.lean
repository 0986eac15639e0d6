import Mathlib.Data.List.Basic

/-!
# Exact reads over pieces

A source hands out an exact number of elements or nothing. One source knows its data in pieces and
never joins two of them for one read. A program of reads gets from it what it gets from the joined
data as long as each of its reads lies inside one piece.
-/
namespace Library.Pieces

variable {σ α : Type}

/-- A source of elements. -/
structure Source (σ α : Type) where
  /-- Read an exact number of elements: none of them where the read fails. -/
  read : σ → Nat → Option (List α) × σ

/-- A source that knows all of its data. -/
def whole : Source (List α) α where
  read data count :=
    if count ≤ data.length then (some (data.take count), data.drop count) else (none, [])

/-- A source that knows its data piece by piece: a read fails at an empty piece, and where the piece
in front is too short for it. -/
def pieces : Source (List (List α)) α where
  read
    | [], _ => (none, [])
    | piece :: rest, count =>
      if piece = [] ∨ piece.length < count then (none, rest)
      else if piece.length = count then (some piece, rest)
      else (some (piece.take count), piece.drop count :: rest)

/-- A source that joins pieces: it goes on with the next one until a read is complete. It fails behind
the last piece, and at an empty one. -/
def joined : Source (List (List α)) α where
  read list count := go list count
where
  /-- Collect elements from the pieces. -/
  go : List (List α) → Nat → Option (List α) × List (List α)
    | [], count => (if count = 0 then some [] else none, [])
    | piece :: rest, count =>
      if count = 0 then (some [], piece :: rest)
      else if piece = [] then (none, rest)
      else if count < piece.length then (some (piece.take count), piece.drop count :: rest)
      else
        let later := go rest (count - piece.length)
        (later.1.map (piece ++ ·), later.2)

/-- The elements from `start` on, `count` of them, lie in one piece, and no empty piece stands in
front of them. -/
def Unbroken : List (List α) → Nat → Nat → Prop
  | [], _, _ => False
  | piece :: rest, start, count =>
    if start < piece.length then start + count ≤ piece.length
    else 0 < start ∧ Unbroken rest (start - piece.length) count

/-- It can be decided. -/
instance decidableUnbroken : (list : List (List α)) → (start count : Nat) →
    Decidable (Unbroken list start count)
  | [], _, _ => isFalse id
  | piece :: rest, start, count =>
    have := decidableUnbroken rest (start - piece.length) count
    inferInstanceAs (Decidable (if start < piece.length then start + count ≤ piece.length
      else 0 < start ∧ Unbroken rest (start - piece.length) count))

/-- What is read in one piece is there. -/
theorem Unbroken.length_le {list : List (List α)} {start count : Nat}
    (unbroken : Unbroken list start count) : start + count ≤ list.flatten.length := by
  induction list generalizing start with
  | nil => exact unbroken.elim
  | cons piece rest ih =>
    unfold Unbroken at unbroken
    rw [List.flatten_cons, List.length_append]
    split at unbroken
    · omega
    · have later := ih unbroken.2
      omega

/-- In a single piece everything that is there is in one piece. -/
theorem unbroken_single {data : List α} {start count : Nat} (positive : 0 < count)
    (inside : start + count ≤ data.length) : Unbroken [data] start count := by
  unfold Unbroken
  rw [if_pos (by omega)]
  exact inside

/-- A read that hands something out: it lies in the first piece, and the data go on behind it. -/
theorem pieces_read_some {list rest : List (List α)} {data : List α} {count : Nat}
    (positive : 0 < count) (handed : pieces.read list count = (some data, rest)) :
    data.length = count ∧ Unbroken list 0 count ∧ list.flatten = data ++ rest.flatten ∧
      ∀ start more, Unbroken rest start more ↔ Unbroken list (count + start) more := by
  cases list with
  | nil => cases handed
  | cons piece later =>
    unfold pieces at handed
    dsimp only at handed
    split at handed
    · cases handed
    · rename_i ample
      rw [not_or] at ample
      have filled := List.length_pos_of_ne_nil ample.1
      have inside : Unbroken (piece :: later) 0 count := by
        unfold Unbroken
        rw [if_pos filled]
        omega
      split at handed
      · rename_i exactly
        cases handed
        refine ⟨exactly, inside, rfl, ?_⟩
        intro start more
        have here : count + start - data.length = start := by omega
        rw [Unbroken, if_neg (by omega), here]
        exact ⟨fun next => ⟨by omega, next⟩, fun both => both.2⟩
      · rename_i longer
        cases handed
        refine ⟨List.length_take_of_le (by omega), inside, ?_, ?_⟩
        · rw [List.flatten_cons, List.flatten_cons, ← List.append_assoc, List.take_append_drop]
        · intro start more
          have here : count + start - piece.length = start - (piece.length - count) := by omega
          rw [Unbroken, Unbroken, List.length_drop, here]
          split
          · rw [if_pos (by omega)]
            omega
          · rw [if_neg (by omega)]
            exact ⟨fun both => ⟨by omega, both.2⟩, fun both => ⟨by omega, both.2⟩⟩

/-- A read of elements in one piece hands them out. -/
theorem pieces_read_unbroken {list : List (List α)} {data after : List α} (joined : list.flatten = data ++ after)
    (unbroken : Unbroken list 0 data.length) :
    ∃ rest, pieces.read list data.length = (some data, rest) := by
  cases list with
  | nil => exact unbroken.elim
  | cons piece later =>
    have filled : 0 < piece.length := by
      unfold Unbroken at unbroken
      split at unbroken
      · assumption
      · exact absurd unbroken.1 (Nat.lt_irrefl 0)
    unfold Unbroken at unbroken
    rw [if_pos filled, Nat.zero_add] at unbroken
    have front : data = piece.take data.length := by
      have cut := congrArg (List.take data.length) joined
      rw [List.take_left, List.flatten_cons, List.take_append_of_le_length unbroken] at cut
      exact cut.symm
    have some : ¬(piece = [] ∨ piece.length < data.length) := by
      rw [not_or]
      exact ⟨List.ne_nil_of_length_pos filled, by omega⟩
    unfold pieces
    dsimp only
    rw [if_neg some]
    split
    · rename_i exactly
      rw [← exactly, List.take_length] at front
      exact ⟨later, by rw [front]⟩
    · exact ⟨piece.drop data.length :: later, by rw [← front]⟩

/-- A source reads like pieces: `holds` relates its states to the pieces that they still have. -/
structure Reads (source : Source σ α) (holds : σ → List (List α) → Prop) : Prop where
  /-- The same is handed out. -/
  hands : ∀ state list count, 0 < count → holds state list →
    (source.read state count).1 = (pieces.read list count).1
  /-- What is left is related. -/
  leaves : ∀ state list count data rest, 0 < count → holds state list →
    pieces.read list count = (some data, rest) → holds (source.read state count).2 rest

/-- The pieces of data that are known as a whole. -/
def onePiece (data : List α) : List (List α) := if data = [] then [] else [data]

/-- One piece joins to the data. -/
theorem onePiece_flatten (data : List α) : (onePiece data).flatten = data := by
  unfold onePiece
  split
  · rename_i empty
    rw [empty, List.flatten_nil]
  · rw [List.flatten_singleton]

/-- Everything is in one piece. -/
theorem onePiece_unbroken {data : List α} {start count : Nat} (positive : 0 < count)
    (inside : start + count ≤ data.length) : Unbroken (onePiece data) start count := by
  unfold onePiece
  rw [if_neg (List.ne_nil_of_length_pos (by omega))]
  exact unbroken_single positive inside

/-- A read of what is there. -/
theorem whole_read {data : List α} {count : Nat} (enough : count ≤ data.length) :
    whole.read data count = (some (data.take count), data.drop count) := if_pos enough

/-- A read of more than there is. -/
theorem whole_read_short {data : List α} {count : Nat} (short : data.length < count) :
    whole.read data count = (none, []) := if_neg (Nat.not_le.mpr short)

/-- A read of what is there from one piece. -/
theorem onePiece_read {data : List α} {count : Nat} (positive : 0 < count)
    (enough : count ≤ data.length) :
    pieces.read (onePiece data) count = (some (data.take count), onePiece (data.drop count)) := by
  have filled : data ≠ [] := List.ne_nil_of_length_pos (by omega)
  have read : pieces.read [data] count =
      if data.length = count then (some data, []) else (some (data.take count), [data.drop count]) :=
    if_neg (by rw [not_or]; exact ⟨filled, by omega⟩)
  unfold onePiece
  rw [if_neg filled, read]
  by_cases exactly : data.length = count
  · rw [if_pos exactly, ← exactly, List.take_length, List.drop_length, if_pos rfl]
  · have left : data.drop count ≠ [] :=
      List.ne_nil_of_length_pos (by rw [List.length_drop]; omega)
    rw [if_neg exactly, if_neg left]

/-- A read of more than there is from one piece. -/
theorem onePiece_read_short {data : List α} {count : Nat} (short : data.length < count) :
    (pieces.read (onePiece data) count).1 = none := by
  unfold onePiece
  by_cases empty : data = []
  · rw [if_pos empty]
    rfl
  · have read : pieces.read [data] count = (none, []) := if_pos (.inr short)
    rw [if_neg empty, read]

/-- Data that are known as a whole are one piece. -/
theorem whole_reads : Reads (whole (α := α)) fun data list => list = onePiece data := by
  constructor
  · intro data list count positive same
    rw [same]
    by_cases enough : count ≤ data.length
    · rw [whole_read enough, onePiece_read positive enough]
    · have short : data.length < count := by omega
      rw [whole_read_short short, onePiece_read_short short]
  · intro data list count handed rest positive same read
    rw [same] at read
    by_cases enough : count ≤ data.length
    · rw [onePiece_read positive enough] at read
      rw [whole_read enough]
      exact (congrArg Prod.snd read).symm
    · have nothing := onePiece_read_short (Nat.lt_of_not_le enough)
      rw [read] at nothing
      cases nothing

/-- A source that joins pieces hands out what is in front of the joined data. -/
theorem joined_read {list : List (List α)} (filled : ∀ piece ∈ list, piece ≠ []) (count : Nat) :
    (joined.read list count).1 = (whole.read list.flatten count).1 ∧
      (count ≤ list.flatten.length →
        (joined.read list count).2.flatten = (whole.read list.flatten count).2 ∧
          ∀ piece ∈ (joined.read list count).2, piece ≠ []) := by
  show (joined.go list count).1 = _ ∧ (_ → (joined.go list count).2.flatten = _ ∧
    ∀ piece ∈ (joined.go list count).2, piece ≠ [])
  unfold whole
  dsimp only
  induction list generalizing count with
  | nil =>
    unfold joined.go
    by_cases zero : count = 0
    · subst zero
      exact ⟨rfl, fun _ => ⟨rfl, fun _ member => absurd member List.not_mem_nil⟩⟩
    · rw [if_neg zero, List.flatten_nil, if_neg (by rw [List.length_nil]; omega)]
      refine ⟨rfl, fun enough => ?_⟩
      rw [List.length_nil] at enough
      omega
  | cons piece rest ih =>
    have here := filled piece List.mem_cons_self
    have later := fun other member => filled other (List.mem_cons_of_mem _ member)
    have positive := List.length_pos_of_ne_nil here
    unfold joined.go
    rw [List.flatten_cons, List.length_append]
    by_cases zero : count = 0
    · subst zero
      rw [if_pos rfl, if_pos (Nat.zero_le _)]
      exact ⟨rfl, fun _ => ⟨List.flatten_cons, filled⟩⟩
    · rw [if_neg zero, if_neg here]
      by_cases short : count < piece.length
      · rw [if_pos short, if_pos (by omega), List.take_append_of_le_length (by omega),
          List.drop_append_of_le_length (by omega)]
        refine ⟨rfl, fun _ => ⟨List.flatten_cons, ?_⟩⟩
        intro other member
        rcases List.mem_cons.mp member with same | behind
        · rw [same]
          exact List.ne_nil_of_length_pos (by rw [List.length_drop]; omega)
        · exact later other behind
      · obtain ⟨hands, leaves⟩ := ih later (count - piece.length)
        rw [if_neg short]
        dsimp only
        rw [hands]
        by_cases enough : count - piece.length ≤ rest.flatten.length
        · obtain ⟨behind, nonempty⟩ := leaves enough
          rw [if_pos enough] at behind ⊢
          rw [if_pos (by omega), List.take_append, List.drop_append,
            List.take_of_length_le (by omega : piece.length ≤ count),
            List.drop_of_length_le (by omega : piece.length ≤ count)]
          exact ⟨rfl, fun _ => ⟨behind, nonempty⟩⟩
        · rw [if_neg enough, if_neg (by omega)]
          exact ⟨rfl, fun inside => by omega⟩

/-- A source that joins pieces that are not empty reads like one piece. -/
theorem joined_reads : Reads (joined (α := α)) fun parts list =>
    (∀ part ∈ parts, part ≠ []) ∧ list = onePiece parts.flatten := by
  constructor
  · rintro parts list count positive ⟨filled, same⟩
    rw [(joined_read filled count).1]
    exact whole_reads.hands _ list count positive same
  · rintro parts list count data rest positive ⟨filled, same⟩ read
    have handed := whole_reads.hands _ list count positive same
    rw [read] at handed
    have enough : count ≤ parts.flatten.length := by
      unfold whole at handed
      dsimp only at handed
      split at handed
      · assumption
      · cases handed
    obtain ⟨behind, nonempty⟩ := (joined_read filled count).2 enough
    refine ⟨nonempty, ?_⟩
    rw [behind]
    exact whole_reads.leaves _ list count data rest positive same read

/-- A read from a source that reads like pieces, when it hands something out. -/
theorem Reads.handed {source : Source σ α} {holds : σ → List (List α) → Prop}
    (reads : Reads source holds) {state : σ} {list : List (List α)} {count : Nat} {data : List α}
    (positive : 0 < count) (related : holds state list)
    (handed : (source.read state count).1 = some data) :
    ∃ rest, holds (source.read state count).2 rest ∧ data.length = count ∧
      Unbroken list 0 count ∧ list.flatten = data ++ rest.flatten ∧
      ∀ start more, Unbroken rest start more ↔ Unbroken list (count + start) more := by
  have same := reads.hands state list count positive related
  have read : pieces.read list count = (some data, (pieces.read list count).2) := by
    rw [← handed, same]
  exact ⟨_, reads.leaves state list count data _ positive related read,
    pieces_read_some positive read⟩

/-- A read of elements in one piece from a source that reads like pieces. -/
theorem Reads.inFront {source : Source σ α} {holds : σ → List (List α) → Prop}
    (reads : Reads source holds) {state : σ} {list : List (List α)} {data after : List α}
    (positive : 0 < data.length) (related : holds state list)
    (joined : list.flatten = data ++ after) (inside : Unbroken list 0 data.length) :
    (source.read state data.length).1 = some data := by
  obtain ⟨rest, read⟩ := pieces_read_unbroken joined inside
  rw [reads.hands state list _ positive related, read]

end Library.Pieces
