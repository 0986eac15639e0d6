import Mathlib.Data.List.Infix

/-!
# Collecting what arrives

A reader appends what arrives to a buffer that it enlarges, and stops when a test holds of what it has,
when nothing arrives any more, or when the buffer may not grow. What it ends with is the first arrival
that passes the test, and the last one where none does.
-/
namespace Library.Collect

variable {α : Type}

/-- What one call hands out of the parts that are waiting, into a buffer with some room. -/
def receive (room : Nat) : List (List α) → Option (List α × List (List α))
  | [] => none
  | part :: rest =>
    if part = [] then none
    else if part.length ≤ room then some (part, rest)
    else some (part.take room, part.drop room :: rest)

/-- A call with room hands out something that fits, and the rest is what was behind it. -/
theorem receive_some {room : Nat} (positive : 0 < room) {parts rest : List (List α)} {handed : List α}
    (received : receive room parts = some (handed, rest)) :
    0 < handed.length ∧ handed.length ≤ room ∧ parts.flatten = handed ++ rest.flatten := by
  cases parts with
  | nil => cases received
  | cons part later =>
    unfold receive at received
    dsimp only at received
    by_cases empty : part = []
    · rw [if_pos empty] at received
      cases received
    · have filled := List.length_pos_of_ne_nil empty
      rw [if_neg empty] at received
      by_cases short : part.length ≤ room
      · rw [if_pos short] at received
        cases received
        exact ⟨filled, short, List.flatten_cons⟩
      · rw [if_neg short] at received
        cases received
        have cut : (part.take room).length = room := List.length_take_of_le (by omega)
        refine ⟨by omega, by omega, ?_⟩
        · rw [List.flatten_cons, List.flatten_cons, ← List.append_assoc, List.take_append_drop]

/-- The size of a buffer with `cap` bytes that holds `total`, where it may still grow. -/
abbrev Growth := Nat → Nat → Option Nat

/-- A buffer that grows leaves room for a byte besides the terminator. -/
def Growth.Roomy (grow : Growth) : Prop :=
  ∀ cap total larger, total < cap → grow cap total = some larger → total + 1 < larger

variable (grow : Growth)

/-- Collect until the test holds: none when the rounds are used up. -/
def collect (complete : List α → Bool) : Nat → Nat → List α → List (List α) → Option (List α)
  | 0, _, _, _ => none
  | rounds + 1, cap, got, parts =>
    match grow cap got.length with
    | none => some got
    | some cap =>
      match receive (cap - 1 - got.length) parts with
      | none => some got
      | some (handed, rest) =>
        if complete (got ++ handed) then some (got ++ handed)
        else collect complete rounds cap (got ++ handed) rest

/-- What the buffer holds after each call, without a test. -/
def arrivals : Nat → Nat → List α → List (List α) → List (List α)
  | 0, _, _, _ => []
  | rounds + 1, cap, got, parts =>
    match grow cap got.length with
    | none => []
    | some cap =>
      match receive (cap - 1 - got.length) parts with
      | none => []
      | some (handed, rest) => (got ++ handed) :: arrivals rounds cap (got ++ handed) rest

/-- The first one that passes the test, or the last one. -/
def firstComplete (complete : List α → Bool) (start : List α) (points : List (List α)) : List α :=
  (points.find? complete).getD (points.getLastD start)

/-- Reading stops at a point: it is one of the arrivals, none before it passes the test, and it passes
itself or is the last. -/
def StopsAt (complete : List α → Bool) (points : List (List α)) (target : List α) : Prop :=
  ∃ before after, points = before ++ target :: after ∧ (∀ point ∈ before, complete point = false) ∧
    (complete target = true ∨ after = [])

variable {grow}

/-- With a round for every element, collecting ends with the first complete arrival or the last. -/
theorem collect_arrivals (roomy : grow.Roomy) (complete : List α → Bool) {rounds cap : Nat}
    {got : List α} {parts : List (List α)} (inside : got.length < cap)
    (enough : parts.flatten.length < rounds) :
    collect grow complete rounds cap got parts =
      some (firstComplete complete got (arrivals grow rounds cap got parts)) := by
  induction rounds generalizing cap got parts with
  | zero => omega
  | succ rounds ih =>
    unfold collect arrivals
    cases grown : grow cap got.length with
    | none => rfl
    | some larger =>
      dsimp only
      cases received : receive (larger - 1 - got.length) parts with
      | none => rfl
      | some next =>
        obtain ⟨handed, rest⟩ := next
        have room := roomy cap got.length larger inside grown
        obtain ⟨positive, fits, split⟩ := receive_some (by omega) received
        have now : (got ++ handed).length < larger := by
          rw [List.length_append]
          omega
        have total := congrArg List.length split
        rw [List.length_append] at total
        dsimp only
        unfold firstComplete
        by_cases here : complete (got ++ handed) = true
        · rw [if_pos here, List.find?_cons_of_pos here]
          rfl
        · rw [if_neg here, List.find?_cons_of_neg here, ih now (by omega)]
          unfold firstComplete
          cases arrivals grow rounds larger (got ++ handed) rest <;> rfl

/-- Every arrival goes on from what was there, with what was waiting. -/
theorem arrivals_prefix (roomy : grow.Roomy) {rounds cap : Nat} {got : List α}
    {parts : List (List α)} (inside : got.length < cap) :
    ∀ point ∈ arrivals grow rounds cap got parts, got <+: point ∧ point <+: got ++ parts.flatten := by
  induction rounds generalizing cap got parts with
  | zero => exact fun _ member => absurd member List.not_mem_nil
  | succ rounds ih =>
    intro point member
    unfold arrivals at member
    cases grown : grow cap got.length with
    | none =>
      rw [grown] at member
      exact absurd member List.not_mem_nil
    | some larger =>
      rw [grown] at member
      dsimp only at member
      cases received : receive (larger - 1 - got.length) parts with
      | none =>
        rw [received] at member
        exact absurd member List.not_mem_nil
      | some next =>
        obtain ⟨handed, rest⟩ := next
        have room := roomy cap got.length larger inside grown
        obtain ⟨-, fits, split⟩ := receive_some (by omega) received
        have now : (got ++ handed).length < larger := by
          rw [List.length_append]
          omega
        rw [received] at member
        have front : got ++ handed <+: got ++ parts.flatten := by
          rw [split, ← List.append_assoc]
          exact List.prefix_append _ _
        rcases List.mem_cons.mp member with same | later
        · rw [same]
          exact ⟨List.prefix_append _ _, front⟩
        · obtain ⟨back, whole⟩ := ih now point later
          rw [List.append_assoc, ← split] at whole
          exact ⟨(List.prefix_append _ _).trans back, whole⟩

/-- No arrival is longer than the last. -/
theorem arrivals_le_last (roomy : grow.Roomy) {rounds cap : Nat} {got : List α}
    {parts : List (List α)} (inside : got.length < cap) :
    ∀ point ∈ arrivals grow rounds cap got parts,
      point.length ≤ ((arrivals grow rounds cap got parts).getLastD got).length := by
  induction rounds generalizing cap got parts with
  | zero => exact fun _ member => absurd member List.not_mem_nil
  | succ rounds ih =>
    intro point member
    unfold arrivals at member ⊢
    cases grown : grow cap got.length with
    | none =>
      rw [grown] at member
      exact absurd member List.not_mem_nil
    | some larger =>
      rw [grown] at member
      dsimp only at member ⊢
      cases received : receive (larger - 1 - got.length) parts with
      | none =>
        rw [received] at member
        exact absurd member List.not_mem_nil
      | some next =>
        obtain ⟨handed, rest⟩ := next
        have room := roomy cap got.length larger inside grown
        obtain ⟨-, fits, -⟩ := receive_some (by omega) received
        have now : (got ++ handed).length < larger := by
          rw [List.length_append]
          omega
        rw [received] at member
        dsimp only
        rw [List.getLastD_cons]
        rcases List.mem_cons.mp member with same | later
        · rw [same]
          cases behind : arrivals grow rounds larger (got ++ handed) rest with
          | nil => exact Nat.le_refl _
          | cons first others =>
            rw [List.getLastD_cons]
            have last : others.getLastD first ∈
                arrivals grow rounds larger (got ++ handed) rest := by
              rw [behind]
              exact List.getLastD_mem_cons
            exact ( arrivals_prefix roomy now _ last).1.length_le
        · exact ih now point later

/-- Collecting ends at a point exactly when reading stops there, or it is the start and nothing
arrives. -/
theorem firstComplete_eq_iff (complete : List α → Bool) (start target : List α)
    (points : List (List α)) :
    firstComplete complete start points = target ↔
      StopsAt complete points target ∨ points = [] ∧ start = target := by
  induction points generalizing start with
  | nil =>
    constructor
    · exact fun same => .inr ⟨rfl, same⟩
    · rintro (⟨before, after, split, -⟩ | ⟨-, same⟩)
      · cases before <;> cases split
      · exact same
  | cons point points ih =>
    by_cases here : complete point = true
    · have first : firstComplete complete start (point :: points) = point := by
        unfold firstComplete
        rw [List.find?_cons_of_pos here]
        rfl
      rw [first]
      constructor
      · intro same
        rw [← same]
        exact .inl ⟨[], points, rfl, fun _ member => absurd member List.not_mem_nil, .inl here⟩
      · rintro (⟨before, after, split, early, -⟩ | ⟨empty, -⟩)
        · cases before with
          | nil => exact (List.cons.inj split).1
          | cons first others =>
            have same := (List.cons.inj split).1
            have refused := early first List.mem_cons_self
            rw [← same, here] at refused
            cases refused
        · cases empty
    · have first : firstComplete complete start (point :: points) =
          firstComplete complete point points := by
        unfold firstComplete
        rw [List.find?_cons_of_neg here, List.getLastD_cons]
      rw [first, ih]
      have refused : complete point = false := Bool.eq_false_iff.mpr here
      constructor
      · rintro (⟨before, after, split, early, ends⟩ | ⟨empty, same⟩)
        · refine .inl ⟨point :: before, after, by rw [split]; rfl, ?_, ends⟩
          intro other member
          rcases List.mem_cons.mp member with rfl | later
          · exact refused
          · exact early other later
        · rw [empty, same]
          exact .inl ⟨[], [], rfl, fun _ member => absurd member List.not_mem_nil, .inr rfl⟩
      · rintro (⟨before, after, split, early, ends⟩ | ⟨empty, -⟩)
        · cases before with
          | nil =>
            obtain ⟨same, behind⟩ := List.cons.inj split
            rcases ends with passes | last
            · rw [← same] at passes
              exact absurd passes here
            · exact .inr ⟨behind.trans last, same⟩
          | cons first others =>
            refine .inl ⟨others, after, (List.cons.inj split).2, ?_, ends⟩
            exact fun other member => early other (List.mem_cons_of_mem _ member)
        · cases empty

end Library.Collect
