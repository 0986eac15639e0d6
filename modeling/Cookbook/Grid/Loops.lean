import Cookbook.Grid.Artifact
import Cookbook.Grid.Transport

/-!
# Registries that a request has passed

Each registry adds its name to `X-Cookbook-Via`, in a buffer of 1024 bytes and behind a comma;
`cookbook_grid_is_loop` reads the names back and takes a space for a separator as well.
-/
namespace Cookbook.Grid

open Library.Text

/-! ## The functions -/

/-- The characters between the names of a chain. -/
def separates (c : UInt8) : Bool := c == comma || c == space

/-- The loop of `cookbook_grid_is_loop`. -/
def findsName (originId : Bytes) : Nat → Bytes → Bool
  | 0, _ => false
  | fuel + 1, p =>
    if p = [] then false
    else
      let p := p.dropWhile separates
      if p = [] then false
      else if p.takeWhile (!separates ·) = originId then true
      else findsName originId fuel (p.dropWhile (!separates ·))

/-- `cookbook_grid_is_loop` -/
def cookbookGridIsLoop (originId viaChain : Option Bytes) : Bool :=
  match originId, viaChain with
  | some originId, some viaChain => findsName originId viaChain.length viaChain
  | _, _ => false

/-- The header that a request carries once `grid_request_ex` has sent it on from these registries. -/
def chainOf (ids : List Bytes) : Option Bytes :=
  ids.foldl (fun viaChain originId => some (viaHeader originId viaChain)) none

/-! ## The names of a chain -/

/-- The stretches of a text that no separator interrupts. -/
def chainNames (viaChain : Bytes) : List Bytes :=
  (viaChain.splitOnP separates).filter (· ≠ [])

theorem isLoop_eq (registryId viaChain : Bytes) :
    isLoop registryId viaChain = (chainNames viaChain).contains registryId := rfl

/-- A stretch in front of a separator is a name unless it is empty. -/
theorem chainNames_cut {name : Bytes} {stop : UInt8} (rest : Bytes)
    (free : ∀ c ∈ name, separates c = false) (closed : separates stop = true) :
    chainNames (name ++ stop :: rest) =
      (if name = [] then [] else [name]) ++ chainNames rest := by
  have split : (name ++ stop :: rest).splitOnP separates = name :: rest.splitOnP separates :=
    List.splitOnP_append_cons_of_forall_mem free stop closed rest
  unfold chainNames
  rw [split]
  by_cases empty : name = [] <;> simp [empty]

theorem chainNames_separator {stop : UInt8} (rest : Bytes) (closed : separates stop = true) :
    chainNames (stop :: rest) = chainNames rest :=
  chainNames_cut rest (List.forall_mem_nil _) closed

/-- A text without separators is a name unless it is empty. -/
theorem chainNames_plain {name : Bytes} (free : ∀ c ∈ name, separates c = false) :
    chainNames name = if name = [] then [] else [name] := by
  unfold chainNames
  rw [List.splitOnP_eq_singleton free]
  by_cases empty : name = [] <;> simp [empty]

/-- Separators in front do not change the names. -/
theorem chainNames_skip (text : Bytes) :
    chainNames (text.dropWhile separates) = chainNames text := by
  induction text with
  | nil => rfl
  | cons c rest ih =>
    by_cases closed : separates c
    · rw [List.dropWhile_cons_of_pos closed, ih]
      exact (chainNames_separator rest closed).symm
    · rw [List.dropWhile_cons_of_neg closed]

/-- A text is one stretch, or a stretch, a separator and the text behind it. -/
theorem chain_cases (text : Bytes) :
    ∃ name rest, text = name ++ rest ∧ name = text.takeWhile (!separates ·) ∧
      rest = text.dropWhile (!separates ·) ∧ (∀ c ∈ name, separates c = false) ∧
        (rest = [] ∨ ∃ stop behind, rest = stop :: behind ∧ separates stop = true) := by
  refine ⟨_, _, List.takeWhile_append_dropWhile.symm, rfl, rfl, fun c member => ?_, ?_⟩
  · simpa using List.mem_takeWhile_imp member
  · cases shape : text.dropWhile (!separates ·) with
    | nil => exact .inl rfl
    | cons stop behind =>
      have refused := List.head_dropWhile_not (!separates ·) (l := text) (by simp [shape])
      simp only [shape, List.head_cons] at refused
      exact .inr ⟨stop, behind, rfl, by simpa using refused⟩

/-- No name has a separator. -/
theorem chainNames_free {text name : Bytes} (member : name ∈ chainNames text) :
    ∀ c ∈ name, separates c = false := by
  induction size : text.length using Nat.strong_induction_on generalizing text with
  | _ size ih =>
    obtain ⟨first, rest, shape, -, -, free, rfl | ⟨stop, behind, rfl, closed⟩⟩ := chain_cases text
    · rw [shape, List.append_nil, chainNames_plain free] at member
      split at member
      · cases member
      · rw [List.mem_singleton.mp member]
        exact free
    · rw [shape, chainNames_cut behind free closed] at member
      rcases List.mem_append.mp member with front | later
      · split at front
        · cases front
        · rw [List.mem_singleton.mp front]
          exact free
      · refine ih behind.length ?_ later rfl
        rw [← size, shape, List.length_append, List.length_cons]
        omega

/-- The loop finds exactly the names of the chain. -/
theorem findsName_eq (originId : Bytes) {fuel : Nat} {p : Bytes} (enough : p.length ≤ fuel) :
    findsName originId fuel p = isLoop originId p := by
  rw [isLoop_eq]
  induction fuel generalizing p with
  | zero => rw [List.eq_nil_of_length_eq_zero (Nat.le_zero.mp enough)]; rfl
  | succ fuel ih =>
    unfold findsName
    by_cases done : p = []
    · rw [if_pos done, done]; rfl
    rw [if_neg done, ← chainNames_skip p]
    obtain ⟨name, rest, shape, front, behind, free, ends⟩ := chain_cases (p.dropWhile separates)
    simp only [← front, ← behind]
    by_cases closed : p.dropWhile separates = []
    · rw [if_pos closed, closed]; rfl
    rw [if_neg closed]
    have named : name ≠ [] := by
      rintro rfl
      rcases ends with rfl | ⟨stop, later, rfl, separating⟩
      · exact closed shape
      · have refused := List.head_dropWhile_not separates closed
        simp only [shape, List.nil_append, List.head_cons, separating] at refused
        cases refused
    have short : rest.length ≤ fuel := by
      have sizes := congrArg List.length shape
      have skipped := (List.dropWhile_sublist separates (l := p)).length_le
      have positive := List.length_pos_iff.mpr named
      rw [List.length_append] at sizes
      omega
    have names : chainNames (p.dropWhile separates) = name :: chainNames rest := by
      rw [shape]
      rcases ends with rfl | ⟨stop, later, rfl, separating⟩
      · rw [List.append_nil, chainNames_plain free, if_neg named]
        rfl
      · rw [chainNames_cut later free separating, if_neg named,
          chainNames_separator later separating]
        rfl
    rw [names, ih short, List.contains_cons]
    by_cases same : name = originId
    · simp [same]
    · rw [if_neg same, beq_eq_false_iff_ne.mpr (Ne.symm same), Bool.false_or]

/-! ## The chain of a run of registries -/

/-- The chain that a registry is behind grows by its name, within the buffer. -/
theorem viaHeader_some {chain : Bytes} (originId : Bytes) (started : chain ≠ []) :
    viaHeader originId (some (chain.take 1023)) =
      (chain ++ comma :: originId).take 1023 := by
  have cut : chain.take 1023 ≠ [] := by
    rw [Ne, List.take_eq_nil_iff]
    simp [started]
  simp only [viaHeader, snprintf, if_neg cut, Nat.add_one_sub_one]
  by_cases fits : chain.length ≤ 1023
  · rw [List.take_of_length_le fits]
  · rw [List.take_append_of_le_length (by simp; omega),
      List.take_append_of_le_length (by omega), List.take_take, Nat.min_self]

/-- The header holds the start of the names, a comma between them. -/
theorem chainOf_cons {first : Bytes} (ids : List Bytes) (named : first ≠ []) :
    chainOf (first :: ids) = some (([comma].intercalate (first :: ids)).take 1023) := by
  have grows (ids : List Bytes) : ∀ chain : Bytes, chain ≠ [] →
      ids.foldl (fun viaChain originId => some (viaHeader originId viaChain))
        (some (chain.take 1023)) = some ((chain ++ ids.flatMap (comma :: ·)).take 1023) := by
    induction ids with
    | nil => simp
    | cons id ids ih =>
      intro chain started
      rw [List.foldl_cons, viaHeader_some id started, ih _ (by simp), List.flatMap_cons,
        List.append_assoc]
  rw [intercalate_items, ← grows ids first named]
  rfl

/-! ## Names within the buffer -/

/-- The names that a room holds whole. -/
def wholeIds : Nat → List Bytes → List Bytes
  | _, [] => []
  | room, id :: ids => if id.length ≤ room then id :: wholeIds (room - (id.length + 1)) ids else []

/-- What is left of the name that the end of the room cuts. -/
def cutId : Nat → List Bytes → Bytes
  | _, [] => []
  | room, id :: ids =>
    if id.length ≤ room then cutId (room - (id.length + 1)) ids else id.take room

/-- The buffer loses no name: names are free of separators, and where the joined names are longer than
the buffer, those behind its end repeat earlier ones and what is left of the cut one is none or a name
as well. -/
structure Detects (ids : List Bytes) : Prop where
  plain : ∀ id ∈ ids, ∀ c ∈ id, separates c = false
  kept : ∀ id ∈ ids, id ∈ wholeIds 1023 ids ∨ id = cutId 1023 ids
  cut : cutId 1023 ids = [] ∨ cutId 1023 ids ∈ ids

instance (ids : List Bytes) : Decidable (Detects ids) :=
  decidable_of_iff ((∀ id ∈ ids, id.any separates = false) ∧
      (∀ id ∈ ids, id ∈ wholeIds 1023 ids ∨ id = cutId 1023 ids) ∧
        (cutId 1023 ids = [] ∨ cutId 1023 ids ∈ ids))
    ⟨fun ⟨plain, kept, cut⟩ => ⟨fun id member c inside =>
        Bool.eq_false_iff.mpr (List.any_eq_false.mp (plain id member) c inside), kept, cut⟩,
      fun ⟨plain, kept, cut⟩ => ⟨fun id member => List.any_eq_false.mpr fun c inside =>
        Bool.eq_false_iff.mp (plain id member c inside), kept, cut⟩⟩

theorem wholeIds_subset (room : Nat) (ids : List Bytes) : wholeIds room ids ⊆ ids := by
  induction ids generalizing room with
  | nil => exact List.Subset.refl _
  | cons id ids ih =>
    unfold wholeIds
    split
    · exact List.cons_subset_cons id (ih _)
    · exact List.nil_subset _

/-- The names in a room are those it holds whole and what is left of the cut one. -/
theorem chainNames_joined {ids : List Bytes} (room : Nat) (named : ∀ id ∈ ids, id ≠ [])
    (plain : ∀ id ∈ ids, ∀ c ∈ id, separates c = false) :
    chainNames (([comma].intercalate ids).take room) =
      wholeIds room ids ++ if cutId room ids = [] then [] else [cutId room ids] := by
  induction ids generalizing room with
  | nil => simp [wholeIds, cutId, chainNames]
  | cons id ids ih =>
    have free := plain id (by simp)
    have rest := ih (room - (id.length + 1)) (fun id member => named id (by simp [member]))
      fun id member => plain id (by simp [member])
    by_cases fits : id.length ≤ room
    · simp only [wholeIds, cutId, if_pos fits, List.cons_append, ← rest]
      cases ids with
      | nil =>
        rw [List.intercalate_singleton, List.take_of_length_le fits, chainNames_plain free,
          if_neg (named id (by simp))]
        simp [chainNames]
      | cons next ids =>
        rw [List.intercalate_cons_cons, List.append_assoc, List.take_append,
          List.take_of_length_le fits, List.singleton_append]
        by_cases full : room = id.length
        · rw [full, Nat.sub_self, List.take_zero, List.append_nil, chainNames_plain free,
            if_neg (named id (by simp))]
          simp [chainNames]
        · have one : room - id.length = room - (id.length + 1) + 1 := by omega
          rw [one, List.take_succ_cons, chainNames_cut _ free (by decide),
            if_neg (named id (by simp))]
          rfl
    · simp only [wholeIds, cutId, if_neg fits, List.nil_append]
      rw [intercalate_items, List.take_append_of_le_length (by omega),
        chainNames_plain fun c member => free c (List.mem_of_mem_take member)]

/-- A loop is found exactly for the names of the chain. -/
theorem cookbookGridIsLoop_chainOf {ids : List Bytes} (named : ∀ id ∈ ids, id ≠ []) (id : Bytes) :
    cookbookGridIsLoop (some id) (chainOf ids) =
      (chainNames (([comma].intercalate ids).take 1023)).contains id := by
  cases ids with
  | nil => rfl
  | cons first ids =>
    rw [chainOf_cons ids (named first (by simp))]
    exact findsName_eq id (Nat.le_refl _)

/-- The check finds exactly the registries that a request has passed if and only if the header loses
none of their names. -/
theorem loopCheck_exact_iff (ids : List Bytes) (named : ∀ id ∈ ids, id ≠ []) :
    (∀ id : Bytes, id ≠ [] → (cookbookGridIsLoop (some id) (chainOf ids) = true ↔ id ∈ ids)) ↔
      Detects ids := by
  simp only [cookbookGridIsLoop_chainOf named, List.contains_iff_mem]
  constructor
  · intro exact
    have plain : ∀ id ∈ ids, ∀ c ∈ id, separates c = false := fun id member =>
      chainNames_free ((exact id (named id member)).mpr member)
    rw [chainNames_joined 1023 named plain] at exact
    refine ⟨plain, fun id member => ?_, ?_⟩
    · have found := (exact id (named id member)).mpr member
      rcases List.mem_append.mp found with whole | cut
      · exact .inl whole
      · split at cut
        · cases cut
        · exact .inr (List.mem_singleton.mp cut)
    · by_cases empty : cutId 1023 ids = []
      · exact .inl empty
      · exact .inr ((exact _ empty).mp (by simp [empty]))
  · rintro ⟨plain, kept, cut⟩ id some
    rw [chainNames_joined 1023 named plain, List.mem_append]
    constructor
    · rintro (whole | left)
      · exact wholeIds_subset 1023 ids whole
      · split at left
        · cases left
        · next present =>
          rw [List.mem_singleton.mp left]
          exact cut.resolve_left present
    · intro member
      rcases kept id member with whole | left
      · exact .inl whole
      · rw [← left, if_neg some]
        exact .inr (by simp)

/-- Three registries. -/
theorem loopCheck_exact_three : Detects [ascii "central", ascii "eu-west", ascii "lab"] ∧
    ∀ id : Bytes, id ≠ [] →
      (cookbookGridIsLoop (some id) (chainOf [ascii "central", ascii "eu-west", ascii "lab"]) = true ↔
        id ∈ [ascii "central", ascii "eu-west", ascii "lab"]) := by
  have detects : Detects [ascii "central", ascii "eu-west", ascii "lab"] := by decide +kernel
  exact ⟨detects, (loopCheck_exact_iff _ (by decide)).mpr detects⟩

/-- A registry with a space in its name does not know itself, and another is taken for it. -/
theorem loopCheck_misses : ¬ ∀ ids : List Bytes, (∀ id ∈ ids, id ≠ []) → ∀ id : Bytes, id ≠ [] →
    (cookbookGridIsLoop (some id) (chainOf ids) = true ↔ id ∈ ids) := fun exact =>
  absurd ((exact [ascii "eu west"] (by decide) (ascii "eu west") (by decide)).mpr (by decide))
    (by decide +kernel)

end Cookbook.Grid
