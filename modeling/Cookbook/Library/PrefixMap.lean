import Mathlib.Data.List.Nodup

/-!
# Maps keyed by separated prefixes

A key covers a name when it is the name itself or a prefix of it that ends just before a
separator. A map answers a name with the value of the longest key that covers it. Keys and names
are lists over any alphabet, values are of any type.
-/
namespace Library.PrefixMap

variable {α β : Type}

/-- `key` is `name`, or `name` continues `key` with a separator. -/
def Covers (separator : α) (key name : List α) : Prop :=
  key = name ∨ ∃ rest, name = key ++ separator :: rest

/-- A covering key is a prefix. -/
theorem prefix_of_covers {separator : α} {key name : List α} (covers : Covers separator key name) :
    key <+: name := by
  rcases covers with rfl | ⟨rest, rfl⟩
  · exact List.prefix_rfl
  · exact List.prefix_append _ _

/-- Two covering keys of one length are the same key. -/
theorem covers_eq_of_length {separator : α} {left right name : List α}
    (leftCovers : Covers separator left name) (rightCovers : Covers separator right name)
    (length : left.length = right.length) : left = right := by
  have order : left <+: right :=
    List.prefix_of_prefix_length_le (prefix_of_covers leftCovers) (prefix_of_covers rightCovers)
      (Nat.le_of_eq length)
  exact order.eq_of_length length

/-- The empty key covers exactly the empty name and the names that start with a separator. -/
theorem covers_nil_iff {separator : α} {name : List α} :
    Covers separator [] name ↔ name = [] ∨ ∃ rest, name = separator :: rest := by
  simp [Covers, eq_comm]

/-- The test a program makes: the length, the prefix, and the character after it. -/
theorem covers_iff [DecidableEq α] {separator : α} {key name : List α} :
    Covers separator key name ↔
      key.length ≤ name.length ∧ name.take key.length = key ∧
        (key.length = name.length ∨ name[key.length]? = some separator) := by
  constructor
  · rintro (rfl | ⟨rest, rfl⟩)
    · simp
    · simp
  · rintro ⟨_, front, whole | boundary⟩
    · left
      rw [← front, whole, List.take_length]
    · right
      obtain ⟨inside, value⟩ := List.getElem?_eq_some_iff.mp boundary
      refine ⟨name.drop (key.length + 1), ?_⟩
      calc
        name = name.take key.length ++ name.drop key.length := (List.take_append_drop _ _).symm
        _ = key ++ separator :: name.drop (key.length + 1) := by
          rw [front, List.drop_eq_getElem_cons inside, value]

/-- The covering test runs. -/
instance [DecidableEq α] (separator : α) (key name : List α) :
    Decidable (Covers separator key name) := decidable_of_iff _ covers_iff.symm

/-- The entry of the longest covering key has this value. -/
def Longest (separator : α) (entries : List (List α × β)) (name : List α) (value : β) : Prop :=
  ∃ key, (key, value) ∈ entries ∧ Covers separator key name ∧
    ∀ entry ∈ entries, Covers separator entry.1 name → entry.1.length ≤ key.length

/-- With distinct keys a name has at most one answer. -/
theorem longest_unique {separator : α} {entries : List (List α × β)} {name : List α}
    {left right : β} (distinct : (entries.map Prod.fst).Nodup)
    (leftLongest : Longest separator entries name left)
    (rightLongest : Longest separator entries name right) : left = right := by
  obtain ⟨leftKey, leftMem, leftCovers, leftBest⟩ := leftLongest
  obtain ⟨rightKey, rightMem, rightCovers, rightBest⟩ := rightLongest
  have same : leftKey = rightKey :=
    covers_eq_of_length leftCovers rightCovers
      (Nat.le_antisymm (rightBest _ leftMem leftCovers) (leftBest _ rightMem rightCovers))
  subst same
  have injective := List.inj_on_of_nodup_map distinct leftMem rightMem rfl
  exact (Prod.mk.inj injective).2

/-- The answer depends on the entries only as a set. -/
theorem longest_congr {separator : α} {left right : List (List α × β)} {name : List α} {value : β}
    (same : ∀ entry, entry ∈ left ↔ entry ∈ right) :
    Longest separator left name value ↔ Longest separator right name value := by
  simp only [Longest, same]

end Library.PrefixMap
