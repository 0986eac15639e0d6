import Cookbook.Library.Sha2
import Mathlib.Data.List.GetD

/-!
# The compression of both hash functions

SHA-256 and SHA-512 are written with one loop structure over their own words, macros and constants.
Where the macros read as the functions of the standard and the constants as its roots of primes, the
loops compute the standard's compression.
-/
namespace Cookbook.Crypto

open Library.Text Library.BlockHash Library.Sha2

/-- The macros of a source file. -/
structure Macros (α : Type) where
  /-- `CH` -/
  ch : α → α → α → α
  /-- `MAJ` -/
  maj : α → α → α → α
  /-- `EP0`, `BSIG0` -/
  ep0 : α → α
  /-- `EP1`, `BSIG1` -/
  ep1 : α → α
  /-- `SIG0`, `SSIG0` -/
  sig0 : α → α
  /-- `SIG1`, `SSIG1` -/
  sig1 : α → α

section Loops

variable {α : Type} [Add α] [Inhabited α] (macros : Macros α)

/-- The loop that extends the words of a block. -/
def extendWords : Nat → List α → List α
  | 0, w => w
  | count + 1, w =>
    extendWords count (w ++ [macros.sig1 (w.getD (w.length - 2) default) +
      w.getD (w.length - 7) default + macros.sig0 (w.getD (w.length - 15) default) +
      w.getD (w.length - 16) default])

/-- One turn of the loop over the rounds. -/
def turn (v : Eight α) (k w : α) : Eight α :=
  let t1 := v.h + macros.ep1 v.e + macros.ch v.e v.f v.g + k + w
  let t2 := macros.ep0 v.a + macros.maj v.a v.b v.c
  ⟨t1 + t2, v.a, v.b, v.c, v.d + t1, v.e, v.f, v.g⟩

/-- `sha256_transform`, `sha512_transform` with the constants and the words of the block. -/
def transform (k : List α) (load : Bytes → List α) (state : Eight α) (block : Bytes) : Eight α :=
  let w := extendWords macros (k.length - 16) (load block)
  state.add ((List.range k.length).foldl
    (fun v i => turn macros v (k.getD i default) (w.getD i default)) state)

end Loops

section Reading

variable {α : Type} [Add α] [Inhabited α] {w : Nat}

/-- The words of the source read as those of the standard. -/
structure Reads (read : α → BitVec w) (macros : Macros α) (family : Family w) : Prop where
  add : ∀ x y, read (x + y) = read x + read y
  ch : ∀ x y z, read (macros.ch x y z) = Library.Sha2.ch (read x) (read y) (read z)
  maj : ∀ x y z, read (macros.maj x y z) = Library.Sha2.maj (read x) (read y) (read z)
  ep0 : ∀ x, read (macros.ep0 x) = upper family.upper0 (read x)
  ep1 : ∀ x, read (macros.ep1 x) = upper family.upper1 (read x)
  sig0 : ∀ x, read (macros.sig0 x) = lower family.lower0 (read x)
  sig1 : ∀ x, read (macros.sig1 x) = lower family.lower1 (read x)

variable {read : α → BitVec w} {macros : Macros α} {family : Family w}

/-- The loop over the words computes the message schedule. -/
theorem Reads.extendWords (reads : Reads read macros family) (block : Nat → BitVec w)
    (count : Nat) {words : List α} (long : 16 ≤ words.length)
    (scheduled : ∀ i < words.length, read (words.getD i default) = family.schedule block i) :
    ∀ i < words.length + count,
      read ((extendWords macros count words).getD i default) = family.schedule block i := by
  induction count generalizing words with
  | zero => exact scheduled
  | succ count ih =>
    intro i below
    rw [Crypto.extendWords]
    refine ih (by rw [List.length_append]; omega) ?_ i (by
      simp only [List.length_append, List.length_singleton]; omega)
    intro j inside
    simp only [List.length_append, List.length_singleton] at inside
    by_cases old : j < words.length
    · rw [List.getD_append _ _ _ _ old]
      exact scheduled j old
    · have last : j = words.length := by omega
      rw [last, List.getD_append_right _ _ _ _ (Nat.le_refl _), Nat.sub_self, List.getD_cons_zero,
        Family.schedule, if_neg (by omega)]
      simp only [reads.add, reads.sig0, reads.sig1]
      rw [scheduled _ (by omega), scheduled _ (by omega), scheduled _ (by omega),
        scheduled _ (by omega)]

/-- The loop over the rounds computes those of the standard. -/
theorem Reads.turns (reads : Reads read macros family) {block : Nat → BitVec w} {k words : List α}
    (state : Eight α) (rounds : Nat)
    (constants : ∀ i < rounds, read (k.getD i default) = fraction w 3 i)
    (scheduled : ∀ i < rounds, read (words.getD i default) = family.schedule block i) :
    ((List.range rounds).foldl
      (fun v i => turn macros v (k.getD i default) (words.getD i default)) state).map read =
      family.roundsTo block (state.map read) rounds := by
  induction rounds with
  | zero => rfl
  | succ rounds ih =>
    have before := ih (fun i below => constants i (by omega)) fun i below => scheduled i (by omega)
    rw [List.range_succ, List.foldl_append, Family.roundsTo, ← before]
    generalize (List.range rounds).foldl _ state = v
    simp only [List.foldl_cons, List.foldl_nil, turn, Eight.map, Family.round, reads.add, reads.ch,
      reads.maj, reads.ep0, reads.ep1, constants rounds (Nat.lt_succ_self _),
      scheduled rounds (Nat.lt_succ_self _)]

/-- A transformation computes the compression of the standard. -/
theorem Reads.transform (reads : Reads read macros family) {k : List α} {load : Bytes → List α}
    (rounds : k.length = family.rounds) (more : 16 ≤ family.rounds)
    (constants : ∀ i < family.rounds, read (k.getD i default) = fraction w 3 i)
    {block : Bytes} (words : (load block).length = 16)
    (loaded : ∀ i < 16, read ((load block).getD i default) = blockWords w block i)
    (state : Eight α) :
    (transform macros k load state block).map read =
      family.compress (state.map read) (blockWords w block) := by
  have scheduled := reads.extendWords (blockWords w block) (k.length - 16) (Nat.le_of_eq words.symm)
    (fun i below => by
      rw [words] at below
      rw [loaded i below, Family.schedule, if_pos below])
  rw [words, rounds] at scheduled
  have turned := reads.turns state family.rounds constants fun i below =>
    scheduled i (by omega)
  rw [Family.compress, ← turned, Crypto.transform, rounds]
  simp only [Eight.map, Eight.add, reads.add]

end Reading

end Cookbook.Crypto
