import Cookbook.Library.BlockHash
import Mathlib.Data.List.GetD
import Mathlib.Data.Nat.Prime.Basic
import Mathlib.Tactic.Ring

/-!
# The SHA-2 functions

FIPS 180-4 over words of any width. The constants are no tables: they are the first bits of the
fractional parts of the square and cube roots of the first primes, as the standard introduces them.
-/
namespace Library.Sha2

open Library.Text Library.BlockHash

/-! ## Constants -/

/-- The whole part of a root, bit by bit from the top. -/
def root (degree : Nat) : Nat → Nat → Nat
  | 0, _ => 0
  | bits + 1, n =>
    let even := 2 * root degree bits (n / 2 ^ degree)
    if (even + 1) ^ degree ≤ n then even + 1 else even

/-- It is the greatest number whose power does not exceed the argument. -/
theorem root_spec {degree : Nat} (positive : 0 < degree) (bits n : Nat)
    (small : n < (2 ^ bits) ^ degree) :
    root degree bits n ^ degree ≤ n ∧ n < (root degree bits n + 1) ^ degree := by
  induction bits generalizing n with
  | zero =>
    have none : n = 0 := by simpa using small
    simp [root, none, positive.ne']
  | succ bits ih =>
    have scale : 0 < 2 ^ degree := Nat.two_pow_pos degree
    have inside : n / 2 ^ degree < (2 ^ bits) ^ degree := by
      rw [Nat.div_lt_iff_lt_mul scale, ← Nat.mul_pow, ← pow_succ]
      exact small
    obtain ⟨below, above⟩ := ih (n / 2 ^ degree) inside
    rw [root]
    generalize root degree bits (n / 2 ^ degree) = half at below above
    have even : (2 * half) ^ degree ≤ n := by
      rw [Nat.mul_pow, Nat.mul_comm]
      exact (Nat.le_div_iff_mul_le scale).mp below
    have next : n < (2 * half + 2) ^ degree := by
      rw [show 2 * half + 2 = (half + 1) * 2 by ring, Nat.mul_pow]
      exact (Nat.div_lt_iff_lt_mul scale).mp above
    split
    · rename_i odd
      exact ⟨odd, next⟩
    · rename_i odd
      exact ⟨even, Nat.not_le.mp odd⟩

/-- The first eighty primes. -/
def primes : List Nat :=
  (List.range 410).filter fun n => Nat.ble 2 n && (List.range' 2 (n - 2)).all fun d => n % d != 0

/-- A number passes exactly when it is prime. -/
theorem passes_iff (n : Nat) :
    (Nat.ble 2 n && (List.range' 2 (n - 2)).all fun d => n % d != 0) = true ↔ n.Prime := by
  rw [Nat.prime_def_lt', Bool.and_eq_true, Nat.ble_eq, List.all_eq_true]
  simp only [List.mem_range'_1, bne_iff_ne, ne_eq, Nat.dvd_iff_mod_eq_zero]
  constructor
  · rintro ⟨two, none⟩
    exact ⟨two, fun d inside small => none d ⟨inside, by omega⟩⟩
  · rintro ⟨two, none⟩
    exact ⟨two, fun d inside => none d inside.1 (by omega)⟩

/-- Below 441 the primes up to nineteen are enough. -/
theorem sieve_iff {n : Nat} (small : n < 441) :
    (Nat.ble 2 n && [2, 3, 5, 7, 11, 13, 17, 19].all fun d => n == d || n % d != 0) = true ↔
      n.Prime := by
  rw [Bool.and_eq_true, Nat.ble_eq, List.all_eq_true]
  simp only [Bool.or_eq_true, beq_iff_eq, bne_iff_ne]
  constructor
  · rintro ⟨two, passes⟩
    by_contra composite
    have square : n.minFac ^ 2 ≤ n := Nat.minFac_sq_le_self (by omega) composite
    have below : n.minFac < 21 := by
      by_contra large
      have powers := Nat.pow_le_pow_left (Nat.not_lt.mp large) 2
      omega
    have listed : ∀ p < 21, p.Prime → p ∈ [2, 3, 5, 7, 11, 13, 17, 19] := by decide
    rcases passes _ (listed _ below (Nat.minFac_prime (by omega))) with same | rest
    · exact composite (same ▸ Nat.minFac_prime (by omega))
    · exact rest (Nat.mod_eq_zero_of_dvd (Nat.minFac_dvd n))
  · intro prime
    refine ⟨prime.two_le, fun d member => ?_⟩
    by_cases divides : d ∣ n
    · rcases (Nat.dvd_prime prime).mp divides with one | same
      · subst one
        simp at member
      · exact .inl same.symm
    · exact .inr fun rest => divides (Nat.dvd_of_mod_eq_zero rest)

/-- The list written out, for evaluation. -/
theorem primes_eq : primes =
    [2, 3, 5, 7, 11, 13, 17, 19, 23, 29, 31, 37, 41, 43, 47, 53, 59, 61, 67, 71, 73, 79, 83, 89,
    97, 101, 103, 107, 109, 113, 127, 131, 137, 139, 149, 151, 157, 163, 167, 173, 179, 181, 191,
    193, 197, 199, 211, 223, 227, 229, 233, 239, 241, 251, 257, 263, 269, 271, 277, 281, 283, 293,
    307, 311, 313, 317, 331, 337, 347, 349, 353, 359, 367, 373, 379, 383, 389, 397, 401, 409] := by
  have sieve : primes = (List.range 410).filter fun n =>
      Nat.ble 2 n && [2, 3, 5, 7, 11, 13, 17, 19].all fun d => n == d || n % d != 0 := by
    refine List.filter_congr fun n member => Bool.eq_iff_iff.mpr ?_
    have small : n < 441 := (List.mem_range.mp member).trans (by decide)
    exact (passes_iff n).trans (sieve_iff small).symm
  rw [sieve]
  decide +kernel

/-- They are the primes below 410. -/
theorem mem_primes (n : Nat) : n ∈ primes ↔ n < 410 ∧ n.Prime := by
  rw [primes, List.mem_filter, List.mem_range, passes_iff]

/-- The first bits of the fractional part of a root of a prime. -/
def fraction (w degree index : Nat) : BitVec w :=
  BitVec.ofNat w (root degree (w + 9) (primes.getD index 0 * 2 ^ (degree * w)))

/-- A number is the root when the powers next to it say so. -/
theorem root_eq {degree bits n found : Nat} (positive : 0 < degree) (small : n < (2 ^ bits) ^ degree)
    (below : found ^ degree ≤ n) (above : n < (found + 1) ^ degree) : root degree bits n = found := by
  obtain ⟨low, high⟩ := root_spec positive bits n small
  have upper := lt_of_pow_lt_pow_left₀ degree (Nat.zero_le _) (low.trans_lt above)
  have lower := lt_of_pow_lt_pow_left₀ degree (Nat.zero_le _) (below.trans_lt high)
  omega

/-- The test of a word behind the whole part of a root, for evaluation. -/
def isFraction (w degree prime word : Nat) : Bool :=
  let n := prime * 2 ^ (degree * w)
  let found := root degree 5 prime * 2 ^ w + word
  Nat.blt n (2 ^ ((w + 9) * degree)) && Nat.ble (found ^ degree) n && Nat.blt n ((found + 1) ^ degree)

/-- A word that passes is the fraction. -/
theorem fraction_eq {w degree index : Nat} (positive : 0 < degree) (word : BitVec w)
    (checked : isFraction w degree (primes.getD index 0) word.toNat = true) :
    word = fraction w degree index := by
  simp only [isFraction, Bool.and_eq_true, Nat.blt_eq, Nat.ble_eq, pow_mul] at checked
  obtain ⟨⟨small, below⟩, above⟩ := checked
  rw [← pow_mul 2 degree w] at small below above
  rw [fraction, root_eq positive small below above]
  apply BitVec.eq_of_toNat_eq
  rw [BitVec.toNat_ofNat, Nat.mul_add_mod_self_right, Nat.mod_eq_of_lt word.isLt]

/-! ## The compression function -/

/-- Eight working variables. -/
structure Eight (α : Type) where
  a : α
  b : α
  c : α
  d : α
  e : α
  f : α
  g : α
  h : α
  deriving DecidableEq

/-- The variables one by one. -/
def Eight.map {α β : Type} (f : α → β) (words : Eight α) : Eight β :=
  ⟨f words.a, f words.b, f words.c, f words.d, f words.e, f words.f, f words.g, f words.h⟩

/-- The variables of two one by one. -/
def Eight.add {α : Type} [Add α] (left right : Eight α) : Eight α :=
  ⟨left.a + right.a, left.b + right.b, left.c + right.c, left.d + right.d, left.e + right.e,
    left.f + right.f, left.g + right.g, left.h + right.h⟩

/-- The variables in their order. -/
def Eight.toList {α : Type} (words : Eight α) : List α :=
  [words.a, words.b, words.c, words.d, words.e, words.f, words.g, words.h]

/-- What the functions of the family differ in. -/
structure Family (w : Nat) where
  /-- The number of rounds. -/
  rounds : Nat
  /-- The rotations of the upper sigmas. -/
  upper0 : Nat × Nat × Nat
  upper1 : Nat × Nat × Nat
  /-- The two rotations and the shift of the lower sigmas. -/
  lower0 : Nat × Nat × Nat
  lower1 : Nat × Nat × Nat

/-- SHA-256 -/
def sha256 : Family 32 := ⟨64, (2, 13, 22), (6, 11, 25), (7, 18, 3), (17, 19, 10)⟩

/-- SHA-512 -/
def sha512 : Family 64 := ⟨80, (28, 34, 39), (14, 18, 41), (1, 8, 7), (19, 61, 6)⟩

variable {w : Nat}

/-- `Ch` -/
def ch (x y z : BitVec w) : BitVec w := (x &&& y) ^^^ (~~~x &&& z)

/-- `Maj` -/
def maj (x y z : BitVec w) : BitVec w := (x &&& y) ^^^ (x &&& z) ^^^ (y &&& z)

/-- An upper sigma: three rotations. -/
def upper (amounts : Nat × Nat × Nat) (x : BitVec w) : BitVec w :=
  x.rotateRight amounts.1 ^^^ x.rotateRight amounts.2.1 ^^^ x.rotateRight amounts.2.2

/-- A lower sigma: two rotations and a shift. -/
def lower (amounts : Nat × Nat × Nat) (x : BitVec w) : BitVec w :=
  x.rotateRight amounts.1 ^^^ x.rotateRight amounts.2.1 ^^^ (x >>> amounts.2.2)

namespace Family

variable (family : Family w)

/-- The message schedule of a block of sixteen words. -/
def schedule (block : Nat → BitVec w) (t : Nat) : BitVec w :=
  if t < 16 then block t
  else lower family.lower1 (schedule block (t - 2)) + schedule block (t - 7) +
    lower family.lower0 (schedule block (t - 15)) + schedule block (t - 16)

/-- One round. -/
def round (block : Nat → BitVec w) (t : Nat) (v : Eight (BitVec w)) : Eight (BitVec w) :=
  let t1 := v.h + upper family.upper1 v.e + ch v.e v.f v.g + fraction w 3 t +
    family.schedule block t
  let t2 := upper family.upper0 v.a + maj v.a v.b v.c
  ⟨t1 + t2, v.a, v.b, v.c, v.d + t1, v.e, v.f, v.g⟩

/-- The rounds up to some number. -/
def roundsTo (block : Nat → BitVec w) (start : Eight (BitVec w)) : Nat → Eight (BitVec w)
  | 0 => start
  | t + 1 => family.round block t (roundsTo block start t)

/-- The compression of a block. -/
def compress (start : Eight (BitVec w)) (block : Nat → BitVec w) : Eight (BitVec w) :=
  start.add (family.roundsTo block start family.rounds)

end Family

/-! ## Messages -/

/-- The number of a big-endian text. -/
def bigEndian (bytes : Bytes) : Nat := bytes.foldl (fun number byte => number * 256 + byte.toNat) 0

/-- One byte alone. -/
theorem bigEndian_single (byte : UInt8) : bigEndian [byte] = byte.toNat := by simp [bigEndian]

/-- One byte behind a text. -/
theorem bigEndian_concat (bytes : Bytes) (byte : UInt8) :
    bigEndian (bytes ++ [byte]) = bigEndian bytes * 256 + byte.toNat := by
  rw [bigEndian, List.foldl_append, List.foldl_cons, List.foldl_nil, ← bigEndian]

/-- The big-endian text of a number. -/
def toBigEndian : Nat → Nat → Bytes
  | 0, _ => []
  | count + 1, number => toBigEndian count (number / 256) ++ [UInt8.ofNat number]

/-- It has as many bytes as it is asked for. -/
theorem toBigEndian_length (count number : Nat) : (toBigEndian count number).length = count := by
  induction count generalizing number with
  | zero => rfl
  | succ count ih => rw [toBigEndian, List.length_append, ih, List.length_singleton]

/-- A text in two parts. -/
theorem toBigEndian_add (front count number : Nat) :
    toBigEndian (front + count) number =
      toBigEndian front (number / 256 ^ count) ++ toBigEndian count number := by
  induction count generalizing number with
  | zero => simp [toBigEndian]
  | succ count ih =>
    rw [← Nat.add_assoc, toBigEndian, toBigEndian, ih, Nat.div_div_eq_div_mul, List.append_assoc,
      pow_succ, Nat.mul_comm 256]

/-- The text of zero. -/
theorem toBigEndian_zero (count : Nat) : toBigEndian count 0 = List.replicate count 0 := by
  induction count with
  | zero => rfl
  | succ count ih => rw [toBigEndian, Nat.zero_div, ih, List.replicate_succ']; rfl

variable (w) in
/-- The words of a block of bytes. -/
def blockWords (block : Bytes) (t : Nat) : BitVec w :=
  BitVec.ofNat w (bigEndian ((block.drop (t * (w / 8))).take (w / 8)))

/-- A part of a block, byte by byte. -/
theorem take_drop_bytes {block : Bytes} {start count : Nat} (inside : start + count ≤ block.length) :
    (block.drop start).take count = (List.range count).map fun j => block.getD (start + j) 0 := by
  refine List.ext_getElem ?_ fun j left right => ?_
  · rw [List.length_take_of_le (by rw [List.length_drop]; omega), List.length_map, List.length_range]
  · rw [List.length_map, List.length_range] at right
    rw [List.getElem_take, List.getElem_drop, List.getElem_map, List.getElem_range,
      List.getD_eq_getElem _ _ (by omega)]

/-- A byte stands below the number of the text in front of it. -/
theorem or_byte (front : Bytes) (byte : UInt8) (shift : Nat) :
    bigEndian front * 2 ^ (shift + 8) ||| byte.toNat * 2 ^ shift =
      bigEndian (front ++ [byte]) * 2 ^ shift := by
  have small : byte.toNat * 2 ^ shift < 2 ^ (shift + 8) := by
    rw [pow_add, Nat.mul_comm (2 ^ shift)]
    exact Nat.mul_lt_mul_of_pos_right byte.toNat_lt (Nat.two_pow_pos shift)
  rw [bigEndian_concat, Nat.mul_comm (bigEndian front),
    ← Nat.two_pow_add_eq_or_of_lt small, pow_add]
  ring

variable (w) in
/-- The bytes of a block: sixteen words. -/
def blockSize : Nat := 16 * (w / 8)

variable (w) in
/-- The padded message: the length in bits takes two words at its end. -/
def padded (message : Bytes) : Bytes :=
  message ++ padding (blockSize w) (toBigEndian (2 * (w / 8)) (8 * message.length)) message.length

/-- The initial hash value: from the square roots of the first eight primes. -/
def initial : Eight (BitVec w) :=
  ⟨fraction w 2 0, fraction w 2 1, fraction w 2 2, fraction w 2 3, fraction w 2 4, fraction w 2 5,
    fraction w 2 6, fraction w 2 7⟩

/-- The hash value behind the blocks of a padded message. -/
def Family.hashValue (family : Family w) (data : Bytes) : Eight (BitVec w) :=
  (List.range (data.length / blockSize w)).foldl (fun value index =>
    family.compress value
      (blockWords w ((data.drop (index * blockSize w)).take (blockSize w)))) initial

/-- The digest of a message. -/
def Family.digest (family : Family w) (message : Bytes) : Bytes :=
  (family.hashValue (padded w message)).toList.flatMap fun word => toBigEndian (w / 8) word.toNat

/-! ## Reading a state -/

/-- The hash value is the state of a context behind the blocks, where a compression on states reads
as that of the standard. -/
theorem Family.hashValue_feed {σ : Type} {family : Family w} {compress : σ → Bytes → σ}
    {read : σ → Eight (BitVec w)} {start : σ} (positive : 0 < blockSize w)
    (compressed : ∀ state block, block.length = blockSize w →
      read (compress state block) = family.compress (read state) (blockWords w block))
    (starts : read start = initial) (data : Bytes) :
    read (feed compress (blockSize w) start data).1 = family.hashValue data := by
  have blocks (count : Nat) (whole : count * blockSize w ≤ data.length) :
      read ((List.range count).foldl (fun state index =>
        compress state ((data.drop (index * blockSize w)).take (blockSize w))) start) =
      (List.range count).foldl (fun value index => family.compress value
        (blockWords w ((data.drop (index * blockSize w)).take (blockSize w)))) initial := by
    induction count with
    | zero => exact starts
    | succ count ih =>
      rw [Nat.add_mul, Nat.one_mul] at whole
      rw [List.range_succ, List.foldl_append, List.foldl_append, ← ih (by omega)]
      refine compressed _ _ (List.length_take_of_le ?_)
      rw [List.length_drop]
      omega
  rw [feed_state compress positive, blocks _ (Nat.div_mul_le_self _ _), hashValue]

end Library.Sha2
