import Cookbook.Crypto.Field
import Mathlib.Data.Int.Order.Basic
import Mathlib.Tactic.Linarith
import Mathlib.Tactic.LinearCombination

/-!
# Recodings of scalars

Before a point is multiplied, its scalar is rewritten with signed digits: sixty-four digits of
radix 16 around zero for the base point, and odd digits with zeros between them for the double
multiplication. The digits are signed chars that are rewritten in place.
-/
namespace Cookbook.Crypto

open Library.Text Library.Digits

/-! ## Signed chars -/

/-- A number as a `signed char`. Outside the type it has none. -/
def char (x : Int) : Option Int := if -128 ≤ x ∧ x ≤ 127 then some x else none

/-- An assignment to a member of an array of them. -/
def store (r : List Int) (i : Nat) (x : Int) : Option (List Int) :=
  if i < r.length then (char x).map (r.set i) else none

theorem char_some {x : Int} (low : -128 ≤ x) (high : x ≤ 127) : char x = some x :=
  if_pos ⟨low, high⟩

theorem store_some {r : List Int} {i : Nat} {x : Int} (inside : i < r.length) (low : -128 ≤ x)
    (high : x ≤ 127) : store r i x = some (r.set i x) := by
  rw [store, if_pos inside, char_some low high]
  rfl

/-! ## Radix 16 -/

/-- The first loop of `ge_scalarmult_base`. -/
def nibbles (a : Bytes) : List Int :=
  (List.range 32).flatMap fun i =>
    [(((a.getD i 0).toNat &&& 15 : Nat) : Int), (((a.getD i 0).toNat >>> 4 &&& 15 : Nat) : Int)]

/-- The second, which has `count` digits to go from `i` on. -/
def recenter : Nat → Nat → Int → List Int → Option (Int × List Int)
  | 0, _, carry, e => some (carry, e)
  | count + 1, i, carry, e => do
    let e ← store e i (e.getD i 0 + carry)
    let carry ← char (e.getD i 0 + 8)
    let carry ← char (carry >>> (4 : Nat))
    let e ← store e i (e.getD i 0 - carry * ((1 : Int) <<< (4 : Nat)))
    recenter count (i + 1) carry e

/-- The digits that `ge_scalarmult_base` computes. -/
def scalarDigits (a : Bytes) : Option (List Int) := do
  let (carry, e) ← recenter 63 0 0 (nibbles a)
  store e 63 (e.getD 63 0 + carry)

/-! ## Selection of an entry -/

/-- `ge_precomp` -/
structure GePrecomp where
  yplusx : Fe
  yminusx : Fe
  xy2d : Fe

/-- `ge_precomp_0` -/
def gePrecomp0 : GePrecomp := ⟨fe1, fe1, fe0⟩

/-- `ge_precomp_cmov` -/
def gePrecompCmov (t u : GePrecomp) (b : UInt32) : GePrecomp :=
  ⟨feCmov t.yplusx u.yplusx b, feCmov t.yminusx u.yminusx b, feCmov t.xy2d u.xy2d b⟩

/-- The negative of an entry, `minust`. -/
def minust (t : GePrecomp) : GePrecomp := ⟨t.yminusx, t.yplusx, feNeg t.xy2d⟩

/-- `ct_equal` -/
def ctEqual (b c : Int8) : UInt32 :=
  let x := b.toUInt8.toUInt32 ^^^ c.toUInt8.toUInt32
  ((x.toUInt64 - 1) >>> 63).toUInt32

/-- `ct_negative` -/
def ctNegative (b : Int8) : UInt32 := (b.toInt64.toUInt64 >>> 63).toUInt32

/-- `babs` -/
def ctAbs (b : Int8) : UInt32 :=
  let wide := b.toInt32.toUInt32
  wide - (-ctNegative b &&& wide) * 2

/-- `ge_cmov8` -/
def geCmov8 (table : Fin 8 → GePrecomp) (b : Int8) : GePrecomp :=
  let babs := (ctAbs b).toUInt8.toInt8
  let t := gePrecompCmov gePrecomp0 (table 0) (ctEqual babs 1)
  let t := gePrecompCmov t (table 1) (ctEqual babs 2)
  let t := gePrecompCmov t (table 2) (ctEqual babs 3)
  let t := gePrecompCmov t (table 3) (ctEqual babs 4)
  let t := gePrecompCmov t (table 4) (ctEqual babs 5)
  let t := gePrecompCmov t (table 5) (ctEqual babs 6)
  let t := gePrecompCmov t (table 6) (ctEqual babs 7)
  let t := gePrecompCmov t (table 7) (ctEqual babs 8)
  gePrecompCmov t (minust t) (ctNegative b)

/-! ## Odd digits -/

/-- The bits of a scalar. -/
def scalarBits (a : Bytes) : List Int :=
  (List.range 256).map fun i => ((1 &&& ((a.getD (i >>> 3) 0).toNat >>> (i &&& 7)) : Nat) : Int)

/-- The innermost loop of `slide_vartime`, on `k`. -/
def slideCarry : Nat → Nat → List Int → Option (List Int)
  | 0, _, r => some r
  | count + 1, k, r =>
    if r.getD k 0 = 0 then store r k 1
    else do slideCarry count (k + 1) (← store r k 0)

/-- The loop on `b`. -/
def slideWindow (i : Nat) : Nat → Nat → List Int → Option (List Int)
  | 0, _, r => some r
  | count + 1, b, r =>
    if 256 ≤ i + b then some r
    else if r.getD (i + b) 0 = 0 then slideWindow i count (b + 1) r
    else
      let shifted := r.getD (i + b) 0 * 2 ^ b
      if r.getD i 0 + shifted ≤ 15 then do
        let r ← store r i (r.getD i 0 + (← char shifted))
        slideWindow i count (b + 1) (← store r (i + b) 0)
      else if r.getD i 0 - shifted ≥ -15 then do
        let r ← store r i (r.getD i 0 - (← char shifted))
        slideWindow i count (b + 1) (← slideCarry (256 - (i + b)) (i + b) r)
      else some r

/-- The loop on `i`. -/
def slideDigits : Nat → Nat → List Int → Option (List Int)
  | 0, _, r => some r
  | count + 1, i, r =>
    if r.getD i 0 = 0 then slideDigits count (i + 1) r
    else do slideDigits count (i + 1) (← slideWindow i 6 1 r)

/-- `slide_vartime` -/
def slideVartime (a : Bytes) : Option (List Int) := slideDigits 256 0 (scalarBits a)

/-- The entry of `Ai` or `Bi` that `ge_double_scalarmult_vartime` reads for a digit. -/
def tableIndex (digit : Int) : Option Int :=
  if digit > 0 then some (digit.tdiv 2)
  else if digit < 0 then some ((-digit).tdiv 2)
  else none

/-! ## The carry loop -/

/-- The two digits of a byte. -/
def halves (byte : UInt8) : List Int :=
  [((byte.toNat &&& 15 : Nat) : Int), ((byte.toNat >>> 4 &&& 15 : Nat) : Int)]

theorem nibbles_eq {a : Bytes} (size : a.length = 32) : nibbles a = a.flatMap halves := by
  have whole : (List.range 32).map (fun i => a.getD i 0) = a := by
    refine List.ext_getElem (by simp [size]) fun i left right => ?_
    rw [List.getElem_map, List.getElem_range, List.getD_eq_getElem _ _ right]
  calc
    nibbles a = ((List.range 32).map fun i => a.getD i 0).flatMap halves := by
      rw [List.flatMap_map]
      rfl
    _ = a.flatMap halves := by rw [whole]

theorem halves_weigh (byte : UInt8) (rest : Int) :
    weigh 16 (halves byte) + 16 ^ (halves byte).length * rest = byte.toNat + 256 * rest := by
  have parts : (byte.toNat &&& 15) + 16 * (byte.toNat >>> 4 &&& 15) = byte.toNat := by
    revert byte
    exact byte_forall (by decide +kernel)
  simp only [halves, weigh_cons, weigh_nil, List.length_cons, List.length_nil]
  push_cast
  omega

/-- The nibbles weigh what the bytes stand for. -/
theorem nibbles_weigh {a : Bytes} (size : a.length = 32) : weigh 16 (nibbles a) = littleEndian a := by
  rw [nibbles_eq size]
  clear size
  induction a with
  | nil => rfl
  | cons byte rest ih =>
    rw [List.flatMap_cons, weigh_append, ih, halves_weigh, littleEndian_cons]
    push_cast
    rfl

theorem nibbles_length (a : Bytes) : (nibbles a).length = 64 := by
  simp [nibbles]

/-- A digit of the first loop. -/
theorem nibbles_range (a : Bytes) (i : Nat) : 0 ≤ (nibbles a).getD i 0 ∧ (nibbles a).getD i 0 ≤ 15 := by
  have member (digit : Int) (from_ : digit ∈ nibbles a) : 0 ≤ digit ∧ digit ≤ 15 := by
    obtain ⟨j, -, shape⟩ := List.mem_flatMap.mp from_
    have low := Nat.and_le_right (n := (a.getD j 0).toNat) (m := 15)
    have high := Nat.and_le_right (n := (a.getD j 0).toNat >>> 4) (m := 15)
    rcases List.mem_pair.mp shape with rfl | rfl
    · omega
    · omega
  by_cases inside : i < (nibbles a).length
  · rw [List.getD_eq_getElem _ _ inside]
    exact member _ (List.getElem_mem inside)
  · rw [List.getD_eq_default _ _ (Nat.not_lt.mp inside)]
    decide

/-- One round keeps the sum of the digits and the carry, and centers its digit. -/
theorem recenter_step (count : Nat) {i : Nat} {carry : Int} {e : List Int} (inside : i < e.length)
    (bit : carry = 0 ∨ carry = 1) (digit : 0 ≤ e.getD i 0 ∧ e.getD i 0 ≤ 15) :
    ∃ next centered : Int, (next = 0 ∨ next = 1) ∧ -8 ≤ centered ∧ centered ≤ 7 ∧
      centered + 16 * next = e.getD i 0 + carry ∧
      recenter (count + 1) i carry e = recenter count (i + 1) next (e.set i centered) := by
  generalize held : e.getD i 0 = nibble at digit
  have shifted : (nibble + carry + 8) >>> (4 : Nat) = (nibble + carry + 8) / 16 :=
    Int.shiftRight_eq_div_pow _ 4
  have read (x : Int) : (e.set i x).getD i 0 = x := by
    rw [getD_set e inside, if_pos rfl]
  have room (x : Int) : i < (e.set i x).length := by rwa [List.length_set]
  refine ⟨(nibble + carry + 8) / 16, nibble + carry - (nibble + carry + 8) / 16 * 16,
    by omega, by omega, by omega, by omega, ?_⟩
  simp only [recenter, held, Option.bind_eq_bind]
  rw [store_some inside (by omega) (by omega), Option.bind_some, read,
    char_some (by omega) (by omega), Option.bind_some, shifted, char_some (by omega) (by omega),
    Option.bind_some, show (1 : Int) <<< (4 : Nat) = 16 from rfl, store_some (room _) (by omega) (by omega),
    Option.bind_some, List.set_set]

/-- The loop centers the digits it passes and leaves the others. -/
theorem recenter_spec (count : Nat) {i : Nat} {carry : Int} {e : List Int}
    (inside : i + count ≤ e.length) (bit : carry = 0 ∨ carry = 1)
    (digits : ∀ j, i ≤ j → 0 ≤ e.getD j 0 ∧ e.getD j 0 ≤ 15) :
    ∃ last centered, recenter count i carry e = some (last, centered) ∧
      centered.length = e.length ∧ (last = 0 ∨ last = 1) ∧
      weigh 16 centered + 16 ^ (i + count) * last = weigh 16 e + 16 ^ i * carry ∧
      (∀ j, j < i ∨ i + count ≤ j → centered.getD j 0 = e.getD j 0) ∧
      ∀ j, i ≤ j → j < i + count → -8 ≤ centered.getD j 0 ∧ centered.getD j 0 ≤ 7 := by
  induction count generalizing i carry e with
  | zero =>
    refine ⟨carry, e, rfl, rfl, bit, rfl, fun _ _ => rfl, fun j above below => ?_⟩
    omega
  | succ count ih =>
    have here : i < e.length := by omega
    obtain ⟨next, digit, nextBit, low, high, split, step⟩ :=
      recenter_step count here bit (digits i le_rfl)
    have others (j : Nat) (away : j ≠ i) : (e.set i digit).getD j 0 = e.getD j 0 := by
      rw [getD_set e here, if_neg away]
    have length : (e.set i digit).length = e.length := List.length_set
    obtain ⟨last, centered, ran, same, lastBit, total, kept, range⟩ :=
      ih (i := i + 1) (e := e.set i digit) (by omega) nextBit fun j above => by
        rw [others j (by omega)]
        exact digits j (by omega)
    refine ⟨last, centered, step.trans ran, same.trans length, lastBit, ?_, ?_, ?_⟩
    · rw [show i + (count + 1) = i + 1 + count by omega, total, weigh_set here, pow_succ]
      linear_combination (16 : Int) ^ i * split
    · intro j away
      rw [kept j (by omega), others j (by omega)]
    · intro j above below
      by_cases first : j = i
      · subst first
        rw [kept j (by omega), getD_set e here, if_pos rfl]
        exact ⟨low, high⟩
      · exact range j (by omega) (by omega)

/-- The last nibble of a scalar below 2^255. -/
theorem nibbles_last {a : Bytes} (size : a.length = 32) (small : littleEndian a < 2 ^ 255) :
    (nibbles a).getD 63 0 ≤ 7 := by
  have length := nibbles_length a
  have inside : 63 < (nibbles a).length := by omega
  have split := weigh_split 16 (nibbles a) inside.le
  have low : 0 ≤ weigh 16 ((nibbles a).take 63) :=
    weigh_nonneg (by decide) fun j => by
      rw [getD_take]
      split
      · exact (nibbles_range a j).1
      · exact le_rfl
  have top := weigh_drop 16 inside
  rw [List.drop_eq_nil_of_le (i := 63 + 1) (by omega), weigh_nil] at top
  have value := nibbles_weigh size
  have bound : (littleEndian a : Int) < 2 ^ 255 := by exact_mod_cast small
  omega

/-- The digits that `ge_scalarmult_base` computes. -/
theorem scalarDigits_spec {a : Bytes} (size : a.length = 32) (small : littleEndian a < 2 ^ 255) :
    ∃ e, scalarDigits a = some e ∧ e.length = 64 ∧ weigh 16 e = littleEndian a ∧
      ∀ j, -8 ≤ e.getD j 0 ∧ e.getD j 0 ≤ 8 := by
  have length := nibbles_length a
  obtain ⟨last, centered, ran, same, bit, total, kept, range⟩ :=
    recenter_spec 63 (i := 0) (e := nibbles a) (by omega) (.inl rfl) fun j _ => nibbles_range a j
  have top := nibbles_last size small
  have topLow := (nibbles_range a 63).1
  rw [← kept 63 (by omega)] at top topLow
  have inside : 63 < centered.length := by omega
  refine ⟨centered.set 63 (centered.getD 63 0 + last), ?_, ?_, ?_, fun j => ?_⟩
  · rw [scalarDigits, ran, Option.bind_eq_bind, Option.bind_some]
    exact store_some inside (by omega) (by omega)
  · rw [List.length_set, same, length]
  · rw [weigh_set inside, ← nibbles_weigh size]
    linear_combination total
  · rw [getD_set centered inside]
    split
    · omega
    · by_cases below : j < 63
      · have := range j (Nat.zero_le j) (by omega)
        omega
      · rw [kept j (by omega), List.getD_eq_default _ _ (by omega)]
        decide

/-! ## The entry of a digit -/

theorem gePrecompCmov_zero (t u : GePrecomp) : gePrecompCmov t u 0 = t := by
  simp only [gePrecompCmov, feCmov_zero]

theorem gePrecompCmov_one (t u : GePrecomp) : gePrecompCmov t u 1 = u := by
  simp only [gePrecompCmov, feCmov_one]

/-- The entry that stands for a digit: nothing for zero, else one of the eight or its negative. -/
def EntryOf (table : Fin 8 → GePrecomp) (digit : Int) (t : GePrecomp) : Prop :=
  digit = 0 ∧ t = gePrecomp0 ∨
    ∃ k : Fin 8, digit = k + 1 ∧ t = table k ∨ digit = -(k + 1) ∧ t = minust (table k)

/-- A decided flag. -/
def flag (chosen : Bool) : UInt32 := if chosen then 1 else 0

theorem gePrecompCmov_flag (t u : GePrecomp) (chosen : Bool) :
    gePrecompCmov t u (flag chosen) = if chosen then u else t := by
  cases chosen
  · exact gePrecompCmov_zero t u
  · exact gePrecompCmov_one t u

/-- The sign and the magnitude of a digit as the flags see them. -/
theorem flags_eq : ∀ m : Nat, m ≤ 8 → ∀ sign ∈ [(1 : Int), -1],
    ctNegative (Int8.ofInt (sign * m)) = flag (sign * m < 0) ∧
      ∀ k : Nat, k < 8 → ctEqual (ctAbs (Int8.ofInt (sign * m))).toUInt8.toInt8
        (Int8.ofInt ((k : Int) + 1)) = flag (m = k + 1) := by
  decide +kernel

/-- The eight moves leave the entry of the magnitude. -/
theorem geCmov8_eq (table : Fin 8 → GePrecomp) {m : Nat} (small : m ≤ 8) (sign : Int)
    (unit : sign ∈ [(1 : Int), -1]) :
    geCmov8 table (Int8.ofInt (sign * m)) =
      let t := if m = 0 then gePrecomp0 else table (Fin.ofNat 8 (m - 1))
      if sign * m < 0 then minust t else t := by
  obtain ⟨negative, equal⟩ := flags_eq m small sign unit
  have first : ctEqual _ 1 = flag (m = 1) := equal 0 (by decide)
  have second : ctEqual _ 2 = flag (m = 2) := equal 1 (by decide)
  have third : ctEqual _ 3 = flag (m = 3) := equal 2 (by decide)
  have fourth : ctEqual _ 4 = flag (m = 4) := equal 3 (by decide)
  have fifth : ctEqual _ 5 = flag (m = 5) := equal 4 (by decide)
  have sixth : ctEqual _ 6 = flag (m = 6) := equal 5 (by decide)
  have seventh : ctEqual _ 7 = flag (m = 7) := equal 6 (by decide)
  have eighth : ctEqual _ 8 = flag (m = 8) := equal 7 (by decide)
  have magnitude : m = 0 ∨ m = 1 ∨ m = 2 ∨ m = 3 ∨ m = 4 ∨ m = 5 ∨ m = 6 ∨ m = 7 ∨ m = 8 := by
    omega
  simp only [geCmov8, negative, first, second, third, fourth, fifth, sixth, seventh, eighth,
    gePrecompCmov_flag, decide_eq_true_eq]
  rcases magnitude with rfl | rfl | rfl | rfl | rfl | rfl | rfl | rfl | rfl <;> rfl

/-- Every digit selects its entry. -/
theorem geCmov8_entry (table : Fin 8 → GePrecomp) {digit : Int} (low : -8 ≤ digit)
    (high : digit ≤ 8) : EntryOf table digit (geCmov8 table (Int8.ofInt digit)) := by
  rcases lt_trichotomy digit 0 with negative | rfl | positive
  · obtain ⟨k, rfl⟩ : ∃ k : Nat, digit = -1 * ((k + 1 : Nat) : Int) := ⟨(-digit - 1).toNat, by omega⟩
    refine .inr ⟨Fin.ofNat 8 k, .inr ⟨?_, ?_⟩⟩
    · simp only [Fin.val_ofNat]
      omega
    · rw [geCmov8_eq table (by omega) (-1) (by decide), if_pos negative, if_neg k.succ_ne_zero,
        Nat.add_sub_cancel]
  · refine .inl ⟨rfl, ?_⟩
    exact geCmov8_eq table (m := 0) (by decide) 1 (by decide)
  · obtain ⟨k, rfl⟩ : ∃ k : Nat, digit = 1 * ((k + 1 : Nat) : Int) := ⟨(digit - 1).toNat, by omega⟩
    refine .inr ⟨Fin.ofNat 8 k, .inl ⟨?_, ?_⟩⟩
    · simp only [Fin.val_ofNat]
      omega
    · rw [geCmov8_eq table (by omega) 1 (by decide), if_neg (by omega), if_neg k.succ_ne_zero,
        Nat.add_sub_cancel]

/-! ## The sliding window -/

/-- From a position on, the array still holds bits. -/
def BitsFrom (r : List Int) (low : Nat) : Prop := ∀ j, low ≤ j → r.getD j 0 = 0 ∨ r.getD j 0 = 1

theorem BitsFrom.mono {r : List Int} {low high : Nat} (bits : BitsFrom r low) (above : low ≤ high) :
    BitsFrom r high := fun j high => bits j (above.trans high)

/-- An assignment of a bit keeps the others. -/
theorem BitsFrom.set {r : List Int} {low i : Nat} {x : Int} (bits : BitsFrom r low)
    (inside : i < r.length) (fits : low ≤ i → x = 0 ∨ x = 1) : BitsFrom (r.set i x) low := by
  intro j above
  rw [getD_set r inside]
  split
  · rename_i same
    exact fits (same ▸ above)
  · exact bits j above

/-- The part above a position is a number. -/
theorem BitsFrom.nonneg {r : List Int} {low : Nat} (bits : BitsFrom r low) :
    0 ≤ weigh 2 (r.drop low) :=
  weigh_nonneg (by decide) fun j => by
    rw [getD_drop]
    rcases bits (low + j) (Nat.le_add_right _ _) with zero | one
    · exact zero.ge
    · rw [one]
      decide

/-- The loop on `k` adds one to the number above its position, if that leaves room. -/
theorem slideCarry_spec (count : Nat) {k : Nat} {r : List Int} (whole : k + count = r.length)
    (bits : BitsFrom r k) (room : weigh 2 (r.drop k) + 1 < 2 ^ count) :
    ∃ next, slideCarry count k r = some next ∧ next.length = r.length ∧ BitsFrom next k ∧
      next.take k = r.take k ∧ weigh 2 (next.drop k) = weigh 2 (r.drop k) + 1 := by
  induction count generalizing k r with
  | zero =>
    have := bits.nonneg
    rw [pow_zero] at room
    omega
  | succ count ih =>
    have inside : k < r.length := by omega
    rw [slideCarry]
    rcases bits k le_rfl with zero | one
    · rw [if_pos zero, store_some inside (by decide) (by decide)]
      refine ⟨_, rfl, List.length_set, bits.set inside fun _ => .inr rfl, ?_, ?_⟩
      · rw [List.take_set, List.set_eq_of_length_le (by simp)]
      · rw [weigh_drop_set inside le_rfl, zero, Nat.sub_self, pow_zero]
        ring
    · have upper := weigh_drop 2 inside
      rw [if_neg (by rw [one]; decide), store_some inside (by decide) (by decide)]
      have kept : weigh 2 ((r.set k 0).drop (k + 1)) = weigh 2 (r.drop (k + 1)) := by
        rw [List.drop_set_of_lt (Nat.lt_succ_self k)]
      obtain ⟨next, ran, length, nextBits, lower, total⟩ :=
        ih (k := k + 1) (r := r.set k 0) (by rw [List.length_set]; omega)
          ((bits.set inside fun _ => .inl rfl).mono (Nat.le_succ k)) (by
            rw [kept]
            rw [upper, one, pow_succ] at room
            omega)
      rw [List.length_set] at length
      have digit : next.getD k 0 = 0 := by
        have same : (next.take (k + 1)).getD k 0 = ((r.set k 0).take (k + 1)).getD k 0 := by
          rw [lower]
        rwa [getD_take, getD_take, if_pos (Nat.lt_succ_self k), if_pos (Nat.lt_succ_self k),
          getD_set r inside, if_pos rfl] at same
      refine ⟨next, ran, length, ?_, ?_, ?_⟩
      · intro j above
        by_cases first : j = k
        · exact .inl (first ▸ digit)
        · exact nextBits j (by omega)
      · have shorter := congrArg (List.take k) lower
        rwa [List.take_take, List.take_take, min_eq_left (Nat.le_succ k), List.take_set,
          List.set_eq_of_length_le (by simp)] at shorter
      · rw [weigh_drop 2 (show k < next.length by omega), digit, total, kept, upper, one]
        ring

/-- A digit that the tables of odd multiples serve. -/
def OddDigit (digit : Int) : Prop := digit % 2 = 1 ∧ -15 ≤ digit ∧ digit ≤ 15

/-- The state of the window loop at `b`: the digit at `i` is odd, the bits above it stand at or
above `i + b`, and the number from `i` on is below the bound. -/
structure Window (i b : Nat) (value : Int) (r : List Int) : Prop where
  length : r.length = 256
  inside : i + b ≤ 256
  digit : OddDigit (r.getD i 0)
  bits : BitsFrom r (i + 1)
  upper : weigh 2 (r.drop i) = r.getD i 0 + 2 ^ b * weigh 2 (r.drop (i + b))
  total : weigh 2 (r.drop i) = value
  small : (2 : Int) ^ i * value ≤ 2 ^ 253
  room : (2 : Int) ^ (i + b) * weigh 2 (r.drop (i + b)) ≤ 2 ^ 253

/-- A zero bit is passed over. -/
theorem Window.skip {i b : Nat} {value : Int} {r : List Int} (window : Window i b value r)
    (below : i + b < 256) (zero : r.getD (i + b) 0 = 0) : Window i (b + 1) value r := by
  have inside : i + b < r.length := by
    rw [window.length]
    exact below
  have next := weigh_drop 2 inside
  rw [zero, zero_add] at next
  refine { window with inside := below, upper := ?_, room := ?_ }
  · rw [window.upper, next, Nat.add_assoc, pow_succ]
    ring
  · have room := window.room
    rw [next] at room
    rw [← Nat.add_assoc, pow_succ]
    linarith

/-- A one that fits is added to the digit. -/
theorem Window.add {i b : Nat} {value : Int} {r : List Int} (window : Window i b value r)
    (positive : 0 < b) (below : i + b < 256) (one : r.getD (i + b) 0 = 1)
    (fits : r.getD i 0 + 2 ^ b ≤ 15) :
    Window i (b + 1) value ((r.set i (r.getD i 0 + 2 ^ b)).set (i + b) 0) := by
  have length := window.length
  have here : i < r.length := by omega
  have there : i + b < (r.set i (r.getD i 0 + 2 ^ b)).length := by
    rw [List.length_set]
    omega
  have apart : i + b ≠ i := by omega
  have even : (2 : Int) ^ b % 2 = 0 := by
    obtain ⟨half, rfl⟩ := Nat.exists_eq_succ_of_ne_zero positive.ne'
    rw [pow_succ]
    omega
  have power : (0 : Int) < 2 ^ b := by positivity
  obtain ⟨odd, low, high⟩ := window.digit
  have digit : ((r.set i (r.getD i 0 + 2 ^ b)).set (i + b) 0).getD i 0 = r.getD i 0 + 2 ^ b := by
    rw [getD_set _ there, if_neg apart.symm, getD_set r here, if_pos rfl]
  have above : ((r.set i (r.getD i 0 + 2 ^ b)).set (i + b) 0).drop (i + (b + 1)) =
      r.drop (i + (b + 1)) := by
    rw [List.drop_set_of_lt (by omega), List.drop_set_of_lt (by omega)]
  have inside : i + b < r.length := by omega
  have next := weigh_drop 2 inside
  rw [one, Nat.add_assoc] at next
  have total : weigh 2 (((r.set i (r.getD i 0 + 2 ^ b)).set (i + b) 0).drop i) = value := by
    rw [weigh_drop_set there (Nat.le_add_right i b), weigh_drop_set here le_rfl, getD_set r here,
      if_neg apart, one, window.total, Nat.add_sub_cancel_left, Nat.sub_self]
    ring
  exact {
    length := by rw [List.length_set, List.length_set, length]
    inside := below
    digit := by
      rw [digit]
      exact ⟨by omega, by omega, fits⟩
    bits := (window.bits.set here fun above => by omega).set there fun _ => .inl rfl
    upper := by
      rw [total, digit, above, ← window.total, window.upper, next, pow_succ]
      ring
    total := total
    small := window.small
    room := by
      have room := window.room
      have positive : (0 : Int) < 2 ^ (i + b) := by positivity
      rw [next] at room
      rw [above, ← Nat.add_assoc, pow_succ, Nat.add_assoc]
      linarith }

/-- Where a one is subtracted instead, the bits above leave room for the carry. -/
theorem Window.carry_room {i b : Nat} {value : Int} {r : List Int} (window : Window i b value r)
    (one : 1 ≤ weigh 2 (r.drop (i + b))) (positive : 0 < r.getD i 0) :
    (2 : Int) ^ (i + b) * (weigh 2 (r.drop (i + b)) + 1) ≤ 2 ^ 253 := by
  have scale : (0 : Int) < 2 ^ i := by positivity
  have strict : (2 : Int) ^ (i + b) * weigh 2 (r.drop (i + b)) < 2 ^ 253 :=
    calc
      (2 : Int) ^ (i + b) * weigh 2 (r.drop (i + b)) =
          2 ^ i * (value - r.getD i 0) := by
        rw [← window.total, window.upper, pow_add]
        ring
      _ < 2 ^ i * value := by
        apply mul_lt_mul_of_pos_left _ scale
        omega
      _ ≤ 2 ^ 253 := window.small
  by_cases low : i + b ≤ 253
  · have factor : (2 : Int) ^ 253 = 2 ^ (i + b) * 2 ^ (253 - (i + b)) := by
      rw [← pow_add, Nat.add_sub_cancel' low]
    have power : (0 : Int) < 2 ^ (i + b) := by positivity
    rw [factor] at strict ⊢
    exact mul_le_mul_of_nonneg_left (Int.add_one_le_iff.mpr (lt_of_mul_lt_mul_left strict power.le))
      power.le
  · have large : (2 : Int) ^ 253 ≤ 2 ^ (i + b) :=
      pow_le_pow_right₀ (by decide) (by omega)
    have power : (0 : Int) < 2 ^ (i + b) := by positivity
    have := le_mul_of_one_le_right power.le one
    omega

/-- A one that does not fit is subtracted, and the carry added above. -/
theorem Window.sub {i b : Nat} {value : Int} {r : List Int} (window : Window i b value r)
    (positive : 0 < b) (below : i + b < 256) (one : r.getD (i + b) 0 = 1)
    (exceeds : 15 < r.getD i 0 + 2 ^ b) (fits : -15 ≤ r.getD i 0 - 2 ^ b) :
    ∃ next, slideCarry (256 - (i + b)) (i + b) (r.set i (r.getD i 0 - 2 ^ b)) = some next ∧
      Window i (b + 1) value next ∧ next.take i = r.take i := by
  have length := window.length
  have here : i < r.length := by omega
  have even : (2 : Int) ^ b % 2 = 0 := by
    obtain ⟨half, rfl⟩ := Nat.exists_eq_succ_of_ne_zero positive.ne'
    rw [pow_succ]
    omega
  obtain ⟨odd, low, high⟩ := window.digit
  have bits : BitsFrom (r.set i (r.getD i 0 - 2 ^ b)) (i + 1) :=
    window.bits.set here fun above => by omega
  have upper : (r.set i (r.getD i 0 - 2 ^ b)).drop (i + b) = r.drop (i + b) := by
    rw [List.drop_set_of_lt (by omega)]
  have inside : i + b < r.length := by omega
  have split := weigh_drop 2 inside
  have above : i + 1 ≤ i + b + 1 := by omega
  have rest := (window.bits.mono above).nonneg
  rw [one] at split
  have room := window.carry_room (by omega) (by omega)
  have power : (0 : Int) < 2 ^ (i + b) := by positivity
  have short : weigh 2 (r.drop (i + b)) + 1 < 2 ^ (256 - (i + b)) := by
    apply lt_of_mul_lt_mul_left _ power.le
    calc
      (2 : Int) ^ (i + b) * (weigh 2 (r.drop (i + b)) + 1) ≤ 2 ^ 253 := room
      _ < 2 ^ 256 := by decide
      _ = 2 ^ (i + b) * 2 ^ (256 - (i + b)) := by
        rw [← pow_add, Nat.add_sub_cancel' below.le]
  obtain ⟨next, ran, same, nextBits, lower, total⟩ :=
    slideCarry_spec (256 - (i + b)) (k := i + b) (r := r.set i (r.getD i 0 - 2 ^ b))
      (by rw [List.length_set]; omega) (bits.mono (by omega)) (by rw [upper]; exact short)
  rw [upper] at total
  rw [List.length_set] at same
  have kept (j : Nat) (low : j < i + b) :
      next.getD j 0 = (r.set i (r.getD i 0 - 2 ^ b)).getD j 0 := by
    have digits := congrArg (fun list => list.getD j 0) lower
    simpa only [getD_take, if_pos low] using digits
  have digit : next.getD i 0 = r.getD i 0 - 2 ^ b := by
    rw [kept i (by omega), getD_set r here, if_pos rfl]
  have still : i + b < next.length := by omega
  have cleared := weigh_drop 2 still
  rw [total, split] at cleared
  have zero : next.getD (i + b) 0 = 0 := by
    have := nextBits (i + b) le_rfl
    omega
  rw [zero, zero_add] at cleared
  have whole : weigh 2 (next.drop i) = value := by
    have room : i + b ≤ (r.set i (r.getD i 0 - 2 ^ b)).length := by
      rw [List.length_set]
      exact inside.le
    have after := weigh_drop_split 2 next still.le
    have before := weigh_drop_split 2 (r.set i (r.getD i 0 - 2 ^ b)) room
    rw [weigh_drop_set here le_rfl, Nat.sub_self, pow_zero, window.total, upper] at before
    rw [after, lower, total]
    linear_combination -before
  refine ⟨next, ran, ?_, ?_⟩
  · exact {
      length := same.trans length
      inside := below
      digit := by
        rw [digit]
        exact ⟨by omega, fits, by omega⟩
      bits := by
        intro j above
        by_cases inner : j < i + b
        · rw [kept j inner]
          exact bits j above
        · exact nextBits j (Nat.not_lt.mp inner)
      upper := by
        have sum := window.upper
        rw [window.total, split] at sum
        rw [whole, digit, ← Nat.add_assoc, sum, pow_succ]
        linear_combination (2 : Int) ^ b * cleared
      total := whole
      small := window.small
      room := by
        have bound := room
        rw [split, cleared] at bound
        rw [← Nat.add_assoc, pow_succ]
        linarith }
  · have shorter := congrArg (List.take i) lower
    rwa [List.take_take, List.take_take, min_eq_left (by omega), List.take_set,
      List.set_eq_of_length_le (by simp)] at shorter

/-- The window loop leaves an odd digit, with bits above it, and the number as it was. -/
theorem slideWindow_spec (count : Nat) {i b : Nat} {value : Int} {r : List Int} (positive : 0 < b)
    (last : b + count = 7) (window : Window i b value r) :
    ∃ next width, slideWindow i count b r = some next ∧ 0 < width ∧ Window i width value next ∧
      next.take i = r.take i := by
  induction count generalizing b r with
  | zero => exact ⟨r, b, rfl, positive, window, rfl⟩
  | succ count ih =>
    rw [slideWindow]
    by_cases outside : 256 ≤ i + b
    · rw [if_pos outside]
      exact ⟨r, b, rfl, positive, window, rfl⟩
    have below : i + b < 256 := Nat.not_le.mp outside
    rw [if_neg outside]
    rcases window.bits (i + b) (by omega) with zero | one
    · rw [if_pos zero]
      exact ih b.succ_pos (by omega) (window.skip below zero)
    -- a one stands at `i + b`, and shifted it is a signed char
    have power : (0 : Int) < 2 ^ b := by positivity
    have char : char (2 ^ b) = some (2 ^ b) := by
      have bound : (2 : Int) ^ b ≤ 2 ^ 6 := pow_le_pow_right₀ (by decide) (by omega)
      exact char_some (by omega) (by omega)
    have length := window.length
    have here : i < r.length := by omega
    obtain ⟨-, low, high⟩ := window.digit
    rw [if_neg (by rw [one]; decide)]
    simp only [one, one_mul, char, Option.bind_eq_bind, Option.bind_some]
    by_cases fits : r.getD i 0 + 2 ^ b ≤ 15
    · rw [if_pos fits, store_some here (by omega) (by omega), Option.bind_some,
        store_some (by rw [List.length_set]; omega) (by decide) (by decide), Option.bind_some]
      obtain ⟨next, width, ran, wide, after, lower⟩ :=
        ih b.succ_pos (by omega) (window.add positive below one fits)
      refine ⟨next, width, ran, wide, after, ?_⟩
      rw [lower, List.take_set, List.set_eq_of_length_le (by simp), List.take_set,
        List.set_eq_of_length_le (by simp)]
    · rw [if_neg fits]
      by_cases carries : r.getD i 0 - 2 ^ b ≥ -15
      · obtain ⟨carried, ripple, inner, kept⟩ :=
          window.sub positive below one (Int.not_le.mp fits) carries
        rw [if_pos carries, store_some here (by omega) (by omega), Option.bind_some, ripple,
          Option.bind_some]
        obtain ⟨next, width, ran, wide, after, lower⟩ := ih b.succ_pos (by omega) inner
        exact ⟨next, width, ran, wide, after, lower.trans kept⟩
      · rw [if_neg carries]
        exact ⟨r, b, rfl, positive, window, rfl⟩

/-- A digit of the result: zero, or odd with an entry in the tables. -/
def SlideDigit (digit : Int) : Prop := digit = 0 ∨ OddDigit digit

/-- The outer loop from `i` on. -/
theorem slideDigits_spec (count : Nat) {i : Nat} {r : List Int} (length : r.length = 256)
    (whole : i + count = 256) (done : ∀ j < i, SlideDigit (r.getD j 0)) (bits : BitsFrom r i)
    (room : (2 : Int) ^ i * weigh 2 (r.drop i) ≤ 2 ^ 253) :
    ∃ next, slideDigits count i r = some next ∧ next.length = 256 ∧ weigh 2 next = weigh 2 r ∧
      ∀ j, SlideDigit (next.getD j 0) := by
  induction count generalizing i r with
  | zero =>
    refine ⟨r, rfl, length, rfl, fun j => ?_⟩
    by_cases inside : j < i
    · exact done j inside
    · rw [List.getD_eq_default _ _ (by omega)]
      exact .inl rfl
  | succ count ih =>
    have here : i < r.length := by omega
    have upper := weigh_drop 2 here
    rw [slideDigits]
    rcases bits i le_rfl with zero | one
    · rw [if_pos zero]
      refine ih length (by omega) (fun j below => ?_) (bits.mono i.le_succ) ?_
      · by_cases first : j = i
        · exact .inl (first ▸ zero)
        · exact done j (by omega)
      · rw [upper, zero, zero_add] at room
        rw [pow_succ]
        linarith
    · have start : Window i 1 (weigh 2 (r.drop i)) r := {
        length := length
        inside := by omega
        digit := by
          rw [one]
          exact ⟨by decide, by decide, by decide⟩
        bits := bits.mono i.le_succ
        upper := by rw [upper, pow_one]
        total := rfl
        small := room
        room := by
          rw [upper, one] at room
          have power : (0 : Int) < 2 ^ i := by positivity
          rw [pow_succ]
          linarith }
      obtain ⟨next, width, ran, wide, after, lower⟩ :=
        slideWindow_spec 6 Nat.one_pos rfl start
      have same := after.length
      have inside : i < next.length := by omega
      have split := weigh_drop 2 inside
      have sum : weigh 2 next = weigh 2 r := by
        rw [weigh_split 2 next inside.le, weigh_split 2 r here.le, lower, after.total]
      rw [if_neg (by rw [one]; decide), ran, Option.bind_eq_bind, Option.bind_some, ← sum]
      refine ih same (by omega) (fun j below => ?_) after.bits ?_
      · by_cases first : j = i
        · exact .inr (first ▸ after.digit)
        · have kept := congrArg (fun list => list.getD j 0) lower
          simp only [getD_take, if_pos (show j < i by omega)] at kept
          rw [kept]
          exact done j (by omega)
      · calc
          (2 : Int) ^ (i + 1) * weigh 2 (next.drop (i + 1)) =
              2 ^ i * (2 ^ width * weigh 2 (next.drop (i + width))) := by
            have twice : 2 * weigh 2 (next.drop (i + 1)) =
                2 ^ width * weigh 2 (next.drop (i + width)) := by
              have sum := after.upper
              rw [split] at sum
              exact add_left_cancel sum
            rw [← twice, pow_succ]
            ring
          _ = 2 ^ (i + width) * weigh 2 (next.drop (i + width)) := by
            rw [pow_add]
            ring
          _ ≤ 2 ^ 253 := after.room

/-- The bits of a scalar are those of its number. -/
theorem scalarBits_eq (a : Bytes) :
    scalarBits a = (List.range 256).map fun i => (((littleEndian a).testBit i).toNat : Int) := by
  refine List.map_congr_left fun i _ => ?_
  have index : i >>> 3 = i / 8 := Nat.shiftRight_eq_div_pow i 3
  have offset : i &&& 7 = i % 8 := Nat.and_two_pow_sub_one_eq_mod i 3
  rw [index, offset, littleEndian_testBit, Nat.toNat_testBit, Nat.one_and_eq_mod_two,
    Nat.shiftRight_eq_div_pow]

/-- The digits of `slide_vartime`. -/
theorem slideVartime_spec {a : Bytes} (small : littleEndian a < 2 ^ 253) :
    ∃ r, slideVartime a = some r ∧ r.length = 256 ∧ weigh 2 r = littleEndian a ∧
      ∀ j, SlideDigit (r.getD j 0) := by
  have length : (scalarBits a).length = 256 := by simp [scalarBits]
  have value : weigh 2 (scalarBits a) = littleEndian a := by
    rw [scalarBits_eq, weigh_testBit, Nat.mod_eq_of_lt (small.trans (by decide))]
  have bits : BitsFrom (scalarBits a) 0 := by
    intro j _
    by_cases inside : j < (scalarBits a).length
    · rw [List.getD_eq_getElem _ _ inside]
      simp only [scalarBits_eq, List.getElem_map]
      cases (littleEndian a).testBit _
      · exact .inl rfl
      · exact .inr rfl
    · exact .inl (List.getD_eq_default _ _ (Nat.not_lt.mp inside))
  obtain ⟨r, ran, same, total, digits⟩ := slideDigits_spec 256 length rfl
    (fun j below => absurd below (Nat.not_lt_zero j)) bits (by
      rw [List.drop_zero, value, pow_zero, one_mul]
      exact_mod_cast small.le)
  exact ⟨r, ran, same, total.trans value, digits⟩

/-- The entry of a digit lies in the tables. -/
theorem tableIndex_range {digit index : Int} (odd : SlideDigit digit)
    (read : tableIndex digit = some index) : 0 ≤ index ∧ index ≤ 7 := by
  have range : -15 ≤ digit ∧ digit ≤ 15 := by
    rcases odd with rfl | ⟨-, low, high⟩
    · decide
    · exact ⟨low, high⟩
  unfold tableIndex at read
  split at read
  · cases read
    rw [Int.tdiv_eq_ediv_of_nonneg (by omega)]
    omega
  · split at read
    · cases read
      rw [Int.tdiv_eq_ediv_of_nonneg (by omega)]
      omega
    · cases read

/-! ## Both recodings -/

/-- What holds at every position holds of every digit. -/
theorem digits_forall {digits : List Int} {holds : Int → Prop} (all : ∀ j, holds (digits.getD j 0)) :
    ∀ digit ∈ digits, holds digit := by
  intro digit member
  obtain ⟨j, inside, rfl⟩ := List.getElem_of_mem member
  rw [← List.getD_eq_getElem _ 0 inside]
  exact all j

/-- Scalars are rewritten exactly, within signed chars and within the tables. -/
theorem recodings_exact (a : Bytes) (size : a.length = 32) :
    (littleEndian a < 2 ^ 255 → ∃ e, scalarDigits a = some e ∧ e.length = 64 ∧
      ∑ i ∈ Finset.range 64, e.getD i 0 * 16 ^ i = littleEndian a ∧
      ∀ digit ∈ e, -8 ≤ digit ∧ digit ≤ 8 ∧
        ∀ table, EntryOf table digit (geCmov8 table (Int8.ofInt digit))) ∧
    (littleEndian a < 2 ^ 253 → ∃ r, slideVartime a = some r ∧ r.length = 256 ∧
      ∑ i ∈ Finset.range 256, r.getD i 0 * 2 ^ i = littleEndian a ∧
      ∀ digit ∈ r, (digit = 0 ∨ digit % 2 = 1 ∧ -15 ≤ digit ∧ digit ≤ 15) ∧
        ∀ index, tableIndex digit = some index → 0 ≤ index ∧ index ≤ 7) := by
  constructor
  · intro small
    obtain ⟨e, computed, length, value, digits⟩ := scalarDigits_spec size small
    refine ⟨e, computed, length, ?_, digits_forall fun j => ?_⟩
    · rw [← value, weigh_eq_sum, length]
    · obtain ⟨low, high⟩ := digits j
      exact ⟨low, high, fun table => geCmov8_entry table low high⟩
  · intro small
    obtain ⟨r, computed, length, value, digits⟩ := slideVartime_spec small
    refine ⟨r, computed, length, ?_, digits_forall fun j => ?_⟩
    · rw [← value, weigh_eq_sum, length]
    · exact ⟨digits j, fun index => tableIndex_range (digits j)⟩

/-- The recodings of a scalar whose top byte is fifteen. -/
theorem recodings_exact_fifteen :
    ∃ e r, scalarDigits (List.replicate 31 255 ++ [15]) = some e ∧
      slideVartime (List.replicate 31 255 ++ [15]) = some r := by
  have both := recodings_exact (List.replicate 31 255 ++ [15]) rfl
  obtain ⟨e, radix, -⟩ := both.1 (by decide +kernel)
  obtain ⟨r, slide, -⟩ := both.2 (by decide +kernel)
  exact ⟨e, r, radix, slide⟩

end Cookbook.Crypto
