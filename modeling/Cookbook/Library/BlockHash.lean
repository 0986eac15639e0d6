import Mathlib.Algebra.Group.Nat.Defs
import Cookbook.Library.Text

/-!
# Hashing in pieces

A hash function of the iterated kind feeds blocks of one size into a compression function. A context
that takes its message in pieces keeps the state behind the full blocks and the bytes behind these.
What it holds is a function of the message alone, whatever the pieces are.
-/
namespace Library.BlockHash

open Library.Text

variable {σ : Type}

section Feed

variable (compress : σ → Bytes → σ) (size : Nat)

/-- The loop over the full blocks: the state behind them and the rest of the data. -/
def absorb : Nat → σ → Bytes → σ × Bytes
  | 0, state, data => (state, data)
  | fuel + 1, state, data =>
    if size ≤ data.length then absorb fuel (compress state (data.take size)) (data.drop size)
    else (state, data)

/-- The loop with steps enough for its data. -/
def feed (state : σ) (data : Bytes) : σ × Bytes := absorb compress size data.length state data

variable {size} (positive : 0 < size)
include positive

/-- The loop ends in front of its last step. -/
theorem absorb_enough {fuel : Nat} (state : σ) (data : Bytes) (enough : data.length ≤ fuel) :
    absorb compress size fuel state data = feed compress size state data := by
  rw [feed]
  induction fuel using Nat.strongRecOn generalizing state data with
  | ind fuel ih =>
    cases fuel with
    | zero => rw [Nat.le_zero.mp enough]
    | succ fuel =>
      cases shape : data.length with
      | zero =>
        have short : ¬ size ≤ data.length := by omega
        simp only [absorb, if_neg short]
      | succ count =>
        rw [absorb, absorb]
        split
        · have rest : (data.drop size).length ≤ count := by rw [List.length_drop]; omega
          rw [ih fuel (by omega) _ _ (by omega), ih count (by omega) _ _ rest]
        · rfl

omit positive in
/-- Data that make no block are the rest. -/
theorem feed_short (state : σ) {data : Bytes} (short : data.length < size) :
    feed compress size state data = (state, data) := by
  rw [feed]
  cases data.length with
  | zero => rfl
  | succ count => rw [absorb, if_neg (Nat.not_le.mpr short)]

/-- The first block is compressed. -/
theorem feed_block (state : σ) {block : Bytes} (full : block.length = size) (data : Bytes) :
    feed compress size state (block ++ data) = feed compress size (compress state block) data := by
  have long : size ≤ (block ++ data).length := by rw [List.length_append]; omega
  obtain ⟨count, shape⟩ : ∃ count, (block ++ data).length = count + 1 :=
    Nat.exists_eq_succ_of_ne_zero (by omega)
  rw [feed, shape, absorb, if_pos long, ← full, List.take_left, List.drop_left, full]
  rw [List.length_append] at shape
  exact absorb_enough compress positive _ _ (by omega)

/-- The rest makes no block, and the full blocks are gone from it. -/
theorem feed_rest (state : σ) (data : Bytes) :
    (feed compress size state data).2 = data.drop (data.length - data.length % size) := by
  induction shape : data.length using Nat.strongRecOn generalizing state data with
  | ind count ih =>
    by_cases short : data.length < size
    · rw [feed_short compress state short, ← shape, Nat.mod_eq_of_lt short, Nat.sub_self,
        List.drop_zero]
    · have parts := List.take_append_drop size data
      have full : (data.take size).length = size := List.length_take_of_le (Nat.not_lt.mp short)
      have rest := List.length_drop (i := size) (l := data)
      have step := feed_block compress positive state full (data.drop size)
      rw [parts] at step
      rw [step, ih (data.drop size).length (by omega) _ _ rfl, List.drop_drop, rest, shape]
      congr 1
      have same : (count - size) % size = count % size :=
        (Nat.mod_eq_sub_mod (by omega)).symm
      have below := Nat.mod_lt count positive
      have inside : count % size ≤ count - size := by
        have split := Nat.div_add_mod count size
        have once : 1 ≤ count / size := (Nat.one_le_div_iff positive).mpr (by omega)
        have many := Nat.mul_le_mul_left size once
        omega
      rw [same]
      omega

/-- The rest is shorter than a block. -/
theorem feed_rest_length (state : σ) (data : Bytes) :
    (feed compress size state data).2.length = data.length % size := by
  have inside := Nat.mod_le data.length size
  rw [feed_rest compress positive, List.length_drop]
  omega

/-- Data in two pieces are fed in turn, the second one behind the rest of the first. -/
theorem feed_append (state : σ) (front data : Bytes) :
    feed compress size state (front ++ data) =
      feed compress size (feed compress size state front).1
        ((feed compress size state front).2 ++ data) := by
  induction shape : front.length using Nat.strongRecOn generalizing state front with
  | ind count ih =>
    by_cases short : front.length < size
    · rw [feed_short compress state short]
    · have parts := List.take_append_drop size front
      have full : (front.take size).length = size := List.length_take_of_le (Nat.not_lt.mp short)
      have rest := List.length_drop (i := size) (l := front)
      have step := feed_block compress positive state full (front.drop size)
      have both := feed_block compress positive state full (front.drop size ++ data)
      rw [parts] at step
      rw [← List.append_assoc, parts] at both
      rw [both, step, ih (front.drop size).length (by omega) _ _ rfl]

/-- No data leave the state. -/
theorem feed_nil (state : σ) : feed compress size state [] = (state, []) :=
  feed_short compress state positive

/-- The state behind the full blocks, block by block. -/
theorem feed_state (state : σ) (data : Bytes) :
    (feed compress size state data).1 =
      (List.range (data.length / size)).foldl
        (fun state index => compress state ((data.drop (index * size)).take size)) state := by
  induction shape : data.length using Nat.strongRecOn generalizing state data with
  | ind count ih =>
    by_cases short : data.length < size
    · rw [feed_short compress state short, ← shape, Nat.div_eq_of_lt short, List.range_zero,
        List.foldl_nil]
    · have parts := List.take_append_drop size data
      have full : (data.take size).length = size := List.length_take_of_le (Nat.not_lt.mp short)
      have rest := List.length_drop (i := size) (l := data)
      have step := feed_block compress positive state full (data.drop size)
      rw [parts] at step
      have blocks : count / size = (data.drop size).length / size + 1 := by
        rw [rest, shape]
        exact Nat.div_eq_sub_div positive (by omega)
      rw [step, ih (data.drop size).length (by omega) _ _ rfl, blocks, List.range_succ_eq_map,
        List.foldl_cons, List.foldl_map, Nat.zero_mul, List.drop_zero]
      simp only [List.drop_drop, Nat.succ_eq_add_one, Nat.add_mul, Nat.one_mul, Nat.add_comm]

end Feed

/-! ## Contexts -/

/-- A context of the source: the state, the number of bytes and the buffer. -/
structure Context (σ : Type) where
  /-- `state` -/
  state : σ
  /-- `count` -/
  count : UInt64
  /-- `buf` -/
  buf : Bytes

/-- `memcpy` or `memset` into a buffer. -/
def write (buf : Bytes) (position : Nat) (piece : Bytes) : Bytes :=
  buf.take position ++ piece ++ buf.drop (position + piece.length)

/-- A write inside of the buffer keeps its length. -/
theorem write_length {buf : Bytes} {position : Nat} {piece : Bytes}
    (fits : position + piece.length ≤ buf.length) :
    (write buf position piece).length = buf.length := by
  simp only [write, List.length_append, List.length_take, List.length_drop]
  omega

/-- What is written stands behind what stood in front of it. -/
theorem write_take {buf : Bytes} {position : Nat} {piece : Bytes}
    (fits : position + piece.length ≤ buf.length) :
    (write buf position piece).take (position + piece.length) = buf.take position ++ piece := by
  rw [write]
  refine List.take_left' ?_
  rw [List.length_append, List.length_take]
  omega

/-- A write up to the end of the buffer. -/
theorem write_full {buf : Bytes} {position : Nat} {piece : Bytes}
    (full : position + piece.length = buf.length) :
    write buf position piece = buf.take position ++ piece := by
  rw [write, full, List.drop_length, List.append_nil]

section Holding

variable (compress : σ → Bytes → σ) (size : Nat) (start : σ)

/-- The context holds a message: the state behind its full blocks, its length and its rest. -/
structure Holds (message : Bytes) (context : Context σ) : Prop where
  /-- The state is the one behind the full blocks. -/
  state : context.state = (feed compress size start message).1
  /-- The bytes are counted. -/
  count : context.count = UInt64.ofNat message.length
  /-- The buffer has room for a block. -/
  room : context.buf.length = size
  /-- The buffer starts with the rest. -/
  rest : context.buf.take (message.length % size) = (feed compress size start message).2


variable {compress size start}

/-- A fresh context holds nothing. -/
theorem Holds.fresh {buf : Bytes} (positive : 0 < size) (room : buf.length = size) :
    Holds compress size start [] ⟨start, 0, buf⟩ where
  state := by rw [feed_nil compress positive]
  count := rfl
  room := room
  rest := by rw [feed_nil compress positive, List.length_nil, Nat.zero_mod, List.take_zero]

/-- The position of the source in the buffer. -/
theorem Holds.position {message : Bytes} {context : Context σ} (divides : size ∣ 2 ^ 64)
    (holds : Holds compress size start message context) :
    context.count.toNat % size = message.length % size := by
  rw [holds.count, UInt64.toNat_ofNat', Nat.mod_mod_of_dvd _ divides]

/-- A context holds more when it fed the new data behind the rest. -/
theorem Holds.step {message data : Bytes} {context next : Context σ} (positive : 0 < size)
    (holds : Holds compress size start message context)
    (count : next.count = context.count + UInt64.ofNat data.length)
    (room : next.buf.length = size)
    (fed : (next.state, next.buf.take ((message.length % size + data.length) % size)) =
      feed compress size context.state (context.buf.take (message.length % size) ++ data)) :
    Holds compress size start (message ++ data) next := by
  have whole := feed_append compress positive start message data
  rw [← holds.state, ← holds.rest, ← fed] at whole
  refine ⟨by rw [whole], ?_, room, ?_⟩
  · rw [count, holds.count, List.length_append, UInt64.ofNat_add]
  · rw [whole, List.length_append, ← Nat.mod_add_mod]

/-- The end of an update: the loop over the full blocks, and a copy of the rest into the buffer. -/
def absorbRest (compress : σ → Bytes → σ) (size position : Nat) (state : σ) (buf data : Bytes) :
    σ × Bytes :=
  let fed := feed compress size state data
  (fed.1, if fed.2 = [] then buf else write buf position fed.2)

/-- Behind a copy to its start the buffer starts with the rest. -/
theorem absorbRest_spec (compress : σ → Bytes → σ) (positive : 0 < size) (state : σ) {buf : Bytes} (data : Bytes)
    (room : buf.length = size) :
    (absorbRest compress size 0 state buf data).2.length = size ∧
      ((absorbRest compress size 0 state buf data).1,
        (absorbRest compress size 0 state buf data).2.take (data.length % size)) =
      feed compress size state data := by
  have length := feed_rest_length compress positive state data
  have below := Nat.mod_lt data.length positive
  by_cases none : (feed compress size state data).2 = []
  · rw [none, List.length_nil] at length
    simp only [absorbRest, if_pos none, ← length, List.take_zero]
    exact ⟨room, Prod.ext rfl none.symm⟩
  · have fits : 0 + (feed compress size state data).2.length ≤ buf.length := by omega
    have front := write_take fits
    rw [List.take_zero, List.nil_append, Nat.zero_add, length] at front
    simp only [absorbRest, if_neg none, front]
    exact ⟨(write_length fits).trans room, trivial⟩

/-- New data that do not fill the buffer stand behind the rest. -/
theorem Holds.kept {message data : Bytes} {context : Context σ} (positive : 0 < size)
    (holds : Holds compress size start message context)
    (short : message.length % size + data.length < size) :
    Holds compress size start (message ++ data)
      ⟨context.state, context.count + UInt64.ofNat data.length,
        write context.buf (message.length % size) data⟩ := by
  have fits : message.length % size + data.length ≤ context.buf.length := by
    rw [holds.room]; omega
  refine holds.step positive rfl ((write_length fits).trans holds.room) ?_
  have front := write_take fits
  have rest : (context.buf.take (message.length % size) ++ data).length < size := by
    rw [List.length_append, List.length_take]
    omega
  rw [feed_short compress context.state rest, Nat.mod_eq_of_lt short, front]

/-- The same by an update that finds no full block. -/
theorem Holds.kept_rest {message data : Bytes} {context : Context σ} (positive : 0 < size)
    (holds : Holds compress size start message context)
    (short : message.length % size + data.length < size) :
    let rest := absorbRest compress size (message.length % size) context.state context.buf data
    Holds compress size start (message ++ data)
      ⟨rest.1, context.count + UInt64.ofNat data.length, rest.2⟩ := by
  intro rest
  have fed : feed compress size context.state data = (context.state, data) :=
    feed_short compress context.state (by omega)
  have same : rest = (context.state, write context.buf (message.length % size) data) := by
    simp only [rest, absorbRest, fed]
    split
    · rename_i none
      rw [none, write, List.append_nil, List.length_nil, Nat.add_zero, List.take_append_drop]
    · rfl
  rw [same]
  exact holds.kept positive short

/-- New data that fill the buffer complete a block, and what is behind it is absorbed. -/
theorem Holds.filled {message data : Bytes} {context : Context σ} {fill : Nat} (positive : 0 < size)
    (holds : Holds compress size start message context)
    (full : message.length % size + fill = size) (long : fill ≤ data.length) :
    let block := write context.buf (message.length % size) (data.take fill)
    let rest := absorbRest compress size 0 (compress context.state block) block (data.drop fill)
    Holds compress size start (message ++ data)
      ⟨rest.1, context.count + UInt64.ofNat data.length, rest.2⟩ := by
  intro block rest
  have taken : (data.take fill).length = fill := List.length_take_of_le long
  have fits : message.length % size + (data.take fill).length ≤ context.buf.length := by
    rw [holds.room, taken, full]
  have room : block.length = size := (write_length fits).trans holds.room
  have front := write_take fits
  rw [taken, full, List.take_of_length_le (Nat.le_of_eq room)] at front
  have behind := absorbRest_spec compress positive (compress context.state block)
    (data.drop fill) room
  refine holds.step positive rfl behind.1 ?_
  have length : (message.length % size + data.length) % size = (data.drop fill).length % size := by
    have whole : message.length % size + data.length = size + (data.drop fill).length := by
      rw [List.length_drop]; omega
    rw [whole, Nat.add_mod_left]
  have parts := feed_block compress positive context.state room (data.drop fill)
  rw [front, List.append_assoc, List.take_append_drop] at parts
  rw [length, parts, ← front]
  exact behind.2

/-- New data behind full blocks are absorbed. -/
theorem Holds.absorbed {message data : Bytes} {context : Context σ} (positive : 0 < size)
    (holds : Holds compress size start message context) (aligned : message.length % size = 0) :
    let rest := absorbRest compress size 0 context.state context.buf data
    Holds compress size start (message ++ data)
      ⟨rest.1, context.count + UInt64.ofNat data.length, rest.2⟩ := by
  intro rest
  have behind := absorbRest_spec compress positive context.state data holds.room
  refine holds.step positive rfl behind.1 ?_
  rw [aligned, Nat.zero_add, List.take_zero, List.nil_append]
  exact behind.2

/-- A run of updates holds its pieces joined, where each of them holds one piece more. -/
theorem Holds.run (update : Context σ → Bytes → Context σ)
    (step : ∀ {message : Bytes} {context : Context σ},
      Holds compress size start message context → ∀ data : Bytes,
        Holds compress size start (message ++ data) (update context data))
    {context : Context σ} (fresh : Holds compress size start [] context) (pieces : List Bytes) :
    Holds compress size start pieces.flatten (pieces.foldl update context) := by
  have behind (message : Bytes) (context : Context σ)
      (holds : Holds compress size start message context) :
      Holds compress size start (message ++ pieces.flatten) (pieces.foldl update context) := by
    induction pieces generalizing message context with
    | nil => simpa using holds
    | cons piece pieces ih =>
      have next := ih (message ++ piece) _ (step holds piece)
      rwa [List.append_assoc] at next
  exact behind [] context fresh

/-- The number of bits, below the limit of the standard. -/
theorem Holds.bits {message : Bytes} {context : Context σ}
    (holds : Holds compress size start message context) (small : message.length < 2 ^ 61) :
    (context.count * 8).toNat = 8 * message.length := by
  have counted : (UInt64.ofNat message.length).toNat = message.length := by
    rw [UInt64.toNat_ofNat', Nat.mod_eq_of_lt (by omega)]
  have fits : message.length * 8 < 2 ^ 64 := by omega
  rw [holds.count, UInt64.toNat_mul, counted]
  exact (Nat.mod_eq_of_lt fits).trans (Nat.mul_comm _ _)

/-! ## The end of a message -/

/-- What stands behind a message: a one bit, zeros, and the length field at the end of a block. -/
def padding (size : Nat) (field : Bytes) (length : Nat) : Bytes :=
  0x80 :: (List.replicate ((size - (length + 1 + field.length) % size) % size) 0 ++ field)

/-- The end of the message is written into the buffer, in a block of its own where the length field
does not fit. -/
def finish (compress : σ → Bytes → σ) (size position : Nat) (field : Bytes) (context : Context σ) :
    σ :=
  let marked := write context.buf position [0x80]
  let room := size - field.length
  if room < position + 1 then
    let filled := write marked (position + 1) (List.replicate (size - (position + 1)) 0)
    let state := compress context.state filled
    compress state (write (write filled 0 (List.replicate room 0)) room field)
  else
    compress context.state
      (write (write marked (position + 1) (List.replicate (room - (position + 1)) 0)) room field)

/-- A piece up to the place of the length field, and the field behind it. -/
theorem block_field {buf piece field : Bytes} {position : Nat} (room : buf.length = size)
    (fits : position + piece.length = size - field.length) (small : field.length < size) :
    (write (write buf position piece) (size - field.length) field).length = size ∧
      write (write buf position piece) (size - field.length) field =
        buf.take position ++ piece ++ field := by
  have inside : position + piece.length ≤ buf.length := by omega
  have length := (write_length inside).trans room
  have full : size - field.length + field.length = (write buf position piece).length := by omega
  refine ⟨(write_length (Nat.le_of_eq full)).trans length, ?_⟩
  rw [write_full full, ← fits, write_take inside]

/-- The zeros of the padding, from the place of the message's end in its block. -/
theorem padding_zeros (length : Nat) {field : Nat} (small : field < size) :
    (size - (length + 1 + field) % size) % size =
      if size - field < length % size + 1 then size - (length % size + 1) + (size - field)
      else size - field - (length % size + 1) := by
  have below := Nat.mod_lt length (show 0 < size by omega)
  have place : (length + 1 + field) % size = (length % size + 1 + field) % size := by
    rw [Nat.add_assoc, Nat.add_assoc, Nat.mod_add_mod]
  rw [place]
  generalize length % size = position at below
  split
  · rename_i late
    have reduced : (position + 1 + field) % size = position + 1 + field - size := by
      rw [Nat.mod_eq_sub_mod (by omega), Nat.mod_eq_of_lt (by omega)]
    rw [reduced, Nat.mod_eq_of_lt (by omega)]
    omega
  · rename_i early
    by_cases exact : position + 1 + field = size
    · rw [exact, Nat.mod_self, Nat.sub_zero, Nat.mod_self]
      omega
    · rw [Nat.mod_eq_of_lt (show position + 1 + field < size by omega), Nat.mod_eq_of_lt (by omega)]
      omega

/-- The end of the message feeds its padding. -/
theorem Holds.finish {message field : Bytes} {context : Context σ}
    (holds : Holds compress size start message context) (small : field.length < size) :
    finish compress size (message.length % size) field context =
      (feed compress size start (message ++ padding size field message.length)).1 := by
  have positive : 0 < size := by omega
  have below := Nat.mod_lt message.length positive
  have room := holds.room
  rw [feed_append compress positive, ← holds.state, ← holds.rest, padding,
    padding_zeros message.length small]
  generalize message.length % size = position at below
  have one : position + [(0x80 : UInt8)].length ≤ context.buf.length := by
    simp only [List.length_cons, List.length_nil]; omega
  have markedRoom := (write_length one).trans room
  have markedFront := write_take one
  simp only [List.length_cons, List.length_nil] at markedFront
  generalize marked : write context.buf position [0x80] = buf at markedRoom markedFront
  rw [BlockHash.finish, marked]
  split
  · rename_i late
    rw [← List.replicate_append_replicate]
    have full : position + 1 + (List.replicate (size - (position + 1)) (0 : UInt8)).length =
        buf.length := by rw [List.length_replicate]; omega
    have first := write_full full
    rw [markedFront] at first
    have firstRoom := (write_length (Nat.le_of_eq full)).trans markedRoom
    generalize write buf (position + 1) (List.replicate (size - (position + 1)) 0) = filled
      at first firstRoom
    -- the zeros in front of the length field start a second block
    have zeros : 0 + (List.replicate (size - field.length) (0 : UInt8)).length =
        size - field.length := by rw [List.length_replicate, Nat.zero_add]
    obtain ⟨secondRoom, second⟩ := block_field firstRoom zeros small
    have shape : context.buf.take position ++ 0x80 :: (List.replicate (size - (position + 1)) 0 ++
          List.replicate (size - field.length) 0 ++ field) =
        filled ++ (List.replicate (size - field.length) 0 ++ field) := by
      rw [first]
      simp only [List.append_assoc, List.cons_append, List.nil_append]
    rw [List.take_zero, List.nil_append] at second
    have fed := feed_block compress positive (compress context.state filled) secondRoom []
    rw [List.append_nil, feed_nil compress positive] at fed
    rw [shape, feed_block compress positive _ firstRoom, ← second, fed]
  · rename_i early
    have zeros : position + 1 +
        (List.replicate (size - field.length - (position + 1)) (0 : UInt8)).length =
        size - field.length := by rw [List.length_replicate]; omega
    obtain ⟨blockRoom, block⟩ := block_field markedRoom zeros small
    rw [markedFront] at block
    have fed := feed_block compress positive context.state blockRoom []
    rw [List.append_nil, feed_nil compress positive, block] at fed
    have shape : context.buf.take position ++
          0x80 :: (List.replicate (size - field.length - (position + 1)) 0 ++ field) =
        context.buf.take position ++ [0x80] ++
          List.replicate (size - field.length - (position + 1)) 0 ++ field := by
      simp only [List.append_assoc, List.cons_append, List.nil_append]
    rw [shape, fed, block]

end Holding

/-! ## Keyed codes -/

/-- The key of a code in one block: a longer one is hashed, a shorter one has zeros behind it. -/
def keyBlock (hash : Bytes → Bytes) (size : Nat) (key : Bytes) : Bytes :=
  let short := if size < key.length then hash key else key
  short ++ List.replicate (size - short.length) 0

/-- The keyed code of a message: the hash of the hash of the message, with the key in front of both. -/
def hmac (hash : Bytes → Bytes) (size : Nat) (key data : Bytes) : Bytes :=
  hash ((keyBlock hash size key).map (· ^^^ 0x5C) ++
    hash ((keyBlock hash size key).map (· ^^^ 0x36) ++ data))

/-- The key fills its block. -/
theorem keyBlock_length {hash : Bytes → Bytes} {size : Nat} (key : Bytes)
    (width : (hash key).length ≤ size) : (keyBlock hash size key).length = size := by
  rw [keyBlock, List.length_append, List.length_replicate]
  split <;> omega

end Library.BlockHash
