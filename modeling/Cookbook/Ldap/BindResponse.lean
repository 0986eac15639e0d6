import Cookbook.Ldap.Lengths

/-!
# Answers to a bind request

`parse_bind_response` looks for three tags behind the length fields and takes four bytes of the result
code. It does not compare the lengths that it reads with each other, and it does not read a length field
of more than three length bytes.
-/
namespace Cookbook.Ldap

open Library.Text Library.Ber Tls

/-! ## Bind responses -/

/-- A message number: an `INTEGER` from zero to 2147483647. -/
def IsMessageId (id : Bytes) : Prop := id ≠ [] ∧ id.length ≤ 4 ∧ id.headD 0 < 0x80

instance (id : Bytes) : Decidable (IsMessageId id) := inferInstanceAs (Decidable (_ ∧ _ ∧ _))

/-- An `LDAPMessage` with a `BindResponse`, cut into its elements. -/
structure BindResponse where
  /-- The contents of the message. -/
  message : Bytes
  /-- `messageID` -/
  id : Bytes
  /-- `protocolOp` and what follows it. -/
  op : Bytes
  /-- The contents of the `BindResponse`. -/
  response : Bytes
  /-- `resultCode` -/
  code : Bytes
  /-- `matchedDN` -/
  matchedDn : Bytes
  /-- `diagnosticMessage` -/
  diagnostic : Bytes

/-- The bind response at the start of a text, each element inside the one that holds it. -/
def bindResponse (bytes : Bytes) : Option BindResponse :=
  (element berSequence bytes).bind fun (message, _) =>
  (element berInteger message).bind fun (id, op) =>
  (element ldapBindResp op).bind fun (response, _) =>
  (element berEnum response).bind fun (code, strings) =>
  (element berOctetStr strings).bind fun (matchedDn, more) =>
  (element berOctetStr more).bind fun (diagnostic, _) =>
    if IsMessageId id ∧ code ≠ [] then
      some ⟨message, id, op, response, code, matchedDn, diagnostic⟩
    else none

/-- A bind response whose result code is zero. -/
def BindSuccess (bytes : Bytes) : Prop :=
  ∃ found, bindResponse bytes = some found ∧ ∀ byte ∈ found.code, byte = 0

instance (bytes : Bytes) : Decidable (BindSuccess bytes) :=
  decidable_of_iff ((bindResponse bytes).any (fun found => found.code.all (· == 0)) = true)
    (by simp [BindSuccess, Option.any_eq_true])

example : BindSuccess [0x30, 0x0C, 0x02, 0x01, 0x01, 0x61, 0x07, 0x0A, 0x01, 0x00, 0x04, 0x00, 0x04,
    0x00] := by decide

/-! ## What the client sees -/

/-- What `parse_bind_response` reads up to the result code. -/
structure BindView where
  /-- `seq_len` -/
  seqLen : Nat
  /-- What stands behind it. -/
  message : Bytes
  /-- `resp_len` -/
  respLen : Nat
  /-- What stands behind it. -/
  response : Bytes

/-- The two tags in front of the result code, each where the cursor comes to. -/
def bindView : Bytes → Option BindView
  | [] => none
  | first :: rest =>
    if first ≠ berSequence ∨ (lengthField rest).1 = 0 then none
    else
      match afterInt (lengthField rest).2 with
      | [] => none
      | tag :: behind =>
        if tag ≠ ldapBindResp then none
        else some ⟨(lengthField rest).1, (lengthField rest).2, (lengthField behind).1,
          (lengthField behind).2⟩

/-- An `ENUMERATED` that ends in four zero bytes, or in as many as it has. -/
def ZeroCode : Bytes → Prop
  | [] => False
  | first :: rest =>
    first = berEnum ∧ (lengthField rest).1 ≠ 0 ∧
      (lengthField rest).1 ≤ (lengthField rest).2.length ∧
        ∀ byte ∈ ((lengthField rest).2.take (lengthField rest).1).drop ((lengthField rest).1 - 4),
          byte = 0

instance : (text : Bytes) → Decidable (ZeroCode text)
  | [] => inferInstanceAs (Decidable False)
  | _ :: _ => inferInstanceAs (Decidable (_ ∧ _ ∧ _ ∧ _))

/-- An `int` takes the number of the bytes that are shifted into it. -/
theorem foldl_shiftIn (value : BitVec 32) (bytes : Bytes) :
    bytes.foldl shiftIn value =
      BitVec.ofNat 32 (value.toNat * 256 ^ bytes.length + number bytes) := by
  induction bytes generalizing value with
  | nil => simp [number]
  | cons byte bytes ih =>
    have step : shiftIn value byte = BitVec.ofNat 32 (value.toNat * 256 + byte.toNat) := by
      have bound := byte.toNat_lt
      apply BitVec.eq_of_toNat_eq
      have apart : (value.toNat * 256 % 4294967296) ||| byte.toNat =
          value.toNat * 256 % 4294967296 + byte.toNat := by
        rw [show value.toNat * 256 % 4294967296 = 2 ^ 8 * (value.toNat % 16777216) by omega,
          Nat.two_pow_add_eq_or_of_lt (by omega)]
      simp only [shiftIn, BitVec.toNat_or, BitVec.toNat_shiftLeft, BitVec.toNat_setWidth,
        BitVec.toNat_ofNat, Nat.shiftLeft_eq, UInt8.toNat_toBitVec, Nat.reducePow]
      rw [Nat.mod_eq_of_lt (show byte.toNat < 4294967296 by omega), apart]
      omega
    rw [List.foldl_cons, ih, step, number_cons, List.length_cons, BitVec.toNat_ofNat]
    apply BitVec.eq_of_toNat_eq
    simp only [BitVec.toNat_ofNat]
    rw [Nat.pow_succ, Nat.add_mod, Nat.mod_mul_mod, ← Nat.add_mod]
    congr 1
    ring

/-- The `int` is zero when its last four bytes are. -/
theorem foldl_shiftIn_eq_zero (bytes : Bytes) :
    bytes.foldl shiftIn 0 = 0 ↔ ∀ byte ∈ bytes.drop (bytes.length - 4), byte = 0 := by
  have low : number bytes % 2 ^ 32 = number (bytes.drop (bytes.length - 4)) := by
    have bound := number_lt (bytes.drop (bytes.length - 4))
    have small : 256 ^ (bytes.drop (bytes.length - 4)).length ≤ 256 ^ 4 :=
      Nat.pow_le_pow_right (by decide) (by rw [List.length_drop]; omega)
    by_cases long : 4 ≤ bytes.length
    · have cut := number_append (bytes.take (bytes.length - 4)) (bytes.drop (bytes.length - 4))
      have four : (bytes.drop (bytes.length - 4)).length = 4 := by rw [List.length_drop]; omega
      rw [List.take_append_drop, four] at cut
      rw [cut]
      omega
    · have none : bytes.length - 4 = 0 := by omega
      rw [none, List.drop_zero] at bound small ⊢
      omega
  rw [foldl_shiftIn, ← number_eq_zero, ← low]
  constructor
  · intro zero
    simpa using congrArg BitVec.toNat zero
  · intro zero
    apply BitVec.eq_of_toNat_eq
    simpa using zero

/-- The last part of the parser succeeds on a code that it takes for zero. -/
theorem readCode_eq_zero (bytes : Bytes) (beyond : Nat → UInt8) (pos : Nat) :
    (if bytes.length ≤ pos ∨ Region.get ⟨bytes, beyond⟩ pos ≠ berEnum then (-1 : Int)
      else
        let (rcLen, pos) := berReadLength ⟨bytes, beyond⟩ bytes.length (pos + 1)
        if rcLen = 0 ∨ bytes.length < pos + rcLen then -1
        else
          if (Region.slice ⟨bytes, beyond⟩ pos rcLen).foldl shiftIn 0 = 0 then 0 else -1) = 0 ↔
      ZeroCode (bytes.drop pos) := by
  by_cases ends : bytes.length ≤ pos
  · rw [if_pos (.inl ends), List.drop_of_length_le ends]
    simp [ZeroCode]
  rw [drop_eq beyond (Nat.not_le.mp ends)]
  by_cases other : Region.get ⟨bytes, beyond⟩ pos = berEnum
  · obtain ⟨-, within, read⟩ := berReadLength_eq bytes beyond (pos + 1) (by omega)
    rw [if_neg (not_or.mpr ⟨ends, not_not.mpr other⟩)]
    generalize berReadLength ⟨bytes, beyond⟩ bytes.length (pos + 1) = field at within read ⊢
    simp only [ZeroCode, other, read, true_and, List.length_drop]
    by_cases refused : field.1 = 0 ∨ bytes.length < field.2 + field.1
    · rw [if_pos refused]
      refine iff_of_false (by decide) ?_
      rintro ⟨some, fits, -⟩
      omega
    · have size : ((bytes.drop field.2).take field.1).length = field.1 := by
        rw [List.length_take, List.length_drop]
        omega
      have zero := foldl_shiftIn_eq_zero ((bytes.drop field.2).take field.1)
      rw [size] at zero
      rw [if_neg refused, slice_eq beyond (by omega)]
      constructor
      · intro success
        refine ⟨by omega, by omega, zero.mp ?_⟩
        by_contra nonzero
        rw [if_neg nonzero] at success
        cases success
      · rintro ⟨-, -, code⟩
        exact if_pos (zero.mpr code)
  · rw [if_pos (.inr other)]
    simp [ZeroCode, other]

/-- The view of a message whose response starts behind its number. -/
def viewResponse (seqLen : Nat) (message : Bytes) : Bytes → Option BindView
  | [] => none
  | tag :: behind =>
    if tag ≠ ldapBindResp then none
    else some ⟨seqLen, message, (lengthField behind).1, (lengthField behind).2⟩

/-- The parser succeeds exactly where its tags stand in front of a code that it takes for zero. -/
theorem parseBindResponse_eq_zero (bytes : Bytes) (beyond : Nat → UInt8) :
    parseBindResponse ⟨bytes, beyond⟩ bytes.length = 0 ↔
      ∃ view, bindView bytes = some view ∧ ZeroCode view.response := by
  have failed (view : Option BindView) (none : view = none) :
      (-1 : Int) = 0 ↔ ∃ found, view = some found ∧ ZeroCode found.response := by
    simp [none]
  unfold parseBindResponse
  cases bytes with
  | nil => exact failed _ rfl
  | cons first rest =>
    have start : Region.get ⟨first :: rest, beyond⟩ 0 = first := rfl
    obtain ⟨-, inside, read⟩ := berReadLength_eq (first :: rest) beyond 1 (by simp)
    rw [List.drop_succ_cons, List.drop_zero] at read
    rw [start]
    generalize berReadLength ⟨first :: rest, beyond⟩ (first :: rest).length 1 = outer
      at inside read ⊢
    by_cases other : first = berSequence
    swap
    · rw [if_pos (.inr other)]
      exact failed _ (if_pos (.inl other))
    rw [if_neg (by simp [other])]
    by_cases empty : outer.1 = 0
    · simp only [if_pos empty]
      exact failed _ (if_pos (.inr (by rw [read]; exact empty)))
    simp only [if_neg empty]
    obtain ⟨within, passed⟩ := berReadInt_eq (first :: rest) beyond inside
    generalize (berReadInt ⟨first :: rest, beyond⟩ (first :: rest).length outer.2).2 = behind
      at within passed ⊢
    have view : bindView (first :: rest) =
        viewResponse outer.1 ((first :: rest).drop outer.2) ((first :: rest).drop behind) := by
      rw [← passed]
      simp only [bindView]
      rw [if_neg (by simp [other, read, empty]), read]
      cases afterInt ((first :: rest).drop outer.2) <;> rfl
    rw [view]
    by_cases ends : (first :: rest).length ≤ behind
    · rw [if_pos (.inl ends), List.drop_of_length_le ends]
      exact failed _ rfl
    rw [drop_eq beyond (Nat.not_le.mp ends)]
    by_cases tagged : Region.get ⟨first :: rest, beyond⟩ behind = ldapBindResp
    swap
    · rw [if_pos (.inr tagged)]
      exact failed _ (if_pos tagged)
    obtain ⟨-, -, answer⟩ := berReadLength_eq (first :: rest) beyond (behind + 1) (by omega)
    rw [if_neg (by simp only [tagged, ne_eq, not_true_eq_false, or_false]; exact ends)]
    simp only [viewResponse, tagged, ne_eq, not_true_eq_false, if_false, answer,
      Option.some.injEq, exists_eq_left']
    exact readCode_eq_zero (first :: rest) beyond _

/-! ## Where the parser agrees -/

/-- The elements that the parser passes lie inside each other: the message inside the buffer, a message
number and the response inside the message, a code of zero bytes and two strings inside the response. -/
structure Nested (view : BindView) : Prop where
  message : view.seqLen ≤ view.message.length
  id : ∃ id op, element berInteger (view.message.take view.seqLen) = some (id, op) ∧ IsMessageId id
  response : view.respLen + (view.message.length - view.seqLen) ≤ view.response.length
  code : ∃ code strings, element berEnum (view.response.take view.respLen) = some (code, strings) ∧
    (∀ byte ∈ code, byte = 0) ∧ ∃ matchedDn more, element berOctetStr strings = some (matchedDn, more) ∧
      (element berOctetStr more).isSome

/-- No length field in front of the result code or of what holds it has more than three length
bytes. -/
def Short (bytes : Bytes) (found : BindResponse) : Prop :=
  ∀ text ∈ [bytes, found.message, found.op, found.response], ¬ LongField (text.drop 1)

/-- A success whose `BindResponse` has a length field of more than three length bytes: these bytes read
as a code of zero. -/
def Accident (bytes : Bytes) : Prop :=
  (∃ found, bindResponse bytes = some found ∧ (∀ byte ∈ found.code, byte = 0) ∧
    LongField (found.op.drop 1)) ∧ ∃ view, bindView bytes = some view ∧ ZeroCode view.response

/-- The lengths that the parser passes over are right, and a success has none that it does not read. -/
structure Straight (bytes : Bytes) : Prop where
  nested : ∀ view, bindView bytes = some view → ZeroCode view.response → Nested view
  short : ∀ found, bindResponse bytes = some found → (∀ byte ∈ found.code, byte = 0) →
    Short bytes found

/-- A bind response as its elements, one inside the other. -/
theorem bindResponse_some {bytes : Bytes} {found : BindResponse}
    (read : bindResponse bytes = some found) :
    ∃ trailing controls strings more rest,
      element berSequence bytes = some (found.message, trailing) ∧
      element berInteger found.message = some (found.id, found.op) ∧
      element ldapBindResp found.op = some (found.response, controls) ∧
      element berEnum found.response = some (found.code, strings) ∧
      element berOctetStr strings = some (found.matchedDn, more) ∧
      element berOctetStr more = some (found.diagnostic, rest) ∧
      IsMessageId found.id ∧ found.code ≠ [] := by
  unfold bindResponse at read
  obtain ⟨⟨message, trailing⟩, outer, read⟩ := Option.bind_eq_some_iff.mp read
  obtain ⟨⟨id, op⟩, number, read⟩ := Option.bind_eq_some_iff.mp read
  obtain ⟨⟨response, controls⟩, answer, read⟩ := Option.bind_eq_some_iff.mp read
  obtain ⟨⟨code, strings⟩, result, read⟩ := Option.bind_eq_some_iff.mp read
  obtain ⟨⟨matchedDn, more⟩, name, read⟩ := Option.bind_eq_some_iff.mp read
  obtain ⟨⟨diagnostic, rest⟩, text, read⟩ := Option.bind_eq_some_iff.mp read
  simp only at read number answer result name text
  split at read
  · next valid =>
    obtain rfl := Option.some.inj read
    exact ⟨trailing, controls, strings, more, rest, outer, number, answer, result, name, text, valid⟩
  · cases read

/-- A field of up to three length bytes in front of its element. -/
theorem lengthField_element {tag : UInt8} {text contents behind : Bytes} (rest : Bytes)
    (read : element tag text = some (contents, behind)) (short : ¬ LongField (text.drop 1)) :
    ∃ later, text = tag :: later ∧
      lengthField (later ++ rest) = (contents.length, contents ++ behind ++ rest) := by
  obtain ⟨field, isField, rfl⟩ := element_eq_some.mp read
  refine ⟨_, rfl, lengthField_short ?_ ?_⟩
  · rw [List.append_assoc, isField, List.append_assoc]
  · obtain ⟨first, more, rfl⟩ := List.exists_cons_of_ne_nil isField.ne_nil
    exact short

/-- A small length in more than three length bytes starts with a zero byte. -/
theorem longField_zero {first : UInt8} {more : Bytes} {length : Nat}
    (isField : IsField (first :: more) length) (long : LongField (first :: more))
    (small : length ≤ 4) : ∃ later, more = 0 :: later := by
  have above : 131 < first.toNat := UInt8.lt_iff_toNat_lt.mp long
  have wide : ¬ first < 0x80 := fun below => by
    have : first.toNat < 128 := UInt8.lt_iff_toNat_lt.mp below
    omega
  have read := isField []
  simp only [List.append_nil, definiteLength, if_neg wide, length_byte wide] at read
  split at read
  · cases read
  obtain ⟨value, all⟩ := Prod.mk.inj (Option.some.inj read)
  have size : more.length ≤ first.toNat - 128 := List.drop_eq_nil_iff.mp all
  rw [List.take_of_length_le size] at value
  cases more with
  | nil =>
    simp only [List.length_nil] at *
    omega
  | cons head later =>
    have scale : 256 ^ 3 ≤ 256 ^ later.length :=
      Nat.pow_le_pow_right (by decide) (by simp only [List.length_cons] at *; omega)
    have top : head.toNat * 256 ^ 3 ≤ head.toNat * 256 ^ later.length :=
      Nat.mul_le_mul_left _ scale
    rw [number_cons] at value
    refine ⟨later, congrArg (· :: later) (UInt8.toNat_inj.mp ?_)⟩
    rw [UInt8.toNat_zero]
    omega

/-- The client passes a message number whose length field it reads; behind one that it does not read it
comes to a zero byte. -/
theorem afterInt_id {text id op : Bytes} (rest : Bytes)
    (read : element berInteger text = some (id, op)) (valid : IsMessageId id) :
    (¬ LongField (text.drop 1) ∧ afterInt (text ++ rest) = op ++ rest) ∨
      (LongField (text.drop 1) ∧ ∃ later, afterInt (text ++ rest) = 0 :: later) := by
  obtain ⟨some, four, -⟩ := valid
  have positive := List.length_pos_iff.mpr some
  by_cases long : LongField (text.drop 1)
  · refine .inr ⟨long, ?_⟩
    obtain ⟨field, isField, rfl⟩ := element_eq_some.mp read
    obtain ⟨first, more, rfl⟩ := List.exists_cons_of_ne_nil isField.ne_nil
    obtain ⟨later, rfl⟩ := longField_zero isField long four
    have unread : lengthField (first :: 0 :: (later ++ (id ++ op) ++ rest)) =
        (0, 0 :: (later ++ (id ++ op) ++ rest)) := lengthField_long _ long
    refine ⟨later ++ (id ++ op) ++ rest, ?_⟩
    simp only [List.cons_append, afterInt, ne_eq, not_true_eq_false, if_false, unread]
    rw [if_pos (by simp)]
  · refine .inl ⟨long, ?_⟩
    obtain ⟨later, rfl, field⟩ := lengthField_element rest read long
    simp only [List.cons_append, afterInt, field, ne_eq, not_true_eq_false, if_false]
    rw [if_neg (by simp only [List.length_append]; omega)]
    simp

/-- What the client sees of a bind response whose outer length fields it reads. -/
theorem bindView_found {bytes trailing controls : Bytes} {found : BindResponse}
    (outer : element berSequence bytes = some (found.message, trailing))
    (number : element berInteger found.message = some (found.id, found.op))
    (answer : element ldapBindResp found.op = some (found.response, controls))
    (valid : IsMessageId found.id) (short : ¬ LongField (bytes.drop 1))
    (idShort : ¬ LongField (found.message.drop 1)) :
    bindView bytes = some ⟨found.message.length, found.message ++ trailing,
      (lengthField (found.op.drop 1 ++ trailing)).1,
      (lengthField (found.op.drop 1 ++ trailing)).2⟩ := by
  obtain ⟨later, shape, field⟩ := lengthField_element [] outer short
  rw [List.append_nil, List.append_nil] at field
  have passed := (afterInt_id trailing number valid).resolve_right fun long => idShort long.1
  obtain ⟨opField, -, opShape⟩ := element_eq_some.mp answer
  have filled : found.message.length ≠ 0 := by
    obtain ⟨idField, -, messageShape⟩ := element_eq_some.mp number
    simp [messageShape]
  rw [shape]
  simp only [bindView, field, passed.2]
  rw [if_neg (by simp [filled]), opShape]
  rfl

/-- The outer length fields of a bind response that the client gets behind are short. -/
theorem bindView_short {bytes trailing : Bytes} {found : BindResponse} {view : BindView}
    (outer : element berSequence bytes = some (found.message, trailing))
    (number : element berInteger found.message = some (found.id, found.op))
    (valid : IsMessageId found.id) (seen : bindView bytes = some view) :
    ¬ LongField (bytes.drop 1) ∧ ¬ LongField (found.message.drop 1) := by
  have short : ¬ LongField (bytes.drop 1) := by
    intro long
    obtain ⟨field, isField, shape⟩ := element_eq_some.mp outer
    obtain ⟨first, more, rfl⟩ := List.exists_cons_of_ne_nil isField.ne_nil
    rw [shape] at long seen
    have unread : lengthField (first :: (more ++ (found.message ++ trailing))) =
        (0, more ++ (found.message ++ trailing)) := lengthField_long _ long
    simp only [List.cons_append, bindView, unread, or_true, if_true] at seen
    cases seen
  refine ⟨short, fun long => ?_⟩
  obtain ⟨later, shape, field⟩ := lengthField_element [] outer short
  rw [List.append_nil, List.append_nil] at field
  obtain ⟨-, behind, passed⟩ := (afterInt_id trailing number valid).resolve_left fun read => read.1 long
  rw [shape] at seen
  simp only [bindView, field, passed] at seen
  split at seen
  · cases seen
  · rw [if_pos (by decide)] at seen
    cases seen

/-- The field in front of what is read as a result code is read, and its length is that of the code. -/
theorem zeroCode_element {text code strings : Bytes} (rest : Bytes)
    (read : element berEnum text = some (code, strings)) (zero : ZeroCode (text ++ rest)) :
    ¬ LongField (text.drop 1) ∧ code ≠ [] := by
  obtain ⟨field, isField, rfl⟩ := element_eq_some.mp read
  obtain ⟨first, more, rfl⟩ := List.exists_cons_of_ne_nil isField.ne_nil
  simp only [List.cons_append, ZeroCode] at zero
  obtain ⟨length, short⟩ := definiteLength_of_nonzero zero.2.1
  have same := isField (code ++ strings ++ rest)
  rw [List.cons_append, ← List.append_assoc, length] at same
  refine ⟨short, fun empty => zero.2.1 ?_⟩
  rw [(Prod.mk.inj (Option.some.inj same)).1, empty, List.length_nil]

/-- A code of zero bytes behind a field that is read. -/
theorem zeroCode_found {text code strings : Bytes} (rest : Bytes)
    (read : element berEnum text = some (code, strings)) (short : ¬ LongField (text.drop 1))
    (some : code ≠ []) (zero : ∀ byte ∈ code, byte = 0) : ZeroCode (text ++ rest) := by
  obtain ⟨later, rfl, field⟩ := lengthField_element rest read short
  simp only [List.cons_append, ZeroCode, field]
  refine ⟨trivial, by simpa using some, by simp, fun byte member => zero byte ?_⟩
  rw [List.append_assoc, List.take_left] at member
  exact List.mem_of_mem_drop member

/-- Inside a nested view stands a success. -/
theorem bindSuccess_of_nested {bytes : Bytes} {view : BindView} (seen : bindView bytes = some view)
    (zero : ZeroCode view.response) (nested : Nested view) : BindSuccess bytes := by
  obtain ⟨id, op, number, valid⟩ := nested.id
  obtain ⟨code, strings, result, zeros, matchedDn, more, name, last⟩ := nested.code
  obtain ⟨⟨diagnostic, rest⟩, text⟩ := Option.isSome_iff_exists.mp last
  cases bytes with
  | nil => cases seen
  | cons first after =>
    simp only [bindView] at seen
    split at seen
    · cases seen
    next opened =>
    simp only [not_or, not_not] at opened
    obtain ⟨rfl, filled⟩ := opened
    cases passed : afterInt (lengthField after).2 with
    | nil => simp only [passed] at seen; cases seen
    | cons tag behind =>
      simp only [passed] at seen
      split at seen
      · cases seen
      next tagged =>
      obtain rfl := not_not.mp tagged
      obtain rfl := Option.some.inj seen
      have inside := nested.message
      have within := nested.response
      simp only at number result inside within zero
      -- the message, and what the buffer holds behind it
      obtain ⟨outerField, -, outerShape, isOuter⟩ :=
        definiteLength_some (definiteLength_of_nonzero filled).1
      obtain ⟨trailing, message⟩ : ∃ trailing, (lengthField after).2 =
          (lengthField after).2.take (lengthField after).1 ++ trailing :=
        ⟨_, (List.take_append_drop _ _).symm⟩
      have outer : element berSequence (berSequence :: after) =
          some ((lengthField after).2.take (lengthField after).1, trailing) := by
        refine element_eq_some.mpr ⟨outerField, ?_, ?_⟩
        · rwa [List.length_take_of_le inside]
        · rw [← message, ← outerShape]
      have behindLength : (lengthField after).2.length - (lengthField after).1 =
          trailing.length := by
        have sizes := congrArg List.length message
        rw [List.length_append, List.length_take_of_le inside] at sizes
        omega
      rw [behindLength] at within
      rw [message] at passed
      -- the response inside the message
      have reached : op ++ trailing = ldapBindResp :: behind := by
        rcases afterInt_id trailing number valid with ⟨-, read⟩ | ⟨-, later, read⟩
        · rw [← read, passed]
        · rw [passed] at read
          exact absurd (List.cons.inj read).1 (by decide)
      have answered : (lengthField behind).1 ≠ 0 := by
        intro none
        rw [none, List.take_zero] at result
        cases result
      obtain ⟨controls, answer⟩ :=
        element_front reached (definiteLength_of_nonzero answered).1 within
      have some : code ≠ [] := by
        refine (zeroCode_element ((lengthField behind).2.drop (lengthField behind).1) result ?_).2
        rwa [List.take_append_drop]
      refine ⟨⟨(lengthField after).2.take (lengthField after).1, id, op,
        (lengthField behind).2.take (lengthField behind).1, code, matchedDn, diagnostic⟩, ?_, zeros⟩
      simp only [bindResponse, outer, number, answer, result, name, text, Option.bind_some]
      exact if_pos ⟨valid, some⟩

/-- The parser succeeds exactly on the successes if and only if the lengths that it passes over are
right and a success has none that it does not read. -/
theorem parseBindResponse_exact_iff (bytes : Bytes) (beyond : Nat → UInt8) :
    (parseBindResponse ⟨bytes, beyond⟩ bytes.length = 0 ↔ BindSuccess bytes) ↔
      Straight bytes ∨ Accident bytes := by
  rw [parseBindResponse_eq_zero]
  constructor
  · intro exact
    by_cases seen : ∃ view, bindView bytes = some view ∧ ZeroCode view.response
    · obtain ⟨found, read, zero⟩ := exact.mp seen
      by_cases long : LongField (found.op.drop 1)
      · exact .inr ⟨⟨found, read, zero, long⟩, seen⟩
      obtain ⟨trailing, controls, strings, more, rest, outer, number, answer, result, name, text,
        valid, some⟩ := bindResponse_some read
      obtain ⟨view, viewed, code⟩ := seen
      obtain ⟨short, idShort⟩ := bindView_short outer number valid viewed
      obtain ⟨later, shape, field⟩ := lengthField_element trailing answer long
      have same := bindView_found outer number answer valid short idShort
      rw [shape, List.drop_one, List.tail_cons, field, List.append_assoc] at same
      obtain rfl := Option.some.inj (viewed.symm.trans same)
      have codeShort := (zeroCode_element _ result code).1
      refine .inl ⟨fun other seen _ => ?_, fun other readOther _ => ?_⟩
      · obtain rfl := Option.some.inj (viewed.symm.trans seen)
        refine ⟨by simp, ⟨found.id, found.op, ?_, valid⟩, ?_, ⟨found.code, strings, ?_, zero,
          found.matchedDn, more, name, by rw [text]; rfl⟩⟩
        · simpa only [List.take_left] using number
        · simp only [List.length_append]
          omega
        · simpa only [List.take_left] using result
      · obtain rfl := Option.some.inj (read.symm.trans readOther)
        simp only [Short, List.forall_mem_cons]
        exact ⟨short, idShort, long, codeShort, List.forall_mem_nil _⟩
    · have failed : ¬ BindSuccess bytes := fun success => seen (exact.mpr success)
      refine .inl ⟨fun view viewed code => (seen ⟨view, viewed, code⟩).elim, ?_⟩
      exact fun found read zero => (failed ⟨found, read, zero⟩).elim
  · rintro (straight | ⟨⟨found, read, zero, -⟩, seen⟩)
    · constructor
      · rintro ⟨view, seen, code⟩
        exact bindSuccess_of_nested seen code (straight.nested view seen code)
      · rintro ⟨found, read, zero⟩
        obtain ⟨trailing, controls, strings, more, rest, outer, number, answer, result, name, text,
          valid, some⟩ := bindResponse_some read
        have short := straight.short found read zero
        simp only [Short, List.forall_mem_cons] at short
        obtain ⟨outerShort, idShort, answerShort, codeShort, -⟩ := short
        refine ⟨_, bindView_found outer number answer valid outerShort idShort, ?_⟩
        obtain ⟨later, shape, field⟩ := lengthField_element trailing answer answerShort
        simp only [shape, List.drop_one, List.tail_cons, field, List.append_assoc]
        exact zeroCode_found _ result codeShort some zero
    · exact iff_of_true seen ⟨found, read, zero⟩

/-- The code 4294967296 is taken for zero. -/
theorem parseBindResponse_overflow : ¬ ∀ (bytes : Bytes) (beyond : Nat → UInt8),
    parseBindResponse ⟨bytes, beyond⟩ bytes.length = 0 ↔ BindSuccess bytes := fun exact =>
  absurd ((exact [0x30, 0x10, 0x02, 0x01, 0x01, 0x61, 0x0B, 0x0A, 0x05, 0x01, 0x00, 0x00, 0x00, 0x00,
    0x04, 0x00, 0x04, 0x00] fun _ => 0).mp (by decide)) (by decide)

end Cookbook.Ldap
