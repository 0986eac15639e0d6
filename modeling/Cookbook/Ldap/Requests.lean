import Cookbook.Ldap.Lengths

/-!
# The requests of the client

The sizes of a request are added up from the inside, and its bytes are written from the outside. What
`ber_read_length` reads back are the texts that went in, as long as each length has three bytes at most
and the body of a search request does not leave its array.
-/
namespace Cookbook.Ldap

open Library.Text Library.Ber

/-! ## Reading back -/

/-- A field of one to three length bytes is read as their number. -/
theorem lengthField_bytes {first : UInt8} {bytes : Bytes} (rest : Bytes)
    (count : first.toNat = 128 + bytes.length) (few : bytes.length ≤ 3) :
    lengthField (first :: (bytes ++ rest)) = (number bytes, rest) := by
  have above : ¬ first < 0x80 := fun below => by
    have : first.toNat < 128 := UInt8.lt_iff_toNat_lt.mp below
    omega
  have size : (first &&& 0x7F).toNat = bytes.length := by
    rw [length_byte above, count, Nat.add_sub_cancel_left]
  simp only [lengthField, if_neg above, size]
  rw [if_neg (by rw [List.length_append]; omega), List.take_left, List.drop_left]

/-- The number that the length bytes of a field hold. -/
theorem lengthField_write (length : Nat) (rest : Bytes) :
    lengthField (berWriteLength length ++ rest) =
      (if length ≤ 0xFFFF then length else length % 16777216, rest) := by
  unfold berWriteLength
  split
  · next short =>
    have value : (UInt8.ofNat length).toNat = length := by
      rw [UInt8.toNat_ofNat']
      omega
    have below : UInt8.ofNat length < 0x80 := by
      rw [UInt8.lt_iff_toNat_lt, value]
      exact short
    simp only [List.cons_append, List.nil_append, lengthField, if_pos below, value]
    rw [if_pos (by omega)]
  split
  · next one =>
    rw [List.cons_append, lengthField_bytes rest rfl (by simp), if_pos (by omega)]
    simp only [number, List.foldl_cons, List.foldl_nil, UInt8.toNat_ofNat', Prod.mk.injEq, and_true]
    omega
  split
  · next two =>
    rw [List.cons_append, lengthField_bytes rest rfl (by simp)]
    simp only [number, List.foldl_cons, List.foldl_nil, UInt8.toNat_ofNat', Prod.mk.injEq, and_true]
    omega
  · next three =>
    rw [List.cons_append, lengthField_bytes rest rfl (by simp)]
    simp only [number, List.foldl_cons, List.foldl_nil, UInt8.toNat_ofNat', Prod.mk.injEq, and_true]
    omega

/-- A length below sixteen megabytes is read back. -/
theorem lengthField_writes {length : Nat} (small : length < 16777216) (rest : Bytes) :
    lengthField (berWriteLength length ++ rest) = (length, rest) := by
  rw [lengthField_write]
  split
  · rfl
  · rw [Nat.mod_eq_of_lt small]

theorem berWriteLength_length (length : Nat) :
    (berWriteLength length).length = berLengthSize length := by
  unfold berWriteLength berLengthSize
  split
  · rfl
  split
  · rfl
  split <;> rfl

/-- `ber_tlv_size` is what `ber_write_tlv` writes. -/
theorem berWriteTlv_length (tag : UInt8) (value : Bytes) :
    (berWriteTlv tag value).length = berTlvSize value.length := by
  simp only [berWriteTlv, List.length_cons, List.length_append, berWriteLength_length, berTlvSize]
  omega

/-- `ber_read_length` reads what `ber_write_length` has written. -/
theorem berReadLength_write {length : Nat} (small : length < 16777216) (beyond : Nat → UInt8) :
    berReadLength ⟨berWriteLength length, beyond⟩ (berWriteLength length).length 0 =
      (length, (berWriteLength length).length) := by
  obtain ⟨-, within, read⟩ := berReadLength_eq (berWriteLength length) beyond 0 (Nat.zero_le _)
  have written := lengthField_writes small []
  rw [List.append_nil] at written
  rw [List.drop_zero, written] at read
  generalize berReadLength ⟨berWriteLength length, beyond⟩ (berWriteLength length).length 0 = field
    at within read ⊢
  obtain ⟨number, ends⟩ := Prod.mk.inj read
  have all := List.drop_eq_nil_iff.mp ends.symm
  exact Prod.ext number.symm (by omega)

/-! ## Decoding -/

/-- The element of a tag in front, with the length that `ber_read_length` reads. -/
def readElement (tag : UInt8) : Bytes → Option (Bytes × Bytes)
  | [] => none
  | first :: rest =>
    let (length, behind) := lengthField rest
    if first = tag ∧ length ≤ behind.length then some (behind.take length, behind.drop length)
    else none

/-- An element that is the whole of a text. -/
def wholeElement (tag : UInt8) (text : Bytes) : Option Bytes :=
  (readElement tag text).bind fun (contents, rest) => if rest = [] then some contents else none

/-- A number that is not negative. -/
def readNumber (text : Bytes) : Option (Nat × Bytes) :=
  (readElement berInteger text).bind fun (contents, rest) =>
    if contents ≠ [] ∧ contents.headD 0 < 0x80 then some (number contents, rest) else none

/-- A written element is read back. -/
theorem readElement_write (tag : UInt8) (value rest : Bytes)
    (small : value.length < 16777216) :
    readElement tag (berWriteTlv tag value ++ rest) = some (value, rest) := by
  simp only [berWriteTlv, List.cons_append, List.append_assoc, readElement,
    lengthField_writes small]
  simp

theorem wholeElement_write (tag : UInt8) (value : Bytes) (small : value.length < 16777216) :
    wholeElement tag (berWriteTlv tag value) = some value := by
  have read := readElement_write tag value [] small
  rw [List.append_nil] at read
  rw [wholeElement, read]
  rfl

/-- A longer element is not the whole of what is written. -/
theorem wholeElement_write_long (tag : UInt8) {value : Bytes} (long : 16777216 ≤ value.length) :
    wholeElement tag (berWriteTlv tag value) = none := by
  have field := lengthField_write value.length value
  rw [if_neg (by omega)] at field
  have cut : value.length % 16777216 < value.length := by omega
  simp only [wholeElement, berWriteTlv, readElement, field]
  rw [if_pos ⟨trivial, cut.le⟩, Option.bind_some, if_neg]
  exact List.ne_nil_of_length_pos (by rw [List.length_drop]; omega)

/-- A number below 128 is read back. -/
theorem readNumber_write {value : Nat} (small : value < 128) (rest : Bytes) :
    readNumber (berWriteInt value ++ rest) = some (value, rest) := by
  have byte : (UInt8.ofNat value).toNat = value := by
    rw [UInt8.toNat_ofNat']
    omega
  have below : UInt8.ofNat value < 0x80 := by
    rw [UInt8.lt_iff_toNat_lt, byte]
    exact small
  rw [readNumber, berWriteInt, if_pos small, readElement_write berInteger _ rest (by simp)]
  simp [below, number, byte]

/-! ## Writing within a buffer -/

/-- Bytes at the cursor of a buffer of a size. -/
def put (size : Nat) (buffer piece : Bytes) : Outcome Bytes :=
  if size < buffer.length + piece.length then .overrun else .done (buffer ++ piece)

/-- One piece behind the other. -/
def putAll (size : Nat) : List Bytes → Bytes → Outcome Bytes
  | [], buffer => .done buffer
  | piece :: pieces, buffer => (put size buffer piece).bind (putAll size pieces)

/-- Pieces stay inside a buffer exactly when all of them together do. -/
theorem putAll_eq {size : Nat} (pieces : List Bytes) {buffer : Bytes} (inside : buffer.length ≤ size) :
    putAll size pieces buffer =
      if size < buffer.length + pieces.flatten.length then .overrun
      else .done (buffer ++ pieces.flatten) := by
  induction pieces generalizing buffer with
  | nil => simp [putAll, inside]
  | cons piece pieces ih =>
    rw [putAll, put, List.flatten_cons, List.length_append]
    by_cases past : size < buffer.length + piece.length
    · rw [if_pos past, if_pos (by omega)]
      rfl
    · rw [if_neg past, Outcome.bind_done, ih (by rw [List.length_append]; omega),
        List.length_append, List.append_assoc, Nat.add_assoc]

/-- `bind_body` of `build_bind_request` -/
def bindBody (dn password : Bytes) : Nat :=
  berTlvSize 1 + berTlvSize dn.length + berTlvSize password.length

/-- `build_bind_request` with each of its writes. -/
def writeBindRequest (size msgId : Nat) (dn password : Bytes) : Outcome (Option Bytes) :=
  let msgBody := berTlvSize 1 + berTlvSize (bindBody dn password)
  if size < berTlvSize msgBody then .done none
  else
    (putAll size [[berSequence], berWriteLength msgBody, berWriteInt msgId, [ldapBindReq],
      berWriteLength (bindBody dn password), berWriteInt 3, berWriteTlv berOctetStr dn,
      berWriteTlv ldapAuthSimple password] []).bind fun buf => .done (some buf)

/-- `build_search_request` with each of its writes, first those into `body`. -/
def writeSearchRequest (size msgId : Nat) (baseDn attr value wantAttr : Bytes) :
    Outcome (Option Bytes) :=
  (putAll 1024 [berWriteTlv berOctetStr baseDn, berWriteTlv berEnum [2], berWriteTlv berEnum [0],
    berWriteInt 1, berWriteInt 10, berWriteTlv berBoolean [0], [ldapFilterEquality],
    berWriteLength (berTlvSize attr.length + berTlvSize value.length), berWriteTlv berOctetStr attr,
    berWriteTlv berOctetStr value, [berSequence], berWriteLength (berTlvSize wantAttr.length),
    berWriteTlv berOctetStr wantAttr] []).bind fun body =>
  let msgBody := berTlvSize 1 + berTlvSize body.length
  if size < berTlvSize msgBody then .done none
  else
    (putAll size [[berSequence], berWriteLength msgBody, berWriteInt msgId, [ldapSearchReq],
      berWriteLength body.length, body] []).bind fun buf => .done (some buf)

/-! ## Messages -/

/-- The message of a bind request, its elements inside each other. -/
def bindMessage (msgId : Nat) (dn password : Bytes) : Bytes :=
  berWriteTlv berSequence (berWriteInt msgId ++ berWriteTlv ldapBindReq (berWriteInt 3 ++
    (berWriteTlv berOctetStr dn ++ berWriteTlv ldapAuthSimple password)))

/-- The message of a search request. -/
def searchMessage (msgId : Nat) (body : Bytes) : Bytes :=
  berWriteTlv berSequence (berWriteInt msgId ++ berWriteTlv ldapSearchReq body)

/-- The body of a search request, its elements inside each other. -/
theorem searchBody_eq (baseDn attr value wantAttr : Bytes) :
    searchBody baseDn attr value wantAttr =
      berWriteTlv berOctetStr baseDn ++ (berWriteTlv berEnum [2] ++ (berWriteTlv berEnum [0] ++
        (berWriteInt 1 ++ (berWriteInt 10 ++ (berWriteTlv berBoolean [0] ++
          (berWriteTlv ldapFilterEquality (berWriteTlv berOctetStr attr ++
            berWriteTlv berOctetStr value) ++
              berWriteTlv berSequence (berWriteTlv berOctetStr wantAttr))))))) := by
  have filter : berWriteTlv ldapFilterEquality (berWriteTlv berOctetStr attr ++
      berWriteTlv berOctetStr value) = ldapFilterEquality ::
        (berWriteLength (berTlvSize attr.length + berTlvSize value.length) ++
          (berWriteTlv berOctetStr attr ++ berWriteTlv berOctetStr value)) := by
    rw [berWriteTlv, List.length_append, berWriteTlv_length, berWriteTlv_length]
  have attributes : berWriteTlv berSequence (berWriteTlv berOctetStr wantAttr) = berSequence ::
      (berWriteLength (berTlvSize wantAttr.length) ++ berWriteTlv berOctetStr wantAttr) := by
    rw [berWriteTlv, berWriteTlv_length]
  rw [filter, attributes]
  simp only [searchBody, List.append_assoc, List.cons_append]

/-- The size of a body from the sizes of its texts. -/
def searchBodySize (baseDn attr value wantAttr : Bytes) : Nat :=
  berTlvSize baseDn.length + 5 * berTlvSize 1 +
    berTlvSize (berTlvSize attr.length + berTlvSize value.length) +
      berTlvSize (berTlvSize wantAttr.length)

theorem searchBody_length (baseDn attr value wantAttr : Bytes) :
    (searchBody baseDn attr value wantAttr).length = searchBodySize baseDn attr value wantAttr := by
  have one : (berWriteInt 1).length = 3 := rfl
  have ten : (berWriteInt 10).length = 3 := rfl
  have single : berTlvSize 1 = 3 := rfl
  simp only [searchBody_eq, List.length_append, berWriteTlv_length, one, ten, List.length_singleton,
    searchBodySize, single]
  omega

theorem berWriteInt_length {value : Nat} (small : value < 128) :
    (berWriteInt value).length = berTlvSize 1 := by
  rw [berWriteInt, if_pos small, berWriteTlv_length]
  rfl

/-- The contents of a bind request have the size that was added up. -/
theorem bindBody_length (dn password : Bytes) :
    (berWriteInt 3 ++ (berWriteTlv berOctetStr dn ++ berWriteTlv ldapAuthSimple password)).length =
      bindBody dn password := by
  have three : (berWriteInt 3).length = berTlvSize 1 := rfl
  simp only [List.length_append, berWriteTlv_length, three, bindBody, Nat.add_assoc]

/-- The contents of a message have the size that was added up. -/
theorem message_length {msgId : Nat} (small : msgId < 128) (tag : UInt8) (body : Bytes) :
    (berWriteInt msgId ++ berWriteTlv tag body).length =
      berTlvSize 1 + berTlvSize body.length := by
  rw [List.length_append, berWriteTlv_length, berWriteInt_length small]

theorem bindMessage_length {msgId : Nat} (small : msgId < 128) (dn password : Bytes) :
    (bindMessage msgId dn password).length =
      berTlvSize (berTlvSize 1 + berTlvSize (bindBody dn password)) := by
  rw [bindMessage, berWriteTlv_length, message_length small, bindBody_length]

theorem searchMessage_length {msgId : Nat} (small : msgId < 128) (body : Bytes) :
    (searchMessage msgId body).length = berTlvSize (berTlvSize 1 + berTlvSize body.length) := by
  rw [searchMessage, berWriteTlv_length, message_length small]

/-- The writes of a bind request stay inside the buffer of the caller. -/
theorem writeBindRequest_eq {msgId : Nat} (size : Nat) (small : msgId < 128) (dn password : Bytes) :
    writeBindRequest size msgId dn password =
      .done (if size < (bindMessage msgId dn password).length then none
        else some (bindMessage msgId dn password)) := by
  have pieces : [[berSequence], berWriteLength (berTlvSize 1 + berTlvSize (bindBody dn password)),
      berWriteInt msgId, [ldapBindReq], berWriteLength (bindBody dn password), berWriteInt 3,
      berWriteTlv berOctetStr dn, berWriteTlv ldapAuthSimple password].flatten =
        bindMessage msgId dn password := by
    have size := message_length small ldapBindReq (berWriteInt 3 ++
      (berWriteTlv berOctetStr dn ++ berWriteTlv ldapAuthSimple password))
    rw [bindBody_length] at size
    rw [bindMessage, berWriteTlv.eq_1 berSequence, size, berWriteTlv.eq_1 ldapBindReq,
      bindBody_length]
    simp
  have total := bindMessage_length small dn password
  unfold writeBindRequest
  simp only [← total]
  split
  · rfl
  · next fits =>
    rw [putAll_eq _ (Nat.zero_le _), pieces, List.length_nil, Nat.zero_add, if_neg fits]
    rfl

/-- A body that its array holds is written into a buffer that holds the message. -/
theorem writeSearchRequest_eq {msgId : Nat} (size : Nat) (small : msgId < 128)
    (baseDn attr value wantAttr : Bytes) :
    writeSearchRequest size msgId baseDn attr value wantAttr =
      if 1024 < (searchBody baseDn attr value wantAttr).length then .overrun
      else
        .done (if size < (searchMessage msgId (searchBody baseDn attr value wantAttr)).length
          then none else some (searchMessage msgId (searchBody baseDn attr value wantAttr))) := by
  unfold writeSearchRequest
  rw [putAll_eq _ (Nat.zero_le _), List.length_nil, Nat.zero_add]
  rw [show [berWriteTlv berOctetStr baseDn, berWriteTlv berEnum [2], berWriteTlv berEnum [0],
    berWriteInt 1, berWriteInt 10, berWriteTlv berBoolean [0], [ldapFilterEquality],
    berWriteLength (berTlvSize attr.length + berTlvSize value.length), berWriteTlv berOctetStr attr,
    berWriteTlv berOctetStr value, [berSequence], berWriteLength (berTlvSize wantAttr.length),
    berWriteTlv berOctetStr wantAttr].flatten = searchBody baseDn attr value wantAttr by
      simp [searchBody]]
  generalize searchBody baseDn attr value wantAttr = body
  split
  · rfl
  have pieces : [[berSequence], berWriteLength (berTlvSize 1 + berTlvSize body.length),
      berWriteInt msgId, [ldapSearchReq], berWriteLength body.length, body].flatten =
        searchMessage msgId body := by
    rw [searchMessage, berWriteTlv, message_length small, berWriteTlv]
    simp
  simp only [List.nil_append, Outcome.bind_done, ← searchMessage_length small body]
  split
  · rfl
  · next fits =>
    rw [putAll_eq _ (Nat.zero_le _), pieces, List.length_nil, Nat.zero_add, if_neg fits]
    rfl

/-! ## Decoding the requests -/

/-- What a bind request says. -/
structure BindFields where
  id : Nat
  version : Nat
  dn : Bytes
  password : Bytes
  deriving DecidableEq

/-- The bind request that is the whole of a text. -/
def decodeBindRequest (bytes : Bytes) : Option BindFields :=
  (wholeElement berSequence bytes).bind fun message =>
  (readNumber message).bind fun (id, op) =>
  (wholeElement ldapBindReq op).bind fun request =>
  (readNumber request).bind fun (version, request) =>
  (readElement berOctetStr request).bind fun (dn, request) =>
  (wholeElement ldapAuthSimple request).map fun password => ⟨id, version, dn, password⟩

/-- What a search request says. -/
structure SearchFields where
  id : Nat
  baseDn : Bytes
  scope : Bytes
  derefAliases : Bytes
  sizeLimit : Nat
  timeLimit : Nat
  typesOnly : Bytes
  attr : Bytes
  value : Bytes
  wantAttr : Bytes
  deriving DecidableEq

/-- The search request that is the whole of a text, with one equality for a filter and one attribute. -/
def decodeSearchRequest (bytes : Bytes) : Option SearchFields :=
  (wholeElement berSequence bytes).bind fun message =>
  (readNumber message).bind fun (id, op) =>
  (wholeElement ldapSearchReq op).bind fun body =>
  (readElement berOctetStr body).bind fun (baseDn, body) =>
  (readElement berEnum body).bind fun (scope, body) =>
  (readElement berEnum body).bind fun (derefAliases, body) =>
  (readNumber body).bind fun (sizeLimit, body) =>
  (readNumber body).bind fun (timeLimit, body) =>
  (readElement berBoolean body).bind fun (typesOnly, body) =>
  (readElement ldapFilterEquality body).bind fun (filter, body) =>
  (readElement berOctetStr filter).bind fun (attr, filter) =>
  (wholeElement berOctetStr filter).bind fun value =>
  (wholeElement berSequence body).bind fun attributes =>
  (wholeElement berOctetStr attributes).map fun wantAttr =>
    ⟨id, baseDn, scope, derefAliases, sizeLimit, timeLimit, typesOnly, attr, value, wantAttr⟩

/-- An element is not shorter than its contents. -/
theorem le_berTlvSize (length : Nat) : length ≤ berTlvSize length := Nat.le_add_left _ _

/-- A bind message says the texts that went in exactly as long as its length field holds its length. -/
theorem decodeBindRequest_message {msgId : Nat} (small : msgId < 128) (dn password : Bytes) :
    decodeBindRequest (bindMessage msgId dn password) = some ⟨msgId, 3, dn, password⟩ ↔
      berTlvSize 1 + berTlvSize (bindBody dn password) < 16777216 := by
  have size := message_length small ldapBindReq (berWriteInt 3 ++
    (berWriteTlv berOctetStr dn ++ berWriteTlv ldapAuthSimple password))
  have inner := bindBody_length dn password
  rw [inner] at size
  constructor
  · intro decoded
    by_contra long
    rw [decodeBindRequest, bindMessage, wholeElement_write_long berSequence (by omega)] at decoded
    cases decoded
  · intro fits
    have body := le_berTlvSize (bindBody dn password)
    have first := le_berTlvSize dn.length
    have second := le_berTlvSize password.length
    have parts : bindBody dn password =
        berTlvSize 1 + berTlvSize dn.length + berTlvSize password.length := rfl
    have request := wholeElement_write ldapBindReq (berWriteInt 3 ++
      (berWriteTlv berOctetStr dn ++ berWriteTlv ldapAuthSimple password)) (by omega)
    have name := readElement_write berOctetStr dn (berWriteTlv ldapAuthSimple password) (by omega)
    rw [decodeBindRequest, bindMessage, wholeElement_write berSequence _ (by omega)]
    simp only [Option.bind_some, readNumber_write small, request, name,
      readNumber_write (show 3 < 128 by decide),
      wholeElement_write ldapAuthSimple password (by omega), Option.map_some]

/-- A search message says the texts that went in. -/
theorem decodeSearchRequest_message {msgId : Nat} (small : msgId < 128)
    {baseDn attr value wantAttr : Bytes}
    (fits : (searchBody baseDn attr value wantAttr).length ≤ 1024) :
    decodeSearchRequest (searchMessage msgId (searchBody baseDn attr value wantAttr)) =
      some ⟨msgId, baseDn, [2], [0], 1, 10, [0], attr, value, wantAttr⟩ := by
  have size := message_length small ldapSearchReq (searchBody baseDn attr value wantAttr)
  have single : berTlvSize 1 = 3 := rfl
  have wide : berTlvSize (searchBody baseDn attr value wantAttr).length ≤ 1029 := by
    simp only [berTlvSize, berLengthSize]
    split <;> [skip; split <;> [skip; split]] <;> omega
  have bodySize := searchBody_length baseDn attr value wantAttr
  rw [searchBodySize] at bodySize
  have base := le_berTlvSize baseDn.length
  have first := le_berTlvSize attr.length
  have second := le_berTlvSize value.length
  have wanted := le_berTlvSize wantAttr.length
  have filter := le_berTlvSize (berTlvSize attr.length + berTlvSize value.length)
  have attributes := le_berTlvSize (berTlvSize wantAttr.length)
  have filterSize : (berWriteTlv berOctetStr attr ++ berWriteTlv berOctetStr value).length =
      berTlvSize attr.length + berTlvSize value.length := by
    rw [List.length_append, berWriteTlv_length, berWriteTlv_length]
  have attributesSize := berWriteTlv_length berOctetStr wantAttr
  -- one step for each element, from the outside
  refine Option.bind_eq_some_iff.mpr ⟨_, wholeElement_write berSequence _ (by omega), ?_⟩
  refine Option.bind_eq_some_iff.mpr ⟨_, readNumber_write small _, ?_⟩
  refine Option.bind_eq_some_iff.mpr ⟨_, wholeElement_write ldapSearchReq _ (by omega), ?_⟩
  rw [searchBody_eq]
  refine Option.bind_eq_some_iff.mpr ⟨_, readElement_write berOctetStr baseDn _ (by omega), ?_⟩
  refine Option.bind_eq_some_iff.mpr ⟨_, readElement_write berEnum [2] _ (by decide), ?_⟩
  refine Option.bind_eq_some_iff.mpr ⟨_, readElement_write berEnum [0] _ (by decide), ?_⟩
  refine Option.bind_eq_some_iff.mpr ⟨_, readNumber_write (by decide) _, ?_⟩
  refine Option.bind_eq_some_iff.mpr ⟨_, readNumber_write (by decide) _, ?_⟩
  refine Option.bind_eq_some_iff.mpr ⟨_, readElement_write berBoolean [0] _ (by decide), ?_⟩
  refine Option.bind_eq_some_iff.mpr ⟨_, readElement_write ldapFilterEquality _ _ (by omega), ?_⟩
  refine Option.bind_eq_some_iff.mpr ⟨_, readElement_write berOctetStr attr _ (by omega), ?_⟩
  refine Option.bind_eq_some_iff.mpr ⟨_, wholeElement_write berOctetStr value (by omega), ?_⟩
  refine Option.bind_eq_some_iff.mpr ⟨_, wholeElement_write berSequence _ (by omega), ?_⟩
  exact Option.map_eq_some_iff.mpr ⟨_, wholeElement_write berOctetStr wantAttr (by omega), rfl⟩

/-! ## The requests are right -/

/-- A bind request is refused exactly when it does not fit; else it stays inside its buffer and says the
texts that went in. -/
def BindRight (size msgId : Nat) (dn password : Bytes) : Prop :=
  ∃ result, writeBindRequest size msgId dn password = .done result ∧
    (result = none ↔ size < (bindMessage msgId dn password).length) ∧
    ∀ buf, result = some buf → buf.length ≤ size ∧
      decodeBindRequest buf = some ⟨msgId, 3, dn, password⟩

/-- The same for a search request, and no write leaves the array of its body. -/
def SearchRight (size msgId : Nat) (baseDn attr value wantAttr : Bytes) : Prop :=
  ∃ result, writeSearchRequest size msgId baseDn attr value wantAttr = .done result ∧
    (result = none ↔
      size < (searchMessage msgId (searchBody baseDn attr value wantAttr)).length) ∧
    ∀ buf, result = some buf → buf.length ≤ size ∧
      decodeSearchRequest buf = some ⟨msgId, baseDn, [2], [0], 1, 10, [0], attr, value, wantAttr⟩

theorem bindRight_iff {msgId : Nat} (size : Nat) (small : msgId < 128) (dn password : Bytes) :
    BindRight size msgId dn password ↔
      ((bindMessage msgId dn password).length ≤ size →
        berTlvSize 1 + berTlvSize (bindBody dn password) < 16777216) := by
  rw [BindRight, writeBindRequest_eq size small, ← decodeBindRequest_message small]
  by_cases short : size < (bindMessage msgId dn password).length
  · rw [if_pos short]
    refine iff_of_true ⟨none, rfl, iff_of_true rfl short, fun buf written => ?_⟩ fun fits => ?_
    · cases written
    · exact (Nat.not_lt.mpr fits short).elim
  · rw [if_neg short]
    have fits := Nat.not_lt.mp short
    constructor
    · rintro ⟨result, written, -, right⟩ -
      exact (right _ (Outcome.done.inj written).symm).2
    · intro right
      refine ⟨_, rfl, iff_of_false (Option.some_ne_none _) short, fun buf written => ?_⟩
      obtain rfl := Option.some.inj written
      exact ⟨fits, right fits⟩

theorem searchRight_iff {msgId : Nat} (size : Nat) (small : msgId < 128)
    (baseDn attr value wantAttr : Bytes) :
    SearchRight size msgId baseDn attr value wantAttr ↔
      searchBodySize baseDn attr value wantAttr ≤ 1024 := by
  rw [SearchRight, writeSearchRequest_eq size small, ← searchBody_length]
  by_cases past : 1024 < (searchBody baseDn attr value wantAttr).length
  · rw [if_pos past]
    refine iff_of_false ?_ (Nat.not_le.mpr past)
    rintro ⟨result, written, -⟩
    cases written
  · rw [if_neg past]
    have inside := Nat.not_lt.mp past
    refine iff_of_true ⟨_, rfl, ?_, fun buf written => ?_⟩ inside
    · split
      · next short => exact iff_of_true rfl short
      · next fits => exact iff_of_false (Option.some_ne_none _) fits
    · split at written
      · cases written
      · next fits =>
        obtain rfl := Option.some.inj written
        exact ⟨Nat.not_lt.mp fits, decodeSearchRequest_message small inside⟩

/-- Lengths are read back; a bind request is right if and only if its length fits its length field, and
a search request if and only if its body fits its array. -/
theorem requests_right_iff (msgId : Nat) (small : msgId < 128) (size : Nat)
    (dn password baseDn attr value wantAttr : Bytes) :
    (∀ (length : Nat) (beyond : Nat → UInt8), length < 16777216 →
      berReadLength ⟨berWriteLength length, beyond⟩ (berWriteLength length).length 0 =
        (length, (berWriteLength length).length)) ∧
    (BindRight size msgId dn password ↔
      ((bindMessage msgId dn password).length ≤ size →
        berTlvSize 1 + berTlvSize (bindBody dn password) < 16777216)) ∧
    (SearchRight size msgId baseDn attr value wantAttr ↔
      searchBodySize baseDn attr value wantAttr ≤ 1024) :=
  ⟨fun _ beyond short => berReadLength_write short beyond, bindRight_iff size small dn password,
    searchRight_iff size small baseDn attr value wantAttr⟩

/-- The requests for one user. -/
theorem requests_right_alice :
    (∀ (length : Nat) (beyond : Nat → UInt8), length < 16777216 →
      berReadLength ⟨berWriteLength length, beyond⟩ (berWriteLength length).length 0 =
        (length, (berWriteLength length).length)) ∧
    BindRight 2048 1 (ascii "uid=alice,dc=example") (ascii "secret") ∧
    SearchRight 2048 1 (ascii "dc=example") (ascii "uid") (ascii "alice") (ascii "memberOf") := by
  have right := requests_right_iff 1 (by decide) 2048 (ascii "uid=alice,dc=example")
    (ascii "secret") (ascii "dc=example") (ascii "uid") (ascii "alice") (ascii "memberOf")
  exact ⟨right.1, right.2.1.mpr fun _ => by decide +kernel, right.2.2.mpr (by decide +kernel)⟩

/-- A base of more than 1024 characters leaves the array of the body. -/
theorem searchRight_long {baseDn : Bytes} (long : 1024 < baseDn.length)
    (attr value wantAttr : Bytes) : ¬ SearchRight 2048 2 baseDn attr value wantAttr := by
  rw [searchRight_iff 2048 (by decide), searchBodySize]
  have base := le_berTlvSize baseDn.length
  omega

theorem searchRequest_overrun : ¬ ∀ baseDn attr value wantAttr : Bytes,
    SearchRight 2048 2 baseDn attr value wantAttr := by
  intro right
  have long : 1024 < (List.replicate 1100 (0x61 : UInt8)).length := by
    rw [List.length_replicate]
    decide
  exact searchRight_long long (ascii "uid") (ascii "alice") (ascii "memberOf") (right _ _ _ _)

end Cookbook.Ldap
