import Cookbook.Tls.Handshake

/-!
# Application data

`cookbook_tls_send` puts all of its argument into one record. `cookbook_tls_recv` hands out the content
of one record at a time and keeps what the caller's buffer has no room for; a record that is no
application data, or has none, is an error.
-/
namespace Cookbook.Tls

open Library.Text

variable {Cert RsaKey : Type} (crypto : Crypto Cert RsaKey)

/-! ## Sending -/

/-- A record as it is sent: its content and its bytes. -/
structure SentRecord where
  /-- The content. -/
  content : Bytes
  /-- The header and the ciphertext. -/
  bytes : Bytes

/-- The length field of a record. -/
def lengthField (record : Bytes) : Nat :=
  (record.getD 3 0).toNat * 256 + (record.getD 4 0).toNat

/-- `cookbook_tls_send` to a socket that takes everything: the records it sends. -/
def cookbookTlsSend (suite : Nat) (send : Direction) (data : Bytes) : List SentRecord :=
  if data = [] then []
  else [⟨data, (tlsSendRecord crypto suite send tlsApplicationData data true).1⟩]

/-- `tls_recv_record` on a socket until nothing is left on it, for some rounds. -/
def receiveRecords (suite : Nat) : Nat → Direction → Bytes → Option (List (UInt8 × Bytes))
  | 0, _, input => if input = [] then some [] else none
  | rounds + 1, recv, input =>
    if input = [] then some []
    else
      let received := tlsRecvRecord crypto suite recv true input
      received.record.bind fun record =>
        (receiveRecords suite rounds received.recv received.input).map (record :: ·)

/-- `tls_recv_record` on a socket until nothing is left on it: every record has a byte at least. -/
def receiveAll (suite : Nat) (recv : Direction) (input : Bytes) : Option (List (UInt8 × Bytes)) :=
  receiveRecords crypto suite input.length recv input

/-- What is sent arrives: every record has at most 2^14 bytes of content and a length field that counts
what follows it, and a receiver with the same keys gets application data that joins to the input. -/
structure SentWhole (suite : Nat) (keys : Direction) (data : Bytes) : Prop where
  /-- The records are small enough. -/
  small : ∀ record ∈ cookbookTlsSend crypto suite keys data, record.content.length ≤ tlsRecordMax
  /-- The length fields do not wrap. -/
  counted : ∀ record ∈ cookbookTlsSend crypto suite keys data,
    lengthField record.bytes + 5 = record.bytes.length
  /-- The content arrives. -/
  received : ∃ contents : List Bytes,
    receiveAll crypto suite keys ((cookbookTlsSend crypto suite keys data).flatMap (·.bytes)) =
      some (contents.map (tlsApplicationData, ·)) ∧ contents.flatten = data

variable {crypto}

/-- The length field of a record that is sent encrypted. -/
theorem lengthField_sent (suite : Nat) (send : Direction) (contentType : UInt8) (data : Bytes) :
    lengthField (tlsSendRecord crypto suite send contentType data true).1 =
      (data.length + 17) % 65536 := by
  have total : (data ++ [contentType]).length + 16 = data.length + 17 := by simp
  have field : lengthField (tlsSendRecord crypto suite send contentType data true).1 =
      (UInt8.ofNat ((data.length + 17) / 256)).toNat * 256 +
        (UInt8.ofNat (data.length + 17)).toNat := by
    simp only [tlsSendRecord, if_true, total]
    rfl
  rw [field, UInt8.toNat_ofNat', UInt8.toNat_ofNat']
  omega

/-- A record that is sent encrypted has a header, a content type and a tag besides its content. -/
theorem tlsSendRecord_length (seals : crypto.Seals) (suite : Nat) (send : Direction)
    (contentType : UInt8) (data : Bytes) :
    (tlsSendRecord crypto suite send contentType data true).1.length = data.length + 22 := by
  have length := protectRecord_length seals suite send (data ++ [contentType])
  rw [List.length_append, List.length_singleton] at length
  exact length

/-- An input of at most one record's content arrives. -/
theorem sentWhole_of_small (seals : crypto.Seals) (suite : Nat) (keys : Direction) {data : Bytes}
    (small : data.length ≤ tlsRecordMax) : SentWhole crypto suite keys data := by
  by_cases empty : data = []
  · have nothing : cookbookTlsSend crypto suite keys data = [] := if_pos empty
    apply SentWhole.mk
    · rw [nothing]
      exact fun _ member => absurd member List.not_mem_nil
    · rw [nothing]
      exact fun _ member => absurd member List.not_mem_nil
    · rw [nothing]
      exact ⟨[], rfl, empty.symm⟩
  · have one : cookbookTlsSend crypto suite keys data =
        [⟨data, (tlsSendRecord crypto suite keys tlsApplicationData data true).1⟩] := if_neg empty
    have fits : data.length + 17 ≤ tlsRecordMax + 256 := by omega
    have arrives := tlsRecvRecord_sealed seals suite keys tlsApplicationData (by decide) fits []
    have size := tlsSendRecord_length seals suite keys tlsApplicationData data
    apply SentWhole.mk
    · intro record member
      rw [one, List.mem_singleton] at member
      rw [member]
      exact small
    · intro record member
      rw [one, List.mem_singleton] at member
      simp only [tlsRecordMax] at small
      rw [member, lengthField_sent, size]
      omega
    · refine ⟨[data], ?_, by simp⟩
      have nonempty : (tlsSendRecord crypto suite keys tlsApplicationData data true).1 ≠ [] := by
        apply List.ne_nil_of_length_pos
        omega
      rw [List.append_nil] at arrives
      rw [one, List.flatMap_singleton, receiveAll, size, receiveRecords, if_neg nonempty, arrives]
      rfl

/-- The length field of an input that arrives counts the ciphertext. -/
theorem sentWhole_counted (seals : crypto.Seals) {suite : Nat} {keys : Direction} {data : Bytes}
    (nonempty : data ≠ []) (whole : SentWhole crypto suite keys data) :
    (data.length + 17) % 65536 = data.length + 17 := by
  have one : cookbookTlsSend crypto suite keys data =
      [⟨data, (tlsSendRecord crypto suite keys tlsApplicationData data true).1⟩] := if_neg nonempty
  have counted := whole.counted ⟨data, _⟩ (by rw [one]; exact List.mem_singleton.mpr rfl)
  have size := tlsSendRecord_length seals suite keys tlsApplicationData data
  rw [lengthField_sent, size] at counted
  omega

/-- An input arrives exactly when it fits one record. -/
theorem tlsSend_sentWhole_iff (seals : crypto.Seals) (suite : Nat) (keys : Direction)
    (data : Bytes) : SentWhole crypto suite keys data ↔ data.length ≤ tlsRecordMax := by
  constructor
  · intro whole
    by_cases empty : data = []
    · simp [empty]
    · have one : cookbookTlsSend crypto suite keys data =
          [⟨data, (tlsSendRecord crypto suite keys tlsApplicationData data true).1⟩] := if_neg empty
      apply whole.small ⟨data, _⟩
      rw [one]
      exact List.mem_singleton.mpr rfl
  · exact sentWhole_of_small seals suite keys

/-- A short input arrives. -/
theorem tlsSend_sentWhole_short :
    SentWhole loopback tlsAes128GcmSha256 ⟨[], [], 0⟩ (ascii "GET") :=
  (tlsSend_sentWhole_iff loopback_seals _ _ _).mpr (by decide)

/-- The length field of a record with 65519 bytes of content is zero. -/
theorem tlsSend_wraps :
    lengthField (tlsSendRecord loopback tlsAes128GcmSha256 ⟨[], [], 0⟩ tlsApplicationData
      (List.replicate 65519 0x61) true).1 = 0 ∧
    ¬ SentWhole loopback tlsAes128GcmSha256 ⟨[], [], 0⟩ (List.replicate 65519 0x61) := by
  have field : lengthField (tlsSendRecord loopback tlsAes128GcmSha256 ⟨[], [], 0⟩
      tlsApplicationData (List.replicate 65519 0x61) true).1 = 0 := by
    rw [lengthField_sent, List.length_replicate]
  apply And.intro field
  intro whole
  have nonempty : List.replicate 65519 (0x61 : UInt8) ≠ [] :=
    List.ne_nil_of_length_pos (by rw [List.length_replicate]; decide)
  have counted := sentWhole_counted loopback_seals nonempty whole
  rw [List.length_replicate] at counted
  exact absurd counted (by decide)

/-! ## Receiving -/

/-- A connection as its reader sees it. -/
structure Reader where
  /-- What is still unread on the socket. -/
  input : Bytes
  /-- The receiving direction. -/
  recv : Direction
  /-- What `recv_buf` holds behind `recv_buf_pos`. -/
  buffered : Bytes

/-- What `cookbook_tls_recv` returns. -/
inductive RecvResult
  /-- A number of bytes, which are in the buffer. -/
  | bytes (chunk : Bytes)
  /-- Zero. -/
  | endOfStream
  /-- A negative number. -/
  | error
  deriving DecidableEq

/-- `cookbook_tls_recv` into a buffer of this size. -/
def cookbookTlsRecv (crypto : Crypto Cert RsaKey) (suite : Nat) (reader : Reader) (len : Nat) :
    RecvResult × Reader :=
  if len = 0 then (.error, reader)
  else if reader.buffered ≠ [] then
    (.bytes (reader.buffered.take len), { reader with buffered := reader.buffered.drop len })
  else
    let received := tlsRecvRecord crypto suite reader.recv true reader.input
    let reader : Reader := ⟨received.input, received.recv, []⟩
    match received.record with
    | none => (.error, reader)
    | some (mtype, msg) =>
      if mtype = tlsAlert then (.endOfStream, reader)
      else if mtype ≠ tlsApplicationData ∨ msg = [] then (.error, reader)
      else
        let copy := msg.take (tlsRecordMax + 256)
        (.bytes (copy.take len), { reader with buffered := copy.drop len })

/-- The results of successive calls. -/
def reads (crypto : Crypto Cert RsaKey) (suite : Nat) : Reader → List Nat → List RecvResult
  | _, [] => []
  | reader, len :: sizes =>
    (cookbookTlsRecv crypto suite reader len).1 ::
      reads crypto suite (cookbookTlsRecv crypto suite reader len).2 sizes

/-! ## What a server sends -/

/-- A record behind the handshake: application data or a handshake message, with padding, of at most
2^14 bytes. -/
structure PostRecord where
  /-- The content type. -/
  contentType : UInt8
  /-- The content. -/
  content : Bytes
  /-- The number of zeros behind the content type. -/
  padding : Nat
  /-- It is application data or a handshake message. -/
  kind : contentType = tlsApplicationData ∨ contentType = tlsHandshake
  /-- Content, type and padding fit. -/
  fits : content.length + padding ≤ tlsRecordMax

/-- What is encrypted. -/
def PostRecord.plain (record : PostRecord) : Bytes :=
  record.content ++ record.contentType :: List.replicate record.padding 0

/-- How a server ends its stream. -/
inductive Ending
  /-- With an alert. -/
  | alert
  /-- By closing the socket. -/
  | close

/-- The alert `close_notify` with its content type. -/
def closeNotify : Bytes := [1, 0, tlsAlert]

/-- The bytes on the socket. -/
def serverStream (crypto : Crypto Cert RsaKey) (suite : Nat) (ending : Ending) :
    Direction → List PostRecord → Bytes
  | keys, [] =>
    match ending with
    | .alert => protectRecord crypto suite keys closeNotify
    | .close => []
  | keys, record :: records =>
    protectRecord crypto suite keys record.plain ++ serverStream crypto suite ending keys.next records

/-- The application data in the records. -/
def applicationBytes (records : List PostRecord) : Bytes :=
  (records.filter (·.contentType == tlsApplicationData)).flatMap (·.content)

/-- What a reader gets at the end. -/
def Ending.result : Ending → RecvResult
  | .alert => .endOfStream
  | .close => .error

/-- The results hand out the data piece by piece, and nothing else comes before its end. -/
def Delivers (ending : RecvResult) : Bytes → List RecvResult → Prop
  | _, [] => True
  | data, .bytes chunk :: results =>
    chunk ≠ [] ∧ ∃ rest, data = chunk ++ rest ∧ Delivers ending rest results
  | data, result :: _ => data = [] ∧ result = ending

/-- Whatever buffers the caller passes and however the stream ends, the calls hand out exactly the
application data. -/
def ReadsWhole (crypto : Crypto Cert RsaKey) (suite : Nat) (keys : Direction)
    (records : List PostRecord) : Prop :=
  ∀ ending sizes, (∀ len ∈ sizes, 0 < len) →
    Delivers ending.result (applicationBytes records)
      (reads crypto suite ⟨serverStream crypto suite ending keys records, keys, []⟩ sizes)

/-! ## One call -/

/-- Bytes that are kept are handed out first. -/
theorem tlsRecv_buffered (suite : Nat) {reader : Reader} {len : Nat} (positive : 0 < len)
    (kept : reader.buffered ≠ []) :
    cookbookTlsRecv crypto suite reader len =
      (.bytes (reader.buffered.take len),
        { reader with buffered := reader.buffered.drop len }) := by
  unfold cookbookTlsRecv
  rw [if_neg (by omega), if_pos kept]

/-- A record that arrives decides the call. -/
theorem tlsRecv_record (seals : crypto.Seals) (suite : Nat) (keys : Direction) {len : Nat}
    (positive : 0 < len) (record : PostRecord) (rest : Bytes) :
    cookbookTlsRecv crypto suite
        ⟨protectRecord crypto suite keys record.plain ++ rest, keys, []⟩ len =
      if record.contentType = tlsApplicationData ∧ record.content ≠ [] then
        (.bytes (record.content.take len), ⟨rest, keys.next, record.content.drop len⟩)
      else (.error, ⟨rest, keys.next, []⟩) := by
  have typed : record.contentType ≠ 0 := by
    rcases record.kind with kind | kind <;> rw [kind] <;> decide
  have noAlert : record.contentType ≠ tlsAlert := by
    rcases record.kind with kind | kind <;> rw [kind] <;> decide
  have fits := record.fits
  have length : record.plain.length = record.content.length + record.padding + 1 := by
    unfold PostRecord.plain
    rw [List.length_append, List.length_cons, List.length_replicate]
    omega
  have received := tlsRecvRecord_protected seals suite keys record.plain (by omega)
    (by simp only [tlsRecordMax] at fits ⊢; omega) rest
  have inner : innerContent record.plain = some (record.contentType, record.content) :=
    innerContent_padded record.content typed record.padding
  have whole : record.content.take (tlsRecordMax + 256) = record.content :=
    List.take_of_length_le (by omega)
  unfold cookbookTlsRecv
  rw [if_neg (by omega), if_neg (by simp)]
  simp only [received, inner, if_neg noAlert, whole]
  by_cases good : record.contentType = tlsApplicationData ∧ record.content ≠ []
  · rw [if_pos good, if_neg (by simp [good.1, good.2])]
  · rw [if_neg good, if_pos (by grind)]

/-- Behind the last record the call returns the end. -/
theorem tlsRecv_ending (seals : crypto.Seals) (suite : Nat) (ending : Ending) (keys : Direction)
    {len : Nat} (positive : 0 < len) :
    (cookbookTlsRecv crypto suite ⟨serverStream crypto suite ending keys [], keys, []⟩ len).1 =
      ending.result := by
  unfold cookbookTlsRecv
  rw [if_neg (by omega), if_neg (by simp)]
  cases ending with
  | close => simp [serverStream, tlsRecvRecord, Ending.result]
  | alert =>
    have received := tlsRecvRecord_protected seals suite keys closeNotify (by decide) (by decide) []
    have inner : innerContent closeNotify = some (tlsAlert, [1, 0]) := by decide
    rw [List.append_nil] at received
    simp only [serverStream, received, inner, if_true]
    rfl

/-! ## All calls -/

/-- What the reader still has to hand out of records that are all application data. -/
theorem delivers_of_data (seals : crypto.Seals) (suite : Nat) (ending : Ending) (sizes : List Nat)
    (positive : ∀ len ∈ sizes, 0 < len) (keys : Direction) {records : List PostRecord}
    (data : ∀ record ∈ records, record.contentType = tlsApplicationData ∧ record.content ≠ [])
    (kept : Bytes) :
    Delivers ending.result (kept ++ applicationBytes records)
      (reads crypto suite ⟨serverStream crypto suite ending keys records, keys, kept⟩ sizes) := by
  induction sizes generalizing keys records kept with
  | nil => trivial
  | cons len sizes ih =>
    have here : 0 < len := positive len List.mem_cons_self
    have later : ∀ len ∈ sizes, 0 < len := fun len member =>
      positive len (List.mem_cons_of_mem _ member)
    unfold reads
    by_cases empty : kept = []
    · subst empty
      cases records with
      | nil =>
        have last := tlsRecv_ending seals suite ending keys here
        rw [last]
        cases ending <;> exact ⟨rfl, rfl⟩
      | cons record records =>
        have good := data record List.mem_cons_self
        have call := tlsRecv_record seals suite keys here record
          (serverStream crypto suite ending keys.next records)
        rw [if_pos good] at call
        have stream : serverStream crypto suite ending keys (record :: records) =
            protectRecord crypto suite keys record.plain ++
              serverStream crypto suite ending keys.next records := rfl
        have bytes : applicationBytes (record :: records) =
            record.content ++ applicationBytes records := by
          simp [applicationBytes, good.1]
        rw [stream, call, bytes, List.nil_append]
        apply And.intro
        · intro nothing
          have none := List.take_eq_nil_iff.mp nothing
          grind
        · refine ⟨record.content.drop len ++ applicationBytes records, ?_, ?_⟩
          · rw [← List.append_assoc, List.take_append_drop]
          · exact ih later _ (fun other member => data other (List.mem_cons_of_mem _ member)) _
    · rw [tlsRecv_buffered suite here empty]
      apply And.intro
      · intro nothing
        have none := List.take_eq_nil_iff.mp nothing
        grind
      · refine ⟨kept.drop len ++ applicationBytes records, ?_, ih later keys data _⟩
        rw [← List.append_assoc, List.take_append_drop]

/-- Where the calls hand out exactly the application data, there is nothing but that. -/
theorem data_of_delivers (seals : crypto.Seals) (suite : Nat) {keys : Direction}
    {records : List PostRecord}
    (delivers : ∀ sizes, (∀ len ∈ sizes, 0 < len) →
      Delivers .endOfStream (applicationBytes records)
        (reads crypto suite ⟨serverStream crypto suite .alert keys records, keys, []⟩ sizes)) :
    ∀ record ∈ records, record.contentType = tlsApplicationData ∧ record.content ≠ [] := by
  induction records generalizing keys with
  | nil => exact fun _ member => absurd member List.not_mem_nil
  | cons record records ih =>
    have stream : serverStream crypto suite .alert keys (record :: records) =
        protectRecord crypto suite keys record.plain ++
          serverStream crypto suite .alert keys.next records := rfl
    -- A buffer that takes every record whole.
    have large : 0 < tlsRecordMax := by decide
    have call := tlsRecv_record seals suite keys large record
      (serverStream crypto suite .alert keys.next records)
    by_cases good : record.contentType = tlsApplicationData ∧ record.content ≠ []
    · rw [if_pos good] at call
      have short : record.content.length ≤ tlsRecordMax := by
        have fits := record.fits
        omega
      rw [List.take_of_length_le short, List.drop_of_length_le short] at call
      have bytes : applicationBytes (record :: records) =
          record.content ++ applicationBytes records := by
        simp [applicationBytes, good.1]
      have tail : ∀ sizes, (∀ len ∈ sizes, 0 < len) →
          Delivers .endOfStream (applicationBytes records) (reads crypto suite
            ⟨serverStream crypto suite .alert keys.next records, keys.next, []⟩ sizes) := by
        intro sizes positive
        have whole := delivers (tlsRecordMax :: sizes) (by
          intro len member
          rcases List.mem_cons.mp member with rfl | later
          · exact large
          · exact positive len later)
        unfold reads at whole
        rw [stream, call, bytes] at whole
        have split := whole.2.choose_spec
        rw [List.append_cancel_left split.1]
        exact split.2
      have rest := ih tail
      intro other member
      rcases List.mem_cons.mp member with rfl | later
      · exact good
      · exact rest other later
    · rw [if_neg good] at call
      have whole := delivers [tlsRecordMax] (by simp [large])
      unfold reads at whole
      rw [stream, call] at whole
      cases whole.2

/-- The calls hand out exactly the application data when the server sends nothing else, and no empty
record. -/
theorem tlsRecv_readsWhole_iff (seals : crypto.Seals) (suite : Nat) (keys : Direction)
    (records : List PostRecord) :
    ReadsWhole crypto suite keys records ↔
      ∀ record ∈ records, record.contentType = tlsApplicationData ∧ record.content ≠ [] := by
  constructor
  · intro whole
    exact data_of_delivers seals suite fun sizes positive => whole .alert sizes positive
  · intro data ending sizes positive
    have all := delivers_of_data seals suite ending sizes positive keys data []
    rwa [List.nil_append] at all

/-- A page in two records. -/
def twoPages : List PostRecord :=
  [⟨tlsApplicationData, ascii "ab", 3, .inl rfl, by decide⟩,
    ⟨tlsApplicationData, ascii "c", 0, .inl rfl, by decide⟩]

/-- Two records of application data are handed out whole. -/
theorem tlsRecv_readsWhole_twoPages :
    ReadsWhole loopback tlsAes128GcmSha256 ⟨[], [], 0⟩ twoPages :=
  (tlsRecv_readsWhole_iff loopback_seals _ _ _).mpr (by decide)

/-- A NewSessionTicket in front of a record of application data. -/
def ticketFirst : List PostRecord :=
  [⟨tlsHandshake, [4, 0, 0, 1, 0], 0, .inr rfl, by decide⟩,
    ⟨tlsApplicationData, ascii "ab", 0, .inl rfl, by decide⟩]

/-- The first call behind the handshake fails on a NewSessionTicket. -/
theorem tlsRecv_ticket_fails :
    ¬ ReadsWhole loopback tlsAes128GcmSha256 ⟨[], [], 0⟩ ticketFirst := by
  intro whole
  have delivers := whole .alert [64] (by decide)
  have failed : reads loopback tlsAes128GcmSha256
      ⟨serverStream loopback tlsAes128GcmSha256 .alert ⟨[], [], 0⟩ ticketFirst, ⟨[], [], 0⟩, []⟩
      [64] = [.error] := by decide
  rw [failed] at delivers
  cases delivers.2

end Cookbook.Tls
