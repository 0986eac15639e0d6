import Cookbook.Tls.Impersonation

/-!
# Messages and records

A server may put several handshake messages into one record and spread one message over several
records. The client takes every record for one message: the message's type is the record's first
byte, and the whole record joins the transcript. So a packing works exactly when every record passes
as a message of its own and the last one passes as the Finished; where no message is split, that is
when the Finished has a record of its own.
-/
namespace Cookbook.Tls

open Library.Text Library.Loop

variable {Cert RsaKey : Type}

/-! ## Packings -/

/-- A handshake record: a piece of the messages, with padding, of at most 2^14 bytes. -/
structure Fragment where
  /-- The piece. -/
  content : Bytes
  /-- The number of zeros behind the content type. -/
  padding : Nat
  /-- A handshake record is not empty. -/
  nonempty : content ≠ []
  /-- Content, type and padding fit. -/
  fits : content.length + padding ≤ tlsRecordMax

/-- What is encrypted. -/
def Fragment.plain (fragment : Fragment) : Bytes :=
  fragment.content ++ tlsHandshake :: List.replicate fragment.padding 0

/-- The records on the socket. -/
def packRecords (crypto : Crypto Cert RsaKey) (suite : Nat) : Direction → List Fragment → Bytes
  | _, [] => []
  | keys, fragment :: fragments =>
    protectRecord crypto suite keys fragment.plain ++ packRecords crypto suite keys.next fragments

/-- The contents of the records, one behind the other. -/
def contents (fragments : List Fragment) : Bytes := (fragments.map (·.content)).flatten

/-! ## Flights -/

/-- The encrypted messages of a server. -/
structure Flight where
  /-- EncryptedExtensions -/
  extensions : Bytes
  /-- Certificate -/
  certificate : Bytes
  /-- CertificateVerify -/
  certVerify : Bytes
  /-- Finished -/
  finished : Bytes

/-- The messages in their order. -/
def Flight.messages (flight : Flight) : List Bytes :=
  [flight.extensions, flight.certificate, flight.certVerify, flight.finished]

/-- `HS_ENC_EXTENSIONS` -/
def hsEncExtensions : UInt8 := 8

/-- A handshake message: its type, the length of its body and the body. -/
def handshakeMessage (kind : UInt8) (body : Bytes) : Bytes := kind :: (putU24 body.length ++ body)

/-- A flight is valid behind the hello messages: the certificate is taken whenever it is processed,
the signature is the one of its key, and the Finished confirms the messages before it. -/
structure Flight.Valid (crypto : Crypto Cert RsaKey) (platform : Platform) (started : Started Cert)
    (flight : Flight) : Prop where
  /-- The first message. -/
  extensions : ∃ body, flight.extensions = handshakeMessage hsEncExtensions body
  /-- The second message. -/
  certificate : ∃ body, flight.certificate = handshakeMessage hsCertificate body
  /-- The third message. -/
  certVerify : ∃ body, flight.certVerify = handshakeMessage hsCertVerify body
  /-- The certificate is accepted, and the signature verifies under its key. -/
  signed : ∃ cert : Cert,
    (∀ index beyond certs,
      processCertificate crypto platform index ⟨flight.certificate, beyond⟩ certs =
        some ⟨cert, true⟩) ∧
    ∀ beyond, verifyLengths ⟨flight.certVerify, beyond⟩ = true ∧
      verifySignature crypto platform cert ⟨flight.certVerify, beyond⟩
        (transcriptHash crypto
          (started.state.transcript ++ [flight.extensions, flight.certificate])) = .done true
  /-- The last message. -/
  finished : flight.finished = handshakeMessage hsFinished
    (finishedData crypto started.serverSecret (transcriptHash crypto (started.state.transcript ++
      [flight.extensions, flight.certificate, flight.certVerify])))
  /-- Its data has the length of a hash. -/
  finishedLength : ∀ key data, (crypto.hmac key data).length = hkdfHashLen

/-- What an accepted handshake leaves: the hash of its transcript, the keys and the unread bytes. -/
def Connection.outcome (crypto : Crypto Cert RsaKey) (conn : Connection) :
    Nat × Direction × Direction × Bytes × Bytes :=
  (conn.suite, conn.send, conn.recv, transcriptHash crypto conn.transcript, conn.input)

/-- The handshake is accepted with a flight: the bytes of the messages are the ones that are hashed,
all of the records and nothing else are read, and the connection is the one of the messages. -/
structure Completes (crypto : Crypto Cert RsaKey) (platform : Platform) (started : Started Cert)
    (flight : Flight) (fragments : List Fragment) (rest : Bytes) : Prop where
  /-- The loop ends in such a state. -/
  accepted : ∃ final,
    receiveHandshake crypto platform started.suite started.serverSecret
      { started.state with
        input := packRecords crypto started.suite started.state.recv fragments ++ rest } =
      .done (some final) ∧
    final.input = rest ∧
    final.transcript.flatten = (started.state.transcript ++ flight.messages).flatten ∧
    (finishHandshake crypto platform started.suite started.hsSecret started.clientSecret final).map
        (Connection.outcome crypto) =
      (finishHandshake crypto platform started.suite started.hsSecret started.clientSecret
        { started.state with
          input := rest
          transcript := started.state.transcript ++ flight.messages }).map
        (Connection.outcome crypto)

/-! ## Records as messages -/

variable (crypto : Crypto Cert RsaKey) (platform : Platform)

/-- The certificate state behind a record. -/
def certsBehind (index : Nat) (certs : CertState Cert) (msg : Bytes) : CertState Cert :=
  if messageType msg = hsCertificate then
    (processCertificate crypto platform index (platform.message index msg) certs).getD certs
  else certs

/-- A record behind a transcript, taken for a message, lets the handshake go on. -/
structure LetsPass (transcript : List Bytes) (certs : CertState Cert) (msg : Bytes) : Prop where
  /-- It has the length of a message header. -/
  header : 4 ≤ msg.length
  /-- It does not start like a Finished. -/
  unfinished : messageType msg ≠ hsFinished
  /-- Where it starts like a Certificate, no certificate in it is refused. -/
  certificate : messageType msg = hsCertificate →
    (processCertificate crypto platform transcript.length
      (platform.message transcript.length msg) certs).isSome
  /-- Where it starts like a CertificateVerify, no signature in it is refused. -/
  certVerify : messageType msg = hsCertVerify →
    processCertVerify crypto platform (platform.message transcript.length msg)
      (transcriptHash crypto transcript) certs = .done true

/-- A record behind a transcript is the Finished for it. -/
structure Closes (serverSecret : Bytes) (transcript : List Bytes) (msg : Bytes) : Prop where
  /-- It has the length of a message header. -/
  header : 4 ≤ msg.length
  /-- It starts like a Finished. -/
  finished : messageType msg = hsFinished
  /-- Its data is the expected one. -/
  expected : finishedMatches (platform.message transcript.length msg)
    (finishedData crypto serverSecret (transcriptHash crypto transcript)) = true

/-- Every record but the last lets the handshake go on, and the last is the Finished for the records
before it. -/
def PassAsMessages (serverSecret : Bytes) : List Bytes → CertState Cert → List Bytes → Prop
  | _, _, [] => False
  | transcript, certs, msg :: msgs =>
    msgs = [] ∧ Closes crypto platform serverSecret transcript msg ∨
      LetsPass crypto platform transcript certs msg ∧
        PassAsMessages serverSecret (transcript ++ [msg])
          (certsBehind crypto platform transcript.length certs msg) msgs

/-- No message is split: every record has some of the messages. -/
def WholeMessages (flight : Flight) (fragments : List Fragment) : Prop :=
  ∃ groups : List (List Bytes), groups.flatten = flight.messages ∧
    fragments.map (·.content) = groups.map List.flatten

/-- The last record has the Finished and nothing else. -/
def FinishedAlone (flight : Flight) (fragments : List Fragment) : Prop :=
  (fragments.map (·.content)).getLast? = some flight.finished

/-! ## One record -/

variable {crypto platform}

/-- A record that lets the handshake go on is processed. -/
theorem processMessage_letsPass (serverSecret : Bytes) (state : Handshake Cert) {msg : Bytes}
    (pass : LetsPass crypto platform state.transcript state.certs msg) :
    processMessage crypto platform serverSecret state msg = .again
      { state with
        transcript := state.transcript ++ [msg]
        certs := certsBehind crypto platform state.transcript.length state.certs msg } := by
  unfold certsBehind
  by_cases certificate : messageType msg = hsCertificate
  · have taken := pass.certificate certificate
    rw [if_pos certificate]
    cases processed : processCertificate crypto platform state.transcript.length
        (platform.message state.transcript.length msg) state.certs with
    | none =>
      rw [processed] at taken
      cases taken
    | some certs => exact processMessage_taken certificate processed
  rw [if_neg certificate]
  by_cases certVerify : messageType msg = hsCertVerify
  · rw [processMessage_onCertVerify certVerify, pass.certVerify certVerify]
  · rw [processMessage_onOther certificate certVerify pass.unfinished]

/-- A record that is processed and lets the handshake go on passes. -/
theorem letsPass_of_again {serverSecret : Bytes} {state next : Handshake Cert} {msg : Bytes}
    (header : 4 ≤ msg.length)
    (again : processMessage crypto platform serverSecret state msg = .again next) :
    LetsPass crypto platform state.transcript state.certs msg := by
  obtain ⟨-, -, -, unfinished, certificate, certVerify⟩ := processMessage_again again
  apply LetsPass.mk header unfinished
  · intro kind
    rw [certificate kind]
    rfl
  · intro kind
    exact (certVerify kind).2

/-- The Finished ends the loop. -/
theorem processMessage_closes {serverSecret : Bytes} (state : Handshake Cert) {msg : Bytes}
    (closes : Closes crypto platform serverSecret state.transcript msg) :
    processMessage crypto platform serverSecret state msg =
      .stop (.done (some { state with transcript := state.transcript ++ [msg] })) := by
  rw [processMessage_onFinished closes.finished, if_pos closes.expected]

/-- A record that ends the loop with acceptance is the Finished. -/
theorem closes_of_accepted {serverSecret : Bytes} {state final : Handshake Cert} {msg : Bytes}
    (header : 4 ≤ msg.length)
    (accepted : processMessage crypto platform serverSecret state msg =
      .stop (.done (some final))) :
    Closes crypto platform serverSecret state.transcript msg ∧
      final = { state with transcript := state.transcript ++ [msg] } := by
  have shape := processMessage_accepted accepted
  exact ⟨⟨header, shape.1, shape.2.2⟩, shape.2.1⟩

/-- A record of the flight that is in front of the socket is processed as one message, unless it is
shorter than a message header. -/
theorem receiveRound_fragment (seals : crypto.Seals) (platform : Platform) (suite : Nat)
    (serverSecret : Bytes) (keys : Direction) (transcript : List Bytes) (certs : CertState Cert)
    (fragment : Fragment) (rest : Bytes) :
    receiveRound crypto platform suite serverSecret
        ⟨protectRecord crypto suite keys fragment.plain ++ rest, keys, transcript, certs⟩ =
      if fragment.content.length < 4 then .again ⟨rest, keys.next, transcript, certs⟩
      else processMessage crypto platform serverSecret ⟨rest, keys.next, transcript, certs⟩
        fragment.content := by
  have fits := fragment.fits
  have length : fragment.plain.length = fragment.content.length + fragment.padding + 1 := by
    unfold Fragment.plain
    rw [List.length_append, List.length_cons, List.length_replicate]
    omega
  have received := tlsRecvRecord_protected seals suite keys fragment.plain (by omega)
    (by simp only [tlsRecordMax] at fits ⊢; omega) rest
  have inner : innerContent fragment.plain = some (tlsHandshake, fragment.content) :=
    innerContent_padded fragment.content (by decide) fragment.padding
  unfold receiveRound
  simp only [received, inner]
  rw [if_neg (by decide)]
  by_cases short : fragment.content.length < 4
  · rw [if_pos (.inr short), if_neg (by decide), if_pos short]
  · rw [if_neg (by simp [short]), if_neg short]

/-! ## The loop -/

/-- One round of the handshake loop. -/
theorem receiveHandshake_round (platform : Platform) (suite : Nat) (serverSecret : Bytes)
    (state : Handshake Cert) :
    receiveHandshake crypto platform suite serverSecret state =
      match receiveRound crypto platform suite serverSecret state with
      | .again next => receiveHandshake crypto platform suite serverSecret next
      | .stop result => result := by
  unfold receiveHandshake
  rw [loop_succ]
  cases round : receiveRound crypto platform suite serverSecret state with
  | stop result => rfl
  | again next =>
    have shrinks := receiveRound_shrinks round
    have rounds : next.input.length + 1 + (state.input.length - (next.input.length + 1)) =
        state.input.length := Nat.add_sub_cancel' shrinks
    rw [← rounds]
    exact receiveHandshake_enough platform suite serverSecret next _

/-- A handshake that is accepted read from the socket. -/
theorem receiveHandshake_consumes (platform : Platform) (suite : Nat) (serverSecret : Bytes)
    (state : Handshake Cert) : ∀ final,
    receiveHandshake crypto platform suite serverSecret state = .done (some final) →
      final.input.length < state.input.length := by
  apply loop_invariant (fun current : Handshake Cert => current.input.length ≤ state.input.length)
    (fun result : Outcome (Option (Handshake Cert)) => ∀ last, result = .done (some last) →
      last.input.length < state.input.length)
    _ _ _ (state.input.length + 1) (Nat.le_refl _)
  · intro current next bound again
    have shrinks := receiveRound_shrinks again
    omega
  · intro current result bound stop last isLast
    rw [isLast] at stop
    obtain ⟨msg, input, recv, stopped, less⟩ := receiveRound_stopped stop
    have unread : last.input = input := by
      rw [(processMessage_accepted stopped).2.1]
    rw [unread]
    omega
  · intro last impossible
    cases impossible

/-- Records that pass as messages are all read, and all of them join the transcript. -/
theorem receiveHandshake_passes (seals : crypto.Seals) (suite : Nat) (serverSecret : Bytes)
    (rest : Bytes) (fragments : List Fragment) (keys : Direction) (transcript : List Bytes)
    (certs : CertState Cert)
    (pass : PassAsMessages crypto platform serverSecret transcript certs
      (fragments.map (·.content))) :
    ∃ final, receiveHandshake crypto platform suite serverSecret
        ⟨packRecords crypto suite keys fragments ++ rest, keys, transcript, certs⟩ =
          .done (some final) ∧
      final.input = rest ∧ final.transcript = transcript ++ fragments.map (·.content) := by
  induction fragments generalizing keys transcript certs with
  | nil => exact pass.elim
  | cons fragment fragments ih =>
    have shape : packRecords crypto suite keys (fragment :: fragments) ++ rest =
        protectRecord crypto suite keys fragment.plain ++
          (packRecords crypto suite keys.next fragments ++ rest) := by
      rw [packRecords, List.append_assoc]
    rw [shape, receiveHandshake_round, receiveRound_fragment seals]
    cases pass with
    | inl last =>
      have none : fragments = [] := List.map_eq_nil_iff.mp last.1
      have closes := processMessage_closes
        ⟨packRecords crypto suite keys.next fragments ++ rest, keys.next, transcript, certs⟩ last.2
      rw [if_neg (Nat.not_lt.mpr last.2.header), closes]
      refine ⟨_, rfl, ?_, ?_⟩
      · simp [none, packRecords]
      · simp [none]
    | inr more =>
      have passes := processMessage_letsPass serverSecret
        ⟨packRecords crypto suite keys.next fragments ++ rest, keys.next, transcript, certs⟩ more.1
      rw [if_neg (Nat.not_lt.mpr more.1.header), passes]
      obtain ⟨final, accepted, unread, joined⟩ := ih keys.next _ _ more.2
      refine ⟨final, accepted, unread, ?_⟩
      rw [joined, List.append_assoc]
      rfl

/-- A handshake that is accepted when the records are used up hashes no more than their contents;
where it hashes all of them, the records passed as messages. -/
theorem passes_of_accepted (seals : crypto.Seals) (suite : Nat) (serverSecret rest : Bytes)
    (fragments : List Fragment) (keys : Direction) (transcript : List Bytes)
    (certs : CertState Cert) (final : Handshake Cert)
    (accepted : receiveHandshake crypto platform suite serverSecret
      ⟨packRecords crypto suite keys fragments ++ rest, keys, transcript, certs⟩ =
        .done (some final)) (unread : final.input = rest) :
    final.transcript.flatten.length ≤ transcript.flatten.length + (contents fragments).length ∧
      (final.transcript.flatten.length = transcript.flatten.length + (contents fragments).length →
        PassAsMessages crypto platform serverSecret transcript certs
          (fragments.map (·.content))) := by
  induction fragments generalizing keys transcript certs with
  | nil =>
    have consumed := receiveHandshake_consumes platform suite serverSecret _ final accepted
    rw [unread] at consumed
    simp [packRecords] at consumed
  | cons fragment fragments ih =>
    have shape : packRecords crypto suite keys (fragment :: fragments) ++ rest =
        protectRecord crypto suite keys fragment.plain ++
          (packRecords crypto suite keys.next fragments ++ rest) := by
      rw [packRecords, List.append_assoc]
    have length : (contents (fragment :: fragments)).length =
        fragment.content.length + (contents fragments).length := by
      simp [contents]
    have positive : 0 < fragment.content.length := List.length_pos_iff.mpr fragment.nonempty
    rw [shape, receiveHandshake_round, receiveRound_fragment seals] at accepted
    by_cases short : fragment.content.length < 4
    · rw [if_pos short] at accepted
      have bound := (ih keys.next transcript certs accepted).1
      apply And.intro
      · omega
      · intro whole
        omega
    · rw [if_neg short] at accepted
      have header : 4 ≤ fragment.content.length := Nat.not_lt.mp short
      cases round : processMessage crypto platform serverSecret
          ⟨packRecords crypto suite keys.next fragments ++ rest, keys.next, transcript, certs⟩
          fragment.content with
      | again next =>
        have pass := letsPass_of_again header round
        have same := processMessage_letsPass serverSecret _ pass
        rw [same] at accepted
        have behind := ih keys.next _ _ accepted
        have joined : (transcript ++ [fragment.content]).flatten.length =
            transcript.flatten.length + fragment.content.length := by
          simp
        rw [joined] at behind
        apply And.intro
        · omega
        · intro whole
          exact .inr ⟨pass, behind.2 (by omega)⟩
      | stop result =>
        rw [round] at accepted
        have isFinal : result = .done (some final) := accepted
        rw [isFinal] at round
        obtain ⟨closes, ends⟩ := closes_of_accepted header round
        have empty : fragments = [] := by
          cases fragments with
          | nil => rfl
          | cons next others =>
            rw [ends] at unread
            have lengths := congrArg List.length unread
            have nonempty := protectRecord_length seals suite keys.next next.plain
            simp only [packRecords, List.length_append] at lengths
            omega
        apply And.intro
        · rw [ends, length]
          simp
        · intro whole
          exact .inl ⟨by rw [empty]; rfl, closes⟩

/-- The connection depends on the bytes of the transcript alone. -/
theorem finishHandshake_outcome (platform : Platform) (suite : Nat) (hsSecret clientSecret : Bytes)
    {state other : Handshake Cert} (hashed : state.transcript.flatten = other.transcript.flatten)
    (unread : state.input = other.input) :
    (finishHandshake crypto platform suite hsSecret clientSecret state).map
        (Connection.outcome crypto) =
      (finishHandshake crypto platform suite hsSecret clientSecret other).map
        (Connection.outcome crypto) := by
  unfold finishHandshake
  by_cases sent : platform.finishedSent = false
  · simp only [if_pos sent, Option.map_none]
  · simp only [if_neg sent, Option.map_some, Connection.outcome, transcriptHash,
      List.flatten_append, hashed, unread]

/-- A handshake completes with a packing exactly when its records pass as messages. -/
theorem completes_iff_pass (seals : crypto.Seals) {started : Started Cert} {flight : Flight}
    {fragments : List Fragment} (rest : Bytes)
    (packs : contents fragments = flight.messages.flatten) :
    Completes crypto platform started flight fragments rest ↔
      PassAsMessages crypto platform started.serverSecret started.state.transcript
        started.state.certs (fragments.map (·.content)) := by
  constructor
  · intro completes
    obtain ⟨final, accepted, unread, hashed, -⟩ := completes.accepted
    have bound := passes_of_accepted seals started.suite started.serverSecret rest fragments
      started.state.recv started.state.transcript started.state.certs final accepted unread
    apply bound.2
    rw [hashed, packs, List.flatten_append, List.length_append]
  · intro pass
    obtain ⟨final, accepted, unread, joined⟩ := receiveHandshake_passes seals started.suite
      started.serverSecret rest fragments started.state.recv started.state.transcript
      started.state.certs pass
    have hashed : final.transcript.flatten =
        (started.state.transcript ++ flight.messages).flatten := by
      rw [joined, List.flatten_append, List.flatten_append, ← packs]
      rfl
    exact ⟨final, accepted, unread, hashed,
      finishHandshake_outcome platform started.suite started.hsSecret started.clientSecret hashed
        unread⟩

/-! ## Whole messages -/

/-- The type of what starts with a message. -/
theorem messageType_handshakeMessage (kind : UInt8) (body more : Bytes) :
    messageType (handshakeMessage kind body ++ more) = kind := rfl

/-- What starts with a message has the length of its header. -/
theorem handshakeMessage_header (kind : UInt8) (body more : Bytes) :
    4 ≤ (handshakeMessage kind body ++ more).length := by
  simp only [handshakeMessage, putU24, putU16, List.length_append, List.length_cons,
    List.length_nil]
  omega

/-- A buffer with more bytes is the buffer with those bytes behind it. -/
theorem get_append (front more : Bytes) (beyond : Nat → UInt8) (offset : Nat) :
    Region.get ⟨front ++ more, beyond⟩ offset =
      Region.get ⟨front, fun index => more.getD index (beyond (index - more.length))⟩ offset := by
  unfold Region.get
  simp only [List.getD_eq_getElem?_getD, List.length_append]
  by_cases inside : offset < front.length
  · rw [List.getElem?_append_left inside, List.getElem?_eq_getElem inside]
    rfl
  · have behind : front.length ≤ offset := Nat.not_lt.mp inside
    rw [List.getElem?_append_right behind, List.getElem?_eq_none behind, Nat.sub_add_eq]
    rfl

/-- A Certificate is found in front of other messages as if it were alone. -/
theorem processCertificate_append (platform : Platform) (index : Nat) (front more : Bytes)
    (beyond : Nat → UInt8) (certs : CertState Cert) :
    processCertificate crypto platform index ⟨front ++ more, beyond⟩ certs =
      processCertificate crypto platform index
        ⟨front, fun index => more.getD index (beyond (index - more.length))⟩ certs := by
  have same : Region.get ⟨front ++ more, beyond⟩ =
      Region.get ⟨front, fun index => more.getD index (beyond (index - more.length))⟩ :=
    funext (get_append front more beyond)
  have leaf : findLeaf ⟨front ++ more, beyond⟩ =
      findLeaf ⟨front, fun index => more.getD index (beyond (index - more.length))⟩ := by
    unfold findLeaf Region.getU24 Region.getU16
    rw [same]
  have slice : Region.slice ⟨front ++ more, beyond⟩ =
      Region.slice ⟨front, fun index => more.getD index (beyond (index - more.length))⟩ := by
    unfold Region.slice
    rw [same]
  rw [processCertificate, processCertificate, leaf, slice]

variable {started : Started Cert} {flight : Flight}

/-- A record that starts with the EncryptedExtensions passes and leaves the certificate state. -/
theorem Flight.Valid.letsPass_extensions (valid : flight.Valid crypto platform started)
    (transcript : List Bytes) (certs : CertState Cert) (more : Bytes) :
    LetsPass crypto platform transcript certs (flight.extensions ++ more) ∧
      certsBehind crypto platform transcript.length certs (flight.extensions ++ more) = certs := by
  obtain ⟨body, shape⟩ := valid.extensions
  have kind : messageType (flight.extensions ++ more) = hsEncExtensions := by
    rw [shape, messageType_handshakeMessage]
  have noCertificate : messageType (flight.extensions ++ more) ≠ hsCertificate := by
    rw [kind]
    decide
  have noCertVerify : messageType (flight.extensions ++ more) ≠ hsCertVerify := by
    rw [kind]
    decide
  constructor
  · apply LetsPass.mk
    · rw [shape]
      exact handshakeMessage_header _ _ _
    · rw [kind]
      decide
    · intro other
      exact absurd other noCertificate
    · intro other
      exact absurd other noCertVerify
  · exact if_neg noCertificate

/-- A record that starts with the Certificate passes and leaves its certificate. -/
theorem Flight.Valid.letsPass_certificate (valid : flight.Valid crypto platform started)
    {cert : Cert} (taken : ∀ index beyond certs,
      processCertificate crypto platform index ⟨flight.certificate, beyond⟩ certs =
        some ⟨cert, true⟩)
    (transcript : List Bytes) (certs : CertState Cert) (more : Bytes) :
    LetsPass crypto platform transcript certs (flight.certificate ++ more) ∧
      certsBehind crypto platform transcript.length certs (flight.certificate ++ more) =
        ⟨cert, true⟩ := by
  obtain ⟨body, shape⟩ := valid.certificate
  have kind : messageType (flight.certificate ++ more) = hsCertificate := by
    rw [shape, messageType_handshakeMessage]
  have processed : processCertificate crypto platform transcript.length
      (platform.message transcript.length (flight.certificate ++ more)) certs =
        some ⟨cert, true⟩ := by
    unfold Platform.message
    rw [processCertificate_append]
    exact taken _ _ _
  constructor
  · apply LetsPass.mk
    · rw [shape]
      exact handshakeMessage_header _ _ _
    · rw [kind]
      decide
    · intro _
      rw [processed]
      rfl
    · intro other
      exact absurd (kind.symm.trans other) (by decide)
  · unfold certsBehind
    rw [if_pos kind, processed]
    rfl

/-- The CertificateVerify passes when no certificate is kept, or behind the Certificate. -/
theorem Flight.Valid.letsPass_certVerify (valid : flight.Valid crypto platform started)
    {cert : Cert} (verifies : ∀ beyond, verifyLengths ⟨flight.certVerify, beyond⟩ = true ∧
      verifySignature crypto platform cert ⟨flight.certVerify, beyond⟩
        (transcriptHash crypto
          (started.state.transcript ++ [flight.extensions, flight.certificate])) = .done true)
    (transcript : List Bytes) {certs : CertState Cert}
    (unchecked : certs.haveCert = false ∨ certs = ⟨cert, true⟩ ∧
      transcript = started.state.transcript ++ [flight.extensions, flight.certificate]) :
    LetsPass crypto platform transcript certs flight.certVerify ∧
      certsBehind crypto platform transcript.length certs flight.certVerify = certs := by
  obtain ⟨body, shape⟩ := valid.certVerify
  have kind : messageType flight.certVerify = hsCertVerify := by
    rw [shape]
    rfl
  have noCertificate : messageType flight.certVerify ≠ hsCertificate := by
    rw [kind]
    decide
  have long := handshakeMessage_header hsCertVerify body []
  rw [List.append_nil, ← shape] at long
  constructor
  · apply LetsPass.mk long
    · rw [kind]
      decide
    · intro other
      exact absurd other noCertificate
    · intro _
      unfold processCertVerify
      cases unchecked with
      | inl none => rw [if_pos (.inl none)]
      | inr kept =>
        have verified := verifies (platform.beyond transcript.length)
        rw [if_neg (by simp [kept.1, Platform.message, verified.1]), kept.1, kept.2]
        rw [kept.2] at verified
        exact verified.2
  · exact if_neg noCertificate

/-- The Finished closes behind the other messages, however they were packed. -/
theorem Flight.Valid.closes_finished (valid : flight.Valid crypto platform started)
    {transcript : List Bytes} (hashed : transcript.flatten = (started.state.transcript ++
      [flight.extensions, flight.certificate, flight.certVerify]).flatten) :
    Closes crypto platform started.serverSecret transcript flight.finished := by
  have shape := valid.finished
  have hash : transcriptHash crypto (started.state.transcript ++
      [flight.extensions, flight.certificate, flight.certVerify]) =
        transcriptHash crypto transcript := by
    unfold transcriptHash
    rw [hashed]
  rw [hash] at shape
  generalize data : finishedData crypto started.serverSecret (transcriptHash crypto transcript) =
    expected at shape
  have length : expected.length = 32 := by
    rw [← data]
    exact valid.finishedLength _ _
  have bytes : flight.finished = [20, 0, 0, 32] ++ expected := by
    rw [shape, handshakeMessage, length]
    rfl
  have number : Region.getU24 (platform.message transcript.length flight.finished) 1 = 32 := by
    simp only [Region.getU24, Region.getU16, Platform.message, bytes]
    rw [get_front (by decide), get_front (by decide), get_front (by decide)]
    rfl
  have slice : Region.slice (platform.message transcript.length flight.finished) 4 32 =
      expected := by
    rw [slice_inside (by simp [Platform.message, bytes, length]), Platform.message, bytes]
    exact List.take_of_length_le (by simp [length])
  apply Closes.mk
  · rw [bytes]
    simp
  · rw [bytes]
    rfl
  · rw [data]
    simp [finishedMatches, number, slice]

/-- The first message of a packing opens its first record. -/
theorem groups_cons {message : Bytes} {messages : List Bytes} {groups : List (List Bytes)}
    (filled : ∀ group ∈ groups, group ≠ []) (whole : groups.flatten = message :: messages) :
    ∃ group others, groups = (message :: group) :: others ∧
      group ++ others.flatten = messages := by
  cases groups with
  | nil => cases whole
  | cons front others =>
    cases front with
    | nil => exact absurd rfl (filled [] (by simp))
    | cons first group =>
      have same := List.cons.inj whole
      exact ⟨group, others, by rw [same.1], same.2⟩

/-- The ways to put three messages into records. -/
theorem groups_three {first second third : Bytes} {groups : List (List Bytes)}
    (filled : ∀ group ∈ groups, group ≠ []) (whole : groups.flatten = [first, second, third]) :
    groups = [[first], [second], [third]] ∨ groups = [[first, second], [third]] ∨
      groups = [[first], [second, third]] ∨ groups = [[first, second, third]] := by
  have none {others : List (List Bytes)} (filled : ∀ group ∈ others, group ≠ [])
      (empty : others.flatten = []) : others = [] := by
    cases others with
    | nil => rfl
    | cons front others =>
      exact absurd (List.append_eq_nil_iff.mp empty).1 (filled front (by simp))
  have one {message : Bytes} {others : List (List Bytes)} (filled : ∀ group ∈ others, group ≠ [])
      (whole : others.flatten = [message]) : others = [[message]] := by
    obtain ⟨group, more, rfl, rest⟩ := groups_cons filled whole
    have parts := List.append_eq_nil_iff.mp rest
    rw [parts.1, none (fun group member => filled group (by simp [member])) parts.2]
  have two {message last : Bytes} {others : List (List Bytes)}
      (filled : ∀ group ∈ others, group ≠ []) (whole : others.flatten = [message, last]) :
      others = [[message], [last]] ∨ others = [[message, last]] := by
    obtain ⟨group, more, rfl, rest⟩ := groups_cons filled whole
    have behind : ∀ group ∈ more, group ≠ [] := fun group member => filled group (by simp [member])
    cases group with
    | nil => exact .inl (by rw [one behind rest])
    | cons next group =>
      have same := List.cons.inj rest
      have parts := List.append_eq_nil_iff.mp same.2
      exact .inr (by rw [same.1, parts.1, none behind parts.2])
  obtain ⟨group, more, rfl, rest⟩ := groups_cons filled whole
  have behind : ∀ group ∈ more, group ≠ [] := fun group member => filled group (by simp [member])
  cases group with
  | nil =>
    cases two behind rest with
    | inl apart => exact .inl (by rw [apart])
    | inr joined => exact .inr (.inr (.inl (by rw [joined])))
  | cons next group =>
    have same := List.cons.inj rest
    cases group with
    | nil => exact .inr (.inl (by rw [same.1, one behind same.2]))
    | cons last group =>
      have tail := List.cons.inj same.2
      have parts := List.append_eq_nil_iff.mp tail.2
      exact .inr (.inr (.inr (by rw [same.1, tail.1, parts.1, none behind parts.2])))

/-- Records that pass as messages end in one that starts like a Finished. -/
theorem PassAsMessages.last {serverSecret : Bytes} {transcript : List Bytes}
    {certs : CertState Cert} {init : List Bytes} {final : Bytes}
    (pass : PassAsMessages crypto platform serverSecret transcript certs (init ++ [final])) :
    messageType final = hsFinished := by
  induction init generalizing transcript certs with
  | nil =>
    cases pass with
    | inl closes => exact closes.2.finished
    | inr more => exact more.2.elim
  | cons msg init ih =>
    cases pass with
    | inl closes => simp at closes
    | inr more => exact ih more.2

/-- Where no message is split, the records pass exactly when the Finished has a record of its own. -/
theorem pass_iff_finishedAlone (valid : flight.Valid crypto platform started)
    (fresh : started.state.certs.haveCert = false) {fragments : List Fragment}
    (whole : WholeMessages flight fragments) :
    PassAsMessages crypto platform started.serverSecret started.state.transcript
        started.state.certs (fragments.map (·.content)) ↔
      FinishedAlone flight fragments := by
  obtain ⟨groups, flat, records⟩ := whole
  have filled : ∀ group ∈ groups, group ≠ [] := by
    intro group member empty
    have content : group.flatten ∈ fragments.map (·.content) := by
      rw [records]
      exact List.mem_map_of_mem member
    obtain ⟨fragment, -, same⟩ := List.mem_map.mp content
    exact fragment.nonempty (by rw [same, empty]; rfl)
  obtain ⟨init, last, rfl⟩ : ∃ init last, groups = init ++ [last] := by
    cases List.eq_nil_or_concat' groups with
    | inl none =>
      rw [none] at flat
      cases flat
    | inr concat => exact concat
  obtain ⟨more, final, rfl⟩ : ∃ more final, last = more ++ [final] := by
    cases List.eq_nil_or_concat' last with
    | inl none => exact absurd none (filled last (by simp))
    | inr concat => exact concat
  have split : (init.flatten ++ more) ++ [final] =
      [flight.extensions, flight.certificate, flight.certVerify] ++ [flight.finished] := by
    rw [List.append_assoc]
    simpa [Flight.messages] using flat
  have parts := List.append_inj' split rfl
  have isFinished : final = flight.finished := (List.cons.inj parts.2).1
  unfold FinishedAlone
  rw [records, isFinished]
  simp only [List.map_append, List.map_cons, List.map_nil, List.flatten_append,
    List.getLast?_concat, List.flatten_cons, List.flatten_nil, List.append_nil]
  cases more with
  | cons message more =>
    -- the last record starts with another message and is longer than the Finished
    have kinds : ∃ kind body, message = handshakeMessage kind body ∧ kind ≠ hsFinished := by
      have member : message ∈ [flight.extensions, flight.certificate, flight.certVerify] := by
        rw [← parts.1]
        simp
      obtain ⟨first, firstShape⟩ := valid.extensions
      obtain ⟨second, secondShape⟩ := valid.certificate
      obtain ⟨third, thirdShape⟩ := valid.certVerify
      simp only [List.mem_cons, List.not_mem_nil, or_false] at member
      rcases member with same | same | same
      · exact ⟨_, first, same.trans firstShape, by decide⟩
      · exact ⟨_, second, same.trans secondShape, by decide⟩
      · exact ⟨_, third, same.trans thirdShape, by decide⟩
    obtain ⟨kind, body, shape, other⟩ := kinds
    have long := handshakeMessage_header kind body []
    constructor
    · intro pass
      have finished := pass.last
      rw [List.flatten_cons, shape, List.append_assoc, messageType_handshakeMessage] at finished
      exact absurd finished other
    · intro alone
      have lengths := congrArg List.length (Option.some.inj alone)
      rw [List.flatten_cons, shape] at lengths
      simp only [List.length_append, List.length_nil] at lengths long
      omega
  | nil =>
    apply iff_of_true _ rfl
    rw [List.append_nil] at parts
    obtain ⟨cert, taken, verifies⟩ := valid.signed
    have front : ∀ group ∈ init, group ≠ [] := fun group member => filled group (by simp [member])
    have closes {transcript : List Bytes} {certs : CertState Cert}
        (hashed : transcript.flatten = (started.state.transcript ++
          [flight.extensions, flight.certificate, flight.certVerify]).flatten) :
        PassAsMessages crypto platform started.serverSecret transcript certs
          [[].flatten ++ flight.finished] :=
      .inl ⟨rfl, valid.closes_finished hashed⟩
    rcases groups_three front parts.1 with shape | shape | shape | shape
    · have extensions := valid.letsPass_extensions started.state.transcript started.state.certs []
      have certificate := valid.letsPass_certificate taken
        (started.state.transcript ++ [flight.extensions]) started.state.certs []
      have certVerify := valid.letsPass_certVerify verifies
        (started.state.transcript ++ [flight.extensions] ++ [flight.certificate])
        (.inr ⟨rfl, by simp⟩)
      rw [List.append_nil] at extensions certificate
      rw [shape]
      simp only [List.map_cons, List.map_nil, List.flatten_cons, List.flatten_nil, List.append_nil,
        List.cons_append, List.nil_append]
      refine .inr ⟨extensions.1, .inr ⟨?_, .inr ⟨?_, ?_⟩⟩⟩
      · rw [extensions.2]
        exact certificate.1
      · rw [extensions.2, certificate.2]
        exact certVerify.1
      · exact closes (by simp)
    · have extensions := valid.letsPass_extensions started.state.transcript started.state.certs
        flight.certificate
      have certVerify := valid.letsPass_certVerify verifies
        (started.state.transcript ++ [flight.extensions ++ flight.certificate])
        (.inl fresh)
      rw [shape]
      simp only [List.map_cons, List.map_nil, List.flatten_cons, List.flatten_nil, List.append_nil,
        List.cons_append, List.nil_append]
      refine .inr ⟨extensions.1, .inr ⟨?_, ?_⟩⟩
      · rw [extensions.2]
        exact certVerify.1
      · exact closes (by simp)
    · have extensions := valid.letsPass_extensions started.state.transcript started.state.certs []
      have certificate := valid.letsPass_certificate taken
        (started.state.transcript ++ [flight.extensions]) started.state.certs flight.certVerify
      rw [List.append_nil] at extensions
      rw [shape]
      simp only [List.map_cons, List.map_nil, List.flatten_cons, List.flatten_nil, List.append_nil,
        List.cons_append, List.nil_append]
      refine .inr ⟨extensions.1, .inr ⟨?_, ?_⟩⟩
      · rw [extensions.2]
        exact certificate.1
      · exact closes (by simp)
    · have extensions := valid.letsPass_extensions started.state.transcript started.state.certs
        (flight.certificate ++ flight.certVerify)
      rw [shape]
      simp only [List.map_cons, List.map_nil, List.flatten_cons, List.flatten_nil, List.append_nil,
        List.cons_append, List.nil_append]
      exact .inr ⟨extensions.1, closes (by simp)⟩

/-! ## All packings -/

/-- A handshake that is started has no certificate yet. -/
theorem startHandshake_fresh {noCert : Cert} {hostname input : Bytes} {started : Started Cert}
    (start : startHandshake crypto platform noCert hostname input = .done (some started)) :
    started.state.certs.haveCert = false := by
  obtain ⟨_, _, _, _, _, _, _, _, _, _, _, _, rfl⟩ := startHandshake_shape crypto start
  rfl

/-- A valid flight completes the handshake exactly in the packings whose records pass as messages,
one by one; where no message is split, exactly when the Finished has a record of its own. -/
theorem packing_completes_iff (seals : crypto.Seals) {noCert : Cert} {hostname input : Bytes}
    {started : Started Cert} {flight : Flight}
    (start : startHandshake crypto platform noCert hostname input = .done (some started))
    (valid : flight.Valid crypto platform started) (fragments : List Fragment) (rest : Bytes)
    (packs : contents fragments = flight.messages.flatten) :
    (Completes crypto platform started flight fragments rest ↔
      PassAsMessages crypto platform started.serverSecret started.state.transcript
        started.state.certs (fragments.map (·.content))) ∧
    (WholeMessages flight fragments →
      (Completes crypto platform started flight fragments rest ↔
        FinishedAlone flight fragments)) := by
  have pass : Completes crypto platform started flight fragments rest ↔ _ :=
    completes_iff_pass seals rest packs
  apply And.intro pass
  intro whole
  exact pass.trans (pass_iff_finishedAlone valid (startHandshake_fresh start) whole)

/-! ## A server with a certificate -/

/-- The primitives that accept signatures seal. -/
theorem signing_seals : signing.Seals := ⟨fun _ _ _ _ _ => rfl, fun _ _ _ _ _ => rfl,
  fun _ _ _ _ _ => rfl⟩

/-- A client whose trust store trusts every leaf. -/
def trusting : Platform :=
  { wary (List.replicate 32 0) (List.replicate 32 0) with caStore := some fun _ _ => some true }

/-- The trust store plays no part in the start. -/
theorem startHandshake_caStore (crypto : Crypto Cert RsaKey) (platform : Platform)
    (caStore : Option (Int → Bytes → Option Bool)) (noCert : Cert) (hostname input : Bytes) :
    startHandshake crypto { platform with caStore } noCert hostname input =
      startHandshake crypto platform noCert hostname input := rfl

/-- The handshake starts with it. -/
theorem trusting_starts : ∃ hello,
    startHandshake signing trusting () []
      (tlsSendRecord signing 0 ⟨[], [], 0⟩ tlsHandshake (serverHello (List.replicate 32 0))
        false).1 = .done (some (startedFrom signing tlsAes128GcmSha256 (List.replicate 32 0) hello
          (serverHello (List.replicate 32 0)) [] ())) := by
  obtain ⟨hello, built⟩ : ∃ hello, buildClientHello [] (List.replicate 32 0)
      (List.replicate 32 0) (List.replicate 32 0) = .done hello := by
    rw [buildClientHello, if_neg]
    · exact ⟨_, rfl⟩
    · simp [clientExtensions, extension, putU16]
  have agreed : signing.x25519 (List.replicate 32 0) (List.replicate 32 0) =
      some (List.replicate 32 0) := rfl
  have start := startHandshake_bare (List.length_replicate) agreed built () []
  rw [List.append_nil] at start
  exact ⟨hello, (startHandshake_caStore signing _ _ () [] _).trans start⟩

/-- A flight with a signature, for primitives that accept it. -/
def signedFlight : Flight where
  extensions := handshakeMessage hsEncExtensions [0, 0]
  certificate := handshakeMessage hsCertificate [0, 0, 0, 6, 0, 0, 1, 7, 0, 0]
  certVerify := handshakeMessage hsCertVerify ([8, 7, 0, 64] ++ List.replicate 64 0)
  finished := handshakeMessage hsFinished (List.replicate 32 0)

/-- Its certificate is taken. -/
theorem signedFlight_taken (index : Nat) (beyond : Nat → UInt8) (certs : CertState Unit) :
    processCertificate signing trusting index ⟨signedFlight.certificate, beyond⟩ certs =
      some ⟨(), true⟩ := by
  have leaf : findLeaf ⟨signedFlight.certificate, beyond⟩ = some (11, 1) := by
    simp [findLeaf, Region.getU24, Region.getU16, Region.get, signedFlight, handshakeMessage,
      putU24, putU16, hsCertificate]
  rw [processCertificate, leaf]
  rfl

/-- Its signature is accepted, whatever is signed. -/
theorem signedFlight_verifies (beyond : Nat → UInt8) (hash : Bytes) :
    verifyLengths ⟨signedFlight.certVerify, beyond⟩ = true ∧
      verifySignature signing trusting () ⟨signedFlight.certVerify, beyond⟩ hash = .done true := by
  have lengths : Region.getU24 ⟨signedFlight.certVerify, beyond⟩ 1 = 68 ∧
      Region.getU16 ⟨signedFlight.certVerify, beyond⟩ 6 = 64 := by
    simp [Region.getU24, Region.getU16, Region.get, signedFlight, handshakeMessage, putU24, putU16]
  have scheme : Region.getU16 ⟨signedFlight.certVerify, beyond⟩ 4 = 0x0807 := by
    simp [Region.getU16, Region.get, signedFlight, handshakeMessage, putU24, putU16]
  have length : signedFlight.certVerify.length = 72 := rfl
  constructor
  · rw [verifyLengths, lengths.1, lengths.2, length]
    rfl
  · rw [verifySignature, scheme, if_neg (by decide), if_neg (by decide), if_pos rfl]
    rfl

/-- It is valid behind every pair of hello messages. -/
theorem signedFlight_valid (hello : Bytes) :
    signedFlight.Valid signing trusting (startedFrom signing tlsAes128GcmSha256
      (List.replicate 32 0) hello (serverHello (List.replicate 32 0)) [] ()) where
  extensions := ⟨_, rfl⟩
  certificate := ⟨_, rfl⟩
  certVerify := ⟨_, rfl⟩
  signed := ⟨(), signedFlight_taken, fun beyond => signedFlight_verifies beyond _⟩
  finished := rfl
  finishedLength _ _ := rfl

/-- A record without padding around one of its pieces. -/
def plainFragment (content : Bytes) (nonempty : content ≠ []) (fits : content.length ≤ tlsRecordMax) :
    Fragment := ⟨content, 0, nonempty, fits⟩

/-- Every message in a record of its own. -/
def separateRecords : List Fragment :=
  [plainFragment signedFlight.extensions (by decide) (by decide),
    plainFragment signedFlight.certificate (by decide) (by decide),
    plainFragment signedFlight.certVerify (by decide) (by decide),
    plainFragment signedFlight.finished (by decide) (by decide)]

/-- The CertificateVerify and the Finished in one record. -/
def coalescedRecords : List Fragment :=
  [plainFragment signedFlight.extensions (by decide) (by decide),
    plainFragment signedFlight.certificate (by decide) (by decide),
    plainFragment (signedFlight.certVerify ++ signedFlight.finished) (by decide) (by decide)]

/-- One record a message completes the handshake. -/
theorem packing_completes_separate : ∃ hello,
    Completes signing trusting (startedFrom signing tlsAes128GcmSha256 (List.replicate 32 0) hello
      (serverHello (List.replicate 32 0)) [] ()) signedFlight separateRecords [] := by
  obtain ⟨hello, start⟩ := trusting_starts
  have whole : WholeMessages signedFlight separateRecords :=
    ⟨signedFlight.messages.map fun message => [message], rfl, rfl⟩
  exact ⟨hello, ((packing_completes_iff signing_seals start (signedFlight_valid hello)
    separateRecords [] rfl).2 whole).mpr rfl⟩

/-- Two messages in one record fail the handshake that one record a message completes. -/
theorem coalesced_fails : ∃ started,
    startHandshake signing trusting () []
        (tlsSendRecord signing 0 ⟨[], [], 0⟩ tlsHandshake (serverHello (List.replicate 32 0))
          false).1 = .done (some started) ∧
      signedFlight.Valid signing trusting started ∧
      contents separateRecords = signedFlight.messages.flatten ∧
      contents coalescedRecords = signedFlight.messages.flatten ∧
      Completes signing trusting started signedFlight separateRecords [] ∧
      ¬ Completes signing trusting started signedFlight coalescedRecords [] := by
  obtain ⟨hello, start⟩ := trusting_starts
  have valid := signedFlight_valid hello
  have apart : contents separateRecords = signedFlight.messages.flatten := by decide
  have joined : contents coalescedRecords = signedFlight.messages.flatten := by decide
  refine ⟨_, start, valid, apart, joined, ?_, ?_⟩
  · have whole : WholeMessages signedFlight separateRecords :=
      ⟨signedFlight.messages.map fun message => [message], rfl, rfl⟩
    apply (completes_iff_pass signing_seals [] apart).mpr
    exact (pass_iff_finishedAlone valid rfl whole).mpr rfl
  · intro completes
    have pass := (completes_iff_pass signing_seals [] joined).mp completes
    have records : coalescedRecords.map (·.content) =
        [signedFlight.extensions, signedFlight.certificate] ++
          [signedFlight.certVerify ++ signedFlight.finished] := rfl
    rw [records] at pass
    exact absurd pass.last (by decide)

end Cookbook.Tls
