import Cookbook.Library.Loop
import Cookbook.Tls.Record

/-!
# The TLS handshake of the client

`cookbook_tls_connect` sends a ClientHello, reads the ServerHello, derives the handshake keys and then
reads encrypted handshake messages until it accepts a Finished message. The messages read so far are
kept as the transcript; a message that is malformed is left without an effect on the certificate
state.
-/
namespace Cookbook.Tls

open Library.Text Library.Loop

/-! ## Key schedule -/

variable {Cert RsaKey : Type} (crypto : Crypto Cert RsaKey)

/-- `HKDF_HASH_LEN` -/
def hkdfHashLen : Nat := 32

/-- `tls13_derive_secret` -/
def tls13DeriveSecret (secret : Bytes) (label : String) (hash : Bytes) (length : Nat) : Bytes :=
  let fullLabel := ascii "tls13 " ++ ascii label
  crypto.hkdfExpand secret
    (putU16 length ++ UInt8.ofNat fullLabel.length :: (fullLabel ++ UInt8.ofNat hash.length :: hash))
    length

/-- The keys of one direction from its traffic secret. -/
def trafficKeys (suite : Nat) (secret : Bytes) : Direction where
  key := tls13DeriveSecret crypto secret "key" []
    (if suite = tlsChacha20Poly1305Sha256 then 32 else 16)
  iv := tls13DeriveSecret crypto secret "iv" [] 12
  seq := 0

/-- The handshake secret of a shared secret. -/
def handshakeSecret (sharedSecret : Bytes) : Bytes :=
  let zeroKey := List.replicate hkdfHashLen 0
  let earlySecret := crypto.hkdfExtract zeroKey zeroKey
  crypto.hkdfExtract
    (tls13DeriveSecret crypto earlySecret "derived" (crypto.sha256 []) hkdfHashLen) sharedSecret

/-- The master secret behind a handshake secret. -/
def masterSecret (hsSecret : Bytes) : Bytes :=
  crypto.hkdfExtract (tls13DeriveSecret crypto hsSecret "derived" (crypto.sha256 []) hkdfHashLen)
    (List.replicate hkdfHashLen 0)

/-- The `verify_data` of a Finished message. -/
def finishedData (trafficSecret transcriptHash : Bytes) : Bytes :=
  crypto.hmac (tls13DeriveSecret crypto trafficSecret "finished" [] hkdfHashLen) transcriptHash

/-- The hash of the messages so far. -/
def transcriptHash (transcript : List Bytes) : Bytes := crypto.sha256 transcript.flatten

/-! ## Hello messages -/

/-- An extension: type, the length that is written, and data. -/
def extension (extType length : Nat) (data : Bytes) : Bytes :=
  putU16 extType ++ putU16 length ++ data

/-- The extensions of the ClientHello. The length of the key share's data is written as 36. -/
def clientExtensions (hostname keyShare : Bytes) : Bytes :=
  extension 0x002B 3 (2 :: putU16 0x0304) ++
  extension 0x000A 4 (putU16 2 ++ putU16 0x001D) ++
  extension 0x0033 36 (putU16 34 ++ putU16 0x001D ++ putU16 32 ++ keyShare) ++
  extension 0x000D 8 (putU16 6 ++ putU16 0x0804 ++ putU16 0x0403 ++ putU16 0x0807) ++
  if hostname = [] then []
  else
    extension 0x0000 (hostname.length + 5)
      (putU16 (hostname.length + 3) ++ 0 :: (putU16 hostname.length ++ hostname))

/-- `build_client_hello`: the body is put together in a buffer of 1024 bytes. -/
def buildClientHello (hostname keyShare random32 sessionId : Bytes) : Outcome Bytes :=
  let extensions := clientExtensions hostname keyShare
  let body := putU16 0x0303 ++ random32 ++ 32 :: sessionId ++ putU16 4 ++
    putU16 tlsAes128GcmSha256 ++ putU16 tlsChacha20Poly1305Sha256 ++ [1, 0] ++
    putU16 extensions.length ++ extensions
  if 1024 < body.length then .overrun else .done (1 :: (putU24 body.length ++ body))

/-- The loop over the extensions of the ServerHello at the offset `sp` of its body: the last
X25519 share that was found. -/
def findKeyShare (sh : Region) (shBodyLen extEnd : Nat) : Nat → Nat → Option Bytes → Option Bytes
  | 0, _, found => found
  | fuel + 1, sp, found =>
    if sp + 4 ≤ extEnd ∧ sp + 4 ≤ shBodyLen then
      let etype := sh.getU16 sp
      let elen := sh.getU16 (sp + 2)
      let sp := sp + 4
      let share :=
        if etype = 0x0033 ∧ 36 ≤ elen ∧ sh.getU16 sp = 0x001D ∧ sh.getU16 (sp + 2) = 32 then
          some (sh.slice (sp + 4) 32)
        else found
      findKeyShare sh shBodyLen extEnd fuel (sp + elen) share
    else found

/-- The cipher suite and the key share of a ServerHello record. -/
def readServerHello (record : Region) : Option (Nat × Bytes) :=
  if record.bytes.length < 4 ∨ record.get 0 ≠ 2 then none
  else
    let shBodyLen := record.getU24 1
    if record.bytes.length < shBodyLen + 4 then none
    else if shBodyLen ≤ 34 then none
    else
      let sh : Region := ⟨record.bytes.drop 4, record.beyond⟩
      let sp := 35 + (sh.get 34).toNat
      let suite := sh.getU16 sp
      if suite ≠ tlsAes128GcmSha256 ∧ suite ≠ tlsChacha20Poly1305Sha256 then none
      else
        let sp := sp + 3
        if sp + 2 ≤ shBodyLen then
          let extEnd := sp + 2 + sh.getU16 sp
          (findKeyShare sh shBodyLen extEnd shBodyLen (sp + 2) none).map fun share => (suite, share)
        else none

/-! ## Certificate and CertificateVerify -/

/-- What surrounds a handshake: the trust store, the clock and the memory behind each message. -/
structure Platform where
  /-- `g_ca_store` as `pki_store_verify` uses it on the leaf at a time: none when the store cannot be
  asked, otherwise whether the leaf is trusted. -/
  caStore : Option (Int → Bytes → Option Bool)
  /-- The time when the message with this number is processed. -/
  now : Nat → Int
  /-- The memory behind the message with this number. -/
  beyond : Nat → Nat → UInt8
  /-- What an unset number of an ECDSA signature holds. -/
  stale : Bytes × Bytes
  /-- The ClientHello is sent. -/
  helloSent : Bool
  /-- The client's Finished is sent. -/
  finishedSent : Bool
  /-- The ephemeral key pair, private and public, none when its generation fails. -/
  ephemeral : Option (Bytes × Bytes)
  /-- The random bytes of the ClientHello. -/
  random32 : Bytes
  /-- Its session identifier. -/
  sessionId : Bytes

/-- The message with a number, as a buffer in memory. -/
def Platform.message (platform : Platform) (index : Nat) (msg : Bytes) : Region :=
  ⟨msg, platform.beyond index⟩

/-- The offset and the length of the first certificate of a Certificate message, none where a length
check fails. -/
def findLeaf (msg : Region) : Option (Nat × Nat) :=
  let hsLen := msg.getU24 1
  if hsLen < 5 then none
  else
    let p := 5 + (msg.get 4).toNat
    if 4 + hsLen < p + 3 then none
    else if 4 + hsLen < p + 6 then none
    else
      let certLen := msg.getU24 (p + 3)
      if 4 + hsLen < p + 6 + certLen then none else some (p + 6, certLen)

/-- The certificate state of the handshake. -/
structure CertState (Cert : Type) where
  /-- `server_cert` -/
  serverCert : Cert
  /-- `have_cert` -/
  haveCert : Bool

/-- The trust store does not refuse the leaf. -/
def Platform.trusts (platform : Platform) (index : Nat) (leaf : Bytes) : Bool :=
  match platform.caStore with
  | none => true
  | some verify => verify (platform.now index) leaf != some false

/-- `HS_CERTIFICATE`: none where the handshake fails. -/
def processCertificate (platform : Platform) (index : Nat) (msg : Region)
    (state : CertState Cert) : Option (CertState Cert) :=
  match findLeaf msg with
  | none => some state
  | some (offset, length) =>
    let leaf := msg.slice offset length
    match crypto.x509Parse leaf with
    | none => some { state with serverCert := crypto.x509Residue leaf }
    | some cert =>
      if crypto.x509IsExpired cert (platform.now index) then none
      else if platform.trusts index leaf then some ⟨cert, true⟩
      else none

/-- A DER length at an offset, as the walk over a SubjectPublicKeyInfo skips it. -/
def skipDerLength (der : Region) (pos : Nat) : Nat :=
  if 0x80 ≤ (der.get pos).toNat then pos + 1 + ((der.get pos).toNat - 0x80) else pos + 1

/-- The offset behind the AlgorithmIdentifier. -/
def skipAlgorithm (der : Region) (pos : Nat) : Nat :=
  if der.get pos = 0x30 then
    if 0x80 ≤ (der.get (pos + 1)).toNat then skipDerLength der (pos + 1)
    else pos + 2 + (der.get (pos + 1)).toNat
  else pos

/-- A long DER length of `count` bytes. -/
def longLength (der : Region) (pos count : Nat) : Nat :=
  (List.range count).foldl (fun length index => (length * 256 + (der.get (pos + index)).toNat) % 18446744073709551616)
    0

/-- The offset and the length of the RSA key in a SubjectPublicKeyInfo. -/
def rsaKeyRange (spki : Region) : Nat × Nat :=
  let whole := (0, spki.bytes.length)
  if spki.get 0 = 0x30 ∧ 24 < spki.bytes.length then
    let pos := skipAlgorithm spki (skipDerLength spki 1)
    if pos < spki.bytes.length ∧ spki.get pos = 0x03 then
      let first := (spki.get (pos + 1)).toNat
      if 0x80 ≤ first then
        let count := first - 0x80
        (pos + 2 + count + 1, (longLength spki (pos + 2) count + 18446744073709551616 - 1) % 18446744073709551616)
      else (pos + 3, (first + 18446744073709551616 - 1) % 18446744073709551616)
    else whole
  else whole

/-- `rsa_pss_rsae_sha256` -/
def verifyRsa (spki : Region) (sig content : Bytes) : Bool :=
  if spki.bytes = [] then false
  else
    match crypto.rsaImport spki (rsaKeyRange spki).1 (rsaKeyRange spki).2 with
    | none => false
    | some key => crypto.rsaVerifyPss key sig content

/-- The first byte `0x04` of a SubjectPublicKeyInfo with room for a point behind it. -/
def findPoint (spki : Region) : Option Bytes :=
  ((List.range (spki.bytes.length - 64)).find? fun index => spki.get index == 0x04).map fun index =>
    spki.slice index 65

/-- The leading zeros of an integer that is longer than 32 bytes are skipped. -/
def skipZeros (sig : Region) : Nat → Nat → Nat × Nat
  | 0, pos => (pos, 0)
  | length + 1, pos =>
    if 32 < length + 1 ∧ sig.get pos = 0 then skipZeros sig length (pos + 1) else (pos, length + 1)

/-- One integer of an ECDSA signature at an offset: its 32 bytes and the offset behind it. An integer
that is still longer than 32 bytes is copied in front of its field. -/
def readInteger (sig : Region) (pos : Nat) (stale : Bytes) : Outcome (Bytes × Nat) :=
  if sig.get pos = 0x02 then
    let number := skipZeros sig (sig.get (pos + 1)).toNat (pos + 2)
    if 32 < number.2 then .overrun
    else .done (List.replicate (32 - number.2) 0 ++ sig.slice number.1 number.2, number.1 + number.2)
  else .done (stale, pos)

/-- `ecdsa_secp256r1_sha256` -/
def verifyEcdsa (platform : Platform) (spki sig : Region) (sigLen : Nat) (content : Bytes) :
    Outcome Bool :=
  if spki.bytes.length < 65 then .done false
  else
    match findPoint spki with
    | none => .done false
    | some point =>
      if 6 < sigLen ∧ sig.get 0 = 0x30 then
        let start := if 0x80 ≤ (sig.get 1).toNat then 2 + ((sig.get 1).toNat - 0x80) else 2
        (readInteger sig start platform.stale.1).bind fun r =>
        (readInteger sig r.2 platform.stale.2).bind fun s =>
          .done (crypto.ecdsaVerify point content r.1 s.1)
      else .done false

/-- `ed25519`: the last 32 bytes are taken for the key. -/
def verifyEd25519 (spki sig : Region) (content : Bytes) : Bool :=
  if spki.bytes.length < 32 then false
  else
    crypto.ed25519Verify (sig.slice 0 64) content (spki.slice (spki.bytes.length - 32) 32)

/-- What a server signs: 64 spaces, the context string, a zero and the transcript hash. -/
def verifyContent (hash : Bytes) : Bytes :=
  List.replicate 64 0x20 ++ ascii "TLS 1.3, server CertificateVerify" ++ 0 :: hash

/-- The length checks on a CertificateVerify message. -/
def verifyLengths (msg : Region) : Bool :=
  decide (4 ≤ msg.getU24 1) && decide (msg.getU16 6 + 8 ≤ msg.bytes.length)

/-- The signature of a CertificateVerify message under the public key of a certificate, over a
transcript hash. -/
def verifySignature (platform : Platform) (cert : Cert) (msg : Region) (hash : Bytes) :
    Outcome Bool :=
  let sigScheme := msg.getU16 4
  let sigLen := msg.getU16 6
  let sig : Region := ⟨msg.bytes.drop 8, msg.beyond⟩
  let content := verifyContent hash
  let spki := crypto.x509Pubkey cert
  if sigScheme = 0x0804 then .done (verifyRsa crypto spki (sig.slice 0 sigLen) content)
  else if sigScheme = 0x0403 then verifyEcdsa crypto platform spki sig sigLen content
  else if sigScheme = 0x0807 then .done (verifyEd25519 crypto spki sig content)
  else .done false

/-- `HS_CERT_VERIFY`: whether the handshake goes on. -/
def processCertVerify (platform : Platform) (msg : Region) (hash : Bytes) (state : CertState Cert) :
    Outcome Bool :=
  if state.haveCert = false ∨ verifyLengths msg = false then .done true
  else verifySignature crypto platform state.serverCert msg hash

/-- `HS_FINISHED`: the received data is the expected one. -/
def finishedMatches (msg : Region) (expected : Bytes) : Bool :=
  decide (msg.getU24 1 = 32) && (msg.slice 4 32 == expected)

/-! ## The loop -/

/-- The handshake between two messages. -/
structure Handshake (Cert : Type) where
  /-- What is still unread on the socket. -/
  input : Bytes
  /-- The receiving direction. -/
  recv : Direction
  /-- The handshake messages so far. -/
  transcript : List Bytes
  /-- The certificate state. -/
  certs : CertState Cert

/-- The type of a handshake message. -/
def messageType (msg : Bytes) : UInt8 := msg.getD 0 0

/-- `HS_CERTIFICATE` -/
def hsCertificate : UInt8 := 11
/-- `HS_CERT_VERIFY` -/
def hsCertVerify : UInt8 := 15
/-- `HS_FINISHED` -/
def hsFinished : UInt8 := 20

/-- A round's result: the loop ends with an accepted handshake, fails, or writes outside a buffer. -/
abbrev Round (Cert : Type) := Next (Handshake Cert) (Outcome (Option (Handshake Cert)))

/-- The handshake fails. -/
def failed : Round Cert := .stop (.done none)

/-- One handshake message: it joins the transcript and is processed by its type. -/
def processMessage (platform : Platform) (serverSecret : Bytes) (state : Handshake Cert)
    (msg : Bytes) : Round Cert :=
  let index := state.transcript.length
  let region := platform.message index msg
  let preHash := transcriptHash crypto state.transcript
  let state := { state with transcript := state.transcript ++ [msg] }
  if messageType msg = hsCertificate then
    match processCertificate crypto platform index region state.certs with
    | none => failed
    | some certs => .again { state with certs }
  else if messageType msg = hsCertVerify then
    match processCertVerify crypto platform region preHash state.certs with
    | .overrun => .stop .overrun
    | .done false => failed
    | .done true => .again state
  else if messageType msg = hsFinished then
    if finishedMatches region (finishedData crypto serverSecret preHash) then .stop (.done (some state))
    else failed
  else .again state

section Message

variable {crypto} {platform : Platform} {serverSecret : Bytes} {state : Handshake Cert} {msg : Bytes}

/-- A Certificate with a refused leaf ends the handshake. -/
theorem processMessage_refused (kind : messageType msg = hsCertificate)
    (refused : processCertificate crypto platform state.transcript.length
      (platform.message state.transcript.length msg) state.certs = none) :
    processMessage crypto platform serverSecret state msg = failed := by
  have kept : { state with transcript := state.transcript ++ [msg] }.certs = state.certs := rfl
  rw [processMessage, if_pos kind]
  rw [kept, refused]

/-- Every other Certificate leaves its certificate state. -/
theorem processMessage_taken (kind : messageType msg = hsCertificate) {certs : CertState Cert}
    (taken : processCertificate crypto platform state.transcript.length
      (platform.message state.transcript.length msg) state.certs = some certs) :
    processMessage crypto platform serverSecret state msg =
      .again { state with transcript := state.transcript ++ [msg], certs } := by
  have kept : { state with transcript := state.transcript ++ [msg] }.certs = state.certs := rfl
  rw [processMessage, if_pos kind]
  rw [kept, taken]

/-- A CertificateVerify is processed. -/
theorem processMessage_onCertVerify (kind : messageType msg = hsCertVerify) :
    processMessage crypto platform serverSecret state msg =
      match processCertVerify crypto platform (platform.message state.transcript.length msg)
        (transcriptHash crypto state.transcript) state.certs with
      | .overrun => .stop .overrun
      | .done false => failed
      | .done true => .again { state with transcript := state.transcript ++ [msg] } := by
  rw [processMessage, if_neg (by rw [kind]; decide), if_pos kind]

/-- A Finished is compared. -/
theorem processMessage_onFinished (kind : messageType msg = hsFinished) :
    processMessage crypto platform serverSecret state msg =
      if finishedMatches (platform.message state.transcript.length msg)
          (finishedData crypto serverSecret (transcriptHash crypto state.transcript)) then
        .stop (.done (some { state with transcript := state.transcript ++ [msg] }))
      else failed := by
  rw [processMessage, if_neg (by rw [kind]; decide), if_neg (by rw [kind]; decide), if_pos kind]

/-- Every other message joins the transcript alone. -/
theorem processMessage_onOther (noCertificate : messageType msg ≠ hsCertificate)
    (noCertVerify : messageType msg ≠ hsCertVerify) (unfinished : messageType msg ≠ hsFinished) :
    processMessage crypto platform serverSecret state msg =
      .again { state with transcript := state.transcript ++ [msg] } := by
  rw [processMessage, if_neg noCertificate, if_neg noCertVerify, if_neg unfinished]

end Message

/-- One round: a record is read, decrypted and handed on by its content type. A record that cannot be
decrypted may be followed by a change of cipher specification in the clear. -/
def receiveRound (platform : Platform) (suite : Nat) (serverSecret : Bytes)
    (state : Handshake Cert) : Round Cert :=
  let received := tlsRecvRecord crypto suite state.recv true state.input
  match received.record with
  | none =>
    let clear := tlsRecvRecord crypto suite received.recv false received.input
    match clear.record with
    | none => failed
    | some (mtype, _) =>
      if mtype = tlsChangeCipher then .again { state with input := clear.input, recv := clear.recv }
      else failed
  | some (mtype, msg) =>
    let state := { state with input := received.input, recv := received.recv }
    if mtype = tlsChangeCipher then .again state
    else if mtype ≠ tlsHandshake ∨ msg.length < 4 then
      if mtype = tlsAlert then failed else .again state
    else processMessage crypto platform serverSecret state msg

/-- Rounds until the handshake is accepted or fails. Every round reads from the socket, so that its
length bounds their number. -/
def receiveHandshake (platform : Platform) (suite : Nat) (serverSecret : Bytes)
    (state : Handshake Cert) : Outcome (Option (Handshake Cert)) :=
  loop (receiveRound crypto platform suite serverSecret) (.done none) (state.input.length + 1) state

/-- An open connection. -/
structure Connection where
  /-- The cipher suite. -/
  suite : Nat
  /-- The sending direction. -/
  send : Direction
  /-- The receiving direction. -/
  recv : Direction
  /-- The handshake messages, with the client's Finished at the end. -/
  transcript : List Bytes
  /-- What is still unread on the socket. -/
  input : Bytes

/-- The client's Finished and the application keys behind an accepted handshake. -/
def finishHandshake (platform : Platform) (suite : Nat) (hsSecret clientSecret : Bytes)
    (state : Handshake Cert) : Option Connection :=
  let finMsg := hsFinished :: (putU24 32 ++
    finishedData crypto clientSecret (transcriptHash crypto state.transcript))
  let transcript := state.transcript ++ [finMsg]
  if platform.finishedSent = false then none
  else
    let master := masterSecret crypto hsSecret
    let appHash := transcriptHash crypto transcript
    let appKeys (label : String) :=
      trafficKeys crypto suite (tls13DeriveSecret crypto master label appHash hkdfHashLen)
    some ⟨suite, appKeys "c ap traffic", appKeys "s ap traffic", transcript, state.input⟩

/-- The handshake behind the ServerHello, with the secrets it derived. -/
structure Started (Cert : Type) where
  /-- The cipher suite. -/
  suite : Nat
  /-- The handshake secret. -/
  hsSecret : Bytes
  /-- The client's handshake traffic secret. -/
  clientSecret : Bytes
  /-- The server's handshake traffic secret. -/
  serverSecret : Bytes
  /-- The state of the loop. -/
  state : Handshake Cert

/-- The hello messages and the handshake keys. -/
def startHandshake (platform : Platform) (noCert : Cert) (hostname input : Bytes) :
    Outcome (Option (Started Cert)) :=
  match platform.ephemeral with
  | none => .done none
  | some (ephPriv, ephPub) =>
    (buildClientHello hostname ephPub platform.random32 platform.sessionId).bind fun hello =>
    if platform.helloSent = false then .done none
    else
      let received := tlsRecvRecord crypto 0 ⟨[], [], 0⟩ false input
      match received.record with
      | none => .done none
      | some (recType, shRec) =>
        if recType ≠ tlsHandshake then .done none
        else
          match readServerHello (platform.message 1 shRec) with
          | none => .done none
          | some (suite, serverPub) =>
            match crypto.x25519 ephPriv serverPub with
            | none => .done none
            | some sharedSecret =>
              let hsSecret := handshakeSecret crypto sharedSecret
              let shHash := transcriptHash crypto [hello, shRec]
              let secret (label : String) :=
                tls13DeriveSecret crypto hsSecret label shHash hkdfHashLen
              .done (some
                { suite
                  hsSecret
                  clientSecret := secret "c hs traffic"
                  serverSecret := secret "s hs traffic"
                  state := ⟨received.input, trafficKeys crypto suite (secret "s hs traffic"),
                    [hello, shRec], ⟨noCert, false⟩⟩ })

/-- What two hello messages with a shared secret start. -/
def startedFrom (suite : Nat) (sharedSecret hello shRec rest : Bytes) (noCert : Cert) :
    Started Cert :=
  let hsSecret := handshakeSecret crypto sharedSecret
  let secret (label : String) := tls13DeriveSecret crypto hsSecret label
    (transcriptHash crypto [hello, shRec]) hkdfHashLen
  { suite
    hsSecret
    clientSecret := secret "c hs traffic"
    serverSecret := secret "s hs traffic"
    state := ⟨rest, trafficKeys crypto suite (secret "s hs traffic"), [hello, shRec],
      ⟨noCert, false⟩⟩ }

/-- A handshake that is started has a ServerHello with a share on which the peers agree. -/
theorem startHandshake_shape {platform : Platform} {noCert : Cert} {hostname input : Bytes}
    {started : Started Cert}
    (start : startHandshake crypto platform noCert hostname input = .done (some started)) :
    ∃ ephPriv ephPub hello shRec suite serverPub sharedSecret rest,
      platform.ephemeral = some (ephPriv, ephPub) ∧
      buildClientHello hostname ephPub platform.random32 platform.sessionId = .done hello ∧
      readServerHello (platform.message 1 shRec) = some (suite, serverPub) ∧
      crypto.x25519 ephPriv serverPub = some sharedSecret ∧
      started = startedFrom crypto suite sharedSecret hello shRec rest noCert := by
  simp only [startHandshake] at start
  split at start
  · cases start
  · rename_i ephPriv ephPub ephemeral
    rcases built : buildClientHello hostname ephPub platform.random32 platform.sessionId with hello | _
    · rw [built, Outcome.bind_done] at start
      split_ifs at start
      · cases start
      · split at start
        · cases start
        · split_ifs at start
          · cases start
          · split at start
            · cases start
            · rename_i suite serverPub read
              split at start
              · cases start
              · rename_i sharedSecret agreed
                cases start
                exact ⟨ephPriv, ephPub, hello, _, suite, serverPub, sharedSecret, _, ephemeral,
                  built, read, agreed, rfl⟩
    · rw [built] at start
      cases start

/-- `cookbook_tls_connect` to a peer that sends `input`. -/
def cookbookTlsConnect (platform : Platform) (noCert : Cert) (hostname input : Bytes) :
    Outcome (Option Connection) :=
  (startHandshake crypto platform noCert hostname input).bind fun
    | none => .done none
    | some started =>
      (receiveHandshake crypto platform started.suite started.serverSecret started.state).bind
        fun accepted => .done (accepted.bind
          (finishHandshake crypto platform started.suite started.hsSecret started.clientSecret))

end Cookbook.Tls
