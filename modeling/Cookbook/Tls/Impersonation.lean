import Cookbook.Tls.Authentication

/-!
# A peer that presents nothing

A peer without any certificate answers the ClientHello with a key share of its own and sends one
encrypted record with a Finished message. Whatever the primitives are, as long as decryption undoes
encryption and the two sides agree on a shared secret, the client connects.
-/
namespace Cookbook.Tls

open Library.Text Library.Loop

variable {Cert RsaKey : Type} {crypto : Crypto Cert RsaKey}

/-! ## Working primitives -/

/-- Two key pairs that agree on a shared secret, and a suite that seals. -/
structure Crypto.Correct (crypto : Crypto Cert RsaKey) : Prop extends crypto.Seals where
  /-- The MAC has 32 bytes. -/
  hmacLength : ∀ key data, (crypto.hmac key data).length = 32
  /-- The client's and the server's key pair agree. -/
  agrees : ∃ clientPriv clientPub serverPriv serverPub shared,
    clientPub.length = 32 ∧ serverPub.length = 32 ∧
      crypto.x25519 clientPriv serverPub = some shared ∧
      crypto.x25519 serverPriv clientPub = some shared

/-! ## What the peer sends -/

/-- The server's handshake secret for a transcript of hello messages. -/
def serverTrafficSecret (crypto : Crypto Cert RsaKey) (shared : Bytes) (hellos : List Bytes) :
    Bytes :=
  tls13DeriveSecret crypto (handshakeSecret crypto shared) "s hs traffic"
    (transcriptHash crypto hellos) hkdfHashLen

/-- The Finished message behind a transcript. -/
def bareFinished (crypto : Crypto Cert RsaKey) (serverSecret : Bytes) (transcript : List Bytes) :
    Bytes :=
  [20, 0, 0, 32] ++ finishedData crypto serverSecret (transcriptHash crypto transcript)

/-- The ServerHello in the clear and one encrypted record with the Finished. -/
def bareFlight (crypto : Crypto Cert RsaKey) (share shared hello : Bytes) : Bytes :=
  let hellos := [hello, serverHello share]
  let secret := serverTrafficSecret crypto shared hellos
  (tlsSendRecord crypto 0 ⟨[], [], 0⟩ tlsHandshake (serverHello share) false).1 ++
    (tlsSendRecord crypto tlsAes128GcmSha256 (trafficKeys crypto tlsAes128GcmSha256 secret)
      tlsHandshake (bareFinished crypto secret hellos) true).1

/-- A client with a key pair, a trust store that trusts nobody, and a socket that sends. -/
def wary (ephPriv ephPub : Bytes) : Platform where
  caStore := some fun _ _ => some false
  now _ := 0
  beyond _ _ := 0
  stale := ([], [])
  helloSent := true
  finishedSent := true
  ephemeral := some (ephPriv, ephPub)
  random32 := List.replicate 32 0
  sessionId := List.replicate 32 0

/-! ## The client connects -/

/-- Consecutive bytes inside a buffer. -/
theorem slice_inside {region : Region} {offset length : Nat}
    (inside : offset + length ≤ region.bytes.length) :
    region.slice offset length = (region.bytes.drop offset).take length := by
  apply List.ext_getElem
  · simp [Region.slice]
    omega
  · intro index small _
    simp only [Region.slice, List.length_map, List.length_range] at small
    simp [Region.slice, Region.get, List.getD, show offset + index < region.bytes.length by omega]

/-- A byte in front of the rest of a buffer. -/
theorem get_front {front : Bytes} {index : Nat} (inside : index < front.length) (back : Bytes)
    (beyond : Nat → UInt8) : Region.get ⟨front ++ back, beyond⟩ index = front.getD index 0 := by
  simp [Region.get, List.getD, List.getElem?_append_left inside, List.getElem?_eq_getElem inside]

/-- The client reads the suite and the share. -/
theorem readServerHello_bare {share : Bytes} (full : share.length = 32) (beyond : Nat → UInt8) :
    readServerHello ⟨serverHello share, beyond⟩ = some (tlsAes128GcmSha256, share) := by
  have front : serverHelloFront.length = 48 := rfl
  have length : (serverHello share).length = 84 := by
    rw [serverHello, List.length_append, List.length_append, front, full]
    rfl
  have bodyLength : Region.getU24 ⟨serverHello share, beyond⟩ 1 = 80 := by
    simp only [Region.getU24, Region.getU16, serverHello]
    rw [get_front (by decide), get_front (by decide), get_front (by decide)]
    rfl
  have first : Region.get ⟨serverHello share, beyond⟩ 0 = 2 := get_front (by decide) _ _
  have read (index : Nat) (inside : index < 48) :
      Region.get ⟨serverHelloFront ++ share, beyond⟩ index = serverHelloFront.getD index 0 :=
    get_front inside _ _
  have number (index : Nat) (inside : index + 1 < 48) :
      Region.getU16 ⟨serverHelloFront ++ share, beyond⟩ index =
        (serverHelloFront.getD index 0).toNat * 256 + (serverHelloFront.getD (index + 1) 0).toNat := by
    rw [Region.getU16, read index (by omega), read (index + 1) inside]
  have session : (Region.get ⟨serverHelloFront ++ share, beyond⟩ 34).toNat = 0 :=
    congrArg UInt8.toNat (read 34 (by decide))
  have suite : Region.getU16 ⟨serverHelloFront ++ share, beyond⟩ 35 = tlsAes128GcmSha256 :=
    number 35 (by decide)
  have extensions : Region.getU16 ⟨serverHelloFront ++ share, beyond⟩ 38 = 40 := number 38 (by decide)
  have extType : Region.getU16 ⟨serverHelloFront ++ share, beyond⟩ 40 = 0x0033 :=
    number 40 (by decide)
  have extLength : Region.getU16 ⟨serverHelloFront ++ share, beyond⟩ 42 = 36 := number 42 (by decide)
  have group : Region.getU16 ⟨serverHelloFront ++ share, beyond⟩ 44 = 0x001D := number 44 (by decide)
  have keyLength : Region.getU16 ⟨serverHelloFront ++ share, beyond⟩ 46 = 32 := number 46 (by decide)
  have shareAt : Region.slice ⟨serverHelloFront ++ share, beyond⟩ 48 32 = share := by
    rw [slice_inside (by rw [List.length_append, front, full]), List.drop_left' front]
    exact List.take_of_length_le full.le
  have body : (serverHello share).drop 4 = serverHelloFront ++ share := rfl
  simp [readServerHello, findKeyShare, bodyLength, first, length, body, session, suite, extensions,
    extType, extLength, group, keyLength, shareAt]

/-- The handshake a client starts with the peer's share. -/
def bareStart (crypto : Crypto Cert RsaKey) (share shared hello rest : Bytes) (noCert : Cert) :
    Started Cert :=
  let hellos := [hello, serverHello share]
  { suite := tlsAes128GcmSha256
    hsSecret := handshakeSecret crypto shared
    clientSecret := tls13DeriveSecret crypto (handshakeSecret crypto shared) "c hs traffic"
      (transcriptHash crypto hellos) hkdfHashLen
    serverSecret := serverTrafficSecret crypto shared hellos
    state := ⟨rest, trafficKeys crypto tlsAes128GcmSha256 (serverTrafficSecret crypto shared hellos),
      hellos, ⟨noCert, false⟩⟩ }

/-- The client starts a handshake with the peer's share. -/
theorem startHandshake_bare {ephPriv ephPub share shared hello : Bytes}
    (full : share.length = 32) (agreed : crypto.x25519 ephPriv share = some shared)
    (built : buildClientHello [] ephPub (List.replicate 32 0) (List.replicate 32 0) = .done hello)
    (noCert : Cert) (rest : Bytes) :
    startHandshake crypto (wary ephPriv ephPub) noCert []
      ((tlsSendRecord crypto 0 ⟨[], [], 0⟩ tlsHandshake (serverHello share) false).1 ++ rest) =
        .done (some (bareStart crypto share shared hello rest noCert)) := by
  have fits : (serverHello share).length ≤ tlsRecordMax + 256 := by
    simp [serverHello, serverHelloFront, full, tlsRecordMax]
  simp only [startHandshake, wary, built, Outcome.bind_done, tlsRecvRecord_clear _ _ _ _ fits,
    Platform.message, readServerHello_bare full, agreed]
  rfl

/-- A Finished has 36 bytes. -/
theorem bareFinished_length (correct : crypto.Correct) (serverSecret : Bytes)
    (transcript : List Bytes) : (bareFinished crypto serverSecret transcript).length = 36 := by
  rw [bareFinished, List.length_append, finishedData, correct.hmacLength]
  rfl

/-- A Finished for the transcript so far is accepted, whether or not there is a certificate. -/
theorem processMessage_finished (correct : crypto.Correct) (platform : Platform)
    (serverSecret : Bytes) (state : Handshake Cert) :
    processMessage crypto platform serverSecret state
      (bareFinished crypto serverSecret state.transcript) =
        .stop (.done (some { state with
          transcript := state.transcript ++ [bareFinished crypto serverSecret state.transcript] })) := by
  generalize sent : bareFinished crypto serverSecret state.transcript = finished
  have length : finished.length = 36 := by rw [← sent, bareFinished_length correct]
  have finishedType : messageType finished = hsFinished := by rw [← sent]; rfl
  have number : Region.getU24 (platform.message state.transcript.length finished) 1 = 32 := by
    simp only [Region.getU24, Region.getU16, Platform.message, ← sent, bareFinished]
    rw [get_front (by decide), get_front (by decide), get_front (by decide)]
    rfl
  have slice : Region.slice (platform.message state.transcript.length finished) 4 32 =
      finishedData crypto serverSecret (transcriptHash crypto state.transcript) := by
    rw [slice_inside (by rw [Platform.message, length]), Platform.message, ← sent]
    exact List.take_of_length_le (correct.hmacLength _ _).le
  simp only [processMessage, finishedType, finishedMatches, number, slice]
  simp [hsFinished, hsCertificate, hsCertVerify]

/-- One encrypted record with that Finished is the whole handshake. -/
theorem receiveHandshake_finished (correct : crypto.Correct) (platform : Platform) (suite : Nat)
    (serverSecret : Bytes) (state : Handshake Cert)
    (sent : state.input = (tlsSendRecord crypto suite state.recv tlsHandshake
      (bareFinished crypto serverSecret state.transcript) true).1) :
    ∃ final, receiveHandshake crypto platform suite serverSecret state = .done (some final) ∧
      final.transcript = state.transcript ++ [bareFinished crypto serverSecret state.transcript] := by
  have length := bareFinished_length correct serverSecret state.transcript
  have received := tlsRecvRecord_sealed correct.toSeals suite state.recv
    tlsHandshake (by decide) (by rw [length]; decide) []
  rw [List.append_nil, ← sent] at received
  have round : receiveRound crypto platform suite serverSecret state =
      .stop (.done (some ⟨[], { state.recv with seq := state.recv.seq + 1 },
        state.transcript ++ [bareFinished crypto serverSecret state.transcript], state.certs⟩)) := by
    simp only [receiveRound, received, length]
    rw [if_neg (by decide), if_neg (by decide)]
    exact processMessage_finished correct platform serverSecret { state with input := [], recv := _ }
  refine ⟨⟨[], { state.recv with seq := state.recv.seq + 1 },
    state.transcript ++ [bareFinished crypto serverSecret state.transcript], state.certs⟩, ?_, rfl⟩
  rw [receiveHandshake, loop_succ, round]

/-- An authenticated transcript has a Certificate message. -/
theorem Authenticated.certificate {platform : Platform} {messages : List Bytes}
    (authenticated : Authenticated crypto platform messages) :
    ∃ msg ∈ messages, messageType msg = hsCertificate := by
  obtain ⟨before, certificate, certVerify, after, cert, rfl, takes, -⟩ := authenticated
  exact ⟨certificate, by simp, takes.certificate⟩

/-- A client whose own Finished is sent connects when it accepts the peer's. -/
theorem cookbookTlsConnect_connects {platform : Platform} {noCert : Cert} {hostname input : Bytes}
    {started : Started Cert} {final : Handshake Cert}
    (start : startHandshake crypto platform noCert hostname input = .done (some started))
    (receive : receiveHandshake crypto platform started.suite started.serverSecret started.state =
      .done (some final)) (sent : platform.finishedSent = true) :
    ∃ conn finMsg, cookbookTlsConnect crypto platform noCert hostname input = .done (some conn) ∧
      messageType finMsg = hsFinished ∧ conn.transcript = final.transcript ++ [finMsg] := by
  simp only [cookbookTlsConnect, start, Outcome.bind_done, receive, Option.bind_some,
    finishHandshake, sent]
  exact ⟨_, _, rfl, rfl, rfl⟩

/-- The client connects to the peer, whatever the working primitives are. -/
theorem bareFlight_connects (correct : crypto.Correct) {ephPriv ephPub share shared hello : Bytes}
    (full : share.length = 32) (agreed : crypto.x25519 ephPriv share = some shared)
    (built : buildClientHello [] ephPub (List.replicate 32 0) (List.replicate 32 0) = .done hello)
    (noCert : Cert) :
    ∃ conn fin finMsg, cookbookTlsConnect crypto (wary ephPriv ephPub) noCert []
        (bareFlight crypto share shared hello) = .done (some conn) ∧
      conn.transcript = [hello, serverHello share, fin, finMsg] ∧
      messageType fin = hsFinished ∧ messageType finMsg = hsFinished := by
  generalize secret : serverTrafficSecret crypto shared [hello, serverHello share] = serverSecret
  generalize sent : (tlsSendRecord crypto tlsAes128GcmSha256
    (trafficKeys crypto tlsAes128GcmSha256 serverSecret) tlsHandshake
    (bareFinished crypto serverSecret [hello, serverHello share]) true).1 = record
  have start := startHandshake_bare full agreed built noCert record
  obtain ⟨final, accepted, shape⟩ := receiveHandshake_finished correct (wary ephPriv ephPub)
    tlsAes128GcmSha256 serverSecret (bareStart crypto share shared hello record noCert).state
    (by simp only [bareStart, secret, sent])
  obtain ⟨conn, finMsg, connected, finType, transcript⟩ :=
    cookbookTlsConnect_connects start (by rw [← accepted, ← secret]; rfl) rfl
  have whole : bareFlight crypto share shared hello =
      (tlsSendRecord crypto 0 ⟨[], [], 0⟩ tlsHandshake (serverHello share) false).1 ++ record := by
    simp only [bareFlight, secret, sent]
  refine ⟨conn, bareFinished crypto serverSecret [hello, serverHello share], finMsg,
    whole ▸ connected, ?_, rfl, finType⟩
  rw [transcript, shape]
  rfl

/-- Every connection to a peer is authenticated. -/
def Secure (crypto : Crypto Cert RsaKey) (platform : Platform) (noCert : Cert)
    (hostname input : Bytes) : Prop :=
  ∀ conn, cookbookTlsConnect crypto platform noCert hostname input = .done (some conn) →
    Authenticated crypto platform conn.transcript

/-- The client does not notice that the peer has no certificate. -/
theorem bareFlight_insecure (correct : crypto.Correct) {ephPriv ephPub share shared hello : Bytes}
    (full : share.length = 32) (agreed : crypto.x25519 ephPriv share = some shared)
    (built : buildClientHello [] ephPub (List.replicate 32 0) (List.replicate 32 0) = .done hello)
    (noCert : Cert) :
    ¬ Secure crypto (wary ephPriv ephPub) noCert [] (bareFlight crypto share shared hello) := by
  intro secure
  obtain ⟨conn, fin, finMsg, connected, transcript, serverType, clientType⟩ :=
    bareFlight_connects correct full agreed built noCert
  obtain ⟨msg, member, certificate⟩ := (secure conn connected).certificate
  rw [transcript] at member
  have helloType := buildClientHello_type built
  simp only [List.mem_cons, List.not_mem_nil, or_false] at member
  rcases member with rfl | rfl | rfl | rfl
  · exact absurd (helloType.symm.trans certificate) (by decide)
  · exact absurd certificate (by decide : (2 : UInt8) ≠ 11)
  · exact absurd (serverType.symm.trans certificate) (by decide)
  · exact absurd (clientType.symm.trans certificate) (by decide)

/-! ## Primitives that work -/

/-- The primitives without secrecy work. -/
theorem loopback_correct : loopback.Correct where
  toSeals := loopback_seals
  hmacLength _ _ := rfl
  agrees := ⟨List.replicate 32 0, List.replicate 32 0, List.replicate 32 0, List.replicate 32 0,
    List.replicate 32 0, rfl, rfl, rfl, rfl⟩

/-- No working primitives make the client secure: a ServerHello and one record with a Finished are
enough for a connection. -/
theorem no_primitives_secure :
    (∃ crypto : Crypto Unit Unit, crypto.Correct) ∧
      ¬ ∃ (Cert RsaKey : Type) (noCert : Cert) (crypto : Crypto Cert RsaKey), crypto.Correct ∧
        ∀ platform hostname input, Secure crypto platform noCert hostname input := by
  refine ⟨⟨loopback, loopback_correct⟩, ?_⟩
  rintro ⟨Cert, RsaKey, noCert, crypto, correct, secure⟩
  obtain ⟨ephPriv, ephPub, _, share, shared, fullPub, full, agreed, -⟩ := correct.agrees
  have built : ∃ hello, buildClientHello [] ephPub (List.replicate 32 0) (List.replicate 32 0) =
      .done hello := by
    rw [buildClientHello, if_neg]
    · exact ⟨_, rfl⟩
    · simp [clientExtensions, extension, putU16, fullPub]
  obtain ⟨hello, built⟩ := built
  exact bareFlight_insecure correct full agreed built noCert (secure _ _ _)

end Cookbook.Tls
