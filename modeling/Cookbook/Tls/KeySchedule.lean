import Cookbook.Tls.Impersonation

/-!
# The keys of a connection

The key schedule of TLS 1.3 on its own, from the messages of a handshake, and the keys that the
client derives. They agree up to the server's Finished. The application keys are derived over a
transcript to which the client's own Finished was already added, so that they are the scheduled ones
only where the keys of two different transcripts collide.
-/
namespace Cookbook.Tls

open Library.Text Library.Loop

variable {Cert RsaKey : Type} (crypto : Crypto Cert RsaKey)

/-! ## The schedule -/

namespace Schedule

/-- A vector behind its length in one byte. -/
def shortVector (data : Bytes) : Bytes := UInt8.ofNat data.length :: data

/-- HKDF-Expand-Label -/
def expandLabel (secret : Bytes) (label : String) (context : Bytes) (length : Nat) : Bytes :=
  crypto.hkdfExpand secret
    (putU16 length ++ shortVector (ascii "tls13 " ++ ascii label) ++ shortVector context) length

/-- Derive-Secret -/
def deriveSecret (secret : Bytes) (label : String) (messages : List Bytes) : Bytes :=
  expandLabel crypto secret label (transcriptHash crypto messages) hkdfHashLen

/-- A string of zeros in the length of a hash. -/
def zeros : Bytes := List.replicate hkdfHashLen 0

/-- The Early Secret without a pre-shared key. -/
def earlySecret : Bytes := crypto.hkdfExtract zeros zeros

/-- The Handshake Secret of a shared secret. -/
def handshakeSecret (shared : Bytes) : Bytes :=
  crypto.hkdfExtract (deriveSecret crypto (earlySecret crypto) "derived" []) shared

/-- The Master Secret of a shared secret. -/
def masterSecret (shared : Bytes) : Bytes :=
  crypto.hkdfExtract (deriveSecret crypto (handshakeSecret crypto shared) "derived" []) zeros

/-- The length of the key of a suite. -/
def keyLength (suite : Nat) : Nat := if suite = tlsChacha20Poly1305Sha256 then 32 else 16

/-- The traffic key and the vector of a traffic secret. -/
def traffic (suite : Nat) (secret : Bytes) : Direction where
  key := expandLabel crypto secret "key" [] (keyLength suite)
  iv := expandLabel crypto secret "iv" [] 12
  seq := 0

/-- The data of the Finished behind the messages. -/
def verifyData (secret : Bytes) (messages : List Bytes) : Bytes :=
  crypto.hmac (expandLabel crypto secret "finished" [] hkdfHashLen)
    (transcriptHash crypto messages)

end Schedule

/-! ## Accepted handshakes -/

/-- A handshake that `cookbook_tls_connect` accepts, from the hello messages to the connection. -/
structure Session (platform : Platform) (noCert : Cert) (hostname input : Bytes) where
  /-- What the hello messages start. -/
  started : Started Cert
  /-- The loop when it ends. -/
  final : Handshake Cert
  /-- The connection. -/
  conn : Connection
  /-- The handshake starts. -/
  starts : startHandshake crypto platform noCert hostname input = .done (some started)
  /-- The server's Finished is accepted. -/
  accepts : receiveHandshake crypto platform started.suite started.serverSecret started.state =
    .done (some final)
  /-- The client finishes. -/
  finishes : finishHandshake crypto platform started.suite started.hsSecret started.clientSecret
    final = some conn

variable {crypto} {platform : Platform} {noCert : Cert} {hostname input : Bytes}

/-- Every connection comes from such a handshake. -/
theorem cookbookTlsConnect_session {conn : Connection}
    (connected : cookbookTlsConnect crypto platform noCert hostname input = .done (some conn)) :
    ∃ session : Session crypto platform noCert hostname input, session.conn = conn := by
  unfold cookbookTlsConnect at connected
  cases start : startHandshake crypto platform noCert hostname input with
  | overrun =>
    rw [start] at connected
    cases connected
  | done result =>
    rw [start, Outcome.bind_done] at connected
    cases result with
    | none => cases connected
    | some started =>
      simp only at connected
      cases receive : receiveHandshake crypto platform started.suite started.serverSecret
          started.state with
      | overrun =>
        rw [receive] at connected
        cases connected
      | done accepted =>
        rw [receive, Outcome.bind_done] at connected
        cases accepted with
        | none => cases connected
        | some final =>
          have finishes : finishHandshake crypto platform started.suite started.hsSecret
              started.clientSecret final = some conn := by
            injection connected
          exact ⟨⟨started, final, conn, start, receive, finishes⟩, rfl⟩

namespace Session

variable (session : Session crypto platform noCert hostname input)

/-- The shared secret of the client's key pair and the share in the ServerHello. -/
def Shared (secret : Bytes) : Prop :=
  ∃ ephPriv ephPub hello shRec serverPub,
    platform.ephemeral = some (ephPriv, ephPub) ∧
    session.started.state.transcript = [hello, shRec] ∧
    readServerHello (platform.message 1 shRec) = some (session.started.suite, serverPub) ∧
    crypto.x25519 ephPriv serverPub = some secret

/-- The client's Finished message, behind the server's. -/
def clientFinished : Bytes :=
  hsFinished :: (putU24 32 ++ finishedData crypto session.started.clientSecret
    (transcriptHash crypto session.final.transcript))

/-- The record in which it is sent, under the client's handshake keys. -/
def clientFinishedRecord : Bytes :=
  (tlsSendRecord crypto session.started.suite
    (trafficKeys crypto session.started.suite session.started.clientSecret) tlsHandshake
    session.clientFinished true).1

/-- The handshake keys and the Finished values are the scheduled ones. -/
structure HandshakeConforms (shared : Bytes) : Prop where
  /-- The Handshake Secret. -/
  secret : session.started.hsSecret = Schedule.handshakeSecret crypto shared
  /-- The client's handshake traffic secret, over the hello messages. -/
  clientSecret : session.started.clientSecret = Schedule.deriveSecret crypto
    (Schedule.handshakeSecret crypto shared) "c hs traffic" session.started.state.transcript
  /-- The server's handshake traffic secret, over the hello messages. -/
  serverSecret : session.started.serverSecret = Schedule.deriveSecret crypto
    (Schedule.handshakeSecret crypto shared) "s hs traffic" session.started.state.transcript
  /-- The server's handshake keys. -/
  serverKeys : session.started.state.recv =
    Schedule.traffic crypto session.started.suite session.started.serverSecret
  /-- The server's Finished confirms the transcript before it. -/
  serverFinished : ∃ before fin, session.final.transcript = before ++ [fin] ∧
    (platform.message before.length fin).slice 4 32 =
      Schedule.verifyData crypto session.started.serverSecret before
  /-- The client's Finished confirms the transcript before it. -/
  clientFinished : session.conn.transcript = session.final.transcript ++
    [hsFinished :: (putU24 32 ++ Schedule.verifyData crypto session.started.clientSecret
      session.final.transcript)]
  /-- It is sent under the client's handshake keys. -/
  clientKeys : session.clientFinishedRecord = (tlsSendRecord crypto session.started.suite
    (Schedule.traffic crypto session.started.suite session.started.clientSecret) tlsHandshake
    session.clientFinished true).1

/-- The keys and the Finished values are the scheduled ones; the application keys are the ones over
the messages up to the server's Finished. -/
structure Conforms (shared : Bytes) : Prop extends session.HandshakeConforms shared where
  /-- The client's application keys. -/
  send : session.conn.send = Schedule.traffic crypto session.started.suite
    (Schedule.deriveSecret crypto (Schedule.masterSecret crypto shared) "c ap traffic"
      session.final.transcript)
  /-- The server's application keys. -/
  recv : session.conn.recv = Schedule.traffic crypto session.started.suite
    (Schedule.deriveSecret crypto (Schedule.masterSecret crypto shared) "s ap traffic"
      session.final.transcript)

/-- The application keys of a label are the same with the client's Finished as without it. -/
def KeysCollide (shared : Bytes) (label : String) : Prop :=
  Schedule.traffic crypto session.started.suite (Schedule.deriveSecret crypto
      (Schedule.masterSecret crypto shared) label
      (session.final.transcript ++ [session.clientFinished])) =
    Schedule.traffic crypto session.started.suite (Schedule.deriveSecret crypto
      (Schedule.masterSecret crypto shared) label session.final.transcript)

end Session

/-- Different inputs of a primitive have the same output. -/
inductive Collision (crypto : Crypto Cert RsaKey) : Prop
  /-- A string and a longer one have the same hash. -/
  | hash (data more : Bytes) (longer : more ≠ [])
      (same : crypto.sha256 (data ++ more) = crypto.sha256 data)
  /-- HKDF-Expand gives the same secret for different hashes. -/
  | expand (key : Bytes) (label : String) (hash other : Bytes) (different : hash ≠ other)
      (same : Schedule.expandLabel crypto key label hash hkdfHashLen =
        Schedule.expandLabel crypto key label other hkdfHashLen)
  /-- HKDF-Expand gives the same traffic keys for different secrets. -/
  | keys (suite : Nat) (secret other : Bytes) (different : secret ≠ other)
      (same : Schedule.traffic crypto suite secret = Schedule.traffic crypto suite other)

/-! ## Agreement -/

/-- `tls13_derive_secret` is HKDF-Expand-Label. -/
theorem tls13DeriveSecret_eq (secret : Bytes) (label : String) (hash : Bytes) (length : Nat) :
    tls13DeriveSecret crypto secret label hash length =
      Schedule.expandLabel crypto secret label hash length := by
  unfold tls13DeriveSecret Schedule.expandLabel Schedule.shortVector
  rw [List.append_assoc, List.cons_append]

/-- With a transcript hash it is Derive-Secret. -/
theorem tls13DeriveSecret_transcript (secret : Bytes) (label : String) (messages : List Bytes) :
    tls13DeriveSecret crypto secret label (transcriptHash crypto messages) hkdfHashLen =
      Schedule.deriveSecret crypto secret label messages :=
  tls13DeriveSecret_eq secret label _ _

/-- The empty transcript has the hash of the empty string. -/
theorem tls13DeriveSecret_derived (secret : Bytes) :
    tls13DeriveSecret crypto secret "derived" (crypto.sha256 []) hkdfHashLen =
      Schedule.deriveSecret crypto secret "derived" [] :=
  tls13DeriveSecret_transcript secret "derived" []

/-- The traffic keys are the scheduled ones. -/
theorem trafficKeys_eq (suite : Nat) (secret : Bytes) :
    trafficKeys crypto suite secret = Schedule.traffic crypto suite secret := by
  unfold trafficKeys Schedule.traffic Schedule.keyLength
  rw [tls13DeriveSecret_eq, tls13DeriveSecret_eq]

/-- The Handshake Secret is the scheduled one. -/
theorem handshakeSecret_eq (shared : Bytes) :
    handshakeSecret crypto shared = Schedule.handshakeSecret crypto shared := by
  unfold Schedule.handshakeSecret
  rw [← tls13DeriveSecret_derived]
  rfl

/-- So is the Master Secret. -/
theorem masterSecret_eq (shared : Bytes) :
    masterSecret crypto (Schedule.handshakeSecret crypto shared) =
      Schedule.masterSecret crypto shared := by
  unfold masterSecret Schedule.masterSecret
  rw [tls13DeriveSecret_derived]
  rfl

/-- The data of a Finished is the scheduled one. -/
theorem finishedData_eq (secret : Bytes) (messages : List Bytes) :
    finishedData crypto secret (transcriptHash crypto messages) =
      Schedule.verifyData crypto secret messages := by
  unfold finishedData Schedule.verifyData
  rw [tls13DeriveSecret_eq]

/-- The message on which the loop ends confirms the transcript before it. -/
theorem receiveHandshake_confirmed (platform : Platform) (suite : Nat) (serverSecret : Bytes)
    (state : Handshake Cert) : ∀ final,
    receiveHandshake crypto platform suite serverSecret state = .done (some final) →
      ∃ before fin, final.transcript = before ++ [fin] ∧
        (platform.message before.length fin).slice 4 32 =
          Schedule.verifyData crypto serverSecret before := by
  apply loop_invariant (fun _ : Handshake Cert => True)
    (fun result : Outcome (Option (Handshake Cert)) => ∀ final, result = .done (some final) →
      ∃ before fin, final.transcript = before ++ [fin] ∧
        (platform.message before.length fin).slice 4 32 =
          Schedule.verifyData crypto serverSecret before)
    _ _ _ (state.input.length + 1) trivial
  · intro _ _ _ _
    trivial
  · intro current result _ stop final isFinal
    rw [isFinal] at stop
    obtain ⟨msg, input, recv, accepted, -⟩ := receiveRound_stopped stop
    obtain ⟨-, shape, expected⟩ := processMessage_accepted accepted
    refine ⟨current.transcript, msg, by rw [shape], ?_⟩
    rw [← finishedData_eq]
    simp only [finishedMatches, Bool.and_eq_true, beq_iff_eq] at expected
    exact expected.2
  · intro final impossible
    cases impossible

namespace Session

variable (session : Session crypto platform noCert hostname input)

/-- Up to the server's Finished, every accepted handshake follows the schedule. -/
theorem handshakeConforms :
    ∃ shared, session.Shared shared ∧ session.HandshakeConforms shared := by
  obtain ⟨ephPriv, ephPub, hello, shRec, suite, serverPub, shared, rest, ephemeral, -, read,
    agreed, shape⟩ := startHandshake_shape crypto session.starts
  have transcript : session.started.state.transcript = [hello, shRec] := by
    rw [shape]
    rfl
  have sameSuite : session.started.suite = suite := by
    rw [shape]
    rfl
  refine ⟨shared, ⟨ephPriv, ephPub, hello, shRec, serverPub, ephemeral, transcript,
    sameSuite ▸ read, agreed⟩, ?_⟩
  constructor
  · rw [shape, ← handshakeSecret_eq]
    rfl
  · rw [transcript, ← tls13DeriveSecret_transcript, ← handshakeSecret_eq, shape]
    rfl
  · rw [transcript, ← tls13DeriveSecret_transcript, ← handshakeSecret_eq, shape]
    rfl
  · rw [← trafficKeys_eq, shape]
    rfl
  · exact receiveHandshake_confirmed platform session.started.suite session.started.serverSecret
      session.started.state session.final session.accepts
  · have finishes := session.finishes
    unfold finishHandshake at finishes
    by_cases unsent : platform.finishedSent = false
    · simp only [if_pos unsent] at finishes
      cases finishes
    · simp only [if_neg unsent, finishedData_eq] at finishes
      exact (congrArg Connection.transcript (Option.some.inj finishes)).symm
  · unfold clientFinishedRecord
    rw [trafficKeys_eq]

/-- The application keys are the scheduled ones for the transcript with the client's Finished. -/
theorem application_keys {shared : Bytes}
    (secret : session.started.hsSecret = Schedule.handshakeSecret crypto shared) :
    session.conn.send = Schedule.traffic crypto session.started.suite
        (Schedule.deriveSecret crypto (Schedule.masterSecret crypto shared) "c ap traffic"
          (session.final.transcript ++ [session.clientFinished])) ∧
      session.conn.recv = Schedule.traffic crypto session.started.suite
        (Schedule.deriveSecret crypto (Schedule.masterSecret crypto shared) "s ap traffic"
          (session.final.transcript ++ [session.clientFinished])) := by
  have finishes := session.finishes
  unfold finishHandshake at finishes
  by_cases unsent : platform.finishedSent = false
  · simp only [if_pos unsent] at finishes
    cases finishes
  · simp only [if_neg unsent, trafficKeys_eq, tls13DeriveSecret_transcript, secret,
      masterSecret_eq] at finishes
    have conn := Option.some.inj finishes
    exact ⟨(congrArg Connection.send conn).symm, (congrArg Connection.recv conn).symm⟩

/-- Application keys that collide are a collision of a primitive. -/
theorem KeysCollide.collision {session : Session crypto platform noCert hostname input}
    {shared : Bytes} {label : String} (collide : session.KeysCollide shared label) :
    Collision crypto := by
  by_cases secrets : Schedule.deriveSecret crypto (Schedule.masterSecret crypto shared) label
      (session.final.transcript ++ [session.clientFinished]) =
    Schedule.deriveSecret crypto (Schedule.masterSecret crypto shared) label
      session.final.transcript
  · by_cases hashes : transcriptHash crypto (session.final.transcript ++ [session.clientFinished]) =
        transcriptHash crypto session.final.transcript
    · unfold transcriptHash at hashes
      rw [List.flatten_append] at hashes
      exact .hash session.final.transcript.flatten [session.clientFinished].flatten
        (by simp [clientFinished]) hashes
    · exact .expand _ label _ _ hashes secrets
  · exact .keys _ _ _ secrets collide

/-- There is one shared secret. -/
theorem Shared.unique {session : Session crypto platform noCert hostname input}
    {secret other : Bytes} (first : session.Shared secret) (second : session.Shared other) :
    secret = other := by
  obtain ⟨ephPriv, ephPub, hello, shRec, serverPub, ephemeral, transcript, read, agreed⟩ := first
  obtain ⟨ephPriv', ephPub', hello', shRec', serverPub', ephemeral', transcript', read',
    agreed'⟩ := second
  have sameKey : ephPriv = ephPriv' :=
    congrArg Prod.fst (Option.some.inj (ephemeral.symm.trans ephemeral'))
  have sameHello : shRec = shRec' :=
    (List.cons.inj (List.cons.inj (transcript.symm.trans transcript')).2).1
  rw [← sameHello] at read'
  have sameShare : serverPub = serverPub' :=
    congrArg Prod.snd (Option.some.inj (read.symm.trans read'))
  rw [← sameKey, ← sameShare] at agreed'
  exact Option.some.inj (agreed.symm.trans agreed')

/-- Every key, vector and Finished value of the handshake is the scheduled one. -/
def FollowsSchedule : Prop := ∃ shared, session.Shared shared ∧ session.Conforms shared

/-- An accepted handshake follows the schedule up to the server's Finished, and to its end exactly
when the application keys for the transcripts with and without the client's Finished collide, which
takes a collision of a primitive. -/
theorem followsSchedule_iff :
    (∃ shared, session.Shared shared ∧ session.HandshakeConforms shared) ∧
    (session.FollowsSchedule ↔ ∃ shared, session.Shared shared ∧
      session.KeysCollide shared "c ap traffic" ∧ session.KeysCollide shared "s ap traffic") ∧
    (session.FollowsSchedule → Collision crypto) := by
  have handshake := session.handshakeConforms
  have collides : session.FollowsSchedule → ∃ shared, session.Shared shared ∧
      session.KeysCollide shared "c ap traffic" ∧ session.KeysCollide shared "s ap traffic" := by
    intro follows
    obtain ⟨shared, isShared, conforms⟩ := follows
    have keys := session.application_keys conforms.secret
    exact ⟨shared, isShared, keys.1.symm.trans conforms.send, keys.2.symm.trans conforms.recv⟩
  have follows : (∃ shared, session.Shared shared ∧ session.KeysCollide shared "c ap traffic" ∧
      session.KeysCollide shared "s ap traffic") → session.FollowsSchedule := by
    intro collide
    obtain ⟨shared, isShared, send, recv⟩ := collide
    obtain ⟨other, isOther, conforms⟩ := handshake
    rw [← isShared.unique isOther] at conforms
    have keys := session.application_keys conforms.secret
    exact ⟨shared, isShared, conforms, keys.1.trans send, keys.2.trans recv⟩
  refine ⟨handshake, ⟨collides, follows⟩, ?_⟩
  intro whole
  obtain ⟨shared, -, send, -⟩ := collides whole
  exact send.collision

end Session

/-! ## Keys that differ -/

/-- Primitives without secrecy whose hash counts the bytes: secrets and keys depend on it. -/
def counting : Crypto Unit Unit :=
  { loopback with
    sha256 := fun data => List.replicate 32 (UInt8.ofNat data.length)
    hkdfExpand := fun key info length =>
      List.replicate length (key.getLastD 0 + info.getLastD 0) }

/-- They work. -/
theorem counting_correct : counting.Correct where
  opens _ _ _ _ _ := rfl
  cipherLength _ _ _ _ _ := rfl
  tagLength _ _ _ _ _ := rfl
  hmacLength _ _ := rfl
  agrees := loopback_correct.agrees

/-- A secret that is derived from messages shows how many bytes they have. -/
theorem counting_deriveSecret (secret : Bytes) (label : String) (messages : List Bytes) :
    Schedule.deriveSecret counting secret label messages =
      List.replicate 32 (secret.getLastD 0 + UInt8.ofNat messages.flatten.length) := by
  have info (front : Bytes) (count : UInt8) :
      (front ++ Schedule.shortVector (List.replicate 32 count)).getLastD 0 = count := by
    have shape : Schedule.shortVector (List.replicate 32 count) =
        (32 :: List.replicate 31 count) ++ [count] := rfl
    rw [shape, ← List.append_assoc, List.getLastD_concat]
  simp only [Schedule.deriveSecret, Schedule.expandLabel, counting, transcriptHash, info]
  rfl

/-- Traffic keys show the last byte of their secret. -/
theorem counting_traffic {suite : Nat} {first second : UInt8}
    (same : Schedule.traffic counting suite (List.replicate 32 first) =
      Schedule.traffic counting suite (List.replicate 32 second)) : first = second := by
  have vectors := congrArg (fun direction => direction.iv.headD 0) same
  simpa [Schedule.traffic, Schedule.expandLabel, counting, Schedule.shortVector] using vectors

/-- A client that accepts a handshake has other application keys than its server. -/
theorem counting_desynchronised : ∃ (platform : Platform) (input : Bytes)
    (session : Session counting platform () [] input), ¬ session.FollowsSchedule := by
  obtain ⟨hello, built⟩ : ∃ hello, buildClientHello [] (List.replicate 32 0)
      (List.replicate 32 0) (List.replicate 32 0) = .done hello := by
    rw [buildClientHello, if_neg]
    · exact ⟨_, rfl⟩
    · simp [clientExtensions, extension, putU16]
  have agreed : counting.x25519 (List.replicate 32 0) (List.replicate 32 0) =
      some (List.replicate 32 0) := rfl
  obtain ⟨conn, fin, finMsg, connected, -⟩ :=
    bareFlight_connects counting_correct List.length_replicate agreed built ()
  obtain ⟨session, -⟩ := cookbookTlsConnect_session connected
  refine ⟨_, _, session, ?_⟩
  intro follows
  obtain ⟨shared, isShared, conforms⟩ := follows
  have keys := (session.application_keys conforms.secret).1.symm.trans conforms.send
  rw [counting_deriveSecret, counting_deriveSecret] at keys
  have counts := counting_traffic keys
  have length : session.clientFinished.length = 36 := by
    simp [Session.clientFinished, finishedData, counting, loopback, putU24, putU16]
  rw [List.flatten_append, List.length_append, List.flatten_singleton, length] at counts
  have wrapped := congrArg UInt8.toNat ((UInt8.add_right_inj _).mp counts)
  rw [UInt8.toNat_ofNat', UInt8.toNat_ofNat'] at wrapped
  omega

end Cookbook.Tls
