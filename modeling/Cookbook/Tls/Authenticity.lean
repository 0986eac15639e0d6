import Cookbook.Tls.Impersonation
import Cookbook.Tls.Stream
import Mathlib.Logic.Relation

/-!
# Records that are acted on

A record passes the AEAD when its outer content type is application data and its body is decrypted.
`tls_recv_record` returns a record of any other outer type as it is, and its callers look at the
returned type alone. So the handshake loop processes handshake messages that were sent in the clear,
and `cookbook_tls_recv` ends the stream on an alert in the clear.
-/
namespace Cookbook.Tls

open Library.Text Library.Loop

variable {Cert RsaKey : Type} (crypto : Crypto Cert RsaKey)

/-! ## Records on the socket -/

/-- The header and the body of the record in front of a socket, when it can be read. -/
def frontRecord (input : Bytes) : Option (Bytes × Bytes) :=
  let length := lengthField input
  if input.length < 5 ∨ tlsRecordMax + 256 < length ∨ input.length < length + 5 then none
  else some (input.take 5, (input.drop 5).take length)

/-- The outer content type of a header. -/
def outerType (header : Bytes) : UInt8 := header.getD 0 0

/-- The record in front of the socket passes the AEAD under the keys. -/
structure PassesAead (suite : Nat) (recv : Direction) (input : Bytes) : Prop where
  /-- It is an application-data record whose body is decrypted. -/
  opens : ∃ header body plain, frontRecord input = some (header, body) ∧
    outerType header = tlsApplicationData ∧
    crypto.decrypt suite recv.key (buildNonce recv.iv recv.seq) header
      (body.take (body.length - 16)) (body.drop (body.length - 16)) = some plain

/-- The record in front of the socket is in the clear, with this outer type and this body. -/
def InClear (input : Bytes) (outer : UInt8) (body : Bytes) : Prop :=
  ∃ header, frontRecord input = some (header, body) ∧ outerType header = outer

/-- A record that is returned passed the AEAD, or it was in the clear and is returned as it is. -/
theorem tlsRecvRecord_origin {suite : Nat} {recv : Direction} {input : Bytes} {mtype : UInt8}
    {msg : Bytes} (returned : (tlsRecvRecord crypto suite recv true input).record = some (mtype, msg)) :
    PassesAead crypto suite recv input ∨
      mtype ≠ tlsApplicationData ∧ InClear input mtype msg := by
  unfold tlsRecvRecord at returned
  by_cases short : input.length < 5
  · rw [if_pos short] at returned
    cases returned
  rw [if_neg short] at returned
  simp only at returned
  have header3 : (input.take 5).getD 3 0 = input.getD 3 0 := by
    simp [List.getD]
  have header4 : (input.take 5).getD 4 0 = input.getD 4 0 := by
    simp [List.getD]
  have field : ((input.take 5).getD 3 0).toNat * 256 + ((input.take 5).getD 4 0).toNat =
      lengthField input := by rw [header3, header4, lengthField]
  rw [field] at returned
  by_cases large : tlsRecordMax + 256 < lengthField input
  · rw [if_pos large] at returned
    cases returned
  by_cases missing : (input.drop 5).length < lengthField input
  · rw [if_neg large, if_pos missing] at returned
    cases returned
  rw [if_neg large, if_neg missing] at returned
  rw [List.length_drop] at missing
  have front : frontRecord input =
      some (input.take 5, (input.drop 5).take (lengthField input)) := if_neg (by omega)
  have bodyLength : ((input.drop 5).take (lengthField input)).length = lengthField input := by
    rw [List.length_take, List.length_drop]
    omega
  by_cases outer : (input.take 5).getD 0 0 = tlsApplicationData
  · left
    rw [if_neg (not_or.mpr ⟨Bool.noConfusion, not_not.mpr outer⟩)] at returned
    by_cases tiny : lengthField input < 17
    · rw [if_pos tiny] at returned
      cases returned
    · rw [if_neg tiny] at returned
      obtain ⟨plain, decrypted, -⟩ := Option.bind_eq_some_iff.mp returned
      exact ⟨_, _, plain, front, outer, by rw [bodyLength]; exact decrypted⟩
  · right
    rw [if_pos (.inr outer)] at returned
    cases returned
    exact ⟨outer, _, front, rfl⟩

/-- A record in the clear is returned as it is. -/
theorem tlsRecvRecord_inClear (suite : Nat) (recv : Direction) {input : Bytes} {outer : UInt8}
    {body : Bytes} (clear : InClear input outer body) (other : outer ≠ tlsApplicationData) :
    (tlsRecvRecord crypto suite recv true input).record = some (outer, body) ∧
      ¬ PassesAead crypto suite recv input := by
  obtain ⟨header, front, type⟩ := clear
  apply And.intro
  · unfold frontRecord at front
    simp only at front
    split_ifs at front with unreadable
    have field : ((input.take 5).getD 3 0).toNat * 256 + ((input.take 5).getD 4 0).toNat =
        lengthField input := by
      simp [lengthField, List.getD]
    have fields := Prod.mk.inj (Option.some.inj front)
    have outerEq : (input.take 5).getD 0 0 = outer := by rw [fields.1]; exact type
    simp only [not_or, Nat.not_lt] at unreadable
    unfold tlsRecvRecord
    simp only [field, List.length_drop]
    rw [if_neg (by omega), if_neg (by omega), if_neg (by omega),
      if_pos (.inr (by rw [outerEq]; exact other)), outerEq, fields.2]
  · intro passes
    obtain ⟨opened, content, plain, opens, data, -⟩ := passes.opens
    have same := Prod.mk.inj (Option.some.inj (front.symm.trans opens))
    apply other
    rw [← type, same.1]
    exact data

/-! ## The handshake loop -/

/-- The loop processes the record in front of the socket as a handshake message. -/
def ProcessesMessage (suite : Nat) (state : Handshake Cert) : Prop :=
  ∃ msg, 4 ≤ msg.length ∧
    (tlsRecvRecord crypto suite state.recv true state.input).record = some (tlsHandshake, msg)

/-- A handshake message is processed only from a record that passes the AEAD. -/
def AuthenticRound (suite : Nat) (state : Handshake Cert) : Prop :=
  ProcessesMessage crypto suite state → PassesAead crypto suite state.recv state.input

/-- A handshake message in the clear is in front of the socket. -/
def ClearHandshake (input : Bytes) : Prop :=
  ∃ msg, 4 ≤ msg.length ∧ InClear input tlsHandshake msg

/-- A round is authentic exactly when no handshake message in the clear is in front of the socket. -/
theorem authenticRound_iff (suite : Nat) (state : Handshake Cert) :
    AuthenticRound crypto suite state ↔ ¬ ClearHandshake state.input := by
  constructor
  · intro authentic clear
    obtain ⟨msg, long, inClear⟩ := clear
    have returned := tlsRecvRecord_inClear crypto suite state.recv inClear (by decide)
    exact returned.2 (authentic ⟨msg, long, returned.1⟩)
  · intro clean processes
    obtain ⟨msg, long, returned⟩ := processes
    cases tlsRecvRecord_origin crypto returned with
    | inl passes => exact passes
    | inr clear => exact absurd ⟨msg, long, clear.2⟩ clean

/-! ## Reading -/

/-- A call that reads a record returns data or the end of the stream only for a record that passes
the AEAD. -/
def AuthenticCall (suite : Nat) (reader : Reader) (len : Nat) : Prop :=
  0 < len → reader.buffered = [] → (cookbookTlsRecv crypto suite reader len).1 ≠ .error →
    PassesAead crypto suite reader.recv reader.input

/-- An alert in the clear is in front of the socket. -/
def ClearAlert (input : Bytes) : Prop := ∃ body, InClear input tlsAlert body

/-- The calls on a connection are authentic exactly when no alert in the clear is in front of the
socket when a record is read. -/
theorem authenticCall_iff (suite : Nat) (reader : Reader) :
    (∀ len, AuthenticCall crypto suite reader len) ↔
      (reader.buffered = [] → ¬ ClearAlert reader.input) := by
  constructor
  · intro authentic empty clear
    obtain ⟨body, inClear⟩ := clear
    have returned := tlsRecvRecord_inClear crypto suite reader.recv inClear (by decide)
    apply returned.2
    apply authentic 1 (by decide) empty
    unfold cookbookTlsRecv
    rw [if_neg (by decide), if_neg (by simp [empty])]
    simp only [returned.1, if_true]
    exact RecvResult.noConfusion
  · intro clean len positive empty acts
    unfold cookbookTlsRecv at acts
    rw [if_neg (by omega), if_neg (by simp [empty])] at acts
    cases returned : (tlsRecvRecord crypto suite reader.recv true reader.input).record with
    | none =>
      simp only [returned] at acts
      exact absurd rfl acts
    | some record =>
      cases tlsRecvRecord_origin crypto returned with
      | inl passes => exact passes
      | inr clear =>
        simp only [returned] at acts
        by_cases alert : record.1 = tlsAlert
        · exact absurd ⟨_, alert ▸ clear.2⟩ (clean empty)
        · rw [if_neg alert, if_pos (.inl clear.1)] at acts
          exact absurd rfl acts

/-! ## Runs -/

/-- A state of the handshake loop that is reached from another. -/
def Reaches (platform : Platform) (suite : Nat) (serverSecret : Bytes) :
    Handshake Cert → Handshake Cert → Prop :=
  Relation.ReflTransGen fun state next =>
    receiveRound crypto platform suite serverSecret state = .again next

/-- A state of a connection that is reached by calls of `cookbook_tls_recv`. -/
def ReadsTo (suite : Nat) : Reader → Reader → Prop :=
  Relation.ReflTransGen fun reader next =>
    ∃ len, next = (cookbookTlsRecv crypto suite reader len).2

/-- The states of the handshake loop of a session. -/
def LoopState (platform : Platform) (noCert : Cert) (hostname input : Bytes) (suite : Nat)
    (state : Handshake Cert) : Prop :=
  ∃ started, startHandshake crypto platform noCert hostname input = .done (some started) ∧
    suite = started.suite ∧
    Reaches crypto platform started.suite started.serverSecret started.state state

/-- The states of the connection of a session. -/
def ReaderState (platform : Platform) (noCert : Cert) (hostname input : Bytes) (suite : Nat)
    (reader : Reader) : Prop :=
  ∃ conn, cookbookTlsConnect crypto platform noCert hostname input = .done (some conn) ∧
    suite = conn.suite ∧ ReadsTo crypto conn.suite ⟨conn.input, conn.recv, []⟩ reader

/-- Behind the ServerHello no record is acted on that does not pass the AEAD. -/
structure ActsOnAuthentic (platform : Platform) (noCert : Cert) (hostname input : Bytes) : Prop where
  /-- No handshake message is processed from such a record. -/
  handshake : ∀ suite state, LoopState crypto platform noCert hostname input suite state →
    AuthenticRound crypto suite state
  /-- No data and no end of stream is returned because of such a record. -/
  reading : ∀ suite reader, ReaderState crypto platform noCert hostname input suite reader →
    ∀ len, AuthenticCall crypto suite reader len

/-- No record in the clear comes where it is acted on. -/
structure ClearFree (platform : Platform) (noCert : Cert) (hostname input : Bytes) : Prop where
  /-- The loop never finds a handshake message in the clear in front. -/
  handshake : ∀ suite state, LoopState crypto platform noCert hostname input suite state →
    ¬ ClearHandshake state.input
  /-- A call that reads a record never finds an alert in the clear in front. -/
  reading : ∀ suite reader, ReaderState crypto platform noCert hostname input suite reader →
    reader.buffered = [] → ¬ ClearAlert reader.input

/-- A session acts on authentic records alone exactly when no handshake message in the clear reaches
its handshake loop and no alert in the clear reaches its reader. -/
theorem actsOnAuthentic_iff (platform : Platform) (noCert : Cert) (hostname input : Bytes) :
    ActsOnAuthentic crypto platform noCert hostname input ↔
      ClearFree crypto platform noCert hostname input := by
  constructor
  · intro authentic
    apply ClearFree.mk
    · intro suite state reached
      exact (authenticRound_iff crypto suite state).mp (authentic.handshake suite state reached)
    · intro suite reader reached
      exact (authenticCall_iff crypto suite reader).mp (authentic.reading suite reader reached)
  · intro clean
    apply ActsOnAuthentic.mk
    · intro suite state reached
      exact (authenticRound_iff crypto suite state).mpr (clean.handshake suite state reached)
    · intro suite reader reached
      exact (authenticCall_iff crypto suite reader).mpr (clean.reading suite reader reached)

/-- An EncryptedExtensions message in the clear, behind a ServerHello. -/
def clearExtensions : Bytes :=
  (tlsSendRecord loopback 0 ⟨[], [], 0⟩ tlsHandshake (serverHello (List.replicate 32 0)) false).1 ++
    [22, 3, 3, 0, 4, 8, 0, 0, 0]

/-- The handshake loop processes a message that anybody can send. -/
theorem clearExtensions_processed :
    ¬ ActsOnAuthentic loopback (wary (List.replicate 32 0) (List.replicate 32 0)) () []
      clearExtensions := by
  intro authentic
  obtain ⟨hello, built⟩ : ∃ hello, buildClientHello [] (List.replicate 32 0)
      (List.replicate 32 0) (List.replicate 32 0) = .done hello := by
    rw [buildClientHello, if_neg]
    · exact ⟨_, rfl⟩
    · simp [clientExtensions, extension, putU16]
  have start : startHandshake loopback (wary (List.replicate 32 0) (List.replicate 32 0)) () []
      clearExtensions = .done (some (bareStart loopback (List.replicate 32 0)
        (List.replicate 32 0) hello [22, 3, 3, 0, 4, 8, 0, 0, 0] ())) :=
    startHandshake_bare rfl rfl built () _
  have round := authentic.handshake _ _ ⟨_, start, rfl, Relation.ReflTransGen.refl⟩
  have clear : InClear [22, 3, 3, 0, 4, 8, 0, 0, 0] tlsHandshake [8, 0, 0, 0] :=
    ⟨[22, 3, 3, 0, 4], by decide, by decide⟩
  have returned := tlsRecvRecord_inClear loopback tlsAes128GcmSha256
    (bareStart loopback (List.replicate 32 0) (List.replicate 32 0) hello
      [22, 3, 3, 0, 4, 8, 0, 0, 0] ()).state.recv clear (by decide)
  exact returned.2 (round ⟨[8, 0, 0, 0], by decide, returned.1⟩)

end Cookbook.Tls
