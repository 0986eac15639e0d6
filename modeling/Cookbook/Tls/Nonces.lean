import Mathlib.Algebra.Group.Nat.Defs
import Cookbook.Tls.KeySchedule
import Cookbook.Tls.Stream

/-!
# Nonces

A connection encrypts its Finished under the handshake keys and every later record under the
application keys. The nonce of a record is made of the initialization vector and of a counter that
belongs to the keys.
-/
namespace Cookbook.Tls

open Library.Text

variable {Cert RsaKey : Type} (crypto : Crypto Cert RsaKey)

/-! ## Encryptions -/

/-- The keys a client installs for sending, one behind the other. -/
inductive Epoch
  /-- The keys behind the ServerHello. -/
  | handshake
  /-- The keys behind the client's Finished. -/
  | application
  deriving DecidableEq

/-- One encryption of a record. -/
structure Encryption where
  /-- The installation of the keys. -/
  epoch : Epoch
  /-- The key. -/
  key : Bytes
  /-- The nonce. -/
  nonce : Bytes
  deriving DecidableEq

/-- How a call of `tls_send_record` goes. -/
inductive Going
  /-- A buffer cannot be allocated. -/
  | noMemory
  /-- The socket does not take the record. -/
  | refused
  /-- The record is sent. -/
  | sent
  deriving DecidableEq

/-- A call of `tls_send_record` for an encrypted record. -/
structure Sending where
  /-- Zero is returned. -/
  succeeds : Bool
  /-- The direction behind the call. -/
  send : Direction
  /-- The encryptions that were made. -/
  made : List Encryption

/-- The encryption with the current record number. -/
def Direction.encryption (send : Direction) (epoch : Epoch) : Encryption :=
  ⟨epoch, send.key, buildNonce send.iv send.seq⟩

/-- `tls_send_record` of an encrypted record: the counter moves in front of the encryption, which comes
in front of the socket. -/
def sendEncrypted (suite : Nat) (epoch : Epoch) (send : Direction) (contentType : UInt8)
    (data : Bytes) (going : Going) : Sending :=
  let sent := (tlsSendRecord crypto suite send contentType data true).2
  match going with
  | .noMemory => ⟨false, send, []⟩
  | .refused => ⟨false, sent, [send.encryption epoch]⟩
  | .sent => ⟨true, sent, [send.encryption epoch]⟩

/-! ## Connections -/

/-- An open connection as its owner holds it. -/
structure Client where
  /-- The cipher suite. -/
  suite : Nat
  /-- The sending direction. -/
  send : Direction
  /-- The receiving side. -/
  reader : Reader
  /-- The encryptions so far. -/
  made : List Encryption

/-- A call on an open connection. -/
inductive Call
  /-- `cookbook_tls_send` -/
  | send (data : Bytes) (going : Going)
  /-- `cookbook_tls_recv` -/
  | recv (len : Nat)

/-- An encrypted record on an open connection. -/
def Client.record (client : Client) (contentType : UInt8) (data : Bytes) (going : Going) : Client :=
  let sending := sendEncrypted crypto client.suite .application client.send contentType data going
  { client with send := sending.send, made := client.made ++ sending.made }

/-- The connection behind a call. -/
def Client.call (client : Client) : Call → Client
  | .send data going =>
    if data = [] then client else client.record crypto tlsApplicationData data going
  | .recv len =>
    { client with reader := (cookbookTlsRecv crypto client.suite client.reader len).2 }

/-- The connection behind successive calls. -/
def Client.calls (client : Client) (calls : List Call) : Client :=
  calls.foldl (Client.call crypto) client

/-- `cookbook_tls_close`: the last record is an alert. -/
def Client.close (client : Client) (going : Going) : Client :=
  client.record crypto tlsAlert [1, 0] going

/-- The connection that `cookbook_tls_connect` returns, behind the encryptions it made. -/
def Connection.client (conn : Connection) (made : List Encryption) : Client :=
  ⟨conn.suite, conn.send, ⟨conn.input, conn.recv, []⟩, made⟩

/-- The encryption of the client's Finished, when the server's is accepted. -/
def finishedEncryption (platform : Platform) (noCert : Cert) (hostname input : Bytes)
    (finishing : Going) : List Encryption :=
  match startHandshake crypto platform noCert hostname input with
  | .done (some started) =>
    match receiveHandshake crypto platform started.suite started.serverSecret started.state with
    | .done (some state) =>
      (sendEncrypted crypto started.suite .handshake
        (trafficKeys crypto started.suite started.clientSecret) tlsHandshake
        (hsFinished :: (putU24 32 ++ finishedData crypto started.clientSecret
          (transcriptHash crypto state.transcript))) finishing).made
    | _ => []
  | _ => []

/-- A run of a connection: the handshake with the sending of its Finished, the calls, and the closing
where it is closed. -/
structure ConnectionRun where
  /-- How the client's Finished is sent. -/
  finishing : Going
  /-- The calls. -/
  calls : List Call
  /-- How the alert at the end is sent, none when the connection stays open. -/
  closing : Option Going

/-- The platform on which the client's Finished is sent as in the run. -/
def ConnectionRun.platform (run : ConnectionRun) (platform : Platform) : Platform :=
  { platform with finishedSent := decide (run.finishing = .sent) }

/-- The encryptions of a run. -/
def ConnectionRun.made (run : ConnectionRun) (platform : Platform) (noCert : Cert)
    (hostname input : Bytes) : List Encryption :=
  let finished :=
    finishedEncryption crypto (run.platform platform) noCert hostname input run.finishing
  match cookbookTlsConnect crypto (run.platform platform) noCert hostname input with
  | .done (some conn) =>
    let client := (conn.client finished).calls crypto run.calls
    match run.closing with
    | none => client.made
    | some going => (client.close crypto going).made
  | _ => finished

/-- Nonces are used once. -/
structure NonceDiscipline (made : List Encryption) : Prop where
  /-- A vector gives different record numbers different nonces. -/
  injective : ∀ iv first second, first < 2 ^ 64 → second < 2 ^ 64 →
    buildNonce iv first = buildNonce iv second → first = second
  /-- Every encryption of an installation has its key and vector and the next record number, from zero
  on, and the handshake keys come first, for one record at most. -/
  numbered : ∃ handshake application : Direction, ∃ finished records, finished ≤ 1 ∧
    made = (List.range finished).map
        (fun seq => { handshake with seq : Direction }.encryption .handshake) ++
      (List.range records).map (fun seq => { application with seq : Direction }.encryption .application)
  /-- No nonce is used twice under the keys of one installation. -/
  unique : made.Pairwise fun first second =>
    first.epoch = second.epoch → first.nonce ≠ second.nonce
  /-- Where the two keys differ, none is used twice under equal bytes of a key. -/
  uniqueKey : (∀ first ∈ made, ∀ second ∈ made, first.epoch ≠ second.epoch → first.key ≠ second.key) →
    made.Pairwise fun first second => first.key = second.key → first.nonce ≠ second.nonce

/-! ## Injectivity -/

/-- Two numbers of eight bytes with the same bytes are the same. -/
theorem eq_of_bytes {first second : Nat} (small : first < 2 ^ 64) (small' : second < 2 ^ 64)
    (bytes : ∀ index < 8,
      UInt8.ofNat (first >>> (8 * index)) = UInt8.ofNat (second >>> (8 * index))) :
    first = second := by
  refine Nat.eq_of_testBit_eq fun bit => ?_
  by_cases inside : bit < 64
  · have shown (number : Nat) :
        (UInt8.ofNat (number >>> (8 * (bit / 8)))).toNat.testBit (bit % 8) = number.testBit bit := by
      rw [UInt8.toNat_ofNat', Nat.testBit_mod_two_pow, Nat.testBit_shiftRight, Nat.div_add_mod]
      simp [Nat.mod_lt]
    rw [← shown first, ← shown second, bytes (bit / 8) (by omega)]
  · have large : 2 ^ 64 ≤ 2 ^ bit := Nat.pow_le_pow_right (by decide) (by omega)
    rw [Nat.testBit_lt_two_pow (small.trans_le large), Nat.testBit_lt_two_pow (small'.trans_le large)]

/-- Record numbers with one nonce are the same. -/
theorem buildNonce_injective {iv : Bytes} {first second : Nat} (small : first < 2 ^ 64)
    (small' : second < 2 ^ 64) (same : buildNonce iv first = buildNonce iv second) :
    first = second := by
  refine eq_of_bytes small small' fun index inside => ?_
  have entries := List.map_inj_left.mp same (11 - index) (List.mem_range.mpr (by omega))
  rw [if_neg (by omega), if_neg (by omega), UInt8.xor_right_inj] at entries
  have position : 11 - (11 - index) = index := by omega
  rwa [position] at entries

/-! ## Runs -/

section Runs

variable {crypto}

/-- The encryptions with the first record numbers. -/
def Direction.first (keys : Direction) (epoch : Epoch) (count : Nat) : List Encryption :=
  (List.range count).map fun seq => { keys with seq : Direction }.encryption epoch

/-- The counter counts the encryptions. -/
structure Client.Counts (client : Client) (front : List Encryption) (keys : Direction) : Prop where
  /-- Key and vector are the installed ones. -/
  send : client.send = { keys with seq := client.send.seq }
  /-- Behind the front stand the encryptions with the numbers below the counter. -/
  made : client.made = front ++ keys.first .application client.send.seq

/-- A record keeps the count. -/
theorem Client.Counts.record {client : Client} {front : List Encryption} {keys : Direction}
    (counts : client.Counts front keys) (contentType : UInt8) (data : Bytes) (going : Going) :
    (client.record crypto contentType data going).Counts front keys := by
  have moved (seq : Nat) : keys.first .application (seq + 1) =
      keys.first .application seq ++ [{ keys with seq : Direction }.encryption .application] := by
    rw [Direction.first, List.range_succ, List.map_append]
    rfl
  have advanced : client.made ++ [client.send.encryption .application] =
      front ++ keys.first .application (client.send.seq + 1) := by
    rw [moved, ← List.append_assoc, ← counts.made, ← counts.send]
  have next : { client.send with seq := client.send.seq + 1 } =
      { keys with seq := client.send.seq + 1 } := by rw [counts.send]
  cases going with
  | noMemory => exact ⟨counts.send, (List.append_nil _).trans counts.made⟩
  | refused => exact ⟨next, advanced⟩
  | sent => exact ⟨next, advanced⟩

/-- So does every call. -/
theorem Client.Counts.call {client : Client} {front : List Encryption} {keys : Direction}
    (counts : client.Counts front keys) (call : Call) :
    (client.call crypto call).Counts front keys := by
  cases call with
  | send data going =>
    rw [Client.call]
    split_ifs
    · exact counts
    · exact counts.record tlsApplicationData data going
  | recv len => exact ⟨counts.send, counts.made⟩

/-- So do successive calls. -/
theorem Client.Counts.calls {client : Client} {front : List Encryption} {keys : Direction}
    (counts : client.Counts front keys) (calls : List Call) :
    (client.calls crypto calls).Counts front keys := by
  induction calls generalizing client with
  | nil => exact counts
  | cons call calls ih => exact ih (counts.call call)

/-- A new connection has made none but those in front. -/
theorem Connection.counts {conn : Connection} (front : List Encryption) (zero : conn.send.seq = 0) :
    (conn.client front).Counts front conn.send := by
  refine ⟨rfl, ?_⟩
  have nothing : conn.send.first .application (conn.client front).send.seq = [] := by
    rw [show (conn.client front).send.seq = 0 from zero]
    rfl
  rw [nothing, List.append_nil]
  rfl

/-- The Finished is encrypted at most once, with the first number. -/
theorem finishedEncryption_first (crypto : Crypto Cert RsaKey) (platform : Platform) (noCert : Cert) (hostname input : Bytes)
    (finishing : Going) : ∃ handshake finished, finished ≤ 1 ∧
      finishedEncryption crypto platform noCert hostname input finishing =
        Direction.first handshake .handshake finished := by
  have nothing : ∃ handshake finished, finished ≤ 1 ∧
      [] = Direction.first handshake .handshake finished := ⟨⟨[], [], 0⟩, 0, Nat.zero_le 1, rfl⟩
  unfold finishedEncryption
  split
  · split
    · rename_i started _ _ _ _
      cases finishing with
      | noMemory => exact nothing
      | refused => exact ⟨trafficKeys crypto started.suite started.clientSecret, 1, Nat.le_refl 1, rfl⟩
      | sent => exact ⟨trafficKeys crypto started.suite started.clientSecret, 1, Nat.le_refl 1, rfl⟩
    · exact nothing
  · exact nothing

/-- The counter of a new connection is zero. -/
theorem cookbookTlsConnect_seq {platform : Platform} {noCert : Cert} {hostname input : Bytes}
    {conn : Connection}
    (connected : cookbookTlsConnect crypto platform noCert hostname input = .done (some conn)) :
    conn.send.seq = 0 := by
  obtain ⟨session, rfl⟩ := cookbookTlsConnect_session connected
  have finishes := session.finishes
  simp only [finishHandshake] at finishes
  split_ifs at finishes
  injection finishes with shape
  rw [← shape]
  rfl

/-- The encryptions of a run: the Finished, and then the records of the application keys. -/
theorem ConnectionRun.made_numbered (run : ConnectionRun) (crypto : Crypto Cert RsaKey)
    (platform : Platform) (noCert : Cert) (hostname input : Bytes) : ∃ handshake application : Direction, ∃ finished records,
      finished ≤ 1 ∧ run.made crypto platform noCert hostname input =
        handshake.first .handshake finished ++ application.first .application records := by
  have unused (front : List Encryption) : front = front ++ (⟨[], [], 0⟩ : Direction).first
    .application 0 := (List.append_nil front).symm
  obtain ⟨handshake, finished, once, front⟩ :=
    finishedEncryption_first crypto (run.platform platform) noCert hostname input run.finishing
  simp only [ConnectionRun.made, front]
  split
  · rename_i conn connected
    have opened := Connection.counts (handshake.first .handshake finished)
      (cookbookTlsConnect_seq connected)
    have called : ((conn.client (handshake.first .handshake finished)).calls crypto
        run.calls).Counts (handshake.first .handshake finished) conn.send := opened.calls run.calls
    split
    · exact ⟨handshake, conn.send, finished, _, once, called.made⟩
    · rename_i going _
      exact ⟨handshake, conn.send, finished, _, once, (called.record tlsAlert [1, 0] going).made⟩
  · exact ⟨handshake, ⟨[], [], 0⟩, finished, 0, once, unused _⟩

/-- Encryptions with numbers below 2^64 have different nonces. -/
theorem Direction.first_unique (keys : Direction) (epoch : Epoch) {count : Nat}
    (few : count ≤ 2 ^ 64) : (keys.first epoch count).Pairwise fun first second =>
      first.epoch = second.epoch → first.nonce ≠ second.nonce := by
  refine List.pairwise_map.mpr (List.pairwise_lt_range.imp_of_mem ?_)
  intro first second inside inside' earlier _ same
  rw [List.mem_range] at inside inside'
  exact earlier.ne (buildNonce_injective (by omega) (by omega) same)

/-- An encryption belongs to its installation. -/
theorem Direction.epoch_of_first {keys : Direction} {epoch : Epoch} {count : Nat}
    {encryption : Encryption} (member : encryption ∈ keys.first epoch count) :
    encryption.epoch = epoch := by
  obtain ⟨seq, -, rfl⟩ := List.mem_map.mp member
  rfl

end Runs

/-! ## The number of encryptions -/

/-- A record is one encryption at most. -/
theorem Client.record_length_le (client : Client) (contentType : UInt8) (data : Bytes)
    (going : Going) :
    (client.record crypto contentType data going).made.length ≤ client.made.length + 1 := by
  cases going <;> simp [Client.record, sendEncrypted]

/-- Successive calls make one encryption each at most. -/
theorem Client.calls_length_le (client : Client) (calls : List Call) :
    (client.calls crypto calls).made.length ≤ client.made.length + calls.length := by
  induction calls generalizing client with
  | nil => exact Nat.le_refl _
  | cons call calls ih =>
    have first : (client.call crypto call).made.length ≤ client.made.length + 1 := by
      cases call with
      | send data going =>
        rw [Client.call]
        split_ifs
        · exact Nat.le_succ _
        · exact client.record_length_le crypto tlsApplicationData data going
      | recv len => exact Nat.le_succ _
    have rest := ih (client.call crypto call)
    rw [List.length_cons]
    exact rest.trans (by omega)

/-- A run makes no more encryptions than it has calls, besides the Finished and the alert. -/
theorem ConnectionRun.made_length_le (run : ConnectionRun) (platform : Platform) (noCert : Cert)
    (hostname input : Bytes) :
    (run.made crypto platform noCert hostname input).length ≤ run.calls.length + 2 := by
  obtain ⟨handshake, finished, once, front⟩ :=
    finishedEncryption_first crypto (run.platform platform) noCert hostname input run.finishing
  have length : (handshake.first .handshake finished).length = finished := by
    simp [Direction.first]
  simp only [ConnectionRun.made, front]
  split
  · rename_i conn _
    have opened : (conn.client (handshake.first .handshake finished)).made.length = finished := length
    have called := (conn.client (handshake.first .handshake finished)).calls_length_le crypto run.calls
    split
    · omega
    · rename_i going _
      have closed := ((conn.client (handshake.first .handshake finished)).calls crypto
        run.calls).record_length_le crypto tlsAlert [1, 0] going
      rw [Client.close]
      omega
  · omega

/-! ## Nonces are used once -/

/-- In every run with fewer than 2^64 records, failed sends included, no nonce is used twice. -/
theorem connection_nonceDiscipline (run : ConnectionRun) (platform : Platform) (noCert : Cert)
    (hostname input : Bytes)
    (few : (run.made crypto platform noCert hostname input).length < 2 ^ 64) :
    NonceDiscipline (run.made crypto platform noCert hostname input) := by
  obtain ⟨handshake, application, finished, records, once, shape⟩ :=
    run.made_numbered crypto platform noCert hostname input
  rw [shape] at few ⊢
  have count : finished + records < 2 ^ 64 := by
    simpa [Direction.first] using few
  have unique : (handshake.first .handshake finished ++
      application.first .application records).Pairwise fun first second =>
        first.epoch = second.epoch → first.nonce ≠ second.nonce := by
    refine List.pairwise_append.mpr ⟨handshake.first_unique .handshake (by omega),
      application.first_unique .application (by omega), ?_⟩
    intro first member second member' same
    rw [Direction.epoch_of_first member, Direction.epoch_of_first member'] at same
    cases same
  refine ⟨fun _ _ _ => buildNonce_injective, ⟨handshake, application, finished, records, once, rfl⟩,
    unique, fun different => unique.imp_of_mem ?_⟩
  intro first second member member' separate sameKey
  refine separate ?_
  by_contra epochs
  exact different first member second member' epochs sameKey

/-- A connection on which one record is refused, a second one is sent and the end is announced. -/
theorem connection_nonceDiscipline_refused : ∃ (platform : Platform) (input : Bytes),
    (∃ conn, cookbookTlsConnect counting platform () [] input = .done (some conn)) ∧
      NonceDiscipline (ConnectionRun.made counting
        ⟨.sent, [.send [1] .refused, .recv 4, .send [1] .sent], some .sent⟩ platform () [] input) := by
  obtain ⟨hello, built⟩ : ∃ hello, buildClientHello [] (List.replicate 32 0)
      (List.replicate 32 0) (List.replicate 32 0) = .done hello := by
    rw [buildClientHello, if_neg]
    · exact ⟨_, rfl⟩
    · simp [clientExtensions, extension, putU16]
  have agreed : counting.x25519 (List.replicate 32 0) (List.replicate 32 0) =
      some (List.replicate 32 0) := rfl
  obtain ⟨conn, _, _, connected, -⟩ :=
    bareFlight_connects counting_correct List.length_replicate agreed built ()
  refine ⟨_, _, ⟨conn, connected⟩, connection_nonceDiscipline counting _ _ _ _ _ ?_⟩
  exact (ConnectionRun.made_length_le counting _ _ _ _ _).trans_lt (by decide)

end Cookbook.Tls
