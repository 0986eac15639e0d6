import Cookbook.Tls.Handshake

/-!
# Whom the client is connected to

A handshake authenticates its peer when a Certificate message is taken and the CertificateVerify
message behind it verifies under the certificate's key. The loop never asks for these messages: a
connection is authenticated exactly when the peer happened to send them, well formed and one behind
the other, before its Finished.
-/
namespace Cookbook.Tls

open Library.Text Library.Loop

variable {Cert RsaKey : Type} (crypto : Crypto Cert RsaKey) (platform : Platform)

/-! ## Flights -/

/-- A Certificate message with a number is taken: its lengths fit, its certificate is parsed, and
the trust store, if there is one, confirms it. -/
structure Takes (index : Nat) (msg : Bytes) (cert : Cert) : Prop where
  /-- The message is a Certificate. -/
  certificate : messageType msg = hsCertificate
  /-- The certificate in it is parsed and trusted. -/
  leaf : ∃ offset length, findLeaf (platform.message index msg) = some (offset, length) ∧
    crypto.x509Parse ((platform.message index msg).slice offset length) = some cert ∧
    ∀ verify, platform.caStore = some verify →
      verify (platform.now index) ((platform.message index msg).slice offset length) = some true

/-- A CertificateVerify message with a number passes the length checks. -/
structure Processable (index : Nat) (msg : Bytes) : Prop where
  /-- The message is a CertificateVerify. -/
  certVerify : messageType msg = hsCertVerify
  /-- Its lengths fit. -/
  lengths : verifyLengths (platform.message index msg) = true

/-- The messages contain a Certificate that is taken and, directly behind it, a CertificateVerify
that is processed. -/
def Presented (messages : List Bytes) : Prop :=
  ∃ before certificate certVerify after cert,
    messages = before ++ certificate :: certVerify :: after ∧
    Takes crypto platform before.length certificate cert ∧
    Processable platform (before.length + 1) certVerify

/-- The messages contain a Certificate that is taken and, directly behind it, a CertificateVerify
whose signature verifies under that certificate's key over the transcript up to and including the
Certificate. -/
def Authenticated (messages : List Bytes) : Prop :=
  ∃ before certificate certVerify after cert,
    messages = before ++ certificate :: certVerify :: after ∧
    Takes crypto platform before.length certificate cert ∧
    Processable platform (before.length + 1) certVerify ∧
    verifySignature crypto platform cert (platform.message (before.length + 1) certVerify)
      (transcriptHash crypto (before ++ [certificate])) = .done true

/-- The handshake messages that the record layer delivers, up to a Finished. -/
def readMessages (suite : Nat) : Nat → Direction → Bytes → List Bytes
  | 0, _, _ => []
  | rounds + 1, recv, input =>
    let received := tlsRecvRecord crypto suite recv true input
    match received.record with
    | none =>
      let clear := tlsRecvRecord crypto suite received.recv false received.input
      match clear.record with
      | none => []
      | some (mtype, _) =>
        if mtype = tlsChangeCipher then readMessages suite rounds clear.recv clear.input else []
    | some (mtype, msg) =>
      if mtype = tlsChangeCipher then readMessages suite rounds received.recv received.input
      else if mtype ≠ tlsHandshake ∨ msg.length < 4 then
        if mtype = tlsAlert then [] else readMessages suite rounds received.recv received.input
      else if messageType msg = hsFinished then [msg]
      else msg :: readMessages suite rounds received.recv received.input

/-- The handshake messages of a session: the hello messages and what the peer sends up to its
Finished. -/
def flight (noCert : Cert) (hostname input : Bytes) : List Bytes :=
  match startHandshake crypto platform noCert hostname input with
  | .done (some started) =>
    started.state.transcript ++ readMessages crypto started.suite (started.state.input.length + 1)
      started.state.recv started.state.input
  | _ => []

/-! ## One message -/

/-- Every Certificate and CertificateVerify that were processed one behind the other verify, and a
Certificate that was processed last is the one that is kept. -/
structure Checked (state : Handshake Cert) : Prop where
  /-- The pairs verify. -/
  verified : ∀ before certificate certVerify after cert,
    state.transcript = before ++ certificate :: certVerify :: after →
    Takes crypto platform before.length certificate cert →
    Processable platform (before.length + 1) certVerify →
    verifySignature crypto platform cert (platform.message (before.length + 1) certVerify)
      (transcriptHash crypto (before ++ [certificate])) = .done true
  /-- The last Certificate is kept. -/
  kept : ∀ before certificate cert, state.transcript = before ++ [certificate] →
    Takes crypto platform before.length certificate cert → state.certs = ⟨cert, true⟩

variable {crypto platform}

/-- Pairs in an extended transcript are older pairs, or end in the new message. -/
theorem pair_cases {transcript before after : List Bytes} {msg certificate certVerify : Bytes}
    (shape : transcript ++ [msg] = before ++ certificate :: certVerify :: after) :
    (∃ rest, transcript = before ++ certificate :: certVerify :: rest) ∨
      transcript = before ++ [certificate] ∧ certVerify = msg := by
  rcases List.eq_nil_or_concat after with rfl | ⟨rest, last, rfl⟩
  · right
    have split : transcript ++ [msg] = (before ++ [certificate]) ++ [certVerify] := by
      simpa using shape
    obtain ⟨same, new⟩ := List.append_inj' split rfl
    exact ⟨same, (List.cons.inj new).1.symm⟩
  · left
    have split : transcript ++ [msg] = (before ++ certificate :: certVerify :: rest) ++ [last] := by
      simpa using shape
    exact ⟨rest, (List.append_inj' split rfl).1⟩

/-- A message of another type keeps the pairs, and leaves no Certificate at the end. -/
theorem checked_other {state next : Handshake Cert} {msg : Bytes}
    (checked : Checked crypto platform state) (shape : next.transcript = state.transcript ++ [msg])
    (noCertificate : messageType msg ≠ hsCertificate)
    (noCertVerify : messageType msg ≠ hsCertVerify) : Checked crypto platform next where
  verified before certificate certVerify after cert split takes processable := by
    rcases pair_cases (shape ▸ split) with ⟨rest, older⟩ | ⟨_, rfl⟩
    · exact checked.verified before certificate certVerify rest cert older takes processable
    · exact absurd processable.certVerify noCertVerify
  kept before certificate cert split takes := by
    rw [shape] at split
    obtain ⟨-, same⟩ := List.append_inj' split rfl
    exact absurd ((List.cons.inj same).1 ▸ takes.certificate) noCertificate

/-- A Certificate that is processed without failure is the one that is kept, when it is taken. -/
theorem processCertificate_kept {index : Nat} {msg : Bytes} {certs next : CertState Cert}
    {cert : Cert} (takes : Takes crypto platform index msg cert)
    (processed : processCertificate crypto platform index (platform.message index msg) certs =
      some next) : next = ⟨cert, true⟩ := by
  obtain ⟨offset, length, found, parsed, trusted⟩ := takes.leaf
  have trusts : platform.trusts index ((platform.message index msg).slice offset length) = true := by
    unfold Platform.trusts
    split
    · rfl
    · rename_i verify store
      simp [trusted verify store]
  rw [processCertificate, found] at processed
  simp only [parsed, trusts] at processed
  by_cases expired : crypto.x509IsExpired cert (platform.now index) = true
  · simp only [expired, if_true] at processed
    cases processed
  · simp only [expired, if_true] at processed
    exact (Option.some.inj processed).symm

/-- What a processed message does to a handshake that goes on. -/
theorem processMessage_again {serverSecret : Bytes} {state next : Handshake Cert} {msg : Bytes}
    (again : processMessage crypto platform serverSecret state msg = .again next) :
    next.transcript = state.transcript ++ [msg] ∧ next.input = state.input ∧
      next.recv = state.recv ∧ messageType msg ≠ hsFinished ∧
      (messageType msg = hsCertificate → processCertificate crypto platform
        state.transcript.length (platform.message state.transcript.length msg) state.certs =
          some next.certs) ∧
      (messageType msg = hsCertVerify → next.certs = state.certs ∧ processCertVerify crypto platform
        (platform.message state.transcript.length msg) (transcriptHash crypto state.transcript)
          state.certs = .done true) := by
  by_cases certificate : messageType msg = hsCertificate
  · cases processed : processCertificate crypto platform state.transcript.length
        (platform.message state.transcript.length msg) state.certs with
    | none =>
      rw [processMessage_refused certificate processed] at again
      cases again
    | some certs =>
      rw [processMessage_taken certificate processed] at again
      cases again
      exact ⟨rfl, rfl, rfl, by rw [certificate]; decide, fun _ => rfl,
        fun verify => absurd (certificate.symm.trans verify) (by decide)⟩
  by_cases certVerify : messageType msg = hsCertVerify
  · rw [processMessage_onCertVerify certVerify] at again
    split at again
    · cases again
    · cases again
    · rename_i verified
      cases again
      exact ⟨rfl, rfl, rfl, by rw [certVerify]; decide, fun other => absurd other certificate,
        fun _ => ⟨rfl, verified⟩⟩
  by_cases finished : messageType msg = hsFinished
  · rw [processMessage_onFinished finished] at again
    split at again
    · cases again
    · cases again
  · rw [processMessage_onOther certificate certVerify finished] at again
    cases again
    exact ⟨rfl, rfl, rfl, finished, fun other => absurd other certificate,
      fun other => absurd other certVerify⟩

/-- A processed message keeps the checks. -/
theorem processMessage_checked {serverSecret : Bytes} {state next : Handshake Cert} {msg : Bytes}
    (checked : Checked crypto platform state)
    (again : processMessage crypto platform serverSecret state msg = .again next) :
    Checked crypto platform next := by
  obtain ⟨shape, _, _, _, taken, verified⟩ := processMessage_again again
  by_cases certificate : messageType msg = hsCertificate
  · refine ⟨?_, ?_⟩
    · intro before first second after cert split takes processable
      rcases pair_cases (shape ▸ split) with ⟨rest, older⟩ | ⟨_, rfl⟩
      · exact checked.verified before first second rest cert older takes processable
      · exact absurd (certificate.symm.trans processable.certVerify) (by decide)
    · intro before last cert split takes
      rw [shape] at split
      obtain ⟨same, new⟩ := List.append_inj' split rfl
      obtain rfl := (List.cons.inj new).1
      rw [← same] at takes
      exact processCertificate_kept takes (taken certificate)
  · by_cases certVerify : messageType msg = hsCertVerify
    · refine ⟨?_, ?_⟩
      · intro before first second after cert split takes processable
        rcases pair_cases (shape ▸ split) with ⟨rest, older⟩ | ⟨older, rfl⟩
        · exact checked.verified before first second rest cert older takes processable
        · have kept := checked.kept before first cert older takes
          have passed := (verified certVerify).2
          rw [kept, older, List.length_append, List.length_singleton, processCertVerify,
            if_neg (by simp [processable.lengths])] at passed
          exact passed
      · intro before last cert split takes
        rw [shape] at split
        obtain ⟨-, new⟩ := List.append_inj' split rfl
        exact absurd ((List.cons.inj new).1 ▸ takes.certificate) certificate
    · exact checked_other checked shape certificate certVerify

/-! ## One round -/

/-- A round that goes on skips a record, or processes a message. -/
theorem receiveRound_again {suite : Nat} {serverSecret : Bytes} {state next : Handshake Cert}
    (again : receiveRound crypto platform suite serverSecret state = .again next) :
    (next.transcript = state.transcript ∧ next.certs = state.certs ∧
      ∀ rounds, readMessages crypto suite (rounds + 1) state.recv state.input =
        readMessages crypto suite rounds next.recv next.input) ∨
    ∃ msg input recv, processMessage crypto platform serverSecret { state with input, recv } msg =
        .again next ∧
      ∀ rounds, readMessages crypto suite (rounds + 1) state.recv state.input =
        msg :: readMessages crypto suite rounds next.recv next.input := by
  simp only [receiveRound] at again
  split at again
  · rename_i broken
    split at again
    · cases again
    · rename_i mtype body clear
      split_ifs at again with change
      · cases again
        exact .inl ⟨rfl, rfl, fun rounds => by simp only [readMessages, broken, clear, change, if_true]⟩
      · cases again
  · rename_i mtype msg received
    split_ifs at again with change other alert
    · cases again
      exact .inl ⟨rfl, rfl, fun rounds => by simp only [readMessages, received, change, if_true]⟩
    · cases again
    · cases again
      exact .inl ⟨rfl, rfl, fun rounds => by
        simp only [readMessages, received, change, other, alert, if_true, if_false]⟩
    · obtain ⟨-, input, recv, unfinished, -, -⟩ := processMessage_again again
      refine .inr ⟨msg, _, _, again, fun rounds => ?_⟩
      simp only [readMessages, received, change, other, unfinished, if_false, input, recv]

/-- A handshake is accepted on a Finished message that matches, and which joins the transcript. -/
theorem processMessage_accepted {serverSecret : Bytes} {state final : Handshake Cert} {msg : Bytes}
    (accepted : processMessage crypto platform serverSecret state msg = .stop (.done (some final))) :
    messageType msg = hsFinished ∧ final = { state with transcript := state.transcript ++ [msg] } ∧
      finishedMatches (platform.message state.transcript.length msg)
        (finishedData crypto serverSecret (transcriptHash crypto state.transcript)) = true := by
  by_cases certificate : messageType msg = hsCertificate
  · cases processed : processCertificate crypto platform state.transcript.length
        (platform.message state.transcript.length msg) state.certs with
    | none =>
      rw [processMessage_refused certificate processed] at accepted
      cases accepted
    | some certs =>
      rw [processMessage_taken certificate processed] at accepted
      cases accepted
  by_cases certVerify : messageType msg = hsCertVerify
  · rw [processMessage_onCertVerify certVerify] at accepted
    split at accepted <;> cases accepted
  by_cases finished : messageType msg = hsFinished
  · rw [processMessage_onFinished finished] at accepted
    by_cases matched : finishedMatches (platform.message state.transcript.length msg)
        (finishedData crypto serverSecret (transcriptHash crypto state.transcript)) = true
    · rw [if_pos matched] at accepted
      cases accepted
      exact ⟨finished, rfl, matched⟩
    · rw [if_neg matched] at accepted
      cases accepted
  · rw [processMessage_onOther certificate certVerify finished] at accepted
    cases accepted

/-- The round that accepts processes a message behind which less is unread. -/
theorem receiveRound_stopped {suite : Nat} {serverSecret : Bytes} {state final : Handshake Cert}
    (stop : receiveRound crypto platform suite serverSecret state = .stop (.done (some final))) :
    ∃ msg input recv, processMessage crypto platform serverSecret { state with input, recv } msg =
        .stop (.done (some final)) ∧
      input.length < state.input.length := by
  have shrinks := tlsRecvRecord_shrinks crypto suite state.recv true state.input
  simp only [receiveRound] at stop
  split at stop
  · split at stop
    · cases stop
    · split_ifs at stop
      cases stop
  · rename_i mtype msg received
    split_ifs at stop
    · cases stop
    · exact ⟨msg, _, _, stop, shrinks (received ▸ Option.some_ne_none _)⟩

/-- The round that accepts reads a Finished message. -/
theorem receiveRound_accepted {suite : Nat} {serverSecret : Bytes} {state final : Handshake Cert}
    (accepted : receiveRound crypto platform suite serverSecret state = .stop (.done (some final))) :
    ∃ msg, messageType msg = hsFinished ∧ final.transcript = state.transcript ++ [msg] ∧
      ∀ rounds, readMessages crypto suite (rounds + 1) state.recv state.input = [msg] := by
  simp only [receiveRound] at accepted
  split at accepted
  · split at accepted
    · cases accepted
    · split_ifs at accepted
      cases accepted
  · rename_i mtype msg received
    split_ifs at accepted with change other alert
    · cases accepted
    · obtain ⟨finished, shape, -⟩ := processMessage_accepted accepted
      refine ⟨msg, finished, by rw [shape], fun rounds => ?_⟩
      simp only [readMessages, received, change, other, finished, if_true, if_false]

/-- A round that goes on keeps the checks. -/
theorem receiveRound_checked {suite : Nat} {serverSecret : Bytes} {state next : Handshake Cert}
    (checked : Checked crypto platform state)
    (again : receiveRound crypto platform suite serverSecret state = .again next) :
    Checked crypto platform next := by
  rcases receiveRound_again again with ⟨transcript, certs, -⟩ | ⟨msg, input, recv, processed, -⟩
  · exact ⟨transcript ▸ checked.verified, transcript ▸ certs ▸ checked.kept⟩
  · have read : Checked crypto platform { state with input, recv } :=
      ⟨checked.verified, checked.kept⟩
    exact processMessage_checked read processed

/-- A round that goes on read from the socket. -/
theorem receiveRound_shrinks {suite : Nat} {serverSecret : Bytes} {state next : Handshake Cert}
    (again : receiveRound crypto platform suite serverSecret state = .again next) :
    next.input.length < state.input.length := by
  have shrinks := tlsRecvRecord_shrinks crypto suite state.recv true state.input
  simp only [receiveRound] at again
  split at again
  · split at again
    · cases again
    · rename_i mtype body clear
      have clearShrinks := tlsRecvRecord_shrinks crypto suite _ false _ (clear ▸ Option.some_ne_none _)
      have still := tlsRecvRecord_input crypto suite state.recv true state.input
      split_ifs at again
      · cases again
        exact Nat.lt_of_lt_of_le clearShrinks still
      · cases again
  · rename_i mtype msg received
    have read := shrinks (received ▸ Option.some_ne_none _)
    split_ifs at again
    · cases again
      exact read
    · cases again
    · cases again
      exact read
    · obtain ⟨-, input, -⟩ := processMessage_again again
      rw [input]
      exact read

/-! ## All rounds -/

/-- More rounds than the socket has bytes change nothing. -/
theorem receiveHandshake_enough (platform : Platform) (suite : Nat) (serverSecret : Bytes)
    (state : Handshake Cert) (more : Nat) :
    loop (receiveRound crypto platform suite serverSecret) (.done none)
      (state.input.length + 1 + more) state =
        receiveHandshake crypto platform suite serverSecret state :=
  loop_enough (fun state : Handshake Cert => state.input.length)
    (fun _ _ => receiveRound_shrinks) _ more (Nat.lt_succ_self _)

/-- The checks hold of an accepted handshake. -/
theorem receiveHandshake_checked {suite : Nat} {serverSecret : Bytes}
    {state final : Handshake Cert} (checked : Checked crypto platform state)
    (accepted : receiveHandshake crypto platform suite serverSecret state = .done (some final)) :
    Checked crypto platform final := by
  have last : ∀ result, loop (receiveRound crypto platform suite serverSecret) (.done none)
      (state.input.length + 1) state = result → result = .done (some final) →
      Checked crypto platform final := by
    rintro result rfl
    refine loop_invariant (Checked crypto platform)
      (fun result => result = .done (some final) → Checked crypto platform final)
      (fun _ _ checked again => receiveRound_checked checked again) ?_ ?_ _ checked
    · rintro state _ checked stopped rfl
      obtain ⟨msg, finished, shape, -⟩ := receiveRound_accepted stopped
      exact checked_other checked shape (by rw [finished]; decide) (by rw [finished]; decide)
    · intro none
      cases none
  exact last _ rfl accepted

/-- The transcript of an accepted handshake grew by the messages that were read. -/
theorem receiveHandshake_transcript {suite : Nat} {serverSecret : Bytes} (rounds : Nat)
    {state final : Handshake Cert}
    (accepted : loop (receiveRound crypto platform suite serverSecret) (.done none) rounds state =
      .done (some final)) :
    final.transcript =
      state.transcript ++ readMessages crypto suite rounds state.recv state.input := by
  induction rounds generalizing state with
  | zero => cases accepted
  | succ rounds ih =>
    rw [loop_succ] at accepted
    split at accepted
    · rename_i next again
      rw [ih accepted]
      rcases receiveRound_again again with ⟨transcript, -, read⟩ | ⟨msg, input, recv, processed, read⟩
      · rw [read, transcript]
      · rw [read, (processMessage_again processed).1, List.append_assoc, List.singleton_append]
    · rename_i result stopped
      subst accepted
      obtain ⟨msg, -, shape, read⟩ := receiveRound_accepted stopped
      rw [shape, read]

/-! ## The session -/

/-- A ClientHello has its type. -/
theorem buildClientHello_type {hostname keyShare random32 sessionId hello : Bytes}
    (built : buildClientHello hostname keyShare random32 sessionId = .done hello) :
    messageType hello = 1 := by
  simp only [buildClientHello] at built
  split_ifs at built
  cases built
  rfl

/-- A ServerHello that was read has its type. -/
theorem readServerHello_type {record : Region} {found : Nat × Bytes}
    (read : readServerHello record = some found) : messageType record.bytes = 2 := by
  have long : 4 ≤ record.bytes.length ∧ record.get 0 = 2 := by
    by_contra other
    have refused : readServerHello record = none := if_pos (by grind)
    rw [refused] at read
    cases read
  obtain ⟨_ | ⟨first, rest⟩, beyond⟩ := record
  · exact absurd long.1 (Nat.not_succ_le_zero 3)
  · exact long.2

/-- The transcript starts with a ClientHello and a ServerHello. -/
theorem startHandshake_hellos {noCert : Cert} {hostname input : Bytes} {started : Started Cert}
    (start : startHandshake crypto platform noCert hostname input = .done (some started)) :
    ∃ hello sh, started.state.transcript = [hello, sh] ∧ messageType hello = 1 ∧
      messageType sh = 2 := by
  obtain ⟨_, _, hello, shRec, _, _, _, _, _, built, read, _, rfl⟩ := startHandshake_shape crypto start
  exact ⟨hello, shRec, rfl, buildClientHello_type built, readServerHello_type read⟩

/-- Nothing is to be checked on the hello messages. -/
theorem startHandshake_checked {noCert : Cert} {hostname input : Bytes} {started : Started Cert}
    (start : startHandshake crypto platform noCert hostname input = .done (some started)) :
    Checked crypto platform started.state := by
  obtain ⟨hello, sh, transcript, helloType, shType⟩ := startHandshake_hellos start
  refine ⟨?_, ?_⟩
  · intro before certificate certVerify after cert split takes processable
    rw [transcript] at split
    rcases before with _ | ⟨first, before⟩
    · obtain rfl := (List.cons.inj split).1
      exact absurd (helloType.symm.trans takes.certificate) (by decide)
    · have short := congrArg List.length split
      simp only [List.length_cons, List.length_nil, List.length_append] at short
      omega
  · intro before certificate cert split takes
    rw [transcript] at split
    have same := (List.append_inj' (show [hello] ++ [_] = _ from split) rfl).2
    obtain rfl := (List.cons.inj same).1
    exact absurd (shType.symm.trans takes.certificate) (by decide)

/-- A connection belongs to an accepted handshake, whose transcript it extends by the client's
Finished. -/
theorem cookbookTlsConnect_accepted {noCert : Cert} {hostname input : Bytes} {conn : Connection}
    (connected : cookbookTlsConnect crypto platform noCert hostname input = .done (some conn)) :
    ∃ started final finMsg,
      startHandshake crypto platform noCert hostname input = .done (some started) ∧
      receiveHandshake crypto platform started.suite started.serverSecret started.state =
        .done (some final) ∧
      messageType finMsg = hsFinished ∧ conn.transcript = final.transcript ++ [finMsg] := by
  rcases start : startHandshake crypto platform noCert hostname input with (_ | started) | _
  · simp [cookbookTlsConnect, start] at connected
  · simp only [cookbookTlsConnect, start, Outcome.bind_done] at connected
    rcases receive : receiveHandshake crypto platform started.suite started.serverSecret
      started.state with (_ | final) | _
    · simp [receive] at connected
    · simp only [receive, Outcome.bind_done, Option.bind_some, finishHandshake] at connected
      split_ifs at connected with unsent
      · cases connected
      · cases connected
        exact ⟨started, final, _, rfl, receive, rfl, rfl⟩
    · simp [receive] at connected
  · simp [cookbookTlsConnect, start] at connected

/-- On a connection, a Certificate with a CertificateVerify behind it was presented exactly when
they authenticate the peer. -/
theorem authenticated_iff_presented {noCert : Cert} {hostname input : Bytes} {conn : Connection}
    (connected : cookbookTlsConnect crypto platform noCert hostname input = .done (some conn)) :
    Authenticated crypto platform conn.transcript ↔
      Presented crypto platform (flight crypto platform noCert hostname input) := by
  obtain ⟨started, final, finMsg, start, receive, finType, shape⟩ :=
    cookbookTlsConnect_accepted connected
  have checked := receiveHandshake_checked (startHandshake_checked start) receive
  have whole : flight crypto platform noCert hostname input = final.transcript := by
    rw [flight, start, receiveHandshake_transcript _ receive]
  rw [whole]
  constructor
  · rintro ⟨before, certificate, certVerify, after, cert, split, takes, processable, -⟩
    rw [shape] at split
    rcases pair_cases split with ⟨rest, older⟩ | ⟨-, rfl⟩
    · exact ⟨before, certificate, certVerify, rest, cert, older, takes, processable⟩
    · exact absurd (finType.symm.trans processable.certVerify) (by decide)
  · rintro ⟨before, certificate, certVerify, after, cert, split, takes, processable⟩
    refine ⟨before, certificate, certVerify, after ++ [finMsg], cert, ?_, takes, processable,
      checked.verified before certificate certVerify after cert split takes processable⟩
    rw [shape, split, List.append_assoc, List.cons_append, List.cons_append]

/-! ## A peer that signs -/

/-- The body of a ServerHello in front of the key share: version, random, no session identifier,
AES-128-GCM, no compression and the extension of 36 bytes. -/
def serverHelloFront : Bytes :=
  [3, 3] ++ List.replicate 32 0 ++ [0, 19, 1, 0, 0, 40, 0, 51, 0, 36, 0, 29, 0, 32]

/-- A ServerHello with a key share. -/
def serverHello (share : Bytes) : Bytes := [2, 0, 0, 80] ++ (serverHelloFront ++ share)

/-- A Certificate message with a certificate of one byte. -/
def certificateMessage : Bytes := [11, 0, 0, 8, 0, 0, 0, 4, 0, 0, 1, 0x30]

/-- A CertificateVerify message with an Ed25519 signature. -/
def certVerifyMessage : Bytes := [15, 0, 0, 68, 8, 7, 0, 64] ++ List.replicate 64 0

/-- Primitives without any secrecy under which every certificate has a key of zeros and every
signature verifies. -/
def signing : Crypto Unit Unit :=
  { loopback with
    x509Pubkey := fun _ => ⟨List.replicate 32 0, fun _ => 0⟩
    ed25519Verify := fun _ _ _ => true }

/-- A client with a trust store that trusts everybody, and a socket that sends. -/
def credulous : Platform where
  caStore := some fun _ _ => some true
  now _ := 0
  beyond _ _ := 0
  stale := ([], [])
  helloSent := true
  finishedSent := true
  ephemeral := some (List.replicate 32 0, List.replicate 32 0)
  random32 := List.replicate 32 0
  sessionId := List.replicate 32 0

/-- The ServerHello in the clear, and records with a Certificate, a CertificateVerify and a Finished. -/
def signedInput : Bytes :=
  let keys := trafficKeys signing tlsAes128GcmSha256 (List.replicate 32 0)
  (tlsSendRecord signing 0 ⟨[], [], 0⟩ tlsHandshake (serverHello (List.replicate 32 0)) false).1 ++
    [certificateMessage, certVerifyMessage, [20, 0, 0, 32] ++ List.replicate 32 0].flatMap
      fun msg => (tlsSendRecord signing tlsAes128GcmSha256 keys tlsHandshake msg true).1

/-- The client connects to a peer that signs, which is authenticated. -/
theorem authenticated_iff_presented_signed : ∃ conn,
    cookbookTlsConnect signing credulous () [] signedInput = .done (some conn) ∧
      Authenticated signing credulous conn.transcript := by
  have messages : (flight signing credulous () [] signedInput).drop 2 =
      [certificateMessage, certVerifyMessage, [20, 0, 0, 32] ++ List.replicate 32 0] := by
    decide +kernel
  have accepted : (cookbookTlsConnect signing credulous () [] signedInput).bind
      (fun conn => .done conn.isSome) = .done true := by decide +kernel
  obtain ⟨found, connected, present⟩ := bind_eq_done accepted
  obtain ⟨conn, rfl⟩ := Option.isSome_iff_exists.mp (Outcome.done.inj present)
  refine ⟨conn, connected, (authenticated_iff_presented connected).mpr ?_⟩
  have hellos : ((flight signing credulous () [] signedInput).take 2).length = 2 := by decide +kernel
  refine ⟨(flight signing credulous () [] signedInput).take 2, certificateMessage, certVerifyMessage,
    [[20, 0, 0, 32] ++ List.replicate 32 0], (), ?_, ⟨rfl, 11, 1, ?_, rfl, ?_⟩, ⟨rfl, ?_⟩⟩
  · rw [← messages, List.take_append_drop]
  · decide +kernel
  · intro verify same
    cases same
    rfl
  · decide +kernel

end Cookbook.Tls
