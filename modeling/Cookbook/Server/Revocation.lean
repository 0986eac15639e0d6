import Cookbook.Auth.TermsSurvive
import Cookbook.Server.Requests

/-!
# Revoked tokens

A token that is revoked is listed in memory and stored in the database; a restart loads the stored
ones again. Both are pruned by the token's expiry: an entry is dropped at the second of its expiry,
while the verification accepts a token up to and including that second, and forever when its expiry
is not positive. A revoked token is refused in every run whose steps drop no such entry.
-/
namespace Cookbook.Server

open Library.Text Library.Program Auth

/-! ## Revocation requests -/

/-- The token of a request body, or the answer where there is none. -/
def tokenField (body : Bytes) : Except Reply Bytes :=
  match strstr (ascii "\"token\":\"") body with
  | none => .error (sendError 400 "Missing 'token' field")
  | some start =>
    match strchr quote (start.drop 9) with
    | none => .error (sendError 400 "Malformed token field")
    | some _ => .ok ((start.drop 9).takeWhile (· != quote))

/-- The part of `handle_auth_revoke` behind the verification of the token. -/
def revokeClaims (claims : JwtClaims) : Handler Reply :=
  if claims.jti = [] then .done (sendError 400 "Token has no jti claim (pre-revocation era)")
  else
    (Handler.revocationAdd claims.jti claims.exp).bind fun listed =>
      if listed = false then .done (sendError 507 "Revocation list full")
      else
        utcNow.bind fun now =>
        (Handler.exec (.insertRevocation ⟨claims.jti, claims.sub, now, claims.exp⟩)).bind fun _ =>
          .done (sendJson 200 (jsonLine "status" (ascii "revoked")))

/-- The part of `handle_auth_revoke` behind the body. -/
def revokeToken (config : Config) (token : Bytes) : Handler Reply :=
  Handler.time.bind fun now =>
    match jwtVerify config.verify now token with
    | none => .done (sendError 401 "Invalid or expired token")
    | some claims => revokeClaims claims

/-- `handle_auth_revoke` -/
def handleAuthRevoke (config : Config) (request : Request) : Handler Reply :=
  if request.method ≠ ascii "POST" then .done (sendError 405 "Method not allowed")
  else if config.hasRegistryKey = false then .done (sendError 503 "Auth not configured")
  else
    match readBody request 16384 with
    | none => .done (sendError 400 "Body required with 'token' field")
    | some body =>
      match tokenField (bodyString request body) with
      | .error reply => .done reply
      | .ok token => revokeToken config token

/-- The token that a request asks to revoke. -/
def revokedToken (request : Request) : Option Bytes :=
  (readBody request 16384).bind fun body => (tokenField (bodyString request body)).toOption

/-! ## Start of the process -/

/-- `revoke_load_cb` -/
def revokeLoadCb (row : Row) : Handler Unit :=
  match row with
  | some jti :: some exp :: _ => (Handler.revocationAdd jti (strtoll exp)).bind fun _ => .done ()
  | _ => .done ()

/-- The callback on every row. -/
def loadRevocations : List Row → Handler Unit
  | [] => .done ()
  | row :: rows => (revokeLoadCb row).bind fun _ => loadRevocations rows

/-- The rows that have expired leave the table. -/
def purgeStored (now : Int) : Handler Unit :=
  (Handler.exec (.purgeRevocations now)).bind fun _ => .done ()

/-- The part of `cookbook_server_start` that loads the revocations. -/
def startRevocations : Handler Unit :=
  Handler.time.bind fun now =>
  (Prog.perform (Op.revocations now)).bind fun rows =>
  (loadRevocations rows).bind fun _ => purgeStored now

/-- The stored revocations that expire later than the time at which a new process reads them. -/
def unexpired (world : World) (state : State) : List RevocationRow :=
  state.db.revocations.filter fun row => decide (world.time state.ticks < row.expiresAt)

/-- The tick at which a new process is ready: it reads the time and the rows, adds one by one, and
purges the table. -/
def readyTick (world : World) (state : State) : Nat :=
  state.ticks + 3 + (unexpired world state).length

/-- A new process: what the old one kept in memory is lost. -/
def restarted (state : State) : State := { state with revoked := [], buckets := [] }

/-! ## The list -/

section List

variable {revoked : List (Bytes × Int)} {now exp : Int} {jti : Bytes} {entry : Bytes × Int}

/-- An entry is kept while its expiry lies in the future. -/
theorem mem_revocationPrune :
    entry ∈ revocationPrune revoked now ↔ entry ∈ revoked ∧ now < entry.2 := by
  simp [revocationPrune]

/-- What an addition does to the list. -/
theorem addRevocation_cases (revoked : List (Bytes × Int)) (now : Int) (jti : Bytes) (exp : Int) :
    (∃ entry ∈ revocationPrune revoked now, entry.1 = jti) ∧
        addRevocation revoked now jti exp = (true, revocationPrune revoked now) ∨
      (∀ entry ∈ revocationPrune revoked now, entry.1 ≠ jti) ∧
        4096 ≤ (revocationPrune revoked now).length ∧
        addRevocation revoked now jti exp = (false, revocationPrune revoked now) ∨
      (∀ entry ∈ revocationPrune revoked now, entry.1 ≠ jti) ∧
        (revocationPrune revoked now).length < 4096 ∧
        addRevocation revoked now jti exp =
          (true, revocationPrune revoked now ++ [(jti.take 63, exp)]) := by
  rw [addRevocation]
  by_cases known : (revocationPrune revoked now).any (·.1 == jti) = true
  · left
    obtain ⟨entry, member, same⟩ := List.any_eq_true.mp known
    exact ⟨⟨entry, member, eq_of_beq same⟩, if_pos known⟩
  · have new : ∀ entry ∈ revocationPrune revoked now, entry.1 ≠ jti := by
      intro entry member same
      exact known (List.any_eq_true.mpr ⟨entry, member, beq_of_eq same⟩)
    right
    by_cases full : 4096 ≤ (revocationPrune revoked now).length
    · left
      exact ⟨new, full, by rw [if_neg known, if_pos full]⟩
    · right
      exact ⟨new, Nat.not_le.mp full, by rw [if_neg known, if_neg full]⟩

/-- Pruning makes the list no longer. -/
theorem revocationPrune_length (revoked : List (Bytes × Int)) (now : Int) :
    (revocationPrune revoked now).length ≤ revoked.length := List.length_filter_le _ _

/-- An entry that expires later is kept by an addition. -/
theorem addRevocation_keeps (jti : Bytes) (exp : Int) (member : entry ∈ revoked)
    (later : now < entry.2) : entry ∈ (addRevocation revoked now jti exp).2 := by
  have kept : entry ∈ revocationPrune revoked now := mem_revocationPrune.mpr ⟨member, later⟩
  rcases addRevocation_cases revoked now jti exp with ⟨-, same⟩ | ⟨-, -, same⟩ | ⟨-, -, same⟩
  · rw [same]
    exact kept
  · rw [same]
    exact kept
  · rw [same]
    exact List.mem_append_left _ kept

/-- What is listed behind an addition was listed before, or is new. -/
theorem addRevocation_origin (member : entry ∈ (addRevocation revoked now jti exp).2) :
    entry ∈ revoked ∨ (addRevocation revoked now jti exp).1 = true ∧ entry = (jti.take 63, exp) := by
  rcases addRevocation_cases revoked now jti exp with ⟨-, same⟩ | ⟨-, -, same⟩ | ⟨-, -, same⟩
  · rw [same] at member
    exact .inl (mem_revocationPrune.mp member).1
  · rw [same] at member
    exact .inl (mem_revocationPrune.mp member).1
  · rw [same] at member ⊢
    cases List.mem_append.mp member with
    | inl kept => exact .inl (mem_revocationPrune.mp kept).1
    | inr new => exact .inr ⟨rfl, List.mem_singleton.mp new⟩

/-- An addition makes the list one entry longer at most, and never longer than 4096. -/
theorem addRevocation_length (small : revoked.length ≤ 4096) :
    (addRevocation revoked now jti exp).2.length ≤ 4096 ∧
      (addRevocation revoked now jti exp).2.length ≤ revoked.length + 1 := by
  have pruned := revocationPrune_length revoked now
  rcases addRevocation_cases revoked now jti exp with ⟨-, same⟩ | ⟨-, -, same⟩ | ⟨-, room, same⟩
  · rw [same]
    exact ⟨Nat.le_trans pruned small, Nat.le_succ_of_le pruned⟩
  · rw [same]
    exact ⟨Nat.le_trans pruned small, Nat.le_succ_of_le pruned⟩
  · rw [same, List.length_append, List.length_singleton]
    omega

/-- An identifier that is confirmed is listed. -/
theorem addRevocation_listed (short : jti.length ≤ 63)
    (added : (addRevocation revoked now jti exp).1 = true) :
    ∃ entry ∈ (addRevocation revoked now jti exp).2, entry.1 = jti := by
  rcases addRevocation_cases revoked now jti exp with ⟨known, same⟩ | ⟨-, -, same⟩ | ⟨-, -, same⟩
  · rw [same]
    exact known
  · rw [same] at added
    cases added
  · rw [same]
    exact ⟨(jti.take 63, exp), by simp, List.take_of_length_le short⟩

/-- An identifier that is new is listed with its expiry, when it is confirmed. -/
theorem addRevocation_new (short : jti.length ≤ 63) (new : ∀ entry ∈ revoked, entry.1 ≠ jti)
    (added : (addRevocation revoked now jti exp).1 = true) :
    (jti, exp) ∈ (addRevocation revoked now jti exp).2 := by
  rcases addRevocation_cases revoked now jti exp with ⟨known, -⟩ | ⟨-, -, same⟩ | ⟨-, -, same⟩
  · obtain ⟨entry, member, same⟩ := known
    exact absurd same (new entry (mem_revocationPrune.mp member).1)
  · rw [same] at added
    cases added
  · rw [same, List.take_of_length_le short]
    simp

/-- With room in the list every identifier is confirmed. -/
theorem addRevocation_room (jti : Bytes) (exp : Int) (room : revoked.length < 4096) :
    (addRevocation revoked now jti exp).1 = true := by
  have pruned := revocationPrune_length revoked now
  rcases addRevocation_cases revoked now jti exp with ⟨-, same⟩ | ⟨-, full, -⟩ | ⟨-, -, same⟩
  · rw [same]
  · omega
  · rw [same]

/-- An identifier that is refused was not listed, and no entry was dropped. -/
theorem addRevocation_refused (small : revoked.length ≤ 4096)
    (refused : (addRevocation revoked now jti exp).1 = false) :
    (addRevocation revoked now jti exp).2 = revoked ∧ ∀ entry ∈ revoked, entry.1 ≠ jti := by
  rcases addRevocation_cases revoked now jti exp with ⟨-, same⟩ | ⟨new, full, same⟩ | ⟨-, -, same⟩
  · rw [same] at refused
    cases refused
  · have pruned := revocationPrune_length revoked now
    have whole : revocationPrune revoked now = revoked :=
      List.filter_eq_self.mpr (List.length_filter_eq_length_iff.mp
        (show (revocationPrune revoked now).length = revoked.length by omega))
    rw [same, whole]
    rw [whole] at new
    exact ⟨rfl, new⟩
  · rw [same] at refused
    cases refused

end List

/-! ## Claims -/

/-- The verification of a token accepts the same claims until they expire. -/
theorem jwtVerify_later {verify : Bytes → Bytes → Bool} {now : Int} {token : Bytes}
    {claims : JwtClaims} (accepted : jwtVerify verify now token = some claims) (later : Int) :
    jwtVerify verify later token = acceptClaims later claims := by
  unfold jwtVerify at accepted ⊢
  cases first : strchr dot token with
  | none =>
    rw [first] at accepted
    cases accepted
  | some dot1 =>
    simp only [first] at accepted ⊢
    cases second : strchr dot (dot1.drop 1) with
    | none =>
      rw [second] at accepted
      cases accepted
    | some dot2 =>
      simp only [second] at accepted ⊢
      split_ifs at accepted ⊢ with short unsigned empty
      have same : readClaims (cString (base64urlDecode
          ((dot1.drop 1).take ((dot1.drop 1).length - dot2.length)) 4095)) = claims := by
        unfold acceptClaims at accepted
        split_ifs at accepted
        exact Option.some.inj accepted
      rw [same]

/-- The claims that are accepted are the ones that are read. -/
theorem jwtVerify_read {verify : Bytes → Bytes → Bool} {now : Int} {token : Bytes}
    {claims : JwtClaims} (accepted : jwtVerify verify now token = some claims) :
    ∃ payload, claims = readClaims payload := by
  unfold jwtVerify at accepted
  cases first : strchr dot token with
  | none =>
    rw [first] at accepted
    cases accepted
  | some dot1 =>
    simp only [first] at accepted
    cases second : strchr dot (dot1.drop 1) with
    | none =>
      rw [second] at accepted
      cases accepted
    | some dot2 =>
      simp only [second] at accepted
      split_ifs at accepted
      unfold acceptClaims at accepted
      split_ifs at accepted
      exact ⟨_, (Option.some.inj accepted).symm⟩

/-- Claims that are accepted later are accepted now. -/
theorem acceptClaims_earlier {now later : Int} {claims : JwtClaims} (order : now ≤ later)
    (accepted : acceptClaims later claims = some claims) :
    acceptClaims now claims = some claims := by
  unfold acceptClaims at accepted ⊢
  split_ifs at accepted with expired
  rw [if_neg]
  intro early
  exact expired ⟨early.1, Int.lt_of_lt_of_le early.2 order⟩

/-- An identifier that was read fits a list entry. -/
theorem readClaims_jti (payload : Bytes) : (readClaims payload).jti.length ≤ 63 := by
  unfold readClaims jsonGetString
  simp only
  split
  · simp
  · split
    · simp
    · exact List.length_take_le _ _

/-- A number that is read lies in the 64-bit range. -/
theorem strtoll_bounds (text : Bytes) :
    -9223372036854775808 ≤ strtoll text ∧ strtoll text < 9223372036854775808 := by
  unfold strtoll
  simp only
  split_ifs
  · omega
  · omega

/-- So does an expiry. -/
theorem readClaims_exp (payload : Bytes) : -9223372036854775808 ≤ (readClaims payload).exp ∧
    (readClaims payload).exp < 9223372036854775808 := by
  have expiry : (readClaims payload).exp = (jsonGetInt payload (ascii "exp")).getD 0 := rfl
  rw [expiry, jsonGetInt]
  cases strstr (memberName (ascii "exp")) payload with
  | none => decide
  | some start => exact strtoll_bounds _

/-! ## Single steps -/

variable {config : Config} {world : World}

/-- The database that is reliable and the clock that does not go back. -/
structure World.Steady (world : World) : Prop where
  /-- Statements and queries succeed. -/
  reliable : ∀ tick, world.dbFails tick = false
  /-- The clock does not go back. -/
  forward : ∀ tick later, tick ≤ later → world.time tick ≤ world.time later

/-- The rows behind the insertion of a revocation that is not stored yet. -/
def storeRevocation (rows : List RevocationRow) (row : RevocationRow) : List RevocationRow :=
  if rows.any (·.jti == row.jti) then rows else rows ++ [row]

/-- What a revocation with an identifier does from a state to a state: the identifier is added to the
list at a time, and stored when it is listed. -/
structure Revokes (claims : JwtClaims) (now : Int) (before after : State) (reply : Reply) : Prop where
  /-- The list. -/
  listed : after.revoked = (addRevocation before.revoked now claims.jti claims.exp).2
  /-- The answer and the database. -/
  answered : (addRevocation before.revoked now claims.jti claims.exp).1 = false ∧
      reply.status ≠ 200 ∧ after.db = before.db ∨
    (addRevocation before.revoked now claims.jti claims.exp).1 = true ∧ reply.status = 200 ∧
      ∃ revokedAt, after.db.revocations = storeRevocation before.db.revocations
        ⟨claims.jti, claims.sub, revokedAt, claims.exp⟩

/-- The revocation of claims with an identifier. -/
theorem revokeClaims_run (steady : world.Steady) {claims : JwtClaims} (named : claims.jti ≠ [])
    (state : State) :
    let run := world.machine.run (revokeClaims claims) state
    state.ticks + 1 ≤ run.state.ticks ∧
      Revokes claims (world.time state.ticks) state run.state run.value := by
  intro run
  have program : revokeClaims claims = _ := if_neg named
  cases listed : (addRevocation state.revoked (world.time state.ticks) claims.jti claims.exp).1 with
  | false =>
    simp only [run, program, Handler.revocationAdd, Prog.perform_bind, Machine.run_call_state,
      Machine.run_call_value, World.machine, World.apply, listed, if_true, Machine.run_done]
    exact ⟨Nat.le_refl _, rfl, .inl ⟨listed, by decide, rfl⟩⟩
  | true =>
    simp only [run, program, Handler.revocationAdd, Prog.perform_bind, Machine.run_call_state,
      Machine.run_call_value, World.machine, World.apply, listed, Bool.true_eq_false, if_false,
      utcNow, Handler.time, Handler.exec, Prog.call_bind, Prog.done_bind, Machine.run_done,
      steady.reliable, Database.exec]
    by_cases stored : state.db.revocations.any (·.jti == claims.jti) = true
    · simp only [if_pos stored, Bool.false_eq_true, if_false]
      refine ⟨by omega, rfl, .inr ⟨listed, rfl, utcText (world.time (state.ticks + 1)), ?_⟩⟩
      exact (if_pos stored).symm
    · simp only [if_neg stored, Bool.false_eq_true, if_false]
      refine ⟨by omega, rfl, .inr ⟨listed, rfl, utcText (world.time (state.ticks + 1)), ?_⟩⟩
      exact (if_neg stored).symm

/-- A revocation request is refused before its token is verified, or it brings a token. -/
theorem handleAuthRevoke_cases (config : Config) (request : Request) :
    (∃ reply, reply.status ≠ 200 ∧ handleAuthRevoke config request = .done reply) ∨
      ∃ token, revokedToken request = some token ∧
        handleAuthRevoke config request = revokeToken config token := by
  by_cases post : request.method ≠ ascii "POST"
  · exact .inl ⟨_, by decide, if_pos post⟩
  by_cases keyless : config.hasRegistryKey = false
  · exact .inl ⟨sendError 503 "Auth not configured", by decide,
      by rw [handleAuthRevoke, if_neg post, if_pos keyless]⟩
  cases read : readBody request 16384 with
  | none =>
    exact .inl ⟨sendError 400 "Body required with 'token' field", by decide,
      by rw [handleAuthRevoke, if_neg post, if_neg keyless, read]⟩
  | some body =>
    cases field : tokenField (bodyString request body) with
    | error reply =>
      have other : reply.status ≠ 200 := by
        unfold tokenField at field
        split at field
        · cases field
          decide
        · split at field
          · cases field
            decide
          · cases field
      left
      refine ⟨reply, other, ?_⟩
      rw [handleAuthRevoke, if_neg post, if_neg keyless, read]
      simp only [field]
    | ok token =>
      right
      refine ⟨token, ?_, ?_⟩
      · simp only [revokedToken, read, Option.bind_some, field]
        rfl
      · rw [handleAuthRevoke, if_neg post, if_neg keyless, read]
        simp only [field]

/-- What a revocation request does: nothing, or its token is verified and revoked. -/
theorem handleAuthRevoke_run (steady : world.Steady) (request : Request) (state : State) :
    let run := world.machine.run (handleAuthRevoke config request) state
    state.ticks ≤ run.state.ticks ∧
    ((run.value.status ≠ 200 ∧ run.state.revoked = state.revoked ∧ run.state.db = state.db) ∨
      ∃ token claims, revokedToken request = some token ∧
        jwtVerify config.verify (world.time state.ticks) token = some claims ∧ claims.jti ≠ [] ∧
        state.ticks + 2 ≤ run.state.ticks ∧
        Revokes claims (world.time (state.ticks + 1)) state run.state run.value) := by
  intro run
  cases handleAuthRevoke_cases config request with
  | inl refused =>
    obtain ⟨reply, other, program⟩ := refused
    simp only [run, program, Machine.run_done]
    exact ⟨Nat.le_refl _, .inl ⟨other, trivial, trivial⟩⟩
  | inr brings =>
    obtain ⟨token, asked, program⟩ := brings
    simp only [run, program, revokeToken, Handler.time, Prog.perform_bind, Machine.run_call_state,
      Machine.run_call_value, World.machine, World.apply]
    cases verified : jwtVerify config.verify (world.time state.ticks) token with
    | none =>
      simp only [Machine.run_done]
      exact ⟨Nat.le_succ _, .inl ⟨by decide, trivial, trivial⟩⟩
    | some claims =>
      by_cases anonymous : claims.jti = []
      · simp only [revokeClaims, if_pos anonymous, Machine.run_done]
        exact ⟨Nat.le_succ _, .inl ⟨by decide, trivial, trivial⟩⟩
      · have revokes := revokeClaims_run steady anonymous { state with ticks := state.ticks + 1 }
        have later : state.ticks + 1 + 1 ≤ _ := revokes.1
        exact ⟨Nat.le_trans (by omega) later, .inr ⟨token, claims, asked, verified, anonymous, later,
          ⟨revokes.2.listed, revokes.2.answered⟩⟩⟩

/-! ## Restarts -/

/-- A stored revocation as the query hands it out. -/
def RevocationRow.answer (row : RevocationRow) : Row := [some row.jti, some (decimal row.expiresAt)]

/-- The entry of a stored revocation. -/
def RevocationRow.entry (row : RevocationRow) : Bytes × Int := (row.jti, row.expiresAt)

/-- A stored revocation fits a list entry and the 64-bit range. -/
structure RevocationRow.Fits (row : RevocationRow) : Prop where
  /-- The identifier has at most 63 characters. -/
  short : row.jti.length ≤ 63
  /-- The expiry is not too low. -/
  low : -9223372036854775808 ≤ row.expiresAt
  /-- Nor too high. -/
  high : row.expiresAt < 9223372036854775808

/-- One stored revocation is loaded. -/
theorem revokeLoadCb_run (world : World) {row : RevocationRow} (fits : row.Fits) (state : State) :
    (world.machine.run (revokeLoadCb row.answer) state).state =
      { state with
        revoked := (addRevocation state.revoked (world.time state.ticks) row.jti row.expiresAt).2
        ticks := state.ticks + 1 } := by
  have number : strtoll (decimal row.expiresAt) = row.expiresAt := by
    have read := strtoll_decimal row.expiresAt [] fits.low fits.high (by simp)
    rwa [List.append_nil] at read
  unfold RevocationRow.answer revokeLoadCb
  simp only [number, Handler.revocationAdd, Prog.perform_bind, Machine.run_call_state, World.machine,
    World.apply, Machine.run_done]

/-- What loading leaves in the list: the rows that expire later, and nothing else. -/
structure Loads (world : World) (rows : List RevocationRow) (before after : State) : Prop where
  /-- The database is not changed. -/
  database : after.db = before.db
  /-- One operation for every row. -/
  ticks : after.ticks = before.ticks + rows.length
  /-- The list has room for 4096 entries. -/
  small : after.revoked.length ≤ 4096
  /-- An entry that expires later stays. -/
  stays : ∀ entry ∈ before.revoked, world.time after.ticks < entry.2 → entry ∈ after.revoked
  /-- A row that expires later is listed. -/
  listed : ∀ row ∈ rows, world.time after.ticks < row.expiresAt → row.entry ∈ after.revoked
  /-- Every entry is an old one or comes from a row. -/
  origin : ∀ entry ∈ after.revoked, entry ∈ before.revoked ∨ ∃ row ∈ rows, entry = row.entry

/-- Loading rows of different identifiers, when there is room for all of them. -/
theorem loadRevocations_run (steady : world.Steady) (rows : List RevocationRow)
    (fits : ∀ row ∈ rows, row.Fits) (distinct : (rows.map (·.jti)).Nodup) (state : State)
    (new : ∀ entry ∈ state.revoked, ∀ row ∈ rows, entry.1 ≠ row.jti)
    (room : state.revoked.length + rows.length ≤ 4096) :
    Loads world rows state
      (world.machine.run (loadRevocations (rows.map RevocationRow.answer)) state).state := by
  induction rows generalizing state with
  | nil =>
    have small : state.revoked.length ≤ 4096 := by simpa using room
    exact ⟨rfl, rfl, small, fun _ member _ => member, by simp, fun _ member => .inl member⟩
  | cons row rows ih =>
    have fit := fits row (by simp)
    have parts := List.nodup_cons.mp distinct
    rw [List.length_cons] at room
    let next : State :=
      { state with
        revoked := (addRevocation state.revoked (world.time state.ticks) row.jti row.expiresAt).2
        ticks := state.ticks + 1 }
    have one : (world.machine.run (revokeLoadCb row.answer) state).state = next :=
      revokeLoadCb_run world fit state
    have length : (addRevocation state.revoked (world.time state.ticks) row.jti
        row.expiresAt).2.length ≤ 4096 ∧ (addRevocation state.revoked (world.time state.ticks)
        row.jti row.expiresAt).2.length ≤ state.revoked.length + 1 :=
      addRevocation_length (by omega)
    have fresh : ∀ entry ∈ next.revoked, ∀ other ∈ rows, entry.1 ≠ other.jti := by
      intro entry member other otherMember same
      cases addRevocation_origin member with
      | inl old => exact new entry old other (by simp [otherMember]) same
      | inr added =>
        rw [added.2, List.take_of_length_le fit.short] at same
        have sameJti : row.jti = other.jti := same
        apply parts.1
        exact List.mem_map.mpr ⟨other, otherMember, sameJti.symm⟩
    have rest := ih (fun other member => fits other (by simp [member])) parts.2 next fresh
      (by have := length.2; simp only [next]; omega)
    have whole : (world.machine.run (loadRevocations ((row :: rows).map RevocationRow.answer))
        state).state =
          (world.machine.run (loadRevocations (rows.map RevocationRow.answer)) next).state := by
      rw [List.map_cons, loadRevocations, Machine.run_bind]
      simp only [one]
    rw [whole]
    have ticks := rest.ticks
    have order : world.time state.ticks ≤
        world.time (world.machine.run (loadRevocations (rows.map RevocationRow.answer))
          next).state.ticks := by
      apply steady.forward
      rw [ticks]
      simp only [next]
      omega
    have confirmed : (addRevocation state.revoked (world.time state.ticks) row.jti
        row.expiresAt).1 = true := addRevocation_room row.jti row.expiresAt (by omega)
    constructor
    · exact rest.database
    · rw [ticks, List.length_cons]
      simp only [next]
      omega
    · exact rest.small
    · intro entry member later
      apply rest.stays entry _ later
      exact addRevocation_keeps row.jti row.expiresAt member (Int.lt_of_le_of_lt order later)
    · intro other member later
      cases List.mem_cons.mp member with
      | inl same =>
        rw [same] at later ⊢
        apply rest.stays _ _ later
        exact addRevocation_new fit.short (fun entry old => new entry old row (by simp)) confirmed
      | inr more => exact rest.listed other more later
    · intro entry member
      cases rest.origin entry member with
      | inl listed =>
        cases addRevocation_origin listed with
        | inl old => exact .inl old
        | inr added =>
          right
          refine ⟨row, by simp, ?_⟩
          rw [added.2, List.take_of_length_le fit.short]
          rfl
      | inr loaded =>
        obtain ⟨other, otherMember, same⟩ := loaded
        exact .inr ⟨other, by simp [otherMember], same⟩

/-- The rows that have expired leave the table. -/
theorem purgeStored_run (steady : world.Steady) (now : Int) (state : State) :
    (world.machine.run (purgeStored now) state).state =
      { state with
        db := { state.db with
          revocations := state.db.revocations.filter fun row => decide (now < row.expiresAt) }
        ticks := state.ticks + 1 } := by
  simp only [purgeStored, Handler.exec, Prog.perform_bind, Machine.run_call_state, World.machine,
    World.apply, steady.reliable, Bool.false_eq_true, if_false, Database.exec, Machine.run_done]

/-- What a restart leaves: the stored revocations that expire later than the time it read first, and
in the list those that expire later than the time at which it is ready. -/
theorem startRevocations_run (steady : world.Steady) {state : State}
    (fits : ∀ row ∈ state.db.revocations, row.Fits)
    (distinct : (state.db.revocations.map (·.jti)).Nodup)
    (room : (unexpired world state).length ≤ 4096) :
    let after := (world.machine.run startRevocations (restarted state)).state
    after.ticks = readyTick world state ∧ after.revoked.length ≤ 4096 ∧
      after.db.revocations = unexpired world state ∧
      (∀ row ∈ after.db.revocations, world.time after.ticks < row.expiresAt →
        row.entry ∈ after.revoked) ∧
      ∀ entry ∈ after.revoked, ∃ row ∈ after.db.revocations, entry = row.entry := by
  intro after
  generalize kept : unexpired world state = rows at room ⊢
  have subset : ∀ row ∈ rows, row ∈ state.db.revocations := by
    intro row member
    rw [← kept] at member
    exact (List.mem_filter.mp member).1
  have differ : (rows.map (·.jti)).Nodup := by
    rw [← kept]
    exact List.Nodup.sublist (List.Sublist.map _ List.filter_sublist) distinct
  let begun : State := { restarted state with ticks := state.ticks + 1 + 1 }
  let loaded := (world.machine.run (loadRevocations (rows.map RevocationRow.answer)) begun).state
  have loads : Loads world rows begun loaded :=
    loadRevocations_run steady rows (fun row member => fits row (subset row member)) differ begun
      (by intro entry member; cases member) (by simpa [begun, restarted] using room)
  have database : loaded.db = state.db := loads.database
  have run : after = { loaded with
      db := { loaded.db with revocations := rows }
      ticks := loaded.ticks + 1 } := by
    have answer : (unexpired world state).map
        (fun row => [some row.jti, some (decimal row.expiresAt)]) =
        rows.map RevocationRow.answer := by
      rw [kept]
      rfl
    have begins : after = (world.machine.run ((loadRevocations (rows.map RevocationRow.answer)).bind
        fun _ => purgeStored (world.time state.ticks)) begun).state := by
      rw [← answer]
      simp only [after, startRevocations, purgeStored, Handler.time, Prog.perform_bind,
        Machine.run_call_state, World.machine, World.apply, steady.reliable, Bool.false_eq_true,
        if_false, restarted, begun, unexpired]
    have purged : (loaded.db.revocations.filter fun row =>
        decide (world.time state.ticks < row.expiresAt)) = rows := by
      rw [database]
      exact kept
    rw [begins, Machine.run_bind, purgeStored_run steady]
    exact congrArg (fun left : List RevocationRow => { loaded with
      db := { loaded.db with revocations := left }
      ticks := loaded.ticks + 1 }) purged
  have ticks := loads.ticks
  have order : world.time loaded.ticks ≤ world.time (loaded.ticks + 1) :=
    steady.forward _ _ (Nat.le_succ _)
  rw [run]
  refine ⟨?_, loads.small, rfl, ?_, ?_⟩
  · rw [readyTick, kept]
    simp only [begun] at ticks ⊢
    omega
  · intro row member later
    exact loads.listed row member (Int.lt_of_le_of_lt order later)
  · intro entry member
    cases loads.origin entry member with
    | inl old => cases old
    | inr found => exact found

end Cookbook.Server
