import Cookbook.Grid.Artifact
import Cookbook.Server.Revocation
import Mathlib.Data.List.Perm.Subperm

/-!
# Runs with revocations

Tokens are issued, presented and revoked, and the process restarts. A revoked token is refused in
every run whose steps drop no entry of a token that the verification still accepts: the list, the
table and the confirmed tokens are kept together by one invariant.
-/
namespace Cookbook.Server

open Library.Text Library.Program Auth

/-! ## Issuance -/

/-- A token of the first format, as `handle_auth_token` issues it. -/
def issueToken (config : Config) (sub groups : Bytes) : Handler (Outcome (Option Bytes)) :=
  Handler.time.bind fun now =>
  Handler.jti.bind fun jti =>
    .done (jwtCreate config.sign now jti sub groups config.jwtTtlSec)

/-- A token of the second format. -/
def issueTokenV2 (config : Config) (sub groups resolved : Bytes) :
    Handler (Outcome (Option Bytes)) :=
  Handler.time.bind fun now =>
  Handler.jti.bind fun jti =>
    .done (jwtCreateV2 config.sign now jti sub groups resolved config.jwtTtlSec)

/-! ## Runs -/

/-- What happens to a server. -/
inductive Happening
  /-- A token of the first format is issued. -/
  | issue (sub groups : Bytes)
  /-- A token of the second format is issued. -/
  | issueV2 (sub groups resolved : Bytes)
  /-- A request brings a bearer token. -/
  | bearer (request : Request)
  /-- A request for `POST /auth/revoke`. -/
  | revoke (request : Request)
  /-- The process ends and another one starts. -/
  | restart

/-- A server with the tokens whose revocation it has confirmed. -/
structure History where
  /-- The server. -/
  state : State
  /-- The tokens for which a revocation was answered with 200. -/
  confirmed : List Bytes

variable (config : Config) (world : World)

/-- The tokens that are confirmed behind a revocation request. -/
def confirmedBy (request : Request) (reply : Reply) : List Bytes :=
  if reply.status = 200 then (revokedToken request).toList else []

/-- The server behind a happening. -/
def History.step (history : History) : Happening → History
  | .issue sub groups =>
    { history with state := (world.machine.run (issueToken config sub groups) history.state).state }
  | .issueV2 sub groups resolved =>
    { history with
      state := (world.machine.run (issueTokenV2 config sub groups resolved) history.state).state }
  | .bearer request =>
    { history with
      state := (world.machine.run (extractBearerJwt config request) history.state).state }
  | .revoke request =>
    let run := world.machine.run (handleAuthRevoke config request) history.state
    ⟨run.state, confirmedBy request run.value ++ history.confirmed⟩
  | .restart =>
    { history with state := (world.machine.run startRevocations (restarted history.state)).state }

/-- A server that has not revoked anything. -/
structure Fresh (state : State) : Prop where
  /-- Nothing is listed. -/
  listed : state.revoked = []
  /-- Nothing is stored. -/
  stored : state.db.revocations = []

/-- No confirmed token is accepted. -/
def Refuses (history : History) : Prop :=
  ∀ token ∈ history.confirmed, ∀ request, bearerToken request = some token →
    (world.machine.run (extractBearerJwt config request) history.state).value = none

/-- A confirmed token of this identifier is one that the verification alone still accepts. -/
def StillVerifies (history : History) (now : Int) (jti : Bytes) : Prop :=
  ∃ token ∈ history.confirmed, ∃ claims,
    jwtVerify config.verify now token = some claims ∧ claims.jti = jti

/-- A happening drops no entry of a confirmed token that the verification still accepts: a revocation
drops what is listed up to the time at which it prunes, other than its own identifier; a restart
drops what is stored up to the time at which the new process is ready. -/
def Spares (history : History) : Happening → Prop
  | .revoke request =>
    ∀ token claims, revokedToken request = some token →
      jwtVerify config.verify (world.time history.state.ticks) token = some claims →
      ∀ entry ∈ history.state.revoked, entry.1 ≠ claims.jti →
        entry.2 ≤ world.time (history.state.ticks + 1) →
        ¬ StillVerifies config history (world.time (history.state.ticks + 1)) entry.1
  | .restart =>
    ∀ row ∈ history.state.db.revocations,
      row.expiresAt ≤ world.time (readyTick world history.state) →
      ¬ StillVerifies config history (world.time (readyTick world history.state)) row.jti
  | _ => True

/-- The histories of runs from a server that has not revoked anything. -/
inductive Reached (allowed : History → Happening → Prop) : History → Prop
  /-- The start. -/
  | start (state : State) (fresh : Fresh state) : Reached allowed ⟨state, []⟩
  /-- One more step. -/
  | step (history : History) (happening : Happening) (reached : Reached allowed history)
      (permitted : allowed history happening) :
      Reached allowed (history.step config world happening)

/-! ## The invariant -/

variable {config world}

/-- What links the confirmed tokens, the list and the table at a time. -/
structure Sound (config : Config) (history : History) (now : Int) : Prop where
  /-- A confirmed token that is still accepted by the verification is listed. -/
  listed : ∀ jti, StillVerifies config history now jti →
    ∃ entry ∈ history.state.revoked, entry.1 = jti
  /-- And stored. -/
  stored : ∀ jti, StillVerifies config history now jti →
    ∃ row ∈ history.state.db.revocations, row.jti = jti
  /-- A confirmed token has an identifier. -/
  named : ∀ jti, StillVerifies config history now jti → jti ≠ []
  /-- What is stored and has not expired is listed with its expiry. -/
  covered : ∀ row ∈ history.state.db.revocations, now < row.expiresAt →
    row.entry ∈ history.state.revoked
  /-- What is listed is stored. -/
  origin : ∀ entry ∈ history.state.revoked,
    ∃ row ∈ history.state.db.revocations, row.jti = entry.1
  /-- The list has at most 4096 entries. -/
  small : history.state.revoked.length ≤ 4096
  /-- An identifier is stored once. -/
  distinct : (history.state.db.revocations.map (·.jti)).Nodup
  /-- Every row fits an entry. -/
  fits : ∀ row ∈ history.state.db.revocations, row.Fits

/-- A token that verifies later verifies now. -/
theorem jwtVerify_earlier {verify : Bytes → Bytes → Bool} {now later : Int} {token : Bytes}
    {claims : JwtClaims} (order : now ≤ later)
    (accepted : jwtVerify verify later token = some claims) :
    jwtVerify verify now token = some claims := by
  rw [jwtVerify_later accepted now]
  apply acceptClaims_earlier order
  rw [← jwtVerify_later accepted later]
  exact accepted

/-- An identifier of a token that verifies later is one of a token that verifies now. -/
theorem StillVerifies.earlier {history : History} {now later : Int} {jti : Bytes}
    (order : now ≤ later) (verifies : StillVerifies config history later jti) :
    StillVerifies config history now jti := by
  obtain ⟨token, member, claims, accepted, same⟩ := verifies
  exact ⟨token, member, claims, jwtVerify_earlier order accepted, same⟩

/-- A confirmed token's identifier behind a revocation is an old one or the one just revoked. -/
theorem StillVerifies.split {history : History} {state : State} {token : Bytes}
    {claims : JwtClaims} {early now : Int} {jti : Bytes} (order : early ≤ now)
    (accepted : jwtVerify config.verify early token = some claims)
    (verifies : StillVerifies config ⟨state, token :: history.confirmed⟩ now jti) :
    jti = claims.jti ∨ StillVerifies config history now jti := by
  obtain ⟨other, member, found, verified, same⟩ := verifies
  cases List.mem_cons.mp member with
  | inl new =>
    rw [new] at verified
    have agree := (jwtVerify_earlier order verified).symm.trans accepted
    exact .inl (same.symm.trans (congrArg JwtClaims.jti (Option.some.inj agree)))
  | inr old => exact .inr ⟨other, old, found, verified, same⟩

/-- A sound history refuses the confirmed tokens. -/
theorem Sound.refuses {history : History}
    (sound : Sound config history (world.time history.state.ticks)) :
    Refuses config world history := by
  intro token member request bearer
  unfold extractBearerJwt
  by_cases keyless : config.hasRegistryKey = false
  · simp only [if_pos keyless, Machine.run_done]
  · simp only [if_neg keyless, bearer, Handler.time, Prog.perform_bind, Machine.run_call_value,
      World.machine, World.apply]
    cases accepted : jwtVerify config.verify (world.time history.state.ticks) token with
    | none => simp only [Machine.run_done]
    | some claims =>
      have verifies : StillVerifies config history (world.time history.state.ticks) claims.jti :=
        ⟨token, member, claims, accepted, rfl⟩
      obtain ⟨entry, listed, same⟩ := sound.listed claims.jti verifies
      have known : history.state.revoked.any (·.1 == claims.jti) = true :=
        List.any_eq_true.mpr ⟨entry, listed, beq_of_eq same⟩
      simp only [if_neg (sound.named claims.jti verifies), Handler.revocationCheck,
        Prog.perform_bind, Machine.run_call_value, World.apply, known, if_true, Machine.run_done]

/-! ## Steps that revoke nothing -/

/-- The operations that leave the list and the table. -/
def Op.Quiet : Op → Prop
  | .time | .jti | .revocationCheck _ => True
  | _ => False

/-- Programs of such operations leave them. -/
theorem quiet_run {α : Type} {program : Handler α} (only : program.Only Op.Quiet) (state : State) :
    let after := (world.machine.run program state).state
    after.revoked = state.revoked ∧ after.db = state.db ∧ state.ticks ≤ after.ticks := by
  let kept : State → Prop := fun reached =>
    reached.revoked = state.revoked ∧ reached.db = state.db ∧ state.ticks ≤ reached.ticks
  have step : ∀ op reached, Op.Quiet op → kept reached → kept (world.machine.apply op reached).2 := by
    intro op reached quiet same
    cases op with
    | time => exact ⟨same.1, same.2.1, Nat.le_succ_of_le same.2.2⟩
    | jti => exact ⟨same.1, same.2.1, Nat.le_succ_of_le same.2.2⟩
    | revocationCheck jti => exact ⟨same.1, same.2.1, Nat.le_succ_of_le same.2.2⟩
    | _ => cases quiet
  exact world.machine.run_keeps kept step only ⟨rfl, rfl, Nat.le_refl _⟩

/-- Soundness lasts over a step that leaves the list, the table and the confirmed tokens. -/
theorem Sound.quiet {history : History} {now later : Int} {state : State}
    (sound : Sound config history now) (order : now ≤ later)
    (list : state.revoked = history.state.revoked) (table : state.db = history.state.db) :
    Sound config { history with state } later := by
  constructor
  · intro jti verifies
    rw [list]
    exact sound.listed jti (verifies.earlier order)
  · intro jti verifies
    rw [table]
    exact sound.stored jti (verifies.earlier order)
  · intro jti verifies
    exact sound.named jti (verifies.earlier order)
  · intro row member later
    rw [list]
    rw [table] at member
    exact sound.covered row member (Int.lt_of_le_of_lt order later)
  · intro entry member
    rw [table]
    rw [list] at member
    exact sound.origin entry member
  · rw [list]
    exact sound.small
  · rw [table]
    exact sound.distinct
  · rw [table]
    exact sound.fits

/-- The programs that issue tokens revoke nothing. -/
theorem issueToken_quiet (config : Config) (sub groups : Bytes) :
    (issueToken config sub groups).Only Op.Quiet :=
  ⟨trivial, fun _ => ⟨trivial, fun _ => trivial⟩⟩

/-- Nor do those of the second format. -/
theorem issueTokenV2_quiet (config : Config) (sub groups resolved : Bytes) :
    (issueTokenV2 config sub groups resolved).Only Op.Quiet :=
  ⟨trivial, fun _ => ⟨trivial, fun _ => trivial⟩⟩

/-- Nor does the reading of a bearer token. -/
theorem extractBearerJwt_quiet (config : Config) (request : Request) :
    (extractBearerJwt config request).Only Op.Quiet := by
  unfold extractBearerJwt
  split
  · exact trivial
  · split
    · exact trivial
    · refine ⟨trivial, fun now => ?_⟩
      simp only [Prog.done_bind]
      split
      · exact trivial
      · split
        · exact trivial
        · exact ⟨trivial, fun _ => trivial⟩

/-! ## Revocations -/

/-- Every row behind the insertion of a revocation is an old one or the new one. -/
theorem mem_storeRevocation {rows : List RevocationRow} {row other : RevocationRow}
    (member : other ∈ storeRevocation rows row) :
    other ∈ rows ∨ other = row ∧ ∀ old ∈ rows, old.jti ≠ row.jti := by
  unfold storeRevocation at member
  split at member
  · exact .inl member
  · next new =>
    cases List.mem_append.mp member with
    | inl old => exact .inl old
    | inr added =>
      right
      refine ⟨List.mem_singleton.mp added, fun old found same => new ?_⟩
      exact List.any_eq_true.mpr ⟨old, found, beq_of_eq same⟩

/-- The old rows stay. -/
theorem storeRevocation_keeps {rows : List RevocationRow} (row : RevocationRow)
    {other : RevocationRow} (member : other ∈ rows) : other ∈ storeRevocation rows row := by
  unfold storeRevocation
  split
  · exact member
  · exact List.mem_append_left _ member

/-- The identifier is stored. -/
theorem storeRevocation_stored (rows : List RevocationRow) (row : RevocationRow) :
    ∃ other ∈ storeRevocation rows row, other.jti = row.jti := by
  unfold storeRevocation
  split
  · next known =>
    obtain ⟨other, member, same⟩ := List.any_eq_true.mp known
    exact ⟨other, member, eq_of_beq same⟩
  · exact ⟨row, by simp, rfl⟩

/-- Identifiers stay different. -/
theorem storeRevocation_distinct {rows : List RevocationRow} (row : RevocationRow)
    (distinct : (rows.map (·.jti)).Nodup) : ((storeRevocation rows row).map (·.jti)).Nodup := by
  unfold storeRevocation
  split
  · exact distinct
  · next new =>
    rw [List.map_append, List.nodup_append]
    refine ⟨distinct, by simp, ?_⟩
    intro jti old other added same
    obtain ⟨found, member, sameJti⟩ := List.mem_map.mp old
    have own : other = row.jti := by simpa using added
    apply new
    exact List.any_eq_true.mpr ⟨found, member, beq_of_eq (sameJti.trans (same.trans own))⟩

/-- What an addition to the list keeps: an identifier is listed behind it when it was listed, and its
entry is not dropped or is added again. -/
theorem addRevocation_lasts {revoked : List (Bytes × Int)} {now exp : Int} {jti other : Bytes}
    (short : jti.length ≤ 63) (small : revoked.length ≤ 4096)
    (listed : ∃ entry ∈ revoked, entry.1 = other)
    (spared : ∀ entry ∈ revoked, entry.1 = other → entry.1 ≠ jti → now < entry.2) :
    ∃ entry ∈ (addRevocation revoked now jti exp).2, entry.1 = other := by
  obtain ⟨entry, member, same⟩ := listed
  by_cases own : entry.1 = jti
  · cases added : (addRevocation revoked now jti exp).1 with
    | false => exact absurd own ((addRevocation_refused small added).2 entry member)
    | true =>
      obtain ⟨found, foundMember, foundSame⟩ := addRevocation_listed short added
      exact ⟨found, foundMember, foundSame.trans (own.symm.trans same)⟩
  · exact ⟨entry, addRevocation_keeps jti exp member (spared entry member same own), same⟩

/-- A revocation that is confirmed keeps the history sound. -/
theorem Sound.confirmed {history : History} {now early late : Int} {token : Bytes}
    {claims : JwtClaims} {revokedAt : Bytes} {after : State} (sound : Sound config history now)
    (begins : now ≤ early) (ends : early ≤ late)
    (verified : jwtVerify config.verify now token = some claims) (named : claims.jti ≠ [])
    (spared : ∀ entry ∈ history.state.revoked, entry.1 ≠ claims.jti → entry.2 ≤ early →
      ¬ StillVerifies config history early entry.1)
    (added : (addRevocation history.state.revoked early claims.jti claims.exp).1 = true)
    (list : after.revoked = (addRevocation history.state.revoked early claims.jti claims.exp).2)
    (table : after.db.revocations = storeRevocation history.state.db.revocations
      ⟨claims.jti, claims.sub, revokedAt, claims.exp⟩) :
    Sound config ⟨after, token :: history.confirmed⟩ late := by
  obtain ⟨payload, read⟩ := jwtVerify_read verified
  have short : claims.jti.length ≤ 63 := by
    rw [read]
    exact readClaims_jti payload
  have bounds : -9223372036854775808 ≤ claims.exp ∧ claims.exp < 9223372036854775808 := by
    rw [read]
    exact readClaims_exp payload
  have order : now ≤ late := Int.le_trans begins ends
  constructor
  · intro jti verifies
    show ∃ entry ∈ after.revoked, entry.1 = jti
    rw [list]
    cases verifies.split order verified with
    | inl own =>
      rw [own]
      exact addRevocation_listed short added
    | inr old =>
      apply addRevocation_lasts short sound.small (sound.listed jti (old.earlier order))
      intro entry member same other
      apply Int.not_le.mp
      intro dropped
      apply spared entry member other dropped
      rw [same]
      exact old.earlier ends
  · intro jti verifies
    show ∃ row ∈ after.db.revocations, row.jti = jti
    rw [table]
    cases verifies.split order verified with
    | inl own =>
      rw [own]
      exact storeRevocation_stored _ _
    | inr old =>
      obtain ⟨row, member, same⟩ := sound.stored jti (old.earlier order)
      exact ⟨row, storeRevocation_keeps _ member, same⟩
  · intro jti verifies
    cases verifies.split order verified with
    | inl own =>
      rw [own]
      exact named
    | inr old => exact sound.named jti (old.earlier order)
  · intro row member later
    show row.entry ∈ after.revoked
    rw [list]
    have rowMember : row ∈ storeRevocation history.state.db.revocations
        ⟨claims.jti, claims.sub, revokedAt, claims.exp⟩ := table ▸ member
    cases mem_storeRevocation rowMember with
    | inl old =>
      have still : early < row.expiresAt := Int.lt_of_le_of_lt ends later
      apply addRevocation_keeps claims.jti claims.exp _ still
      exact sound.covered row old (Int.lt_of_le_of_lt begins still)
    | inr new =>
      rw [new.1]
      apply addRevocation_new short _ added
      intro entry listed same
      obtain ⟨other, otherMember, sameJti⟩ := sound.origin entry listed
      exact new.2 other otherMember (sameJti.trans same)
  · intro entry member
    show ∃ row ∈ after.db.revocations, row.jti = entry.1
    rw [table]
    have listed : entry ∈ (addRevocation history.state.revoked early claims.jti claims.exp).2 :=
      list ▸ member
    cases addRevocation_origin listed with
    | inl old =>
      obtain ⟨row, found, same⟩ := sound.origin entry old
      exact ⟨row, storeRevocation_keeps _ found, same⟩
    | inr new =>
      rw [new.2, List.take_of_length_le short]
      exact storeRevocation_stored _ _
  · show after.revoked.length ≤ 4096
    rw [list]
    exact (addRevocation_length sound.small).1
  · show (after.db.revocations.map (·.jti)).Nodup
    rw [table]
    exact storeRevocation_distinct _ sound.distinct
  · intro row member
    have rowMember : row ∈ storeRevocation history.state.db.revocations
        ⟨claims.jti, claims.sub, revokedAt, claims.exp⟩ := table ▸ member
    cases mem_storeRevocation rowMember with
    | inl old => exact sound.fits row old
    | inr new =>
      rw [new.1]
      exact ⟨short, bounds.1, bounds.2⟩

/-- A revocation request that spares the entries keeps the history sound. -/
theorem Sound.revoke {history : History} {request : Request} (steady : world.Steady)
    (sound : Sound config history (world.time history.state.ticks))
    (spares : Spares config world history (.revoke request)) :
    let after := history.step config world (.revoke request)
    Sound config after (world.time after.state.ticks) := by
  intro after
  have run := @handleAuthRevoke_run config world steady request history.state
  generalize whole : world.machine.run (handleAuthRevoke config request) history.state = result at run
  have here : after = ⟨result.state, confirmedBy request result.value ++ history.confirmed⟩ := by
    simp only [after, History.step, whole]
  rw [here]
  have order : world.time history.state.ticks ≤ world.time result.state.ticks :=
    steady.forward _ _ run.1
  have silent : result.value.status ≠ 200 → result.state.revoked = history.state.revoked →
      result.state.db = history.state.db → Sound config
        ⟨result.state, confirmedBy request result.value ++ history.confirmed⟩
        (world.time result.state.ticks) := by
    intro other list table
    rw [confirmedBy, if_neg other, List.nil_append]
    exact sound.quiet order list table
  rcases run.2 with ⟨other, list, table⟩ | ⟨token, claims, asked, verified, named, late, revokes⟩
  · exact silent other list table
  · rcases revokes.answered with ⟨refused, other, table⟩ | ⟨added, confirmed, revokedAt, table⟩
    · have same := (addRevocation_refused sound.small refused).1
      exact silent other (revokes.listed.trans same) table
    · have newly : confirmedBy request result.value ++ history.confirmed =
          token :: history.confirmed := by
        rw [confirmedBy, if_pos confirmed, asked]
        rfl
      rw [newly]
      apply sound.confirmed (steady.forward _ _ (Nat.le_succ _))
        (steady.forward _ _ (Nat.le_of_succ_le late)) verified named
        (spares token claims asked verified) added revokes.listed table

/-! ## Restarts -/

/-- There is room in a new list for what is stored and has not expired. -/
theorem Sound.room {history : History}
    (sound : Sound config history (world.time history.state.ticks)) :
    (unexpired world history.state).length ≤ 4096 := by
  have rows : ∀ row ∈ unexpired world history.state, row ∈ history.state.db.revocations ∧
      world.time history.state.ticks < row.expiresAt := by
    intro row member
    have parts := List.mem_filter.mp member
    exact ⟨parts.1, of_decide_eq_true parts.2⟩
  have differ : ((unexpired world history.state).map (·.jti)).Nodup :=
    List.Nodup.sublist (List.Sublist.map _ List.filter_sublist) sound.distinct
  have entries : ((unexpired world history.state).map RevocationRow.entry).Nodup := by
    apply List.Nodup.of_map Prod.fst
    rw [List.map_map]
    exact differ
  have listed : (unexpired world history.state).map RevocationRow.entry ⊆
      history.state.revoked := by
    intro entry member
    obtain ⟨row, found, same⟩ := List.mem_map.mp member
    rw [← same]
    exact sound.covered row (rows row found).1 (rows row found).2
  have fewer := (List.subperm_of_subset entries listed).length_le
  rw [List.length_map] at fewer
  exact Nat.le_trans fewer sound.small

/-- A restart that spares the rows keeps the history sound. -/
theorem Sound.restart {history : History} (steady : world.Steady)
    (sound : Sound config history (world.time history.state.ticks))
    (spares : Spares config world history .restart) :
    let after := history.step config world .restart
    Sound config after (world.time after.state.ticks) := by
  intro after
  obtain ⟨ticks, small, table, listed, origin⟩ :=
    startRevocations_run steady sound.fits sound.distinct sound.room
  have order : world.time history.state.ticks ≤ world.time after.state.ticks := by
    apply steady.forward
    show history.state.ticks ≤ after.state.ticks
    have ready : after.state.ticks = readyTick world history.state := ticks
    rw [ready, readyTick]
    omega
  have rows : ∀ row ∈ after.state.db.revocations, row ∈ history.state.db.revocations := by
    intro row member
    have kept : row ∈ unexpired world history.state := table ▸ member
    exact (List.mem_filter.mp kept).1
  have survives : ∀ jti, StillVerifies config history (world.time after.state.ticks) jti →
      ∃ row ∈ after.state.db.revocations, row.jti = jti ∧
        world.time after.state.ticks < row.expiresAt := by
    intro jti verifies
    obtain ⟨row, member, same⟩ := sound.stored jti (verifies.earlier order)
    have later : world.time after.state.ticks < row.expiresAt := by
      apply Int.not_le.mp
      intro expired
      have ready : after.state.ticks = readyTick world history.state := ticks
      rw [ready] at expired verifies
      apply spares row member expired
      rw [same]
      exact verifies
    refine ⟨row, ?_, same, later⟩
    have kept : row ∈ unexpired world history.state :=
      List.mem_filter.mpr ⟨member, decide_eq_true (Int.lt_of_le_of_lt order later)⟩
    exact table ▸ kept
  constructor
  · intro jti verifies
    obtain ⟨row, member, same, later⟩ := survives jti verifies
    exact ⟨row.entry, listed row member later, same⟩
  · intro jti verifies
    obtain ⟨row, member, same, later⟩ := survives jti verifies
    exact ⟨row, member, same⟩
  · intro jti verifies
    exact sound.named jti (verifies.earlier order)
  · exact listed
  · intro entry member
    obtain ⟨row, found, same⟩ := origin entry member
    exact ⟨row, found, congrArg Prod.fst same.symm⟩
  · exact small
  · show (after.state.db.revocations.map (·.jti)).Nodup
    have kept : after.state.db.revocations = unexpired world history.state := table
    rw [kept]
    exact List.Nodup.sublist (List.Sublist.map _ List.filter_sublist) sound.distinct
  · intro row member
    exact sound.fits row (rows row member)

/-! ## Whole runs -/

/-- Every step that spares the entries keeps the history sound. -/
theorem Sound.step {history : History} (steady : world.Steady)
    (sound : Sound config history (world.time history.state.ticks)) (happening : Happening)
    (spares : Spares config world history happening) :
    let after := history.step config world happening
    Sound config after (world.time after.state.ticks) := by
  have quietly : ∀ {α : Type} (program : Handler α), program.Only Op.Quiet →
      Sound config { history with state := (world.machine.run program history.state).state }
        (world.time (world.machine.run program history.state).state.ticks) := by
    intro α program only
    obtain ⟨list, table, later⟩ := @quiet_run world α program only history.state
    exact sound.quiet (steady.forward _ _ later) list table
  cases happening with
  | issue sub groups => exact quietly _ (issueToken_quiet config sub groups)
  | issueV2 sub groups resolved => exact quietly _ (issueTokenV2_quiet config sub groups resolved)
  | bearer request => exact quietly _ (extractBearerJwt_quiet config request)
  | revoke request => exact sound.revoke steady spares
  | restart => exact sound.restart steady spares

/-- A server that has not revoked anything is sound. -/
theorem Fresh.sound {state : State} (fresh : Fresh state) (now : Int) :
    Sound config ⟨state, []⟩ now := by
  have nothing : ∀ jti, ¬ StillVerifies config ⟨state, []⟩ now jti := by
    intro jti verifies
    obtain ⟨token, member, -⟩ := verifies
    cases member
  constructor
  · intro jti verifies
    exact absurd verifies (nothing jti)
  · intro jti verifies
    exact absurd verifies (nothing jti)
  · intro jti verifies
    exact absurd verifies (nothing jti)
  · intro row member
    rw [fresh.stored] at member
    cases member
  · intro entry member
    rw [fresh.listed] at member
    cases member
  · rw [fresh.listed]
    exact Nat.zero_le _
  · rw [fresh.stored]
    exact List.nodup_nil
  · intro row member
    rw [fresh.stored] at member
    cases member

/-- Every history of a run whose steps spare the entries is sound. -/
theorem Reached.sound {history : History} (steady : world.Steady)
    (reached : Reached config world (Spares config world) history) :
    Sound config history (world.time history.state.ticks) := by
  induction reached with
  | start state fresh => exact fresh.sound _
  | step history happening reached permitted ih => exact ih.step steady happening permitted

/-- A token whose revocation is confirmed is never accepted again, in any run whose steps drop no
entry of a token that the verification still accepts. -/
theorem revoked_refused (config : Config) (world : World) (steady : world.Steady)
    (history : History) (reached : Reached config world (Spares config world) history) :
    Refuses config world history :=
  (reached.sound steady).refuses

/-! ## A token at the second of its expiry -/

/-- The text that is signed when `alice` gets a token for one hour. -/
def aliceClaims : Bytes :=
  ascii "eyJhbGciOiJFZERTQSIs" ++ ascii "InR5cCI6IkpXVCJ9.eyJ" ++ ascii "zdWIiOiJhbGljZSIsImp" ++
    ascii "0aSI6IjcxNzRlZDdiZmU" ++ ascii "1NWJkOTdhYzJhM2U5MTh" ++ ascii "iMDhiMWQ0IiwiaWF0Ijo" ++
    ascii "xNzAwMDAwMDAwLCJleHA" ++ ascii "iOjE3MDAwMDM2MDB9"

/-- Its Ed25519 signature under the key whose seed is zero. -/
def aliceSignature : Bytes :=
  [0x16, 0x34, 0xAE, 0x12, 0x63, 0x28, 0xA7, 0x2D, 0x35, 0xED, 0x7D, 0x15, 0xE4, 0xB6, 0xDD, 0x86,
    0x0B, 0xEF, 0x4C, 0x34, 0x2A, 0x0C, 0xCE, 0x3C, 0x30, 0x2A, 0x50, 0x9B, 0x24, 0xCC, 0x72, 0x04,
    0x9E, 0x53, 0xEF, 0x99, 0x95, 0x04, 0xBD, 0x25, 0x45, 0x04, 0xB0, 0x27, 0x5B, 0x6A, 0xFD, 0x0E,
    0x86, 0xD1, 0x95, 0x05, 0xD2, 0xEC, 0xA3, 0x64, 0x04, 0x1B, 0x92, 0xB5, 0x50, 0xA4, 0x38, 0x0A]

/-- The token. -/
def aliceToken : Bytes := aliceClaims ++ dot :: base64urlEncode aliceSignature 128

/-- A server that signs with a recorded signature. -/
def recordingConfig : Config :=
  { Grid.openConfig with
    sign := recordedSign aliceClaims aliceSignature
    verify := recordedVerify aliceClaims aliceSignature }

/-- A world in which the token is issued and revoked at one time, and what follows happens later. -/
def clockWorld (later : Int) : World :=
  { Grid.quietWorld with
    time tick := if tick < 6 then 1700000000 else later
    jti _ := generateJti 1700000000 1 0x7FFC00000000 }

/-- The request that revokes the token. -/
def revokeRequest : Request where
  method := ascii "POST"
  localUri := ascii "/auth/revoke"
  queryString := none
  headers := []
  contentLength := 257
  body := jsonLine "token" aliceToken
  behindBody := []

/-- A request that brings the token. -/
def aliceRequest : Request where
  method := ascii "GET"
  localUri := ascii "/policy"
  queryString := none
  headers := [(ascii "Authorization", ascii "Bearer " ++ aliceToken)]
  contentLength := -1
  body := []
  behindBody := []

/-- A server that has just started. -/
def firstHistory : History := ⟨⟨.empty, [], [], [], 0⟩, []⟩

/-- The history behind an issue and a revocation. -/
def revokedHistory (later : Int) : History :=
  (firstHistory.step recordingConfig (clockWorld later) (.issue (ascii "alice") [])).step
    recordingConfig (clockWorld later) (.revoke revokeRequest)

/-- The history behind a restart of the process. -/
def restartHistory (later : Int) : History :=
  (revokedHistory later).step recordingConfig (clockWorld later) .restart

/-- The clock of such a world does not go back. -/
theorem clockWorld_steady {later : Int} (order : 1700000000 ≤ later) : (clockWorld later).Steady := by
  constructor
  · intro tick
    rfl
  · intro tick other before
    simp only [clockWorld]
    split_ifs <;> omega

/-- The token is revoked in runs that may do anything that leaves a fresh server as it is. -/
theorem revokedHistory_reached (later : Int) {allowed : History → Happening → Prop}
    (issues : allowed firstHistory (.issue (ascii "alice") []))
    (revokes : ∀ history : History, history.state.revoked = [] →
      allowed history (.revoke revokeRequest)) :
    Reached recordingConfig (clockWorld later) allowed (revokedHistory later) := by
  have start : Reached recordingConfig (clockWorld later) allowed firstHistory :=
    .start _ ⟨rfl, rfl⟩
  have issued := start.step _ (.issue (ascii "alice") []) issues
  exact issued.step _ (.revoke revokeRequest) (revokes _ rfl)

/-- After a restart in time the token is still refused. -/
theorem revoked_refused_restart :
    aliceToken ∈ (restartHistory 1700000200).confirmed ∧
      Refuses recordingConfig (clockWorld 1700000200) (restartHistory 1700000200) := by
  have computed : aliceToken ∈ (restartHistory 1700000200).confirmed ∧
      (∀ row ∈ (revokedHistory 1700000200).state.db.revocations, row.expiresAt = 1700003600) ∧
      (clockWorld 1700000200).time (readyTick (clockWorld 1700000200)
        (revokedHistory 1700000200).state) = 1700000200 := by
    decide +kernel
  refine ⟨computed.1, revoked_refused recordingConfig (clockWorld 1700000200)
    (clockWorld_steady (by omega)) (restartHistory 1700000200) ?_⟩
  have revoked : Reached recordingConfig (clockWorld 1700000200)
      (Spares recordingConfig (clockWorld 1700000200)) (revokedHistory 1700000200) := by
    apply revokedHistory_reached 1700000200 trivial
    intro history fresh token claims asked accepted entry member
    rw [fresh] at member
    cases member
  apply revoked.step _ .restart
  intro row member expired
  rw [computed.2.1 row member, computed.2.2] at expired
  omega

/-- After a restart at the second of its expiry the token is accepted again. -/
theorem revoked_accepted_restart :
    (clockWorld 1700003600).Steady ∧
      Reached recordingConfig (clockWorld 1700003600) (fun _ _ => True)
        (restartHistory 1700003600) ∧
      ¬ Refuses recordingConfig (clockWorld 1700003600) (restartHistory 1700003600) := by
  have computed : aliceToken ∈ (restartHistory 1700003600).confirmed ∧
      bearerToken aliceRequest = some aliceToken ∧
      ((clockWorld 1700003600).machine.run (extractBearerJwt recordingConfig aliceRequest)
        (restartHistory 1700003600).state).value.isSome = true := by
    decide +kernel
  refine ⟨clockWorld_steady (by omega), ?_, ?_⟩
  · have revoked : Reached recordingConfig (clockWorld 1700003600) (fun _ _ => True)
        (revokedHistory 1700003600) :=
      revokedHistory_reached 1700003600 trivial fun _ _ => trivial
    exact revoked.step _ .restart trivial
  · intro refuses
    have refused := refuses aliceToken computed.1 aliceRequest computed.2.1
    have accepted := computed.2.2
    rw [refused] at accepted
    cases accepted

end Cookbook.Server
