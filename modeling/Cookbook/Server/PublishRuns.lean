import Cookbook.Server.Publish

/-!
# What an upload does

The state behind every part of an upload, from any state: which objects are written, which rows are
added, and what is answered. A request that does not come to store its file changes neither the
objects nor the database, and is refused.
-/
namespace Cookbook.Server

open Library.Text Library.Program Auth

/-! ## Single operations -/

namespace World

variable (world : World)

/-- The objects behind a write. -/
def putObjects (tick : Nat) (objects : Objects) (key data : Bytes) : Objects :=
  if world.storeFails tick then
    match world.leftover tick with
    | none => objects
    | some length => objects.put key (data.take length)
  else objects.put key data

/-- The objects behind a deletion. -/
def delObjects (tick : Nat) (objects : Objects) (key : Bytes) : Objects :=
  if world.storeFails tick then objects else objects.del key

/-- The database behind a statement. -/
def execDb (tick : Nat) (db : Database) (stmt : Stmt) : Database :=
  if world.dbFails tick then db else (db.exec stmt).getD db

/-- A write answers whether it failed. -/
theorem apply_storePut (key data : Bytes) (state : State) :
    world.apply (.storePut key data) state =
      (if world.storeFails state.ticks then .error else .ok,
        { state with
          objects := world.putObjects state.ticks state.objects key data
          ticks := state.ticks + 1 }) := by
  simp only [apply, putObjects]
  by_cases fails : world.storeFails state.ticks = true
  · simp only [if_pos fails]
    cases world.leftover state.ticks <;> rfl
  · simp only [if_neg fails]

/-- A deletion. -/
theorem apply_storeDel (key : Bytes) (state : State) :
    (world.apply (.storeDel key) state).2 =
      { state with
        objects := world.delObjects state.ticks state.objects key
        ticks := state.ticks + 1 } := by
  simp only [apply, delObjects]
  by_cases fails : world.storeFails state.ticks = true
  · simp only [if_pos fails]
  · simp only [if_neg fails]

/-- A statement. -/
theorem apply_exec (stmt : Stmt) (state : State) :
    (world.apply (.exec stmt) state).2 =
      { state with
        db := world.execDb state.ticks state.db stmt
        ticks := state.ticks + 1 } := by
  simp only [apply, execDb]
  by_cases fails : world.dbFails state.ticks = true
  · simp only [if_pos fails]
  · simp only [if_neg fails]
    cases state.db.exec stmt <;> rfl

end World

variable {config : Config} {world : World}

/-! ## Publication -/

/-- The database behind `try_publish` from a state. -/
def publishedDb (config : Config) (world : World) (state : State) (coordinate : Coordinate) :
    Database :=
  if world.storeStatus state (pastaKey config.registryId coordinate.group coordinate.artifact
      coordinate.version) = .ok then
    world.execDb (state.ticks + 2) state.db (.publishArtifact
      (utcText (world.time (state.ticks + 1))) coordinate.group coordinate.artifact
      coordinate.version)
  else state.db

/-- `try_publish` writes no object. -/
theorem tryPublish_run (coordinate : Coordinate) (state : State) :
    let after := (world.machine.run (tryPublish config coordinate) state).state
    after.objects = state.objects ∧ after.db = publishedDb config world state coordinate := by
  simp only [tryPublish, publishedDb, Handler.storeExists, Prog.perform_bind,
    Machine.run_call_state, World.machine]
  by_cases there : world.storeStatus state (pastaKey config.registryId coordinate.group
      coordinate.artifact coordinate.version) = .ok
  · have answered : (world.apply (.storeExists (pastaKey config.registryId coordinate.group
        coordinate.artifact coordinate.version)) state).1 = .ok := there
    simp only [answered, ne_eq, not_true_eq_false, if_false, utcNow, Handler.time, Handler.exec,
      Prog.perform_bind, Prog.call_bind, Prog.done_bind, Machine.run_call_state, Machine.run_done,
      World.apply_exec, if_pos there]
    exact ⟨rfl, rfl⟩
  · have answered : (world.apply (.storeExists (pastaKey config.registryId coordinate.group
        coordinate.artifact coordinate.version)) state).1 ≠ .ok := there
    simp only [ne_eq, answered, not_false_eq_true, if_true, Machine.run_done, if_neg there]
    exact ⟨rfl, rfl⟩

/-! ## Registration -/

/-- The state behind the rows of a descriptor, in front of `try_publish`. -/
def registeredState (config : Config) (world : World) (state : State) (stored : StoredFile)
    (coordinate : Coordinate) (version : Semver) : State where
  db :=
    world.execDb (state.ticks + 4)
      (world.execDb (state.ticks + 3)
        (world.execDb (state.ticks + 1) state.db
          (.ensureGroup coordinate.group (ownerOf stored.sub)))
        (.insertArtifact (pendingRow config stored coordinate version
          (utcText (world.time (state.ticks + 2))))))
      (.insertSemver (indexRow stored coordinate version))
  objects :=
    world.putObjects state.ticks state.objects (digestKey stored.key) (sha256Hex config stored.body)
  revoked := state.revoked
  buckets := state.buckets
  ticks := state.ticks + 5

/-- The registration of a descriptor ends with its publication. -/
theorem registerDescriptor_run (stored : StoredFile) (coordinate : Coordinate) (version : Semver)
    (state : State) :
    (world.machine.run (registerDescriptor config stored coordinate version) state).state =
      (world.machine.run (tryPublish config coordinate)
        (registeredState config world state stored coordinate version)).state := by
  simp only [registerDescriptor, Handler.storePut, Handler.exec, Handler.time, utcNow,
    Prog.perform_bind, Prog.call_bind, Prog.done_bind, Machine.run_call_state]
  simp only [World.machine, World.apply_storePut, World.apply_exec, registeredState]
  rfl

/-! ## Files -/

/-- The number of operations of the registry's signature. -/
def signatureTicks (config : Config) (stored : StoredFile) : Nat :=
  if config.hasRegistryKey && (config.sign (sha256Hex config stored.body)).isSome then 1 else 0

/-- The objects behind the registry's signature. -/
def countersigned (config : Config) (world : World) (tick : Nat) (objects : Objects)
    (stored : StoredFile) : Objects :=
  if config.hasRegistryKey then
    match config.sign (sha256Hex config stored.body) with
    | none => objects
    | some signature => world.putObjects tick objects (countersignKey stored.key) signature
  else objects

/-- The state behind the registry's signature. -/
def signedState (config : Config) (world : World) (state : State) (stored : StoredFile) : State :=
  { state with
    objects := countersigned config world state.ticks state.objects stored
    ticks := state.ticks + signatureTicks config stored }

/-- The registry signs, or does not. -/
theorem countersign_run (stored : StoredFile) (state : State) :
    (world.machine.run (countersign config stored) state).state =
      signedState config world state stored := by
  unfold countersign signedState countersigned signatureTicks
  cases config.hasRegistryKey with
  | false => rfl
  | true =>
    cases config.sign (sha256Hex config stored.body) with
    | none => rfl
    | some signature =>
      simp only [Bool.true_eq_false, if_false, Handler.storePut, Prog.perform_bind,
        Machine.run_call_state, World.machine, World.apply_storePut, Machine.run_done,
        Bool.true_and, Option.isSome_some, if_true]

/-- A file that is taken away again. -/
theorem withdraw_run (key : Bytes) (reply : Reply) (state : State) :
    let run := world.machine.run (withdraw key reply) state
    run.value = reply ∧ run.state.db = state.db ∧
      run.state.objects = world.delObjects state.ticks state.objects key := by
  simp only [withdraw, Handler.storeDel, Prog.perform_bind, Machine.run_call_state,
    Machine.run_call_value, World.machine, World.apply_storeDel, Machine.run_done]
  exact ⟨trivial, trivial, trivial⟩

/-- A descriptor, as far as it goes. -/
inductive Descriptor
  /-- The parser refuses it. -/
  | unreadable (failure : Pasta.Failure)
  /-- A coordinate is missing. -/
  | anonymous
  /-- The coordinate does not pass the validation. -/
  | invalid
  /-- A coordinate with its version. -/
  | valid (coordinate : Coordinate) (version : Semver)

/-- The descriptor in a body. -/
def readDescriptor (body : Bytes) : Descriptor :=
  match Pasta.parse body with
  | .error failure => .unreadable failure
  | .ok root =>
    match descriptorCoordinate root with
    | none => .anonymous
    | some coordinate =>
      match validateDescriptor coordinate with
      | none => .invalid
      | some version => .valid coordinate version

/-- A descriptor that is refused is taken away, one without a coordinate is left alone, and a valid
one is registered. -/
theorem publishDescriptor_run (stored : StoredFile) (state : State) :
    let run := world.machine.run (publishDescriptor config stored) state
    match readDescriptor stored.body with
    | .unreadable _ | .invalid => run.value.status = 400 ∧ run.state.db = state.db ∧
        run.state.objects = world.delObjects state.ticks state.objects stored.key
    | .anonymous => run.value = created config stored ∧ run.state = state
    | .valid coordinate version => run.value = created config stored ∧
        run.state = (world.machine.run (tryPublish config coordinate)
          (registeredState config world state stored coordinate version)).state := by
  unfold publishDescriptor readDescriptor
  cases Pasta.parse stored.body with
  | error failure =>
    have run := @withdraw_run world stored.key (sendErrorText 400 512
      (ascii "Invalid now.pasta: " ++ failureText failure)) state
    exact ⟨congrArg Reply.status run.1, run.2⟩
  | ok root =>
    simp only
    cases descriptorCoordinate root with
    | none => exact ⟨rfl, rfl⟩
    | some coordinate =>
      simp only
      cases validateDescriptor coordinate with
      | none =>
        have run := @withdraw_run world stored.key
          (sendError 400 ("Descriptor validation failed: " ++
            "artifact must be lowercase, version must be valid semver, " ++
            "group/artifact must match naming rules")) state
        exact ⟨congrArg Reply.status run.1, run.2⟩
      | some version =>
        simp only [Machine.run_bind, Machine.run_done, registerDescriptor_run]
        exact ⟨trivial, trivial⟩

/-- The state behind the write of a file. -/
def writtenState (world : World) (state : State) (stored : StoredFile) : State :=
  { state with
    objects := world.putObjects state.ticks state.objects stored.key stored.body
    ticks := state.ticks + 1 }

/-- A file whose write fails is answered with an error. -/
theorem storeArtifact_failed (stored : StoredFile) (state : State)
    (fails : world.storeFails state.ticks = true) :
    let run := world.machine.run (storeArtifact config stored) state
    run.value = sendError 500 "Storage error" ∧ run.state = writtenState world state stored := by
  simp only [storeArtifact, Handler.storePut, Prog.perform_bind, Machine.run_call_state,
    Machine.run_call_value, World.machine, World.apply_storePut, if_pos fails, ne_eq, reduceCtorEq,
    not_false_eq_true, if_true, Machine.run_done, writtenState]
  exact ⟨trivial, trivial⟩

/-- A descriptor that is written is signed and published. -/
theorem storeArtifact_descriptor (stored : StoredFile) (state : State)
    (writes : world.storeFails state.ticks = false) (descriptor : stored.file.filename = nowPasta) :
    let run := world.machine.run (storeArtifact config stored) state
    let published := world.machine.run (publishDescriptor config stored)
      (signedState config world (writtenState world state stored) stored)
    run.value = published.value ∧ run.state = published.state := by
  intro run published
  have whole : run.value = published.value ∧ run.state = published.state := by
    simp only [run, published, storeArtifact, Handler.storePut, Prog.perform_bind,
      Machine.run_call_state, Machine.run_call_value]
    have answered : world.machine.apply (.storePut stored.key stored.body) state =
        (.ok, writtenState world state stored) := by
      have applied := world.apply_storePut stored.key stored.body state
      rw [if_neg (by rw [writes]; decide)] at applied
      exact applied
    simp only [answered, ne_eq, not_true_eq_false, if_false, Machine.run_bind, countersign_run,
      if_pos descriptor]
    exact ⟨trivial, trivial⟩
  exact whole

/-- Any other file that is written is signed, and may publish its artifact. -/
theorem storeArtifact_other (stored : StoredFile) (state : State)
    (writes : world.storeFails state.ticks = false) (other : stored.file.filename ≠ nowPasta) :
    let run := world.machine.run (storeArtifact config stored) state
    run.value = created config stored ∧
      run.state = (world.machine.run (tryPublish config stored.file.coordinate)
        (signedState config world (writtenState world state stored) stored)).state := by
  simp only [storeArtifact, Handler.storePut, Prog.perform_bind, Machine.run_call_state,
    Machine.run_call_value]
  have answered : world.machine.apply (.storePut stored.key stored.body) state =
      (.ok, writtenState world state stored) := by
    have applied := world.apply_storePut stored.key stored.body state
    rw [if_neg (by rw [writes]; decide)] at applied
    exact applied
  simp only [answered, ne_eq, not_true_eq_false, if_false, Machine.run_bind, countersign_run,
    if_neg other, Machine.run_done]
  exact ⟨trivial, trivial⟩

/-! ## Requests -/

/-- The operations of the access check. -/
def Op.Checks : Op → Prop
  | .time | .revocationCheck _ | .checkRateLimit _ _ => True
  | _ => False

/-- The access check calls no other operation. -/
theorem requireAuthV2_checks (config : Config) (request : Request) (groupId : Bytes) (op : UInt8) :
    (requireAuthV2 config request groupId op).Only Op.Checks := by
  have extracts : (extractBearerJwt config request).Only Op.Checks := by
    unfold extractBearerJwt
    split
    · trivial
    · split
      · trivial
      · refine ⟨trivial, fun now => ?_⟩
        simp only [Prog.done_bind]
        split
        · trivial
        · split
          · trivial
          · exact ⟨trivial, fun _ => trivial⟩
  unfold requireAuthV2
  split
  · trivial
  · apply Prog.only_bind extracts
    intro extracted
    split
    · trivial
    · refine ⟨trivial, fun limited => ?_⟩
      simp only [Prog.done_bind]
      split
      · trivial
      · trivial

/-- It leaves the objects and the database. -/
theorem requireAuthV2_frame (config : Config) (world : World) (request : Request)
    (groupId : Bytes) (op : UInt8) (state : State) :
    let after := (world.machine.run (requireAuthV2 config request groupId op) state).state
    after.objects = state.objects ∧ after.db = state.db := by
  let kept : State → Prop := fun reached =>
    reached.objects = state.objects ∧ reached.db = state.db
  have step : ∀ op reached, Op.Checks op → kept reached →
      kept (world.machine.apply op reached).2 := by
    intro op reached checks same
    cases op with
    | time => exact same
    | revocationCheck jti => exact same
    | checkRateLimit limit sub => exact same
    | _ => cases checks
  exact world.machine.run_keeps kept step (requireAuthV2_checks config request groupId op)
    ⟨rfl, rfl⟩

/-- A request comes to store a file, in a state. -/
structure Stores (config : Config) (world : World) (request : Request) (state : State)
    (stored : StoredFile) (entered : State) : Prop where
  /-- The path, the claims and the state behind the access check. -/
  authorized : ∃ path claims checked, artifactTarget request = .ok (path, stored.file) ∧
    stored.key = Grid.storeKey config.registryId path ∧ stored.sub = claims.sub ∧
    checked = (world.machine.run (requireAuthV2 config request stored.file.group 0x63) state).state ∧
    (world.machine.run (requireAuthV2 config request stored.file.group 0x63) state).value =
      .ok claims ∧
    world.storeStatus checked stored.key ≠ .ok ∧
    entered = { checked with ticks := checked.ticks + 1 }
  /-- The group and the artifact have valid names. -/
  named : (validateGroup stored.file.group && validateArtifact stored.file.artifact) = true
  /-- The body. -/
  body : readBody request config.maxUploadBytes = some stored.body
  /-- Nothing is wrong with it. -/
  sound : bodyFault stored.file.filename stored.body = none

/-- A refusal before the file is stored. -/
theorem bodyFault_status {filename body : Bytes} {reply : Reply}
    (fault : bodyFault filename body = some reply) : 400 ≤ reply.status := by
  unfold bodyFault reproFault at fault
  split_ifs at fault
  · cases fault
    exact Nat.le_refl _
  · cases fault
    exact Nat.le_refl _
  · split at fault
    · cases fault
      decide
    · split_ifs at fault
      cases fault
      decide

/-- The answer to a missing body is a refusal. -/
theorem noBody_status (config : Config) (request : Request) :
    400 ≤ (noBody config request).status := by
  unfold noBody
  split
  · decide
  · decide

/-- The access check refuses with an error. -/
theorem requireAuthV2_yields (config : Config) (request : Request) (groupId : Bytes) (op : UInt8) :
    (requireAuthV2 config request groupId op).Yields fun authorized =>
      ∀ reply, authorized = .error reply → 400 ≤ reply.status := by
  unfold requireAuthV2
  split
  · intro reply refused
    cases refused
  · refine Prog.yields_bind (Prog.yields_true _) ?_
    rintro (_ | claims) -
    · intro reply refused
      cases refused
      decide
    · intro limited
      simp only [Prog.done_bind]
      split
      · intro reply refused
        cases refused
        decide
      · intro reply refused
        unfold authorizeClaims at refused
        split_ifs at refused
        · cases refused
          decide
        · cases refused
          decide

/-- So does a run of it. -/
theorem requireAuthV2_refused {config : Config} {world : World} {request : Request}
    {groupId : Bytes} {op : UInt8} {state : State} {reply : Reply}
    (refused : (world.machine.run (requireAuthV2 config request groupId op) state).value =
      .error reply) : 400 ≤ reply.status :=
  world.machine.run_yields (requireAuthV2_yields config request groupId op) state reply refused

/-- A path that is refused is answered with an error. -/
theorem artifactTarget_refused {request : Request} {reply : Reply}
    (refused : artifactTarget request = .error reply) : reply.status = 400 := by
  unfold artifactTarget at refused
  split at refused
  · cases refused
    rfl
  · split at refused
    · cases refused
      rfl
    · split at refused
      · cases refused
        rfl
      · cases refused

/-- A request that comes to store a file does what the storing does. -/
theorem Stores.run {request : Request} {state entered : State} {stored : StoredFile}
    (stores : Stores config world request state stored entered) :
    let run := world.machine.run (handleArtifactPut config request) state
    let rest := world.machine.run (storeArtifact config stored) entered
    run.value = rest.value ∧ run.state = rest.state := by
  obtain ⟨path, claims, checked, target, key, sub, whole, accepted, absent, behind⟩ :=
    stores.authorized
  have file : stored = ⟨Grid.storeKey config.registryId path, stored.file, stored.body,
      claims.sub⟩ := by
    rw [← key, ← sub]
  have exist : (world.machine.apply (.storeExists (Grid.storeKey config.registryId path))
      checked).1 ≠ .ok := by
    rw [← key]
    exact absent
  have next : (world.machine.apply (.storeExists (Grid.storeKey config.registryId path))
      checked).2 = entered := by
    rw [behind]
    rfl
  rw [handleArtifactPut, target]
  simp only [Machine.run_bind, ← whole, accepted, putArtifact, stores.named, Bool.true_eq_false,
    if_false, Handler.storeExists, Prog.perform_bind, Machine.run_call_value,
    Machine.run_call_state, exist, next, stores.body, stores.sound]
  rw [← file]
  exact ⟨rfl, rfl⟩

/-- It starts with the objects and the database of the request. -/
theorem Stores.frame {request : Request} {state entered : State} {stored : StoredFile}
    (stores : Stores config world request state stored entered) :
    entered.objects = state.objects ∧ entered.db = state.db := by
  obtain ⟨path, claims, checked, -, -, -, whole, -, -, behind⟩ := stores.authorized
  have frame := requireAuthV2_frame config world request stored.file.group 0x63 state
  rw [behind]
  rw [← whole] at frame
  exact frame

/-- A request that does not come to store a file is refused and changes nothing. -/
theorem handleArtifactPut_refused {request : Request} {state : State}
    (refused : ∀ stored entered, ¬ Stores config world request state stored entered) :
    let run := world.machine.run (handleArtifactPut config request) state
    400 ≤ run.value.status ∧ run.state.objects = state.objects ∧ run.state.db = state.db := by
  unfold handleArtifactPut
  cases target : artifactTarget request with
  | error reply =>
    refine ⟨?_, rfl, rfl⟩
    show 400 ≤ reply.status
    rw [artifactTarget_refused target]
  | ok found =>
    obtain ⟨path, file⟩ := found
    have frame := requireAuthV2_frame config world request file.group 0x63 state
    simp only [Machine.run_bind]
    cases accepted : (world.machine.run (requireAuthV2 config request file.group 0x63)
        state).value with
    | error reply => exact ⟨requireAuthV2_refused accepted, frame⟩
    | ok claims =>
      generalize whole : (world.machine.run (requireAuthV2 config request file.group 0x63)
        state).state = checked at frame
      simp only [putArtifact]
      split
      · exact ⟨Nat.le_refl _, frame⟩
      · next named =>
        simp only [Handler.storeExists, Prog.perform_bind, Machine.run_call_value,
          Machine.run_call_state]
        split
        · exact ⟨show 400 ≤ 409 by decide, frame⟩
        · next absent =>
          cases body : readBody request config.maxUploadBytes with
          | none => exact ⟨noBody_status config request, frame⟩
          | some content =>
            simp only
            cases fault : bodyFault file.filename content with
            | some reply => exact ⟨bodyFault_status fault, frame⟩
            | none =>
              exfalso
              apply refused ⟨Grid.storeKey config.registryId path, file, content, claims.sub⟩
                { checked with ticks := checked.ticks + 1 }
              exact ⟨⟨path, claims, checked, target, rfl, rfl, whole.symm, accepted, absent, rfl⟩,
                by simpa using named, body, fault⟩

end Cookbook.Server
