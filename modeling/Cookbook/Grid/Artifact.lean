import Cookbook.Grid.PeerKey

/-!
# Artifacts for other registries

`handle_grid_artifact` serves stored objects to peers. The group for the access check is peeled off
the path, the key for the store is the whole path; what the check does not understand it skips.
-/
namespace Cookbook.Grid

open Library.Text Library.Program Server

/-! ## The handler -/

/-- `cookbook_grid_is_loop`: the registry is one of the names in the chain. -/
def isLoop (registryId viaChain : Bytes) : Bool :=
  ((viaChain.splitOnP fun c => c == comma || c == space).filter (· ≠ [])).contains registryId

/-- The group that the handler peels off a path: three segments are cut from its end. -/
def gridGroup (path : Bytes) : Option Bytes :=
  (lastSlash path).bind fun (front, _) =>
  (lastSlash front).bind fun (front, _) =>
    (lastSlash front).map fun (front, _) => dotted front

/-- The access check: skipped without a group, and for a group that does not fit its buffer. -/
def gridArtifactAllowed (headers : Headers) (path : Bytes) : Outcome Bool :=
  match gridGroup path with
  | none => .done true
  | some group => if group.length < 256 then checkGridAuth headers group 0x72 else .done true

/-- The key of a path. -/
def storeKey (registryId path : Bytes) : Bytes := registryId ++ slash :: path

/-- What is served once the access check is passed. A `HEAD` takes the status of the store, which is
zero for a key that is there, for a truth value. -/
def serveGridArtifact (config : Config) (request : Request) (path : Bytes) : Handler Reply :=
  let key := storeKey config.registryId path
  if request.method = ascii "HEAD" then
    (Handler.storeExists key).bind fun status =>
      .done (if status = .ok then ⟨404, [], []⟩ else ⟨200, [], []⟩)
  else if request.method = ascii "GET" then
    (Handler.storeGet key).bind fun got =>
      .done (match got.1 with
        | .notFound => sendError 404 "Not found"
        | .error => sendError 500 "Storage error"
        | .ok => ⟨200, [(ascii "X-Cookbook-Source", config.registryId)], got.2⟩)
  else .done (sendError 405 "Method not allowed")

/-- The part of `handle_grid_artifact` behind the guards. -/
def checkedGridArtifact (config : Config) (request : Request) (path : Bytes) :
    Handler (Outcome Reply) :=
  match gridArtifactAllowed request.headers path with
  | .overrun => .done .overrun
  | .done false => .done (.done (sendError 403 "Grid grants deny access"))
  | .done true => (serveGridArtifact config request path).bind fun reply => .done (.done reply)

/-- `handle_grid_artifact` -/
def handleGridArtifact (config : Config) (request : Request) : Handler (Outcome Reply) :=
  if config.gridMaxHops < gridGetHopCount request.headers then
    .done (.done (sendError 508 "Grid hop limit exceeded"))
  else if (gridGetVia request.headers).any (isLoop config.registryId) then
    .done (.done (sendError 508 "Grid loop detected"))
  else
    (verifyGridPeerSig config request).bind fun verified =>
      if verified = false then
        .done (.done (sendError 401 "Invalid grid peer signature"))
      else
        match pathAfter request.localUri (ascii "/grid/artifact/") with
        | none => .done (.done (sendError 400 "Bad request"))
        | some path => checkedGridArtifact config request path

/-! ## The group of a path -/

/-- The group a stored object belongs to: the segments of its path in front of artifact, version and
file name. -/
def pathGroup (path : Bytes) : Option Bytes :=
  let names := segments path
  if 4 ≤ names.length then some ([dot].intercalate (names.take (names.length - 3))) else none

/-- The handler peels off the group that the path belongs to. -/
theorem gridGroup_eq_pathGroup (path : Bytes) : gridGroup path = pathGroup path := by
  rcases lastSlash_cases path with free | ⟨front, file, rfl, fileFree⟩
  · simp [gridGroup, pathGroup, lastSlash_none free, segments_free free]
  rcases lastSlash_cases front with free | ⟨front, version, rfl, versionFree⟩
  · simp only [gridGroup, pathGroup, lastSlash_cut fileFree, lastSlash_none free,
      Option.bind_some, Option.bind_none, segments_cut fileFree, segments_free free]
    rfl
  rcases lastSlash_cases front with free | ⟨group, artifact, rfl, artifactFree⟩
  · simp only [gridGroup, pathGroup, lastSlash_cut fileFree, lastSlash_cut versionFree,
      lastSlash_none free, Option.bind_some, Option.map_none, segments_cut fileFree,
      segments_cut versionFree, segments_free free]
    rfl
  · have some_segment : 0 < (segments group).length :=
      List.length_pos_iff.mpr (segments_ne_nil group)
    simp only [gridGroup, pathGroup, lastSlash_cut fileFree, lastSlash_cut versionFree,
      lastSlash_cut artifactFree, Option.bind_some, Option.map_some, segments_cut fileFree,
      segments_cut versionFree, segments_cut artifactFree, List.length_append, List.length_singleton]
    rw [if_pos (by omega), dotted_segments, List.append_assoc, List.append_assoc,
      show (segments group).length + 1 + 1 + 1 - 3 = (segments group).length by omega,
      List.take_left]

/-! ## What is revealed -/

/-- The operations that look at a stored object. -/
def Looks (key : Bytes) (op : Op) : Prop := op = .storeGet key ∨ op = .storeExists key

/-- A request is answered safely: the header texts stay inside their buffers, and a stored object is
looked at only under the key of a path whose group the forwarded grants allow to read and that has
no segment of two dots. -/
structure Protected (config : Config) (world : World) (request : Request) (state : State) : Prop where
  /-- No write falls outside a buffer. -/
  inside : (world.machine.run (handleGridArtifact config request) state).value ≠ .overrun
  /-- Every look at the store is allowed. -/
  allowed : ∀ event ∈ (world.machine.run (handleGridArtifact config request) state).events,
    ∀ key, Looks key event.op → ∃ path group, key = storeKey config.registryId path ∧
      pathGroup path = some group ∧ checkGridAuth request.headers group 0x72 = .done true ∧
      [dot, dot] ∉ segments key

/-- The guards in front of the access check pass, and this is the path behind them. -/
structure Reaches (config : Config) (world : World) (request : Request) (state : State)
    (path : Bytes) : Prop where
  /-- There were not too many hops. -/
  hops : gridGetHopCount request.headers ≤ config.gridMaxHops
  /-- There is no loop. -/
  noLoop : (gridGetVia request.headers).any (isLoop config.registryId) = false
  /-- The signature is accepted. -/
  verified : (world.machine.run (verifyGridPeerSig config request) state).value = true
  /-- The path is the one of the request. -/
  path : pathAfter request.localUri (ascii "/grid/artifact/") = some path

/-- The methods that look at the store. -/
def Serves (method : Bytes) : Prop := method = ascii "HEAD" ∨ method = ascii "GET"

/-- What a path may look like for a safe answer: its group is short and refused, or allowed and
without two dots, or the method looks at nothing and the header texts stay inside their buffers. -/
structure Handled (config : Config) (request : Request) (path : Bytes) : Prop where
  /-- One of the three. -/
  cases : (∃ group, pathGroup path = some group ∧ group.length < 256 ∧
      checkGridAuth request.headers group 0x72 = .done false) ∨
    (∃ group, pathGroup path = some group ∧ checkGridAuth request.headers group 0x72 = .done true ∧
      [dot, dot] ∉ segments (storeKey config.registryId path)) ∨
    ¬ Serves request.method ∧ ∀ group, pathGroup path = some group → group.length < 256 →
      checkGridAuth request.headers group 0x72 ≠ .overrun

/-- The clock and the database are all that the signature check uses. -/
theorem verifyGridPeerSig_only (config : Config) (request : Request) (key : Bytes) :
    (verifyGridPeerSig config request).Only fun op => ¬ Looks key op := by
  have clock : ¬ Looks key .time := by rintro (other | other) <;> cases other
  have query (sql : Bytes) : ¬ Looks key (.query sql) := by rintro (other | other) <;> cases other
  simp only [verifyGridPeerSig]
  split
  · trivial
  · refine ⟨clock, fun now => ?_⟩
    simp only [Prog.done_bind]
    split
    · trivial
    · refine ⟨query _, fun rows => ?_⟩
      simp only [Prog.done_bind]
      split
      · trivial
      · split <;> trivial

/-- An answer without a look at the store is safe. -/
theorem protected_of_quiet {config : Config} {world : World} {request : Request} {state : State}
    (reply : Reply)
    (value : (world.machine.run (handleGridArtifact config request) state).value = .done reply)
    (quiet : ∀ event ∈ (world.machine.run (handleGridArtifact config request) state).events,
      ∀ key, ¬ Looks key event.op) : Protected config world request state where
  inside overrun := by
    rw [value] at overrun
    cases overrun
  allowed event member key looks := absurd looks (quiet event member key)

/-- The signature check looks at nothing in the store. -/
theorem verifyGridPeerSig_quiet (config : Config) (world : World) (request : Request)
    (state : State) :
    ∀ event ∈ (world.machine.run (verifyGridPeerSig config request) state).events,
      ∀ key, ¬ Looks key event.op := fun event member key =>
  world.machine.run_events (verifyGridPeerSig_only config request key) state event member

/-- Without a path behind the guards nothing is looked at. -/
theorem protected_of_guarded {config : Config} {world : World} {request : Request} {state : State}
    (guarded : ∀ path, ¬ Reaches config world request state path) :
    Protected config world request state := by
  by_cases hops : config.gridMaxHops < gridGetHopCount request.headers
  · exact protected_of_quiet (sendError 508 "Grid hop limit exceeded")
      (by simp only [handleGridArtifact, if_pos hops, Machine.run_done])
      (by simp [handleGridArtifact, hops])
  by_cases loop : (gridGetVia request.headers).any (isLoop config.registryId) = true
  · exact protected_of_quiet (sendError 508 "Grid loop detected")
      (by simp only [handleGridArtifact, if_neg hops, if_pos loop, Machine.run_done])
      (by simp [handleGridArtifact, hops, loop])
  have quiet := verifyGridPeerSig_quiet config world request state
  rcases verified : (world.machine.run (verifyGridPeerSig config request) state).value with _ | _
  · refine protected_of_quiet (sendError 401 "Invalid grid peer signature") ?_ ?_
    · simp only [handleGridArtifact, if_neg hops, if_neg loop, Machine.run_bind, verified,
        ↓reduceIte, Machine.run_done]
    · simpa only [handleGridArtifact, if_neg hops, if_neg loop, Machine.run_bind, verified,
        ↓reduceIte, Machine.run_done, List.append_nil] using quiet
  · rcases found : pathAfter request.localUri (ascii "/grid/artifact/") with _ | path
    · refine protected_of_quiet (sendError 400 "Bad request") ?_ ?_
      · simp only [handleGridArtifact, if_neg hops, if_neg loop, Machine.run_bind, verified,
          Bool.true_eq_false, ↓reduceIte, found, Machine.run_done]
      · simpa only [handleGridArtifact, if_neg hops, if_neg loop, Machine.run_bind, verified,
          Bool.true_eq_false, ↓reduceIte, found, Machine.run_done, List.append_nil] using quiet
    · exact absurd ⟨Int.not_lt.mp hops, by simpa using loop, verified, found⟩ (guarded path)

/-- Behind the guards the request is answered as the path says. -/
theorem handleGridArtifact_reached {config : Config} {world : World} {request : Request}
    {state : State} {path : Bytes} (reached : Reaches config world request state path) :
    let verified := world.machine.run (verifyGridPeerSig config request) state
    let answered := world.machine.run (checkedGridArtifact config request path) verified.state
    world.machine.run (handleGridArtifact config request) state =
      ⟨verified.events ++ answered.events, answered.value, answered.state⟩ := by
  have noLoop : ¬ (gridGetVia request.headers).any (isLoop config.registryId) = true := by
    simp [reached.noLoop]
  simp only [handleGridArtifact, if_neg (Int.not_lt.mpr reached.hops), if_neg noLoop,
    Machine.run_bind, reached.verified, reached.path, Bool.true_eq_false, ↓reduceIte]

/-- What the store is asked behind the access check. -/
theorem serveGridArtifact_looks (config : Config) (world : World) (request : Request)
    (state : State) (path key : Bytes) :
    (∃ event ∈ (world.machine.run (serveGridArtifact config request path) state).events,
      Looks key event.op) ↔ Serves request.method ∧ key = storeKey config.registryId path := by
  simp only [serveGridArtifact]
  by_cases head : request.method = ascii "HEAD"
  · simp [head, Serves, Looks, Handler.storeExists, eq_comm]
  · by_cases get : request.method = ascii "GET"
    · have other : ascii "GET" ≠ ascii "HEAD" := by decide
      simp [get, other, Serves, Looks, Handler.storeGet, eq_comm]
    · simp [head, get, Serves]

/-- Behind the guards, an answer is safe exactly when what stands behind them is. -/
theorem protected_iff_checked {config : Config} {world : World} {request : Request} {state : State}
    {path : Bytes} (reached : Reaches config world request state path) :
    Protected config world request state ↔
      gridArtifactAllowed request.headers path ≠ .overrun ∧
        (gridArtifactAllowed request.headers path = .done true → Serves request.method →
          ∃ group, pathGroup path = some group ∧
            checkGridAuth request.headers group 0x72 = .done true ∧
            [dot, dot] ∉ segments (storeKey config.registryId path)) := by
  have ran := handleGridArtifact_reached reached
  have quiet := verifyGridPeerSig_quiet config world request state
  have looks := serveGridArtifact_looks config world request
    (world.machine.run (verifyGridPeerSig config request) state).state path
  rcases allowed : gridArtifactAllowed request.headers path with (_ | _) | _
  · simp only [checkedGridArtifact, allowed, Machine.run_done, List.append_nil] at ran
    refine iff_of_true (protected_of_quiet (sendError 403 "Grid grants deny access") ?_ ?_)
      ⟨by simp, by simp⟩
    · rw [ran]
    · rwa [ran]
  · simp only [checkedGridArtifact, allowed, Machine.run_bind, Machine.run_done, List.append_nil] at ran
    constructor
    · intro safe
      refine ⟨by simp, fun _ serves => ?_⟩
      obtain ⟨event, member, look⟩ := (looks _).mpr ⟨serves, rfl⟩
      obtain ⟨other, group, same, belongs, permitted, plain⟩ :=
        safe.allowed event (by rw [ran]; exact List.mem_append_right _ member) _ look
      obtain rfl := (List.cons.inj (List.append_cancel_left same)).2
      exact ⟨group, belongs, permitted, plain⟩
    · rintro ⟨-, condition⟩
      refine ⟨by rw [ran]; simp, fun event member key look => ?_⟩
      rw [ran] at member
      rcases List.mem_append.mp member with before | behind
      · exact absurd look (quiet event before key)
      · obtain ⟨serves, rfl⟩ := (looks key).mp ⟨event, behind, look⟩
        obtain ⟨group, belongs, permitted, plain⟩ := condition rfl serves
        exact ⟨path, group, rfl, belongs, permitted, plain⟩
  · simp only [checkedGridArtifact, allowed, Machine.run_done, List.append_nil] at ran
    exact iff_of_false (fun safe => safe.inside (by rw [ran])) fun condition => condition.1 rfl

/-- What the access check answers, by the group of the path. -/
theorem gridArtifactAllowed_eq (headers : Headers) (path : Bytes) :
    gridArtifactAllowed headers path =
      match pathGroup path with
      | none => .done true
      | some group => if group.length < 256 then checkGridAuth headers group 0x72
        else .done true := by
  rw [gridArtifactAllowed, gridGroup_eq_pathGroup]

/-- Behind the guards, an answer is safe exactly when the path is handled. -/
theorem protected_iff_handled {config : Config} {world : World} {request : Request} {state : State}
    {path : Bytes} (reached : Reaches config world request state path) :
    Protected config world request state ↔ Handled config request path := by
  rw [protected_iff_checked reached, gridArtifactAllowed_eq]
  rcases belongs : pathGroup path with _ | group
  · constructor
    · rintro ⟨-, condition⟩
      refine ⟨.inr (.inr ⟨fun serves => ?_, by simp [belongs]⟩)⟩
      obtain ⟨group, none, -⟩ := condition rfl serves
      cases none
    · rintro ⟨⟨group, other, -⟩ | ⟨group, other, -⟩ | ⟨serves, -⟩⟩
      · simp [belongs] at other
      · simp [belongs] at other
      · exact ⟨by simp, fun _ other => absurd other serves⟩
  · by_cases short : group.length < 256
    · simp only [short, if_true]
      rcases permitted : checkGridAuth request.headers group 0x72 with (_ | _) | _
      · exact iff_of_true ⟨by simp, by simp⟩ ⟨.inl ⟨group, belongs, short, permitted⟩⟩
      · constructor
        · rintro ⟨-, condition⟩
          by_cases serves : Serves request.method
          · obtain ⟨other, same, -, plain⟩ := condition rfl serves
            exact ⟨.inr (.inl ⟨group, belongs, permitted, plain⟩)⟩
          · refine ⟨.inr (.inr ⟨serves, fun other same _ => ?_⟩)⟩
            obtain rfl := Option.some.inj (belongs.symm.trans same)
            simp [permitted]
        · rintro ⟨⟨other, same, -, refused⟩ | ⟨other, same, allowed, plain⟩ | ⟨serves, -⟩⟩
          · obtain rfl := Option.some.inj (belongs.symm.trans same)
            simp [permitted] at refused
          · obtain rfl := Option.some.inj (belongs.symm.trans same)
            exact ⟨by simp, fun _ _ => ⟨group, rfl, permitted, plain⟩⟩
          · exact ⟨by simp, fun _ other => absurd other serves⟩
      · refine iff_of_false (fun condition => condition.1 rfl) ?_
        rintro ⟨⟨other, same, -, refused⟩ | ⟨other, same, allowed, -⟩ | ⟨-, inside⟩⟩
        · obtain rfl := Option.some.inj (belongs.symm.trans same)
          simp [permitted] at refused
        · obtain rfl := Option.some.inj (belongs.symm.trans same)
          simp [permitted] at allowed
        · exact inside group belongs short permitted
    · simp only [short, if_false]
      constructor
      · rintro ⟨-, condition⟩
        by_cases serves : Serves request.method
        · obtain ⟨other, same, permitted, plain⟩ := condition trivial serves
          exact ⟨.inr (.inl ⟨other, belongs.trans same, permitted, plain⟩)⟩
        · refine ⟨.inr (.inr ⟨serves, fun other same otherShort => ?_⟩)⟩
          obtain rfl := Option.some.inj (belongs.symm.trans same)
          exact absurd otherShort short
      · rintro ⟨⟨other, same, otherShort, -⟩ | ⟨other, same, permitted, plain⟩ | ⟨serves, -⟩⟩
        · obtain rfl := Option.some.inj (belongs.symm.trans same)
          exact absurd otherShort short
        · obtain rfl := Option.some.inj (belongs.symm.trans same)
          exact ⟨by simp, fun _ _ => ⟨group, rfl, permitted, plain⟩⟩
        · exact ⟨by simp, fun _ other => absurd other serves⟩

/-- A server that nobody has to sign for. -/
def openConfig : Config where
  registryId := ascii "central"
  maxUploadBytes := 0
  jwtTtlSec := 3600
  rateLimitPerMin := 0
  hasRegistryKey := true
  gridEnabled := true
  gridMaxHops := 3
  gridPeerAuth := false
  objectCacheTtlSec := 0
  ldap := false
  oidc := false
  oidcClientId := none
  sign _ := none
  verify _ _ := false
  ed25519Verify _ _ _ := false
  sha256 _ := []

/-- A world in which nothing fails and nothing is answered. -/
def quietWorld : World where
  time _ := 0
  jti _ := []
  dbFails _ := false
  storeFails _ := false
  leftover _ := none
  rows _ _ _ _ := []
  foreign _ _ db := ([], db)
  credentialVerify _ _ := false
  ldapBind _ _ _ := none
  oidcExchange _ _ _ := none

/-- A request for a cached object, with grants that allow nothing but `com.example`. -/
def cachedObjectRequest : Request where
  method := ascii "GET"
  localUri := ascii "/grid/artifact/objects/4f2a91.o"
  queryString := none
  headers := [(grantsHeaderName, ascii "com.example:r")]
  contentLength := -1
  body := []
  behindBody := []

end Cookbook.Grid
