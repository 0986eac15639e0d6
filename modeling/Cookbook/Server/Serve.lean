import Cookbook.Pasta.Writer
import Cookbook.Server.PublishRuns

/-!
# Downloads of artifacts

A `GET` of an artifact without a query and without an `Accept` field: the stored bytes are served as
they are, but for a descriptor, which is parsed, loses the fields that only a build needs, and is
written again. What happens when the registry has no such file is left to its peers.
-/
namespace Cookbook.Server

open Library.Text Library.Program Auth

/-! ## Descriptors -/

/-- `is_build_only_field` -/
def buildOnlyFields : List Bytes :=
  [ascii "build", ascii "test", ascii "dev-dependencies", ascii "scripts", ascii "bench", ascii "ci",
    ascii "hooks", ascii "profile"]

/-- One round of the loop in `strip_descriptor`: a field is copied by writing and parsing it. -/
def stripField (printNumber : Bytes → Bytes) (stripped : Pasta.Entries)
    (field : Bytes × Pasta.Value) : Pasta.Entries :=
  let key := cString field.1
  if key ∈ buildOnlyFields then stripped
  else
    match Pasta.parse (cString (Pasta.emitValue printNumber false field.2)) with
    | .error _ => stripped
    | .ok copy => stripped.put key copy

/-- `strip_descriptor` -/
def stripDescriptor (printNumber : Bytes → Bytes) (body : Bytes) : Option Bytes :=
  match Pasta.parse body with
  | .ok (.map entries) =>
    some (cString (Pasta.emitValue printNumber true
      (.map (entries.foldl (stripField printNumber) []))))
  | _ => none

/-! ## Replies -/

/-- `is_pasta` -/
def isPasta (path filename : Bytes) : Bool :=
  (strstr (ascii ".sha256") path).isNone && (strstr (ascii ".sig") path).isNone &&
    filename == nowPasta

/-- `ct` -/
def contentType (path filename : Bytes) : Bytes :=
  if (strstr (ascii ".sha256") path).isSome then ascii "text/plain"
  else if (strstr (ascii ".sig") path).isSome then ascii "application/octet-stream"
  else if filename = nowPasta then ascii "application/x-pasta; charset=US-ASCII"
  else if (strstr (ascii ".tar.gz") path).isSome then ascii "application/gzip"
  else if (strstr (ascii ".tar.zst") path).isSome then ascii "application/zstd"
  else ascii "application/octet-stream"

/-- The bytes that are served for a stored file. -/
def servedBytes (printNumber : Bytes → Bytes) (path filename data : Bytes) : Bytes :=
  if isPasta path filename then (stripDescriptor printNumber data).getD data else data

/-- The query for the yanked flag and its reason. -/
def yankedQuery : Bytes :=
  ascii "SELECT yanked, yank_reason FROM artifacts " ++
    ascii "WHERE group_id = ?1 AND artifact = ?2 AND version = ?3 " ++ ascii "LIMIT 1"

/-- `yanked_hdrs`, from the rows that the query answers. -/
def yankedFields (rows : List Row) : Grid.Headers :=
  match rows.head? with
  | some (some (0x31 :: _) :: reason) =>
    (ascii "X-Now-Yanked", ascii "true") ::
      match reason with
      | some (c :: rest) :: _ => [(ascii "X-Now-Yank-Reason", (c :: rest).take 255)]
      | _ => []
  | _ => []

/-- The part of `handle_artifact` for `GET`, without a query and an `Accept` field. -/
def getArtifact (config : Config) (printNumber : Bytes → Bytes) (missing : Handler Reply)
    (path : Bytes) (file : ArtifactPath) : Handler Reply :=
  (Handler.storeGet (Grid.storeKey config.registryId path)).bind fun got =>
    match got.1 with
    | .notFound => missing
    | .error => .done (sendError 500 "Storage error")
    | .ok =>
      (Handler.select yankedQuery [file.group, file.artifact, file.version]).bind fun rows =>
        .done ⟨200, (ascii "Content-Type", contentType path file.filename) :: yankedFields rows,
          servedBytes printNumber path file.filename got.2⟩

/-- `handle_artifact` on such a request. -/
def handleArtifactGet (config : Config) (printNumber : Bytes → Bytes)
    (missing : JwtClaims → Bytes → Handler Reply) (request : Request) : Handler Reply :=
  match artifactTarget request with
  | .error reply => .done reply
  | .ok (path, file) =>
    (requireAuthV2 config request file.group 0x72).bind fun authorized =>
      match authorized with
      | .error reply => .done reply
      | .ok claims => getArtifact config printNumber (missing claims path) path file

/-- A file that is there is served, unless the store fails. -/
theorem getArtifact_served (config : Config) (printNumber : Bytes → Bytes) (world : World)
    (missing : Handler Reply) (path : Bytes) (file : ArtifactPath) (state : State) (data : Bytes)
    (there : state.objects.get (Grid.storeKey config.registryId path) = some data)
    (reads : world.storeFails state.ticks = false) :
    let reply := (world.machine.run (getArtifact config printNumber missing path file) state).value
    reply.status = 200 ∧ reply.body = servedBytes printNumber path file.filename data := by
  have status : world.storeStatus state (Grid.storeKey config.registryId path) = .ok := by
    simp [World.storeStatus, reads, there]
  simp only [getArtifact, Handler.storeGet, Handler.select, Prog.perform_bind,
    Machine.run_call_value, World.machine, World.apply, status, there, Option.getD_some,
    Machine.run_done]
  exact ⟨trivial, trivial⟩

/-- So is the object of a request that the access check allows. -/
theorem handleArtifactGet_served (config : Config) (printNumber : Bytes → Bytes) (world : World)
    (missing : JwtClaims → Bytes → Handler Reply) {request : Request} {path : Bytes}
    {file : ArtifactPath} (target : artifactTarget request = .ok (path, file)) (state : State)
    {claims : JwtClaims}
    (allowed : (world.machine.run (requireAuthV2 config request file.group 0x72) state).value =
      .ok claims)
    (reads : world.storeFails
      (world.machine.run (requireAuthV2 config request file.group 0x72) state).state.ticks = false)
    {data : Bytes} (there : state.objects.get (Grid.storeKey config.registryId path) = some data) :
    let reply :=
      (world.machine.run (handleArtifactGet config printNumber missing request) state).value
    reply.status = 200 ∧ reply.body = servedBytes printNumber path file.filename data := by
  have kept := (requireAuthV2_frame config world request file.group 0x72 state).1
  have served := getArtifact_served config printNumber world (missing claims path) path file
    (world.machine.run (requireAuthV2 config request file.group 0x72) state).state data
    (kept.symm ▸ there) reads
  simpa only [handleArtifactGet, target, Machine.run_bind, allowed] using served

end Cookbook.Server
