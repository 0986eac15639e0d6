import Cookbook.Grid.Artifact
import Cookbook.Pasta.Parser
import Cookbook.Server.Authorize
import Cookbook.Server.Semver

/-!
# Uploads of artifacts

A file is stored under the path of its request. Behind it come the registry's signature over the
digest and, for a descriptor, a digest file and the rows of the catalogue: the group, the artifact as
pending, its index row, and the step from pending to published. A descriptor that is refused takes
its file away again.
-/
namespace Cookbook.Server

open Library.Text Library.Program Auth

/-! ## Validation -/

/-- `validate_ascii`: the offset of the first bad byte from one on, zero without one. -/
def validateAscii (data : Bytes) : Nat :=
  match data.findIdx? fun c => c == 0 || decide (0x7F < c) with
  | none => 0
  | some index => index + 1

/-- `validate_path_segment`: characters are signed, so those from 0x80 on are below the space. -/
def validatePathSegment (text : Bytes) : Bool :=
  text != [] && (strstr [dot, dot] text).isNone && (strchr 0x5C text).isNone &&
    text.all fun c => decide (0x20 ≤ c) && decide (c < 0x80)

/-- A letter or digit of a name. -/
def isNameChar (c : UInt8) : Bool :=
  c == 0x2D || c == 0x5F || (decide (0x61 ≤ c) && decide (c ≤ 0x7A)) || isDecimal c

/-- `validate_group` -/
def validateGroup (group : Bytes) : Bool :=
  group != [] && decide (group.length ≤ 128) && validatePathSegment group &&
    group.all fun c => c == dot || isNameChar c

/-- `validate_artifact` -/
def validateArtifact (artifact : Bytes) : Bool :=
  artifact != [] && decide (artifact.length ≤ 64) && validatePathSegment artifact &&
    artifact.all isNameChar

/-! ## Paths -/

/-- What the path of an artifact request names. -/
structure ArtifactPath where
  /-- `group`, with dots -/
  group : Bytes
  /-- `artifact` -/
  artifact : Bytes
  /-- `version_str` -/
  version : Bytes
  /-- `filename` -/
  filename : Bytes
  deriving DecidableEq

/-- The last three segments of a path, and the group in front of them. Where nothing stands in front
of the version's slash the source reads the byte before its buffer, which is taken for no slash. -/
def splitArtifact (path : Bytes) : Option ArtifactPath := do
  let (front, filename) ← lastSlash path
  let (front, version) ← lastSlash front
  let (group, artifact) ← lastSlash front
  some ⟨dotted group, artifact, version, filename⟩

example : splitArtifact (ascii "org/acme/core/1.0.0/now.pasta") =
    some ⟨ascii "org.acme", ascii "core", ascii "1.0.0", ascii "now.pasta"⟩ := by decide

/-- `now.pasta` -/
def nowPasta : Bytes := ascii "now.pasta"

/-- `%s` and what follows it, in a buffer for keys. -/
def sidecarKey (key : Bytes) (suffix : String) : Bytes := (key ++ ascii suffix).take 511

/-- The key of a file's signature by the registry. -/
def countersignKey (key : Bytes) : Bytes := sidecarKey key ".countersig"

/-- The key of a descriptor's digest. -/
def digestKey (key : Bytes) : Bytes := sidecarKey key ".sha256"

/-- The key under which `try_publish` looks for the descriptor. -/
def pastaKey (registryId group artifact version : Bytes) : Bytes :=
  let groupPath := (group.take 255).map fun c => if c = dot then slash else c
  (registryId ++ slash :: (groupPath ++ slash :: (artifact ++ slash :: (version ++ slash ::
    nowPasta)))).take 511

/-- The name of a file without its extensions, in a buffer. -/
def baseName (filename : Bytes) : Bytes :=
  let base := filename.take 255
  match strstr (ascii ".tar.") base with
  | some behind => base.take (base.length - behind.length)
  | none =>
    match strchr dot base.reverse with
    | some front => (front.drop 1).reverse
    | none => base

/-- The parts of a triple with colons, nothing when there is one part only. -/
def tripleText (part : Bytes) : Option Bytes :=
  (strchr 0x2D part).map fun arch =>
    let os := part.take (part.length - arch.length)
    match strchr 0x2D (arch.drop 1) with
    | none => (os ++ colon :: arch.drop 1).take 127
    | some abi =>
      (os ++ colon :: ((arch.drop 1).take ((arch.drop 1).length - abi.length) ++
        colon :: abi.drop 1)).take 127

/-- `extract_triple` -/
def extractTriple (filename artifact version : Bytes) : Bytes :=
  let base := baseName filename
  let front := (artifact ++ 0x2D :: (version ++ [0x2D])).take 255
  if front <+: base then
    if base.drop front.length = [] ∨ base.drop front.length = ascii "noarch" then ascii "noarch"
    else (tripleText ((base.drop front.length).take 127)).getD (ascii "noarch")
  else ascii "noarch"

example : extractTriple (ascii "core-1.0.0-linux-amd64-gnu.tar.gz") (ascii "core") (ascii "1.0.0") =
    ascii "linux:amd64:gnu" := by decide

/-! ## Bodies -/

/-- An error whose text is printed into a buffer. -/
def sendErrorText (status size : Nat) (message : Bytes) : Reply :=
  sendJson status ((jsonLine "error" message).take (size - 1))

/-- The answer to a body with a byte that is not ASCII. -/
def nonAscii (offset : Nat) (what : Bytes) : Reply :=
  sendErrorText 400 256 (ascii "Non-ASCII byte at offset " ++ decimalNat offset ++ what)

/-- What is wrong with the fields of an attestation. -/
def reproFault (body : Bytes) : Option Reply :=
  match Pasta.parse body with
  | .error _ => some (sendError 400 "Invalid .repro file: must be valid pasta")
  | .ok root =>
    if (root.mapGet (ascii "format")).isSome && (root.mapGet (ascii "artifact_hash")).isSome then none
    else some (sendError 400
      "Invalid .repro file: requires 'format' and 'artifact_hash' fields")

/-- The name of an attestation. -/
def isRepro (filename : Bytes) : Bool :=
  decide (6 < filename.length) && (ascii ".repro").isSuffixOf filename

/-- What is wrong with a body before it is stored. -/
def bodyFault (filename body : Bytes) : Option Reply :=
  if filename = nowPasta ∧ validateAscii body ≠ 0 then
    some (nonAscii (validateAscii body)
      (ascii " " ++ [0xE2, 0x80, 0x94] ++ ascii " Pasta requires US-ASCII input"))
  else if isRepro filename then
    if validateAscii body ≠ 0 then some (nonAscii (validateAscii body) (ascii " in .repro file"))
    else reproFault body
  else none

/-- `cookbook_sha256_hex` -/
def sha256Hex (config : Config) (data : Bytes) : Bytes :=
  (config.sha256 data).flatMap fun c => [hexDigit (c.toNat / 16), hexDigit (c.toNat % 16)]

/-! ## Descriptors -/

/-- A group, an artifact and a version. -/
structure Coordinate where
  /-- The group. -/
  group : Bytes
  /-- The artifact. -/
  artifact : Bytes
  /-- The version. -/
  version : Bytes
  deriving DecidableEq

/-- The coordinate of a path. -/
def ArtifactPath.coordinate (file : ArtifactPath) : Coordinate :=
  ⟨file.group, file.artifact, file.version⟩

/-- The field of a descriptor when it is a text. -/
def textField (root : Pasta.Value) (field : String) : Option Bytes :=
  (root.mapGet (ascii field)).bind Pasta.Value.getString

/-- The coordinate that a descriptor names, none when a field is missing or is no text. -/
def descriptorCoordinate (root : Pasta.Value) : Option Coordinate := do
  let group ← textField root "group"
  let artifact ← textField root "artifact"
  let version ← textField root "version"
  some ⟨group, artifact, version⟩

/-- The version of a coordinate that passes the validation of a descriptor. -/
def validateDescriptor (coordinate : Coordinate) : Option Semver :=
  if coordinate.artifact.any fun c => decide (0x41 ≤ c) && decide (c ≤ 0x5A) then none
  else
    match semverParse coordinate.version with
    | none => none
    | some version =>
      if validateGroup coordinate.group && validateArtifact coordinate.artifact then some version
      else none

/-- `coord_id`, in its buffer. -/
def coordId (coordinate : Coordinate) (triple : Bytes) : Bytes :=
  (coordinate.group ++ colon :: (coordinate.artifact ++ colon :: (coordinate.version ++ colon ::
    triple))).take 255

/-- `is_snapshot` -/
def isSnapshot (version : Semver) : Int :=
  if (strstr (ascii "SNAPSHOT") version.preRelease).isSome then 1 else 0

/-! ## Programs -/

/-- `try_publish` -/
def tryPublish (config : Config) (coordinate : Coordinate) : Handler Unit :=
  (Handler.storeExists (pastaKey config.registryId coordinate.group coordinate.artifact
    coordinate.version)).bind fun status =>
    if status ≠ .ok then .done ()
    else
      utcNow.bind fun now =>
        (Handler.exec (.publishArtifact now coordinate.group coordinate.artifact
          coordinate.version)).bind fun _ => .done ()

/-- A file that is stored, and whose it is. -/
structure StoredFile where
  /-- `key` -/
  key : Bytes
  /-- What the path names. -/
  file : ArtifactPath
  /-- `body` -/
  body : Bytes
  /-- The subject of the claims. -/
  sub : Bytes

/-- `triple` -/
def StoredFile.triple (stored : StoredFile) : Bytes :=
  extractTriple stored.file.filename stored.file.artifact stored.file.version

/-- The answer to an upload. -/
def created (config : Config) (stored : StoredFile) : Reply :=
  sendJson 201 ((ascii "\x7b\"status\":\"created\",\"sha256\":\"" ++ sha256Hex config stored.body ++
    ascii "\",\"triple\":\"" ++ stored.triple ++ ascii "\"\x7d\n").take 255)

/-- The registry's signature over the digest. -/
def countersign (config : Config) (stored : StoredFile) : Handler Unit :=
  if config.hasRegistryKey = false then .done ()
  else
    match config.sign (sha256Hex config stored.body) with
    | none => .done ()
    | some signature =>
      (Handler.storePut (countersignKey stored.key) signature).bind fun _ => .done ()

/-- The row of an artifact that a descriptor names. -/
def pendingRow (config : Config) (stored : StoredFile) (coordinate : Coordinate)
    (version : Semver) (now : Bytes) : ArtifactRow where
  coordId := coordId coordinate stored.triple
  groupId := coordinate.group
  artifact := coordinate.artifact
  version := coordinate.version
  triple := stored.triple
  snapshot := isSnapshot version
  yanked := 0
  yankReason := none
  status := ascii "pending"
  sha256 := sha256Hex config stored.body
  descriptorSha256 := some (sha256Hex config stored.body)
  sizeBytes := stored.body.length
  pendingSince := now
  publishedAt := none

/-- Its index row. -/
def indexRow (stored : StoredFile) (coordinate : Coordinate) (version : Semver) :
    ArtifactSemverRow :=
  ⟨coordId coordinate stored.triple, version.major, version.minor, version.patch,
    some version.preRelease, some version.buildMeta⟩

/-- The owner of a group that is new. -/
def ownerOf (sub : Bytes) : Bytes := if sub = [] then ascii "anonymous" else sub

/-- The rows of a descriptor, and its publication. -/
def registerDescriptor (config : Config) (stored : StoredFile) (coordinate : Coordinate)
    (version : Semver) : Handler Unit :=
  (Handler.storePut (digestKey stored.key) (sha256Hex config stored.body)).bind fun _ =>
  (Handler.exec (.ensureGroup coordinate.group (ownerOf stored.sub))).bind fun _ =>
  utcNow.bind fun now =>
  (Handler.exec (.insertArtifact (pendingRow config stored coordinate version now))).bind fun _ =>
  (Handler.exec (.insertSemver (indexRow stored coordinate version))).bind fun _ =>
    tryPublish config coordinate

/-- Take a file away again. -/
def withdraw (key : Bytes) (reply : Reply) : Handler Reply :=
  (Handler.storeDel key).bind fun _ => .done reply

/-- The text of a parser's failure. -/
def failureText : Pasta.Failure → Bytes
  | .message text => ascii text
  | .fuel => []

/-- The part of `handle_artifact` for descriptors, once the file is stored. -/
def publishDescriptor (config : Config) (stored : StoredFile) : Handler Reply :=
  match Pasta.parse stored.body with
  | .error failure =>
    withdraw stored.key
      (sendErrorText 400 512 (ascii "Invalid now.pasta: " ++ failureText failure))
  | .ok root =>
    match descriptorCoordinate root with
    | none => .done (created config stored)
    | some coordinate =>
      match validateDescriptor coordinate with
      | none =>
        withdraw stored.key (sendError 400 ("Descriptor validation failed: " ++
          "artifact must be lowercase, version must be valid semver, " ++
          "group/artifact must match naming rules"))
      | some version =>
        (registerDescriptor config stored coordinate version).bind fun _ =>
          .done (created config stored)

/-- The part of `handle_artifact` behind the checks of the body. -/
def storeArtifact (config : Config) (stored : StoredFile) : Handler Reply :=
  (Handler.storePut stored.key stored.body).bind fun status =>
    if status ≠ .ok then .done (sendError 500 "Storage error")
    else
      (countersign config stored).bind fun _ =>
        if stored.file.filename = nowPasta then publishDescriptor config stored
        else
          (tryPublish config stored.file.coordinate).bind fun _ => .done (created config stored)

/-- The answer where there is no body. -/
def noBody (config : Config) (request : Request) : Reply :=
  if 0 < config.maxUploadBytes ∧ 0 < request.contentLength ∧
      (config.maxUploadBytes : Int) < request.contentLength then
    sendError 413 "Artifact exceeds maximum upload size"
  else sendError 400 "Empty body"

/-- The part of `handle_artifact` for `PUT`. -/
def putArtifact (config : Config) (request : Request) (path : Bytes) (file : ArtifactPath)
    (claims : JwtClaims) : Handler Reply :=
  if (validateGroup file.group && validateArtifact file.artifact) = false then
    .done (sendError 400 "Invalid group or artifact identifier")
  else
    (Handler.storeExists (Grid.storeKey config.registryId path)).bind fun status =>
      if status = .ok then .done (sendError 409 "Release coordinate already published")
      else
        match readBody request config.maxUploadBytes with
        | none => .done (noBody config request)
        | some body =>
          match bodyFault file.filename body with
          | some reply => .done reply
          | none =>
            storeArtifact config ⟨Grid.storeKey config.registryId path, file, body, claims.sub⟩

/-- The path of an artifact request and what it names, or the answer where it is refused. -/
def artifactTarget (request : Request) : Except Reply (Bytes × ArtifactPath) :=
  match pathAfter request.localUri (ascii "/artifact/") with
  | none => .error (sendError 400 "Bad request")
  | some path =>
    if validatePathSegment path = false then .error (sendError 400 "Invalid path")
    else
      match splitArtifact path with
      | none => .error (sendError 400 "Malformed artifact path")
      | some file => .ok (path, file)

/-- `handle_artifact` on a `PUT` request. -/
def handleArtifactPut (config : Config) (request : Request) : Handler Reply :=
  match artifactTarget request with
  | .error reply => .done reply
  | .ok (path, file) =>
    (requireAuthV2 config request file.group 0x63).bind fun authorized =>
      match authorized with
      | .error reply => .done reply
      | .ok claims => putArtifact config request path file claims

end Cookbook.Server
