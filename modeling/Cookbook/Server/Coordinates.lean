import Cookbook.Server.PublishRuns

/-!
# Whose rows an upload adds

The path of an upload says for which group, artifact and version the publisher is authorized. The
rows of the catalogue are taken from the descriptor. They carry the path's coordinate exactly when
every row that the database accepts is one for it.
-/
namespace Cookbook.Server

open Library.Text Library.Program Auth

/-! ## Rows that are added -/

/-- The rows of `groups` behind those that were there. -/
def insertedGroups (before after : Database) : List GroupRow :=
  after.groups.drop before.groups.length

/-- The rows of `artifacts` behind those that were there. -/
def insertedArtifacts (before after : Database) : List ArtifactRow :=
  after.artifacts.drop before.artifacts.length

/-- The rows of `artifact_semver` behind those that were there. -/
def insertedIndex (before after : Database) : List ArtifactSemverRow :=
  after.artifactSemver.drop before.artifactSemver.length

/-- An artifact row of a coordinate. -/
def ArtifactRow.Of (row : ArtifactRow) (coordinate : Coordinate) : Prop :=
  row.groupId = coordinate.group ∧ row.artifact = coordinate.artifact ∧
    row.version = coordinate.version

/-- An index row of a coordinate: its key is made from it, and its numbers are the version's. -/
def ArtifactSemverRow.Of (row : ArtifactSemverRow) (coordinate : Coordinate) : Prop :=
  ∃ triple version, semverParse coordinate.version = some version ∧
    row = ⟨Server.coordId coordinate triple, version.major, version.minor, version.patch,
      some version.preRelease, some version.buildMeta⟩

/-- The rows that are added carry a coordinate. -/
structure Carries (coordinate : Coordinate) (before after : Database) : Prop where
  /-- The groups. -/
  groups : ∀ row ∈ insertedGroups before after, row.groupId = coordinate.group
  /-- The artifacts. -/
  artifacts : ∀ row ∈ insertedArtifacts before after, row.Of coordinate
  /-- The index rows. -/
  index : ∀ row ∈ insertedIndex before after, row.Of coordinate

/-- What an upload adds carries the coordinate of its path. -/
def CarriesPath (config : Config) (world : World) (request : Request) (state : State) : Prop :=
  ∀ path file, artifactTarget request = .ok (path, file) →
    Carries file.coordinate state.db
      (world.machine.run (handleArtifactPut config request) state).state.db

/-! ## What the database accepts -/

section Accepts

variable (config : Config) (world : World) (tick : Nat) (db : Database) (stored : StoredFile)
  (named : Coordinate) (version : Semver)

/-- The row of the descriptor's group is added. -/
def AddsGroup : Prop := world.dbFails (tick + 1) = false ∧ db.hasGroup named.group = false

/-- The descriptor's artifact row is added: the group is there, and neither the key nor the
coordinate with its triple is taken. -/
def AddsArtifact : Prop :=
  world.dbFails (tick + 3) = false ∧
    db.clashes (pendingRow config stored named version []) = false ∧
    (db.hasGroup named.group = true ∨ world.dbFails (tick + 1) = false)

/-- The descriptor's index row is added: there is an artifact row of its key. -/
def AddsIndex : Prop :=
  world.dbFails (tick + 4) = false ∧
    (db.hasCoord (coordId named stored.triple) = true ∨
      AddsArtifact config world tick db stored named version)

/-- Every row that the database accepts for a descriptor is one for the path's own coordinate. -/
structure AddsOwn (own : Coordinate) : Prop where
  /-- The group. -/
  group : AddsGroup world tick db named → named.group = own.group
  /-- The artifact. -/
  artifact : AddsArtifact config world tick db stored named version → named = own
  /-- The index row. -/
  index : AddsIndex config world tick db stored named version →
    (indexRow stored named version).Of own

end Accepts

/-- The tick at which the registration of a stored file starts. -/
def registrationTick (config : Config) (stored : StoredFile) (entered : State) : Nat :=
  entered.ticks + 1 + signatureTicks config stored

/-- The descriptor of a stored file is registered under a coordinate. -/
structure Registers (config : Config) (world : World) (request : Request) (state : State)
    (stored : StoredFile) (entered : State) (named : Coordinate) (version : Semver) : Prop where
  /-- The request comes to store the file. -/
  stores : Stores config world request state stored entered
  /-- It is written. -/
  writes : world.storeFails entered.ticks = false
  /-- It is a descriptor. -/
  descriptor : stored.file.filename = nowPasta
  /-- It is valid. -/
  valid : readDescriptor stored.body = .valid named version

/-! ## Statements -/

section Statements

variable {config : Config} {world : World} {tick : Nat} {db : Database} {stored : StoredFile}
  {named : Coordinate} {version : Semver}

/-- A group that is ensured. -/
theorem execDb_ensureGroup (world : World) (tick : Nat) (db : Database) (groupId owner : Bytes) :
    ∃ added, world.execDb tick db (.ensureGroup groupId owner) =
        { db with groups := db.groups ++ added } ∧
      (∀ row ∈ added, row.groupId = groupId) ∧
      (added ≠ [] ↔ world.dbFails tick = false ∧ db.hasGroup groupId = false) := by
  unfold World.execDb Database.exec
  cases fails : world.dbFails tick with
  | true => exact ⟨[], by simp, by simp, by simp⟩
  | false =>
    cases there : db.hasGroup groupId with
    | true => exact ⟨[], by simp [there], by simp, by simp⟩
    | false => exact ⟨[⟨groupId, owner, none, none⟩], by simp [there], by simp, by simp⟩

/-- Behind it the group is there, or it was, unless the database failed. -/
theorem hasGroup_ensured (world : World) (tick : Nat) (db : Database) (groupId owner : Bytes) :
    (world.execDb tick db (.ensureGroup groupId owner)).hasGroup groupId = true ↔
      db.hasGroup groupId = true ∨ world.dbFails tick = false := by
  unfold World.execDb Database.exec
  cases fails : world.dbFails tick with
  | true => simp
  | false =>
    cases there : db.hasGroup groupId with
    | true => simp [there]
    | false =>
      simp only [Bool.false_eq_true, if_false, there, Option.getD_some, or_true, iff_true]
      simp [Database.hasGroup]

/-- An artifact row that is inserted, or not. -/
theorem execDb_insertArtifact (world : World) (tick : Nat) (db : Database) (row : ArtifactRow) :
    ∃ added, world.execDb tick db (.insertArtifact row) =
        { db with artifacts := db.artifacts ++ added } ∧
      (∀ other ∈ added, other = row) ∧
      (added ≠ [] ↔ world.dbFails tick = false ∧ db.clashes row = false ∧
        db.hasGroup row.groupId = true) := by
  unfold World.execDb Database.exec
  cases fails : world.dbFails tick with
  | true => exact ⟨[], by simp, by simp, by simp⟩
  | false =>
    cases clash : db.clashes row with
    | true => exact ⟨[], by simp [clash], by simp, by simp⟩
    | false =>
      cases there : db.hasGroup row.groupId with
      | false => exact ⟨[], by simp [clash, there], by simp, by simp⟩
      | true => exact ⟨[row], by simp [clash, there], by simp, by simp⟩

/-- An index row that is inserted, or not. -/
theorem execDb_insertSemver (world : World) (tick : Nat) (db : Database)
    (row : ArtifactSemverRow) :
    ∃ added, world.execDb tick db (.insertSemver row) =
        { db with artifactSemver := db.artifactSemver ++ added } ∧
      (∀ other ∈ added, other = row) ∧
      (added ≠ [] ↔ world.dbFails tick = false ∧ db.hasCoord row.coordId = true) := by
  unfold World.execDb Database.exec
  cases fails : world.dbFails tick with
  | true => exact ⟨[], by simp, by simp, by simp⟩
  | false =>
    cases there : db.hasCoord row.coordId with
    | false => exact ⟨[], by simp [there], by simp, by simp⟩
    | true => exact ⟨[row], by simp [there], by simp, by simp⟩

/-- The rows that a publication changes keep what they are about. -/
structure SameArtifact (row other : ArtifactRow) : Prop where
  /-- The key. -/
  coordId : other.coordId = row.coordId
  /-- The group. -/
  groupId : other.groupId = row.groupId
  /-- The artifact. -/
  artifact : other.artifact = row.artifact
  /-- The version. -/
  version : other.version = row.version

/-- A publication changes artifact rows in place. -/
theorem publishedDb_shape (config : Config) (world : World) (state : State)
    (coordinate : Coordinate) :
    ∃ change : ArtifactRow → ArtifactRow, (∀ row, SameArtifact row (change row)) ∧
      publishedDb config world state coordinate =
        { state.db with artifacts := state.db.artifacts.map change } := by
  have still : ∃ change : ArtifactRow → ArtifactRow, (∀ row, SameArtifact row (change row)) ∧
      state.db = { state.db with artifacts := state.db.artifacts.map change } :=
    ⟨id, fun _ => ⟨rfl, rfl, rfl, rfl⟩, by simp⟩
  unfold publishedDb World.execDb
  split
  · split
    · exact still
    · refine ⟨_, ?_, rfl⟩
      intro row
      split
      · exact ⟨rfl, rfl, rfl, rfl⟩
      · exact ⟨rfl, rfl, rfl, rfl⟩
  · exact still

end Statements

/-! ## Registrations -/

/-- What a registration adds: rows of the named coordinate, those that the database accepts. -/
structure Adds (config : Config) (world : World) (tick : Nat) (before after : Database)
    (stored : StoredFile) (named : Coordinate) (version : Semver) : Prop where
  /-- The groups are the named one. -/
  groupsOf : ∀ row ∈ insertedGroups before after, row.groupId = named.group
  /-- There is one when it is accepted. -/
  groups : insertedGroups before after ≠ [] ↔ AddsGroup world tick before named
  /-- The artifacts are the named one. -/
  artifactsOf : ∀ row ∈ insertedArtifacts before after, row.Of named
  /-- There is one when it is accepted. -/
  artifacts : insertedArtifacts before after ≠ [] ↔
    AddsArtifact config world tick before stored named version
  /-- The index rows are the descriptor's. -/
  indexOf : ∀ row ∈ insertedIndex before after, row = indexRow stored named version
  /-- There is one when it is accepted. -/
  index : insertedIndex before after ≠ [] ↔
    AddsIndex config world tick before stored named version

/-- The artifact row has been added, or one of its key was there. -/
theorem hasCoord_added (db : Database) {row : ArtifactRow} {added : List ArtifactRow}
    (own : ∀ other ∈ added, other = row) :
    Database.hasCoord { db with artifacts := db.artifacts ++ added } row.coordId = true ↔
      db.hasCoord row.coordId = true ∨ added ≠ [] := by
  simp only [Database.hasCoord, List.any_append, Bool.or_eq_true]
  constructor
  · rintro (old | new)
    · exact .inl old
    · obtain ⟨other, member, -⟩ := List.any_eq_true.mp new
      exact .inr (List.ne_nil_of_mem member)
  · rintro (old | new)
    · exact .inl old
    · obtain ⟨other, member⟩ := List.exists_mem_of_ne_nil added new
      exact .inr (List.any_eq_true.mpr ⟨other, member, by simp [own other member]⟩)

/-- The registration adds what the database accepts. -/
theorem registered_adds (config : Config) (world : World) (state : State) (stored : StoredFile)
    (named : Coordinate) (version : Semver) :
    Adds config world state.ticks state.db
      (publishedDb config world (registeredState config world state stored named version) named)
      stored named version := by
  obtain ⟨groups, ensured, groupsOf, groupsIff⟩ :=
    execDb_ensureGroup world (state.ticks + 1) state.db named.group (ownerOf stored.sub)
  have there := hasGroup_ensured world (state.ticks + 1) state.db named.group (ownerOf stored.sub)
  generalize row_def : pendingRow config stored named version
    (utcText (world.time (state.ticks + 2))) = row
  obtain ⟨artifacts, inserted, artifactsOf, artifactsIff⟩ :=
    execDb_insertArtifact world (state.ticks + 3) { state.db with groups := state.db.groups ++ groups }
      row
  obtain ⟨index, indexed, indexOf, indexIff⟩ :=
    execDb_insertSemver world (state.ticks + 4)
      { state.db with
        groups := state.db.groups ++ groups
        artifacts := state.db.artifacts ++ artifacts } (indexRow stored named version)
  obtain ⟨change, same, published⟩ := publishedDb_shape config world
    (registeredState config world state stored named version) named
  have whole : (registeredState config world state stored named version).db =
      { state.db with
        groups := state.db.groups ++ groups
        artifacts := state.db.artifacts ++ artifacts
        artifactSemver := state.db.artifactSemver ++ index } := by
    simp only [registeredState, row_def, ensured, inserted, indexed]
  rw [published, whole]
  have accepts : artifacts ≠ [] ↔
      AddsArtifact config world state.ticks state.db stored named version := by
    rw [artifactsIff, AddsArtifact, ← there, ensured, ← row_def]
    exact Iff.rfl
  have key : row.coordId = (indexRow stored named version).coordId := by
    rw [← row_def]
    rfl
  have coord := hasCoord_added { state.db with groups := state.db.groups ++ groups }
    artifactsOf
  constructor
  · simpa [insertedGroups] using groupsOf
  · rw [AddsGroup, ← groupsIff]
    simp [insertedGroups]
  · intro other member
    have mapped : other ∈ artifacts.map change := by
      simpa [insertedArtifacts, List.drop_left'] using member
    obtain ⟨old, oldMember, changed⟩ := List.mem_map.mp mapped
    have kept := same old
    rw [changed, artifactsOf old oldMember, ← row_def] at kept
    exact ⟨kept.groupId, kept.artifact, kept.version⟩
  · rw [← accepts]
    simp [insertedArtifacts, List.drop_left']
  · simpa [insertedIndex] using indexOf
  · rw [key] at coord
    have accepted := indexIff.trans (and_congr Iff.rfl coord)
    rw [AddsIndex, ← accepts]
    refine Iff.trans ?_ accepted
    simp [insertedIndex]

/-- What is added carries a coordinate exactly when what the database accepts is its own. -/
theorem Adds.carries_iff {config : Config} {world : World} {tick : Nat} {before after : Database}
    {stored : StoredFile} {named : Coordinate} {version : Semver}
    (adds : Adds config world tick before after stored named version) (own : Coordinate) :
    Carries own before after ↔ AddsOwn config world tick before stored named version own := by
  constructor
  · intro carries
    constructor
    · intro accepted
      obtain ⟨row, member⟩ := List.exists_mem_of_ne_nil _ (adds.groups.mpr accepted)
      exact (adds.groupsOf row member).symm.trans (carries.groups row member)
    · intro accepted
      obtain ⟨row, member⟩ := List.exists_mem_of_ne_nil _ (adds.artifacts.mpr accepted)
      have ofNamed := adds.artifactsOf row member
      have ofOwn := carries.artifacts row member
      cases named
      cases own
      simp only [Coordinate.mk.injEq]
      exact ⟨ofNamed.1.symm.trans ofOwn.1, ofNamed.2.1.symm.trans ofOwn.2.1,
        ofNamed.2.2.symm.trans ofOwn.2.2⟩
    · intro accepted
      obtain ⟨row, member⟩ := List.exists_mem_of_ne_nil _ (adds.index.mpr accepted)
      rw [← adds.indexOf row member]
      exact carries.index row member
  · intro fits
    constructor
    · intro row member
      rw [adds.groupsOf row member]
      exact fits.group (adds.groups.mp (List.ne_nil_of_mem member))
    · intro row member
      rw [← fits.artifact (adds.artifacts.mp (List.ne_nil_of_mem member))]
      exact adds.artifactsOf row member
    · intro row member
      rw [adds.indexOf row member]
      exact fits.index (adds.index.mp (List.ne_nil_of_mem member))

/-! ## Requests -/

section Requests

variable {config : Config} {world : World} {request : Request} {state entered : State}
  {stored : StoredFile} {named : Coordinate} {version : Semver}

/-- Where the artifacts are changed in place only, nothing is added. -/
theorem carries_of_changed (coordinate : Coordinate) (db : Database)
    (change : ArtifactRow → ArtifactRow) :
    Carries coordinate db { db with artifacts := db.artifacts.map change } := by
  constructor
  · simp [insertedGroups]
  · simp [insertedArtifacts, ← List.map_drop]
  · simp [insertedIndex]

/-- Where nothing is changed, nothing is added. -/
theorem carries_same (coordinate : Coordinate) (db : Database) : Carries coordinate db db := by
  have same := carries_of_changed coordinate db id
  rwa [List.map_id] at same

/-- A registration starts with the database of the request. -/
theorem Registers.start
    (registers : Registers config world request state stored entered named version) :
    let signed := signedState config world (writtenState world entered stored) stored
    signed.ticks = registrationTick config stored entered ∧ signed.db = state.db :=
  ⟨rfl, registers.stores.frame.2⟩

/-- A registration is answered with the new file, and leaves its rows. -/
theorem Registers.run
    (registers : Registers config world request state stored entered named version) :
    let signed := signedState config world (writtenState world entered stored) stored
    let run := world.machine.run (handleArtifactPut config request) state
    run.value = created config stored ∧
      run.state = (world.machine.run (tryPublish config named)
        (registeredState config world signed stored named version)).state := by
  intro signed run
  have begins := registers.stores.run
  have written := @storeArtifact_descriptor config world stored entered registers.writes
    registers.descriptor
  have published := @publishDescriptor_run config world stored signed
  rw [registers.valid] at published
  exact ⟨begins.1.trans (written.1.trans published.1),
    begins.2.trans (written.2.trans published.2)⟩

/-- What a registration adds. -/
theorem Registers.adds
    (registers : Registers config world request state stored entered named version) :
    Adds config world (registrationTick config stored entered) state.db
      (world.machine.run (handleArtifactPut config request) state).state.db stored named version := by
  have adds := registered_adds config world
    (signedState config world (writtenState world entered stored) stored) stored named version
  have start := registers.start
  rw [start.1, start.2] at adds
  have published := @tryPublish_run config world named
    (registeredState config world
      (signedState config world (writtenState world entered stored) stored) stored named version)
  rw [registers.run.2, published.2]
  exact adds

/-- An upload that registers nothing adds nothing. -/
theorem carries_unregistered (stores : Stores config world request state stored entered)
    (none : ∀ named version,
      ¬ Registers config world request state stored entered named version)
    (coordinate : Coordinate) :
    Carries coordinate state.db
      (world.machine.run (handleArtifactPut config request) state).state.db := by
  rw [stores.run.2]
  have frame := stores.frame.2
  have signed : (signedState config world (writtenState world entered stored) stored).db =
      state.db := frame
  cases writes : world.storeFails entered.ticks with
  | true =>
    rw [(storeArtifact_failed stored entered writes).2]
    have written : (writtenState world entered stored).db = state.db := frame
    rw [written]
    exact carries_same _ _
  | false =>
    by_cases descriptor : stored.file.filename = nowPasta
    · rw [(storeArtifact_descriptor stored entered writes descriptor).2]
      have published := @publishDescriptor_run config world stored
        (signedState config world (writtenState world entered stored) stored)
      cases read : readDescriptor stored.body with
      | unreadable failure =>
        rw [read] at published
        rw [published.2.1, signed]
        exact carries_same _ _
      | anonymous =>
        rw [read] at published
        rw [published.2, signed]
        exact carries_same _ _
      | invalid =>
        rw [read] at published
        rw [published.2.1, signed]
        exact carries_same _ _
      | valid named version => exact absurd ⟨stores, writes, descriptor, read⟩ (none named version)
    · have published := @tryPublish_run config world
        stored.file.coordinate (signedState config world (writtenState world entered stored) stored)
      obtain ⟨change, -, shape⟩ := publishedDb_shape config world
        (signedState config world (writtenState world entered stored) stored)
        stored.file.coordinate
      rw [(storeArtifact_other stored entered writes descriptor).2, published.2, shape, signed]
      exact carries_of_changed _ _ _

end Requests

/-- The rows that an upload adds carry the coordinate of its path exactly when, where its descriptor
is registered, every row that the database accepts is one for that coordinate. -/
theorem carriesPath_iff (config : Config) (world : World) (request : Request) (state : State) :
    CarriesPath config world request state ↔
      ∀ stored entered named version,
        Registers config world request state stored entered named version →
        AddsOwn config world (registrationTick config stored entered) state.db stored named version
          stored.file.coordinate := by
  constructor
  · intro carries stored entered named version registers
    obtain ⟨path, claims, checked, target, -⟩ := registers.stores.authorized
    exact (registers.adds.carries_iff _).mp (carries path stored.file target)
  · intro fits path file target
    by_cases comes : ∃ stored entered, Stores config world request state stored entered
    · obtain ⟨stored, entered, stores⟩ := comes
      obtain ⟨otherPath, claims, checked, same, -⟩ := stores.authorized
      have own : stored.file = file := by
        have both := same.symm.trans target
        exact congrArg Prod.snd (Except.ok.inj both)
      rw [← own]
      by_cases registered : ∃ named version,
          Registers config world request state stored entered named version
      · obtain ⟨named, version, registers⟩ := registered
        exact (registers.adds.carries_iff _).mpr (fits stored entered named version registers)
      · exact carries_unregistered stores
          (fun named version registers => registered ⟨named, version, registers⟩) _
    · have refused := @handleArtifactPut_refused config world request state
        fun stored entered stores => comes ⟨stored, entered, stores⟩
      rw [refused.2.2]
      exact carries_same _ _

/-! ## A descriptor for another group -/

/-- The text that is signed when `ci` gets a token for the group `org.acme`. -/
def publisherClaims : Bytes :=
  ascii "eyJhbGciOiJFZERTQSIs" ++ ascii "InR5cCI6IkpXVCJ9.eyJ" ++ ascii "zdWIiOiJjaSIsImdyb3V" ++
    ascii "wcyI6Im9yZy5hY21lIiw" ++ ascii "ianRpIjoiNzE3NGVkN2J" ++ ascii "mZTU1YmQ5N2FjMmEzZTk" ++
    ascii "xOGIwOGIxZDQiLCJpYXQ" ++ ascii "iOjE3MDAwMDAwMDAsImV" ++ ascii "4cCI6MTcwMDAwMzYwMH0"

/-- Its Ed25519 signature under the key whose seed is zero. -/
def publisherSignature : Bytes :=
  [0x7C, 0x98, 0x76, 0xBE, 0x32, 0x01, 0xEA, 0x5C, 0xAE, 0xCE, 0x14, 0xDE, 0xA3, 0x0B, 0xD7, 0x11,
    0x2F, 0x17, 0x6E, 0xB0, 0xB8, 0x9B, 0x8C, 0x7B, 0x3E, 0xD3, 0xB3, 0xA6, 0x1C, 0xFB, 0xC3, 0x25,
    0xCF, 0xD9, 0xEF, 0x2A, 0x08, 0xA6, 0x7F, 0x66, 0xEF, 0x13, 0xCF, 0x34, 0xA2, 0x7B, 0x16, 0xE9,
    0x6B, 0x39, 0xA2, 0xB5, 0x7D, 0x4A, 0x09, 0x05, 0xE3, 0x8B, 0xC1, 0x0C, 0x00, 0xE0, 0x60, 0x01]

/-- A descriptor, its digest, and the signature of the digest under the same key. -/
structure RecordedFile where
  /-- The file. -/
  body : Bytes
  /-- Its digest. -/
  digest : Bytes
  /-- The signature over the digest in hexadecimal digits. -/
  signature : Bytes

/-- The Ed25519 signatures of the token and of one digest. -/
def RecordedFile.sign (recorded : RecordedFile) (asked : Bytes) : Option Bytes :=
  some (if asked = publisherClaims then publisherSignature else recorded.signature)

/-- A server with a registry key that gets one file. -/
def RecordedFile.config (recorded : RecordedFile) : Config :=
  { Grid.openConfig with
    sign := recorded.sign
    verify := fun shown asked => recorded.sign asked == some shown
    sha256 := fun _ => recorded.digest }

/-- An upload by the publisher. -/
def publisherRequest (path body : Bytes) : Request where
  method := ascii "PUT"
  localUri := ascii "/artifact/" ++ path
  queryString := none
  headers := [(ascii "Authorization",
    ascii "Bearer " ++ publisherClaims ++ dot :: base64urlEncode publisherSignature 128)]
  contentLength := body.length
  body := body
  behindBody := []

/-- A server that has just started. -/
def freshState : State := ⟨.empty, [], [], [], 0⟩

/-- The descriptor of a library of another group. -/
def foreignDescriptor : RecordedFile where
  body := ascii "\x7bgroup: \"org.evil\", " ++ ascii "artifact: \"lib\", " ++
    ascii "version: \"9.9.9\"\x7d"
  digest :=
    [0xFD, 0x8F, 0xDE, 0x8B, 0x27, 0xB6, 0x40, 0x38, 0x12, 0xCA, 0x3B, 0xC2, 0xE5, 0x04, 0xAD, 0x89,
    0x6B, 0x7F, 0x18, 0x3A, 0xA4, 0xD7, 0xD6, 0x13, 0xAA, 0x23, 0x2F, 0x0E, 0xF6, 0x38, 0x80, 0x35]
  signature :=
    [0x30, 0x99, 0x56, 0x83, 0x31, 0xB0, 0x6D, 0x99, 0xF0, 0xE5, 0xDE, 0x26, 0x07, 0xC4, 0xB0, 0xDE,
    0x43, 0xE0, 0xDF, 0x1B, 0x22, 0x8A, 0x39, 0x49, 0xB9, 0x15, 0x05, 0x9A, 0x19, 0x5C, 0xE7, 0x13,
    0xFA, 0xE9, 0xB7, 0xB9, 0x0F, 0xE8, 0x81, 0xBD, 0x17, 0x81, 0x5D, 0x1D, 0x17, 0x5D, 0x71, 0x35,
    0x7D, 0xBA, 0x33, 0x26, 0x31, 0xFF, 0xDB, 0xE0, 0xB8, 0x50, 0x25, 0xE6, 0x07, 0x00, 0xD6, 0x09]

/-- The publisher of `org.acme` adds an artifact to `org.evil`. -/
theorem foreignDescriptor_not_carried :
    ¬ CarriesPath foreignDescriptor.config Grid.quietWorld
      (publisherRequest (ascii "org/acme/core/1.0.0/now.pasta") foreignDescriptor.body)
      freshState := by
  intro carries
  have target : artifactTarget (publisherRequest (ascii "org/acme/core/1.0.0/now.pasta")
      foreignDescriptor.body) = .ok (ascii "org/acme/core/1.0.0/now.pasta",
        ⟨ascii "org.acme", ascii "core", ascii "1.0.0", nowPasta⟩) := rfl
  have own := (carries _ _ target).groups
  have added : ∃ row ∈ insertedGroups freshState.db (Grid.quietWorld.machine.run
      (handleArtifactPut foreignDescriptor.config
        (publisherRequest (ascii "org/acme/core/1.0.0/now.pasta") foreignDescriptor.body))
      freshState).state.db, row.groupId = ascii "org.evil" := by
    decide +kernel
  obtain ⟨row, member, evil⟩ := added
  have acme := own row member
  rw [evil] at acme
  revert acme
  decide

end Cookbook.Server
