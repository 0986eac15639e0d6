import Cookbook.Server.Resolve
import Cookbook.Server.Rollback

/-!
# Whether an uploaded version can be resolved

A descriptor that is answered with 201 leaves a published row of its path, with an index row, so that
a resolve request lists it: exactly when what the tables say before the upload, with the row that the
descriptor brings, already says so.
-/
namespace Cookbook.Server

open Library.Text Library.Program

/-! ## The property -/

/-- A resolve request lists the version of a row. -/
structure Returns (world : World) (state : State) (own : Coordinate) (query : ResolveQuery)
    (row : ArtifactRow) : Prop where
  /-- The query answers the row. -/
  answered : row ∈ state.db.resolveRows own.group own.artifact query.includeYanked
  /-- The filter takes it. -/
  taken : (resolveTakes query (resolveRow query.includeYanked row)).isSome = true
  /-- The reply is the object with everything that the filter takes. -/
  replied : (world.machine.run (resolveVersions own.group own.artifact query) state).value =
    .done (versionsObject (listing
      (((state.db.resolveRows own.group own.artifact query.includeYanked).map
        (resolveRow query.includeYanked)).filterMap (resolveTakes query))))

/-- A row of a coordinate is published for some bytes, and can be resolved. -/
structure Published (config : Config) (world : World) (state : State) (own : Coordinate)
    (bytes : Bytes) (row : ArtifactRow) : Prop where
  /-- It is there. -/
  member : row ∈ state.db.artifacts
  /-- It is one of the coordinate. -/
  ofOwn : row.Of own
  /-- It is published. -/
  status : row.status = ascii "published"
  /-- It carries the digest of the bytes. -/
  sha256 : row.sha256 = sha256Hex config bytes
  /-- It has an index row. -/
  index : ∃ index ∈ state.db.artifactSemver, index.coordId = row.coordId
  /-- It is returned for every range that the version satisfies. -/
  resolves : ∀ version, semverParse own.version = some version →
    ∀ text range, rangeParse text = some range → rangeSatisfies range version = true →
      ∀ snapshots yanked, Returns world state own ⟨range, snapshots, yanked⟩ row

/-- A descriptor that is answered with 201 is published for the path of its request. -/
def Resolvable (config : Config) (world : World) (request : Request) (state : State) : Prop :=
  let run := world.machine.run (handleArtifactPut config request) state
  ∀ path file, artifactTarget request = .ok (path, file) → file.filename = nowPasta →
    run.value.status = 201 →
    ∃ bytes row, run.state.objects.get (Grid.storeKey config.registryId path) = some bytes ∧
      Published config world run.state file.coordinate bytes row

/-! ## What the tables say -/

/-- What the tables say about the published versions. -/
structure Catalogue where
  /-- The artifact rows. -/
  rows : List ArtifactRow
  /-- A row is published. -/
  published : ArtifactRow → Bool
  /-- The number of index rows of a key. -/
  indexes : Bytes → Nat

/-- What the tables of a database say. -/
def Database.catalogue (db : Database) : Catalogue where
  rows := db.artifacts
  published row := row.status == ascii "published"
  indexes := db.indexCount

/-- What they say with the row of a descriptor: it is added unless it clashes, its key has one more
index row, and what is pending under its coordinate is published when the descriptor is found. -/
def Catalogue.register (catalogue : Catalogue) (row : ArtifactRow) (clashes found : Bool) :
    Catalogue where
  rows := if clashes then catalogue.rows else catalogue.rows ++ [row]
  published other := catalogue.published other || (found && other.groupId == row.groupId &&
    other.artifact == row.artifact && other.version == row.version &&
    other.status == ascii "pending")
  indexes coordId := catalogue.indexes coordId + if coordId = row.coordId then 1 else 0

/-- The bytes that the listing of an artifact takes. -/
def Catalogue.size (catalogue : Catalogue) (own : Coordinate) (query : ResolveQuery) : Nat :=
  ((catalogue.rows.filter fun row => row.groupId == own.group && row.artifact == own.artifact &&
    (query.includeYanked || row.yanked == 0) && catalogue.published row).map fun row =>
      catalogue.indexes row.coordId *
        entrySize query (resolveRow query.includeYanked row)).sum

/-- The tables say that a row of a coordinate is published under a digest, and is shown for every
range that the version satisfies. -/
structure Catalogue.Shows (catalogue : Catalogue) (own : Coordinate) (digest : Bytes)
    (row : ArtifactRow) : Prop where
  /-- It is there. -/
  member : row ∈ catalogue.rows
  /-- It is one of the coordinate. -/
  ofOwn : row.Of own
  /-- It is published. -/
  published : catalogue.published row = true
  /-- It carries the digest. -/
  sha256 : row.sha256 = digest
  /-- It has an index row. -/
  index : 0 < catalogue.indexes row.coordId
  /-- It is a snapshot or yanked only where that is asked for, and everything that is listed with it
  fits the buffer. -/
  resolves : ∀ version, semverParse own.version = some version →
    ∀ text range, rangeParse text = some range → rangeSatisfies range version = true →
      ∀ snapshots yanked, (snapshots = true ∨ flagSet (some (decimal row.snapshot)) = false) ∧
        (yanked = true ∨ row.yanked = 0) ∧ catalogue.size own ⟨range, snapshots, yanked⟩ ≤ 8192

/-- A row that is published keeps everything but its status and its times. -/
structure SameVersion (row other : ArtifactRow) : Prop extends SameArtifact row other where
  /-- The triple. -/
  triple : other.triple = row.triple
  /-- The snapshot flag. -/
  snapshot : other.snapshot = row.snapshot
  /-- The yank flag. -/
  yanked : other.yanked = row.yanked
  /-- The reason. -/
  yankReason : other.yankReason = row.yankReason
  /-- The digest. -/
  sha256 : other.sha256 = row.sha256

/-- The tables of a database say what a catalogue says. -/
structure Catalogue.Describes (catalogue : Catalogue) (db : Database)
    (change : ArtifactRow → ArtifactRow) : Prop where
  /-- The rows, changed in place. -/
  rows : db.artifacts = catalogue.rows.map change
  /-- What they are about stays. -/
  same : ∀ row, SameVersion row (change row)
  /-- Those that are published. -/
  published : ∀ row ∈ catalogue.rows,
    (change row).status = ascii "published" ↔ catalogue.published row = true
  /-- Their index rows. -/
  indexes : ∀ row ∈ catalogue.rows, db.indexCount row.coordId = catalogue.indexes row.coordId

section Describes

variable {catalogue : Catalogue} {db : Database} {change : ArtifactRow → ArtifactRow}

/-- A row of the same version is printed alike. -/
theorem SameVersion.row {row other : ArtifactRow} (same : SameVersion row other)
    (includeYanked : Bool) : resolveRow includeYanked other = resolveRow includeYanked row := by
  unfold resolveRow
  rw [same.version, same.snapshot, same.triple, same.yanked, same.yankReason]

/-- A row of the same version is one of the same coordinate. -/
theorem SameVersion.of_iff {row other : ArtifactRow} (same : SameVersion row other)
    (own : Coordinate) : other.Of own ↔ row.Of own := by
  unfold ArtifactRow.Of
  rw [same.groupId, same.artifact, same.version]

/-- The answer to a query takes what the catalogue says. -/
theorem Catalogue.Describes.size (describes : catalogue.Describes db change) (own : Coordinate)
    (query : ResolveQuery) :
    (((db.resolveRows own.group own.artifact query.includeYanked).map
      (resolveRow query.includeYanked)).map (entrySize query)).sum = catalogue.size own query := by
  rw [List.map_map, resolveRows_sum, describes.rows, List.filter_map, List.map_map]
  unfold Catalogue.size
  have selects : ∀ row ∈ catalogue.rows,
      (resolveSelects own.group own.artifact query.includeYanked ∘ change) row =
        (row.groupId == own.group && row.artifact == own.artifact &&
          (query.includeYanked || row.yanked == 0) && catalogue.published row) := by
    intro row member
    have same := describes.same row
    have status := describes.published row member
    have equal : ((change row).status == ascii "published") = catalogue.published row := by
      rw [Bool.eq_iff_iff, beq_iff_eq]
      exact status
    simp only [Function.comp, resolveSelects, same.groupId, same.artifact, same.yanked, equal]
  rw [List.filter_congr selects]
  congr 1
  apply List.map_congr_left
  intro row member
  have same := describes.same row
  have inside := (List.mem_filter.mp member).1
  simp only [Function.comp, same.coordId, describes.indexes row inside, same.row]

/-- The filter takes a version that satisfies the range, and passes over snapshots that were not
asked for. -/
theorem resolveTakes_isSome_iff {row : ArtifactRow} {version : Semver} {query : ResolveQuery}
    (parsed : semverParse row.version = some version)
    (satisfies : rangeSatisfies query.range version = true) :
    (resolveTakes query (resolveRow query.includeYanked row)).isSome = true ↔
      (query.includeSnapshots = true ∨ flagSet (some (decimal row.snapshot)) = false) := by
  have first : column (resolveRow query.includeYanked row) 0 = some row.version := rfl
  have second : column (resolveRow query.includeYanked row) 1 = some (decimal row.snapshot) := rfl
  unfold resolveTakes
  rw [first, second]
  simp only [parsed, satisfies, if_true]
  cases query.includeSnapshots <;> cases flagSet (some (decimal row.snapshot)) <;> simp

/-- A row can be resolved exactly when the catalogue shows it. -/
theorem Catalogue.Describes.published_iff {config : Config} {world : World} {state : State}
    (describes : catalogue.Describes state.db change) (steady : ∀ tick, world.dbFails tick = false)
    (own : Coordinate) (bytes : Bytes) (row : ArtifactRow) (member : row ∈ catalogue.rows) :
    Published config world state own bytes (change row) ↔
      catalogue.Shows own (sha256Hex config bytes) row := by
  have same := describes.same row
  have inside : change row ∈ state.db.artifacts := by
    rw [describes.rows]
    exact List.mem_map_of_mem member
  have index : (∃ index ∈ state.db.artifactSemver, index.coordId = (change row).coordId) ↔
      0 < catalogue.indexes row.coordId := by
    rw [← describes.indexes row member, same.coordId, Database.indexCount, List.countP_pos_iff]
    simp only [beq_iff_eq]
  have returns : ∀ version query, (change row).Of own → (change row).status = ascii "published" →
      0 < catalogue.indexes row.coordId → semverParse own.version = some version →
      rangeSatisfies query.range version = true →
      (Returns world state own query (change row) ↔
        (query.includeSnapshots = true ∨ flagSet (some (decimal row.snapshot)) = false) ∧
        (query.includeYanked = true ∨ row.yanked = 0) ∧ catalogue.size own query ≤ 8192) := by
    intro version query ofOwn status indexed parsed satisfies
    have answered : change row ∈ state.db.resolveRows own.group own.artifact query.includeYanked ↔
        (query.includeYanked = true ∨ row.yanked = 0) := by
      rw [mem_resolveRows, resolveSelects, ofOwn.1, ofOwn.2.1, status, same.yanked, same.coordId,
        describes.indexes row member]
      simp [inside, indexed]
    have taken := @resolveTakes_isSome_iff (change row) version query
      (by rw [ofOwn.2.2, parsed]) satisfies
    rw [same.snapshot] at taken
    have replied : (world.machine.run (resolveVersions own.group own.artifact query) state).value =
        .done (versionsObject (listing
          (((state.db.resolveRows own.group own.artifact query.includeYanked).map
            (resolveRow query.includeYanked)).filterMap (resolveTakes query)))) ↔
        catalogue.size own query ≤ 8192 := by
      rw [← describes.size own query, ← resolveLoop_lists_iff]
      simp only [resolveVersions, Prog.perform_bind, Machine.run_call_value, Machine.run_done,
        World.machine, World.apply, steady, Bool.false_eq_true, if_false]
    rw [← answered, ← taken, ← replied]
    constructor
    · intro returns
      exact ⟨returns.taken, returns.answered, returns.replied⟩
    · intro shown
      exact ⟨shown.2.1, shown.1, shown.2.2⟩
  constructor
  · intro published
    have indexed := index.mp published.index
    refine ⟨member, (same.of_iff own).mp published.ofOwn,
      (describes.published row member).mp published.status, same.sha256.symm.trans published.sha256,
      indexed, ?_⟩
    intro version parsed text range read satisfies snapshots yanked
    exact (returns version ⟨range, snapshots, yanked⟩ published.ofOwn published.status indexed parsed
      satisfies).mp (published.resolves version parsed text range read satisfies snapshots yanked)
  · intro shows
    have ofOwn := (same.of_iff own).mpr shows.ofOwn
    have status := (describes.published row member).mpr shows.published
    refine ⟨inside, ofOwn, status, same.sha256.trans shows.sha256, index.mpr shows.index, ?_⟩
    intro version parsed text range read satisfies snapshots yanked
    exact (returns version ⟨range, snapshots, yanked⟩ ofOwn status shows.index parsed satisfies).mpr
      (shows.resolves version parsed text range read satisfies snapshots yanked)

end Describes

/-! ## What a registration says -/

section Registration

variable {config : Config} {world : World}

/-- The tables of a database say what they say. -/
theorem Database.catalogue_describes (db : Database) : db.catalogue.Describes db id where
  rows := by simp [Database.catalogue]
  same _ := ⟨⟨rfl, rfl, rfl, rfl⟩, rfl, rfl, rfl, rfl, rfl⟩
  published row _ := by simp [Database.catalogue]
  indexes _ _ := rfl

/-- The row of a descriptor, at the time of its insertion. -/
def broughtRow (config : Config) (world : World) (stored : StoredFile) (named : Coordinate)
    (version : Semver) (tick : Nat) : ArtifactRow :=
  pendingRow config stored named version (utcText (world.time (tick + 2)))

/-- A publication in place, where the descriptor is found. -/
def publishRow (found : Bool) (named : Coordinate) (now : Bytes) (row : ArtifactRow) :
    ArtifactRow :=
  if found && (row.groupId == named.group && row.artifact == named.artifact &&
      row.version == named.version && row.status == ascii "pending") then
    { row with status := ascii "published", publishedAt := some now }
  else row

/-- An artifact row that is inserted without a failure, where its group is there. -/
theorem execDb_insertArtifact_steady (steady : ∀ tick, world.dbFails tick = false) (tick : Nat)
    (db : Database) (row : ArtifactRow) (there : db.hasGroup row.groupId = true) :
    world.execDb tick db (.insertArtifact row) = { db with
      artifacts := if db.clashes row then db.artifacts else db.artifacts ++ [row] } := by
  unfold World.execDb Database.exec
  cases clash : db.clashes row with
  | true => simp [steady, clash]
  | false => simp [steady, clash, there]

/-- An index row that is inserted without a failure. -/
theorem execDb_insertSemver_steady (steady : ∀ tick, world.dbFails tick = false) (tick : Nat)
    (db : Database) (row : ArtifactSemverRow) :
    world.execDb tick db (.insertSemver row) = { db with
      artifactSemver := if db.hasCoord row.coordId then db.artifactSemver ++ [row]
        else db.artifactSemver } := by
  unfold World.execDb Database.exec
  cases there : db.hasCoord row.coordId with
  | true => simp [steady, there]
  | false => simp [steady, there]

/-- The artifacts and the index behind the rows of a descriptor, where no statement fails. -/
theorem registeredState_tables (steady : ∀ tick, world.dbFails tick = false) (state : State)
    (stored : StoredFile) (named : Coordinate) (version : Semver) :
    let row := broughtRow config world stored named version state.ticks
    let after := (registeredState config world state stored named version).db
    after.artifacts = (if state.db.clashes row then state.db.artifacts
      else state.db.artifacts ++ [row]) ∧
    after.artifactSemver = if after.hasCoord (coordId named stored.triple) then
      state.db.artifactSemver ++ [indexRow stored named version] else state.db.artifactSemver := by
  intro row after
  obtain ⟨groups, ensured, -, -⟩ :=
    execDb_ensureGroup world (state.ticks + 1) state.db named.group (ownerOf stored.sub)
  have there := (hasGroup_ensured world (state.ticks + 1) state.db named.group
    (ownerOf stored.sub)).mpr (.inr (steady _))
  have whole : after = world.execDb (state.ticks + 4) (world.execDb (state.ticks + 3)
      (world.execDb (state.ticks + 1) state.db (.ensureGroup named.group (ownerOf stored.sub)))
      (.insertArtifact row)) (.insertSemver (indexRow stored named version)) := rfl
  rw [execDb_insertArtifact_steady steady _ _ row there, execDb_insertSemver_steady steady,
    ensured] at whole
  rw [whole]
  exact ⟨rfl, rfl⟩

/-- A registration leaves tables that say what they said, with the row of the descriptor. -/
theorem registered_describes (steady : ∀ tick, world.dbFails tick = false) (state : State)
    (stored : StoredFile) (named : Coordinate) (version : Semver) :
    let row := broughtRow config world stored named version state.ticks
    let registered := registeredState config world state stored named version
    let found := world.storeStatus registered (pastaKey config.registryId named.group named.artifact
      named.version) == .ok
    (state.db.catalogue.register row (state.db.clashes row) found).Describes
      (publishedDb config world registered named)
      (publishRow found named (utcText (world.time (registered.ticks + 1)))) := by
  intro row registered found
  obtain ⟨artifacts, index⟩ :=
    @registeredState_tables config world steady state stored named version
  have published : (publishedDb config world registered named).artifacts =
      registered.db.artifacts.map
        (publishRow found named (utcText (world.time (registered.ticks + 1)))) ∧
      (publishedDb config world registered named).artifactSemver = registered.db.artifactSemver := by
    unfold publishedDb
    by_cases there : world.storeStatus registered (pastaKey config.registryId named.group
        named.artifact named.version) = .ok
    · have yes : found = true := by simp [found, there]
      rw [if_pos there, yes]
      unfold World.execDb Database.exec
      simp only [steady, Bool.false_eq_true, if_false]
      exact ⟨rfl, rfl⟩
    · have no : found = false := by simpa [found] using there
      rw [if_neg there, no]
      have still : publishRow false named (utcText (world.time (registered.ticks + 1))) = id := rfl
      rw [still, List.map_id]
      exact ⟨rfl, rfl⟩
  have same : ∀ other, SameVersion other
      (publishRow found named (utcText (world.time (registered.ticks + 1))) other) := by
    intro other
    unfold publishRow
    split
    · exact ⟨⟨rfl, rfl, rfl, rfl⟩, rfl, rfl, rfl, rfl, rfl⟩
    · exact ⟨⟨rfl, rfl, rfl, rfl⟩, rfl, rfl, rfl, rfl, rfl⟩
  refine ⟨?_, same, ?_, ?_⟩
  · rw [published.1, artifacts]
    rfl
  · intro other member
    have group : row.groupId = named.group := rfl
    have artifact : row.artifact = named.artifact := rfl
    have ofVersion : row.version = named.version := rfl
    simp only [Catalogue.register, Database.catalogue, group, artifact, ofVersion]
    unfold publishRow
    split
    · next selected =>
      simp only [Bool.and_eq_true] at selected
      simp [selected.1, selected.2.1, selected.2.2]
    · next spared =>
      simp only [Bool.and_eq_true, not_and] at spared
      simp only [Bool.or_eq_true, beq_iff_eq, Bool.and_eq_true]
      constructor
      · exact .inl
      · rintro (already | pending)
        · exact already
        · exfalso
          obtain ⟨⟨⟨⟨here, sameGroup⟩, sameArtifact⟩, same⟩, status⟩ := pending
          exact spared here ⟨⟨by simpa using sameGroup, by simpa using sameArtifact⟩,
            by simpa using same⟩ (by simpa using status)
  · intro other member
    have inside : other ∈ registered.db.artifacts := by
      rw [artifacts]
      exact member
    have key : row.coordId = coordId named stored.triple := rfl
    have count : (publishedDb config world registered named).indexCount other.coordId =
        registered.db.indexCount other.coordId := by
      unfold Database.indexCount
      rw [published.2]
    rw [count, Database.indexCount, index]
    simp only [Catalogue.register, Database.catalogue, Database.indexCount, key]
    by_cases own : other.coordId = coordId named stored.triple
    · have has : registered.db.hasCoord (coordId named stored.triple) = true := by
        rw [Database.hasCoord, List.any_eq_true]
        exact ⟨other, inside, by simpa using own⟩
      rw [if_pos has, if_pos own, List.countP_append]
      simp [indexRow, own]
    · rw [if_neg own]
      split
      · rw [List.countP_append]
        simp [indexRow, Ne.symm own]
      · rfl

end Registration

/-! ## Descriptors that are accepted -/

section Accepted

variable (config : Config) (world : World) (before : State) (stored : StoredFile) (entered : State)

/-- What the digest file leaves. -/
def digestLeft : Option Bytes :=
  world.leaves (registrationTick config stored entered) (sha256Hex config stored.body)

/-- `try_publish` finds something under the key of the coordinate that the descriptor names: the file
itself, what was there before, or a file that came with it. -/
def findsDescriptor (named : Coordinate) : Bool :=
  let key := pastaKey config.registryId named.group named.artifact named.version
  !world.storeFails (registrationTick config stored entered + 5) &&
    (decide (key = stored.key) || (before.objects.get key).isSome ||
      (decide (key = countersignKey stored.key) &&
        (signatureLeft config world (entered.ticks + 1) stored).isSome) ||
      (decide (key = digestKey stored.key) && (digestLeft config world stored entered).isSome))

/-- What the tables say with the descriptor. -/
def catalogueWith : Catalogue :=
  match readDescriptor stored.body with
  | .valid named version =>
    let row := broughtRow config world stored named version (registrationTick config stored entered)
    before.db.catalogue.register row (before.db.clashes row)
      (findsDescriptor config world before stored entered named)
  | _ => before.db.catalogue

/-- The bytes under the descriptor's key: its own, unless the key of a file that comes with it is cut
to the same one. -/
def bytesUnderKey : Bytes :=
  let signed := if countersignKey stored.key = stored.key then
    (signatureLeft config world (entered.ticks + 1) stored).getD stored.body else stored.body
  match readDescriptor stored.body with
  | .valid _ _ =>
    if digestKey stored.key = stored.key then (digestLeft config world stored entered).getD signed
    else signed
  | _ => signed

end Accepted

section Accepted

variable {config : Config} {world : World} {request : Request} {state entered : State}
  {stored : StoredFile}

/-- The objects behind a descriptor and its signature. -/
theorem signed_get (stores : Stores config world request state stored entered)
    (writes : world.storeFails entered.ticks = false) (key : Bytes) :
    (signedState config world (writtenState world entered stored) stored).objects.get key =
      if key = countersignKey stored.key then
        (signatureLeft config world (entered.ticks + 1) stored).or
          (if key = stored.key then some stored.body else state.objects.get key)
      else if key = stored.key then some stored.body else state.objects.get key := by
  have written : (writtenState world entered stored).objects =
      state.objects.put stored.key stored.body := by
    simp only [writtenState, World.putObjects, writes, Bool.false_eq_true, if_false,
      stores.frame.1]
  have signed : (signedState config world (writtenState world entered stored) stored).objects =
      countersigned config world (entered.ticks + 1)
        (state.objects.put stored.key stored.body) stored := by
    rw [← written]
    rfl
  rw [signed, countersigned_get, Objects.get_put]

/-- Something that may be left, or what was there. -/
theorem or_some_eq (left : Option Bytes) (before : Bytes) :
    left.or (some before) = some (left.getD before) := by
  cases left <;> rfl

/-- The bytes of a file behind its signature. -/
theorem signed_get_own (stores : Stores config world request state stored entered)
    (writes : world.storeFails entered.ticks = false) :
    (signedState config world (writtenState world entered stored) stored).objects.get stored.key =
      some (if countersignKey stored.key = stored.key then
        (signatureLeft config world (entered.ticks + 1) stored).getD stored.body
      else stored.body) := by
  have get := signed_get stores writes stored.key
  rw [if_pos rfl] at get
  rw [get]
  by_cases same : countersignKey stored.key = stored.key
  · rw [if_pos same.symm, if_pos same, or_some_eq]
  · rw [if_neg (Ne.symm same), if_neg same]

/-- A file that may be left in a place leaves something, or something was there. -/
theorem isSome_over (place : Prop) [Decidable place] (left before : Option Bytes) :
    (if place then left.or before else before).isSome =
      (before.isSome || (decide place && left.isSome)) := by
  by_cases here : place
  · simp [here, Bool.or_comm]
  · simp [here]

/-- The registration of a descriptor finds it where the objects before the upload say so. -/
theorem registered_finds (stores : Stores config world request state stored entered)
    (writes : world.storeFails entered.ticks = false) (named : Coordinate) (version : Semver) :
    (world.storeStatus (registeredState config world
      (signedState config world (writtenState world entered stored) stored) stored named version)
      (pastaKey config.registryId named.group named.artifact named.version) == .ok) =
    findsDescriptor config world state stored entered named := by
  generalize key_def : pastaKey config.registryId named.group named.artifact named.version = key
  let signed := signedState config world (writtenState world entered stored) stored
  have objects : (registeredState config world signed stored named version).objects.get key =
      if key = digestKey stored.key then
        (digestLeft config world stored entered).or (signed.objects.get key)
      else signed.objects.get key :=
    putObjects_get world (registrationTick config stored entered) _ _ _ _
  have ticks : (registeredState config world signed stored named version).ticks =
      registrationTick config stored entered + 5 := rfl
  have begun := signed_get stores writes key
  rw [findsDescriptor, key_def, World.storeStatus, ticks, objects, begun]
  cases world.storeFails (registrationTick config stored entered + 5) with
  | true => rfl
  | false =>
    have status : ∀ found : Bool, ((if found = true then StoreStatus.ok
        else StoreStatus.notFound) == StoreStatus.ok) = found := by
      intro found
      cases found <;> rfl
    have file : (if key = stored.key then some stored.body else state.objects.get key).isSome =
        (decide (key = stored.key) || (state.objects.get key).isSome) := by
      by_cases own : key = stored.key <;> simp [own]
    simp only [Bool.false_eq_true, if_false, status, Bool.not_false, Bool.true_and, isSome_over,
      file]

/-- A descriptor that is accepted leaves tables that say what they said with it, and its bytes. -/
theorem accepted_describes (steady : ∀ tick, world.dbFails tick = false)
    (stores : Stores config world request state stored entered)
    (writes : world.storeFails entered.ticks = false) (descriptor : stored.file.filename = nowPasta)
    (accepted : ¬ (readDescriptor stored.body).Refused) :
    let after := (world.machine.run (handleArtifactPut config request) state).state
    after.objects.get stored.key = some (bytesUnderKey config world stored entered) ∧
      ∃ change, (catalogueWith config world state stored entered).Describes after.db change := by
  intro after
  let signed := signedState config world (writtenState world entered stored) stored
  have begun := signed_get_own stores writes
  have db : signed.db = state.db := stores.frame.2
  have published := @publishDescriptor_run config world stored signed
  have run : after = (world.machine.run (publishDescriptor config stored) signed).state := by
    rw [← (storeArtifact_descriptor stored entered writes descriptor).2, ← stores.run.2]
  unfold catalogueWith bytesUnderKey
  cases read : readDescriptor stored.body with
  | unreadable failure =>
    rw [read] at accepted
    exact absurd trivial accepted
  | invalid =>
    rw [read] at accepted
    exact absurd trivial accepted
  | anonymous =>
    rw [read] at published
    rw [run, published.2, db]
    exact ⟨begun, id, Database.catalogue_describes state.db⟩
  | valid named version =>
    rw [read] at published
    obtain ⟨objects, rows⟩ := @tryPublish_run config world named
      (registeredState config world signed stored named version)
    rw [run, published.2, objects, rows]
    constructor
    · have registered : (registeredState config world signed stored named version).objects.get
          stored.key = if stored.key = digestKey stored.key then
            (digestLeft config world stored entered).or (signed.objects.get stored.key)
          else signed.objects.get stored.key :=
        putObjects_get world (registrationTick config stored entered) _ _ _ _
      rw [registered, begun]
      by_cases same : digestKey stored.key = stored.key
      · rw [if_pos same.symm, or_some_eq]
        simp only [if_pos same]
      · rw [if_neg (Ne.symm same)]
        simp only [if_neg same]
    · have describes := @registered_describes config world steady signed stored named version
      have finds : (world.storeStatus (registeredState config world signed stored named version)
          (pastaKey config.registryId named.group named.artifact named.version) == .ok) =
          findsDescriptor config world state stored entered named :=
        registered_finds stores writes named version
      simp only [finds, db] at describes
      exact ⟨_, describes⟩

end Accepted

/-- A descriptor that is answered with 201 is published for the path of its request, and is returned
for every range of its version, exactly when the tables with the row that it brings say so. -/
theorem resolvable_iff (config : Config) (world : World) (request : Request) (state : State)
    (steady : ∀ tick, world.dbFails tick = false) :
    Resolvable config world request state ↔
      ∀ stored entered, Stores config world request state stored entered →
        world.storeFails entered.ticks = false → stored.file.filename = nowPasta →
        ¬ (readDescriptor stored.body).Refused →
        ∃ row, (catalogueWith config world state stored entered).Shows stored.file.coordinate
          (sha256Hex config (bytesUnderKey config world stored entered)) row := by
  constructor
  · intro resolvable stored entered stores writes descriptor accepted
    obtain ⟨path, claims, checked, target, key, -⟩ := stores.authorized
    obtain ⟨under, change, describes⟩ :=
      accepted_describes steady stores writes descriptor accepted
    have answered := stored_created stores writes fun _ => accepted
    obtain ⟨bytes, row, there, published⟩ := resolvable path stored.file target descriptor
      (by rw [answered]; rfl)
    rw [← key, under] at there
    cases there
    obtain ⟨original, member, changed⟩ := List.mem_map.mp (describes.rows ▸ published.member)
    rw [← changed] at published
    exact ⟨original, (describes.published_iff steady _ _ original member).mp published⟩
  · intro shows path file target descriptor answered
    by_cases comes : ∃ stored entered, Stores config world request state stored entered
    · obtain ⟨stored, entered, stores⟩ := comes
      obtain ⟨otherPath, claims, checked, same, key, -⟩ := stores.authorized
      have both := Except.ok.inj (target.symm.trans same)
      simp only [Prod.mk.injEq] at both
      rw [both.2] at descriptor
      cases writes : world.storeFails entered.ticks with
      | true =>
        rw [stores.run.1, (storeArtifact_failed stored entered writes).1] at answered
        cases answered
      | false =>
        have accepted : ¬ (readDescriptor stored.body).Refused := by
          intro refused
          rw [withdrawn_status stores writes descriptor refused] at answered
          cases answered
        obtain ⟨under, change, describes⟩ :=
          accepted_describes steady stores writes descriptor accepted
        obtain ⟨row, shown⟩ := shows stored entered stores writes descriptor accepted
        refine ⟨bytesUnderKey config world stored entered, change row, ?_, ?_⟩
        · rw [both.1, ← key]
          exact under
        · rw [both.2]
          exact (describes.published_iff steady _ _ row shown.member).mpr shown
    · have refused := @handleArtifactPut_refused config world request state
        fun stored entered stores => comes ⟨stored, entered, stores⟩
      have status := refused.1
      rw [answered] at status
      exact absurd status (by decide)

/-! ## A path with a dot -/

/-- The descriptor of the first version of `core`. -/
def coreDescriptor : RecordedFile where
  body := ascii "\x7bgroup: \"org.acme\", " ++ ascii "artifact: \"core\", " ++
    ascii "version: \"1.0.0\"\x7d"
  digest :=
    [0xCD, 0xB3, 0xF0, 0x87, 0xBD, 0x1D, 0x92, 0x19, 0x7F, 0xE9, 0x84, 0x02, 0x36, 0xC4, 0x9C, 0xF5,
    0x00, 0x42, 0x00, 0x03, 0xFC, 0x0F, 0x0E, 0xBD, 0x8E, 0x67, 0xFC, 0xA9, 0x61, 0x8E, 0x83, 0xE1]
  signature :=
    [0x16, 0x20, 0x52, 0xBD, 0x6F, 0x15, 0x14, 0xD9, 0x4A, 0xC4, 0x1E, 0xF8, 0x91, 0xF8, 0x46, 0x9A,
    0xCC, 0x61, 0x03, 0x7D, 0x72, 0xE5, 0xA9, 0x07, 0x60, 0xFA, 0x6E, 0x93, 0x15, 0x90, 0xBC, 0x1D,
    0xC5, 0xF4, 0x1C, 0x76, 0x45, 0xD5, 0xBB, 0xD8, 0x0E, 0x42, 0xAF, 0x7F, 0x9D, 0x0C, 0x0D, 0xF9,
    0xEB, 0x2F, 0x4A, 0x3C, 0x1B, 0xFD, 0x55, 0x2E, 0x09, 0x4F, 0x13, 0x0D, 0x22, 0xAC, 0xF3, 0x0F]

/-- Where no statement fails, the equivalence holds of this descriptor. -/
theorem resolvable_iff_core :
    Resolvable coreDescriptor.config Grid.quietWorld
      (publisherRequest (ascii "org/acme/core/1.0.0/now.pasta") coreDescriptor.body) freshState ↔
      ∀ stored entered, Stores coreDescriptor.config Grid.quietWorld
        (publisherRequest (ascii "org/acme/core/1.0.0/now.pasta") coreDescriptor.body) freshState
        stored entered →
        Grid.quietWorld.storeFails entered.ticks = false → stored.file.filename = nowPasta →
        ¬ (readDescriptor stored.body).Refused →
        ∃ row, (catalogueWith coreDescriptor.config Grid.quietWorld freshState stored entered).Shows
          stored.file.coordinate
          (sha256Hex coreDescriptor.config
            (bytesUnderKey coreDescriptor.config Grid.quietWorld stored entered)) row :=
  resolvable_iff _ _ _ _ fun _ => rfl

/-- Under a path that spells its group with a dot the same descriptor stays pending. -/
theorem dottedPath_not_resolvable :
    ¬ Resolvable coreDescriptor.config Grid.quietWorld
      (publisherRequest (ascii "org.acme/core/1.0.0/now.pasta") coreDescriptor.body) freshState := by
  intro resolvable
  have target : artifactTarget (publisherRequest (ascii "org.acme/core/1.0.0/now.pasta")
      coreDescriptor.body) = .ok (ascii "org.acme/core/1.0.0/now.pasta",
        ⟨ascii "org.acme", ascii "core", ascii "1.0.0", nowPasta⟩) := rfl
  have created : (Grid.quietWorld.machine.run (handleArtifactPut coreDescriptor.config
      (publisherRequest (ascii "org.acme/core/1.0.0/now.pasta") coreDescriptor.body))
      freshState).value.status = 201 := by
    decide +kernel
  have pending : ∀ row ∈ (Grid.quietWorld.machine.run (handleArtifactPut coreDescriptor.config
      (publisherRequest (ascii "org.acme/core/1.0.0/now.pasta") coreDescriptor.body))
      freshState).state.db.artifacts, row.status ≠ ascii "published" := by
    decide +kernel
  obtain ⟨bytes, row, -, published⟩ := resolvable _ _ target rfl created
  exact pending row published.member published.status

end Cookbook.Server
