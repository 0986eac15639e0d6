import Cookbook.Library.Text

/-!
# The database and the object store

The tables of `SCHEMA_SQL` as lists of rows, the statements the server executes on them, and the
object store as a list of keys with their bytes. A statement that would break a key or a reference
is refused and changes nothing.
-/
namespace Cookbook.Server

open Library.Text

/-! ## Rows -/

/-- A row of `groups`. -/
structure GroupRow where
  /-- `group_id` -/
  groupId : Bytes
  /-- `owner_sub` -/
  ownerSub : Bytes
  /-- `created_at` -/
  createdAt : Option Bytes
  /-- `description` -/
  description : Option Bytes
  deriving DecidableEq

/-- A row of `publisher_keys`. -/
structure PublisherKeyRow where
  /-- `key_id` -/
  keyId : Bytes
  /-- `group_id` -/
  groupId : Bytes
  /-- `public_key` -/
  publicKey : Bytes
  /-- `comment` -/
  comment : Option Bytes
  /-- `added_at` -/
  addedAt : Bytes
  /-- `revoked_at` -/
  revokedAt : Option Bytes
  deriving DecidableEq

/-- A row of `artifacts`. -/
structure ArtifactRow where
  /-- `coord_id` -/
  coordId : Bytes
  /-- `group_id` -/
  groupId : Bytes
  /-- `artifact` -/
  artifact : Bytes
  /-- `version` -/
  version : Bytes
  /-- `triple` -/
  triple : Bytes
  /-- `snapshot` -/
  snapshot : Int
  /-- `yanked` -/
  yanked : Int
  /-- `yank_reason` -/
  yankReason : Option Bytes
  /-- `status` -/
  status : Bytes
  /-- `sha256` -/
  sha256 : Bytes
  /-- `descriptor_sha256` -/
  descriptorSha256 : Option Bytes
  /-- `size_bytes` -/
  sizeBytes : Int
  /-- `pending_since` -/
  pendingSince : Bytes
  /-- `published_at` -/
  publishedAt : Option Bytes
  deriving DecidableEq

/-- A row of `artifact_semver`. -/
structure ArtifactSemverRow where
  /-- `coord_id` -/
  coordId : Bytes
  /-- `major` -/
  major : Int
  /-- `minor` -/
  minor : Int
  /-- `patch` -/
  patch : Int
  /-- `pre_release` -/
  preRelease : Option Bytes
  /-- `build_meta` -/
  buildMeta : Option Bytes
  deriving DecidableEq

/-- A row of `credentials`. -/
structure CredentialRow where
  /-- `subject` -/
  subject : Bytes
  /-- `token_hash` -/
  tokenHash : Bytes
  /-- `groups` -/
  groups : Bytes
  /-- `created_at` -/
  createdAt : Bytes
  /-- `revoked_at` -/
  revokedAt : Option Bytes
  deriving DecidableEq

/-- A row of `policies`. -/
structure PolicyRow where
  /-- `subject` -/
  subject : Bytes
  /-- `kind` -/
  kind : Bytes
  /-- `pastlet` -/
  pastlet : Bytes
  /-- `updated_at` -/
  updatedAt : Bytes
  deriving DecidableEq

/-- A row of `revocations`. -/
structure RevocationRow where
  /-- `jti` -/
  jti : Bytes
  /-- `subject` -/
  subject : Bytes
  /-- `revoked_at` -/
  revokedAt : Bytes
  /-- `expires_at` -/
  expiresAt : Int
  deriving DecidableEq

/-- A row of `object_cache`. -/
structure ObjectCacheRow where
  /-- `cache_key` -/
  cacheKey : Bytes
  /-- `store_key` -/
  storeKey : Bytes
  /-- `size_bytes` -/
  sizeBytes : Int
  /-- `created_at` -/
  createdAt : Int
  deriving DecidableEq

/-- A row of `peers`. -/
structure PeerRow where
  /-- `peer_id` -/
  peerId : Bytes
  /-- `name` -/
  name : Bytes
  /-- `url` -/
  url : Bytes
  /-- `mode` -/
  mode : Bytes
  /-- `priority` -/
  priority : Int
  /-- `enabled` -/
  enabled : Int
  /-- `public_key` -/
  publicKey : Option Bytes
  /-- `added_at` -/
  addedAt : Bytes
  deriving DecidableEq

/-- The tables. -/
structure Database where
  /-- `groups` -/
  groups : List GroupRow
  /-- `publisher_keys` -/
  publisherKeys : List PublisherKeyRow
  /-- `artifacts` -/
  artifacts : List ArtifactRow
  /-- `artifact_semver` -/
  artifactSemver : List ArtifactSemverRow
  /-- `credentials` -/
  credentials : List CredentialRow
  /-- `policies` -/
  policies : List PolicyRow
  /-- `revocations` -/
  revocations : List RevocationRow
  /-- `object_cache` -/
  objectCache : List ObjectCacheRow
  /-- `peers` -/
  peers : List PeerRow
  deriving DecidableEq

/-- The tables of a new database. -/
def Database.empty : Database := ⟨[], [], [], [], [], [], [], [], []⟩

/-! ## Statements -/

/-- The statements the server executes with bound parameters. -/
inductive Stmt
  /-- `INSERT OR IGNORE INTO groups (group_id, owner_sub)` -/
  | ensureGroup (groupId ownerSub : Bytes)
  /-- `INSERT INTO groups` -/
  | insertGroup (groupId ownerSub createdAt : Bytes) (description : Option Bytes)
  /-- `UPDATE groups SET owner_sub` -/
  | setGroupOwner (ownerSub groupId : Bytes)
  /-- `UPDATE groups SET description` -/
  | setGroupDescription (description groupId : Bytes)
  /-- `DELETE FROM groups` -/
  | deleteGroup (groupId : Bytes)
  /-- `INSERT INTO publisher_keys` -/
  | insertKey (keyId groupId publicKey : Bytes) (comment : Option Bytes) (addedAt : Bytes)
  /-- `UPDATE publisher_keys SET revoked_at` of a key that is not revoked -/
  | revokeKey (revokedAt keyId : Bytes)
  /-- `INSERT OR IGNORE INTO artifacts`, pending -/
  | insertArtifact (row : ArtifactRow)
  /-- `INSERT OR IGNORE INTO artifact_semver` -/
  | insertSemver (row : ArtifactSemverRow)
  /-- `UPDATE artifacts SET status = 'published'` of pending rows -/
  | publishArtifact (now groupId artifact version : Bytes)
  /-- `UPDATE artifacts SET yanked = 1` -/
  | yankArtifact (groupId artifact version : Bytes) (reason : Option Bytes)
  /-- `DELETE FROM artifact_semver` -/
  | deleteSemver (coordId : Bytes)
  /-- `DELETE FROM artifacts` of pending rows -/
  | deletePending (coordId : Bytes)
  /-- `INSERT OR REPLACE INTO credentials`, not revoked -/
  | putCredential (subject tokenHash groups createdAt : Bytes)
  /-- `UPDATE credentials SET revoked_at` of a credential that is not revoked -/
  | revokeCredential (revokedAt subject : Bytes)
  /-- `DELETE FROM credentials` -/
  | deleteCredential (subject : Bytes)
  /-- `INSERT OR REPLACE INTO policies` -/
  | putPolicy (row : PolicyRow)
  /-- `DELETE FROM policies` -/
  | deletePolicy (subject : Bytes)
  /-- `INSERT OR IGNORE INTO revocations` -/
  | insertRevocation (row : RevocationRow)
  /-- `DELETE FROM revocations` up to an expiry -/
  | purgeRevocations (expiresAt : Int)
  /-- `INSERT OR REPLACE INTO object_cache` -/
  | putCacheEntry (row : ObjectCacheRow)
  /-- `DELETE FROM object_cache` -/
  | deleteCacheEntry (cacheKey : Bytes)
  /-- `INSERT OR REPLACE INTO peers`, enabled -/
  | putPeer (peerId name url mode : Bytes) (priority : Int) (publicKey : Option Bytes)
      (addedAt : Bytes)
  /-- `DELETE FROM peers` -/
  | deletePeer (peerId : Bytes)
  deriving DecidableEq

namespace Database

/-- There is a group of this name. -/
def hasGroup (db : Database) (groupId : Bytes) : Bool := db.groups.any (·.groupId == groupId)

/-- There is an artifact row of this coordinate. -/
def hasCoord (db : Database) (coordId : Bytes) : Bool := db.artifacts.any (·.coordId == coordId)

/-- A new artifact row repeats a key. -/
def clashes (db : Database) (row : ArtifactRow) : Bool :=
  db.artifacts.any fun old => old.coordId == row.coordId ||
    (old.groupId == row.groupId && old.artifact == row.artifact && old.version == row.version &&
      old.triple == row.triple)

/-- Change the rows that a condition selects. -/
def update {Row : Type} (rows : List Row) (selects : Row → Bool) (change : Row → Row) : List Row :=
  rows.map fun row => if selects row then change row else row

/-- Execute a statement: none when a constraint refuses it. -/
def exec (db : Database) : Stmt → Option Database
  | .ensureGroup groupId ownerSub =>
    if db.hasGroup groupId then some db
    else some { db with groups := db.groups ++ [⟨groupId, ownerSub, none, none⟩] }
  | .insertGroup groupId ownerSub createdAt description =>
    if db.hasGroup groupId then none
    else some { db with groups := db.groups ++ [⟨groupId, ownerSub, some createdAt, description⟩] }
  | .setGroupOwner ownerSub groupId =>
    some { db with
      groups := update db.groups (·.groupId == groupId) fun row => { row with ownerSub } }
  | .setGroupDescription description groupId =>
    some { db with
      groups := update db.groups (·.groupId == groupId) fun row =>
        { row with description := some description } }
  | .deleteGroup groupId =>
    if db.hasGroup groupId && (db.publisherKeys.any (·.groupId == groupId) ||
        db.artifacts.any (·.groupId == groupId)) then none
    else some { db with groups := db.groups.filter (·.groupId != groupId) }
  | .insertKey keyId groupId publicKey comment addedAt =>
    if db.publisherKeys.any (·.keyId == keyId) || !db.hasGroup groupId then none
    else some { db with
      publisherKeys := db.publisherKeys ++ [⟨keyId, groupId, publicKey, comment, addedAt, none⟩] }
  | .revokeKey revokedAt keyId =>
    some { db with
      publisherKeys := update db.publisherKeys
        (fun row => row.keyId == keyId && row.revokedAt.isNone)
        fun row => { row with revokedAt := some revokedAt } }
  | .insertArtifact row =>
    if db.clashes row then some db
    else if db.hasGroup row.groupId then some { db with artifacts := db.artifacts ++ [row] }
    else none
  | .insertSemver row =>
    if db.hasCoord row.coordId then
      some { db with artifactSemver := db.artifactSemver ++ [row] }
    else none
  | .publishArtifact now groupId artifact version =>
    some { db with
      artifacts := update db.artifacts
        (fun row => row.groupId == groupId && row.artifact == artifact && row.version == version &&
          row.status == ascii "pending")
        fun row => { row with status := ascii "published", publishedAt := some now } }
  | .yankArtifact groupId artifact version reason =>
    some { db with
      artifacts := update db.artifacts
        (fun row => row.groupId == groupId && row.artifact == artifact && row.version == version)
        fun row => { row with yanked := 1, yankReason := reason } }
  | .deleteSemver coordId =>
    some { db with artifactSemver := db.artifactSemver.filter (·.coordId != coordId) }
  | .deletePending coordId =>
    if db.artifacts.any (fun row => row.coordId == coordId && row.status == ascii "pending") &&
        db.artifactSemver.any (·.coordId == coordId) then none
    else some { db with artifacts := db.artifacts.filter fun row =>
      !(row.coordId == coordId && row.status == ascii "pending") }
  | .putCredential subject tokenHash groups createdAt =>
    some { db with credentials := db.credentials.filter (·.subject != subject) ++
      [⟨subject, tokenHash, groups, createdAt, none⟩] }
  | .revokeCredential revokedAt subject =>
    some { db with
      credentials := update db.credentials
        (fun row => row.subject == subject && row.revokedAt.isNone)
        fun row => { row with revokedAt := some revokedAt } }
  | .deleteCredential subject =>
    some { db with credentials := db.credentials.filter (·.subject != subject) }
  | .putPolicy row =>
    some { db with policies := db.policies.filter (·.subject != row.subject) ++ [row] }
  | .deletePolicy subject =>
    some { db with policies := db.policies.filter (·.subject != subject) }
  | .insertRevocation row =>
    if db.revocations.any (·.jti == row.jti) then some db
    else some { db with revocations := db.revocations ++ [row] }
  | .purgeRevocations expiresAt =>
    some { db with revocations := db.revocations.filter fun row => decide (expiresAt < row.expiresAt) }
  | .putCacheEntry row =>
    some { db with objectCache := db.objectCache.filter (·.cacheKey != row.cacheKey) ++ [row] }
  | .deleteCacheEntry cacheKey =>
    some { db with objectCache := db.objectCache.filter (·.cacheKey != cacheKey) }
  | .putPeer peerId name url mode priority publicKey addedAt =>
    some { db with peers := db.peers.filter (fun row => row.peerId != peerId && row.url != url) ++
      [⟨peerId, name, url, mode, priority, 1, publicKey, addedAt⟩] }
  | .deletePeer peerId => some { db with peers := db.peers.filter (·.peerId != peerId) }

end Database

/-! ## The object store -/

/-- Stored objects by key. -/
abbrev Objects := List (Bytes × Bytes)

namespace Objects

/-- The object under a key. -/
def get (objects : Objects) (key : Bytes) : Option Bytes :=
  (objects.find? (·.1 == key)).map Prod.snd

/-- Objects without a key. -/
def del (objects : Objects) (key : Bytes) : Objects := objects.filter (·.1 != key)

/-- Objects with new bytes under a key. -/
def put (objects : Objects) (key data : Bytes) : Objects := (key, data) :: objects.del key

/-- A deletion takes away one object. -/
theorem get_del (objects : Objects) (key other : Bytes) :
    (objects.del key).get other = if other = key then none else objects.get other := by
  induction objects with
  | nil => simp [del, get]
  | cons entry objects ih =>
    have rest : (del (entry :: objects) key).get other =
        if entry.1 = key then (del objects key).get other
        else get (entry :: del objects key) other := by
      unfold del
      rw [List.filter_cons]
      by_cases same : entry.1 = key
      · simp [same]
      · simp [same]
    rw [rest]
    by_cases same : entry.1 = key
    · rw [if_pos same, ih]
      by_cases own : other = key
      · simp [own]
      · have differ : (entry.1 == other) = false := by
          rw [same]
          simpa using fun equal => own equal.symm
        simp [own, get, differ]
    · rw [if_neg same]
      by_cases first : entry.1 = other
      · have own : other ≠ key := fun equal => same (first.trans equal)
        simp [get, first, own]
      · have differ : (entry.1 == other) = false := by simpa using first
        have skip : ∀ list : Objects, get (entry :: list) other = get list other := by
          intro list
          simp [get, differ]
        rw [skip, skip, ih]

/-- A write puts one object in its place. -/
theorem get_put (objects : Objects) (key data other : Bytes) :
    (objects.put key data).get other = if other = key then some data else objects.get other := by
  by_cases own : other = key
  · simp [put, get, own]
  · have differ : (key == other) = false := by simpa using fun equal => own equal.symm
    have deleted := get_del objects key other
    rw [if_neg own] at deleted
    rw [if_neg own, ← deleted]
    simp [put, get, differ]

end Objects

end Cookbook.Server
