import Cookbook.Kv.Rows
import Cookbook.Library.Sql

/-!
# The statements of the server

The statements that the server issues, each as its text and as what an SQL database reads in it. That
both are the same is part of the statement: the tokens of the text are those of the meaning.
-/
namespace Cookbook.Kv

open Library.Text Library.Sql

/-- The bytes of a literal. -/
def bytes (literal : String) : Bytes := literal.toUTF8.data.toList

/-- The bytes of a literal, from its characters. -/
theorem bytes_ofList (characters : List Char) :
    bytes (no_index (String.ofList characters)) = characters.flatMap String.utf8EncodeChar := by
  have encoded : (String.ofList characters).toUTF8 = characters.utf8Encode := rfl
  rw [bytes, encoded, List.utf8Encode, List.data_toByteArray]

/-! ## Expressions and conditions -/

/-- An expression of a statement. -/
inductive Expression
  /-- The parameter with this number, from one on. -/
  | param (index : Nat)
  /-- A text. -/
  | text (value : Bytes)
  /-- A number. -/
  | number (value : Nat)
  /-- `NULL` -/
  | null
  deriving DecidableEq

/-- What a condition compares with. -/
inductive Comparison
  /-- `=` -/
  | equal
  /-- `<` -/
  | below
  /-- `<=` -/
  | atMost
  /-- `>` -/
  | above
  deriving DecidableEq

/-- A condition of a `WHERE` clause. -/
inductive Condition
  /-- A column is compared with an expression. -/
  | compare (column : Bytes) (comparison : Comparison) (value : Expression)
  /-- `IS NULL` -/
  | isNull (column : Bytes)
  deriving DecidableEq

/-- `cookbook_db_param` -/
inductive Param
  /-- A text. -/
  | text (value : Bytes)
  /-- A 64-bit integer. -/
  | int (value : Int)
  /-- Nothing. -/
  | null
  deriving DecidableEq

/-! ## Tokens -/

/-- A keyword or a name. -/
def named (text : String) : Token := .word (bytes text)

/-- The tokens of an expression. -/
def Expression.tokens : Expression → List Token
  | .param index => [.variable (bytes "?" ++ decimalNat index)]
  | .text value => [.string value]
  | .number value => [.number (decimalNat value)]
  | .null => [named "NULL"]

/-- The tokens of a comparison. -/
def Comparison.tokens : Comparison → List Token
  | .equal => [.symbol (bytes "=")]
  | .below => [.symbol (bytes "<")]
  | .atMost => [.symbol (bytes "<=")]
  | .above => [.symbol (bytes ">")]

/-- The tokens of a condition. -/
def Condition.tokens : Condition → List Token
  | .compare column comparison value => .word column :: comparison.tokens ++ value.tokens
  | .isNull column => [.word column, named "IS", named "NULL"]

/-- Pieces with a token between them. -/
def separated (separator : Token) : List (List Token) → List Token
  | [] => []
  | [piece] => piece
  | piece :: pieces => piece ++ separator :: separated separator pieces

/-- Names in parentheses. -/
def parenthesized (pieces : List (List Token)) : List Token :=
  .symbol (bytes "(") :: separated (.symbol (bytes ",")) pieces ++ [.symbol (bytes ")")]

/-- The tokens of a `WHERE` clause. -/
def whereTokens (conditions : List Condition) : List Token :=
  named "WHERE" :: separated (named "AND") (conditions.map Condition.tokens)

/-! ## Statements -/

/-- What a `SELECT` asks for. -/
inductive Selection
  /-- Columns of the rows. -/
  | columns (names : List Bytes)
  /-- The number of rows. -/
  | count
  deriving DecidableEq

/-- The tokens of a selection. -/
def Selection.tokens : Selection → List Token
  | .columns names => separated (.symbol (bytes ",")) (names.map fun name => [.word name])
  | .count => [named "COUNT", .symbol (bytes "("), .symbol (bytes "*"), .symbol (bytes ")")]

/-- A `SELECT` of one table. -/
structure Select where
  /-- The text. -/
  sql : Bytes
  /-- What is asked for. -/
  selection : Selection
  /-- The table. -/
  table : Bytes
  /-- The `WHERE` clause. -/
  conditions : List Condition
  /-- The rows asked for at most. -/
  limit : Option Nat
  /-- The parameters that the server passes. -/
  arity : Nat
  /-- The text has this meaning. -/
  meaning : lex sql = some (named "SELECT" :: selection.tokens ++ named "FROM" :: .word table ::
    whereTokens conditions ++ (limit.map fun rows =>
      [named "LIMIT", .number (decimalNat rows)]).getD [])

/-- A `DELETE`. -/
structure Delete where
  /-- The text. -/
  sql : Bytes
  /-- The table. -/
  table : Bytes
  /-- The `WHERE` clause. -/
  conditions : List Condition
  /-- The text has this meaning. -/
  meaning : lex sql = some (named "DELETE" :: named "FROM" :: .word table ::
    whereTokens conditions)

/-- What an `INSERT` does with a row whose key is there. -/
inductive OnConflict
  /-- It is refused. -/
  | refuse
  /-- `OR IGNORE` -/
  | ignore
  /-- `OR REPLACE` -/
  | replace
  deriving DecidableEq

/-- The tokens in front of `INTO`. -/
def OnConflict.tokens : OnConflict → List Token
  | .refuse => []
  | .ignore => [named "OR", named "IGNORE"]
  | .replace => [named "OR", named "REPLACE"]

/-- An `INSERT`. -/
structure Insert where
  /-- The text. -/
  sql : Bytes
  /-- What is done with a key that is there. -/
  onConflict : OnConflict
  /-- The table. -/
  table : Bytes
  /-- The columns with their values. -/
  assignments : List (Bytes × Expression)
  /-- The parameters that the server passes. -/
  arity : Nat
  /-- The text has this meaning. -/
  meaning : lex sql = some (named "INSERT" :: onConflict.tokens ++ named "INTO" :: .word table ::
    parenthesized (assignments.map fun assignment => [.word assignment.1]) ++ named "VALUES" ::
    parenthesized (assignments.map fun assignment => assignment.2.tokens))

/-- An `UPDATE`. -/
structure Update where
  /-- The text. -/
  sql : Bytes
  /-- The table. -/
  table : Bytes
  /-- The columns with their new values. -/
  assignments : List (Bytes × Expression)
  /-- The `WHERE` clause. -/
  conditions : List Condition
  /-- The parameters that the server passes. -/
  arity : Nat
  /-- The text has this meaning. -/
  meaning : lex sql = some (named "UPDATE" :: .word table :: named "SET" ::
    separated (.symbol (bytes ",")) (assignments.map fun assignment =>
      .word assignment.1 :: .symbol (bytes "=") :: assignment.2.tokens) ++
    whereTokens conditions)

/-- A column equals a parameter. -/
def equalsParam (column : String) (index : Nat) : Condition :=
  .compare (bytes column) .equal (.param index)

/-! ## The `SELECT` statements -/

/-- `reconcile_stale_pending` -/
def selectStale : Select where
  sql := bytes "SELECT coord_id FROM artifacts WHERE status = 'pending' AND pending_since < " ++
    bytes "?1"
  selection := .columns [bytes "coord_id"]
  table := bytes "artifacts"
  conditions := [.compare (bytes "status") .equal (.text (bytes "pending")),
    .compare (bytes "pending_since") .below (.param 1)]
  limit := none
  arity := 1
  meaning := by
    simp only [named, bytes_ofList]
    decide +kernel

/-- `evict_expired_objects`, which counts the rows of this one -/
def selectExpiredKeys : Select where
  sql := bytes "SELECT store_key FROM object_cache WHERE created_at < ?1"
  selection := .columns [bytes "store_key"]
  table := bytes "object_cache"
  conditions := [.compare (bytes "created_at") .below (.param 1)]
  limit := none
  arity := 1
  meaning := by
    simp only [named, bytes_ofList]
    decide +kernel

/-- `evict_expired_objects` -/
def selectExpired : Select where
  sql := bytes "SELECT store_key, cache_key FROM object_cache WHERE created_at < ?1"
  selection := .columns [bytes "store_key", bytes "cache_key"]
  table := bytes "object_cache"
  conditions := [.compare (bytes "created_at") .below (.param 1)]
  limit := none
  arity := 1
  meaning := by
    simp only [named, bytes_ofList]
    decide +kernel

/-- `handle_artifact`, for `GET` -/
def selectYanked : Select where
  sql := bytes "SELECT yanked, yank_reason FROM artifacts WHERE group_id = ?1 AND artifact " ++
    bytes "= ?2 AND version = ?3 LIMIT 1"
  selection := .columns [bytes "yanked", bytes "yank_reason"]
  table := bytes "artifacts"
  conditions := [equalsParam "group_id" 1, equalsParam "artifact" 2, equalsParam "version" 3]
  limit := some 1
  arity := 3
  meaning := by
    simp only [named, bytes_ofList]
    decide +kernel

/-- `handle_auth_token` and `handle_auth_device_verify` -/
def selectCredential : Select where
  sql := bytes "SELECT token_hash, groups FROM credentials WHERE subject = ?1 AND " ++
    bytes "revoked_at IS NULL"
  selection := .columns [bytes "token_hash", bytes "groups"]
  table := bytes "credentials"
  conditions := [equalsParam "subject" 1, .isNull (bytes "revoked_at")]
  limit := none
  arity := 1
  meaning := by
    simp only [named, bytes_ofList]
    decide +kernel

/-- `handle_mirror_manifest`, for one version -/
def selectMirrorVersion : Select where
  sql := bytes "SELECT group_id, artifact, version, triple FROM artifacts WHERE group_id = " ++
    bytes "?1 AND artifact = ?2 AND version = ?3 AND status = 'published'"
  selection := .columns [bytes "group_id", bytes "artifact", bytes "version", bytes "triple"]
  table := bytes "artifacts"
  conditions := [equalsParam "group_id" 1, equalsParam "artifact" 2, equalsParam "version" 3,
    .compare (bytes "status") .equal (.text (bytes "published"))]
  limit := none
  arity := 3
  meaning := by
    simp only [named, bytes_ofList]
    decide +kernel

/-- `handle_mirror_manifest`, for all versions -/
def selectMirror : Select where
  sql := bytes "SELECT group_id, artifact, version, triple FROM artifacts WHERE group_id = " ++
    bytes "?1 AND artifact = ?2 AND status = 'published'"
  selection := .columns [bytes "group_id", bytes "artifact", bytes "version", bytes "triple"]
  table := bytes "artifacts"
  conditions := [equalsParam "group_id" 1, equalsParam "artifact" 2,
    .compare (bytes "status") .equal (.text (bytes "published"))]
  limit := none
  arity := 2
  meaning := by
    simp only [named, bytes_ofList]
    decide +kernel

/-- `handle_admin_groups`, for one group -/
def selectGroup : Select where
  sql := bytes "SELECT group_id, owner_sub, created_at, description FROM groups WHERE " ++
    bytes "group_id = ?1"
  selection := .columns [bytes "group_id", bytes "owner_sub", bytes "created_at", bytes "description"]
  table := bytes "groups"
  conditions := [equalsParam "group_id" 1]
  limit := none
  arity := 1
  meaning := by
    simp only [named, bytes_ofList]
    decide +kernel

/-- `handle_admin_groups`, for `DELETE` -/
def countArtifacts : Select where
  sql := bytes "SELECT COUNT(*) FROM artifacts WHERE group_id = ?1"
  selection := .count
  table := bytes "artifacts"
  conditions := [equalsParam "group_id" 1]
  limit := none
  arity := 1
  meaning := by
    simp only [named, bytes_ofList]
    decide +kernel

/-- `cookbook_server_start` -/
def selectRevocations : Select where
  sql := bytes "SELECT jti, expires_at FROM revocations WHERE expires_at > ?1"
  selection := .columns [bytes "jti", bytes "expires_at"]
  table := bytes "revocations"
  conditions := [.compare (bytes "expires_at") .above (.param 1)]
  limit := none
  arity := 1
  meaning := by
    simp only [named, bytes_ofList]
    decide +kernel

/-- `cookbook_policy_get` -/
def selectPolicy : Select where
  sql := bytes "SELECT pastlet FROM policies WHERE subject = ?1"
  selection := .columns [bytes "pastlet"]
  table := bytes "policies"
  conditions := [equalsParam "subject" 1]
  limit := none
  arity := 1
  meaning := by
    simp only [named, bytes_ofList]
    decide +kernel

/-- The `SELECT` statements of one table. -/
def selects : List Select :=
  [selectStale, selectExpiredKeys, selectExpired, selectYanked,
    selectCredential, selectMirrorVersion, selectMirror, selectGroup, countArtifacts,
    selectRevocations, selectPolicy]

/-! ## The `SELECT` statements without parameters -/

/-- A `SELECT` of one table that stands in the source as it is sent. -/
structure Listing where
  /-- The text. -/
  sql : Bytes
  /-- `DISTINCT` -/
  distinct : Bool
  /-- The columns that are asked for. -/
  columns : List Bytes
  /-- The table. -/
  table : Bytes
  /-- The `WHERE` clause, empty without one. -/
  conditions : List Condition
  /-- The columns that the rows are ordered by. -/
  order : List Bytes
  /-- `ASC` is written. -/
  ascending : Bool
  /-- The text has this meaning. -/
  meaning : lex sql = some (named "SELECT" :: (if distinct then [named "DISTINCT"] else []) ++
    (Selection.columns columns).tokens ++ named "FROM" :: .word table ::
    (if conditions = [] then [] else whereTokens conditions) ++ named "ORDER" :: named "BY" ::
    (Selection.columns order).tokens ++ if ascending then [named "ASC"] else [])

/-- `handle_mirror_manifest`, for all groups -/
def listPublished : Listing where
  sql := bytes "SELECT DISTINCT group_id, artifact, version, triple FROM artifacts WHERE " ++
    bytes "status = 'published' AND yanked = 0 ORDER BY group_id, artifact, version"
  distinct := true
  columns := [bytes "group_id", bytes "artifact", bytes "version", bytes "triple"]
  table := bytes "artifacts"
  conditions := [.compare (bytes "status") .equal (.text (bytes "published")),
    .compare (bytes "yanked") .equal (.number 0)]
  order := [bytes "group_id", bytes "artifact", bytes "version"]
  ascending := false
  meaning := by
    simp only [named, bytes_ofList]
    decide +kernel

/-- `handle_admin_groups`, for all groups -/
def listGroups : Listing where
  sql := bytes "SELECT group_id, owner_sub, created_at, description FROM groups ORDER BY " ++
    bytes "group_id"
  distinct := false
  columns := [bytes "group_id", bytes "owner_sub", bytes "created_at", bytes "description"]
  table := bytes "groups"
  conditions := []
  order := [bytes "group_id"]
  ascending := false
  meaning := by
    simp only [named, bytes_ofList]
    decide +kernel

/-- `handle_admin_credentials` -/
def listCredentials : Listing where
  sql := bytes "SELECT subject, groups, created_at, revoked_at FROM credentials ORDER BY subject"
  distinct := false
  columns := [bytes "subject", bytes "groups", bytes "created_at", bytes "revoked_at"]
  table := bytes "credentials"
  conditions := []
  order := [bytes "subject"]
  ascending := false
  meaning := by
    simp only [named, bytes_ofList]
    decide +kernel

/-- `handle_admin_policies` -/
def listPolicies : Listing where
  sql := bytes "SELECT subject, kind, updated_at FROM policies ORDER BY subject"
  distinct := false
  columns := [bytes "subject", bytes "kind", bytes "updated_at"]
  table := bytes "policies"
  conditions := []
  order := [bytes "subject"]
  ascending := false
  meaning := by
    simp only [named, bytes_ofList]
    decide +kernel

/-- `cookbook_grid_load_peers` -/
def listPeers : Listing where
  sql := bytes "SELECT peer_id, name, url, mode, priority, public_key FROM peers WHERE " ++
    bytes "enabled = 1 ORDER BY priority ASC"
  distinct := false
  columns := [bytes "peer_id", bytes "name", bytes "url", bytes "mode", bytes "priority",
    bytes "public_key"]
  table := bytes "peers"
  conditions := [.compare (bytes "enabled") .equal (.number 1)]
  order := [bytes "priority"]
  ascending := true
  meaning := by
    simp only [named, bytes_ofList]
    decide +kernel

/-- The `SELECT` statements of one table that are sent without parameters. -/
def listings : List Listing :=
  [listPublished, listGroups, listCredentials, listPolicies, listPeers]

/-! ## The `DELETE` statements -/

/-- `reconcile_stale_pending` -/
def deleteSemver : Delete where
  sql := bytes "DELETE FROM artifact_semver WHERE coord_id = ?1"
  table := bytes "artifact_semver"
  conditions := [equalsParam "coord_id" 1]
  meaning := by
    simp only [named, bytes_ofList]
    decide +kernel

/-- `reconcile_stale_pending` -/
def deleteStale : Delete where
  sql := bytes "DELETE FROM artifacts WHERE coord_id = ?1 AND status = 'pending'"
  table := bytes "artifacts"
  conditions := [equalsParam "coord_id" 1,
    .compare (bytes "status") .equal (.text (bytes "pending"))]
  meaning := by
    simp only [named, bytes_ofList]
    decide +kernel

/-- `evict_expired_objects` -/
def deleteCached : Delete where
  sql := bytes "DELETE FROM object_cache WHERE cache_key = ?1"
  table := bytes "object_cache"
  conditions := [equalsParam "cache_key" 1]
  meaning := by
    simp only [named, bytes_ofList]
    decide +kernel

/-- `handle_admin_peers` -/
def deletePeer : Delete where
  sql := bytes "DELETE FROM peers WHERE peer_id = ?1"
  table := bytes "peers"
  conditions := [equalsParam "peer_id" 1]
  meaning := by
    simp only [named, bytes_ofList]
    decide +kernel

/-- `handle_admin_groups` -/
def deleteGroup : Delete where
  sql := bytes "DELETE FROM groups WHERE group_id = ?1"
  table := bytes "groups"
  conditions := [equalsParam "group_id" 1]
  meaning := by
    simp only [named, bytes_ofList]
    decide +kernel

/-- `handle_admin_credentials` -/
def deleteCredential : Delete where
  sql := bytes "DELETE FROM credentials WHERE subject = ?1"
  table := bytes "credentials"
  conditions := [equalsParam "subject" 1]
  meaning := by
    simp only [named, bytes_ofList]
    decide +kernel

/-- `cookbook_server_start` -/
def deleteRevocations : Delete where
  sql := bytes "DELETE FROM revocations WHERE expires_at <= ?1"
  table := bytes "revocations"
  conditions := [.compare (bytes "expires_at") .atMost (.param 1)]
  meaning := by
    simp only [named, bytes_ofList]
    decide +kernel

/-- `cookbook_policy_delete` -/
def deletePolicy : Delete where
  sql := bytes "DELETE FROM policies WHERE subject = ?1"
  table := bytes "policies"
  conditions := [equalsParam "subject" 1]
  meaning := by
    simp only [named, bytes_ofList]
    decide +kernel

/-- The `DELETE` statements. -/
def deletes : List Delete :=
  [deleteSemver, deleteStale, deleteCached, deletePeer, deleteGroup,
    deleteCredential, deleteRevocations, deletePolicy]

/-! ## The `INSERT` statements -/

/-- `handle_artifact`, for a group that is new -/
def insertOwnGroup : Insert where
  sql := bytes "INSERT OR IGNORE INTO groups (group_id, owner_sub) VALUES (?1, ?2)"
  onConflict := .ignore
  table := bytes "groups"
  assignments := [(bytes "group_id", .param 1), (bytes "owner_sub", .param 2)]
  arity := 2
  meaning := by
    simp only [named, bytes_ofList]
    decide +kernel

/-- `handle_artifact`, for a descriptor -/
def insertArtifact : Insert where
  sql := bytes "INSERT OR IGNORE INTO artifacts (coord_id, group_id, artifact, version, " ++
    bytes "triple,  sha256, descriptor_sha256, snapshot, status,  size_bytes, " ++
    bytes "pending_since) VALUES (?1, ?2, ?3, ?4, ?5, ?6, ?7, ?8,  'pending', ?9, ?10)"
  onConflict := .ignore
  table := bytes "artifacts"
  assignments := [(bytes "coord_id", .param 1), (bytes "group_id", .param 2),
    (bytes "artifact", .param 3), (bytes "version", .param 4), (bytes "triple", .param 5),
    (bytes "sha256", .param 6), (bytes "descriptor_sha256", .param 7),
    (bytes "snapshot", .param 8), (bytes "status", .text (bytes "pending")),
    (bytes "size_bytes", .param 9), (bytes "pending_since", .param 10)]
  arity := 10
  meaning := by
    simp only [named, bytes_ofList]
    decide +kernel

/-- `handle_artifact`, for the index of versions -/
def insertSemver : Insert where
  sql := bytes "INSERT OR IGNORE INTO artifact_semver (coord_id, major, minor, patch, " ++
    bytes "pre_release, build_meta) VALUES (?1, ?2, ?3, ?4, ?5, ?6)"
  onConflict := .ignore
  table := bytes "artifact_semver"
  assignments := [(bytes "coord_id", .param 1), (bytes "major", .param 2),
    (bytes "minor", .param 3), (bytes "patch", .param 4), (bytes "pre_release", .param 5),
    (bytes "build_meta", .param 6)]
  arity := 6
  meaning := by
    simp only [named, bytes_ofList]
    decide +kernel

/-- `handle_auth_revoke` -/
def insertRevocation : Insert where
  sql := bytes "INSERT OR IGNORE INTO revocations (jti, subject, revoked_at, expires_at) " ++
    bytes "VALUES (?1, ?2, ?3, ?4)"
  onConflict := .ignore
  table := bytes "revocations"
  assignments := [(bytes "jti", .param 1), (bytes "subject", .param 2),
    (bytes "revoked_at", .param 3), (bytes "expires_at", .param 4)]
  arity := 4
  meaning := by
    simp only [named, bytes_ofList]
    decide +kernel

/-- `handle_keys` -/
def insertKey : Insert where
  sql := bytes "INSERT INTO publisher_keys (key_id, group_id, public_key, comment, " ++
    bytes "added_at) VALUES (?1, ?2, ?3, ?4, ?5)"
  onConflict := .refuse
  table := bytes "publisher_keys"
  assignments := [(bytes "key_id", .param 1), (bytes "group_id", .param 2),
    (bytes "public_key", .param 3), (bytes "comment", .param 4),
    (bytes "added_at", .param 5)]
  arity := 5
  meaning := by
    simp only [named, bytes_ofList]
    decide +kernel

/-- `handle_admin_peers` -/
def insertPeer : Insert where
  sql := bytes "INSERT OR REPLACE INTO peers (peer_id, name, url, mode, priority, enabled, " ++
    bytes "public_key, added_at) VALUES (?1, ?2, ?3, ?4, ?5, 1, ?6, ?7)"
  onConflict := .replace
  table := bytes "peers"
  assignments := [(bytes "peer_id", .param 1), (bytes "name", .param 2),
    (bytes "url", .param 3), (bytes "mode", .param 4), (bytes "priority", .param 5),
    (bytes "enabled", .number 1), (bytes "public_key", .param 6),
    (bytes "added_at", .param 7)]
  arity := 7
  meaning := by
    simp only [named, bytes_ofList]
    decide +kernel

/-- `handle_objects` -/
def insertCached : Insert where
  sql := bytes "INSERT OR REPLACE INTO object_cache (cache_key, store_key, size_bytes, " ++
    bytes "created_at) VALUES (?1, ?2, ?3, ?4)"
  onConflict := .replace
  table := bytes "object_cache"
  assignments := [(bytes "cache_key", .param 1), (bytes "store_key", .param 2),
    (bytes "size_bytes", .param 3), (bytes "created_at", .param 4)]
  arity := 4
  meaning := by
    simp only [named, bytes_ofList]
    decide +kernel

/-- `handle_admin_groups`, with a description -/
def insertDescribedGroup : Insert where
  sql := bytes "INSERT INTO groups (group_id, owner_sub, created_at, description) VALUES " ++
    bytes "(?1, ?2, ?3, ?4)"
  onConflict := .refuse
  table := bytes "groups"
  assignments := [(bytes "group_id", .param 1), (bytes "owner_sub", .param 2),
    (bytes "created_at", .param 3), (bytes "description", .param 4)]
  arity := 4
  meaning := by
    simp only [named, bytes_ofList]
    decide +kernel

/-- `handle_admin_groups`, without a description -/
def insertGroup : Insert where
  sql := bytes "INSERT INTO groups (group_id, owner_sub, created_at) VALUES (?1, ?2, ?3)"
  onConflict := .refuse
  table := bytes "groups"
  assignments := [(bytes "group_id", .param 1), (bytes "owner_sub", .param 2),
    (bytes "created_at", .param 3)]
  arity := 3
  meaning := by
    simp only [named, bytes_ofList]
    decide +kernel

/-- `handle_admin_credentials` -/
def insertCredential : Insert where
  sql := bytes "INSERT OR REPLACE INTO credentials (subject, token_hash, groups, " ++
    bytes "created_at, revoked_at) VALUES (?1, ?2, ?3, ?4, NULL)"
  onConflict := .replace
  table := bytes "credentials"
  assignments := [(bytes "subject", .param 1), (bytes "token_hash", .param 2),
    (bytes "groups", .param 3), (bytes "created_at", .param 4), (bytes "revoked_at", .null)]
  arity := 4
  meaning := by
    simp only [named, bytes_ofList]
    decide +kernel

/-- `cookbook_policy_put` -/
def insertPolicy : Insert where
  sql := bytes "INSERT OR REPLACE INTO policies (subject, kind, pastlet, updated_at) VALUES " ++
    bytes "(?1, ?2, ?3, ?4)"
  onConflict := .replace
  table := bytes "policies"
  assignments := [(bytes "subject", .param 1), (bytes "kind", .param 2),
    (bytes "pastlet", .param 3), (bytes "updated_at", .param 4)]
  arity := 4
  meaning := by
    simp only [named, bytes_ofList]
    decide +kernel

/-- The `INSERT` statements. -/
def inserts : List Insert :=
  [insertOwnGroup, insertArtifact, insertSemver, insertRevocation, insertKey,
    insertPeer, insertCached, insertDescribedGroup, insertGroup, insertCredential,
    insertPolicy]

/-! ## The `UPDATE` statements -/

/-- `try_publish` -/
def updatePublished : Update where
  sql := bytes "UPDATE artifacts SET status = 'published', published_at = ?1 WHERE group_id " ++
    bytes "= ?2 AND artifact = ?3 AND version = ?4 AND status = 'pending'"
  table := bytes "artifacts"
  assignments := [(bytes "status", .text (bytes "published")),
    (bytes "published_at", .param 1)]
  conditions := [equalsParam "group_id" 2, equalsParam "artifact" 3, equalsParam "version" 4,
    .compare (bytes "status") .equal (.text (bytes "pending"))]
  arity := 4
  meaning := by
    simp only [named, bytes_ofList]
    decide +kernel

/-- `handle_artifact`, for a yank -/
def updateYanked : Update where
  sql := bytes "UPDATE artifacts SET yanked = 1, yank_reason = ?4 WHERE group_id = ?1 AND " ++
    bytes "artifact = ?2 AND version = ?3"
  table := bytes "artifacts"
  assignments := [(bytes "yanked", .number 1), (bytes "yank_reason", .param 4)]
  conditions := [equalsParam "group_id" 1, equalsParam "artifact" 2, equalsParam "version" 3]
  arity := 4
  meaning := by
    simp only [named, bytes_ofList]
    decide +kernel

/-- `handle_keys`, for a revocation -/
def updateKey : Update where
  sql := bytes "UPDATE publisher_keys SET revoked_at = ?1 WHERE key_id = ?2 AND revoked_at " ++
    bytes "IS NULL"
  table := bytes "publisher_keys"
  assignments := [(bytes "revoked_at", .param 1)]
  conditions := [equalsParam "key_id" 2, .isNull (bytes "revoked_at")]
  arity := 2
  meaning := by
    simp only [named, bytes_ofList]
    decide +kernel

/-- `handle_admin_groups`, for the owner -/
def updateOwner : Update where
  sql := bytes "UPDATE groups SET owner_sub = ?1 WHERE group_id = ?2"
  table := bytes "groups"
  assignments := [(bytes "owner_sub", .param 1)]
  conditions := [equalsParam "group_id" 2]
  arity := 2
  meaning := by
    simp only [named, bytes_ofList]
    decide +kernel

/-- `handle_admin_groups`, for the description -/
def updateDescription : Update where
  sql := bytes "UPDATE groups SET description = ?1 WHERE group_id = ?2"
  table := bytes "groups"
  assignments := [(bytes "description", .param 1)]
  conditions := [equalsParam "group_id" 2]
  arity := 2
  meaning := by
    simp only [named, bytes_ofList]
    decide +kernel

/-- `handle_admin_credentials`, for a revocation -/
def updateCredential : Update where
  sql := bytes "UPDATE credentials SET revoked_at = ?1 WHERE subject = ?2 AND revoked_at IS " ++
    bytes "NULL"
  table := bytes "credentials"
  assignments := [(bytes "revoked_at", .param 1)]
  conditions := [equalsParam "subject" 2, .isNull (bytes "revoked_at")]
  arity := 2
  meaning := by
    simp only [named, bytes_ofList]
    decide +kernel

/-- The `UPDATE` statements. -/
def updates : List Update :=
  [updatePublished, updateYanked, updateKey, updateOwner, updateDescription,
    updateCredential]

end Cookbook.Kv
