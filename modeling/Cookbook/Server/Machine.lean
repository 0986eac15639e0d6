import Cookbook.Grid.GrantHeaders
import Cookbook.Library.Number
import Cookbook.Library.Program
import Cookbook.Library.Sql
import Cookbook.Server.Tables

/-!
# The machine under the handlers

A request handler is a program over the operations it calls: the clock, the database, the object
store, the token revocation list, the rate limiter and the external identity providers. The world
answers what the server does not decide itself: the time, failures of the database and of the store,
passwords, and what an SQL text does that the server did not write.
-/
namespace Cookbook.Server

open Library.Text Library.Sql Library.Program

/-! ## Requests and replies -/

/-- A request as the HTTP server hands it to a handler. -/
structure Request where
  /-- `request_method` -/
  method : Bytes
  /-- `local_uri` -/
  localUri : Bytes
  /-- `query_string` -/
  queryString : Option Bytes
  /-- `http_headers` -/
  headers : Grid.Headers
  /-- `content_length`, negative when there is none. -/
  contentLength : Int
  /-- What the client sends as the body. -/
  body : Bytes
  /-- The bytes that lie behind the body's buffer in memory. -/
  behindBody : Bytes

/-- A reply: its status, the header fields that depend on the request, and its body. -/
structure Reply where
  /-- The status code. -/
  status : Nat
  /-- The header fields. -/
  fields : Grid.Headers
  /-- The body. -/
  body : Bytes
  deriving DecidableEq

/-- `send_json` -/
def sendJson (status : Nat) (body : Bytes) : Reply := ⟨status, [], body⟩

/-- A JSON object with one member that is a text, and the end of the line. -/
def jsonLine (name : String) (value : Bytes) : Bytes :=
  openBrace :: quote :: (ascii name ++ quote :: colon :: quote :: (value ++
    [quote, closeBrace, newline]))

/-- `send_json` with an error message. -/
def sendError (status : Nat) (message : String) : Reply :=
  sendJson status (jsonLine "error" (ascii message))

/-- The configuration of a server, with the primitives it uses. -/
structure Config where
  /-- `registry_id` -/
  registryId : Bytes
  /-- `max_upload_bytes` -/
  maxUploadBytes : Nat
  /-- `jwt_ttl_sec` -/
  jwtTtlSec : Int
  /-- `rate_limit_per_min` -/
  rateLimitPerMin : Int
  /-- `has_registry_key` -/
  hasRegistryKey : Bool
  /-- `grid_enabled` -/
  gridEnabled : Bool
  /-- `grid_max_hops` -/
  gridMaxHops : Int
  /-- `grid_peer_auth` -/
  gridPeerAuth : Bool
  /-- `object_cache_ttl_sec` -/
  objectCacheTtlSec : Int
  /-- There is an LDAP server: `ldap_cfg.url`. -/
  ldap : Bool
  /-- There is an OIDC issuer: `oidc_cfg.issuer`. -/
  oidc : Bool
  /-- `oidc_cfg.client_id` -/
  oidcClientId : Option Bytes
  /-- Ed25519 signing under the registry key. -/
  sign : Bytes → Option Bytes
  /-- Ed25519 verification under the registry key: signature and content. -/
  verify : Bytes → Bytes → Bool
  /-- `cookbook_ed25519_verify`: signature, content and key. -/
  ed25519Verify : Bytes → Bytes → Bytes → Bool
  /-- `cookbook_sha256` -/
  sha256 : Bytes → Bytes

/-! ## State -/

/-- `rate_bucket` -/
structure RateBucket where
  /-- `sub` -/
  sub : Bytes
  /-- `window_start` -/
  windowStart : Int
  /-- `count` -/
  count : Int
  deriving DecidableEq

/-- What a server keeps between requests. -/
structure State where
  /-- The database. -/
  db : Database
  /-- The object store. -/
  objects : Objects
  /-- The token revocation list: identifiers with their expiry. -/
  revoked : List (Bytes × Int)
  /-- The rate limiter. -/
  buckets : List RateBucket
  /-- The number of operations so far. -/
  ticks : Nat

/-- What a row of a query holds. -/
abbrev Row := List (Option Bytes)

/-- The answers the server does not decide, by the number of the operation. -/
structure World where
  /-- `time(NULL)` -/
  time : Nat → Int
  /-- The identifier that `generate_jti` draws. -/
  jti : Nat → Bytes
  /-- The database fails. -/
  dbFails : Nat → Bool
  /-- The object store fails. -/
  storeFails : Nat → Bool
  /-- How much of the object a write leaves that fails, none when it touched nothing. -/
  leftover : Nat → Option Nat
  /-- The rows of a query that the machine does not interpret. -/
  rows : Nat → Bytes → List Bytes → Database → List Row
  /-- The rows of an SQL text that is none of the server's own, and the database behind it. -/
  foreign : Nat → Bytes → Database → List Row × Database
  /-- `cookbook_credential_verify`: token and hash. -/
  credentialVerify : Bytes → Bytes → Bool
  /-- `cookbook_ldap_bind`: subject and password; the groups when it succeeds. -/
  ldapBind : Nat → Bytes → Bytes → Option (Option Bytes)
  /-- `cookbook_oidc_client_credentials`: client and secret; the subject when it succeeds. -/
  oidcExchange : Nat → Bytes → Bytes → Option Bytes

/-! ## Operations -/

/-- `cookbook_db_status` -/
inductive DbStatus
  /-- `COOKBOOK_DB_OK` -/
  | ok
  /-- `COOKBOOK_DB_CONSTRAINT` -/
  | constraint
  /-- `COOKBOOK_DB_ERROR` -/
  | error
  deriving DecidableEq

/-- `cookbook_store_status` -/
inductive StoreStatus
  /-- `COOKBOOK_STORE_OK` -/
  | ok
  /-- `COOKBOOK_STORE_NOT_FOUND` -/
  | notFound
  /-- `COOKBOOK_STORE_ERROR` -/
  | error
  deriving DecidableEq

/-- The operations of the handlers. -/
inductive Op
  /-- `time(NULL)` -/
  | time
  /-- `generate_jti` -/
  | jti
  /-- `SELECT token_hash, groups FROM credentials` of a subject that is not revoked -/
  | credential (subject : Bytes)
  /-- `SELECT pastlet FROM policies` -/
  | pastlet (subject : Bytes)
  /-- `SELECT jti, expires_at FROM revocations` behind an expiry -/
  | revocations (expiresAt : Int)
  /-- `SELECT coord_id FROM artifacts` that are pending since before a time -/
  | stalePending (cutoff : Bytes)
  /-- `SELECT store_key, cache_key FROM object_cache` from before a time -/
  | expiredObjects (cutoff : Int)
  /-- The query of `handle_resolve`, with the yanked versions or without -/
  | resolve (groupId artifact : Bytes) (includeYanked : Bool)
  /-- Another fixed query with its parameters. -/
  | select (sql : Bytes) (params : List Bytes)
  /-- A query whose text was put together. -/
  | query (sql : Bytes)
  /-- A statement. -/
  | exec (stmt : Stmt)
  /-- `store->get` -/
  | storeGet (key : Bytes)
  /-- `store->exists` -/
  | storeExists (key : Bytes)
  /-- `store->put` -/
  | storePut (key data : Bytes)
  /-- `store->del` -/
  | storeDel (key : Bytes)
  /-- `cookbook_credential_verify` -/
  | verifyCredential (token hash : Bytes)
  /-- `cookbook_ldap_bind` -/
  | ldapBind (subject password : Bytes)
  /-- `cookbook_oidc_client_credentials` -/
  | oidcExchange (clientId secret : Bytes)
  /-- `cookbook_revocation_check` -/
  | revocationCheck (jti : Bytes)
  /-- `cookbook_revocation_add` -/
  | revocationAdd (jti : Bytes) (exp : Int)
  /-- `check_rate_limit` -/
  | checkRateLimit (limit : Int) (sub : Bytes)
  deriving DecidableEq

/-- What an operation answers. -/
@[reducible] def Answer : Op → Type
  | .time => Int
  | .jti => Bytes
  | .credential _ | .pastlet _ | .revocations _ | .stalePending _ | .expiredObjects _ => List Row
  | .resolve _ _ _ | .select _ _ | .query _ => List Row
  | .exec _ => DbStatus
  | .storeGet _ => StoreStatus × Bytes
  | .storeExists _ | .storePut _ _ | .storeDel _ => StoreStatus
  | .verifyCredential _ _ | .revocationCheck _ | .revocationAdd _ _ | .checkRateLimit _ _ => Bool
  | .ldapBind _ _ => Option (Option Bytes)
  | .oidcExchange _ _ => Option Bytes

/-- A handler's program. -/
abbrev Handler (α : Type) := Prog Op Answer α

namespace Handler

/-- `time(NULL)` -/
def time : Handler Int := Prog.perform Op.time

/-- `generate_jti` -/
def jti : Handler Bytes := Prog.perform Op.jti

/-- `db->query` on a text that was put together. -/
def query (sql : Bytes) : Handler (List Row) := Prog.perform (Op.query sql)

/-- `db->query_p` on a fixed text. -/
def select (sql : Bytes) (params : List Bytes) : Handler (List Row) :=
  Prog.perform (Op.select sql params)

/-- `db->exec_p` -/
def exec (stmt : Stmt) : Handler DbStatus := Prog.perform (Op.exec stmt)

/-- `store->get` -/
def storeGet (key : Bytes) : Handler (StoreStatus × Bytes) := Prog.perform (Op.storeGet key)

/-- `store->exists` -/
def storeExists (key : Bytes) : Handler StoreStatus := Prog.perform (Op.storeExists key)

/-- `store->put` -/
def storePut (key data : Bytes) : Handler StoreStatus := Prog.perform (Op.storePut key data)

/-- `store->del` -/
def storeDel (key : Bytes) : Handler StoreStatus := Prog.perform (Op.storeDel key)

/-- `cookbook_credential_verify` -/
def verifyCredential (token hash : Bytes) : Handler Bool := Prog.perform (Op.verifyCredential token hash)

/-- `cookbook_revocation_check` -/
def revocationCheck (jti : Bytes) : Handler Bool := Prog.perform (Op.revocationCheck jti)

/-- `cookbook_revocation_add` -/
def revocationAdd (jti : Bytes) (exp : Int) : Handler Bool := Prog.perform (Op.revocationAdd jti exp)

/-- `check_rate_limit` -/
def checkRateLimit (limit : Int) (sub : Bytes) : Handler Bool :=
  Prog.perform (Op.checkRateLimit limit sub)

end Handler

/-! ## The peer key query -/

/-- The words in front of the peer's name in the query for its key. -/
def keyQueryFront : List Token :=
  [.word (ascii "SELECT"), .word (ascii "public_key"), .word (ascii "FROM"), .word (ascii "peers"),
    .word (ascii "WHERE"), .word (ascii "peer_id"), .symbol (ascii "=")]

/-- The words behind it. -/
def keyQueryBack : List Token :=
  [.word (ascii "AND"), .word (ascii "enabled"), .symbol (ascii "="), .number (ascii "1"),
    .word (ascii "AND"), .word (ascii "public_key"), .word (ascii "IS"), .word (ascii "NOT"),
    .word (ascii "NULL")]

/-- The one query for the public key of a peer that is enabled. -/
def keyQuery (peerId : Bytes) : List Token := keyQueryFront ++ .string peerId :: keyQueryBack

/-- The peer named by a query for a key. -/
def keyQueryPeer (tokens : List Token) : Option Bytes :=
  match tokens.drop keyQueryFront.length with
  | .string peerId :: _ => if tokens = keyQuery peerId then some peerId else none
  | _ => none

/-- The keys of the peers of a name that are enabled. -/
def Database.peerKeys (db : Database) (peerId : Bytes) : List Bytes :=
  (db.peers.filter fun row => row.peerId == peerId && row.enabled == 1).filterMap (·.publicKey)

/-! ## Other queries -/

/-- One text comes before another, byte by byte. -/
def textBefore : Bytes → Bytes → Bool
  | _, [] => false
  | [], _ :: _ => true
  | a :: left, b :: right => if a = b then textBefore left right else decide (a < b)

/-- The artifacts that are pending since before a time. -/
def Database.stalePending (db : Database) (cutoff : Bytes) : List ArtifactRow :=
  db.artifacts.filter fun row => row.status == ascii "pending" && textBefore row.pendingSince cutoff

/-- The published versions of an artifact, once for every index row, in falling order. -/
def Database.resolveRows (db : Database) (groupId artifact : Bytes) (includeYanked : Bool) :
    List ArtifactRow :=
  let selected := db.artifacts.filter fun row => row.groupId == groupId &&
    row.artifact == artifact && (includeYanked || row.yanked == 0) && row.status == ascii "published"
  let joined := selected.flatMap fun row =>
    (db.artifactSemver.filter (·.coordId == row.coordId)).map fun index => (row, index)
  let inOrder (left right : ArtifactRow × ArtifactSemverRow) : Bool :=
    decide (right.2.major < left.2.major) || left.2.major == right.2.major &&
      (decide (right.2.minor < left.2.minor) || left.2.minor == right.2.minor &&
        decide (right.2.patch ≤ left.2.patch))
  (joined.mergeSort inOrder).map Prod.fst

/-- The columns of a version. -/
def resolveRow (includeYanked : Bool) (row : ArtifactRow) : Row :=
  [some row.version, some (decimal row.snapshot), some row.triple] ++
    if includeYanked then [some (decimal row.yanked), row.yankReason] else []

/-! ## Meaning -/

/-- `revocation_prune` -/
def revocationPrune (revoked : List (Bytes × Int)) (now : Int) : List (Bytes × Int) :=
  revoked.filter fun entry => decide (now < entry.2)

/-- `cookbook_revocation_add`: whether the identifier is listed, and the list. -/
def addRevocation (revoked : List (Bytes × Int)) (now : Int) (jti : Bytes) (exp : Int) :
    Bool × List (Bytes × Int) :=
  let kept := revocationPrune revoked now
  if kept.any (·.1 == jti) then (true, kept)
  else if 4096 ≤ kept.length then (false, kept)
  else (true, kept ++ [(jti.take 63, exp)])

/-- A bucket counts a request; a window of a minute starts again with it. -/
def RateBucket.counted (bucket : RateBucket) (now : Int) : RateBucket :=
  let bucket := if 60 ≤ now - bucket.windowStart then ⟨bucket.sub, now, 0⟩ else bucket
  { bucket with count := bucket.count + 1 }

/-- The first bucket of a subject counts its request: none when there is no such bucket. -/
def countBucket (now : Int) (sub : Bytes) : List RateBucket → Option (Int × List RateBucket)
  | [] => none
  | bucket :: buckets =>
    if bucket.sub = sub then
      some ((bucket.counted now).count, bucket.counted now :: buckets)
    else (countBucket now sub buckets).map fun counted => (counted.1, bucket :: counted.2)

/-- `check_rate_limit` -/
def countRequest (buckets : List RateBucket) (limit now : Int) (sub : Bytes) :
    Bool × List RateBucket :=
  if limit ≤ 0 ∨ sub = [] then (false, buckets)
  else
    match countBucket now sub buckets with
    | some counted => (decide (limit < counted.1), counted.2)
    | none => (decide (limit < 1), ⟨sub.take 127, now, 1⟩ :: buckets)

namespace World

variable (world : World)

/-- The rows of a text that was put together: the peer key query is answered from the peers, and
whatever else the text says is up to the world. -/
def answerQuery (sql : Bytes) (state : State) : List Row × Database :=
  match (lex sql).bind keyQueryPeer with
  | some peerId =>
    (if world.dbFails state.ticks then [] else (state.db.peerKeys peerId).map fun key => [some key],
      state.db)
  | none => world.foreign state.ticks sql state.db

/-- The status of a store operation on a key that is there or not. -/
def storeStatus (state : State) (key : Bytes) : StoreStatus :=
  if world.storeFails state.ticks then .error
  else if (state.objects.get key).isSome then .ok else .notFound

/-- The answer of an operation and the state behind it. -/
def apply (op : Op) (state : State) : Answer op × State :=
  let next := { state with ticks := state.ticks + 1 }
  match op with
  | .time => (world.time state.ticks, next)
  | .jti => (world.jti state.ticks, next)
  | .credential subject =>
    (if world.dbFails state.ticks then []
      else (state.db.credentials.filter fun row => row.subject == subject && row.revokedAt.isNone).map
        fun row => [some row.tokenHash, some row.groups], next)
  | .pastlet subject =>
    (if world.dbFails state.ticks then []
      else (state.db.policies.filter (·.subject == subject)).map fun row => [some row.pastlet], next)
  | .revocations expiresAt =>
    (if world.dbFails state.ticks then []
      else (state.db.revocations.filter fun row => decide (expiresAt < row.expiresAt)).map fun row =>
        [some row.jti, some (decimal row.expiresAt)], next)
  | .stalePending cutoff =>
    (if world.dbFails state.ticks then []
      else (state.db.stalePending cutoff).map fun row => [some row.coordId], next)
  | .expiredObjects cutoff =>
    (if world.dbFails state.ticks then []
      else (state.db.objectCache.filter fun row => decide (row.createdAt < cutoff)).map fun row =>
        [some row.storeKey, some row.cacheKey], next)
  | .resolve groupId artifact includeYanked =>
    (if world.dbFails state.ticks then []
      else (state.db.resolveRows groupId artifact includeYanked).map (resolveRow includeYanked), next)
  | .select sql params => (world.rows state.ticks sql params state.db, next)
  | .query sql =>
    ((world.answerQuery sql state).1, { next with db := (world.answerQuery sql state).2 })
  | .exec stmt =>
    if world.dbFails state.ticks then (.error, next)
    else
      match state.db.exec stmt with
      | none => (.constraint, next)
      | some db => (.ok, { next with db })
  | .storeGet key => ((world.storeStatus state key, (state.objects.get key).getD []), next)
  | .storeExists key => (world.storeStatus state key, next)
  | .storePut key data =>
    if world.storeFails state.ticks then
      (.error,
        match world.leftover state.ticks with
        | none => next
        | some length => { next with objects := state.objects.put key (data.take length) })
    else (.ok, { next with objects := state.objects.put key data })
  | .storeDel key =>
    (world.storeStatus state key,
      if world.storeFails state.ticks then next
      else { next with objects := state.objects.del key })
  | .verifyCredential token hash => (world.credentialVerify token hash, next)
  | .ldapBind subject password => (world.ldapBind state.ticks subject password, next)
  | .oidcExchange clientId secret => (world.oidcExchange state.ticks clientId secret, next)
  | .revocationCheck jti => (state.revoked.any (·.1 == jti), next)
  | .revocationAdd jti exp =>
    let added := addRevocation state.revoked (world.time state.ticks) jti exp
    (added.1, { next with revoked := added.2 })
  | .checkRateLimit limit sub =>
    let counted := countRequest state.buckets limit (world.time state.ticks) sub
    (counted.1, { next with buckets := counted.2 })

/-- The machine of a world. -/
def machine : Machine Op Answer State := ⟨world.apply⟩

end World

end Cookbook.Server
