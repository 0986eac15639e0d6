import Cookbook.Grid.Artifact
import Cookbook.Library.Interleave
import Cookbook.Server.PublishRuns

/-!
# The object cache

A cached object is written to the store and then listed in a table with its time. The eviction reads
the keys that are listed since before a time, and then takes each of them out of the store and out of
the table. Requests and evictions run at the same time, one operation of any of them after the other.
-/
namespace Cookbook.Server

open Library.Text Library.Program Library.Interleave

/-! ## Requests -/

/-- The store key of a cached object. -/
def objectKey (config : Config) (cacheKey : Bytes) : Bytes :=
  Grid.storeKey config.registryId (ascii "objects/" ++ cacheKey)

/-- A cached object is served; an object that cannot be read is empty. -/
def getObject (key : Bytes) : Handler Reply :=
  (Handler.storeGet key).bind fun (status, data) =>
    .done <| if status = .notFound then sendError 404 "Object not found"
      else ⟨200, [], if status = .ok then data else []⟩

/-- The length of a cached object. -/
def headObject (key : Bytes) : Handler Reply :=
  (Handler.storeGet key).bind fun (status, data) =>
    .done <| if status = .notFound then ⟨404, [], []⟩
      else
        let length := if status = .ok then data.length else 0
        ⟨200, [(ascii "Content-Length", decimal length)], []⟩

/-- A cached object is stored, then listed with its time. -/
def putObject (config : Config) (request : Request) (cacheKey : Bytes) : Handler Reply :=
  (requireAuthV2 config request (ascii "_objects") 0x63).bind fun authorized =>
    match authorized with
    | .error reply => .done reply
    | .ok _ =>
      let max := if 0 < config.maxUploadBytes then config.maxUploadBytes else 256 * 1024 * 1024
      match readBody request max with
      | none => .done (sendError 400 "Empty body")
      | some body =>
        let key := objectKey config cacheKey
        (Handler.storePut key body).bind fun status =>
          if status = .ok then
            Handler.time.bind fun now =>
              -- Whether the row was written is not looked at.
              (Handler.exec (.putCacheEntry ⟨cacheKey, key, body.length, now⟩)).bind fun _ =>
                .done (sendJson 201 (jsonLine "status" (ascii "stored")))
          else .done (sendError 500 "Store write failed")

/-- `handle_objects` -/
def handleObjects (config : Config) (request : Request) : Handler Reply :=
  match pathAfter request.localUri (ascii "/objects/") with
  | none => .done (sendError 400 "Missing cache key")
  | some cacheKey =>
    if cacheKey = [] then .done (sendError 400 "Missing cache key")
    else if validatePathSegment cacheKey = false then .done (sendError 400 "Invalid cache key")
    else if request.method = ascii "GET" then getObject (objectKey config cacheKey)
    else if request.method = ascii "HEAD" then headObject (objectKey config cacheKey)
    else if request.method = ascii "PUT" then putObject config request cacheKey
    else .done (sendError 405 "Method not allowed")

/-! ## Eviction -/

/-- `evict_cb`: the store keys and cache keys of the first rows. -/
def expiredEntries (count : Nat) (rows : List Row) : List (Bytes × Bytes) :=
  (rows.filterMap fun row =>
    match row with
    | some storeKey :: some cacheKey :: _ => some (storeKey, cacheKey)
    | _ => none).take count

/-- Every entry is taken out of the store, then out of the table. -/
def evictEntries : List (Bytes × Bytes) → Handler Unit
  | [] => .done ()
  | (storeKey, cacheKey) :: entries =>
    (Handler.storeDel storeKey).bind fun _ =>
      (Handler.exec (.deleteCacheEntry cacheKey)).bind fun _ => evictEntries entries

/-- `evict_expired_objects`: the expired rows are counted by one query and read by another. -/
def evictExpiredObjects (config : Config) : Handler Unit :=
  if config.objectCacheTtlSec ≤ 0 then .done ()
  else
    Handler.time.bind fun now =>
      let expired : Handler (List Row) :=
        Prog.perform (Op.expiredObjects (now - config.objectCacheTtlSec))
      expired.bind fun counted =>
        if counted = [] then .done ()
        else expired.bind fun rows => evictEntries (expiredEntries counted.length rows)

/-! ## Threads -/

/-- What a thread does. -/
inductive CacheTask
  /-- A request for a cached object. -/
  | objects (request : Request)
  /-- The eviction. -/
  | evict

/-- The program of a task, with the reply of a request. -/
def cacheProgram (config : Config) : CacheTask → Handler (Option Reply)
  | .objects request => (handleObjects config request).bind fun reply => .done (some reply)
  | .evict => (evictExpiredObjects config).bind fun _ => .done none

/-- How far a thread has come. -/
inductive CachePhase
  /-- A request that has not written anything. -/
  | asking
  /-- A request that has written an object. -/
  | stored (key : Bytes)
  /-- A request that has read the time of the object it wrote. -/
  | timed (key : Bytes) (now : Int)
  /-- A request that has written the row of its object. -/
  | recorded (key : Bytes) (now : Int)
  /-- A request whose write failed. -/
  | failed
  /-- An eviction that starts. -/
  | idle
  /-- An eviction that has read its time. -/
  | dated (now : Int)
  /-- An eviction that has counted the expired rows. -/
  | counted (now : Int) (count : Nat)
  /-- An eviction that has to delete entries. -/
  | deleting (now : Int) (entries : List (Bytes × Bytes))
  /-- An eviction that has taken an entry out of the store, but not out of the table. -/
  | halfway (now : Int) (entry : Bytes × Bytes) (entries : List (Bytes × Bytes))

namespace CachePhase

/-- The phase behind an operation. -/
def observe : CachePhase → (op : Op) → Answer op → CachePhase
  | .asking, .storePut key _, status => if status = .ok then .stored key else .failed
  | .stored key, .time, now => .timed key now
  | .timed key now, .exec _, _ => .recorded key now
  | .idle, .time, now => .dated now
  | .dated now, .expiredObjects _, rows => .counted now rows.length
  | .counted now count, .expiredObjects _, rows => .deleting now (expiredEntries count rows)
  | .deleting now (entry :: entries), .storeDel _, _ => .halfway now entry entries
  | .halfway now _ entries, .exec _, _ => .deleting now entries
  | phase, _, _ => phase

/-- The key of an object that is written and whose row is not. -/
def openKey : CachePhase → Option Bytes
  | .stored key | .timed key _ => some key
  | _ => none

/-- The key that a request has written. -/
def written : CachePhase → Option Bytes
  | .stored key | .timed key _ | .recorded key _ => some key
  | _ => none

/-- The entries an eviction has still to take out of the store. -/
def pending : CachePhase → List (Bytes × Bytes)
  | .deleting _ entries | .halfway _ _ entries => entries
  | _ => []

/-- The entry that an eviction has taken out of the store, but not out of the table. -/
def halfDeleted : CachePhase → Option (Bytes × Bytes)
  | .halfway _ entry _ => some entry
  | _ => none

/-- The time that an eviction has read. -/
def clock : CachePhase → Option Int
  | .dated now | .counted now _ | .deleting now _ | .halfway now _ _ => some now
  | _ => none

end CachePhase

/-- The threads of the object cache. -/
def cacheWork (config : Config) : Workload Op Answer CacheTask (Option Reply) CachePhase where
  program := cacheProgram config
  start
    | .objects _ => .asking
    | .evict => .idle
  observe := CachePhase.observe

/-- A server with the threads of its object cache. -/
abbrev CacheSystem := System Op Answer State CacheTask (Option Reply) CachePhase

/-! ## The property -/

/-- A thread has written an object under a key. -/
def Wrote (id : Nat) (key data : Bytes) (before : State) :
    Happening Op Answer State CacheTask (Option Reply) :=
  .called id (.storePut key data) .ok before

/-- A thread has read the time. -/
def ReadTime (id : Nat) (now : Int) (before : State) :
    Happening Op Answer State CacheTask (Option Reply) :=
  .called id .time now before

/-- A thread has deleted the object under a key. -/
def Deleted (id : Nat) (key : Bytes) (before : State) :
    Happening Op Answer State CacheTask (Option Reply) :=
  .called id (.storeDel key) .ok before

/-- A thread has written a row. -/
def Listed (id : Nat) (row : ObjectCacheRow) (before : State) :
    Happening Op Answer State CacheTask (Option Reply) :=
  .called id (.exec (.putCacheEntry row)) .ok before

/-- A cached object is kept for its time, and the table lists what is in the store. -/
structure CacheSound (config : Config) (world : World) (system : CacheSystem) : Prop where
  /-- A request that is answered with 201 has stored its object, then read the time. -/
  answered : ∀ id request reply, .finished id (.objects request) (some reply) ∈ system.history →
    reply.status = 201 → ∃ cacheKey data stored now reading,
      pathAfter request.localUri (ascii "/objects/") = some cacheKey ∧
        Before (Wrote id (objectKey config cacheKey) data stored) (ReadTime id now reading)
          system.history
  /-- An object that was stored is not deleted before its time is over. -/
  kept : ∀ id key data stored now reading,
    Before (Wrote id key data stored) (ReadTime id now reading) system.history →
      ∀ other deleting, Before (Wrote id key data stored) (Deleted other key deleting)
        system.history → now + config.objectCacheTtlSec ≤ world.time deleting.ticks
  /-- When no thread runs, a key has a row exactly when it has an object. -/
  listed : system.Quiescent → ∀ cacheKey,
    (∃ row ∈ system.state.db.objectCache, row.cacheKey = cacheKey) ↔
      (system.state.objects.get (objectKey config cacheKey)).isSome

/-! ## The condition -/

/-- The table of a state lists what is in the store. -/
structure CacheConsistent (config : Config) (state : State) : Prop where
  /-- A row names the object of its key. -/
  keys : ∀ row ∈ state.db.objectCache, row.storeKey = objectKey config row.cacheKey
  /-- A key has a row exactly when it has an object. -/
  listed : ∀ cacheKey, (∃ row ∈ state.db.objectCache, row.cacheKey = cacheKey) ↔
    (state.objects.get (objectKey config cacheKey)).isSome

/-- An operation of a thread in a phase does not meet an eviction and a request of one key halfway, and
it does not fail.

A write to the store leaves nothing behind when it fails, and no eviction has the key still to delete.
A deletion from the store does not fail, and no statement does. A row is written while no eviction is
halfway through its key, and with a time that is not before the time of a row of the key that was
written before. The rows that an eviction reads to delete them are of keys that no request is about to
write a row for. -/
def CleanOp (world : World) (system : CacheSystem) (phase : CachePhase) (op : Op) : Prop :=
  match op with
  | .storePut key _ =>
    if world.storeFails system.state.ticks then world.leftover system.state.ticks = none
    else ∀ other, At system.phases other → ∀ entry ∈ other.pending, entry.1 ≠ key
  | .storeDel key =>
    (system.state.objects.get key).isSome → world.storeFails system.state.ticks = false
  | .exec (.putCacheEntry row) => world.dbFails system.state.ticks = false ∧
    (∀ other entry, At system.phases other → other.halfDeleted = some entry →
      entry.2 ≠ row.cacheKey) ∧
    ∀ id earlier before, Listed id earlier before ∈ system.history →
      earlier.cacheKey = row.cacheKey → earlier.createdAt ≤ row.createdAt
  | .exec _ => world.dbFails system.state.ticks = false
  | .expiredObjects cutoff => ∀ now count, phase = .counted now count →
    ∀ entry ∈ expiredEntries count (world.apply (.expiredObjects cutoff) system.state).1,
      ∀ other, At system.phases other → other.openKey ≠ some entry.1
  | _ => True

/-- A step of the threads that is clean. -/
def CleanStep (world : World) (system : CacheSystem) : Choice CacheTask → Prop
  | .spawn _ => True
  | .go id => ∀ task phase op next, system.threads id = some ⟨task, phase, .call op next⟩ →
    CleanOp world system phase op

/-! ## The discipline -/

/-- What a phase allows, and how a task ends in it. -/
def cacheDiscipline (config : Config) : Discipline Op CacheTask (Option Reply) CachePhase where
  allows
    | .asking, op => Op.Checks op ∨ (∃ key, op = .storeGet key) ∨
        ∃ cacheKey data, op = .storePut (objectKey config cacheKey) data
    | .stored _, op | .idle, op => op = .time
    | .timed key now, op => ∃ cacheKey size, key = objectKey config cacheKey ∧
        op = .exec (.putCacheEntry ⟨cacheKey, key, size, now⟩)
    | .dated now, op | .counted now _, op =>
      op = .expiredObjects (now - config.objectCacheTtlSec)
    | .deleting _ (entry :: _), op => op = .storeDel entry.1
    | .halfway _ entry _, op => op = .exec (.deleteCacheEntry entry.2)
    | _, _ => False
  ends
    | _, .asking, value | _, .failed, value => ∀ reply, value = some reply → reply.status ≠ 201
    | .objects request, .recorded key _, _ => ∃ cacheKey,
        pathAfter request.localUri (ascii "/objects/") = some cacheKey ∧
          key = objectKey config cacheKey
    | .evict, .idle, value | .evict, .counted _ _, value | .evict, .deleting _ [], value =>
      value = none
    | _, _, _ => False

/-- An eviction deletes entry by entry. -/
theorem evictEntries_follows (config : Config) (now : Int) (entries : List (Bytes × Bytes)) :
    Follows (cacheWork config) (cacheDiscipline config) .evict (.deleting now entries)
      ((evictEntries entries).bind fun _ => .done none) := by
  induction entries with
  | nil => rfl
  | cons entry entries ih => exact ⟨rfl, fun _ => ⟨rfl, fun _ => ih⟩⟩

/-- An eviction follows the discipline. -/
theorem evictExpiredObjects_follows (config : Config) :
    Follows (cacheWork config) (cacheDiscipline config) .evict .idle
      (cacheProgram config .evict) := by
  unfold cacheProgram evictExpiredObjects
  by_cases off : config.objectCacheTtlSec ≤ 0
  · rw [if_pos off]
    exact rfl
  · rw [if_neg off]
    refine ⟨rfl, fun now => ⟨rfl, fun counted => ?_⟩⟩
    simp only [Prog.done_bind]
    by_cases empty : counted = []
    · rw [if_pos empty]
      exact rfl
    · rw [if_neg empty]
      exact ⟨rfl, fun rows => evictEntries_follows config now _⟩

/-- An upload of an object follows the discipline. -/
theorem putObject_follows (config : Config) {request : Request} {cacheKey : Bytes}
    (named : pathAfter request.localUri (ascii "/objects/") = some cacheKey) :
    Follows (cacheWork config) (cacheDiscipline config) (.objects request) .asking
      ((putObject config request cacheKey).bind fun reply => .done (some reply)) := by
  have stays : ∀ op answer, Op.Checks op → CachePhase.observe .asking op answer = .asking := by
    intro op answer checks
    cases op with
    | storePut key data => exact checks.elim
    | _ => rfl
  have authorizes := @follows_bind Op Answer CacheTask (Option Reply) CachePhase (cacheWork config)
    (cacheDiscipline config) _ Op.Checks _ (.objects request) .asking stays
    (fun op checks => Or.inl checks) _
    (requireAuthV2_checks config request (ascii "_objects") 0x63)
    (requireAuthV2_yields config request (ascii "_objects") 0x63)
  unfold putObject
  rw [Prog.bind_assoc]
  apply authorizes
  intro authorized refused
  cases authorized with
  | error reply =>
    have status := refused reply rfl
    intro other same
    cases same
    omega
  | ok claims =>
    simp only
    cases readBody request _ with
    | none =>
      intro other same
      cases same
      decide
    | some body =>
      refine ⟨Or.inr (Or.inr ⟨cacheKey, body, rfl⟩), fun status => ?_⟩
      simp only [Prog.done_bind]
      by_cases written : status = .ok
      · have phase : (cacheWork config).observe .asking
            (.storePut (objectKey config cacheKey) body) status =
              .stored (objectKey config cacheKey) := if_pos written
        rw [if_pos written, phase]
        exact ⟨rfl, fun now => ⟨⟨cacheKey, _, rfl, rfl⟩, fun _ => ⟨cacheKey, named, rfl⟩⟩⟩
      · have phase : (cacheWork config).observe .asking
            (.storePut (objectKey config cacheKey) body) status = .failed := if_neg written
        rw [if_neg written, phase]
        intro other same
        cases same
        decide

/-- A request for a cached object follows the discipline. -/
theorem handleObjects_follows (config : Config) (request : Request) :
    Follows (cacheWork config) (cacheDiscipline config) (.objects request) .asking
      (cacheProgram config (.objects request)) := by
  have ended : ∀ reply : Reply, reply.status ≠ 201 →
      Follows (cacheWork config) (cacheDiscipline config) (.objects request) .asking
        (.done (some reply)) := by
    intro reply differ other same
    cases same
    exact differ
  unfold cacheProgram handleObjects
  cases named : pathAfter request.localUri (ascii "/objects/") with
  | none =>
    simp only [named]
    exact ended _ (by decide)
  | some cacheKey =>
    simp only [named]
    by_cases empty : cacheKey = []
    · rw [if_pos empty]
      exact ended _ (by decide)
    rw [if_neg empty]
    by_cases invalid : validatePathSegment cacheKey = false
    · rw [if_pos invalid]
      exact ended _ (by decide)
    rw [if_neg invalid]
    by_cases get : request.method = ascii "GET"
    · rw [if_pos get]
      refine ⟨Or.inr (Or.inl ⟨_, rfl⟩), fun found => ended _ ?_⟩
      split
      · decide
      · show 200 ≠ 201
        decide
    rw [if_neg get]
    by_cases head : request.method = ascii "HEAD"
    · rw [if_pos head]
      refine ⟨Or.inr (Or.inl ⟨_, rfl⟩), fun found => ended _ ?_⟩
      split
      · decide
      · show 200 ≠ 201
        decide
    rw [if_neg head]
    by_cases put : request.method = ascii "PUT"
    · rw [if_pos put]
      exact putObject_follows config named
    · rw [if_neg put]
      exact ended _ (by decide)

/-- Every task follows the discipline. -/
theorem cacheProgram_follows (config : Config) (task : CacheTask) :
    Follows (cacheWork config) (cacheDiscipline config) task ((cacheWork config).start task)
      ((cacheWork config).program task) := by
  cases task with
  | objects request => exact handleObjects_follows config request
  | evict => exact evictExpiredObjects_follows config

end Cookbook.Server
