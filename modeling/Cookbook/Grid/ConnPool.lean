import Cookbook.Library.Buffer
import Cookbook.Library.Removal

/-!
# The pool of connections

Idle sockets to peers, each with the host, the port and the TLS flag it is for. The pool is pruned on
every call. Whatever the clock shows, every socket that is put into it leaves it once: it is handed to a
caller that asks for the same peer, or it is closed.
-/
namespace Cookbook.Grid

open Library.Text Library.Removal

/-! ## The pool -/

/-- A host name that fits its buffer. -/
structure HostName where
  /-- The name. -/
  name : Bytes
  /-- It is shorter than 256 bytes. -/
  short : name.length < 256
  deriving DecidableEq

/-- What a connection is for. -/
structure ConnKey where
  /-- `host` -/
  host : HostName
  /-- `port` -/
  port : Int
  /-- `use_tls` -/
  useTls : Int
  deriving DecidableEq

/-- `pool_entry` -/
structure PoolEntry (σ : Type) where
  /-- `sock` -/
  sock : σ
  /-- `host`, as it was copied. -/
  host : Bytes
  /-- `port` -/
  port : Int
  /-- `use_tls` -/
  useTls : Int
  /-- `idle_since` -/
  idleSince : Int

/-- `cookbook_connpool`: the used entries and the limits. -/
structure ConnPool (σ : Type) where
  /-- `entries`, up to `count` -/
  entries : List (PoolEntry σ)
  /-- `max_idle` -/
  maxIdle : Int
  /-- `idle_timeout_sec` -/
  idleTimeoutSec : Int

/-- `POOL_MAX_ENTRIES` -/
def poolMaxEntries : Nat := 128

/-- `cookbook_connpool_create` -/
def ConnPool.create (σ : Type) (maxIdle idleTimeoutSec : Int) : ConnPool σ where
  entries := []
  maxIdle := if 0 < maxIdle then maxIdle else 4
  idleTimeoutSec := if 0 < idleTimeoutSec then idleTimeoutSec else 60

variable {σ τ : Type}

/-- The pool and the sockets that a call closes. -/
structure Pruned (σ : Type) where
  /-- The pool that is left. -/
  pool : ConnPool σ
  /-- The sockets that are closed, in this order. -/
  closed : List σ

/-- `pool_prune` -/
def ConnPool.prune (pool : ConnPool σ) (now : Int) : Pruned σ :=
  let kept := compact (fun entry => decide (now - entry.idleSince < pool.idleTimeoutSec))
    pool.entries
  ⟨{ pool with entries := kept.1 }, kept.2.map PoolEntry.sock⟩

/-- The test of `cookbook_connpool_get`. -/
def PoolEntry.serves (entry : PoolEntry σ) (key : ConnKey) : Bool :=
  entry.port == key.port && entry.useTls == key.useTls && entry.host == key.host.name

/-- The test of `cookbook_connpool_put`, which does not look at the TLS flag. -/
def PoolEntry.isFor (entry : PoolEntry σ) (host : HostName) (port : Int) : Bool :=
  entry.port == port && entry.host == host.name

/-- `cookbook_connpool_get`, up to the socket of the pool: none when a new one is needed. -/
def ConnPool.get (pool : ConnPool σ) (now : Int) (key : ConnKey) : Option σ × Pruned σ :=
  let pruned := pool.prune now
  match pruned.pool.entries.findIdx? (·.serves key) with
  | none => (none, pruned)
  | some i =>
    ((pruned.pool.entries[i]?).map PoolEntry.sock,
      { pruned with
        pool := { pruned.pool with entries := swapRemove pruned.pool.entries i } })

/-- `cookbook_connpool_put` behind its check of the socket: the clock is read twice. -/
def ConnPool.put (pool : ConnPool σ) (now later : Int) (sock : σ) (key : ConnKey) : Pruned σ :=
  let pruned := pool.prune now
  let hostCount := pruned.pool.entries.countP (·.isFor key.host key.port)
  if pruned.pool.maxIdle ≤ hostCount ∨ poolMaxEntries ≤ pruned.pool.entries.length then
    { pruned with closed := pruned.closed ++ [sock] }
  else
    { pruned with
      pool := { pruned.pool with
        entries := pruned.pool.entries ++
          [⟨sock, snprintf 256 key.host.name, key.port, key.useTls, later⟩] } }

/-! ## Histories -/

/-- A socket and the connection it is for. -/
structure Hold (σ : Type) where
  /-- The socket. -/
  sock : σ
  /-- The host. -/
  host : Bytes
  /-- The port. -/
  port : Int
  /-- The TLS flag. -/
  useTls : Int

/-- A socket for a connection. -/
def ConnKey.hold (key : ConnKey) (sock : σ) : Hold σ := ⟨sock, key.host.name, key.port, key.useTls⟩

/-- The socket of an entry, and what it is for. -/
def PoolEntry.hold (entry : PoolEntry σ) : Hold σ :=
  ⟨entry.sock, entry.host, entry.port, entry.useTls⟩

/-- A call of the pool, with what the clock shows. -/
inductive PoolCall (σ : Type)
  /-- `pool_prune` -/
  | prune (now : Int)
  /-- `cookbook_connpool_get` -/
  | get (now : Int) (key : ConnKey)
  /-- `cookbook_connpool_put`, of no socket when it is invalid. -/
  | put (now later : Int) (sock : Option σ) (key : ConnKey)

/-- The pool and what has happened to the sockets. -/
structure PoolHistory (σ : Type) where
  /-- The pool. -/
  pool : ConnPool σ
  /-- The sockets that were handed to `cookbook_connpool_put`. -/
  handed : List (Hold σ)
  /-- The sockets that `cookbook_connpool_get` returned from the pool, for what it was asked for. -/
  returned : List (Hold σ)
  /-- The sockets that were closed. -/
  closed : List σ

namespace PoolHistory

/-- A new pool. -/
def create (σ : Type) (maxIdle idleTimeoutSec : Int) : PoolHistory σ :=
  ⟨.create σ maxIdle idleTimeoutSec, [], [], []⟩

/-- A call. -/
def step (history : PoolHistory σ) : PoolCall σ → PoolHistory σ
  | .prune now =>
    let pruned := history.pool.prune now
    { history with pool := pruned.pool, closed := history.closed ++ pruned.closed }
  | .get now key =>
    let found := history.pool.get now key
    { history with
      pool := found.2.pool
      returned := history.returned ++ (found.1.map key.hold).toList
      closed := history.closed ++ found.2.closed }
  | .put _ _ none _ => history
  | .put now later (some sock) key =>
    let pruned := history.pool.put now later sock key
    { history with
      pool := pruned.pool
      handed := history.handed ++ [key.hold sock]
      closed := history.closed ++ pruned.closed }

/-- One call after the other. -/
def run (history : PoolHistory σ) (calls : List (PoolCall σ)) : PoolHistory σ :=
  calls.foldl step history

/-- `cookbook_connpool_destroy` -/
def destroy (history : PoolHistory σ) : PoolHistory σ :=
  { history with
    pool := { history.pool with entries := [] }
    closed := history.closed ++ history.pool.entries.map PoolEntry.sock }

end PoolHistory

/-! ## The sockets do not matter -/

/-- An entry with another name of its socket. -/
def PoolEntry.map (rename : σ → τ) (entry : PoolEntry σ) : PoolEntry τ :=
  ⟨rename entry.sock, entry.host, entry.port, entry.useTls, entry.idleSince⟩

/-- A pool with other names of its sockets. -/
def ConnPool.map (rename : σ → τ) (pool : ConnPool σ) : ConnPool τ :=
  ⟨pool.entries.map (·.map rename), pool.maxIdle, pool.idleTimeoutSec⟩

/-- A hold with another name of its socket. -/
def Hold.map (rename : σ → τ) (hold : Hold σ) : Hold τ :=
  ⟨rename hold.sock, hold.host, hold.port, hold.useTls⟩

/-- A call with another name of its socket. -/
def PoolCall.map (rename : σ → τ) : PoolCall σ → PoolCall τ
  | .prune now => .prune now
  | .get now key => .get now key
  | .put now later sock key => .put now later (sock.map rename) key

/-- A history with other names of its sockets. -/
def PoolHistory.map (rename : σ → τ) (history : PoolHistory σ) : PoolHistory τ :=
  ⟨history.pool.map rename, history.handed.map (·.map rename),
    history.returned.map (·.map rename), history.closed.map rename⟩

/-- The sockets with the number of the call that puts them. -/
def numbered (calls : List (PoolCall σ)) : List (PoolCall (Nat × σ)) :=
  calls.zipIdx.map fun call => call.1.map (call.2, ·)

/-- A pass is the same one under other names. -/
theorem ConnPool.prune_map (rename : σ → τ) (pool : ConnPool σ) (now : Int) :
    (pool.map rename).prune now =
      ⟨(pool.prune now).pool.map rename, (pool.prune now).closed.map rename⟩ := by
  have passed : compact
      (fun entry => decide (now - entry.idleSince < (pool.map rename).idleTimeoutSec))
      (pool.map rename).entries = _ :=
    @compact_map _ _ (fun entry : PoolEntry σ => entry.map rename)
      (fun entry => decide (now - entry.idleSince < pool.idleTimeoutSec)) _ (fun _ => rfl)
      pool.entries
  unfold ConnPool.prune
  simp only [passed, List.map_map]
  rfl

/-- So is a search. -/
theorem ConnPool.get_map (rename : σ → τ) (pool : ConnPool σ) (now : Int) (key : ConnKey) :
    (pool.map rename).get now key = ((pool.get now key).1.map rename,
      ⟨(pool.get now key).2.pool.map rename, (pool.get now key).2.closed.map rename⟩) := by
  unfold ConnPool.get
  rw [ConnPool.prune_map]
  generalize pool.prune now = pruned
  have found : (pruned.pool.map rename).entries.findIdx? (·.serves key) =
      pruned.pool.entries.findIdx? (·.serves key) := by
    show (pruned.pool.entries.map _).findIdx? _ = _
    rw [List.findIdx?_map]
    rfl
  simp only [found]
  cases pruned.pool.entries.findIdx? (·.serves key) with
  | none => rfl
  | some i =>
    simp only [ConnPool.map, swapRemove_map, List.getElem?_map, Option.map_map]
    rfl

/-- And a put. -/
theorem ConnPool.put_map (rename : σ → τ) (pool : ConnPool σ) (now later : Int) (sock : σ)
    (key : ConnKey) : (pool.map rename).put now later (rename sock) key =
      ⟨(pool.put now later sock key).pool.map rename,
        (pool.put now later sock key).closed.map rename⟩ := by
  unfold ConnPool.put
  rw [ConnPool.prune_map]
  generalize pool.prune now = pruned
  have count : (pruned.pool.map rename).entries.countP (·.isFor key.host key.port) =
      pruned.pool.entries.countP (·.isFor key.host key.port) := by
    show (pruned.pool.entries.map _).countP _ = _
    rw [List.countP_map]
    rfl
  have length : (pruned.pool.map rename).entries.length = pruned.pool.entries.length :=
    List.length_map _
  simp only [count, length]
  have limit : (pruned.pool.map rename).maxIdle = pruned.pool.maxIdle := rfl
  rw [limit]
  split
  · simp only [List.map_append, List.map_cons, List.map_nil]
  · simp only [ConnPool.map, List.map_append, List.map_cons, List.map_nil]
    rfl

/-- A step is the same one under other names. -/
theorem PoolHistory.step_map (rename : σ → τ) (history : PoolHistory σ) (call : PoolCall σ) :
    (history.map rename).step (call.map rename) = (history.step call).map rename := by
  cases call with
  | prune now =>
    simp only [PoolHistory.step, PoolCall.map, PoolHistory.map, ConnPool.prune_map, List.map_append]
  | get now key =>
    simp only [PoolHistory.step, PoolCall.map, PoolHistory.map, ConnPool.get_map, List.map_append,
      Option.map_map]
    cases (history.pool.get now key).1 <;> rfl
  | put now later sock key =>
    cases sock with
    | none => rfl
    | some sock =>
      simp only [PoolHistory.step, PoolCall.map, PoolHistory.map, Option.map_some, ConnPool.put_map,
        List.map_append, List.map_cons, List.map_nil]
      rfl

/-- A run is the same one under other names. -/
theorem PoolHistory.run_map (rename : σ → τ) (history : PoolHistory σ)
    (calls : List (PoolCall σ)) :
    (history.map rename).run (calls.map (·.map rename)) = (history.run calls).map rename := by
  induction calls generalizing history with
  | nil => rfl
  | cons call calls ih =>
    show ((history.map rename).step (call.map rename)).run _ = ((history.step call).run calls).map _
    rw [PoolHistory.step_map, ih]

/-- Without their numbers the sockets are the ones that were put. -/
theorem numbered_map (calls : List (PoolCall σ)) :
    (numbered calls).map (·.map Prod.snd) = calls := by
  unfold numbered
  rw [List.map_map]
  have plain : ((PoolCall.map Prod.snd) ∘ fun call : PoolCall σ × Nat => call.1.map (call.2, ·)) =
      Prod.fst := by
    funext call
    obtain ⟨call, number⟩ := call
    cases call with
    | prune now => rfl
    | get now key => rfl
    | put now later sock key => cases sock <;> rfl
  rw [plain]
  exact List.zipIdx_map_fst 0 calls

/-! ## What every history keeps -/

/-- The sockets that are in the pool, and what they are for. -/
def PoolHistory.held (history : PoolHistory σ) : List (Hold σ) :=
  history.pool.entries.map PoolEntry.hold

/-- Every socket that was handed over was returned for the same connection, or closed, or is held. -/
structure PoolHistory.Accounted (history : PoolHistory σ) : Prop where
  /-- The sockets that were handed over are divided. -/
  divided : ∃ ended : List (Hold σ), ended.map Hold.sock = history.closed ∧
    history.handed.Perm (history.returned ++ ended ++ history.held)
  /-- The pool has no more entries than its array. -/
  bounded : history.pool.entries.length ≤ poolMaxEntries

/-- What a pass keeps and what it closes is what was held. -/
theorem ConnPool.prune_perm (pool : ConnPool σ) (now : Int) : ∃ ended : List (Hold σ),
    ended.map Hold.sock = (pool.prune now).closed ∧
      (ended ++ (pool.prune now).pool.entries.map PoolEntry.hold).Perm
        (pool.entries.map PoolEntry.hold) := by
  let keep : PoolEntry σ → Bool := fun entry =>
    decide (now - entry.idleSince < pool.idleTimeoutSec)
  refine ⟨(compact keep pool.entries).2.map PoolEntry.hold, ?_, ?_⟩
  · rw [List.map_map]
    rfl
  · rw [← List.map_append]
    exact (List.perm_append_comm.trans (compact_perm keep pool.entries)).map _

/-- A pass leaves no entry that was not there. -/
theorem ConnPool.prune_sublist (pool : ConnPool σ) (now : Int) :
    (pool.prune now).pool.entries.Sublist pool.entries := by
  let keep : PoolEntry σ → Bool := fun entry =>
    decide (now - entry.idleSince < pool.idleTimeoutSec)
  show (compact keep pool.entries).1.Sublist pool.entries
  rw [compact_eq]
  exact List.filter_sublist

/-- A pass keeps the account. -/
theorem PoolHistory.Accounted.prune {history : PoolHistory σ} (holds : history.Accounted)
    (now : Int) : PoolHistory.Accounted { history with
      pool := (history.pool.prune now).pool
      closed := history.closed ++ (history.pool.prune now).closed } := by
  obtain ⟨ended, closed, divided⟩ := holds.divided
  obtain ⟨more, last, kept⟩ := history.pool.prune_perm now
  refine ⟨⟨ended ++ more, ?_, ?_⟩, ?_⟩
  · rw [List.map_append, closed, last]
  · refine divided.trans ?_
    rw [← List.append_assoc, List.append_assoc (history.returned ++ ended)]
    exact kept.symm.append_left _
  · exact (history.pool.prune_sublist now).length_le.trans holds.bounded

/-- So does a search. -/
theorem PoolHistory.Accounted.get {history : PoolHistory σ} (holds : history.Accounted)
    (now : Int) (key : ConnKey) : (history.step (.get now key)).Accounted := by
  have passed := holds.prune now
  show PoolHistory.Accounted ⟨_, _, _, _⟩
  unfold ConnPool.get
  generalize history.pool.prune now = pruned at passed
  cases found : pruned.pool.entries.findIdx? (·.serves key) with
  | none =>
    simp only [found, Option.map_none, Option.toList_none, List.append_nil]
    exact passed
  | some i =>
    obtain ⟨inside, serves, -⟩ := List.findIdx?_eq_some_iff_getElem.mp found
    have here := List.getElem?_eq_getElem inside
    generalize pruned.pool.entries[i] = entry at here serves
    have own : entry.hold = key.hold entry.sock := by
      simp only [PoolEntry.serves, Bool.and_eq_true, beq_iff_eq] at serves
      obtain ⟨⟨port, useTls⟩, host⟩ := serves
      simp only [PoolEntry.hold, ConnKey.hold, port, useTls, host]
    have removed := (swapRemove_perm here).map PoolEntry.hold
    simp only [found, here, Option.map_some, Option.toList_some]
    obtain ⟨ended, closed, divided⟩ := passed.divided
    refine ⟨⟨ended, closed, ?_⟩, ?_⟩
    · refine divided.trans ?_
      have moved : (history.returned ++ ended ++ pruned.pool.entries.map PoolEntry.hold).Perm
          (history.returned ++ (ended ++ key.hold entry.sock ::
            (swapRemove pruned.pool.entries i).map PoolEntry.hold)) := by
        rw [List.append_assoc]
        refine (List.Perm.append_left _ ?_).append_left _
        rw [← own]
        exact removed.symm
      refine moved.trans ?_
      show List.Perm _ ((history.returned ++ [key.hold entry.sock]) ++ ended ++ _)
      rw [List.append_assoc, List.append_assoc, List.singleton_append]
      exact List.perm_middle.append_left _
    · have shorter := (swapRemove_perm here).length_eq
      have bound : pruned.pool.entries.length ≤ poolMaxEntries := passed.bounded
      simp only [List.length_cons] at shorter
      show (swapRemove pruned.pool.entries i).length ≤ poolMaxEntries
      omega

/-- And a put. -/
theorem PoolHistory.Accounted.put {history : PoolHistory σ} (holds : history.Accounted)
    (now later : Int) (sock : σ) (key : ConnKey) :
    (history.step (.put now later (some sock) key)).Accounted := by
  have passed := holds.prune now
  show PoolHistory.Accounted ⟨_, _, _, _⟩
  unfold ConnPool.put
  generalize history.pool.prune now = pruned at passed
  obtain ⟨ended, closed, divided⟩ := passed.divided
  simp only
  split
  · refine ⟨⟨ended ++ [key.hold sock], ?_, ?_⟩, passed.bounded⟩
    · rw [List.map_append, closed, List.append_assoc]
      rfl
    · refine (divided.append_right [key.hold sock]).trans ?_
      show List.Perm _ (history.returned ++ (ended ++ [key.hold sock]) ++ _)
      rw [List.append_assoc, List.append_assoc, List.append_assoc, List.append_assoc]
      exact (List.perm_append_comm.append_left _).append_left _
  · rename_i room
    have copied : snprintf 256 key.host.name = key.host.name := snprintf_fits key.host.short
    refine ⟨⟨ended, closed, ?_⟩, ?_⟩
    · refine (divided.append_right [key.hold sock]).trans ?_
      show List.Perm _ (history.returned ++ ended ++ List.map _ (_ ++ [_]))
      rw [List.map_append, List.append_assoc]
      show List.Perm _ (history.returned ++ ended ++ (_ ++ [PoolEntry.hold ⟨sock, _, _, _, _⟩]))
      rw [copied]
      exact List.Perm.refl _
    · have bound : pruned.pool.entries.length < poolMaxEntries := by
        have less := not_or.mp room
        omega
      show (pruned.pool.entries ++ [_]).length ≤ poolMaxEntries
      rw [List.length_append, List.length_singleton]
      omega

/-- Every run keeps the account. -/
theorem PoolHistory.Accounted.run {history : PoolHistory σ} (holds : history.Accounted)
    (calls : List (PoolCall σ)) : (history.run calls).Accounted := by
  induction calls generalizing history with
  | nil => exact holds
  | cons call calls ih =>
    refine @ih (history.step call) ?_
    cases call with
    | prune now => exact holds.prune now
    | get now key => exact holds.get now key
    | put now later sock key =>
      cases sock with
      | none => exact holds
      | some sock => exact holds.put now later sock key

/-- A new pool has nothing to account for. -/
theorem PoolHistory.create_accounted (maxIdle idleTimeoutSec : Int) :
    (PoolHistory.create σ maxIdle idleTimeoutSec).Accounted :=
  ⟨⟨[], rfl, List.Perm.refl _⟩, Nat.zero_le _⟩

/-- The end of a pool closes what it holds. -/
theorem PoolHistory.Accounted.destroy {history : PoolHistory σ} (holds : history.Accounted) :
    history.destroy.Accounted := by
  obtain ⟨ended, closed, divided⟩ := holds.divided
  refine ⟨⟨ended ++ history.held, ?_, ?_⟩, Nat.zero_le _⟩
  · rw [List.map_append, closed, PoolHistory.held, List.map_map]
    rfl
  · refine divided.trans ?_
    show List.Perm _ (history.returned ++ (ended ++ history.held) ++ [])
    rw [List.append_nil, List.append_assoc]

/-! ## One way out for every socket -/

/-- What a call hands over. -/
def PoolCall.handed : PoolCall σ → Option (Hold σ)
  | .put _ _ sock key => sock.map key.hold
  | _ => none

/-- A run hands over what its calls do. -/
theorem PoolHistory.run_handed (history : PoolHistory σ) (calls : List (PoolCall σ)) :
    (history.run calls).handed = history.handed ++ calls.filterMap PoolCall.handed := by
  induction calls generalizing history with
  | nil => exact (List.append_nil _).symm
  | cons call calls ih =>
    have rest : (history.run (call :: calls)).handed =
        (history.step call).handed ++ calls.filterMap PoolCall.handed := ih (history.step call)
    rw [rest]
    cases call with
    | prune now => rfl
    | get now key => rfl
    | put now later sock key =>
      cases sock with
      | none => rfl
      | some sock =>
        show (history.handed ++ [key.hold sock]) ++ _ = _
        rw [List.append_assoc]
        rfl

/-- No two calls put a socket of the same number. -/
theorem numbered_nodup (calls : List (PoolCall σ)) :
    (((numbered calls).filterMap PoolCall.handed).map Hold.sock).Nodup := by
  -- The numbers grow from every start on.
  have grows : ∀ start : Nat, (((calls.zipIdx start).map fun call =>
      call.1.map (call.2, ·)).filterMap PoolCall.handed).Pairwise
        fun earlier later => earlier.sock.1 < later.sock.1 := by
    induction calls with
    | nil => exact fun _ => List.Pairwise.nil
    | cons call calls ih =>
      intro start
      rw [List.zipIdx_cons, List.map_cons]
      cases handed : PoolCall.handed (call.map (start, ·)) with
      | none =>
        rw [List.filterMap_cons_none handed]
        exact ih (start + 1)
      | some hold =>
        rw [List.filterMap_cons_some handed]
        refine List.Pairwise.cons ?_ (ih (start + 1))
        intro other member
        obtain ⟨named, inside, puts⟩ := List.mem_filterMap.mp member
        obtain ⟨⟨behind, number⟩, indexed, rfl⟩ := List.mem_map.mp inside
        have later : start + 1 ≤ number := List.le_snd_of_mem_zipIdx indexed
        have numberOf : ∀ {call : PoolCall σ} {number : Nat} {hold : Hold (Nat × σ)},
            PoolCall.handed (call.map (number, ·)) = some hold → hold.sock.1 = number := by
          intro call number hold handed
          cases call with
          | prune now => cases handed
          | get now key => cases handed
          | put now later sock key =>
            cases sock with
            | none => cases handed
            | some sock =>
              cases handed
              rfl
        rw [numberOf handed, numberOf puts]
        exact later
  refine List.Pairwise.map Hold.sock (R := fun earlier later => earlier.sock.1 < later.sock.1)
    ?_ (grows 0)
  intro earlier later less same
  rw [same] at less
  exact lt_irrefl _ less

/-- A socket has gone one way: returned for what it was put for, closed, or still held. -/
def PoolHistory.OneWay (history : PoolHistory σ) (hold : Hold σ) : Prop :=
  (hold ∈ history.returned ∧ hold.sock ∉ history.closed ∧
      hold.sock ∉ history.held.map Hold.sock) ∨
    (hold.sock ∉ history.returned.map Hold.sock ∧ hold.sock ∈ history.closed ∧
      hold.sock ∉ history.held.map Hold.sock) ∨
    (hold.sock ∉ history.returned.map Hold.sock ∧ hold.sock ∉ history.closed ∧
      hold ∈ history.held)

/-- Every socket that was handed over has gone one way, and none went one twice. -/
structure PoolHistory.Sound (history : PoolHistory σ) : Prop where
  /-- Every socket has gone one way. -/
  oneWay : ∀ hold ∈ history.handed, history.OneWay hold
  /-- No socket was returned twice. -/
  returnedOnce : (history.returned.map Hold.sock).Nodup
  /-- No socket was closed twice. -/
  closedOnce : history.closed.Nodup
  /-- Nothing was returned that had not been handed over for the same connection. -/
  known : ∀ hold ∈ history.returned, hold ∈ history.handed
  /-- The pool has no more entries than its array. -/
  bounded : history.pool.entries.length ≤ poolMaxEntries

/-- An account of different sockets is sound. -/
theorem PoolHistory.Accounted.sound {history : PoolHistory σ} (holds : history.Accounted)
    (different : (history.handed.map Hold.sock).Nodup) : history.Sound := by
  obtain ⟨ended, closed, divided⟩ := holds.divided
  have socks : (history.handed.map Hold.sock).Perm
      (history.returned.map Hold.sock ++ history.closed ++ history.held.map Hold.sock) := by
    have named := divided.map Hold.sock
    rwa [List.map_append, List.map_append, closed] at named
  have apart := List.nodup_append.mp (socks.nodup_iff.mp different)
  have front := List.nodup_append.mp apart.1
  have known : ∀ hold ∈ history.returned ++ history.held, hold ∈ history.handed := by
    intro hold member
    refine divided.mem_iff.mpr ?_
    rcases List.mem_append.mp member with returned | held
    · exact List.mem_append_left _ (List.mem_append_left _ returned)
    · exact List.mem_append_right _ held
  -- The sockets are different, so what is known by its socket is the whole hold.
  have own : ∀ hold ∈ history.handed, ∀ list : List (Hold σ),
      (∀ other ∈ list, other ∈ history.handed) → hold.sock ∈ list.map Hold.sock → hold ∈ list := by
    intro hold member list inside named
    obtain ⟨other, there, same⟩ := List.mem_map.mp named
    rw [← List.inj_on_of_nodup_map different (inside other there) member same]
    exact there
  refine ⟨?_, front.1, front.2.1, fun hold member => known hold (List.mem_append_left _ member),
    holds.bounded⟩
  intro hold member
  have fromReturned := own hold member history.returned fun other inside =>
    known other (List.mem_append_left _ inside)
  have fromHeld := own hold member history.held fun other inside =>
    known other (List.mem_append_right _ inside)
  rcases one_part different socks (List.mem_map_of_mem member) with
    ⟨inside, notClosed, notHeld⟩ | ⟨notReturned, inside, notHeld⟩ | ⟨notReturned, notClosed, inside⟩
  · exact .inl ⟨fromReturned inside, notClosed, notHeld⟩
  · exact .inr (.inl ⟨notReturned, inside, notHeld⟩)
  · exact .inr (.inr ⟨notReturned, notClosed, fromHeld inside⟩)

/-- The entries for a host and a port. -/
def ConnPool.idleFor (pool : ConnPool σ) (host : HostName) (port : Int) : Nat :=
  pool.entries.countP (·.isFor host port)

/-- A put leaves at most as many entries for a host and a port as the limit allows, or as there were. -/
theorem ConnPool.put_idleFor (pool : ConnPool σ) (now later : Int) (sock : σ) (key : ConnKey) :
    ((pool.put now later sock key).pool.idleFor key.host key.port : Int) ≤
      max pool.maxIdle (pool.idleFor key.host key.port) := by
  have fewer : (pool.prune now).pool.idleFor key.host key.port ≤
      pool.idleFor key.host key.port := (pool.prune_sublist now).countP_le
  have limit : (pool.prune now).pool.maxIdle = pool.maxIdle := rfl
  unfold ConnPool.put
  generalize pool.prune now = pruned at fewer limit
  simp only
  split
  · show (pruned.pool.idleFor key.host key.port : Int) ≤ _
    omega
  · rename_i room
    have below := (not_or.mp room).1
    have count : pruned.pool.idleFor key.host key.port =
        pruned.pool.entries.countP (·.isFor key.host key.port) := rfl
    have one : (ConnPool.idleFor { pruned.pool with entries := pruned.pool.entries ++
        [⟨sock, snprintf 256 key.host.name, key.port, key.useTls, later⟩] } key.host key.port) ≤
        pruned.pool.entries.countP (·.isFor key.host key.port) + 1 := by
      show (pruned.pool.entries ++ [_]).countP _ ≤ _
      rw [List.countP_append, List.countP_singleton]
      split <;> omega
    refine Int.le_trans (Int.ofNat_le.mpr one) ?_
    push_cast
    omega

/-- Whatever is called when, every socket that is put leaves the pool once: it is returned to a call for
the same connection or closed, and at the latest closed at the end. The pool keeps to its limits. -/
theorem connpool_oneWay (calls : List (PoolCall σ)) (maxIdle idleTimeoutSec : Int) :
    let plain := (PoolHistory.create σ maxIdle idleTimeoutSec).run calls
    let history := (PoolHistory.create (Nat × σ) maxIdle idleTimeoutSec).run (numbered calls)
    history.map Prod.snd = plain ∧ history.Sound ∧
      history.destroy.Sound ∧ history.destroy.held = [] ∧
      ∀ (now later : Int) (sock : σ) (key : ConnKey),
        ((plain.step (.put now later (some sock) key)).pool.idleFor key.host key.port : Int) ≤
          max plain.pool.maxIdle (plain.pool.idleFor key.host key.port) := by
  intro plain history
  have accounted : history.Accounted :=
    (PoolHistory.create_accounted maxIdle idleTimeoutSec).run (numbered calls)
  have different : (history.handed.map Hold.sock).Nodup := by
    have handed : history.handed = [] ++ (numbered calls).filterMap PoolCall.handed :=
      PoolHistory.run_handed _ _
    rw [handed, List.nil_append]
    exact numbered_nodup calls
  refine ⟨?_, accounted.sound different, accounted.destroy.sound different, rfl, ?_⟩
  · have same := PoolHistory.run_map Prod.snd
      (PoolHistory.create (Nat × σ) maxIdle idleTimeoutSec) (numbered calls)
    rw [numbered_map] at same
    exact same.symm
  · exact fun now later sock key => plain.pool.put_idleFor now later sock key

end Cookbook.Grid
