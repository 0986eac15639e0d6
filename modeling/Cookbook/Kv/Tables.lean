import Cookbook.Kv.Selection

/-!
# Tables of the key-value backend

All tables share one store. A statement writes and deletes under keys of the table that its text
names, so the rows of another table, and every query of it, stay as they are.
-/
namespace Cookbook.Kv

open Library.Text

/-- A statement with its parameters. -/
abbrev Call := Bytes × List Param

/-- The store behind successive calls of `kv_exec_p`. -/
def kvRun (store : KvStore) (calls : List Call) : KvStore :=
  calls.foldl (fun store call => (kvExecP store call.1 call.2).2) store

/-! ## One statement -/

/-- What a statement can do: it leaves the store alone, or it writes or deletes under one key of its
table. -/
theorem kvExecP_cases (store : KvStore) (sql : Bytes) (params : List Param) :
    (kvExecP store sql params).2 = store ∨ ∃ table pk, sqlTable sql = some table ∧
      ((∃ value, (kvExecP store sql params).2 = store.put (kvKey table pk) value) ∨
        (kvExecP store sql params).2 = store.delete (kvKey table pk)) := by
  unfold kvExecP
  split
  · exact .inl rfl
  · cases named : sqlTable sql with
    | none => exact .inl rfl
    | some table =>
      simp only
      split_ifs
      · unfold kvInsert
        split
        · rename_i pk rest
          simp only
          split_ifs
          · exact .inl rfl
          · exact .inl rfl
          · cases insertColumns sql with
            | none => exact .inl rfl
            | some columns => exact .inr ⟨table, pk, rfl, .inl ⟨_, rfl⟩⟩
        · exact .inl rfl
      · unfold kvDelete
        split
        · exact .inr ⟨table, _, rfl, .inr rfl⟩
        · exact .inl rfl
      · unfold kvUpdate
        split_ifs
        · exact .inl rfl
        · split
          · rename_i pk _
            cases found : store.get (kvKey table pk) with
            | none =>
              simp only [found]
              exact .inl trivial
            | some data =>
              simp only [found]
              exact .inr ⟨table, pk, rfl, .inl ⟨_, rfl⟩⟩
          · exact .inl rfl
      · exact .inl rfl

namespace KvStore

variable (store : KvStore)

/-- A write under a key without a prefix leaves what has the prefix alone. -/
theorem iterate_put {start key : Bytes} (value : Bytes) (apart : start.isPrefixOf key = false) :
    (store.put key value).iterate start = store.iterate start := by
  unfold put iterate
  split
  · show (store.entries.map fun entry => if entry.1 = key then (key, value) else entry).filter
      (fun entry => start.isPrefixOf entry.1) = _
    rw [List.filter_map]
    have same : ((fun entry : Entry => start.isPrefixOf entry.1) ∘
        fun entry => if entry.1 = key then (key, value) else entry) =
          fun entry => start.isPrefixOf entry.1 := by
      funext entry
      rw [Function.comp_apply]
      split_ifs with equal
      · rw [equal]
      · rfl
    rw [same]
    refine (List.map_congr_left fun entry member => ?_).trans (List.map_id _)
    have starts : start.isPrefixOf entry.1 = true := (List.mem_filter.mp member).2
    rw [if_neg]
    · rfl
    · rintro rfl
      rw [apart] at starts
      cases starts
  · exact List.filter_cons_of_neg (by simp [apart])

/-- So does a deletion. -/
theorem iterate_delete {start key : Bytes} (apart : start.isPrefixOf key = false) :
    (store.delete key).iterate start = store.iterate start := by
  unfold delete iterate
  rw [List.filter_filter]
  refine List.filter_congr fun entry _ => ?_
  by_cases equal : entry.1 = key
  · rw [equal, apart, Bool.false_and]
  · rw [decide_eq_true equal, Bool.and_true]

/-- A key with a prefix is found among the entries that have it. -/
theorem get_eq_of_iterate {other : KvStore} {start key : Bytes} (starts : start.isPrefixOf key = true)
    (same : other.iterate start = store.iterate start) : other.get key = store.get key := by
  have among (some : KvStore) (value : Bytes) :
      (key, value) ∈ some.entries ↔ (key, value) ∈ some.iterate start := by
    rw [iterate, List.mem_filter]
    exact (and_iff_left starts).symm
  apply Option.ext
  intro value
  rw [get_eq_some_iff, get_eq_some_iff, among, among, same]

end KvStore

/-! ## Names of tables -/

/-- The name that is read from a statement is shorter than 64 bytes. -/
theorem sqlTable_short {sql table : Bytes} (named : sqlTable sql = some table) :
    table.length < 64 := by
  obtain ⟨rest, -, rfl⟩ := Option.map_eq_some_iff.mp named
  exact (List.length_take_le _ _).trans_lt (by decide)

/-- The key of a row starts with the name of its table and a colon. -/
theorem kvKey_starts {table : Bytes} (short : table.length < 64) (pk : Bytes) :
    ∃ rest, kvKey table pk = table ++ colon :: rest := by
  refine ⟨pk.take (254 - table.length), ?_⟩
  have room : 255 - table.length = (254 - table.length) + 1 := by omega
  rw [kvKey, List.take_append, List.take_of_length_le (by omega), room, List.take_succ_cons]

/-- No key of a table starts with the prefix of another one. -/
theorem tablePrefix_apart {table other : Bytes} (plain : colon ∉ table) (plain' : colon ∉ other)
    (short : other.length < 64) (apart : other ≠ table) (pk : Bytes) :
    (tablePrefix table).isPrefixOf (kvKey other pk) = false := by
  have name (front rest : Bytes) (free : colon ∉ front) :
      (front ++ colon :: rest).takeWhile (· != colon) = front := by
    rw [List.takeWhile_append_of_pos]
    · simp
    · intro c member
      simpa using fun same : c = colon => free (same ▸ member)
  by_contra starts
  rw [Bool.not_eq_false, List.isPrefixOf_iff_prefix] at starts
  obtain ⟨more, shape⟩ := starts
  obtain ⟨rest, key⟩ := kvKey_starts short pk
  rw [key, tablePrefix, List.append_assoc, List.singleton_append] at shape
  have names := congrArg (List.takeWhile (· != colon)) shape
  rw [name _ _ plain, name _ _ plain'] at names
  exact apart names.symm

/-! ## Runs -/

/-- The calls name tables without a colon, and not this one. -/
def Elsewhere (table : Bytes) (calls : List Call) : Prop :=
  ∀ call ∈ calls, ∀ other, sqlTable call.1 = some other → colon ∉ other ∧ other ≠ table

/-- Calls on other tables leave the rows of a table alone. -/
theorem kvRun_iterate (store : KvStore) {table : Bytes} (plain : colon ∉ table) {calls : List Call}
    (elsewhere : Elsewhere table calls) :
    (kvRun store calls).iterate (tablePrefix table) = store.iterate (tablePrefix table) := by
  induction calls generalizing store with
  | nil => rfl
  | cons call calls ih =>
    have rest := ih (kvExecP store call.1 call.2).2
      fun later member => elsewhere later (List.mem_cons_of_mem _ member)
    refine rest.trans ?_
    rcases kvExecP_cases store call.1 call.2 with same | ⟨other, pk, named, change⟩
    · rw [same]
    · obtain ⟨plain', apart⟩ := elsewhere call List.mem_cons_self other named
      have outside := tablePrefix_apart plain plain' (sqlTable_short named) apart pk
      rcases change with ⟨value, written⟩ | deleted
      · rw [written]
        exact store.iterate_put value outside
      · rw [deleted]
        exact store.iterate_delete outside

/-- A query answers as before whatever statements on other tables were executed. -/
theorem kvQueryP_elsewhere (store : KvStore) {sql table : Bytes} (named : sqlTable sql = some table)
    (plain : colon ∉ table) {calls : List Call} (elsewhere : Elsewhere table calls)
    (params : List Param) :
    kvQueryP (kvRun store calls) sql params = kvQueryP store sql params := by
  have rows := kvRun_iterate store plain elsewhere
  have found (pk : Bytes) : (kvRun store calls).get (kvKey table pk) = store.get (kvKey table pk) := by
    exact store.get_eq_of_iterate (tablePrefix_kvKey pk (sqlTable_short named)) rows
  have reached : kvReached (kvRun store calls) sql table params = kvReached store sql table params := by
    unfold kvReached
    split
    · rw [found, rows]
    · exact rows
  rw [kvQueryP, kvQueryP, named]
  simp only [reached]

/-- A store with a credential. -/
def oneCredential : KvStore :=
  ⟨[(bytes "credentials:alice", bytes "token_hash=h")], by decide +kernel⟩

/-- Changes to the peers and the groups do not show in the credentials. -/
theorem kvQueryP_elsewhere_credentials :
    kvQueryP (kvRun oneCredential [(deletePeer.sql, texts [bytes "mirror"]),
        (insertGroup.sql, texts [bytes "org.acme", bytes "alice", bytes "now"])])
      selectCredential.sql (texts [bytes "alice"]) =
    kvQueryP oneCredential selectCredential.sql (texts [bytes "alice"]) := by
  have peers : sqlTable deletePeer.sql = some (bytes "peers") := by decide +kernel
  have groups : sqlTable insertGroup.sql = some (bytes "groups") := by decide +kernel
  have credentials : sqlTable selectCredential.sql = some (bytes "credentials") := by decide +kernel
  refine kvQueryP_elsewhere oneCredential credentials (by decide +kernel) ?_ _
  intro call member other named
  simp only [List.mem_cons, List.not_mem_nil, or_false] at member
  rcases member with rfl | rfl
  · rw [peers] at named
    cases named
    decide +kernel
  · rw [groups] at named
    cases named
    decide +kernel

end Cookbook.Kv
