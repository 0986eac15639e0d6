import Mathlib.Data.List.DropRight
import Cookbook.Kv.Statements

/-!
# The key-value backend

The store keeps rows under the name of their table and their key. The backend finds out what a
statement is by looking for words in its text: an `INSERT` takes its key from the first parameter, a
`DELETE` too, an `UPDATE` from the last, and a `SELECT` from the first if its text has `= ?1`.
-/
namespace Cookbook.Kv

open Library.Text

/-! ## The store -/

/-- A row with its key. -/
abbrev Entry := Bytes × Bytes

/-- `kv_store`: the entries in the order in which it iterates over them. -/
structure KvStore where
  /-- The entries. -/
  entries : List Entry
  /-- No key is there twice. -/
  distinct : (entries.map Prod.fst).Nodup

namespace KvStore

variable (store : KvStore)

/-- `kv_get` -/
def get (key : Bytes) : Option Bytes := store.entries.lookup key

/-- The value of an entry is replaced. -/
def replaced (key value : Bytes) : List Entry :=
  store.entries.map fun entry => if entry.1 = key then (key, value) else entry

/-- The keys stay the same when a value is replaced. -/
theorem replaced_keys (key value : Bytes) :
    (store.replaced key value).map Prod.fst = store.entries.map Prod.fst := by
  unfold replaced
  rw [List.map_map]
  refine List.map_congr_left fun entry _ => ?_
  show (if entry.1 = key then (key, value) else entry).1 = entry.1
  split
  · next same => exact same.symm
  · rfl

/-- A key that is not found is not there. -/
theorem notMem_keys {key : Bytes} (absent : ¬ (store.get key).isSome = true) :
    key ∉ store.entries.map Prod.fst := by
  intro member
  obtain ⟨entry, inside, same⟩ := List.mem_map.mp member
  refine absent (List.lookup_isSome_iff.mpr ⟨entry, inside, ?_⟩)
  simp [same]

/-- `kv_put` -/
def put (key value : Bytes) : KvStore :=
  if present : (store.get key).isSome = true then
    ⟨store.replaced key value, (store.replaced_keys key value).symm ▸ store.distinct⟩
  else ⟨(key, value) :: store.entries, List.nodup_cons.mpr ⟨store.notMem_keys present, store.distinct⟩⟩

/-- `kv_delete` -/
def delete (key : Bytes) : KvStore where
  entries := store.entries.filter fun entry => entry.1 ≠ key
  distinct := store.distinct.sublist (List.filter_sublist.map _)

/-- The entries that `kv_iter_next` returns for a prefix. -/
def iterate (start : Bytes) : List Entry :=
  store.entries.filter fun entry => start.isPrefixOf entry.1

/-- A value is found under a key exactly when it is an entry. -/
theorem get_eq_some_iff {key value : Bytes} :
    store.get key = some value ↔ (key, value) ∈ store.entries := by
  unfold get
  rw [List.lookup_eq_some_iff]
  constructor
  · rintro ⟨front, rest, shape, -⟩
    rw [shape]
    simp
  · intro member
    obtain ⟨front, rest, shape⟩ := List.append_of_mem member
    refine ⟨front, rest, shape, fun entry inside => ?_⟩
    have distinct := store.distinct
    rw [shape, List.map_append, List.nodup_append] at distinct
    have apart := distinct.2.2 entry.1 (List.mem_map_of_mem inside) key (by simp)
    simp [apart.symm]

/-- What was put is found. -/
theorem get_put_self (key value : Bytes) : (store.put key value).get key = some value := by
  rw [get_eq_some_iff]
  unfold put
  split
  · next present =>
    obtain ⟨old, found⟩ := Option.isSome_iff_exists.mp present
    exact List.mem_map.mpr ⟨(key, old), store.get_eq_some_iff.mp found, if_pos rfl⟩
  · exact List.mem_cons_self

/-- Another key is found as before. -/
theorem get_put_other {key other : Bytes} (value : Bytes) (apart : other ≠ key) :
    (store.put key value).get other = store.get other := by
  apply Option.ext
  intro found
  rw [get_eq_some_iff, get_eq_some_iff]
  unfold put
  split
  · constructor
    · intro member
      obtain ⟨entry, inside, same⟩ := List.mem_map.mp member
      split at same
      · exact absurd (congrArg Prod.fst same).symm apart
      · exact same ▸ inside
    · intro member
      exact List.mem_map.mpr ⟨(other, found), member, if_neg apart⟩
  · simp [apart]

end KvStore

/-! ## Texts of statements -/

/-- A word stands in a text. -/
def has (word : String) (sql : Bytes) : Bool := (strstr (bytes word) sql).isSome

/-- The text behind the first of some words that stands in it. -/
def behind (words : List String) (size : Nat) (sql : Bytes) : Option Bytes :=
  (words.findSome? fun word => strstr (bytes word) sql).map (List.drop size)

/-- `sql_table` -/
def sqlTable (sql : Bytes) : Option Bytes :=
  let found :=
    (behind [" FROM ", " from ", " INTO ", " into "] 6 sql).or
      ((behind ["UPDATE ", "update "] 6 sql).or (behind ["DELETE FROM ", "delete from "] 11 sql))
  found.map fun rest =>
    ((rest.dropWhile (· == space)).takeWhile
      fun c => c != space && c != 0x28 && c != 0x3B).take 63

/-- `kv_key`, in a buffer of 256 bytes. -/
def kvKey (table pk : Bytes) : Bytes := (table ++ colon :: pk).take 255

/-- The prefix of a table. -/
def tablePrefix (table : Bytes) : Bytes := table ++ [colon]

/-! ## Queries -/

/-- The entries whose rows `kv_query_p` hands over. -/
def kvReached (store : KvStore) (sql table : Bytes) (params : List Param) : List Entry :=
  match params with
  | .text pk :: _ =>
    if has "WHERE" sql && has "= ?1" sql then
      ((store.get (kvKey table pk)).map fun data => (kvKey table pk, data)).toList
    else store.iterate (tablePrefix table)
  | _ => store.iterate (tablePrefix table)

/-- `cookbook_db_status` -/
inductive Status
  /-- `COOKBOOK_DB_OK` -/
  | ok
  /-- `COOKBOOK_DB_ERROR` -/
  | error
  /-- `COOKBOOK_DB_CONSTRAINT` -/
  | constraint
  /-- `COOKBOOK_DB_NOT_FOUND` -/
  | notFound
  deriving DecidableEq

/-- `kv_query_p`: the status, and the rows that the callback gets. -/
def kvQueryP (store : KvStore) (sql : Bytes) (params : List Param) : Status × List Row :=
  match sqlTable sql with
  | none => (.error, [])
  | some table => (.ok, (kvReached store sql table params).map fun entry => decodeRow entry.2)

/-- `kv_query`: the status, and the rows that the callback gets, which are all of the table. -/
def kvQuery (store : KvStore) (sql : Bytes) : Status × List Row :=
  match sqlTable sql with
  | none => (.error, [])
  | some table => (.ok, (store.iterate (tablePrefix table)).map fun entry => decodeRow entry.2)

/-! ## Changes -/

/-- The text of a parameter: an integer goes through `%d`. -/
def Param.stored : Param → Bytes
  | .text value => cString value
  | .int value => decimal (value.bmod 4294967296)
  | .null => []

/-- The column names of an `INSERT`: at most 32, from at most 1023 bytes. -/
def insertColumns (sql : Bytes) : Option (List Bytes) :=
  (strchr 0x28 sql).bind fun found =>
    (strchr 0x29 (found.drop 1)).map fun _ =>
      ((((found.drop 1).takeWhile (· != 0x29)).take 1023).splitOn comma).take 32 |>.map fun name =>
        (name.dropWhile (· == space)).rdropWhile (· == space)

/-- The part of `kv_exec_p` for `INSERT`. -/
def kvInsert (store : KvStore) (sql table : Bytes) (params : List Param) : Status × KvStore :=
  match params with
  | .text pk :: _ =>
    let key := kvKey table pk
    let present := (store.get key).isSome
    if (has "OR IGNORE" sql || has "or ignore" sql) && present then (.ok, store)
    else if !has "OR IGNORE" sql && !has "OR REPLACE" sql && present then (.constraint, store)
    else
      match insertColumns sql with
      | none => (.error, store)
      | some columns => (.ok, store.put key (encodeRow (columns.zip (params.map Param.stored))))
  | _ => (.error, store)

/-- The part of `kv_exec_p` for `DELETE`. -/
def kvDelete (store : KvStore) (table : Bytes) (params : List Param) : Status × KvStore :=
  match params with
  | .text pk :: _ => (.ok, store.delete (kvKey table pk))
  | _ => (.error, store)

/-- A new value is written behind the first place in a row where `col=` stands, up to the next
tab. -/
def editRow (column value row : Bytes) : Bytes :=
  match strstr (column ++ [equalSign]) row with
  | none => row
  | some found =>
    row.take (row.length - found.length) ++ (column ++ equalSign :: value) ++
      (strchr tab found).getD []

/-- The column that an assignment names, and the text behind the assignment. -/
def readAssignment (text : Bytes) : Bytes × Bytes :=
  let text := text.dropWhile (· == space)
  let ends := fun c => c != space && c != equalSign
  let rest := (((text.dropWhile ends).dropWhile (· != 0x3F)).drop 1).dropWhile isDecimal
  ((text.takeWhile ends).take 127, if rest.head? = some comma then rest.drop 1 else rest)

/-- The loop over the assignments: it ends in front of the `WHERE` clause, which is in the text
behind every assignment. -/
def setLoop (params : List Param) : Nat → Nat → Bytes → Bytes → Bytes
  | 0, _, _, row => row
  | rounds + 1, index, text, row =>
    if text = [] then row
    else
      let (column, rest) := readAssignment text
      let row := editRow column (((params[index]?).map Param.stored).getD []) row
      if has "WHERE" rest || has "where" rest then row
      else setLoop params rounds (index + 1) rest row

/-- The part of `kv_exec_p` for `UPDATE`. -/
def kvUpdate (store : KvStore) (sql table : Bytes) (params : List Param) : Status × KvStore :=
  if params.length < 2 then (.error, store)
  else
    match params.getLast? with
    | some (.text pk) =>
      let key := kvKey table pk
      match store.get key with
      | none => (.notFound, store)
      | some data =>
        let row := cString data
        let row := match behind [" SET ", " set "] 5 sql with
          | none => row
          | some text => setLoop params (params.length - 1) 0 text row
        (.ok, store.put key row)
    | _ => (.error, store)

/-- `kv_exec_p` -/
def kvExecP (store : KvStore) (sql : Bytes) (params : List Param) : Status × KvStore :=
  if has "CREATE TABLE" sql || has "CREATE INDEX" sql then (.ok, store)
  else
    match sqlTable sql with
    | none => (.error, store)
    | some table =>
      if has "INSERT" sql || has "insert" sql then kvInsert store sql table params
      else if has "DELETE" sql || has "delete" sql then kvDelete store table params
      else if has "UPDATE" sql || has "update" sql then kvUpdate store sql table params
      else (.ok, store)

/-! ## What the statements of the server do -/

/-- A condition asks for the first parameter. -/
def Condition.asksFirst : Condition → Bool
  | .compare _ .equal (.param 1) => true
  | _ => false

/-- A `SELECT` reads the row under a key where it compares a column with its first parameter for
equality, and all rows of its table otherwise. -/
theorem select_plan : ∀ select ∈ selects, sqlTable select.sql = some select.table ∧
    (has "WHERE" select.sql && has "= ?1" select.sql) =
      select.conditions.any Condition.asksFirst := by
  simp only [selects, List.forall_mem_cons,
    selectStale, selectExpiredKeys, selectExpired, selectYanked, selectCredential,
    selectMirrorVersion, selectMirror, selectGroup, countArtifacts, selectRevocations,
    selectPolicy, bytes_ofList]
  decide +kernel

/-- A `SELECT` without parameters reads its table. -/
theorem listing_plan : ∀ listing ∈ listings, sqlTable listing.sql = some listing.table := by
  simp only [listings, List.forall_mem_cons, listPublished, listGroups, listCredentials, listPolicies,
    listPeers, bytes_ofList]
  decide +kernel

/-- A `DELETE` is known as one. -/
theorem delete_plan : ∀ delete ∈ deletes, sqlTable delete.sql = some delete.table ∧
    (has "CREATE TABLE" delete.sql || has "CREATE INDEX" delete.sql) = false ∧
    (has "INSERT" delete.sql || has "insert" delete.sql) = false ∧
    (has "DELETE" delete.sql || has "delete" delete.sql) = true := by
  simp only [deletes, List.forall_mem_cons,
    deleteSemver, deleteStale, deleteCached, deletePeer, deleteGroup, deleteCredential,
    deleteRevocations, deletePolicy, bytes_ofList]
  decide +kernel

/-- An `INSERT` is known as one, with what it does on a conflict and with its columns. -/
theorem insert_plan : ∀ insert ∈ inserts, sqlTable insert.sql = some insert.table ∧
    (has "CREATE TABLE" insert.sql || has "CREATE INDEX" insert.sql) = false ∧
    (has "INSERT" insert.sql || has "insert" insert.sql) = true ∧
    (has "OR IGNORE" insert.sql || has "or ignore" insert.sql) =
      decide (insert.onConflict = .ignore) ∧
    (!has "OR IGNORE" insert.sql && !has "OR REPLACE" insert.sql) =
      decide (insert.onConflict = .refuse) ∧
    insertColumns insert.sql = some (insert.assignments.map Prod.fst) := by
  simp only [inserts, List.forall_mem_cons]
  refine ⟨?_, ?_, ?_, ?_, ?_, ?_, ?_, ?_, ?_, ?_, ?_, nofun⟩
  all_goals
    simp only [insertOwnGroup, insertArtifact, insertSemver, insertRevocation, insertKey,
      insertPeer, insertCached, insertDescribedGroup, insertGroup, insertCredential, insertPolicy,
      bytes_ofList, has, decide_true, decide_false, reduceCtorEq]
    decide +kernel

/-- An `UPDATE` is known as one, and the loop over its assignments ends behind the first. -/
theorem update_plan : ∀ update ∈ updates, sqlTable update.sql = some update.table ∧
    (has "CREATE TABLE" update.sql || has "CREATE INDEX" update.sql) = false ∧
    (has "INSERT" update.sql || has "insert" update.sql) = false ∧
    (has "DELETE" update.sql || has "delete" update.sql) = false ∧
    (has "UPDATE" update.sql || has "update" update.sql) = true ∧
    ∃ text ∈ behind [" SET ", " set "] 5 update.sql, text ≠ [] ∧
      ((readAssignment text).1 :: [] = (update.assignments.map Prod.fst).take 1) ∧
      (has "WHERE" (readAssignment text).2 || has "where" (readAssignment text).2) = true := by
  simp only [updates, List.forall_mem_cons]
  refine ⟨?_, ?_, ?_, ?_, ?_, ?_, nofun⟩
  all_goals
    simp only [updatePublished, updateYanked, updateKey, updateOwner, updateDescription,
      updateCredential, bytes_ofList, has]
    decide +kernel

end Cookbook.Kv
