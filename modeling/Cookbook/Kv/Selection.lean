import Cookbook.Kv.Backend

/-!
# The rows that a statement reaches

The `WHERE` clause of a statement says which rows of a table it is about. The backend looks at no
clause: it reads or deletes the row under the key that the first parameter gives, or it hands over
the whole table. The clean-up of stale artifacts asks for rows that are pending, gets all, and
deletes them.
-/
namespace Cookbook.Kv

open Library.Text

/-! ## What a clause means -/

/-- The value of an expression, none for `NULL`. -/
def Expression.value (params : List Param) : Expression → Option Bytes
  | .param index =>
    match params[index - 1]? with
    | some (.text value) => some value
    | some (.int value) => some (decimal value)
    | some .null => none
    | none => none
  | .text value => some value
  | .number value => some (decimalNat value)
  | .null => none

/-- A comparison of two values that are there; how a column orders its values is the database's. -/
def Comparison.holds (order : Bytes → Bytes → Ordering) (left right : Bytes) : Comparison → Bool
  | .equal => decide (left = right)
  | .below => order left right == .lt
  | .atMost => order left right != .gt
  | .above => order left right == .gt

/-- A condition on a row: a comparison with `NULL` does not hold. -/
def Condition.holds (order : Bytes → Bytes → Bytes → Ordering) (params : List Param) (row : Row) :
    Condition → Bool
  | .compare column comparison value =>
    match row.lookup column, value.value params with
    | some left, some right => comparison.holds (order column) left right
    | _, _ => false
  | .isNull column => (row.lookup column).isNone

/-- The rows of a table that satisfy a clause. -/
def matching (order : Bytes → Bytes → Bytes → Ordering) (store : KvStore) (table : Bytes)
    (conditions : List Condition) (params : List Param) : List Entry :=
  (store.iterate (tablePrefix table)).filter fun entry =>
    conditions.all (Condition.holds order params (decodeRow entry.2))

/-- The parameters of a statement whose parameters are all texts. -/
def texts (values : List Bytes) : List Param := values.map Param.text

section Clauses

variable (order : Bytes → Bytes → Bytes → Ordering) (store : KvStore)

/-- A query hands over exactly the rows that satisfy the clause, each once, and of these at most as
many as it asks for. -/
structure SelectsExactly (select : Select) (params : List Param) : Prop where
  /-- The query succeeds with the rows of these entries. -/
  succeeds : kvQueryP store select.sql params =
    (.ok, (kvReached store select.sql select.table params).map fun entry => decodeRow entry.2)
  /-- None is handed over twice. -/
  once : (kvReached store select.sql select.table params).Nodup
  /-- They satisfy the clause. -/
  sound : ∀ entry ∈ kvReached store select.sql select.table params,
    entry ∈ matching order store select.table select.conditions params
  /-- None is missing. -/
  complete : (kvReached store select.sql select.table params).length =
    match select.limit with
    | none => (matching order store select.table select.conditions params).length
    | some limit => min limit (matching order store select.table select.conditions params).length

/-- A `DELETE` removes exactly the rows that satisfy the clause. -/
structure DeletesExactly (delete : Delete) (params : List Param) : Prop where
  /-- The statement succeeds. -/
  succeeds : (kvExecP store delete.sql params).1 = .ok
  /-- What is left is what does not satisfy the clause. -/
  left : ∀ entry, entry ∈ (kvExecP store delete.sql params).2.entries ↔
    entry ∈ store.entries ∧ entry ∉ matching order store delete.table delete.conditions params

/-- The row under the key of a text, if there is one, satisfies the clause. -/
def KeySatisfies (table : Bytes) (conditions : List Condition) (params : List Param) (pk : Bytes) :
    Prop :=
  ∀ data, store.get (kvKey table pk) = some data →
    conditions.all (Condition.holds order params (decodeRow data)) = true

/-- No row under another key satisfies the clause. -/
def OnlyKeySatisfies (table : Bytes) (conditions : List Condition) (params : List Param)
    (pk : Bytes) : Prop :=
  ∀ entry ∈ matching order store table conditions params, entry.1 = kvKey table pk

/-- When a query is answered rightly: where it compares a column with its first parameter for
equality, the row under that key must satisfy the clause, and no other may (with a limit of one,
others may, unless there is none under the key); otherwise every row of the table must satisfy the
clause. -/
def SelectFits (select : Select) (params : List Param) (pk : Bytes) : Prop :=
  if select.conditions.any Condition.asksFirst then
    KeySatisfies order store select.table select.conditions params pk ∧
      match select.limit with
      | none => OnlyKeySatisfies order store select.table select.conditions params pk
      | some _ => (store.get (kvKey select.table pk)).isSome = true ∨
          matching order store select.table select.conditions params = []
  else
    ∀ entry ∈ store.iterate (tablePrefix select.table),
      select.conditions.all (Condition.holds order params (decodeRow entry.2)) = true

end Clauses

/-! ## Queries -/

/-- The names of the tables are short. -/
theorem select_table_short : ∀ select ∈ selects, select.table.length < 64 ∧
    (select.limit = none ∨ select.limit = some 1) ∧
    (select.conditions.any Condition.asksFirst = true ∨ select.limit = none) := by
  decide +kernel

/-- The names of the tables are short. -/
theorem delete_table_short : ∀ delete ∈ deletes, delete.table.length < 64 := by decide +kernel

/-- A key of a table whose name is short starts with its prefix. -/
theorem tablePrefix_kvKey {table : Bytes} (pk : Bytes) (short : table.length < 64) :
    (tablePrefix table).isPrefixOf (kvKey table pk) = true := by
  rw [List.isPrefixOf_iff_prefix]
  unfold tablePrefix kvKey
  rw [show table ++ colon :: pk = (table ++ [colon]) ++ pk by simp, List.take_append,
    List.take_of_length_le (by simp; omega)]
  exact List.prefix_append _ _

/-- The entries of a store are there once. -/
theorem KvStore.nodup (store : KvStore) : store.entries.Nodup :=
  List.Pairwise.of_map Prod.fst (fun _ _ apart same => apart (congrArg Prod.fst same)) store.distinct

/-- The rows that satisfy a clause are in the store, under the prefix of the table. -/
theorem mem_matching {order : Bytes → Bytes → Bytes → Ordering} {store : KvStore} {table : Bytes}
    {conditions : List Condition} {params : List Param} {entry : Entry} :
    entry ∈ matching order store table conditions params ↔ entry ∈ store.entries ∧
      (tablePrefix table).isPrefixOf entry.1 = true ∧
      conditions.all (Condition.holds order params (decodeRow entry.2)) = true := by
  unfold matching KvStore.iterate
  rw [List.mem_filter, List.mem_filter, and_assoc]

/-- The entry under a key of the table satisfies the clause exactly when its row does. -/
theorem key_mem_matching_iff {order : Bytes → Bytes → Bytes → Ordering} {store : KvStore}
    {table : Bytes} {conditions : List Condition} {params : List Param} {pk data : Bytes}
    (short : table.length < 64) (found : store.get (kvKey table pk) = some data) :
    (kvKey table pk, data) ∈ matching order store table conditions params ↔
      conditions.all (Condition.holds order params (decodeRow data)) = true := by
  rw [mem_matching]
  have member := store.get_eq_some_iff.mp found
  have start := tablePrefix_kvKey pk short
  exact ⟨fun whole => whole.2.2, fun holds => ⟨member, start, holds⟩⟩

/-- An entry under a key is the one that is found there. -/
theorem KvStore.entry_eq {store : KvStore} {key data : Bytes} {entry : Entry}
    (found : store.get key = some data) (member : entry ∈ store.entries) (same : entry.1 = key) :
    entry = (key, data) := by
  obtain ⟨other, value⟩ := entry
  subst same
  have here := store.get_eq_some_iff.mpr member
  rw [found] at here
  rw [Option.some.inj here]

/-- A list with an element, in which nothing is twice, has length one exactly when it has no
other. -/
theorem length_eq_one_iff {entries : List Entry} {entry : Entry} (distinct : entries.Nodup)
    (member : entry ∈ entries) : 1 = entries.length ↔ ∀ other ∈ entries, other = entry := by
  constructor
  · intro single other inside
    obtain ⟨only, rfl⟩ := List.length_eq_one_iff.mp single.symm
    rw [List.mem_singleton.mp inside, List.mem_singleton.mp member]
  · intro same
    obtain ⟨front, rest, shape⟩ := List.append_of_mem member
    rw [shape, List.nodup_append, List.nodup_cons] at distinct
    have frontNil : front = [] := List.eq_nil_iff_forall_not_mem.mpr fun other inside =>
      distinct.2.2 other inside entry (by simp) (same other (by simp [shape, inside]))
    have restNil : rest = [] := List.eq_nil_iff_forall_not_mem.mpr fun other inside =>
      distinct.2.1.1 (same other (by simp [shape, inside]) ▸ inside)
    rw [shape, frontNil, restNil]
    rfl

/-- A query is answered rightly exactly when its clause fits what it reaches. -/
theorem selectsExactly_iff (order : Bytes → Bytes → Bytes → Ordering) (store : KvStore)
    {select : Select} (issued : select ∈ selects) (pk : Bytes) (values : List Bytes) :
    SelectsExactly order store select (texts (pk :: values)) ↔
      SelectFits order store select (texts (pk :: values)) pk := by
  obtain ⟨named, asks⟩ := select_plan select issued
  obtain ⟨short, limits, scans⟩ := select_table_short select issued
  have succeeds : kvQueryP store select.sql (texts (pk :: values)) =
      (.ok, (kvReached store select.sql select.table (texts (pk :: values))).map
        fun entry => decodeRow entry.2) := by
    unfold kvQueryP
    rw [named]
  have distinct : (matching order store select.table select.conditions
      (texts (pk :: values))).Nodup := (store.nodup.filter _).filter _
  unfold SelectFits
  by_cases point : select.conditions.any Condition.asksFirst = true
  · -- The row under the key, if there is one, is all that is reached.
    have reached : kvReached store select.sql select.table (texts (pk :: values)) =
        ((store.get (kvKey select.table pk)).map fun data => (kvKey select.table pk, data)).toList := by
      show (if has "WHERE" select.sql && has "= ?1" select.sql then _ else _) = _
      rw [asks, if_pos point]
    rw [if_pos point]
    cases found : store.get (kvKey select.table pk) with
    | none =>
      rw [found] at reached
      have nobody : OnlyKeySatisfies order store select.table select.conditions
          (texts (pk :: values)) pk ↔
          matching order store select.table select.conditions (texts (pk :: values)) = [] := by
        constructor
        · intro only
          refine List.eq_nil_iff_forall_not_mem.mpr fun entry member => ?_
          have here := store.get_eq_some_iff.mpr (mem_matching.mp member).1
          rw [only entry member, found] at here
          cases here
        · intro empty entry member
          rw [empty] at member
          cases member
      have fits : KeySatisfies order store select.table select.conditions
          (texts (pk :: values)) pk := by
        intro data other
        rw [found] at other
        cases other
      constructor
      · intro exact'
        refine ⟨fits, ?_⟩
        have complete := exact'.complete
        rw [reached] at complete
        rcases limits with limit | limit
        · rw [limit] at complete ⊢
          exact nobody.mpr (List.eq_nil_of_length_eq_zero complete.symm)
        · rw [limit] at complete ⊢
          right
          refine List.eq_nil_of_length_eq_zero ?_
          have := complete
          simp only [Option.map_none, Option.toList_none, List.length_nil] at this
          omega
      · rintro ⟨-, rest⟩
        have empty : matching order store select.table select.conditions
            (texts (pk :: values)) = [] := by
          rcases limits with limit | limit
          · rw [limit] at rest
            exact nobody.mp rest
          · rw [limit] at rest
            rcases rest with present | empty
            · cases present
            · exact empty
        refine ⟨succeeds, by simp [reached], by simp [reached], ?_⟩
        rw [reached, empty]
        rcases limits with limit | limit <;> rw [limit] <;> rfl
    | some data =>
      rw [found] at reached
      have reached : kvReached store select.sql select.table (texts (pk :: values)) =
        [(kvKey select.table pk, data)] := reached
      have key : (kvKey select.table pk, data) ∈ matching order store select.table select.conditions
          (texts (pk :: values)) ↔ select.conditions.all
            (Condition.holds order (texts (pk :: values)) (decodeRow data)) = true :=
        key_mem_matching_iff short found
      constructor
      · intro exact'
        have member := exact'.sound (kvKey select.table pk, data) (by simp [reached])
        have fits : KeySatisfies order store select.table select.conditions
            (texts (pk :: values)) pk := by
          intro other same
          rw [found] at same
          cases same
          exact key.mp member
        refine ⟨fits, ?_⟩
        have complete := exact'.complete
        rw [reached] at complete
        rcases limits with limit | limit
        · rw [limit] at complete ⊢
          intro entry inside
          rw [(length_eq_one_iff distinct member).mp complete entry inside]
        · rw [limit]
          exact .inl rfl
      · rintro ⟨fits, rest⟩
        have member := key.mpr (fits data found)
        refine ⟨succeeds, by simp [reached], by simpa [reached] using member, ?_⟩
        rw [reached]
        rcases limits with limit | limit
        · rw [limit] at rest ⊢
          refine (length_eq_one_iff distinct member).mpr fun entry inside => ?_
          exact KvStore.entry_eq found (mem_matching.mp inside).1 (rest entry inside)
        · rw [limit]
          have positive := List.length_pos_of_mem member
          show 1 = min 1 _
          omega
  · -- The whole table is reached.
    have reached : kvReached store select.sql select.table (texts (pk :: values)) =
        store.iterate (tablePrefix select.table) := by
      show (if has "WHERE" select.sql && has "= ?1" select.sql then _ else _) = _
      rw [asks, if_neg point]
    have limit : select.limit = none := scans.resolve_left point
    rw [if_neg point]
    constructor
    · intro exact' entry member
      have inside := exact'.sound entry (by rw [reached]; exact member)
      exact (mem_matching.mp inside).2.2
    · intro all
      have whole : matching order store select.table select.conditions (texts (pk :: values)) =
          store.iterate (tablePrefix select.table) := by
        unfold matching
        rw [List.filter_eq_self]
        exact all
      refine ⟨succeeds, ?_, ?_, ?_⟩
      · rw [reached]
        exact store.nodup.filter _
      · rw [reached, whole]
        exact fun _ member => member
      · rw [reached, whole, limit]

/-! ## Deletions -/

/-- What a `DELETE` does: it removes the entry under the key of its first parameter. -/
theorem kvExecP_delete {store : KvStore} {delete : Delete} (issued : delete ∈ deletes) (pk : Bytes)
    (values : List Bytes) : kvExecP store delete.sql (texts (pk :: values)) =
      (.ok, store.delete (kvKey delete.table pk)) := by
  obtain ⟨named, schema, insert, remove⟩ := delete_plan delete issued
  unfold kvExecP
  rw [schema, if_neg (by decide), named]
  simp only [insert, remove, Bool.false_eq_true, if_false, if_true]
  rfl

/-- A `DELETE` removes exactly what its clause says exactly when the row under the key satisfies the
clause and no other does. -/
theorem deletesExactly_iff (order : Bytes → Bytes → Bytes → Ordering) (store : KvStore)
    {delete : Delete} (issued : delete ∈ deletes) (pk : Bytes) (values : List Bytes) :
    DeletesExactly order store delete (texts (pk :: values)) ↔
      KeySatisfies order store delete.table delete.conditions (texts (pk :: values)) pk ∧
      OnlyKeySatisfies order store delete.table delete.conditions (texts (pk :: values)) pk := by
  have short := delete_table_short delete issued
  have ran : kvExecP store delete.sql (texts (pk :: values)) =
      (.ok, store.delete (kvKey delete.table pk)) := kvExecP_delete issued pk values
  have remains : ∀ entry, entry ∈ (kvExecP store delete.sql (texts (pk :: values))).2.entries ↔
      entry ∈ store.entries ∧ entry.1 ≠ kvKey delete.table pk := by
    intro entry
    rw [ran]
    simp [KvStore.delete]
  constructor
  · intro exact'
    constructor
    · intro data found
      refine (key_mem_matching_iff short found).mp ?_
      by_contra unmatched
      have stays := (exact'.left (kvKey delete.table pk, data)).mpr
        ⟨store.get_eq_some_iff.mp found, unmatched⟩
      exact ((remains _).mp stays).2 rfl
    · intro entry member
      by_contra apart
      have stays := (remains entry).mpr ⟨(mem_matching.mp member).1, apart⟩
      exact ((exact'.left entry).mp stays).2 member
  · rintro ⟨fits, only⟩
    refine ⟨by rw [ran], fun entry => ?_⟩
    rw [remains]
    refine and_congr_right fun member => not_congr ⟨fun same => ?_, fun inside => only entry inside⟩
    have found : store.get (kvKey delete.table pk) = some entry.2 := by
      rw [← same]
      exact store.get_eq_some_iff.mpr member
    have matched := (key_mem_matching_iff short found).mpr (fits entry.2 found)
    rw [← same] at matched
    exact matched

/-! ## The clean-up of stale artifacts -/

/-- `stale_collect_cb` over the rows: the first value of each, up to a hundred. -/
def staleCollect (rows : List Row) : List Bytes :=
  (rows.filterMap fun row => row.head?.map Prod.snd).take 100

/-- `reconcile_stale_pending` -/
def reconcileStalePending (store : KvStore) (cutoff : Bytes) : KvStore :=
  (staleCollect (kvQueryP store selectStale.sql [.text cutoff]).2).foldl (fun store id =>
    (kvExecP (kvExecP store deleteSemver.sql [.text id]).2 deleteStale.sql [.text id]).2) store

/-- A row of `artifacts` says that it is published. -/
def Published (store : KvStore) (entry : Entry) : Prop :=
  entry ∈ store.iterate (tablePrefix (bytes "artifacts")) ∧
    (decodeRow entry.2).lookup (bytes "status") = some (bytes "published")

/-- No published artifact is removed. -/
def KeepsPublished (store : KvStore) (cutoff : Bytes) : Prop :=
  ∀ entry, Published store entry → entry ∈ (reconcileStalePending store cutoff).entries

/-- The first values of the first hundred rows of `artifacts`. -/
def firstValues (store : KvStore) : List Bytes :=
  staleCollect ((store.iterate (tablePrefix (bytes "artifacts"))).map fun entry =>
    decodeRow entry.2)

/-- One round of the clean-up removes the entries under two keys. -/
theorem reconcile_round (store : KvStore) (id : Bytes) (entry : Entry) :
    entry ∈ (kvExecP (kvExecP store deleteSemver.sql [.text id]).2 deleteStale.sql
        [.text id]).2.entries ↔
      entry ∈ store.entries ∧ entry.1 ≠ kvKey (bytes "artifact_semver") id ∧
        entry.1 ≠ kvKey (bytes "artifacts") id := by
  have first : kvExecP store deleteSemver.sql [.text id] =
      (.ok, store.delete (kvKey deleteSemver.table id)) :=
    kvExecP_delete (by simp [deletes]) id []
  have second : kvExecP (store.delete (kvKey deleteSemver.table id)) deleteStale.sql [.text id] =
      (.ok, (store.delete (kvKey deleteSemver.table id)).delete (kvKey deleteStale.table id)) :=
    kvExecP_delete (by simp [deletes]) id []
  rw [first]
  show entry ∈ (kvExecP (store.delete (kvKey deleteSemver.table id)) deleteStale.sql
    [.text id]).2.entries ↔ _
  rw [second]
  simp only [KvStore.delete, List.mem_filter, decide_eq_true_eq, and_assoc]
  rfl

/-- The clean-up removes the entries under the keys of what it collected. -/
theorem mem_reconcile (ids : List Bytes) (store : KvStore) (entry : Entry) :
    entry ∈ (ids.foldl (fun store id =>
        (kvExecP (kvExecP store deleteSemver.sql [.text id]).2 deleteStale.sql
          [.text id]).2) store).entries ↔
      entry ∈ store.entries ∧ ∀ id ∈ ids, entry.1 ≠ kvKey (bytes "artifact_semver") id ∧
        entry.1 ≠ kvKey (bytes "artifacts") id := by
  induction ids generalizing store with
  | nil => simp
  | cons id ids ih =>
    rw [List.foldl_cons, ih, reconcile_round, List.forall_mem_cons]
    tauto

/-- A key of `artifacts` is none of `artifact_semver`. -/
theorem kvKey_apart {key : Bytes} (id : Bytes)
    (start : (tablePrefix (bytes "artifacts")).isPrefixOf key = true) :
    key ≠ kvKey (bytes "artifact_semver") id := by
  rintro rfl
  have other : (tablePrefix (bytes "artifact_semver")).isPrefixOf
      (kvKey (bytes "artifact_semver") id) = true := tablePrefix_kvKey id (by decide +kernel)
  rw [List.isPrefixOf_iff_prefix] at start other
  have short : (tablePrefix (bytes "artifacts")).length ≤
      (tablePrefix (bytes "artifact_semver")).length := by
    simp only [tablePrefix, bytes_ofList]
    decide
  have nested := List.prefix_of_prefix_length_le start other short
  simp only [tablePrefix, bytes_ofList] at nested
  revert nested
  decide

/-- The clean-up keeps the published artifacts exactly when none of them lies under a key that a
first value of the first hundred rows gives. -/
theorem keepsPublished_iff (store : KvStore) (cutoff : Bytes) :
    KeepsPublished store cutoff ↔ ∀ entry, Published store entry → ∀ id ∈ firstValues store,
      entry.1 ≠ kvKey (bytes "artifacts") id := by
  have collected : staleCollect (kvQueryP store selectStale.sql [.text cutoff]).2 =
      firstValues store := by
    obtain ⟨named, asks⟩ := select_plan selectStale (by simp [selects])
    have scans : selectStale.conditions.any Condition.asksFirst = false := by decide
    unfold kvQueryP firstValues
    rw [named]
    have reached : kvReached store selectStale.sql selectStale.table [.text cutoff] =
        store.iterate (tablePrefix selectStale.table) := by
      simp only [kvReached, asks, scans, Bool.false_eq_true, if_false]
    simp only [reached]
    rfl
  unfold KeepsPublished reconcileStalePending
  rw [collected]
  refine forall_congr' fun entry => imp_congr_right fun published => ?_
  rw [mem_reconcile]
  have member := List.mem_filter.mp published.1
  constructor
  · intro kept id inside
    exact (kept.2 id inside).2
  · intro apart
    exact ⟨member.1, fun id inside => ⟨kvKey_apart id member.2, apart id inside⟩⟩

/-! ## Selection as a whole -/

/-- Queries and deletions reach the rows of their clause exactly when the clause fits the key that
they use, and the clean-up keeps the published artifacts exactly when it collects none of their
keys. -/
theorem selection_iff (order : Bytes → Bytes → Bytes → Ordering) (store : KvStore) :
    (∀ select ∈ selects, ∀ (pk : Bytes) (values : List Bytes),
        SelectsExactly order store select (texts (pk :: values)) ↔
          SelectFits order store select (texts (pk :: values)) pk) ∧
    (∀ delete ∈ deletes, ∀ (pk : Bytes) (values : List Bytes),
        DeletesExactly order store delete (texts (pk :: values)) ↔
          KeySatisfies order store delete.table delete.conditions (texts (pk :: values)) pk ∧
          OnlyKeySatisfies order store delete.table delete.conditions (texts (pk :: values)) pk) ∧
    ∀ cutoff : Bytes, KeepsPublished store cutoff ↔
      ∀ entry, Published store entry → ∀ id ∈ firstValues store,
        entry.1 ≠ kvKey (bytes "artifacts") id :=
  ⟨fun _ issued pk values => selectsExactly_iff order store issued pk values,
    fun _ issued pk values => deletesExactly_iff order store issued pk values,
    keepsPublished_iff store⟩

/-- Texts in the order of their bytes. -/
def bytewise (_ left right : Bytes) : Ordering := compareOfLessAndEq left right

/-- A store with one artifact, which is published. -/
def publishedStore : KvStore where
  entries := [(bytes "artifacts:org.acme:core:1.0.0:any",
    bytes "coord_id=org.acme:core:1.0.0:any\tgroup_id=org.acme\tstatus=published")]
  distinct := by decide +kernel

/-- The published artifact is handed over as a stale one, and removed. -/
theorem publishedArtifact_removed :
    ¬ SelectsExactly bytewise publishedStore selectStale (texts [bytes "2026-01-01T00:00:00Z"]) ∧
    ¬ KeepsPublished publishedStore (bytes "2026-01-01T00:00:00Z") := by
  constructor
  · intro exact'
    have member := exact'.sound (bytes "artifacts:org.acme:core:1.0.0:any",
      bytes "coord_id=org.acme:core:1.0.0:any\tgroup_id=org.acme\tstatus=published")
      (by simp only [publishedStore, selectStale, bytes_ofList]; decide +kernel)
    revert member
    simp only [publishedStore, selectStale, bytes_ofList]
    decide +kernel
  · intro kept
    have member := kept (bytes "artifacts:org.acme:core:1.0.0:any",
      bytes "coord_id=org.acme:core:1.0.0:any\tgroup_id=org.acme\tstatus=published")
      (by simp only [publishedStore, bytes_ofList]; exact ⟨by decide +kernel, by decide +kernel⟩)
    revert member
    simp only [publishedStore, bytes_ofList]
    decide +kernel

/-- A query and a deletion on this store. -/
theorem selection_publishedStore :
    (SelectsExactly bytewise publishedStore selectStale (texts [bytes "2026"]) ↔
      SelectFits bytewise publishedStore selectStale (texts [bytes "2026"]) (bytes "2026")) ∧
    (DeletesExactly bytewise publishedStore deletePeer (texts [bytes "main"]) ↔
      KeySatisfies bytewise publishedStore deletePeer.table deletePeer.conditions
        (texts [bytes "main"]) (bytes "main") ∧
      OnlyKeySatisfies bytewise publishedStore deletePeer.table deletePeer.conditions
        (texts [bytes "main"]) (bytes "main")) :=
  ⟨(selection_iff bytewise publishedStore).1 selectStale (by simp [selects]) (bytes "2026") [],
    (selection_iff bytewise publishedStore).2.1 deletePeer (by simp [deletes]) (bytes "main") []⟩

end Cookbook.Kv
