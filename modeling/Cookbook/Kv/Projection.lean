import Cookbook.Grid.PeerKey
import Cookbook.Kv.Tables
import Cookbook.Kv.Update

/-!
# The columns that a callback gets

A callback reads the values of a row by their position in the select list. The backend hands over
the fields of the stored row, in the order in which they were written: those that the `INSERT` of the
row names, which no `UPDATE` changes.
-/
namespace Cookbook.Kv

open Library.Text

/-! ## Queries -/

/-- A `SELECT` of one table as the server sends it. -/
inductive Query
  /-- With parameters, through `query_p`. -/
  | asked (select : Select)
  /-- Without, through `query`. -/
  | listed (listing : Listing)
  /-- `cookbook_grid_load_peer_key`, which has the name of the peer in its text. -/
  | peerKey (peerId : Bytes)

namespace Query

/-- The text. -/
def sql : Query → Bytes
  | asked select => select.sql
  | listed listing => listing.sql
  | peerKey peerId => Grid.keySql peerId

/-- The table. -/
def table : Query → Bytes
  | asked select => select.table
  | listed listing => listing.table
  | peerKey _ => bytes "peers"

/-- The server sends it. -/
def Issued : Query → Prop
  | asked select => select ∈ selects
  | listed listing => listing ∈ listings
  | peerKey _ => True

/-- The rows that the callback gets. -/
def rows (store : KvStore) (params : List Param) : Query → List Row
  | asked select => (kvQueryP store select.sql params).2
  | listed listing => (kvQuery store listing.sql).2
  | peerKey peerId => (kvQuery store (Grid.keySql peerId)).2

end Query

/-! ## What is asked for and what is handed over -/

/-- What a callback gets for a stored row. -/
def handedOver (data : Bytes) : List (Bytes × Option Bytes) :=
  (decodeRow data).map fun field => (field.1, some field.2)

/-- The selected columns of a row, in the order of the select list. -/
def selected (names : List Bytes) (row : Row) : List (Bytes × Option Bytes) :=
  names.map fun name => (name, row.lookup name)

/-- The column of a number of rows. -/
def countColumn : Bytes := bytes "COUNT(*)"

/-- The columns of a select list. -/
def Selection.names : Selection → List Bytes
  | .columns names => names
  | .count => [countColumn]

/-- The columns that a query asks for. -/
def Query.names : Query → List Bytes
  | asked select => select.selection.names
  | listed listing => listing.columns
  | peerKey _ => [bytes "public_key"]

/-- What the select list of a query says for a stored row: its selected columns, or the number of the
rows that satisfy the clause. -/
def Query.answer (order : Bytes → Bytes → Bytes → Ordering) (store : KvStore) (params : List Param)
    (data : Bytes) : Query → List (Bytes × Option Bytes)
  | asked select =>
    match select.selection with
    | .columns names => selected names (decodeRow data)
    | .count => [(countColumn,
        some (decimalNat (matching order store select.table select.conditions params).length))]
  | listed listing => selected listing.columns (decodeRow data)
  | peerKey _ => selected [bytes "public_key"] (decodeRow data)

/-- A callback gets for a stored row what the select list says. -/
def Projects (order : Bytes → Bytes → Bytes → Ordering) (store : KvStore) (query : Query)
    (params : List Param) (data : Bytes) : Prop :=
  handedOver data = query.answer order store params data

/-- No select list names a column twice. -/
theorem Query.names_nodup {query : Query} (issued : query.Issued) : query.names.Nodup := by
  have asked : ∀ select ∈ selects, select.selection.names.Nodup := by
    simp only [selects, List.forall_mem_cons, Selection.names, countColumn,
      selectStale, selectExpiredKeys, selectExpired, selectYanked, selectCredential,
      selectMirrorVersion, selectMirror, selectGroup, countArtifacts, selectRevocations,
      selectPolicy, bytes_ofList]
    decide +kernel
  have listed : ∀ listing ∈ listings, listing.columns.Nodup := by
    simp only [listings, List.forall_mem_cons, listPublished, listGroups, listCredentials,
      listPolicies, listPeers, bytes_ofList]
    decide +kernel
  cases query with
  | asked select => exact asked select issued
  | listed listing => exact listed listing issued
  | peerKey peerId => exact List.nodup_singleton _

/-- Where no column is there twice, the fields of a row are its columns with what is found for
them. -/
theorem selected_self {row : Row} (distinct : (row.map Prod.fst).Nodup) :
    selected (row.map Prod.fst) row = row.map fun field => (field.1, some field.2) := by
  unfold selected
  rw [List.map_map]
  refine List.map_congr_left fun field member => ?_
  show (field.1, row.lookup field.1) = (field.1, some field.2)
  obtain ⟨front, rest, shape⟩ := List.append_of_mem member
  rw [shape, List.map_append, List.nodup_append] at distinct
  have absent : front.lookup field.1 = none := by
    rw [List.lookup_eq_none_iff]
    intro other inside
    have apart := distinct.2.2 other.1 (List.mem_map_of_mem inside) field.1 (by simp)
    simp [apart.symm]
  rw [shape, List.lookup_append, absent, Option.none_or]
  exact congrArg _ List.lookup_cons_self

/-- A callback gets the selected columns of a row exactly when its fields are those of the select list
in their order. -/
theorem handedOver_selected_iff {names : List Bytes} (distinct : names.Nodup) (data : Bytes) :
    handedOver data = selected names (decodeRow data) ↔ (decodeRow data).map Prod.fst = names := by
  unfold handedOver
  constructor
  · intro same
    have columns := congrArg (List.map Prod.fst) same
    simpa [selected, Function.comp_def] using columns
  · rintro rfl
    exact (selected_self distinct).symm

/-! ## The columns of a stored row -/

/-- The columns that a value brings along: those of the pieces behind its first tab. -/
def strayColumns (value : Bytes) : List Bytes :=
  match strchr tab value with
  | none => []
  | some found => (readFields (found.drop 1)).map Prod.fst

/-- The columns that a stored row shows: its own, each with those that its value brings along. -/
def shownColumns (row : Row) : List Bytes :=
  row.flatMap fun field => field.1 :: strayColumns field.2

/-- A value without a tab brings none. -/
theorem strayColumns_free {value : Bytes} (free : tab ∉ value) : strayColumns value = [] := by
  rw [strayColumns, strchr_none free]

/-- Without tabs a row shows its own columns. -/
theorem shownColumns_free {row : Row} (free : ∀ field ∈ row, tab ∉ field.2) :
    shownColumns row = row.map Prod.fst := by
  induction row with
  | nil => rfl
  | cons field row ih =>
    obtain ⟨here, later⟩ := List.forall_mem_cons.mp free
    rw [shownColumns, List.flatMap_cons, strayColumns_free here, List.map_cons, ← ih later]
    rfl

/-- The text of a field shows its column and those that its value brings along. -/
theorem readFields_shown {column : Bytes} (name : IsColumn column) (value : Bytes) :
    (readFields (column ++ equalSign :: value)).map Prod.fst = column :: strayColumns value := by
  by_cases free : tab ∈ value
  · obtain ⟨front, rest, rfl, absent⟩ := List.eq_append_cons_of_mem free
    have shape : column ++ equalSign :: (front ++ tab :: rest) =
        (column ++ equalSign :: front) ++ tab :: rest := by simp
    rw [strayColumns, strchr_stop front absent, shape, readFields_append,
      readFields_column name absent]
    rfl
  · rw [strayColumns_free free, readFields_column name free]
    rfl

/-- A row whose columns are columns and whose values are C strings. -/
def Terminated (row : Row) : Prop := ∀ field ∈ row, IsColumn field.1 ∧ (0 : UInt8) ∉ field.2

/-- The text of such a row is a C string. -/
theorem Terminated.text {row : Row} (terminated : Terminated row) :
    (0 : UInt8) ∉ encodeRow row := by
  intro member
  have inside := (List.dropLast_sublist _).subset member
  obtain ⟨field, there, place⟩ := List.mem_flatMap.mp inside
  obtain ⟨name, value⟩ := terminated field there
  have absent : (0 : UInt8) ∉ field.1 ++ equalSign :: field.2 ++ [tab] := by
    simp [name.1.2, value]
  exact absent place

/-- What a callback gets of a written row are the columns that it shows. -/
theorem decodeRow_shown {row : Row} (terminated : Terminated row) :
    (decodeRow (encodeRow row)).map Prod.fst = shownColumns row := by
  rw [decodeRow, cString_terminated terminated.text]
  induction row with
  | nil => rfl
  | cons field row ih =>
    obtain ⟨here, later⟩ := List.forall_mem_cons.mp terminated
    have first := readFields_shown here.1 field.2
    cases row with
    | nil =>
      rw [encodeRow_singleton, first]
      simp [shownColumns]
    | cons next row =>
      rw [encodeRow_cons, readFields_append, List.map_append, first, ih later]
      simp [shownColumns]

/-! ## An edit keeps the columns -/

/-- What an edit keeps behind a place is a suffix of the field, whatever fields follow. -/
theorem behind_tab (found : Bytes) :
    ∃ behind, behind <:+ found ∧ ∀ rest : Bytes, rest = [] ∨ rest.head? = some tab →
      (strchr tab (found ++ rest)).getD [] = behind ++ rest := by
  by_cases other : tab ∈ found
  · obtain ⟨before, after, rfl, absent⟩ := List.eq_append_cons_of_mem other
    refine ⟨tab :: after, List.suffix_append _ _, fun rest _ => ?_⟩
    rw [List.append_assoc, List.cons_append, strchr_stop before absent, Option.getD_some]
  · refine ⟨[], List.nil_suffix, fun rest bound => ?_⟩
    rcases bound with rfl | next
    · rw [List.append_nil, strchr_none other]
      rfl
    · obtain ⟨after, rfl⟩ := List.head?_eq_some_iff.mp next
      rw [strchr_stop found other]
      rfl

/-- Where `col=` stands in a field, the edit changes the value of the field only. -/
theorem editRow_here {column : Bytes} (value : Bytes) {field : Field} (name : equalSign ∉ field.1)
    (inside : column ++ [equalSign] <:+: field.1 ++ equalSign :: field.2) :
    ∃ edited : Bytes, (0 ∉ field.1 ++ equalSign :: field.2 → 0 ∉ value → 0 ∉ edited) ∧
      ∀ rest : Bytes, rest = [] ∨ rest.head? = some tab →
        editRow column value (field.1 ++ equalSign :: field.2 ++ rest) =
          field.1 ++ equalSign :: edited ++ rest := by
  obtain ⟨found, search⟩ := Option.ne_none_iff_exists'.mp
    (mt strstr_none_iff.mp (not_not.mpr inside))
  have suffix := (strstr_some search).1
  generalize text : field.1 ++ equalSign :: field.2 = whole at search suffix
  have split := strstr_split search
  -- The equal sign of the field does not stand behind that of the place.
  obtain ⟨kept, front⟩ : ∃ kept, whole.take (whole.length - found.length) ++
      (column ++ [equalSign]) = field.1 ++ equalSign :: kept := by
    have both := text.trans split
    rcases List.append_eq_append_iff.mp both with ⟨more, shorter, rest⟩ | ⟨more, longer, -⟩
    · cases more with
      | nil =>
        rw [List.append_nil] at shorter
        refine absurd ?_ name
        rw [← shorter]
        simp
      | cons c more =>
        obtain ⟨rfl, -⟩ := List.cons.inj rest
        exact ⟨more, shorter⟩
    · refine absurd ?_ name
      rw [longer]
      simp
  obtain ⟨behind, ends, goes⟩ := behind_tab found
  refine ⟨kept ++ value ++ behind, ?_, fun rest bound => ?_⟩
  · intro fieldFree valueFree
    have keptFree : (0 : UInt8) ∉ kept := fun member => by
      refine fieldFree ?_
      rw [split, front]
      simp [member]
    have behindFree : (0 : UInt8) ∉ behind := fun member =>
      fieldFree (suffix.subset (ends.subset member))
    simp [keptFree, valueFree, behindFree]
  · have size := suffix.length_le
    have start : (whole ++ rest).take ((whole ++ rest).length - (found ++ rest).length) =
        whole.take (whole.length - found.length) := by
      rw [List.length_append, List.length_append, Nat.add_sub_add_right,
        List.take_append_of_le_length (by omega)]
    have whole' : whole.take (whole.length - found.length) ++ (column ++ equalSign :: value) =
        field.1 ++ equalSign :: (kept ++ value) := by
      rw [List.append_cons column, ← List.append_assoc, front]
      simp
    rw [editRow, strstr_append search rest]
    simp only
    rw [start, goes rest bound, whole']
    simp

/-- An edit of a written row leaves a written row of the same columns. -/
theorem editRow_columns {column value : Bytes} (name : tab ∉ column) (free : (0 : UInt8) ∉ value)
    {row : Row} (terminated : Terminated row) :
    ∃ edited : Row, edited.map Prod.fst = row.map Prod.fst ∧ Terminated edited ∧
      editRow column value (encodeRow row) = encodeRow edited := by
  induction row with
  | nil =>
    have nowhere : strstr (column ++ [equalSign]) [] = none := by simp [strstr]
    exact ⟨[], rfl, terminated, by rw [show encodeRow [] = [] from rfl, editRow, nowhere]⟩
  | cons field row ih =>
    obtain ⟨here, later⟩ := List.forall_mem_cons.mp terminated
    by_cases inside : column ++ [equalSign] <:+: field.1 ++ equalSign :: field.2
    · obtain ⟨edited, clean, same⟩ := editRow_here value here.1.2 inside
      refine ⟨(field.1, edited) :: row, rfl,
        List.forall_mem_cons.mpr ⟨⟨here.1, clean (by simp [here.1.1.2, here.2]) free⟩, later⟩, ?_⟩
      cases row with
      | nil => simpa [encodeRow_singleton] using same [] (.inl rfl)
      | cons next row =>
        rw [encodeRow_cons, encodeRow_cons]
        exact same _ (.inr rfl)
    · cases row with
      | nil =>
        refine ⟨[field], rfl, terminated, ?_⟩
        rw [encodeRow_singleton, editRow, strstr_none_iff.mpr inside]
      | cons next row =>
        obtain ⟨edited, columns, ended, same⟩ := ih later
        obtain ⟨first, others, shape⟩ : ∃ first others, edited = first :: others := by
          cases edited with
          | nil => cases columns
          | cons first others => exact ⟨first, others, rfl⟩
        subst shape
        refine ⟨field :: first :: others, by rw [List.map_cons, columns]; rfl,
          List.forall_mem_cons.mpr ⟨here, ended⟩, ?_⟩
        rw [encodeRow_cons, encodeRow_cons, editRow_passed value name inside, same]

/-! ## Rows as the server stores them -/

/-- The columns that an `INSERT` of the server writes: as many as it has parameters. -/
def Insert.stored (insert : Insert) : List Bytes := (insert.assignments.map Prod.fst).take insert.arity

/-- A row as an `INSERT` of the server has written it, and edits may have changed its values. -/
structure StoredBy (insert : Insert) (row : Row) (data : Bytes) : Prop where
  /-- The server sends the `INSERT`. -/
  issued : insert ∈ inserts
  /-- The columns are those that the `INSERT` writes, in their order. -/
  columns : row.map Prod.fst = insert.stored
  /-- The values are C strings. -/
  terminated : Terminated row
  /-- The row is written as a text. -/
  text : data = encodeRow row

/-- A statement as the server sends it. -/
def Sent (call : Call) : Prop :=
  (∃ insert ∈ inserts, call.1 = insert.sql ∧ call.2.length = insert.arity) ∨
    (∃ update ∈ updates, call.1 = update.sql) ∨ ∃ delete ∈ deletes, call.1 = delete.sql

/-- Every row of a store was written by an `INSERT` of the server. -/
def Written (store : KvStore) : Prop :=
  ∀ entry ∈ store.entries, ∃ insert row, StoredBy insert row entry.2

/-- A written row that is put into a store of written rows is one of them. -/
theorem Written.put {store : KvStore} (written : Written store) {insert : Insert} {row : Row}
    {data : Bytes} (stored : StoredBy insert row data) (key : Bytes) :
    Written (store.put key data) := by
  intro entry member
  unfold KvStore.put at member
  split at member
  · obtain ⟨old, inside, rfl⟩ := List.mem_map.mp member
    split
    · exact ⟨insert, row, stored⟩
    · exact written old inside
  · rcases List.mem_cons.mp member with rfl | inside
    · exact ⟨insert, row, stored⟩
    · exact written entry inside

/-- The first components of pairs are as many as there are second ones. -/
theorem map_fst_zip_take (names values : List Bytes) :
    (names.zip values).map Prod.fst = names.take values.length := by
  induction names generalizing values with
  | nil => simp
  | cons name names ih =>
    cases values with
    | nil => rfl
    | cons value values =>
      rw [List.zip_cons_cons, List.map_cons, ih, List.length_cons, List.take_succ_cons]

/-- The row that an `INSERT` writes. -/
theorem Insert.row_stored {insert : Insert} (issued : insert ∈ inserts) {params : List Param}
    (arity : params.length = insert.arity) :
    StoredBy insert (insert.row params) (encodeRow (insert.row params)) where
  issued := issued
  columns := by rw [Insert.row, Insert.stored, map_fst_zip_take, List.length_map, arity]
  terminated field member := by
    obtain ⟨name, value⟩ := List.of_mem_zip member
    obtain ⟨param, -, same⟩ := List.mem_map.mp value
    exact ⟨(insert_columns insert issued).1 field.1 name, same ▸ param.stored_free⟩
  text := rfl

/-- Of a written row an edit leaves a written row. -/
theorem StoredBy.edit {insert : Insert} {row : Row} {data : Bytes} (stored : StoredBy insert row data)
    {column value : Bytes} (name : tab ∉ column) (free : (0 : UInt8) ∉ value) :
    ∃ edited, StoredBy insert edited (editRow column value (cString data)) := by
  obtain ⟨edited, columns, terminated, text⟩ := editRow_columns name free stored.terminated
  rw [stored.text, cString_terminated stored.terminated.text]
  exact ⟨edited, stored.issued, columns.trans stored.columns, terminated, text⟩

/-- A statement of the server keeps the rows written. -/
theorem Written.step {store : KvStore} (written : Written store) {call : Call} (sent : Sent call) :
    Written (kvExecP store call.1 call.2).2 := by
  obtain ⟨sql, params⟩ := call
  rcases sent with ⟨insert, issued, rfl, arity⟩ | ⟨update, issued, rfl⟩ | ⟨delete, issued, rfl⟩
  · obtain ⟨named, schema, isInsert, -, -, columns⟩ := insert_plan insert issued
    unfold kvExecP
    rw [schema, if_neg (by decide), named]
    simp only [isInsert, if_true, kvInsert, columns]
    split
    · split_ifs
      · exact written
      · exact written
      · exact written.put (Insert.row_stored issued arity) _
    · exact written
  · rw [kvExecP_update issued]
    split_ifs
    · exact written
    · split
      · split
        · exact written
        · next data found =>
          obtain ⟨insert, row, stored⟩ := written _ (store.get_eq_some_iff.mp found)
          have free : (0 : UInt8) ∉ ((params[0]?).map Param.stored).getD [] := by
            cases params[0]? with
            | none => simp
            | some param => exact param.stored_free
          obtain ⟨edited, kept⟩ := stored.edit (update_columns update issued).1.1.1 free
          exact written.put kept _
      · exact written
  · obtain ⟨named, schema, isInsert, isDelete⟩ := delete_plan delete issued
    unfold kvExecP
    rw [schema, if_neg (by decide), named]
    simp only [isInsert, isDelete, Bool.false_eq_true, if_false, if_true, kvDelete]
    split
    · exact fun entry member => written entry (List.mem_filter.mp member).1
    · exact written

/-- Behind any statements of the server every row was written by one of its `INSERT`s. -/
theorem kvRun_written {calls : List Call} (sent : ∀ call ∈ calls, Sent call) :
    Written (kvRun emptyStore calls) := by
  induction calls using List.reverseRecOn with
  | nil => exact fun _ member => absurd member List.not_mem_nil
  | append_singleton calls call ih =>
    obtain ⟨earlier, last⟩ := List.forall_mem_append.mp sent
    rw [kvRun, List.foldl_append]
    exact (ih earlier).step (last call (List.mem_singleton_self call))

/-! ## Rows as the callbacks get them -/

/-- The text of a query names its table. -/
theorem Query.sqlTable_sql {query : Query} (issued : query.Issued) :
    sqlTable query.sql = some query.table := by
  cases query with
  | asked select => exact (select_plan select issued).1
  | listed listing => exact listing_plan listing issued
  | peerKey peerId =>
    obtain ⟨more, shape⟩ : ∃ more, Grid.keySql peerId = Grid.keySqlFront ++ more := by
      have size : Grid.keySqlFront.length ≤ 255 := by decide
      refine ⟨(apostrophe :: (peerId ++ apostrophe :: Grid.keySqlBack)).take
        (255 - Grid.keySqlFront.length), ?_⟩
      rw [Grid.keySql, snprintf, List.take_append, List.take_of_length_le size]
    have found : strstr (bytes " FROM ") Grid.keySqlFront =
        some (bytes " FROM peers WHERE peer_id = ") := by decide +kernel
    have first := strstr_append found more
    have named : sqlTable (Grid.keySql peerId) = some (((((bytes " FROM peers WHERE peer_id = " ++
        more).drop 6).dropWhile (· == space)).takeWhile
          fun c => c != space && c != 0x28 && c != 0x3B).take 63) := by
      rw [sqlTable, shape]
      simp only [behind, List.findSome?_cons, first, Option.map_some, Option.some_or]
    exact named

/-- The rows that `kv_query_p` reaches are in the store, under the prefix of the table. -/
theorem kvReached_table {store : KvStore} {sql table : Bytes} (short : table.length < 64)
    {params : List Param} {entry : Entry} (reached : entry ∈ kvReached store sql table params) :
    entry ∈ store.iterate (tablePrefix table) := by
  unfold kvReached at reached
  split at reached
  · next pk rest =>
    split at reached
    · obtain ⟨data, found, rfl⟩ := Option.map_eq_some_iff.mp (Option.mem_toList.mp reached)
      exact List.mem_filter.mpr ⟨store.get_eq_some_iff.mp found, tablePrefix_kvKey pk short⟩
    · exact reached
  · exact reached

/-- What a callback gets are rows of the table. -/
theorem Query.rows_stored {query : Query} (issued : query.Issued) {store : KvStore}
    {params : List Param} : ∀ row ∈ query.rows store params,
      ∃ entry ∈ store.iterate (tablePrefix query.table), row = decodeRow entry.2 := by
  have named := query.sqlTable_sql issued
  have listed {sql table : Bytes} (named : sqlTable sql = some table) :
      ∀ row ∈ (kvQuery store sql).2,
        ∃ entry ∈ store.iterate (tablePrefix table), row = decodeRow entry.2 := by
    intro row member
    rw [kvQuery, named] at member
    obtain ⟨entry, reached, rfl⟩ := List.mem_map.mp member
    exact ⟨entry, reached, rfl⟩
  cases query with
  | asked select =>
    have named : sqlTable select.sql = some select.table := named
    intro row member
    rw [rows, kvQueryP, named] at member
    obtain ⟨entry, reached, rfl⟩ := List.mem_map.mp member
    exact ⟨entry, kvReached_table (select_table_short select issued).1 reached, rfl⟩
  | listed listing => exact listed named
  | peerKey peerId => exact listed named

/-! ## Projection as a whole -/

/-- Every row has a column in front, which is no number of rows. -/
theorem stored_first : ∀ insert ∈ inserts,
    ∃ first ∈ insert.stored.head?, first ≠ countColumn := by
  simp only [inserts, List.forall_mem_cons, Insert.stored, countColumn,
    insertOwnGroup, insertArtifact, insertSemver, insertRevocation, insertKey, insertPeer,
    insertCached, insertDescribedGroup, insertGroup, insertCredential, insertPolicy, bytes_ofList]
  decide +kernel

/-- A callback gets of a written row what the select list says exactly when the row shows the columns
of the select list in their order. -/
theorem projects_iff (order : Bytes → Bytes → Bytes → Ordering) (store : KvStore) {query : Query}
    (issued : query.Issued) (params : List Param) {insert : Insert} {row : Row} {data : Bytes}
    (stored : StoredBy insert row data) :
    Projects order store query params data ↔ shownColumns row = query.names := by
  have distinct := query.names_nodup issued
  have shown : (decodeRow data).map Prod.fst = shownColumns row := by
    rw [stored.text, decodeRow_shown stored.terminated]
  have columns (names : List Bytes) (distinct : names.Nodup) :
      handedOver data = selected names (decodeRow data) ↔ shownColumns row = names := by
    rw [handedOver_selected_iff distinct, shown]
  cases query with
  | asked select =>
    simp only [Projects, Query.answer, Query.names] at distinct ⊢
    cases asked : select.selection with
    | columns names =>
      rw [asked] at distinct
      exact columns names distinct
    | count =>
      -- No row has a number of rows in front.
      obtain ⟨first, member, other⟩ := stored_first insert stored.issued
      obtain ⟨rest, shape⟩ : ∃ rest, shownColumns row = first :: rest := by
        rw [← stored.columns] at member
        cases row with
        | nil => cases member
        | cons field row =>
          cases member
          exact ⟨_, rfl⟩
      have front : (decodeRow data).map Prod.fst = first :: rest := shown.trans shape
      refine iff_of_false (fun same => other ?_) fun same => other ?_
      · have names := congrArg (List.map Prod.fst) same
        rw [handedOver, List.map_map] at names
        exact (List.cons.inj (front.symm.trans names)).1
      · exact (List.cons.inj (shape.symm.trans same)).1
  | listed listing => exact columns listing.columns distinct
  | peerKey peerId => exact columns [bytes "public_key"] distinct

/-- The query asks for the columns of the groups: `GET /admin/groups`, with or without a name. -/
def Query.AsksForGroups : Query → Prop
  | asked select => select.sql = selectGroup.sql
  | listed listing => listing.sql = listGroups.sql
  | peerKey _ => False

/-- Only the rows of groups with a description have the columns that a query asks for. -/
theorem stored_names_iff {insert : Insert} (written : insert ∈ inserts) {query : Query}
    (issued : query.Issued) : insert.stored = query.names ↔
      insert.sql = insertDescribedGroup.sql ∧ query.AsksForGroups := by
  have asked : ∀ insert ∈ inserts, ∀ select ∈ selects, insert.stored = select.selection.names ↔
      insert.sql = insertDescribedGroup.sql ∧ select.sql = selectGroup.sql := by
    decide +kernel
  have listed : ∀ insert ∈ inserts, ∀ listing ∈ listings, insert.stored = listing.columns ↔
      insert.sql = insertDescribedGroup.sql ∧ listing.sql = listGroups.sql := by
    decide +kernel
  have keyed : ∀ insert ∈ inserts, insert.stored ≠ [bytes "public_key"] := by
    decide +kernel
  cases query with
  | asked select => exact asked insert written select issued
  | listed listing => exact listed insert written listing issued
  | peerKey peerId => exact iff_of_false (keyed insert written) fun both => both.2

/-- The creation of a credential. -/
def credentialCall : Call := (insertCredential.sql,
  [.text (bytes "alice"), .text (bytes "$argon2id$v=19"), .text (bytes "*"), .text (bytes "2026")])

/-- The creation of a group with a description. -/
def groupCall : Call := (insertDescribedGroup.sql,
  [.text (bytes "acme"), .text (bytes "bob"), .text (bytes "2026"), .text (bytes "Ours")])

end Cookbook.Kv
