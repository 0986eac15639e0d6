import Cookbook.Kv.Insertion

/-!
# Rows that are updated

An `UPDATE` sets columns of the rows that satisfy its clause. The backend takes one row, under the
key that the last parameter gives, and puts the first parameter behind the first place in its text
where `col=` stands, for the first column that is set: the other columns that are set it leaves, and
the place need not be in the column's own field.
-/
namespace Cookbook.Kv

open Library.Text

/-! ## Places in a row -/

/-- The place where a text is first found in a row of fields: the fields in front, what stands in
front of it in its field, what stands behind it there, and the fields behind. -/
structure Spot where
  /-- The fields in front. -/
  front : List Bytes
  /-- The field in front of the text. -/
  start : Bytes
  /-- The field behind the text. -/
  old : Bytes
  /-- The fields behind. -/
  behind : List Bytes
  deriving DecidableEq

/-- The first place of a text in a row of fields. -/
def findSpot (pattern : Bytes) : List Bytes → Option Spot
  | [] => none
  | field :: fields =>
    match strstr pattern field with
    | some found =>
      some ⟨[], field.take (field.length - found.length), found.drop pattern.length, fields⟩
    | none => (findSpot pattern fields).map fun spot => { spot with front := field :: spot.front }

/-- The fields with a value written at the place. -/
def Spot.write (spot : Spot) (pattern value : Bytes) : List Bytes :=
  spot.front ++ (spot.start ++ pattern ++ value) :: spot.behind

/-- The column of the field in which the place is. -/
def Spot.column (spot : Spot) (pattern : Bytes) : Bytes :=
  (spot.start ++ pattern).takeWhile (· != equalSign)

/-- The row of some fields. -/
def rowOf (fields : List Bytes) : Row := fields.filterMap readField

/-- A row is the one of its fields. -/
theorem readFields_eq (text : Bytes) : readFields text = rowOf (text.splitOn tab) := rfl

/-- A search that succeeds in a text finds the same place when the text goes on. -/
theorem strstr_append {pattern text found : Bytes} (search : strstr pattern text = some found)
    (more : Bytes) : strstr pattern (text ++ more) = some (found ++ more) := by
  induction text with
  | nil =>
    simp only [strstr] at search
    split at search
    · next empty =>
      cases search
      subst empty
      simpa using strstr_prefix ([] : Bytes) more
    · cases search
  | cons c text ih =>
    by_cases front : pattern <+: c :: text
    · obtain ⟨rest, whole⟩ := front
      rw [← whole, strstr_prefix] at search
      obtain rfl := Option.some.inj search
      rw [← whole, List.append_assoc]
      exact strstr_prefix _ _
    · rw [strstr_skip front] at search
      have later : ¬ pattern <+: c :: (text ++ more) := by
        intro starts
        have suffix := (strstr_some search).2.length_le
        have short := (strstr_some search).1.length_le
        exact front (List.prefix_of_prefix_length_le starts
          (List.prefix_append (c :: text) more) (by rw [List.length_cons]; omega))
      rw [List.cons_append, strstr_skip later]
      exact ih search

/-- What a search finds, and what stands in front of it, make up the text. -/
theorem strstr_split {pattern text found : Bytes} (search : strstr pattern text = some found) :
    text = text.take (text.length - found.length) ++ pattern ++ found.drop pattern.length := by
  obtain ⟨⟨front, whole⟩, rest, shape⟩ := strstr_some search
  subst whole shape
  simp

/-- A place is found where the text stands. -/
theorem findSpot_write {pattern : Bytes} {fields : List Bytes} {spot : Spot}
    (found : findSpot pattern fields = some spot) : fields = spot.write pattern spot.old := by
  induction fields generalizing spot with
  | nil => cases found
  | cons field fields ih =>
    simp only [findSpot] at found
    cases search : strstr pattern field with
    | some rest =>
      rw [search] at found
      cases found
      exact congrArg (· :: fields) (strstr_split search)
    | none =>
      rw [search] at found
      obtain ⟨other, inside, rfl⟩ := Option.map_eq_some_iff.mp found
      exact congrArg (field :: ·) (ih inside)

/-- Between two lists of fields a field stands between two texts. -/
theorem intercalate_shape (front behind : List Bytes) : ∃ before after : Bytes, ∀ field,
    [tab].intercalate (front ++ field :: behind) = before ++ field ++ after := by
  induction front with
  | nil =>
    cases behind with
    | nil => exact ⟨[], [], fun field => by simp⟩
    | cons next behind =>
      refine ⟨[], tab :: [tab].intercalate (next :: behind), fun field => ?_⟩
      rw [List.nil_append, List.intercalate_cons_cons]
      simp
  | cons first front ih =>
    obtain ⟨before, after, shape⟩ := ih
    refine ⟨first ++ tab :: before, after, fun field => ?_⟩
    rw [List.cons_append, List.intercalate_cons_of_ne_nil (by simp), shape]
    simp

/-- With another value at its place, a row differs. -/
theorem Spot.write_injective {spot : Spot} {pattern left right : Bytes}
    (same : [tab].intercalate (spot.write pattern left) =
      [tab].intercalate (spot.write pattern right)) : left = right := by
  obtain ⟨before, after, shape⟩ := intercalate_shape spot.front spot.behind
  unfold Spot.write at same
  rw [shape, shape] at same
  exact List.append_cancel_left (List.append_cancel_left
    (List.append_cancel_right same))

/-! ## The edit -/

/-- The edit passes a text without `col=` up to a tab. -/
theorem editRow_passed {column front : Bytes} (value : Bytes) (name : tab ∉ column)
    (absent : ¬ column ++ [equalSign] <:+: front) (rest : Bytes) :
    editRow column value (front ++ tab :: rest) = front ++ tab :: editRow column value rest := by
  have patternFree : tab ∉ column ++ [equalSign] := by simp [name]
  unfold editRow
  rw [strstr_clear (by simp) absent patternFree]
  cases inside : strstr (column ++ [equalSign]) rest with
  | none => rfl
  | some found =>
    have short := (strstr_some inside).1.length_le
    simp only [List.length_append, List.length_cons]
    rw [List.take_append, List.take_of_length_le (l := front) (by omega),
      show front.length + (rest.length + 1) - found.length - front.length =
        (rest.length - found.length) + 1 by omega, List.take_succ_cons]
    simp

/-- The edit writes the value at the first place of `col=` in the fields of a row. -/
theorem editRow_fields {column : Bytes} (name : tab ∉ column) (value : Bytes) (fields : List Bytes)
    (free : ∀ field ∈ fields, tab ∉ field) :
    editRow column value ([tab].intercalate fields) =
      match findSpot (column ++ [equalSign]) fields with
      | none => [tab].intercalate fields
      | some spot => [tab].intercalate (spot.write (column ++ [equalSign]) value) := by
  induction fields with
  | nil => simp [editRow, findSpot, strstr]
  | cons field fields ih =>
    have fieldFree := free field List.mem_cons_self
    have later := ih fun other member => free other (List.mem_cons_of_mem _ member)
    have patternFree : tab ∉ column ++ [equalSign] := by simp [name]
    rw [findSpot]
    cases search : strstr (column ++ [equalSign]) field with
    | some found =>
      have suffix := (strstr_some search).1
      have foundFree : tab ∉ found := fun member => fieldFree (suffix.subset member)
      have short := suffix.length_le
      cases fields with
      | nil =>
        simp only [List.intercalate_singleton, editRow, search, strchr_none foundFree,
          Option.getD_none, Spot.write, List.nil_append]
        simp
      | cons next fields =>
        have whole : [tab].intercalate (field :: next :: fields) =
            field ++ tab :: [tab].intercalate (next :: fields) := by
          rw [List.intercalate_cons_cons]
          simp
        rw [whole]
        simp only [editRow, strstr_append search, strchr_stop found foundFree, Option.getD_some,
          Spot.write, List.nil_append]
        rw [List.intercalate_cons_cons, List.take_append_of_le_length (by simp)]
        simp only [List.length_append, List.length_cons]
        rw [show field.length + (([tab].intercalate (next :: fields)).length + 1) -
            (found.length + (([tab].intercalate (next :: fields)).length + 1)) =
          field.length - found.length by omega]
        simp
    | none =>
      cases fields with
      | nil => simp only [List.intercalate_singleton, editRow, search, findSpot, Option.map_none]
      | cons next fields =>
        have whole (rest : List Bytes) (nonempty : rest ≠ []) : [tab].intercalate (field :: rest) =
            field ++ tab :: [tab].intercalate rest := by
          rw [List.intercalate_cons_of_ne_nil nonempty]
          simp
        have edited := editRow_passed value name (strstr_none_iff.mp search)
          ([tab].intercalate (next :: fields))
        rw [whole _ (by simp), edited, later]
        cases findSpot (column ++ [equalSign]) (next :: fields) with
        | none => rfl
        | some spot =>
          simp only [Option.map_some]
          exact (whole (spot.write (column ++ [equalSign]) value) (by simp [Spot.write])).symm

/-- A text is the fields between its tabs. -/
theorem intercalate_fields (text : Bytes) : [tab].intercalate (text.splitOn tab) = text :=
  List.intercalate_splitOn tab

/-- The row with a value written at a place, if the value is plain. -/
theorem readFields_write {column value row : Bytes} {spot : Spot}
    (found : findSpot (column ++ [equalSign]) (row.splitOn tab) = some spot) (plain : tab ∉ value) :
    readFields ([tab].intercalate (spot.write (column ++ [equalSign]) value)) =
      rowOf (spot.write (column ++ [equalSign]) value) := by
  have pieces := (splitOn_pieces tab row).2
  rw [findSpot_write found] at pieces
  rw [readFields_eq, List.splitOn_intercalate]
  · intro field member
    rcases List.mem_append.mp member with inFront | member
    · exact (pieces field (List.mem_append_left _ inFront)).1
    · rcases List.mem_cons.mp member with rfl | behind
      · have here := (pieces (spot.start ++ (column ++ [equalSign]) ++ spot.old)
          (List.mem_append_right _ List.mem_cons_self)).1
        simp only [List.mem_append, not_or] at here ⊢
        exact ⟨here.1, plain⟩
      · exact (pieces field (List.mem_append_right _ (List.mem_cons_of_mem _ behind))).1
  · simp [Spot.write]

/-- The field at the place has its column whatever is written, and the value ends the field. -/
theorem readField_spot (spot : Spot) (column : Bytes) : ∃ kept, ∀ value,
    readField (spot.start ++ (column ++ [equalSign]) ++ value) =
      some (spot.column (column ++ [equalSign]), kept ++ value) := by
  have pieces := List.takeWhile_append_dropWhile (p := (· != equalSign))
    (l := spot.start ++ (column ++ [equalSign]))
  cases rest : (spot.start ++ (column ++ [equalSign])).dropWhile (· != equalSign) with
  | nil =>
    exfalso
    have all := List.dropWhile_eq_nil_iff.mp rest equalSign (by simp)
    simp at all
  | cons c kept =>
    have stop : c = equalSign := by
      have := List.head_dropWhile_not (p := (· != equalSign))
        (l := spot.start ++ (column ++ [equalSign])) (by simp [rest])
      simpa [rest] using this
    rw [rest, stop] at pieces
    refine ⟨kept, fun value => ?_⟩
    have free : equalSign ∉ spot.column (column ++ [equalSign]) := by
      intro member
      have := List.mem_takeWhile_imp member
      simp at this
    have shape : spot.start ++ (column ++ [equalSign]) ++ value =
        spot.column (column ++ [equalSign]) ++ equalSign :: (kept ++ value) := by
      calc spot.start ++ (column ++ [equalSign]) ++ value
          = ((spot.start ++ (column ++ [equalSign])).takeWhile (· != equalSign) ++
              equalSign :: kept) ++ value := by rw [pieces]
        _ = _ := by rw [List.append_assoc]; rfl
    rw [shape, readField_column _ free]

/-! ## What an `UPDATE` does -/

/-- The column that an `UPDATE` sets first. -/
def Update.first (update : Update) : Bytes := (update.assignments.map Prod.fst).headD []

/-- The columns of the `UPDATE` statements are columns, and the first parameter is a new value or is
compared with a column. -/
theorem update_columns : ∀ update ∈ updates, IsColumn update.first ∧
    update.first ∈ update.assignments.map Prod.fst ∧ update.table.length < 64 ∧
    ((∃ assignment ∈ update.assignments, assignment.2 = .param 1) ∨
      update.conditions.any Condition.asksFirst = true) := by
  decide +kernel

/-- An `UPDATE` edits the row under the key of its last parameter. -/
theorem kvExecP_update {store : KvStore} {update : Update} (issued : update ∈ updates)
    (params : List Param) : kvExecP store update.sql params =
      if params.length < 2 then (.error, store)
      else
        match params.getLast? with
        | some (.text pk) =>
          match store.get (kvKey update.table pk) with
          | none => (.notFound, store)
          | some data => (.ok, store.put (kvKey update.table pk)
              (editRow update.first (((params[0]?).map Param.stored).getD []) (cString data)))
        | _ => (.error, store) := by
  obtain ⟨named, schema, isInsert, isDelete, isUpdate, text, found, nonempty, first, ends⟩ :=
    update_plan update issued
  have column : (readAssignment text).1 = update.first := by
    unfold Update.first
    cases names : update.assignments.map Prod.fst with
    | nil =>
      rw [names] at first
      cases first
    | cons name names' =>
      rw [names] at first
      exact (List.cons.inj first).1
  unfold kvExecP
  rw [schema, if_neg (by decide), named]
  simp only [isInsert, isDelete, isUpdate, Bool.false_eq_true, if_false, if_true, kvUpdate,
    Option.mem_def.mp found]
  by_cases few : params.length < 2
  · rw [if_pos few, if_pos few]
  · obtain ⟨rounds, shape⟩ : ∃ rounds, params.length - 1 = rounds + 1 :=
      ⟨params.length - 2, by omega⟩
    rw [if_neg few, if_neg few, shape]
    cases params.getLast? with
    | none => rfl
    | some last =>
      cases last with
      | text pk =>
        cases row : store.get (kvKey update.table pk) with
        | none => simp only [row]
        | some data => simp only [setLoop, if_neg nonempty, ends, if_true, column, row]
      | int value => rfl
      | null => rfl

/-- The assigned columns of a row have their new values. -/
def Assigned (update : Update) (params : List Param) (row : Row) : Prop :=
  ∀ assignment ∈ update.assignments,
    Represents (row.lookup assignment.1) (assignment.2.denotes params)

/-- The fields of the columns that are not assigned. -/
def Update.others (update : Update) (row : Row) : Row :=
  row.filter fun field => field.1 ∉ update.assignments.map Prod.fst

/-- An `UPDATE` that succeeds sets its columns in the rows that satisfy its clause and leaves
everything else. -/
structure KeepsUpdate (order : Bytes → Bytes → Bytes → Ordering) (store : KvStore) (update : Update)
    (params : List Param) : Prop where
  /-- In the rows of the clause the columns have their new values, and the others are the same. -/
  changed : (kvExecP store update.sql params).1 = .ok →
    ∀ entry ∈ matching order store update.table update.conditions params, ∃ data,
      (kvExecP store update.sql params).2.get entry.1 = some data ∧
      Assigned update params (decodeRow data) ∧
      update.others (decodeRow data) = update.others (decodeRow entry.2)
  /-- The other rows have the same text. -/
  kept : (kvExecP store update.sql params).1 = .ok → ∀ entry ∈ store.entries,
    entry ∉ matching order store update.table update.conditions params → ∃ data,
      (kvExecP store update.sql params).2.get entry.1 = some data ∧
      cString data = cString entry.2
  /-- No row appears, and none is lost. -/
  rows : (kvExecP store update.sql params).1 = .ok →
    (kvExecP store update.sql params).2.entries.map Prod.fst = store.entries.map Prod.fst

/-- When an `UPDATE` does what it says to the row under its key: where `col=` is not found, or the
new value stands behind it, the row must have its new values already, if it satisfies the clause;
otherwise it must satisfy the clause, the value must be plain, and the place must be in the field of
an assigned column and give the columns their values. -/
def EditFits (update : Update) (params : List Param) (satisfies : Prop) (row : Bytes) : Prop :=
  let value := ((params[0]?).map Param.stored).getD []
  let pattern := update.first ++ [equalSign]
  match findSpot pattern (row.splitOn tab) with
  | none => satisfies → Assigned update params (readFields row)
  | some spot =>
    if spot.old = value then satisfies → Assigned update params (readFields row)
    else satisfies ∧ Plain value ∧ spot.column pattern ∈ update.assignments.map Prod.fst ∧
      Assigned update params (rowOf (spot.write pattern value))

/-- When an `UPDATE` does what it says: every row of the clause under another key has its new values
already, and the edit fits the row under its key. -/
def UpdateFits (order : Bytes → Bytes → Bytes → Ordering) (store : KvStore) (update : Update)
    (params : List Param) : Prop :=
  ∀ pk data, 2 ≤ params.length → params.getLast? = some (.text pk) →
    store.get (kvKey update.table pk) = some data →
    (∀ entry ∈ matching order store update.table update.conditions params,
      entry.1 ≠ kvKey update.table pk → Assigned update params (decodeRow entry.2)) ∧
    EditFits update params ((kvKey update.table pk, data) ∈
      matching order store update.table update.conditions params) (cString data)

/-- What an `UPDATE` of a row that is there leaves. -/
theorem KvStore.put_present {store : KvStore} {key data : Bytes} (found : store.get key = some data)
    (value : Bytes) : (store.put key value).entries.map Prod.fst = store.entries.map Prod.fst := by
  unfold put
  rw [dif_pos (by rw [found]; rfl)]
  exact store.replaced_keys key value

/-- A C string with a value in it that is one stays one. -/
theorem zero_notMem_write {column value row : Bytes} {spot : Spot}
    (rowFree : (0 : UInt8) ∉ row) (valueFree : (0 : UInt8) ∉ value)
    (found : findSpot (column ++ [equalSign]) (row.splitOn tab) = some spot) :
    (0 : UInt8) ∉ [tab].intercalate (spot.write (column ++ [equalSign]) value) := by
  obtain ⟨before, after, shape⟩ := intercalate_shape spot.front spot.behind
  have whole := intercalate_fields row
  rw [findSpot_write found] at whole
  unfold Spot.write at whole ⊢
  rw [shape] at whole ⊢
  rw [← whole] at rowFree
  simp only [List.mem_append, not_or] at rowFree ⊢
  exact ⟨⟨rowFree.1.1, ⟨rowFree.1.2.1, valueFree⟩⟩, rowFree.2⟩

/-- A stored parameter is a C string. -/
theorem Param.stored_free (param : Param) : (0 : UInt8) ∉ param.stored := by
  cases param with
  | text value => exact zero_notMem_cString value
  | int number => exact (plain_decimal _).2
  | null => simp [Param.stored]

/-- The edit of a row: nothing changes where the text is not found or has the value already, and
otherwise the value stands at the place. -/
theorem editRow_cases {column value row : Bytes} (name : tab ∉ column) :
    (findSpot (column ++ [equalSign]) (row.splitOn tab) = none ∧ editRow column value row = row) ∨
    ∃ spot, findSpot (column ++ [equalSign]) (row.splitOn tab) = some spot ∧
      editRow column value row = [tab].intercalate (spot.write (column ++ [equalSign]) value) ∧
      (editRow column value row = row ↔ spot.old = value) := by
  have edited := editRow_fields name value (row.splitOn tab) fun field member =>
    ((splitOn_pieces tab row).2 field member).1
  rw [intercalate_fields] at edited
  cases found : findSpot (column ++ [equalSign]) (row.splitOn tab) with
  | none =>
    rw [found] at edited
    exact .inl ⟨rfl, edited⟩
  | some spot =>
    rw [found] at edited
    right
    refine ⟨spot, rfl, edited, ?_⟩
    rw [edited]
    have whole : row = [tab].intercalate (spot.write (column ++ [equalSign]) spot.old) := by
      rw [← findSpot_write found, intercalate_fields]
    constructor
    · intro same
      rw [whole] at same
      exact (Spot.write_injective same).symm
    · intro same
      rw [← same]
      exact whole.symm

/-- The fields of the columns that are not assigned stay the same where another value is written
exactly when the place is in the field of an assigned column. -/
theorem others_write_iff {update : Update} {column left right : Bytes} {spot : Spot}
    (apart : left ≠ right) :
    update.others (rowOf (spot.write (column ++ [equalSign]) left)) =
        update.others (rowOf (spot.write (column ++ [equalSign]) right)) ↔
      spot.column (column ++ [equalSign]) ∈ update.assignments.map Prod.fst := by
  obtain ⟨kept, shape⟩ := readField_spot spot column
  have row (value : Bytes) : rowOf (spot.write (column ++ [equalSign]) value) =
      rowOf spot.front ++ (spot.column (column ++ [equalSign]), kept ++ value) ::
        rowOf spot.behind := by
    unfold rowOf Spot.write
    rw [List.filterMap_append, List.filterMap_cons, shape]
  unfold Update.others
  rw [row, row, List.filter_append, List.filter_append, List.append_cancel_left_eq]
  by_cases member : spot.column (column ++ [equalSign]) ∈ update.assignments.map Prod.fst
  · simp [member]
  · refine iff_of_false (fun same => apart ?_) member
    rw [List.filter_cons_of_pos (by simpa using member),
      List.filter_cons_of_pos (by simpa using member)] at same
    have values := congrArg Prod.snd (List.cons.inj same).1
    exact List.append_cancel_left values

/-- A row satisfies a comparison with the first parameter only where it has its text. -/
theorem Condition.asksFirst_holds {order : Bytes → Bytes → Bytes → Ordering} {condition : Condition}
    {params : List Param} {row : Row} {value : Bytes} (asks : condition.asksFirst = true)
    (there : params[0]? = some (.text value)) (holds : condition.holds order params row = true) :
    ∃ column, row.lookup column = some value := by
  unfold asksFirst at asks
  split at asks
  · next column =>
    refine ⟨column, ?_⟩
    simp only [Condition.holds, Expression.value, Nat.sub_self, there] at holds
    cases found : row.lookup column with
    | none =>
      rw [found] at holds
      cases holds
    | some other =>
      rw [found] at holds
      exact congrArg some (of_decide_eq_true holds)
  · cases asks

/-- A row that satisfies a clause with its first parameter, or has it as a new value, shows that it
is plain. -/
theorem first_plain {order : Bytes → Bytes → Bytes → Ordering} {update : Update}
    (issued : update ∈ updates) {params : List Param} {row after : Bytes}
    (satisfies : update.conditions.all (Condition.holds order params (decodeRow row)) = true)
    (assigned : Assigned update params (decodeRow after)) :
    Plain (((params[0]?).map Param.stored).getD []) := by
  cases there : params[0]? with
  | none => exact ⟨by simp, by simp⟩
  | some param =>
    cases param with
    | int number => exact plain_decimal _
    | null => exact ⟨by simp [Param.stored], by simp [Param.stored]⟩
    | text value =>
      have plain : Plain value := by
        rcases (update_columns update issued).2.2.2 with ⟨assignment, member, uses⟩ | asks
        · have read := assigned assignment member
          rw [uses] at read
          simp only [Expression.denotes, Nat.sub_self, there, Represents] at read
          obtain ⟨front, rest, shape, -⟩ := List.lookup_eq_some_iff.mp read
          have member : (assignment.1, value) ∈ decodeRow after := by
            rw [shape]
            simp
          exact decodeRow_plain member
        · obtain ⟨condition, member, first⟩ := List.any_eq_true.mp asks
          have holds := List.all_eq_true.mp satisfies condition member
          obtain ⟨column, looked⟩ := Condition.asksFirst_holds first there holds
          obtain ⟨front, rest, shape, -⟩ := List.lookup_eq_some_iff.mp looked
          have member : (column, value) ∈ decodeRow row := by
            rw [shape]
            simp
          exact decodeRow_plain member
      show Plain (cString value)
      rw [cString_terminated plain.2]
      exact plain

/-! ## Updates as a whole -/

/-- The row under the key of an `UPDATE` is changed as it says exactly when the edit fits it. -/
theorem edit_iff {order : Bytes → Bytes → Bytes → Ordering} {update : Update}
    (issued : update ∈ updates) {params : List Param} {data : Bytes} {satisfies : Prop}
    (clause : satisfies →
      update.conditions.all (Condition.holds order params (decodeRow data)) = true) :
    ((satisfies → Assigned update params (decodeRow (editRow update.first
          (((params[0]?).map Param.stored).getD []) (cString data))) ∧
        update.others (decodeRow (editRow update.first
          (((params[0]?).map Param.stored).getD []) (cString data))) =
          update.others (decodeRow data)) ∧
      (¬ satisfies → cString (editRow update.first
        (((params[0]?).map Param.stored).getD []) (cString data)) = cString data)) ↔
      EditFits update params satisfies (cString data) := by
  obtain ⟨name, -, -, -⟩ := update_columns update issued
  have rowFree := zero_notMem_cString data
  have valueFree : (0 : UInt8) ∉ ((params[0]?).map Param.stored).getD [] := by
    cases params[0]? with
    | none => simp
    | some param => exact param.stored_free
  unfold EditFits
  generalize writes : ((params[0]?).map Param.stored).getD [] = value at valueFree ⊢
  have idle (same : editRow update.first value (cString data) = cString data) :
      decodeRow (editRow update.first value (cString data)) = decodeRow data ∧
      cString (editRow update.first value (cString data)) = cString data := by
    rw [same]
    unfold decodeRow
    rw [cString_terminated rowFree]
    exact ⟨rfl, rfl⟩
  rcases @editRow_cases update.first value (cString data) name.1.1 with
    ⟨nowhere, same⟩ | ⟨spot, found, edited, same⟩
  · simp only [nowhere]
    rw [(idle same).1, (idle same).2]
    exact ⟨fun both holds => (both.1 holds).1, fun holds =>
      ⟨fun satisfied => ⟨holds satisfied, rfl⟩, fun _ => rfl⟩⟩
  · simp only [found]
    by_cases already : spot.old = value
    · rw [if_pos already, (idle (same.mpr already)).1, (idle (same.mpr already)).2]
      exact ⟨fun both holds => (both.1 holds).1, fun holds =>
        ⟨fun satisfied => ⟨holds satisfied, rfl⟩, fun _ => rfl⟩⟩
    · -- The text of the row changes, so that it must be a row of the clause.
      have free : (0 : UInt8) ∉ editRow update.first value (cString data) := by
        rw [edited]
        exact zero_notMem_write rowFree valueFree found
      have before : decodeRow data = rowOf (spot.write (update.first ++ [equalSign]) spot.old) := by
        unfold decodeRow
        rw [readFields_eq, findSpot_write found]
      have after (plain : Plain value) :
          decodeRow (editRow update.first value (cString data)) =
            rowOf (spot.write (update.first ++ [equalSign]) value) := by
        unfold decodeRow
        rw [cString_terminated free, edited, readFields_write found plain.1]
      have changes : cString (editRow update.first value (cString data)) ≠ cString data := by
        rw [cString_terminated free]
        exact fun whole => already (same.mp whole)
      rw [if_neg already]
      constructor
      · rintro ⟨changed, kept⟩
        by_cases satisfied : satisfies
        · obtain ⟨assigned, others⟩ := changed satisfied
          have plain : Plain value := writes ▸ first_plain issued (clause satisfied) assigned
          rw [after plain] at assigned others
          rw [before] at others
          exact ⟨satisfied, plain, (others_write_iff (Ne.symm already)).mp others, assigned⟩
        · exact absurd (kept satisfied) changes
      · rintro ⟨satisfied, plain, column, assigned⟩
        refine ⟨fun _ => ?_, fun other => absurd satisfied other⟩
        rw [after plain, before]
        exact ⟨assigned, (others_write_iff (Ne.symm already)).mpr column⟩

/-- An `UPDATE` does what it says exactly when it fits the rows. -/
theorem keepsUpdate_iff (order : Bytes → Bytes → Bytes → Ordering) (store : KvStore)
    (update : Update) (issued : update ∈ updates) (params : List Param) :
    KeepsUpdate order store update params ↔ UpdateFits order store update params := by
  obtain ⟨-, -, short, -⟩ := update_columns update issued
  have ran := @kvExecP_update store update issued params
  by_cases few : params.length < 2
  · rw [if_pos few] at ran
    refine iff_of_true ⟨?_, ?_, ?_⟩ fun pk data enough => absurd few (by omega)
    · intro ok
      rw [ran] at ok
      cases ok
    · intro ok
      rw [ran] at ok
      cases ok
    · intro ok
      rw [ran] at ok
      cases ok
  rw [if_neg few] at ran
  by_cases reached : ∃ pk data, params.getLast? = some (.text pk) ∧
      store.get (kvKey update.table pk) = some data
  · obtain ⟨pk, data, last, found⟩ := reached
    simp only [last, found] at ran
    have member := store.get_eq_some_iff.mp found
    have clause : (kvKey update.table pk, data) ∈
        matching order store update.table update.conditions params →
        update.conditions.all (Condition.holds order params (decodeRow data)) = true :=
      (key_mem_matching_iff short found).mp
    have here : (kvExecP store update.sql params).2.get (kvKey update.table pk) =
        some (editRow update.first (((params[0]?).map Param.stored).getD []) (cString data)) := by
      rw [ran]
      exact store.get_put_self _ _
    have elsewhere (entry : Entry) (inside : entry ∈ store.entries)
        (apart : entry.1 ≠ kvKey update.table pk) :
        (kvExecP store update.sql params).2.get entry.1 = some entry.2 := by
      rw [ran]
      exact (store.get_put_other _ apart).trans (store.get_eq_some_iff.mpr inside)
    have edit := edit_iff issued clause
    constructor
    · rintro ⟨changed, kept, -⟩ pk' data' - last' found'
      obtain rfl : pk = pk' := by
        have := last.symm.trans last'
        simpa using this
      obtain rfl := Option.some.inj (found.symm.trans found')
      refine ⟨fun entry inside apart => ?_, edit.mp ⟨fun satisfied => ?_, fun other => ?_⟩⟩
      · obtain ⟨data', there, assigned, -⟩ := changed (by rw [ran]) entry inside
        rw [elsewhere entry (mem_matching.mp inside).1 apart] at there
        rw [Option.some.inj there]
        exact assigned
      · obtain ⟨data', there, assigned, others⟩ := changed (by rw [ran]) _ satisfied
        rw [here] at there
        rw [Option.some.inj there]
        exact ⟨assigned, others⟩
      · obtain ⟨data', there, same⟩ := kept (by rw [ran]) _ member other
        rw [here] at there
        rw [Option.some.inj there]
        exact same
    · intro fits
      obtain ⟨others, editFits⟩ := fits pk data (by omega) last found
      obtain ⟨changed, kept⟩ := edit.mpr editFits
      refine ⟨fun _ entry inside => ?_, fun _ entry inside other => ?_, fun _ => ?_⟩
      · by_cases same : entry.1 = kvKey update.table pk
        · obtain rfl := KvStore.entry_eq found (mem_matching.mp inside).1 same
          exact ⟨_, here, changed inside⟩
        · exact ⟨entry.2, elsewhere entry (mem_matching.mp inside).1 same,
            others entry inside same, rfl⟩
      · by_cases same : entry.1 = kvKey update.table pk
        · obtain rfl := KvStore.entry_eq found inside same
          exact ⟨_, here, kept other⟩
        · exact ⟨entry.2, elsewhere entry inside same, rfl⟩
      · rw [ran]
        exact KvStore.put_present found _
  · -- Without a row under the key the statement does not succeed.
    have failed : (kvExecP store update.sql params).1 ≠ .ok := by
      rw [ran]
      cases last : params.getLast? with
      | none => simp
      | some param =>
        cases param with
        | int number => simp
        | null => simp
        | text pk =>
          cases found : store.get (kvKey update.table pk) with
          | none => simp [found]
          | some data => exact absurd ⟨pk, data, last, found⟩ reached
    exact iff_of_true ⟨fun ok => absurd ok failed, fun ok => absurd ok failed,
      fun ok => absurd ok failed⟩ fun pk data _ last found => absurd ⟨pk, data, last, found⟩ reached

/-- A store with one credential, as the server writes it. -/
def credentialStore : KvStore :=
  (kvExecP emptyStore insertCredential.sql [.text (bytes "alice"), .text (bytes "$argon2id$v=19"),
    .text (bytes "*"), .text (bytes "2026")]).2

/-- A credential is not revoked, though the statement succeeds: its row has no `revoked_at`. -/
theorem revocation_lost :
    (kvExecP credentialStore updateCredential.sql [.text (bytes "2027"), .text (bytes "alice")]).1 =
      .ok ∧
    ¬ KeepsUpdate bytewise credentialStore updateCredential
      [.text (bytes "2027"), .text (bytes "alice")] := by
  refine ⟨by decide +kernel, fun keeps => ?_⟩
  obtain ⟨data, found, assigned, -⟩ := keeps.changed (by decide +kernel)
    (bytes "credentials:alice",
      bytes "subject=alice\ttoken_hash=$argon2id$v=19\tgroups=*\tcreated_at=2026")
    (by decide +kernel)
  have unchanged : (kvExecP credentialStore updateCredential.sql
      [.text (bytes "2027"), .text (bytes "alice")]).2.get (bytes "credentials:alice") =
      some (bytes "subject=alice\ttoken_hash=$argon2id$v=19\tgroups=*\tcreated_at=2026") := by
    decide +kernel
  obtain rfl := Option.some.inj (unchanged.symm.trans found)
  have revoked := assigned (bytes "revoked_at", .param 1) (by decide +kernel)
  have absent : (decodeRow (bytes
      "subject=alice\ttoken_hash=$argon2id$v=19\tgroups=*\tcreated_at=2026")).lookup
      (bytes "revoked_at") = none := by decide +kernel
  have clash : none = some (bytes "2027") := absent.symm.trans revoked
  cases clash

/-! ## The columns that a statement sets -/

/-- The text is in no field in front of its place, and in the field of the place not before. -/
theorem findSpot_first {pattern : Bytes} {fields : List Bytes} {spot : Spot}
    (found : findSpot pattern fields = some spot) :
    (∀ field ∈ spot.front, ¬ pattern <:+: field) ∧ (pattern <+: spot.start → spot.start = []) := by
  induction fields generalizing spot with
  | nil => cases found
  | cons field fields ih =>
    simp only [findSpot] at found
    cases search : strstr pattern field with
    | some rest =>
      rw [search] at found
      cases found
      refine ⟨by simp, ?_⟩
      rintro ⟨more, front⟩
      have whole := strstr_split search
      simp only at front
      have again : strstr pattern field = some field := by
        rw [whole]
        have shape : field.take (field.length - rest.length) ++ pattern ++
            rest.drop pattern.length =
            pattern ++ (more ++ pattern ++ rest.drop pattern.length) := by
          rw [← front]
          simp
        rw [shape]
        exact strstr_prefix _ _
      rw [again] at search
      obtain rfl := Option.some.inj search
      simp
    | none =>
      rw [search] at found
      obtain ⟨other, inside, rfl⟩ := Option.map_eq_some_iff.mp found
      obtain ⟨front, start⟩ := ih inside
      refine ⟨fun piece member => ?_, start⟩
      rcases List.mem_cons.mp member with rfl | member
      · exact strstr_none_iff.mp search
      · exact front piece member

/-- In front of the first place of `col=` no field has the column. -/
theorem lookup_front {column : Bytes} {fields : List Bytes} {spot : Spot}
    (found : findSpot (column ++ [equalSign]) fields = some spot) :
    (rowOf spot.front).lookup column = none := by
  rw [List.lookup_eq_none_iff]
  intro field member
  obtain ⟨piece, inside, read⟩ := List.mem_filterMap.mp member
  suffices apart : field.1 ≠ column by simpa using apart.symm
  rintro rfl
  refine (findSpot_first found).1 piece inside ⟨[], field.2, ?_⟩
  rw [(readField_some read).1]
  simp

/-- The place is in the column's own field exactly when nothing stands in front of it there. -/
theorem Spot.column_eq_iff {column : Bytes} (name : IsColumn column) {fields : List Bytes}
    {spot : Spot} (found : findSpot (column ++ [equalSign]) fields = some spot) :
    spot.column (column ++ [equalSign]) = column ↔ spot.start = [] := by
  unfold Spot.column
  by_cases inside : equalSign ∈ spot.start
  · obtain ⟨before, after, shape, free⟩ :
        ∃ before after, spot.start = before ++ equalSign :: after ∧ equalSign ∉ before :=
      List.eq_append_cons_of_mem inside
    have column' : (spot.start ++ (column ++ [equalSign])).takeWhile (· != equalSign) = before := by
      rw [shape, List.append_assoc, List.cons_append]
      exact takeWhile_ne_stop free
    rw [column']
    refine iff_of_false (fun same => ?_) fun empty => ?_
    · have starts : column ++ [equalSign] <+: spot.start := ⟨after, by rw [shape, same]; simp⟩
      rw [(findSpot_first found).2 starts] at inside
      cases inside
    · rw [empty] at inside
      cases inside
  · have free : equalSign ∉ spot.start ++ column := by simp [inside, name.2]
    rw [← List.append_assoc, takeWhile_ne_stop free, List.append_left_eq_self]

/-- What a row has for a column behind a value that is written at a place. -/
theorem lookup_write {column : Bytes} {spot : Spot} {front kept value : Bytes}
    (here : readField (spot.start ++ (column ++ [equalSign]) ++ value) = some (front, kept))
    (name : Bytes) :
    (rowOf (spot.write (column ++ [equalSign]) value)).lookup name =
      ((rowOf spot.front).lookup name).or
        (if name = front then some kept else (rowOf spot.behind).lookup name) := by
  unfold rowOf Spot.write
  rw [List.filterMap_append, List.filterMap_cons, here, List.lookup_append, List.lookup_cons]
  by_cases same : name = front
  · simp [same]
  · rw [if_neg same, beq_false_of_ne same]

/-- In its own field the column is read with the value that is written. -/
theorem readField_own {column : Bytes} (name : IsColumn column) {spot : Spot} (value : Bytes)
    (start : spot.start = []) :
    readField (spot.start ++ (column ++ [equalSign]) ++ value) = some (column, value) := by
  rw [start, List.nil_append, List.append_assoc]
  exact readField_column value name.2

/-- A statement that sets one column does so exactly where the place is in the column's own field
and the value that is written is the new one. -/
theorem ownField_iff {update : Update} {column : Bytes} {expression : Expression}
    (single : update.assignments = [(column, expression)]) (name : IsColumn column)
    {params : List Param} {value : Bytes} {fields : List Bytes} {spot : Spot}
    (found : findSpot (column ++ [equalSign]) fields = some spot) :
    (spot.column (column ++ [equalSign]) ∈ update.assignments.map Prod.fst ∧
        Assigned update params (rowOf (spot.write (column ++ [equalSign]) value))) ↔
      spot.start = [] ∧ Represents (some value) (expression.denotes params) := by
  unfold Assigned
  rw [single]
  simp only [List.map_cons, List.map_nil, List.mem_singleton, forall_eq]
  rw [spot.column_eq_iff name found]
  refine and_congr_right fun start => ?_
  rw [lookup_write (readField_own name value start), lookup_front found, if_pos rfl,
    Option.none_or]

/-- The place is in the field of another column, whose name does not end with that of the column,
exactly when it is in the value there. -/
theorem Spot.column_other_iff {column other : Bytes} (own : IsColumn column) (name : IsColumn other)
    (apart : ¬ column <:+ other) (spot : Spot) :
    spot.column (column ++ [equalSign]) = other ↔
      ∃ kept, spot.start = other ++ equalSign :: kept := by
  unfold Spot.column
  by_cases inside : equalSign ∈ spot.start
  · obtain ⟨before, after, shape, free⟩ := List.eq_append_cons_of_mem inside
    have column' : (spot.start ++ (column ++ [equalSign])).takeWhile (· != equalSign) = before := by
      rw [shape, List.append_assoc, List.cons_append]
      exact takeWhile_ne_stop free
    rw [column']
    constructor
    · rintro rfl
      exact ⟨after, shape⟩
    · rintro ⟨kept, start⟩
      rw [← column', start, List.append_assoc, List.cons_append]
      exact takeWhile_ne_stop name.2
  · refine iff_of_false (fun same => ?_) ?_
    · have whole : equalSign ∉ spot.start ++ column := by simp [inside, own.2]
      rw [← List.append_assoc, takeWhile_ne_stop whole] at same
      exact apart ⟨spot.start, same⟩
    · rintro ⟨kept, start⟩
      exact inside (by rw [start]; simp)

/-- A statement that sets two columns does so exactly where the place is in the first column's own
field, the value that is written is its new one, and the second column has its own already; or the
place is in the value of the second column, where it completes the new one (unless the column is there
before), and the first column has its own already. -/
theorem pairField_iff {update : Update} {first second : Bytes} {left right : Expression}
    (pair : update.assignments = [(first, left), (second, right)]) (firstName : IsColumn first)
    (secondName : IsColumn second) (apart : ¬ first <:+ second) {params : List Param} {value : Bytes}
    {fields : List Bytes} {spot : Spot}
    (found : findSpot (first ++ [equalSign]) fields = some spot) :
    (spot.column (first ++ [equalSign]) ∈ update.assignments.map Prod.fst ∧
        Assigned update params (rowOf (spot.write (first ++ [equalSign]) value))) ↔
      (spot.start = [] ∧ Represents (some value) (left.denotes params) ∧
        Represents ((rowOf (spot.front ++ spot.behind)).lookup second) (right.denotes params)) ∨
      ∃ kept, spot.start = second ++ equalSign :: kept ∧
        Represents ((rowOf spot.behind).lookup first) (left.denotes params) ∧
        Represents (((rowOf spot.front).lookup second).or
          (some (kept ++ (first ++ [equalSign]) ++ value))) (right.denotes params) := by
  have different : second ≠ first := fun same => apart (same ▸ List.suffix_rfl)
  unfold Assigned
  rw [pair]
  simp only [List.map_cons, List.map_nil, List.mem_cons, List.not_mem_nil, or_false, forall_eq_or_imp,
    forall_eq]
  rw [spot.column_eq_iff firstName found, spot.column_other_iff firstName secondName apart, or_and_right]
  refine or_congr (and_congr_right fun start => ?_) ?_
  · have here := readField_own firstName value start
    have rest : rowOf (spot.front ++ spot.behind) = rowOf spot.front ++ rowOf spot.behind :=
      List.filterMap_append
    rw [lookup_write here, lookup_write here, lookup_front found, if_pos rfl, if_neg different,
      Option.none_or, rest, List.lookup_append]
  · rw [exists_and_right.symm]
    refine exists_congr fun kept => and_congr_right fun start => ?_
    have here : readField (spot.start ++ (first ++ [equalSign]) ++ value) =
        some (second, kept ++ (first ++ [equalSign]) ++ value) := by
      rw [start, List.append_assoc, List.append_assoc, List.cons_append,
        readField_column _ secondName.2]
      simp
    rw [lookup_write here, lookup_write here, lookup_front found, if_pos rfl,
      if_neg (Ne.symm different), Option.none_or]

/-- A statement sets one column or two, of which the first does not end the name of the second. -/
theorem update_assignments : ∀ update ∈ updates,
    (∃ column expression, update.assignments = [(column, expression)] ∧ IsColumn column) ∨
    ∃ first second left right, update.assignments = [(first, left), (second, right)] ∧
      IsColumn first ∧ IsColumn second ∧ ¬ first <:+ second := by
  simp only [updates, List.forall_mem_cons]
  refine ⟨.inr ⟨_, _, _, _, rfl, ?_⟩, .inr ⟨_, _, _, _, rfl, ?_⟩, .inl ⟨_, _, rfl, ?_⟩,
    .inl ⟨_, _, rfl, ?_⟩, .inl ⟨_, _, rfl, ?_⟩, .inl ⟨_, _, rfl, ?_⟩, List.forall_mem_nil _⟩
  all_goals decide +kernel

/-- A store with one group. -/
def groupStore : KvStore :=
  (kvExecP emptyStore insertOwnGroup.sql [.text (bytes "acme"), .text (bytes "alice")]).2

/-- The owner of a group is changed. -/
theorem keepsUpdate_owner :
    KeepsUpdate bytewise groupStore updateOwner [.text (bytes "bob"), .text (bytes "acme")] := by
  refine (keepsUpdate_iff bytewise groupStore updateOwner (by simp [updates]) _).mpr ?_
  have entries : groupStore.entries = [(bytes "groups:acme", bytes "group_id=acme\towner_sub=alice")] := by
    decide +kernel
  have key : kvKey updateOwner.table (bytes "acme") = bytes "groups:acme" := by decide +kernel
  intro pk data _ last found
  obtain rfl : bytes "acme" = pk := by simpa using last
  rw [key] at found ⊢
  have inside := groupStore.get_eq_some_iff.mp found
  rw [entries] at inside
  obtain rfl := congrArg Prod.snd (List.mem_singleton.mp inside)
  refine ⟨fun entry member other => ?_, ?_⟩
  · have there := (mem_matching.mp member).1
    rw [entries] at there
    exact absurd (congrArg Prod.fst (List.mem_singleton.mp there)) other
  · have place : findSpot (updateOwner.first ++ [equalSign])
        ((cString (bytes "group_id=acme\towner_sub=alice")).splitOn tab) =
          some ⟨[bytes "group_id=acme"], [], bytes "alice", []⟩ := by decide +kernel
    have own : updateOwner.assignments = [(updateOwner.first, .param 1)] := by decide +kernel
    unfold EditFits
    simp only [place]
    rw [if_neg (by decide +kernel)]
    exact ⟨by decide +kernel, by decide +kernel,
      (ownField_iff own (by decide +kernel) place).mpr ⟨rfl, rfl⟩⟩

end Cookbook.Kv
