import Cookbook.Kv.Selection

/-!
# Rows that are inserted

An `INSERT` says for every column which parameter or literal is its value. The backend takes the
first parameter for the first column, the second for the second, and so on: it passes by the
literals. What it stores for a parameter is a text; `NULL` becomes the empty one, an integer is cut
to 32 bits, and a text with a tab becomes more than one field.
-/
namespace Cookbook.Kv

open Library.Text

/-! ## Values -/

/-- A value of an SQL database. -/
inductive Value
  /-- `NULL` -/
  | null
  /-- A text. -/
  | text (value : Bytes)
  /-- An integer. -/
  | int (value : Int)

/-- The value that an expression denotes. -/
def Expression.denotes (params : List Param) : Expression → Value
  | .param index =>
    match params[index - 1]? with
    | some (.text value) => .text value
    | some (.int value) => .int value
    | some .null => .null
    | none => .null
  | .text value => .text value
  | .number value => .int value
  | .null => .null

/-- A value is what a row says of a column: `NULL` where it says nothing. -/
def Represents (found : Option Bytes) : Value → Prop
  | .null => found = none
  | .text value => found = some value
  | .int value => found = some (decimal value)

/-- A parameter that is stored as what it is. -/
def Param.Kept : Param → Prop
  | .text value => Plain value
  | .int value => -2147483648 ≤ value ∧ value < 2147483648
  | .null => False

/-- What a row has under a column that is not there twice. -/
theorem lookup_zip {names : List Bytes} (distinct : names.Nodup) (values : List Bytes) (index : Nat)
    (name : Bytes) (there : names[index]? = some name) :
    (names.zip values).lookup name = values[index]? := by
  induction names generalizing values index with
  | nil => simp at there
  | cons first names ih =>
    cases values with
    | nil => simp
    | cons value values =>
      rw [List.zip_cons_cons]
      cases index with
      | zero =>
        obtain rfl : first = name := by simpa using there
        simp
      | succ index =>
        rw [List.getElem?_cons_succ] at there
        have apart : name ≠ first := fun same =>
          (List.nodup_cons.mp distinct).1 (same ▸ List.mem_of_getElem? there)
        rw [List.lookup_cons, beq_false_of_ne apart, List.getElem?_cons_succ]
        exact ih (List.nodup_cons.mp distinct).2 values index there

/-! ## Numerals -/

/-- A numeral has only digits and perhaps a sign. -/
theorem plain_decimal (number : Int) : Plain (decimal number) := by
  have digits (number : Nat) : Plain (decimalNat number) := by
    obtain ⟨-, all, -⟩ := decimalNat_spec number
    constructor
    · intro member
      have := (all _ member).1
      revert this
      decide
    · intro member
      have := (all _ member).1
      revert this
      decide
  cases number with
  | ofNat number => exact digits number
  | negSucc number =>
    obtain ⟨tabs, zeros⟩ := digits (number + 1)
    exact ⟨by simp [decimal, tabs], by simp [decimal, zeros]⟩

/-- Different numbers have different numerals. -/
theorem decimal_injective {left right : Int} (same : decimal left = decimal right) :
    left = right := by
  have digits {left right : Nat} (same : decimalNat left = decimalNat right) : left = right := by
    rw [← (decimalNat_spec left).2.2, same, (decimalNat_spec right).2.2]
  have unsigned (number : Nat) (rest : Bytes) : decimalNat number ≠ 0x2D :: rest := by
    intro other
    have := ((decimalNat_spec number).2.1 0x2D (by rw [other]; simp)).2.2.1
    exact this rfl
  cases left with
  | ofNat left =>
    cases right with
    | ofNat right => rw [digits same]
    | negSucc right => exact absurd same (unsigned left _)
  | negSucc left =>
    cases right with
    | ofNat right => exact absurd same.symm (unsigned right _)
    | negSucc right =>
      have := digits (List.cons.inj same).2
      rw [Nat.succ.inj this]

/-- A numeral is not empty. -/
theorem decimal_ne_nil (number : Int) : decimal number ≠ [] := by
  cases number with
  | ofNat number => exact (decimalNat_spec number).1
  | negSucc number => simp [decimal]

/-- A number survives `%d` exactly when it has 32 bits. -/
theorem decimal_bmod_iff (number : Int) :
    decimal (number.bmod 4294967296) = decimal number ↔
      -2147483648 ≤ number ∧ number < 2147483648 := by
  constructor
  · intro same
    have fixed := decimal_injective same
    have low := Int.le_bmod (x := number) (m := 4294967296) (by decide)
    have high := Int.bmod_lt (x := number) (m := 4294967296) (by decide)
    omega
  · rintro ⟨low, high⟩
    rw [Int.bmod_eq_of_le (by omega) (by omega)]

/-! ## What an `INSERT` does -/

/-- The row that an `INSERT` writes. -/
def Insert.row (insert : Insert) (params : List Param) : Row :=
  (insert.assignments.map Prod.fst).zip (params.map Param.stored)

/-- The columns of the `INSERT` statements are columns, and there are no more parameters. -/
theorem insert_columns : ∀ insert ∈ inserts, (∀ name ∈ insert.assignments.map Prod.fst,
    IsColumn name) ∧ (insert.assignments.map Prod.fst).Nodup ∧
      insert.arity ≤ insert.assignments.length ∧ insert.table.length < 64 := by
  decide +kernel

/-- An `INSERT` of a new row stores the row under the key of its first parameter. -/
theorem kvExecP_insert {store : KvStore} {insert : Insert} (issued : insert ∈ inserts) {pk : Bytes}
    {params : List Param} (new : store.get (kvKey insert.table pk) = none) :
    kvExecP store insert.sql (.text pk :: params) =
      (.ok, store.put (kvKey insert.table pk) (encodeRow (insert.row (.text pk :: params)))) := by
  obtain ⟨named, schema, isInsert, -, -, columns⟩ := insert_plan insert issued
  unfold kvExecP
  rw [schema, if_neg (by decide), named]
  simp only [isInsert, if_true, kvInsert, new, Option.isSome_none, Bool.and_false,
    Bool.false_eq_true, if_false, columns]
  rfl

/-- A row is stored as the statement says: every column has its value, and no other row of the table
has its key. -/
structure KeepsInsert (store : KvStore) (insert : Insert) (params : List Param) : Prop where
  /-- Every column of a new row is read back with its value. -/
  stored : (kvExecP store insert.sql params).1 = .ok → ∀ pk rest, params = .text pk :: rest →
    store.get (kvKey insert.table pk) = none → ∃ data,
      (kvExecP store insert.sql params).2.get (kvKey insert.table pk) = some data ∧
      ∀ assignment ∈ insert.assignments,
        Represents ((decodeRow data).lookup assignment.1) (assignment.2.denotes params)
  /-- The key is that of no other row. -/
  separate : ∀ pk rest, params = .text pk :: rest → ∀ other, other ≠ pk →
    kvKey insert.table other ≠ kvKey insert.table pk

/-- The parameters of a statement, in their order, are the values of its first columns, and the rest
is `NULL`. -/
def Insert.Positional (insert : Insert) : Prop :=
  insert.assignments.map Prod.snd =
    (List.range insert.arity).map (fun index => .param (index + 1)) ++
      List.replicate (insert.assignments.length - insert.arity) .null

instance (insert : Insert) : Decidable insert.Positional := inferInstanceAs (Decidable (_ = _))

/-- When an `INSERT` is stored as it says: its key fits its buffer, and if the row is new, the
columns are filled with the parameters in their order, each of which is stored as what it is. -/
def InsertFits (store : KvStore) (insert : Insert) (params : List Param) : Prop :=
  ∀ pk rest, params = .text pk :: rest → insert.table.length + 1 + pk.length < 255 ∧
    (store.get (kvKey insert.table pk) = none →
      insert.Positional ∧ ∀ param ∈ params, param.Kept)

/-! ## Keys -/

/-- A key is that of no other row exactly when it fits its buffer. -/
theorem kvKey_separate_iff (table pk : Bytes) :
    (∀ other, other ≠ pk → kvKey table other ≠ kvKey table pk) ↔
      table.length + 1 + pk.length < 255 := by
  unfold kvKey
  constructor
  · intro separate
    by_contra long
    refine separate (pk ++ [0x2B]) (by simp) ?_
    rw [show table ++ colon :: (pk ++ [0x2B]) = (table ++ colon :: pk) ++ [0x2B] by simp,
      List.take_append_of_le_length (by simp; omega)]
  · intro short other apart same
    rw [List.take_of_length_le (l := table ++ colon :: pk) (by simp; omega)] at same
    have whole : (table ++ colon :: other).length ≤ 255 := by
      have := congrArg List.length same
      simp only [List.length_take, List.length_append, List.length_cons] at this ⊢
      omega
    rw [List.take_of_length_le whole] at same
    exact apart (List.cons.inj (List.append_cancel_left same)).2

/-! ## Columns -/

/-- Every parameter is the value of a column. -/
theorem insert_uses : ∀ insert ∈ inserts, ∀ index < insert.arity,
    ∃ assignment ∈ insert.assignments, assignment.2 = .param (index + 1) := by
  decide +kernel

/-- What a new row has for its columns: everything is read back exactly when every text is plain and
the text that the position of a column gives is its value. -/
theorem represents_iff {insert : Insert} (issued : insert ∈ inserts) {params : List Param}
    (arity : params.length = insert.arity) :
    (∀ assignment ∈ insert.assignments,
      Represents ((decodeRow (encodeRow (insert.row params))).lookup assignment.1)
        (assignment.2.denotes params)) ↔
    (∀ param ∈ params, Plain param.stored) ∧
      ∀ (index : Nat) (assignment : Bytes × Expression),
        insert.assignments[index]? = some assignment →
        Represents ((params[index]?).map Param.stored) (assignment.2.denotes params) := by
  obtain ⟨columns, distinct, enough, -⟩ := insert_columns insert issued
  have names : ∀ field ∈ insert.row params, IsColumn field.1 := fun field member =>
    columns field.1 (List.of_mem_zip member).1
  have found (plain : ∀ param ∈ params, Plain param.stored) :
      decodeRow (encodeRow (insert.row params)) = insert.row params := by
    refine decodeRow_encodeRow fun field member => ⟨names field member, ?_⟩
    obtain ⟨param, inside, same⟩ := List.mem_map.mp (List.of_mem_zip member).2
    exact same ▸ plain param inside
  have looked (index : Nat) (assignment : Bytes × Expression)
      (there : insert.assignments[index]? = some assignment) :
      (insert.row params).lookup assignment.1 = (params[index]?).map Param.stored := by
    have name : (insert.assignments.map Prod.fst)[index]? = some assignment.1 := by
      rw [List.getElem?_map, there]
      rfl
    unfold Insert.row
    rw [lookup_zip distinct _ index assignment.1 name, List.getElem?_map]
  constructor
  · intro represents
    -- A text is the value of a column, and no value that is read back has a tab.
    have plain : ∀ param ∈ params, Plain param.stored := by
      intro param member
      cases param with
      | null => exact ⟨by simp [Param.stored], by simp [Param.stored]⟩
      | int number => exact plain_decimal _
      | text value =>
        obtain ⟨index, inside⟩ := List.getElem?_of_mem member
        obtain ⟨small, -⟩ := List.getElem?_eq_some_iff.mp inside
        obtain ⟨assignment, used, same⟩ := insert_uses insert issued index (arity ▸ small)
        have read := represents assignment used
        rw [same] at read
        simp only [Expression.denotes, Nat.add_sub_cancel, inside, Represents] at read
        obtain ⟨front, rest, shape, -⟩ := List.lookup_eq_some_iff.mp read
        have member : (assignment.1, value) ∈ decodeRow (encodeRow (insert.row params)) := by
          rw [shape]
          simp
        have plain : Plain value := decodeRow_plain member
        rw [Param.stored, cString_terminated plain.2]
        exact plain
    refine ⟨plain, fun index assignment there => ?_⟩
    rw [← looked index assignment there, ← found plain]
    exact represents assignment (List.mem_of_getElem? there)
  · rintro ⟨plain, positions⟩ assignment member
    obtain ⟨index, there⟩ := List.getElem?_of_mem member
    rw [found plain, looked index assignment there]
    exact positions index assignment there

/-- Statements whose values are not their parameters in their order. -/
theorem positional_cases : ∀ insert ∈ inserts, insert.Positional ∨
    insert.assignments = insertArtifact.assignments ∧ insert.arity = 10 ∨
    insert.assignments = insertPeer.assignments ∧ insert.arity = 7 := by
  decide +kernel

/-- What is stored for a parameter represents it exactly when the parameter is one that is kept, as
far as texts are plain. -/
theorem represents_stored_iff {param : Param} {params : List Param} {index : Nat}
    (there : params[index]? = some param) (plain : Plain param.stored) :
    Represents (some param.stored) ((Expression.param (index + 1)).denotes params) ↔ param.Kept := by
  simp only [Expression.denotes, Nat.add_sub_cancel, there]
  cases param with
  | text value =>
    simp only [Represents, Param.stored, Option.some.injEq, Param.Kept] at plain ⊢
    constructor
    · intro whole
      rwa [whole] at plain
    · intro free
      exact cString_terminated free.2
  | int number =>
    simp only [Represents, Param.stored, Option.some.injEq, Param.Kept]
    exact decimal_bmod_iff number
  | null => exact iff_of_false (by simp [Represents]) id

/-- The value of a column in a statement whose values are its parameters in their order. -/
theorem Insert.Positional.value {insert : Insert} (positional : insert.Positional) {index : Nat}
    {assignment : Bytes × Expression} (there : insert.assignments[index]? = some assignment) :
    assignment.2 = if index < insert.arity then .param (index + 1) else .null := by
  have value : (insert.assignments.map Prod.snd)[index]? = some assignment.2 := by
    rw [List.getElem?_map, there]
    rfl
  rw [positional] at value
  by_cases small : index < insert.arity
  · rw [List.getElem?_append_left (by simpa using small)] at value
    rw [if_pos small]
    simpa [small] using value.symm
  · rw [List.getElem?_append_right (by simpa using small)] at value
    rw [if_neg small]
    exact (List.mem_replicate.mp (List.mem_of_getElem? value)).2

/-- Where the values are the parameters in their order, every column has its value exactly when every
parameter is kept. -/
theorem positional_iff {insert : Insert} (issued : insert ∈ inserts)
    (positional : insert.Positional) {params : List Param} (arity : params.length = insert.arity) :
    ((∀ param ∈ params, Plain param.stored) ∧
      ∀ (index : Nat) (assignment : Bytes × Expression),
        insert.assignments[index]? = some assignment →
        Represents ((params[index]?).map Param.stored) (assignment.2.denotes params)) ↔
      ∀ param ∈ params, param.Kept := by
  have enough := (insert_columns insert issued).2.2.1
  constructor
  · rintro ⟨plain, positions⟩ param member
    obtain ⟨index, there⟩ := List.getElem?_of_mem member
    obtain ⟨small, -⟩ := List.getElem?_eq_some_iff.mp there
    have inside : index < insert.assignments.length := by omega
    have read := positions index _ (List.getElem?_eq_getElem inside)
    rw [positional.value (List.getElem?_eq_getElem inside), if_pos (arity ▸ small), there] at read
    exact (represents_stored_iff there (plain param member)).mp read
  · intro kept
    have plain : ∀ param ∈ params, Plain param.stored := by
      intro param member
      cases param with
      | text value =>
        have plain : Plain value := kept (.text value) member
        rw [Param.stored, cString_terminated plain.2]
        exact plain
      | int number => exact plain_decimal _
      | null => exact absurd (kept .null member) id
    refine ⟨plain, fun index assignment there => ?_⟩
    rw [positional.value there]
    by_cases small : index < insert.arity
    · obtain ⟨param, found⟩ : ∃ param, params[index]? = some param :=
        ⟨_, List.getElem?_eq_getElem (arity ▸ small)⟩
      have member := List.mem_of_getElem? found
      rw [if_pos small, found]
      exact (represents_stored_iff found (plain param member)).mpr (kept param member)
    · rw [if_neg small, List.getElem?_eq_none (by omega)]
      rfl

/-- Nothing that is stored is both empty and a number. -/
theorem not_represents_int (number : Int) : ¬ Represents (some []) (.int number) := by
  intro same
  exact decimal_ne_nil number (Option.some.inj same).symm

/-- Where a literal stands among the values, no parameters fill all columns rightly: the last
parameter is lost, so it is `NULL`; the column in front of it has the empty text, and so has the
column where the literal should be. -/
theorem shifted_never {literal : Value} {before last : Param}
    (shift : Represents (some before.stored) literal)
    (next : Represents (some last.stored) ((Expression.param 1).denotes [before]))
    (lost : Represents none ((Expression.param 1).denotes [last])) : literal = .text [] := by
  cases last with
  | text value => simp [Represents, Expression.denotes] at lost
  | int number => simp [Represents, Expression.denotes] at lost
  | null =>
    cases before with
    | text value =>
      simp only [Represents, Expression.denotes, Param.stored, List.getElem?_cons_zero,
        Nat.sub_self, Option.some.injEq] at next
      subst next
      cases literal with
      | null => cases shift
      | text value => exact congrArg Value.text (Option.some.inj shift).symm
      | int number => exact absurd shift (not_represents_int number)
    | int number => exact absurd next (not_represents_int number)
    | null => cases next

/-- The row of an artifact is never what the statement says. -/
theorem insertArtifact_never {params : List Param} (arity : params.length = 10)
    (positions : ∀ (index : Nat) (assignment : Bytes × Expression),
      insertArtifact.assignments[index]? = some assignment →
      Represents ((params[index]?).map Param.stored) (assignment.2.denotes params)) : False := by
  obtain ⟨before, there⟩ : ∃ param, params[8]? = some param :=
    ⟨_, List.getElem?_eq_getElem (by omega)⟩
  obtain ⟨last, end'⟩ : ∃ param, params[9]? = some param :=
    ⟨_, List.getElem?_eq_getElem (by omega)⟩
  have shift := positions 8 (bytes "status", .text (bytes "pending")) rfl
  have next := positions 9 (bytes "size_bytes", .param 9) rfl
  have lost := positions 10 (bytes "pending_since", .param 10) rfl
  simp only [Expression.denotes, there, end', Nat.reduceSub, Option.map_some,
    List.getElem?_eq_none (show params.length ≤ 10 by omega), Option.map_none] at shift next lost
  have empty : Value.text (bytes "pending") = .text [] := shifted_never shift next lost
  injection empty with same
  revert same
  decide

/-- The row of a peer is never what the statement says. -/
theorem insertPeer_never {params : List Param} (arity : params.length = 7)
    (positions : ∀ (index : Nat) (assignment : Bytes × Expression),
      insertPeer.assignments[index]? = some assignment →
      Represents ((params[index]?).map Param.stored) (assignment.2.denotes params)) : False := by
  obtain ⟨before, there⟩ : ∃ param, params[5]? = some param :=
    ⟨_, List.getElem?_eq_getElem (by omega)⟩
  obtain ⟨last, end'⟩ : ∃ param, params[6]? = some param :=
    ⟨_, List.getElem?_eq_getElem (by omega)⟩
  have shift := positions 5 (bytes "enabled", .number 1) rfl
  have next := positions 6 (bytes "public_key", .param 6) rfl
  have lost := positions 7 (bytes "added_at", .param 7) rfl
  simp only [Expression.denotes, there, end', Nat.reduceSub, Option.map_some,
    List.getElem?_eq_none (show params.length ≤ 7 by omega), Option.map_none] at shift next lost
  have empty : Value.int 1 = .text [] := shifted_never shift next lost
  cases empty

/-! ## Insertion as a whole -/

/-- A row is stored as the statement says exactly when its key fits its buffer and, if it is new, its
statement takes the parameters in their order and each of them is kept. -/
theorem keepsInsert_iff (store : KvStore) (insert : Insert) (issued : insert ∈ inserts)
    (params : List Param) (arity : params.length = insert.arity) :
    KeepsInsert store insert params ↔ InsertFits store insert params := by
  have fresh (pk : Bytes) (rest : List Param) (shape : params = .text pk :: rest)
      (new : store.get (kvKey insert.table pk) = none) :
      kvExecP store insert.sql params =
        (.ok, store.put (kvKey insert.table pk) (encodeRow (insert.row params))) := by
    rw [shape]
    exact kvExecP_insert issued new
  have whole : ((∀ param ∈ params, Plain param.stored) ∧
      ∀ (index : Nat) (assignment : Bytes × Expression),
        insert.assignments[index]? = some assignment →
        Represents ((params[index]?).map Param.stored) (assignment.2.denotes params)) ↔
      insert.Positional ∧ ∀ param ∈ params, param.Kept := by
    rcases positional_cases insert issued with positional | ⟨same, ten⟩ | ⟨same, seven⟩
    · rw [positional_iff issued positional arity]
      exact (and_iff_right positional).symm
    · refine iff_of_false (fun all => insertArtifact_never (arity.trans ten) (same ▸ all.2)) ?_
      rintro ⟨positional, -⟩
      unfold Insert.Positional at positional
      rw [same, ten] at positional
      revert positional
      decide
    · refine iff_of_false (fun all => insertPeer_never (arity.trans seven) (same ▸ all.2)) ?_
      rintro ⟨positional, -⟩
      unfold Insert.Positional at positional
      rw [same, seven] at positional
      revert positional
      decide
  constructor
  · rintro ⟨stored, separate⟩ pk rest shape
    refine ⟨(kvKey_separate_iff _ _).mp (separate pk rest shape), fun new => ?_⟩
    have ran := fresh pk rest shape new
    obtain ⟨data, found, represents⟩ := stored (by rw [ran]) pk rest shape new
    rw [ran, KvStore.get_put_self] at found
    obtain rfl := Option.some.inj found
    exact whole.mp ((represents_iff issued arity).mp represents)
  · intro fits
    constructor
    · intro _ pk rest shape new
      rw [fresh pk rest shape new]
      refine ⟨_, KvStore.get_put_self _ _ _, ?_⟩
      exact (represents_iff issued arity).mpr (whole.mpr ((fits pk rest shape).2 new))
    · intro pk rest shape
      exact (kvKey_separate_iff _ _).mpr (fits pk rest shape).1

/-- A store without rows. -/
def emptyStore : KvStore := ⟨[], by decide +kernel⟩

/-- The parameters for an artifact. -/
def artifactParams : List Param :=
  [.text (bytes "org.acme:core:1.0.0:any"), .text (bytes "org.acme"), .text (bytes "core"),
    .text (bytes "1.0.0"), .text (bytes "any"), .text (bytes "9f86d0"), .text (bytes "9f86d0"),
    .int 0, .int 120, .text (bytes "2026-01-01T00:00:00Z")]

/-- The status of a new artifact is its size. -/
theorem newArtifact_shifted :
    (kvExecP emptyStore insertArtifact.sql artifactParams).1 = .ok ∧
    ¬ KeepsInsert emptyStore insertArtifact artifactParams := by
  have ran : kvExecP emptyStore insertArtifact.sql artifactParams = (.ok, emptyStore.put
      (kvKey insertArtifact.table (bytes "org.acme:core:1.0.0:any"))
      (encodeRow (insertArtifact.row artifactParams))) :=
    kvExecP_insert (by simp [inserts]) rfl
  refine ⟨by rw [ran], fun keeps => ?_⟩
  obtain ⟨data, found, represents⟩ :=
    keeps.stored (by rw [ran]) (bytes "org.acme:core:1.0.0:any") _ rfl rfl
  have status := represents (bytes "status", .text (bytes "pending")) (by decide +kernel)
  rw [ran, KvStore.get_put_self] at found
  obtain rfl := Option.some.inj found
  have shifted : (decodeRow (encodeRow (insertArtifact.row artifactParams))).lookup
      (bytes "status") = some (bytes "120") := by decide +kernel
  have clash := Option.some.inj (shifted.symm.trans status)
  revert clash
  decide

/-- A revocation is stored as its statement says. -/
theorem keepsInsert_revocation :
    KeepsInsert emptyStore insertRevocation
      [.text (bytes "j1"), .text (bytes "alice"), .text (bytes "2026"), .text (bytes "9")] ↔
    InsertFits emptyStore insertRevocation
      [.text (bytes "j1"), .text (bytes "alice"), .text (bytes "2026"), .text (bytes "9")] :=
  keepsInsert_iff emptyStore insertRevocation (by simp [inserts]) _ rfl

end Cookbook.Kv
