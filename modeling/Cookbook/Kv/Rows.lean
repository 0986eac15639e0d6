import Cookbook.Library.Number

/-!
# Rows of the key-value backend

A row is a text of fields `col=val` with tabs between them. What is read back from a written row are
its fields, as long as no value has a tab: no value that is read has one.
-/
namespace Cookbook.Kv

open Library.Text

/-- The sign between a column and its value. -/
@[simp] abbrev equalSign : UInt8 := 0x3D

/-- A column with its value. -/
abbrev Field := Bytes × Bytes

/-- The fields of a row in their order. -/
abbrev Row := List Field

/-! ## Writing and reading -/

/-- `encode_row` -/
def encodeRow (row : Row) : Bytes :=
  (row.flatMap fun field => field.1 ++ equalSign :: field.2 ++ [tab]).dropLast

/-- A pair `col=val`: cut at the first equal sign, and skipped without one. -/
def readField (segment : Bytes) : Option Field :=
  (strchr equalSign segment).map fun found => (segment.takeWhile (· != equalSign), found.drop 1)

/-- The fields of a text. -/
def readFields (text : Bytes) : Row := (text.splitOn tab).filterMap readField

/-- `decode_row`: the row that the callback gets. -/
def decodeRow (data : Bytes) : Row := readFields (cString data)

/-- A value that a row can hold: without a tab, and without the end of a C string. -/
def Plain (value : Bytes) : Prop := tab ∉ value ∧ (0 : UInt8) ∉ value

instance (value : Bytes) : Decidable (Plain value) := inferInstanceAs (Decidable (_ ∧ _))

/-- A column name: a plain text without an equal sign. -/
def IsColumn (column : Bytes) : Prop := Plain column ∧ equalSign ∉ column

instance (column : Bytes) : Decidable (IsColumn column) := inferInstanceAs (Decidable (_ ∧ _))

/-! ## Texts of fields -/

/-- Texts with a tab between them are read one after the other. -/
theorem readFields_append (front rest : Bytes) :
    readFields (front ++ tab :: rest) = readFields front ++ readFields rest := by
  unfold readFields
  rw [List.splitOn_append_cons_self, List.filterMap_append]

/-- A text without a tab is one field at most. -/
theorem readFields_free {text : Bytes} (free : tab ∉ text) :
    readFields text = (readField text).toList := by
  unfold readFields
  rw [List.splitOn_eq_singleton free]
  cases found : readField text with
  | none => simp [found]
  | some field => simp [found]

/-- A column in front of an equal sign is read back with whatever stands behind the sign. -/
theorem readField_column {column : Bytes} (value : Bytes) (free : equalSign ∉ column) :
    readField (column ++ equalSign :: value) = some (column, value) := by
  unfold readField
  rw [strchr_stop column free, takeWhile_ne_stop free]
  rfl

/-- A field of a column is read back. -/
theorem readFields_column {column value : Bytes} (name : IsColumn column) (plain : tab ∉ value) :
    readFields (column ++ equalSign :: value) = [(column, value)] := by
  rw [readFields_free (by simp [name.1.1, plain]), readField_column value name.2]
  rfl

/-- A piece between separators has none, and stands in the text; the first one starts it. -/
theorem splitOn_pieces (separator : UInt8) (text : Bytes) :
    (∀ first ∈ (text.splitOn separator).head?, first <+: text) ∧
      ∀ piece ∈ text.splitOn separator, separator ∉ piece ∧ piece <:+: text := by
  induction text with
  | nil =>
    rw [List.splitOn_nil]
    simp
  | cons c text ih =>
    obtain ⟨first, others, shape⟩ := List.exists_cons_of_ne_nil (List.splitOn_ne_nil separator text)
    rw [List.splitOn_cons_eq_if_modifyHead]
    rw [shape] at ih ⊢
    have front : first <+: text := ih.1 first rfl
    split
    · refine ⟨by simp, fun piece member => ?_⟩
      rcases List.mem_cons.mp member with rfl | member
      · exact ⟨by simp, List.nil_infix⟩
      · exact ⟨(ih.2 piece member).1, List.infix_cons (ih.2 piece member).2⟩
    · next other =>
      have apart : c ≠ separator := by simpa using other
      rw [List.modifyHead_cons]
      refine ⟨by simp [front], fun piece member => ?_⟩
      rcases List.mem_cons.mp member with rfl | member
      · refine ⟨?_, (List.cons_prefix_cons.mpr ⟨rfl, front⟩).isInfix⟩
        simp [apart.symm, (ih.2 first List.mem_cons_self).1]
      · have inside := ih.2 piece (List.mem_cons_of_mem _ member)
        exact ⟨inside.1, List.infix_cons inside.2⟩

/-- A field that is read is all of its segment. -/
theorem readField_some {segment : Bytes} {field : Field} (read : readField segment = some field) :
    segment = field.1 ++ equalSign :: field.2 ∧ equalSign ∉ field.1 := by
  obtain ⟨found, search, rfl⟩ := Option.map_eq_some_iff.mp read
  constructor
  · unfold strchr at search
    split at search
    · cases search
    · next c rest ends =>
      cases search
      have stop : c = equalSign := by
        have := List.head_dropWhile_not (p := (· != equalSign)) (l := segment) (by simp [ends])
        simpa [ends] using this
      have pieces := List.takeWhile_append_dropWhile (p := (· != equalSign)) (l := segment)
      rw [ends, stop] at pieces
      simpa using pieces.symm
  · intro member
    have := List.mem_takeWhile_imp member
    simp at this

/-- A value that is read is plain. -/
theorem decodeRow_plain {data : Bytes} {field : Field} (member : field ∈ decodeRow data) :
    Plain field.2 := by
  obtain ⟨segment, inside, read⟩ := List.mem_filterMap.mp member
  obtain ⟨free, within⟩ := (splitOn_pieces tab (cString data)).2 segment inside
  obtain ⟨whole, -⟩ := readField_some read
  have belongs : ∀ c ∈ field.2, c ∈ segment := fun c member => by
    rw [whole]
    exact List.mem_append_right _ (List.mem_cons_of_mem _ member)
  refine ⟨fun member => free (belongs tab member), fun zero => ?_⟩
  exact zero_notMem_cString data (within.subset (belongs 0 zero))

/-! ## Written rows -/

/-- A row of one field is written without a tab behind it. -/
theorem encodeRow_singleton (field : Field) :
    encodeRow [field] = field.1 ++ equalSign :: field.2 := by
  unfold encodeRow
  rw [List.flatMap_singleton, List.dropLast_concat]

/-- The first field of a longer row is written in front of a tab. -/
theorem encodeRow_cons (field next : Field) (rest : Row) :
    encodeRow (field :: next :: rest) =
      field.1 ++ equalSign :: field.2 ++ tab :: encodeRow (next :: rest) := by
  have nonempty : (next :: rest).flatMap (fun field =>
      field.1 ++ equalSign :: field.2 ++ [tab]) ≠ [] := by simp
  unfold encodeRow
  rw [List.flatMap_cons, List.dropLast_append_of_ne_nil nonempty]
  simp

/-- A row whose columns are columns and whose values are plain. -/
def PlainRow (row : Row) : Prop := ∀ field ∈ row, IsColumn field.1 ∧ Plain field.2

/-- Plain fields in front are read back, and what stands behind them is read for itself. -/
theorem decodeRow_front {front : Row} (plain : PlainRow front) (field : Field) (rest : Row) :
    decodeRow (encodeRow (front ++ field :: rest)) =
      front ++ decodeRow (encodeRow (field :: rest)) := by
  induction front with
  | nil => rfl
  | cons first front ih =>
    obtain ⟨name, value⟩ := plain first List.mem_cons_self
    have later := ih fun other member => plain other (List.mem_cons_of_mem _ member)
    obtain ⟨next, others, shape⟩ : ∃ next others, front ++ field :: rest = next :: others :=
      List.exists_cons_of_ne_nil (by simp)
    rw [List.cons_append, shape, encodeRow_cons, ← shape]
    have free : (0 : UInt8) ∉ first.1 ++ equalSign :: first.2 ++ [tab] := by
      simp [name.1.2, value.2]
    have cut : cString (first.1 ++ equalSign :: first.2 ++ tab ::
        encodeRow (front ++ field :: rest)) = first.1 ++ equalSign :: first.2 ++ tab ::
          cString (encodeRow (front ++ field :: rest)) := by
      unfold cString
      rw [show first.1 ++ equalSign :: first.2 ++ tab :: encodeRow (front ++ field :: rest) =
        (first.1 ++ equalSign :: first.2 ++ [tab]) ++ encodeRow (front ++ field :: rest) by simp,
        List.takeWhile_append_of_pos]
      · simp
      · intro c member
        have other : c ≠ 0 := fun same => free (same ▸ member)
        simp [other]
    unfold decodeRow at later ⊢
    rw [cut, readFields_append, later, readFields_column name value.1]
    rfl

/-- A plain row is read back. -/
theorem decodeRow_encodeRow {row : Row} (plain : PlainRow row) :
    decodeRow (encodeRow row) = row := by
  induction row using List.reverseRecOn with
  | nil => decide
  | append_singleton front last ih =>
    rw [decodeRow_front (fun field member => plain field (List.mem_append_left _ member)),
      encodeRow_singleton]
    obtain ⟨name, value⟩ := plain last (by simp)
    unfold decodeRow
    rw [cString_terminated (by simp [name.1.2, value.2]), readFields_column name value.1]

/-- The text in the buffer of `encode_row`: without columns nothing is written into it, not even an end. -/
def rowText (row : Row) : Option Bytes := if row = [] then none else some (encodeRow row)

/-- A row is delivered as it was stored if and only if it has columns and none of its values has a
tab. -/
theorem rowText_delivered_iff (row : Row) (columns : ∀ field ∈ row, IsColumn field.1)
    (terminated : ∀ field ∈ row, (0 : UInt8) ∉ field.2) :
    (rowText row).map decodeRow = some row ↔ row ≠ [] ∧ ∀ field ∈ row, tab ∉ field.2 := by
  by_cases empty : row = []
  · simp [rowText, empty]
  rw [rowText, if_neg empty, Option.map_some, Option.some.injEq]
  constructor
  · intro delivered
    refine ⟨empty, fun field member => ?_⟩
    rw [← delivered] at member
    exact (decodeRow_plain member).1
  · rintro ⟨-, free⟩
    exact decodeRow_encodeRow fun field member =>
      ⟨columns field member, free field member, terminated field member⟩

/-- A group with its description. -/
def groupRow (description : Bytes) : Row :=
  [(ascii "group_id", ascii "org.example"), (ascii "description", description)]

theorem rowText_delivered_lines :
    (rowText (groupRow (ascii "mirrors = 2,\nsee below"))).map decodeRow =
      some (groupRow (ascii "mirrors = 2,\nsee below")) :=
  (rowText_delivered_iff (groupRow (ascii "mirrors = 2,\nsee below")) (by decide +kernel)
    (by decide +kernel)).mpr (by decide +kernel)

/-- A value comes back cut at its first tab, and what follows the tab as a column of its own. -/
theorem rowText_tab : ¬ ∀ row : Row, (row.map (·.1)).Nodup → (∀ field ∈ row, IsColumn field.1) →
    (∀ field ∈ row, (0 : UInt8) ∉ field.2) → (rowText row).map decodeRow = some row :=
  fun delivered => absurd (delivered (groupRow (ascii "ours:\n\towner_sub=mallory"))
    (by decide +kernel) (by decide +kernel) (by decide +kernel)) (by decide +kernel)

end Cookbook.Kv
