import Cookbook.Http.Shim
import Cookbook.Library.Floating
import Cookbook.Server.BodyScans
import Cookbook.Server.ResolveOrder
import Cookbook.Server.Serve

/-!
# The headers of a yanked artifact

A yank stores the reason that its request gives. Every later download prints the stored reason into a
header line of its response, and the lines are read back out of the printed text.
-/
namespace Cookbook.Server

open Library.Text Http

/-! ## From the request to the response -/

/-- `reason`: what a yank takes from its request, empty without a body. -/
def yankReason (request : Request) : Outcome Bytes :=
  match readBody request BodyHandler.yank.maxBytes with
  | none => .done []
  | some body =>
    if body = [] then .done []
    else
      (BodyHandler.yank.scan body.length (body ++ request.behindBody)).bind fun
        | .yank reason => .done reason
        | _ => .done []

/-- A row behind the `UPDATE` of a yank. -/
def ArtifactRow.yank (row : ArtifactRow) (reason : Bytes) : ArtifactRow :=
  { row with yanked := 1, yankReason := if reason = [] then none else some reason }

/-- A row as `yankedQuery` answers it. -/
def ArtifactRow.yankedColumns (row : ArtifactRow) : Row :=
  [some (decimal row.yanked), row.yankReason]

/-- `WHERE group_id = ?1 AND artifact = ?2 AND version = ?3` -/
def ArtifactRow.isAt (row : ArtifactRow) (group artifact version : Bytes) : Bool :=
  row.groupId == group && row.artifact == artifact && row.version == version

/-- The `UPDATE` of a yank. -/
def Database.yank (db : Database) (group artifact version reason : Bytes) : Database :=
  { db with artifacts := db.artifacts.map fun row =>
      if row.isAt group artifact version then row.yank reason else row }

/-- What `yankedQuery` answers. -/
def Database.yankedRows (db : Database) (group artifact version : Bytes) : List Row :=
  ((db.artifacts.filter (·.isAt group artifact version)).take 1).map ArtifactRow.yankedColumns

/-- A header field as it is printed. -/
def printedField (field : Bytes × Bytes) : Bytes := field.1 ++ colon :: space :: field.2 ++ crlf

/-- `yanked_hdrs` -/
def yankedHdrs (rows : List Row) : Bytes := snprintf 384 ((yankedFields rows).flatMap printedField)

/-- How `handle_artifact` serves an artifact. -/
inductive Served
  /-- A descriptor as JSON -/
  | json
  /-- A descriptor in its pretty form, compressed -/
  | prettyGzip
  /-- A descriptor in its pretty form -/
  | pretty
  /-- The file as it is -/
  | stored (path filename : Bytes)

/-- The fields in front of the length. -/
def Served.fields : Served → List (Bytes × Bytes)
  | json => [(ascii "Content-Type", ascii "application/json")]
  | prettyGzip =>
    [(ascii "Content-Type", ascii "application/x-pasta; charset=US-ASCII"),
      (ascii "Content-Encoding", ascii "gzip")]
  | pretty => [(ascii "Content-Type", ascii "application/x-pasta; charset=US-ASCII")]
  | stored path filename => [(ascii "Content-Type", contentType path filename)]

/-- What is printed in front of the body. -/
def Served.head (served : Served) (length : Nat) (hdrs : Bytes) : Bytes :=
  ascii "HTTP/1.1 200 OK\r\n" ++ served.fields.flatMap printedField ++
    printedField (ascii "Content-Length", decimalNat length) ++ hdrs ++ crlf

/-- The fields of the yank that the response is to have. -/
def reasonFields (reason : Bytes) : List (Bytes × Bytes) :=
  (ascii "X-Now-Yanked", ascii "true") ::
    if reason = [] then [] else [(ascii "X-Now-Yank-Reason", reason)]

/-- The header section of a download is the intended one. -/
structure HeadersIntended (served : Served) (length : Nat) (rows : List Row) (reason : Bytes) :
    Prop where
  /-- The status and exactly the intended fields are set, and no body is started. -/
  answers : shimPrintf Shim.fresh (served.head length (yankedHdrs rows)) =
    some ⟨true, 200, served.fields ++ reasonFields reason, []⟩
  /-- Every field stays on its line. -/
  lines : ∀ field ∈ served.fields ++ reasonFields reason,
    carriageReturn ∉ field.2 ∧ newline ∉ field.2

/-- Behind a yank, every download of the artifact answers with the intended header section, as long as
the two columns stand as the yank has left them. -/
structure ReasonCarried (request : Request) (db : Database) (group artifact version : Bytes) :
    Prop where
  /-- The reason is carried by every later response. -/
  carried : ∀ reason, yankReason request = .done reason → ∀ later : Database,
    later.yankedRows group artifact version =
      (db.yank group artifact version reason).yankedRows group artifact version →
    ∀ (served : Served) (length : Nat), length < 2 ^ 64 →
      HeadersIntended served length (later.yankedRows group artifact version) reason

/-- A reason that a header line can carry: it has no line break and does not start with a blank. -/
structure PlainReason (reason : Bytes) : Prop where
  /-- No carriage return -/
  noReturn : carriageReturn ∉ reason
  /-- No line feed -/
  noNewline : newline ∉ reason
  /-- No blank in front -/
  noBlank : reason.head? ≠ some space

/-! ## Header lines -/

/-- A field that is read back from its line. -/
structure ReadBack (field : Bytes × Bytes) : Prop where
  /-- There is a name. -/
  named : field.1 ≠ []
  /-- The name ends neither itself nor the line. -/
  name_plain : colon ∉ field.1 ∧ carriageReturn ∉ field.1 ∧ newline ∉ field.1 ∧ 0 ∉ field.1
  /-- The value does not end the line. -/
  value_plain : carriageReturn ∉ field.2 ∧ newline ∉ field.2 ∧ 0 ∉ field.2
  /-- The value does not start with a blank. -/
  trimmed : field.2.head? ≠ some space
  /-- There is a value, and both fit their buffers. -/
  fits : field.2 ≠ [] ∧ field.1.length ≤ 127 ∧ field.2.length ≤ 1023

/-- A field as a header line. -/
def headerLine (field : Bytes × Bytes) (reads : ReadBack field) : HeaderLine :=
  ⟨field.1, field.2, reads.named, reads.name_plain, reads.value_plain, reads.trimmed⟩

/-- The fields as header lines. -/
def headerLines (fields : List (Bytes × Bytes)) (reads : ∀ field ∈ fields, ReadBack field) :
    List HeaderLine :=
  fields.pmap headerLine reads

/-- The lines print the fields. -/
theorem headerLines_text (fields : List (Bytes × Bytes)) (reads : ∀ field ∈ fields, ReadBack field) :
    (headerLines fields reads).flatMap HeaderLine.text = fields.flatMap printedField := by
  induction fields with
  | nil => rfl
  | cons field fields ih =>
    exact congrArg₂ (· ++ ·) rfl (ih fun other member => reads other (List.mem_cons_of_mem _ member))

/-- All but the length count. -/
theorem headerLines_counted (fields : List (Bytes × Bytes))
    (reads : ∀ field ∈ fields, ReadBack field) :
    countedPairs (headerLines fields reads) =
      fields.filter fun field => field.1.map lower ≠ ascii "content-length" := by
  induction fields with
  | nil => rfl
  | cons field fields ih =>
    have rest := ih fun other member => reads other (List.mem_cons_of_mem _ member)
    by_cases counts : field.1.map lower = ascii "content-length"
    · rw [List.filter_cons_of_neg (by simpa using counts), ← rest, countedPairs, headerLines,
        List.pmap_cons, List.filter_cons_of_neg]
      · rfl
      · exact fun held => of_decide_eq_true held counts
    · rw [List.filter_cons_of_pos (by simpa using counts), ← rest, countedPairs, headerLines,
        List.pmap_cons, List.filter_cons_of_pos]
      · rfl
      · exact decide_eq_true counts

/-- The names of the fields of a download, in their order. -/
def downloadNames : List Bytes :=
  [ascii "Content-Type", ascii "Content-Encoding", ascii "Content-Length", ascii "X-Now-Yanked",
    ascii "X-Now-Yank-Reason"]

/-- They differ, and none says how the body is transferred. -/
theorem downloadNames_unreplaced :
    downloadNames.Pairwise (fun left right => Grid.sameName left right = false) ∧
      ∀ name ∈ downloadNames, Grid.sameName name (ascii "Transfer-Encoding") = false := by
  decide +kernel

/-- Lines of such fields do not replace one another. -/
theorem headerLines_unreplaced {fields : List (Bytes × Bytes)}
    (reads : ∀ field ∈ fields, ReadBack field)
    (names : (fields.map Prod.fst).Sublist downloadNames) : Unreplaced (headerLines fields reads) := by
  have distinct : Grid.Distinct fields :=
    List.pairwise_map.mp (downloadNames_unreplaced.1.sublist names)
  apply Unreplaced.mk
  · rw [headerLines_counted]
    exact distinct.sublist List.filter_sublist
  · intro line member _
    obtain ⟨field, inside, rfl⟩ := List.mem_pmap.mp member
    have known : field.1 ∈ downloadNames := names.mem (List.mem_map_of_mem inside)
    exact downloadNames_unreplaced.2 field.1 known

/-- A response of a short head of such fields sets exactly the fields that count. -/
theorem shimPrintf_fields {fields : List (Bytes × Bytes)} (reads : ∀ field ∈ fields, ReadBack field)
    (names : (fields.map Prod.fst).Sublist downloadNames)
    (short : (fields.flatMap printedField).length ≤ 16000) :
    shimPrintf Shim.fresh (ascii "HTTP/1.1 200 OK\r\n" ++ fields.flatMap printedField ++ crlf) =
      some ⟨true, 200, fields.filter fun field => field.1.map lower ≠ ascii "content-length", []⟩ := by
  let response : ResponseText :=
    { status := ascii "200"
      reason := ascii "OK"
      lines := headerLines fields reads
      body := []
      threeDigits := ok_threeDigits
      reason_plain := ok_plain
      body_plain := List.not_mem_nil }
  have line : ascii "HTTP/1.1 " ++ ascii "200" ++ space :: ascii "OK" ++ crlf =
      ascii "HTTP/1.1 200 OK\r\n" := by decide
  have status : response.statusLine = ascii "HTTP/1.1 200 OK\r\n" := line
  have text : response.text =
      ascii "HTTP/1.1 200 OK\r\n" ++ fields.flatMap printedField ++ crlf := by
    rw [ResponseText.text, ResponseText.head, status, headerLines_text, List.append_nil]
  have fits : ∀ line ∈ response.lines, line.Counts → line.Fits := by
    intro line member _
    obtain ⟨field, inside, rfl⟩ := List.mem_pmap.mp member
    exact (reads field inside).fits
  have held : response.Held := by
    refine .inl ?_
    have front : (ascii "HTTP/1.1 200 OK\r\n").length = 17 := by decide
    have ends : crlf.length = 2 := rfl
    rw [text, List.length_append, List.length_append, front, ends]
    omega
  have fresh : Shim.fresh.statusSent = false := rfl
  have answered := (response.shimPrintf_answered_iff fresh rfl).mpr
    ⟨fits, headerLines_unreplaced reads names, held⟩
  rw [text] at answered
  rw [answered, ResponseText.answered, headerLines_counted]
  rfl

/-- No value that is read from a line starts with a blank. -/
theorem headerOf_trimmed {text : Bytes} {field : Bytes × Bytes} (read : headerOf text = some field) :
    field.2.head? ≠ some space := by
  have cut (shown : Bytes) (length : Nat) (front : shown.head? ≠ some space) :
      ((shown.take length).take 1023).head? ≠ some space := by
    cases shown with
    | nil => simp
    | cons c shown =>
      cases length with
      | zero => simp
      | succ length => exact front
  obtain ⟨behind, -, read⟩ := Option.bind_eq_some_iff.mp read
  have front : ((behind.drop 1).dropWhile (· == space)).head? ≠ some space := by
    intro blank
    have refused := List.head?_dropWhile_not (· == space) (behind.drop 1)
    rw [blank] at refused
    simp at refused
  obtain ⟨-, read⟩ := (Option.ite_none_left_eq_some).mp read
  cases read
  simp only
  split
  · exact cut _ _ front
  · split
    · exact cut _ _ front
    · simp

/-- Nor does one that the loop reads. -/
theorem readHeaders_trimmed (fuel : Nat) (text : Bytes) :
    ∀ field ∈ readHeaders fuel text, field.2.head? ≠ some space := by
  induction fuel generalizing text with
  | zero => exact fun _ member => absurd member List.not_mem_nil
  | succ fuel ih =>
    intro field member
    cases text with
    | nil => exact absurd member List.not_mem_nil
    | cons c rest =>
      rw [readHeaders] at member
      split at member
      · exact absurd member List.not_mem_nil
      · rcases List.mem_append.mp member with first | later
        · exact headerOf_trimmed (Option.mem_toList.mp first)
        · split at later
          · exact absurd later List.not_mem_nil
          · exact ih _ field later

/-- No field that is set from a printed text has a value that starts with a blank. -/
theorem shimPrintf_trimmed {text : Bytes} {sc : Shim} (printed : shimPrintf Shim.fresh text = some sc) :
    ∀ field ∈ sc.headers, field.2.head? ≠ some space := by
  have unset : ∀ field ∈ Shim.fresh.headers, field.2.head? ≠ some space :=
    fun _ member => absurd member List.not_mem_nil
  have headers (status : Int) {fields : List (Bytes × Bytes)}
      (read : ∀ field ∈ fields, field.2.head? ≠ some space) (data : Bytes) :
      ∀ field ∈ ((Shim.fresh.respond status fields).write data).headers,
        field.2.head? ≠ some space := by
    intro field member
    have set := @Grid.setHeaders_value [] fields (fun value => value.head? ≠ some space) unset read
    exact set field (List.mem_filter.mp member).1
  simp only [shimPrintf] at printed
  split_ifs at printed
  · cases printed
    exact unset
  · split at printed
    · cases printed
      refine headers _ ?_ []
      split
      exacts [readHeaders_trimmed _ _, unset]
    · split_ifs at printed
      · obtain ⟨data, -, rfl⟩ := Option.map_eq_some_iff.mp printed
        refine headers _ ?_ data
        split
        exacts [readHeaders_trimmed _ _, unset]
      · cases printed
        refine headers _ ?_ []
        split
        exacts [readHeaders_trimmed _ _, unset]
  · obtain ⟨data, -, rfl⟩ := Option.map_eq_some_iff.mp printed
    exact unset
  · cases printed
    exact unset

/-! ## Reasons -/

/-- A text that a field is found to have has no terminator: the search for its closing quote saw
none. -/
theorem looseField_terminated {name body text : Bytes}
    (found : looseField name body = .done (.value text)) : 0 ∉ text := by
  obtain ⟨key, -, behind⟩ := bind_eq_done found
  cases key with
  | none => cases behind
  | some key =>
    obtain ⟨value, -, quoted⟩ := bind_eq_done behind
    split_ifs at quoted
    · obtain ⟨closing, search, shown⟩ := bind_eq_done quoted
      cases closing with
      | none => cases shown
      | some closing =>
        cases shown
        exact findChr_zero search
    · cases quoted

/-- A reason that a yank takes is short and has no terminator. -/
theorem yankReason_short {request : Request} {reason : Bytes}
    (taken : yankReason request = .done reason) : reason.length ≤ 255 ∧ 0 ∉ reason := by
  have absent : ([] : Bytes).length ≤ 255 ∧ 0 ∉ ([] : Bytes) :=
    ⟨Nat.zero_le _, List.not_mem_nil⟩
  rw [yankReason] at taken
  split at taken
  · cases taken
    exact absent
  · split_ifs at taken
    · cases taken
      exact absent
    · obtain ⟨fields, scanned, taken⟩ := bind_eq_done taken
      obtain ⟨found, field, shown⟩ := bind_eq_done scanned
      cases shown
      cases taken
      cases found with
      | absent => exact absent
      | bare => exact absent
      | unclosed => exact absent
      | value text =>
        exact ⟨List.length_take_le _ _,
          fun member => looseField_terminated field (List.mem_of_mem_take member)⟩

/-- The columns of a yanked row give exactly the fields of the yank. -/
theorem yankedFields_yank (row : ArtifactRow) {reason : Bytes} (short : reason.length ≤ 255) :
    yankedFields [(row.yank reason).yankedColumns] = reasonFields reason := by
  cases reason with
  | nil => rfl
  | cons c rest =>
    have whole : (c :: rest).take 255 = c :: rest := List.take_of_length_le short
    have columns : yankedFields [(row.yank (c :: rest)).yankedColumns] =
      [(ascii "X-Now-Yanked", ascii "true"), (ascii "X-Now-Yank-Reason", (c :: rest).take 255)] := rfl
    rw [columns, whole]
    rfl

/-- They fit their buffer. -/
theorem yankedHdrs_yank (row : ArtifactRow) {reason : Bytes} (short : reason.length ≤ 255) :
    yankedHdrs [(row.yank reason).yankedColumns] = (reasonFields reason).flatMap printedField ∧
      ((reasonFields reason).flatMap printedField).length ≤ 296 := by
  have bound : ((reasonFields reason).flatMap printedField).length ≤ 296 := by
    have flag : (printedField (ascii "X-Now-Yanked", ascii "true")).length = 20 := by decide
    have name : (ascii "X-Now-Yank-Reason").length = 17 := by decide
    have ends : crlf.length = 2 := rfl
    rw [reasonFields]
    split_ifs
    · rw [List.flatMap_cons, List.length_append, flag]
      decide
    · have second : (printedField (ascii "X-Now-Yank-Reason", reason)).length =
          17 + (reason.length + 1 + 1) + 2 := by
        simp only [printedField, List.length_append, List.length_cons, name, ends]
      rw [List.flatMap_cons, List.flatMap_cons, List.flatMap_nil, List.append_nil,
        List.length_append, flag, second]
      omega
  refine ⟨?_, bound⟩
  rw [yankedHdrs, yankedFields_yank row short]
  exact snprintf_fits (by omega)

/-! ## Runs of yanks -/

/-- A yank of a version. -/
structure Yank where
  /-- `ygroup` -/
  group : Bytes
  /-- `yartifact` -/
  artifact : Bytes
  /-- `yversion` -/
  version : Bytes
  /-- `reason` -/
  reason : Bytes

/-- The version is the one that is yanked. -/
def Yank.Hits (yank : Yank) (group artifact version : Bytes) : Prop :=
  yank.group = group ∧ yank.artifact = artifact ∧ yank.version = version

instance (yank : Yank) (group artifact version : Bytes) :
    Decidable (yank.Hits group artifact version) := inferInstanceAs (Decidable (_ ∧ _))

/-- The database behind successive yanks. -/
def Database.yanks (db : Database) (yanks : List Yank) : Database :=
  yanks.foldl (fun db yank => db.yank yank.group yank.artifact yank.version yank.reason) db

/-- The reason of the last yank of a version. -/
def lastReason (yanks : List Yank) (group artifact version : Bytes) : Option Bytes :=
  (yanks.reverse.find? fun yank => yank.Hits group artifact version).map Yank.reason

/-- A row as the last yank of its version has left it. -/
def ArtifactRow.yankedBy (row : ArtifactRow) : Option Bytes → ArtifactRow
  | none => row
  | some reason => row.yank reason

/-- A yank replaces the flag and the reason of its own version and of no other. -/
theorem filter_yank (db : Database) (yank : Yank) (group artifact version : Bytes) :
    (db.yank yank.group yank.artifact yank.version yank.reason).artifacts.filter
        (·.isAt group artifact version) =
      (db.artifacts.filter (·.isAt group artifact version)).map
        (·.yankedBy (if yank.Hits group artifact version then some yank.reason else none)) := by
  have kept (row : ArtifactRow) : (if row.isAt yank.group yank.artifact yank.version then
      row.yank yank.reason else row).isAt group artifact version =
        row.isAt group artifact version := by
    split_ifs <;> rfl
  rw [Database.yank, List.filter_map]
  simp only [Function.comp_def, kept]
  refine List.map_congr_left fun row inside => ?_
  have here : row.isAt group artifact version = true := (List.mem_filter.mp inside).2
  simp only [ArtifactRow.isAt, Bool.and_eq_true, beq_iff_eq] at here
  obtain ⟨⟨rfl, rfl⟩, rfl⟩ := here
  by_cases hits : yank.Hits row.groupId row.artifact row.version
  · rw [if_pos hits]
    obtain ⟨group, artifact, version⟩ := hits
    rw [if_pos (by simp [ArtifactRow.isAt, group, artifact, version])]
    rfl
  · rw [if_neg hits, if_neg]
    · rfl
    · intro same
      simp only [ArtifactRow.isAt, Bool.and_eq_true, beq_iff_eq] at same
      exact hits ⟨same.1.1.symm, same.1.2.symm, same.2.symm⟩

/-- The rows of a version behind successive yanks. -/
theorem filter_yanks (db : Database) (yanks : List Yank) (group artifact version : Bytes) :
    (db.yanks yanks).artifacts.filter (·.isAt group artifact version) =
      (db.artifacts.filter (·.isAt group artifact version)).map
        (·.yankedBy (lastReason yanks group artifact version)) := by
  induction yanks using List.reverseRecOn with
  | nil => exact (List.map_id _).symm
  | append_singleton yanks yank ih =>
    have step : db.yanks (yanks ++ [yank]) =
        (db.yanks yanks).yank yank.group yank.artifact yank.version yank.reason := by
      rw [Database.yanks, List.foldl_append]
      rfl
    have last : lastReason (yanks ++ [yank]) group artifact version =
        if yank.Hits group artifact version then some yank.reason
        else lastReason yanks group artifact version := by
      rw [lastReason, List.reverse_append, List.reverse_singleton, List.singleton_append,
        List.find?_cons]
      by_cases hits : yank.Hits group artifact version
      · rw [decide_eq_true hits, if_pos hits]
        rfl
      · rw [decide_eq_false hits, if_neg hits]
        rfl
    rw [step, filter_yank, ih, List.map_map, last]
    refine List.map_congr_left fun row _ => ?_
    rw [Function.comp_apply]
    split_ifs
    · -- The later yank replaces what the earlier one has set.
      cases lastReason yanks group artifact version <;> rfl
    · rfl

/-! ## The exact condition -/

instance (field : Bytes × Bytes) : Decidable (ReadBack field) :=
  decidable_of_iff (field.1 ≠ [] ∧
      (colon ∉ field.1 ∧ carriageReturn ∉ field.1 ∧ newline ∉ field.1 ∧ 0 ∉ field.1) ∧
      (carriageReturn ∉ field.2 ∧ newline ∉ field.2 ∧ 0 ∉ field.2) ∧ field.2.head? ≠ some space ∧
      (field.2 ≠ [] ∧ field.1.length ≤ 127 ∧ field.2.length ≤ 1023))
    ⟨fun ⟨named, name, value, trimmed, fits⟩ => ⟨named, name, value, trimmed, fits⟩,
      fun reads => ⟨reads.named, reads.name_plain, reads.value_plain, reads.trimmed, reads.fits⟩⟩

/-- The content types of stored files. -/
def contentTypes : List Bytes :=
  [ascii "text/plain", ascii "application/octet-stream",
    ascii "application/x-pasta; charset=US-ASCII", ascii "application/gzip",
    ascii "application/zstd"]

/-- A stored file has one of them. -/
theorem contentType_mem (path filename : Bytes) : contentType path filename ∈ contentTypes := by
  unfold contentType contentTypes
  split_ifs <;> simp

/-- The fields in front of the length are read back, are not about the length, and are short. -/
theorem Served.fields_readBack (served : Served) :
    (∀ field ∈ served.fields, ReadBack field ∧ field.1.map lower ≠ ascii "content-length") ∧
      (served.fields.flatMap printedField).length ≤ 100 := by
  cases served with
  | json => decide +kernel
  | prettyGzip => decide +kernel
  | pretty => decide +kernel
  | stored path filename =>
    have all : ∀ ct ∈ contentTypes,
        (∀ field ∈ [(ascii "Content-Type", ct)],
          ReadBack field ∧ field.1.map lower ≠ ascii "content-length") ∧
        ([(ascii "Content-Type", ct)].flatMap printedField).length ≤ 100 := by decide +kernel
    exact all _ (contentType_mem path filename)

/-- They have their names in front of that of the length. -/
theorem Served.fields_names (served : Served) :
    (served.fields.map Prod.fst).Sublist [ascii "Content-Type", ascii "Content-Encoding"] := by
  cases served with
  | json => exact (List.nil_sublist _).cons_cons _
  | prettyGzip => exact List.Sublist.refl _
  | pretty => exact (List.nil_sublist _).cons_cons _
  | stored path filename => exact (List.nil_sublist _).cons_cons _

/-- The field of the length is read back, and is short. -/
theorem lengthField_readBack {length : Nat} (bounded : length < 2 ^ 64) :
    ReadBack (ascii "Content-Length", decimalNat length) ∧
      (printedField (ascii "Content-Length", decimalNat length)).length ≤ 100 := by
  have digits := decimalNat_spec length
  have short : (decimalNat length).length ≤ 20 := Library.Floating.decimalNat_length 19 (by omega)
  have absent (c : UInt8) (other : isDecimal c = false) : c ∉ decimalNat length := fun member => by
    rw [(digits.2.1 c member).1] at other
    cases other
  have name : (ascii "Content-Length") ≠ [] ∧ (colon ∉ ascii "Content-Length" ∧
      carriageReturn ∉ ascii "Content-Length" ∧ newline ∉ ascii "Content-Length" ∧
      0 ∉ ascii "Content-Length") ∧ (ascii "Content-Length").length = 14 := by decide
  refine ⟨⟨name.1, name.2.1, ⟨absent _ rfl, absent _ rfl, absent _ rfl⟩, ?_, digits.1, ?_, ?_⟩, ?_⟩
  · intro blank
    exact absent space rfl (List.mem_of_mem_head? blank)
  · simp only [name.2.2]
    omega
  · simp only
    omega
  · have ends : crlf.length = 2 := rfl
    simp only [printedField, List.length_append, List.length_cons, name.2.2, ends]
    omega

/-- The fields of a plain reason are read back, and are not about the length. -/
theorem reasonFields_readBack {reason : Bytes} (plain : PlainReason reason)
    (short : reason.length ≤ 255) (terminated : 0 ∉ reason) :
    ∀ field ∈ reasonFields reason,
      ReadBack field ∧ field.1.map lower ≠ ascii "content-length" := by
  have flag : ReadBack (ascii "X-Now-Yanked", ascii "true") ∧
      (ascii "X-Now-Yanked").map lower ≠ ascii "content-length" := by decide
  have name : (ascii "X-Now-Yank-Reason" ≠ [] ∧ (colon ∉ ascii "X-Now-Yank-Reason" ∧
      carriageReturn ∉ ascii "X-Now-Yank-Reason" ∧ newline ∉ ascii "X-Now-Yank-Reason" ∧
      0 ∉ ascii "X-Now-Yank-Reason") ∧ (ascii "X-Now-Yank-Reason").length ≤ 127) ∧
      (ascii "X-Now-Yank-Reason").map lower ≠ ascii "content-length" := by decide
  intro field member
  rw [reasonFields] at member
  rcases List.mem_cons.mp member with rfl | member
  · exact flag
  · split_ifs at member with empty
    · exact absurd member List.not_mem_nil
    · obtain rfl := List.mem_singleton.mp member
      exact ⟨⟨name.1.1, name.1.2.1, ⟨plain.noReturn, plain.noNewline, terminated⟩, plain.noBlank,
        empty, name.1.2.2, short.trans (by omega)⟩, name.2⟩

/-- They have their names in this order. -/
theorem reasonFields_names (reason : Bytes) :
    ((reasonFields reason).map Prod.fst).Sublist
      [ascii "X-Now-Yanked", ascii "X-Now-Yank-Reason"] := by
  rw [reasonFields]
  split_ifs
  · exact (List.nil_sublist _).cons_cons _
  · exact List.Sublist.refl _

/-- The reason stands in its field. -/
theorem reasonFields_mem {reason : Bytes} (given : reason ≠ []) :
    (ascii "X-Now-Yank-Reason", reason) ∈ reasonFields reason := by
  rw [reasonFields, if_neg given]
  exact List.mem_cons_of_mem _ (List.mem_singleton.mpr rfl)

/-- Behind yanks of a version that is there, the query answers the columns that the last one has set. -/
theorem yankedRows_yanks {db : Database} {group artifact version reason : Bytes} (yanks : List Yank)
    (there : ∃ row ∈ db.artifacts, row.isAt group artifact version)
    (last : lastReason yanks group artifact version = some reason) :
    ∃ row : ArtifactRow, (db.yanks yanks).yankedRows group artifact version =
      [(row.yank reason).yankedColumns] := by
  obtain ⟨row, member, here⟩ := there
  have filled : row ∈ db.artifacts.filter (·.isAt group artifact version) :=
    List.mem_filter.mpr ⟨member, here⟩
  rw [Database.yankedRows, filter_yanks, last]
  cases found : db.artifacts.filter (·.isAt group artifact version) with
  | nil =>
    rw [found] at filled
    exact absurd filled List.not_mem_nil
  | cons first rest => exact ⟨first, rfl⟩

/-- So it does behind one yank. -/
theorem yankedRows_yank {db : Database} {group artifact version : Bytes}
    (there : ∃ row ∈ db.artifacts, row.isAt group artifact version) (reason : Bytes) :
    ∃ row : ArtifactRow, (db.yank group artifact version reason).yankedRows group artifact version =
      [(row.yank reason).yankedColumns] := by
  have last : lastReason [⟨group, artifact, version, reason⟩] group artifact version = some reason := by
    simp [lastReason, Yank.Hits]
  exact yankedRows_yanks _ there last

/-- Short fields that are read back are set behind those of the download. -/
theorem Served.head_answers (served : Served) {length : Nat} (bounded : length < 2 ^ 64)
    {fields : List (Bytes × Bytes)}
    (reads : ∀ field ∈ fields, ReadBack field ∧ field.1.map lower ≠ ascii "content-length")
    (names : (fields.map Prod.fst).Sublist [ascii "X-Now-Yanked", ascii "X-Now-Yank-Reason"])
    (short : (fields.flatMap printedField).length ≤ 1000) :
    shimPrintf Shim.fresh (served.head length (fields.flatMap printedField)) =
      some ⟨true, 200, served.fields ++ fields, []⟩ := by
  have front := served.fields_readBack
  have middle := lengthField_readBack bounded
  have text : served.head length (fields.flatMap printedField) = ascii "HTTP/1.1 200 OK\r\n" ++
      (served.fields ++ (ascii "Content-Length", decimalNat length) :: fields).flatMap
        printedField ++ crlf := by
    rw [Served.head, List.flatMap_append, List.flatMap_cons]
    simp only [List.append_assoc]
  have all : ∀ field ∈ served.fields ++ (ascii "Content-Length", decimalNat length) :: fields,
      ReadBack field := by
    intro field member
    rcases List.mem_append.mp member with member | member
    · exact (front.1 field member).1
    · rcases List.mem_cons.mp member with rfl | member
      · exact middle.1
      · exact (reads field member).1
  have room : ((served.fields ++ (ascii "Content-Length", decimalNat length) :: fields).flatMap
      printedField).length ≤ 16000 := by
    have first := front.2
    have second := middle.2
    rw [List.flatMap_append, List.flatMap_cons, List.length_append, List.length_append]
    omega
  have keeps (some : List (Bytes × Bytes))
      (counts : ∀ field ∈ some, ReadBack field ∧ field.1.map lower ≠ ascii "content-length") :
      some.filter (fun field => field.1.map lower ≠ ascii "content-length") = some :=
    List.filter_eq_self.mpr fun field member => decide_eq_true (counts field member).2
  -- The field of the length is the one that the stream does not announce.
  have drops : ¬ (ascii "Content-Length").map lower ≠ ascii "content-length" := by decide
  have known : ((served.fields ++ (ascii "Content-Length", decimalNat length) :: fields).map
      Prod.fst).Sublist downloadNames := by
    rw [List.map_append, List.map_cons]
    exact served.fields_names.append (names.cons_cons _)
  rw [text, shimPrintf_fields all known room, List.filter_append, keeps _ front.1,
    List.filter_cons_of_neg (by simpa using drops), keeps _ reads]

/-- A short reason without a terminator gives the intended headers exactly when it is plain. -/
theorem headersIntended_iff (served : Served) {length : Nat} (bounded : length < 2 ^ 64)
    (row : ArtifactRow) {reason : Bytes} (short : reason.length ≤ 255) (terminated : 0 ∉ reason) :
    HeadersIntended served length [(row.yank reason).yankedColumns] reason ↔ PlainReason reason := by
  have hdrs := yankedHdrs_yank row short
  constructor
  · intro intended
    by_cases given : reason = []
    · subst given
      exact ⟨List.not_mem_nil, List.not_mem_nil, by simp⟩
    · have member := List.mem_append_right served.fields (reasonFields_mem given)
      have lines := intended.lines _ member
      exact ⟨lines.1, lines.2, shimPrintf_trimmed intended.answers _ member⟩
  · intro plain
    have reads := reasonFields_readBack plain short terminated
    apply HeadersIntended.mk
    · rw [hdrs.1]
      exact served.head_answers bounded reads (reasonFields_names reason) (hdrs.2.trans (by omega))
    · intro field member
      have read : ReadBack field := by
        rcases List.mem_append.mp member with member | member
        · exact (served.fields_readBack.1 field member).1
        · exact (reads field member).1
      exact ⟨read.value_plain.1, read.value_plain.2.1⟩

/-- A yank of an artifact is followed by the intended responses exactly when the reason that it takes
from its request has no line break and does not start with a blank. -/
theorem reasonCarried_iff (request : Request) {db : Database} {group artifact version : Bytes}
    (there : ∃ row ∈ db.artifacts, row.isAt group artifact version) :
    ReasonCarried request db group artifact version ↔
      ∀ reason, yankReason request = .done reason → PlainReason reason := by
  constructor
  · intro carries reason taken
    obtain ⟨row, columns⟩ := yankedRows_yank there reason
    have intended := carries.carried reason taken _ rfl .json 2 (by omega)
    rw [columns] at intended
    have bounds := yankReason_short taken
    exact (headersIntended_iff .json (by omega) row bounds.1 bounds.2).mp intended
  · intro plain
    refine ⟨fun reason taken later same served length bounded => ?_⟩
    obtain ⟨row, columns⟩ := yankedRows_yank there reason
    have bounds := yankReason_short taken
    rw [same, columns]
    exact (headersIntended_iff served bounded row bounds.1 bounds.2).mpr (plain reason taken)

/-- A registry with one version of an artifact. -/
def oneVersion : Database := { Database.empty with artifacts := [coreRow (ascii "1.0.0")] }

/-- A yank with a body. -/
def yankRequest (body : Bytes) : Request :=
  ⟨ascii "POST", ascii "/artifact/org.acme/core/1.0.0/yank", none, [], body.length, body, [0]⟩

/-- A reason of words is carried. -/
theorem reasonCarried_withdrawn : ReasonCarried
    (yankRequest (ascii "\x7b\"reason\": \"withdrawn by its owner\"\x7d"))
    oneVersion (ascii "org.acme") (ascii "core") (ascii "1.0.0") := by
  refine (reasonCarried_iff _ ⟨_, List.mem_singleton.mpr rfl, by decide +kernel⟩).mpr ?_
  have taken : yankReason (yankRequest (ascii "\x7b\"reason\": \"withdrawn by its owner\"\x7d")) =
      .done (ascii "withdrawn by its owner") := by decide +kernel
  intro reason given
  obtain rfl : ascii "withdrawn by its owner" = reason := by
    rw [taken] at given
    injection given
  exact ⟨by decide +kernel, by decide +kernel, by decide +kernel⟩

/-- A line break in a reason adds a field to every later response. -/
theorem yank_addsField : ∃ (request : Request) (reason : Bytes),
    yankReason request = .done reason ∧
      shimPrintf Shim.fresh (Served.json.head 2 (yankedHdrs
        ((oneVersion.yank (ascii "org.acme") (ascii "core") (ascii "1.0.0") reason).yankedRows
          (ascii "org.acme") (ascii "core") (ascii "1.0.0")))) =
        some ⟨true, 200, Served.json.fields ++ [(ascii "X-Now-Yanked", ascii "true"),
          (ascii "X-Now-Yank-Reason", ascii "old"), (ascii "Set-Cookie", ascii "a=b")], []⟩ ∧
      ¬ ReasonCarried request oneVersion (ascii "org.acme") (ascii "core") (ascii "1.0.0") := by
  have taken : yankReason
      (yankRequest (ascii "\x7b\"reason\": \"old\r\nSet-Cookie: a=b\"\x7d")) =
      .done (ascii "old\r\nSet-Cookie: a=b") := by decide +kernel
  refine ⟨_, _, taken, by decide +kernel, fun carries => ?_⟩
  have intended := carries.carried _ taken _ rfl .json 2 (by omega)
  have lines := intended.lines (ascii "X-Now-Yank-Reason", ascii "old\r\nSet-Cookie: a=b")
    (List.mem_append_right _ (by decide +kernel))
  exact lines.1 (by decide +kernel)

/-! ## Repeated yanks -/

/-- Behind any yanks, a download of a version that was yanked carries the reason of its last yank,
whatever else was yanked, exactly when that reason is plain. -/
theorem yanks_headersIntended_iff (served : Served) {length : Nat} (bounded : length < 2 ^ 64)
    {db : Database} {yanks : List Yank} {group artifact version reason : Bytes}
    (there : ∃ row ∈ db.artifacts, row.isAt group artifact version)
    (last : lastReason yanks group artifact version = some reason)
    (short : reason.length ≤ 255) (terminated : 0 ∉ reason) :
    HeadersIntended served length ((db.yanks yanks).yankedRows group artifact version) reason ↔
      PlainReason reason := by
  obtain ⟨row, columns⟩ := yankedRows_yanks yanks there last
  rw [columns]
  exact headersIntended_iff served bounded row short terminated

/-- A reason of words replaces one with a line break. -/
theorem yanks_headersIntended_replaced : HeadersIntended .json 2
    ((oneVersion.yanks [
      ⟨ascii "org.acme", ascii "core", ascii "1.0.0", ascii "old\r\nSet-Cookie: a=b"⟩,
      ⟨ascii "org.acme", ascii "core", ascii "1.0.0", ascii "withdrawn"⟩]).yankedRows
        (ascii "org.acme") (ascii "core") (ascii "1.0.0")) (ascii "withdrawn") := by
  refine (yanks_headersIntended_iff .json (by omega) ⟨_, List.mem_singleton.mpr rfl, ?_⟩ ?_ ?_ ?_).mpr
    ⟨?_, ?_, ?_⟩
  all_goals decide +kernel

end Cookbook.Server
