import Cookbook.Grid.GrantHeaders
import Cookbook.Http.Response

/-!
# Printed responses

The handlers print a whole response as a text. `shim_printf` formats the text into a buffer, reads
the status and the header lines back out of the buffer, and writes what stands behind the empty line.
It goes by the length that the text has, not by the length that the buffer holds.
-/
namespace Cookbook.Http

open Library.Text

/-! ## The buffer -/

/-- What `vsnprintf` writes: the text as far as it fits, and a terminator. -/
def printed (text : Bytes) : Bytes := text.take 16383 ++ [0]

/-- The bytes from a position on, none where they are not all written. -/
def readFrom (written : Bytes) (start length : Nat) : Option Bytes :=
  if start + length ≤ written.length then some ((written.drop start).take length) else none

/-- A header line as it is read: its name and its value, in their buffers. A colon is looked for in
everything behind the start of the line. -/
def headerOf (text : Bytes) : Option (Bytes × Bytes) :=
  (strchr colon text).bind fun behind =>
    let name := (text.take (text.length - behind.length)).take 127
    let shown := (behind.drop 1).dropWhile (· == space)
    let value :=
      match strchr carriageReturn shown with
      | some ending => (shown.take (shown.length - ending.length)).take 1023
      | none =>
        match strchr newline shown with
        | some ending => (shown.take (shown.length - ending.length)).take 1023
        | none => []
    if name = [] ∨ value = [] ∨ name.map lower = ascii "content-length" then none
    else some (name, value)

/-- The loop over the header lines, from the start of a line on. -/
def readHeaders : Nat → Bytes → List (Bytes × Bytes)
  | 0, _ => []
  | _ + 1, [] => []
  | fuel + 1, c :: rest =>
    if c = carriageReturn ∨ c = newline then []
    else
      (headerOf (c :: rest)).toList ++
        match strchr newline (c :: rest) with
        | none => []
        | some next => readHeaders fuel (next.drop 1)

/-- What has been answered on a connection. -/
structure Shim where
  /-- `status_sent` -/
  statusSent : Bool
  /-- `resp_status` -/
  respStatus : Int
  /-- The header fields that are set, and from the status on those that are sent in front of the
  framing of the stream. -/
  headers : List (Bytes × Bytes)
  /-- The bytes that were written to the stream. -/
  body : Bytes
  deriving DecidableEq

/-- `http_ctx_stream_write` -/
def Shim.write (sc : Shim) (data : Bytes) : Shim := { sc with body := sc.body ++ data }

/-- The fields that `http_ctx_respond_stream` leaves out: it frames the body itself. -/
def framesBody (name : Bytes) : Bool :=
  Grid.sameName name (ascii "Content-Length") || Grid.sameName name (ascii "Transfer-Encoding")

/-- `http_ctx_set_header` on each of the fields, where a later one replaces the value of an earlier
one of the same name, and `http_ctx_respond_stream`. -/
def Shim.respond (sc : Shim) (status : Int) (headers : List (Bytes × Bytes)) : Shim :=
  { sc with
    statusSent := true
    respStatus := status
    headers := (Grid.setHeaders sc.headers headers).filter fun field => !framesBody field.1 }

/-- `shim_printf`, none where it reads what was not written. A text of more bytes than an `int` can
say is not printed at all. -/
def shimPrintf (sc : Shim) (text : Bytes) : Option Shim :=
  let buf := cString (printed text)
  if text = [] ∨ 2147483647 < text.length then some sc
  else if sc.statusSent = false ∧ ascii "HTTP/1." <+: buf then
    let status :=
      match strchr space buf with
      | some found => atoi (found.drop 1)
      | none => 200
    let headers :=
      match strchr newline buf with
      | some line => readHeaders buf.length (line.drop 1)
      | none => []
    match strstr (crlf ++ crlf) buf with
    | none => some (sc.respond status headers)
    | some found =>
      let start := buf.length - found.length + 4
      if start < text.length then
        (readFrom (printed text) start (text.length - start)).map (sc.respond status headers).write
      else some (sc.respond status headers)
  else if sc.statusSent then (readFrom (printed text) 0 text.length).map sc.write
  else some sc

/-! ## Responses as texts -/

/-- A header line. -/
structure HeaderLine where
  /-- The name. -/
  name : Bytes
  /-- The value. -/
  value : Bytes
  /-- The name is not empty. -/
  named : name ≠ []
  /-- It neither ends the line nor itself. -/
  name_plain : colon ∉ name ∧ carriageReturn ∉ name ∧ newline ∉ name ∧ 0 ∉ name
  /-- The value does not end the line. -/
  value_plain : carriageReturn ∉ value ∧ newline ∉ value ∧ 0 ∉ value
  /-- The blank behind the colon is not part of the value. -/
  trimmed : value.head? ≠ some space

namespace HeaderLine

/-- The line without its end. -/
def front (line : HeaderLine) : Bytes := line.name ++ colon :: space :: line.value

/-- The line with its end. -/
def text (line : HeaderLine) : Bytes := line.front ++ crlf

/-- The line is not about the length, which the stream does not announce. -/
def Counts (line : HeaderLine) : Prop := line.name.map lower ≠ ascii "content-length"

instance (line : HeaderLine) : Decidable line.Counts := inferInstanceAs (Decidable (_ ≠ _))

/-- The name and the value. -/
def pair (line : HeaderLine) : Bytes × Bytes := (line.name, line.value)

/-- A line that is read whole: it has a value, and its parts fit their buffers. -/
def Fits (line : HeaderLine) : Prop :=
  line.value ≠ [] ∧ line.name.length ≤ 127 ∧ line.value.length ≤ 1023

end HeaderLine

/-- The name and the value of each line that counts. -/
def countedPairs (lines : List HeaderLine) : List (Bytes × Bytes) :=
  (lines.filter fun line => line.Counts).map HeaderLine.pair

/-- The lines that count have different names, and none is about the chunks of the stream. -/
structure Unreplaced (lines : List HeaderLine) : Prop where
  /-- No line has the name of another one. -/
  distinct : Grid.Distinct (countedPairs lines)
  /-- No line says how the body is transferred. -/
  unframed : ∀ line ∈ lines, line.Counts →
    Grid.sameName line.name (ascii "Transfer-Encoding") = false

/-- A response as a handler prints it. -/
structure ResponseText where
  /-- The digits of the status. -/
  status : Bytes
  /-- The reason. -/
  reason : Bytes
  /-- The header lines. -/
  lines : List HeaderLine
  /-- The body. -/
  body : Bytes
  /-- The status has three digits. -/
  threeDigits : status.length = 3 ∧ ∀ c ∈ status, isDecimal c = true
  /-- The reason does not end the line. -/
  reason_plain : carriageReturn ∉ reason ∧ newline ∉ reason ∧ 0 ∉ reason
  /-- The body is printed as a string. -/
  body_plain : 0 ∉ body

namespace ResponseText

/-- The status line, with its end. -/
def statusLine (response : ResponseText) : Bytes :=
  ascii "HTTP/1.1 " ++ response.status ++ space :: response.reason ++ crlf

/-- The head. -/
def head (response : ResponseText) : Bytes :=
  response.statusLine ++ response.lines.flatMap HeaderLine.text ++ crlf

/-- The text. -/
def text (response : ResponseText) : Bytes := response.head ++ response.body

/-- What the connection has answered when the text is answered: its status, exactly the lines that
count, and its body. -/
def answered (response : ResponseText) (sc : Shim) : Shim :=
  { sc with
    statusSent := true
    respStatus := readDigits response.status
    headers := countedPairs response.lines
    body := sc.body ++ response.body }

end ResponseText

/-! ## Writing -/

/-- A connection shows what is written. -/
theorem write_inj {sc : Shim} {data data' : Bytes} :
    sc.write data = sc.write data' ↔ data = data' := by
  simp [Shim.write]

/-- Fields are sent as some lines that are no fewer exactly when they are those lines, have different
names and leave the framing to the stream. -/
theorem sentFields_eq_iff {fields lines : List (Bytes × Bytes)}
    (bound : fields.length ≤ lines.length) :
    ((Grid.setHeaders [] fields).filter fun field => !framesBody field.1) = lines ↔
      fields = lines ∧ Grid.Distinct lines ∧ ∀ field ∈ lines, framesBody field.1 = false := by
  constructor
  · intro sent
    -- No field may be lost, neither to a later one of its name nor to the stream.
    have set := Grid.setHeaders_length_le [] fields
    have kept := List.length_filter_le (fun field : Bytes × Bytes => !framesBody field.1)
      (Grid.setHeaders [] fields)
    rw [sent] at kept
    rw [List.length_nil, Nat.zero_add] at set
    have distinct : Grid.Distinct ([] ++ fields) := by
      refine Grid.distinct_of_length List.Pairwise.nil ?_
      rw [List.length_nil, Nat.zero_add]
      omega
    have whole := Grid.setHeaders_distinct distinct
    rw [List.nil_append] at distinct whole
    rw [whole] at sent
    have same : fields = lines := by
      rw [← sent]
      refine (List.filter_sublist.eq_of_length_le ?_).symm
      rwa [sent]
    subst same
    refine ⟨rfl, distinct, fun field member => ?_⟩
    simpa using List.filter_eq_self.mp sent field member
  · rintro ⟨rfl, distinct, unframed⟩
    have whole := @Grid.setHeaders_distinct [] fields distinct
    rw [whole, List.nil_append]
    exact List.filter_eq_self.mpr fun field member => by simp [unframed field member]

/-- A line that has the name of an earlier one takes its place. -/
example : (Shim.respond ⟨false, 0, [], []⟩ 200 [(ascii "Content-Type", ascii "text/plain"),
    (ascii "content-type", ascii "text/html")]).headers =
      [(ascii "Content-Type", ascii "text/html")] := by decide +kernel

/-- Nothing is written. -/
theorem write_nil (sc : Shim) : sc.write [] = sc := by simp [Shim.write]

/-- What stands at the end of a text is read from its buffer exactly when the text fits. -/
theorem readFrom_printed_iff (front : Bytes) {data : Bytes} (filled : data ≠ [])
    (plain : 0 ∉ data) :
    readFrom (printed (front ++ data)) front.length data.length = some data ↔
      (front ++ data).length ≤ 16383 := by
  have positive := List.length_pos_iff.mpr filled
  have written : (printed (front ++ data)).length = min 16383 (front ++ data).length + 1 := by
    rw [printed, List.length_append, List.length_take, List.length_singleton]
  have total : (front ++ data).length = front.length + data.length := List.length_append
  constructor
  · intro same
    by_contra long
    rw [readFrom] at same
    split at same
    · -- The terminator is the last byte that is taken.
      have bytes := Option.some.inj same
      refine plain ?_
      rw [← bytes, List.take_of_length_le (by rw [List.length_drop]; omega), printed,
        List.drop_append, show front.length - ((front ++ data).take 16383).length = 0 from ?_]
      · simp
      · rw [List.length_take]
        omega
    · cases same
  · intro fits
    have whole : printed (front ++ data) = front ++ (data ++ [0]) := by
      rw [printed, List.take_of_length_le fits, List.append_assoc]
    rw [readFrom, if_pos (by omega), whole, List.drop_left, List.take_left]

/-! ## Reading header lines -/

/-- A line as the loop reads it when the buffer shows it. -/
def HeaderLine.read (line : HeaderLine) : Option (Bytes × Bytes) :=
  if line.Counts ∧ line.value ≠ [] then some (line.name.take 127, line.value.take 1023) else none

/-- The lines that a text of some length shows, up to the end of the line. -/
def shownLines : List HeaderLine → Nat → List HeaderLine
  | [], _ => []
  | line :: lines, size =>
    if line.text.length ≤ size + 1 then line :: shownLines lines (size - line.text.length) else []

/-- The name of a line is compared in its buffer. -/
theorem HeaderLine.counts_cut (line : HeaderLine) :
    (line.name.take 127).map lower = ascii "content-length" ↔ ¬ line.Counts := by
  rw [HeaderLine.Counts, not_not]
  by_cases short : line.name.length ≤ 127
  · rw [List.take_of_length_le short]
  · have size : (ascii "content-length").length = 14 := by decide
    constructor
    · intro same
      have lengths := congrArg List.length same
      rw [List.length_map, List.length_take, size] at lengths
      omega
    · intro same
      have lengths := congrArg List.length same
      rw [List.length_map, size] at lengths
      omega

/-- A line whose end is shown is read. -/
theorem headerOf_line (line : HeaderLine) (rest : Bytes) :
    headerOf (line.front ++ carriageReturn :: rest) = line.read := by
  have found : strchr colon (line.front ++ carriageReturn :: rest) =
      some (colon :: space :: (line.value ++ carriageReturn :: rest)) := by
    rw [HeaderLine.front, List.append_assoc]
    exact strchr_stop _ line.name_plain.1
  have shown : (space :: (line.value ++ carriageReturn :: rest)).dropWhile (· == space) =
      line.value ++ carriageReturn :: rest := by
    rw [List.dropWhile_cons_of_pos (by simp)]
    cases value : line.value with
    | nil => simp
    | cons c value =>
      have other := line.trimmed
      rw [value, List.head?_cons] at other
      rw [List.cons_append, List.dropWhile_cons_of_neg (by simpa using other)]
  have name : (line.front ++ carriageReturn :: rest).take
      ((line.front ++ carriageReturn :: rest).length -
        (colon :: space :: (line.value ++ carriageReturn :: rest)).length) = line.name := by
    have split : line.front ++ carriageReturn :: rest =
        line.name ++ colon :: space :: (line.value ++ carriageReturn :: rest) := by
      simp [HeaderLine.front]
    rw [split, List.length_append, Nat.add_sub_cancel]
    exact List.take_left' rfl
  have value : (line.value ++ carriageReturn :: rest).take
      ((line.value ++ carriageReturn :: rest).length - (carriageReturn :: rest).length) =
        line.value := by
    rw [List.length_append, Nat.add_sub_cancel]
    exact List.take_left' rfl
  have named : line.name.take 127 ≠ [] := by
    simpa using line.named
  have valued : line.value.take 1023 = [] ↔ line.value = [] := by simp
  rw [headerOf, found, Option.bind_some]
  simp only [name, List.drop_one, List.tail_cons, shown, strchr_stop line.value line.value_plain.1,
    value, named, valued, line.counts_cut, false_or, HeaderLine.read]
  by_cases empty : line.value = [] <;> by_cases counts : line.Counts <;> simp [empty, counts]

/-- A line whose end is not shown gives nothing. -/
theorem headerOf_open {text : Bytes} (unended : carriageReturn ∉ text)
    (unbroken : newline ∉ text) : headerOf text = none := by
  rw [headerOf]
  cases search : strchr colon text with
  | none => rfl
  | some behind =>
    obtain ⟨value, rfl, whole, -⟩ := strchr_split search
    have inside : ∀ c ∈ value.dropWhile (· == space), c ∈ text := by
      intro c member
      rw [whole]
      exact List.mem_append_right _
        (List.mem_cons_of_mem _ ((List.dropWhile_suffix _).subset member))
    rw [Option.bind_some]
    simp only [List.drop_one, List.tail_cons, strchr_none fun member => unended (inside _ member),
      strchr_none fun member => unbroken (inside _ member), true_or, or_true, ↓reduceIte]

/-- The front of a line has neither an end nor a terminator. -/
theorem HeaderLine.front_plain (line : HeaderLine) :
    carriageReturn ∉ line.front ∧ newline ∉ line.front ∧ 0 ∉ line.front := by
  have name := line.name_plain
  have value := line.value_plain
  simp only [HeaderLine.front, List.mem_append, List.mem_cons, not_or]
  exact ⟨⟨name.2.1, by decide, by decide, value.1⟩,
    ⟨name.2.2.1, by decide, by decide, value.2.1⟩, ⟨name.2.2.2, by decide, by decide, value.2.2⟩⟩

/-- A line starts with a character that does not end it. -/
theorem HeaderLine.front_cons (line : HeaderLine) :
    ∃ c rest, line.front = c :: rest ∧ ¬ (c = carriageReturn ∨ c = newline) := by
  obtain ⟨c, rest, start⟩ := List.exists_cons_of_ne_nil line.named
  have shape : line.front = c :: (rest ++ colon :: space :: line.value) := by
    rw [HeaderLine.front, start]
    rfl
  refine ⟨c, _, shape, ?_⟩
  have plain := line.front_plain
  rw [shape] at plain
  rintro (rfl | rfl)
  · exact plain.1 (by simp)
  · exact plain.2.1 (by simp)

/-- The length of a line with its end. -/
theorem HeaderLine.text_length (line : HeaderLine) : line.text.length = line.front.length + 2 := by
  simp [HeaderLine.text, crlf]

/-- The loop moves on by a line. -/
theorem readHeaders_line (line : HeaderLine) {fuel : Nat} (enough : 0 < fuel) (rest : Bytes) :
    readHeaders fuel (line.text ++ rest) = line.read.toList ++ readHeaders (fuel - 1) rest := by
  obtain ⟨c, more, start, other⟩ := line.front_cons
  obtain ⟨fuel, rfl⟩ : ∃ n, fuel = n + 1 := ⟨fuel - 1, by omega⟩
  have shape : line.text ++ rest = line.front ++ carriageReturn :: newline :: rest := by
    simp [HeaderLine.text, crlf]
  have behind : strchr newline (line.front ++ carriageReturn :: newline :: rest) =
      some (newline :: rest) := by
    rw [List.append_cons]
    exact strchr_stop _ (by simpa using line.front_plain.2.1)
  have whole := headerOf_line line (newline :: rest)
  rw [shape]
  rw [start, List.cons_append] at behind whole ⊢
  rw [readHeaders, if_neg other, whole, behind]
  simp only [List.drop_one, List.tail_cons, Nat.add_sub_cancel]

/-- The loop reads the lines that it is shown, however the text goes on. -/
theorem readHeaders_cut (lines : List HeaderLine) (rest : Bytes) {size fuel : Nat}
    (enough : size ≤ fuel) :
    readHeaders fuel ((lines.flatMap HeaderLine.text ++ (crlf ++ rest)).take size) =
      (shownLines lines size).filterMap HeaderLine.read := by
  induction lines generalizing size fuel with
  | nil =>
    cases size with
    | zero => cases fuel <;> rfl
    | succ size =>
      obtain ⟨fuel, rfl⟩ : ∃ n, fuel = n + 1 := ⟨fuel - 1, by omega⟩
      simp [crlf, readHeaders, shownLines]
  | cons line lines ih =>
    have length := line.text_length
    obtain ⟨c, more, start, other⟩ := line.front_cons
    rw [List.flatMap_cons, List.append_assoc, shownLines]
    by_cases whole : line.text.length ≤ size
    · rw [if_pos (by omega), List.take_append, List.take_of_length_le whole,
        readHeaders_line line (by omega), ih (by omega), List.filterMap_cons]
      cases line.read <;> rfl
    · have cut : (line.text ++ (lines.flatMap HeaderLine.text ++ (crlf ++ rest))).take size =
          line.text.take size := List.take_append_of_le_length (by omega)
      rw [cut]
      by_cases ended : line.text.length ≤ size + 1
      · -- Only the line feed is missing.
        have shown : line.text.take size = line.front ++ [carriageReturn] := by
          have split : line.text = (line.front ++ [carriageReturn]) ++ [newline] := by
            simp [HeaderLine.text, crlf]
          rw [split]
          exact List.take_left' (by simp; omega)
        have unbroken : strchr newline (line.front ++ [carriageReturn]) = none :=
          strchr_none (by simpa using line.front_plain.2.1)
        have read := headerOf_line line []
        obtain ⟨fuel, rfl⟩ : ∃ n, fuel = n + 1 := ⟨fuel - 1, by omega⟩
        have nothing : shownLines lines (size - line.text.length) = [] := by
          rw [Nat.sub_eq_zero_of_le (by omega)]
          cases lines with
          | nil => rfl
          | cons next lines => rw [shownLines, if_neg (by have := next.text_length; omega)]
        rw [if_pos ended, shown, nothing]
        rw [start, List.cons_append] at unbroken read ⊢
        rw [readHeaders, if_neg other, read, unbroken, List.filterMap_cons]
        cases line.read <;> simp
      · have shown : line.text.take size = line.front.take size :=
          List.take_append_of_le_length (by omega)
        rw [if_neg ended, shown, List.filterMap_nil]
        have unended : carriageReturn ∉ line.front.take size := fun member =>
          line.front_plain.1 (List.mem_of_mem_take member)
        have unbroken : newline ∉ line.front.take size := fun member =>
          line.front_plain.2.1 (List.mem_of_mem_take member)
        have read := headerOf_open unended unbroken
        have last := strchr_none unbroken
        cases size with
        | zero => cases fuel <;> simp [readHeaders]
        | succ size =>
          obtain ⟨fuel, rfl⟩ : ∃ n, fuel = n + 1 := ⟨fuel - 1, by omega⟩
          rw [start, List.take_succ_cons] at read last ⊢
          rw [readHeaders, if_neg other, read, last]
          rfl

/-! ## The lines that count -/

/-- Each line that counts ends inside a text of some length, but for its line feed. -/
def Reached (lines : List HeaderLine) (size : Nat) : Prop :=
  ∀ before line after, lines = before ++ line :: after → line.Counts →
    (before.flatMap HeaderLine.text).length + line.text.length ≤ size + 1

/-- Behind a line that is shown, the next ones have what is left. -/
theorem reached_shown {line : HeaderLine} {lines : List HeaderLine} {size : Nat}
    (shown : line.text.length ≤ size + 1) :
    Reached (line :: lines) size ↔ Reached lines (size - line.text.length) := by
  constructor
  · intro reached before next after split counts
    have bound := reached (line :: before) next after (by rw [split]; rfl) counts
    have length := next.text_length
    rw [List.flatMap_cons, List.length_append] at bound
    omega
  · intro reached before next after split counts
    cases before with
    | nil =>
      obtain ⟨rfl, -⟩ := List.cons.inj split
      simpa using shown
    | cons first before =>
      obtain ⟨rfl, rest⟩ := List.cons.inj split
      have bound := reached before next after rest counts
      have length := next.text_length
      rw [List.flatMap_cons, List.length_append]
      omega

/-- Where a line is not shown, no line from it on may count. -/
theorem reached_hidden {line : HeaderLine} {lines : List HeaderLine} {size : Nat}
    (hidden : ¬ line.text.length ≤ size + 1) :
    Reached (line :: lines) size ↔ ∀ other ∈ line :: lines, ¬ other.Counts := by
  constructor
  · intro reached other member counts
    obtain ⟨before, after, split⟩ := List.append_of_mem member
    have bound := reached before other after split counts
    cases before with
    | nil =>
      obtain ⟨rfl, -⟩ := List.cons.inj split
      simp only [List.flatMap_nil, List.length_nil] at bound
      omega
    | cons first before =>
      obtain ⟨rfl, -⟩ := List.cons.inj split
      rw [List.flatMap_cons, List.length_append] at bound
      omega
  · intro none before other after split counts
    exact absurd counts (none other (by rw [split]; simp))

/-- No more lines are read than count. -/
theorem shownLines_length (lines : List HeaderLine) (size : Nat) :
    ((shownLines lines size).filterMap HeaderLine.read).length ≤ (countedPairs lines).length := by
  induction lines generalizing size with
  | nil => simp [shownLines]
  | cons line lines ih =>
    rw [shownLines]
    split
    · have bound := ih (size - line.text.length)
      rw [List.filterMap_cons, HeaderLine.read]
      by_cases counts : line.Counts
      · have grown : (countedPairs (line :: lines)).length = (countedPairs lines).length + 1 := by
          simp [countedPairs, counts]
        rw [grown]
        split
        · omega
        · rw [List.length_cons]
          omega
      · have same : countedPairs (line :: lines) = countedPairs lines := by
          simp [countedPairs, counts]
        rw [same, if_neg fun both => counts both.1]
        exact bound
    · simp

/-- A line is read as it stands when it fits. -/
theorem HeaderLine.read_eq_iff {line : HeaderLine} (counts : line.Counts) :
    line.read = some line.pair ↔ line.Fits := by
  unfold HeaderLine.read HeaderLine.pair HeaderLine.Fits
  by_cases valued : line.value = []
  · simp [valued]
  · simp [counts, valued]

/-- The lines that count are read as they stand exactly when each of them fits and is reached. -/
theorem shownLines_pairs_iff (lines : List HeaderLine) (size : Nat) :
    (shownLines lines size).filterMap HeaderLine.read = countedPairs lines ↔
      (∀ line ∈ lines, line.Counts → line.Fits) ∧ Reached lines size := by
  induction lines generalizing size with
  | nil => simp [shownLines, countedPairs, Reached]
  | cons line lines ih =>
    rw [shownLines]
    by_cases shown : line.text.length ≤ size + 1
    · rw [if_pos shown, reached_shown shown, List.filterMap_cons, List.forall_mem_cons]
      by_cases counts : line.Counts
      · have grown : countedPairs (line :: lines) = line.pair :: countedPairs lines := by
          simp [countedPairs, counts]
        rw [grown]
        have fits := line.read_eq_iff counts
        cases read : line.read with
        | none =>
          have bound := shownLines_length lines (size - line.text.length)
          rw [read] at fits
          have misfit : ¬ line.Fits := fun whole => by simpa using fits.mpr whole
          constructor
          · intro same
            have lengths := congrArg List.length same
            rw [List.length_cons] at lengths
            dsimp only at lengths
            omega
          · rintro ⟨⟨whole, -⟩, -⟩
            exact absurd (whole counts) misfit
        | some pair =>
          rw [read, Option.some.injEq] at fits
          dsimp only
          rw [List.cons.injEq, ih, fits]
          simp only [counts, forall_const, and_assoc]
      · have same : countedPairs (line :: lines) = countedPairs lines := by
          simp [countedPairs, counts]
        have unread : line.read = none := if_neg fun both => counts both.1
        rw [same, unread]
        dsimp only
        rw [ih]
        simp only [counts, false_implies, true_and]
    · rw [if_neg shown, reached_hidden shown]
      constructor
      · intro same
        have none : ∀ other ∈ line :: lines, ¬ other.Counts := by
          intro other member counts
          have inside : other.pair ∈ countedPairs (line :: lines) :=
            List.mem_map_of_mem (List.mem_filter.mpr ⟨member, by simpa using counts⟩)
          rw [← same] at inside
          cases inside
        exact ⟨fun other member counts => absurd counts (none other member), none⟩
      · rintro ⟨-, none⟩
        have empty : (line :: lines).filter (fun line => line.Counts) = [] :=
          List.filter_eq_nil_iff.mpr fun other member => by simpa using none other member
        rw [countedPairs, empty]
        rfl

/-- A text that holds all lines reaches each of them. -/
theorem reached_all {lines : List HeaderLine} {size : Nat}
    (holds : (lines.flatMap HeaderLine.text).length ≤ size) : Reached lines size := by
  intro before line after split counts
  rw [split, List.flatMap_append, List.flatMap_cons, List.length_append, List.length_append] at holds
  omega

/-- No line that counts is replaced when their pairs have different names and leave the framing to the
stream. -/
theorem unreplaced_iff (lines : List HeaderLine) :
    Unreplaced lines ↔ Grid.Distinct (countedPairs lines) ∧
      ∀ field ∈ countedPairs lines, framesBody field.1 = false := by
  have counted (line : HeaderLine) (counts : line.Counts) :
      framesBody line.name = Grid.sameName line.name (ascii "Transfer-Encoding") := by
    have other : Grid.sameName line.name (ascii "Content-Length") = false :=
      beq_false_of_ne counts
    rw [framesBody, other, Bool.false_or]
  constructor
  · intro unreplaced
    refine ⟨unreplaced.distinct, fun field member => ?_⟩
    obtain ⟨line, inside, rfl⟩ := List.mem_map.mp member
    obtain ⟨there, counts⟩ := List.mem_filter.mp inside
    have counts := of_decide_eq_true counts
    exact (counted line counts).trans (unreplaced.unframed line there counts)
  · rintro ⟨distinct, unframed⟩
    refine ⟨distinct, fun line member counts => ?_⟩
    have inside : line.pair ∈ countedPairs lines :=
      List.mem_map_of_mem (List.mem_filter.mpr ⟨member, decide_eq_true counts⟩)
    exact (counted line counts).symm.trans (unframed line.pair inside)

/-! ## A response in the buffer -/

namespace ResponseText

variable (response : ResponseText)

/-- The status line without its end. -/
def statusFront : Bytes := ascii "HTTP/1.1 " ++ response.status ++ space :: response.reason

/-- The fronts of the lines of the head. -/
def fronts : List Bytes := response.statusFront :: response.lines.map HeaderLine.front

/-- The head is made of its lines and of the empty line. -/
theorem head_eq : response.head = response.fronts.flatMap (· ++ crlf) ++ crlf := by
  rw [head, fronts, List.flatMap_cons, List.flatMap_map]
  rfl

/-- The status line has neither an end nor a terminator. -/
theorem statusFront_plain : carriageReturn ∉ response.statusFront ∧
    newline ∉ response.statusFront ∧ 0 ∉ response.statusFront := by
  have digits : ∀ c, isDecimal c = false → c ∉ response.status := fun c other member => by
    rw [response.threeDigits.2 c member] at other
    cases other
  have reason := response.reason_plain
  simp only [statusFront, List.mem_append, List.mem_cons, not_or]
  exact ⟨⟨⟨by decide, digits _ (by decide)⟩, by decide, reason.1⟩,
    ⟨⟨by decide, digits _ (by decide)⟩, by decide, reason.2.1⟩,
    ⟨⟨by decide, digits _ (by decide)⟩, by decide, reason.2.2⟩⟩

/-- The lines of the head are not empty, and do not end inside. -/
theorem fronts_formed : ∀ front ∈ response.fronts, front ≠ [] ∧ carriageReturn ∉ front := by
  intro front member
  rcases List.mem_cons.mp member with rfl | later
  · exact ⟨by simp [statusFront], response.statusFront_plain.1⟩
  · obtain ⟨line, -, rfl⟩ := List.mem_map.mp later
    exact ⟨by simp [HeaderLine.front], line.front_plain.1⟩

/-- The text has no terminator. -/
theorem text_plain : 0 ∉ response.text := by
  have ending : (0 : UInt8) ∉ crlf := by decide
  have fronts : ∀ front ∈ response.fronts, 0 ∉ front := by
    intro front member
    rcases List.mem_cons.mp member with rfl | later
    · exact response.statusFront_plain.2.2
    · obtain ⟨line, -, rfl⟩ := List.mem_map.mp later
      exact line.front_plain.2.2
  rw [text, head_eq]
  simp only [List.mem_append, List.mem_flatMap, not_or, not_exists, not_and]
  exact ⟨⟨fun front member => ⟨fronts front member, ending⟩, ending⟩, response.body_plain⟩

/-- The end of the head is the first empty line. -/
theorem strstr_text (rest : Bytes) :
    strstr (crlf ++ crlf) (response.head ++ rest) = some (crlf ++ crlf ++ rest) := by
  rw [head_eq]
  exact HttpResponse.strstr_lines (List.cons_ne_nil _ _) response.fronts_formed rest

/-- A cut text shows the end of the head when it holds the head. -/
theorem strstr_cut (size : Nat) :
    strstr (crlf ++ crlf) (response.text.take size) =
      if response.head.length ≤ size then
        some (crlf ++ crlf ++ response.body.take (size - response.head.length))
      else none := by
  by_cases whole : response.head.length ≤ size
  · rw [if_pos whole, text, List.take_append, List.take_of_length_le whole, strstr_text]
  · rw [if_neg whole]
    cases search : strstr (crlf ++ crlf) (response.text.take size) with
    | none => rfl
    | some found =>
      exfalso
      obtain ⟨front, more, split, -, -⟩ := strstr_split search
      obtain ⟨front', more', split', found', least⟩ :=
        strstr_split (response.strstr_text response.body)
      have complete : response.head ++ response.body =
          front ++ (crlf ++ crlf ++ (more ++ response.text.drop size)) := by
        have parts := List.take_append_drop size response.text
        rw [split] at parts
        rw [← text]
        refine parts.symm.trans ?_
        simp only [List.append_assoc]
      have early := least front _ complete
      have sizes := congrArg List.length split
      have sizes' := congrArg List.length split'
      have bodies := congrArg List.length found'
      simp only [List.length_append, List.length_take, show crlf.length = 2 from rfl]
        at sizes sizes' bodies
      omega

/-- A text that shows the digits of the status shows its number. -/
theorem status_cut (size : Nat) (shows : 12 ≤ size) :
    ∃ found, strchr space (response.text.take size) = some found ∧
      atoi (found.drop 1) = readDigits response.status := by
  obtain ⟨three, digits⟩ := response.threeDigits
  have filled : response.status ≠ [] := by
    intro empty
    rw [empty] at three
    cases three
  obtain ⟨rest, whole⟩ : ∃ rest, response.text =
      ascii "HTTP/1.1" ++ space :: (response.status ++ space :: rest) :=
    ⟨response.reason ++ crlf ++ (response.lines.flatMap HeaderLine.text ++ crlf ++
      response.body), by simp [text, head, statusLine, ascii]⟩
  have split : response.text.take size =
      ascii "HTTP/1.1" ++ space :: (response.status ++ (space :: rest).take (size - 12)) := by
    have eight : (ascii "HTTP/1.1").length = 8 := by decide
    rw [whole, List.take_append, List.take_of_length_le (by omega), eight,
      show size - 8 = size - 9 + 1 by omega, List.take_succ_cons, List.take_append,
      List.take_of_length_le (by omega), three, show size - 9 - 3 = size - 12 by omega]
  have free : space ∉ ascii "HTTP/1.1" := by decide
  refine ⟨_, by rw [split]; exact strchr_stop _ free, ?_⟩
  have small : readDigits response.status < 2147483648 := by
    have bound := readDigits_lt response.status digits
    rw [three] at bound
    exact bound.trans (by decide)
  refine atoi_digits filled digits small ?_
  intro c member
  cases remaining : size - 12 with
  | zero =>
    rw [remaining] at member
    cases member
  | succ left =>
    rw [remaining] at member
    cases member
    rfl

/-- The header lines that a cut text gives. -/
theorem headers_cut (size : Nat) :
    (match strchr newline (response.text.take size) with
      | some line => readHeaders size (line.drop 1)
      | none => []) =
      (shownLines response.lines (size - response.statusLine.length)).filterMap
        HeaderLine.read := by
  have plain := response.statusFront_plain
  have length : response.statusLine.length = response.statusFront.length + 2 := by
    simp only [statusLine, statusFront, List.length_append, show crlf.length = 2 from rfl]
  have whole : response.text = (response.statusFront ++ [carriageReturn]) ++
      newline :: (response.lines.flatMap HeaderLine.text ++ (crlf ++ response.body)) := by
    simp [text, head, statusLine, statusFront, crlf]
  have open_ : newline ∉ response.statusFront ++ [carriageReturn] := by simpa using plain.2.1
  by_cases shown : response.statusLine.length ≤ size
  · have found : strchr newline (response.text.take size) = some (newline ::
        (response.lines.flatMap HeaderLine.text ++ (crlf ++ response.body)).take
          (size - response.statusLine.length)) := by
      rw [whole, List.take_append, List.take_of_length_le (by simp; omega)]
      have left : size - (response.statusFront ++ [carriageReturn]).length =
          size - response.statusLine.length + 1 := by
        rw [List.length_append, List.length_singleton]
        omega
      rw [left, List.take_succ_cons]
      exact strchr_stop _ open_
    rw [found]
    exact readHeaders_cut response.lines response.body (Nat.sub_le _ _)
  · have missing : strchr newline (response.text.take size) = none := by
      rw [whole, List.take_append_of_le_length (by simp; omega)]
      exact strchr_none fun member => open_ (List.mem_of_mem_take member)
    rw [missing, Nat.sub_eq_zero_of_le (by omega)]
    cases lines : response.lines with
    | nil => rfl
    | cons line lines =>
      have long := line.text_length
      rw [shownLines, if_neg (by omega)]
      rfl

/-! ## The answer -/

/-- The fields that the buffer gives. -/
def shownPairs : List (Bytes × Bytes) :=
  (shownLines response.lines
    (min 16383 response.text.length - response.statusLine.length)).filterMap HeaderLine.read

/-- What is written of the body when its end is not in the buffer. -/
def overrun : Option Bytes :=
  readFrom (printed response.text) response.head.length response.body.length

/-- `shim_printf` on the text of a response. -/
theorem shimPrintf_text {sc : Shim} (fresh : sc.statusSent = false)
    (formatted : response.text.length ≤ 2147483647) :
    shimPrintf sc response.text =
      if response.head.length ≤ 16383 ∧ response.body ≠ [] then
        response.overrun.map (sc.respond (readDigits response.status) response.shownPairs).write
      else some (sc.respond (readDigits response.status) response.shownPairs) := by
  have long : response.head.length = response.statusFront.length + 2 +
      (response.lines.flatMap HeaderLine.text).length + 2 := by
    simp only [head, statusLine, statusFront, List.length_append, show crlf.length = 2 from rfl]
  have front : 12 ≤ response.statusFront.length := by
    have nine : (ascii "HTTP/1.1 ").length = 9 := by decide
    simp only [statusFront, List.length_append, List.length_cons, nine, response.threeDigits.1]
    omega
  have total : response.text.length = response.head.length + response.body.length :=
    List.length_append
  let size := min 16383 response.text.length
  have buffer : cString (printed response.text) = response.text.take size := by
    have free : (0 : UInt8) ∉ response.text.take 16383 := fun member =>
      response.text_plain (List.mem_of_mem_take member)
    rw [← List.take_eq_take_min, printed, cString, takeWhile_ne_stop free]
  have shown : (response.text.take size).length = size :=
    List.length_take_of_le (Nat.min_le_right _ _)
  have nonempty : ¬ (response.text = [] ∨ 2147483647 < response.text.length) := by
    rintro (empty | huge)
    · rw [empty] at total
      simp only [List.length_nil] at total
      omega
    · omega
  have version : ascii "HTTP/1." <+: response.text.take size := by
    refine List.prefix_take_iff.mpr ⟨⟨ascii "1 " ++ response.status ++ space :: response.reason ++
      crlf ++ response.lines.flatMap HeaderLine.text ++ crlf ++ response.body, ?_⟩, ?_⟩
    · simp [text, head, statusLine, ascii]
    · change 7 ≤ size
      omega
  obtain ⟨found, search, number⟩ := response.status_cut size (by omega)
  unfold shimPrintf
  simp only [buffer, shown]
  rw [if_neg nonempty, if_pos ⟨fresh, version⟩]
  simp only [search, number, response.headers_cut, response.strstr_cut]
  by_cases whole : response.head.length ≤ size
  · have start : size - (crlf ++ crlf ++
        response.body.take (size - response.head.length)).length + 4 = response.head.length := by
      simp only [List.length_append, List.length_take, show crlf.length = 2 from rfl]
      omega
    have behind : response.text.length - response.head.length = response.body.length := by omega
    rw [if_pos whole]
    simp only [start, behind]
    by_cases empty : response.body = []
    · rw [if_neg (by simp [empty, total]), if_neg fun both => both.2 empty]
      rfl
    · have positive := List.length_pos_iff.mpr empty
      rw [if_pos (by omega), if_pos ⟨by omega, empty⟩]
      rfl
  · have missed : ¬ (response.head.length ≤ 16383 ∧ response.body ≠ []) := fun both => by
      have positive := List.length_pos_iff.mpr both.2
      omega
    rw [if_neg whole, if_neg missed]
    rfl

/-- The body is written as it stands exactly when the text fits. -/
theorem overrun_iff (filled : response.body ≠ []) :
    response.overrun = some response.body ↔ response.text.length ≤ 16383 :=
  readFrom_printed_iff response.head filled response.body_plain

/-- The buffer holds what has to be read of a response: the whole text, or without a body each line
that counts. -/
def Held : Prop :=
  response.text.length ≤ 16383 ∨
    response.body = [] ∧ response.text.length ≤ 2147483647 ∧
      Reached response.lines (16383 - response.statusLine.length)

/-- The lines that the buffer shows are those that count, as they stand, exactly when each of them
fits and is reached. -/
theorem shownPairs_iff :
    response.shownPairs = countedPairs response.lines ↔
      (∀ line ∈ response.lines, line.Counts → line.Fits) ∧
        (response.text.length ≤ 16383 ∨
          Reached response.lines (16383 - response.statusLine.length)) := by
  rw [shownPairs, shownLines_pairs_iff]
  refine and_congr_right fun fits => ?_
  by_cases short : response.text.length ≤ 16383
  · have all : Reached response.lines
        (min 16383 response.text.length - response.statusLine.length) := by
      refine reached_all ?_
      rw [Nat.min_eq_right short, text, head]
      simp only [List.length_append]
      omega
    exact iff_of_true all (.inl short)
  · rw [Nat.min_eq_left (by omega)]
    simp only [short, false_or]

/-- No more fields are set than lines count. -/
theorem shownPairs_length : response.shownPairs.length ≤ (countedPairs response.lines).length :=
  shownLines_length response.lines _

/-- The fields that the buffer gives and some bytes answer a response exactly when they are its own
lines, none of which is replaced, and its body. -/
theorem respond_write_iff {sc : Shim} (unset : sc.headers = []) (data : Bytes) :
    (sc.respond (readDigits response.status) response.shownPairs).write data =
        response.answered sc ↔
      (response.shownPairs = countedPairs response.lines ∧ Unreplaced response.lines) ∧
        data = response.body := by
  rw [unreplaced_iff, ← sentFields_eq_iff response.shownPairs_length]
  simp [Shim.respond, Shim.write, answered, unset]

/-- A response is answered as it is printed exactly when its lines fit and none is replaced, and the
buffer holds it. -/
theorem shimPrintf_answered_iff {sc : Shim} (fresh : sc.statusSent = false)
    (unset : sc.headers = []) :
    shimPrintf sc response.text = some (response.answered sc) ↔
      (∀ line ∈ response.lines, line.Counts → line.Fits) ∧ Unreplaced response.lines ∧
        response.Held := by
  by_cases formatted : response.text.length ≤ 2147483647
  · have shown := response.respond_write_iff unset
    rw [response.shimPrintf_text fresh formatted, Held]
    by_cases filled : response.body = []
    · rw [if_neg fun both => both.2 filled, ← write_nil (sc.respond _ response.shownPairs),
        Option.some.injEq, shown, response.shownPairs_iff, filled]
      simp only [and_true, formatted, true_and]
      tauto
    · have unheld : ¬ response.body = [] := filled
      simp only [unheld, false_and, or_false, ne_eq, not_false_eq_true, and_true]
      by_cases short : response.text.length ≤ 16383
      · have total : response.text.length = response.head.length + response.body.length :=
          List.length_append
        rw [if_pos (by omega), (response.overrun_iff filled).mpr short, Option.map_some,
          Option.some.injEq, shown, response.shownPairs_iff]
        simp only [short, true_or, and_true]
      · simp only [short, and_false, iff_false]
        intro same
        split at same
        · obtain ⟨data, read, whole⟩ := Option.map_eq_some_iff.mp same
          obtain ⟨-, rfl⟩ := (shown _).mp whole
          exact short ((response.overrun_iff filled).mp read)
        · rw [← write_nil (sc.respond _ response.shownPairs), Option.some.injEq] at same
          exact filled ((shown _).mp same).2.symm
  · have unprinted : shimPrintf sc response.text = some sc := by
      unfold shimPrintf
      exact if_pos (.inr (by omega))
    rw [unprinted, Held]
    have unlike : sc ≠ response.answered sc := by
      intro same
      have sent := congrArg Shim.statusSent same
      rw [fresh] at sent
      cases sent
    simp only [Option.some.injEq, unlike, formatted, false_and, and_false, or_false, false_iff]
    omega

end ResponseText

/-- A later text is written as it stands exactly when it fits the buffer. -/
theorem shimPrintf_more_iff {sc : Shim} (sent : sc.statusSent = true) {text : Bytes}
    (plain : 0 ∉ text) :
    shimPrintf sc text = some (sc.write text) ↔ text.length ≤ 16383 := by
  have later : ¬ (sc.statusSent = false ∧ ascii "HTTP/1." <+: cString (printed text)) := by
    rintro ⟨unsent, -⟩
    rw [sent] at unsent
    cases unsent
  by_cases filled : text = []
  · simp [shimPrintf, filled, write_nil]
  by_cases formatted : text.length ≤ 2147483647
  · have unskipped : ¬ (text = [] ∨ 2147483647 < text.length) := by
      rintro (empty | huge)
      · exact filled empty
      · omega
    unfold shimPrintf
    rw [if_neg unskipped, if_neg later, if_pos sent]
    refine Iff.trans ?_ (readFrom_printed_iff [] filled plain)
    constructor
    · intro same
      obtain ⟨data, read, whole⟩ := Option.map_eq_some_iff.mp same
      obtain rfl := write_inj.mp whole
      exact read
    · intro read
      rw [show readFrom (printed text) 0 text.length = some text from read, Option.map_some]
  · have unprinted : shimPrintf sc text = some sc := by
      unfold shimPrintf
      exact if_pos (.inr (by omega))
    rw [unprinted]
    constructor
    · intro same
      have whole : sc.write [] = sc.write text := by
        rw [write_nil]
        exact Option.some.inj same
      exact absurd (write_inj.mp whole).symm filled
    · intro short
      omega

/-! ## The exact condition -/

/-- `Content-Type: application/json` -/
def jsonLine : HeaderLine where
  name := ascii "Content-Type"
  value := ascii "application/json"
  named := by decide
  name_plain := by decide
  value_plain := by decide
  trimmed := by decide

/-- The status of a success has three digits. -/
theorem ok_threeDigits :
    (ascii "200").length = 3 ∧ ∀ c ∈ ascii "200", isDecimal c = true :=
  ⟨rfl, List.all_eq_true.mp (by decide)⟩

/-- Its reason does not end the line. -/
theorem ok_plain : carriageReturn ∉ ascii "OK" ∧ newline ∉ ascii "OK" ∧ 0 ∉ ascii "OK" := by decide

/-- An answer with a body of JSON. -/
def jsonText (body : Bytes) (plain : 0 ∉ body) : ResponseText where
  status := ascii "200"
  reason := ascii "OK"
  lines := [jsonLine]
  body := body
  threeDigits := ok_threeDigits
  reason_plain := ok_plain
  body_plain := plain

/-- A connection on which nothing is answered. -/
def Shim.fresh : Shim := ⟨false, 0, [], []⟩

/-- A manifest of some size. -/
def manifest (size : Nat) : ResponseText :=
  jsonText (List.replicate size 0x61) fun member =>
    absurd (List.eq_of_mem_replicate member) (by decide)

/-- Of a manifest that is longer than the buffer more is read than was written. -/
theorem shimPrintf_overrun {size : Nat} (long : 16384 ≤ size) (printable : size ≤ 2147483000) :
    shimPrintf Shim.fresh (manifest size).text = none := by
  have head : (manifest size).head.length = 51 := rfl
  have body : (manifest size).body.length = size := List.length_replicate
  have total : (manifest size).text.length = (manifest size).head.length +
    (manifest size).body.length := List.length_append
  have filled : (manifest size).body ≠ [] := by
    rw [← List.length_pos_iff]
    omega
  have unread : (manifest size).overrun = none := by
    refine if_neg ?_
    rw [printed, List.length_append, List.length_take, List.length_singleton]
    omega
  rw [(manifest size).shimPrintf_text rfl (by omega), if_pos ⟨by omega, filled⟩, unread,
    Option.map_none]

end Cookbook.Http
