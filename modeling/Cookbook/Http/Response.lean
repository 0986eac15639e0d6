import Cookbook.Library.Number

/-!
# HTTP/1.1 responses

A well-formed response is a status line, header fields and a body whose end is declared by a length or
marked by chunks. Names are compared in any case, and blanks stand around a value as they like.
-/
namespace Cookbook.Http

open Library.Text

/-- The end of a line. -/
def crlf : Bytes := [carriageReturn, newline]

/-- A letter in lower case. -/
def lower (c : UInt8) : UInt8 := if 0x41 ≤ c ∧ c ≤ 0x5A then c + 32 else c

/-- A character of a name. -/
def isTokenChar (c : UInt8) : Bool :=
  decide (0x30 ≤ c ∧ c ≤ 0x39) || decide (0x61 ≤ lower c ∧ lower c ≤ 0x7A) ||
    (ascii "!#$%&*+-.^_|~").contains c || c == 0x27 || c == 0x60

/-- A character of a value or a reason: visible, a blank, or above ASCII. -/
def isTextChar (c : UInt8) : Bool := c == tab || decide (0x20 ≤ c) && c != 0x7F

/-- A digit of a chunk's size. -/
def isHexDigit (c : UInt8) : Bool := isDecimal c || decide (0x61 ≤ lower c ∧ lower c ≤ 0x66)

/-- The value of such digits. -/
def readHex (digits : Bytes) : Nat :=
  digits.foldl (fun number c =>
    number * 16 + if isDecimal c then digitValue c else (lower c).toNat - 0x57) 0

/-! ## Fields -/

/-- A header field. -/
structure Field where
  /-- The name. -/
  name : Bytes
  /-- The blanks in front of the value. -/
  before : Bytes
  /-- The value. -/
  value : Bytes
  /-- The blanks behind the value. -/
  after : Bytes
  /-- The name is a token. -/
  named : name ≠ [] ∧ ∀ c ∈ name, isTokenChar c = true
  /-- The blanks are blanks. -/
  blank : ∀ c ∈ before ++ after, c = space ∨ c = tab
  /-- The value is text. -/
  texted : ∀ c ∈ value, isTextChar c = true

/-- The line of a field, without its end. -/
def Field.line (field : Field) : Bytes :=
  field.name ++ colon :: (field.before ++ field.value ++ field.after)

/-- The field has a name, in any case. -/
def Field.Is (field : Field) (name : String) : Prop := field.name.map lower = ascii name

instance (field : Field) (name : String) : Decidable (field.Is name) :=
  inferInstanceAs (Decidable (_ = _))

/-! ## Framing -/

/-- A chunk: its size in hexadecimal digits, an extension, and its data. -/
structure Chunk where
  /-- The size. -/
  size : Bytes
  /-- The extension. -/
  ext : Bytes
  /-- The data. -/
  data : Bytes
  /-- The size is the one of the data. -/
  sized : (∀ c ∈ size, isHexDigit c = true) ∧ readHex size = data.length ∧ data ≠ []
  /-- The extension starts with a semicolon and is text. -/
  extended : (∀ c ∈ ext.head?, c = 0x3B) ∧ ∀ c ∈ ext, isTextChar c = true

/-- A chunk as it is sent. -/
def Chunk.bytes (chunk : Chunk) : Bytes :=
  chunk.size ++ chunk.ext ++ crlf ++ chunk.data ++ crlf

/-- The last chunk and the trailer. -/
structure LastChunk where
  /-- The zeros. -/
  zeros : Bytes
  /-- The extension. -/
  ext : Bytes
  /-- The fields of the trailer. -/
  trailer : List Field
  /-- There is a zero, and nothing else. -/
  zero : zeros ≠ [] ∧ ∀ c ∈ zeros, c = 0x30
  /-- The extension starts with a semicolon and is text. -/
  extended : (∀ c ∈ ext.head?, c = 0x3B) ∧ ∀ c ∈ ext, isTextChar c = true

/-- The last chunk as it is sent. -/
def LastChunk.bytes (last : LastChunk) : Bytes :=
  last.zeros ++ last.ext ++ crlf ++ last.trailer.flatMap (fun field => field.line ++ crlf) ++ crlf

/-- How a body is framed. -/
inductive Framing
  /-- By its length. -/
  | length (body : Bytes)
  /-- By chunks. -/
  | chunked (chunks : List Chunk) (last : LastChunk)

/-- The body as it is sent. -/
def Framing.encoded : Framing → Bytes
  | length body => body
  | chunked chunks last => chunks.flatMap Chunk.bytes ++ last.bytes

/-- The body. -/
def Framing.decoded : Framing → Bytes
  | length body => body
  | chunked chunks _ => chunks.flatMap (·.data)

/-- The fields declare the framing: one length, or the chunked encoding and no length. -/
def Framing.Declared (fields : List Field) : Framing → Prop
  | length body => (∃ field ∈ fields, field.Is "content-length") ∧
      (∀ field ∈ fields, field.Is "content-length" →
        (∀ c ∈ field.value, isDecimal c = true) ∧ field.value ≠ [] ∧
          readDigits field.value = body.length) ∧
      ∀ field ∈ fields, ¬field.Is "transfer-encoding"
  | chunked _ _ => (∃ field ∈ fields, field.Is "transfer-encoding") ∧
      (∀ field ∈ fields, field.Is "transfer-encoding" →
        field.value.map lower = ascii "chunked") ∧
      ∀ field ∈ fields, ¬field.Is "content-length"

/-! ## Responses -/

/-- A well-formed response. -/
structure HttpResponse where
  /-- The digits of the status. -/
  status : Bytes
  /-- The reason. -/
  reason : Bytes
  /-- The header fields. -/
  fields : List Field
  /-- The body. -/
  framing : Framing
  /-- The status has three digits. -/
  threeDigits : status.length = 3 ∧ ∀ c ∈ status, isDecimal c = true
  /-- The reason is text. -/
  texted : ∀ c ∈ reason, isTextChar c = true
  /-- The fields declare the framing. -/
  declared : framing.Declared fields

namespace HttpResponse

variable (response : HttpResponse)

/-- The lines of the head. -/
def lines : List Bytes :=
  (ascii "HTTP/1.1 " ++ response.status ++ space :: response.reason) ::
    response.fields.map (·.line)

/-- The head, up to and with the empty line. -/
def head : Bytes := response.lines.flatMap (· ++ crlf) ++ crlf

/-- The response as it is sent. -/
def bytes : Bytes := response.head ++ response.framing.encoded

/-- The status. -/
def code : Nat := readDigits response.status

/-! ## The head -/

/-- A character of a name is neither a terminator nor the end of a line. -/
theorem tokenChar_line : ∀ c : UInt8, isTokenChar c = true →
    c ≠ 0 ∧ c ≠ carriageReturn := byte_forall (by decide +kernel)

/-- A character of a text is neither a terminator nor the end of a line. -/
theorem textChar_line : ∀ c : UInt8, isTextChar c = true →
    c ≠ 0 ∧ c ≠ carriageReturn := byte_forall (by decide +kernel)

/-- A digit is neither a terminator nor the end of a line. -/
theorem decimal_line : ∀ c : UInt8, isDecimal c = true →
    c ≠ 0 ∧ c ≠ carriageReturn := byte_forall (by decide +kernel)

/-- A line of the head has neither a terminator nor the end of a line in it. -/
theorem lines_formed : ∀ line ∈ response.lines,
    line ≠ [] ∧ ∀ c ∈ line, c ≠ 0 ∧ c ≠ carriageReturn := by
  intro line member
  rcases List.mem_cons.mp member with first | later
  · rw [first]
    refine ⟨List.cons_ne_nil _ _, ?_⟩
    have version : ∀ c ∈ ascii "HTTP/1.1 ", c ≠ 0 ∧ c ≠ carriageReturn := by decide +kernel
    intro c inside
    rcases List.mem_append.mp inside with front | back
    · rcases List.mem_append.mp front with start | digit
      · exact version c start
      · exact decimal_line c (response.threeDigits.2 c digit)
    · rcases List.mem_cons.mp back with blank | reason
      · rw [blank]
        decide
      · exact textChar_line c (response.texted c reason)
  · obtain ⟨field, -, same⟩ := List.mem_map.mp later
    rw [← same]
    refine ⟨List.append_ne_nil_of_left_ne_nil field.named.1 _, ?_⟩
    intro c inside
    rcases List.mem_append.mp inside with name | rest
    · exact tokenChar_line c (field.named.2 c name)
    · rcases List.mem_cons.mp rest with mark | rest
      · rw [mark]
        decide
      · have blanks : c ∈ field.before ++ field.after → c ≠ 0 ∧ c ≠ carriageReturn := by
          intro member
          rcases field.blank c member with blank | blank
          · rw [blank]
            decide
          · rw [blank]
            decide
        rcases List.mem_append.mp rest with front | after
        · rcases List.mem_append.mp front with before | value
          · exact blanks (List.mem_append_left _ before)
          · exact textChar_line c (field.texted c value)
        · exact blanks (List.mem_append_right _ after)

/-- The first empty line is behind the lines. -/
theorem strstr_lines {lines : List Bytes} (filled : lines ≠ [])
    (formed : ∀ line ∈ lines, line ≠ [] ∧ carriageReturn ∉ line) (rest : Bytes) :
    strstr (crlf ++ crlf) (lines.flatMap (· ++ crlf) ++ crlf ++ rest) =
      some (crlf ++ crlf ++ rest) := by
  induction lines with
  | nil => exact absurd rfl filled
  | cons line lines ih =>
    have free := (formed line List.mem_cons_self).2
    have later := fun other member => formed other (List.mem_cons_of_mem line member)
    have shape : (line :: lines).flatMap (· ++ crlf) ++ crlf ++ rest =
        line ++ (crlf ++ (lines.flatMap (· ++ crlf) ++ crlf ++ rest)) := by
      rw [List.flatMap_cons, List.append_assoc, List.append_assoc, List.append_assoc,
        List.append_assoc]
    have pattern : crlf ++ crlf = carriageReturn :: [newline, carriageReturn, newline] := rfl
    rw [shape, pattern, strstr_run _ line _ free, ← pattern]
    cases lines with
    | nil =>
      have here : crlf ++ (([] : List Bytes).flatMap (· ++ crlf) ++ crlf ++ rest) =
          crlf ++ crlf ++ rest := by
        rw [List.flatMap_nil, List.nil_append, List.append_assoc]
      rw [here, strstr_prefix]
    | cons second lines =>
      obtain ⟨c, others, start⟩ :=
        List.exists_cons_of_ne_nil (formed second (List.mem_cons_of_mem _ List.mem_cons_self)).1
      have clear : c ≠ carriageReturn := by
        intro same
        refine (formed second (List.mem_cons_of_mem _ List.mem_cons_self)).2 ?_
        rw [start, same]
        exact List.mem_cons_self
      have front : ∃ tail, (second :: lines).flatMap (· ++ crlf) ++ crlf ++ rest = c :: tail :=
        ⟨_, by rw [List.flatMap_cons, start]; rfl⟩
      obtain ⟨tail, behind⟩ := front
      have next := ih (List.cons_ne_nil _ _) later
      rw [behind] at next ⊢
      have open_ : crlf ++ c :: tail = carriageReturn :: newline :: c :: tail := rfl
      rw [open_, strstr_skip, strstr_skip, next]
      · intro starts
        have same := (List.cons_prefix_cons.mp starts).1
        exact absurd same (by decide)
      · intro starts
        have two := (List.cons_prefix_cons.mp starts).2
        have three := (List.cons_prefix_cons.mp two).2
        exact clear (List.cons_prefix_cons.mp three).1.symm

/-- The head has no terminator. -/
theorem head_terminated : (0 : UInt8) ∉ response.head := by
  intro member
  rcases List.mem_append.mp member with inside | ending
  · obtain ⟨line, among, within⟩ := List.mem_flatMap.mp inside
    rcases List.mem_append.mp within with text | ending
    · exact ((response.lines_formed line among).2 0 text).1 rfl
    · exact absurd ending (by decide)
  · exact absurd ending (by decide)

/-- The first empty line of a text that starts with the head is at its end. -/
theorem strstr_head (rest : Bytes) :
    strstr (crlf ++ crlf) (response.head ++ rest) = some (crlf ++ crlf ++ rest) := by
  refine strstr_lines (List.cons_ne_nil _ _) ?_ rest
  intro line member
  have formed := response.lines_formed line member
  exact ⟨formed.1, fun inside => (formed.2 _ inside).2 rfl⟩

/-- The status line in front of the head. -/
theorem head_status : ∃ rest, response.head =
    ascii "HTTP/1.1 " ++ response.status ++ space :: rest := by
  refine ⟨response.reason ++ crlf ++
    (response.fields.map (·.line)).flatMap (· ++ crlf) ++ crlf, ?_⟩
  unfold head lines
  rw [List.flatMap_cons]
  simp only [List.append_assoc, List.cons_append]

/-- The head ends with the empty line. -/
theorem head_ends : ∃ front, response.head = front ++ (crlf ++ crlf) := by
  obtain ⟨front, whole⟩ := (strstr_some (response.strstr_head [])).1
  rw [List.append_nil, List.append_nil] at whole
  exact ⟨front, whole.symm⟩

end HttpResponse

end Cookbook.Http
