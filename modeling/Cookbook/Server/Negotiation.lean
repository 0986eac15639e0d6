import Cookbook.Grid.Forwarding
import Cookbook.Http.Response
import Cookbook.Library.Json
import Cookbook.Server.Machine
import Mathlib.Data.List.MinMax

/-!
# Content negotiation

An `Accept` field lists media ranges, each with a quality. `parse_accept` cuts the field at commas and
searches each piece for the names it knows and for a quality; of several pieces for one name the last
one stands. `text/plain` and the range of everything stand for Pasta.
-/
namespace Cookbook.Server

open Library.Text

/-! ## The scan -/

/-- `content_pref` -/
inductive ContentPref
  /-- `CT_PASTA` -/
  | pasta
  /-- `CT_JSON` -/
  | json
  /-- `CT_UNKNOWN` -/
  | unknown
  deriving DecidableEq

/-- The digits behind a dot. -/
def fractionRun : Bytes → Bytes
  | c :: rest => if c = dot then rest.takeWhile isDecimal else []
  | [] => []

/-- `atof` on a decimal number; what stands behind it is not looked at. The numbers of a field have
three places at most, and doubles keep these apart and in their order. -/
def atof (text : Bytes) : ℚ :=
  let (negative, rest) := readSign (text.dropWhile isSpace)
  let whole := rest.takeWhile isDecimal
  let part := fractionRun (rest.dropWhile isDecimal)
  let size : ℚ := readDigits (whole ++ part) / 10 ^ part.length
  if negative then -size else size

/-- What a piece of the field is taken for. -/
inductive RangeKind
  /-- Pasta. -/
  | pasta
  /-- JSON. -/
  | json
  /-- Plain text. -/
  | text
  /-- Everything. -/
  | star
  /-- None of them. -/
  | other
  deriving DecidableEq

/-- The names in a piece, in the order of the tests. -/
def tokenKind (tok : Bytes) : RangeKind :=
  if (strstr (ascii "application/x-pasta") tok).isSome ∨
      (strstr (ascii "application/pasta") tok).isSome then .pasta
  else if (strstr (ascii "application/json") tok).isSome then .json
  else if (strstr (ascii "text/plain") tok).isSome then .text
  else if (strstr (ascii "*/*") tok).isSome then .star
  else .other

/-- The quality in a piece, one without it. -/
def tokenQuality (tok : Bytes) : ℚ :=
  match strstr (ascii ";q=") tok with
  | some qp => atof (qp.drop 3)
  | none =>
    match strstr (ascii "; q=") tok with
    | some qp => atof (qp.drop 4)
    | none => 1

/-- The qualities that the scan keeps, less than zero for what has not been seen. -/
structure Qualities where
  /-- `q_pasta` -/
  pasta : ℚ
  /-- `q_json` -/
  json : ℚ
  /-- `q_text` -/
  text : ℚ
  /-- `q_star` -/
  star : ℚ

/-- A piece that is read as a kind with a quality. -/
def Qualities.note (seen : Qualities) (kind : RangeKind) (q : ℚ) : Qualities :=
  match kind with
  | .pasta => { seen with pasta := q }
  | .json => { seen with json := q }
  | .text => { seen with text := q }
  | .star => { seen with star := q }
  | .other => seen

/-- What is preferred at the end. -/
def Qualities.choose (seen : Qualities) : ContentPref :=
  let pasta := if seen.pasta < seen.text then seen.text else seen.pasta
  let pasta := if 0 ≤ seen.star ∧ pasta < 0 ∧ seen.json < 0 then seen.star else pasta
  if pasta < 0 ∧ seen.json < 0 then .unknown
  else if pasta < seen.json then .json
  else .pasta

/-- The loop over the pieces. -/
def scanTokens (tokens : List Bytes) : Qualities :=
  tokens.foldl (fun seen token =>
    let tok := token.dropWhile (· == space)
    seen.note (tokenKind tok) (tokenQuality tok)) ⟨-1, -1, -1, -1⟩

/-- `parse_accept` -/
def parseAccept (request : Request) : ContentPref :=
  match Grid.presentHeader request.headers (ascii "Accept") with
  | none => .pasta
  | some accept => (scanTokens (Grid.tokens (snprintf 1024 accept))).choose

/-! ## Fields -/

/-- A quoted text behind its opening quote: a backslash takes the next character as it is. -/
def quotedRun : Bytes → Bool
  | [] => false
  | [c] => c == quote
  | c :: next :: rest =>
    if c = quote then false
    else if c = 0x5C then quotedRun rest
    else quotedRun (next :: rest)

/-- A quoted text. -/
def IsQuoted (value : Bytes) : Prop := value.head? = some quote ∧ quotedRun value.tail = true

instance (value : Bytes) : Decidable (IsQuoted value) := inferInstanceAs (Decidable (_ ∧ _))

/-- A parameter of a media range. -/
structure Parameter where
  /-- The blanks behind the semicolon. -/
  before : Bytes
  /-- The name. -/
  name : Bytes
  /-- The value. -/
  value : Bytes
  /-- The blanks behind the value. -/
  after : Bytes
  /-- The blanks are blanks. -/
  blank : ∀ c ∈ before ++ after, c = space ∨ c = tab
  /-- The name is a token. -/
  named : ∀ c ∈ name, Http.isTokenChar c = true
  /-- It is not that of the quality. -/
  proper : name ≠ ascii "q" ∧ name ≠ ascii "Q"
  /-- The value is a token or a quoted text. -/
  valued : (∀ c ∈ value, Http.isTokenChar c = true) ∨ IsQuoted value

/-- A quality: a number from zero to one with three places at most. -/
structure Weight where
  /-- The blanks behind the semicolon. -/
  before : Bytes
  /-- The name, in lower case. -/
  lowered : Bool
  /-- Whether the number starts with a one. -/
  full : Bool
  /-- The digits behind the dot, when there is a dot. -/
  places : Option Bytes
  /-- The blanks behind the number. -/
  after : Bytes
  /-- The blanks are blanks. -/
  blank : ∀ c ∈ before ++ after, c = space ∨ c = tab
  /-- There are three places at most, and they are digits. -/
  decimal : (places.getD []).length ≤ 3 ∧ ∀ c ∈ places.getD [], isDecimal c = true
  /-- Nothing is above one. -/
  bounded : full = true → ∀ c ∈ places.getD [], c = 0x30

/-- A media range with its quality. -/
structure MediaRange where
  /-- The blanks in front of it. -/
  before : Bytes
  /-- The type. -/
  type : Bytes
  /-- The subtype. -/
  subtype : Bytes
  /-- The blanks behind it. -/
  after : Bytes
  /-- Its parameters. -/
  parameters : List Parameter
  /-- Its quality. -/
  weight : Option Weight
  /-- The blanks are blanks. -/
  blank : ∀ c ∈ before ++ after, c = space ∨ c = tab
  /-- The names are tokens. -/
  named : ∀ c ∈ type ++ subtype, Http.isTokenChar c = true

/-- The text of a parameter behind its semicolon. -/
def Parameter.text (parameter : Parameter) : Bytes :=
  parameter.before ++ (parameter.name ++ 0x3D :: (parameter.value ++ parameter.after))

/-- The scan does not look into the value: a quoted text has no comma in it, and nothing that is
spelled like a quality. -/
structure Parameter.Closed (parameter : Parameter) : Prop where
  /-- No piece ends in the value. -/
  uncut : comma ∉ parameter.value
  /-- No quality is found in it. -/
  near : ¬ ascii ";q=" <:+: parameter.value
  /-- Nor behind a blank. -/
  far : ¬ ascii "; q=" <:+: parameter.value

instance (parameter : Parameter) : Decidable parameter.Closed :=
  decidable_of_iff (comma ∉ parameter.value ∧ ¬ ascii ";q=" <:+: parameter.value ∧
    ¬ ascii "; q=" <:+: parameter.value)
    ⟨fun ⟨uncut, near, far⟩ => ⟨uncut, near, far⟩, fun ⟨uncut, near, far⟩ => ⟨uncut, near, far⟩⟩

namespace Weight

/-- The number as it is written. -/
def number (weight : Weight) : Bytes :=
  (if weight.full then 0x31 else 0x30) :: (match weight.places with
    | none => []
    | some places => dot :: places)

/-- The text behind the semicolon. -/
def text (weight : Weight) : Bytes :=
  weight.before ++ (if weight.lowered then 0x71 else 0x51) :: 0x3D :: (weight.number ++ weight.after)

/-- What the number says. -/
def value (weight : Weight) : ℚ :=
  readDigits ((if weight.full then 0x31 else 0x30) :: weight.places.getD []) /
    10 ^ (weight.places.getD []).length

/-- The spelling that the scan looks for: a small letter, and at most one space in front of it. -/
def Plain (weight : Weight) : Prop :=
  weight.lowered = true ∧ (weight.before = [] ∨ weight.before = [space])

instance (weight : Weight) : Decidable weight.Plain := inferInstanceAs (Decidable (_ ∧ _))

end Weight

namespace MediaRange

/-- What stands behind the semicolons. -/
def segments (range : MediaRange) : List Bytes :=
  range.parameters.map Parameter.text ++ range.weight.toList.map Weight.text

/-- What stands in front of the first semicolon. -/
def front (range : MediaRange) : Bytes :=
  range.before ++ (range.type ++ slash :: (range.subtype ++ range.after))

/-- The text of a range. -/
def text (range : MediaRange) : Bytes :=
  range.front ++ range.segments.flatMap (0x3B :: ·)

/-- What a range is about. -/
def kind (range : MediaRange) : RangeKind :=
  let name := (range.type ++ slash :: range.subtype).map Http.lower
  if name = ascii "application/x-pasta" ∨ name = ascii "application/pasta" then .pasta
  else if name = ascii "application/json" then .json
  else if name = ascii "text/plain" then .text
  else if name = ascii "*/*" then .star
  else .other

/-- The scan looks into none of its parameters. -/
def Closed (range : MediaRange) : Prop := ∀ parameter ∈ range.parameters, parameter.Closed

instance (range : MediaRange) : Decidable range.Closed := inferInstanceAs (Decidable (∀ _ ∈ _, _))

/-- The quality of a range. -/
def quality (range : MediaRange) : ℚ := (range.weight.map Weight.value).getD 1

/-- What a range is taken for: the text is searched for names. -/
def readKind (range : MediaRange) : RangeKind :=
  tokenKind (range.text.dropWhile (· == space))

/-- The quality that a range is taken to have: one, when the spelling is another. -/
def readQuality (range : MediaRange) : ℚ :=
  match range.weight with
  | some weight => if weight.Plain then weight.value else 1
  | none => 1

end MediaRange

/-- The text of a field. -/
def acceptText (ranges : List MediaRange) : Bytes := [comma].intercalate (ranges.map (·.text))

/-- The request asks for some ranges. -/
def Request.Accepts (request : Request) (ranges : List MediaRange) : Prop :=
  Grid.findHeader request.headers (ascii "Accept") = some (acceptText ranges)

/-! ## Searching a range -/

/-- A pattern without a delimiter that starts a delimited text starts its first piece. -/
theorem prefix_piece {stop : UInt8} {key piece rest : Bytes} (free : stop ∉ key)
    (starts : key <+: piece ++ rest) (ends : ∀ c ∈ rest.head?, c = stop) : key <+: piece := by
  by_cases short : key.length ≤ piece.length
  · exact List.prefix_of_prefix_length_le starts (List.prefix_append _ _) short
  · cases rest with
    | nil => simpa using starts
    | cons c rest =>
      -- The pattern would reach over the delimiter.
      obtain rfl : c = stop := ends c rfl
      have front : piece ++ [c] <+: piece ++ c :: rest := ⟨rest, by simp⟩
      have beyond : piece ++ [c] <+: key :=
        List.prefix_of_prefix_length_le front starts (by simp; omega)
      exact absurd (beyond.subset (by simp)) free

/-- A search for a pattern that starts with a delimiter passes a text that does not hold it. -/
theorem strstr_past {stop : UInt8} {key : Bytes} (keyFree : stop ∉ key) {front rest : Bytes}
    (absent : ¬ stop :: key <:+: front) (ends : ∀ c ∈ rest.head?, c = stop) :
    strstr (stop :: key) (front ++ rest) = strstr (stop :: key) rest := by
  induction front with
  | nil => rfl
  | cons c front ih =>
    rw [List.cons_append, strstr_skip, ih fun occurs => absent (List.infix_cons occurs)]
    intro starts
    obtain ⟨rfl, behind⟩ := List.cons_prefix_cons.mp starts
    exact absent (List.cons_prefix_cons.mpr ⟨rfl, prefix_piece keyFree behind ends⟩).isInfix

/-- It is not found in pieces that neither hold it nor start with its rest. -/
theorem strstr_pieces {stop : UInt8} {key : Bytes} (keyFree : stop ∉ key) {pieces : List Bytes}
    (absent : ∀ piece ∈ pieces, ¬ stop :: key <:+: piece ∧ ¬ key <+: piece) {front rest : Bytes}
    (frontFree : stop ∉ front) (ends : ∀ c ∈ rest.head?, c = stop) :
    strstr (stop :: key) (front ++ (pieces.flatMap (stop :: ·) ++ rest)) =
      strstr (stop :: key) rest := by
  rw [strstr_run _ _ _ frontFree]
  induction pieces with
  | nil => rfl
  | cons piece pieces ih =>
    have later := ih fun other member => absent other (List.mem_cons_of_mem _ member)
    obtain ⟨without, unlike⟩ := absent piece List.mem_cons_self
    have next : ∀ c ∈ (pieces.flatMap (stop :: ·) ++ rest).head?, c = stop := by
      cases pieces with
      | nil => exact ends
      | cons other pieces => simp
    rw [List.flatMap_cons, List.cons_append, List.cons_append, List.append_assoc, strstr_skip,
      strstr_past keyFree without next, later]
    rw [List.cons_prefix_cons]
    rintro ⟨-, starts⟩
    exact unlike (prefix_piece keyFree starts next)

/-! ## The parts of a range -/

/-- A character of a token delimits nothing. -/
theorem tokenChar_plain : ∀ c : UInt8, Http.isTokenChar c = true →
    c ≠ comma ∧ c ≠ 0x3B ∧ c ≠ 0x3D ∧ c ≠ space := byte_forall (by decide +kernel)

/-- A digit delimits nothing either. -/
theorem decimal_undelimited : ∀ c : UInt8, isDecimal c = true →
    c ≠ comma ∧ c ≠ 0x3B := byte_forall (by decide +kernel)

/-- A blank is no delimiter. -/
theorem blank_undelimited {c : UInt8} (blank : c = space ∨ c = tab) : c ≠ comma ∧ c ≠ 0x3B := by
  rcases blank with rfl | rfl <;> decide

/-- A text with neither a comma nor a semicolon. -/
def Undelimited (text : Bytes) : Prop := ∀ c ∈ text, c ≠ comma ∧ c ≠ 0x3B

/-- Joined texts have neither when no part has. -/
theorem undelimited_append {front back : Bytes} (first : Undelimited front)
    (second : Undelimited back) : Undelimited (front ++ back) := by
  intro c member
  exact (List.mem_append.mp member).elim (first c) (second c)

/-- The blanks and the name of a parameter have no delimiters. -/
theorem Parameter.front_undelimited (parameter : Parameter) :
    Undelimited (parameter.before ++ (parameter.name ++ [0x3D])) ∧ Undelimited parameter.after := by
  have blanks : ∀ c ∈ parameter.before ++ parameter.after, c ≠ comma ∧ c ≠ 0x3B :=
    fun c member => blank_undelimited (parameter.blank c member)
  have name : Undelimited parameter.name := fun c member =>
    ⟨(tokenChar_plain c (parameter.named c member)).1,
      (tokenChar_plain c (parameter.named c member)).2.1⟩
  have mark : Undelimited [0x3D] := by
    intro c member
    obtain rfl := List.mem_singleton.mp member
    decide
  exact ⟨undelimited_append (fun c member => blanks c (List.mem_append_left _ member))
    (undelimited_append name mark), fun c member => blanks c (List.mem_append_right _ member)⟩

/-- A parameter into which the scan does not look has no comma. -/
theorem Parameter.text_free {parameter : Parameter} (closed : parameter.Closed) :
    comma ∉ parameter.text := by
  obtain ⟨front, after⟩ := parameter.front_undelimited
  have shape : parameter.text = (parameter.before ++ (parameter.name ++ [0x3D])) ++
      (parameter.value ++ parameter.after) := by simp [Parameter.text]
  rw [shape]
  intro member
  rcases List.mem_append.mp member with inside | inside
  · exact (front _ inside).1 rfl
  · rcases List.mem_append.mp inside with inside | inside
    · exact closed.uncut inside
    · exact (after _ inside).1 rfl

/-- Nor has it a key of a quality: one that is found stands in the value. -/
theorem Parameter.text_keyless {parameter : Parameter} (closed : parameter.Closed) :
    ¬ ascii ";q=" <:+: parameter.text ∧ ¬ ascii "; q=" <:+: parameter.text := by
  obtain ⟨front, -⟩ := parameter.front_undelimited
  have blanks : (0x3D : UInt8) ∉ parameter.after := fun member =>
    absurd (parameter.blank _ (List.mem_append_right _ member)) (by decide)
  have shape : parameter.text = (parameter.before ++ (parameter.name ++ [0x3D])) ++
      (parameter.value ++ parameter.after) := by simp [Parameter.text]
  have inside (middle : Bytes) (occurs : (0x3B :: middle) ++ [0x3D] <:+: parameter.text) :
      (0x3B :: middle) ++ [0x3D] <:+: parameter.value := by
    rw [shape] at occurs
    exact infix_before blanks (infix_behind (fun member => (front _ member).2 rfl) occurs)
  exact ⟨fun occurs => closed.near (inside (ascii "q") occurs),
    fun occurs => closed.far (inside (ascii " q") occurs)⟩

/-- The number of a weight has no delimiters. -/
theorem Weight.number_undelimited (weight : Weight) : Undelimited weight.number := by
  intro c member
  rcases List.mem_cons.mp member with rfl | inside
  · cases weight.full <;> decide
  · have digits := weight.decimal.2
    cases places : weight.places with
    | none =>
      rw [places] at inside
      cases inside
    | some run =>
      rw [places] at inside digits
      rcases List.mem_cons.mp inside with rfl | inside
      · decide
      · exact decimal_undelimited c (digits c inside)

/-- The text of a weight has no delimiters. -/
theorem Weight.text_undelimited (weight : Weight) : Undelimited weight.text := by
  have blanks : ∀ c ∈ weight.before ++ weight.after, c ≠ comma ∧ c ≠ 0x3B :=
    fun c member => blank_undelimited (weight.blank c member)
  have name : Undelimited [if weight.lowered then 0x71 else 0x51, 0x3D] := by
    intro c member
    simp only [List.mem_cons, List.not_mem_nil, or_false] at member
    rcases member with rfl | rfl
    · cases weight.lowered <;> decide
    · decide
  refine undelimited_append (fun c member => blanks c (List.mem_append_left _ member)) ?_
  refine undelimited_append name (undelimited_append weight.number_undelimited ?_)
  exact fun c member => blanks c (List.mem_append_right _ member)

namespace MediaRange

/-- The front of a range has no delimiters. -/
theorem front_undelimited (range : MediaRange) : Undelimited range.front := by
  have blanks : ∀ c ∈ range.before ++ range.after, c ≠ comma ∧ c ≠ 0x3B :=
    fun c member => blank_undelimited (range.blank c member)
  have names : ∀ c ∈ range.type ++ range.subtype, c ≠ comma ∧ c ≠ 0x3B := fun c member =>
    ⟨(tokenChar_plain c (range.named c member)).1, (tokenChar_plain c (range.named c member)).2.1⟩
  have mark : Undelimited [slash] := by
    intro c member
    obtain rfl := List.mem_singleton.mp member
    decide
  refine undelimited_append (fun c member => blanks c (List.mem_append_left _ member)) ?_
  refine undelimited_append (fun c member => names c (List.mem_append_left _ member)) ?_
  refine undelimited_append mark (undelimited_append (fun c member => ?_) fun c member => ?_)
  · exact names c (List.mem_append_right _ member)
  · exact blanks c (List.mem_append_right _ member)

/-- The text of a range into which the scan does not look has no comma. -/
theorem text_free {range : MediaRange} (closed : range.Closed) : comma ∉ range.text := by
  have segments : ∀ segment ∈ range.segments, comma ∉ segment := by
    intro segment member
    rcases List.mem_append.mp member with inside | inside
    · obtain ⟨parameter, among, rfl⟩ := List.mem_map.mp inside
      exact Parameter.text_free (closed parameter among)
    · obtain ⟨weight, -, rfl⟩ := List.mem_map.mp inside
      exact fun mark => (weight.text_undelimited _ mark).1 rfl
  intro member
  rcases List.mem_append.mp member with inside | inside
  · exact (range.front_undelimited _ inside).1 rfl
  · obtain ⟨segment, among, within⟩ := List.mem_flatMap.mp inside
    rcases List.mem_cons.mp within with mark | within
    · exact absurd mark (by decide)
    · exact segments segment among within

/-- The text of a range is not empty. -/
theorem text_filled (range : MediaRange) : range.text ≠ [] := by
  simp [text, front]

end MediaRange

/-! ## Searching for a quality -/

/-- A named piece starts with `q=` when this is its name. -/
theorem key_starts {before name : Bytes} (rest : Bytes) (blank : ∀ c ∈ before, c = space ∨ c = tab)
    (named : ∀ c ∈ name, Http.isTokenChar c = true) :
    ascii "q=" <+: before ++ (name ++ 0x3D :: rest) ↔ before = [] ∧ name = ascii "q" := by
  have key : ascii "q=" = 0x71 :: [0x3D] := by decide
  constructor
  · intro starts
    rw [key] at starts
    cases before with
    | cons b before =>
      obtain ⟨rfl, -⟩ := List.cons_prefix_cons.mp starts
      exact absurd (blank _ List.mem_cons_self) (by decide)
    | nil =>
      refine ⟨rfl, ?_⟩
      cases name with
      | nil =>
        obtain ⟨same, -⟩ := List.cons_prefix_cons.mp starts
        exact absurd same (by decide)
      | cons c name =>
        obtain ⟨rfl, behind⟩ := List.cons_prefix_cons.mp starts
        cases name with
        | nil => rfl
        | cons d name =>
          obtain ⟨rfl, -⟩ := List.cons_prefix_cons.mp behind
          exact absurd rfl (tokenChar_plain _ (named _ (by simp))).2.2.1
  · rintro ⟨rfl, rfl⟩
    exact ⟨rest, rfl⟩

/-- A named piece starts with a space and `q=` when this is its name and nothing else stands in front
of it. -/
theorem spaced_key_starts {before name : Bytes} (rest : Bytes)
    (blank : ∀ c ∈ before, c = space ∨ c = tab) (named : ∀ c ∈ name, Http.isTokenChar c = true) :
    ascii " q=" <+: before ++ (name ++ 0x3D :: rest) ↔ before = [space] ∧ name = ascii "q" := by
  have key : ascii " q=" = space :: ascii "q=" := by decide
  rw [key]
  constructor
  · intro starts
    cases before with
    | nil =>
      cases name with
      | nil =>
        obtain ⟨same, -⟩ := List.cons_prefix_cons.mp starts
        exact absurd same (by decide)
      | cons c name =>
        obtain ⟨rfl, -⟩ := List.cons_prefix_cons.mp starts
        exact absurd rfl (tokenChar_plain _ (named _ (by simp))).2.2.2
    | cons b before =>
      obtain ⟨rfl, behind⟩ := List.cons_prefix_cons.mp starts
      obtain ⟨rfl, same⟩ := (key_starts rest
        (fun c member => blank c (List.mem_cons_of_mem _ member)) named).mp behind
      exact ⟨rfl, same⟩
  · rintro ⟨rfl, rfl⟩
    exact ⟨rest, rfl⟩

namespace Parameter

/-- A parameter is not taken for a quality. -/
theorem no_key (parameter : Parameter) :
    ¬ ascii "q=" <+: parameter.text ∧ ¬ ascii " q=" <+: parameter.text := by
  have blank : ∀ c ∈ parameter.before, c = space ∨ c = tab := fun c member =>
    parameter.blank c (List.mem_append_left _ member)
  rw [text, key_starts _ blank parameter.named, spaced_key_starts _ blank parameter.named]
  exact ⟨fun both => parameter.proper.1 both.2, fun both => parameter.proper.1 both.2⟩

end Parameter

namespace Weight

/-- The name of a weight. -/
theorem text_eq (weight : Weight) : weight.text =
    weight.before ++ ([if weight.lowered then 0x71 else 0x51] ++
      0x3D :: (weight.number ++ weight.after)) := rfl

/-- A weight is found in the spelling that the scan looks for. -/
theorem key_iff (weight : Weight) :
    (ascii "q=" <+: weight.text ↔ weight.lowered = true ∧ weight.before = []) ∧
      (ascii " q=" <+: weight.text ↔ weight.lowered = true ∧ weight.before = [space]) := by
  have blank : ∀ c ∈ weight.before, c = space ∨ c = tab := fun c member =>
    weight.blank c (List.mem_append_left _ member)
  have named : ∀ c ∈ [if weight.lowered then (0x71 : UInt8) else 0x51],
      Http.isTokenChar c = true := by
    intro c member
    obtain rfl := List.mem_singleton.mp member
    cases weight.lowered <;> decide
  have small : [if weight.lowered then (0x71 : UInt8) else 0x51] = ascii "q" ↔
      weight.lowered = true := by
    cases weight.lowered <;> decide
  rw [text_eq, key_starts _ blank named, spaced_key_starts _ blank named, small]
  exact ⟨and_comm, and_comm⟩

end Weight

/-! ## Reading a quality -/

/-- A blank is neither a digit nor a dot. -/
theorem blank_unnumbered {c : UInt8} (blank : c = space ∨ c = tab) :
    isDecimal c = false ∧ c ≠ dot := by
  rcases blank with rfl | rfl <;> decide

namespace Weight

/-- The first digit of a number. -/
def first (weight : Weight) : UInt8 := if weight.full then 0x31 else 0x30

/-- It is a digit. -/
theorem first_decimal (weight : Weight) : isDecimal weight.first = true := by
  unfold first
  cases weight.full <;> decide

/-- The digits of a number are read. -/
theorem atof_number (weight : Weight) : atof (weight.number ++ weight.after) = weight.value := by
  have digit := weight.first_decimal
  obtain ⟨unspaced, unsigned⟩ := decimal_plain _ digit
  have behind : ∀ c ∈ weight.after, isDecimal c = false ∧ c ≠ dot := fun c member =>
    blank_unnumbered (weight.blank c (List.mem_append_right _ member))
  have unended : ∀ c ∈ weight.after.head?, isDecimal c = false := fun c member =>
    (behind c (List.mem_of_mem_head? member)).1
  obtain ⟨rest, shape, run, part⟩ : ∃ rest, weight.number ++ weight.after = weight.first :: rest ∧
      rest.takeWhile isDecimal = [] ∧
        fractionRun (rest.dropWhile isDecimal) = weight.places.getD [] := by
    cases places : weight.places with
    | none =>
      refine ⟨weight.after, by simp [number, first, places], ?_⟩
      cases after : weight.after with
      | nil => exact ⟨rfl, rfl⟩
      | cons c after =>
        obtain ⟨other, undotted⟩ := behind c (by rw [after]; exact List.mem_cons_self)
        simp [other, fractionRun, undotted]
    | some run =>
      have digits := weight.decimal.2
      rw [places] at digits
      refine ⟨dot :: (run ++ weight.after), by simp [number, first, places],
        List.takeWhile_cons_of_neg (by decide), ?_⟩
      rw [List.dropWhile_cons_of_neg (by decide), fractionRun, if_pos rfl]
      exact takeWhile_decimal digits unended
  have sign : readSign (weight.first :: rest) = (false, weight.first :: rest) := by
    rw [readSign, if_neg unsigned.1, if_neg unsigned.2]
  rw [atof, shape, List.dropWhile_cons_of_neg (by simp [unspaced]), sign]
  simp only [List.takeWhile_cons_of_pos digit, List.dropWhile_cons_of_pos digit, run, part,
    List.cons_append, List.nil_append]
  rfl

/-- A quality is not negative. -/
theorem value_nonneg (weight : Weight) : 0 ≤ weight.value := by
  exact div_nonneg (Nat.cast_nonneg _) (pow_nonneg (by decide) _)

end Weight

namespace MediaRange

/-- A quality that is read is not negative. -/
theorem readQuality_nonneg (range : MediaRange) : 0 ≤ range.readQuality := by
  unfold readQuality
  cases range.weight with
  | none => decide
  | some weight =>
    dsimp only
    split
    · exact weight.value_nonneg
    · decide

/-- What a search for a key gives: the weight when the key stands in front of it. -/
theorem strstr_weight (range : MediaRange) (key : Bytes) {front : Bytes} (keyFree : 0x3B ∉ key)
    (frontFree : 0x3B ∉ front) (absent : ∀ parameter ∈ range.parameters,
      ¬ 0x3B :: key <:+: parameter.text ∧ ¬ key <+: parameter.text) :
    strstr (0x3B :: key) (front ++ range.segments.flatMap (0x3B :: ·)) =
      match range.weight with
      | none => none
      | some weight => if key <+: weight.text then some (0x3B :: weight.text) else none := by
  have pieces : ∀ piece ∈ range.parameters.map Parameter.text,
      ¬ 0x3B :: key <:+: piece ∧ ¬ key <+: piece := by
    intro piece member
    obtain ⟨parameter, among, rfl⟩ := List.mem_map.mp member
    exact absent parameter among
  have ends : ∀ c ∈ ((range.weight.toList.map Weight.text).flatMap (0x3B :: ·)).head?,
      c = 0x3B := by
    cases range.weight <;> simp
  rw [segments, List.flatMap_append, strstr_pieces keyFree pieces frontFree ends]
  cases range.weight with
  | none => simp [strstr]
  | some weight =>
    have whole : ((some weight).toList.map Weight.text).flatMap (0x3B :: ·) =
        0x3B :: weight.text := by simp
    rw [whole]
    dsimp only
    by_cases found : key <+: weight.text
    · obtain ⟨rest, shape⟩ := found
      rw [if_pos ⟨rest, shape⟩, ← shape, ← List.cons_append, strstr_prefix]
    · have free : 0x3B ∉ weight.text := fun mark => (weight.text_undelimited _ mark).2 rfl
      have last := strstr_run key weight.text [] free
      rw [List.append_nil] at last
      rw [if_neg found, strstr_skip (by rw [List.cons_prefix_cons]; exact fun both => found both.2),
        last]
      rfl

/-- The text of a range without the spaces in front of it. -/
theorem trimmed (range : MediaRange) : ∃ front, 0x3B ∉ front ∧
    range.text.dropWhile (· == space) = front ++ range.segments.flatMap (0x3B :: ·) := by
  refine ⟨range.front.dropWhile (· == space), fun member => ?_, ?_⟩
  · exact (range.front_undelimited _ ((List.dropWhile_suffix _).subset member)).2 rfl
  · have filled : ¬ (range.front.dropWhile (· == space)).isEmpty = true := by
      rw [List.isEmpty_iff, List.dropWhile_eq_nil_iff]
      intro all
      have mark := all slash (by simp [front])
      exact absurd mark (by decide)
    rw [text, List.dropWhile_append, if_neg filled]

/-- The quality in the text of a range. -/
theorem tokenQuality_text {range : MediaRange} (closed : range.Closed) :
    tokenQuality (range.text.dropWhile (· == space)) = range.readQuality := by
  obtain ⟨front, free, shape⟩ := range.trimmed
  have first := range.strstr_weight (ascii "q=") (by decide) free fun parameter member =>
    ⟨(Parameter.text_keyless (closed parameter member)).1, parameter.no_key.1⟩
  have second := range.strstr_weight (ascii " q=") (by decide) free fun parameter member =>
    ⟨(Parameter.text_keyless (closed parameter member)).2, parameter.no_key.2⟩
  have near : ascii ";q=" = 0x3B :: ascii "q=" := by decide
  have far : ascii "; q=" = 0x3B :: ascii " q=" := by decide
  rw [tokenQuality, shape, near, far, first, second, readQuality]
  cases range.weight with
  | none => rfl
  | some weight =>
    obtain ⟨here, behind⟩ := weight.key_iff
    dsimp only
    by_cases close : ascii "q=" <+: weight.text
    · obtain ⟨lowered, before⟩ := here.mp close
      have digits : (0x3B :: weight.text).drop 3 = weight.number ++ weight.after := by
        rw [Weight.text, before]
        rfl
      have plain : weight.Plain := ⟨lowered, .inl before⟩
      rw [if_pos close, if_pos plain]
      dsimp only
      rw [digits, weight.atof_number]
    · by_cases spaced : ascii " q=" <+: weight.text
      · obtain ⟨lowered, before⟩ := behind.mp spaced
        have digits : (0x3B :: weight.text).drop 4 = weight.number ++ weight.after := by
          rw [Weight.text, before]
          rfl
        have plain : weight.Plain := ⟨lowered, .inr before⟩
        rw [if_neg close, if_pos spaced, if_pos plain]
        dsimp only
        rw [digits, weight.atof_number]
      · have other : ¬ weight.Plain := by
          rintro ⟨lowered, before | before⟩
          · exact close (here.mpr ⟨lowered, before⟩)
          · exact spaced (behind.mpr ⟨lowered, before⟩)
        rw [if_neg close, if_neg spaced, if_neg other]

end MediaRange

/-! ## The last range of a kind -/

/-- The quality of the last range that is taken for a kind, less than zero without one. -/
def lastQuality (kind : RangeKind) (ranges : List MediaRange) : ℚ :=
  ((ranges.filter fun range => range.readKind = kind).map MediaRange.readQuality).getLastD (-1)

/-- What the scan keeps of some ranges. -/
def kept (ranges : List MediaRange) : Qualities :=
  ⟨lastQuality .pasta ranges, lastQuality .json ranges, lastQuality .text ranges,
    lastQuality .star ranges⟩

/-- A range that stands last counts for its kind. -/
theorem lastQuality_concat (kind : RangeKind) (ranges : List MediaRange) (range : MediaRange) :
    lastQuality kind (ranges ++ [range]) =
      if range.readKind = kind then range.readQuality else lastQuality kind ranges := by
  unfold lastQuality
  by_cases same : range.readKind = kind <;> simp [List.filter_append, same]

/-- A range of another kind does not count. -/
theorem lastQuality_other {kind : RangeKind} {range : MediaRange} (other : range.readKind ≠ kind)
    (before after : List MediaRange) :
    lastQuality kind (before ++ range :: after) = lastQuality kind (before ++ after) := by
  simp [lastQuality, List.filter_append, other]

/-- Without a range of a kind nothing is kept. -/
theorem lastQuality_none {kind : RangeKind} {ranges : List MediaRange}
    (none : ∀ range ∈ ranges, range.readKind ≠ kind) : lastQuality kind ranges = -1 := by
  have empty : ranges.filter (fun range => range.readKind = kind) = [] :=
    List.filter_eq_nil_iff.mpr fun range member => by simpa using none range member
  rw [lastQuality, empty]
  rfl

/-- What is kept is the quality of a range. -/
theorem lastQuality_mem {kind : RangeKind} {ranges : List MediaRange}
    (some : ∃ range ∈ ranges, range.readKind = kind) :
    ∃ range ∈ ranges, range.readKind = kind ∧ lastQuality kind ranges = range.readQuality := by
  induction ranges using List.reverseRecOn with
  | nil => simp at some
  | append_singleton ranges last ih =>
    rw [lastQuality_concat]
    by_cases here : last.readKind = kind
    · exact ⟨last, by simp, here, if_pos here⟩
    · obtain ⟨range, member, same⟩ := some
      have before : range ∈ ranges := by
        rcases List.mem_append.mp member with inside | inside
        · exact inside
        · obtain rfl := List.mem_singleton.mp inside
          exact absurd same here
      obtain ⟨found, inside, kinds, equal⟩ := ih ⟨range, before, same⟩
      exact ⟨found, List.mem_append_left _ inside, kinds, by rw [if_neg here, equal]⟩

/-- It is negative for what has not been seen only. -/
theorem lastQuality_range (kind : RangeKind) (ranges : List MediaRange) :
    (lastQuality kind ranges = -1 ∧ ∀ range ∈ ranges, range.readKind ≠ kind) ∨
      (0 ≤ lastQuality kind ranges ∧ ∃ range ∈ ranges, range.readKind = kind) := by
  by_cases seen : ∃ range ∈ ranges, range.readKind = kind
  · obtain ⟨range, -, -, equal⟩ := lastQuality_mem seen
    exact .inr ⟨by rw [equal]; exact range.readQuality_nonneg, seen⟩
  · have none : ∀ range ∈ ranges, range.readKind ≠ kind := fun range member same =>
      seen ⟨range, member, same⟩
    exact .inl ⟨lastQuality_none none, none⟩

/-- A range can be moved to the end, where it counts, and nothing else changes. -/
theorem exists_last {ranges : List MediaRange} {range : MediaRange} (member : range ∈ ranges) :
    ∃ moved, moved.Perm ranges ∧ lastQuality range.readKind moved = range.readQuality ∧
      ∀ kind, kind ≠ range.readKind → lastQuality kind moved = lastQuality kind ranges := by
  obtain ⟨before, after, rfl⟩ := List.append_of_mem member
  refine ⟨before ++ after ++ [range], ?_, ?_, ?_⟩
  · rw [List.append_assoc]
    exact (List.perm_append_singleton range after).append_left before
  · rw [lastQuality_concat, if_pos rfl]
  · intro kind other
    rw [lastQuality_concat, if_neg (Ne.symm other), lastQuality_other (Ne.symm other)]

/-! ## The choice -/

/-- The loop keeps the last range of each kind. -/
theorem scanTokens_texts {ranges : List MediaRange} (closed : ∀ range ∈ ranges, range.Closed) :
    scanTokens (ranges.map (·.text)) = kept ranges := by
  induction ranges using List.reverseRecOn with
  | nil => rfl
  | append_singleton ranges last ih =>
    have before := ih fun range member => closed range (List.mem_append_left _ member)
    rw [scanTokens] at before ⊢
    rw [List.map_append, List.foldl_append, before]
    simp only [List.map_cons, List.map_nil, List.foldl_cons, List.foldl_nil]
    rw [MediaRange.tokenQuality_text (closed last (by simp)), ← MediaRange.readKind]
    simp only [kept, lastQuality_concat]
    cases last.readKind <;> rfl

/-- `parse_accept` goes by the last range of each kind. -/
theorem parseAccept_kept {request : Request} {ranges : List MediaRange} (filled : ranges ≠ [])
    (accepts : request.Accepts ranges) (fits : (acceptText ranges).length < 1024)
    (closed : ∀ range ∈ ranges, range.Closed) : parseAccept request = (kept ranges).choose := by
  have free : ∀ item ∈ ranges.map (·.text), comma ∉ item := by
    intro item member
    obtain ⟨range, among, rfl⟩ := List.mem_map.mp member
    exact MediaRange.text_free (closed range among)
  have nonempty : ∀ item ∈ ranges.map (·.text), item ≠ [] := by
    intro item member
    obtain ⟨range, -, rfl⟩ := List.mem_map.mp member
    exact range.text_filled
  have written : acceptText ranges ≠ [] := by
    obtain ⟨range, rest, rfl⟩ := List.exists_cons_of_ne_nil filled
    rw [acceptText, List.map_cons, intercalate_items]
    exact List.append_ne_nil_of_left_ne_nil range.text_filled _
  have present : Grid.presentHeader request.headers (ascii "Accept") = some (acceptText ranges) := by
    rw [Grid.presentHeader, accepts, Option.filter_some, if_pos (by simpa using written)]
  rw [parseAccept, present]
  dsimp only
  rw [snprintf_fits fits, acceptText, Grid.tokens_intercalate free nonempty, scanTokens_texts closed]

/-- Pasta gives way to JSON only when JSON is above it and above plain text. -/
theorem choose_json_iff {seen : Qualities} (pasta : seen.pasta = -1 ∨ 0 ≤ seen.pasta)
    (json : seen.json = -1 ∨ 0 ≤ seen.json) (text : seen.text = -1 ∨ 0 ≤ seen.text) :
    seen.choose = .json ↔ seen.pasta < seen.json ∧ seen.text < seen.json := by
  unfold Qualities.choose
  grind

/-- Nothing is chosen when nothing has been seen. -/
theorem choose_unknown_iff {seen : Qualities} (pasta : seen.pasta = -1 ∨ 0 ≤ seen.pasta)
    (json : seen.json = -1 ∨ 0 ≤ seen.json) (text : seen.text = -1 ∨ 0 ≤ seen.text)
    (star : seen.star = -1 ∨ 0 ≤ seen.star) :
    seen.choose = .unknown ↔
      seen.pasta = -1 ∧ seen.json = -1 ∧ seen.text = -1 ∧ seen.star = -1 := by
  unfold Qualities.choose
  grind

/-! ## What a field asks for -/

/-- Some range of a type that is served, or of everything, has a quality above zero. -/
def Acceptable (ranges : List MediaRange) : Prop :=
  ∃ range ∈ ranges, range.kind ≠ .other ∧ 0 < range.quality

/-- JSON has a quality above those of Pasta and of plain text. -/
def JsonHighest (ranges : List MediaRange) : Prop :=
  ∃ json ∈ ranges, json.kind = .json ∧
    ∀ other ∈ ranges, other.kind = .pasta ∨ other.kind = .text → other.quality < json.quality

/-- What an answer has to do with the field. -/
structure Negotiates (request : Request) (ranges : List MediaRange) : Prop where
  /-- JSON is answered only where it has the highest quality. -/
  json : parseAccept request = .json → JsonHighest ranges
  /-- Nothing is answered where nothing is acceptable. -/
  unknown : parseAccept request = .unknown ↔ ¬ Acceptable ranges
  /-- The order of the ranges is of no consequence. -/
  order : ∀ other ranges', other.Accepts ranges' → ranges'.Perm ranges →
    parseAccept other = parseAccept request

/-- Every range that is taken for JSON is below every range that is taken for a kind. -/
def Behind (kind : RangeKind) (ranges : List MediaRange) : Prop :=
  (∃ range ∈ ranges, range.readKind = kind) ∧
    ∀ json ∈ ranges, json.readKind = .json →
      ∀ range ∈ ranges, range.readKind = kind → json.readQuality ≤ range.readQuality

/-- Every range that is taken for JSON is above all that are taken for Pasta or plain text. -/
def Ahead (ranges : List MediaRange) : Prop :=
  (∃ json ∈ ranges, json.readKind = .json) ∧
    ∀ json ∈ ranges, json.readKind = .json →
      ∀ range ∈ ranges, range.readKind = .pasta ∨ range.readKind = .text →
        range.readQuality < json.readQuality

/-- The fields that are answered as they ask. -/
structure Settled (ranges : List MediaRange) : Prop where
  /-- Some range is taken for a type that is served exactly where something is acceptable. -/
  seen : (∃ range ∈ ranges, range.readKind ≠ .other) ↔ Acceptable ranges
  /-- Ranges for JSON are absent, or all of them ahead and rightly so, or all of them behind. -/
  ordered : (∀ range ∈ ranges, range.readKind ≠ .json) ∨ (Ahead ranges ∧ JsonHighest ranges) ∨
    Behind .pasta ranges ∨ Behind .text ranges

/-! ## The order of the ranges -/

/-- The choice of some ranges. -/
theorem kept_json_iff (ranges : List MediaRange) : (kept ranges).choose = .json ↔
    lastQuality .pasta ranges < lastQuality .json ranges ∧
      lastQuality .text ranges < lastQuality .json ranges :=
  choose_json_iff ((lastQuality_range .pasta ranges).imp And.left And.left)
    ((lastQuality_range .json ranges).imp And.left And.left)
    ((lastQuality_range .text ranges).imp And.left And.left)

/-- Nothing is kept of a kind exactly when no range is taken for it. -/
theorem lastQuality_none_iff (kind : RangeKind) (ranges : List MediaRange) :
    lastQuality kind ranges = -1 ↔ ∀ range ∈ ranges, range.readKind ≠ kind := by
  refine ⟨fun unseen => ?_, lastQuality_none⟩
  rcases lastQuality_range kind ranges with ⟨-, none⟩ | ⟨positive, -⟩
  · exact none
  · rw [unseen] at positive
    exact absurd positive (by decide)

/-- Nothing is chosen when all ranges are taken for something else. -/
theorem kept_unknown_iff (ranges : List MediaRange) : (kept ranges).choose = .unknown ↔
    ¬ ∃ range ∈ ranges, range.readKind ≠ .other := by
  rw [choose_unknown_iff ((lastQuality_range .pasta ranges).imp And.left And.left)
    ((lastQuality_range .json ranges).imp And.left And.left)
    ((lastQuality_range .text ranges).imp And.left And.left)
    ((lastQuality_range .star ranges).imp And.left And.left)]
  simp only [kept, lastQuality_none_iff]
  constructor
  · rintro ⟨pasta, json, text, star⟩ ⟨range, member, seen⟩
    cases kind : range.readKind with
    | pasta => exact pasta range member kind
    | json => exact json range member kind
    | text => exact text range member kind
    | star => exact star range member kind
    | other => exact seen kind
  · intro none
    have other : ∀ kind, kind ≠ .other → ∀ range ∈ ranges, range.readKind ≠ kind :=
      fun kind unlike range member same => none ⟨range, member, by rw [same]; exact unlike⟩
    exact ⟨other _ nofun, other _ nofun, other _ nofun, other _ nofun⟩

/-- Ranges for JSON that are ahead are preferred. -/
theorem Ahead.choose {ranges : List MediaRange} (ahead : Ahead ranges) :
    (kept ranges).choose = .json := by
  obtain ⟨some, above⟩ := ahead
  obtain ⟨json, member, kind, last⟩ := lastQuality_mem some
  have below : ∀ kind, kind = .pasta ∨ kind = .text →
      lastQuality kind ranges < lastQuality .json ranges := by
    intro served either
    rw [last]
    by_cases seen : ∃ range ∈ ranges, range.readKind = served
    · obtain ⟨range, inside, same, equal⟩ := lastQuality_mem seen
      rw [equal]
      exact above json member kind range inside (by rw [same]; exact either)
    · rw [lastQuality_none fun range inside same => seen ⟨range, inside, same⟩]
      exact lt_of_lt_of_le (by decide) json.readQuality_nonneg
  exact (kept_json_iff ranges).mpr ⟨below _ (.inl rfl), below _ (.inr rfl)⟩

/-- Without a range for JSON another choice is made. -/
theorem choose_absent {ranges : List MediaRange}
    (none : ∀ range ∈ ranges, range.readKind ≠ .json) : (kept ranges).choose ≠ .json := by
  intro chosen
  have below := ((kept_json_iff ranges).mp chosen).1
  rw [lastQuality_none none] at below
  rcases lastQuality_range .pasta ranges with ⟨least, -⟩ | ⟨positive, -⟩
  · rw [least] at below
    exact lt_irrefl _ below
  · exact absurd (positive.trans_lt below) (by decide)

/-- Nor is JSON chosen behind Pasta or plain text. -/
theorem Behind.choose {kind : RangeKind} {ranges : List MediaRange} (behind : Behind kind ranges)
    (either : kind = .pasta ∨ kind = .text) : (kept ranges).choose ≠ .json := by
  intro chosen
  by_cases some : ∃ range ∈ ranges, range.readKind = .json
  · obtain ⟨json, member, jsonKind, lastJson⟩ := lastQuality_mem some
    obtain ⟨range, inside, same, last⟩ := lastQuality_mem behind.1
    have order := behind.2 json member jsonKind range inside same
    have both := (kept_json_iff ranges).mp chosen
    rw [← last, ← lastJson] at order
    rcases either with rfl | rfl
    · exact absurd both.1 (not_lt.mpr order)
    · exact absurd both.2 (not_lt.mpr order)
  · exact choose_absent (fun range member same => some ⟨range, member, same⟩) chosen

/-- Where the ranges are ordered, JSON is chosen exactly when its ranges are ahead. -/
theorem choose_ordered {ranges : List MediaRange}
    (ordered : (∀ range ∈ ranges, range.readKind ≠ .json) ∨ (Ahead ranges ∧ JsonHighest ranges) ∨
      Behind .pasta ranges ∨ Behind .text ranges) :
    (kept ranges).choose = .json ↔ Ahead ranges := by
  refine ⟨fun chosen => ?_, Ahead.choose⟩
  rcases ordered with none | ⟨ahead, -⟩ | behind | behind
  · exact absurd chosen (choose_absent none)
  · exact ahead
  · exact absurd chosen (behind.choose (.inl rfl))
  · exact absurd chosen (behind.choose (.inr rfl))

/-- The order in which ranges for JSON are not preferred, where they are not ahead. -/
theorem exists_unpreferred {ranges : List MediaRange}
    (some : ∃ json ∈ ranges, json.readKind = .json) (ahead : ¬ Ahead ranges) :
    ∃ moved, moved.Perm ranges ∧ (kept moved).choose ≠ .json := by
  obtain ⟨json, member, kind, other, inside, either, order⟩ : ∃ json ∈ ranges,
      json.readKind = .json ∧ ∃ other ∈ ranges,
        (other.readKind = .pasta ∨ other.readKind = .text) ∧
          json.readQuality ≤ other.readQuality := by
    by_contra unordered
    refine ahead ⟨some, fun json member kind other inside either => ?_⟩
    by_contra order
    exact unordered ⟨json, member, kind, other, inside, either, not_lt.mp order⟩
  obtain ⟨first, perm, last, -⟩ := exists_last member
  obtain ⟨second, perm', last', others⟩ := exists_last (perm.mem_iff.mpr inside)
  refine ⟨second, perm'.trans perm, fun chosen => ?_⟩
  have both := (kept_json_iff second).mp chosen
  have jsonLast : lastQuality .json second = json.readQuality := by
    rw [others .json (by rcases either with same | same <;> rw [same] <;> nofun), ← kind, last]
  rw [jsonLast] at both
  rcases either with same | same
  · rw [same] at last'
    exact absurd both.1 (not_lt.mpr (by rw [last']; exact order))
  · rw [same] at last'
    exact absurd both.2 (not_lt.mpr (by rw [last']; exact order))

/-- Where the ranges for JSON are not behind a kind, the last range of the kind can be one that is
below the best of them. -/
theorem exists_lower {kind : RangeKind} {ranges : List MediaRange} {best : ℚ} (positive : 0 ≤ best)
    (highest : ∀ json ∈ ranges, json.readKind = .json → json.readQuality ≤ best)
    (ahead : ¬ Behind kind ranges) :
    ∃ moved, moved.Perm ranges ∧ lastQuality kind moved < best ∧
      ∀ kind', kind' ≠ kind → lastQuality kind' moved = lastQuality kind' ranges := by
  by_cases seen : ∃ range ∈ ranges, range.readKind = kind
  · obtain ⟨json, member, jsonKind, range, inside, rfl, order⟩ : ∃ json ∈ ranges,
        json.readKind = .json ∧ ∃ range ∈ ranges, range.readKind = kind ∧
          range.readQuality < json.readQuality := by
      by_contra unordered
      refine ahead ⟨seen, fun json member jsonKind range inside same => ?_⟩
      by_contra order
      exact unordered ⟨json, member, jsonKind, range, inside, same, not_le.mp order⟩
    obtain ⟨moved, perm, last, others⟩ := exists_last inside
    exact ⟨moved, perm, by rw [last]; exact order.trans_le (highest json member jsonKind), others⟩
  · refine ⟨ranges, List.Perm.refl _, ?_, fun _ _ => rfl⟩
    rw [lastQuality_none fun range member same => seen ⟨range, member, same⟩]
    exact lt_of_lt_of_le (by decide) positive

/-- A perm of some ranges has the ranges for JSON behind a kind where they have. -/
theorem Behind.perm {kind : RangeKind} {ranges moved : List MediaRange} (perm : moved.Perm ranges) :
    Behind kind moved ↔ Behind kind ranges := by
  simp only [Behind, perm.mem_iff]

/-- The order in which ranges for JSON are preferred, where they are not behind. -/
theorem exists_preferred {ranges : List MediaRange}
    (some : ∃ json ∈ ranges, json.readKind = .json) (pasta : ¬ Behind .pasta ranges)
    (text : ¬ Behind .text ranges) : ∃ moved, moved.Perm ranges ∧ (kept moved).choose = .json := by
  obtain ⟨best, member, kind, highest⟩ : ∃ best ∈ ranges, best.readKind = .json ∧
      ∀ json ∈ ranges, json.readKind = .json → json.readQuality ≤ best.readQuality := by
    obtain ⟨json, member, kind⟩ := some
    let jsons := ranges.filter fun range => range.readKind = .json
    have among : ∀ range, range ∈ jsons ↔ range ∈ ranges ∧ range.readKind = .json := by
      simp [jsons]
    cases found : jsons.argmax MediaRange.readQuality with
    | none =>
      rw [List.argmax_eq_none] at found
      have inside := (among json).mpr ⟨member, kind⟩
      rw [found] at inside
      cases inside
    | some best =>
      obtain ⟨inside, same⟩ := (among best).mp (List.argmax_mem found)
      exact ⟨best, inside, same, fun other member kind =>
        List.le_of_mem_argmax ((among other).mpr ⟨member, kind⟩) found⟩
  obtain ⟨first, perm, last, -⟩ := exists_last member
  rw [kind] at last
  have positive := best.readQuality_nonneg
  obtain ⟨second, perm', lower, others⟩ := exists_lower positive
    (fun json inside => highest json (perm.mem_iff.mp inside)) (mt (Behind.perm perm).mp pasta)
  obtain ⟨third, perm'', lower', others'⟩ := exists_lower positive
    (fun json inside => highest json ((perm'.trans perm).mem_iff.mp inside))
    (mt (Behind.perm (perm'.trans perm)).mp text)
  refine ⟨third, perm''.trans (perm'.trans perm), (kept_json_iff third).mpr ?_⟩
  rw [others' .json nofun, others .json nofun, last, others' .pasta nofun]
  exact ⟨lower, lower'⟩

/-! ## The exact condition -/

/-- The length of a field does not depend on the order of its ranges. -/
theorem acceptText_perm {ranges moved : List MediaRange} (perm : moved.Perm ranges) :
    (acceptText moved).length = (acceptText ranges).length := by
  have counted : ∀ ranges : List MediaRange, ranges ≠ [] →
      (acceptText ranges).length + 1 = (ranges.map fun range => range.text.length + 1).sum := by
    intro ranges filled
    obtain ⟨range, rest, rfl⟩ := List.exists_cons_of_ne_nil filled
    rw [acceptText, List.map_cons, intercalate_items, List.length_append, List.map_cons,
      List.sum_cons]
    have others : ((rest.map (·.text)).flatMap (comma :: ·)).length =
        (rest.map fun range => range.text.length + 1).sum := by
      simp [List.length_flatMap, Function.comp_def]
    omega
  by_cases empty : ranges = []
  · subst empty
    rw [List.perm_nil.mp perm]
  · have filled : moved ≠ [] := fun none => by
      rw [none] at perm
      exact empty (List.nil_perm.mp perm)
    have same := (perm.map fun range => range.text.length + 1).sum_nat
    have first := counted ranges empty
    have second := counted moved filled
    omega

/-- A request with a field. -/
def asking (request : Request) (ranges : List MediaRange) : Request :=
  { request with headers := [(ascii "Accept", acceptText ranges)] }

/-- It asks for the ranges of the field. -/
theorem asking_accepts (request : Request) (ranges : List MediaRange) :
    (asking request ranges).Accepts ranges := by
  have same : Grid.sameName (ascii "Accept") (ascii "Accept") = true := by decide
  simp [Request.Accepts, asking, Grid.findHeader, same]

/-- Whether a field is settled does not depend on the order of its ranges. -/
theorem Settled.perm {ranges moved : List MediaRange} (perm : moved.Perm ranges)
    (settled : Settled ranges) : Settled moved := by
  have members := fun range : MediaRange => perm.mem_iff (a := range)
  refine ⟨?_, ?_⟩
  · simpa only [Acceptable, members] using settled.seen
  · simpa only [Ahead, Behind, JsonHighest, members] using settled.ordered

/-- A choice is known when it is known whether it is JSON and whether it is anything. -/
theorem choice_eq {left right : ContentPref} (json : left = .json ↔ right = .json)
    (unknown : left = .unknown ↔ right = .unknown) : left = right := by
  cases left <;> cases right <;> simp_all

/-- A settled field gets the same choice in every order. -/
theorem Settled.choose_perm {ranges moved : List MediaRange} (settled : Settled ranges)
    (perm : moved.Perm ranges) : (kept moved).choose = (kept ranges).choose := by
  refine choice_eq ?_ ?_
  · rw [choose_ordered (settled.perm perm).ordered, choose_ordered settled.ordered]
    simp only [Ahead, perm.mem_iff]
  · rw [kept_unknown_iff, kept_unknown_iff]
    simp only [perm.mem_iff]

/-- `application/json` -/
def jsonRange (weight : Option Weight) : MediaRange where
  before := []
  type := ascii "application"
  subtype := ascii "json"
  after := []
  parameters := []
  weight := weight
  blank := nofun
  named := List.all_eq_true.mp (by decide)

/-- `;q=0` -/
def zeroWeight : Weight where
  before := []
  lowered := true
  full := false
  places := none
  after := []
  blank := nofun
  decimal := ⟨Nat.zero_le _, nofun⟩
  bounded := nofun

/-- A request without fields. -/
def plainRequest : Request := ⟨ascii "GET", [], none, [], 0, [], []⟩

/-- `;q=0.5` -/
def halfWeight : Weight where
  before := []
  lowered := true
  full := false
  places := some (ascii "5")
  after := []
  blank := nofun
  decimal := by decide +kernel
  bounded := nofun

/-- `;version="2;draft"` -/
def draftParameter : Parameter where
  before := []
  name := ascii "version"
  value := ascii "\"2;draft\""
  after := []
  blank := nofun
  named := List.all_eq_true.mp (by decide +kernel)
  proper := by decide +kernel
  valued := .inr (by decide +kernel)

theorem blank_space : ∀ c ∈ [space] ++ [], c = space ∨ c = tab :=
  fun _ member => .inl (List.mem_singleton.mp member)

/-- `application/x-pasta` in a draft of its second version, at half the quality -/
def draftRange : MediaRange where
  before := [space]
  type := ascii "application"
  subtype := ascii "x-pasta"
  after := []
  parameters := [draftParameter]
  weight := some halfWeight
  blank := blank_space
  named := List.all_eq_true.mp (by decide +kernel)

/-- Of two ranges for one type the last one stands, whichever is better, and what is quoted counts. -/
example :
    parseAccept { plainRequest with headers := [(ascii "Accept",
      ascii "application/json, application/x-pasta;q=0.5, application/json;q=0.2")] } = .pasta ∧
    parseAccept { plainRequest with headers := [(ascii "Accept",
      ascii "application/json;q=0.2, application/x-pasta;q=0.5, application/json")] } = .json ∧
    parseAccept { plainRequest with headers := [(ascii "Accept",
      ascii "application/x-pasta;x=\";q=0.2,application/json\"")] } = .json := by
  decide +kernel

end Cookbook.Server
