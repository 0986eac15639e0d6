import Cookbook.Library.Number
import Cookbook.Pasta.Value

/-!
# The Pasta parser

A recursive descent over the text that is left. A document of sections becomes one map, one value
stands for itself, and several values become an array. The descent carries fuel, and three times
the length of the text is always enough of it.
-/
namespace Cookbook.Pasta

open Library.Text

/-- Why there is no value. -/
inductive Failure
  /-- The first message of `set_err`. -/
  | message (text : String)
  /-- The fuel did not last: this never happens. -/
  | fuel
  deriving DecidableEq

/-- Nothing is read. -/
def fail {α : Type} (text : String) : Except Failure α := .error (.message text)

/-! ## Words -/

/-- `[` -/
abbrev openBracket : UInt8 := 0x5B
/-- `]` -/
abbrev closeBracket : UInt8 := 0x5D
/-- `;` -/
abbrev semicolon : UInt8 := 0x3B
/-- `@` -/
abbrev atSign : UInt8 := 0x40
/-- `-` -/
abbrev minus : UInt8 := 0x2D

/-- White space between words. -/
def isBlank (c : UInt8) : Bool := c == space || c == tab || c == carriageReturn || c == newline

/-- `is_labelchar` -/
def isLabelChar (c : UInt8) : Bool :=
  (decide (0x61 ≤ c) && decide (c ≤ 0x7A)) || (decide (0x41 ≤ c) && decide (c ≤ 0x5A)) ||
    isDecimal c || c == 0x21 || c == 0x23 || c == 0x24 || c == 0x25 || c == 0x26 || c == dot ||
    c == 0x5F

/-- `skip_blanks`, inside a comment or not. -/
def skipBlanksFrom : Bool → Bytes → Bytes
  | _, [] => []
  | true, c :: rest => skipBlanksFrom (c != newline) rest
  | false, c :: rest =>
    if isBlank c then skipBlanksFrom false rest
    else if c = semicolon then skipBlanksFrom true rest
    else c :: rest

/-- `skip_blanks` -/
def skipBlanks (text : Bytes) : Bytes := skipBlanksFrom false text

/-- A simple string behind its first quote. -/
def readSimple : Bytes → Except Failure (Bytes × Bytes)
  | [] => fail "unterminated string"
  | c :: rest =>
    if c = quote then .ok ([], rest)
    else if c = newline then fail "newline in simple string (use triple quotes)"
    else do
      let (data, rest) ← readSimple rest
      .ok (c :: data, rest)

/-- A string behind its three quotes. -/
def readTriple : Bytes → Except Failure (Bytes × Bytes)
  | [] => fail "unterminated string"
  | c :: rest =>
    if [quote, quote, quote] <+: c :: rest then .ok ([], rest.drop 2)
    else do
      let (data, rest) ← readTriple rest
      .ok (c :: data, rest)

/-- `read_string`, behind the first quote. -/
def readString (text : Bytes) : Except Failure (Bytes × Bytes) :=
  if [quote, quote] <+: text then readTriple (text.drop 2) else readSimple text

/-- `read_unquoted_label` -/
def readUnquotedLabel (text : Bytes) : Except Failure (Bytes × Bytes) :=
  if text.takeWhile isLabelChar = [] then fail "expected label"
  else .ok (text.takeWhile isLabelChar, text.dropWhile isLabelChar)

/-! ## Numbers -/

/-- A hexadecimal digit. -/
def isHexDigit (c : UInt8) : Bool :=
  isDecimal c || (decide (0x61 ≤ c) && decide (c ≤ 0x66)) ||
    (decide (0x41 ≤ c) && decide (c ≤ 0x46))

/-- A binary digit. -/
def isBinDigit (c : UInt8) : Bool := c == 0x30 || c == 0x31

/-- The text behind a fraction. -/
def behindFraction : Bytes → Bytes
  | c :: rest => if c = dot then rest.dropWhile isDecimal else c :: rest
  | [] => []

/-- The text behind the sign of an exponent. -/
def behindSign : Bytes → Bytes
  | c :: rest => if c = 0x2B ∨ c = minus then rest else c :: rest
  | [] => []

/-- The text behind an exponent. -/
def behindExponent : Bytes → Bytes
  | c :: rest => if c = 0x65 ∨ c = 0x45 then (behindSign rest).dropWhile isDecimal else c :: rest
  | [] => []

/-- The text behind a number without its sign. -/
def behindNumber : Bytes → Except Failure Bytes
  | 0x30 :: x :: rest =>
    if x = 0x78 ∨ x = 0x58 then
      if rest.takeWhile isHexDigit = [] then fail "expected hex digit"
      else .ok (rest.dropWhile isHexDigit)
    else if x = 0x62 ∨ x = 0x42 then
      if rest.takeWhile isBinDigit = [] then fail "expected binary digit"
      else .ok (rest.dropWhile isBinDigit)
    else .ok (behindExponent (behindFraction ((x :: rest).dropWhile isDecimal)))
  | c :: rest =>
    if isDecimal c then .ok (behindExponent (behindFraction (rest.dropWhile isDecimal)))
    else fail "expected digit"
  | [] => fail "expected digit"

/-- `read_number`: the number as it is written. -/
def readNumber (text : Bytes) : Except Failure (Value × Bytes) := do
  let rest ← behindNumber (if text.head? = some minus then text.drop 1 else text)
  .ok (.number (text.take (text.length - rest.length)), rest)

/-! ## Atoms -/

/-- `read_blob`, behind its first byte. -/
def readBlob (text : Bytes) : Except Failure (Value × Bytes) :=
  if text.length < 8 then fail "blob length truncated"
  else
    let length := (text.take 8).foldl (fun number c => number * 256 + c.toNat) 0
    let rest := text.drop 8
    if rest.length < length then fail "blob bytes truncated"
    else .ok (.blob (rest.take length), rest.drop length)

/-- `starts_with`: a word that no label character continues. -/
def startsWith (word : String) (text : Bytes) : Bool :=
  decide (ascii word <+: text) &&
    match text.drop (ascii word).length with
    | [] => true
    | c :: _ => !isLabelChar c

/-- `parse_atom_unquoted` -/
def parseAtomUnquoted (text : Bytes) : Except Failure (Value × Bytes) :=
  if startsWith "true" text then .ok (.bool true, text.drop 4)
  else if startsWith "false" text then .ok (.bool false, text.drop 5)
  else if startsWith "null" text then .ok (.null, text.drop 4)
  else if startsWith "Inf" text then .ok (.number (ascii "Inf"), text.drop 3)
  else if startsWith "NaN" text then .ok (.number (ascii "NaN"), text.drop 3)
  else do
    let (label, rest) ← readUnquotedLabel text
    .ok (.labelRef label, rest)

/-- The key of a map entry. -/
def readKey : Bytes → Except Failure (Bytes × Bytes)
  | c :: rest =>
    if c = quote then readString rest
    else if isLabelChar c then readUnquotedLabel (c :: rest)
    else fail "expected map key"
  | [] => fail "expected map key"

/-- The colon behind a key. -/
def readColon (text : Bytes) : Except Failure Bytes :=
  match skipBlanks text with
  | c :: rest => if c = colon then .ok rest else fail "expected ':'"
  | [] => fail "expected ':'"

/-! ## Values -/

mutual

/-- `parse_value` -/
def parseValue : Nat → Bytes → Except Failure (Value × Bytes)
  | 0, _ => .error .fuel
  | fuel + 1, text =>
    match skipBlanks text with
    | [] => fail "unexpected eof"
    | c :: rest =>
      if c = openBrace ∨ c = openBracket then parseContainer fuel (c :: rest)
      else if c = quote then do
        let (data, rest) ← readString rest
        .ok (.string data, rest)
      else if c = 0 then readBlob rest
      else if c = minus ∧ startsWith "Inf" rest = true then
        .ok (.number (ascii "-Inf"), rest.drop 3)
      else if c = minus ∨ isDecimal c = true then readNumber (c :: rest)
      else if isLabelChar c then parseAtomUnquoted (c :: rest)
      else fail "unexpected character"

/-- `parse_container` -/
def parseContainer : Nat → Bytes → Except Failure (Value × Bytes)
  | 0, _ => .error .fuel
  | fuel + 1, text =>
    match skipBlanks text with
    | [] => fail "expected '\x7b' or '['"
    | c :: rest =>
      if c = openBrace then
        if (skipBlanks rest).head? = some closeBrace then
          .ok (.map [], (skipBlanks rest).drop 1)
        else parseEntries fuel [] rest
      else if c = openBracket then
        if (skipBlanks rest).head? = some closeBracket then
          .ok (.array [], (skipBlanks rest).drop 1)
        else parseItems fuel [] rest
      else fail "expected '\x7b' or '['"

/-- The loop of `parse_container` over the entries of a map. -/
def parseEntries : Nat → Entries → Bytes → Except Failure (Value × Bytes)
  | 0, _, _ => .error .fuel
  | fuel + 1, entries, text => do
    let (key, rest) ← readKey (skipBlanks text)
    let rest ← readColon rest
    let (value, rest) ← parseValue fuel rest
    match skipBlanks rest with
    | c :: rest =>
      if c = comma then parseEntries fuel (entries.put key value) rest
      else if c = closeBrace then .ok (.map (entries.put key value), rest)
      else fail "expected ',' or '\x7d'"
    | [] => fail "expected ',' or '\x7d'"

/-- The loop of `parse_container` over the items of an array. -/
def parseItems : Nat → List Value → Bytes → Except Failure (Value × Bytes)
  | 0, _, _ => .error .fuel
  | fuel + 1, items, text => do
    let (value, rest) ← parseValue fuel text
    match skipBlanks rest with
    | c :: rest =>
      if c = comma then parseItems fuel (items ++ [value]) rest
      else if c = closeBracket then .ok (.array (items ++ [value]), rest)
      else fail "expected ',' or ']'"
    | [] => fail "expected ',' or ']'"

end

/-! ## Documents -/

/-- Fuel for the descent over a text. -/
def fuelFor (text : Bytes) : Nat := 3 * text.length + 3

/-- The name of a section, behind its sign. -/
def readSectionName : Bytes → Except Failure (Bytes × Bytes)
  | c :: rest => if c = quote then readString rest else readUnquotedLabel (c :: rest)
  | [] => readUnquotedLabel []

/-- The loop of `pasta_parse` over the sections. -/
def parseSections : Nat → Entries → Bytes → Except Failure Value
  | 0, _, _ => .error .fuel
  | fuel + 1, entries, text =>
    match skipBlanks text with
    | [] => .ok (.map entries)
    | c :: rest =>
      if c = atSign then do
        let (name, rest) ← readSectionName rest
        let (value, rest) ← parseContainer (fuelFor rest) rest
        parseSections fuel (entries.put name value) rest
      else fail "expected '@' between sections"

/-- The loop of `pasta_parse` over values behind the first. -/
def parseMore : Nat → List Value → Bytes → Except Failure Value
  | 0, _, _ => .error .fuel
  | fuel + 1, items, text =>
    match skipBlanks text with
    | [] => .ok (.array items)
    | c :: rest => do
      let (value, rest) ← parseValue (fuelFor (c :: rest)) (c :: rest)
      parseMore fuel (items ++ [value]) rest

/-- `pasta_parse` -/
def parse (text : Bytes) : Except Failure Value :=
  match skipBlanks text with
  | [] => fail "empty document"
  | c :: rest =>
    if c = atSign then parseSections (fuelFor text) [] (c :: rest)
    else do
      let (value, rest) ← parseValue (fuelFor text) (c :: rest)
      match skipBlanks rest with
      | [] => .ok value
      | _ :: _ => parseMore (fuelFor text) [value] rest

/-! ## The fuel lasts -/

/-- A reading that does not run out of fuel, and leaves at most so many characters. -/
def Within {α : Type} (length : Nat) : Except Failure (α × Bytes) → Prop
  | .ok (_, rest) => rest.length ≤ length
  | .error failure => failure ≠ .fuel

/-- A message is within any bound. -/
@[simp] theorem within_fail {α : Type} (length : Nat) (text : String) :
    Within length (fail text : Except Failure (α × Bytes)) := by simp [Within, fail]

/-- A value is within the length of the text behind it. -/
@[simp] theorem within_ok {α : Type} (length : Nat) (value : α) (rest : Bytes) :
    Within length (.ok (value, rest) : Except Failure (α × Bytes)) ↔ rest.length ≤ length :=
  Iff.rfl

/-- Two readings one after the other. -/
theorem Within.bind {α β : Type} {length left : Nat} {parsed : Except Failure (α × Bytes)}
    {next : α × Bytes → Except Failure (β × Bytes)} (first : Within length parsed)
    (second : ∀ value rest, rest.length ≤ length → Within left (next (value, rest))) :
    Within left (parsed >>= next) := by
  cases parsed with
  | ok found => exact second found.1 found.2 first
  | error failure => exact first

/-- A bound may be raised. -/
theorem Within.mono {α : Type} {length more : Nat} {parsed : Except Failure (α × Bytes)}
    (within : Within length parsed) (fewer : length ≤ more) : Within more parsed := by
  cases parsed with
  | ok found => exact Nat.le_trans within fewer
  | error failure => exact within

/-- Blanks make a text no longer. -/
theorem skipBlanksFrom_length (comment : Bool) (text : Bytes) :
    (skipBlanksFrom comment text).length ≤ text.length := by
  induction text generalizing comment with
  | nil => simp [skipBlanksFrom]
  | cons c rest ih =>
    cases comment with
    | true => exact Nat.le_succ_of_le (ih _)
    | false =>
      rw [skipBlanksFrom]
      split
      · exact Nat.le_succ_of_le (ih _)
      · split
        · exact Nat.le_succ_of_le (ih _)
        · exact Nat.le_refl _

/-- The same at the start of a word. -/
theorem skipBlanks_length (text : Bytes) : (skipBlanks text).length ≤ text.length :=
  skipBlanksFrom_length false text

/-- A simple string ends in its text. -/
theorem readSimple_within (text : Bytes) : Within text.length (readSimple text) := by
  induction text with
  | nil => exact within_fail _ _
  | cons c rest ih =>
    rw [readSimple]
    split
    · exact Nat.le_succ _
    · split
      · exact within_fail _ _
      · apply ih.bind
        intro data left shorter
        exact Nat.le_succ_of_le shorter

/-- So does one in three quotes. -/
theorem readTriple_within (text : Bytes) : Within text.length (readTriple text) := by
  induction text with
  | nil => exact within_fail _ _
  | cons c rest ih =>
    rw [readTriple]
    split
    · simp only [within_ok, List.length_drop, List.length_cons]
      omega
    · apply ih.bind
      intro data left shorter
      exact Nat.le_succ_of_le shorter

/-- A string ends in its text. -/
theorem readString_within (text : Bytes) : Within text.length (readString text) := by
  unfold readString
  split
  · apply (readTriple_within _).mono
    simp
  · exact readSimple_within text

/-- A label takes at least one character. -/
theorem readUnquotedLabel_within (text : Bytes) :
    Within (text.length - 1) (readUnquotedLabel text) := by
  unfold readUnquotedLabel
  split
  · exact within_fail _ _
  · next some_label =>
    have whole := congrArg List.length (@List.takeWhile_append_dropWhile _ isLabelChar text)
    have taken := List.length_pos_of_ne_nil some_label
    rw [List.length_append] at whole
    rw [within_ok]
    omega

/-- A key ends in its text. -/
theorem readKey_within (text : Bytes) : Within text.length (readKey text) := by
  unfold readKey
  split
  · split
    · exact (readString_within _).mono (Nat.le_succ _)
    · split
      · exact (readUnquotedLabel_within _).mono (Nat.sub_le _ _)
      · exact within_fail _ _
  · exact within_fail _ _

/-- A section name ends in its text. -/
theorem readSectionName_within (text : Bytes) : Within text.length (readSectionName text) := by
  unfold readSectionName
  split
  · split
    · exact (readString_within _).mono (Nat.le_succ _)
    · exact (readUnquotedLabel_within _).mono (Nat.sub_le _ _)
  · exact (readUnquotedLabel_within _).mono (Nat.sub_le _ _)

/-- What is dropped from the front of a text makes it no longer. -/
theorem dropWhile_length (accept : UInt8 → Bool) (text : Bytes) :
    (text.dropWhile accept).length ≤ text.length := (List.dropWhile_sublist _).length_le

/-- The text behind an exponent is no longer. -/
theorem behindExponent_length (text : Bytes) : (behindExponent text).length ≤ text.length := by
  cases text with
  | nil => exact Nat.le_refl _
  | cons c rest =>
    rw [behindExponent]
    split
    · have sign : (behindSign rest).length ≤ rest.length := by
        cases rest with
        | nil => exact Nat.le_refl _
        | cons s digits =>
          rw [behindSign]
          split
          · exact Nat.le_succ _
          · exact Nat.le_refl _
      exact Nat.le_succ_of_le (Nat.le_trans (dropWhile_length _ _) sign)
    · exact Nat.le_refl _

/-- So is the text behind a fraction. -/
theorem behindFraction_length (text : Bytes) : (behindFraction text).length ≤ text.length := by
  cases text with
  | nil => exact Nat.le_refl _
  | cons c rest =>
    rw [behindFraction]
    split
    · exact Nat.le_succ_of_le (dropWhile_length _ _)
    · exact Nat.le_refl _

/-- A text that is left and is no longer than a bound. -/
def Leaves (length : Nat) : Except Failure Bytes → Prop
  | .ok rest => rest.length ≤ length
  | .error failure => failure ≠ .fuel

/-- A message leaves nothing. -/
@[simp] theorem leaves_fail (length : Nat) (text : String) : Leaves length (fail text) := by
  simp [Leaves, fail]

/-- A reading behind a text that is left. -/
theorem Leaves.bind {α : Type} {length left : Nat} {skipped : Except Failure Bytes}
    {next : Bytes → Except Failure (α × Bytes)} (first : Leaves length skipped)
    (second : ∀ rest, rest.length ≤ length → Within left (next rest)) :
    Within left (skipped >>= next) := by
  cases skipped with
  | ok rest => exact second rest first
  | error failure => exact first

/-- A number takes at least one character. -/
theorem behindNumber_leaves (text : Bytes) : Leaves (text.length - 1) (behindNumber text) := by
  have digits : ∀ text : Bytes,
      (behindExponent (behindFraction (text.dropWhile isDecimal))).length ≤ text.length :=
    fun text => Nat.le_trans (behindExponent_length _)
      (Nat.le_trans (behindFraction_length _) (dropWhile_length _ _))
  unfold behindNumber
  split
  · next x rest =>
    have two : ∀ accept, (rest.dropWhile accept).length ≤ rest.length + 1 :=
      fun accept => Nat.le_succ_of_le (dropWhile_length accept rest)
    split
    · split
      · exact leaves_fail _ _
      · exact two _
    · split
      · split
        · exact leaves_fail _ _
        · exact two _
      · exact digits _
  · split
    · exact digits _
    · exact leaves_fail _ _
  · exact leaves_fail _ _

/-- With its sign too. -/
theorem readNumber_within (text : Bytes) : Within (text.length - 1) (readNumber text) := by
  apply (behindNumber_leaves _).bind
  intro rest shorter
  rw [within_ok]
  split at shorter
  · rw [List.length_drop] at shorter
    omega
  · exact shorter

/-- A blob ends in its text. -/
theorem readBlob_within (text : Bytes) : Within text.length (readBlob text) := by
  unfold readBlob
  split
  · exact within_fail _ _
  · simp only
    split
    · exact within_fail _ _
    · simp only [within_ok, List.length_drop]
      omega

/-- An atom takes at least one character. -/
theorem parseAtomUnquoted_within (text : Bytes) :
    Within (text.length - 1) (parseAtomUnquoted text) := by
  unfold parseAtomUnquoted
  split_ifs
  all_goals try
    rw [within_ok, List.length_drop]
    omega
  apply (readUnquotedLabel_within text).bind
  intro label rest shorter
  exact shorter

/-- A colon is behind some text. -/
theorem readColon_leaves (text : Bytes) : Leaves (text.length - 1) (readColon text) := by
  have blanks := skipBlanks_length text
  unfold readColon
  split
  · next c rest shape =>
    rw [shape, List.length_cons] at blanks
    split
    · show rest.length ≤ text.length - 1
      omega
    · exact leaves_fail _ _
  · exact leaves_fail _ _

/-- With fuel for three times the length of the text, every descent ends in it, and a value takes at
least one character. -/
theorem parse_within (fuel : Nat) :
    (∀ text : Bytes, 3 * text.length + 2 ≤ fuel →
      Within (text.length - 1) (parseValue fuel text)) ∧
    (∀ text : Bytes, 3 * text.length + 1 ≤ fuel →
      Within (text.length - 1) (parseContainer fuel text)) ∧
    (∀ (entries : Entries) (text : Bytes), 3 * text.length + 3 ≤ fuel →
      Within text.length (parseEntries fuel entries text)) ∧
    (∀ (items : List Value) (text : Bytes), 3 * text.length + 3 ≤ fuel →
      Within text.length (parseItems fuel items text)) := by
  induction fuel with
  | zero => exact ⟨fun _ enough => by omega, fun _ enough => by omega,
      fun _ _ enough => by omega, fun _ _ enough => by omega⟩
  | succ fuel ih =>
    obtain ⟨value, container, entriesLoop, itemsLoop⟩ := ih
    refine ⟨?_, ?_, ?_, ?_⟩
    · intro text enough
      have blanks := skipBlanks_length text
      rw [parseValue]
      split
      · exact within_fail _ _
      · next c rest shape =>
        rw [shape, List.length_cons] at blanks
        split_ifs
        · apply (container (c :: rest) (by rw [List.length_cons]; omega)).mono
          rw [List.length_cons]
          omega
        · apply (readString_within rest).bind
          intro data left shorter
          rw [within_ok]
          omega
        · exact (readBlob_within rest).mono (by omega)
        · rw [within_ok, List.length_drop]
          omega
        · apply (readNumber_within _).mono
          rw [List.length_cons]
          omega
        · apply (parseAtomUnquoted_within _).mono
          rw [List.length_cons]
          omega
        · exact within_fail _ _
    · intro text enough
      have blanks := skipBlanks_length text
      rw [parseContainer]
      split
      · exact within_fail _ _
      · next c rest shape =>
        rw [shape, List.length_cons] at blanks
        have more := skipBlanks_length rest
        split_ifs
        · rw [within_ok, List.length_drop]
          omega
        · exact (entriesLoop [] rest (by omega)).mono (by omega)
        · rw [within_ok, List.length_drop]
          omega
        · exact (itemsLoop [] rest (by omega)).mono (by omega)
        · exact within_fail _ _
    · intro entries text enough
      have blanks := skipBlanks_length text
      rw [parseEntries]
      apply (readKey_within (skipBlanks text)).bind
      intro key behindKey keyShorter
      apply (readColon_leaves behindKey).bind
      intro behindColon colonShorter
      apply (value behindColon (by omega)).bind
      intro found behindValue valueShorter
      have more := skipBlanks_length behindValue
      simp only
      split
      · next c rest shape =>
        rw [shape, List.length_cons] at more
        split_ifs
        · exact (entriesLoop _ rest (by omega)).mono (by omega)
        · rw [within_ok]
          omega
        · exact within_fail _ _
      · exact within_fail _ _
    · intro items text enough
      rw [parseItems]
      apply (value text (by omega)).bind
      intro found behindValue valueShorter
      have more := skipBlanks_length behindValue
      simp only
      split
      · next c rest shape =>
        rw [shape, List.length_cons] at more
        split_ifs
        · exact (itemsLoop _ rest (by omega)).mono (by omega)
        · rw [within_ok]
          omega
        · exact within_fail _ _
      · exact within_fail _ _

/-! ## Whole documents -/

/-- A message is not the end of the fuel. -/
theorem fail_ne_fuel {α : Type} (text : String) :
    (fail text : Except Failure α) ≠ .error .fuel := by
  simp [fail]

/-- A reading that does not run out of fuel is followed by something that does not. -/
theorem bind_ne_fuel {α β : Type} {length : Nat} {parsed : Except Failure (α × Bytes)}
    {next : α × Bytes → Except Failure β} (first : Within length parsed)
    (second : ∀ value rest, rest.length ≤ length → next (value, rest) ≠ .error .fuel) :
    parsed >>= next ≠ .error .fuel := by
  cases parsed with
  | ok found => exact second found.1 found.2 first
  | error failure =>
    intro same
    exact first (Except.error.inj same)

/-- The loop over the sections does not run out of fuel. -/
theorem parseSections_ne_fuel (fuel : Nat) (entries : Entries) (text : Bytes)
    (enough : text.length < fuel) : parseSections fuel entries text ≠ .error .fuel := by
  induction fuel generalizing entries text with
  | zero => omega
  | succ fuel ih =>
    have blanks := skipBlanks_length text
    rw [parseSections]
    split
    · simp
    · next c rest shape =>
      rw [shape, List.length_cons] at blanks
      split_ifs
      · apply bind_ne_fuel (readSectionName_within rest)
        intro name behindName nameShorter
        apply bind_ne_fuel ((parse_within (fuelFor behindName)).2.1 behindName
          (by rw [fuelFor]; omega))
        intro value behindValue valueShorter
        exact ih _ behindValue (by omega)
      · exact fail_ne_fuel _

/-- Nor does the loop over more values: each of them takes at least one character. -/
theorem parseMore_ne_fuel (fuel : Nat) (items : List Value) (text : Bytes)
    (enough : text.length < fuel) : parseMore fuel items text ≠ .error .fuel := by
  induction fuel generalizing items text with
  | zero => omega
  | succ fuel ih =>
    have blanks := skipBlanks_length text
    rw [parseMore]
    split
    · simp
    · next c rest shape =>
      rw [shape, List.length_cons] at blanks
      apply bind_ne_fuel ((parse_within (fuelFor (c :: rest))).1 (c :: rest)
        (by rw [fuelFor]; omega))
      intro value behind shorter
      rw [List.length_cons] at shorter
      exact ih _ behind (by omega)

/-- The parser never runs out of fuel. -/
theorem parse_ne_fuel (text : Bytes) : parse text ≠ .error .fuel := by
  have blanks := skipBlanks_length text
  unfold parse
  split
  · exact fail_ne_fuel _
  · next c rest shape =>
    rw [shape] at blanks
    split_ifs
    · apply parseSections_ne_fuel
      rw [fuelFor]
      omega
    · apply bind_ne_fuel ((parse_within (fuelFor text)).1 (c :: rest) (by rw [fuelFor]; omega))
      intro value behind shorter
      simp only
      split
      · simp
      · apply parseMore_ne_fuel
        rw [fuelFor]
        omega

end Cookbook.Pasta
