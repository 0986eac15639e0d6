import Cookbook.Library.Text

/-!
# Lexing SQL text

The tokenizer of an SQL engine: maximal runs of identifier characters, quoted strings and names
with a doubled delimiter, numbers, blobs, parameters, operators, and the two kinds of comment.
A text is cut token by token; blanks and comments are dropped, an illegal token refuses the text.
-/
namespace Library.Sql

open Library.Text

/-- A token. A string literal or a quoted name stands for its value, without its delimiters. -/
inductive Token
  /-- A keyword or a plain identifier. -/
  | word (text : Bytes)
  /-- A string literal. -/
  | string (value : Bytes)
  /-- A quoted identifier. -/
  | name (value : Bytes)
  /-- A number. -/
  | number (text : Bytes)
  /-- A blob literal. -/
  | blob (digits : Bytes)
  /-- A parameter. -/
  | variable (text : Bytes)
  /-- An operator or a separator. -/
  | symbol (text : Bytes)
  deriving DecidableEq, Repr

/-- What stands at the front of a text. -/
inductive Piece
  /-- A token. -/
  | token (token : Token)
  /-- A blank or a comment. -/
  | skipped
  /-- Text that starts no token. -/
  | illegal
  deriving DecidableEq, Repr

/-- The blanks that start a run of blanks. -/
def isBlankStart (c : UInt8) : Bool :=
  c == space || c == tab || c == newline || c == 0x0C || c == carriageReturn

/-- The blanks inside a run, the vertical tab included. -/
def isBlank (c : UInt8) : Bool := isBlankStart c || c == 0x0B

/-- A decimal digit. -/
def isDigit (c : UInt8) : Bool := decide (0x30 ≤ c) && decide (c ≤ 0x39)

/-- A hexadecimal digit. -/
def isHexDigit (c : UInt8) : Bool :=
  isDigit c || (decide (0x41 ≤ c) && decide (c ≤ 0x46)) ||
    (decide (0x61 ≤ c) && decide (c ≤ 0x66))

/-- A letter, an underscore or a byte above ASCII. -/
def isWordStart (c : UInt8) : Bool :=
  (decide (0x41 ≤ c) && decide (c ≤ 0x5A)) || (decide (0x61 ≤ c) && decide (c ≤ 0x7A)) ||
    c == 0x5F || decide (0x80 ≤ c)

/-- The characters of an identifier. -/
def isWordChar (c : UInt8) : Bool := isWordStart c || isDigit c || c == 0x24

/-- The operators and separators of one character that start no longer one. -/
def isPlainSymbol (c : UInt8) : Bool := c ∈ ascii "();+*%,&~"

/-- Behind an opening delimiter: the value up to the closing one, and the rest. A doubled
delimiter is one character of the value. -/
def scanQuoted (delimiter : UInt8) : Bytes → Option (Bytes × Bytes)
  | [] => none
  | c :: rest =>
    if c = delimiter then
      match rest with
      | [] => some ([], [])
      | d :: after =>
        if d = delimiter then
          (scanQuoted delimiter after).map fun (value, rest) => (delimiter :: value, rest)
        else some ([], d :: after)
    else (scanQuoted delimiter rest).map fun (value, rest) => (c :: value, rest)

/-- The digits of a number with the separator `_` between them. -/
def isNumberDigit (c : UInt8) : Bool := isDigit c || c == 0x5F

/-- The exponent of a number, if one starts here. -/
def exponent (text : Bytes) : Bytes :=
  match text with
  | e :: d :: rest =>
    if e = 0x65 ∨ e = 0x45 then
      if isDigit d then e :: d :: rest.takeWhile isNumberDigit
      else
        match rest with
        | d' :: rest =>
          if (d = 0x2B ∨ d = 0x2D) ∧ isDigit d' then e :: d :: d' :: rest.takeWhile isNumberDigit
          else []
        | [] => []
    else []
  | _ => []

/-- The text of a number: hexadecimal, or digits, fraction and exponent. -/
def numberText (text : Bytes) : Bytes :=
  match text with
  | z :: x :: h :: rest =>
    if z = 0x30 ∧ (x = 0x78 ∨ x = 0x58) ∧ isHexDigit h then
      z :: x :: h :: rest.takeWhile fun c => isHexDigit c || c == 0x5F
    else decimalText text
  | _ => decimalText text
where
  /-- Digits, a fraction, an exponent. -/
  decimalText (text : Bytes) : Bytes :=
    let whole := text.takeWhile isNumberDigit
    let rest := text.drop whole.length
    let fraction :=
      match rest with
      | c :: digits => if c = dot then dot :: digits.takeWhile isNumberDigit else []
      | [] => []
    whole ++ fraction ++ exponent (rest.drop fraction.length)

/-- The symbol made of the first `length` characters. -/
def symbolOf (text : Bytes) (length : Nat) : Piece × Bytes :=
  (.token (.symbol (text.take length)), text.drop length)

/-- Cut the piece at the front of a text that is not empty. -/
def getToken (c : UInt8) (rest : Bytes) : Piece × Bytes :=
  let text := c :: rest
  if isBlankStart c then (.skipped, rest.dropWhile isBlank)
  else if c = 0x2D then
    match rest with
    | 0x2D :: after => (.skipped, after.dropWhile (· != newline))
    | 0x3E :: 0x3E :: _ => symbolOf text 3
    | 0x3E :: _ => symbolOf text 2
    | _ => symbolOf text 1
  else if isPlainSymbol c then symbolOf text 1
  else if c = slash then
    match rest with
    | 0x2A :: d :: after =>
      (.skipped, match strstr (ascii "*/") (d :: after) with
        | some found => found.drop 2
        | none => [])
    | _ => symbolOf text 1
  else if c = 0x3D then (.token (.symbol [c]), if rest.head? = some 0x3D then rest.drop 1 else rest)
  else if c = 0x3C then
    match rest with
    | 0x3D :: _ | 0x3E :: _ | 0x3C :: _ => symbolOf text 2
    | _ => symbolOf text 1
  else if c = 0x3E then
    match rest with
    | 0x3D :: _ | 0x3E :: _ => symbolOf text 2
    | _ => symbolOf text 1
  else if c = 0x21 then
    match rest with
    | 0x3D :: after => (.token (.symbol (ascii "<>")), after)
    | _ => (.illegal, rest)
  else if c = 0x7C then
    match rest with
    | 0x7C :: _ => symbolOf text 2
    | _ => symbolOf text 1
  else if c = apostrophe then
    match scanQuoted c rest with
    | some (value, after) => (.token (.string value), after)
    | none => (.illegal, [])
  else if c = quote ∨ c = 0x60 then
    match scanQuoted c rest with
    | some (value, after) => (.token (.name value), after)
    | none => (.illegal, [])
  else if c = 0x5B then
    match strchr 0x5D rest with
    | some found => (.token (.name (rest.takeWhile (· != 0x5D))), found.drop 1)
    | none => (.illegal, [])
  else if c = dot ∧ ¬ (rest.head?.any isDigit) then symbolOf text 1
  else if c = dot ∨ isDigit c then
    let number := numberText text
    let after := text.drop number.length
    -- Letters glued to a number spoil it.
    if after.head?.any isWordChar then (.illegal, after.dropWhile isWordChar)
    else (.token (.number number), after)
  else if c = 0x3F then
    (.token (.variable (c :: rest.takeWhile isDigit)), rest.dropWhile isDigit)
  else if c = 0x24 ∨ c = 0x40 ∨ c = 0x23 ∨ c = colon then
    if rest.head?.any isWordChar then
      (.token (.variable (c :: rest.takeWhile isWordChar)), rest.dropWhile isWordChar)
    else (.illegal, rest)
  else if (c = 0x78 ∨ c = 0x58) ∧ rest.head? = some apostrophe then
    let digits := (rest.drop 1).takeWhile isHexDigit
    let after := (rest.drop 1).drop digits.length
    if after.head? = some apostrophe ∧ digits.length % 2 = 0 then
      (.token (.blob digits), after.drop 1)
    else (.illegal, after)
  else if isWordStart c then
    (.token (.word (c :: rest.takeWhile isWordChar)), rest.dropWhile isWordChar)
  else (.illegal, rest)

/-- Cut tokens until the text ends. -/
def lexFrom : Nat → Bytes → List Token → Option (List Token)
  | _, [], tokens => some tokens
  | 0, _ :: _, _ => none
  | fuel + 1, c :: rest, tokens =>
    match getToken c rest with
    | (.token token, after) => lexFrom fuel after (tokens ++ [token])
    | (.skipped, after) => lexFrom fuel after tokens
    | (.illegal, _) => none

/-- The tokens of a text. -/
def lex (text : Bytes) : Option (List Token) := lexFrom text.length text []

/-! ## String literals -/

/-- A value between delimiters: every delimiter inside is doubled. -/
def escape (delimiter : UInt8) (value : Bytes) : Bytes :=
  value.flatMap fun c => if c = delimiter then [delimiter, delimiter] else [c]

/-- A value without the delimiter is written as it is. -/
theorem escape_free {delimiter : UInt8} {value : Bytes} (free : delimiter ∉ value) :
    escape delimiter value = value := by
  induction value with
  | nil => rfl
  | cons c value ih =>
    simp only [List.mem_cons, not_or] at free
    simp only [escape, List.flatMap_cons, Ne.symm free.1, ↓reduceIte, List.cons_append,
      List.nil_append]
    exact congrArg (c :: ·) (ih free.2)

/-- What is read between delimiters is the escaped value, and no further delimiter follows. -/
theorem scanQuoted_some {delimiter : UInt8} {text value rest : Bytes}
    (scan : scanQuoted delimiter text = some (value, rest)) :
    text = escape delimiter value ++ delimiter :: rest ∧ rest.head? ≠ some delimiter := by
  fun_induction scanQuoted delimiter text generalizing value rest with
  | case1 => cases scan
  | case2 => cases scan; simp [escape]
  | case3 after ih =>
    obtain ⟨⟨inner, tail⟩, inside, same⟩ := Option.map_eq_some_iff.mp scan
    cases same
    obtain ⟨whole, ends⟩ := ih inside
    exact ⟨by simp [escape, whole], ends⟩
  | case4 d after differs =>
    cases scan
    exact ⟨by simp [escape], by simpa using differs⟩
  | case5 c rest' differs ih =>
    obtain ⟨⟨inner, tail⟩, inside, same⟩ := Option.map_eq_some_iff.mp scan
    cases same
    obtain ⟨whole, ends⟩ := ih inside
    exact ⟨by simp [escape, differs, whole], ends⟩

/-- Any other character belongs to the value. -/
theorem scanQuoted_other {delimiter c : UInt8} {rest : Bytes} (differs : c ≠ delimiter) :
    scanQuoted delimiter (c :: rest) =
      (scanQuoted delimiter rest).map fun (value, rest) => (c :: value, rest) := by
  rw [scanQuoted.eq_def]
  exact if_neg differs

/-- A value without the delimiter is read back from between delimiters. -/
theorem scanQuoted_free {delimiter : UInt8} {value rest : Bytes} (free : delimiter ∉ value)
    (ends : rest.head? ≠ some delimiter) :
    scanQuoted delimiter (value ++ delimiter :: rest) = some (value, rest) := by
  induction value with
  | nil =>
    cases rest with
    | nil => simp [scanQuoted]
    | cons d rest => simp_all [scanQuoted]
  | cons c value ih =>
    simp only [List.mem_cons, not_or] at free
    rw [List.cons_append, scanQuoted_other (Ne.symm free.1), ih free.2]
    rfl

/-- A value that is written down raw is not its own escaped form if it has a delimiter: behind
some doubled delimiters the two texts stay apart. -/
theorem escape_notPrefix {delimiter stop : UInt8} (other : stop ≠ delimiter) (count : Nat)
    (value rest : Bytes) :
    ¬ List.replicate (count + 1) delimiter ++ escape delimiter value ++ [delimiter] <+:
      value ++ delimiter :: stop :: rest := by
  induction value generalizing count with
  | nil =>
    intro front
    obtain ⟨tail, whole⟩ := front
    cases count with
    | zero =>
      simp only [escape, List.replicate_succ, List.replicate_zero, List.flatMap_nil,
        List.append_nil, List.cons_append, List.nil_append, List.cons.injEq, true_and] at whole
      exact other whole.1.symm
    | succ count =>
      simp only [escape, List.replicate_succ, List.flatMap_nil, List.append_nil, List.cons_append,
        List.nil_append, List.cons.injEq, true_and] at whole
      exact other whole.1.symm
  | cons c value ih =>
    intro front
    rw [List.replicate_succ, List.cons_append, List.cons_append, List.cons_append,
      List.cons_prefix_cons] at front
    obtain ⟨rfl, front⟩ := front
    refine ih (count + 1) ?_
    have shape : List.replicate count delimiter ++ escape delimiter (delimiter :: value) =
        List.replicate (count + 2) delimiter ++ escape delimiter value := by
      simp only [escape, List.flatMap_cons, ↓reduceIte]
      rw [List.replicate_add]
      simp [List.append_assoc]
    rwa [shape] at front

/-- A raw value that starts like its escaped form has no delimiter. -/
theorem escape_prefix_free {delimiter stop : UInt8} (other : stop ≠ delimiter)
    (value rest : Bytes)
    (front : escape delimiter value ++ [delimiter] <+: value ++ delimiter :: stop :: rest) :
    delimiter ∉ value := by
  induction value with
  | nil => simp
  | cons c value ih =>
    by_cases same : c = delimiter
    · subst same
      have inner : List.replicate 1 c ++ escape c value ++ [c] <+: value ++ c :: stop :: rest := by
        simp only [escape, List.flatMap_cons, ↓reduceIte, List.cons_append, List.nil_append,
          List.cons_prefix_cons, true_and] at front
        simpa [escape] using front
      exact absurd inner (escape_notPrefix other 0 value rest)
    · simp only [escape, List.flatMap_cons, same, ↓reduceIte, List.cons_append, List.nil_append,
        List.cons_prefix_cons, true_and] at front
      have later := ih front
      simp only [List.mem_cons, not_or]
      exact ⟨Ne.symm same, later⟩

/-! ## Token by token -/

/-- The tokens cut so far stay in front. -/
theorem lexFrom_acc (fuel : Nat) (text : Bytes) (tokens : List Token) :
    lexFrom fuel text tokens = (lexFrom fuel text []).map (tokens ++ ·) := by
  induction fuel generalizing text tokens with
  | zero => cases text <;> simp [lexFrom]
  | succ fuel ih =>
    cases text with
    | nil => simp [lexFrom]
    | cons c rest =>
      simp only [lexFrom]
      cases getToken c rest with
      | mk piece after =>
        cases piece with
        | token token =>
          simp only [List.nil_append]
          rw [ih after (tokens ++ [token]), ih after [token], Option.map_map]
          congr 1
          funext more
          simp
        | skipped => exact ih after tokens
        | illegal => rfl

/-- More fuel finds the same tokens. -/
theorem lexFrom_more {fuel : Nat} {text : Bytes} {tokens found : List Token} (extra : Nat)
    (lexed : lexFrom fuel text tokens = some found) :
    lexFrom (fuel + extra) text tokens = some found := by
  induction fuel generalizing text tokens with
  | zero =>
    cases text with
    | nil => cases extra <;> simpa [lexFrom] using lexed
    | cons c rest => simp [lexFrom] at lexed
  | succ fuel ih =>
    cases text with
    | nil => simpa [lexFrom] using lexed
    | cons c rest =>
      rw [Nat.succ_add]
      simp only [lexFrom] at lexed ⊢
      cases cut : getToken c rest with
      | mk piece after =>
        cases piece with
        | token token => simp only [cut] at lexed; exact ih lexed
        | skipped => simp only [cut] at lexed; exact ih lexed
        | illegal => simp [cut] at lexed

end Library.Sql
