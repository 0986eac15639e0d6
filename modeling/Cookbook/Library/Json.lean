import Cookbook.Library.Number
import Mathlib.Algebra.Order.Field.Rat

/-!
# JSON texts

A strict reader of the JSON grammar. Every reader takes a prefix of a text and returns what it spells
and the text behind it; a text is JSON if one value and white space are all of it. A number is read as
the rational it denotes, and the members of an object keep their order. Characters above ASCII are
taken byte by byte: whether they are UTF-8 is not looked at.
-/
namespace Library.Json

open Library.Text

/-- A JSON value. -/
inductive Tree
  /-- `null` -/
  | null
  /-- `true` and `false` -/
  | bool (value : Bool)
  /-- A number, as the decimal fraction that it denotes. -/
  | number (value : ℚ)
  /-- A string, unescaped. -/
  | string (data : Bytes)
  /-- An array. -/
  | array (items : List Tree)
  /-- An object with its members in their order. -/
  | object (members : List (Bytes × Tree))

/-- A reader of a prefix of a text. -/
abbrev Reader (α : Type) := Bytes → Option (α × Bytes)

/-! ## Numbers -/

/-- `1*DIGIT` -/
def digits : Reader Bytes := fun text =>
  if text.takeWhile isDecimal = [] then none
  else some (text.takeWhile isDecimal, text.dropWhile isDecimal)

/-- `frac = decimal-point 1*DIGIT`, or nothing. -/
def fraction : Reader Bytes
  | [] => some ([], [])
  | c :: rest => if c = dot then digits rest else some ([], c :: rest)

/-- `exp = e [ minus / plus ] 1*DIGIT`, or nothing. -/
def exponent : Reader Int
  | [] => some (0, [])
  | c :: rest =>
    if c = 0x65 ∨ c = 0x45 then do
      let (run, behind) ← digits (readSign rest).2
      some (if (readSign rest).1 then -(readDigits run : Int) else (readDigits run : Int), behind)
    else some (0, c :: rest)

/-- `int [ frac ] [ exp ]`: no digit follows a leading zero. -/
def magnitude : Reader ℚ := fun text => do
  let (whole, rest) ← digits text
  if 1 < whole.length ∧ whole.head? = some 0x30 then none else
  let (part, rest) ← fraction rest
  let (power, rest) ← exponent rest
  some ((readDigits (whole ++ part) : ℚ) * 10 ^ (power - (part.length : Int)), rest)

/-- `number = [ minus ] int [ frac ] [ exp ]` -/
def number : Reader ℚ
  | [] => none
  | c :: rest =>
    if c = 0x2D then (magnitude rest).map fun (value, behind) => (-value, behind)
    else magnitude (c :: rest)

/-! ## Strings -/

/-- The value of a hexadecimal digit. -/
def hexDigit (c : UInt8) : Option Nat :=
  if 0x30 ≤ c ∧ c ≤ 0x39 then some (c.toNat - 0x30)
  else if 0x41 ≤ c ∧ c ≤ 0x46 then some (c.toNat - 0x37)
  else if 0x61 ≤ c ∧ c ≤ 0x66 then some (c.toNat - 0x57)
  else none

/-- `4HEXDIG` -/
def hex4 : Reader Nat
  | a :: b :: c :: d :: rest => do
    let a ← hexDigit a
    let b ← hexDigit b
    let c ← hexDigit c
    let d ← hexDigit d
    some (((a * 16 + b) * 16 + c) * 16 + d, rest)
  | _ => none

/-- A code point in UTF-8. -/
def utf8 (point : Nat) : Bytes :=
  if point < 0x80 then [UInt8.ofNat point]
  else if point < 0x800 then [UInt8.ofNat (0xC0 + point / 64), UInt8.ofNat (0x80 + point % 64)]
  else if point < 0x10000 then
    [UInt8.ofNat (0xE0 + point / 4096), UInt8.ofNat (0x80 + point / 64 % 64),
      UInt8.ofNat (0x80 + point % 64)]
  else
    [UInt8.ofNat (0xF0 + point / 262144), UInt8.ofNat (0x80 + point / 4096 % 64),
      UInt8.ofNat (0x80 + point / 64 % 64), UInt8.ofNat (0x80 + point % 64)]

/-- The second half of a surrogate pair. -/
def lowSurrogate : Reader Nat
  | a :: b :: rest => do
    if a ≠ 0x5C ∨ b ≠ 0x75 then none else
    let (low, rest) ← hex4 rest
    if 0xDC00 ≤ low ∧ low < 0xE000 then some (low - 0xDC00, rest) else none
  | _ => none

/-- What stands behind `\u`. -/
def unicode : Reader Bytes := fun text => do
  let (unit, rest) ← hex4 text
  if 0xD800 ≤ unit ∧ unit < 0xDC00 then
    let (low, rest) ← lowSurrogate rest
    some (utf8 (0x10000 + (unit - 0xD800) * 1024 + low), rest)
  else if 0xDC00 ≤ unit ∧ unit < 0xE000 then none
  else some (utf8 unit, rest)

/-- The escapes of one character. -/
def simpleEscape (c : UInt8) : Option UInt8 :=
  if c = quote ∨ c = 0x5C ∨ c = slash then some c
  else if c = 0x62 then some 0x08
  else if c = 0x66 then some 0x0C
  else if c = 0x6E then some newline
  else if c = 0x72 then some carriageReturn
  else if c = 0x74 then some tab
  else none

/-- What stands behind a backslash. -/
def escape : Reader Bytes
  | [] => none
  | c :: rest => if c = 0x75 then unicode rest else (simpleEscape c).map fun d => ([d], rest)

/-- `*char quotation-mark`, with a bound on the number of characters. -/
def characters : Nat → Reader Bytes
  | 0, _ => none
  | _ + 1, [] => none
  | fuel + 1, c :: rest =>
    if c = quote then some ([], rest)
    else if c = 0x5C then do
      let (escaped, rest) ← escape rest
      let (more, rest) ← characters fuel rest
      some (escaped ++ more, rest)
    else if c < 0x20 then none
    else do
      let (more, rest) ← characters fuel rest
      some (c :: more, rest)

/-- `string = quotation-mark *char quotation-mark` -/
def quoted : Reader Bytes
  | [] => none
  | c :: rest => if c = quote then characters rest.length rest else none

/-! ## Values -/

/-- The white space between the tokens. -/
def isBlank (c : UInt8) : Bool := c == space || c == tab || c == newline || c == carriageReturn

/-- `ws` -/
def skipSpace (text : Bytes) : Bytes := text.dropWhile isBlank

/-- One character between white space. -/
def separator (mark : UInt8) (text : Bytes) : Option Bytes :=
  match skipSpace text with
  | [] => none
  | c :: rest => if c = mark then some rest else none

/-- `item *( value-separator item ) close`, with a bound on the number of items. -/
def items {α : Type} (item : Reader α) (close : UInt8) : Nat → Reader (List α)
  | 0, _ => none
  | fuel + 1, text => do
    let (head, rest) ← item text
    match separator close rest with
    | some behind => some ([head], behind)
    | none =>
      ((separator comma rest).bind (items item close fuel)).map fun (more, last) =>
        (head :: more, last)

/-- `[ item *( value-separator item ) ] close` -/
def sequence {α : Type} (item : Reader α) (close : UInt8) : Reader (List α) := fun text =>
  match separator close text with
  | some behind => some ([], behind)
  | none => items item close text.length text

/-- `member = string name-separator value` -/
def member {α : Type} (value : Reader α) : Reader (Bytes × α) := fun text => do
  let (key, rest) ← quoted (skipSpace text)
  let rest ← separator colon rest
  let (value, rest) ← value rest
  some ((key, value), rest)

/-- A keyword in front of a text. -/
def keyword (word : Bytes) (value : Tree) : Reader Tree := fun text =>
  if word.isPrefixOf text then some (value, text.drop word.length) else none

/-- A value that is no array and no object. -/
def scalar : Reader Tree := fun text =>
  match quoted text with
  | some (data, rest) => some (.string data, rest)
  | none =>
    (keyword (ascii "null") .null text).or <|
      (keyword (ascii "true") (.bool true) text).or <|
        (keyword (ascii "false") (.bool false) text).or <|
          (number text).map fun (value, rest) => (.number value, rest)

/-- `ws value`, with a bound on the depth. -/
def value : Nat → Reader Tree
  | 0, _ => none
  | depth + 1, text =>
    match skipSpace text with
    | [] => none
    | c :: rest =>
      if c = 0x5B then
        (sequence (value depth) 0x5D rest).map fun (found, behind) => (.array found, behind)
      else if c = openBrace then
        (sequence (member (value depth)) closeBrace rest).map fun (found, behind) =>
          (.object found, behind)
      else scalar (c :: rest)

/-- `JSON-text = ws value ws`: every level of depth takes a character. -/
def decode (text : Bytes) : Option Tree := do
  let (found, rest) ← value text.length text
  if skipSpace rest = [] then some found else none

/-! ## What strings spell -/

/-- A character that a string holds as it is. -/
def Plain (c : UInt8) : Prop := c ≠ quote ∧ c ≠ 0x5C ∧ 0x20 ≤ c

instance (c : UInt8) : Decidable (Plain c) := inferInstanceAs (Decidable (_ ∧ _))

/-- A plain character is read as itself. -/
theorem characters_plain {c : UInt8} (plain : Plain c) (fuel : Nat) (rest : Bytes) :
    characters (fuel + 1) (c :: rest) =
      (characters fuel rest).map fun (more, behind) => (c :: more, behind) := by
  have visible : ¬ c < 0x20 := UInt8.not_lt.mpr plain.2.2
  rw [characters, if_neg plain.1, if_neg plain.2.1, if_neg visible]
  cases characters fuel rest <;> rfl

/-- The closing quotation mark ends a string. -/
theorem characters_close (fuel : Nat) (rest : Bytes) :
    characters (fuel + 1) (quote :: rest) = some ([], rest) := by
  rw [characters, if_pos rfl]

/-- A run of plain characters is read as it is. -/
theorem characters_run {run : Bytes} (plain : ∀ c ∈ run, Plain c) {fuel : Nat} (rest : Bytes)
    (enough : run.length < fuel) : characters fuel (run ++ quote :: rest) = some (run, rest) := by
  induction run generalizing fuel with
  | nil =>
    obtain ⟨fuel, rfl⟩ := Nat.exists_eq_succ_of_ne_zero (by omega : fuel ≠ 0)
    exact characters_close fuel rest
  | cons c run ih =>
    obtain ⟨fuel, rfl⟩ := Nat.exists_eq_succ_of_ne_zero (by omega : fuel ≠ 0)
    rw [List.length_cons] at enough
    rw [List.cons_append, characters_plain (plain c (List.mem_cons_self)),
      ih (fun d member => plain d (List.mem_cons_of_mem _ member)) (by omega)]
    rfl

/-! ## Strings that spell themselves

A text in front of a quotation mark may be read past that mark, where the mark is escaped. It is read
as itself only if every character of it is plain. -/

/-- The quotation mark is no hexadecimal digit. -/
theorem hexDigit_ne_quote {c : UInt8} {digit : Nat} (read : hexDigit c = some digit) :
    quote ≠ c := by
  rintro rfl
  cases read

/-- What four hexadecimal digits take. -/
theorem hex4_front {text : Bytes} {unit : Nat} {behind : Bytes}
    (read : hex4 text = some (unit, behind)) :
    ∃ front, text = front ++ behind ∧ quote ∉ front ∧ front.length = 4 := by
  match text with
  | [] | [_] | [_, _] | [_, _, _] => cases read
  | a :: b :: c :: d :: rest =>
    simp only [hex4, bind, Option.bind_eq_some_iff] at read
    obtain ⟨_, first, _, second, _, third, _, fourth, same⟩ := read
    cases same
    refine ⟨[a, b, c, d], rfl, ?_, rfl⟩
    simp only [List.mem_cons, List.not_mem_nil, or_false, not_or]
    exact ⟨hexDigit_ne_quote first, hexDigit_ne_quote second, hexDigit_ne_quote third,
      hexDigit_ne_quote fourth⟩

/-- What the second half of a surrogate pair takes. -/
theorem lowSurrogate_front {text : Bytes} {low : Nat} {behind : Bytes}
    (read : lowSurrogate text = some (low, behind)) :
    ∃ front, text = front ++ behind ∧ quote ∉ front ∧ front.length = 6 := by
  match text with
  | [] | [_] => cases read
  | a :: b :: rest =>
    rw [lowSurrogate] at read
    split at read
    · cases read
    · rename_i marks
      push Not at marks
      obtain ⟨⟨unit, last⟩, digits, same⟩ := Option.bind_eq_some_iff.mp read
      obtain ⟨front, rfl, free, length⟩ := hex4_front digits
      dsimp only at same
      split at same
      · simp only [Option.some.injEq, Prod.mk.injEq] at same
        obtain ⟨-, rfl⟩ := same
        refine ⟨a :: b :: front, rfl, ?_, by simp [length]⟩
        rw [marks.1, marks.2]
        simp [free]
      · cases same

/-- A code point takes at most four bytes, and at most three outside the surrogate pairs. -/
theorem utf8_length (point : Nat) :
    (utf8 point).length ≤ 4 ∧ (point < 0x10000 → (utf8 point).length ≤ 3) := by
  unfold utf8
  split_ifs <;> simp_all

/-- What an escaped code point takes is no shorter than its bytes. -/
theorem unicode_front {text bytes behind : Bytes} (read : unicode text = some (bytes, behind)) :
    ∃ front, text = front ++ behind ∧ quote ∉ front ∧ bytes.length ≤ front.length := by
  obtain ⟨⟨unit, rest⟩, digits, spelt⟩ := Option.bind_eq_some_iff.mp read
  obtain ⟨front, rfl, free, length⟩ := hex4_front digits
  dsimp only at spelt
  split at spelt
  · obtain ⟨⟨low, last⟩, second, same⟩ := Option.bind_eq_some_iff.mp spelt
    obtain ⟨more, rfl, clear, longer⟩ := lowSurrogate_front second
    simp only [Option.some.injEq, Prod.mk.injEq] at same
    obtain ⟨rfl, rfl⟩ := same
    refine ⟨front ++ more, by simp, by simp [free, clear], ?_⟩
    have short := (utf8_length (0x10000 + (unit - 0xD800) * 1024 + low)).1
    simp only [List.length_append]
    omega
  · split at spelt
    · cases spelt
    · simp only [Option.some.injEq, Prod.mk.injEq] at spelt
      obtain ⟨rfl, rfl⟩ := spelt
      exact ⟨front, rfl, free, by have short := (utf8_length unit).1; omega⟩

/-- A text that starts a longer one without its mark lies in front of the mark. -/
theorem front_inside {front behind run rest : Bytes} {mark : UInt8}
    (same : front ++ behind = run ++ mark :: rest) (free : mark ∉ front) :
    ∃ last, run = front ++ last ∧ behind = last ++ mark :: rest := by
  rcases List.append_eq_append_iff.mp same with ⟨last, inside, beyond⟩ | ⟨last, inside, beyond⟩
  · exact ⟨last, inside, beyond⟩
  · cases last with
    | nil => exact ⟨[], by simpa using inside.symm, by simpa using beyond.symm⟩
    | cons c last =>
      cases beyond
      exact absurd (by simp [inside]) free

/-- What stands behind a backslash is the quotation mark, or lies in front of it and is no shorter than
what it spells. -/
theorem escape_within {run rest bytes behind : Bytes}
    (read : escape (run ++ quote :: rest) = some (bytes, behind)) :
    (run = [] ∧ bytes = [quote]) ∨
      ∃ front last, run = front ++ last ∧ behind = last ++ quote :: rest ∧
        bytes.length ≤ front.length := by
  cases run with
  | nil =>
    cases read
    exact .inl ⟨rfl, rfl⟩
  | cons c run =>
    rw [List.cons_append, escape] at read
    split at read
    · obtain ⟨front, same, free, shorter⟩ := unicode_front read
      obtain ⟨last, rfl, rfl⟩ := front_inside same.symm free
      exact .inr ⟨c :: front, last, rfl, rfl, by rw [List.length_cons]; omega⟩
    · obtain ⟨d, _, same⟩ := Option.map_eq_some_iff.mp read
      cases same
      exact .inr ⟨[c], run, rfl, rfl, by simp⟩

/-- A text without quotation marks in front of one: the string read there has a quotation mark in its
place, or is shorter than the text, or is the text. -/
theorem characters_bound {fuel : Nat} {run rest data behind : Bytes} (free : quote ∉ run)
    (read : characters fuel (run ++ quote :: rest) = some (data, behind)) :
    quote ∈ data.take run.length ∨
      data.length ≤ run.length ∧ (data.length = run.length → ∀ c ∈ run, Plain c) := by
  induction size : run.length using Nat.strong_induction_on generalizing fuel run data behind with
  | _ size ih =>
    subst size
    cases fuel with
    | zero => cases read
    | succ fuel =>
      cases run with
      | nil =>
        rw [List.nil_append, characters_close] at read
        cases read
        exact .inr ⟨le_rfl, fun _ c member => by cases member⟩
      | cons c run =>
        have unmarked : c ≠ quote := fun same => free (by simp [same])
        rw [List.cons_append, characters, if_neg unmarked] at read
        split at read
        · obtain ⟨⟨escaped, more⟩, first, read⟩ := Option.bind_eq_some_iff.mp read
          obtain ⟨⟨others, last⟩, second, same⟩ := Option.bind_eq_some_iff.mp read
          cases same
          rcases escape_within first with ⟨rfl, rfl⟩ | ⟨front, left, rfl, rfl, shorter⟩
          · exact .inl (by simp)
          · have clear : quote ∉ left := fun member => free (by simp [member])
            have inside := ih left.length
              (by simp only [List.length_cons, List.length_append]; omega) clear second rfl
            simp only [List.length_cons, List.length_append] at *
            rcases inside with found | ⟨short, -⟩
            · left
              rw [List.take_append]
              refine List.mem_append_right _ ?_
              exact List.take_subset_take_left _ (by omega) found
            · exact .inr ⟨by omega, by omega⟩
        · rename_i unescaped
          split at read
          · cases read
          · rename_i visible
            obtain ⟨⟨others, last⟩, second, same⟩ := Option.bind_eq_some_iff.mp read
            cases same
            have clear : quote ∉ run := fun member => free (by simp [member])
            rcases ih run.length (by simp) clear second rfl with found | ⟨short, plain⟩
            · exact .inl (by simp [found])
            · refine .inr ⟨by simpa using short, fun even d member => ?_⟩
              rcases List.mem_cons.mp member with rfl | member
              · exact ⟨unmarked, unescaped, UInt8.not_lt.mp visible⟩
              · exact plain (by simpa using even) d member

/-- A text that is the start of what is read in front of a quotation mark is all of it, and has plain
characters only. -/
theorem characters_exact {fuel : Nat} {run rest more behind : Bytes}
    (read : characters fuel (run ++ quote :: rest) = some (run ++ more, behind)) :
    more = [] ∧ ∀ c ∈ run, Plain c := by
  by_cases marked : quote ∈ run
  · obtain ⟨front, last, rfl, free⟩ := List.eq_append_cons_of_mem marked
    simp only [List.append_assoc, List.cons_append] at read
    rcases characters_bound free read with found | ⟨short, -⟩
    · rw [List.take_left] at found
      exact absurd found free
    · simp only [List.length_append, List.length_cons] at short
      omega
  · rcases characters_bound marked read with found | ⟨short, plain⟩
    · rw [List.take_left] at found
      exact absurd found marked
    · rw [List.length_append] at short plain
      have none : more = [] := List.eq_nil_of_length_eq_zero (by omega)
      exact ⟨none, plain (by simp [none])⟩

/-! ## What a text spells

A text that is read as a given value exactly on a condition, in front of whatever ends a value. The
condition of a list is that of all its items. -/

/-- A text that ends a value: its end, or the next mark. -/
def Ends (rest : Bytes) : Prop := ∀ c ∈ rest.head?, c = comma ∨ c = 0x5D ∨ c = closeBrace

/-- The text is read as the value exactly on the condition. -/
structure Spells {α : Type} (reader : Reader α) (text : Bytes) (found : α) (right : Prop) : Prop where
  /-- On the condition it is read, up to its end. -/
  read : right → ∀ rest, Ends rest → reader (text ++ rest) = some (found, rest)
  /-- A text that is read as the value meets the condition. -/
  only : ∀ rest behind, Ends rest → reader (text ++ rest) = some (found, behind) → right

/-- A comma ends a value. -/
theorem ends_comma (rest : Bytes) : Ends (comma :: rest) := by
  rintro c ⟨⟩
  exact .inl rfl

/-- In front of a character that is no white space nothing is skipped. -/
theorem skipSpace_cons {c : UInt8} (visible : isBlank c = false) (rest : Bytes) :
    skipSpace (c :: rest) = c :: rest :=
  List.dropWhile_cons_of_neg (by simp [visible])

/-- A mark is passed. -/
theorem separator_mark {mark : UInt8} (visible : isBlank mark = false) (rest : Bytes) :
    separator mark (mark :: rest) = some rest := by
  simp [separator, skipSpace_cons visible]

/-- Another character is not. -/
theorem separator_other {mark c : UInt8} (visible : isBlank c = false) (other : c ≠ mark)
    (rest : Bytes) : separator mark (c :: rest) = none := by
  simp [separator, skipSpace_cons visible, other]

section Lists

variable {α β : Type} {reader : Reader α} {text : β → Bytes} {tree : β → α} {right : β → Prop}
  {close : UInt8}

/-- The items behind one that has been read. -/
def itemsBehind (reader : Reader α) (close : UInt8) (fuel : Nat) (head : α) (behind : Bytes) :
    Option (List α × Bytes) :=
  match separator close behind with
  | some rest => some ([head], rest)
  | none =>
    ((separator comma behind).bind (items reader close fuel)).map fun (more, last) =>
      (head :: more, last)

/-- A list begins with the item that has been read. -/
theorem itemsBehind_head {fuel : Nat} {head : α} {behind last : Bytes} {found : List α}
    (read : itemsBehind reader close fuel head behind = some (found, last)) :
    found.head? = some head := by
  unfold itemsBehind at read
  split at read
  · cases read
    rfl
  · obtain ⟨_, _, same⟩ := Option.map_eq_some_iff.mp read
    cases same
    rfl

/-- The first item of a list. -/
theorem items_succ (fuel : Nat) (front : Bytes) :
    items reader close (fuel + 1) front =
      (reader front).bind fun (head, behind) => itemsBehind reader close fuel head behind := rfl

/-- Behind the last item. -/
theorem itemsBehind_close (visible : isBlank close = false) (fuel : Nat) (head : α) (rest : Bytes) :
    itemsBehind reader close fuel head (close :: rest) = some ([head], rest) := by
  rw [itemsBehind, separator_mark visible]

/-- Behind another item. -/
theorem itemsBehind_comma (other : close ≠ comma) (fuel : Nat) (head : α) (rest : Bytes) :
    itemsBehind reader close fuel head (comma :: rest) =
      (items reader close fuel rest).map fun (more, last) => (head :: more, last) := by
  rw [itemsBehind, separator_other (by decide) (Ne.symm other), separator_mark (by decide)]
  rfl

/-- What stands behind the first item. -/
theorem items_tail (xs : List β) (ends : ∀ rest, Ends (close :: rest)) (rest : Bytes) :
    Ends ((xs.map text).flatMap (comma :: ·) ++ close :: rest) := by
  cases xs with
  | nil => exact ends rest
  | cons x xs => exact ends_comma _

/-- The items of a list are read one by one. -/
theorem items_read {x : β} {xs : List β}
    (spells : ∀ y ∈ x :: xs, Spells reader (text y) (tree y) (right y))
    (good : ∀ y ∈ x :: xs, right y) (visible : isBlank close = false) (other : close ≠ comma)
    (ends : ∀ rest, Ends (close :: rest)) {fuel : Nat} (enough : xs.length < fuel) (rest : Bytes) :
    items reader close fuel
        (text x ++ ((xs.map text).flatMap (comma :: ·) ++ close :: rest)) =
      some ((x :: xs).map tree, rest) := by
  induction xs generalizing x fuel with
  | nil =>
    obtain ⟨fuel, rfl⟩ := Nat.exists_eq_succ_of_ne_zero (by omega : fuel ≠ 0)
    rw [items_succ, (spells x (by simp)).read (good x (by simp)) _ (items_tail [] ends rest)]
    exact itemsBehind_close visible fuel (tree x) rest
  | cons y ys ih =>
    obtain ⟨fuel, rfl⟩ := Nat.exists_eq_succ_of_ne_zero (by omega : fuel ≠ 0)
    rw [items_succ, (spells x (by simp)).read (good x (by simp)) _ (items_tail (y :: ys) ends rest)]
    have more := ih (fun z member => spells z (List.mem_cons_of_mem _ member))
      (fun z member => good z (List.mem_cons_of_mem _ member))
      (by rw [List.length_cons] at enough; omega : ys.length < fuel)
    simp only [List.map_cons, List.flatMap_cons, List.cons_append, List.append_assoc] at more ⊢
    rw [Option.bind_some, itemsBehind_comma other, more]
    rfl

/-- Items that are read as the values have their texts right. -/
theorem items_only {x : β} {xs : List β}
    (spells : ∀ y ∈ x :: xs, Spells reader (text y) (tree y) (right y)) (other : close ≠ comma)
    (ends : ∀ rest, Ends (close :: rest)) {fuel : Nat} {rest behind : Bytes}
    (found : items reader close fuel
        (text x ++ ((xs.map text).flatMap (comma :: ·) ++ close :: rest)) =
      some ((x :: xs).map tree, behind)) : ∀ y ∈ x :: xs, right y := by
  induction xs generalizing x fuel behind with
  | nil =>
    cases fuel with
    | zero => cases found
    | succ fuel =>
      rw [items_succ] at found
      obtain ⟨⟨head, last⟩, here, found⟩ := Option.bind_eq_some_iff.mp found
      cases itemsBehind_head found
      rintro y member
      obtain rfl := List.mem_singleton.mp member
      exact (spells y (by simp)).only _ _ (items_tail [] ends rest) here
  | cons y ys ih =>
    cases fuel with
    | zero => cases found
    | succ fuel =>
      rw [items_succ] at found
      obtain ⟨⟨head, last⟩, here, found⟩ := Option.bind_eq_some_iff.mp found
      cases itemsBehind_head found
      have good := (spells x (by simp)).only _ _ (items_tail (y :: ys) ends rest) here
      rw [(spells x (by simp)).read good _ (items_tail (y :: ys) ends rest)] at here
      cases here
      simp only [List.map_cons, List.flatMap_cons, List.cons_append, List.append_assoc] at found ih
      rw [itemsBehind_comma other] at found
      obtain ⟨⟨more, final⟩, next, same⟩ := Option.map_eq_some_iff.mp found
      cases same
      have others := ih (fun z member => spells z (List.mem_cons_of_mem _ member)) next
      intro z member
      rcases List.mem_cons.mp member with rfl | member
      · exact good
      · exact others z member

/-- Every further item takes a character. -/
theorem length_le_flatMap (text : β → Bytes) (xs : List β) :
    xs.length ≤ ((xs.map text).flatMap (comma :: ·)).length := by
  induction xs with
  | nil => exact le_rfl
  | cons x xs ih =>
    simp only [List.map_cons, List.flatMap_cons, List.length_cons, List.length_append]
    omega

/-- A list between its marks. -/
theorem sequence_spells {xs : List β}
    (spells : ∀ x ∈ xs, Spells reader (text x) (tree x) (right x))
    (starts : ∀ x ∈ xs, ∃ c more, text x = c :: more ∧ isBlank c = false ∧ c ≠ close)
    (visible : isBlank close = false) (other : close ≠ comma)
    (ends : ∀ rest, Ends (close :: rest)) :
    Spells (sequence reader close) ([comma].intercalate (xs.map text) ++ [close]) (xs.map tree)
      (∀ x ∈ xs, right x) := by
  cases xs with
  | nil =>
    refine ⟨fun _ rest _ => ?_, fun _ _ _ _ x member => by cases member⟩
    simp [sequence, separator_mark visible]
  | cons x xs =>
    obtain ⟨c, more, start, shown, different⟩ := starts x (by simp)
    have between : ∀ rest, sequence reader close
        ([comma].intercalate ((x :: xs).map text) ++ [close] ++ rest) =
        items reader close (text x ++ ((xs.map text).flatMap (comma :: ·) ++ close :: rest)).length
          (text x ++ ((xs.map text).flatMap (comma :: ·) ++ close :: rest)) := by
      intro rest
      rw [List.map_cons, intercalate_items]
      simp only [List.append_assoc, List.singleton_append]
      rw [sequence, start, List.cons_append, separator_other shown different]
    refine ⟨fun good rest _ => ?_, fun rest behind _ found => ?_⟩
    · rw [between]
      refine items_read spells good visible other ends ?_ rest
      have long := length_le_flatMap text xs
      simp only [List.length_append, List.length_cons]
      omega
    · rw [between] at found
      exact items_only spells other ends found

end Lists

/-- A closing bracket ends a value. -/
theorem ends_bracket (rest : Bytes) : Ends (0x5D :: rest) := by
  rintro c ⟨⟩
  exact .inr (.inl rfl)

/-- A closing brace ends a value. -/
theorem ends_brace (rest : Bytes) : Ends (closeBrace :: rest) := by
  rintro c ⟨⟩
  exact .inr (.inr rfl)

/-- A value that is read through a map is read as the map tells. -/
theorem spells_map {α β : Type} {reader : Reader α} {onward : Reader β} {text : Bytes}
    {found : α} {right : Prop} (front : Bytes) (wrap : α → β) (injective : Function.Injective wrap)
    (spells : Spells reader text found right)
    (same : ∀ rest, onward (front ++ (text ++ rest)) =
      (reader (text ++ rest)).map fun (inner, behind) => (wrap inner, behind)) :
    Spells onward (front ++ text) (wrap found) right := by
  refine ⟨fun good rest ends => ?_, fun rest behind ends read => ?_⟩
  · rw [List.append_assoc, same, spells.read good rest ends]
    rfl
  · rw [List.append_assoc, same] at read
    obtain ⟨⟨inner, last⟩, within, equal⟩ := Option.map_eq_some_iff.mp read
    simp only [Prod.mk.injEq] at equal
    obtain rfl := injective equal.1
    exact spells.only rest last ends within

/-- An array. -/
theorem array_spells {depth : Nat} {text : Bytes} {found : List Tree} {right : Prop}
    (spells : Spells (sequence (value depth) 0x5D) text found right) :
    Spells (value (depth + 1)) (0x5B :: text) (.array found) right := by
  refine spells_map [0x5B] Tree.array (fun _ _ same => Tree.array.inj same) spells ?_
  intro rest
  rw [List.singleton_append, value, skipSpace_cons (by decide)]
  rfl

/-- An object. -/
theorem object_spells {depth : Nat} {text : Bytes} {found : List (Bytes × Tree)} {right : Prop}
    (spells : Spells (sequence (member (value depth)) closeBrace) text found right) :
    Spells (value (depth + 1)) (openBrace :: text) (.object found) right := by
  refine spells_map [openBrace] Tree.object (fun _ _ same => Tree.object.inj same) spells ?_
  intro rest
  rw [List.singleton_append, value, skipSpace_cons (by decide)]
  rfl

/-- A scalar. -/
theorem scalar_spells {depth : Nat} {text : Bytes} {found : Tree} {right : Prop}
    (starts : ∃ c more, text = c :: more ∧ isBlank c = false ∧ c ≠ 0x5B ∧ c ≠ openBrace)
    (spells : Spells scalar text found right) : Spells (value (depth + 1)) text found right := by
  obtain ⟨c, more, rfl, shown, bracket, brace⟩ := starts
  have same : ∀ rest, value (depth + 1) (c :: more ++ rest) = scalar (c :: more ++ rest) := by
    intro rest
    rw [List.cons_append, value, skipSpace_cons shown]
    simp only [bracket, brace, ↓reduceIte]
  exact ⟨fun good rest ends => (same rest).trans (spells.read good rest ends),
    fun rest behind ends read => spells.only rest behind ends ((same rest).symm.trans read)⟩

/-- The first character of a number is none of a string and of a keyword. -/
theorem number_first : ∀ c : UInt8, (isDecimal c = true ∨ c = 0x2D) →
    c ≠ quote ∧ c ≠ 0x6E ∧ c ≠ 0x74 ∧ c ≠ 0x66 :=
  byte_forall (by decide +kernel)

/-- A keyword that begins otherwise is not found. -/
theorem keyword_other {letter c : UInt8} (different : c ≠ letter) (more rest : Bytes) (value : Tree) :
    keyword (letter :: more) value (c :: rest) = none := by
  rw [keyword, List.isPrefixOf_cons_cons, beq_false_of_ne (Ne.symm different), Bool.false_and]
  rfl

/-- No other scalar begins like a number. -/
theorem scalar_number {c : UInt8} (first : isDecimal c = true ∨ c = 0x2D) (rest : Bytes) :
    scalar (c :: rest) =
      (number (c :: rest)).map fun (value, behind) => (Tree.number value, behind) := by
  obtain ⟨noQuote, noNull, noTrue, noFalse⟩ := number_first c first
  have null : keyword (ascii "null") .null (c :: rest) = none := keyword_other noNull _ _ _
  have yes : keyword (ascii "true") (.bool true) (c :: rest) = none := keyword_other noTrue _ _ _
  have no : keyword (ascii "false") (.bool false) (c :: rest) = none := keyword_other noFalse _ _ _
  rw [scalar, quoted, if_neg noQuote, null, yes, no]
  rfl

/-- No other scalar begins with a quotation mark. -/
theorem scalar_quote (rest : Bytes) :
    scalar (quote :: rest) =
      (characters rest.length rest).map fun (data, behind) => (Tree.string data, behind) := by
  have none : number (quote :: rest) = none := rfl
  rw [scalar, quoted, if_pos rfl, none]
  cases characters rest.length rest <;> rfl

/-- A member whose name is written as it is: the name is the start of the one to be read. -/
theorem member_spells {α : Type} {reader : Reader α} {text : Bytes} {found : α} {right : Prop}
    (spells : Spells reader text found right) (name more : Bytes) :
    Spells (member reader) (quote :: (name ++ quote :: colon :: text)) (name ++ more, found)
      ((more = [] ∧ ∀ c ∈ name, Plain c) ∧ right) := by
  have front : ∀ rest, quoted (skipSpace (quote :: (name ++ quote :: colon :: text) ++ rest)) =
      characters (name ++ quote :: (colon :: (text ++ rest))).length
        (name ++ quote :: (colon :: (text ++ rest))) := by
    intro rest
    rw [List.cons_append, skipSpace_cons (by decide), quoted, if_pos rfl]
    simp only [List.append_assoc, List.cons_append]
  refine ⟨?_, fun rest behind ends read => ?_⟩
  · rintro ⟨⟨rfl, plain⟩, good⟩ rest ends
    have run := characters_run plain (colon :: (text ++ rest))
      (by simp : name.length < (name ++ quote :: (colon :: (text ++ rest))).length)
    rw [member, front, run, List.append_nil]
    exact Option.bind_eq_some_iff.mpr ⟨_, rfl, Option.bind_eq_some_iff.mpr
      ⟨_, separator_mark (by decide) _, Option.bind_eq_some_iff.mpr
        ⟨_, spells.read good rest ends, rfl⟩⟩⟩
  · rw [member, front] at read
    obtain ⟨⟨key, last⟩, first, read⟩ := Option.bind_eq_some_iff.mp read
    obtain ⟨onward, passed, read⟩ := Option.bind_eq_some_iff.mp read
    obtain ⟨⟨inner, final⟩, second, same⟩ := Option.bind_eq_some_iff.mp read
    simp only [Option.some.injEq, Prod.mk.injEq] at same
    obtain ⟨⟨rfl, rfl⟩, rfl⟩ := same
    obtain ⟨none, plain⟩ := characters_exact first
    refine ⟨⟨none, plain⟩, ?_⟩
    rw [none, List.append_nil, characters_run plain _ (by simp)] at first
    cases first
    rw [separator_mark (by decide)] at passed
    cases passed
    exact spells.only rest _ ends second

end Library.Json
