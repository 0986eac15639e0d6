import Mathlib.Data.List.Infix
import Mathlib.Data.List.TakeWhile

/-!
# Searching and cutting character sequences

A string is the list of its characters, and a position inside it is the suffix that starts
there. The searches return that suffix, so a scan that moves a pointer forward is a recursion on
suffixes. Every search comes with the lemma that evaluates it on a text whose delimiter is known.
-/
namespace Library.Text

/-- The bytes of a C string, without its terminator. -/
abbrev Bytes := List UInt8

/-- Texts that are found equal are equal. -/
instance : LawfulBEq Bytes := inferInstance

/-- The bytes a C string function reads: up to the first terminator. -/
def cString (bytes : Bytes) : Bytes := bytes.takeWhile (· != 0)

/-- The bytes of an ASCII literal. -/
def ascii (literal : String) : Bytes := literal.toList.map fun c => UInt8.ofNat c.toNat

/-- A literal is read from its characters: nothing has to decode it. -/
theorem ascii_ofList (characters : List Char) :
    ascii (no_index (String.ofList characters)) = characters.map fun c => UInt8.ofNat c.toNat := by
  rw [ascii, String.toList_ofList]

/-- What holds of 256 numbers holds of every byte. -/
theorem byte_forall {holds : UInt8 → Prop} (all : ∀ n < 256, holds (UInt8.ofNat n)) (byte : UInt8) :
    holds byte := by
  have small := all byte.toNat byte.toNat_lt
  rwa [UInt8.ofNat_toNat] at small

/-- `"` -/
@[simp] abbrev quote : UInt8 := 0x22
/-- `'` -/
@[simp] abbrev apostrophe : UInt8 := 0x27
/-- `*` -/
@[simp] abbrev star : UInt8 := 0x2A
/-- `,` -/
@[simp] abbrev comma : UInt8 := 0x2C
/-- `.` -/
@[simp] abbrev dot : UInt8 := 0x2E
/-- `/` -/
@[simp] abbrev slash : UInt8 := 0x2F
/-- `:` -/
@[simp] abbrev colon : UInt8 := 0x3A
/-- `{` -/
@[simp] abbrev openBrace : UInt8 := 0x7B
/-- `}` -/
@[simp] abbrev closeBrace : UInt8 := 0x7D
/-- The space. -/
@[simp] abbrev space : UInt8 := 0x20
/-- The tab. -/
@[simp] abbrev tab : UInt8 := 0x09
/-- The line feed. -/
@[simp] abbrev newline : UInt8 := 0x0A
/-- The carriage return. -/
@[simp] abbrev carriageReturn : UInt8 := 0x0D

variable {α : Type}

/-! ## Runs up to a delimiter -/

/-- A run of accepted characters in front of a refused one is taken whole. -/
theorem takeWhile_stop {accept : α → Bool} {run rest : List α} {stop : α}
    (inside : ∀ c ∈ run, accept c = true) (refused : accept stop = false) :
    (run ++ stop :: rest).takeWhile accept = run := by
  rw [List.takeWhile_append_of_pos inside]
  simp [refused]

/-- Dropping the same run leaves the text at the refused character. -/
theorem dropWhile_stop {accept : α → Bool} {run : List α} (rest : List α) (stop : α)
    (inside : ∀ c ∈ run, accept c = true) (refused : accept stop = false) :
    (run ++ stop :: rest).dropWhile accept = stop :: rest := by
  rw [List.dropWhile_append_of_pos inside]
  simp [refused]

/-- A run of accepted characters that ends the text is dropped to nothing. -/
theorem dropWhile_all {accept : α → Bool} {run : List α}
    (inside : ∀ c ∈ run, accept c = true) : run.dropWhile accept = [] :=
  List.dropWhile_eq_nil_iff.mpr inside

variable [DecidableEq α]

/-- A text without the delimiter is accepted by the test that refuses only the delimiter. -/
theorem accepts_of_notMem {run : List α} {stop : α} (free : stop ∉ run) :
    ∀ c ∈ run, (c != stop) = true := by
  intro c member
  have different : c ≠ stop := fun same => free (same ▸ member)
  simp [different]

/-- The text before the first delimiter. -/
theorem takeWhile_ne_stop {run rest : List α} {stop : α} (free : stop ∉ run) :
    (run ++ stop :: rest).takeWhile (· != stop) = run :=
  takeWhile_stop (accepts_of_notMem free) (by simp)

/-- The text from the first delimiter on. -/
theorem dropWhile_ne_stop {run rest : List α} {stop : α} (free : stop ∉ run) :
    (run ++ stop :: rest).dropWhile (· != stop) = stop :: rest :=
  dropWhile_stop _ _ (accepts_of_notMem free) (by simp)

/-- A text without a terminator is read whole. -/
theorem cString_terminated {text : Bytes} (terminated : 0 ∉ text) : cString text = text :=
  List.takeWhile_eq_self_iff.mpr (accepts_of_notMem terminated)

/-- A C string has no terminator in it. -/
theorem zero_notMem_cString (bytes : Bytes) : 0 ∉ cString bytes := fun member => by
  have accepted := List.mem_takeWhile_imp member
  cases accepted

/-! ## Joined texts -/

omit [DecidableEq α] in
/-- A joined text behind its first item. -/
theorem intercalate_items (separator : α) (head : List α) (items : List (List α)) :
    [separator].intercalate (head :: items) = head ++ items.flatMap (separator :: ·) := by
  induction items generalizing head with
  | nil => simp
  | cons next items ih => simp [List.intercalate_cons_cons, ih]

omit [DecidableEq α] in
/-- A character that neither the separator nor any item has is not in the joined text. -/
theorem intercalate_free {c separator : α} {items : List (List α)} (other : c ≠ separator)
    (free : ∀ item ∈ items, c ∉ item) : c ∉ [separator].intercalate items := by
  cases items with
  | nil => simp
  | cons head items =>
    rw [intercalate_items]
    simp only [List.mem_append, List.mem_flatMap, List.mem_cons, not_or, not_exists, not_and]
    exact ⟨free head (by simp), fun item member => ⟨other, free item (by simp [member])⟩⟩

/-- `longer` with `shorter'` behind it is `shorter` with `longer'` behind it: a piece has moved over
the separator. -/
def Moved (separator : α) (shorter longer longer' shorter' : List α) : Prop :=
  ∃ piece, longer = shorter ++ separator :: piece ∧ longer' = piece ++ separator :: shorter'

omit [DecidableEq α] in
/-- Two joined texts agree where their parts do, or where a piece has moved over the separator. -/
theorem joined_eq_iff (separator : α) (front back front' back' : List α) :
    front ++ separator :: back = front' ++ separator :: back' ↔
      (front = front' ∧ back = back') ∨ Moved separator front front' back back' ∨
        Moved separator front' front back' back := by
  constructor
  · intro same
    obtain ⟨extra, longer, rest⟩ | ⟨extra, longer, rest⟩ := List.append_eq_append_iff.mp same
    · cases extra with
      | nil => exact .inl ⟨by simpa using longer.symm, by simpa using rest⟩
      | cons head piece =>
        simp only [List.cons_append, List.cons.injEq] at rest
        obtain ⟨rfl, rest⟩ := rest
        exact .inr (.inl ⟨piece, longer, rest⟩)
    · cases extra with
      | nil => exact .inl ⟨by simpa using longer, by simpa using rest.symm⟩
      | cons head piece =>
        simp only [List.cons_append, List.cons.injEq] at rest
        obtain ⟨rfl, rest⟩ := rest
        exact .inr (.inr ⟨piece, longer, rest⟩)
  · rintro (⟨rfl, rfl⟩ | ⟨piece, rfl, rfl⟩ | ⟨piece, rfl, rfl⟩) <;> simp

omit [DecidableEq α] in
/-- Where no front holds the separator, joined texts agree where their parts do. -/
theorem joined_free_iff {separator : α} {front front' : List α} (free : separator ∉ front)
    (free' : separator ∉ front') (back back' : List α) :
    front ++ separator :: back = front' ++ separator :: back' ↔
      front = front' ∧ back = back' := by
  rw [joined_eq_iff]
  constructor
  · rintro (same | ⟨piece, rfl, -⟩ | ⟨piece, rfl, -⟩)
    · exact same
    · simp at free'
    · simp at free
  · exact .inl

omit [DecidableEq α] in
/-- Two texts cut to one size agree where they are the same, or where neither of them fits and they
start alike. -/
theorem take_eq_take_iff (size : Nat) (left right : List α) :
    left.take size = right.take size ↔
      left = right ∨
        (size ≤ left.length ∧ size ≤ right.length ∧ left.take size = right.take size) := by
  constructor
  · intro same
    have lengths := congrArg List.length same
    rw [List.length_take, List.length_take] at lengths
    by_cases short : left.length < size
    · left
      rwa [List.take_of_length_le (by omega), List.take_of_length_le (by omega)] at same
    · exact .inr ⟨by omega, by omega, same⟩
  · rintro (rfl | ⟨-, -, same⟩)
    · rfl
    · exact same

/-! ## Searches -/

/-- The suffix that starts at the first occurrence of one character. -/
def strchr (stop : α) (text : List α) : Option (List α) :=
  match text.dropWhile (· != stop) with
  | [] => none
  | found :: rest => some (found :: rest)

/-- The first delimiter is found behind a text without it. -/
theorem strchr_stop (run : List α) {rest : List α} {stop : α} (free : stop ∉ run) :
    strchr stop (run ++ stop :: rest) = some (stop :: rest) := by
  simp [strchr, dropWhile_ne_stop free]

/-- A text without the delimiter has no position of it. -/
theorem strchr_none {text : List α} {stop : α} (free : stop ∉ text) :
    strchr stop text = none := by
  simp only [strchr, dropWhile_all (accepts_of_notMem free)]

/-- What is found in a text stands behind a front without it. -/
theorem strchr_split {stop : α} {text found : List α} (search : strchr stop text = some found) :
    ∃ behind, found = stop :: behind ∧ text = text.takeWhile (· != stop) ++ stop :: behind ∧
      stop ∉ text.takeWhile (· != stop) := by
  have parts := List.takeWhile_append_dropWhile (p := (· != stop)) (l := text)
  rw [strchr] at search
  cases rest : text.dropWhile (· != stop) with
  | nil =>
    rw [rest] at search
    cases search
  | cons c behind =>
    rw [rest] at search parts
    cases search
    have refused := List.head?_dropWhile_not (· != stop) text
    rw [rest, List.head?_cons] at refused
    have same : c = stop := by simpa using refused
    subst same
    refine ⟨behind, rfl, parts.symm, fun member => ?_⟩
    simpa using List.mem_takeWhile_imp member

/-- The suffix that starts at the first occurrence of a pattern. -/
def strstr (pattern : List α) : List α → Option (List α)
  | [] => if pattern = [] then some [] else none
  | c :: rest =>
    if pattern.isPrefixOf (c :: rest) then some (c :: rest) else strstr pattern rest

/-- A pattern in front of the text is found at once. -/
theorem strstr_prefix (pattern rest : List α) :
    strstr pattern (pattern ++ rest) = some (pattern ++ rest) := by
  cases whole : pattern ++ rest with
  | nil =>
    have empty : pattern = [] := (List.append_eq_nil_iff.mp whole).1
    simp [strstr, empty]
  | cons c tail =>
    have front : pattern.isPrefixOf (c :: tail) = true := by
      rw [← whole, List.isPrefixOf_iff_prefix]
      exact List.prefix_append _ _
    simp [strstr, front]

/-- Where the pattern does not start, the search moves on by one character. -/
theorem strstr_skip {pattern rest : List α} {c : α}
    (other : ¬ pattern <+: c :: rest) : strstr pattern (c :: rest) = strstr pattern rest := by
  have miss : pattern.isPrefixOf (c :: rest) = false := by
    rw [Bool.eq_false_iff]
    exact fun front => other (List.isPrefixOf_iff_prefix.mp front)
  simp [strstr, miss]

/-- A search fails exactly when the pattern occurs nowhere. -/
theorem strstr_none_iff {pattern text : List α} :
    strstr pattern text = none ↔ ¬ pattern <:+: text := by
  induction text with
  | nil => simp [strstr, List.infix_nil]
  | cons c rest ih =>
    by_cases front : pattern <+: c :: rest
    · obtain ⟨tail, whole⟩ := front
      rw [← whole, strstr_prefix]
      simp only [reduceCtorEq, false_iff, not_not]
      exact (List.prefix_append _ _).isInfix
    · rw [strstr_skip front, ih, List.infix_cons_iff]
      simp [front]

/-- A successful search returns a suffix that starts with the pattern. -/
theorem strstr_some {pattern text found : List α} (search : strstr pattern text = some found) :
    found <:+ text ∧ pattern <+: found := by
  induction text with
  | nil =>
    simp only [strstr] at search
    split at search
    · cases search
      simp_all
    · cases search
  | cons c rest ih =>
    by_cases front : pattern <+: c :: rest
    · simp only [strstr, List.isPrefixOf_iff_prefix.mpr front, ↓reduceIte,
        Option.some.injEq] at search
      subst search
      exact ⟨List.suffix_rfl, front⟩
    · rw [strstr_skip front] at search
      obtain ⟨suffix, found⟩ := ih search
      exact ⟨suffix.trans (List.suffix_cons _ _), found⟩

/-- A search finds the first occurrence, so it keeps at least what lies behind any other one. -/
theorem strstr_early (pattern front rest : List α) :
    ∃ found, strstr pattern (front ++ (pattern ++ rest)) = some found ∧
      (pattern ++ rest).length ≤ found.length := by
  induction front with
  | nil => exact ⟨pattern ++ rest, strstr_prefix pattern rest, Nat.le_refl _⟩
  | cons c front ih =>
    by_cases here : pattern <+: c :: (front ++ (pattern ++ rest))
    · obtain ⟨tail, whole⟩ := here
      refine ⟨pattern ++ tail, ?_, ?_⟩
      · rw [List.cons_append, ← whole, strstr_prefix]
      · have longer : (pattern ++ rest).length ≤ (front ++ (pattern ++ rest)).length :=
          (List.suffix_append front (pattern ++ rest)).length_le
        rw [whole, List.length_cons]
        omega
    · obtain ⟨found, search, length⟩ := ih
      exact ⟨found, by rw [List.cons_append, strstr_skip here, search], length⟩

/-- What a search finds stands in front of every other occurrence. -/
theorem strstr_split {pattern text found : List α} (search : strstr pattern text = some found) :
    ∃ front more, text = front ++ (pattern ++ more) ∧ found = pattern ++ more ∧
      ∀ front' more', text = front' ++ (pattern ++ more') → front.length ≤ front'.length := by
  obtain ⟨⟨front, whole⟩, more, shape⟩ := strstr_some search
  refine ⟨front, more, by rw [shape, whole], shape.symm, ?_⟩
  intro front' more' other
  obtain ⟨first, search', length⟩ := strstr_early pattern front' more'
  rw [← other, search] at search'
  obtain rfl := Option.some.inj search'
  have sizes : (front ++ found).length = (front' ++ (pattern ++ more')).length := by
    rw [whole, ← other]
  rw [List.length_append, List.length_append] at sizes
  omega

omit [DecidableEq α] in
/-- A pattern that ends in a character the text does not have occurs nowhere in it. -/
theorem not_infix_of_last {body text : List α} {last : α} (free : last ∉ text) :
    ¬ (body ++ [last]) <:+: text := by
  intro occurs
  exact free (occurs.subset (by simp))

/-- A pattern whose first character is new is first found where that character first stands. -/
theorem strstr_first {front body rest : List α} {first : α} (free : first ∉ front) :
    strstr (first :: body) (front ++ (first :: body) ++ rest) = some (first :: body ++ rest) := by
  induction front with
  | nil => exact strstr_prefix (first :: body) rest
  | cons c front ih =>
    simp only [List.mem_cons, not_or] at free
    have later : ¬ first :: body <+: c :: (front ++ (first :: body) ++ rest) := by
      rw [List.cons_prefix_cons]
      exact fun front => free.1 front.1
    rw [List.cons_append, List.cons_append, strstr_skip later]
    exact ih free.2

/-- A pattern whose last character is new is first found where that character first stands. -/
theorem strstr_marker (front body rest : List α) (last : α) (frontFree : last ∉ front)
    (bodyFree : last ∉ body) :
    strstr (body ++ [last]) (front ++ (body ++ [last]) ++ rest) =
      some (body ++ [last] ++ rest) := by
  induction front with
  | nil => simpa using strstr_prefix (body ++ [last]) rest
  | cons c front ih =>
    have later : ¬ (body ++ [last]) <+: c :: (front ++ (body ++ [last]) ++ rest) := by
      rintro ⟨tail, whole⟩
      -- The pattern's last character would stand inside `c :: front ++ body`.
      have shape : c :: (front ++ (body ++ [last]) ++ rest) =
          (c :: front ++ body) ++ (last :: rest) := by simp
      have early : last ∈ (c :: front) ++ body := by
        have short : body ++ [last] <+: (c :: front ++ body) := by
          have reaches : body ++ [last] <+: (c :: front ++ body) ++ (last :: rest) :=
            ⟨tail, by rw [whole, shape]⟩
          exact List.prefix_of_prefix_length_le reaches (List.prefix_append _ _) (by simp)
        exact short.subset (by simp)
      rcases List.mem_append.mp early with inFront | inBody
      · exact frontFree inFront
      · exact bodyFree inBody
    rw [List.cons_append, List.cons_append, strstr_skip later]
    exact ih (fun member => frontFree (List.mem_cons_of_mem _ member))

/-- A search passes a text that does not hold the pattern and ends in a character foreign to it. -/
theorem strstr_clear {pattern front rest : List α} {c : α} (nonempty : pattern ≠ [])
    (absent : ¬ pattern <:+: front) (foreign : c ∉ pattern) :
    strstr pattern (front ++ c :: rest) = strstr pattern rest := by
  induction front with
  | nil =>
    refine strstr_skip fun ⟨tail, whole⟩ => ?_
    obtain ⟨first, body, rfl⟩ := List.exists_cons_of_ne_nil nonempty
    exact foreign (by simp [(List.cons.inj whole).1])
  | cons d front ih =>
    have later : ¬ pattern <+: d :: (front ++ c :: rest) := by
      intro starts
      rcases Nat.lt_or_ge (d :: front).length pattern.length with longer | shorter
      · -- The pattern would reach over the foreign character.
        have front' : (d :: front) ++ [c] <+: d :: (front ++ c :: rest) := ⟨rest, by simp⟩
        have beyond : (d :: front) ++ [c] <+: pattern :=
          List.prefix_of_prefix_length_le front' starts (by simpa [Nat.succ_le_iff] using longer)
        exact foreign (beyond.subset (by simp))
      · exact absent (List.prefix_of_prefix_length_le starts
          (List.prefix_append (d :: front) (c :: rest)) shorter).isInfix
    rw [List.cons_append, strstr_skip later]
    exact ih fun occurs => absent (List.infix_cons occurs)

/-- A pattern stands in neither of two texts, nor across a character that is foreign to it. -/
theorem not_infix_across {pattern front rest : List α} {c : α} (nonempty : pattern ≠ [])
    (absent : ¬ pattern <:+: front) (foreign : c ∉ pattern) (later : ¬ pattern <:+: rest) :
    ¬ pattern <:+: front ++ c :: rest := by
  rw [← strstr_none_iff, strstr_clear nonempty absent foreign]
  exact strstr_none_iff.mpr later

/-- A pair of different characters is first found behind a text that does not hold it. -/
theorem strstr_pair {first last : α} (other : first ≠ last) {front : List α} (rest : List α)
    (absent : ¬ [first, last] <:+: front) :
    strstr [first, last] (front ++ ([first, last] ++ rest)) = some ([first, last] ++ rest) := by
  induction front with
  | nil => exact strstr_prefix [first, last] rest
  | cons c front ih =>
    have later : ¬ [first, last] <+: c :: (front ++ ([first, last] ++ rest)) := by
      intro starts
      obtain ⟨rfl, behind⟩ := List.cons_prefix_cons.mp starts
      cases front with
      | nil => exact other (List.cons_prefix_cons.mp behind).1.symm
      | cons d front =>
        obtain ⟨rfl, -⟩ := List.cons_prefix_cons.mp behind
        exact absent ⟨[], front, rfl⟩
    rw [List.cons_append, strstr_skip later]
    exact ih fun occurs => absent (List.infix_cons occurs)

omit [DecidableEq α] in
/-- What starts with a character that the front of a text does not have stands behind the front. -/
theorem infix_behind {first : α} {body front rest : List α} (free : first ∉ front)
    (occurs : first :: body <:+: front ++ rest) : first :: body <:+: rest := by
  induction front with
  | nil => exact occurs
  | cons c front ih =>
    simp only [List.mem_cons, not_or] at free
    rw [List.cons_append, List.infix_cons_iff] at occurs
    rcases occurs with starts | occurs
    · exact absurd (List.cons_prefix_cons.mp starts).1 free.1
    · exact ih free.2 occurs

omit [DecidableEq α] in
/-- What ends in a character that the back of a text does not have stands in front of the back. -/
theorem infix_before {last : α} {body front rest : List α} (free : last ∉ rest)
    (occurs : body ++ [last] <:+: front ++ rest) : body ++ [last] <:+: front := by
  rw [← List.reverse_infix, List.reverse_append] at occurs
  rw [← List.reverse_infix]
  rw [List.reverse_append] at occurs ⊢
  exact infix_behind (by simpa using free) occurs

/-- A search in a cut text finds the same place, cut, or nothing. -/
theorem strstr_take {pattern text more : List α} (nonempty : pattern ≠ []) (size : Nat)
    (search : strstr pattern text = some (pattern ++ more)) :
    strstr pattern (text.take size) = none ∨
      strstr pattern (text.take size) =
        some (pattern ++ more.take (size - (text.length - more.length))) := by
  induction text generalizing size with
  | nil => simp [strstr, nonempty] at search
  | cons c text ih =>
    by_cases front : pattern <+: c :: text
    · have whole : c :: text = pattern ++ more := by
        rw [strstr, if_pos (List.isPrefixOf_iff_prefix.mpr front)] at search
        exact Option.some.inj search
      rw [whole, List.length_append, Nat.add_sub_cancel, List.take_append]
      rcases Nat.lt_or_ge size pattern.length with short | long
      · left
        rw [strstr_none_iff]
        intro occurs
        have := occurs.length_le
        simp only [List.length_append, List.length_take] at this
        omega
      · right
        rw [List.take_of_length_le long, strstr_prefix]
    · rw [strstr_skip front] at search
      have suffix := (strstr_some search).1.length_le
      cases size with
      | zero =>
        left
        simp [strstr, nonempty]
      | succ size =>
        have later : ¬ pattern <+: c :: text.take size := fun starts =>
          front (starts.trans (by simpa using List.take_prefix (size + 1) (c :: text)))
        rw [List.take_succ_cons, strstr_skip later]
        rw [List.length_append] at suffix
        rw [List.length_cons, show size + 1 - (text.length + 1 - more.length) =
          size - (text.length - more.length) by omega]
        exact ih size search

/-! ## Patterns inside joined texts -/

omit [DecidableEq α] in
/-- A text that is closed by a character of its own pattern on each side does not stand between two
patterns, where the pattern does not occur before or behind. -/
theorem not_framed {pattern front data back : List α} {c : α}
    (before : ¬ pattern <:+: front ++ [c]) (behind : ¬ pattern <:+: back) :
    ¬ pattern ++ data ++ pattern <:+: front ++ [c] ++ data ++ [c] ++ back := by
  rintro ⟨left, right, whole⟩
  have sizes := congrArg List.length whole
  simp only [List.length_append, List.length_singleton] at sizes
  by_cases early : left.length + pattern.length ≤ front.length + 1
  · have first : left ++ pattern <+: front ++ [c] ++ data ++ [c] ++ back :=
      ⟨data ++ pattern ++ right, by rw [← whole]; simp⟩
    have second : front ++ [c] <+: front ++ [c] ++ data ++ [c] ++ back :=
      ⟨data ++ [c] ++ back, by simp⟩
    have inside := List.prefix_of_prefix_length_le first second (by simpa using early)
    exact before ((List.suffix_append left pattern).isInfix.trans inside.isInfix)
  · have first : pattern ++ right <:+ front ++ [c] ++ data ++ [c] ++ back :=
      ⟨left ++ pattern ++ data, by rw [← whole]; simp⟩
    have inside := List.suffix_of_suffix_length_le first (List.suffix_append _ back)
      (by rw [List.length_append]; omega)
    exact behind ((List.prefix_append pattern right).isInfix.trans inside.isInfix)

omit [DecidableEq α] in
/-- A pattern stands on one side of a character that it does not have. -/
theorem infix_cut {pattern : List α} (front : List α) {back : List α} {c : α} (free : c ∉ pattern)
    (occurs : pattern <:+: front ++ c :: back) : pattern <:+: front ∨ pattern <:+: back := by
  obtain ⟨left, right, whole⟩ := occurs
  have sizes := congrArg List.length whole
  simp only [List.length_append, List.length_cons] at sizes
  by_cases early : left.length + pattern.length ≤ front.length
  · have first : left ++ pattern <+: front ++ c :: back := ⟨right, whole⟩
    have inside := List.prefix_of_prefix_length_le first (List.prefix_append front _)
      (by simpa using early)
    exact .inl ((List.suffix_append left pattern).isInfix.trans inside.isInfix)
  by_cases late : front.length < left.length
  · have first : pattern ++ right <:+ front ++ c :: back := ⟨left, by rw [← whole]; simp⟩
    have second : back <:+ front ++ c :: back :=
      (List.suffix_cons c back).trans (List.suffix_append front _)
    have inside := List.suffix_of_suffix_length_le first second
      (by rw [List.length_append]; omega)
    exact .inr ((List.prefix_append pattern right).isInfix.trans inside.isInfix)
  · have here : (front ++ c :: back)[front.length]? = some c := by simp
    rw [← whole, List.append_assoc, List.getElem?_append_right (by omega),
      List.getElem?_append_left (by omega)] at here
    exact (free (List.mem_of_getElem? here)).elim

/-! ## Searches past delimited fields -/

/-- A run without the pattern's first character is passed. -/
theorem strstr_run {first : α} (body : List α) (run : List α) (rest : List α) (free : first ∉ run) :
    strstr (first :: body) (run ++ rest) = strstr (first :: body) rest := by
  induction run with
  | nil => rfl
  | cons c run ih =>
    simp only [List.mem_cons, not_or] at free
    have later : ¬ first :: body <+: c :: (run ++ rest) := fun starts =>
      free.1 (List.cons_prefix_cons.mp starts).1
    rw [List.cons_append, strstr_skip later]
    exact ih free.2

/-- A delimited field is passed up to its closing delimiter, unless it is the pattern's field with
the pattern's tail behind it. -/
theorem strstr_field {stop : α} {key tail field rest : List α} (keyFree : stop ∉ key)
    (fieldFree : stop ∉ field) (other : ¬ (field = key ∧ tail <+: rest)) :
    strstr (stop :: (key ++ stop :: tail)) (stop :: (field ++ stop :: rest)) =
      strstr (stop :: (key ++ stop :: tail)) (stop :: rest) := by
  have later : ¬ stop :: (key ++ stop :: tail) <+: stop :: (field ++ stop :: rest) := by
    rw [List.cons_prefix_cons]
    rintro ⟨-, more, whole⟩
    rw [List.append_assoc, List.cons_append] at whole
    have same := congrArg (List.takeWhile (· != stop)) whole
    rw [takeWhile_ne_stop keyFree, takeWhile_ne_stop fieldFree] at same
    refine other ⟨same.symm, more, ?_⟩
    rw [same] at whole
    exact (List.cons.inj (List.append_cancel_left whole)).2
  rw [strstr_skip later, strstr_run _ _ _ fieldFree]

/-- A closing delimiter is passed when a character follows that does not start the pattern's
field. -/
theorem strstr_closing {stop c first : α} {key rest : List α} (other : c ≠ first) :
    strstr (stop :: first :: key) (stop :: c :: rest) =
      strstr (stop :: first :: key) (c :: rest) := by
  refine strstr_skip fun starts => ?_
  rw [List.cons_prefix_cons, List.cons_prefix_cons] at starts
  exact other starts.2.1.symm

end Library.Text
