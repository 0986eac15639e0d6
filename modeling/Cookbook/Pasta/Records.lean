import Cookbook.Pasta.Parser

/-!
# Records of strings

Where the strings of a document stand in its text, and what a line of plain strings is read as: a string
that holds a quote stands between three of them on each side, one without a quote or a line end is read
back as it was printed.
-/
namespace Cookbook.Pasta

open Library.Text

/-! ## What a reading leaves -/

/-- A reading that leaves an end of its text. -/
def Ends {α : Type} (text : Bytes) : Except Failure (α × Bytes) → Prop
  | .ok (_, rest) => rest <:+ text
  | .error _ => True

@[simp] theorem ends_ok {α : Type} (text : Bytes) (value : α) (rest : Bytes) :
    Ends text (.ok (value, rest) : Except Failure (α × Bytes)) ↔ rest <:+ text := Iff.rfl

@[simp] theorem ends_fail {α : Type} (text : Bytes) (message : String) :
    Ends text (fail message : Except Failure (α × Bytes)) := trivial

/-- Two readings one after the other. -/
theorem Ends.bind {α β : Type} {text whole : Bytes} {parsed : Except Failure (α × Bytes)}
    {next : α × Bytes → Except Failure (β × Bytes)} (first : Ends text parsed)
    (second : ∀ value rest, rest <:+ text → Ends whole (next (value, rest))) :
    Ends whole (parsed >>= next) := by
  cases parsed with
  | ok found => exact second found.1 found.2 first
  | error failure => trivial

/-- An end of an end is one. -/
theorem Ends.mono {α : Type} {text whole : Bytes} {parsed : Except Failure (α × Bytes)}
    (ends : Ends text parsed) (within : text <:+ whole) : Ends whole parsed := by
  cases parsed with
  | ok found => exact List.IsSuffix.trans ends within
  | error failure => trivial

theorem skipBlanksFrom_suffix (comment : Bool) (text : Bytes) :
    skipBlanksFrom comment text <:+ text := by
  induction text generalizing comment with
  | nil => exact List.suffix_refl _
  | cons c rest ih =>
    cases comment with
    | true => exact (ih _).trans (List.suffix_cons c rest)
    | false =>
      rw [skipBlanksFrom]
      split
      · exact (ih _).trans (List.suffix_cons c rest)
      · split
        · exact (ih _).trans (List.suffix_cons c rest)
        · exact List.suffix_refl _

theorem skipBlanks_suffix (text : Bytes) : skipBlanks text <:+ text :=
  skipBlanksFrom_suffix false text

/-- A simple string is free of quotes and line ends, and a quote closes it. -/
theorem readSimple_ok {text data rest : Bytes} (read : readSimple text = .ok (data, rest)) :
    text = data ++ quote :: rest ∧ quote ∉ data ∧ newline ∉ data := by
  induction text generalizing data with
  | nil => cases read
  | cons c text ih =>
    rw [readSimple] at read
    split at read
    · next closes =>
      obtain ⟨rfl, rfl⟩ := Prod.mk.inj (Except.ok.inj read)
      simp [closes]
    · next other =>
      split at read
      · cases read
      · next inside =>
        cases later : readSimple text with
        | error failure =>
          rw [later] at read
          cases read
        | ok found =>
          rw [later] at read
          obtain ⟨rfl, rfl⟩ := Prod.mk.inj (Except.ok.inj read)
          obtain ⟨shape, quoteFree, lineFree⟩ := ih later
          refine ⟨by rw [shape]; rfl, ?_, ?_⟩
          · simp [Ne.symm other, quoteFree]
          · simp [Ne.symm inside, lineFree]

/-- Three quotes close a string behind three quotes. -/
theorem readTriple_ok {text data rest : Bytes} (read : readTriple text = .ok (data, rest)) :
    text = data ++ [quote, quote, quote] ++ rest := by
  induction text generalizing data with
  | nil => cases read
  | cons c text ih =>
    rw [readTriple] at read
    split at read
    · next closes =>
      obtain ⟨rfl, rfl⟩ := Prod.mk.inj (Except.ok.inj read)
      obtain ⟨later, shape⟩ := closes
      obtain ⟨rfl, rfl⟩ := List.cons.inj shape
      rfl
    · cases later : readTriple text with
      | error failure =>
        rw [later] at read
        cases read
      | ok found =>
        rw [later] at read
        obtain ⟨rfl, rfl⟩ := Prod.mk.inj (Except.ok.inj read)
        rw [ih later]
        rfl

/-- A string in a text, behind its first quote. -/
theorem readString_ok {text data rest : Bytes} (read : readString text = .ok (data, rest)) :
    (text = data ++ quote :: rest ∧ quote ∉ data ∧ newline ∉ data) ∨
      text = [quote, quote] ++ data ++ [quote, quote, quote] ++ rest := by
  unfold readString at read
  split at read
  · next three =>
    obtain ⟨later, rfl⟩ := three
    rw [List.cons_append, List.cons_append, List.nil_append, List.drop_succ_cons,
      List.drop_succ_cons, List.drop_zero] at read
    rw [readTriple_ok read]
    simp
  · exact .inl (readSimple_ok read)

theorem readString_ends (text : Bytes) : Ends text (readString text) := by
  cases read : readString text with
  | error failure => trivial
  | ok found =>
    rcases readString_ok read with ⟨shape, -⟩ | shape
    · exact ⟨found.1 ++ [quote], by simp [shape]⟩
    · exact ⟨[quote, quote] ++ found.1 ++ [quote, quote, quote], shape.symm⟩

theorem readUnquotedLabel_ends (text : Bytes) : Ends text (readUnquotedLabel text) := by
  unfold readUnquotedLabel
  split
  · exact ends_fail _ _
  · exact List.dropWhile_suffix _

theorem readKey_ends (text : Bytes) : Ends text (readKey text) := by
  unfold readKey
  split
  · split
    · exact (readString_ends _).mono (List.suffix_cons _ _)
    · split
      · exact readUnquotedLabel_ends _
      · exact ends_fail _ _
  · exact ends_fail _ _

/-- A reading behind a text that is left. -/
theorem ends_bind {α : Type} {text whole : Bytes} {skipped : Except Failure Bytes}
    {next : Bytes → Except Failure (α × Bytes)} (first : ∀ rest, skipped = .ok rest → rest <:+ text)
    (second : ∀ rest, rest <:+ text → Ends whole (next rest)) : Ends whole (skipped >>= next) := by
  cases skipped with
  | ok rest => exact second rest (first rest rfl)
  | error failure => trivial

theorem readColon_suffix {text rest : Bytes} (read : readColon text = .ok rest) : rest <:+ text := by
  unfold readColon at read
  split at read
  · next c later shape =>
    split at read
    · rw [← Except.ok.inj read]
      exact (List.suffix_cons c later).trans (shape ▸ skipBlanks_suffix text)
    · cases read
  · cases read

theorem behindExponent_suffix (text : Bytes) : behindExponent text <:+ text := by
  cases text with
  | nil => exact List.suffix_refl _
  | cons c rest =>
    rw [behindExponent]
    split
    · have sign : behindSign rest <:+ rest := by
        cases rest with
        | nil => exact List.suffix_refl _
        | cons s digits =>
          rw [behindSign]
          split
          · exact List.suffix_cons s digits
          · exact List.suffix_refl _
      exact ((List.dropWhile_suffix _).trans sign).trans (List.suffix_cons c rest)
    · exact List.suffix_refl _

theorem behindFraction_suffix (text : Bytes) : behindFraction text <:+ text := by
  cases text with
  | nil => exact List.suffix_refl _
  | cons c rest =>
    rw [behindFraction]
    split
    · exact (List.dropWhile_suffix _).trans (List.suffix_cons c rest)
    · exact List.suffix_refl _

theorem behindNumber_suffix {text rest : Bytes} (read : behindNumber text = .ok rest) :
    rest <:+ text := by
  have digits (text : Bytes) :
      behindExponent (behindFraction (text.dropWhile isDecimal)) <:+ text :=
    ((behindExponent_suffix _).trans (behindFraction_suffix _)).trans (List.dropWhile_suffix _)
  unfold behindNumber at read
  split at read
  · next x later =>
    have two (accept : UInt8 → Bool) : later.dropWhile accept <:+ 0x30 :: x :: later :=
      ((List.dropWhile_suffix _).trans (List.suffix_cons x later)).trans (List.suffix_cons _ _)
    split at read
    · split at read
      · cases read
      · rw [← Except.ok.inj read]
        exact two _
    · split at read
      · split at read
        · cases read
        · rw [← Except.ok.inj read]
          exact two _
      · rw [← Except.ok.inj read]
        exact (digits _).trans (List.suffix_cons _ _)
  · split at read
    · rw [← Except.ok.inj read]
      exact (digits _).trans (List.suffix_cons _ _)
    · cases read
  · cases read

theorem readNumber_ends (text : Bytes) : Ends text (readNumber text) := by
  unfold readNumber
  cases read : behindNumber (if text.head? = some minus then text.drop 1 else text) with
  | error failure => trivial
  | ok rest =>
    have suffix := behindNumber_suffix read
    split at suffix
    · exact suffix.trans (List.drop_suffix 1 text)
    · exact suffix

theorem readBlob_ends (text : Bytes) : Ends text (readBlob text) := by
  unfold readBlob
  split
  · exact ends_fail _ _
  · simp only
    split
    · exact ends_fail _ _
    · exact (List.drop_suffix _ _).trans (List.drop_suffix 8 text)

theorem parseAtomUnquoted_ends (text : Bytes) : Ends text (parseAtomUnquoted text) := by
  unfold parseAtomUnquoted
  split_ifs
  all_goals try exact List.drop_suffix _ text
  exact (readUnquotedLabel_ends text).bind fun label rest suffix => suffix

/-- Every descent leaves an end of its text. -/
theorem parse_ends (fuel : Nat) :
    (∀ text, Ends text (parseValue fuel text)) ∧
    (∀ text, Ends text (parseContainer fuel text)) ∧
    (∀ entries text, Ends text (parseEntries fuel entries text)) ∧
    (∀ items text, Ends text (parseItems fuel items text)) := by
  induction fuel with
  | zero => exact ⟨fun _ => trivial, fun _ => trivial, fun _ _ => trivial, fun _ _ => trivial⟩
  | succ fuel ih =>
    obtain ⟨value, container, entriesLoop, itemsLoop⟩ := ih
    refine ⟨fun text => ?_, fun text => ?_, fun entries text => ?_, fun items text => ?_⟩
    · rw [parseValue]
      split
      · exact ends_fail _ _
      · next c rest shape =>
        have whole : c :: rest <:+ text := shape ▸ skipBlanks_suffix text
        have behind := (List.suffix_cons c rest).trans whole
        split_ifs
        · exact (container _).mono whole
        · exact (readString_ends rest).bind fun data later suffix => suffix.trans behind
        · exact (readBlob_ends rest).mono behind
        · exact (List.drop_suffix 3 rest).trans behind
        · exact (readNumber_ends _).mono whole
        · exact (parseAtomUnquoted_ends _).mono whole
        · exact ends_fail _ _
    · rw [parseContainer]
      split
      · exact ends_fail _ _
      · next c rest shape =>
        have behind := (List.suffix_cons c rest).trans (shape ▸ skipBlanks_suffix text)
        have blanks := (skipBlanks_suffix rest).trans behind
        split_ifs
        · exact (List.drop_suffix 1 _).trans blanks
        · exact (entriesLoop [] rest).mono behind
        · exact (List.drop_suffix 1 _).trans blanks
        · exact (itemsLoop [] rest).mono behind
        · exact ends_fail _ _
    · rw [parseEntries]
      apply ((readKey_ends _).mono (skipBlanks_suffix text)).bind
      intro key behindKey keySuffix
      apply ends_bind fun rest read => (readColon_suffix read).trans keySuffix
      intro behindColon colonSuffix
      apply ((value behindColon).mono colonSuffix).bind
      intro found behindValue valueSuffix
      have blanks := (skipBlanks_suffix behindValue).trans valueSuffix
      simp only
      split
      · next c rest shape =>
        have behind := (List.suffix_cons c rest).trans (shape ▸ blanks)
        split_ifs
        · exact (entriesLoop _ rest).mono behind
        · exact behind
        · exact ends_fail _ _
      · exact ends_fail _ _
    · rw [parseItems]
      apply (value text).bind
      intro found behindValue valueSuffix
      have blanks := (skipBlanks_suffix behindValue).trans valueSuffix
      simp only
      split
      · next c rest shape =>
        have behind := (List.suffix_cons c rest).trans (shape ▸ blanks)
        split_ifs
        · exact (itemsLoop _ rest).mono behind
        · exact behind
        · exact ends_fail _ _
      · exact ends_fail _ _

/-! ## Strings with a quote -/

/-- A string that holds a quote stands between three quotes on each side. -/
def Stands (whole data : Bytes) : Prop :=
  quote ∈ data → [quote, quote, quote] ++ data ++ [quote, quote, quote] <:+: whole

theorem Stands.mono {text whole data : Bytes} (stands : Stands text data) (within : text <:+ whole) :
    Stands whole data := fun held => (stands held).trans within.isInfix

/-- Two readings one after the other that come to a value. -/
theorem bind_eq_ok {α β : Type} {parsed : Except Failure α} {next : α → Except Failure β} {result : β}
    (read : parsed >>= next = .ok result) : ∃ found, parsed = .ok found ∧ next found = .ok result := by
  cases parsed with
  | ok found => exact ⟨found, rfl, read⟩
  | error failure => cases read

theorem readNumber_string {text rest data : Bytes} :
    readNumber text ≠ .ok (.string data, rest) := by
  intro read
  obtain ⟨behind, -, value⟩ := bind_eq_ok read
  cases value

theorem readBlob_string {text rest data : Bytes} : readBlob text ≠ .ok (.string data, rest) := by
  intro read
  simp only [readBlob] at read
  split_ifs at read <;> cases read

theorem parseAtomUnquoted_string {text rest data : Bytes} :
    parseAtomUnquoted text ≠ .ok (.string data, rest) := by
  intro read
  unfold parseAtomUnquoted at read
  split_ifs at read
  all_goals try cases read
  obtain ⟨label, -, value⟩ := bind_eq_ok read
  cases value

/-- A container is no string. -/
theorem parse_container (fuel : Nat) :
    (∀ text data rest, parseContainer fuel text ≠ .ok (.string data, rest)) ∧
    (∀ entries text data rest, parseEntries fuel entries text ≠ .ok (.string data, rest)) ∧
    (∀ items text data rest, parseItems fuel items text ≠ .ok (.string data, rest)) := by
  induction fuel with
  | zero =>
    refine ⟨fun _ _ _ read => ?_, fun _ _ _ _ read => ?_, fun _ _ _ _ read => ?_⟩ <;> cases read
  | succ fuel ih =>
    obtain ⟨-, entriesLoop, itemsLoop⟩ := ih
    refine ⟨fun text data rest read => ?_, fun entries text data rest read => ?_,
      fun items text data rest read => ?_⟩
    · rw [parseContainer] at read
      split at read
      · cases read
      · split_ifs at read
        · cases read
        · exact entriesLoop _ _ _ _ read
        · cases read
        · exact itemsLoop _ _ _ _ read
        · cases read
    · rw [parseEntries] at read
      obtain ⟨key, -, read⟩ := bind_eq_ok read
      obtain ⟨behindColon, -, read⟩ := bind_eq_ok read
      obtain ⟨value, -, read⟩ := bind_eq_ok read
      simp only at read
      split at read
      · split_ifs at read
        · exact entriesLoop _ _ _ _ read
        · cases read
        · cases read
      · cases read
    · rw [parseItems] at read
      obtain ⟨value, -, read⟩ := bind_eq_ok read
      simp only at read
      split at read
      · split_ifs at read
        · exact itemsLoop _ _ _ _ read
        · cases read
        · cases read
      · cases read

/-- A string value stands in its text. -/
theorem parseValue_string {fuel : Nat} {text rest data : Bytes}
    (read : parseValue fuel text = .ok (.string data, rest)) : Stands text data := by
  cases fuel with
  | zero => cases read
  | succ fuel =>
    rw [parseValue] at read
    split at read
    · cases read
    · next c behind shape =>
      split_ifs at read with container string
      · exact ((parse_container fuel).1 _ _ _ read).elim
      · obtain ⟨⟨found, later⟩, text, value⟩ := bind_eq_ok read
        obtain ⟨same, rfl⟩ := Prod.mk.inj (Except.ok.inj value)
        obtain rfl := Value.string.inj same
        intro held
        rcases readString_ok text with ⟨-, free, -⟩ | whole
        · exact (free held).elim
        · refine List.IsInfix.trans ?_ (skipBlanks_suffix _).isInfix
          rw [shape, string, whole]
          exact ⟨[], later, by simp⟩
      · exact (readBlob_string read).elim
      · cases read
      · exact (readNumber_string read).elim
      · exact (parseAtomUnquoted_string read).elim
      · cases read

/-- A put entry is the new one or an old one. -/
theorem mem_put {entries : Entries} {key other : Bytes} {value found : Value}
    (member : (other, found) ∈ entries.put key value) :
    (other, found) = (key, value) ∨ (other, found) ∈ entries := by
  induction entries with
  | nil => exact .inl (List.mem_singleton.mp member)
  | cons entry entries ih =>
    rw [Entries.put] at member
    split at member
    · rcases List.mem_cons.mp member with same | later
      · exact .inl same
      · exact .inr (List.mem_cons_of_mem _ later)
    · rcases List.mem_cons.mp member with same | later
      · exact .inr (same ▸ List.mem_cons_self)
      · exact (ih later).imp_right (List.mem_cons_of_mem _)

/-- The entries of a map that are strings stand in its text. -/
theorem parseEntries_strings {fuel : Nat} {entries result : Entries} {text whole rest : Bytes}
    (within : text <:+ whole)
    (standing : ∀ key data, (key, .string data) ∈ entries → Stands whole data)
    (read : parseEntries fuel entries text = .ok (.map result, rest)) :
    ∀ key data, (key, .string data) ∈ result → Stands whole data := by
  induction fuel generalizing entries text with
  | zero => cases read
  | succ fuel ih =>
    rw [parseEntries] at read
    obtain ⟨⟨key, behindKey⟩, keyRead, read⟩ := bind_eq_ok read
    obtain ⟨behindColon, colonRead, read⟩ := bind_eq_ok read
    obtain ⟨⟨value, behindValue⟩, valueRead, read⟩ := bind_eq_ok read
    have keyEnds := readKey_ends (skipBlanks text)
    have valueEnds := (parse_ends fuel).1 behindColon
    rw [keyRead] at keyEnds
    rw [valueRead] at valueEnds
    have colon := (((readColon_suffix colonRead).trans keyEnds).trans (skipBlanks_suffix text)).trans
      within
    have grown : ∀ other data, (other, .string data) ∈ entries.put key value →
        Stands whole data := by
      intro other data member
      rcases mem_put member with same | old
      · obtain ⟨-, rfl⟩ := Prod.mk.inj same
        exact (parseValue_string valueRead).mono colon
      · exact standing other data old
    simp only at read
    split at read
    · next c later shape =>
      have behind : later <:+ whole := (((List.suffix_cons c later).trans
        (shape ▸ skipBlanks_suffix behindValue)).trans valueEnds).trans colon
      split_ifs at read
      · exact ih behind grown read
      · obtain ⟨same, -⟩ := Prod.mk.inj (Except.ok.inj read)
        obtain rfl := Value.map.inj same
        exact grown
      · cases read
    · cases read

/-- Several values make an array. -/
theorem parseMore_array {fuel : Nat} {items : List Value} {text : Bytes} {value : Value}
    (read : parseMore fuel items text = .ok value) : ∃ items, value = .array items := by
  induction fuel generalizing items text with
  | zero => cases read
  | succ fuel ih =>
    rw [parseMore] at read
    split at read
    · exact ⟨items, (Except.ok.inj read).symm⟩
    · obtain ⟨found, -, read⟩ := bind_eq_ok read
      exact ih read

/-- The strings of a document that is a map stand in its text. -/
theorem parse_strings {text : Bytes} {entries : Entries}
    (read : parse (openBrace :: text) = .ok (.map entries)) {key data : Bytes}
    (member : (key, .string data) ∈ entries) : Stands (openBrace :: text) data := by
  have start : skipBlanks (openBrace :: text) = openBrace :: text := rfl
  rw [parse, start] at read
  dsimp only at read
  rw [if_neg (by decide)] at read
  obtain ⟨⟨value, behind⟩, valueRead, read⟩ := bind_eq_ok read
  have same : value = .map entries := by
    dsimp only at read
    split at read
    · exact Except.ok.inj read
    · obtain ⟨items, array⟩ := parseMore_array read
      cases array
  subst same
  obtain ⟨fuel, enough⟩ : ∃ fuel, fuelFor (openBrace :: text) = fuel + 2 :=
    ⟨fuelFor (openBrace :: text) - 2, by rw [fuelFor]; omega⟩
  rw [enough, parseValue, start] at valueRead
  dsimp only at valueRead
  rw [if_pos (.inl rfl), parseContainer, start] at valueRead
  dsimp only at valueRead
  rw [if_pos rfl] at valueRead
  split at valueRead
  · obtain ⟨empty, -⟩ := Prod.mk.inj (Except.ok.inj valueRead)
    obtain rfl := Value.map.inj empty
    cases member
  · exact parseEntries_strings (List.suffix_cons _ _) (fun _ _ none => by cases none) valueRead
      key data member

/-! ## Records -/

/-- A key that is written without quotes. -/
def IsWord (key : Bytes) : Prop := key ≠ [] ∧ ∀ c ∈ key, isLabelChar c = true

instance (key : Bytes) : Decidable (IsWord key) := inferInstanceAs (Decidable (_ ∧ _))

/-- A text that one quote on each side holds. -/
def IsPlain (data : Bytes) : Prop := quote ∉ data ∧ newline ∉ data

instance (data : Bytes) : Decidable (IsPlain data) := inferInstanceAs (Decidable (_ ∧ _))

/-- A key with its text. -/
def recordField (field : Bytes × Bytes) : Bytes :=
  field.1 ++ [colon, space, quote] ++ field.2 ++ [quote]

/-- A record on a line of its own. -/
def recordLine (fields : List (Bytes × Bytes)) : Bytes :=
  [openBrace, space] ++ [comma, space].intercalate (fields.map recordField) ++
    [space, closeBrace, newline]

/-- What a record says. -/
def recordEntries (fields : List (Bytes × Bytes)) : Entries :=
  fields.foldl (fun (entries : Entries) field => entries.put field.1 (.string field.2)) []

theorem labelChar_word : ∀ c : UInt8, isLabelChar c = true →
    isBlank c = false ∧ c ≠ semicolon ∧ c ≠ quote ∧ c ≠ colon :=
  byte_forall (by decide +kernel)

/-- A word is no blank. -/
theorem skipBlanks_word {c : UInt8} (rest : Bytes) (blank : isBlank c = false)
    (comment : c ≠ semicolon) : skipBlanks (c :: rest) = c :: rest := by
  simp [skipBlanks, skipBlanksFrom, blank, comment]

theorem skipBlanks_space (rest : Bytes) : skipBlanks (space :: rest) = skipBlanks rest := rfl

/-- A plain string is read up to its quote. -/
theorem readSimple_plain {data : Bytes} (rest : Bytes) (plain : IsPlain data) :
    readSimple (data ++ quote :: rest) = .ok (data, rest) := by
  obtain ⟨quoteFree, lineFree⟩ := plain
  induction data with
  | nil => rfl
  | cons c data ih =>
    rw [List.mem_cons, not_or] at quoteFree lineFree
    rw [List.cons_append, readSimple, if_neg (Ne.symm quoteFree.1), if_neg (Ne.symm lineFree.1),
      ih quoteFree.2 lineFree.2]
    rfl

theorem readString_plain {data : Bytes} {c : UInt8} (rest : Bytes) (plain : IsPlain data)
    (other : c ≠ quote) : readString (data ++ quote :: c :: rest) = .ok (data, c :: rest) := by
  rw [readString, if_neg, readSimple_plain _ plain]
  rintro ⟨later, shape⟩
  cases data with
  | nil => exact other (List.cons.inj (List.cons.inj shape).2).1.symm
  | cons first data => exact plain.1 (by simp [(List.cons.inj shape).1])

/-- A word is read up to its colon. -/
theorem readKey_word {key : Bytes} (rest : Bytes) (word : IsWord key) :
    readKey (skipBlanks (space :: (key ++ colon :: rest))) = .ok (key, colon :: rest) := by
  obtain ⟨some, labels⟩ := word
  obtain ⟨first, more, rfl⟩ := List.exists_cons_of_ne_nil some
  obtain ⟨blank, comment, noQuote, -⟩ := labelChar_word first (labels first List.mem_cons_self)
  have taken : (first :: more ++ colon :: rest).takeWhile isLabelChar = first :: more :=
    takeWhile_stop labels (by decide)
  have left : (first :: more ++ colon :: rest).dropWhile isLabelChar = colon :: rest :=
    dropWhile_stop _ _ labels (by decide)
  rw [skipBlanks_space, List.cons_append, skipBlanks_word _ blank comment, readKey, if_neg noQuote,
    if_pos (labels first List.mem_cons_self), readUnquotedLabel, ← List.cons_append, taken, left]
  rfl

/-- A string value is read up to its quote. -/
theorem parseValue_plain {data : Bytes} {c : UInt8} (fuel : Nat) (rest : Bytes)
    (plain : IsPlain data) (other : c ≠ quote) :
    parseValue (fuel + 1) (space :: quote :: (data ++ quote :: c :: rest)) =
      .ok (.string data, c :: rest) := by
  rw [parseValue, skipBlanks_space, skipBlanks_word _ (by decide) (by decide)]
  dsimp only
  rw [if_neg (by decide), if_pos rfl, readString_plain rest plain other]
  rfl

/-- A value is handed on. -/
theorem ok_bind {α β : Type} (found : α) (next : α → Except Failure β) :
    ((.ok found : Except Failure α) >>= next) = next found := rfl

/-- One round of the loop over entries reads one field. -/
theorem parseEntries_field {key data : Bytes} {c : UInt8} (fuel : Nat) (entries : Entries)
    (rest : Bytes) (word : IsWord key) (plain : IsPlain data) (other : c ≠ quote) :
    parseEntries (fuel + 2) entries (space :: (recordField (key, data) ++ c :: rest)) =
      match skipBlanks (c :: rest) with
      | c :: rest =>
        if c = comma then parseEntries (fuel + 1) (entries.put key (.string data)) rest
        else if c = closeBrace then .ok (.map (entries.put key (.string data)), rest)
        else fail "expected ',' or '\x7d'"
      | [] => fail "expected ',' or '\x7d'" := by
  have shape : recordField (key, data) ++ c :: rest =
      key ++ colon :: (space :: quote :: (data ++ quote :: c :: rest)) := by
    simp [recordField]
  have sign : readColon (colon :: (space :: quote :: (data ++ quote :: c :: rest))) =
      .ok (space :: quote :: (data ++ quote :: c :: rest)) := by
    rw [readColon, skipBlanks_word _ (by decide) (by decide)]
    rfl
  rw [parseEntries, shape, readKey_word _ word, ok_bind]
  dsimp only
  rw [sign, ok_bind, parseValue_plain fuel rest plain other]
  rfl

/-- The fields of a record are read one after the other. -/
theorem parseEntries_fields {fields : List (Bytes × Bytes)} (fuel : Nat) (entries : Entries)
    (rest : Bytes) (some : fields ≠ [])
    (valid : ∀ field ∈ fields, IsWord field.1 ∧ IsPlain field.2) :
    parseEntries (fields.length + fuel + 1) entries
        (space :: ([comma, space].intercalate (fields.map recordField) ++
          space :: closeBrace :: rest)) =
      .ok (.map (fields.foldl (fun (entries : Entries) field => entries.put field.1 (.string field.2)) entries),
        rest) := by
  induction fields generalizing entries fuel with
  | nil => exact (some rfl).elim
  | cons field fields ih =>
    obtain ⟨word, plain⟩ := valid field List.mem_cons_self
    cases fields with
    | nil =>
      have round := parseEntries_field fuel entries (closeBrace :: rest) word plain
        (show space ≠ quote by decide)
      rw [List.map_singleton, List.intercalate_singleton, List.length_singleton,
        show 1 + fuel + 1 = fuel + 2 by omega, round, skipBlanks_space,
        skipBlanks_word _ (by decide) (by decide)]
      dsimp only
      rw [if_neg (by decide), if_pos rfl]
      rfl
    | cons next fields =>
      have round := parseEntries_field ((next :: fields).length + fuel) entries
        (space :: ([comma, space].intercalate ((next :: fields).map recordField) ++
          space :: closeBrace :: rest)) word plain (show comma ≠ quote by decide)
      have later := ih fuel (entries.put field.1 (.string field.2)) (List.cons_ne_nil _ _)
        fun other member => valid other (List.mem_cons_of_mem _ member)
      have shape : [comma, space].intercalate ((field :: next :: fields).map recordField) ++
          space :: closeBrace :: rest = recordField field ++ comma :: (space ::
            ([comma, space].intercalate ((next :: fields).map recordField) ++
              space :: closeBrace :: rest)) := by
        simp [List.intercalate_cons_cons]
      rw [shape, List.length_cons, show (next :: fields).length + 1 + fuel + 1 =
        (next :: fields).length + fuel + 2 by omega, round, skipBlanks_word _ (by decide) (by decide)]
      dsimp only
      rw [if_pos rfl, later]
      rfl

/-- Records are longer than they have fields. -/
theorem fields_length (fields : List (Bytes × Bytes)) :
    fields.length ≤ ([comma, space].intercalate (fields.map recordField)).length := by
  induction fields with
  | nil => exact Nat.zero_le _
  | cons field fields ih =>
    cases fields with
    | nil =>
      simp [recordField]
      omega
    | cons next fields =>
      rw [List.map_cons, List.map_cons, List.intercalate_cons_cons, ← List.map_cons,
        List.length_append, List.length_append, List.length_cons]
      have : 1 ≤ (recordField field).length := by
        simp [recordField]
        omega
      omega

theorem mem_intercalate {c : UInt8} {separator : Bytes} (apart : c ∉ separator)
    (items : List Bytes) : c ∈ separator.intercalate items ↔ ∃ item ∈ items, c ∈ item := by
  induction items with
  | nil => simp
  | cons item items ih =>
    cases items with
    | nil => simp
    | cons next items =>
      rw [List.intercalate_cons_cons]
      simp only [List.mem_append, apart, or_false, ih, List.exists_mem_cons_iff]

/-- A record ends its line, and has another line end only inside a field. -/
theorem recordLine_lines (fields : List (Bytes × Bytes)) :
    ∃ body, recordLine fields = body ++ [newline] ∧
      (newline ∈ body ↔ ∃ field ∈ fields, newline ∈ field.1 ∨ newline ∈ field.2) := by
  refine ⟨[openBrace, space] ++ [comma, space].intercalate (fields.map recordField) ++
    [space, closeBrace], by simp [recordLine], ?_⟩
  have apart : newline ∉ [comma, space] := by decide
  rw [List.mem_append, List.mem_append, mem_intercalate apart]
  simp [recordField]

/-- A record of plain texts is read back. -/
theorem parse_recordLine {fields : List (Bytes × Bytes)} (some : fields ≠ [])
    (valid : ∀ field ∈ fields, IsWord field.1 ∧ IsPlain field.2) :
    parse (recordLine fields) = .ok (.map (recordEntries fields)) := by
  have shape : recordLine fields = openBrace :: (space ::
      ([comma, space].intercalate (fields.map recordField) ++ space :: closeBrace :: [newline])) := by
    simp [recordLine]
  have count := fields_length fields
  obtain ⟨fuel, enough⟩ : ∃ fuel, fuelFor (recordLine fields) = fields.length + fuel + 1 + 2 := by
    refine ⟨fuelFor (recordLine fields) - 3 - fields.length, ?_⟩
    rw [fuelFor, shape]
    simp only [List.length_cons, List.length_append, List.length_nil]
    omega
  obtain ⟨label, more, inside, other⟩ : ∃ label more, skipBlanks (space ::
      ([comma, space].intercalate (fields.map recordField) ++ space :: closeBrace :: [newline])) =
        label :: more ∧ label ≠ closeBrace := by
    obtain ⟨⟨key, data⟩, fields, rfl⟩ := List.exists_cons_of_ne_nil some
    obtain ⟨filled, labels⟩ := (valid _ List.mem_cons_self).1
    obtain ⟨first, key, rfl⟩ := List.exists_cons_of_ne_nil filled
    obtain ⟨blank, comment, -⟩ := labelChar_word first (labels first List.mem_cons_self)
    have front : ∃ behind, [comma, space].intercalate
        (((first :: key, data) :: fields).map recordField) = first :: behind := by
      cases fields with
      | nil => exact ⟨_, rfl⟩
      | cons next fields =>
        rw [List.map_cons, List.map_cons, List.intercalate_cons_cons]
        exact ⟨_, rfl⟩
    obtain ⟨behind, front⟩ := front
    refine ⟨first, behind ++ space :: closeBrace :: [newline], ?_, ?_⟩
    · rw [front, skipBlanks_space, List.cons_append, skipBlanks_word _ blank comment]
    · rintro rfl
      exact absurd (labels closeBrace List.mem_cons_self) (by decide)
  have container : parseContainer (fields.length + fuel + 1 + 1) (recordLine fields) =
      .ok (.map (recordEntries fields), [newline]) := by
    rw [parseContainer, shape, skipBlanks_word _ (by decide) (by decide)]
    dsimp only
    rw [if_pos rfl, inside, if_neg (by simpa using other),
      parseEntries_fields fuel [] [newline] some valid]
    rfl
  have value : parseValue (fields.length + fuel + 1 + 2) (recordLine fields) =
      .ok (.map (recordEntries fields), [newline]) := by
    rw [parseValue, shape, skipBlanks_word _ (by decide) (by decide)]
    dsimp only
    rw [if_pos (.inl rfl), ← shape, container]
  have start : skipBlanks (recordLine fields) = recordLine fields := by
    rw [shape, skipBlanks_word _ (by decide) (by decide)]
  rw [parse, enough, start]
  rw [shape] at value ⊢
  dsimp only
  rw [if_neg (by decide), value, ok_bind]
  rfl

end Cookbook.Pasta
