import Cookbook.Grid.PeerKey
import Cookbook.Kv.Statements
import Mathlib.Data.List.DropRight
import Mathlib.Data.List.Forall2

/-!
# Statements for PostgreSQL

The server writes its statements for SQLite. The PostgreSQL backend rewrites each text: a placeholder
`?1` becomes `$1`, and `INSERT OR IGNORE` becomes an `INSERT` that does nothing on a conflict. The
rewriting does not know where a literal is, and knows no other form of `INSERT OR`.
-/
namespace Cookbook.Postgres

open Library.Text Kv

/-! ## The rewriting -/

/-- The digit of a placeholder follows. -/
def startsNumber : Bytes → Bool
  | c :: _ => decide (0x31 ≤ c) && decide (c ≤ 0x39)
  | [] => false

/-- The loop of `translate_params`: each round takes a character. -/
def translateFrom : Nat → Bytes → Bytes
  | 0, _ => []
  | _ + 1, [] => []
  | fuel + 1, c :: rest =>
    if c = 0x3F ∧ startsNumber rest then
      0x24 :: (rest.takeWhile isDecimal ++ translateFrom fuel (rest.dropWhile isDecimal))
    else c :: translateFrom fuel rest

/-- `translate_params` -/
def translateParams (sql : Bytes) : Bytes := translateFrom sql.length sql

/-- `INSERT OR IGNORE INTO` -/
def ignoreForm : Bytes := ascii "INSERT OR IGNORE INTO"

/-- `INSERT INTO` -/
def insertForm : Bytes := ascii "INSERT INTO"

/-- ` ON CONFLICT DO NOTHING` -/
def nothingForm : Bytes := ascii " ON CONFLICT DO NOTHING"

/-- What is stripped from the end of a statement. -/
def isTrailing (c : UInt8) : Bool := c == space || c == newline || c == 0x3B

/-- `translate_sql` -/
def translateSql (sql : Bytes) : Bytes :=
  let translated := translateParams sql
  match strstr ignoreForm translated with
  | none => translated
  | some found =>
    (translated.take (translated.length - found.length) ++ insertForm ++
      found.drop ignoreForm.length).rdropWhile isTrailing ++ nothingForm

/-! ## What it is for -/

/-- The placeholders outside literals get the other sign. -/
def placeholders : Bool → Bytes → Bytes
  | _, [] => []
  | inside, c :: rest =>
    if inside = false ∧ c = 0x3F ∧ startsNumber rest then 0x24 :: placeholders false rest
    else c :: placeholders (if c = apostrophe then !inside else inside) rest

/-- A statement with its placeholders renumbered and its literals as they are, and with the clause
for conflicts where rows are ignored. -/
def expected (sql : Bytes) : Bytes :=
  if ignoreForm <+: sql then
    (insertForm ++ placeholders false (sql.drop ignoreForm.length)).rdropWhile isTrailing ++
      nothingForm
  else placeholders false sql

/-- What an `INSERT` does with rows, none where it is refused as a whole. -/
def applied {Row : Type} (clashes : Row → Row → Bool) (rows : List Row) (row : Row) :
    OnConflict → Option (List Row)
  | .refuse => if rows.any (clashes row) then none else some (rows ++ [row])
  | .ignore => if rows.any (clashes row) then some rows else some (rows ++ [row])
  | .replace => some (rows.filter (fun other => !clashes row other) ++ [row])

/-- What an `INSERT` of SQLite does with a row that is there; none for other statements. -/
def sqliteMode (sql : Bytes) : Option OnConflict :=
  if ignoreForm <+: sql then some .ignore
  else if ascii "INSERT OR REPLACE INTO" <+: sql then some .replace
  else if insertForm <+: sql then some (if nothingForm <:+ sql then .ignore else .refuse)
  else none

/-- What an `INSERT` of PostgreSQL does, which has no `INSERT OR`. -/
def postgresMode (sql : Bytes) : Option OnConflict :=
  if insertForm <+: sql then some (if nothingForm <:+ sql then .ignore else .refuse) else none

/-- A statement that PostgreSQL reads as SQLite reads the original. -/
structure Translates (sql : Bytes) : Prop where
  /-- Placeholders are renumbered and literals are unchanged. -/
  params : translateSql sql = expected sql
  /-- No `INSERT OR` remains. -/
  plain : ¬ ascii "INSERT OR" <+: translateSql sql
  /-- An `INSERT` has the same effect on the rows. -/
  effect : ∀ {Row : Type} (clashes : Row → Row → Bool) (rows : List Row) (row : Row),
    (postgresMode (translateSql sql)).map (applied clashes rows row) =
      (sqliteMode sql).map (applied clashes rows row)

/-- A placeholder's look-alike stands in a literal: behind an odd number of apostrophes. -/
def HiddenPlaceholder (sql : Bytes) : Prop :=
  ∃ front rest, sql = front ++ 0x3F :: rest ∧ startsNumber rest = true ∧
    front.count apostrophe % 2 = 1

/-- The statements that the rewriting is made for. -/
structure Portable (sql : Bytes) : Prop where
  /-- Literals have no look-alikes of placeholders. -/
  literals : ¬ HiddenPlaceholder sql
  /-- The form with `IGNORE` stands at the start only. -/
  front : ignoreForm <:+: sql → ignoreForm <+: sql
  /-- There is no other form with `OR`. -/
  known : ascii "INSERT OR" <+: sql → ignoreForm <+: sql

/-! ## Renumbered texts -/

/-- A text is another one with some question marks turned into dollar signs. -/
def Renumbered (sql text : Bytes) : Prop :=
  List.Forall₂ (fun c d => d = c ∨ (c = 0x3F ∧ d = 0x24)) sql text

/-- The sign at a place, for all placeholders. -/
def marks : Bytes → Bytes
  | [] => []
  | c :: rest => (if c = 0x3F ∧ startsNumber rest then 0x24 else c) :: marks rest

/-- No digit is a question mark. -/
theorem decimal_no_mark : ∀ c : UInt8, isDecimal c = true → c ≠ 0x3F :=
  byte_forall (by decide +kernel)

/-- A run without question marks stays as it is. -/
theorem marks_append {front : Bytes} (free : 0x3F ∉ front) (rest : Bytes) :
    marks (front ++ rest) = front ++ marks rest := by
  induction front with
  | nil => rfl
  | cons c front ih =>
    simp only [List.mem_cons, not_or] at free
    rw [List.cons_append, marks, ih free.2, if_neg fun both => free.1 both.1.symm]
    rfl

/-- The loop turns all placeholders. -/
theorem translateFrom_eq {fuel : Nat} {sql : Bytes} (enough : sql.length ≤ fuel) :
    translateFrom fuel sql = marks sql := by
  induction fuel generalizing sql with
  | zero =>
    obtain rfl : sql = [] := List.eq_nil_of_length_eq_zero (by omega)
    rfl
  | succ fuel ih =>
    cases sql with
    | nil => rfl
    | cons c rest =>
      rw [List.length_cons] at enough
      rw [translateFrom, marks]
      split
      · have digits : 0x3F ∉ rest.takeWhile isDecimal := fun member =>
          decimal_no_mark _ (List.mem_takeWhile_imp member) rfl
        have shorter := (List.dropWhile_suffix (l := rest) isDecimal).length_le
        rw [ih (by omega), ← marks_append digits, List.takeWhile_append_dropWhile]
      · rw [ih (by omega)]

/-- `translate_params` turns all placeholders. -/
theorem translateParams_eq (sql : Bytes) : translateParams sql = marks sql :=
  translateFrom_eq (Nat.le_refl _)

/-- Turning all placeholders renumbers. -/
theorem marks_renumbered (sql : Bytes) : Renumbered sql (marks sql) := by
  induction sql with
  | nil => exact .nil
  | cons c rest ih =>
    refine .cons ?_ ih
    split
    · exact .inr ⟨‹_ ∧ _›.1, rfl⟩
    · exact .inl rfl

/-- So does turning those outside literals. -/
theorem placeholders_renumbered (inside : Bool) (sql : Bytes) :
    Renumbered sql (placeholders inside sql) := by
  induction sql generalizing inside with
  | nil => exact .nil
  | cons c rest ih =>
    rw [placeholders]
    split
    · exact .cons (.inr ⟨‹_ ∧ _ ∧ _›.2.1, rfl⟩) (ih false)
    · exact .cons (.inl rfl) (ih _)

section Renumbered

variable {sql text : Bytes}

/-- A pattern without the two signs starts both texts or none. -/
theorem Renumbered.prefix_iff (same : Renumbered sql text) {pattern : Bytes}
    (noMark : 0x3F ∉ pattern) (noSign : 0x24 ∉ pattern) : pattern <+: text ↔ pattern <+: sql := by
  induction same generalizing pattern with
  | nil => rfl
  | @cons c d rest rest' here _ ih =>
    cases pattern with
    | nil => simp
    | cons e pattern =>
      simp only [List.mem_cons, not_or] at noMark noSign
      rw [List.cons_prefix_cons, List.cons_prefix_cons, ih noMark.2 noSign.2]
      refine and_congr_left fun _ => ?_
      rcases here with rfl | ⟨rfl, rfl⟩
      · rfl
      · exact iff_of_false (Ne.symm noSign.1) (Ne.symm noMark.1)

/-- It is found in both or in none. -/
theorem Renumbered.infix_iff (same : Renumbered sql text) {pattern : Bytes}
    (noMark : 0x3F ∉ pattern) (noSign : 0x24 ∉ pattern) :
    pattern <:+: text ↔ pattern <:+: sql := by
  induction same with
  | nil => rfl
  | cons here later ih =>
    rw [List.infix_cons_iff, List.infix_cons_iff, ih,
      Renumbered.prefix_iff (.cons here later) noMark noSign]

/-- It ends both or none. -/
theorem Renumbered.suffix_iff (same : Renumbered sql text) {pattern : Bytes}
    (noMark : 0x3F ∉ pattern) (noSign : 0x24 ∉ pattern) :
    pattern <:+ text ↔ pattern <:+ sql := by
  have turned : Renumbered sql.reverse text.reverse := List.forall₂_reverse_iff.mpr same
  rw [← List.reverse_prefix, ← List.reverse_prefix,
    turned.prefix_iff (by simpa using noMark) (by simpa using noSign)]

end Renumbered

/-! ## Placeholders in literals -/

/-- A look-alike stands where a literal is open, when one is open in front of the text or not. -/
def HiddenFrom (inside : Bool) (sql : Bytes) : Prop :=
  ∃ front rest, sql = front ++ 0x3F :: rest ∧ startsNumber rest = true ∧
    (decide (front.count apostrophe % 2 = 1) != inside) = true

/-- It stands first, or behind the first character. -/
theorem hiddenFrom_cons (inside : Bool) (c : UInt8) (rest : Bytes) :
    HiddenFrom inside (c :: rest) ↔
      (inside = true ∧ c = 0x3F ∧ startsNumber rest = true) ∨
        HiddenFrom (if c = apostrophe then !inside else inside) rest := by
  have parity : ∀ n : Nat, decide ((n + 1) % 2 = 1) = !decide (n % 2 = 1) := by
    intro n
    rcases Nat.mod_two_eq_zero_or_one n with even | odd
    · simp [even, show (n + 1) % 2 = 1 by omega]
    · simp [odd, show (n + 1) % 2 = 0 by omega]
  constructor
  · rintro ⟨front, behind, split, starts, odd⟩
    cases front with
    | nil =>
      obtain ⟨rfl, rfl⟩ := List.cons.inj split
      exact .inl ⟨by simpa using odd, rfl, starts⟩
    | cons d front =>
      obtain ⟨rfl, rfl⟩ := List.cons.inj split
      refine .inr ⟨front, behind, rfl, starts, ?_⟩
      by_cases mark : c = apostrophe
      · subst mark
        rw [List.count_cons_self, parity] at odd
        rw [if_pos rfl]
        cases inside <;> simpa using odd
      · rw [List.count_cons_of_ne mark] at odd
        rwa [if_neg mark]
  · rintro (⟨rfl, rfl, starts⟩ | ⟨front, behind, rfl, starts, odd⟩)
    · exact ⟨[], rest, rfl, starts, by simp⟩
    · refine ⟨c :: front, behind, rfl, starts, ?_⟩
      by_cases mark : c = apostrophe
      · subst mark
        rw [if_pos rfl] at odd
        rw [List.count_cons_self, parity]
        cases inside <;> simpa using odd
      · rw [if_neg mark] at odd
        rwa [List.count_cons_of_ne mark]

/-- The two ways to turn placeholders agree where no look-alike stands in a literal. -/
theorem marks_eq_iff (inside : Bool) (sql : Bytes) :
    marks sql = placeholders inside sql ↔ ¬ HiddenFrom inside sql := by
  induction sql generalizing inside with
  | nil =>
    refine iff_of_true rfl ?_
    rintro ⟨front, rest, split, -⟩
    simp at split
  | cons c rest ih =>
    rw [hiddenFrom_cons, marks, placeholders]
    by_cases mark : c = 0x3F ∧ startsNumber rest
    · obtain ⟨rfl, starts⟩ := mark
      have other : ¬ (0x3F : UInt8) = apostrophe := by decide
      cases inside with
      | false =>
        rw [if_pos ⟨rfl, starts⟩, if_pos ⟨rfl, rfl, starts⟩, List.cons.injEq, ih]
        simp [other]
      | true =>
        rw [if_pos ⟨rfl, starts⟩, if_neg fun all => absurd all.1 (by decide)]
        simp [starts]
    · rw [if_neg mark, if_neg fun all => mark all.2, List.cons.injEq, ih]
      have first : ¬ (inside = true ∧ c = 0x3F ∧ startsNumber rest = true) := fun all => mark all.2
      simp only [first, false_or, true_and]

/-- From the start of a statement no literal is open. -/
theorem hiddenPlaceholder_iff (sql : Bytes) : HiddenPlaceholder sql ↔ HiddenFrom false sql := by
  simp [HiddenPlaceholder, HiddenFrom]

/-- A front without apostrophes and question marks hides nothing. -/
theorem placeholders_append {front : Bytes} (noMark : 0x3F ∉ front) (noQuote : apostrophe ∉ front)
    (inside : Bool) (rest : Bytes) :
    placeholders inside (front ++ rest) = front ++ placeholders inside rest := by
  induction front with
  | nil => rfl
  | cons c front ih =>
    simp only [List.mem_cons, not_or] at noMark noQuote
    rw [List.cons_append, placeholders, if_neg fun all => noMark.1 all.2.1.symm,
      if_neg (Ne.symm noQuote.1), ih noMark.2 noQuote.2]
    rfl

/-! ## Stripped texts -/

/-- A turned sign is no trailing character. -/
theorem renumbered_trailing {c d : UInt8} (same : d = c ∨ (c = 0x3F ∧ d = 0x24)) :
    isTrailing d = isTrailing c ∧ (isTrailing d = true → d = c) := by
  rcases same with rfl | ⟨rfl, rfl⟩
  · exact ⟨rfl, fun _ => rfl⟩
  · exact ⟨by decide, fun trailing => absurd trailing (by decide)⟩

/-- The last sign of a renumbered text. -/
theorem renumbered_concat {sql text : Bytes} {c : UInt8} (same : Renumbered (sql ++ [c]) text) :
    ∃ front d, text = front ++ [d] ∧ Renumbered sql front ∧ (d = c ∨ (c = 0x3F ∧ d = 0x24)) := by
  have turned := List.forall₂_reverse_iff.mpr same
  rw [List.reverse_append, List.reverse_singleton, List.singleton_append,
    List.forall₂_cons_left_iff] at turned
  obtain ⟨d, front, here, later, whole⟩ := turned
  refine ⟨front.reverse, d, ?_, ?_, here⟩
  · rw [← List.reverse_cons, ← whole, List.reverse_reverse]
  · rw [← List.reverse_reverse sql]
    exact List.forall₂_reverse_iff.mpr later

/-- Two renumberings of a text that agree when they are stripped agree. -/
theorem stripped_eq_iff {sql left right : Bytes} (front : Bytes) (first : Renumbered sql left)
    (second : Renumbered sql right) :
    (front ++ left).rdropWhile isTrailing = (front ++ right).rdropWhile isTrailing ↔
      left = right := by
  refine ⟨fun same => ?_, fun same => by rw [same]⟩
  induction sql using List.reverseRecOn generalizing left right with
  | nil =>
    rw [List.forall₂_nil_left_iff.mp first, List.forall₂_nil_left_iff.mp second]
  | append_singleton sql c ih =>
    obtain ⟨left, a, rfl, leftSame, here⟩ := renumbered_concat first
    obtain ⟨right, b, rfl, rightSame, there⟩ := renumbered_concat second
    rw [← List.append_assoc, ← List.append_assoc] at same
    have leftTrailing := renumbered_trailing here
    have rightTrailing := renumbered_trailing there
    by_cases trailing : isTrailing c = true
    · obtain rfl := leftTrailing.2 (leftTrailing.1.trans trailing)
      obtain rfl := rightTrailing.2 (rightTrailing.1.trans trailing)
      rw [List.rdropWhile_concat_pos _ _ _ trailing,
        List.rdropWhile_concat_pos _ _ _ trailing] at same
      rw [ih leftSame rightSame same]
    · rw [← leftTrailing.1] at trailing
      have behind : ¬ isTrailing b = true := by rwa [rightTrailing.1, ← leftTrailing.1]
      rw [List.rdropWhile_concat_neg _ _ _ trailing,
        List.rdropWhile_concat_neg _ _ _ behind, List.append_assoc, List.append_assoc] at same
      exact List.append_cancel_left same

/-- What stands in front of a character that is not trailing is kept. -/
theorem stripped_keeps (front rest : Bytes) {c : UInt8} (kept : isTrailing c = false) :
    ∃ more, (front ++ c :: rest).rdropWhile isTrailing = front ++ c :: more := by
  induction rest using List.reverseRecOn with
  | nil =>
    exact ⟨[], List.rdropWhile_concat_neg _ _ _ (by simp [kept])⟩
  | append_singleton rest d ih =>
    rw [← List.cons_append, ← List.append_assoc]
    by_cases trailing : isTrailing d = true
    · rwa [List.rdropWhile_concat_pos _ _ _ trailing]
    · exact ⟨rest ++ [d], by rw [List.rdropWhile_concat_neg _ _ _ trailing]; simp⟩

/-- A text whose last character is not trailing is kept. -/
theorem stripped_eq {text : Bytes} {c : UInt8} (last : text.getLast? = some c)
    (kept : isTrailing c = false) : text.rdropWhile isTrailing = text := by
  obtain ⟨front, rfl⟩ := List.getLast?_eq_some_iff.mp last
  exact List.rdropWhile_concat_neg _ _ _ (by simp [kept])

/-! ## When a rewritten statement says the same -/

section Forms

/-- The form with `IGNORE` has no placeholders and no literals. -/
theorem ignoreForm_plain :
    0x3F ∉ ignoreForm ∧ 0x24 ∉ ignoreForm ∧ apostrophe ∉ ignoreForm ∧
      ignoreForm.getLast? = some 0x4F ∧ insertForm.getLast? = some 0x4F := by
  decide +kernel

variable {sql : Bytes}

/-- A statement that starts with the form with `IGNORE`. -/
theorem translateSql_ignore (rest : Bytes) :
    translateSql (ignoreForm ++ rest) =
      (insertForm ++ marks rest).rdropWhile isTrailing ++ nothingForm := by
  have turned : translateParams (ignoreForm ++ rest) = ignoreForm ++ marks rest := by
    rw [translateParams_eq, marks_append ignoreForm_plain.1]
  unfold translateSql
  simp only [turned, strstr_prefix]
  rw [Nat.sub_self, List.take_zero, List.nil_append, List.drop_left]

/-- A statement without that form. -/
theorem translateSql_other (absent : ¬ ignoreForm <:+: sql) : translateSql sql = marks sql := by
  have missed : strstr ignoreForm (marks sql) = none := by
    rw [strstr_none_iff, (marks_renumbered sql).infix_iff ignoreForm_plain.1 ignoreForm_plain.2.1]
    exact absent
  unfold translateSql
  simp only [translateParams_eq, missed]

/-- A statement with that form in a later place. -/
theorem translateSql_later (present : ignoreForm <:+: sql) :
    ∃ front back, marks sql = front ++ ignoreForm ++ back ∧
      translateSql sql =
        (front ++ insertForm ++ back).rdropWhile isTrailing ++ nothingForm := by
  have present' : ignoreForm <:+: marks sql :=
    ((marks_renumbered sql).infix_iff ignoreForm_plain.1 ignoreForm_plain.2.1).mpr present
  cases search : strstr ignoreForm (marks sql) with
  | none => exact absurd present' (strstr_none_iff.mp search)
  | some found =>
    obtain ⟨⟨front, whole⟩, ⟨back, rfl⟩⟩ := strstr_some search
    refine ⟨front, back, by rw [← whole, List.append_assoc], ?_⟩
    unfold translateSql
    simp only [translateParams_eq, search]
    rw [← whole, List.length_append, Nat.add_sub_cancel, List.take_left, List.drop_left]

/-- The last character of a renumbered text is trailing where the one of the text is. -/
theorem Renumbered.last_trailing {text : Bytes} (same : Renumbered sql text) :
    text.getLast?.map isTrailing = sql.getLast?.map isTrailing := by
  cases sql using List.reverseRecOn with
  | nil => rw [List.forall₂_nil_left_iff.mp same]
  | append_singleton sql c =>
    obtain ⟨front, d, rfl, -, here⟩ := renumbered_concat same
    simp [(renumbered_trailing here).1]

/-- There the clause for conflicts makes the text longer, so that it is another one. -/
theorem translateSql_later_ne (present : ignoreForm <:+: sql) (later : ¬ ignoreForm <+: sql) :
    translateSql sql ≠ expected sql := by
  obtain ⟨front, back, whole, result⟩ := translateSql_later present
  rw [expected, if_neg later, result]
  intro same
  have renumbered := placeholders_renumbered false sql
  -- the clause ends with a letter, so nothing is stripped
  have letter : (placeholders false sql).getLast? = some 0x47 := by
    rw [← same, List.getLast?_append]
    rfl
  have last : (front ++ insertForm ++ back).getLast?.map isTrailing = some false := by
    have marked : (front ++ insertForm ++ back).getLast? = (marks sql).getLast? := by
      rw [whole]
      simp [List.getLast?_append, ignoreForm_plain]
    rw [marked, (marks_renumbered sql).last_trailing, ← renumbered.last_trailing, letter]
    rfl
  obtain ⟨c, isLast, kept⟩ := Option.map_eq_some_iff.mp last
  rw [stripped_eq isLast kept] at same
  have sizes := congrArg List.length same
  rw [← (renumbered.length_eq), (marks_renumbered sql).length_eq, whole] at sizes
  simp only [List.length_append] at sizes
  have forms : ignoreForm.length = 21 ∧ insertForm.length = 11 ∧ nothingForm.length = 23 := by
    decide +kernel
  omega

/-- Behind the form with `IGNORE` the rewriting renumbers as it should when no look-alike stands in
a literal. -/
theorem ignored_params_iff (rest : Bytes) :
    translateSql (ignoreForm ++ rest) = expected (ignoreForm ++ rest) ↔
      ¬ HiddenPlaceholder (ignoreForm ++ rest) := by
  obtain ⟨noMark, -, noQuote, -⟩ := ignoreForm_plain
  rw [translateSql_ignore, expected, if_pos (List.prefix_append _ _), List.drop_left,
    List.append_cancel_right_eq,
    stripped_eq_iff insertForm (marks_renumbered rest) (placeholders_renumbered false rest),
    hiddenPlaceholder_iff, ← marks_eq_iff, marks_append noMark,
    placeholders_append noMark noQuote, List.append_cancel_left_eq]

/-- An `INSERT` stays in front, and the clause for conflicts at the end. -/
theorem translateSql_ignore_forms (rest : Bytes) :
    insertForm <+: translateSql (ignoreForm ++ rest) ∧
      nothingForm <:+ translateSql (ignoreForm ++ rest) := by
  have kept : ∃ more, (insertForm ++ marks rest).rdropWhile isTrailing = insertForm ++ more :=
    stripped_keeps (ascii "INSERT INT") (marks rest) (by decide)
  obtain ⟨more, stripped⟩ := kept
  rw [translateSql_ignore, stripped]
  exact ⟨(List.prefix_append _ _).trans (List.prefix_append _ _), List.suffix_append _ _⟩

/-- **A statement is rewritten to one that says the same exactly when its literals have no
look-alikes of placeholders, the form with `IGNORE` stands at its start only, and it has no other
form with `OR`.** -/
theorem translateSql_translates_iff (sql : Bytes) : Translates sql ↔ Portable sql := by
  have between : ascii "INSERT OR" <+: ignoreForm := ⟨ascii " IGNORE INTO", by decide +kernel⟩
  by_cases front : ignoreForm <+: sql
  · obtain ⟨rest, rfl⟩ := front
    obtain ⟨starts, ends⟩ := translateSql_ignore_forms rest
    constructor
    · intro translates
      exact ⟨(ignored_params_iff rest).mp translates.params, fun _ => List.prefix_append _ _,
        fun _ => List.prefix_append _ _⟩
    · intro portable
      refine ⟨(ignored_params_iff rest).mpr portable.literals, ?_, ?_⟩
      · -- the two forms differ behind `INSERT `
        obtain ⟨more, whole⟩ := starts
        rw [← whole]
        rintro ⟨other, same⟩
        have byte := congrArg (·[7]?) same
        revert byte
        simp [insertForm, ascii]
      · intro Row clashes rows row
        rw [postgresMode, sqliteMode, if_pos starts, if_pos ends, if_pos (List.prefix_append _ _)]
  · by_cases inner : ignoreForm <:+: sql
    · exact iff_of_false (fun translates => translateSql_later_ne inner front translates.params)
        (fun portable => front (portable.front inner))
    · have same := marks_renumbered sql
      have known : ascii "INSERT OR" <+: marks sql ↔ ascii "INSERT OR" <+: sql :=
        same.prefix_iff (by decide +kernel) (by decide +kernel)
      have literals : marks sql = expected sql ↔ ¬ HiddenPlaceholder sql := by
        rw [expected, if_neg front, marks_eq_iff, hiddenPlaceholder_iff]
      constructor
      · intro translates
        have params := translates.params
        have plain := translates.plain
        rw [translateSql_other inner] at params plain
        exact ⟨literals.mp params, fun present => absurd present inner,
          fun form => absurd (known.mpr form) plain⟩
      · intro portable
        refine ⟨?_, ?_, ?_⟩
        · rw [translateSql_other inner]
          exact literals.mpr portable.literals
        · rw [translateSql_other inner, known]
          exact fun form => front (portable.known form)
        · intro Row clashes rows row
          have noReplace : ¬ ascii "INSERT OR REPLACE INTO" <+: sql := fun form =>
            front (portable.known (List.IsPrefix.trans
              ⟨ascii " REPLACE INTO", by decide +kernel⟩ form))
          have starts : insertForm <+: marks sql ↔ insertForm <+: sql :=
            same.prefix_iff (by decide +kernel) (by decide +kernel)
          have ends : nothingForm <:+ marks sql ↔ nothingForm <:+ sql :=
            same.suffix_iff (by decide +kernel) (by decide +kernel)
          rw [postgresMode, sqliteMode, translateSql_other inner, if_neg front, if_neg noReplace]
          simp only [starts, ends]

end Forms

/-! ## The statements that are issued -/

/-- `handle_resolve` and `handle_grid_resolve`, with the yanked versions -/
def selectAllVersions : Bytes :=
  ascii "SELECT a.version, a.snapshot, a.triple, a.yanked, a.yank_reason FROM artifacts a " ++
    ascii "JOIN artifact_semver s ON a.coord_id = s.coord_id " ++
    ascii "WHERE a.group_id = ?1 AND a.artifact = ?2 AND a.status = 'published' " ++
    ascii "ORDER BY s.major DESC, s.minor DESC, s.patch DESC"

/-- `handle_resolve` and `handle_grid_resolve` -/
def selectVersions : Bytes :=
  ascii "SELECT a.version, a.snapshot, a.triple FROM artifacts a " ++
    ascii "JOIN artifact_semver s ON a.coord_id = s.coord_id " ++
    ascii "WHERE a.group_id = ?1 AND a.artifact = ?2 AND a.yanked = 0 " ++
    ascii "AND a.status = 'published' ORDER BY s.major DESC, s.minor DESC, s.patch DESC"

/-- `handle_readyz` -/
def selectOne : Bytes := ascii "SELECT 1"

/-- The texts that stand in the source. -/
def constantTexts : List Bytes :=
  Kv.selects.map Select.sql ++ Kv.listings.map Listing.sql ++ Kv.deletes.map Delete.sql ++
    Kv.inserts.map Insert.sql ++ Kv.updates.map Update.sql ++
    [selectAllVersions, selectVersions, selectOne]

/-- The texts of the server, policy and grid code. -/
inductive Issued : Bytes → Prop
  | constant {sql : Bytes} (member : sql ∈ constantTexts) : Issued sql
  | peerKey (peerId : Bytes) : Issued (Grid.keySql peerId)

instance (sql : Bytes) : Decidable (HiddenPlaceholder sql) :=
  decidable_of_iff (¬ marks sql = placeholders false sql) (by
    rw [marks_eq_iff, ← hiddenPlaceholder_iff, not_not])

instance (sql : Bytes) : Decidable (Portable sql) :=
  decidable_of_iff (¬ HiddenPlaceholder sql ∧ (ignoreForm <:+: sql → ignoreForm <+: sql) ∧
      (ascii "INSERT OR" <+: sql → ignoreForm <+: sql))
    ⟨fun ⟨literals, front, known⟩ => ⟨literals, front, known⟩,
      fun ⟨literals, front, known⟩ => ⟨literals, front, known⟩⟩

/-- Of the texts in the source the rewriting is made for those without `INSERT OR REPLACE`. -/
theorem constantTexts_portable_iff :
    ∀ sql ∈ constantTexts, Portable sql ↔ ¬ ascii "INSERT OR REPLACE" <+: sql := by
  have selected : ∀ sql ∈ Kv.selects.map Select.sql,
      Portable sql ↔ ¬ ascii "INSERT OR REPLACE" <+: sql := by
    simp only [selects, List.map_cons, List.map_nil, selectStale, selectExpiredKeys, selectExpired,
      selectYanked, selectCredential, selectMirrorVersion, selectMirror, selectGroup, countArtifacts,
      selectRevocations, selectPolicy, bytes_ofList]
    decide +kernel
  have deleted : ∀ sql ∈ Kv.deletes.map Delete.sql,
      Portable sql ↔ ¬ ascii "INSERT OR REPLACE" <+: sql := by
    simp only [deletes, List.map_cons, List.map_nil, deleteSemver, deleteStale, deleteCached,
      deletePeer, deleteGroup, deleteCredential, deleteRevocations, deletePolicy, bytes_ofList]
    decide +kernel
  have inserted : ∀ sql ∈ Kv.inserts.map Insert.sql,
      Portable sql ↔ ¬ ascii "INSERT OR REPLACE" <+: sql := by
    simp only [inserts, List.map_cons, List.map_nil, insertOwnGroup, insertArtifact, insertSemver,
      insertRevocation, insertKey, insertPeer, insertCached, insertDescribedGroup, insertGroup,
      insertCredential, insertPolicy, bytes_ofList]
    decide +kernel
  have updated : ∀ sql ∈ Kv.updates.map Update.sql,
      Portable sql ↔ ¬ ascii "INSERT OR REPLACE" <+: sql := by
    simp only [updates, List.map_cons, List.map_nil, updatePublished, updateYanked, updateKey,
      updateOwner, updateDescription, updateCredential, bytes_ofList]
    decide +kernel
  have listed : ∀ sql ∈ Kv.listings.map Listing.sql,
      Portable sql ↔ ¬ ascii "INSERT OR REPLACE" <+: sql := by
    simp only [listings, List.map_cons, List.map_nil, listPublished, listGroups, listCredentials,
      listPolicies, listPeers, bytes_ofList]
    decide +kernel
  have others : ∀ sql ∈ [selectAllVersions, selectVersions, selectOne],
      Portable sql ↔ ¬ ascii "INSERT OR REPLACE" <+: sql := by
    simp only [selectAllVersions, selectVersions, selectOne, ascii_ofList]
    decide +kernel
  simp only [constantTexts, List.forall_mem_append]
  exact ⟨⟨⟨⟨⟨selected, listed⟩, deleted⟩, inserted⟩, updated⟩, others⟩

/-- The text with a peer's name is good when its literal is. -/
theorem keySql_portable_iff (peerId : Bytes) :
    Portable (Grid.keySql peerId) ↔
      ¬ HiddenPlaceholder (Grid.keySql peerId) ∧ ¬ ignoreForm <:+: Grid.keySql peerId := by
  have select : ∀ form : Bytes, form.head? = some 0x49 → ¬ form <+: Grid.keySql peerId := by
    rintro form first ⟨rest, whole⟩
    cases form with
    | nil => simp at first
    | cons c form =>
      have head : (Grid.keySql peerId).head? = some 0x53 := rfl
      rw [← whole, List.cons_append, List.head?_cons] at head
      simp_all
  constructor
  · intro portable
    exact ⟨portable.literals, fun present => select _ (by decide) (portable.front present)⟩
  · rintro ⟨literals, absent⟩
    exact ⟨literals, fun present => absurd present absent,
      fun form => absurd form (select _ (by decide))⟩

/-- The statement of `cookbook_policy_put` keeps its form, which PostgreSQL does not read. -/
theorem translateSql_replace :
    Issued insertPolicy.sql ∧ ascii "INSERT OR REPLACE" <+: translateSql insertPolicy.sql ∧
      ¬ Translates insertPolicy.sql := by
  have member : insertPolicy.sql ∈ constantTexts := by decide +kernel
  have form : ascii "INSERT OR REPLACE" <+: translateSql insertPolicy.sql := by decide +kernel
  refine ⟨.constant member, form, fun translates => translates.plain ?_⟩
  exact List.IsPrefix.trans ⟨ascii " REPLACE", by decide +kernel⟩ form

end Cookbook.Postgres
