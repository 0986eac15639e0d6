import Cookbook.Server.SemverText

/-!
# The texts of version ranges

The documentation lists the forms of a range. The parser skips blanks in front and behind the comma
of bounds, and reads every documented form with numbers, labels and bounds that fit. It also takes
texts outside of the documentation: it looks for a star, a comma and a bracket and ignores what lies
behind them. Outside of these it takes the documented forms only.
-/
namespace Cookbook.Server

open Library.Text

/-! ## Documented forms -/

/-- The opening bracket of bounds. -/
def openBracket (inclusive : Bool) : UInt8 := if inclusive then 0x5B else 0x28

/-- The closing bracket of bounds. -/
def closeBracket (inclusive : Bool) : UInt8 := if inclusive then 0x5D else 0x29

/-- The forms of the documentation. -/
inductive RangeForm
  /-- `1.2.3` -/
  | exact (version : SemverText)
  /-- `^1.2.3` -/
  | caret (version : SemverText)
  /-- `~1.2.3` -/
  | tilde (version : SemverText)
  /-- `*` -/
  | any
  /-- `1.*` -/
  | majorLine (major : Numeral)
  /-- `1.2.*` -/
  | minorLine (major minor : Numeral)
  /-- `[1.0.0,2.0.0)` and its likes. -/
  | bounded (lowerInclusive upperInclusive : Bool) (lower upper : SemverText)

namespace RangeForm

/-- The text of a form, with a gap behind the comma. -/
def text (gap : Bytes) : RangeForm → Bytes
  | exact version => version.text
  | caret version => 0x5E :: version.text
  | tilde version => 0x7E :: version.text
  | any => [star]
  | majorLine major => major.digits ++ [dot, star]
  | minorLine major minor => major.digits ++ dot :: (minor.digits ++ [dot, star])
  | bounded lowerInclusive upperInclusive lower upper =>
    openBracket lowerInclusive ::
      (lower.text ++ comma :: (gap ++ (upper.text ++ [closeBracket upperInclusive])))

/-- The range that a form denotes. -/
def range : RangeForm → Range
  | exact version => .single .exact version.denoted
  | caret version => .single .caret version.denoted
  | tilde version => .single .tilde version.denoted
  | any => .partialVersion (-1) (-1)
  | majorLine major => .partialVersion major.value (-1)
  | minorLine major minor => .partialVersion major.value minor.value
  | bounded lowerInclusive upperInclusive lower upper =>
    ⟨.bounded, lower.denoted, upper.denoted, lowerInclusive, upperInclusive⟩

/-- The numbers fit an `int`, the labels have at most 63 characters and the bounds at most 127. -/
def Fits : RangeForm → Prop
  | exact version => version.Fits
  | caret version => version.Fits
  | tilde version => version.Fits
  | any => True
  | majorLine major => major.value < 2147483648
  | minorLine major minor => major.value < 2147483648 ∧ minor.value < 2147483648
  | bounded _ _ lower upper =>
    (lower.Fits ∧ lower.text.length < 128) ∧ upper.Fits ∧ upper.text.length < 128

end RangeForm

/-- Nothing but white space. -/
def Blank (text : Bytes) : Prop := ∀ c ∈ text, isSpace c = true

theorem blank_nil : Blank [] := fun c member => by cases member

/-- A text writes a form: with white space in front of it and behind the comma of bounds. -/
def RangeForm.Written (form : RangeForm) (text : Bytes) : Prop :=
  ∃ front gap, Blank front ∧ Blank gap ∧ text = front ++ form.text gap

/-! ## What the parser takes -/

/-- A text behind its leading blanks, as the parser takes it. -/
inductive TakenForm
  /-- A version. -/
  | exact (version : VersionForm)
  /-- A version behind a caret. -/
  | caret (version : VersionForm)
  /-- A version behind a tilde. -/
  | tilde (version : VersionForm)
  /-- A star in front of any text. -/
  | star (behind : Bytes)
  /-- A star between any texts. -/
  | starred (before behind : Bytes)
  /-- Two versions between brackets in front of any text. -/
  | bounded (lowerInclusive upperInclusive : Bool) (lower : VersionForm) (gap : Bytes)
    (upper : VersionForm) (behind : Bytes)

/-- The range of a text with a star behind its front. -/
def starRange (before text : Bytes) : Range :=
  match strchr dot before with
  | none => .partialVersion (atoi text) (-1)
  | some behind =>
    if (behind.drop 1) = [] then .partialVersion (atoi text) (-1)
    else .partialVersion (atoi text) (atoi (behind.drop 1))

namespace TakenForm

/-- The text. -/
def text : TakenForm → Bytes
  | exact version => version.text
  | caret version => 0x5E :: version.text
  | tilde version => 0x7E :: version.text
  | star behind => Library.Text.star :: behind
  | starred before behind => before ++ Library.Text.star :: behind
  | bounded lowerInclusive upperInclusive lower gap upper behind =>
    openBracket lowerInclusive ::
      (lower.text ++ comma :: (gap ++ (upper.text ++ closeBracket upperInclusive :: behind)))

/-- What the parser makes of it. -/
def range : TakenForm → Range
  | exact version => .single .exact version.semver
  | caret version => .single .caret version.semver
  | tilde version => .single .tilde version.semver
  | star _ => .partialVersion (-1) (-1)
  | starred before behind => starRange before (before ++ Library.Text.star :: behind)
  | bounded lowerInclusive upperInclusive lower _ upper _ =>
    ⟨.bounded, lower.semver, upper.semver, lowerInclusive, upperInclusive⟩

/-- The characters with which the parser starts a case of its own, and the blanks that it skips. -/
def Leads (c : UInt8) : Prop :=
  isSpace c = true ∨ c = 0x5E ∨ c = 0x7E ∨ c = Library.Text.star ∨ c = 0x5B ∨ c = 0x28

/-- The conditions under which the parser takes a text so. -/
def Taken : TakenForm → Prop
  | exact version => version.Short ∧ Library.Text.star ∉ version.text
  | caret version => version.Short
  | tilde version => version.Short
  | star _ => True
  | starred before _ => before ≠ [] ∧ (∀ c ∈ before.head?, ¬ Leads c) ∧ Library.Text.star ∉ before
  | bounded _ _ lower gap upper _ =>
    (lower.Short ∧ lower.text.length < 128 ∧ comma ∉ lower.text) ∧ Blank gap ∧
      upper.Short ∧ upper.text.length < 128 ∧ 0x29 ∉ upper.text ∧ 0x5D ∉ upper.text

/-- Nothing stands behind the form, its versions keep to the grammar, and in front of a star there
is one number or two. -/
def Clean : TakenForm → Prop
  | exact version => version.Strict
  | caret version => version.Strict
  | tilde version => version.Strict
  | star behind => behind = []
  | starred before behind => behind = [] ∧ ∃ major : Numeral, major.value < 2147483648 ∧
      (before = major.digits ++ [dot] ∨ ∃ minor : Numeral, minor.value < 2147483648 ∧
        before = major.digits ++ dot :: (minor.digits ++ [dot]))
  | bounded _ _ lower _ upper behind => lower.Strict ∧ upper.Strict ∧ behind = []

end TakenForm

/-- A digit opens no case of its own. -/
theorem decimal_leads : ∀ c : UInt8, isDecimal c = true → ¬ TakenForm.Leads c := by
  have all : ∀ c : UInt8, isDecimal c = true → isSpace c = false ∧ c ≠ 0x5E ∧ c ≠ 0x7E ∧
      c ≠ star ∧ c ≠ 0x5B ∧ c ≠ 0x28 := byte_forall (by decide +kernel)
  intro c digit leads
  have other := all c digit
  rcases leads with space | same
  · rw [other.1] at space
    cases space
  · simp_all

/-- A form of a version starts with a digit. -/
theorem VersionForm.text_head (form : VersionForm) :
    ∃ c rest, form.text = c :: rest ∧ isDecimal c = true := by
  obtain ⟨filled, all⟩ := form.numerals form.major (by simp)
  obtain ⟨c, rest, shape⟩ := List.exists_cons_of_ne_nil filled
  refine ⟨c, rest ++ dot :: (form.minor ++ dot :: (form.patch ++ form.labels)), ?_, ?_⟩
  · rw [text, shape, List.cons_append]
  · exact all c (by rw [shape]; exact List.mem_cons_self)

/-- The starred texts. -/
theorem starParse_some {before behind : Bytes} (free : star ∉ before) :
    starParse (before ++ star :: behind) = some (starRange before (before ++ star :: behind)) := by
  have front : (before ++ star :: behind).take
      ((before ++ star :: behind).length - (star :: behind).length) = before := by
    rw [List.length_append, Nat.add_sub_cancel, List.take_left]
  simp only [starParse, strchr_stop before free, Option.map_some, front]
  unfold starRange
  cases strchr dot before <;> rfl

/-- A text without a star is not one of them. -/
theorem starParse_none {text : Bytes} (free : star ∉ text) : starParse text = none := by
  rw [starParse, strchr_none free, Option.map_none]

/-- A text without closing brackets ends in front of the first one. -/
theorem takeWhile_unclosed {text : Bytes} (noRound : 0x29 ∉ text) (noSquare : 0x5D ∉ text)
    (inclusive : Bool) (behind : Bytes) :
    (text ++ closeBracket inclusive :: behind).takeWhile (fun c => c != 0x29 && c != 0x5D) =
      text := by
  refine takeWhile_stop (fun c member => ?_) (by cases inclusive <;> rfl)
  rw [Bool.and_eq_true, bne_iff_ne, bne_iff_ne]
  exact ⟨fun same => noRound (same ▸ member), fun same => noSquare (same ▸ member)⟩

/-- Two versions between brackets. -/
theorem boundedParse_taken {lowerInclusive upperInclusive : Bool} {lower upper : VersionForm}
    {gap behind : Bytes}
    (taken : (TakenForm.bounded lowerInclusive upperInclusive lower gap upper behind).Taken) :
    boundedParse lowerInclusive
        (lower.text ++ comma :: (gap ++ (upper.text ++ closeBracket upperInclusive :: behind))) =
      some ⟨.bounded, lower.semver, upper.semver, lowerInclusive, upperInclusive⟩ := by
  obtain ⟨⟨lowerShort, lowerRoom, noComma⟩, blank, upperShort, upperRoom, noRound, noSquare⟩ := taken
  obtain ⟨c, rest, shape, digit⟩ := upper.text_head
  have skipped : (gap ++ (upper.text ++ closeBracket upperInclusive :: behind)).dropWhile isSpace =
      upper.text ++ closeBracket upperInclusive :: behind := by
    rw [shape, List.cons_append]
    exact dropWhile_stop _ _ blank (decimal_plain c digit).1
  have inside := takeWhile_unclosed noRound noSquare upperInclusive behind
  have closing : (closeBracket upperInclusive == 0x5D) = upperInclusive := by
    cases upperInclusive <;> rfl
  simp only [boundedParse, takeWhile_ne_stop noComma, strchr_stop _ noComma, Option.bind_eq_bind,
    Option.bind_some, if_neg (Nat.not_le.mpr lowerRoom), semverParse_text lowerShort,
    List.drop_succ_cons, List.drop_zero, skipped, inside, List.drop_left, List.head?_cons,
    if_neg (Nat.not_le.mpr upperRoom), semverParse_text upperShort, closing]

/-- A taken form behind blanks is read. -/
theorem rangeParse_taken (form : TakenForm) (taken : form.Taken) {front : Bytes}
    (blank : Blank front) : rangeParse (front ++ form.text) = some form.range := by
  have head : ∀ c rest, form.text = c :: rest → isSpace c = false →
      (front ++ form.text).dropWhile isSpace = c :: rest := by
    intro c rest shape other
    rw [shape]
    exact dropWhile_stop rest c blank other
  cases form with
  | exact version =>
    obtain ⟨c, rest, shape, digit⟩ := version.text_head
    have leads := decimal_leads c digit
    simp only [TakenForm.Leads, not_or] at leads
    rw [rangeParse, head c rest shape (decimal_plain c digit).1]
    simp only [leads, if_false, or_self]
    rw [← shape, starParse_none taken.2, semverParse_text taken.1]
    rfl
  | caret version =>
    rw [rangeParse, head 0x5E version.text rfl (by decide)]
    simp only [if_true, semverParse_text taken]
    rfl
  | tilde version =>
    rw [rangeParse, head 0x7E version.text rfl (by decide)]
    simp only [if_true, semverParse_text taken]
    rfl
  | star behind =>
    rw [rangeParse, head star behind rfl (by decide)]
    rfl
  | starred before behind =>
    obtain ⟨filled, other, free⟩ := taken
    obtain ⟨c, rest, rfl⟩ := List.exists_cons_of_ne_nil filled
    have leads := other c rfl
    simp only [TakenForm.Leads, not_or] at leads
    rw [rangeParse, head c (rest ++ star :: behind) rfl (by simpa using leads.1)]
    simp only [leads, if_false, or_self]
    have starred := @starParse_some (c :: rest) behind free
    rw [List.cons_append] at starred
    rw [starred]
    rfl
  | bounded lowerInclusive upperInclusive lower gap upper behind =>
    have parsed := boundedParse_taken taken
    rw [rangeParse, head (openBracket lowerInclusive) _ rfl (by cases lowerInclusive <;> rfl)]
    cases lowerInclusive <;> exact parsed

/-- Only such bounds are read. -/
theorem boundedParse_some {lowerInclusive : Bool} {text : Bytes} {range : Range}
    (parsed : boundedParse lowerInclusive text = some range) :
    ∃ upperInclusive lower gap upper behind,
      (TakenForm.bounded lowerInclusive upperInclusive lower gap upper behind).Taken ∧
      text = lower.text ++ comma :: (gap ++ (upper.text ++ closeBracket upperInclusive :: behind)) ∧
      (TakenForm.bounded lowerInclusive upperInclusive lower gap upper behind).range = range := by
  simp only [boundedParse, Option.bind_eq_bind, Option.bind_eq_some_iff] at parsed
  obtain ⟨found, search, parsed⟩ := parsed
  obtain ⟨after, rfl, whole, noComma⟩ := strchr_split search
  simp only [List.drop_succ_cons, List.drop_zero] at parsed
  have blanks := List.takeWhile_append_dropWhile (p := isSpace) (l := after)
  have blank : Blank (after.takeWhile isSpace) := fun c member => List.mem_takeWhile_imp member
  split at parsed
  · cases parsed
  rename_i lowerRoom
  simp only [Option.bind_eq_some_iff] at parsed
  obtain ⟨lower, readLower, close, closing, parsed⟩ := parsed
  generalize after.dropWhile isSpace = rest at parsed closing blanks
  have inside : ∀ c ∈ rest.takeWhile (fun c => c != 0x29 && c != 0x5D), c ≠ 0x29 ∧ c ≠ 0x5D := by
    intro c member
    simpa using List.mem_takeWhile_imp member
  have bounds := List.takeWhile_append_dropWhile
    (p := fun c : UInt8 => c != 0x29 && c != 0x5D) (l := rest)
  have stopped := List.head?_dropWhile_not (fun c : UInt8 => c != 0x29 && c != 0x5D) rest
  generalize rest.takeWhile (fun c : UInt8 => c != 0x29 && c != 0x5D) = front
    at parsed closing inside bounds
  generalize rest.dropWhile (fun c : UInt8 => c != 0x29 && c != 0x5D) = tail at bounds stopped
  subst bounds
  rw [List.drop_left] at closing
  obtain ⟨behind, rfl⟩ : ∃ behind, tail = close :: behind := by
    cases tail with
    | nil => cases closing
    | cons c behind => exact ⟨behind, by rw [Option.some.inj closing]⟩
  -- the character behind the second bound is one of the closing brackets
  have bracket : close = closeBracket (close == 0x5D) := by
    have either : close = 0x29 ∨ close = 0x5D := by
      simpa [← or_iff_not_imp_left] using stopped
    rcases either with rfl | rfl <;> rfl
  split at parsed
  · cases parsed
  rename_i upperRoom
  simp only [Option.bind_eq_some_iff, Option.some.injEq] at parsed
  obtain ⟨upper, readUpper, rfl⟩ := parsed
  obtain ⟨lowerForm, lowerText, lowerShort, rfl⟩ := semverParse_some readLower
  obtain ⟨upperForm, upperText, upperShort, rfl⟩ := semverParse_some readUpper
  refine ⟨close == 0x5D, lowerForm, after.takeWhile isSpace, upperForm, behind, ?_, ?_, rfl⟩
  · rw [TakenForm.Taken, lowerText, upperText]
    exact ⟨⟨lowerShort, Nat.not_le.mp lowerRoom, noComma⟩, blank, upperShort,
      Nat.not_le.mp upperRoom, fun member => (inside _ member).1 rfl,
      fun member => (inside _ member).2 rfl⟩
  · rw [lowerText, upperText, ← bracket, blanks]
    exact whole

/-- A text that is read is a taken form behind blanks. -/
theorem rangeParse_some {text : Bytes} {range : Range} (parsed : rangeParse text = some range) :
    ∃ (front : Bytes) (form : TakenForm), Blank front ∧ form.Taken ∧ text = front ++ form.text ∧
      form.range = range := by
  have blanks := List.takeWhile_append_dropWhile (p := isSpace) (l := text)
  have blank : Blank (text.takeWhile isSpace) := fun c member => List.mem_takeWhile_imp member
  have stopped := List.head?_dropWhile_not isSpace text
  suffices found : ∃ form : TakenForm, form.Taken ∧ text.dropWhile isSpace = form.text ∧
      form.range = range by
    obtain ⟨form, taken, same, read⟩ := found
    exact ⟨_, form, blank, taken, by rw [← same, blanks], read⟩
  rw [rangeParse] at parsed
  cases shape : text.dropWhile isSpace with
  | nil =>
    rw [shape] at parsed
    cases parsed
  | cons c rest =>
    rw [shape] at parsed stopped
    simp only at parsed
    by_cases caret : c = 0x5E
    · rw [if_pos caret, Option.map_eq_some_iff] at parsed
      obtain ⟨version, read, rfl⟩ := parsed
      obtain ⟨form, rfl, short, rfl⟩ := semverParse_some read
      exact ⟨.caret form, short, by rw [caret]; rfl, rfl⟩
    by_cases tilde : c = 0x7E
    · rw [if_neg caret, if_pos tilde, Option.map_eq_some_iff] at parsed
      obtain ⟨version, read, rfl⟩ := parsed
      obtain ⟨form, rfl, short, rfl⟩ := semverParse_some read
      exact ⟨.tilde form, short, by rw [tilde]; rfl, rfl⟩
    by_cases lone : c = star
    · rw [if_neg caret, if_neg tilde, if_pos lone] at parsed
      exact ⟨.star rest, trivial, by rw [lone]; rfl, Option.some.inj parsed⟩
    by_cases bracket : c = 0x5B ∨ c = 0x28
    · rw [if_neg caret, if_neg tilde, if_neg lone, if_pos bracket] at parsed
      obtain ⟨upperInclusive, lower, gap, upper, behind, taken, rfl, read⟩ :=
        boundedParse_some parsed
      refine ⟨.bounded (c == 0x5B) upperInclusive lower gap upper behind, taken, ?_, read⟩
      have opening : c = openBracket (c == 0x5B) := by
        rcases bracket with rfl | rfl <;> rfl
      rw [TakenForm.text, ← opening]
    rw [if_neg caret, if_neg tilde, if_neg lone, if_neg bracket] at parsed
    by_cases starred : star ∈ c :: rest
    · obtain ⟨before, behind, whole, free⟩ := List.eq_append_cons_of_mem starred
      rw [whole, starParse_some free] at parsed
      refine ⟨.starred before behind, ⟨?_, ?_, free⟩, whole, Option.some.inj parsed⟩
      · rintro rfl
        exact lone (List.cons.inj whole).1
      · intro first head
        cases before with
        | nil => cases head
        | cons d before =>
          cases head
          rw [← (List.cons.inj whole).1]
          simp only [List.head?_cons] at stopped
          simp only [TakenForm.Leads, not_or, stopped]
          exact ⟨Bool.false_ne_true, caret, tilde, lone, not_or.mp bracket⟩
    · rw [starParse_none starred] at parsed
      simp only [Option.map_eq_some_iff] at parsed
      obtain ⟨version, read, rfl⟩ := parsed
      obtain ⟨form, same, short, rfl⟩ := semverParse_some read
      exact ⟨.exact form, ⟨short, by rwa [same]⟩, same.symm, rfl⟩

/-! ## Documented texts -/

/-- A character that no version of the grammar has. -/
theorem SemverText.text_free (version : SemverText) {c : UInt8} (other : isIdentifierChar c = false)
    (notDot : c ≠ dot) (notPlus : c ≠ plus) : c ∉ version.text := by
  have noDigit : isDecimal c = false := by
    rw [isIdentifierChar, Bool.or_eq_false_iff, Bool.or_eq_false_iff, Bool.or_eq_false_iff] at other
    exact other.1.1.1
  have notHyphen : c ≠ hyphen := by
    rintro rfl
    revert other
    decide
  have numeral (number : Numeral) : c ∉ number.digits := by
    intro member
    rw [number.decimal c member] at noDigit
    cases noDigit
  have label (sign : UInt8) (differs : c ≠ sign) (items : List Bytes)
      (formed : ∀ chars ∈ items, ∀ d ∈ chars, isIdentifierChar d = true) :
      c ∉ signed sign (dotJoined items) := by
    have free : c ∉ dotJoined items := by
      refine intercalate_free notDot fun chars member inside => ?_
      rw [formed chars member c inside] at other
      cases other
    rw [signed]
    split
    · exact List.not_mem_nil
    · simp [differs, free]
  have pre := label hyphen notHyphen (version.preRelease.map (·.chars)) (by
    intro chars member d inside
    obtain ⟨identifier, -, rfl⟩ := List.mem_map.mp member
    exact identifier.formed d inside)
  have build := label plus notPlus (version.buildMeta.map (·.chars)) (by
    intro chars member d inside
    obtain ⟨identifier, -, rfl⟩ := List.mem_map.mp member
    exact identifier.formed d inside)
  simp only [SemverText.text, List.mem_append, List.mem_cons, not_or]
  exact ⟨numeral _, notDot, numeral _, notDot, numeral _, pre, build⟩

/-- A version of the grammar that fits is a form with short labels, and denotes what it is read
as. -/
theorem SemverText.Fits.form {version : SemverText} (fits : version.Fits) :
    version.form.Short ∧ version.form.semver = version.denoted := by
  have short : version.form.Short := ⟨fits.preRelease, fits.buildMeta⟩
  have read := semverParse_text short
  rw [SemverText.form_text, semverParse_grammar fits] at read
  exact ⟨short, (Option.some.inj read).symm⟩

/-- A number in front of a dot is read. -/
theorem Numeral.read {number : Numeral} (small : number.value < 2147483648) (rest : Bytes) :
    atoi (number.digits ++ dot :: rest) = number.value :=
  atoi_digits number.filled number.decimal small fun c head => by cases head; decide

/-- The range of a line of releases. -/
theorem starRange_major {major : Numeral} (small : major.value < 2147483648) (behind : Bytes) :
    starRange (major.digits ++ [dot]) (major.digits ++ dot :: behind) =
      .partialVersion major.value (-1) := by
  have noDot : dot ∉ major.digits := fun member => absurd (major.decimal dot member) (by decide)
  rw [starRange, strchr_stop major.digits noDot, major.read small]
  rfl

/-- The range of a narrower line. -/
theorem starRange_minor {major minor : Numeral} (small : major.value < 2147483648)
    (also : minor.value < 2147483648) (behind : Bytes) :
    starRange (major.digits ++ dot :: (minor.digits ++ [dot]))
        (major.digits ++ dot :: (minor.digits ++ dot :: behind)) =
      .partialVersion major.value minor.value := by
  have noDot : dot ∉ major.digits := fun member => absurd (major.decimal dot member) (by decide)
  have filled : minor.digits ++ [dot] ≠ [] := by simp
  simp only [starRange, strchr_stop major.digits noDot, Numeral.read small, List.drop_succ_cons,
    List.drop_zero, if_neg filled, Numeral.read also]

/-- A documented text that fits is read as what it denotes. -/
theorem rangeParse_written {form : RangeForm} {text : Bytes} (written : form.Written text)
    (fits : form.Fits) : rangeParse text = some form.range := by
  obtain ⟨front, gap, blank, gapBlank, rfl⟩ := written
  have free (version : SemverText) : star ∉ version.text ∧ comma ∉ version.text ∧
      0x29 ∉ version.text ∧ 0x5D ∉ version.text :=
    ⟨version.text_free (by decide) (by decide) (by decide),
      version.text_free (by decide) (by decide) (by decide),
      version.text_free (by decide) (by decide) (by decide),
      version.text_free (by decide) (by decide) (by decide)⟩
  have first (number : Numeral) (behind : Bytes) : number.digits ++ behind ≠ [] ∧
      ∀ c ∈ (number.digits ++ behind).head?, ¬ TakenForm.Leads c := by
    obtain ⟨c, rest, shape⟩ := List.exists_cons_of_ne_nil number.filled
    rw [shape, List.cons_append]
    refine ⟨List.cons_ne_nil _ _, fun d head => ?_⟩
    cases head
    exact decimal_leads c (number.decimal c (by rw [shape]; exact List.mem_cons_self))
  have noStar (number : Numeral) : star ∉ number.digits :=
    fun member => absurd (number.decimal star member) (by decide)
  cases form with
  | exact version =>
    have read := rangeParse_taken (.exact version.form)
      ⟨SemverText.Fits.form fits |>.1, (free version).1⟩ blank
    rw [TakenForm.range, (SemverText.Fits.form fits).2] at read
    exact read
  | caret version =>
    have read := rangeParse_taken (.caret version.form) (SemverText.Fits.form fits).1 blank
    rw [TakenForm.range, (SemverText.Fits.form fits).2] at read
    exact read
  | tilde version =>
    have read := rangeParse_taken (.tilde version.form) (SemverText.Fits.form fits).1 blank
    rw [TakenForm.range, (SemverText.Fits.form fits).2] at read
    exact read
  | any => exact rangeParse_taken (.star []) trivial blank
  | majorLine major =>
    have read := rangeParse_taken (.starred (major.digits ++ [dot]) [])
      ⟨(first major _).1, (first major _).2, by simpa using noStar major⟩ blank
    simp only [TakenForm.range, TakenForm.text, List.append_assoc, List.singleton_append,
      starRange_major fits] at read
    exact read
  | minorLine major minor =>
    have read := rangeParse_taken
      (.starred (major.digits ++ dot :: (minor.digits ++ [dot])) [])
      ⟨(first major _).1, (first major _).2, by simpa using ⟨noStar major, noStar minor⟩⟩ blank
    simp only [TakenForm.range, TakenForm.text, List.append_assoc, List.cons_append,
      starRange_minor fits.1 fits.2] at read
    exact read
  | bounded lowerInclusive upperInclusive lower upper =>
    obtain ⟨⟨lowerFits, lowerRoom⟩, upperFits, upperRoom⟩ := fits
    have read := rangeParse_taken
      (.bounded lowerInclusive upperInclusive lower.form gap upper.form [])
      ⟨⟨lowerFits.form.1, lowerRoom, (free lower).2.1⟩, gapBlank, upperFits.form.1, upperRoom,
        (free upper).2.2⟩ blank
    rw [TakenForm.range, lowerFits.form.2, upperFits.form.2] at read
    exact read

/-- A clean form writes a documented one that fits, with the same range. -/
theorem TakenForm.Clean.documented {taken : TakenForm} (clean : taken.Clean) (holds : taken.Taken)
    {front : Bytes} (blank : Blank front) :
    ∃ form : RangeForm, form.Written (front ++ taken.text) ∧ form.Fits ∧
      form.range = taken.range := by
  cases taken with
  | exact version =>
    obtain ⟨written, rfl, fits⟩ := VersionForm.Strict.grammar clean holds.1
    exact ⟨.exact written, ⟨front, [], blank, blank_nil, rfl⟩, fits,
      by rw [TakenForm.range, fits.form.2, RangeForm.range]⟩
  | caret version =>
    obtain ⟨written, rfl, fits⟩ := VersionForm.Strict.grammar clean holds
    exact ⟨.caret written, ⟨front, [], blank, blank_nil, rfl⟩, fits,
      by rw [TakenForm.range, fits.form.2, RangeForm.range]⟩
  | tilde version =>
    obtain ⟨written, rfl, fits⟩ := VersionForm.Strict.grammar clean holds
    exact ⟨.tilde written, ⟨front, [], blank, blank_nil, rfl⟩, fits,
      by rw [TakenForm.range, fits.form.2, RangeForm.range]⟩
  | star behind =>
    cases clean
    exact ⟨.any, ⟨front, [], blank, blank_nil, rfl⟩, trivial, rfl⟩
  | starred before behind =>
    obtain ⟨rfl, major, small, rfl | ⟨minor, also, rfl⟩⟩ := clean
    · refine ⟨.majorLine major, ⟨front, [], blank, blank_nil, ?_⟩, small, ?_⟩
      · simp [TakenForm.text, RangeForm.text]
      · simp only [TakenForm.range, List.append_assoc, List.singleton_append,
          starRange_major small, RangeForm.range]
    · refine ⟨.minorLine major minor, ⟨front, [], blank, blank_nil, ?_⟩, ⟨small, also⟩, ?_⟩
      · simp [TakenForm.text, RangeForm.text]
      · simp only [TakenForm.range, List.append_assoc, List.cons_append,
          starRange_minor small also, RangeForm.range]
  | bounded lowerInclusive upperInclusive lower gap upper behind =>
    obtain ⟨lowerStrict, upperStrict, rfl⟩ := clean
    obtain ⟨⟨lowerShort, lowerRoom, -⟩, gapBlank, upperShort, upperRoom, -⟩ := holds
    obtain ⟨lower, rfl, lowerFits⟩ := lowerStrict.grammar lowerShort
    obtain ⟨upper, rfl, upperFits⟩ := upperStrict.grammar upperShort
    exact ⟨.bounded lowerInclusive upperInclusive lower upper, ⟨front, gap, blank, gapBlank, rfl⟩,
      ⟨⟨lowerFits, lowerRoom⟩, upperFits, upperRoom⟩,
      by rw [TakenForm.range, lowerFits.form.2, upperFits.form.2, RangeForm.range]⟩

/-- A text that the parser takes in a clean form only is read exactly where it writes a documented
form that fits, and as the range of that form. -/
theorem rangeParse_documented_iff (text : Bytes)
    (clean : ∀ (front : Bytes) (taken : TakenForm), Blank front → taken.Taken →
      text = front ++ taken.text → taken.Clean) (range : Range) :
    rangeParse text = some range ↔
      ∃ form : RangeForm, form.Written text ∧ form.Fits ∧ form.range = range := by
  constructor
  · intro parsed
    obtain ⟨front, taken, blank, holds, rfl, rfl⟩ := rangeParse_some parsed
    exact (clean front taken blank holds rfl).documented holds blank
  · rintro ⟨form, written, fits, rfl⟩
    exact rangeParse_written written fits

/-- An opening bracket leads a range and is neither a blank nor a digit. -/
theorem openBracket_leads (inclusive : Bool) : TakenForm.Leads (openBracket inclusive) ∧
    isSpace (openBracket inclusive) = false ∧ isDecimal (openBracket inclusive) = false := by
  cases inclusive
  · exact ⟨by simp [TakenForm.Leads, openBracket], rfl, rfl⟩
  · exact ⟨by simp [TakenForm.Leads, openBracket], rfl, rfl⟩

/-- Documented bounds that fit are taken in a clean form only. -/
theorem SemverText.Fits.clean {lower upper : SemverText} (lowerFits : lower.Fits)
    (upperFits : upper.Fits) {lowerInclusive upperInclusive : Bool} {front : Bytes}
    {taken : TakenForm} (blank : Blank front) (holds : taken.Taken)
    (whole : (RangeForm.bounded lowerInclusive upperInclusive lower upper).text [] =
      front ++ taken.text) : taken.Clean := by
  have free (version : SemverText) {c : UInt8} (other : isIdentifierChar c = false)
      (notDot : c ≠ dot) (notPlus : c ≠ plus) : c ∉ version.text :=
    version.text_free other notDot notPlus
  have bracket := openBracket_leads lowerInclusive
  have noDigit (version : VersionForm) (rest : Bytes) :
      openBracket lowerInclusive :: rest ≠ version.text := by
    obtain ⟨c, others, shape, digit⟩ := version.text_head
    rw [shape]
    intro same
    rw [← (List.cons.inj same).1, bracket.2.2] at digit
    cases digit
  -- the bracket is no blank, so nothing is skipped
  have none : front = [] := by
    cases front with
    | nil => rfl
    | cons c front =>
      have space := blank c List.mem_cons_self
      rw [← (List.cons.inj whole).1, bracket.2.1] at space
      cases space
  rw [none, List.nil_append, RangeForm.text, List.nil_append] at whole
  cases taken with
  | exact version => exact absurd whole (noDigit version _)
  | caret version => cases lowerInclusive <;> cases whole
  | tilde version => cases lowerInclusive <;> cases whole
  | star behind => cases lowerInclusive <;> cases whole
  | starred before behind =>
    obtain ⟨filled, other, -⟩ := holds
    obtain ⟨c, rest, rfl⟩ := List.exists_cons_of_ne_nil filled
    rw [(List.cons.inj whole).1] at bracket
    exact absurd bracket.1 (other c rfl)
  | bounded otherInclusive closing low gap high behind =>
    obtain ⟨⟨-, -, noComma⟩, gapBlank, -, -, noRound, noSquare⟩ := holds
    have inside := (List.cons.inj whole).2
    have lowSame : low.text = lower.text := by
      rw [← takeWhile_ne_stop noComma, ← inside,
        takeWhile_ne_stop (free lower (by decide) (by decide) (by decide))]
    rw [lowSame] at inside
    have rest := (List.cons.inj (List.append_cancel_left inside)).2
    obtain ⟨c, more, shape, digit⟩ := upper.form.text_head
    obtain ⟨d, others, shown, digits⟩ := high.text_head
    rw [SemverText.form_text] at shape
    have gapless : upper.text ++ [closeBracket upperInclusive] =
        high.text ++ closeBracket closing :: behind := by
      have dropped := congrArg (List.dropWhile isSpace) rest
      rw [shown, List.cons_append, dropWhile_stop _ _ gapBlank (decimal_plain d digits).1, shape,
        List.cons_append, List.dropWhile_cons_of_neg (by simp [(decimal_plain c digit).1])] at dropped
      rw [shape, shown]
      exact dropped
    have highSame : high.text = upper.text := by
      rw [← takeWhile_unclosed noRound noSquare closing behind, ← gapless,
        takeWhile_unclosed (free upper (by decide) (by decide) (by decide))
          (free upper (by decide) (by decide) (by decide))]
    rw [highSame] at gapless
    have ended := (List.cons.inj (List.append_cancel_left gapless)).2
    rw [VersionForm.text_inj (lowSame.trans lower.form_text.symm),
      VersionForm.text_inj (highSame.trans upper.form_text.symm)]
    exact ⟨lower.form_strict lowerFits, upper.form_strict upperFits, ended.symm⟩

/-- 2.0.0 -/
def versionTwo : SemverText := plainVersion "2" "0" "0" (by decide +kernel)

/-- The releases of a major version are read as its first release and the next major version. -/
theorem rangeParse_documented_bounds :
    rangeParse (ascii "[1.0.0,2.0.0)") =
      some ⟨.bounded, ⟨1, 0, 0, [], []⟩, ⟨2, 0, 0, [], []⟩, true, false⟩ := by
  have written : (RangeForm.bounded true false versionOne versionTwo).text [] =
      ascii "[1.0.0,2.0.0)" := by decide +kernel
  have lower : versionOne.Fits := ⟨by decide, by decide, by decide +kernel⟩
  have upper : versionTwo.Fits := ⟨by decide, by decide, by decide +kernel⟩
  refine (rangeParse_documented_iff (ascii "[1.0.0,2.0.0)") ?_ _).mpr
    ⟨.bounded true false versionOne versionTwo, ⟨[], [], blank_nil, blank_nil, written.symm⟩,
      ⟨⟨lower, by decide +kernel⟩, upper, by decide +kernel⟩, rfl⟩
  intro front taken blank holds whole
  exact lower.clean upper blank holds (written.trans whole)

/-- A blank in front of a star is skipped. -/
theorem rangeParse_blank :
    ¬ ∀ (text : Bytes) (range : Range), rangeParse text = some range →
      ∃ form : RangeForm, form.text [] = text ∧ form.range = range := by
  intro documented
  obtain ⟨form, written, -⟩ := documented [space, star] (.partialVersion (-1) (-1)) rfl
  have digit (number : Numeral) (rest : Bytes) : number.digits ++ rest ≠ [space, star] := by
    obtain ⟨c, others, shape⟩ := List.exists_cons_of_ne_nil number.filled
    have decimal := number.decimal c (by rw [shape]; exact List.mem_cons_self)
    rw [shape]
    rintro same
    rw [(List.cons.inj same).1] at decimal
    cases decimal
  cases form with
  | exact version => exact digit version.major _ written
  | caret version => cases written
  | tilde version => cases written
  | any => cases written
  | majorLine major => exact digit major _ written
  | minorLine major minor => exact digit major _ written
  | bounded lowerInclusive upperInclusive lower upper =>
    cases lowerInclusive <;> cases written

end Cookbook.Server
