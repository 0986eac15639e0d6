import Cookbook.Server.Semver
import Mathlib.Data.Set.List

/-!
# Version texts

The parser reads three numerals and two labels, and takes the labels as they stand. The grammar of
SemVer 2.0.0 allows no zeros in front of a number and only identifiers of letters, digits and hyphens in
a label. The parser is right about a text exactly when the text keeps to the grammar and its numbers fit,
or does not even have the parser's form.
-/
namespace Cookbook.Server

open Library.Text

/-! ## What the parser reads -/

/-- The sign in front of a pre-release, and the one in front of the build metadata. -/
abbrev hyphen : UInt8 := 0x2D

/-- The sign in front of the build metadata. -/
abbrev plus : UInt8 := 0x2B

/-- A label behind its sign; nothing without a label. -/
def signed (sign : UInt8) (label : Bytes) : Bytes := if label = [] then [] else sign :: label

/-- A text in the form that the parser reads: three numerals and two labels. -/
structure VersionForm where
  /-- The first numeral. -/
  major : Bytes
  /-- The second numeral. -/
  minor : Bytes
  /-- The third numeral. -/
  patch : Bytes
  /-- The pre-release, empty when there is none. -/
  preRelease : Bytes
  /-- The build metadata, empty when there is none. -/
  buildMeta : Bytes
  /-- The numerals consist of digits. -/
  numerals : ∀ digits ∈ [major, minor, patch], digits ≠ [] ∧ ∀ c ∈ digits, isDecimal c = true
  /-- The pre-release ends in front of the first plus. -/
  ended : plus ∉ preRelease

namespace VersionForm

/-- The labels. -/
def labels (form : VersionForm) : Bytes :=
  signed hyphen form.preRelease ++ signed plus form.buildMeta

/-- The text. -/
def text (form : VersionForm) : Bytes :=
  form.major ++ dot :: (form.minor ++ dot :: (form.patch ++ form.labels))

/-- The labels fit their buffers. -/
def Short (form : VersionForm) : Prop :=
  form.preRelease.length < 64 ∧ form.buildMeta.length < 64

/-- What the parser makes of it. -/
def semver (form : VersionForm) : Semver :=
  ⟨atoi form.major, atoi form.minor, atoi form.patch, form.preRelease, form.buildMeta⟩

end VersionForm

/-- A numeral in front of a text that does not continue it is read. -/
theorem readComponent_digits {digits rest : Bytes} (filled : digits ≠ [])
    (all : ∀ c ∈ digits, isDecimal c = true) (ends : ∀ c ∈ rest.head?, isDecimal c = false) :
    readComponent (digits ++ rest) = some (atoi digits, rest) := by
  obtain ⟨c, others, shape⟩ := List.exists_cons_of_ne_nil filled
  have first : isDecimal c = true := all c (by rw [shape]; exact List.mem_cons_self)
  have value : atoi (digits ++ rest) = atoi digits := by
    have bare : strtoll (digits ++ []) = _ := strtoll_run filled all (fun c head => by cases head)
    rw [List.append_nil] at bare
    rw [atoi, atoi, strtoll_run filled all ends, bare]
  have behind : (digits ++ rest).dropWhile isDecimal = rest := by
    cases rest with
    | nil => rw [List.append_nil, dropWhile_all all]
    | cons d rest => exact dropWhile_stop rest d all (ends d rfl)
  rw [shape] at value behind ⊢
  rw [List.cons_append] at value behind ⊢
  rw [readComponent, if_pos first, value]
  rw [List.dropWhile_cons_of_pos first] at behind
  rw [behind]

/-- What is read as a number is a numeral and the text behind it. -/
theorem readComponent_some {text rest : Bytes} {number : Int}
    (read : readComponent text = some (number, rest)) :
    ∃ digits, text = digits ++ rest ∧ digits ≠ [] ∧ (∀ c ∈ digits, isDecimal c = true) ∧
      (∀ c ∈ rest.head?, isDecimal c = false) := by
  cases text with
  | nil => cases read
  | cons c text =>
    rw [readComponent] at read
    by_cases first : isDecimal c = true
    · rw [if_pos first] at read
      have both := Option.some.inj read
      have behind : text.dropWhile isDecimal = rest := congrArg Prod.snd both
      refine ⟨c :: text.takeWhile isDecimal, ?_, List.cons_ne_nil _ _, ?_, ?_⟩
      · rw [List.cons_append, ← behind, List.takeWhile_append_dropWhile]
      · intro d member
        rcases List.mem_cons.mp member with rfl | inside
        · exact first
        · exact List.mem_takeWhile_imp inside
      · intro d head
        rw [← behind] at head
        have found := List.head?_dropWhile_not isDecimal text
        rw [Option.mem_def.mp head] at found
        simpa using found
    · rw [if_neg first] at read
      cases read

/-- A label that fits is read. -/
theorem readLabel_signed {sign : UInt8} {inside : UInt8 → Bool} {label rest : Bytes}
    (all : ∀ c ∈ label, inside c = true) (short : label.length < 64)
    (ends : ∀ c ∈ rest.head?, inside c = false) (other : ∀ c ∈ rest.head?, c ≠ sign) :
    readLabel sign inside (signed sign label ++ rest) = some (label, rest) := by
  unfold signed
  by_cases empty : label = []
  · rw [if_pos empty, empty, List.nil_append]
    cases rest with
    | nil => rfl
    | cons c rest => rw [readLabel, if_neg (other c rfl)]
  · have run : (label ++ rest).takeWhile inside = label := by
      cases rest with
      | nil => rw [List.append_nil, List.takeWhile_eq_self_iff.mpr all]
      | cons c rest => exact takeWhile_stop all (ends c rfl)
    have behind : (label ++ rest).dropWhile inside = rest := by
      cases rest with
      | nil => rw [List.append_nil, dropWhile_all all]
      | cons c rest => exact dropWhile_stop rest c all (ends c rfl)
    rw [if_neg empty, List.cons_append, readLabel, if_pos rfl]
    simp only [run, behind]
    rw [if_neg (by rintro (none | long); exacts [empty none, by omega])]

/-- What is read as a label stands behind its sign. -/
theorem readLabel_some {sign : UInt8} {inside : UInt8 → Bool} {text label rest : Bytes}
    (read : readLabel sign inside text = some (label, rest)) :
    text = signed sign label ++ rest ∧ (∀ c ∈ label, inside c = true) ∧ label.length < 64 ∧
      (label = [] → ∀ c ∈ text.head?, c ≠ sign) := by
  cases text with
  | nil =>
    cases read
    exact ⟨rfl, nofun, by decide, nofun⟩
  | cons c text =>
    rw [readLabel] at read
    by_cases first : c = sign
    · rw [if_pos first] at read
      simp only at read
      split at read
      · cases read
      · rename_i fits
        simp only [not_or, not_le] at fits
        have both := Option.some.inj read
        have label_eq : text.takeWhile inside = label := congrArg Prod.fst both
        have rest_eq : text.dropWhile inside = rest := congrArg Prod.snd both
        rw [label_eq] at fits
        refine ⟨?_, ?_, fits.2, fun empty => absurd empty fits.1⟩
        · rw [signed, if_neg fits.1, first, List.cons_append, ← label_eq, ← rest_eq,
            List.takeWhile_append_dropWhile]
        · intro d member
          rw [← label_eq] at member
          exact List.mem_takeWhile_imp member
    · rw [if_neg first] at read
      cases read
      refine ⟨rfl, nofun, by decide, ?_⟩
      intro _ d head
      cases head
      exact first

/-- Labels do not start with a digit. -/
theorem VersionForm.labels_head (form : VersionForm) :
    ∀ c ∈ form.labels.head?, isDecimal c = false := by
  intro c head
  unfold labels signed at head
  split_ifs at head with noPre noBuild
  · cases head
  · cases head
    decide
  · cases head
    decide
  · cases head
    decide

/-- A text of the parser's form with short labels is read. -/
theorem semverParse_text {form : VersionForm} (short : form.Short) :
    semverParse form.text = some form.semver := by
  have notDot : isDecimal dot = false := by decide
  have behind : ∀ rest : Bytes, ∀ c ∈ (dot :: rest).head?, isDecimal c = false := by
    intro rest c head
    cases head
    exact notDot
  have major := form.numerals form.major (by simp)
  have minor := form.numerals form.minor (by simp)
  have patch := form.numerals form.patch (by simp)
  have pre : readLabel hyphen (· != plus) form.labels =
      some (form.preRelease, signed plus form.buildMeta) := by
    refine readLabel_signed ?_ short.1 ?_ ?_
    · intro c member
      rw [bne_iff_ne]
      rintro rfl
      exact form.ended member
    · intro c head
      unfold signed at head
      split_ifs at head
      · cases head
      · cases head
        decide
    · intro c head
      unfold signed at head
      split_ifs at head
      · cases head
      · cases head
        decide
  have build : readLabel plus (fun _ => true) (signed plus form.buildMeta) =
      some (form.buildMeta, []) := by
    have read := @readLabel_signed plus (fun _ => true) form.buildMeta [] (fun _ _ => rfl) short.2
      nofun nofun
    rwa [List.append_nil] at read
  simp only [semverParse, VersionForm.text, Option.bind_eq_bind]
  rw [readComponent_digits major.1 major.2 (behind _)]
  simp only [Option.bind_some, behindDot, if_true]
  rw [readComponent_digits minor.1 minor.2 (behind _)]
  simp only [Option.bind_some, if_true]
  rw [readComponent_digits patch.1 patch.2 form.labels_head]
  simp only [Option.bind_some, pre, build, if_true, VersionForm.semver]

/-- Only such texts are read. -/
theorem semverParse_some {text : Bytes} {version : Semver}
    (parsed : semverParse text = some version) :
    ∃ form : VersionForm, form.text = text ∧ form.Short ∧ form.semver = version := by
  have afterDot : ∀ {found rest : Bytes}, behindDot found = some rest → found = dot :: rest := by
    intro found rest behind
    cases found with
    | nil => cases behind
    | cons c found =>
      rw [behindDot] at behind
      split at behind
      · rename_i same
        rw [same, Option.some.inj behind]
      · cases behind
  simp only [semverParse, Option.bind_eq_bind, Option.bind_eq_some_iff] at parsed
  obtain ⟨⟨first, rest1⟩, read1, rest2, dot1, ⟨second, rest3⟩, read2, rest4, dot2, ⟨third, rest5⟩,
    read3, ⟨pre, rest6⟩, label1, ⟨build, rest7⟩, label2, ended⟩ := parsed
  obtain ⟨major, shape1, filled1, all1, -⟩ := readComponent_some read1
  obtain ⟨minor, shape2, filled2, all2, -⟩ := readComponent_some read2
  obtain ⟨patch, shape3, filled3, all3, -⟩ := readComponent_some read3
  obtain ⟨shape4, inside, short1, -⟩ := readLabel_some label1
  obtain ⟨shape5, -, short2, -⟩ := readLabel_some label2
  simp only at dot1 dot2 label1 label2 ended shape1 shape2 shape3 shape4 shape5
  split at ended
  swap
  · cases ended
  rename_i nothing
  let form : VersionForm :=
    { major, minor, patch
      preRelease := pre
      buildMeta := build
      numerals := by
        simp only [List.mem_cons, List.not_mem_nil, or_false, forall_eq_or_imp, forall_eq]
        exact ⟨⟨filled1, all1⟩, ⟨filled2, all2⟩, ⟨filled3, all3⟩⟩
      ended := by
        intro member
        have no := inside plus member
        simp at no }
  have same : form.text = text := by
    rw [shape1, afterDot dot1, shape2, afterDot dot2, shape3, shape4, shape5, nothing]
    simp [form, VersionForm.text, VersionForm.labels]
  refine ⟨form, same, ⟨short1, short2⟩, ?_⟩
  have again := @semverParse_text form ⟨short1, short2⟩
  rw [same] at again
  have whole : semverParse text = some version := by
    simp only [semverParse, Option.bind_eq_bind, Option.bind_eq_some_iff]
    exact ⟨_, read1, _, dot1, _, read2, _, dot2, _, read3, _, label1, _, label2, by
      rw [if_pos nothing]; exact ended⟩
  exact Option.some.inj (again.symm.trans whole)

/-- A text has one form. -/
theorem VersionForm.text_inj {left right : VersionForm} (same : left.text = right.text) :
    left = right := by
  have notDot : isDecimal dot = false := by decide
  have cut : ∀ {digits other rest more : Bytes}, (∀ c ∈ digits, isDecimal c = true) →
      (∀ c ∈ other, isDecimal c = true) → (∀ c ∈ rest.head?, isDecimal c = false) →
      (∀ c ∈ more.head?, isDecimal c = false) → digits ++ rest = other ++ more →
        digits = other ∧ rest = more := by
    intro digits other rest more all also ends stops equal
    have front : digits = other := by
      rw [← takeWhile_decimal all ends, equal, takeWhile_decimal also stops]
    rw [front] at equal
    exact ⟨front, List.append_cancel_left equal⟩
  have behind : ∀ rest : Bytes, ∀ c ∈ (dot :: rest).head?, isDecimal c = false := by
    intro rest c head
    cases head
    exact notDot
  have digits := fun (form : VersionForm) (part : Bytes)
    (member : part ∈ [form.major, form.minor, form.patch]) => (form.numerals part member).2
  have first := cut (digits left left.major (by simp)) (digits right right.major (by simp))
    (behind _) (behind _) same
  have second := cut (digits left left.minor (by simp)) (digits right right.minor (by simp))
    (behind _) (behind _) (List.cons.inj first.2).2
  have third := cut (digits left left.patch (by simp)) (digits right right.patch (by simp))
    left.labels_head right.labels_head (List.cons.inj second.2).2
  -- The pre-release ends at the first plus.
  have pre : ∀ form : VersionForm, form.labels.takeWhile (· != plus) =
      signed hyphen form.preRelease := by
    intro form
    have free : plus ∉ signed hyphen form.preRelease := by
      unfold signed
      split_ifs
      · exact List.not_mem_nil
      · intro member
        rcases List.mem_cons.mp member with wrong | inside
        · exact absurd wrong (by decide)
        · exact form.ended inside
    unfold VersionForm.labels
    by_cases none : form.buildMeta = []
    · rw [none, signed, signed, if_pos rfl, List.append_nil, ← signed]
      exact List.takeWhile_eq_self_iff.mpr (accepts_of_notMem free)
    · rw [signed, signed, if_neg none, ← signed]
      exact takeWhile_ne_stop free
  have unsigned : ∀ {sign : UInt8} {label other : Bytes}, signed sign label = signed sign other →
      label = other := by
    intro sign label other equal
    unfold signed at equal
    split_ifs at equal with none nothing nothing
    · rw [none, nothing]
    · exact (List.cons.inj equal).2
  have preSame : left.preRelease = right.preRelease := by
    apply @unsigned hyphen
    rw [← pre left, ← pre right, third.2]
  have buildSame : left.buildMeta = right.buildMeta := by
    have labels := third.2
    unfold VersionForm.labels at labels
    rw [preSame] at labels
    exact unsigned (List.append_cancel_left labels)
  cases left
  cases right
  simp only at first second third preSame buildSame
  obtain ⟨rfl, -⟩ := first
  obtain ⟨rfl, -⟩ := second
  obtain ⟨rfl, -⟩ := third
  subst preSame buildSame
  rfl

/-! ## The grammar -/

/-- A numeral has no zero in front of another digit. -/
def NoZeroInFront (digits : Bytes) : Prop := digits = [0x30] ∨ digits.head? ≠ some 0x30

/-- A numeric identifier of the grammar. -/
structure Numeral where
  /-- The digits. -/
  digits : Bytes
  /-- There is one. -/
  filled : digits ≠ []
  /-- They are digits. -/
  decimal : ∀ c ∈ digits, isDecimal c = true
  /-- There is no zero in front. -/
  bare : NoZeroInFront digits

/-- The number that a numeral denotes. -/
def Numeral.value (numeral : Numeral) : Nat := readDigits numeral.digits

/-- A character of an identifier: a letter, a digit or a hyphen. -/
def isIdentifierChar (c : UInt8) : Bool :=
  isDecimal c || decide (0x41 ≤ c ∧ c ≤ 0x5A) || decide (0x61 ≤ c ∧ c ≤ 0x7A) || c == hyphen

/-- An identifier of the build metadata. -/
structure Identifier where
  /-- The characters. -/
  chars : Bytes
  /-- There is one. -/
  filled : chars ≠ []
  /-- They are characters of an identifier. -/
  formed : ∀ c ∈ chars, isIdentifierChar c = true

/-- An identifier of a pre-release: where it is a number, it has no zero in front. -/
structure PreIdentifier extends Identifier where
  /-- There is no zero in front of a number. -/
  bare : (∀ c ∈ chars, isDecimal c = true) → NoZeroInFront chars

/-- Identifiers with dots between them. -/
def dotJoined (identifiers : List Bytes) : Bytes := [dot].intercalate identifiers

/-- A version of the grammar. -/
structure SemverText where
  /-- The first number. -/
  major : Numeral
  /-- The second number. -/
  minor : Numeral
  /-- The third number. -/
  patch : Numeral
  /-- The identifiers of the pre-release. -/
  preRelease : List PreIdentifier
  /-- The identifiers of the build metadata. -/
  buildMeta : List Identifier

namespace SemverText

/-- The text of the pre-release. -/
def preText (version : SemverText) : Bytes := dotJoined (version.preRelease.map (·.chars))

/-- The text of the build metadata. -/
def buildText (version : SemverText) : Bytes := dotJoined (version.buildMeta.map (·.chars))

/-- The text of a version. -/
def text (version : SemverText) : Bytes :=
  version.major.digits ++ dot :: (version.minor.digits ++ dot :: (version.patch.digits ++
    (signed hyphen version.preText ++ signed plus version.buildText)))

/-- The labels have at most 63 characters and the numbers fit an `int`. -/
structure Fits (version : SemverText) : Prop where
  /-- The pre-release. -/
  preRelease : version.preText.length < 64
  /-- The build metadata. -/
  buildMeta : version.buildText.length < 64
  /-- The numbers. -/
  numbers : ∀ numeral ∈ [version.major, version.minor, version.patch],
    numeral.value < 2147483648

/-- The numbers that the numerals denote and the texts of the labels. -/
def denoted (version : SemverText) : Semver :=
  ⟨version.major.value, version.minor.value, version.patch.value, version.preText,
    version.buildText⟩

end SemverText

namespace Identifier

/-- No identifier holds a dot or a plus. -/
theorem free (identifier : Identifier) : dot ∉ identifier.chars ∧ plus ∉ identifier.chars := by
  constructor
  · intro member
    exact absurd (identifier.formed dot member) (by decide)
  · intro member
    exact absurd (identifier.formed plus member) (by decide)

end Identifier

namespace SemverText

variable (version : SemverText)

/-- The identifiers of the build metadata without a dot in them. -/
theorem buildMeta_free : ∀ chars ∈ version.buildMeta.map (·.chars), dot ∉ chars := by
  intro chars member
  obtain ⟨identifier, -, rfl⟩ := List.mem_map.mp member
  exact identifier.free.1

/-- The identifiers of the pre-release hold no dot and no plus. -/
theorem preRelease_free :
    ∀ chars ∈ version.preRelease.map (·.chars), dot ∉ chars ∧ plus ∉ chars := by
  intro chars member
  obtain ⟨identifier, -, rfl⟩ := List.mem_map.mp member
  exact identifier.toIdentifier.free

/-- The parts of a version of the grammar. -/
def form : VersionForm where
  major := version.major.digits
  minor := version.minor.digits
  patch := version.patch.digits
  preRelease := version.preText
  buildMeta := version.buildText
  numerals := by
    simp only [List.mem_cons, List.not_mem_nil, or_false, forall_eq_or_imp, forall_eq]
    exact ⟨⟨version.major.filled, version.major.decimal⟩,
      ⟨version.minor.filled, version.minor.decimal⟩,
      ⟨version.patch.filled, version.patch.decimal⟩⟩
  ended := intercalate_free (by decide) fun chars member => (version.preRelease_free chars member).2

/-- They make up its text. -/
theorem form_text : version.form.text = version.text := rfl

end SemverText

/-- A version with three numerals and nothing else. -/
def plainVersion (major minor patch : String)
    (formed : ∀ digits ∈ [ascii major, ascii minor, ascii patch],
      digits ≠ [] ∧ (∀ c ∈ digits, isDecimal c = true) ∧
        (digits = [0x30] ∨ digits.head? ≠ some 0x30)) : SemverText where
  major :=
    have part := formed (ascii major) (by simp)
    ⟨ascii major, part.1, part.2.1, part.2.2⟩
  minor :=
    have part := formed (ascii minor) (by simp)
    ⟨ascii minor, part.1, part.2.1, part.2.2⟩
  patch :=
    have part := formed (ascii patch) (by simp)
    ⟨ascii patch, part.1, part.2.1, part.2.2⟩
  preRelease := []
  buildMeta := []

/-- 1.0.0 -/
def versionOne : SemverText := plainVersion "1" "0" "0" (by decide +kernel)

/-! ## Where the parser is right -/

/-- A label of identifiers: none at all, or each of them filled and of their characters only. -/
def Identified (label : Bytes) : Prop :=
  label = [] ∨ ∀ chars ∈ label.splitOn dot, chars ≠ [] ∧ ∀ c ∈ chars, isIdentifierChar c = true

/-- The text keeps to the grammar, and its numbers fit. -/
structure VersionForm.Strict (form : VersionForm) : Prop where
  /-- The numerals have no zero in front, and the numbers fit an `int`. -/
  numbers : ∀ digits ∈ [form.major, form.minor, form.patch],
    NoZeroInFront digits ∧ readDigits digits < 2147483648
  /-- The pre-release consists of identifiers. -/
  preRelease : Identified form.preRelease
  /-- Those of its identifiers that are numbers have no zero in front. -/
  bare : form.preRelease = [] ∨ ∀ chars ∈ form.preRelease.splitOn dot,
    (∀ c ∈ chars, isDecimal c = true) → NoZeroInFront chars
  /-- The build metadata consists of identifiers. -/
  buildMeta : Identified form.buildMeta

/-- A label of joined identifiers is one of identifiers. -/
theorem splitOn_dotJoined {identifiers : List Bytes} (free : ∀ chars ∈ identifiers, dot ∉ chars)
    (some : identifiers ≠ []) : (dotJoined identifiers).splitOn dot = identifiers :=
  List.splitOn_intercalate dot free some

/-- The parts of a version of the grammar keep to it when the numbers fit. -/
theorem SemverText.form_strict {version : SemverText} (fits : version.Fits) :
    version.form.Strict := by
  have pieces : version.preText = [] ∨
      version.preText.splitOn dot = version.preRelease.map (·.chars) := by
    by_cases none : version.preRelease.map (·.chars) = []
    · left
      rw [SemverText.preText, none]
      rfl
    · exact Or.inr (splitOn_dotJoined (fun chars member =>
        (version.preRelease_free chars member).1) none)
  refine ⟨?_, ?_, ?_, ?_⟩
  · have numbers := fits.numbers
    simp only [List.mem_cons, List.not_mem_nil, or_false, forall_eq_or_imp, forall_eq]
      at numbers ⊢
    exact ⟨⟨version.major.bare, numbers.1⟩, ⟨version.minor.bare, numbers.2.1⟩,
      ⟨version.patch.bare, numbers.2.2⟩⟩
  · refine pieces.imp_right fun split chars member => ?_
    have member : chars ∈ version.preRelease.map (·.chars) := split ▸ member
    obtain ⟨identifier, -, rfl⟩ := List.mem_map.mp member
    exact ⟨identifier.filled, identifier.formed⟩
  · refine pieces.imp_right fun split chars member => ?_
    have member : chars ∈ version.preRelease.map (·.chars) := split ▸ member
    obtain ⟨identifier, -, rfl⟩ := List.mem_map.mp member
    exact identifier.bare
  · by_cases none : version.buildMeta.map (·.chars) = []
    · left
      show dotJoined _ = []
      rw [none]
      rfl
    · right
      intro chars member
      have split : version.buildText.splitOn dot = version.buildMeta.map (·.chars) :=
        splitOn_dotJoined version.buildMeta_free none
      have member : chars ∈ version.buildMeta.map (·.chars) := split ▸ member
      obtain ⟨identifier, -, rfl⟩ := List.mem_map.mp member
      exact ⟨identifier.filled, identifier.formed⟩

/-- A list of texts is the list of the texts of structures when each of them is the text of one. -/
theorem exists_map_eq {α : Type} (text : α → Bytes) (items : List Bytes)
    (all : ∀ item ∈ items, ∃ structured, text structured = item) :
    ∃ structures : List α, structures.map text = items := by
  have covered : items ∈ Set.range (List.map text) := by
    rw [Set.range_list_map]
    exact all
  exact covered

/-- A text that keeps to the grammar is one of it. -/
theorem VersionForm.Strict.grammar {form : VersionForm} (strict : form.Strict)
    (short : form.Short) : ∃ version : SemverText, version.form = form ∧ version.Fits := by
  have numerals := form.numerals
  have numbers := strict.numbers
  simp only [List.mem_cons, List.not_mem_nil, or_false, forall_eq_or_imp, forall_eq]
    at numerals numbers
  obtain ⟨preRelease, preText⟩ : ∃ identifiers : List PreIdentifier,
      dotJoined (identifiers.map (·.chars)) = form.preRelease := by
    by_cases none : form.preRelease = []
    · exact ⟨[], none.symm⟩
    · obtain ⟨identifiers, split⟩ := exists_map_eq
        (fun identifier : PreIdentifier => identifier.chars) (form.preRelease.splitOn dot)
        fun item member => by
          have formed := strict.preRelease.resolve_left none item member
          exact ⟨⟨⟨item, formed.1, formed.2⟩, strict.bare.resolve_left none item member⟩, rfl⟩
      exact ⟨identifiers, by rw [split]; exact List.intercalate_splitOn dot⟩
  obtain ⟨buildMeta, buildText⟩ : ∃ identifiers : List Identifier,
      dotJoined (identifiers.map (·.chars)) = form.buildMeta := by
    by_cases none : form.buildMeta = []
    · exact ⟨[], none.symm⟩
    · obtain ⟨identifiers, split⟩ := exists_map_eq
        (fun identifier : Identifier => identifier.chars) (form.buildMeta.splitOn dot)
        fun item member => by
          have formed := strict.buildMeta.resolve_left none item member
          exact ⟨⟨item, formed.1, formed.2⟩, rfl⟩
      exact ⟨identifiers, by rw [split]; exact List.intercalate_splitOn dot⟩
  refine ⟨⟨⟨form.major, numerals.1.1, numerals.1.2, numbers.1.1⟩,
    ⟨form.minor, numerals.2.1.1, numerals.2.1.2, numbers.2.1.1⟩,
    ⟨form.patch, numerals.2.2.1, numerals.2.2.2, numbers.2.2.1⟩, preRelease, buildMeta⟩, ?_, ?_⟩
  · cases form
    simp only [SemverText.form, SemverText.preText, SemverText.buildText, preText, buildText]
  · refine ⟨?_, ?_, ?_⟩
    · rw [SemverText.preText, preText]
      exact short.1
    · rw [SemverText.buildText, buildText]
      exact short.2
    · simp only [List.mem_cons, List.not_mem_nil, or_false, forall_eq_or_imp, forall_eq]
      exact ⟨numbers.1.2, numbers.2.1.2, numbers.2.2.2⟩

/-- A version of the grammar that fits is read as what it denotes. -/
theorem semverParse_grammar {version : SemverText} (fits : version.Fits) :
    semverParse version.text = some version.denoted := by
  have value : ∀ numeral : Numeral, numeral.value < 2147483648 →
      atoi numeral.digits = numeral.value := by
    intro numeral small
    have read := @atoi_digits _ [] numeral.filled numeral.decimal small nofun
    rwa [List.append_nil] at read
  have numbers := fits.numbers
  simp only [List.mem_cons, List.not_mem_nil, or_false, forall_eq_or_imp, forall_eq] at numbers
  have parsed := @semverParse_text version.form ⟨fits.preRelease, fits.buildMeta⟩
  rw [SemverText.form_text] at parsed
  rw [parsed, VersionForm.semver]
  simp only [SemverText.form, value _ numbers.1, value _ numbers.2.1, value _ numbers.2.2]
  rfl

/-- `validate_version` -/
def validateVersion (text : Bytes) : Bool :=
  decide (text ≠ []) && decide (text.length ≤ 64) && (semverParse text).isSome

/-- The parser is right about a text: it takes exactly the versions of the grammar with short labels and
numbers that fit, reads what they denote, and lets nothing else through to a path. -/
structure ParsesSemver (text : Bytes) : Prop where
  /-- What is accepted. -/
  accepted : (semverParse text).isSome = true ↔
    ∃ version : SemverText, version.text = text ∧ version.Fits
  /-- What is returned. -/
  read : ∀ version : SemverText, version.text = text → version.Fits →
    semverParse text = some version.denoted
  /-- What is let through. -/
  validated : validateVersion text = true → ∃ version : SemverText, version.text = text

/-- The parser is right about a text exactly when the text keeps to the grammar, or is none of the
parser's form with short labels. -/
theorem parsesSemver_iff (text : Bytes) :
    ParsesSemver text ↔
      ∀ form : VersionForm, form.text = text → form.Short → form.Strict := by
  constructor
  · intro right form same short
    have parsed : (semverParse text).isSome = true := by
      rw [← same, semverParse_text short]
      rfl
    obtain ⟨version, written, fits⟩ := right.accepted.mp parsed
    have parts : version.form = form :=
      VersionForm.text_inj ((SemverText.form_text version).trans (written.trans same.symm))
    rw [← parts]
    exact SemverText.form_strict fits
  · intro strict
    have grammar : (semverParse text).isSome = true →
        ∃ version : SemverText, version.text = text ∧ version.Fits := by
      intro parsed
      obtain ⟨version, found⟩ := Option.isSome_iff_exists.mp parsed
      obtain ⟨form, same, short, -⟩ := semverParse_some found
      obtain ⟨written, parts, fits⟩ := (strict form same short).grammar short
      exact ⟨written, by rw [← SemverText.form_text, parts, same], fits⟩
    have read : ∀ version : SemverText, version.text = text → version.Fits →
        semverParse text = some version.denoted := by
      intro version same fits
      rw [← same]
      exact semverParse_grammar fits
    refine ⟨⟨grammar, ?_⟩, read, ?_⟩
    · rintro ⟨version, same, fits⟩
      rw [read version same fits]
      rfl
    · intro validated
      rw [validateVersion, Bool.and_eq_true] at validated
      obtain ⟨version, same, -⟩ := grammar validated.2
      exact ⟨version, same⟩

/-- A zero in front of the first number is accepted and let through. -/
theorem semverParse_zeroInFront :
    ¬ParsesSemver (ascii "01.0.0") := by
  intro right
  obtain ⟨version, same⟩ := right.validated (by decide +kernel)
  let loose : VersionForm :=
    { major := ascii "01", minor := ascii "0", patch := ascii "0", preRelease := [], buildMeta := []
      numerals := by decide +kernel
      ended := List.not_mem_nil }
  have parts : version.form = loose :=
    VersionForm.text_inj ((SemverText.form_text version).trans (same.trans (by decide +kernel)))
  have bare := version.major.bare
  rw [show version.major.digits = ascii "01" from congrArg VersionForm.major parts] at bare
  rcases bare with wrong | wrong
  · exact absurd wrong (by decide +kernel)
  · exact wrong (by decide +kernel)

end Cookbook.Server
