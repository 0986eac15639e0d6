import Cookbook.Server.Precedence

/-!
# Ranges as intervals

The range check compares numbers case by case. For versions whose numbers fit an `int` it is membership
in an interval of the comparison, with the releases of a line for the wildcards. Only the bounded ranges
let a pre-release in whose numbers are those of no bound.
-/
namespace Cookbook.Server

open Library.Text Library.Decisions

/-! ## The comparison of numbers -/

/-- The numbers of one version stand in front of those of another one. -/
def NumbersBelow (left right : Semver) : Prop :=
  left.major < right.major ∨ left.major = right.major ∧ (left.minor < right.minor ∨
    left.minor = right.minor ∧ left.patch < right.patch)

/-- The numbers of two versions are the same. -/
def SameNumbers (left right : Semver) : Prop :=
  left.major = right.major ∧ left.minor = right.minor ∧ left.patch = right.patch

/-- The test of the code. -/
theorem sameNumbers_iff (left right : Semver) :
    sameNumbers left right = true ↔ SameNumbers left right := by
  simp [sameNumbers, SameNumbers, and_assoc]

/-- The numbers of a version are at most 2^31. -/
structure Semver.Within (version : Semver) : Prop where
  /-- The first one. -/
  major : 0 ≤ version.major ∧ version.major ≤ 2147483648
  /-- The second one. -/
  minor : 0 ≤ version.minor ∧ version.minor ≤ 2147483648
  /-- The third one. -/
  patch : 0 ≤ version.patch ∧ version.patch ≤ 2147483648

/-- So are those that fit an `int`. -/
theorem Semver.Small.within {version : Semver} (small : version.Small) : version.Within :=
  ⟨⟨small.major.1, small.major.2.le⟩, ⟨small.minor.1, small.minor.2.le⟩,
    ⟨small.patch.1, small.patch.2.le⟩⟩

/-- A version is below one whose numbers do not leave the range by more than one step when its numbers
are, or they are the same and its pre-release is below. -/
theorem semverCompare_neg_iff {left right : Semver} (small : left.Small) (within : right.Within) :
    semverCompare left right < 0 ↔ NumbersBelow left right ∨
      SameNumbers left right ∧ comparePre left.preRelease right.preRelease < 0 := by
  have plain : ∀ {one other : Int}, 0 ≤ one ∧ one < 2147483648 → 0 ≤ other ∧ other ≤ 2147483648 →
      difference one other = one - other := fun here there =>
    Int.bmod_eq_of_le (by omega) (by omega)
  unfold semverCompare NumbersBelow SameNumbers
  rw [plain small.major within.major, plain small.minor within.minor,
    plain small.patch within.patch]
  split_ifs <;> omega

/-! ## Ranges and what they mean -/

/-- A version whose numbers fit an `int`. -/
structure IntVersion extends Semver where
  /-- They do. -/
  small : toSemver.Small

namespace IntVersion

/-- The first release of the next major line. -/
def nextMajor (version : IntVersion) : Semver := ⟨version.major + 1, 0, 0, [], []⟩

/-- The first release of the next minor line. -/
def nextMinor (version : IntVersion) : Semver := ⟨version.major, version.minor + 1, 0, [], []⟩

/-- The next release of the same minor line. -/
def nextPatch (version : IntVersion) : Semver :=
  ⟨version.major, version.minor, version.patch + 1, [], []⟩

/-- The next lines of a version, and its next release, do not leave the range by more than one step. -/
theorem next_within (version : IntVersion) :
    version.nextMajor.Within ∧ version.nextMinor.Within ∧ version.nextPatch.Within := by
  obtain ⟨major, minor, patch⟩ := version.small
  have zero : (0 : Int) ≤ 0 ∧ (0 : Int) ≤ 2147483648 := by decide
  have next : ∀ {number : Int}, 0 ≤ number ∧ number < 2147483648 →
      0 ≤ number + 1 ∧ number + 1 ≤ 2147483648 := fun small => by omega
  exact ⟨⟨next major, zero, zero⟩,
    ⟨⟨major.1, major.2.le⟩, next minor, zero⟩,
    ⟨⟨major.1, major.2.le⟩, ⟨minor.1, minor.2.le⟩, next patch⟩⟩

/-- They stand behind it. -/
theorem next_ahead (version : IntVersion) :
    NumbersBelow version.toSemver version.nextMajor ∧
      NumbersBelow version.toSemver version.nextMinor ∧
      NumbersBelow version.toSemver version.nextPatch :=
  ⟨.inl (Int.lt_succ _), .inr ⟨rfl, .inl (Int.lt_succ _)⟩,
    .inr ⟨rfl, .inr ⟨rfl, Int.lt_succ _⟩⟩⟩

/-- The end of a caret range. -/
def caretEnd (version : IntVersion) : Semver :=
  if version.major ≠ 0 then version.nextMajor
  else if version.minor ≠ 0 then version.nextMinor
  else version.nextPatch

end IntVersion

/-- The number of a line. -/
structure IntNumber where
  /-- The number. -/
  number : Int
  /-- It fits an `int`. -/
  small : 0 ≤ number ∧ number < 2147483648

/-- The ranges. -/
inductive VersionRange
  /-- Exactly one version. -/
  | exact (version : IntVersion)
  /-- A caret in front of a version. -/
  | caret (version : IntVersion)
  /-- A tilde in front of a version. -/
  | tilde (version : IntVersion)
  /-- A star. -/
  | star
  /-- A star behind a major number. -/
  | majorLine (major : IntNumber)
  /-- A star behind a major and a minor number. -/
  | minorLine (major minor : IntNumber)
  /-- Two bounds, and whether each of them is inside. -/
  | bounded (lower upper : IntVersion) (lowerInclusive upperInclusive : Bool)

namespace VersionRange

/-- The range as the code has it. -/
def range : VersionRange → Range
  | exact version => .single .exact version.toSemver
  | caret version => .single .caret version.toSemver
  | tilde version => .single .tilde version.toSemver
  | star => .partialVersion (-1) (-1)
  | majorLine major => .partialVersion major.number (-1)
  | minorLine major minor => .partialVersion major.number minor.number
  | bounded lower upper lowerInclusive upperInclusive =>
    ⟨.bounded, lower.toSemver, upper.toSemver, lowerInclusive, upperInclusive⟩

/-- A bound in front of a version. -/
def From (inclusive : Bool) (bound version : Semver) : Prop :=
  if inclusive then 0 ≤ semverCompare version bound else 0 < semverCompare version bound

/-- A bound behind a version. -/
def UpTo (inclusive : Bool) (bound version : Semver) : Prop :=
  if inclusive then semverCompare version bound ≤ 0 else semverCompare version bound < 0

/-- The versions of an interval from a version on, with its own pre-releases only. -/
def Interval (version : IntVersion) (ends : Semver) (x : Semver) : Prop :=
  From true version.toSemver x ∧ UpTo false ends x ∧
    (x.preRelease ≠ [] → SameNumbers x version.toSemver)

/-- The releases of an interval. -/
def Releases (first ends : Semver) (x : Semver) : Prop :=
  From true first x ∧ UpTo false ends x ∧ x.preRelease = []

/-- The versions that a range means. -/
def Contains : VersionRange → Semver → Prop
  | exact version, x => semverCompare version.toSemver x = 0
  | caret version, x => Interval version version.caretEnd x
  | tilde version, x => Interval version version.nextMinor x
  | star, x => x.preRelease = []
  | majorLine major, x => Releases ⟨major.number, 0, 0, [], []⟩ ⟨major.number + 1, 0, 0, [], []⟩ x
  | minorLine major minor, x =>
    Releases ⟨major.number, minor.number, 0, [], []⟩ ⟨major.number, minor.number + 1, 0, [], []⟩ x
  | bounded lower upper lowerInclusive upperInclusive, x =>
    From lowerInclusive lower.toSemver x ∧ UpTo upperInclusive upper.toSemver x

end VersionRange

/-- A version is below a release when its numbers are, where a pre-release is so anyway. -/
theorem below_release_iff {x ends : Semver} (small : x.Small) (within : ends.Within)
    (release : ends.preRelease = []) (own : x.preRelease ≠ [] → NumbersBelow x ends) :
    semverCompare x ends < 0 ↔ NumbersBelow x ends := by
  rw [semverCompare_neg_iff small within]
  refine ⟨?_, Or.inl⟩
  rintro (below | ⟨-, pre⟩)
  · exact below
  · by_cases none : x.preRelease = []
    · rw [none, release] at pre
      exact absurd pre (by decide)
    · exact own none

/-- A range from a version on is an interval, where its line is what the end says it is. -/
theorem interval_iff {version x : IntVersion} {ends : Semver} {line : Prop} (within : ends.Within)
    (release : ends.preRelease = []) (ahead : NumbersBelow version.toSemver ends)
    (means : ¬NumbersBelow x.toSemver version.toSemver → (NumbersBelow x.toSemver ends ↔ line)) :
    VersionRange.Interval version ends x.toSemver ↔
      ¬semverCompare x.toSemver version.toSemver < 0 ∧
        (x.preRelease = [] ∨ SameNumbers x.toSemver version.toSemver) ∧ line := by
  have own : (x.preRelease = [] ∨ SameNumbers x.toSemver version.toSemver) →
      (semverCompare x.toSemver ends < 0 ↔ NumbersBelow x.toSemver ends) := by
    intro inside
    refine below_release_iff x.small within release fun pre => ?_
    have same := inside.resolve_left pre
    unfold SameNumbers at same
    unfold NumbersBelow at ahead ⊢
    omega
  have reached : ¬semverCompare x.toSemver version.toSemver < 0 →
      ¬NumbersBelow x.toSemver version.toSemver := by
    intro above below
    exact above ((semverCompare_neg_iff x.small version.small.within).mpr (Or.inl below))
  unfold VersionRange.Interval VersionRange.From VersionRange.UpTo
  simp only [↓reduceIte, Bool.false_eq_true]
  constructor
  · rintro ⟨above, below, pre⟩
    have inside : x.preRelease = [] ∨ SameNumbers x.toSemver version.toSemver := by
      by_cases none : x.preRelease = []
      · exact Or.inl none
      · exact Or.inr (pre none)
    exact ⟨not_lt.mpr above, inside,
      (means (reached (not_lt.mpr above))).mp ((own inside).mp below)⟩
  · rintro ⟨above, inside, here⟩
    exact ⟨not_lt.mp above, (own inside).mpr ((means (reached above)).mpr here),
      fun pre => inside.resolve_left pre⟩

/-- The releases of a line are an interval. -/
theorem releases_iff {x : IntVersion} {first ends : Semver} {line : Prop} (from' : first.Within)
    (within : ends.Within) (start : first.preRelease = []) (release : ends.preRelease = [])
    (means : ¬NumbersBelow x.toSemver first ∧ NumbersBelow x.toSemver ends ↔ line) :
    VersionRange.Releases first ends x.toSemver ↔ x.preRelease = [] ∧ line := by
  unfold VersionRange.Releases VersionRange.From VersionRange.UpTo
  simp only [↓reduceIte, Bool.false_eq_true]
  rw [← means]
  constructor
  · rintro ⟨above, below, none⟩
    have noPre : x.preRelease ≠ [] → False := fun pre => pre none
    rw [below_release_iff x.small within release fun pre => (noPre pre).elim] at below
    refine ⟨none, fun under => ?_, below⟩
    rw [← below_release_iff x.small from' start fun pre => (noPre pre).elim] at under
    omega
  · rintro ⟨none, above, below⟩
    have noPre : x.preRelease ≠ [] → False := fun pre => pre none
    refine ⟨?_, ?_, none⟩
    · rw [← below_release_iff x.small from' start fun pre => (noPre pre).elim] at above
      omega
    · rw [below_release_iff x.small within release fun pre => (noPre pre).elim]
      exact below

/-- The test for pre-releases. -/
theorem preTest_iff (x version : Semver) :
    (!(x.preRelease != []) || sameNumbers x version) = true ↔
      x.preRelease = [] ∨ SameNumbers x version := by
  rw [Bool.or_eq_true, sameNumbers_iff]
  simp

/-- What a caret range accepts. -/
theorem rangeSatisfies_caret (lower x : Semver) :
    rangeSatisfies (.single .caret lower) x = true ↔ ¬semverCompare x lower < 0 ∧
      (x.preRelease = [] ∨ SameNumbers x lower) ∧
      (if lower.major ≠ 0 then x.major = lower.major
        else if lower.minor ≠ 0 then x.major = 0 ∧ x.minor = lower.minor
        else x.major = 0 ∧ x.minor = 0 ∧ x.patch = lower.patch) := by
  show (!decide (semverCompare x lower < 0) && (!(x.preRelease != []) || sameNumbers x lower) &&
    if lower.major ≠ 0 then x.major == lower.major
    else if lower.minor ≠ 0 then x.major == 0 && x.minor == lower.minor
    else x.major == 0 && x.minor == 0 && x.patch == lower.patch) = true ↔ _
  rw [Bool.and_eq_true, Bool.and_eq_true, preTest_iff, and_assoc]
  refine and_congr (by simp) (and_congr Iff.rfl ?_)
  split_ifs <;> simp [and_assoc]

/-- What a tilde range accepts. -/
theorem rangeSatisfies_tilde (lower x : Semver) :
    rangeSatisfies (.single .tilde lower) x = true ↔ ¬semverCompare x lower < 0 ∧
      (x.preRelease = [] ∨ SameNumbers x lower) ∧
      x.major = lower.major ∧ x.minor = lower.minor := by
  show (!decide (semverCompare x lower < 0) && (!(x.preRelease != []) || sameNumbers x lower) &&
    x.major == lower.major && x.minor == lower.minor) = true ↔ _
  rw [Bool.and_eq_true, Bool.and_eq_true, Bool.and_eq_true, preTest_iff, and_assoc, and_assoc]
  exact and_congr (by simp) (and_congr Iff.rfl (by simp))

/-- What a wildcard accepts. -/
theorem rangeSatisfies_wildcard (major minor : Int) (x : Semver) :
    rangeSatisfies (.partialVersion major minor) x = true ↔ x.preRelease = [] ∧
      (major = -1 ∨ x.major = major ∧ (minor = -1 ∨ x.minor = minor)) := by
  show (!(x.preRelease != []) && (major == -1 || (x.major == major &&
    (minor == -1 || x.minor == minor)))) = true ↔ _
  simp

/-- What two bounds accept. -/
theorem rangeSatisfies_bounded (lower upper x : Semver) (lowerInclusive upperInclusive : Bool) :
    rangeSatisfies ⟨.bounded, lower, upper, lowerInclusive, upperInclusive⟩ x = true ↔
      VersionRange.From lowerInclusive lower x ∧ VersionRange.UpTo upperInclusive upper x := by
  show ((if lowerInclusive then decide (0 ≤ semverCompare x lower)
      else decide (0 < semverCompare x lower)) &&
    (if upperInclusive then decide (semverCompare x upper ≤ 0)
      else decide (semverCompare x upper < 0))) = true ↔ _
  cases lowerInclusive <;> cases upperInclusive <;>
    simp [VersionRange.From, VersionRange.UpTo]

/-- A caret range is the interval up to the next version of its first number that is not zero. -/
theorem caret_iff (version x : IntVersion) :
    rangeSatisfies (VersionRange.caret version).range x.toSemver = true ↔
      VersionRange.Interval version version.caretEnd x.toSemver := by
  obtain ⟨xMajor, xMinor, xPatch⟩ := x.small
  obtain ⟨major, minor, patch⟩ := version.small
  have within := version.next_within
  have ahead := version.next_ahead
  rw [VersionRange.range, rangeSatisfies_caret]
  symm
  -- The first number that is not zero says which line it is.
  by_cases first : version.major = 0
  · by_cases second : version.minor = 0
    · have ends : version.caretEnd = version.nextPatch := by
        rw [IntVersion.caretEnd, if_neg (not_not.mpr first), if_neg (not_not.mpr second)]
      rw [ends, if_neg (not_not.mpr first), if_neg (not_not.mpr second)]
      refine interval_iff within.2.2 rfl ahead.2.2 ?_
      simp only [IntVersion.nextPatch, NumbersBelow]
      omega
    · have ends : version.caretEnd = version.nextMinor := by
        rw [IntVersion.caretEnd, if_neg (not_not.mpr first), if_pos second]
      rw [ends, if_neg (not_not.mpr first), if_pos second]
      refine interval_iff within.2.1 rfl ahead.2.1 ?_
      simp only [IntVersion.nextMinor, NumbersBelow]
      omega
  · have ends : version.caretEnd = version.nextMajor := by
      rw [IntVersion.caretEnd, if_pos first]
    rw [ends, if_pos first]
    refine interval_iff within.1 rfl ahead.1 ?_
    simp only [IntVersion.nextMajor, NumbersBelow]
    omega

/-- A tilde range is the interval up to the next minor line. -/
theorem tilde_iff (version x : IntVersion) :
    rangeSatisfies (VersionRange.tilde version).range x.toSemver = true ↔
      VersionRange.Interval version version.nextMinor x.toSemver := by
  obtain ⟨xMajor, xMinor, xPatch⟩ := x.small
  obtain ⟨major, minor, patch⟩ := version.small
  rw [VersionRange.range, rangeSatisfies_tilde]
  symm
  refine interval_iff version.next_within.2.1 rfl version.next_ahead.2.1 ?_
  simp only [IntVersion.nextMinor, NumbersBelow]
  omega

/-- The range check is membership in the interval that the range means. -/
theorem rangeSatisfies_iff_contains (range : VersionRange) (x : IntVersion) :
    rangeSatisfies range.range x.toSemver = true ↔ range.Contains x.toSemver := by
  obtain ⟨xMajor, xMinor, xPatch⟩ := x.small
  cases range with
  | exact version => exact beq_iff_eq
  | caret version => exact caret_iff version x
  | tilde version => exact tilde_iff version x
  | star =>
    rw [VersionRange.range, rangeSatisfies_wildcard, VersionRange.Contains]
    exact and_iff_left (Or.inl rfl)
  | majorLine major =>
    have small := major.small
    have zero : (0 : Int) ≤ 0 ∧ (0 : Int) ≤ 2147483648 := by decide
    rw [VersionRange.range, rangeSatisfies_wildcard, VersionRange.Contains]
    symm
    refine releases_iff ⟨⟨small.1, small.2.le⟩, zero, zero⟩ ⟨⟨?_, ?_⟩, zero, zero⟩ rfl rfl ?_
    · show 0 ≤ major.number + 1
      omega
    · exact small.2
    · simp only [NumbersBelow, true_or, and_true]
      omega
  | minorLine major minor =>
    have small := major.small
    have second := minor.small
    have zero : (0 : Int) ≤ 0 ∧ (0 : Int) ≤ 2147483648 := by decide
    rw [VersionRange.range, rangeSatisfies_wildcard, VersionRange.Contains]
    symm
    refine releases_iff ⟨⟨small.1, small.2.le⟩, ⟨second.1, second.2.le⟩, zero⟩
      ⟨⟨small.1, small.2.le⟩, ⟨?_, ?_⟩, zero⟩ rfl rfl ?_
    · show 0 ≤ minor.number + 1
      omega
    · exact second.2
    · simp only [NumbersBelow]
      omega
  | bounded lower upper lowerInclusive upperInclusive =>
    exact rangeSatisfies_bounded _ _ _ _ _

/-! ## Pre-releases and the bounds of a range -/

/-- The versions that a range is written with. A wildcard has only the number of its line. -/
def Range.bounds (range : Range) : List Semver :=
  match range.type with
  | .exact | .caret | .tilde => [range.lower]
  | .wildcard => []
  | .bounded => [range.lower, range.upper]

/-- A version without its labels. -/
def Semver.core (version : Semver) : Semver := { version with preRelease := [], buildMeta := [] }

/-- The numbers of a version stand strictly between those of the two bounds. -/
structure Range.Straddles (range : Range) (x : Semver) : Prop where
  /-- The range has two bounds. -/
  bounded : range.type = .bounded
  /-- The numbers are above those of the lower bound. -/
  above : 0 < semverCompare x.core range.lower.core
  /-- They are below those of the upper bound. -/
  below : semverCompare x.core range.upper.core < 0

/-- Without labels only the numbers are compared. -/
theorem semverCompare_core (left right : Semver) : semverCompare left.core right.core =
    if left.major ≠ right.major then difference left.major right.major
    else if left.minor ≠ right.minor then difference left.minor right.minor
    else if left.patch ≠ right.patch then difference left.patch right.patch
    else 0 := rfl

/-- Versions with the same numbers have the same core. -/
theorem compare_core_same {left right : Semver} (same : SameNumbers left right) :
    semverCompare left.core right.core = 0 := by
  rw [semverCompare_core, if_neg (not_not.mpr same.1), if_neg (not_not.mpr same.2.1),
    if_neg (not_not.mpr same.2.2)]

/-- Versions with different numbers are compared by them. -/
theorem compare_core_other {left right : Semver} (other : ¬SameNumbers left right) :
    semverCompare left right = semverCompare left.core right.core := by
  rw [semverCompare_core, semverCompare]
  split_ifs with major minor patch
  · rfl
  · rfl
  · rfl
  · exact absurd ⟨not_not.mp major, not_not.mp minor, not_not.mp patch⟩ other

/-- Such a comparison tells them apart. -/
theorem compare_core_ne {left right : Semver} (first : left.Ints) (second : right.Ints)
    (other : ¬SameNumbers left right) : semverCompare left.core right.core ≠ 0 := by
  have told : ∀ {one another : Int}, IsInt one → IsInt another → one ≠ another →
      difference one another ≠ 0 := by
    intro one another here there different none
    exact different (numberOrder_eq_eq here there (sign_eq_eq.mpr none))
  rw [semverCompare_core]
  split_ifs with major minor patch
  · exact told first.major second.major major
  · exact told first.minor second.minor minor
  · exact told first.patch second.patch patch
  · exact absurd ⟨not_not.mp major, not_not.mp minor, not_not.mp patch⟩ other

/-- An accepted pre-release has the numbers of a bound, unless its numbers stand strictly between those
of two bounds. -/
theorem prerelease_bound_iff {range : Range} {x : Semver} (lower : range.lower.Ints)
    (upper : range.upper.Ints) (ints : x.Ints) (pre : x.preRelease ≠ []) :
    (rangeSatisfies range x = true → ∃ bound ∈ range.bounds, SameNumbers x bound) ↔
      ¬range.Straddles x := by
  obtain ⟨type, first, second, lowerInclusive, upperInclusive⟩ := range
  have single : type ≠ .bounded → ¬Range.Straddles ⟨type, first, second, lowerInclusive,
      upperInclusive⟩ x := fun other straddles => other straddles.bounded
  cases type with
  | exact =>
    refine iff_of_true (fun accepted => ⟨first, List.mem_singleton.mpr rfl, ?_⟩) (single nofun)
    have equal : semverCompare first x = 0 := beq_iff_eq.mp accepted
    by_contra other
    have turned : ¬SameNumbers first x := fun same =>
      other ⟨same.1.symm, same.2.1.symm, same.2.2.symm⟩
    rw [compare_core_other turned] at equal
    exact compare_core_ne lower ints turned equal
  | caret =>
    refine iff_of_true (fun accepted => ⟨first, List.mem_singleton.mpr rfl, ?_⟩) (single nofun)
    exact ((rangeSatisfies_caret first x).mp accepted).2.1.resolve_left pre
  | tilde =>
    refine iff_of_true (fun accepted => ⟨first, List.mem_singleton.mpr rfl, ?_⟩) (single nofun)
    exact ((rangeSatisfies_tilde first x).mp accepted).2.1.resolve_left pre
  | wildcard =>
    refine iff_of_true (fun accepted => absurd ?_ pre) (single nofun)
    exact ((rangeSatisfies_wildcard first.major first.minor x).mp accepted).1
  | bounded =>
    rw [rangeSatisfies_bounded]
    show _ ↔ ¬Range.Straddles ⟨.bounded, first, second, lowerInclusive, upperInclusive⟩ x
    constructor
    · rintro kept ⟨-, above, below⟩
      have one : ¬SameNumbers x first := fun same => by
        rw [compare_core_same same] at above
        exact absurd above (by decide)
      have other : ¬SameNumbers x second := fun same => by
        rw [compare_core_same same] at below
        exact absurd below (by decide)
      have inside : VersionRange.From lowerInclusive first x ∧
          VersionRange.UpTo upperInclusive second x := by
        rw [← compare_core_other one] at above
        rw [← compare_core_other other] at below
        unfold VersionRange.From VersionRange.UpTo
        constructor <;> split <;> omega
      obtain ⟨bound, member, same⟩ := kept inside
      rcases List.mem_cons.mp member with rfl | rest
      · exact one same
      · rw [List.mem_singleton.mp rest] at same
        exact other same
    · intro apart accepted
      by_contra none
      have one : ¬SameNumbers x first := fun same =>
        none ⟨first, List.mem_cons_self, same⟩
      have other : ¬SameNumbers x second := fun same =>
        none ⟨second, List.mem_cons_of_mem _ (List.mem_singleton.mpr rfl), same⟩
      have above := compare_core_ne ints lower one
      have below := compare_core_ne ints upper other
      unfold VersionRange.From VersionRange.UpTo at accepted
      rw [compare_core_other one, compare_core_other other] at accepted
      refine apart ⟨rfl, ?_, ?_⟩
      · have from' := accepted.1
        split at from' <;> simp only at above ⊢ <;> omega
      · have upTo := accepted.2
        split at upTo <;> simp only at below ⊢ <;> omega

/-- The versions from 1.0.0 on, below 2.0.0. -/
def firstLine : Range := ⟨.bounded, ⟨1, 0, 0, [], []⟩, ⟨2, 0, 0, [], []⟩, true, false⟩

/-- 1.5.0-alpha -/
def versionAlpha : Semver := ⟨1, 5, 0, ascii "alpha", []⟩

/-- 2.0.0-alpha, in front of the upper bound. -/
def versionNext : Semver := ⟨2, 0, 0, ascii "alpha", []⟩

/-- The pre-release of the upper bound has its numbers. -/
theorem prerelease_bound_next :
    (rangeSatisfies firstLine versionNext = true →
        ∃ bound ∈ firstLine.bounds, SameNumbers versionNext bound) ↔
      ¬firstLine.Straddles versionNext :=
  prerelease_bound_iff ⟨by decide, by decide, by decide⟩ ⟨by decide, by decide, by decide⟩
    ⟨by decide, by decide, by decide⟩ (by decide +kernel)

/-- A pre-release between the bounds is accepted, and no bound has its numbers. -/
theorem prerelease_between :
    rangeSatisfies firstLine versionAlpha = true ∧ versionAlpha.preRelease ≠ [] ∧
      ¬∃ bound ∈ firstLine.bounds, SameNumbers versionAlpha bound := by
  refine ⟨by decide +kernel, by decide +kernel, ?_⟩
  rintro ⟨bound, member, same⟩
  rcases List.mem_cons.mp member with rfl | rest
  · exact absurd same.2.1 (by decide)
  · rw [List.mem_singleton.mp rest] at same
    exact absurd same.1 (by decide)

end Cookbook.Server
