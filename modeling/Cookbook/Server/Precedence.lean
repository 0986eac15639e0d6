import Cookbook.Library.Decisions
import Cookbook.Server.SemverText

/-!
# The order of versions

The comparison of two versions asks the numbers, then whether one of them is a release, and then one
identifier of the pre-releases after the other. Its sign is a lexicographic comparison of keys, so it is
a total preorder as long as no difference of two numbers wraps around. It is the precedence of
SemVer 2.0.0 exactly when the first difference of the texts survives the numbers' cut to their types.
-/
namespace Cookbook.Server

open Library.Text Library.Decisions

/-- Every identifier takes a character. -/
theorem behindIdentifier_length (c : UInt8) (rest : Bytes) :
    (behindIdentifier (c :: rest)).length < (c :: rest).length := by
  unfold behindIdentifier
  rw [List.length_drop]
  by_cases first : (c != dot) = true
  · simp only [List.dropWhile_cons, first, ↓reduceIte]
    have shorter := (List.dropWhile_sublist (· != dot) (l := rest)).length_le
    rw [List.length_cons]
    omega
  · simp only [List.dropWhile_cons, first, Bool.false_eq_true, ↓reduceIte, List.length_cons]
    omega

/-! ## Identifiers -/

/-- Two texts, character by character. -/
def charsOrder (left right : Bytes) : Ordering := List.compareLex compare left right

/-- It is an order. -/
instance : Std.TransCmp charsOrder := inferInstanceAs (Std.TransCmp (List.compareLex compare))

/-- Two identifiers: numbers by their values and in front of other identifiers, others by their
characters. -/
def identifierOrder (left right : Bytes) : Ordering :=
  if left.all isDecimal then
    if right.all isDecimal then compare (strtoll left) (strtoll right) else .lt
  else if right.all isDecimal then .gt
  else charsOrder left right

/-- The place of an identifier: the numbers first. -/
def identifierRank (identifier : Bytes) : Nat := if identifier.all isDecimal then 0 else 1

/-- The number of an identifier of digits. -/
def identifierNumber (identifier : Bytes) : Int :=
  if identifier.all isDecimal then strtoll identifier else 0

/-- The characters of another identifier. -/
def identifierChars (identifier : Bytes) : Bytes :=
  if identifier.all isDecimal then [] else identifier

/-- Identifiers are ordered by their ranks, their numbers and their characters. -/
theorem identifierOrder_keys (left right : Bytes) :
    identifierOrder left right = (compare (identifierRank left) (identifierRank right)).then
      ((compare (identifierNumber left) (identifierNumber right)).then
        (charsOrder (identifierChars left) (identifierChars right))) := by
  unfold identifierOrder identifierRank identifierNumber identifierChars
  by_cases first : left.all isDecimal = true
  · by_cases second : right.all isDecimal = true
    · simp only [first, second, ↓reduceIte, Std.ReflCmp.compare_self, Ordering.eq_then,
        Ordering.then_eq]
    · simp only [first, second, ↓reduceIte]
      rfl
  · by_cases second : right.all isDecimal = true
    · simp only [first, second, ↓reduceIte]
      rfl
    · simp only [first, second, Bool.false_eq_true, ↓reduceIte, Std.ReflCmp.compare_self,
        Ordering.eq_then]

/-- So it is an order. -/
instance : Std.TransCmp identifierOrder := by
  have chars : Std.TransCmp fun left right =>
      charsOrder (identifierChars left) (identifierChars right) := transCmp_on identifierChars
  have keys : identifierOrder = compareLex (compareOn identifierRank)
      (compareLex (compareOn identifierNumber)
        fun left right => charsOrder (identifierChars left) (identifierChars right)) := by
    funext left right
    exact identifierOrder_keys left right
  rw [keys]
  infer_instance

/-- `memcmp` and the lengths compare two texts. -/
theorem sign_memcmp (left right : Bytes) :
    (sign (memcmp left right)).then (compare left.length right.length) =
      charsOrder left right := by
  induction left generalizing right with
  | nil =>
    cases right with
    | nil => rfl
    | cons b right =>
      show (Ordering.eq).then (compare 0 (right.length + 1)) = .lt
      simp [Nat.compare_eq_ite_lt]
  | cons a left ih =>
    cases right with
    | nil =>
      show (Ordering.eq).then (compare (left.length + 1) 0) = .gt
      simp [Nat.compare_eq_ite_lt]
    | cons b right => 
      have lengths : compare (a :: left).length (b :: right).length =
          compare left.length right.length := by
        simp [Nat.compare_eq_ite_lt]
      rw [lengths, charsOrder, List.compareLex_cons_cons, memcmp]
      have order : compare a b = if a < b then .lt else if a = b then .eq else .gt := rfl
      rw [order]
      by_cases less : a < b
      · rw [if_pos less, if_pos less]
        rfl
      · by_cases more : b < a
        · have other : a ≠ b := fun same => less (same ▸ more)
          rw [if_neg less, if_pos more, if_neg less, if_neg other]
          rfl
        · have same : a = b := by
            simp only [UInt8.lt_iff_toNat_lt] at less more
            exact UInt8.toNat_inj.mp (by omega)
          rw [if_neg less, if_neg more, if_neg less, if_pos same, ih]
          rfl

/-- The comparison of two identifiers is their order. -/
theorem sign_compareIdentifier (left right : Bytes) :
    sign (compareIdentifier left right) = identifierOrder left right := by
  unfold compareIdentifier identifierOrder
  by_cases first : left.all isDecimal = true
  · by_cases second : right.all isDecimal = true
    · simp only [first, second, Bool.and_self, ↓reduceIte]
      rcases lt_trichotomy (strtoll left) (strtoll right) with less | same | more
      · rw [if_pos less, compare_lt_iff_lt.mpr less]
        rfl
      · rw [if_neg (by omega), if_neg (by omega), compare_eq_iff_eq.mpr same]
        rfl
      · rw [if_neg (by omega), if_pos more, compare_gt_iff_gt.mpr more]
        rfl
    · simp only [first, second, Bool.and_false, Bool.false_eq_true, ↓reduceIte]
      rfl
  · by_cases second : right.all isDecimal = true
    · simp only [first, second, Bool.and_true, Bool.false_eq_true, ↓reduceIte]
      rfl
    · simp only [first, second, Bool.and_self, Bool.false_eq_true, ↓reduceIte]
      rw [← sign_memcmp]
      by_cases common : memcmp left right = 0
      · rw [if_neg (not_not.mpr common), common]
        show sign _ = compare left.length right.length
        rcases lt_trichotomy left.length right.length with less | same | more
        · rw [if_pos less, compare_lt_iff_lt.mpr less]
          rfl
        · rw [if_neg (by omega), if_neg (by omega), compare_eq_iff_eq.mpr same]
          rfl
        · rw [if_neg (by omega), if_pos more, compare_gt_iff_gt.mpr more]
          rfl
      · rw [if_pos common]
        have decided : sign (memcmp left right) ≠ .eq := fun same => common (sign_eq_eq.mp same)
        cases found : sign (memcmp left right) with
        | eq => exact absurd found decided
        | lt => rfl
        | gt => rfl

/-! ## Pre-releases -/

/-- The identifiers of a pre-release as the loop cuts them: none starts behind a dot at the end. -/
def identifiers : Bytes → List Bytes
  | [] => []
  | c :: rest =>
    (c :: rest).takeWhile (· != dot) :: identifiers (behindIdentifier (c :: rest))
termination_by text => text.length
decreasing_by
  exact behindIdentifier_length _ _

/-- The loop over the identifiers compares their lists. -/
theorem sign_comparePreFrom (fuel : Nat) (left right : Bytes) (enough : left.length < fuel) :
    sign (comparePreFrom fuel left right) =
      List.compareLex identifierOrder (identifiers left) (identifiers right) := by
  induction fuel generalizing left right with
  | zero => omega
  | succ fuel ih =>
    cases left with
    | nil =>
      cases right with
      | nil =>
        rw [identifiers]
        rfl
      | cons b right =>
        rw [identifiers, identifiers]
        rfl
    | cons a left =>
      cases right with
      | nil =>
        rw [identifiers, identifiers]
        rfl
      | cons b right =>
        have shorter := behindIdentifier_length a left
        have rest := ih (behindIdentifier (a :: left)) (behindIdentifier (b :: right))
          (by simp only [List.length_cons] at shorter enough ⊢; omega)
        rw [identifiers, identifiers, List.compareLex_cons_cons, ← sign_compareIdentifier, ← rest,
          comparePreFrom]
        generalize compareIdentifier _ _ = order
        by_cases same : order = 0
        · simp only [same, ne_eq, not_true_eq_false, ↓reduceIte]
          rfl
        · have decided : sign order ≠ .eq := fun equal => same (sign_eq_eq.mp equal)
          simp only [ne_eq, same, not_false_eq_true, ↓reduceIte]
          cases found : sign order with
          | eq => exact absurd found decided
          | lt => rfl
          | gt => rfl

/-- The place of a pre-release: the releases, which have none, behind the others. -/
def releaseRank (preRelease : Bytes) : Nat := if preRelease = [] then 1 else 0

/-- Two pre-releases: releases behind the others, then identifier by identifier. -/
def preOrder (left right : Bytes) : Ordering :=
  (compare (releaseRank left) (releaseRank right)).then
    (List.compareLex identifierOrder (identifiers left) (identifiers right))

/-- It is an order. -/
instance : Std.TransCmp preOrder := by
  have lists : Std.TransCmp fun left right =>
      List.compareLex identifierOrder (identifiers left) (identifiers right) :=
    transCmp_on identifiers
  exact inferInstanceAs (Std.TransCmp (compareLex (compareOn releaseRank)
    fun left right => List.compareLex identifierOrder (identifiers left) (identifiers right)))

/-- The comparison of two pre-releases is their order. -/
theorem sign_comparePre (left right : Bytes) :
    sign (comparePre left right) = preOrder left right := by
  unfold comparePre preOrder releaseRank
  by_cases first : left = []
  · by_cases second : right = []
    · rw [first, second, identifiers]
      rfl
    · rw [if_neg (fun both => second both.2), if_pos first, if_pos first, if_neg second]
      rfl
  · by_cases second : right = []
    · rw [if_neg (fun both => first both.1), if_neg first, if_pos second, if_neg first,
        if_pos second]
      rfl
    · rw [if_neg (fun both => first both.1), if_neg first, if_neg second, if_neg first,
        if_neg second, sign_comparePreFrom _ _ _ (Nat.lt_succ_self _)]
      rfl

/-! ## Versions -/

/-- Two numbers of versions, by their difference in 32 bits. -/
def numberOrder (left right : Int) : Ordering := sign (difference left right)

/-- A number of an `int`. -/
def IsInt (number : Int) : Prop := -2147483648 ≤ number ∧ number < 2147483648

instance (number : Int) : Decidable (IsInt number) := inferInstanceAs (Decidable (_ ∧ _))

/-- Equal numbers have no difference. -/
theorem numberOrder_self (number : Int) : numberOrder number number = .eq := by
  rw [numberOrder, difference, Int.sub_self]
  rfl

/-- Different numbers of an `int` have one. -/
theorem numberOrder_eq_eq {left right : Int} (first : IsInt left) (second : IsInt right)
    (same : numberOrder left right = .eq) : left = right := by
  have none : (left - right).bmod 4294967296 = 0 := sign_eq_eq.mp same
  have whole : (4294967296 : Int) ∣ left - right := by
    have divides := @Int.dvd_bmod_sub_self (left - right) 4294967296
    rw [none] at divides
    omega
  unfold IsInt at first second
  omega

/-- Numbers that are not negative have a difference in their order. -/
theorem numberOrder_small {left right : Int} (first : 0 ≤ left ∧ left < 2147483648)
    (second : 0 ≤ right ∧ right < 2147483648) : numberOrder left right = compare left right := by
  have fits : difference left right = left - right :=
    Int.bmod_eq_of_le (by omega) (by omega)
  rw [numberOrder, fits, sign_sub]

/-- The numbers of a version are numbers of an `int`. -/
structure Semver.Ints (version : Semver) : Prop where
  /-- The first one. -/
  major : IsInt version.major
  /-- The second one. -/
  minor : IsInt version.minor
  /-- The third one. -/
  patch : IsInt version.patch

/-- A comparison that goes on where two numbers are equal. -/
theorem sign_number {left right : Int} (first : IsInt left) (second : IsInt right) (next : Int) :
    sign (if left ≠ right then difference left right else next) =
      (numberOrder left right).then (sign next) := by
  by_cases same : left = right
  · rw [if_neg (not_not.mpr same), same, numberOrder_self]
    rfl
  · rw [if_pos same]
    have decided : numberOrder left right ≠ .eq := fun equal =>
      same (numberOrder_eq_eq first second equal)
    show numberOrder left right = _
    cases found : numberOrder left right with
    | eq => exact absurd found decided
    | lt => rfl
    | gt => rfl

/-- The comparison of two versions asks one place after the other. -/
theorem sign_semverCompare {left right : Semver} (first : left.Ints) (second : right.Ints) :
    sign (semverCompare left right) = (numberOrder left.major right.major).then
      ((numberOrder left.minor right.minor).then
        ((numberOrder left.patch right.patch).then
          (preOrder left.preRelease right.preRelease))) := by
  rw [semverCompare, sign_number first.major second.major, sign_number first.minor second.minor,
    sign_number first.patch second.patch, sign_comparePre]

/-- The numbers of a version are not negative. -/
structure Semver.Small (version : Semver) : Prop where
  /-- The first one. -/
  major : 0 ≤ version.major ∧ version.major < 2147483648
  /-- The second one. -/
  minor : 0 ≤ version.minor ∧ version.minor < 2147483648
  /-- The third one. -/
  patch : 0 ≤ version.patch ∧ version.patch < 2147483648

/-- They are numbers of an `int`. -/
theorem Semver.Small.ints {version : Semver} (small : version.Small) : version.Ints := by
  obtain ⟨major, minor, patch⟩ := small
  exact ⟨⟨by omega, major.2⟩, ⟨by omega, minor.2⟩, ⟨by omega, patch.2⟩⟩

/-- What two versions are compared by. -/
def versionOrder (left right : Semver) : Ordering :=
  (compare left.major right.major).then ((compare left.minor right.minor).then
    ((compare left.patch right.patch).then (preOrder left.preRelease right.preRelease)))

/-- It is an order. -/
instance : Std.TransCmp versionOrder := by
  have pre : Std.TransCmp fun left right : Semver =>
      preOrder left.preRelease right.preRelease := transCmp_on Semver.preRelease
  exact inferInstanceAs (Std.TransCmp (compareLex (compareOn Semver.major)
    (compareLex (compareOn Semver.minor) (compareLex (compareOn Semver.patch)
      fun left right => preOrder left.preRelease right.preRelease))))

/-- The comparison of versions whose numbers are not negative has its sign. -/
theorem sign_semverCompare_small {left right : Semver} (first : left.Small) (second : right.Small) :
    sign (semverCompare left right) = versionOrder left right := by
  rw [sign_semverCompare first.ints second.ints, numberOrder_small first.major second.major,
    numberOrder_small first.minor second.minor, numberOrder_small first.patch second.patch,
    versionOrder]

/-! ## The total preorder -/

/-- A text that the parser accepts, with numbers below 2^31. -/
structure SmallVersion extends VersionForm where
  /-- The labels fit their buffers. -/
  short : toVersionForm.Short
  /-- The numbers fit an `int`. -/
  small : ∀ digits ∈ [major, minor, patch], readDigits digits < 2147483648

namespace SmallVersion

/-- What the parser reads of it. -/
def parsed (version : SmallVersion) : Semver := version.toVersionForm.semver

/-- The parser accepts it. -/
theorem parsed_text (version : SmallVersion) : semverParse version.text = some version.parsed :=
  semverParse_text version.short

/-- Every accepted text with such numbers is one. -/
theorem of_parse {text : Bytes} {parsed : Semver} (accepted : semverParse text = some parsed)
    (small : ∀ form : VersionForm, form.text = text →
      ∀ digits ∈ [form.major, form.minor, form.patch], readDigits digits < 2147483648) :
    ∃ version : SmallVersion, version.text = text ∧ version.parsed = parsed := by
  obtain ⟨form, same, short, read⟩ := semverParse_some accepted
  exact ⟨⟨form, short, small form same⟩, same, read⟩

/-- The numbers that are read are those of the numerals. -/
theorem parsed_small (version : SmallVersion) : version.parsed.Small := by
  have bounded : ∀ digits ∈ [version.major, version.minor, version.patch],
      0 ≤ atoi digits ∧ atoi digits < 2147483648 := by
    intro digits member
    have numeral := version.numerals digits member
    have bound := version.small digits member
    have read := @atoi_digits _ [] numeral.1 numeral.2 bound nofun
    rw [List.append_nil] at read
    rw [read]
    omega
  simp only [List.mem_cons, List.not_mem_nil, or_false, forall_eq_or_imp, forall_eq] at bounded
  exact ⟨bounded.1, bounded.2.1, bounded.2.2⟩

end SmallVersion

/-- No subtraction of the comparison leaves the range of an `int`. -/
structure NoOverflow (left right : Semver) : Prop where
  /-- The first numbers. -/
  major : IsInt (left.major - right.major)
  /-- The second numbers. -/
  minor : IsInt (left.minor - right.minor)
  /-- The third numbers. -/
  patch : IsInt (left.patch - right.patch)

/-- On accepted texts with numbers below 2^31 the comparison is a total preorder, and no difference
overflows. -/
theorem semverCompare_totalPreorder :
    TotalPreorder (fun left right : SmallVersion => semverCompare left.parsed right.parsed) ∧
      ∀ left right : SmallVersion, NoOverflow left.parsed right.parsed := by
  refine ⟨TotalPreorder.of_key SmallVersion.parsed fun left right =>
    sign_semverCompare_small left.parsed_small right.parsed_small, ?_⟩
  intro left right
  have first := left.parsed_small
  have second := right.parsed_small
  have fits : ∀ {one other : Int}, 0 ≤ one ∧ one < 2147483648 → 0 ≤ other ∧ other < 2147483648 →
      IsInt (one - other) := by
    intro one other here there
    exact ⟨by omega, by omega⟩
  exact ⟨fits first.major second.major, fits first.minor second.minor,
    fits first.patch second.patch⟩

/-! ## The precedence of SemVer 2.0.0 -/

/-- The precedence of two identifiers: numbers by their values and below the others, the others by
their characters. -/
def PreIdentifier.precedence (left right : PreIdentifier) : Ordering :=
  if left.chars.all isDecimal then
    if right.chars.all isDecimal then compare (readDigits left.chars) (readDigits right.chars)
    else .lt
  else if right.chars.all isDecimal then .gt
  else charsOrder left.chars right.chars

/-- The precedence of two pre-releases: below the release, then identifier by identifier, and a longer
list above a shorter one. -/
def prePrecedence : List PreIdentifier → List PreIdentifier → Ordering
  | [], [] => .eq
  | [], _ :: _ => .gt
  | _ :: _, [] => .lt
  | left, right => List.compareLex PreIdentifier.precedence left right

/-- The precedence of two versions, without their build metadata. -/
def SemverText.precedence (left right : SemverText) : Ordering :=
  (compare left.major.value right.major.value).then
    ((compare left.minor.value right.minor.value).then
      ((compare left.patch.value right.patch.value).then
        (prePrecedence left.preRelease right.preRelease)))

/-- A number of two versions: its order, and the order of what 32 bits leave of it. -/
def numberPlace (left right : Numeral) : Ordering × Ordering :=
  (compare left.value right.value, numberOrder (atoi left.digits) (atoi right.digits))

/-- Whether two versions are releases. -/
def releasePlace (left right : List PreIdentifier) : Ordering × Ordering :=
  let order := compare (if left = [] then 1 else 0) (if right = [] then 1 else 0)
  (order, order)

/-- An identifier of two versions: its order, and the order of what 64 bits leave of it. -/
def identifierPlace (left right : PreIdentifier) : Ordering × Ordering :=
  (left.precedence right, identifierOrder left.chars right.chars)

/-- The number of identifiers of two versions. -/
def lengthPlace (left right : List PreIdentifier) : Ordering × Ordering :=
  (compare left.length right.length, compare left.length right.length)

/-- The places of two versions. -/
def SemverText.places (left right : SemverText) : List (Ordering × Ordering) :=
  [numberPlace left.major right.major, numberPlace left.minor right.minor,
      numberPlace left.patch right.patch, releasePlace left.preRelease right.preRelease] ++
    (List.zipWith identifierPlace left.preRelease right.preRelease ++
      [lengthPlace left.preRelease right.preRelease])

/-- The orders of the places make up the precedence. -/
theorem places_precedence (left right : SemverText) :
    firstDecision ((left.places right).map Prod.fst) = left.precedence right := by
  have pre : firstDecision ((releasePlace left.preRelease right.preRelease).1 ::
      (List.zipWith PreIdentifier.precedence left.preRelease right.preRelease ++
        [compare left.preRelease.length right.preRelease.length])) =
      prePrecedence left.preRelease right.preRelease := by
    rw [firstDecision_cons, ← compareLex_eq_firstDecision]
    cases left.preRelease <;> cases right.preRelease <;> rfl
  simp only [SemverText.places, List.map_append, List.map_cons, List.map_nil, List.map_zipWith,
    List.cons_append, List.nil_append]
  rw [firstDecision_cons, firstDecision_cons, firstDecision_cons]
  exact congrArg _ (congrArg _ (congrArg _ pre))

/-- The loop cuts joined identifiers apart. -/
theorem identifiers_dotJoined {items : List Bytes}
    (formed : ∀ chars ∈ items, chars ≠ [] ∧ dot ∉ chars) : identifiers (dotJoined items) = items := by
  induction items with
  | nil =>
    show identifiers [] = []
    rw [identifiers]
  | cons chars items ih =>
    have rest := ih fun other member => formed other (List.mem_cons_of_mem _ member)
    obtain ⟨filled, free⟩ := formed chars List.mem_cons_self
    obtain ⟨c, more, shape⟩ := List.exists_cons_of_ne_nil filled
    have cut : (dotJoined (chars :: items)).takeWhile (· != dot) = chars ∧
        behindIdentifier (dotJoined (chars :: items)) = dotJoined items := by
      unfold behindIdentifier
      cases items with
      | nil =>
        have alone : dotJoined [chars] = chars := by
          rw [dotJoined, intercalate_items]
          simp
        rw [alone, dropWhile_all (accepts_of_notMem free)]
        exact ⟨List.takeWhile_eq_self_iff.mpr (accepts_of_notMem free), rfl⟩
      | cons next items =>
        have joined : dotJoined (chars :: next :: items) =
            chars ++ dot :: dotJoined (next :: items) := by
          rw [dotJoined, intercalate_items, dotJoined, intercalate_items]
          rfl
        rw [joined, takeWhile_ne_stop free, dropWhile_ne_stop free]
        exact ⟨rfl, rfl⟩
    have text : ∃ behind, dotJoined (chars :: items) = c :: behind := by
      rw [dotJoined, intercalate_items, shape]
      exact ⟨_, rfl⟩
    obtain ⟨behind, start⟩ := text
    rw [start] at cut ⊢
    rw [identifiers, cut.1, cut.2, rest]

/-- The comparison of two texts of the grammar asks what is left of the places. -/
theorem places_semverCompare {left right : SemverText} {first second : Semver}
    (one : semverParse left.text = some first) (other : semverParse right.text = some second) :
    firstDecision ((left.places right).map Prod.snd) = sign (semverCompare first second) := by
  have read : ∀ {version : SemverText} {parsed : Semver}, semverParse version.text = some parsed →
      parsed = version.form.semver := by
    intro version parsed accepted
    obtain ⟨form, same, -, found⟩ := semverParse_some accepted
    have parts : form = version.form :=
      VersionForm.text_inj (same.trans (SemverText.form_text version).symm)
    rw [← found, parts]
  have ints : ∀ form : VersionForm, form.semver.Ints := by
    intro form
    have int : ∀ text, IsInt (atoi text) := fun text =>
      ⟨Int.le_bmod (by decide), Int.bmod_lt (by decide)⟩
    exact ⟨int _, int _, int _⟩
  have cut : ∀ version : SemverText,
      identifiers version.preText = version.preRelease.map (·.chars) := by
    intro version
    refine identifiers_dotJoined fun chars member => ⟨?_, (version.preRelease_free chars member).1⟩
    obtain ⟨identifier, -, rfl⟩ := List.mem_map.mp member
    exact identifier.filled
  have rank : ∀ version : SemverText, releaseRank version.preText =
      if version.preRelease = [] then 1 else 0 := by
    intro version
    have pieces := cut version
    cases found : version.preRelease with
    | nil =>
      rw [releaseRank, SemverText.preText, found]
      rfl
    | cons identifier others =>
      have filled : version.preText ≠ [] := by
        intro none
        rw [none, found, identifiers] at pieces
        cases pieces
      rw [releaseRank, if_neg filled]
      rfl
  have pre : firstDecision ((releasePlace left.preRelease right.preRelease).2 ::
      (List.zipWith (fun one other : PreIdentifier => identifierOrder one.chars other.chars)
        left.preRelease right.preRelease ++
        [compare left.preRelease.length right.preRelease.length])) =
      preOrder left.preText right.preText := by
    have lists := compareLex_eq_firstDecision identifierOrder
      (left.preRelease.map (·.chars)) (right.preRelease.map (·.chars))
    rw [List.zipWith_map, List.length_map, List.length_map] at lists
    rw [firstDecision_cons, ← lists, preOrder, rank, rank, cut, cut]
    rfl
  rw [read one, read other, sign_semverCompare (ints _) (ints _)]
  simp only [SemverText.places, List.map_append, List.map_cons, List.map_nil, List.map_zipWith,
    List.cons_append, List.nil_append]
  rw [firstDecision_cons, firstDecision_cons, firstDecision_cons]
  exact congrArg _ (congrArg _ (congrArg _ pre))

/-- The number that a numeral is read as. -/
theorem strtoll_numeral {digits : Bytes} (filled : digits ≠ [])
    (decimal : ∀ c ∈ digits, isDecimal c = true) :
    strtoll digits = min 9223372036854775807 (readDigits digits : Int) := by
  have read := @strtoll_run _ [] filled decimal nofun
  rwa [List.append_nil] at read

/-- Numbers of the same value are read as the same number. -/
theorem numberPlace_sound {left right : Numeral} (same : (numberPlace left right).1 = .eq) :
    (numberPlace left right).2 = .eq := by
  have value : readDigits left.digits = readDigits right.digits := Nat.compare_eq_eq.mp same
  have read : atoi left.digits = atoi right.digits := by
    unfold atoi
    rw [strtoll_numeral left.filled left.decimal, strtoll_numeral right.filled right.decimal, value]
  show numberOrder _ _ = .eq
  rw [read, numberOrder_self]

/-- So are identifiers. -/
theorem identifierPlace_sound {left right : PreIdentifier}
    (same : (identifierPlace left right).1 = .eq) : (identifierPlace left right).2 = .eq := by
  have equal : left.precedence right = .eq := same
  show identifierOrder left.chars right.chars = .eq
  unfold PreIdentifier.precedence at equal
  unfold identifierOrder
  by_cases first : left.chars.all isDecimal = true
  · by_cases second : right.chars.all isDecimal = true
    · rw [if_pos first, if_pos second] at equal ⊢
      rw [strtoll_numeral left.filled (List.all_eq_true.mp first),
        strtoll_numeral right.filled (List.all_eq_true.mp second), Nat.compare_eq_eq.mp equal]
      exact Std.ReflCmp.compare_self
    · rw [if_pos first, if_neg second] at equal
      cases equal
  · by_cases second : right.chars.all isDecimal = true
    · rw [if_neg first, if_pos second] at equal
      cases equal
    · rw [if_neg first, if_neg second] at equal ⊢
      exact equal

/-- What is left of equal places is equal. -/
theorem places_sound (left right : SemverText) : Sound (left.places right) := by
  intro place member
  simp only [SemverText.places, List.mem_append, List.mem_cons, List.not_mem_nil, or_false]
    at member
  rcases member with (rfl | rfl | rfl | rfl) | inside | rfl
  · exact numberPlace_sound
  · exact numberPlace_sound
  · exact numberPlace_sound
  · exact fun same => same
  · rw [← List.map_uncurry_zip_eq_zipWith] at inside
    obtain ⟨pair, -, rfl⟩ := List.mem_map.mp inside
    exact identifierPlace_sound
  · exact fun same => same

/-- The comparison of two versions of the grammar is their precedence exactly when their first
difference is kept: told apart in its order, or lost in front of one that happens to stand in it. -/
theorem semverCompare_precedence_iff {left right : SemverText} {first second : Semver}
    (one : semverParse left.text = some first) (other : semverParse right.text = some second) :
    sign (semverCompare first second) = left.precedence right ↔ Kept (left.places right) := by
  rw [← places_semverCompare one other, ← places_precedence]
  exact firstDecision_eq_iff_kept (places_sound left right)

/-- The numbers of a version fit their types. -/
structure SemverText.Roomy (version : SemverText) : Prop where
  /-- The numbers are below 2^31. -/
  numbers : ∀ numeral ∈ [version.major, version.minor, version.patch], numeral.value < 2147483648
  /-- The identifiers that are numbers are below 2^63. -/
  identifiers : ∀ identifier ∈ version.preRelease, identifier.chars.all isDecimal = true →
    readDigits identifier.chars ≤ 9223372036854775807

/-- Numbers that fit are read as they are. -/
theorem numberPlace_told {left right : Numeral} (first : left.value < 2147483648)
    (second : right.value < 2147483648) : (numberPlace left right).2 = (numberPlace left right).1 := by
  have value : ∀ numeral : Numeral, numeral.value < 2147483648 →
      atoi numeral.digits = numeral.value := by
    intro numeral small
    have read := @atoi_digits _ [] numeral.filled numeral.decimal small nofun
    rwa [List.append_nil] at read
  show numberOrder _ _ = compare left.value right.value
  rw [value left first, value right second, numberOrder_small (by omega) (by omega)]
  rcases lt_trichotomy left.value right.value with less | same | more
  · rw [compare_lt_iff_lt.mpr less, compare_lt_iff_lt.mpr (by omega)]
  · rw [compare_eq_iff_eq.mpr same, compare_eq_iff_eq.mpr (by omega)]
  · rw [compare_gt_iff_gt.mpr more, compare_gt_iff_gt.mpr (by omega)]

/-- So are identifiers. -/
theorem identifierPlace_told {left right : PreIdentifier}
    (first : left.chars.all isDecimal = true → readDigits left.chars ≤ 9223372036854775807)
    (second : right.chars.all isDecimal = true → readDigits right.chars ≤ 9223372036854775807) :
    (identifierPlace left right).2 = (identifierPlace left right).1 := by
  show identifierOrder left.chars right.chars = left.precedence right
  unfold identifierOrder PreIdentifier.precedence
  by_cases one : left.chars.all isDecimal = true
  · by_cases other : right.chars.all isDecimal = true
    · have small := first one
      have bound := second other
      rw [if_pos one, if_pos other, if_pos one, if_pos other,
        strtoll_numeral left.filled (List.all_eq_true.mp one),
        strtoll_numeral right.filled (List.all_eq_true.mp other)]
      rcases lt_trichotomy (readDigits left.chars) (readDigits right.chars) with less | same | more
      · rw [compare_lt_iff_lt.mpr less, compare_lt_iff_lt.mpr (by omega)]
      · rw [compare_eq_iff_eq.mpr same, compare_eq_iff_eq.mpr (by omega)]
      · rw [compare_gt_iff_gt.mpr more, compare_gt_iff_gt.mpr (by omega)]
    · rw [if_pos one, if_neg other, if_pos one, if_neg other]
  · rw [if_neg one, if_neg one]

/-- Where all numbers fit, the first difference is kept. -/
theorem SemverText.Roomy.kept {left right : SemverText} (first : left.Roomy)
    (second : right.Roomy) : Kept (left.places right) := by
  refine kept_of_exact fun place member => ?_
  have one := first.numbers
  have other := second.numbers
  simp only [List.mem_cons, List.not_mem_nil, or_false, forall_eq_or_imp, forall_eq] at one other
  simp only [SemverText.places, List.mem_append, List.mem_cons, List.not_mem_nil, or_false]
    at member
  rcases member with (rfl | rfl | rfl | rfl) | inside | rfl
  · exact numberPlace_told one.1 other.1
  · exact numberPlace_told one.2.1 other.2.1
  · exact numberPlace_told one.2.2 other.2.2
  · rfl
  · rw [← List.map_uncurry_zip_eq_zipWith] at inside
    obtain ⟨pair, both, rfl⟩ := List.mem_map.mp inside
    exact identifierPlace_told (first.identifiers pair.1 (List.of_mem_zip both).1)
      (second.identifiers pair.2 (List.of_mem_zip both).2)
  · rfl

/-- 0.0.1 -/
def versionSmallest : SemverText := plainVersion "0" "0" "1" (by decide +kernel)

/-- 4294967296.0.0 -/
def versionWide : SemverText := plainVersion "4294967296" "0" "0" (by decide +kernel)

/-- 1.0.0 with a pre-release of a word and a number. -/
def alphaVersion (count : Numeral) : SemverText :=
  { versionOne with
    preRelease :=
      [⟨⟨ascii "alpha", by decide +kernel, by decide +kernel⟩, fun _ => .inr (by decide +kernel)⟩,
        ⟨⟨count.digits, count.filled, fun c member => by
          simp [isIdentifierChar, count.decimal c member]⟩, fun _ => count.bare⟩] }

/-- 1.0.0-alpha.2 -/
def versionSecondAlpha : SemverText :=
  alphaVersion ⟨ascii "2", by decide +kernel, by decide +kernel, .inr (by decide +kernel)⟩

/-- 1.0.0-alpha.10 -/
def versionTenthAlpha : SemverText :=
  alphaVersion ⟨ascii "10", by decide +kernel, by decide +kernel, .inr (by decide +kernel)⟩

/-- The second pre-release of a release is below its tenth, as numbers and not as texts. -/
theorem semverCompare_precedence_alphas :
    versionSecondAlpha.text = ascii "1.0.0-alpha.2" ∧
      versionTenthAlpha.text = ascii "1.0.0-alpha.10" ∧
      sign (semverCompare ⟨1, 0, 0, ascii "alpha.2", []⟩ ⟨1, 0, 0, ascii "alpha.10", []⟩) =
        versionSecondAlpha.precedence versionTenthAlpha ∧
      versionSecondAlpha.precedence versionTenthAlpha = .lt := by
  have first : semverParse versionSecondAlpha.text = some ⟨1, 0, 0, ascii "alpha.2", []⟩ := by
    decide +kernel
  have second : semverParse versionTenthAlpha.text = some ⟨1, 0, 0, ascii "alpha.10", []⟩ := by
    decide +kernel
  have small : versionSecondAlpha.Roomy := ⟨by decide +kernel, by decide +kernel⟩
  have large : versionTenthAlpha.Roomy := ⟨by decide +kernel, by decide +kernel⟩
  exact ⟨by decide +kernel, by decide +kernel,
    (semverCompare_precedence_iff first second).mpr (small.kept large), by decide +kernel⟩

/-- A version with 2^32 as its first number is compared as one with none. -/
theorem semverCompare_wide :
    semverParse versionWide.text = some ⟨0, 0, 0, [], []⟩ ∧
      semverParse versionSmallest.text = some ⟨0, 0, 1, [], []⟩ ∧
      sign (semverCompare ⟨0, 0, 0, [], []⟩ ⟨0, 0, 1, [], []⟩) ≠
        versionWide.precedence versionSmallest := by
  decide +kernel

end Cookbook.Server
