import Cookbook.Library.Number

/-!
# Versions and version ranges

Versions as the registry reads and compares them, and the ranges of the resolve requests. A number
that does not fit is cut to 32 bits.
-/
namespace Cookbook.Server

open Library.Text

/-! ## Versions -/

/-- `cookbook_semver` -/
structure Semver where
  /-- `major` -/
  major : Int
  /-- `minor` -/
  minor : Int
  /-- `patch` -/
  patch : Int
  /-- `pre_release` -/
  preRelease : Bytes
  /-- `build_meta` -/
  buildMeta : Bytes
  deriving DecidableEq

/-- The version with which a structure is filled at first. -/
def Semver.zero : Semver := ⟨0, 0, 0, [], []⟩

/-- A number of a version and the text behind it. -/
def readComponent : Bytes → Option (Int × Bytes)
  | c :: rest => if isDecimal c then some (atoi (c :: rest), rest.dropWhile isDecimal) else none
  | [] => none

/-- The text behind a dot. -/
def behindDot : Bytes → Option Bytes
  | c :: rest => if c = dot then some rest else none
  | [] => none

/-- A label that starts with a sign and fits its buffer; nothing without the sign. -/
def readLabel (sign : UInt8) (inside : UInt8 → Bool) : Bytes → Option (Bytes × Bytes)
  | c :: rest =>
    if c = sign then
      let label := rest.takeWhile inside
      if label = [] ∨ 64 ≤ label.length then none else some (label, rest.dropWhile inside)
    else some ([], c :: rest)
  | [] => some ([], [])

/-- `cookbook_semver_parse` -/
def semverParse (text : Bytes) : Option Semver := do
  let (major, rest) ← readComponent text
  let rest ← behindDot rest
  let (minor, rest) ← readComponent rest
  let rest ← behindDot rest
  let (patch, rest) ← readComponent rest
  let (preRelease, rest) ← readLabel 0x2D (· != 0x2B) rest
  let (buildMeta, rest) ← readLabel 0x2B (fun _ => true) rest
  if rest = [] then some ⟨major, minor, patch, preRelease, buildMeta⟩ else none

example : semverParse (ascii "1.3.0-beta.1+build.42") =
    some ⟨1, 3, 0, ascii "beta.1", ascii "build.42"⟩ := by decide

/-- `memcmp` on two texts, up to the end of the shorter one. -/
def memcmp : Bytes → Bytes → Int
  | a :: left, b :: right => if a < b then -1 else if b < a then 1 else memcmp left right
  | _, _ => 0

/-- The comparison of two identifiers of a pre-release. -/
def compareIdentifier (left right : Bytes) : Int :=
  if left.all isDecimal && right.all isDecimal then
    if strtoll left < strtoll right then -1 else if strtoll right < strtoll left then 1 else 0
  else if left.all isDecimal then -1
  else if right.all isDecimal then 1
  else
    let common := memcmp left right
    if common ≠ 0 then common
    else if left.length < right.length then -1
    else if right.length < left.length then 1
    else 0

/-- The text behind an identifier and the dot that ends it. -/
def behindIdentifier (text : Bytes) : Bytes := (text.dropWhile (· != dot)).drop 1

/-- The loop of `compare_pre` over the identifiers: each of them takes a character. -/
def comparePreFrom : Nat → Bytes → Bytes → Int
  | 0, _, _ => 0
  | _ + 1, [], [] => 0
  | _ + 1, _ :: _, [] => 1
  | _ + 1, [], _ :: _ => -1
  | fuel + 1, a :: left, b :: right =>
    let order := compareIdentifier ((a :: left).takeWhile (· != dot))
      ((b :: right).takeWhile (· != dot))
    if order ≠ 0 then order
    else comparePreFrom fuel (behindIdentifier (a :: left)) (behindIdentifier (b :: right))

/-- `compare_pre` -/
def comparePre (left right : Bytes) : Int :=
  if left = [] ∧ right = [] then 0
  else if left = [] then 1
  else if right = [] then -1
  else comparePreFrom (left.length + 1) left right

/-- The difference of two numbers of 32 bits, in 32 bits. -/
def difference (left right : Int) : Int := (left - right).bmod 4294967296

/-- `cookbook_semver_compare` -/
def semverCompare (left right : Semver) : Int :=
  if left.major ≠ right.major then difference left.major right.major
  else if left.minor ≠ right.minor then difference left.minor right.minor
  else if left.patch ≠ right.patch then difference left.patch right.patch
  else comparePre left.preRelease right.preRelease

/-! ## Ranges -/

/-- `cookbook_range_type` -/
inductive RangeType
  /-- `COOKBOOK_RANGE_EXACT` -/
  | exact
  /-- `COOKBOOK_RANGE_CARET` -/
  | caret
  /-- `COOKBOOK_RANGE_TILDE` -/
  | tilde
  /-- `COOKBOOK_RANGE_WILDCARD` -/
  | wildcard
  /-- `COOKBOOK_RANGE_BOUNDED` -/
  | bounded
  deriving DecidableEq

/-- `cookbook_range` -/
structure Range where
  /-- `type` -/
  type : RangeType
  /-- `lower` -/
  lower : Semver
  /-- `upper` -/
  upper : Semver
  /-- `lower_inclusive` -/
  lowerInclusive : Bool
  /-- `upper_inclusive` -/
  upperInclusive : Bool

/-- A range with one version. -/
def Range.single (type : RangeType) (lower : Semver) : Range :=
  ⟨type, lower, .zero, false, false⟩

/-- A range that is known by its first numbers, `-1` where any number will do. -/
def Range.partialVersion (major minor : Int) : Range :=
  .single .wildcard { Semver.zero with major, minor }

/-- The bounded ranges of `cookbook_range_parse`, behind the bracket. -/
def boundedParse (lowerInclusive : Bool) (text : Bytes) : Option Range := do
  let front := text.takeWhile (· != comma)
  let behind ← strchr comma text
  if 128 ≤ front.length then none
  let lower ← semverParse front
  let rest := (behind.drop 1).dropWhile isSpace
  let inside := rest.takeWhile fun c => c != 0x29 && c != 0x5D
  let close ← (rest.drop inside.length).head?
  if 128 ≤ inside.length then none
  let upper ← semverParse inside
  some ⟨.bounded, lower, upper, lowerInclusive, close == 0x5D⟩

/-- The ranges of `cookbook_range_parse` with a star behind the first character. -/
def starParse (text : Bytes) : Option Range :=
  (strchr star text).map fun found =>
    let front := text.take (text.length - found.length)
    match strchr dot front with
    | none => .partialVersion (atoi text) (-1)
    | some behind =>
      if (behind.drop 1) = [] then .partialVersion (atoi text) (-1)
      else .partialVersion (atoi text) (atoi (behind.drop 1))

/-- `cookbook_range_parse` -/
def rangeParse (text : Bytes) : Option Range :=
  match text.dropWhile isSpace with
  | [] => (semverParse []).map (.single .exact)
  | c :: rest =>
    if c = 0x5E then (semverParse rest).map (.single .caret)
    else if c = 0x7E then (semverParse rest).map (.single .tilde)
    else if c = star then some (.partialVersion (-1) (-1))
    else if c = 0x5B ∨ c = 0x28 then boundedParse (c == 0x5B) rest
    else
      match starParse (c :: rest) with
      | some range => some range
      | none => (semverParse (c :: rest)).map (.single .exact)

/-- A version in front of a release matches the release's own numbers only. -/
def sameNumbers (left right : Semver) : Bool :=
  left.major == right.major && left.minor == right.minor && left.patch == right.patch

/-- `cookbook_range_satisfies` -/
def rangeSatisfies (range : Range) (version : Semver) : Bool :=
  let isPre := version.preRelease != []
  match range.type with
  | .exact => semverCompare range.lower version == 0
  | .caret =>
    !decide (semverCompare version range.lower < 0) &&
      (!isPre || sameNumbers version range.lower) &&
      if range.lower.major ≠ 0 then version.major == range.lower.major
      else if range.lower.minor ≠ 0 then
        version.major == 0 && version.minor == range.lower.minor
      else version.major == 0 && version.minor == 0 && version.patch == range.lower.patch
  | .tilde =>
    !decide (semverCompare version range.lower < 0) &&
      (!isPre || sameNumbers version range.lower) &&
      version.major == range.lower.major && version.minor == range.lower.minor
  | .wildcard =>
    !isPre && (range.lower.major == -1 || (version.major == range.lower.major &&
      (range.lower.minor == -1 || version.minor == range.lower.minor)))
  | .bounded =>
    (if range.lowerInclusive then decide (0 ≤ semverCompare version range.lower)
      else decide (0 < semverCompare version range.lower)) &&
    (if range.upperInclusive then decide (semverCompare version range.upper ≤ 0)
      else decide (semverCompare version range.upper < 0))

example : (rangeParse (ascii "[1.0.0, 2.0.0)")).map (rangeSatisfies · ⟨1, 4, 2, [], []⟩) =
    some true := by decide

end Cookbook.Server
