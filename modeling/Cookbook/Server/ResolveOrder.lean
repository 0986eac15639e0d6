import Cookbook.Library.Sorting
import Cookbook.Server.Resolve

/-!
# The order of resolved versions

The query sorts by the three numbers of the index rows and leaves the rest open. The versions are
listed in falling precedence, whatever order the database picks, exactly when no two of them may come
in an order that is against their precedence. Where the index carries the numbers of the versions,
these are the pre-releases of one version, among themselves and with their release.
-/
namespace Cookbook.Server

open Library.Text Library.Sorting

/-- The columns by which the query sorts: the first row may stand in front of the second. -/
def resolveOrder (left right : ArtifactRow × ArtifactSemverRow) : Bool :=
  decide (right.2.major < left.2.major) || left.2.major == right.2.major &&
    (decide (right.2.minor < left.2.minor) || left.2.minor == right.2.minor &&
      decide (right.2.patch ≤ left.2.patch))

section Catalogues

variable (db : Database) (groupId artifact : Bytes) (query : ResolveQuery)

/-- The published versions of an artifact, each with one of its index rows. -/
def Database.resolveJoined (includeYanked : Bool) : List (ArtifactRow × ArtifactSemverRow) :=
  (db.artifacts.filter (resolveSelects groupId artifact includeYanked)).flatMap fun row =>
    (db.artifactSemver.filter (·.coordId == row.coordId)).map fun index => (row, index)

/-- The rows of the query in an order that the database may pick. -/
def ResolveAnswer (rows : List ArtifactRow) : Prop :=
  ∃ joined, Sorts resolveOrder (db.resolveJoined groupId artifact query.includeYanked) joined ∧
    rows = joined.map Prod.fst

/-- The version of a row that the filter takes. -/
def takenVersion (row : ArtifactRow) : Option Semver :=
  if (resolveTakes query (resolveRow query.includeYanked row)).isSome then semverParse row.version
  else none

/-- The versions are listed in falling precedence, in whatever order the rows come. -/
def Descends : Prop :=
  ∀ rows, ResolveAnswer db groupId artifact query rows →
    (rows.filterMap (takenVersion query)).Pairwise fun first later => 0 ≤ semverCompare first later

/-- Two rows are listed in an order that the query allows only if the first has no lower
precedence. -/
def Agrees (first second : ArtifactRow × ArtifactSemverRow) : Prop :=
  ∀ version other, takenVersion query first.1 = some version →
    takenVersion query second.1 = some other → 0 ≤ semverCompare version other

end Catalogues

/-- The sort compares each entry with itself and with those behind it. -/
theorem resolveOrder_total (left right : ArtifactRow × ArtifactSemverRow) :
    (resolveOrder left right || resolveOrder right left) = true := by
  simp only [resolveOrder, Bool.or_eq_true, Bool.and_eq_true, decide_eq_true_eq, beq_iff_eq]
  omega

/-- It is transitive. -/
theorem resolveOrder_trans (first second third : ArtifactRow × ArtifactSemverRow)
    (front : resolveOrder first second = true) (behind : resolveOrder second third = true) :
    resolveOrder first third = true := by
  simp only [resolveOrder, Bool.or_eq_true, Bool.and_eq_true, decide_eq_true_eq, beq_iff_eq]
    at front behind ⊢
  omega

/-- The machine's answer is one of them. -/
theorem resolveRows_answer (db : Database) (groupId artifact : Bytes) (query : ResolveQuery) :
    ResolveAnswer db groupId artifact query
      (db.resolveRows groupId artifact query.includeYanked) :=
  ⟨_, mergeSort_sorts resolveOrder_trans resolveOrder_total _, rfl⟩

/-- The versions are listed in falling precedence, in whatever order the rows come, exactly when every
two rows that may come in an order agree with it. -/
theorem descends_iff (db : Database) (groupId artifact : Bytes) (query : ResolveQuery) :
    Descends db groupId artifact query ↔
      ∀ first second,
        [first, second].Subperm (db.resolveJoined groupId artifact query.includeYanked) →
        resolveOrder first second = true → Agrees query first second := by
  rw [← sorts_pairwise_iff resolveOrder_trans resolveOrder_total (Agrees query)]
  have listed : ∀ joined : List (ArtifactRow × ArtifactSemverRow),
      ((joined.map Prod.fst).filterMap (takenVersion query)).Pairwise
        (fun first later => 0 ≤ semverCompare first later) ↔ joined.Pairwise (Agrees query) := by
    intro joined
    rw [List.pairwise_filterMap, List.pairwise_map]
    apply List.Pairwise.iff
    intro first second
    constructor
    · intro related version other taken also
      exact related version taken other also
    · intro agrees version taken other also
      exact agrees version other taken also
  constructor
  · intro descends joined sorts
    exact (listed joined).mp (descends _ ⟨joined, sorts, rfl⟩)
  · rintro every _ ⟨joined, sorts, rfl⟩
    exact (listed joined).mpr (every joined sorts)

/-! ## Where the index carries the numbers -/

/-- The numbers of a version are those of an index row, and are not negative. -/
structure ArtifactSemverRow.Carries (index : ArtifactSemverRow) (version : Semver) : Prop where
  /-- `major` -/
  major : index.major = version.major ∧ 0 ≤ version.major ∧ version.major < 2147483648
  /-- `minor` -/
  minor : index.minor = version.minor ∧ 0 ≤ version.minor ∧ version.minor < 2147483648
  /-- `patch` -/
  patch : index.patch = version.patch ∧ 0 ≤ version.patch ∧ version.patch < 2147483648

/-- Where it does not leave 32 bits, the difference is the difference. -/
theorem difference_of_small {left right : Int} (low : 0 ≤ left ∧ 0 ≤ right)
    (high : left < 2147483648 ∧ right < 2147483648) : difference left right = left - right := by
  unfold difference
  apply Int.bmod_eq_of_le
  · omega
  · omega

/-- Two versions in the order of their numbers are in the order of their precedence, but for their
pre-releases. -/
theorem agrees_of_carries {first second : ArtifactRow × ArtifactSemverRow}
    {version other : Semver} (front : resolveOrder first second = true)
    (own : first.2.Carries version) (others : second.2.Carries other) :
    0 ≤ semverCompare version other ↔
      (sameNumbers version other = true → 0 ≤ comparePre version.preRelease other.preRelease) := by
  obtain ⟨⟨major, major0, majorEnd⟩, ⟨minor, minor0, minorEnd⟩, ⟨patch, patch0, patchEnd⟩⟩ := own
  obtain ⟨⟨major', major0', majorEnd'⟩, ⟨minor', minor0', minorEnd'⟩,
    ⟨patch', patch0', patchEnd'⟩⟩ := others
  simp only [resolveOrder, Bool.or_eq_true, Bool.and_eq_true, decide_eq_true_eq, beq_iff_eq, major,
    major', minor, minor', patch, patch'] at front
  simp only [sameNumbers, Bool.and_eq_true, beq_iff_eq, semverCompare]
  rw [difference_of_small ⟨major0, major0'⟩ ⟨majorEnd, majorEnd'⟩,
    difference_of_small ⟨minor0, minor0'⟩ ⟨minorEnd, minorEnd'⟩,
    difference_of_small ⟨patch0, patch0'⟩ ⟨patchEnd, patchEnd'⟩]
  by_cases sameMajor : version.major = other.major
  · by_cases sameMinor : version.minor = other.minor
    · by_cases samePatch : version.patch = other.patch
      · simp [sameMajor, sameMinor, samePatch]
      · simp only [sameMajor, sameMinor, ne_eq, not_true_eq_false, if_false, samePatch,
          not_false_eq_true, if_true, and_false, false_imp_iff, iff_true]
        omega
    · simp only [sameMajor, sameMinor, ne_eq, not_true_eq_false, if_false, not_false_eq_true,
        if_true, and_false, false_and, false_imp_iff, iff_true]
      omega
  · simp only [sameMajor, ne_eq, not_false_eq_true, if_true, false_and, false_imp_iff, iff_true]
    omega

/-- Where the index carries the numbers of the versions, only pre-releases of the same numbers can be
out of order. -/
theorem descends_iff_of_carries (db : Database) (groupId artifact : Bytes) (query : ResolveQuery)
    (carries : ∀ entry ∈ db.resolveJoined groupId artifact query.includeYanked, ∀ version,
      takenVersion query entry.1 = some version → entry.2.Carries version) :
    Descends db groupId artifact query ↔
      ∀ first second,
        [first, second].Subperm (db.resolveJoined groupId artifact query.includeYanked) →
        resolveOrder first second = true → ∀ version other,
          takenVersion query first.1 = some version → takenVersion query second.1 = some other →
          sameNumbers version other = true →
          0 ≤ comparePre version.preRelease other.preRelease := by
  rw [descends_iff]
  apply forall_congr'
  intro first
  apply forall_congr'
  intro second
  apply imp_congr_right
  intro both
  apply imp_congr_right
  intro front
  apply forall_congr'
  intro version
  apply forall_congr'
  intro other
  have inside := both.subset
  constructor
  · intro agrees taken also
    exact (agrees_of_carries front (carries first (inside (by simp)) _ taken)
      (carries second (inside (by simp)) _ also)).mp (agrees taken also)
  · intro pre taken also
    exact (agrees_of_carries front (carries first (inside (by simp)) _ taken)
      (carries second (inside (by simp)) _ also)).mpr (pre taken also)

/-! ## A release behind its candidate -/

/-- A published row of the artifact `core`. -/
def coreRow (version : Bytes) : ArtifactRow where
  coordId := ascii "org.acme:core:" ++ version ++ ascii ":noarch"
  groupId := ascii "org.acme"
  artifact := ascii "core"
  version := version
  triple := ascii "noarch"
  snapshot := 0
  yanked := 0
  yankReason := none
  status := ascii "published"
  sha256 := []
  descriptorSha256 := none
  sizeBytes := 0
  pendingSince := []
  publishedAt := none

/-- Its index row. -/
def coreIndex (version : Bytes) (major minor patch : Int) (preRelease : Bytes) :
    ArtifactSemverRow :=
  ⟨(coreRow version).coordId, major, minor, patch, some preRelease, some []⟩

/-- A candidate and the release that came after it. -/
def candidateAndRelease : Database :=
  { Database.empty with
    artifacts := [coreRow (ascii "1.0.0-rc.1"), coreRow (ascii "1.0.0")]
    artifactSemver := [coreIndex (ascii "1.0.0-rc.1") 1 0 0 (ascii "rc.1"),
      coreIndex (ascii "1.0.0") 1 0 0 []] }

/-- All versions from the candidate on. -/
def fromCandidate : ResolveQuery where
  range := ⟨.bounded, ⟨1, 0, 0, ascii "rc.1", []⟩, ⟨2, 0, 0, [], []⟩, true, false⟩
  includeSnapshots := false
  includeYanked := false

example : rangeParse (ascii "[1.0.0-rc.1,2.0.0)") = some fromCandidate.range := by rfl

/-- The candidate may be listed in front of its release. -/
theorem candidateAndRelease_not_descends :
    ¬ Descends candidateAndRelease (ascii "org.acme") (ascii "core") fromCandidate := by
  rw [descends_iff]
  intro every
  let candidate := (coreRow (ascii "1.0.0-rc.1"),
    coreIndex (ascii "1.0.0-rc.1") 1 0 0 (ascii "rc.1"))
  let release := (coreRow (ascii "1.0.0"), coreIndex (ascii "1.0.0") 1 0 0 [])
  have joined : candidateAndRelease.resolveJoined (ascii "org.acme") (ascii "core")
      fromCandidate.includeYanked = [candidate, release] := by
    decide +kernel
  have agrees := every candidate release (by rw [joined]) (by decide +kernel)
    ⟨1, 0, 0, ascii "rc.1", []⟩ ⟨1, 0, 0, [], []⟩ (by decide +kernel) (by decide +kernel)
  revert agrees
  decide +kernel

end Cookbook.Server
