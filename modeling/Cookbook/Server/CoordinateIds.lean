import Cookbook.Server.Publish
import Mathlib.Data.List.Basic

/-!
# Ids of releases

A release is known by its group, artifact, version and triple. Its id joins the four with colons and
is cut to a buffer. The validators keep colons out of the group and of the artifact, so these two
can be read back; a version may hold a colon as a triple does, and a long one may not fit.
-/
namespace Cookbook.Server

open Library.Text

/-! ## Releases -/

/-- What a row of the catalogue stands for. -/
structure Release where
  /-- The group, the artifact and the version. -/
  coordinate : Coordinate
  /-- The triple. -/
  triple : Bytes
  deriving DecidableEq

namespace Release

/-- `coord_id` of a release. -/
def id (release : Release) : Bytes := coordId release.coordinate release.triple

/-- The last two parts of the id. -/
def label (release : Release) : Bytes :=
  release.coordinate.version ++ colon :: release.triple

/-- What the buffer leaves to the version and the triple. -/
def room (release : Release) : Nat :=
  253 - (release.coordinate.group.length + release.coordinate.artifact.length)

/-- A release as it may be published: the checks of a descriptor pass, and the triple is read from
the name of a file. -/
structure Publishable (release : Release) : Prop where
  /-- `validate_group` -/
  group : validateGroup release.coordinate.group = true
  /-- `validate_artifact` -/
  artifact : validateArtifact release.coordinate.artifact = true
  /-- `cookbook_semver_parse` -/
  version : (semverParse release.coordinate.version).isSome = true
  /-- `extract_triple` -/
  triple : ∃ filename artifact version, release.triple = extractTriple filename artifact version

/-- The same group and the same artifact. -/
def Sibling (left right : Release) : Prop :=
  left.coordinate.group = right.coordinate.group ∧
    left.coordinate.artifact = right.coordinate.artifact

/-- The version of `right` goes on with a colon and the piece with which the triple of `left`
starts. -/
def Shifted (left right : Release) : Prop :=
  Moved colon left.coordinate.version right.coordinate.version left.triple right.triple

/-- Neither version leaves its triple whole in the buffer, and they start alike. -/
def CutAlike (left right : Release) : Prop :=
  left.room ≤ left.label.length ∧ right.room ≤ right.label.length ∧
    left.label.take left.room = right.label.take right.room

end Release

/-- A group with a valid name has no colon. -/
theorem validateGroup_colon {group : Bytes} (valid : validateGroup group = true) :
    colon ∉ group := by
  intro member
  simp only [validateGroup, Bool.and_eq_true] at valid
  have inside := List.all_eq_true.mp valid.2 colon member
  exact absurd inside (by decide)

/-- An artifact with a valid name has no colon. -/
theorem validateArtifact_colon {artifact : Bytes} (valid : validateArtifact artifact = true) :
    colon ∉ artifact := by
  intro member
  simp only [validateArtifact, Bool.and_eq_true] at valid
  have inside := List.all_eq_true.mp valid.2 colon member
  exact absurd inside (by decide)

namespace Release

/-- The id is the group, the artifact and what is left of the label. -/
theorem Publishable.id_eq {release : Release} (publishable : release.Publishable) :
    release.id = release.coordinate.group ++ colon :: (release.coordinate.artifact ++ colon ::
      release.label.take release.room) := by
  have shortGroup : release.coordinate.group.length ≤ 128 := by
    have valid := publishable.group
    simp only [validateGroup, Bool.and_eq_true, decide_eq_true_eq] at valid
    exact valid.1.1.2
  have shortArtifact : release.coordinate.artifact.length ≤ 64 := by
    have valid := publishable.artifact
    simp only [validateArtifact, Bool.and_eq_true, decide_eq_true_eq] at valid
    exact valid.1.1.2
  have left : 255 - release.coordinate.group.length =
      release.room + 1 + release.coordinate.artifact.length + 1 := by
    simp only [room]
    omega
  rw [id, coordId, List.take_append, List.take_of_length_le (by omega), left, List.take_succ_cons,
    List.take_append, List.take_of_length_le (by omega)]
  have behind : release.room + 1 + release.coordinate.artifact.length -
      release.coordinate.artifact.length = release.room + 1 := by omega
  rw [behind, List.take_succ_cons, label]

/-- Siblings leave the same room. -/
theorem Sibling.room_eq {left right : Release} (sibling : left.Sibling right) :
    left.room = right.room := by
  rw [room, room, sibling.1, sibling.2]

/-- Two ids agree for siblings only, and then where the labels do as far as the buffer reaches. -/
theorem id_eq_iff_label {left right : Release} (published : left.Publishable)
    (published' : right.Publishable) :
    left.id = right.id ↔
      left.Sibling right ∧ left.label.take left.room = right.label.take right.room := by
  rw [published.id_eq, published'.id_eq,
    joined_free_iff (validateGroup_colon published.group) (validateGroup_colon published'.group),
    joined_free_iff (validateArtifact_colon published.artifact)
      (validateArtifact_colon published'.artifact), ← and_assoc, Sibling]

/-- Two releases with one id are the same release, or siblings of which one's version goes on into
the other's triple, or which the buffer cuts to the same start. -/
theorem id_eq_iff {left right : Release} (published : left.Publishable)
    (published' : right.Publishable) :
    left.id = right.id ↔
      left = right ∨ left.Sibling right ∧
        (left.Shifted right ∨ right.Shifted left ∨ left.CutAlike right) := by
  rw [id_eq_iff_label published published']
  constructor
  · rintro ⟨sibling, same⟩
    have sameRoom := sibling.room_eq
    rw [← sameRoom, take_eq_take_iff] at same
    obtain whole | cut := same
    · obtain ⟨version, triple⟩ | shifted | shifted := (joined_eq_iff _ _ _ _ _).mp whole
      · left
        obtain ⟨⟨group, artifact, _⟩, _⟩ := left
        obtain ⟨⟨group', artifact', _⟩, _⟩ := right
        obtain ⟨rfl, rfl⟩ : group = group' ∧ artifact = artifact' := sibling
        subst version triple
        rfl
      · exact .inr ⟨sibling, .inl shifted⟩
      · exact .inr ⟨sibling, .inr (.inl shifted)⟩
    · right
      refine ⟨sibling, .inr (.inr ?_)⟩
      rw [CutAlike, ← sameRoom]
      exact cut
  · rintro (rfl | ⟨sibling, overlap⟩)
    · exact ⟨⟨rfl, rfl⟩, rfl⟩
    · refine ⟨sibling, ?_⟩
      have labels : left.Shifted right ∨ right.Shifted left → left.label = right.label :=
        fun shifted => (joined_eq_iff _ _ _ _ _).mpr (.inr shifted)
      obtain shifted | shifted | ⟨-, -, same⟩ := overlap
      · rw [labels (.inl shifted), sibling.room_eq]
      · rw [labels (.inr shifted), sibling.room_eq]
      · exact same

/-- Two different releases keep different ids unless they are siblings of which one's version goes
on into the other's triple, or which the buffer cuts to the same start. -/
theorem id_ne_iff {left right : Release} (published : left.Publishable)
    (published' : right.Publishable) (different : left ≠ right) :
    left.id ≠ right.id ↔
      ¬ (left.Sibling right ∧ (left.Shifted right ∨ right.Shifted left ∨ left.CutAlike right)) := by
  rw [Ne, id_eq_iff published published']
  simp only [different, false_or]

/-- A release of `org.acme:core`, known from the descriptor alone. -/
def core (version : String) : Release :=
  ⟨⟨ascii "org.acme", ascii "core", ascii version⟩, ascii "noarch"⟩

/-- Its parts pass the checks when the version does. -/
theorem core_publishable (version : String) (valid : (semverParse (ascii version)).isSome = true) :
    (core version).Publishable := by
  have group : validateGroup (ascii "org.acme") = true := by decide
  have artifact : validateArtifact (ascii "core") = true := by decide
  have triple : ascii "noarch" = extractTriple nowPasta (ascii "core") (ascii "1.0.0") := by decide
  exact ⟨group, artifact, valid, _, _, _, triple⟩

/-- Two releases of one artifact keep different ids. -/
theorem id_ne_releases : (core "1.0.0").id ≠ (core "1.0.1").id ↔
    ¬ ((core "1.0.0").Sibling (core "1.0.1") ∧
      ((core "1.0.0").Shifted (core "1.0.1") ∨ (core "1.0.1").Shifted (core "1.0.0") ∨
        (core "1.0.0").CutAlike (core "1.0.1"))) :=
  id_ne_iff (core_publishable "1.0.0" (by decide)) (core_publishable "1.0.1" (by decide))
    (by decide)

/-- A release with the longest names there are, whose version has a long pre-release. -/
def longest (last : UInt8) : Release :=
  ⟨⟨List.replicate 128 0x61, List.replicate 64 0x62,
    ascii "1.0.0-" ++ List.replicate 55 0x63 ++ [last]⟩, ascii "noarch"⟩

/-- Two versions that differ in their last character have one id, in its buffer. -/
theorem id_collision : (longest 0x31).Publishable ∧ (longest 0x32).Publishable ∧
    longest 0x31 ≠ longest 0x32 ∧ (longest 0x31).id = (longest 0x32).id :=
  ⟨⟨by decide +kernel, by decide +kernel, by decide +kernel, nowPasta, ascii "core",
      ascii "1.0.0", by decide⟩,
    ⟨by decide +kernel, by decide +kernel, by decide +kernel, nowPasta, ascii "core",
      ascii "1.0.0", by decide⟩,
    by decide +kernel, by decide +kernel⟩

/-- A colon in a version takes over the start of a triple. -/
example : coordId ⟨ascii "org.acme", ascii "core", ascii "1.0.0-a"⟩
      (extractTriple (ascii "core-1.0.0-a-b-linux-amd64.zip") (ascii "core") (ascii "1.0.0-a")) =
    coordId ⟨ascii "org.acme", ascii "core", ascii "1.0.0-a:b"⟩
      (extractTriple (ascii "core-1.0.0-a:b-linux-amd64.zip") (ascii "core")
        (ascii "1.0.0-a:b")) := by
  decide +kernel

/-- Ids tell releases apart whose versions have no colon and of which one fits the buffer. -/
theorem id_injective {left right : Release} (published : left.Publishable)
    (published' : right.Publishable) (plain : colon ∉ left.coordinate.version)
    (plain' : colon ∉ right.coordinate.version) (fits : left.label.length < left.room)
    (same : left.id = right.id) : left = right := by
  obtain same | ⟨-, ⟨piece, version, -⟩ | ⟨piece, version, -⟩ | ⟨long, -⟩⟩ :=
    (id_eq_iff published published').mp same
  · exact same
  · rw [version] at plain'
    simp at plain'
  · rw [version] at plain
    simp at plain
  · omega

end Release

end Cookbook.Server
