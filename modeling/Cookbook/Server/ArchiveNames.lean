import Cookbook.Server.Publish

/-!
# Names of archives

An archive is named after its artifact, its version and the platform that it is built for, joined
with hyphens, and has an extension. `extract_triple` reads the platform back. It takes the extension
off at the first `.tar.` there is, and works in buffers.
-/
namespace Cookbook.Server

open Library.Text

/-- Joins the parts of a name. -/
@[simp] abbrev joint : UInt8 := 0x2D

/-- What marks the extension of a compressed archive. -/
def tarMark : Bytes := ascii ".tar."

/-- An extension has no dot, or is that of an archive and of its compression. -/
def IsExtension (ext : Bytes) : Prop := dot ∉ ext ∨ ∃ kind, ext = ascii "tar." ++ kind

/-- What an archive is built for. -/
structure Platform where
  /-- `os` -/
  os : Bytes
  /-- `arch` -/
  arch : Bytes
  /-- `abi` -/
  abi : Bytes
  /-- The system has a name without hyphens and dots. -/
  os_plain : os ≠ [] ∧ joint ∉ os ∧ dot ∉ os
  /-- So has the processor. -/
  arch_plain : arch ≠ [] ∧ joint ∉ arch ∧ dot ∉ arch
  /-- The last part may have hyphens. -/
  abi_plain : abi ≠ [] ∧ dot ∉ abi

namespace Platform

/-- The parts of a platform, joined. -/
def joined (platform : Platform) (separator : UInt8) : Bytes :=
  platform.os ++ separator :: (platform.arch ++ separator :: platform.abi)

/-- The platform in the name of a file. -/
def name (platform : Platform) : Bytes := platform.joined joint

/-- The platform in the catalogue. -/
def triple (platform : Platform) : Bytes := platform.joined colon

/-- Both have the same length. -/
theorem triple_length (platform : Platform) : platform.triple.length = platform.name.length := by
  simp [triple, name, joined]

end Platform

/-- An artifact and its version. -/
def stem (artifact version : Bytes) : Bytes := artifact ++ joint :: version

/-- The name of a file. -/
def fileName (front ext : Bytes) : Bytes := front ++ dot :: ext

/-! ## The name without its extension -/

/-- A name is cut at the first mark of an archive; without one at the last dot. -/
theorem baseName_cases (filename : Bytes) :
    (∃ more, filename.take 255 = baseName filename ++ (tarMark ++ more) ∧
      ∀ front' more', filename.take 255 = front' ++ (tarMark ++ more') →
        (baseName filename).length ≤ front'.length) ∨
    (¬ tarMark <:+: filename.take 255 ∧ ∃ tail, dot ∉ tail ∧
      filename.take 255 = baseName filename ++ dot :: tail) ∨
    (dot ∉ filename.take 255 ∧ baseName filename = filename.take 255) := by
  cases search : strstr (ascii ".tar.") (filename.take 255) with
  | some behind =>
    obtain ⟨front, more, whole, rfl, least⟩ := strstr_split search
    have cut : baseName filename = front := by
      simp only [baseName, search]
      rw [whole, List.length_append, Nat.add_sub_cancel]
      exact List.take_left' rfl
    rw [cut]
    exact .inl ⟨more, whole, least⟩
  | none =>
    right
    cases turned : strchr dot (filename.take 255).reverse with
    | some front =>
      obtain ⟨behind, rfl, whole, free⟩ := strchr_split turned
      have cut : baseName filename = behind.reverse := by
        simp only [baseName, search, turned, List.drop_one, List.tail_cons]
      refine .inl ⟨strstr_none_iff.mp search,
        ((filename.take 255).reverse.takeWhile (· != dot)).reverse, by simpa using free, ?_⟩
      have back := congrArg List.reverse whole
      rw [cut]
      simpa using back
    | none =>
      have cut : baseName filename = filename.take 255 := by
        simp only [baseName, search, turned]
      refine .inr ⟨fun member => ?_, cut⟩
      obtain ⟨front, rest, whole, free⟩ :=
        List.eq_append_cons_of_mem (List.mem_reverse.mpr member)
      rw [whole, strchr_stop front free] at turned
      cases turned

/-- What is left of a name is its front. -/
theorem baseName_front_of (filename : Bytes) : baseName filename <+: filename.take 255 := by
  obtain ⟨more, whole, -⟩ | ⟨-, tail, -, whole⟩ | ⟨-, whole⟩ := baseName_cases filename
  · exact ⟨_, whole.symm⟩
  · exact ⟨_, whole.symm⟩
  · rw [whole]

/-- A mark has two dots. -/
theorem tarMark_dots : tarMark.count dot = 2 := by decide

/-- A text with one dot at most has no mark. -/
theorem tarMark_absent {text : Bytes} (few : text.count dot ≤ 1) : ¬ tarMark <:+: text := by
  intro occurs
  have dots := occurs.sublist.count_le dot
  rw [tarMark_dots] at dots
  omega

/-- A mark that starts in front of an extension, or in front of one without dots, ends at the dot of
the extension at the latest. -/
theorem tarMark_early {front ext before after : Bytes}
    (whole : fileName front ext = before ++ (tarMark ++ after))
    (proper : before.length < front.length ∨ dot ∉ ext) :
    before ++ tarMark <+: front ++ [dot] := by
  have split : (before ++ ascii ".tar") ++ dot :: after = front ++ dot :: ext := by
    rw [fileName] at whole
    rw [whole]
    simp [tarMark, ascii]
  obtain ⟨same, -⟩ | ⟨piece, longer, -⟩ | ⟨piece, longer, rest⟩ :=
    (joined_eq_iff _ _ _ _ _).mp split
  · rw [← same]
    exact ⟨[], by simp [tarMark, ascii]⟩
  · rw [longer]
    exact ⟨piece ++ [dot], by simp [tarMark, ascii]⟩
  · -- The mark would reach over the dot of the extension.
    rcases proper with short | free
    · obtain ⟨gap, rfl, inside⟩ | ⟨gap, rfl, -⟩ := List.append_eq_append_iff.mp longer
      · have positive : gap ≠ [] := fun empty => by simp [empty] at short
        obtain ⟨c, gap, rfl⟩ := List.exists_cons_of_ne_nil positive
        have member : dot ∈ ascii "tar" := by
          rw [show ascii "tar" = gap ++ dot :: piece from (List.cons.inj inside).2]
          simp
        exact absurd member (by decide)
      · rw [List.length_append] at short
        omega
    · rw [rest] at free
      simp at free

/-- The mark of an extension is seen when the buffer reaches over it. -/
theorem tarMark_shown {front : Bytes} (kind : Bytes) (fits : front.length ≤ 250) :
    (fileName front (ascii "tar." ++ kind)).take 255 =
      front ++ (tarMark ++ kind.take (250 - front.length)) := by
  have room : 255 - front.length = tarMark.length + (250 - front.length) := by
    change 255 - front.length = 5 + _
    omega
  change (front ++ (tarMark ++ kind)).take 255 = _
  rw [List.take_append, List.take_of_length_le (by omega), room, List.take_length_add_append]

/-- The name without its extension goes no further than the extension. -/
theorem baseName_within {ext : Bytes} (front : Bytes) (extension : IsExtension ext) :
    baseName (fileName front ext) <+: front := by
  have whole := List.take_append_drop 255 (fileName front ext)
  have start : front <+: fileName front ext := List.prefix_append _ _
  have cut := (baseName_front_of (fileName front ext)).trans (List.take_prefix 255 _)
  obtain ⟨more, marked, least⟩ | ⟨absent, tail, free, split⟩ | ⟨free, same⟩ :=
    baseName_cases (fileName front ext)
  · refine List.prefix_of_prefix_length_le cut start ?_
    by_contra beyond
    rcases extension with plain | ⟨kind, rfl⟩
    · rw [marked, List.append_assoc, List.append_assoc] at whole
      have early := (tarMark_early whole.symm (.inr plain)).length_le
      simp only [List.length_append, List.length_singleton,
        show tarMark.length = 5 from rfl] at early
      omega
    · have sizes := congrArg List.length marked
      simp only [List.length_take, List.length_append, show tarMark.length = 5 from rfl] at sizes
      exact beyond (least front _ (tarMark_shown kind (by omega)))
  · rw [split, List.append_assoc, List.cons_append] at whole
    obtain ⟨same, -⟩ | ⟨piece, longer, -⟩ | ⟨piece, longer, rest⟩ :=
      (joined_eq_iff _ _ _ front ext).mp whole
    · rw [same]
    · exact ⟨_, longer.symm⟩
    · exfalso
      rcases extension with plain | ⟨kind, rfl⟩
      · rw [rest] at plain
        simp at plain
      · have far : 3 ≤ piece.length := by
          match piece, rest with
          | [], rest | [_], rest | [_, _], rest => simp [ascii] at rest
          | _ :: _ :: _ :: _, _ => simp
        have sizes := congrArg List.length split
        rw [longer] at sizes
        simp only [List.length_take, List.length_append, List.length_cons] at sizes
        refine absent ?_
        rw [tarMark_shown kind (by omega)]
        exact ⟨front, _, List.append_assoc _ _ _⟩
  · have short : 255 ≤ front.length := by
      by_contra short
      refine free ?_
      rw [fileName, List.take_append, List.take_of_length_le (by omega),
        show 255 - front.length = 254 - front.length + 1 by omega]
      simp
    rw [same, fileName, List.take_append_of_le_length short]
    exact List.take_prefix _ _

/-- A name that fits is cut at its extension when there is no mark in front of it. -/
theorem baseName_front {front ext : Bytes} (extension : IsExtension ext)
    (fits : (fileName front ext).length < 256) (absent : ¬ tarMark <:+: front ++ [dot]) :
    baseName (fileName front ext) = front := by
  have within := baseName_within front extension
  have shown : (fileName front ext).take 255 = fileName front ext :=
    List.take_of_length_le (by omega)
  have cases := baseName_cases (fileName front ext)
  rw [shown] at cases
  obtain ⟨more, whole, -⟩ | ⟨unmarked, tail, free, whole⟩ | ⟨free, -⟩ := cases
  · refine within.eq_of_length (Nat.le_antisymm within.length_le ?_)
    by_contra short
    refine absent ?_
    exact (List.suffix_append _ tarMark).isInfix.trans
      (tarMark_early whole (.inl (by omega))).isInfix
  · obtain ⟨same, -⟩ | ⟨piece, -, rest⟩ | ⟨piece, -, rest⟩ :=
      (joined_eq_iff _ _ _ _ _).mp (whole.symm : _ = front ++ dot :: ext)
    · exact same
    · rw [rest] at free
      simp at free
    · rcases extension with plain | ⟨kind, rfl⟩
      · rw [rest] at plain
        simp at plain
      · exact absurd ⟨front, kind, List.append_assoc _ _ _⟩ unmarked
  · simp [fileName] at free

/-- A name that fits is cut inside its front when there is a mark in it. -/
theorem baseName_short {front rest : Bytes} (fits : (front ++ rest).length < 256)
    (marked : tarMark <:+: front) : (baseName (front ++ rest)).length < front.length := by
  obtain ⟨before, after, rfl⟩ := marked
  have shown : (before ++ tarMark ++ after ++ rest).take 255 =
      before ++ (tarMark ++ (after ++ rest)) := by
    rw [List.take_of_length_le (by omega)]
    simp
  have cases := baseName_cases (before ++ tarMark ++ after ++ rest)
  rw [shown] at cases
  obtain ⟨more, -, least⟩ | ⟨unmarked, -⟩ | ⟨free, -⟩ := cases
  · have bound := least before _ rfl
    simp only [List.length_append, show tarMark.length = 5 from rfl]
    omega
  · exact absurd ⟨before, _, List.append_assoc _ _ _⟩ unmarked
  · exact absurd (List.mem_append_right _ (List.mem_append_left _ (by decide))) free

/-! ## The triple -/

/-- `extract_triple` over the artifact and the version, in their buffer. -/
theorem extractTriple_eq (filename artifact version : Bytes) :
    extractTriple filename artifact version =
      if (stem artifact version ++ [joint]).take 255 <+: baseName filename then
        let part := (baseName filename).drop ((stem artifact version ++ [joint]).take 255).length
        if part = [] ∨ part = ascii "noarch" then ascii "noarch"
        else (tripleText (part.take 127)).getD (ascii "noarch")
      else ascii "noarch" := by
  simp [extractTriple, stem]

/-- A name without hyphens is no triple. -/
theorem tripleText_none {part : Bytes} (free : joint ∉ part) : tripleText part = none := by
  rw [tripleText, strchr_none free, Option.map_none]

/-- The parts of a platform are found, and printed into a buffer. -/
theorem tripleText_name (platform : Platform) :
    tripleText platform.name = some (platform.triple.take 127) := by
  obtain ⟨os, arch, abi, ⟨-, osFree, -⟩, ⟨-, archFree, -⟩, -⟩ := platform
  simp only [Platform.name, Platform.triple, Platform.joined, tripleText, strchr_stop os osFree,
    List.drop_one, List.tail_cons, strchr_stop arch archFree, Option.map_some, List.length_append,
    List.length_cons, Nat.add_sub_cancel, List.take_left]

/-- A triple fits its buffer. -/
theorem extractTriple_length (filename artifact version : Bytes) :
    (extractTriple filename artifact version).length ≤ 127 := by
  have short : (ascii "noarch").length ≤ 127 := by decide
  have printed : ∀ part, ((tripleText part).getD (ascii "noarch")).length ≤ 127 := by
    intro part
    unfold tripleText
    cases strchr 0x2D part with
    | none => exact short
    | some arch =>
      simp only [Option.map_some, Option.getD_some]
      split <;> exact List.length_take_le _ _
  rw [extractTriple_eq]
  dsimp only
  split
  · split
    · exact short
    · exact printed _
  · exact short

/-- What stands behind the artifact and the version is read as a platform. -/
theorem extractTriple_behind {filename artifact version part : Bytes}
    (fits : (stem artifact version).length < 255)
    (base : baseName filename = stem artifact version ++ joint :: part) :
    extractTriple filename artifact version =
      if part = [] ∨ part = ascii "noarch" then ascii "noarch"
      else (tripleText (part.take 127)).getD (ascii "noarch") := by
  have whole : (stem artifact version ++ [joint]).take 255 = stem artifact version ++ [joint] :=
    List.take_of_length_le (by rw [List.length_append]; exact fits)
  have split : baseName filename = (stem artifact version ++ [joint]) ++ part := by
    rw [base]
    simp
  rw [extractTriple_eq, whole, split, if_pos (List.prefix_append _ _), List.drop_left]

/-- A name that stops short of its artifact and version, or goes no further than `noarch`, has no
triple. -/
theorem extractTriple_noarch {filename artifact version : Bytes}
    (within : baseName filename <+: stem artifact version ++ joint :: ascii "noarch") :
    extractTriple filename artifact version = ascii "noarch" := by
  by_cases fits : (stem artifact version).length < 255
  · by_cases front : stem artifact version ++ [joint] <+: baseName filename
    · obtain ⟨part, base⟩ := front
      rw [List.append_assoc, List.singleton_append] at base
      rw [extractTriple_behind fits base.symm]
      rw [← base, List.prefix_append_right_inj, List.cons_prefix_cons] at within
      have free : joint ∉ part.take 127 := fun member =>
        absurd (within.2.subset (List.mem_of_mem_take member)) (by decide)
      rw [tripleText_none free, Option.getD_none, ite_self]
    · have whole : (stem artifact version ++ [joint]).take 255 = stem artifact version ++ [joint] :=
        List.take_of_length_le (by rw [List.length_append]; exact fits)
      rw [extractTriple_eq, whole, if_neg front]
  · rw [extractTriple_eq]
    dsimp only
    split
    · have size : ((stem artifact version ++ [joint]).take 255).length = 255 := by
        rw [List.length_take, List.length_append, List.length_singleton]
        omega
      have short := (baseName_front_of filename).length_le
      rw [List.length_take] at short
      rw [if_pos (.inl (List.drop_eq_nil_of_le (by omega)))]
    · rfl

/-! ## Reading the platform back -/

/-- An artifact has no dots. -/
theorem validateArtifact_dot {artifact : Bytes} (valid : validateArtifact artifact = true) :
    dot ∉ artifact := by
  intro member
  simp only [validateArtifact, Bool.and_eq_true] at valid
  exact absurd (List.all_eq_true.mp valid.2 dot member) (by decide)

/-- A mark in front of the extension is one in the version. -/
theorem tarMark_version {artifact version : Bytes} (platform : Platform) (dotless : dot ∉ artifact)
    (absent : ¬ tarMark <:+: version) :
    ¬ tarMark <:+: stem artifact version ++ joint :: platform.name ++ [dot] := by
  have foreign : joint ∉ tarMark := by decide
  have none : ∀ {text : Bytes}, dot ∉ text → ¬ tarMark <:+: text := fun free =>
    tarMark_absent (by rw [List.count_eq_zero_of_not_mem free]; omega)
  intro occurs
  simp only [stem, Platform.name, Platform.joined, List.append_assoc, List.cons_append] at occurs
  obtain occurs | occurs := infix_cut _ foreign occurs
  · exact none dotless occurs
  obtain occurs | occurs := infix_cut _ foreign occurs
  · exact absent occurs
  obtain occurs | occurs := infix_cut _ foreign occurs
  · exact none platform.os_plain.2.2 occurs
  obtain occurs | occurs := infix_cut _ foreign occurs
  · exact none platform.arch_plain.2.2 occurs
  · refine tarMark_absent ?_ occurs
    rw [List.count_append, List.count_eq_zero_of_not_mem platform.abi_plain.2]
    decide

/-- The name of a platform is nothing that stands for no platform. -/
theorem Platform.name_ne (platform : Platform) :
    ¬ (platform.name = [] ∨ platform.name = ascii "noarch") := by
  have member : joint ∈ platform.name := by simp [Platform.name, Platform.joined]
  rintro (empty | same)
  · rw [empty] at member
    cases member
  · rw [same] at member
    exact absurd member (by decide)

/-- `extract_triple` inverts the naming of archives exactly for versions without a mark of an
extension, and platforms that its buffers hold. -/
theorem extractTriple_inverse_iff {artifact version ext : Bytes}
    (valid : validateArtifact artifact = true) (extension : IsExtension ext) (platform : Platform)
    (fits : (fileName (stem artifact version ++ joint :: platform.name) ext).length < 256) :
    (extractTriple (fileName (stem artifact version ++ joint :: platform.name) ext)
          artifact version = platform.triple ∧
        extractTriple (fileName (stem artifact version) ext) artifact version = ascii "noarch" ∧
        extractTriple (fileName (stem artifact version ++ joint :: ascii "noarch") ext)
          artifact version = ascii "noarch") ↔
      ¬ tarMark <:+: version ∧ platform.name.length ≤ 127 := by
  have plain : extractTriple (fileName (stem artifact version) ext) artifact version =
      ascii "noarch" :=
    extractTriple_noarch ((baseName_within _ extension).trans (List.prefix_append _ _))
  have explicit : extractTriple (fileName (stem artifact version ++ joint :: ascii "noarch") ext)
      artifact version = ascii "noarch" := extractTriple_noarch (baseName_within _ extension)
  have room : (stem artifact version).length < 255 := by
    have sizes := fits
    simp only [fileName, List.length_append, List.length_cons] at sizes
    omega
  simp only [plain, explicit, and_true]
  constructor
  · intro inverse
    refine ⟨fun marked => ?_, ?_⟩
    · -- The name is cut before the hyphen that stands behind the version.
      have inside : tarMark <:+: stem artifact version :=
        marked.trans ⟨artifact ++ [joint], [], by simp [stem]⟩
      have named : fileName (stem artifact version ++ joint :: platform.name) ext =
          stem artifact version ++ (joint :: platform.name ++ dot :: ext) := by simp [fileName]
      rw [named] at inverse fits
      have short := baseName_short fits inside
      have missed : ¬ (stem artifact version ++ [joint]).take 255 <+:
          baseName (stem artifact version ++ (joint :: platform.name ++ dot :: ext)) := by
        intro front
        have sizes := front.length_le
        rw [List.length_take, List.length_append, List.length_singleton] at sizes
        omega
      rw [extractTriple_eq, if_neg missed] at inverse
      have member : colon ∈ ascii "noarch" := by
        rw [inverse]
        simp [Platform.triple, Platform.joined]
      exact absurd member (by decide)
    · rw [← platform.triple_length, ← inverse]
      exact extractTriple_length _ _ _
  · rintro ⟨absent, short⟩
    have base := baseName_front extension fits
      (tarMark_version platform (validateArtifact_dot valid) absent)
    rw [extractTriple_behind room base, if_neg platform.name_ne, List.take_of_length_le short,
      tripleText_name, Option.getD_some, List.take_of_length_le (by rwa [platform.triple_length])]

/-- `linux`, `amd64` and `gnu`. -/
def linuxGnu : Platform where
  os := ascii "linux"
  arch := ascii "amd64"
  abi := ascii "gnu"
  os_plain := by decide
  arch_plain := by decide
  abi_plain := by decide

/-- The archive of a release for `linux`. -/
theorem extractTriple_inverse_linux :
    (extractTriple (fileName (stem (ascii "core") (ascii "1.0.0") ++ joint :: linuxGnu.name)
          (ascii "tar." ++ ascii "gz")) (ascii "core") (ascii "1.0.0") = linuxGnu.triple ∧
        extractTriple (fileName (stem (ascii "core") (ascii "1.0.0")) (ascii "tar." ++ ascii "gz"))
          (ascii "core") (ascii "1.0.0") = ascii "noarch" ∧
        extractTriple (fileName (stem (ascii "core") (ascii "1.0.0") ++ joint :: ascii "noarch")
          (ascii "tar." ++ ascii "gz")) (ascii "core") (ascii "1.0.0") = ascii "noarch") ↔
      ¬ tarMark <:+: ascii "1.0.0" ∧ linuxGnu.name.length ≤ 127 :=
  extractTriple_inverse_iff (by decide) (.inr ⟨ascii "gz", rfl⟩) linuxGnu (by decide)

/-- A version with `.tar.` in it hides the platform. -/
theorem extractTriple_marked :
    validateArtifact (ascii "core") = true ∧
      (semverParse (ascii "1.0.0-rc.tar.1")).isSome = true ∧
      fileName (stem (ascii "core") (ascii "1.0.0-rc.tar.1") ++ joint :: linuxGnu.name)
          (ascii "zip") =
        ascii "core-1.0.0-rc.tar.1-linux-amd64-gnu.zip" ∧
      extractTriple (ascii "core-1.0.0-rc.tar.1-linux-amd64-gnu.zip") (ascii "core")
        (ascii "1.0.0-rc.tar.1") = ascii "noarch" ∧
      linuxGnu.triple = ascii "linux:amd64:gnu" := by
  decide +kernel

end Cookbook.Server
