import Cookbook.Server.Resolvable

/-!
# Spellings of a path

A file is stored under the path of its request, while its group is that path with dots for slashes.
The publication and the mirror manifest turn the group's dots into slashes again. They find the file
exactly when its path spells the group with slashes.
-/
namespace Cookbook.Server

open Library.Text Library.Program

/-! ## Keys -/

/-- Dots become slashes, in a buffer. -/
def groupPath (group : Bytes) : Bytes := (group.take 255).map fun c => if c = dot then slash else c

/-- `base_path` in `mirror_collect_cb` -/
def basePath (registryId : Bytes) (coordinate : Coordinate) : Bytes :=
  registryId ++ slash :: (groupPath coordinate.group ++ slash :: (coordinate.artifact ++ slash ::
    coordinate.version))

/-- The key of a file in the directory of the mirror manifest. -/
def manifestKey (registryId : Bytes) (file : ArtifactPath) : Bytes :=
  basePath registryId file.coordinate ++ slash :: file.filename

/-- A path is accepted for what it names: some upload to it is answered with 201. -/
def Accepted (config : Config) (request : Request) (path : Bytes) (file : ArtifactPath) : Prop :=
  artifactTarget request = .ok (path, file) ∧
    ∃ world state, (World.machine world |>.run (handleArtifactPut config request) state).value.status
      = 201

/-- Two paths of one file have one key, the one that is rebuilt from its coordinate. -/
structure OneKey (config : Config) (file : ArtifactPath) (path other : Bytes) : Prop where
  /-- The keys under which the paths are stored. -/
  stored : Grid.storeKey config.registryId path = Grid.storeKey config.registryId other
  /-- The mirror manifest. -/
  manifest : Grid.storeKey config.registryId path = manifestKey config.registryId file
  /-- `try_publish` -/
  published : file.filename = nowPasta → Grid.storeKey config.registryId path =
    pastaKey config.registryId file.group file.artifact file.version

/-- The part of a path that names the group, as it is spelled. -/
def spelledGroup (path : Bytes) : Option Bytes :=
  (lastSlash path).bind fun (front, _) =>
  (lastSlash front).bind fun (front, _) =>
    (lastSlash front).map Prod.fst

/-- A path spells its group with slashes. -/
def SpelledWithSlashes (path : Bytes) : Prop := ∀ group, spelledGroup path = some group → dot ∉ group

/-! ## What a path says -/

/-- A slash that is found stands between its parts. -/
theorem lastSlash_parts {path front tail : Bytes} (cut : lastSlash path = some (front, tail)) :
    path = front ++ slash :: tail := by
  rcases lastSlash_cases path with free | ⟨before, behind, whole, free⟩
  · rw [lastSlash_none free] at cut
    cases cut
  · rw [whole, lastSlash_cut free] at cut
    cases cut
    exact whole

/-- A path is its spelled group with the other segments. -/
theorem splitArtifact_spelled {path : Bytes} {file : ArtifactPath}
    (split : splitArtifact path = some file) :
    ∃ group, spelledGroup path = some group ∧ file.group = dotted group ∧
      path = group ++ slash :: (file.artifact ++ slash :: (file.version ++ slash ::
        file.filename)) := by
  unfold splitArtifact at split
  cases first : lastSlash path with
  | none => simp [first] at split
  | some pair =>
    obtain ⟨front, filename⟩ := pair
    cases second : lastSlash front with
    | none => simp [first, second] at split
    | some pair =>
      obtain ⟨before, version⟩ := pair
      cases third : lastSlash before with
      | none => simp [first, second, third] at split
      | some pair =>
        obtain ⟨group, artifact⟩ := pair
        simp only [first, second, third, Option.bind_eq_bind, Option.bind_some,
          Option.some.injEq] at split
        subst split
        refine ⟨group, by simp [spelledGroup, first, second, third], rfl, ?_⟩
        rw [lastSlash_parts first, lastSlash_parts second, lastSlash_parts third]
        simp

/-- A group comes back as it was spelled exactly when it was spelled with slashes. -/
theorem slashed_dotted_iff (group : Bytes) :
    ((dotted group).map fun c => if c = dot then slash else c) = group ↔ dot ∉ group := by
  rw [dotted, List.map_map]
  induction group with
  | nil => simp
  | cons c group ih =>
    rw [List.map_cons, List.cons_eq_cons, ih, List.mem_cons, not_or]
    apply and_congr_left'
    have differ : slash ≠ dot := by decide
    by_cases isSlash : c = slash
    · subst isSlash
      simp [differ.symm]
    · by_cases isDot : c = dot
      · subst isDot
        simp [differ]
      · simp [isSlash, isDot, Ne.symm isDot]

/-- A group that is not cut does so in the buffer. -/
theorem groupPath_dotted_iff {group : Bytes} (short : group.length ≤ 255) :
    groupPath (dotted group) = group ↔ dot ∉ group := by
  have whole : (dotted group).take 255 = dotted group := by
    apply List.take_of_length_le
    simpa [dotted] using short
  rw [groupPath, whole]
  exact slashed_dotted_iff group

/-- The publication looks under the key of the descriptor in the manifest's directory, in its
buffer. -/
theorem pastaKey_eq (registryId : Bytes) (coordinate : Coordinate) :
    pastaKey registryId coordinate.group coordinate.artifact coordinate.version =
      (basePath registryId coordinate ++ slash :: nowPasta).take 511 := by
  simp [pastaKey, basePath, groupPath]

/-- A group with a valid name is short. -/
theorem validateGroup_short {group : Bytes} (valid : validateGroup group = true) :
    group.length ≤ 128 := by
  simp only [validateGroup, Bool.and_eq_true, decide_eq_true_eq] at valid
  exact valid.1.1.2

/-- A path that is accepted is split, and its group has a valid name. -/
theorem Accepted.spelled {config : Config} {request : Request} {path : Bytes} {file : ArtifactPath}
    (accepted : Accepted config request path file) :
    splitArtifact path = some file ∧ validateGroup file.group = true := by
  obtain ⟨target, world, state, answered⟩ := accepted
  constructor
  · unfold artifactTarget at target
    split at target
    · cases target
    · split at target
      · cases target
      · split at target
        · cases target
        · next split =>
          cases target
          exact split
  · by_contra invalid
    have refused := @handleArtifactPut_refused config world request state (by
      intro stored entered stores
      obtain ⟨otherPath, claims, checked, same, -⟩ := stores.authorized
      have both := Except.ok.inj (target.symm.trans same)
      simp only [Prod.mk.injEq] at both
      have named := stores.named
      rw [← both.2, Bool.and_eq_true] at named
      exact invalid named.1)
    have status := refused.1
    rw [answered] at status
    exact absurd status (by decide)

/-- An accepted path is stored where the manifest looks exactly when it is spelled with slashes. -/
theorem Accepted.manifest_iff {config : Config} {request : Request} {path : Bytes}
    {file : ArtifactPath} (accepted : Accepted config request path file) :
    Grid.storeKey config.registryId path = manifestKey config.registryId file ↔
      SpelledWithSlashes path := by
  obtain ⟨split, valid⟩ := accepted.spelled
  obtain ⟨group, spelled, dots, whole⟩ := splitArtifact_spelled split
  have short := validateGroup_short valid
  rw [dots] at short
  have length : group.length ≤ 255 := by
    simp only [dotted, List.length_map] at short
    omega
  have slashes : SpelledWithSlashes path ↔ dot ∉ group := by
    unfold SpelledWithSlashes
    rw [spelled]
    constructor
    · intro all
      exact all group rfl
    · intro free other same
      cases same
      exact free
  rw [slashes, ← groupPath_dotted_iff length]
  have key : Grid.storeKey config.registryId path = config.registryId ++ slash :: (group ++ slash ::
      (file.artifact ++ slash :: (file.version ++ slash :: file.filename))) := by
    rw [Grid.storeKey, ← whole]
  have manifest : manifestKey config.registryId file = config.registryId ++ slash ::
      (groupPath (dotted group) ++ slash :: (file.artifact ++ slash :: (file.version ++ slash ::
        file.filename))) := by
    simp [manifestKey, basePath, ArtifactPath.coordinate, dots]
  rw [key, manifest, List.append_right_inj, List.cons_eq_cons, List.append_left_inj]
  constructor
  · intro same
    exact same.2.symm
  · intro same
    exact ⟨rfl, same.symm⟩

/-- Two accepted paths of one file always have one key, the one that is rebuilt from its coordinate,
exactly when both spell the group with slashes and, for a descriptor, the key fits the buffer of
`try_publish`. -/
theorem oneKey_iff (config : Config) (first second : Request) :
    (∀ file path other, Accepted config first path file → Accepted config second other file →
      OneKey config file path other) ↔
    ∀ file path other, Accepted config first path file → Accepted config second other file →
      SpelledWithSlashes path ∧ SpelledWithSlashes other ∧
        (file.filename = nowPasta → (Grid.storeKey config.registryId path).length ≤ 511) := by
  apply forall_congr'
  intro file
  apply forall_congr'
  intro path
  apply forall_congr'
  intro other
  apply imp_congr_right
  intro accepted
  apply imp_congr_right
  intro also
  have rebuilt : file.filename = nowPasta →
      pastaKey config.registryId file.group file.artifact file.version =
        (manifestKey config.registryId file).take 511 := by
    intro descriptor
    have key := pastaKey_eq config.registryId file.coordinate
    rw [← descriptor] at key
    exact key
  constructor
  · intro one
    refine ⟨accepted.manifest_iff.mp one.manifest,
      also.manifest_iff.mp (one.stored.symm.trans one.manifest), ?_⟩
    intro descriptor
    have found := one.published descriptor
    rw [rebuilt descriptor] at found
    have length := congrArg List.length found
    rw [List.length_take] at length
    omega
  · rintro ⟨slashes, otherSlashes, fits⟩
    have manifest := accepted.manifest_iff.mpr slashes
    refine ⟨manifest.trans (also.manifest_iff.mpr otherSlashes).symm, manifest, ?_⟩
    intro descriptor
    have short := fits descriptor
    rw [rebuilt descriptor, ← manifest, List.take_of_length_le short]

/-- The descriptor of one version is accepted under both spellings of its group, with two keys. -/
theorem dottedPath_not_oneKey :
    ¬ ∀ file path other,
      Accepted coreDescriptor.config
        (publisherRequest (ascii "org.acme/core/1.0.0/now.pasta") coreDescriptor.body) path file →
      Accepted coreDescriptor.config
        (publisherRequest (ascii "org/acme/core/1.0.0/now.pasta") coreDescriptor.body) other file →
      OneKey coreDescriptor.config file path other := by
  intro every
  have dotted : Accepted coreDescriptor.config
      (publisherRequest (ascii "org.acme/core/1.0.0/now.pasta") coreDescriptor.body)
      (ascii "org.acme/core/1.0.0/now.pasta")
      ⟨ascii "org.acme", ascii "core", ascii "1.0.0", nowPasta⟩ :=
    ⟨rfl, Grid.quietWorld, freshState, by decide +kernel⟩
  have slashed : Accepted coreDescriptor.config
      (publisherRequest (ascii "org/acme/core/1.0.0/now.pasta") coreDescriptor.body)
      (ascii "org/acme/core/1.0.0/now.pasta")
      ⟨ascii "org.acme", ascii "core", ascii "1.0.0", nowPasta⟩ :=
    ⟨rfl, Grid.quietWorld, freshState, by decide +kernel⟩
  have same := (every _ _ _ dotted slashed).stored
  revert same
  decide +kernel

end Cookbook.Server
