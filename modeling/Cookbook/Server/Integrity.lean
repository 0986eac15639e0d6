import Cookbook.Server.Resolvable
import Cookbook.Server.Serve

/-!
# Digests of what is served

An accepted file has a digest file and a signature of the registry that fit what is served for it,
exactly when those two were written whole under their full keys, or such files were there before.
-/
namespace Cookbook.Server

open Library.Text Library.Program

/-! ## The property -/

/-- The sidecars in the store fit what is served for a path. -/
structure Sealed (config : Config) (printNumber : Bytes → Bytes) (objects : Objects) (path : Bytes)
    (file : ArtifactPath) : Prop where
  /-- The file is there, with its digest and a signature over the digest. -/
  fits : ∃ data signature,
    objects.get (Grid.storeKey config.registryId path) = some data ∧
    objects.get (Grid.storeKey config.registryId path ++ ascii ".sha256") =
      some (sha256Hex config (servedBytes printNumber path file.filename data)) ∧
    objects.get (Grid.storeKey config.registryId path ++ ascii ".countersig") = some signature ∧
    config.verify signature
      (sha256Hex config (servedBytes printNumber path file.filename data)) = true

/-- A file that is accepted is sealed. -/
def SealsUpload (config : Config) (printNumber : Bytes → Bytes) (world : World) (request : Request)
    (state : State) : Prop :=
  let run := world.machine.run (handleArtifactPut config request) state
  ∀ path file, artifactTarget request = .ok (path, file) → run.value.status = 201 →
    Sealed config printNumber run.state.objects path file

/-! ## What was there before -/

section Condition

variable (config : Config) (world : World) (before : Objects) (stored : StoredFile) (entered : State)

/-- The file is a descriptor that is registered. -/
def StoredFile.registers : Bool :=
  stored.file.filename == nowPasta &&
    match readDescriptor stored.body with
    | .valid _ _ => true
    | _ => false

/-- The bytes under the key of an accepted file. -/
def acceptedBytes : Bytes :=
  let signed := if countersignKey stored.key = stored.key then
    (signatureLeft config world (entered.ticks + 1) stored).getD stored.body else stored.body
  if stored.registers = true ∧ digestKey stored.key = stored.key then
    (digestLeft config world stored entered).getD signed
  else signed

/-- The digest file behind an accepted file: written for a registered descriptor whose key leaves
room for it. -/
def acceptedDigest : Option Bytes :=
  let old := before.get (stored.key ++ ascii ".sha256")
  if stored.registers = true ∧ stored.key.length ≤ 504 then
    (digestLeft config world stored entered).or old
  else old

/-- The signature behind an accepted file: written where its key leaves room for it. -/
def acceptedSignature : Option Bytes :=
  let old := before.get (stored.key ++ ascii ".countersig")
  if stored.key.length ≤ 500 then
    (signatureLeft config world (entered.ticks + 1) stored).or old
  else old

/-- The sidecars of an accepted file fit what is served for it. -/
structure SealedBy (printNumber : Bytes → Bytes) (path : Bytes) : Prop where
  /-- The digest file. -/
  digest : acceptedDigest config world before stored entered = some (sha256Hex config
    (servedBytes printNumber path stored.file.filename (acceptedBytes config world stored entered)))
  /-- The signature. -/
  signature : ∃ signature, acceptedSignature config world before stored entered = some signature ∧
    config.verify signature (sha256Hex config (servedBytes printNumber path stored.file.filename
      (acceptedBytes config world stored entered))) = true

end Condition

/-! ## Keys -/

/-- A file that belongs to another one has a longer key. -/
theorem sidecar_ne (key : Bytes) {suffix : Bytes} (some : suffix ≠ []) : key ++ suffix ≠ key := by
  intro same
  have length := congrArg List.length same
  have positive := List.length_pos_of_ne_nil some
  rw [List.length_append] at length
  omega

/-- What the key of a sidecar keeps of its suffix. -/
theorem sidecarKey_eq_iff (key : Bytes) (suffix : String) (other : Bytes) (some : other ≠ []) :
    sidecarKey key suffix = key ++ other ↔ (ascii suffix).take (511 - key.length) = other := by
  unfold sidecarKey
  rw [List.take_append]
  by_cases fits : key.length ≤ 511
  · rw [List.take_of_length_le fits, List.append_right_inj]
  · have none : 511 - key.length = 0 := by omega
    rw [none, List.take_zero, List.append_nil]
    constructor
    · intro same
      have length := congrArg List.length same
      rw [List.length_take, List.length_append] at length
      omega
    · intro empty
      exact absurd empty.symm some

/-- The digest file has its whole key when the key leaves room for it. -/
theorem digestKey_iff (key : Bytes) : key ++ ascii ".sha256" = digestKey key ↔ key.length ≤ 504 := by
  rw [eq_comm, digestKey, sidecarKey_eq_iff _ _ _ (by decide), List.take_eq_self_iff]
  have length : (ascii ".sha256").length = 7 := by decide
  omega

/-- The signature has its whole key when the key leaves room for it. -/
theorem countersignKey_iff (key : Bytes) :
    key ++ ascii ".countersig" = countersignKey key ↔ key.length ≤ 500 := by
  rw [eq_comm, countersignKey, sidecarKey_eq_iff _ _ _ (by decide), List.take_eq_self_iff]
  have length : (ascii ".countersig").length = 11 := by decide
  omega

/-- The signature is not written in the digest's place. -/
theorem digest_ne_countersignKey (key : Bytes) : key ++ ascii ".sha256" ≠ countersignKey key := by
  intro same
  have cut := (sidecarKey_eq_iff key ".countersig" (ascii ".sha256") (by decide)).mp same.symm
  have front : ascii ".sha256" <+: ascii ".countersig" := cut ▸ List.take_prefix _ _
  exact absurd front (by decide)

/-- The digest is not written in the signature's place. -/
theorem countersign_ne_digestKey (key : Bytes) : key ++ ascii ".countersig" ≠ digestKey key := by
  intro same
  have cut := (sidecarKey_eq_iff key ".sha256" (ascii ".countersig") (by decide)).mp same.symm
  have front : ascii ".countersig" <+: ascii ".sha256" := cut ▸ List.take_prefix _ _
  exact absurd front (by decide)

/-! ## Accepted files -/

section Accepted

variable {config : Config} {world : World} {request : Request} {state entered : State}
  {stored : StoredFile}

/-- The objects behind an accepted file: its signature, and its digest when it is registered. -/
theorem accepted_get (stores : Stores config world request state stored entered)
    (writes : world.storeFails entered.ticks = false)
    (accepted : stored.file.filename = nowPasta → ¬ (readDescriptor stored.body).Refused)
    (key : Bytes) :
    (world.machine.run (handleArtifactPut config request) state).state.objects.get key =
      if stored.registers = true ∧ key = digestKey stored.key then
        (digestLeft config world stored entered).or
          ((signedState config world (writtenState world entered stored) stored).objects.get key)
      else (signedState config world (writtenState world entered stored) stored).objects.get key := by
  rw [stores.run.2]
  by_cases descriptor : stored.file.filename = nowPasta
  · rw [(storeArtifact_descriptor stored entered writes descriptor).2]
    have published := @publishDescriptor_run config world stored
      (signedState config world (writtenState world entered stored) stored)
    have taken := accepted descriptor
    cases read : readDescriptor stored.body with
    | unreadable failure =>
      rw [read] at taken
      exact absurd trivial taken
    | invalid =>
      rw [read] at taken
      exact absurd trivial taken
    | anonymous =>
      have not : stored.registers = false := by simp [StoredFile.registers, read]
      rw [read] at published
      rw [published.2, if_neg (by simp [not])]
    | valid named version =>
      have yes : stored.registers = true := by simp [StoredFile.registers, read, descriptor]
      rw [read] at published
      rw [published.2, (tryPublish_run named _).1]
      have written := putObjects_get world (registrationTick config stored entered)
        (signedState config world (writtenState world entered stored) stored).objects
        (digestKey stored.key) (sha256Hex config stored.body) key
      simp only [yes, true_and]
      exact written
  · have not : stored.registers = false := by simp [StoredFile.registers, descriptor]
    rw [(storeArtifact_other stored entered writes descriptor).2, (tryPublish_run _ _).1,
      if_neg (by simp [not])]

/-- An accepted file is sealed exactly when its sidecars fit it. -/
theorem accepted_sealed_iff (printNumber : Bytes → Bytes) {path : Bytes}
    (stores : Stores config world request state stored entered)
    (writes : world.storeFails entered.ticks = false)
    (accepted : stored.file.filename = nowPasta → ¬ (readDescriptor stored.body).Refused)
    (key : stored.key = Grid.storeKey config.registryId path) :
    Sealed config printNumber
        (world.machine.run (handleArtifactPut config request) state).state.objects path stored.file ↔
      SealedBy config world state.objects stored entered printNumber path := by
  have get := accepted_get stores writes accepted
  have bytes : (world.machine.run (handleArtifactPut config request) state).state.objects.get
      stored.key = some (acceptedBytes config world stored entered) := by
    rw [get, signed_get_own stores writes, acceptedBytes]
    by_cases same : stored.registers = true ∧ digestKey stored.key = stored.key
    · rw [if_pos ⟨same.1, same.2.symm⟩, or_some_eq]
      simp only [if_pos same]
    · rw [if_neg (fun both => same ⟨both.1, both.2.symm⟩)]
      simp only [if_neg same]
  have digest : (world.machine.run (handleArtifactPut config request) state).state.objects.get
      (stored.key ++ ascii ".sha256") =
      acceptedDigest config world state.objects stored entered := by
    rw [get, signed_get stores writes, if_neg (digest_ne_countersignKey _),
      if_neg (sidecar_ne _ (by decide))]
    simp only [digestKey_iff, acceptedDigest]
  have signature : (world.machine.run (handleArtifactPut config request) state).state.objects.get
      (stored.key ++ ascii ".countersig") =
      acceptedSignature config world state.objects stored entered := by
    rw [get, signed_get stores writes, if_neg (fun both => countersign_ne_digestKey _ both.2),
      if_neg (sidecar_ne _ (by decide))]
    simp only [countersignKey_iff, acceptedSignature]
  constructor
  · rintro ⟨data, sealing, there, digested, signed, verified⟩
    rw [← key] at there digested signed
    rw [bytes] at there
    cases there
    exact ⟨digest.symm.trans digested, sealing, signature.symm.trans signed, verified⟩
  · rintro ⟨digested, sealing, signed, verified⟩
    refine ⟨acceptedBytes config world stored entered, sealing, ?_⟩
    rw [← key]
    exact ⟨bytes, digest.trans digested, signature.trans signed, verified⟩

end Accepted

/-- An accepted file always has the sidecars of what is served for it exactly when they are written
whole under their full keys for the bytes that are served, or were there before. -/
theorem sealsUpload_iff (config : Config) (printNumber : Bytes → Bytes) (world : World)
    (request : Request) (state : State) :
    SealsUpload config printNumber world request state ↔
      ∀ stored entered path file, Stores config world request state stored entered →
        artifactTarget request = .ok (path, file) → world.storeFails entered.ticks = false →
        (stored.file.filename = nowPasta → ¬ (readDescriptor stored.body).Refused) →
        SealedBy config world state.objects stored entered printNumber path := by
  constructor
  · intro seals stored entered path file stores target writes accepted
    obtain ⟨other, claims, checked, same, key, -⟩ := stores.authorized
    have both := Except.ok.inj (same.symm.trans target)
    simp only [Prod.mk.injEq] at both
    rw [both.1] at key
    apply (accepted_sealed_iff printNumber stores writes accepted key).mp
    rw [both.2]
    apply seals path file target
    rw [stored_created stores writes accepted]
    rfl
  · intro sealed path file target answered
    by_cases comes : ∃ stored entered, Stores config world request state stored entered
    · obtain ⟨stored, entered, stores⟩ := comes
      obtain ⟨other, claims, checked, same, key, -⟩ := stores.authorized
      have both := Except.ok.inj (same.symm.trans target)
      simp only [Prod.mk.injEq] at both
      rw [both.1] at key
      cases writes : world.storeFails entered.ticks with
      | true =>
        rw [stores.run.1, (storeArtifact_failed stored entered writes).1] at answered
        cases answered
      | false =>
        have accepted : stored.file.filename = nowPasta →
            ¬ (readDescriptor stored.body).Refused := by
          intro descriptor refused
          rw [withdrawn_status stores writes descriptor refused] at answered
          cases answered
        rw [← both.2]
        exact (accepted_sealed_iff printNumber stores writes accepted key).mpr
          (sealed stored entered path file stores target writes accepted)
    · have refused := @handleArtifactPut_refused config world request state
        fun stored entered stores => comes ⟨stored, entered, stores⟩
      have status := refused.1
      rw [answered] at status
      exact absurd status (by decide)

/-! ## An archive -/

/-- Some archive, its digest and the signature of the digest. -/
def coreArchive : RecordedFile where
  body := ascii "archive"
  digest :=
    [0x0E, 0xB3, 0xE3, 0x6B, 0xFB, 0x24, 0xDC, 0xD9, 0xBB, 0x1D, 0x1B, 0xEC, 0xE1, 0x53, 0x12, 0x16,
    0xB5, 0x95, 0x39, 0xA8, 0xFD, 0xE1, 0x7E, 0xE8, 0x02, 0x24, 0xAF, 0x06, 0x53, 0xC9, 0x2A, 0xA3]
  signature :=
    [0x31, 0xB7, 0xDF, 0x7B, 0x1C, 0xD4, 0xA9, 0xD1, 0x04, 0xDB, 0xD0, 0x0C, 0x51, 0x21, 0x09, 0xDE,
    0x60, 0x86, 0x93, 0xB9, 0x99, 0xA8, 0x94, 0x58, 0x14, 0xF8, 0xDA, 0xBF, 0xF3, 0x18, 0x39, 0x78,
    0xC4, 0x6F, 0xAC, 0x32, 0x05, 0x6A, 0x93, 0xE7, 0x9C, 0x34, 0x4F, 0xC1, 0x86, 0x5A, 0x9F, 0x73,
    0x78, 0xA8, 0xA4, 0x31, 0x60, 0xE0, 0x5E, 0x3D, 0xD5, 0x8C, 0xE4, 0x9F, 0x1B, 0xE9, 0x4C, 0x0C]

/-- No digest file is written for it. -/
theorem coreArchive_not_sealed :
    ¬ SealsUpload coreArchive.config id Grid.quietWorld
      (publisherRequest (ascii "org/acme/core/1.0.0/core.tar.gz") coreArchive.body) freshState := by
  intro seals
  have target : artifactTarget (publisherRequest (ascii "org/acme/core/1.0.0/core.tar.gz")
      coreArchive.body) = .ok (ascii "org/acme/core/1.0.0/core.tar.gz",
        ⟨ascii "org.acme", ascii "core", ascii "1.0.0", ascii "core.tar.gz"⟩) := rfl
  have created : (Grid.quietWorld.machine.run (handleArtifactPut coreArchive.config
      (publisherRequest (ascii "org/acme/core/1.0.0/core.tar.gz") coreArchive.body))
      freshState).value.status = 201 := by
    decide +kernel
  have none : (Grid.quietWorld.machine.run (handleArtifactPut coreArchive.config
      (publisherRequest (ascii "org/acme/core/1.0.0/core.tar.gz") coreArchive.body))
      freshState).state.objects.get (Grid.storeKey coreArchive.config.registryId
        (ascii "org/acme/core/1.0.0/core.tar.gz") ++ ascii ".sha256") = none := by
    decide +kernel
  obtain ⟨data, signature, -, digest, -⟩ := (seals _ _ target created).fits
  rw [none] at digest
  cases digest

end Cookbook.Server
