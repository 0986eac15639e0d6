import Cookbook.Server.Coordinates

/-!
# What a failed upload leaves

An upload that is answered with an error leaves the database as it was. It leaves the objects as they
were exactly when a write that failed touched nothing and, where the descriptor is refused, the
deletion takes away all that was written: the registry's signature is not among it.
-/
namespace Cookbook.Server

open Library.Text Library.Program

/-- A request that is answered with an error changes no object and no row. -/
def Atomic (config : Config) (world : World) (request : Request) (state : State) : Prop :=
  let run := world.machine.run (handleArtifactPut config request) state
  400 ≤ run.value.status →
    (∀ key, run.state.objects.get key = state.objects.get key) ∧ run.state.db = state.db

/-! ## What is left -/

section Left

variable (config : Config) (world : World) (tick : Nat) (stored : StoredFile)

/-- What a write leaves in the place of the object, none when it touched nothing. -/
def World.leaves (data : Bytes) : Option Bytes :=
  if world.storeFails tick then (world.leftover tick).map data.take else some data

/-- What the registry's signature leaves behind a file. -/
def signatureLeft : Option Bytes :=
  if config.hasRegistryKey then
    (config.sign (sha256Hex config stored.body)).bind (world.leaves tick)
  else none

/-- The objects behind a write. -/
theorem putObjects_get (objects : Objects) (key data other : Bytes) :
    (world.putObjects tick objects key data).get other =
      if other = key then (world.leaves tick data).or (objects.get other)
      else objects.get other := by
  unfold World.putObjects World.leaves
  cases world.storeFails tick with
  | false =>
    simp only [Bool.false_eq_true, if_false, Objects.get_put]
    split <;> rfl
  | true =>
    cases world.leftover tick with
    | none => simp
    | some length =>
      simp only [if_true, Objects.get_put, Option.map_some]
      split <;> rfl

/-- The objects behind the registry's signature. -/
theorem countersigned_get (objects : Objects) (other : Bytes) :
    (countersigned config world tick objects stored).get other =
      if other = countersignKey stored.key then
        (signatureLeft config world tick stored).or (objects.get other)
      else objects.get other := by
  unfold countersigned signatureLeft
  cases config.hasRegistryKey with
  | false => simp
  | true =>
    cases config.sign (sha256Hex config stored.body) with
    | none => simp
    | some signature => exact putObjects_get world tick objects _ signature other

/-- The objects behind a deletion. -/
theorem delObjects_get (objects : Objects) (key other : Bytes) :
    (world.delObjects tick objects key).get other =
      if other = key ∧ world.storeFails tick = false then none else objects.get other := by
  unfold World.delObjects
  cases world.storeFails tick with
  | true => simp
  | false =>
    simp only [Bool.false_eq_true, if_false, Objects.get_del, and_true]

end Left

/-! ## Conditions -/

section Conditions

variable (config : Config) (world : World)

/-- The tick of the deletion of a descriptor that is refused. -/
def deletionTick (stored : StoredFile) (entered : State) : Nat :=
  entered.ticks + 1 + signatureTicks config stored

/-- The deletion takes away all that was written. -/
structure Undone (before : Objects) (stored : StoredFile) (entered : State) : Prop where
  /-- The file: nothing was there before it. -/
  file : world.storeFails (deletionTick config stored entered) = false →
    before.get stored.key = none
  /-- Where the deletion fails, the same bytes were there. -/
  kept : world.storeFails (deletionTick config stored entered) = true →
    before.get stored.key = some (if countersignKey stored.key = stored.key then
      (signatureLeft config world (entered.ticks + 1) stored).getD stored.body else stored.body)
  /-- The signature: there is none, or the same one was there before it. -/
  signature : ∀ left, signatureLeft config world (entered.ticks + 1) stored = some left →
    countersignKey stored.key ≠ stored.key → before.get (countersignKey stored.key) = some left

/-- A descriptor that is refused. -/
def Descriptor.Refused : Descriptor → Prop
  | .unreadable _ | .invalid => True
  | _ => False

/-- What a request that fails has written is what was there, or is taken away. -/
structure Restores (request : Request) (state : State) : Prop where
  /-- A write that fails leaves nothing, or the bytes that were there. -/
  failed : ∀ stored entered, Stores config world request state stored entered →
    world.storeFails entered.ticks = true →
    ∀ left, world.leaves entered.ticks stored.body = some left →
      state.objects.get stored.key = some left
  /-- A descriptor that is refused is taken away with all that came with it. -/
  withdrawn : ∀ stored entered, Stores config world request state stored entered →
    world.storeFails entered.ticks = false → stored.file.filename = nowPasta →
    (readDescriptor stored.body).Refused → Undone config world state.objects stored entered

end Conditions

/-! ## Both failures -/

section Failures

variable {config : Config} {world : World} {request : Request} {state entered : State}
  {stored : StoredFile}

/-- Something that may be left is what was there exactly when it is nothing or the same. -/
theorem or_eq_right_iff {left before : Option Bytes} :
    left.or before = before ↔ ∀ bytes, left = some bytes → before = some bytes := by
  cases left with
  | none => simp
  | some bytes =>
    constructor
    · intro same other equal
      rw [← same, ← equal]
      rfl
    · intro same
      rw [same bytes rfl]
      rfl

/-- A write that fails restores the objects when it left nothing, or the bytes that were there. -/
theorem failed_restores_iff (stores : Stores config world request state stored entered)
    (fails : world.storeFails entered.ticks = true) :
    (∀ key, (world.machine.run (handleArtifactPut config request) state).state.objects.get key =
        state.objects.get key) ↔
      ∀ left, world.leaves entered.ticks stored.body = some left →
        state.objects.get stored.key = some left := by
  have objects : (world.machine.run (handleArtifactPut config request) state).state.objects =
      world.putObjects entered.ticks state.objects stored.key stored.body := by
    rw [stores.run.2, (storeArtifact_failed stored entered fails).2, ← stores.frame.1]
    rfl
  rw [objects, ← or_eq_right_iff]
  constructor
  · intro same
    have own := same stored.key
    rwa [putObjects_get, if_pos rfl] at own
  · intro same key
    rw [putObjects_get]
    split
    · next own =>
      rw [own]
      exact same
    · rfl

/-- The objects behind a descriptor that is refused. -/
theorem withdrawn_objects (stores : Stores config world request state stored entered)
    (writes : world.storeFails entered.ticks = false)
    (descriptor : stored.file.filename = nowPasta)
    (refused : (readDescriptor stored.body).Refused) (key : Bytes) :
    (world.machine.run (handleArtifactPut config request) state).state.objects.get key =
      if key = stored.key ∧ world.storeFails (deletionTick config stored entered) = false then none
      else if key = countersignKey stored.key then
        (signatureLeft config world (entered.ticks + 1) stored).or
          (if key = stored.key then some stored.body else state.objects.get key)
      else if key = stored.key then some stored.body
      else state.objects.get key := by
  have published := @publishDescriptor_run config world stored
    (signedState config world (writtenState world entered stored) stored)
  have objects : (world.machine.run (handleArtifactPut config request) state).state.objects =
      world.delObjects (deletionTick config stored entered)
        (countersigned config world (entered.ticks + 1)
          (state.objects.put stored.key stored.body) stored) stored.key := by
    have written : (writtenState world entered stored).objects =
        state.objects.put stored.key stored.body := by
      simp only [writtenState, World.putObjects, writes, Bool.false_eq_true, if_false,
        stores.frame.1]
    rw [stores.run.2, (storeArtifact_descriptor stored entered writes descriptor).2, ← written]
    cases read : readDescriptor stored.body with
    | unreadable failure =>
      rw [read] at published
      exact published.2.2
    | invalid =>
      rw [read] at published
      exact published.2.2
    | anonymous =>
      rw [read] at refused
      cases refused
    | valid named version =>
      rw [read] at refused
      cases refused
  rw [objects, delObjects_get, countersigned_get, Objects.get_put]

/-- It is answered with an error. -/
theorem withdrawn_status (stores : Stores config world request state stored entered)
    (writes : world.storeFails entered.ticks = false)
    (descriptor : stored.file.filename = nowPasta)
    (refused : (readDescriptor stored.body).Refused) :
    (world.machine.run (handleArtifactPut config request) state).value.status = 400 := by
  have published := @publishDescriptor_run config world stored
    (signedState config world (writtenState world entered stored) stored)
  rw [stores.run.1, (storeArtifact_descriptor stored entered writes descriptor).1]
  cases read : readDescriptor stored.body with
  | unreadable failure =>
    rw [read] at published
    exact published.1
  | invalid =>
    rw [read] at published
    exact published.1
  | anonymous =>
    rw [read] at refused
    cases refused
  | valid named version =>
    rw [read] at refused
    cases refused

/-- A refused descriptor restores the objects when the deletion takes away all that was written. -/
theorem withdrawn_restores_iff (stores : Stores config world request state stored entered)
    (writes : world.storeFails entered.ticks = false)
    (descriptor : stored.file.filename = nowPasta)
    (refused : (readDescriptor stored.body).Refused) :
    (∀ key, (world.machine.run (handleArtifactPut config request) state).state.objects.get key =
        state.objects.get key) ↔ Undone config world state.objects stored entered := by
  have objects := withdrawn_objects stores writes descriptor refused
  have kept : some (if countersignKey stored.key = stored.key then
      (signatureLeft config world (entered.ticks + 1) stored).getD stored.body else stored.body) =
      if stored.key = countersignKey stored.key then
        (signatureLeft config world (entered.ticks + 1) stored).or (some stored.body)
      else some stored.body := by
    by_cases same : countersignKey stored.key = stored.key
    · rw [if_pos same, if_pos same.symm]
      cases signatureLeft config world (entered.ticks + 1) stored <;> rfl
    · rw [if_neg same, if_neg (Ne.symm same)]
  constructor
  · intro same
    have file := (objects stored.key).symm.trans (same stored.key)
    have signature := (objects (countersignKey stored.key)).symm.trans
      (same (countersignKey stored.key))
    constructor
    · intro deletes
      rw [if_pos ⟨rfl, deletes⟩] at file
      exact file.symm
    · intro keeps
      rw [if_neg (by simp [keeps]), if_pos rfl] at file
      rw [kept]
      exact file.symm
    · intro left equal differ
      rw [if_neg (fun both => differ both.1), if_pos rfl, equal] at signature
      exact signature.symm
  · intro undone key
    rw [objects]
    by_cases own : key = stored.key
    · rw [own]
      cases deletes : world.storeFails (deletionTick config stored entered) with
      | false =>
        rw [if_pos ⟨rfl, rfl⟩]
        exact (undone.file deletes).symm
      | true =>
        rw [if_neg (by simp), if_pos rfl, ← kept]
        exact (undone.kept deletes).symm
    · rw [if_neg (fun both => own both.1), if_neg own]
      split
      · next sidecar =>
        rw [or_eq_right_iff, sidecar]
        intro left equal
        exact undone.signature left equal (fun same => own (sidecar.trans same))
      · rfl

/-- A refused descriptor leaves the database. -/
theorem withdrawn_db (stores : Stores config world request state stored entered)
    (writes : world.storeFails entered.ticks = false)
    (descriptor : stored.file.filename = nowPasta)
    (refused : (readDescriptor stored.body).Refused) :
    (world.machine.run (handleArtifactPut config request) state).state.db = state.db := by
  have published := @publishDescriptor_run config world stored
    (signedState config world (writtenState world entered stored) stored)
  have signed : (signedState config world (writtenState world entered stored) stored).db =
      state.db := stores.frame.2
  rw [stores.run.2, (storeArtifact_descriptor stored entered writes descriptor).2]
  cases read : readDescriptor stored.body with
  | unreadable failure =>
    rw [read] at published
    exact published.2.1.trans signed
  | invalid =>
    rw [read] at published
    exact published.2.1.trans signed
  | anonymous =>
    rw [read] at refused
    cases refused
  | valid named version =>
    rw [read] at refused
    cases refused

/-- Anything else that is stored is answered with the new file. -/
theorem stored_created (stores : Stores config world request state stored entered)
    (writes : world.storeFails entered.ticks = false)
    (accepted : stored.file.filename = nowPasta → ¬ (readDescriptor stored.body).Refused) :
    (world.machine.run (handleArtifactPut config request) state).value = created config stored := by
  rw [stores.run.1]
  by_cases descriptor : stored.file.filename = nowPasta
  · have published := @publishDescriptor_run config world stored
      (signedState config world (writtenState world entered stored) stored)
    have taken := accepted descriptor
    rw [(storeArtifact_descriptor stored entered writes descriptor).1]
    cases read : readDescriptor stored.body with
    | unreadable failure =>
      rw [read] at taken
      exact absurd trivial taken
    | invalid =>
      rw [read] at taken
      exact absurd trivial taken
    | anonymous =>
      rw [read] at published
      exact published.1
    | valid named version =>
      rw [read] at published
      exact published.1
  · exact (storeArtifact_other stored entered writes descriptor).1

end Failures

/-- There is one file that a request comes to store, in one state. -/
theorem Stores.unique {config : Config} {world : World} {request : Request} {state entered other :
    State} {stored second : StoredFile} (stores : Stores config world request state stored entered)
    (again : Stores config world request state second other) :
    second = stored ∧ other = entered := by
  obtain ⟨path, claims, checked, target, key, sub, whole, accepted, -, behind⟩ := stores.authorized
  obtain ⟨path', claims', checked', target', key', sub', whole', accepted', -, behind'⟩ :=
    again.authorized
  have files : (path, stored.file) = (path', second.file) :=
    Except.ok.inj (target.symm.trans target')
  simp only [Prod.mk.injEq] at files
  have claim : claims' = claims := by
    rw [← files.2, accepted] at accepted'
    exact (Except.ok.inj accepted').symm
  have check : checked' = checked := by
    rw [whole, whole', files.2]
  have bodies : second.body = stored.body := by
    have both := stores.body.symm.trans again.body
    exact (Option.some.inj both).symm
  have keys : second.key = stored.key := by
    rw [key', key, ← files.1]
  have subs : second.sub = stored.sub := by
    rw [sub', sub, claim]
  constructor
  · cases stored
    cases second
    simp only [StoredFile.mk.injEq]
    exact ⟨keys, files.2.symm, bodies, subs⟩
  · rw [behind', behind, check]

/-- A request that is answered with an error changes nothing exactly when a write that fails leaves
nothing new, and a refused descriptor is taken away with everything that was written with it. -/
theorem atomic_iff (config : Config) (world : World) (request : Request) (state : State) :
    Atomic config world request state ↔ Restores config world request state := by
  by_cases comes : ∃ stored entered, Stores config world request state stored entered
  · obtain ⟨stored, entered, stores⟩ := comes
    constructor
    · intro atomic
      constructor
      · intro file begun again fails
        obtain ⟨rfl, rfl⟩ := stores.unique again
        have status : (world.machine.run (handleArtifactPut config request) state).value.status =
            500 := by
          rw [stores.run.1, (storeArtifact_failed file begun fails).1]
          rfl
        apply (failed_restores_iff stores fails).mp
        exact (atomic (by rw [status]; decide)).1
      · intro file begun again writes descriptor refused
        obtain ⟨rfl, rfl⟩ := stores.unique again
        apply (withdrawn_restores_iff stores writes descriptor refused).mp
        have status := withdrawn_status stores writes descriptor refused
        exact (atomic (Nat.le_of_eq status.symm)).1
    · intro restores failed
      cases writes : world.storeFails entered.ticks with
      | true =>
        have left := restores.failed stored entered stores writes
        refine ⟨(failed_restores_iff stores writes).mpr left, ?_⟩
        rw [stores.run.2, (storeArtifact_failed stored entered writes).2]
        exact stores.frame.2
      | false =>
        by_cases gone : stored.file.filename = nowPasta ∧ (readDescriptor stored.body).Refused
        · have undone := restores.withdrawn stored entered stores writes gone.1 gone.2
          exact ⟨(withdrawn_restores_iff stores writes gone.1 gone.2).mpr undone,
            withdrawn_db stores writes gone.1 gone.2⟩
        · exfalso
          have answered := stored_created stores writes
            (fun descriptor refused => gone ⟨descriptor, refused⟩)
          rw [answered] at failed
          revert failed
          show ¬ 400 ≤ 201
          decide
  · have refused := @handleArtifactPut_refused config world request state
      fun stored entered stores => comes ⟨stored, entered, stores⟩
    constructor
    · intro _
      constructor
      · intro stored entered stores
        exact absurd ⟨stored, entered, stores⟩ comes
      · intro stored entered stores
        exact absurd ⟨stored, entered, stores⟩ comes
    · intro _ _
      refine ⟨fun key => ?_, refused.2.2⟩
      rw [refused.2.1]

/-! ## A descriptor whose version is none -/

/-- A descriptor without a patch number. -/
def shortVersion : RecordedFile where
  body := ascii "\x7bgroup: \"org.acme\", " ++ ascii "artifact: \"core\", " ++
    ascii "version: \"1.0\"\x7d"
  digest :=
    [0x26, 0xAB, 0x78, 0xA0, 0x53, 0x5B, 0xE0, 0xBB, 0x58, 0xDE, 0xF0, 0x0C, 0x4D, 0x08, 0xCA, 0xB0,
    0x05, 0xD4, 0x88, 0x10, 0x84, 0x86, 0xEC, 0x2D, 0x5E, 0xB1, 0x8B, 0x16, 0xBF, 0xD1, 0x19, 0x24]
  signature :=
    [0xF1, 0xFD, 0x4D, 0x3F, 0xAD, 0xD7, 0xD5, 0xB1, 0x8B, 0x52, 0x80, 0x17, 0x54, 0xA9, 0x9F, 0x00,
    0xB3, 0x7D, 0x3F, 0x86, 0xA4, 0x8D, 0xF1, 0xF5, 0x24, 0x6E, 0x88, 0x4E, 0x72, 0x3A, 0xF2, 0x04,
    0x3B, 0x13, 0xFC, 0x85, 0x8B, 0xBA, 0x9C, 0xFC, 0x1D, 0x10, 0xB8, 0x3E, 0xDC, 0x79, 0x64, 0x60,
    0xD4, 0x6C, 0xA0, 0x72, 0x72, 0xFA, 0xBD, 0x64, 0x10, 0x0D, 0x79, 0x4F, 0xF9, 0x69, 0x88, 0x07]

/-- It is refused, and the registry's signature stays in the store. -/
theorem shortVersion_not_atomic :
    ¬ Atomic shortVersion.config Grid.quietWorld
      (publisherRequest (ascii "org/acme/core/1.0.0/now.pasta") shortVersion.body) freshState := by
  intro atomic
  let run := Grid.quietWorld.machine.run (handleArtifactPut shortVersion.config
    (publisherRequest (ascii "org/acme/core/1.0.0/now.pasta") shortVersion.body)) freshState
  have refused : run.value.status = 400 := by
    decide +kernel
  have left : run.state.objects.get (countersignKey (Grid.storeKey shortVersion.config.registryId
      (ascii "org/acme/core/1.0.0/now.pasta"))) = some shortVersion.signature := by
    decide +kernel
  rw [(atomic (Nat.le_of_eq refused.symm)).1] at left
  cases left

end Cookbook.Server
