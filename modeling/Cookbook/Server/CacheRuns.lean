import Cookbook.Server.ObjectCache

/-!
# Runs of the object cache

What holds between the operations of requests and evictions that are clean: the rows of the table and
the objects of the store differ only where a request or an eviction is halfway through a key, an
eviction deletes nothing that a request has written since it read the table, and the time of the row of
a key is the latest one.
-/
namespace Cookbook.Server

open Library.Text Library.Program Library.Interleave

/-- Different cache keys have different store keys. -/
theorem objectKey_inj {config : Config} {left right : Bytes}
    (same : objectKey config left = objectKey config right) : left = right := by
  simp only [objectKey, Grid.storeKey, List.append_cancel_left_eq, List.cons.injEq, true_and] at same
  exact same

/-! ## Tables -/

/-- The rows and the objects differ only where a thread is halfway. -/
structure CacheTables (config : Config) (rows : List ObjectCacheRow) (objects : Objects)
    (phases : Nat → Option CachePhase) : Prop where
  /-- A row names the object of its key. -/
  keys : ∀ row ∈ rows, row.storeKey = objectKey config row.cacheKey
  /-- So does an entry that is to be deleted. -/
  planned : ∀ phase, At phases phase → ∀ entry ∈ phase.pending,
    entry.1 = objectKey config entry.2
  /-- So does an entry that is half deleted. -/
  halved : ∀ phase entry, At phases phase → phase.halfDeleted = some entry →
    entry.1 = objectKey config entry.2
  /-- What is to be deleted is not being written. -/
  apart : ∀ phase other, At phases phase → At phases other → ∀ entry ∈ phase.pending,
    other.openKey ≠ some entry.1
  /-- A row has its object, or the object was taken away just now. -/
  stocked : ∀ row ∈ rows, (objects.get row.storeKey).isSome ∨
    ∃ phase entry, At phases phase ∧ phase.halfDeleted = some entry ∧ entry.2 = row.cacheKey
  /-- An object was written just now, or it has a row that stays. -/
  listed : ∀ cacheKey, (objects.get (objectKey config cacheKey)).isSome →
    (∃ phase, At phases phase ∧ phase.openKey = some (objectKey config cacheKey)) ∨
      (∃ row ∈ rows, row.cacheKey = cacheKey) ∧
        ∀ phase entry, At phases phase → phase.halfDeleted = some entry → entry.2 ≠ cacheKey
  /-- The object of a request that has not written its row is there. -/
  present : ∀ phase key, At phases phase → phase.openKey = some key → (objects.get key).isSome

/-- What the tables see of a phase. -/
def CachePhase.sight (phase : CachePhase) :
    Option Bytes × List (Bytes × Bytes) × Option (Bytes × Bytes) :=
  (phase.openKey, phase.pending, phase.halfDeleted)

/-- The tables see nothing of the phase. -/
def CachePhase.Unseen (phase : CachePhase) : Prop := phase.sight = (none, [], none)

section Tables

variable {config : Config} {rows : List ObjectCacheRow} {objects : Objects}
  {phases later : Nat → Option CachePhase} {id : Nat}

/-- Tables are kept when what they see of the phases stays. -/
theorem CacheTables.frame (tables : CacheTables config rows objects phases)
    (forth : ∀ phase, At phases phase → phase.Unseen ∨
      ∃ other, At later other ∧ other.sight = phase.sight)
    (back : ∀ phase, At later phase → phase.Unseen ∨
      ∃ other, At phases other ∧ other.sight = phase.sight) :
    CacheTables config rows objects later := by
  -- What is seen of a phase was seen before.
  have pending : ∀ phase, At later phase → ∀ entry ∈ phase.pending,
      ∃ other, At phases other ∧ entry ∈ other.pending := by
    intro phase here entry member
    rcases back phase here with unseen | ⟨other, there, same⟩
    · rw [show phase.pending = [] from congrArg (·.2.1) unseen] at member
      cases member
    · refine ⟨other, there, ?_⟩
      rwa [show other.pending = phase.pending from congrArg (·.2.1) same]
  have half : ∀ phase entry, At later phase → phase.halfDeleted = some entry →
      ∃ other, At phases other ∧ other.halfDeleted = some entry := by
    intro phase entry here deleted
    rcases back phase here with unseen | ⟨other, there, same⟩
    · rw [show phase.halfDeleted = none from congrArg (·.2.2) unseen] at deleted
      cases deleted
    · refine ⟨other, there, ?_⟩
      rwa [show other.halfDeleted = phase.halfDeleted from congrArg (·.2.2) same]
  have opened : ∀ phase key, At later phase → phase.openKey = some key →
      ∃ other, At phases other ∧ other.openKey = some key := by
    intro phase key here writing
    rcases back phase here with unseen | ⟨other, there, same⟩
    · rw [show phase.openKey = none from congrArg Prod.fst unseen] at writing
      cases writing
    · refine ⟨other, there, ?_⟩
      rwa [show other.openKey = phase.openKey from congrArg Prod.fst same]
  refine ⟨tables.keys, ?_, ?_, ?_, ?_, ?_, ?_⟩
  · intro phase here entry member
    obtain ⟨other, there, inside⟩ := pending phase here entry member
    exact tables.planned other there entry inside
  · intro phase entry here deleted
    obtain ⟨other, there, same⟩ := half phase entry here deleted
    exact tables.halved other entry there same
  · intro phase writer here there entry member writing
    obtain ⟨other, before, inside⟩ := pending phase here entry member
    obtain ⟨earlier, wrote, same⟩ := opened writer entry.1 there writing
    exact tables.apart other earlier before wrote entry inside same
  · intro row member
    rcases tables.stocked row member with stored | ⟨phase, entry, here, deleted, own⟩
    · exact Or.inl stored
    · rcases forth phase here with unseen | ⟨other, there, same⟩
      · rw [show phase.halfDeleted = none from congrArg (·.2.2) unseen] at deleted
        cases deleted
      · refine Or.inr ⟨other, entry, there, ?_, own⟩
        rwa [show other.halfDeleted = phase.halfDeleted from congrArg (·.2.2) same]
  · intro cacheKey stored
    rcases tables.listed cacheKey stored with ⟨phase, here, writing⟩ | ⟨row, kept⟩
    · rcases forth phase here with unseen | ⟨other, there, same⟩
      · rw [show phase.openKey = none from congrArg Prod.fst unseen] at writing
        cases writing
      · refine Or.inl ⟨other, there, ?_⟩
        rwa [show other.openKey = phase.openKey from congrArg Prod.fst same]
    · refine Or.inr ⟨row, ?_⟩
      intro phase entry here deleted
      obtain ⟨other, there, same⟩ := half phase entry here deleted
      exact kept other entry there same
  · intro phase key here writing
    obtain ⟨other, there, same⟩ := opened phase key here writing
    exact tables.present other key there same

/-- A thread that changes its phase without being seen keeps the tables. -/
theorem CacheTables.change {old new : CachePhase} (tables : CacheTables config rows objects phases)
    (running : phases id = some old) (same : new.sight = old.sight) :
    CacheTables config rows objects (Function.update phases id (some new)) := by
  refine tables.frame ?_ ?_
  · intro phase here
    rcases here.leaves (c := some new) running with own | stays
    · exact Or.inr ⟨new, at_update_self, by rw [own, same]⟩
    · exact Or.inr ⟨phase, stays, rfl⟩
  · intro phase here
    rcases here.of_update with own | there
    · exact Or.inr ⟨old, ⟨id, running⟩, by rw [own, same]⟩
    · exact Or.inr ⟨phase, there, rfl⟩

/-- The start of a thread keeps them. -/
theorem CacheTables.spawn {new : CachePhase} (tables : CacheTables config rows objects phases)
    (free : phases id = none) (unseen : new.Unseen) :
    CacheTables config rows objects (Function.update phases id (some new)) := by
  refine tables.frame (fun phase here => Or.inr ⟨phase, here.stays free, rfl⟩) ?_
  intro phase here
  rcases here.of_update with own | there
  · rw [own]
    exact Or.inl unseen
  · exact Or.inr ⟨phase, there, rfl⟩

/-- So does the end of one. -/
theorem CacheTables.finish {old : CachePhase} (tables : CacheTables config rows objects phases)
    (running : phases id = some old) (unseen : old.Unseen) :
    CacheTables config rows objects (Function.update phases id none) := by
  refine tables.frame ?_ (fun phase here => Or.inr ⟨phase, here.of_end, rfl⟩)
  intro phase here
  rcases here.leaves (c := none) running with own | stays
  · rw [own]
    exact Or.inl unseen
  · exact Or.inr ⟨phase, stays, rfl⟩

/-- An object is written while no eviction has its key to delete. -/
theorem CacheTables.write (tables : CacheTables config rows objects phases) {cacheKey data : Bytes}
    (running : phases id = some .asking)
    (clean : ∀ other, At phases other → ∀ entry ∈ other.pending,
      entry.1 ≠ objectKey config cacheKey) :
    CacheTables config rows (objects.put (objectKey config cacheKey) data)
      (Function.update phases id (some (.stored (objectKey config cacheKey)))) := by
  have more : ∀ key, (objects.get key).isSome →
      ((objects.put (objectKey config cacheKey) data).get key).isSome := by
    intro key stored
    rw [Objects.get_put]
    split
    · rfl
    · exact stored
  refine ⟨tables.keys, ?_, ?_, ?_, ?_, ?_, ?_⟩
  · intro phase here entry member
    rcases here.of_update with rfl | there
    · cases member
    · exact tables.planned phase there entry member
  · intro phase entry here deleted
    rcases here.of_update with rfl | there
    · cases deleted
    · exact tables.halved phase entry there deleted
  · intro phase writer here there entry member writing
    rcases here.of_update with rfl | before
    · cases member
    rcases there.of_update with rfl | earlier
    · exact clean phase before entry member (Option.some.inj writing).symm
    · exact tables.apart phase writer before earlier entry member writing
  · intro row member
    rcases tables.stocked row member with stored | ⟨phase, entry, here, deleted, own⟩
    · exact Or.inl (more _ stored)
    · rcases here.leaves (c := some (.stored (objectKey config cacheKey))) running with
        rfl | stays
      · cases deleted
      · exact Or.inr ⟨phase, entry, stays, deleted, own⟩
  · intro other stored
    by_cases own : objectKey config other = objectKey config cacheKey
    · exact Or.inl ⟨_, at_update_self, by rw [own]; rfl⟩
    · rw [Objects.get_put, if_neg own] at stored
      rcases tables.listed other stored with ⟨phase, here, writing⟩ | ⟨row, kept⟩
      · rcases here.leaves (c := some (.stored (objectKey config cacheKey))) running with
          rfl | stays
        · cases writing
        · exact Or.inl ⟨phase, stays, writing⟩
      · refine Or.inr ⟨row, ?_⟩
        intro phase entry here deleted
        rcases here.of_update with rfl | there
        · cases deleted
        · exact kept phase entry there deleted
  · intro phase key here writing
    rcases here.of_update with rfl | there
    · cases writing
      rw [Objects.get_put, if_pos rfl]
      rfl
    · exact more _ (tables.present phase key there writing)

/-- A row is written while no eviction is halfway through its key. -/
theorem CacheTables.insert (tables : CacheTables config rows objects phases)
    {row : ObjectCacheRow} {now : Int} (named : row.storeKey = objectKey config row.cacheKey)
    (running : phases id = some (.timed row.storeKey now))
    (clean : ∀ other entry, At phases other → other.halfDeleted = some entry →
      entry.2 ≠ row.cacheKey) :
    CacheTables config (rows.filter (·.cacheKey != row.cacheKey) ++ [row]) objects
      (Function.update phases id (some (.recorded row.storeKey now))) := by
  have split : ∀ current ∈ rows.filter (·.cacheKey != row.cacheKey) ++ [row],
      current ∈ rows ∨ current = row := by
    intro current member
    rcases List.mem_append.mp member with before | new
    · exact Or.inl (List.mem_filter.mp before).1
    · exact Or.inr (List.mem_singleton.mp new)
  refine ⟨?_, ?_, ?_, ?_, ?_, ?_, ?_⟩
  · intro current member
    rcases split current member with before | rfl
    · exact tables.keys current before
    · exact named
  · intro phase here entry member
    rcases here.of_update with rfl | there
    · cases member
    · exact tables.planned phase there entry member
  · intro phase entry here deleted
    rcases here.of_update with rfl | there
    · cases deleted
    · exact tables.halved phase entry there deleted
  · intro phase writer here there entry member writing
    rcases here.of_update with rfl | before
    · cases member
    rcases there.of_update with rfl | earlier
    · cases writing
    · exact tables.apart phase writer before earlier entry member writing
  · intro current member
    rcases split current member with before | rfl
    · rcases tables.stocked current before with stored | ⟨phase, entry, here, deleted, own⟩
      · exact Or.inl stored
      · rcases here.leaves (c := some (.recorded row.storeKey now)) running with rfl | stays
        · cases deleted
        · exact Or.inr ⟨phase, entry, stays, deleted, own⟩
    · exact Or.inl (tables.present _ _ ⟨id, running⟩ rfl)
  · intro cacheKey stored
    by_cases own : cacheKey = row.cacheKey
    · refine Or.inr ⟨⟨row, List.mem_append_right _ List.mem_cons_self, own.symm⟩, ?_⟩
      intro phase entry here deleted
      rw [own]
      rcases here.of_update with rfl | there
      · cases deleted
      · exact clean phase entry there deleted
    · rcases tables.listed cacheKey stored with ⟨phase, here, writing⟩ | ⟨⟨old, inside, same⟩, kept⟩
      · rcases here.leaves (c := some (.recorded row.storeKey now)) running with rfl | stays
        · have key : row.storeKey = objectKey config cacheKey := Option.some.inj writing
          exact absurd (objectKey_inj (key.symm.trans named)) own
        · exact Or.inl ⟨phase, stays, writing⟩
      · refine Or.inr ⟨⟨old, List.mem_append_left _ (List.mem_filter.mpr ⟨inside, ?_⟩), same⟩, ?_⟩
        · rw [same]
          simpa using own
        · intro phase entry here deleted
          rcases here.of_update with rfl | there
          · cases deleted
          · exact kept phase entry there deleted
  · intro phase key here writing
    rcases here.of_update with rfl | there
    · cases writing
    · exact tables.present phase key there writing

/-- An eviction chooses rows that no request is about to write. -/
theorem CacheTables.select (tables : CacheTables config rows objects phases)
    {entries : List (Bytes × Bytes)} {now : Int} {count : Nat}
    (running : phases id = some (.counted now count))
    (named : ∀ entry ∈ entries, entry.1 = objectKey config entry.2)
    (clean : ∀ entry ∈ entries, ∀ other, At phases other → other.openKey ≠ some entry.1) :
    CacheTables config rows objects (Function.update phases id (some (.deleting now entries))) := by
  have stays := fun (phase : CachePhase) (here : At phases phase) =>
    here.leaves (c := some (.deleting now entries)) running
  refine ⟨tables.keys, ?_, ?_, ?_, ?_, ?_, ?_⟩
  · intro phase here entry member
    rcases here.of_update with rfl | there
    · exact named entry member
    · exact tables.planned phase there entry member
  · intro phase entry here deleted
    rcases here.of_update with rfl | there
    · cases deleted
    · exact tables.halved phase entry there deleted
  · intro phase writer here there entry member writing
    rcases there.of_update with rfl | earlier
    · cases writing
    rcases here.of_update with rfl | before
    · exact clean entry member writer earlier writing
    · exact tables.apart phase writer before earlier entry member writing
  · intro row member
    rcases tables.stocked row member with stored | ⟨phase, entry, here, deleted, own⟩
    · exact Or.inl stored
    · rcases stays phase here with rfl | there
      · cases deleted
      · exact Or.inr ⟨phase, entry, there, deleted, own⟩
  · intro cacheKey stored
    rcases tables.listed cacheKey stored with ⟨phase, here, writing⟩ | ⟨row, kept⟩
    · rcases stays phase here with rfl | there
      · cases writing
      · exact Or.inl ⟨phase, there, writing⟩
    · refine Or.inr ⟨row, ?_⟩
      intro phase entry here deleted
      rcases here.of_update with rfl | there
      · cases deleted
      · exact kept phase entry there deleted
  · intro phase key here writing
    rcases here.of_update with rfl | there
    · cases writing
    · exact tables.present phase key there writing

/-- An eviction takes an object out of the store. -/
theorem CacheTables.delete (tables : CacheTables config rows objects phases)
    {entry : Bytes × Bytes} {entries : List (Bytes × Bytes)} {now : Int} {left : Objects}
    (running : phases id = some (.deleting now (entry :: entries)))
    (taken : ∀ key, left.get key = if key = entry.1 then none else objects.get key) :
    CacheTables config rows left
      (Function.update phases id (some (.halfway now entry entries))) := by
  have here : At phases (.deleting now (entry :: entries)) := ⟨id, running⟩
  have named : entry.1 = objectKey config entry.2 :=
    tables.planned _ here entry List.mem_cons_self
  refine ⟨tables.keys, ?_, ?_, ?_, ?_, ?_, ?_⟩
  · intro phase there other member
    rcases there.of_update with rfl | before
    · exact tables.planned _ here other (List.mem_cons_of_mem _ member)
    · exact tables.planned phase before other member
  · intro phase other there deleted
    rcases there.of_update with rfl | before
    · cases deleted
      exact named
    · exact tables.halved phase other before deleted
  · intro phase writer there wrote other member writing
    rcases wrote.of_update with rfl | earlier
    · cases writing
    rcases there.of_update with rfl | before
    · exact tables.apart _ writer here earlier other (List.mem_cons_of_mem _ member) writing
    · exact tables.apart phase writer before earlier other member writing
  · intro row member
    by_cases own : row.storeKey = entry.1
    · refine Or.inr ⟨_, entry, at_update_self, rfl, ?_⟩
      exact objectKey_inj (named.symm.trans (own.symm.trans (tables.keys row member)))
    · rcases tables.stocked row member with stored | ⟨phase, other, before, deleted, same⟩
      · rw [taken, if_neg own]
        exact Or.inl stored
      · rcases before.leaves (c := some (.halfway now entry entries)) running with rfl | stays
        · cases deleted
        · exact Or.inr ⟨phase, other, stays, deleted, same⟩
  · intro cacheKey stored
    by_cases own : objectKey config cacheKey = entry.1
    · rw [taken, if_pos own] at stored
      cases stored
    · rw [taken, if_neg own] at stored
      rcases tables.listed cacheKey stored with ⟨phase, before, writing⟩ | ⟨row, kept⟩
      · rcases before.leaves (c := some (.halfway now entry entries)) running with rfl | stays
        · cases writing
        · exact Or.inl ⟨phase, stays, writing⟩
      · refine Or.inr ⟨row, ?_⟩
        intro phase other there deleted
        rcases there.of_update with rfl | before
        · cases deleted
          intro same
          exact own (by rw [named, same])
        · exact kept phase other before deleted
  · intro phase key there writing
    rcases there.of_update with rfl | before
    · cases writing
    · have apart : key ≠ entry.1 := by
        rintro rfl
        exact tables.apart _ phase here before entry List.mem_cons_self writing
      rw [taken, if_neg apart]
      exact tables.present phase key before writing

/-- An eviction takes a row out of the table. -/
theorem CacheTables.remove (tables : CacheTables config rows objects phases)
    {entry : Bytes × Bytes} {entries : List (Bytes × Bytes)} {now : Int}
    (running : phases id = some (.halfway now entry entries)) :
    CacheTables config (rows.filter (·.cacheKey != entry.2)) objects
      (Function.update phases id (some (.deleting now entries))) := by
  have here : At phases (.halfway now entry entries) := ⟨id, running⟩
  refine ⟨?_, ?_, ?_, ?_, ?_, ?_, ?_⟩
  · intro row member
    exact tables.keys row (List.mem_filter.mp member).1
  · intro phase there other member
    rcases there.of_update with rfl | before
    · exact tables.planned _ here other member
    · exact tables.planned phase before other member
  · intro phase other there deleted
    rcases there.of_update with rfl | before
    · cases deleted
    · exact tables.halved phase other before deleted
  · intro phase writer there wrote other member writing
    rcases wrote.of_update with rfl | earlier
    · cases writing
    rcases there.of_update with rfl | before
    · exact tables.apart _ writer here earlier other member writing
    · exact tables.apart phase writer before earlier other member writing
  · intro row member
    have kept := List.mem_filter.mp member
    rcases tables.stocked row kept.1 with stored | ⟨phase, other, before, deleted, own⟩
    · exact Or.inl stored
    · rcases before.leaves (c := some (.deleting now entries)) running with rfl | stays
      · cases deleted
        rw [own] at kept
        simp at kept
      · exact Or.inr ⟨phase, other, stays, deleted, own⟩
  · intro cacheKey stored
    rcases tables.listed cacheKey stored with ⟨phase, before, writing⟩ | ⟨⟨row, inside, same⟩, kept⟩
    · rcases before.leaves (c := some (.deleting now entries)) running with rfl | stays
      · cases writing
      · exact Or.inl ⟨phase, stays, writing⟩
    · have differ : entry.2 ≠ cacheKey := kept _ entry here rfl
      refine Or.inr ⟨⟨row, List.mem_filter.mpr ⟨inside, ?_⟩, same⟩, ?_⟩
      · rw [same]
        simpa using differ.symm
      · intro phase other there deleted
        rcases there.of_update with rfl | before
        · cases deleted
        · exact kept phase other before deleted
  · intro phase key there writing
    rcases there.of_update with rfl | before
    · cases writing
    · exact tables.present phase key before writing

end Tables

/-! ## The history -/

/-- What happened in the object cache. -/
abbrev CacheLog := List (Happening Op Answer State CacheTask (Option Reply))

/-- A request has written an object under a key, then read the time. -/
def DatedAt (history : CacheLog) (key : Bytes) (now : Int) : Prop :=
  ∃ id data stored reading, Before (Wrote id key data stored) (ReadTime id now reading) history

/-- The key and the time of a request that has read the time. -/
def CachePhase.readAt : CachePhase → Option (Bytes × Int)
  | timed key now | recorded key now => some (key, now)
  | _ => none

/-- The history tells of the phases, and keeps what it promises. -/
structure CacheHistory (config : Config) (world : World) (history : CacheLog)
    (phases : Nat → Option CachePhase) : Prop where
  /-- A thread that has written was started before. -/
  numbers : ∀ id key data before, Wrote id key data before ∈ history → id < history.length
  /-- A thread that has written says so. -/
  written : ∀ id key data before, Wrote id key data before ∈ history →
    ∀ phase, phases id = some phase → phase.written = some key
  /-- A thread that says that it has written has written. -/
  stored : ∀ id key, phases id = some (.stored key) →
    ∃ data before, Wrote id key data before ∈ history
  /-- A thread that has read the time has written before. -/
  dated : ∀ id phase key now, phases id = some phase → phase.readAt = some (key, now) →
    ∃ data stored reading, Before (Wrote id key data stored) (ReadTime id now reading) history
  /-- What a request has just written is not deleted. -/
  undisturbed : ∀ id key, phases id = some (.stored key) → ∀ data stored other deleting,
    ¬ Before (Wrote id key data stored) (Deleted other key deleting) history
  /-- An object is not deleted before its time is over. -/
  kept : ∀ id key data stored now reading,
    Before (Wrote id key data stored) (ReadTime id now reading) history →
      ∀ other deleting, Before (Wrote id key data stored) (Deleted other key deleting) history →
        now + config.objectCacheTtlSec ≤ world.time deleting.ticks
  /-- A request that is answered with 201 has stored its object. -/
  answered : ∀ id request reply, .finished id (.objects request) (some reply) ∈ history →
    reply.status = 201 → ∃ cacheKey data stored now reading,
      pathAfter request.localUri (ascii "/objects/") = some cacheKey ∧
        Before (Wrote id (objectKey config cacheKey) data stored) (ReadTime id now reading) history

section History

variable {config : Config} {world : World} {history : CacheLog}
  {phases : Nat → Option CachePhase} {id : Nat}

/-- What was in order stays in order. -/
theorem before_grows {β : Type} {first second last : β} {log : List β}
    (before : Before first second log) : Before first second (log ++ [last]) :=
  before_append_singleton.mpr (Or.inl before)

/-- An operation that writes no object, deletes none, and reads the time only for a thread that has not
written. -/
theorem CacheHistory.quiet (record : CacheHistory config world history phases)
    {old new : CachePhase} (running : phases id = some old) {op : Op} {answer : Answer op}
    {before : State} (notWrite : ∀ other key data earlier,
      Happening.called id op answer before ≠ Wrote other key data earlier)
    (notDelete : ∀ other key earlier,
      Happening.called id op answer before ≠ Deleted other key earlier)
    (unread : old.written = none ∨ ∀ other now earlier,
      Happening.called id op answer before ≠ ReadTime other now earlier)
    (written : new.written = old.written) (read : new.readAt = old.readAt)
    (notStored : ∀ key, new = .stored key → old = .stored key) :
    CacheHistory config world (history ++ [.called id op answer before])
      (Function.update phases id (some new)) := by
  have wrote : ∀ other key data earlier,
      Wrote other key data earlier ∈ history ++ [.called id op answer before] →
        Wrote other key data earlier ∈ history := by
    intro other key data earlier member
    rcases List.mem_append.mp member with there | last
    · exact there
    · exact absurd (List.mem_singleton.mp last).symm (notWrite other key data earlier)
  have pairs : ∀ other key data earlier now reading, Before (Wrote other key data earlier)
      (ReadTime other now reading) (history ++ [.called id op answer before]) →
        Before (Wrote other key data earlier) (ReadTime other now reading) history := by
    intro other key data earlier now reading pair
    rcases before_append_singleton.mp pair with there | ⟨member, last⟩
    · exact there
    · rcases unread with none | never
      · have own : other = id := by
          cases last
          rfl
        rw [own] at member
        have same := record.written id key data earlier member old running
        rw [none] at same
        cases same
      · exact absurd last.symm (never other now reading)
  have deletions : ∀ other key data earlier thread deleting, Before (Wrote other key data earlier)
      (Deleted thread key deleting) (history ++ [.called id op answer before]) →
        Before (Wrote other key data earlier) (Deleted thread key deleting) history := by
    intro other key data earlier thread deleting pair
    rcases before_append_singleton.mp pair with there | ⟨-, last⟩
    · exact there
    · exact absurd last.symm (notDelete thread key deleting)
  have phase : ∀ other found, Function.update phases id (some new) other = some found →
      ∃ earlier, phases other = some earlier ∧ found.written = earlier.written ∧
        found.readAt = earlier.readAt ∧ ∀ key, found = .stored key → earlier = .stored key := by
    intro other found there
    rw [Function.update_apply] at there
    split at there
    · cases there
      rename_i same
      rw [same]
      exact ⟨old, running, written, read, notStored⟩
    · exact ⟨found, there, rfl, rfl, fun _ same => same⟩
  refine ⟨?_, ?_, ?_, ?_, ?_, ?_, ?_⟩
  · intro other key data earlier member
    have bound := record.numbers other key data earlier (wrote _ _ _ _ member)
    rw [List.length_append]
    omega
  · intro other key data earlier member found there
    obtain ⟨was, at_, same, -, -⟩ := phase other found there
    rw [same]
    exact record.written other key data earlier (wrote _ _ _ _ member) was at_
  · intro other key there
    obtain ⟨was, at_, -, -, stays⟩ := phase other _ there
    rw [stays key rfl] at at_
    obtain ⟨data, earlier, member⟩ := record.stored other key at_
    exact ⟨data, earlier, List.mem_append_left _ member⟩
  · intro other found key now there dated
    obtain ⟨was, at_, -, same, -⟩ := phase other found there
    rw [same] at dated
    obtain ⟨data, earlier, reading, pair⟩ := record.dated other was key now at_ dated
    exact ⟨data, earlier, reading, before_grows pair⟩
  · intro other key there data earlier thread deleting pair
    obtain ⟨was, at_, -, -, stays⟩ := phase other _ there
    rw [stays key rfl] at at_
    exact record.undisturbed other key at_ data earlier thread deleting
      (deletions _ _ _ _ _ _ pair)
  · intro other key data earlier now reading pair thread deleting gone
    exact record.kept other key data earlier now reading (pairs _ _ _ _ _ _ pair) thread deleting
      (deletions _ _ _ _ _ _ gone)
  · intro other request reply member status
    rcases List.mem_append.mp member with there | last
    · obtain ⟨cacheKey, data, earlier, now, reading, named, pair⟩ :=
        record.answered other request reply there status
      exact ⟨cacheKey, data, earlier, now, reading, named, before_grows pair⟩
    · cases List.mem_singleton.mp last

/-- A request writes its object. -/
theorem CacheHistory.write (record : CacheHistory config world history phases)
    (running : phases id = some .asking) (numbered : id < history.length) (key data : Bytes)
    (before : State) :
    CacheHistory config world (history ++ [Wrote id key data before])
      (Function.update phases id (some (.stored key))) := by
  have fresh : ∀ other bytes earlier, Wrote id other bytes earlier ∉ history := by
    intro other bytes earlier member
    have same := record.written id other bytes earlier member .asking running
    cases same
  have pairs : ∀ other name bytes earlier now reading, Before (Wrote other name bytes earlier)
      (ReadTime other now reading) (history ++ [Wrote id key data before]) →
        Before (Wrote other name bytes earlier) (ReadTime other now reading) history := by
    intro other name bytes earlier now reading pair
    rcases before_append_singleton.mp pair with there | ⟨-, last⟩
    · exact there
    · cases last
  have deletions : ∀ other name bytes earlier thread deleting,
      Before (Wrote other name bytes earlier) (Deleted thread name deleting)
        (history ++ [Wrote id key data before]) →
        Before (Wrote other name bytes earlier) (Deleted thread name deleting) history := by
    intro other name bytes earlier thread deleting pair
    rcases before_append_singleton.mp pair with there | ⟨-, last⟩
    · exact there
    · cases last
  refine ⟨?_, ?_, ?_, ?_, ?_, ?_, ?_⟩
  · intro other name bytes earlier member
    rw [List.length_append]
    rcases List.mem_append.mp member with there | last
    · have bound := record.numbers other name bytes earlier there
      omega
    · cases List.mem_singleton.mp last
      omega
  · intro other name bytes earlier member found there
    rw [Function.update_apply] at there
    split at there
    · rename_i same
      cases there
      rcases List.mem_append.mp member with before | last
      · rw [same] at before
        exact absurd before (fresh _ _ _)
      · cases List.mem_singleton.mp last
        rfl
    · rename_i differ
      rcases List.mem_append.mp member with before | last
      · exact record.written other name bytes earlier before found there
      · cases List.mem_singleton.mp last
        exact absurd rfl differ
  · intro other name there
    rw [Function.update_apply] at there
    split at there
    · rename_i same
      cases there
      rw [same]
      exact ⟨data, before, List.mem_append_right _ List.mem_cons_self⟩
    · obtain ⟨bytes, earlier, member⟩ := record.stored other name there
      exact ⟨bytes, earlier, List.mem_append_left _ member⟩
  · intro other found name now there dated
    rw [Function.update_apply] at there
    split at there
    · cases there
      cases dated
    · obtain ⟨bytes, earlier, reading, pair⟩ := record.dated other found name now there dated
      exact ⟨bytes, earlier, reading, before_grows pair⟩
  · intro other name there bytes earlier thread deleting pair
    have old := deletions _ _ _ _ _ _ pair
    rw [Function.update_apply] at there
    split at there
    · rename_i same
      rw [same] at old
      exact fresh _ _ _ old.mem.1
    · exact record.undisturbed other name there bytes earlier thread deleting old
  · intro other name bytes earlier now reading pair thread deleting gone
    exact record.kept other name bytes earlier now reading (pairs _ _ _ _ _ _ pair) thread deleting
      (deletions _ _ _ _ _ _ gone)
  · intro other request reply member status
    rcases List.mem_append.mp member with there | last
    · obtain ⟨cacheKey, bytes, earlier, now, reading, named, pair⟩ :=
        record.answered other request reply there status
      exact ⟨cacheKey, bytes, earlier, now, reading, named, before_grows pair⟩
    · cases List.mem_singleton.mp last

/-- A request that has written its object reads the time. -/
theorem CacheHistory.read (record : CacheHistory config world history phases) {key : Bytes}
    (running : phases id = some (.stored key)) (now : Int) (before : State) :
    CacheHistory config world (history ++ [ReadTime id now before])
      (Function.update phases id (some (.timed key now))) := by
  have wrote : ∀ other name data earlier,
      Wrote other name data earlier ∈ history ++ [ReadTime id now before] →
        Wrote other name data earlier ∈ history := by
    intro other name data earlier member
    rcases List.mem_append.mp member with there | last
    · exact there
    · cases List.mem_singleton.mp last
  have deletions : ∀ other name data earlier thread deleting,
      Before (Wrote other name data earlier) (Deleted thread name deleting)
        (history ++ [ReadTime id now before]) →
        Before (Wrote other name data earlier) (Deleted thread name deleting) history := by
    intro other name data earlier thread deleting pair
    rcases before_append_singleton.mp pair with there | ⟨-, last⟩
    · exact there
    · cases last
  refine ⟨?_, ?_, ?_, ?_, ?_, ?_, ?_⟩
  · intro other name data earlier member
    have bound := record.numbers other name data earlier (wrote _ _ _ _ member)
    rw [List.length_append]
    omega
  · intro other name data earlier member found there
    rw [Function.update_apply] at there
    split at there
    · rename_i same
      cases there
      have old := wrote _ _ _ _ member
      rw [same] at old
      have own := record.written id name data earlier old (.stored key) running
      exact own
    · exact record.written other name data earlier (wrote _ _ _ _ member) found there
  · intro other name there
    rw [Function.update_apply] at there
    split at there
    · cases there
    · obtain ⟨data, earlier, member⟩ := record.stored other name there
      exact ⟨data, earlier, List.mem_append_left _ member⟩
  · intro other found name time there dated
    rw [Function.update_apply] at there
    split at there
    · rename_i same
      cases there
      cases dated
      obtain ⟨data, earlier, member⟩ := record.stored id key running
      rw [same]
      exact ⟨data, earlier, before, before_append_singleton.mpr (Or.inr ⟨member, rfl⟩)⟩
    · obtain ⟨data, earlier, reading, pair⟩ := record.dated other found name time there dated
      exact ⟨data, earlier, reading, before_grows pair⟩
  · intro other name there data earlier thread deleting pair
    rw [Function.update_apply] at there
    split at there
    · cases there
    · exact record.undisturbed other name there data earlier thread deleting
        (deletions _ _ _ _ _ _ pair)
  · intro other name data earlier time reading pair thread deleting gone
    have old := deletions _ _ _ _ _ _ gone
    rcases before_append_singleton.mp pair with there | ⟨member, last⟩
    · exact record.kept other name data earlier time reading there thread deleting old
    · -- Nothing was deleted since the request wrote its object.
      cases last
      have same := record.written id name data earlier member _ running
      cases same
      exact absurd old (record.undisturbed id key running data earlier thread deleting)
  · intro other request reply member status
    rcases List.mem_append.mp member with there | last
    · obtain ⟨cacheKey, data, earlier, time, reading, named, pair⟩ :=
        record.answered other request reply there status
      exact ⟨cacheKey, data, earlier, time, reading, named, before_grows pair⟩
    · cases List.mem_singleton.mp last

/-- An eviction takes an object out of the store whose time is over. -/
theorem CacheHistory.delete (record : CacheHistory config world history phases)
    {entry : Bytes × Bytes} {entries : List (Bytes × Bytes)} {now : Int}
    (running : phases id = some (.deleting now (entry :: entries))) (status : StoreStatus)
    (before : State) (elapsed : ∀ time, DatedAt history entry.1 time →
      time + config.objectCacheTtlSec ≤ world.time before.ticks)
    (apart : ∀ other, phases other ≠ some (.stored entry.1)) :
    CacheHistory config world (history ++ [.called id (.storeDel entry.1) status before])
      (Function.update phases id (some (.halfway now entry entries))) := by
  have wrote : ∀ other name data earlier, Wrote other name data earlier ∈
      history ++ [.called id (.storeDel entry.1) status before] →
        Wrote other name data earlier ∈ history := by
    intro other name data earlier member
    rcases List.mem_append.mp member with there | last
    · exact there
    · cases List.mem_singleton.mp last
  have pairs : ∀ other name data earlier time reading, Before (Wrote other name data earlier)
      (ReadTime other time reading) (history ++ [.called id (.storeDel entry.1) status before]) →
        Before (Wrote other name data earlier) (ReadTime other time reading) history := by
    intro other name data earlier time reading pair
    rcases before_append_singleton.mp pair with there | ⟨-, last⟩
    · exact there
    · cases last
  refine ⟨?_, ?_, ?_, ?_, ?_, ?_, ?_⟩
  · intro other name data earlier member
    have bound := record.numbers other name data earlier (wrote _ _ _ _ member)
    rw [List.length_append]
    omega
  · intro other name data earlier member found there
    have old := wrote _ _ _ _ member
    rw [Function.update_apply] at there
    split at there
    · rename_i same
      rw [same] at old
      have own := record.written id name data earlier old _ running
      cases own
    · exact record.written other name data earlier old found there
  · intro other name there
    rw [Function.update_apply] at there
    split at there
    · cases there
    · obtain ⟨data, earlier, member⟩ := record.stored other name there
      exact ⟨data, earlier, List.mem_append_left _ member⟩
  · intro other found name time there dated
    rw [Function.update_apply] at there
    split at there
    · cases there
      cases dated
    · obtain ⟨data, earlier, reading, pair⟩ := record.dated other found name time there dated
      exact ⟨data, earlier, reading, before_grows pair⟩
  · intro other name there data earlier thread deleting pair
    rw [Function.update_apply] at there
    split at there
    · cases there
    · rcases before_append_singleton.mp pair with old | ⟨-, last⟩
      · exact record.undisturbed other name there data earlier thread deleting old
      · cases last
        exact apart other there
  · intro other name data earlier time reading pair thread deleting gone
    have dated := pairs _ _ _ _ _ _ pair
    rcases before_append_singleton.mp gone with old | ⟨-, last⟩
    · exact record.kept other name data earlier time reading dated thread deleting old
    · cases last
      exact elapsed time ⟨other, data, earlier, reading, dated⟩
  · intro other request reply member answered
    rcases List.mem_append.mp member with there | last
    · obtain ⟨cacheKey, data, earlier, time, reading, named, pair⟩ :=
        record.answered other request reply there answered
      exact ⟨cacheKey, data, earlier, time, reading, named, before_grows pair⟩
    · cases List.mem_singleton.mp last

end History

/-- The start of a thread keeps the history. -/
theorem CacheHistory.spawn {config : Config} {world : World} {history : CacheLog}
    {phases : Nat → Option CachePhase} (record : CacheHistory config world history phases)
    {new : CachePhase} (task : CacheTask) (unread : new.readAt = none)
    (notStored : ∀ key, new ≠ .stored key) :
    CacheHistory config world (history ++ [.spawned history.length task])
      (Function.update phases history.length (some new)) := by
  have wrote : ∀ other name data earlier,
      Wrote other name data earlier ∈ history ++ [.spawned history.length task] →
        Wrote other name data earlier ∈ history := by
    intro other name data earlier member
    rcases List.mem_append.mp member with there | last
    · exact there
    · cases List.mem_singleton.mp last
  refine ⟨?_, ?_, ?_, ?_, ?_, ?_, ?_⟩
  · intro other name data earlier member
    have bound := record.numbers other name data earlier (wrote _ _ _ _ member)
    rw [List.length_append]
    omega
  · intro other name data earlier member found there
    have old := wrote _ _ _ _ member
    have bound := record.numbers other name data earlier old
    rw [Function.update_of_ne (by omega)] at there
    exact record.written other name data earlier old found there
  · intro other name there
    rw [Function.update_apply] at there
    split at there
    · exact absurd (Option.some.inj there) (notStored name)
    · obtain ⟨data, earlier, member⟩ := record.stored other name there
      exact ⟨data, earlier, List.mem_append_left _ member⟩
  · intro other found name time there dated
    rw [Function.update_apply] at there
    split at there
    · cases there
      rw [unread] at dated
      cases dated
    · obtain ⟨data, earlier, reading, pair⟩ := record.dated other found name time there dated
      exact ⟨data, earlier, reading, before_grows pair⟩
  · intro other name there data earlier thread deleting pair
    rw [Function.update_apply] at there
    split at there
    · exact absurd (Option.some.inj there) (notStored name)
    · rcases before_append_singleton.mp pair with old | ⟨-, last⟩
      · exact record.undisturbed other name there data earlier thread deleting old
      · cases last
  · intro other name data earlier time reading pair thread deleting gone
    rcases before_append_singleton.mp pair with there | ⟨-, last⟩
    · rcases before_append_singleton.mp gone with old | ⟨-, last⟩
      · exact record.kept other name data earlier time reading there thread deleting old
      · cases last
    · cases last
  · intro other request reply member answered
    rcases List.mem_append.mp member with there | last
    · obtain ⟨cacheKey, data, earlier, time, reading, named, pair⟩ :=
        record.answered other request reply there answered
      exact ⟨cacheKey, data, earlier, time, reading, named, before_grows pair⟩
    · cases List.mem_singleton.mp last

/-- So does the end of one that ends as it should. -/
theorem CacheHistory.finish {config : Config} {world : World} {history : CacheLog}
    {phases : Nat → Option CachePhase} (record : CacheHistory config world history phases) {id : Nat}
    {phase : CachePhase} {task : CacheTask} {value : Option Reply} (running : phases id = some phase)
    (ended : (cacheDiscipline config).ends task phase value) :
    CacheHistory config world (history ++ [.finished id task value])
      (Function.update phases id none) := by
  have wrote : ∀ other name data earlier,
      Wrote other name data earlier ∈ history ++ [.finished id task value] →
        Wrote other name data earlier ∈ history := by
    intro other name data earlier member
    rcases List.mem_append.mp member with there | last
    · exact there
    · cases List.mem_singleton.mp last
  have stays : ∀ other found, Function.update phases id none other = some found →
      phases other = some found := by
    intro other found there
    rw [Function.update_apply] at there
    split at there
    · cases there
    · exact there
  refine ⟨?_, ?_, ?_, ?_, ?_, ?_, ?_⟩
  · intro other name data earlier member
    have bound := record.numbers other name data earlier (wrote _ _ _ _ member)
    rw [List.length_append]
    omega
  · intro other name data earlier member found there
    exact record.written other name data earlier (wrote _ _ _ _ member) found (stays other found there)
  · intro other name there
    obtain ⟨data, earlier, member⟩ := record.stored other name (stays other _ there)
    exact ⟨data, earlier, List.mem_append_left _ member⟩
  · intro other found name time there dated
    obtain ⟨data, earlier, reading, pair⟩ :=
      record.dated other found name time (stays other found there) dated
    exact ⟨data, earlier, reading, before_grows pair⟩
  · intro other name there data earlier thread deleting pair
    rcases before_append_singleton.mp pair with old | ⟨-, last⟩
    · exact record.undisturbed other name (stays other _ there) data earlier thread deleting old
    · cases last
  · intro other name data earlier time reading pair thread deleting gone
    rcases before_append_singleton.mp pair with there | ⟨-, last⟩
    · rcases before_append_singleton.mp gone with old | ⟨-, last⟩
      · exact record.kept other name data earlier time reading there thread deleting old
      · cases last
    · cases last
  · intro other request reply member answered
    rcases List.mem_append.mp member with there | last
    · obtain ⟨cacheKey, data, earlier, time, reading, named, pair⟩ :=
        record.answered other request reply there answered
      exact ⟨cacheKey, data, earlier, time, reading, named, before_grows pair⟩
    · cases List.mem_singleton.mp last
      cases phase with
      | asking => exact absurd answered (ended reply rfl)
      | failed => exact absurd answered (ended reply rfl)
      | recorded key now =>
        obtain ⟨cacheKey, named, rfl⟩ := ended
        obtain ⟨data, earlier, reading, pair⟩ := record.dated id _ _ now running rfl
        exact ⟨cacheKey, data, earlier, now, reading, named, before_grows pair⟩
      | deleting now entries =>
        cases entries with
        | nil => exact False.elim ended
        | cons entry entries => exact False.elim ended
      | _ => exact False.elim ended

/-! ## Times -/

/-- What is deleted is over, and the row of a key has its latest time. -/
structure CacheTimes (config : Config) (world : World) (ticks : Nat) (rows : List ObjectCacheRow)
    (history : CacheLog) (phases : Nat → Option CachePhase) : Prop where
  /-- The time that an eviction has read has come. -/
  clocks : ∀ phase now, At phases phase → phase.clock = some now →
    ∀ tick, ticks ≤ tick → now ≤ world.time tick
  /-- The objects that are to be deleted are over. -/
  due : ∀ phase now, At phases phase → phase.clock = some now → ∀ entry ∈ phase.pending,
    ∀ time, DatedAt history entry.1 time → time + config.objectCacheTtlSec ≤ now
  /-- An object that was stored has its row, or the request that writes it. -/
  dated : ∀ key time, DatedAt history key time → At phases (.timed key time) ∨
    ∃ id row before, Listed id row before ∈ history ∧ objectKey config row.cacheKey = key ∧
      row.createdAt = time
  /-- A row has the latest time of its key. -/
  ordered : ∀ id row before, Listed id row before ∈ history → ∀ current ∈ rows,
    current.cacheKey = row.cacheKey → row.createdAt ≤ current.createdAt

section Times

variable {config : Config} {world : World} {ticks : Nat} {rows : List ObjectCacheRow}
  {history : CacheLog} {phases : Nat → Option CachePhase} {id : Nat}

/-- A step that dates no object and writes no row, and chooses nothing to delete. -/
theorem CacheTimes.frame (times : CacheTimes config world ticks rows history phases)
    {tocks : Nat} {left : List ObjectCacheRow} {log : CacheLog} {later : Nat → Option CachePhase}
    (onward : ticks ≤ tocks) (part : ∀ row ∈ left, row ∈ rows)
    (dated : ∀ key time, DatedAt log key time → DatedAt history key time)
    (listed : ∀ other row before, Listed other row before ∈ log ↔ Listed other row before ∈ history)
    (back : ∀ phase, At later phase →
      (∀ now, phase.clock = some now → phase.pending = [] ∧
        ∀ tick, tocks ≤ tick → now ≤ world.time tick) ∨
      ∃ other, At phases other ∧ other.clock = phase.clock ∧
        ∀ entry ∈ phase.pending, entry ∈ other.pending)
    (forth : ∀ key time, At phases (.timed key time) → At later (.timed key time)) :
    CacheTimes config world tocks left log later := by
  refine ⟨?_, ?_, ?_, ?_⟩
  · intro phase now here reads tick past
    rcases back phase here with new | ⟨other, there, same, -⟩
    · exact (new now reads).2 tick past
    · rw [← same] at reads
      exact times.clocks other now there reads tick (by omega)
  · intro phase now here reads entry member time stored
    rcases back phase here with new | ⟨other, there, same, inside⟩
    · rw [(new now reads).1] at member
      cases member
    · rw [← same] at reads
      exact times.due other now there reads entry (inside entry member) time (dated _ _ stored)
  · intro key time stored
    rcases times.dated key time (dated _ _ stored) with here | ⟨other, row, before, member, own⟩
    · exact Or.inl (forth key time here)
    · exact Or.inr ⟨other, row, before, (listed _ _ _).mpr member, own⟩
  · intro other row before member current inside own
    exact times.ordered other row before ((listed _ _ _).mp member) current (part current inside) own

/-- A request reads the time of its object. -/
theorem CacheTimes.read (times : CacheTimes config world ticks rows history phases) {key : Bytes}
    (running : phases id = some (.stored key)) (now : Int) (before : State)
    (written : ∀ other data earlier, Wrote id other data earlier ∈ history → other = key)
    (apart : ∀ phase, At phases phase → ∀ entry ∈ phase.pending, entry.1 ≠ key) :
    CacheTimes config world (ticks + 1) rows (history ++ [ReadTime id now before])
      (Function.update phases id (some (.timed key now))) := by
  have stored : ∀ other time, DatedAt (history ++ [ReadTime id now before]) other time →
      DatedAt history other time ∨ other = key ∧ time = now := by
    rintro other time ⟨thread, data, earlier, reading, pair⟩
    rcases before_append_singleton.mp pair with old | ⟨member, last⟩
    · exact Or.inl ⟨thread, data, earlier, reading, old⟩
    · cases last
      exact Or.inr ⟨written other data earlier member, rfl⟩
  refine ⟨?_, ?_, ?_, ?_⟩
  · intro phase clock here reads tick past
    rcases here.of_update with rfl | there
    · cases reads
    · exact times.clocks phase clock there reads tick (by omega)
  · intro phase clock here reads entry member time dated
    rcases here.of_update with rfl | there
    · cases reads
    · rcases stored _ _ dated with old | ⟨same, -⟩
      · exact times.due phase clock there reads entry member time old
      · exact absurd same (apart phase there entry member)
  · intro other time dated
    rcases stored _ _ dated with old | ⟨rfl, rfl⟩
    · rcases times.dated other time old with here | ⟨thread, row, earlier, member, own⟩
      · rcases here.leaves (c := some (.timed key now)) running with same | stays
        · cases same
        · exact Or.inl stays
      · exact Or.inr ⟨thread, row, earlier, List.mem_append_left _ member, own⟩
    · exact Or.inl at_update_self
  · intro other row earlier member current inside own
    rcases List.mem_append.mp member with old | last
    · exact times.ordered other row earlier old current inside own
    · cases List.mem_singleton.mp last

/-- A request writes the row of its object, which is the latest one. -/
theorem CacheTimes.insert (times : CacheTimes config world ticks rows history phases)
    {row : ObjectCacheRow} (named : row.storeKey = objectKey config row.cacheKey)
    (running : phases id = some (.timed row.storeKey row.createdAt)) (before : State)
    (latest : ∀ other earlier state, Listed other earlier state ∈ history →
      earlier.cacheKey = row.cacheKey → earlier.createdAt ≤ row.createdAt) :
    CacheTimes config world (ticks + 1) (rows.filter (·.cacheKey != row.cacheKey) ++ [row])
      (history ++ [Listed id row before])
      (Function.update phases id (some (.recorded row.storeKey row.createdAt))) := by
  have stored : ∀ other time, DatedAt (history ++ [Listed id row before]) other time →
      DatedAt history other time := by
    rintro other time ⟨thread, data, earlier, reading, pair⟩
    rcases before_append_singleton.mp pair with old | ⟨-, last⟩
    · exact ⟨thread, data, earlier, reading, old⟩
    · cases last
  refine ⟨?_, ?_, ?_, ?_⟩
  · intro phase clock here reads tick past
    rcases here.of_update with rfl | there
    · cases reads
    · exact times.clocks phase clock there reads tick (by omega)
  · intro phase clock here reads entry member time dated
    rcases here.of_update with rfl | there
    · cases reads
    · exact times.due phase clock there reads entry member time (stored _ _ dated)
  · intro key time dated
    rcases times.dated key time (stored _ _ dated) with here | ⟨other, old, state, member, own⟩
    · rcases here.leaves (c := some (.recorded row.storeKey row.createdAt)) running with
        same | stays
      · cases same
        exact Or.inr ⟨id, row, before, List.mem_append_right _ List.mem_cons_self, named.symm, rfl⟩
      · exact Or.inl stays
    · exact Or.inr ⟨other, old, state, List.mem_append_left _ member, own⟩
  · intro other old state member current inside own
    have earlier : old.cacheKey = row.cacheKey → old.createdAt ≤ row.createdAt := by
      intro same
      rcases List.mem_append.mp member with there | last
      · exact latest other old state there same
      · cases List.mem_singleton.mp last
        exact Int.le_refl _
    rcases List.mem_append.mp inside with kept | last
    · have filtered := List.mem_filter.mp kept
      rcases List.mem_append.mp member with there | new
      · exact times.ordered other old state there current filtered.1 own
      · cases List.mem_singleton.mp new
        have differ := filtered.2
        rw [own] at differ
        simp at differ
    · cases List.mem_singleton.mp last
      exact earlier own.symm

/-- An eviction chooses rows that are over. -/
theorem CacheTimes.select (times : CacheTimes config world ticks rows history phases)
    {now : Int} {count : Nat} {entries : List (Bytes × Bytes)} {log : CacheLog}
    (running : phases id = some (.counted now count))
    (dated : ∀ key time, DatedAt log key time → DatedAt history key time)
    (listed : ∀ other row before, Listed other row before ∈ log ↔ Listed other row before ∈ history)
    (chosen : ∀ entry ∈ entries, ∃ row ∈ rows, objectKey config row.cacheKey = entry.1 ∧
      row.createdAt < now - config.objectCacheTtlSec)
    (apart : ∀ entry ∈ entries, ∀ other, At phases other → other.openKey ≠ some entry.1) :
    CacheTimes config world (ticks + 1) rows log
      (Function.update phases id (some (.deleting now entries))) := by
  refine ⟨?_, ?_, ?_, ?_⟩
  · intro phase clock here reads tick past
    rcases here.of_update with rfl | there
    · cases reads
      exact times.clocks _ now ⟨id, running⟩ rfl tick (by omega)
    · exact times.clocks phase clock there reads tick (by omega)
  · intro phase clock here reads entry member time stored
    rcases here.of_update with rfl | there
    · cases reads
      obtain ⟨row, inside, named, elapsed⟩ := chosen entry member
      rcases times.dated entry.1 time (dated _ _ stored) with writing | ⟨other, old, state, was, own⟩
      · exact absurd rfl (apart entry member _ writing)
      · have same : row.cacheKey = old.cacheKey := objectKey_inj (named.trans own.1.symm)
        have latest := times.ordered other old state was row inside same
        omega
    · exact times.due phase clock there reads entry member time (dated _ _ stored)
  · intro key time stored
    rcases times.dated key time (dated _ _ stored) with here | ⟨other, row, state, member, own⟩
    · rcases here.leaves (c := some (.deleting now entries)) running with same | stays
      · cases same
      · exact Or.inl stays
    · exact Or.inr ⟨other, row, state, (listed _ _ _).mpr member, own⟩
  · intro other row state member current inside own
    exact times.ordered other row state ((listed _ _ _).mp member) current inside own

end Times

/-! ## Steps -/

/-- What holds between two operations. -/
structure CacheInvariant (config : Config) (world : World) (system : CacheSystem) : Prop where
  /-- The tables. -/
  tables : CacheTables config system.state.db.objectCache system.state.objects system.phases
  /-- The history. -/
  record : CacheHistory config world system.history system.phases
  /-- The times. -/
  times : CacheTimes config world system.state.ticks system.state.db.objectCache system.history
    system.phases
  /-- A running thread was started before. -/
  fresh : ∀ id phase, system.phases id = some phase → id < system.history.length

/-- Every operation is counted. -/
theorem World.apply_ticks (world : World) (op : Op) (state : State) :
    (world.apply op state).2.ticks = state.ticks + 1 := by
  cases op with
  | storePut key data => rw [world.apply_storePut]
  | storeDel key => rw [world.apply_storeDel]
  | exec stmt => rw [world.apply_exec]
  | _ => rfl

section Steps

variable {config : Config} {world : World} {system : CacheSystem} {id : Nat} {task : CacheTask}

/-- An operation that leaves the rows and the objects, is not seen by the tables, dates no object and
writes no row. -/
theorem CacheInvariant.quiet (holds : CacheInvariant config world system) {old : CachePhase} (new : CachePhase)
    {op : Op} {next : Answer op → Handler (Option Reply)}
    (running : system.phases id = some old)
    (observed : CachePhase.observe old op (world.apply op system.state).1 = new)
    (rows : (world.apply op system.state).2.db.objectCache = system.state.db.objectCache)
    (objects : (world.apply op system.state).2.objects = system.state.objects)
    (sight : new.sight = old.sight) (written : new.written = old.written)
    (read : new.readAt = old.readAt) (clear : old.openKey = none)
    (clock : new.clock = old.clock ∨ new.pending = [] ∧ ∀ now, new.clock = some now →
      ∀ tick, system.state.ticks + 1 ≤ tick → now ≤ world.time tick)
    (notWrite : ∀ other key data earlier,
      Happening.called id op (world.apply op system.state).1 system.state ≠
        Wrote other key data earlier)
    (notDelete : ∀ other key earlier,
      Happening.called id op (world.apply op system.state).1 system.state ≠
        Deleted other key earlier)
    (notList : ∀ other row earlier,
      Happening.called id op (world.apply op system.state).1 system.state ≠
        Listed other row earlier)
    (unread : old.written = none ∨ ∀ other now earlier,
      Happening.called id op (world.apply op system.state).1 system.state ≠
        ReadTime other now earlier) :
    CacheInvariant config world
      (system.call (cacheWork config) world.machine id task old op next) := by
  have state : (system.call (cacheWork config) world.machine id task old op next).state =
      (world.apply op system.state).2 := rfl
  have history : (system.call (cacheWork config) world.machine id task old op next).history =
      system.history ++ [.called id op (world.apply op system.state).1 system.state] := rfl
  have phases : (system.call (cacheWork config) world.machine id task old op next).phases =
      Function.update system.phases id (some new) := by
    rw [phases_call, ← observed]
    rfl
  have notStored : ∀ key, new ≠ .stored key := by
    rintro key rfl
    have opened : old.openKey = some key := (congrArg Prod.fst sight).symm
    rw [clear] at opened
    cases opened
  have record := holds.record.quiet running notWrite notDelete unread written read
    fun key same => absurd same (notStored key)
  refine ⟨?_, ?_, ?_, ?_⟩
  · rw [state, phases, rows, objects]
    exact holds.tables.change running sight
  · rw [history, phases]
    exact record
  · rw [state, history, phases, rows, world.apply_ticks]
    refine holds.times.frame (by omega) (fun row member => member) ?_ ?_ ?_ ?_
    · rintro key time ⟨other, data, earlier, reading, pair⟩
      refine ⟨other, data, earlier, reading, ?_⟩
      rcases before_append_singleton.mp pair with there | ⟨member, last⟩
      · exact there
      · rcases unread with nothing | never
        · have own : other = id := by
            cases last
            rfl
          rw [own] at member
          have same := holds.record.written id key data earlier member old running
          rw [nothing] at same
          cases same
        · exact absurd last.symm (never _ _ _)
    · intro other row earlier
      constructor
      · intro member
        rcases List.mem_append.mp member with there | last
        · exact there
        · exact absurd (List.mem_singleton.mp last).symm (notList other row earlier)
      · exact fun member => List.mem_append_left _ member
    · intro phase here
      rcases here.of_update with rfl | there
      · rcases clock with same | ⟨nothing, come⟩
        · refine Or.inr ⟨old, ⟨id, running⟩, same.symm, ?_⟩
          intro entry member
          rwa [show old.pending = phase.pending from (congrArg (·.2.1) sight).symm]
        · exact Or.inl fun now reads => ⟨nothing, come now reads⟩
      · exact Or.inr ⟨phase, there, rfl, fun entry member => member⟩
    · intro key time here
      rcases here.leaves (c := some new) running with rfl | stays
      · cases clear
      · exact stays
  · intro other phase here
    rw [phases, Function.update_apply] at here
    rw [history, List.length_append]
    split at here
    · rename_i same
      have bound := holds.fresh id old running
      omega
    · have bound := holds.fresh other phase here
      omega

/-- The next state is in order when its parts are. -/
theorem CacheInvariant.behind (holds : CacheInvariant config world system) {old : CachePhase} (new : CachePhase)
    {op : Op} {next : Answer op → Handler (Option Reply)}
    (running : system.phases id = some old)
    (observed : CachePhase.observe old op (world.apply op system.state).1 = new)
    (tables : CacheTables config (world.apply op system.state).2.db.objectCache
      (world.apply op system.state).2.objects (Function.update system.phases id (some new)))
    (record : CacheHistory config world
      (system.history ++ [.called id op (world.apply op system.state).1 system.state])
      (Function.update system.phases id (some new)))
    (times : CacheTimes config world (system.state.ticks + 1)
      (world.apply op system.state).2.db.objectCache
      (system.history ++ [.called id op (world.apply op system.state).1 system.state])
      (Function.update system.phases id (some new))) :
    CacheInvariant config world
      (system.call (cacheWork config) world.machine id task old op next) := by
  have state : (system.call (cacheWork config) world.machine id task old op next).state =
      (world.apply op system.state).2 := rfl
  have history : (system.call (cacheWork config) world.machine id task old op next).history =
      system.history ++ [.called id op (world.apply op system.state).1 system.state] := rfl
  have phases : (system.call (cacheWork config) world.machine id task old op next).phases =
      Function.update system.phases id (some new) := by
    rw [phases_call, ← observed]
    rfl
  refine ⟨?_, ?_, ?_, ?_⟩
  · rw [state, phases]
    exact tables
  · rw [history, phases]
    exact record
  · rw [state, history, phases, world.apply_ticks]
    exact times
  · intro other phase here
    rw [phases, Function.update_apply] at here
    rw [history, List.length_append]
    split at here
    · rename_i same
      have bound := holds.fresh id old running
      omega
    · have bound := holds.fresh other phase here
      omega

/-- An event that is no reading of the time dates nothing. -/
theorem datedAt_append {history : CacheLog} {event : Happening Op Answer State CacheTask
    (Option Reply)} (unread : ∀ other now earlier, event ≠ ReadTime other now earlier) {key : Bytes}
    {time : Int} (dated : DatedAt (history ++ [event]) key time) : DatedAt history key time := by
  obtain ⟨other, data, earlier, reading, pair⟩ := dated
  refine ⟨other, data, earlier, reading, ?_⟩
  rcases before_append_singleton.mp pair with there | ⟨-, last⟩
  · exact there
  · exact absurd last.symm (unread _ _ _)

/-- An event that writes no row lists nothing. -/
theorem listed_append {history : CacheLog} {event : Happening Op Answer State CacheTask
    (Option Reply)} (notList : ∀ other row earlier, event ≠ Listed other row earlier) (other : Nat)
    (row : ObjectCacheRow) (before : State) :
    Listed other row before ∈ history ++ [event] ↔ Listed other row before ∈ history := by
  constructor
  · intro member
    rcases List.mem_append.mp member with there | last
    · exact there
    · exact absurd (List.mem_singleton.mp last).symm (notList _ _ _)
  · exact fun member => List.mem_append_left _ member

/-- A request writes its object, or fails. -/
theorem CacheInvariant.put (holds : CacheInvariant config world system) {cacheKey data : Bytes}
    {next : Answer (.storePut (objectKey config cacheKey) data) → Handler (Option Reply)}
    (running : system.phases id = some .asking)
    (clean : CleanOp world system .asking (.storePut (objectKey config cacheKey) data)) :
    CacheInvariant config world (system.call (cacheWork config) world.machine id task .asking
      (.storePut (objectKey config cacheKey) data) next) := by
  have applied := world.apply_storePut (objectKey config cacheKey) data system.state
  simp only [CleanOp] at clean
  by_cases fails : world.storeFails system.state.ticks = true
  · rw [if_pos fails] at clean
    have answer : (world.apply (.storePut (objectKey config cacheKey) data) system.state).1 =
        .error := by
      rw [applied, if_pos fails]
    refine holds.quiet .failed running ?_ ?_ ?_ rfl rfl rfl rfl (Or.inl rfl) ?_ ?_ ?_
      (Or.inl rfl)
    · rw [answer]
      rfl
    · rw [applied]
    · rw [applied]
      simp only [World.putObjects, if_pos fails, clean]
    · intro other key bytes earlier same
      rw [answer] at same
      cases same
    · intro other key earlier same
      cases same
    · intro other row earlier same
      cases same
  · rw [if_neg fails] at clean
    have answer : (world.apply (.storePut (objectKey config cacheKey) data) system.state).1 =
        .ok := by
      rw [applied, if_neg fails]
    have event : Happening.called id (.storePut (objectKey config cacheKey) data)
        (world.apply (.storePut (objectKey config cacheKey) data) system.state).1 system.state =
          Wrote id (objectKey config cacheKey) data system.state := by
      rw [answer]
      rfl
    refine holds.behind (.stored (objectKey config cacheKey)) running ?_ ?_ ?_ ?_
    · rw [answer]
      rfl
    · rw [applied]
      simp only [World.putObjects, if_neg fails]
      exact holds.tables.write running clean
    · rw [event]
      exact holds.record.write running (holds.fresh id _ running) _ _ _
    · rw [event, applied]
      refine holds.times.frame (by omega) (fun row member => member) ?_ ?_ ?_ ?_
      · exact fun key time dated => datedAt_append (fun _ _ _ same => by cases same) dated
      · exact listed_append fun _ _ _ same => by cases same
      · intro phase here
        rcases here.of_update with rfl | there
        · exact Or.inl fun now reads => by cases reads
        · exact Or.inr ⟨phase, there, rfl, fun entry member => member⟩
      · intro key time here
        rcases here.leaves (c := some (.stored (objectKey config cacheKey))) running with
          same | stays
        · cases same
        · exact stays

/-- A request that has stored its object reads the time. -/
theorem CacheInvariant.date (holds : CacheInvariant config world system) {key : Bytes}
    {next : Answer .time → Handler (Option Reply)}
    (running : system.phases id = some (.stored key)) :
    CacheInvariant config world
      (system.call (cacheWork config) world.machine id task (.stored key) .time next) := by
  refine holds.behind (.timed key (world.time system.state.ticks)) running rfl ?_ ?_ ?_
  · exact holds.tables.change running rfl
  · exact holds.record.read running _ _
  · refine holds.times.read running _ _ ?_ ?_
    · intro other data earlier member
      have same := holds.record.written id other data earlier member _ running
      exact (Option.some.inj same).symm
    · rintro phase here entry member rfl
      exact holds.tables.apart phase _ here ⟨id, running⟩ entry member rfl

/-- A request writes its row. -/
theorem CacheInvariant.list (holds : CacheInvariant config world system) {row : ObjectCacheRow}
    {next : Answer (.exec (.putCacheEntry row)) → Handler (Option Reply)}
    (named : row.storeKey = objectKey config row.cacheKey)
    (running : system.phases id = some (.timed row.storeKey row.createdAt))
    (clean : CleanOp world system (.timed row.storeKey row.createdAt) (.exec (.putCacheEntry row))) :
    CacheInvariant config world (system.call (cacheWork config) world.machine id task
      (.timed row.storeKey row.createdAt) (.exec (.putCacheEntry row)) next) := by
  obtain ⟨reliable, half, latest⟩ := clean
  have answer : (world.apply (.exec (.putCacheEntry row)) system.state).1 = .ok := by
    simp only [World.apply, reliable, Bool.false_eq_true, if_false, Database.exec]
  have state : (world.apply (.exec (.putCacheEntry row)) system.state).2 =
      { system.state with
        db := { system.state.db with
          objectCache := system.state.db.objectCache.filter (·.cacheKey != row.cacheKey) ++ [row] }
        ticks := system.state.ticks + 1 } := by
    simp only [World.apply, reliable, Bool.false_eq_true, if_false, Database.exec]
  have event : Happening.called id (.exec (.putCacheEntry row))
      (world.apply (.exec (.putCacheEntry row)) system.state).1 system.state =
        Listed id row system.state := by
    rw [answer]
    rfl
  refine holds.behind (.recorded row.storeKey row.createdAt) running rfl ?_ ?_ ?_
  · rw [state]
    exact holds.tables.insert named running half
  · refine holds.record.quiet running ?_ ?_ (Or.inr ?_) rfl rfl ?_
    · intro _ _ _ _ same
      cases same
    · intro _ _ _ same
      cases same
    · intro _ _ _ same
      cases same
    · intro _ same
      cases same
  · rw [state, event]
    exact holds.times.insert named running system.state latest

/-- An eviction takes an object out of the store. -/
theorem CacheInvariant.delete (holds : CacheInvariant config world system) {now : Int}
    {entry : Bytes × Bytes} {entries : List (Bytes × Bytes)}
    {next : Answer (.storeDel entry.1) → Handler (Option Reply)}
    (running : system.phases id = some (.deleting now (entry :: entries)))
    (clean : CleanOp world system (.deleting now (entry :: entries)) (.storeDel entry.1)) :
    CacheInvariant config world (system.call (cacheWork config) world.machine id task
      (.deleting now (entry :: entries)) (.storeDel entry.1) next) := by
  have here : At system.phases (.deleting now (entry :: entries)) := ⟨id, running⟩
  have state := world.apply_storeDel entry.1 system.state
  refine holds.behind (.halfway now entry entries) running rfl ?_ ?_ ?_
  · rw [state]
    refine holds.tables.delete running ?_
    intro key
    unfold World.delObjects
    by_cases fails : world.storeFails system.state.ticks = true
    · -- A deletion that fails finds no object.
      have absent : system.state.objects.get entry.1 = none := by
        cases there : system.state.objects.get entry.1 with
        | none => rfl
        | some data =>
          have works : world.storeFails system.state.ticks = false := clean (by rw [there]; rfl)
          rw [fails] at works
          cases works
      rw [if_pos fails]
      split
      · rename_i own
        rw [own, absent]
      · rfl
    · rw [if_neg fails, Objects.get_del]
  · refine holds.record.delete running _ _ ?_ ?_
    · intro time dated
      have elapsed := holds.times.due _ now here rfl entry List.mem_cons_self time dated
      have come := holds.times.clocks _ now here rfl system.state.ticks (Nat.le_refl _)
      omega
    · intro other writing
      exact holds.tables.apart _ _ here ⟨other, writing⟩ entry List.mem_cons_self rfl
  · rw [state]
    refine holds.times.frame (by omega) (fun row member => member) ?_ ?_ ?_ ?_
    · exact fun key time dated => datedAt_append (fun _ _ _ same => by cases same) dated
    · exact listed_append fun _ _ _ same => by cases same
    · intro phase there
      rcases there.of_update with rfl | before
      · exact Or.inr ⟨_, here, rfl, fun other member => List.mem_cons_of_mem _ member⟩
      · exact Or.inr ⟨phase, before, rfl, fun other member => member⟩
    · intro key time there
      rcases there.leaves (c := some (.halfway now entry entries)) running with same | stays
      · cases same
      · exact stays

/-- An eviction takes a row out of the table. -/
theorem CacheInvariant.remove (holds : CacheInvariant config world system) {now : Int}
    {entry : Bytes × Bytes} {entries : List (Bytes × Bytes)}
    {next : Answer (.exec (.deleteCacheEntry entry.2)) → Handler (Option Reply)}
    (running : system.phases id = some (.halfway now entry entries))
    (clean : CleanOp world system (.halfway now entry entries) (.exec (.deleteCacheEntry entry.2))) :
    CacheInvariant config world (system.call (cacheWork config) world.machine id task
      (.halfway now entry entries) (.exec (.deleteCacheEntry entry.2)) next) := by
  have reliable : world.dbFails system.state.ticks = false := clean
  have state : (world.apply (.exec (.deleteCacheEntry entry.2)) system.state).2 =
      { system.state with
        db := { system.state.db with
          objectCache := system.state.db.objectCache.filter (·.cacheKey != entry.2) }
        ticks := system.state.ticks + 1 } := by
    simp only [World.apply, reliable, Bool.false_eq_true, if_false, Database.exec]
  refine holds.behind (.deleting now entries) running rfl ?_ ?_ ?_
  · rw [state]
    exact holds.tables.remove running
  · refine holds.record.quiet running ?_ ?_ (Or.inl rfl) rfl rfl ?_
    · intro _ _ _ _ same
      cases same
    · intro _ _ _ same
      cases same
    · intro _ same
      cases same
  · rw [state]
    refine holds.times.frame (by omega) (fun row member => (List.mem_filter.mp member).1) ?_ ?_ ?_ ?_
    · exact fun key time dated => datedAt_append (fun _ _ _ same => by cases same) dated
    · exact listed_append fun _ _ _ same => by cases same
    · intro phase there
      rcases there.of_update with rfl | before
      · exact Or.inr ⟨_, ⟨id, running⟩, rfl, fun other member => member⟩
      · exact Or.inr ⟨phase, before, rfl, fun other member => member⟩
    · intro key time there
      rcases there.leaves (c := some (.deleting now entries)) running with same | stays
      · cases same
      · exact stays

/-- The entries of an eviction are those of rows from before its time. -/
theorem expiredEntries_row {count : Nat} {cutoff : Int} {state : State} {entry : Bytes × Bytes}
    (member : entry ∈ expiredEntries count (world.apply (.expiredObjects cutoff) state).1) :
    ∃ row ∈ state.db.objectCache, row.createdAt < cutoff ∧ entry = (row.storeKey, row.cacheKey) := by
  have inside := List.mem_of_mem_take member
  obtain ⟨line, found, taken⟩ := List.mem_filterMap.mp inside
  have rows : line ∈ (state.db.objectCache.filter fun row => decide (row.createdAt < cutoff)).map
      fun row => [some row.storeKey, some row.cacheKey] := by
    simp only [World.apply] at found
    split at found
    · cases found
    · exact found
  obtain ⟨row, selected, rfl⟩ := List.mem_map.mp rows
  have old := List.mem_filter.mp selected
  refine ⟨row, old.1, of_decide_eq_true old.2, ?_⟩
  exact (Option.some.inj taken).symm

/-- An eviction chooses what it deletes. -/
theorem CacheInvariant.select (holds : CacheInvariant config world system) {now : Int} {count : Nat}
    {next : Answer (.expiredObjects (now - config.objectCacheTtlSec)) → Handler (Option Reply)}
    (running : system.phases id = some (.counted now count))
    (clean : CleanOp world system (.counted now count)
      (.expiredObjects (now - config.objectCacheTtlSec))) :
    CacheInvariant config world (system.call (cacheWork config) world.machine id task
      (.counted now count) (.expiredObjects (now - config.objectCacheTtlSec)) next) := by
  have apart := clean now count rfl
  have chosen := @expiredEntries_row world count (now - config.objectCacheTtlSec) system.state
  refine holds.behind (.deleting now (expiredEntries count (world.apply
    (.expiredObjects (now - config.objectCacheTtlSec)) system.state).1)) running rfl ?_ ?_ ?_
  · refine holds.tables.select running ?_ apart
    intro entry member
    obtain ⟨row, inside, -, rfl⟩ := chosen member
    exact holds.tables.keys row inside
  · refine holds.record.quiet running ?_ ?_ (Or.inl rfl) rfl rfl ?_
    · intro _ _ _ _ same
      cases same
    · intro _ _ _ same
      cases same
    · intro _ same
      cases same
  · refine holds.times.select running ?_ ?_ ?_ apart
    · exact fun key time dated => datedAt_append (fun _ _ _ same => by cases same) dated
    · exact listed_append fun _ _ _ same => by cases same
    · intro entry member
      obtain ⟨row, inside, old, rfl⟩ := chosen member
      exact ⟨row, inside, (holds.tables.keys row inside).symm, old⟩

/-- A request that has not written anything calls an operation. -/
theorem CacheInvariant.ask (holds : CacheInvariant config world system) {op : Op}
    {next : Answer op → Handler (Option Reply)} (running : system.phases id = some .asking)
    (allowed : (cacheDiscipline config).allows .asking op) (clean : CleanOp world system .asking op) :
    CacheInvariant config world
      (system.call (cacheWork config) world.machine id task .asking op next) := by
  -- The access check and the reads are not seen.
  have unseen : ∀ answered : CachePhase.observe .asking op (world.apply op system.state).1 = .asking,
      (world.apply op system.state).2.db = system.state.db →
      (world.apply op system.state).2.objects = system.state.objects →
      (∀ key data, op ≠ .storePut key data) → (∀ key, op ≠ .storeDel key) →
      (∀ stmt, op ≠ .exec stmt) →
      CacheInvariant config world
        (system.call (cacheWork config) world.machine id task .asking op next) := by
    intro answered db objects notPut notDel notExec
    refine holds.quiet .asking running answered (by rw [db]) objects rfl rfl rfl rfl
      (Or.inl rfl) ?_ ?_ ?_ (Or.inl rfl)
    · exact fun _ key data _ same => notPut key data (Happening.called_op same)
    · exact fun _ key _ same => notDel key (Happening.called_op same)
    · exact fun _ row _ same => notExec _ (Happening.called_op same)
  rcases allowed with checks | ⟨key, rfl⟩ | ⟨cacheKey, data, rfl⟩
  · cases op with
    | time => exact unseen rfl rfl rfl nofun nofun nofun
    | revocationCheck jti => exact unseen rfl rfl rfl nofun nofun nofun
    | checkRateLimit limit sub => exact unseen rfl rfl rfl nofun nofun nofun
    | _ => exact False.elim checks
  · exact unseen rfl rfl rfl nofun nofun nofun
  · exact holds.put running clean

/-- Every clean operation of a thread keeps what holds. -/
theorem CacheInvariant.call (forward : ∀ tick later, tick ≤ later → world.time tick ≤ world.time later)
    (holds : CacheInvariant config world system) {phase : CachePhase} {op : Op}
    {next : Answer op → Handler (Option Reply)} (running : system.phases id = some phase)
    (allowed : (cacheDiscipline config).allows phase op) (clean : CleanOp world system phase op) :
    CacheInvariant config world
      (system.call (cacheWork config) world.machine id task phase op next) := by
  cases phase with
  | asking => exact holds.ask running allowed clean
  | stored key =>
    cases (show op = .time from allowed)
    exact holds.date running
  | timed key now =>
    obtain ⟨cacheKey, size, rfl, rfl⟩ := allowed
    exact holds.list rfl running clean
  | recorded key now => exact False.elim allowed
  | failed => exact False.elim allowed
  | idle =>
    cases (show op = .time from allowed)
    refine holds.quiet (.dated (world.time system.state.ticks)) running rfl rfl rfl rfl rfl rfl
      rfl (Or.inr ⟨rfl, ?_⟩) nofun nofun nofun (Or.inl rfl)
    intro now reads tick past
    cases reads
    exact forward _ _ (by omega)
  | dated now =>
    cases (show op = .expiredObjects (now - config.objectCacheTtlSec) from allowed)
    exact holds.quiet (.counted now _) running rfl rfl rfl rfl rfl rfl rfl (Or.inl rfl) nofun
      nofun nofun (Or.inl rfl)
  | counted now count =>
    cases (show op = .expiredObjects (now - config.objectCacheTtlSec) from allowed)
    exact holds.select running clean
  | deleting now entries =>
    cases entries with
    | nil => exact False.elim allowed
    | cons entry entries =>
      cases (show op = .storeDel entry.1 from allowed)
      exact holds.delete running clean
  | halfway now entry entries =>
    cases (show op = .exec (.deleteCacheEntry entry.2) from allowed)
    exact holds.remove running clean

/-- The start of a thread keeps it. -/
theorem CacheInvariant.spawn (holds : CacheInvariant config world system) (task : CacheTask)
    (free : system.threads system.history.length = none) :
    CacheInvariant config world (system.spawn (cacheWork config) task) := by
  have none : system.phases system.history.length = none := by
    rw [System.phases, free]
    rfl
  have unseen : ((cacheWork config).start task).Unseen ∧
      ((cacheWork config).start task).readAt = Option.none ∧
      ((cacheWork config).start task).clock = Option.none ∧
      ∀ key, (cacheWork config).start task ≠ .stored key := by
    cases task with
    | objects request => exact ⟨rfl, rfl, rfl, fun _ same => by cases same⟩
    | evict => exact ⟨rfl, rfl, rfl, fun _ same => by cases same⟩
  have phases := @phases_spawn Op Answer State CacheTask (Option Reply) CachePhase system
    (cacheWork config) task
  refine ⟨?_, ?_, ?_, ?_⟩
  · rw [phases]
    exact holds.tables.spawn none unseen.1
  · rw [phases]
    exact holds.record.spawn task unseen.2.1 unseen.2.2.2
  · rw [phases]
    refine holds.times.frame (Nat.le_refl _) (fun row member => member) ?_ ?_ ?_ ?_
    · exact fun key time dated => datedAt_append (fun _ _ _ same => by cases same) dated
    · exact listed_append fun _ _ _ same => by cases same
    · intro phase here
      rcases here.of_update with rfl | there
      · refine Or.inl fun now reads => ?_
        rw [unseen.2.2.1] at reads
        cases reads
      · exact Or.inr ⟨phase, there, rfl, fun entry member => member⟩
    · exact fun key time here => here.stays none
  · intro other phase here
    rw [phases, Function.update_apply] at here
    simp only [System.spawn, List.length_append, List.length_singleton]
    split at here
    · omega
    · have bound := holds.fresh other phase here
      omega

/-- So does the end of one. -/
theorem CacheInvariant.finish (holds : CacheInvariant config world system) {phase : CachePhase}
    {value : Option Reply} (running : system.phases id = some phase)
    (ended : (cacheDiscipline config).ends task phase value) :
    CacheInvariant config world (system.finish id task value) := by
  -- A thread does not end halfway.
  have unseen : phase.Unseen ∧ ∀ key time, phase ≠ .timed key time := by
    cases phase with
    | asking => exact ⟨rfl, nofun⟩
    | failed => exact ⟨rfl, nofun⟩
    | recorded key now => exact ⟨rfl, nofun⟩
    | idle => exact ⟨rfl, nofun⟩
    | counted now count => exact ⟨rfl, nofun⟩
    | deleting now entries =>
      cases entries with
      | nil => exact ⟨rfl, nofun⟩
      | cons entry entries => cases task <;> exact False.elim ended
    | _ => cases task <;> exact False.elim ended
  have phases := @phases_finish Op Answer State CacheTask (Option Reply) CachePhase system id task
    value
  refine ⟨?_, ?_, ?_, ?_⟩
  · rw [phases]
    exact holds.tables.finish running unseen.1
  · rw [phases]
    exact holds.record.finish running ended
  · rw [phases]
    refine holds.times.frame (Nat.le_refl _) (fun row member => member) ?_ ?_ ?_ ?_
    · exact fun key time dated => datedAt_append (fun _ _ _ same => by cases same) dated
    · exact listed_append fun _ _ _ same => by cases same
    · exact fun phase here => Or.inr ⟨phase, here.of_end, rfl, fun entry member => member⟩
    · intro key time here
      rcases here.leaves (c := none) running with same | stays
      · exact absurd same.symm (unseen.2 key time)
      · exact stays
  · intro other found here
    rw [phases, Function.update_apply] at here
    simp only [System.finish, List.length_append, List.length_singleton]
    split at here
    · cases here
    · have bound := holds.fresh other found here
      omega

end Steps

/-! ## Runs -/

/-- A table that lists what is in the store is in order before anything happens. -/
theorem CacheInvariant.initial {config : Config} {world : World} {state : State}
    (consistent : CacheConsistent config state) :
    CacheInvariant config world (System.initial state) := by
  have nowhere : ∀ phase, ¬ At (System.initial state : CacheSystem).phases phase := by
    rintro phase ⟨id, here⟩
    cases here
  refine ⟨⟨consistent.keys, ?_, ?_, ?_, ?_, ?_, ?_⟩, ⟨nofun, nofun, nofun, nofun, nofun, nofun, nofun⟩,
    ⟨?_, ?_, ?_, nofun⟩, nofun⟩
  · exact fun phase here => absurd here (nowhere phase)
  · exact fun phase entry here => absurd here (nowhere phase)
  · exact fun phase other here => absurd here (nowhere phase)
  · intro row member
    refine Or.inl ?_
    rw [consistent.keys row member]
    exact (consistent.listed row.cacheKey).mp ⟨row, member, rfl⟩
  · intro cacheKey stored
    refine Or.inr ⟨(consistent.listed cacheKey).mpr stored, ?_⟩
    exact fun phase entry here => absurd here (nowhere phase)
  · exact fun phase key here => absurd here (nowhere phase)
  · exact fun phase now here => absurd here (nowhere phase)
  · exact fun phase now here => absurd here (nowhere phase)
  · rintro key time ⟨id, data, stored, reading, pair⟩
    exact absurd pair.mem.1 (List.not_mem_nil)

/-- Between two operations the cache is sound. -/
theorem CacheInvariant.sound {config : Config} {world : World} {system : CacheSystem}
    (holds : CacheInvariant config world system) : CacheSound config world system := by
  refine ⟨holds.record.answered, holds.record.kept, ?_⟩
  intro quiescent cacheKey
  have nowhere : ∀ phase, ¬ At system.phases phase := by
    rintro phase ⟨id, here⟩
    rw [System.phases, quiescent id] at here
    cases here
  constructor
  · rintro ⟨row, member, rfl⟩
    rcases holds.tables.stocked row member with stored | ⟨phase, -, here, -⟩
    · rwa [holds.tables.keys row member] at stored
    · exact absurd here (nowhere phase)
  · intro stored
    rcases holds.tables.listed cacheKey stored with ⟨phase, here, -⟩ | ⟨row, -⟩
    · exact absurd here (nowhere phase)
    · exact row

/-- A server that keeps objects for a minute. -/
def cacheConfig : Config :=
  { Grid.openConfig with
    hasRegistryKey := false
    objectCacheTtlSec := 60 }

/-- A world in which nothing fails and the time stands still. -/
def noonWorld : World := { Grid.quietWorld with time := fun _ => 1000 }

/-- An object that is over, with its row. -/
def staleState : State where
  db := { Database.empty with
    objectCache := [⟨ascii "4f2a91.o", ascii "central/objects/4f2a91.o", 3, 0⟩] }
  objects := [(ascii "central/objects/4f2a91.o", ascii "old")]
  revoked := []
  buckets := []
  ticks := 0

/-- A request that stores the object again. -/
def refreshRequest : Request where
  method := ascii "PUT"
  localUri := ascii "/objects/4f2a91.o"
  queryString := none
  headers := []
  contentLength := 3
  body := ascii "new"
  behindBody := []

/-- The table of the object lists it. -/
theorem staleState_consistent : CacheConsistent cacheConfig staleState := by
  have key : objectKey cacheConfig (ascii "4f2a91.o") = ascii "central/objects/4f2a91.o" := by
    decide +kernel
  refine ⟨?_, ?_⟩
  · intro row member
    cases List.mem_singleton.mp member
    exact key.symm
  · intro cacheKey
    constructor
    · rintro ⟨row, member, rfl⟩
      cases List.mem_singleton.mp member
      rw [show objectKey cacheConfig (ObjectCacheRow.cacheKey _) = _ from key]
      decide +kernel
    · intro stored
      refine ⟨_, List.mem_singleton.mpr rfl, ?_⟩
      by_contra differ
      have other : (ascii "central/objects/4f2a91.o" == objectKey cacheConfig cacheKey) = false := by
        rw [← key]
        simpa using fun same => differ (objectKey_inj same)
      simp [staleState, Objects.get, other] at stored

/-- The system behind a schedule. -/
def scheduled (choices : List (Choice CacheTask)) : CacheSystem :=
  ((System.initial staleState).schedule (cacheWork cacheConfig) noonWorld.machine choices).getD
    (System.initial staleState)

/-- The next step of a thread is clean when its operation is. -/
theorem cleanStep_of {world : World} {system : CacheSystem} {id : Nat} {task : CacheTask}
    {phase : CachePhase} {op : Op} {next : Answer op → Handler (Option Reply)}
    (running : system.threads id = some ⟨task, phase, .call op next⟩)
    (clean : CleanOp world system phase op) : CleanStep world system (.go id) := by
  intro other found call rest here
  rw [running] at here
  cases here
  exact clean

/-- Where two threads run, a thread is in the phase of the one or of the other. -/
theorem at_pair {phases : Nat → Option CachePhase} {first second other : CachePhase}
    (zero : phases 0 = some first) (one : phases 1 = some second)
    (rest : ∀ id, phases (id + 2) = none) (here : At phases other) :
    other = first ∨ other = second := by
  obtain ⟨id, here⟩ := here
  match id with
  | 0 => exact .inl (Option.some.inj (here.symm.trans zero))
  | 1 => exact .inr (Option.some.inj (here.symm.trans one))
  | id + 2 =>
    rw [rest id] at here
    cases here

/-- The schedule of a request that stores the object again when an eviction has taken the old one
out of the store, and that writes its row when the eviction has deleted the old one. -/
def meetingChoices : List (Choice CacheTask) :=
  [.spawn .evict, .spawn (.objects refreshRequest), .go 0, .go 0, .go 0, .go 0, .go 1, .go 1, .go 0,
    .go 1, .go 0, .go 1]

/-- The system behind the first steps of the schedule. -/
def meeting (steps : Nat) : CacheSystem := scheduled (meetingChoices.take steps)

/-- The first steps of the schedule are clean. -/
abbrev CleanMeeting (steps : Nat) : Prop :=
  Reached (cacheWork cacheConfig) noonWorld.machine (CleanStep noonWorld) staleState (meeting steps)

/-- Whether an event of a history is the writing of a row. -/
def listsRow : Happening Op Answer State CacheTask (Option Reply) → Bool
  | .called _ (.exec (.putCacheEntry _)) _ _ => true
  | _ => false

/-- The schedule of an eviction that has read the table when a request stores the object again. -/
def refreshChoices : List (Choice CacheTask) :=
  [.spawn .evict, .go 0, .go 0, .go 0, .spawn (.objects refreshRequest), .go 4, .go 4, .go 4, .go 4,
    .go 0]

end Cookbook.Server
