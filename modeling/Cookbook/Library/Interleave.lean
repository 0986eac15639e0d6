import Cookbook.Library.Program
import Mathlib.Data.List.Basic
import Mathlib.Logic.Function.Basic

/-!
# Interleaved programs

Threads run their programs over one state, one operation at a time, in any order; a history records
what happened. Every thread carries a phase, which an observer of its operations keeps: it decides
nothing, but says how far the thread has come. A discipline says which operations a phase allows and
how it can end. When every program follows the discipline, a statement about the state, the phases and
the history holds in every reachable system as soon as each single step preserves it.
-/
namespace Library.Interleave

open Library.Program

variable {Op : Type} {Answer : Op → Type} {State Task α Phase : Type}

/-- One event has happened in front of another. -/
def Before {β : Type} (first second : β) (history : List β) : Prop := [first, second].Sublist history

/-- What a longer history has in order. -/
theorem before_append_singleton {β : Type} {first second last : β} {history : List β} :
    Before first second (history ++ [last]) ↔
      Before first second history ∨ first ∈ history ∧ second = last := by
  unfold Before
  constructor
  · intro sub
    have parts := List.sublist_append_iff.mp sub
    obtain ⟨front, back, split, inHistory, inLast⟩ := parts
    rcases List.sublist_singleton.mp inLast with nothing | own
    · rw [nothing, List.append_nil] at split
      rw [split]
      exact Or.inl inHistory
    · have pair : [first] ++ [second] = front ++ [last] := by
        rw [← own, ← split]
        rfl
      have same := List.append_inj' pair rfl
      rw [← same.1] at inHistory
      exact Or.inr ⟨List.singleton_sublist.mp inHistory, List.singleton_inj.mp same.2⟩
  · rintro (earlier | ⟨member, rfl⟩)
    · exact earlier.trans (List.sublist_append_left _ _)
    · exact (List.singleton_sublist.mpr member).append (List.Sublist.refl [second])

/-- Both events of a pair are in the history. -/
theorem Before.mem {β : Type} {first second : β} {history : List β}
    (before : Before first second history) : first ∈ history ∧ second ∈ history :=
  ⟨before.subset List.mem_cons_self, before.subset (List.mem_cons_of_mem _ List.mem_cons_self)⟩

/-- Two places of a history, one behind the other. -/
theorem before_of_getElem? {β : Type} {first second : β} {history : List β} {i j : Nat} (order : i < j)
    (early : history[i]? = some first) (late : history[j]? = some second) :
    Before first second history := by
  induction history generalizing i j with
  | nil => cases early
  | cons head history ih =>
    match i, j with
    | _, 0 => omega
    | 0, j + 1 =>
      cases early
      have there : history[j]? = some second := late
      exact (List.singleton_sublist.mpr (List.mem_of_getElem? there)).cons_cons first
    | i + 1, j + 1 => exact (ih (by omega) early late).cons _

/-! ## Systems -/

/-- A thread: its task, what an observer knows of it and the rest of its program. -/
structure Thread (Op : Type) (Answer : Op → Type) (Task α Phase : Type) where
  /-- The task. -/
  task : Task
  /-- The phase. -/
  phase : Phase
  /-- The rest of the program. -/
  rest : Prog Op Answer α

/-- Something that happened. -/
inductive Happening (Op : Type) (Answer : Op → Type) (State Task α : Type)
  /-- A thread was started. -/
  | spawned (id : Nat) (task : Task)
  /-- A thread called an operation in a state. -/
  | called (id : Nat) (op : Op) (answer : Answer op) (before : State)
  /-- A thread ended. -/
  | finished (id : Nat) (task : Task) (value : α)

/-- Equal calls are of one operation. -/
theorem Happening.called_op {id other : Nat} {op call : Op} {answer : Answer op}
    {found : Answer call} {before earlier : State}
    (same : (Happening.called id op answer before : Happening Op Answer State Task α) =
      .called other call found earlier) : op = call := by
  injection same

/-- The threads over one state, with what happened so far, the oldest first. -/
structure System (Op : Type) (Answer : Op → Type) (State Task α Phase : Type) where
  /-- The state. -/
  state : State
  /-- The threads that are running. -/
  threads : Nat → Option (Thread Op Answer Task α Phase)
  /-- What happened. -/
  history : List (Happening Op Answer State Task α)

/-- What happens next. -/
inductive Choice (Task : Type)
  /-- A thread is started. -/
  | spawn (task : Task)
  /-- A thread takes a step. -/
  | go (id : Nat)

/-- The programs of the tasks, with their observer. -/
structure Workload (Op : Type) (Answer : Op → Type) (Task α Phase : Type) where
  /-- The program of a task. -/
  program : Task → Prog Op Answer α
  /-- The phase a task starts in. -/
  start : Task → Phase
  /-- The phase behind an operation. -/
  observe : Phase → (op : Op) → Answer op → Phase

namespace System

/-- A system in which nothing has happened. -/
def initial (state : State) : System Op Answer State Task α Phase := ⟨state, fun _ => none, []⟩

/-- No thread is running. -/
def Quiescent (system : System Op Answer State Task α Phase) : Prop :=
  ∀ id, system.threads id = none

/-- A system with one more thread. -/
def spawn (work : Workload Op Answer Task α Phase) (task : Task)
    (system : System Op Answer State Task α Phase) : System Op Answer State Task α Phase where
  state := system.state
  threads := Function.update system.threads system.history.length
    (some ⟨task, work.start task, work.program task⟩)
  history := system.history ++ [.spawned system.history.length task]

/-- A system behind an operation of a thread. -/
def call (work : Workload Op Answer Task α Phase) (machine : Machine Op Answer State) (id : Nat)
    (task : Task) (phase : Phase) (op : Op) (next : Answer op → Prog Op Answer α)
    (system : System Op Answer State Task α Phase) : System Op Answer State Task α Phase where
  state := (machine.apply op system.state).2
  threads := Function.update system.threads id
    (some ⟨task, work.observe phase op (machine.apply op system.state).1,
      next (machine.apply op system.state).1⟩)
  history := system.history ++ [.called id op (machine.apply op system.state).1 system.state]

/-- A system behind the end of a thread. -/
def finish (id : Nat) (task : Task) (value : α) (system : System Op Answer State Task α Phase) :
    System Op Answer State Task α Phase where
  state := system.state
  threads := Function.update system.threads id none
  history := system.history ++ [.finished id task value]

/-- The phases of the threads. -/
def phases (system : System Op Answer State Task α Phase) : Nat → Option Phase :=
  fun id => (system.threads id).map (·.phase)

/-- The system behind a choice, when it can be made. -/
def step (work : Workload Op Answer Task α Phase) (machine : Machine Op Answer State)
    (choice : Choice Task) (system : System Op Answer State Task α Phase) :
    Option (System Op Answer State Task α Phase) :=
  match choice with
  | .spawn task => some (system.spawn work task)
  | .go id =>
    match system.threads id with
    | none => none
    | some ⟨task, _, .done value⟩ => some (system.finish id task value)
    | some ⟨task, phase, .call op next⟩ => some (system.call work machine id task phase op next)

/-- The system behind a list of choices. -/
def schedule (work : Workload Op Answer Task α Phase) (machine : Machine Op Answer State) :
    List (Choice Task) → System Op Answer State Task α Phase →
      Option (System Op Answer State Task α Phase)
  | [], system => some system
  | choice :: choices, system => (system.step work machine choice).bind (schedule work machine choices)

end System

/-! ## Phases -/

section Phases

variable {system : System Op Answer State Task α Phase} {work : Workload Op Answer Task α Phase}
  {machine : Machine Op Answer State}

/-- A running thread has its phase. -/
theorem phases_of_running {id : Nat} {thread : Thread Op Answer Task α Phase}
    (running : system.threads id = some thread) : system.phases id = some thread.phase := by
  rw [System.phases, running]
  rfl

/-- A new thread is in the first phase of its task. -/
@[simp] theorem phases_spawn (task : Task) : (system.spawn work task).phases =
    Function.update system.phases system.history.length (some (work.start task)) := by
  funext id
  simp only [System.phases, System.spawn, Function.update_apply]
  split <;> rfl

/-- A thread that called an operation is in the phase behind it. -/
@[simp] theorem phases_call (id : Nat) (task : Task) (phase : Phase) (op : Op)
    (next : Answer op → Prog Op Answer α) :
    (system.call work machine id task phase op next).phases = Function.update system.phases id
      (some (work.observe phase op (machine.apply op system.state).1)) := by
  funext other
  simp only [System.phases, System.call, Function.update_apply]
  split <;> rfl

/-- A thread that has ended has no phase. -/
@[simp] theorem phases_finish (id : Nat) (task : Task) (value : α) :
    (system.finish id task value).phases = Function.update system.phases id none := by
  funext other
  simp only [System.phases, System.finish, Function.update_apply]
  split <;> rfl

/-- Some thread is in the phase. -/
def At (phases : Nat → Option Phase) (phase : Phase) : Prop := ∃ id, phases id = some phase

variable {phases : Nat → Option Phase} {id : Nat} {old new phase : Phase}

/-- A thread that changes its phase is in the new one. -/
theorem at_update_self : At (Function.update phases id (some new)) new :=
  ⟨id, Function.update_self id (some new) phases⟩

/-- A phase behind a change is the new one or was there before. -/
theorem At.of_update (here : At (Function.update phases id (some new)) phase) :
    phase = new ∨ At phases phase := by
  obtain ⟨other, running⟩ := here
  rw [Function.update_apply] at running
  split at running
  · cases running
    exact Or.inl rfl
  · exact Or.inr ⟨other, running⟩

/-- A phase behind the end of a thread was there before. -/
theorem At.of_end (here : At (Function.update phases id none) phase) : At phases phase := by
  obtain ⟨other, running⟩ := here
  rw [Function.update_apply] at running
  split at running
  · cases running
  · exact ⟨other, running⟩

/-- A phase is the one a thread leaves, or it stays. -/
theorem At.leaves {c : Option Phase} (running : phases id = some old) (here : At phases phase) :
    phase = old ∨ At (Function.update phases id c) phase := by
  obtain ⟨other, there⟩ := here
  by_cases same : other = id
  · rw [same, running] at there
    cases there
    exact Or.inl rfl
  · refine Or.inr ⟨other, ?_⟩
    rw [Function.update_of_ne same]
    exact there

/-- Behind the start of a thread every other phase stays. -/
theorem At.stays {c : Option Phase} (free : phases id = none) (here : At phases phase) :
    At (Function.update phases id c) phase := by
  obtain ⟨other, there⟩ := here
  refine ⟨other, ?_⟩
  have differ : other ≠ id := by
    rintro rfl
    rw [free] at there
    cases there
  rw [Function.update_of_ne differ]
  exact there

end Phases

/-- A system that comes out of any order of steps, each of which is permitted. -/
inductive Reached (work : Workload Op Answer Task α Phase) (machine : Machine Op Answer State)
    (permitted : System Op Answer State Task α Phase → Choice Task → Prop) (state : State) :
    System Op Answer State Task α Phase → Prop
  /-- Nothing has happened. -/
  | start : Reached work machine permitted state (System.initial state)
  /-- One more step is taken. -/
  | step {system next : System Op Answer State Task α Phase} (choice : Choice Task)
      (reached : Reached work machine permitted state system) (allowed : permitted system choice)
      (taken : system.step work machine choice = some next) :
      Reached work machine permitted state next

/-- Every step of a schedule is permitted. -/
def Permits (work : Workload Op Answer Task α Phase) (machine : Machine Op Answer State)
    (permitted : System Op Answer State Task α Phase → Choice Task → Prop) :
    List (Choice Task) → System Op Answer State Task α Phase → Prop
  | [], _ => True
  | choice :: choices, system => permitted system choice ∧
      ∀ next, system.step work machine choice = some next →
        Permits work machine permitted choices next

/-- What a schedule of permitted steps leads to is reached. -/
theorem reached_schedule {work : Workload Op Answer Task α Phase}
    {machine : Machine Op Answer State}
    {permitted : System Op Answer State Task α Phase → Choice Task → Prop} {state : State}
    (choices : List (Choice Task)) {system next : System Op Answer State Task α Phase}
    (reached : Reached work machine permitted state system)
    (permits : Permits work machine permitted choices system)
    (taken : system.schedule work machine choices = some next) :
    Reached work machine permitted state next := by
  induction choices generalizing system with
  | nil =>
    rw [System.schedule] at taken
    cases taken
    exact reached
  | cons choice choices ih =>
    rw [System.schedule] at taken
    obtain ⟨middle, first, rest⟩ := Option.bind_eq_some_iff.mp taken
    exact ih (.step choice reached permits.1 first) (permits.2 middle first) rest

/-- Where everything is permitted, every schedule is. -/
theorem permits_all {work : Workload Op Answer Task α Phase} {machine : Machine Op Answer State}
    (choices : List (Choice Task)) (system : System Op Answer State Task α Phase) :
    Permits work machine (fun _ _ => True) choices system := by
  induction choices generalizing system with
  | nil => trivial
  | cons choice choices ih => exact ⟨trivial, fun next _ => ih next⟩

/-! ## Disciplines -/

/-- What the phases allow. -/
structure Discipline (Op Task α Phase : Type) where
  /-- The phase allows the operation. -/
  allows : Phase → Op → Prop
  /-- A task can end in the phase with the value. -/
  ends : Task → Phase → α → Prop

/-- A program keeps to what its phase allows, whatever the answers are. -/
def Follows (work : Workload Op Answer Task α Phase) (discipline : Discipline Op Task α Phase)
    (task : Task) : Phase → Prog Op Answer α → Prop
  | phase, .done value => discipline.ends task phase value
  | phase, .call op next => discipline.allows phase op ∧
      ∀ answer, Follows work discipline task (work.observe phase op answer) (next answer)

section Discipline

variable {work : Workload Op Answer Task α Phase} {discipline : Discipline Op Task α Phase}
  {machine : Machine Op Answer State}
  {permitted : System Op Answer State Task α Phase → Choice Task → Prop}

/-- A program of operations that leave the phase does not count. -/
theorem follows_bind {β : Type} {harmless : Op → Prop} {post : β → Prop} {task : Task}
    {phase : Phase} (stays : ∀ op answer, harmless op → work.observe phase op answer = phase)
    (allowed : ∀ op, harmless op → discipline.allows phase op)
    {program : Prog Op Answer β} (only : program.Only harmless) (yields : program.Yields post)
    {next : β → Prog Op Answer α}
    (rest : ∀ value, post value → Follows work discipline task phase (next value)) :
    Follows work discipline task phase (program.bind next) := by
  induction program with
  | done value => exact rest value yields
  | call op continuation ih =>
    refine ⟨allowed op only.1, fun answer => ?_⟩
    rw [stays op answer only.1]
    exact ih answer (only.2 answer) (yields answer)

/-- Every thread keeps to what its phase allows, and the next thread has a new number. -/
structure Disciplined (work : Workload Op Answer Task α Phase)
    (discipline : Discipline Op Task α Phase) (system : System Op Answer State Task α Phase) :
    Prop where
  /-- A running thread follows the discipline. -/
  follows : ∀ id thread, system.threads id = some thread →
    Follows work discipline thread.task thread.phase thread.rest
  /-- A running thread was started before. -/
  fresh : ∀ id thread, system.threads id = some thread → id < system.history.length

/-- A step keeps the discipline. -/
theorem Disciplined.step {system next : System Op Answer State Task α Phase} {choice : Choice Task}
    (programs : ∀ task, Follows work discipline task (work.start task) (work.program task))
    (kept : Disciplined work discipline system) (taken : system.step work machine choice = some next) :
    Disciplined work discipline next := by
  cases choice with
  | spawn task =>
    cases taken
    constructor
    · intro id thread running
      simp only [System.spawn, Function.update_apply] at running
      split at running
      · cases running
        exact programs task
      · exact kept.follows id thread running
    · intro id thread running
      simp only [System.spawn, Function.update_apply, List.length_append, List.length_singleton]
        at running ⊢
      split at running
      · omega
      · have := kept.fresh id thread running
        omega
  | go id =>
    unfold System.step at taken
    match running : system.threads id with
    | none => simp [running] at taken
    | some ⟨task, phase, .done value⟩ =>
      simp only [running, Option.some.injEq] at taken
      subst taken
      constructor
      · intro other thread later
        simp only [System.finish, Function.update_apply] at later
        split at later
        · cases later
        · exact kept.follows other thread later
      · intro other thread later
        simp only [System.finish, Function.update_apply, List.length_append, List.length_singleton]
          at later ⊢
        split at later
        · cases later
        · have := kept.fresh other thread later
          omega
    | some ⟨task, phase, .call op rest⟩ =>
      simp only [running, Option.some.injEq] at taken
      subst taken
      have own := kept.follows id _ running
      constructor
      · intro other thread later
        simp only [System.call, Function.update_apply] at later
        split at later
        · cases later
          exact own.2 _
        · exact kept.follows other thread later
      · intro other thread later
        simp only [System.call, Function.update_apply, List.length_append, List.length_singleton]
          at later ⊢
        split at later
        · rename_i same
          have := kept.fresh id _ running
          omega
        · have := kept.fresh other thread later
          omega

/-- What holds at the start and is preserved by every permitted step of a disciplined system holds in
every reachable one. -/
theorem Reached.invariant {state : State} {holds : System Op Answer State Task α Phase → Prop}
    (programs : ∀ task, Follows work discipline task (work.start task) (work.program task))
    (start : holds (System.initial state))
    (spawn : ∀ system task, holds system → system.threads system.history.length = none →
      holds (system.spawn work task))
    (call : ∀ system id task phase op next, holds system →
      system.threads id = some ⟨task, phase, .call op next⟩ → discipline.allows phase op →
      permitted system (.go id) → holds (system.call work machine id task phase op next))
    (finish : ∀ system id task phase value, holds system →
      system.threads id = some ⟨task, phase, .done value⟩ → discipline.ends task phase value →
      holds (system.finish id task value))
    {system : System Op Answer State Task α Phase}
    (reached : Reached work machine permitted state system) : holds system := by
  have both : holds system ∧ Disciplined work discipline system := by
    induction reached with
    | start => exact ⟨start, by constructor <;> simp [System.initial]⟩
    | @step system next choice reached allowed taken ih =>
      refine ⟨?_, ih.2.step programs taken⟩
      cases choice with
      | spawn task =>
        cases taken
        refine spawn system task ih.1 ?_
        cases running : system.threads system.history.length with
        | none => rfl
        | some thread => exact absurd (ih.2.fresh _ thread running) (Nat.lt_irrefl _)
      | go id =>
        unfold System.step at taken
        match running : system.threads id with
        | none => simp [running] at taken
        | some ⟨task, phase, .done value⟩ =>
          simp only [running, Option.some.injEq] at taken
          subst taken
          exact finish system id task phase value ih.1 running (ih.2.follows id _ running)
        | some ⟨task, phase, .call op rest⟩ =>
          simp only [running, Option.some.injEq] at taken
          subst taken
          exact call system id task phase op rest ih.1 running (ih.2.follows id _ running).1 allowed
  exact both.1

end Discipline

end Library.Interleave
