/-!
# Programs over operations

A program that acts on a shared state is a tree of the operations it may call: after each answer it
goes on with the part that belongs to that answer. A machine gives the operations their effect. A
run records every operation with its answer, so that a statement can say what happened on the way
to a result.
-/
namespace Library.Program

/-- A program that calls operations of `Op` and ends with a value. -/
inductive Prog (Op : Type) (Answer : Op → Type) (α : Type)
  /-- The program ends. -/
  | done (value : α)
  /-- The program calls an operation and goes on with its answer. -/
  | call (op : Op) (next : Answer op → Prog Op Answer α)

variable {Op : Type} {Answer : Op → Type} {α β State : Type}

namespace Prog

/-- Go on with the value of a program. -/
def bind : Prog Op Answer α → (α → Prog Op Answer β) → Prog Op Answer β
  | done value, next => next value
  | call op rest, next => call op fun answer => (rest answer).bind next

instance : Monad (Prog Op Answer) where
  pure := done
  bind := bind

/-- A program of one operation. -/
def perform (op : Op) : Prog Op Answer (Answer op) := call op done

/-- A finished program hands its value on. -/
@[simp] theorem done_bind (value : α) (next : α → Prog Op Answer β) :
    (done value).bind next = next value := rfl

/-- A call stays in front. -/
@[simp] theorem call_bind (op : Op) (rest : Answer op → Prog Op Answer α)
    (next : α → Prog Op Answer β) :
    (call op rest).bind next = call op fun answer => (rest answer).bind next := rfl

/-- One operation, then the rest. -/
@[simp] theorem perform_bind (op : Op) (next : Answer op → Prog Op Answer β) :
    (perform op).bind next = call op next := rfl

/-- The values go on through both continuations. -/
theorem bind_assoc {γ : Type} (program : Prog Op Answer α) (next : α → Prog Op Answer β)
    (last : β → Prog Op Answer γ) :
    (program.bind next).bind last = program.bind fun value => (next value).bind last := by
  induction program with
  | done value => rfl
  | call op rest ih =>
    simp only [call_bind]
    congr 1
    funext answer
    exact ih answer

/-- Every operation the program may call satisfies `allowed`, whatever the answers are. -/
def Only (allowed : Op → Prop) : Prog Op Answer α → Prop
  | done _ => True
  | call op next => allowed op ∧ ∀ answer, (next answer).Only allowed

/-- A finished program calls nothing. -/
@[simp] theorem only_done (allowed : Op → Prop) (value : α) :
    (done value : Prog Op Answer α).Only allowed := trivial

/-- A call is allowed when its operation and its continuations are. -/
@[simp] theorem only_call (allowed : Op → Prop) (op : Op) (next : Answer op → Prog Op Answer α) :
    (call op next).Only allowed ↔ allowed op ∧ ∀ answer, (next answer).Only allowed := Iff.rfl

/-- Two programs in sequence call what either of them calls. -/
theorem only_bind {allowed : Op → Prop} {program : Prog Op Answer α}
    {next : α → Prog Op Answer β} (first : program.Only allowed)
    (rest : ∀ value, (next value).Only allowed) : (program.bind next).Only allowed := by
  induction program with
  | done value => exact rest value
  | call op continuation ih => exact ⟨first.1, fun answer => ih answer (first.2 answer)⟩

/-- Every value the program may end with satisfies `post`, whatever the answers are. -/
def Yields (post : α → Prop) : Prog Op Answer α → Prop
  | done value => post value
  | call _ next => ∀ answer, (next answer).Yields post

/-- Every program yields something. -/
theorem yields_true (program : Prog Op Answer α) : program.Yields fun _ => True := by
  induction program with
  | done value => trivial
  | call op next ih => exact ih

/-- Two programs in sequence yield what the second one does. -/
theorem yields_bind {middle : α → Prop} {post : β → Prop} {program : Prog Op Answer α}
    {next : α → Prog Op Answer β} (first : program.Yields middle)
    (rest : ∀ value, middle value → (next value).Yields post) :
    (program.bind next).Yields post := by
  induction program with
  | done value => exact rest value first
  | call op continuation ih => exact fun answer => ih answer (first answer)

end Prog

/-- An operation with the answer it got. -/
structure Event (Op : Type) (Answer : Op → Type) where
  /-- The operation. -/
  op : Op
  /-- What it answered. -/
  answer : Answer op

/-- What the operations do to a state. -/
structure Machine (Op : Type) (Answer : Op → Type) (State : Type) where
  /-- The answer of an operation and the state behind it. -/
  apply : (op : Op) → State → Answer op × State

/-- A finished run. -/
structure Run (Op : Type) (Answer : Op → Type) (State α : Type) where
  /-- The operations called, in order, with their answers. -/
  events : List (Event Op Answer)
  /-- The value of the program. -/
  value : α
  /-- The state at the end. -/
  state : State

namespace Machine

variable (machine : Machine Op Answer State)

/-- Run a program from a state. -/
def run : Prog Op Answer α → State → Run Op Answer State α
  | .done value, state => ⟨[], value, state⟩
  | .call op next, state =>
    let step := machine.apply op state
    let rest := run (next step.1) step.2
    ⟨⟨op, step.1⟩ :: rest.events, rest.value, rest.state⟩

/-- A finished program leaves the state. -/
@[simp] theorem run_done (value : α) (state : State) :
    machine.run (.done value) state = ⟨[], value, state⟩ := rfl

/-- The value behind a call. -/
@[simp] theorem run_call_value (op : Op) (next : Answer op → Prog Op Answer α) (state : State) :
    (machine.run (.call op next) state).value =
      (machine.run (next (machine.apply op state).1) (machine.apply op state).2).value := rfl

/-- The state behind a call. -/
@[simp] theorem run_call_state (op : Op) (next : Answer op → Prog Op Answer α) (state : State) :
    (machine.run (.call op next) state).state =
      (machine.run (next (machine.apply op state).1) (machine.apply op state).2).state := rfl

/-- The events of a call. -/
@[simp] theorem run_call_events (op : Op) (next : Answer op → Prog Op Answer α) (state : State) :
    (machine.run (.call op next) state).events = ⟨op, (machine.apply op state).1⟩ ::
      (machine.run (next (machine.apply op state).1) (machine.apply op state).2).events := rfl

/-- A sequence runs its parts one after the other. -/
theorem run_bind (program : Prog Op Answer α) (next : α → Prog Op Answer β) (state : State) :
    machine.run (program.bind next) state =
      let first := machine.run program state
      let second := machine.run (next first.value) first.state
      ⟨first.events ++ second.events, second.value, second.state⟩ := by
  induction program generalizing state with
  | done value => rfl
  | call op rest ih => simp only [Prog.call_bind, run, ih, List.cons_append]

/-- What every allowed operation keeps, a program of allowed operations keeps. -/
theorem run_keeps {allowed : Op → Prop} (kept : State → Prop)
    (step : ∀ op state, allowed op → kept state → kept (machine.apply op state).2)
    {program : Prog Op Answer α} (only : program.Only allowed) {state : State}
    (holds : kept state) : kept (machine.run program state).state := by
  induction program generalizing state with
  | done value => exact holds
  | call op next ih => exact ih _ (only.2 _) (step op state only.1 holds)

/-- A run ends with what its program yields. -/
theorem run_yields {post : α → Prop} {program : Prog Op Answer α} (yields : program.Yields post)
    (state : State) : post (machine.run program state).value := by
  induction program generalizing state with
  | done value => exact yields
  | call op next ih => exact ih _ (yields _) _

/-- Every event of a run is an allowed operation. -/
theorem run_events {allowed : Op → Prop} {program : Prog Op Answer α}
    (only : program.Only allowed) (state : State) :
    ∀ event ∈ (machine.run program state).events, allowed event.op := by
  induction program generalizing state with
  | done value => simp
  | call op next ih =>
    intro event member
    rcases List.mem_cons.mp member with rfl | later
    · exact only.1
    · exact ih _ (only.2 _) _ event later

end Machine

end Library.Program
