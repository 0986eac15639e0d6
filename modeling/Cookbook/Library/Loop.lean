/-!
# Loops with a bound

A loop is a step function that goes on with a new state or stops with a result. It runs for a number
of rounds; a loop whose steps use up a measure does not need more rounds than its first state
measures.
-/
namespace Library.Loop

/-- What one round of a loop does. -/
inductive Next (State Result : Type)
  /-- Go on with a new state. -/
  | again (state : State)
  /-- Leave the loop. -/
  | stop (result : Result)

variable {State Result : Type}

/-- Run a loop for at most `rounds` rounds. -/
def loop (step : State → Next State Result) (exhausted : Result) : Nat → State → Result
  | 0, _ => exhausted
  | rounds + 1, state =>
    match step state with
    | .again next => loop step exhausted rounds next
    | .stop result => result

variable {step : State → Next State Result} {exhausted : Result}

/-- One more round. -/
theorem loop_succ (rounds : Nat) (state : State) :
    loop step exhausted (rounds + 1) state =
      match step state with
      | .again next => loop step exhausted rounds next
      | .stop result => result := rfl

/-- An invariant of the rounds holds at the end of the loop, in the form that its last round
gives it. -/
theorem loop_invariant (invariant : State → Prop) (post : Result → Prop)
    (again : ∀ state next, invariant state → step state = .again next → invariant next)
    (stop : ∀ state result, invariant state → step state = .stop result → post result)
    (ran : post exhausted) (rounds : Nat) {state : State} (start : invariant state) :
    post (loop step exhausted rounds state) := by
  induction rounds generalizing state with
  | zero => exact ran
  | succ rounds ih =>
    rw [loop_succ]
    split
    · rename_i next same
      exact ih (again state next start same)
    · rename_i result same
      exact stop state result start same

/-- Where every round uses up a measure, rounds beyond the measure change nothing. -/
theorem loop_enough (measure : State → Nat)
    (shrinks : ∀ state next, step state = .again next → measure next < measure state)
    (rounds more : Nat) {state : State} (enough : measure state < rounds) :
    loop step exhausted (rounds + more) state = loop step exhausted rounds state := by
  induction rounds generalizing state with
  | zero => omega
  | succ rounds ih =>
    rw [Nat.add_right_comm, loop_succ, loop_succ]
    split
    · rename_i next same
      exact ih (by have := shrinks state next same; omega)
    · rfl

end Library.Loop
