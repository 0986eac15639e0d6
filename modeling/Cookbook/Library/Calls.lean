import Mathlib.Data.List.Basic

/-!
# Computations with their calls

A computation records the calls it makes to operations that have preconditions. That all of them are
met on the way to a result is then a statement about the recorded calls, and is put together from the
parts of the computation.
-/
namespace Library.Calls

/-- A result with the calls made on the way, in order. -/
structure Traced (Call α : Type) where
  /-- The result. -/
  value : α
  /-- The calls. -/
  calls : List Call

variable {Call α β : Type}

instance : Monad (Traced Call) where
  pure value := ⟨value, []⟩
  bind first next := ⟨(next first.value).value, first.calls ++ (next first.value).calls⟩

/-- One call with its result. -/
def Traced.call (call : Call) (value : α) : Traced Call α := ⟨value, [call]⟩

/-- All calls are safe, and the result is as stated. -/
structure Runs (safe : Call → Prop) (computation : Traced Call α) (holds : α → Prop) : Prop where
  /-- The calls are safe. -/
  calls : ∀ call ∈ computation.calls, safe call
  /-- The result is as stated. -/
  value : holds computation.value

variable {safe : Call → Prop}

namespace Runs

/-- A value needs no call. -/
theorem pure {value : α} {holds : α → Prop} (held : holds value) :
    Runs safe (Pure.pure value : Traced Call α) holds :=
  ⟨fun _ member => absurd member List.not_mem_nil, held⟩

/-- A single call. -/
theorem call {call : Call} {value : α} {holds : α → Prop} (met : safe call) (held : holds value) :
    Runs safe (Traced.call call value) holds :=
  ⟨fun _ member => List.mem_singleton.mp member ▸ met, held⟩

/-- One computation behind another. -/
theorem bind {first : Traced Call α} {next : α → Traced Call β} {between : α → Prop}
    {holds : β → Prop} (front : Runs safe first between)
    (behind : ∀ value, between value → Runs safe (next value) holds) :
    Runs safe (first >>= next) holds := by
  have rest := behind first.value front.value
  refine ⟨fun call member => ?_, rest.value⟩
  rcases List.mem_append.mp member with early | late
  · exact front.calls call early
  · exact rest.calls call late

/-- A weaker statement about the result. -/
theorem mono {computation : Traced Call α} {holds weaker : α → Prop}
    (runs : Runs safe computation holds) (implies : ∀ value, holds value → weaker value) :
    Runs safe computation weaker :=
  ⟨runs.calls, implies _ runs.value⟩

end Runs

end Library.Calls
