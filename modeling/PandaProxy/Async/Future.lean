import Mathlib.Logic.Function.Basic

namespace PandaProxy.Async

-- The life of an asyncio future that is only ever completed with `None`.
inductive Fut where
  | pending
  | result
  | cancelled
  deriving DecidableEq, Repr

namespace Fut

def done : Fut → Bool
  | .pending => false
  | .result => true
  | .cancelled => true

def cancel : Fut → Fut
  | .pending => .cancelled
  | f => f

@[simp] theorem done_pending : Fut.pending.done = false := rfl

@[simp] theorem done_result : Fut.result.done = true := rfl

@[simp] theorem done_cancelled : Fut.cancelled.done = true := rfl

@[simp] theorem cancel_pending : Fut.pending.cancel = .cancelled := rfl

theorem done_eq_false {f : Fut} : f.done = false ↔ f = .pending := by
  cases f <;> simp

end Fut

end PandaProxy.Async
