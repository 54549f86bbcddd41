import Mathlib.Algebra.Order.Field.Rat
import Mathlib.Tactic.Linarith
import Mathlib.Tactic.NormNum

namespace PandaProxy.Reconnect

inductive Level where
  | debug
  | info
  | warning
  | error
  deriving DecidableEq, Repr

structure Entry where
  level : Level
  message : String
  deriving DecidableEq, Repr

def Entry.reports (x : Entry) : Bool := x.level == .warning || x.level == .error

structure ReconnectPolicy where
  baseDelay : ℚ := 5
  maxDelay : ℚ := 60
  reportEvery : Nat := 25
  failures : Nat := 0

namespace ReconnectPolicy

def logAttempt (p : ReconnectPolicy) (message : String) : Entry :=
  if p.failures = 0 then ⟨.info, message⟩ else ⟨.debug, message⟩

def failure (p : ReconnectPolicy) (message : String) : ReconnectPolicy × Entry :=
  let p := { p with failures := p.failures + 1 }
  if p.failures = 1 then (p, ⟨.warning, message⟩)
  else if p.failures % p.reportEvery = 0 then
    (p, ⟨.warning, "Still failing after " ++ toString p.failures ++ " attempts: " ++ message⟩)
  else (p, ⟨.debug, message⟩)

def success (p : ReconnectPolicy) : ReconnectPolicy × List Entry :=
  ({ p with failures := 0 },
    if p.failures ≠ 0 then [⟨.info, "Recovered after " ++ toString p.failures ++ " failed attempt(s)"⟩] else [])

def delay (p : ReconnectPolicy) : ℚ :=
  if p.failures ≤ 1 then p.baseDelay
  else min (p.baseDelay * 2 ^ min (p.failures - 1) 32) p.maxDelay

@[simp]
theorem failure_policy (p : ReconnectPolicy) (message : String) :
    (p.failure message).1 = { p with failures := p.failures + 1 } := by
  simp only [failure]
  split
  · rfl
  · split <;> rfl

theorem failure_reports (p : ReconnectPolicy) (message : String) : (p.failure message).2.reports =
    (decide (p.failures = 0) || decide ((p.failures + 1) % p.reportEvery = 0)) := by
  simp only [failure]
  split
  · next h => simp [Entry.reports, show p.failures = 0 by omega]
  · next h =>
      have hne : p.failures ≠ 0 := by omega
      split
      · next hr => simp [Entry.reports, hr]
      · next hr => simp [Entry.reports, hne, hr]

variable {p : ReconnectPolicy}

-- The clamped shift is as good as the exact power where the base delay reaches the bound in time.
theorem delay_eq (hbase : 0 ≤ p.baseDelay) (hfirst : p.baseDelay ≤ p.maxDelay)
    (hmax : p.maxDelay ≤ p.baseDelay * 2 ^ 32) :
    p.delay = min (p.baseDelay * 2 ^ (p.failures - 1)) p.maxDelay := by
  simp only [delay]
  split
  · next h =>
      rw [show p.failures - 1 = 0 by omega, pow_zero, mul_one, min_eq_left hfirst]
  · rcases Nat.le_total (p.failures - 1) 32 with h | h
    · rw [min_eq_left h]
    · have hpow : p.baseDelay * 2 ^ 32 ≤ p.baseDelay * 2 ^ (p.failures - 1) :=
        mul_le_mul_of_nonneg_left (pow_le_pow_right₀ (by norm_num) h) hbase
      rw [min_eq_right h, min_eq_right hmax, min_eq_right (hmax.trans hpow)]

end ReconnectPolicy

end PandaProxy.Reconnect
