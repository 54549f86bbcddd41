import Mathlib.Data.List.Basic

namespace PandaProxy.Python

inductive ReadError where
  | incompleteRead (got : List UInt8) (expected : Nat)
  | valueError (message : String)
  deriving DecidableEq, Repr

-- A coroutine that reads from a stream: the state is every byte still to come before its end.
abbrev Reading (α : Type) := ExceptT ReadError (StateM (List UInt8)) α

namespace Reading

variable {α β : Type} {c : Reading α} {f : α → Reading β} {buffer rest : List UInt8}

def readexactly (n : Nat) : Reading (List UInt8) := fun buffer =>
  if buffer.length < n then (.error (.incompleteRead buffer n), [])
  else (.ok (buffer.take n), buffer.drop n)

theorem bind_ok {a : α} (h : c buffer = (.ok a, rest)) : (c >>= f) buffer = f a rest := by
  show ExceptT.bindCont f (c buffer).1 (c buffer).2 = f a rest
  rw [h]
  rfl

theorem bind_error {x : ReadError} (h : c buffer = (.error x, rest)) : (c >>= f) buffer = (.error x, rest) := by
  show ExceptT.bindCont f (c buffer).1 (c buffer).2 = _
  rw [h]
  rfl

theorem readexactly_append {bytes : List UInt8} {n : Nat} (h : bytes.length = n) (rest : List UInt8) :
    readexactly n (bytes ++ rest) = (.ok bytes, rest) := by
  subst h
  have hlen : ¬ (bytes ++ rest).length < bytes.length := by simp
  simp only [readexactly, if_neg hlen, List.take_left, List.drop_left]

theorem readexactly_short {n : Nat} (h : buffer.length < n) :
    readexactly n buffer = (.error (.incompleteRead buffer n), []) :=
  if_pos h

def times (c : Reading α) : Nat → Reading (List α)
  | 0 => pure []
  | n + 1 => do
      let a ← c
      let as ← times c n
      pure (a :: as)

theorem times_ok {a : α} {as : List α} {n : Nat} {last : List UInt8} (h : c buffer = (.ok a, rest))
    (hs : times c n rest = (.ok as, last)) : times c (n + 1) buffer = (.ok (a :: as), last) := by
  rw [times, bind_ok h, bind_ok hs]
  rfl

end Reading

namespace StreamReader

def readline : List UInt8 → List UInt8 × List UInt8
  | [] => ([], [])
  | b :: buffer =>
      if b = 10 then ([b], buffer)
      else
        let (line, rest) := readline buffer
        (b :: line, rest)

variable {buffer content rest : List UInt8}

theorem readline_append (h : 10 ∉ content) (rest : List UInt8) : readline (content ++ 10 :: rest) = (content ++ [10], rest) := by
  induction content with
  | nil => rfl
  | cons b content ih =>
      rw [List.mem_cons, not_or] at h
      rw [List.cons_append, readline, if_neg (Ne.symm h.1), ih h.2]
      rfl

theorem readline_nil_iff : (readline buffer).1 = [] ↔ buffer = [] := by
  cases buffer with
  | nil => exact iff_of_true rfl rfl
  | cons b buffer =>
      rw [readline]
      split <;> exact iff_of_false nofun nofun

theorem readline_shortens (h : buffer ≠ []) : (readline buffer).2.length < buffer.length := by
  induction buffer with
  | nil => exact absurd rfl h
  | cons b buffer ih =>
      rw [readline]
      split
      · exact Nat.lt_succ_self _
      · cases buffer with
        | nil => exact Nat.lt_succ_self _
        | cons c buffer => exact Nat.lt_succ_of_lt (ih (List.cons_ne_nil c buffer))

end StreamReader

end PandaProxy.Python
