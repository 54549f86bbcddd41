import Mathlib.Data.List.Sort
import PandaProxy.Async.Future

namespace PandaProxy.FtpQueue

open Async

def priorityUpload : Int := 0

def priorityNormal : Int := 10

structure Waiter where
  priority : Int
  seq : Nat
  future : Nat
  deriving DecidableEq, Repr

-- Python compares the tuples lexicographically; `seq` never repeats, so the future is not reached.
def Waiter.before (v w : Waiter) : Prop :=
  v.priority < w.priority ∨ v.priority = w.priority ∧ v.seq ≤ w.seq

instance : DecidableRel Waiter.before := fun v w =>
  inferInstanceAs (Decidable (v.priority < w.priority ∨ v.priority = w.priority ∧ v.seq ≤ w.seq))

instance : Std.Total Waiter.before where
  total v w := by unfold Waiter.before; omega

instance : IsTrans Waiter Waiter.before where
  trans u v w := by unfold Waiter.before; omega

structure SessionQueue where
  maxConcurrent : Int
  active : Int
  waiters : List Waiter
  counter : Nat
  maxPos : 1 ≤ maxConcurrent

namespace SessionQueue

def init (maxConcurrent : Int) : Option SessionQueue :=
  if h : maxConcurrent < 1 then none
  else some ⟨maxConcurrent, 0, [], 0, by omega⟩

def book (q : SessionQueue) (active : Int) (waiters : List Waiter) : SessionQueue :=
  ⟨q.maxConcurrent, active, waiters, q.counter, q.maxPos⟩

@[simp] theorem book_maxConcurrent (q : SessionQueue) (a : Int) (ws : List Waiter) :
    (q.book a ws).maxConcurrent = q.maxConcurrent := rfl

@[simp] theorem book_active (q : SessionQueue) (a : Int) (ws : List Waiter) :
    (q.book a ws).active = a := rfl

@[simp] theorem book_waiters (q : SessionQueue) (a : Int) (ws : List Waiter) :
    (q.book a ws).waiters = ws := rfl

@[simp] theorem book_counter (q : SessionQueue) (a : Int) (ws : List Waiter) :
    (q.book a ws).counter = q.counter := rfl

def waiting (q : SessionQueue) : Nat := q.waiters.length

-- `heapq` keeps the least entry first; the list is kept sorted, which is the same order of pops.
def heappush (heap : List Waiter) (w : Waiter) : List Waiter := heap.orderedInsert Waiter.before w

def heapify (heap : List Waiter) : List Waiter := heap.insertionSort Waiter.before

def wakeLoop (maxConcurrent active : Int) : List Waiter → (Nat → Fut) → Int × List Waiter × (Nat → Fut)
  | [], futures => (active, [], futures)
  | w :: rest, futures =>
      if active < maxConcurrent then
        if (futures w.future).done = false then
          (active + 1, rest, Function.update futures w.future .result)
        else wakeLoop maxConcurrent active rest futures
      else (active, w :: rest, futures)

def wakeNext (q : SessionQueue) (futures : Nat → Fut) : SessionQueue × (Nat → Fut) :=
  let (active, waiters, futures) := wakeLoop q.maxConcurrent q.active q.waiters futures
  (q.book active waiters, futures)

-- `acquire` up to its only await; `none` is the return without waiting.
def acquire (q : SessionQueue) (priority : Int) (future : Nat) : SessionQueue × Option Waiter :=
  if q.active < q.maxConcurrent then (q.book (q.active + 1) q.waiters, none)
  else
    let w : Waiter := ⟨priority, q.counter, future⟩
    (⟨q.maxConcurrent, q.active, heappush q.waiters w, q.counter + 1, q.maxPos⟩, some w)

-- The `except asyncio.CancelledError` clause of `acquire`.
def acquireCancelled (q : SessionQueue) (futures : Nat → Fut) (future : Nat) :
    SessionQueue × (Nat → Fut) :=
  let q := q.book q.active (heapify (q.waiters.filter (fun w => w.future ≠ future)))
  if (futures future).done ∧ futures future ≠ .cancelled then
    wakeNext (q.book (q.active - 1) q.waiters) futures
  else (q, futures)

def release (q : SessionQueue) (futures : Nat → Fut) : SessionQueue × (Nat → Fut) :=
  let active := q.active - 1
  wakeNext (q.book (if active < 0 then 0 else active) q.waiters) futures

end SessionQueue

end PandaProxy.FtpQueue
