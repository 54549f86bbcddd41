import Mathlib.Data.List.Nodup

namespace PandaProxy.FtpQueue

structure DataPortPool where
  free : List Int
  inUse : List Int
  start : Int
  stop : Int
  deriving DecidableEq, Repr

namespace DataPortPool

def ports (start : Int) : Nat → List Int
  | 0 => []
  | n + 1 => start :: ports (start + 1) n

def init (start stop : Int) : Option DataPortPool :=
  if start > stop then none
  else some ⟨ports start (stop + 1 - start).toNat, [], start, stop⟩

def available (q : DataPortPool) : Nat := q.free.length

def acquire (q : DataPortPool) : Option Int × DataPortPool :=
  match q.free with
  | [] => (none, q)
  | port :: free => (some port, { q with free := free, inUse := port :: q.inUse })

def release (q : DataPortPool) (port : Int) : DataPortPool :=
  if port ∈ q.inUse then
    { q with free := q.free ++ [port], inUse := q.inUse.filter (fun p => p ≠ port) }
  else q

-- No port is listed twice, and none both as free and as taken.
structure Apart (q : DataPortPool) : Prop where
  free : q.free.Nodup
  inUse : q.inUse.Nodup
  apart : ∀ p ∈ q.free, p ∉ q.inUse

theorem mem_ports {start p : Int} {n : Nat} : p ∈ ports start n ↔ start ≤ p ∧ p < start + n := by
  induction n generalizing start with
  | zero => simp [ports]
  | succ n ih =>
      simp only [ports, List.mem_cons, ih]
      omega

theorem nodup_ports (start : Int) (n : Nat) : (ports start n).Nodup := by
  induction n generalizing start with
  | zero => exact .nil
  | succ n ih =>
      refine List.nodup_cons.mpr ⟨?_, ih (start + 1)⟩
      rw [mem_ports]
      omega

theorem init_apart {start stop : Int} {q : DataPortPool} (h : init start stop = some q) :
    q.Apart ∧ q.inUse = [] := by
  simp only [init] at h
  split at h
  · cases h
  · cases h
    exact ⟨⟨nodup_ports _ _, .nil, by simp⟩, rfl⟩

theorem acquire_cases (q : DataPortPool) :
    (q.free = [] ∧ q.acquire = (none, q)) ∨
    ∃ port free, q.free = port :: free ∧
      q.acquire = (some port, { q with free := free, inUse := port :: q.inUse }) := by
  cases h : q.free with
  | nil => exact .inl ⟨rfl, by simp [acquire, h]⟩
  | cons port free => exact .inr ⟨port, free, rfl, by simp [acquire, h]⟩

theorem Apart.acquire {q : DataPortPool} (h : q.Apart) {port : Int} {free : List Int}
    (hq : q.free = port :: free) :
    port ∉ q.inUse ∧ Apart { q with free := free, inUse := port :: q.inUse } := by
  have hnodup := h.free
  rw [hq] at hnodup
  obtain ⟨hport, hfree⟩ := List.nodup_cons.mp hnodup
  have hnot : port ∉ q.inUse := h.apart port (by simp [hq])
  refine ⟨hnot, hfree, List.nodup_cons.mpr ⟨hnot, h.inUse⟩, ?_⟩
  intro p hp
  have hne : p ≠ port := fun he => hport (he ▸ hp)
  simp [hne, h.apart p (by simp [hq, hp])]

theorem Apart.release {q : DataPortPool} (h : q.Apart) (port : Int) : (q.release port).Apart := by
  unfold DataPortPool.release
  split
  · next hport =>
      refine ⟨?_, h.inUse.filter _, ?_⟩
      · refine List.nodup_append.mpr ⟨h.free, by simp, ?_⟩
        intro p hp q' hq' he
        rw [List.mem_singleton] at hq'
        subst he hq'
        exact h.apart _ hp hport
      · intro p hp
        rcases List.mem_append.mp hp with hp | hp
        · simp [h.apart p hp]
        · simp [List.mem_singleton.mp hp]
  · exact h

theorem mem_release {q : DataPortPool} {port p : Int} :
    p ∈ (q.release port).inUse ↔ p ∈ q.inUse ∧ p ≠ port := by
  unfold DataPortPool.release
  split
  · simp
  · next h =>
      constructor
      · intro hp
        refine ⟨hp, fun he => h (he ▸ hp)⟩
      · exact fun hp => hp.1

theorem free_release {q : DataPortPool} {port : Int} (h : port ∈ q.inUse) :
    port ∈ (q.release port).free := by
  simp [DataPortPool.release, h]

theorem mem_free_release {q : DataPortPool} {port p : Int} (h : p ∈ q.free) :
    p ∈ (q.release port).free := by
  unfold DataPortPool.release
  split
  · simp [h]
  · exact h

end DataPortPool

end PandaProxy.FtpQueue
