import PandaProxy.FtpQueue.DataPortPool

namespace PandaProxy.FtpQueue.DataPortPool

inductive Use where
  | acquire
  | release (port : Int)

def use (q : DataPortPool) : Use → DataPortPool
  | .acquire => q.acquire.2
  | .release port => q.release port

def run (q : DataPortPool) (uses : List Use) : DataPortPool := uses.foldl use q

def Covers (start stop : Int) (q : DataPortPool) : Prop := ∀ p, p ∈ q.free ++ q.inUse ↔ start ≤ p ∧ p ≤ stop

variable {start stop port : Int} {q : DataPortPool} {uses : List Use}

theorem Apart.use (h : q.Apart) (u : Use) : (q.use u).Apart := by
  cases u with
  | acquire =>
      rcases acquire_cases q with ⟨_, hq⟩ | ⟨port, free, hfree, hq⟩
      · simp only [DataPortPool.use, hq]
        exact h
      · simp only [DataPortPool.use, hq]
        exact (h.acquire hfree).2
  | release port => exact h.release port

theorem mem_use {p : Int} {u : Use} : p ∈ (q.use u).free ++ (q.use u).inUse ↔ p ∈ q.free ++ q.inUse := by
  cases u with
  | acquire =>
      rcases acquire_cases q with ⟨_, hq⟩ | ⟨port, free, hfree, hq⟩
      · simp only [use, hq]
      · simp only [use, hq, hfree, List.mem_append, List.mem_cons]
        tauto
  | release port =>
      simp only [use, release]
      split
      · next hport =>
          by_cases hp : p = port
          · subst hp
            simp [hport]
          · simp [hp]
      · rfl

theorem Covers.use (h : Covers start stop q) (u : Use) : Covers start stop (q.use u) := fun p => mem_use.trans (h p)

end PandaProxy.FtpQueue.DataPortPool
