import PandaProxy.FtpQueue.SlotRuns

namespace PandaProxy.FtpQueue

open Async

def QueueAct.target : QueueAct → Option Nat
  | .create _ => none
  | .start c => some c
  | .cancel c => some c
  | .resume c => some c
  | .release c => some c

namespace QueueRun

theorem wake_futures (x : QueueRun) (c : Nat) :
    x.wake.futures c = x.futures c ∨ x.futures c = .pending ∧ x.wake.futures c = .result := by
  rcases x.wake_cases with ⟨pre, w, post, _, _, hw, _, he⟩ | ⟨_, he⟩ | ⟨_, _, he⟩
  · rw [he]
    by_cases hc : c = w.future
    · subst hc
      exact .inr ⟨hw, Function.update_self _ _ _⟩
    · exact .inl (Function.update_of_ne hc _ _)
  · exact .inl (by rw [he])
  · exact .inl (by rw [he])

theorem leave_wake_futures (x : QueueRun) (c d : Nat) (active : Int) :
    (x.leave d active).wake.futures c = x.futures c ∨
      x.futures c = .pending ∧ (x.leave d active).wake.futures c = .result :=
  (x.leave d active).wake_futures c

theorem Moves.other {x y : QueueRun} {a : QueueAct} {c : Nat} (h : Moves x a y)
    (ha : a.target ≠ some c) (hc : c < x.born) :
    y.calls c = x.calls c ∧
      (y.futures c = x.futures c ∨ x.futures c = .pending ∧ y.futures c = .result) := by
  have hne : ∀ {d}, some d ≠ some c → c ≠ d := fun hd he => hd (he ▸ rfl)
  cases h with
  | create p => exact ⟨Function.update_of_ne (by omega) _ _, .inl rfl⟩
  | startCancelled hd => exact ⟨Function.update_of_ne (hne ha) _ _, .inl rfl⟩
  | startFree hd hlt => exact ⟨Function.update_of_ne (hne ha) _ _, .inl rfl⟩
  | startQueued hd hle =>
      exact ⟨Function.update_of_ne (hne ha) _ _, .inl (Function.update_of_ne (hne ha) _ _)⟩
  | cancelEarly hd => exact ⟨Function.update_of_ne (hne ha) _ _, .inl rfl⟩
  | cancelPending hd hp => exact ⟨rfl, .inl (Function.update_of_ne (hne ha) _ _)⟩
  | cancelLate hd hp => exact ⟨Function.update_of_ne (hne ha) _ _, .inl rfl⟩
  | cancelIdle hd => exact ⟨rfl, .inl rfl⟩
  | resumeDropped hd hf => exact ⟨Function.update_of_ne (hne ha) _ _, .inl rfl⟩
  | resumeHandBack hd hf =>
      exact ⟨Function.update_of_ne (hne ha) _ _, leave_wake_futures x c _ _⟩
  | resumeHolding hd hf => exact ⟨Function.update_of_ne (hne ha) _ _, .inl rfl⟩
  | release hd => exact ⟨Function.update_of_ne (hne ha) _ _, leave_wake_futures x c _ _⟩

theorem Moves.born {x y : QueueRun} {a : QueueAct} (h : Moves x a y) : x.born ≤ y.born := by
  cases h with
  | create p => exact Nat.le_succ _
  | _ => exact Nat.le_refl _

theorem alive_of_update {x : QueueRun} {c d : Nat} {s : Call} (hs : s ≠ .unborn)
    (h : x.calls c ≠ .unborn) : Function.update x.calls d s c ≠ .unborn := by
  by_cases hc : c = d
  · subst hc
    rwa [Function.update_self]
  · rwa [Function.update_of_ne hc]

theorem Moves.alive {x y : QueueRun} {a : QueueAct} {c : Nat} (h : Moves x a y)
    (hc : x.calls c ≠ .unborn) : y.calls c ≠ .unborn := by
  cases h with
  | cancelPending hd hp => exact hc
  | cancelIdle hd => exact hc
  | create p => exact alive_of_update (by simp) hc
  | startCancelled hd => exact alive_of_update (by simp) hc
  | startFree hd hlt => exact alive_of_update (by simp) hc
  | startQueued hd hle => exact alive_of_update (by simp) hc
  | cancelEarly hd => exact alive_of_update (by simp) hc
  | cancelLate hd hp => exact alive_of_update (by simp) hc
  | resumeDropped hd hf => exact alive_of_update (by simp) hc
  | resumeHandBack hd hf => exact alive_of_update (by simp) hc
  | resumeHolding hd hf => exact alive_of_update (by simp) hc
  | release hd => exact alive_of_update (by simp) hc

-- The call was cancelled in time: whatever happens now, its task ends without a slot.
def Abandoned (x : QueueRun) (c : Nat) : Prop :=
  x.calls c = .ended ∨ (∃ p, x.calls c = .created p true) ∨
    ∃ w m, x.calls c = .awaiting w m ∧ x.futures c ≠ .pending ∧ (m = true ∨ x.futures c = .cancelled)

theorem Abandoned.not_holding {x : QueueRun} {c : Nat} (h : x.Abandoned c) :
    x.calls c ≠ .holding := by
  rcases h with h | ⟨p, h⟩ | ⟨w, m, h, _⟩ <;> simp [h]

theorem Moves.abandoned {x y : QueueRun} {a : QueueAct} {c : Nat} (h : Moves x a y)
    (hc : c < x.born) (ha : x.Abandoned c) : y.Abandoned c := by
  by_cases ht : a.target = some c
  · cases h with
    | create p => cases ht
    | startCancelled hd => cases ht; exact .inl (Function.update_self _ _ _)
    | startFree hd hlt => cases ht; rcases ha with ha | ⟨p, ha⟩ | ⟨w, m, ha, _⟩ <;> simp [hd] at ha
    | startQueued hd hle => cases ht; rcases ha with ha | ⟨p, ha⟩ | ⟨w, m, ha, _⟩ <;> simp [hd] at ha
    | cancelEarly hd => cases ht; exact .inr (.inl ⟨_, Function.update_self _ _ _⟩)
    | cancelPending hd hp =>
        cases ht
        exact .inr (.inr ⟨_, _, hd, by simp, .inr (Function.update_self _ _ _)⟩)
    | cancelLate hd hp =>
        cases ht
        exact .inr (.inr ⟨_, _, Function.update_self _ _ _, hp, .inl rfl⟩)
    | cancelIdle hd => exact ha
    | resumeDropped hd hf => cases ht; exact .inl (Function.update_self _ _ _)
    | resumeHandBack hd hf => cases ht; exact .inl (Function.update_self _ _ _)
    | resumeHolding hd hf =>
        cases ht
        rcases ha with ha | ⟨p, ha⟩ | ⟨w, m, ha, _, hm⟩ <;> simp [hd] at ha
        simp [ha.2, hf] at hm
    | release hd => cases ht; exact absurd hd ha.not_holding
  · obtain ⟨hcalls, hfut⟩ := h.other ht hc
    rcases ha with ha | ⟨p, ha⟩ | ⟨w, m, ha, hp, hm⟩
    · exact .inl (hcalls.trans ha)
    · exact .inr (.inl ⟨p, hcalls.trans ha⟩)
    · rcases hfut with hfut | hfut
      · exact .inr (.inr ⟨w, m, hcalls.trans ha, hfut ▸ hp, hfut ▸ hm⟩)
      · exact absurd hfut.1 hp

-- No cancellation has come: the call holds a slot, or it will when it gets one.
def Live (x : QueueRun) (c : Nat) : Prop :=
  x.calls c = .holding ∨ (∃ p, x.calls c = .created p false) ∨
    ∃ w, x.calls c = .awaiting w false ∧ x.futures c ≠ .cancelled

theorem Live.born {x : QueueRun} {c : Nat} (h : x.Live c) : x.calls c ≠ .unborn := by
  rcases h with h | ⟨p, h⟩ | ⟨w, h, _⟩ <;> simp [h]

theorem Moves.live {x y : QueueRun} {a : QueueAct} {c : Nat} (h : Moves x a y) (hc : c < x.born)
    (hcancel : a ≠ .cancel c) (hrelease : a ≠ .release c) (hl : x.Live c) : y.Live c := by
  by_cases ht : a.target = some c
  · cases h with
    | create p => cases ht
    | startCancelled hd => cases ht; rcases hl with hl | ⟨p, hl⟩ | ⟨w, hl, _⟩ <;> simp [hd] at hl
    | startFree hd hlt => cases ht; exact .inl (Function.update_self _ _ _)
    | startQueued hd hle =>
        cases ht
        refine .inr (.inr ⟨_, Function.update_self _ _ _, ?_⟩)
        rw [show (x.enqueue c _).futures c = .pending from Function.update_self _ _ _]
        exact nofun
    | cancelEarly hd => cases ht; exact absurd rfl hcancel
    | cancelPending hd hp => cases ht; exact absurd rfl hcancel
    | cancelLate hd hp => cases ht; exact absurd rfl hcancel
    | cancelIdle hd => exact hl
    | resumeDropped hd hf =>
        cases ht
        rcases hl with hl | ⟨p, hl⟩ | ⟨w, hl, hw⟩
        · simp [hd] at hl
        · simp [hd] at hl
        · exact absurd hf hw
    | resumeHandBack hd hf => cases ht; rcases hl with hl | ⟨p, hl⟩ | ⟨w, hl, _⟩ <;> simp [hd] at hl
    | resumeHolding hd hf => cases ht; exact .inl (Function.update_self _ _ _)
    | release hd => cases ht; exact absurd rfl hrelease
  · obtain ⟨hcalls, hfut⟩ := h.other ht hc
    rcases hl with hl | ⟨p, hl⟩ | ⟨w, hl, hw⟩
    · exact .inl (hcalls.trans hl)
    · exact .inr (.inl ⟨p, hcalls.trans hl⟩)
    · refine .inr (.inr ⟨w, hcalls.trans hl, ?_⟩)
      rcases hfut with hfut | ⟨_, hfut⟩
      · exact hfut ▸ hw
      · rw [hfut]
        exact nofun

theorem Moves.ended {x y : QueueRun} {a : QueueAct} {c : Nat} (h : Moves x a y) (hc : c < x.born)
    (he : x.calls c = .ended) : y.calls c = .ended := by
  by_cases ht : a.target = some c
  · cases h with
    | create p => cases ht
    | cancelIdle hd => exact he
    | cancelPending hd hp => exact he
    | startCancelled hd => cases ht; simp [he] at hd
    | startFree hd hlt => cases ht; simp [he] at hd
    | startQueued hd hle => cases ht; simp [he] at hd
    | cancelEarly hd => cases ht; simp [he] at hd
    | cancelLate hd hp => cases ht; simp [he] at hd
    | resumeDropped hd hf => cases ht; simp [he] at hd
    | resumeHandBack hd hf => cases ht; simp [he] at hd
    | resumeHolding hd hf => cases ht; simp [he] at hd
    | release hd => cases ht; simp [he] at hd
  · exact ((h.other ht hc).1).trans he

theorem Moves.holding {x y : QueueRun} {a : QueueAct} {c : Nat} (h : Moves x a y) (hc : c < x.born)
    (ha : a ≠ .release c) (hh : x.calls c = .holding) : y.calls c = .holding := by
  by_cases ht : a.target = some c
  · cases h with
    | create p => cases ht
    | cancelIdle hd => exact hh
    | cancelPending hd hp => exact hh
    | startCancelled hd => cases ht; simp [hh] at hd
    | startFree hd hlt => cases ht; simp [hh] at hd
    | startQueued hd hle => cases ht; simp [hh] at hd
    | cancelEarly hd => cases ht; simp [hh] at hd
    | cancelLate hd hp => cases ht; simp [hh] at hd
    | resumeDropped hd hf => cases ht; simp [hh] at hd
    | resumeHandBack hd hf => cases ht; simp [hh] at hd
    | resumeHolding hd hf => cases ht; simp [hh] at hd
    | release hd => cases ht; exact absurd rfl ha
  · exact ((h.other ht hc).1).trans hh

theorem Moves.cancel {x y : QueueRun} {c : Nat} (h : Moves x (.cancel c) y) :
    (x.calls c = .holding ∧ y.calls c = .holding) ∨ y.Abandoned c := by
  cases h with
  | cancelEarly hd => exact .inr (.inr (.inl ⟨_, Function.update_self _ _ _⟩))
  | cancelPending hd hp => exact .inr (.inr (.inr ⟨_, _, hd, by simp, .inr (Function.update_self _ _ _)⟩))
  | cancelLate hd hp => exact .inr (.inr (.inr ⟨_, _, Function.update_self _ _ _, hp, .inl rfl⟩))
  | cancelIdle hd =>
      rcases hd with hd | hd
      · exact .inl ⟨hd, hd⟩
      · exact .inr (.inl hd)

theorem release_ended {x y : QueueRun} {c : Nat} (h : Moves x (.release c) y) :
    y.calls c = .ended := by
  cases h with
  | release hd => exact Function.update_self _ _ _

theorem create_call {x y : QueueRun} {p : Int} (h : Moves x (.create p) y) :
    y.calls x.born = .created p false ∧ y.born = x.born + 1 := by
  cases h with
  | create p => exact ⟨Function.update_self _ _ _, rfl⟩

theorem step_release {x : QueueRun} {c : Nat} (h : x.calls c = .holding) :
    ∃ y, x.step (.release c) = some y := by
  simp [step, h]

theorem step_cancel {x : QueueRun} {c : Nat} (h : x.calls c ≠ .unborn) :
    ∃ y, x.step (.cancel c) = some y := by
  simp only [step]
  split
  · next hc => exact absurd hc h
  · exact ⟨_, rfl⟩
  · split <;> exact ⟨_, rfl⟩
  · exact ⟨_, rfl⟩

theorem Abandoned.ends {x : QueueRun} {c : Nat} (h : x.Abandoned c) (hc : x.calls c ≠ .ended) :
    ∃ a y, (a = .start c ∨ a = .resume c) ∧ x.step a = some y ∧ y.calls c = .ended := by
  rcases h with h | ⟨p, h⟩ | ⟨w, m, h, hp, hm⟩
  · exact absurd h hc
  · exact ⟨.start c, x.setCall c .ended, .inl rfl, by simp only [step, h], Function.update_self _ _ _⟩
  · have hdone : (x.futures c).done = true := by
      cases hf : x.futures c with
      | pending => exact absurd hf hp
      | result => rfl
      | cancelled => rfl
    refine ⟨.resume c, (x.setCall c .ended).settle (x.queue.acquireCancelled x.futures c), .inr rfl, ?_,
      Function.update_self _ _ _⟩
    simp only [step, h, if_pos hdone, if_pos hm]

theorem step_start {x : QueueRun} {c : Nat} {p : Int} {m : Bool} (h : x.calls c = .created p m) :
    ∃ y, x.step (.start c) = some y := by
  cases m with
  | true => exact ⟨x.setCall c .ended, by simp only [step, h]⟩
  | false =>
      simp only [step, h]
      split <;> exact ⟨_, rfl⟩

theorem step_resume {x : QueueRun} {c : Nat} {w : Waiter} (h : x.calls c = .awaiting w false)
    (hf : x.futures c = .result) : x.step (.resume c) = some (x.setCall c .holding) := by
  simp [step, h, hf]

end QueueRun

end PandaProxy.FtpQueue
