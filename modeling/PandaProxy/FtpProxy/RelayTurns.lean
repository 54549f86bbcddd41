import PandaProxy.FtpProxy.Relay

namespace PandaProxy.FtpProxy

open Async

namespace Phase

def begun : Phase → Bool
  | binding => false
  | unbound => false
  | _ => true

end Phase

namespace Relay

inductive Turn (x y : Relay) : Prop where
  | supervise (timedOut : Bool) (h : x.supervise timedOut = some y)
  | handle (h : x.handle = some y)
  | connect (h : x.connect = some y)
  | accept (stranger : Bool) (h : x.accept stranger = some y)
  | disconnect (h : x.disconnect = some y)

-- A relay that nobody has cancelled. Its endpoint is still to come until the session sets it.
structure Tended (x : Relay) : Prop where
  uncancelled : x.mustCancel = false
  parked : x.commandSeen = false → x.handler ≠ .awaitEndpoint
  endpoint : x.endpoint ≠ .cancelled
  late : x.phase = .awaitClient ∨ x.phase = .awaitFinish → x.endpoint = .result

structure Goes (x y : Relay) : Prop where
  owner : y.owner = x.owner
  commandSeen : y.commandSeen = x.commandSeen
  endpoint : y.endpoint = x.endpoint
  handler : y.handler = x.handler
  uncancelled : x.mustCancel = false → y.mustCancel = false
  begun : y.phase.begun = true
  late : y.phase = .awaitClient ∨ y.phase = .awaitFinish → y.endpoint = .result

theorem Goes.tended {x y : Relay} (h : Goes x y) (hx : x.Tended) : y.Tended where
  uncancelled := h.uncancelled hx.uncancelled
  parked hseen := by
    rw [h.handler]
    exact hx.parked (h.commandSeen ▸ hseen)
  endpoint := by
    rw [h.endpoint]
    exact hx.endpoint
  late := h.late

theorem waitClosed_goes (x : Relay) : Goes x x.waitClosed := by
  unfold waitClosed
  split
  · exact ⟨rfl, rfl, rfl, rfl, id, rfl, fun h => by simp [leave] at h⟩
  · exact ⟨rfl, rfl, rfl, rfl, id, rfl, fun h => by simp at h⟩

theorem cancelHandler_goes {x : Relay} (h : x.endpoint = .result ∨ x.handler ≠ .awaitEndpoint) :
    x.cancelHandler.owner = x.owner ∧ x.cancelHandler.commandSeen = x.commandSeen ∧
      x.cancelHandler.endpoint = x.endpoint ∧ x.cancelHandler.handler = x.handler := by
  unfold cancelHandler
  split
  · exact ⟨rfl, rfl, rfl, rfl⟩
  · exact ⟨rfl, rfl, rfl, rfl⟩
  · next hp =>
      rcases h with h | h
      · exact ⟨rfl, rfl, by simp [h, Fut.cancel], rfl⟩
      · exact absurd hp h
  · exact ⟨rfl, rfl, rfl, rfl⟩

theorem teardown_goes {x : Relay} (h : x.endpoint = .result ∨ x.handler ≠ .awaitEndpoint) :
    Goes x x.teardown := by
  obtain ⟨ho, hc, he, hh⟩ := cancelHandler_goes h
  unfold teardown
  simp only
  split
  · exact ⟨ho, hc, he, hh, fun _ => rfl, rfl, fun h => by simp at h⟩
  · have hw := waitClosed_goes { x.cancelHandler with listening := false, mustCancel := false }
    exact ⟨hw.owner.trans ho, hw.commandSeen.trans hc, hw.endpoint.trans he, hw.handler.trans hh,
      fun _ => hw.uncancelled rfl, hw.begun, hw.late⟩

theorem waitFinish_goes {x : Relay} (h : x.endpoint = .result) : Goes x x.waitFinish := by
  unfold waitFinish
  split
  · exact teardown_goes (.inl h)
  · exact ⟨rfl, rfl, rfl, rfl, id, rfl, fun _ => h⟩

theorem waitClient_goes {x : Relay} (h : x.endpoint = .result) : Goes x x.waitClient := by
  unfold waitClient
  split
  · exact waitFinish_goes h
  · exact ⟨rfl, rfl, rfl, rfl, id, rfl, fun _ => h⟩

theorem waitEndpoint_goes {x : Relay} (h : x.endpoint ≠ .cancelled) :
    Goes x x.waitEndpoint ∧ (x.endpoint = .pending → x.waitEndpoint.phase.waiting = true) := by
  unfold waitEndpoint
  split
  · exact ⟨⟨rfl, rfl, rfl, rfl, id, rfl, fun h => by simp at h⟩, fun _ => rfl⟩
  · next he => exact ⟨waitClient_goes he, fun hp => by rw [he] at hp; cases hp⟩
  · next he => exact absurd he h

theorem waitCommand_goes {x : Relay} (h : x.endpoint ≠ .cancelled) :
    Goes x x.waitCommand ∧ (x.endpoint = .pending → x.waitCommand.phase.waiting = true) := by
  unfold waitCommand
  split
  · exact waitEndpoint_goes h
  · exact ⟨⟨rfl, rfl, rfl, rfl, id, rfl, fun h => by simp at h⟩, fun _ => rfl⟩

theorem supervise_goes {x y : Relay} {timedOut : Bool} (hx : x.Tended)
    (h : x.supervise timedOut = some y) :
    Goes x y ∧ x.phase.begun = true ∧
      (x.commandSeen = true → x.endpoint = .pending → x.phase.waiting = true →
        y.phase.waiting = true) := by
  have hm := hx.uncancelled
  unfold supervise at h
  simp only [hm, Bool.false_or, Bool.false_eq_true, if_false] at h
  split at h
  · next hp =>
      cases h
      obtain ⟨hg, hw⟩ := waitCommand_goes hx.endpoint
      exact ⟨hg, by rw [hp]; rfl, fun _ he _ => hw he⟩
  · next hp =>
      refine (fun (hg : _ ∧ _) => ⟨hg.1, by rw [hp]; rfl, hg.2⟩) ?_
      split at h
      · cases h
        obtain ⟨hg, hw⟩ := waitEndpoint_goes hx.endpoint
        exact ⟨hg, fun _ he _ => hw he⟩
      split at h
      · next hseen _ =>
          cases h
          rw [Bool.not_eq_true] at hseen
          exact ⟨teardown_goes (.inr (hx.parked hseen)), fun hs => by rw [hs] at hseen; cases hseen⟩
      · cases h
  · next hp =>
      split at h
      · cases h
        obtain ⟨hg, hw⟩ := waitEndpoint_goes hx.endpoint
        exact ⟨hg, by rw [hp]; rfl, fun _ he _ => hw he⟩
      · cases h
  · next hp =>
      have he := hx.late (.inl hp)
      refine (fun hg => ⟨hg, by rw [hp]; rfl, fun _ h _ => by rw [he] at h; cases h⟩) ?_
      split at h
      · cases h
        exact waitFinish_goes he
      split at h
      · cases h
        exact teardown_goes (.inl he)
      · cases h
  · next hp =>
      have he := hx.late (.inr hp)
      refine (fun hg => ⟨hg, by rw [hp]; rfl, fun _ h _ => by rw [he] at h; cases h⟩) ?_
      split at h
      · cases h
        exact teardown_goes (.inl he)
      · cases h
  · next hp =>
      split at h
      · cases h
      · cases h
        exact ⟨waitClosed_goes x, by rw [hp]; rfl, fun _ _ hw => by rw [hp] at hw; cases hw⟩
  · next hp =>
      split at h
      · cases h
        refine ⟨?_, by rw [hp]; rfl, fun _ _ hw => by rw [hp] at hw; cases hw⟩
        exact ⟨rfl, rfl, rfl, rfl, id, rfl, fun h => by simp [leave] at h⟩
      · cases h
  · cases h

theorem handle_phase {x y : Relay} (h : x.handle = some y) :
    y.owner = x.owner ∧ y.phase = x.phase ∧ y.mustCancel = x.mustCancel ∧
      y.commandSeen = x.commandSeen ∧ y.endpoint = x.endpoint ∧
      (y.handler = .awaitEndpoint → x.commandSeen = true) := by
  unfold handle at h
  split at h
  · split at h
    · cases h
      exact ⟨rfl, rfl, rfl, rfl, rfl, nofun⟩
    split at h
    · next hseen =>
        cases h
        exact ⟨rfl, rfl, rfl, rfl, rfl, fun _ => hseen⟩
    · cases h
  · split at h
    · cases h
      exact ⟨rfl, rfl, rfl, rfl, rfl, nofun⟩
    split at h
    · cases h
      exact ⟨rfl, rfl, rfl, rfl, rfl, nofun⟩
    · cases h
  · cases h
    exact ⟨rfl, rfl, rfl, rfl, rfl, nofun⟩
  · cases h
    exact ⟨rfl, rfl, rfl, rfl, rfl, nofun⟩
  · cases h

theorem accept_phase {x y : Relay} {stranger : Bool} (h : x.accept stranger = some y) :
    y.owner = x.owner ∧ y.phase = x.phase ∧ y.mustCancel = x.mustCancel ∧
      y.commandSeen = x.commandSeen ∧ y.endpoint = x.endpoint ∧
      (y.handler = x.handler ∨ y.handler = .awaitCommand) := by
  unfold accept at h
  split at h
  · cases h
  split at h
  · cases h
    exact ⟨rfl, rfl, rfl, rfl, rfl, .inl rfl⟩
  · cases h
    exact ⟨rfl, rfl, rfl, rfl, rfl, .inr rfl⟩

structure Onwards (x y : Relay) : Prop where
  owner : y.owner = x.owner
  tended : y.Tended
  commandSeen : y.commandSeen = x.commandSeen
  endpoint : y.endpoint = x.endpoint
  binding : x.phase = .binding → y.phase = .binding
  begun : x.phase.begun = true → y.phase.begun = true
  waiting : x.commandSeen = true → x.endpoint = .pending → x.phase.waiting = true →
    y.phase.waiting = true

theorem Turn.onwards {x y : Relay} (h : Turn x y) (hx : x.Tended) : Onwards x y := by
  have hstill : y.owner = x.owner → y.phase = x.phase → y.mustCancel = x.mustCancel →
      y.commandSeen = x.commandSeen → y.endpoint = x.endpoint →
      (x.commandSeen = false → y.handler ≠ .awaitEndpoint) → Onwards x y := by
    intro ho hp hm hc he hh
    refine ⟨ho, ⟨hm.trans hx.uncancelled, fun hs => hh (hc ▸ hs), he ▸ hx.endpoint, ?_⟩, hc, he, ?_, ?_, ?_⟩
    · rw [hp, he]
      exact hx.late
    · exact fun h => hp.trans h
    · exact fun h => hp.symm ▸ h
    · exact fun _ _ h => hp.symm ▸ h
  cases h with
  | supervise timedOut h =>
      obtain ⟨hg, hb, hw⟩ := supervise_goes hx h
      refine ⟨hg.owner, hg.tended hx, hg.commandSeen, hg.endpoint, fun hp => ?_, fun _ => hg.begun, hw⟩
      rw [hp] at hb
      cases hb
  | handle h =>
      obtain ⟨ho, hp, hm, hc, he, hh⟩ := handle_phase h
      refine hstill ho hp hm hc he (fun hs ha => ?_)
      rw [hh ha] at hs
      cases hs
  | connect h =>
      unfold Relay.connect at h
      split at h
      · cases h
        exact hstill rfl rfl rfl rfl rfl hx.parked
      · cases h
  | accept stranger h =>
      obtain ⟨ho, hp, hm, hc, he, hh⟩ := accept_phase h
      refine hstill ho hp hm hc he (fun hs => ?_)
      rcases hh with hh | hh
      · rw [hh]
        exact hx.parked hs
      · rw [hh]
        exact nofun
  | disconnect h =>
      unfold Relay.disconnect at h
      split at h
      · cases h
      · cases h
        exact hstill rfl rfl rfl rfl rfl hx.parked

theorem supervise_owner {x y : Relay} {timedOut : Bool} (h : x.supervise timedOut = some y) :
    y.owner = x.owner := by
  have hclosed : x.waitClosed.owner = x.owner := by
    unfold waitClosed
    split <;> rfl
  unfold supervise at h
  split at h
  all_goals
    repeat' split at h
  all_goals
    cases h
  all_goals first
  | exact (waitCommand_onward x).owner
  | exact (waitEndpoint_onward x).owner
  | exact (waitFinish_onward x).owner
  | exact (teardown_onward x).owner
  | exact hclosed
  | rfl

theorem Turn.owner {x y : Relay} (h : Turn x y) : y.owner = x.owner := by
  cases h with
  | supervise timedOut h => exact supervise_owner h
  | handle h => exact (handle_phase h).1
  | connect h =>
      unfold Relay.connect at h
      split at h <;> cases h
      rfl
  | accept stranger h => exact (accept_phase h).1
  | disconnect h =>
      unfold Relay.disconnect at h
      split at h <;> cases h
      rfl

theorem Onwards.refl {x : Relay} (hx : x.Tended) : Onwards x x :=
  ⟨rfl, hx, rfl, rfl, id, id, fun _ _ h => h⟩

end Relay

end PandaProxy.FtpProxy
