import PandaProxy.Camera.ChamberStream
import PandaProxy.Camera.FanoutClients

namespace PandaProxy.Camera

open Async Python

namespace StreamClient

variable {α : Type}

theorem disconnect_queue (c : StreamClient α) : c.disconnect.queue ≠ [] := by
  simp only [disconnect, putNowait]
  split
  · simp
  · next hfull =>
      intro hempty
      simp only [Option.getD_none] at hempty
      rw [hempty] at hfull
      exact hfull (Nat.zero_lt_succ _)

end StreamClient

namespace Chamber

-- In `client.receive()`, with nothing to take.
def Blocked (s : Chamber) (k : Nat) : Prop := (s.handlers k).phase = .receiving ∧ (s.fanout.objects k).queue = []

def Stops (s : Chamber) (a : Act) (s' : Chamber) : Prop :=
  a = .stop ∨ a = .drop ∨ s.upstream ≠ .away ∧ s'.upstream = .away

structure Dismissed (s : Chamber) (k : Nat) : Prop where
  made : k < s.fanout.made
  disconnected : (s.fanout.objects k).connected = false
  wakes : (s.handlers k).phase = .receiving → (s.fanout.objects k).queue ≠ []

variable {s s' : Chamber} {k : Nat}

theorem Dismissed.not_blocked (h : s.Dismissed k) : ¬ s.Blocked k := fun hblocked => h.wakes hblocked.1 hblocked.2

theorem named_step {a : Act} (h : s.fanout.Named) (hstep : s.step a = some s') : s'.fanout.Named := by
  cases step_cases hstep with
  | connect _ _ => exact ⟨h.keys, h.named, h.made⟩
  | refuse _ _ _ => exact h.stops
  | readPayload _ _ =>
      unfold nextFrame
      split
      · exact h.broadcast _
      · exact (h.broadcast _).stops
  | drop => exact h.stops
  | stop => exact h.stops
  | register => exact h.register (some _)
  | receive _ _ => exact h.setObject rfl
  | unregister _ => exact h.unregister _
  | _ => exact h

structure Keeps (f f' : StreamFanout (List (List UInt8))) (k : Nat) : Prop where
  made : f.made ≤ f'.made
  disconnected : (f.objects k).connected = false →
    (f'.objects k).connected = false ∧ ((f.objects k).queue ≠ [] → (f'.objects k).queue ≠ [])

namespace Keeps

variable {f f' f'' : StreamFanout (List (List UInt8))}

theorem refl : Keeps f f k := ⟨Nat.le_refl _, fun h => ⟨h, id⟩⟩

theorem trans (h : Keeps f f' k) (h' : Keeps f' f'' k) : Keeps f f'' k where
  made := Nat.le_trans h.made h'.made
  disconnected hd := by
    obtain ⟨hd', hq⟩ := h.disconnected hd
    obtain ⟨hd'', hq'⟩ := h'.disconnected hd'
    exact ⟨hd'', hq' ∘ hq⟩

theorem object (hmade : f.made ≤ f'.made) (h : f'.objects k = f.objects k) : Keeps f f' k := by
  refine ⟨hmade, fun hd => ?_⟩
  rw [h]
  exact ⟨hd, id⟩

theorem stop (h : f.Named) : Keeps f f.stop k := by
  refine ⟨Nat.le_of_eq h.stop.2.1.symm, fun hd => ?_⟩
  by_cases hr : f.registered k
  · rw [(h.stop.2.2 k).1 hr]
    exact ⟨(f.objects k).disconnect_cases.2.1, fun _ => (f.objects k).disconnect_queue⟩
  · rw [(h.stop.2.2 k).2 hr]
    exact ⟨hd, id⟩

theorem broadcast (h : f.Named) (data : List (List UInt8)) : Keeps f (f.broadcast data) k := by
  obtain ⟨_, hmade, hobjects⟩ := h.eachClient fun c => (c.send data).2
  refine ⟨Nat.le_of_eq hmade.symm, fun hd => ?_⟩
  rw [StreamFanout.broadcast]
  by_cases hr : f.registered k
  · rw [(hobjects k).1 hr, StreamFanout.send_disconnected hd]
    exact ⟨hd, id⟩
  · rw [(hobjects k).2 hr]
    exact ⟨hd, id⟩

theorem register (hk : k < f.made) (clientId : Option String) : Keeps f (f.registerClient clientId).2 k := by
  obtain ⟨_, hmade, _, hold⟩ := StreamFanout.register_spec f clientId
  exact .object (hmade ▸ Nat.le_succ _) (hold k (Nat.ne_of_lt hk))

theorem unregister (m : Nat) : Keeps f (f.unregisterClient m) k := by
  obtain ⟨hmade, hself, hother, _⟩ := StreamFanout.unregisterClient_spec (f := f) m
  by_cases hkm : k = m
  · subst hkm
    refine ⟨Nat.le_of_eq hmade.symm, fun _ => ?_⟩
    rw [hself]
    exact ⟨(f.objects k).disconnect_cases.2.1, fun _ => (f.objects k).disconnect_queue⟩
  · exact .object (Nat.le_of_eq hmade.symm) (hother k hkm)

end Keeps

theorem Dismissed.keeps (h : s.Dismissed k) (hkeeps : Keeps s.fanout s'.fanout k)
    (hphase : (s'.handlers k).phase = .receiving → (s.handlers k).phase = .receiving) : s'.Dismissed k := by
  obtain ⟨hdisconnected, hqueue⟩ := hkeeps.disconnected h.disconnected
  exact ⟨Nat.lt_of_lt_of_le h.made hkeeps.made, hdisconnected, fun hp => hqueue (h.wakes (hphase hp))⟩

theorem setHandler_self {x : Handler} : (s.setHandler k x).handlers k = x := Function.update_self _ _ _

theorem setHandler_ne {m : Nat} {x : Handler} (h : k ≠ m) : (s.setHandler m x).handlers k = s.handlers k :=
  Function.update_of_ne h _ _

theorem setHandler_phase {m : Nat} {x : Handler} (hx : k = m → x.phase ≠ .receiving) :
    ((s.setHandler m x).handlers k).phase = .receiving → (s.handlers k).phase = .receiving := by
  by_cases hkm : k = m
  · subst hkm
    rw [setHandler_self]
    exact fun hp => absurd hp (hx rfl)
  · rw [setHandler_ne hkm]
    exact id

theorem Dismissed.step {a : Act} (hnamed : s.fanout.Named) (h : s.Dismissed k) (hstep : s.step a = some s') :
    s'.Dismissed k := by
  cases step_cases hstep with
  | connect _ _ => exact h.keeps (.object (Nat.le_refl _) rfl) id
  | arrive _ => exact h.keeps .refl id
  | readHeader _ _ _ _ => exact h.keeps .refl id
  | refuse _ _ _ => exact h.keeps (.stop hnamed) id
  | readPayload _ _ =>
      unfold nextFrame
      split
      · exact h.keeps (.broadcast hnamed _) id
      · exact h.keeps ((Keeps.broadcast hnamed _).trans (.stop (hnamed.broadcast _))) id
  | drop => exact h.keeps (.stop hnamed) id
  | stop => exact h.keeps (.stop hnamed) id
  | register => exact h.keeps (.register h.made _) (setHandler_phase fun _ => by rintro ⟨⟩)
  | check hh =>
      refine h.keeps .refl (setHandler_phase ?_)
      rintro rfl
      simp only [Handler.check, h.disconnected, Bool.and_false] at hh
      split at hh <;> cases hh
      rintro ⟨⟩
  | @receive m item queue _ _ =>
      by_cases hkm : k = m
      · subst hkm
        refine ⟨h.made, ?_, fun hp => ?_⟩
        · simpa [setHandler, StreamFanout.setObject_self] using h.disconnected
        · rw [setHandler_self] at hp
          cases item <;> cases hp
      · refine h.keeps (.object (Nat.le_refl _) ?_) (setHandler_phase fun he => absurd he hkm)
        exact StreamFanout.setObject_ne hkm
  | write hh =>
      refine h.keeps .refl (setHandler_phase fun _ => ?_)
      simp only [Handler.write] at hh
      split at hh <;> cases hh <;> rintro ⟨⟩
  | fail hh =>
      refine h.keeps .refl (setHandler_phase fun _ => ?_)
      simp only [Handler.fail] at hh
      split at hh <;> cases hh <;> rintro ⟨⟩
  | unregister _ => exact h.keeps (.unregister _) (setHandler_phase fun _ => by rintro ⟨⟩)

theorem dismissed_of_stop {f : StreamFanout (List (List UInt8))} (hnamed : f.Named) (hfanout : s.fanout = f.stop)
    (hk : f.registered k) : s.Dismissed k := by
  obtain ⟨id, hm⟩ := hk
  have hobject := (hnamed.stop.2.2 k).1 ⟨id, hm⟩
  refine ⟨?_, ?_, fun _ => ?_⟩
  · rw [hfanout, hnamed.stop.2.1]
    exact hnamed.made id k hm
  · rw [hfanout, hobject]
    exact (f.objects k).disconnect_cases.2.1
  · rw [hfanout, hobject]
    exact (f.objects k).disconnect_queue

theorem registered_broadcast {f : StreamFanout (List (List UInt8))} (h : f.Named) (data : List (List UInt8)) :
    (f.broadcast data).registered k ↔ f.registered k := by
  rw [StreamFanout.registered, StreamFanout.broadcast, (h.eachClient _).1, StreamFanout.registered]

theorem Stops.dismissed {a : Act} (hnamed : s.fanout.Named) (hstep : s.step a = some s') (hstops : s.Stops a s')
    (hk : s.fanout.registered k) : s'.Dismissed k := by
  rcases hstops with rfl | rfl | ⟨hup, haway⟩
  · cases hstep
    exact dismissed_of_stop hnamed rfl hk
  · cases hstep
    exact dismissed_of_stop hnamed rfl hk
  · cases step_cases hstep with
    | connect _ _ => cases haway
    | readHeader _ _ _ _ => cases haway
    | refuse _ _ _ => exact dismissed_of_stop hnamed rfl hk
    | readPayload _ _ =>
        unfold nextFrame at haway ⊢
        split at haway
        · cases haway
        · next hrunning =>
            rw [if_neg hrunning]
            exact dismissed_of_stop (hnamed.broadcast _) rfl ((registered_broadcast hnamed _).mpr hk)
    | drop => exact dismissed_of_stop hnamed rfl hk
    | stop => exact dismissed_of_stop hnamed rfl hk
    | _ => exact absurd haway hup

theorem dismissed_for_good {a : Act} (hrun : machine.Runs Machine.Free .init s) (hstep : s.step a = some s')
    (hstops : s.Stops a s') (hk : s.fanout.registered k) {s'' : Chamber} (hlater : machine.Runs Machine.Free s' s'') :
    ¬ s''.Blocked k := by
  have hnamed : s.fanout.Named :=
    hrun.keeps (I := fun s => s.fanout.Named) ⟨.nil, nofun, nofun⟩ fun _ _ _ h hstep _ => named_step h hstep
  have hlast : s''.fanout.Named ∧ s''.Dismissed k :=
    hlater.keeps (I := fun s => s.fanout.Named ∧ s.Dismissed k) ⟨named_step hnamed hstep, hstops.dismissed hnamed hstep hk⟩
      fun _ _ _ h hstep _ => ⟨named_step h.1 hstep, h.2.step h.1 hstep⟩
  exact hlast.2.not_blocked

end Chamber

end PandaProxy.Camera
