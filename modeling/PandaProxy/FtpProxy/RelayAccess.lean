import PandaProxy.FtpProxy.Surroundings

namespace PandaProxy.FtpProxy

open Async FtpQueue

namespace Proxy

structure SameRelays (e e' : Proxy) : Prop where
  pool : e'.pool = e.pool
  relays : e'.relays = e.relays
  reserved : e'.reserved = e.reserved
  relay : ∀ k, (e'.links k).relay = (e.links k).relay

namespace SameRelays

theorem refl (e : Proxy) : SameRelays e e := ⟨rfl, rfl, rfl, fun _ => rfl⟩

theorem trans {e e' e'' : Proxy} (h : SameRelays e e') (h' : SameRelays e' e'') : SameRelays e e'' :=
  ⟨h'.pool.trans h.pool, h'.relays.trans h.relays, h'.reserved.trans h.reserved,
    fun k => (h'.relay k).trans (h.relay k)⟩

theorem setLink {e : Proxy} {j : Nat} {f : Link → Link} (hf : ∀ l, (f l).relay = l.relay) :
    SameRelays e (e.setLink j f) := by
  refine ⟨rfl, rfl, rfl, fun k => ?_⟩
  by_cases hk : k = j
  · subst hk
    simp [Proxy.setLink, hf]
  · simp [Proxy.setLink, hk]

theorem note (e : Proxy) (j : Nat) (v : Event) : SameRelays e (e.note j v) := setLink (fun _ => rfl)

theorem received (e : Proxy) (j : Nat) (r : Except Exc (List UInt8)) :
    SameRelays e (e.received j r) := by
  cases r with
  | ok raw => exact note e j _
  | error x => exact refl e

theorem answered (e : Proxy) (j : Nat) (r : Except Exc (Option String)) :
    SameRelays e (e.answered j r) := by
  cases r with
  | ok reply => exact note e j _
  | error x => exact refl e

theorem queueAct (e : Proxy) (a : QueueAct) : SameRelays e (e.queueAct a) := by
  unfold Proxy.queueAct
  split
  · exact ⟨rfl, rfl, rfl, fun _ => rfl⟩
  · exact refl e

theorem onCall (e : Proxy) (j : Nat) (a : Nat → QueueAct) : SameRelays e (e.onCall j a) := by
  unfold Proxy.onCall
  split
  · exact queueAct e _
  · exact refl e

theorem giveBack (e : Proxy) (j : Nat) : SameRelays e (e.giveBack j) := by
  unfold Proxy.giveBack
  split
  · exact onCall e j _
  · exact ⟨rfl, rfl, rfl, fun _ => rfl⟩

end SameRelays

def relayOp : Op → Bool
  | .acquirePort => true
  | .releasePort _ => true
  | .startServer _ => true
  | .createSupervisor _ => true
  | .setCommandSeen _ => true
  | .setEndpoint _ _ _ => true
  | .cancelHandlers _ => true
  | .cancelTask _ => true
  | _ => false

theorem sync_relays {j : Nat} {i : Op} {e e' : Proxy} {r : Except Exc i.Answer}
    (hi : relayOp i = false) (h : sync j i e = some (r, e')) : SameRelays e e' := by
  cases i <;> simp only [sync] at h <;> simp only [relayOp, Bool.true_eq_false] at hi
  case readline =>
    split at h
    · cases h
    · cases h
      refine SameRelays.trans ?_ (.received _ j r)
      exact .setLink (fun _ => rfl)
  case createAcquire p =>
    cases h
    refine SameRelays.trans ?_ (.queueAct _ _)
    exact .setLink (fun _ => rfl)
  case closeUpstream =>
    cases h
    refine SameRelays.trans ?_ (.note _ j _)
    exact .setLink (fun _ => rfl)
  case replyResult =>
    split at h
    · cases h
      exact .answered _ _ _
    · cases h
      exact .refl e
  case awaitReply =>
    obtain ⟨r', _, h⟩ := Option.map_eq_some_iff.mp h
    cases h
    exact .answered _ _ _
  case drainClient =>
    obtain ⟨r', _, h⟩ := Option.map_eq_some_iff.mp h
    cases h
    exact .refl e
  case drainUpstream =>
    obtain ⟨r', _, h⟩ := Option.map_eq_some_iff.mp h
    cases h
    exact .refl e
  case awaitReplyCancelled =>
    obtain ⟨r', _, h⟩ := Option.map_eq_some_iff.mp h
    cases h
    exact .refl e
  all_goals
    repeat' split at h
  all_goals
    cases h <;> first
    | exact .refl e
    | exact .note e j _
    | exact .onCall e j _
    | exact .giveBack e j
    | exact .setLink (fun _ => rfl)

theorem resume_relays {j : Nat} {i : Op} {e e' : Proxy} {r : Except Exc i.Answer}
    (hi : relayOp i = false) (h : resume j i r e = some e') : SameRelays e e' := by
  unfold resume at h
  split at h <;> simp only [relayOp, Bool.true_eq_false] at hi
  all_goals
    repeat' split at h
  all_goals
    first
    | cases h; exact .refl e
    | cases h; exact .note e j _
    | cases h; exact .received e j _
    | cases h; exact .setLink (fun _ => rfl)
    | (cases h; refine SameRelays.trans ?_ (.note _ j _); exact .setLink (fun _ => rfl))
    | cases h

end Proxy

end PandaProxy.FtpProxy
