import PandaProxy.FtpProxy.Composition
import PandaProxy.FtpProxy.RelayAccess

namespace PandaProxy.FtpProxy

open Async FtpQueue

namespace Relay

structure Alike (x y : Relay) : Prop where
  owner : y.owner = x.owner
  port : y.port = x.port
  phase : y.phase = x.phase
  released : y.released = x.released
  listening : y.listening = x.listening

theorem Alike.refl (x : Relay) : Alike x x := ⟨rfl, rfl, rfl, rfl, rfl⟩

theorem Alike.trans {x y z : Relay} (h : Alike x y) (h' : Alike y z) : Alike x z :=
  ⟨h'.owner.trans h.owner, h'.port.trans h.port, h'.phase.trans h.phase,
    h'.released.trans h.released, h'.listening.trans h.listening⟩

theorem cancelHandler_alike (x : Relay) : Alike x x.cancelHandler := by
  obtain ⟨h1, h2, h3, h4, h5⟩ := x.cancelHandler_fields
  exact ⟨h1, h2, h3, h4, h5⟩

theorem cancel_alike (x : Relay) : Alike x x.cancel := by
  obtain ⟨h1, h2, h3, h4, h5⟩ := x.cancel_fields
  exact ⟨h1, h2, h3, h4, h5⟩

theorem handle_alike {x y : Relay} (h : x.handle = some y) : Alike x y := by
  unfold handle at h
  split at h
  · split at h
    · cases h; exact ⟨rfl, rfl, rfl, rfl, rfl⟩
    split at h
    · cases h; exact ⟨rfl, rfl, rfl, rfl, rfl⟩
    · cases h
  · split at h
    · cases h; exact ⟨rfl, rfl, rfl, rfl, rfl⟩
    split at h
    · cases h; exact ⟨rfl, rfl, rfl, rfl, rfl⟩
    · cases h
  · cases h; exact ⟨rfl, rfl, rfl, rfl, rfl⟩
  · cases h; exact ⟨rfl, rfl, rfl, rfl, rfl⟩
  · cases h

theorem connect_alike {x y : Relay} (h : x.connect = some y) : Alike x y := by
  unfold connect at h
  split at h
  · cases h; exact ⟨rfl, rfl, rfl, rfl, rfl⟩
  · cases h

theorem accept_alike {x y : Relay} {stranger : Bool} (h : x.accept stranger = some y) : Alike x y := by
  unfold accept at h
  split at h
  · cases h
  split at h
  · cases h; exact ⟨rfl, rfl, rfl, rfl, rfl⟩
  · cases h; exact ⟨rfl, rfl, rfl, rfl, rfl⟩

theorem disconnect_alike {x y : Relay} (h : x.disconnect = some y) : Alike x y := by
  unfold disconnect at h
  split at h
  · cases h
  · cases h; exact ⟨rfl, rfl, rfl, rfl, rfl⟩

def Returned (x : Relay) : Prop := x.released = 1 ∧ x.listening = false

theorem Alike.returned {x y : Relay} (h : Alike x y) (hx : x.Returned) : y.Returned :=
  ⟨h.released.trans hx.1, h.listening.trans hx.2⟩

end Relay

namespace Proxy

structure SamePorts (e e' : Proxy) : Prop where
  pool : e'.pool = e.pool
  reserved : e'.reserved = e.reserved
  relay : ∀ k, (e'.links k).relay = (e.links k).relay
  alike : ∀ n, (e.relays n).Alike (e'.relays n)

namespace SamePorts

theorem refl (e : Proxy) : SamePorts e e := ⟨rfl, rfl, fun _ => rfl, fun _ => .refl _⟩

theorem trans {e e' e'' : Proxy} (h : SamePorts e e') (h' : SamePorts e' e'') : SamePorts e e'' :=
  ⟨h'.pool.trans h.pool, h'.reserved.trans h.reserved, fun k => (h'.relay k).trans (h.relay k),
    fun n => (h.alike n).trans (h'.alike n)⟩

theorem ofRelays {e e' : Proxy} (h : SameRelays e e') : SamePorts e e' :=
  ⟨h.pool, h.reserved, h.relay, fun _ => h.relays ▸ .refl _⟩

theorem setRelay {e : Proxy} {n : Nat} {x : Relay} (h : (e.relays n).Alike x) :
    SamePorts e (e.setRelay n x) := by
  refine ⟨rfl, rfl, fun _ => rfl, fun m => ?_⟩
  by_cases hm : m = n
  · subst hm
    simpa [Proxy.setRelay] using h
  · simpa [Proxy.setRelay, hm] using Relay.Alike.refl _

end SamePorts

def portOp : Op → Bool
  | .acquirePort => true
  | .releasePort _ => true
  | .startServer _ => true
  | .createSupervisor _ => true
  | _ => false

theorem sync_ports {j : Nat} {i : Op} {e e' : Proxy} {r : Except Exc i.Answer}
    (hi : portOp i = false) (h : sync j i e = some (r, e')) : SamePorts e e' := by
  cases hr : relayOp i with
  | false => exact .ofRelays (sync_relays hr h)
  | true =>
      cases i <;> simp only [relayOp, Bool.false_eq_true] at hr <;>
        simp only [portOp, Bool.true_eq_false] at hi <;> simp only [sync] at h
      case setCommandSeen =>
        cases h
        exact .setRelay ⟨rfl, rfl, rfl, rfl, rfl⟩
      case setEndpoint =>
        split at h <;> cases h
        · exact .refl e
        · exact .setRelay ⟨rfl, rfl, rfl, rfl, rfl⟩
      case cancelHandlers =>
        cases h
        exact .setRelay (Relay.cancelHandler_alike _)
      case cancelTask =>
        cases h
        exact .setRelay (Relay.cancel_alike _)

theorem resume_ports {j : Nat} {i : Op} {e e' : Proxy} {r : Except Exc i.Answer}
    (hi : portOp i = false) (h : resume j i r e = some e') : SamePorts e e' := by
  cases hr : relayOp i with
  | false => exact .ofRelays (resume_relays hr h)
  | true =>
      cases i <;> simp only [relayOp, Bool.false_eq_true] at hr <;>
        simp only [portOp, Bool.true_eq_false] at hi <;> simp only [resume] at h <;> cases h

def Returned (e : Proxy) (n : Nat) : Prop := (e.relays n).Returned

-- The pool and the relays agree on who has which port.
structure PortsKept (e : Proxy) : Prop where
  apart : e.pool.Apart
  held : ∀ n, n < e.reserved → (e.relays n).released = 0 → (e.relays n).port ∈ e.pool.inUse
  owned : ∀ p ∈ e.pool.inUse, ∃ n, n < e.reserved ∧ (e.relays n).released = 0 ∧ (e.relays n).port = p
  known : ∀ n, n < e.reserved → (e.relays n).port ∈ e.pool.free ∨ (e.relays n).port ∈ e.pool.inUse
  alone : ∀ n m, n < e.reserved → m < e.reserved → (e.relays n).released = 0 →
    (e.relays m).released = 0 → (e.relays n).port = (e.relays m).port → n = m
  live : ∀ n, n < e.reserved → (e.relays n).phase ≠ .over → (e.relays n).phase ≠ .unbound →
    (e.relays n).released = 0
  spent : ∀ n, n < e.reserved → (e.relays n).phase = .over ∨ (e.relays n).phase = .unbound →
    e.Returned n
  deaf : ∀ n, n < e.reserved → (e.relays n).phase.tearingDown = true → (e.relays n).listening = false
  latest : ∀ n, n < e.reserved → e.Returned n ∨ (e.links (e.relays n).owner).relay = some n
  linked : ∀ j n, (e.links j).relay = some n → n < e.reserved ∧ (e.relays n).owner = j

structure PortRely (j : Nat) (e e' : Proxy) : Prop where
  relay : (e'.links j).relay = (e.links j).relay
  grows : e.reserved ≤ e'.reserved
  mine : ∀ n, n < e'.reserved → (e'.relays n).owner = j → n < e.reserved ∧ (e.relays n).owner = j
  owner : ∀ n, n < e.reserved → (e'.relays n).owner = (e.relays n).owner
  port : ∀ n, n < e.reserved → (e'.relays n).port = (e.relays n).port
  returned : ∀ n, n < e.reserved → e.Returned n → e'.Returned n
  binding : ∀ n, n < e.reserved → (e.relays n).owner = j → (e.relays n).phase = .binding →
    (e'.relays n).phase = .binding
  deaf : ∀ n, n < e.reserved → (e.relays n).owner = j → (e.relays n).phase = .binding →
    (e'.relays n).listening = (e.relays n).listening
  ended : ∀ n, n < e.reserved → (e.relays n).phase = .over → (e'.relays n).phase = .over

theorem SamePorts.rely {e e' : Proxy} (h : SamePorts e e') (j : Nat) : PortRely j e e' where
  relay := h.relay j
  grows := Nat.le_of_eq h.reserved.symm
  mine n hn ho := ⟨h.reserved ▸ hn, (h.alike n).owner.symm.trans ho⟩
  owner n _ := (h.alike n).owner
  port n _ := (h.alike n).port
  returned n _ hr := (h.alike n).returned hr
  binding n _ _ hp := (h.alike n).phase.trans hp
  deaf n _ _ _ := (h.alike n).listening
  ended n _ hp := (h.alike n).phase.trans hp

theorem SamePorts.kept {e e' : Proxy} (h : SamePorts e e') (hk : PortsKept e) : PortsKept e' where
  apart := h.pool ▸ hk.apart
  held n hn hr := by
    rw [h.pool, (h.alike n).port]
    exact hk.held n (h.reserved ▸ hn) ((h.alike n).released.symm.trans hr)
  owned p hp := by
    obtain ⟨n, hn, hr, ho⟩ := hk.owned p (h.pool ▸ hp)
    exact ⟨n, h.reserved.symm ▸ hn, (h.alike n).released.trans hr, (h.alike n).port.trans ho⟩
  known n hn := by
    rw [h.pool, (h.alike n).port]
    exact hk.known n (h.reserved ▸ hn)
  alone n m hn hm hrn hrm hp := by
    refine hk.alone n m (h.reserved ▸ hn) (h.reserved ▸ hm) ((h.alike n).released.symm.trans hrn)
      ((h.alike m).released.symm.trans hrm) ?_
    rw [← (h.alike n).port, ← (h.alike m).port, hp]
  live n hn ho hu := by
    rw [(h.alike n).phase] at ho hu
    exact (h.alike n).released.trans (hk.live n (h.reserved ▸ hn) ho hu)
  spent n hn hp := by
    rw [(h.alike n).phase] at hp
    exact (h.alike n).returned (hk.spent n (h.reserved ▸ hn) hp)
  deaf n hn hp := by
    rw [(h.alike n).phase] at hp
    exact (h.alike n).listening.trans (hk.deaf n (h.reserved ▸ hn) hp)
  latest n hn := by
    rcases hk.latest n (h.reserved ▸ hn) with hr | hr
    · exact .inl ((h.alike n).returned hr)
    · exact .inr (by rw [(h.alike n).owner, h.relay, hr])
  linked j n hn := by
    obtain ⟨hlt, ho⟩ := hk.linked j n ((h.relay j).symm.trans hn)
    exact ⟨h.reserved.symm ▸ hlt, (h.alike n).owner.trans ho⟩

def settle (e : Proxy) (n : Nat) (x : Relay) (pool : DataPortPool) : Proxy :=
  { e.setRelay n x with pool := pool }

theorem settle_self (e : Proxy) (n : Nat) (x : Relay) (pool : DataPortPool) :
    (e.settle n x pool).relays n = x := by
  simp [settle, setRelay]

theorem settle_other {e : Proxy} {n m : Nat} (x : Relay) (pool : DataPortPool) (h : m ≠ n) :
    (e.settle n x pool).relays m = e.relays m := by
  simp [settle, setRelay, h]

theorem settle_rely {e : Proxy} {n k : Nat} {x : Relay} (pool : DataPortPool)
    (ho : x.owner = (e.relays n).owner) (hp : x.port = (e.relays n).port)
    (hr : e.Returned n → x.Returned)
    (hb : (e.relays n).owner = k → (e.relays n).phase = .binding →
      x.phase = .binding ∧ x.listening = (e.relays n).listening)
    (hv : (e.relays n).phase = .over → x.phase = .over) : PortRely k e (e.settle n x pool) where
  relay := rfl
  grows := Nat.le_refl _
  mine m hm hmo := by
    refine ⟨hm, ?_⟩
    by_cases hmn : m = n
    · subst hmn
      rwa [settle_self, ho] at hmo
    · rwa [settle_other x pool hmn] at hmo
  owner m _ := by
    by_cases hmn : m = n
    · subst hmn
      rw [settle_self, ho]
    · rw [settle_other x pool hmn]
  port m _ := by
    by_cases hmn : m = n
    · subst hmn
      rw [settle_self, hp]
    · rw [settle_other x pool hmn]
  returned m _ hm := by
    by_cases hmn : m = n
    · subst hmn
      rw [Proxy.Returned, settle_self]
      exact hr hm
    · rw [Proxy.Returned, settle_other x pool hmn]
      exact hm
  binding m _ hmo hmp := by
    by_cases hmn : m = n
    · subst hmn
      rw [settle_self]
      exact (hb hmo hmp).1
    · rw [settle_other x pool hmn]
      exact hmp
  deaf m _ hmo hmp := by
    by_cases hmn : m = n
    · subst hmn
      rw [settle_self]
      exact (hb hmo hmp).2
    · rw [settle_other x pool hmn]
  ended m _ hmp := by
    by_cases hmn : m = n
    · subst hmn
      rw [settle_self]
      exact hv hmp
    · rw [settle_other x pool hmn]
      exact hmp

theorem kept_move {e : Proxy} {n : Nat} {x : Relay} (hk : PortsKept e) (hn : n < e.reserved)
    (ho : x.owner = (e.relays n).owner) (hp : x.port = (e.relays n).port)
    (hr : (e.relays n).released = 0) (hx : x.released = 0) (hov : x.phase ≠ .over)
    (hun : x.phase ≠ .unbound) (hl : x.phase.tearingDown = true → x.listening = false) :
    PortsKept (e.settle n x e.pool) where
  apart := hk.apart
  held m hm hmr := by
    by_cases hmn : m = n
    · subst hmn
      rw [settle_self, hp]
      exact hk.held m hm hr
    · rw [settle_other x e.pool hmn] at hmr ⊢
      exact hk.held m hm hmr
  owned p hpool := by
    obtain ⟨m, hm, hmr, hmp⟩ := hk.owned p hpool
    refine ⟨m, hm, ?_, ?_⟩
    · by_cases hmn : m = n
      · subst hmn
        rw [settle_self, hx]
      · rw [settle_other x e.pool hmn, hmr]
    · by_cases hmn : m = n
      · subst hmn
        rw [settle_self, hp, hmp]
      · rw [settle_other x e.pool hmn, hmp]
  known m hm := by
    by_cases hmn : m = n
    · subst hmn
      rw [settle_self, hp]
      exact hk.known m hm
    · rw [settle_other x e.pool hmn]
      exact hk.known m hm
  alone m m' hm hm' hmr hmr' hmp := by
    refine hk.alone m m' hm hm' ?_ ?_ ?_
    · by_cases hmn : m = n
      · exact hmn ▸ hr
      · rwa [settle_other x e.pool hmn] at hmr
    · by_cases hmn : m' = n
      · exact hmn ▸ hr
      · rwa [settle_other x e.pool hmn] at hmr'
    · have hport : ∀ m, ((e.settle n x e.pool).relays m).port = (e.relays m).port := by
        intro m
        by_cases hmn : m = n
        · subst hmn
          rw [settle_self, hp]
        · rw [settle_other x e.pool hmn]
      rw [← hport m, ← hport m', hmp]
  live m hm hmo hmu := by
    by_cases hmn : m = n
    · subst hmn
      rw [settle_self, hx]
    · rw [settle_other x e.pool hmn] at hmo hmu ⊢
      exact hk.live m hm hmo hmu
  spent m hm hmp := by
    by_cases hmn : m = n
    · subst hmn
      rw [settle_self] at hmp
      rcases hmp with hmp | hmp
      · exact absurd hmp hov
      · exact absurd hmp hun
    · rw [settle_other x e.pool hmn] at hmp
      rw [Proxy.Returned, settle_other x e.pool hmn]
      exact hk.spent m hm hmp
  deaf m hm hmp := by
    by_cases hmn : m = n
    · subst hmn
      rw [settle_self] at hmp ⊢
      exact hl hmp
    · rw [settle_other x e.pool hmn] at hmp ⊢
      exact hk.deaf m hm hmp
  latest m hm := by
    by_cases hmn : m = n
    · subst hmn
      refine .inr ?_
      rw [settle_self, ho]
      rcases hk.latest m hm with hret | hret
      · rw [hret.1] at hr
        cases hr
      · exact hret
    · rw [Proxy.Returned, settle_other x e.pool hmn]
      exact hk.latest m hm
  linked j m hm := by
    obtain ⟨hlt, hmo⟩ := hk.linked j m hm
    refine ⟨hlt, ?_⟩
    by_cases hmn : m = n
    · subst hmn
      rw [settle_self, ho, hmo]
    · rw [settle_other x e.pool hmn, hmo]

theorem kept_return {e : Proxy} {n : Nat} {x : Relay} (hk : PortsKept e) (hn : n < e.reserved)
    (ho : x.owner = (e.relays n).owner) (hp : x.port = (e.relays n).port)
    (hr : (e.relays n).released = 0) (hx : x.Returned) (hph : x.phase = .over ∨ x.phase = .unbound) :
    PortsKept (e.settle n x (e.pool.release x.port)) := by
  have hport : ∀ m, ((e.settle n x (e.pool.release x.port)).relays m).port = (e.relays m).port := by
    intro m
    by_cases hmn : m = n
    · subst hmn
      rw [settle_self, hp]
    · rw [settle_other x _ hmn]
  have hsame : ∀ m, ((e.settle n x (e.pool.release x.port)).relays m).released = 0 →
      m ≠ n ∧ (e.relays m).released = 0 := by
    intro m hm
    by_cases hmn : m = n
    · subst hmn
      rw [settle_self, hx.1] at hm
      cases hm
    · rw [settle_other x _ hmn] at hm
      exact ⟨hmn, hm⟩
  have hin : x.port ∈ e.pool.inUse := hp ▸ hk.held n hn hr
  refine ⟨hk.apart.release _, ?_, ?_, ?_, ?_, ?_, ?_, ?_, ?_, ?_⟩
  · intro m hm hmr
    obtain ⟨hmn, hmr⟩ := hsame m hmr
    rw [hport]
    refine DataPortPool.mem_release.mpr ⟨hk.held m hm hmr, fun he => hmn ?_⟩
    exact hk.alone m n hm hn hmr hr (he.trans hp)
  · intro p hpool
    obtain ⟨hpool, hne⟩ := DataPortPool.mem_release.mp hpool
    obtain ⟨m, hm, hmr, hmp⟩ := hk.owned p hpool
    have hmn : m ≠ n := by
      intro he
      subst he
      exact hne (hmp.symm.trans hp.symm)
    refine ⟨m, hm, ?_, ?_⟩
    · rw [settle_other x _ hmn, hmr]
    · rw [settle_other x _ hmn, hmp]
  · intro m hm
    rw [hport]
    by_cases hpm : (e.relays m).port = x.port
    · rw [hpm]
      exact .inl (DataPortPool.free_release hin)
    · rcases hk.known m hm with hf | hu
      · exact .inl (DataPortPool.mem_free_release hf)
      · exact .inr (DataPortPool.mem_release.mpr ⟨hu, hpm⟩)
  · intro m m' hm hm' hmr hmr' hmp
    rw [hport, hport] at hmp
    exact hk.alone m m' hm hm' (hsame m hmr).2 (hsame m' hmr').2 hmp
  · intro m hm hmo hmu
    by_cases hmn : m = n
    · subst hmn
      rw [settle_self] at hmo hmu
      rcases hph with hph | hph
      · exact absurd hph hmo
      · exact absurd hph hmu
    · rw [settle_other x _ hmn] at hmo hmu ⊢
      exact hk.live m hm hmo hmu
  · intro m hm hmp
    by_cases hmn : m = n
    · subst hmn
      rw [Proxy.Returned, settle_self]
      exact hx
    · rw [settle_other x _ hmn] at hmp
      rw [Proxy.Returned, settle_other x _ hmn]
      exact hk.spent m hm hmp
  · intro m hm hmp
    by_cases hmn : m = n
    · subst hmn
      rw [settle_self]
      exact hx.2
    · rw [settle_other x _ hmn] at hmp ⊢
      exact hk.deaf m hm hmp
  · intro m hm
    by_cases hmn : m = n
    · subst hmn
      rw [Proxy.Returned, settle_self]
      exact .inl hx
    · rw [Proxy.Returned, settle_other x _ hmn]
      exact hk.latest m hm
  · intro j m hm
    obtain ⟨hlt, hmo⟩ := hk.linked j m hm
    refine ⟨hlt, ?_⟩
    by_cases hmn : m = n
    · subst hmn
      rw [settle_self, ho, hmo]
    · rw [settle_other x _ hmn, hmo]

structure Reserves (j : Nat) (port : Int) (free : List Int) (e e' : Proxy) : Prop where
  next : e.pool.free = port :: free
  pool : e'.pool = { e.pool with free := free, inUse := port :: e.pool.inUse }
  reserved : e'.reserved = e.reserved + 1
  fresh : e'.relays e.reserved = .reserve j port
  old : ∀ n, n < e.reserved → e'.relays n = e.relays n
  link : (e'.links j).relay = some e.reserved
  other : ∀ k, k ≠ j → (e'.links k).relay = (e.links k).relay

theorem reserve_cases (e : Proxy) (j : Nat) :
    (e.reserve j = (none, e)) ∨
    ∃ port free e', e.reserve j = (some port, e') ∧ Reserves j port free e e' := by
  unfold reserve
  rcases e.pool.acquire_cases with ⟨_, h⟩ | ⟨port, free, hf, h⟩
  · exact .inl (by rw [h])
  · refine .inr ⟨port, free, _, by rw [h], hf, rfl, rfl, ?_, ?_, ?_, ?_⟩
    · exact Function.update_self _ _ _
    · intro n hn
      exact Function.update_of_ne (Nat.ne_of_lt hn) _ _
    · simp [setLink]
    · intro k hk
      simp [setLink, setRelay, hk]

namespace Reserves

variable {j : Nat} {port : Int} {free : List Int} {e e' : Proxy}

theorem cases (h : Reserves j port free e e') {n : Nat} (hn : n < e'.reserved) :
    n = e.reserved ∨ n < e.reserved := by
  rw [h.reserved] at hn
  omega

theorem rely (h : Reserves j port free e e') {k : Nat} (hk : k ≠ j) : PortRely k e e' where
  relay := h.other k hk
  grows := h.reserved ▸ Nat.le_succ _
  mine n hn ho := by
    rcases h.cases hn with rfl | hlt
    · rw [h.fresh] at ho
      exact absurd ho.symm hk
    · rw [h.old n hlt] at ho
      exact ⟨hlt, ho⟩
  owner n hn := by rw [h.old n hn]
  port n hn := by rw [h.old n hn]
  returned n hn hr := by
    rw [Proxy.Returned, h.old n hn]
    exact hr
  binding n hn _ hp := by rwa [h.old n hn]
  deaf n hn _ _ := by rw [h.old n hn]
  ended n hn hp := by rwa [h.old n hn]

theorem kept (h : Reserves j port free e e') (hk : PortsKept e)
    (hret : ∀ n, n < e.reserved → (e.relays n).owner = j → e.Returned n) : PortsKept e' := by
  obtain ⟨hnot, hapart⟩ := hk.apart.acquire h.next
  have hport : ∀ n, n < e.reserved → (e.relays n).released = 0 → (e.relays n).port ≠ port :=
    fun n hn hr hp => hnot (hp ▸ hk.held n hn hr)
  refine ⟨h.pool ▸ hapart, ?_, ?_, ?_, ?_, ?_, ?_, ?_, ?_, ?_⟩
  · intro n hn hr
    rw [h.pool]
    rcases h.cases hn with rfl | hlt
    · rw [h.fresh]
      exact List.mem_cons_self
    · rw [h.old n hlt] at hr ⊢
      exact List.mem_cons_of_mem _ (hk.held n hlt hr)
  · intro p hp
    rw [h.pool] at hp
    rcases List.mem_cons.mp hp with rfl | hp
    · exact ⟨e.reserved, by rw [h.reserved]; exact Nat.lt_succ_self _, by rw [h.fresh]; rfl,
        by rw [h.fresh]; rfl⟩
    · obtain ⟨n, hn, hr, ho⟩ := hk.owned p hp
      exact ⟨n, by rw [h.reserved]; omega, by rw [h.old n hn, hr], by rw [h.old n hn, ho]⟩
  · intro n hn
    rw [h.pool]
    rcases h.cases hn with rfl | hlt
    · rw [h.fresh]
      exact .inr List.mem_cons_self
    · rw [h.old n hlt]
      rcases hk.known n hlt with hf | hu
      · rw [h.next] at hf
        rcases List.mem_cons.mp hf with hp | hf
        · rw [hp]
          exact .inr List.mem_cons_self
        · exact .inl hf
      · exact .inr (List.mem_cons_of_mem _ hu)
  · intro n m hn hm hrn hrm hp
    rcases h.cases hn with rfl | hn
    · rcases h.cases hm with rfl | hm
      · rfl
      · rw [h.old m hm] at hrm hp
        rw [h.fresh] at hp
        exact absurd hp.symm (hport m hm hrm)
    · rw [h.old n hn] at hrn hp
      rcases h.cases hm with rfl | hm
      · rw [h.fresh] at hp
        exact absurd hp (hport n hn hrn)
      · rw [h.old m hm] at hrm hp
        exact hk.alone n m hn hm hrn hrm hp
  · intro n hn ho hu
    rcases h.cases hn with rfl | hlt
    · rw [h.fresh]
      rfl
    · rw [h.old n hlt] at ho hu ⊢
      exact hk.live n hlt ho hu
  · intro n hn hp
    rcases h.cases hn with rfl | hlt
    · rw [h.fresh] at hp
      simp [Relay.reserve] at hp
    · rw [h.old n hlt] at hp
      rw [Proxy.Returned, h.old n hlt]
      exact hk.spent n hlt hp
  · intro n hn hp
    rcases h.cases hn with rfl | hlt
    · rw [h.fresh]
      rfl
    · rw [h.old n hlt] at hp ⊢
      exact hk.deaf n hlt hp
  · intro n hn
    rcases h.cases hn with rfl | hlt
    · rw [h.fresh]
      exact .inr h.link
    · rw [Proxy.Returned, h.old n hlt]
      by_cases hj : (e.relays n).owner = j
      · exact .inl (hret n hlt hj)
      · rw [h.other _ hj]
        exact hk.latest n hlt
  · intro k n hn
    rw [h.reserved]
    by_cases hkj : k = j
    · subst hkj
      rw [h.link] at hn
      cases hn
      rw [h.fresh]
      exact ⟨Nat.lt_succ_self _, rfl⟩
    · rw [h.other k hkj] at hn
      obtain ⟨hlt, ho⟩ := hk.linked k n hn
      rw [h.old n hlt]
      exact ⟨by omega, ho⟩

end Reserves

structure Binding (j : Nat) (port : Int) (n : Nat) (e : Proxy) : Prop where
  reserved : n < e.reserved
  owner : (e.relays n).owner = j
  port : (e.relays n).port = port
  phase : (e.relays n).phase = .binding
  link : (e.links j).relay = some n

theorem Binding.stable {j n : Nat} {port : Int} {e e' : Proxy} (h : Binding j port n e)
    (hr : PortRely j e e') : Binding j port n e' where
  reserved := Nat.lt_of_lt_of_le h.reserved hr.grows
  owner := (hr.owner n h.reserved).trans h.owner
  port := (hr.port n h.reserved).trans h.port
  phase := hr.binding n h.reserved h.owner h.phase
  link := hr.relay.trans h.link

theorem Binding.unreleased {j n : Nat} {port : Int} {e : Proxy} (h : Binding j port n e)
    (hk : PortsKept e) : (e.relays n).released = 0 :=
  hk.live n h.reserved (by simp [h.phase]) (by simp [h.phase])

theorem Reserves.binding {j : Nat} {port : Int} {free : List Int} {e e' : Proxy}
    (h : Reserves j port free e e') : Binding j port e.reserved e' where
  reserved := h.reserved ▸ Nat.lt_succ_self _
  owner := by rw [h.fresh]; rfl
  port := by rw [h.fresh]; rfl
  phase := by rw [h.fresh]; rfl
  link := h.link

namespace Binding

variable {j n : Nat} {port : Int} {e : Proxy}

theorem unbind (h : Binding j port n e) (hl : (e.relays n).listening = false) (hk : PortsKept e) :
    PortsKept (e.unbind j port) ∧ (e.unbind j port).Returned n ∧ (e.unbind j port).reserved = e.reserved ∧
      (∀ m, m ≠ n → (e.unbind j port).relays m = e.relays m) ∧
      ((e.unbind j port).relays n).owner = j ∧ ∀ k, k ≠ j → PortRely k e (e.unbind j port) := by
  have hr := h.unreleased hk
  have hx : Relay.Returned { e.relays n with phase := .unbound, released := (e.relays n).released + 1 } :=
    ⟨congrArg (· + 1) hr, hl⟩
  have he : e.unbind j port = e.settle n
      { e.relays n with phase := .unbound, released := (e.relays n).released + 1 }
      (e.pool.release port) := by
    simp only [Proxy.unbind, h.link]
    rfl
  rw [he]
  refine ⟨?_, ?_, rfl, fun m hm => settle_other _ _ hm, ?_, fun k hk => ?_⟩
  · have hreturn := kept_return
      (x := { e.relays n with phase := .unbound, released := (e.relays n).released + 1 })
      hk h.reserved rfl rfl hr hx (.inr rfl)
    rwa [h.port] at hreturn
  · rw [Proxy.Returned, settle_self]
    exact hx
  · rw [settle_self]
    exact h.owner
  · refine settle_rely _ rfl rfl (fun _ => hx) (fun ho => absurd (ho.symm.trans h.owner) hk) (fun hp => ?_)
    rw [h.phase] at hp
    cases hp

theorem move {x : Relay} (h : Binding j port n e) (hk : PortsKept e)
    (ho : x.owner = (e.relays n).owner) (hp : x.port = (e.relays n).port)
    (hr : x.released = (e.relays n).released) (hph : x.phase = .binding ∨ x.phase = .created) :
    PortsKept (e.setRelay n x) ∧ ∀ k, k ≠ j → PortRely k e (e.setRelay n x) := by
  have hrel := h.unreleased hk
  refine ⟨?_, fun k hkj => ?_⟩
  · refine kept_move hk h.reserved ho hp hrel (hr.trans hrel) ?_ ?_ ?_
    all_goals rcases hph with hph | hph <;> rw [hph] <;> simp [Phase.tearingDown]
  · refine settle_rely e.pool ho hp (fun hret => ?_) (fun hko => ?_) (fun hover => ?_)
    · have h1 := hret.1
      rw [hrel] at h1
      cases h1
    · exact absurd (hko.symm.trans h.owner) hkj
    · rw [h.phase] at hover
      cases hover

end Binding

theorem superviseTurn_kept {e e' : Proxy} {n : Nat} {timedOut : Bool} (hk : PortsKept e)
    (hfresh : n < e.reserved → ¬ ((e.relays n).phase = .created ∧ (e.relays n).mustCancel = true))
    (h : e.superviseTurn n timedOut = some e') : PortsKept e' ∧ ∀ k, PortRely k e e' := by
  unfold superviseTurn at h
  split at h
  · next hn =>
      obtain ⟨x, hx, rfl⟩ := Option.map_eq_some_iff.mp h
      obtain ⟨hon, hphase⟩ := Relay.supervise_onward (hfresh hn) (hk.deaf n hn) hx
      have hrel : (e.relays n).released = 0 := by
        refine hk.live n hn (fun hp => ?_) (fun hp => ?_)
        all_goals
          rw [hp] at hphase
          simp [Phase.waiting, Phase.tearingDown] at hphase
      have hbound : (e.relays n).phase ≠ .binding := by
        intro hp
        rw [hp] at hphase
        simp [Phase.waiting, Phase.tearingDown] at hphase
      have hrest : ∀ pool, (e.Returned n → x.Returned) ∧ ∀ k, PortRely k e (e.settle n x pool) := by
        intro pool
        have hret : e.Returned n → x.Returned := by
          intro hret
          have h1 := hret.1
          rw [hrel] at h1
          cases h1
        refine ⟨hret, fun k => settle_rely pool hon.owner hon.port hret ?_ ?_⟩
        · exact fun _ hp => absurd hp hbound
        · intro hp
          rw [hp] at hphase
          simp [Phase.waiting, Phase.tearingDown] at hphase
      rcases hon.place with ⟨hover, hone, hl⟩ | ⟨htear, hsame, hl⟩ | ⟨hwait, _, hsame, _⟩
      · rw [if_pos (by omega)]
        exact ⟨kept_return hk hn hon.owner hon.port hrel ⟨by omega, hl⟩ (.inl hover), (hrest _).2⟩
      · rw [if_neg (by omega)]
        refine ⟨kept_move hk hn hon.owner hon.port hrel (by omega) ?_ ?_ (fun _ => hl), (hrest _).2⟩
        all_goals
          intro hp
          rw [hp] at htear
          cases htear
      · rw [if_neg (by omega)]
        refine ⟨kept_move hk hn hon.owner hon.port hrel (by omega) ?_ ?_ ?_, (hrest _).2⟩
        · intro hp
          rw [hp] at hwait
          cases hwait
        · intro hp
          rw [hp] at hwait
          cases hwait
        · intro ht
          cases hp : x.phase <;> simp [hp, Phase.waiting, Phase.tearingDown] at hwait ht
  · cases h

theorem onRelay_ports {e e' : Proxy} {n : Nat} {x : Option Relay}
    (hx : ∀ y, x = some y → (e.relays n).Alike y) (h : e.onRelay n x = some e') : SamePorts e e' := by
  unfold onRelay at h
  split at h
  · obtain ⟨y, hy, rfl⟩ := Option.map_eq_some_iff.mp h
    exact .setRelay (hx y hy)
  · cases h

theorem tick_ports {b : Tick} {e e' : Proxy} (hk : PortsKept e)
    (hfresh : ∀ n, n < e.reserved → ¬ ((e.relays n).phase = .created ∧ (e.relays n).mustCancel = true))
    (h : e.tick b = some e') : PortsKept e' ∧ ∀ k, PortRely k e e' := by
  have hsame : SamePorts e e' → PortsKept e' ∧ ∀ k, PortRely k e e' := fun hs => ⟨hs.kept hk, hs.rely⟩
  have hqueue : ∀ a, ((e.queue.step a).map fun x => { e with queue := x }) = some e' →
      PortsKept e' ∧ ∀ k, PortRely k e e' := by
    intro a ha
    obtain ⟨x, _, rfl⟩ := Option.map_eq_some_iff.mp ha
    exact hsame ⟨rfl, rfl, fun _ => rfl, fun _ => .refl _⟩
  cases b with
  | acquireStart c => exact hqueue _ h
  | acquireResume c => exact hqueue _ h
  | acquireCancel c => exact hqueue _ h
  | stop => cases h; exact hsame ⟨rfl, rfl, fun _ => rfl, fun _ => .refl _⟩
  | elapse d =>
      simp only [Proxy.tick] at h
      split at h
      · cases h; exact hsame ⟨rfl, rfl, fun _ => rfl, fun _ => .refl _⟩
      · cases h
  | arrive j r => cases h; exact hsame (.ofRelays (.setLink (fun _ => rfl)))
  | clientFlow j f => cases h; exact hsame (.ofRelays (.setLink (fun _ => rfl)))
  | upstreamFlow j f => cases h; exact hsame (.ofRelays (.setLink (fun _ => rfl)))
  | gone j =>
      obtain ⟨g, _, rfl⟩ := Option.map_eq_some_iff.mp h
      exact hsame (.ofRelays (.setLink (fun _ => rfl)))
  | reply j outcome =>
      simp only [Proxy.tick] at h
      split at h <;> cases h
      · exact hsame (.ofRelays (.setLink (fun _ => rfl)))
      · exact hsame (.ofRelays (.setLink (fun _ => rfl)))
  | supervise n timedOut => exact superviseTurn_kept hk (hfresh n) h
  | cancelSupervise n =>
      refine hsame (onRelay_ports (fun y hy => ?_) h)
      cases hy
      exact Relay.cancel_alike _
  | connect n => exact hsame (onRelay_ports (fun _ => Relay.connect_alike) h)
  | accept n stranger => exact hsame (onRelay_ports (fun _ => Relay.accept_alike) h)
  | handle n moved =>
      obtain ⟨e₁, he, rfl⟩ := Option.map_eq_some_iff.mp h
      refine hsame ((onRelay_ports (fun _ => Relay.handle_alike) he).trans ?_)
      split
      · exact .ofRelays (.setLink (fun _ => rfl))
      · exact .refl _
  | disconnect n => exact hsame (onRelay_ports (fun _ => Relay.disconnect_alike) h)

end Proxy

end PandaProxy.FtpProxy
