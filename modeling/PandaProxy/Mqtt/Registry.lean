import PandaProxy.Mqtt.Broadcast

namespace PandaProxy.Mqtt

open Async Json Python

def MqttSettings.Lawful (cfg : MqttSettings) : Prop := ∀ address mapped, cfg.mapped address = some mapped → IpAddress.isIpv4 mapped = true

namespace MQTTProxy

theorem isIpv4_ne_empty {address : String} (h : IpAddress.isIpv4 address = true) : address ≠ "" := by
  rintro rfl
  have hempty : IpAddress.isIpv4 "" = false := by
    decide +kernel
  rw [hempty] at h
  cases h

theorem advertisedAddress_ipv4 {cfg : MqttSettings} {sockname : Option String} {advertised : String} (hcfg : cfg.Lawful)
    (h : advertisedAddress cfg sockname = some advertised) : IpAddress.isIpv4 advertised = true := by
  obtain ⟨raw, _, h⟩ := Option.bind_eq_some_iff.mp h
  split at h
  · cases h
  · unfold asIpv4 at h
    split at h
    · next hipv4 =>
        cases h
        exact hipv4
    · exact hcfg _ _ h

-- The three dictionaries name the same clients, each under its own id.
structure Registry (s : MQTTProxy) : Prop where
  keys : (s.clients.map Prod.fst).Nodup
  accepted : ∀ id c, Dict.get s.clients id = some c → c < s.accepted
  named : ∀ id c, Dict.get s.clients id = some c → (s.conn c).clientId = id
  addressed : ∀ id c, Dict.get s.clients id = some c → Dict.get s.clientIps id = some (s.conn c).advertised
  writable : ∀ id c, Dict.get s.clients id = some c → Dict.get s.clientWriters id = some c

structure Shrinks (s s' : MQTTProxy) : Prop where
  accepted : s'.accepted = s.accepted
  clientId : ∀ c, (s'.conn c).clientId = (s.conn c).clientId
  advertised : ∀ c, (s'.conn c).advertised = (s.conn c).advertised
  keys : (s.clients.map Prod.fst).Nodup → (s'.clients.map Prod.fst).Nodup
  registry : ∀ id, (Dict.get s'.clients id = Dict.get s.clients id ∧ Dict.get s'.clientIps id = Dict.get s.clientIps id ∧
      Dict.get s'.clientWriters id = Dict.get s.clientWriters id) ∨ Dict.get s'.clients id = none

variable {s s' : MQTTProxy}

theorem Delivers.shrinks {P : Nat → Publish → Prop} (h : Delivers P s s') : Shrinks s s' :=
  ⟨h.accepted, h.clientId, h.advertised, h.keys, fun id => (h.registry id).imp_right fun hn => hn.1⟩

theorem Shrinks.same (haccepted : s'.accepted = s.accepted) (hid : ∀ c, (s'.conn c).clientId = (s.conn c).clientId)
    (hadvertised : ∀ c, (s'.conn c).advertised = (s.conn c).advertised) (hclients : s'.clients = s.clients)
    (hips : s'.clientIps = s.clientIps) (hwriters : s'.clientWriters = s.clientWriters) : Shrinks s s' :=
  ⟨haccepted, hid, hadvertised, fun hkeys => hclients ▸ hkeys, fun _ => .inl ⟨by rw [hclients], by rw [hips], by rw [hwriters]⟩⟩

theorem Shrinks.registered {id : String} {c : Nat} (h : Shrinks s s') (hc : Dict.get s'.clients id = some c) :
    Dict.get s.clients id = some c := by
  rcases h.registry id with ⟨hclients, _⟩ | hnone
  · rwa [hclients] at hc
  · rw [hnone] at hc
    cases hc

theorem Registry.shrinks (h : Registry s) (hs : Shrinks s s') : Registry s' where
  keys := hs.keys h.keys
  accepted id c hc := by
    rw [hs.accepted]
    exact h.accepted id c (hs.registered hc)
  named id c hc := (hs.clientId c).trans (h.named id c (hs.registered hc))
  addressed id c hc := by
    rcases hs.registry id with ⟨_, hips, _⟩ | hnone
    · rw [hips, hs.advertised]
      exact h.addressed id c (hs.registered hc)
    · rw [hnone] at hc
      cases hc
  writable id c hc := by
    rcases hs.registry id with ⟨_, _, hwriters⟩ | hnone
    · rw [hwriters]
      exact h.writable id c (hs.registered hc)
    · rw [hnone] at hc
      cases hc

theorem Shrinks.forget (s : MQTTProxy) (id : String) : Shrinks s (s.forget id) := by
  refine ⟨rfl, fun _ => rfl, fun _ => rfl, Dict.keys_pop_nodup, fun id' => ?_⟩
  by_cases hid : id' = id
  · subst hid
    exact .inr Dict.get_pop_self
  · exact .inl ⟨Dict.get_pop_ne hid, Dict.get_pop_ne hid, Dict.get_pop_ne hid⟩

theorem Shrinks.trans {s'' : MQTTProxy} (h : Shrinks s s') (h' : Shrinks s' s'') : Shrinks s s'' where
  accepted := h'.accepted.trans h.accepted
  clientId c := (h'.clientId c).trans (h.clientId c)
  advertised c := (h'.advertised c).trans (h.advertised c)
  keys hkeys := h'.keys (h.keys hkeys)
  registry id := by
    rcases h'.registry id with ⟨hc', hi', hw'⟩ | hn'
    · rcases h.registry id with ⟨hc, hi, hw⟩ | hn
      · exact .inl ⟨hc'.trans hc, hi'.trans hi, hw'.trans hw⟩
      · exact .inr (hc'.trans hn)
    · exact .inr hn'

theorem takenIn_same (cfg : MqttSettings) (J : Codec) (s : MQTTProxy) (topic : String) (payload : List UInt8) :
    ∃ cache primed reports, takenIn cfg J s topic payload =
      { s with stateCache := cache, cachePrimed := primed, reports := reports } := by
  unfold takenIn
  split
  · rcases cacheReport_cases J s payload with ⟨x, cache, _, h⟩ | ⟨_, cache, _, _, primed, h, _⟩
    · exact ⟨cache, s.cachePrimed, s.reports, by rw [h]⟩
    · exact ⟨cache, primed, payload :: s.reports, by rw [h]⟩
  · exact ⟨s.stateCache, s.cachePrimed, s.reports, rfl⟩

theorem takenIn_shrinks (cfg : MqttSettings) (J : Codec) (s : MQTTProxy) (topic : String) (payload : List UInt8) :
    Shrinks s (takenIn cfg J s topic payload) := by
  obtain ⟨cache, primed, reports, h⟩ := takenIn_same cfg J s topic payload
  rw [h]
  exact .same rfl (fun _ => rfl) (fun _ => rfl) rfl rfl rfl

theorem handleMessage_shrinks (cfg : MqttSettings) (J : Codec) (s : MQTTProxy) (topic : String) (payload : List UInt8) :
    Shrinks s (handleMessage cfg J s topic payload) := by
  refine (takenIn_shrinks cfg J s topic payload).trans ?_
  rcases handleMessage_cases cfg J s topic payload with h | ⟨personalised, h, _⟩
  · rw [h]
    exact .same rfl (fun _ => rfl) (fun _ => rfl) rfl rfl rfl
  · rw [h]
    exact (relay_delivers (P := fun _ _ => True) _ fun _ _ _ => trivial).1.shrinks

theorem Registry.register (cfg : MqttSettings) (id : String) (sockname : Option String) (h : Registry s) :
    Registry (register cfg s id sockname) := by
  unfold MQTTProxy.register
  split
  · exact h.shrinks (.forget s id)
  · next advertised _ =>
      have hold : ∀ {c}, c < s.accepted → c ≠ s.accepted := fun h => Nat.ne_of_lt h
      refine ⟨Dict.keys_set_nodup h.keys, ?_, ?_, ?_, ?_⟩
      · intro id' c hc
        by_cases hid : id' = id
        · subst hid
          rw [Dict.get_set_self] at hc
          cases hc
          exact Nat.lt_succ_self _
        · rw [Dict.get_set_ne hid] at hc
          exact (h.accepted id' c hc).trans (Nat.lt_succ_self _)
      · intro id' c hc
        by_cases hid : id' = id
        · subst hid
          rw [Dict.get_set_self] at hc
          cases hc
          simp
        · rw [Dict.get_set_ne hid] at hc
          simp [hold (h.accepted id' c hc), h.named id' c hc]
      · intro id' c hc
        by_cases hid : id' = id
        · subst hid
          rw [Dict.get_set_self] at hc
          cases hc
          simp [Dict.get_set_self]
        · rw [Dict.get_set_ne hid] at hc
          simp [Dict.get_set_ne hid, hold (h.accepted id' c hc), h.addressed id' c hc]
      · intro id' c hc
        by_cases hid : id' = id
        · subst hid
          rw [Dict.get_set_self] at hc ⊢
          exact hc
        · rw [Dict.get_set_ne hid] at hc ⊢
          exact h.writable id' c hc

theorem setConn_shrinks {c : Nat} {f : Client → Client} (hid : ∀ x, (f x).clientId = x.clientId)
    (hadvertised : ∀ x, (f x).advertised = x.advertised) : Shrinks s (s.setConn c f) :=
  .same rfl (fun _ => setConn_same _ hid) (fun _ => setConn_same _ hadvertised) rfl rfl rfl

theorem step_shrinks {cfg : MqttSettings} {J : Codec} {a : Act} (hstep : step cfg J s a = some s')
    (ha : ∀ id sockname, a ≠ .register id sockname) : Shrinks s s' := by
  have hplain : ∀ {s' : MQTTProxy}, s'.accepted = s.accepted → s'.conn = s.conn → s'.clients = s.clients →
      s'.clientIps = s.clientIps → s'.clientWriters = s.clientWriters → Shrinks s s' :=
    fun haccepted hconn => .same haccepted (fun c => by rw [hconn]) (fun c => by rw [hconn])
  cases step_cases hstep with
  | register => exact absurd rfl (ha _ _)
  | message _ => exact handleMessage_shrinks cfg J s _ _
  | hungUp _ => exact (relay_delivers (P := fun _ _ => True) _ fun _ _ _ => trivial).1.shrinks
  | replay _ _ _ => exact (replay_delivers (P := fun _ _ => True) _ _ fun _ _ => trivial).1.shrinks
  | replayHungUp _ => exact (replay_delivers (P := fun _ _ => True) _ _ fun _ _ => trivial).1.shrinks
  | send _ _ => exact setConn_shrinks (fun _ => rfl) (fun _ => rfl)
  | finish _ => exact setConn_shrinks (fun _ => rfl) (fun _ => rfl)
  | leave _ => exact (Shrinks.forget s _).trans (setConn_shrinks (fun _ => rfl) (fun _ => rfl))
  | _ => exact hplain rfl rfl rfl rfl rfl

theorem Registry.step {cfg : MqttSettings} {J : Codec} {a : Act} (h : Registry s)
    (hstep : step cfg J s a = some s') : Registry s' := by
  by_cases ha : ∃ id sockname, a = .register id sockname
  · obtain ⟨id, sockname, rfl⟩ := ha
    cases hstep
    exact h.register cfg id sockname
  · exact h.shrinks (step_shrinks hstep fun id sockname he => ha ⟨id, sockname, he⟩)

theorem Registry.init : Registry init where
  keys := List.nodup_nil
  accepted _ _ h := nomatch h
  named _ _ h := nomatch h
  addressed _ _ h := nomatch h
  writable _ _ h := nomatch h

def Addressed (s : MQTTProxy) : Prop := ∀ c < s.accepted, IpAddress.isIpv4 (s.conn c).advertised = true

theorem Addressed.step {cfg : MqttSettings} {J : Codec} {a : Act} (hcfg : cfg.Lawful) (h : Addressed s)
    (hstep : step cfg J s a = some s') : Addressed s' := by
  by_cases ha : ∃ id sockname, a = .register id sockname
  · obtain ⟨id, sockname, rfl⟩ := ha
    cases hstep
    unfold MQTTProxy.register
    split
    · exact h
    · next advertised hadvertised =>
        intro c hc
        by_cases hcn : c = s.accepted
        · subst hcn
          simpa using advertisedAddress_ipv4 hcfg hadvertised
        · simpa [hcn] using h c (by have : c < s.accepted + 1 := hc; omega)
  · have hs := step_shrinks hstep fun id sockname he => ha ⟨id, sockname, he⟩
    intro c hc
    rw [hs.advertised]
    exact h c (hs.accepted ▸ hc)

end MQTTProxy

end PandaProxy.Mqtt
