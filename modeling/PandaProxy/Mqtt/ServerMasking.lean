import PandaProxy.Mqtt.HandlerCleanup
import PandaProxy.Mqtt.ReportedAddress

namespace PandaProxy.Mqtt

open Async Json Python

open MQTTProxy (Discretion Discreet)

namespace Server

variable {cfg : ServerSettings} {J : Codec} {e e' : Server} {j k : Nat}

theorem Change.peer {v : Option (Nat × Event)} (h : Change cfg J v e e') (k : Nat) : (e'.links k).peer = (e.links k).peer := by
  cases h with
  | quiet h => exact (h.links k).peer
  | read _ => exact (note_same Link.peer fun _ _ => rfl).trans (setLink_same Link.peer fun _ => rfl)
  | wrote => exact (note_same Link.peer fun _ _ => rfl).trans (put_same Link.peer fun _ _ => rfl)
  | @joined _ i _ _ =>
      refine (note_same Link.peer fun _ _ => rfl).trans ?_
      have hact := act_links cfg J e (.register (e.links i).peer.clientId (e.links i).peer.sockname)
      rw [← hact]
      exact setLink_same Link.peer fun _ => rfl
  | refused _ => rw [act_links]
  | handed => exact note_same Link.peer fun _ _ => rfl
  | snapshot =>
      refine (note_same Link.peer fun _ _ => rfl).trans ?_
      rw [onClient_links]
  | departs _ h =>
      rw [(h.links k).peer, onClient_links]
  | closed => exact setLink_same Link.peer fun _ => rfl
  | received => exact setLink_same Link.peer fun _ => rfl
  | sent _ _ _ => exact put_same Link.peer fun _ _ => rfl
  | relayed _ _ h => exact (h.links k).peer

structure Calm (cfg : ServerSettings) (J : Codec) (e e' : Server) : Prop where
  acts : e'.proxy = e.proxy ∨ ∃ a, MQTTProxy.step cfg.toMqttSettings J e.proxy a = some e'.proxy ∧
    (∀ id sockname, a ≠ .register id sockname) ∧ Discreet cfg.toMqttSettings J e.proxy a
  client : ∀ k, (e'.links k).client = (e.links k).client
  closed : ∀ k, (e.links k).closed = true → (e'.links k).closed = true
  peer : ∀ k, (e'.links k).peer = (e.links k).peer

def guileless : MQTTProxy.Act → Bool
  | .message _ _ | .replay _ | .register _ _ => false
  | _ => true

theorem discreet_of_guileless {cfg : MqttSettings} {s : MQTTProxy} {a : MQTTProxy.Act} (h : guileless a = true) :
    (∀ id sockname, a ≠ .register id sockname) ∧ Discreet cfg J s a := by
  refine ⟨?_, ⟨?_, ?_, ?_, ?_⟩⟩
  · rintro _ _ rfl
    cases h
  · rintro _ _ rfl
    cases h
  · rintro _ _ rfl
    cases h
  · rintro _ _ _ rfl
    cases h
  · rintro _ _ rfl
    cases h

theorem Calm.same (hproxy : e'.proxy = e.proxy) (hmoves : ∀ k, (e.footing k).Moves (e'.footing k))
    (hpeer : ∀ k, (e'.links k).peer = (e.links k).peer) : Calm cfg J e e' :=
  ⟨.inl hproxy, fun k => (hmoves k).client, fun k hk => (hmoves k).closed.trans hk, hpeer⟩

theorem onClient_acts (cfg : ServerSettings) (J : Codec) (e : Server) (j : Nat) (a : Nat → MQTTProxy.Act) :
    (e.onClient cfg J j a).proxy = e.proxy ∨
      ∃ c, MQTTProxy.step cfg.toMqttSettings J e.proxy (a c) = some (e.onClient cfg J j a).proxy := by
  unfold onClient
  split
  · next c _ =>
      unfold act
      split
      · next proxy hstep => exact .inr ⟨c, hstep⟩
      · exact .inl rfl
  · exact .inl rfl

theorem onClient_calm {a : Nat → MQTTProxy.Act} (ha : ∀ c, guileless (a c) = true) :
    Calm cfg J e (e.onClient cfg J j a) := by
  refine ⟨?_, fun k => ?_, fun k hk => ?_, fun k => ?_⟩
  · refine (onClient_acts cfg J e j a).imp_right ?_
    rintro ⟨c, hstep⟩
    exact ⟨a c, hstep, discreet_of_guileless (ha c)⟩
  · rw [onClient_links]
  · rw [onClient_links]
    exact hk
  · rw [onClient_links]

theorem sync_proxy {i : Op} {r : Except Exc i.Answer} (hi : treads i = false) (hsnapshot : i ≠ .createSnapshotTask)
    (h : sync cfg J j i e = some (r, e')) : e'.proxy = e.proxy := by
  cases i with
  | register | acquireLock | lockGranted | releaseLock | cancelPending | unregister | close => cases hi
  | createSnapshotTask => exact absurd rfl hsnapshot
  | readPacket timeout =>
      simp only [sync] at h
      repeat' split at h
      all_goals first
      | cases h; rfl
      | cases h
  | write data =>
      cases h
      exact put_proxy e j _
  | publish client topic payload qos =>
      simp only [sync, publish, Option.some.injEq] at h
      split at h <;> cases h <;> rfl
  | drain =>
      simp only [sync] at h
      split at h <;> cases h <;> rfl
  | running | upstreamConnected | upstreamClient | abort =>
      cases h
      rfl
  | waitUpstream | confirmed | gatherPending | waitClosed => cases h

theorem sync_calm {i : Op} {r : Except Exc i.Answer} (hi : i ≠ .register)
    (h : sync cfg J j i e = some (r, e')) : Calm cfg J e e' := by
  have hpeer := (sync_change h).peer
  cases i with
  | register => exact absurd rfl hi
  | acquireLock =>
      cases h
      exact ⟨.inl rfl, fun _ => rfl, fun _ => id, hpeer⟩
  | releaseLock =>
      cases h
      exact ⟨.inl rfl, fun _ => rfl, fun _ => id, hpeer⟩
  | lockGranted => cases h
  | cancelPending =>
      cases h
      unfold cancelPending
      split
      · exact onClient_calm fun _ => rfl
      · exact ⟨.inl rfl, fun _ => rfl, fun _ => id, fun _ => rfl⟩
  | unregister =>
      cases h
      exact onClient_calm fun _ => rfl
  | close =>
      cases h
      refine ⟨.inl rfl, fun k => setLink_same Link.client fun _ => rfl, fun k hk => ?_, hpeer⟩
      by_cases hkj : k = j
      · subst hkj
        simp [setLink]
      · simpa [setLink, hkj] using hk
  | createSnapshotTask =>
      have hmoves := fun k => (sync_same h rfl k).moves
      cases h
      refine ⟨?_, fun k => (hmoves k).client, fun k hk => (hmoves k).closed.trans hk, hpeer⟩
      refine (onClient_acts cfg J e j .subscribe).imp_right ?_
      rintro ⟨c, hstep⟩
      exact ⟨.subscribe c, hstep, discreet_of_guileless rfl⟩
  | _ => exact .same (sync_proxy rfl (by rintro ⟨⟩) h) (fun k => (sync_same h rfl k).moves) hpeer

theorem resume_proxy {i : Op} {r : Except Exc i.Answer} (h : resume j i r e = some e') : e'.proxy = e.proxy := by
  unfold resume at h
  split at h
  · split at h <;> cases h
    rfl
  · unfold awaken at h
    split at h
    · split at h
      · split at h <;> cases h
        rfl
      · cases h
    all_goals
      repeat' split at h
    all_goals
      first
      | cases h; rfl
      | obtain ⟨l, _, rfl⟩ := Option.map_eq_some_iff.mp h
        rfl
      | cases h

theorem resume_calm {i : Op} {r : Except Exc i.Answer} (hready : (e.footing j).Ready i)
    (h : resume j i r e = some e') : Calm cfg J e e' := by
  have hchange : Change cfg J _ e e' := resume_change h
  have hsame : ∀ k, (e'.links k).client = (e.links k).client ∧ (e'.links k).closed = (e.links k).closed := by
    intro k
    by_cases hi : i = .lockGranted
    · subst hi
      by_cases hk : k = j
      · subst hk
        have hfooting := resume_footing (fun hne => absurd rfl hne) ⟨e, (rfl : sync cfg J k .lockGranted e = none)⟩ h
        refine ⟨(congrArg Footing.client hfooting).trans ?_, (congrArg Footing.closed hfooting).trans ?_⟩
        · cases r <;> rfl
        · cases r <;> rfl
      · exact ⟨(resume_others h hk).client, (resume_others h hk).closed⟩
    · have hsame := resume_same h hi k (ready_treads hready hi)
      exact ⟨hsame.client, hsame.closed⟩
  exact ⟨.inl (resume_proxy h), fun k => (hsame k).1, fun k hk => (hsame k).2.trans hk, hchange.peer⟩

theorem tick_calm {b : Tick} (hdiscreet : ∀ a, b = .printer a → Discreet cfg.toMqttSettings J e.proxy a)
    (h : e.tick cfg J b = some e') : Calm cfg J e e' := by
  refine ⟨?_, fun k => (tick_moves h k).client, fun k hk => (tick_moves h k).closed.trans hk, (tick_change h).peer⟩
  have hact : ∀ {a proxy}, MQTTProxy.step cfg.toMqttSettings J e.proxy a = some proxy → guileless a = true → proxy = e.proxy ∨
      ∃ a, MQTTProxy.step cfg.toMqttSettings J e.proxy a = some proxy ∧ (∀ id sockname, a ≠ .register id sockname) ∧
        Discreet cfg.toMqttSettings J e.proxy a :=
    fun hstep ha => .inr ⟨_, hstep, discreet_of_guileless ha⟩
  cases b with
  | receive m data =>
      simp only [tick] at h
      split at h <;> cases h
      exact .inl rfl
  | send m =>
      simp only [tick] at h
      split at h
      · split at h
        · obtain ⟨proxy, hstep, rfl⟩ := Option.map_eq_some_iff.mp h
          exact hact hstep rfl
        · cases h
      · cases h
  | sendEnds m =>
      simp only [tick] at h
      split at h
      · obtain ⟨proxy, hstep, rfl⟩ := Option.map_eq_some_iff.mp h
        exact hact hstep rfl
      · cases h
  | connect =>
      simp only [tick] at h
      split at h
      · obtain ⟨proxy, hstep, rfl⟩ := Option.map_eq_some_iff.mp h
        exact hact hstep rfl
      · cases h
  | lose =>
      obtain ⟨proxy, hstep, rfl⟩ := Option.map_eq_some_iff.mp h
      exact hact hstep rfl
  | printer a =>
      simp only [tick] at h
      split at h
      · next ha =>
          obtain ⟨proxy, hstep, rfl⟩ := Option.map_eq_some_iff.mp h
          refine .inr ⟨a, hstep, ?_, hdiscreet a rfl⟩
          rintro id sockname rfl
          cases ha
      · cases h
  | hangUp | flow | cancel | refusal | request | drop | stop =>
      cases h
      exact .inl rfl
  | grant r =>
      obtain ⟨lock, _, rfl⟩ := Option.map_eq_some_iff.mp h
      exact .inl rfl
  | breaks | dial | attach | subscribed | detach | release =>
      simp only [tick] at h
      split at h <;> cases h
      exact .inl rfl

end Server

namespace MQTTProxy

theorem step_over {cfg : MqttSettings} {J : Codec} {s s' : MQTTProxy} {a : Act} (hstep : step cfg J s a = some s')
    (ha : ∀ id sockname, a ≠ .register id sockname) {c : Nat} (hover : (s.conn c).stage = .over) : (s'.conn c).stage = .over := by
  have hsame : stages a = false → (s'.conn c).stage = .over := fun hstages => ((step_stages hstep hstages).stage c).trans hover
  cases step_cases hstep with
  | register => exact absurd rfl (ha _ _)
  | @finish c' hstage =>
      have hne : c ≠ c' := by
        rintro rfl
        cases hstage.symm.trans hover
      simpa [setConn, hne] using hover
  | @leave c' hstage =>
      have hne : c ≠ c' := by
        rintro rfl
        cases hstage.symm.trans hover
      simpa [setConn, forget, hne] using hover
  | _ => exact hsame rfl

end MQTTProxy

namespace Server

variable {cfg : ServerSettings} {J : Codec} {e e' : Server} {j k : Nat} {taken : Nat → Prop}

structure Masking (cfg : ServerSettings) (J : Codec) (taken : Nat → Prop) (e : Server) : Prop where
  discretion : Discretion J e.proxy
  named : ∀ k c, (e.links k).client = some c → (e.proxy.conn c).clientId = (e.links k).peer.clientId
  advertised : ∀ k c, (e.links k).client = some c →
    MQTTProxy.advertisedAddress cfg.toMqttSettings (e.links k).peer.sockname = some (e.proxy.conn c).advertised
  owned : ∀ c < e.proxy.accepted, ∃ k, (e.links k).client = some c
  unborn : ∀ c, e.proxy.accepted ≤ c → (e.proxy.conn c).stage = .over
  begun : ∀ k c, (e.links k).client = some c → taken k
  apart : ∀ j k, taken j → taken k → (e.links j).closed = false → (e.links k).closed = false →
    (e.links j).peer.clientId = (e.links k).peer.clientId → j = k

theorem Masking.calm (hJ : J.Lawful) (hcfg : cfg.toMqttSettings.Lawful) (h : Masking cfg J taken e)
    (hcalm : Calm cfg J e e') : Masking cfg J taken e' := by
  have hproxy : Discretion J e'.proxy ∧ e'.proxy.accepted = e.proxy.accepted ∧
      (∀ c, (e'.proxy.conn c).clientId = (e.proxy.conn c).clientId ∧ (e'.proxy.conn c).advertised = (e.proxy.conn c).advertised) ∧
      ∀ c, (e.proxy.conn c).stage = .over → (e'.proxy.conn c).stage = .over := by
    rcases hcalm.acts with hsame | ⟨a, hstep, hregister, hdiscreet⟩
    · rw [hsame]
      exact ⟨h.discretion, rfl, fun _ => ⟨rfl, rfl⟩, fun _ => id⟩
    · have hshrinks := MQTTProxy.step_shrinks hstep hregister
      exact ⟨h.discretion.step hJ hcfg hstep hdiscreet, hshrinks.accepted, fun c => ⟨hshrinks.clientId c, hshrinks.advertised c⟩,
        fun c => MQTTProxy.step_over hstep hregister⟩
  obtain ⟨hdiscretion, haccepted, hconn, hover⟩ := hproxy
  have hopen : ∀ k, (e'.links k).closed = false → (e.links k).closed = false := by
    intro k hk
    cases hclosed : (e.links k).closed with
    | false => rfl
    | true => cases hk.symm.trans (hcalm.closed k hclosed)
  refine ⟨hdiscretion, fun k c hc => ?_, fun k c hc => ?_, fun c hc => ?_, fun c hc => ?_, fun k c hc => ?_,
    fun i k hi hk hi' hk' hid => ?_⟩
  · rw [(hconn c).1, hcalm.peer k]
    exact h.named k c (hcalm.client k ▸ hc)
  · rw [(hconn c).2, hcalm.peer k]
    exact h.advertised k c (hcalm.client k ▸ hc)
  · obtain ⟨k, hk⟩ := h.owned c (haccepted ▸ hc)
    exact ⟨k, (hcalm.client k).trans hk⟩
  · exact hover c (h.unborn c (haccepted ▸ hc))
  · exact h.begun k c (hcalm.client k ▸ hc)
  · rw [hcalm.peer i, hcalm.peer k] at hid
    exact h.apart i k hi hk (hopen i hi') (hopen k hk') hid

theorem Masking.unnamed (h : Masking cfg J taken e) (hsorted : Sorted e) (hfresh : (e.footing j).Fresh) (hj : taken j)
    (c : Nat) (hstage : (e.proxy.conn c).stage ≠ .over) : (e.proxy.conn c).clientId ≠ (e.links j).peer.clientId := by
  intro hid
  have hborn : c < e.proxy.accepted := by
    by_contra hunborn
    exact hstage (h.unborn c (Nat.le_of_not_lt hunborn))
  obtain ⟨k, hk⟩ := h.owned c hborn
  have hfooting : (e.footing k).stage = some (e.proxy.conn c).stage := by
    rw [footing, hk]
    rfl
  have hopen : (e.links k).closed = false := by
    cases hclosed : (e.links k).closed with
    | false => rfl
    | true => exact absurd (hsorted.closed k hclosed _ hfooting) hstage
  have hsame : k = j := h.apart k j (h.begun k c hk) hj hopen hfresh.opened ((h.named k c hk).symm.trans hid)
  subst hsame
  cases hfresh.client.symm.trans hk

theorem register_refused (haddress : MQTTProxy.advertisedAddress cfg.toMqttSettings (e.links j).peer.sockname = none) :
    (e.register cfg J j).2.links = e.links ∧ (e.register cfg J j).2.proxy = e.proxy.forget (e.links j).peer.clientId := by
  refine ⟨?_, ?_⟩
  · unfold register
    simp only [haddress, act_links]
  · rw [register_proxy, MQTTProxy.register, haddress]

theorem register_joined {address : String}
    (haddress : MQTTProxy.advertisedAddress cfg.toMqttSettings (e.links j).peer.sockname = some address) (k : Nat) :
    ((e.register cfg J j).2.links k).peer = (e.links k).peer ∧ ((e.register cfg J j).2.links k).closed = (e.links k).closed ∧
      ((e.register cfg J j).2.links k).client = if k = j then some e.proxy.accepted else (e.links k).client := by
  unfold register
  simp only [haddress]
  by_cases hk : k = j
  · subst hk
    simp [note, setLink, act_links]
  · simp [note, setLink, act_links, hk]

theorem Masking.register (hcfg : cfg.toMqttSettings.Lawful) (h : Masking cfg J taken e) (hsorted : Sorted e)
    (hfresh : (e.footing j).Fresh) (hj : taken j) : Masking cfg J taken (e.register cfg J j).2 := by
  have hdiscretion : Discretion J (e.register cfg J j).2.proxy := by
    rw [register_proxy]
    exact h.discretion.register hcfg (h.unnamed hsorted hfresh hj)
  cases haddress : MQTTProxy.advertisedAddress cfg.toMqttSettings (e.links j).peer.sockname with
  | none =>
      obtain ⟨hlinks, hproxy⟩ := register_refused (J := J) haddress
      rw [hproxy] at hdiscretion
      refine ⟨?_, ?_, ?_, ?_, ?_, ?_, ?_⟩
      · rw [hproxy]
        exact hdiscretion
      · rw [hlinks, hproxy]
        exact h.named
      · rw [hlinks, hproxy]
        exact h.advertised
      · rw [hlinks, hproxy]
        exact h.owned
      · rw [hproxy]
        exact h.unborn
      · rw [hlinks]
        exact h.begun
      · rw [hlinks]
        exact h.apart
  | some address =>
      have hjoined := register_joined (J := J) haddress
      obtain ⟨haccepted, hold, hnew⟩ := MQTTProxy.register_joins haddress e.proxy (e.links j).peer.clientId
      rw [← register_proxy cfg J e j] at haccepted hold hnew
      have hclient : ∀ k c, ((e.register cfg J j).2.links k).client = some c →
          k = j ∧ c = e.proxy.accepted ∨ (e.links k).client = some c ∧ c ≠ e.proxy.accepted := by
        intro k c hc
        rw [(hjoined k).2.2] at hc
        split at hc
        · next hk =>
            cases hc
            exact .inl ⟨hk, rfl⟩
        · exact .inr ⟨hc, Nat.ne_of_lt (hsorted.known k c hc)⟩
      refine ⟨hdiscretion, fun k c hc => ?_, fun k c hc => ?_, fun c hc => ?_, fun c hc => ?_, fun k c hc => ?_,
        fun i k hi hk hi' hk' hid => ?_⟩
      · rw [(hjoined k).1]
        rcases hclient k c hc with ⟨rfl, rfl⟩ | ⟨hc, hne⟩
        · rw [hnew]
        · rw [hold c hne]
          exact h.named k c hc
      · rw [(hjoined k).1]
        rcases hclient k c hc with ⟨rfl, rfl⟩ | ⟨hc, hne⟩
        · rw [hnew]
          exact haddress
        · rw [hold c hne]
          exact h.advertised k c hc
      · by_cases hlast : c = e.proxy.accepted
        · exact ⟨j, by rw [(hjoined j).2.2, if_pos rfl, hlast]⟩
        · obtain ⟨k, hk⟩ := h.owned c (by omega)
          refine ⟨k, ?_⟩
          rw [(hjoined k).2.2, if_neg ?_, hk]
          rintro rfl
          cases hfresh.client.symm.trans hk
      · rw [hold c (by omega)]
        exact h.unborn c (by omega)
      · rcases hclient k c hc with ⟨rfl, _⟩ | ⟨hc, _⟩
        · exact hj
        · exact h.begun k c hc
      · rw [(hjoined i).1, (hjoined k).1] at hid
        exact h.apart i k hi hk ((hjoined i).2.1 ▸ hi') ((hjoined k).2.1 ▸ hk') hid

theorem Masking.begins (h : Masking cfg J taken e)
    (hapart : ∀ k, taken k → k ≠ j → (e.links k).closed = false → (e.links k).peer.clientId ≠ (e.links j).peer.clientId) :
    Masking cfg J (fun k => k = j ∨ taken k) e where
  discretion := h.discretion
  named := h.named
  advertised := h.advertised
  owned := h.owned
  unborn := h.unborn
  begun k c hc := .inr (h.begun k c hc)
  apart i k hi hk hi' hk' hid := by
    by_contra hne
    rcases hi with rfl | hi
    · rcases hk with rfl | hk
      · exact hne rfl
      · exact hapart k hk (fun heq => hne heq.symm) hk' hid.symm
    · rcases hk with rfl | hk
      · exact hapart i hi hne hi' hid
      · exact hne (h.apart i k hi hk hi' hk' hid)

end Server

-- Reports that can be told to the clients as they should, and sockets with names that no other open one has.
structure Distinctly (cfg : ServerSettings) (J : Codec) (c : ServerConfig) (a : ServerAct) : Prop where
  discreet : ∀ act, a = .tick (.printer act) → Discreet cfg.toMqttSettings J c.env.proxy act
  named : ∀ j, a = .spawn j → ∀ k, c.procs k ≠ .idle → (c.env.links k).closed = false →
    (c.env.links k).peer.clientId ≠ (c.env.links j).peer.clientId

namespace Server

theorem Masking.congr {taken' : Nat → Prop} (h : Masking cfg J taken e) (hiff : ∀ k, taken' k ↔ taken k) : Masking cfg J taken' e := by
  have hsame : taken' = taken := funext fun k => propext (hiff k)
  rwa [hsame]

theorem masking_turn {c c' : ServerConfig} {a : ServerAct} (hJ : J.Lawful) (hcfg : cfg.toMqttSettings.Lawful)
    (hholds : cleanup.Holds (mqttServer cfg J) c) (hstep : (mqttServer cfg J).step c a = some c') (hok : Distinctly cfg J c a)
    (htaken : ∀ j, System.actor a = some j → taken j) (h : Masking cfg J taken c.env) : Masking cfg J taken c'.env := by
  have hmeets : cleanup.Meets c a := by
    cases a with
    | resume j i r => exact fun _ _ _ _ => trivial
    | _ => trivial
  refine hholds.upholds (X := fun e => Masking cfg J taken e) cleanup_verified hstep hmeets trivial ?_ ?_ ?_ ?_ h
  · intro j s e' _ hspawn hmasking
    cases hspawn
    exact hmasking
  · intro j i s e r e' hactor hsorted hready hmasking hsync
    by_cases hi : i = .register
    · subst hi
      cases hsync
      exact hmasking.register hcfg hsorted hready.owes (htaken j hactor)
    · exact hmasking.calm hJ hcfg (sync_calm hi hsync)
  · intro j l i s r e' _ hready _ hmasking hresume
    exact hmasking.calm hJ hcfg (resume_calm hready hresume)
  · rintro b e' rfl hmasking htick
    exact hmasking.calm hJ hcfg (tick_calm (fun act hb => hok.discreet act (congrArg Act.tick hb)) htick)

theorem masking_step {c c' : ServerConfig} {a : ServerAct} (hJ : J.Lawful) (hcfg : cfg.toMqttSettings.Lawful)
    (hholds : cleanup.Holds (mqttServer cfg J) c) (hstep : (mqttServer cfg J).step c a = some c') (hok : Distinctly cfg J c a)
    (h : Masking cfg J (fun k => c.procs k ≠ .idle) c.env) : Masking cfg J (fun k => c'.procs k ≠ .idle) c'.env := by
  have hbegun : Masking cfg J (fun k => System.actor a = some k ∨ c.procs k ≠ .idle) c.env := by
    have hsame : (∀ k, System.actor a = some k → c.procs k ≠ .idle) →
        Masking cfg J (fun k => System.actor a = some k ∨ c.procs k ≠ .idle) c.env :=
      fun hactor => h.congr fun k => or_iff_right_of_imp (hactor k)
    cases a with
    | spawn j =>
        refine (h.begins fun k hk _ hopen => hok.named j rfl k hk hopen).congr fun k => ?_
        exact or_congr_left ⟨fun hj => (Option.some.inj hj).symm, congrArg some ∘ Eq.symm⟩
    | run j =>
        refine hsame ?_
        rintro k ⟨⟩ hidle
        simp [System.step, hidle] at hstep
    | resume j i r =>
        refine hsame ?_
        rintro k ⟨⟩ hidle
        simp [System.step, hidle] at hstep
    | tick b =>
        refine hsame ?_
        rintro k ⟨⟩
  exact (masking_turn hJ hcfg hholds hstep hok (fun j => Or.inl) hbegun).congr fun k => System.step_begun _ hstep k

theorem Masking.init (peers : Nat → Peer) : Masking cfg J (fun _ => False) (Server.init peers) := by
  refine ⟨.init, ?_, ?_, fun c hc => absurd hc (Nat.not_lt_zero c), fun _ _ => rfl, ?_, ?_⟩
  · rintro _ _ ⟨⟩
  · rintro _ _ ⟨⟩
  · rintro _ _ ⟨⟩
  · rintro _ _ ⟨⟩

end Server

theorem distinctly_free {cfg : ServerSettings} {J : Codec} {c c' : ServerConfig}
    (hrun : (mqttServer cfg J).Runs (fun c a _ => Distinctly cfg J c a) c c') :
    (mqttServer cfg J).Runs (fun _ _ _ => True) c c' := by
  refine Relation.ReflTransGen.mono ?_ _ _ hrun
  rintro _ _ ⟨a, hstep, _⟩
  exact ⟨a, hstep, trivial⟩

theorem masking_runs {cfg : ServerSettings} {J : Codec} {peers : Nat → Peer} {c : ServerConfig} (hJ : J.Lawful)
    (hcfg : cfg.toMqttSettings.Lawful) (hrun : (mqttServer cfg J).Runs (fun c a _ => Distinctly cfg J c a) (listening peers) c) :
    Server.Masking cfg J (fun k => c.procs k ≠ .idle) c.env := by
  induction hrun with
  | refl => exact (Server.Masking.init peers).congr fun k => iff_of_false (fun hne => hne rfl) id
  | tail hbefore hlast ih =>
      obtain ⟨a, hstep, hok⟩ := hlast
      exact Server.masking_step hJ hcfg (Server.cleanup_holds (distinctly_free hbefore)) hstep hok ih

theorem peer_runs {cfg : ServerSettings} {J : Codec} {peers : Nat → Peer} {c : ServerConfig}
    (hrun : (mqttServer cfg J).Runs (fun _ _ _ => True) (listening peers) c) (j : Nat) : (c.env.links j).peer = peers j :=
  Server.keeps (X := fun e => (e.links j).peer = peers j) (fun _ _ _ h hchange => (hchange.peer j).trans h) hrun rfl

-- Whatever goes out on a socket names the printer's address as the one that its own client was given.
theorem reports_masked {cfg : ServerSettings} {J : Codec} {peers : Nat → Peer} {c : ServerConfig} (hJ : J.Lawful)
    (hcfg : cfg.toMqttSettings.Lawful) (hrun : (mqttServer cfg J).Runs (fun c a _ => Distinctly cfg J c a) (listening peers) c)
    (j : Nat) {packet : Publish} (hreport : packet ∈ c.env.reports j) :
    ∃ address, MQTTProxy.advertisedAddress cfg.toMqttSettings (peers j).sockname = some address ∧
      ∀ encoded, encodeIpv4 address = some encoded → Masked J encoded packet := by
  have hfree := distinctly_free hrun
  have hmasking := masking_runs hJ hcfg hrun
  have hwired := Server.wired_runs hfree
  cases hclient : (c.env.links j).client with
  | none =>
      rw [(hwired.unjoined j hclient).2] at hreport
      cases hreport
  | some client =>
      refine ⟨(c.env.proxy.conn client).advertised, ?_, ?_⟩
      · rw [← peer_runs hfree j]
        exact hmasking.advertised j client hclient
      · exact hmasking.discretion.guarded.written client packet ((hwired.reports j client hclient).1.subset hreport)

theorem distinctly_of_injective {cfg : ServerSettings} {J : Codec} {peers : Nat → Peer} {c : ServerConfig}
    (hpeers : Function.Injective fun j => (peers j).clientId)
    (hrun : (mqttServer cfg J).Runs (fun c a _ => ∀ act, a = .tick (.printer act) → Discreet cfg.toMqttSettings J c.env.proxy act)
      (listening peers) c) :
    (mqttServer cfg J).Runs (fun c a _ => Distinctly cfg J c a) (listening peers) c := by
  induction hrun with
  | refl => exact .refl
  | @tail c c' _ hlast ih =>
      obtain ⟨a, hstep, hdiscreet⟩ := hlast
      refine ih.tail ⟨a, hstep, hdiscreet, ?_⟩
      rintro j rfl k hk _ hid
      have hfree := distinctly_free ih
      rw [peer_runs hfree k, peer_runs hfree j] at hid
      cases hpeers hid
      revert hk
      simp only [System.step] at hstep
      split at hstep
      · next hidle => exact fun hne => hne hidle
      · cases hstep

def neighbours (j : Nat) : Peer :=
  ⟨String.ofList (List.replicate j 'i'), if j = 0 then some "172.17.0.2" else some "172.17.0.3"⟩

theorem neighbours_injective : Function.Injective fun j => (neighbours j).clientId := by
  intro j k h
  have hnames : List.replicate j 'i' = List.replicate k 'i' := String.ofList_injective h
  simpa using congrArg List.length hnames

def bridged : ServerSettings := ⟨⟨"01P00A", none, fun _ => none⟩, "12345678"⟩

def reachesBoth : List ServerAct :=
  [.tick (.printer (.message bridged.reportTopic networkReport)), .tick (.send 0), .tick (.send 1)]

def toldCheck (c : ServerConfig) (a : ServerAct) (_ : ServerConfig) : Bool :=
  match a with
  | .tick (.printer act) => discreetCheck c.env.proxy act c.env.proxy
  | _ => true

theorem toldCheck_discreet (c : ServerConfig) (a : ServerAct) (c' : ServerConfig) (h : toldCheck c a c' = true)
    (act : MQTTProxy.Act) (hact : a = .tick (.printer act)) : Discreet bridged.toMqttSettings plain c.env.proxy act := by
  subst hact
  exact discreetCheck_discreet c.env.proxy act c.env.proxy h

theorem reports_masked_both : ∃ c packet packet', (mqttServer bridged plain).runWhile toldCheck (listening neighbours)
    (dials ++ joins 0 ++ joins 1 ++ reachesBoth) = some c ∧
      c.env.reports 0 = [packet] ∧ c.env.reports 1 = [packet'] ∧ packet.payload ≠ packet'.payload ∧
      (∃ address, MQTTProxy.advertisedAddress bridged.toMqttSettings (neighbours 0).sockname = some address ∧
        ∀ encoded, encodeIpv4 address = some encoded → Masked plain encoded packet) ∧
      ∃ address, MQTTProxy.advertisedAddress bridged.toMqttSettings (neighbours 1).sockname = some address ∧
        ∀ encoded, encodeIpv4 address = some encoded → Masked plain encoded packet' := by
  have hend : ((mqttServer bridged plain).runWhile toldCheck (listening neighbours) (dials ++ joins 0 ++ joins 1 ++ reachesBoth)).map
      (fun c => ((c.env.reports 0).length, (c.env.reports 1).length,
        decide ((c.env.reports 0).map Publish.payload = (c.env.reports 1).map Publish.payload))) = some (1, 1, false) := by
    decide +kernel
  obtain ⟨c, hc, hlast⟩ := Option.map_eq_some_iff.mp hend
  simp only [Prod.mk.injEq, decide_eq_false_iff_not] at hlast
  obtain ⟨hfirst, hsecond, hne⟩ := hlast
  obtain ⟨packet, hpacket⟩ := List.length_eq_one_iff.mp hfirst
  obtain ⟨packet', hpacket'⟩ := List.length_eq_one_iff.mp hsecond
  have hlawful : bridged.toMqttSettings.Lawful := by
    rintro _ _ ⟨⟩
  have hrun := distinctly_of_injective neighbours_injective (System.runWhile_runs _ toldCheck_discreet _ hc)
  refine ⟨c, packet, packet', hc, hpacket, hpacket', ?_, ?_, ?_⟩
  · rw [hpacket, hpacket'] at hne
    exact fun hsame => hne (congrArg (fun p => [p]) hsame)
  · exact reports_masked plain_lawful hlawful hrun 0 (hpacket ▸ List.mem_singleton_self packet)
  · exact reports_masked plain_lawful hlawful hrun 1 (hpacket' ▸ List.mem_singleton_self packet')

end PandaProxy.Mqtt
