import PandaProxy.Mqtt.ClientStreams

namespace PandaProxy.Mqtt

open Async Json Python

namespace MQTTProxy

variable {cfg : MqttSettings} {J : Codec} {s s' : MQTTProxy} {a : Act}

def stages : Act → Bool
  | .register _ _ => true
  | .finish _ => true
  | .leave _ => true
  | _ => false

structure SameStages (s s' : MQTTProxy) : Prop where
  accepted : s'.accepted = s.accepted
  stage : ∀ c, (s'.conn c).stage = (s.conn c).stage

theorem SameStages.refl (s : MQTTProxy) : SameStages s s := ⟨rfl, fun _ => rfl⟩

theorem SameStages.same (haccepted : s'.accepted = s.accepted) (hconn : s'.conn = s.conn) : SameStages s s' :=
  ⟨haccepted, fun c => by rw [hconn]⟩

theorem Delivers.sameStages {P : Nat → Publish → Prop} (h : Delivers P s s') : SameStages s s' := ⟨h.accepted, h.stage⟩

theorem SameStages.trans {s'' : MQTTProxy} (h : SameStages s s') (h' : SameStages s' s'') : SameStages s s'' :=
  ⟨h'.accepted.trans h.accepted, fun c => (h'.stage c).trans (h.stage c)⟩

theorem takenIn_stages (cfg : MqttSettings) (J : Codec) (s : MQTTProxy) (topic : String) (payload : List UInt8) :
    SameStages s (takenIn cfg J s topic payload) := by
  unfold takenIn
  split
  · rcases cacheReport_cases J s payload with ⟨_, _, _, h⟩ | ⟨_, _, _, _, _, h, _⟩ <;> rw [h] <;> exact .same rfl rfl
  · exact .same rfl rfl

theorem handleMessage_stages (cfg : MqttSettings) (J : Codec) (s : MQTTProxy) (topic : String) (payload : List UInt8) :
    SameStages s (handleMessage cfg J s topic payload) := by
  refine (takenIn_stages cfg J s topic payload).trans ?_
  rcases handleMessage_cases cfg J s topic payload with h | ⟨personalised, h, _⟩
  · rw [h]
    exact .same rfl rfl
  · rw [h]
    exact (relay_delivers (P := fun _ _ => True) _ fun _ _ _ => trivial).1.sameStages

theorem step_stages (hstep : step cfg J s a = some s') (ha : stages a = false) : SameStages s s' := by
  cases step_cases hstep with
  | register | finish | leave => cases ha
  | message _ => exact handleMessage_stages cfg J s _ _
  | @hungUp b _ => exact (relay_delivers (P := fun _ _ => True) b.targets fun _ _ _ => trivial).1.sameStages
  | @replay t c id packets _ _ _ _ => exact (replay_delivers (P := fun _ _ => True) id _ fun _ _ => trivial).1.sameStages
  | @replayHungUp t c id rest _ => exact (replay_delivers (P := fun _ _ => True) id rest fun _ _ => trivial).1.sameStages
  | @send c packet queue _ _ => exact ⟨rfl, fun k => setConn_same Client.stage fun _ => rfl⟩
  | _ => exact .same rfl rfl

end MQTTProxy

open MQTTProxy (SameStages)

-- Where the handler of a connection stands with what it shares.
structure Footing where
  client : Option Nat
  stage : Option Stage
  closed : Bool
  holds : Bool
  waits : Nat

namespace Footing

inductive Moves (f : Footing) : Footing → Prop where
  | same : Moves f f
  | ended (h : f.stage = some .serving) : Moves f { f with stage := some .ended }

structure Free (f : Footing) : Prop where
  holds : f.holds = false
  waits : f.waits = 0

def Left (f : Footing) : Prop := ∀ stage, f.stage = some stage → stage = .over

structure Stays (f : Footing) : Prop where
  stage : f.stage = some .serving ∨ f.stage = some .ended
  opened : f.closed = false

structure Fresh (f : Footing) : Prop where
  client : f.client = none
  stage : f.stage = none
  opened : f.closed = false

-- What its own calls make of it; `next` is the number that the next client to register gets.
def after (next : Nat) (f : Footing) : (i : Op) → Except Exc i.Answer → Footing
  | .register, .ok true => { f with client := some next, stage := some .serving }
  | .acquireLock, .ok true => { f with holds := true }
  | .acquireLock, .ok false => { f with waits := f.waits + 1 }
  | .lockGranted, .ok _ => { f with holds := true, waits := f.waits - 1 }
  | .lockGranted, .error _ => { f with waits := 0 }
  | .releaseLock, _ => { f with holds := false }
  | .cancelPending, _ => { f with stage := f.stage.map fun stage => if stage = .serving then .ended else stage }
  | .unregister, _ => { f with stage := f.stage.map fun stage => if stage = .ended then .over else stage }
  | .close, _ => { f with closed := true }
  | _, _ => f

theorem Moves.client {f f' : Footing} (h : f.Moves f') : f'.client = f.client := by
  cases h <;> rfl

theorem Moves.closed {f f' : Footing} (h : f.Moves f') : f'.closed = f.closed := by
  cases h <;> rfl

theorem Moves.holds {f f' : Footing} (h : f.Moves f') : f'.holds = f.holds := by
  cases h <;> rfl

theorem Moves.waits {f f' : Footing} (h : f.Moves f') : f'.waits = f.waits := by
  cases h <;> rfl

theorem Moves.stage {f f' : Footing} (h : f.Moves f') : f'.stage = f.stage ∨ f.stage = some .serving ∧ f'.stage = some .ended := by
  cases h with
  | same => exact .inl rfl
  | ended h => exact .inr ⟨h, rfl⟩

theorem Free.moves {f f' : Footing} (h : f.Free) (hm : f.Moves f') : f'.Free :=
  ⟨hm.holds.trans h.holds, hm.waits.trans h.waits⟩

theorem Left.moves {f f' : Footing} (h : f.Left) (hm : f.Moves f') : f'.Left := by
  rcases hm.stage with hsame | ⟨hserving, _⟩
  · rwa [Left, hsame]
  · cases h _ hserving

theorem Stays.moves {f f' : Footing} (h : f.Stays) (hm : f.Moves f') : f'.Stays := by
  refine ⟨?_, hm.closed.trans h.opened⟩
  rcases hm.stage with hsame | ⟨_, hended⟩
  · rw [hsame]
    exact h.stage
  · exact .inr hended

theorem Fresh.moves {f f' : Footing} (h : f.Fresh) (hm : f.Moves f') : f'.Fresh := by
  refine ⟨hm.client.trans h.client, ?_, hm.closed.trans h.opened⟩
  rcases hm.stage with hsame | ⟨hserving, _⟩
  · exact hsame.trans h.stage
  · cases h.stage.symm.trans hserving

theorem Fresh.left {f : Footing} (h : f.Fresh) : f.Left := by
  intro stage hstage
  cases h.stage.symm.trans hstage

end Footing

namespace Server

variable {cfg : ServerSettings} {J : Codec} {e e' : Server} {j k : Nat}

def footing (e : Server) (j : Nat) : Footing where
  client := (e.links j).client
  stage := (e.links j).client.map fun c => (e.proxy.conn c).stage
  closed := (e.links j).closed
  holds := decide (e.upstreamLock.holder = some (.handler j))
  waits := e.upstreamLock.waiters.count (.handler j)

structure SameFooting (e e' : Server) (j : Nat) : Prop where
  client : (e'.links j).client = (e.links j).client
  stage : ∀ c, (e.links j).client = some c → (e'.proxy.conn c).stage = (e.proxy.conn c).stage
  closed : (e'.links j).closed = (e.links j).closed
  lock : (e'.upstreamLock.holder = some (.handler j) ↔ e.upstreamLock.holder = some (.handler j)) ∧
    e'.upstreamLock.waiters.count (.handler j) = e.upstreamLock.waiters.count (.handler j)

theorem SameFooting.footing (h : SameFooting e e' j) : e'.footing j = e.footing j := by
  have hstage : (e.links j).client.map (fun c => (e'.proxy.conn c).stage) =
      (e.links j).client.map fun c => (e.proxy.conn c).stage := by
    cases hc : (e.links j).client with
    | none => rfl
    | some c => exact congrArg some (h.stage c hc)
  simp only [Server.footing, h.client, hstage, h.closed, h.lock.1, h.lock.2]

theorem SameFooting.refl (e : Server) (j : Nat) : SameFooting e e j := ⟨rfl, fun _ _ => rfl, rfl, Iff.rfl, rfl⟩

structure Sorted (e : Server) : Prop where
  known : ∀ j c, (e.links j).client = some c → c < e.proxy.accepted
  distinct : ∀ j k c, (e.links j).client = some c → (e.links k).client = some c → j = k
  closed : ∀ j, (e.footing j).closed = true → (e.footing j).Left
  queued : ∀ j, (e.footing j).waits ≤ 1

theorem SameFooting.frame (hproxy : SameStages e.proxy e'.proxy) (hclient : (e'.links k).client = (e.links k).client)
    (hclosed : (e'.links k).closed = (e.links k).closed) (hlock : e'.upstreamLock = e.upstreamLock) : SameFooting e e' k where
  client := hclient
  stage c _ := hproxy.stage c
  closed := hclosed
  lock := by rw [hlock]; exact ⟨Iff.rfl, rfl⟩

theorem SameFooting.setLink {f : Link → Link} (hclient : ∀ l, (f l).client = l.client) (hclosed : ∀ l, (f l).closed = l.closed) :
    SameFooting e (e.setLink j f) k :=
  .frame (.refl _) (setLink_same Link.client hclient) (setLink_same Link.closed hclosed) rfl

theorem SameFooting.note (v : Event) : SameFooting e (e.note j v) k := .setLink (fun _ => rfl) fun _ => rfl

theorem SameFooting.put (packet : Outgoing) : SameFooting e (e.put j packet) k := by
  unfold Server.put
  split
  · exact .refl e k
  · exact .setLink (fun _ => rfl) fun _ => rfl

theorem SameFooting.trans {e'' : Server} (h : SameFooting e e' k) (h' : SameFooting e' e'' k) : SameFooting e e'' k where
  client := h'.client.trans h.client
  stage c hc := (h'.stage c (h.client.trans hc)).trans (h.stage c hc)
  closed := h'.closed.trans h.closed
  lock := ⟨h'.lock.1.trans h.lock.1, h'.lock.2.trans h.lock.2⟩

theorem SameFooting.took (packet : MQTTPacket) (rest : List UInt8) : SameFooting e (e.took j packet rest) k := by
  have hunread : SameFooting e (e.setLink j fun l => { l with unread := rest }) k := .setLink (fun _ => rfl) fun _ => rfl
  exact hunread.trans (.note _)

theorem SameFooting.thrown (j : Nat) : SameFooting e (e.setLink j fun l => { l with cancelling := false }) k :=
  .setLink (fun _ => rfl) fun _ => rfl

theorem act_stages (cfg : ServerSettings) (J : Codec) (e : Server) {a : MQTTProxy.Act} (ha : MQTTProxy.stages a = false) :
    SameStages e.proxy (e.act cfg J a).proxy := by
  unfold act
  split
  · next hstep => exact MQTTProxy.step_stages hstep ha
  · exact .refl _

theorem act_lock (cfg : ServerSettings) (J : Codec) (e : Server) (a : MQTTProxy.Act) :
    (e.act cfg J a).upstreamLock = e.upstreamLock := by
  unfold act
  split <;> rfl

theorem onClient_lock (cfg : ServerSettings) (J : Codec) (e : Server) (j : Nat) (a : Nat → MQTTProxy.Act) :
    (e.onClient cfg J j a).upstreamLock = e.upstreamLock := by
  unfold onClient
  split
  · exact act_lock cfg J e _
  · rfl

theorem onClient_stages (cfg : ServerSettings) (J : Codec) (e : Server) (j : Nat) {a : Nat → MQTTProxy.Act}
    (ha : ∀ c, MQTTProxy.stages (a c) = false) : SameStages e.proxy (e.onClient cfg J j a).proxy := by
  unfold onClient
  split
  · exact act_stages cfg J e (ha _)
  · exact .refl _

def treads : Op → Bool
  | .register => true
  | .acquireLock => true
  | .lockGranted => true
  | .releaseLock => true
  | .cancelPending => true
  | .unregister => true
  | .close => true
  | _ => false

theorem sync_same {i : Op} {r : Except Exc i.Answer} (h : sync cfg J j i e = some (r, e')) (hi : treads i = false) (k : Nat) :
    SameFooting e e' k := by
  cases i with
  | register | acquireLock | lockGranted | releaseLock | cancelPending | unregister | close => cases hi
  | readPacket timeout =>
      simp only [sync] at h
      split at h
      · cases h
        exact .setLink (fun _ => rfl) fun _ => rfl
      · split at h
        · cases h
          exact .refl e k
        · cases h
          exact .took _ _
        · cases h
          exact .refl e k
        · split at h <;> cases h
          exact .refl e k
  | write data =>
      cases h
      exact (SameFooting.put _).trans (.note _)
  | upstreamConnected =>
      cases h
      exact .setLink (fun _ => rfl) fun _ => rfl
  | publish client topic payload qos =>
      simp only [sync, publish, Option.some.injEq] at h
      split at h <;> cases h
      · exact .refl e k
      · exact (SameFooting.note (e := e) (j := j) _).trans (.frame (.refl _) rfl rfl rfl)
  | createSnapshotTask =>
      cases h
      refine SameFooting.trans (.frame (onClient_stages cfg J e j fun _ => rfl) ?_ ?_ (onClient_lock cfg J e j _)) (.note _)
      · rw [onClient_links]
      · rw [onClient_links]
  | drain =>
      simp only [sync] at h
      split at h <;> cases h <;> exact .refl e k
  | running | upstreamClient | abort =>
      cases h
      exact .refl e k
  | waitUpstream | confirmed | gatherPending | waitClosed => cases h

theorem register_proxy (cfg : ServerSettings) (J : Codec) (e : Server) (j : Nat) :
    (e.register cfg J j).2.proxy =
      MQTTProxy.register cfg.toMqttSettings e.proxy (e.links j).peer.clientId (e.links j).peer.sockname := by
  unfold register
  dsimp only
  split <;> rfl

theorem register_stage (cfg : MqttSettings) (s : MQTTProxy) (id : String) (sockname : Option String) {c : Nat}
    (hc : c < s.accepted) : ((MQTTProxy.register cfg s id sockname).conn c).stage = (s.conn c).stage := by
  cases h : MQTTProxy.advertisedAddress cfg sockname with
  | none =>
      simp only [MQTTProxy.register, h]
      rfl
  | some address => rw [(MQTTProxy.register_joins h s id).2.1 c (Nat.ne_of_lt hc)]

theorem register_links_ne (hk : k ≠ j) : (e.register cfg J j).2.links k = e.links k := by
  unfold register
  dsimp only
  split
  · simp only [note, setLink, Function.update_of_ne hk, act_links]
  · rw [act_links]

theorem register_lock : (e.register cfg J j).2.upstreamLock = e.upstreamLock := by
  unfold register
  dsimp only
  split
  · exact act_lock cfg J e _
  · exact act_lock cfg J e _

theorem register_others (hs : Sorted e) (hk : k ≠ j) : SameFooting e (e.register cfg J j).2 k where
  client := by rw [register_links_ne hk]
  stage c hc := by
    rw [register_proxy]
    exact register_stage _ _ _ _ (hs.known k c hc)
  closed := by rw [register_links_ne hk]
  lock := by
    rw [register_lock]
    exact ⟨Iff.rfl, rfl⟩

theorem onClient_others {a : Nat → MQTTProxy.Act} (hs : Sorted e) (hk : k ≠ j)
    (ha : ∀ c c' s', c' ≠ c → MQTTProxy.step cfg.toMqttSettings J e.proxy (a c) = some s' →
      (s'.conn c').stage = (e.proxy.conn c').stage) : SameFooting e (e.onClient cfg J j a) k where
  client := by rw [onClient_links]
  stage c' hc' := by
    unfold onClient
    split
    · next c hc =>
        unfold act
        split
        · next s' hstep =>
            refine ha c c' s' (fun hsame => hk ?_) hstep
            exact hs.distinct k j c' hc' (hsame ▸ hc)
        · rfl
    · rfl
  closed := by rw [onClient_links]
  lock := by
    rw [onClient_lock]
    exact ⟨Iff.rfl, rfl⟩

theorem finish_others (c c' : Nat) (s' : MQTTProxy) (hne : c' ≠ c)
    (hstep : MQTTProxy.step cfg.toMqttSettings J e.proxy (.finish c) = some s') :
    (s'.conn c').stage = (e.proxy.conn c').stage := by
  cases MQTTProxy.step_cases hstep
  simp [MQTTProxy.setConn, hne]

theorem leave_others (c c' : Nat) (s' : MQTTProxy) (hne : c' ≠ c)
    (hstep : MQTTProxy.step cfg.toMqttSettings J e.proxy (.leave c) = some s') :
    (s'.conn c').stage = (e.proxy.conn c').stage := by
  cases MQTTProxy.step_cases hstep
  simp [MQTTProxy.setConn, MQTTProxy.forget, hne]

theorem handler_ne (hk : k ≠ j) : Holder.handler j ≠ .handler k := fun h => hk (Holder.handler.inj h).symm

theorem SameFooting.acquire {h : Holder} (hh : h ≠ .handler k) :
    SameFooting e { e with upstreamLock := (e.upstreamLock.acquire h).2 } k where
  client := rfl
  stage _ _ := rfl
  closed := rfl
  lock := by
    unfold Lock.acquire
    split
    · next hholder hwaiters =>
        rw [hholder, hwaiters]
        exact ⟨⟨fun heq => absurd (Option.some.inj heq) hh, nofun⟩, rfl⟩
    · refine ⟨Iff.rfl, ?_⟩
      rw [List.count_append, List.count_singleton]
      simp [hh]

theorem SameFooting.release {h : Holder} (hh : h ≠ .handler k) (hholder : e.upstreamLock.holder = some h) :
    SameFooting e { e with upstreamLock := e.upstreamLock.release } k where
  client := rfl
  stage _ _ := rfl
  closed := rfl
  lock := by
    refine ⟨?_, rfl⟩
    rw [hholder]
    exact ⟨nofun, fun heq => absurd (Option.some.inj heq) hh⟩

theorem sync_others {i : Op} {r : Except Exc i.Answer} (hs : Sorted e) (h : sync cfg J j i e = some (r, e')) (hk : k ≠ j)
    (hrelease : i = .releaseLock → (e.footing j).holds = true) : SameFooting e e' k := by
  cases i with
  | register =>
      cases h
      exact register_others hs hk
  | acquireLock =>
      cases h
      exact .acquire (handler_ne hk)
  | releaseLock =>
      cases h
      exact .release (handler_ne hk) (of_decide_eq_true (hrelease rfl))
  | cancelPending =>
      cases h
      unfold cancelPending
      split
      · exact onClient_others hs hk finish_others
      · exact .refl e k
  | unregister =>
      cases h
      exact onClient_others hs hk leave_others
  | close =>
      cases h
      refine .frame (.refl _) ?_ ?_ rfl
      · simp [setLink, hk]
      · simp [setLink, hk]
  | lockGranted => cases h
  | _ => exact sync_same h rfl k

theorem drop_count (l : Lock) {h h' : Holder} (hne : h' ≠ h) : (l.drop h).waiters.count h' = l.waiters.count h' := by
  rw [Lock.drop, List.count_filter]
  exact decide_eq_true hne

theorem drop_none (l : Lock) (h : Holder) : (l.drop h).waiters.count h = 0 := by
  rw [Lock.drop, List.count_eq_zero, List.mem_filter]
  rintro ⟨_, hne⟩
  exact of_decide_eq_true hne rfl

theorem grant_cases {l l' : Lock} {h : Holder} (hg : l.grant h = some l') :
    l.holder = none ∧ l'.holder = some h ∧ l.waiters = h :: l'.waiters := by
  unfold Lock.grant at hg
  split at hg
  · next first rest hholder hwaiters =>
      split at hg
      · next hfirst =>
          cases hg
          exact ⟨hholder, rfl, by rw [hwaiters, hfirst]⟩
      · cases hg
  · cases hg

theorem SameFooting.waiting {lock : Lock} {h : Holder} (hh : h ≠ .handler k)
    (hlock : lock = e.upstreamLock.drop h ∨ e.upstreamLock.grant h = some lock) :
    SameFooting e { e with upstreamLock := lock } k where
  client := rfl
  stage _ _ := rfl
  closed := rfl
  lock := by
    rcases hlock with rfl | hgrant
    · exact ⟨Iff.rfl, drop_count _ hh.symm⟩
    · obtain ⟨hnone, hholder, hwaiters⟩ := grant_cases hgrant
      refine ⟨?_, ?_⟩
      · rw [hnone, hholder]
        exact ⟨fun heq => absurd (Option.some.inj heq) hh, nofun⟩
      · rw [hwaiters, List.count_cons_of_ne hh]

theorem awaken_same {i : Op} {r : Except Exc i.Answer} (h : e.awaken j i r = some e') (hi : i ≠ .lockGranted) (k : Nat) :
    SameFooting e e' k := by
  unfold awaken at h
  split at h
  · next packet =>
      split at h
      · split at h <;> cases h
        exact .took _ _
      · cases h
  all_goals
    repeat' split at h
  all_goals
    first
    | exact absurd rfl hi
    | cases h; exact .refl e k
    | cases h

theorem resume_same {i : Op} {r : Except Exc i.Answer} (h : resume j i r e = some e') (hi : i ≠ .lockGranted) (k : Nat)
    (hfree : (e.footing j).waits = 0) : SameFooting e e' k := by
  unfold resume at h
  split at h
  · split at h
    · cases h
      refine (SameFooting.thrown j).trans ?_
      refine ⟨rfl, fun _ _ => rfl, rfl, Iff.rfl, ?_⟩
      by_cases hk : k = j
      · subst hk
        exact (drop_none _ _).trans hfree.symm
      · exact drop_count _ fun heq => hk (Holder.handler.inj heq)
    · cases h
  · exact awaken_same h hi k

theorem resume_others {i : Op} {r : Except Exc i.Answer} (h : resume j i r e = some e') (hk : k ≠ j) : SameFooting e e' k := by
  unfold resume at h
  split at h
  · split at h
    · cases h
      refine (SameFooting.thrown j).trans ?_
      exact SameFooting.waiting (handler_ne hk) (.inl rfl)
    · cases h
  · by_cases hi : i = .lockGranted
    · subst hi
      cases r with
      | ok _ =>
          obtain ⟨lock, hgrant, rfl⟩ := Option.map_eq_some_iff.mp h
          exact SameFooting.waiting (handler_ne hk) (.inr hgrant)
      | error x => cases h
    · exact awaken_same h hi k

theorem SameFooting.moves (h : SameFooting e e' k) : (e.footing k).Moves (e'.footing k) := by
  rw [h.footing]
  exact .same

theorem SameFooting.relayed {a : MQTTProxy.Act} {proxy : MQTTProxy} (ha : MQTTProxy.stages a = false)
    (hstep : MQTTProxy.step cfg.toMqttSettings J e.proxy a = some proxy) : SameFooting e { e with proxy := proxy } k :=
  .frame (MQTTProxy.step_stages hstep ha) rfl rfl rfl

theorem relays_stages {a : MQTTProxy.Act} (h : relays a = true) : MQTTProxy.stages a = false := by
  cases a <;> first
  | rfl
  | cases h

theorem finish_moves {c : Nat} {proxy : MQTTProxy}
    (hstep : MQTTProxy.step cfg.toMqttSettings J e.proxy (.finish c) = some proxy) :
    (e.footing k).Moves (Server.footing { e with proxy := proxy } k) := by
  cases MQTTProxy.step_cases hstep
  next hstage =>
    by_cases hk : (e.links k).client = some c
    · have hserving : (e.footing k).stage = some .serving := by
        simp only [Server.footing, hk, Option.map_some, hstage]
      have hended : Server.footing { e with proxy := e.proxy.setConn c fun x => { x with stage := .ended } } k =
          { e.footing k with stage := some .ended } := by
        simp only [Server.footing, hk, Option.map_some, MQTTProxy.setConn, Function.update_self]
      rw [hended]
      exact .ended hserving
    · refine SameFooting.moves ⟨rfl, fun c' hc' => ?_, rfl, Iff.rfl, rfl⟩
      have hne : c' ≠ c := fun hsame => hk (hsame ▸ hc')
      simp [MQTTProxy.setConn, hne]

theorem tick_moves {b : Tick} (h : e.tick cfg J b = some e') (k : Nat) : (e.footing k).Moves (e'.footing k) := by
  have hlink : ∀ (m : Nat) (f : Link → Link), (∀ l, (f l).client = l.client) → (∀ l, (f l).closed = l.closed) →
      (e.footing k).Moves ((e.setLink m f).footing k) :=
    fun m f hclient hclosed => SameFooting.moves (.setLink hclient hclosed)
  have hrequest : ∀ r, Holder.request r ≠ .handler k := nofun
  cases b with
  | receive m data =>
      simp only [tick] at h
      split at h <;> cases h
      exact hlink m _ (fun _ => rfl) fun _ => rfl
  | hangUp m | flow m f | cancel m =>
      cases h
      exact hlink m _ (fun _ => rfl) fun _ => rfl
  | breaks m x =>
      simp only [tick] at h
      split at h <;> cases h
      exact hlink m _ (fun _ => rfl) fun _ => rfl
  | send m =>
      simp only [tick] at h
      split at h
      · split at h
        · next packet _ _ =>
            obtain ⟨proxy, hstep, rfl⟩ := Option.map_eq_some_iff.mp h
            have hstages : SameStages (e.put m (.report packet)).proxy proxy := by
              rw [put_proxy]
              exact MQTTProxy.step_stages hstep rfl
            exact SameFooting.moves ((SameFooting.put (.report packet)).trans (.frame hstages rfl rfl rfl))
        · cases h
      · cases h
  | sendEnds m =>
      simp only [tick] at h
      split at h
      · obtain ⟨proxy, hstep, rfl⟩ := Option.map_eq_some_iff.mp h
        have hsame : SameFooting { e with proxy := proxy }
            (Server.setLink { e with proxy := proxy } m fun l => { l with cancelling := true }) k :=
          .setLink (fun _ => rfl) fun _ => rfl
        exact hsame.footing.symm ▸ finish_moves hstep
      · cases h
  | subscribed =>
      simp only [tick] at h
      split at h <;> cases h
      exact SameFooting.moves (.frame (.refl _) rfl rfl rfl)
  | connect =>
      simp only [tick] at h
      split at h
      · obtain ⟨proxy, hstep, rfl⟩ := Option.map_eq_some_iff.mp h
        exact SameFooting.moves (.relayed rfl hstep)
      · cases h
  | lose =>
      obtain ⟨proxy, hstep, rfl⟩ := Option.map_eq_some_iff.mp h
      exact SameFooting.moves (.frame (MQTTProxy.step_stages hstep rfl) rfl rfl rfl)
  | printer a =>
      simp only [tick] at h
      split at h
      · next ha =>
          obtain ⟨proxy, hstep, rfl⟩ := Option.map_eq_some_iff.mp h
          exact SameFooting.moves (.relayed (relays_stages ha) hstep)
      · cases h
  | request r =>
      cases h
      exact SameFooting.moves (.acquire (hrequest r))
  | grant r =>
      obtain ⟨lock, hgrant, rfl⟩ := Option.map_eq_some_iff.mp h
      exact SameFooting.moves (.waiting (hrequest r) (.inr hgrant))
  | drop r =>
      cases h
      exact SameFooting.moves (.waiting (hrequest r) (.inl rfl))
  | release r =>
      simp only [tick] at h
      split at h <;> cases h
      next hholder => exact SameFooting.moves (.release (hrequest r) hholder)
  | dial | attach =>
      simp only [tick] at h
      split at h <;> cases h
      exact SameFooting.moves (.frame (.refl _) rfl rfl rfl)
  | detach =>
      simp only [tick] at h
      split at h <;> cases h
      exact SameFooting.moves (.frame (.refl _) rfl rfl rfl)
  | refusal | stop =>
      cases h
      exact SameFooting.moves (.frame (.refl _) rfl rfl rfl)

theorem onClient_footing {a : Nat → MQTTProxy.Act} {before after : Stage}
    (ha : ∀ c, (∃ s', MQTTProxy.step cfg.toMqttSettings J e.proxy (a c) = some s') ↔ (e.proxy.conn c).stage = before)
    (hstep : ∀ c s', MQTTProxy.step cfg.toMqttSettings J e.proxy (a c) = some s' → (s'.conn c).stage = after) :
    (e.onClient cfg J j a).footing j =
      { e.footing j with stage := (e.footing j).stage.map fun stage => if stage = before then after else stage } := by
  unfold onClient
  split
  · next c hc =>
      unfold act
      split
      · next s' hs' =>
          have hbefore := (ha c).mp ⟨s', hs'⟩
          simp only [footing, hc, Option.map_some, hstep c s' hs', hbefore, if_true]
      · next hnone =>
          have hbefore : (e.proxy.conn c).stage ≠ before := by
            intro hbefore
            obtain ⟨s', hs'⟩ := (ha c).mpr hbefore
            cases hnone.symm.trans hs'
          simp only [footing, hc, Option.map_some, if_neg hbefore]
  · next hc => simp only [footing, hc, Option.map_none]

theorem finish_iff (s : MQTTProxy) (c : Nat) :
    (∃ s', MQTTProxy.step cfg.toMqttSettings J s (.finish c) = some s') ↔ (s.conn c).stage = .serving := by
  constructor
  · rintro ⟨s', hs'⟩
    cases MQTTProxy.step_cases hs'
    assumption
  · intro hstage
    exact ⟨_, by rw [MQTTProxy.step, hstage]⟩

theorem finish_stage {s s' : MQTTProxy} {c : Nat} (h : MQTTProxy.step cfg.toMqttSettings J s (.finish c) = some s') :
    (s'.conn c).stage = .ended := by
  cases MQTTProxy.step_cases h
  simp [MQTTProxy.setConn]

theorem sending_iff : e.sending j = true ↔ (e.footing j).stage = some .serving := by
  unfold sending footing
  cases (e.links j).client with
  | none => simp
  | some c => simp

theorem cancelPending_footing : (e.cancelPending cfg J j).footing j =
    { e.footing j with stage := (e.footing j).stage.map fun stage => if stage = .serving then .ended else stage } := by
  unfold cancelPending
  split
  · exact onClient_footing (finish_iff e.proxy) fun _ _ => finish_stage
  · next hsending =>
      have hstage : (e.footing j).stage ≠ some .serving := fun h => hsending (sending_iff.mpr h)
      have hsame : ((e.footing j).stage.map fun stage => if stage = .serving then .ended else stage) = (e.footing j).stage := by
        cases h : (e.footing j).stage with
        | none => rfl
        | some stage => exact congrArg some (if_neg fun heq => hstage (h.trans (congrArg some heq)))
      rw [hsame]

theorem leave_iff (s : MQTTProxy) (c : Nat) :
    (∃ s', MQTTProxy.step cfg.toMqttSettings J s (.leave c) = some s') ↔ (s.conn c).stage = .ended := by
  constructor
  · rintro ⟨s', hs'⟩
    cases MQTTProxy.step_cases hs'
    assumption
  · intro hstage
    exact ⟨_, by rw [MQTTProxy.step, hstage]⟩

theorem leave_stage {s s' : MQTTProxy} {c : Nat} (h : MQTTProxy.step cfg.toMqttSettings J s (.leave c) = some s') :
    (s'.conn c).stage = .over := by
  cases MQTTProxy.step_cases h
  simp [MQTTProxy.setConn]

theorem register_footing (hnone : (e.links j).client = none) :
    (e.register cfg J j).2.footing j = (e.footing j).after e.proxy.accepted .register (.ok (e.register cfg J j).1) := by
  cases haddress : MQTTProxy.advertisedAddress cfg.toMqttSettings (e.links j).peer.sockname with
  | none =>
      have hlink : (e.register cfg J j).2.links j = e.links j := by
        unfold register
        simp only [haddress, act_links]
      have hfst : (e.register cfg J j).1 = false := by
        unfold register
        simp only [haddress]
      simp only [hfst, footing, hlink, register_lock, hnone, Option.map_none, Footing.after]
  | some address =>
      have hfst : (e.register cfg J j).1 = true := by
        unfold register
        simp only [haddress]
      have hlink : ((e.register cfg J j).2.links j).client = some e.proxy.accepted ∧
          ((e.register cfg J j).2.links j).closed = (e.links j).closed := by
        unfold register
        simp [haddress, note, setLink, act_links]
      have hstage : ((e.register cfg J j).2.proxy.conn e.proxy.accepted).stage = .serving := by
        rw [register_proxy, (MQTTProxy.register_joins haddress e.proxy _).2.2]
      simp only [hfst, footing, hlink.1, hlink.2, register_lock, Option.map_some, hstage, Footing.after]

theorem acquire_cases (l : Lock) (h : Holder) :
    (l.acquire h = (true, ⟨some h, []⟩) ∧ l.waiters = []) ∨ l.acquire h = (false, ⟨l.holder, l.waiters ++ [h]⟩) := by
  unfold Lock.acquire
  split
  · next hwaiters => exact .inl ⟨rfl, hwaiters⟩
  · exact .inr rfl

theorem sync_footing {i : Op} {r : Except Exc i.Answer} (hregister : i = .register → (e.links j).client = none)
    (h : sync cfg J j i e = some (r, e')) : e'.footing j = (e.footing j).after e.proxy.accepted i r := by
  cases i with
  | register =>
      cases h
      exact register_footing (hregister rfl)
  | acquireLock =>
      cases h
      rcases acquire_cases e.upstreamLock (.handler j) with ⟨hacquire, hwaiters⟩ | hacquire
      · simp [hacquire, Footing.after, footing, hwaiters]
      · simp [hacquire, Footing.after, footing]
  | lockGranted => cases h
  | releaseLock =>
      cases h
      simp [Footing.after, footing, Lock.release]
  | cancelPending =>
      cases h
      exact cancelPending_footing
  | unregister =>
      cases h
      exact onClient_footing (leave_iff e.proxy) fun _ _ => leave_stage
  | close =>
      cases h
      simp [Footing.after, footing, setLink]
      rfl
  | _ => exact (sync_same h rfl j).footing

theorem resume_footing {i : Op} {r : Except Exc i.Answer} (hwaits : i ≠ .lockGranted → (e.footing j).waits = 0)
    (hblocked : ∃ e₀, sync cfg J j i e₀ = none) (h : resume j i r e = some e') :
    e'.footing j = (e.footing j).after e.proxy.accepted i r := by
  by_cases hi : i = .lockGranted
  · subst hi
    unfold resume at h
    split at h
    · split at h
      · cases h
        have hnone := drop_none e.upstreamLock (.handler j)
        simp [Footing.after, footing, setLink, hnone]
        rfl
      · cases h
    · cases r with
      | ok _ =>
          obtain ⟨lock, hgrant, rfl⟩ := Option.map_eq_some_iff.mp h
          obtain ⟨_, hholder, hwaiters⟩ := grant_cases hgrant
          simp [Footing.after, footing, hholder, hwaiters]
      | error x => cases h
  · rw [(resume_same h hi j (hwaits hi)).footing]
    obtain ⟨e₀, hnone⟩ := hblocked
    cases i with
    | lockGranted => exact absurd rfl hi
    | register | acquireLock | releaseLock | cancelPending | unregister | close => cases hnone
    | _ => rfl

end Server

end PandaProxy.Mqtt
