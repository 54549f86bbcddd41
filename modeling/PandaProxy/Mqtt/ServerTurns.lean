import PandaProxy.Mqtt.Server

namespace PandaProxy.Mqtt

open Async Json Python

namespace Server

def emits : (i : Op) → Except Exc i.Answer → Option Event
  | .readPacket _, .ok packet => some (.read packet)
  | .write data, .ok _ => some (.wrote data)
  | .register, .ok true => some .joined
  | .publish _ topic payload qos, .ok _ => some (.handed topic payload qos)
  | .createSnapshotTask, .ok _ => some .snapshot
  | _, _ => none

theorem emits_error (i : Op) (x : Exc) : emits i (.error x) = none := by
  cases i <;> rfl

structure SameLink (l l' : Link) : Prop where
  peer : l'.peer = l.peer
  arrived : l'.arrived = l.arrived
  unread : l'.unread = l.unread
  closed : l'.closed = l.closed
  client : l'.client = l.client
  sent : l'.sent = l.sent
  log : l'.log = l.log

theorem SameLink.refl (l : Link) : SameLink l l := ⟨rfl, rfl, rfl, rfl, rfl, rfl, rfl⟩

structure Quiet (e e' : Server) : Prop where
  proxy : e'.proxy = e.proxy
  handed : e'.handed = e.handed
  links : ∀ j, SameLink (e.links j) (e'.links j)

theorem Quiet.refl (e : Server) : Quiet e e := ⟨rfl, rfl, fun _ => .refl _⟩

theorem SameLink.waiting (l : Link) (eof : Bool) (flow : Flow) (woken cancelling : Bool) (failure : Option Exc) :
    SameLink l { l with eof := eof, flow := flow, woken := woken, cancelling := cancelling, failure := failure } :=
  ⟨rfl, rfl, rfl, rfl, rfl, rfl, rfl⟩

theorem Quiet.setLink {e : Server} {j : Nat} {f : Link → Link} (hf : ∀ l, SameLink l (f l)) : Quiet e (e.setLink j f) where
  proxy := rfl
  handed := rfl
  links k := by
    by_cases hk : k = j
    · subst hk
      simpa [Server.setLink] using hf (e.links k)
    · simpa [Server.setLink, hk] using SameLink.refl (e.links k)

-- What one turn does to everything around the handlers, and the entry it adds to a log.
inductive Change (cfg : ServerSettings) (J : Codec) : Option (Nat × Event) → Server → Server → Prop
  | quiet {e e' : Server} (h : Quiet e e') : Change cfg J none e e'
  | read {e : Server} {j : Nat} {packet : MQTTPacket} {rest : List UInt8}
      (h : readPacket (e.links j).unread = (.ok packet, rest)) :
      Change cfg J (some (j, .read packet)) e (e.took j packet rest)
  | wrote {e : Server} {j : Nat} {data : List UInt8} :
      Change cfg J (some (j, .wrote data)) e ((e.put j (.answer data)).note j (.wrote data))
  | joined {e : Server} {j : Nat} {address : String}
      (h : MQTTProxy.advertisedAddress cfg.toMqttSettings (e.links j).peer.sockname = some address) :
      Change cfg J (some (j, .joined)) e
        (((e.act cfg J (.register (e.links j).peer.clientId (e.links j).peer.sockname)).setLink j
          fun l => { l with client := some e.proxy.accepted }).note j .joined)
  | refused {e : Server} {j : Nat}
      (h : MQTTProxy.advertisedAddress cfg.toMqttSettings (e.links j).peer.sockname = none) :
      Change cfg J none e (e.act cfg J (.register (e.links j).peer.clientId (e.links j).peer.sockname))
  | handed {e : Server} {j client : Nat} {topic : String} {payload : List UInt8} {qos : Nat} :
      Change cfg J (some (j, .handed topic payload qos)) e
        { e.note j (.handed topic payload qos) with handed := e.handed ++ [⟨j, client, topic, payload, qos⟩] }
  | snapshot {e : Server} {j : Nat} :
      Change cfg J (some (j, .snapshot)) e ((e.onClient cfg J j .subscribe).note j .snapshot)
  | departs {e e' : Server} {j : Nat} {a : Nat → MQTTProxy.Act} (ha : a = .finish ∨ a = .leave)
      (h : Quiet (e.onClient cfg J j a) e') : Change cfg J none e e'
  | closed {e : Server} {j : Nat} : Change cfg J none e (e.setLink j fun l => { l with closed := true })
  | received {e : Server} {j : Nat} {data : List UInt8} :
      Change cfg J none e (e.setLink j fun l => { l with arrived := l.arrived ++ data, unread := l.unread ++ data })
  | sent {e : Server} {j c : Nat} {packet : Publish} {queue : List Publish} {proxy : MQTTProxy}
      (hclient : (e.links j).client = some c) (hqueue : (e.proxy.conn c).queue = packet :: queue)
      (hstep : MQTTProxy.step cfg.toMqttSettings J e.proxy (.send c) = some proxy) :
      Change cfg J none e { e.put j (.report packet) with proxy := proxy }
  | relayed {e e' : Server} {a : MQTTProxy.Act} {proxy : MQTTProxy} (ha : relays a = true ∨ a = .connect ∨ a = .lose)
      (hstep : MQTTProxy.step cfg.toMqttSettings J e.proxy a = some proxy) (h : Quiet { e with proxy := proxy } e') :
      Change cfg J none e e'

variable {cfg : ServerSettings} {J : Codec} {j : Nat} {e e' : Server}

theorem sync_change {i : Op} {r : Except Exc i.Answer} (h : sync cfg J j i e = some (r, e')) :
    Change cfg J ((emits i r).map fun v => (j, v)) e e' := by
  cases i with
  | readPacket timeout =>
      simp only [sync] at h
      split at h
      · cases h
        exact .quiet (.setLink fun l => .waiting l l.eof l.flow l.woken false l.failure)
      · split at h
        · cases h
          exact .quiet (.refl e)
        · next packet rest _ hread =>
            cases h
            exact .read hread
        · cases h
          exact .quiet (.refl e)
        · split at h <;> cases h
          exact .quiet (.refl e)
  | write data =>
      cases h
      exact .wrote
  | register =>
      cases h
      cases haddress : MQTTProxy.advertisedAddress cfg.toMqttSettings (e.links j).peer.sockname with
      | some address =>
          simp only [register, haddress]
          exact .joined haddress
      | none =>
          simp only [register, haddress]
          exact .refused haddress
  | publish client topic payload qos =>
      simp only [sync, publish, Option.some.injEq] at h
      split at h <;> cases h
      · exact .quiet (.refl e)
      · exact .handed
  | createSnapshotTask =>
      cases h
      exact .snapshot
  | cancelPending =>
      cases h
      unfold cancelPending
      split
      · exact .departs (.inl rfl) (.refl _)
      · exact .quiet (.refl e)
  | unregister =>
      cases h
      exact .departs (.inr rfl) (.refl _)
  | close =>
      cases h
      exact .closed
  | upstreamConnected =>
      cases h
      exact .quiet (.setLink fun l => .waiting l l.eof l.flow false l.cancelling l.failure)
  | drain =>
      simp only [sync] at h
      split at h <;> cases h <;> exact .quiet (.refl e)
  | waitUpstream timeout => cases h
  | lockGranted => cases h
  | confirmed => cases h
  | gatherPending => cases h
  | waitClosed timeout => cases h
  | acquireLock =>
      cases h
      exact .quiet ⟨rfl, rfl, fun _ => .refl _⟩
  | releaseLock =>
      cases h
      exact .quiet ⟨rfl, rfl, fun _ => .refl _⟩
  | running =>
      cases h
      exact .quiet (.refl e)
  | upstreamClient =>
      cases h
      exact .quiet (.refl e)
  | abort =>
      cases h
      exact .quiet (.refl e)

theorem act_links (cfg : ServerSettings) (J : Codec) (e : Server) (a : MQTTProxy.Act) : (e.act cfg J a).links = e.links := by
  unfold act
  split <;> rfl

theorem onClient_links (e : Server) (j : Nat) (a : Nat → MQTTProxy.Act) : (e.onClient cfg J j a).links = e.links := by
  unfold onClient
  split
  · exact act_links cfg J e _
  · rfl

theorem awaken_change {i : Op} {r : Except Exc i.Answer} (h : e.awaken j i r = some e') :
    Change cfg J ((emits i r).map fun v => (j, v)) e e' := by
  unfold awaken at h
  split at h
  · next packet =>
      split at h
      · next found rest hread =>
          split at h <;> cases h
          next hfound =>
            subst hfound
            exact .read hread
      · cases h
  all_goals
    repeat' split at h
  all_goals
    first
    | cases h
    | obtain ⟨l, _, rfl⟩ := Option.map_eq_some_iff.mp h
  all_goals exact .quiet ⟨rfl, rfl, fun _ => .refl _⟩

theorem resume_change {i : Op} {r : Except Exc i.Answer} (h : resume j i r e = some e') :
    Change cfg J ((emits i r).map fun v => (j, v)) e e' := by
  unfold resume at h
  split at h
  · split at h
    · cases h
      rw [emits_error]
      have hquiet := Quiet.setLink (e := e) (j := j) fun l => .waiting l l.eof l.flow l.woken false l.failure
      exact .quiet ⟨hquiet.proxy, hquiet.handed, hquiet.links⟩
    · cases h
  · exact awaken_change h

theorem tick_change {b : Tick} (h : e.tick cfg J b = some e') : Change cfg J none e e' := by
  have hwaiting : ∀ (k : Nat) (eof : Link → Bool) (flow : Link → Flow) (cancelling : Link → Bool),
      Quiet e (e.setLink k fun l => { l with eof := eof l, flow := flow l, cancelling := cancelling l }) :=
    fun k eof flow cancelling => .setLink fun l => .waiting l (eof l) (flow l) l.woken (cancelling l) l.failure
  cases b with
  | receive k data =>
      simp only [tick] at h
      split at h <;> cases h
      exact .received
  | hangUp k =>
      cases h
      exact .quiet (hwaiting k (fun _ => true) Link.flow Link.cancelling)
  | flow k f =>
      cases h
      exact .quiet (hwaiting k Link.eof (fun _ => f) Link.cancelling)
  | breaks k x =>
      simp only [tick] at h
      split at h <;> cases h
      exact .quiet (.setLink fun l => .waiting l l.eof l.flow l.woken l.cancelling (some x))
  | send k =>
      simp only [tick] at h
      split at h
      · next c hclient =>
          split at h
          · next packet queue hqueue =>
              obtain ⟨proxy, hstep, rfl⟩ := Option.map_eq_some_iff.mp h
              exact .sent hclient hqueue hstep
          · cases h
      · cases h
  | sendEnds k =>
      simp only [tick] at h
      split at h
      · next c hclient =>
          obtain ⟨proxy, hstep, rfl⟩ := Option.map_eq_some_iff.mp h
          have hact : e.onClient cfg J k .finish = { e with proxy := proxy } := by
            simp only [onClient, hclient, act, hstep]
          have hquiet := hwaiting k Link.eof Link.flow fun _ => true
          refine .departs (j := k) (.inl rfl) ?_
          rw [hact]
          exact ⟨rfl, hquiet.handed, hquiet.links⟩
      · cases h
  | cancel k =>
      cases h
      exact .quiet (hwaiting k Link.eof Link.flow fun _ => true)
  | subscribed =>
      simp only [tick] at h
      split at h <;> cases h
      exact .quiet ⟨rfl, rfl, fun k => .waiting (e.links k) _ _ true _ _⟩
  | connect =>
      simp only [tick] at h
      split at h
      · obtain ⟨proxy, hstep, rfl⟩ := Option.map_eq_some_iff.mp h
        exact .relayed (.inr (.inl rfl)) hstep (.refl _)
      · cases h
  | lose =>
      obtain ⟨proxy, hstep, rfl⟩ := Option.map_eq_some_iff.mp h
      exact .relayed (.inr (.inr rfl)) hstep ⟨rfl, rfl, fun _ => .refl _⟩
  | printer a =>
      simp only [tick] at h
      split at h
      · next ha =>
          obtain ⟨proxy, hstep, rfl⟩ := Option.map_eq_some_iff.mp h
          exact .relayed (.inl ha) hstep (.refl _)
      · cases h
  | grant r =>
      obtain ⟨l, _, rfl⟩ := Option.map_eq_some_iff.mp h
      exact .quiet ⟨rfl, rfl, fun _ => .refl _⟩
  | dial =>
      simp only [tick] at h
      split at h <;> cases h
      exact .quiet ⟨rfl, rfl, fun _ => .refl _⟩
  | attach =>
      simp only [tick] at h
      split at h <;> cases h
      exact .quiet ⟨rfl, rfl, fun _ => .refl _⟩
  | detach =>
      simp only [tick] at h
      split at h <;> cases h
      exact .quiet ⟨rfl, rfl, fun _ => .refl _⟩
  | release r =>
      simp only [tick] at h
      split at h <;> cases h
      exact .quiet ⟨rfl, rfl, fun _ => .refl _⟩
  | refusal x =>
      cases h
      exact .quiet ⟨rfl, rfl, fun _ => .refl _⟩
  | request r =>
      cases h
      exact .quiet ⟨rfl, rfl, fun _ => .refl _⟩
  | drop r =>
      cases h
      exact .quiet ⟨rfl, rfl, fun _ => .refl _⟩
  | stop =>
      cases h
      exact .quiet ⟨rfl, rfl, fun _ => .refl _⟩

theorem setLink_same {β : Type} {f : Link → Link} {k : Nat} (g : Link → β) (hf : ∀ l, g (f l) = g l) :
    g ((e.setLink j f).links k) = g (e.links k) := by
  by_cases hk : k = j
  · subst hk
    simp [setLink, hf]
  · simp [setLink, hk]

theorem put_same {β : Type} {packet : Outgoing} {k : Nat} (g : Link → β)
    (hg : ∀ l sent, g { l with sent := sent } = g l) : g ((e.put j packet).links k) = g (e.links k) := by
  unfold put
  split
  · rfl
  · exact setLink_same g fun l => hg l _

theorem note_same {β : Type} {v : Event} {k : Nat} (g : Link → β) (hg : ∀ l log, g { l with log := log } = g l) :
    g ((e.note j v).links k) = g (e.links k) :=
  setLink_same g fun l => hg l _

theorem log_note {v : Event} (k : Nat) :
    ((e.note j v).links k).log = if k = j then (e.links k).log ++ [v] else (e.links k).log := by
  by_cases hk : k = j
  · subst hk
    simp [note, setLink]
  · simp [note, setLink, hk]

def entry (v : Option (Nat × Event)) (k : Nat) : List Event :=
  match v with
  | some (j, x) => if k = j then [x] else []
  | none => []

theorem Change.log {v : Option (Nat × Event)} (h : Change cfg J v e e') (k : Nat) :
    (e'.links k).log = (e.links k).log ++ entry v k := by
  have hnote : ∀ (e₁ : Server) {j : Nat} {x : Event}, (∀ k, (e₁.links k).log = (e.links k).log) →
      ((e₁.note j x).links k).log = (e.links k).log ++ entry (some (j, x)) k := by
    intro e₁ j x hsame
    rw [log_note, hsame, entry]
    split
    · rfl
    · exact (List.append_nil _).symm
  cases h with
  | quiet h => rw [(h.links k).log, entry, List.append_nil]
  | read _ => exact hnote _ fun _ => setLink_same Link.log fun _ => rfl
  | wrote => exact hnote _ fun _ => put_same Link.log fun _ _ => rfl
  | @joined _ i _ _ =>
      refine hnote _ fun k => ?_
      have hact := act_links cfg J e (.register (e.links i).peer.clientId (e.links i).peer.sockname)
      rw [← hact]
      exact setLink_same Link.log fun _ => rfl
  | refused _ => rw [act_links cfg J, entry, List.append_nil]
  | handed => exact hnote e fun _ => rfl
  | snapshot =>
      refine hnote _ fun k => ?_
      rw [onClient_links]
  | departs _ h => rw [(h.links k).log, onClient_links, entry, List.append_nil]
  | closed =>
      rw [entry, List.append_nil]
      exact setLink_same Link.log fun _ => rfl
  | received =>
      rw [entry, List.append_nil]
      exact setLink_same Link.log fun _ => rfl
  | sent _ _ _ =>
      rw [entry, List.append_nil]
      exact put_same Link.log fun _ _ => rfl
  | relayed _ _ h => rw [(h.links k).log, entry, List.append_nil]

theorem entry_emits {i : Op} {r : Except Exc i.Answer} :
    entry ((emits i r).map fun v => (j, v)) j = (emits i r).toList ∧
      ∀ k, k ≠ j → entry ((emits i r).map fun v => (j, v)) k = [] := by
  cases emits i r with
  | none => exact ⟨rfl, fun _ _ => rfl⟩
  | some v => exact ⟨if_pos rfl, fun k hk => if_neg hk⟩

def narrated (cfg : ServerSettings) (J : Codec) : Narrated (mqttServer cfg J) Event where
  log e j := (e.links j).log
  emits := emits
  spawn _ e _ _ h := by
    cases h
    rfl
  sync j i e r e' h := by
    have hlog := (sync_change h).log
    exact ⟨by rw [hlog j, entry_emits.1], fun k hk => by rw [hlog k, entry_emits.2 k hk, List.append_nil]⟩
  resume j i r e e' h := by
    have hchange : Change cfg J ((emits i r).map fun v => (j, v)) e e' := resume_change h
    have hlog := hchange.log
    exact ⟨by rw [hlog j, entry_emits.1], fun k hk => by rw [hlog k, entry_emits.2 k hk, List.append_nil]⟩
  tick b e e' h := by
    funext k
    exact ((tick_change h).log k).trans (List.append_nil _)

theorem keeps {X : Server → Prop} (hX : ∀ v e e', X e → Change cfg J v e e' → X e') {peers : Nat → Peer} {c : ServerConfig}
    (hrun : (mqttServer cfg J).Runs (fun _ _ _ => True) (listening peers) c) (h : X (init peers)) : X c.env := by
  induction hrun with
  | refl => exact h
  | tail _ hlast ih =>
      obtain ⟨a, hstep, _⟩ := hlast
      refine System.step_keeps (mqttServer cfg J) (fun j e s e' h hspawn => ?_)
        (fun j i e r e' _ h hsync => hX _ e e' h (sync_change hsync))
        (fun j i r e e' _ h hresume => hX _ e e' h (resume_change hresume))
        (fun b e e' h htick => hX _ e e' h (tick_change htick)) hstep ih
      cases hspawn
      exact h

def Moves (cfg : ServerSettings) (J : Codec) (s s' : MQTTProxy) : Prop :=
  s' = s ∨ ∃ a, MQTTProxy.step cfg.toMqttSettings J s a = some s'

theorem act_moves (cfg : ServerSettings) (J : Codec) (e : Server) (a : MQTTProxy.Act) : Moves cfg J e.proxy (e.act cfg J a).proxy := by
  unfold act
  split
  · next proxy hstep => exact .inr ⟨a, hstep⟩
  · exact .inl rfl

theorem onClient_moves (cfg : ServerSettings) (J : Codec) (e : Server) (j : Nat) (a : Nat → MQTTProxy.Act) :
    Moves cfg J e.proxy (e.onClient cfg J j a).proxy := by
  unfold onClient
  split
  · exact act_moves cfg J e _
  · exact .inl rfl

theorem put_proxy (e : Server) (j : Nat) (packet : Outgoing) : (e.put j packet).proxy = e.proxy := by
  unfold put
  split <;> rfl

theorem Change.moves {v : Option (Nat × Event)} (h : Change cfg J v e e') : Moves cfg J e.proxy e'.proxy := by
  cases h with
  | quiet h => exact .inl h.proxy
  | wrote => exact .inl (put_proxy e _ _)
  | joined _ => exact act_moves cfg J e _
  | refused _ => exact act_moves cfg J e _
  | snapshot => exact onClient_moves cfg J e _ _
  | departs _ h =>
      rw [h.proxy]
      exact onClient_moves cfg J e _ _
  | sent _ _ hstep => exact .inr ⟨_, hstep⟩
  | relayed _ hstep h =>
      rw [h.proxy]
      exact .inr ⟨_, hstep⟩
  | _ => exact .inl rfl

theorem keeps_proxy {I : MQTTProxy → Prop} {peers : Nat → Peer} {c : ServerConfig} (hinit : I .init)
    (hI : ∀ s a s', I s → MQTTProxy.step cfg.toMqttSettings J s a = some s' → I s')
    (hrun : (mqttServer cfg J).Runs (fun _ _ _ => True) (listening peers) c) : I c.env.proxy := by
  refine keeps (X := fun e => I e.proxy) (fun _ e e' h hchange => ?_) hrun hinit
  rcases hchange.moves with hsame | ⟨a, hstep⟩
  · rwa [hsame]
  · exact hI _ a _ h hstep

end Server

end PandaProxy.Mqtt
