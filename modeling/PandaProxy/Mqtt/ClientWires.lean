import PandaProxy.Mqtt.ClientTraffic

namespace PandaProxy.Mqtt

open Async Json Python Reading
open scoped List

namespace MQTTProxy

variable {cfg : MqttSettings} {J : Codec} {s s' : MQTTProxy} {a : Act}

structure Wires (s s' : MQTTProxy) : Prop where
  accepted : s'.accepted = s.accepted
  written : ∀ c, (s'.conn c).written = (s.conn c).written
  closed : ∀ c, (s.conn c).closed = true → (s'.conn c).closed = true

theorem Wires.same (haccepted : s'.accepted = s.accepted) (hconn : s'.conn = s.conn) : Wires s s' :=
  ⟨haccepted, fun c => by rw [hconn], fun c hc => by rwa [hconn]⟩

theorem Delivers.wires {P : Nat → Publish → Prop} (h : Delivers P s s') : Wires s s' := ⟨h.accepted, h.written, h.stays⟩

theorem Wires.trans {s'' : MQTTProxy} (h : Wires s s') (h' : Wires s' s'') : Wires s s'' :=
  ⟨h'.accepted.trans h.accepted, fun c => (h'.written c).trans (h.written c), fun c hc => h'.closed c (h.closed c hc)⟩

theorem Wires.setConn {c : Nat} {f : Client → Client} (hwritten : ∀ x, (f x).written = x.written)
    (hclosed : ∀ x, x.closed = true → (f x).closed = true) : Wires s (s.setConn c f) := by
  refine ⟨rfl, fun k => setConn_same Client.written hwritten, fun k hk => ?_⟩
  by_cases hkc : k = c
  · subst hkc
    simpa [MQTTProxy.setConn] using hclosed _ hk
  · simpa [MQTTProxy.setConn, hkc] using hk

theorem takenIn_wires (cfg : MqttSettings) (J : Codec) (s : MQTTProxy) (topic : String) (payload : List UInt8) :
    Wires s (takenIn cfg J s topic payload) := by
  unfold takenIn
  split
  · rcases cacheReport_cases J s payload with ⟨_, _, _, h⟩ | ⟨_, _, _, _, _, h, _⟩ <;> rw [h] <;> exact .same rfl rfl
  · exact .same rfl rfl

theorem handleMessage_wires (cfg : MqttSettings) (J : Codec) (s : MQTTProxy) (topic : String) (payload : List UInt8) :
    Wires s (handleMessage cfg J s topic payload) := by
  refine (takenIn_wires cfg J s topic payload).trans ?_
  rcases handleMessage_cases cfg J s topic payload with h | ⟨personalised, h, _⟩
  · rw [h]
    exact .same rfl rfl
  · rw [h]
    exact (relay_delivers (P := fun _ _ => True) _ fun _ _ _ => trivial).1.wires

theorem step_wires (hstep : step cfg J s a = some s') (hsend : ∀ c, a ≠ .send c)
    (hregister : ∀ id sockname, a ≠ .register id sockname) : Wires s s' := by
  cases step_cases hstep with
  | connect _ => exact .same rfl rfl
  | message _ => exact handleMessage_wires cfg J s _ _
  | @hungUp b _ => exact (relay_delivers (P := fun _ _ => True) b.targets fun _ _ _ => trivial).1.wires
  | fail _ => exact .same rfl rfl
  | lose _ => exact .same rfl rfl
  | register => exact absurd rfl (hregister _ _)
  | subscribe _ => exact .same rfl rfl
  | unreplayed _ _ _ => exact .same rfl rfl
  | @replay t c id packets _ _ _ _ => exact (replay_delivers (P := fun _ _ => True) id _ fun _ _ => trivial).1.wires
  | giveUp _ _ => exact .same rfl rfl
  | @replayHungUp t c id rest _ => exact (replay_delivers (P := fun _ _ => True) id rest fun _ _ => trivial).1.wires
  | send _ _ => exact absurd rfl (hsend _)
  | finish _ =>
      refine .setConn ?_ ?_
      · exact fun _ => rfl
      · exact fun _ h => h
  | @leave c _ =>
      have hforget : Wires s (s.forget (s.conn c).clientId) := .same rfl rfl
      refine hforget.trans (.setConn ?_ ?_)
      · exact fun _ => rfl
      · exact fun _ _ => rfl

theorem register_joins {sockname : Option String} {address : String} (h : advertisedAddress cfg sockname = some address)
    (s : MQTTProxy) (id : String) :
    (register cfg s id sockname).accepted = s.accepted + 1 ∧
      (∀ c, c ≠ s.accepted → (register cfg s id sockname).conn c = s.conn c) ∧
      (register cfg s id sockname).conn s.accepted = ⟨id, address, [], [], [], false, .serving⟩ := by
  unfold register
  rw [h]
  exact ⟨rfl, fun c hc => Function.update_of_ne hc _ _, Function.update_self _ _ _⟩

theorem register_refuses {sockname : Option String} (h : advertisedAddress cfg sockname = none) (s : MQTTProxy)
    (id : String) : Wires s (register cfg s id sockname) := by
  simp only [register, h]
  exact .same rfl rfl

end MQTTProxy

open MQTTProxy (Wires)

namespace Server

variable {cfg : ServerSettings} {J : Codec} {v : Option (Nat × Event)} {e e' : Server}

def answers (e : Server) (j : Nat) : List (List UInt8) := (e.links j).sent.filterMap Outgoing.answered

def reports (e : Server) (j : Nat) : List Publish := (e.links j).sent.filterMap Outgoing.reported

def wrote (e : Server) (j : Nat) : List (List UInt8) := (e.links j).log.filterMap Event.wroteOut

-- Which handler each registered client belongs to, and what has gone out to it from either loop.
structure Wired (e : Server) : Prop where
  known : ∀ j c, (e.links j).client = some c → c < e.proxy.accepted
  distinct : ∀ j k c, (e.links j).client = some c → (e.links k).client = some c → j = k
  owned : ∀ c < e.proxy.accepted, ∃ j, (e.links j).client = some c
  joined : ∀ j c, (e.links j).client = some c → Event.joined ∈ (e.links j).log
  unjoined : ∀ j, (e.links j).client = none → Event.joined ∉ (e.links j).log ∧ e.reports j = []
  answers : ∀ j, e.answers j <+: e.wrote j ∧ (e.isClosed j = false → e.answers j = e.wrote j)
  reports : ∀ j c, (e.links j).client = some c →
    e.reports j <+: (e.proxy.conn c).written ∧ ((e.links j).closed = false → e.reports j = (e.proxy.conn c).written)

structure SameWire (l l' : Link) : Prop where
  client : l'.client = l.client
  sent : l'.sent = l.sent
  closed : l.closed = true → l'.closed = true

theorem isClosed_keeps {j : Nat} (hproxy : Wires e.proxy e'.proxy) (hlink : SameWire (e.links j) (e'.links j))
    (h : e.isClosed j = true) : e'.isClosed j = true := by
  unfold isClosed at h ⊢
  rw [hlink.client]
  rcases Bool.or_eq_true_iff.mp h with hclosed | hconn
  · rw [hlink.closed hclosed, Bool.true_or]
  · rw [Bool.or_eq_true_iff]
    right
    split at hconn
    · next c hclient => exact hproxy.closed c hconn
    · cases hconn

def Silent (v : Option (Nat × Event)) : Prop := ∀ j x, v = some (j, x) → x ≠ .joined ∧ x.wroteOut = none

theorem Silent.none : Silent none := by
  rintro _ _ ⟨⟩

theorem Silent.entry (h : Silent v) (j : Nat) :
    Event.joined ∉ Server.entry v j ∧ (Server.entry v j).filterMap Event.wroteOut = [] := by
  unfold Server.entry
  split
  · next i x =>
      obtain ⟨hne, hwrote⟩ := h i x rfl
      split
      · exact ⟨by simpa using hne.symm, by simp [hwrote]⟩
      · exact ⟨List.not_mem_nil, rfl⟩
  · exact ⟨List.not_mem_nil, rfl⟩

theorem Wired.keeps (h : Wired e) (hproxy : Wires e.proxy e'.proxy) (hclient : ∀ j, (e'.links j).client = (e.links j).client)
    (hclosed : ∀ j, (e.links j).closed = true → (e'.links j).closed = true) (hreports : ∀ j, e'.reports j = e.reports j)
    (hlog : ∀ j, Event.joined ∈ (e'.links j).log ↔ Event.joined ∈ (e.links j).log)
    (hanswers : ∀ j, e'.answers j <+: e'.wrote j ∧ (e'.isClosed j = false → e'.answers j = e'.wrote j)) : Wired e' where
  known j c hc := by
    rw [hproxy.accepted]
    exact h.known j c (hclient j ▸ hc)
  distinct j k c hj hk := h.distinct j k c (hclient j ▸ hj) (hclient k ▸ hk)
  owned c hc := by
    obtain ⟨j, hj⟩ := h.owned c (hproxy.accepted ▸ hc)
    exact ⟨j, (hclient j).trans hj⟩
  joined j c hc := (hlog j).mpr (h.joined j c (hclient j ▸ hc))
  unjoined j hj := by
    obtain ⟨hnot, hnone⟩ := h.unjoined j (hclient j ▸ hj)
    exact ⟨fun hmem => hnot ((hlog j).mp hmem), (hreports j).trans hnone⟩
  answers := hanswers
  reports j c hc := by
    rw [hreports j, hproxy.written c]
    obtain ⟨hstart, hall⟩ := h.reports j c (hclient j ▸ hc)
    refine ⟨hstart, fun hopen => hall ?_⟩
    by_contra hshut
    rw [hclosed j (by simpa using hshut)] at hopen
    cases hopen

theorem Wired.frame (h : Wired e) (hproxy : Wires e.proxy e'.proxy) (hlinks : ∀ j, SameWire (e.links j) (e'.links j))
    (hlog : ∀ j, (e'.links j).log = (e.links j).log ++ Server.entry v j) (hv : Silent v) : Wired e' := by
  refine h.keeps hproxy (fun j => (hlinks j).client) (fun j => (hlinks j).closed) (fun j => ?_) (fun j => ?_) fun j => ?_
  · rw [Server.reports, (hlinks j).sent]
    rfl
  · rw [hlog j, List.mem_append]
    exact or_iff_left (hv.entry j).1
  · have hanswers : e'.answers j = e.answers j := by
      rw [Server.answers, (hlinks j).sent]
      rfl
    have hwrote : e'.wrote j = e.wrote j := by
      rw [Server.wrote, hlog j, List.filterMap_append, (hv.entry j).2, List.append_nil]
      rfl
    rw [hanswers, hwrote]
    refine ⟨(h.answers j).1, fun hopen => (h.answers j).2 ?_⟩
    by_contra hclosed
    rw [isClosed_keeps hproxy (hlinks j) (by simpa using hclosed)] at hopen
    cases hopen

theorem SameWire.refl (l : Link) : SameWire l l := ⟨rfl, rfl, id⟩

theorem SameWire.trans {l l' l'' : Link} (h : SameWire l l') (h' : SameWire l' l'') : SameWire l l'' :=
  ⟨h'.client.trans h.client, h'.sent.trans h.sent, fun hc => h'.closed (h.closed hc)⟩

theorem SameLink.sameWire {l l' : Link} (h : SameLink l l') : SameWire l l' :=
  ⟨h.client, h.sent, fun hc => h.closed.trans hc⟩

theorem SameWire.setLink {j : Nat} {f : Link → Link} (hf : ∀ l, SameWire l (f l)) (k : Nat) :
    SameWire (e.links k) ((e.setLink j f).links k) := by
  by_cases hk : k = j
  · subst hk
    simpa [Server.setLink] using hf (e.links k)
  · simpa [Server.setLink, hk] using SameWire.refl (e.links k)

theorem SameWire.note (e : Server) (j : Nat) (x : Event) (k : Nat) : SameWire (e.links k) ((e.note j x).links k) := by
  refine .setLink ?_ k
  exact fun _ => ⟨rfl, rfl, id⟩

theorem act_wires (cfg : ServerSettings) (J : Codec) (e : Server) {a : MQTTProxy.Act} (hsend : ∀ c, a ≠ .send c)
    (hregister : ∀ id sockname, a ≠ .register id sockname) : Wires e.proxy (e.act cfg J a).proxy := by
  unfold act
  split
  · next proxy hstep => exact MQTTProxy.step_wires hstep hsend hregister
  · exact .same rfl rfl

theorem onClient_wires (cfg : ServerSettings) (J : Codec) (e : Server) (j : Nat) {a : Nat → MQTTProxy.Act}
    (hsend : ∀ c c', a c ≠ .send c') (hregister : ∀ c id sockname, a c ≠ .register id sockname) :
    Wires e.proxy (e.onClient cfg J j a).proxy := by
  unfold onClient
  split
  · next c _ => exact act_wires cfg J e (hsend c) (hregister c)
  · exact .same rfl rfl

theorem isClosed_note (e : Server) (j : Nat) (x : Event) (k : Nat) : (e.note j x).isClosed k = e.isClosed k := by
  have hsame := note_same (e := e) (j := j) (v := x) (k := k) (fun l => (l.closed, l.client)) fun _ _ => rfl
  obtain ⟨hclosed, hclient⟩ := Prod.mk.inj hsame
  unfold isClosed
  rw [hclosed, hclient]
  rfl

theorem put_sent (e : Server) (j : Nat) (packet : Outgoing) (k : Nat) : ((e.put j packet).links k).sent =
    if k = j ∧ e.isClosed j = false then (e.links k).sent ++ [packet] else (e.links k).sent := by
  unfold put
  by_cases hclosed : e.isClosed j = true
  · rw [if_pos hclosed, if_neg (by simp [hclosed])]
  · rw [if_neg hclosed]
    by_cases hk : k = j
    · subst hk
      rw [if_pos ⟨rfl, by simpa using hclosed⟩]
      simp [setLink]
    · rw [if_neg fun h => hk h.1]
      simp [setLink, hk]

theorem put_isClosed (e : Server) (j : Nat) (packet : Outgoing) (k : Nat) : (e.put j packet).isClosed k = e.isClosed k := by
  have hsame : (((e.put j packet).links k).closed, ((e.put j packet).links k).client) = ((e.links k).closed, (e.links k).client) :=
    put_same (fun l => (l.closed, l.client)) fun _ _ => rfl
  have hproxy : (e.put j packet).proxy = e.proxy := by
    unfold put
    split <;> rfl
  obtain ⟨hclosed, hclient⟩ := Prod.mk.inj hsame
  unfold isClosed
  rw [hclosed, hclient, hproxy]

theorem Wired.wrote {j : Nat} {data : List UInt8} (h : Wired e) : Wired ((e.put j (.answer data)).note j (.wrote data)) := by
  have hlog := (Change.wrote : Change home plain _ e ((e.put j (.answer data)).note j (.wrote data))).log
  have hproxy : (e.put j (.answer data)).proxy = e.proxy := by
    unfold put
    split <;> rfl
  have hsent : ∀ k, (((e.put j (.answer data)).note j (.wrote data)).links k).sent =
      if k = j ∧ e.isClosed j = false then (e.links k).sent ++ [.answer data] else (e.links k).sent := by
    intro k
    rw [← put_sent]
    exact note_same Link.sent fun _ _ => rfl
  refine h.keeps (.same (congrArg MQTTProxy.accepted hproxy) (congrArg MQTTProxy.conn hproxy)) (fun k => ?_) (fun k => ?_)
    (fun k => ?_) (fun k => ?_) fun k => ?_
  · exact (note_same Link.client fun _ _ => rfl).trans (put_same Link.client fun _ _ => rfl)
  · intro hclosed
    rw [← hclosed]
    exact (note_same Link.closed fun _ _ => rfl).trans (put_same Link.closed fun _ _ => rfl)
  · rw [Server.reports, hsent k]
    split
    · rw [List.filterMap_append]
      exact List.append_nil _
    · rfl
  · rw [hlog k, List.mem_append, entry]
    split
    · simp
    · simp
  · rw [isClosed_note, put_isClosed, Server.answers, Server.wrote, hsent k, hlog k, List.filterMap_append, entry]
    obtain ⟨hstart, hall⟩ := h.answers k
    by_cases hk : k = j
    · subst hk
      rw [if_pos rfl]
      cases hclosed : e.isClosed k with
      | true =>
          rw [if_neg (by simp)]
          exact ⟨hstart.trans (List.prefix_append _ _), by rintro ⟨⟩⟩
      | false =>
          have heq : (e.links k).sent.filterMap Outgoing.answered = (e.links k).log.filterMap Event.wroteOut := hall hclosed
          rw [if_pos ⟨rfl, rfl⟩, List.filterMap_append, heq]
          exact ⟨List.prefix_refl _, fun _ => rfl⟩
    · rw [if_neg hk, if_neg fun h => hk h.1, List.filterMap_nil, List.append_nil]
      exact ⟨hstart, hall⟩

theorem Wired.joins {j : Nat} {address : String} (h : Wired e) (hnew : Event.joined ∉ (e.links j).log)
    (haddress : MQTTProxy.advertisedAddress cfg.toMqttSettings (e.links j).peer.sockname = some address) :
    Wired (((e.act cfg J (.register (e.links j).peer.clientId (e.links j).peer.sockname)).setLink j
      fun l => { l with client := some e.proxy.accepted }).note j .joined) := by
  obtain ⟨haccepted, hconn, hjoined⟩ := MQTTProxy.register_joins haddress e.proxy (e.links j).peer.clientId
  have hnone : (e.links j).client = none := by
    by_contra hsome
    obtain ⟨c, hc⟩ := Option.ne_none_iff_exists'.mp hsome
    exact hnew (h.joined j c hc)
  have hlog := (Change.joined haddress : Change cfg J _ e _).log
  revert hlog
  generalize he' : Server.note _ j .joined = e'
  intro hlog
  have hproxy : e'.proxy = MQTTProxy.register cfg.toMqttSettings e.proxy (e.links j).peer.clientId (e.links j).peer.sockname := by
    rw [← he']
    rfl
  rw [← hproxy] at haccepted hconn hjoined
  have hclient : ∀ k, (e'.links k).client = if k = j then some e.proxy.accepted else (e.links k).client := by
    intro k
    rw [← he']
    by_cases hk : k = j
    · subst hk
      simp [Server.note, Server.setLink]
    · simp [Server.note, Server.setLink, hk, act, MQTTProxy.step]
  have hsame : ∀ k, ((e'.links k).sent, (e'.links k).closed) = ((e.links k).sent, (e.links k).closed) := by
    intro k
    rw [← he']
    by_cases hk : k = j
    · subst hk
      simp [Server.note, Server.setLink, act, MQTTProxy.step]
    · simp [Server.note, Server.setLink, hk, act, MQTTProxy.step]
  have hsent : ∀ k, (e'.links k).sent = (e.links k).sent := fun k => (Prod.mk.inj (hsame k)).1
  have hclosed : ∀ k, (e'.links k).closed = (e.links k).closed := fun k => (Prod.mk.inj (hsame k)).2
  have hold : ∀ {k c}, (e.links k).client = some c → e'.proxy.conn c = e.proxy.conn c :=
    fun hc => hconn _ (Nat.ne_of_lt (h.known _ _ hc))
  have hcases : ∀ {k c}, (e'.links k).client = some c →
      (k = j ∧ c = e.proxy.accepted) ∨ (k ≠ j ∧ (e.links k).client = some c) := by
    intro k c hc
    rw [hclient k] at hc
    split at hc
    · next hk =>
        cases hc
        exact .inl ⟨hk, rfl⟩
    · next hk => exact .inr ⟨hk, hc⟩
  have hclosing : ∀ k, e'.isClosed k = e.isClosed k := by
    intro k
    unfold isClosed
    rw [hclosed k, hclient k]
    by_cases hk : k = j
    · subst hk
      rw [if_pos rfl, hnone]
      simp only [hjoined]
    · rw [if_neg hk]
      cases hc : (e.links k).client with
      | none => rfl
      | some c => simp only [hold hc]
  have hentry : ∀ k, (entry (some (j, .joined)) k).filterMap Event.wroteOut = [] := by
    intro k
    rw [entry]
    split <;> rfl
  refine ⟨fun k c hc => ?_, fun k k' c hk hk' => ?_, fun c hc => ?_, fun k c hc => ?_, fun k hk => ?_, fun k => ?_,
    fun k c hc => ?_⟩
  · rw [haccepted]
    rcases hcases hc with ⟨_, rfl⟩ | ⟨_, hc⟩
    · exact Nat.lt_succ_self _
    · exact Nat.lt_succ_of_lt (h.known k c hc)
  · rcases hcases hk with ⟨rfl, rfl⟩ | ⟨_, hc⟩
    · rcases hcases hk' with ⟨rfl, _⟩ | ⟨_, hc'⟩
      · rfl
      · exact absurd (h.known k' _ hc') (Nat.lt_irrefl _)
    · rcases hcases hk' with ⟨_, rfl⟩ | ⟨_, hc'⟩
      · exact absurd (h.known k _ hc) (Nat.lt_irrefl _)
      · exact h.distinct k k' c hc hc'
  · rw [haccepted] at hc
    by_cases hlast : c = e.proxy.accepted
    · exact ⟨j, by rw [hclient j, if_pos rfl, hlast]⟩
    · obtain ⟨k, hk⟩ := h.owned c (by omega)
      refine ⟨k, ?_⟩
      rw [hclient k, if_neg ?_, hk]
      rintro rfl
      cases hnone.symm.trans hk
  · rw [hlog k]
    rcases hcases hc with ⟨rfl, _⟩ | ⟨_, hc⟩
    · exact List.mem_append_right _ (by simp [entry])
    · exact List.mem_append_left _ (h.joined k c hc)
  · rw [hclient k] at hk
    split at hk
    · cases hk
    · next hkj =>
        obtain ⟨hnot, hreports⟩ := h.unjoined k hk
        rw [hlog k, entry, if_neg hkj, List.append_nil, Server.reports, hsent k]
        exact ⟨hnot, hreports⟩
  · rw [hclosing k, Server.answers, Server.wrote, hsent k, hlog k, List.filterMap_append, hentry k, List.append_nil]
    exact h.answers k
  · rw [Server.reports, hsent k, hclosed k]
    rcases hcases hc with ⟨rfl, rfl⟩ | ⟨_, hc⟩
    · have hreports : (e.links k).sent.filterMap Outgoing.reported = [] := (h.unjoined k hnone).2
      rw [hjoined, hreports]
      exact ⟨List.prefix_refl _, fun _ => rfl⟩
    · rw [hold hc]
      exact h.reports k c hc

theorem send_writes {c : Nat} {packet : Publish} {queue : List Publish} {s s' : MQTTProxy}
    (hqueue : (s.conn c).queue = packet :: queue) (hstep : MQTTProxy.step cfg.toMqttSettings J s (.send c) = some s') :
    s'.accepted = s.accepted ∧ (∀ k, (s'.conn k).closed = (s.conn k).closed) ∧
      (∀ k, k ≠ c → (s'.conn k).written = (s.conn k).written) ∧
      (s'.conn c).written = if (s.conn c).closed then (s.conn c).written else (s.conn c).written ++ [packet] := by
  cases MQTTProxy.step_cases hstep with
  | send _ hqueue' =>
      cases hqueue.symm.trans hqueue'
      refine ⟨rfl, fun k => MQTTProxy.setConn_same Client.closed fun _ => rfl, fun k hk => ?_, ?_⟩
      · simp [MQTTProxy.setConn, hk]
      · simp [MQTTProxy.setConn]

theorem Wired.sends {j c : Nat} {packet : Publish} {queue : List Publish} {proxy : MQTTProxy} (h : Wired e)
    (hclient : (e.links j).client = some c) (hqueue : (e.proxy.conn c).queue = packet :: queue)
    (hstep : MQTTProxy.step cfg.toMqttSettings J e.proxy (.send c) = some proxy) :
    Wired { e.put j (.report packet) with proxy := proxy } := by
  obtain ⟨haccepted, hclosed, hothers, hself⟩ := send_writes hqueue hstep
  have hlinks : ∀ k, ((e.put j (.report packet)).links k).client = (e.links k).client :=
    fun k => put_same Link.client fun _ _ => rfl
  have hshut : ∀ k, ((e.put j (.report packet)).links k).closed = (e.links k).closed :=
    fun k => put_same Link.closed fun _ _ => rfl
  have hlog : ∀ k, ((e.put j (.report packet)).links k).log = (e.links k).log :=
    fun k => put_same Link.log fun _ _ => rfl
  have hsent := put_sent e j (.report packet)
  have hclosing : ∀ k, isClosed { e.put j (.report packet) with proxy := proxy } k = e.isClosed k := by
    intro k
    unfold isClosed
    rw [hshut k, hlinks k]
    cases (e.links k).client with
    | none => rfl
    | some c' => simp only [hclosed c']
  refine ⟨fun k c' hc => ?_, fun k k' c' hk hk' => ?_, fun c' hc => ?_, fun k c' hc => ?_, fun k hk => ?_, fun k => ?_,
    fun k c' hc => ?_⟩
  · exact haccepted ▸ h.known k c' (hlinks k ▸ hc)
  · exact h.distinct k k' c' (hlinks k ▸ hk) (hlinks k' ▸ hk')
  · obtain ⟨k, hk⟩ := h.owned c' (haccepted ▸ hc)
    exact ⟨k, (hlinks k).trans hk⟩
  · rw [hlog k]
    exact h.joined k c' (hlinks k ▸ hc)
  · have hk' : (e.links k).client = none := hlinks k ▸ hk
    have hne : k ≠ j := by
      rintro rfl
      cases hk'.symm.trans hclient
    rw [hlog k, Server.reports, hsent k, if_neg fun hj => hne hj.1]
    exact h.unjoined k hk'
  · rw [hclosing k, Server.answers, Server.wrote, hsent k, hlog k]
    have hsame : (if k = j ∧ e.isClosed j = false then (e.links k).sent ++ [.report packet] else (e.links k).sent).filterMap
        Outgoing.answered = e.answers k := by
      split
      · rw [List.filterMap_append]
        exact List.append_nil _
      · rfl
    rw [hsame]
    exact h.answers k
  · have hk : (e.links k).client = some c' := hlinks k ▸ hc
    obtain ⟨hstart, hall⟩ := h.reports k c' hk
    rw [Server.reports, hsent k, hshut k]
    by_cases hkj : k = j
    · subst hkj
      cases hclient.symm.trans hk
      rw [hself]
      cases hopen : e.isClosed k with
      | true =>
          rw [if_neg (by simp)]
          split
          · exact ⟨hstart, hall⟩
          · next hconn =>
              refine ⟨hstart.trans (List.prefix_append _ _), fun hlink => ?_⟩
              rw [isClosed, hlink, hclient] at hopen
              exact absurd (by simpa using hopen) hconn
      | false =>
          obtain ⟨hlink, hconn⟩ := Bool.or_eq_false_iff.mp hopen
          rw [hclient] at hconn
          have heq : (e.links k).sent.filterMap Outgoing.reported = (e.proxy.conn c).written := hall hlink
          rw [if_pos ⟨rfl, rfl⟩, if_neg (by simp only [hconn]; decide), List.filterMap_append, heq]
          exact ⟨List.prefix_refl _, fun _ => rfl⟩
    · have hne : c' ≠ c := by
        rintro rfl
        exact hkj (h.distinct k j _ hk hclient)
      rw [if_neg fun hj => hkj hj.1, hothers c' hne]
      exact ⟨hstart, hall⟩

theorem Wired.change (h : Wired e) (hchange : Change cfg J v e e') (honce : ∀ j, (e'.links j).log.count .joined ≤ 1) :
    Wired e' := by
  have hlog := hchange.log
  cases hchange with
  | quiet hq => exact h.frame (.same (by rw [hq.proxy]) (by rw [hq.proxy])) (fun j => (hq.links j).sameWire) hlog .none
  | @read _ j packet rest _ =>
      refine h.frame (.same rfl rfl) (fun k => ?_) hlog ?_
      · have hunread : SameWire (e.links k) ((e.setLink j fun l => { l with unread := rest }).links k) := by
          refine .setLink ?_ k
          exact fun _ => ⟨rfl, rfl, id⟩
        exact hunread.trans (.note _ _ _ k)
      · rintro _ _ ⟨⟩
        exact ⟨by rintro ⟨⟩, rfl⟩
  | wrote => exact h.wrote
  | @joined _ j _ haddress =>
      refine h.joins (fun hmem => ?_) haddress
      have hcount := honce j
      rw [hlog j, List.count_append, entry, if_pos rfl, List.count_singleton_self] at hcount
      have hpos := List.count_pos_iff.mpr hmem
      omega
  | refused haddress =>
      refine h.frame ?_ (fun k => ?_) hlog .none
      · exact MQTTProxy.register_refuses haddress _ _
      · rw [act_links]
        exact .refl _
  | handed =>
      refine h.frame (.same rfl rfl) (fun k => ?_) hlog ?_
      · exact .note e _ _ k
      · rintro _ _ ⟨⟩
        exact ⟨by rintro ⟨⟩, rfl⟩
  | snapshot =>
      refine h.frame (onClient_wires cfg J e _ (fun _ _ => by rintro ⟨⟩) (fun _ _ _ => by rintro ⟨⟩)) (fun k => ?_) hlog ?_
      · refine SameWire.trans ?_ (.note _ _ _ k)
        rw [onClient_links]
        exact .refl _
      · rintro _ _ ⟨⟩
        exact ⟨by rintro ⟨⟩, rfl⟩
  | departs ha hq =>
      refine h.frame ?_ (fun k => ?_) hlog .none
      · rw [hq.proxy]
        rcases ha with rfl | rfl
        · exact onClient_wires cfg J e _ (fun _ _ => by rintro ⟨⟩) fun _ _ _ => by rintro ⟨⟩
        · exact onClient_wires cfg J e _ (fun _ _ => by rintro ⟨⟩) fun _ _ _ => by rintro ⟨⟩
      · refine SameWire.trans ?_ (hq.links k).sameWire
        rw [onClient_links]
        exact .refl _
  | closed =>
      refine h.frame (.same rfl rfl) (fun k => .setLink ?_ k) hlog .none
      exact fun _ => ⟨rfl, rfl, fun _ => rfl⟩
  | received =>
      refine h.frame (.same rfl rfl) (fun k => .setLink ?_ k) hlog .none
      exact fun _ => ⟨rfl, rfl, id⟩
  | sent hclient hqueue hstep => exact h.sends hclient hqueue hstep
  | relayed ha hstep hq =>
      refine h.frame ?_ (fun k => (hq.links k).sameWire) hlog .none
      rw [hq.proxy]
      refine MQTTProxy.step_wires hstep ?_ ?_
      · rintro c rfl
        rcases ha with ha | ha | ha <;> cases ha
      · rintro id sockname rfl
        rcases ha with ha | ha | ha <;> cases ha

end Server

namespace Deed

structure Sound (d : Deed) : Prop where
  whole : ∀ data, d.event.wroteOut = some data → ∃ packet : MQTTPacket, packet.Fits ∧ data = packet.encode
  certain : ∀ v, d = .may v → v.wroteOut = none

theorem Sound.tell {packet : MQTTPacket} (h : packet.Fits) : (Turn.tell packet).Sound := by
  refine ⟨?_, ?_⟩
  · rintro _ ⟨⟩
    exact ⟨packet, h, rfl⟩
  · rintro _ ⟨⟩

theorem Sound.silent {d : Deed} (h : d.event.wroteOut = none) : d.Sound := by
  refine ⟨fun data hdata => ?_, ?_⟩
  · cases h.symm.trans hdata
  · rintro v rfl
    exact h

end Deed

section

variable {cfg : ServerSettings} {packet : MQTTPacket} {received : List MQTTPacket} {log : List Event} {d : Deed}

theorem greet_sound (hd : d ∈ (Turn.greet cfg packet).deeds) : d.Sound := by
  rcases greet_cases cfg packet with ⟨_, hgreet⟩ | hgreet | hgreet
  · rw [hgreet] at hd
    rcases List.mem_cons.mp hd with rfl | hd
    · exact .tell (Answer.connack_fits _)
    · exact List.mem_singleton.mp hd ▸ .silent rfl
  · rw [hgreet] at hd
    exact List.mem_singleton.mp hd ▸ .tell (Answer.connack_fits _)
  · rw [hgreet] at hd
    cases hd

theorem serve_sound (hfits : packet.Fits) (hd : d ∈ (Turn.serve cfg packet).deeds) : d.Sound ∧ d.event ≠ .joined := by
  unfold Turn.serve at hd
  split at hd
  · split at hd
    · next publish _ =>
        rcases List.mem_append.mp hd with hd | hd
        · unfold Turn.acknowledge at hd
          split at hd
          · split at hd
            · exact List.mem_singleton.mp hd ▸ ⟨.tell (Answer.puback_fits _), nofun⟩
            · cases hd
          · cases hd
        · exact List.mem_singleton.mp hd ▸ ⟨.silent rfl, nofun⟩
    · cases hd
  · split at hd
    · split at hd
      · next packetId topics hparse =>
          rcases List.mem_cons.mp hd with rfl | hd
          · refine ⟨.tell (Answer.suback_fits _ ?_), nofun⟩
            exact Nat.lt_of_le_of_lt (parseSubscribe_bounds hparse).2 hfits.payload
          · unfold Turn.replay at hd
            split at hd
            · exact List.mem_singleton.mp hd ▸ ⟨.silent rfl, nofun⟩
            · cases hd
      · cases hd
    · split at hd
      · split at hd
        · exact List.mem_singleton.mp hd ▸ ⟨.tell (Answer.unsuback_fits _), nofun⟩
        · cases hd
      · split at hd
        · exact List.mem_singleton.mp hd ▸ ⟨.tell Answer.pingresp_fits, nofun⟩
        · split at hd <;> cases hd

theorem exchange_sound (hfits : ∀ p ∈ received, p.Fits) (hd : d ∈ exchange cfg received) : d.Sound ∧ d.event ≠ .joined := by
  induction received with
  | nil => cases hd
  | cons packet received ih =>
      rw [exchange] at hd
      rcases List.mem_cons.mp hd with rfl | hd
      · exact ⟨.silent rfl, by rintro ⟨⟩⟩
      · rcases List.mem_append.mp hd with hd | hd
        · exact serve_sound (hfits packet List.mem_cons_self) hd
        · split at hd
          · exact ih (fun p hp => hfits p (List.mem_cons_of_mem _ hp)) hd
          · cases hd

theorem conversation_sound (hfits : ∀ p ∈ received, p.Fits) (hd : d ∈ conversation cfg received) : d.Sound := by
  cases received with
  | nil => cases hd
  | cons packet received =>
      rw [conversation] at hd
      rcases List.mem_cons.mp hd with rfl | hd
      · exact .silent rfl
      · rcases List.mem_append.mp hd with hd | hd
        · exact greet_sound hd
        · split at hd
          · exact (exchange_sound (fun p hp => hfits p (List.mem_cons_of_mem _ hp)) hd).1
          · cases hd

theorem joined_exchange (hfits : ∀ p ∈ received, p.Fits) : Event.joined ∉ (exchange cfg received).map Deed.event := by
  intro hmem
  obtain ⟨d, hd, heq⟩ := List.mem_map.mp hmem
  exact (exchange_sound hfits hd).2 heq

theorem joined_conversation (hfits : ∀ p ∈ received, p.Fits) :
    ((conversation cfg received).map Deed.event).count .joined ≤ 1 := by
  cases received with
  | nil => exact Nat.zero_le 1
  | cons packet received =>
      have hrest : ((if (Turn.greet cfg packet).goesOn then exchange cfg received else []).map Deed.event).count .joined = 0 := by
        split
        · exact List.count_eq_zero.mpr (joined_exchange fun p hp => hfits p (List.mem_cons_of_mem _ hp))
        · rfl
      have hgreet : ((Turn.greet cfg packet).deeds.map Deed.event).count .joined ≤ 1 := by
        rcases greet_cases cfg packet with ⟨_, hgreet⟩ | hgreet | hgreet <;> rw [hgreet] <;> decide +revert
      have hread : (Deed.must (Event.read packet)).event ≠ .joined := nofun
      rw [conversation, List.map_cons, List.map_append, List.count_cons_of_ne hread, List.count_append, hrest]
      exact hgreet

end

end PandaProxy.Mqtt
