import PandaProxy.Json.Plain
import PandaProxy.Mqtt.Registry

namespace PandaProxy.Mqtt

open Async Json Python PrinterStateCache

-- A section marked as full state is merged into the cache.
def Genuine (J : Codec) (payload : List UInt8) : Prop :=
  ∃ parsed, Cacheable J payload parsed ∧ ∃ p ∈ parsed, marksFullState p.2 = true ∧ isCommandAck p.2 = false

-- Every section marked as full state is dropped as an ack, and another section is merged.
def Mislabelled (J : Codec) (payload : List UInt8) : Prop :=
  ∃ parsed, Cacheable J payload parsed ∧ (∃ p ∈ parsed, marksFullState p.2 = true) ∧
    (∀ p ∈ parsed, marksFullState p.2 = true → isCommandAck p.2 = true) ∧ ∃ p ∈ parsed, isCommandAck p.2 = false

section

variable {J : Codec} {payload : List UInt8} {parsed : Document}

theorem kept_ne_nil : kept parsed ≠ [] ↔ ∃ p ∈ parsed, isCommandAck p.2 = false := by
  simp [kept]

theorem payloadIsFullState_iff (h : Cacheable J payload parsed) :
    payloadIsFullState J payload = .ok true ↔ ∃ p ∈ parsed, marksFullState p.2 = true := by
  simp [payloadIsFullState, Codec.parse_dict.mpr h.loads, bind, Except.bind, pure, Except.pure]

theorem Genuine.of_primes {c c' : PrinterStateCache} (hupdate : c.update J payload = (.ok true, c'))
    (hfull : payloadIsFullState J payload = .ok true) : Genuine J payload ∨ Mislabelled J payload := by
  rcases update_cases J c payload with ⟨parsed, hcacheable, hkept, _⟩ | ⟨_, _, _, _, _, _, hfails⟩ | ⟨_, r, hskips, hr⟩
  · have hfull := (payloadIsFullState_iff hcacheable).mp hfull
    by_cases hgenuine : ∃ p ∈ parsed, marksFullState p.2 = true ∧ isCommandAck p.2 = false
    · exact .inl ⟨parsed, hcacheable, hgenuine⟩
    · refine .inr ⟨parsed, hcacheable, hfull, fun p hp hmarks => ?_, kept_ne_nil.mp hkept⟩
      cases hack : isCommandAck p.2 with
      | true => rfl
      | false => exact absurd ⟨p, hp, hmarks, hack⟩ hgenuine
  · cases hupdate.symm.trans hfails
  · cases hupdate.symm.trans hskips
    exact absurd rfl hr

end

namespace MQTTProxy

def TakesGenuine (J : Codec) (s : MQTTProxy) : Prop := ∃ payload ∈ s.reports, Genuine J payload

def WellLabelled (cfg : MqttSettings) (J : Codec) (_ : MQTTProxy) (a : Act) (_ : MQTTProxy) : Prop :=
  ∀ payload, a = .message cfg.reportTopic payload → ¬ Mislabelled J payload

structure PrimedRightly (J : Codec) (s : MQTTProxy) : Prop where
  primed : s.cachePrimed = true → TakesGenuine J s
  away : s.upstream = .away → s.cachePrimed = false

variable {cfg : MqttSettings} {J : Codec} {s s' : MQTTProxy}

theorem PrimedRightly.taken (h : PrimedRightly J s) (cfg : MqttSettings) {topic : String} {payload : List UInt8}
    (hlabelled : topic = cfg.reportTopic → ¬ Mislabelled J payload) :
    (takenIn cfg J s topic payload).cachePrimed = true → TakesGenuine J (takenIn cfg J s topic payload) := by
  unfold MQTTProxy.takenIn
  split
  · next htopic =>
      rcases cacheReport_cases J s payload with ⟨x, _, _, hc⟩ | ⟨merged, cache, hupdate, alive, primed, hc, hprimed⟩
      · rw [hc]
        exact h.primed
      · rw [hc]
        intro hset
        rcases hprimed hset with hold | ⟨rfl, hfull⟩
        · obtain ⟨p, hp, hgenuine⟩ := h.primed hold
          exact ⟨p, List.mem_cons_of_mem _ hp, hgenuine⟩
        · rcases Genuine.of_primes hupdate hfull with hgenuine | hmislabelled
          · exact ⟨payload, List.mem_cons_self, hgenuine⟩
          · exact absurd hmislabelled (hlabelled htopic)
  · exact h.primed

theorem relay_upstream {b : Broadcast} (targets : List (String × Nat)) : (relay J b targets s).upstream ≠ .away := by
  induction targets generalizing s with
  | nil => rintro ⟨⟩
  | cons target targets ih =>
      obtain ⟨id, c⟩ := target
      simp only [relay]
      split
      · rintro ⟨⟩
      · split
        · exact ih
        · rintro ⟨⟩

theorem PrimedRightly.delivers {P : Nat → Publish → Prop} (h : PrimedRightly J s) (hs : Delivers P s s')
    (haway : s'.upstream = .away → s.upstream = .away) : PrimedRightly J s' where
  primed hp := by
    rw [TakesGenuine, hs.reports]
    exact h.primed (hs.cachePrimed ▸ hp)
  away hu := hs.cachePrimed.trans (h.away (haway hu))

theorem PrimedRightly.step {a : Act} (h : PrimedRightly J s) (hstep : step cfg J s a = some s')
    (hok : WellLabelled cfg J s a s') : PrimedRightly J s' := by
  have hsame : ∀ {s' : MQTTProxy}, s'.cachePrimed = s.cachePrimed → s'.reports = s.reports →
      (s'.upstream = .away → s.upstream = .away) → PrimedRightly J s' := by
    intro s' hprimed hreports hup
    refine ⟨fun hp => ?_, fun hu => hprimed.trans (h.away (hup hu))⟩
    rw [TakesGenuine, hreports]
    exact h.primed (hprimed ▸ hp)
  have hreplays : ∀ {t c : Nat} {id : String} (packets : List Publish), PrimedRightly J (replay t id c packets s) := by
    intro t c id packets
    obtain ⟨hdelivers, hup, _⟩ := replay_delivers (P := fun _ _ => True) (t := t) (c := c) id packets (s := s)
      fun _ _ => trivial
    exact h.delivers hdelivers fun hu => hup ▸ hu
  cases step_cases hstep with
  | connect hup => exact ⟨fun hp => absurd hp (by simp [h.away hup]), nofun⟩
  | @message topic payload hup =>
      have htaken := h.taken cfg fun htopic : topic = cfg.reportTopic => hok payload (by rw [htopic])
      rcases handleMessage_cases cfg J s topic payload with hm | ⟨personalised, hm, _⟩
      · rw [hm]
        exact ⟨htaken, nofun⟩
      · rw [hm]
        obtain ⟨hdelivers, _⟩ := relay_delivers (J := J) (b := ⟨topic, payload, personalised, []⟩)
          (P := fun _ _ => True) (takenIn cfg J s topic payload).clients
          (s := takenIn cfg J s topic payload) fun _ _ _ => trivial
        refine ⟨fun hp => ?_, fun hu => absurd hu (relay_upstream _)⟩
        rw [TakesGenuine, hdelivers.reports]
        exact htaken (hdelivers.cachePrimed ▸ hp)
  | hungUp _ =>
      exact h.delivers (relay_delivers (P := fun _ _ => True) _ fun _ _ _ => trivial).1
        fun hu => absurd hu (relay_upstream _)
  | fail _ => exact hsame rfl rfl nofun
  | lose _ => exact ⟨nofun, fun _ => rfl⟩
  | register =>
      unfold MQTTProxy.register
      split
      · exact hsame rfl rfl fun hu => hu
      · exact hsame rfl rfl fun hu => hu
  | replay _ _ _ _ => exact hreplays _
  | replayHungUp _ => exact hreplays _
  | _ => exact hsame rfl rfl fun hu => hu

def HungUp (s : MQTTProxy) : Prop :=
  ∀ t id c rest, s.replays t = .delivering id c rest → c < s.accepted ∧ ∀ id', Dict.get s.clients id' ≠ some c

theorem replay_hungUp {t c c' : Nat} {id id' : String} {rest : List Publish} (packets : List Publish)
    (h : (replay t id c packets s).replays t = .delivering id' c' rest) :
    c' = c ∧ Dict.get (replay t id c packets s).clients id = none := by
  induction packets generalizing s with
  | nil => simp [MQTTProxy.replay, setReplay] at h
  | cons packet packets ih =>
      simp only [MQTTProxy.replay] at h ⊢
      rcases deliver_cases s id c packet with hd | ⟨_, hd⟩ | ⟨w, _, hd⟩
      · simp only [hd] at h ⊢
        exact ih h
      · simp only [hd] at h ⊢
        exact ih h
      · simp only [hd, setReplay, Function.update_self, Replay.delivering.injEq] at h ⊢
        exact ⟨h.2.1.symm, Dict.get_pop_self⟩

theorem HungUp.shrinks (h : HungUp s) (hs : Shrinks s s')
    (hreplays : ∀ t id c rest, s'.replays t = .delivering id c rest → s.replays t = .delivering id c rest) : HungUp s' := by
  intro t id c rest ht
  obtain ⟨haccepted, hnone⟩ := h t id c rest (hreplays t id c rest ht)
  exact ⟨hs.accepted ▸ haccepted, fun id' hc => hnone id' (hs.registered hc)⟩

theorem HungUp.replay {t c : Nat} {id : String} (packets : List Publish) (h : HungUp s) (hc : c < s.accepted)
    (hname : ∀ id', Dict.get s.clients id' = some c → id' = id) : HungUp (replay t id c packets s) := by
  obtain ⟨hdelivers, _, hothers⟩ := replay_delivers (P := fun _ _ => True) (t := t) (c := c) id packets (s := s)
    fun _ _ => trivial
  intro t' id₁ c₁ rest ht
  by_cases htt : t' = t
  · subst htt
    obtain ⟨rfl, hnone⟩ := replay_hungUp packets ht
    refine ⟨hdelivers.accepted ▸ hc, fun id' hc' => ?_⟩
    cases hname id' (hdelivers.shrinks.registered hc')
    rw [hnone] at hc'
    cases hc'
  · obtain ⟨haccepted, hnone⟩ := h t' id₁ c₁ rest (hothers t' htt ▸ ht)
    exact ⟨hdelivers.accepted ▸ haccepted, fun id' hc' => hnone id' (hdelivers.shrinks.registered hc')⟩

theorem HungUp.register (cfg : MqttSettings) (id : String) (sockname : Option String) (h : HungUp s) : HungUp (register cfg s id sockname) := by
  unfold MQTTProxy.register
  split
  · exact h.shrinks (.forget s id) fun _ _ _ _ ht => ht
  · intro t id₁ c rest ht
    obtain ⟨haccepted, hnone⟩ := h t id₁ c rest ht
    refine ⟨Nat.lt_succ_of_lt haccepted, fun id' hc => ?_⟩
    by_cases hid : id' = id
    · subst hid
      rw [Dict.get_set_self] at hc
      cases hc
      exact absurd haccepted (Nat.lt_irrefl _)
    · rw [Dict.get_set_ne hid] at hc
      exact hnone id' hc

theorem setReplay_delivering {t t' c : Nat} {id : String} {rest : List Publish} {x : Replay}
    (hx : ∀ id c rest, x ≠ .delivering id c rest) (h : (s.setReplay t x).replays t' = .delivering id c rest) :
    s.replays t' = .delivering id c rest := by
  by_cases ht : t' = t
  · subst ht
    simp only [setReplay, Function.update_self] at h
    exact absurd h (hx id c rest)
  · simpa [setReplay, ht] using h

theorem handleMessage_replays (cfg : MqttSettings) (J : Codec) (s : MQTTProxy) (topic : String) (payload : List UInt8) :
    (handleMessage cfg J s topic payload).replays = s.replays := by
  obtain ⟨cache, primed, reports, hsame⟩ := takenIn_same cfg J s topic payload
  have htaken : (takenIn cfg J s topic payload).replays = s.replays := by
    rw [hsame]
  rcases handleMessage_cases cfg J s topic payload with h | ⟨personalised, h, _⟩
  · rw [h]
    exact htaken
  · rw [h]
    exact (relay_delivers (P := fun _ _ => True) _ fun _ _ _ => trivial).2.trans htaken

theorem HungUp.step {a : Act} (hregistry : Registry s) (h : HungUp s) (hstep : step cfg J s a = some s') : HungUp s' := by
  have hsame : (∀ id sockname, a ≠ .register id sockname) →
      (∀ t id c rest, s'.replays t = .delivering id c rest → s.replays t = .delivering id c rest) → HungUp s' :=
    fun ha => h.shrinks (step_shrinks hstep ha)
  cases step_cases hstep with
  | register => exact h.register cfg _ _
  | message _ =>
      refine hsame nofun ?_
      rw [handleMessage_replays]
      exact fun _ _ _ _ ht => ht
  | hungUp _ =>
      refine hsame nofun ?_
      rw [(relay_delivers (P := fun _ _ => True) _ fun _ _ _ => trivial).2]
      exact fun _ _ _ _ ht => ht
  | subscribe _ => exact hsame nofun fun _ _ _ _ ht => setReplay_delivering (fun _ _ _ hx => by cases hx) ht
  | giveUp _ _ => exact hsame nofun fun _ _ _ _ ht => setReplay_delivering (fun _ _ _ hx => by cases hx) ht
  | unreplayed _ _ _ => exact hsame nofun fun _ _ _ _ ht => setReplay_delivering (fun _ _ _ hx => by cases hx) ht
  | @replay _ c id _ _ _ hget _ =>
      refine h.replay _ (hregistry.accepted id c hget) fun id' hc' => ?_
      exact (hregistry.named id' c hc').symm.trans (hregistry.named id c hget)
  | replayHungUp ht =>
      obtain ⟨haccepted, hnone⟩ := h _ _ _ _ ht
      exact h.replay _ haccepted fun id' hc' => absurd hc' (hnone id')
  | _ => exact hsame nofun fun _ _ _ _ ht => ht

def queuedBy (s s' : MQTTProxy) (c : Nat) : List Publish := (s'.conn c).queued.drop (s.conn c).queued.length

theorem queuedBy_of_append {c : Nat} {more : List Publish} (h : (s'.conn c).queued = (s.conn c).queued ++ more) :
    queuedBy s s' c = more := by
  rw [queuedBy, h, List.drop_left]

theorem Delivers.queuedBy {P : Nat → Publish → Prop} {c : Nat} {packet : Publish} (h : Delivers P s s')
    (hpacket : packet ∈ queuedBy s s' c) : P c packet := by
  obtain ⟨more, _, hqueued, hall⟩ := h.queues c
  rw [queuedBy_of_append hqueued] at hpacket
  exact hall packet hpacket

theorem queuedBy_same {c : Nat} (h : (s'.conn c).queued = (s.conn c).queued) : queuedBy s s' c = [] :=
  queuedBy_of_append (h.trans (List.append_nil _).symm)

theorem replayed_primed {a : Act} {id : String} {c : Nat} {packet : Publish} {part : Document}
    (hregistry : Registry s) (hhung : HungUp s) (hstep : step cfg J s a = some s') (hc : Dict.get s.clients id = some c)
    (hpacket : packet ∈ queuedBy s s' c) (hreplayed : packet.origin = .replayed part) : s.cachePrimed = true := by
  have hrelays : ∀ {b : Broadcast} (targets : List (String × Nat)) {s₁ : MQTTProxy}, s₁.conn = s.conn →
      s' = relay J b targets s₁ → s.cachePrimed = true := by
    rintro b targets s₁ hconn rfl
    obtain ⟨hdelivers, _⟩ := relay_delivers (J := J) (b := b) (P := fun _ packet => packet.origin = .relayed b.payload)
      targets (s := s₁) fun _ _ h => h
    have hpacket : packet ∈ queuedBy s₁ (relay J b targets s₁) c := by
      rw [queuedBy, hconn]
      exact hpacket
    have hrelayed := hdelivers.queuedBy hpacket
    exact absurd hreplayed (by rw [hrelayed]; nofun)
  have hsame : (s'.conn c).queued = (s.conn c).queued → s.cachePrimed = true :=
    fun hsame => absurd hpacket (by simp [queuedBy_same hsame])
  cases step_cases hstep with
  | replay _ hprimed _ _ => exact hprimed
  | unreplayed _ hprimed _ => exact hprimed
  | @replayHungUp t c' id' rest ht =>
      obtain ⟨hdelivers, _⟩ := replay_delivers (P := fun k _ => k = c') (t := t) (c := c') id' rest (s := s)
        fun _ _ => rfl
      cases hdelivers.queuedBy hpacket
      exact absurd hc ((hhung t id' c rest ht).2 id)
  | @message topic payload _ =>
      obtain ⟨cache, primed, reports, htaken⟩ := takenIn_same cfg J s topic payload
      have hconn : (takenIn cfg J s topic payload).conn = s.conn := by
        rw [htaken]
      rcases handleMessage_cases cfg J s topic payload with hm | ⟨personalised, hm, _⟩
      · exact hsame (by rw [hm, ← hconn])
      · exact hrelays _ hconn hm
  | hungUp _ => exact hrelays _ rfl rfl
  | register =>
      refine hsame ?_
      unfold MQTTProxy.register
      split
      · rfl
      · simp [Nat.ne_of_lt (hregistry.accepted id c hc)]
  | send _ _ => exact hsame (setConn_same Client.queued fun _ => rfl)
  | finish _ => exact hsame (setConn_same Client.queued fun _ => rfl)
  | leave _ => exact hsame (setConn_same (s := s.forget _) Client.queued fun _ => rfl)
  | _ => exact hsame rfl

-- At every moment of a run: the cache is primed only by a genuine report, and so is what is replayed.
def GenuinelyPrimed (cfg : MqttSettings) (J : Codec) (s : MQTTProxy) : Prop :=
  (s.cachePrimed = true → TakesGenuine J s) ∧
    ∀ a s', step cfg J s a = some s' → ∀ id c, Dict.get s.clients id = some c →
      ∀ packet ∈ queuedBy s s' c, ∀ part, packet.origin = .replayed part → TakesGenuine J s

end MQTTProxy

open MQTTProxy

theorem snapshots_genuine {cfg : MqttSettings} {J : Codec} {s : MQTTProxy}
    (hrun : (mqttProxy cfg J).Runs (WellLabelled cfg J) .init s) : GenuinelyPrimed cfg J s := by
  have hinv : Registry s ∧ HungUp s ∧ PrimedRightly J s := by
    refine hrun.keeps (I := fun s => Registry s ∧ HungUp s ∧ PrimedRightly J s) ?_ ?_
    · exact ⟨.init, (fun _ _ _ _ h => by cases h), nofun, fun _ => rfl⟩
    · rintro s a s' ⟨hregistry, hhung, hprimed⟩ hstep hok
      exact ⟨hregistry.step hstep, hhung.step hregistry hstep, hprimed.step hstep hok⟩
  obtain ⟨hregistry, hhung, hprimed⟩ := hinv
  refine ⟨hprimed.primed, fun a s' hstep id c hc packet hpacket part hreplayed => ?_⟩
  exact hprimed.primed (replayed_primed hregistry hhung hstep hc hpacket hreplayed)

def desk : MqttSettings := ⟨"01P00A", some "192.168.1.9", fun _ => none⟩

def ackedDump : List UInt8 := Utf8.encode "\x7b\"print\":\x7b\"msg\":0,\"result\":\"ok\"\x7d,\"info\":\x7b\"module\":[]\x7d\x7d"

def subscribes : List Act :=
  [.connect, .register "10.0.0.5:4711" (some "192.168.1.9"), .subscribe 0]

def genuine (J : Codec) (payload : List UInt8) : Bool :=
  match J.loads payload with
  | .ok (.dict parsed) => parsed.any fun p => marksFullState p.2 && !isCommandAck p.2
  | _ => false

theorem Genuine.check {J : Codec} {payload : List UInt8} (h : Genuine J payload) : genuine J payload = true := by
  obtain ⟨parsed, hcacheable, p, hp, hmarks, hack⟩ := h
  simp only [genuine, hcacheable.loads, List.any_eq_true]
  exact ⟨p, hp, by simp [hmarks, hack]⟩

def isReplayed (packet : Publish) : Bool :=
  match packet.origin with
  | .replayed _ => true
  | .relayed _ => false

-- The client is sent what the ack left of the report as if it were the full state.
theorem ack_primes : ¬ ∀ s, (mqttProxy desk plain).Runs Machine.Free .init s → GenuinelyPrimed desk plain s := by
  intro h
  have hend : ((mqttProxy desk plain).play .init (subscribes ++ [.message desk.reportTopic ackedDump])).bind (fun s =>
      ((mqttProxy desk plain).step s (.replay 0)).map fun s' =>
        (Dict.get s.clients "10.0.0.5:4711", (queuedBy s s' 0).any isReplayed, s.reports.any (genuine plain))) =
      some (some 0, true, false) := by
    decide +kernel
  obtain ⟨s, hs, hlast⟩ := Option.bind_eq_some_iff.mp hend
  obtain ⟨s', hstep, hlast⟩ := Option.map_eq_some_iff.mp hlast
  simp only [Prod.mk.injEq] at hlast
  obtain ⟨hc, hreplayed, hnone⟩ := hlast
  obtain ⟨packet, hpacket, horigin⟩ := List.any_eq_true.mp hreplayed
  have htakes : TakesGenuine plain s := by
    unfold isReplayed at horigin
    split at horigin
    · next part hpart => exact (h s (Machine.play_runs hs)).2 (.replay 0) s' hstep _ 0 hc packet hpacket part hpart
    · cases horigin
  obtain ⟨payload, hpayload, hgenuine⟩ := htakes
  exact absurd (List.any_eq_true.mpr ⟨payload, hpayload, hgenuine.check⟩) (by simp [hnone])

def fullDump : List UInt8 := Utf8.encode "\x7b\"print\":\x7b\"msg\":0,\"nozzle\":210\x7d\x7d"

def labelledCheck (_ : MQTTProxy) (a : Act) (_ : MQTTProxy) : Bool :=
  match a with
  | .message _ payload => genuine plain payload
  | _ => true

theorem labelledCheck_labelled (s : MQTTProxy) (a : Act) (s' : MQTTProxy) (h : labelledCheck s a s' = true) :
    WellLabelled desk plain s a s' := by
  rintro payload rfl ⟨parsed, hcacheable, _, hacks, _⟩
  simp only [labelledCheck, genuine, hcacheable.loads, List.any_eq_true, Bool.and_eq_true, Bool.not_eq_true'] at h
  obtain ⟨p, hp, hmarks, hack⟩ := h
  rw [hacks p hp hmarks] at hack
  cases hack

theorem snapshots_genuine_dump : ∃ s, (mqttProxy desk plain).playWhile labelledCheck .init
    (subscribes ++ [.message desk.reportTopic fullDump, .replay 0]) = some s ∧ s.cachePrimed = true ∧
      GenuinelyPrimed desk plain s := by
  have hend : ((mqttProxy desk plain).playWhile labelledCheck .init
      (subscribes ++ [.message desk.reportTopic fullDump, .replay 0])).map (fun s => s.cachePrimed) = some true := by
    decide +kernel
  obtain ⟨s, hs, hprimed⟩ := Option.map_eq_some_iff.mp hend
  exact ⟨s, hs, hprimed, snapshots_genuine (Machine.playWhile_runs labelledCheck_labelled hs)⟩

end PandaProxy.Mqtt
