import PandaProxy.Mqtt.ReportedAddress

namespace PandaProxy.Mqtt

open Async Json Python

-- `json.loads` raises what no `except` names.
def Uncaught (J : Codec) (payload : List UInt8) : Prop :=
  J.loads payload = .error .valueError ∨ J.loads payload = .error .recursionError

-- What a report needs: what is not parsed safely is not parsed at all, being too large for the cache
-- and saying nothing of the network, and what is merged and what is copied for a client nests no
-- deeper than the interpreter has calls left.
structure Digestible (J : Codec) (s : MQTTProxy) (payload : List UInt8) : Prop where
  parsed : Uncaught J payload → payloadReportsIp payload = false ∧ (payload = [] ∨ maxCacheablePayload < payload.length)
  merged : ∀ parsed, PrinterStateCache.Cacheable J payload parsed → PrinterStateCache.kept parsed ≠ [] →
    s.stateCache.Mergeable J parsed
  copied : payloadReportsIp payload = true → ∀ state, J.loads payload = .ok (.dict state) → s.clients ≠ [] →
    Value.copyFrames (.dict state) ≤ J.frames .broadcastReport

theorem parse_cases (J : Codec) (payload : List UInt8) :
    (Uncaught J payload ∧ ∃ x, J.parse payload = .error x) ∨ (¬ Uncaught J payload ∧ ∃ v, J.parse payload = .ok v) := by
  unfold Uncaught Codec.parse
  cases hloads : J.loads payload with
  | ok v => exact .inr ⟨by simp, some v, rfl⟩
  | error x =>
      cases x with
      | jsonDecodeError => exact .inr ⟨by simp, none, rfl⟩
      | unicodeDecodeError => exact .inr ⟨by simp, none, rfl⟩
      | valueError => exact .inl ⟨.inl rfl, .valueError, rfl⟩
      | recursionError => exact .inl ⟨.inr rfl, .recursionError, rfl⟩

theorem payloadIsFullState_ok {J : Codec} {payload : List UInt8} {v : Option Value} (h : J.parse payload = .ok v) :
    ∃ full, payloadIsFullState J payload = .ok full := by
  unfold payloadIsFullState
  rw [h]
  simp only [bind, Except.bind]
  split <;> exact ⟨_, rfl⟩

theorem PrinterStateCache.update_ok_iff (J : Codec) (cache : PrinterStateCache) (payload : List UInt8) :
    (∃ merged, (cache.update J payload).1 = .ok merged) ↔
      (Uncaught J payload → payload = [] ∨ maxCacheablePayload < payload.length) ∧
        ∀ parsed, Cacheable J payload parsed → kept parsed ≠ [] → Mergeable J cache parsed := by
  unfold update
  split
  · next hskip =>
      have hskip' : payload = [] ∨ maxCacheablePayload < payload.length := by simpa using hskip
      refine ⟨fun _ => ⟨fun _ => hskip', fun parsed hcacheable => ?_⟩, fun _ => ⟨_, rfl⟩⟩
      exact absurd hskip' (not_or.mpr ⟨hcacheable.nonempty, Nat.not_lt.mpr hcacheable.fits⟩)
  · next hkeep =>
      have hkeep' : ¬ (payload = [] ∨ maxCacheablePayload < payload.length) := by simpa using hkeep
      rcases parse_cases J payload with ⟨huncaught, x, hx⟩ | ⟨hcaught, v, hv⟩
      · rw [hx]
        exact ⟨fun ⟨_, hr⟩ => (nomatch hr), fun h => absurd (h.1 huncaught) hkeep'⟩
      · rw [hv]
        split
        · next heq => cases heq
        · next parsed heq =>
            have hloads := Codec.parse_dict.mp (hv.trans heq)
            split
            · next hempty =>
                refine ⟨fun _ => ⟨fun huncaught => absurd huncaught hcaught, fun parsed' h' hkept => ?_⟩, fun _ => ⟨_, rfl⟩⟩
                cases h'.loads.symm.trans hloads
                exact absurd (List.isEmpty_iff.mp hempty) hkept
            · next hne =>
                have hkept : kept parsed ≠ [] := fun he => hne (List.isEmpty_iff.mpr he)
                rw [not_or, Nat.not_lt] at hkeep'
                rcases deepMergeWithin_cases (J.frames .update) cache.state (kept parsed) with ⟨hle, h⟩ | ⟨hlt, cut, _, h⟩
                · rw [h]
                  refine ⟨fun _ => ⟨fun huncaught => absurd huncaught hcaught, fun parsed' h' _ => ?_⟩, fun _ => ⟨_, rfl⟩⟩
                  cases h'.loads.symm.trans hloads
                  exact hle
                · rw [h]
                  refine ⟨fun ⟨_, hr⟩ => (nomatch hr), fun hdigests => ?_⟩
                  exact absurd (hdigests.2 parsed ⟨hkeep'.1, hkeep'.2, hloads⟩ hkept) (Nat.not_le.mpr hlt)
        · next hother heq =>
            cases heq
            refine ⟨fun _ => ⟨fun huncaught => absurd huncaught hcaught, fun parsed' h' _ => ?_⟩, fun _ => ⟨_, rfl⟩⟩
            exact absurd (Except.ok.inj (hv.symm.trans (Codec.parse_dict.mpr h'.loads))) (hother parsed')

namespace MQTTProxy

-- What a client is sent for a message: the message itself, or its document with the client's own address.
structure Relays (J : Codec) (topic : String) (payload : List UInt8) (packet : Publish) : Prop where
  topic : packet.topic = topic
  payload : packet.payload = payload ∨
    ∃ state address, J.loads payload = .ok (.dict state) ∧ packet.payload = J.dumps (.dict (rewriteReportedIp state address).2)

def pending (s : MQTTProxy) : List (String × Nat) :=
  match s.upstream with
  | .broadcasting b => b.targets
  | _ => []

def Reached (J : Codec) (s₀ : MQTTProxy) (topic : String) (payload : List UInt8) (s : MQTTProxy) (id : String) (c : Nat) :
    Prop :=
  (∃ packet ∈ queuedBy s₀ s c, Relays J topic payload packet) ∨
    Dict.get s.clients id ≠ some c ∧ clientQueueSize ≤ (s.conn c).queued.length

structure Later (s s' : MQTTProxy) : Prop where
  accepted : s.accepted ≤ s'.accepted
  queues : ∀ c < s.accepted, ∃ more, (s'.conn c).queued = (s.conn c).queued ++ more ∧
    (s'.conn c).queue.length ≤ (s.conn c).queue.length + more.length
  lost : ∀ id, ∀ c < s.accepted, Dict.get s'.clients id = some c → Dict.get s.clients id = some c

variable {cfg : MqttSettings} {J : Codec} {s s' s₀ : MQTTProxy} {topic : String} {payload : List UInt8} {id : String} {c : Nat}

theorem Later.trans {s'' : MQTTProxy} (h : Later s s') (h' : Later s' s'') : Later s s'' where
  accepted := h.accepted.trans h'.accepted
  queues c hc := by
    obtain ⟨more, hqueued, hqueue⟩ := h.queues c hc
    obtain ⟨more', hqueued', hqueue'⟩ := h'.queues c (hc.trans_le h.accepted)
    refine ⟨more ++ more', by rw [hqueued', hqueued, List.append_assoc], ?_⟩
    rw [List.length_append]
    omega
  lost id c hc hget := h.lost id c hc (h'.lost id c (hc.trans_le h.accepted) hget)

theorem Delivers.later {P : Nat → Publish → Prop} (h : Delivers P s s') : Later s s' where
  accepted := h.accepted.ge
  queues c _ := by
    obtain ⟨more, hqueue, hqueued, _⟩ := h.queues c
    exact ⟨more, hqueued, by rw [hqueue, List.length_append]⟩
  lost _ _ _ hget := h.shrinks.registered hget

theorem Shrinks.later (h : Shrinks s s') (hqueued : ∀ c, (s'.conn c).queued = (s.conn c).queued)
    (hqueue : ∀ c, (s'.conn c).queue.length ≤ (s.conn c).queue.length) : Later s s' where
  accepted := h.accepted.ge
  queues c _ := ⟨[], by rw [hqueued, List.append_nil], hqueue c⟩
  lost _ _ _ hget := h.registered hget

def Backlog (s : MQTTProxy) : Prop := ∀ c < s.accepted, (s.conn c).queue.length ≤ (s.conn c).queued.length

theorem Backlog.later (h : Backlog s) (hlater : Later s s') (haccepted : s'.accepted = s.accepted) : Backlog s' := by
  intro c hc
  rw [haccepted] at hc
  obtain ⟨more, hqueued, hqueue⟩ := hlater.queues c hc
  have := h c hc
  rw [hqueued, List.length_append]
  omega

theorem Reached.later (h : Reached J s₀ topic payload s id c) (hlater : Later s s') (hc : c < s.accepted) :
    Reached J s₀ topic payload s' id c := by
  obtain ⟨more, hqueued, _⟩ := hlater.queues c hc
  rcases h with ⟨packet, hpacket, hrelays⟩ | ⟨hlost, hfull⟩
  · refine .inl ⟨packet, ?_, hrelays⟩
    unfold queuedBy at hpacket ⊢
    rw [hqueued, List.drop_append]
    exact List.mem_append_left _ hpacket
  · refine .inr ⟨fun hget => hlost (hlater.lost id c hc hget), ?_⟩
    rw [hqueued, List.length_append]
    omega

theorem deliver_reaches {packet : Publish} (hlater : Later s₀ s) (hback : Backlog s) (hc : c < s₀.accepted)
    (hpacket : Relays J topic payload packet) : Reached J s₀ topic payload (s.deliver id c packet).2 id c := by
  obtain ⟨more, hqueued, _⟩ := hlater.queues c hc
  by_cases hroom : (s.conn c).queue.length < clientQueueSize
  · refine .inl ⟨packet, ?_, hpacket⟩
    have hput : (s.deliver id c packet).2 = s.put c packet := by simp [deliver, hroom]
    rw [hput, queuedBy]
    simp [put, setConn, hqueued]
  · have hfull := hback c (hc.trans_le hlater.accepted)
    refine .inr ?_
    have hsame : (s.deliver id c packet).2.clients = Dict.pop s.clients id ∧
        ((s.deliver id c packet).2.conn c).queued = (s.conn c).queued := by
      unfold deliver
      rw [if_neg hroom]
      split
      · next writer _ =>
          exact ⟨rfl, setConn_same (s := s.forget id) (c := writer) (f := fun x => { x with closed := true }) Client.queued
            fun _ => rfl⟩
      · exact ⟨rfl, rfl⟩
    rw [hsame.1, hsame.2, Dict.get_pop_self]
    exact ⟨by rintro ⟨⟩, by omega⟩

-- The printer sends nothing more, and its connection does not break of itself.
def Undisturbed (_ : MQTTProxy) (a : Act) (_ : MQTTProxy) : Prop := (∀ topic payload, a ≠ .message topic payload) ∧ a ≠ .fail

def Copied (J : Codec) (b : Broadcast) : Prop :=
  ∀ state, b.personalised = some state → Value.copyFrames (.dict state) ≤ J.frames .broadcastReport

theorem personalData_some {b : Broadcast} (h : Copied J b) (s : MQTTProxy) (id : String) : ∃ data, personalData J s b id = some data := by
  unfold personalData
  split
  · next state localIp hstate _ =>
      split
      · exact ⟨_, rfl⟩
      · rw [if_pos (h state hstate)]
        exact ⟨_, rfl⟩
  · exact ⟨_, rfl⟩

theorem personalData_relays {b : Broadcast} (hb : Prepared J b) {data : List UInt8} (hdata : personalData J s b id = some data)
    {n : Nat} : Relays J b.topic b.payload ⟨b.topic, data, .relayed b.payload, n⟩ where
  topic := rfl
  payload := by
    unfold personalData at hdata
    split at hdata
    · next state localIp hstate _ =>
        split at hdata
        · cases hdata
          exact .inl rfl
        · split at hdata <;> cases hdata
          exact .inr ⟨state, localIp, hb.personal state hstate, rfl⟩
    · cases hdata
      exact .inl rfl

theorem relay_goes_on {b : Broadcast} (targets : List (String × Nat)) (h : targets ≠ [] → Copied J b) :
    (relay J b targets s).upstream = .listening ∨
      ∃ rest, (relay J b targets s).upstream = .broadcasting { b with targets := rest } ∧ Copied J b := by
  induction targets generalizing s with
  | nil => exact .inl rfl
  | cons target targets ih =>
      obtain ⟨id, c⟩ := target
      have hcopied := h (List.cons_ne_nil _ _)
      obtain ⟨data, hdata⟩ := personalData_some hcopied s id
      simp only [relay, hdata]
      split
      · next s' _ => exact ih fun _ => hcopied
      · next s' _ => exact .inr ⟨targets, rfl, hcopied⟩

theorem relay_fails {b : Broadcast} {state : Document} {address : String} (hstate : b.personalised = some state)
    (hdeep : ¬ Value.copyFrames (.dict state) ≤ J.frames .broadcastReport) (targets : List (String × Nat))
    (hkeys : (targets.map Prod.fst).Nodup) (hmem : (id, c) ∈ targets) (hlocal : Dict.get s.clientIps id = some address)
    (hne : address ≠ "") : ∃ s', (mqttProxy cfg J).Runs Undisturbed (relay J b targets s) s' ∧ s'.upstream = .leaving := by
  induction targets generalizing s b with
  | nil => cases hmem
  | cons target targets ih =>
      obtain ⟨id', c'⟩ := target
      rw [List.map_cons, List.nodup_cons] at hkeys
      simp only [relay]
      split
      · exact ⟨_, .refl, rfl⟩
      · next data hdata =>
          have hother : id' ≠ id := by
            rintro rfl
            simp [personalData, hstate, hlocal, hne, hdeep] at hdata
          have hmem : (id, c) ∈ targets := (List.mem_cons.mp hmem).resolve_left fun heq => hother (congrArg Prod.fst heq).symm
          have hips : Dict.get (s.deliver id' c' ⟨b.topic, data, .relayed b.payload, s.connections⟩).2.clientIps id =
              some address := by
            rcases deliver_cases s id' c' ⟨b.topic, data, .relayed b.payload, s.connections⟩ with h | ⟨_, h⟩ | ⟨w, _, h⟩
            · rw [h]
              exact hlocal
            · rw [h]
              exact (Dict.get_pop_ne hother.symm).trans hlocal
            · rw [h]
              exact (Dict.get_pop_ne hother.symm).trans hlocal
          split
          · next s' hs' =>
              rw [hs'] at hips
              exact ih hstate hkeys.2 hmem hips
          · next s' hs' =>
              rw [hs'] at hips
              obtain ⟨s'', hruns, hleaving⟩ := ih (b := { b with targets := targets })
                (s := { s' with upstream := .broadcasting { b with targets := targets } }) hstate hkeys.2 hmem hips
              exact ⟨s'', .head ⟨.hungUp, rfl, by rintro _ _ ⟨⟩, by rintro ⟨⟩⟩ hruns, hleaving⟩

theorem relay_later (b : Broadcast) (targets : List (String × Nat)) : Later s (relay J b targets s) :=
  (relay_delivers (P := fun _ _ => True) targets fun _ _ _ => trivial).1.later

theorem relay_reaches {b : Broadcast} (hb : Prepared J b) (targets : List (String × Nat)) (hcopied : targets ≠ [] → Copied J b)
    (hlater : Later s₀ s) (hback : Backlog s) (hc : c < s₀.accepted)
    (h : (id, c) ∈ targets ∨ Reached J s₀ b.topic b.payload s id c) :
    (id, c) ∈ (relay J b targets s).pending ∨ Reached J s₀ b.topic b.payload (relay J b targets s) id c := by
  induction targets generalizing s with
  | nil =>
      refine .inr ?_
      rcases h with hmem | h
      · cases hmem
      · exact h
  | cons target targets ih =>
      obtain ⟨id', c'⟩ := target
      obtain ⟨data, hdata⟩ := personalData_some (hcopied (List.cons_ne_nil _ _)) s id'
      let packet : Publish := ⟨b.topic, data, .relayed b.payload, s.connections⟩
      have hdelivers : Delivers (fun _ _ => True) s (s.deliver id' c' packet).2 := deliver_delivers id' trivial
      have hlater' := hlater.trans hdelivers.later
      have hback' := hback.later hdelivers.later hdelivers.accepted
      have hnow : (id, c) ∈ targets ∨ Reached J s₀ b.topic b.payload (s.deliver id' c' packet).2 id c := by
        rcases h with hmem | h
        · rcases List.mem_cons.mp hmem with heq | hmem
          · cases heq
            exact .inr (deliver_reaches hlater hback hc (personalData_relays hb hdata))
          · exact .inl hmem
        · exact .inr (h.later hdelivers.later (hc.trans_le hlater.accepted))
      simp only [relay, hdata]
      split
      · next s' hs' =>
          have hs : (s.deliver id' c' packet).2 = s' := congrArg Prod.snd hs'
          rw [hs] at hlater' hback' hnow
          exact ih (fun _ => hcopied (List.cons_ne_nil _ _)) hlater' hback' hnow
      · next s' hs' =>
          have hs : (s.deliver id' c' packet).2 = s' := congrArg Prod.snd hs'
          rw [hs] at hnow
          exact hnow

structure Underway (J : Codec) (s₀ : MQTTProxy) (topic : String) (payload : List UInt8) (cache : PrinterStateCache)
    (primed : Bool) (s : MQTTProxy) : Prop where
  upstream : s.upstream = .listening ∨
    ∃ b, s.upstream = .broadcasting b ∧ b.topic = topic ∧ b.payload = payload ∧ Prepared J b ∧ Copied J b
  later : Later s₀ s
  backlog : Backlog s
  cache : s.stateCache = cache
  primed : s.cachePrimed = primed
  reached : ∀ id, ∀ c < s₀.accepted, Dict.get s₀.clients id = some c →
    (id, c) ∈ s.pending ∨ Reached J s₀ topic payload s id c

theorem relay_underway {cache : PrinterStateCache} {primed : Bool} {b : Broadcast} (hb : Prepared J b)
    (targets : List (String × Nat)) (hcopied : targets ≠ [] → Copied J b) (hlater : Later s₀ s) (hback : Backlog s)
    (hcache : s.stateCache = cache) (hprimed : s.cachePrimed = primed)
    (h : ∀ id, ∀ c < s₀.accepted, Dict.get s₀.clients id = some c →
      (id, c) ∈ targets ∨ Reached J s₀ b.topic b.payload s id c) :
    Underway J s₀ b.topic b.payload cache primed (relay J b targets s) := by
  obtain ⟨hdelivers, _⟩ := relay_delivers (J := J) (b := b) (P := fun _ _ => True) (s := s) targets fun _ _ _ => trivial
  refine ⟨?_, hlater.trans hdelivers.later, hback.later hdelivers.later hdelivers.accepted, hdelivers.stateCache.trans hcache,
    hdelivers.cachePrimed.trans hprimed, fun id c hc hget => relay_reaches hb targets hcopied hlater hback hc (h id c hc hget)⟩
  rcases relay_goes_on (s := s) targets hcopied with hlistening | ⟨rest, hrest, hcopied⟩
  · exact .inl hlistening
  · exact .inr ⟨_, hrest, rfl, rfl, ⟨hb.personal, hb.reports, hb.shared⟩, hcopied⟩

theorem Underway.later_step {cache : PrinterStateCache} {primed : Bool} (h : Underway J s₀ topic payload cache primed s)
    (hlater : Later s s') (hback : Backlog s') (hupstream : s'.upstream = s.upstream) (hcache : s'.stateCache = s.stateCache)
    (hprimed : s'.cachePrimed = s.cachePrimed) : Underway J s₀ topic payload cache primed s' where
  upstream := by
    rw [hupstream]
    exact h.upstream
  later := h.later.trans hlater
  backlog := hback
  cache := hcache.trans h.cache
  primed := hprimed.trans h.primed
  reached id c hc hget := by
    have hpending : s'.pending = s.pending := by rw [pending, pending, hupstream]
    rw [hpending]
    exact (h.reached id c hc hget).imp_right fun hr => hr.later hlater (hc.trans_le h.later.accepted)

theorem register_later (cfg : MqttSettings) (id : String) (sockname : Option String) (hback : Backlog s) :
    Later s (register cfg s id sockname) ∧ Backlog (register cfg s id sockname) := by
  unfold register
  split
  · have hlater : Later s (s.forget id) := (Shrinks.forget s id).later (fun _ => rfl) fun _ => le_rfl
    exact ⟨hlater, hback.later hlater rfl⟩
  · next advertised _ =>
      refine ⟨⟨Nat.le_succ _, fun c hc => ?_, fun id' c hc hget => ?_⟩, fun c hc => ?_⟩
      · exact ⟨[], by simp [hc.ne], by simp [hc.ne]⟩
      · by_cases hid : id' = id
        · subst hid
          rw [Dict.get_set_self] at hget
          cases hget
          exact absurd hc (Nat.lt_irrefl _)
        · rwa [Dict.get_set_ne hid] at hget
      · by_cases hnew : c = s.accepted
        · simp [hnew]
        · have hold : c < s.accepted := Nat.lt_of_le_of_ne (Nat.lt_succ_iff.mp hc) hnew
          simpa [hnew] using hback c hold

theorem setConn_later {k : Nat} {f : Client → Client} (hid : ∀ x, (f x).clientId = x.clientId)
    (hadvertised : ∀ x, (f x).advertised = x.advertised) (hqueued : ∀ x, (f x).queued = x.queued)
    (hqueue : (f (s.conn k)).queue.length ≤ (s.conn k).queue.length) : Later s (s.setConn k f) := by
  refine (setConn_shrinks hid hadvertised).later (fun _ => setConn_same _ hqueued) fun c => ?_
  by_cases hc : c = k
  · subst hc
    simpa [setConn] using hqueue
  · simp [setConn, hc]

theorem takenIn_later (cfg : MqttSettings) (J : Codec) (s : MQTTProxy) (topic : String) (payload : List UInt8) :
    Later s (takenIn cfg J s topic payload) := by
  obtain ⟨cache, primed, reports, h⟩ := takenIn_same cfg J s topic payload
  rw [h]
  exact Shrinks.later (.same rfl (fun _ => rfl) (fun _ => rfl) rfl rfl rfl) (fun _ => rfl) fun _ => le_rfl

theorem handleMessage_later (cfg : MqttSettings) (J : Codec) (s : MQTTProxy) (topic : String) (payload : List UInt8) :
    Later s (handleMessage cfg J s topic payload) := by
  refine (takenIn_later cfg J s topic payload).trans ?_
  rcases handleMessage_cases cfg J s topic payload with h | ⟨personalised, h, _⟩
  · rw [h]
    exact Shrinks.later (.same rfl (fun _ => rfl) (fun _ => rfl) rfl rfl rfl) (fun _ => rfl) fun _ => le_rfl
  · rw [h]
    exact relay_later _ _

theorem replay_later {t c : Nat} {id : String} (packets : List Publish) : Later s (replay t id c packets s) :=
  (replay_delivers (P := fun _ _ => True) id packets fun _ _ => trivial).1.later

theorem step_later {a : Act} (hstep : step cfg J s a = some s') (ha : ∀ id sockname, a ≠ .register id sockname) :
    Later s s' := by
  have hshrinks := step_shrinks hstep ha
  have hplain : s'.conn = s.conn → Later s s' := fun hconn => hshrinks.later (fun _ => by rw [hconn]) fun _ => by rw [hconn]
  cases step_cases hstep with
  | register => exact absurd rfl (ha _ _)
  | message _ => exact handleMessage_later cfg J s _ _
  | hungUp _ => exact relay_later _ _
  | replay _ _ _ _ => exact replay_later _
  | replayHungUp _ => exact replay_later _
  | @send c packet queue _ hqueue =>
      exact setConn_later (f := fun x =>
        { x with queue := queue, written := if x.closed then x.written else x.written ++ [packet] })
        (fun _ => rfl) (fun _ => rfl) (fun _ => rfl) (by simp [hqueue])
  | finish _ =>
      exact setConn_later (f := fun x => { x with stage := .ended }) (fun _ => rfl) (fun _ => rfl) (fun _ => rfl) le_rfl
  | @leave c _ =>
      have hforget : Later s (s.forget (s.conn c).clientId) := (Shrinks.forget s _).later (fun _ => rfl) fun _ => le_rfl
      exact hforget.trans (setConn_later (f := fun x => { x with stage := .over, closed := true }) (fun _ => rfl)
        (fun _ => rfl) (fun _ => rfl) le_rfl)
  | _ => exact hplain rfl

theorem Backlog.step {a : Act} (h : Backlog s) (hstep : step cfg J s a = some s') : Later s s' ∧ Backlog s' := by
  by_cases ha : ∃ id sockname, a = .register id sockname
  · obtain ⟨id, sockname, rfl⟩ := ha
    cases hstep
    exact register_later cfg id sockname h
  · have hregister : ∀ id sockname, a ≠ .register id sockname := fun id sockname he => ha ⟨id, sockname, he⟩
    have hlater := step_later hstep hregister
    exact ⟨hlater, h.later hlater (step_shrinks hstep hregister).accepted⟩

theorem step_aside {a : Act} (hstep : step cfg J s a = some s') (hconnect : a ≠ .connect)
    (hmessage : ∀ topic payload, a ≠ .message topic payload) (hhungUp : a ≠ .hungUp) (hfail : a ≠ .fail) (hlose : a ≠ .lose) :
    s'.upstream = s.upstream ∧ s'.stateCache = s.stateCache ∧ s'.cachePrimed = s.cachePrimed := by
  have hreplay : ∀ {t c : Nat} {id : String} (packets : List Publish), (replay t id c packets s).upstream = s.upstream ∧
      (replay t id c packets s).stateCache = s.stateCache ∧ (replay t id c packets s).cachePrimed = s.cachePrimed := by
    intro t c id packets
    obtain ⟨hdelivers, hupstream, _⟩ := replay_delivers (P := fun _ _ => True) (s := s) (t := t) (c := c) id packets
      fun _ _ => trivial
    exact ⟨hupstream, hdelivers.stateCache, hdelivers.cachePrimed⟩
  cases step_cases hstep with
  | connect _ => exact absurd rfl hconnect
  | message _ => exact absurd rfl (hmessage _ _)
  | hungUp _ => exact absurd rfl hhungUp
  | fail _ => exact absurd rfl hfail
  | lose _ => exact absurd rfl hlose
  | register =>
      unfold register
      split <;> exact ⟨rfl, rfl, rfl⟩
  | replay _ _ _ _ => exact hreplay _
  | replayHungUp _ => exact hreplay _
  | _ => exact ⟨rfl, rfl, rfl⟩

theorem Underway.step {cache : PrinterStateCache} {primed : Bool} {a : Act}
    (h : Underway J s₀ topic payload cache primed s) (hstep : step cfg J s a = some s')
    (hmessage : ∀ topic payload, a ≠ .message topic payload) (hfail : a ≠ .fail) :
    Underway J s₀ topic payload cache primed s' := by
  have hconnected : s.upstream ≠ .away ∧ s.upstream ≠ .leaving := by
    rcases h.upstream with hup | ⟨b, hup, _⟩ <;> rw [hup] <;> exact ⟨nofun, nofun⟩
  cases a with
  | connect =>
      cases step_cases hstep with
      | connect hup => exact absurd hup hconnected.1
  | lose =>
      cases step_cases hstep with
      | lose hup => exact absurd hup hconnected.2
  | hungUp =>
      cases step_cases hstep with
      | @hungUp b hup =>
          rcases h.upstream with hlistening | ⟨b', hup', rfl, rfl, hb, hcopied⟩
          · rw [hlistening] at hup
            cases hup
          · cases hup.symm.trans hup'
            refine relay_underway hb b.targets (fun _ => hcopied) h.later h.backlog h.cache h.primed fun id c hc hget => ?_
            have hreached := h.reached id c hc hget
            rwa [pending, hup] at hreached
  | _ =>
      obtain ⟨hlater, hback⟩ := h.backlog.step hstep
      obtain ⟨hupstream, hcache, hprimed⟩ := step_aside hstep nofun hmessage nofun hfail nofun
      exact h.later_step hlater hback hupstream hcache hprimed

structure Outcome (J : Codec) (s : MQTTProxy) (topic : String) (payload : List UInt8) (s' : MQTTProxy) : Prop where
  connected : s'.upstream = .listening ∨ ∃ b, s'.upstream = .broadcasting b
  ignored : (∀ parsed, PrinterStateCache.Cacheable J payload parsed → PrinterStateCache.kept parsed = []) →
    s'.stateCache = s.stateCache
  cached : ∀ parsed, PrinterStateCache.Cacheable J payload parsed → PrinterStateCache.kept parsed ≠ [] →
    s'.stateCache.state = deepMerge s.stateCache.state (PrinterStateCache.kept parsed)
  primed : s.cachePrimed = true → s'.cachePrimed = true
  relayed : ∀ id c, Dict.get s.clients id = some c → (id, c) ∈ s'.pending ∨ Reached J s topic payload s' id c

-- No function that handles the report raises, and what follows is its broadcast.
structure Handled (cfg : MqttSettings) (J : Codec) (s : MQTTProxy) (payload : List UInt8) : Prop where
  updated : ∃ merged, (s.stateCache.update J payload).1 = .ok merged
  marked : (s.stateCache.update J payload).1 = .ok true → ∃ full, payloadIsFullState J payload = .ok full
  outcome : ∀ s', (mqttProxy cfg J).Runs Undisturbed (handleMessage cfg J s cfg.reportTopic payload) s' →
    Outcome J s cfg.reportTopic payload s'

theorem Outcome.of_underway {cache : PrinterStateCache} {primed merged : Bool} (hregistry : Registry s)
    (h : Underway J s topic payload cache primed s') (hupdate : s.stateCache.update J payload = (.ok merged, cache))
    (hprimed : s.cachePrimed = true → primed = true) : Outcome J s topic payload s' where
  connected := h.upstream.imp_right fun ⟨b, hb, _⟩ => ⟨b, hb⟩
  ignored hnone := by
    rw [h.cache]
    rcases PrinterStateCache.update_cases J s.stateCache payload with
      ⟨parsed, hcacheable, hkept, _⟩ | ⟨parsed, hcacheable, hkept, _⟩ | ⟨_, r, hsame, _⟩
    · exact absurd (hnone parsed hcacheable) hkept
    · exact absurd (hnone parsed hcacheable) hkept
    · cases hupdate.symm.trans hsame
      rfl
  cached parsed hcacheable hkept := by
    rw [h.cache]
    rcases PrinterStateCache.update_cases J s.stateCache payload with
      ⟨parsed', hcacheable', _, _, hmerged⟩ | ⟨_, _, _, _, _, _, hfails⟩ | ⟨hnone, _⟩
    · cases hcacheable.unique hcacheable'
      cases hupdate.symm.trans hmerged
      rfl
    · cases hupdate.symm.trans hfails
    · exact absurd (hnone parsed hcacheable) hkept
  primed hp := h.primed.trans (hprimed hp)
  relayed id c hget := h.reached id c (hregistry.accepted id c hget) hget

theorem cacheReport_alive {cache : PrinterStateCache} {merged : Bool} (hupdate : s.stateCache.update J payload = (.ok merged, cache))
    (hmarked : merged = true → ∃ full, payloadIsFullState J payload = .ok full) :
    ∃ primed, (s.cachePrimed = true → primed = true) ∧ cacheReport J s payload =
      (true, { s with stateCache := cache, reports := payload :: s.reports, cachePrimed := primed }) := by
  unfold cacheReport
  rw [hupdate]
  cases merged with
  | false => exact ⟨s.cachePrimed, fun h => h, rfl⟩
  | true =>
      obtain ⟨full, hfull⟩ := hmarked rfl
      simp only [hfull, if_true]
      cases full with
      | true => exact ⟨true, fun _ => rfl, rfl⟩
      | false => exact ⟨s.cachePrimed, fun h => h, rfl⟩

theorem reachable_backlog (hrun : (mqttProxy cfg J).Runs Machine.Free init s) : Registry s ∧ Backlog s := by
  refine hrun.keeps (I := fun s => Registry s ∧ Backlog s) ⟨Registry.init, fun c hc => absurd hc (Nat.not_lt_zero c)⟩ ?_
  rintro s a s' ⟨hregistry, hback⟩ hstep -
  exact ⟨hregistry.step hstep, (hback.step hstep).2⟩

theorem reachable_addressed (hcfg : cfg.Lawful) (hrun : (mqttProxy cfg J).Runs Machine.Free init s) : Addressed s :=
  hrun.keeps (fun c hc => absurd hc (Nat.not_lt_zero c)) fun _ _ _ h hstep _ => h.step hcfg hstep

theorem updated_split (h : ∃ merged, (s.stateCache.update J payload).1 = .ok merged) :
    ∃ merged cache, s.stateCache.update J payload = (.ok merged, cache) := by
  obtain ⟨merged, hmerged⟩ := h
  exact ⟨merged, _, Prod.ext hmerged rfl⟩

theorem handleMessage_underway (cfg : MqttSettings) (hback : Backlog s) (h : Digestible J s payload) :
    ∃ merged cache primed, s.stateCache.update J payload = (.ok merged, cache) ∧
      (merged = true → ∃ full, payloadIsFullState J payload = .ok full) ∧ (s.cachePrimed = true → primed = true) ∧
      Underway J s cfg.reportTopic payload cache primed (handleMessage cfg J s cfg.reportTopic payload) := by
  obtain ⟨merged, cache, hupdate⟩ := updated_split
    ((PrinterStateCache.update_ok_iff J s.stateCache payload).mpr ⟨fun hu => (h.parsed hu).2, h.merged⟩)
  have hmarked : merged = true → ∃ full, payloadIsFullState J payload = .ok full := by
    rintro rfl
    rcases PrinterStateCache.update_cases J s.stateCache payload with
      ⟨parsed, hcacheable, _⟩ | ⟨_, _, _, _, _, _, hfails⟩ | ⟨_, r, hsame, hr⟩
    · exact payloadIsFullState_ok (Codec.parse_dict.mpr hcacheable.loads)
    · cases hupdate.symm.trans hfails
    · cases hupdate.symm.trans hsame
      exact absurd rfl hr
  obtain ⟨primed, hprimed, hcached⟩ := cacheReport_alive hupdate hmarked
  refine ⟨merged, cache, primed, hupdate, hmarked, hprimed, ?_⟩
  have hlater : Later s { s with stateCache := cache, reports := payload :: s.reports, cachePrimed := primed } :=
    Shrinks.later (.same rfl (fun _ => rfl) (fun _ => rfl) rfl rfl rfl) (fun _ => rfl) fun _ => le_rfl
  unfold handleMessage
  simp only [hcached, if_true]
  rcases broadcastReport_cases J _ cfg.reportTopic payload with ⟨hreports, ⟨x, hx⟩, _⟩ | ⟨personalised, hrelay, hprepared⟩
  · rcases parse_cases J payload with ⟨huncaught, _⟩ | ⟨_, v, hv⟩
    · rw [(h.parsed huncaught).1] at hreports
      cases hreports
    · cases hx.symm.trans hv
  · rw [hrelay]
    refine relay_underway hprepared _ (fun hclients state hstate => ?_) hlater (hback.later hlater rfl) rfl rfl
      fun id c _ hget => .inl (Dict.mem_of_get hget)
    exact h.copied (hprepared.reports state hstate) state (hprepared.personal state hstate) hclients

theorem copied_of_handled (hregistry : Registry s) (haddressed : Addressed s) (h : Handled cfg J s payload)
    (hreports : payloadReportsIp payload = true) {state : Document} (hstate : J.loads payload = .ok (.dict state))
    (hclients : s.clients ≠ []) : Value.copyFrames (.dict state) ≤ J.frames .broadcastReport := by
  by_contra hdeep
  obtain ⟨merged, cache, hupdate⟩ := updated_split h.updated
  obtain ⟨primed, _, hcached⟩ := cacheReport_alive hupdate fun hm => h.marked (hupdate ▸ congrArg Except.ok hm)
  obtain ⟨⟨id, c⟩, hmem⟩ := List.exists_mem_of_ne_nil _ hclients
  have hget := Dict.get_of_mem hregistry.keys hmem
  have hne := isIpv4_ne_empty (haddressed c (hregistry.accepted id c hget))
  have hrelay : handleMessage cfg J s cfg.reportTopic payload =
      relay J ⟨cfg.reportTopic, payload, some state, []⟩ s.clients
        { s with stateCache := cache, reports := payload :: s.reports, cachePrimed := primed } := by
    unfold handleMessage broadcastReport
    simp only [hcached, if_true, hreports, Bool.not_true, Bool.false_eq_true, if_false, Codec.parse_dict.mpr hstate]
  have hfails : ∃ s', (mqttProxy cfg J).Runs Undisturbed (handleMessage cfg J s cfg.reportTopic payload) s' ∧
      s'.upstream = .leaving := by
    rw [hrelay]
    exact relay_fails rfl hdeep s.clients hregistry.keys hmem (hregistry.addressed id c hget) hne
  obtain ⟨s', hruns, hleaving⟩ := hfails
  rcases (h.outcome s' hruns).connected with hup | ⟨b, hup⟩ <;> cases hleaving.symm.trans hup

theorem digestible_of_handled (hregistry : Registry s) (haddressed : Addressed s) (h : Handled cfg J s payload) :
    Digestible J s payload := by
  have hupdated := (PrinterStateCache.update_ok_iff J s.stateCache payload).mp h.updated
  refine ⟨fun huncaught => ⟨?_, hupdated.1 huncaught⟩, hupdated.2, fun hreports state hstate =>
    copied_of_handled hregistry haddressed h hreports hstate⟩
  cases hreports : payloadReportsIp payload with
  | false => rfl
  | true =>
      obtain ⟨merged, cache, hupdate⟩ := updated_split h.updated
      obtain ⟨primed, _, hcached⟩ := cacheReport_alive hupdate fun hm => h.marked (hupdate ▸ congrArg Except.ok hm)
      have hconnected := (h.outcome _ .refl).connected
      unfold handleMessage at hconnected
      simp only [hcached, if_true] at hconnected
      rcases parse_cases J payload with ⟨_, x, hx⟩ | ⟨hcaught, _⟩
      · simp [broadcastReport, hreports, hx] at hconnected
      · exact absurd huncaught hcaught

theorem payload_handled (hcfg : cfg.Lawful) (hrun : (mqttProxy cfg J).Runs Machine.Free init s) :
    Handled cfg J s payload ↔ Digestible J s payload := by
  obtain ⟨hregistry, hback⟩ := reachable_backlog hrun
  refine ⟨digestible_of_handled hregistry (reachable_addressed hcfg hrun), fun h => ?_⟩
  obtain ⟨merged, cache, primed, hupdate, hmarked, hprimed, hunderway⟩ := handleMessage_underway cfg hback h
  refine ⟨⟨merged, congrArg Prod.fst hupdate⟩, fun hcached => ?_, fun s' hruns => ?_⟩
  · rw [hupdate] at hcached
    exact hmarked (Except.ok.inj hcached)
  · refine Outcome.of_underway hregistry (hruns.keeps hunderway ?_) hupdate hprimed
    rintro s a s' hI hstep ⟨hmessage, hfail⟩
    exact hI.step hstep hmessage hfail

end MQTTProxy

theorem plain_int {n : Nat} (h : ¬ Convertible n) : Uncaught plain (plain.dumps (.int n)) := by
  have hne : n ≠ 0 := by
    rintro rfl
    exact h (Nat.pow_pos (by decide))
  have hlarge : ¬ n < 10 ^ digitLimit := h
  have hprint : Plain.print (.int n) = Plain.printNat n := by
    rw [Plain.print, if_neg (Int.not_lt.mpr (Int.natCast_nonneg n)), Int.natAbs_natCast]
  have hread : Plain.read Plain.nesting (Plain.printNat n) = .error .valueError := by
    have hnat : Plain.readNat (Plain.printNat n ++ []) = _ := Plain.readNat_digits hne (by rintro _ ⟨⟩)
    have hvalue : Plain.read Plain.nesting (Plain.printNat n ++ []) = _ := Plain.readValue_nat n
    rw [hnat, if_neg hlarge, List.append_nil] at hvalue
    exact hvalue
  refine .inl ?_
  show Plain.loads (Plain.dumps (.int n)) = _
  rw [Plain.loads, Plain.dumps, hprint, Plain.decode_ascii (Plain.printNat_ascii n)]
  simp only [hread, bind, Except.bind]

theorem payload_handled_dump : ∃ s, (mqttProxy desk plain).play .init subscribes = some s ∧
    MQTTProxy.Handled desk plain s networkReport := by
  have hend : ((mqttProxy desk plain).play .init subscribes).map (fun s => decide
      (s.stateCache.Mergeable plain (reading plain networkReport) ∧
        Value.copyFrames (.dict (reading plain networkReport)) ≤ plain.frames .broadcastReport)) = some true := by
    decide +kernel
  obtain ⟨s, hs, hframes⟩ := Option.map_eq_some_iff.mp hend
  obtain ⟨hmerge, hcopy⟩ := of_decide_eq_true hframes
  have hloads : (plain.loads networkReport).isOk = true := by decide +kernel
  refine ⟨s, hs, (MQTTProxy.payload_handled (fun _ _ hmapped => by cases hmapped) (Machine.play_runs hs)).mpr ⟨?_, ?_, ?_⟩⟩
  · rintro (hx | hx) <;> rw [hx] at hloads <;> cases hloads
  · intro parsed hcacheable _
    rw [reading_loads hcacheable.loads] at hmerge
    exact hmerge
  · intro _ state hstate _
    rw [reading_loads hstate] at hcopy
    exact hcopy

-- One digit more than Python converts.
def longInteger : List UInt8 := plain.dumps (.int (10 ^ digitLimit : Nat))

theorem longInteger_length : longInteger.length = digitLimit + 1 := by
  have hne : 10 ^ digitLimit ≠ 0 := (Nat.pow_pos (by decide)).ne'
  have hlength : longInteger.length = (Plain.printNat (10 ^ digitLimit)).length := by
    show ((Plain.print (.int (10 ^ digitLimit : Nat))).map _).length = _
    rw [List.length_map, Plain.print, if_neg (Int.not_lt.mpr (Int.natCast_nonneg _)), Int.natAbs_natCast]
  rw [hlength]
  refine Nat.le_antisymm ?_ (Nat.lt_of_not_le ?_)
  · exact (Plain.printNat_length_le hne).mpr (Nat.pow_lt_pow_right (by decide) (Nat.lt_succ_self _))
  · rw [Plain.printNat_length_le hne]
    exact Nat.lt_irrefl _

theorem longInteger_indigestible (s : MQTTProxy) : ¬ Digestible plain s longInteger := by
  intro h
  have hlength := longInteger_length
  have hlimit : digitLimit + 1 ≤ maxCacheablePayload := by
    unfold digitLimit
    decide
  rcases (h.parsed (plain_int (by simp [Convertible]))).2 with hnil | hlong
  · rw [hnil] at hlength
    cases hlength
  · omega

-- A number too long to be converted ends the connection to the printer.
theorem long_integer_fatal : ¬ ∀ s, (mqttProxy desk plain).Runs Machine.Free .init s → s.upstream = .listening →
    ∀ payload, MQTTProxy.Handled desk plain s payload := by
  intro h
  have hconnect : ∃ s, (mqttProxy desk plain).play .init [.connect] = some s ∧ s.upstream = .listening := ⟨_, rfl, rfl⟩
  obtain ⟨s, hs, hup⟩ := hconnect
  have hrun := Machine.play_runs hs
  have haddressed : MQTTProxy.Addressed s :=
    MQTTProxy.reachable_addressed (fun _ _ hmapped => by cases hmapped) hrun
  exact longInteger_indigestible s (MQTTProxy.digestible_of_handled (MQTTProxy.reachable_backlog hrun).1 haddressed
    (h s hrun hup longInteger))

end PandaProxy.Mqtt
