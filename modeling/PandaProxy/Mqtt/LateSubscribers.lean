import PandaProxy.Mqtt.ReportedAddress
import PandaProxy.Mqtt.Sections

namespace PandaProxy.Mqtt

open Async Json Python

def folded (J : Codec) (packets : List Publish) : Document :=
  packets.foldl (fun d packet => deepMerge d (reading J packet.payload)) []

def startsReplay (connection : Nat) (packet : Publish) : Bool := decide (packet.connection = connection) && isReplayed packet

def sinceReplay (connection : Nat) (packets : List Publish) : List Publish :=
  packets.dropWhile fun packet => !startsReplay connection packet

structure SectionedReport (J : Codec) (payload : List UInt8) : Prop where
  fits : payload.length ≤ maxCacheablePayload
  sectioned : Sectioned (reading J payload)
  spelled : ∀ part, getDict (reading J payload) (text "print") = some part →
    (Dict.get part (text "net")).isSome = true → payloadReportsIp payload = true

-- No string of it has the two halves of a code point side by side.
structure PlainReport (J : Codec) (payload : List UInt8) : Prop extends SectionedReport J payload where
  writable : ∀ d, J.loads payload = .ok (.dict d) → J.Writable (.dict d)

-- The document as a client at `address` is to read it.
structure Renders (address : String) (d d' : Document) : Prop where
  keyed : Value.Keyed (.dict d')
  tidy : Tidy d'
  core : core d' = Tree.mapLeaves (readdressing address) (core d)

section

variable {J : Codec} {payload : List UInt8} {packets more : List Publish} {connection : Nat} {address : String}
  {d d' base : Document}

theorem reading_keyed (hJ : J.Lawful) (payload : List UInt8) : Value.Keyed (.dict (reading J payload)) := by
  rcases reading_cases J payload with ⟨d, hd, heq⟩ | ⟨_, heq⟩
  · exact heq ▸ (hJ.wellFormed hd).keyed
  · rw [heq]
    exact .dict List.nodup_nil nofun

theorem PlainReport.tidy (hJ : J.Lawful) (h : PlainReport J payload) : Tidy (reading J payload) :=
  ⟨(reading_keyed hJ payload).keys, h.sectioned⟩

theorem PlainReport.kept {parsed cut : Document} (hplain : PlainReport J payload)
    (hcacheable : PrinterStateCache.Cacheable J payload parsed) (hcut : Cut cut (PrinterStateCache.kept parsed)) :
    J.Writable (.dict cut) ∧ Sectioned cut := by
  have hsectioned := hplain.sectioned
  rw [reading_loads hcacheable.loads] at hsectioned
  exact ⟨hcut.wellFormed (wellFormed_kept (hplain.writable parsed hcacheable.loads)), hcut.sectioned (sectioned_kept hsectioned)⟩

theorem Renders.tidy_deepMerge (h : Renders address d d') (hbase : Tidy base) : Tidy (deepMerge base d') :=
  hbase.deepMerge h.tidy.sectioned

theorem Renders.core_deepMerge (h : Renders address d d') : Mqtt.core (deepMerge base d') =
    Tree.overlay (Mqtt.core base) (Tree.mapLeaves (readdressing address) (Mqtt.core d)) := by
  rw [Mqtt.core_deepMerge h.keyed h.tidy.sectioned, h.core]

theorem folded_append : folded J (packets ++ more) =
    more.foldl (fun d packet => deepMerge d (reading J packet.payload)) (folded J packets) := List.foldl_append

theorem sinceReplay_append (h : sinceReplay connection packets ≠ []) :
    sinceReplay connection (packets ++ more) = sinceReplay connection packets ++ more := by
  unfold sinceReplay at h ⊢
  rw [List.dropWhile_append, if_neg (by simpa using h)]

theorem sinceReplay_first (h : sinceReplay connection packets = []) :
    sinceReplay connection (packets ++ more) = sinceReplay connection more := by
  unfold sinceReplay at h ⊢
  rw [List.dropWhile_append, if_pos (by simpa using h)]

theorem sinceReplay_replayed (h : ∀ packet ∈ more, startsReplay connection packet = true) :
    sinceReplay connection (packets ++ more) = sinceReplay connection packets ++ more := by
  by_cases hnone : sinceReplay connection packets = []
  · rw [sinceReplay_first hnone, hnone, List.nil_append]
    cases more with
    | nil => rfl
    | cons packet more => rw [sinceReplay, List.dropWhile_cons_of_neg (by simp [h packet List.mem_cons_self])]
  · exact sinceReplay_append hnone

theorem sinceReplay_eq_nil :
    sinceReplay connection packets = [] ↔ ∀ packet ∈ packets, startsReplay connection packet = false := by
  simp [sinceReplay]

end

namespace MQTTProxy

def seen (J : Codec) (s : MQTTProxy) (c : Nat) : Document := folded J (sinceReplay s.connections (s.conn c).queued)

noncomputable def due (s : MQTTProxy) (c : Nat) : Tree Text Value :=
  Tree.mapLeaves (readdressing (s.conn c).advertised) (core s.stateCache.state)

noncomputable def owed (J : Codec) (s : MQTTProxy) (c : Nat) (payload : List UInt8) : Tree Text Value :=
  Tree.mapLeaves (readdressing (s.conn c).advertised) (core (reading J payload))

def Merged (J : Codec) (s : MQTTProxy) (payload : List UInt8) : Prop :=
  Tree.overlay (core s.stateCache.state) (core (reading J payload)) = core s.stateCache.state

structure Abreast (J : Codec) (s : MQTTProxy) (payload : List UInt8) (targets : List (String × Nat)) (id : String) (c : Nat) :
    Prop where
  tidy : Tidy (seen J s c)
  core : core (seen J s c) = due s c ∨
    (id, c) ∈ targets ∧ Tree.overlay (Mqtt.core (seen J s c)) (owed J s c payload) = due s c

def Storable (J : Codec) (s : MQTTProxy) : Prop := s.stateCache.state ≠ [] → J.Writable (.dict s.stateCache.state)

def Told (J : Codec) (s : MQTTProxy) (payload : List UInt8) (targets : List (String × Nat)) : Prop :=
  ∀ id c, Dict.get s.clients id = some c → sinceReplay s.connections (s.conn c).queued ≠ [] → Abreast J s payload targets id c

def Dated (s : MQTTProxy) : Prop :=
  ∀ id c, Dict.get s.clients id = some c → ∀ packet ∈ (s.conn c).queued, packet.connection ≤ s.connections

structure Sound (J : Codec) (s : MQTTProxy) : Prop where
  registry : Registry s
  hungUp : HungUp s
  storable : Storable J s
  tidy : Tidy s.stateCache.state
  dated : Dated s

structure Sending (J : Codec) (s : MQTTProxy) (b : Broadcast) (targets : List (String × Nat)) : Prop where
  prepared : Prepared J b
  plain : PlainReport J b.payload
  accepted : ∀ p ∈ targets, p.2 < s.accepted
  named : ∀ p ∈ targets, (s.conn p.2).clientId = p.1
  merged : Merged J s b.payload
  told : Told J s b.payload targets

structure Reporting (J : Codec) (s : MQTTProxy) : Prop where
  sound : Sound J s
  listening : s.upstream = .listening → Told J s [] []
  broadcasting : ∀ b, s.upstream = .broadcasting b → Sending J s b b.targets

def SectionedReports (cfg : MqttSettings) (J : Codec) (_ : MQTTProxy) (a : Act) (_ : MQTTProxy) : Prop :=
  ∀ topic payload, a = .message topic payload → topic = cfg.reportTopic ∧ SectionedReport J payload

def PlainReports (cfg : MqttSettings) (J : Codec) (_ : MQTTProxy) (a : Act) (_ : MQTTProxy) : Prop :=
  ∀ topic payload, a = .message topic payload → topic = cfg.reportTopic ∧ PlainReport J payload

variable {cfg : MqttSettings} {J : Codec} {s s' : MQTTProxy}

theorem due_overlay {c : Nat} {payload : List UInt8} (h : Merged J s payload) :
    Tree.overlay (due s c) (owed J s c payload) = due s c := by
  rw [due, owed, ← Tree.mapLeaves_overlay, h]

theorem due_same {c : Nat} (hcache : s'.stateCache = s.stateCache)
    (hadvertised : (s'.conn c).advertised = (s.conn c).advertised) : due s' c = due s c := by
  rw [due, due, hcache, hadvertised]

theorem owed_same {c : Nat} {payload : List UInt8} (hadvertised : (s'.conn c).advertised = (s.conn c).advertised) :
    owed J s' c payload = owed J s c payload := by
  rw [owed, owed, hadvertised]

theorem seen_same {c : Nat} (hconnections : s'.connections = s.connections)
    (hqueued : (s'.conn c).queued = (s.conn c).queued) : seen J s' c = seen J s c := by
  rw [seen, seen, hconnections, hqueued]

theorem seen_append (s s' : MQTTProxy) {c : Nat} {more : List Publish} (hconnections : s'.connections = s.connections)
    (hsince : sinceReplay s.connections (s'.conn c).queued = sinceReplay s.connections (s.conn c).queued ++ more) :
    seen J s' c = more.foldl (fun d packet => deepMerge d (reading J packet.payload)) (seen J s c) := by
  rw [seen, hconnections, hsince, folded_append]
  rfl

theorem Abreast.same {payload : List UInt8} {targets targets' : List (String × Nat)} {id : String} {c : Nat}
    (h : Abreast J s payload targets id c) (hconnections : s'.connections = s.connections)
    (hcache : s'.stateCache = s.stateCache)
    (hqueued : (s'.conn c).queued = (s.conn c).queued) (hadvertised : (s'.conn c).advertised = (s.conn c).advertised)
    (htargets : (id, c) ∈ targets → (id, c) ∈ targets') : Abreast J s' payload targets' id c where
  tidy := by
    rw [seen_same hconnections hqueued]
    exact h.tidy
  core := by
    rw [seen_same hconnections hqueued, due_same hcache hadvertised, owed_same hadvertised]
    exact h.core.imp_right fun ⟨hmem, hoverlay⟩ => ⟨htargets hmem, hoverlay⟩

theorem Abreast.put {payload : List UInt8} {targets targets' : List (String × Nat)} {id : String} {c : Nat}
    {packet : Publish} (h : Abreast J s payload targets id c) (hsince : sinceReplay s.connections (s.conn c).queued ≠ [])
    (hrenders : Renders (s.conn c).advertised (reading J payload) (reading J packet.payload))
    (hmerged : Merged J s payload) :
    Abreast J (s.put c packet) payload targets' id c := by
  have hqueued : ((s.put c packet).conn c).queued = (s.conn c).queued ++ [packet] := by
    simp [MQTTProxy.put, setConn]
  have hadvertised : ((s.put c packet).conn c).advertised = (s.conn c).advertised :=
    setConn_same Client.advertised fun _ => rfl
  have hlater : sinceReplay s.connections ((s.put c packet).conn c).queued =
      sinceReplay s.connections (s.conn c).queued ++ [packet] := by
    rw [hqueued, sinceReplay_append hsince]
  have hseen : seen J (s.put c packet) c = deepMerge (seen J s c) (reading J packet.payload) :=
    seen_append s (s.put c packet) rfl hlater
  refine ⟨?_, .inl ?_⟩
  · rw [hseen]
    exact hrenders.tidy_deepMerge h.tidy
  · have hdue : due (s.put c packet) c = due s c := due_same rfl hadvertised
    rw [hseen, hrenders.core_deepMerge, hdue]
    rcases h.core with htold | ⟨_, hmissing⟩
    · rw [htold]
      exact due_overlay hmerged
    · exact hmissing

theorem Told.forgotten {payload : List UInt8} {targets : List (String × Nat)} {id : String} {c : Nat}
    (h : Told J s payload ((id, c) :: targets)) (hclients : s'.clients = Dict.pop s.clients id)
    (hconnections : s'.connections = s.connections) (hcache : s'.stateCache = s.stateCache)
    (hqueued : ∀ k, (s'.conn k).queued = (s.conn k).queued)
    (hadvertised : ∀ k, (s'.conn k).advertised = (s.conn k).advertised) :
    Told J s' payload targets := by
  intro id' k hget hsince
  rw [hclients] at hget
  rw [hconnections, hqueued] at hsince
  have hne : id' ≠ id := by
    rintro rfl
    exact nomatch Dict.get_pop_self.symm.trans hget
  have hbefore := h id' k ((Dict.get_pop_ne hne).symm.trans hget) hsince
  refine hbefore.same hconnections hcache (hqueued k) (hadvertised k) fun hmem => ?_
  exact (List.mem_cons.mp hmem).resolve_left fun he => hne (congrArg Prod.fst he)

theorem deliver_told {payload : List UInt8} {targets : List (String × Nat)} {id : String} {c : Nat} {packet : Publish}
    (hregistry : Registry s) (h : Told J s payload ((id, c) :: targets)) (hnamed : (s.conn c).clientId = id)
    (hrelayed : packet.origin = .relayed payload)
    (hrenders : Dict.get s.clients id = some c →
      Renders (s.conn c).advertised (reading J payload) (reading J packet.payload))
    (hmerged : Merged J s payload) :
    Told J (s.deliver id c packet).2 payload targets := by
  intro id' c' hget hsince
  rcases deliver_cases s id c packet with hd | ⟨_, hd⟩ | ⟨w, _, hd⟩
  · rw [hd] at hget hsince ⊢
    have hget : Dict.get s.clients id' = some c' := hget
    by_cases hc : c' = c
    · subst hc
      cases hnamed.symm.trans (hregistry.named id' c' hget)
      have hqueued : ((s.put c' packet).conn c').queued = (s.conn c').queued ++ [packet] := by
        simp [MQTTProxy.put, setConn]
      have hbefore : sinceReplay s.connections (s.conn c').queued ≠ [] := by
        intro hnone
        refine hsince ?_
        show sinceReplay s.connections ((s.put c' packet).conn c').queued = []
        rw [hqueued, sinceReplay_first hnone, sinceReplay_eq_nil]
        intro packet' hmem
        rw [List.mem_singleton.mp hmem]
        simp [startsReplay, isReplayed, hrelayed]
      exact (h _ c' hget hbefore).put hbefore (hrenders hget) hmerged
    · have hconn : (s.put c packet).conn c' = s.conn c' := Function.update_of_ne hc _ _
      have hbefore : sinceReplay s.connections (s.conn c').queued ≠ [] := by
        rw [← hconn]
        exact hsince
      refine (h id' c' hget hbefore).same rfl rfl (by rw [hconn]) (by rw [hconn]) fun hmem => ?_
      exact (List.mem_cons.mp hmem).resolve_left fun he => hc (congrArg Prod.snd he)
  · rw [hd] at hget hsince ⊢
    have hforgotten : Told J (s.forget id) payload targets := h.forgotten rfl rfl rfl (fun _ => rfl) fun _ => rfl
    exact hforgotten id' c' hget hsince
  · rw [hd] at hget hsince ⊢
    have hforgotten : Told J ((s.forget id).closeWriter w) payload targets :=
      h.forgotten rfl rfl rfl (fun _ => setConn_same (s := s.forget id) Client.queued fun _ => rfl)
        fun _ => setConn_same (s := s.forget id) Client.advertised fun _ => rfl
    exact hforgotten id' c' hget hsince

theorem Delivers.queued_same {P : Nat → Publish → Prop} {c : Nat} (h : Delivers P s s') (hP : ∀ packet, ¬ P c packet) :
    (s'.conn c).queued = (s.conn c).queued := by
  obtain ⟨more, _, hqueued, hmore⟩ := h.queues c
  cases more with
  | nil => rw [hqueued, List.append_nil]
  | cons packet more => exact absurd (hmore packet List.mem_cons_self) (hP packet)

theorem Abreast.settled {payload payload' : List UInt8} {targets : List (String × Nat)} {id : String} {c : Nat}
    (h : Abreast J s payload [] id c) : Abreast J s payload' targets id c where
  tidy := h.tidy
  core := .inl (h.core.resolve_right fun ⟨hmem, _⟩ => List.not_mem_nil hmem)

theorem Told.same {payload : List UInt8} {targets : List (String × Nat)} (h : Told J s payload targets)
    (hconnections : s'.connections = s.connections) (hcache : s'.stateCache = s.stateCache)
    (hregistered : ∀ id c, Dict.get s'.clients id = some c → (s'.conn c).queued = [] ∨ Dict.get s.clients id = some c ∧
      (s'.conn c).queued = (s.conn c).queued ∧ (s'.conn c).advertised = (s.conn c).advertised) :
    Told J s' payload targets := by
  intro id c hget hsince
  rcases hregistered id c hget with hnew | ⟨hold, hqueued, hadvertised⟩
  · rw [hnew] at hsince
    exact absurd rfl hsince
  · rw [hconnections, hqueued] at hsince
    exact (h id c hold hsince).same hconnections hcache hqueued hadvertised fun hmem => hmem

theorem Sound.delivers {P : Nat → Publish → Prop} (h : Sound J s) (hs : Delivers P s s') (hhung : HungUp s')
    (hP : ∀ c packet, P c packet → packet.connection ≤ s.connections) : Sound J s' where
  registry := h.registry.shrinks hs.shrinks
  hungUp := hhung
  storable := by
    rw [Storable, hs.stateCache]
    exact h.storable
  tidy := by
    rw [hs.stateCache]
    exact h.tidy
  dated id c hget packet hpacket := by
    obtain ⟨more, _, hqueued, hmore⟩ := hs.queues c
    rw [hqueued] at hpacket
    rw [hs.connections]
    rcases List.mem_append.mp hpacket with hpacket | hpacket
    · exact h.dated id c (hs.shrinks.registered hget) packet hpacket
    · exact hP c packet (hmore packet hpacket)

theorem Sound.deliver {c : Nat} {packet : Publish} (h : Sound J s) (id : String)
    (hdated : packet.connection ≤ s.connections) : Sound J (s.deliver id c packet).2 := by
  have hdelivers : Delivers (fun _ p => p = packet) s (s.deliver id c packet).2 := deliver_delivers id rfl
  refine h.delivers hdelivers (h.hungUp.shrinks hdelivers.shrinks fun t id' c' rest ht => ?_) ?_
  · rwa [deliver_replays] at ht
  · rintro _ _ rfl
    exact hdated

theorem Sound.same (h : Sound J s) (hconn : s'.conn = s.conn) (haccepted : s'.accepted = s.accepted)
    (hclients : s'.clients = s.clients) (hips : s'.clientIps = s.clientIps) (hwriters : s'.clientWriters = s.clientWriters)
    (hconnections : s.connections ≤ s'.connections) (hhung : HungUp s') (hstorable : Storable J s')
    (htidy : Tidy s'.stateCache.state) : Sound J s' where
  registry := h.registry.shrinks (.same haccepted (fun c => by rw [hconn]) (fun c => by rw [hconn]) hclients hips hwriters)
  hungUp := hhung
  storable := hstorable
  tidy := htidy
  dated id c hget packet hpacket := by
    rw [hclients] at hget
    rw [hconn] at hpacket
    exact (h.dated id c hget packet hpacket).trans hconnections

theorem Sending.renders {b : Broadcast} {id : String} {c : Nat} {targets : List (String × Nat)} (hJ : J.Lawful)
    (hregistry : Registry s) (hb : Sending J s b targets) (hget : Dict.get s.clients id = some c) {data : List UInt8}
    (hdata : personalData J s b id = some data) :
    Renders (s.conn c).advertised (reading J b.payload) (reading J data) := by
  have hshared : ∀ {address},
      Tree.mapLeaves (readdressing address) (core (reading J b.payload)) = core (reading J b.payload) →
      Renders address (reading J b.payload) (reading J b.payload) :=
    fun hsame => ⟨reading_keyed hJ b.payload, hb.plain.tidy hJ, hsame.symm⟩
  simp only [personalData, hregistry.addressed id c hget] at hdata
  cases hpersonal : b.personalised with
  | some state =>
      have hstate := hb.prepared.personal state hpersonal
      have hreading := reading_loads hstate
      simp only [hpersonal] at hdata
      split at hdata
      · next hempty =>
          cases hdata
          refine hshared ?_
          rw [hempty, readdressing_none encodeIpv4_empty]
      · split at hdata <;> cases hdata
        have hwell := wellFormed_rewriteReportedIp (s.conn c).advertised (hb.plain.writable state hstate)
        rw [reading_loads (hJ.loads_dumps hwell)]
        refine ⟨hwell.keyed, ?_, ?_⟩
        · exact (hreading ▸ hb.plain.tidy hJ).rewriteReportedIp _
        · rw [core_readdressing, hreading]
  | none =>
      simp only [hpersonal] at hdata
      cases hdata
      refine hshared (readdressing_unnetworked (fun part hpart => ?_) _)
      cases hnet : Dict.get part (text "net") with
      | none => rfl
      | some net =>
          have hreports := hb.plain.spelled part hpart (by rw [hnet]; rfl)
          rcases reading_cases J b.payload with ⟨d, hd, _⟩ | ⟨_, hnone⟩
          · exact absurd hd (hb.prepared.shared hpersonal hreports d)
          · rw [hnone] at hpart
            cases hpart

theorem Sending.deliver {b : Broadcast} {id : String} {c : Nat} {targets : List (String × Nat)} (hJ : J.Lawful)
    (hregistry : Registry s) (hb : Sending J s b ((id, c) :: targets)) {data : List UInt8}
    (hdata : personalData J s b id = some data) :
    Sending J (s.deliver id c ⟨b.topic, data, .relayed b.payload, s.connections⟩).2 b targets := by
  have hdelivers : Delivers (fun _ _ => True) s (s.deliver id c ⟨b.topic, data, .relayed b.payload, s.connections⟩).2 :=
    deliver_delivers id trivial
  refine ⟨hb.prepared, hb.plain, fun p hp => ?_, fun p hp => ?_, ?_, ?_⟩
  · rw [hdelivers.accepted]
    exact hb.accepted p (List.mem_cons_of_mem _ hp)
  · rw [hdelivers.clientId]
    exact hb.named p (List.mem_cons_of_mem _ hp)
  · rw [Merged, hdelivers.stateCache]
    exact hb.merged
  · exact deliver_told hregistry hb.told (hb.named _ List.mem_cons_self) rfl (fun hget => hb.renders hJ hregistry hget hdata)
      hb.merged

theorem relay_reporting (hJ : J.Lawful) {b : Broadcast} (targets : List (String × Nat)) (h : Sound J s)
    (hb : Sending J s b targets) : Reporting J (relay J b targets s) := by
  induction targets generalizing s with
  | nil =>
      refine ⟨h.same rfl rfl rfl rfl rfl le_rfl h.hungUp h.storable h.tidy, fun _ id c hget hsince => ?_, by rintro _ ⟨⟩⟩
      have hsame : Abreast J (relay J b [] s) b.payload [] id c :=
        (hb.told id c hget hsince).same rfl rfl rfl rfl fun hmem => hmem
      exact hsame.settled
  | cons target targets ih =>
      obtain ⟨id, c⟩ := target
      simp only [relay]
      split
      · exact ⟨h.same rfl rfl rfl rfl rfl le_rfl h.hungUp h.storable h.tidy, by rintro ⟨⟩, by rintro _ ⟨⟩⟩
      · next data hdata =>
          have hsound : Sound J (s.deliver id c ⟨b.topic, data, .relayed b.payload, s.connections⟩).2 := h.deliver id le_rfl
          have hsending := hb.deliver hJ h.registry hdata
          split
          · next s' hs' =>
              rw [hs'] at hsound hsending
              exact ih hsound hsending
          · next s' hs' =>
              rw [hs'] at hsound hsending
              refine ⟨hsound.same rfl rfl rfl rfl rfl le_rfl hsound.hungUp hsound.storable hsound.tidy, by rintro ⟨⟩, ?_⟩
              rintro _ ⟨⟩
              refine ⟨⟨hsending.prepared.personal, hsending.prepared.reports, hsending.prepared.shared⟩, hsending.plain,
                hsending.accepted, hsending.named, hsending.merged, ?_⟩
              exact hsending.told.same rfl rfl fun _ _ hget => .inr ⟨hget, rfl, rfl⟩

theorem replay_whole {t c : Nat} {id : String} (packets : List Publish)
    (hget : Dict.get (replay t id c packets s).clients id = some c) :
    ((replay t id c packets s).conn c).queued = (s.conn c).queued ++ packets := by
  induction packets generalizing s with
  | nil => exact (List.append_nil _).symm
  | cons packet packets ih =>
      simp only [MQTTProxy.replay] at hget ⊢
      rcases deliver_cases s id c packet with hd | ⟨_, hd⟩ | ⟨w, _, hd⟩
      · simp only [hd] at hget ⊢
        rw [ih hget]
        simp [MQTTProxy.put, setConn]
      · simp only [hd] at hget
        obtain ⟨hdelivers, _⟩ := replay_delivers (P := fun _ _ => True) (s := s.forget id) (t := t) (c := c) id packets
          fun _ _ => trivial
        cases Dict.get_pop_self.symm.trans (hdelivers.shrinks.registered hget)
      · simp only [hd] at hget
        cases Dict.get_pop_self.symm.trans hget

def replayedPacket (cfg : MqttSettings) (J : Codec) (s : MQTTProxy) (w : Text → Value → Value) (p : Text × Value) :
    Publish := snapshotPacket cfg J s [(p.1, PrinterStateCache.replayed p.2)] [(p.1, w p.1 p.2)]

theorem snapshotPackets_map (h : Sound J s) {address : String} {w : Text → Value → Value} {packets : List Publish}
    (hw : ∀ name v, (rewriteReportedIp [(name, PrinterStateCache.replayed v)] address).2 = [(name, w name v)])
    (hpackets : snapshotPackets cfg J s (some address) = .ok packets) :
    packets = s.stateCache.state.map (replayedPacket cfg J s w) := by
  rw [snapshotPackets_ok hpackets]
  refine List.filterMap_eq_map_iff_forall_eq_some.mpr fun p hp => ?_
  have hget := Dict.get_of_mem h.tidy.keys hp
  have hsame : (if address = "" then [(p.1, PrinterStateCache.replayed p.2)]
      else (rewriteReportedIp [(p.1, PrinterStateCache.replayed p.2)] address).2) = [(p.1, w p.1 p.2)] := by
    split
    · next hempty =>
        rw [← hw, hempty, rewriteReportedIp_unencoded encodeIpv4_empty]
    · exact hw p.1 p.2
  simp only [snapshotOf, snapshotState_part hget, Option.bind_some, Option.map_some, hsame]
  rfl

theorem snapshotPackets_renders (hJ : J.Lawful) (h : Sound J s) {address : String} {packets : List Publish}
    (hpackets : snapshotPackets cfg J s (some address) = .ok packets) :
    ∃ d, Renders address s.stateCache.state d ∧ (∀ packet ∈ packets, startsReplay s.connections packet = true) ∧
      ∀ base, packets.foldl (fun d packet => deepMerge d (reading J packet.payload)) base = deepMerge base d := by
  choose w hw hdict using fun name v => rewriteReportedIp_single name (PrinterStateCache.replayed v) address
  have hwell : ∀ p ∈ s.stateCache.state, J.Writable (.dict [(p.1, w p.1 p.2)]) := by
    intro p hp
    obtain ⟨n, hn, _, hgood, hvalues⟩ := WellFormed.dict_inv (h.storable (List.ne_nil_of_mem hp))
    have hpart : J.Writable (.dict [(p.1, PrinterStateCache.replayed p.2)]) := by
      rw [Codec.Writable, hn]
      refine .dict (by simp) (fun q hq => ?_) fun q hq => ?_
      · cases List.mem_singleton.mp hq
        exact hgood p hp
      · cases List.mem_singleton.mp hq
        exact wellFormed_replayed (hvalues p hp)
    rw [← hw]
    exact wellFormed_rewriteReportedIp address hpart
  have hkeys : ((s.stateCache.state.map fun p => (p.1, w p.1 p.2)).map Prod.fst).Nodup := by
    rw [List.map_map]
    exact h.tidy.keys
  rw [snapshotPackets_map h hw hpackets]
  refine ⟨s.stateCache.state.map fun p => (p.1, w p.1 p.2), ⟨.dict hkeys fun q hq => ?_, ⟨hkeys, fun q hq => ?_⟩,
    core_snapshot h.tidy hw⟩, fun packet hpacket => ?_, fun base => ?_⟩
  · obtain ⟨p, hp, rfl⟩ := List.mem_map.mp hq
    exact (hwell p hp).keyed.get (Dict.get_of_mem (hwell p hp).keyed.keys List.mem_cons_self)
  · obtain ⟨p, hp, rfl⟩ := List.mem_map.mp hq
    exact hdict _ _ (replayed_isDict (h.tidy.sectioned p hp))
  · obtain ⟨p, _, rfl⟩ := List.mem_map.mp hpacket
    simp [replayedPacket, snapshotPacket, startsReplay, isReplayed]
  · rw [← deepMerge_singles, List.foldl_map, List.foldl_map]
    refine List.foldl_ext _ _ _ fun merged p hp => ?_
    rw [replayedPacket, snapshotPacket, reading_loads (hJ.loads_dumps (hwell p hp))]

theorem Told.replay {t c : Nat} {id : String} {payload : List UInt8} {targets : List (String × Nat)} (hJ : J.Lawful)
    (hsound : Sound J s) (h : Told J s payload targets) (hc : Dict.get s.clients id = some c) {packets : List Publish}
    (hpackets : snapshotPackets cfg J s (some (s.conn c).advertised) = .ok packets) :
    Told J (replay t id c packets s) payload targets := by
  obtain ⟨d, hrenders, hstarts, hfold⟩ := snapshotPackets_renders hJ hsound hpackets
  obtain ⟨hdelivers, _⟩ := replay_delivers (P := fun k _ => k = c) (t := t) (c := c) id packets (s := s) fun _ _ => rfl
  intro id' c' hget hsince
  have hbefore := hdelivers.shrinks.registered hget
  by_cases hcc : c' = c
  · subst hcc
    cases (hsound.registry.named id' c' hbefore).symm.trans (hsound.registry.named id c' hc)
    have hlater : sinceReplay s.connections ((MQTTProxy.replay t id c' packets s).conn c').queued =
        sinceReplay s.connections (s.conn c').queued ++ packets := by
      rw [replay_whole packets hget, sinceReplay_replayed hstarts]
    have hseen : seen J (MQTTProxy.replay t id c' packets s) c' = deepMerge (seen J s c') d := by
      rw [seen_append s (MQTTProxy.replay t id c' packets s) hdelivers.connections hlater, hfold]
    have hdue : due (MQTTProxy.replay t id c' packets s) c' = due s c' :=
      due_same hdelivers.stateCache (hdelivers.advertised c')
    have hcore : core (seen J (MQTTProxy.replay t id c' packets s) c') = Tree.overlay (core (seen J s c')) (due s c') := by
      rw [hseen, hrenders.core_deepMerge]
      rfl
    by_cases hfirst : sinceReplay s.connections (s.conn c').queued = []
    · have hempty : seen J s c' = [] := by
        rw [seen, hfirst]
        rfl
      refine ⟨?_, .inl ?_⟩
      · rw [hseen, hempty]
        exact hrenders.tidy_deepMerge .nil
      · rw [hcore, hempty, core_nil, Tree.empty_overlay, hdue]
    · obtain ⟨htidy, htold⟩ := h id c' hbefore hfirst
      refine ⟨?_, .inl ?_⟩
      · rw [hseen]
        exact hrenders.tidy_deepMerge htidy
      · rw [hcore, hdue]
        rcases htold with htold | ⟨_, hmissing⟩
        · rw [htold, Tree.overlay_self]
        · rw [← hmissing, Tree.overlay_absorb]
  · have hqueued : ((MQTTProxy.replay t id c packets s).conn c').queued = (s.conn c').queued := by
      obtain ⟨more, _, hqueued, hmore⟩ := hdelivers.queues c'
      cases more with
      | nil => rw [hqueued, List.append_nil]
      | cons packet more => exact absurd (hmore packet List.mem_cons_self) hcc
    have hsame : sinceReplay s.connections (s.conn c').queued ≠ [] := by
      rw [← hqueued, ← hdelivers.connections]
      exact hsince
    exact (h id' c' hbefore hsame).same hdelivers.connections hdelivers.stateCache hqueued (hdelivers.advertised c')
      fun hmem => hmem

theorem takenIn_stored (cfg : MqttSettings) (hstorable : Storable J s) (htidy : Tidy s.stateCache.state) {payload : List UInt8}
    (hplain : PlainReport J payload) : Storable J (takenIn cfg J s cfg.reportTopic payload) ∧
      Tidy (takenIn cfg J s cfg.reportTopic payload).stateCache.state := by
  unfold Storable
  rcases takenIn_state cfg J s cfg.reportTopic payload with hsame | ⟨parsed, cut, hcacheable, hcut, hmerged⟩
  · rw [hsame]
    exact ⟨hstorable, htidy⟩
  · rw [hmerged]
    obtain ⟨hdelta, hsectioned⟩ := hplain.kept hcacheable hcut
    refine ⟨fun _ => ?_, htidy.deepMerge hsectioned⟩
    have hbase : J.Writable (.dict s.stateCache.state) := by
      by_cases hnil : s.stateCache.state = []
      · obtain ⟨n, hn, _⟩ := WellFormed.dict_inv hdelta
        rw [hnil, Codec.Writable, hn]
        exact .dict List.nodup_nil nofun nofun
      · exact hstorable hnil
    exact wellFormed_deepMerge hbase hdelta

theorem takenIn_merges (cfg : MqttSettings) (hJ : J.Lawful) (hempty : ∀ d, J.loads [] ≠ .ok (.dict d))
    {payload : List UInt8} (hplain : PlainReport J payload) (halive : (cacheReport J s payload).1 = true) :
    core (takenIn cfg J s cfg.reportTopic payload).stateCache.state =
      Tree.overlay (core s.stateCache.state) (core (reading J payload)) := by
  rw [takenIn, if_pos rfl]
  rcases cacheReport_cases J s payload with ⟨x, cache, hupdate, _⟩ | ⟨merged, cache, hupdate, alive, primed, hcached, _⟩
  · rw [cacheReport_raised hupdate] at halive
    cases halive
  · rw [hcached]
    rcases PrinterStateCache.update_cases J s.stateCache payload with
      ⟨parsed, hcacheable, _, _, hmerged⟩ | ⟨_, _, _, _, _, _, hfails⟩ | ⟨hnone, r, hsame, _⟩
    · cases hmerged.symm.trans hupdate
      have hreading := reading_loads hcacheable.loads
      have hdelta : Tidy parsed := hreading ▸ hplain.tidy hJ
      obtain ⟨hkept, hsectioned⟩ := hplain.kept hcacheable (.refl _)
      rw [hreading]
      exact (core_deepMerge hkept.keyed hsectioned).trans (by rw [core_kept hdelta])
    · cases hfails.symm.trans hupdate
    · cases hsame.symm.trans hupdate
      have hsilent : core (reading J payload) = Tree.empty := by
        rcases reading_cases J payload with ⟨d, hd, hreading⟩ | ⟨_, hreading⟩
        · have hcacheable : PrinterStateCache.Cacheable J payload d :=
            ⟨fun he => hempty d (he ▸ hd), hplain.fits, hd⟩
          rw [hreading, ← core_kept (hreading ▸ hplain.tidy hJ), hnone d hcacheable, core_nil]
        · rw [hreading, core_nil]
      rw [hsilent, Tree.overlay_empty]

theorem Reporting.message (hJ : J.Lawful) (hempty : ∀ d, J.loads [] ≠ .ok (.dict d)) (h : Reporting J s)
    (hup : s.upstream = .listening) {payload : List UInt8} (hplain : PlainReport J payload)
    (hhung : HungUp (handleMessage cfg J s cfg.reportTopic payload)) :
    Reporting J (handleMessage cfg J s cfg.reportTopic payload) := by
  obtain ⟨cache, primed, reports, htaken⟩ := takenIn_same cfg J s cfg.reportTopic payload
  obtain ⟨hstorable, htidy⟩ := takenIn_stored cfg h.sound.storable h.sound.tidy hplain
  have hsound : Sound J (takenIn cfg J s cfg.reportTopic payload) := by
    refine h.sound.same ?_ ?_ ?_ ?_ ?_ ?_ ?_ hstorable htidy
    · rw [htaken]
    · rw [htaken]
    · rw [htaken]
    · rw [htaken]
    · rw [htaken]
    · rw [htaken]
    · rw [htaken]
      exact h.sound.hungUp
  rcases handleMessage_cases cfg J s cfg.reportTopic payload with hm | ⟨personalised, hm, hprepared, halive⟩
  · rw [hm] at hhung ⊢
    exact ⟨hsound.same rfl rfl rfl rfl rfl le_rfl hhung hstorable htidy, nofun, nofun⟩
  · rw [hm]
    have hmerges := takenIn_merges cfg hJ hempty hplain (halive rfl)
    have hget : ∀ p ∈ (takenIn cfg J s cfg.reportTopic payload).clients,
        Dict.get (takenIn cfg J s cfg.reportTopic payload).clients p.1 = some p.2 :=
      fun p hp => Dict.get_of_mem hsound.registry.keys hp
    refine relay_reporting hJ _ hsound ⟨hprepared, hplain, fun p hp => ?_, fun p hp => ?_, ?_, fun id c hc hsince => ?_⟩
    · exact hsound.registry.accepted _ _ (hget p hp)
    · exact hsound.registry.named _ _ (hget p hp)
    · rw [Merged, hmerges, Tree.overlay_idem]
    · have hconn : (takenIn cfg J s cfg.reportTopic payload).conn = s.conn := by
        rw [htaken]
      have hconnections : (takenIn cfg J s cfg.reportTopic payload).connections = s.connections := by
        rw [htaken]
      have hclients : (takenIn cfg J s cfg.reportTopic payload).clients = s.clients := by
        rw [htaken]
      have hseen : seen J (takenIn cfg J s cfg.reportTopic payload) c = seen J s c := seen_same hconnections (by rw [hconn])
      have hbefore := h.listening hup id c (hclients ▸ hc) (by rwa [hconnections, hconn] at hsince)
      have htold := hbefore.core.resolve_right fun ⟨hmem, _⟩ => List.not_mem_nil hmem
      refine ⟨?_, .inr ⟨Dict.mem_of_get hc, ?_⟩⟩
      · rw [hseen]
        exact hbefore.tidy
      · rw [hseen, htold, due, due, owed, hconn, hmerges, Tree.mapLeaves_overlay]

structure Aside (s s' : MQTTProxy) : Prop where
  upstream : s'.upstream = s.upstream
  stateCache : s'.stateCache = s.stateCache
  connections : s'.connections = s.connections
  accepted : s.accepted ≤ s'.accepted
  clientId : ∀ c < s.accepted, (s'.conn c).clientId = (s.conn c).clientId
  registered : ∀ id c, Dict.get s'.clients id = some c → (s'.conn c).queued = [] ∨ Dict.get s.clients id = some c ∧
    (s'.conn c).queued = (s.conn c).queued ∧ (s'.conn c).advertised = (s.conn c).advertised

theorem Shrinks.aside (hs : Shrinks s s') (hupstream : s'.upstream = s.upstream) (hcache : s'.stateCache = s.stateCache)
    (hconnections : s'.connections = s.connections)
    (hqueued : ∀ id c, Dict.get s.clients id = some c → (s'.conn c).queued = (s.conn c).queued) : Aside s s' where
  upstream := hupstream
  stateCache := hcache
  connections := hconnections
  accepted := Nat.le_of_eq hs.accepted.symm
  clientId c _ := hs.clientId c
  registered id c hget := .inr ⟨hs.registered hget, hqueued id c (hs.registered hget), hs.advertised c⟩

theorem register_aside (cfg : MqttSettings) (id : String) (sockname : Option String) (hregistry : Registry s) :
    Aside s (register cfg s id sockname) := by
  unfold register
  split
  · exact (Shrinks.forget s id).aside rfl rfl rfl fun _ _ _ => rfl
  · next advertised _ =>
      have hold : ∀ {c x}, c < s.accepted → Function.update s.conn s.accepted x c = s.conn c :=
        fun hc => Function.update_of_ne (Nat.ne_of_lt hc) _ _
      refine ⟨rfl, rfl, rfl, Nat.le_succ _, fun c hc => ?_, fun id' c hget => ?_⟩
      · simp only [hold hc]
      · by_cases hid : id' = id
        · subst hid
          rw [Dict.get_set_self] at hget
          cases hget
          simp
        · rw [Dict.get_set_ne hid] at hget
          have hsame : ∀ {x}, Function.update s.conn s.accepted x c = s.conn c := hold (hregistry.accepted id' c hget)
          exact .inr ⟨hget, by simp only [hsame], by simp only [hsame]⟩

theorem Reporting.keeps (h : Reporting J s) (hsound : Sound J s') (hupstream : s'.upstream = s.upstream)
    (hcache : s'.stateCache = s.stateCache) (haccepted : s.accepted ≤ s'.accepted)
    (hclient : ∀ c < s.accepted, (s'.conn c).clientId = (s.conn c).clientId)
    (htold : ∀ payload targets, Told J s payload targets → Told J s' payload targets) : Reporting J s' := by
  refine ⟨hsound, fun hup => htold _ _ (h.listening (hupstream ▸ hup)), fun b hup => ?_⟩
  have hb := h.broadcasting b (hupstream ▸ hup)
  refine ⟨hb.prepared, hb.plain, fun p hp => (hb.accepted p hp).trans_le haccepted, fun p hp => ?_, ?_, htold _ _ hb.told⟩
  · exact (hclient p.2 (hb.accepted p hp)).trans (hb.named p hp)
  · rw [Merged, hcache]
    exact hb.merged

theorem Reporting.replayed {t c : Nat} {id : String} (hJ : J.Lawful) (h : Reporting J s)
    (hc : Dict.get s.clients id = some c) {packets : List Publish}
    (hpackets : snapshotPackets cfg J s (some (s.conn c).advertised) = .ok packets) (hhung : HungUp (replay t id c packets s)) :
    Reporting J (replay t id c packets s) := by
  obtain ⟨_, _, hstarts, _⟩ := snapshotPackets_renders hJ h.sound hpackets
  have hdated : ∀ packet ∈ packets, packet.connection ≤ s.connections := by
    intro packet hpacket
    have hstart := hstarts packet hpacket
    simp only [startsReplay, Bool.and_eq_true, decide_eq_true_eq] at hstart
    exact hstart.1.le
  obtain ⟨hdelivers, hup, _⟩ := replay_delivers (P := fun _ packet => packet.connection ≤ s.connections) (t := t) (c := c)
    id packets (s := s) hdated
  have hsound := h.sound.delivers hdelivers hhung fun _ _ hp => hp
  exact h.keeps hsound hup hdelivers.stateCache (Nat.le_of_eq hdelivers.accepted.symm)
    (fun c _ => hdelivers.clientId c) fun _ _ htold => htold.replay hJ h.sound hc hpackets

theorem Reporting.aside (h : Reporting J s) (hs : Aside s s') (hregistry : Registry s') (hhung : HungUp s') :
    Reporting J s' := by
  refine h.keeps ⟨hregistry, hhung, ?_, ?_, fun id c hget packet hpacket => ?_⟩ hs.upstream hs.stateCache hs.accepted
    hs.clientId fun _ _ htold => htold.same hs.connections hs.stateCache hs.registered
  · rw [Storable, hs.stateCache]
    exact h.sound.storable
  · rw [hs.stateCache]
    exact h.sound.tidy
  · rw [hs.connections]
    rcases hs.registered id c hget with hnew | ⟨hold, hqueued, _⟩
    · rw [hnew] at hpacket
      cases hpacket
    · rw [hqueued] at hpacket
      exact h.sound.dated id c hold packet hpacket

theorem Reporting.step {a : Act} (hJ : J.Lawful) (hempty : ∀ d, J.loads [] ≠ .ok (.dict d)) (h : Reporting J s)
    (hstep : step cfg J s a = some s') (hok : PlainReports cfg J s a s') : Reporting J s' := by
  have hregistry := h.sound.registry.step hstep
  have hhung := h.sound.hungUp.step h.sound.registry hstep
  have hshrinks : (∀ id sockname, a ≠ .register id sockname) → Shrinks s s' := step_shrinks hstep
  cases step_cases hstep with
  | connect _ =>
      have hsound : Sound J { s with upstream := .listening, connections := s.connections + 1, reports := [] } :=
        h.sound.same rfl rfl rfl rfl rfl (Nat.le_succ _) hhung h.sound.storable h.sound.tidy
      refine ⟨hsound, fun _ id c hget hsince => ?_, nofun⟩
      refine absurd (sinceReplay_eq_nil.mpr fun packet hpacket => ?_) hsince
      have hold := h.sound.dated id c hget packet hpacket
      simp [startsReplay, Nat.ne_of_lt (Nat.lt_succ_of_le hold)]
  | @message topic payload hup =>
      obtain ⟨rfl, hplain⟩ := hok topic payload rfl
      exact h.message hJ hempty hup hplain hhung
  | @hungUp b hup => exact relay_reporting hJ b.targets h.sound (h.broadcasting b hup)
  | fail _ => exact ⟨h.sound.same rfl rfl rfl rfl rfl le_rfl hhung h.sound.storable h.sound.tidy, nofun, nofun⟩
  | lose _ => exact ⟨h.sound.same rfl rfl rfl rfl rfl le_rfl hhung (fun hne => absurd rfl hne) .nil, nofun, nofun⟩
  | register => exact h.aside (register_aside cfg _ _ h.sound.registry) hregistry hhung
  | @replay t c id packets _ _ hc hpackets =>
      rw [h.sound.registry.addressed id c hc] at hpackets
      exact h.replayed hJ hc hpackets hhung
  | @replayHungUp t c id rest ht =>
      obtain ⟨hdelivers, hup, _⟩ := replay_delivers (P := fun k _ => k = c) (t := t) (c := c) id rest (s := s)
        fun _ _ => rfl
      have hqueued : ∀ id' c', Dict.get s.clients id' = some c' →
          ((MQTTProxy.replay t id c rest s).conn c').queued = (s.conn c').queued := by
        intro id' c' hget
        refine hdelivers.queued_same fun _ hcc => ?_
        exact (h.sound.hungUp t id c rest ht).2 id' (hcc ▸ hget)
      exact h.aside (hdelivers.shrinks.aside hup hdelivers.stateCache hdelivers.connections hqueued) hregistry hhung
  | @leave c _ =>
      refine h.aside ((hshrinks nofun).aside rfl rfl rfl fun _ k _ => ?_) hregistry hhung
      exact setConn_same (s := s.forget (s.conn c).clientId) Client.queued fun _ => rfl
  | send _ _ =>
      refine h.aside ((hshrinks nofun).aside rfl rfl rfl fun _ k _ => ?_) hregistry hhung
      exact setConn_same Client.queued fun _ => rfl
  | finish _ =>
      refine h.aside ((hshrinks nofun).aside rfl rfl rfl fun _ k _ => ?_) hregistry hhung
      exact setConn_same Client.queued fun _ => rfl
  | _ => exact h.aside ((hshrinks nofun).aside rfl rfl rfl fun _ _ _ => rfl) hregistry hhung

theorem Reporting.init (J : Codec) : Reporting J init where
  sound := ⟨.init, (fun _ _ _ _ h => nomatch h), (fun hne => absurd rfl hne), .nil, fun _ _ h => nomatch h⟩
  listening h := nomatch h
  broadcasting _ h := nomatch h

end MQTTProxy

open MQTTProxy

theorem late_subscribers {cfg : MqttSettings} {J : Codec} {s : MQTTProxy} {id : String} {c : Nat} (hJ : J.Lawful)
    (hempty : ∀ d, J.loads [] ≠ .ok (.dict d)) (hrun : (mqttProxy cfg J).Runs (PlainReports cfg J) .init s)
    (hlistening : s.upstream = .listening) (hc : Dict.get s.clients id = some c)
    (hreplayed : ∃ packet ∈ (s.conn c).queued, startsReplay s.connections packet = true) :
    (Value.dict (stripped (folded J (sinceReplay s.connections (s.conn c).queued)))).tree =
      (Value.dict (stripped (rewriteReportedIp s.stateCache.state (s.conn c).advertised).2)).tree := by
  have hreporting : Reporting J s := hrun.keeps (.init J) fun _ _ _ h hstep hok => h.step hJ hempty hstep hok
  have hsince : sinceReplay s.connections (s.conn c).queued ≠ [] := by
    obtain ⟨packet, hpacket, hstarts⟩ := hreplayed
    intro hnone
    rw [sinceReplay_eq_nil.mp hnone packet hpacket] at hstarts
    cases hstarts
  obtain ⟨htidy, htold⟩ := hreporting.listening hlistening id c hc hsince
  refine stripped_congr htidy (hreporting.sound.tidy.rewriteReportedIp _) ?_
  rw [core_readdressing]
  exact htold.resolve_right fun ⟨hmem, _⟩ => List.not_mem_nil hmem

def listens (s : MQTTProxy) : Bool :=
  match s.upstream with
  | .listening => true
  | _ => false

theorem listens_iff {s : MQTTProxy} : listens s = true ↔ s.upstream = .listening := by
  unfold listens
  split <;> simp_all

def isSectionedReport (J : Codec) (payload : List UInt8) : Bool :=
  decide (payload.length ≤ maxCacheablePayload) && (reading J payload).all (fun p => p.2.isDict) &&
    match getDict (reading J payload) (text "print") with
    | some part => !(Dict.get part (text "net")).isSome || payloadReportsIp payload
    | none => true

def isPlainReport (J : Codec) (payload : List UInt8) : Bool :=
  isSectionedReport J payload &&
    match J.loads payload with
    | .ok (.dict d) => decide (J.Writable (.dict d))
    | _ => true

theorem isSectionedReport_sectioned {J : Codec} {payload : List UInt8} (h : isSectionedReport J payload = true) :
    SectionedReport J payload := by
  simp only [isSectionedReport, Bool.and_eq_true, decide_eq_true_eq, List.all_eq_true] at h
  obtain ⟨⟨hfits, hsectioned⟩, hspelled⟩ := h
  refine ⟨hfits, hsectioned, fun part hpart hnet => ?_⟩
  rw [hpart] at hspelled
  simpa [hnet] using hspelled

theorem isPlainReport_plain {J : Codec} {payload : List UInt8} (h : isPlainReport J payload = true) :
    PlainReport J payload := by
  obtain ⟨hsectioned, hwritable⟩ := (Bool.and_eq_true _ _).mp h
  refine ⟨isSectionedReport_sectioned hsectioned, fun d hd => ?_⟩
  rw [hd] at hwritable
  exact of_decide_eq_true hwritable

def plainCheck (_ : MQTTProxy) (a : Act) (_ : MQTTProxy) : Bool :=
  match a with
  | .message topic payload => decide (topic = desk.reportTopic) && isPlainReport plain payload
  | _ => true

theorem plainCheck_plain (s : MQTTProxy) (a : Act) (s' : MQTTProxy) (h : plainCheck s a s' = true) :
    PlainReports desk plain s a s' := by
  rintro topic payload rfl
  simp only [plainCheck, Bool.and_eq_true, decide_eq_true_eq] at h
  exact ⟨h.1, isPlainReport_plain h.2⟩

def commandAck : List UInt8 := Utf8.encode "\x7b\"print\":\x7b\"command\":\"pushing\",\"result\":\"ok\"\x7d\x7d"

theorem late_subscribers_network : ∃ s, (mqttProxy desk plain).playWhile plainCheck .init
    (subscribes ++ [.message desk.reportTopic fullDump, .replay 0, .message desk.reportTopic networkReport,
      .message desk.reportTopic commandAck]) = some s ∧ (s.conn 0).queued.length = 4 ∧
      (Value.dict (stripped (folded plain (sinceReplay s.connections (s.conn 0).queued)))).tree =
        (Value.dict (stripped (rewriteReportedIp s.stateCache.state (s.conn 0).advertised).2)).tree := by
  have hend : ((mqttProxy desk plain).playWhile plainCheck .init
      (subscribes ++ [.message desk.reportTopic fullDump, .replay 0, .message desk.reportTopic networkReport,
        .message desk.reportTopic commandAck])).map (fun s => ((s.conn 0).queued.length, listens s,
          Dict.get s.clients "10.0.0.5:4711", (s.conn 0).queued.any (startsReplay s.connections))) =
      some (4, true, some 0, true) := by
    decide +kernel
  obtain ⟨s, hs, hlast⟩ := Option.map_eq_some_iff.mp hend
  simp only [Prod.mk.injEq] at hlast
  obtain ⟨hlength, hlistens, hc, hreplayed⟩ := hlast
  have hempty : ∀ d, plain.loads [] ≠ .ok (.dict d) := by
    have hnone : (plain.loads []).isOk = false := by decide +kernel
    intro d hd
    rw [hd] at hnone
    cases hnone
  exact ⟨s, hs, hlength, late_subscribers plain_lawful hempty (Machine.playWhile_runs plainCheck_plain hs)
    (listens_iff.mp hlistens) hc (List.any_eq_true.mp hreplayed)⟩

-- The halves of U+1F600, each in three bytes of its own.
def halvedReport : List UInt8 :=
  Utf8.encode "\x7b\"print\":\x7b\"msg\":0,\"name\":\"" ++ [0xED, 0xA0, 0xBD, 0xED, 0xB8, 0x80] ++ Utf8.encode "\"\x7d\x7d"

def sectionedCheck (_ : MQTTProxy) (a : Act) (_ : MQTTProxy) : Bool :=
  match a with
  | .message topic payload => decide (topic = desk.reportTopic) && isSectionedReport plain payload
  | _ => true

theorem sectionedCheck_sectioned (s : MQTTProxy) (a : Act) (s' : MQTTProxy) (h : sectionedCheck s a s' = true) :
    SectionedReports desk plain s a s' := by
  rintro topic payload rfl
  simp only [sectionedCheck, Bool.and_eq_true, decide_eq_true_eq] at h
  exact ⟨h.1, isSectionedReport_sectioned h.2⟩

def nameIn (tree : Tree Text Value) : Option Text :=
  match tree [text "print", text "name"] with
  | .leaf (.str s) => some s
  | _ => none

-- What is replayed has the code point whole, and the cache has its halves.
theorem halves_joined : ¬ ∀ s id c, (mqttProxy desk plain).Runs (SectionedReports desk plain) .init s →
    s.upstream = .listening → Dict.get s.clients id = some c →
    (∃ packet ∈ (s.conn c).queued, startsReplay s.connections packet = true) →
    (Value.dict (stripped (folded plain (sinceReplay s.connections (s.conn c).queued)))).tree =
      (Value.dict (stripped (rewriteReportedIp s.stateCache.state (s.conn c).advertised).2)).tree := by
  intro h
  have hend : ((mqttProxy desk plain).playWhile sectionedCheck .init
      (subscribes ++ [.message desk.reportTopic halvedReport, .replay 0])).map (fun s =>
        (listens s, Dict.get s.clients "10.0.0.5:4711", (s.conn 0).queued.any (startsReplay s.connections),
          decide (nameIn (Value.dict (stripped (folded plain (sinceReplay s.connections (s.conn 0).queued)))).tree =
            nameIn (Value.dict (stripped (rewriteReportedIp s.stateCache.state (s.conn 0).advertised).2)).tree))) =
      some (true, some 0, true, false) := by
    decide +kernel
  obtain ⟨s, hs, hlast⟩ := Option.map_eq_some_iff.mp hend
  simp only [Prod.mk.injEq, decide_eq_false_iff_not] at hlast
  obtain ⟨hlistens, hc, hreplayed, hdiffer⟩ := hlast
  exact hdiffer (congrArg nameIn (h s _ 0 (Machine.playWhile_runs sectionedCheck_sectioned hs) (listens_iff.mp hlistens) hc
    (List.any_eq_true.mp hreplayed)))

end PandaProxy.Mqtt
