import Mathlib.Data.List.Forall2
import PandaProxy.Mqtt.Priming

namespace PandaProxy.Mqtt

open Async Json Python

-- An entry of `print.net.info` and what a client is told instead.
inductive EntryReaddressed (encoded : Int) : Value → Value → Prop where
  | readdressed {entry entry' : Document} {ip : Value} (hip : (Dict.get entry (text "ip")).isSome = true)
      (hnew : Dict.get entry' (text "ip") = some ip) (heq : ip.eqInt encoded = true)
      (hothers : ∀ key ≠ text "ip", Dict.get entry' key = Dict.get entry key) :
      EntryReaddressed encoded (.dict entry) (.dict entry')
  | untouched {v : Value} (hv : ∀ entry, v = .dict entry → Dict.get entry (text "ip") = none) :
      EntryReaddressed encoded v v

-- Every `print.net.info[*].ip` equals `encoded`, and nothing else has changed.
structure Readdressed (encoded : Int) (v w : Document) : Prop where
  elsewhere : ∀ path ≠ infoPath, (Value.dict w).tree path = (Value.dict v).tree path
  entries : ∀ entries, (Value.dict v).tree infoPath = .leaf (.list entries) →
    ∃ entries', (Value.dict w).tree infoPath = .leaf (.list entries') ∧ entries.Forall₂ (EntryReaddressed encoded) entries'
  otherwise : (∀ entries, (Value.dict v).tree infoPath ≠ .leaf (.list entries)) →
    (Value.dict w).tree infoPath = (Value.dict v).tree infoPath

def Exposes (v : Document) (encoded : Int) : Prop :=
  ∃ entries entry ip, (Value.dict v).tree infoPath = .leaf (.list entries) ∧ .dict entry ∈ entries ∧
    Dict.get entry (text "ip") = some ip ∧ ip.eqInt encoded = false

section

variable {encoded : Int} {v w : Document}

theorem rewriteEntry_readdressed (encoded : Int) (entry : Value) : EntryReaddressed encoded entry (rewriteEntry encoded entry).2 := by
  cases entry with
  | dict entry =>
      unfold rewriteEntry
      dsimp only
      split
      · next ip hip =>
          split
          · next heq => exact .readdressed (by rw [hip]; rfl) hip heq fun _ _ => rfl
          · exact .readdressed (by rw [hip]; rfl) Dict.get_set_self (by simp [Value.eqInt])
              fun key hkey => Dict.get_set_ne hkey
      · next hnone =>
          refine .untouched fun entry' he => ?_
          cases he
          exact hnone
  | _ => exact .untouched nofun

theorem rewriteReportedIp_readdressed {address : String} (h : encodeIpv4 address = some encoded) :
    Readdressed encoded v (rewriteReportedIp v address).2 := by
  have htree := tree_rewriteReportedIp v h
  refine ⟨fun path hpath => ?_, fun entries hentries => ?_, fun hother => ?_⟩
  · rw [htree, mapLeaves_readdressed_ne hpath]
  · refine ⟨entries.map fun entry => (rewriteEntry encoded entry).2, ?_, ?_⟩
    · rw [htree, Tree.mapLeaves_leaf hentries, readdressed, if_pos rfl]
      rfl
    · exact List.forall₂_map_right_iff.mpr (List.forall₂_same.mpr fun entry _ => rewriteEntry_readdressed encoded entry)
  · rw [htree, mapLeaves_readdressed_id hother]

theorem readdressed_of_not_exposes (h : ¬ Exposes v encoded) : Readdressed encoded v v := by
  refine ⟨fun _ _ => rfl, fun entries hentries => ⟨entries, hentries, ?_⟩, fun _ => rfl⟩
  refine List.forall₂_same.mpr fun entry hentry => ?_
  cases entry with
  | dict entry =>
      cases hip : Dict.get entry (text "ip") with
      | none =>
          refine .untouched fun entry' he => ?_
          cases he
          exact hip
      | some ip =>
          cases heq : ip.eqInt encoded with
          | true => exact .readdressed (by rw [hip]; rfl) hip heq fun _ _ => rfl
          | false => exact absurd ⟨entries, entry, ip, hentries, hentry, hip, heq⟩ h
  | _ => exact .untouched nofun

theorem Readdressed.not_exposes (h : Readdressed encoded v w) : ¬ Exposes w encoded := by
  rintro ⟨entries', entry', ip, hentries', hentry', hip, heq⟩
  by_cases hlist : ∃ entries, (Value.dict v).tree infoPath = .leaf (.list entries)
  · obtain ⟨entries, hentries⟩ := hlist
    obtain ⟨entries'', hentries'', hall⟩ := h.entries entries hentries
    cases hentries'.symm.trans hentries''
    obtain ⟨i, hi, hget⟩ := List.getElem_of_mem hentry'
    have hi' : i < entries.length := by
      rw [hall.length_eq]
      exact hi
    have hrelated := List.Forall₂.get hall hi' hi
    rw [List.get_eq_getElem, List.get_eq_getElem, hget] at hrelated
    generalize entries[i] = old at hrelated
    cases hrelated with
    | readdressed _ hnew hequal _ =>
        cases hip.symm.trans hnew
        rw [heq] at hequal
        cases hequal
    | untouched hv =>
        rw [hv _ rfl] at hip
        cases hip
  · have hsame := h.otherwise fun entries hentries => hlist ⟨entries, hentries⟩
    exact hlist ⟨entries', hsame ▸ hentries'⟩

end

-- What a packet for a client at the address that `encoded` stands for has to say.
def Masked (J : Codec) (encoded : Int) (packet : Publish) : Prop :=
  match packet.origin with
  | .relayed payload =>
      (∀ v, J.loads payload = .ok (.dict v) → ∃ w, J.loads packet.payload = .ok (.dict w) ∧ Readdressed encoded v w) ∧
        ((∀ v, J.loads payload ≠ .ok (.dict v)) → packet.payload = payload)
  | .replayed part => ∃ w, J.loads packet.payload = .ok (.dict w) ∧ Readdressed encoded part w

-- The bytes that name the network are in the report wherever its document names another address.
def Spelled (J : Codec) (payload : List UInt8) (encoded : Int) : Prop :=
  ∀ v, J.loads payload = .ok (.dict v) → Exposes v encoded → payloadReportsIp payload = true

namespace MQTTProxy

def MaskedFor (J : Codec) (s : MQTTProxy) (c : Nat) (packet : Publish) : Prop :=
  ∀ encoded, encodeIpv4 (s.conn c).advertised = some encoded → Masked J encoded packet

structure Live (s : MQTTProxy) (c : Nat) : Prop where
  serving : (s.conn c).stage = .serving
  unclosed : (s.conn c).closed = false

-- What the steps of a run must not do: a report spells the network in another way, what a client is
-- to be told in its stead does not read back, or a client registers under the name of a connection
-- that is not over.
structure Discreet (cfg : MqttSettings) (J : Codec) (s : MQTTProxy) (a : Act) : Prop where
  spelled : ∀ topic payload, a = .message topic payload → ∀ id c, Dict.get s.clients id = some c →
    ∀ encoded, encodeIpv4 (s.conn c).advertised = some encoded → Spelled J payload encoded
  relayed : ∀ topic payload, a = .message topic payload → payloadReportsIp payload = true →
    ∀ v, J.loads payload = .ok (.dict v) → ∀ id c, Dict.get s.clients id = some c →
      J.Writable (.dict (rewriteReportedIp v (s.conn c).advertised).2)
  replayed : ∀ t id c, a = .replay t → s.replays t = .waiting id → Dict.get s.clients id = some c →
    ∀ name part, s.stateCache.snapshotState (some (s.conn c).advertised) (some name) = some part → J.Writable (.dict part)
  named : ∀ id sockname, a = .register id sockname → ∀ c, (s.conn c).stage ≠ .over → (s.conn c).clientId ≠ id

structure Guarded (J : Codec) (s : MQTTProxy) : Prop where
  registry : Registry s
  addressed : Addressed s
  live : ∀ c, Live s c → Dict.get s.clients (s.conn c).clientId = some c
  queue : ∀ c, Live s c → ∀ packet ∈ (s.conn c).queue, MaskedFor J s c packet
  written : ∀ c, ∀ packet ∈ (s.conn c).written, MaskedFor J s c packet

variable {cfg : MqttSettings} {J : Codec} {s s' : MQTTProxy}

theorem Delivers.live_before {P : Nat → Publish → Prop} {c : Nat} (hs : Delivers P s s') (h : Live s' c) : Live s c where
  serving := (hs.stage c).symm.trans h.serving
  unclosed := by
    cases hclosed : (s.conn c).closed with
    | false => rfl
    | true => exact absurd (hs.stays c hclosed) (by simp [h.unclosed])

theorem Guarded.delivers {P : Nat → Publish → Prop} (h : Guarded J s) (hs : Delivers P s s')
    (hP : ∀ c packet, Live s c → P c packet → MaskedFor J s c packet) : Guarded J s' := by
  have hmasked : ∀ {c packet}, MaskedFor J s c packet → MaskedFor J s' c packet := by
    intro c packet hp encoded henc
    rw [hs.advertised] at henc
    exact hp encoded henc
  refine ⟨h.registry.shrinks hs.shrinks, fun c hc => ?_, fun c hc => ?_, fun c hc packet hp => ?_, fun c packet hp => ?_⟩
  · rw [hs.advertised]
    exact h.addressed c (hs.accepted ▸ hc)
  · have hregistered := h.live c (hs.live_before hc)
    rw [hs.clientId]
    rcases hs.registry (s.conn c).clientId with ⟨hclients, _⟩ | ⟨_, hclosed⟩
    · exact hclients.trans hregistered
    · exact absurd (hclosed c (h.registry.writable _ c hregistered)) (by simp [hc.unclosed])
  · obtain ⟨more, hqueue, _, hmore⟩ := hs.queues c
    rw [hqueue] at hp
    have hbefore := hs.live_before hc
    rcases List.mem_append.mp hp with hp | hp
    · exact hmasked (h.queue c hbefore packet hp)
    · exact hmasked (hP c packet hbefore (hmore packet hp))
  · rw [hs.written] at hp
    exact hmasked (h.written c packet hp)

theorem Guarded.deliver {c : Nat} {packet : Publish} (h : Guarded J s) (id : String)
    (hpacket : Live s c → MaskedFor J s c packet) : Guarded J (s.deliver id c packet).2 := by
  refine h.delivers (deliver_delivers (P := fun k p => k = c ∧ p = packet) id ⟨rfl, rfl⟩) ?_
  rintro _ _ hlive ⟨rfl, rfl⟩
  exact hpacket hlive

structure Sendable (J : Codec) (s : MQTTProxy) (b : Broadcast) (targets : List (String × Nat)) : Prop where
  prepared : Prepared J b
  accepted : ∀ p ∈ targets, p.2 < s.accepted
  named : ∀ p ∈ targets, (s.conn p.2).clientId = p.1
  spelled : ∀ p ∈ targets, ∀ encoded, encodeIpv4 (s.conn p.2).advertised = some encoded → Spelled J b.payload encoded
  writable : ∀ p ∈ targets, ∀ v, b.personalised = some v → J.Writable (.dict (rewriteReportedIp v (s.conn p.2).advertised).2)

theorem Sendable.delivers {P : Nat → Publish → Prop} {b : Broadcast} {targets : List (String × Nat)}
    (h : Sendable J s b targets) (hs : Delivers P s s') : Sendable J s' b targets where
  prepared := h.prepared
  accepted p hp := hs.accepted ▸ h.accepted p hp
  named p hp := (hs.clientId p.2).trans (h.named p hp)
  spelled p hp encoded henc := h.spelled p hp encoded (hs.advertised p.2 ▸ henc)
  writable p hp v hv := by
    rw [hs.advertised]
    exact h.writable p hp v hv

theorem Sendable.tail {b : Broadcast} {target : String × Nat} {targets : List (String × Nat)}
    (h : Sendable J s b (target :: targets)) : Sendable J s b targets where
  prepared := h.prepared
  accepted p hp := h.accepted p (List.mem_cons_of_mem _ hp)
  named p hp := h.named p (List.mem_cons_of_mem _ hp)
  spelled p hp := h.spelled p (List.mem_cons_of_mem _ hp)
  writable p hp := h.writable p (List.mem_cons_of_mem _ hp)

theorem Sendable.masked {b : Broadcast} {id : String} {c : Nat} {targets : List (String × Nat)} (hJ : J.Lawful)
    (h : Guarded J s) (hb : Sendable J s b ((id, c) :: targets)) (hlive : Live s c) {data : List UInt8}
    (hdata : personalData J s b id = some data) :
    MaskedFor J s c ⟨b.topic, data, .relayed b.payload, s.connections⟩ := by
  intro encoded henc
  have hid : (s.conn c).clientId = id := hb.named _ List.mem_cons_self
  have hlocal := h.registry.addressed _ c (h.live c hlive)
  rw [hid] at hlocal
  have hne := isIpv4_ne_empty (h.addressed c (h.registry.accepted _ c (h.live c hlive)))
  simp only [personalData, hlocal] at hdata
  cases hpersonal : b.personalised with
  | some state =>
      have hstate := hb.prepared.personal state hpersonal
      simp only [hpersonal, hne, if_false] at hdata
      split at hdata <;> cases hdata
      refine ⟨fun v hv => ?_, fun hnone => absurd hstate (hnone state)⟩
      cases hv.symm.trans hstate
      exact ⟨_, hJ.loads_dumps (hb.writable _ List.mem_cons_self state hpersonal), rewriteReportedIp_readdressed henc⟩
  | none =>
      simp only [hpersonal] at hdata
      cases hdata
      refine ⟨fun v hv => ⟨v, hv, readdressed_of_not_exposes fun hexposes => ?_⟩, fun _ => rfl⟩
      exact hb.prepared.shared hpersonal (hb.spelled _ List.mem_cons_self encoded henc v hv hexposes) v hv

def BroadcastSendable (J : Codec) (s : MQTTProxy) : Prop := ∀ b, s.upstream = .broadcasting b → Sendable J s b b.targets

theorem Guarded.same (h : Guarded J s) (hconn : s'.conn = s.conn) (haccepted : s'.accepted = s.accepted)
    (hclients : s'.clients = s.clients) (hips : s'.clientIps = s.clientIps) (hwriters : s'.clientWriters = s.clientWriters) :
    Guarded J s' := by
  have hshrinks : Shrinks s s' :=
    .same haccepted (fun c => by rw [hconn]) (fun c => by rw [hconn]) hclients hips hwriters
  refine ⟨h.registry.shrinks hshrinks, fun c hc => ?_, fun c hc => ?_, fun c hc packet hp => ?_, fun c packet hp => ?_⟩
  · rw [hconn]
    exact h.addressed c (haccepted ▸ hc)
  · rw [hconn, hclients]
    exact h.live c ⟨hconn ▸ hc.serving, hconn ▸ hc.unclosed⟩
  · rw [hconn] at hp
    rw [MaskedFor, hconn]
    exact h.queue c ⟨hconn ▸ hc.serving, hconn ▸ hc.unclosed⟩ packet hp
  · rw [hconn] at hp
    rw [MaskedFor, hconn]
    exact h.written c packet hp

theorem relay_guarded (hJ : J.Lawful) {b : Broadcast} (targets : List (String × Nat)) (h : Guarded J s)
    (hb : Sendable J s b targets) : Guarded J (relay J b targets s) ∧ BroadcastSendable J (relay J b targets s) := by
  induction targets generalizing s with
  | nil => exact ⟨h.same rfl rfl rfl rfl rfl, by rintro _ ⟨⟩⟩
  | cons target targets ih =>
      obtain ⟨id, c⟩ := target
      simp only [relay]
      split
      · exact ⟨h.same rfl rfl rfl rfl rfl, by rintro _ ⟨⟩⟩
      · next data hdata =>
          have hguarded := h.deliver id fun hlive => hb.masked hJ h hlive hdata
          have hdelivers : Delivers (fun _ _ => True) s
              (s.deliver id c ⟨b.topic, data, .relayed b.payload, s.connections⟩).2 :=
            deliver_delivers id trivial
          have hsendable := hb.tail.delivers hdelivers
          split
          · next s' hs' =>
              rw [hs'] at hguarded hsendable
              exact ih hguarded hsendable
          · next s' hs' =>
              rw [hs'] at hguarded hsendable
              refine ⟨hguarded.same rfl rfl rfl rfl rfl, ?_⟩
              rintro _ ⟨⟩
              exact ⟨⟨hsendable.prepared.personal, hsendable.prepared.reports, hsendable.prepared.shared⟩, hsendable.accepted,
                hsendable.named, hsendable.spelled, hsendable.writable⟩

theorem replay_guarded {t c : Nat} {id : String} (packets : List Publish) (h : Guarded J s)
    (hpackets : Live s c → ∀ packet ∈ packets, MaskedFor J s c packet) : Guarded J (replay t id c packets s) := by
  obtain ⟨hdelivers, _⟩ := replay_delivers (P := fun k packet => k = c ∧ packet ∈ packets) (t := t) (c := c) id
    packets (s := s) fun packet hp => ⟨rfl, hp⟩
  refine h.delivers hdelivers ?_
  rintro _ packet hlive ⟨rfl, hp⟩
  exact hpackets hlive packet hp

theorem snapshotState_part {cache : PrinterStateCache} {name : Text} {v : Value} (h : Dict.get cache.state name = some v)
    (advertised : Option String) : cache.snapshotState advertised (some name) =
      some (match advertised with
        | some address => if address = "" then [(name, PrinterStateCache.replayed v)]
            else (rewriteReportedIp [(name, PrinterStateCache.replayed v)] address).2
        | none => [(name, PrinterStateCache.replayed v)]) := by
  have hne : cache.state.isEmpty = false := by
    cases hstate : cache.state with
    | nil =>
        rw [hstate] at h
        cases h
    | cons p state => rfl
  simp only [PrinterStateCache.snapshotState, hne, h, Bool.false_eq_true, if_false]
  cases advertised <;> rfl

theorem snapshotState_some {cache : PrinterStateCache} {name : Text} {advertised : Option String} {part : Document}
    (h : cache.snapshotState advertised (some name) = some part) : ∃ v, Dict.get cache.state name = some v := by
  unfold PrinterStateCache.snapshotState at h
  split at h
  · cases h
  · cases hget : Dict.get cache.state name with
    | none =>
        simp only [hget, Option.map_none, bind, Option.bind_none] at h
        cases h
    | some v => exact ⟨v, rfl⟩

theorem snapshotPackets_masked (hJ : J.Lawful) {c : Nat} {address : String} {packets : List Publish}
    (haddress : (s.conn c).advertised = address) (hne : address ≠ "")
    (hwritable : ∀ name part, s.stateCache.snapshotState (some address) (some name) = some part → J.Writable (.dict part))
    (hpackets : snapshotPackets cfg J s (some address) = .ok packets) : ∀ packet ∈ packets, MaskedFor J s c packet := by
  intro packet hpacket encoded henc
  rw [haddress] at henc
  rw [snapshotPackets_ok hpackets] at hpacket
  obtain ⟨⟨name, _⟩, _, hpacket⟩ := List.mem_filterMap.mp hpacket
  obtain ⟨part, hpart, hpacket⟩ := Option.bind_eq_some_iff.mp hpacket
  obtain ⟨state, hstate, rfl⟩ := Option.map_eq_some_iff.mp hpacket
  obtain ⟨v, hget⟩ := snapshotState_some hpart
  have hwell := hwritable name state hstate
  rw [snapshotState_part hget] at hpart hstate
  cases hpart
  simp only [hne, if_false, Option.some.injEq] at hstate
  subst hstate
  exact ⟨_, hJ.loads_dumps hwell, rewriteReportedIp_readdressed henc⟩

structure Discretion (J : Codec) (s : MQTTProxy) : Prop where
  guarded : Guarded J s
  broadcasting : BroadcastSendable J s
  hungUp : HungUp s
  names : ∀ c c', (s.conn c).stage ≠ .over → (s.conn c').stage ≠ .over → (s.conn c).clientId = (s.conn c').clientId → c = c'

theorem Discretion.delivers {P : Nat → Publish → Prop} (h : Discretion J s) (hs : Delivers P s s')
    (hguarded : Guarded J s') (hbroadcasting : BroadcastSendable J s') (hhung : HungUp s') : Discretion J s' where
  guarded := hguarded
  broadcasting := hbroadcasting
  hungUp := hhung
  names c c' hc hc' hid := by
    rw [hs.stage] at hc hc'
    rw [hs.clientId, hs.clientId] at hid
    exact h.names c c' hc hc' hid

theorem Discretion.same (h : Discretion J s) (hconn : s'.conn = s.conn) (haccepted : s'.accepted = s.accepted)
    (hclients : s'.clients = s.clients) (hips : s'.clientIps = s.clientIps) (hwriters : s'.clientWriters = s.clientWriters)
    (hbroadcasting : BroadcastSendable J s') (hhung : HungUp s') : Discretion J s' where
  guarded := h.guarded.same hconn haccepted hclients hips hwriters
  broadcasting := hbroadcasting
  hungUp := hhung
  names c c' hc hc' hid := by
    rw [hconn] at hc hc' hid
    exact h.names c c' hc hc' hid

theorem BroadcastSendable.keeps (h : BroadcastSendable J s) (hupstream : s'.upstream = s.upstream)
    (haccepted : s.accepted ≤ s'.accepted)
    (hsame : ∀ c < s.accepted, (s'.conn c).clientId = (s.conn c).clientId ∧ (s'.conn c).advertised = (s.conn c).advertised) :
    BroadcastSendable J s' := by
  intro b hb
  rw [hupstream] at hb
  have hb' := h b hb
  refine ⟨hb'.prepared, fun p hp => (hb'.accepted p hp).trans_le haccepted, fun p hp => ?_, fun p hp encoded henc => ?_,
    fun p hp v hv => ?_⟩
  · exact (hsame p.2 (hb'.accepted p hp)).1.trans (hb'.named p hp)
  · rw [(hsame p.2 (hb'.accepted p hp)).2] at henc
    exact hb'.spelled p hp encoded henc
  · rw [(hsame p.2 (hb'.accepted p hp)).2]
    exact hb'.writable p hp v hv

theorem BroadcastSendable.same (h : BroadcastSendable J s) (hupstream : s'.upstream = s.upstream)
    (haccepted : s'.accepted = s.accepted) (hconn : s'.conn = s.conn) : BroadcastSendable J s' :=
  h.keeps hupstream (Nat.le_of_eq haccepted.symm) fun c _ => by rw [hconn]; exact ⟨rfl, rfl⟩

theorem Discretion.message (hJ : J.Lawful) (h : Discretion J s) {topic : String} {payload : List UInt8}
    (hhung : HungUp (handleMessage cfg J s topic payload)) (hok : Discreet cfg J s (.message topic payload)) :
    Discretion J (handleMessage cfg J s topic payload) := by
  obtain ⟨cache, primed, reports, htaken⟩ := takenIn_same cfg J s topic payload
  rcases handleMessage_cases cfg J s topic payload with hm | ⟨personalised, hm, hprepared, _⟩
  · rw [hm] at hhung ⊢
    exact h.same (by rw [htaken]) (by rw [htaken]) (by rw [htaken]) (by rw [htaken]) (by rw [htaken]) nofun hhung
  · rw [hm] at hhung ⊢
    have hguarded : Guarded J (takenIn cfg J s topic payload) :=
      h.guarded.same (by rw [htaken]) (by rw [htaken]) (by rw [htaken]) (by rw [htaken]) (by rw [htaken])
    have hclients : (takenIn cfg J s topic payload).clients = s.clients := by
      rw [htaken]
    have hconn : (takenIn cfg J s topic payload).conn = s.conn := by
      rw [htaken]
    have hget : ∀ p ∈ s.clients, Dict.get s.clients p.1 = some p.2 :=
      fun p hp => Dict.get_of_mem h.guarded.registry.keys hp
    have hsendable : Sendable J (takenIn cfg J s topic payload) ⟨topic, payload, personalised, []⟩
        (takenIn cfg J s topic payload).clients := by
      rw [hclients]
      refine ⟨hprepared, fun p hp => ?_, fun p hp => ?_, fun p hp => ?_, fun p hp v hv => ?_⟩
      · rw [htaken]
        exact h.guarded.registry.accepted _ _ (hget p hp)
      · rw [hconn]
        exact h.guarded.registry.named _ _ (hget p hp)
      · rw [hconn]
        exact hok.spelled _ _ rfl _ _ (hget p hp)
      · rw [hconn]
        exact hok.relayed _ _ rfl (hprepared.reports v hv) v (hprepared.personal v hv) _ _ (hget p hp)
    obtain ⟨hguarded', hbroadcasting⟩ := relay_guarded hJ _ hguarded hsendable
    obtain ⟨hdelivers, _⟩ := relay_delivers (J := J) (b := ⟨topic, payload, personalised, []⟩) (P := fun _ _ => True)
      (takenIn cfg J s topic payload).clients (s := takenIn cfg J s topic payload) fun _ _ _ => trivial
    refine ⟨hguarded', hbroadcasting, hhung, fun c c' hc hc' hid => ?_⟩
    rw [hdelivers.stage, hconn] at hc hc'
    rw [hdelivers.clientId, hdelivers.clientId, hconn] at hid
    exact h.names c c' hc hc' hid

theorem Guarded.forget {id : String} (h : Guarded J s) (hid : ∀ c, Live s c → (s.conn c).clientId ≠ id) :
    Guarded J (s.forget id) where
  registry := h.registry.shrinks (.forget s id)
  addressed := h.addressed
  live c hc := (Dict.get_pop_ne (hid c ⟨hc.serving, hc.unclosed⟩)).trans (h.live c ⟨hc.serving, hc.unclosed⟩)
  queue c hc := h.queue c ⟨hc.serving, hc.unclosed⟩
  written := h.written

theorem Discretion.register (hcfg : cfg.Lawful) (h : Discretion J s) {id : String} {sockname : Option String}
    (hnamed : ∀ c, (s.conn c).stage ≠ .over → (s.conn c).clientId ≠ id) : Discretion J (register cfg s id sockname) := by
  have hregistry := h.guarded.registry.register cfg id sockname
  have haddressed : Addressed (MQTTProxy.register cfg s id sockname) :=
    h.guarded.addressed.step (J := J) (a := .register id sockname) hcfg rfl
  have hhung := h.hungUp.register cfg id sockname
  unfold MQTTProxy.register at hregistry haddressed hhung ⊢
  split
  · refine ⟨h.guarded.forget fun c hc => hnamed c (by rw [hc.serving]; nofun), ?_, ?_, h.names⟩
    · exact h.broadcasting.same rfl rfl rfl
    · exact h.hungUp.shrinks (.forget s id) fun _ _ _ _ ht => ht
  · next advertised hadvertised =>
      simp only [hadvertised] at hregistry haddressed hhung
      have hold : ∀ {c x}, c ≠ s.accepted → Function.update s.conn s.accepted x c = s.conn c := fun hc => Function.update_of_ne hc _ _
      refine ⟨⟨hregistry, haddressed, fun c hc => ?_, fun c hc => ?_, fun c => ?_⟩, ?_, hhung, fun c c' => ?_⟩
      · by_cases hcn : c = s.accepted
        · subst hcn
          simp [Dict.get_set_self]
        · obtain ⟨hserving, hunclosed⟩ := hc
          simp only [hold hcn] at hserving hunclosed ⊢
          have hne := hnamed c (by rw [hserving]; nofun)
          exact (Dict.get_set_ne hne).trans (h.guarded.live c ⟨hserving, hunclosed⟩)
      · by_cases hcn : c = s.accepted
        · subst hcn
          simp
        · obtain ⟨hserving, hunclosed⟩ := hc
          simp only [MaskedFor, hold hcn] at hserving hunclosed ⊢
          exact h.guarded.queue c ⟨hserving, hunclosed⟩
      · by_cases hcn : c = s.accepted
        · subst hcn
          simp
        · simp only [MaskedFor, hold hcn]
          exact h.guarded.written c
      · refine h.broadcasting.keeps rfl (Nat.le_succ _) fun c hc => ?_
        simp [hold (Nat.ne_of_lt hc)]
      · by_cases hcn : c = s.accepted
        · subst hcn
          by_cases hcn' : c' = s.accepted
          · exact fun _ _ _ => hcn'.symm
          · simp only [hold hcn', Function.update_self]
            exact fun _ hc' hid => absurd hid.symm (hnamed c' hc')
        · by_cases hcn' : c' = s.accepted
          · subst hcn'
            simp only [hold hcn, Function.update_self]
            exact fun hc _ hid => absurd hid (hnamed c hc)
          · simp only [hold hcn, hold hcn']
            exact h.names c c'

theorem Guarded.setConn {c : Nat} {f : Client → Client} (h : Guarded J s) (hid : ∀ x, (f x).clientId = x.clientId)
    (hadvertised : ∀ x, (f x).advertised = x.advertised)
    (hlive : (f (s.conn c)).stage = .serving → (f (s.conn c)).closed = false → Live s c)
    (hqueue : ∀ packet ∈ (f (s.conn c)).queue, packet ∈ (s.conn c).queue)
    (hwritten : ∀ packet ∈ (f (s.conn c)).written, packet ∈ (s.conn c).written ∨ Live s c ∧ packet ∈ (s.conn c).queue) :
    Guarded J (s.setConn c f) := by
  have hother : ∀ {k}, k ≠ c → (s.setConn c f).conn k = s.conn k := fun hk => Function.update_of_ne hk _ _
  have hself : (s.setConn c f).conn c = f (s.conn c) := Function.update_self _ _ _
  have hbefore : ∀ {k}, Live (s.setConn c f) k → Live s k := by
    rintro k ⟨hserving, hunclosed⟩
    by_cases hk : k = c
    · subst hk
      rw [hself] at hserving hunclosed
      exact hlive hserving hunclosed
    · rw [hother hk] at hserving hunclosed
      exact ⟨hserving, hunclosed⟩
  have hmasked : ∀ {k packet}, MaskedFor J s k packet → MaskedFor J (s.setConn c f) k packet := by
    intro k packet hp encoded henc
    rw [setConn_same Client.advertised hadvertised] at henc
    exact hp encoded henc
  refine ⟨h.registry.shrinks (setConn_shrinks hid hadvertised), fun k hk => ?_, fun k hk => ?_, fun k hk packet hp => ?_,
    fun k packet hp => ?_⟩
  · rw [setConn_same Client.advertised hadvertised]
    exact h.addressed k hk
  · rw [setConn_same Client.clientId hid]
    exact h.live k (hbefore hk)
  · refine hmasked (h.queue k (hbefore hk) packet ?_)
    by_cases hkc : k = c
    · subst hkc
      rw [hself] at hp
      exact hqueue packet hp
    · rwa [hother hkc] at hp
  · refine hmasked ?_
    by_cases hkc : k = c
    · subst hkc
      rw [hself] at hp
      rcases hwritten packet hp with hp | ⟨hc, hp⟩
      · exact h.written k packet hp
      · exact h.queue k hc packet hp
    · rw [hother hkc] at hp
      exact h.written k packet hp

theorem Discretion.setConn {c : Nat} {f : Client → Client} (h : Discretion J s) (hguarded : Guarded J (s.setConn c f))
    (hhung : HungUp (s.setConn c f)) (hid : ∀ x, (f x).clientId = x.clientId)
    (hadvertised : ∀ x, (f x).advertised = x.advertised)
    (hstage : (f (s.conn c)).stage ≠ .over → (s.conn c).stage ≠ .over) : Discretion J (s.setConn c f) := by
  have hbefore : ∀ {k}, ((s.setConn c f).conn k).stage ≠ .over → (s.conn k).stage ≠ .over := by
    intro k hk
    by_cases hkc : k = c
    · subst hkc
      exact hstage (by simpa [MQTTProxy.setConn] using hk)
    · simpa [MQTTProxy.setConn, hkc] using hk
  refine ⟨hguarded, h.broadcasting.keeps rfl (Nat.le_refl _) fun k _ => ?_, hhung, fun k k' hk hk' hkk => ?_⟩
  · exact ⟨setConn_same Client.clientId hid, setConn_same Client.advertised hadvertised⟩
  · rw [setConn_same Client.clientId hid, setConn_same Client.clientId hid] at hkk
    exact h.names k k' (hbefore hk) (hbefore hk') hkk

theorem Discretion.step {a : Act} (hJ : J.Lawful) (hcfg : cfg.Lawful) (h : Discretion J s)
    (hstep : step cfg J s a = some s') (hok : Discreet cfg J s a) : Discretion J s' := by
  have hhung := h.hungUp.step h.guarded.registry hstep
  have hsame : s'.conn = s.conn → s'.accepted = s.accepted → s'.clients = s.clients → s'.clientIps = s.clientIps →
      s'.clientWriters = s.clientWriters → BroadcastSendable J s' → Discretion J s' :=
    fun hconn haccepted hclients hips hwriters hbroadcasting => h.same hconn haccepted hclients hips hwriters hbroadcasting hhung
  cases step_cases hstep with
  | connect _ => exact hsame rfl rfl rfl rfl rfl nofun
  | message _ => exact h.message hJ hhung hok
  | @hungUp b hup =>
      obtain ⟨hguarded, hbroadcasting⟩ := relay_guarded hJ b.targets h.guarded (h.broadcasting b hup)
      exact h.delivers (relay_delivers (P := fun _ _ => True) _ fun _ _ _ => trivial).1 hguarded hbroadcasting hhung
  | fail _ => exact hsame rfl rfl rfl rfl rfl nofun
  | lose _ => exact hsame rfl rfl rfl rfl rfl nofun
  | register => exact h.register hcfg (hok.named _ _ rfl)
  | @replay t c id packets hwaiting _ hc hpackets =>
      have hlocal := h.guarded.registry.addressed id c hc
      have hne := isIpv4_ne_empty (h.guarded.addressed c (h.guarded.registry.accepted id c hc))
      obtain ⟨hdelivers, hup, _⟩ := replay_delivers (P := fun _ _ => True) (t := t) (c := c) id
        packets (s := s) fun _ _ => trivial
      rw [hlocal] at hpackets
      refine h.delivers hdelivers (replay_guarded _ h.guarded fun _ => ?_) ?_ hhung
      · exact snapshotPackets_masked hJ rfl hne (hok.replayed t id c rfl hwaiting hc) hpackets
      · intro b hb
        exact (h.broadcasting b (hup ▸ hb)).delivers hdelivers
  | @replayHungUp t c id rest ht =>
      obtain ⟨hdelivers, hup, _⟩ := replay_delivers (P := fun _ _ => True) (t := t) (c := c) id rest (s := s)
        fun _ _ => trivial
      refine h.delivers hdelivers (replay_guarded _ h.guarded fun hlive => ?_) ?_ hhung
      · exact absurd (h.guarded.live c hlive) ((h.hungUp t id c rest ht).2 _)
      · intro b hb
        exact (h.broadcasting b (hup ▸ hb)).delivers hdelivers
  | @send c packet queue hstage hqueue =>
      refine h.setConn (h.guarded.setConn (fun _ => rfl) (fun _ => rfl) (fun hs hc => ⟨hs, hc⟩) (fun p hp => ?_) (fun p hp => ?_))
        hhung (fun _ => rfl) (fun _ => rfl) (fun hc => hc)
      · rw [hqueue]
        exact List.mem_cons_of_mem _ hp
      · dsimp only at hp
        split at hp
        · exact .inl hp
        · next hclosed =>
            rcases List.mem_append.mp hp with hp | hp
            · exact .inl hp
            · refine .inr ⟨⟨hstage, by simpa using hclosed⟩, ?_⟩
              rw [hqueue, List.mem_singleton.mp hp]
              exact List.mem_cons_self
  | finish hstage =>
      exact h.setConn (h.guarded.setConn (fun _ => rfl) (fun _ => rfl) nofun (fun _ hp => hp) (fun _ hp => .inl hp))
        hhung (fun _ => rfl) (fun _ => rfl) (fun _ => by rw [hstage]; nofun)
  | @leave c hstage =>
      have hforgotten : Guarded J (s.forget (s.conn c).clientId) := by
        refine h.guarded.forget fun k hk hid => ?_
        cases h.names k c (by rw [hk.serving]; nofun) (by rw [hstage]; nofun) hid
        exact absurd hk.serving (by simp [hstage])
      have hdiscretion : Discretion J (s.forget (s.conn c).clientId) :=
        ⟨hforgotten, h.broadcasting.same rfl rfl rfl, h.hungUp.shrinks (.forget s _) fun _ _ _ _ ht => ht, h.names⟩
      exact hdiscretion.setConn (hforgotten.setConn (fun _ => rfl) (fun _ => rfl) nofun (fun _ hp => hp) (fun _ hp => .inl hp))
        hhung (fun _ => rfl) (fun _ => rfl) (fun hc => absurd rfl hc)
  | _ => exact hsame rfl rfl rfl rfl rfl (h.broadcasting.same rfl rfl rfl)

theorem Discretion.init : Discretion J init where
  guarded := ⟨.init, nofun, (fun _ hc => nomatch hc.serving), (fun _ hc => nomatch hc.serving), fun _ _ hp => nomatch hp⟩
  broadcasting _ hb := nomatch hb
  hungUp _ _ _ _ h := nomatch h
  names _ _ hc := absurd rfl hc

end MQTTProxy

open MQTTProxy

theorem addresses_masked {cfg : MqttSettings} {J : Codec} {s : MQTTProxy} (hJ : J.Lawful) (hcfg : cfg.Lawful)
    (hrun : (mqttProxy cfg J).Runs (fun s a _ => Discreet cfg J s a) .init s) :
    ∀ c, ∀ packet ∈ (s.conn c).written, MaskedFor J s c packet := by
  have hdiscretion : Discretion J s :=
    hrun.keeps .init fun _ _ _ h hstep hok => h.step hJ hcfg hstep hok
  exact hdiscretion.guarded.written

def escapedReport : List UInt8 :=
  Utf8.encode "\x7b\"print\":\x7b\"n\\u0065t\":\x7b\"info\":[\x7b\"ip\":83994816\x7d]\x7d\x7d\x7d"

def exposes (J : Codec) (payload : List UInt8) (encoded : Int) : Bool :=
  match J.loads payload with
  | .ok (.dict v) =>
      match (Value.dict v).tree infoPath with
      | .leaf (.list entries) => entries.any fun entry =>
          match entry with
          | .dict entry => (Dict.get entry (text "ip")).any fun ip => !ip.eqInt encoded
          | _ => false
      | _ => false
  | _ => false

theorem exposes_iff {J : Codec} {payload : List UInt8} {encoded : Int} :
    exposes J payload encoded = true ↔ ∃ v, J.loads payload = .ok (.dict v) ∧ Exposes v encoded := by
  unfold exposes
  split
  · next v hv =>
      split
      · next entries hentries =>
          rw [List.any_eq_true]
          constructor
          · rintro ⟨entry, hentry, hnamed⟩
            split at hnamed
            · next entry =>
                obtain ⟨ip, hip, hne⟩ := (Option.any_eq_true _ _).mp hnamed
                exact ⟨v, hv, entries, entry, ip, hentries, hentry, hip, by simpa using hne⟩
            · cases hnamed
          · rintro ⟨v', hv', entries', entry, ip, hentries', hentry, hip, hne⟩
            cases hv.symm.trans hv'
            cases hentries.symm.trans hentries'
            exact ⟨_, hentry, by simp [hip, hne]⟩
      · next hother =>
          refine ⟨by rintro ⟨⟩, ?_⟩
          rintro ⟨v', hv', entries, _, _, hentries, _⟩
          cases hv.symm.trans hv'
          exact absurd hentries (hother entries)
  · next hother =>
      refine ⟨by rintro ⟨⟩, ?_⟩
      rintro ⟨v, hv, _⟩
      exact absurd hv (hother v)

theorem Masked.exposes {J : Codec} {encoded : Int} {packet : Publish} (h : Masked J encoded packet) :
    exposes J packet.payload encoded = false := by
  cases hexposes : PandaProxy.Mqtt.exposes J packet.payload encoded with
  | false => rfl
  | true =>
      obtain ⟨w, hw, hnamed⟩ := exposes_iff.mp hexposes
      unfold Masked at h
      split at h
      · next payload _ =>
          obtain ⟨hobject, hother⟩ := h
          by_cases hv : ∃ v, J.loads payload = .ok (.dict v)
          · obtain ⟨v, hv⟩ := hv
            obtain ⟨w', hw', hreaddressed⟩ := hobject v hv
            cases hw.symm.trans hw'
            exact absurd hnamed hreaddressed.not_exposes
          · rw [hother fun v h => hv ⟨v, h⟩] at hw
            exact absurd ⟨w, hw⟩ hv
      · obtain ⟨w', hw', hreaddressed⟩ := h
        cases hw.symm.trans hw'
        exact absurd hnamed hreaddressed.not_exposes

theorem escaped_network_relayed : ¬ ∀ s, (mqttProxy desk plain).Runs Machine.Free .init s →
    ∀ c, ∀ packet ∈ (s.conn c).written, MaskedFor plain s c packet := by
  intro h
  have hend : ((mqttProxy desk plain).play .init
      [.connect, .register "10.0.0.5:4711" (some "192.168.1.9"), .message desk.reportTopic escapedReport, .send 0]).map
        (fun s => (encodeIpv4 (s.conn 0).advertised, (s.conn 0).written.any fun packet =>
          exposes plain packet.payload 151103680)) = some (some 151103680, true) := by
    decide +kernel
  obtain ⟨s, hs, hlast⟩ := Option.map_eq_some_iff.mp hend
  simp only [Prod.mk.injEq] at hlast
  obtain ⟨hencoded, hexposes⟩ := hlast
  obtain ⟨packet, hpacket, hnamed⟩ := List.any_eq_true.mp hexposes
  have hmasked := h s (Machine.play_runs hs) 0 packet hpacket _ hencoded
  rw [hmasked.exposes] at hnamed
  cases hnamed

def networkReport : List UInt8 :=
  Utf8.encode "\x7b\"print\":\x7b\"msg\":0,\"net\":\x7b\"info\":[\x7b\"ip\":83994816\x7d]\x7d\x7d\x7d"

def discreetCheck (s : MQTTProxy) (a : Act) (_ : MQTTProxy) : Bool :=
  match a with
  | .message _ payload => payloadReportsIp payload && s.clients.all fun p =>
      match plain.loads payload with
      | .ok (.dict v) => decide (plain.Writable (.dict (rewriteReportedIp v (s.conn p.2).advertised).2))
      | _ => true
  | .replay _ => s.clients.all fun p => s.stateCache.state.all fun q =>
      (s.stateCache.snapshotState (some (s.conn p.2).advertised) (some q.1)).all fun part => decide (plain.Writable (.dict part))
  | .register _ _ => false
  | _ => true

theorem discreetCheck_discreet {cfg : MqttSettings} (s : MQTTProxy) (a : Act) (s' : MQTTProxy)
    (h : discreetCheck s a s' = true) : Discreet cfg plain s a where
  spelled := by
    rintro topic payload rfl _ _ _ _ _ _ _ _
    exact (Bool.and_eq_true_iff.mp h).1
  relayed := by
    rintro topic payload rfl _ v hv id c hc
    have hall := List.all_eq_true.mp (Bool.and_eq_true_iff.mp h).2 _ (Dict.mem_of_get hc)
    simp only [hv] at hall
    exact of_decide_eq_true hall
  replayed := by
    rintro t id c rfl _ hc name part hpart
    obtain ⟨v, hv⟩ := snapshotState_some hpart
    have hall := List.all_eq_true.mp (List.all_eq_true.mp h _ (Dict.mem_of_get hc)) _ (Dict.mem_of_get hv)
    rw [hpart] at hall
    exact of_decide_eq_true hall
  named := by
    rintro id sockname rfl
    cases h

def firstClient : MQTTProxy :=
  register desk { MQTTProxy.init with upstream := .listening, connections := 1 } "10.0.0.5:4711" (some "192.168.1.9")

theorem firstClient_discreet : (mqttProxy desk plain).Runs (fun s a _ => Discreet desk plain s a) .init firstClient :=
  .head ⟨.connect, rfl, nofun, nofun, nofun, nofun⟩
    (.head ⟨.register _ _, rfl, nofun, nofun, nofun, fun _ _ _ _ hc => absurd rfl hc⟩ .refl)

theorem addresses_masked_network : ∃ s, (mqttProxy desk plain).playWhile discreetCheck firstClient
    [.subscribe 0, .message desk.reportTopic networkReport, .replay 0, .send 0, .send 0] = some s ∧
      (s.conn 0).written.length = 2 ∧ ∀ c, ∀ packet ∈ (s.conn c).written, MaskedFor plain s c packet := by
  have hend : ((mqttProxy desk plain).playWhile discreetCheck firstClient
      [.subscribe 0, .message desk.reportTopic networkReport, .replay 0, .send 0, .send 0]).map
        (fun s => (s.conn 0).written.length) = some 2 := by
    decide +kernel
  obtain ⟨s, hs, hwritten⟩ := Option.map_eq_some_iff.mp hend
  exact ⟨s, hs, hwritten, addresses_masked plain_lawful (fun _ _ hmapped => by cases hmapped)
    (firstClient_discreet.trans (Machine.playWhile_runs discreetCheck_discreet hs))⟩

end PandaProxy.Mqtt
