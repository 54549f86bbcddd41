import PandaProxy.Mqtt.ClientWires

namespace PandaProxy.Mqtt

open Async Json Python Reading
open scoped List

section

variable {cfg : ServerSettings} {J : Codec} {bytes rest : List UInt8} {received : List MQTTPacket} {deeds : List Deed}
  {log : List Event}

theorem Decodes.fits (h : Decodes bytes received rest) : ∀ p ∈ received, p.Fits := by
  induction h with
  | nil bytes => exact fun _ hp => nomatch hp
  | cons hfirst _ ih =>
      intro p hp
      rcases List.mem_cons.mp hp with rfl | hp
      · exact (readPacket_ok hfirst).1
      · exact ih p hp

theorem Follows.joinedOnce (h : Follows cfg log) (hfits : ∀ p ∈ packets log, p.Fits) : log.count .joined ≤ 1 :=
  (h.sublist.count_le .joined).trans (joined_conversation hfits)

theorem Server.packets_fit {peers : Nat → Peer} {c : ServerConfig}
    (hrun : (mqttServer cfg J).Runs (fun _ _ _ => True) (listening peers) c) (j : Nat) :
    ∀ p ∈ packets (c.env.links j).log, p.Fits := (Server.decoded_runs hrun j).fits

theorem Server.wired_runs {peers : Nat → Peer} {c : ServerConfig}
    (hrun : (mqttServer cfg J).Runs (fun _ _ _ => True) (listening peers) c) : c.env.Wired := by
  refine Server.keeps (X := fun e => (∀ j, (e.links j).log.count .joined ≤ 1) → e.Wired) (fun v e e' h hchange honce => ?_)
    hrun (fun _ => ?_) fun j => (Server.follows_runs hrun j).joinedOnce (Server.packets_fit hrun j)
  · refine (h fun j => ?_).change hchange honce
    have hcount := honce j
    rw [hchange.log j, List.count_append] at hcount
    omega
  · refine ⟨?_, ?_, ?_, ?_, ?_, ?_, ?_⟩
    · rintro _ _ ⟨⟩
    · rintro _ _ _ ⟨⟩
    · exact fun c hc => absurd hc (Nat.not_lt_zero c)
    · rintro _ _ ⟨⟩
    · exact fun _ _ => ⟨List.not_mem_nil, rfl⟩
    · exact fun _ => ⟨List.prefix_refl _, fun _ => rfl⟩
    · rintro _ _ ⟨⟩

def told (deeds : List Deed) : List (List UInt8) := (deeds.map Deed.event).filterMap Event.wroteOut

theorem Carried.told (h : Carried deeds log) (hsound : ∀ d ∈ deeds, d.Sound) : log.filterMap Event.wroteOut = told deeds := by
  induction h with
  | nil => rfl
  | @did v deeds log _ ih =>
      have hrest := ih fun d hd => hsound d (List.mem_cons_of_mem _ hd)
      rw [Mqtt.told, List.map_cons, List.filterMap_cons, List.filterMap_cons, hrest]
      rfl
  | @might v deeds log _ ih =>
      have hnone : (Deed.may v).event.wroteOut = none := (hsound _ List.mem_cons_self).certain v rfl
      have hrest := ih fun d hd => hsound d (List.mem_cons_of_mem _ hd)
      rw [Mqtt.told, List.map_cons, List.filterMap_cons_none hnone]
      exact (List.filterMap_cons_none hnone).trans hrest
  | @dropped v deeds log _ ih =>
      have hnone : (Deed.may v).event.wroteOut = none := (hsound _ List.mem_cons_self).certain v rfl
      have hrest := ih fun d hd => hsound d (List.mem_cons_of_mem _ hd)
      rw [Mqtt.told, List.map_cons, List.filterMap_cons_none hnone]
      exact hrest

theorem Follows.told (h : Follows cfg log) (hfits : ∀ p ∈ packets log, p.Fits) :
    log.filterMap Event.wroteOut <+: told (conversation cfg (packets log)) := by
  obtain ⟨deeds, hstart, hcarried⟩ := h
  rw [hcarried.told fun d hd => conversation_sound hfits (hstart.subset hd)]
  exact (hstart.map Deed.event).filterMap Event.wroteOut

theorem Follows.wrote_whole (h : Follows cfg log) (hfits : ∀ p ∈ packets log, p.Fits) {data : List UInt8}
    (hdata : .wrote data ∈ log) : ∃ packet : MQTTPacket, packet.Fits ∧ data = packet.encode := by
  obtain ⟨d, hd, hevent⟩ := List.mem_map.mp (h.sublist.subset hdata)
  refine (conversation_sound hfits hd).whole data ?_
  rw [hevent]
  rfl

end

namespace Outgoing

-- One write to a socket as the packet that the client at the other end reads.
inductive Carries : Outgoing → MQTTPacket → Prop
  | answer {packet : MQTTPacket} (h : packet.Fits) : Carries (.answer packet.encode) packet
  | report {message : Publish} {packet : MQTTPacket} (hfits : packet.Fits)
      (hbytes : buildPublish message.topic message.payload 0 0 = some packet.encode)
      (htype : packet.packetType = PacketType.publish)
      (hparse : parsePublish packet.flags packet.payload = .ok ⟨message.topic, message.payload, 0, none⟩) :
      Carries (.report message) packet

variable {o : Outgoing} {packet : MQTTPacket} {sent : List Outgoing} {received : List MQTTPacket}

theorem Carries.fits (h : o.Carries packet) : packet.Fits := by
  cases h with
  | answer h => exact h
  | report hfits _ _ _ => exact hfits

theorem Carries.bytes (h : o.Carries packet) : o.bytes = packet.encode := by
  cases h with
  | answer _ => rfl
  | report _ hbytes _ _ => rw [Outgoing.bytes, hbytes, Option.getD_some]

theorem carries_all (h : ∀ o ∈ sent, ∃ packet, o.Carries packet) : ∃ received, List.Forall₂ Carries sent received := by
  induction sent with
  | nil => exact ⟨[], .nil⟩
  | cons o sent ih =>
      obtain ⟨packet, hpacket⟩ := h o List.mem_cons_self
      obtain ⟨received, hreceived⟩ := ih fun o ho => h o (List.mem_cons_of_mem _ ho)
      exact ⟨packet :: received, .cons hpacket hreceived⟩

theorem carried_bytes (h : List.Forall₂ Carries sent received) :
    sent.flatMap Outgoing.bytes = received.flatMap MQTTPacket.encode ∧ ∀ p ∈ received, p.Fits := by
  induction h with
  | nil => exact ⟨rfl, fun _ hp => nomatch hp⟩
  | cons hfirst _ ih =>
      refine ⟨by rw [List.flatMap_cons, List.flatMap_cons, hfirst.bytes, ih.1], fun p hp => ?_⟩
      rcases List.mem_cons.mp hp with rfl | hp
      · exact hfirst.fits
      · exact ih.2 p hp

theorem answers_only (h : sent.filterMap reported = []) : sent = (sent.filterMap answered).map answer := by
  induction sent with
  | nil => rfl
  | cons o sent ih =>
      cases o with
      | answer data => exact congrArg (List.cons (answer data)) (ih h)
      | report message => cases h

end Outgoing

-- What one client gets: whole packets, its answers in the order of its requests, and the reports for it between them.
structure ClientStream (cfg : ServerSettings) (e : Server) (j : Nat) : Prop where
  whole : ∃ received, List.Forall₂ Outgoing.Carries (e.links j).sent received ∧
    ∀ rest, times readPacket received.length ((e.links j).sent.flatMap Outgoing.bytes ++ rest) = (.ok received, rest)
  answered : e.answers j <+: told (conversation cfg (packets (e.links j).log))
  reported : ∀ c, (e.links j).client = some c → e.reports j <+: (e.proxy.conn c).written
  unregistered : (e.links j).client = none → e.reports j = []

theorem client_stream {cfg : ServerSettings} {J : Codec} {peers : Nat → Peer} {c : ServerConfig}
    (hrun : (mqttServer cfg J).Runs (fun _ _ _ => True) (listening peers) c) (j : Nat)
    (hfits : ∀ message ∈ c.env.reports j, (⟨message.topic, message.payload, 0, 0⟩ : Publication).Fits) :
    ClientStream cfg c.env j := by
  have hwired := Server.wired_runs hrun
  have hfollows := Server.follows_runs hrun j
  have hpackets := Server.packets_fit hrun j
  refine ⟨?_, (hwired.answers j).1.trans (hfollows.told hpackets), fun k hk => (hwired.reports j k hk).1,
    fun hnone => (hwired.unjoined j hnone).2⟩
  have hcarries : ∀ o ∈ (c.env.links j).sent, ∃ packet, o.Carries packet := by
    intro o ho
    cases o with
    | answer data =>
        have hanswer : data ∈ c.env.answers j := List.mem_filterMap.mpr ⟨_, ho, rfl⟩
        obtain ⟨v, hv, hdata⟩ := List.mem_filterMap.mp ((hwired.answers j).1.subset hanswer)
        cases v with
        | wrote data' =>
            cases hdata
            obtain ⟨packet, hpacket, rfl⟩ := hfollows.wrote_whole hpackets hv
            exact ⟨packet, .answer hpacket⟩
        | _ => cases hdata
    | report message =>
        obtain ⟨packet, hpacket, hbuild, htype, hparse⟩ :=
          Publication.build_parse (hfits message (List.mem_filterMap.mpr ⟨_, ho, rfl⟩))
        exact ⟨packet, .report hpacket hbuild htype hparse⟩
  obtain ⟨received, hreceived⟩ := Outgoing.carries_all hcarries
  obtain ⟨hbytes, hall⟩ := Outgoing.carried_bytes hreceived
  refine ⟨received, hreceived, fun rest => ?_⟩
  rw [hbytes]
  exact readPackets_encode hall rest

def reaches : List ServerAct := [.tick (.printer (.message "t" [1, 2])), .tick (.send 0)]

theorem client_stream_report : ∃ c,
    (mqttServer home plain).runActs (listening household) (dials ++ joins 0 ++ reaches ++ publishes 0) = some c ∧
      (c.env.links 0).sent.length = 3 ∧ ClientStream home c.env 0 := by
  have hend : ((mqttServer home plain).runActs (listening household) (dials ++ joins 0 ++ reaches ++ publishes 0)).map
      (fun c => ((c.env.links 0).sent.length, (c.env.reports 0).map fun m => (m.topic, m.payload))) =
        some (3, [("t", [1, 2])]) := by
    decide +kernel
  obtain ⟨c, hc, hlast⟩ := Option.map_eq_some_iff.mp hend
  obtain ⟨hsent, hreports⟩ := Prod.mk.inj hlast
  refine ⟨c, hc, hsent, client_stream (System.runActs_runs _ _ hc) 0 fun message hmessage => ?_⟩
  have hmem := List.mem_map_of_mem (f := fun m : Publish => (m.topic, m.payload)) hmessage
  rw [hreports, List.mem_singleton] at hmem
  obtain ⟨htopic, hpayload⟩ := Prod.mk.inj hmem
  rw [htopic, hpayload]
  exact ⟨by decide, by decide, by decide, by decide⟩

-- A client that has not presented the access code is told at most that much.
structure Gated (cfg : ServerSettings) (e : Server) : Prop where
  admitted : ∀ c < e.proxy.accepted, ∃ j, (e.links j).client = some c ∧ Authenticated cfg (packets (e.links j).log)
  unregistered : ∀ j, ¬ Authenticated cfg (packets (e.links j).log) → (e.links j).client = none
  unheard : ∀ j, ¬ Authenticated cfg (packets (e.links j).log) → e.handedBy j = [] ∧ .snapshot ∉ (e.links j).log
  uninformed : ∀ j, ¬ Authenticated cfg (packets (e.links j).log) →
    (e.links j).sent = [] ∨ (e.links j).sent = [.answer (Answer.connack connackNotAuthorized).encode]

theorem unauthorised_gated {cfg : ServerSettings} {J : Codec} {peers : Nat → Peer} {c : ServerConfig}
    (hrun : (mqttServer cfg J).Runs (fun _ _ _ => True) (listening peers) c) : Gated cfg c.env := by
  have hwired := Server.wired_runs hrun
  have hfollows := fun j => Server.follows_runs hrun j
  have hclient : ∀ j, ¬ Authenticated cfg (packets (c.env.links j).log) → (c.env.links j).client = none := by
    intro j hauth
    by_contra hsome
    obtain ⟨k, hk⟩ := Option.ne_none_iff_exists'.mp hsome
    exact hauth ((hfollows j).authenticated (hwired.joined j k hk) rfl rfl)
  refine ⟨fun k hk => ?_, hclient, fun j hauth => ⟨?_, fun hmem => hauth ((hfollows j).authenticated hmem rfl rfl)⟩,
    fun j hauth => ?_⟩
  · obtain ⟨j, hj⟩ := hwired.owned k hk
    exact ⟨j, hj, (hfollows j).authenticated (hwired.joined j k hj) rfl rfl⟩
  · rw [Server.handedBy_runs hrun, List.filterMap_eq_nil_iff]
    intro v hv
    cases v with
    | handed topic payload qos => exact absurd ((hfollows j).authenticated hv rfl rfl) hauth
    | _ => rfl
  · have hanswers : c.env.answers j <+ told (conversation cfg (packets (c.env.links j).log)) :=
      ((hwired.answers j).1.trans ((hfollows j).told (Server.packets_fit hrun j))).sublist
    have htold : told (conversation cfg (packets (c.env.links j).log)) <+ [(Answer.connack connackNotAuthorized).encode] := by
      rcases conversation_refused hauth with hnone | ⟨packet, hread | hrefused⟩
      · rw [hnone]
        exact List.nil_sublist _
      · rw [hread]
        exact List.nil_sublist _
      · rw [hrefused]
        exact List.Sublist.refl _
    rw [Outgoing.answers_only (hwired.unjoined j (hclient j hauth)).2]
    rcases List.sublist_singleton.mp (hanswers.trans htold) with hnone | hone
    · left
      exact congrArg (List.map Outgoing.answer) hnone
    · right
      exact congrArg (List.map Outgoing.answer) hone

def intrusion : List UInt8 :=
  [0x10, 29, 0, 4, 77, 81, 84, 84, 4, 0xC2, 0, 60, 0, 1, 97, 0, 4, 98, 98, 108, 112, 0, 8, 49, 50, 51, 52, 53, 54, 55, 57]

def intrudes (j : Nat) : List ServerAct := [.spawn j, .tick (.receive j intrusion), .run j]

theorem unauthorised_gated_intrusion : ∃ c,
    (mqttServer home plain).runActs (listening household) (dials ++ joins 0 ++ intrudes 1 ++ reaches) = some c ∧
      (c.env.links 1).sent.length = 1 ∧ (c.env.links 0).sent.length = 2 ∧ Gated home c.env := by
  have hend : ((mqttServer home plain).runActs (listening household) (dials ++ joins 0 ++ intrudes 1 ++ reaches)).map
      (fun c => ((c.env.links 1).sent.length, (c.env.links 0).sent.length)) = some (1, 2) := by
    decide +kernel
  obtain ⟨c, hc, hlast⟩ := Option.map_eq_some_iff.mp hend
  obtain ⟨hintruder, hclient⟩ := Prod.mk.inj hlast
  exact ⟨c, hc, hintruder, hclient, unauthorised_gated (System.runActs_runs _ _ hc)⟩

end PandaProxy.Mqtt
