import PandaProxy.Mqtt.ClientConversations

namespace PandaProxy.Mqtt

open Async Json Python Reading
open scoped List

def Authenticated (cfg : ServerSettings) (received : List MQTTPacket) : Prop :=
  ∃ packet rest connect, received = packet :: rest ∧ packet.packetType = PacketType.connect ∧
    parseConnect packet.payload = .ok connect ∧ connect.password = some cfg.accessCode

def publication (packet : MQTTPacket) : Option (String × List UInt8) :=
  if packet.packetType = PacketType.publish then
    match parsePublish packet.flags packet.payload with
    | .ok publish => some (publish.topic, publish.payload)
    | .error _ => none
  else none

namespace Event

def handedOn : Event → Option (String × List UInt8 × Nat)
  | handed topic payload qos => some (topic, payload, qos)
  | _ => none

def wroteOut : Event → Option (List UInt8)
  | wrote data => some data
  | _ => none

end Event

namespace Deed

def event : Deed → Event
  | must v => v
  | may v => v

end Deed

section

variable {cfg : ServerSettings} {packet : MQTTPacket} {received : List MQTTPacket} {deeds : List Deed} {log : List Event}
  {v : Event}

theorem Carried.sublist (h : Carried deeds log) : log <+ deeds.map Deed.event := by
  induction h with
  | nil => exact .slnil
  | did _ ih => exact ih.cons_cons _
  | might _ ih => exact ih.cons_cons _
  | dropped _ ih => exact ih.cons _

theorem Follows.sublist (h : Follows cfg log) : log <+ (conversation cfg (packets log)).map Deed.event := by
  obtain ⟨deeds, hstart, hcarried⟩ := h
  exact hcarried.sublist.trans (hstart.sublist.map Deed.event)

theorem greet_cases (cfg : ServerSettings) (packet : MQTTPacket) :
    (Authenticated cfg [packet] ∧ Turn.greet cfg packet = ⟨[Turn.tell (Answer.connack connackAccepted), .must .joined], true⟩) ∨
      Turn.greet cfg packet = ⟨[Turn.tell (Answer.connack connackNotAuthorized)], false⟩ ∨ Turn.greet cfg packet = Turn.refuse := by
  unfold Turn.greet
  split
  · next htype =>
      split
      · next connect hconnect =>
          split
          · next hpassword => exact .inl ⟨⟨packet, [], connect, rfl, htype, hconnect, hpassword⟩, rfl⟩
          · exact .inr (.inl rfl)
      · exact .inr (.inr rfl)
  · exact .inr (.inr rfl)

theorem Authenticated.cons (h : Authenticated cfg [packet]) (rest : List MQTTPacket) : Authenticated cfg (packet :: rest) := by
  obtain ⟨_, _, connect, heq, hconnect⟩ := h
  cases heq
  exact ⟨packet, rest, connect, rfl, hconnect⟩

theorem conversation_refused (h : ¬ Authenticated cfg received) :
    conversation cfg received = [] ∨ ∃ packet, conversation cfg received = [.must (.read packet)] ∨
      conversation cfg received = [.must (.read packet), Turn.tell (Answer.connack connackNotAuthorized)] := by
  cases received with
  | nil => exact .inl rfl
  | cons packet rest =>
      refine .inr ⟨packet, ?_⟩
      rcases greet_cases cfg packet with ⟨hauth, _⟩ | hgreet | hgreet
      · exact absurd (hauth.cons rest) h
      · exact .inr (by simp [conversation, hgreet])
      · exact .inl (by simp [conversation, hgreet, Turn.refuse])

theorem Follows.refused (h : Follows cfg log) (hauth : ¬ Authenticated cfg (packets log)) (hv : v ∈ log) :
    (∃ packet, v = .read packet) ∨ v = .wrote (Answer.connack connackNotAuthorized).encode := by
  have hmem := h.sublist.subset hv
  rcases conversation_refused hauth with hnone | ⟨packet, hread | htold⟩
  · rw [hnone] at hmem
    cases hmem
  · rw [hread] at hmem
    exact .inl ⟨packet, List.mem_singleton.mp hmem⟩
  · rw [htold] at hmem
    rcases List.mem_cons.mp hmem with hread | hmem
    · exact .inl ⟨packet, hread⟩
    · exact .inr (List.mem_singleton.mp hmem)

theorem Follows.authenticated (h : Follows cfg log) (hv : v ∈ log) (hread : v.packet = none) (hwrote : v.wroteOut = none) :
    Authenticated cfg (packets log) := by
  by_contra hauth
  rcases h.refused hauth hv with ⟨packet, rfl⟩ | rfl
  · cases hread
  · cases hwrote

def handedOn (deeds : List Deed) : List (String × List UInt8 × Nat) := (deeds.map Deed.event).filterMap Event.handedOn

theorem handedOn_append (first second : List Deed) : handedOn (first ++ second) = handedOn first ++ handedOn second := by
  rw [handedOn, List.map_append, List.filterMap_append]
  rfl

theorem handedOn_serve (cfg : ServerSettings) (packet : MQTTPacket) :
    handedOn (Turn.serve cfg packet).deeds = ((publication packet).map fun m => (m.1, m.2, 0)).toList := by
  unfold Turn.serve publication
  split
  · cases hpublish : parsePublish packet.flags packet.payload with
    | error x => rfl
    | ok publish =>
        have hack : handedOn (Turn.acknowledge publish) = [] := by
          unfold Turn.acknowledge
          split
          · split <;> rfl
          · rfl
        dsimp only
        rw [handedOn_append, hack]
        rfl
  · split
    · split
      · next packetId topics _ =>
          unfold Turn.replay
          split <;> rfl
      · rfl
    · split
      · split <;> rfl
      · split
        · rfl
        · split <;> rfl

theorem handedOn_exchange (cfg : ServerSettings) (received : List MQTTPacket) :
    handedOn (exchange cfg received) <+ (received.filterMap publication).map fun m => (m.1, m.2, 0) := by
  induction received with
  | nil => exact .slnil
  | cons packet received ih =>
      have hstep : handedOn (exchange cfg (packet :: received)) =
          ((publication packet).map fun m => (m.1, m.2, 0)).toList ++
            handedOn (if (Turn.serve cfg packet).goesOn then exchange cfg received else []) := by
        rw [exchange, ← handedOn_serve cfg packet, ← handedOn_append]
        rfl
      have hrest : handedOn (if (Turn.serve cfg packet).goesOn then exchange cfg received else []) <+
          (received.filterMap publication).map fun m => (m.1, m.2, 0) := by
        split
        · exact ih
        · exact List.nil_sublist _
      rw [hstep, List.filterMap_cons]
      cases publication packet with
      | none => exact hrest
      | some m => exact hrest.cons_cons _

theorem handedOn_conversation (cfg : ServerSettings) (received : List MQTTPacket) :
    handedOn (conversation cfg received) <+ (received.filterMap publication).map fun m => (m.1, m.2, 0) := by
  cases received with
  | nil => exact .slnil
  | cons packet received =>
      have hgreet : handedOn (Turn.greet cfg packet).deeds = [] := by
        rcases greet_cases cfg packet with ⟨_, hgreet⟩ | hgreet | hgreet <;> rw [hgreet] <;> rfl
      have hstep : handedOn (conversation cfg (packet :: received)) =
          handedOn (if (Turn.greet cfg packet).goesOn then exchange cfg received else []) := by
        have hsplit := handedOn_append (Turn.greet cfg packet).deeds
          (if (Turn.greet cfg packet).goesOn then exchange cfg received else [])
        rw [hgreet, List.nil_append] at hsplit
        rw [conversation]
        exact hsplit
      rw [hstep, List.filterMap_cons]
      split
      · refine (handedOn_exchange cfg received).trans (List.Sublist.map _ ?_)
        cases publication packet with
        | none => exact List.Sublist.refl _
        | some m => exact List.sublist_cons_self _ _
      · exact List.nil_sublist _

end

namespace Server

variable {cfg : ServerSettings} {J : Codec} {v : Option (Nat × Event)} {e e' : Server}

def handedBy (e : Server) (j : Nat) : List (String × List UInt8 × Nat) :=
  (e.handed.filter fun m => m.session = j).map fun m => (m.topic, m.payload, m.qos)

theorem act_handed (cfg : ServerSettings) (J : Codec) (e : Server) (a : MQTTProxy.Act) : (e.act cfg J a).handed = e.handed := by
  unfold act
  split <;> rfl

theorem onClient_handed (e : Server) (j : Nat) (a : Nat → MQTTProxy.Act) : (e.onClient cfg J j a).handed = e.handed := by
  unfold onClient
  split
  · exact act_handed cfg J e _
  · rfl

theorem put_handed (e : Server) (j : Nat) (packet : Outgoing) : (e.put j packet).handed = e.handed := by
  unfold put
  split <;> rfl

theorem Change.handedBy (h : Change cfg J v e e') (k : Nat) :
    e'.handedBy k = e.handedBy k ++ (entry v k).filterMap Event.handedOn := by
  have hsame : ∀ {e' : Server} {v : Option (Nat × Event)}, e'.handed = e.handed →
      (∀ j x, v = some (j, x) → x.handedOn = none) →
      e'.handedBy k = e.handedBy k ++ (entry v k).filterMap Event.handedOn := by
    intro e' v hhanded hv
    have hnone : (entry v k).filterMap Event.handedOn = [] := by
      unfold entry
      split
      · next j x =>
          split
          · simp [hv j x rfl]
          · rfl
      · rfl
    rw [hnone, List.append_nil, Server.handedBy, Server.handedBy, hhanded]
  have hnone : ∀ (j : Nat) (x : Event), none = some (j, x) → x.handedOn = none := by
    rintro _ _ ⟨⟩
  cases h with
  | quiet h => exact hsame h.handed hnone
  | read _ =>
      refine hsame rfl ?_
      rintro _ _ ⟨⟩
      rfl
  | wrote =>
      refine hsame (put_handed e _ _) ?_
      rintro _ _ ⟨⟩
      rfl
  | joined _ =>
      refine hsame (act_handed cfg J e _) ?_
      rintro _ _ ⟨⟩
      rfl
  | refused _ => exact hsame (act_handed cfg J e _) hnone
  | @handed _ j client topic payload qos =>
      rw [Server.handedBy, Server.handedBy, entry]
      by_cases hk : k = j
      · subst hk
        simp [Event.handedOn]
      · simp [hk, Ne.symm hk]
  | snapshot =>
      refine hsame (onClient_handed e _ _) ?_
      rintro _ _ ⟨⟩
      rfl
  | departs _ h => exact hsame (h.handed.trans (onClient_handed e _ _)) hnone
  | closed => exact hsame rfl hnone
  | received => exact hsame rfl hnone
  | sent _ _ _ => exact hsame (put_handed e _ _) hnone
  | relayed _ _ h => exact hsame h.handed hnone

theorem handedBy_runs {peers : Nat → Peer} {c : ServerConfig}
    (hrun : (mqttServer cfg J).Runs (fun _ _ _ => True) (listening peers) c) (j : Nat) :
    c.env.handedBy j = (c.env.links j).log.filterMap Event.handedOn := by
  refine keeps (X := fun e => ∀ j, e.handedBy j = (e.links j).log.filterMap Event.handedOn) (fun v e e' h hchange k => ?_)
    hrun (fun _ => rfl) j
  rw [hchange.handedBy k, hchange.log k, List.filterMap_append, h k]

end Server

-- What the printer is sent in the name of clients: their own messages, in order, at QoS 0, none of them twice.
structure Relayed (cfg : ServerSettings) (e : Server) : Prop where
  authenticated : ∀ m ∈ e.handed, Authenticated cfg (packets (e.links m.session).log)
  ordered : ∀ j, e.handedBy j <+ ((packets (e.links j).log).filterMap publication).map fun m => (m.1, m.2, 0)
  arrived : ∀ j, Decodes (e.links j).arrived (packets (e.links j).log) (e.links j).unread

theorem publishes_relayed {cfg : ServerSettings} {J : Codec} {peers : Nat → Peer} {c : ServerConfig}
    (hrun : (mqttServer cfg J).Runs (fun _ _ _ => True) (listening peers) c) : Relayed cfg c.env where
  authenticated m hm := by
    have hfollows := Server.follows_runs hrun m.session
    have hmem : (m.topic, m.payload, m.qos) ∈ c.env.handedBy m.session :=
      List.mem_map.mpr ⟨m, List.mem_filter.mpr ⟨hm, by simp⟩, rfl⟩
    rw [Server.handedBy_runs hrun] at hmem
    obtain ⟨v, hv, hhanded⟩ := List.mem_filterMap.mp hmem
    cases v with
    | handed topic payload qos => exact hfollows.authenticated hv rfl rfl
    | _ => cases hhanded
  ordered j := by
    have hfollows := Server.follows_runs hrun j
    rw [Server.handedBy_runs hrun]
    exact (hfollows.sublist.filterMap Event.handedOn).trans (handedOn_conversation cfg _)
  arrived j := Server.decoded_runs hrun j

theorem publishes_relayed_once : ∃ c,
    (mqttServer home plain).runActs (listening household) (dials ++ joins 0 ++ publishes 0) = some c ∧
      c.env.handedBy 0 = [("r", [111, 110], 0)] ∧ Relayed home c.env := by
  have hend : ((mqttServer home plain).runActs (listening household) (dials ++ joins 0 ++ publishes 0)).map
      (fun c => c.env.handedBy 0) = some [("r", [111, 110], 0)] := by
    decide +kernel
  obtain ⟨c, hc, hhanded⟩ := Option.map_eq_some_iff.mp hend
  exact ⟨c, hc, hhanded, publishes_relayed (System.runActs_runs _ _ hc)⟩

end PandaProxy.Mqtt
