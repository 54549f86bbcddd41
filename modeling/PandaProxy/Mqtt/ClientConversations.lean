import PandaProxy.Json.Plain
import PandaProxy.Mqtt.ServerTurns

namespace PandaProxy.Mqtt

open Async Json Python

-- What a handler does for a packet. What it forwards may come to nothing.
inductive Deed where
  | must (v : Event)
  | may (v : Event)

structure Turn where
  deeds : List Deed
  goesOn : Bool

namespace Turn

def tell (packet : MQTTPacket) : Deed := .must (.wrote packet.encode)

def refuse : Turn := ⟨[], false⟩

def ignore : Turn := ⟨[], true⟩

def greet (cfg : ServerSettings) (packet : MQTTPacket) : Turn :=
  if packet.packetType = PacketType.connect then
    match parseConnect packet.payload with
    | .ok connect =>
        if connect.password = some cfg.accessCode then ⟨[tell (Answer.connack connackAccepted), .must .joined], true⟩
        else ⟨[tell (Answer.connack connackNotAuthorized)], false⟩
    | .error _ => refuse
  else refuse

def acknowledge (publish : PublishInfo) : List Deed :=
  match publish.packetId with
  | some packetId => if publish.qos = 1 then [tell (Answer.puback packetId)] else []
  | none => []

def replay (cfg : ServerSettings) (topics : List (String × Nat)) : List Deed :=
  if topics.any fun entry => topicMatches entry.1 cfg.reportTopic then [.must .snapshot] else []

def serve (cfg : ServerSettings) (packet : MQTTPacket) : Turn :=
  if packet.packetType = PacketType.publish then
    match parsePublish packet.flags packet.payload with
    | .ok publish => ⟨acknowledge publish ++ [.may (.handed publish.topic publish.payload 0)], true⟩
    | .error _ => refuse
  else if packet.packetType = PacketType.subscribe then
    match parseSubscribe packet.payload with
    | .ok (packetId, topics) => ⟨tell (Answer.suback packetId topics.length) :: replay cfg topics, true⟩
    | .error _ => refuse
  else if packet.packetType = PacketType.unsubscribe then
    match parseUnsubscribe packet.payload with
    | .ok (packetId, _) => ⟨[tell (Answer.unsuback packetId)], true⟩
    | .error _ => refuse
  else if packet.packetType = PacketType.pingreq then ⟨[tell Answer.pingresp], true⟩
  else if packet.packetType = PacketType.disconnect then refuse
  else ignore

end Turn

def exchange (cfg : ServerSettings) : List MQTTPacket → List Deed
  | [] => []
  | packet :: packets =>
      .must (.read packet) :: ((Turn.serve cfg packet).deeds ++
        if (Turn.serve cfg packet).goesOn then exchange cfg packets else [])

def conversation (cfg : ServerSettings) : List MQTTPacket → List Deed
  | [] => []
  | packet :: packets =>
      .must (.read packet) :: ((Turn.greet cfg packet).deeds ++
        if (Turn.greet cfg packet).goesOn then exchange cfg packets else [])

inductive Carried : List Deed → List Event → Prop where
  | nil : Carried [] []
  | did {v : Event} {deeds : List Deed} {log : List Event} (h : Carried deeds log) : Carried (.must v :: deeds) (v :: log)
  | might {v : Event} {deeds : List Deed} {log : List Event} (h : Carried deeds log) : Carried (.may v :: deeds) (v :: log)
  | dropped {v : Event} {deeds : List Deed} {log : List Event} (h : Carried deeds log) : Carried (.may v :: deeds) log

namespace Event

def packet : Event → Option MQTTPacket
  | read packet => some packet
  | _ => none

end Event

def packets (log : List Event) : List MQTTPacket := log.filterMap Event.packet

-- A log is, so far, what the packets in it ask for.
def Follows (cfg : ServerSettings) (log : List Event) : Prop :=
  ∃ deeds, deeds <+: conversation cfg (packets log) ∧ Carried deeds log

section

variable {cfg : ServerSettings} {deeds deeds' : List Deed} {log log' : List Event} {v : Event} {packet : MQTTPacket}
  {received : List MQTTPacket}

theorem Carried.append (h : Carried deeds log) (h' : Carried deeds' log') : Carried (deeds ++ deeds') (log ++ log') := by
  induction h with
  | nil => exact h'
  | did _ ih => exact .did ih
  | might _ ih => exact .might ih
  | dropped _ ih => exact .dropped ih

theorem packets_append : packets (log ++ log') = packets log ++ packets log' := List.filterMap_append

def Admitted (cfg : ServerSettings) : List MQTTPacket → Prop
  | [] => False
  | packet :: packets => (Turn.greet cfg packet).goesOn = true ∧ ∀ p ∈ packets, (Turn.serve cfg p).goesOn = true

theorem exchange_snoc (h : ∀ p ∈ received, (Turn.serve cfg p).goesOn = true) :
    exchange cfg (received ++ [packet]) = exchange cfg received ++ (.must (.read packet) :: (Turn.serve cfg packet).deeds) := by
  induction received with
  | nil => simp [exchange]
  | cons p received ih =>
      have hp := h p List.mem_cons_self
      rw [List.cons_append, exchange, exchange, if_pos hp, if_pos hp, ih fun q hq => h q (List.mem_cons_of_mem p hq)]
      simp only [List.cons_append, List.append_assoc]

theorem conversation_snoc (h : Admitted cfg received) :
    conversation cfg (received ++ [packet]) =
      conversation cfg received ++ (.must (.read packet) :: (Turn.serve cfg packet).deeds) := by
  cases received with
  | nil => exact absurd h id
  | cons p received =>
      obtain ⟨hp, hrest⟩ := h
      rw [List.cons_append, conversation, conversation, if_pos hp, if_pos hp, exchange_snoc hrest]
      simp only [List.cons_append, List.append_assoc]

theorem Admitted.snoc (h : Admitted cfg received) (hp : (Turn.serve cfg packet).goesOn = true) :
    Admitted cfg (received ++ [packet]) := by
  cases received with
  | nil => exact absurd h id
  | cons q received =>
      refine ⟨h.1, fun p hmem => ?_⟩
      rcases List.mem_append.mp hmem with hmem | hmem
      · exact h.2 p hmem
      · exact List.mem_singleton.mp hmem ▸ hp

structure Owing (cfg : ServerSettings) (deeds : List Deed) (goesOn : Bool) (log : List Event) : Prop where
  done : ∃ past, Carried past log ∧ past ++ deeds = conversation cfg (packets log)
  admitted : goesOn = true → Admitted cfg (packets log)

namespace Owing

variable {goesOn : Bool}

theorem follows (h : Owing cfg deeds goesOn log) : Follows cfg log := by
  obtain ⟨past, hpast, hall⟩ := h.done
  exact ⟨past, ⟨deeds, hall⟩, hpast⟩

theorem emit (h : Owing cfg (.must v :: deeds) goesOn log) (hv : v.packet = none) : Owing cfg deeds goesOn (log ++ [v]) := by
  have hsame : packets (log ++ [v]) = packets log := by
    rw [packets_append, show packets [v] = [] by simp [packets, hv], List.append_nil]
  obtain ⟨past, hpast, hall⟩ := h.done
  refine ⟨⟨past ++ [.must v], hpast.append (.did .nil), ?_⟩, fun hgo => ?_⟩
  · rw [hsame, ← hall, List.append_assoc, List.singleton_append]
  · rw [hsame]
    exact h.admitted hgo

theorem hand {topic : String} {payload : List UInt8} {qos : Nat}
    (h : Owing cfg (.may (.handed topic payload qos) :: deeds) goesOn log) :
    Owing cfg deeds goesOn (log ++ [.handed topic payload qos]) := by
  have hsame : packets (log ++ [.handed topic payload qos]) = packets log := by
    rw [packets_append]
    exact List.append_nil _
  obtain ⟨past, hpast, hall⟩ := h.done
  refine ⟨⟨past ++ [.may (.handed topic payload qos)], hpast.append (.might .nil), ?_⟩, fun hgo => ?_⟩
  · rw [hsame, ← hall, List.append_assoc, List.singleton_append]
  · rw [hsame]
    exact h.admitted hgo

theorem drop (h : Owing cfg (.may v :: deeds) goesOn log) : Owing cfg deeds goesOn log := by
  obtain ⟨past, hpast, hall⟩ := h.done
  refine ⟨⟨past ++ [.may v], ?_, by rw [← hall, List.append_assoc, List.singleton_append]⟩, h.admitted⟩
  have hdropped := hpast.append (Carried.dropped (v := v) .nil)
  rwa [List.append_nil] at hdropped

theorem first : Owing cfg (Turn.greet cfg packet).deeds (Turn.greet cfg packet).goesOn [.read packet] := by
  refine ⟨⟨[.must (.read packet)], .did .nil, ?_⟩, fun hgo => ⟨hgo, by simp⟩⟩
  show _ = conversation cfg [packet]
  simp [conversation, exchange]

theorem next (h : Owing cfg [] true log) :
    Owing cfg (Turn.serve cfg packet).deeds (Turn.serve cfg packet).goesOn (log ++ [.read packet]) := by
  have hpackets : packets (log ++ [.read packet]) = packets log ++ [packet] := packets_append
  obtain ⟨past, hpast, hall⟩ := h.done
  refine ⟨⟨past ++ [.must (.read packet)], hpast.append (.did .nil), ?_⟩, fun hgo => ?_⟩
  · rw [hpackets, conversation_snoc (h.admitted rfl), ← hall, List.append_nil, List.append_assoc, List.singleton_append]
  · rw [hpackets]
    exact (h.admitted rfl).snoc hgo

end Owing

end

namespace ClientSession

variable {cfg : ServerSettings} {α β : Type} {log : List Event} {deeds : List Deed} {goesOn : Bool}

def Leads (cfg : ServerSettings) (P : α → List Event → Prop) (r : Except Exc α) (log : List Event) : Prop :=
  match r with
  | .ok a => P a log
  | .error _ => Follows cfg log

-- From `log` on the handler keeps to the conversation, and comes to `P` unless it raises.
def Speaks (cfg : ServerSettings) (c : ClientSession α) (P : α → List Event → Prop) (log : List Event) : Prop :=
  ∀ s, Tells Server.emits (Follows cfg) c (fun r _ log => Leads cfg P r log) s log

namespace Speaks

variable {P : α → List Event → Prop} {Q : β → List Event → Prop}

theorem pure {a : α} (h : P a log) : Speaks cfg (Pure.pure a) P log := fun _ => h

theorem raise {x : Exc} (h : Follows cfg log) : Speaks cfg (Coro.raise x : ClientSession α) P log := fun _ => h

theorem bind {c : ClientSession α} {f : α → ClientSession β} (hc : Speaks cfg c P log)
    (hf : ∀ a log, P a log → Speaks cfg (f a) Q log) : Speaks cfg (c >>= f) Q log := by
  intro s
  refine Tells.bind c f s log (Tells.mono c ?_ s log (hc s))
  intro r s log hr
  cases r with
  | ok a => exact hf a log hr s
  | error x => exact hr

theorem attempt {c : ClientSession α} {P : Except Exc α → List Event → Prop}
    (h : ∀ s, Tells Server.emits (Follows cfg) c (fun r _ log => P r log) s log) : Speaks cfg (Coro.attempt c) P log :=
  fun s => Tells.attempt c s log (h s)

theorem ask {i : Op} {P : i.Answer → List Event → Prop} (hlog : Follows cfg log)
    (hok : ∀ a, Follows cfg (log ++ (Server.emits i (.ok a)).toList) ∧ P a (log ++ (Server.emits i (.ok a)).toList)) :
    Speaks cfg (ClientSession.ask i) P log := by
  intro s r
  cases r with
  | ok a => exact hok a
  | error x =>
      rw [Server.emits_error, Option.toList_none, List.append_nil]
      exact ⟨hlog, hlog⟩

theorem silent {i : Op} {P : i.Answer → List Event → Prop} (hi : ∀ r, Server.emits i r = none) (hlog : Follows cfg log)
    (hP : ∀ a, P a log) : Speaks cfg (ClientSession.ask i) P log := by
  refine ask hlog fun a => ?_
  rw [hi (.ok a), Option.toList_none, List.append_nil]
  exact ⟨hlog, hP a⟩

end Speaks

theorem parsed_speaks {r : Except ParseError α} (h : Follows cfg log) :
    Speaks cfg (parsed r) (fun a log' => r = .ok a ∧ log' = log) log := by
  cases r with
  | ok a => exact .pure ⟨rfl, rfl⟩
  | error x => exact .raise h

theorem write_speaks {packet : MQTTPacket} (h : Owing cfg (Turn.tell packet :: deeds) goesOn log) :
    Speaks cfg (ask (.write packet.encode)) (fun _ => Owing cfg deeds goesOn) log := by
  have hwrote := h.emit (v := .wrote packet.encode) rfl
  exact .ask h.follows fun _ => ⟨hwrote.follows, hwrote⟩

theorem send_speaks {packet : MQTTPacket} (h : Owing cfg (Turn.tell packet :: deeds) goesOn log) :
    Speaks cfg (send (some packet.encode)) (fun _ => Owing cfg deeds goesOn) log :=
  (write_speaks h).bind fun _ _ h => .silent (fun _ => rfl) h.follows fun _ => h

theorem acquire_tells {s : Keepalive} (h : Follows cfg log) :
    Tells Server.emits (Follows cfg) acquire (fun _ _ log' => log' = log) s log := by
  refine Tells.bind _ _ s log (Tells.silent (fun _ => rfl) h fun r => ?_)
  cases r with
  | error x => rfl
  | ok taken =>
      cases taken with
      | true => rfl
      | false => exact Tells.silent (fun _ => rfl) h fun _ => rfl

theorem forwardToUpstream_tells {topic : String} {payload : List UInt8} {qos : Nat} {s : Keepalive}
    (h : Owing cfg (.may (.handed topic payload qos) :: deeds) goesOn log) :
    Tells Server.emits (Follows cfg) (forwardToUpstream topic payload qos)
      (fun _ _ => Owing cfg deeds goesOn) s log := by
  have hsilent : ∀ {i : Op} {log : List Event} {s : Keepalive}, (∀ r, Server.emits i r = none) → Owing cfg deeds goesOn log →
      Tells Server.emits (Follows cfg) (ask i) (fun _ _ => Owing cfg deeds goesOn) s log :=
    fun hi h => Tells.silent hi h.follows fun _ => h
  refine Tells.bind _ _ s log (Tells.silent (fun _ => rfl) h.follows fun r => ?_)
  cases r with
  | error x => exact h.drop
  | ok running =>
      cases running with
      | false => exact h.drop
      | true =>
          refine Tells.bind _ _ s log (Tells.mono acquire ?_ s log (acquire_tells h.follows))
          rintro r s _ rfl
          cases r with
          | error x => exact h.drop
          | ok _ =>
              refine Tells.tryFinally _ _ (Tells.mono _ (Q := fun _ _ => Owing cfg deeds goesOn) ?_ s _ ?_)
              · intro r s log h
                refine Tells.mono _ ?_ s log (hsilent (fun _ => rfl) h)
                intro u s log h
                cases u <;> exact h
              · refine Tells.bind _ _ s _ (Tells.silent (fun _ => rfl) h.follows fun r => ?_)
                cases r with
                | error x => exact h.drop
                | ok client =>
                    cases client with
                    | none => exact h.drop
                    | some client =>
                        refine Tells.suppress _ _ (Tells.mono _ (Q := fun _ _ => Owing cfg deeds goesOn) ?_ s _ ?_)
                        · intro r s log h
                          cases r with
                          | ok _ => exact h
                          | error x =>
                              dsimp only
                              split <;> exact h
                        · refine Tells.bind _ _ s _ fun r => ?_
                          cases r with
                          | error x =>
                              rw [Server.emits_error, Option.toList_none, List.append_nil]
                              exact ⟨h.follows, h.drop⟩
                          | ok _ => exact ⟨h.hand.follows, hsilent (fun _ => rfl) h.hand⟩

theorem acknowledge_speaks {info : PublishInfo} (hid : ∀ packetId, info.packetId = some packetId → packetId < 65536)
    (h : Owing cfg (Turn.acknowledge info ++ deeds) goesOn log) :
    Speaks cfg (acknowledge info) (fun _ => Owing cfg deeds goesOn) log := by
  unfold acknowledge
  split
  · next packetId hsome =>
      simp only [Turn.acknowledge, hsome] at h
      by_cases hqos : info.qos = 1
      · rw [if_pos hqos] at h ⊢
        rw [buildPuback_encode (hid packetId hsome)]
        exact send_speaks h
      · rw [if_neg hqos] at h ⊢
        exact .pure h
  · next hnone =>
      simp only [Turn.acknowledge, hnone] at h
      exact .pure h

abbrev Resumes (cfg : ServerSettings) (next : Label) (log : List Event) : Prop :=
  Follows cfg log ∧ (next = .serving → Owing cfg [] true log) ∧ next ≠ .connecting

theorem goesOn_speaks (h : Owing cfg [] true log) : Speaks cfg (Pure.pure Label.serving) (Resumes cfg) log :=
  .pure ⟨h.follows, fun _ => h, nofun⟩

theorem stops_speaks {next : Label} (hnext : next = .ending ∨ next = .closing) (h : Follows cfg log) :
    Speaks cfg (Pure.pure next) (Resumes cfg) log := by
  rcases hnext with rfl | rfl
  · exact .pure ⟨h, nofun, nofun⟩
  · exact .pure ⟨h, nofun, nofun⟩

section

variable {packet : MQTTPacket} (h : Owing cfg (Turn.serve cfg packet).deeds (Turn.serve cfg packet).goesOn log)

include h

theorem handlePublish_speaks (htype : packet.packetType = PacketType.publish) :
    Speaks cfg (handlePublish packet) (Resumes cfg) log := by
  rw [Turn.serve, if_pos htype] at h
  refine (parsed_speaks h.follows).bind ?_
  rintro info _ ⟨hinfo, rfl⟩
  rw [hinfo] at h
  refine (acknowledge_speaks (fun packetId hid => parsePublish_bound hinfo hid) h).bind fun _ log h => ?_
  refine Speaks.bind (P := fun _ => Owing cfg [] true) (fun s => ?_) fun _ _ h => goesOn_speaks h
  refine Tells.mono _ ?_ s log (forwardToUpstream_tells h)
  intro r s log h
  cases r with
  | ok _ => exact h
  | error x => exact h.follows

theorem handleSubscribe_speaks (htype : packet.packetType = PacketType.subscribe) :
    Speaks cfg (handleSubscribe cfg packet) (Resumes cfg) log := by
  rw [Turn.serve, if_neg (by rw [htype]; decide), if_pos htype] at h
  refine (parsed_speaks h.follows).bind ?_
  rintro ⟨packetId, topics⟩ _ ⟨hparse, rfl⟩
  rw [hparse] at h
  dsimp only
  rw [buildSuback_encode (parseSubscribe_bounds hparse).1]
  refine (send_speaks h).bind fun _ log h => ?_
  rw [Turn.replay] at h
  split at h
  · next hany =>
      rw [if_pos hany]
      have hsnapshot := h.emit (v := .snapshot) rfl
      refine Speaks.bind (P := fun _ => Owing cfg [] true) ?_ fun _ _ h => goesOn_speaks h
      exact .ask h.follows fun _ => ⟨hsnapshot.follows, hsnapshot⟩
  · next hany =>
      rw [if_neg hany]
      exact goesOn_speaks h

theorem handleUnsubscribe_speaks (htype : packet.packetType = PacketType.unsubscribe) :
    Speaks cfg (handleUnsubscribe packet) (Resumes cfg) log := by
  rw [Turn.serve, if_neg (by rw [htype]; decide), if_neg (by rw [htype]; decide), if_pos htype] at h
  refine (parsed_speaks h.follows).bind ?_
  rintro ⟨packetId, topics⟩ _ ⟨hparse, rfl⟩
  rw [hparse] at h
  dsimp only
  rw [buildUnsuback_encode (parseUnsubscribe_bound hparse)]
  exact (send_speaks h).bind fun _ _ h => goesOn_speaks h

theorem handlePacket_speaks : Speaks cfg (handlePacket cfg packet) (Resumes cfg) log := by
  unfold handlePacket
  split
  · next htype => exact handlePublish_speaks h htype
  · next hpublish =>
    split
    · next htype => exact handleSubscribe_speaks h htype
    · next hsubscribe =>
      split
      · next htype => exact handleUnsubscribe_speaks h htype
      · next hunsubscribe =>
        rw [Turn.serve, if_neg hpublish, if_neg hsubscribe, if_neg hunsubscribe] at h
        split
        · next htype =>
            rw [if_pos htype] at h
            have hspeaks : Speaks cfg (send (some Answer.pingresp.encode)) _ _ := send_speaks h
            exact hspeaks.bind fun _ _ h => goesOn_speaks h
        · next hpingreq =>
          rw [if_neg hpingreq] at h
          split
          · next htype =>
              rw [if_neg (by rw [htype]; decide)] at h
              exact goesOn_speaks h
          · split
            · exact stops_speaks (.inl rfl) h.follows
            · next hdisconnect =>
                rw [if_neg hdisconnect] at h
                exact goesOn_speaks h

end

theorem receive_speaks (h : Owing cfg [] true log) : Speaks cfg (receive cfg) (Resumes cfg) log := by
  refine Speaks.bind (Speaks.silent (P := fun _ log => Owing cfg [] true log) (fun _ => rfl) h.follows fun _ => h) fun running log h => ?_
  cases running with
  | false => exact stops_speaks (.inl rfl) h.follows
  | true =>
      refine Speaks.bind (P := fun _ => Owing cfg [] true) (fun _ => h) fun s log h => ?_
      refine Speaks.bind (P := fun r log => match r with
        | .ok packet => Owing cfg (Turn.serve cfg packet).deeds (Turn.serve cfg packet).goesOn log
        | .error _ => Follows cfg log) (.attempt fun _ r => ?_) fun r log h => ?_
      · cases r with
        | ok packet => exact ⟨h.next.follows, h.next⟩
        | error x =>
            rw [Server.emits_error, Option.toList_none, List.append_nil]
            exact ⟨h.follows, h.follows⟩
      · split
        · exact handlePacket_speaks h
        · exact stops_speaks (.inl rfl) h
        · exact .raise h

theorem waitForUpstream_speaks (h : Owing cfg deeds goesOn log) :
    Speaks cfg waitForUpstream (fun _ => Owing cfg deeds goesOn) log := by
  refine Speaks.bind (Speaks.silent (P := fun _ => Owing cfg deeds goesOn) (fun _ => rfl) h.follows fun _ => h) fun connected log h => ?_
  cases connected with
  | true => exact .pure h
  | false =>
      refine Speaks.bind (P := fun _ => Owing cfg deeds goesOn)
        (.attempt fun _ => Tells.silent (fun _ => rfl) h.follows fun _ => h) fun r log h => ?_
      split
      · exact .pure h
      · exact .pure h
      · exact .raise h.follows

theorem join_speaks {connectInfo : ConnectInfo} (h : Owing cfg [.must .joined] true log) :
    Speaks cfg (join connectInfo) (Resumes cfg) log := by
  refine (waitForUpstream_speaks h).bind fun connected log h => ?_
  cases connected with
  | false => exact stops_speaks (.inr rfl) h.follows
  | true =>
      have hjoined := h.emit rfl
      refine Speaks.bind (P := fun registered log => match registered with
        | true => Owing cfg [] true log
        | false => Follows cfg log) (.ask h.follows fun registered => ?_) fun registered log h => ?_
      · cases registered with
        | true => exact ⟨hjoined.follows, hjoined⟩
        | false =>
            simp only [Server.emits, Option.toList_none, List.append_nil]
            exact ⟨h.follows, h.follows⟩
      · cases registered with
        | true => exact Speaks.bind (P := fun _ => Owing cfg [] true) (fun _ => h) fun _ _ h => goesOn_speaks h
        | false => exact stops_speaks (.inr rfl) h

theorem follows_nil : Follows cfg [] := ⟨[], List.nil_prefix, .nil⟩

theorem handshake_speaks : Speaks cfg (handshake cfg) (Resumes cfg) [] := by
  refine Speaks.bind (P := fun r log => match r with
    | .ok packet => Owing cfg (Turn.greet cfg packet).deeds (Turn.greet cfg packet).goesOn log
    | .error _ => Follows cfg log) (.attempt fun _ r => ?_) fun r log h => ?_
  · cases r with
    | ok packet => exact ⟨Owing.first.follows, Owing.first⟩
    | error x =>
        rw [Server.emits_error]
        exact ⟨follows_nil, follows_nil⟩
  · split
    · exact stops_speaks (.inr rfl) h
    · exact stops_speaks (.inr rfl) h
    · exact .raise h
    · next packet =>
        dsimp only at h
        rw [Turn.greet] at h
        split
        · next htype => exact stops_speaks (.inr rfl) h.follows
        · next htype =>
            rw [if_pos (not_not.mp htype)] at h
            refine (parsed_speaks h.follows).bind ?_
            rintro connectInfo _ ⟨hinfo, rfl⟩
            rw [hinfo] at h
            dsimp only at h
            by_cases hpassword : connectInfo.password = some cfg.accessCode
            · rw [if_pos hpassword] at h
              rw [if_neg (not_not.mpr hpassword), buildConnack_encode (by decide)]
              exact (send_speaks h).bind fun _ _ h => join_speaks h
            · rw [if_neg hpassword] at h
              rw [if_pos hpassword, buildConnack_encode (by decide)]
              exact (send_speaks h).bind fun _ _ h => stops_speaks (.inr rfl) h.follows

theorem quiet_speaks {i : Op} (hi : ∀ r, Server.emits i r = none) (h : Follows cfg log) :
    Speaks cfg (ask i) (fun _ => Follows cfg) log :=
  .silent hi h fun _ => h

theorem depart_speaks (h : Follows cfg log) : Speaks cfg depart (Resumes cfg) log := by
  refine Speaks.bind (P := fun _ => Follows cfg) (fun s => ?_) fun _ _ h => stops_speaks (.inr rfl) h
  have hboth := (quiet_speaks (i := .cancelPending) (fun _ => rfl) h).bind fun _ _ h => quiet_speaks (i := .gatherPending) (fun _ => rfl) h
  refine Tells.tryFinally _ _ (Tells.mono _ ?_ s log (hboth s))
  intro r s log h
  have hlog : Follows cfg log := by
    cases r <;> exact h
  refine Tells.mono _ ?_ s log (quiet_speaks (i := .unregister) (fun _ => rfl) hlog s)
  intro u s log h
  have hlog : Follows cfg log := by
    cases u <;> exact h
  cases u with
  | error x => exact hlog
  | ok _ => cases r <;> exact hlog

theorem closeWriter_speaks (h : Follows cfg log) : Speaks cfg closeWriter (fun _ => Follows cfg) log := by
  refine (quiet_speaks (i := .close) (fun _ => rfl) h).bind fun _ log h s => ?_
  refine Tells.tryCatch _ _ (Tells.mono _ ?_ s log (quiet_speaks (i := .waitClosed 2) (fun _ => rfl) h s))
  intro r s log h
  cases r with
  | ok _ => exact h
  | error x =>
      dsimp only
      split
      · exact quiet_speaks (i := .abort) (fun _ => rfl) h s
      · exact h
      · exact h
      · exact h

end ClientSession

def Standing (cfg : ServerSettings) : ClientSession.Label → List Event → Prop
  | .connecting, log => log = []
  | .serving, log => Owing cfg [] true log
  | _, log => Follows cfg log

-- One packet after the other, from the front of a stream.
inductive Decodes : List UInt8 → List MQTTPacket → List UInt8 → Prop where
  | nil (bytes : List UInt8) : Decodes bytes [] bytes
  | cons {bytes rest last : List UInt8} {packet : MQTTPacket} {packets : List MQTTPacket}
      (h : readPacket bytes = (.ok packet, rest)) (hs : Decodes rest packets last) : Decodes bytes (packet :: packets) last

namespace Decodes

variable {bytes rest last : List UInt8} {packet : MQTTPacket} {received : List MQTTPacket}

theorem snoc (h : Decodes bytes received rest) (hp : readPacket rest = (.ok packet, last)) :
    Decodes bytes (received ++ [packet]) last := by
  induction h with
  | nil bytes => exact .cons hp (.nil last)
  | cons hfirst _ ih => exact .cons hfirst (ih hp)

theorem append (h : Decodes bytes received rest) (more : List UInt8) : Decodes (bytes ++ more) received (rest ++ more) := by
  induction h with
  | nil bytes => exact .nil _
  | cons hfirst _ ih => exact .cons ((readPacket_ok hfirst).2 more) ih

end Decodes

section

variable {cfg : ServerSettings} {J : Codec} {log : List Event}

theorem Resumes.standing {next : ClientSession.Label} (h : ClientSession.Resumes cfg next log) : Standing cfg next log := by
  obtain ⟨hfollows, hserving, hnext⟩ := h
  cases next with
  | connecting => exact absurd rfl hnext
  | serving => exact hserving rfl
  | ending => exact hfollows
  | closing => exact hfollows

theorem rescue_standing {l next : ClientSession.Label} {x : Exc} (hnext : ClientSession.rescue l x = some next)
    (h : Follows cfg log) : Standing cfg next log := by
  cases l <;> cases hnext <;> exact h

theorem turn_tells {turn : ClientSession ClientSession.Label} {l : ClientSession.Label}
    (h : ClientSession.Speaks cfg turn (ClientSession.Resumes cfg) log) (j : Nat) (s : Keepalive) :
    Tells Server.emits (Follows cfg) (turn >>= fun next => pure (some next))
      (Narrated.Lands (mqttServer cfg J) (fun _ l _ => Standing cfg l) j l) s log := by
  refine Tells.bind _ _ s log (Tells.mono turn ?_ s log (h s))
  intro r s log hr
  cases r with
  | ok next =>
      rintro _ ⟨⟩
      exact Resumes.standing hr
  | error x => exact fun next hnext => rescue_standing hnext hr

theorem body_tells (j : Nat) (l : ClientSession.Label) (s : Keepalive) (log : List Event) (h : Standing cfg l log) :
    Tells Server.emits (Follows cfg) (ClientSession.body cfg l)
      (Narrated.Lands (mqttServer cfg J) (fun _ l _ => Standing cfg l) j l) s log := by
  cases l with
  | connecting =>
      cases h
      exact turn_tells ClientSession.handshake_speaks j s
  | serving => exact turn_tells (ClientSession.receive_speaks h) j s
  | ending => exact turn_tells (ClientSession.depart_speaks h) j s
  | closing =>
      refine Tells.bind _ _ s log (Tells.mono _ ?_ s log (ClientSession.closeWriter_speaks h s))
      intro r s log _
      cases r with
      | ok _ => rintro _ ⟨⟩
      | error x => rintro _ ⟨⟩

namespace Server

variable {v : Option (Nat × Event)} {e e' : Server}

def input (l : Link) : List UInt8 × List UInt8 := (l.arrived, l.unread)

theorem Change.input (h : Change cfg J v e e') (k : Nat) :
    (∃ packet rest, v = some (k, .read packet) ∧ readPacket (e.links k).unread = (.ok packet, rest) ∧
      Server.input (e'.links k) = ((e.links k).arrived, rest)) ∨
    (packets (entry v k) = [] ∧ ∃ data,
      Server.input (e'.links k) = ((e.links k).arrived ++ data, (e.links k).unread ++ data)) := by
  have hsame : ∀ {e' : Server}, packets (entry v k) = [] → Server.input (e'.links k) = Server.input (e.links k) →
      packets (entry v k) = [] ∧ ∃ data,
        Server.input (e'.links k) = ((e.links k).arrived ++ data, (e.links k).unread ++ data) := by
    intro e' hv hinput
    exact ⟨hv, [], by rw [hinput, List.append_nil, List.append_nil]; rfl⟩
  have hsilent : ∀ {j : Nat} {x : Event}, x.packet = none → packets (entry (some (j, x)) k) = [] := by
    intro j x hx
    rw [entry]
    split
    · simp [packets, hx]
    · rfl
  cases h with
  | quiet h => exact .inr (hsame rfl (by rw [Server.input, (h.links k).arrived, (h.links k).unread]; rfl))
  | @read _ j packet rest hread =>
      by_cases hk : k = j
      · subst hk
        exact .inl ⟨packet, rest, rfl, hread, by simp [Server.input, took, note, setLink]⟩
      · refine .inr (hsame (by rw [entry, if_neg hk]; rfl) ?_)
        simp [Server.input, took, note, setLink, hk]
  | wrote =>
      refine .inr (hsame (hsilent rfl) ((note_same Server.input fun _ _ => rfl).trans ?_))
      exact put_same Server.input fun _ _ => rfl
  | @joined _ j _ _ =>
      refine .inr (hsame (hsilent rfl) ((note_same Server.input fun _ _ => rfl).trans ?_))
      have hact := act_links cfg J e (.register (e.links j).peer.clientId (e.links j).peer.sockname)
      rw [← hact]
      exact setLink_same Server.input fun _ => rfl
  | refused _ => exact .inr (hsame rfl (by rw [act_links]))
  | handed => exact .inr (hsame (hsilent rfl) (note_same (e := e) Server.input fun _ _ => rfl))
  | snapshot =>
      refine .inr (hsame (hsilent rfl) ((note_same Server.input fun _ _ => rfl).trans ?_))
      rw [onClient_links]
  | departs _ h =>
      refine .inr (hsame rfl ?_)
      rw [Server.input, (h.links k).arrived, (h.links k).unread, onClient_links]
      rfl
  | closed => exact .inr (hsame rfl (setLink_same Server.input fun _ => rfl))
  | @received _ j data =>
      by_cases hk : k = j
      · subst hk
        exact .inr ⟨rfl, data, by simp [Server.input, setLink]⟩
      · exact .inr (hsame rfl (by simp [Server.input, setLink, hk]))
  | sent _ _ _ => exact .inr (hsame rfl (put_same Server.input fun _ _ => rfl))
  | relayed _ _ h => exact .inr (hsame rfl (by rw [Server.input, (h.links k).arrived, (h.links k).unread]; rfl))

theorem follows_runs {peers : Nat → Peer} {c : ServerConfig}
    (hrun : (mqttServer cfg J).Runs (fun _ _ _ => True) (listening peers) c) (j : Nat) : Follows cfg (c.env.links j).log := by
  have hbody : ∀ (j : Nat) l s log, Standing cfg l log →
      Tells (Server.narrated cfg J).emits (Follows cfg) ((mqttServer cfg J).body l)
        (Narrated.Lands (mqttServer cfg J) (fun _ l _ => Standing cfg l) j l) s log := body_tells
  exact Narrated.runs hbody (fun _ _ _ _ _ => rfl) (fun _ => ClientSession.follows_nil) (fun _ => rfl) hrun j

theorem decoded_runs {peers : Nat → Peer} {c : ServerConfig}
    (hrun : (mqttServer cfg J).Runs (fun _ _ _ => True) (listening peers) c) (j : Nat) :
    Decodes (c.env.links j).arrived (packets (c.env.links j).log) (c.env.links j).unread := by
  refine keeps (X := fun e => ∀ j, Decodes (e.links j).arrived (packets (e.links j).log) (e.links j).unread)
    (fun v e e' h hchange k => ?_) hrun (fun _ => .nil []) j
  rcases hchange.input k with ⟨packet, rest, rfl, hread, hinput⟩ | ⟨hsilent, data, hinput⟩
  · obtain ⟨harrived, hunread⟩ := Prod.mk.inj hinput
    rw [harrived, hunread, hchange.log k, packets_append, entry, if_pos rfl]
    exact (h k).snoc hread
  · obtain ⟨harrived, hunread⟩ := Prod.mk.inj hinput
    rw [harrived, hunread, hchange.log k, packets_append, hsilent, List.append_nil]
    exact (h k).append data

end Server

-- The log of a client's handler is what the client's own packets ask for, as far as it has come.
structure Conversed (cfg : ServerSettings) (l : Link) : Prop where
  follows : Follows cfg l.log
  decoded : Decodes l.arrived (packets l.log) l.unread

theorem session_conversation {peers : Nat → Peer} {c : ServerConfig}
    (hrun : (mqttServer cfg J).Runs (fun _ _ _ => True) (listening peers) c) (j : Nat) : Conversed cfg (c.env.links j) where
  follows := Server.follows_runs hrun j
  decoded := Server.decoded_runs hrun j

end

theorem session_conversation_publish : ∃ c,
    (mqttServer home plain).runActs (listening household) (dials ++ joins 0 ++ publishes 0) = some c ∧
      Conversed home (c.env.links 0) := by
  obtain ⟨c, hc⟩ := Option.isSome_iff_exists.mp (by decide +kernel :
    ((mqttServer home plain).runActs (listening household) (dials ++ joins 0 ++ publishes 0)).isSome = true)
  exact ⟨c, hc, session_conversation (System.runActs_runs _ _ hc) 0⟩

end PandaProxy.Mqtt
