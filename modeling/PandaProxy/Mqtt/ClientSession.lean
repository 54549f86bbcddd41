import Mathlib.Algebra.Order.Ring.Unbundled.Rat
import PandaProxy.Async.Coro
import PandaProxy.Mqtt.Answers
import PandaProxy.Mqtt.Broadcast
import PandaProxy.Mqtt.TopicFilter

namespace PandaProxy.Mqtt

open Async Python

def clientConnectTimeout : ℚ := 10

def upstreamWaitTimeout : ℚ := 30

structure ServerSettings extends MqttSettings where
  accessCode : String

-- `read_packet` and the awaits of a client's handler end in one of these, or they return.
inductive Exc where
  | timeout
  | cancelled
  | incompleteRead
  | valueError
  | structError
  | mqttError
  | ssl
  | os
  | other
  deriving DecidableEq, Repr

-- What `_handle_client` and `_client_recv_loop` ask of everything around them.
inductive Op where
  | running
  | readPacket (timeout : ℚ)
  | write (data : List UInt8)
  | drain
  | upstreamConnected
  | waitUpstream (timeout : ℚ)
  -- From `queue = asyncio.Queue(...)` to both loops running, or to there being no address to advertise.
  | register
  -- `Lock.acquire`: the lock is taken at once, or there is a wait for it.
  | acquireLock
  | lockGranted
  | releaseLock
  | upstreamClient
  -- `client.publish` as it hands the message over, and its wait for the message to be out.
  | publish (client : Nat) (topic : String) (payload : List UInt8) (qos : Nat)
  | confirmed
  | createSnapshotTask
  | cancelPending
  | gatherPending
  | unregister
  | close
  | waitClosed (timeout : ℚ)
  | abort
  deriving DecidableEq

@[reducible]
def Op.Answer : Op → Type
  | .running => Bool
  | .readPacket _ => MQTTPacket
  | .upstreamConnected => Bool
  | .register => Bool
  | .acquireLock => Bool
  | .upstreamClient => Option Nat
  | _ => Unit

-- What one handler keeps to itself: `connect_info.keepalive`.
structure Keepalive where
  keepalive : Nat

abbrev ClientSession (α : Type) := Coro Keepalive Op Op.Answer Exc α

namespace ClientSession

inductive Label where
  | connecting
  | serving
  | ending
  | closing
  deriving DecidableEq, Repr

abbrev ask (i : Op) : ClientSession i.Answer := Coro.perform i

-- A parser raises nothing but `ValueError`.
def parsed {α : Type} : Except ParseError α → ClientSession α
  | .ok a => pure a
  | .error _ => Coro.raise .valueError

def send : Option (List UInt8) → ClientSession Unit
  | some data => do
      ask (.write data)
      ask .drain
  | none => Coro.raise .structError

def acquire : ClientSession Unit := do
  let taken ← ask .acquireLock
  if taken then pure () else ask .lockGranted

def forwardToUpstream (topic : String) (payload : List UInt8) (qos : Nat) : ClientSession Unit := do
  let running ← ask .running
  if !running then pure ()
  else do
    acquire
    Coro.tryFinally (do
      let client ← ask .upstreamClient
      match client with
      | some client =>
          Coro.suppress (fun x => decide (x = .mqttError)) (do
            ask (.publish client topic payload qos)
            ask .confirmed)
      | none => pure ()) (ask .releaseLock)

def acknowledge (info : PublishInfo) : ClientSession Unit :=
  match info.packetId with
  | some packetId => if info.qos = 1 then send (buildPuback packetId) else pure ()
  | none => pure ()

def handlePublish (pkt : MQTTPacket) : ClientSession Label := do
  let info ← parsed (parsePublish pkt.flags pkt.payload)
  acknowledge info
  forwardToUpstream info.topic info.payload 0
  pure .serving

def handleSubscribe (cfg : ServerSettings) (pkt : MQTTPacket) : ClientSession Label := do
  let (packetId, topics) ← parsed (parseSubscribe pkt.payload)
  send (buildSuback packetId (List.replicate topics.length 0))
  if topics.any fun entry => topicMatches entry.1 cfg.reportTopic then ask .createSnapshotTask else pure ()
  pure .serving

def handleUnsubscribe (pkt : MQTTPacket) : ClientSession Label := do
  let (packetId, _) ← parsed (parseUnsubscribe pkt.payload)
  send (buildUnsuback packetId)
  pure .serving

def handlePacket (cfg : ServerSettings) (pkt : MQTTPacket) : ClientSession Label :=
  if pkt.packetType = PacketType.publish then handlePublish pkt
  else if pkt.packetType = PacketType.subscribe then handleSubscribe cfg pkt
  else if pkt.packetType = PacketType.unsubscribe then handleUnsubscribe pkt
  else if pkt.packetType = PacketType.pingreq then do
    send (some buildPingresp)
    pure .serving
  else if pkt.packetType = PacketType.puback then pure .serving
  else if pkt.packetType = PacketType.disconnect then pure .ending
  else pure .serving

def packetTimeout (keepalive : Nat) : ℚ := if keepalive > 0 then keepalive * (3 / 2) else 120

-- One turn of `_client_recv_loop`.
def receive (cfg : ServerSettings) : ClientSession Label := do
  let running ← ask .running
  if !running then pure .ending
  else do
    let s ← Coro.get
    let outcome ← Coro.attempt (ask (.readPacket (packetTimeout s.keepalive)))
    match outcome with
    | .ok pkt => handlePacket cfg pkt
    | .error .timeout => pure .ending
    | .error x => Coro.raise x

def waitForUpstream : ClientSession Bool := do
  let connected ← ask .upstreamConnected
  if connected then pure true
  else do
    let outcome ← Coro.attempt (ask (.waitUpstream upstreamWaitTimeout))
    match outcome with
    | .ok _ => pure true
    | .error .timeout => pure false
    | .error x => Coro.raise x

def join (connectInfo : ConnectInfo) : ClientSession Label := do
  let connected ← waitForUpstream
  if !connected then pure .closing
  else do
    let registered ← ask .register
    if registered then do
      Coro.modify fun _ => ⟨connectInfo.keepalive⟩
      pure .serving
    else pure .closing

def handshake (cfg : ServerSettings) : ClientSession Label := do
  let outcome ← Coro.attempt (ask (.readPacket clientConnectTimeout))
  match outcome with
  | .error .timeout => pure .closing
  | .error .incompleteRead => pure .closing
  | .error x => Coro.raise x
  | .ok pkt =>
      if pkt.packetType ≠ PacketType.connect then pure .closing
      else do
        let connectInfo ← parsed (parseConnect pkt.payload)
        if connectInfo.password ≠ some cfg.accessCode then do
          send (buildConnack connackNotAuthorized false)
          pure .closing
        else do
          send (buildConnack connackAccepted false)
          join connectInfo

-- From the first of the two loops to end, up to where the client is no longer registered.
def depart : ClientSession Label := do
  Coro.tryFinally (do
    ask .cancelPending
    ask .gatherPending) (ask .unregister)
  pure .closing

def closeWriter : ClientSession Unit := do
  ask .close
  Coro.tryCatch (ask (.waitClosed 2)) fun x =>
    match x with
    | .timeout => ask .abort
    | .os => pure ()
    | .ssl => pure ()
    | x => Coro.raise x

def body (cfg : ServerSettings) : Label → ClientSession (Option Label)
  | .connecting => do
      let next ← handshake cfg
      pure (some next)
  | .serving => do
      let next ← receive cfg
      pure (some next)
  | .ending => do
      let next ← depart
      pure (some next)
  | .closing => do
      closeWriter
      pure none

-- Where an exception leads: each loop and each `finally` clause is followed by the next.
def rescue : Label → Exc → Option Label
  | .connecting, _ => some .closing
  | .serving, _ => some .ending
  | .ending, _ => some .closing
  | .closing, _ => none

end ClientSession

end PandaProxy.Mqtt
