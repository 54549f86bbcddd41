import PandaProxy.Async.Narration
import PandaProxy.Mqtt.ClientSession

namespace PandaProxy.Mqtt

open Async Json Python

-- What came of the calls of one handler.
inductive Event where
  | read (packet : MQTTPacket)
  | wrote (data : List UInt8)
  | joined
  | handed (topic : String) (payload : List UInt8) (qos : Nat)
  | snapshot
  deriving DecidableEq

-- Whether `drain` returns at once, waits, or raises.
inductive Flow where
  | free
  | stalled
  | lost
  deriving DecidableEq, Repr

inductive Outgoing where
  | answer (data : List UInt8)
  | report (packet : Publish)

namespace Outgoing

def bytes : Outgoing → List UInt8
  | answer data => data
  | report packet => (buildPublish packet.topic packet.payload 0 0).getD []

def answered : Outgoing → Option (List UInt8)
  | answer data => some data
  | report _ => none

def reported : Outgoing → Option Publish
  | answer _ => none
  | report packet => some packet

end Outgoing

structure Peer where
  clientId : String
  sockname : Option String

structure Link where
  peer : Peer
  arrived : List UInt8
  unread : List UInt8
  eof : Bool
  flow : Flow
  -- The event `_upstream_connected` was set while the handler waited for it.
  woken : Bool
  cancelling : Bool
  -- The exception of a lost connection, which the reader raises from then on.
  failure : Option Exc
  closed : Bool
  client : Option Nat
  sent : List Outgoing
  log : List Event

def Link.init (peer : Peer) : Link := ⟨peer, [], [], false, .free, false, false, none, false, none, [], []⟩

-- A handler, or a task that asks the printer for its state or its versions.
inductive Holder where
  | handler (j : Nat)
  | request (r : Nat)
  deriving DecidableEq, Repr

-- `asyncio.Lock`: nobody overtakes those who wait.
structure Lock where
  holder : Option Holder
  waiters : List Holder

namespace Lock

def acquire (l : Lock) (h : Holder) : Bool × Lock :=
  match l.holder, l.waiters with
  | none, [] => (true, ⟨some h, []⟩)
  | holder, waiters => (false, ⟨holder, waiters ++ [h]⟩)

def grant (l : Lock) (h : Holder) : Option Lock :=
  match l.holder, l.waiters with
  | none, first :: rest => if first = h then some ⟨some h, rest⟩ else none
  | _, _ => none

def drop (l : Lock) (h : Holder) : Lock := { l with waiters := l.waiters.filter fun waiter => waiter ≠ h }

def release (l : Lock) : Lock := { l with holder := none }

end Lock

structure Handed where
  session : Nat
  client : Nat
  topic : String
  payload : List UInt8
  qos : Nat

-- Where `_upstream_connection_loop` is on its way to the messages.
inductive Dialling where
  | idle
  | dialling
  | attached
  | ready
  deriving DecidableEq, Repr

structure Server where
  proxy : MQTTProxy
  running : Bool
  upstreamClient : Option Nat
  upstreamConnected : Bool
  upstreamLock : Lock
  dialling : Dialling
  attempts : Nat
  -- How the printer's connection takes a message that is published on it now.
  refusal : Option Exc
  handed : List Handed
  links : Nat → Link
  -- A handler took a step that the registry does not have.
  stray : Bool

namespace Server

def init (peers : Nat → Peer) : Server where
  proxy := .init
  running := true
  upstreamClient := none
  upstreamConnected := false
  upstreamLock := ⟨none, []⟩
  dialling := .idle
  attempts := 0
  refusal := none
  handed := []
  links j := .init (peers j)
  stray := false

def setLink (e : Server) (j : Nat) (f : Link → Link) : Server :=
  { e with links := Function.update e.links j (f (e.links j)) }

def note (e : Server) (j : Nat) (v : Event) : Server := e.setLink j fun l => { l with log := l.log ++ [v] }

def isClosed (e : Server) (j : Nat) : Bool :=
  (e.links j).closed || match (e.links j).client with
    | some c => (e.proxy.conn c).closed
    | none => false

def put (e : Server) (j : Nat) (packet : Outgoing) : Server :=
  if e.isClosed j then e else e.setLink j fun l => { l with sent := l.sent ++ [packet] }

def took (e : Server) (j : Nat) (packet : MQTTPacket) (rest : List UInt8) : Server :=
  (e.setLink j fun l => { l with unread := rest }).note j (.read packet)

def act (cfg : ServerSettings) (J : Codec) (e : Server) (a : MQTTProxy.Act) : Server :=
  match MQTTProxy.step cfg.toMqttSettings J e.proxy a with
  | some proxy => { e with proxy := proxy }
  | none => { e with stray := true }

def onClient (cfg : ServerSettings) (J : Codec) (e : Server) (j : Nat) (a : Nat → MQTTProxy.Act) : Server :=
  match (e.links j).client with
  | some c => e.act cfg J (a c)
  | none => { e with stray := true }

-- Whether `_client_send_loop` still runs.
def sending (e : Server) (j : Nat) : Bool :=
  match (e.links j).client with
  | some c => decide ((e.proxy.conn c).stage = .serving)
  | none => false

def cancelPending (cfg : ServerSettings) (J : Codec) (e : Server) (j : Nat) : Server :=
  if e.sending j then e.onClient cfg J j .finish else e

def register (cfg : ServerSettings) (J : Codec) (e : Server) (j : Nat) : Bool × Server :=
  let peer := (e.links j).peer
  let e' := e.act cfg J (.register peer.clientId peer.sockname)
  match MQTTProxy.advertisedAddress cfg.toMqttSettings peer.sockname with
  | some _ => (true, (e'.setLink j fun l => { l with client := some e.proxy.accepted }).note j .joined)
  | none => (false, e')

def publish (e : Server) (j client : Nat) (topic : String) (payload : List UInt8) (qos : Nat) : Except Exc Unit × Server :=
  match e.refusal with
  | some x => (.error x, e)
  | none => (.ok (), { e.note j (.handed topic payload qos) with handed := e.handed ++ [⟨j, client, topic, payload, qos⟩] })

-- What is answered without a switch to another task.
def sync (cfg : ServerSettings) (J : Codec) (j : Nat) : (i : Op) → Server → Option (Except Exc i.Answer × Server)
  | .running, e => some (.ok e.running, e)
  | .readPacket _, e =>
      if (e.links j).cancelling then some (.error .cancelled, e.setLink j fun l => { l with cancelling := false })
      else
        match (e.links j).failure, readPacket (e.links j).unread with
        | some x, _ => some (.error x, e)
        | none, (.ok packet, rest) => some (.ok packet, e.took j packet rest)
        | none, (.error (.valueError _), _) => some (.error .valueError, e)
        | none, (.error (.incompleteRead _ _), _) => if (e.links j).eof then some (.error .incompleteRead, e) else none
  | .write data, e => some (.ok (), (e.put j (.answer data)).note j (.wrote data))
  | .drain, e =>
      match (e.links j).flow with
      | .free => some (.ok (), e)
      | .stalled => none
      | .lost => some (.error .os, e)
  | .upstreamConnected, e => some (.ok e.upstreamConnected, e.setLink j fun l => { l with woken := false })
  | .waitUpstream _, _ => none
  | .register, e => some (.ok (e.register cfg J j).1, (e.register cfg J j).2)
  | .acquireLock, e =>
      some (.ok (e.upstreamLock.acquire (.handler j)).1, { e with upstreamLock := (e.upstreamLock.acquire (.handler j)).2 })
  | .lockGranted, _ => none
  | .releaseLock, e => some (.ok (), { e with upstreamLock := e.upstreamLock.release })
  | .upstreamClient, e => some (.ok e.upstreamClient, e)
  | .publish client topic payload qos, e => some (e.publish j client topic payload qos)
  | .confirmed, _ => none
  | .createSnapshotTask, e => some (.ok (), (e.onClient cfg J j .subscribe).note j .snapshot)
  | .cancelPending, e => some (.ok (), e.cancelPending cfg J j)
  | .gatherPending, _ => none
  | .unregister, e => some (.ok (), e.onClient cfg J j .leave)
  | .close, e => some (.ok (), e.setLink j fun l => { l with closed := true })
  | .waitClosed _, _ => none
  | .abort, e => some (.ok (), e)

def awaken (e : Server) (j : Nat) : (i : Op) → Except Exc i.Answer → Option Server
  | .readPacket _, .ok packet =>
      match readPacket (e.links j).unread with
      | (.ok found, rest) => if found = packet then some (e.took j packet rest) else none
      | _ => none
  | .readPacket _, .error .valueError =>
      match readPacket (e.links j).unread with
      | (.error (.valueError _), _) => some e
      | _ => none
  | .readPacket _, .error .incompleteRead => if (e.links j).eof then some e else none
  | .readPacket _, .error .timeout => some e
  | .readPacket _, .error .ssl => if (e.links j).failure = some .ssl then some e else none
  | .readPacket _, .error .os => if (e.links j).failure = some .os then some e else none
  | .drain, .ok _ => some e
  | .drain, .error .ssl => some e
  | .drain, .error .os => some e
  | .waitUpstream _, .ok _ => if (e.links j).woken then some e else none
  | .waitUpstream _, .error .timeout => some e
  | .lockGranted, .ok _ => (e.upstreamLock.grant (.handler j)).map fun l => { e with upstreamLock := l }
  | .confirmed, .ok _ => some e
  | .confirmed, .error .mqttError => some e
  | .confirmed, .error .other => some e
  | .gatherPending, .ok _ => some e
  | .waitClosed _, .ok _ => some e
  | .waitClosed _, .error .timeout => some e
  | .waitClosed _, .error .ssl => some e
  | .waitClosed _, .error .os => some e
  | _, _ => none

-- A task that has been cancelled goes on in no other way than with the `CancelledError`.
def resume (j : Nat) (i : Op) (r : Except Exc i.Answer) (e : Server) : Option Server :=
  if (e.links j).cancelling then
    match r with
    | .error .cancelled =>
        some { e.setLink j fun l => { l with cancelling := false } with
          upstreamLock := e.upstreamLock.drop (.handler j) }
    | _ => none
  else e.awaken j i r

-- The turns of everything that is not a handler or its `_client_recv_loop`.
inductive Tick where
  | receive (j : Nat) (data : List UInt8)
  | hangUp (j : Nat)
  | flow (j : Nat) (f : Flow)
  | breaks (j : Nat) (x : Exc)
  -- `_client_send_loop`, and the handler as it finds that this loop has ended.
  | send (j : Nat)
  | sendEnds (j : Nat)
  | cancel (j : Nat)
  -- `_upstream_connection_loop`.
  | dial
  | attach
  | subscribed
  | detach
  | connect
  | lose
  | printer (a : MQTTProxy.Act)
  | refusal (x : Option Exc)
  | request (r : Nat)
  | grant (r : Nat)
  | drop (r : Nat)
  | release (r : Nat)
  | stop

-- What the other tasks of `MQTTProxy` do to its clients.
def relays : MQTTProxy.Act → Bool
  | .message _ _ => true
  | .hungUp => true
  | .fail => true
  | .replay _ => true
  | .giveUp _ => true
  | .replayHungUp _ => true
  | _ => false

def away (e : Server) : Server :=
  { e with upstreamClient := none, upstreamConnected := false, dialling := .idle }

def tick (cfg : ServerSettings) (J : Codec) (e : Server) : Tick → Option Server
  | .receive j data =>
      if (e.links j).eof then none
      else some (e.setLink j fun l => { l with arrived := l.arrived ++ data, unread := l.unread ++ data })
  | .hangUp j => some (e.setLink j fun l => { l with eof := true })
  | .flow j f => some (e.setLink j fun l => { l with flow := f })
  | .breaks j x =>
      if x ∈ [.os, .ssl, .timeout] then some (e.setLink j fun l => { l with failure := some x }) else none
  | .send j =>
      match (e.links j).client with
      | some c =>
          match (e.proxy.conn c).queue with
          | packet :: _ =>
              (MQTTProxy.step cfg.toMqttSettings J e.proxy (.send c)).map fun proxy =>
                { e.put j (.report packet) with proxy := proxy }
          | [] => none
      | none => none
  | .sendEnds j =>
      match (e.links j).client with
      | some c =>
          (MQTTProxy.step cfg.toMqttSettings J e.proxy (.finish c)).map fun proxy =>
            { e.setLink j fun l => { l with cancelling := true } with proxy := proxy }
      | none => none
  | .cancel j => some (e.setLink j fun l => { l with cancelling := true })
  | .dial => if e.running && e.dialling = .idle then some { e with dialling := .dialling } else none
  | .attach =>
      if e.dialling = .dialling then
        some { e with dialling := .attached, upstreamClient := some e.attempts, attempts := e.attempts + 1 }
      else none
  | .subscribed =>
      if e.dialling = .attached then
        some { e with dialling := .ready, upstreamConnected := true, links := fun j => { e.links j with woken := true } }
      else none
  | .detach =>
      match e.proxy.upstream with
      | .away => some e.away
      | _ => none
  | .connect =>
      if e.dialling = .ready then
        (MQTTProxy.step cfg.toMqttSettings J e.proxy .connect).map fun proxy => { e with proxy := proxy }
      else none
  | .lose => (MQTTProxy.step cfg.toMqttSettings J e.proxy .lose).map fun proxy => { e.away with proxy := proxy }
  | .printer a =>
      if relays a then
        (MQTTProxy.step cfg.toMqttSettings J e.proxy a).map fun proxy => { e with proxy := proxy }
      else none
  | .refusal x => some { e with refusal := x }
  | .request r => some { e with upstreamLock := (e.upstreamLock.acquire (.request r)).2 }
  | .grant r => (e.upstreamLock.grant (.request r)).map fun l => { e with upstreamLock := l }
  | .drop r => some { e with upstreamLock := e.upstreamLock.drop (.request r) }
  | .release r =>
      if e.upstreamLock.holder = some (.request r) then some { e with upstreamLock := e.upstreamLock.release } else none
  -- The first step of `stop`.
  | .stop => some { e with running := false, upstreamClient := none }

abbrev world (cfg : ServerSettings) (J : Codec) (j : Nat) : World Server Op Op.Answer Exc := ⟨sync cfg J j, resume j⟩

end Server

def mqttServer (cfg : ServerSettings) (J : Codec) :
    System Nat ClientSession.Label Keepalive Server Op Op.Answer Exc Server.Tick where
  first := .connecting
  body := ClientSession.body cfg
  rescue := ClientSession.rescue
  world := Server.world cfg J
  spawn _ e := some (⟨0⟩, e)
  tick b e := e.tick cfg J b

abbrev ServerConfig := Config Nat ClientSession.Label Keepalive Server Op Op.Answer Exc

abbrev ServerAct := Act Nat Op Op.Answer Exc Server.Tick

def listening (peers : Nat → Peer) : ServerConfig := ⟨fun _ => .idle, .init peers⟩

def home : ServerSettings := ⟨⟨"01S00C", some "192.168.1.2", fun _ => none⟩, "12345678"⟩

def household (_ : Nat) : Peer := ⟨"('192.168.1.7', 50000)", some "172.17.0.2"⟩

def connectRequest : List UInt8 :=
  [0x10, 29, 0, 4, 77, 81, 84, 84, 4, 0xC2, 0, 60, 0, 1, 97, 0, 4, 98, 98, 108, 112, 0, 8, 49, 50, 51, 52, 53, 54, 55, 56]

def publishRequest : List UInt8 := [0x32, 7, 0, 1, 114, 0, 7, 111, 110]

def dials : List ServerAct := [.tick .dial, .tick .attach, .tick .subscribed, .tick .connect]

def joins (j : Nat) : List ServerAct := [.spawn j, .tick (.receive j connectRequest), .run j]

def publishes (j : Nat) : List ServerAct :=
  [.tick (.receive j publishRequest), .run j, .resume j .confirmed (.ok ())]

end PandaProxy.Mqtt
