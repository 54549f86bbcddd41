import PandaProxy.Async.System
import PandaProxy.FtpProxy.ControlSession
import PandaProxy.FtpProxy.Relay
import PandaProxy.FtpQueue.DataPortPool
import PandaProxy.FtpQueue.SlotRuns

namespace PandaProxy.FtpProxy

open Async FtpQueue

-- What has gone over the two control connections of one session. A command to the printer is noted
-- with the session's latest passive relay as it is at that moment.
inductive Event where
  | received (raw : List UInt8)
  | told (line : String)
  | opened
  | closed
  | asked (request : Request) (relay : Option Relay)
  | answered (reply : Option String)
  | examined (phase : Phase)

-- Whether `drain` on a connection returns at once, waits, or raises.
inductive Flow where
  | free
  | stalled
  | lost
  deriving DecidableEq, Repr

-- `_await_client_gone` as a task.
inductive Helper where
  | absent
  | polling
  | cancelling
  | returned
  | cancelled
  deriving DecidableEq, Repr

namespace Helper

def done : Helper → Bool
  | returned => true
  | cancelled => true
  | _ => false

def cancel : Helper → Helper
  | polling => cancelling
  | h => h

def turn : Helper → Option Helper
  | polling => some returned
  | cancelling => some cancelled
  | _ => none

end Helper

inductive ReplyTask where
  | absent
  | reading
  | cancelling
  | finished (outcome : Except Exc (Option String))

namespace ReplyTask

def outcome : ReplyTask → Option (Except Exc (Option String))
  | finished r => some r
  | _ => none

def cancel : ReplyTask → ReplyTask
  | reading => cancelling
  | t => t

end ReplyTask

structure Link where
  log : List Event
  inbox : List (Except Exc (List UInt8))
  clientFlow : Flow
  upstreamFlow : Flow
  upstream : Bool
  call : Option Nat
  gone : Helper
  reply : ReplyTask
  relay : Option Nat
  moved : Nat

namespace Link

def init : Link where
  log := []
  inbox := []
  clientFlow := .free
  upstreamFlow := .free
  upstream := false
  call := none
  gone := .absent
  reply := .absent
  relay := none
  moved := 0

end Link

structure Proxy where
  running : Bool
  now : ℚ
  queue : QueueRun
  strayRelease : Bool
  pool : DataPortPool
  relays : Nat → Relay
  reserved : Nat
  links : Nat → Link

namespace Proxy

def init (queue : SessionQueue) (pool : DataPortPool) : Proxy where
  running := true
  now := 0
  queue := .fresh queue
  strayRelease := false
  pool := pool
  relays := fun _ => .reserve 0 0
  reserved := 0
  links := fun _ => .init

def setLink (e : Proxy) (j : Nat) (f : Link → Link) : Proxy :=
  { e with links := Function.update e.links j (f (e.links j)) }

def setRelay (e : Proxy) (n : Nat) (x : Relay) : Proxy :=
  { e with relays := Function.update e.relays n x }

def note (e : Proxy) (j : Nat) (v : Event) : Proxy :=
  e.setLink j fun l => { l with log := v :: l.log }

def view (e : Proxy) (j : Nat) : Option Relay := (e.links j).relay.map e.relays

def callState (e : Proxy) (j : Nat) : Call :=
  match (e.links j).call with
  | some c => e.queue.calls c
  | none => .unborn

def acquired (e : Proxy) (j : Nat) : Bool :=
  match e.callState j with
  | .holding => true
  | .ended => true
  | _ => false

def queueAct (e : Proxy) (a : QueueAct) : Proxy :=
  match e.queue.step a with
  | some x => { e with queue := x }
  | none => e

def onCall (e : Proxy) (j : Nat) (a : Nat → QueueAct) : Proxy :=
  match (e.links j).call with
  | some c => e.queueAct (a c)
  | none => e

def giveBack (e : Proxy) (j : Nat) : Proxy :=
  if e.callState j = .holding then e.onCall j .release
  else
    { e with
      queue := e.queue.settle (e.queue.queue.release e.queue.futures)
      strayRelease := true }

def drained : Flow → Option (Except Exc Unit)
  | .free => some (.ok ())
  | .stalled => none
  | .lost => some (.error .connectionReset)

def reserve (e : Proxy) (j : Nat) : Option Int × Proxy :=
  match e.pool.acquire with
  | (none, _) => (none, e)
  | (some port, pool) =>
      (some port,
        { (e.setRelay e.reserved (.reserve j port)).setLink j
            (fun l => { l with relay := some e.reserved }) with
          pool := pool
          reserved := e.reserved + 1 })

def unbind (e : Proxy) (j : Nat) (port : Int) : Proxy :=
  match (e.links j).relay with
  | some n =>
      { e.setRelay n { e.relays n with phase := .unbound, released := (e.relays n).released + 1 } with
        pool := e.pool.release port }
  | none => { e with pool := e.pool.release port }

def received (e : Proxy) (j : Nat) : Except Exc (List UInt8) → Proxy
  | .ok raw => e.note j (.received raw)
  | .error _ => e

def answered (e : Proxy) (j : Nat) : Except Exc (Option String) → Proxy
  | .ok reply => e.note j (.answered reply)
  | .error _ => e

-- What is answered without a switch to another task.
def sync (j : Nat) : (i : Op) → Proxy → Option (Except Exc i.Answer × Proxy)
  | .running, e => some (.ok e.running, e)
  | .monotonic, e => some (.ok e.now, e)
  | .writeClient line, e => some (.ok (), e.note j (.told line))
  | .drainClient, e => (drained (e.links j).clientFlow).map (fun r => (r, e))
  | .readline _, e =>
      match (e.links j).inbox with
      | [] => none
      | r :: rest => some (r, (e.setLink j fun l => { l with inbox := rest }).received j r)
  | .createAcquire p, e =>
      some (.ok (), (e.setLink j fun l => { l with call := some e.queue.born }).queueAct (.create p))
  | .createGone, e => some (.ok (), e.setLink j fun l => { l with gone := .polling })
  | .waitSlot, _ => none
  | .acquireResult, e =>
      some (if e.callState j = .holding then .ok () else .error .cancelled, e)
  | .cancelGone, e => some (.ok (), e.setLink j fun l => { l with gone := l.gone.cancel })
  | .awaitGone, e =>
      match (e.links j).gone with
      | .returned => some (.ok (), e)
      | .cancelled => some (.error .cancelled, e)
      | _ => none
  | .cancelAcquire, e => some (.ok (), e.onCall j .cancel)
  | .awaitAcquire, e =>
      match e.callState j with
      | .holding => some (.ok (), e)
      | .ended => some (.error .cancelled, e)
      | _ => none
  | .queueRelease, e => some (.ok (), e.giveBack j)
  | .openConnection, _ => none
  | .writeUpstream request, e => some (.ok (), e.note j (.asked request (e.view j)))
  | .drainUpstream, e => (drained (e.links j).upstreamFlow).map (fun r => (r, e))
  | .readReply, _ => none
  | .closeUpstream, e =>
      some (.ok (), (e.setLink j fun l => { l with upstream := false }).note j .closed)
  | .upstreamClosed, e => if (e.links j).upstreamFlow = .lost then some (.ok (), e) else none
  | .abortUpstream, e => some (.ok (), e)
  | .closeClient, e => some (.ok (), e)
  | .clientClosed, e => if (e.links j).clientFlow = .lost then some (.ok (), e) else none
  | .abortClient, e => some (.ok (), e)
  | .acquirePort, e => some (.ok (e.reserve j).1, (e.reserve j).2)
  | .releasePort port, e => some (.ok (), e.unbind j port)
  | .startServer _, _ => none
  | .createSupervisor _, e =>
      match (e.links j).relay with
      | some n => some (.ok n, e.setRelay n { e.relays n with phase := .created })
      | none => some (.error .other, e)
  | .setMoved n, e => some (.ok (), e.setLink j fun l => { l with moved := n })
  | .moved, e => some (.ok (e.links j).moved, e)
  | .endpointDone n, e => some (.ok (e.relays n).endpoint.done, e)
  | .taskDone n, e =>
      some (.ok (decide ((e.relays n).phase = .over)), e.note j (.examined (e.relays n).phase))
  | .setCommandSeen n, e => some (.ok (), e.setRelay n { e.relays n with commandSeen := true })
  | .setEndpoint n host port, e =>
      if (e.relays n).endpoint.done then some (.error .other, e)
      else some (.ok (), e.setRelay n { e.relays n with endpoint := .result, target := some (host, port) })
  | .cancelHandlers n, e =>
      some (.ok (e.relays n).handler.busy, e.setRelay n (e.relays n).cancelHandler)
  | .gatherHandlers n, e => if (e.relays n).handler.busy then none else some (.ok (), e)
  | .cancelTask n, e => some (.ok (), e.setRelay n (e.relays n).cancel)
  | .awaitTask n, e => if (e.relays n).phase = .over then some (.ok (), e) else none
  | .createReply _, e => some (.ok (), e.setLink j fun l => { l with reply := .reading })
  | .waitReply _, _ => none
  | .replyResult, e =>
      match (e.links j).reply.outcome with
      | some r => some (r, e.answered j r)
      | none => some (.error .other, e)
  | .awaitReply _, e => (e.links j).reply.outcome.map (fun r => (r, e.answered j r))
  | .cancelReply, e => some (.ok (), e.setLink j fun l => { l with reply := l.reply.cancel })
  | .awaitReplyCancelled, e => (e.links j).reply.outcome.map (fun _ => (.ok (), e))

-- The answers a waiting session may get, each with what it leaves behind. A cancellation of the
-- session's own task ends any of these waits, except that waiting for another task goes on until
-- that task is done.
def resume (j : Nat) : (i : Op) → Except Exc i.Answer → Proxy → Option Proxy
  | .drainClient, _, e => some e
  | .readline _, r, e => some (e.received j r)
  | .waitSlot, .ok acquired, e =>
      if (e.acquired j || (e.links j).gone.done) && acquired == e.acquired j then some e else none
  | .waitSlot, .error .cancelled, e => some e
  | .awaitGone, .ok _, e => if (e.links j).gone = .returned then some e else none
  | .awaitGone, .error .cancelled, e => if (e.links j).gone.done then some e else none
  | .awaitAcquire, .ok _, e => if e.callState j = .holding then some e else none
  | .awaitAcquire, .error .cancelled, e => if e.acquired j then some e else none
  | .openConnection, .ok _, e =>
      some ((e.setLink j fun l => { l with upstream := true, upstreamFlow := .free }).note j .opened)
  | .openConnection, .error _, e => some e
  | .drainUpstream, _, e => some e
  | .readReply, .ok reply, e => some (e.note j (.answered reply))
  | .readReply, .error _, e => some e
  | .upstreamClosed, _, e => some e
  | .clientClosed, _, e => some e
  | .startServer _, .ok _, e =>
      (e.links j).relay.map fun n => e.setRelay n { e.relays n with listening := true }
  | .startServer _, .error _, e => some e
  | .gatherHandlers n, .ok _, e => if (e.relays n).handler.busy then none else some e
  | .gatherHandlers n, .error .cancelled, e => if (e.relays n).handler.busy then none else some e
  | .awaitTask n, .ok _, e => if (e.relays n).phase = .over then some e else none
  | .awaitTask n, .error .cancelled, e => if (e.relays n).phase = .over then some e else none
  | .awaitTask n, .error .timeout, e => if (e.relays n).phase = .over then some e else none
  | .waitReply n, .ok replied, e =>
      if ((e.links j).reply.outcome.isSome || n.any fun n => (e.relays n).phase = .over) &&
          replied == (e.links j).reply.outcome.isSome then some e else none
  | .waitReply _, .error .cancelled, e => some e
  | .awaitReply _, .ok reply, e =>
      match (e.links j).reply with
      | .finished (.ok r) => if r = reply then some (e.note j (.answered reply)) else none
      | _ => none
  | .awaitReply _, .error x, e =>
      if x = .timeout ∨ x = .cancelled then
        some (e.setLink j fun l => { l with reply := .finished (.error .cancelled) })
      else
        match (e.links j).reply with
        | .finished (.error y) => if x = y then some e else none
        | _ => none
  | .awaitReplyCancelled, _, e => if (e.links j).reply.outcome.isSome then some e else none
  | _, _, _ => none

-- The turns of everything that is not a session: the network, the helper tasks, the `supervise`
-- tasks and the handlers of data connections.
inductive Tick where
  | stop
  | elapse (d : ℚ)
  | arrive (j : Nat) (r : Except Exc (List UInt8))
  | clientFlow (j : Nat) (f : Flow)
  | upstreamFlow (j : Nat) (f : Flow)
  | acquireStart (c : Nat)
  | acquireResume (c : Nat)
  | acquireCancel (c : Nat)
  | gone (j : Nat)
  | reply (j : Nat) (outcome : Except Exc (Option String))
  | supervise (n : Nat) (timedOut : Bool)
  | cancelSupervise (n : Nat)
  | connect (n : Nat)
  | accept (n : Nat) (stranger : Bool)
  | handle (n : Nat) (moved : Option Nat)
  | disconnect (n : Nat)

def onRelay (e : Proxy) (n : Nat) (x : Option Relay) : Option Proxy :=
  if n < e.reserved then x.map (fun x => e.setRelay n x) else none

-- A turn of `supervise` gives the port back when it gets to the end of its `finally` clause.
def superviseTurn (e : Proxy) (n : Nat) (timedOut : Bool) : Option Proxy :=
  if n < e.reserved then
    ((e.relays n).supervise timedOut).map fun x =>
      { e.setRelay n x with
        pool := if (e.relays n).released < x.released then e.pool.release x.port else e.pool }
  else none

def tick (e : Proxy) : Tick → Option Proxy
  | .stop => some { e with running := false }
  | .elapse d => if 0 ≤ d then some { e with now := e.now + d } else none
  | .arrive j r => some (e.setLink j fun l => { l with inbox := l.inbox ++ [r] })
  | .clientFlow j f => some (e.setLink j fun l => { l with clientFlow := f })
  | .upstreamFlow j f => some (e.setLink j fun l => { l with upstreamFlow := f })
  | .acquireStart c => (e.queue.step (.start c)).map fun x => { e with queue := x }
  | .acquireResume c => (e.queue.step (.resume c)).map fun x => { e with queue := x }
  | .acquireCancel c => (e.queue.step (.cancel c)).map fun x => { e with queue := x }
  | .gone j => (e.links j).gone.turn.map fun h => e.setLink j fun l => { l with gone := h }
  | .reply j outcome =>
      match (e.links j).reply with
      | .reading => some (e.setLink j fun l => { l with reply := .finished outcome })
      | .cancelling => some (e.setLink j fun l => { l with reply := .finished (.error .cancelled) })
      | _ => none
  | .supervise n timedOut => e.superviseTurn n timedOut
  | .cancelSupervise n => e.onRelay n (some (e.relays n).cancel)
  | .connect n => e.onRelay n (e.relays n).connect
  | .accept n stranger => e.onRelay n ((e.relays n).accept stranger)
  | .handle n moved =>
      (e.onRelay n (e.relays n).handle).map fun e' =>
        match (e.relays n).handler, moved with
        | .relaying, some m => e'.setLink (e.relays n).owner fun l => { l with moved := m }
        | _, _ => e'
  | .disconnect n => e.onRelay n (e.relays n).disconnect

abbrev world (j : Nat) : World Proxy Op Op.Answer Exc := ⟨sync j, resume j⟩

end Proxy

-- What a session is told about itself when it is made.
structure Clients where
  accessCode : String
  printerIp : String
  localIp : Nat → String
  localIpv4 : Nat → Option String

def ftpProxy (clients : Clients) :
    System Nat Session.Label ControlSession Proxy Op Op.Answer Exc Proxy.Tick where
  first := .start
  body := Session.body
  rescue := Session.rescue
  world := Proxy.world
  spawn j e := some (.init clients.accessCode clients.printerIp (clients.localIp j) (clients.localIpv4 j), e)
  tick b e := e.tick b

def startup (queue : SessionQueue) (pool : DataPortPool) :
    Config Nat Session.Label ControlSession Proxy Op Op.Answer Exc :=
  ⟨fun _ => .idle, .init queue pool⟩

abbrev FtpConfig := Config Nat Session.Label ControlSession Proxy Op Op.Answer Exc

abbrev FtpAct := Act Nat Op Op.Answer Exc Proxy.Tick

def lan : Clients := ⟨"12345678", "192.168.1.5", fun _ => "192.168.1.2", fun _ => some "192.168.1.2"⟩

theorem oneSlot_maxPos : (1 : Int) ≤ 1 := Int.le_refl 1

def oneSlot : SessionQueue := ⟨1, 0, [], 0, oneSlot_maxPos⟩

def onePort : DataPortPool := ⟨[50000], [], 50000, 50000⟩

def line (text : String) : Except Exc (List UInt8) :=
  .ok (text.toList.map fun c => UInt8.ofNat c.toNat)

-- Session `j` is accepted, greeted, and logs in.
def logsIn (j : Nat) : List FtpAct :=
  [.spawn j, .run j, .run j, .tick (.arrive j (line "PASS 12345678\r\n")), .run j, .run j]

-- It gets a slot through its call `c` of `acquire` and is connected to the printer.
def reachesPrinter (j c : Nat) : List FtpAct :=
  [.tick (.acquireStart c), .resume j .waitSlot (.ok true), .tick (.gone j),
    .resume j .awaitGone (.error .cancelled), .resume j .openConnection (.ok ()),
    .resume j .readReply (.ok (some "220 ready\r\n")), .resume j .readReply (.ok (some "230 in\r\n"))]

def sends (j : Nat) (text : String) : List FtpAct := [.tick (.arrive j (line text)), .run j]

def answers (j : Nat) (text : String) : List FtpAct := [.resume j .readReply (.ok (some text))]

end PandaProxy.FtpProxy
