import Mathlib.Logic.Function.Basic
import PandaProxy.Async.Machine
import PandaProxy.Mqtt.StateCache

namespace PandaProxy.Mqtt

open Async Json Python

def clientQueueSize : Nat := 200

structure MqttSettings where
  serialNumber : String
  advertiseIp : Option String
  -- The IPv4 address that an IPv6 literal maps to.
  mapped : String → Option String

def MqttSettings.reportTopic (cfg : MqttSettings) : String := "device/" ++ cfg.serialNumber ++ "/report"

-- What a packet was made from: a message of the printer, or a section of the cache.
inductive Origin where
  | relayed (payload : List UInt8)
  | replayed (part : Document)

-- `build_publish(topic, payload)`, and during which connection to the printer it was built.
structure Publish where
  topic : String
  payload : List UInt8
  origin : Origin
  connection : Nat

-- `_handle_client` from the registration on: both loops run, one has ended, the client is gone.
inductive Stage where
  | serving
  | ended
  | over
  deriving DecidableEq

structure Client where
  clientId : String
  advertised : String
  queue : List Publish
  -- Everything that was ever put into the queue, and what was written to the socket.
  queued : List Publish
  written : List Publish
  closed : Bool
  stage : Stage

-- A `_broadcast_report` that has still to serve `targets`. With `personalised` each client gets its own.
structure Broadcast where
  topic : String
  payload : List UInt8
  personalised : Option Document
  targets : List (String × Nat)

inductive Upstream where
  | away
  | listening
  -- In `close_writer`, for a client that could not keep up.
  | broadcasting (b : Broadcast)
  | leaving

-- One `_send_state_snapshot`.
inductive Replay where
  | waiting (clientId : String)
  | delivering (clientId : String) (client : Nat) (rest : List Publish)
  | over

structure MQTTProxy where
  stateCache : PrinterStateCache
  cachePrimed : Bool
  clients : Dict String Nat
  clientIps : Dict String String
  clientWriters : Dict String Nat
  -- The connections of clients are numbered in order, and each has its own queue.
  conn : Nat → Client
  accepted : Nat
  replays : Nat → Replay
  subscriptions : Nat
  upstream : Upstream
  connections : Nat
  reports : List (List UInt8)

namespace MQTTProxy

def noClient : Client := ⟨"", "", [], [], [], true, .over⟩

def init : MQTTProxy :=
  { stateCache := .init
    cachePrimed := false
    clients := []
    clientIps := []
    clientWriters := []
    conn := fun _ => noClient
    accepted := 0
    replays := fun _ => .over
    subscriptions := 0
    upstream := .away
    connections := 0
    reports := [] }

def setConn (s : MQTTProxy) (c : Nat) (f : Client → Client) : MQTTProxy :=
  { s with conn := Function.update s.conn c (f (s.conn c)) }

def setReplay (s : MQTTProxy) (t : Nat) (x : Replay) : MQTTProxy :=
  { s with replays := Function.update s.replays t x }

def forget (s : MQTTProxy) (clientId : String) : MQTTProxy :=
  { s with
    clients := Dict.pop s.clients clientId
    clientIps := Dict.pop s.clientIps clientId
    clientWriters := Dict.pop s.clientWriters clientId }

def put (s : MQTTProxy) (c : Nat) (packet : Publish) : MQTTProxy :=
  s.setConn c fun x => { x with queue := x.queue ++ [packet], queued := x.queued ++ [packet] }

def closeWriter (s : MQTTProxy) (c : Nat) : MQTTProxy := s.setConn c fun x => { x with closed := true }

-- Whether `_deliver` comes to wait in `close_writer`, and what it leaves behind.
def deliver (s : MQTTProxy) (clientId : String) (c : Nat) (packet : Publish) : Bool × MQTTProxy :=
  if (s.conn c).queue.length < clientQueueSize then (false, s.put c packet)
  else
    match Dict.get s.clientWriters clientId with
    | some writer => (true, (s.forget clientId).closeWriter writer)
    | none => (false, s.forget clientId)

-- What `_broadcast_report` sends a client, if `copy.deepcopy` has the calls it needs.
def personalData (J : Codec) (s : MQTTProxy) (b : Broadcast) (clientId : String) : Option (List UInt8) :=
  match b.personalised, Dict.get s.clientIps clientId with
  | some state, some localIp =>
      if localIp = "" then some b.payload
      else if Value.copyFrames (.dict state) ≤ J.frames .broadcastReport then
        some (J.dumps (.dict (rewriteReportedIp state localIp).2))
      else none
  | _, _ => some b.payload

-- An exception ends the connection to the printer.
def relay (J : Codec) (b : Broadcast) : List (String × Nat) → MQTTProxy → MQTTProxy
  | [], s => { s with upstream := .listening }
  | (clientId, c) :: targets, s =>
      match personalData J s b clientId with
      | none => { s with upstream := .leaving }
      | some data =>
          match s.deliver clientId c ⟨b.topic, data, .relayed b.payload, s.connections⟩ with
          | (false, s) => relay J b targets s
          | (true, s) => { s with upstream := .broadcasting { b with targets := targets } }

def broadcastReport (J : Codec) (s : MQTTProxy) (topic : String) (payload : List UInt8) : MQTTProxy :=
  let send (personalised : Option Document) := relay J ⟨topic, payload, personalised, []⟩ s.clients s
  if !payloadReportsIp payload then send none
  else
    match J.parse payload with
    | .error _ => { s with upstream := .leaving }
    | .ok (some (.dict state)) => send (some state)
    | .ok _ => send none

-- Whether the report was taken in without an exception.
def cacheReport (J : Codec) (s : MQTTProxy) (payload : List UInt8) : Bool × MQTTProxy :=
  match s.stateCache.update J payload with
  | (.error _, cache) => (false, { s with stateCache := cache })
  | (.ok merged, cache) =>
      let s := { s with stateCache := cache, reports := payload :: s.reports }
      if merged then
        match payloadIsFullState J payload with
        | .error _ => (false, s)
        | .ok full => (true, if full then { s with cachePrimed := true } else s)
      else (true, s)

def handleMessage (cfg : MqttSettings) (J : Codec) (s : MQTTProxy) (topic : String) (payload : List UInt8) : MQTTProxy :=
  let (alive, s) := if topic = cfg.reportTopic then cacheReport J s payload else (true, s)
  if alive then broadcastReport J s topic payload else { s with upstream := .leaving }

-- One packet for each payload of `snapshots`, which are all there before the first one is delivered.
def snapshotPackets (cfg : MqttSettings) (J : Codec) (s : MQTTProxy) (advertised : Option String) :
    Except PayloadError (List Publish) := do
  let payloads ← s.stateCache.snapshots J advertised
  let parts := s.stateCache.state.filterMap fun p => s.stateCache.snapshotState none (some p.1)
  pure (List.zipWith (fun payload part => ⟨cfg.reportTopic, payload, .replayed part, s.connections⟩) payloads parts)

def replay (t : Nat) (clientId : String) (c : Nat) : List Publish → MQTTProxy → MQTTProxy
  | [], s => s.setReplay t .over
  | packet :: rest, s =>
      match s.deliver clientId c packet with
      | (false, s) => replay t clientId c rest s
      | (true, s) => s.setReplay t (.delivering clientId c rest)

-- `_send_state_snapshot` from where it no longer waits for the cache to be primed.
def sendStateSnapshot (cfg : MqttSettings) (J : Codec) (s : MQTTProxy) (t : Nat) (clientId : String) : MQTTProxy :=
  match Dict.get s.clients clientId with
  | none => s.setReplay t .over
  | some c =>
      match snapshotPackets cfg J s (Dict.get s.clientIps clientId) with
      | .error _ => s.setReplay t .over
      | .ok packets => replay t clientId c packets s

def advertisedAddress (cfg : MqttSettings) (sockname : Option String) : Option String := do
  let raw ← (cfg.advertiseIp.filter fun address => address ≠ "").or sockname
  if raw = "" then none else asIpv4 cfg.mapped raw

def register (cfg : MqttSettings) (s : MQTTProxy) (clientId : String) (sockname : Option String) : MQTTProxy :=
  match advertisedAddress cfg sockname with
  | none => s.forget clientId
  | some advertised =>
      { s with
        conn := Function.update s.conn s.accepted ⟨clientId, advertised, [], [], [], false, .serving⟩
        accepted := s.accepted + 1
        clients := Dict.set s.clients clientId s.accepted
        clientWriters := Dict.set s.clientWriters clientId s.accepted
        clientIps := Dict.set s.clientIps clientId advertised }

inductive Act where
  | connect
  | message (topic : String) (payload : List UInt8)
  -- `close_writer` returns to the broadcast.
  | hungUp
  | fail
  | lose
  | register (clientId : String) (sockname : Option String)
  | subscribe (c : Nat)
  | replay (t : Nat)
  | giveUp (t : Nat)
  | replayHungUp (t : Nat)
  | send (c : Nat)
  | finish (c : Nat)
  | leave (c : Nat)

def step (cfg : MqttSettings) (J : Codec) (s : MQTTProxy) : Act → Option MQTTProxy
  | .connect =>
      match s.upstream with
      | .away => some { s with upstream := .listening, connections := s.connections + 1, reports := [] }
      | _ => none
  | .message topic payload =>
      match s.upstream with
      | .listening => some (handleMessage cfg J s topic payload)
      | _ => none
  | .hungUp =>
      match s.upstream with
      | .broadcasting b => some (relay J b b.targets s)
      | _ => none
  | .fail =>
      match s.upstream with
      | .listening => some { s with upstream := .leaving }
      | .broadcasting _ => some { s with upstream := .leaving }
      | _ => none
  | .lose =>
      match s.upstream with
      | .leaving => some { s with upstream := .away, stateCache := s.stateCache.clear, cachePrimed := false }
      | _ => none
  | .register clientId sockname => some (register cfg s clientId sockname)
  | .subscribe c =>
      match (s.conn c).stage with
      | .over => none
      | _ => some { s.setReplay s.subscriptions (.waiting (s.conn c).clientId) with subscriptions := s.subscriptions + 1 }
  | .replay t =>
      match s.replays t with
      | .waiting clientId => if s.cachePrimed then some (sendStateSnapshot cfg J s t clientId) else none
      | _ => none
  | .giveUp t =>
      match s.replays t with
      | .waiting _ => if s.cachePrimed then none else some (s.setReplay t .over)
      | _ => none
  | .replayHungUp t =>
      match s.replays t with
      | .delivering clientId c rest => some (MQTTProxy.replay t clientId c rest s)
      | _ => none
  | .send c =>
      match (s.conn c).stage, (s.conn c).queue with
      | .serving, packet :: queue =>
          some (s.setConn c fun x =>
            { x with queue := queue, written := if x.closed then x.written else x.written ++ [packet] })
      | _, _ => none
  | .finish c =>
      match (s.conn c).stage with
      | .serving => some (s.setConn c fun x => { x with stage := .ended })
      | _ => none
  | .leave c =>
      match (s.conn c).stage with
      | .ended =>
          some ((s.forget (s.conn c).clientId).setConn c fun x => { x with stage := .over, closed := true })
      | _ => none

inductive Steps (cfg : MqttSettings) (J : Codec) (s : MQTTProxy) : Act → MQTTProxy → Prop where
  | connect (hup : s.upstream = .away) :
      Steps cfg J s .connect { s with upstream := .listening, connections := s.connections + 1, reports := [] }
  | message {topic : String} {payload : List UInt8} (hup : s.upstream = .listening) :
      Steps cfg J s (.message topic payload) (handleMessage cfg J s topic payload)
  | hungUp {b : Broadcast} (hup : s.upstream = .broadcasting b) : Steps cfg J s .hungUp (relay J b b.targets s)
  | fail (hup : s.upstream = .listening ∨ ∃ b, s.upstream = .broadcasting b) :
      Steps cfg J s .fail { s with upstream := .leaving }
  | lose (hup : s.upstream = .leaving) :
      Steps cfg J s .lose { s with upstream := .away, stateCache := s.stateCache.clear, cachePrimed := false }
  | register {id : String} {sockname : Option String} : Steps cfg J s (.register id sockname) (register cfg s id sockname)
  | subscribe {c : Nat} (hstage : (s.conn c).stage ≠ .over) :
      Steps cfg J s (.subscribe c)
        { s.setReplay s.subscriptions (.waiting (s.conn c).clientId) with subscriptions := s.subscriptions + 1 }
  | unreplayed {t : Nat} {id : String} (hwaiting : s.replays t = .waiting id) (hprimed : s.cachePrimed = true)
      (hnone : ∀ c packets, Dict.get s.clients id = some c →
        snapshotPackets cfg J s (Dict.get s.clientIps id) ≠ .ok packets) : Steps cfg J s (.replay t) (s.setReplay t .over)
  | replay {t c : Nat} {id : String} {packets : List Publish} (hwaiting : s.replays t = .waiting id)
      (hprimed : s.cachePrimed = true) (hget : Dict.get s.clients id = some c)
      (hpackets : snapshotPackets cfg J s (Dict.get s.clientIps id) = .ok packets) :
      Steps cfg J s (.replay t) (replay t id c packets s)
  | giveUp {t : Nat} {id : String} (hwaiting : s.replays t = .waiting id) (hprimed : s.cachePrimed = false) :
      Steps cfg J s (.giveUp t) (s.setReplay t .over)
  | replayHungUp {t c : Nat} {id : String} {rest : List Publish} (ht : s.replays t = .delivering id c rest) :
      Steps cfg J s (.replayHungUp t) (MQTTProxy.replay t id c rest s)
  | send {c : Nat} {packet : Publish} {queue : List Publish} (hstage : (s.conn c).stage = .serving)
      (hqueue : (s.conn c).queue = packet :: queue) :
      Steps cfg J s (.send c)
        (s.setConn c fun x => { x with queue := queue, written := if x.closed then x.written else x.written ++ [packet] })
  | finish {c : Nat} (hstage : (s.conn c).stage = .serving) :
      Steps cfg J s (.finish c) (s.setConn c fun x => { x with stage := .ended })
  | leave {c : Nat} (hstage : (s.conn c).stage = .ended) :
      Steps cfg J s (.leave c)
        ((s.forget (s.conn c).clientId).setConn c fun x => { x with stage := .over, closed := true })

theorem step_cases {cfg : MqttSettings} {J : Codec} {s s' : MQTTProxy} {a : Act} (hstep : step cfg J s a = some s') :
    Steps cfg J s a s' := by
  cases a with
  | connect =>
      simp only [step] at hstep
      split at hstep <;> cases hstep
      exact .connect ‹_›
  | message topic payload =>
      simp only [step] at hstep
      split at hstep <;> cases hstep
      exact .message ‹_›
  | hungUp =>
      simp only [step] at hstep
      split at hstep <;> cases hstep
      exact .hungUp ‹_›
  | fail =>
      simp only [step] at hstep
      split at hstep
      · next hup =>
          cases hstep
          exact .fail (.inl hup)
      · next b hup =>
          cases hstep
          exact .fail (.inr ⟨b, hup⟩)
      · cases hstep
  | lose =>
      simp only [step] at hstep
      split at hstep <;> cases hstep
      exact .lose ‹_›
  | register id sockname =>
      cases hstep
      exact .register
  | subscribe c =>
      simp only [step] at hstep
      split at hstep <;> cases hstep
      exact .subscribe ‹_›
  | replay t =>
      simp only [step] at hstep
      split at hstep
      · next id hwaiting =>
          split at hstep <;> cases hstep
          next hprimed =>
            unfold sendStateSnapshot
            split
            · next hget => exact .unreplayed hwaiting hprimed fun c _ hc => nomatch hget.symm.trans hc
            · next c hget =>
                split
                · next x hx => exact .unreplayed hwaiting hprimed fun _ _ _ hpackets => nomatch hx.symm.trans hpackets
                · next packets hpackets => exact .replay hwaiting hprimed hget hpackets
      · cases hstep
  | giveUp t =>
      simp only [step] at hstep
      split at hstep
      · next id hwaiting =>
          split at hstep <;> cases hstep
          next hprimed => exact .giveUp hwaiting (by simpa using hprimed)
      · cases hstep
  | replayHungUp t =>
      simp only [step] at hstep
      split at hstep <;> cases hstep
      exact .replayHungUp ‹_›
  | send c =>
      simp only [step] at hstep
      split at hstep
      · next packet queue hstage hqueue =>
          cases hstep
          exact .send hstage hqueue
      · cases hstep
  | finish c =>
      simp only [step] at hstep
      split at hstep <;> cases hstep
      exact .finish ‹_›
  | leave c =>
      simp only [step] at hstep
      split at hstep <;> cases hstep
      exact .leave ‹_›

theorem setConn_same {s : MQTTProxy} {c k : Nat} {f : Client → Client} {β : Type} (g : Client → β)
    (hf : ∀ x, g (f x) = g x) : g ((s.setConn c f).conn k) = g (s.conn k) := by
  by_cases hk : k = c
  · subst hk
    simp [setConn, hf]
  · simp [setConn, hk]

structure Delivers (P : Nat → Publish → Prop) (s s' : MQTTProxy) : Prop where
  stateCache : s'.stateCache = s.stateCache
  cachePrimed : s'.cachePrimed = s.cachePrimed
  accepted : s'.accepted = s.accepted
  connections : s'.connections = s.connections
  reports : s'.reports = s.reports
  clientId : ∀ c, (s'.conn c).clientId = (s.conn c).clientId
  advertised : ∀ c, (s'.conn c).advertised = (s.conn c).advertised
  written : ∀ c, (s'.conn c).written = (s.conn c).written
  stage : ∀ c, (s'.conn c).stage = (s.conn c).stage
  stays : ∀ c, (s.conn c).closed = true → (s'.conn c).closed = true
  keys : (s.clients.map Prod.fst).Nodup → (s'.clients.map Prod.fst).Nodup
  registry : ∀ id, (Dict.get s'.clients id = Dict.get s.clients id ∧ Dict.get s'.clientIps id = Dict.get s.clientIps id ∧
      Dict.get s'.clientWriters id = Dict.get s.clientWriters id) ∨
    (Dict.get s'.clients id = none ∧ ∀ c, Dict.get s.clientWriters id = some c → (s'.conn c).closed = true)
  queues : ∀ c, ∃ more, (s'.conn c).queue = (s.conn c).queue ++ more ∧ (s'.conn c).queued = (s.conn c).queued ++ more ∧
    ∀ packet ∈ more, P c packet

namespace Delivers

variable {P : Nat → Publish → Prop} {s s' s'' : MQTTProxy}

theorem refl (s : MQTTProxy) : Delivers P s s :=
  ⟨rfl, rfl, rfl, rfl, rfl, fun _ => rfl, fun _ => rfl, fun _ => rfl, fun _ => rfl, fun _ h => h, fun h => h,
    fun _ => .inl ⟨rfl, rfl, rfl⟩, fun _ => ⟨[], by simp, by simp, nofun⟩⟩

theorem trans (h : Delivers P s s') (h' : Delivers P s' s'') : Delivers P s s'' where
  stateCache := h'.stateCache.trans h.stateCache
  cachePrimed := h'.cachePrimed.trans h.cachePrimed
  accepted := h'.accepted.trans h.accepted
  connections := h'.connections.trans h.connections
  reports := h'.reports.trans h.reports
  clientId c := (h'.clientId c).trans (h.clientId c)
  advertised c := (h'.advertised c).trans (h.advertised c)
  written c := (h'.written c).trans (h.written c)
  stage c := (h'.stage c).trans (h.stage c)
  stays c hc := h'.stays c (h.stays c hc)
  keys hkeys := h'.keys (h.keys hkeys)
  registry id := by
    rcases h'.registry id with ⟨hc', hi', hw'⟩ | ⟨hn', hw'⟩
    · rcases h.registry id with ⟨hc, hi, hw⟩ | ⟨hn, hw⟩
      · exact .inl ⟨hc'.trans hc, hi'.trans hi, hw'.trans hw⟩
      · exact .inr ⟨hc'.trans hn, fun c hc => h'.stays c (hw c hc)⟩
    · rcases h.registry id with ⟨hc, hi, hw⟩ | ⟨hn, hw⟩
      · exact .inr ⟨hn', fun c hc => hw' c (hw.trans hc)⟩
      · exact .inr ⟨hn', fun c hc => h'.stays c (hw c hc)⟩
  queues c := by
    obtain ⟨more, hq, hqd, hP⟩ := h.queues c
    obtain ⟨more', hq', hqd', hP'⟩ := h'.queues c
    refine ⟨more ++ more', by rw [hq', hq, List.append_assoc], by rw [hqd', hqd, List.append_assoc], ?_⟩
    intro packet hp
    exact (List.mem_append.mp hp).elim (hP packet) (hP' packet)

theorem frame (h : Delivers P s s') (replays : Nat → Replay) (upstream : Upstream) :
    Delivers P s { s' with replays := replays, upstream := upstream } :=
  ⟨h.stateCache, h.cachePrimed, h.accepted, h.connections, h.reports, h.clientId, h.advertised, h.written, h.stage,
    h.stays, h.keys, h.registry, h.queues⟩

theorem put {c : Nat} {packet : Publish} (hP : P c packet) : Delivers P s (s.put c packet) where
  stateCache := rfl
  cachePrimed := rfl
  accepted := rfl
  connections := rfl
  reports := rfl
  clientId _ := setConn_same Client.clientId fun _ => rfl
  advertised _ := setConn_same Client.advertised fun _ => rfl
  written _ := setConn_same Client.written fun _ => rfl
  stage _ := setConn_same Client.stage fun _ => rfl
  stays k hk := by
    have hsame : ((s.put c packet).conn k).closed = (s.conn k).closed := setConn_same Client.closed fun _ => rfl
    rw [hsame, hk]
  keys hkeys := hkeys
  registry _ := .inl ⟨rfl, rfl, rfl⟩
  queues k := by
    by_cases hk : k = c
    · subst hk
      exact ⟨[packet], by simp [MQTTProxy.put, setConn], by simp [MQTTProxy.put, setConn], by simpa using hP⟩
    · exact ⟨[], by simp [MQTTProxy.put, setConn, hk], by simp [MQTTProxy.put, setConn, hk], nofun⟩

theorem forget {id : String} (hw : Dict.get s.clientWriters id = none) : Delivers P s (s.forget id) where
  stateCache := rfl
  cachePrimed := rfl
  accepted := rfl
  connections := rfl
  reports := rfl
  clientId _ := rfl
  advertised _ := rfl
  written _ := rfl
  stage _ := rfl
  stays _ hk := hk
  keys hkeys := Dict.keys_pop_nodup hkeys
  registry id' := by
    by_cases hid : id' = id
    · subst hid
      exact .inr ⟨Dict.get_pop_self, fun c hc => absurd hc (by simp [hw])⟩
    · exact .inl ⟨Dict.get_pop_ne hid, Dict.get_pop_ne hid, Dict.get_pop_ne hid⟩
  queues _ := ⟨[], by simp [MQTTProxy.forget], by simp [MQTTProxy.forget], nofun⟩

theorem hangUp {id : String} {w : Nat} (hw : Dict.get s.clientWriters id = some w) :
    Delivers P s ((s.forget id).closeWriter w) where
  stateCache := rfl
  cachePrimed := rfl
  accepted := rfl
  connections := rfl
  reports := rfl
  clientId _ := setConn_same (s := s.forget id) Client.clientId fun _ => rfl
  advertised _ := setConn_same (s := s.forget id) Client.advertised fun _ => rfl
  written _ := setConn_same (s := s.forget id) Client.written fun _ => rfl
  stage _ := setConn_same (s := s.forget id) Client.stage fun _ => rfl
  stays k hk := by
    by_cases hkw : k = w
    · subst hkw
      simp [closeWriter, setConn]
    · have hsame : (((s.forget id).closeWriter w).conn k).closed = (s.conn k).closed := by
        simp [closeWriter, setConn, hkw, MQTTProxy.forget]
      rw [hsame, hk]
  keys hkeys := Dict.keys_pop_nodup hkeys
  registry id' := by
    by_cases hid : id' = id
    · subst hid
      refine .inr ⟨Dict.get_pop_self, fun c hc => ?_⟩
      cases hw.symm.trans hc
      simp [closeWriter, setConn]
    · exact .inl ⟨Dict.get_pop_ne hid, Dict.get_pop_ne hid, Dict.get_pop_ne hid⟩
  queues k := by
    have hqueue : ((((s.forget id).closeWriter w).conn k).queue = (s.conn k).queue) :=
      setConn_same (s := s.forget id) Client.queue fun _ => rfl
    have hqueued : ((((s.forget id).closeWriter w).conn k).queued = (s.conn k).queued) :=
      setConn_same (s := s.forget id) Client.queued fun _ => rfl
    exact ⟨[], by simp [hqueue], by simp [hqueued], nofun⟩

end Delivers

theorem deliver_cases (s : MQTTProxy) (id : String) (c : Nat) (packet : Publish) :
    s.deliver id c packet = (false, s.put c packet) ∨
      (Dict.get s.clientWriters id = none ∧ s.deliver id c packet = (false, s.forget id)) ∨
      ∃ w, Dict.get s.clientWriters id = some w ∧ s.deliver id c packet = (true, (s.forget id).closeWriter w) := by
  unfold deliver
  split
  · exact .inl rfl
  · split
    · next w hw => exact .inr (.inr ⟨w, hw, rfl⟩)
    · next hw => exact .inr (.inl ⟨hw, rfl⟩)

theorem deliver_delivers {P : Nat → Publish → Prop} {s : MQTTProxy} (id : String) {c : Nat} {packet : Publish}
    (hP : P c packet) : Delivers P s (s.deliver id c packet).2 := by
  rcases deliver_cases s id c packet with h | ⟨hw, h⟩ | ⟨w, hw, h⟩
  · rw [h]
    exact .put hP
  · rw [h]
    exact .forget hw
  · rw [h]
    exact .hangUp hw

theorem deliver_replays (s : MQTTProxy) (id : String) (c : Nat) (packet : Publish) :
    (s.deliver id c packet).2.replays = s.replays := by
  rcases deliver_cases s id c packet with h | ⟨_, h⟩ | ⟨w, _, h⟩ <;> rw [h] <;> rfl

theorem deliver_upstream (s : MQTTProxy) (id : String) (c : Nat) (packet : Publish) :
    (s.deliver id c packet).2.upstream = s.upstream := by
  rcases deliver_cases s id c packet with h | ⟨_, h⟩ | ⟨w, _, h⟩ <;> rw [h] <;> rfl

theorem relay_delivers {J : Codec} {b : Broadcast} {P : Nat → Publish → Prop} (targets : List (String × Nat))
    {s : MQTTProxy} (hP : ∀ c packet, packet.origin = .relayed b.payload → P c packet) :
    Delivers P s (relay J b targets s) ∧ (relay J b targets s).replays = s.replays := by
  induction targets generalizing s with
  | nil => exact ⟨(Delivers.refl s).frame s.replays .listening, rfl⟩
  | cons target targets ih =>
      obtain ⟨id, c⟩ := target
      simp only [relay]
      split
      · exact ⟨(Delivers.refl s).frame s.replays .leaving, rfl⟩
      · next data _ =>
          have hdelivers := deliver_delivers (s := s) id (hP c ⟨b.topic, data, .relayed b.payload, s.connections⟩ rfl)
          have hreplays := deliver_replays s id c ⟨b.topic, data, .relayed b.payload, s.connections⟩
          split
          · next s' hs' =>
              rw [hs'] at hdelivers hreplays
              exact ⟨hdelivers.trans ih.1, ih.2.trans hreplays⟩
          · next s' hs' =>
              rw [hs'] at hdelivers hreplays
              exact ⟨hdelivers.frame s'.replays _, hreplays⟩

theorem replay_delivers {P : Nat → Publish → Prop} {t c : Nat} (id : String) (packets : List Publish) {s : MQTTProxy}
    (hP : ∀ packet ∈ packets, P c packet) : Delivers P s (replay t id c packets s) ∧
      (replay t id c packets s).upstream = s.upstream ∧ ∀ t' ≠ t, (replay t id c packets s).replays t' = s.replays t' := by
  induction packets generalizing s with
  | nil => exact ⟨(Delivers.refl s).frame _ s.upstream, rfl, fun t' ht => Function.update_of_ne ht _ _⟩
  | cons packet packets ih =>
      simp only [replay]
      have hdelivers := deliver_delivers (s := s) id (hP packet List.mem_cons_self)
      have hreplays := deliver_replays s id c packet
      have hupstream := deliver_upstream s id c packet
      split
      · next s' hs' =>
          rw [hs'] at hdelivers hreplays hupstream
          obtain ⟨hrest, hup, hothers⟩ := ih (s := s') fun p hp => hP p (List.mem_cons_of_mem _ hp)
          exact ⟨hdelivers.trans hrest, hup.trans hupstream, fun t' ht => (hothers t' ht).trans (congrFun hreplays t')⟩
      · next s' hs' =>
          rw [hs'] at hdelivers hreplays hupstream
          refine ⟨hdelivers.frame _ s'.upstream, hupstream, fun t' ht => ?_⟩
          exact (Function.update_of_ne ht _ _).trans (congrFun hreplays t')

def takenIn (cfg : MqttSettings) (J : Codec) (s : MQTTProxy) (topic : String) (payload : List UInt8) : MQTTProxy :=
  if topic = cfg.reportTopic then (cacheReport J s payload).2 else s

theorem cacheReport_cases (J : Codec) (s : MQTTProxy) (payload : List UInt8) :
    (∃ x cache, s.stateCache.update J payload = (.error x, cache) ∧
        cacheReport J s payload = (false, { s with stateCache := cache })) ∨
      ∃ merged cache, s.stateCache.update J payload = (.ok merged, cache) ∧ ∃ alive primed,
        cacheReport J s payload =
          (alive, { s with stateCache := cache, reports := payload :: s.reports, cachePrimed := primed }) ∧
        (primed = true → s.cachePrimed = true ∨ merged = true ∧ payloadIsFullState J payload = .ok true) := by
  unfold cacheReport
  split
  · next x cache hx => exact .inl ⟨x, cache, hx, rfl⟩
  · next merged cache hupdate =>
      refine .inr ⟨merged, cache, hupdate, ?_⟩
      dsimp only
      split
      · next hmerged =>
          split
          · exact ⟨false, s.cachePrimed, rfl, .inl⟩
          · next full hfull =>
              cases full with
              | true => exact ⟨true, true, rfl, fun _ => .inr ⟨hmerged, hfull⟩⟩
              | false => exact ⟨true, s.cachePrimed, rfl, .inl⟩
      · exact ⟨true, s.cachePrimed, rfl, .inl⟩

structure Prepared (J : Codec) (b : Broadcast) : Prop where
  personal : ∀ state, b.personalised = some state → J.loads b.payload = .ok (.dict state)
  reports : ∀ state, b.personalised = some state → payloadReportsIp b.payload = true
  shared : b.personalised = none → payloadReportsIp b.payload = true → ∀ state, J.loads b.payload ≠ .ok (.dict state)

theorem broadcastReport_cases (J : Codec) (s : MQTTProxy) (topic : String) (payload : List UInt8) :
    (payloadReportsIp payload = true ∧ (∃ x, J.parse payload = .error x) ∧
        broadcastReport J s topic payload = { s with upstream := .leaving }) ∨
      ∃ personalised, broadcastReport J s topic payload = relay J ⟨topic, payload, personalised, []⟩ s.clients s ∧
        Prepared J ⟨topic, payload, personalised, []⟩ := by
  unfold broadcastReport
  dsimp only
  split
  · next hskip =>
      exact .inr ⟨none, rfl, nofun, nofun, fun _ hreports => absurd hreports (by simpa using hskip)⟩
  · next hreports =>
    split
    · next x hx => exact .inl ⟨by simpa using hreports, ⟨x, hx⟩, rfl⟩
    · next state hstate =>
        refine .inr ⟨some state, rfl, ?_, fun _ _ => by simpa using hreports, nofun⟩
        rintro _ ⟨⟩
        exact Codec.parse_dict.mp hstate
    · next v hv hother =>
        exact .inr ⟨none, rfl, nofun, nofun, fun _ _ state hstate => hv state (Except.ok.inj (hother.symm.trans (Codec.parse_dict.mpr hstate)))⟩

-- What a report changes in the cache, also where `deep_merge` does not come to its end.
theorem takenIn_state (cfg : MqttSettings) (J : Codec) (s : MQTTProxy) (topic : String) (payload : List UInt8) :
    (takenIn cfg J s topic payload).stateCache.state = s.stateCache.state ∨
      ∃ parsed cut, PrinterStateCache.Cacheable J payload parsed ∧ Cut cut (PrinterStateCache.kept parsed) ∧
        (takenIn cfg J s topic payload).stateCache.state = deepMerge s.stateCache.state cut := by
  unfold takenIn
  split
  · have hcache : (cacheReport J s payload).2.stateCache = (s.stateCache.update J payload).2 := by
      rcases cacheReport_cases J s payload with ⟨x, cache, hupdate, h⟩ | ⟨merged, cache, hupdate, alive, primed, h, _⟩ <;>
        rw [hupdate, h]
    rw [hcache]
    rcases PrinterStateCache.update_cases J s.stateCache payload with
      ⟨parsed, hcacheable, _, _, h⟩ | ⟨parsed, hcacheable, _, _, cut, hcut, h⟩ | ⟨_, r, h, _⟩
    · exact .inr ⟨parsed, _, hcacheable, .refl _, by rw [h]⟩
    · exact .inr ⟨parsed, cut, hcacheable, hcut, by rw [h]⟩
    · exact .inl (by rw [h])
  · exact .inl rfl

theorem cacheReport_raised {J : Codec} {s : MQTTProxy} {payload : List UInt8} {x : PayloadError} {cache : PrinterStateCache}
    (h : s.stateCache.update J payload = (.error x, cache)) : (cacheReport J s payload).1 = false := by
  rw [cacheReport, h]

theorem handleMessage_cases (cfg : MqttSettings) (J : Codec) (s : MQTTProxy) (topic : String) (payload : List UInt8) :
    handleMessage cfg J s topic payload = { takenIn cfg J s topic payload with upstream := .leaving } ∨
      ∃ personalised, handleMessage cfg J s topic payload =
        relay J ⟨topic, payload, personalised, []⟩ (takenIn cfg J s topic payload).clients (takenIn cfg J s topic payload) ∧
        Prepared J ⟨topic, payload, personalised, []⟩ ∧ (topic = cfg.reportTopic → (cacheReport J s payload).1 = true) := by
  unfold handleMessage takenIn
  by_cases htopic : topic = cfg.reportTopic
  · simp only [htopic, if_true]
    cases (cacheReport J s payload).1 with
    | true =>
        refine (broadcastReport_cases J _ _ payload).imp (fun h => h.2.2) ?_
        rintro ⟨personalised, hrelay, hprepared⟩
        exact ⟨personalised, hrelay, hprepared, fun _ => rfl⟩
    | false => exact .inl rfl
  · simp only [htopic, if_false, if_true]
    refine (broadcastReport_cases J s topic payload).imp (fun h => h.2.2) ?_
    rintro ⟨personalised, hrelay, hprepared⟩
    exact ⟨personalised, hrelay, hprepared, fun h => nomatch h⟩

def snapshotPacket (cfg : MqttSettings) (J : Codec) (s : MQTTProxy) (part state : Document) : Publish :=
  ⟨cfg.reportTopic, J.dumps (.dict state), .replayed part, s.connections⟩

theorem snapshotState_isSome (c : PrinterStateCache) (advertised : Option String) (name : Option Text) :
    (c.snapshotState advertised name).isSome = (c.snapshotState none name).isSome := by
  unfold PrinterStateCache.snapshotState
  split
  · rfl
  · cases name with
    | none => cases advertised <;> rfl
    | some name =>
        cases hget : Dict.get c.state name with
        | none => simp only [hget, Option.map_none, bind, Option.bind_none]
        | some part =>
            simp only [hget, Option.map_some, bind, Option.bind_some]
            cases advertised <;> rfl

section

variable {cfg : MqttSettings} {J : Codec} {s : MQTTProxy} {advertised : Option String} {packets : List Publish}

def snapshotOf (cfg : MqttSettings) (J : Codec) (s : MQTTProxy) (advertised : Option String) (p : Text × Value) :
    Option Publish :=
  (s.stateCache.snapshotState none (some p.1)).bind fun part =>
    (s.stateCache.snapshotState advertised (some p.1)).map fun state => snapshotPacket cfg J s part state

theorem snapshot_ok (cfg : MqttSettings) {p : Text × Value} {payload : Option (List UInt8)}
    (h : s.stateCache.snapshot J advertised (some p.1) = .ok payload) :
    payload = none ∧ s.stateCache.snapshotState none (some p.1) = none ∧ snapshotOf cfg J s advertised p = none ∨
      ∃ part state, payload = some (J.dumps (.dict state)) ∧ s.stateCache.snapshotState none (some p.1) = some part ∧
        snapshotOf cfg J s advertised p = some (snapshotPacket cfg J s part state) := by
  have hsome := snapshotState_isSome s.stateCache advertised (some p.1)
  unfold PrinterStateCache.snapshot at h
  unfold snapshotOf
  cases hstate : s.stateCache.snapshotState advertised (some p.1) with
  | none =>
      rw [hstate] at h hsome
      cases h
      have hpart : s.stateCache.snapshotState none (some p.1) = none := by simpa using hsome.symm
      exact .inl ⟨rfl, hpart, by rw [hpart, Option.bind_none]⟩
  | some state =>
      rw [hstate] at h hsome
      obtain ⟨part, hpart⟩ := Option.isSome_iff_exists.mp hsome.symm
      simp only at h
      split at h <;> cases h
      exact .inr ⟨part, state, rfl, hpart, by rw [hpart, Option.bind_some, Option.map_some]⟩

theorem snapshots_packets {sections : List (Text × Value)} {payloads : List (Option (List UInt8))}
    (h : (sections.mapM fun p => s.stateCache.snapshot J advertised (some p.1)) = .ok payloads) :
    List.zipWith (fun payload part => ⟨cfg.reportTopic, payload, .replayed part, s.connections⟩) (payloads.filterMap id)
        (sections.filterMap fun p => s.stateCache.snapshotState none (some p.1)) =
      sections.filterMap (snapshotOf cfg J s advertised) := by
  induction sections generalizing payloads with
  | nil =>
      cases h
      rfl
  | cons p sections ih =>
      rw [List.mapM_cons] at h
      cases hpayload : s.stateCache.snapshot J advertised (some p.1) with
      | error x =>
          rw [hpayload] at h
          cases h
      | ok payload =>
          cases hrest : sections.mapM fun p => s.stateCache.snapshot J advertised (some p.1) with
          | error x =>
              rw [hpayload, hrest] at h
              cases h
          | ok rest =>
              rw [hpayload, hrest] at h
              cases h
              rcases snapshot_ok cfg hpayload with ⟨rfl, hpart, hnone⟩ | ⟨part, state, rfl, hpart, hsome⟩
              · simp only [List.filterMap_cons, hpart, hnone, id]
                exact ih hrest
              · simp only [List.filterMap_cons, hpart, hsome, id, List.zipWith_cons_cons]
                exact congrArg (snapshotPacket cfg J s part state :: ·) (ih hrest)

theorem snapshotPackets_ok (h : snapshotPackets cfg J s advertised = .ok packets) :
    packets = s.stateCache.state.filterMap (snapshotOf cfg J s advertised) := by
  unfold snapshotPackets PrinterStateCache.snapshots at h
  cases hpayloads : s.stateCache.state.mapM fun p => s.stateCache.snapshot J advertised (some p.1) with
  | error x =>
      rw [hpayloads] at h
      cases h
  | ok payloads =>
      rw [hpayloads] at h
      cases h
      exact snapshots_packets hpayloads

end

end MQTTProxy

-- `_broadcast_report`, `_deliver`, `_send_state_snapshot` and the handlers of the clients, in any order.
def mqttProxy (cfg : MqttSettings) (J : Codec) : Machine MQTTProxy MQTTProxy.Act := ⟨MQTTProxy.step cfg J⟩

end PandaProxy.Mqtt
