import PandaProxy.Mqtt.Registry
import PandaProxy.Mqtt.ServerTurns
import PandaProxy.Mqtt.Shutdown

namespace PandaProxy.Mqtt

open Async Json Python

namespace MQTTProxy

def loopClient (x : Client) : LoopClient Publish :=
  ⟨x.clientId, x.queue.map some, if x.stage = .serving then .getting else .finished, x.closed⟩

def loops (s : MQTTProxy) : ClientLoops Publish where
  running := true
  clients := s.clients
  clientWriters := s.clientWriters
  conn := loopClient ∘ s.conn
  accepted := s.accepted

def LoopSteps (s s' : MQTTProxy) : Prop := (ClientLoops.machine Publish).Runs Machine.Free s.loops s'.loops

variable {cfg : MqttSettings} {J : Codec} {s s' s'' : MQTTProxy} {c : Nat}

theorem LoopSteps.same (h : s'.loops = s.loops) : LoopSteps s s' := by
  rw [LoopSteps, h]
  exact .refl

theorem LoopSteps.single {a : ClientLoops.Act Publish} (h : s.loops.step a = some s'.loops) : LoopSteps s s' :=
  Relation.ReflTransGen.single ⟨a, h, trivial⟩

theorem loops_setConn {f : Client → Client} : (s.setConn c f).loops = s.loops.setConn c (loopClient (f (s.conn c))) := by
  simp only [loops, setConn, ClientLoops.setConn, Function.comp_update]

theorem loops_put {packet : Publish} (hroom : (s.conn c).queue.length < clientQueueSize) :
    s.loops.putNowait c (some packet) = some (s.put c packet).loops := by
  have hlength : (s.loops.conn c).queue.length < clientQueueSize := by simpa [loops, loopClient] using hroom
  rw [ClientLoops.putNowait, if_pos hlength, put, loops_setConn]
  simp [loopClient, loops]

theorem deliver_loops (s : MQTTProxy) (id : String) (c : Nat) (packet : Publish) :
    LoopSteps s (s.deliver id c packet).2 := by
  refine .single (a := .deliver id c packet) (congrArg some ?_)
  unfold MQTTProxy.deliver ClientLoops.deliver
  by_cases hroom : (s.conn c).queue.length < clientQueueSize
  · rw [loops_put hroom, if_pos hroom]
  · have hfull : s.loops.putNowait c (some packet) = none := by
      have hlength : ¬ (s.loops.conn c).queue.length < clientQueueSize := by simpa [loops, loopClient] using hroom
      rw [ClientLoops.putNowait, if_neg hlength]
    rw [hfull, if_neg hroom]
    have hwriters : s.loops.clientWriters = s.clientWriters := rfl
    dsimp only
    rw [hwriters]
    cases hwriter : Dict.get s.clientWriters id with
    | none => rfl
    | some writer =>
        show (s.loops.forget id).closeWriter writer = ((s.forget id).closeWriter writer).loops
        rw [MQTTProxy.closeWriter, loops_setConn]
        rfl

theorem relay_loops {b : Broadcast} (targets : List (String × Nat)) : LoopSteps s (relay J b targets s) := by
  induction targets generalizing s with
  | nil => exact .same rfl
  | cons target targets ih =>
      obtain ⟨id, c⟩ := target
      simp only [relay]
      split
      · exact .same rfl
      · next data _ =>
          have hdeliver := deliver_loops s id c ⟨b.topic, data, .relayed b.payload, s.connections⟩
          split
          · next s' hs' =>
              rw [hs'] at hdeliver
              exact hdeliver.trans ih
          · next s' hs' =>
              rw [hs'] at hdeliver
              exact hdeliver

theorem replay_loops {t : Nat} {id : String} (packets : List Publish) : LoopSteps s (replay t id c packets s) := by
  induction packets generalizing s with
  | nil => exact .same rfl
  | cons packet packets ih =>
      simp only [replay]
      have hdeliver := deliver_loops s id c packet
      split
      · next s' hs' =>
          rw [hs'] at hdeliver
          exact hdeliver.trans ih
      · next s' hs' =>
          rw [hs'] at hdeliver
          exact hdeliver

theorem takenIn_loops (cfg : MqttSettings) (J : Codec) (s : MQTTProxy) (topic : String) (payload : List UInt8) :
    (takenIn cfg J s topic payload).loops = s.loops := by
  obtain ⟨cache, primed, reports, h⟩ := takenIn_same cfg J s topic payload
  rw [h]
  rfl

theorem register_loops (id : String) (sockname : Option String) : LoopSteps s (register cfg s id sockname) := by
  unfold register
  split
  · exact .single (a := .refuse id) rfl
  · refine .single (a := .register id) (congrArg some ?_)
    simp only [loops, ClientLoops.register, ClientLoops.setConn, Function.comp_update]
    rfl

theorem send_loops {packet : Publish} {queue : List Publish} (hstage : (s.conn c).stage = .serving)
    (hqueue : (s.conn c).queue = packet :: queue) :
    LoopSteps s (s.setConn c fun x =>
      { x with queue := queue, written := if x.closed then x.written else x.written ++ [packet] }) := by
  have hconn : s.loops.conn c = ⟨(s.conn c).clientId, some packet :: queue.map some, .getting, (s.conn c).closed⟩ := by
    simp [loops, loopClient, hstage, hqueue]
  have hget : s.loops.step (.get c) = some (s.loops.setConn c
      ⟨(s.conn c).clientId, queue.map some, .writing, (s.conn c).closed⟩) := by
    simp only [ClientLoops.step, hconn]
  have hdrained : (s.loops.setConn c ⟨(s.conn c).clientId, queue.map some, .writing, (s.conn c).closed⟩).step (.drained c) =
      some (s.setConn c fun x =>
        { x with queue := queue, written := if x.closed then x.written else x.written ++ [packet] }).loops := by
    simp only [ClientLoops.step, ClientLoops.setConn_self, loops_setConn, loopClient, hstage, if_true]
    simp [ClientLoops.setConn]
  exact .head ⟨.get c, hget, trivial⟩ (.single ⟨.drained c, hdrained, trivial⟩)

theorem finish_loops : LoopSteps s (s.setConn c fun x => { x with stage := .ended }) := by
  refine .single (a := .finish c) (congrArg some ?_)
  rw [loops_setConn]
  rfl

theorem leave_loops (hstage : (s.conn c).stage = .ended) :
    LoopSteps s ((s.forget (s.conn c).clientId).setConn c fun x => { x with stage := .over, closed := true }) := by
  refine .single (a := .leave c) ?_
  have hconn : s.loops.conn c = ⟨(s.conn c).clientId, (s.conn c).queue.map some, .finished, (s.conn c).closed⟩ := by
    simp [loops, loopClient, hstage]
  have hleft : s.loops.step (.leave c) = some ((s.loops.forget (s.loops.conn c).clientId).closeWriter c) := by
    simp only [ClientLoops.step, hconn]
  rw [hleft, loops_setConn, hconn]
  simp only [ClientLoops.closeWriter, ClientLoops.forget, hconn]
  rfl

theorem step_loops {a : Act} (hstep : step cfg J s a = some s') : LoopSteps s s' := by
  cases step_cases hstep with
  | message hup =>
      rename_i topic payload
      rcases handleMessage_cases cfg J s topic payload with h | ⟨personalised, h, _⟩
      · rw [h]
        exact .same (takenIn_loops cfg J s topic payload)
      · rw [h]
        exact Relation.ReflTransGen.trans (LoopSteps.same (takenIn_loops cfg J s topic payload)) (relay_loops _)
  | hungUp hup => exact relay_loops _
  | register => exact register_loops _ _
  | replay hwaiting hprimed hget hpackets => exact replay_loops _
  | replayHungUp ht => exact replay_loops _
  | send hstage hqueue => exact send_loops hstage hqueue
  | finish hstage => exact finish_loops
  | leave hstage => exact leave_loops hstage
  | _ => exact .same rfl

end MQTTProxy

-- Up to `stop`, the server's clients come to nothing that their send loops alone do not come to.
theorem clients_are_loops {cfg : ServerSettings} {J : Codec} {peers : Nat → Peer} {c : ServerConfig}
    (hrun : (mqttServer cfg J).Runs (fun _ _ _ => True) (listening peers) c) :
    (ClientLoops.machine Publish).Runs Machine.Free .init c.env.proxy.loops :=
  Server.keeps_proxy (I := fun s => (ClientLoops.machine Publish).Runs Machine.Free .init s.loops) .refl
    (fun _ _ _ h hstep => Relation.ReflTransGen.trans h (MQTTProxy.step_loops hstep)) hrun

end PandaProxy.Mqtt
