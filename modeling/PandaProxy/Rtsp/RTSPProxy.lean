import PandaProxy.Async.System

namespace PandaProxy.Rtsp

open Async

inductive Kind where
  | mediamtx
  | ffmpeg
  deriving DecidableEq, Repr

-- The coroutines of an `RTSPProxy` that `run_proxy` has running: `start`, `run_monitor_loop` and `stop`.
inductive Task where
  | start
  | monitor
  | stop
  deriving DecidableEq, Repr

inductive Exc where
  | cancelled
  | timeout
  | fileNotFound
  | os
  | processLookup
  | other
  deriving DecidableEq, Repr

inductive Op where
  | setRunning (running : Bool)
  | running
  -- `_create_mediamtx_config`, and the path in `_config_path`.
  | createConfig
  -- Parts of `create_subprocess_exec`: there is a process then, whose pipes are connected next.
  | popen (kind : Kind)
  | connectPipes (p : Nat)
  | closeTransport (p : Nat)
  | reap (p : Nat)
  | assign (kind : Kind) (p : Nat)
  | createLogTask (kind : Kind)
  | sleep (seconds : Nat)
  | process (kind : Kind)
  -- Whether `returncode` is set.
  | exited (p : Nat)
  | terminate (p : Nat)
  | wait (p : Nat) (timeout : Nat)
  | kill (p : Nat)
  | forget (kind : Kind)
  -- `cancel_task` on a log task, if there is one, and its field emptied.
  | dropLogTask (kind : Kind)
  | dropLogTasks
  | enlist
  -- Whether there is a monitor task, which is cancelled then.
  | cancelMonitor
  | joinMonitor
  | removeConfig
  -- What the caller of a coroutine gets to see: it has returned, or it has ended in whatever way.
  | returned
  | ended
  deriving DecidableEq

@[reducible]
def Op.Answer : Op → Type
  | .running => Bool
  | .popen _ => Nat
  | .process _ => Option Nat
  | .exited _ => Bool
  | .cancelMonitor => Bool
  | _ => Unit

abbrev Session (α : Type) := Coro Task Op Op.Answer Exc α

inductive Label where
  | entry
  | watching
  | leaving
  deriving DecidableEq, Repr

abbrev ask (i : Op) : Session i.Answer := Coro.perform i

-- A process whose pipes are not connected is killed again.
def createSubprocessExec (kind : Kind) : Session Nat := do
  let p : Nat ← ask (.popen kind)
  Coro.tryCatch (ask (.connectPipes p)) fun x => do
    ask (.closeTransport p)
    ask (.reap p)
    Coro.raise x
  pure p

-- `_start_mediamtx` and `_start_ffmpeg`.
def startProcess (kind : Kind) : Session Unit := do
  let p ← createSubprocessExec kind
  ask (.assign kind p)
  ask (.createLogTask kind)

def start : Session Unit := do
  ask (.setRunning true)
  ask .createConfig
  startProcess .mediamtx
  ask (.sleep 2)
  startProcess .ffmpeg

def checkProcess (kind : Kind) (restart : Session Unit) : Session Unit := do
  let process ← ask (.process kind)
  match process with
  | none => pure ()
  | some p => do
      let exited ← ask (.exited p)
      let running ← ask .running
      if exited && running then do
        ask (.dropLogTask kind)
        restart
      else pure ()

def restartMediamtx : Session Unit := do
  startProcess .mediamtx
  ask (.sleep 2)

def restartFfmpeg : Session Unit := do
  ask (.sleep 5)
  startProcess .ffmpeg

-- One turn of the loop in `_monitor_processes`, and whether there is to be another.
def monitorProcesses : Session Bool := do
  let running ← ask .running
  if !running then pure false
  else do
    ask (.sleep 5)
    Coro.tryCatch (do
      checkProcess .mediamtx restartMediamtx
      checkProcess .ffmpeg restartFfmpeg) fun x => if x = .cancelled then Coro.raise x else pure ()
    pure true

def cancelMonitor : Session Unit := do
  let monitored ← ask .cancelMonitor
  if monitored then Coro.suppress (fun x => decide (x = .cancelled)) (ask .joinMonitor) else pure ()

def stopProcess (kind : Kind) : Session Unit := do
  let process ← ask (.process kind)
  match process with
  | none => pure ()
  | some p => do
      ask (.terminate p)
      Coro.tryCatch (ask (.wait p 5)) fun x => if x = .timeout then ask (.kill p) else Coro.raise x
      ask (.forget kind)

def stop : Session Unit := do
  ask (.setRunning false)
  cancelMonitor
  stopProcess .ffmpeg
  stopProcess .mediamtx
  ask .dropLogTasks
  ask .removeConfig

def body : Label → Session (Option Label)
  | .entry => do
      let task ← Coro.get
      match task with
      | .start => do
          start
          ask .returned
          pure (some .leaving)
      | .monitor => do
          ask .enlist
          pure (some .watching)
      | .stop => do
          stop
          ask .returned
          pure (some .leaving)
  | .watching => do
      let goesOn ← monitorProcesses
      pure (some (if goesOn then .watching else .leaving))
  | .leaving => do
      ask .ended
      pure none

def rescue : Label → Exc → Option Label
  | .entry, _ => some .leaving
  | .watching, _ => some .leaving
  | .leaving, _ => none

structure Process where
  kind : Kind
  -- Its `returncode` is not set yet.
  alive : Bool
  -- SIGKILL has been sent to it.
  killed : Bool
  -- Its transport is closed: no signal can be sent to it any more.
  lost : Bool
  -- The task that logs its output has not ended.
  reading : Bool

structure RTSPProxy where
  running : Bool
  process : Kind → Option Nat
  logTask : Kind → Option Nat
  monitorTask : Bool
  configPath : Option Nat
  -- What `create_subprocess_exec` has not returned yet.
  opening : Kind → Option Nat
  -- The system's own processes and files.
  launched : Nat
  processes : Nat → Process
  files : List Nat
  made : Nat
  -- Why the next file cannot be written, and whether it is there all the same.
  disk : Option (Exc × Bool)
  -- Why the next process cannot be started: its program is missing, or the system refuses it.
  exec : Option Bool
  begun : Task → Bool
  returned : Task → Bool
  ended : Task → Bool
  cancelling : Task → Bool
  -- A `CancelledError` has been raised in it.
  thrown : Task → Bool

namespace RTSPProxy

def init : RTSPProxy where
  running := false
  process _ := none
  logTask _ := none
  monitorTask := false
  configPath := none
  opening _ := none
  launched := 0
  processes _ := ⟨.ffmpeg, false, false, false, false⟩
  files := []
  made := 0
  disk := none
  exec := none
  begun _ := false
  returned _ := false
  ended _ := false
  cancelling _ := false
  thrown _ := false

def setProcess (e : RTSPProxy) (p : Nat) (f : Process → Process) : RTSPProxy :=
  { e with processes := Function.update e.processes p (f (e.processes p)) }

def popen (e : RTSPProxy) (kind : Kind) : RTSPProxy :=
  { e with
    opening := Function.update e.opening kind (some e.launched)
    processes := Function.update e.processes e.launched ⟨kind, true, false, false, false⟩
    launched := e.launched + 1 }

def closeTransport (e : RTSPProxy) (p : Nat) : RTSPProxy :=
  { e.setProcess p fun x => { x with killed := true } with opening := Function.update e.opening (e.processes p).kind none }

def assign (e : RTSPProxy) (kind : Kind) (p : Nat) : RTSPProxy :=
  { e with process := Function.update e.process kind (some p), opening := Function.update e.opening kind none }

def dropLogTask (e : RTSPProxy) (kind : Kind) : RTSPProxy :=
  match e.logTask kind with
  | some p => { e.setProcess p fun x => { x with reading := false } with logTask := Function.update e.logTask kind none }
  | none => e

def createConfig (e : RTSPProxy) : Except Exc Unit × RTSPProxy :=
  match e.disk with
  | none => (.ok (), { e with configPath := some e.made, files := e.made :: e.files, made := e.made + 1 })
  | some (x, left) => (.error x, if left then { e with files := e.made :: e.files, made := e.made + 1 } else e)

def removeConfig (e : RTSPProxy) : RTSPProxy :=
  match e.configPath with
  | some path => if path ∈ e.files then { e with configPath := none, files := e.files.filter fun file => file ≠ path } else e
  | none => e

def signal (e : RTSPProxy) (p : Nat) : Except Exc Unit := if (e.processes p).lost then .error .processLookup else .ok ()

-- What is answered without a switch to another task.
def sync (j : Task) : (i : Op) → RTSPProxy → Option (Except Exc i.Answer × RTSPProxy)
  | .setRunning running, e => some (.ok (), { e with running := running })
  | .running, e => some (.ok e.running, e)
  | .createConfig, e => some e.createConfig
  | .popen kind, e =>
      match e.exec with
      | none => some (.ok e.launched, e.popen kind)
      | some missing => some (.error (if missing then .fileNotFound else .os), e)
  | .connectPipes _, _ => none
  | .closeTransport p, e => some (.ok (), e.closeTransport p)
  | .reap _, _ => none
  | .assign kind p, e => some (.ok (), e.assign kind p)
  | .createLogTask kind, e =>
      match e.process kind with
      | some p => some (.ok (),
          { e.setProcess p fun x => { x with reading := true } with logTask := Function.update e.logTask kind (some p) })
      | none => some (.error .other, e)
  | .sleep _, _ => none
  | .process kind, e => some (.ok (e.process kind), e)
  | .exited p, e => some (.ok (!(e.processes p).alive), e)
  | .terminate p, e => some (e.signal p, e)
  | .wait _ _, _ => none
  | .kill p, e => some (e.signal p, if (e.processes p).lost then e else e.setProcess p fun x => { x with killed := true })
  | .forget kind, e => some (.ok (), { e with process := Function.update e.process kind none })
  | .dropLogTask kind, e => if e.logTask kind = none then some (.ok (), e) else none
  | .dropLogTasks, e => if e.logTask .ffmpeg = none ∧ e.logTask .mediamtx = none then some (.ok (), e) else none
  | .enlist, e => some (.ok (), { e with monitorTask := true })
  | .cancelMonitor, e =>
      some (.ok e.monitorTask,
        if e.monitorTask && !e.ended .monitor then { e with cancelling := Function.update e.cancelling .monitor true } else e)
  | .joinMonitor, _ => none
  | .removeConfig, e => some (.ok (), e.removeConfig)
  | .returned, e => some (.ok (), { e with returned := Function.update e.returned j true })
  | .ended, e => some (.ok (), { e with ended := Function.update e.ended j true })

def awaken (e : RTSPProxy) : (i : Op) → Except Exc i.Answer → Option RTSPProxy
  | .connectPipes _, .ok _ => some e
  | .connectPipes _, .error .os => some e
  | .reap p, .ok _ => if (e.processes p).alive then none else some e
  | .sleep _, .ok _ => some e
  | .wait p _, .ok _ => if (e.processes p).alive then none else some e
  | .wait _ _, .error .timeout => some e
  | .dropLogTask kind, .ok _ => some (e.dropLogTask kind)
  -- The log task has ended in an exception of its own.
  | .dropLogTask _, .error .other => some e
  | .dropLogTasks, .ok _ => some ((e.dropLogTask .ffmpeg).dropLogTask .mediamtx)
  | .dropLogTasks, .error .other => some e
  | .joinMonitor, .ok _ => if e.ended .monitor then some e else none
  | _, _ => none

-- `cancel_task` keeps a `CancelledError` to itself, also one that was meant for its caller. Where it is a task
-- that is awaited, that task is cancelled in its stead, and may end otherwise.
def swallows : Op → Bool
  | .dropLogTask _ => true
  | .joinMonitor => true
  | _ => false

def interruptible (e : RTSPProxy) : Op → Bool
  | .dropLogTask _ => false
  | .joinMonitor => e.ended .monitor
  | _ => true

def resume (j : Task) (i : Op) (r : Except Exc i.Answer) (e : RTSPProxy) : Option RTSPProxy :=
  if e.cancelling j then
    let e' := { e with cancelling := Function.update e.cancelling j false }
    match r with
    | .error .cancelled =>
        if e.interruptible i then some { e' with thrown := Function.update e.thrown j true } else none
    | r => if swallows i then e'.awaken i r else none
  else e.awaken i r

-- The monitor is created once `start` has returned, and not after `stop` has begun; its first turn puts it into
-- `_monitor_task`. With `orderly` it comes to `stop` only when `start` has ended, as it does unless the start of another
-- service fails meanwhile.
def spawn (orderly : Bool) (j : Task) (e : RTSPProxy) : Option (Task × RTSPProxy) :=
  let due := match j with
    | .start => true
    | .monitor => e.returned .start && e.ended .start && !e.begun .stop
    | .stop => e.begun .start && (!e.begun .monitor || e.monitorTask) && (!orderly || e.ended .start)
  if due && !e.begun j then some (j, { e with begun := Function.update e.begun j true }) else none

inductive Tick where
  | exit (p : Nat)
  | lose (p : Nat)
  | readerEnds (p : Nat)
  | cancel (j : Task)
  | disk (x : Option (Exc × Bool))
  | exec (x : Option Bool)

def tick (e : RTSPProxy) : Tick → Option RTSPProxy
  | .exit p => some (e.setProcess p fun x => { x with alive := false })
  | .lose p => if (e.processes p).alive then none else some (e.setProcess p fun x => { x with lost := true })
  | .readerEnds p => some (e.setProcess p fun x => { x with reading := false })
  | .cancel j => some { e with cancelling := Function.update e.cancelling j true }
  | .disk x => some { e with disk := x }
  | .exec x => some { e with exec := x }

abbrev world (j : Task) : World RTSPProxy Op Op.Answer Exc := ⟨sync j, resume j⟩

end RTSPProxy

def rtspProxy (orderly : Bool) : System Task Label Task RTSPProxy Op Op.Answer Exc RTSPProxy.Tick where
  first := .entry
  body := body
  rescue := rescue
  world := RTSPProxy.world
  spawn := RTSPProxy.spawn orderly
  tick b e := e.tick b

abbrev RtspConfig := Config Task Label Task RTSPProxy Op Op.Answer Exc

abbrev RtspAct := Act Task Op Op.Answer Exc RTSPProxy.Tick

def constructed : RtspConfig := ⟨fun _ => .idle, .init⟩

end PandaProxy.Rtsp
