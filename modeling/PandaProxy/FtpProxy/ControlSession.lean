import Mathlib.Algebra.Order.Ring.Unbundled.Rat
import PandaProxy.Async.Coro
import PandaProxy.FtpProxy.Replies
import PandaProxy.FtpQueue.SessionQueue
import PandaProxy.Python.PosixPath

namespace PandaProxy.FtpProxy

open Async Python FtpQueue

def upstreamIdleTimeout : ℚ := 30

def clientIdleTimeout : ℚ := 300

def dataCommitGrace : ℚ := 300

def dataPostTransferGrace : ℚ := 30

def transferCompletionTimeout : ℚ := 3600

def maxControlLine : Nat := 4096

inductive Exc where
  | cancelled
  | timeout
  | connectionReset
  | ssl
  | os
  | value
  | other
  deriving DecidableEq, Repr

namespace Exc

-- `TimeoutError`, `ConnectionResetError` and `ssl.SSLError` are kinds of `OSError`.
def isOSError : Exc → Bool
  | timeout => true
  | connectionReset => true
  | ssl => true
  | os => true
  | _ => false

-- `asyncio.CancelledError` is not an `Exception`.
def isException : Exc → Bool
  | cancelled => false
  | _ => true

end Exc

-- What the session writes to the printer: a client's line as it came, or a command of its own.
inductive Request where
  | forward (command argument line : String)
  | issue (command argument : String)
  deriving DecidableEq, Repr

namespace Request

def wire : Request → String
  | forward _ _ line => line
  | issue command argument => if command ∈ ["PASV", "EPSV"] then command else command ++ " " ++ argument

end Request

inductive Op where
  | running
  | monotonic
  | writeClient (line : String)
  | drainClient
  | readline (timeout : ℚ)
  | createAcquire (priority : Int)
  | createGone
  | waitSlot
  | acquireResult
  | cancelGone
  | awaitGone
  | cancelAcquire
  | awaitAcquire
  | queueRelease
  | openConnection
  | writeUpstream (request : Request)
  | drainUpstream
  | readReply
  | closeUpstream
  | upstreamClosed
  | abortUpstream
  | closeClient
  | clientClosed
  | abortClient
  | acquirePort
  | releasePort (port : Int)
  | startServer (port : Int)
  | createSupervisor (port : Int)
  | setMoved (moved : Nat)
  | moved
  | endpointDone (relay : Nat)
  | taskDone (relay : Nat)
  | setCommandSeen (relay : Nat)
  | setEndpoint (relay : Nat) (host : String) (port : Int)
  | cancelHandlers (relay : Nat)
  | gatherHandlers (relay : Nat)
  | cancelTask (relay : Nat)
  | awaitTask (relay : Nat)
  | createReply (deadline : ℚ)
  | waitReply (relay : Option Nat)
  | replyResult
  | awaitReply (grace : ℚ)
  | cancelReply
  | awaitReplyCancelled
  deriving DecidableEq

namespace Op

@[reducible] def Answer : Op → Type
  | running => Bool
  | monotonic => ℚ
  | readline _ => List UInt8
  | waitSlot => Bool
  | readReply => Option String
  | acquirePort => Option Int
  | createSupervisor _ => Nat
  | moved => Nat
  | endpointDone _ => Bool
  | taskDone _ => Bool
  | cancelHandlers _ => Bool
  | waitReply _ => Bool
  | replyResult => Option String
  | awaitReply _ => Option String
  | _ => Unit

end Op

-- The five fields a passive request sets, always together, and a cancelled relay clears, always
-- together: the number stands for the task, the future, the event and the set of handlers.
structure DataRelay where
  relay : Nat
  port : Int
  deriving DecidableEq, Repr

structure ControlSession where
  accessCode : String
  printerIp : String
  localIp : String
  localIpv4 : Option String
  authenticated : Bool
  upstream : Bool
  holdsSlot : Bool
  upstreamLastUsed : ℚ
  state : String → Option String
  cwd : String
  lostSettings : List String
  data : Option DataRelay
  passiveMode : Option String

namespace ControlSession

def init (accessCode printerIp localIp : String) (localIpv4 : Option String) : ControlSession where
  accessCode := accessCode
  printerIp := printerIp
  localIp := localIp
  localIpv4 := localIpv4
  authenticated := false
  upstream := false
  holdsSlot := false
  upstreamLastUsed := 0
  state := fun _ => none
  cwd := "/"
  lostSettings := []
  data := none
  passiveMode := none

def discardLost (name : String) (s : ControlSession) : ControlSession :=
  { s with lostSettings := s.lostSettings.filter (fun n => n ≠ name) }

def addLost (name : String) (s : ControlSession) : ControlSession :=
  { s with lostSettings := if name ∈ s.lostSettings then s.lostSettings else name :: s.lostSettings }

def setState (name : String) (value : Option String) (s : ControlSession) : ControlSession :=
  { s with state := Function.update s.state name value }

-- A refused setting is not replayed again; the client has to give it anew.
def forget (name : String) (s : ControlSession) : ControlSession :=
  addLost name (if name = "CWD" then { s with cwd := "/" } else setState name none s)

def recordCwd (argument : String) (s : ControlSession) : ControlSession :=
  let s := discardLost "CWD" s
  let path :=
    if Str.startswith argument "/" then PosixPath.normpath argument.toList
    else PosixPath.normpath (PosixPath.join s.cwd.toList argument.toList)
  { s with cwd := if PosixPath.isAbs path then .ofList path else "/" }

end ControlSession

abbrev Session (α : Type) := Coro ControlSession Op Op.Answer Exc α

namespace Session

open Coro ControlSession

def ask (i : Op) : Session i.Answer := perform i

def send (line : String) : Session Unit := do
  ask (.writeClient line)
  ask .drainClient

-- `close_writer`, for the printer's control connection and for the client's.
def closeUpstreamWriter : Session Unit := do
  ask .closeUpstream
  tryCatch (ask .upstreamClosed) fun
    | .timeout => ask .abortUpstream
    | x => if x.isOSError then pure () else raise x

def closeClientWriter : Session Unit := do
  ask .closeClient
  tryCatch (ask .clientClosed) fun
    | .timeout => ask .abortClient
    | x => if x.isOSError then pure () else raise x

def readUpstreamReply : Session (Option String) := do
  let s ← get
  if s.upstream then ask .readReply else pure none

def sendUpstream (request : Request) : Session (Option String) := do
  let s ← get
  if s.upstream then
    let now : ℚ ← ask .monotonic
    modify fun s => { s with upstreamLastUsed := now }
    ask (.writeUpstream request)
    ask .drainUpstream
    readUpstreamReply
  else pure none

def releaseUpstream : Session Unit := do
  let s ← get
  modify fun s => { s with upstream := false }
  tryFinally (if s.upstream then closeUpstreamWriter else pure ()) do
    let s ← get
    if s.holdsSlot then
      modify fun s => { s with holdsSlot := false }
      ask .queueRelease

-- The `finally` clause of `_acquire_slot`, its second half first.
def abandonAcquire : Session Unit := do
  ask .cancelAcquire
  let outcome ← attempt (ask .awaitAcquire)
  match outcome with
  | .error .cancelled => pure ()
  | .error x => raise x
  | .ok _ => ask .queueRelease

def leaveQueue (granted : Bool) : Session Unit := do
  ask .cancelGone
  suppress (fun x => x == .cancelled) (ask .awaitGone)
  if granted then pure () else abandonAcquire

-- The `try` body of `_acquire_slot`.
def waitTurn : Session Bool := do
  let acquired : Bool ← ask .waitSlot
  if acquired then
    ask .acquireResult
    pure true
  else pure false

def granted : Except Exc Bool → Bool
  | .ok true => true
  | _ => false

def acquireSlot (priority : Int) : Session Bool := do
  ask (.createAcquire priority)
  ask .createGone
  let outcome ← attempt waitTurn
  leaveQueue (granted outcome)
  match outcome with
  | .ok b => pure b
  | .error x => raise x

def loginUpstream : Session Bool := do
  let userReply ← sendUpstream (.issue "USER" "bblp")
  match userReply with
  | none => pure false
  | some userReply =>
      if Str.startswith userReply "2" then pure true
      else if Str.startswith userReply "3" then
        let s ← get
        let passReply ← sendUpstream (.issue "PASS" s.accessCode)
        match passReply with
        | none => pure false
        | some passReply => pure (Str.startswith passReply "2")
      else pure false

def replayAll : List (String × String) → Session Bool
  | [] => pure true
  | (command, argument) :: rest => do
      let reply ← sendUpstream (.issue command argument)
      if (reply.any fun r => Str.startswith r "2") then replayAll rest
      else
        modify (forget command)
        pure false

def replayList (s : ControlSession) : List (String × String) :=
  (["PBSZ", "PROT", "TYPE"].filterMap fun name => (s.state name).map fun value => (name, value)) ++
    if s.cwd = "" ∨ s.cwd = "/" then [] else [("CWD", s.cwd)]

def replayState : Session Bool := do
  let s ← get
  replayAll (replayList s)

-- `_ensure_upstream` once it is connected.
def setUp : Session Bool := do
  let greeting ← readUpstreamReply
  if greeting.isNone then
    releaseUpstream
    pure false
  else
    let loggedIn ← loginUpstream
    if !loggedIn then
      releaseUpstream
      pure false
    else
      let replayed ← replayState
      if !replayed then
        releaseUpstream
        pure false
      else
        let now : ℚ ← ask .monotonic
        modify fun s => { s with upstreamLastUsed := now }
        pure true

def connect : Session Bool := do
  let outcome ← attempt (ask .openConnection)
  match outcome with
  | .error x =>
      if x.isOSError then
        releaseUpstream
        pure false
      else raise x
  | .ok _ =>
      modify fun s => { s with upstream := true }
      setUp

def ensureUpstream (priority : Int) : Session Bool := do
  let s ← get
  if s.upstream then pure true
  else
    let acquired ← acquireSlot priority
    if !acquired then pure false
    else
      modify fun s => { s with holdsSlot := true }
      connect

def cancelDataRelay : Session Unit := do
  let s ← get
  modify fun s => { s with data := none, passiveMode := none }
  match s.data with
  | none => pure ()
  | some d =>
      let any : Bool ← ask (.cancelHandlers d.relay)
      if any then ask (.gatherHandlers d.relay)
      ask (.cancelTask d.relay)
      suppress (fun x => x == .cancelled || x == .timeout) (ask (.awaitTask d.relay))

def openPassiveRelay : Session (Option Int) := do
  cancelDataRelay
  ask (.setMoved 0)
  let port : Option Int ← ask .acquirePort
  match port with
  | none => pure none
  | some port =>
      let outcome ← attempt (ask (.startServer port))
      match outcome with
      | .error x =>
          if x.isException then
            ask (.releasePort port)
            pure none
          else raise x
      | .ok _ =>
          let relay : Nat ← ask (.createSupervisor port)
          modify fun s => { s with data := some ⟨relay, port⟩ }
          pure (some port)

inductive Offer where
  | lost
  | refused
  | port (port : Int)

def expected (command : String) : String := if command = "PASV" then "227" else "229"

def offered (command reply : String) : Option Int :=
  if command = "PASV" then (parsePasvReply reply).map Prod.snd else parseEpsvReply reply

def askPassive : List String → Session Offer
  | [] => pure .refused
  | command :: rest => do
      let reply ← sendUpstream (.issue command "")
      match reply with
      | none => pure .lost
      | some reply =>
          if Str.startswith reply (expected command) then
            match offered command reply with
            | some port => pure (.port port)
            | none => askPassive rest
          else askPassive rest

def prepareUpstreamData : Session Bool := do
  let s ← get
  match s.data with
  | none => pure true
  | some d =>
      let done : Bool ← ask (.endpointDone d.relay)
      if done then pure true
      else
        let gone : Bool ← ask (.taskDone d.relay)
        if gone then
          cancelDataRelay
          send "425 Data connection expired, use PASV again\r\n"
          pure false
        else
          let offer ← askPassive ["PASV", "EPSV"]
          match offer with
          | .lost =>
              cancelDataRelay
              send "421 Lost connection to printer\r\n"
              releaseUpstream
              pure false
          | .refused =>
              cancelDataRelay
              send "425 Cannot open passive connection\r\n"
              pure false
          | .port port =>
              ask (.setEndpoint d.relay s.printerIp port)
              pure true

def awaitCompletion : Session (Option String) := do
  ask (.createReply transferCompletionTimeout)
  let s ← get
  let replied : Bool ← ask (.waitReply (s.data.map DataRelay.relay))
  if replied then ask .replyResult
  else
    let moved : Nat ← ask .moved
    let grace := if moved ≠ 0 then dataCommitGrace else dataPostTransferGrace
    tryCatch (ask (.awaitReply grace)) fun
      | .timeout => do
          ask .cancelReply
          suppress (fun x => x == .cancelled) (ask .awaitReplyCancelled)
          pure none
      | x => raise x

def handleLocal (command argument : String) : Session Bool := do
  let s ← get
  if command = "USER" then
    send "331 Password required\r\n"
    pure true
  else if command = "PASS" then
    if argument ≠ s.accessCode then
      send "530 Login incorrect\r\n"
      pure true
    else
      modify fun s => { s with authenticated := true }
      send "230 Login successful\r\n"
      pure true
  else if command ∈ ["PORT", "EPRT"] then
    send "502 Active mode not supported, use PASV\r\n"
    pure true
  else if command = "AUTH" then
    send "534 Already using TLS\r\n"
    pure true
  else if command = "FEAT" then
    send "211-Features:\r\n PASV\r\n EPSV\r\n PBSZ\r\n PROT\r\n"
    send "211 End\r\n"
    pure true
  else if command = "SYST" then
    send "215 UNIX Type: L8\r\n"
    pure true
  else if command ∈ ["NOOP", "OPTS"] then
    send "200 OK\r\n"
    pure true
  else if command ∈ statefulCommands then
    if command ∈ ["CWD", "CDUP"] then pure false
    else if s.upstream then pure false
    else
      modify (setState command (some argument))
      modify (discardLost command)
      send ("200 " ++ command ++ " set to " ++ argument ++ "\r\n")
      pure true
  else pure false

def recordAccepted (command argument : String) (s : ControlSession) : ControlSession :=
  if command ∈ ["CWD", "CDUP"] then recordCwd (if command = "CDUP" then ".." else argument) s
  else if command ∈ statefulCommands then discardLost command (setState command (some argument) s)
  else s

def recordReply (command argument reply : String) (s : ControlSession) : ControlSession :=
  if Str.startswith reply "2" then recordAccepted command argument s else s

def finishTransfer : Session Unit := do
  let final ← awaitCompletion
  match final with
  | none =>
      send "426 Transfer aborted\r\n"
      releaseUpstream
  | some final => send final

-- `_handle_upstream` from its end backwards: what is left once the printer has answered, and once
-- the command can be written to it.
def answerClient (command argument : String) : Option String → Session Unit
  | none => do
      cancelDataRelay
      send "421 Lost connection to printer\r\n"
      releaseUpstream
  | some reply => do
      modify (recordReply command argument reply)
      send reply
      if Str.startswith reply "1" && decide (command ∈ transferCommands) then finishTransfer
      else pure ()

def forward (command argument line : String) : Session Unit := do
  let reply ← sendUpstream (.forward command argument line)
  answerClient command argument reply

def priorityOf (command : String) : Int :=
  if command ∈ uploadCommands then priorityUpload else priorityNormal

def connectAndForward (command argument line : String) : Session Unit := do
  let connected ← ensureUpstream (priorityOf command)
  if !connected then
    cancelDataRelay
    send "421 Printer unavailable, try again later\r\n"
  else if command ∈ transferCommands then
    let prepared ← prepareUpstreamData
    if prepared then forward command argument line
  else forward command argument line

def handleUpstream (command argument line : String) : Session Unit := do
  let s ← get
  if s.lostSettings ≠ [] ∧ command ∉ statefulCommands then
    send ("521 Re-issue " ++ Str.join ", " (sorted s.lostSettings) ++ " before continuing\r\n")
  else if command ∈ transferCommands then
    match s.data with
    | none => send "425 Use PASV first\r\n"
    | some d =>
        let done : Bool ← ask (.endpointDone d.relay)
        if done then send "425 Use PASV first\r\n"
        else
          ask (.setCommandSeen d.relay)
          connectAndForward command argument line
  else connectAndForward command argument line

def handlePassiveRequest (command argument : String) : Session Unit := do
  let s ← get
  if command = "EPSV" ∧ Str.upper argument = "ALL" then send "200 EPSV ALL accepted\r\n"
  else if command = "PASV" ∧ s.localIpv4 = none then
    send "522 Use EPSV; PASV cannot express this address\r\n"
  else
    let localPort ← openPassiveRelay
    match localPort with
    | none => send "425 No data port available, try again\r\n"
    | some localPort =>
        modify fun s => { s with passiveMode := some command }
        if command = "EPSV" then send (formatEpsvReply localPort)
        else send (formatPasvReply s.localIp localPort)

-- The points between which the session runs straight on; a loop of the source is a label that
-- leads back to itself.
inductive Label where
  | start
  | running
  | reading
  | closing
  deriving DecidableEq, Repr

-- One command of `run`; the answer is where the session goes on.
def serve (line : String) : Session Label := do
  let (command, argument) := parseLine line
  let s ← get
  if command = "" then
    send "500 Syntax error\r\n"
    pure .running
  else if command = "QUIT" then
    send "221 Goodbye\r\n"
    pure .closing
  else if !s.authenticated ∧ command ∉ preAuthCommands then
    send "530 Please login with USER and PASS\r\n"
    pure .running
  else if command ∈ ["PASV", "EPSV"] then
    handlePassiveRequest command argument
    pure .running
  else
    let handled ← handleLocal command argument
    if handled then pure .running
    else
      handleUpstream command argument line
      pure .running

def readTimeout : Session ℚ := do
  let s ← get
  if s.upstream then
    let now : ℚ ← ask .monotonic
    pure (max 1 (upstreamIdleTimeout - (now - s.upstreamLastUsed)))
  else pure clientIdleTimeout

def idle : Session Label := do
  let s ← get
  if s.upstream then
    let now : ℚ ← ask .monotonic
    if now - s.upstreamLastUsed < upstreamIdleTimeout then pure .reading
    else
      releaseUpstream
      pure .reading
  else pure .closing

-- One turn of the loop of `_read_command`, and the command it reads.
def readAndServe : Session Label := do
  let timeout ← readTimeout
  let outcome ← attempt (ask (.readline timeout))
  match outcome with
  | .error .timeout => idle
  | .error .connectionReset => pure .closing
  | .error .ssl => pure .closing
  | .error .value => pure .closing
  | .error x => raise x
  | .ok raw =>
      if raw.isEmpty ∨ raw.length > maxControlLine then pure .closing
      else serve (decodeLine raw)

def close : Session Unit := do
  releaseUpstream
  cancelDataRelay
  closeClientWriter

def turn : Label → Session Label
  | .start => do
      send "220 PandaProxy FTP ready\r\n"
      pure .running
  | .running => do
      let running : Bool ← ask .running
      pure (if running then .reading else .closing)
  | _ => readAndServe

-- `_handle_client`: `run` and then, whatever ends it, `close`.
def body : Label → Session (Option Label)
  | .closing => do
      close
      pure none
  | l => do
      let next ← turn l
      pure (some next)

def rescue : Label → Exc → Option Label
  | .closing, _ => none
  | _, _ => some .closing

end Session

end PandaProxy.FtpProxy
