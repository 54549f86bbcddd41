import PandaProxy.FtpProxy.LineBytes

namespace PandaProxy.FtpProxy

open Async

-- A change of the session that touches neither its slot nor its printer connection nor its relay.
structure Quiet (f : ControlSession → ControlSession) : Prop where
  printerIp : ∀ s, (f s).printerIp = s.printerIp
  upstream : ∀ s, (f s).upstream = s.upstream
  holdsSlot : ∀ s, (f s).holdsSlot = s.holdsSlot
  data : ∀ s, (f s).data = s.data

theorem quiet_forget (name : String) : Quiet (ControlSession.forget name) := by
  refine ⟨fun s => ?_, fun s => ?_, fun s => ?_, fun s => ?_⟩
  all_goals
    unfold ControlSession.forget
    split <;> rfl

theorem quiet_setState (name : String) (value : Option String) :
    Quiet (ControlSession.setState name value) :=
  ⟨fun _ => rfl, fun _ => rfl, fun _ => rfl, fun _ => rfl⟩

theorem quiet_discardLost (name : String) : Quiet (ControlSession.discardLost name) :=
  ⟨fun _ => rfl, fun _ => rfl, fun _ => rfl, fun _ => rfl⟩

theorem quiet_recordReply (command argument reply : String) :
    Quiet (Session.recordReply command argument reply) := by
  refine ⟨fun s => ?_, fun s => ?_, fun s => ?_, fun s => ?_⟩
  all_goals
    unfold Session.recordReply Session.recordAccepted
    repeat' split
    all_goals rfl

namespace Session

theorem positive_reissue (names : String) :
    positive ("521 Re-issue " ++ names ++ " before continuing\r\n") = false := by
  simp only [positive, Python.Str.startswith, String.toList_append]
  rfl

theorem replayList_stateful (s : ControlSession) : ∀ p ∈ replayList s, p.1 ∈ statefulCommands := by
  intro p hp
  simp only [replayList, List.mem_append, List.mem_filterMap] at hp
  rcases hp with ⟨name, hname, hp⟩ | hp
  · obtain ⟨value, _, rfl⟩ := Option.map_eq_some_iff.mp hp
    revert hname
    simp only [List.mem_cons, List.not_mem_nil, or_false]
    rintro (rfl | rfl | rfl) <;> decide
  · split at hp
    · cases hp
    · cases List.mem_singleton.mp hp
      show "CWD" ∈ statefulCommands
      decide

-- A property of session code that composes, and that the calls in `plain` and the changes of the
-- session in `quiet` have.
structure Composes (plain : Op → Prop) (quiet : (ControlSession → ControlSession) → Prop)
    (K : {α : Type} → Session α → Prop) : Prop where
  pure : ∀ {α : Type} (a : α), K (Pure.pure a : Session α)
  raise : ∀ {α : Type} (x : Exc), K (Coro.raise x : Session α)
  get : K (Coro.get : Session ControlSession)
  bind : ∀ {α β : Type} {c : Session α} {f : α → Session β}, K c → (∀ a, K (f a)) → K (c >>= f)
  modify : ∀ {f : ControlSession → ControlSession}, quiet f → K (Coro.modify f : Session Unit)
  ask : ∀ {i : Op}, plain i → K (Session.ask i)
  attempt : ∀ {i : Op}, plain i → K (Coro.attempt (Session.ask i))

-- What the session asks the printer on its own account, apart from the settings it replays.
def ownCommands : List String := ["USER", "PASS", "PASV", "EPSV"]

theorem ownCommands_stateless {command : String} (h : command ∈ ownCommands) :
    command ∉ statefulCommands := by
  simp only [ownCommands, List.mem_cons, List.not_mem_nil, or_false] at h
  rcases h with rfl | rfl | rfl | rfl <;> decide

theorem ownCommands_verb {command : String} (h : command ∈ ownCommands) : Verb command := by
  simp only [ownCommands, List.mem_cons, List.not_mem_nil, or_false] at h
  rcases h with rfl | rfl | rfl | rfl <;> decide

theorem said_stateful {command : String} (h : command ∈ statefulCommands) (argument : String) :
    (Request.issue command argument).said = (command, argument) := by
  simp only [statefulCommands, List.mem_cons, List.not_mem_nil, or_false] at h
  rcases h with rfl | rfl | rfl | rfl | rfl <;> exact Request.said_setting (by decide) (by decide) argument

structure Asks (plain : Op → Prop) (quiet : (ControlSession → ControlSession) → Prop) : Prop where
  monotonic : plain .monotonic
  issue : ∀ command argument, command ∈ ownCommands →
    plain (.writeUpstream (.issue command argument))
  drainUpstream : plain .drainUpstream
  readReply : plain .readReply
  touch : ∀ now, quiet fun s => { s with upstreamLastUsed := now }

structure Refuses (plain : Op → Prop) (quiet : (ControlSession → ControlSession) → Prop) : Prop
    extends Asks plain quiet where
  refuse : ∀ line, positive line = false → plain (.writeClient line)
  drainClient : plain .drainClient
  endpointDone : ∀ n, plain (.endpointDone n)

structure Talks (plain : Op → Prop) (quiet : (ControlSession → ControlSession) → Prop) : Prop
    extends Refuses plain quiet where
  writeClient : ∀ line, plain (.writeClient line)
  createReply : ∀ deadline, plain (.createReply deadline)
  waitReply : ∀ n, plain (.waitReply n)
  replyResult : plain .replyResult
  moved : plain .moved
  awaitReply : ∀ grace, plain (.awaitReply grace)
  cancelReply : plain .cancelReply
  awaitReplyCancelled : plain .awaitReplyCancelled
  authenticate : quiet fun s => { s with authenticated := true }
  passiveMode : ∀ command, quiet fun s => { s with passiveMode := some command }

structure Hands (plain : Op → Prop) : Prop where
  setCommandSeen : ∀ n, plain (.setCommandSeen n)
  taskDone : ∀ n, plain (.taskDone n)
  setEndpoint : ∀ n host port, plain (.setEndpoint n host port)

namespace Composes

variable {plain : Op → Prop} {quiet : (ControlSession → ControlSession) → Prop}
  {K : {α : Type} → Session α → Prop}

theorem tryCatch (h : Composes plain quiet K) {α : Type} {c : Session α} {handler : Exc → Session α}
    (hc : K (Coro.attempt c)) (hh : ∀ x, K (handler x)) : K (Coro.tryCatch c handler) := by
  refine h.bind hc (fun r => ?_)
  cases r with
  | ok a => exact h.pure a
  | error x => exact hh x

theorem suppress (h : Composes plain quiet K) {caught : Exc → Bool} {c : Session Unit}
    (hc : K (Coro.attempt c)) : K (Coro.suppress caught c) := by
  refine h.tryCatch hc (fun x => ?_)
  split
  · exact h.pure ()
  · exact h.raise x

theorem send (h : Composes plain quiet K) (ht : Talks plain quiet) (line : String) : K (Session.send line) :=
  h.bind (h.ask (ht.writeClient line)) (fun _ => h.ask ht.drainClient)

theorem refuse (h : Composes plain quiet K) (hr : Refuses plain quiet) {line : String}
    (hl : positive line = false) : K (Session.send line) :=
  h.bind (h.ask (hr.refuse line hl)) (fun _ => h.ask hr.drainClient)

theorem readUpstreamReply (h : Composes plain quiet K) (ht : Asks plain quiet) : K Session.readUpstreamReply := by
  refine h.bind h.get (fun s => ?_)
  split
  · exact h.ask ht.readReply
  · exact h.pure none

theorem sendUpstream (h : Composes plain quiet K) (ht : Asks plain quiet) {request : Request}
    (hrequest : plain (.writeUpstream request)) : K (Session.sendUpstream request) := by
  refine h.bind h.get (fun s => ?_)
  split
  · refine h.bind (h.ask ht.monotonic) (fun now => ?_)
    refine h.bind (h.modify (ht.touch now)) (fun _ => ?_)
    refine h.bind (h.ask hrequest) (fun _ => ?_)
    exact h.bind (h.ask ht.drainUpstream) (fun _ => h.readUpstreamReply ht)
  · exact h.pure none

theorem loginUpstream (h : Composes plain quiet K) (ht : Asks plain quiet) : K Session.loginUpstream := by
  refine h.bind (h.sendUpstream ht (ht.issue _ _ (by decide))) (fun userReply => ?_)
  cases userReply with
  | none => exact h.pure false
  | some userReply =>
      show K (if _ then _ else _)
      split
      · exact h.pure true
      · split
        · refine h.bind h.get (fun s => ?_)
          refine h.bind (h.sendUpstream ht (ht.issue _ _ (by decide))) (fun passReply => ?_)
          cases passReply with
          | none => exact h.pure false
          | some passReply => exact h.pure _
        · exact h.pure false

theorem replayState (h : Composes plain quiet K) (ht : Asks plain quiet)
    (hissue : ∀ command argument, command ∈ statefulCommands →
      plain (.writeUpstream (.issue command argument)))
    (hforget : ∀ name, quiet (ControlSession.forget name)) : K Session.replayState := by
  have hall : ∀ settings : List (String × String), (∀ p ∈ settings, p.1 ∈ statefulCommands) →
      K (Session.replayAll settings) := by
    intro settings
    induction settings with
    | nil => exact fun _ => h.pure true
    | cons setting rest ih =>
        intro hs
        refine h.bind (h.sendUpstream ht (hissue _ _ (hs setting List.mem_cons_self))) (fun reply => ?_)
        split
        · exact ih (fun p hp => hs p (List.mem_cons_of_mem _ hp))
        · exact h.bind (h.modify (hforget _)) (fun _ => h.pure false)
  exact h.bind h.get (fun s => hall _ (replayList_stateful s))

theorem handleLocal (h : Composes plain quiet K) (ht : Talks plain quiet) {command argument : String}
    (hset : command ∈ statefulCommands → quiet (ControlSession.setState command (some argument)) ∧
      quiet (ControlSession.discardLost command)) : K (Session.handleLocal command argument) := by
  have hanswer : ∀ line, K (Session.send line >>= fun _ => Pure.pure true) :=
    fun line => h.bind (h.send ht line) (fun _ => h.pure true)
  refine h.bind h.get (fun s => ?_)
  repeat' split
  all_goals first
  | exact hanswer _
  | exact h.pure false
  | exact h.bind (h.modify ht.authenticate) (fun _ => hanswer _)
  | exact h.bind (h.send ht _) (fun _ => hanswer _)
  | exact h.bind (h.modify (hset ‹_›).1) (fun _ => h.bind (h.modify (hset ‹_›).2) (fun _ => hanswer _))

theorem awaitCompletion (h : Composes plain quiet K) (ht : Talks plain quiet) : K Session.awaitCompletion := by
  refine h.bind (h.ask (ht.createReply _)) (fun _ => h.bind h.get (fun s => ?_))
  refine h.bind (h.ask (ht.waitReply _)) (fun replied => ?_)
  split
  · exact h.ask ht.replyResult
  · refine h.bind (h.ask ht.moved) (fun moved => h.tryCatch (h.attempt (ht.awaitReply _)) (fun x => ?_))
    split
    · refine h.bind (h.ask ht.cancelReply) (fun _ => ?_)
      exact h.bind (h.suppress (h.attempt ht.awaitReplyCancelled)) (fun _ => h.pure none)
    · exact h.raise x

theorem askPassive (h : Composes plain quiet K) (ht : Asks plain quiet) {commands : List String}
    (hcommands : ∀ command ∈ commands, command ∈ ownCommands) : K (Session.askPassive commands) := by
  induction commands with
  | nil => exact h.pure _
  | cons command rest ih =>
      have hrest := ih (fun c hc => hcommands c (List.mem_cons_of_mem _ hc))
      refine h.bind (h.sendUpstream ht (ht.issue _ _ (hcommands _ List.mem_cons_self))) (fun reply => ?_)
      cases reply with
      | none => exact h.pure _
      | some reply =>
          show K (if _ then _ else _)
          split
          · split
            · exact h.pure _
            · exact hrest
          · exact hrest

theorem handlePassiveRequest (h : Composes plain quiet K) (ht : Talks plain quiet)
    (hopen : K Session.openPassiveRelay)
    (command argument : String) : K (Session.handlePassiveRequest command argument) := by
  refine h.bind h.get (fun s => ?_)
  split
  · exact h.send ht _
  split
  · exact h.send ht _
  · refine h.bind hopen (fun localPort => ?_)
    cases localPort with
    | none => exact h.send ht _
    | some localPort =>
        refine h.bind (h.modify (ht.passiveMode command)) (fun _ => ?_)
        split <;> exact h.send ht _

theorem readTimeout (h : Composes plain quiet K) (hmonotonic : plain .monotonic) : K Session.readTimeout := by
  refine h.bind h.get (fun s => ?_)
  split
  · exact h.bind (h.ask hmonotonic) (fun _ => h.pure _)
  · exact h.pure _

theorem idle (h : Composes plain quiet K) (hmonotonic : plain .monotonic)
    (hrelease : K Session.releaseUpstream) : K Session.idle := by
  refine h.bind h.get (fun s => ?_)
  split
  · refine h.bind (h.ask hmonotonic) (fun now => ?_)
    split
    · exact h.pure _
    · exact h.bind hrelease (fun _ => h.pure _)
  · exact h.pure _

theorem setUp (h : Composes plain quiet K) (ht : Asks plain quiet)
    (hrelease : K Session.releaseUpstream) (hreplay : K Session.replayState) : K Session.setUp := by
  refine h.bind (h.readUpstreamReply ht) (fun greeting => ?_)
  split
  · exact h.bind hrelease (fun _ => h.pure false)
  · refine h.bind (h.loginUpstream ht) (fun loggedIn => ?_)
    split
    · exact h.bind hrelease (fun _ => h.pure false)
    · refine h.bind hreplay (fun replayed => ?_)
      split
      · exact h.bind hrelease (fun _ => h.pure false)
      · refine h.bind (h.ask ht.monotonic) (fun now => ?_)
        exact h.bind (h.modify (ht.touch now)) (fun _ => h.pure true)

section

variable (h : Composes plain quiet K) (hr : Refuses plain quiet) (hcancel : K Session.cancelDataRelay)
  (hrelease : K Session.releaseUpstream)

include h hr hrelease hcancel

theorem prepareUpstreamData (hto : Hands plain) : K Session.prepareUpstreamData := by
  refine h.bind h.get (fun s => ?_)
  cases s.data with
  | none => exact h.pure true
  | some d =>
      refine h.bind (h.ask (hr.endpointDone _)) (fun done => ?_)
      split
      · exact h.pure true
      · refine h.bind (h.ask (hto.taskDone _)) (fun gone => ?_)
        split
        · exact h.bind hcancel (fun _ => h.bind (h.refuse hr (by decide)) (fun _ => h.pure false))
        · refine h.bind (h.askPassive hr.toAsks (by decide)) (fun offer => ?_)
          cases offer with
          | lost =>
              refine h.bind hcancel (fun _ => h.bind (h.refuse hr (by decide)) (fun _ => ?_))
              exact h.bind hrelease (fun _ => h.pure false)
          | refused => exact h.bind hcancel (fun _ => h.bind (h.refuse hr (by decide)) (fun _ => h.pure false))
          | port port => exact h.bind (h.ask (hto.setEndpoint _ _ _)) (fun _ => h.pure true)

omit hr hcancel in
theorem finishTransfer (ht : Talks plain quiet) : K Session.finishTransfer := by
  refine h.bind (h.awaitCompletion ht) (fun final => ?_)
  cases final with
  | none => exact h.bind (h.send ht _) (fun _ => hrelease)
  | some final => exact h.send ht final

omit hr in
theorem answerClient (ht : Talks plain quiet) {command argument : String}
    (hrecord : ∀ reply, quiet (Session.recordReply command argument reply)) (reply : Option String) :
    K (Session.answerClient command argument reply) := by
  cases reply with
  | none => exact h.bind hcancel (fun _ => h.bind (h.send ht _) (fun _ => hrelease))
  | some reply =>
      refine h.bind (h.modify (hrecord reply)) (fun _ => h.bind (h.send ht _) (fun _ => ?_))
      split
      · exact h.finishTransfer hrelease ht
      · exact h.pure ()

omit hr in
theorem forward (ht : Talks plain quiet) {command argument line : String}
    (hforward : plain (.writeUpstream (.forward command argument line)))
    (hrecord : ∀ reply, quiet (Session.recordReply command argument reply)) :
    K (Session.forward command argument line) :=
  h.bind (h.sendUpstream ht.toAsks hforward) (fun reply => h.answerClient hcancel hrelease ht hrecord reply)

theorem connectAndForward (hto : Hands plain)
    (hensure : ∀ p, K (Session.ensureUpstream p)) {command argument line : String}
    (hforward : K (Session.forward command argument line)) :
    K (Session.connectAndForward command argument line) := by
  refine h.bind (hensure _) (fun connected => ?_)
  split
  · exact h.bind hcancel (fun _ => h.refuse hr (by decide))
  · split
    · refine h.bind (h.prepareUpstreamData hr hcancel hrelease hto) (fun prepared => ?_)
      split
      · exact hforward
      · exact h.pure ()
    · exact hforward

theorem handleUpstream (hto : Hands plain)
    (hensure : ∀ p, K (Session.ensureUpstream p)) {command argument line : String}
    (hforward : K (Session.forward command argument line)) :
    K (Session.handleUpstream command argument line) := by
  refine h.bind h.get (fun s => ?_)
  split
  · exact h.refuse hr (positive_reissue _)
  · split
    · cases s.data with
      | none => exact h.refuse hr (by decide)
      | some d =>
          refine h.bind (h.ask (hr.endpointDone _)) (fun done => ?_)
          split
          · exact h.refuse hr (by decide)
          · refine h.bind (h.ask (hto.setCommandSeen _)) (fun _ => ?_)
            exact h.connectAndForward hr hcancel hrelease hto hensure hforward
    · exact h.connectAndForward hr hcancel hrelease hto hensure hforward

end

theorem serve (h : Composes plain quiet K) (ht : Talks plain quiet) (hopen : K Session.openPassiveRelay)
    {line : String} (hlocal : K (Session.handleLocal (parseLine line).1 (parseLine line).2))
    (hupstream : K (Session.handleUpstream (parseLine line).1 (parseLine line).2 line)) :
    K (Session.serve line) := by
  refine h.bind h.get (fun s => ?_)
  split
  · exact h.bind (h.send ht _) (fun _ => h.pure _)
  split
  · exact h.bind (h.send ht _) (fun _ => h.pure _)
  split
  · exact h.bind (h.send ht _) (fun _ => h.pure _)
  split
  · exact h.bind (h.handlePassiveRequest ht hopen _ _) (fun _ => h.pure _)
  · refine h.bind hlocal (fun handled => ?_)
    split
    · exact h.pure _
    · exact h.bind hupstream (fun _ => h.pure _)

theorem readAndServe (h : Composes plain quiet K) (ht : Talks plain quiet)
    (hreadline : ∀ timeout, plain (.readline timeout)) (hrelease : K Session.releaseUpstream)
    (hserve : ∀ line, K (Session.serve line)) : K Session.readAndServe := by
  refine h.bind (h.readTimeout ht.monotonic) (fun timeout => ?_)
  refine h.bind (h.attempt (hreadline _)) (fun outcome => ?_)
  split
  · exact h.idle ht.monotonic hrelease
  · exact h.pure _
  · exact h.pure _
  · exact h.pure _
  · exact h.raise _
  · split
    · exact h.pure _
    · exact hserve _

theorem turn (h : Composes plain quiet K) (ht : Talks plain quiet) (hto : Hands plain)
    (hrunning : plain .running) (hreadline : ∀ timeout, plain (.readline timeout)) (hcancel : K Session.cancelDataRelay)
    (hrelease : K Session.releaseUpstream) (hensure : ∀ p, K (Session.ensureUpstream p))
    (hopen : K Session.openPassiveRelay) (hrequest : ∀ request, plain (.writeUpstream request))
    (hset : ∀ command value, quiet (ControlSession.setState command value))
    (hdiscard : ∀ command, quiet (ControlSession.discardLost command))
    (hrecord : ∀ command argument reply, quiet (Session.recordReply command argument reply))
    (l : Session.Label) : K (Session.turn l) := by
  have hserve : ∀ line, K (Session.serve line) := by
    intro line
    refine h.serve ht hopen (h.handleLocal ht fun _ => ⟨hset _ _, hdiscard _⟩) ?_
    refine h.handleUpstream ht.toRefuses hcancel hrelease hto hensure ?_
    exact h.forward hcancel hrelease ht (hrequest _) (hrecord _ _)
  cases l with
  | start => exact h.bind (h.send ht _) (fun _ => h.pure _)
  | running => exact h.bind (h.ask hrunning) (fun _ => h.pure _)
  | reading => exact h.readAndServe ht hreadline hrelease hserve
  | closing => exact h.readAndServe ht hreadline hrelease hserve

end Composes

-- The parts that have to survive exceptions of their own: these need a property that an exception
-- does not end.
structure Robust (plain : Op → Prop) (quiet : (ControlSession → ControlSession) → Prop)
    (K : {α : Type} → Session α → Prop) : Prop extends Composes plain quiet K where
  attemptAll : ∀ {α : Type} {c : Session α}, K c → K (Coro.attempt c)

structure Closes (plain : Op → Prop) (quiet : (ControlSession → ControlSession) → Prop) : Prop where
  closeUpstream : plain .closeUpstream
  upstreamClosed : plain .upstreamClosed
  abortUpstream : plain .abortUpstream
  queueRelease : plain .queueRelease
  yield : quiet fun s => { s with holdsSlot := false }

structure Queues (plain : Op → Prop) : Prop where
  createAcquire : ∀ priority, plain (.createAcquire priority)
  createGone : plain .createGone
  waitSlot : plain .waitSlot
  acquireResult : plain .acquireResult
  cancelGone : plain .cancelGone
  awaitGone : plain .awaitGone
  cancelAcquire : plain .cancelAcquire
  awaitAcquire : plain .awaitAcquire
  queueRelease : plain .queueRelease

structure Relays (plain : Op → Prop) (quiet : (ControlSession → ControlSession) → Prop) : Prop where
  cancelHandlers : ∀ n, plain (.cancelHandlers n)
  gatherHandlers : ∀ n, plain (.gatherHandlers n)
  cancelTask : ∀ n, plain (.cancelTask n)
  awaitTask : ∀ n, plain (.awaitTask n)
  setMoved : ∀ n, plain (.setMoved n)
  acquirePort : plain .acquirePort
  startServer : ∀ port, plain (.startServer port)
  releasePort : ∀ port, plain (.releasePort port)
  createSupervisor : ∀ port, plain (.createSupervisor port)
  clear : quiet fun s => { s with data := none, passiveMode := none }
  install : ∀ relay port, quiet fun s => { s with data := some ⟨relay, port⟩ }

namespace Robust

variable {plain : Op → Prop} {quiet : (ControlSession → ControlSession) → Prop}
  {K : {α : Type} → Session α → Prop}

theorem tryFinally (h : Robust plain quiet K) {α : Type} {c : Session α} {cleanup : Session Unit}
    (hc : K c) (hf : K cleanup) : K (Coro.tryFinally c cleanup) := by
  refine h.bind (h.attemptAll hc) (fun r => h.bind hf (fun _ => ?_))
  cases r with
  | ok a => exact h.pure a
  | error x => exact h.raise x

theorem closeUpstreamWriter (h : Robust plain quiet K) (hc : Closes plain quiet) :
    K Session.closeUpstreamWriter := by
  refine h.bind (h.ask hc.closeUpstream) (fun _ => h.tryCatch (h.attempt hc.upstreamClosed) (fun x => ?_))
  split
  · exact h.ask hc.abortUpstream
  · split
    · exact h.pure ()
    · exact h.raise x

theorem releaseRest (h : Robust plain quiet K) (hc : Closes plain quiet) (wasOpen : Bool) :
    K (Coro.tryFinally (if wasOpen then Session.closeUpstreamWriter else pure ()) do
      let s ← Coro.get
      if s.holdsSlot then
        Coro.modify fun s => { s with holdsSlot := false }
        Session.ask .queueRelease) := by
  refine h.tryFinally ?_ (h.bind h.get (fun s => ?_))
  · split
    · exact h.closeUpstreamWriter hc
    · exact h.pure ()
  · split
    · exact h.bind (h.modify hc.yield) (fun _ => h.ask hc.queueRelease)
    · exact h.pure ()

theorem releaseUpstream (h : Robust plain quiet K) (hc : Closes plain quiet)
    (hdrop : quiet fun s => { s with upstream := false }) : K Session.releaseUpstream :=
  h.bind h.get (fun s => h.bind (h.modify hdrop) (fun _ => h.releaseRest hc s.upstream))

theorem acquireSlot (h : Robust plain quiet K) (hq : Queues plain) (priority : Int) :
    K (Session.acquireSlot priority) := by
  have hwait : K Session.waitTurn := by
    refine h.bind (h.ask hq.waitSlot) (fun acquired => ?_)
    split
    · exact h.bind (h.ask hq.acquireResult) (fun _ => h.pure true)
    · exact h.pure false
  have habandon : K Session.abandonAcquire := by
    refine h.bind (h.ask hq.cancelAcquire) (fun _ => h.bind (h.attempt hq.awaitAcquire) (fun outcome => ?_))
    split
    · exact h.pure ()
    · exact h.raise _
    · exact h.ask hq.queueRelease
  have hleave : ∀ granted, K (Session.leaveQueue granted) := by
    intro granted
    refine h.bind (h.ask hq.cancelGone) (fun _ => h.bind (h.suppress (h.attempt hq.awaitGone)) (fun _ => ?_))
    split
    · exact h.pure ()
    · exact habandon
  refine h.bind (h.ask (hq.createAcquire priority)) (fun _ => h.bind (h.ask hq.createGone) (fun _ => ?_))
  refine h.bind (h.attemptAll hwait) (fun outcome => h.bind (hleave _) (fun _ => ?_))
  cases outcome with
  | ok b => exact h.pure b
  | error x => exact h.raise x

theorem ensureUpstream (h : Robust plain quiet K) (hq : Queues plain) (ht : Asks plain quiet)
    (hopens : plain .openConnection) (hclaim : quiet fun s => { s with holdsSlot := true })
    (hopened : quiet fun s => { s with upstream := true }) (hrelease : K Session.releaseUpstream)
    (hreplay : K Session.replayState) (priority : Int) : K (Session.ensureUpstream priority) := by
  refine h.bind h.get (fun s => ?_)
  split
  · exact h.pure true
  refine h.bind (h.acquireSlot hq priority) (fun acquired => ?_)
  split
  · exact h.pure false
  refine h.bind (h.modify hclaim) (fun _ => ?_)
  refine h.bind (h.attempt hopens) (fun outcome => ?_)
  cases outcome with
  | ok _ => exact h.bind (h.modify hopened) (fun _ => h.setUp ht hrelease hreplay)
  | error x =>
      show K (if _ then _ else _)
      split
      · exact h.bind hrelease (fun _ => h.pure false)
      · exact h.raise x

end Robust

namespace Composes

variable {plain : Op → Prop} {quiet : (ControlSession → ControlSession) → Prop}
  {K : {α : Type} → Session α → Prop}

theorem cancelDataRelay (h : Composes plain quiet K) (hr : Relays plain quiet) :
    K Session.cancelDataRelay := by
  refine h.bind h.get (fun s => h.bind (h.modify hr.clear) (fun _ => ?_))
  cases s.data with
  | none => exact h.pure ()
  | some d =>
      have hrest : K (Session.ask (.cancelTask d.relay) >>= fun _ =>
          Coro.suppress (fun x => x == .cancelled || x == .timeout) (Session.ask (.awaitTask d.relay))) :=
        h.bind (h.ask (hr.cancelTask _)) (fun _ => h.suppress (h.attempt (hr.awaitTask d.relay)))
      refine h.bind (h.ask (hr.cancelHandlers _)) (fun any => ?_)
      split
      · exact h.bind (h.ask (hr.gatherHandlers _)) (fun _ => hrest)
      · exact hrest

theorem openPassiveRelay (h : Composes plain quiet K) (hr : Relays plain quiet) :
    K Session.openPassiveRelay := by
  refine h.bind (h.cancelDataRelay hr) (fun _ => h.bind (h.ask (hr.setMoved _)) (fun _ => ?_))
  refine h.bind (h.ask hr.acquirePort) (fun port => ?_)
  cases port with
  | none => exact h.pure none
  | some port =>
      refine h.bind (h.attempt (hr.startServer port)) (fun outcome => ?_)
      cases outcome with
      | ok _ =>
          refine h.bind (h.ask (hr.createSupervisor port)) (fun relay => ?_)
          exact h.bind (h.modify (hr.install relay port)) (fun _ => h.pure _)
      | error x =>
          show K (if _ then _ else _)
          split
          · exact h.bind (h.ask (hr.releasePort port)) (fun _ => h.pure none)
          · exact h.raise x

theorem closeClientWriter (h : Composes plain quiet K) (hclose : plain .closeClient)
    (hclosed : plain .clientClosed) (habort : plain .abortClient) : K Session.closeClientWriter := by
  refine h.bind (h.ask hclose) (fun _ => h.tryCatch (h.attempt hclosed) (fun x => ?_))
  split
  · exact h.ask habort
  · split
    · exact h.pure ()
    · exact h.raise x

end Composes

end Session

end PandaProxy.FtpProxy
