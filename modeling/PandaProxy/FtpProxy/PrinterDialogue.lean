import PandaProxy.FtpProxy.PrinterAccess
import PandaProxy.FtpProxy.StatefulCommands

namespace PandaProxy.FtpProxy

open Async FtpQueue Python

-- The settings of a client as its session reads its lines: what it was told 2xx for, but for those
-- whose replay the printer has refused since.
structure Standing where
  mode : String → Option String
  cwd : String
  heard : Option (List UInt8)

namespace Standing

def initial : Standing := ⟨fun _ => none, "/", none⟩

def enter (cwd argument : String) : String :=
  let path :=
    if Str.startswith argument "/" then PosixPath.normpath argument.toList
    else PosixPath.normpath (PosixPath.join cwd.toList argument.toList)
  if PosixPath.isAbs path then .ofList path else "/"

def accept (x : Standing) (command argument : String) : Standing :=
  if command = "CWD" then { x with cwd := enter x.cwd argument }
  else if command = "CDUP" then { x with cwd := enter x.cwd ".." }
  else if command ∈ modeCommands then { x with mode := Function.update x.mode command (some argument) }
  else x

def refuse (x : Standing) (name : String) : Standing :=
  if name = "CWD" then { x with cwd := "/" } else { x with mode := Function.update x.mode name none }

-- What a new session of the printer's lacks, in the order of the replay.
def due (x : Standing) : List (String × String) :=
  (["PBSZ", "PROT", "TYPE"].filterMap fun name => (x.mode name).map fun value => (name, value)) ++
    if x.cwd = "/" then [] else [("CWD", x.cwd)]

def told (x : Standing) (line : String) : Standing :=
  match x.heard with
  | some raw =>
      if Str.startswith line "2" then x.accept (parseLine (decodeLine raw)).1 (parseLine (decodeLine raw)).2 else x
  | none => x

theorem accept_other {command : String} (h : command ∉ statefulCommands) (x : Standing) (argument : String) :
    x.accept command argument = x := by
  simp only [statefulCommands, List.mem_cons, List.not_mem_nil, or_false, not_or] at h
  obtain ⟨h1, h2, h3, h4, h5⟩ := h
  simp [accept, modeCommands, h1, h2, h3, h4, h5]

theorem accept_heard (x : Standing) (command argument : String) : (x.accept command argument).heard = x.heard := by
  unfold accept
  repeat' split
  all_goals rfl

theorem refuse_heard (x : Standing) (name : String) : (x.refuse name).heard = x.heard := by
  unfold refuse
  split <;> rfl

theorem told_refusal {line : String} (h : Str.startswith line "2" = false) (x : Standing) : x.told line = x := by
  unfold told
  split
  · rw [if_neg (by simp [h])]
  · rfl

theorem enter_ne (cwd argument : String) : enter cwd argument ≠ "" := by
  simp only [enter]
  generalize (if Str.startswith argument "/" then PosixPath.normpath argument.toList
    else PosixPath.normpath (PosixPath.join cwd.toList argument.toList)) = path
  split
  · next h =>
      cases path with
      | nil => cases h
      | cons c rest => simp
  · decide

end Standing

-- Where a connection to the printer stands, by what has been said on it.
inductive Dialogue where
  | away
  | connected
  | greeted
  | identifying
  | challenged
  | proving
  -- Logged in; the settings in `rest` are still to be replayed.
  | settling (rest : List (String × String))
  | replaying (name : String) (rest : List (String × String))
  | failed

-- What a session says once the printer's session is set up: its own passive requests, and the line
-- it is serving if that is not answered without the printer.
inductive OnBehalf (heard : Option (List UInt8)) : Request → Prop
  | passive {command : String} (h : command = "PASV" ∨ command = "EPSV") : OnBehalf heard (.issue command "")
  | forward {raw : List UInt8} (hraw : heard = some raw) (h : (parseLine (decodeLine raw)).1 ∉ localCommands) :
      OnBehalf heard (.forward (parseLine (decodeLine raw)).1 (parseLine (decodeLine raw)).2 (decodeLine raw))

namespace Dialogue

def identified (due : List (String × String)) : Option String → Dialogue
  | some reply =>
      if Str.startswith reply "2" then .settling due
      else if Str.startswith reply "3" then .challenged
      else .failed
  | none => .failed

def asked : Dialogue → Dialogue
  | greeted => identifying
  | challenged => proving
  | settling ((name, _) :: rest) => replaying name rest
  | dialogue => dialogue

def answered (due : List (String × String)) : Dialogue → Option String → Dialogue
  | connected, reply => if reply.isSome then greeted else failed
  | identifying, reply => identified due reply
  | proving, reply => if accepted reply then settling due else failed
  | replaying _ rest, reply => if accepted reply then settling rest else failed
  | dialogue, _ => dialogue

def refused : Dialogue → Option String → Option String
  | replaying name _, reply => if accepted reply then none else some name
  | _, _ => none

theorem answered_refused (due : List (String × String)) (dialogue : Dialogue) (reply reply' : Option String) :
    (dialogue.answered due reply).refused reply' = none := by
  unfold answered
  split
  · split <;> rfl
  · unfold identified
    repeat' split
    all_goals rfl
  · split <;> rfl
  · split <;> rfl
  · next hreplaying =>
      unfold refused
      split
      · exact (hreplaying _ _ rfl).elim
      · rfl

def permits (accessCode : String) (heard : Option (List UInt8)) : Dialogue → Request → Prop
  | greeted, request => request = .issue "USER" "bblp"
  | challenged, request => request = .issue "PASS" accessCode
  | settling ((name, value) :: _), request => request = .issue name value
  | settling [], request => OnBehalf heard request
  | _, _ => False

end Dialogue

structure Exchange where
  dialogue : Dialogue
  standing : Standing

namespace Exchange

def initial : Exchange := ⟨.away, .initial⟩

def step (x : Exchange) : Event → Exchange
  | .opened => { x with dialogue := .connected }
  | .closed => { x with dialogue := .away }
  | .asked _ _ => { x with dialogue := x.dialogue.asked }
  | .answered reply =>
      ⟨x.dialogue.answered x.standing.due reply,
        match x.dialogue.refused reply with
        | some name => x.standing.refuse name
        | none => x.standing⟩
  | .received raw => { x with standing := { x.standing with heard := some raw } }
  | .told line => { x with standing := x.standing.told line }
  | .examined _ => x

end Exchange

def exchange : List Event → Exchange
  | [] => .initial
  | v :: earlier => (exchange earlier).step v

def dialogueAllowed (accessCode : String) (request : Request) (earlier : List Event) : Prop :=
  (exchange earlier).dialogue.permits accessCode (exchange earlier).standing.heard request

namespace Session

open Proxy

variable {accessCode : String} {lab : Label → ControlSession → List Event → Prop} {j : Nat} {l : Label} {s : ControlSession}
  {e : Proxy} {given : Option (List UInt8)}

structure Stands (s : ControlSession) (x : Standing) : Prop where
  mode : x.mode = s.state
  cwd : x.cwd = s.cwd
  rooted : s.cwd ≠ ""

structure Attuned (accessCode : String) (given : Option (List UInt8)) (s : ControlSession) (log : List Event) : Prop where
  accessCode : s.accessCode = accessCode
  stands : Stands s (exchange log).standing
  heard : (exchange log).standing.heard = given
  calm : ∀ reply, (exchange log).dialogue.refused reply = none

structure Working (accessCode : String) (given : Option (List UInt8)) (s : ControlSession) (log : List Event) : Prop
    extends Attuned accessCode given s log where
  upstream : s.upstream = true → (exchange log).dialogue = .settling []

structure Detached (accessCode : String) (given : Option (List UInt8)) (s : ControlSession) (log : List Event) : Prop
    extends Attuned accessCode given s log where
  upstream : s.upstream = false

structure SetUpAt (accessCode : String) (given : Option (List UInt8)) (point : Dialogue) (s : ControlSession)
    (log : List Event) : Prop extends Attuned accessCode given s log where
  upstream : s.upstream = true
  dialogue : (exchange log).dialogue = point

abbrev dialogueWp (accessCode : String) (lab : Label → ControlSession → List Event → Prop) (j : Nat) (l : Label) {α : Type}
    (c : Session α) (Q : Except Exc α → ControlSession → Proxy → Prop) (s : ControlSession) (e : Proxy) : Prop :=
  logWp (dialogueAllowed accessCode) lab j l c Q s e

abbrev DialogueKept (accessCode : String) (given : Option (List UInt8)) (lab : Label → ControlSession → List Event → Prop)
    (j : Nat) (l : Label) {α : Type} (c : Session α) : Prop :=
  ∀ s e, Working accessCode given s (e.log j) → dialogueWp accessCode lab j l c (Then (Working accessCode given) j) s e

def Unset (given : Option (List UInt8)) : Prop := ∀ raw, given = some raw → (parseLine (decodeLine raw)).1 ∉ statefulCommands

theorem Stands.due {x : Standing} (h : Stands s x) : x.due = replayList s := by
  rw [Standing.due, replayList, h.mode, h.cwd]
  simp only [h.rooted, false_or]

theorem Stands.refuse {x : Standing} (h : Stands s x) (name : String) :
    Stands (ControlSession.forget name s) (x.refuse name) := by
  unfold ControlSession.forget Standing.refuse
  split
  · exact ⟨h.mode, rfl, show "/" ≠ "" by decide⟩
  · refine ⟨?_, h.cwd, h.rooted⟩
    rw [h.mode]
    rfl

theorem Stands.recordAccepted {x : Standing} (h : Stands s x) (command argument : String) :
    Stands (recordAccepted command argument s) (x.accept command argument) := by
  have hmoved : ∀ argument, Stands (ControlSession.recordCwd argument s) { x with cwd := Standing.enter x.cwd argument } := by
    intro argument
    rw [h.cwd]
    exact ⟨h.mode, rfl, Standing.enter_ne s.cwd argument⟩
  unfold Session.recordAccepted
  split
  · next hdirectory =>
      simp only [List.mem_cons, List.not_mem_nil, or_false] at hdirectory
      rcases hdirectory with rfl | rfl
      · exact hmoved argument
      · exact hmoved ".."
  · next hdirectory =>
      split
      · next hstateful =>
          have hmode : command ∈ modeCommands := by
            refine (stateful_cases hstateful).resolve_right fun hc => hdirectory ?_
            rcases hc with rfl | rfl <;> decide
          have haccept : x.accept command argument = { x with mode := Function.update x.mode command (some argument) } := by
            simp only [List.mem_cons, List.not_mem_nil, or_false, not_or] at hdirectory
            rw [Standing.accept, if_neg hdirectory.1, if_neg hdirectory.2, if_pos hmode]
          rw [haccept, h.mode]
          exact ⟨rfl, h.cwd, h.rooted⟩
      · next hstateful =>
          rw [Standing.accept_other hstateful]
          exact h

theorem Attuned.told {log : List Event} (hc : Unset given) (h : Attuned accessCode given s log) (line : String) :
    Attuned accessCode given s (.told line :: log) := by
  have hsame : (exchange log).standing.told line = (exchange log).standing := by
    rw [Standing.told, h.heard]
    cases given with
    | none => rfl
    | some raw =>
        dsimp only
        rw [Standing.accept_other (hc raw rfl), ite_self]
  refine ⟨h.accessCode, ?_, ?_, h.calm⟩
  · rw [exchange, Exchange.step, hsame]
    exact h.stands
  · rw [exchange, Exchange.step, hsame]
    exact h.heard

theorem Attuned.refused {log : List Event} {line : String} (hline : Str.startswith line "2" = false)
    (h : Attuned accessCode given s log) : Attuned accessCode given s (.told line :: log) := by
  refine ⟨h.accessCode, ?_, ?_, h.calm⟩
  · rw [exchange, Exchange.step, Standing.told_refusal hline]
    exact h.stands
  · rw [exchange, Exchange.step, Standing.told_refusal hline]
    exact h.heard

theorem Attuned.record {log : List Event} {raw : List UInt8} {reply : String} (h : Attuned accessCode (some raw) s log)
    (hr : Str.startswith reply "2" = true) {s' : ControlSession} (hcode : s'.accessCode = s.accessCode)
    (hs : ∀ x, Stands s x → Stands s' (x.accept (parseLine (decodeLine raw)).1 (parseLine (decodeLine raw)).2)) :
    Attuned accessCode (some raw) s' (.told reply :: log) := by
  have haccept : (exchange log).standing.told reply =
      (exchange log).standing.accept (parseLine (decodeLine raw)).1 (parseLine (decodeLine raw)).2 := by
    rw [Standing.told, h.heard]
    exact if_pos hr
  refine ⟨hcode.trans h.accessCode, ?_, ?_, h.calm⟩
  · rw [exchange, Exchange.step, haccept]
    exact hs _ h.stands
  · rw [exchange, Exchange.step, haccept, Standing.accept_heard]
    exact h.heard

theorem Attuned.same {log : List Event} {s' : ControlSession} (h : Attuned accessCode given s log)
    (hcode : s'.accessCode = s.accessCode) (hstate : s'.state = s.state) (hcwd : s'.cwd = s.cwd) :
    Attuned accessCode given s' log :=
  ⟨hcode.trans h.accessCode, ⟨h.stands.mode.trans hstate.symm, h.stands.cwd.trans hcwd.symm, hcwd ▸ h.stands.rooted⟩, h.heard,
    h.calm⟩

theorem Attuned.answered {log : List Event} (h : Attuned accessCode given s log) (reply : Option String) :
    Attuned accessCode given s (.answered reply :: log) := by
  have hsame : (exchange (.answered reply :: log)).standing = (exchange log).standing := by
    rw [exchange, Exchange.step, h.calm]
  exact ⟨h.accessCode, hsame ▸ h.stands, hsame ▸ h.heard, Dialogue.answered_refused _ _ reply⟩

theorem Attuned.exchanged {log : List Event} (h : Attuned accessCode given s log) {reply : Option String}
    (hnone : (exchange log).dialogue.asked.refused reply = none) (request : Request) (view : Option Relay) :
    Attuned accessCode given s (.answered reply :: .asked request view :: log) := by
  have hsame : (exchange (.answered reply :: .asked request view :: log)).standing = (exchange log).standing := by
    rw [exchange, exchange, Exchange.step, Exchange.step, hnone]
  exact ⟨h.accessCode, hsame ▸ h.stands, hsame ▸ h.heard, Dialogue.answered_refused _ _ reply⟩

theorem Attuned.forget {log : List Event} (h : Attuned accessCode given s log) {name value : String}
    {rest : List (String × String)} (hpoint : (exchange log).dialogue = .settling ((name, value) :: rest))
    {reply : Option String} (hrefused : accepted reply = false) (request : Request) (view : Option Relay) :
    Attuned accessCode given (ControlSession.forget name s) (.answered reply :: .asked request view :: log) := by
  have hrefuse : (exchange (.answered reply :: .asked request view :: log)).standing = (exchange log).standing.refuse name := by
    rw [exchange, exchange, Exchange.step, Exchange.step, hpoint]
    simp only [Dialogue.asked, Dialogue.refused, hrefused, Bool.false_eq_true, if_false]
  have hcode : (ControlSession.forget name s).accessCode = s.accessCode := by
    unfold ControlSession.forget
    split <;> rfl
  refine ⟨hcode.trans h.accessCode, ?_, ?_, Dialogue.answered_refused _ _ reply⟩
  · rw [hrefuse]
    exact h.stands.refuse name
  · rw [hrefuse, Standing.refuse_heard]
    exact h.heard

theorem detached_neutral {i : Op} (hi : ∀ request, i ≠ .writeUpstream request) (hsame : ∀ v, emits i v → v = .closed) :
    Neutral (dialogueAllowed accessCode) (Detached accessCode given) i where
  stays v s log hv h := by
    cases hsame v hv
    exact ⟨⟨h.accessCode, h.stands, h.heard, fun _ => rfl⟩, h.upstream⟩
  covers request _ _ he := absurd he (hi request)

theorem detached_closes : Closes (Neutral (dialogueAllowed accessCode) (Detached accessCode given))
    fun f => ∀ s log, Detached accessCode given s log → Detached accessCode given (f s) log where
  closeUpstream := detached_neutral (by rintro _ ⟨⟩) fun _ hv => hv
  upstreamClosed := detached_neutral (by rintro _ ⟨⟩) fun _ hv => nomatch hv
  abortUpstream := detached_neutral (by rintro _ ⟨⟩) fun _ hv => nomatch hv
  queueRelease := detached_neutral (by rintro _ ⟨⟩) fun _ hv => nomatch hv
  yield _ _ h := ⟨h.same rfl rfl rfl, h.upstream⟩

theorem detached_queues : Queues (Neutral (dialogueAllowed accessCode) (Detached accessCode given)) := by
  constructor
  all_goals
    intros
    exact .silent fun _ hv => hv

theorem dialogue_releaseUpstream (h : Attuned accessCode given s (e.log j)) :
    dialogueWp accessCode lab j l releaseUpstream (fun _ s' e' => Detached accessCode given s' (e'.log j)) s e := by
  refine wp_bind _ _ s e (wp_get.mpr (wp_bind _ _ s e ((wp_modify _).mpr ?_)))
  refine wp_mono _ (fun r s e hr => ?_) _ e
    (speaks_robust.releaseRest detached_closes s.upstream _ e ⟨h.same rfl rfl rfl, rfl⟩)
  cases r <;> exact hr

theorem Detached.working {log : List Event} (h : Detached accessCode given s log) : Working accessCode given s log := by
  refine ⟨h.toAttuned, fun hu => ?_⟩
  rw [h.upstream] at hu
  cases hu

theorem kept_releaseUpstream : DialogueKept accessCode given lab j l releaseUpstream := by
  intro s e h
  refine wp_mono _ (fun r s e hr => ?_) s e (dialogue_releaseUpstream h.toAttuned)
  cases r with
  | ok _ => exact hr.working
  | error _ => trivial

theorem working_answered {log : List Event} (h : Working accessCode given s log) (reply : Option String) :
    Working accessCode given s (.answered reply :: log) := by
  refine ⟨h.toAttuned.answered reply, fun hu => ?_⟩
  rw [exchange, Exchange.step, h.upstream hu]
  rfl

theorem working_quiet {f : ControlSession → ControlSession} (hcode : ∀ s, (f s).accessCode = s.accessCode)
    (hup : ∀ s, (f s).upstream = s.upstream) (hstate : ∀ s, (f s).state = s.state) (hcwd : ∀ s, (f s).cwd = s.cwd)
    (s : ControlSession) (log : List Event) (h : Working accessCode given s log) : Working accessCode given (f s) log :=
  ⟨h.toAttuned.same (hcode s) (hstate s) (hcwd s), fun hu => h.upstream (hup s ▸ hu)⟩

theorem working_silent {i : Op} (hi : ∀ v, ¬ emits i v) : Neutral (dialogueAllowed accessCode) (Working accessCode given) i :=
  .silent hi

theorem working_answers {i : Op} (hi : ∀ v, emits i v → ∃ reply, v = .answered reply) :
    Neutral (dialogueAllowed accessCode) (Working accessCode given) i where
  stays v s log hv h := by
    obtain ⟨reply, rfl⟩ := hi v hv
    exact working_answered h reply
  covers request _ _ he := by
    subst he
    obtain ⟨reply, hr⟩ := hi _ ⟨none, rfl⟩
    cases hr

theorem working_examines (n : Nat) : Neutral (dialogueAllowed accessCode) (Working accessCode given) (.taskDone n) where
  stays v s log hv h := by
    obtain ⟨phase, rfl⟩ := hv
    exact ⟨⟨h.accessCode, h.stands, h.heard, h.calm⟩, h.upstream⟩
  covers _ _ _ he := by cases he

theorem kept_composes : Composes (Neutral (dialogueAllowed accessCode) (Working accessCode given))
    (fun f => ∀ s log, Working accessCode given s log → Working accessCode given (f s) log)
    (DialogueKept accessCode given lab j l) :=
  speaks_composes fun _ _ _ => trivial

theorem kept_pure {α : Type} (a : α) : DialogueKept accessCode given lab j l (pure a : Session α) := kept_composes.pure a

theorem kept_get : DialogueKept accessCode given lab j l (Coro.get : Session ControlSession) := kept_composes.get

theorem kept_bind {α β : Type} {c : Session α} {f : α → Session β} (hc : DialogueKept accessCode given lab j l c)
    (hf : ∀ a, DialogueKept accessCode given lab j l (f a)) : DialogueKept accessCode given lab j l (c >>= f) :=
  kept_composes.bind hc hf

theorem kept_silent {i : Op} (hi : ∀ v, ¬ emits i v) : DialogueKept accessCode given lab j l (ask i) :=
  kept_composes.ask (working_silent hi)

theorem kept_writeClient {line : String}
    (hline : ∀ s log, Attuned accessCode given s log → Attuned accessCode given s (.told line :: log)) :
    DialogueKept accessCode given lab j l (send line) := by
  have hneutral : Neutral (dialogueAllowed accessCode) (Working accessCode given) (.writeClient line) := by
    refine ⟨fun v s log hv h => ?_, fun _ _ _ he => by cases he⟩
    cases hv
    exact ⟨hline s log h.toAttuned, h.upstream⟩
  exact kept_bind (kept_composes.ask hneutral) fun _ => kept_silent fun _ hv => hv

theorem kept_refuse {line : String} (hline : Str.startswith line "2" = false) :
    DialogueKept accessCode given lab j l (send line) :=
  kept_writeClient fun _ _ h => h.refused hline

theorem working_relays : Relays (Neutral (dialogueAllowed accessCode) (Working accessCode given))
    fun f => ∀ s log, Working accessCode given s log → Working accessCode given (f s) log := by
  constructor
  case clear => exact working_quiet (fun _ => rfl) (fun _ => rfl) (fun _ => rfl) fun _ => rfl
  case install => exact fun _ _ => working_quiet (fun _ => rfl) (fun _ => rfl) (fun _ => rfl) fun _ => rfl
  all_goals
    intros
    exact working_silent fun _ hv => hv

theorem kept_cancelDataRelay : DialogueKept accessCode given lab j l cancelDataRelay :=
  kept_composes.cancelDataRelay working_relays

theorem kept_openPassiveRelay : DialogueKept accessCode given lab j l openPassiveRelay :=
  kept_composes.openPassiveRelay working_relays

theorem kept_sendUpstream {request : Request} (hr : OnBehalf given request) :
    DialogueKept accessCode given lab j l (sendUpstream request) := by
  intro s e h
  cases hu : s.upstream with
  | false =>
      refine wp_bind _ _ s e (wp_get.mpr ?_)
      simp only [hu]
      exact h
  | true =>
      have hopen := h.upstream hu
      have hallowed : dialogueAllowed accessCode request (e.log j) := by
        rw [dialogueAllowed, hopen, h.heard]
        exact hr
      refine logWp_sendUpstream hu hallowed (fun now reply view e' he' => ?_) fun _ _ _ => trivial
      have hcarried : Attuned accessCode given s (e'.log j) := by
        rw [he']
        exact h.toAttuned.exchanged (by rw [hopen]; rfl) request view
      refine ⟨hcarried.same rfl rfl rfl, fun _ => ?_⟩
      rw [he', exchange, exchange, Exchange.step, Exchange.step, hopen]
      rfl

theorem setUp_sendUpstream {point : Dialogue} {request : Request} {Q : Except Exc (Option String) → ControlSession → Proxy → Prop}
    (h : SetUpAt accessCode given point s (e.log j)) (hp : point.permits accessCode given request)
    (hasked : ∀ reply, point.asked.refused reply = none)
    (hQ : ∀ reply s' e', SetUpAt accessCode given (point.asked.answered (replayList s') reply) s' (e'.log j) → Q (.ok reply) s' e')
    (hx : ∀ x s' e', Q (.error x) s' e') : dialogueWp accessCode lab j l (sendUpstream request) Q s e := by
  refine logWp_sendUpstream h.upstream ?_ (fun now reply view e' he' => ?_) hx
  · rw [dialogueAllowed, h.dialogue, h.heard]
    exact hp
  · have hcarried : Attuned accessCode given s (e'.log j) := by
      rw [he']
      exact h.toAttuned.exchanged (by rw [h.dialogue]; exact hasked reply) request view
    refine hQ reply _ e' ⟨hcarried.same rfl rfl rfl, h.upstream, ?_⟩
    rw [he', exchange, exchange, Exchange.step, Exchange.step, h.dialogue, h.stands.due]
    rfl

abbrev SetUpTo (accessCode : String) (given : Option (List UInt8)) (point : ControlSession → Dialogue) (j : Nat) :
    Except Exc Bool → ControlSession → Proxy → Prop
  | .ok true, s', e' => SetUpAt accessCode given (point s') s' (e'.log j)
  | .ok false, s', e' => Attuned accessCode given s' (e'.log j)
  | .error _, _, _ => True

theorem dialogue_loginUpstream (h : SetUpAt accessCode given .greeted s (e.log j)) :
    dialogueWp accessCode lab j l loginUpstream (SetUpTo accessCode given (fun s' => .settling (replayList s')) j) s e := by
  refine wp_bind _ _ s e (setUp_sendUpstream h rfl (fun _ => rfl) (fun reply s₁ e₁ h₁ => ?_) fun _ _ _ => trivial)
  cases reply with
  | none => exact h₁.toAttuned
  | some reply =>
      dsimp only
      by_cases hdone : Str.startswith reply "2" = true
      · rw [if_pos hdone]
        exact ⟨h₁.toAttuned, h₁.upstream, h₁.dialogue.trans (if_pos hdone)⟩
      · rw [if_neg hdone]
        by_cases hmore : Str.startswith reply "3" = true
        · rw [if_pos hmore]
          have hchallenged : SetUpAt accessCode given .challenged s₁ (e₁.log j) :=
            ⟨h₁.toAttuned, h₁.upstream, h₁.dialogue.trans ((if_neg hdone).trans (if_pos hmore))⟩
          have hpass : (Request.issue "PASS" s₁.accessCode) = .issue "PASS" accessCode := by rw [h₁.accessCode]
          refine wp_bind _ _ s₁ e₁ (wp_get.mpr (wp_bind _ _ s₁ e₁ ?_))
          refine setUp_sendUpstream hchallenged hpass (fun _ => rfl) (fun reply s₂ e₂ h₂ => ?_) fun _ _ _ => trivial
          cases reply with
          | none => exact h₂.toAttuned
          | some reply =>
              dsimp only
              rw [wp_pure]
              cases hpassed : Str.startswith reply "2" with
              | true => exact ⟨h₂.toAttuned, h₂.upstream, h₂.dialogue.trans (if_pos hpassed)⟩
              | false => exact h₂.toAttuned
        · rw [if_neg hmore]
          exact h₁.toAttuned

theorem dialogue_replayAll (rest : List (String × String)) : ∀ s e, SetUpAt accessCode given (.settling rest) s (e.log j) →
    dialogueWp accessCode lab j l (replayAll rest) (SetUpTo accessCode given (fun _ => .settling []) j) s e := by
  induction rest with
  | nil => exact fun s e h => h
  | cons setting rest ih =>
      intro s e h
      obtain ⟨name, value⟩ := setting
      have hallowed : dialogueAllowed accessCode (.issue name value) (e.log j) := by
        rw [dialogueAllowed, h.dialogue]
        rfl
      refine wp_bind _ _ s e (logWp_sendUpstream h.upstream hallowed (fun now reply view e₁ h₁ => ?_) fun _ _ _ => trivial)
      dsimp only
      cases hreply : (reply.any fun r => Str.startswith r "2") with
      | true =>
          have hasked : (exchange (e.log j)).dialogue.asked.refused reply = none := by
            rw [h.dialogue]
            exact if_pos hreply
          have hcarried : Attuned accessCode given s (e₁.log j) := by
            rw [h₁]
            exact h.toAttuned.exchanged hasked _ view
          rw [if_pos rfl]
          refine ih _ e₁ ⟨hcarried.same rfl rfl rfl, h.upstream, ?_⟩
          rw [h₁, exchange, exchange, Exchange.step, Exchange.step, h.dialogue]
          exact if_pos hreply
      | false =>
          rw [if_neg (by decide)]
          refine wp_bind _ _ _ e₁ ((wp_modify _).mpr ?_)
          have hused : Attuned accessCode given { s with upstreamLastUsed := now } (e.log j) := h.toAttuned.same rfl rfl rfl
          show Attuned accessCode given (ControlSession.forget name { s with upstreamLastUsed := now }) (e₁.log j)
          rw [h₁]
          exact hused.forget h.dialogue hreply _ view

theorem dialogue_giveUp (h : Attuned accessCode given s (e.log j)) :
    dialogueWp accessCode lab j l (releaseUpstream >>= fun _ => pure false) (Then (Working accessCode given) j) s e := by
  refine wp_bind _ _ s e (wp_mono _ (fun r s e hr => ?_) s e (dialogue_releaseUpstream h))
  cases r with
  | ok _ => exact hr.working
  | error _ => trivial

theorem kept_used : DialogueKept accessCode given lab j l
    (ask .monotonic >>= fun now : ℚ => Coro.modify (fun s => { s with upstreamLastUsed := now }) >>= fun _ => pure true) :=
  kept_bind (kept_silent fun _ hv => hv) fun _ =>
    kept_bind (kept_composes.modify (working_quiet (fun _ => rfl) (fun _ => rfl) (fun _ => rfl) fun _ => rfl)) fun _ =>
      kept_pure true

theorem dialogue_setUp (h : SetUpAt accessCode given .connected s (e.log j)) :
    dialogueWp accessCode lab j l setUp (Then (Working accessCode given) j) s e := by
  refine wp_bind _ _ s e (wp_bind _ _ s e (wp_get.mpr ?_))
  dsimp only
  rw [if_pos h.upstream]
  refine logWp_readReply (fun greeting e₁ h₁ => ?_) fun _ _ _ => trivial
  have hcarried : Attuned accessCode given s (e₁.log j) := by
    rw [h₁]
    exact h.toAttuned.answered greeting
  cases greeting with
  | none => exact dialogue_giveUp hcarried
  | some greeting =>
      have hgreeted : SetUpAt accessCode given .greeted s (e₁.log j) := by
        refine ⟨hcarried, h.upstream, ?_⟩
        rw [h₁, exchange, Exchange.step, h.dialogue]
        rfl
      refine wp_bind _ _ s e₁ (wp_mono _ (fun r s₂ e₂ h₂ => ?_) s e₁ (dialogue_loginUpstream hgreeted))
      cases r with
      | error _ => trivial
      | ok loggedIn =>
          cases loggedIn with
          | false => exact dialogue_giveUp h₂
          | true =>
              refine wp_bind _ _ s₂ e₂ (wp_bind _ _ s₂ e₂ (wp_get.mpr ?_))
              refine wp_mono _ (fun r s₃ e₃ h₃ => ?_) s₂ e₂ (dialogue_replayAll (replayList s₂) s₂ e₂ h₂)
              cases r with
              | error _ => trivial
              | ok replayed =>
                  cases replayed with
                  | false => exact dialogue_giveUp h₃
                  | true =>
                      have hworking : Working accessCode given s₃ (e₃.log j) := ⟨h₃.toAttuned, fun _ => h₃.dialogue⟩
                      exact kept_used s₃ e₃ hworking

theorem dialogue_connect (h : Detached accessCode given s (e.log j)) :
    dialogueWp accessCode lab j l connect (Then (Working accessCode given) j) s e := by
  refine wp_bind _ _ s e (wp_attempt _ s e (logWp_openConnection (fun e₁ h₁ => ?_) fun x e₁ h₁ => ?_))
  · have hopened : Attuned accessCode given s (e₁.log j) := by
      rw [h₁]
      exact ⟨h.accessCode, h.stands, h.heard, fun _ => rfl⟩
    refine wp_bind _ _ s e₁ ((wp_modify _).mpr (dialogue_setUp ⟨hopened.same rfl rfl rfl, rfl, ?_⟩))
    rw [h₁]
    rfl
  · dsimp only
    split
    · refine dialogue_giveUp ?_
      rw [h₁]
      exact h.toAttuned
    · trivial

theorem kept_ensureUpstream (priority : Int) : DialogueKept accessCode given lab j l (ensureUpstream priority) := by
  intro s e h
  refine wp_bind _ _ s e (wp_get.mpr ?_)
  cases hu : s.upstream with
  | true =>
      simp only [hu, if_true]
      exact h
  | false =>
      simp only [hu, Bool.false_eq_true, if_false]
      have hdetached : Detached accessCode given s (e.log j) := ⟨h.toAttuned, hu⟩
      refine wp_bind _ _ s e (wp_mono _ ?_ s e (speaks_robust.acquireSlot detached_queues priority s e hdetached))
      intro r s₁ e₁ h₁
      cases r with
      | error _ => trivial
      | ok acquired =>
          cases acquired with
          | false => exact Detached.working h₁
          | true => exact wp_bind _ _ s₁ e₁ ((wp_modify _).mpr (dialogue_connect ⟨h₁.same rfl rfl rfl, h₁.upstream⟩))

theorem kept_giveUp {α : Type} {line : String} (hline : Str.startswith line "2" = false) {c : Session α}
    (hc : DialogueKept accessCode given lab j l c) :
    DialogueKept accessCode given lab j l (cancelDataRelay >>= fun _ => send line >>= fun _ => c) :=
  kept_bind kept_cancelDataRelay fun _ => kept_bind (kept_refuse hline) fun _ => hc

section

variable (hunset : Unset given)

include hunset

theorem kept_send (line : String) : DialogueKept accessCode given lab j l (send line) :=
  kept_writeClient fun _ _ h => h.told hunset line

theorem kept_sendThen {α : Type} (line : String) {c : Session α} (hc : DialogueKept accessCode given lab j l c) :
    DialogueKept accessCode given lab j l (send line >>= fun _ => c) :=
  kept_bind (kept_send hunset line) fun _ => hc

end

theorem kept_askPassive {commands : List String} (hcommands : ∀ command ∈ commands, command = "PASV" ∨ command = "EPSV") :
    DialogueKept accessCode given lab j l (askPassive commands) := by
  induction commands with
  | nil => exact kept_pure _
  | cons command rest ih =>
      have hrest := ih fun c hc => hcommands c (List.mem_cons_of_mem _ hc)
      refine kept_bind (kept_sendUpstream (.passive (hcommands _ List.mem_cons_self))) fun reply => ?_
      cases reply with
      | none => exact kept_pure _
      | some reply =>
          show DialogueKept accessCode given lab j l (if _ then _ else _)
          split
          · split
            · exact kept_pure _
            · exact hrest
          · exact hrest

theorem kept_prepareUpstreamData : DialogueKept accessCode given lab j l prepareUpstreamData := by
  refine kept_bind kept_get fun s => ?_
  cases s.data with
  | none => exact kept_pure true
  | some d =>
      refine kept_bind (kept_silent fun _ hv => hv) fun done => ?_
      split
      · exact kept_pure true
      · refine kept_bind (kept_composes.ask (working_examines d.relay)) fun gone => ?_
        split
        · exact kept_giveUp (by decide) (kept_pure false)
        · refine kept_bind (kept_askPassive (by simp)) fun offer => ?_
          cases offer with
          | lost => exact kept_giveUp (by decide) (kept_bind kept_releaseUpstream fun _ => kept_pure false)
          | refused => exact kept_giveUp (by decide) (kept_pure false)
          | port port => exact kept_bind (kept_silent fun _ hv => hv) fun _ => kept_pure true

theorem kept_awaitCompletion : DialogueKept accessCode given lab j l awaitCompletion := by
  refine kept_bind (kept_silent fun _ hv => hv) fun _ => kept_bind kept_get fun s => ?_
  refine kept_bind (kept_silent fun _ hv => hv) fun replied => ?_
  split
  · exact kept_composes.ask (working_answers fun _ hv => hv)
  · refine kept_bind (kept_silent fun _ hv => hv) fun moved => ?_
    refine kept_composes.tryCatch (kept_composes.attempt (working_answers fun _ hv => hv)) fun x => ?_
    split
    · refine kept_bind (kept_silent fun _ hv => hv) fun _ => ?_
      exact kept_bind (kept_composes.suppress (kept_composes.attempt (working_silent fun _ hv => hv))) fun _ => kept_pure none
    · exact kept_composes.raise x

theorem kept_finishTransfer (hunset : Unset given) : DialogueKept accessCode given lab j l finishTransfer := by
  refine kept_bind kept_awaitCompletion fun final => ?_
  cases final with
  | none => exact kept_sendThen hunset _ kept_releaseUpstream
  | some final => exact kept_send hunset final

section

variable {raw : List UInt8}

theorem kept_answerClient (reply : Option String) :
    DialogueKept accessCode (some raw) lab j l
      (answerClient (parseLine (decodeLine raw)).1 (parseLine (decodeLine raw)).2 reply) := by
  cases reply with
  | none => exact kept_giveUp (by decide) kept_releaseUpstream
  | some reply =>
      intro s e h
      refine wp_bind _ _ s e ((wp_modify _).mpr (wp_bind _ _ _ e (logWp_send fun r e₁ h₁ => ?_)))
      have hquiet := quiet_recordReply (parseLine (decodeLine raw)).1 (parseLine (decodeLine raw)).2 reply
      have hcode : ∀ s, (recordReply (parseLine (decodeLine raw)).1 (parseLine (decodeLine raw)).2 reply s).accessCode =
          s.accessCode := by
        intro s
        unfold recordReply recordAccepted
        repeat' split
        all_goals rfl
      have hcarried : Attuned accessCode (some raw)
          (recordReply (parseLine (decodeLine raw)).1 (parseLine (decodeLine raw)).2 reply s) (.told reply :: e.log j) := by
        cases hr : Str.startswith reply "2" with
        | true =>
            refine h.toAttuned.record hr (hcode s) fun x hx => ?_
            rw [recordReply, if_pos hr]
            exact hx.recordAccepted _ _
        | false =>
            rw [recordReply, hr, if_neg (by decide)]
            exact h.toAttuned.refused hr
      have hworking : Working accessCode (some raw)
          (recordReply (parseLine (decodeLine raw)).1 (parseLine (decodeLine raw)).2 reply s) (e₁.log j) := by
        rw [h₁]
        exact ⟨hcarried, fun hu => h.upstream (hquiet.upstream s ▸ hu)⟩
      cases r with
      | error _ => trivial
      | ok _ =>
          dsimp only
          split
          · next hwaits =>
              have hunset : Unset (some raw) := by
                rintro _ ⟨⟩ hin
                obtain ⟨_, htransfer⟩ := (Bool.and_eq_true _ _).mp hwaits
                simp only [statefulCommands, List.mem_cons, List.not_mem_nil, or_false] at hin
                rcases hin with hin | hin | hin | hin | hin <;> rw [hin] at htransfer <;> revert htransfer <;> decide
              exact kept_finishTransfer hunset _ e₁ hworking
          · exact hworking

theorem kept_forward (hremote : (parseLine (decodeLine raw)).1 ∉ localCommands) :
    DialogueKept accessCode (some raw) lab j l
      (forward (parseLine (decodeLine raw)).1 (parseLine (decodeLine raw)).2 (decodeLine raw)) :=
  kept_bind (kept_sendUpstream (.forward rfl hremote)) fun reply => kept_answerClient reply

theorem kept_connectAndForward (hremote : (parseLine (decodeLine raw)).1 ∉ localCommands) :
    DialogueKept accessCode (some raw) lab j l
      (connectAndForward (parseLine (decodeLine raw)).1 (parseLine (decodeLine raw)).2 (decodeLine raw)) := by
  refine kept_bind (kept_ensureUpstream _) fun connected => ?_
  split
  · exact kept_bind kept_cancelDataRelay fun _ => kept_refuse (by decide)
  · split
    · refine kept_bind kept_prepareUpstreamData fun prepared => ?_
      split
      · exact kept_forward hremote
      · exact kept_pure ()
    · exact kept_forward hremote

theorem kept_handleUpstream (hremote : (parseLine (decodeLine raw)).1 ∉ localCommands) :
    DialogueKept accessCode (some raw) lab j l
      (handleUpstream (parseLine (decodeLine raw)).1 (parseLine (decodeLine raw)).2 (decodeLine raw)) := by
  refine kept_bind kept_get fun s => ?_
  split
  · refine kept_refuse ?_
    simp only [Str.startswith, String.toList_append]
    rfl
  · split
    · cases s.data with
      | none => exact kept_refuse (by decide)
      | some d =>
          refine kept_bind (kept_silent fun _ hv => hv) fun done => ?_
          split
          · exact kept_refuse (by decide)
          · exact kept_bind (kept_silent fun _ hv => hv) fun _ => kept_connectAndForward hremote
    · exact kept_connectAndForward hremote

end

theorem kept_handlePassiveRequest (hunset : Unset given) (command argument : String) :
    DialogueKept accessCode given lab j l (handlePassiveRequest command argument) := by
  refine kept_bind kept_get fun s => ?_
  split
  · exact kept_send hunset _
  split
  · exact kept_send hunset _
  · refine kept_bind kept_openPassiveRelay fun localPort => ?_
    cases localPort with
    | none => exact kept_send hunset _
    | some localPort =>
        refine kept_bind (kept_composes.modify (working_quiet (fun _ => rfl) (fun _ => rfl) (fun _ => rfl) fun _ => rfl))
          fun _ => ?_
        split <;> exact kept_send hunset _

theorem kept_handleLocal (hunset : Unset given) {command : String} (hc : command ∉ statefulCommands) (argument : String) :
    DialogueKept accessCode given lab j l (handleLocal command argument) := by
  have hanswered : ∀ line, DialogueKept accessCode given lab j l (send line >>= fun _ => pure true) :=
    fun line => kept_sendThen hunset line (kept_pure true)
  refine kept_bind kept_get fun s => ?_
  split
  · exact hanswered _
  split
  · split
    · exact hanswered _
    · exact kept_bind (kept_composes.modify (working_quiet (fun _ => rfl) (fun _ => rfl) (fun _ => rfl) fun _ => rfl))
        fun _ => hanswered _
  split
  · exact hanswered _
  split
  · exact hanswered _
  split
  · exact kept_sendThen hunset _ (hanswered _)
  split
  · exact hanswered _
  split
  · exact hanswered _
  · exact kept_pure false

theorem kept_handleLocal_mode {raw : List UInt8} (hmode : (parseLine (decodeLine raw)).1 ∈ modeCommands) :
    DialogueKept accessCode (some raw) lab j l
      (handleLocal (parseLine (decodeLine raw)).1 (parseLine (decodeLine raw)).2) := by
  rw [handleLocal_mode hmode]
  refine kept_bind kept_get fun s => ?_
  split
  · exact kept_pure false
  · intro s e h
    refine wp_bind _ _ s e ((wp_modify _).mpr (wp_bind _ _ _ e ((wp_modify _).mpr ?_)))
    refine wp_bind _ _ _ e (logWp_send fun r e₁ h₁ => ?_)
    cases r with
    | error _ => trivial
    | ok _ =>
        have hr : Str.startswith ("200 " ++ (parseLine (decodeLine raw)).1 ++ " set to " ++ (parseLine (decodeLine raw)).2 ++
            "\r\n") "2" = true := by
          simp only [Str.startswith, String.toList_append]
          rfl
        have hdirectory : (parseLine (decodeLine raw)).1 ∉ ["CWD", "CDUP"] := by
          refine (?_ : ∀ command ∈ modeCommands, command ∉ ["CWD", "CDUP"]) _ hmode
          decide
        have hstateful : (parseLine (decodeLine raw)).1 ∈ statefulCommands := by
          refine (?_ : ∀ command ∈ modeCommands, command ∈ statefulCommands) _ hmode
          decide
        show Working accessCode (some raw) _ (e₁.log j)
        rw [h₁]
        refine ⟨h.toAttuned.record hr rfl fun x hx => ?_, h.upstream⟩
        have hset := hx.recordAccepted (parseLine (decodeLine raw)).1 (parseLine (decodeLine raw)).2
        rw [Session.recordAccepted, if_neg hdirectory, if_pos hstateful] at hset
        exact hset

theorem answered_local {α : Type} {P : Bool → Prop} (hP : P true) (c : Session α) : Returns P (c >>= fun _ => pure true) :=
  returns_bind c fun _ => hP

theorem handleLocal_passes {command argument : String} (hempty : command ≠ "") (hquit : command ≠ "QUIT")
    (hpassive : command ∉ ["PASV", "EPSV"]) :
    Returns (fun handled => handled = false → command ∉ localCommands) (handleLocal command argument) := by
  have hanswered : ∀ {α : Type} (c : Session α),
      Returns (fun handled => handled = false → command ∉ localCommands) (c >>= fun _ => pure true) :=
    fun c => answered_local (by simp) c
  refine returns_bind _ fun s => ?_
  split
  · exact hanswered _
  split
  · split
    · exact hanswered _
    · exact returns_bind _ fun _ => hanswered _
  split
  · exact hanswered _
  split
  · exact hanswered _
  split
  · exact returns_bind _ fun _ => hanswered _
  split
  · exact hanswered _
  split
  · exact hanswered _
  next huser hpass hactive hauth hfeat hsyst hplain =>
    have hremote : command ∉ localCommands := by
      simp only [localCommands, List.mem_cons, List.not_mem_nil, or_false, not_or] at hactive hplain hpassive ⊢
      tauto
    split
    · split
      · exact fun _ => hremote
      split
      · exact fun _ => hremote
      · exact returns_bind _ fun _ => returns_bind _ fun _ => hanswered _
    · exact fun _ => hremote

theorem kept_local {raw : List UInt8} : DialogueKept accessCode (some raw) lab j l
    (handleLocal (parseLine (decodeLine raw)).1 (parseLine (decodeLine raw)).2) := by
  by_cases hc : (parseLine (decodeLine raw)).1 ∈ statefulCommands
  · rcases stateful_cases hc with hmode | hdirectory
    · exact kept_handleLocal_mode hmode
    · rw [handleLocal_directory hdirectory]
      exact kept_bind kept_get fun _ => kept_pure false
  · exact kept_handleLocal (by rintro _ ⟨⟩; exact hc) hc _

theorem kept_serve (raw : List UInt8) : DialogueKept accessCode (some raw) lab j l (serve (decodeLine raw)) := by
  have hthen : ∀ {c : Session Unit} {next : Label}, DialogueKept accessCode (some raw) lab j l c →
      DialogueKept accessCode (some raw) lab j l (c >>= fun _ => pure next) :=
    fun hc => kept_bind hc fun _ => kept_pure _
  have hunset : ∀ {commands : List String}, (∀ command ∈ commands, command ∉ statefulCommands) →
      (parseLine (decodeLine raw)).1 ∈ commands → Unset (some raw) := by
    rintro commands hcommands hin _ ⟨⟩
    exact hcommands _ hin
  refine kept_bind kept_get fun s => ?_
  split
  · exact hthen (kept_refuse (by decide))
  split
  · next hquit =>
      have hin : (parseLine (decodeLine raw)).1 ∈ ["QUIT"] := by simp [hquit]
      exact hthen (kept_send (hunset (by decide) hin) _)
  split
  · exact hthen (kept_refuse (by decide))
  split
  · next hpassive => exact hthen (kept_handlePassiveRequest (hunset (by decide) hpassive) _ _)
  next hempty hquit hauth hpassive =>
    intro s e h
    have hlocal : dialogueWp accessCode lab j l
        (handleLocal (parseLine (decodeLine raw)).1 (parseLine (decodeLine raw)).2) _ s e :=
      wp_returns _ (handleLocal_passes hempty hquit hpassive) s e (kept_local s e h)
    refine wp_bind _ _ s e (wp_mono _ ?_ s e hlocal)
    rintro r s₁ e₁ ⟨hpasses, h₁⟩
    cases r with
    | error _ => trivial
    | ok handled =>
        cases handled with
        | true => exact h₁
        | false => exact hthen (kept_handleUpstream (hpasses false rfl rfl)) s₁ e₁ h₁

theorem kept_readTimeout : DialogueKept accessCode given lab j l readTimeout := by
  refine kept_bind kept_get fun s => ?_
  split
  · exact kept_bind (kept_silent fun _ hv => hv) fun _ => kept_pure _
  · exact kept_pure _

theorem kept_idle : DialogueKept accessCode given lab j l idle := by
  refine kept_bind kept_get fun s => ?_
  split
  · refine kept_bind (kept_silent fun _ hv => hv) fun now => ?_
    split
    · exact kept_pure _
    · exact kept_bind kept_releaseUpstream fun _ => kept_pure _
  · exact kept_pure _

def BetweenLines (accessCode : String) (s : ControlSession) (log : List Event) : Prop := ∃ given, Working accessCode given s log

theorem betweenLines_readAndServe (h : BetweenLines accessCode s (e.log j)) :
    dialogueWp accessCode lab j l readAndServe (Then (BetweenLines accessCode) j) s e := by
  obtain ⟨given, h⟩ := h
  have hsettles : ∀ {given : Option (List UInt8)} {c : Session Label}, DialogueKept accessCode given lab j l c →
      ∀ s e, Working accessCode given s (e.log j) → dialogueWp accessCode lab j l c (Then (BetweenLines accessCode) j) s e := by
    intro given c hc s e h
    refine wp_mono _ (fun r s' e' h' => ?_) s e (hc s e h)
    cases r with
    | ok _ => exact ⟨given, h'⟩
    | error _ => trivial
  refine wp_bind _ _ s e (wp_mono _ ?_ s e (kept_readTimeout s e h))
  intro r s₁ e₁ h₁
  cases r with
  | error _ => trivial
  | ok timeout =>
      refine wp_bind _ _ s₁ e₁ (wp_attempt _ s₁ e₁ (logWp_readline (fun raw e₂ h₂ => ?_) fun x e₂ h₂ => ?_))
      · have hreceived : Working accessCode (some raw) s₁ (e₂.log j) := by
          rw [h₂]
          exact ⟨⟨h₁.accessCode, ⟨h₁.stands.mode, h₁.stands.cwd, h₁.stands.rooted⟩, rfl, h₁.calm⟩, h₁.upstream⟩
        show dialogueWp accessCode lab j l (if _ then _ else _) _ s₁ e₂
        split
        · exact ⟨some raw, hreceived⟩
        · exact hsettles (kept_serve raw) s₁ e₂ hreceived
      · have hsame : Working accessCode given s₁ (e₂.log j) := by
          rw [h₂]
          exact h₁
        cases x
        case timeout => exact hsettles kept_idle s₁ e₂ hsame
        all_goals first
        | exact ⟨given, hsame⟩
        | trivial

def dialogueLab (accessCode : String) : Label → ControlSession → List Event → Prop
  | .start, s, log => Working accessCode none s log
  | .closing, _, _ => True
  | _, s, log => BetweenLines accessCode s log

theorem dialogue_body {clients : Clients} (h : dialogueLab accessCode l s (e.log j)) :
    dialogueWp accessCode (dialogueLab accessCode) j l (body l)
      ((logProtocol (dialogueAllowed accessCode) (dialogueLab accessCode)).post (ftpProxy clients) j l) s e := by
  have hbetween : Between (BetweenLines accessCode) (dialogueLab accessCode) := ⟨fun _ _ => trivial, rfl, rfl⟩
  refine hbetween.body (fun s e h => ?_) (fun s e h => betweenLines_readAndServe h) h
  have hunset : Unset none := by rintro _ ⟨⟩
  refine wp_mono _ (fun r s' e' h' => ?_) s e (kept_send hunset _ s e h)
  cases r with
  | ok _ => exact ⟨none, h'⟩
  | error _ => trivial

end Session

theorem dialogue_verified (clients : Clients) :
    (Session.logProtocol (dialogueAllowed clients.accessCode) (Session.dialogueLab clients.accessCode)).Verified
      (ftpProxy clients) := by
  refine Session.log_verified (fun _ _ _ _ h => Session.dialogue_body h) fun localIp localIpv4 => ⟨⟨rfl, ?_, rfl, fun _ => rfl⟩, ?_⟩
  · exact ⟨rfl, rfl, show "/" ≠ "" by decide⟩
  · rintro ⟨⟩

theorem printer_dialogue {clients : Clients} {q : SessionQueue} {pool : DataPortPool} {c : FtpConfig}
    (hrun : (ftpProxy clients).Runs (fun _ _ _ => True) (startup q pool) c) (j : Nat) :
    Session.InOrder (dialogueAllowed clients.accessCode) (c.env.log j) :=
  Session.log_runs (dialogue_verified clients) hrun j

def requests (log : List Event) : List String :=
  log.filterMap fun
    | .asked request _ => some request.wire
    | _ => none

def asksSize : List FtpAct :=
  logsIn 0 ++ sends 0 "TYPE I\r\n" ++ [.run 0] ++ sends 0 "SIZE x\r\n" ++ reachesPrinter 0 0 ++ answers 0 "200 ok\r\n"

theorem printer_dialogue_size : ∃ c, (ftpProxy lan).runActs (startup oneSlot onePort) asksSize = some c ∧
    requests (c.env.log 0) = ["SIZE x", "TYPE I", "USER bblp"] ∧
      Session.InOrder (dialogueAllowed "12345678") (c.env.log 0) := by
  have hend : ((ftpProxy lan).runActs (startup oneSlot onePort) asksSize).map (fun c => requests (c.env.log 0)) =
      some ["SIZE x", "TYPE I", "USER bblp"] := by
    decide +kernel
  obtain ⟨c, hc, hrequests⟩ := Option.map_eq_some_iff.mp hend
  exact ⟨c, hc, hrequests, printer_dialogue ((ftpProxy lan).runActs_runs _ hc) 0⟩

end PandaProxy.FtpProxy
