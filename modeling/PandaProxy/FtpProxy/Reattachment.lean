import PandaProxy.FtpProxy.Conversation
import PandaProxy.FtpProxy.Effects

namespace PandaProxy.FtpProxy

open Async FtpQueue Python

namespace Ledger

def Harmless (v : Ledger) : Prop :=
  ∀ request, v.asked = some request → v.printer.apply request.said.1 request.said.2 = v.printer

structure Rest (X : Option (String × String) → Prop) (v : Ledger) : Prop where
  harmless : Harmless v
  synced : Synced v
  serving : X v.serving

def Effectless (serving : Option (String × String)) : Prop :=
  ∀ p, serving = some p → p.1 ∉ effectCommands

section

variable {X : Option (String × String) → Prop} {v : Ledger}

theorem Rest.imp {Y : Option (String × String) → Prop} (h : Rest X v) (hY : X v.serving → Y v.serving) :
    Rest Y v :=
  ⟨h.harmless, h.synced, hY h.serving⟩

theorem Harmless.answered (h : Harmless v) (reply : Option String) :
    v.step (.answered reply) = { v with asked := none } := by
  simp only [step]
  cases hasked : v.asked with
  | none => exact congrArg (fun a => { v with asked := a }) hasked
  | some request => simp only [h request hasked, ite_self]

theorem Rest.answered (h : Rest X v) (reply : Option String) : Rest X (v.step (.answered reply)) := by
  rw [h.harmless.answered]
  exact ⟨nofun, ⟨h.synced.held, h.synced.rename⟩, h.serving⟩

theorem Rest.opened (h : Rest X v) : Rest X (v.step .opened) :=
  ⟨nofun, ⟨rfl, .inl rfl⟩, h.serving⟩

theorem Rest.asked {request : Request} (h : Rest X v) (relay : Option Relay)
    (hr : v.printer.apply request.said.1 request.said.2 = v.printer) :
    Rest X (v.step (.asked request relay)) := by
  refine ⟨fun r he => ?_, ⟨h.synced.held, h.synced.rename⟩, h.serving⟩
  cases he
  exact hr

theorem refused_step {line : String} (h : positive line = false) : v.step (.told line) = v := by
  simp only [step, h]
  split <;> rfl

theorem Rest.told (h : Rest Effectless v) (line : String) : Rest Effectless (v.step (.told line)) := by
  simp only [step]
  split
  · next command argument hs =>
      have hc := h.serving (command, argument) hs
      split
      · refine ⟨h.harmless, ?_, nofun⟩
        rw [Effects.apply_other hc, Effects.apply_other hc]
        exact ⟨h.synced.held, h.synced.rename⟩
      · exact h
  · exact h

end

end Ledger

namespace Session

open Proxy Ledger

def reattachAllowed : Request → List Event → Prop
  | .forward _ _ _, earlier => Synced (ledger earlier)
  | .issue _ _, _ => True

abbrev Resting (X : Option (String × String) → Prop) (_ : ControlSession) (log : List Event) : Prop :=
  Rest X (ledger log)

abbrev Opened (X : Option (String × String) → Prop) (_ : ControlSession) (log : List Event) : Prop :=
  Rest X (ledger log) ∧ (ledger log).printer = .initial

structure Kind (I : ControlSession → List Event → Prop) : Prop where
  state : ∀ {s s' log}, I s log → I s' log
  answered : ∀ {s log} reply, I s log → I s (.answered reply :: log)
  closed : ∀ {s log}, I s log → I s (.closed :: log)
  examined : ∀ {s log} phase, I s log → I s (.examined phase :: log)
  own : ∀ {s log command} argument relay, command ∈ ownCommands → I s log →
    I s (.asked (.issue command argument) relay :: log)
  refused : ∀ {s log line}, positive line = false → I s log → I s (.told line :: log)

theorem ownCommands_effectless {command : String} (h : command ∈ ownCommands) (argument : String) :
    (Request.issue command argument).said.1 ∉ effectCommands := by
  rw [Request.said_issue (ownCommands_verb h)]
  simp only [ownCommands, List.mem_cons, List.not_mem_nil, or_false] at h
  rcases h with rfl | rfl | rfl | rfl <;> decide

theorem resting_kind (X : Option (String × String) → Prop) : Kind (Resting X) where
  state h := h
  answered reply h := h.answered reply
  closed h := h
  examined _ h := h
  own argument relay hc h := h.asked relay (Effects.apply_other (ownCommands_effectless hc argument) _ _)
  refused hl h := by
    rw [Resting, ledger, refused_step hl]
    exact h

theorem opened_kind (X : Option (String × String) → Prop) : Kind (Opened X) where
  state h := h
  answered {s log} reply h := by
    have hstep : ledger (.answered reply :: log) = _ := h.1.harmless.answered reply
    exact ⟨h.1.answered reply, by rw [hstep]; exact h.2⟩
  closed h := h
  examined _ h := h
  own argument relay hc h := ⟨h.1.asked relay (Effects.apply_other (ownCommands_effectless hc argument) _ _), h.2⟩
  refused hl h := by
    rw [Opened, ledger, refused_step hl]
    exact h

section

variable {I J : ControlSession → List Event → Prop} {X : Option (String × String) → Prop}
  {lab : Label → ControlSession → List Event → Prop} {j : Nat} {l : Label}

abbrev Indifferent (_ : ControlSession → ControlSession) : Prop := True

theorem kind_composes (hI : Kind I) (hIJ : ∀ s log, I s log → J s log) :
    Composes (Neutral reattachAllowed I) Indifferent (Speaks reattachAllowed lab j l I J) :=
  { speaks_composes hIJ with modify := fun _ => speaks_modify (fun _ _ h => hI.state h) }

theorem kind_robust (hI : Kind I) :
    Robust (Neutral reattachAllowed I) Indifferent (Speaks reattachAllowed lab j l I I) :=
  { speaks_robust with modify := fun _ => speaks_modify (fun _ _ h => hI.state h) }

theorem neutral_replies (hI : Kind I) {i : Op} (hi : ∀ v, emits i v → ∃ reply, v = .answered reply) :
    Neutral reattachAllowed I i where
  stays v s log hv h := by
    obtain ⟨reply, rfl⟩ := hi v hv
    exact hI.answered reply h
  covers request _ _ he := by
    subst he
    obtain ⟨reply, hr⟩ := hi _ ⟨none, rfl⟩
    cases hr

theorem neutral_own (hI : Kind I) (command argument : String) (hc : command ∈ ownCommands) :
    Neutral reattachAllowed I (.writeUpstream (.issue command argument)) where
  stays v s log hv h := by
    obtain ⟨relay, rfl⟩ := hv
    exact hI.own argument relay hc h
  covers request _ _ he _ := by
    cases he
    trivial

theorem neutral_refuse (hI : Kind I) (line : String) (hl : positive line = false) :
    Neutral reattachAllowed I (.writeClient line) where
  stays v s log hv h := by
    cases hv
    exact hI.refused hl h
  covers _ _ _ he := by cases he

theorem kind_asks (hI : Kind I) : Asks (Neutral reattachAllowed I) Indifferent where
  monotonic := .silent (fun _ hv => hv)
  issue := neutral_own hI
  drainUpstream := .silent (fun _ hv => hv)
  readReply := neutral_replies hI (fun _ hv => hv)
  touch _ := trivial

theorem kind_refuses (hI : Kind I) : Refuses (Neutral reattachAllowed I) Indifferent where
  toAsks := kind_asks hI
  refuse := neutral_refuse hI
  drainClient := .silent (fun _ hv => hv)
  endpointDone _ := .silent (fun _ hv => hv)

theorem kind_hands (hI : Kind I) : Hands (Neutral reattachAllowed I) where
  setCommandSeen _ := .silent (fun _ hv => hv)
  taskDone n := by
    refine ⟨fun v s log hv h => ?_, fun _ _ _ he => by cases he⟩
    obtain ⟨phase, rfl⟩ := hv
    exact hI.examined phase h
  setEndpoint _ _ _ := .silent (fun _ hv => hv)

theorem kind_closes (hI : Kind I) : Closes (Neutral reattachAllowed I) Indifferent where
  closeUpstream := by
    refine ⟨fun v s log hv h => ?_, fun _ _ _ he => by cases he⟩
    cases hv
    exact hI.closed h
  upstreamClosed := .silent (fun _ hv => hv)
  abortUpstream := .silent (fun _ hv => hv)
  queueRelease := .silent (fun _ hv => hv)
  yield := trivial

theorem kind_queues : Queues (Neutral reattachAllowed I) := by
  constructor <;> intros <;> exact .silent (fun _ hv => hv)

theorem kind_relays : Relays (Neutral reattachAllowed I) Indifferent := by
  constructor <;> intros <;> first | trivial | exact .silent (fun _ hv => hv)

theorem kind_releaseUpstream (hI : Kind I) : Speaks reattachAllowed lab j l I I releaseUpstream :=
  (kind_robust hI).releaseUpstream (kind_closes hI) trivial

theorem kind_cancelDataRelay (hI : Kind I) : Speaks reattachAllowed lab j l I I cancelDataRelay :=
  (kind_robust hI).toComposes.cancelDataRelay kind_relays

theorem effectless_talks : Talks (Neutral reattachAllowed (Resting Effectless)) Indifferent where
  toRefuses := kind_refuses (resting_kind Effectless)
  writeClient line := by
    refine ⟨fun v s log hv h => ?_, fun _ _ _ he => by cases he⟩
    cases hv
    exact Rest.told h line
  createReply _ := .silent (fun _ hv => hv)
  waitReply _ := .silent (fun _ hv => hv)
  replyResult := neutral_replies (resting_kind _) (fun _ hv => hv)
  moved := .silent (fun _ hv => hv)
  awaitReply _ := neutral_replies (resting_kind _) (fun _ hv => hv)
  cancelReply := .silent (fun _ hv => hv)
  awaitReplyCancelled := .silent (fun _ hv => hv)
  authenticate := trivial
  passiveMode _ := trivial

theorem opened_replayState :
    Speaks reattachAllowed lab j l (Opened X) (Opened X) replayState := by
  refine (kind_robust (opened_kind X)).toComposes.replayState (kind_asks (opened_kind X)) ?_ (fun _ => trivial)
  intro command argument hc
  refine ⟨fun v s log hv h => ?_, fun request _ _ he _ => ?_⟩
  · obtain ⟨relay, rfl⟩ := hv
    refine ⟨h.1.asked relay ?_, h.2⟩
    rw [h.2, said_stateful hc]
    exact Effects.apply_initial hc argument
  · cases he
    trivial

theorem connect_resting : Speaks reattachAllowed lab j l (Resting X) (fun _ _ => True) connect := by
  have hc := @kind_robust _ lab j l (opened_kind X)
  have hsetUp := hc.toComposes.setUp (kind_asks (opened_kind X)) (kind_releaseUpstream (opened_kind X))
    opened_replayState
  intro s e h
  refine wp_bind _ _ s e (wp_attempt _ s e (logWp_openConnection (fun e₁ h₁ => ?_) (fun x e₁ h₁ => ?_)))
  · refine wp_bind _ _ s e₁ ((wp_modify _).mpr ?_)
    have hopened : Opened X { s with upstream := true } (e₁.log j) := by
      rw [h₁]
      exact ⟨Rest.opened h, rfl⟩
    refine wp_mono _ ?_ _ e₁ (hsetUp _ e₁ hopened)
    intro r s' e' h'
    cases r with
    | ok _ => exact h'.1
    | error _ => trivial
  · have hsame : Resting X s (e₁.log j) := h₁ ▸ h
    have hrest := @kind_composes _ (fun _ _ => True) lab j l (resting_kind X)
      (fun _ _ _ => trivial)
    show logWp reattachAllowed lab j l (if _ then _ else _) _ s e₁
    split
    · exact hrest.bind (Keeps.weaken (fun _ _ _ => trivial) (kind_releaseUpstream (resting_kind X)))
        (fun _ => hrest.pure false) s e₁ hsame
    · trivial

theorem ensureUpstream_resting (priority : Int) :
    Speaks reattachAllowed lab j l (Resting X) (fun _ _ => True) (ensureUpstream priority) := by
  have hc := @kind_composes _ (fun _ _ => True) lab j l (resting_kind X)
    (fun _ _ _ => trivial)
  refine hc.bind hc.get (fun s => ?_)
  split
  · exact hc.pure true
  · have hqueue := (@kind_robust _ lab j l (resting_kind X)).acquireSlot kind_queues priority
    refine hc.bind (Keeps.weaken (fun _ _ _ => trivial) hqueue) (fun acquired => ?_)
    split
    · exact hc.pure false
    · exact hc.bind (hc.modify trivial) (fun _ => connect_resting)

theorem resting_composes (X : Option (String × String) → Prop) :
    Composes (Neutral reattachAllowed (Resting X)) Indifferent
      (Speaks reattachAllowed lab j l (Resting X) (fun _ _ => True)) :=
  kind_composes (resting_kind X) (fun _ _ _ => trivial)

theorem resting_weaken {c : Session α} (h : Speaks reattachAllowed lab j l (Resting X) (Resting X) c) :
    Speaks reattachAllowed lab j l (Resting X) (fun _ _ => True) c :=
  Keeps.weaken (fun _ _ _ => trivial) h

theorem resting_releaseUpstream :
    Speaks reattachAllowed lab j l (Resting X) (fun _ _ => True) releaseUpstream :=
  resting_weaken (kind_releaseUpstream (resting_kind X))

theorem resting_cancelDataRelay :
    Speaks reattachAllowed lab j l (Resting X) (fun _ _ => True) cancelDataRelay :=
  resting_weaken (kind_cancelDataRelay (resting_kind X))

theorem effectless_serve {line : String} (hc : (parseLine line).1 ∉ effectCommands) :
    Speaks reattachAllowed lab j l (Resting Effectless) (fun _ _ => True) (serve line) := by
  have hcomp := @resting_composes lab j l Effectless
  have hsaid : (wireLine line).1 ∉ effectCommands := by rwa [parseLine_wire] at hc
  refine hcomp.serve effectless_talks (hcomp.openPassiveRelay kind_relays)
    (hcomp.handleLocal effectless_talks (fun _ => ⟨trivial, trivial⟩)) ?_
  refine hcomp.handleUpstream effectless_talks.toRefuses resting_cancelDataRelay resting_releaseUpstream
    (kind_hands (resting_kind _)) ensureUpstream_resting ?_
  refine hcomp.forward resting_cancelDataRelay resting_releaseUpstream effectless_talks ?_ (fun _ => trivial)
  refine ⟨fun v s log hv h => ?_, fun request s log he h => ?_⟩
  · obtain ⟨relay, rfl⟩ := hv
    exact Rest.asked h relay (Effects.apply_other hsaid _ _)
  · cases he
    exact Rest.synced h

abbrev Busy (command argument : String) (serving : Option (String × String)) : Prop :=
  serving = some (command, argument)

abbrev Whatever (_ : Option (String × String)) : Prop := True

abbrev Rests (j : Nat) {α : Type} (r : Except Exc α) (s : ControlSession) (e : Proxy) : Prop :=
  Ends (fun s e => Resting Whatever s (e.log j)) (fun _ _ => True) r s e

abbrev reattachWp (lab : Label → ControlSession → List Event → Prop) (j : Nat) (l : Label) {α : Type}
    (c : Session α) (Q : Except Exc α → ControlSession → Proxy → Prop) (s : ControlSession) (e : Proxy) :
    Prop :=
  logWp reattachAllowed lab j l c Q s e

variable {command argument line : String} {s : ControlSession} {e : Proxy}

theorem rests_of_speaks {c : Session α} (hc : Speaks reattachAllowed lab j l (Resting X) (fun _ _ => True) c)
    (h : Resting X s (e.log j)) : reattachWp lab j l c (Rests j) s e := by
  refine wp_mono _ ?_ s e (hc s e h)
  intro r s' e' h'
  cases r with
  | ok _ => exact Rest.imp h' (fun _ => trivial)
  | error _ => trivial

theorem rests_answerClient_lost (command argument : String) (h : Resting X s (e.log j)) :
    reattachWp lab j l (answerClient command argument none) (Rests j) s e := by
  have hc := @resting_composes lab j l X
  refine rests_of_speaks (hc.bind resting_cancelDataRelay (fun _ => ?_)) h
  exact hc.bind (hc.refuse (kind_refuses (resting_kind X)) (by decide)) (fun _ => resting_releaseUpstream)

theorem rests_answerClient (request : Request) {relay : Option Relay} {reply : Option String} {e₀ : Proxy}
    (h : Resting (Busy request.said.1 request.said.2) s (e₀.log j))
    (hlog : e.log j = .answered reply :: .asked request relay :: e₀.log j) :
    reattachWp lab j l (answerClient command argument reply) (Rests j) s e := by
  have hserving := h.serving
  cases hp : reply.any positive with
  | false =>
      have hstep : ledger (e.log j) = { ledger (e₀.log j) with asked := none } := by
        rw [hlog]
        simp only [ledger, step, hp]
        rfl
      have hrest : Resting (Busy request.said.1 request.said.2) s (e.log j) := by
        rw [Resting, hstep]
        exact ⟨by rintro _ ⟨⟩, ⟨h.synced.held, h.synced.rename⟩, hserving⟩
      cases reply with
      | none => exact rests_answerClient_lost _ _ hrest
      | some r =>
          have hr : positive r = false := hp
          have hone : Str.startswith r "1" = false := by
            simp only [positive, Bool.or_eq_false_iff] at hr
            exact hr.1.1
          have hc := @resting_composes lab j l (Busy request.said.1 request.said.2)
          refine rests_of_speaks (hc.bind (hc.modify trivial) (fun _ =>
            hc.bind (hc.refuse (kind_refuses (resting_kind _)) hr) (fun _ => ?_))) hrest
          rw [hone, Bool.false_and]
          exact hc.pure ()
  | true =>
      cases reply with
      | none => cases hp
      | some r =>
          have hr : positive r = true := hp
          refine wp_bind _ _ s e ((wp_modify _).mpr (wp_bind _ _ _ e (logWp_send (fun u e₁ h₁ => ?_))))
          cases u with
          | error x => trivial
          | ok _ =>
              have hrest : Resting Effectless
                  (recordReply command argument r s) (e₁.log j) := by
                rw [Resting, h₁, hlog]
                simp only [ledger, step]
                rw [hserving]
                simp only [hp, hr, if_true]
                refine ⟨by rintro _ ⟨⟩, ⟨?_, Effects.apply_rename h.synced.rename _ _⟩, by rintro _ ⟨⟩⟩
                exact congrArg (fun x : Effects => x.apply _ _) h.synced.held
              have hc := @resting_composes lab j l Effectless
              refine rests_of_speaks ?_ hrest
              split
              · exact hc.finishTransfer resting_releaseUpstream effectless_talks
              · exact hc.pure ()

theorem rests_forward (h : Resting (Busy (wireLine line).1 (wireLine line).2) s (e.log j)) :
    reattachWp lab j l (forward command argument line) (Rests j) s e := by
  refine wp_bind _ _ s e ?_
  cases hu : s.upstream with
  | true =>
      refine logWp_sendUpstream hu h.synced (fun now reply view e₁ h₁ => ?_) (fun _ _ _ => trivial)
      exact rests_answerClient (.forward command argument line) h h₁
  | false =>
      refine wp_bind _ _ s e (wp_get.mpr ?_)
      dsimp only
      rw [if_neg (by simp [hu])]
      exact rests_answerClient_lost command argument h

theorem rests_refuse {text : String} (ht : positive text = false) (h : Resting X s (e.log j)) :
    reattachWp lab j l (send text) (Rests j) s e :=
  rests_of_speaks ((resting_composes X).refuse (kind_refuses (resting_kind X)) ht) h

theorem rests_connectAndForward (h : Resting (Busy (wireLine line).1 (wireLine line).2) s (e.log j)) :
    reattachWp lab j l (connectAndForward command argument line) (Rests j) s e := by
  have hc := @resting_composes lab j l (Busy (wireLine line).1 (wireLine line).2)
  have hrefuses := kind_refuses (resting_kind (Busy (wireLine line).1 (wireLine line).2))
  refine wp_bind _ _ s e (wp_mono _ ?_ s e (ensureUpstream_resting _ s e h))
  intro r s₁ e₁ h₁
  cases r with
  | error _ => trivial
  | ok connected =>
      cases connected with
      | false => exact rests_of_speaks (hc.bind resting_cancelDataRelay (fun _ => hc.refuse hrefuses (by decide))) h₁
      | true =>
          show reattachWp lab j l (if command ∈ transferCommands then _ else _) _ s₁ e₁
          split
          · refine wp_bind _ _ s₁ e₁ (wp_mono _ ?_ s₁ e₁ (hc.prepareUpstreamData hrefuses
              resting_cancelDataRelay resting_releaseUpstream (kind_hands (resting_kind _)) s₁ e₁ h₁))
            intro r s₂ e₂ h₂
            cases r with
            | error _ => trivial
            | ok prepared =>
                cases prepared with
                | false => exact Rest.imp h₂ (fun _ => trivial)
                | true => exact rests_forward h₂
          · exact rests_forward h₁

theorem rests_handleUpstream (h : Resting (Busy (wireLine line).1 (wireLine line).2) s (e.log j)) :
    reattachWp lab j l (handleUpstream command argument line) (Rests j) s e := by
  refine wp_bind _ _ s e (wp_get.mpr ?_)
  dsimp only
  split
  · exact rests_refuse (positive_reissue _) h
  split
  · cases s.data with
    | none => exact rests_refuse (by decide) h
    | some d =>
        refine wp_bind _ _ s e (logWp_silent (i := .endpointDone _) (fun _ hv => hv) (fun r e₁ h₁ => ?_))
        have hrest₁ : Resting (Busy (wireLine line).1 (wireLine line).2) s (e₁.log j) := by rwa [Resting, h₁]
        cases r with
        | error _ => trivial
        | ok done =>
            show reattachWp lab j l (if _ then _ else _) _ s e₁
            split
            · exact rests_refuse (by decide) hrest₁
            · refine wp_bind _ _ s e₁ (logWp_silent (i := .setCommandSeen _) (fun _ hv => hv) (fun r e₂ h₂ => ?_))
              cases r with
              | error _ => trivial
              | ok _ => exact rests_connectAndForward (by rwa [Resting, h₂])
  · exact rests_connectAndForward h

theorem effect_facts (h : command ∈ effectCommands) : command ≠ "" ∧ command ≠ "QUIT" ∧
    command ∉ ["PASV", "EPSV"] := by
  refine (?_ : ∀ c ∈ effectCommands, c ≠ "" ∧ c ≠ "QUIT" ∧ c ∉ ["PASV", "EPSV"]) command h
  decide

theorem effect_handleLocal (h : command ∈ effectCommands) :
    handleLocal command argument = (Coro.get >>= fun _ => pure false) := by
  simp only [effectCommands, transferCommands, List.cons_append, List.nil_append, List.mem_cons,
    List.not_mem_nil, or_false] at h
  repeat' rcases h with rfl | h
  all_goals rfl

theorem effect_serve (hc : (parseLine line).1 ∈ effectCommands)
    (h : Resting (Busy (wireLine line).1 (wireLine line).2) s (e.log j)) :
    reattachWp lab j l (serve line) (Rests j) s e := by
  obtain ⟨hempty, hquit, hpassive⟩ := effect_facts hc
  refine wp_bind _ _ s e (wp_get.mpr ?_)
  dsimp only
  rw [if_neg hempty, if_neg hquit]
  split
  · refine wp_bind _ _ s e (wp_mono _ ?_ s e (rests_refuse (by decide) h))
    intro r s₁ e₁ h₁
    cases r with
    | ok _ => exact h₁
    | error _ => trivial
  · rw [effect_handleLocal hc]
    refine wp_bind _ _ s e (wp_bind _ _ s e (wp_get.mpr ?_))
    refine wp_bind _ _ s e (wp_mono _ ?_ s e (rests_handleUpstream h))
    intro r s₁ e₁ h₁
    cases r with
    | ok _ => exact h₁
    | error _ => trivial

theorem rests_serve (h : Resting (Busy (wireLine line).1 (wireLine line).2) s (e.log j)) :
    reattachWp lab j l (serve line) (Rests j) s e := by
  by_cases hc : (parseLine line).1 ∈ effectCommands
  · exact effect_serve hc h
  · refine rests_of_speaks (effectless_serve hc) (Rest.imp h (fun hs p hp => ?_))
    cases hs.symm.trans hp
    rwa [parseLine_wire] at hc

theorem rests_readAndServe (h : Resting Whatever s (e.log j)) :
    reattachWp lab j l readAndServe (Rests j) s e := by
  have hc := @resting_composes lab j l Whatever
  refine wp_bind _ _ s e (wp_mono _ ?_ s e (hc.readTimeout (kind_asks (resting_kind _)).monotonic s e h))
  intro r s₁ e₁ h₁
  cases r with
  | error _ => trivial
  | ok timeout =>
      refine wp_bind _ _ s₁ e₁ (wp_attempt _ s₁ e₁ (logWp_readline (fun raw e₂ h₂ => ?_) (fun x e₂ h₂ => ?_)))
      · have hbusy : Resting (Busy (wireLine (decodeLine raw)).1 (wireLine (decodeLine raw)).2) s₁ (e₂.log j) := by
          rw [Resting, h₂]
          exact ⟨h₁.harmless, ⟨h₁.synced.held, h₁.synced.rename⟩, rfl⟩
        show reattachWp lab j l (if _ then _ else _) _ s₁ e₂
        split
        · exact Rest.imp hbusy (fun _ => trivial)
        · exact rests_serve hbusy
      · have hsame : Resting Whatever s₁ (e₂.log j) := by rwa [Resting, h₂]
        cases x
        case timeout =>
          exact rests_of_speaks (hc.idle (kind_asks (resting_kind _)).monotonic resting_releaseUpstream) hsame
        all_goals first
        | exact hsame
        | trivial

def reattachLab : Label → ControlSession → List Event → Prop
  | .start, _, log => log = []
  | .closing, _, _ => True
  | _, s, log => Resting Whatever s log

theorem reattach_body {clients : Clients} (h : reattachLab l s (e.log j)) :
    logWp reattachAllowed reattachLab j l (body l)
      ((logProtocol reattachAllowed reattachLab).post (ftpProxy clients) j l) s e := by
  have hbetween : Between (Resting Whatever) reattachLab := ⟨fun _ _ => trivial, rfl, rfl⟩
  refine hbetween.body (fun s e h => ?_) (fun s e h => rests_readAndServe h) h
  have hfresh : Resting Effectless s (e.log j) := by
    rw [Resting, show e.log j = [] from h]
    exact ⟨nofun, ⟨rfl, .inl rfl⟩, nofun⟩
  exact rests_of_speaks ((resting_composes Effectless).send effectless_talks _) hfresh

end

end Session

theorem reattach_verified (clients : Clients) :
    (Session.logProtocol Session.reattachAllowed Session.reattachLab).Verified (ftpProxy clients) :=
  Session.log_verified (fun _ _ _ _ h => Session.reattach_body h) (fun _ _ => rfl)

def Reaches (c : FtpConfig) (j : Nat) (command : String) (v : Ledger) : Prop :=
  ∃ argument line relay earlier,
    (.asked (.forward command argument line) relay :: earlier) <:+ c.env.log j ∧ v = ledger earlier

theorem effects_carried {clients : Clients} {q : SessionQueue} {pool : DataPortPool} {c : FtpConfig}
    (hrun : (ftpProxy clients).Runs (fun _ _ _ => True) (startup q pool) c) {j : Nat} {command : String}
    {v : Ledger} (hreaches : Reaches c j command v) (hserved : ¬ v.printer.refuses command) :
    v.printer.Carries v.client command ↔ (command ∈ transferCommands → v.held.Carries v.client command) := by
  obtain ⟨argument, line, relay, earlier, hlog, rfl⟩ := hreaches
  have hsynced : Synced (ledger earlier) :=
    Session.log_runs (reattach_verified clients) hrun j _ relay earlier hlog
  exact hsynced.carries hserved

-- A client that resumes an upload: the offset first, then the passive port, then the upload.
def restarts : List FtpAct :=
  logsIn 0 ++ sends 0 "REST 100\r\n" ++ reachesPrinter 0 0 ++ answers 0 "350 from 100\r\n" ++ [.run 0]

def releases : List FtpAct :=
  [.run 0, .tick (.elapse 40), .resume 0 (.readline 30) (.error .timeout),
    .resume 0 .upstreamClosed (.ok ())]

def offersPort : List FtpAct :=
  [.tick (.arrive 0 (line "PASV\r\n")), .run 0, .resume 0 (.startServer 50000) (.ok ()), .run 0,
    .tick (.supervise 0 false)]

def uploads (connects : List FtpAct) : List FtpAct :=
  sends 0 "STOR model.3mf\r\n" ++ connects ++ answers 0 "227 Entering Passive Mode (192,168,1,5,195,80)\r\n"

def lastReached (c : FtpConfig) : Option (String × Ledger) :=
  match c.env.log 0 with
  | .asked (.forward command _ _) _ :: earlier => some (command, ledger earlier)
  | _ => none

theorem lastReached_reaches {c : FtpConfig} {command : String} {v : Ledger}
    (h : lastReached c = some (command, v)) : Reaches c 0 command v := by
  unfold lastReached at h
  split at h
  · next argument line relay earlier hlog =>
      cases h
      exact ⟨argument, line, relay, earlier, hlog ▸ List.suffix_refl _, rfl⟩
  · cases h

def effectsReached (c : FtpConfig) : Option (String × Effects × Effects × Effects) :=
  (lastReached c).map fun p => (p.1, p.2.printer, p.2.held, p.2.client)

theorem effectsReached_reaches {c : FtpConfig} {command : String} {printer held client : Effects}
    (h : effectsReached c = some (command, printer, held, client)) :
    ∃ v, Reaches c 0 command v ∧ v.printer = printer ∧ v.held = held ∧ v.client = client := by
  obtain ⟨⟨name, v⟩, hlast, hv⟩ := Option.map_eq_some_iff.mp h
  cases hv
  exact ⟨v, lastReached_reaches hlast, rfl, rfl, rfl⟩

def resumed : Effects := { Effects.initial with restart := "100" }

-- The printer is released between REST and STOR.
theorem restart_dropped : ¬ ∀ c, (ftpProxy lan).Runs (fun _ _ _ => True) (startup oneSlot onePort) c →
    ∀ j command v, Reaches c j command v → ¬ v.printer.refuses command →
      v.printer.Carries v.client command := by
  intro h
  have hend : ((ftpProxy lan).runActs (startup oneSlot onePort)
      (restarts ++ releases ++ offersPort ++ uploads (reachesPrinter 0 1))).map effectsReached =
        some (some ("STOR", .initial, .initial, resumed)) := by
    decide +kernel
  obtain ⟨c, hc, hlast⟩ := Option.map_eq_some_iff.mp hend
  obtain ⟨v, hreaches, hprinter, _, hclient⟩ := effectsReached_reaches hlast
  have hcarries := h c ((ftpProxy lan).runActs_runs _ hc) 0 "STOR" v hreaches (fun hr => nomatch hr.1)
  have hrestart := hcarries.restart (by decide)
  rw [hprinter, hclient] at hrestart
  revert hrestart
  decide

theorem effects_carried_resume : ∃ c v, (ftpProxy lan).runActs (startup oneSlot onePort)
    (restarts ++ offersPort ++ uploads []) = some c ∧ Reaches c 0 "STOR" v ∧
      v.client.restart = "100" ∧ v.printer.Carries v.client "STOR" := by
  have hend : ((ftpProxy lan).runActs (startup oneSlot onePort)
      (restarts ++ offersPort ++ uploads [])).map effectsReached =
        some (some ("STOR", resumed, resumed, resumed)) := by
    decide +kernel
  obtain ⟨c, hc, hlast⟩ := Option.map_eq_some_iff.mp hend
  obtain ⟨v, hreaches, _, hheld, hclient⟩ := effectsReached_reaches hlast
  refine ⟨c, v, hc, hreaches, by rw [hclient]; rfl, ?_⟩
  refine (effects_carried ((ftpProxy lan).runActs_runs _ hc) hreaches (fun hr => nomatch hr.1)).mpr (fun _ => ?_)
  rw [hheld, hclient]
  exact ⟨fun _ => rfl, fun _ => rfl, fun _ => rfl, fun _ _ => rfl, fun _ _ ha => ha⟩

end PandaProxy.FtpProxy
