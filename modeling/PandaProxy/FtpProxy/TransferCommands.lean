import PandaProxy.FtpProxy.DataChannels
import PandaProxy.FtpProxy.DataPorts

namespace PandaProxy.FtpProxy

open Async FtpQueue Python

namespace Session

open Proxy

-- What a session has to see to before a call. Most calls may note something down, which is in order
-- once the client knows of an expired relay.
def channelGuar (printerIp : String) (j : Nat) : Op → ControlSession → Proxy → Prop
  | .writeUpstream request, _, e => Orderly printerIp (.asked request (e.view j)) (e.log j)
  | .writeClient line, _, e => Orderly printerIp (.told line) (e.log j)
  | .closeUpstream, _, _ => True
  | i, _, e => OwnsNamed e j i ∧ ((∃ v, emits i v) → ¬ Owing (e.log j))

def Possesses (j : Nat) (s : ControlSession) (e : Proxy) : Prop :=
  ∀ d, s.data = some d → e.Owns j d.relay

structure Attached (printerIp : String) (j : Nat) (s : ControlSession) (e : Proxy) : Prop where
  printer : s.printerIp = printerIp
  settled : ¬ Owing (e.log j)
  owns : Possesses j s e
  link : ∀ d, s.data = some d → (e.links j).relay = some d.relay
  tended : ∀ d, s.data = some d → (e.relays d.relay).Tended
  begun : ∀ d, s.data = some d → (e.relays d.relay).phase.begun = true

def channelProtocol (printerIp : String) :
    Protocol Nat Label ControlSession Proxy Op Op.Answer Exc Tick where
  inv e := Linked e ∧ ∀ j v earlier, (v :: earlier) <:+ e.log j → Orderly printerIp v earlier
  seen e := ∀ j phase, .examined phase ∈ e.log j → phase.tearingDown = false
  rely := ChannelRely
  admits _ _ _ := True
  allows := uncancelling
  guar := channelGuar printerIp
  idle j e := e.log j = []
  lab j
    | .closing => Possesses j
    | _ => Attached printerIp j
  fin _ _ _ := True

abbrev channelWp (printerIp : String) (j : Nat) (l : Label) {α : Type} (c : Session α)
    (Q : Except Exc α → ControlSession → Proxy → Prop) (s : ControlSession) (e : Proxy) : Prop :=
  wp (world j) ((channelProtocol printerIp).contract j l) c Q s e

abbrev Channels (printerIp : String) (j : Nat) (l : Label) (I J : ControlSession → Proxy → Prop)
    {α : Type} (c : Session α) : Prop :=
  Keeps (world j) ((channelProtocol printerIp).contract j l) I J c

structure Relayless (f : ControlSession → ControlSession) : Prop where
  printerIp : ∀ s, (f s).printerIp = s.printerIp
  data : ∀ s, (f s).data = s.data

theorem relayless_of_quiet {f : ControlSession → ControlSession} (h : Quiet f) : Relayless f :=
  ⟨h.printerIp, h.data⟩

structure Steady (j : Nat) (I : ControlSession → Proxy → Prop) : Prop where
  rely : ∀ {s e e'}, I s e → ChannelRely j e e' → I s e'
  frame : ∀ {s e e'}, I s e → SameRelays e e' →
    (e'.log j = e.log j ∨ ∃ v, (∀ phase, v ≠ .examined phase) ∧ e'.log j = v :: e.log j) → I s e'
  modify : ∀ {f : ControlSession → ControlSession} {s e}, Relayless f → I s e → I (f s) e

theorem possesses_steady (j : Nat) : Steady j (Possesses j) where
  rely h hr d hd := hr.owns (h d hd)
  frame h hs _ d hd := by
    obtain ⟨hn, ho⟩ := h d hd
    exact ⟨hs.reserved ▸ hn, hs.relays ▸ ho⟩
  modify hf h d hd := h d (hf.data _ ▸ hd)

theorem attached_steady (printerIp : String) (j : Nat) : Steady j (Attached printerIp j) where
  rely h hr := by
    have hon : ∀ d, _ → Relay.Onwards _ _ := fun d hd =>
      hr.onwards d.relay (h.owns d hd).1 (h.owns d hd).2 (h.tended d hd)
    exact ⟨h.printer, hr.log ▸ h.settled, (possesses_steady j).rely h.owns hr,
      fun d hd => hr.relay.trans (h.link d hd), fun d hd => (hon d hd).tended,
      fun d hd => (hon d hd).begun (h.begun d hd)⟩
  frame h hs hlog := by
    refine ⟨h.printer, ?_, (possesses_steady j).frame h.owns hs hlog,
      fun d hd => (hs.relay j).trans (h.link d hd), fun d hd => hs.relays ▸ h.tended d hd,
      fun d hd => hs.relays ▸ h.begun d hd⟩
    rcases hlog with hlog | ⟨v, hv, hlog⟩
    · rw [hlog]
      exact h.settled
    · rw [hlog]
      exact not_owing_cons hv _
  modify hf h := ⟨(hf.printerIp _).trans h.printer, h.settled, (possesses_steady j).modify hf h.owns,
    fun d hd => h.link d (hf.data _ ▸ hd), fun d hd => h.tended d (hf.data _ ▸ hd),
    fun d hd => h.begun d (hf.data _ ▸ hd)⟩

theorem note_log (e : Proxy) (j : Nat) (v : Event) : (e.note j v).log j = v :: e.log j := by
  simp [log, Proxy.note, setLink]

theorem Steady.note {j : Nat} {I : ControlSession → Proxy → Prop} (hI : Steady j I) {s : ControlSession}
    {e : Proxy} (h : I s e) {v : Event} (hv : ∀ phase, v ≠ .examined phase) : I s (e.note j v) :=
  hI.frame h (.note e j v) (.inr ⟨v, hv, note_log e j v⟩)

structure ChannelPlain (i : Op) : Prop where
  relay : relayOp i = false
  task : ∀ n, i ≠ .taskDone n
  transfer : ∀ command argument line, i = .writeUpstream (.forward command argument line) →
    command ∉ transferCommands

theorem ChannelPlain.emits {i : Op} (h : ChannelPlain i) {v : Event} (hv : emits i v) :
    ∀ phase, v ≠ .examined phase := by
  rintro phase rfl
  cases i with
  | taskDone n => exact h.task n rfl
  | _ => simp [Proxy.emits] at hv

theorem ChannelPlain.guar {printerIp : String} {j : Nat} {i : Op} (h : ChannelPlain i)
    {s : ControlSession} {e : Proxy} (hs : ¬ Owing (e.log j)) : channelGuar printerIp j i s e := by
  have hr := h.relay
  cases i with
  | writeUpstream request =>
      refine orderly_of_settled hs ?_
      intro command argument line relay he
      cases he
      exact h.transfer command argument line rfl
  | writeClient line =>
      refine orderly_of_settled hs ?_
      intro command argument line relay he
      cases he
  | closeUpstream => trivial
  | setCommandSeen n => simp [relayOp] at hr
  | setEndpoint n host port => simp [relayOp] at hr
  | cancelHandlers n => simp [relayOp] at hr
  | cancelTask n => simp [relayOp] at hr
  | _ => exact ⟨trivial, fun _ => hs⟩

section

variable {printerIp : String} {j : Nat} {l : Label} {I J : ControlSession → Proxy → Prop}

theorem Logs.cases {i : Op} (hi : ChannelPlain i) {e e' : Proxy} (hl : Logs j i e e') :
    e'.log j = e.log j ∨ ∃ v, (∀ phase, v ≠ .examined phase) ∧ e'.log j = v :: e.log j := by
  rcases hl.own with h | ⟨v, hv, h⟩
  · exact .inl h
  · exact .inr ⟨v, hi.emits hv, h⟩

theorem channel_ask (hI : Steady j I) {i : Op} (hi : ChannelPlain i)
    (hg : ∀ s e, I s e → channelGuar printerIp j i s e) : Channels printerIp j l I I (ask i) := by
  refine Keeps.perform hg ?_ (fun s e e' h hr => hI.rely h hr) ?_
  · exact fun s e r e' h he _ => hI.frame h (sync_relays hi.relay he) (Logs.cases hi (sync_logs he))
  · intro s e r e' h _ _ he _
    exact hI.frame h (resume_relays hi.relay he) (Logs.cases hi (resume_logs he))

theorem channel_composes (hI : Steady j I) (hs : ∀ s e, I s e → ¬ Owing (e.log j))
    (hIJ : ∀ s e, I s e → J s e) :
    Composes ChannelPlain Relayless (Channels printerIp j l I J) where
  pure a := Keeps.pure a
  raise x := Keeps.raise hIJ x
  get := Keeps.get
  bind hc hf := Keeps.bind hc hf
  modify hf := Keeps.modify (fun _ _ h => hI.modify hf h)
  ask hi := Keeps.weaken hIJ (channel_ask hI hi (fun s e h => hi.guar (hs s e h)))
  attempt hi := Keeps.attempt (channel_ask hI hi (fun s e h => hi.guar (hs s e h)))

theorem channel_robust (hI : Steady j I) (hs : ∀ s e, I s e → ¬ Owing (e.log j)) :
    Robust ChannelPlain Relayless (Channels printerIp j l I I) where
  toComposes := channel_composes hI hs (fun _ _ h => h)
  attemptAll := Keeps.attempt

theorem Attached.dropped {s : ControlSession} {e e' : Proxy} (h : Attached printerIp j s e)
    (hlog : e'.log j = e.log j) :
    Attached printerIp j { s with data := none, passiveMode := none } e' :=
  ⟨h.printer, hlog ▸ h.settled, nofun, nofun, nofun, nofun⟩

theorem plain_of {i : Op} (hr : relayOp i = false) (ht : ∀ n, i ≠ .taskDone n)
    (hw : ∀ request, i ≠ .writeUpstream request) : ChannelPlain i :=
  ⟨hr, ht, fun _ _ _ he => absurd he (hw _)⟩

theorem plain_issue (command argument : String) :
    ChannelPlain (.writeUpstream (.issue command argument)) :=
  ⟨rfl, nofun, fun _ _ _ he => by cases he⟩

theorem plain_forward {command : String} (h : command ∉ transferCommands) (argument line : String) :
    ChannelPlain (.writeUpstream (.forward command argument line)) := by
  refine ⟨rfl, nofun, fun _ _ _ he => ?_⟩
  cases he
  exact h

theorem channel_asks : Asks ChannelPlain Relayless where
  monotonic := plain_of rfl nofun nofun
  issue command argument _ := plain_issue command argument
  drainUpstream := plain_of rfl nofun nofun
  readReply := plain_of rfl nofun nofun
  touch _ := ⟨fun _ => rfl, fun _ => rfl⟩

theorem channel_talks : Talks ChannelPlain Relayless := by
  refine ⟨⟨channel_asks, ?_, ?_, ?_⟩, ?_, ?_, ?_, ?_, ?_, ?_, ?_, ?_, ?_, ?_⟩ <;> intros <;>
    first | exact plain_of rfl nofun nofun | exact ⟨fun _ => rfl, fun _ => rfl⟩

theorem channel_closes : Closes ChannelPlain Relayless := by
  constructor <;>
    first | exact plain_of rfl nofun nofun | exact ⟨fun _ => rfl, fun _ => rfl⟩

theorem channel_queues : Queues ChannelPlain := by
  constructor <;> intros <;> exact plain_of rfl nofun nofun

theorem attached_robust : Robust ChannelPlain Relayless
    (Channels printerIp j l (Attached printerIp j) (Attached printerIp j)) :=
  channel_robust (attached_steady printerIp j) (fun _ _ h => h.settled)

theorem attached_composes : Composes ChannelPlain Relayless
    (Channels printerIp j l (Attached printerIp j) (Possesses j)) :=
  channel_composes (attached_steady printerIp j) (fun _ _ h => h.settled) (fun _ _ h => h.owns)

theorem attached_weaken {c : Session α}
    (h : Channels printerIp j l (Attached printerIp j) (Attached printerIp j) c) :
    Channels printerIp j l (Attached printerIp j) (Possesses j) c :=
  Keeps.weaken (fun _ _ h => h.owns) h

theorem attached_releaseUpstream :
    Channels printerIp j l (Attached printerIp j) (Attached printerIp j) releaseUpstream :=
  attached_robust.releaseUpstream channel_closes (⟨fun _ => rfl, fun _ => rfl⟩)

variable {s : ControlSession} {e : Proxy}

theorem guar_silent {i : Op} (ho : OwnsNamed e j i) (hi : ∀ v, ¬ emits i v) :
    channelGuar printerIp j i s e := by
  have hquiet : (∃ v, emits i v) → ¬ Owing (e.log j) := fun ⟨v, hv⟩ => absurd hv (hi v)
  cases i with
  | writeUpstream request => exact absurd ⟨none, rfl⟩ (hi (.asked request none))
  | writeClient line => exact absurd rfl (hi (.told line))
  | closeUpstream => trivial
  | _ => exact ⟨ho, hquiet⟩

theorem channelWp_sync {i : Op} {r : Except Exc i.Answer} {e' : Proxy} (h : sync j i e = some (r, e'))
    (ho : OwnsNamed e j i) (hi : ∀ v, ¬ emits i v)
    {Q : Except Exc i.Answer → ControlSession → Proxy → Prop} (hQ : Q r s e') :
    channelWp printerIp j l (ask i) Q s e :=
  wp_sync h (guar_silent ho hi) (fun _ => hQ)

theorem channelWp_still (hI : Steady j I) {i : Op} (hr : relayOp i = false) (hi : ∀ v, ¬ emits i v)
    (h : I s e) {Q : Except Exc i.Answer → ControlSession → Proxy → Prop}
    (hQ : ∀ r e', I s e' → e'.log j = e.log j → Q r s e') : channelWp printerIp j l (ask i) Q s e := by
  have hsame : ∀ {e e' : Proxy}, Logs j i e e' → e'.log j = e.log j := by
    intro e e' hl
    rcases hl.own with h | ⟨v, hv, _⟩
    · exact h
    · exact absurd hv (hi v)
  have hkeep : ∀ {e e' : Proxy}, I s e → SameRelays e e' → Logs j i e e' → I s e' :=
    fun h hs hl => hI.frame h hs (.inl (hsame hl))
  refine wp_perform ?_ (fun r e' he _ => ?_) ?_
  · refine guar_silent ?_ hi
    cases i with
    | setCommandSeen n => cases hr
    | setEndpoint n host port => cases hr
    | cancelHandlers n => cases hr
    | cancelTask n => cases hr
    | _ => trivial
  · exact hQ r e' (hkeep h (sync_relays hr he) (sync_logs he)) (hsame (sync_logs he))
  · intro _ e₁ h₁ _ _ r e₂ _ hres _
    have hlog : e₁.log j = e.log j :=
      stable_star (X := fun e' : Proxy => e'.log j = e.log j) (fun _ _ hX hr => hr.log.trans hX) h₁ rfl
    have h' : I s e₁ := stable_star (X := I s) (fun _ _ hX hr => hI.rely hX hr) h₁ h
    exact hQ r e₂ (hkeep h' (resume_relays hr hres) (resume_logs hres)) ((hsame (resume_logs hres)).trans hlog)

theorem channelWp_silent {i : Op} (hr : relayOp i = false) (hi : ∀ v, ¬ emits i v)
    {Q : Except Exc i.Answer → ControlSession → Proxy → Prop}
    (hQ : ∀ r e', e'.log j = e.log j → (∀ n, e.Owns j n → e'.Owns j n) → Q r s e') :
    channelWp printerIp j l (ask i) Q s e := by
  refine channelWp_still (I := fun _ e' => ∀ n, e.Owns j n → e'.Owns j n) ?_ hr hi (fun _ hn => hn)
    (fun r e' ho hlog => hQ r e' hlog ho)
  exact {
    rely := fun h hr n hn => hr.owns (h n hn)
    frame := fun h hs _ n hn => ⟨hs.reserved ▸ (h n hn).1, hs.relays ▸ (h n hn).2⟩
    modify := fun _ h => h }

theorem channelWp_readReply (hI : Steady j I) (hs : ¬ Owing (e.log j)) (h : I s e)
    {Q : Except Exc (Option String) → ControlSession → Proxy → Prop}
    (hQ : ∀ reply e₁, I s e₁ → e₁.log j = e.log j → (channelProtocol printerIp).seen e₁ →
      Q (.ok reply) s (e₁.note j (.answered reply)))
    (hx : ∀ x e₁, I s e₁ → Q (.error x) s e₁) : channelWp printerIp j l (ask .readReply) Q s e := by
  refine wp_perform ⟨trivial, fun _ => hs⟩ (fun r e' he _ => by cases he) ?_
  intro _ e₁ h₁ _ hseen r e₂ _ hr _
  have hlog : e₁.log j = e.log j :=
    stable_star (X := fun e' : Proxy => e'.log j = e.log j) (fun _ _ hX hr => hr.log.trans hX) h₁ rfl
  have h' : I s e₁ := stable_star (X := I s) (fun _ _ hX hr => hI.rely hX hr) h₁ h
  cases r with
  | ok reply =>
      cases hr
      exact hQ reply e₁ h' hlog hseen
  | error x =>
      cases hr
      exact hx x e₁ h'

theorem setRelay_owns (x : Relay) {m : Nat} (hx : x.owner = (e.relays m).owner) (n : Nat)
    (hn : e.Owns j n) : (e.setRelay m x).Owns j n := by
  refine ⟨hn.1, ?_⟩
  by_cases hm : n = m
  · subst hm
    simpa [setRelay] using hx.trans hn.2
  · simpa [setRelay, hm] using hn.2

theorem channelWp_cancelTask {n : Nat} (hn : e.Owns j n) {Q : Except Exc Unit → ControlSession → Proxy → Prop}
    (hQ : ∀ r e', e'.log j = e.log j → Q r s e') :
    channelWp printerIp j l (ask (.cancelTask n) >>= fun _ =>
      Coro.suppress (fun x => x == .cancelled || x == .timeout) (ask (.awaitTask n))) Q s e := by
  refine wp_bind _ _ s e (channelWp_sync (i := .cancelTask n) rfl hn (fun _ hv => hv) ?_)
  refine wp_suppress _ _ (channelWp_silent (i := .awaitTask n) rfl (fun _ hv => hv) (fun r e' hlog _ => ?_))
  cases r with
  | ok _ => exact hQ _ e' hlog
  | error x =>
      dsimp only
      split
      · exact hQ _ e' hlog
      · exact hQ _ e' hlog

theorem cancelDataRelay_drops (h : Possesses j s e) :
    channelWp printerIp j l cancelDataRelay (fun _ s' e' =>
      s' = { s with data := none, passiveMode := none } ∧ e'.log j = e.log j) s e := by
  refine wp_bind _ _ s e (wp_get.mpr ?_)
  refine wp_bind _ _ s e (wp_modify _ |>.mpr ?_)
  dsimp only
  cases hd : s.data with
  | none => exact ⟨rfl, rfl⟩
  | some d =>
      have hn := h d hd
      refine wp_bind _ _ _ e (channelWp_sync (i := .cancelHandlers d.relay) rfl hn (fun _ hv => hv) ?_)
      have hn' : (e.setRelay d.relay (e.relays d.relay).cancelHandler).Owns j d.relay :=
        setRelay_owns _ (Relay.cancelHandler_fields _).1 _ hn
      dsimp only
      split
      · refine wp_bind _ _ _ _ (channelWp_silent (i := .gatherHandlers d.relay) rfl (fun _ hv => hv) ?_)
        intro r e₁ hlog howns
        cases r with
        | error x => exact ⟨rfl, hlog⟩
        | ok _ => exact channelWp_cancelTask (howns _ hn') (fun r e' h' => ⟨rfl, h'.trans hlog⟩)
      · exact channelWp_cancelTask hn' (fun r e' h' => ⟨rfl, h'⟩)

theorem attached_cancelDataRelay :
    Channels printerIp j l (Attached printerIp j) (Possesses j) cancelDataRelay := by
  intro s e h
  refine wp_mono _ ?_ s e (cancelDataRelay_drops h.owns)
  rintro r s' e' ⟨rfl, hlog⟩
  cases r with
  | ok _ => exact h.dropped hlog
  | error _ => exact (h.dropped hlog).owns

structure Opening (printerIp : String) (j n : Nat) (s : ControlSession) (e : Proxy) : Prop where
  attached : Attached printerIp j s e
  free : s.data = none
  owns : e.Owns j n
  link : (e.links j).relay = some n
  tended : (e.relays n).Tended
  binding : (e.relays n).phase = .binding

theorem Opening.rely {n : Nat} {e' : Proxy} (h : Opening printerIp j n s e) (hr : ChannelRely j e e') :
    Opening printerIp j n s e' := by
  have hon := hr.onwards n h.owns.1 h.owns.2 h.tended
  exact ⟨(attached_steady printerIp j).rely h.attached hr, h.free, hr.owns h.owns,
    hr.relay.trans h.link, hon.tended, hon.binding h.binding⟩

theorem Attached.of_free {e' : Proxy} (h : Attached printerIp j s e) (hd : s.data = none)
    (hlog : e'.log j = e.log j) : Attached printerIp j s e' := by
  refine ⟨h.printer, hlog ▸ h.settled, ?_, ?_, ?_, ?_⟩
  all_goals
    intro d hsome
    rw [hd] at hsome
    cases hsome

theorem opening_of_reserves {port : Int} {free : List Int} {e' : Proxy} (hr : Reserves j port free e e')
    (h : Attached printerIp j s e) (hd : s.data = none) (hlog : e'.log j = e.log j) :
    Opening printerIp j e.reserved s e' := by
  refine ⟨h.of_free hd hlog, hd, ⟨?_, ?_⟩, hr.link, ?_, ?_⟩
  · rw [hr.reserved]
    exact Nat.lt_succ_self _
  · rw [hr.fresh]
    rfl
  · rw [hr.fresh]
    exact ⟨rfl, fun _ => nofun, nofun, by simp [Relay.reserve]⟩
  · rw [hr.fresh]
    rfl

theorem attached_modify_install {n : Nat} {port : Int} (h : Opening printerIp j n s e) :
    Attached printerIp j { s with data := some ⟨n, port⟩ }
      (e.setRelay n { e.relays n with phase := .created }) := by
  have hx : (e.setRelay n { e.relays n with phase := .created }).relays n =
      { e.relays n with phase := .created } := by simp [setRelay]
  refine ⟨h.attached.printer, h.attached.settled, ?_, ?_, ?_, ?_⟩
  all_goals
    intro d hd
    cases hd
  · exact setRelay_owns { e.relays n with phase := .created } (m := n) rfl n h.owns
  · exact h.link
  · rw [hx]
    exact ⟨h.tended.uncancelled, h.tended.parked, h.tended.endpoint, by simp⟩
  · rw [hx]
    rfl

theorem opening_startServer {n : Nat} {port : Int} (h : Opening printerIp j n s e)
    {Q : Except Exc Unit → ControlSession → Proxy → Prop}
    (hQ : ∀ r e', Opening printerIp j n s e' → Q r s e') :
    channelWp printerIp j l (ask (.startServer port)) Q s e := by
  have hguar : channelGuar printerIp j (.startServer port) s e := guar_silent trivial (fun _ hv => hv)
  refine wp_perform hguar (fun r e' he _ => by cases he) ?_
  intro _ e₁ h₁ _ _ r e₂ _ hr _
  have hb : Opening printerIp j n s e₁ :=
    stable_star (X := Opening printerIp j n s) (fun _ _ h hr => h.rely hr) h₁ h
  cases r with
  | error x =>
      cases hr
      exact hQ _ e₁ hb
  | ok _ =>
      simp only [resume, hb.link, Option.map_some, Option.some.injEq] at hr
      subst hr
      have hx : (e₁.setRelay n { e₁.relays n with listening := true }).relays n =
          { e₁.relays n with listening := true } := by simp [setRelay]
      have howns := setRelay_owns { e₁.relays n with listening := true } (m := n) rfl n hb.owns
      refine hQ _ _ ⟨hb.attached.of_free hb.free rfl, hb.free, howns, hb.link, ?_, ?_⟩
      · rw [hx]
        exact ⟨hb.tended.uncancelled, hb.tended.parked, hb.tended.endpoint, hb.tended.late⟩
      · rw [hx]
        exact hb.binding

theorem attached_openPassiveRelay :
    Channels printerIp j l (Attached printerIp j) (Possesses j) openPassiveRelay := by
  intro s e h
  refine wp_bind _ _ s e (wp_mono _ ?_ s e (cancelDataRelay_drops h.owns))
  rintro r s₁ e₁ ⟨rfl, hlog⟩
  have h₁ := h.dropped hlog
  generalize hs : { s with data := none, passiveMode := none } = s₁ at h₁
  have hfree : s₁.data = none := by rw [← hs]
  cases r with
  | error x => exact h₁.owns
  | ok _ =>
      refine wp_bind _ _ s₁ e₁ (channelWp_silent (i := .setMoved 0) rfl (fun _ hv => hv) ?_)
      intro r e₂ hlog₂ _
      have h₂ := h₁.of_free hfree hlog₂
      cases r with
      | error x => exact h₂.owns
      | ok _ =>
          refine wp_bind _ _ s₁ e₂ (channelWp_sync (i := .acquirePort) rfl trivial (fun _ hv => hv) ?_)
          rcases reserve_cases e₂ j with he | ⟨port, free, e₃, he, hres⟩
          · rw [he]
            exact h₂
          · have hsame : e₃.log j = e₂.log j := by
              have := SameLogs.reserve e₂ j j
              rwa [he] at this
            rw [he]
            have hb := opening_of_reserves hres h₂ hfree hsame
            refine wp_bind _ _ s₁ e₃ (wp_attempt _ s₁ e₃ (opening_startServer hb ?_))
            intro r e₄ hb
            cases r with
            | error x =>
                dsimp only
                split
                · refine wp_bind _ _ s₁ e₄
                    (channelWp_sync (i := .releasePort port) rfl trivial (fun _ hv => hv) ?_)
                  exact hb.attached.of_free hb.free (SameLogs.unbind e₄ j port j)
                · exact hb.attached.owns
            | ok _ =>
                have hcreate : sync j (.createSupervisor port) e₄ = some (.ok e₂.reserved,
                    e₄.setRelay e₂.reserved { e₄.relays e₂.reserved with phase := .created }) := by
                  simp only [sync, hb.link]
                refine wp_bind _ _ s₁ e₄ (channelWp_sync hcreate trivial (fun _ hv => hv) ?_)
                exact attached_modify_install hb

theorem attached_replay (hI : Steady j I) (hs : ∀ s e, I s e → ¬ Owing (e.log j)) (priority : Int) :
    Channels printerIp j l I I (ensureUpstream priority) := by
  have h := @channel_robust printerIp j l I hI hs
  refine h.ensureUpstream channel_queues channel_asks (plain_of rfl nofun nofun)
    ⟨fun _ => rfl, fun _ => rfl⟩ ⟨fun _ => rfl, fun _ => rfl⟩
    (h.releaseUpstream channel_closes ⟨fun _ => rfl, fun _ => rfl⟩) ?_ priority
  exact h.toComposes.replayState channel_asks (fun command argument _ => plain_issue command argument)
    (fun name => relayless_of_quiet (quiet_forget name))

structure Committed (printerIp : String) (j : Nat) (d : DataRelay) (s : ControlSession) (e : Proxy) :
    Prop extends Attached printerIp j s e where
  data : s.data = some d
  seen : (e.relays d.relay).commandSeen = true
  pending : (e.relays d.relay).endpoint = .pending

theorem committed_steady (d : DataRelay) : Steady j (Committed printerIp j d) where
  rely h hr := by
    obtain ⟨hn, ho⟩ := h.owns d h.data
    have hon := hr.onwards d.relay hn ho (h.tended d h.data)
    exact ⟨(attached_steady printerIp j).rely h.toAttached hr, h.data, hon.commandSeen.trans h.seen,
      hon.endpoint.trans h.pending⟩
  frame h hs hlog := ⟨(attached_steady printerIp j).frame h.toAttached hs hlog, h.data,
    hs.relays ▸ h.seen, hs.relays ▸ h.pending⟩
  modify hf h := ⟨(attached_steady printerIp j).modify hf h.toAttached, (hf.data _).trans h.data, h.seen,
    h.pending⟩

structure Preparing (printerIp : String) (j : Nat) (d : DataRelay) (s : ControlSession) (e : Proxy) :
    Prop extends Committed printerIp j d s e where
  waits : (e.relays d.relay).phase.waiting = true ∨
    ∃ phase, .examined phase ∈ e.log j ∧ phase.tearingDown = true

theorem preparing_steady (d : DataRelay) : Steady j (Preparing printerIp j d) where
  rely h hr := by
    obtain ⟨hn, ho⟩ := h.owns d h.data
    have hon := hr.onwards d.relay hn ho (h.tended d h.data)
    refine ⟨(committed_steady d).rely h.toCommitted hr, h.waits.imp (hon.waiting h.seen h.pending) ?_⟩
    rw [hr.log]
    exact id
  frame h hs hlog := by
    refine ⟨(committed_steady d).frame h.toCommitted hs hlog, ?_⟩
    rw [hs.relays]
    refine h.waits.imp_right (fun ⟨phase, hm, ht⟩ => ⟨phase, ?_, ht⟩)
    rcases hlog with hlog | ⟨v, _, hlog⟩
    · exact hlog ▸ hm
    · rw [hlog]
      exact List.mem_cons_of_mem _ hm
  modify hf h := ⟨(committed_steady d).modify hf h.toCommitted, h.waits⟩

theorem sendUpstream_offer {d : DataRelay} {command : String} (h : Preparing printerIp j d s e) :
    channelWp printerIp j l (sendUpstream (.issue command "")) (fun r s' e' =>
      match r with
      | .ok none => Attached printerIp j s' e'
      | .ok (some reply) => Preparing printerIp j d s' e' ∧
          (e'.relays d.relay).phase.waiting = true ∧
          (offers (e'.log j)).fresh = Offers.heard (some reply) (.issue command "")
      | .error _ => Possesses j s' e') s e := by
  have hsteady := @preparing_steady printerIp j d
  refine wp_bind _ _ s e (wp_get.mpr ?_)
  dsimp only
  split
  · next hu =>
      refine wp_bind _ _ s e (channelWp_sync (i := .monotonic) rfl trivial (fun _ hv => hv) ?_)
      refine wp_bind _ _ s e (wp_modify _ |>.mpr ?_)
      have h₁ := hsteady.modify (f := fun s => { s with upstreamLastUsed := e.now })
        ⟨fun _ => rfl, fun _ => rfl⟩ h
      have hguar : channelGuar printerIp j (.writeUpstream (.issue command ""))
        { s with upstreamLastUsed := e.now } e := (plain_issue command "").guar h.settled
      refine wp_bind _ _ _ e (wp_sync rfl hguar (fun _ => ?_))
      have h₂ := hsteady.note h₁ (v := .asked (.issue command "") (e.view j)) (fun _ he => by cases he)
      have hasked := note_log e j (.asked (.issue command "") (e.view j))
      generalize e.note j (.asked (.issue command "") (e.view j)) = e₂ at h₂ hasked
      refine wp_bind _ _ _ e₂ (channelWp_still (i := .drainUpstream) hsteady rfl (fun _ hv => hv) h₂ ?_)
      intro r e₃ h₃ hlog₃
      cases r with
      | error x => exact h₃.owns
      | ok _ =>
          refine wp_bind _ _ _ e₃ (wp_get.mpr ?_)
          dsimp only
          rw [if_pos hu]
          refine channelWp_readReply hsteady h₃.settled h₃ (fun reply e₄ h₄ hlog₄ hseen => ?_)
            (fun x e₄ h₄ => h₄.owns)
          have h₅ := hsteady.note h₄ (v := .answered reply) (fun _ he => by cases he)
          cases reply with
          | none => exact h₅.toAttached
          | some reply =>
              refine ⟨h₅, ?_, ?_⟩
              · rcases h₄.waits with hw | ⟨phase, hm, ht⟩
                · exact hw
                · rw [hseen j phase hm] at ht
                  cases ht
              · rw [note_log, hlog₄, hlog₃, hasked]
                rfl
  · exact h.toAttached

theorem askPassive_offer {d : DataRelay} :
    ∀ (commands : List String) {s : ControlSession} {e : Proxy}, (∀ command ∈ commands, command ∈ ["PASV", "EPSV"]) →
      Preparing printerIp j d s e →
      channelWp printerIp j l (askPassive commands) (fun r s' e' =>
        match r with
        | .ok (.port port) => Committed printerIp j d s' e' ∧ (e'.relays d.relay).phase.waiting = true ∧
            (offers (e'.log j)).fresh = some port
        | .ok _ => Attached printerIp j s' e'
        | .error _ => Possesses j s' e') s e := by
  intro commands
  induction commands with
  | nil => exact fun _ h => h.toAttached
  | cons command rest ih =>
      intro s e hc h
      refine wp_bind _ _ s e (wp_mono _ ?_ s e (sendUpstream_offer h))
      intro r s' e' h'
      have hrest := fun h => ih (s := s') (e := e') (fun c hm => hc c (List.mem_cons_of_mem _ hm)) h
      cases r with
      | error x => exact h'
      | ok reply =>
          cases reply with
          | none => exact h'
          | some reply =>
              obtain ⟨h', hwaits, hfresh⟩ := h'
              dsimp only
              split
              · next hexpected =>
                  simp only [Offers.heard, hc command List.mem_cons_self, hexpected, and_self, if_true] at hfresh
                  cases hport : offered command reply with
                  | some port => exact ⟨h'.toCommitted, hwaits, hfresh.trans hport⟩
                  | none => exact hrest h'
              · exact hrest h'

def Handed (printerIp : String) (j : Nat) (s : ControlSession) (e : Proxy) : Prop :=
  Attached printerIp j s e ∧ ∃ x, e.view j = some x ∧ Prepared printerIp x (e.log j)

theorem send_expired (hp : s.printerIp = printerIp) (hd : s.data = none) :
    channelWp printerIp j l (send expired) (Ends (Attached printerIp j) (Possesses j)) s e := by
  have hguar : channelGuar printerIp j (.writeClient expired) s e :=
    ⟨(fun _ _ _ _ he _ => nomatch he), fun _ => .inl rfl⟩
  refine wp_bind _ _ s e (wp_sync rfl hguar (fun _ => ?_))
  have h : Attached printerIp j s (e.note j (.told expired)) := by
    refine ⟨hp, ?_, ?_, ?_, ?_, ?_⟩
    · rw [note_log]
      exact not_owing_cons (fun _ he => by cases he) _
    all_goals
      intro d hsome
      rw [hd] at hsome
      cases hsome
  exact attached_composes.ask (i := .drainClient) (plain_of rfl nofun nofun) s _ h

theorem refuse_expired (h : Attached printerIp j s e) (n : Nat) :
    channelWp printerIp j l (cancelDataRelay >>= fun _ => send expired >>= fun _ => pure false)
      (Ends (Attached printerIp j) (Possesses j)) s (e.note j (.examined (e.relays n).phase)) := by
  have hsame : Possesses j s (e.note j (.examined (e.relays n).phase)) := h.owns
  refine wp_bind _ _ s _ (wp_mono _ ?_ s _ (cancelDataRelay_drops hsame))
  rintro r s' e' ⟨rfl, hlog⟩
  cases r with
  | error x => exact nofun
  | ok _ =>
      refine wp_bind _ _ _ e' (wp_mono _ ?_ _ e' (send_expired h.printer rfl))
      intro r s'' e'' h''
      cases r with
      | ok _ => exact h''
      | error _ => exact h''

theorem phase_stage {p : Phase} (hb : p.begun = true) (hover : p ≠ .over) :
    p.waiting = true ∨ p.tearingDown = true := by
  cases p <;> simp_all [Phase.begun, Phase.waiting, Phase.tearingDown]

theorem Committed.examined {d : DataRelay} (h : Committed printerIp j d s e)
    (hover : (e.relays d.relay).phase ≠ .over) :
    Preparing printerIp j d s (e.note j (.examined (e.relays d.relay).phase)) := by
  have hs := SameRelays.note e j (.examined (e.relays d.relay).phase)
  refine ⟨⟨⟨h.printer, ?_, h.owns, fun d hd => (hs.relay j).trans (h.link d hd), h.tended, h.begun⟩, h.data,
    h.seen, h.pending⟩, ?_⟩
  · rintro ⟨earlier, he⟩
    rw [note_log] at he
    obtain ⟨hv, _⟩ := List.cons.inj he
    exact hover (Event.examined.inj hv)
  · rcases phase_stage (h.begun d h.data) hover with hw | ht
    · exact .inl hw
    · refine .inr ⟨_, ?_, ht⟩
      rw [note_log]
      exact List.mem_cons_self

theorem Committed.handed {d : DataRelay} {port : Int} (h : Committed printerIp j d s e)
    (hw : (e.relays d.relay).phase.waiting = true) (hf : (offers (e.log j)).fresh = some port) :
    Handed printerIp j s (e.setRelay d.relay
      { e.relays d.relay with endpoint := .result, target := some (printerIp, port) }) := by
  generalize hx : { e.relays d.relay with endpoint := .result, target := some (printerIp, port) } = x
  have hown : x.owner = (e.relays d.relay).owner := by rw [← hx]
  have hphase : x.phase = (e.relays d.relay).phase := by rw [← hx]
  have hself : (e.setRelay d.relay x).relays d.relay = x := by simp [setRelay]
  have hd : ∀ {d'}, s.data = some d' → d' = d := fun h' => Option.some.inj (h'.symm.trans h.data)
  have htended := h.tended d h.data
  refine ⟨⟨h.printer, h.settled, ?_, h.link, ?_, ?_⟩, x, ?_, ?_, ?_, port, ?_, hf⟩
  · exact fun d' hd' => setRelay_owns x hown _ (h.owns d' hd')
  · intro d' hd'
    rw [hd hd', hself, ← hx]
    exact ⟨htended.uncancelled, htended.parked, by rintro ⟨⟩, fun _ => rfl⟩
  · intro d' hd'
    rw [hd hd', hself, hphase]
    exact h.begun d h.data
  · show ((e.links j).relay).map (e.setRelay d.relay x).relays = some x
    rw [h.link d h.data, Option.map_some, hself]
  · rwa [hphase]
  · rw [← hx]
  · rw [← hx]

def Prepares (printerIp : String) (j : Nat) : Except Exc Bool → ControlSession → Proxy → Prop
  | .ok true => Handed printerIp j
  | .ok false => Attached printerIp j
  | .error _ => Possesses j

theorem prepares_refuse {c : Session Bool} (hc : Returns (fun b => b ≠ true) c)
    (h : channelWp printerIp j l c (Ends (Attached printerIp j) (Possesses j)) s e) :
    channelWp printerIp j l c (Prepares printerIp j) s e := by
  refine wp_mono _ ?_ s e (wp_returns c hc s e h)
  rintro r s' e' ⟨hr, h'⟩
  cases r with
  | error x => exact h'
  | ok prepared =>
      cases prepared with
      | true => exact absurd rfl (hr true rfl)
      | false => exact h'

theorem prepare_handed {d : DataRelay} (h : Committed printerIp j d s e) :
    channelWp printerIp j l prepareUpstreamData (Prepares printerIp j) s e := by
  have hc := @attached_composes printerIp j l
  refine wp_bind _ _ s e (wp_get.mpr ?_)
  simp only [h.data]
  refine wp_bind _ _ s e (channelWp_sync (i := .endpointDone d.relay) rfl trivial (fun _ hv => hv) ?_)
  have hpending : (e.relays d.relay).endpoint.done = false := by
    rw [h.pending]
    rfl
  simp only [hpending, Bool.false_eq_true, if_false]
  have hguar : channelGuar printerIp j (.taskDone d.relay) s e := ⟨trivial, fun _ => h.settled⟩
  refine wp_bind _ _ s e (wp_sync rfl hguar (fun _ => ?_))
  dsimp only
  split
  · refine prepares_refuse (returns_bind _ fun _ => returns_bind _ fun _ => nofun) ?_
    exact refuse_expired h.toAttached d.relay
  · next hover =>
      have h₁ := h.examined (fun he => hover (decide_eq_true he))
      refine wp_bind _ _ s _ (wp_mono _ ?_ s _ (askPassive_offer ["PASV", "EPSV"] (fun _ h => h) h₁))
      intro r s' e' h'
      cases r with
      | error x => exact h'
      | ok offer =>
          cases offer with
          | lost =>
              refine prepares_refuse (returns_bind _ fun _ => returns_bind _ fun _ => returns_bind _ fun _ => nofun) ?_
              exact hc.bind attached_cancelDataRelay (fun _ => hc.bind (hc.send channel_talks _) (fun _ =>
                hc.bind (attached_weaken attached_releaseUpstream) (fun _ => hc.pure _))) s' e' h'
          | refused =>
              refine prepares_refuse (returns_bind _ fun _ => returns_bind _ fun _ => nofun) ?_
              exact hc.bind attached_cancelDataRelay (fun _ => hc.bind (hc.send channel_talks _) (fun _ =>
                hc.pure _)) s' e' h'
          | port port =>
              obtain ⟨h', hw, hf⟩ := h'
              have hset : sync j (.setEndpoint d.relay s.printerIp port) e' = some (.ok (), e'.setRelay d.relay
                  { e'.relays d.relay with endpoint := .result, target := some (printerIp, port) }) := by
                simp [sync, h'.pending, Fut.done, h.printer]
              refine wp_bind _ _ s' e' (channelWp_sync hset (h'.owns d h'.data) (fun _ hv => hv) ?_)
              exact h'.handed hw hf

theorem handed_sendUpstream {command argument line : String} (h : Handed printerIp j s e) :
    channelWp printerIp j l (sendUpstream (.forward command argument line))
      (Ends (Attached printerIp j) (Possesses j)) s e := by
  have hc := @attached_composes printerIp j l
  have hsteady := attached_steady printerIp j
  obtain ⟨h, x, hview, hx⟩ := h
  refine wp_bind _ _ s e (wp_get.mpr ?_)
  dsimp only
  split
  · refine wp_bind _ _ s e (channelWp_sync (i := .monotonic) rfl trivial (fun _ hv => hv) ?_)
    refine wp_bind _ _ s e (wp_modify _ |>.mpr ?_)
    have hguar : channelGuar printerIp j (.writeUpstream (.forward command argument line))
        { s with upstreamLastUsed := e.now } e := by
      refine ⟨fun _ _ _ relay he _ => ?_, fun ho => absurd ho h.settled⟩
      cases he
      exact ⟨x, hview, hx⟩
    refine wp_bind _ _ _ e (wp_sync rfl hguar (fun _ => ?_))
    have h₁ := hsteady.modify (f := fun s => { s with upstreamLastUsed := e.now })
      ⟨fun _ => rfl, fun _ => rfl⟩ h
    have h₂ := hsteady.note h₁ (v := .asked (.forward command argument line) (e.view j)) (fun _ he => by cases he)
    exact hc.bind (hc.ask (i := .drainUpstream) (plain_of rfl nofun nofun)) (fun _ => hc.readUpstreamReply channel_asks) _ _ h₂
  · exact h

theorem attached_answerClient {command argument : String} (reply : Option String) :
    Channels printerIp j l (Attached printerIp j) (Possesses j) (answerClient command argument reply) :=
  attached_composes.answerClient attached_cancelDataRelay
    (attached_weaken attached_releaseUpstream) channel_talks
    (fun reply => relayless_of_quiet (quiet_recordReply command argument reply)) reply

theorem committed_connectAndForward {d : DataRelay} {command argument line : String}
    (hc : command ∈ transferCommands) (h : Committed printerIp j d s e) :
    channelWp printerIp j l (connectAndForward command argument line)
      (Ends (Attached printerIp j) (Possesses j)) s e := by
  have hcomp := @attached_composes printerIp j l
  have hensure := @attached_replay printerIp j l _ (committed_steady d)
    (fun _ _ h => h.settled) (priorityOf command) s e h
  refine wp_bind _ _ s e (wp_mono _ ?_ s e hensure)
  intro r s₁ e₁ h₁
  cases r with
  | error x => exact Attached.owns (Committed.toAttached h₁)
  | ok connected =>
      dsimp only
      split
      · exact hcomp.bind attached_cancelDataRelay (fun _ => hcomp.send channel_talks _) s₁ e₁
          (Committed.toAttached h₁)
      · refine wp_bind _ _ s₁ e₁ (wp_mono _ ?_ s₁ e₁ (prepare_handed h₁))
        intro r s₂ e₂ h₂
        cases r with
        | error x => exact h₂
        | ok prepared =>
            cases prepared with
            | false => exact h₂
            | true =>
                refine wp_bind _ _ s₂ e₂ (wp_mono _ ?_ s₂ e₂ (handed_sendUpstream h₂))
                intro r s₃ e₃ h₃
                cases r with
                | error x => exact h₃
                | ok reply => exact attached_answerClient reply s₃ e₃ h₃

theorem Attached.commit {d : DataRelay} (h : Attached printerIp j s e) (hd : s.data = some d)
    (hpending : (e.relays d.relay).endpoint.done = false) :
    Committed printerIp j d s (e.setRelay d.relay { e.relays d.relay with commandSeen := true }) := by
  generalize hx : { e.relays d.relay with commandSeen := true } = x
  have hown : x.owner = (e.relays d.relay).owner := by rw [← hx]
  have hself : (e.setRelay d.relay x).relays d.relay = x := by simp [setRelay]
  have hsame : ∀ {d'}, s.data = some d' → d' = d := fun h' => Option.some.inj (h'.symm.trans hd)
  have htended := h.tended d hd
  refine ⟨⟨h.printer, h.settled, ?_, h.link, ?_, ?_⟩, hd, ?_, ?_⟩
  · exact fun d' hd' => setRelay_owns x hown _ (h.owns d' hd')
  · intro d' hd'
    rw [hsame hd', hself, ← hx]
    exact ⟨htended.uncancelled, by rintro ⟨⟩, htended.endpoint, htended.late⟩
  · intro d' hd'
    rw [hsame hd', hself, ← hx]
    exact h.begun d hd
  · rw [hself, ← hx]
  · rw [hself, ← hx]
    show (e.relays d.relay).endpoint = .pending
    cases he : (e.relays d.relay).endpoint with
    | pending => rfl
    | result => simp [he, Fut.done] at hpending
    | cancelled => simp [he, Fut.done] at hpending

theorem attached_handleUpstream (command argument line : String) :
    Channels printerIp j l (Attached printerIp j) (Possesses j) (handleUpstream command argument line) := by
  have hcomp := @attached_composes printerIp j l
  intro s e h
  refine wp_bind _ _ s e (wp_get.mpr ?_)
  dsimp only
  split
  · exact hcomp.send channel_talks _ s e h
  split
  · next hc =>
      cases hd : s.data with
      | none => exact hcomp.send channel_talks _ s e h
      | some d =>
          refine wp_bind _ _ s e (channelWp_sync (i := .endpointDone d.relay) rfl trivial (fun _ hv => hv) ?_)
          dsimp only
          split
          · exact hcomp.send channel_talks _ s e h
          · next hpending =>
              refine wp_bind _ _ s e
                (channelWp_sync (i := .setCommandSeen d.relay) rfl (h.owns d hd) (fun _ hv => hv) ?_)
              exact committed_connectAndForward hc (h.commit hd (Bool.eq_false_iff.mpr hpending))
  · next hc =>
      have hensure := attached_weaken (@attached_replay printerIp j l _
        (attached_steady printerIp j) (fun _ _ h => h.settled) (priorityOf command))
      refine hcomp.bind hensure (fun connected => ?_) s e h
      split
      · exact hcomp.bind attached_cancelDataRelay (fun _ => hcomp.send channel_talks _)
      · exact hcomp.bind (hcomp.sendUpstream channel_asks (plain_forward hc argument line))
            (fun reply => attached_answerClient reply)

theorem attached_serve (line : String) :
    Channels printerIp j l (Attached printerIp j) (Possesses j) (serve line) := by
  refine attached_composes.serve channel_talks attached_openPassiveRelay ?_ (attached_handleUpstream _ _ _)
  exact attached_composes.handleLocal channel_talks (fun _ =>
    ⟨relayless_of_quiet (quiet_setState _ _), relayless_of_quiet (quiet_discardLost _)⟩)

theorem attached_turn (l' : Label) :
    Channels printerIp j l (Attached printerIp j) (Possesses j) (turn l') := by
  have hcomp := @attached_composes printerIp j l
  have hread := hcomp.readAndServe channel_talks (fun _ => plain_of rfl nofun nofun)
    (attached_weaken attached_releaseUpstream) attached_serve
  cases l' with
  | start => exact hcomp.bind (hcomp.send channel_talks _) (fun _ => hcomp.pure _)
  | running => exact hcomp.bind (hcomp.ask (i := .running) (plain_of rfl nofun nofun)) (fun _ => hcomp.pure _)
  | reading => exact hread
  | closing => exact hread

structure ClosePlain (i : Op) : Prop extends ChannelPlain i where
  silent : i = .closeUpstream ∨ ∀ v, ¬ emits i v

theorem closing_ask {i : Op} (hi : ClosePlain i) :
    Channels printerIp j l (Possesses j) (Possesses j) (ask i) := by
  refine channel_ask (possesses_steady j) hi.toChannelPlain (fun s e _ => ?_)
  rcases hi.silent with rfl | hsilent
  · trivial
  · refine guar_silent ?_ hsilent
    have hr := hi.relay
    cases i with
    | setCommandSeen n => cases hr
    | setEndpoint n host port => cases hr
    | cancelHandlers n => cases hr
    | cancelTask n => cases hr
    | _ => trivial

theorem closing_robust : Robust ClosePlain Relayless
    (Channels printerIp j l (Possesses j) (Possesses j)) where
  pure a := Keeps.pure a
  raise x := Keeps.raise (fun _ _ h => h) x
  get := Keeps.get
  bind hc hf := Keeps.bind hc hf
  modify hf := Keeps.modify (fun _ _ h => (possesses_steady j).modify hf h)
  ask := closing_ask
  attempt hi := Keeps.attempt (closing_ask hi)
  attemptAll := Keeps.attempt

theorem close_plain {i : Op} (hr : relayOp i = false) (hi : ∀ v, ¬ emits i v) : ClosePlain i := by
  refine ⟨⟨hr, ?_, ?_⟩, .inr hi⟩
  · rintro n rfl
    exact hi (.examined .over) ⟨_, rfl⟩
  · rintro command argument line rfl
    exact absurd ⟨none, rfl⟩ (hi (.asked _ none))

theorem close_closes : Closes ClosePlain Relayless where
  closeUpstream := ⟨plain_of rfl nofun nofun, .inl rfl⟩
  upstreamClosed := close_plain rfl (fun _ hv => hv)
  abortUpstream := close_plain rfl (fun _ hv => hv)
  queueRelease := close_plain rfl (fun _ hv => hv)
  yield := ⟨fun _ => rfl, fun _ => rfl⟩

theorem possesses_close (h : Possesses j s e) :
    channelWp printerIp j l close (fun _ _ _ => True) s e := by
  have hc := @closing_robust printerIp j l
  have hrelease := hc.releaseUpstream close_closes ⟨fun _ => rfl, fun _ => rfl⟩
  refine wp_bind _ _ s e (wp_mono _ ?_ s e (hrelease s e h))
  intro r s₁ e₁ h₁
  cases r with
  | error x => trivial
  | ok _ =>
      refine wp_bind _ _ s₁ e₁ (wp_mono _ ?_ s₁ e₁ (cancelDataRelay_drops h₁))
      rintro r s₂ e₂ ⟨rfl, _⟩
      cases r with
      | error x => trivial
      | ok _ =>
          have hwriter := hc.closeClientWriter (close_plain rfl (fun _ hv => hv))
            (close_plain rfl (fun _ hv => hv)) (close_plain rfl (fun _ hv => hv))
          exact wp_mono _ (fun _ _ _ _ => trivial) _ e₂ (hwriter _ e₂ nofun)

theorem channel_body {clients : Clients} (h : (channelProtocol printerIp).lab j l s e) :
    channelWp printerIp j l (body l) ((channelProtocol printerIp).post (ftpProxy clients) j l) s e := by
  have hturn : l ≠ .closing → channelWp printerIp j l (turn l >>= fun next => pure (some next))
      ((channelProtocol printerIp).post (ftpProxy clients) j l) s e := by
    intro hl
    have hat : Attached printerIp j s e := by
      cases l <;> first | exact h | exact absurd rfl hl
    refine wp_bind _ _ s e (wp_mono _ ?_ s e (attached_turn l s e hat))
    intro r s' e' h'
    cases r with
    | ok next =>
        cases next with
        | closing => exact Attached.owns h'
        | _ => exact h'
    | error x =>
        cases l with
        | closing => exact absurd rfl hl
        | _ => exact h'
  cases l with
  | start => exact hturn nofun
  | running => exact hturn nofun
  | reading => exact hturn nofun
  | closing =>
      refine wp_bind _ _ s e (wp_mono _ ?_ s e (possesses_close h))
      intro r s' e' _
      cases r <;> trivial

theorem guar_named {i : Op} (hg : channelGuar printerIp j i s e) : OwnsNamed e j i := by
  cases i with
  | writeUpstream request => trivial
  | writeClient line => trivial
  | closeUpstream => trivial
  | _ => exact hg.1

theorem guar_emits {i : Op} {v : Event} (hg : channelGuar printerIp j i s e) (hv : emits i v)
    (hw : ∀ request, i ≠ .writeUpstream request) : Orderly printerIp v (e.log j) := by
  have hforward : ∀ command argument line relay, v ≠ .asked (.forward command argument line) relay := by
    rintro command argument line relay rfl
    exact hw _ (emits_asked hv)
  cases i with
  | writeUpstream request => exact absurd rfl (hw request)
  | writeClient line =>
      cases hv
      exact hg
  | closeUpstream =>
      cases hv
      exact ⟨fun command argument line relay he _ => absurd he (hforward command argument line relay),
        fun _ => .inr rfl⟩
  | _ => exact orderly_of_settled (hg.2 ⟨v, hv⟩) (fun command argument line relay he =>
      absurd he (hforward command argument line relay))

def Adds (printerIp : String) (j : Nat) (e e' : Proxy) : Prop :=
  e'.log j = e.log j ∨ ∃ v, Orderly printerIp v (e.log j) ∧ e'.log j = v :: e.log j

theorem sync_adds {i : Op} {r : Except Exc i.Answer} {e' : Proxy} (hg : channelGuar printerIp j i s e)
    (h : sync j i e = some (r, e')) : Adds printerIp j e e' := by
  by_cases hw : ∃ request, i = .writeUpstream request
  · obtain ⟨request, rfl⟩ := hw
    cases h
    exact .inr ⟨_, hg, note_log e j _⟩
  · refine (sync_logs h).own.imp_right (fun ⟨v, hv, hlog⟩ => ⟨v, guar_emits hg hv ?_, hlog⟩)
    exact fun request he => hw ⟨request, he⟩

theorem resume_adds {i : Op} {r : Except Exc i.Answer} {e' : Proxy} (hg : channelGuar printerIp j i s e)
    (h : resume j i r e = some e') : Adds printerIp j e e' := by
  refine (resume_logs h).own.imp_right (fun ⟨v, hv, hlog⟩ => ⟨v, guar_emits hg hv ?_, hlog⟩)
  rintro request rfl
  cases h

theorem channel_inv {i : Op} {e' : Proxy} (hi : (channelProtocol printerIp).inv e) (hm : Moves j e e')
    (hl : Logs j i e e') (ha : Adds printerIp j e e') : (channelProtocol printerIp).inv e' := by
  refine ⟨hm.linkedKept hi.1, fun k v earlier hs => ?_⟩
  by_cases hk : k = j
  · subst hk
    rcases ha with hlog | ⟨u, hu, hlog⟩
    · exact hi.2 k v earlier (hlog ▸ hs)
    · rw [hlog] at hs
      rcases List.suffix_cons_iff.mp hs with he | hs
      · obtain ⟨rfl, rfl⟩ := List.cons.inj he
        exact hu
      · exact hi.2 k v earlier hs
  · exact hi.2 k v earlier (hl.other k hk ▸ hs)

theorem possesses_rely {e' : Proxy} (h : Possesses j s e) (hr : ChannelRely j e e') : Possesses j s e' :=
  (possesses_steady j).rely h hr

theorem channel_verified (clients : Clients) :
    (channelProtocol clients.printerIp).Verified (ftpProxy clients) where
  body _ _ _ _ _ h := channel_body h
  inv_sync _ _ _ _ _ _ hi hg h :=
    channel_inv hi (sync_moves hi.1 (guar_named hg) h) (sync_logs h) (sync_adds hg h)
  inv_resume _ _ _ _ _ _ _ hi hg _ h :=
    channel_inv hi (resume_moves hi.1 h) (resume_logs h) (resume_adds hg h)
  inv_spawn _ _ _ _ hi _ h := by
    cases h
    exact hi
  inv_tick _ _ _ hb hi _ h :=
    ⟨(tick_ticks hb h).linkedKept (tick_logs h) hi.1, fun k v earlier hs => hi.2 k v earlier (tick_logs h k ▸ hs)⟩
  rely_sync _ k _ _ _ _ _ hk hi hg h := (sync_moves hi.1 (guar_named hg) h).rely hk ((sync_logs h).other k hk)
  rely_resume _ k _ _ _ _ _ _ hk hi _ _ h := (resume_moves hi.1 h).rely hk ((resume_logs h).other k hk)
  rely_spawn _ _ _ _ _ _ _ _ h := by
    cases h
    exact (Ticks.mk rfl (fun _ => rfl) (fun _ => .inl rfl)).rely (.refl _) _
  rely_tick k _ _ _ hb _ _ h := (tick_ticks hb h).rely (tick_logs h) k
  guar_stable j i s e e' hb _ _ h hr := by
    obtain ⟨e₀, hb⟩ := hb
    cases i with
    | writeUpstream request => cases hb
    | writeClient line => cases hb
    | closeUpstream => trivial
    | setCommandSeen n => cases hb
    | cancelHandlers n => cases hb
    | cancelTask n => cases hb
    | setEndpoint n host port => exact ⟨hr.owns h.1, fun hv => hr.log ▸ h.2 hv⟩
    | _ => exact ⟨trivial, fun hv => hr.log ▸ h.2 hv⟩
  lab_stable j l s e e' _ _ h hr := by
    cases l with
    | closing => exact possesses_rely h hr
    | _ => exact (attached_steady clients.printerIp j).rely h hr
  fin_stable _ _ _ _ _ _ _ _ := trivial
  idle_stable _ _ _ _ _ h hr := hr.log.trans h
  spawn_lab j e s e' _ h hs := by
    cases hs
    refine ⟨rfl, ?_, nofun, nofun, nofun, nofun⟩
    rintro ⟨earlier, he⟩
    rw [show e.log j = [] from h] at he
    cases he

end

end Session

def NoneTearing (log : List Event) : Prop := ∀ phase, .examined phase ∈ log → phase.tearingDown = false

-- No `supervise` task is cancelled but by its session, and no session that is about to prepare a
-- transfer finds the task in its `finally` clause.
structure ChannelSafe (_ : FtpConfig) (a : FtpAct) (c' : FtpConfig) : Prop where
  uncancelled : ∀ n, a ≠ .tick (.cancelSupervise n)
  examined : ∀ j, System.actor a = some j → NoneTearing (c'.env.log j)

theorem log_keeps {clients : Clients} {c c' : FtpConfig} {a : FtpAct} {k : Nat}
    (h : (ftpProxy clients).step c a = some c') (hk : System.actor a ≠ some k) :
    c'.env.log k = c.env.log k := by
  have hother : ∀ {j i e e'}, System.actor a = some j → Proxy.Logs j i e e' → e'.log k = e.log k :=
    fun ha hl => hl.other k (fun he => hk (he ▸ ha))
  refine (ftpProxy clients).step_keeps (X := fun e => e.log k = c.env.log k) ?_ ?_ ?_ ?_ h rfl
  · intro j e s e' hX hs
    cases hs
    exact hX
  · exact fun j i e r e' ha hX he => (hother ha (Proxy.sync_logs he)).trans hX
  · exact fun j i r e e' ha hX he => (hother ha (Proxy.resume_logs he)).trans hX
  · exact fun b e e' hX he => (Proxy.tick_logs he k).trans hX

theorem channel_safe_runs {clients : Clients} {q : SessionQueue} {pool : DataPortPool} {c : FtpConfig}
    (hrun : (ftpProxy clients).Runs ChannelSafe (startup q pool) c) :
    (ftpProxy clients).Runs (fun c a c' => ChannelSafe c a c' ∧ ∀ j, NoneTearing (c'.env.log j))
      (startup q pool) c ∧ ∀ j, NoneTearing (c.env.log j) := by
  induction hrun with
  | refl => exact ⟨.refl, nofun⟩
  | @tail d c' _ hstep ih =>
      obtain ⟨hruns, hnone⟩ := ih
      obtain ⟨a, ha, hok⟩ := hstep
      have hnone' : ∀ j, NoneTearing (c'.env.log j) := by
        intro j
        by_cases hj : System.actor a = some j
        · exact hok.examined j hj
        · rw [log_keeps ha hj]
          exact hnone j
      exact ⟨hruns.tail ⟨a, ha, hok, hnone'⟩, hnone'⟩

-- Every transfer command was written with the session's current relay waiting for the data connection
-- the printer had just offered, and a relay that had given up was answered 425.
structure TransfersPrepared (printerIp : String) (c : FtpConfig) : Prop where
  prepared : ∀ j command argument line relay earlier,
    (.asked (.forward command argument line) relay :: earlier) <:+ c.env.log j →
      command ∈ transferCommands → ∃ x, relay = some x ∧ Prepared printerIp x earlier
  refused : ∀ j v earlier, (v :: .examined .over :: earlier) <:+ c.env.log j →
    v = .told expired ∨ v = .closed

theorem transfers_prepared {clients : Clients} {q : SessionQueue} {pool : DataPortPool} {c : FtpConfig}
    (hrun : (ftpProxy clients).Runs ChannelSafe (startup q pool) c) :
    TransfersPrepared clients.printerIp c := by
  have hstart : (Session.channelProtocol clients.printerIp).Holds (ftpProxy clients) (startup q pool) := by
    refine ⟨⟨nofun, fun j v earlier hs => ?_⟩, fun j => rfl⟩
    exact absurd (List.suffix_nil.mp hs) (by simp)
  have hok : ∀ c a c', (ChannelSafe c a c' ∧ ∀ j, NoneTearing (c'.env.log j)) →
      (Session.channelProtocol clients.printerIp).Meets c a ∧
        (Session.channelProtocol clients.printerIp).seen c'.env := by
    intro c a c' hok
    refine ⟨?_, hok.2⟩
    cases a with
    | resume j i r => exact fun _ _ _ _ => trivial
    | tick b =>
        cases b with
        | cancelSupervise n => exact absurd rfl (hok.1.uncancelled n)
        | _ => trivial
    | _ => trivial
  obtain ⟨h, _⟩ := Protocol.Holds.run (Session.channel_verified clients) hok (channel_safe_runs hrun).1
    hstart nofun
  exact ⟨fun j command argument line relay earlier hs hc =>
    (h.inv.2 j _ earlier hs).prepared command argument line relay rfl hc,
    fun j v earlier hs => (h.inv.2 j v _ hs).refused ⟨earlier, rfl⟩⟩

def opensData : List FtpAct :=
  logsIn 0 ++ [.tick (.arrive 0 (line "PASV\r\n")), .run 0, .resume 0 (.startServer 50000) (.ok ()),
    .tick (.supervise 0 false), .tick (.connect 0), .tick (.accept 0 false), .run 0]

def stores : List FtpAct :=
  sends 0 "STOR model.3mf\r\n" ++ reachesPrinter 0 0 ++
    answers 0 "227 Entering Passive Mode (192,168,1,5,195,80)\r\n"

def lastTransfer (c : FtpConfig) : Option (String × Option Phase) :=
  match c.env.log 0 with
  | .asked (.forward command _ _) relay :: _ => some (command, relay.map Relay.phase)
  | _ => none

-- The time for the transfer command runs out just before STOR arrives.
theorem late_transfer_unprepared : ¬ ∀ c, (ftpProxy lan).Runs (fun _ _ _ => True) (startup oneSlot onePort) c →
    TransfersPrepared lan.printerIp c := by
  intro h
  have hend : ((ftpProxy lan).runActs (startup oneSlot onePort)
      (opensData ++ [.tick (.supervise 0 true)] ++ stores)).map lastTransfer =
        some (some ("STOR", some .gathering)) := by
    decide +kernel
  obtain ⟨c, hc, hlast⟩ := Option.map_eq_some_iff.mp hend
  have hprepared := (h c ((ftpProxy lan).runActs_runs _ hc)).prepared
  unfold lastTransfer at hlast
  split at hlast
  · next argument line relay earlier hlog =>
      simp only [Option.some.injEq, Prod.mk.injEq] at hlast
      obtain ⟨rfl, hphase⟩ := hlast
      have hsuffix : (.asked (.forward "STOR" argument line) relay :: earlier) <:+ c.env.log 0 := by
        rw [hlog]
      obtain ⟨x, rfl, hx⟩ := hprepared 0 "STOR" argument line relay earlier hsuffix (by decide)
      have hwaiting := hx.waiting
      rw [Option.some.inj hphase] at hwaiting
      cases hwaiting
  · cases hlast

def channelCheck (_ : FtpConfig) (a : FtpAct) (c' : FtpConfig) : Bool :=
  (match a with
    | .tick (.cancelSupervise _) => false
    | _ => true) &&
  match System.actor a with
  | some j => (c'.env.log j).all fun v =>
      match v with
      | .examined phase => !phase.tearingDown
      | _ => true
  | none => true

theorem channelCheck_safe (c : FtpConfig) (a : FtpAct) (c' : FtpConfig) (h : channelCheck c a c' = true) :
    ChannelSafe c a c' := by
  simp only [channelCheck, Bool.and_eq_true] at h
  refine ⟨?_, fun j hj phase hm => ?_⟩
  · rintro n rfl
    cases h.1
  · have hall := h.2
    rw [hj] at hall
    simpa using List.all_eq_true.mp hall _ hm

theorem transfers_prepared_store : ∃ c, (ftpProxy lan).runWhile channelCheck (startup oneSlot onePort)
    (opensData ++ stores) = some c ∧ lastTransfer c = some ("STOR", some .awaitCommand) ∧
      TransfersPrepared lan.printerIp c := by
  have hend : ((ftpProxy lan).runWhile channelCheck (startup oneSlot onePort) (opensData ++ stores)).map
      lastTransfer = some (some ("STOR", some .awaitCommand)) := by
    decide +kernel
  obtain ⟨c, hc, hlast⟩ := Option.map_eq_some_iff.mp hend
  exact ⟨c, hc, hlast, transfers_prepared ((ftpProxy lan).runWhile_runs channelCheck_safe _ hc)⟩

end PandaProxy.FtpProxy
