import PandaProxy.FtpProxy.DataPorts

namespace PandaProxy.FtpProxy

open Async FtpQueue

namespace Session

open Proxy

structure Covered (j : Nat) (keep : Option Nat) (e : Proxy) : Prop where
  kept : ∀ n, keep = some n → n < e.reserved
  given : ∀ n, n < e.reserved → (e.relays n).owner = j → e.Returned n ∨ keep = some n

theorem Covered.stable {j : Nat} {keep : Option Nat} {e e' : Proxy} (h : Covered j keep e)
    (hr : PortRely j e e') : Covered j keep e' where
  kept n hn := Nat.lt_of_lt_of_le (h.kept n hn) hr.grows
  given n hn ho := by
    obtain ⟨hlt, ho⟩ := hr.mine n hn ho
    rcases h.given n hlt ho with hret | hkeep
    · exact .inl (hr.returned n hlt hret)
    · exact .inr hkeep

def Serving (j : Nat) (s : ControlSession) (e : Proxy) : Prop :=
  Covered j (s.data.map DataRelay.relay) e

def portGuar (j : Nat) : Op → ControlSession → Proxy → Prop
  | .acquirePort, _, e => Covered j none e
  | .startServer port, _, e => ∃ n, Proxy.Binding j port n e
  | .releasePort port, _, e => ∃ n, Proxy.Binding j port n e ∧ (e.relays n).listening = false
  | .createSupervisor port, _, e => ∃ n, Proxy.Binding j port n e
  | _, _, _ => True

-- The cancellations of a session's task that its handling of the port does not survive.
def portAdmits (l : Label) : (i : Op) → Except Exc i.Answer → Prop
  | .startServer _, r => r ≠ .error .cancelled
  | .gatherHandlers _, r => r ≠ .error .cancelled
  | .upstreamClosed, r => l = .closing → ∀ x, r = .error x → x.isOSError = true
  | _, _ => True

-- No `supervise` task is cancelled before its first step.
def Started (e : Proxy) : Prop :=
  ∀ n, n < e.reserved → ¬ ((e.relays n).phase = .created ∧ (e.relays n).mustCancel = true)

def portProtocol : Protocol Nat Label ControlSession Proxy Op Op.Answer Exc Tick where
  inv := PortsKept
  seen := Started
  rely := PortRely
  admits := portAdmits
  allows _ := True
  guar := portGuar
  idle j e := Covered j none e
  lab j _ := Serving j
  fin j _ e := Covered j none e

section

variable {j : Nat} {l : Label}

abbrev portWp (j : Nat) (l : Label) {α : Type} (c : Session α)
    (Q : Except Exc α → ControlSession → Proxy → Prop) (s : ControlSession) (e : Proxy) : Prop :=
  wp (world j) (portProtocol.contract j l) c Q s e

theorem portWp_ask {I : Proxy → Prop} (hI : ∀ e e', I e → PortRely j e e' → I e') {i : Op}
    (hi : portOp i = false) {s : ControlSession} {e : Proxy} (h : I e) {Q : Except Exc i.Answer →
      ControlSession → Proxy → Prop}
    (hQ : ∀ r e₁ e', I e' → PortsKept e' →
      (sync j i e₁ = some (r, e') ∨ portAdmits l i r ∧ resume j i r e₁ = some e') → Q r s e') :
    portWp j l (ask i) Q s e := by
  refine wp_perform ?_ ?_ ?_
  · show portGuar j i s e
    cases i <;> trivial
  · intro r e' he hk
    exact hQ r e e' (hI e e' h ((sync_ports hi he).rely j)) hk (.inl he)
  · intro _ e₁ h₁ _ _ r e₂ ha he hk
    have h₁ := stable_star hI h₁ h
    exact hQ r e₁ e₂ (hI e₁ e₂ h₁ ((resume_ports hi he).rely j)) hk (.inr ⟨ha, he⟩)

def Serves {α : Type} (j : Nat) (l : Label) (c : Session α) : Prop :=
  Keeps (world j) (portProtocol.contract j l) (fun s e => Serving j s e ∧ PortsKept e)
    (fun s e => Serving j s e ∧ PortsKept e) c

theorem serves_ask {i : Op} (hi : portOp i = false) : Serves j l (ask i) := by
  rintro s e ⟨h, _⟩
  refine portWp_ask (I := Serving j s) (fun _ _ hs hr => Covered.stable hs hr) hi h ?_
  intro r _ e' h' hk' _
  cases r with
  | ok _ => exact ⟨h', hk'⟩
  | error _ => exact ⟨h', hk'⟩

theorem serves_modify {f : ControlSession → ControlSession} (hf : ∀ s, (f s).data = s.data) :
    Serves j l (Coro.modify f) := by
  refine Keeps.modify (fun s e h => ⟨?_, h.2⟩)
  rw [Serving, hf]
  exact h.1

theorem serves_robust : Robust (fun i => portOp i = false) (fun f => ∀ s, (f s).data = s.data)
    (Serves j l) where
  pure a := Keeps.pure a
  raise x := Keeps.raise (fun _ _ h => h) x
  get := Keeps.get
  bind hc hf := Keeps.bind hc hf
  modify := serves_modify
  ask := serves_ask
  attempt hi := Keeps.attempt (serves_ask hi)
  attemptAll := Keeps.attempt

theorem port_asks : Asks (fun i => portOp i = false) (fun f => ∀ s, (f s).data = s.data) := by
  constructor <;> intros <;> rfl

theorem port_talks : Talks (fun i => portOp i = false) (fun f => ∀ s, (f s).data = s.data) := by
  refine ⟨⟨port_asks, ?_, ?_, ?_⟩, ?_, ?_, ?_, ?_, ?_, ?_, ?_, ?_, ?_, ?_⟩ <;> intros <;> rfl

theorem port_hands : Hands (fun i => portOp i = false) := by
  constructor <;> intros <;> rfl

theorem port_closes : Closes (fun i => portOp i = false) (fun f => ∀ s, (f s).data = s.data) := by
  constructor <;> first | rfl | exact fun _ => rfl

theorem port_queues : Queues (fun i => portOp i = false) := by
  constructor <;> intros <;> rfl

theorem serves_releaseUpstream : Serves j l releaseUpstream :=
  serves_robust.releaseUpstream port_closes (fun _ => rfl)

theorem serves_ensureUpstream (priority : Int) : Serves j l (ensureUpstream priority) :=
  serves_robust.ensureUpstream port_queues port_asks rfl (fun _ => rfl) (fun _ => rfl)
    serves_releaseUpstream
    (serves_robust.toComposes.replayState port_asks (fun _ _ _ => rfl) (fun name => (quiet_forget name).data))
    priority

theorem Covered.over {n : Nat} {e : Proxy} (h : Covered j (some n) e) (hk : PortsKept e)
    (hover : (e.relays n).phase = .over) : Covered j none e where
  kept m hm := by cases hm
  given m hm ho := by
    rcases h.given m hm ho with hret | hkeep
    · exact .inl hret
    · cases hkeep
      exact .inl (hk.spent n hm (.inl hover))

theorem awaitTask_answers {n : Nat} {e e' : Proxy} {r : Except Exc Unit}
    (h : sync j (.awaitTask n) e = some (r, e') ∨ resume j (.awaitTask n) r e = some e') :
    (e'.relays n).phase = .over ∧ (r = .ok () ∨ r = .error .cancelled ∨ r = .error .timeout) := by
  rcases h with h | h
  · simp only [sync] at h
    split at h
    · next hover =>
        cases h
        exact ⟨hover, .inl rfl⟩
    · cases h
  · cases r with
    | ok u =>
        simp only [resume] at h
        split at h
        · next hover =>
            cases h
            exact ⟨hover, .inl rfl⟩
        · cases h
    | error x =>
        cases x
        case cancelled =>
          simp only [resume] at h
          split at h
          · next hover =>
              cases h
              exact ⟨hover, .inr (.inl rfl)⟩
          · cases h
        case timeout =>
          simp only [resume] at h
          split at h
          · next hover =>
              cases h
              exact ⟨hover, .inr (.inr rfl)⟩
          · cases h
        all_goals simp [resume] at h

theorem awaitTask_spec {n : Nat} {s : ControlSession} {e : Proxy} (h : Covered j (some n) e) :
    portWp j l (Coro.suppress (fun x => x == .cancelled || x == .timeout) (ask (.awaitTask n)))
      (fun r s' e' => r = .ok () ∧ s' = s ∧ Covered j none e') s e := by
  refine wp_suppress _ _ (portWp_ask (I := Covered j (some n)) (fun _ _ hc hr => hc.stable hr) rfl h ?_)
  intro r e₁ e₂ h₂ hk ha
  obtain ⟨hover, hr⟩ := awaitTask_answers (ha.imp_right And.right)
  have hnone := h₂.over hk hover
  rcases hr with rfl | rfl | rfl <;> exact ⟨rfl, rfl, hnone⟩

theorem gatherHandlers_answers {n : Nat} {e e' : Proxy} {r : Except Exc Unit}
    (h : sync j (.gatherHandlers n) e = some (r, e') ∨
      portAdmits l (.gatherHandlers n) r ∧ resume j (.gatherHandlers n) r e = some e') : r = .ok () := by
  rcases h with h | ⟨ha, h⟩
  · simp only [sync] at h
    split at h <;> cases h
    rfl
  · cases r with
    | ok u => rfl
    | error x =>
        cases x with
        | cancelled => exact absurd rfl ha
        | _ => simp [resume] at h

theorem cancelDataRelay_spec {s : ControlSession} {e : Proxy} (h : Serving j s e) :
    portWp j l cancelDataRelay (fun r s' e' => r = .ok () ∧ s'.data = none ∧ Covered j none e') s e := by
  refine wp_bind _ _ s e (wp_bind _ _ s e ?_)
  cases hd : s.data with
  | none =>
      refine ⟨rfl, rfl, ?_⟩
      rw [Serving, hd] at h
      exact h
  | some d =>
      rw [Serving, hd] at h
      have hstable : ∀ e e', Covered j (some d.relay) e → PortRely j e e' → Covered j (some d.relay) e' :=
        fun _ _ hc hr => hc.stable hr
      have hrest : ∀ s e, s.data = none → Covered j (some d.relay) e → portWp j l
          (ask (.cancelTask d.relay) >>= fun _ =>
            Coro.suppress (fun x => x == .cancelled || x == .timeout) (ask (.awaitTask d.relay)))
          (fun r s' e' => r = .ok () ∧ s'.data = none ∧ Covered j none e') s e := by
        intro s e hs h
        refine wp_bind _ _ s e (portWp_ask hstable rfl h ?_)
        intro r e₁ e₂ h₂ _ ha
        rcases ha with ha | ⟨_, ha⟩
        · cases ha
          refine wp_mono _ ?_ s _ (awaitTask_spec h₂)
          rintro r s' e' ⟨rfl, rfl, h'⟩
          exact ⟨rfl, hs, h'⟩
        · cases r <;> cases ha
      refine wp_bind _ _ _ e (portWp_ask hstable rfl h ?_)
      intro r e₁ e₂ h₂ _ ha
      rcases ha with ha | ⟨_, ha⟩
      · cases ha
        dsimp only
        split
        · refine wp_bind _ _ _ _ (portWp_ask hstable rfl h₂ ?_)
          intro r e₃ e₄ h₄ _ ha
          cases gatherHandlers_answers ha
          exact hrest _ e₄ rfl h₄
        · exact hrest _ _ rfl h₂
      · cases r <;> cases ha

theorem serves_cancelDataRelay : Serves j l cancelDataRelay := by
  rintro s e ⟨h, hk⟩
  refine wp_mono _ ?_ s e (wp_inv _ s e hk (cancelDataRelay_spec h))
  rintro r s' e' ⟨hk', rfl, hd, h'⟩
  refine ⟨?_, hk'⟩
  rw [Serving, hd]
  exact h'

structure Bound (j : Nat) (port : Int) (n : Nat) (e : Proxy) : Prop where
  binding : Proxy.Binding j port n e
  covered : Covered j (some n) e

theorem Bound.stable {port : Int} {n : Nat} {e e' : Proxy} (h : Bound j port n e)
    (hr : PortRely j e e') : Bound j port n e' :=
  ⟨h.binding.stable hr, h.covered.stable hr⟩

theorem Covered.reserve {port : Int} {free : List Int} {e e' : Proxy} (h : Covered j none e)
    (hr : Reserves j port free e e') : Bound j port e.reserved e' := by
  refine ⟨hr.binding, ?_, ?_⟩
  · intro n hn
    cases hn
    exact hr.binding.reserved
  · intro n hn ho
    rcases hr.cases hn with rfl | hlt
    · exact .inr rfl
    · rw [hr.old n hlt] at ho
      rcases h.given n hlt ho with hret | hkeep
      · refine .inl ?_
        rw [Proxy.Returned, hr.old n hlt]
        exact hret
      · cases hkeep

theorem Bound.unbind {port : Int} {n : Nat} {e : Proxy} (h : Bound j port n e)
    (hl : (e.relays n).listening = false) (hk : PortsKept e) : Covered j none (e.unbind j port) := by
  obtain ⟨_, hret, hres, hold, _, _⟩ := h.binding.unbind hl hk
  refine ⟨nofun, fun m hm ho => .inl ?_⟩
  by_cases hmn : m = n
  · rw [hmn]
    exact hret
  · rw [hold m hmn] at ho
    rw [Proxy.Returned, hold m hmn]
    rcases h.covered.given m (hres ▸ hm) ho with hret | hkeep
    · exact hret
    · cases hkeep
      exact absurd rfl hmn

theorem Bound.move {port : Int} {n : Nat} {e : Proxy} {x : Relay} (h : Bound j port n e) :
    Covered j (some n) (e.setRelay n x) := by
  refine ⟨h.covered.kept, fun m hm ho => ?_⟩
  by_cases hmn : m = n
  · rw [hmn]
    exact .inr rfl
  · have hsame : (e.setRelay n x).relays m = e.relays m := by simp [setRelay, hmn]
    rw [hsame] at ho
    rw [Proxy.Returned, hsame]
    exact h.covered.given m hm ho

theorem startServer_answers {port : Int} {e e' : Proxy} {r : Except Exc Unit}
    (ha : portAdmits l (.startServer port) r) (h : resume j (.startServer port) r e = some e') :
    (r = .ok () ∧ ∃ n, (e.links j).relay = some n ∧ e' = e.setRelay n { e.relays n with listening := true }) ∨
    ∃ x, r = .error x ∧ x.isException = true ∧ e' = e := by
  cases r with
  | ok u =>
      obtain ⟨n, hn, rfl⟩ := Option.map_eq_some_iff.mp h
      exact .inl ⟨rfl, n, hn, rfl⟩
  | error x =>
      cases h
      refine .inr ⟨x, rfl, ?_, rfl⟩
      cases x <;> first | rfl | exact absurd rfl ha

theorem bindPort_spec {port : Int} {n : Nat} {s : ControlSession} {e : Proxy} (hs : s.data = none)
    (h : Bound j port n e) (hquiet : (e.relays n).listening = false) :
    portWp j l (do
      let outcome ← Coro.attempt (ask (.startServer port))
      match outcome with
      | .error x =>
          if x.isException then
            ask (.releasePort port)
            pure none
          else Coro.raise x
      | .ok _ =>
          let relay : Nat ← ask (.createSupervisor port)
          Coro.modify fun s => { s with data := some ⟨relay, port⟩ }
          pure (some port)) (Ends (fun s e => Serving j s e ∧ PortsKept e)
        (fun s e => Serving j s e ∧ PortsKept e)) s e := by
  refine wp_bind _ _ s e (wp_attempt _ s e (wp_perform ⟨n, h.binding⟩ (fun r e' he => by cases he) ?_))
  intro _ e₁ h₁ hk₁ _ r e₂ ha hr hk₂
  obtain ⟨h₁, hquiet⟩ : Bound j port n e₁ ∧ (e₁.relays n).listening = false := by
    refine stable_star (X := fun e => Bound j port n e ∧ (e.relays n).listening = false) ?_ h₁ ⟨h, hquiet⟩
    intro e e' hX hr
    exact ⟨hX.1.stable hr, (hr.deaf n hX.1.binding.reserved hX.1.binding.owner hX.1.binding.phase).trans hX.2⟩
  rcases startServer_answers (l := l) ha hr with ⟨rfl, m, hm, rfl⟩ | ⟨x, rfl, hx, rfl⟩
  · cases h₁.binding.link.symm.trans hm
    have hbound : Proxy.Binding j port n (e₁.setRelay n { e₁.relays n with listening := true }) :=
      ⟨h₁.binding.reserved, by simp [setRelay, h₁.binding.owner], by simp [setRelay, h₁.binding.port],
        by simp [setRelay, h₁.binding.phase], h₁.binding.link⟩
    have h₂ : Bound j port n (e₁.setRelay n { e₁.relays n with listening := true }) := ⟨hbound, h₁.move⟩
    generalize e₁.setRelay n { e₁.relays n with listening := true } = e₂ at h₂ hk₂
    have hsync : sync j (.createSupervisor port) e₂ =
        some (.ok n, e₂.setRelay n { e₂.relays n with phase := .created }) := by
      simp only [sync, h₂.binding.link]
    exact wp_bind _ _ s e₂ (wp_sync hsync ⟨n, h₂.binding⟩ (fun hk₃ => ⟨h₂.move, hk₃⟩))
  · show portWp j l (if _ then _ else _) _ s _
    rw [if_pos hx]
    refine wp_bind _ _ s _ (wp_sync rfl ⟨n, h₁.binding, hquiet⟩ (fun hk₃ => ⟨?_, hk₃⟩))
    rw [Serving, hs]
    exact h₁.unbind hquiet hk₁

theorem serves_openPassiveRelay : Serves j l openPassiveRelay := by
  rintro s e ⟨h, hk⟩
  refine wp_bind _ _ s e (wp_mono _ ?_ s e (cancelDataRelay_spec h))
  rintro r s e₁ ⟨rfl, hd, h₁⟩
  refine wp_bind _ _ s e₁ (portWp_ask (I := Covered j none) (fun _ _ hc hr => hc.stable hr) rfl h₁ ?_)
  intro r e₂ e₃ h₃ hk₃ ha
  have hr : r = .ok () := by
    rcases ha with ha | ⟨_, ha⟩
    · cases ha
      rfl
    · cases r <;> cases ha
  subst hr
  refine wp_bind _ _ s _ (wp_sync rfl h₃ (fun hk₄ => ?_))
  rcases e₃.reserve_cases j with hnone | ⟨port, free, e₄, hsome, hres⟩
  · rw [hnone]
    refine ⟨?_, hk₃⟩
    rw [Serving, hd]
    exact h₃
  · rw [hsome]
    have hquiet : (e₄.relays e₃.reserved).listening = false := by rw [hres.fresh]; rfl
    exact bindPort_spec hd (h₃.reserve hres) hquiet

theorem serves_turn : Serves j l (turn l) :=
  serves_robust.toComposes.turn port_talks port_hands rfl (fun _ => rfl) serves_cancelDataRelay
    serves_releaseUpstream serves_ensureUpstream serves_openPassiveRelay (fun _ => rfl)
    (fun name value => (quiet_setState name value).data) (fun name => (quiet_discardLost name).data)
    (fun command argument reply => (quiet_recordReply command argument reply).data) l

theorem upstreamClosed_answers {e e' : Proxy} {r : Except Exc Unit}
    (h : sync j .upstreamClosed e = some (r, e') ∨
      portAdmits .closing .upstreamClosed r ∧ resume j .upstreamClosed r e = some e') :
    ∀ x, r = .error x → x.isOSError = true := by
  rcases h with h | ⟨ha, _⟩
  · simp only [sync] at h
    split at h <;> cases h
    rintro _ ⟨⟩
  · exact ha rfl

theorem closing_closeUpstreamWriter {s : ControlSession} {e : Proxy} (h : Serving j s e) :
    portWp j .closing closeUpstreamWriter (fun r s' e' => r = .ok () ∧ s' = s ∧ Serving j s e') s e := by
  have hstable : ∀ e e', Serving j s e → PortRely j e e' → Serving j s e' := fun _ _ hs hr => hs.stable hr
  refine wp_bind _ _ s e (portWp_ask hstable (i := .closeUpstream) rfl h ?_)
  intro r e₁ e₂ h₂ _ ha
  have hr : r = .ok () := by
    rcases ha with ha | ⟨_, ha⟩
    · cases ha
      rfl
    · cases r <;> cases ha
  subst hr
  refine wp_tryCatch _ _ (portWp_ask hstable (i := .upstreamClosed) rfl h₂ ?_)
  intro r e₁ e₂ h₂ _ ha
  have hos := upstreamClosed_answers ha
  cases r with
  | ok u => exact ⟨rfl, rfl, h₂⟩
  | error x =>
      have hx := hos x rfl
      cases x
      case timeout => exact wp_sync rfl trivial (fun _ => ⟨rfl, rfl, h₂⟩)
      all_goals first
      | exact ⟨rfl, rfl, h₂⟩
      | cases hx

theorem closing_releaseUpstream {s : ControlSession} {e : Proxy} (h : Serving j s e) :
    portWp j .closing releaseUpstream (fun r s' e' => r = .ok () ∧ Serving j s' e') s e := by
  have hclosed : portWp j .closing (if s.upstream then closeUpstreamWriter else pure ())
      (fun r s' e' => r = .ok () ∧ s' = { s with upstream := false } ∧ Serving j s e')
      { s with upstream := false } e := by
    split
    · exact closing_closeUpstreamWriter h
    · exact ⟨rfl, rfl, h⟩
  refine wp_bind _ _ s e (wp_bind _ _ s e (wp_tryFinally _ _ (wp_mono _ ?_ _ e hclosed)))
  rintro r s₁ e₁ ⟨rfl, rfl, h₁⟩
  refine wp_bind _ _ _ e₁ ?_
  cases hheld : s.holdsSlot with
  | true =>
      refine wp_bind _ _ _ e₁ (wp_sync rfl trivial (fun _ => ⟨rfl, ?_⟩))
      exact h₁.stable ((SamePorts.ofRelays (.giveBack e₁ j)).rely j)
  | false =>
      exact ⟨rfl, h₁⟩

theorem covered_closeClientWriter : Keeps (world j) (portProtocol.contract j l)
    (fun _ e => Covered j none e) (fun _ e => Covered j none e) closeClientWriter := by
  have hask : ∀ {i : Op}, portOp i = false → Keeps (world j) (portProtocol.contract j l)
      (fun _ e => Covered j none e) (fun _ e => Covered j none e) (ask i) := by
    intro i hi s e h
    refine portWp_ask (I := Covered j none) (fun _ _ hc hr => hc.stable hr) hi h ?_
    intro r _ e' h' _ _
    cases r <;> exact h'
  refine Keeps.bind (hask rfl) (fun _ => Keeps.tryCatch (hask rfl) (fun x => ?_))
  split
  · exact hask rfl
  · split
    · exact Keeps.pure ()
    · exact Keeps.raise (fun _ _ h => h) x

theorem closing_close {s : ControlSession} {e : Proxy} (h : Serving j s e) :
    portWp j .closing close (fun _ _ e' => Covered j none e') s e := by
  refine wp_bind _ _ s e (wp_mono _ ?_ s e (closing_releaseUpstream h))
  rintro r s₁ e₁ ⟨rfl, h₁⟩
  refine wp_bind _ _ s₁ e₁ (wp_mono _ ?_ s₁ e₁ (cancelDataRelay_spec h₁))
  rintro r s₂ e₂ ⟨rfl, _, h₂⟩
  refine wp_mono _ ?_ s₂ e₂ (covered_closeClientWriter s₂ e₂ h₂)
  intro r s' e' h'
  cases r <;> exact h'

theorem port_body {clients : Clients} {s : ControlSession} {e : Proxy} (hk : PortsKept e)
    (h : Serving j s e) :
    wp (world j) (portProtocol.contract j l) (body l) (portProtocol.post (ftpProxy clients) j l) s e := by
  have hturn : l ≠ .closing →
      wp (world j) (portProtocol.contract j l) (turn l >>= fun next => pure (some next))
        (portProtocol.post (ftpProxy clients) j l) s e := by
    intro hl
    refine wp_bind _ _ s e (wp_mono _ ?_ s e (serves_turn s e ⟨h, hk⟩))
    intro r s' e' h'
    cases r with
    | ok next => exact h'.1
    | error x => cases l <;> first | exact h'.1 | exact absurd rfl hl
  cases l with
  | start => exact hturn (by simp)
  | running => exact hturn (by simp)
  | reading => exact hturn (by simp)
  | closing =>
      refine wp_bind _ _ s e (wp_mono _ ?_ s e (closing_close h))
      intro r s' e' h'
      cases r <;> exact h'

end

theorem port_inv_sync {j : Nat} {i : Op} {s : ControlSession} {e e' : Proxy}
    {r : Except Exc i.Answer} (hk : PortsKept e) (hg : portGuar j i s e)
    (h : sync j i e = some (r, e')) : PortsKept e' ∧ ∀ k, k ≠ j → PortRely k e e' := by
  cases hi : portOp i with
  | false =>
      have hsame := sync_ports hi h
      exact ⟨hsame.kept hk, fun k _ => hsame.rely k⟩
  | true =>
      cases i with
      | acquirePort =>
          cases h
          rcases e.reserve_cases j with hnone | ⟨port, free, e₁, hsome, hres⟩
          · rw [hnone]
            exact ⟨hk, fun k _ => (SamePorts.refl e).rely k⟩
          · rw [hsome]
            refine ⟨hres.kept hk (fun n hn ho => ?_), fun k => hres.rely⟩
            rcases hg.given n hn ho with hret | hkeep
            · exact hret
            · cases hkeep
      | releasePort port =>
          cases h
          obtain ⟨n, hb, hl⟩ := hg
          obtain ⟨hk', _, _, _, _, hr⟩ := hb.unbind hl hk
          exact ⟨hk', hr⟩
      | startServer port => cases h
      | createSupervisor port =>
          obtain ⟨n, hb⟩ := hg
          simp only [sync, hb.link] at h
          cases h
          exact hb.move hk rfl rfl rfl (.inr rfl)
      | _ => cases hi

theorem port_inv_resume {j : Nat} {i : Op} {s : ControlSession} {e e' : Proxy}
    {r : Except Exc i.Answer} (hk : PortsKept e) (hg : portGuar j i s e)
    (h : resume j i r e = some e') : PortsKept e' ∧ ∀ k, k ≠ j → PortRely k e e' := by
  cases hi : portOp i with
  | false =>
      have hsame := resume_ports hi h
      exact ⟨hsame.kept hk, fun k _ => hsame.rely k⟩
  | true =>
      cases i with
      | startServer port =>
          cases r with
          | ok _ =>
              obtain ⟨n, hb⟩ := hg
              obtain ⟨m, hm, rfl⟩ := Option.map_eq_some_iff.mp h
              cases hb.link.symm.trans hm
              exact hb.move hk rfl rfl rfl (.inl hb.phase)
          | error x =>
              cases h
              exact ⟨hk, fun k _ => (SamePorts.refl e).rely k⟩
      | acquirePort => cases r <;> cases h
      | releasePort port => cases r <;> cases h
      | createSupervisor port => cases r <;> cases h
      | _ => cases hi

theorem port_verified (clients : Clients) : portProtocol.Verified (ftpProxy clients) where
  body _ _ _ _ hk h := port_body hk h
  inv_sync _ _ _ _ _ _ hk hg h := (port_inv_sync hk hg h).1
  inv_resume _ _ _ _ _ _ _ hk hg _ h := (port_inv_resume hk hg h).1
  inv_spawn _ _ _ _ hk _ h := by cases h; exact hk
  inv_tick _ _ _ _ hk hs h := (tick_ports hk hs h).1
  rely_sync _ k _ _ _ _ _ hne hk hg h := (port_inv_sync hk hg h).2 k hne
  rely_resume _ k _ _ _ _ _ _ hne hk hg _ h := (port_inv_resume hk hg h).2 k hne
  rely_spawn _ k _ _ _ _ _ _ h := by cases h; exact (SamePorts.refl _).rely k
  rely_tick k _ _ _ _ hk hs h := (tick_ports hk hs h).2 k
  guar_stable j i s e e' _ _ _ h hr := by
    cases i with
    | acquirePort => exact Covered.stable h hr
    | startServer port => exact h.imp fun n hb => hb.stable hr
    | releasePort port =>
        refine h.imp fun n hb => ⟨hb.1.stable hr, ?_⟩
        exact (hr.deaf n hb.1.reserved hb.1.owner hb.1.phase).trans hb.2
    | createSupervisor port => exact h.imp fun n hb => hb.stable hr
    | _ => trivial
  lab_stable _ _ _ _ _ _ _ h hr := Covered.stable h hr
  fin_stable _ _ _ _ _ _ h hr := Covered.stable h hr
  idle_stable _ _ _ _ _ h hr := Covered.stable h hr
  spawn_lab _ _ _ _ _ h hs := by cases hs; exact h

end Session

open Session

def Relay.live (x : Relay) : Prop := x.phase ≠ .over ∧ x.phase ≠ .unbound

-- No two live relays have one port, and a port that has been taken is given back once: it is free
-- again, with its listener closed, when the relay has been replaced and when its session is through.
structure PortsOwned (c : FtpConfig) : Prop where
  unshared : ∀ n m, n < c.env.reserved → m < c.env.reserved → (c.env.relays n).live →
    (c.env.relays m).live → (c.env.relays n).port = (c.env.relays m).port → n = m
  taken : ∀ n, n < c.env.reserved → (c.env.relays n).live →
    (c.env.relays n).port ∈ c.env.pool.inUse ∧ (c.env.relays n).port ∉ c.env.pool.free
  once : ∀ n, n < c.env.reserved → (c.env.relays n).released ≤ 1
  freed : ∀ n, n < c.env.reserved → (c.env.relays n).released = 1 →
    (c.env.relays n).port ∈ c.env.pool.free ∨
    ∃ m, m < c.env.reserved ∧ (c.env.relays m).released = 0 ∧ (c.env.relays m).port = (c.env.relays n).port
  replaced : ∀ n, n < c.env.reserved → (c.env.links (c.env.relays n).owner).relay ≠ some n →
    c.env.Returned n
  current : ∀ j l s, c.procs j = .ready l s → ∀ n, n < c.env.reserved → (c.env.relays n).owner = j →
    c.env.Returned n ∨ s.data.map DataRelay.relay = some n
  closed : ∀ j s, c.procs j = .halted s → ∀ n, n < c.env.reserved → (c.env.relays n).owner = j →
    c.env.Returned n

theorem startup_ports {q : SessionQueue} {pool : DataPortPool} {clients : Clients} {start stop : Int}
    (hpool : DataPortPool.init start stop = some pool) :
    portProtocol.Holds (ftpProxy clients) (startup q pool) := by
  obtain ⟨hapart, hfree⟩ := DataPortPool.init_apart hpool
  have hnone : ∀ n, ¬ n < (startup q pool).env.reserved := fun n hn => Nat.not_lt_zero n hn
  refine ⟨⟨hapart, ?_, ?_, ?_, ?_, ?_, ?_, ?_, ?_, ?_⟩, fun j => ⟨nofun, fun n hn => absurd hn (hnone n)⟩⟩
  · exact fun n hn => absurd hn (hnone n)
  · intro p hp
    rw [show (startup q pool).env.pool.inUse = [] from hfree] at hp
    cases hp
  · exact fun n hn => absurd hn (hnone n)
  · exact fun n _ hn => absurd hn (hnone n)
  · exact fun n hn => absurd hn (hnone n)
  · exact fun n hn => absurd hn (hnone n)
  · exact fun n hn => absurd hn (hnone n)
  · exact fun n hn => absurd hn (hnone n)
  · intro j n hn
    cases hn

-- Steps in which no `supervise` task is cancelled ahead of its first turn, and no session is
-- cancelled where it could lose sight of its port.
def PortSafe (c : FtpConfig) (a : FtpAct) (c' : FtpConfig) : Prop :=
  portProtocol.Meets c a ∧ Started c'.env

theorem passive_ports {clients : Clients} {q : SessionQueue} {pool : DataPortPool} {start stop : Int}
    {c : FtpConfig} (hpool : DataPortPool.init start stop = some pool)
    (hrun : (ftpProxy clients).Runs PortSafe (startup q pool) c) : PortsOwned c := by
  obtain ⟨h, _⟩ := Protocol.Holds.run (port_verified clients) (fun _ _ _ hok => hok) hrun
    (startup_ports hpool) (fun n hn => absurd hn (Nat.not_lt_zero n))
  have hk := h.inv
  have hlive : ∀ n, n < c.env.reserved → (c.env.relays n).live → (c.env.relays n).released = 0 :=
    fun n hn hl => hk.live n hn hl.1 hl.2
  refine ⟨?_, ?_, ?_, ?_, ?_, ?_, ?_⟩
  · exact fun n m hn hm hln hlm => hk.alone n m hn hm (hlive n hn hln) (hlive m hm hlm)
  · intro n hn hl
    have hin := hk.held n hn (hlive n hn hl)
    exact ⟨hin, fun hf => hk.apart.apart _ hf hin⟩
  · intro n hn
    by_cases hl : (c.env.relays n).phase = .over ∨ (c.env.relays n).phase = .unbound
    · exact Nat.le_of_eq (hk.spent n hn hl).1
    · have hzero := hk.live n hn (fun h => hl (.inl h)) (fun h => hl (.inr h))
      omega
  · intro n hn _
    rcases hk.known n hn with hf | hu
    · exact .inl hf
    · exact .inr (hk.owned _ hu)
  · intro n hn hne
    rcases hk.latest n hn with hret | hlink
    · exact hret
    · exact absurd hlink hne
  · intro j l s hj n hn ho
    have hproc := h.procs j
    rw [hj] at hproc
    exact hproc.given n hn ho
  · intro j s hj n hn ho
    have hproc := h.procs j
    rw [hj] at hproc
    rcases hproc.given n hn ho with hret | hkeep
    · exact hret
    · cases hkeep

def leaves (j n : Nat) : List FtpAct :=
  [.run j, .run j, .run j, .tick (.supervise n false), .resume j (.awaitTask n) (.error .cancelled),
    .resume j .clientClosed (.ok ())]

-- PASV and QUIT in one segment: the `supervise` task is cancelled before it has had a turn.
def pipelined : List FtpAct :=
  logsIn 0 ++ [.tick (.arrive 0 (line "PASV\r\n")), .tick (.arrive 0 (line "QUIT\r\n")), .run 0,
    .resume 0 (.startServer 50000) (.ok ())] ++ leaves 0 0

def spaced : List FtpAct :=
  logsIn 0 ++ [.tick (.arrive 0 (line "PASV\r\n")), .run 0, .resume 0 (.startServer 50000) (.ok ()),
    .tick (.supervise 0 false), .tick (.arrive 0 (line "QUIT\r\n"))] ++ leaves 0 0

def gone (c : FtpConfig) (j : Nat) : Bool :=
  match c.procs j with
  | .halted _ => true
  | _ => false

theorem pipelined_not_owned : ¬ ∀ c, (ftpProxy lan).Runs (fun _ _ _ => True) (startup oneSlot onePort) c →
    PortsOwned c := by
  intro h
  have hend : ((ftpProxy lan).runActs (startup oneSlot onePort) pipelined).map (fun c =>
      (gone c 0, c.env.reserved, c.env.relays 0 |>.owner,
        (c.env.relays 0).released, c.env.pool.free)) = some (true, 1, 0, 0, []) := by
    decide +kernel
  obtain ⟨c, hc, hfinal⟩ := Option.map_eq_some_iff.mp hend
  simp only [Prod.mk.injEq] at hfinal
  obtain ⟨hhalted, hres, howner, hrel, _⟩ := hfinal
  have howned := h c ((ftpProxy lan).runActs_runs pipelined hc)
  cases hproc : c.procs 0 with
  | halted s =>
      have hret := (howned.closed 0 s hproc 0 (by omega) howner).1
      omega
  | _ => simp [gone, hproc] at hhalted

def portCheck (_ : FtpConfig) (a : FtpAct) (c' : FtpConfig) : Bool :=
  (match a with
    | .resume _ (.startServer _) r => decide (r ≠ .error .cancelled)
    | .resume _ (.gatherHandlers _) r => decide (r ≠ .error .cancelled)
    | .resume _ .upstreamClosed r => decide (r = .ok ())
    | _ => true) &&
  decide (∀ n, n < c'.env.reserved →
    ¬ ((c'.env.relays n).phase = .created ∧ (c'.env.relays n).mustCancel = true))

theorem portCheck_safe (c : FtpConfig) (a : FtpAct) (c' : FtpConfig) (h : portCheck c a c' = true) :
    PortSafe c a c' := by
  simp only [portCheck, Bool.and_eq_true] at h
  have hstarted := of_decide_eq_true h.2
  refine ⟨?_, hstarted⟩
  cases a with
  | resume j i r =>
      intro l k s _
      cases i with
      | startServer port =>
          have hr := of_decide_eq_true h.1
          exact hr
      | gatherHandlers n =>
          have hr := of_decide_eq_true h.1
          exact hr
      | upstreamClosed =>
          intro _ x hx
          cases hx.symm.trans (of_decide_eq_true h.1)
      | _ => trivial
  | _ => trivial

theorem passive_ports_spaced : ∃ c, (ftpProxy lan).runWhile portCheck (startup oneSlot onePort) spaced = some c ∧
    PortsOwned c := by
  have hsome : ((ftpProxy lan).runWhile portCheck (startup oneSlot onePort) spaced).isSome = true := by
    decide +kernel
  obtain ⟨c, hc⟩ := Option.isSome_iff_exists.mp hsome
  exact ⟨c, hc, @passive_ports _ _ _ 50000 50000 _ rfl
    ((ftpProxy lan).runWhile_runs portCheck_safe spaced hc)⟩

end PandaProxy.FtpProxy
