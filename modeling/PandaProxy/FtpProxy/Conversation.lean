import PandaProxy.FtpProxy.Transcript

namespace PandaProxy.FtpProxy

open Async FtpQueue

namespace Session

open Proxy

def InOrder (allowed : Request → List Event → Prop) (log : List Event) : Prop :=
  ∀ request view earlier, (.asked request view :: earlier) <:+ log → allowed request earlier

theorem InOrder.cons {allowed : Request → List Event → Prop} {log : List Event} {v : Event}
    (h : InOrder allowed log) (hv : ∀ request view, v = .asked request view → allowed request log) :
    InOrder allowed (v :: log) := by
  intro request view earlier hs
  rcases List.suffix_cons_iff.mp hs with he | hs
  · obtain ⟨rfl, rfl⟩ := List.cons.inj he
    exact hv request view rfl
  · exact h request view earlier hs

def requestsOnly (allowed : Request → List Event → Prop) : Op → List Event → Prop
  | .writeUpstream request, log => allowed request log
  | _, _ => True

theorem requestsOnly_silent {allowed : Request → List Event → Prop} {i : Op} (hi : ∀ v, ¬ emits i v)
    (log : List Event) : requestsOnly allowed i log := by
  cases i with
  | writeUpstream request => exact absurd ⟨none, rfl⟩ (hi (.asked request none))
  | _ => trivial

abbrev logProtocol (allowed : Request → List Event → Prop) (lab : Label → ControlSession → List Event → Prop) :
    Protocol Nat Label ControlSession Proxy Op Op.Answer Exc Tick :=
  transcript (InOrder allowed) (requestsOnly allowed) lab

section

variable {allowed : Request → List Event → Prop} {lab : Label → ControlSession → List Event → Prop}
  {j : Nat} {l : Label}

structure Neutral (allowed : Request → List Event → Prop) (I : ControlSession → List Event → Prop)
    (i : Op) : Prop where
  stays : ∀ v s log, emits i v → I s log → I s (v :: log)
  covers : ∀ request s log, i = .writeUpstream request → I s log → allowed request log

theorem Neutral.silent {I : ControlSession → List Event → Prop} {i : Op} (h : ∀ v, ¬ emits i v) :
    Neutral allowed I i where
  stays v _ _ hv := absurd hv (h v)
  covers request _ _ hi := absurd ⟨none, rfl⟩ (hi ▸ h (.asked request none))

abbrev logWp (allowed : Request → List Event → Prop) (lab : Label → ControlSession → List Event → Prop)
    (j : Nat) (l : Label) {α : Type} (c : Session α) (Q : Except Exc α → ControlSession → Proxy → Prop)
    (s : ControlSession) (e : Proxy) : Prop :=
  wp (world j) ((logProtocol allowed lab).contract j l) c Q s e

abbrev Speaks (allowed : Request → List Event → Prop) (lab : Label → ControlSession → List Event → Prop)
    (j : Nat) (l : Label) (I J : ControlSession → List Event → Prop) {α : Type} (c : Session α) : Prop :=
  Keeps (world j) ((logProtocol allowed lab).contract j l) (fun s e => I s (e.log j))
    (fun s e => J s (e.log j)) c

theorem Neutral.abides {I : ControlSession → List Event → Prop} {i : Op} (hi : Neutral allowed I i) :
    Abides (requestsOnly allowed) I i where
  stays := hi.stays
  covers s log h := by
    cases i with
    | writeUpstream request => exact hi.covers request s log rfl h
    | _ => trivial

theorem speaks_ask {I : ControlSession → List Event → Prop} {i : Op} (hi : Neutral allowed I i) :
    Speaks allowed lab j l I I (ask i) :=
  narrates_ask hi.abides

theorem speaks_modify {I J : ControlSession → List Event → Prop} {f : ControlSession → ControlSession}
    (hf : ∀ s log, I s log → I (f s) log) : Speaks allowed lab j l I J (Coro.modify f) :=
  Keeps.modify (fun s _ h => hf s _ h)

theorem speaks_robust {I : ControlSession → List Event → Prop} :
    Robust (Neutral allowed I) (fun f => ∀ s log, I s log → I (f s) log) (Speaks allowed lab j l I I) where
  pure a := Keeps.pure a
  raise x := Keeps.raise (fun _ _ h => h) x
  get := Keeps.get
  bind hc hf := Keeps.bind hc hf
  modify := speaks_modify
  ask := speaks_ask
  attempt hi := Keeps.attempt (speaks_ask hi)
  attemptAll := Keeps.attempt

theorem speaks_composes {I J : ControlSession → List Event → Prop} (hIJ : ∀ s log, I s log → J s log) :
    Composes (Neutral allowed I) (fun f => ∀ s log, I s log → I (f s) log)
      (Speaks allowed lab j l I J) where
  pure a := Keeps.pure a
  raise x := Keeps.raise (fun s _ h => hIJ s _ h) x
  get := Keeps.get
  bind hc hf := Keeps.bind hc hf
  modify := speaks_modify
  ask hi := Keeps.weaken (fun s _ h => hIJ s _ h) (speaks_ask hi)
  attempt hi := Keeps.attempt (speaks_ask hi)

variable {s : ControlSession} {e : Proxy}

theorem logWp_silent {i : Op} (hi : ∀ v, ¬ emits i v)
    {Q : Except Exc i.Answer → ControlSession → Proxy → Prop}
    (hQ : ∀ r e', e'.log j = e.log j → Q r s e') : logWp allowed lab j l (ask i) Q s e :=
  transcriptWp_silent (requestsOnly_silent hi _) hi hQ

theorem logWp_writeClient {line : String} {Q : Except Exc Unit → ControlSession → Proxy → Prop}
    (hQ : ∀ e', e'.log j = .told line :: e.log j → Q (.ok ()) s e') :
    logWp allowed lab j l (ask (.writeClient line)) Q s e :=
  transcriptWp_writeClient trivial hQ

theorem logWp_send {line : String} {Q : Except Exc Unit → ControlSession → Proxy → Prop}
    (hQ : ∀ r e', e'.log j = .told line :: e.log j → Q r s e') :
    logWp allowed lab j l (send line) Q s e := by
  refine wp_bind _ _ s e (logWp_writeClient (fun e' he' => ?_))
  exact logWp_silent (i := .drainClient) (fun _ hv => hv) (fun r e'' he => hQ r e'' (he.trans he'))

theorem logWp_writeUpstream {request : Request} {Q : Except Exc Unit → ControlSession → Proxy → Prop}
    (ha : allowed request (e.log j))
    (hQ : ∀ view e', e'.log j = .asked request view :: e.log j → Q (.ok ()) s e') :
    logWp allowed lab j l (ask (.writeUpstream request)) Q s e :=
  transcriptWp_writeUpstream ha hQ

theorem logWp_readReply {Q : Except Exc (Option String) → ControlSession → Proxy → Prop}
    (hQ : ∀ reply e', e'.log j = .answered reply :: e.log j → Q (.ok reply) s e')
    (hx : ∀ x e', e'.log j = e.log j → Q (.error x) s e') :
    logWp allowed lab j l (ask .readReply) Q s e :=
  transcriptWp_readReply trivial hQ hx

theorem logWp_openConnection {Q : Except Exc Unit → ControlSession → Proxy → Prop}
    (hQ : ∀ e', e'.log j = .opened :: e.log j → Q (.ok ()) s e')
    (hx : ∀ x e', e'.log j = e.log j → Q (.error x) s e') :
    logWp allowed lab j l (ask .openConnection) Q s e :=
  transcriptWp_openConnection trivial hQ hx

theorem logWp_readline {timeout : ℚ} {Q : Except Exc (List UInt8) → ControlSession → Proxy → Prop}
    (hQ : ∀ raw e', e'.log j = .received raw :: e.log j → Q (.ok raw) s e')
    (hx : ∀ x e', e'.log j = e.log j → Q (.error x) s e') :
    logWp allowed lab j l (ask (.readline timeout)) Q s e :=
  transcriptWp_readline trivial hQ hx

theorem logWp_sendUpstream {request : Request}
    {Q : Except Exc (Option String) → ControlSession → Proxy → Prop} (hu : s.upstream = true)
    (ha : allowed request (e.log j))
    (hQ : ∀ now reply view e', e'.log j = .answered reply :: .asked request view :: e.log j →
      Q (.ok reply) { s with upstreamLastUsed := now } e')
    (hx : ∀ x s' e', Q (.error x) s' e') : logWp allowed lab j l (sendUpstream request) Q s e := by
  refine wp_bind _ _ s e ?_
  simp only [wp_get, hu, if_true]
  refine wp_bind _ _ s e (logWp_silent (i := .monotonic) (fun _ hv => hv) (fun r e₁ h₁ => ?_))
  cases r with
  | error x => exact hx x _ _
  | ok now =>
      refine wp_bind _ _ s e₁ ((wp_modify _).mpr ?_)
      refine wp_bind _ _ _ e₁ (logWp_writeUpstream (h₁ ▸ ha) (fun view e₂ h₂ => ?_))
      refine wp_bind _ _ _ e₂ (logWp_silent (i := .drainUpstream) (fun _ hv => hv) (fun r e₃ h₃ => ?_))
      cases r with
      | error x => exact hx x _ _
      | ok u =>
          refine wp_bind _ _ _ e₃ (wp_get.mpr ?_)
          dsimp only
          rw [if_pos hu]
          refine logWp_readReply (fun reply e₄ h₄ => hQ now reply view e₄ ?_) (fun x e₄ _ => hx x _ e₄)
          rw [h₄, h₃, h₂, h₁]

end

theorem idle_returns : Returns (fun next => next ≠ Label.start) idle := by
  refine returns_bind _ (fun s => ?_)
  split
  · refine returns_bind _ (fun now => ?_)
    split
    · exact nofun
    · exact returns_bind _ (fun _ => nofun)
  · exact nofun

theorem serve_returns (line : String) : Returns (fun next => next ≠ Label.start) (serve line) := by
  refine returns_bind _ (fun s => ?_)
  split
  · exact returns_bind _ (fun _ => nofun)
  split
  · exact returns_bind _ (fun _ => nofun)
  split
  · exact returns_bind _ (fun _ => nofun)
  split
  · exact returns_bind _ (fun _ => nofun)
  · refine returns_bind _ (fun handled => ?_)
    split
    · exact nofun
    · exact returns_bind _ (fun _ => nofun)

theorem readAndServe_returns : Returns (fun next => next ≠ Label.start) readAndServe := by
  refine returns_bind _ (fun timeout => returns_bind _ (fun outcome => ?_))
  split
  · exact idle_returns
  · exact nofun
  · exact nofun
  · exact nofun
  · trivial
  · split
    · exact nofun
    · exact serve_returns _

section

variable {allowed : Request → List Event → Prop} {lab : Label → ControlSession → List Event → Prop}
  {I : ControlSession → List Event → Prop} {j : Nat} {l : Label} {s : ControlSession} {e : Proxy}

theorem close_speaks : Speaks allowed lab j l (fun _ _ => True) (fun _ _ => True) close := by
  have hc := @speaks_robust allowed lab j l (fun _ _ => True)
  have hplain : ∀ {i}, (∀ request, i ≠ .writeUpstream request) → Neutral allowed (fun _ _ => True) i :=
    fun hi => ⟨fun _ _ _ _ _ => trivial, fun request _ _ he _ => absurd he (hi request)⟩
  refine hc.bind (hc.releaseUpstream ?_ (fun _ _ _ => trivial)) (fun _ => ?_)
  · constructor
    all_goals first
    | exact hplain nofun
    | exact fun _ _ _ => trivial
  refine hc.bind (hc.cancelDataRelay ?_) (fun _ => ?_)
  · constructor
    all_goals
      intros
      first
      | exact hplain nofun
      | trivial
  exact hc.closeClientWriter (hplain nofun) (hplain nofun) (hplain nofun)

structure Between (I : ControlSession → List Event → Prop)
    (lab : Label → ControlSession → List Event → Prop) : Prop where
  closing : ∀ s log, lab .closing s log
  running : lab .running = I
  reading : lab .reading = I

abbrev Then (I : ControlSession → List Event → Prop) (j : Nat) {α : Type} (r : Except Exc α)
    (s : ControlSession) (e : Proxy) : Prop :=
  Ends (fun s e => I s (e.log j)) (fun _ _ => True) r s e

namespace Between

variable (hI : Between I lab)
  (hstart : ∀ s e, lab .start s (e.log j) →
    logWp allowed lab j .start (send "220 PandaProxy FTP ready\r\n") (Then I j) s e)
  (hread : ∀ s e, I s (e.log j) → logWp allowed lab j .reading readAndServe (Then I j) s e)

include hI hstart hread

theorem turn (hl : l ≠ .closing) (h : lab l s (e.log j)) :
    logWp allowed lab j l (turn l) (fun r s' e' =>
      match r with
      | .ok next => next ≠ .start ∧ I s' (e'.log j)
      | .error _ => True) s e := by
  cases l with
  | start =>
      refine wp_bind _ _ s e (wp_mono _ ?_ s e (hstart s e h))
      intro r s' e' h'
      cases r with
      | ok _ => exact ⟨nofun, h'⟩
      | error _ => trivial
  | running =>
      rw [hI.running] at h
      refine wp_bind _ _ s e (logWp_silent (i := .running) (fun _ hv => hv) (fun r e₁ h₁ => ?_))
      cases r with
      | error x => trivial
      | ok running =>
          refine ⟨by cases running <;> nofun, ?_⟩
          rw [h₁]
          exact h
  | reading =>
      rw [hI.reading] at h
      refine wp_mono _ ?_ s e (wp_returns _ readAndServe_returns s e (hread s e h))
      rintro r s' e' ⟨hne, h'⟩
      cases r with
      | ok next => exact ⟨hne next rfl, h'⟩
      | error _ => trivial
  | closing => exact absurd rfl hl

theorem body {clients : Clients} (h : lab l s (e.log j)) :
    logWp allowed lab j l (body l) ((logProtocol allowed lab).post (ftpProxy clients) j l) s e := by
  have hturn : l ≠ .closing → logWp allowed lab j l (Session.turn l >>= fun next => pure (some next))
      ((logProtocol allowed lab).post (ftpProxy clients) j l) s e := by
    intro hl
    refine wp_bind _ _ s e (wp_mono _ ?_ s e (hI.turn hstart hread hl h))
    intro r s' e' h'
    cases r with
    | ok next =>
        cases next with
        | start => exact absurd rfl h'.1
        | closing => exact hI.closing _ _
        | running =>
            show lab .running s' (e'.log j)
            rw [hI.running]
            exact h'.2
        | reading =>
            show lab .reading s' (e'.log j)
            rw [hI.reading]
            exact h'.2
    | error x =>
        cases l with
        | closing => exact absurd rfl hl
        | _ => exact hI.closing _ _
  cases l with
  | start => exact hturn nofun
  | running => exact hturn nofun
  | reading => exact hturn nofun
  | closing =>
      refine wp_bind _ _ s e (wp_mono _ ?_ s e (close_speaks s e trivial))
      intro r s' e' _
      cases r <;> exact hI.closing _ _

end Between

end

theorem log_verified {allowed : Request → List Event → Prop}
    {lab : Label → ControlSession → List Event → Prop} {clients : Clients}
    (hbody : ∀ j l s e, lab l s (e.log j) →
      logWp allowed lab j l (body l) ((logProtocol allowed lab).post (ftpProxy clients) j l) s e)
    (hstart : ∀ localIp localIpv4,
      lab .start (.init clients.accessCode clients.printerIp localIp localIpv4) []) :
    (logProtocol allowed lab).Verified (ftpProxy clients) := by
  refine transcript_verified (fun i v log hgood hp hv => hgood.cons ?_) hbody hstart
  rintro request view rfl
  cases emits_asked hv
  exact hp

theorem log_runs {allowed : Request → List Event → Prop}
    {lab : Label → ControlSession → List Event → Prop} {clients : Clients} {q : SessionQueue}
    {pool : DataPortPool} {c : FtpConfig} (hV : (logProtocol allowed lab).Verified (ftpProxy clients))
    (hrun : (ftpProxy clients).Runs (fun _ _ _ => True) (startup q pool) c) (j : Nat) :
    InOrder allowed (c.env.log j) :=
  transcript_runs (fun request view earlier hs => absurd (List.suffix_nil.mp hs) (by simp)) hV hrun j

end Session

end PandaProxy.FtpProxy
