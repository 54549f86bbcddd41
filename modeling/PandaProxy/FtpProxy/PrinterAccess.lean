import PandaProxy.Async.Confined
import PandaProxy.FtpProxy.Conversation
import PandaProxy.FtpProxy.LinkFrames
import PandaProxy.FtpProxy.Settings

namespace PandaProxy.FtpProxy

open Async FtpQueue

-- Answered without the printer, whatever the state of the session.
def localCommands : List String :=
  ["", "USER", "PASS", "AUTH", "FEAT", "SYST", "NOOP", "OPTS", "PORT", "EPRT", "PASV", "EPSV", "QUIT"]

-- The right `PASS`.
def passes (accessCode : String) (raw : List UInt8) : Prop := parseLine (decodeLine raw) = ("PASS", accessCode)

def lines (log : List Event) : List (List UInt8) :=
  log.filterMap fun
    | .received raw => some raw
    | _ => none

def contacts (log : List Event) : List Event :=
  log.filter fun
    | .opened => true
    | .asked _ _ => true
    | _ => false

structure Dispatch where
  raw : List UInt8
  session : ControlSession
  env : Proxy

namespace Dispatch

def command (d : Dispatch) : String := (parseLine (decodeLine d.raw)).1

structure NeedsPrinter (d : Dispatch) : Prop where
  known : d.session.authenticated = true
  remote : d.command ∉ localCommands
  mode : d.command ∈ modeCommands → d.session.upstream = true
  channel : d.command ∈ transferCommands →
    ∃ x, d.session.data = some x ∧ (d.env.relays x.relay).endpoint.done = false
  settings : d.session.lostSettings ≠ [] → d.command ∈ statefulCommands

end Dispatch

structure Stranger (accessCode : String) (s : ControlSession) : Prop where
  accessCode : s.accessCode = accessCode
  authenticated : s.authenticated = false
  upstream : s.upstream = false
  holdsSlot : s.holdsSlot = false
  data : s.data = none
  state : s.state = fun _ => none
  cwd : s.cwd = "/"
  lostSettings : s.lostSettings = []

namespace Session

open Proxy ControlSession

def sessionOf : Proc Label ControlSession Op Op.Answer Exc → Option ControlSession
  | .idle => none
  | .ready _ s => some s
  | .waiting _ _ _ s => some s
  | .halted s => some s

-- The last line each session got, as it was when it got it.
def dispatch (c c' : FtpConfig) (d : Nat → Option Dispatch) : Nat → Option Dispatch := fun j =>
  match lines (c'.env.log j), sessionOf (c.procs j) with
  | raw :: earlier, some s => if earlier = lines (c.env.log j) then some ⟨raw, s, c.env⟩ else d j
  | _, _ => d j

def unread : Op → Bool
  | .readline _ => false
  | _ => true

def quiet : Op → Bool
  | .readline _ => false
  | .createAcquire _ => false
  | .openConnection => false
  | .writeUpstream _ => false
  | _ => true

def strange : Op → Bool
  | .acquirePort => false
  | i => quiet i

theorem quiet_of_strange {i : Op} (h : strange i = true) : quiet i = true := by
  cases i <;> first | rfl | exact h

theorem unread_of_quiet {i : Op} (h : quiet i = true) : unread i = true := by
  cases i <;> first | rfl | exact h

theorem confined_robust {j : Nat} {P : Op → Prop} {I : ControlSession → Prop} :
    Robust P (fun f => ∀ s, I s → I (f s)) (Confined (world j) P I) where
  pure a := Keeps.pure a
  raise x := Keeps.raise (fun _ _ h => h) x
  get := Keeps.get
  bind hc hf := Keeps.bind hc hf
  modify hf := Keeps.modify fun s _ h => hf s h
  ask := confined_perform
  attempt hi := Keeps.attempt (confined_perform hi)
  attemptAll := Keeps.attempt

section

variable {j : Nat} {P : Op → Prop} {I : ControlSession → Prop}

theorem confined_send (hP : ∀ i, strange i = true → P i) (line : String) : Confined (world j) P I (send line) :=
  confined_robust.bind (confined_robust.ask (hP _ rfl)) fun _ => confined_robust.ask (hP _ rfl)

theorem strange_closes (hP : ∀ i, strange i = true → P i) (hI : ∀ s, I s → I { s with holdsSlot := false }) :
    Closes P fun f => ∀ s, I s → I (f s) :=
  ⟨hP _ rfl, hP _ rfl, hP _ rfl, hP _ rfl, hI⟩

theorem confined_release (hP : ∀ i, strange i = true → P i) (hslot : ∀ s, I s → I { s with holdsSlot := false })
    (hdrop : ∀ s, I s → I { s with upstream := false }) : Confined (world j) P I releaseUpstream :=
  confined_robust.releaseUpstream (strange_closes hP hslot) hdrop

theorem confined_cancel (hP : ∀ i, strange i = true → P i)
    (hclear : ∀ s, I s → I { s with data := none, passiveMode := none }) :
    Confined (world j) P I cancelDataRelay := by
  refine confined_robust.bind confined_robust.get fun s => confined_robust.bind (confined_robust.modify hclear) fun _ => ?_
  cases s.data with
  | none => exact confined_robust.pure ()
  | some d =>
      have hrest : Confined (world j) P I (ask (.cancelTask d.relay) >>= fun _ =>
          Coro.suppress (fun x => x == .cancelled || x == .timeout) (ask (.awaitTask d.relay))) :=
        confined_robust.bind (confined_robust.ask (hP _ rfl)) fun _ =>
          confined_robust.suppress (confined_robust.attempt (hP _ rfl))
      refine confined_robust.bind (confined_robust.ask (hP _ rfl)) fun any => ?_
      split
      · exact confined_robust.bind (confined_robust.ask (hP _ rfl)) fun _ => hrest
      · exact hrest

theorem confined_close (hP : ∀ i, strange i = true → P i) (hslot : ∀ s, I s → I { s with holdsSlot := false })
    (hdrop : ∀ s, I s → I { s with upstream := false })
    (hclear : ∀ s, I s → I { s with data := none, passiveMode := none }) : Confined (world j) P I close := by
  refine confined_robust.bind (confined_release hP hslot hdrop) fun _ => ?_
  refine confined_robust.bind (confined_cancel hP hclear) fun _ => ?_
  exact confined_robust.closeClientWriter (hP _ rfl) (hP _ rfl) (hP _ rfl)

theorem confined_idle (hP : ∀ i, strange i = true → P i) (hslot : ∀ s, I s → I { s with holdsSlot := false })
    (hdrop : ∀ s, I s → I { s with upstream := false }) : Confined (world j) P I idle := by
  refine confined_robust.bind confined_robust.get fun s => ?_
  split
  · refine confined_robust.bind (confined_robust.ask (hP _ rfl)) fun now => ?_
    split
    · exact confined_robust.pure _
    · exact confined_robust.bind (confined_release hP hslot hdrop) fun _ => confined_robust.pure _
  · exact confined_robust.pure _

def afterRead : Except Exc (List UInt8) → Session Label
  | .error .timeout => idle
  | .error .connectionReset => pure .closing
  | .error .ssl => pure .closing
  | .error .value => pure .closing
  | .error x => Coro.raise x
  | .ok raw => if raw.isEmpty ∨ raw.length > maxControlLine then pure .closing else serve (decodeLine raw)

theorem readAndServe_eq : readAndServe = readTimeout >>= fun t => .call (.readline t) afterRead := by
  show Coro.bind readTimeout _ = Coro.bind readTimeout _
  congr
  funext t
  show Coro.call _ _ = Coro.call _ _
  congr
  funext r
  cases r with
  | ok raw => rfl
  | error x => cases x <;> rfl

theorem body_reading (s : ControlSession) (e : Proxy) : ∃ t, drive (world j) (body .reading) s e =
    drive (world j) (.call (.readline t) fun r => afterRead r >>= fun next => pure (some next)) s e := by
  have hbody : body .reading = (readTimeout >>= fun t => .call (.readline t) afterRead) >>= fun next => pure (some next) := by
    rw [← readAndServe_eq]
    rfl
  rw [hbody]
  obtain ⟨_, _, _, _, _, upstream, _, lastUsed⟩ := s
  cases upstream with
  | false => exact ⟨clientIdleTimeout, rfl⟩
  | true => exact ⟨max 1 (upstreamIdleTimeout - (e.now - lastUsed)), rfl⟩

end

abbrev AnySession (_ : ControlSession) : Prop := True

theorem any_session {P : Op → Prop} {j : Nat} {α : Type} {c : Session α} (h : Confined (world j) P AnySession c)
    (s : ControlSession) (e : Proxy) : ConfinedAt (world j) P AnySession c s e := h.at trivial e

section

variable {j : Nat} {s : ControlSession} {e : Proxy}

theorem Robust.serve_calls {plain : Op → Prop} {quiet : (ControlSession → ControlSession) → Prop}
    {K : {α : Type} → Session α → Prop} (hc : Robust plain quiet K) {line : String} (hquiet : ∀ f, quiet f)
    (hplain : ∀ i, unread i = true → (∀ command argument l, i = .writeUpstream (.forward command argument l) → l = line) →
      plain i) : K (serve line) := by
  have hother : ∀ i, unread i = true → (∀ command argument l, i ≠ .writeUpstream (.forward command argument l)) → plain i :=
    fun i hi hno => hplain i hi fun command argument l he => absurd he (hno command argument l)
  have ht : Talks plain quiet := by
    refine ⟨⟨⟨?_, ?_, ?_, ?_, ?_⟩, ?_, ?_, ?_⟩, ?_, ?_, ?_, ?_, ?_, ?_, ?_, ?_, ?_, ?_⟩
    all_goals
      intros
      first
      | exact hother _ rfl nofun
      | exact hquiet _
  have hto : Hands plain := ⟨fun _ => hother _ rfl nofun, fun _ => hother _ rfl nofun, fun _ _ _ => hother _ rfl nofun⟩
  have hr : Relays plain quiet := by
    constructor
    all_goals
      intros
      first
      | exact hother _ rfl nofun
      | exact hquiet _
  have hrelease : K Session.releaseUpstream :=
    hc.releaseUpstream ⟨hother _ rfl nofun, hother _ rfl nofun, hother _ rfl nofun, hother _ rfl nofun, hquiet _⟩ (hquiet _)
  have hqueues : Queues plain := by
    constructor
    all_goals
      intros
      exact hother _ rfl nofun
  have hensure := fun p => hc.ensureUpstream hqueues ht.toAsks (hother _ rfl nofun) (hquiet _) (hquiet _) hrelease
    (hc.replayState ht.toAsks (fun _ _ _ => hother _ rfl nofun) fun _ => hquiet _) p
  refine hc.serve ht (hc.openPassiveRelay hr) (hc.handleLocal ht fun _ => ⟨hquiet _, hquiet _⟩) ?_
  refine hc.handleUpstream ht.toRefuses (hc.cancelDataRelay hr) hrelease hto hensure ?_
  refine hc.forward (hc.cancelDataRelay hr) hrelease ht (hplain _ rfl ?_) fun _ => hquiet _
  rintro _ _ _ ⟨⟩
  rfl

theorem unread_serve (line : String) : Confined (world j) (fun i => unread i = true) AnySession (serve line) :=
  confined_robust.serve_calls (fun _ _ _ => trivial) fun _ hi _ => hi

theorem quiet_handlePassiveRequest (command argument : String) :
    Confined (world j) (fun i => quiet i = true) AnySession (handlePassiveRequest command argument) := by
  have hc := @confined_robust j (fun i => quiet i = true) AnySession
  have hsend := fun line => @confined_send j (fun i => quiet i = true) AnySession (fun _ => quiet_of_strange) line
  have hr : Relays (fun i => quiet i = true) fun f => ∀ s, AnySession s → AnySession (f s) := by
    constructor
    all_goals
      intros
      first
      | rfl
      | trivial
  refine hc.bind hc.get fun s => ?_
  split
  · exact hsend _
  split
  · exact hsend _
  · refine hc.bind (hc.openPassiveRelay hr) fun localPort => ?_
    cases localPort with
    | none => exact hsend _
    | some localPort =>
        refine hc.bind (hc.modify fun _ _ => trivial) fun _ => ?_
        split <;> exact hsend _

theorem handleLocal_wp {P : Op → Prop} (hP : ∀ i, strange i = true → P i) {I : ControlSession → Prop}
    {command argument : String} {Q : Except Exc Bool → ControlSession → Proxy → Prop} (hs : I s)
    (hdone : ∀ r s' e', I s' → r ≠ .ok false → Q r s' e')
    (hlogin : command = "PASS" → argument = s.accessCode → I { s with authenticated := true })
    (hset : command ∈ statefulCommands → I (discardLost command (setState command (some argument) s)))
    (hpass : command ∉ ["USER", "PASS", "PORT", "EPRT", "AUTH", "FEAT", "SYST", "NOOP", "OPTS"] →
      (command ∈ modeCommands → s.upstream = true) → Q (.ok false) s e) :
    wp (world j) (confine P I) (handleLocal command argument) Q s e := by
  have hanswer : ∀ line s' e', I s' → wp (world j) (confine P I) (send line >>= fun _ => pure true) Q s' e' := by
    intro line s' e' hs'
    refine wp_bind _ _ s' e' (wp_mono _ ?_ s' e' (confined_send hP line s' e' hs'))
    intro r s₁ e₁ h₁
    cases r with
    | ok _ => exact hdone _ _ _ h₁ nofun
    | error _ => exact hdone _ _ _ h₁ nofun
  refine wp_bind _ _ s e (wp_get.mpr ?_)
  dsimp only
  split
  · exact hanswer _ _ _ hs
  split
  · next hpassword =>
      split
      · exact hanswer _ _ _ hs
      · next hright =>
          exact wp_bind _ _ _ _ ((wp_modify _).mpr (hanswer _ _ _ (hlogin hpassword (not_not.mp hright))))
  split
  · exact hanswer _ _ _ hs
  split
  · exact hanswer _ _ _ hs
  split
  · refine wp_bind _ _ _ _ (wp_mono _ ?_ _ _ (confined_send hP _ s e hs))
    intro r s₁ e₁ h₁
    cases r with
    | ok _ => exact hanswer _ _ _ h₁
    | error _ => exact hdone _ _ _ h₁ nofun
  split
  · exact hanswer _ _ _ hs
  split
  · exact hanswer _ _ _ hs
  next h1 h2 h3 h4 h5 h6 h7 =>
    have hremote : command ∉ ["USER", "PASS", "PORT", "EPRT", "AUTH", "FEAT", "SYST", "NOOP", "OPTS"] := by
      simp only [List.mem_cons, List.not_mem_nil, or_false, not_or] at h3 h7 ⊢
      exact ⟨h1, h2, h3.1, h3.2, h4, h5, h6, h7.1, h7.2⟩
    split
    · next hstate =>
        split
        · next hdir =>
            refine hpass hremote fun hmode => ?_
            simp only [modeCommands, List.mem_cons, List.not_mem_nil, or_false] at hdir hmode
            rcases hdir with rfl | rfl <;> simp at hmode
        split
        · next hup => exact hpass hremote fun _ => hup
        · refine wp_bind _ _ _ _ ((wp_modify _).mpr (wp_bind _ _ _ _ ((wp_modify _).mpr ?_)))
          exact hanswer _ _ _ (hset hstate)
    · next hstate =>
        refine hpass hremote fun hmode => absurd ?_ hstate
        simp only [modeCommands, List.mem_cons, List.not_mem_nil, or_false] at hmode
        rcases hmode with rfl | rfl | rfl <;> decide

theorem quiet_handleUpstream {command argument line : String}
    (hlost : command ∈ transferCommands → s.lostSettings = [] ∨ command ∈ statefulCommands →
      ∀ x, s.data = some x → (e.relays x.relay).endpoint.done = true)
    (hplain : command ∉ transferCommands → s.lostSettings ≠ [] ∧ command ∉ statefulCommands) :
    ConfinedAt (world j) (fun i => quiet i = true) AnySession (handleUpstream command argument line) s e := by
  have hsend := fun line s e =>
    any_session (@confined_send j (fun i => quiet i = true) AnySession (fun _ => quiet_of_strange) line) s e
  refine wp_bind _ _ s e (wp_get.mpr ?_)
  dsimp only
  split
  · exact hsend _ s e
  next hgo =>
    split
    · next ht =>
        have hdone := hlost ht (by tauto)
        split
        · exact hsend _ s e
        · next x hx =>
            refine wp_bind _ _ s e (wp_sync rfl ⟨rfl, trivial⟩ fun _ => ?_)
            dsimp only
            rw [hdone x hx, if_pos rfl]
            exact hsend _ s e
    · next ht => exact absurd (hplain ht) hgo

theorem quiet_serve {raw : List UInt8} {e₂ : Proxy} (hrelays : e₂.relays = e.relays)
    (hneeds : ¬ (Dispatch.mk raw s e).NeedsPrinter) :
    ConfinedAt (world j) (fun i => quiet i = true) AnySession (serve (decodeLine raw)) s e₂ := by
  have hP : ∀ i, strange i = true → quiet i = true := fun _ => quiet_of_strange
  have hc := @confined_robust j (fun i => quiet i = true) AnySession
  have hsend : ∀ line (l : Label), ConfinedAt (world j) (fun i => quiet i = true) AnySession
      (send line >>= fun _ => pure l) s e₂ := fun line l =>
    any_session (hc.bind (confined_send hP line) fun _ => hc.pure l) s e₂
  refine wp_bind _ _ s e₂ (wp_get.mpr ?_)
  dsimp only
  split
  · exact hsend _ _
  split
  · exact hsend _ _
  split
  · exact hsend _ _
  split
  · exact any_session (hc.bind (quiet_handlePassiveRequest _ _) fun _ => hc.pure _) s e₂
  next hempty hquit hauth hpassive =>
    refine wp_bind _ _ s e₂ (handleLocal_wp (I := AnySession) hP trivial (fun r s' e' _ hr => ?_)
      (fun _ _ => trivial) (fun _ => trivial) fun hlocal hmode => ?_)
    · cases r with
      | ok handled =>
          cases handled with
          | true => exact trivial
          | false => exact absurd rfl hr
      | error _ => trivial
    · refine ConfinedAt.bind ?_ fun _ => hc.pure _
      have hremote : (Dispatch.mk raw s e).command ∉ localCommands := by
        simp only [localCommands, Dispatch.command, List.mem_cons, List.not_mem_nil, or_false, not_or] at hlocal hpassive ⊢
        tauto
      have hknown : s.authenticated = true := by
        rcases hs : s.authenticated with _ | _
        · have hpre : (parseLine (decodeLine raw)).1 ∈ preAuthCommands := by
            by_contra hnot
            exact hauth ⟨by simp [hs], hnot⟩
          exfalso
          simp only [preAuthCommands, List.mem_cons, List.not_mem_nil, or_false, not_or] at hlocal hpre
          tauto
        · rfl
      refine quiet_handleUpstream (fun ht hgo x hx => ?_) fun ht => ?_
      · rw [hrelays]
        by_contra hopen
        refine hneeds ⟨hknown, hremote, hmode, fun _ => ⟨x, hx, by simpa using hopen⟩, fun hlost => ?_⟩
        exact hgo.resolve_left hlost
      · by_contra hgo
        refine hneeds ⟨hknown, hremote, hmode, fun ht' => absurd ht' ht, fun hlost => ?_⟩
        by_contra hstate
        exact hgo ⟨hlost, hstate⟩

def Permits (j : Nat) (d : Option Dispatch) {α : Type} (c : Session α) (s : ControlSession) (e : Proxy) : Prop :=
  ConfinedAt (world j) (fun i => quiet i = true) AnySession c s e ∨
    (∃ x, d = some x ∧ x.NeedsPrinter) ∧ ConfinedAt (world j) (fun i => unread i = true) AnySession c s e

theorem Permits.bind {d : Option Dispatch} {α β : Type} {c : Session α} (h : Permits j d c s e) {f : α → Session β}
    (hf : ∀ a, Confined (world j) (fun i => quiet i = true) AnySession (f a)) : Permits j d (c >>= f) s e := by
  rcases h with h | ⟨hneeds, h⟩
  · exact .inl (h.bind hf)
  · refine .inr ⟨hneeds, h.bind fun a s e hs => ?_⟩
    have := ((hf a).at hs e).imp (fun _ => unread_of_quiet) (fun _ _ => trivial)
    exact wp_mono _ (fun r s e _ => by cases r <;> trivial) s e this

def delivered : (i : Op) → Except Exc i.Answer → Option (List UInt8)
  | .readline _, .ok raw => some raw
  | _, _ => none

theorem confined_afterRead {P : Op → Prop} {I : ControlSession → Prop} (hP : ∀ i, strange i = true → P i)
    (hslot : ∀ s, I s → I { s with holdsSlot := false }) (hdrop : ∀ s, I s → I { s with upstream := false }) (x : Exc) :
    Confined (world j) P I (afterRead (.error x)) := by
  cases x <;> first
  | exact confined_idle hP hslot hdrop
  | exact confined_robust.pure _
  | exact confined_robust.raise _

theorem permits_afterRead (raw : List UInt8) {e₂ : Proxy} (hrelays : e₂.relays = e.relays) :
    Permits j (some ⟨raw, s, e⟩) (afterRead (.ok raw)) s e₂ := by
  simp only [afterRead]
  split
  · exact .inl trivial
  · rcases Classical.em (Dispatch.mk raw s e).NeedsPrinter with hneeds | hneeds
    · exact .inr ⟨⟨_, rfl, hneeds⟩, any_session (unread_serve _) s e₂⟩
    · exact .inl (quiet_serve hrelays hneeds)

theorem stranger_serve {accessCode : String} (hs : Stranger accessCode s) {raw : List UInt8}
    (hraw : ¬ passes accessCode raw) :
    ConfinedAt (world j) (fun i => strange i = true) (Stranger accessCode) (afterRead (.ok raw)) s e := by
  have hP : ∀ i, strange i = true → strange i = true := fun _ h => h
  have hc := @confined_robust j (fun i => strange i = true) (Stranger accessCode)
  have hsend : ∀ line (l : Label), ConfinedAt (world j) (fun i => strange i = true) (Stranger accessCode)
      (send line >>= fun _ => pure l) s e := fun line l =>
    (hc.bind (confined_send hP line) fun _ => hc.pure l).at hs e
  simp only [afterRead]
  split
  · exact hs
  refine wp_bind _ _ s e (wp_get.mpr ?_)
  dsimp only
  split
  · exact hsend _ _
  split
  · exact hsend _ _
  split
  · exact hsend _ _
  next hempty hquit hauth =>
    have hpre : (parseLine (decodeLine raw)).1 ∈ preAuthCommands := by
      by_contra hnot
      exact hauth ⟨by simp [hs.authenticated], hnot⟩
    simp only [preAuthCommands, List.mem_cons, List.not_mem_nil, or_false] at hpre
    split
    · next hpassive =>
        exfalso
        simp only [List.mem_cons, List.not_mem_nil, or_false] at hpassive
        rcases hpassive with hc | hc <;> simp [hc] at hpre
    refine wp_bind _ _ s e (handleLocal_wp hP hs (fun r s' e' h' hr => ?_) (fun hpassword hright => ?_) (fun hstate => ?_)
      fun hlocal => ?_)
    · cases r with
      | ok handled =>
          cases handled with
          | true => exact h'
          | false => exact absurd rfl hr
      | error _ => exact h'
    · exact absurd (Prod.ext hpassword (hright.trans hs.accessCode)) hraw
    · exfalso
      simp only [statefulCommands, List.mem_cons, List.not_mem_nil, or_false] at hstate
      rcases hstate with hc | hc | hc | hc | hc <;> simp [hc] at hpre
    · exfalso
      simp only [List.mem_cons, List.not_mem_nil, or_false, not_or] at hlocal
      tauto

end

section

variable {j : Nat} {i : Op} {e e' : Proxy}

theorem lines_kept (hl : Logs j i e e') (hi : unread i = true) : lines (e'.log j) = lines (e.log j) := by
  rcases hl.own with h | ⟨v, hv, h⟩
  · rw [h]
  · rw [h]
    cases i <;> simp only [emits] at hv <;> first
    | (subst hv; rfl)
    | (obtain ⟨_, rfl⟩ := hv; first | rfl | cases hi)

theorem contacts_kept (hl : Logs j i e e') (hi : ∀ request, i ≠ .writeUpstream request) (hopen : i ≠ .openConnection) :
    contacts (e'.log j) = contacts (e.log j) := by
  rcases hl.own with h | ⟨v, hv, h⟩
  · rw [h]
  · rw [h]
    cases i <;> simp only [emits] at hv <;> first
    | exact absurd rfl hopen
    | exact absurd rfl (hi _)
    | (subst hv; rfl)
    | (obtain ⟨_, rfl⟩ := hv; rfl)

def reach (e : Proxy) (j : Nat) : Option Nat × List Event := ((e.links j).call, contacts (e.log j))

theorem reach_sync {r : Except Exc i.Answer} (hi : quiet i = true) (h : sync j i e = some (r, e')) :
    reach e' j = reach e j := by
  have hcall := sync_blind (call_blind (by rintro p rfl; cases hi) j) h j trivial
  have hcontacts := contacts_kept (sync_logs h) (by rintro p rfl; cases hi) (by rintro rfl; cases hi)
  exact Prod.ext hcall hcontacts

theorem reach_resume {r : Except Exc i.Answer} (hi : quiet i = true) (h : resume j i r e = some e') :
    reach e' j = reach e j := by
  have hcall := resume_blind (call_blind (by rintro p rfl; cases hi) j) h j trivial
  have hcontacts := contacts_kept (resume_logs h) (by rintro p rfl; cases hi) (by rintro rfl; cases hi)
  exact Prod.ext hcall hcontacts

structure Read (j : Nat) (r : Except Exc (List UInt8)) (e e' : Proxy) : Prop where
  relays : e'.relays = e.relays
  reach : reach e' j = reach e j
  relay : (e'.links j).relay = (e.links j).relay
  lines : lines (e'.log j) = match r with
    | .ok raw => raw :: lines (e.log j)
    | .error _ => lines (e.log j)

theorem read_received (r : Except Exc (List UInt8)) (inbox : List (Except Exc (List UInt8))) :
    Read j r e ((e.setLink j fun l => { l with inbox := inbox }).received j r) := by
  cases r with
  | ok raw =>
      refine ⟨rfl, ?_, ?_, ?_⟩ <;>
        simp [Session.reach, received, Proxy.note, setLink, Proxy.log, contacts, FtpProxy.lines]
  | error x =>
      refine ⟨rfl, ?_, ?_, ?_⟩ <;> simp [Session.reach, received, setLink, Proxy.log]

theorem read_sync {t : ℚ} {r : Except Exc (List UInt8)} (h : sync j (.readline t) e = some (r, e')) :
    Read j r e e' := by
  simp only [sync] at h
  split at h <;> cases h
  exact read_received _ _

theorem read_resume {t : ℚ} {r : Except Exc (List UInt8)} (h : resume j (.readline t) r e = some e') :
    Read j r e e' := by
  cases h
  have := read_received (j := j) (e := e) r (e.links j).inbox
  have hsame : (e.setLink j fun l => { l with inbox := (e.links j).inbox }) = e := by
    simp [setLink]
  rwa [hsame] at this

end

def Tracked (j : Nat) (d : Option Dispatch) : Proc Label ControlSession Op Op.Answer Exc → Prop
  | .waiting _ i k s =>
      (quiet i = true ∨ (∃ t, i = .readline t) ∨ ∃ x, d = some x ∧ x.NeedsPrinter) ∧
      ∀ e₁ r e₂, resume j i r e₁ = some e₂ →
        Permits j ((delivered i r).elim d fun raw => some ⟨raw, s, e₁⟩) (k r) s e₂
  | _ => True

section

variable {clients : Clients} {j : Nat} {d : Option Dispatch} {s : ControlSession} {e : Proxy}

theorem delivered_unread {i : Op} (hi : unread i = true) (r : Except Exc i.Answer) : delivered i r = none := by
  cases i <;> first | rfl | cases hi

theorem drive_permits (clients : Clients) {c : Session (Option Label)} (h : Permits j d c s e) (l : Label) :
    lines ((drive (world j) c s e).2.2.log j) = lines (e.log j) ∧
      (reach (drive (world j) c s e).2.2 j = reach e j ∨ ∃ x, d = some x ∧ x.NeedsPrinter) ∧
      Tracked j d ((ftpProxy clients).place l (drive (world j) c s e)) := by
  have hplace : ∀ {P : Op → Prop} {p : Paused ControlSession Op Op.Answer Exc (Option Label) × ControlSession × Proxy},
      TurnConfined (world j) P AnySession p →
      (∀ i, P i → unread i = true ∧ (quiet i = true ∨ ∃ x, d = some x ∧ x.NeedsPrinter)) →
      (∀ {c : Session (Option Label)} {s e}, ConfinedAt (world j) P AnySession c s e → Permits j d c s e) →
      Tracked j d ((ftpProxy clients).place l p) := by
    rintro P ⟨p, s', e'⟩ hp hP hpermits
    cases p with
    | finished r =>
        simp only [System.place]
        split <;> trivial
    | blocked i k =>
        obtain ⟨hi, -, hafter⟩ := hp
        obtain ⟨hunread, hquiet⟩ := hP i hi
        refine ⟨?_, fun e₁ r e₂ hr => ?_⟩
        · exact hquiet.imp_right .inr
        · rw [delivered_unread hunread]
          exact hpermits (hafter e₁ r e₂ hr)
  rcases h with h | ⟨hneeds, h⟩
  · obtain ⟨⟨hlines, hreach⟩, hp⟩ := drive_confined
      (X := fun e' : Proxy => lines (e'.log j) = lines (e.log j) ∧ reach e' j = reach e j)
      (fun i e₁ r e₂ hi hx hs => ⟨(lines_kept (sync_logs hs) (unread_of_quiet hi)).trans hx.1,
        (reach_sync hi hs).trans hx.2⟩) c s e h ⟨rfl, rfl⟩
    exact ⟨hlines, .inl hreach, hplace hp (fun i hi => ⟨unread_of_quiet hi, .inl hi⟩) .inl⟩
  · obtain ⟨hlines, hp⟩ := drive_confined (X := fun e' : Proxy => lines (e'.log j) = lines (e.log j))
      (fun i e₁ r e₂ hi hx hs => (lines_kept (sync_logs hs) hi).trans hx) c s e h rfl
    exact ⟨hlines, .inr hneeds, hplace hp (fun i hi => ⟨hi, .inr hneeds⟩) fun hc => .inr ⟨hneeds, hc⟩⟩

theorem quiet_body {l : Label} (hl : l ≠ .reading) :
    Confined (world j) (fun i => quiet i = true) AnySession (body l) := by
  have hP : ∀ i, strange i = true → quiet i = true := fun _ => quiet_of_strange
  have hc := @confined_robust j (fun i => quiet i = true) AnySession
  cases l with
  | start => exact hc.bind (hc.bind (confined_send hP _) fun _ => hc.pure _) fun _ => hc.pure _
  | running => exact hc.bind (hc.bind (hc.ask rfl) fun _ => hc.pure _) fun _ => hc.pure _
  | reading => exact absurd rfl hl
  | closing =>
      exact hc.bind (confined_close hP (fun _ _ => trivial) (fun _ _ => trivial) fun _ _ => trivial) fun _ => hc.pure _

theorem permits_read {r : Except Exc (List UInt8)} {e' : Proxy} (h : Read j r e e') :
    Permits j (match r with
      | .ok raw => some ⟨raw, s, e⟩
      | .error _ => d) (afterRead r >>= fun next => pure (some next)) s e' := by
  refine Permits.bind ?_ fun _ => confined_robust.pure _
  cases r with
  | ok raw => exact permits_afterRead raw h.relays
  | error x =>
      refine .inl (any_session (confined_afterRead (fun _ => quiet_of_strange) ?_ ?_ x) s e')
      · exact fun _ _ => trivial
      · exact fun _ _ => trivial

variable {c c' : FtpConfig} {seen : Nat → Option Dispatch}

theorem dispatch_same (h : lines (c'.env.log j) = lines (c.env.log j)) : dispatch c c' seen j = seen j := by
  simp only [dispatch, h]
  split
  · next raw earlier s hlines hsession =>
      rw [if_neg]
      rw [hlines]
      exact fun he => absurd (congrArg List.length he) (by simp)
  · rfl

theorem dispatch_new {raw : List UInt8} (h : lines (c'.env.log j) = raw :: lines (c.env.log j))
    (hs : sessionOf (c.procs j) = some s) : dispatch c c' seen j = some ⟨raw, s, c.env⟩ := by
  simp only [dispatch, h, hs, if_true]

structure Watched (c c' : FtpConfig) (seen : Nat → Option Dispatch) (j : Nat) : Prop where
  tracked : Tracked j (dispatch c c' seen j) (c'.procs j)
  needed : reach c'.env j = reach c.env j ∨ ∃ x, dispatch c c' seen j = some x ∧ x.NeedsPrinter

theorem watched_still (h : Tracked j (seen j) (c.procs j)) (hprocs : c'.procs j = c.procs j)
    (hlines : lines (c'.env.log j) = lines (c.env.log j)) (hreach : reach c'.env j = reach c.env j) :
    Watched c c' seen j := by
  refine ⟨?_, .inl hreach⟩
  rw [dispatch_same hlines, hprocs]
  exact h

theorem watched_turn {k : Session (Option Label)} {l : Label} {e₀ : Proxy} (hs : sessionOf (c.procs j) = some s)
    (h : Permits j d k s e₀) (hreach : reach e₀ j = reach c.env j ∨ ∃ x, d = some x ∧ x.NeedsPrinter)
    (hlines : lines (e₀.log j) = lines (c.env.log j) ∧ d = seen j ∨
      ∃ raw, lines (e₀.log j) = raw :: lines (c.env.log j) ∧ d = some ⟨raw, s, c.env⟩) :
    Watched c ⟨Function.update c.procs j ((ftpProxy clients).place l (drive (world j) k s e₀)),
      (drive (world j) k s e₀).2.2⟩ seen j := by
  obtain ⟨hkept, hneeds, htracked⟩ := drive_permits clients h l
  have hd : dispatch c ⟨Function.update c.procs j ((ftpProxy clients).place l (drive (world j) k s e₀)),
      (drive (world j) k s e₀).2.2⟩ seen j = d := by
    rcases hlines with ⟨hl, rfl⟩ | ⟨raw, hl, rfl⟩
    · exact dispatch_same (hkept.trans hl)
    · exact dispatch_new (hkept.trans hl) hs
  refine ⟨?_, ?_⟩
  · rw [hd]
    simpa only [Function.update_self] using htracked
  · rw [hd]
    rcases hneeds with hr | hneeds
    · exact hreach.imp_left hr.trans
    · exact .inr hneeds

theorem others_ties {a : FtpAct} (hstep : (ftpProxy clients).step c a = some c') {k : Nat}
    (hk : System.actor a ≠ some k) : (c'.env.links k).call = (c.env.links k).call ∧
      (c'.env.links k).relay = (c.env.links k).relay ∧ c'.env.log k = c.env.log k := by
  refine System.step_keeps (S := ftpProxy clients) (X := fun e => (e.links k).call = (c.env.links k).call ∧
    (e.links k).relay = (c.env.links k).relay ∧ e.log k = c.env.log k) ?_ ?_ ?_ ?_ hstep ⟨rfl, rfl, rfl⟩
  · intro j e s e' hx hs
    cases hs
    exact hx
  · intro j i e r e' hj hx hs
    have hlink : e'.links k = e.links k := sync_blind (others_blind j i) hs k fun he => hk (he ▸ hj)
    simpa only [log, hlink] using hx
  · intro j i r e e' hj hx hs
    have hlink : e'.links k = e.links k := resume_blind (others_blind j i) hs k fun he => hk (he ▸ hj)
    simpa only [log, hlink] using hx
  · intro b e e' hx hs
    obtain ⟨hcall, hrelay⟩ := tick_ties hs k
    exact ⟨hcall.trans hx.1, hrelay.trans hx.2.1, (tick_logs hs k).trans hx.2.2⟩

theorem watched_other {a : FtpAct} (hstep : (ftpProxy clients).step c a = some c')
    (hk : System.actor a ≠ some j) (h : Tracked j (seen j) (c.procs j)) : Watched c c' seen j := by
  obtain ⟨hcall, -, hlog⟩ := others_ties hstep hk
  refine watched_still h (System.step_procs hstep hk) (by rw [hlog]) ?_
  simp only [reach, hcall, hlog]

theorem watched_run (hstep : (ftpProxy clients).step c (.run j) = some c') : Watched c c' seen j := by
  simp only [System.step] at hstep
  split at hstep <;> cases hstep
  next l s hproc =>
    have hs : sessionOf (c.procs j) = some s := by rw [hproc]; rfl
    rcases Decidable.em (l = .reading) with rfl | hl
    · obtain ⟨t, ht⟩ := body_reading (j := j) s c.env
      have hbody : drive ((ftpProxy clients).world j) ((ftpProxy clients).body .reading) s c.env =
          drive (world j) (.call (.readline t) fun r => afterRead r >>= fun next => pure (some next)) s c.env := ht
      rw [hbody]
      cases hsync : sync j (.readline t) c.env with
      | none =>
          have hdrive : drive (world j) (.call (.readline t) fun r => afterRead r >>= fun next => pure (some next))
              s c.env = (.blocked (.readline t) fun r => afterRead r >>= fun next => pure (some next), s, c.env) := by
            simp only [drive, hsync]
          rw [hdrive]
          refine ⟨?_, .inl rfl⟩
          have hd : ∀ procs, dispatch c ⟨procs, c.env⟩ seen j = seen j := fun procs => dispatch_same rfl
          rw [hd]
          simp only [System.place, Function.update_self]
          refine ⟨.inr (.inl ⟨t, rfl⟩), fun e₁ r e₂ hr => ?_⟩
          have := permits_read (d := seen j) (s := s) (read_resume hr)
          cases r <;> exact this
      | some p =>
          obtain ⟨r, e₁⟩ := p
          have hdrive : drive (world j) (.call (.readline t) fun r => afterRead r >>= fun next => pure (some next))
              s c.env = drive (world j) (afterRead r >>= fun next => pure (some next)) s e₁ := by
            simp only [drive, hsync]
          rw [hdrive]
          have hread := read_sync hsync
          refine watched_turn hs (permits_read (d := seen j) hread) (.inl hread.reach) ?_
          have hlines := hread.lines
          cases r with
          | ok raw => exact .inr ⟨raw, hlines, rfl⟩
          | error x => exact .inl ⟨hlines, rfl⟩
    · exact watched_turn hs (.inl (any_session (quiet_body hl) s c.env)) (.inl rfl) (.inl ⟨rfl, rfl⟩)

theorem watched_resume {i : Op} {r : Except Exc i.Answer} (hstep : (ftpProxy clients).step c (.resume j i r) = some c')
    (h : Tracked j (seen j) (c.procs j)) : Watched c c' seen j := by
  simp only [System.step] at hstep
  split at hstep
  · next l i' k s hproc =>
      split at hstep
      · next hi =>
          subst hi
          obtain ⟨e, he, hc'⟩ := Option.map_eq_some_iff.mp hstep
          cases hc'
          have hs : sessionOf (c.procs j) = some s := by rw [hproc]; rfl
          rw [hproc] at h
          obtain ⟨hkind, hpermits⟩ := h
          have hnext := hpermits _ r _ he
          cases hunread : unread i with
          | true =>
              rw [delivered_unread hunread] at hnext
              refine watched_turn hs hnext ?_ (.inl ⟨lines_kept (resume_logs he) hunread, rfl⟩)
              rcases hkind with hquiet | ⟨t, rfl⟩ | hneeds
              · exact .inl (reach_resume hquiet he)
              · cases hunread
              · exact .inr hneeds
          | false =>
              obtain ⟨t, rfl⟩ : ∃ t, i = .readline t := by
                cases i <;> first
                | exact ⟨_, rfl⟩
                | cases hunread
              have hread : Read j r c.env e := @read_resume j c.env e t r he
              refine watched_turn hs hnext (.inl hread.reach) ?_
              have hlines := hread.lines
              cases r with
              | ok raw => exact .inr ⟨raw, hlines, rfl⟩
              | error x => exact .inl ⟨hlines, rfl⟩
      · cases hstep
  · cases hstep

theorem watched_step {a : FtpAct} (hstep : (ftpProxy clients).step c a = some c')
    (h : ∀ j, Tracked j (seen j) (c.procs j)) (j : Nat) : Watched c c' seen j := by
  rcases Decidable.em (System.actor a = some j) with ha | ha
  · cases a with
    | spawn k =>
        cases ha
        simp only [System.step] at hstep
        split at hstep
        · obtain ⟨⟨s, e⟩, hs, rfl⟩ := Option.map_eq_some_iff.mp hstep
          cases hs
          refine ⟨?_, .inl rfl⟩
          simp only [Function.update_self]
          trivial
        · cases hstep
    | run k =>
        cases ha
        exact watched_run hstep
    | resume k i r =>
        cases ha
        exact watched_resume hstep (h j)
    | tick b => cases ha
  · exact watched_other hstep ha (h j)

theorem tracked_runs {q : SessionQueue} {pool : DataPortPool} {x : FtpConfig × (Nat → Option Dispatch)}
    (hrun : (ftpProxy clients).Noted dispatch (startup q pool, fun _ => none) x) (j : Nat) :
    Tracked j (x.2 j) (x.1.procs j) := by
  induction hrun generalizing j with
  | refl => trivial
  | tail _ hstep ih =>
      obtain ⟨a, ha, hseen⟩ := hstep
      rw [hseen]
      exact (watched_step ha ih j).tracked

end

structure Strange (e : Proxy) (j : Nat) : Prop where
  call : (e.links j).call = none
  relay : (e.links j).relay = none
  contacts : contacts (e.log j) = []

def Outside (accessCode : String) (j : Nat) : Proc Label ControlSession Op Op.Answer Exc → Prop
  | .idle => True
  | .ready _ s => Stranger accessCode s
  | .waiting _ i k s =>
      (strange i = true ∨ ∃ t, i = .readline t) ∧ Stranger accessCode s ∧
      ∀ e₁ r e₂, resume j i r e₁ = some e₂ → (∀ raw, delivered i r = some raw → ¬ passes accessCode raw) →
        ConfinedAt (world j) (fun i => strange i = true) (Stranger accessCode) (k r) s e₂
  | .halted s => Stranger accessCode s

def Estranged (accessCode : String) (c : FtpConfig) (j : Nat) : Prop :=
  (∀ raw ∈ lines (c.env.log j), ¬ passes accessCode raw) →
    Strange c.env j ∧ Outside accessCode j (c.procs j)

section

variable {clients : Clients} {accessCode : String} {j : Nat} {s : ControlSession} {e : Proxy} {c c' : FtpConfig}

theorem stranger_slot (hs : Stranger accessCode s) : Stranger accessCode { s with holdsSlot := false } :=
  ⟨hs.accessCode, hs.authenticated, hs.upstream, rfl, hs.data, hs.state, hs.cwd, hs.lostSettings⟩

theorem stranger_drop (hs : Stranger accessCode s) : Stranger accessCode { s with upstream := false } :=
  ⟨hs.accessCode, hs.authenticated, rfl, hs.holdsSlot, hs.data, hs.state, hs.cwd, hs.lostSettings⟩

theorem stranger_clear (hs : Stranger accessCode s) : Stranger accessCode { s with data := none, passiveMode := none } :=
  ⟨hs.accessCode, hs.authenticated, hs.upstream, hs.holdsSlot, rfl, hs.state, hs.cwd, hs.lostSettings⟩

theorem stranger_body {l : Label} (hl : l ≠ .reading) :
    Confined (world j) (fun i => strange i = true) (Stranger accessCode) (body l) := by
  have hP : ∀ i, strange i = true → strange i = true := fun _ h => h
  have hc := @confined_robust j (fun i => strange i = true) (Stranger accessCode)
  cases l with
  | start => exact hc.bind (hc.bind (confined_send hP _) fun _ => hc.pure _) fun _ => hc.pure _
  | running => exact hc.bind (hc.bind (hc.ask rfl) fun _ => hc.pure _) fun _ => hc.pure _
  | reading => exact absurd rfl hl
  | closing =>
      refine hc.bind (confined_close hP ?_ ?_ ?_) fun _ => hc.pure _
      · exact fun _ => stranger_slot
      · exact fun _ => stranger_drop
      · exact fun _ => stranger_clear

theorem stranger_read {r : Except Exc (List UInt8)} (hs : Stranger accessCode s)
    (hr : ∀ raw, r = .ok raw → ¬ passes accessCode raw) :
    ConfinedAt (world j) (fun i => strange i = true) (Stranger accessCode)
      (afterRead r >>= fun next => pure (some next)) s e := by
  refine ConfinedAt.bind ?_ fun _ => confined_robust.pure _
  cases r with
  | ok raw => exact stranger_serve hs (hr raw rfl)
  | error x =>
      refine (confined_afterRead (fun _ h => h) ?_ ?_ x).at hs e
      · exact fun _ => stranger_slot
      · exact fun _ => stranger_drop

theorem strange_sync {i : Op} {r : Except Exc i.Answer} {e' : Proxy} (hi : strange i = true)
    (h : sync j i e = some (r, e')) (hx : lines (e.log j) = l ∧ Strange e j) :
    lines (e'.log j) = l ∧ Strange e' j := by
  have hquiet := quiet_of_strange hi
  have hreach := reach_sync hquiet h
  refine ⟨(lines_kept (sync_logs h) (unread_of_quiet hquiet)).trans hx.1, ?_, ?_, ?_⟩
  · exact (congrArg Prod.fst hreach).trans hx.2.call
  · exact (sync_blind (relay_blind (by rintro rfl; cases hi) j) h j trivial).trans hx.2.relay
  · exact (congrArg Prod.snd hreach).trans hx.2.contacts

theorem Read.strange {r : Except Exc (List UInt8)} {e' : Proxy} (h : Read j r e e')
    (hu : Strange e j) : Strange e' j where
  call := (congrArg Prod.fst h.reach).trans hu.call
  relay := h.relay.trans hu.relay
  contacts := (congrArg Prod.snd h.reach).trans hu.contacts

theorem Read.known {r : Except Exc (List UInt8)} {e' : Proxy} (h : Read j r e e') {raw : List UInt8}
    (hraw : raw ∈ FtpProxy.lines (e.log j)) : raw ∈ FtpProxy.lines (e'.log j) := by
  have hlines := h.lines
  cases r with
  | ok raw' =>
      rw [hlines]
      exact List.mem_cons_of_mem _ hraw
  | error x => exact hlines.symm ▸ hraw

theorem Read.new {r : Except Exc (List UInt8)} {e' : Proxy} (h : Read j r e e') {raw : List UInt8}
    (hr : r = .ok raw) : raw ∈ FtpProxy.lines (e'.log j) := by
  subst hr
  rw [h.lines]
  exact List.mem_cons_self

theorem lines_grow {k : Session (Option Label)} {raw : List UInt8} (h : raw ∈ lines (e.log j)) :
    raw ∈ lines ((drive (world j) k s e).2.2.log j) := by
  refine drive_keeps (X := fun e' : Proxy => raw ∈ lines (e'.log j)) (fun i e r e' hx hs => ?_) k s e h
  rcases (sync_logs hs).own with hlog | ⟨v, _, hlog⟩
  · rw [hlog]
    exact hx
  · rw [hlog]
    exact ((List.sublist_cons_self v _).filterMap _).subset hx

theorem estranged_turn {k : Session (Option Label)} {l : Label} {e₀ : Proxy}
    (h : (∀ raw ∈ lines (e₀.log j), ¬ passes accessCode raw) → Strange e₀ j ∧
      ConfinedAt (world j) (fun i => strange i = true) (Stranger accessCode) k s e₀) :
    Estranged accessCode ⟨Function.update c.procs j ((ftpProxy clients).place l (drive (world j) k s e₀)),
      (drive (world j) k s e₀).2.2⟩ j := by
  intro hnone
  obtain ⟨hstrange, hk⟩ := h fun raw hraw => hnone raw (lines_grow hraw)
  obtain ⟨hx, hp⟩ := drive_confined
    (X := fun e' : Proxy => lines (e'.log j) = lines (e₀.log j) ∧ Strange e' j)
    (fun i e₁ r e₂ hi hx hs => strange_sync hi hs hx) k s e₀ hk ⟨rfl, hstrange⟩
  refine ⟨hx.2, ?_⟩
  simp only [Function.update_self]
  generalize drive (world j) k s e₀ = p at hp
  obtain ⟨p, s', e'⟩ := p
  cases p with
  | finished r =>
      simp only [System.place]
      split <;> exact hp
  | blocked i k =>
      obtain ⟨hi, hs', hafter⟩ := hp
      exact ⟨.inl hi, hs', fun e₁ r e₂ hr _ => hafter e₁ r e₂ hr⟩

theorem estranged_run (hstep : (ftpProxy clients).step c (.run j) = some c')
    (h : Estranged accessCode c j) : Estranged accessCode c' j := by
  simp only [System.step] at hstep
  split at hstep <;> cases hstep
  next l s hproc =>
    rcases Decidable.em (l = .reading) with rfl | hl
    · obtain ⟨t, ht⟩ := body_reading (j := j) s c.env
      have hbody : drive ((ftpProxy clients).world j) ((ftpProxy clients).body .reading) s c.env =
          drive (world j) (.call (.readline t) fun r => afterRead r >>= fun next => pure (some next)) s c.env := ht
      rw [hbody]
      cases hsync : sync j (.readline t) c.env with
      | none =>
          have hdrive : drive (world j) (.call (.readline t) fun r => afterRead r >>= fun next => pure (some next))
              s c.env = (.blocked (.readline t) fun r => afterRead r >>= fun next => pure (some next), s, c.env) := by
            simp only [drive, hsync]
          rw [hdrive]
          intro hnone
          obtain ⟨hstrange, hs⟩ := h hnone
          rw [hproc] at hs
          refine ⟨hstrange, ?_⟩
          simp only [System.place, Function.update_self]
          refine ⟨.inr ⟨t, rfl⟩, hs, fun e₁ r e₂ _ hr => ?_⟩
          refine stranger_read hs fun raw he => hr raw ?_
          rw [he]
          rfl
      | some p =>
          obtain ⟨r, e₁⟩ := p
          have hdrive : drive (world j) (.call (.readline t) fun r => afterRead r >>= fun next => pure (some next))
              s c.env = drive (world j) (afterRead r >>= fun next => pure (some next)) s e₁ := by
            simp only [drive, hsync]
          rw [hdrive]
          have hread := read_sync hsync
          refine estranged_turn fun hnone => ?_
          obtain ⟨hstrange, hs⟩ := h fun raw hraw => hnone raw (hread.known hraw)
          rw [hproc] at hs
          exact ⟨hread.strange hstrange, stranger_read hs fun raw he => hnone raw (hread.new he)⟩
    · refine estranged_turn fun hnone => ?_
      obtain ⟨hstrange, hs⟩ := h hnone
      rw [hproc] at hs
      exact ⟨hstrange, (stranger_body hl).at hs c.env⟩

theorem estranged_resume {i : Op} {r : Except Exc i.Answer}
    (hstep : (ftpProxy clients).step c (.resume j i r) = some c') (h : Estranged accessCode c j) :
    Estranged accessCode c' j := by
  simp only [System.step] at hstep
  split at hstep
  · next l i' k s hproc =>
      split at hstep
      · next hi =>
          subst hi
          obtain ⟨e, he, hc'⟩ := Option.map_eq_some_iff.mp hstep
          cases hc'
          refine estranged_turn fun hnone => ?_
          cases hunread : unread i with
          | true =>
              have hlines := lines_kept (resume_logs he) hunread
              obtain ⟨hstrange, hkind, -, hafter⟩ := hproc ▸ h (hlines ▸ hnone)
              have hi : strange i = true := by
                rcases hkind with hi | ⟨t, rfl⟩
                · exact hi
                · cases hunread
              have hreach := reach_resume (quiet_of_strange hi) he
              refine ⟨⟨?_, ?_, ?_⟩, hafter _ r _ he ?_⟩
              · exact (congrArg Prod.fst hreach).trans hstrange.call
              · exact (resume_blind (relay_blind (by rintro rfl; cases hi) j) he j trivial).trans hstrange.relay
              · exact (congrArg Prod.snd hreach).trans hstrange.contacts
              · rw [delivered_unread hunread]
                rintro _ ⟨⟩
          | false =>
              obtain ⟨t, rfl⟩ : ∃ t, i = .readline t := by
                cases i <;> first
                | exact ⟨_, rfl⟩
                | cases hunread
              have hread : Read j r c.env e := @read_resume j c.env e t r he
              obtain ⟨hstrange, hout⟩ := h fun raw hraw => hnone raw (hread.known hraw)
              rw [hproc] at hout
              refine ⟨hread.strange hstrange, hout.2.2 _ r _ he fun raw hraw => ?_⟩
              cases r with
              | ok raw' =>
                  cases hraw
                  exact hnone raw (hread.new rfl)
              | error x => cases hraw
      · cases hstep
  · cases hstep

theorem estranged_step {a : FtpAct} (hstep : (ftpProxy clients).step c a = some c')
    (h : Estranged clients.accessCode c j) : Estranged clients.accessCode c' j := by
  rcases Decidable.em (System.actor a = some j) with ha | ha
  · cases a with
    | spawn k =>
        cases ha
        simp only [System.step] at hstep
        split at hstep
        · obtain ⟨⟨s, e⟩, hs, rfl⟩ := Option.map_eq_some_iff.mp hstep
          cases hs
          intro hnone
          refine ⟨(h hnone).1, ?_⟩
          simp only [Function.update_self]
          exact ⟨rfl, rfl, rfl, rfl, rfl, rfl, rfl, rfl⟩
        · cases hstep
    | run k =>
        cases ha
        exact estranged_run hstep h
    | resume k i r =>
        cases ha
        exact estranged_resume hstep h
    | tick b => cases ha
  · obtain ⟨hcall, hrelay, hlog⟩ := others_ties hstep ha
    intro hnone
    rw [hlog] at hnone
    obtain ⟨hu, hout⟩ := h hnone
    refine ⟨⟨hcall.trans hu.call, hrelay.trans hu.relay, by rw [hlog]; exact hu.contacts⟩, ?_⟩
    rw [System.step_procs hstep ha]
    exact hout

theorem estranged_runs {q : SessionQueue} {pool : DataPortPool}
    (hrun : (ftpProxy clients).Runs (fun _ _ _ => True) (startup q pool) c) (j : Nat) :
    Estranged clients.accessCode c j := by
  induction hrun with
  | refl => exact fun _ => ⟨⟨rfl, rfl, rfl⟩, trivial⟩
  | tail _ hstep ih =>
      obtain ⟨a, ha, _⟩ := hstep
      exact estranged_step ha ih

end

theorem Outside.stranger {accessCode : String} {j : Nat} {p : Proc Label ControlSession Op Op.Answer Exc}
    (h : Outside accessCode j p) {s : ControlSession} (hs : sessionOf p = some s) : Stranger accessCode s := by
  cases p with
  | idle => cases hs
  | ready l s' =>
      cases hs
      exact h
  | waiting l i k s' =>
      cases hs
      exact h.2.1
  | halted s' =>
      cases hs
      exact h

end Session

-- Before the right `PASS` nothing comes of a session, and later it asks for a slot and talks to the
-- printer only for a line that needs it.
theorem printer_access (clients : Clients) (q : SessionQueue) (pool : DataPortPool) :
    (∀ c, (ftpProxy clients).Runs (fun _ _ _ => True) (startup q pool) c →
      ∀ j, (∀ raw ∈ lines (c.env.log j), ¬ passes clients.accessCode raw) →
        (c.env.links j).call = none ∧ (c.env.links j).relay = none ∧ contacts (c.env.log j) = [] ∧
        ∀ s, Session.sessionOf (c.procs j) = some s → Stranger clients.accessCode s) ∧
    ∀ c seen a c', (ftpProxy clients).Noted Session.dispatch (startup q pool, fun _ => none) (c, seen) →
      (ftpProxy clients).step c a = some c' → ∀ j,
        (c'.env.links j).call ≠ (c.env.links j).call ∨ contacts (c'.env.log j) ≠ contacts (c.env.log j) →
        ∃ d, Session.dispatch c c' seen j = some d ∧ d.NeedsPrinter := by
  refine ⟨fun c hrun j hnone => ?_, fun c seen a c' hrun hstep j hreach => ?_⟩
  · obtain ⟨hu, hout⟩ := Session.estranged_runs hrun j hnone
    exact ⟨hu.call, hu.relay, hu.contacts, fun s hs => hout.stranger hs⟩
  · rcases (Session.watched_step hstep (Session.tracked_runs hrun) j).needed with hsame | hneeded
    · exfalso
      rcases hreach with hne | hne
      · exact hne (congrArg Prod.fst hsame)
      · exact hne (congrArg Prod.snd hsame)
    · exact hneeded

def cwdArrives : List FtpAct := logsIn 0 ++ [.tick (.arrive 0 (line "CWD /cache\r\n"))]

theorem printer_access_cwd : ∃ c c' seen,
    (ftpProxy lan).Noted Session.dispatch (startup oneSlot onePort, fun _ => none) (c, seen) ∧
    (ftpProxy lan).step c (.run 0) = some c' ∧ (∃ d, Session.dispatch c c' seen 0 = some d ∧ d.NeedsPrinter) ∧
    contacts ((startup oneSlot onePort).env.log 0) = [] := by
  have hend : (((ftpProxy lan).runActs (startup oneSlot onePort) cwdArrives).bind fun c =>
      ((ftpProxy lan).step c (.run 0)).map fun c' => ((c.env.links 0).call, (c'.env.links 0).call)) =
        some (none, some 0) := by
    decide +kernel
  obtain ⟨c, hc, hlast⟩ := Option.bind_eq_some_iff.mp hend
  obtain ⟨c', hc', hcalls⟩ := Option.map_eq_some_iff.mp hlast
  obtain ⟨hbefore, hafter⟩ := Prod.mk.inj hcalls
  obtain ⟨seen, hseen⟩ : ∃ seen,
      (ftpProxy lan).Noted Session.dispatch (startup oneSlot onePort, fun _ => none) (c, seen) :=
    System.Runs.noted ((ftpProxy lan).runActs_runs cwdArrives hc) _
  obtain ⟨hbare, hneeded⟩ := printer_access lan oneSlot onePort
  have hstart := (hbare (startup oneSlot onePort) .refl 0 nofun).2.2.1
  exact ⟨c, c', seen, hseen, hc', hneeded c seen _ c' hseen hc' 0 (.inl (by rw [hbefore, hafter]; nofun)), hstart⟩

end PandaProxy.FtpProxy
