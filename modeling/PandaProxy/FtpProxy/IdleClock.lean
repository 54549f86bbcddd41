import Mathlib.Algebra.Order.Field.Rat
import Mathlib.Tactic.Linarith
import PandaProxy.Async.Machine
import PandaProxy.FtpProxy.Surroundings

namespace PandaProxy.FtpProxy

open Async

def readBudget (upstream : Bool) (upstreamLastUsed now : ℚ) : ℚ :=
  if upstream then max 1 (upstreamIdleTimeout - (now - upstreamLastUsed)) else clientIdleTimeout

inductive Wake where
  | keepWaiting
  | release
  | disconnect
  deriving DecidableEq, Repr

def wake (upstream : Bool) (upstreamLastUsed now : ℚ) : Wake :=
  if upstream then
    if now - upstreamLastUsed < upstreamIdleTimeout then .keepWaiting else .release
  else .disconnect

namespace Session

variable {j : Nat} {s : ControlSession} {e : Proxy}

theorem drive_readTimeout : drive (Proxy.world j) readTimeout s e =
    (.finished (.ok (readBudget s.upstream s.upstreamLastUsed e.now)), s, e) := by
  obtain ⟨_, _, _, _, _, upstream, _, lastUsed⟩ := s
  cases upstream <;> rfl

def afterWake : Wake → Session Label
  | .keepWaiting => pure .reading
  | .release => do
      releaseUpstream
      pure .reading
  | .disconnect => pure .closing

theorem drive_idle : drive (Proxy.world j) idle s e =
    drive (Proxy.world j) (afterWake (wake s.upstream s.upstreamLastUsed e.now)) s e := by
  obtain ⟨_, _, _, _, _, upstream, _, lastUsed⟩ := s
  cases upstream with
  | false => rfl
  | true =>
      show drive (Proxy.world j) (if e.now - lastUsed < upstreamIdleTimeout then pure .reading else
        (releaseUpstream >>= fun _ => pure .reading)) _ e = drive (Proxy.world j) (afterWake
          (if e.now - lastUsed < upstreamIdleTimeout then .keepWaiting else .release)) _ e
      split <;> rfl

end Session

inductive Activity where
  | reading (since : ℚ)
  | releasing
  | serving
  | closed
  deriving DecidableEq, Repr

-- `lastExchange` is the time a command was last sent to the printer session or a reply of it
-- received.
structure IdleClock where
  now : ℚ
  upstream : Bool
  upstreamLastUsed : ℚ
  lastExchange : ℚ
  activity : Activity
  deriving DecidableEq, Repr

inductive ClockAct where
  | elapse (time : ℚ)
  | read
  | receive
  | hangUp
  | expire
  | ensureUpstream
  | sendUpstream
  | reply
  | releaseUpstream
  deriving DecidableEq, Repr

namespace IdleClock

variable {c c' : IdleClock} {a : ClockAct} {since time : ℚ}

def deadline (c : IdleClock) (since : ℚ) : ℚ := since + readBudget c.upstream c.upstreamLastUsed since

def inTime (c : IdleClock) (now : ℚ) : Prop :=
  match c.activity with
  | .reading since => now ≤ c.deadline since
  | _ => True

instance : Decidable (c.inTime time) := by
  unfold inTime
  split <;> infer_instance

def wakeUp (c : IdleClock) : IdleClock :=
  match wake c.upstream c.upstreamLastUsed c.now with
  | .keepWaiting => { c with activity := .reading c.now }
  | .release => { c with upstream := false, activity := .releasing }
  | .disconnect => { c with activity := .closed }

def step (c : IdleClock) : ClockAct → Option IdleClock
  | .elapse time => if 0 ≤ time ∧ c.inTime (c.now + time) then some { c with now := c.now + time } else none
  | .read =>
      match c.activity with
      | .releasing => some { c with activity := .reading c.now }
      | .serving => some { c with activity := .reading c.now }
      | _ => none
  | .receive =>
      match c.activity with
      | .reading _ => some { c with activity := .serving }
      | _ => none
  | .hangUp =>
      match c.activity with
      | .reading _ => some { c with activity := .closed }
      | .serving => some { c with activity := .closed }
      | _ => none
  | .expire =>
      match c.activity with
      | .reading since => if c.now = c.deadline since then some c.wakeUp else none
      | _ => none
  | .ensureUpstream =>
      if c.activity = .serving ∧ c.upstream = false then
        some { c with upstream := true, upstreamLastUsed := c.now, lastExchange := c.now }
      else none
  | .sendUpstream =>
      if c.activity = .serving ∧ c.upstream = true then
        some { c with upstreamLastUsed := c.now, lastExchange := c.now }
      else none
  | .reply =>
      if c.activity = .serving ∧ c.upstream = true then some { c with lastExchange := c.now } else none
  | .releaseUpstream =>
      if c.activity = .serving then some { c with upstream := false } else none

def machine : Machine IdleClock ClockAct := ⟨step⟩

def init : IdleClock where
  now := 0
  upstream := false
  upstreamLastUsed := 0
  lastExchange := 0
  activity := .serving

def ReleasedInTime (c : IdleClock) (a : ClockAct) (c' : IdleClock) : Prop :=
  a = .expire → c.upstream = true → c'.upstream = false → upstreamIdleTimeout ≤ c.now - c.lastExchange

def HeldInTime (c : IdleClock) : Prop :=
  ∀ since, c.activity = .reading since → c.upstream = true →
    c.now - c.lastExchange ≤ upstreamIdleTimeout + 1

-- With a printer session held, a wait that times out follows an exchange that was a command, or
-- began late enough after it, and no wait begins when the time is already up.
def Prompt (c : IdleClock) (a : ClockAct) (_ : IdleClock) : Prop :=
  match a with
  | .expire => ∀ since, c.activity = .reading since → c.upstream = true →
      c.lastExchange = c.upstreamLastUsed ∨ c.lastExchange + (upstreamIdleTimeout - 1) ≤ since
  | .read => c.upstream = true → c.now ≤ c.lastExchange + upstreamIdleTimeout
  | _ => True

structure Kept (c : IdleClock) : Prop where
  used : c.upstream = true → c.upstreamLastUsed ≤ c.lastExchange
  exchanged : c.lastExchange ≤ c.now
  since : ∀ since, c.activity = .reading since → c.lastExchange ≤ since ∧ since ≤ c.now ∧ c.now ≤ c.deadline since

theorem deadline_held (h : c.upstream = true) :
    c.deadline since = max (since + 1) (c.upstreamLastUsed + upstreamIdleTimeout) := by
  have hunused : since + (upstreamIdleTimeout - (since - c.upstreamLastUsed)) =
      c.upstreamLastUsed + upstreamIdleTimeout := by
    linarith
  rw [deadline, readBudget, if_pos h, ← max_add_add_left, hunused]

theorem since_lt_deadline (c : IdleClock) (since : ℚ) : since < c.deadline since := by
  have hbudget : 0 < readBudget c.upstream c.upstreamLastUsed since := by
    unfold readBudget
    split
    · exact lt_max_of_lt_left one_pos
    · norm_num [clientIdleTimeout]
  exact lt_add_of_pos_right since hbudget

theorem wake_expired (hheld : c.upstream = true) (hnow : c.now = c.deadline since) :
    wake c.upstream c.upstreamLastUsed c.now = .release := by
  have hpast : c.upstreamLastUsed + upstreamIdleTimeout ≤ c.now := by
    rw [hnow, deadline_held hheld]
    exact le_max_right _ _
  rw [wake, if_pos hheld, if_neg (by linarith)]

theorem kept_init : Kept init where
  used := nofun
  exchanged := le_refl _
  since := nofun

theorem kept_read (h : Kept c) : Kept { c with activity := .reading c.now } where
  used := h.used
  exchanged := h.exchanged
  since since hs := by
    cases hs
    exact ⟨h.exchanged, le_refl _, (since_lt_deadline _ _).le⟩

theorem kept_still (hstill : ∀ since, c.activity ≠ .reading since)
    (hused : c.upstream = true → c.upstreamLastUsed ≤ c.lastExchange) (hnow : c.lastExchange ≤ c.now) : Kept c :=
  ⟨hused, hnow, fun since hs => (hstill since hs).elim⟩

theorem kept_wakeUp (h : Kept c) : Kept c.wakeUp := by
  unfold wakeUp
  split
  · exact kept_read h
  · exact kept_still nofun nofun h.exchanged
  · exact kept_still nofun h.used h.exchanged

theorem kept_elapse (h : Kept c) (htime : 0 ≤ time) (hin : c.inTime (c.now + time)) :
    Kept { c with now := c.now + time } where
  used := h.used
  exchanged := by
    have hnow := h.exchanged
    show c.lastExchange ≤ c.now + time
    linarith
  since since hs := by
    obtain ⟨hx, hnow, _⟩ := h.since since hs
    have hdeadline : c.now + time ≤ c.deadline since := by
      simpa only [inTime, show c.activity = .reading since from hs] using hin
    exact ⟨hx, show since ≤ c.now + time by linarith, hdeadline⟩

theorem step_elapse (h : machine.step c (.elapse time) = some c') :
    0 ≤ time ∧ c.inTime (c.now + time) ∧ c' = { c with now := c.now + time } := by
  simp only [machine, step] at h
  split at h
  · next hin =>
      cases h
      exact ⟨hin.1, hin.2, rfl⟩
  · cases h

theorem step_read (h : machine.step c .read = some c') : c' = { c with activity := .reading c.now } := by
  simp only [machine, step] at h
  split at h <;> cases h <;> rfl

theorem step_expire (h : machine.step c .expire = some c') :
    ∃ since, c.activity = .reading since ∧ c.now = c.deadline since ∧ c' = c.wakeUp := by
  simp only [machine, step] at h
  split at h
  · next since hreading =>
      split at h
      · next hnow =>
          cases h
          exact ⟨since, hreading, hnow, rfl⟩
      · cases h
  · cases h

theorem kept_step (h : Kept c) (hstep : machine.step c a = some c') : Kept c' := by
  cases a with
  | elapse time =>
      obtain ⟨htime, hin, rfl⟩ := step_elapse hstep
      exact kept_elapse h htime hin
  | read =>
      cases step_read hstep
      exact kept_read h
  | expire =>
      obtain ⟨_, _, _, rfl⟩ := step_expire hstep
      exact kept_wakeUp h
  | receive | hangUp =>
      simp only [machine, step] at hstep
      split at hstep <;> cases hstep <;> exact kept_still nofun h.used h.exchanged
  | ensureUpstream | sendUpstream =>
      simp only [machine, step] at hstep
      split at hstep <;> cases hstep
      next hserving =>
        exact kept_still (fun _ hs => nomatch hserving.1.symm.trans hs) (fun _ => le_refl _) (le_refl _)
  | reply =>
      simp only [machine, step] at hstep
      split at hstep <;> cases hstep
      next hserving =>
        exact kept_still (fun _ hs => nomatch hserving.1.symm.trans hs)
          (fun hheld => (h.used hheld).trans h.exchanged) (le_refl _)
  | releaseUpstream =>
      simp only [machine, step] at hstep
      split at hstep <;> cases hstep
      next hserving => exact kept_still (fun _ hs => nomatch hserving.symm.trans hs) nofun h.exchanged

theorem kept_runs {ok : IdleClock → ClockAct → IdleClock → Prop} (hrun : machine.Runs ok init c) : Kept c :=
  hrun.keeps kept_init fun _ _ _ h hstep _ => kept_step h hstep

theorem released_iff (h : Kept c) (hstep : machine.step c .expire = some c') (hheld : c.upstream = true) :
    upstreamIdleTimeout ≤ c.now - c.lastExchange ↔ Prompt c .expire c' := by
  obtain ⟨since, hreading, hnow, _⟩ := step_expire hstep
  have hused := h.used hheld
  have hdeadline : c.deadline since = max (since + 1) (c.upstreamLastUsed + upstreamIdleTimeout) := deadline_held hheld
  constructor
  · intro hlong since' hreading' _
    cases hreading.symm.trans hreading'
    rcases max_choice (since + 1) (c.upstreamLastUsed + upstreamIdleTimeout) with hmax | hmax
    · right
      linarith
    · left
      linarith
  · intro hprompt
    have hleft := le_max_left (since + 1) (c.upstreamLastUsed + upstreamIdleTimeout)
    have hright := le_max_right (since + 1) (c.upstreamLastUsed + upstreamIdleTimeout)
    rcases hprompt since hreading hheld with hlast | hlate <;> linarith

theorem held_iff (h : Kept c) (hheld : c.upstream = true) :
    c.deadline since - c.lastExchange ≤ upstreamIdleTimeout + 1 ↔ since ≤ c.lastExchange + upstreamIdleTimeout := by
  have hused := h.used hheld
  rw [deadline_held hheld, sub_le_iff_le_add, max_le_iff]
  constructor
  · rintro ⟨hsince, _⟩
    linarith
  · intro hsince
    exact ⟨by linarith, by linarith⟩

theorem elapse_to_deadline (h : Kept c) (hreading : c.activity = .reading since) :
    machine.step c (.elapse (c.deadline since - c.now)) = some { c with now := c.deadline since } := by
  have hnow := (h.since since hreading).2.2
  have hsum : c.now + (c.deadline since - c.now) = c.deadline since := by
    linarith
  have hin : c.inTime (c.deadline since) := by
    simp only [inTime, hreading, le_refl]
  simp only [machine, step, hsum]
  rw [if_pos ⟨by linarith, hin⟩]

def BegunInTime (c : IdleClock) : Prop :=
  ∀ since, c.activity = .reading since → c.upstream = true → since ≤ c.lastExchange + upstreamIdleTimeout

theorem begun_step (hbegun : BegunInTime c) (hstep : machine.step c a = some c') (hprompt : Prompt c a c') :
    BegunInTime c' := by
  intro since hreading hheld
  cases a with
  | elapse time =>
      obtain ⟨_, _, rfl⟩ := step_elapse hstep
      exact hbegun since hreading hheld
  | read =>
      cases step_read hstep
      cases hreading
      exact hprompt hheld
  | expire =>
      obtain ⟨_, _, hnow, rfl⟩ := step_expire hstep
      revert hreading hheld
      cases hu : c.upstream with
      | true => simp [wakeUp, wake_expired hu hnow]
      | false => simp [wakeUp, wake, hu]
  | receive | hangUp =>
      simp only [machine, step] at hstep
      split at hstep <;> cases hstep <;> cases hreading
  | ensureUpstream | sendUpstream | reply =>
      simp only [machine, step] at hstep
      split at hstep <;> cases hstep
      next hserving => cases hserving.1.symm.trans hreading
  | releaseUpstream =>
      simp only [machine, step] at hstep
      split at hstep <;> cases hstep
      next hserving => cases hserving.symm.trans hreading

theorem begun_runs (hrun : machine.Runs Prompt init c) : Kept c ∧ BegunInTime c :=
  ⟨kept_runs hrun, hrun.keeps nofun fun _ _ _ h hstep hprompt => begun_step h hstep hprompt⟩

theorem heldInTime (h : Kept c) (hbegun : BegunInTime c) : HeldInTime c := by
  intro since hreading hheld
  have hdeadline := (held_iff h hheld).mpr (hbegun since hreading hheld)
  have hnow := (h.since since hreading).2.2
  linarith

theorem idle_clock (c : IdleClock) :
    (machine.Runs Prompt init c → HeldInTime c ∧
      ∀ a c', machine.step c a = some c' → Prompt c a c' → ReleasedInTime c a c') ∧
    (machine.Runs Machine.Free init c → c.upstream = true →
      (∀ c', machine.step c .expire = some c' → c'.upstream = false ∧
        (upstreamIdleTimeout ≤ c.now - c.lastExchange ↔ Prompt c .expire c')) ∧
      ∀ c', machine.step c .read = some c' →
        ((∀ time c'', machine.step c' (.elapse time) = some c'' → HeldInTime c'') ↔ Prompt c .read c')) := by
  constructor
  · intro hrun
    obtain ⟨hkept, hbegun⟩ := begun_runs hrun
    refine ⟨heldInTime hkept hbegun, fun a c' hstep hprompt ha hheld _ => ?_⟩
    cases ha
    exact (released_iff hkept hstep hheld).mpr hprompt
  · intro hrun hheld
    have hkept := kept_runs hrun
    constructor
    · intro c' hstep
      refine ⟨?_, released_iff hkept hstep hheld⟩
      obtain ⟨since, _, hnow, rfl⟩ := step_expire hstep
      rw [wakeUp, wake_expired hheld hnow]
    · intro c' hstep
      cases step_read hstep
      have hkept' := kept_read hkept
      constructor
      · intro hall _
        have hheld' := hall _ _ (elapse_to_deadline hkept' rfl) c.now rfl hheld
        exact (held_iff hkept' hheld).mp hheld'
      · intro hprompt time c'' helapse
        obtain ⟨htime, hin, rfl⟩ := step_elapse helapse
        exact heldInTime (kept_elapse hkept' htime hin) fun since hreading _ => by
          cases hreading
          exact hprompt hheld

def promptly (c : IdleClock) (a : ClockAct) (_ : IdleClock) : Bool :=
  match a with
  | .expire =>
      match c.activity with
      | .reading since => !c.upstream || decide (c.lastExchange = c.upstreamLastUsed) ||
          decide (c.lastExchange + (upstreamIdleTimeout - 1) ≤ since)
      | _ => true
  | .read => !c.upstream || decide (c.now ≤ c.lastExchange + upstreamIdleTimeout)
  | _ => true

theorem promptly_sound (h : promptly c a c' = true) : Prompt c a c' := by
  cases a with
  | expire =>
      intro since hreading hheld
      simpa [promptly, hreading, hheld] using h
  | read =>
      intro hheld
      simpa [promptly, hheld] using h
  | _ => trivial

def oneNoop : List ClockAct :=
  [.ensureUpstream, .sendUpstream, .read, .elapse 10, .receive, .read, .elapse 20]

theorem idle_clock_one_noop : ∃ c c', machine.playWhile promptly init oneNoop = some c ∧
    machine.step c .expire = some c' ∧ c'.upstream = false ∧ HeldInTime c ∧
      upstreamIdleTimeout ≤ c.now - c.lastExchange := by
  have hend : machine.playWhile promptly init oneNoop = some ⟨30, true, 0, 0, .reading 10⟩ := by
    decide +kernel
  have hexpire : machine.step ⟨30, true, 0, 0, .reading 10⟩ .expire = some ⟨30, false, 0, 0, .releasing⟩ := by
    decide +kernel
  have hrun := Machine.playWhile_runs (fun _ _ _ => promptly_sound) hend
  have hprompt : promptly ⟨30, true, 0, 0, .reading 10⟩ .expire ⟨30, false, 0, 0, .releasing⟩ = true := by
    decide +kernel
  obtain ⟨hheld, hreleased⟩ := (idle_clock _).1 hrun
  exact ⟨_, _, hend, hexpire, rfl, hheld, hreleased _ _ hexpire (promptly_sound hprompt) rfl rfl rfl⟩

def frequentNoops : List ClockAct :=
  [.ensureUpstream, .sendUpstream, .read, .elapse (59 / 2), .receive, .read, .elapse (9 / 10), .receive, .read,
    .elapse (9 / 10), .receive, .read]

def longTransfer : List ClockAct :=
  [.ensureUpstream, .sendUpstream, .elapse 100, .reply, .read, .elapse 1]

-- Commands that the proxy answers itself keep the printer session, and it is released one second
-- after a transfer that took long.
theorem idle_clock_slips : (¬ ∀ c, machine.Runs Machine.Free init c → HeldInTime c) ∧
    ¬ ∀ c, machine.Runs Machine.Free init c → ∀ a c', machine.step c a = some c' → ReleasedInTime c a c' := by
  constructor
  · intro h
    have hend : machine.play init frequentNoops = some ⟨313 / 10, true, 0, 0, .reading (313 / 10)⟩ := by
      decide +kernel
    have hheld := h _ (Machine.play_runs hend) (313 / 10) rfl rfl
    norm_num [upstreamIdleTimeout] at hheld
  · intro h
    have hend : machine.play init longTransfer = some ⟨101, true, 0, 100, .reading 100⟩ := by
      decide +kernel
    have hexpire : machine.step ⟨101, true, 0, 100, .reading 100⟩ .expire = some ⟨101, false, 0, 100, .releasing⟩ := by
      decide +kernel
    have hreleased := h _ (Machine.play_runs hend) _ _ hexpire rfl rfl rfl
    norm_num [upstreamIdleTimeout] at hreleased

end IdleClock

namespace Session

variable {clients : Clients} {c c₁ c₂ c₃ : FtpConfig} {j : Nat} {s : ControlSession} {timeout t : ℚ}

def clock (s : ControlSession) (e : Proxy) (lastExchange : ℚ) : IdleClock where
  now := e.now
  upstream := s.upstream
  upstreamLastUsed := s.upstreamLastUsed
  lastExchange := lastExchange
  activity := .reading e.now

def GoesOn (s : ControlSession) (p : Proc Label ControlSession Op Op.Answer Exc) : Activity → Prop
  | .reading _ => p = .ready .reading s
  | .closed => p = .ready .closing s
  | .releasing => ∃ s', s'.upstream = false ∧ (p = .ready .reading s' ∨ ∃ k, p = .waiting .reading .upstreamClosed k s')
  | .serving => False

theorem readAndServe_waits : ∃ k : (timeout : ℚ) → Except Exc (Op.Answer (.readline timeout)) → Session Label,
    readAndServe = (readTimeout >>= fun timeout => .call (.readline timeout) (k timeout)) ∧
      ∀ timeout, k timeout (.error .timeout) = idle :=
  ⟨_, rfl, fun _ => rfl⟩

theorem drive_reading (s : ControlSession) (e : Proxy) (hinbox : (e.links j).inbox = []) :
    ∃ k, drive (Proxy.world j) (body .reading) s e =
        (.blocked (.readline (readBudget s.upstream s.upstreamLastUsed e.now)) k, s, e) ∧
      k (.error .timeout) = (idle >>= fun next => pure (some next)) := by
  obtain ⟨k, hread, hidle⟩ := readAndServe_waits
  have hsync : ∀ timeout, Proxy.sync j (.readline timeout) e = none := by
    intro timeout
    simp only [Proxy.sync, hinbox]
  refine ⟨fun r => k _ r >>= fun next => pure (some next), ?_, congrArg (· >>= fun next => pure (some next)) (hidle _)⟩
  have hblocked : drive (Proxy.world j) readAndServe s e =
      (.blocked (.readline (readBudget s.upstream s.upstreamLastUsed e.now)) (k _), s, e) := by
    rw [hread, drive_bind, drive_readTimeout]
    simp only [drive, Proxy.world, hsync]
  show drive (Proxy.world j) (readAndServe >>= fun next => pure (some next)) s e = _
  rw [drive_bind, hblocked]

theorem attempt_close : ∃ k, (∀ (s : ControlSession) (e : Proxy), drive (Proxy.world j) (Coro.attempt closeUpstreamWriter) s e =
      drive (Proxy.world j) (.call .upstreamClosed k) s ((e.setLink j fun l => { l with upstream := false }).note j .closed)) ∧
    k (.ok ()) = pure (.ok ()) :=
  ⟨_, fun _ _ => rfl, rfl⟩

theorem drive_release (s : ControlSession) (e : Proxy) (hheld : s.upstream = true) :
    ∃ r s' e', drive (Proxy.world j) releaseUpstream s e = (r, s', e') ∧ s'.upstream = false ∧
      (r = .finished (.ok ()) ∨ ∃ k, r = .blocked .upstreamClosed k) := by
  obtain ⟨k, hclose, hclosed⟩ := attempt_close (j := j)
  obtain ⟨_, _, _, _, _, upstream, holdsSlot, _⟩ := s
  cases hheld
  show ∃ r s' e', drive (Proxy.world j) (Coro.attempt closeUpstreamWriter >>= _) _ e = _ ∧ _
  rw [drive_bind, hclose]
  by_cases hlost : (e.links j).upstreamFlow = .lost
  · have hsync : Proxy.sync j .upstreamClosed ((e.setLink j fun l => { l with upstream := false }).note j .closed) =
        some (.ok (), (e.setLink j fun l => { l with upstream := false }).note j .closed) := by
      simp [Proxy.sync, Proxy.note, Proxy.setLink, hlost]
    simp only [drive, Proxy.world, hsync, hclosed]
    cases holdsSlot with
    | true => exact ⟨_, _, _, rfl, rfl, .inl rfl⟩
    | false => exact ⟨_, _, _, rfl, rfl, .inl rfl⟩
  · have hsync : Proxy.sync j .upstreamClosed ((e.setLink j fun l => { l with upstream := false }).note j .closed) = none := by
      simp [Proxy.sync, Proxy.note, Proxy.setLink, hlost]
    simp only [drive, Proxy.world, hsync]
    exact ⟨_, _, _, rfl, rfl, .inr ⟨_, rfl⟩⟩

theorem goesOn_wake (clients : Clients) (s : ControlSession) (e e₀ : Proxy) (t : ℚ) :
    GoesOn s ((ftpProxy clients).place .reading
        (drive (Proxy.world j) (idle >>= fun next => (pure (some next) : Session (Option Label))) s e))
      ({ clock s e₀ t with now := e.now }).wakeUp.activity := by
  rw [drive_bind, drive_idle]
  unfold IdleClock.wakeUp
  simp only [clock]
  cases hwake : wake s.upstream s.upstreamLastUsed e.now with
  | keepWaiting => rfl
  | disconnect => rfl
  | release =>
      have hheld : s.upstream = true := by
        unfold wake at hwake
        split at hwake
        · assumption
        · cases hwake
      obtain ⟨r, s', e', hr, hdropped, hends⟩ := drive_release (j := j) s e hheld
      have hafter : afterWake .release = (releaseUpstream >>= fun _ => pure .reading) := rfl
      rw [hafter, drive_bind, hr]
      rcases hends with rfl | ⟨k, rfl⟩
      · exact ⟨s', hdropped, .inl rfl⟩
      · exact ⟨s', hdropped, .inr ⟨_, rfl⟩⟩

-- Whatever happens in between, a session whose read times out goes on as its clock does.
theorem reading_times_out (hready : c.procs j = .ready .reading s) (hinbox : (c.env.links j).inbox = [])
    (hrun : (ftpProxy clients).step c (.run j) = some c₁) (hsame : c₂.procs j = c₁.procs j)
    (htimeout : (ftpProxy clients).step c₂ (.resume j (.readline timeout) (.error .timeout)) = some c₃) :
    timeout = (clock s c.env t).deadline c.env.now - c.env.now ∧
      GoesOn s (c₃.procs j) ({ clock s c.env t with now := c₂.env.now }).wakeUp.activity := by
  obtain ⟨k, hwaits, hidle⟩ := drive_reading (j := j) s c.env hinbox
  have hproc : c₂.procs j = .waiting .reading (.readline (readBudget s.upstream s.upstreamLastUsed c.env.now)) k s := by
    simp only [System.step, hready, Option.some.injEq] at hrun
    subst hrun
    refine (hsame.trans (Function.update_self _ _ _)).trans ?_
    show (ftpProxy clients).place .reading (drive (Proxy.world j) (body .reading) s c.env) = _
    rw [hwaits]
    rfl
  simp only [System.step, hproc] at htimeout
  split at htimeout
  · next htime =>
    cases htime
    cases htimeout
    refine ⟨(add_sub_cancel_left _ _).symm, ?_⟩
    have hplaced := goesOn_wake (j := j) clients s c₂.env c.env t
    rw [← hidle] at hplaced
    exact (congrArg (GoesOn s · _) (Function.update_self j _ c₂.procs)).mpr hplaced
  · cases htimeout

end Session

end PandaProxy.FtpProxy
