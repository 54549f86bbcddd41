import Mathlib.Algebra.Order.Field.Rat
import Mathlib.Logic.Function.Basic
import Mathlib.Tactic.Linarith
import PandaProxy.Async.Machine

namespace PandaProxy.Mqtt

open Async

def pushallRetryInterval : ℚ := 4

-- One call of `_request_pushall`; `since` is how many connections had been lost when it set the flag.
inductive Request where
  | unborn
  | waiting (since : Nat)
  | publishing (since connection : Nat)
  | over
  deriving DecidableEq, Repr

namespace Request

def inFlight : Request → Option Nat
  | waiting since => some since
  | publishing since _ => some since
  | _ => none

end Request

-- Where `_upstream_connection_loop` is: it asks once for each connection, and waits for that.
inductive LoopPhase where
  | away
  | connected
  | asking (request : Nat)
  deriving DecidableEq, Repr

structure Sent where
  connection : Nat
  time : ℚ
  deriving DecidableEq

inductive LockHolder where
  | request (r : Nat)
  | other
  deriving DecidableEq, Repr

structure Pushall where
  now : ℚ
  pushallPending : Bool
  pushallTimer : Option Nat
  -- The deadline of a timer that has neither fired nor been cancelled.
  handles : Nat → Option ℚ
  armed : Nat
  upstreamClient : Option Nat
  connections : Nat
  losses : Nat
  upstreamLock : Option LockHolder
  requests : Nat → Request
  calls : Nat
  loop : LoopPhase
  published : List Sent

namespace Pushall

def init : Pushall :=
  { now := 0
    pushallPending := false
    pushallTimer := none
    handles := fun _ => none
    armed := 0
    upstreamClient := none
    connections := 0
    losses := 0
    upstreamLock := none
    requests := fun _ => .unborn
    calls := 0
    loop := .away
    published := [] }

def setRequest (s : Pushall) (r : Nat) (x : Request) : Pushall :=
  { s with requests := Function.update s.requests r x }

def clearPushallPending (s : Pushall) : Pushall :=
  { s with
    pushallPending := false
    handles := match s.pushallTimer with
      | some h => Function.update s.handles h none
      | none => s.handles
    pushallTimer := none }

-- `_request_pushall` once `_publish_pushall` has returned.
def finish (s : Pushall) (r : Nat) (published : Bool) : Pushall :=
  let s := s.setRequest r .over
  if published then
    { s with
      handles := Function.update s.handles s.armed (some (s.now + pushallRetryInterval))
      pushallTimer := some s.armed
      armed := s.armed + 1 }
  else { s with pushallPending := false }

-- `_publish_pushall` from where it has the lock.
def publishPushall (s : Pushall) (r since : Nat) : Pushall :=
  match s.upstreamClient with
  | none => s.finish r false
  | some connection =>
      { s.setRequest r (.publishing since connection) with upstreamLock := some (.request r) }

def requestPushall (s : Pushall) : Pushall :=
  let r := s.calls
  let s := { s with calls := r + 1 }
  if s.pushallPending then s.setRequest r .over
  else
    let s := { s with pushallPending := true }
    match s.upstreamLock with
    | none => s.publishPushall r s.losses
    | some _ => s.setRequest r (.waiting s.losses)

inductive Act where
  | call
  | acquire (r : Nat)
  | complete (r : Nat) (outcome : Bool)
  -- An exception other than `MqttError` ends the call.
  | abort (r : Nat)
  | fire (handle : Nat)
  | connect
  | ask
  | lose
  | lockOther
  | unlockOther
  | elapse (d : ℚ)

def step (s : Pushall) : Act → Option Pushall
  | .call => some s.requestPushall
  | .acquire r =>
      match s.requests r, s.upstreamLock with
      | .waiting since, none => some (s.publishPushall r since)
      | _, _ => none
  | .complete r outcome =>
      match s.requests r with
      | .publishing _ connection =>
          let s := { s with upstreamLock := none }
          let s := if outcome then { s with published := ⟨connection, s.now⟩ :: s.published } else s
          some (s.finish r outcome)
      | _ => none
  | .abort r =>
      match s.requests r with
      | .waiting _ => some (s.setRequest r .over)
      | .publishing _ _ => some ({ s with upstreamLock := none }.setRequest r .over)
      | _ => none
  | .fire h =>
      match s.handles h with
      | some deadline =>
          if deadline ≤ s.now then
            some { s with handles := Function.update s.handles h none }.clearPushallPending
          else none
      | none => none
  | .connect =>
      if s.loop = .away then
        some { s with loop := .connected, upstreamClient := some s.connections, connections := s.connections + 1 }
      else none
  | .ask => if s.loop = .connected then some { s.requestPushall with loop := .asking s.calls } else none
  | .lose =>
      match s.loop with
      | .away => none
      | .connected => some ({ s with loop := .away, upstreamClient := none, losses := s.losses + 1 }.clearPushallPending)
      | .asking r =>
          if s.requests r = .over then
            some ({ s with loop := .away, upstreamClient := none, losses := s.losses + 1 }.clearPushallPending)
          else none
  | .lockOther => if s.upstreamLock = none then some { s with upstreamLock := some .other } else none
  | .unlockOther => if s.upstreamLock = some .other then some { s with upstreamLock := none } else none
  | .elapse d => if 0 < d then some { s with now := s.now + d } else none

end Pushall

def pushall : Machine Pushall Pushall.Act := ⟨Pushall.step⟩

-- No two requests that went out on one connection are less than the interval apart.
def SingleFlight (s : Pushall) : Prop :=
  s.published.Pairwise fun later earlier =>
    later.connection = earlier.connection → earlier.time + pushallRetryInterval ≤ later.time

-- A request sets the flag only when none is under way, and none goes out after the connection it set
-- the flag for has been lost.
def NoneStraddles (s : Pushall) (a : Pushall.Act) (_ : Pushall) : Prop :=
  match a with
  | .call => s.pushallPending = false → ∀ r < s.calls, (s.requests r).inFlight = none
  | .ask => s.pushallPending = false → ∀ r < s.calls, (s.requests r).inFlight = none
  | .complete r true => (s.requests r).inFlight = some s.losses
  | _ => True

namespace Pushall

structure Coherent (s : Pushall) : Prop where
  unborn : ∀ r, s.calls ≤ r → s.requests r = .unborn
  quiet : ∀ r since, (s.requests r).inFlight = some since → (∀ h, s.handles h = none) ∧ since ≤ s.losses
  flag : ∀ r, (s.requests r).inFlight = some s.losses →
    s.pushallPending = true ∧ ∀ r', (s.requests r').inFlight ≠ none → r' = r
  timer : ∀ h deadline, s.handles h = some deadline →
    s.pushallTimer = some h ∧ s.pushallPending = true ∧ h < s.armed
  away : s.loop = .away → s.upstreamClient = none
  known : ∀ c, s.upstreamClient = some c → c < s.connections
  past : ∀ p ∈ s.published, p.connection < s.connections
  sent : ∀ r c, s.requests r = .publishing s.losses c → s.upstreamClient = some c
  settled : ∀ p ∈ s.published, s.upstreamClient = some p.connection →
    p.time + pushallRetryInterval ≤ s.now ∨ ∃ h, s.handles h = some (p.time + pushallRetryInterval)
  spaced : SingleFlight s

variable {s : Pushall} {r : Nat}

theorem inFlight_setRequest {x : Request} {r' : Nat} (h : ((s.setRequest r x).requests r').inFlight ≠ none) :
    (r' = r ∧ x.inFlight ≠ none) ∨ (r' ≠ r ∧ (s.requests r').inFlight ≠ none) := by
  simp only [setRequest] at h
  rcases Decidable.em (r' = r) with rfl | hne
  · exact .inl ⟨rfl, by simpa using h⟩
  · exact .inr ⟨hne, by simpa [hne] using h⟩

theorem setRequest_other {x : Request} {r' : Nat} (h : r' ≠ r) :
    (s.setRequest r x).requests r' = s.requests r' := by
  simp [setRequest, h]

theorem requests_over {r' : Nat} {x : Request} (h : (s.setRequest r .over).requests r' = x) :
    x = .over ∨ (r' ≠ r ∧ s.requests r' = x) := by
  rcases Decidable.em (r' = r) with rfl | hne
  · exact .inl (by simpa [setRequest] using h.symm)
  · exact .inr ⟨hne, by rwa [setRequest_other hne] at h⟩

theorem inFlight_over {r' : Nat} {o : Option Nat} (h : ((s.setRequest r .over).requests r').inFlight = o) :
    o = none ∨ (r' ≠ r ∧ (s.requests r').inFlight = o) := by
  rcases requests_over (show _ = (s.setRequest r .over).requests r' from rfl) with hover | ⟨hne, hsame⟩
  · rw [hover] at h
    exact .inl h.symm
  · rw [← hsame] at h
    exact .inr ⟨hne, h⟩

theorem unborn_setRequest {x : Request} (h : ∀ r, s.calls ≤ r → s.requests r = .unborn)
    (hr : s.requests r ≠ .unborn) (r' : Nat) (hle : s.calls ≤ r') :
    (s.setRequest r x).requests r' = .unborn := by
  have hne : r' ≠ r := by
    rintro rfl
    exact hr (h r' hle)
  rw [setRequest_other hne]
  exact h r' hle

theorem Coherent.over (h : Coherent s) (hr : s.requests r ≠ .unborn) : Coherent (s.setRequest r .over) where
  unborn := unborn_setRequest h.unborn hr
  quiet r' since hf := by
    rcases inFlight_over hf with hnone | ⟨_, hf⟩
    · cases hnone
    · exact h.quiet r' since hf
  flag r' hf := by
    rcases inFlight_over hf with hnone | ⟨_, hf⟩
    · cases hnone
    · refine ⟨(h.flag r' hf).1, fun r'' hf'' => (h.flag r' hf).2 r'' ?_⟩
      rcases inFlight_setRequest hf'' with ⟨_, hne⟩ | ⟨_, hf''⟩
      · exact absurd rfl hne
      · exact hf''
  timer := h.timer
  away := h.away
  known := h.known
  past := h.past
  sent r' c hp := by
    rcases requests_over hp with hover | ⟨_, hp⟩
    · cases hover
    · exact h.sent r' c hp
  settled := h.settled
  spaced := h.spaced

theorem Coherent.lock (h : Coherent s) (holder : Option LockHolder) :
    Coherent { s with upstreamLock := holder } :=
  ⟨h.unborn, h.quiet, h.flag, h.timer, h.away, h.known, h.past, h.sent, h.settled, h.spaced⟩

theorem born_of_inFlight {since : Nat} (hf : (s.requests r).inFlight = some since) : s.requests r ≠ .unborn := by
  intro hu
  rw [hu] at hf
  cases hf

theorem Coherent.fail (h : Coherent s) {since : Nat} (hf : (s.requests r).inFlight = some since) :
    Coherent (s.finish r false) := by
  have hnone := (h.quiet r since hf).1
  have hover := h.over (born_of_inFlight hf)
  refine ⟨hover.unborn, hover.quiet, fun r' hf' => ?_, fun k deadline hk => ?_, h.away, h.known, h.past, hover.sent,
    h.settled, h.spaced⟩
  · rcases inFlight_over hf' with hn | ⟨hne, hf'⟩
    · cases hn
    · exact absurd ((h.flag r' hf').2 r (by rw [hf]; nofun)).symm hne
  · cases (hnone k).symm.trans (show s.handles k = some deadline from hk)

theorem Coherent.publish (h : Coherent s) {since connection : Nat}
    (hr : s.requests r = .publishing since connection) (hcurrent : since = s.losses) :
    Coherent ({ s with published := ⟨connection, s.now⟩ :: s.published }.finish r true) := by
  subst hcurrent
  have hf : (s.requests r).inFlight = some s.losses := by rw [hr]; rfl
  have hnone := (h.quiet r _ hf).1
  have halone := (h.flag r hf).2
  have hclient := h.sent r connection hr
  have hrest : ∀ r', ((s.setRequest r .over).requests r').inFlight = none := by
    intro r'
    rcases inFlight_over (show _ = ((s.setRequest r .over).requests r').inFlight from rfl) with hn | ⟨hne, hsame⟩
    · exact hn
    · rw [← hsame]
      by_contra hfly
      exact hne (halone r' hfly)
  have hlast : ∀ p ∈ s.published, p.connection = connection → p.time + pushallRetryInterval ≤ s.now := by
    intro p hp hc
    rcases h.settled p hp (by rw [hclient, hc]) with hdone | ⟨k, hk⟩
    · exact hdone
    · cases (hnone k).symm.trans hk
  refine ⟨(h.over (born_of_inFlight hf)).unborn, fun r' since hf' => ?_, fun r' hf' => ?_, fun k deadline hk => ?_,
    h.away, h.known, ?_, fun r' c hp => ?_, ?_, ?_⟩
  · cases (hrest r').symm.trans hf'
  · cases (hrest r').symm.trans hf'
  · rcases Decidable.em (k = s.armed) with rfl | hne
    · exact ⟨rfl, (h.flag r hf).1, Nat.lt_succ_self _⟩
    · have hk' : s.handles k = some deadline := by simpa [finish, setRequest, hne] using hk
      cases (hnone k).symm.trans hk'
  · intro p hp
    rcases List.mem_cons.mp hp with rfl | hp
    · exact h.known _ hclient
    · exact h.past p hp
  · have hfly := hrest r'
    rw [show (s.setRequest r .over).requests r' = .publishing s.losses c from hp] at hfly
    cases hfly
  · intro p hp hc
    rcases List.mem_cons.mp hp with rfl | hp
    · exact .inr ⟨s.armed, Function.update_self _ _ _⟩
    · exact .inl (hlast p hp (Option.some.inj (hc.symm.trans hclient)))
  · exact List.pairwise_cons.mpr ⟨fun p hp hc => hlast p hp hc.symm, h.spaced⟩

theorem Coherent.start (h : Coherent s) (hpending : s.pushallPending = false)
    (hnone : ∀ r', (s.requests r').inFlight = none) {x : Request} (hx : x.inFlight = some s.losses)
    (hsent : ∀ c, x = .publishing s.losses c → s.upstreamClient = some c) :
    Coherent ({ s with calls := s.calls + 1, pushallPending := true }.setRequest s.calls x) := by
  have hidle : ∀ k, s.handles k = none := by
    intro k
    cases hk : s.handles k with
    | none => rfl
    | some deadline => cases hpending.symm.trans (h.timer k deadline hk).2.1
  have halone : ∀ r', ((s.setRequest s.calls x).requests r').inFlight ≠ none → r' = s.calls := by
    intro r' hf
    rcases inFlight_setRequest hf with ⟨he, _⟩ | ⟨_, hf⟩
    · exact he
    · exact absurd (hnone r') hf
  refine ⟨fun r' hle => ?_, fun r' since hf => ⟨hidle, ?_⟩, fun r' hf => ⟨rfl, fun r'' hf'' => ?_⟩,
    fun k deadline hk => ?_, h.away, h.known, h.past, fun r' c hp => ?_, h.settled, h.spaced⟩
  · have hlt : s.calls < r' := hle
    exact (setRequest_other hlt.ne').trans (h.unborn r' hlt.le)
  · have he := halone r' (fun hn => nomatch hf.symm.trans hn)
    subst he
    have hsame : some since = some s.losses := by
      rw [← hx, ← hf]
      simp [setRequest]
    exact (Option.some.inj hsame).le
  · rw [halone r'' hf'', halone r' (fun hn => nomatch hf.symm.trans hn)]
  · cases (hidle k).symm.trans hk
  · have he := halone r' (fun hn => nomatch (congrArg Request.inFlight hp).symm.trans hn)
    subst he
    exact hsent c (by simpa [setRequest] using hp)

theorem Coherent.skip (h : Coherent s) : Coherent ({ s with calls := s.calls + 1 }.setRequest s.calls .over) := by
  have hother : ∀ r' o, o ≠ none → ((s.setRequest s.calls .over).requests r').inFlight = o →
      (s.requests r').inFlight = o := by
    intro r' o ho hf
    rcases inFlight_over hf with hn | ⟨_, hf⟩
    · exact absurd hn ho
    · exact hf
  refine ⟨fun r' hle => ?_, fun r' since hf => h.quiet r' since (hother r' _ nofun hf), fun r' hf => ?_, h.timer, h.away,
    h.known, h.past, fun r' c hp => ?_, h.settled, h.spaced⟩
  · have hlt : s.calls < r' := hle
    exact (setRequest_other hlt.ne').trans (h.unborn r' hlt.le)
  · obtain ⟨hflag, halone⟩ := h.flag r' (hother r' _ nofun hf)
    exact ⟨hflag, fun r'' hf'' => halone r'' (by rw [hother r'' _ hf'' rfl]; exact hf'')⟩
  · rcases requests_over hp with hover | ⟨_, hp⟩
    · cases hover
    · exact h.sent r' c hp

theorem Coherent.publishPushall (h : Coherent s) {since : Nat} (hr : s.requests r = .waiting since) :
    Coherent (s.publishPushall r since) := by
  have hf : (s.requests r).inFlight = some since := by rw [hr]; rfl
  unfold Pushall.publishPushall
  cases hclient : s.upstreamClient with
  | none => exact h.fail hf
  | some connection =>
      refine Coherent.lock ?_ _
      have hsame : ∀ r', ((s.setRequest r (.publishing since connection)).requests r').inFlight =
          (s.requests r').inFlight := by
        intro r'
        rcases Decidable.em (r' = r) with rfl | hne
        · rw [hf]
          simp [setRequest, Request.inFlight]
        · rw [setRequest_other hne]
      refine ⟨unborn_setRequest h.unborn (born_of_inFlight hf), fun r' k hk => h.quiet r' k (hsame r' ▸ hk),
        fun r' hk => ?_, h.timer, h.away, h.known, h.past, fun r' c hp => ?_, h.settled, h.spaced⟩
      · obtain ⟨hflag, halone⟩ := h.flag r' (hsame r' ▸ hk)
        exact ⟨hflag, fun r'' hf'' => halone r'' (hsame r'' ▸ hf'')⟩
      · rcases Decidable.em (r' = r) with rfl | hne
        · have hp' : Request.publishing since connection = .publishing s.losses c := by
            simpa [setRequest] using hp
          cases hp'
          exact hclient
        · exact h.sent r' c (by rwa [setRequest_other hne] at hp)

theorem Coherent.requestPushall (h : Coherent s)
    (hok : s.pushallPending = false → ∀ r' < s.calls, (s.requests r').inFlight = none) :
    Coherent s.requestPushall := by
  unfold Pushall.requestPushall
  dsimp only
  split
  · exact h.skip
  · next hp =>
      have hpending : s.pushallPending = false := by simpa using hp
      have hnone : ∀ r', (s.requests r').inFlight = none := by
        intro r'
        rcases Nat.lt_or_ge r' s.calls with hlt | hge
        · exact hok hpending r' hlt
        · rw [h.unborn r' hge]
          rfl
      split
      · unfold Pushall.publishPushall
        split
        · have hsame : ({ s with calls := s.calls + 1, pushallPending := true }.finish s.calls false) =
              { s with calls := s.calls + 1 }.setRequest s.calls .over := by
            simp [finish, setRequest, ← hpending]
          rw [hsame]
          exact h.skip
        · next connection hclient =>
            refine (@Coherent.start s h hpending hnone (.publishing s.losses connection) rfl (fun c hc => ?_)).lock _
            cases hc
            exact hclient
      · exact @Coherent.start s h hpending hnone (.waiting s.losses) rfl (fun c hc => by cases hc)

theorem Coherent.fire (h : Coherent s) {k : Nat} {deadline : ℚ} (hk : s.handles k = some deadline)
    (hdue : deadline ≤ s.now) :
    Coherent ({ s with handles := Function.update s.handles k none }.clearPushallPending) := by
  obtain ⟨htimer, -, -⟩ := h.timer k deadline hk
  have hidle : ∀ r since, (s.requests r).inFlight ≠ some since := by
    intro r since hf
    cases ((h.quiet r since hf).1 k).symm.trans hk
  have honly : ∀ k' d, s.handles k' = some d → k' = k := by
    intro k' d hk'
    exact Option.some.inj ((h.timer k' d hk').1.symm.trans htimer)
  have hnone : ∀ k', ({ s with handles := Function.update s.handles k none }.clearPushallPending).handles k' = none := by
    intro k'
    simp only [clearPushallPending, htimer, Function.update_idem]
    rcases Decidable.em (k' = k) with rfl | hne
    · exact Function.update_self _ _ _
    · rw [Function.update_of_ne hne]
      cases hk' : s.handles k' with
      | none => rfl
      | some d => exact absurd (honly k' d hk') hne
  refine ⟨h.unborn, fun r since hf => absurd hf (hidle r since), fun r hf => absurd hf (hidle r _), fun k' d hk' => ?_, h.away,
    h.known, h.past, h.sent, fun p hp hc => ?_, h.spaced⟩
  · cases (hnone k').symm.trans hk'
  · rcases h.settled p hp hc with hdone | ⟨k', hk'⟩
    · exact .inl hdone
    · rw [honly k' _ hk', hk] at hk'
      exact .inl (Option.some.inj hk' ▸ hdue)

theorem Coherent.lose (h : Coherent s) :
    Coherent ({ s with loop := .away, upstreamClient := none, losses := s.losses + 1 }.clearPushallPending) := by
  have hnone : ∀ k, ({ s with loop := .away, upstreamClient := none, losses := s.losses + 1 }.clearPushallPending).handles
      k = none := by
    intro k
    simp only [clearPushallPending]
    cases hk : s.handles k with
    | none =>
        cases s.pushallTimer with
        | none => exact hk
        | some k' =>
            rcases Decidable.em (k = k') with rfl | hne
            · exact Function.update_self _ _ _
            · exact (Function.update_of_ne hne _ _).trans hk
    | some d =>
        rw [(h.timer k d hk).1]
        exact Function.update_self _ _ _
  have hold : ∀ r since, (s.requests r).inFlight = some since → since ≤ s.losses :=
    fun r since hf => (h.quiet r since hf).2
  refine ⟨h.unborn, fun r since hf => ⟨hnone, (hold r since hf).trans (Nat.le_succ _)⟩, fun r hf => ?_, fun k d hk => ?_,
    fun _ => rfl, nofun, h.past, fun r c hp => ?_, nofun, h.spaced⟩
  · exact absurd (hold r _ hf) (Nat.not_succ_le_self _)
  · cases (hnone k).symm.trans hk
  · have hf : (s.requests r).inFlight = some (s.losses + 1) := by
      rw [show s.requests r = .publishing (s.losses + 1) c from hp]
      rfl
    exact absurd (hold r _ hf) (Nat.not_succ_le_self _)

theorem Coherent.connect (h : Coherent s) (haway : s.loop = .away) :
    Coherent { s with
      loop := .connected
      upstreamClient := some s.connections
      connections := s.connections + 1 } := by
  refine ⟨h.unborn, h.quiet, h.flag, h.timer, nofun, ?_, ?_, ?_, ?_, h.spaced⟩
  · intro c hc
    cases hc
    exact Nat.lt_succ_self _
  · exact fun p hp => (h.past p hp).trans (Nat.lt_succ_self _)
  · intro r c hp
    cases (h.away haway).symm.trans (h.sent r c hp)
  · intro p hp hc
    exact absurd (h.past p hp) (by rw [← Option.some.inj hc]; exact Nat.lt_irrefl _)

theorem Coherent.elapse (h : Coherent s) {d : ℚ} (hd : 0 < d) : Coherent { s with now := s.now + d } := by
  refine ⟨h.unborn, h.quiet, h.flag, h.timer, h.away, h.known, h.past, h.sent, fun p hp hc => ?_, h.spaced⟩
  rcases h.settled p hp hc with hdone | hk
  · exact .inl (by show _ ≤ s.now + d; linarith)
  · exact .inr hk

theorem Coherent.step {s' : Pushall} {a : Act} (h : Coherent s) (hstep : s.step a = some s')
    (hok : NoneStraddles s a s') : Coherent s' := by
  cases a with
  | call =>
      cases hstep
      exact h.requestPushall hok
  | acquire r =>
      simp only [Pushall.step] at hstep
      split at hstep
      · next since hr _ =>
          cases hstep
          exact h.publishPushall hr
      · cases hstep
  | complete r outcome =>
      simp only [Pushall.step] at hstep
      split at hstep
      · next since connection hr =>
          cases hstep
          have hlocked := h.lock none
          cases outcome with
          | false => exact @Coherent.fail _ r hlocked since (congrArg Request.inFlight hr)
          | true =>
              have hcurrent : (s.requests r).inFlight = some s.losses := hok
              rw [hr] at hcurrent
              exact hlocked.publish hr (Option.some.inj hcurrent)
      · cases hstep
  | abort r =>
      simp only [Pushall.step] at hstep
      split at hstep
      · next hr =>
          cases hstep
          exact h.over (by rw [hr]; nofun)
      · next hr =>
          cases hstep
          exact (h.lock none).over (by show s.requests r ≠ _; rw [hr]; nofun)
      · cases hstep
  | fire k =>
      simp only [Pushall.step] at hstep
      split at hstep
      · next deadline hk =>
          split at hstep <;> cases hstep
          next hdue => exact h.fire hk hdue
      · cases hstep
  | connect =>
      simp only [Pushall.step] at hstep
      split at hstep <;> cases hstep
      next haway => exact h.connect haway
  | ask =>
      simp only [Pushall.step] at hstep
      split at hstep <;> cases hstep
      have hreq := h.requestPushall hok
      exact ⟨hreq.unborn, hreq.quiet, hreq.flag, hreq.timer, nofun, hreq.known, hreq.past, hreq.sent, hreq.settled, hreq.spaced⟩
  | lose =>
      simp only [Pushall.step] at hstep
      split at hstep
      · cases hstep
      · cases hstep
        exact h.lose
      · split at hstep <;> cases hstep
        exact h.lose
  | lockOther =>
      simp only [Pushall.step] at hstep
      split at hstep <;> cases hstep
      exact h.lock _
  | unlockOther =>
      simp only [Pushall.step] at hstep
      split at hstep <;> cases hstep
      exact h.lock _
  | elapse d =>
      simp only [Pushall.step] at hstep
      split at hstep <;> cases hstep
      next hd => exact h.elapse hd

theorem init_coherent : Coherent init :=
  ⟨fun _ _ => rfl, nofun, nofun, nofun, fun _ => rfl, nofun, nofun, nofun, nofun, .nil⟩

end Pushall

theorem pushall_single_flight {s : Pushall} (hrun : pushall.Runs NoneStraddles .init s) : SingleFlight s :=
  (hrun.keeps Pushall.init_coherent fun _ _ _ h hstep hok => h.step hstep hok).spaced

-- A subscriber's request fails after the printer has been lost and found again, and lets another one out.
def straddling : List Pushall.Act :=
  [.connect, .ask, .complete 0 false, .call, .lose, .connect, .ask, .complete 1 false, .acquire 2, .complete 2 true,
    .call, .complete 3 true]

theorem straddling_request_released : ¬ ∀ s, pushall.Runs Machine.Free .init s → SingleFlight s := by
  intro h
  have hend : (pushall.play .init straddling).map (fun s => s.published) = some [⟨1, 0⟩, ⟨1, 0⟩] := by
    decide +kernel
  obtain ⟨s, hs, hpublished⟩ := Option.map_eq_some_iff.mp hend
  have hsingle := h s (Machine.play_runs hs)
  rw [SingleFlight, hpublished] at hsingle
  have hspaced := (List.pairwise_cons.mp hsingle).1 ⟨1, 0⟩ List.mem_cons_self rfl
  exact absurd hspaced (by decide +kernel)

def noneStraddlesCheck (s : Pushall) (a : Pushall.Act) (_ : Pushall) : Bool :=
  match a with
  | .call => s.pushallPending || (List.range s.calls).all fun r => (s.requests r).inFlight.isNone
  | .ask => s.pushallPending || (List.range s.calls).all fun r => (s.requests r).inFlight.isNone
  | .complete r true => (s.requests r).inFlight == some s.losses
  | _ => true

theorem noneStraddlesCheck_ok (s : Pushall) (a : Pushall.Act) (s' : Pushall)
    (h : noneStraddlesCheck s a s' = true) : NoneStraddles s a s' := by
  have hnone : (s.pushallPending || (List.range s.calls).all fun r => (s.requests r).inFlight.isNone) = true →
      s.pushallPending = false → ∀ r < s.calls, (s.requests r).inFlight = none := by
    intro hcheck hpending r hr
    rw [hpending, Bool.false_or, List.all_eq_true] at hcheck
    exact Option.isNone_iff_eq_none.mp (hcheck r (List.mem_range.mpr hr))
  cases a with
  | call => exact hnone h
  | ask => exact hnone h
  | complete r outcome =>
      cases outcome with
      | true => exact beq_iff_eq.mp h
      | false => trivial
  | _ => trivial

-- Two subscribers join; the second one's request goes out when the first one's timer has fired.
def joining : List Pushall.Act :=
  [.connect, .ask, .call, .complete 0 true, .elapse 3, .call, .elapse 1, .fire 0, .call, .complete 3 true]

theorem pushall_single_flight_joining : ∃ s, pushall.playWhile noneStraddlesCheck .init joining = some s ∧
    s.published = [⟨0, 4⟩, ⟨0, 0⟩] ∧ SingleFlight s := by
  have hend : (pushall.playWhile noneStraddlesCheck .init joining).map (fun s => s.published) =
      some [⟨0, 4⟩, ⟨0, 0⟩] := by
    decide +kernel
  obtain ⟨s, hs, hpublished⟩ := Option.map_eq_some_iff.mp hend
  exact ⟨s, hs, hpublished, pushall_single_flight (Machine.playWhile_runs noneStraddlesCheck_ok hs)⟩

end PandaProxy.Mqtt
