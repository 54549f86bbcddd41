import PandaProxy.Rtsp.RTSPProxy

namespace PandaProxy.Rtsp

open Async

namespace RTSPProxy

variable {e e' e'' : RTSPProxy} {kind k : Kind} {p q : Nat} {j : Task} {orderly : Bool}

def Active (j : Task) (e : RTSPProxy) : Prop := e.begun j = true ∧ e.ended j = false

def Joined (e : RTSPProxy) : Prop := e.begun .monitor = true → e.ended .monitor = true

def HeldBut (x : Option Nat) (e : RTSPProxy) : Prop :=
  ∀ p, (e.processes p).alive = true → some p = x ∨ e.process (e.processes p).kind = some p

def Secure (j : Task) (x : Option Nat) (e : RTSPProxy) : Prop := (j = .start → e.begun .stop = false) → HeldBut x e

structure Quiet (e : RTSPProxy) : Prop where
  running : e.running = false
  processes : ∀ p, (e.processes p).alive = true → (e.processes p).killed = true
  readers : ∀ p, (e.processes p).reading = false
  config : ∀ path, e.configPath = some path → path ∉ e.files

structure Supervised (orderly : Bool) (e : RTSPProxy) : Prop where
  single : ∀ p q, (e.processes p).alive = true → (e.processes q).alive = true →
    (e.processes p).kind = (e.processes q).kind → p = q
  held : ∀ p, (e.processes p).alive = true → e.process (e.processes p).kind = some p ∨
    e.opening (e.processes p).kind = some p ∨ (e.processes p).killed = true
  known : ∀ k p, e.process k = some p → p < e.launched ∧ (e.processes p).kind = k
  opened : ∀ k p, e.opening k = some p → p < e.launched ∧ (e.processes p).kind = k
  opener : ∀ k p, e.opening k = some p → Active .start e ∨ Active .monitor e
  unborn : ∀ p, e.launched ≤ p → (e.processes p).alive = false ∧ (e.processes p).reading = false
  read : ∀ p, (e.processes p).reading = true → e.logTask (e.processes p).kind = some p
  logged : ∀ k p, e.logTask k = some p → p < e.launched ∧ (e.processes p).kind = k
  ends : ∀ j, e.ended j = true → e.begun j = true
  monitored : e.begun .monitor = true → e.ended .start = true
  handed : e.ended .start = true → e.returned .start = true → e.begun .monitor = false → Secure .start none e
  stopping : e.begun .stop = true → e.begun .start = true ∧ (e.begun .monitor = true → e.monitorTask = true) ∧
    (orderly = true → e.ended .start = true)
  stopped : e.returned .stop = true → e.begun .stop = true ∧ Joined e ∧ (orderly = true → Quiet e)
  gaveUp : e.ended .monitor = true → e.running = false ∨ e.thrown .monitor = true

structure Fades (e e' : RTSPProxy) : Prop where
  launched : e'.launched = e.launched
  kind : ∀ p, (e'.processes p).kind = (e.processes p).kind
  alive : ∀ p, (e'.processes p).alive = true → (e.processes p).alive = true
  killed : ∀ p, (e.processes p).killed = true → (e'.processes p).killed = true
  reading : ∀ p, (e'.processes p).reading = true → (e.processes p).reading = true
  process : ∀ k, e'.process k = e.process k ∨ e'.process k = none
  opening : ∀ k, e'.opening k = e.opening k ∨ e'.opening k = none
  logTask : ∀ k, e'.logTask k = e.logTask k ∨ e'.logTask k = none
  running : e'.running = true → e.running = true
  config : (∀ path, e.configPath = some path → path ∉ e.files) → ∀ path, e'.configPath = some path → path ∉ e'.files

theorem Fades.unseen (hlaunched : e'.launched = e.launched) (hprocesses : e'.processes = e.processes) (hprocess : e'.process = e.process)
    (hopening : e'.opening = e.opening) (hlog : e'.logTask = e.logTask) (hrunning : e'.running = e.running)
    (hpath : e'.configPath = e.configPath) (hfiles : e'.files = e.files) : Fades e e' where
  launched := hlaunched
  kind p := by rw [hprocesses]
  alive p := by
    rw [hprocesses]
    exact id
  killed p := by
    rw [hprocesses]
    exact id
  reading p := by
    rw [hprocesses]
    exact id
  process k := .inl (congrFun hprocess k)
  opening k := .inl (congrFun hopening k)
  logTask k := .inl (congrFun hlog k)
  running := by
    rw [hrunning]
    exact id
  config := by
    rw [hpath, hfiles]
    exact id

theorem Fades.refl (e : RTSPProxy) : Fades e e := .unseen rfl rfl rfl rfl rfl rfl rfl rfl

structure SameFlags (j : Task) (e e' : RTSPProxy) : Prop where
  begun : e'.begun j = e.begun j
  returned : e'.returned j = e.returned j
  ended : e'.ended j = e.ended j
  thrown : e.thrown j = true → e'.thrown j = true

def Minds (e e' : RTSPProxy) : Prop := ∀ k p, e.process k = some p → e'.process k = some p

def Exclusive (orderly : Bool) : Task → RTSPProxy → Prop
  | .start, e => e.ended .start = false
  | .monitor, e => Active .monitor e
  | .stop, e => Active .stop e ∧ Joined e ∧ orderly = true

structure Rely (orderly : Bool) (j : Task) (e e' : RTSPProxy) : Prop where
  flags : SameFlags j e e'
  fades : Exclusive orderly j e → Fades e e'
  opening : j ≠ .stop → Active j e → e'.opening = e.opening
  secure : j ≠ .stop → Active j e → ∀ x, Secure j x e → Secure j x e'
  joined : j = .stop → Active .stop e → Joined e → Joined e'
  minds : j = .stop → Active .stop e → Joined e → Minds e e'
  halted : j = .stop → Active .stop e → orderly = true → e'.running = true → e.running = true

-- A process may be launched, and its output read, where none of its kind runs any more and none is read.
def Dead (k : Kind) (e : RTSPProxy) : Prop := ∀ p, (e.processes p).kind = k → (e.processes p).alive = false

def Unread (k : Kind) (e : RTSPProxy) : Prop := e.logTask k = none

-- It may be put into its field where it is the only one of its kind.
def Sole (k : Kind) (p : Nat) (e : RTSPProxy) : Prop := ∀ q, (e.processes q).kind = k → (e.processes q).alive = true → q = p

-- A field may be emptied once the process in it is over or has been killed.
def Spent (k : Kind) (e : RTSPProxy) : Prop :=
  ∀ p, e.process k = some p → (e.processes p).alive = true → (e.processes p).killed = true

def Owes (orderly : Bool) (j : Task) : Op → RTSPProxy → Prop
  | .setRunning true, _ => j = .start
  | .setRunning false, _ => True
  | .createConfig, _ => j = .start
  | .popen k, e => j ≠ .stop ∧ Dead k e ∧ e.opening k = none
  | .closeTransport p, e => j ≠ .stop ∧ e.opening (e.processes p).kind = some p
  | .assign k p, e => j ≠ .stop ∧ e.opening k = some p ∧ Sole k p e ∧ (j = .start → e.process k = none)
  | .createLogTask k, e => j ≠ .stop ∧ Unread k e
  | .kill _, e => j = .stop ∧ Joined e
  | .forget k, e => j = .stop ∧ Joined e ∧ Spent k e
  | .returned, e => j = .start ∨ j = .stop ∧ Joined e ∧ (orderly = true → Quiet e)
  | .ended, e => (j = .monitor → e.running = false ∨ e.thrown .monitor = true) ∧ (j ≠ .stop → ∀ k, e.opening k = none) ∧
      (j = .start → e.returned .start = true → Secure .start none e)
  | _, _ => True

def calms : Op → Bool
  | .setRunning running => !running
  | .createConfig => false
  | .popen _ => false
  | .assign _ _ => false
  | .createLogTask _ => false
  | _ => true

theorem Fades.setProcess {f : Process → Process} (hkind : ∀ x, (f x).kind = x.kind) (halive : ∀ x, (f x).alive = true → x.alive = true)
    (hkilled : ∀ x, x.killed = true → (f x).killed = true) (hreading : ∀ x, (f x).reading = true → x.reading = true) :
    Fades e (e.setProcess p f) := by
  have hpair : ∀ q, (e.setProcess p f).processes q = if q = p then f (e.processes q) else e.processes q := by
    intro q
    by_cases hq : q = p
    · subst hq
      simp [RTSPProxy.setProcess]
    · simp [RTSPProxy.setProcess, hq]
  refine ⟨rfl, fun q => ?_, fun q => ?_, fun q => ?_, fun q => ?_, fun _ => .inl rfl, fun _ => .inl rfl, fun _ => .inl rfl, id, id⟩
  · rw [hpair q]
    split
    · exact hkind _
    · rfl
  · rw [hpair q]
    split
    · exact halive _
    · exact id
  · rw [hpair q]
    split
    · exact hkilled _
    · exact id
  · rw [hpair q]
    split
    · exact hreading _
    · exact id

theorem Fades.dropLogTask (e : RTSPProxy) (kind : Kind) : Fades e (e.dropLogTask kind) := by
  unfold RTSPProxy.dropLogTask
  split
  · next p _ =>
      have hset : Fades e (e.setProcess p fun x => { x with reading := false }) := by
        refine .setProcess ?_ ?_ ?_ ?_
        · exact fun _ => rfl
        · exact fun _ => id
        · exact fun _ => id
        · rintro _ ⟨⟩
      refine ⟨hset.launched, hset.kind, hset.alive, hset.killed, hset.reading, fun _ => .inl rfl, fun _ => .inl rfl, fun k => ?_, id, id⟩
      by_cases hk : k = kind
      · subst hk
        exact .inr (Function.update_self _ _ _)
      · exact .inl (Function.update_of_ne hk _ _)
  · exact .refl e

theorem Fades.closeTransport (e : RTSPProxy) (p : Nat) : Fades e (e.closeTransport p) := by
  have hset : Fades e (e.setProcess p fun x => { x with killed := true }) := by
    refine .setProcess ?_ ?_ ?_ ?_
    · exact fun _ => rfl
    · exact fun _ => id
    · exact fun _ _ => rfl
    · exact fun _ => id
  refine ⟨hset.launched, hset.kind, hset.alive, hset.killed, hset.reading, fun _ => .inl rfl, fun k => ?_, fun _ => .inl rfl, id, id⟩
  by_cases hk : k = (e.processes p).kind
  · subst hk
    exact .inr (Function.update_self _ _ _)
  · exact .inl (Function.update_of_ne hk _ _)

theorem Fades.trans (h : Fades e e') (h' : Fades e' e'') : Fades e e'' where
  launched := h'.launched.trans h.launched
  kind p := (h'.kind p).trans (h.kind p)
  alive p hp := h.alive p (h'.alive p hp)
  killed p hp := h'.killed p (h.killed p hp)
  reading p hp := h.reading p (h'.reading p hp)
  process k := by
    rcases h'.process k with hsame | hnone
    · rw [hsame]
      exact h.process k
    · exact .inr hnone
  opening k := by
    rcases h'.opening k with hsame | hnone
    · rw [hsame]
      exact h.opening k
    · exact .inr hnone
  logTask k := by
    rcases h'.logTask k with hsame | hnone
    · rw [hsame]
      exact h.logTask k
    · exact .inr hnone
  running hr := h.running (h'.running hr)
  config hc := h'.config (h.config hc)

theorem removeConfig_gone (e : RTSPProxy) (path : Nat) (h : e.removeConfig.configPath = some path) : path ∉ e.removeConfig.files := by
  unfold removeConfig at h ⊢
  split at h
  · next path' hpath =>
      split at h
      · cases h
      · next hnot =>
          cases hpath.symm.trans h
          simp [hnot]
  · next hnone => cases hnone.symm.trans h

theorem Fades.removeConfig (e : RTSPProxy) : Fades e e.removeConfig := by
  refine ⟨?_, fun p => ?_, fun p => ?_, fun p => ?_, fun p => ?_, fun k => ?_, fun k => ?_, fun k => ?_, ?_, fun _ => e.removeConfig_gone⟩
  all_goals
    unfold RTSPProxy.removeConfig
    split
    · split
      · first
        | rfl
        | exact id
        | exact .inl rfl
      · first
        | rfl
        | exact id
        | exact .inl rfl
    · first
      | rfl
      | exact id
      | exact .inl rfl

theorem sync_fades {i : Op} {r : Except Exc i.Answer} (hi : calms i = true) (h : sync j i e = some (r, e')) : Fades e e' := by
  cases i with
  | setRunning running =>
      cases h
      cases running with
      | true => cases hi
      | false =>
          refine ⟨rfl, fun _ => rfl, fun _ => id, fun _ => id, fun _ => id, fun _ => .inl rfl, fun _ => .inl rfl, fun _ => .inl rfl, ?_, id⟩
          rintro ⟨⟩
  | createConfig | popen | assign | createLogTask => cases hi
  | running | process | exited | terminate =>
      cases h
      exact .refl e
  | connectPipes | reap | sleep | wait | joinMonitor => cases h
  | closeTransport p =>
      cases h
      exact .closeTransport e p
  | kill p =>
      cases h
      split
      · exact .refl e
      · refine .setProcess ?_ ?_ ?_ ?_
        · exact fun _ => rfl
        · exact fun _ => id
        · exact fun _ _ => rfl
        · exact fun _ => id
  | forget kind =>
      cases h
      refine ⟨rfl, fun _ => rfl, fun _ => id, fun _ => id, fun _ => id, fun k => ?_, fun _ => .inl rfl, fun _ => .inl rfl, id, id⟩
      by_cases hk : k = kind
      · subst hk
        exact .inr (Function.update_self _ _ _)
      · exact .inl (Function.update_of_ne hk _ _)
  | dropLogTask kind =>
      simp only [sync] at h
      split at h <;> cases h
      exact .refl e
  | dropLogTasks =>
      simp only [sync] at h
      split at h <;> cases h
      exact .refl e
  | enlist | returned | ended =>
      cases h
      exact .unseen rfl rfl rfl rfl rfl rfl rfl rfl
  | cancelMonitor =>
      cases h
      split
      · exact .unseen rfl rfl rfl rfl rfl rfl rfl rfl
      · exact .refl e
  | removeConfig =>
      cases h
      exact .removeConfig e

theorem awaken_fades {i : Op} {r : Except Exc i.Answer} (h : e.awaken i r = some e') : Fades e e' := by
  unfold awaken at h
  split at h
  case h_1 | h_2 | h_4 | h_6 | h_8 | h_10 =>
    cases h
    exact .refl e
  case h_3 | h_5 | h_11 =>
    split at h <;> cases h
    exact .refl e
  case h_7 =>
    cases h
    exact .dropLogTask e _
  case h_9 =>
    cases h
    exact (Fades.dropLogTask e .ffmpeg).trans (.dropLogTask _ .mediamtx)
  case h_12 => cases h

theorem tick_fades {b : Tick} (h : e.tick b = some e') : Fades e e' := by
  cases b with
  | exit p =>
      cases h
      refine .setProcess ?_ ?_ ?_ ?_
      · exact fun _ => rfl
      · rintro _ ⟨⟩
      · exact fun _ => id
      · exact fun _ => id
  | lose p =>
      simp only [tick] at h
      split at h <;> cases h
      refine .setProcess ?_ ?_ ?_ ?_
      · exact fun _ => rfl
      · exact fun _ => id
      · exact fun _ => id
      · exact fun _ => id
  | readerEnds p =>
      cases h
      refine .setProcess ?_ ?_ ?_ ?_
      · exact fun _ => rfl
      · exact fun _ => id
      · exact fun _ => id
      · rintro _ ⟨⟩
  | cancel | disk | exec =>
      cases h
      exact .unseen rfl rfl rfl rfl rfl rfl rfl rfl

structure SameTasks (e e' : RTSPProxy) : Prop where
  begun : e'.begun = e.begun
  returned : e'.returned = e.returned
  ended : e'.ended = e.ended
  thrown : ∀ j, e.thrown j = true → e'.thrown j = true
  monitorTask : e.monitorTask = true → e'.monitorTask = true

theorem SameTasks.refl (e : RTSPProxy) : SameTasks e e := ⟨rfl, rfl, rfl, fun _ => id, id⟩

theorem SameTasks.trans (h : SameTasks e e') (h' : SameTasks e' e'') : SameTasks e e'' :=
  ⟨h'.begun.trans h.begun, h'.returned.trans h.returned, h'.ended.trans h.ended, fun j hj => h'.thrown j (h.thrown j hj),
    fun hm => h'.monitorTask (h.monitorTask hm)⟩

theorem SameTasks.flags (h : SameTasks e e') (j : Task) : SameFlags j e e' :=
  ⟨congrFun h.begun j, congrFun h.returned j, congrFun h.ended j, h.thrown j⟩

theorem SameTasks.active (h : SameTasks e e') (j : Task) : Active j e' ↔ Active j e := by
  rw [Active, Active, h.begun, h.ended]

theorem SameTasks.joined (h : SameTasks e e') : Joined e' ↔ Joined e := by
  rw [Joined, Joined, h.begun, h.ended]

theorem SameTasks.dropLogTask (e : RTSPProxy) (kind : Kind) : SameTasks e (e.dropLogTask kind) := by
  unfold RTSPProxy.dropLogTask
  split
  · exact ⟨rfl, rfl, rfl, fun _ => id, id⟩
  · exact .refl e

theorem SameTasks.removeConfig (e : RTSPProxy) : SameTasks e e.removeConfig := by
  unfold RTSPProxy.removeConfig
  split
  · split
    · exact ⟨rfl, rfl, rfl, fun _ => id, id⟩
    · exact .refl e
  · exact .refl e

theorem SameTasks.createConfig (e : RTSPProxy) : SameTasks e e.createConfig.2 := by
  unfold RTSPProxy.createConfig
  split
  · exact ⟨rfl, rfl, rfl, fun _ => id, id⟩
  · dsimp only
    split
    · exact ⟨rfl, rfl, rfl, fun _ => id, id⟩
    · exact .refl e

def closes : Op → Bool
  | .returned => true
  | .ended => true
  | _ => false

theorem sync_tasks {i : Op} {r : Except Exc i.Answer} (hi : closes i = false) (h : sync j i e = some (r, e')) : SameTasks e e' := by
  cases i with
  | returned | ended => cases hi
  | connectPipes | reap | sleep | wait | joinMonitor => cases h
  | popen kind =>
      simp only [sync] at h
      split at h <;> cases h
      · exact ⟨rfl, rfl, rfl, fun _ => id, id⟩
      · exact .refl e
  | createConfig =>
      simp only [sync, Option.some.injEq] at h
      have hconfig := SameTasks.createConfig e
      rw [h] at hconfig
      exact hconfig
  | createLogTask kind =>
      simp only [sync] at h
      split at h <;> cases h
      · exact ⟨rfl, rfl, rfl, fun _ => id, id⟩
      · exact .refl e
  | kill p =>
      cases h
      split
      · exact .refl e
      · exact ⟨rfl, rfl, rfl, fun _ => id, id⟩
  | dropLogTask | dropLogTasks =>
      simp only [sync] at h
      split at h <;> cases h
      exact .refl e
  | cancelMonitor =>
      cases h
      split
      · exact ⟨rfl, rfl, rfl, fun _ => id, id⟩
      · exact .refl e
  | removeConfig =>
      cases h
      exact .removeConfig e
  | enlist =>
      cases h
      exact ⟨rfl, rfl, rfl, fun _ => id, fun _ => rfl⟩
  | setRunning | running | process | exited | terminate | forget | closeTransport | assign =>
      cases h
      exact ⟨rfl, rfl, rfl, fun _ => id, id⟩

theorem awaken_tasks {i : Op} {r : Except Exc i.Answer} (h : e.awaken i r = some e') : SameTasks e e' := by
  unfold awaken at h
  split at h
  case h_1 | h_2 | h_4 | h_6 | h_8 | h_10 =>
    cases h
    exact .refl e
  case h_3 | h_5 | h_11 =>
    split at h <;> cases h
    exact .refl e
  case h_7 =>
    cases h
    exact .dropLogTask e _
  case h_9 =>
    cases h
    exact (SameTasks.dropLogTask e .ffmpeg).trans (.dropLogTask _ .mediamtx)
  case h_12 => cases h

-- Cancelled or not, a coroutine goes on from what it waited for, or with the `CancelledError`.
inductive Resumes (j : Task) (i : Op) (r : Except Exc i.Answer) (e e' : RTSPProxy) : Prop where
  | awakes (h : e.awaken i r = some e')
  | swallows (hi : swallows i = true)
      (h : ({ e with cancelling := Function.update e.cancelling j false } : RTSPProxy).awaken i r = some e')
  | throws (hr : r = .error .cancelled) (hi : e.interruptible i = true)
      (h : e' = { e with cancelling := Function.update e.cancelling j false, thrown := Function.update e.thrown j true })

theorem resume_cases {i : Op} {r : Except Exc i.Answer} (h : resume j i r e = some e') : Resumes j i r e e' := by
  simp only [resume] at h
  split at h
  · split at h
    · split at h <;> cases h
      next hi => exact .throws rfl hi rfl
    · split at h
      · next hi => exact .swallows hi h
      · cases h
  · exact .awakes h

theorem thrown_mono (e : RTSPProxy) (j k : Task) (h : e.thrown k = true) : Function.update e.thrown j true k = true := by
  by_cases hk : k = j
  · subst hk
    exact Function.update_self _ _ _
  · rwa [Function.update_of_ne hk]

theorem resume_tasks {i : Op} {r : Except Exc i.Answer} (h : resume j i r e = some e') : SameTasks e e' := by
  cases resume_cases h with
  | awakes h => exact awaken_tasks h
  | swallows _ h =>
      obtain ⟨hbegun, hreturned, hended, hthrown, hmonitor⟩ := awaken_tasks h
      exact ⟨hbegun, hreturned, hended, hthrown, hmonitor⟩
  | throws _ _ h =>
      subst h
      exact ⟨rfl, rfl, rfl, e.thrown_mono j, id⟩

theorem resume_fades {i : Op} {r : Except Exc i.Answer} (h : resume j i r e = some e') : Fades e e' := by
  cases resume_cases h with
  | awakes h => exact awaken_fades h
  | swallows _ h =>
      have hfades := awaken_fades h
      exact ⟨hfades.launched, hfades.kind, hfades.alive, hfades.killed, hfades.reading, hfades.process, hfades.opening, hfades.logTask,
        hfades.running, hfades.config⟩
  | throws _ _ h =>
      subst h
      exact .unseen rfl rfl rfl rfl rfl rfl rfl rfl

structure SameHolders (e e' : RTSPProxy) : Prop where
  process : e'.process = e.process
  opening : e'.opening = e.opening

theorem dropLogTask_holders (e : RTSPProxy) (kind : Kind) : SameHolders e (e.dropLogTask kind) := by
  unfold RTSPProxy.dropLogTask
  split <;> exact ⟨rfl, rfl⟩

theorem awaken_holders {i : Op} {r : Except Exc i.Answer} (h : e.awaken i r = some e') : SameHolders e e' := by
  unfold awaken at h
  split at h
  case h_1 | h_2 | h_4 | h_6 | h_8 | h_10 =>
    cases h
    exact ⟨rfl, rfl⟩
  case h_3 | h_5 | h_11 =>
    split at h <;> cases h
    exact ⟨rfl, rfl⟩
  case h_7 =>
    cases h
    exact dropLogTask_holders e _
  case h_9 =>
    cases h
    obtain ⟨hprocess, hopening⟩ := dropLogTask_holders e .ffmpeg
    obtain ⟨hprocess', hopening'⟩ := dropLogTask_holders (e.dropLogTask .ffmpeg) .mediamtx
    exact ⟨hprocess'.trans hprocess, hopening'.trans hopening⟩
  case h_12 => cases h

theorem resume_holders {i : Op} {r : Except Exc i.Answer} (h : resume j i r e = some e') : SameHolders e e' := by
  cases resume_cases h with
  | awakes h => exact awaken_holders h
  | swallows _ h =>
      obtain ⟨hprocess, hopening⟩ := awaken_holders h
      exact ⟨hprocess, hopening⟩
  | throws _ _ h =>
      subst h
      exact ⟨rfl, rfl⟩

theorem HeldBut.fades {x : Option Nat} (h : HeldBut x e) (hf : Fades e e') (hprocess : e'.process = e.process) : HeldBut x e' := by
  intro p hp
  rw [hprocess, hf.kind]
  exact h p (hf.alive p hp)

theorem Secure.fades {x : Option Nat} (h : Secure j x e) (hf : Fades e e') (hprocess : e'.process = e.process)
    (hbegun : e.begun .stop = true → e'.begun .stop = true) : Secure j x e' := by
  refine fun hs => (h fun hj => ?_).fades hf hprocess
  cases hb : e.begun .stop with
  | false => rfl
  | true => cases (hbegun hb).symm.trans (hs hj)

theorem Dead.fades (h : Dead k e) (hf : Fades e e') : Dead k e' := by
  intro p hp
  cases halive : (e'.processes p).alive with
  | false => rfl
  | true => cases (h p ((hf.kind p).symm.trans hp)).symm.trans (hf.alive p halive)

theorem Sole.fades (h : Sole k p e) (hf : Fades e e') : Sole k p e' :=
  fun q hq halive => h q ((hf.kind q).symm.trans hq) (hf.alive q halive)

theorem Unread.fades (h : Unread k e) (hf : Fades e e') : Unread k e' := by
  rcases hf.logTask k with hsame | hnone
  · exact hsame.trans h
  · exact hnone

theorem Quiet.fades (h : Quiet e) (hf : Fades e e') : Quiet e' where
  running := by
    cases hr : e'.running with
    | false => rfl
    | true => cases h.running.symm.trans (hf.running hr)
  processes p hp := hf.killed p (h.processes p (hf.alive p hp))
  readers p := by
    cases hp : (e'.processes p).reading with
    | false => rfl
    | true => cases (h.readers p).symm.trans (hf.reading p hp)
  config := hf.config h.config

theorem Supervised.fades (h : Supervised orderly e) (hf : Fades e e') (ht : SameTasks e e')
    (hheld : ∀ p, (e'.processes p).alive = true → e'.process (e'.processes p).kind = some p ∨
      e'.opening (e'.processes p).kind = some p ∨ (e'.processes p).killed = true)
    (hhanded : e.begun .stop = false → e'.process = e.process)
    (hread : ∀ p, (e'.processes p).reading = true → e'.logTask (e'.processes p).kind = some p) : Supervised orderly e' where
  single p q hp hq := by
    rw [hf.kind, hf.kind]
    exact h.single p q (hf.alive p hp) (hf.alive q hq)
  held := hheld
  known k p hp := by
    rw [hf.launched, hf.kind]
    rcases hf.process k with hsame | hnone
    · exact h.known k p (hsame ▸ hp)
    · cases hnone.symm.trans hp
  opened k p hp := by
    rw [hf.launched, hf.kind]
    rcases hf.opening k with hsame | hnone
    · exact h.opened k p (hsame ▸ hp)
    · cases hnone.symm.trans hp
  opener k p hp := by
    rw [ht.active, ht.active]
    rcases hf.opening k with hsame | hnone
    · exact h.opener k p (hsame ▸ hp)
    · cases hnone.symm.trans hp
  unborn p hp := by
    obtain ⟨halive, hreading⟩ := h.unborn p (hf.launched ▸ hp)
    refine ⟨?_, ?_⟩
    · cases hp : (e'.processes p).alive with
      | false => rfl
      | true => cases halive.symm.trans (hf.alive p hp)
    · cases hp : (e'.processes p).reading with
      | false => rfl
      | true => cases hreading.symm.trans (hf.reading p hp)
  read := hread
  logged k p hp := by
    rw [hf.launched, hf.kind]
    rcases hf.logTask k with hsame | hnone
    · exact h.logged k p (hsame ▸ hp)
    · cases hnone.symm.trans hp
  ends j := by
    rw [ht.ended, ht.begun]
    exact h.ends j
  monitored := by
    rw [ht.begun, ht.ended]
    exact h.monitored
  handed := by
    rw [ht.ended, ht.returned, ht.begun]
    intro hended hreturned hbegun hstop
    have hnot : e.begun .stop = false := (congrFun ht.begun .stop).symm.trans (hstop rfl)
    exact (h.handed hended hreturned hbegun fun _ => hnot).fades hf (hhanded hnot)
  stopping := by
    rw [ht.begun, ht.ended]
    exact fun hs => (h.stopping hs).imp id (.imp (fun hm hb => ht.monitorTask (hm hb)) id)
  stopped := by
    rw [ht.returned, ht.begun, ht.joined]
    exact fun hr => (h.stopped hr).imp id (.imp id fun hq ho => (hq ho).fades hf)
  gaveUp := by
    rw [ht.ended]
    intro hended
    rcases h.gaveUp hended with hrunning | hthrown
    · left
      cases hr : e'.running with
      | false => rfl
      | true => cases hrunning.symm.trans (hf.running hr)
    · exact .inr (ht.thrown _ hthrown)

theorem Supervised.kept (h : Supervised orderly e) (hf : Fades e e') (ht : SameTasks e e') (hs : SameHolders e e')
    (hlog : e'.logTask = e.logTask) : Supervised orderly e' := by
  refine h.fades hf ht (fun p hp => ?_) (fun _ => hs.process) fun p hp => ?_
  · rw [hs.process, hs.opening, hf.kind]
    exact (h.held p (hf.alive p hp)).imp id (.imp id (hf.killed p))
  · rw [hlog, hf.kind]
    exact h.read p (hf.reading p hp)

theorem Supervised.dropLogTask (h : Supervised orderly e) (kind : Kind) : Supervised orderly (e.dropLogTask kind) := by
  have hf := Fades.dropLogTask e kind
  obtain ⟨hprocess, hopening⟩ := dropLogTask_holders e kind
  refine h.fades hf (.dropLogTask e kind) (fun q hq => ?_) (fun _ => hprocess) fun q hq => ?_
  · rw [hprocess, hopening, hf.kind]
    exact (h.held q (hf.alive q hq)).imp id (.imp id (hf.killed q))
  · have hlog := h.read q (hf.reading q hq)
    rw [hf.kind]
    unfold RTSPProxy.dropLogTask at hq ⊢
    split
    · next p hp =>
        simp only [hp] at hq
        by_cases hqp : q = p
        · subst hqp
          simp [RTSPProxy.setProcess] at hq
        · by_cases hk : (e.processes q).kind = kind
          · rw [hk, hp] at hlog
            exact absurd (Option.some.inj hlog).symm hqp
          · exact (Function.update_of_ne hk _ _).trans hlog
    · exact hlog

-- At most one of `start`, `monitor` and `stop` is under way where it matters.
theorem Supervised.not_watching (h : Supervised orderly e) (hs : Active .start e) (hm : e.begun .monitor = true) : False := by
  cases hs.2.symm.trans (h.monitored hm)

theorem Supervised.same_launcher {i : Task} (h : Supervised orderly e) (hj : Active j e) (hi : Active i e) (hjs : j ≠ .stop)
    (his : i ≠ .stop) : i = j := by
  cases i with
  | stop => exact absurd rfl his
  | start =>
      cases j with
      | start => rfl
      | monitor => exact (h.not_watching hi hj.1).elim
      | stop => exact absurd rfl hjs
  | monitor =>
      cases j with
      | start => exact (h.not_watching hj hi.1).elim
      | monitor => rfl
      | stop => exact absurd rfl hjs

theorem Supervised.alone (h : Supervised orderly e) {i : Task} (hj : Active j e) (hstop : j ≠ .stop) (hi : i ≠ j) :
    ¬ Exclusive orderly i e := by
  intro hx
  cases i with
  | start =>
      cases j with
      | start => exact hi rfl
      | monitor => cases (h.monitored hj.1).symm.trans hx
      | stop => exact hstop rfl
  | monitor =>
      cases j with
      | start => exact h.not_watching hj hx.1
      | monitor => exact hi rfl
      | stop => exact hstop rfl
  | stop =>
      obtain ⟨⟨hbegun, _⟩, hjoined, ho⟩ := hx
      cases j with
      | start => cases hj.2.symm.trans ((h.stopping hbegun).2.2 ho)
      | monitor => cases hj.2.symm.trans (hjoined hj.1)
      | stop => exact hstop rfl

theorem Supervised.not_stopped (h : Supervised orderly e) (hj : Active j e) (hstop : j ≠ .stop) (hr : e.returned .stop = true) :
    orderly = false := by
  cases ho : orderly with
  | false => rfl
  | true =>
      subst ho
      obtain ⟨hbegun, hjoined, _⟩ := h.stopped hr
      cases j with
      | start => cases hj.2.symm.trans ((h.stopping hbegun).2.2 rfl)
      | monitor => cases hj.2.symm.trans (hjoined hj.1)
      | stop => exact absurd rfl hstop

-- `start` hands over to the monitor when it ends, and the monitor has what it was handed.
theorem not_handed (hj : Active j e) (hstop : j ≠ .stop) (hended : e.ended .start = true) (hbegun : e.begun .monitor = false) :
    False := by
  cases j with
  | start => cases hj.2.symm.trans hended
  | monitor => cases hj.1.symm.trans hbegun
  | stop => exact hstop rfl

theorem Supervised.retasked (h : Supervised orderly e) (ht : SameTasks e e') (hlaunched : e'.launched = e.launched)
    (hprocesses : e'.processes = e.processes) (hs : SameHolders e e') (hlog : e'.logTask = e.logTask)
    (hstopped : e.returned .stop = true → orderly = true → Quiet e')
    (hgave : e.ended .monitor = true → e'.running = false ∨ e'.thrown .monitor = true) : Supervised orderly e' where
  single := by
    rw [hprocesses]
    exact h.single
  held := by
    rw [hprocesses, hs.process, hs.opening]
    exact h.held
  known := by
    rw [hprocesses, hs.process, hlaunched]
    exact h.known
  opened := by
    rw [hprocesses, hs.opening, hlaunched]
    exact h.opened
  opener := by
    rw [hs.opening, ht.active, ht.active]
    exact h.opener
  unborn := by
    rw [hprocesses, hlaunched]
    exact h.unborn
  read := by
    rw [hprocesses, hlog]
    exact h.read
  logged := by
    rw [hprocesses, hlog, hlaunched]
    exact h.logged
  ends := by
    rw [ht.ended, ht.begun]
    exact h.ends
  monitored := by
    rw [ht.begun, ht.ended]
    exact h.monitored
  handed := by
    rw [Secure, HeldBut, hprocesses, hs.process, ht.ended, ht.returned, ht.begun]
    exact h.handed
  stopping := by
    rw [ht.begun, ht.ended]
    exact fun hb => (h.stopping hb).imp id (.imp (fun hm hb => ht.monitorTask (hm hb)) id)
  stopped := by
    rw [ht.returned, ht.begun, ht.joined]
    exact fun hr => ⟨(h.stopped hr).1, (h.stopped hr).2.1, hstopped hr⟩
  gaveUp := by
    rw [ht.ended]
    exact hgave

theorem createConfig_holders (e : RTSPProxy) : SameHolders e e.createConfig.2 := by
  unfold RTSPProxy.createConfig
  split
  · exact ⟨rfl, rfl⟩
  · dsimp only
    split <;> exact ⟨rfl, rfl⟩

theorem Supervised.createConfig (h : Supervised orderly e) (hj : Active .start e) : Supervised orderly e.createConfig.2 := by
  have hfree : e.returned .stop = true → orderly = true → Quiet e.createConfig.2 := by
    intro hr ho
    cases (h.not_stopped hj (by rintro ⟨⟩) hr).symm.trans ho
  refine h.retasked (.createConfig e) ?_ ?_ (createConfig_holders e) ?_ hfree fun hm => ?_
  case refine_4 => cases hj.2.symm.trans (h.monitored (h.ends _ hm))
  all_goals
    unfold RTSPProxy.createConfig
    split
    · rfl
    · dsimp only
      split <;> rfl

theorem Supervised.createLogTask (h : Supervised orderly e) (hj : Active j e) (hstop : j ≠ .stop) (hunread : Unread kind e)
    (hp : e.process kind = some p) : Supervised orderly
      { e.setProcess p fun x => { x with reading := true } with logTask := Function.update e.logTask kind (some p) } := by
  obtain ⟨hlt, hkind⟩ := h.known kind p hp
  have hpair : ∀ q, ((Function.update e.processes p { e.processes p with reading := true }) q).kind = (e.processes q).kind ∧
      ((Function.update e.processes p { e.processes p with reading := true }) q).alive = (e.processes q).alive ∧
      ((Function.update e.processes p { e.processes p with reading := true }) q).killed = (e.processes q).killed := by
    intro q
    rw [Function.update_apply]
    split
    · next hqp =>
        subst hqp
        exact ⟨rfl, rfl, rfl⟩
    · exact ⟨rfl, rfl, rfl⟩
  have hkinds := fun q => (hpair q).1
  have halives := fun q => (hpair q).2.1
  have hkilleds := fun q => (hpair q).2.2
  have hreads : ∀ q, ((Function.update e.processes p { e.processes p with reading := true }) q).reading = true →
      q = p ∨ (e.processes q).reading = true := by
    intro q hq
    by_cases hqp : q = p
    · exact .inl hqp
    · rw [Function.update_of_ne hqp] at hq
      exact .inr hq
  refine ⟨?_, ?_, ?_, ?_, h.opener, ?_, ?_, ?_, h.ends, h.monitored, ?_, h.stopping, ?_, h.gaveUp⟩
  all_goals simp only [RTSPProxy.setProcess, hkinds, halives, hkilleds]
  · exact h.single
  · exact h.held
  · exact h.known
  · exact h.opened
  · intro q hq
    have hqp : q ≠ p := by
      rintro rfl
      omega
    rw [Function.update_of_ne hqp]
    exact h.unborn q hq
  · intro q hq
    rcases hreads q hq with rfl | hq
    · rw [hkind, Function.update_self]
    · have hlog := h.read q hq
      by_cases hk : (e.processes q).kind = kind
      · rw [hk] at hlog
        cases hunread.symm.trans hlog
      · rw [Function.update_of_ne hk]
        exact hlog
  · intro k q hq
    by_cases hk : k = kind
    · subst hk
      cases (Function.update_self k (some p) e.logTask).symm.trans hq
      exact ⟨hlt, hkind⟩
    · exact h.logged k q ((Function.update_of_ne hk _ _).symm.trans hq)
  · exact fun hended _ hbegun => (not_handed hj hstop hended hbegun).elim
  · exact fun hr => ⟨(h.stopped hr).1, (h.stopped hr).2.1, fun ho => by cases (h.not_stopped hj hstop hr).symm.trans ho⟩

theorem active_launcher (hj : Active j e) (hstop : j ≠ .stop) : Active .start e ∨ Active .monitor e := by
  cases j with
  | start => exact .inl hj
  | monitor => exact .inr hj
  | stop => exact absurd rfl hstop

theorem Supervised.popen (h : Supervised orderly e) (hj : Active j e) (hstop : j ≠ .stop) (hdead : Dead kind e)
    (hnone : e.opening kind = none) : Supervised orderly (e.popen kind) := by
  have hcase : ∀ q, Function.update e.processes e.launched ⟨kind, true, false, false, false⟩ q =
      if q = e.launched then ⟨kind, true, false, false, false⟩ else e.processes q := fun q => Function.update_apply _ _ _ _
  have hold : ∀ {q}, q < e.launched → Function.update e.processes e.launched ⟨kind, true, false, false, false⟩ q = e.processes q :=
    fun hq => Function.update_of_ne (Nat.ne_of_lt hq) _ _
  refine ⟨?_, ?_, ?_, ?_, ?_, ?_, ?_, ?_, h.ends, h.monitored, ?_, h.stopping, ?_, h.gaveUp⟩
  all_goals simp only [RTSPProxy.popen]
  · intro p q hp hq hkinds
    rw [hcase] at hp hq hkinds
    rw [hcase] at hkinds
    by_cases hpl : p = e.launched
    · by_cases hql : q = e.launched
      · exact hpl.trans hql.symm
      · simp only [hpl, hql, if_true, if_false] at hq hkinds
        cases (hdead q hkinds.symm).symm.trans hq
    · by_cases hql : q = e.launched
      · simp only [hpl, hql, if_true, if_false] at hp hkinds
        cases (hdead p hkinds).symm.trans hp
      · simp only [hpl, hql, if_false] at hp hq hkinds
        exact h.single p q hp hq hkinds
  · intro q hq
    rw [hcase] at hq ⊢
    by_cases hql : q = e.launched
    · subst hql
      simp
    · simp only [hql, if_false] at hq ⊢
      by_cases hk : (e.processes q).kind = kind
      · cases (hdead q hk).symm.trans hq
      · rw [Function.update_of_ne hk]
        exact h.held q hq
  · intro k q hq
    obtain ⟨hlt, hk⟩ := h.known k q hq
    rw [hold hlt]
    exact ⟨Nat.lt_succ_of_lt hlt, hk⟩
  · intro k q hq
    by_cases hk : k = kind
    · subst hk
      cases (Function.update_self k (some e.launched) e.opening).symm.trans hq
      simp
    · obtain ⟨hlt, hkind⟩ := h.opened k q ((Function.update_of_ne hk _ _).symm.trans hq)
      rw [hold hlt]
      exact ⟨Nat.lt_succ_of_lt hlt, hkind⟩
  · exact fun _ _ _ => active_launcher hj hstop
  · intro q hq
    rw [hcase, if_neg (by omega)]
    exact h.unborn q (by omega)
  · intro q hq
    rw [hcase] at hq ⊢
    by_cases hql : q = e.launched
    · simp [hql] at hq
    · simp only [hql, if_false] at hq ⊢
      exact h.read q hq
  · intro k q hq
    obtain ⟨hlt, hk⟩ := h.logged k q hq
    rw [hold hlt]
    exact ⟨Nat.lt_succ_of_lt hlt, hk⟩
  · exact fun hended _ hbegun => (not_handed hj hstop hended hbegun).elim
  · exact fun hr => ⟨(h.stopped hr).1, (h.stopped hr).2.1, fun ho => by cases (h.not_stopped hj hstop hr).symm.trans ho⟩

theorem Supervised.assign (h : Supervised orderly e) (hj : Active j e) (hstop : j ≠ .stop) (hp : e.opening kind = some p)
    (hsole : Sole kind p e) : Supervised orderly (e.assign kind p) := by
  obtain ⟨hlt, hkind⟩ := h.opened kind p hp
  refine ⟨h.single, ?_, ?_, ?_, ?_, h.unborn, h.read, h.logged, h.ends, h.monitored, ?_, h.stopping, ?_, h.gaveUp⟩
  all_goals simp only [RTSPProxy.assign]
  · intro q hq
    by_cases hk : (e.processes q).kind = kind
    · rw [hk, hsole q hk hq]
      exact .inl (Function.update_self _ _ _)
    · rw [Function.update_of_ne hk, Function.update_of_ne hk]
      exact h.held q hq
  · intro k q hq
    by_cases hk : k = kind
    · subst hk
      cases (Function.update_self k (some p) e.process).symm.trans hq
      exact ⟨hlt, hkind⟩
    · exact h.known k q ((Function.update_of_ne hk _ _).symm.trans hq)
  · intro k q hq
    by_cases hk : k = kind
    · subst hk
      cases (Function.update_self k none e.opening).symm.trans hq
    · exact h.opened k q ((Function.update_of_ne hk _ _).symm.trans hq)
  · exact fun _ _ _ => active_launcher hj hstop
  · exact fun hended _ hbegun => (not_handed hj hstop hended hbegun).elim
  · exact fun hr => ⟨(h.stopped hr).1, (h.stopped hr).2.1, fun ho => by cases (h.not_stopped hj hstop hr).symm.trans ho⟩

theorem Supervised.closeTransport (h : Supervised orderly e) (hp : e.opening (e.processes p).kind = some p) :
    Supervised orderly (e.closeTransport p) := by
  have hf := Fades.closeTransport e p
  refine h.fades hf ⟨rfl, rfl, rfl, fun _ => id, id⟩ (fun q hq => ?_) (fun _ => rfl) fun q hq => ?_
  · rw [hf.kind]
    rcases h.held q (hf.alive q hq) with hheld | hopening | hkilled
    · exact .inl hheld
    · by_cases hqp : q = p
      · subst hqp
        have hself : (e.closeTransport q).processes q = { e.processes q with killed := true } := Function.update_self _ _ _
        rw [hself]
        exact .inr (.inr rfl)
      · refine .inr (.inl ?_)
        have hk : (e.processes q).kind ≠ (e.processes p).kind := by
          intro hk
          rw [hk, hp] at hopening
          exact hqp (Option.some.inj hopening).symm
        exact (Function.update_of_ne hk _ _).trans hopening
    · exact .inr (.inr (hf.killed q hkilled))
  · rw [hf.kind]
    exact h.read q (hf.reading q hq)

theorem Supervised.forget (h : Supervised orderly e) (hbegun : e.begun .stop = true) (hspent : Spent kind e) :
    Supervised orderly { e with process := Function.update e.process kind none } := by
  have hi : calms (.forget kind) = true := rfl
  have hf : Fades e { e with process := Function.update e.process kind none } := sync_fades (j := .stop) (r := .ok ()) hi rfl
  refine h.fades hf ⟨rfl, rfl, rfl, fun _ => id, id⟩ (fun q hq => ?_) (fun hnot => ?_) h.read
  · rcases h.held q hq with hheld | hrest
    · by_cases hk : (e.processes q).kind = kind
      · exact .inr (.inr (hspent q (hk ▸ hheld) hq))
      · exact .inl ((Function.update_of_ne hk _ _).trans hheld)
    · exact .inr hrest
  · cases hbegun.symm.trans hnot

theorem Quiet.same (h : Quiet e) (hrunning : e'.running = e.running) (hprocesses : e'.processes = e.processes)
    (hpath : e'.configPath = e.configPath) (hfiles : e'.files = e.files) : Quiet e' := by
  obtain ⟨hquiet, hspent, hreaders, hconfig⟩ := h
  refine ⟨hrunning.trans hquiet, ?_, ?_, ?_⟩
  · rw [hprocesses]
    exact hspent
  · rw [hprocesses]
    exact hreaders
  · rw [hpath, hfiles]
    exact hconfig

theorem Supervised.returned (h : Supervised orderly e) (hj : Active j e) (howes : Owes orderly j .returned e) :
    Supervised orderly { e with returned := Function.update e.returned j true } := by
  refine ⟨h.single, h.held, h.known, h.opened, h.opener, h.unborn, h.read, h.logged, h.ends, h.monitored, ?_, h.stopping, ?_, h.gaveUp⟩
  · rcases howes with rfl | ⟨rfl, _⟩
    · exact fun hended _ _ => by cases hj.2.symm.trans hended
    · exact h.handed
  · intro hr
    rcases howes with rfl | ⟨rfl, hjoined, hquiet⟩
    · obtain ⟨hbegun, hjoined, hquiet⟩ := h.stopped hr
      exact ⟨hbegun, hjoined, fun ho => (hquiet ho).same rfl rfl rfl rfl⟩
    · exact ⟨hj.1, hjoined, fun ho => (hquiet ho).same rfl rfl rfl rfl⟩

theorem Supervised.ended (h : Supervised orderly e) (hj : Active j e) (howes : Owes orderly j .ended e) :
    Supervised orderly { e with ended := Function.update e.ended j true } := by
  obtain ⟨hgave, hunopened, hhanded⟩ := howes
  have hmore : ∀ {i}, e.ended i = true → Function.update e.ended j true i = true := by
    intro i hi
    by_cases hij : i = j
    · subst hij
      exact Function.update_self _ _ _
    · rwa [Function.update_of_ne hij]
  have hother : ∀ {i}, i ≠ j → Active i e → Active i { e with ended := Function.update e.ended j true } :=
    fun hij hi => ⟨hi.1, (Function.update_of_ne hij _ _).trans hi.2⟩
  refine ⟨h.single, h.held, h.known, h.opened, ?_, h.unborn, h.read, h.logged, ?_, ?_, ?_, ?_, ?_, ?_⟩
  · intro k p hp
    have hstop : j = .stop := by
      by_contra hne
      cases (hunopened hne k).symm.trans hp
    subst hstop
    exact (h.opener k p hp).imp (hother (by rintro ⟨⟩)) (hother (by rintro ⟨⟩))
  · intro i hi
    by_cases hij : i = j
    · subst hij
      exact hj.1
    · exact h.ends i ((Function.update_of_ne hij _ _).symm.trans hi)
  · exact fun hm => hmore (h.monitored hm)
  · intro hended hreturned hbegun
    by_cases hjs : j = .start
    · exact hhanded hjs hreturned
    · exact h.handed ((Function.update_of_ne (Ne.symm hjs) _ _).symm.trans hended) hreturned hbegun
  · intro hs
    obtain ⟨hstart, hmonitor, horderly⟩ := h.stopping hs
    exact ⟨hstart, hmonitor, fun ho => hmore (horderly ho)⟩
  · intro hr
    obtain ⟨hbegun, hjoined, hquiet⟩ := h.stopped hr
    exact ⟨hbegun, fun hm => hmore (hjoined hm), fun ho => (hquiet ho).same rfl rfl rfl rfl⟩
  · intro hm
    by_cases hjm : .monitor = j
    · exact hgave hjm.symm
    · exact h.gaveUp ((Function.update_of_ne hjm _ _).symm.trans hm)

end RTSPProxy

end PandaProxy.Rtsp
