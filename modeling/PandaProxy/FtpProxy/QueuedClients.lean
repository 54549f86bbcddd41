import Mathlib.Algebra.Order.Field.Rat
import Mathlib.Tactic.Linarith
import PandaProxy.Async.Machine
import PandaProxy.FtpQueue.CallLife

namespace PandaProxy.FtpProxy

open Async FtpQueue

def clientLivenessCheck : ℚ := 1

-- The client's `StreamReader`, as far as it can be looked at without reading.
structure ControlStream where
  buffer : List UInt8
  eof : Bool
  exception : Bool
  deriving DecidableEq, Repr

namespace ControlStream

def atEof (reader : ControlStream) : Bool := reader.eof && reader.buffer.isEmpty

def left (reader : ControlStream) : Bool := reader.eof || reader.exception

end ControlStream

-- One turn of the loop of `_await_client_gone`: whether it returns.
def clientGone : Option ControlStream → Bool
  | none => true
  | some reader => reader.atEof || reader.exception

-- `_await_client_gone` as a task.
inductive Liveness where
  | ready
  | asleep (wake : ℚ)
  | returned
  | cancelled
  deriving DecidableEq, Repr

def Liveness.cancel : Liveness → Liveness
  | returned => returned
  | _ => cancelled

inductive WaitExit where
  | granted
  | refused
  | raised
  deriving DecidableEq, Repr

-- Where `_acquire_slot` is: in `asyncio.wait`, in `await gone`, in `await acquire`, or through.
inductive WaitPlace where
  | waiting
  | clearing (exit : WaitExit)
  | dropping (exit : WaitExit)
  | finished (exit : WaitExit)
  deriving DecidableEq, Repr

def WaitPlace.exit : WaitPlace → Option WaitExit
  | waiting => none
  | clearing exit => some exit
  | dropping exit => some exit
  | finished exit => some exit

structure SlotWait where
  now : ℚ
  reader : ControlStream
  queue : QueueRun
  acquire : Nat
  gone : Liveness
  place : WaitPlace

inductive WaitAct where
  | elapse (time : ℚ)
  | feedData (bytes : List UInt8)
  | feedEof
  | setException
  | queue (a : QueueAct)
  | poll
  | wake
  | interrupt
  | clear
  | finish
  deriving DecidableEq, Repr

namespace SlotWait

-- `_acquire_slot` up to its first await.
def begin (queue : QueueRun) (priority : Int) (reader : ControlStream) (now : ℚ) : SlotWait where
  now := now
  reader := reader
  queue :=
    { queue with calls := Function.update queue.calls queue.born (.created priority false), born := queue.born + 1 }
  acquire := queue.born
  gone := .ready
  place := .waiting

def queued (w : SlotWait) : Bool :=
  match w.queue.calls w.acquire with
  | .awaiting _ _ => w.queue.futures w.acquire = .pending
  | _ => false

def acquired (w : SlotWait) : Bool :=
  match w.queue.calls w.acquire with
  | .holding => true
  | .ended => true
  | _ => false

def verdict (w : SlotWait) : WaitExit :=
  match w.queue.calls w.acquire with
  | .holding => .granted
  | .ended => .raised
  | _ => .refused

-- Whether the session and its two tasks leave the event loop idle until `now`.
def idle (w : SlotWait) (now : ℚ) : Bool :=
  match w.place, w.gone with
  | .finished _, _ => true
  | .waiting, .asleep wake => w.queued && now ≤ wake
  | _, _ => false

def look (w : SlotWait) : SlotWait :=
  { w with gone := if clientGone (some w.reader) then .returned else .asleep (w.now + clientLivenessCheck) }

def step (w : SlotWait) : WaitAct → Option SlotWait
  | .elapse time => if 0 ≤ time ∧ w.idle (w.now + time) then some { w with now := w.now + time } else none
  | .feedData bytes =>
      if w.reader.eof then none
      else some { w with reader := { w.reader with buffer := w.reader.buffer ++ bytes } }
  | .feedEof => some { w with reader := { w.reader with eof := true } }
  | .setException => some { w with reader := { w.reader with exception := true } }
  | .queue a =>
      if a = .cancel w.acquire ∨ a = .release w.acquire then none
      else (w.queue.step a).map fun queue => { w with queue := queue }
  | .poll => if w.gone = .ready ∨ w.gone = .asleep w.now then some w.look else none
  | .wake =>
      if w.place = .waiting ∧ (w.gone = .returned ∨ w.acquired) then
        some { w with gone := w.gone.cancel, place := .clearing w.verdict }
      else none
  | .interrupt =>
      if w.place = .waiting then some { w with gone := w.gone.cancel, place := .clearing .raised } else none
  | .clear =>
      match w.place with
      | .clearing .granted => some { w with place := .finished .granted }
      | .clearing exit =>
          (w.queue.step (.cancel w.acquire)).map fun queue => { w with queue := queue, place := .dropping exit }
      | _ => none
  | .finish =>
      match w.place with
      | .dropping exit =>
          match w.queue.calls w.acquire with
          | .ended => some { w with place := .finished exit }
          | .holding =>
              (w.queue.step (.release w.acquire)).map fun queue => { w with queue := queue, place := .finished exit }
          | _ => none
      | _ => none

def machine : Machine SlotWait WaitAct := ⟨step⟩

inductive Moves (w : SlotWait) : WaitAct → SlotWait → Prop
  | elapse {time} (h : 0 ≤ time) (hidle : w.idle (w.now + time) = true) :
      Moves w (.elapse time) { w with now := w.now + time }
  | feedData {bytes} (h : w.reader.eof = false) :
      Moves w (.feedData bytes) { w with reader := { w.reader with buffer := w.reader.buffer ++ bytes } }
  | feedEof : Moves w .feedEof { w with reader := { w.reader with eof := true } }
  | setException : Moves w .setException { w with reader := { w.reader with exception := true } }
  | queue {a queue} (hcancel : a ≠ .cancel w.acquire) (hrelease : a ≠ .release w.acquire)
      (h : w.queue.step a = some queue) : Moves w (.queue a) { w with queue := queue }
  | poll (h : w.gone = .ready ∨ w.gone = .asleep w.now) : Moves w .poll w.look
  | wake (hplace : w.place = .waiting) (h : w.gone = .returned ∨ w.acquired = true) :
      Moves w .wake { w with gone := w.gone.cancel, place := .clearing w.verdict }
  | interrupt (hplace : w.place = .waiting) :
      Moves w .interrupt { w with gone := w.gone.cancel, place := .clearing .raised }
  | clearGranted (hplace : w.place = .clearing .granted) : Moves w .clear { w with place := .finished .granted }
  | clear {exit queue} (hplace : w.place = .clearing exit) (hexit : exit ≠ .granted)
      (h : w.queue.step (.cancel w.acquire) = some queue) :
      Moves w .clear { w with queue := queue, place := .dropping exit }
  | finishEnded {exit} (hplace : w.place = .dropping exit) (hcall : w.queue.calls w.acquire = .ended) :
      Moves w .finish { w with place := .finished exit }
  | finishHolding {exit queue} (hplace : w.place = .dropping exit)
      (hcall : w.queue.calls w.acquire = .holding) (h : w.queue.step (.release w.acquire) = some queue) :
      Moves w .finish { w with queue := queue, place := .finished exit }

variable {w w' x y z : SlotWait} {a : WaitAct} {exit : WaitExit} {time : ℚ}

theorem step_moves (h : machine.step w a = some w') : Moves w a w' := by
  cases a with
  | elapse time =>
      obtain ⟨⟨htime, hidle⟩, ⟨⟩⟩ := Option.ite_none_right_eq_some.mp h
      exact .elapse htime hidle
  | feedData bytes =>
      obtain ⟨heof, ⟨⟩⟩ := Option.ite_none_left_eq_some.mp h
      exact .feedData (by simpa using heof)
  | feedEof =>
      cases h
      exact .feedEof
  | setException =>
      cases h
      exact .setException
  | queue a =>
      obtain ⟨hown, h⟩ := Option.ite_none_left_eq_some.mp h
      obtain ⟨queue, hq, rfl⟩ := Option.map_eq_some_iff.mp h
      exact .queue (fun he => hown (.inl he)) (fun he => hown (.inr he)) hq
  | poll =>
      obtain ⟨hgone, ⟨⟩⟩ := Option.ite_none_right_eq_some.mp h
      exact .poll hgone
  | wake =>
      obtain ⟨⟨hplace, hgone⟩, ⟨⟩⟩ := Option.ite_none_right_eq_some.mp h
      exact .wake hplace hgone
  | interrupt =>
      obtain ⟨hplace, ⟨⟩⟩ := Option.ite_none_right_eq_some.mp h
      exact .interrupt hplace
  | clear =>
      simp only [machine, step] at h
      split at h
      · next hplace =>
          cases h
          exact .clearGranted hplace
      · next exit hexit hplace =>
          obtain ⟨queue, hq, rfl⟩ := Option.map_eq_some_iff.mp h
          exact .clear hplace hexit hq
      · cases h
  | finish =>
      simp only [machine, step] at h
      split at h
      · next exit hplace =>
          split at h
          · next hcall =>
              cases h
              exact .finishEnded hplace hcall
          · next hcall =>
              obtain ⟨queue, hq, rfl⟩ := Option.map_eq_some_iff.mp h
              exact .finishHolding hplace hcall hq
          · cases h
      · cases h

theorem idle_cases {now : ℚ} (h : w.idle now = true) :
    (∃ exit, w.place = .finished exit) ∨ w.place = .waiting ∧ w.queued = true ∧ ∃ wake, w.gone = .asleep wake ∧ now ≤ wake := by
  simp only [idle] at h
  split at h
  · next exit hplace => exact .inl ⟨exit, hplace⟩
  · next wake hplace hgone =>
      rw [Bool.and_eq_true, decide_eq_true_eq] at h
      exact .inr ⟨hplace, h.1, wake, hgone, h.2⟩
  · cases h

theorem clientGone_iff {reader : ControlStream} (h : reader.left = true) :
    clientGone (some reader) = true ↔ reader.exception = true ∨ reader.buffer = [] := by
  obtain ⟨buffer, eof, exception⟩ := reader
  cases eof <;> cases exception <;> simp_all [clientGone, ControlStream.atEof, ControlStream.left]

theorem Moves.clientGone (h : Moves w a w') (hgone : clientGone (some w.reader) = true) :
    clientGone (some w'.reader) = true := by
  cases h with
  | feedData heof =>
      have hexc : w.reader.exception = true := by simpa [FtpProxy.clientGone, ControlStream.atEof, heof] using hgone
      simp [FtpProxy.clientGone, hexc]
  | feedEof =>
      have hsome : w.reader.eof = true ∧ w.reader.buffer = [] ∨ w.reader.exception = true := by
        simpa [FtpProxy.clientGone, ControlStream.atEof] using hgone
      rcases hsome with hend | hexc
      · simp [FtpProxy.clientGone, ControlStream.atEof, hend.2]
      · simp [FtpProxy.clientGone, hexc]
  | setException => simp [FtpProxy.clientGone]
  | _ => exact hgone

def CallAt (queue : QueueRun) (c : Nat) : WaitPlace → Prop
  | .waiting => queue.Live c
  | .clearing .granted => queue.calls c = .holding
  | .clearing _ => queue.Live c
  | .dropping _ => queue.calls c = .holding ∨ queue.Abandoned c
  | .finished .granted => queue.calls c = .holding
  | .finished _ => queue.calls c = .ended

theorem CallAt.step {queue queue' : QueueRun} {c : Nat} {a : QueueAct} {place : WaitPlace}
    (hs : queue.Sound) (hc : c < queue.born) (hcancel : a ≠ .cancel c) (hrelease : a ≠ .release c)
    (hstep : queue.step a = some queue') (h : CallAt queue c place) : CallAt queue' c place := by
  have hmoves := QueueRun.step_moves hs hstep
  cases place with
  | waiting => exact hmoves.live hc hcancel hrelease h
  | clearing exit =>
      cases exit with
      | granted => exact hmoves.holding hc hrelease h
      | refused => exact hmoves.live hc hcancel hrelease h
      | raised => exact hmoves.live hc hcancel hrelease h
  | dropping exit =>
      rcases h with h | h
      · exact .inl (hmoves.holding hc hrelease h)
      · exact .inr (hmoves.abandoned hc h)
  | finished exit =>
      cases exit with
      | granted => exact hmoves.holding hc hrelease h
      | refused => exact hmoves.ended hc h
      | raised => exact hmoves.ended hc h

theorem CallAt.live {queue : QueueRun} {c : Nat} (h : CallAt queue c (.clearing exit)) : queue.Live c := by
  cases exit with
  | granted => exact .inl h
  | refused => exact h
  | raised => exact h

theorem callAt_over {queue : QueueRun} {c : Nat} (hexit : exit ≠ .granted) (h : queue.calls c = .ended) :
    CallAt queue c (.finished exit) := by
  cases exit with
  | granted => exact absurd rfl hexit
  | refused => exact h
  | raised => exact h

structure Sane (w : SlotWait) : Prop where
  sound : w.queue.Sound
  born : w.acquire < w.queue.born
  call : CallAt w.queue w.acquire w.place
  dropped : w.place ≠ .dropping .granted
  polled : w.place = .waiting → w.gone ≠ .cancelled
  polls : w.place ≠ .waiting → w.gone = .returned ∨ w.gone = .cancelled
  asleep : ∀ wake, w.gone = .asleep wake → w.now ≤ wake ∧ wake ≤ w.now + clientLivenessCheck
  returned : w.gone = .returned → clientGone (some w.reader) = true

theorem look_noticed (h : FtpProxy.clientGone (some w.reader) = true) : w.look = { w with gone := .returned } := by
  rw [look, if_pos h]

theorem sane_look (h : Sane w) (hplace : w.place = .waiting) : Sane w.look := by
  cases hgone : clientGone (some w.reader) with
  | true =>
      rw [look_noticed hgone]
      exact { h with polled := nofun, polls := fun _ => .inl rfl, asleep := nofun, returned := fun _ => hgone }
  | false =>
      have hlook : w.look = { w with gone := .asleep (w.now + clientLivenessCheck) } := by
        rw [look, if_neg (by simp [hgone])]
      rw [hlook]
      refine { h with polled := nofun, polls := fun hp => absurd hplace hp, asleep := ?_, returned := nofun }
      intro wake hwake
      cases hwake
      exact ⟨le_add_of_nonneg_right zero_le_one, le_refl _⟩

theorem cancel_settles (gone : Liveness) : gone.cancel = .returned ∨ gone.cancel = .cancelled := by
  cases gone with
  | returned => exact .inl rfl
  | _ => exact .inr rfl

theorem sane_clearing (h : Sane w) (hcall : CallAt w.queue w.acquire (.clearing exit)) :
    Sane { w with gone := w.gone.cancel, place := .clearing exit } where
  sound := h.sound
  born := h.born
  call := hcall
  dropped := nofun
  polled := nofun
  polls _ := cancel_settles w.gone
  asleep wake hwake := by
    rcases cancel_settles w.gone with hc | hc <;> exact absurd (hwake.symm.trans hc) nofun
  returned hr := by
    cases hgone : w.gone with
    | returned => exact h.returned hgone
    | _ =>
        rw [hgone] at hr
        cases hr

theorem sane_wake (h : Sane w) (hplace : w.place = .waiting) : CallAt w.queue w.acquire (.clearing w.verdict) := by
  have hlive : CallAt w.queue w.acquire .waiting := hplace ▸ h.call
  unfold verdict
  split
  · assumption
  · exact hlive
  · exact hlive

theorem sane_step (h : Sane w) (hstep : machine.step w a = some w') : Sane w' := by
  have hmoves := step_moves hstep
  have hreturned : w.gone = .returned → FtpProxy.clientGone (some w'.reader) = true :=
    fun hgone => hmoves.clientGone (h.returned hgone)
  cases hmoves with
  | elapse htime hidle =>
      refine { h with asleep := ?_ }
      intro wake hwake
      rcases idle_cases hidle with ⟨exit, hplace⟩ | ⟨_, _, wake', hgone, hle⟩
      · rcases h.polls (by simp [hplace]) with hg | hg <;> exact absurd (hwake.symm.trans hg) nofun
      · obtain ⟨_, hbound⟩ := h.asleep wake hwake
        cases hwake.symm.trans hgone
        exact ⟨hle, show wake ≤ w.now + _ + clientLivenessCheck by linarith⟩
  | feedData heof => exact { h with returned := hreturned }
  | feedEof => exact { h with returned := hreturned }
  | setException => exact { h with returned := hreturned }
  | queue hcancel hrelease hq =>
      have hqueue := QueueRun.step_moves h.sound hq
      exact
        { h with
          sound := hqueue.sound h.sound
          born := h.born.trans_le hqueue.born
          call := h.call.step h.sound h.born hcancel hrelease hq }
  | poll hgone =>
      cases hplace : w.place with
      | waiting => exact sane_look h hplace
      | _ => rcases h.polls (by simp [hplace]) with hg | hg <;> simp [hg] at hgone
  | wake hplace hdone => exact sane_clearing h (sane_wake h hplace)
  | interrupt hplace => exact sane_clearing h (show CallAt w.queue w.acquire .waiting from hplace ▸ h.call)
  | clearGranted hplace =>
      exact
        { h with
          call := show CallAt w.queue w.acquire (.clearing .granted) from hplace ▸ h.call
          dropped := nofun
          polled := nofun
          polls := fun _ => h.polls (by simp [hplace]) }
  | clear hplace hexit hq =>
      have hqueue := QueueRun.step_moves h.sound hq
      exact
        { h with
          sound := hqueue.sound h.sound
          born := h.born.trans_le hqueue.born
          call := hqueue.cancel.imp And.right id
          dropped := fun hp => hexit (WaitPlace.dropping.inj hp)
          polled := nofun
          polls := fun _ => h.polls (by simp [hplace]) }
  | finishEnded hplace hcall =>
      exact
        { h with
          call := callAt_over (fun he => h.dropped (he ▸ hplace)) hcall
          dropped := nofun
          polled := nofun
          polls := fun _ => h.polls (by simp [hplace]) }
  | finishHolding hplace hcall hq =>
      have hqueue := QueueRun.step_moves h.sound hq
      exact
        { h with
          sound := hqueue.sound h.sound
          born := h.born.trans_le hqueue.born
          call := callAt_over (fun he => h.dropped (he ▸ hplace)) (QueueRun.release_ended hqueue)
          dropped := nofun
          polled := nofun
          polls := fun _ => h.polls (by simp [hplace]) }

def Reached (w : SlotWait) : Prop :=
  ∃ maxConcurrent start queue priority reader now, SessionQueue.init maxConcurrent = some start ∧
    QueueRun.Reachable start queue ∧ machine.Runs Machine.Free (begin queue priority reader now) w

theorem sane_begin {queue : QueueRun} (hs : queue.Sound) (priority : Int) (reader : ControlStream) (now : ℚ) :
    Sane (begin queue priority reader now) where
  sound := hs.create priority
  born := Nat.lt_succ_self queue.born
  call := .inr (.inl ⟨priority, Function.update_self _ _ _⟩)
  dropped := nofun
  polled := nofun
  polls hp := absurd rfl hp
  asleep := nofun
  returned := nofun

theorem Reached.sane (h : Reached w) : Sane w := by
  obtain ⟨_, start, queue, priority, reader, now, hinit, hreach, hruns⟩ := h
  obtain ⟨_, hactive, hwaiters⟩ := QueueRun.init_spec hinit
  have hs := QueueRun.reachable_sound hactive hwaiters hreach
  exact hruns.keeps (sane_begin hs priority reader now) fun _ _ _ hi hstep _ => sane_step hi hstep

def Own (w : SlotWait) : WaitAct → SlotWait → Prop
  | .feedData _, _ => False
  | .feedEof, _ => False
  | .setException, _ => False
  | .interrupt, _ => False
  | .queue a, _ => a = .start w.acquire ∨ a = .resume w.acquire
  | _, _ => True

def EndsBy (limit : ℚ) (w : SlotWait) : Prop :=
  ∃ w' exit, machine.Runs Own w w' ∧ w'.place = .finished exit ∧ w'.now ≤ limit

def Uninterrupted (_ : SlotWait) (a : WaitAct) (_ : SlotWait) : Prop := a ≠ .interrupt

structure GivesUp (x : SlotWait) : Prop where
  polled : ∀ y z, machine.Runs Machine.Free x y → machine.step y .poll = some z → z.gone = .returned
  ends : ∀ y, machine.Runs Machine.Free x y → (∀ exit, y.place ≠ .finished exit) →
    y.EndsBy (x.now + clientLivenessCheck)
  inTime : ∀ y, machine.Runs Machine.Free x y → (∀ exit, y.place ≠ .finished exit) →
    y.now ≤ x.now + clientLivenessCheck
  answer : ∀ y exit, machine.Runs Machine.Free x y → y.place = .finished exit →
    exit = .granted ∧ y.queue.calls y.acquire = .holding ∨
    exit ≠ .granted ∧ y.queue.calls y.acquire = .ended ∧ ∀ v ∈ y.queue.queue.waiters, v.future ≠ y.acquire
  unraised : ∀ y, machine.Runs Uninterrupted x y → y.place ≠ .finished .raised
  late : ∀ y a z, machine.Runs Machine.Free x y → machine.step y a = some z →
    y.queue.granted y.acquire = false → z.queue.granted z.acquire = true → z.now ≤ x.now + clientLivenessCheck

structure Waning (limit : ℚ) (w : SlotWait) : Prop extends Sane w where
  noticed : clientGone (some w.reader) = true
  inTime : (∀ exit, w.place ≠ .finished exit) → w.now ≤ limit
  due : ∀ wake, w.gone = .asleep wake → wake ≤ limit

variable {limit : ℚ}

theorem waning_step (h : Waning limit w) (hstep : machine.step w a = some w') : Waning limit w' := by
  have hsane := sane_step h.toSane hstep
  have hmoves := step_moves hstep
  have hnoticed := hmoves.clientGone h.noticed
  cases hmoves with
  | elapse htime hidle =>
      refine ⟨hsane, hnoticed, fun hover => ?_, h.due⟩
      rcases idle_cases hidle with ⟨exit, hplace⟩ | ⟨_, _, wake, hgone, hle⟩
      · exact absurd hplace (hover exit)
      · exact hle.trans (h.due wake hgone)
  | feedData heof => exact ⟨hsane, hnoticed, h.inTime, h.due⟩
  | feedEof => exact ⟨hsane, hnoticed, h.inTime, h.due⟩
  | setException => exact ⟨hsane, hnoticed, h.inTime, h.due⟩
  | queue hcancel hrelease hq => exact ⟨hsane, hnoticed, h.inTime, h.due⟩
  | poll hgone =>
      refine ⟨hsane, hnoticed, h.inTime, fun wake hwake => ?_⟩
      rw [look_noticed h.noticed] at hwake
      cases hwake
  | wake hplace hdone =>
      refine ⟨hsane, hnoticed, fun _ => h.inTime (by simp [hplace]), fun wake hwake => ?_⟩
      rcases cancel_settles w.gone with hc | hc <;> exact absurd (hwake.symm.trans hc) nofun
  | interrupt hplace =>
      refine ⟨hsane, hnoticed, fun _ => h.inTime (by simp [hplace]), fun wake hwake => ?_⟩
      rcases cancel_settles w.gone with hc | hc <;> exact absurd (hwake.symm.trans hc) nofun
  | clearGranted hplace => exact ⟨hsane, hnoticed, fun hover => absurd rfl (hover .granted), h.due⟩
  | clear hplace hexit hq => exact ⟨hsane, hnoticed, fun _ => h.inTime (by simp [hplace]), h.due⟩
  | finishEnded hplace hcall => exact ⟨hsane, hnoticed, fun hover => absurd rfl (hover _), h.due⟩
  | finishHolding hplace hcall hq => exact ⟨hsane, hnoticed, fun hover => absurd rfl (hover _), h.due⟩

theorem EndsBy.head (hstep : machine.step w a = some w') (hown : Own w a w') (h : w'.EndsBy limit) : w.EndsBy limit := by
  obtain ⟨z, exit, hruns, hplace, hnow⟩ := h
  exact ⟨z, exit, .head ⟨a, hstep, hown⟩ hruns, hplace, hnow⟩

theorem endsBy_over (hplace : w.place = .finished exit) (hnow : w.now ≤ limit) : w.EndsBy limit :=
  ⟨w, exit, .refl, hplace, hnow⟩

theorem step_queue {queue : QueueRun} {c : QueueAct} (hcancel : c ≠ .cancel w.acquire)
    (hrelease : c ≠ .release w.acquire) (h : w.queue.step c = some queue) :
    machine.step w (.queue c) = some { w with queue := queue } := by
  simp only [machine, step, hcancel, hrelease, or_self, if_false, h, Option.map_some]

theorem endsBy_ended (hplace : w.place = .dropping exit) (hcall : w.queue.calls w.acquire = .ended)
    (hnow : w.now ≤ limit) : w.EndsBy limit := by
  have hstep : machine.step w .finish = some { w with place := .finished exit } := by
    simp only [machine, step, hplace, hcall]
  exact .head hstep trivial (endsBy_over rfl hnow)

theorem endsBy_dropping (hplace : w.place = .dropping exit) (hcall : CallAt w.queue w.acquire w.place)
    (hnow : w.now ≤ limit) : w.EndsBy limit := by
  rw [hplace] at hcall
  by_cases hended : w.queue.calls w.acquire = .ended
  · exact endsBy_ended hplace hended hnow
  · rcases hcall with hholding | habandoned
    · obtain ⟨queue, hq⟩ := QueueRun.step_release hholding
      have hstep : machine.step w .finish = some { w with queue := queue, place := .finished exit } := by
        simp only [machine, step, hplace, hholding, hq, Option.map_some]
      exact .head hstep trivial (endsBy_over rfl hnow)
    · obtain ⟨c, queue, hc, hq, hcall⟩ := habandoned.ends hended
      have hstep : machine.step w (.queue c) = some { w with queue := queue } := by
        rcases hc with rfl | rfl
        · exact step_queue nofun nofun hq
        · exact step_queue nofun nofun hq
      exact .head hstep hc (endsBy_ended hplace hcall hnow)

theorem endsBy_clearing (h : Sane w) (hplace : w.place = .clearing exit) (hnow : w.now ≤ limit) : w.EndsBy limit := by
  have hcall : CallAt w.queue w.acquire (.clearing exit) := hplace ▸ h.call
  by_cases hexit : exit = .granted
  · subst hexit
    have hstep : machine.step w .clear = some { w with place := .finished .granted } := by
      simp only [machine, step, hplace]
    exact .head hstep trivial (endsBy_over rfl hnow)
  · obtain ⟨queue, hq⟩ := QueueRun.step_cancel hcall.live.born
    have hstep : machine.step w .clear = some { w with queue := queue, place := .dropping exit } := by
      simp only [machine, step, hplace, hq, Option.map_some]
    exact .head hstep trivial (endsBy_dropping rfl (sane_step h hstep).call hnow)

theorem endsBy_wake (h : Sane w) (hplace : w.place = .waiting) (hdone : w.gone = .returned ∨ w.acquired = true)
    (hnow : w.now ≤ limit) : w.EndsBy limit := by
  have hstep : machine.step w .wake = some { w with gone := w.gone.cancel, place := .clearing w.verdict } :=
    if_pos ⟨hplace, hdone⟩
  exact .head hstep trivial (endsBy_clearing (sane_step h hstep) rfl hnow)

theorem endsBy_poll (h : Waning limit w) (hplace : w.place = .waiting) (hgone : w.gone = .ready ∨ w.gone = .asleep w.now)
    (hnow : w.now ≤ limit) : w.EndsBy limit := by
  have hstep : machine.step w .poll = some w.look := if_pos hgone
  have hsane := sane_step h.toSane hstep
  rw [look_noticed h.noticed] at hstep hsane
  exact .head hstep trivial (endsBy_wake hsane hplace (.inl rfl) hnow)

theorem step_sleep {wake : ℚ} (hplace : w.place = .waiting) (hgone : w.gone = .asleep wake) (hqueued : w.queued = true)
    (hwake : w.now ≤ wake) : machine.step w (.elapse (wake - w.now)) = some { w with now := wake } := by
  have hsum : w.now + (wake - w.now) = wake := add_sub_cancel w.now wake
  simp only [machine, step, hsum, idle, hplace, hgone, hqueued, sub_nonneg, hwake, le_refl, decide_true,
    Bool.and_self, and_self, if_true]

theorem endsBy_queued (h : Waning limit w) (hplace : w.place = .waiting) (hqueued : w.queued = true) :
    w.EndsBy limit := by
  have hnow := h.inTime (by simp [hplace])
  cases hgone : w.gone with
  | ready => exact endsBy_poll h hplace (.inl hgone) hnow
  | returned => exact endsBy_wake h.toSane hplace (.inl hgone) hnow
  | cancelled => exact absurd hgone (h.polled hplace)
  | asleep wake =>
      obtain ⟨hwake, _⟩ := h.asleep wake hgone
      have hsleep := step_sleep hplace hgone hqueued hwake
      have hlate := waning_step h hsleep
      exact .head hsleep trivial (endsBy_poll hlate hplace (.inr hgone) (h.due wake hgone))

theorem endsBy_entered (h : Waning limit w) (hplace : w.place = .waiting)
    (hcall : ∀ p, w.queue.calls w.acquire ≠ .created p false) : w.EndsBy limit := by
  have hnow := h.inTime (by simp [hplace])
  have hlive : w.queue.Live w.acquire := show CallAt w.queue w.acquire .waiting from hplace ▸ h.call
  rcases hlive with hholding | ⟨p, hcreated⟩ | ⟨v, hawaiting, hfuture⟩
  · exact endsBy_wake h.toSane hplace (.inr (by simp only [acquired, hholding])) hnow
  · exact absurd hcreated (hcall p)
  · cases hf : w.queue.futures w.acquire with
    | pending => exact endsBy_queued h hplace (by simp [queued, hawaiting, hf])
    | cancelled => exact absurd hf hfuture
    | result =>
        have hstep : machine.step w (.queue (.resume w.acquire)) = some _ :=
          step_queue nofun nofun (QueueRun.step_resume hawaiting hf)
        have hholding : (w.queue.setCall w.acquire .holding).calls w.acquire = .holding := Function.update_self _ _ _
        exact .head hstep (.inr rfl)
          (endsBy_wake (sane_step h.toSane hstep) hplace (.inr (by simp only [acquired, hholding])) hnow)

theorem endsBy_waiting (h : Waning limit w) (hplace : w.place = .waiting) : w.EndsBy limit := by
  by_cases hcreated : ∃ p, w.queue.calls w.acquire = .created p false
  · obtain ⟨p, hp⟩ := hcreated
    obtain ⟨queue, hq⟩ := QueueRun.step_start hp
    have hstep : machine.step w (.queue (.start w.acquire)) = some _ := step_queue nofun nofun hq
    refine .head hstep (.inl rfl) (endsBy_entered (waning_step h hstep) hplace fun p' hp' => ?_)
    have hmoves := QueueRun.step_moves h.sound hq
    cases hmoves with
    | startCancelled hd => simp [hp] at hd
    | startFree hd hlt => simp at hp'
    | startQueued hd hle => simp [QueueRun.enqueue] at hp'
  · exact endsBy_entered h hplace fun p hp => hcreated ⟨p, hp⟩

theorem Waning.endsBy (h : Waning limit w) (hover : ∀ exit, w.place ≠ .finished exit) : w.EndsBy limit := by
  have hnow := h.inTime hover
  cases hplace : w.place with
  | waiting => exact endsBy_waiting h hplace
  | clearing exit => exact endsBy_clearing h.toSane hplace hnow
  | dropping exit => exact endsBy_dropping hplace h.call hnow
  | finished exit => exact absurd hplace (hover exit)

theorem waning_polled (h : Waning limit y) (hstep : machine.step y .poll = some z) : z.gone = .returned := by
  cases step_moves hstep with
  | poll hgone => rw [look_noticed h.noticed]

theorem sane_answer (h : Sane w) (hplace : w.place = .finished exit) :
    exit = .granted ∧ w.queue.calls w.acquire = .holding ∨
    exit ≠ .granted ∧ w.queue.calls w.acquire = .ended ∧ ∀ v ∈ w.queue.queue.waiters, v.future ≠ w.acquire := by
  have hcall : CallAt w.queue w.acquire (.finished exit) := hplace ▸ h.call
  have hdropped : w.queue.calls w.acquire = .ended → ∀ v ∈ w.queue.queue.waiters, v.future ≠ w.acquire := by
    intro hended v hv heq
    obtain ⟨m, hm⟩ := (h.sound.queued v hv).1
    rw [heq, hended] at hm
    cases hm
  cases exit with
  | granted => exact .inl ⟨rfl, hcall⟩
  | refused => exact .inr ⟨nofun, hcall, hdropped hcall⟩
  | raised => exact .inr ⟨nofun, hcall, hdropped hcall⟩

theorem sane_over (h : Sane w) (hplace : w.place = .finished exit) (hstep : machine.step w a = some w')
    (hgranted : w'.queue.granted w'.acquire = true) : w.queue.granted w.acquire = true := by
  have hover : w'.place = .finished exit := by
    cases step_moves hstep with
    | wake hp _ => simp [hplace] at hp
    | interrupt hp => simp [hplace] at hp
    | clearGranted hp => simp [hplace] at hp
    | clear hp _ _ => simp [hplace] at hp
    | finishEnded hp _ => simp [hplace] at hp
    | finishHolding hp _ _ => simp [hplace] at hp
    | _ => exact hplace
  rcases sane_answer h hplace with ⟨_, hcall⟩ | ⟨hne, _⟩
  · simp only [QueueRun.granted, hcall]
  · rcases sane_answer (sane_step h hstep) hover with ⟨he, _⟩ | ⟨_, hcall, _⟩
    · exact absurd he hne
    · simp [QueueRun.granted, hcall] at hgranted

theorem waning_late (h : Waning limit y) (hstep : machine.step y a = some z)
    (hbefore : y.queue.granted y.acquire = false) (hafter : z.queue.granted z.acquire = true) : z.now ≤ limit := by
  have hover : ∀ exit, y.place ≠ .finished exit := by
    intro exit hplace
    have hgranted := sane_over h.toSane hplace hstep hafter
    rw [hbefore] at hgranted
    cases hgranted
  have hnow := h.inTime hover
  cases step_moves hstep with
  | elapse htime hidle =>
      rw [hbefore] at hafter
      cases hafter
  | poll hgone =>
      rw [look_noticed h.noticed]
      exact hnow
  | _ => exact hnow

theorem unraised_step (h : Sane w) (hexit : WaitPlace.exit w.place ≠ some .raised) (hstep : machine.step w a = some w')
    (ha : a ≠ .interrupt) : WaitPlace.exit w'.place ≠ some .raised := by
  cases step_moves hstep with
  | wake hplace hdone =>
      have hlive : w.queue.Live w.acquire := show CallAt w.queue w.acquire .waiting from hplace ▸ h.call
      rcases hlive with hcall | ⟨p, hcall⟩ | ⟨v, hcall, _⟩ <;> simp [verdict, hcall, WaitPlace.exit]
  | interrupt hplace => exact absurd rfl ha
  | clearGranted hplace => simp [WaitPlace.exit]
  | clear hplace _ _ => simpa [hplace, WaitPlace.exit] using hexit
  | finishEnded hplace _ => simpa [hplace, WaitPlace.exit] using hexit
  | finishHolding hplace _ _ => simpa [hplace, WaitPlace.exit] using hexit
  | _ => exact hexit

theorem Waning.runs {ok : SlotWait → WaitAct → SlotWait → Prop} (h : Waning limit x) (hruns : machine.Runs ok x y) :
    Waning limit y :=
  hruns.keeps h fun _ _ _ hi hstep _ => waning_step hi hstep

theorem unraised_runs (h : Sane x) (hplace : x.place = .waiting) (hruns : machine.Runs Uninterrupted x y) :
    y.place ≠ .finished .raised := by
  have hkeeps := hruns.keeps (I := fun w => Sane w ∧ WaitPlace.exit w.place ≠ some .raised)
    ⟨h, by simp [hplace, WaitPlace.exit]⟩ fun _ _ _ hi hstep ha =>
      ⟨sane_step hi.1 hstep, unraised_step hi.1 hi.2 hstep ha⟩
  intro hraised
  exact hkeeps.2 (by rw [hraised, WaitPlace.exit])

theorem gives_up_noticed (h : Sane x) (hplace : x.place = .waiting) (hgone : clientGone (some x.reader) = true) :
    GivesUp x := by
  have hwaning : Waning (x.now + clientLivenessCheck) x :=
    ⟨h, hgone, fun _ => le_add_of_nonneg_right zero_le_one, fun wake hwake => (h.asleep wake hwake).2⟩
  exact
    { polled := fun y z hruns hstep => waning_polled (hwaning.runs hruns) hstep
      ends := fun y hruns hover => (hwaning.runs hruns).endsBy hover
      inTime := fun y hruns hover => (hwaning.runs hruns).inTime hover
      answer := fun y exit hruns hover => sane_answer (hwaning.runs hruns).toSane hover
      unraised := fun y hruns => unraised_runs h hplace hruns
      late := fun y a z hruns hstep => waning_late (hwaning.runs hruns) hstep }

theorem unnoticed_poll (h : Sane x) (hplace : x.place = .waiting) (hqueued : x.queued = true)
    (hgone : clientGone (some x.reader) = false) :
    ∃ y z, machine.Runs Machine.Free x y ∧ machine.step y .poll = some z ∧ z.gone ≠ .returned := by
  cases hg : x.gone with
  | ready =>
      have hstep : machine.step x .poll = some x.look := if_pos (.inl hg)
      exact ⟨x, x.look, .refl, hstep, by simp [look, hgone]⟩
  | returned =>
      have hreturned := h.returned hg
      rw [hgone] at hreturned
      cases hreturned
  | cancelled => exact absurd hg (h.polled hplace)
  | asleep wake =>
      obtain ⟨hwake, _⟩ := h.asleep wake hg
      have hsleep := step_sleep hplace hg hqueued hwake
      have hstep : machine.step { x with now := wake } .poll = some (look { x with now := wake }) := if_pos (.inr hg)
      exact ⟨_, _, .single ⟨_, hsleep, trivial⟩, hstep, by simp [look, hgone]⟩

theorem gives_up_iff (hreached : Reached x) (hplace : x.place = .waiting) (hqueued : x.queued = true)
    (hleft : x.reader.left = true) : GivesUp x ↔ x.reader.exception = true ∨ x.reader.buffer = [] := by
  rw [← clientGone_iff hleft]
  constructor
  · intro hgives
    cases hgone : clientGone (some x.reader) with
    | true => rfl
    | false =>
        obtain ⟨y, z, hruns, hstep, hne⟩ := unnoticed_poll hreached.sane hplace hqueued hgone
        exact absurd (hgives.polled y z hruns hstep) hne
  · exact gives_up_noticed hreached.sane hplace

def sessionQueue : SessionQueue := ⟨1, 0, [], 0, le_refl 1⟩

def held : QueueRun where
  queue := sessionQueue.book 1 []
  futures := fun _ => .pending
  calls := Function.update (Function.update (fun _ => .unborn) 0 (.created priorityNormal false)) 0 .holding
  born := 1

theorem reachable_held : QueueRun.Reachable sessionQueue held :=
  .tail (.single ⟨.create priorityNormal, rfl⟩) ⟨.start 0, rfl⟩

def departed (buffer : List UInt8) : SlotWait where
  now := 0
  reader := ⟨buffer, true, false⟩
  queue := QueueRun.enqueue (begin held priorityNormal ⟨[], false, false⟩ 0).queue 1 priorityNormal
  acquire := 1
  gone := .asleep (0 + clientLivenessCheck)
  place := .waiting

theorem reached_departed (buffer : List UInt8) : Reached (departed buffer) := by
  have hplay : machine.play (begin held priorityNormal ⟨[], false, false⟩ 0)
      [.queue (.start 1), .poll, .feedData buffer, .feedEof] = some (departed buffer) := rfl
  exact ⟨1, sessionQueue, held, priorityNormal, _, 0, rfl, reachable_held, Machine.play_runs hplay⟩

theorem gives_up_departed : GivesUp (departed []) :=
  (gives_up_iff (reached_departed []) rfl rfl rfl).mpr (.inr rfl)

-- `NOOP` was pipelined: two polls later the client is still taken to be there, and is granted the slot.
theorem departed_client_granted : Reached (departed [78, 79, 79, 80, 13, 10]) ∧
    (departed [78, 79, 79, 80, 13, 10]).reader.left = true ∧ ¬ GivesUp (departed [78, 79, 79, 80, 13, 10]) := by
  refine ⟨reached_departed _, rfl, fun h => ?_⟩
  have hgrant : ((machine.play (departed [78, 79, 79, 80, 13, 10]) [.elapse 1, .poll, .elapse 1, .poll]).bind fun y =>
      (machine.step y (.queue (.release 0))).map fun z =>
        (y.queue.granted y.acquire, z.queue.granted z.acquire, z.now)) = some (false, true, 2) := by
    decide +kernel
  obtain ⟨y, hy, hz⟩ := Option.bind_eq_some_iff.mp hgrant
  obtain ⟨z, hstep, hz⟩ := Option.map_eq_some_iff.mp hz
  obtain ⟨hbefore, hafter, hnow⟩ : y.queue.granted y.acquire = false ∧ z.queue.granted z.acquire = true ∧ z.now = 2 := by
    simpa using hz
  have hlate := h.late y _ z (Machine.play_runs hy) hstep hbefore hafter
  rw [hnow] at hlate
  exact absurd hlate (by decide +kernel)

end SlotWait

end PandaProxy.FtpProxy
