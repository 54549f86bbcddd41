import Mathlib.Algebra.Order.Field.Rat
import Mathlib.Logic.Function.Basic
import Mathlib.Tactic.Linarith
import PandaProxy.Async.Machine

namespace PandaProxy.FtpProxy

open Async

def dataStallTimeout : ℚ := 120

def dataStallCheck : ℚ := 5

def dataDrainGrace : ℚ := 5

def dataChunk : Nat := 65536

inductive Direction where
  | clientToPrinter
  | printerToClient
  deriving DecidableEq, Repr

namespace Direction

def other : Direction → Direction
  | clientToPrinter => printerToClient
  | printerToClient => clientToPrinter

theorem eq_or_eq_other (d o : Direction) : d = o ∨ d = o.other := by
  cases d <;> cases o <;> simp [other]

end Direction

inductive PumpEnd where
  | sawEof
  | failed
  | cancelled
  deriving DecidableEq, Repr

inductive Pump where
  | reading
  | draining
  | cancelling
  | ended (how : PumpEnd)
  deriving DecidableEq, Repr

namespace Pump

def live : Pump → Bool
  | reading => true
  | draining => true
  | _ => false

def done : Pump → Bool
  | ended _ => true
  | _ => false

def cancel (p : Pump) : Pump := if p.live then cancelling else p

end Pump

inductive Closing where
  | reset
  | clean
  deriving DecidableEq, Repr

@[ext] structure DataSocket where
  halfClosed : Bool
  closed : Option Closing
  deriving DecidableEq, Repr

namespace DataSocket

def init : DataSocket := ⟨false, none⟩

def writeEof (s : DataSocket) : DataSocket := { s with halfClosed := true }

-- A socket is closed once: after a reset there is nothing left to close.
def forceReset (s : DataSocket) : DataSocket := { s with closed := some (s.closed.getD .reset) }

def closeWriter (s : DataSocket) : DataSocket := { s with closed := some (s.closed.getD .clean) }

end DataSocket

-- One direction of the relay; the socket is the one it writes to. The two times say when its last
-- byte was relayed and when its pump ended.
structure Lane where
  pump : Pump
  moved : Nat
  socket : DataSocket
  lastMoved : ℚ
  endedAt : ℚ
  deriving DecidableEq, Repr

namespace Lane

def relay (l : Lane) (now : ℚ) (size : Nat) : Lane :=
  { l with pump := .draining, moved := l.moved + size, lastMoved := now }

-- The `finally` clause of `pump`.
def finish (l : Lane) (now : ℚ) (movedBack : Nat) (how : PumpEnd) (canWriteEof : Bool) : Lane :=
  { l with
    pump := .ended how
    endedAt := now
    socket :=
      if how = .sawEof then (if canWriteEof then l.socket.writeEof else l.socket)
      else if movedBack < l.moved then l.socket.forceReset
      else l.socket }

def closeWriter (l : Lane) : Lane := { l with socket := l.socket.closeWriter }

end Lane

inductive Watchdog where
  | sleeping (wakeAt : ℚ)
  | cancelling
  | fired
  | cancelled
  deriving DecidableEq, Repr

namespace Watchdog

def done : Watchdog → Bool
  | fired => true
  | cancelled => true
  | _ => false

def cancel : Watchdog → Watchdog
  | sleeping _ => cancelling
  | w => w

end Watchdog

-- Where `_pipe_both_ways` waits, and then the relay that called it.
inductive Stage where
  | first
  | idle (other : Direction) (since : ℚ)
  | extending (other : Direction) (before : Nat) (since : ℚ)
  | unwinding (raised : Bool)
  | closingClient
  | closingPrinter
  | finished
  deriving DecidableEq, Repr

structure DataPipe where
  now : ℚ
  activity : ℚ
  lanes : Direction → Lane
  stall : Watchdog
  stage : Stage
  dataMoved : Option Nat

inductive PipeAct where
  | elapse (time : ℚ)
  | chunk (d : Direction) (size : Nat)
  | drained (d : Direction)
  | eof (d : Direction) (canWriteEof : Bool)
  | fail (d : Direction)
  | takeCancel (d : Direction)
  | check
  | stallCancelled
  | proceed
  | cancelRelay
  deriving DecidableEq, Repr

namespace DataPipe

variable {c c' : DataPipe} {a : PipeAct} {d o : Direction}

def setLane (c : DataPipe) (d : Direction) (f : Lane → Lane) : DataPipe :=
  { c with lanes := Function.update c.lanes d (f (c.lanes d)) }

def relay (c : DataPipe) (d : Direction) (size : Nat) : DataPipe :=
  { c.setLane d fun l => l.relay c.now size with activity := c.now }

def finish (c : DataPipe) (d : Direction) (how : PumpEnd) (canWriteEof : Bool) : DataPipe :=
  c.setLane d fun l => l.finish c.now (c.lanes d.other).moved how canWriteEof

-- The `finally` clause of `_pipe_both_ways`, as far as it goes at once.
def unwind (c : DataPipe) (raised : Bool) : DataPipe :=
  { c with
    lanes := fun d => { c.lanes d with pump := (c.lanes d).pump.cancel }
    stall := c.stall.cancel
    stage := .unwinding raised }

def drain (c : DataPipe) (other : Direction) : DataPipe :=
  { c with
    stage :=
      if (c.lanes other).moved = 0 then .idle other c.now
      else .extending other (c.lanes other).moved c.now }

def asymmetry (c : DataPipe) : Nat :=
  max (c.lanes .clientToPrinter).moved (c.lanes .printerToClient).moved -
    min (c.lanes .clientToPrinter).moved (c.lanes .printerToClient).moved

def closeWriter (c : DataPipe) (d : Direction) : DataPipe :=
  c.setLane d Lane.closeWriter

-- A pump that a wait gives up on is among the tasks that `unwind` cancels.
def proceed (c : DataPipe) : Option DataPipe :=
  match c.stage with
  | .first =>
      if c.stall = .fired then some (c.unwind false)
      else
        match (c.lanes .clientToPrinter).pump.done, (c.lanes .printerToClient).pump.done with
        | true, true => some (c.unwind false)
        | true, false => some (c.drain .printerToClient)
        | false, true => some (c.drain .clientToPrinter)
        | false, false => none
  | .idle other since =>
      if (c.lanes other).pump.done ∨ since + dataDrainGrace ≤ c.now then some (c.unwind false) else none
  | .extending other before since =>
      if (c.lanes other).pump.done ∨ c.stall = .fired then some (c.unwind false)
      else if since + dataDrainGrace ≤ c.now then
        if (c.lanes other).moved = before then some (c.unwind false)
        else some { c with stage := .extending other (c.lanes other).moved c.now }
      else none
  | .unwinding raised =>
      if (c.lanes .clientToPrinter).pump.done ∧ (c.lanes .printerToClient).pump.done ∧ c.stall.done then
        some { c.closeWriter .printerToClient with
          stage := .closingClient
          dataMoved := if raised then c.dataMoved else some c.asymmetry }
      else none
  | .closingClient => some { c.closeWriter .clientToPrinter with stage := .closingPrinter }
  | .closingPrinter => some { c with stage := .finished }
  | .finished => none

def cancelRelay (c : DataPipe) : Option DataPipe :=
  match c.stage with
  | .unwinding _ => some { c with stage := .unwinding true }
  | .closingClient => some { c with stage := .finished }
  | .closingPrinter => some { c with stage := .finished }
  | .finished => none
  | _ => some (c.unwind true)

def step (c : DataPipe) : PipeAct → Option DataPipe
  | .elapse time => if 0 ≤ time then some { c with now := c.now + time } else none
  | .chunk d size =>
      if (c.lanes d).pump = .reading ∧ 0 < size ∧ size ≤ dataChunk then some (c.relay d size) else none
  | .drained d =>
      if (c.lanes d).pump = .draining then some (c.setLane d fun l => { l with pump := .reading }) else none
  | .eof d canWriteEof => if (c.lanes d).pump = .reading then some (c.finish d .sawEof canWriteEof) else none
  | .fail d => if (c.lanes d).pump.live then some (c.finish d .failed false) else none
  | .takeCancel d => if (c.lanes d).pump = .cancelling then some (c.finish d .cancelled false) else none
  | .check =>
      match c.stall with
      | .sleeping wakeAt =>
          if wakeAt ≤ c.now then
            some { c with
              stall := if dataStallTimeout < c.now - c.activity then .fired else .sleeping (c.now + dataStallCheck) }
          else none
      | _ => none
  | .stallCancelled => if c.stall = .cancelling then some { c with stall := .cancelled } else none
  | .proceed => c.proceed
  | .cancelRelay => c.cancelRelay

def machine : Machine DataPipe PipeAct := ⟨step⟩

def init : DataPipe where
  now := 0
  activity := 0
  lanes := fun _ => ⟨.reading, 0, .init, 0, 0⟩
  stall := .sleeping dataStallCheck
  stage := .first
  dataMoved := none

@[simp] theorem setLane_same (c : DataPipe) (d : Direction) (f : Lane → Lane) :
    (c.setLane d f).lanes d = f (c.lanes d) := by
  simp [setLane]

theorem setLane_ne (c : DataPipe) (f : Lane → Lane) (h : o ≠ d) : (c.setLane d f).lanes o = c.lanes o := by
  simp [setLane, h]

inductive LaneStep (c : DataPipe) (d : Direction) : Lane → Prop where
  | still : LaneStep c d (c.lanes d)
  | chunk (size : Nat) (hsize : 0 < size) (h : (c.lanes d).pump = .reading) :
      LaneStep c d ((c.lanes d).relay c.now size)
  | drained (h : (c.lanes d).pump = .draining) : LaneStep c d { c.lanes d with pump := .reading }
  | cancel (h : (c.lanes d).pump.live = true) : LaneStep c d { c.lanes d with pump := .cancelling }
  | finish (how : PumpEnd) (canWriteEof : Bool) (h : (c.lanes d).pump.done = false) :
      LaneStep c d ((c.lanes d).finish c.now (c.lanes d.other).moved how canWriteEof)
  | close (h : (c.lanes d).pump.done = true) : LaneStep c d (c.lanes d).closeWriter

namespace LaneStep

theorem setLane {f : Lane → Lane} (h : LaneStep c d (f (c.lanes d))) : LaneStep c o ((c.setLane d f).lanes o) := by
  by_cases ho : o = d
  · subst ho
    rwa [setLane_same]
  · rw [setLane_ne c f ho]
    exact .still

theorem unwind (raised : Bool) : LaneStep c d ((c.unwind raised).lanes d) := by
  show LaneStep c d { c.lanes d with pump := (c.lanes d).pump.cancel }
  unfold Pump.cancel
  split
  · next hlive => exact .cancel hlive
  · exact .still

end LaneStep

def closing : Stage → Bool
  | .closingClient => true
  | .closingPrinter => true
  | .finished => true
  | _ => false

def ClosesLast (c : DataPipe) : Prop := closing c.stage = true → ∀ d, (c.lanes d).pump.done = true

theorem not_done_of_live {p : Pump} (h : p.live = true) : p.done = false := by
  cases p <;> first | rfl | cases h

inductive Ends (c : DataPipe) : Prop where
  | stalled (h : c.stall = .fired)
  | both (hfirst : c.stage = .first) (hdone : ∀ d, (c.lanes d).pump.done = true)
  | idle (o : Direction) (since : ℚ) (hstage : c.stage = .idle o since)
      (h : (c.lanes o).pump.done = true ∨ since + dataDrainGrace ≤ c.now)
  | extending (o : Direction) (before : Nat) (since : ℚ) (hstage : c.stage = .extending o before since)
      (h : (c.lanes o).pump.done = true ∨ since + dataDrainGrace ≤ c.now ∧ (c.lanes o).moved = before)

inductive Proceeds (c : DataPipe) : DataPipe → Prop where
  | unwind (hstage : closing c.stage = false) (h : Ends c) : Proceeds c (c.unwind false)
  | drain (o : Direction) (hfirst : c.stage = .first) (hother : (c.lanes o.other).pump.done = true) :
      Proceeds c (c.drain o)
  | extend (o : Direction) (before : Nat) (since : ℚ) (hstage : c.stage = .extending o before since) :
      Proceeds c { c with stage := .extending o (c.lanes o).moved c.now }
  | closeClient (raised : Bool) (moved : Option Nat) (hdone : ∀ d, (c.lanes d).pump.done = true) :
      Proceeds c { c.closeWriter .printerToClient with stage := .closingClient, dataMoved := moved }
  | closePrinter (hstage : c.stage = .closingClient) :
      Proceeds c { c.closeWriter .clientToPrinter with stage := .closingPrinter }
  | finish (hstage : c.stage = .closingPrinter) : Proceeds c { c with stage := .finished }

theorem forall_direction {P : Direction → Prop} (hup : P .clientToPrinter) (hdown : P .printerToClient) : ∀ d, P d
  | .clientToPrinter => hup
  | .printerToClient => hdown

theorem proceeds (h : c.proceed = some c') : Proceeds c c' := by
  unfold proceed at h
  split at h
  · next hfirst =>
      split at h
      · next hstall =>
          cases h
          exact .unwind (by rw [hfirst]; rfl) (.stalled hstall)
      · split at h
        · next hup hdown =>
            cases h
            exact .unwind (by rw [hfirst]; rfl) (.both hfirst (forall_direction hup hdown))
        · next hup _ =>
            cases h
            exact .drain .printerToClient hfirst hup
        · next _ hdown =>
            cases h
            exact .drain .clientToPrinter hfirst hdown
        · cases h
  · next o since hstage =>
      split at h
      · next hends =>
          cases h
          exact .unwind (by rw [hstage]; rfl) (.idle o since hstage hends)
      · cases h
  · next o before since hstage =>
      have hopen : closing c.stage = false := by rw [hstage]; rfl
      split at h
      · next hends =>
          cases h
          rcases hends with hdone | hstall
          · exact .unwind hopen (.extending o before since hstage (.inl hdone))
          · exact .unwind hopen (.stalled hstall)
      · split at h
        · next hpast =>
            split at h
            · next hsame =>
                cases h
                exact .unwind hopen (.extending o before since hstage (.inr ⟨hpast, hsame⟩))
            · cases h
              exact .extend o before since hstage
        · cases h
  · next raised hstage =>
      split at h
      · next hdone =>
          cases h
          exact .closeClient raised _ (forall_direction hdone.1 hdone.2.1)
      · cases h
  · next hstage =>
      cases h
      exact .closePrinter hstage
  · next hstage =>
      cases h
      exact .finish hstage
  · cases h

inductive Stops (c : DataPipe) : DataPipe → Prop where
  | unwind (hstage : closing c.stage = false) : Stops c (c.unwind true)
  | still (stage : Stage) (hstage : closing stage = true → closing c.stage = true) : Stops c { c with stage := stage }

theorem stops (h : c.cancelRelay = some c') : Stops c c' := by
  unfold cancelRelay at h
  split at h
  · cases h
    exact .still _ nofun
  · next hstage =>
      cases h
      exact .still _ fun _ => by rw [hstage]; rfl
  · next hstage =>
      cases h
      exact .still _ fun _ => by rw [hstage]; rfl
  · cases h
  · cases h
    refine .unwind ?_
    cases hstage : c.stage <;> first | rfl | simp_all

theorem step_lane (hlast : ClosesLast c) (h : machine.step c a = some c') (d : Direction) :
    LaneStep c d (c'.lanes d) := by
  cases a with
  | elapse time | stallCancelled =>
      simp only [machine, step] at h
      split at h <;> cases h
      exact .still
  | check =>
      simp only [machine, step] at h
      split at h
      · split at h <;> cases h
        exact .still
      · cases h
  | chunk o size =>
      simp only [machine, step] at h
      split at h <;> cases h
      next hpump => exact LaneStep.setLane (f := fun l => l.relay c.now size) (.chunk size hpump.2.1 hpump.1)
  | drained o =>
      simp only [machine, step] at h
      split at h <;> cases h
      next hpump => exact LaneStep.setLane (.drained hpump)
  | eof o canWriteEof =>
      simp only [machine, step] at h
      split at h <;> cases h
      next hpump => exact LaneStep.setLane (.finish .sawEof canWriteEof (by rw [hpump]; rfl))
  | fail o =>
      simp only [machine, step] at h
      split at h <;> cases h
      next hpump => exact LaneStep.setLane (.finish .failed false (not_done_of_live hpump))
  | takeCancel o =>
      simp only [machine, step] at h
      split at h <;> cases h
      next hpump => exact LaneStep.setLane (.finish .cancelled false (by rw [hpump]; rfl))
  | proceed =>
      cases proceeds h with
      | unwind _ _ => exact .unwind false
      | drain | extend | finish => exact .still
      | closeClient raised moved hdone =>
          exact LaneStep.setLane (f := Lane.closeWriter) (.close (hdone .printerToClient))
      | closePrinter hstage =>
          exact LaneStep.setLane (f := Lane.closeWriter) (.close (hlast (by rw [hstage]; rfl) .clientToPrinter))
  | cancelRelay =>
      cases stops h with
      | unwind => exact .unwind true
      | still => exact .still

theorem LaneStep.done {l : Lane} (h : LaneStep c d l) (hdone : (c.lanes d).pump.done = true) : l.pump.done = true := by
  cases h with
  | still => exact hdone
  | chunk size _ hp => simp [hp, Pump.done] at hdone
  | drained hp => simp [hp, Pump.done] at hdone
  | cancel hp => simp [not_done_of_live hp] at hdone
  | finish how canWriteEof hp => rfl
  | close hp => exact hp

theorem step_closing (h : machine.step c a = some c') (hclosing : closing c'.stage = true) :
    closing c.stage = true ∨ ∀ d, (c.lanes d).pump.done = true := by
  cases a with
  | proceed =>
      cases proceeds h with
      | unwind => cases hclosing
      | drain o =>
          simp only [drain] at hclosing
          split at hclosing <;> cases hclosing
      | extend => cases hclosing
      | closeClient raised moved hdone => exact .inr hdone
      | closePrinter hstage => exact .inl (by rw [hstage]; rfl)
      | finish hstage => exact .inl (by rw [hstage]; rfl)
  | cancelRelay =>
      cases stops h with
      | unwind => cases hclosing
      | still stage hstage => exact .inl (hstage hclosing)
  | check =>
      simp only [machine, step] at h
      split at h
      · split at h <;> cases h
        exact .inl hclosing
      · cases h
  | _ =>
      simp only [machine, step] at h
      split at h <;> cases h
      exact .inl hclosing

theorem closesLast_step (hlast : ClosesLast c) (h : machine.step c a = some c') : ClosesLast c' := by
  intro hclosing d
  have hdone : ∀ d, (c.lanes d).pump.done = true := (step_closing h hclosing).elim hlast id
  exact (step_lane hlast h d).done (hdone d)

def Fresh (l : Lane) : Prop := l.pump.done = false → l.socket = .init

theorem LaneStep.fresh {l : Lane} (h : LaneStep c d l) (hfresh : Fresh (c.lanes d)) : Fresh l := by
  intro hrunning
  cases h with
  | still => exact hfresh hrunning
  | chunk size _ hp => exact hfresh (by rw [hp]; rfl)
  | drained hp => exact hfresh (by rw [hp]; rfl)
  | cancel hp => exact hfresh (not_done_of_live hp)
  | finish how canWriteEof hp => cases hrunning
  | close hp => cases hp.symm.trans hrunning

theorem fresh_runs {ok : DataPipe → PipeAct → DataPipe → Prop} (hrun : machine.Runs ok init c) :
    ClosesLast c ∧ ∀ d, Fresh (c.lanes d) :=
  hrun.keeps (I := fun c => ClosesLast c ∧ ∀ d, Fresh (c.lanes d)) ⟨nofun, fun _ _ => rfl⟩ fun _ _ _ hi h _ =>
    ⟨closesLast_step hi.1 h, fun d => (step_lane hi.1 h d).fresh (hi.2 d)⟩

structure Aborted (reset : Prop) (l : Lane) : Prop where
  done : l.pump.done = true
  whole : l.socket.halfClosed = false
  reset : l.socket.closed = some .reset ↔ reset

theorem aborted_finish {l : Lane} {how : PumpEnd} (hfresh : l.socket = .init) (hhow : how ≠ .sawEof) (now : ℚ)
    (movedBack : Nat) (canWriteEof : Bool) :
    Aborted (movedBack < l.moved) (l.finish now movedBack how canWriteEof) := by
  refine ⟨rfl, ?_, ?_⟩ <;> simp only [Lane.finish, if_neg hhow, hfresh]
  · split <;> rfl
  · split
    · next hmore => exact iff_of_true rfl hmore
    · next hless => exact iff_of_false nofun hless

theorem LaneStep.aborted {reset : Prop} {l : Lane} (h : LaneStep c d l) (ha : Aborted reset (c.lanes d)) :
    Aborted reset l := by
  have hdone := ha.done
  cases h with
  | still => exact ha
  | chunk size _ hp => simp [hp, Pump.done] at hdone
  | drained hp => simp [hp, Pump.done] at hdone
  | cancel hp => simp [not_done_of_live hp] at hdone
  | finish how canWriteEof hp => cases hp.symm.trans hdone
  | close hp =>
      refine ⟨hdone, ha.whole, ?_⟩
      rw [← ha.reset]
      simp only [Lane.closeWriter, DataSocket.closeWriter]
      cases (c.lanes d).socket.closed <;> simp

theorem LaneStep.ended {how : PumpEnd} {l : Lane} (h : LaneStep c d l) (hrunning : (c.lanes d).pump.done = false)
    (hended : l.pump = .ended how) :
    ∃ canWriteEof, l = (c.lanes d).finish c.now (c.lanes d.other).moved how canWriteEof := by
  cases h with
  | still => simp [hended, Pump.done] at hrunning
  | chunk size _ hp => cases hended
  | drained hp => cases hended
  | cancel hp => cases hended
  | finish how' canWriteEof hp =>
      cases hended
      exact ⟨canWriteEof, rfl⟩
  | close hp => cases hp.symm.trans hrunning

theorem aborted_runs {reset : Prop} {ok : DataPipe → PipeAct → DataPipe → Prop} (hlast : ClosesLast c)
    (ha : Aborted reset (c.lanes d)) (hrun : machine.Runs ok c c') : Aborted reset (c'.lanes d) := by
  have hboth : ClosesLast c' ∧ Aborted reset (c'.lanes d) :=
    hrun.keeps (I := fun c => ClosesLast c ∧ Aborted reset (c.lanes d)) ⟨hlast, ha⟩ fun _ _ _ hi h _ =>
      ⟨closesLast_step hi.1 h, (step_lane hi.1 h d).aborted hi.2⟩
  exact hboth.2

theorem aborted_upload {c'' : DataPipe} {how : PumpEnd} (hrun : machine.Runs Machine.Free init c)
    (h : machine.step c a = some c') (hrunning : (c.lanes .clientToPrinter).pump.done = false)
    (hended : (c'.lanes .clientToPrinter).pump = .ended how) (hhow : how ≠ .sawEof)
    (hlater : machine.Runs Machine.Free c' c'') :
    (c''.lanes .clientToPrinter).socket = ⟨false, some .reset⟩ ↔
      (c.lanes .printerToClient).moved < (c.lanes .clientToPrinter).moved := by
  obtain ⟨hlast, hfresh⟩ := fresh_runs hrun
  obtain ⟨canWriteEof, hfinish⟩ := (step_lane hlast h .clientToPrinter).ended hrunning hended
  have haborted := aborted_finish (hfresh .clientToPrinter hrunning) hhow c.now
    (c.lanes .printerToClient).moved canWriteEof
  have hend := aborted_runs (closesLast_step hlast h) (hfinish ▸ haborted) hlater
  rw [← hend.reset]
  constructor
  · intro hsocket
    rw [hsocket]
  · intro hreset
    exact DataSocket.ext hend.whole hreset

def longUpload : List PipeAct :=
  [.chunk .clientToPrinter 65536, .drained .clientToPrinter]

-- The printer's side of a handshake is longer than what the client gets through after it.
def handshakeAndFewBytes : List PipeAct :=
  [.chunk .printerToClient 4096, .drained .printerToClient, .chunk .clientToPrinter 512, .drained .clientToPrinter]

def closesUp : List PipeAct :=
  [.proceed, .elapse 5, .proceed, .takeCancel .printerToClient, .stallCancelled, .proceed, .proceed, .proceed]

def both (c : DataPipe) : Lane × Lane := (c.lanes .clientToPrinter, c.lanes .printerToClient)

theorem play_both {as : List PipeAct} {p : Lane × Lane} (h : (machine.play init as).map both = some p)
    (hc : machine.play init as = some c) : both c = p := by
  rw [hc] at h
  exact Option.some.inj h

theorem fail_upload {as bs : List PipeAct} {p : Lane × Lane}
    (hplays : (machine.play init (as ++ .fail .clientToPrinter :: bs)).isSome = true)
    (hp : (machine.play init as).map both = some p) (hrunning : p.1.pump = .reading) :
    ∃ c c' c'', machine.Runs Machine.Free init c ∧ machine.step c (.fail .clientToPrinter) = some c' ∧
      machine.Runs Machine.Free c' c'' ∧ machine.play init (as ++ .fail .clientToPrinter :: bs) = some c'' ∧
        both c = p ∧ (c'.lanes .clientToPrinter).pump = .ended .failed := by
  obtain ⟨c'', hc''⟩ := Option.isSome_iff_exists.mp hplays
  obtain ⟨c, c', hc, hstep, hlater⟩ := Machine.play_split hc''
  have hboth := play_both hp hc
  refine ⟨c, c', c'', Machine.play_runs hc, hstep, Machine.play_runs hlater, hc'', hboth, ?_⟩
  have hpump : (c.lanes .clientToPrinter).pump = .reading := (congrArg (fun q => q.1.pump) hboth).trans hrunning
  have hlive : machine.step c (.fail .clientToPrinter) = some (c.finish .clientToPrinter .failed false) :=
    if_pos (by rw [hpump]; rfl)
  cases hstep.symm.trans hlive
  simp [finish, Lane.finish]

theorem aborted_upload_long : ∃ c, machine.play init (longUpload ++ .fail .clientToPrinter :: closesUp) = some c ∧
    (c.lanes .clientToPrinter).socket = ⟨false, some .reset⟩ := by
  have hplays : (machine.play init (longUpload ++ .fail .clientToPrinter :: closesUp)).isSome = true := by
    decide +kernel
  have hp : (machine.play init longUpload).map both =
      some (⟨.reading, 65536, .init, 0, 0⟩, ⟨.reading, 0, .init, 0, 0⟩) := by
    decide +kernel
  obtain ⟨c, c', c'', hrun, hstep, hlater, hc'', hboth, hended⟩ := fail_upload hplays hp rfl
  have hup : c.lanes .clientToPrinter = ⟨.reading, 65536, .init, 0, 0⟩ := congrArg Prod.fst hboth
  have hdown : c.lanes .printerToClient = ⟨.reading, 0, .init, 0, 0⟩ := congrArg Prod.snd hboth
  exact ⟨c'', hc'', (aborted_upload hrun hstep (by rw [hup]; rfl) hended nofun hlater).mpr (by rw [hup, hdown]; decide)⟩

theorem aborted_upload_looks_complete : ¬ ∀ c a c' c'' how, machine.Runs Machine.Free init c →
    machine.step c a = some c' → (c.lanes .clientToPrinter).pump.done = false →
    (c'.lanes .clientToPrinter).pump = .ended how → how ≠ .sawEof → 0 < (c.lanes .clientToPrinter).moved →
    machine.Runs Machine.Free c' c'' → c''.stage = .finished →
      (c''.lanes .clientToPrinter).socket = ⟨false, some .reset⟩ := by
  intro h
  have hplays : (machine.play init (handshakeAndFewBytes ++ .fail .clientToPrinter :: closesUp)).map
      (fun c => (c.stage, (both c).1.socket)) = some (.finished, ⟨false, some .clean⟩) := by
    decide +kernel
  have hp : (machine.play init handshakeAndFewBytes).map both =
      some (⟨.reading, 512, .init, 0, 0⟩, ⟨.reading, 4096, .init, 0, 0⟩) := by
    decide +kernel
  have hsome := congrArg Option.isSome hplays
  rw [Option.isSome_map] at hsome
  obtain ⟨c, c', c'', hrun, hstep, hlater, hc'', hboth, hended⟩ := fail_upload hsome hp rfl
  have hup : c.lanes .clientToPrinter = ⟨.reading, 512, .init, 0, 0⟩ := congrArg Prod.fst hboth
  rw [hc''] at hplays
  have hend := Prod.mk.inj (Option.some.inj hplays)
  have hreset := h c _ c' c'' _ hrun hstep (by rw [hup]; rfl) hended nofun (by rw [hup]; decide) hlater hend.1
  cases hend.2.symm.trans hreset

theorem LaneStep.moved {l : Lane} (h : LaneStep c d l) :
    l.moved = (c.lanes d).moved ∧ l.lastMoved = (c.lanes d).lastMoved ∨
      (c.lanes d).moved < l.moved ∧ l.lastMoved = c.now := by
  cases h with
  | chunk size hsize _ => exact .inr ⟨Nat.lt_add_of_pos_right hsize, rfl⟩
  | _ => exact .inl ⟨rfl, rfl⟩

theorem LaneStep.endedAt {l : Lane} (h : LaneStep c d l) (hdone : l.pump.done = true) :
    (c.lanes d).pump.done = true ∧ l.endedAt = (c.lanes d).endedAt ∨ l.endedAt = c.now := by
  cases h with
  | still => exact .inl ⟨hdone, rfl⟩
  | chunk size _ _ => cases hdone
  | drained _ => cases hdone
  | cancel _ => cases hdone
  | finish how canWriteEof _ => exact .inr rfl
  | close hp => exact .inl ⟨hp, rfl⟩

theorem LaneStep.endedAt_done {l : Lane} (h : LaneStep c d l) (hdone : (c.lanes d).pump.done = true) :
    l.endedAt = (c.lanes d).endedAt := by
  cases h with
  | finish how canWriteEof hp => cases hp.symm.trans hdone
  | _ => rfl

theorem step_now (h : machine.step c a = some c') (ha : a ≠ .cancelRelay) : c.now ≤ c'.now := by
  cases a with
  | elapse time =>
      simp only [machine, step] at h
      split at h <;> cases h
      next htime =>
        show c.now ≤ c.now + time
        linarith
  | proceed => cases proceeds h <;> exact le_refl _
  | cancelRelay => exact (ha rfl).elim
  | check =>
      simp only [machine, step] at h
      split at h
      · split at h <;> cases h
        exact le_refl _
      · cases h
  | _ =>
      simp only [machine, step] at h
      split at h <;> cases h
      exact le_refl _

theorem step_stage (h : machine.step c a = some c') (hproceed : a ≠ .proceed) (ha : a ≠ .cancelRelay) :
    c'.stage = c.stage := by
  cases a with
  | proceed => exact (hproceed rfl).elim
  | cancelRelay => exact (ha rfl).elim
  | check =>
      simp only [machine, step] at h
      split at h
      · split at h <;> cases h
        rfl
      · cases h
  | _ =>
      simp only [machine, step] at h
      split at h <;> cases h
      rfl

structure Waits (c : DataPipe) (o : Direction) (since : ℚ) : Prop where
  began : since ≤ c.now
  done : (c.lanes o.other).pump.done = true
  ended : (c.lanes o.other).endedAt ≤ since

structure Drains (c : DataPipe) : Prop where
  relayed : ∀ d, (c.lanes d).lastMoved ≤ c.now
  ended : ∀ d, (c.lanes d).pump.done = true → (c.lanes d).endedAt ≤ c.now
  idle : ∀ o since, c.stage = .idle o since → Waits c o since
  extending : ∀ o before since, c.stage = .extending o before since → Waits c o since ∧
    before ≤ (c.lanes o).moved ∧ ((c.lanes o).moved = before → (c.lanes o).lastMoved ≤ since)

theorem drains_init : Drains init where
  relayed := fun _ => le_refl _
  ended := fun _ _ => le_refl _
  idle := nofun
  extending := nofun

theorem Waits.step {since : ℚ} (hw : Waits c o since) (hlast : ClosesLast c) (h : machine.step c a = some c')
    (ha : a ≠ .cancelRelay) : Waits c' o since where
  began := hw.began.trans (step_now h ha)
  done := (step_lane hlast h o.other).done hw.done
  ended := by
    rw [(step_lane hlast h o.other).endedAt_done hw.done]
    exact hw.ended

theorem quiet_step {before : Nat} {since : ℚ} (hlast : ClosesLast c) (h : machine.step c a = some c')
    (hq : before ≤ (c.lanes o).moved ∧ ((c.lanes o).moved = before → (c.lanes o).lastMoved ≤ since)) :
    before ≤ (c'.lanes o).moved ∧ ((c'.lanes o).moved = before → (c'.lanes o).lastMoved ≤ since) := by
  rcases (step_lane hlast h o).moved with ⟨hmoved, hat⟩ | ⟨hmoved, _⟩
  · rw [hmoved, hat]
    exact hq
  · exact ⟨hq.1.trans hmoved.le, fun hsame => absurd hsame (by omega)⟩

theorem drains_lanes (hd : Drains c) (hlast : ClosesLast c) (h : machine.step c a = some c') (ha : a ≠ .cancelRelay) :
    (∀ d, (c'.lanes d).lastMoved ≤ c'.now) ∧
      ∀ d, (c'.lanes d).pump.done = true → (c'.lanes d).endedAt ≤ c'.now := by
  have hnow := step_now h ha
  constructor
  · intro d
    rcases (step_lane hlast h d).moved with ⟨_, hat⟩ | ⟨_, hat⟩ <;> rw [hat]
    · exact (hd.relayed d).trans hnow
    · exact hnow
  · intro d hdone
    rcases (step_lane hlast h d).endedAt hdone with ⟨hdone', hat⟩ | hat <;> rw [hat]
    · exact (hd.ended d hdone').trans hnow
    · exact hnow

theorem drains_step (hd : Drains c) (hlast : ClosesLast c) (h : machine.step c a = some c') (ha : a ≠ .cancelRelay) :
    Drains c' := by
  obtain ⟨hrelayed, hended⟩ := drains_lanes hd hlast h ha
  by_cases hproceed : a = .proceed
  · subst hproceed
    cases proceeds h with
    | unwind | closeClient | closePrinter | finish => exact ⟨hrelayed, hended, nofun, nofun⟩
    | drain o hfirst hother =>
        have hwaits : Waits (c.drain o) o c.now := ⟨le_refl _, hother, hd.ended o.other hother⟩
        have hstage : (c.drain o).stage = .idle o c.now ∨ (c.drain o).stage = .extending o (c.lanes o).moved c.now :=
          ite_eq_or_eq ..
        refine ⟨hrelayed, hended, fun o' since hidle => ?_, fun o' before since hextending => ?_⟩
        · rcases hstage with hs | hs <;> cases hs.symm.trans hidle
          exact hwaits
        · rcases hstage with hs | hs <;> cases hs.symm.trans hextending
          exact ⟨hwaits, le_refl _, fun _ => hd.relayed o⟩
    | extend o before since hstage =>
        refine ⟨hrelayed, hended, nofun, fun o' before' since' hextending => ?_⟩
        cases hextending
        obtain ⟨hwaits, _, _⟩ := hd.extending o before since hstage
        exact ⟨⟨le_refl _, hwaits.done, hwaits.ended.trans hwaits.began⟩, le_refl _, fun _ => hd.relayed o⟩
  · have hstage := step_stage h hproceed ha
    refine ⟨hrelayed, hended, fun o since hidle => ?_, fun o before since hextending => ?_⟩
    · exact (hd.idle o since (hstage ▸ hidle)).step hlast h ha
    · obtain ⟨hwaits, hquiet⟩ := hd.extending o before since (hstage ▸ hextending)
      exact ⟨hwaits.step hlast h ha, quiet_step hlast h hquiet⟩

theorem drains_runs {ok : DataPipe → PipeAct → DataPipe → Prop} (hok : ∀ c a c', ok c a c' → a ≠ .cancelRelay)
    (hrun : machine.Runs ok init c) : ClosesLast c ∧ Drains c :=
  hrun.keeps (I := fun c => ClosesLast c ∧ Drains c) ⟨nofun, drains_init⟩ fun c a c' hi h hsafe =>
    ⟨closesLast_step hi.1 h, drains_step hi.2 hi.1 h (hok c a c' hsafe)⟩

def Cancels (c : DataPipe) (d : Direction) (c' : DataPipe) : Prop :=
  (c.lanes d).pump.live = true ∧ (c'.lanes d).pump = .cancelling

theorem not_cancels {f : Lane → Lane} (hf : ∀ l, (f l).pump ≠ .cancelling) : ¬ Cancels c d (c.setLane o f) := by
  rintro ⟨hlive, hcancelling⟩
  by_cases hd : d = o
  · subst hd
    rw [setLane_same] at hcancelling
    exact hf _ hcancelling
  · rw [setLane_ne c f hd] at hcancelling
    simp [hcancelling, Pump.live] at hlive

theorem not_cancels_same (h : c'.lanes = c.lanes) : ¬ Cancels c d c' := by
  rintro ⟨hlive, hcancelling⟩
  rw [h] at hcancelling
  simp [hcancelling, Pump.live] at hlive

theorem cancels_ends (h : machine.step c a = some c') (ha : a ≠ .cancelRelay) (hc : Cancels c d c') :
    a = .proceed ∧ Ends c := by
  cases a with
  | proceed =>
      refine ⟨rfl, ?_⟩
      cases proceeds h with
      | unwind _ hends => exact hends
      | drain | extend | finish => exact (not_cancels_same rfl hc).elim
      | closeClient raised moved hdone => cases (not_done_of_live hc.1).symm.trans (hdone d)
      | closePrinter hstage =>
          obtain ⟨hlive, hcancelling⟩ := hc
          by_cases hd : d = .clientToPrinter
          · subst hd
            simp only [closeWriter, setLane_same, Lane.closeWriter] at hcancelling
            simp [hcancelling, Pump.live] at hlive
          · simp only [closeWriter, setLane_ne c _ hd] at hcancelling
            simp [hcancelling, Pump.live] at hlive
  | cancelRelay => exact (ha rfl).elim
  | elapse time | stallCancelled =>
      simp only [machine, step] at h
      split at h <;> cases h
      exact (not_cancels_same rfl hc).elim
  | check =>
      simp only [machine, step] at h
      split at h
      · split at h <;> cases h
        exact (not_cancels_same rfl hc).elim
      · cases h
  | chunk o size =>
      simp only [machine, step] at h
      split at h <;> cases h
      exact (not_cancels (f := fun l => l.relay c.now size) (fun _ => by simp [Lane.relay]) hc).elim
  | drained | eof | fail | takeCancel =>
      simp only [machine, step] at h
      split at h <;> cases h
      exact (not_cancels (fun _ => by simp [Lane.finish]) hc).elim

def Justified (c : DataPipe) (d : Direction) : Prop :=
  c.stall = .fired ∨ (c.lanes d.other).pump.done = true ∧
    (c.lanes d.other).endedAt + dataDrainGrace ≤ c.now ∧ (c.lanes d).lastMoved + dataDrainGrace ≤ c.now

def Silent (c : DataPipe) (a : PipeAct) (_ : DataPipe) : Prop :=
  a ≠ .cancelRelay ∧ (a = .proceed → ∀ o since, c.stage = .idle o since → (c.lanes o).pump.live = true →
    c.stall = .fired ∨ (c.lanes o).lastMoved ≤ since)

theorem Waits.justified {since : ℚ} (hw : Waits c d since) (hpast : since + dataDrainGrace ≤ c.now)
    (hquiet : (c.lanes d).lastMoved ≤ since) : Justified c d := by
  have hended := hw.ended
  exact .inr ⟨hw.done, by linarith, by linarith⟩

theorem waited_for (hd : (c.lanes o.other).pump.done = true) (hlive : (c.lanes d).pump.live = true) : d = o := by
  rcases Direction.eq_or_eq_other d o with heq | hother
  · exact heq
  · subst hother
    cases (not_done_of_live hlive).symm.trans hd

theorem cancels_justified (hdrains : Drains c) (h : machine.step c a = some c') (hsilent : Silent c a c')
    (hc : Cancels c d c') : Justified c d := by
  obtain ⟨rfl, hends⟩ := cancels_ends h hsilent.1 hc
  have hlive := hc.1
  have hrunning := not_done_of_live hlive
  cases hends with
  | stalled hstall => exact .inl hstall
  | both _ hdone => cases hrunning.symm.trans (hdone d)
  | idle o since hstage hends =>
      have hwaits := hdrains.idle o since hstage
      obtain rfl := waited_for hwaits.done hlive
      have hpast := hends.resolve_left (by simp [hrunning])
      rcases hsilent.2 rfl d since hstage hlive with hstall | hquiet
      · exact .inl hstall
      · exact hwaits.justified hpast hquiet
  | extending o before since hstage hends =>
      obtain ⟨hwaits, _, hquiet⟩ := hdrains.extending o before since hstage
      obtain rfl := waited_for hwaits.done hlive
      obtain ⟨hpast, hsame⟩ := hends.resolve_left (by simp [hrunning])
      exact hwaits.justified hpast (hquiet hsame)

theorem justified_iff {since : ℚ} (hdrains : Drains c) (hstage : c.stage = .idle o since)
    (hnow : c.now = since + dataDrainGrace) (hlive : (c.lanes o).pump.live = true) :
    Justified c o ↔ Silent c .proceed c' := by
  have hwaits := hdrains.idle o since hstage
  constructor
  · intro hjust
    refine ⟨nofun, fun _ o' since' hstage' _ => ?_⟩
    cases hstage.symm.trans hstage'
    rcases hjust with hstall | ⟨_, _, hquiet⟩
    · exact .inl hstall
    · exact .inr (by linarith)
  · intro hsilent
    rcases hsilent.2 rfl o since hstage hlive with hstall | hquiet
    · exact .inl hstall
    · exact hwaits.justified hnow.ge hquiet

theorem drain_grace (c c' : DataPipe) :
    (∀ a d, machine.Runs Silent init c → machine.step c a = some c' → Silent c a c' → Cancels c d c' →
      Justified c d) ∧
    ∀ o since, machine.Runs (fun _ a _ => a ≠ .cancelRelay) init c → machine.step c .proceed = some c' →
      c.stage = .idle o since → c.now = since + dataDrainGrace → Cancels c o c' →
        (Justified c o ↔ Silent c .proceed c') := by
  constructor
  · intro a d hrun h hsilent hc
    exact cancels_justified (drains_runs (fun _ _ _ hok => hok.1) hrun).2 h hsilent hc
  · intro o since hrun _ hstage hnow hc
    exact justified_iff (drains_runs (fun _ _ _ hok => hok) hrun).2 hstage hnow hc.1

def silently (c : DataPipe) (a : PipeAct) (_ : DataPipe) : Bool :=
  decide (a ≠ .cancelRelay) &&
    match a, c.stage with
    | .proceed, .idle o since =>
        !(c.lanes o).pump.live || decide (c.stall = .fired) || decide ((c.lanes o).lastMoved ≤ since)
    | _, _ => true

theorem silently_sound (h : silently c a c' = true) : Silent c a c' := by
  obtain ⟨ha, hidle⟩ := Bool.and_eq_true_iff.mp h
  refine ⟨of_decide_eq_true ha, ?_⟩
  rintro rfl o since hstage hlive
  simpa [hstage, hlive] using hidle

theorem idle_over {since : ℚ} (hstage : c.stage = .idle o since) (hpast : since + dataDrainGrace ≤ c.now)
    (hlive : (c.lanes o).pump.live = true) :
    machine.step c .proceed = some (c.unwind false) ∧ Cancels c o (c.unwind false) := by
  constructor
  · simp only [machine, step, proceed, hstage]
    exact if_pos (.inr hpast)
  · refine ⟨hlive, ?_⟩
    simp [unwind, Pump.cancel, hlive]

def onIdle (c : DataPipe) : ℚ × Stage × Pump × ℚ × Watchdog :=
  (c.now, c.stage, (c.lanes .clientToPrinter).pump, (c.lanes .clientToPrinter).lastMoved, c.stall)

def download : List PipeAct :=
  [.chunk .printerToClient 65536, .drained .printerToClient, .eof .printerToClient true, .proceed, .elapse 5]

theorem drain_grace_download : ∃ c c', machine.playWhile silently init download = some c ∧
    machine.step c .proceed = some c' ∧ Cancels c .clientToPrinter c' ∧ Justified c .clientToPrinter := by
  have hend : (machine.playWhile silently init download).map onIdle =
      some (5, .idle .clientToPrinter 0, .reading, 0, .sleeping 5) := by
    decide +kernel
  obtain ⟨c, hc, hidle⟩ := Option.map_eq_some_iff.mp hend
  obtain ⟨hnow, hstage, hpump, hlast, hstall⟩ : c.now = 5 ∧ c.stage = .idle .clientToPrinter 0 ∧
      (c.lanes .clientToPrinter).pump = .reading ∧ (c.lanes .clientToPrinter).lastMoved = 0 ∧ c.stall = .sleeping 5 := by
    simpa [onIdle] using hidle
  obtain ⟨hstep, hcancels⟩ := idle_over hstage (by rw [hnow]; decide +kernel) (by rw [hpump]; rfl)
  have hsilent : Silent c .proceed (c.unwind false) := by
    refine ⟨nofun, fun _ o since hs _ => .inr ?_⟩
    cases hstage.symm.trans hs
    exact hlast.le
  exact ⟨c, _, hc, hstep, hcancels, (drain_grace c _).1 _ _
    (Machine.playWhile_runs (fun _ _ _ => silently_sound) hc) hstep hsilent hcancels⟩

-- The printer half-closes before the first byte of an upload, which begins four seconds later.
def lateUpload : List PipeAct :=
  [.eof .printerToClient true, .proceed, .elapse 4, .chunk .clientToPrinter 65536, .drained .clientToPrinter, .elapse 1]

theorem late_upload_cut_short : ¬ ∀ c a c' d, machine.Runs (fun _ a _ => a ≠ .cancelRelay) init c →
    machine.step c a = some c' → a ≠ .cancelRelay → Cancels c d c' → Justified c d := by
  intro h
  have hend : (machine.playWhile (fun _ a _ => decide (a ≠ .cancelRelay)) init lateUpload).map onIdle =
      some (5, .idle .clientToPrinter 0, .reading, 4, .sleeping 5) := by
    decide +kernel
  obtain ⟨c, hc, hidle⟩ := Option.map_eq_some_iff.mp hend
  obtain ⟨hnow, hstage, hpump, hlast, hstall⟩ : c.now = 5 ∧ c.stage = .idle .clientToPrinter 0 ∧
      (c.lanes .clientToPrinter).pump = .reading ∧ (c.lanes .clientToPrinter).lastMoved = 4 ∧ c.stall = .sleeping 5 := by
    simpa [onIdle] using hidle
  obtain ⟨hstep, hcancels⟩ := idle_over hstage (by rw [hnow]; decide +kernel) (by rw [hpump]; rfl)
  rcases h _ _ _ _ (Machine.playWhile_runs (fun _ _ _ ha => of_decide_eq_true ha) hc) hstep nofun hcancels with
    hfired | ⟨_, _, hquiet⟩
  · cases hstall.symm.trans hfired
  · rw [hnow, hlast] at hquiet
    exact absurd hquiet (by decide +kernel)

end DataPipe

end PandaProxy.FtpProxy
