import PandaProxy.FtpProxy.DataPipe

namespace PandaProxy.FtpProxy

open Async

namespace DataPipe

variable {c c' : DataPipe} {a : PipeAct} {d : Direction}

def reads : PipeAct → Bool
  | .chunk _ _ => true
  | .eof _ _ => true
  | _ => false

theorem relay_same (c : DataPipe) (d : Direction) (size : Nat) : (c.relay d size).lanes d = (c.lanes d).relay c.now size :=
  setLane_same c d fun l => l.relay c.now size

theorem relay_ne (c : DataPipe) (size : Nat) {o : Direction} (h : o ≠ d) : (c.relay d size).lanes o = c.lanes o :=
  setLane_ne c (fun l => l.relay c.now size) h

theorem finish_same (c : DataPipe) (d : Direction) (how : PumpEnd) (canWriteEof : Bool) :
    (c.finish d how canWriteEof).lanes d = (c.lanes d).finish c.now (c.lanes d.other).moved how canWriteEof :=
  setLane_same c d _

theorem finish_ne (c : DataPipe) (how : PumpEnd) (canWriteEof : Bool) {o : Direction} (h : o ≠ d) :
    (c.finish d how canWriteEof).lanes o = c.lanes o :=
  setLane_ne c _ h

structure Rests (l l' : Lane) : Prop where
  moved : l'.moved = l.moved
  sawEof : l'.pump = .ended .sawEof → l.pump = .ended .sawEof

theorem Rests.refl (l : Lane) : Rests l l := ⟨rfl, id⟩

theorem Rests.setLane {f : Lane → Lane} {o : Direction} (h : Rests (c.lanes o) (f (c.lanes o))) (d : Direction) :
    Rests (c.lanes d) ((c.setLane o f).lanes d) := by
  by_cases hd : d = o
  · subst hd
    rwa [setLane_same]
  · rw [setLane_ne c f hd]
    exact .refl _

theorem Rests.finish {how : PumpEnd} (hhow : how ≠ .sawEof) (o d : Direction) :
    Rests (c.lanes d) ((c.finish o how false).lanes d) := by
  refine Rests.setLane (f := fun l => l.finish c.now (c.lanes o.other).moved how false) ⟨rfl, fun h => ?_⟩ d
  cases h
  exact absurd rfl hhow

theorem Rests.unwind (raised : Bool) (d : Direction) : Rests (c.lanes d) ((c.unwind raised).lanes d) := by
  refine ⟨rfl, fun h => ?_⟩
  cases hp : (c.lanes d).pump <;> simp only [DataPipe.unwind, Pump.cancel, Pump.live, hp] at h
  · cases h
  · cases h
  · cases h
  · exact h

theorem step_rests (h : machine.step c a = some c') (ha : reads a = false) (d : Direction) :
    Rests (c.lanes d) (c'.lanes d) := by
  cases a with
  | chunk | eof => cases ha
  | elapse | stallCancelled =>
      simp only [machine, step] at h
      split at h <;> cases h
      exact .refl _
  | check =>
      simp only [machine, step] at h
      split at h
      · split at h <;> cases h
        exact .refl _
      · cases h
  | drained o =>
      simp only [machine, step] at h
      split at h <;> cases h
      exact Rests.setLane (f := fun l => { l with pump := .reading }) ⟨rfl, by rintro ⟨⟩⟩ d
  | fail o =>
      simp only [machine, step] at h
      split at h <;> cases h
      exact Rests.finish (by decide) o d
  | takeCancel o =>
      simp only [machine, step] at h
      split at h <;> cases h
      exact Rests.finish (by decide) o d
  | proceed =>
      cases proceeds h with
      | unwind => exact Rests.unwind false d
      | drain | extend | finish => exact .refl _
      | closeClient => exact Rests.setLane (f := Lane.closeWriter) ⟨rfl, id⟩ d
      | closePrinter => exact Rests.setLane (f := Lane.closeWriter) ⟨rfl, id⟩ d
  | cancelRelay =>
      cases stops h with
      | unwind => exact Rests.unwind true d
      | still => exact .refl _

def Cut (c : DataPipe) (d : Direction) : Prop :=
  ∀ how, (c.lanes d).pump = .ended how → how ≠ .sawEof →
    (c.lanes d).socket.closed = some .reset ∨ (c.lanes d).moved ≤ (c.lanes d.other).moved

structure Settled (c : DataPipe) : Prop where
  last : ClosesLast c
  fresh : ∀ d, Fresh (c.lanes d)
  half : ∀ d, (c.lanes d).socket.halfClosed = true → (c.lanes d).pump = .ended .sawEof
  cut : ∀ d, Cut c d
  answered : ∀ n, c.dataMoved = some n → closing c.stage = true ∧ n = c.asymmetry

theorem LaneStep.half {l : Lane} (h : LaneStep c d l) (hfresh : Fresh (c.lanes d))
    (hhalf : (c.lanes d).socket.halfClosed = true → (c.lanes d).pump = .ended .sawEof)
    (hclosed : l.socket.halfClosed = true) : l.pump = .ended .sawEof := by
  have hnot : (c.lanes d).pump.done = false → (c.lanes d).socket.halfClosed = true → False := by
    intro hrunning hc
    rw [hfresh hrunning] at hc
    cases hc
  cases h with
  | still => exact hhalf hclosed
  | chunk size _ hp => exact (hnot (by rw [hp]; rfl) hclosed).elim
  | drained hp => exact (hnot (by rw [hp]; rfl) hclosed).elim
  | cancel hp => exact (hnot (not_done_of_live hp) hclosed).elim
  | close hp => exact hhalf hclosed
  | finish how canWriteEof hp =>
      by_cases hhow : how = .sawEof
      · rw [hhow]
        rfl
      · simp only [Lane.finish, if_neg hhow] at hclosed
        split at hclosed
        · exact (hnot hp hclosed).elim
        · exact (hnot hp hclosed).elim

theorem LaneStep.moved_le {l : Lane} (h : LaneStep c d l) : (c.lanes d).moved ≤ l.moved := by
  rcases h.moved with ⟨hsame, _⟩ | ⟨hmore, _⟩
  · exact hsame.ge
  · exact hmore.le

theorem LaneStep.moved_done {l : Lane} (h : LaneStep c d l) (hdone : (c.lanes d).pump.done = true) :
    l.moved = (c.lanes d).moved := by
  cases h with
  | chunk size _ hp => simp [hp, Pump.done] at hdone
  | _ => rfl

theorem LaneStep.cut {l : Lane} (h : LaneStep c d l) (hfresh : Fresh (c.lanes d)) (hcut : Cut c d) {back : Nat}
    (hback : (c.lanes d.other).moved ≤ back) :
    ∀ how, l.pump = .ended how → how ≠ .sawEof → l.socket.closed = some .reset ∨ l.moved ≤ back := by
  intro how hended hhow
  cases h with
  | still => exact (hcut how hended hhow).imp id (·.trans hback)
  | chunk => cases hended
  | drained => cases hended
  | cancel => cases hended
  | finish how' canWriteEof hp =>
      cases hended
      simp only [Lane.finish, if_neg hhow]
      split
      · exact .inl (by rw [hfresh hp]; rfl)
      · next hless => exact .inr ((Nat.le_of_not_lt hless).trans hback)
  | close hp =>
      refine (hcut how hended hhow).imp (fun hreset => ?_) (·.trans hback)
      simp only [Lane.closeWriter, DataSocket.closeWriter, hreset]
      rfl

theorem settled_init : Settled init where
  last := nofun
  fresh _ _ := rfl
  half _ h := by cases h
  cut _ _ h := by cases h
  answered _ h := by cases h

theorem step_asymmetry (hlast : ClosesLast c) (h : machine.step c a = some c') (hdone : ∀ d, (c.lanes d).pump.done = true) :
    c'.asymmetry = c.asymmetry := by
  have hmoved : ∀ d, (c'.lanes d).moved = (c.lanes d).moved := fun d => (step_lane hlast h d).moved_done (hdone d)
  rw [asymmetry, asymmetry, hmoved, hmoved]

theorem step_closing_done (hlast : ClosesLast c) (h : machine.step c a = some c') (hclosing : closing c'.stage = true) :
    ∀ d, (c.lanes d).pump.done = true :=
  (step_closing h hclosing).elim hlast id

theorem closing_step (h : machine.step c a = some c') (hclosing : closing c.stage = true) : closing c'.stage = true := by
  by_cases hproceed : a = .proceed
  · subst hproceed
    cases proceeds h with
    | unwind hopen _ => cases hopen.symm.trans hclosing
    | drain o hfirst _ =>
        rw [hfirst] at hclosing
        cases hclosing
    | extend o before since hstage =>
        rw [hstage] at hclosing
        cases hclosing
    | closeClient | closePrinter | finish => rfl
  by_cases hcancel : a = .cancelRelay
  · subst hcancel
    cases hs : c.stage with
    | first | idle | extending | unwinding =>
        rw [hs] at hclosing
        cases hclosing
    | closingClient | closingPrinter =>
        simp only [machine, step, cancelRelay, hs] at h
        cases h
        rfl
    | finished =>
        simp only [machine, step, cancelRelay, hs] at h
        cases h
  · rw [step_stage h hproceed hcancel]
    exact hclosing

theorem proceed_dataMoved (h : c.proceed = some c') :
    c'.dataMoved = c.dataMoved ∨ closing c'.stage = true ∧ c'.dataMoved = some c.asymmetry := by
  cases hs : c.stage with
  | unwinding raised =>
      simp only [proceed, hs] at h
      split at h <;> cases h
      cases raised with
      | true => exact .inl rfl
      | false => exact .inr ⟨rfl, rfl⟩
  | _ =>
      refine .inl ?_
      simp only [proceed, hs] at h
      repeat' split at h
      all_goals
        cases h <;> rfl

theorem step_dataMoved (h : machine.step c a = some c') :
    c'.dataMoved = c.dataMoved ∨ closing c'.stage = true ∧ c'.dataMoved = some c.asymmetry := by
  cases a with
  | proceed => exact proceed_dataMoved h
  | cancelRelay => cases stops h <;> exact .inl rfl
  | check =>
      simp only [machine, step] at h
      split at h
      · split at h <;> cases h
        exact .inl rfl
      · cases h
  | _ =>
      simp only [machine, step] at h
      split at h <;> cases h
      exact .inl rfl

theorem step_answered (hs : Settled c) (h : machine.step c a = some c') (n : Nat) (hn : c'.dataMoved = some n) :
    closing c'.stage = true ∧ n = c'.asymmetry := by
  rcases step_dataMoved h with hsame | ⟨hclosing, hcount⟩
  · obtain ⟨hclosing, hcount⟩ := hs.answered n (hsame ▸ hn)
    exact ⟨closing_step h hclosing, hcount.trans (step_asymmetry hs.last h (hs.last hclosing)).symm⟩
  · cases hcount.symm.trans hn
    exact ⟨hclosing, (step_asymmetry hs.last h (step_closing_done hs.last h hclosing)).symm⟩

theorem Settled.step (hs : Settled c) (h : machine.step c a = some c') : Settled c' where
  last := closesLast_step hs.last h
  fresh d := (step_lane hs.last h d).fresh (hs.fresh d)
  half d := (step_lane hs.last h d).half (hs.fresh d) (hs.half d)
  cut d := (step_lane hs.last h d).cut (hs.fresh d) (hs.cut d) (step_lane hs.last h d.other).moved_le
  answered := step_answered hs h

end DataPipe

-- The bytes of one direction: what has come from its source, what of that the pump has still to read, and what it has
-- written on.
structure Wire where
  arrived : List UInt8
  unread : List UInt8
  eof : Bool
  written : List UInt8

structure BytePipe where
  pipe : DataPipe
  wires : Direction → Wire

inductive ByteAct where
  | arrive (d : Direction) (data : List UInt8)
  | hangUp (d : Direction)
  | read (d : Direction) (canWriteEof : Bool)
  -- What the pumps, the watchdog and the relay do without a reader.
  | turn (a : PipeAct)

namespace BytePipe

def setWire (b : BytePipe) (d : Direction) (f : Wire → Wire) : BytePipe :=
  { b with wires := Function.update b.wires d (f (b.wires d)) }

-- `read(DATA_CHUNK)` takes what is there, up to that many bytes, and nothing only at the end.
def read (b : BytePipe) (d : Direction) (canWriteEof : Bool) : Option BytePipe :=
  match (b.wires d).unread with
  | [] =>
      if (b.wires d).eof then (b.pipe.step (.eof d canWriteEof)).map fun pipe => { b with pipe := pipe }
      else none
  | unread =>
      (b.pipe.step (.chunk d (unread.take dataChunk).length)).map fun pipe =>
        { b.setWire d fun w => { w with unread := unread.drop dataChunk, written := w.written ++ unread.take dataChunk } with
          pipe := pipe }

def step (b : BytePipe) : ByteAct → Option BytePipe
  | .arrive d data =>
      if (b.wires d).eof then none
      else some (b.setWire d fun w => { w with arrived := w.arrived ++ data, unread := w.unread ++ data })
  | .hangUp d => some (b.setWire d fun w => { w with eof := true })
  | .read d canWriteEof => b.read d canWriteEof
  | .turn a => if DataPipe.reads a then none else (b.pipe.step a).map fun pipe => { b with pipe := pipe }

def machine : Machine BytePipe ByteAct := ⟨step⟩

def init : BytePipe := ⟨.init, fun _ => ⟨[], [], false, []⟩⟩

variable {b b' : BytePipe} {a : ByteAct} {d o : Direction}

@[simp] theorem setWire_same (b : BytePipe) (d : Direction) (f : Wire → Wire) : (b.setWire d f).wires d = f (b.wires d) := by
  simp [setWire]

theorem setWire_ne (b : BytePipe) (f : Wire → Wire) (h : o ≠ d) : (b.setWire d f).wires o = b.wires o := by
  simp [setWire, h]

inductive Change (b : BytePipe) : BytePipe → Prop where
  | arrive (d : Direction) (data : List UInt8) (heof : (b.wires d).eof = false) :
      Change b (b.setWire d fun w => { w with arrived := w.arrived ++ data, unread := w.unread ++ data })
  | hangUp (d : Direction) : Change b (b.setWire d fun w => { w with eof := true })
  | chunk (d : Direction) (chunk rest : List UInt8) (pipe : DataPipe) (hunread : (b.wires d).unread = chunk ++ rest)
      (hstep : DataPipe.machine.step b.pipe (.chunk d chunk.length) = some pipe) :
      Change b ⟨pipe, (b.setWire d fun w => { w with unread := rest, written := w.written ++ chunk }).wires⟩
  | ended (d : Direction) (canWriteEof : Bool) (pipe : DataPipe) (hunread : (b.wires d).unread = [])
      (heof : (b.wires d).eof = true) (hstep : DataPipe.machine.step b.pipe (.eof d canWriteEof) = some pipe) :
      Change b { b with pipe := pipe }
  | turn (a : PipeAct) (pipe : DataPipe) (ha : DataPipe.reads a = false) (hstep : DataPipe.machine.step b.pipe a = some pipe) :
      Change b { b with pipe := pipe }

theorem step_change (h : machine.step b a = some b') : Change b b' := by
  cases a with
  | arrive d data =>
      simp only [machine, step] at h
      split at h <;> cases h
      next heof => exact .arrive d data (by simpa using heof)
  | hangUp d =>
      cases h
      exact .hangUp d
  | read d canWriteEof =>
      simp only [machine, step, read] at h
      split at h
      · next hunread =>
          split at h
          · next heof =>
              obtain ⟨pipe, hstep, rfl⟩ := Option.map_eq_some_iff.mp h
              exact .ended d canWriteEof pipe hunread heof hstep
          · cases h
      · obtain ⟨pipe, hstep, rfl⟩ := Option.map_eq_some_iff.mp h
        exact .chunk d _ _ pipe (List.take_append_drop _ _).symm hstep
  | turn a =>
      simp only [machine, step] at h
      split at h
      · cases h
      · next ha =>
          obtain ⟨pipe, hstep, rfl⟩ := Option.map_eq_some_iff.mp h
          exact .turn a pipe (by simpa using ha) hstep

theorem Change.pipe (h : Change b b') : b'.pipe = b.pipe ∨ ∃ a, DataPipe.machine.step b.pipe a = some b'.pipe := by
  cases h with
  | arrive | hangUp => exact .inl rfl
  | chunk d chunk rest pipe _ hstep => exact .inr ⟨.chunk d chunk.length, hstep⟩
  | ended d canWriteEof pipe _ _ hstep => exact .inr ⟨.eof d canWriteEof, hstep⟩
  | turn a pipe _ hstep => exact .inr ⟨a, hstep⟩

theorem pipe_runs (hrun : machine.Runs Machine.Free init b) : DataPipe.machine.Runs Machine.Free .init b.pipe := by
  have hstart : DataPipe.machine.Runs Machine.Free .init init.pipe := .refl
  refine hrun.keeps (I := fun b => DataPipe.machine.Runs Machine.Free .init b.pipe) hstart ?_
  intro b a b' h hstep _
  rcases (step_change hstep).pipe with hsame | ⟨a', ha'⟩
  · rwa [hsame]
  · exact Relation.ReflTransGen.tail h ⟨a', ha', trivial⟩

theorem settled_runs (hrun : machine.Runs Machine.Free init b) : DataPipe.Settled b.pipe :=
  (pipe_runs hrun).keeps DataPipe.settled_init fun _ _ _ hs h _ => hs.step h

structure Carries (w : Wire) (l : Lane) : Prop where
  split : w.arrived = w.written ++ w.unread
  counted : l.moved = w.written.length
  whole : l.pump = .ended .sawEof → w.eof = true ∧ w.unread = []

theorem Carries.rests {w : Wire} {l l' : Lane} (h : Carries w l) (hl : DataPipe.Rests l l') : Carries w l' :=
  ⟨h.split, hl.moved.trans h.counted, fun hended => h.whole (hl.sawEof hended)⟩

theorem chunk_pipe {c c' : DataPipe} {size : Nat} (h : DataPipe.machine.step c (.chunk d size) = some c') :
    c' = c.relay d size := by
  simp only [DataPipe.machine, DataPipe.step] at h
  split at h <;> cases h
  rfl

theorem eof_pipe {c c' : DataPipe} {canWriteEof : Bool} (h : DataPipe.machine.step c (.eof d canWriteEof) = some c') :
    c' = c.finish d .sawEof canWriteEof := by
  simp only [DataPipe.machine, DataPipe.step] at h
  split at h <;> cases h
  rfl

theorem Change.carries (h : Change b b') (hb : ∀ d, Carries (b.wires d) (b.pipe.lanes d)) :
    ∀ d, Carries (b'.wires d) (b'.pipe.lanes d) := by
  intro o
  have ho := hb o
  cases h with
  | arrive d data heof =>
      by_cases hod : o = d
      · subst hod
        rw [setWire_same]
        refine ⟨?_, ho.counted, fun hended => ?_⟩
        · rw [ho.split, List.append_assoc]
        · rw [(ho.whole hended).1] at heof
          cases heof
      · rw [setWire_ne b _ hod]
        exact ho
  | hangUp d =>
      by_cases hod : o = d
      · subst hod
        rw [setWire_same]
        exact ⟨ho.split, ho.counted, fun hended => ⟨rfl, (ho.whole hended).2⟩⟩
      · rw [setWire_ne b _ hod]
        exact ho
  | chunk d chunk rest pipe hunread hstep =>
      cases chunk_pipe hstep
      by_cases hod : o = d
      · subst hod
        rw [setWire_same, DataPipe.relay_same]
        refine ⟨?_, ?_, nofun⟩
        · rw [ho.split, hunread, List.append_assoc]
        · rw [Lane.relay, ho.counted, List.length_append]
      · rw [setWire_ne b _ hod, DataPipe.relay_ne _ _ hod]
        exact ho
  | ended d canWriteEof pipe hunread heof hstep =>
      cases eof_pipe hstep
      by_cases hod : o = d
      · subst hod
        rw [DataPipe.finish_same]
        exact ⟨ho.split, ho.counted, fun _ => ⟨heof, hunread⟩⟩
      · rw [DataPipe.finish_ne _ _ _ hod]
        exact ho
  | turn a pipe ha hstep => exact ho.rests (DataPipe.step_rests hstep ha o)

theorem carries_runs (hrun : machine.Runs Machine.Free init b) : ∀ d, Carries (b.wires d) (b.pipe.lanes d) :=
  hrun.keeps (I := fun b => ∀ d, Carries (b.wires d) (b.pipe.lanes d)) (fun _ => ⟨rfl, rfl, nofun⟩)
    fun _ _ _ hb h _ => (step_change h).carries hb

def Whole (w : Wire) : Prop := w.eof = true ∧ w.written = w.arrived

theorem Carries.wholeWire {w : Wire} {l : Lane} (h : Carries w l) (hended : l.pump = .ended .sawEof) : Whole w := by
  obtain ⟨heof, hunread⟩ := h.whole hended
  refine ⟨heof, ?_⟩
  rw [h.split, hunread, List.append_nil]

def Drained (b : BytePipe) : Prop :=
  ∀ d, (b.wires d).unread = [] ∧ ((b.wires d).eof = true → (b.pipe.lanes d).pump.done = true)

theorem Drained.keeps {c : DataPipe} (h : Drained b) (hlast : DataPipe.ClosesLast b.pipe) {a : PipeAct}
    (hstep : DataPipe.machine.step b.pipe a = some c) (d : Direction) (heof : (b.wires d).eof = true) :
    (c.lanes d).pump.done = true :=
  (DataPipe.step_lane hlast hstep d).done ((h d).2 heof)

theorem Drained.running (h : Drained b) (hpump : (b.pipe.lanes d).pump = .reading) : (b.wires d).eof = false := by
  by_contra heof
  have hdone := (h d).2 (by simpa using heof)
  rw [hpump] at hdone
  cases hdone

theorem read_all {chunk : List UInt8} {c : DataPipe} (hunread : (b.wires d).unread = chunk) (hsome : chunk ≠ [])
    (hsize : chunk.length ≤ dataChunk) (hstep : DataPipe.machine.step b.pipe (.chunk d chunk.length) = some c) :
    machine.step b (.read d false) =
      some ⟨c, (b.setWire d fun w => { w with unread := [], written := w.written ++ chunk }).wires⟩ := by
  obtain ⟨first, rest, rfl⟩ := List.exists_cons_of_ne_nil hsome
  simp only [machine, step, read, hunread, List.take_of_length_le hsize, List.drop_eq_nil_of_le hsize]
  exact congrArg (Option.map _) hstep

theorem Drained.chunk {size : Nat} {c : DataPipe} (h : Drained b) (hlast : DataPipe.ClosesLast b.pipe)
    (hstep : DataPipe.machine.step b.pipe (.chunk d size) = some c) :
    ∃ b', machine.Runs Machine.Free b b' ∧ b'.pipe = c ∧ Drained b' := by
  have hguard : (b.pipe.lanes d).pump = .reading ∧ 0 < size ∧ size ≤ dataChunk := by
    by_contra hnot
    simp only [DataPipe.machine, DataPipe.step, if_neg hnot] at hstep
    cases hstep
  obtain ⟨hpump, hpos, hsize⟩ := hguard
  let data : List UInt8 := List.replicate size 0
  have hlength : data.length = size := List.length_replicate
  have harrives : machine.step b (.arrive d data) =
      some (b.setWire d fun w => { w with arrived := w.arrived ++ data, unread := w.unread ++ data }) := by
    simp only [machine, step, h.running hpump]
    rfl
  have hunread : ((b.setWire d fun w => { w with arrived := w.arrived ++ data, unread := w.unread ++ data }).wires d).unread = data := by
    rw [setWire_same, (h d).1, List.nil_append]
  have hchunk : DataPipe.machine.step b.pipe (.chunk d data.length) = some c := by
    rw [hlength]
    exact hstep
  have hreads := read_all hunread (List.ne_nil_of_length_pos (by omega)) (by omega) hchunk
  refine ⟨_, Relation.ReflTransGen.tail (.single ⟨_, harrives, trivial⟩) ⟨_, hreads, trivial⟩, rfl, fun o => ?_⟩
  by_cases ho : o = d
  · subst ho
    dsimp only
    rw [setWire_same, setWire_same]
    exact ⟨rfl, h.keeps hlast hstep o⟩
  · dsimp only
    rw [setWire_ne _ _ ho, setWire_ne b _ ho]
    exact ⟨(h o).1, h.keeps hlast hstep o⟩

theorem Drained.eof {canWriteEof : Bool} {c : DataPipe} (h : Drained b) (hlast : DataPipe.ClosesLast b.pipe)
    (hstep : DataPipe.machine.step b.pipe (.eof d canWriteEof) = some c) :
    ∃ b', machine.Runs Machine.Free b b' ∧ b'.pipe = c ∧ Drained b' := by
  have hhung : machine.step b (.hangUp d) = some (b.setWire d fun w => { w with eof := true }) := rfl
  have hread : machine.step (b.setWire d fun w => { w with eof := true }) (.read d canWriteEof) =
      some ⟨c, (b.setWire d fun w => { w with eof := true }).wires⟩ := by
    have hempty : ((b.setWire d fun w => { w with eof := true }).wires d).unread = [] := by
      rw [setWire_same]
      exact (h d).1
    have hends : ((b.setWire d fun w => { w with eof := true }).wires d).eof = true := by
      rw [setWire_same]
    simp only [machine, step, read, hempty, hends, if_true]
    exact congrArg (Option.map _) hstep
  refine ⟨_, Relation.ReflTransGen.tail (.single ⟨_, hhung, trivial⟩) ⟨_, hread, trivial⟩, rfl, fun o => ?_⟩
  by_cases ho : o = d
  · subst ho
    refine ⟨?_, fun _ => ?_⟩
    · dsimp only
      rw [setWire_same]
      exact (h o).1
    · dsimp only
      cases eof_pipe hstep
      rw [DataPipe.finish_same]
      rfl
  · dsimp only
    rw [setWire_ne b _ ho]
    exact ⟨(h o).1, h.keeps hlast hstep o⟩

theorem Drained.step {a : PipeAct} {c : DataPipe} (h : Drained b) (hlast : DataPipe.ClosesLast b.pipe)
    (hstep : DataPipe.machine.step b.pipe a = some c) : ∃ b', machine.Runs Machine.Free b b' ∧ b'.pipe = c ∧ Drained b' := by
  cases hreads : DataPipe.reads a with
  | true =>
      cases a with
      | chunk d size => exact h.chunk hlast hstep
      | eof d canWriteEof => exact h.eof hlast hstep
      | _ => cases hreads
  | false =>
      have hturn : machine.step b (.turn a) = some { b with pipe := c } := by
        simp only [machine, BytePipe.step, hreads]
        exact congrArg (Option.map _) hstep
      exact ⟨_, .single ⟨_, hturn, trivial⟩, rfl, fun d => ⟨(h d).1, h.keeps hlast hstep d⟩⟩

theorem pipe_lifts {c : DataPipe} (hrun : DataPipe.machine.Runs Machine.Free .init c) :
    ∃ b, machine.Runs Machine.Free init b ∧ b.pipe = c ∧ Drained b := by
  induction hrun with
  | refl => exact ⟨init, .refl, rfl, fun _ => ⟨rfl, nofun⟩⟩
  | tail _ hlast ih =>
      obtain ⟨a, hstep, _⟩ := hlast
      obtain ⟨b, hb, rfl, hdrained⟩ := ih
      obtain ⟨b', hlater, hpipe, hdrained'⟩ := hdrained.step (settled_runs hb).last hstep
      exact ⟨b', hb.trans hlater, hpipe, hdrained'⟩

structure Faithful (b : BytePipe) : Prop where
  ordered : ∀ d, (b.wires d).written <+: (b.wires d).arrived
  halfClosed : ∀ d, (b.pipe.lanes d).socket.halfClosed = true → Whole (b.wires d)
  closed : ∀ d, (b.pipe.lanes d).socket.closed = some .clean →
    Whole (b.wires d) ∨ (b.wires d).written.length ≤ (b.wires d.other).written.length
  answered : ∀ n, b.pipe.dataMoved = some n →
    n = max (b.wires .clientToPrinter).written.length (b.wires .printerToClient).written.length -
      min (b.wires .clientToPrinter).written.length (b.wires .printerToClient).written.length

end BytePipe

open BytePipe

theorem bytes_faithful {b : BytePipe} (hrun : machine.Runs Machine.Free .init b) : Faithful b := by
  have hsettled := settled_runs hrun
  have hcarries := carries_runs hrun
  refine ⟨fun d => ?_, fun d hhalf => ?_, fun d hclean => ?_, fun n hn => ?_⟩
  · exact ⟨(b.wires d).unread, (hcarries d).split.symm⟩
  · exact (hcarries d).wholeWire (hsettled.half d hhalf)
  · rw [← (hcarries d).counted, ← (hcarries d.other).counted]
    cases hpump : (b.pipe.lanes d).pump with
    | ended how =>
        by_cases hhow : how = .sawEof
        · exact .inl ((hcarries d).wholeWire (hpump.trans (by rw [hhow])))
        · refine .inr ((hsettled.cut d how hpump hhow).resolve_left ?_)
          rw [hclean]
          nofun
    | _ =>
        have hfresh : (b.pipe.lanes d).socket = .init := hsettled.fresh d (by rw [hpump]; rfl)
        rw [hfresh] at hclean
        cases hclean
  · rw [(hsettled.answered n hn).2, DataPipe.asymmetry, (hcarries _).counted, (hcarries _).counted]

-- What is said of the counts alone is said of every transfer, and of nothing else.
theorem counts_exact (c : DataPipe) :
    DataPipe.machine.Runs Machine.Free .init c ↔ ∃ b, machine.Runs Machine.Free .init b ∧ b.pipe = c := by
  constructor
  · intro hrun
    obtain ⟨b, hb, hpipe, _⟩ := pipe_lifts hrun
    exact ⟨b, hb, hpipe⟩
  · rintro ⟨b, hb, rfl⟩
    exact pipe_runs hb

def smallUpload : List ByteAct :=
  [.arrive .clientToPrinter [1, 2], .read .clientToPrinter true, .arrive .clientToPrinter [3], .hangUp .clientToPrinter,
    .turn (.drained .clientToPrinter), .read .clientToPrinter true, .turn (.drained .clientToPrinter),
    .read .clientToPrinter true, .turn .proceed, .hangUp .printerToClient, .read .printerToClient true, .turn .proceed,
    .turn .stallCancelled, .turn .proceed]

theorem bytes_faithful_upload : ∃ b, machine.play .init smallUpload = some b ∧
    (b.wires .clientToPrinter).written = [1, 2, 3] ∧ (b.pipe.lanes .clientToPrinter).socket.halfClosed = true ∧
      b.pipe.dataMoved = some 3 ∧ Faithful b := by
  have hend : (machine.play .init smallUpload).map (fun b =>
      ((b.wires .clientToPrinter).written, (b.pipe.lanes .clientToPrinter).socket.halfClosed, b.pipe.dataMoved)) =
        some ([1, 2, 3], true, some 3) := by
    decide +kernel
  obtain ⟨b, hb, hlast⟩ := Option.map_eq_some_iff.mp hend
  simp only [Prod.mk.injEq] at hlast
  exact ⟨b, hb, hlast.1, hlast.2.1, hlast.2.2, bytes_faithful (Machine.play_runs hb)⟩

end PandaProxy.FtpProxy
