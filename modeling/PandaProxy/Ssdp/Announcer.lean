import PandaProxy.Ssdp.Announcement

namespace PandaProxy.Ssdp

-- Why `sendto` fails: with an `OSError`, or with what it raises for a host that cannot be encoded.
inductive SendError where
  | os
  | other
  deriving DecidableEq, Repr

structure SsdpAnnouncer where
  advertiseIp : String
  serial : String
  targets : List String
  devModel : String
  devName : String
  devVersion : String
  provided : Bool
  versionGrace : Int
  startedAt : Option Int
  sock : Bool
  running : Bool
  sent : Nat
  warnedNoVersion : Bool

-- What one turn of `run` meets: the clocks, what the version provider answers or that it raises, and how each `sendto` goes.
structure Moment where
  clock : Int
  date : GmTime
  reported : Except Unit (Option String)
  refuses : Nat → Option SendError

structure Datagram where
  target : String
  port : Nat
  payload : List UInt8
  deriving DecidableEq, Repr

namespace SsdpAnnouncer

-- `targets or [BROADCAST]`
def init (advertiseIp serial : String) (targets : List String) (devModel devName devVersion : String) (provided : Bool)
    (versionGrace : Int) : SsdpAnnouncer where
  advertiseIp := advertiseIp
  serial := serial
  targets := if targets.isEmpty then [broadcast] else targets
  devModel := devModel
  devName := devName
  devVersion := devVersion
  provided := provided
  versionGrace := versionGrace
  startedAt := none
  sock := false
  running := false
  sent := 0
  warnedNoVersion := false

def start (a : SsdpAnnouncer) (clock : Int) : SsdpAnnouncer := { a with sock := true, running := true, startedAt := some clock }

def stop (a : SsdpAnnouncer) : SsdpAnnouncer := { a with running := false, sock := false }

def resolveVersion (a : SsdpAnnouncer) (m : Moment) : String :=
  if a.devVersion ≠ "" then a.devVersion
  else if a.provided then
    match m.reported with
    | .ok version => version.getD ""
    | .error _ => ""
  else ""

def withinGrace (a : SsdpAnnouncer) (m : Moment) : Bool :=
  match a.startedAt with
  | none => false
  | some startedAt => if a.versionGrace ≤ 0 then false else m.clock - startedAt < a.versionGrace

def announcement (a : SsdpAnnouncer) (version : String) : Announcement :=
  ⟨a.advertiseIp, a.serial, a.devModel, a.devName, version, defaultDevSignal⟩

-- The loop over the targets from the `i`-th on, and whether an exception ends it.
def sendAll (payload : List UInt8) (m : Moment) (i : Nat) : List String → List Datagram × Option SendError
  | [] => ([], none)
  | target :: rest =>
      match m.refuses i with
      | some .other => ([], some .other)
      | some .os => sendAll payload m (i + 1) rest
      | none =>
          let (delivered, x) := sendAll payload m (i + 1) rest
          (⟨target, ssdpPort, payload⟩ :: delivered, x)

def announceOnce (a : SsdpAnnouncer) (m : Moment) : Except SendError Nat × List Datagram × SsdpAnnouncer :=
  if !a.sock then (.ok 0, [], a)
  else
    let version := a.resolveVersion m
    if version = "" ∧ a.withinGrace m then (.ok 0, [], { a with warnedNoVersion := true })
    else
      let a := { a with warnedNoVersion := false }
      let (datagrams, x) := sendAll (buildAnnouncement m.date (a.announcement version)) m 0 a.targets
      match x with
      | some x => (.error x, datagrams, a)
      | none => (.ok datagrams.length, datagrams, { a with sent := a.sent + datagrams.length })

end SsdpAnnouncer

inductive RunTask where
  | sleeping
  | ended
  deriving DecidableEq, Repr

structure Announcing where
  announcer : SsdpAnnouncer
  task : Option RunTask
  wire : List Datagram

inductive Act where
  | start (clock : Int)
  | createTask
  | turn (m : Moment)
  | cancel
  | stop

namespace Announcing

def turn (s : Announcing) (m : Moment) : Announcing :=
  if !s.announcer.running then { s with task := some .ended }
  else
    let (r, datagrams, a) := s.announcer.announceOnce m
    ⟨a, some (match r with | .ok _ => .sleeping | .error _ => .ended), s.wire ++ datagrams⟩

def step (s : Announcing) : Act → Option Announcing
  | .start clock => some { s with announcer := s.announcer.start clock }
  | .createTask => if s.task = none then some { s with task := some .sleeping } else none
  | .turn m => if s.task = some .sleeping then some (s.turn m) else none
  | .cancel => if s.task = some .sleeping then some { s with task := some .ended } else none
  | .stop => some { s with announcer := s.announcer.stop }

def run (s : Announcing) : List Act → Option Announcing
  | [] => some s
  | a :: acts => (s.step a).bind fun s => s.run acts

def init (a : SsdpAnnouncer) : Announcing := ⟨a, none, []⟩

end Announcing

-- No `sendto` of this turn raises anything but an `OSError`.
def Moment.Ordinary (m : Moment) : Prop := ∀ i, m.refuses i ≠ some .other

def Act.Ordinary : Act → Prop
  | .turn m => m.Ordinary
  | _ => True

-- What a heartbeat is: in every turn an announcement to each target that can be reached, but for the turns in which there is still
-- no version to be told and the wait for one is on.
def beat (a : SsdpAnnouncer) (startedAt : Int) (m : Moment) : List Datagram :=
  let version := a.resolveVersion m
  if version = "" ∧ 0 < a.versionGrace ∧ m.clock - startedAt < a.versionGrace then []
  else (a.targets.zipIdx.filter fun p => m.refuses p.2 = none).map fun p =>
    ⟨p.1, ssdpPort, buildAnnouncement m.date (a.announcement version)⟩

def beats (a : SsdpAnnouncer) : Option Int → List Act → List Datagram
  | _, [] => []
  | _, .start clock :: acts => beats a (some clock) acts
  | _, .stop :: acts => beats a none acts
  | since, .createTask :: acts => beats a since acts
  | since, .cancel :: acts => beats a since acts
  | since, .turn m :: acts => since.elim [] (fun startedAt => beat a startedAt m) ++ beats a since acts

namespace SsdpAnnouncer

variable {a : SsdpAnnouncer} {m : Moment} {payload : List UInt8}

theorem sendAll_ordinary (hm : m.Ordinary) (targets : List String) (i : Nat) :
    sendAll payload m i targets =
      (((targets.zipIdx i).filter fun p => m.refuses p.2 = none).map fun p => ⟨p.1, ssdpPort, payload⟩, none) := by
  induction targets generalizing i with
  | nil => rfl
  | cons target rest ih =>
      rw [List.zipIdx_cons, sendAll]
      cases hr : m.refuses i with
      | none => simp [ih (i + 1), hr]
      | some x =>
          cases x with
          | os => simp [ih (i + 1), hr]
          | other => exact absurd hr (hm i)

def set (a : SsdpAnnouncer) (running : Bool) (startedAt : Option Int) (sent : Nat) (warned : Bool) : SsdpAnnouncer :=
  { a with sock := running, running := running, startedAt := startedAt, sent := sent, warnedNoVersion := warned }

variable {startedAt : Int} {sent : Nat} {warned : Bool}

theorem withinGrace_started (h : a.startedAt = some startedAt) :
    a.withinGrace m = true ↔ 0 < a.versionGrace ∧ m.clock - startedAt < a.versionGrace := by
  rw [withinGrace, h]
  by_cases hgrace : a.versionGrace ≤ 0
  · simp [hgrace, Int.not_lt.mpr hgrace]
  · simp [hgrace, Int.not_le.mp hgrace]

theorem announceOnce_set (a : SsdpAnnouncer) (startedAt : Int) (sent : Nat) (warned : Bool) (hm : m.Ordinary) : ∃ n warned',
    (a.set true (some startedAt) sent warned).announceOnce m =
      (.ok n, beat a startedAt m, a.set true (some startedAt) (sent + (beat a startedAt m).length) warned') := by
  have hversion : (a.set true (some startedAt) sent warned).resolveVersion m = a.resolveVersion m := rfl
  have hgrace := withinGrace_started (a := a.set true (some startedAt) sent warned) (m := m) rfl
  by_cases hwait : a.resolveVersion m = "" ∧ 0 < a.versionGrace ∧ m.clock - startedAt < a.versionGrace
  · have hbeat : beat a startedAt m = [] := if_pos hwait
    refine ⟨0, true, ?_⟩
    rw [announceOnce, hversion, hbeat, if_neg (by simp [set])]
    simp only [hgrace]
    exact if_pos hwait
  · have hbeat : beat a startedAt m = _ := if_neg hwait
    refine ⟨(beat a startedAt m).length, false, ?_⟩
    rw [announceOnce, hversion, if_neg (by simp [set])]
    simp only [hgrace]
    refine (if_neg hwait).trans ?_
    simp only [hbeat, sendAll_ordinary hm]
    rfl

end SsdpAnnouncer

section Runs

variable {a : SsdpAnnouncer} {since : Option Int} {s s' : Announcing} {acts : List Act}

structure Beating (a : SsdpAnnouncer) (since : Option Int) (s : Announcing) : Prop where
  announcer : ∃ startedAt warned, s.announcer = a.set since.isSome startedAt s.wire.length warned ∧
    ∀ clock, since = some clock → startedAt = some clock

def Act.switch (since : Option Int) : Act → Option Int
  | .start clock => some clock
  | .stop => none
  | _ => since

def Act.emits (a : SsdpAnnouncer) (since : Option Int) : Act → List Datagram
  | .turn m => since.elim [] fun startedAt => beat a startedAt m
  | _ => []

theorem turn_set {m : Moment} {clock : Int} {warned : Bool} (hself : s.announcer = a.set true (some clock) s.wire.length warned)
    (hm : m.Ordinary) : ∃ warned', s.turn m =
      ⟨a.set true (some clock) (s.wire.length + (beat a clock m).length) warned', some .sleeping, s.wire ++ beat a clock m⟩ := by
  obtain ⟨n, warned', hturn⟩ := SsdpAnnouncer.announceOnce_set a clock s.wire.length warned hm
  have hon : ¬ (!s.announcer.running) = true := by
    rw [hself]
    simp [SsdpAnnouncer.set]
  refine ⟨warned', ?_⟩
  rw [Announcing.turn, if_neg hon, hself]
  simp only [hturn]

theorem step_beating {act : Act} (h : Beating a since s) (hact : act.Ordinary) (hstep : s.step act = some s') :
    Beating a (act.switch since) s' ∧ s'.wire = s.wire ++ act.emits a since := by
  obtain ⟨startedAt, warned, hself, hstarted⟩ := h.announcer
  cases act with
  | start clock =>
      cases hstep
      refine ⟨⟨some clock, warned, ?_, ?_⟩, (List.append_nil _).symm⟩
      · rw [hself]
        rfl
      · rintro c ⟨⟩
        rfl
  | createTask | cancel =>
      simp only [Announcing.step] at hstep
      split at hstep <;> cases hstep
      exact ⟨⟨startedAt, warned, hself, hstarted⟩, (List.append_nil _).symm⟩
  | stop =>
      cases hstep
      refine ⟨⟨startedAt, warned, ?_, ?_⟩, (List.append_nil _).symm⟩
      · rw [hself]
        rfl
      · rintro c ⟨⟩
  | turn m =>
      simp only [Announcing.step] at hstep
      split at hstep <;> cases hstep
      cases since with
      | none =>
          have hoff : s.announcer.running = false := by rw [hself]; rfl
          simp only [Announcing.turn, hoff, Bool.not_false, if_true]
          exact ⟨⟨startedAt, warned, hself, hstarted⟩, (List.append_nil _).symm⟩
      | some clock =>
          rw [hstarted clock rfl] at hself
          obtain ⟨warned', hturn⟩ := turn_set hself hact
          rw [hturn]
          refine ⟨⟨some clock, warned', ?_, fun _ => id⟩, rfl⟩
          rw [List.length_append]
          rfl

theorem run_beating (hrun : s.run acts = some s') (h : Beating a since s) (hacts : ∀ act ∈ acts, act.Ordinary) :
    s'.wire = s.wire ++ beats a since acts ∧ ∃ since', Beating a since' s' := by
  induction acts generalizing s since with
  | nil =>
      cases hrun
      exact ⟨(List.append_nil _).symm, since, h⟩
  | cons act acts ih =>
      obtain ⟨t, ht, hrest⟩ := Option.bind_eq_some_iff.mp hrun
      obtain ⟨hbeating, hwire⟩ := step_beating h (hacts act List.mem_cons_self) ht
      obtain ⟨hrestwire, hend⟩ := ih hrest hbeating fun act' h' => hacts act' (List.mem_cons_of_mem act h')
      refine ⟨?_, hend⟩
      rw [hrestwire, hwire, List.append_assoc]
      cases act <;> rfl

theorem init_beating {advertiseIp serial devModel devName devVersion : String} {targets : List String} {provided : Bool} {grace : Int} :
    Beating (.init advertiseIp serial targets devModel devName devVersion provided grace) none
      (.init (.init advertiseIp serial targets devModel devName devVersion provided grace)) := by
  refine ⟨none, false, rfl, ?_⟩
  rintro c ⟨⟩

theorem step_lives {act : Act} {clock : Int} (h : Beating a (some clock) s) (hact : act.Ordinary) (hcancel : act ≠ .cancel)
    (hlives : s.task ≠ some .ended) (hstep : s.step act = some s') : s'.task ≠ some .ended := by
  cases act with
  | start | stop =>
      cases hstep
      exact hlives
  | createTask =>
      simp only [Announcing.step] at hstep
      split at hstep <;> cases hstep
      rintro ⟨⟩
  | cancel => exact absurd rfl hcancel
  | turn m =>
      simp only [Announcing.step] at hstep
      split at hstep <;> cases hstep
      obtain ⟨startedAt, warned, hself, hstarted⟩ := h.announcer
      rw [hstarted clock rfl] at hself
      obtain ⟨warned', hturn⟩ := turn_set hself hact
      rw [hturn]
      rintro ⟨⟩

theorem run_lives {clock : Int} (hrun : s.run acts = some s') (h : Beating a (some clock) s) (hacts : ∀ act ∈ acts, act.Ordinary)
    (hgoes : ∀ act ∈ acts, act ≠ .stop ∧ act ≠ .cancel) (hlives : s.task ≠ some .ended) : s'.task ≠ some .ended := by
  induction acts generalizing s clock with
  | nil =>
      cases hrun
      exact hlives
  | cons act acts ih =>
      obtain ⟨t, ht, hrest⟩ := Option.bind_eq_some_iff.mp hrun
      obtain ⟨hstop, hcancel⟩ := hgoes act List.mem_cons_self
      have hact := hacts act List.mem_cons_self
      have hon : ∃ clock', act.switch (some clock) = some clock' := by
        cases act with
        | start clock' => exact ⟨clock', rfl⟩
        | stop => exact absurd rfl hstop
        | createTask | turn | cancel => exact ⟨clock, rfl⟩
      obtain ⟨clock', hclock⟩ := hon
      have hbeating := (step_beating h hact ht).1
      rw [hclock] at hbeating
      exact ih hrest hbeating (fun act' h' => hacts act' (List.mem_cons_of_mem act h')) (fun act' h' => hgoes act' (List.mem_cons_of_mem act h'))
        (step_lives h hact hcancel hlives ht)

-- Whatever fails in between, what goes out is the heartbeat, all of it is counted, and only `stop` and a cancellation end it.
theorem heartbeat {advertiseIp serial devModel devName devVersion : String} {targets : List String} {provided : Bool} {grace clock : Int}
    (hrun : (Announcing.init (.init advertiseIp serial targets devModel devName devVersion provided grace)).run (.start clock :: acts) = some s)
    (hacts : ∀ act ∈ acts, act.Ordinary) :
    s.wire = beats (.init advertiseIp serial targets devModel devName devVersion provided grace) (some clock) acts ∧
      s.announcer.sent = s.wire.length ∧ ((∀ act ∈ acts, act ≠ .stop ∧ act ≠ .cancel) → s.task ≠ some .ended) := by
  obtain ⟨t, ht, hrest⟩ := Option.bind_eq_some_iff.mp hrun
  have hbeating := (step_beating init_beating (show (Act.start clock).Ordinary from trivial) ht).1
  cases ht
  obtain ⟨hwire, since, h⟩ := run_beating hrest hbeating hacts
  obtain ⟨startedAt, warned, hself, _⟩ := h.announcer
  refine ⟨hwire, ?_, fun hgoes => run_lives hrest hbeating hacts hgoes (by rintro ⟨⟩)⟩
  rw [hself]
  rfl

def noon : GmTime := ⟨0, 5, 0, 2026, 12, 0, 0⟩

def twoSlicers : SsdpAnnouncer :=
  .init "192.168.1.66" "01P00C" ["192.168.1.20", "192.168.1.21"] defaultDevModel defaultDevName "" true defaultVersionGrace

def silentPrinter : List Act :=
  [.createTask, .turn ⟨3, noon, .error (), fun _ => none⟩, .turn ⟨16, noon, .ok none, fun i => if i = 0 then some .os else none⟩]

theorem heartbeat_silentPrinter : ∃ s,
    (Announcing.init twoSlicers).run (.start 0 :: silentPrinter) = some s ∧ s.wire = beats twoSlicers (some 0) silentPrinter ∧
      s.announcer.sent = s.wire.length ∧ s.task ≠ some .ended := by
  have hend : ((Announcing.init twoSlicers).run (.start 0 :: silentPrinter)).isSome = true := by
    decide +kernel
  obtain ⟨s, hs⟩ := Option.isSome_iff_exists.mp hend
  have hacts : ∀ act ∈ silentPrinter, act.Ordinary := by
    simp only [silentPrinter, List.forall_mem_cons, List.not_mem_nil, false_imp_iff, implies_true, and_true]
    refine ⟨trivial, fun i => ?_, fun i => ?_⟩
    · rintro ⟨⟩
    · dsimp only
      split
      · rintro ⟨⟩
      · rintro ⟨⟩
  obtain ⟨hwire, hsent, htask⟩ := heartbeat hs hacts
  refine ⟨s, hs, hwire, hsent, htask ?_⟩
  simp [silentPrinter]

end Runs

end PandaProxy.Ssdp
