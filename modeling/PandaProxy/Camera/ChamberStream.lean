import Mathlib.Data.List.ReduceOption
import PandaProxy.Async.Machine
import PandaProxy.Camera.StreamFanout
import PandaProxy.Python.Bytes

namespace PandaProxy.Camera

open Async Python

def maxPayloadSize : Nat := 10000000

structure Frame where
  header : List UInt8
  jpegData : List UInt8
  deriving DecidableEq

namespace Frame

def chunks (f : Frame) : List (List UInt8) := [f.header, f.jpegData]

def bytes (f : Frame) : List UInt8 := f.header ++ f.jpegData

structure Valid (f : Frame) : Prop where
  header_length : f.header.length = 16
  stated : Struct.unpackI (f.header.take 4) = some f.jpegData.length
  nonempty : 0 < f.jpegData.length
  bounded : f.jpegData.length ≤ maxPayloadSize

theorem chunks_flatten (f : Frame) : f.chunks.flatten = f.bytes := by
  simp [chunks, bytes]

end Frame

-- Where `_upstream_connection_loop` is.
inductive Upstream where
  | away
  | header
  | payload (header : List UInt8) (payloadSize : Nat)
  deriving DecidableEq

-- Where `_handle_client` is, from its registration on.
inductive HandlerPhase where
  | unborn
  | looping
  | receiving
  | writing (chunks : List (List UInt8))
  | leaving
  | gone
  deriving DecidableEq

-- The loop once `receive` has returned.
def HandlerPhase.ofItem : Option (List (List UInt8)) → HandlerPhase
  | some data => .writing data
  | none => .leaving

structure Handler where
  phase : HandlerPhase := .unborn
  written : List UInt8 := []
  failed : Bool := false

namespace Handler

-- `while self._running and client.connected`
def check (h : Handler) (running connected : Bool) : Option Handler :=
  match h.phase with
  | .looping => some { h with phase := if running && connected then .receiving else .leaving }
  | _ => none

def write (h : Handler) : Option Handler :=
  match h.phase with
  | .writing (chunk :: chunks) => some { h with phase := .writing chunks, written := h.written ++ chunk }
  | .writing [] => some { h with phase := .looping }
  | _ => none

-- An exception out of `receive`, `write` or `drain`.
def fail (h : Handler) : Option Handler :=
  match h.phase with
  | .receiving | .writing _ => some { h with phase := .leaving, failed := true }
  | _ => none

end Handler

inductive Event where
  | connected
  | registered (k : Nat)
  | unregistered (k : Nat)
  | frame (f : Frame)
  deriving DecidableEq

structure Chamber where
  running : Bool
  upstream : Upstream
  buffer : List UInt8
  received : List UInt8
  fanout : StreamFanout (List (List UInt8))
  handlers : Nat → Handler
  -- The newest event comes first.
  log : List Event

namespace Chamber

def init : Chamber :=
  { running := true
    upstream := .away
    buffer := []
    received := []
    fanout := StreamFanout.init
    handlers := fun _ => {}
    log := [] }

inductive Act where
  | connect
  | arrive (bytes : List UInt8)
  | readHeader
  | readPayload
  | drop
  | stop
  | register (id : String)
  | check (k : Nat)
  | receive (k : Nat)
  | write (k : Nat)
  | fail (k : Nat)
  | unregister (k : Nat)
  deriving DecidableEq

def setHandler (s : Chamber) (k : Nat) (h : Handler) : Chamber :=
  { s with handlers := Function.update s.handlers k h }

-- The `finally` of an attempt.
def leave (s : Chamber) : Chamber := { s with upstream := .away, fanout := s.fanout.stop }

-- The `while self._running` of the frame loop.
def nextFrame (s : Chamber) : Chamber := if s.running then { s with upstream := .header } else s.leave

def readHeader (s : Chamber) : Option Chamber :=
  if s.buffer.length < 16 then none
  else
    let header := s.buffer.take 16
    (Struct.unpackI (header.take 4)).map fun payloadSize =>
      if payloadSize = 0 ∨ maxPayloadSize < payloadSize then s.leave
      else { s with upstream := .payload header payloadSize, buffer := s.buffer.drop 16 }

def readPayload (s : Chamber) (header : List UInt8) (payloadSize : Nat) : Option Chamber :=
  if s.buffer.length < payloadSize then none
  else
    let frame : Frame := ⟨header, s.buffer.take payloadSize⟩
    some { s with
      buffer := s.buffer.drop payloadSize
      fanout := s.fanout.broadcast frame.chunks
      log := .frame frame :: s.log }.nextFrame

def step (s : Chamber) : Act → Option Chamber
  | .connect =>
      match s.upstream with
      | .away =>
          if s.running then
            some { s with
              upstream := .header
              buffer := []
              received := []
              fanout := s.fanout.start
              log := .connected :: s.log }
          else none
      | _ => none
  | .arrive bytes =>
      if s.upstream = .away then none
      else some { s with buffer := s.buffer ++ bytes, received := s.received ++ bytes }
  | .readHeader => if s.upstream = .header then s.readHeader else none
  | .readPayload =>
      match s.upstream with
      | .payload header payloadSize => s.readPayload header payloadSize
      | _ => none
  | .drop => some s.leave
  | .stop => some { s with running := false, fanout := s.fanout.stop }
  -- `_upstream_connected` may have been cleared again since the client's wait for it was over.
  | .register id =>
      let (k, fanout) := s.fanout.registerClient (some id)
      some ({ s with fanout := fanout, log := .registered k :: s.log }.setHandler k { phase := .looping })
  | .check k =>
      ((s.handlers k).check s.running (s.fanout.objects k).connected).map (s.setHandler k)
  | .receive k =>
      match (s.handlers k).phase, (s.fanout.objects k).queue with
      | .receiving, item :: queue =>
          let s := { s with fanout := s.fanout.setObject k { s.fanout.objects k with queue := queue } }
          some (s.setHandler k { s.handlers k with
            phase := .ofItem item })
      | _, _ => none
  | .write k => (s.handlers k).write.map (s.setHandler k)
  | .fail k => (s.handlers k).fail.map (s.setHandler k)
  | .unregister k =>
      match (s.handlers k).phase with
      | .leaving =>
          some ({ s with fanout := s.fanout.unregisterClient k, log := .unregistered k :: s.log }.setHandler k
            { s.handlers k with phase := .gone })
      | _ => none

def machine : Machine Chamber Act := ⟨step⟩

inductive Steps (s : Chamber) : Act → Chamber → Prop where
  | connect (hup : s.upstream = .away) (hrunning : s.running = true) :
      Steps s .connect { s with
        upstream := .header
        buffer := []
        received := []
        fanout := s.fanout.start
        log := .connected :: s.log }
  | arrive {bytes : List UInt8} (hup : s.upstream ≠ .away) :
      Steps s (.arrive bytes) { s with buffer := s.buffer ++ bytes, received := s.received ++ bytes }
  | readHeader {payloadSize : Nat} (hup : s.upstream = .header) (hlen : 16 ≤ s.buffer.length)
      (hsize : Struct.unpackI ((s.buffer.take 16).take 4) = some payloadSize)
      (hbounds : ¬ (payloadSize = 0 ∨ maxPayloadSize < payloadSize)) :
      Steps s .readHeader { s with upstream := .payload (s.buffer.take 16) payloadSize, buffer := s.buffer.drop 16 }
  | refuse {payloadSize : Nat} (hup : s.upstream = .header)
      (hsize : Struct.unpackI ((s.buffer.take 16).take 4) = some payloadSize)
      (hbounds : payloadSize = 0 ∨ maxPayloadSize < payloadSize) : Steps s .readHeader s.leave
  | readPayload {header : List UInt8} {payloadSize : Nat} (hup : s.upstream = .payload header payloadSize)
      (hlen : payloadSize ≤ s.buffer.length) :
      Steps s .readPayload { s with
        buffer := s.buffer.drop payloadSize
        fanout := s.fanout.broadcast (Frame.chunks ⟨header, s.buffer.take payloadSize⟩)
        log := .frame ⟨header, s.buffer.take payloadSize⟩ :: s.log }.nextFrame
  | drop : Steps s .drop s.leave
  | stop : Steps s .stop { s with running := false, fanout := s.fanout.stop }
  | register {id : String} :
      Steps s (.register id) ({ s with
        fanout := (s.fanout.registerClient (some id)).2
        log := .registered (s.fanout.registerClient (some id)).1 :: s.log }.setHandler
          (s.fanout.registerClient (some id)).1 { phase := .looping })
  | check {k : Nat} {h : Handler} (hh : (s.handlers k).check s.running (s.fanout.objects k).connected = some h) :
      Steps s (.check k) (s.setHandler k h)
  | receive {k : Nat} {item : Option (List (List UInt8))} {queue : List (Option (List (List UInt8)))}
      (hphase : (s.handlers k).phase = .receiving) (hqueue : (s.fanout.objects k).queue = item :: queue) :
      Steps s (.receive k)
        ({ s with fanout := s.fanout.setObject k { s.fanout.objects k with queue := queue } }.setHandler k
          { s.handlers k with phase := .ofItem item })
  | write {k : Nat} {h : Handler} (hh : (s.handlers k).write = some h) : Steps s (.write k) (s.setHandler k h)
  | fail {k : Nat} {h : Handler} (hh : (s.handlers k).fail = some h) : Steps s (.fail k) (s.setHandler k h)
  | unregister {k : Nat} (hphase : (s.handlers k).phase = .leaving) :
      Steps s (.unregister k)
        ({ s with fanout := s.fanout.unregisterClient k, log := .unregistered k :: s.log }.setHandler k
          { s.handlers k with phase := .gone })

theorem step_cases {s s' : Chamber} {a : Act} (hstep : s.step a = some s') : Steps s a s' := by
  cases a with
  | connect =>
      simp only [step] at hstep
      split at hstep
      · next hup =>
          split at hstep <;> cases hstep
          next hrunning => exact .connect hup hrunning
      · cases hstep
  | arrive bytes =>
      simp only [step] at hstep
      split at hstep <;> cases hstep
      exact .arrive ‹_›
  | readHeader =>
      simp only [step, readHeader] at hstep
      split at hstep
      · next hup =>
          split at hstep
          · cases hstep
          · next hlen =>
              obtain ⟨payloadSize, hsize, hs⟩ := Option.map_eq_some_iff.mp hstep
              split at hs <;> cases hs
              · next hbounds => exact .refuse hup hsize hbounds
              · next hbounds => exact .readHeader hup (Nat.not_lt.mp hlen) hsize hbounds
      · cases hstep
  | readPayload =>
      simp only [step, readPayload] at hstep
      split at hstep
      · next hup =>
          split at hstep <;> cases hstep
          next hlen => exact .readPayload hup (Nat.not_lt.mp hlen)
      · cases hstep
  | drop =>
      cases hstep
      exact .drop
  | stop =>
      cases hstep
      exact .stop
  | register id =>
      cases hstep
      exact .register
  | check k =>
      obtain ⟨h, hh, rfl⟩ := Option.map_eq_some_iff.mp hstep
      exact .check hh
  | receive k =>
      simp only [step] at hstep
      split at hstep <;> cases hstep
      next hphase hqueue => exact .receive hphase hqueue
  | write k =>
      obtain ⟨h, hh, rfl⟩ := Option.map_eq_some_iff.mp hstep
      exact .write hh
  | fail k =>
      obtain ⟨h, hh, rfl⟩ := Option.map_eq_some_iff.mp hstep
      exact .fail hh
  | unregister k =>
      simp only [step] at hstep
      split at hstep <;> cases hstep
      exact .unregister ‹_›

def DistinctIds (s : Chamber) (a : Act) (_ : Chamber) : Prop :=
  ∀ id, a = .register id → ∀ p ∈ s.fanout.clients, p.1 ≠ id

def registeredIn (k : Nat) : List Event → Bool
  | [] => false
  | .registered k' :: log => k' == k || registeredIn k log
  | .unregistered k' :: log => k' != k && registeredIn k log
  | .connected :: log => registeredIn k log
  | .frame _ :: log => registeredIn k log

def window (k : Nat) : List Event → List Frame
  | [] => []
  | .frame f :: log => if registeredIn k log then window k log ++ [f] else window k log
  | .connected :: log => window k log
  | .registered _ :: log => window k log
  | .unregistered _ :: log => window k log

def current : List Event → List Frame
  | [] => []
  | .connected :: _ => []
  | .frame f :: log => current log ++ [f]
  | .registered _ :: log => current log
  | .unregistered _ :: log => current log

def pending : Upstream → List UInt8
  | .payload header _ => header
  | .away => []
  | .header => []

structure Parsed (s : Chamber) : Prop where
  framed : s.upstream ≠ .away → s.received = (current s.log).flatMap Frame.bytes ++ pending s.upstream ++ s.buffer
  started : ∀ header payloadSize, s.upstream = .payload header payloadSize → header.length = 16 ∧
    Struct.unpackI (header.take 4) = some payloadSize ∧ 0 < payloadSize ∧ payloadSize ≤ maxPayloadSize
  valid : ∀ f, .frame f ∈ s.log → f.Valid

-- `queued` is what the client's queue holds, `frames` what was read while it was registered.
inductive Sends (h : Handler) (queued frames : List Frame) : Prop where
  | idle (done : List Frame) (hwritten : h.written = done.flatMap Frame.bytes)
      (hphase : ∀ chunks, h.phase ≠ .writing chunks) (hsub : (done ++ queued).Sublist frames)
  | writing (done : List Frame) (f : Frame) (cut : List UInt8) (chunks : List (List UInt8))
      (hwritten : h.written = done.flatMap Frame.bytes ++ cut) (hphase : h.phase = .writing chunks)
      (hcut : cut ++ chunks.flatten = f.bytes) (hsub : (done ++ f :: queued).Sublist frames)
  | failed (done : List Frame) (f : Frame) (cut : List UInt8)
      (hwritten : h.written = done.flatMap Frame.bytes ++ cut) (hphase : h.phase = .leaving ∨ h.phase = .gone)
      (hfailed : h.failed = true) (hcut : cut.IsPrefix f.bytes) (hsub : (done ++ f :: queued).Sublist frames)

namespace Sends

variable {h : Handler} {queued queued' frames frames' : List Frame} {f : Frame}

theorem mono (hs : Sends h queued frames) (hq : queued'.Sublist queued) (hf : frames.Sublist frames') :
    Sends h queued' frames' := by
  cases hs with
  | idle done hwritten hphase hsub =>
      exact .idle done hwritten hphase (((List.Sublist.refl done).append hq).trans (hsub.trans hf))
  | writing done f cut chunks hwritten hphase hcut hsub =>
      exact .writing done f cut chunks hwritten hphase hcut
        (((List.Sublist.refl done).append (hq.cons_cons f)).trans (hsub.trans hf))
  | failed done f cut hwritten hphase hfailed hcut hsub =>
      exact .failed done f cut hwritten hphase hfailed hcut
        (((List.Sublist.refl done).append (hq.cons_cons f)).trans (hsub.trans hf))

theorem queue (hs : Sends h queued frames) : Sends h (queued ++ [f]) (frames ++ [f]) := by
  cases hs with
  | idle done hwritten hphase hsub =>
      refine .idle done hwritten hphase ?_
      rw [← List.append_assoc]
      exact hsub.append_right [f]
  | writing done g cut chunks hwritten hphase hcut hsub =>
      refine .writing done g cut chunks hwritten hphase hcut ?_
      have := hsub.append_right [f]
      rwa [List.append_assoc, List.cons_append] at this
  | failed done g cut hwritten hphase hfailed hcut hsub =>
      refine .failed done g cut hwritten hphase hfailed hcut ?_
      have := hsub.append_right [f]
      rwa [List.append_assoc, List.cons_append] at this

theorem of_not_writing (hs : Sends h queued frames) (hphase : h.phase = .looping ∨ h.phase = .receiving) :
    ∃ done, h.written = done.flatMap Frame.bytes ∧ (done ++ queued).Sublist frames := by
  cases hs with
  | idle done hwritten _ hsub => exact ⟨done, hwritten, hsub⟩
  | writing _ _ _ _ _ hw => rcases hphase with h | h <;> rw [hw] at h <;> cases h
  | failed _ _ _ _ hw => rcases hphase with h | h <;> rw [h] at hw <;> simp at hw

theorem of_writing {chunks : List (List UInt8)} (hs : Sends h queued frames) (hphase : h.phase = .writing chunks) :
    ∃ done f cut, h.written = done.flatMap Frame.bytes ++ cut ∧ cut ++ chunks.flatten = f.bytes ∧
      (done ++ f :: queued).Sublist frames := by
  cases hs with
  | idle _ _ hw => exact absurd hphase (hw chunks)
  | writing done f cut chunks' hwritten hw hcut hsub =>
      rw [hphase] at hw
      cases hw
      exact ⟨done, f, cut, hwritten, hcut, hsub⟩
  | failed _ _ _ _ hw => rw [hphase] at hw; simp at hw

theorem leave (hs : Sends h queued frames) (hphase : h.phase = .leaving) :
    Sends { h with phase := .gone } queued frames := by
  cases hs with
  | idle done hwritten _ hsub => exact .idle done hwritten nofun hsub
  | writing _ _ _ _ _ hw => rw [hphase] at hw; cases hw
  | failed done f cut hwritten _ hfailed hcut hsub =>
      exact .failed done f cut hwritten (.inr rfl) hfailed hcut hsub

end Sends

structure Served (fanout : StreamFanout (List (List UInt8))) (handlers : Nat → Handler) (log : List Event) : Prop where
  sound : fanout.Sound
  registered : ∀ k, registeredIn k log = true ↔ fanout.registered k
  unborn : ∀ k, fanout.made ≤ k → handlers k = {} ∧ window k log = []
  active : ∀ k, (handlers k).phase ≠ .unborn → (handlers k).phase ≠ .gone → fanout.registered k
  sends : ∀ k, k < fanout.made → ∃ queued : List Frame,
    (fanout.objects k).queue.reduceOption = queued.map Frame.chunks ∧ Sends (handlers k) queued (window k log)

namespace Served

variable {fanout : StreamFanout (List (List UInt8))} {handlers : Nat → Handler} {log : List Event} {k : Nat}

theorem connected (h : Served fanout handlers log) : Served fanout.start handlers (.connected :: log) :=
  ⟨⟨h.sound.once, h.sound.keys, h.sound.named, h.sound.made, h.sound.bounded⟩, h.registered, h.unborn, h.active, h.sends⟩

theorem stop (h : Served fanout handlers log) : Served fanout.stop handlers log := by
  have hspec : ∀ k, _ := fun k => @StreamFanout.eachClient_spec _ { fanout with running := false } k
    ⟨h.sound.once, h.sound.keys, h.sound.named, h.sound.made, h.sound.bounded⟩ StreamClient.disconnect
  refine ⟨h.sound.stop, fun k => ?_, fun k hk => ?_, fun k hborn hgone => ?_, fun k hk => ?_⟩
  · rw [h.registered k]
    exact ⟨fun ⟨id, hm⟩ => ⟨id, (hspec 0).1 ▸ hm⟩, fun ⟨id, hm⟩ => ⟨id, (hspec 0).1 ▸ hm⟩⟩
  · exact h.unborn k ((hspec 0).2.1 ▸ hk)
  · obtain ⟨id, hm⟩ := h.active k hborn hgone
    exact ⟨id, (hspec 0).1.symm ▸ hm⟩
  · obtain ⟨queued, hqueued, hsends⟩ := h.sends k ((hspec 0).2.1 ▸ hk)
    refine ⟨queued, ?_, hsends⟩
    rcases Classical.em (fanout.registered k) with hr | hr
    · rw [StreamFanout.stop, (hspec k).2.2.1 hr]
      rcases (fanout.objects k).disconnect_cases.2.2 with he | ⟨he, _⟩
      · rwa [he]
      · rw [he, List.reduceOption_append, hqueued]
        simp
    · rw [StreamFanout.stop, (hspec k).2.2.2 hr]
      exact hqueued

theorem broadcast (h : Served fanout handlers log) (f : Frame) :
    Served (fanout.broadcast f.chunks) handlers (.frame f :: log) := by
  have hspec := fun k => @StreamFanout.eachClient_spec _ fanout k h.sound fun c => (c.send f.chunks).2
  refine ⟨h.sound.broadcast f.chunks, fun k => ?_, fun k hk => ?_, fun k hborn hgone => ?_, fun k hk => ?_⟩
  · rw [registeredIn, h.registered k]
    exact ⟨fun ⟨id, hm⟩ => ⟨id, (hspec 0).1 ▸ hm⟩, fun ⟨id, hm⟩ => ⟨id, (hspec 0).1 ▸ hm⟩⟩
  · have hle : fanout.made ≤ k := (hspec 0).2.1 ▸ hk
    have hnot : ¬ registeredIn k log = true := by
      rw [h.registered k]
      rintro ⟨id, hm⟩
      exact absurd (h.sound.made id k hm) (Nat.not_lt.mpr hle)
    refine ⟨(h.unborn k hle).1, ?_⟩
    rw [window, if_neg hnot]
    exact (h.unborn k hle).2
  · obtain ⟨id, hm⟩ := h.active k hborn hgone
    exact ⟨id, (hspec 0).1.symm ▸ hm⟩
  · obtain ⟨queued, hqueued, hsends⟩ := h.sends k ((hspec 0).2.1 ▸ hk)
    rw [window, StreamFanout.broadcast]
    split
    · next hr =>
        rw [(hspec k).2.2.1 ((h.registered k).mp hr)]
        rcases (fanout.objects k).send_cases f.chunks with ⟨he, _⟩ | ⟨he, _⟩
        · refine ⟨queued ++ [f], ?_, hsends.queue⟩
          rw [he, List.reduceOption_append, hqueued]
          simp
        · refine ⟨queued, by rwa [he], hsends.mono (List.Sublist.refl _) (List.sublist_append_left _ _)⟩
    · next hr =>
        rw [(hspec k).2.2.2 fun hm => hr ((h.registered k).mpr hm)]
        exact ⟨queued, hqueued, hsends⟩

theorem register (h : Served fanout handlers log) {id : String} (hid : ∀ p ∈ fanout.clients, p.1 ≠ id) :
    Served (fanout.registerClient (some id)).2 (Function.update handlers fanout.made { phase := .looping })
      (.registered fanout.made :: log) := by
  obtain ⟨hclients, hmade, hnew, hold⟩ := StreamFanout.registerClient_spec hid
  refine ⟨h.sound.register hid, fun k => ?_, fun k hk => ?_, fun k hborn hgone => ?_, fun k hk => ?_⟩
  · simp only [registeredIn, Bool.or_eq_true, beq_iff_eq, h.registered k, StreamFanout.registered, hclients,
      List.mem_append, List.mem_singleton, Prod.mk.injEq]
    constructor
    · rintro (rfl | ⟨id', hm⟩)
      · exact ⟨id, .inr ⟨rfl, rfl⟩⟩
      · exact ⟨id', .inl hm⟩
    · rintro ⟨id', hm | ⟨-, rfl⟩⟩
      · exact .inr ⟨id', hm⟩
      · exact .inl rfl
  · rw [hmade] at hk
    rw [Function.update_of_ne (Nat.ne_of_gt hk)]
    exact h.unborn k (Nat.le_of_succ_le hk)
  · rw [StreamFanout.registered, hclients]
    rcases Decidable.em (k = fanout.made) with rfl | hne
    · exact ⟨id, List.mem_append_right _ List.mem_cons_self⟩
    · rw [Function.update_of_ne hne] at hborn hgone
      obtain ⟨id', hm⟩ := h.active k hborn hgone
      exact ⟨id', List.mem_append_left _ hm⟩
  · rcases Decidable.em (k = fanout.made) with rfl | hne
    · rw [hnew, Function.update_self]
      exact ⟨[], rfl, .idle [] rfl (by rintro _ ⟨⟩) (List.nil_sublist _)⟩
    · rw [hold k hne, Function.update_of_ne hne]
      rw [hmade] at hk
      exact h.sends k (by omega)

theorem handler (h : Served fanout handlers log) (hphase : (handlers k).phase ≠ .unborn)
    (hgone : (handlers k).phase ≠ .gone) {h' : Handler}
    (hsends : ∀ queued frames, Sends (handlers k) queued frames → Sends h' queued frames) :
    Served fanout (Function.update handlers k h') log := by
  refine ⟨h.sound, h.registered, fun m hm => ?_, fun m hborn hleft => ?_, fun m hm => ?_⟩
  · rcases Decidable.em (m = k) with rfl | hne
    · rw [(h.unborn m hm).1] at hphase
      exact absurd rfl hphase
    · rw [Function.update_of_ne hne]
      exact h.unborn m hm
  · rcases Decidable.em (m = k) with rfl | hne
    · exact h.active m hphase hgone
    · rw [Function.update_of_ne hne] at hborn hleft
      exact h.active m hborn hleft
  · obtain ⟨queued, hqueued, hs⟩ := h.sends m hm
    rcases Decidable.em (m = k) with rfl | hne
    · rw [Function.update_self]
      exact ⟨queued, hqueued, hsends _ _ hs⟩
    · rw [Function.update_of_ne hne]
      exact ⟨queued, hqueued, hs⟩

theorem born (h : Served fanout handlers log) (hphase : (handlers k).phase ≠ .unborn) : k < fanout.made := by
  rcases Nat.lt_or_ge k fanout.made with hk | hk
  · exact hk
  · rw [(h.unborn k hk).1] at hphase
    exact absurd rfl hphase

theorem receive (h : Served fanout handlers log) (hphase : (handlers k).phase = .receiving)
    {item : Option (List (List UInt8))} {queue : List (Option (List (List UInt8)))}
    (hqueue : (fanout.objects k).queue = item :: queue) :
    Served (fanout.setObject k { fanout.objects k with queue := queue })
      (Function.update handlers k { handlers k with phase := .ofItem item }) log := by
  have hborn := h.born (k := k) (by simp [hphase])
  refine ⟨⟨h.sound.once, h.sound.keys, fun id m hm => ?_, h.sound.made, fun m => ?_⟩, h.registered, fun m hm => ?_,
    fun m hleft hgone => ?_, fun m hm => ?_⟩
  · rcases Decidable.em (m = k) with rfl | hne
    · simpa [StreamFanout.setObject] using h.sound.named id m hm
    · simpa [StreamFanout.setObject, hne] using h.sound.named id m hm
  · have hb := h.sound.bounded m
    rcases Decidable.em (m = k) with rfl | hne
    · rw [hqueue, List.length_cons] at hb
      simp only [StreamFanout.setObject, Function.update_self]
      omega
    · simpa [StreamFanout.setObject, hne] using hb
  · have hne : m ≠ k := fun he => absurd hborn (Nat.not_lt.mpr (he ▸ hm))
    rw [Function.update_of_ne hne]
    exact h.unborn m hm
  · rcases Decidable.em (m = k) with rfl | hne
    · exact h.active m (by simp [hphase]) (by simp [hphase])
    · rw [Function.update_of_ne hne] at hleft hgone
      exact h.active m hleft hgone
  · obtain ⟨queued, hqueued, hs⟩ := h.sends m hm
    rcases Decidable.em (m = k) with rfl | hne
    · obtain ⟨done, hwritten, hsub⟩ := hs.of_not_writing (.inr hphase)
      simp only [StreamFanout.setObject, Function.update_self]
      rw [hqueue] at hqueued
      cases item with
      | none => exact ⟨queued, hqueued, .idle done hwritten (by rintro _ ⟨⟩) hsub⟩
      | some data =>
          rw [List.reduceOption_cons_of_some] at hqueued
          cases queued with
          | nil => cases hqueued
          | cons f queued =>
              rw [List.map_cons, List.cons.injEq] at hqueued
              refine ⟨queued, hqueued.2, .writing done f [] data (by simpa using hwritten) rfl ?_ hsub⟩
              rw [hqueued.1]
              exact f.chunks_flatten
    · simp only [StreamFanout.setObject, Function.update_of_ne hne]
      exact ⟨queued, hqueued, hs⟩

theorem unregister (h : Served fanout handlers log) (hphase : (handlers k).phase = .leaving) :
    Served (fanout.unregisterClient k) (Function.update handlers k { handlers k with phase := .gone })
      (.unregistered k :: log) := by
  obtain ⟨hmade, hself, hother, _⟩ := StreamFanout.unregisterClient_spec (f := fanout) k
  have hreg := h.active k (by rw [hphase]; nofun) (by rw [hphase]; nofun)
  have hkeep := h.sound.unregister_registered hreg
  have hborn := h.born (k := k) (by rw [hphase]; nofun)
  refine ⟨h.sound.unregister k, fun m => ?_, fun m hm => ?_, fun m hleft hgone => ?_, fun m hm => ?_⟩
  · rw [hkeep m, registeredIn, Bool.and_eq_true, bne_iff_ne, h.registered m]
    exact ⟨fun ⟨hne, hm⟩ => ⟨hm, hne.symm⟩, fun ⟨hm, hne⟩ => ⟨hne.symm, hm⟩⟩
  · rw [hmade] at hm
    have hne : m ≠ k := fun he => absurd hborn (Nat.not_lt.mpr (he ▸ hm))
    rw [Function.update_of_ne hne]
    exact h.unborn m hm
  · rcases Decidable.em (m = k) with rfl | hne
    · rw [Function.update_self] at hgone
      exact absurd rfl hgone
    · rw [Function.update_of_ne hne] at hleft hgone
      exact (hkeep m).mpr ⟨h.active m hleft hgone, hne⟩
  · obtain ⟨queued, hqueued, hs⟩ := h.sends m (hmade ▸ hm)
    rcases Decidable.em (m = k) with rfl | hne
    · rw [hself, Function.update_self]
      refine ⟨queued, ?_, hs.leave hphase⟩
      rcases (fanout.objects m).disconnect_cases.2.2 with he | ⟨he, _⟩
      · rwa [he]
      · rw [he, List.reduceOption_append, hqueued]
        simp
    · rw [hother m hne, Function.update_of_ne hne]
      exact ⟨queued, hqueued, hs⟩

end Served

namespace Parsed

variable {s s' : Chamber}

theorem frame (h : s.Parsed) (hupstream : s'.upstream = s.upstream) (hbuffer : s'.buffer = s.buffer)
    (hreceived : s'.received = s.received) (hcurrent : current s'.log = current s.log)
    (hlog : ∀ f, .frame f ∈ s'.log → .frame f ∈ s.log) : s'.Parsed := by
  refine ⟨?_, ?_, fun f hf => h.valid f (hlog f hf)⟩
  · rw [hupstream, hbuffer, hreceived, hcurrent]
    exact h.framed
  · rw [hupstream]
    exact h.started

theorem leave (h : s.Parsed) : s.leave.Parsed :=
  ⟨fun hne => absurd rfl hne, nofun, h.valid⟩

theorem arrive (h : s.Parsed) (hne : s.upstream ≠ .away) (bytes : List UInt8) :
    Parsed { s with buffer := s.buffer ++ bytes, received := s.received ++ bytes } := by
  refine ⟨fun _ => ?_, h.started, h.valid⟩
  rw [h.framed hne, ← List.append_assoc]

theorem readHeader (h : s.Parsed) (hupstream : s.upstream = .header) (hlen : 16 ≤ s.buffer.length) {payloadSize : Nat}
    (hsize : Struct.unpackI ((s.buffer.take 16).take 4) = some payloadSize)
    (hbounds : ¬ (payloadSize = 0 ∨ maxPayloadSize < payloadSize)) :
    Parsed { s with upstream := .payload (s.buffer.take 16) payloadSize, buffer := s.buffer.drop 16 } := by
  refine ⟨fun _ => ?_, ?_, h.valid⟩
  · have hframed := h.framed (by rw [hupstream]; nofun)
    rw [hupstream, pending, List.append_nil] at hframed
    rw [pending, List.append_assoc, List.take_append_drop]
    exact hframed
  · rintro header size ⟨⟩
    exact ⟨List.length_take_of_le hlen, hsize, by omega, by omega⟩

theorem readPayload (h : s.Parsed) {header : List UInt8} {payloadSize : Nat}
    (hupstream : s.upstream = .payload header payloadSize) (hlen : payloadSize ≤ s.buffer.length) :
    Parsed { s with
      buffer := s.buffer.drop payloadSize
      fanout := s.fanout.broadcast (Frame.chunks ⟨header, s.buffer.take payloadSize⟩)
      log := .frame ⟨header, s.buffer.take payloadSize⟩ :: s.log }.nextFrame := by
  obtain ⟨hheader, hstated, hpos, hle⟩ := h.started header payloadSize hupstream
  have hdata : (s.buffer.take payloadSize).length = payloadSize := List.length_take_of_le hlen
  have hvalid : ∀ f, .frame f ∈ (.frame ⟨header, s.buffer.take payloadSize⟩ : Event) :: s.log → f.Valid := by
    intro f hf
    rcases List.mem_cons.mp hf with he | hf
    · cases he
      exact ⟨hheader, by rw [hdata]; exact hstated, by rw [hdata]; exact hpos, by rw [hdata]; exact hle⟩
    · exact h.valid f hf
  have hframed := h.framed (by rw [hupstream]; nofun)
  rw [hupstream, pending] at hframed
  unfold nextFrame
  split
  · refine ⟨fun _ => ?_, nofun, hvalid⟩
    simp only [current, pending, List.flatMap_append, List.flatMap_cons, List.flatMap_nil, List.append_nil,
      Frame.bytes, hframed, List.append_assoc, List.take_append_drop]
  · exact ⟨fun hne => absurd rfl hne, nofun, hvalid⟩

end Parsed

structure Inv (s : Chamber) : Prop where
  parsed : s.Parsed
  served : Served s.fanout s.handlers s.log

namespace Inv

variable {s s' : Chamber}

theorem init : Chamber.init.Inv := by
  refine ⟨⟨fun hne => absurd rfl hne, nofun, nofun⟩, ?_⟩
  refine ⟨⟨.nil, .nil, nofun, nofun, fun _ => Nat.zero_le _⟩, fun k => ⟨nofun, fun ⟨_, hm⟩ => nomatch hm⟩, ?_, ?_, nofun⟩
  · exact fun _ _ => ⟨rfl, rfl⟩
  · exact fun _ hborn => absurd rfl hborn

theorem leave (h : s.Inv) : s.leave.Inv := ⟨h.parsed.leave, h.served.stop⟩

theorem handler (h : s.Inv) {k : Nat} (hphase : (s.handlers k).phase ≠ .unborn)
    (hgone : (s.handlers k).phase ≠ .gone) {h' : Handler}
    (hsends : ∀ queued frames, Sends (s.handlers k) queued frames → Sends h' queued frames) :
    (s.setHandler k h').Inv :=
  ⟨h.parsed.frame rfl rfl rfl rfl fun _ => id, h.served.handler hphase hgone hsends⟩

theorem readPayload (h : s.Inv) {header : List UInt8} {payloadSize : Nat}
    (hupstream : s.upstream = .payload header payloadSize) (hlen : payloadSize ≤ s.buffer.length) :
    Inv { s with
      buffer := s.buffer.drop payloadSize
      fanout := s.fanout.broadcast (Frame.chunks ⟨header, s.buffer.take payloadSize⟩)
      log := .frame ⟨header, s.buffer.take payloadSize⟩ :: s.log }.nextFrame := by
  refine ⟨h.parsed.readPayload hupstream hlen, ?_⟩
  unfold nextFrame
  split
  · exact h.served.broadcast _
  · exact (h.served.broadcast _).stop

theorem check (h : s.Inv) {k : Nat} (hphase : (s.handlers k).phase = .looping) {next : HandlerPhase}
    (hnext : next = .receiving ∨ next = .leaving) : (s.setHandler k { s.handlers k with phase := next }).Inv := by
  refine h.handler (by rw [hphase]; nofun) (by rw [hphase]; nofun) fun queued frames hs => ?_
  obtain ⟨done, hwritten, hsub⟩ := hs.of_not_writing (.inl hphase)
  refine .idle done hwritten ?_ hsub
  rcases hnext with rfl | rfl <;> exact fun _ => nofun

theorem write (h : s.Inv) {k : Nat} {chunk : List UInt8} {chunks : List (List UInt8)}
    (hphase : (s.handlers k).phase = .writing (chunk :: chunks)) :
    (s.setHandler k { s.handlers k with
      phase := .writing chunks
      written := (s.handlers k).written ++ chunk }).Inv := by
  refine h.handler (by rw [hphase]; nofun) (by rw [hphase]; nofun) fun queued frames hs => ?_
  obtain ⟨done, f, cut, hwritten, hcut, hsub⟩ := hs.of_writing hphase
  refine .writing done f (cut ++ chunk) chunks ?_ rfl ?_ hsub
  · rw [hwritten, List.append_assoc]
  · rw [← hcut, List.flatten_cons, List.append_assoc]

theorem written (h : s.Inv) {k : Nat} (hphase : (s.handlers k).phase = .writing []) :
    (s.setHandler k { s.handlers k with phase := .looping }).Inv := by
  refine h.handler (by rw [hphase]; nofun) (by rw [hphase]; nofun) fun queued frames hs => ?_
  obtain ⟨done, f, cut, hwritten, hcut, hsub⟩ := hs.of_writing hphase
  rw [List.flatten_nil, List.append_nil] at hcut
  refine .idle (done ++ [f]) ?_ nofun ?_
  · simp [hwritten, hcut]
  · simpa using hsub

theorem fail (h : s.Inv) {k : Nat}
    (hphase : (s.handlers k).phase = .receiving ∨ ∃ chunks, (s.handlers k).phase = .writing chunks) :
    (s.setHandler k { s.handlers k with phase := .leaving, failed := true }).Inv := by
  refine h.handler ?_ ?_ fun queued frames hs => ?_
  · rcases hphase with hp | ⟨_, hp⟩ <;> rw [hp] <;> nofun
  · rcases hphase with hp | ⟨_, hp⟩ <;> rw [hp] <;> nofun
  rcases hphase with hp | ⟨chunks, hp⟩
  · obtain ⟨done, hwritten, hsub⟩ := hs.of_not_writing (.inr hp)
    exact .idle done hwritten nofun hsub
  · obtain ⟨done, f, cut, hwritten, hcut, hsub⟩ := hs.of_writing hp
    exact .failed done f cut hwritten (.inl rfl) rfl ⟨_, hcut⟩ hsub

theorem step (h : s.Inv) {a : Act} (ha : s.step a = some s') (hids : DistinctIds s a s') : s'.Inv := by
  cases step_cases ha with
  | connect _ _ =>
      exact ⟨⟨fun _ => rfl, nofun, fun f hf => h.parsed.valid f ((List.mem_cons.mp hf).resolve_left nofun)⟩, h.served.connected⟩
  | arrive hup => exact ⟨h.parsed.arrive hup _, h.served⟩
  | readHeader hup hlen hsize hbounds => exact ⟨h.parsed.readHeader hup hlen hsize hbounds, h.served⟩
  | refuse _ _ _ => exact h.leave
  | readPayload hup hlen => exact h.readPayload hup hlen
  | drop => exact h.leave
  | stop => exact ⟨h.parsed.frame rfl rfl rfl rfl fun _ => id, h.served.stop⟩
  | register =>
      exact ⟨h.parsed.frame rfl rfl rfl rfl fun f hf => (List.mem_cons.mp hf).resolve_left nofun,
        h.served.register (hids _ rfl)⟩
  | check hh =>
      simp only [Handler.check] at hh
      split at hh <;> cases hh
      next hphase =>
        refine h.check hphase ?_
        split
        · exact .inl rfl
        · exact .inr rfl
  | receive hphase hqueue => exact ⟨h.parsed.frame rfl rfl rfl rfl fun _ => id, h.served.receive hphase hqueue⟩
  | write hh =>
      simp only [Handler.write] at hh
      split at hh <;> cases hh
      · next hphase => exact h.write hphase
      · next hphase => exact h.written hphase
  | fail hh =>
      simp only [Handler.fail] at hh
      split at hh <;> cases hh
      · next hphase => exact h.fail (.inl hphase)
      · next hphase => exact h.fail (.inr ⟨_, hphase⟩)
  | unregister hphase =>
      exact ⟨h.parsed.frame rfl rfl rfl rfl fun f hf => (List.mem_cons.mp hf).resolve_left nofun, h.served.unregister hphase⟩

theorem runs {as : List Act} (hrun : machine.Trace DistinctIds Chamber.init as s) : s.Inv :=
  hrun.runs.keeps init fun _ _ _ hI hstep hids => hI.step hstep hids

end Inv

structure Solo where
  running : Bool
  upstream : Upstream
  buffer : List UInt8
  made : Nat
  registered : Bool
  client : StreamClient (List (List UInt8))
  handler : Handler

namespace Solo

def stop (v : Solo) : Solo := { v with client := if v.registered then v.client.disconnect else v.client }

def leave (v : Solo) : Solo := { v with upstream := .away }.stop

def readHeader (v : Solo) : Solo :=
  let header := v.buffer.take 16
  match Struct.unpackI (header.take 4) with
  | some payloadSize =>
      if payloadSize = 0 ∨ maxPayloadSize < payloadSize then v.leave
      else { v with upstream := .payload header payloadSize, buffer := v.buffer.drop 16 }
  | none => v

def readPayload (v : Solo) (header : List UInt8) (payloadSize : Nat) : Solo :=
  let frame : Frame := ⟨header, v.buffer.take payloadSize⟩
  let v := { v with
    buffer := v.buffer.drop payloadSize
    client := if v.registered then (v.client.send frame.chunks).2 else v.client }
  if v.running then { v with upstream := .header } else v.leave

def next (m : Nat) (v : Solo) : Act → Solo
  | .connect => { v with upstream := .header, buffer := [] }
  | .arrive bytes => { v with buffer := v.buffer ++ bytes }
  | .readHeader => v.readHeader
  | .readPayload =>
      match v.upstream with
      | .payload header payloadSize => v.readPayload header payloadSize
      | _ => v
  | .drop => v.leave
  | .stop => { v with running := false }.stop
  | .register id =>
      if v.made = m then
        { v with made := v.made + 1, registered := true, client := { clientId := id }, handler := { phase := .looping } }
      else { v with made := v.made + 1 }
  | .check _ => { v with handler := (v.handler.check v.running v.client.connected).getD v.handler }
  | .receive _ =>
      match v.client.queue with
      | item :: queue =>
          { v with client := { v.client with queue := queue }, handler := { v.handler with phase := .ofItem item } }
      | [] => v
  | .write _ => { v with handler := v.handler.write.getD v.handler }
  | .fail _ => { v with handler := v.handler.fail.getD v.handler }
  | .unregister _ =>
      { v with client := v.client.disconnect, registered := false, handler := { v.handler with phase := .gone } }

end Solo

def solo (m : Nat) (s : Chamber) : Solo :=
  ⟨s.running, s.upstream, s.buffer, s.fanout.made, registeredIn m s.log, s.fanout.objects m, s.handlers m⟩

def concerns (m : Nat) : Act → Bool
  | .check k | .receive k | .write k | .fail k | .unregister k => k == m
  | _ => true

theorem solo_setHandler {s : Chamber} {m k : Nat} {h : Handler} :
    solo m (s.setHandler k h) = if k = m then { solo m s with handler := h } else solo m s := by
  split
  · next he =>
      subst he
      simp [solo, setHandler]
  · next hne => simp [solo, setHandler, Function.update_of_ne (Ne.symm hne)]

section Solo

variable {s s' : Chamber} {m : Nat}

theorem stop_object (h : Served s.fanout s.handlers s.log) : s.fanout.stop.made = s.fanout.made ∧
    s.fanout.stop.objects m =
      if registeredIn m s.log then (s.fanout.objects m).disconnect else s.fanout.objects m := by
  obtain ⟨-, hmade, hin, hout⟩ := @StreamFanout.eachClient_spec _ { s.fanout with running := false } m
    ⟨h.sound.once, h.sound.keys, h.sound.named, h.sound.made, h.sound.bounded⟩ StreamClient.disconnect
  refine ⟨hmade, ?_⟩
  split
  · next hr => exact hin ((h.registered m).mp hr)
  · next hr => exact hout fun hm => hr ((h.registered m).mpr hm)

theorem broadcast_object (h : Served s.fanout s.handlers s.log) (data : List (List UInt8)) :
    (s.fanout.broadcast data).made = s.fanout.made ∧ (s.fanout.broadcast data).objects m =
      if registeredIn m s.log then ((s.fanout.objects m).send data).2 else s.fanout.objects m := by
  obtain ⟨-, hmade, hin, hout⟩ := @StreamFanout.eachClient_spec _ s.fanout m h.sound fun c => (c.send data).2
  refine ⟨hmade, ?_⟩
  split
  · next hr => exact hin ((h.registered m).mp hr)
  · next hr => exact hout fun hm => hr ((h.registered m).mpr hm)

theorem solo_leave (h : Served s.fanout s.handlers s.log) : solo m s.leave = (solo m s).leave := by
  obtain ⟨hmade, hobject⟩ := stop_object (m := m) h
  simp only [solo, leave, Solo.leave, Solo.stop, hmade, hobject]
  rfl

theorem solo_header {payloadSize : Nat} (hsize : Struct.unpackI ((s.buffer.take 16).take 4) = some payloadSize) :
    (solo m s).readHeader = if payloadSize = 0 ∨ maxPayloadSize < payloadSize then (solo m s).leave
      else { solo m s with upstream := .payload (s.buffer.take 16) payloadSize, buffer := s.buffer.drop 16 } := by
  simp only [Solo.readHeader, solo, hsize]

theorem solo_readPayload (h : s.Inv) (header : List UInt8) (payloadSize : Nat) :
    solo m { s with
      buffer := s.buffer.drop payloadSize
      fanout := s.fanout.broadcast (Frame.chunks ⟨header, s.buffer.take payloadSize⟩)
      log := .frame ⟨header, s.buffer.take payloadSize⟩ :: s.log }.nextFrame =
    (solo m s).readPayload header payloadSize := by
  have hserved := h.served.broadcast ⟨header, s.buffer.take payloadSize⟩
  obtain ⟨hmade, hobject⟩ := broadcast_object (m := m) h.served (Frame.chunks ⟨header, s.buffer.take payloadSize⟩)
  have hr : ∀ f log, registeredIn m (.frame f :: log) = registeredIn m log := fun _ _ => rfl
  simp only [nextFrame, Solo.readPayload]
  cases hrun : s.running with
  | true =>
      rw [if_pos rfl, if_pos (show (solo m s).running = true from hrun)]
      simp only [solo, hmade, hobject, hr, hrun]
  | false =>
      rw [if_neg nofun, if_neg (by simp [solo, hrun]), solo_leave hserved]
      simp only [solo, hmade, hobject, hr, hrun]

theorem solo_register {id : String} (hs : s.step (.register id) = some s') :
    solo m s' = (solo m s).next m (.register id) := by
  cases hs
  rcases Decidable.em (s.fanout.made = m) with rfl | hne
  · simp [Solo.next, solo, setHandler, registeredIn, StreamFanout.setObject]
  · simp [Solo.next, solo, setHandler, registeredIn, StreamFanout.setObject, hne,
      Function.update_of_ne (Ne.symm hne)]

theorem solo_step (h : s.Inv) {a : Act} (ha : s.step a = some s') (hids : DistinctIds s a s') :
    solo m s' = if concerns m a then (solo m s).next m a else solo m s := by
  cases step_cases ha with
  | connect _ _ => rfl
  | arrive _ => rfl
  | readHeader _ _ hsize hbounds => exact ((solo_header hsize).trans (if_neg hbounds)).symm
  | refuse _ hsize hbounds => exact (solo_leave h.served).trans ((solo_header hsize).trans (if_pos hbounds)).symm
  | @readPayload header payloadSize hup _ =>
      have hnext : (solo m s).next m .readPayload = (solo m s).readPayload header payloadSize := by
        simp only [Solo.next, solo, hup]
      exact (solo_readPayload h header payloadSize).trans hnext.symm
  | drop => exact solo_leave h.served
  | stop =>
      obtain ⟨hmade, hobject⟩ := stop_object (m := m) h.served
      simp only [solo, concerns, if_true, Solo.next, Solo.stop, hmade, hobject]
      rfl
  | register => exact solo_register ha
  | receive hphase hqueue =>
      rw [solo_setHandler]
      simp only [concerns, beq_iff_eq]
      split
      · next he =>
          subst he
          simp [Solo.next, solo, hqueue, StreamFanout.setObject]
      · next hne => simp [solo, StreamFanout.setObject, Function.update_of_ne (Ne.symm hne)]
  | @unregister k _ =>
      obtain ⟨hmade, hself, hother, -⟩ := StreamFanout.unregisterClient_spec (f := s.fanout) k
      rw [solo_setHandler]
      simp only [concerns, beq_iff_eq]
      split
      · next he =>
          subst he
          simp [Solo.next, solo, hself, hmade, registeredIn]
      · next hne => simp [solo, hother m (Ne.symm hne), hmade, registeredIn, hne]
  | check hh | write hh | fail hh =>
      rw [solo_setHandler]
      simp only [concerns, beq_iff_eq]
      split
      · next he =>
          subst he
          simp only [Solo.next, solo, hh, Option.getD_some]
      · rfl

end Solo

theorem solo_runs {as : List Act} {s : Chamber} {m : Nat} (hrun : machine.Trace DistinctIds init as s) :
    solo m s = (as.filter (concerns m)).foldl (Solo.next m) (solo m init) :=
  hrun.project Inv.init (fun _ _ _ hI hstep hids => hI.step hstep hids)
    fun _ _ _ hI hstep hids => solo_step hI hstep hids

def WritesFrames (h : Handler) (frames : List Frame) : Prop :=
  ∃ done : List Frame, (h.written = done.flatMap Frame.bytes ∧ done.Sublist frames) ∨
    ∃ f cut, h.written = done.flatMap Frame.bytes ++ cut ∧ cut.IsPrefix f.bytes ∧ (done ++ [f]).Sublist frames ∧
      (h.failed = true ∨ ∃ chunks, h.phase = .writing chunks ∧ cut ++ chunks.flatten = f.bytes)

theorem Sends.writesFrames {h : Handler} {queued frames : List Frame} (hs : Sends h queued frames) :
    WritesFrames h frames := by
  have hone : ∀ done f, (done ++ f :: queued).Sublist frames → (done ++ [f]).Sublist frames := by
    intro done f hsub
    refine List.Sublist.trans ?_ hsub
    exact (List.Sublist.refl done).append ((List.nil_sublist queued).cons_cons f)
  cases hs with
  | idle done hwritten _ hsub =>
      exact ⟨done, .inl ⟨hwritten, (List.sublist_append_left _ _).trans hsub⟩⟩
  | writing done f cut chunks hwritten hphase hcut hsub =>
      exact ⟨done, .inr ⟨f, cut, hwritten, ⟨_, hcut⟩, hone done f hsub, .inr ⟨chunks, hphase, hcut⟩⟩⟩
  | failed done f cut hwritten _ hfailed hcut hsub =>
      exact ⟨done, .inr ⟨f, cut, hwritten, hcut, hone done f hsub, .inl hfailed⟩⟩

theorem Inv.writesFrames {s : Chamber} (h : s.Inv) (k : Nat) : WritesFrames (s.handlers k) (window k s.log) := by
  rcases Nat.lt_or_ge k s.fanout.made with hk | hk
  · obtain ⟨_, _, hsends⟩ := h.served.sends k hk
    exact hsends.writesFrames
  · rw [(h.served.unborn k hk).1]
    exact ⟨[], .inl ⟨rfl, List.nil_sublist _⟩⟩

def Admits (c c' : StreamClient (List (List UInt8))) (f : Frame) : Prop :=
  c'.queue.reduceOption = c.queue.reduceOption ++ [f.chunks] ∨
    c'.queue.reduceOption = c.queue.reduceOption ∧
      (c.queue.length = StreamClient.maxsize ∨ c.connected = false)

theorem Admits.disconnect {c c' : StreamClient (List (List UInt8))} {f : Frame} (h : Admits c c' f) :
    Admits c c'.disconnect f := by
  have hsame : c'.disconnect.queue.reduceOption = c'.queue.reduceOption := by
    rcases c'.disconnect_cases.2.2 with he | ⟨he, _⟩
    · rw [he]
    · rw [he, List.reduceOption_append]
      simp
  rw [Admits, hsame]
  exact h

theorem send_admits {c : StreamClient (List (List UInt8))} (hbound : c.queue.length ≤ StreamClient.maxsize)
    (f : Frame) : Admits c (c.send f.chunks).2 f := by
  rcases c.send_cases f.chunks with ⟨he, _⟩ | ⟨he, hwhy⟩
  · refine .inl ?_
    rw [he, List.reduceOption_append]
    rfl
  · refine .inr ⟨by rw [he], ?_⟩
    rcases hwhy with hwhy | hwhy
    · exact .inr hwhy
    · exact .inl (Nat.le_antisymm hbound hwhy)

theorem Inv.broadcasts {s s' : Chamber} (h : s.Inv) (hs : s.step .readPayload = some s') :
    ∃ f, s'.log = .frame f :: s.log ∧
      ∀ k, registeredIn k s.log = true → Admits (s.fanout.objects k) (s'.fanout.objects k) f := by
  cases step_cases hs with
  | @readPayload header payloadSize _ _ =>
      refine ⟨⟨header, s.buffer.take payloadSize⟩, ?_, fun k hk => ?_⟩
      · unfold nextFrame
        split <;> rfl
      · have hobject := congrArg Solo.client (solo_readPayload (m := k) h header payloadSize)
        have hsend := send_admits (h.served.sound.bounded k) ⟨header, s.buffer.take payloadSize⟩
        simp only [Solo.readPayload, solo, hk, if_true] at hobject
        rw [hobject]
        split
        · exact hsend
        · exact hsend.disconnect

theorem stream_integrity :
    (∀ as s, machine.Trace DistinctIds init as s →
      (∀ f, .frame f ∈ s.log → f.Valid) ∧
      (s.upstream ≠ .away → s.received = (current s.log).flatMap Frame.bytes ++ pending s.upstream ++ s.buffer) ∧
      (∀ k, WritesFrames (s.handlers k) (window k s.log)) ∧
      ∀ s', machine.step s .readPayload = some s' → ∃ f, s'.log = .frame f :: s.log ∧ f.Valid ∧
        ∀ k, registeredIn k s.log = true → Admits (s.fanout.objects k) (s'.fanout.objects k) f) ∧
    ∀ as s bs t k, machine.Trace DistinctIds init as s → machine.Trace DistinctIds init bs t →
      as.filter (concerns k) = bs.filter (concerns k) →
      s.handlers k = t.handlers k ∧ s.fanout.objects k = t.fanout.objects k := by
  refine ⟨fun as s hrun => ?_, fun as s bs t k hs ht hsame => ?_⟩
  · have hinv := Inv.runs hrun
    refine ⟨hinv.parsed.valid, hinv.parsed.framed, hinv.writesFrames, fun s' hs' => ?_⟩
    obtain ⟨f, hlog, hadmits⟩ := hinv.broadcasts hs'
    have hvalid := (hinv.step (show s.step .readPayload = some s' from hs') (fun _ he => nomatch he)).parsed.valid
    exact ⟨f, hlog, hvalid f (hlog ▸ List.mem_cons_self), hadmits⟩
  · have hsolo : solo k s = solo k t := by
      rw [solo_runs hs, solo_runs ht, hsame]
    exact ⟨congrArg Solo.handler hsolo, congrArg Solo.client hsolo⟩

def distinctIds (s : Chamber) (a : Act) (_ : Chamber) : Bool :=
  match a with
  | .register id => s.fanout.clients.all fun p => p.1 != id
  | _ => true

theorem distinctIds_sound {s s' : Chamber} {a : Act} (h : distinctIds s a s' = true) : DistinctIds s a s' := by
  rintro id rfl p hp
  have := List.all_eq_true.mp h p hp
  simpa using this

def oneFrame : Frame := ⟨[1, 0, 0, 0, 0, 0, 0, 0, 1, 0, 0, 0, 0, 0, 0, 0], [216]⟩

def oneFrameActs : List Act :=
  [.connect, .register "a", .register "b", .arrive oneFrame.bytes, .readHeader, .readPayload, .check 0, .receive 0,
    .write 0, .write 0]

theorem stream_integrity_one_frame : ∃ s t, machine.playWhile distinctIds init oneFrameActs = some s ∧
    machine.playWhile distinctIds init (oneFrameActs ++ [.check 1, .receive 1, .fail 1]) = some t ∧
    (s.handlers 0).written = oneFrame.bytes ∧ WritesFrames (s.handlers 0) (window 0 s.log) ∧
    s.handlers 0 = t.handlers 0 := by
  obtain ⟨s, hs⟩ := Option.isSome_iff_exists.mp
    (show (machine.playWhile distinctIds init oneFrameActs).isSome = true by decide +kernel)
  obtain ⟨t, ht⟩ := Option.isSome_iff_exists.mp
    (show (machine.playWhile distinctIds init (oneFrameActs ++ [.check 1, .receive 1, .fail 1])).isSome = true by
      decide +kernel)
  have hwritten : ((machine.playWhile distinctIds init oneFrameActs).map fun s => (s.handlers 0).written) =
      some oneFrame.bytes := by
    decide +kernel
  rw [hs] at hwritten
  have htrace := Machine.playWhile_trace (fun _ _ _ => distinctIds_sound) hs
  refine ⟨s, t, hs, ht, Option.some.inj hwritten, (stream_integrity.1 _ s htrace).2.2.1 0, ?_⟩
  exact (stream_integrity.2 _ s _ t 0 htrace (Machine.playWhile_trace (fun _ _ _ => distinctIds_sound) ht)
    (by decide +kernel)).1

end Chamber

end PandaProxy.Camera
