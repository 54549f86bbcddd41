import Mathlib.Data.Nat.Basic
import PandaProxy.Async.Future

namespace PandaProxy.FtpProxy

open Async

-- Where one passive port stands, from its reservation to the end of its `supervise` task.
inductive Phase where
  | binding
  | unbound
  | created
  | awaitCommand
  | awaitEndpoint
  | awaitClient
  | awaitFinish
  | gathering
  | closing
  | over
  deriving DecidableEq, Repr

namespace Phase

def waiting : Phase → Bool
  | created => true
  | awaitCommand => true
  | awaitEndpoint => true
  | awaitClient => true
  | awaitFinish => true
  | _ => false

def tearingDown : Phase → Bool
  | gathering => true
  | closing => true
  | _ => false

end Phase

inductive Handler where
  | absent
  | awaitCommand
  | awaitEndpoint
  | relaying
  | closing
  | ended
  deriving DecidableEq, Repr

namespace Handler

def busy : Handler → Bool
  | absent => false
  | ended => false
  | _ => true

end Handler

structure Relay where
  owner : Nat
  port : Int
  phase : Phase
  mustCancel : Bool
  listening : Bool
  connections : Nat
  commandSeen : Bool
  endpoint : Fut
  target : Option (String × Int)
  accepted : Bool
  finished : Bool
  handler : Handler
  handlerCancel : Bool
  released : Nat
  deriving DecidableEq, Repr

namespace Relay

def reserve (owner : Nat) (port : Int) : Relay where
  owner := owner
  port := port
  phase := .binding
  mustCancel := false
  listening := false
  connections := 0
  commandSeen := false
  endpoint := .pending
  target := none
  accepted := false
  finished := false
  handler := .absent
  handlerCancel := false
  released := 0

def cancelHandler (x : Relay) : Relay :=
  match x.handler with
  | .absent => x
  | .ended => x
  | .awaitEndpoint => { x with handlerCancel := true, endpoint := x.endpoint.cancel }
  | _ => { x with handlerCancel := true }

-- `supervise` from its end backwards: what it does from each of its awaits on, up to the next one
-- that has to wait.
def leave (x : Relay) : Relay := { x with phase := .over, released := x.released + 1 }

def waitClosed (x : Relay) : Relay :=
  if x.connections = 0 then x.leave else { x with phase := .closing }

def teardown (x : Relay) : Relay :=
  let x := { x.cancelHandler with listening := false, mustCancel := false }
  if x.handler.busy then { x with phase := .gathering } else x.waitClosed

def waitFinish (x : Relay) : Relay :=
  if x.finished then x.teardown else { x with phase := .awaitFinish }

def waitClient (x : Relay) : Relay :=
  if x.accepted then x.waitFinish else { x with phase := .awaitClient }

def waitEndpoint (x : Relay) : Relay :=
  match x.endpoint with
  | .pending => { x with phase := .awaitEndpoint }
  | .result => x.waitClient
  | .cancelled => x.teardown

def waitCommand (x : Relay) : Relay :=
  if x.commandSeen then x.waitEndpoint else { x with phase := .awaitCommand }

-- The next turn of the `supervise` task; `none` while it has nothing to wake up for.
def supervise (x : Relay) (timedOut : Bool) : Option Relay :=
  match x.phase with
  | .created =>
      if x.mustCancel then some { x with phase := .over, mustCancel := false } else some x.waitCommand
  | .awaitCommand =>
      if x.mustCancel then some x.teardown
      else if x.commandSeen then some x.waitEndpoint
      else if timedOut then some x.teardown
      else none
  | .awaitEndpoint =>
      if x.mustCancel then some x.teardown
      else if x.endpoint.done then some x.waitEndpoint
      else none
  | .awaitClient =>
      if x.mustCancel then some x.teardown
      else if x.accepted then some x.waitFinish
      else if timedOut then some x.teardown
      else none
  | .awaitFinish => if x.mustCancel || x.finished then some x.teardown else none
  | .gathering =>
      if x.handler.busy then none
      else if x.mustCancel then some x.leave
      else some x.waitClosed
  | .closing => if x.mustCancel || x.connections == 0 then some x.leave else none
  | _ => none

def cancel (x : Relay) : Relay :=
  match x.phase with
  | .binding => x
  | .unbound => x
  | .over => x
  | .awaitEndpoint => { x with mustCancel := true, endpoint := x.endpoint.cancel }
  | .gathering => { x.cancelHandler with mustCancel := true }
  | _ => { x with mustCancel := true }

def handle (x : Relay) : Option Relay :=
  match x.handler with
  | .awaitCommand =>
      if x.handlerCancel then some { x with handler := .closing, handlerCancel := false }
      else if x.commandSeen then some { x with handler := .awaitEndpoint }
      else none
  | .awaitEndpoint =>
      if x.handlerCancel || x.endpoint = .cancelled then
        some { x with handler := .closing, handlerCancel := false }
      else if x.endpoint = .result then some { x with handler := .relaying }
      else none
  | .relaying => some { x with handler := .closing, handlerCancel := false }
  | .closing =>
      some { x with handler := .ended, handlerCancel := false, finished := x.finished || !x.handlerCancel }
  | _ => none

def connect (x : Relay) : Option Relay :=
  if x.listening then some { x with connections := x.connections + 1 } else none

-- The first turn of `relay` for a connection: a stranger or a latecomer is sent away.
def accept (x : Relay) (stranger : Bool) : Option Relay :=
  if x.connections = 0 then none
  else if stranger || x.accepted then some x
  else some { x with accepted := true, handler := .awaitCommand }

def disconnect (x : Relay) : Option Relay :=
  if x.connections = 0 then none else some { x with connections := x.connections - 1 }

-- Where a turn of `supervise` can get to. The port is given back exactly at the end.
structure Onward (x y : Relay) : Prop where
  owner : y.owner = x.owner
  port : y.port = x.port
  place : (y.phase = .over ∧ y.released = x.released + 1 ∧ y.listening = false) ∨
    (y.phase.tearingDown = true ∧ y.released = x.released ∧ y.listening = false) ∨
    (y.phase.waiting = true ∧ y.phase ≠ .created ∧ y.released = x.released ∧ y.listening = x.listening)

theorem cancelHandler_fields (x : Relay) :
    x.cancelHandler.owner = x.owner ∧ x.cancelHandler.port = x.port ∧
      x.cancelHandler.phase = x.phase ∧ x.cancelHandler.released = x.released ∧
      x.cancelHandler.listening = x.listening := by
  unfold cancelHandler
  split <;> exact ⟨rfl, rfl, rfl, rfl, rfl⟩

theorem cancel_fields (x : Relay) :
    x.cancel.owner = x.owner ∧ x.cancel.port = x.port ∧ x.cancel.phase = x.phase ∧
      x.cancel.released = x.released ∧ x.cancel.listening = x.listening := by
  obtain ⟨h1, h2, h3, h4, h5⟩ := x.cancelHandler_fields
  unfold cancel
  split
  case h_5 => exact ⟨h1, h2, h3, h4, h5⟩
  all_goals exact ⟨rfl, rfl, rfl, rfl, rfl⟩

theorem leave_onward {x y : Relay} (ho : y.owner = x.owner) (hp : y.port = x.port)
    (hr : y.released = x.released) (hl : y.listening = false) : Onward x y.leave :=
  ⟨ho, hp, .inl ⟨rfl, congrArg (· + 1) hr, hl⟩⟩

theorem waitClosed_onward {x y : Relay} (ho : y.owner = x.owner) (hp : y.port = x.port)
    (hr : y.released = x.released) (hl : y.listening = false) : Onward x y.waitClosed := by
  unfold waitClosed
  split
  · exact leave_onward ho hp hr hl
  · exact ⟨ho, hp, .inr (.inl ⟨rfl, hr, hl⟩)⟩

theorem teardown_onward (x : Relay) : Onward x x.teardown := by
  obtain ⟨ho, hp, _, hr, _⟩ := x.cancelHandler_fields
  unfold teardown
  simp only
  split
  · exact ⟨ho, hp, .inr (.inl ⟨rfl, hr, rfl⟩)⟩
  · exact waitClosed_onward ho hp hr rfl

theorem waitFinish_onward (x : Relay) : Onward x x.waitFinish := by
  unfold waitFinish
  split
  · exact teardown_onward x
  · exact ⟨rfl, rfl, .inr (.inr ⟨rfl, by simp, rfl, rfl⟩)⟩

theorem waitClient_onward (x : Relay) : Onward x x.waitClient := by
  unfold waitClient
  split
  · exact waitFinish_onward x
  · exact ⟨rfl, rfl, .inr (.inr ⟨rfl, by simp, rfl, rfl⟩)⟩

theorem waitEndpoint_onward (x : Relay) : Onward x x.waitEndpoint := by
  unfold waitEndpoint
  split
  · exact ⟨rfl, rfl, .inr (.inr ⟨rfl, by simp, rfl, rfl⟩)⟩
  · exact waitClient_onward x
  · exact teardown_onward x

theorem waitCommand_onward (x : Relay) : Onward x x.waitCommand := by
  unfold waitCommand
  split
  · exact waitEndpoint_onward x
  · exact ⟨rfl, rfl, .inr (.inr ⟨rfl, by simp, rfl, rfl⟩)⟩

theorem supervise_onward {x y : Relay} {timedOut : Bool}
    (hfresh : ¬ (x.phase = .created ∧ x.mustCancel = true))
    (hclosed : x.phase.tearingDown = true → x.listening = false)
    (h : x.supervise timedOut = some y) :
    Onward x y ∧ (x.phase.waiting = true ∨ x.phase.tearingDown = true) := by
  unfold supervise at h
  split at h
  · next hp =>
      split at h
      · next hm => exact absurd ⟨hp, hm⟩ hfresh
      · cases h
        exact ⟨waitCommand_onward x, .inl (by rw [hp]; rfl)⟩
  · next hp =>
      refine ⟨?_, .inl (by rw [hp]; rfl)⟩
      split at h
      · cases h; exact teardown_onward x
      split at h
      · cases h; exact waitEndpoint_onward x
      split at h
      · cases h; exact teardown_onward x
      · cases h
  · next hp =>
      refine ⟨?_, .inl (by rw [hp]; rfl)⟩
      split at h
      · cases h; exact teardown_onward x
      split at h
      · cases h; exact waitEndpoint_onward x
      · cases h
  · next hp =>
      refine ⟨?_, .inl (by rw [hp]; rfl)⟩
      split at h
      · cases h; exact teardown_onward x
      split at h
      · cases h; exact waitFinish_onward x
      split at h
      · cases h; exact teardown_onward x
      · cases h
  · next hp =>
      refine ⟨?_, .inl (by rw [hp]; rfl)⟩
      split at h
      · cases h; exact teardown_onward x
      · cases h
  · next hp =>
      have hl : x.listening = false := hclosed (by rw [hp]; rfl)
      refine ⟨?_, .inr (by rw [hp]; rfl)⟩
      split at h
      · cases h
      split at h
      · cases h; exact leave_onward rfl rfl rfl hl
      · cases h; exact waitClosed_onward rfl rfl rfl hl
  · next hp =>
      have hl : x.listening = false := hclosed (by rw [hp]; rfl)
      refine ⟨?_, .inr (by rw [hp]; rfl)⟩
      split at h
      · cases h; exact leave_onward rfl rfl rfl hl
      · cases h
  · cases h

end Relay

end PandaProxy.FtpProxy
