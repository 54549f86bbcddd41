import Mathlib.Logic.Function.Basic
import PandaProxy.Async.Machine
import PandaProxy.FtpProxy.Relay

namespace PandaProxy.FtpProxy

open Async

-- What `relay` makes of a connection in its first turn.
inductive Fate where
  | new
  | refused
  | admitted
  deriving DecidableEq, Repr

structure Connection where
  peer : Option String
  fate : Fate := .new
  closed : Bool := false
  spliced : Option (String × Int) := none
  relayed : Nat := 0
  deriving DecidableEq, Repr

structure DataPort where
  peerIp : Option String
  relay : Relay
  connections : Nat → Connection
  arrived : Nat
  admitted : Option Nat

namespace DataPort

def reserve (peerIp : Option String) (owner : Nat) (port : Int) : DataPort :=
  ⟨peerIp, .reserve owner port, fun _ => { peer := none }, 0, none⟩

def setConnection (d : DataPort) (n : Nat) (c : Connection) : DataPort :=
  { d with connections := Function.update d.connections n c }

inductive Act where
  | bound
  | unbound
  | created
  | arrive (peer : Option String)
  | start (n : Nat)
  | handle
  | splice
  | move (bytes : Nat)
  | disconnect
  | supervise (timedOut : Bool)
  | cancelTask
  | cancelHandlers
  | commandSeen
  | setEndpoint (host : String) (port : Int)
  deriving DecidableEq

def stranger (d : DataPort) (c : Connection) : Bool := d.peerIp.isSome && c.peer != d.peerIp

def start (d : DataPort) (n : Nat) : DataPort :=
  let c := d.connections n
  if d.stranger c || d.relay.accepted then d.setConnection n { c with fate := .refused, closed := true }
  else
    { d.setConnection n { c with fate := .admitted } with
      relay := { d.relay with accepted := true, handler := .awaitCommand }
      admitted := some n }

-- The handler of the admitted connection closes it first of all when it ends.
def handle (d : DataPort) (n : Nat) (relay : Relay) : DataPort :=
  { d with relay := relay }.setConnection n
    { d.connections n with closed := (d.connections n).closed || relay.handler = Handler.closing }

def step (d : DataPort) : Act → Option DataPort
  | .bound => some { d with relay := { d.relay with listening := true } }
  | .unbound => some { d with relay := { d.relay with phase := .unbound, released := d.relay.released + 1 } }
  | .created => some { d with relay := { d.relay with phase := .created } }
  | .arrive peer =>
      d.relay.connect.map fun relay =>
        { d.setConnection d.arrived { peer := peer } with relay := relay, arrived := d.arrived + 1 }
  | .start n => if n < d.arrived ∧ (d.connections n).fate = .new then some (d.start n) else none
  | .handle =>
      match d.admitted with
      | some n => d.relay.handle.map (d.handle n)
      | none => none
  | .splice =>
      match d.admitted, d.relay.target with
      | some n, some target =>
          if d.relay.handler = .relaying ∧ (d.connections n).spliced = none then
            some (d.setConnection n { d.connections n with spliced := some target })
          else none
      | _, _ => none
  | .move bytes =>
      match d.admitted with
      | some n =>
          if d.relay.handler = .relaying ∧ (d.connections n).spliced ≠ none then
            some (d.setConnection n { d.connections n with relayed := (d.connections n).relayed + bytes })
          else none
      | none => none
  | .disconnect => d.relay.disconnect.map fun relay => { d with relay := relay }
  | .supervise timedOut => (d.relay.supervise timedOut).map fun relay => { d with relay := relay }
  | .cancelTask => some { d with relay := d.relay.cancel }
  | .cancelHandlers => some { d with relay := d.relay.cancelHandler }
  | .commandSeen => some { d with relay := { d.relay with commandSeen := true } }
  | .setEndpoint host port =>
      if d.relay.endpoint.done then none
      else some { d with relay := { d.relay with endpoint := .result, target := some (host, port) } }

def machine : Machine DataPort Act := ⟨step⟩

structure Inv (d : DataPort) : Prop where
  fresh : ∀ n, d.arrived ≤ n → (d.connections n).fate = .new
  one : ∀ n, (d.connections n).fate = .admitted ↔ d.admitted = some n
  accepted : d.relay.accepted = true ↔ d.admitted ≠ none
  host : ∀ n, (d.connections n).fate = .admitted → d.stranger (d.connections n) = false
  spliced : ∀ n, (d.connections n).spliced ≠ none → (d.connections n).fate = .admitted
  relayed : ∀ n, (d.connections n).relayed ≠ 0 → (d.connections n).spliced ≠ none
  refused : ∀ n, (d.connections n).fate = .refused → (d.connections n).closed = true
  handler : d.relay.handler ≠ .absent → d.admitted ≠ none
  ended : ∀ n, d.admitted = some n → d.relay.handler = .closing ∨ d.relay.handler = .ended →
    (d.connections n).closed = true

end DataPort

namespace Relay

theorem cancelHandler_admission (x : Relay) :
    x.cancelHandler.accepted = x.accepted ∧ x.cancelHandler.handler = x.handler := by
  unfold cancelHandler
  split <;> exact ⟨rfl, rfl⟩

theorem cancel_admission (x : Relay) : x.cancel.accepted = x.accepted ∧ x.cancel.handler = x.handler := by
  obtain ⟨ha, hh⟩ := x.cancelHandler_admission
  unfold cancel
  split
  case h_5 => exact ⟨ha, hh⟩
  all_goals exact ⟨rfl, rfl⟩

theorem teardown_admission (x : Relay) : x.teardown.accepted = x.accepted ∧ x.teardown.handler = x.handler := by
  obtain ⟨ha, hh⟩ := x.cancelHandler_admission
  unfold teardown waitClosed leave
  simp only
  split
  · exact ⟨ha, hh⟩
  · split <;> exact ⟨ha, hh⟩

theorem waitEndpoint_admission (x : Relay) :
    x.waitEndpoint.accepted = x.accepted ∧ x.waitEndpoint.handler = x.handler := by
  obtain ⟨ha, hh⟩ := x.teardown_admission
  unfold waitEndpoint waitClient waitFinish
  repeat' split
  all_goals first
  | exact ⟨rfl, rfl⟩
  | exact ⟨ha, hh⟩

theorem supervise_admission {x y : Relay} {timedOut : Bool} (h : x.supervise timedOut = some y) :
    y.accepted = x.accepted ∧ y.handler = x.handler := by
  obtain ⟨ha, hh⟩ := x.teardown_admission
  obtain ⟨ha', hh'⟩ := x.waitEndpoint_admission
  unfold supervise waitCommand waitFinish waitClosed leave at h
  repeat' split at h
  all_goals
    cases h <;> first
    | exact ⟨rfl, rfl⟩
    | exact ⟨ha, hh⟩
    | exact ⟨ha', hh'⟩

theorem handle_admission {x y : Relay} (h : x.handle = some y) : y.accepted = x.accepted ∧
    x.handler ≠ .absent ∧ (y.handler = .ended → x.handler = .closing) := by
  unfold handle at h
  split at h
  all_goals
    rename_i hhandler
    repeat' split at h
    all_goals
      cases h <;> first
      | exact ⟨rfl, by rw [hhandler]; nofun, fun _ => hhandler⟩
      | exact ⟨rfl, by rw [hhandler]; nofun, nofun⟩

end Relay

namespace DataPort

variable {d d' : DataPort}

namespace Inv

theorem reserve (peerIp : Option String) (owner : Nat) (port : Int) : (DataPort.reserve peerIp owner port).Inv where
  fresh _ _ := rfl
  one _ := ⟨nofun, nofun⟩
  accepted := ⟨nofun, fun h => absurd rfl h⟩
  host _ := nofun
  spliced _ h := absurd rfl h
  relayed _ h := absurd rfl h
  refused _ := nofun
  handler h := absurd rfl h
  ended _ := nofun

theorem relay (h : d.Inv) {x : Relay} (hx : x.accepted = d.relay.accepted ∧ x.handler = d.relay.handler) :
    Inv { d with relay := x } where
  fresh := h.fresh
  one := h.one
  accepted := by rw [hx.1]; exact h.accepted
  host := h.host
  spliced := h.spliced
  relayed := h.relayed
  refused := h.refused
  handler := by rw [hx.2]; exact h.handler
  ended := by rw [hx.2]; exact h.ended

theorem arrive (h : d.Inv) (peer : Option String) :
    Inv { d.setConnection d.arrived { peer := peer } with arrived := d.arrived + 1 } := by
  have hnew := h.fresh d.arrived (Nat.le_refl _)
  have hcases : ∀ n, (n = d.arrived ∧ Function.update d.connections d.arrived { peer := peer } n = { peer := peer }) ∨
      Function.update d.connections d.arrived { peer := peer } n = d.connections n := by
    intro n
    rcases Decidable.em (n = d.arrived) with rfl | hne
    · exact .inl ⟨rfl, Function.update_self _ _ _⟩
    · exact .inr (Function.update_of_ne hne _ _)
  refine ⟨fun n hn => ?_, fun n => ?_, h.accepted, fun n hf => ?_, fun n hs => ?_, fun n hr => ?_, fun n hf => ?_,
    h.handler, fun n hn hh => ?_⟩
  · rcases hcases n with ⟨_, he⟩ | he <;> simp only [setConnection, he]
    exact h.fresh n (Nat.le_of_succ_le hn)
  · rcases hcases n with ⟨rfl, he⟩ | he <;> simp only [setConnection, he]
    · refine ⟨nofun, fun hn => ?_⟩
      rw [(h.one _).mpr hn] at hnew
      cases hnew
    · exact h.one n
  · rcases hcases n with ⟨_, he⟩ | he <;> simp only [setConnection, he] at hf ⊢
    · cases hf
    · exact h.host n hf
  · rcases hcases n with ⟨_, he⟩ | he <;> simp only [setConnection, he] at hs ⊢
    · exact absurd rfl hs
    · exact h.spliced n hs
  · rcases hcases n with ⟨_, he⟩ | he <;> simp only [setConnection, he] at hr ⊢
    · exact absurd rfl hr
    · exact h.relayed n hr
  · rcases hcases n with ⟨_, he⟩ | he <;> simp only [setConnection, he] at hf ⊢
    · cases hf
    · exact h.refused n hf
  · rcases hcases n with ⟨rfl, he⟩ | he <;> simp only [setConnection, he] at hn ⊢
    · rw [(h.one _).mpr hn] at hnew
      cases hnew
    · exact h.ended n hn hh

theorem edit (h : d.Inv) {n : Nat} (hn : d.admitted = some n) {c : Connection} (hpeer : c.peer = (d.connections n).peer)
    (hfate : c.fate = (d.connections n).fate) (hrelayed : c.relayed ≠ 0 → c.spliced ≠ none)
    (hclosed : (d.connections n).closed = true → c.closed = true) : (d.setConnection n c).Inv := by
  have hadmitted := (h.one n).mpr hn
  have hcases : ∀ m, (m = n ∧ Function.update d.connections n c m = c) ∨
      Function.update d.connections n c m = d.connections m := by
    intro m
    rcases Decidable.em (m = n) with rfl | hne
    · exact .inl ⟨rfl, Function.update_self _ _ _⟩
    · exact .inr (Function.update_of_ne hne _ _)
  refine ⟨fun m hm => ?_, fun m => ?_, h.accepted, fun m hf => ?_, fun m hs => ?_, fun m hr => ?_, fun m hf => ?_,
    h.handler, fun m hm hh => ?_⟩
  · rcases hcases m with ⟨rfl, he⟩ | he <;> simp only [setConnection, he]
    · exact hfate.trans (h.fresh m hm)
    · exact h.fresh m hm
  · rcases hcases m with ⟨rfl, he⟩ | he <;> simp only [setConnection, he]
    · rw [hfate]
      exact h.one m
    · exact h.one m
  · rcases hcases m with ⟨rfl, he⟩ | he <;> simp only [setConnection, he, stranger] at hf ⊢
    · rw [hpeer]
      exact h.host m hadmitted
    · exact h.host m hf
  · rcases hcases m with ⟨rfl, he⟩ | he <;> simp only [setConnection, he] at hs ⊢
    · exact hfate.trans hadmitted
    · exact h.spliced m hs
  · rcases hcases m with ⟨rfl, he⟩ | he <;> simp only [setConnection, he] at hr ⊢
    · exact hrelayed hr
    · exact h.relayed m hr
  · rcases hcases m with ⟨rfl, he⟩ | he <;> simp only [setConnection, he] at hf ⊢
    · rw [hfate, hadmitted] at hf
      cases hf
    · exact h.refused m hf
  · rcases hcases m with ⟨rfl, he⟩ | he <;> simp only [setConnection, he] at hm ⊢
    · exact hclosed (h.ended m hm hh)
    · exact h.ended m hm hh

theorem handle (h : d.Inv) {n : Nat} (hn : d.admitted = some n) {x : Relay} (hx : d.relay.handle = some x) :
    (d.handle n x).Inv := by
  obtain ⟨haccepted, _, hended⟩ := Relay.handle_admission hx
  have hedit := h.edit hn (c := { d.connections n with
    closed := (d.connections n).closed || x.handler = Handler.closing }) rfl rfl (h.relayed n)
    fun hc => by simp [hc]
  refine ⟨hedit.fresh, hedit.one, ?_, hedit.host, hedit.spliced, hedit.relayed, hedit.refused, ?_, ?_⟩
  · show x.accepted = true ↔ _
    rw [haccepted]
    exact h.accepted
  · intro _
    show d.admitted ≠ none
    rw [hn]
    nofun
  · intro m hm hh
    cases hn.symm.trans hm
    simp only [DataPort.handle, setConnection, Function.update_self]
    rcases hh with hh | hh
    · have hclosing : x.handler = .closing := hh
      simp [hclosing]
    · rw [h.ended n hn (.inl (hended hh))]
      rfl

theorem start (h : d.Inv) {n : Nat} (hn : n < d.arrived) (hnew : (d.connections n).fate = .new) : (d.start n).Inv := by
  have hcases : ∀ c m, (m = n ∧ Function.update d.connections n c m = c) ∨
      (m ≠ n ∧ Function.update d.connections n c m = d.connections m) := by
    intro c m
    rcases Decidable.em (m = n) with rfl | hne
    · exact .inl ⟨rfl, Function.update_self _ _ _⟩
    · exact .inr ⟨hne, Function.update_of_ne hne _ _⟩
  have hbare : (d.connections n).spliced = none := by
    by_contra hs
    rw [h.spliced n hs] at hnew
    cases hnew
  have hsilent : (d.connections n).relayed = 0 := by
    by_contra hr
    exact h.relayed n hr hbare
  have hnot : d.admitted ≠ some n := by
    intro hs
    rw [(h.one n).mpr hs] at hnew
    cases hnew
  simp only [DataPort.start]
  split
  · refine ⟨fun m hm => ?_, fun m => ?_, h.accepted, fun m hf => ?_, fun m hs => ?_, fun m hr => ?_, fun m hf => ?_,
      h.handler, fun m hm hh => ?_⟩
    all_goals
      rcases hcases { d.connections n with fate := .refused, closed := true } m with ⟨rfl, he⟩ | ⟨hne, he⟩
    all_goals simp only [setConnection, he] at *
    · omega
    · exact h.fresh m hm
    · exact ⟨nofun, fun hs => absurd hs hnot⟩
    · exact h.one m
    · cases hf
    · exact h.host m hf
    · exact absurd hbare hs
    · exact h.spliced m hs
    · exact absurd hsilent hr
    · exact h.relayed m hr
    · exact h.refused m hf
    · exact h.ended m hm hh
  · next hfree =>
      simp only [Bool.or_eq_true, not_or, Bool.not_eq_true] at hfree
      have hnone : d.admitted = none := by
        by_contra hs
        rw [h.accepted.mpr hs] at hfree
        cases hfree.2
      refine ⟨fun m hm => ?_, fun m => ?_, ⟨fun _ => nofun, fun _ => rfl⟩, fun m hf => ?_, fun m hs => ?_,
        fun m hr => ?_, fun m hf => ?_, fun _ => nofun, fun m hm hh => ?_⟩
      all_goals
        rcases hcases { d.connections n with fate := .admitted } m with ⟨rfl, he⟩ | ⟨hne, he⟩
      all_goals simp only [setConnection, he] at *
      · omega
      · exact h.fresh m hm
      · exact h.one m |>.trans ⟨fun hs => absurd (hnone.symm.trans hs) nofun, fun hs => absurd (Option.some.inj hs) (Ne.symm hne)⟩
      · exact hfree.1
      · exact h.host m hf
      · exact h.spliced m hs
      · exact absurd hsilent hr
      · exact h.relayed m hr
      · cases hf
      · exact h.refused m hf
      · rcases hh with hh | hh <;> cases hh
      · rcases hh with hh | hh <;> cases hh

theorem step (h : d.Inv) {a : Act} (ha : d.step a = some d') : d'.Inv := by
  cases a with
  | bound =>
      cases ha
      exact h.relay ⟨rfl, rfl⟩
  | unbound =>
      cases ha
      exact h.relay ⟨rfl, rfl⟩
  | created =>
      cases ha
      exact h.relay ⟨rfl, rfl⟩
  | arrive peer =>
      obtain ⟨x, hx, rfl⟩ := Option.map_eq_some_iff.mp ha
      simp only [Relay.connect] at hx
      split at hx <;> cases hx
      exact (h.arrive peer).relay ⟨rfl, rfl⟩
  | start n =>
      simp only [DataPort.step] at ha
      split at ha <;> cases ha
      next hn => exact h.start hn.1 hn.2
  | handle =>
      simp only [DataPort.step] at ha
      split at ha
      · next n hn =>
          obtain ⟨x, hx, rfl⟩ := Option.map_eq_some_iff.mp ha
          exact h.handle hn hx
      · cases ha
  | splice =>
      simp only [DataPort.step] at ha
      split at ha
      · next n target hn _ =>
          split at ha <;> cases ha
          exact h.edit hn rfl rfl (fun _ => nofun) id
      · cases ha
  | move bytes =>
      simp only [DataPort.step] at ha
      split at ha
      · next n hn =>
          split at ha <;> cases ha
          next hs => exact h.edit hn rfl rfl (fun _ => hs.2) id
      · cases ha
  | disconnect =>
      obtain ⟨x, hx, rfl⟩ := Option.map_eq_some_iff.mp ha
      simp only [Relay.disconnect] at hx
      split at hx <;> cases hx
      exact h.relay ⟨rfl, rfl⟩
  | supervise timedOut =>
      obtain ⟨x, hx, rfl⟩ := Option.map_eq_some_iff.mp ha
      exact h.relay (Relay.supervise_admission hx)
  | cancelTask =>
      cases ha
      exact h.relay d.relay.cancel_admission
  | cancelHandlers =>
      cases ha
      exact h.relay d.relay.cancelHandler_admission
  | commandSeen =>
      cases ha
      exact h.relay ⟨rfl, rfl⟩
  | setEndpoint host port =>
      simp only [DataPort.step] at ha
      split at ha <;> cases ha
      exact h.relay ⟨rfl, rfl⟩

theorem runs {peerIp : Option String} {owner : Nat} {port : Int}
    (hrun : machine.Runs Machine.Free (DataPort.reserve peerIp owner port) d) : d.Inv :=
  hrun.keeps (reserve peerIp owner port) fun _ _ _ hI hstep _ => hI.step hstep

end Inv

theorem step_peerIp {a : Act} (ha : d.step a = some d') : d'.peerIp = d.peerIp := by
  cases a <;> simp only [step] at ha
  all_goals
    repeat' split at ha
  all_goals first
  | (cases ha; done)
  | (cases ha; rfl)
  | (cases ha; simp only [start]; split <;> rfl)
  | (obtain ⟨x, _, rfl⟩ := Option.map_eq_some_iff.mp ha; rfl)

theorem start_accepts (n : Nat) (hopen : d.relay.connections ≠ 0) :
    d.relay.accept (d.stranger (d.connections n)) = some (d.start n).relay := by
  simp only [Relay.accept, if_neg hopen, start]
  split <;> rfl

end DataPort

end PandaProxy.FtpProxy
