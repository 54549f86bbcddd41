import PandaProxy.FtpProxy.DataChannels
import PandaProxy.FtpProxy.DataConnections
import PandaProxy.FtpProxy.DataPipe
import PandaProxy.FtpProxy.DataPorts

namespace PandaProxy.FtpProxy

open Async FtpQueue

namespace Relay

structure SameSocket (x y : Relay) : Prop where
  owner : y.owner = x.owner
  port : y.port = x.port
  connections : y.connections = x.connections
  accepted : y.accepted = x.accepted

theorem SameSocket.refl (x : Relay) : SameSocket x x := ⟨rfl, rfl, rfl, rfl⟩

theorem cancelHandler_socket (x : Relay) : SameSocket x x.cancelHandler := by
  unfold cancelHandler
  split <;> exact ⟨rfl, rfl, rfl, rfl⟩

theorem cancel_socket (x : Relay) : SameSocket x x.cancel := by
  obtain ⟨howner, hport, hconnections, haccepted⟩ := x.cancelHandler_socket
  unfold cancel
  split
  case h_5 => exact ⟨howner, hport, hconnections, haccepted⟩
  all_goals exact ⟨rfl, rfl, rfl, rfl⟩

theorem teardown_socket (x : Relay) : SameSocket x x.teardown := by
  obtain ⟨howner, hport, hconnections, haccepted⟩ := x.cancelHandler_socket
  unfold teardown waitClosed leave
  simp only
  split
  · exact ⟨howner, hport, hconnections, haccepted⟩
  · split <;> exact ⟨howner, hport, hconnections, haccepted⟩

theorem waitEndpoint_socket (x : Relay) : SameSocket x x.waitEndpoint := by
  have hteardown := x.teardown_socket
  unfold waitEndpoint waitClient waitFinish
  repeat' split
  all_goals first
  | exact .refl x
  | exact hteardown
  | exact ⟨rfl, rfl, rfl, rfl⟩

theorem supervise_socket {x y : Relay} {timedOut : Bool} (h : x.supervise timedOut = some y) : SameSocket x y := by
  have hteardown := x.teardown_socket
  have hendpoint := x.waitEndpoint_socket
  unfold supervise waitCommand waitFinish waitClosed leave at h
  repeat' split at h
  all_goals
    cases h <;> first
    | exact ⟨rfl, rfl, rfl, rfl⟩
    | exact hteardown
    | exact hendpoint

theorem handle_socket {x y : Relay} (h : x.handle = some y) : SameSocket x y := by
  unfold handle at h
  repeat' split at h
  all_goals cases h <;> exact ⟨rfl, rfl, rfl, rfl⟩

end Relay

namespace DataPort

-- A life of a data port that has come to the relay `x`, with no stranger among its connections.
structure Follows (peerIp : Option String) (x : Relay) (d : DataPort) : Prop where
  runs : machine.Runs Machine.Free (.reserve peerIp x.owner x.port) d
  relay : d.relay = x
  arrived : x.connections ≠ 0 → d.arrived ≠ 0
  fresh : x.accepted = false → ∀ n, n < d.arrived → (d.connections n).fate = .new
  known : ∀ n, n < d.arrived → d.stranger (d.connections n) = false

def Followed (peerIp : Option String) (x : Relay) : Prop := ∃ d, Follows peerIp x d

variable {peerIp : Option String} {x y : Relay} {d d' : DataPort} {a : Act}

theorem followed_reserve (peerIp : Option String) (owner : Nat) (port : Int) : Followed peerIp (.reserve owner port) :=
  ⟨.reserve peerIp owner port, .refl, rfl, fun h => absurd rfl h, fun _ _ h => absurd h (Nat.not_lt_zero _),
    fun _ h => absurd h (Nat.not_lt_zero _)⟩

theorem follows_peerIp (h : Follows peerIp x d) : d.peerIp = peerIp :=
  h.runs.keeps (I := fun d => d.peerIp = peerIp) rfl fun _ _ _ hI hstep _ => (step_peerIp hstep).trans hI

theorem Follows.step (h : Follows peerIp x d) (howner : y.owner = x.owner) (hport : y.port = x.port) (hstep : d.step a = some d') :
    machine.Runs Machine.Free (.reserve peerIp y.owner y.port) d' := by
  rw [howner, hport]
  exact h.runs.tail ⟨a, hstep, trivial⟩

theorem Followed.act (h : Followed peerIp x) (hs : Relay.SameSocket x y)
    (hact : ∀ d : DataPort, d.relay = x → d.step a = some { d with relay := y }) : Followed peerIp y := by
  obtain ⟨d, hd⟩ := h
  refine ⟨{ d with relay := y }, hd.step hs.owner hs.port (hact d hd.relay), rfl, ?_, ?_, hd.known⟩
  · rw [hs.connections]
    exact hd.arrived
  · rw [hs.accepted]
    exact hd.fresh

theorem Followed.handle (h : Followed peerIp x) (hy : x.handle = some y) : Followed peerIp y := by
  obtain ⟨d, hd⟩ := h
  have hs := Relay.handle_socket hy
  obtain ⟨_, hbusy, _⟩ := Relay.handle_admission hy
  have hinv := Inv.runs hd.runs
  obtain ⟨n, hn⟩ := Option.ne_none_iff_exists'.mp (hinv.handler (hd.relay ▸ hbusy))
  have hstep : d.step .handle = some (d.handle n y) := by
    simp only [DataPort.step, hn, hd.relay, hy, Option.map_some]
  have hcase : ∀ m, ((d.handle n y).connections m).fate = (d.connections m).fate ∧
      ((d.handle n y).connections m).peer = (d.connections m).peer := by
    intro m
    simp only [DataPort.handle, setConnection, Function.update_apply]
    split
    · next hmn =>
        subst hmn
        exact ⟨rfl, rfl⟩
    · exact ⟨rfl, rfl⟩
  refine ⟨d.handle n y, hd.step hs.owner hs.port hstep, rfl, ?_, fun hnot m hm => ?_, fun m hm => ?_⟩
  · rw [hs.connections]
    exact hd.arrived
  · rw [(hcase m).1]
    exact hd.fresh (hs.accepted ▸ hnot) m hm
  · have hknown := hd.known m hm
    simp only [stranger, (hcase m).2] at hknown ⊢
    exact hknown

theorem Followed.connect (h : Followed peerIp x) (hy : x.connect = some y) : Followed peerIp y := by
  obtain ⟨d, hd⟩ := h
  have hstep : d.step (.arrive peerIp) =
      some { d.setConnection d.arrived { peer := peerIp } with relay := y, arrived := d.arrived + 1 } := by
    simp only [DataPort.step, hd.relay, hy, Option.map_some]
  have hpeer := follows_peerIp hd
  simp only [Relay.connect] at hy
  split at hy <;> cases hy
  have hcase : ∀ m, m < d.arrived + 1 → m = d.arrived ∨ m < d.arrived := fun m hm => by omega
  refine ⟨_, hd.step rfl rfl hstep, rfl, fun _ => Nat.succ_ne_zero _, fun hnot m hm => ?_, fun m hm => ?_⟩
  · rcases hcase m hm with rfl | hlt
    · simp [setConnection]
    · simpa [setConnection, Nat.ne_of_lt hlt] using hd.fresh hnot m hlt
  · rcases hcase m hm with rfl | hlt
    · simp [setConnection, stranger, hpeer]
    · simpa [setConnection, stranger, Nat.ne_of_lt hlt] using hd.known m hlt

theorem Followed.accept (h : Followed peerIp x) {stranger : Bool} (hy : x.accept stranger = some y) : Followed peerIp y := by
  have haccept := hy
  simp only [Relay.accept] at hy
  split at hy
  · cases hy
  next hopen =>
    split at hy <;> cases hy
    · exact h
    next hfree =>
      simp only [Bool.or_eq_true, not_or, Bool.not_eq_true] at hfree
      obtain ⟨d, hd⟩ := h
      have hzero : 0 < d.arrived := Nat.pos_of_ne_zero (hd.arrived hopen)
      have hknown := hd.known 0 hzero
      have hrelay : (d.start 0).relay = { x with accepted := true, handler := .awaitCommand } := by
        have hstart := d.start_accepts 0 (by rw [hd.relay]; exact hopen)
        rw [hknown, hd.relay, ← hfree.1, haccept] at hstart
        exact (Option.some.inj hstart).symm
      have hstep : d.step (.start 0) = some (d.start 0) := if_pos ⟨hzero, hd.fresh hfree.2 0 hzero⟩
      have hplain : d.start 0 = { d.setConnection 0 { d.connections 0 with fate := .admitted } with
          relay := { d.relay with accepted := true, handler := .awaitCommand }, admitted := some 0 } := by
        simp only [DataPort.start, hknown, hd.relay, hfree.2, Bool.or_self, Bool.false_eq_true, if_false]
      refine ⟨d.start 0, hd.step rfl rfl hstep, hrelay, fun _ => ?_, ?_, fun m hm => ?_⟩
      · rw [hplain]
        exact hd.arrived hopen
      · rintro ⟨⟩
      · rw [hplain] at hm ⊢
        have hm' := hd.known m hm
        by_cases hm0 : m = 0
        · subst hm0
          simpa [DataPort.stranger, setConnection] using hm'
        · simpa [DataPort.stranger, setConnection, hm0] using hm'

theorem Followed.disconnect (h : Followed peerIp x) (hy : x.disconnect = some y) : Followed peerIp y := by
  obtain ⟨d, hd⟩ := h
  have hstep : d.step .disconnect = some { d with relay := y } := by
    simp only [DataPort.step, hd.relay, hy, Option.map_some]
  simp only [Relay.disconnect] at hy
  split at hy <;> cases hy
  next hopen => exact ⟨_, hd.step rfl rfl hstep, rfl, fun _ => hd.arrived hopen, hd.fresh, hd.known⟩

theorem Followed.turn (h : Followed peerIp x) (hy : x.Turn y) : Followed peerIp y := by
  cases hy with
  | supervise timedOut hy =>
      refine h.act (a := .supervise timedOut) (Relay.supervise_socket hy) fun d hd => ?_
      simp only [DataPort.step, hd, hy, Option.map_some]
  | handle hy => exact h.handle hy
  | connect hy => exact h.connect hy
  | accept stranger hy => exact h.accept hy
  | disconnect hy => exact h.disconnect hy

end DataPort

namespace Proxy

-- Every reserved port is one that a data port may have come to, for whatever host its session has.
def Ported (peerIp : Nat → Option String) (e : Proxy) : Prop :=
  ∀ n, n < e.reserved → DataPort.Followed (peerIp (e.relays n).owner) (e.relays n)

variable {peerIp : Nat → Option String} {e e' : Proxy} {j n : Nat} {x : Relay}

theorem Ported.same (h : Ported peerIp e) (hs : SameRelays e e') : Ported peerIp e' := by
  intro m hm
  rw [hs.relays]
  exact h m (hs.reserved ▸ hm)

theorem Ported.setRelay (h : Ported peerIp e)
    (hx : n < e.reserved → DataPort.Followed (peerIp (e.relays n).owner) (e.relays n) → DataPort.Followed (peerIp x.owner) x) :
    Ported peerIp (e.setRelay n x) := by
  intro m hm
  by_cases hmn : m = n
  · subst hmn
    simpa [Proxy.setRelay] using hx hm (h m hm)
  · simpa [Proxy.setRelay, hmn] using h m hm

theorem Ported.act (h : Ported peerIp e) {a : DataPort.Act} (hs : Relay.SameSocket (e.relays n) x)
    (hact : ∀ d : DataPort, d.relay = e.relays n → d.step a = some { d with relay := x }) : Ported peerIp (e.setRelay n x) := by
  refine h.setRelay fun _ hfollowed => ?_
  rw [hs.owner]
  exact hfollowed.act hs hact

theorem Ported.reserve (h : Ported peerIp e) (j : Nat) : Ported peerIp (e.reserve j).2 := by
  rcases reserve_cases e j with hnone | ⟨port, free, e', hport, hreserves⟩
  · rw [hnone]
    exact h
  · rw [hport]
    intro n hn
    rcases hreserves.cases hn with rfl | hlt
    · rw [hreserves.fresh]
      exact DataPort.followed_reserve _ j port
    · rw [hreserves.old n hlt]
      exact h n hlt

theorem sync_ported {i : Op} {r : Except Exc i.Answer} (h : Ported peerIp e) (hs : sync j i e = some (r, e')) : Ported peerIp e' := by
  cases hi : relayOp i with
  | false => exact h.same (sync_relays hi hs)
  | true =>
      cases i <;> simp only [relayOp, Bool.false_eq_true] at hi <;> simp only [sync] at hs
      case acquirePort =>
        cases hs
        exact h.reserve j
      case releasePort port =>
        cases hs
        unfold unbind
        split
        · exact h.act (a := .unbound) ⟨rfl, rfl, rfl, rfl⟩ fun d hd => by rw [DataPort.step, hd]
        · exact h
      case startServer port => cases hs
      case createSupervisor port =>
        split at hs <;> cases hs
        · exact h.act (a := .created) ⟨rfl, rfl, rfl, rfl⟩ fun d hd => by rw [DataPort.step, hd]
        · exact h
      case setCommandSeen n =>
        cases hs
        exact h.act (a := .commandSeen) ⟨rfl, rfl, rfl, rfl⟩ fun d hd => by rw [DataPort.step, hd]
      case setEndpoint n host port =>
        split at hs <;> cases hs
        · exact h
        · next hpending =>
            refine h.act (a := .setEndpoint host port) ⟨rfl, rfl, rfl, rfl⟩ fun d hd => ?_
            rw [DataPort.step, hd, if_neg hpending]
      case cancelHandlers n =>
        cases hs
        exact h.act (a := .cancelHandlers) (Relay.cancelHandler_socket _) fun d hd => by rw [DataPort.step, hd]
      case cancelTask n =>
        cases hs
        exact h.act (a := .cancelTask) (Relay.cancel_socket _) fun d hd => by rw [DataPort.step, hd]

theorem resume_ported {i : Op} {r : Except Exc i.Answer} (h : Ported peerIp e) (hs : resume j i r e = some e') : Ported peerIp e' := by
  cases hi : relayOp i with
  | false => exact h.same (resume_relays hi hs)
  | true =>
      cases i <;> simp only [relayOp, Bool.false_eq_true] at hi
      case startServer port =>
        cases r with
        | ok _ =>
            obtain ⟨n, _, rfl⟩ := Option.map_eq_some_iff.mp hs
            exact h.act (a := .bound) ⟨rfl, rfl, rfl, rfl⟩ fun d hd => by rw [DataPort.step, hd]
        | error x =>
            cases hs
            exact h
      all_goals
        simp only [resume] at hs
        cases hs

theorem tick_ported {b : Tick} (h : Ported peerIp e) (hs : e.tick b = some e') : Ported peerIp e' := by
  by_cases hb : uncancelling b
  · have ht := tick_ticks hb hs
    intro n hn
    rw [ht.reserved] at hn
    rcases ht.turns n with hsame | hturn
    · rw [hsame]
      exact h n hn
    · rw [hturn.owner]
      exact (h n hn).turn hturn
  · cases b <;> simp only [uncancelling, not_true_eq_false] at hb
    case cancelSupervise n =>
      simp only [Proxy.tick, onRelay] at hs
      split at hs <;> cases hs
      exact h.act (a := .cancelTask) (Relay.cancel_socket _) fun d hd => by rw [DataPort.step, hd]

end Proxy

-- Whatever the sessions do: a relay of the proxy is where some life of a data port has come to.
theorem relays_are_data_ports {clients : Clients} {queue : SessionQueue} {pool : DataPortPool} {c : FtpConfig} {n : Nat}
    (hrun : (ftpProxy clients).Runs (fun _ _ _ => True) (startup queue pool) c) (hn : n < c.env.reserved) (peerIp : Nat → Option String) :
    ∃ d, DataPort.machine.Runs Machine.Free
        (.reserve (peerIp (c.env.relays n).owner) (c.env.relays n).owner (c.env.relays n).port) d ∧ d.relay = c.env.relays n := by
  have hported : Proxy.Ported peerIp c.env := by
    clear hn
    induction hrun with
    | refl => exact fun _ h => absurd h (Nat.not_lt_zero _)
    | tail _ hstep ih =>
        obtain ⟨a, ha, _⟩ := hstep
        refine System.step_keeps (X := Proxy.Ported peerIp) _ ?_ ?_ ?_ ?_ ha ih
        · intro j e s e' h hs
          cases hs
          exact h
        · exact fun j i e r e' _ h hs => Proxy.sync_ported h hs
        · exact fun j i r e e' _ h hs => Proxy.resume_ported h hs
        · exact fun b e e' h hs => Proxy.tick_ported h hs
  obtain ⟨d, hd⟩ := hported n hn
  exact ⟨d, hd.runs, hd.relay⟩

theorem handled_accepted {clients : Clients} {queue : SessionQueue} {pool : DataPortPool} {c : FtpConfig} {n : Nat}
    (hrun : (ftpProxy clients).Runs (fun _ _ _ => True) (startup queue pool) c) (hn : n < c.env.reserved)
    (hhandler : (c.env.relays n).handler ≠ .absent) : (c.env.relays n).accepted = true := by
  obtain ⟨d, hd, hrelay⟩ := relays_are_data_ports hrun hn fun _ => none
  have hinv := DataPort.Inv.runs hd
  rw [← hrelay] at hhandler ⊢
  exact hinv.accepted.mpr (hinv.handler hhandler)

namespace DataPipe

def uploaded (bytes : Nat) : DataPipe := init.setLane .clientToPrinter fun l => { l with moved := bytes }

def closed : List PipeAct := [.stallCancelled, .proceed, .proceed, .proceed]

theorem uploaded_runs (bytes : Nat) : machine.Runs Machine.Free init (uploaded bytes) := by
  induction bytes with
  | zero =>
      have hinit : uploaded 0 = init := by
        simp only [uploaded, setLane]
        congr 1
        exact Function.update_eq_self _ _
      rw [hinit]
      exact .refl
  | succ bytes ih =>
      have hstep : machine.play (uploaded bytes) [.chunk .clientToPrinter 1, .drained .clientToPrinter] =
          some (uploaded (bytes + 1)) := by
        simp [Machine.play, machine, DataPipe.step, uploaded, relay, setLane, Lane.relay, init, dataChunk]
      exact ih.trans (Machine.play_runs hstep)

theorem moved_any (moved : Option Nat) : ∃ c, machine.Runs Machine.Free init c ∧ c.stage = .finished ∧ c.dataMoved = moved := by
  cases moved with
  | none =>
      have hplay : ((machine.play init (.cancelRelay :: .takeCancel .clientToPrinter :: .takeCancel .printerToClient :: closed)).map fun c => (c.stage, c.dataMoved)) = some (.finished, none) := by
        decide +kernel
      obtain ⟨c, hc, hmoved⟩ := Option.map_eq_some_iff.mp hplay
      obtain ⟨hstage, hdata⟩ := Prod.mk.inj hmoved
      exact ⟨c, Machine.play_runs hc, hstage, hdata⟩
  | some bytes =>
      have hplay : ((machine.play (uploaded bytes) (.eof .clientToPrinter true :: .eof .printerToClient true :: .proceed :: closed)).map
          fun c => (c.stage, c.dataMoved)) = some (.finished, some (max bytes 0 - min bytes 0)) := by
        rfl
      obtain ⟨c, hc, hmoved⟩ := Option.map_eq_some_iff.mp hplay
      obtain ⟨hstage, hdata⟩ := Prod.mk.inj hmoved
      exact ⟨c, (uploaded_runs bytes).trans (Machine.play_runs hc), hstage, hdata.trans (by simp)⟩

end DataPipe

-- The handler of a data connection leaves behind what a pipe comes to, and whatever a pipe comes to.
theorem handled_iff_piped {e e' : Proxy} {n : Nat} : (∃ moved, e.tick (.handle n moved) = some e') ↔
    ∃ c, DataPipe.machine.Runs Machine.Free .init c ∧ c.stage = .finished ∧ e.tick (.handle n c.dataMoved) = some e' := by
  constructor
  · rintro ⟨moved, hstep⟩
    obtain ⟨c, hc, hstage, hmoved⟩ := DataPipe.moved_any moved
    exact ⟨c, hc, hstage, hmoved.symm ▸ hstep⟩
  · rintro ⟨c, _, _, hstep⟩
    exact ⟨c.dataMoved, hstep⟩

end PandaProxy.FtpProxy
