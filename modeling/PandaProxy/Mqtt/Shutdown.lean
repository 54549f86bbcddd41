import PandaProxy.Camera.Dismissal
import PandaProxy.Mqtt.Broadcast

namespace PandaProxy.Mqtt

open Async Python

-- Where `_client_send_loop` is.
inductive SendLoop where
  | getting
  | writing
  | finished

structure LoopClient (α : Type) where
  clientId : String
  queue : List (Option α)
  loop : SendLoop
  closed : Bool

-- `MQTTProxy` as its send loops and its `stop` see it.
structure ClientLoops (α : Type) where
  running : Bool
  clients : Dict String Nat
  clientWriters : Dict String Nat
  conn : Nat → LoopClient α
  accepted : Nat

namespace ClientLoops

variable {α : Type}

def init : ClientLoops α := ⟨true, [], [], fun _ => ⟨"", [], .finished, true⟩, 0⟩

def setConn (s : ClientLoops α) (c : Nat) (x : LoopClient α) : ClientLoops α :=
  { s with conn := Function.update s.conn c x }

def forget (s : ClientLoops α) (clientId : String) : ClientLoops α :=
  { s with clients := Dict.pop s.clients clientId, clientWriters := Dict.pop s.clientWriters clientId }

-- `put_nowait`; `none` is the `QueueFull`.
def putNowait (s : ClientLoops α) (c : Nat) (item : Option α) : Option (ClientLoops α) :=
  if (s.conn c).queue.length < clientQueueSize then
    some (s.setConn c { s.conn c with queue := (s.conn c).queue ++ [item] })
  else none

def register (s : ClientLoops α) (clientId : String) : ClientLoops α :=
  { s.setConn s.accepted ⟨clientId, [], .getting, false⟩ with
    clients := Dict.set s.clients clientId s.accepted
    clientWriters := Dict.set s.clientWriters clientId s.accepted
    accepted := s.accepted + 1 }

def closeWriter (s : ClientLoops α) (c : Nat) : ClientLoops α := s.setConn c { s.conn c with closed := true }

def deliver (s : ClientLoops α) (clientId : String) (c : Nat) (packet : α) : ClientLoops α :=
  match s.putNowait c (some packet) with
  | some s => s
  | none =>
      match Dict.get s.clientWriters clientId with
      | some writer => (s.forget clientId).closeWriter writer
      | none => s.forget clientId

-- The sentinel, unless the queue is full.
def signal (s : ClientLoops α) (c : Nat) : ClientLoops α := (s.putNowait c none).getD s

-- The first two steps of `stop`.
def stop (s : ClientLoops α) : ClientLoops α := (s.clients.map Prod.snd).foldl signal { s with running := false }

inductive Act (α : Type) where
  | register (clientId : String)
  -- The `finally` clause of a handler that had no address to advertise.
  | refuse (clientId : String)
  | deliver (clientId : String) (c : Nat) (packet : α)
  | stop
  | get (c : Nat)
  | drained (c : Nat)
  -- `write` or `drain` raises, or the task is cancelled since `_client_recv_loop` has ended.
  | finish (c : Nat)
  | leave (c : Nat)

def step (s : ClientLoops α) : Act α → Option (ClientLoops α)
  | .register clientId => some (s.register clientId)
  | .refuse clientId => some (s.forget clientId)
  | .deliver clientId c packet => some (s.deliver clientId c packet)
  | .stop => some s.stop
  | .get c =>
      match (s.conn c).loop, (s.conn c).queue with
      | .getting, none :: queue => some (s.setConn c { s.conn c with queue := queue, loop := .finished })
      | .getting, some _ :: queue => some (s.setConn c { s.conn c with queue := queue, loop := .writing })
      | _, _ => none
  | .drained c =>
      match (s.conn c).loop with
      | .writing => some (s.setConn c { s.conn c with loop := .getting })
      | _ => none
  | .finish c => some (s.setConn c { s.conn c with loop := .finished })
  | .leave c =>
      match (s.conn c).loop with
      | .finished => some ((s.forget (s.conn c).clientId).closeWriter c)
      | _ => none

def machine (α : Type) : Machine (ClientLoops α) (Act α) := ⟨step⟩

def Registered (s : ClientLoops α) (c : Nat) : Prop := c ∈ s.clients.map Prod.snd

structure Blocked (s : ClientLoops α) (c : Nat) : Prop where
  getting : (s.conn c).loop = .getting
  empty : (s.conn c).queue = []
  unclosed : (s.conn c).closed = false

inductive Ending (s : ClientLoops α) (c : Nat) : Prop where
  | finished (h : (s.conn c).loop = .finished)
  | closed (h : (s.conn c).closed = true)
  | sentinel (h : none ∈ (s.conn c).queue)

-- What `stop` finds has room for the sentinel, or needs none.
def Heeds (s : ClientLoops α) (c : Nat) : Prop := (s.conn c).queue.length < clientQueueSize ∨ s.Ending c

variable {s s' : ClientLoops α} {c k : Nat} {item : Option α}

theorem setConn_self {x : LoopClient α} : (s.setConn c x).conn c = x := Function.update_self _ _ _

theorem setConn_ne {x : LoopClient α} (h : k ≠ c) : (s.setConn c x).conn k = s.conn k := Function.update_of_ne h _ _

theorem Ending.not_blocked (h : s.Ending c) : ¬ s.Blocked c := by
  rintro ⟨hgetting, hempty, hunclosed⟩
  cases h with
  | finished h =>
      rw [hgetting] at h
      cases h
  | closed h =>
      rw [hunclosed] at h
      cases h
  | sentinel h =>
      rw [hempty] at h
      cases h

theorem Ending.same (h : s.Ending c) (hconn : s'.conn c = s.conn c) : s'.Ending c := by
  cases h with
  | finished h => exact .finished (hconn ▸ h)
  | closed h => exact .closed (hconn ▸ h)
  | sentinel h => exact .sentinel (hconn ▸ h)

theorem putNowait_cases (s : ClientLoops α) (c : Nat) (item : Option α) :
    (s.putNowait c item = some (s.setConn c { s.conn c with queue := (s.conn c).queue ++ [item] }) ∧
      (s.conn c).queue.length < clientQueueSize) ∨
    (s.putNowait c item = none ∧ ¬ (s.conn c).queue.length < clientQueueSize) := by
  unfold putNowait
  split
  · next h => exact .inl ⟨rfl, h⟩
  · next h => exact .inr ⟨rfl, h⟩

theorem Ending.queued (h : s.Ending c) : (s.setConn k { s.conn k with queue := (s.conn k).queue ++ [item] }).Ending c := by
  by_cases hck : c = k
  · subst hck
    cases h with
    | finished h => exact .finished (by rw [setConn_self]; exact h)
    | closed h => exact .closed (by rw [setConn_self]; exact h)
    | sentinel h => exact .sentinel (by rw [setConn_self]; exact List.mem_append_left _ h)
  · exact h.same (setConn_ne hck)

theorem Ending.deliver {clientId : String} {packet : α} (h : s.Ending c) : (s.deliver clientId k packet).Ending c := by
  unfold ClientLoops.deliver
  rcases s.putNowait_cases k (some packet) with ⟨hput, _⟩ | ⟨hfull, _⟩
  · rw [hput]
    exact h.queued
  · rw [hfull]
    dsimp only
    split
    · next writer _ =>
        by_cases hcw : c = writer
        · subst hcw
          exact .closed (by rw [closeWriter, setConn_self])
        · exact h.same (setConn_ne hcw)
    · exact h.same rfl

theorem signal_cases (s : ClientLoops α) (c : Nat) :
    s.signal c = s.setConn c { s.conn c with queue := (s.conn c).queue ++ [none] } ∧
        (s.conn c).queue.length < clientQueueSize ∨
      s.signal c = s ∧ ¬ (s.conn c).queue.length < clientQueueSize := by
  rcases s.putNowait_cases c none with ⟨hput, hlt⟩ | ⟨hfull, hge⟩
  · exact .inl ⟨by rw [signal, hput]; rfl, hlt⟩
  · exact .inr ⟨by rw [signal, hfull]; rfl, hge⟩

theorem Ending.signals (ks : List Nat) (h : s.Ending c) :
    (ks.foldl signal s).Ending c := by
  induction ks generalizing s with
  | nil => exact h
  | cons k ks ih =>
      rw [List.foldl_cons]
      refine ih ?_
      rcases s.signal_cases k with ⟨hput, _⟩ | ⟨hsame, _⟩
      · rw [hput]
        exact h.queued
      · rw [hsame]
        exact h

theorem signals_heeded (ks : List Nat) (hc : c ∈ ks) (h : s.Heeds c) :
    (ks.foldl signal s).Ending c := by
  induction ks generalizing s with
  | nil => cases hc
  | cons k ks ih =>
      rcases h with hroom | hending
      · rw [List.foldl_cons]
        by_cases hck : c = k
        · subst hck
          refine Ending.signals ks ?_
          rcases s.signal_cases c with ⟨hput, _⟩ | ⟨_, hfull⟩
          · rw [hput]
            exact .sentinel (by rw [setConn_self]; exact List.mem_append_right _ List.mem_cons_self)
          · exact absurd hroom hfull
        · refine ih ((List.mem_cons.mp hc).resolve_left hck) (.inl ?_)
          rcases s.signal_cases k with ⟨hput, _⟩ | ⟨hsame, _⟩
          · rw [hput, setConn_ne hck]
            exact hroom
          · rw [hsame]
            exact hroom
      · exact hending.signals (k :: ks)

theorem signals_full (ks : List Nat) (h : ¬ (s.conn c).queue.length < clientQueueSize) :
    (ks.foldl signal s).conn c = s.conn c := by
  induction ks generalizing s with
  | nil => rfl
  | cons k ks ih =>
      rw [List.foldl_cons]
      rcases s.signal_cases k with ⟨hput, hroom⟩ | ⟨hsame, _⟩
      · have hck : c ≠ k := by
          rintro rfl
          exact h hroom
        have hconn := setConn_ne (s := s) (x := { s.conn k with queue := (s.conn k).queue ++ [none] }) hck
        rw [hput, ih (by rw [hconn]; exact h), hconn]
      · rw [hsame, ih h]

theorem Ending.setConn {x : LoopClient α} (h : s.Ending c) (hx : (s.setConn k x).Ending k) : (s.setConn k x).Ending c := by
  by_cases hck : c = k
  · subst hck
    exact hx
  · exact h.same (setConn_ne hck)

theorem Ending.step {a : Act α} (h : s.Ending c) (hc : c < s.accepted) (hstep : s.step a = some s') : s'.Ending c := by
  cases a with
  | register clientId =>
      cases hstep
      exact h.same (setConn_ne (Nat.ne_of_lt hc))
  | refuse clientId =>
      cases hstep
      exact h.same rfl
  | deliver clientId k packet =>
      cases hstep
      exact h.deliver
  | stop =>
      cases hstep
      exact Ending.signals (s := { s with running := false }) _ (h.same rfl)
  | get k =>
      simp only [ClientLoops.step] at hstep
      split at hstep
      · cases hstep
        exact h.setConn (.finished (by rw [setConn_self]))
      · next packet queue hloop hqueue =>
          cases hstep
          by_cases hck : c = k
          · subst hck
            cases h with
            | finished h =>
                rw [hloop] at h
                cases h
            | closed h => exact .closed (by rw [setConn_self]; exact h)
            | sentinel h =>
                rw [hqueue] at h
                exact .sentinel (by rw [setConn_self]; exact (List.mem_cons.mp h).resolve_left nofun)
          · exact h.same (setConn_ne hck)
      · cases hstep
  | drained k =>
      simp only [ClientLoops.step] at hstep
      split at hstep
      · next hloop =>
          cases hstep
          by_cases hck : c = k
          · subst hck
            cases h with
            | finished h =>
                rw [hloop] at h
                cases h
            | closed h => exact .closed (by rw [setConn_self]; exact h)
            | sentinel h => exact .sentinel (by rw [setConn_self]; exact h)
          · exact h.same (setConn_ne hck)
      · cases hstep
  | finish k =>
      cases hstep
      exact h.setConn (.finished (by rw [setConn_self]))
  | leave k =>
      simp only [ClientLoops.step] at hstep
      split at hstep
      · cases hstep
        exact Ending.setConn (s := s.forget _) (h.same rfl) (.closed (by rw [setConn_self]))
      · cases hstep

structure Numbered (s : ClientLoops α) : Prop where
  accepted : ∀ c, s.Registered c → c < s.accepted

theorem signals_same (ks : List Nat) : (ks.foldl signal s).clients = s.clients ∧ (ks.foldl signal s).accepted = s.accepted := by
  induction ks generalizing s with
  | nil => exact ⟨rfl, rfl⟩
  | cons k ks ih =>
      rw [List.foldl_cons, ih.1, ih.2]
      rcases s.signal_cases k with ⟨hput, _⟩ | ⟨hsame, _⟩
      · rw [hput]
        exact ⟨rfl, rfl⟩
      · rw [hsame]
        exact ⟨rfl, rfl⟩

theorem registered_forget {id : String} (h : (s.forget id).Registered c) : s.Registered c := by
  obtain ⟨p, hp, rfl⟩ := List.mem_map.mp h
  exact List.mem_map.mpr ⟨p, (Dict.mem_pop.mp hp).1, rfl⟩

theorem Numbered.fewer (h : s.Numbered) (haccepted : s'.accepted = s.accepted) (hfewer : ∀ c, s'.Registered c → s.Registered c) :
    s'.Numbered :=
  ⟨fun c hc => haccepted ▸ h.accepted c (hfewer c hc)⟩

theorem Numbered.step {a : Act α} (h : s.Numbered) (hstep : s.step a = some s') : s'.Numbered := by
  cases a with
  | register clientId =>
      cases hstep
      refine ⟨fun c hc => ?_⟩
      obtain ⟨⟨id, c⟩, hp, rfl⟩ := List.mem_map.mp hc
      rcases Dict.mem_set hp with he | hp
      · cases he
        exact Nat.lt_succ_self _
      · exact Nat.lt_succ_of_lt (h.accepted c (List.mem_map.mpr ⟨_, hp, rfl⟩))
  | refuse clientId =>
      cases hstep
      exact h.fewer rfl fun _ => registered_forget
  | deliver clientId k packet =>
      cases hstep
      unfold ClientLoops.deliver
      rcases s.putNowait_cases k (some packet) with ⟨hput, _⟩ | ⟨hfull, _⟩
      · rw [hput]
        exact h.fewer rfl fun _ => id
      · rw [hfull]
        dsimp only
        split
        · exact h.fewer rfl fun _ => registered_forget
        · exact h.fewer rfl fun _ => registered_forget
  | stop =>
      cases hstep
      obtain ⟨hclients, haccepted⟩ := signals_same (s := { s with running := false }) (s.clients.map Prod.snd)
      refine h.fewer haccepted fun c hc => ?_
      rwa [Registered, stop, hclients] at hc
  | get k =>
      simp only [ClientLoops.step] at hstep
      split at hstep <;> cases hstep
      · exact h.fewer rfl fun _ => id
      · exact h.fewer rfl fun _ => id
  | drained k =>
      simp only [ClientLoops.step] at hstep
      split at hstep <;> cases hstep
      exact h.fewer rfl fun _ => id
  | finish k =>
      cases hstep
      exact h.fewer rfl fun _ => id
  | leave k =>
      simp only [ClientLoops.step] at hstep
      split at hstep <;> cases hstep
      exact h.fewer rfl fun _ => registered_forget

theorem accepted_le {a : Act α} (hstep : s.step a = some s') : s.accepted ≤ s'.accepted := by
  cases a with
  | register clientId =>
      cases hstep
      exact Nat.le_succ _
  | refuse clientId =>
      cases hstep
      exact Nat.le_refl _
  | deliver clientId k packet =>
      cases hstep
      unfold ClientLoops.deliver
      rcases s.putNowait_cases k (some packet) with ⟨hput, _⟩ | ⟨hfull, _⟩
      · rw [hput]
        exact Nat.le_refl _
      · rw [hfull]
        dsimp only
        split <;> exact Nat.le_refl _
  | stop =>
      cases hstep
      exact Nat.le_of_eq (signals_same (s := { s with running := false }) _).2.symm
  | get k =>
      simp only [ClientLoops.step] at hstep
      split at hstep <;> cases hstep <;> exact Nat.le_refl _
  | drained k =>
      simp only [ClientLoops.step] at hstep
      split at hstep <;> cases hstep
      exact Nat.le_refl _
  | finish k =>
      cases hstep
      exact Nat.le_refl _
  | leave k =>
      simp only [ClientLoops.step] at hstep
      split at hstep <;> cases hstep
      exact Nat.le_refl _

theorem drains_getting {queue : List (Option α)} (hqueue : (s.conn c).queue = queue) (hloop : (s.conn c).loop = .getting)
    (hclosed : (s.conn c).closed = false) (hnone : none ∉ queue) :
    ∃ s', (machine α).Runs Machine.Free s s' ∧ s'.Blocked c := by
  induction queue generalizing s with
  | nil => exact ⟨s, .refl, hloop, hqueue, hclosed⟩
  | cons item queue ih =>
      rw [List.mem_cons, not_or] at hnone
      cases item with
      | none => exact absurd rfl hnone.1
      | some packet =>
          have hget : s.step (.get c) = some (s.setConn c { s.conn c with queue := queue, loop := .writing }) := by
            simp only [ClientLoops.step, hloop, hqueue]
          generalize hs₁ : s.setConn c { s.conn c with queue := queue, loop := .writing } = s₁ at hget
          have hconn₁ : s₁.conn c = { s.conn c with queue := queue, loop := .writing } := hs₁ ▸ setConn_self
          have hdrained : s₁.step (.drained c) = some (s₁.setConn c { s₁.conn c with loop := .getting }) := by
            simp only [ClientLoops.step, hconn₁]
          generalize hs₂ : s₁.setConn c { s₁.conn c with loop := .getting } = s₂ at hdrained
          have hconn₂ : s₂.conn c = { s.conn c with queue := queue, loop := .getting } := by
            rw [← hs₂, setConn_self, hconn₁]
          obtain ⟨s', hruns, hblocked⟩ := ih (s := s₂) (by rw [hconn₂]) (by rw [hconn₂]) (by rw [hconn₂]; exact hclosed) hnone.2
          exact ⟨s', .head ⟨.get c, hget, trivial⟩ (.head ⟨.drained c, hdrained, trivial⟩ hruns), hblocked⟩

theorem drains (hloop : (s.conn c).loop ≠ .finished) (hclosed : (s.conn c).closed = false) (hnone : none ∉ (s.conn c).queue) :
    ∃ s', (machine α).Runs Machine.Free s s' ∧ s'.Blocked c := by
  cases h : (s.conn c).loop with
  | finished => exact absurd h hloop
  | getting => exact drains_getting rfl h hclosed hnone
  | writing =>
      have hdrained : s.step (.drained c) = some (s.setConn c { s.conn c with loop := .getting }) := by
        simp only [ClientLoops.step, h]
      generalize hs₁ : s.setConn c { s.conn c with loop := .getting } = s₁ at hdrained
      have hconn : s₁.conn c = { s.conn c with loop := .getting } := hs₁ ▸ setConn_self
      obtain ⟨s', hruns, hblocked⟩ := drains_getting (s := s₁) (c := c) (by rw [hconn])
        (by rw [hconn]) (by rw [hconn]; exact hclosed) hnone
      exact ⟨s', .head ⟨.drained c, hdrained, trivial⟩ hruns, hblocked⟩

theorem fills (clientId : String) (packet : α) {n : Nat} (hn : n ≤ clientQueueSize) :
    ∃ s, (machine α).Runs Machine.Free .init s ∧ s.clients = [(clientId, 0)] ∧
      s.conn 0 = ⟨clientId, List.replicate n (some packet), .getting, false⟩ := by
  induction n with
  | zero => exact ⟨_, .single ⟨.register clientId, rfl, trivial⟩, rfl, setConn_self (s := .init) (c := 0)⟩
  | succ n ih =>
      obtain ⟨s, hruns, hclients, hconn⟩ := ih (Nat.le_of_succ_le hn)
      rcases s.putNowait_cases 0 (some packet) with ⟨hput, _⟩ | ⟨_, hfull⟩
      · refine ⟨_, hruns.tail ⟨.deliver clientId 0 packet, rfl, trivial⟩, ?_, ?_⟩
        · simp only [ClientLoops.deliver, hput]
          exact hclients
        · simp only [ClientLoops.deliver, hput]
          rw [setConn_self, hconn, List.replicate_succ']
      · refine absurd hn (Nat.not_le.mpr ?_)
        rw [hconn, List.length_replicate] at hfull
        omega

end ClientLoops

open ClientLoops

-- `StreamFanout.stop` dismisses every client; the second step of `MQTTProxy.stop` those it finds room for.
structure ShutdownSignals (α : Type) : Prop where
  camera : ∀ s a s', Camera.Chamber.machine.Runs Machine.Free .init s → s.step a = some s' → s.Stops a s' →
    ∀ k, s.fanout.registered k → ∀ s'', Camera.Chamber.machine.Runs Machine.Free s' s'' → ¬ s''.Blocked k
  mqtt : ∀ s, (machine α).Runs Machine.Free .init s →
    ((∀ c, s.Registered c → ∀ s', (machine α).Runs Machine.Free s.stop s' → ¬ s'.Blocked c) ↔
      ∀ c, s.Registered c → s.Heeds c)

theorem shutdown_signals (α : Type) : ShutdownSignals α where
  camera _ _ _ hrun hstep hstops _ hk _ hlater := Camera.Chamber.dismissed_for_good hrun hstep hstops hk hlater
  mqtt s hrun := by
    have hnumbered : s.Numbered :=
      hrun.keeps (I := fun s => s.Numbered) ⟨nofun⟩ fun _ _ _ h hstep _ => h.step hstep
    constructor
    · intro hnever c hc
      by_contra hheeds
      rw [Heeds, not_or] at hheeds
      obtain ⟨hfull, hnot⟩ := hheeds
      have hconn : s.stop.conn c = s.conn c := signals_full (s := { s with running := false }) _ hfull
      obtain ⟨s', hlater, hblocked⟩ := drains (s := s.stop) (c := c) (fun h => hnot (.finished (hconn ▸ h)))
        (by
          cases hclosed : (s.stop.conn c).closed with
          | false => rfl
          | true => exact absurd (.closed (hconn ▸ hclosed)) hnot)
        (fun h => hnot (.sentinel (hconn ▸ h)))
      exact hnever c hc s' hlater hblocked
    · intro hheeds c hc s' hlater
      have hending : s.stop.Ending c := by
        refine signals_heeded (s := { s with running := false }) _ hc ?_
        rcases hheeds c hc with hroom | hending
        · exact .inl hroom
        · exact .inr (hending.same rfl)
      have hlast : c < s'.accepted ∧ s'.Ending c := by
        refine hlater.keeps (I := fun s => c < s.accepted ∧ s.Ending c) ⟨?_, hending⟩ ?_
        · exact (signals_same (s := { s with running := false }) _).2 ▸ hnumbered.accepted c hc
        · exact fun _ _ _ h hstep _ => ⟨Nat.lt_of_lt_of_le h.1 (accepted_le hstep), h.2.step h.1 hstep⟩
      exact hlast.2.not_blocked

theorem shutdown_signals_three : ∃ s s', Camera.Chamber.machine.play .init Camera.Chamber.oneFrameActs = some s ∧
    s.step .stop = some s' ∧ (∀ s'', Camera.Chamber.machine.Runs Machine.Free s' s'' → ¬ s''.Blocked 0 ∧ ¬ s''.Blocked 1) ∧
    ∃ t : ClientLoops (List UInt8), (machine (List UInt8)).play .init
        [.register "10.0.0.5:4711", .deliver "10.0.0.5:4711" 0 [0xD0, 0], .get 0] = some t ∧
      ∀ t', (machine (List UInt8)).Runs Machine.Free t.stop t' → ¬ t'.Blocked 0 := by
  have hclients : ((Camera.Chamber.machine.play .init Camera.Chamber.oneFrameActs).map fun s => s.fanout.clients) =
      some [("a", 0), ("b", 1)] := by
    decide +kernel
  obtain ⟨s, hs, hregistered⟩ := Option.map_eq_some_iff.mp hclients
  have hrun := Machine.play_runs hs
  obtain ⟨s', hstop⟩ : ∃ s', s.step .stop = some s' := ⟨_, rfl⟩
  have hdismissed : ∀ k, s.fanout.registered k → ∀ s'', Camera.Chamber.machine.Runs Machine.Free s' s'' → ¬ s''.Blocked k :=
    (shutdown_signals (List UInt8)).camera s .stop s' hrun hstop (.inl rfl)
  have hqueue : (((machine (List UInt8)).play .init
      [.register "10.0.0.5:4711", .deliver "10.0.0.5:4711" 0 [0xD0, 0], .get 0]).map fun t => (t.clients, (t.conn 0).queue)) =
        some ([("10.0.0.5:4711", 0)], []) := by
    decide +kernel
  obtain ⟨t, ht, hleft⟩ := Option.map_eq_some_iff.mp hqueue
  obtain ⟨hnamed, hempty⟩ := Prod.mk.inj hleft
  have hheeds : ∀ c, t.Registered c → t.Heeds c := by
    intro c hc
    have hzero : c = 0 := by simpa [Registered, hnamed] using hc
    subst hzero
    left
    rw [hempty]
    exact Nat.zero_lt_succ _
  refine ⟨s, s', hs, hstop, fun s'' hlater => ⟨?_, ?_⟩, t, ht, fun t' hlater => ?_⟩
  · exact hdismissed 0 ⟨"a", by simp [hregistered]⟩ s'' hlater
  · exact hdismissed 1 ⟨"b", by simp [hregistered]⟩ s'' hlater
  · exact ((shutdown_signals (List UInt8)).mqtt t (Machine.play_runs ht)).mpr hheeds 0 (by simp [Registered, hnamed]) t' hlater

-- A client whose queue is full when the proxy stops: the sentinel is dropped, and the loop goes on.
theorem full_queue_misses_stop : ¬ ∀ s, (machine (List UInt8)).Runs Machine.Free .init s →
    ∀ c, s.Registered c → ∀ s', (machine (List UInt8)).Runs Machine.Free s.stop s' → ¬ s'.Blocked c := by
  intro h
  obtain ⟨s, hruns, hclients, hconn⟩ := fills (α := List UInt8) "10.0.0.5:4711" [0xD0, 0] (Nat.le_refl clientQueueSize)
  have hfull : ¬ (s.conn 0).queue.length < clientQueueSize := by
    rw [hconn, List.length_replicate]
    exact Nat.lt_irrefl _
  have hstop : s.stop.conn 0 = s.conn 0 := signals_full (s := { s with running := false }) _ hfull
  rw [hconn] at hstop
  obtain ⟨s', hlater, hblocked⟩ := drains (s := s.stop) (c := 0) (by rw [hstop]; nofun) (by rw [hstop]) (by rw [hstop]; simp)
  exact h s hruns 0 (by simp [Registered, hclients]) s' hlater hblocked

end PandaProxy.Mqtt
