import PandaProxy.Camera.AuthPayload
import PandaProxy.Camera.ChamberStream

namespace PandaProxy.Camera

open Async Python

-- Where `_handle_client` is, up to its registration.
inductive Phase where
  | unborn
  | authenticating
  -- `_upstream_connected` may have been set while the handler waited for it.
  | waiting (woken : Bool)
  | streaming (k : Nat)
  | turnedAway
  deriving DecidableEq

structure Connection where
  phase : Phase := .unborn
  arrived : List UInt8 := []
  unread : List UInt8 := []

structure ChamberServer where
  chamber : Chamber
  connections : Nat → Connection

structure ChamberSettings where
  accessCode : String
  clientAddr : Nat → String

namespace ChamberServer

inductive Act where
  | accept (i : Nat)
  | arrive (i : Nat) (bytes : List UInt8)
  -- `readexactly(80)` returns.
  | authenticate (i : Nat)
  | letIn (i : Nat)
  | turnAway (i : Nat)
  | chamber (a : Chamber.Act)

def init : ChamberServer := ⟨.init, fun _ => {}⟩

def setConnection (s : ChamberServer) (i : Nat) (c : Connection) : ChamberServer :=
  { s with connections := Function.update s.connections i c }

def register (cfg : ChamberSettings) (s : ChamberServer) (i : Nat) (c : Connection) : Option ChamberServer :=
  (s.chamber.step (.register (cfg.clientAddr i))).map fun chamber =>
    { s with chamber := chamber }.setConnection i { c with phase := .streaming s.chamber.fanout.made }

def authenticate (cfg : ChamberSettings) (s : ChamberServer) (i : Nat) : Option ChamberServer :=
  let c := s.connections i
  if c.unread.length < 80 then none
  else
    let authData := c.unread.take 80
    let c := { c with unread := c.unread.drop 80 }
    if authenticated cfg.accessCode authData then
      if s.chamber.upstream = .away then some (s.setConnection i { c with phase := .waiting false })
      else s.register cfg i c
    else some (s.setConnection i { c with phase := .turnedAway })

def wake (c : Connection) : Connection :=
  match c.phase with
  | .waiting _ => { c with phase := .waiting true }
  | _ => c

def step (cfg : ChamberSettings) (s : ChamberServer) : Act → Option ChamberServer
  | .accept i =>
      match (s.connections i).phase with
      | .unborn => some (s.setConnection i { s.connections i with phase := .authenticating })
      | _ => none
  | .arrive i bytes =>
      let c := s.connections i
      some (s.setConnection i { c with arrived := c.arrived ++ bytes, unread := c.unread ++ bytes })
  | .authenticate i =>
      match (s.connections i).phase with
      | .authenticating => s.authenticate cfg i
      | _ => none
  | .letIn i =>
      match (s.connections i).phase with
      | .waiting true => s.register cfg i (s.connections i)
      | _ => none
  | .turnAway i =>
      match (s.connections i).phase with
      | .authenticating => some (s.setConnection i { s.connections i with phase := .turnedAway })
      | .waiting _ => some (s.setConnection i { s.connections i with phase := .turnedAway })
      | _ => none
  -- Nothing but the handlers above registers a client.
  | .chamber (.register _) => none
  | .chamber .connect => (s.chamber.step .connect).map fun chamber => ⟨chamber, fun i => wake (s.connections i)⟩
  | .chamber a => (s.chamber.step a).map fun chamber => { s with chamber := chamber }

def sent (s : ChamberServer) (i : Nat) : List UInt8 :=
  match (s.connections i).phase with
  | .streaming k => (s.chamber.handlers k).written
  | _ => []

-- The first 80 bytes of a client are the authentication with the access code.
def Presented (cfg : ChamberSettings) (c : Connection) : Prop :=
  ∃ authData, c.arrived = authData ++ c.unread ∧ AuthPayload authData cfg.accessCode

structure Gated (cfg : ChamberSettings) (s : ChamberServer) : Prop where
  unread : ∀ i, (s.connections i).phase = .unborn ∨ (s.connections i).phase = .authenticating →
    (s.connections i).unread = (s.connections i).arrived
  awaiting : ∀ i woken, (s.connections i).phase = .waiting woken → Presented cfg (s.connections i)
  admitted : ∀ i k, (s.connections i).phase = .streaming k → k < s.chamber.fanout.made ∧ Presented cfg (s.connections i)
  owned : ∀ k < s.chamber.fanout.made, ∃ i, (s.connections i).phase = .streaming k
  distinct : ∀ i j k, (s.connections i).phase = .streaming k → (s.connections j).phase = .streaming k → i = j
  unborn : ∀ k, s.chamber.fanout.made ≤ k → s.chamber.handlers k = {}

variable {cfg : ChamberSettings} {s s' : ChamberServer} {i : Nat} {c : Connection}

theorem init_gated (cfg : ChamberSettings) : Gated cfg init := by
  refine ⟨fun _ _ => rfl, ?_, ?_, fun k hk => absurd hk (Nat.not_lt_zero k), ?_, fun _ _ => rfl⟩
  · rintro _ _ ⟨⟩
  · rintro _ _ ⟨⟩
  · rintro _ _ _ ⟨⟩

theorem setConnection_self : (s.setConnection i c).connections i = c := by
  simp [setConnection]

theorem setConnection_ne {j : Nat} (h : j ≠ i) : (s.setConnection i c).connections j = s.connections j := by
  simp [setConnection, h]

theorem Gated.setConnection (h : Gated cfg s) (hphase : ∀ k, c.phase = .streaming k ↔ (s.connections i).phase = .streaming k)
    (hunread : c.phase = .unborn ∨ c.phase = .authenticating → c.unread = c.arrived)
    (hpresented : ∀ woken, c.phase = .waiting woken → Presented cfg c)
    (hstreaming : ∀ k, c.phase = .streaming k → Presented cfg c) : Gated cfg (s.setConnection i c) := by
  have hself : (s.setConnection i c).connections i = c := setConnection_self
  have hother : ∀ {j}, j ≠ i → (s.setConnection i c).connections j = s.connections j := setConnection_ne
  have hsame : ∀ {j k}, ((s.setConnection i c).connections j).phase = .streaming k ↔ (s.connections j).phase = .streaming k := by
    intro j k
    by_cases hj : j = i
    · subst hj
      rw [hself]
      exact hphase k
    · rw [hother hj]
  refine ⟨fun j hj => ?_, fun j woken hj => ?_, fun j k hj => ⟨(h.admitted j k (hsame.mp hj)).1, ?_⟩, fun k hk => ?_,
    fun j j' k hj hj' => h.distinct j j' k (hsame.mp hj) (hsame.mp hj'), h.unborn⟩
  · by_cases hji : j = i
    · subst hji
      rw [hself] at hj ⊢
      exact hunread hj
    · rw [hother hji] at hj ⊢
      exact h.unread j hj
  · by_cases hji : j = i
    · subst hji
      rw [hself] at hj ⊢
      exact hpresented woken hj
    · rw [hother hji] at hj ⊢
      exact h.awaiting j woken hj
  · by_cases hji : j = i
    · subst hji
      rw [hself] at hj ⊢
      exact hstreaming k hj
    · rw [hother hji] at hj ⊢
      exact (h.admitted j k hj).2
  · obtain ⟨j, hj⟩ := h.owned k hk
    exact ⟨j, hsame.mpr hj⟩

theorem Gated.register (h : Gated cfg s) (hphase : ∀ k, (s.connections i).phase ≠ .streaming k) (hpresented : Presented cfg c)
    (hstep : s.register cfg i c = some s') : Gated cfg s' := by
  obtain ⟨chamber, hchamber, rfl⟩ := Option.map_eq_some_iff.mp hstep
  have hmade : chamber.fanout.made = s.chamber.fanout.made + 1 := by
    cases hchamber
    rfl
  generalize he : ChamberServer.setConnection _ i _ = e
  have hfanout : e.chamber.fanout.made = s.chamber.fanout.made + 1 := by
    rw [← he]
    exact hmade
  have hhandlers : ∀ k, k ≠ s.chamber.fanout.made → e.chamber.handlers k = s.chamber.handlers k := by
    intro k hk
    rw [← he]
    cases hchamber
    exact Function.update_of_ne hk _ s.chamber.handlers
  have hself : e.connections i = { c with phase := .streaming s.chamber.fanout.made } := by
    rw [← he]
    exact setConnection_self
  have hother : ∀ {j}, j ≠ i → e.connections j = s.connections j := by
    intro j hj
    rw [← he]
    exact setConnection_ne hj
  have hcases : ∀ {j k}, (e.connections j).phase = .streaming k →
      j = i ∧ k = s.chamber.fanout.made ∨ j ≠ i ∧ (s.connections j).phase = .streaming k := by
    intro j k hj
    by_cases hji : j = i
    · subst hji
      rw [hself] at hj
      cases hj
      exact .inl ⟨rfl, rfl⟩
    · rw [hother hji] at hj
      exact .inr ⟨hji, hj⟩
  refine ⟨fun j hj => ?_, fun j woken hj => ?_, fun j k hj => ?_, fun k hk => ?_, fun j j' k hj hj' => ?_, fun k hk => ?_⟩
  · by_cases hji : j = i
    · subst hji
      rw [hself] at hj
      rcases hj with hj | hj <;> cases hj
    · rw [hother hji] at hj ⊢
      exact h.unread j hj
  · by_cases hji : j = i
    · subst hji
      rw [hself] at hj
      cases hj
    · rw [hother hji] at hj ⊢
      exact h.awaiting j woken hj
  · rcases hcases hj with ⟨rfl, rfl⟩ | ⟨hji, hold⟩
    · rw [hself]
      exact ⟨hfanout ▸ Nat.lt_succ_self _, hpresented⟩
    · obtain ⟨hlt, hp⟩ := h.admitted j k hold
      rw [hother hji]
      exact ⟨hfanout ▸ Nat.lt_succ_of_lt hlt, hp⟩
  · by_cases hlast : k = s.chamber.fanout.made
    · exact ⟨i, by rw [hself, hlast]⟩
    · obtain ⟨j, hj⟩ := h.owned k (by omega)
      refine ⟨j, ?_⟩
      rwa [hother]
      rintro rfl
      exact hphase k hj
  · rcases hcases hj with ⟨rfl, rfl⟩ | ⟨_, hold⟩ <;> rcases hcases hj' with ⟨rfl, hk⟩ | ⟨_, hold'⟩
    · rfl
    · exact absurd (h.admitted j' _ hold').1 (Nat.lt_irrefl _)
    · subst hk
      exact absurd (h.admitted j _ hold).1 (Nat.lt_irrefl _)
    · exact h.distinct j j' k hold hold'
  · rw [hfanout] at hk
    rw [hhandlers k (by omega)]
    exact h.unborn k (by omega)

theorem Gated.authenticate (h : Gated cfg s) (hphase : (s.connections i).phase = .authenticating)
    (hstep : s.authenticate cfg i = some s') : Gated cfg s' := by
  have hstreaming : ∀ k, (s.connections i).phase ≠ .streaming k := by
    rw [hphase]
    rintro _ ⟨⟩
  unfold ChamberServer.authenticate at hstep
  dsimp only at hstep
  split at hstep
  · cases hstep
  · split at hstep
    · next hcode =>
        have hpresented : ∀ phase : Phase, Presented cfg
            { s.connections i with unread := (s.connections i).unread.drop 80, phase := phase } := by
          intro phase
          refine ⟨(s.connections i).unread.take 80, ?_, parseAuthPayload_iff.mp (eq_of_beq hcode)⟩
          exact (h.unread i (.inr hphase)).symm.trans (List.take_append_drop 80 _).symm
        split at hstep
        · cases hstep
          refine h.setConnection (fun k => iff_of_false ?_ (hstreaming k)) ?_ (fun _ _ => hpresented _) ?_
          · rintro ⟨⟩
          · rintro (hj | hj) <;> cases hj
          · rintro _ ⟨⟩
        · exact h.register hstreaming (hpresented _) hstep
    · cases hstep
      refine h.setConnection (fun k => iff_of_false ?_ (hstreaming k)) ?_ ?_ ?_
      · rintro ⟨⟩
      · rintro (hj | hj) <;> cases hj
      · rintro _ ⟨⟩
      · rintro _ ⟨⟩

end ChamberServer

namespace StreamFanout

variable {α : Type} {f : StreamFanout α}

theorem eachClient_made (g : StreamClient α → StreamClient α) : (f.eachClient g).made = f.made := by
  unfold eachClient
  generalize f.clients.map Prod.snd = ks
  induction ks generalizing f with
  | nil => rfl
  | cons k ks ih => exact ih (f := f.setObject k (g (f.objects k)))

end StreamFanout

namespace Chamber

variable {s s' : Chamber}

theorem leave_made (s : Chamber) : s.leave.fanout.made = s.fanout.made :=
  StreamFanout.eachClient_made (f := { s.fanout with running := false }) StreamClient.disconnect

theorem setHandler_unborn {k m : Nat} {h : Handler} (hk : (s.handlers k).phase = .unborn) (hm : (s.handlers m).phase ≠ .unborn) :
    (s.setHandler m h).handlers k = s.handlers k := by
  refine Function.update_of_ne ?_ h s.handlers
  rintro rfl
  exact hm hk

theorem step_outside {a : Act} (hstep : s.step a = some s') (ha : ∀ id, a ≠ .register id) :
    s'.fanout.made = s.fanout.made ∧ ∀ k, (s.handlers k).phase = .unborn → s'.handlers k = s.handlers k := by
  cases step_cases hstep with
  | refuse _ _ _ => exact ⟨leave_made s, fun _ _ => rfl⟩
  | readPayload _ _ =>
      unfold nextFrame
      split
      · exact ⟨StreamFanout.eachClient_made _, fun _ _ => rfl⟩
      · exact ⟨(leave_made _).trans (StreamFanout.eachClient_made _), fun _ _ => rfl⟩
  | drop => exact ⟨leave_made s, fun _ _ => rfl⟩
  | stop => exact ⟨leave_made s, fun _ _ => rfl⟩
  | register => exact absurd rfl (ha _)
  | @check m h hh =>
      refine ⟨rfl, fun k hk => setHandler_unborn hk fun hm => ?_⟩
      simp only [Handler.check, hm] at hh
      cases hh
  | receive hphase _ =>
      refine ⟨rfl, fun k hk => ?_⟩
      refine setHandler_unborn (s := { s with fanout := _ }) hk ?_
      rw [hphase]
      rintro ⟨⟩
  | @write m h hh =>
      refine ⟨rfl, fun k hk => setHandler_unborn hk fun hm => ?_⟩
      simp only [Handler.write, hm] at hh
      cases hh
  | @fail m h hh =>
      refine ⟨rfl, fun k hk => setHandler_unborn hk fun hm => ?_⟩
      simp only [Handler.fail, hm] at hh
      cases hh
  | unregister hphase =>
      refine ⟨rfl, fun k hk => ?_⟩
      refine setHandler_unborn (s := { s with fanout := _, log := _ }) hk ?_
      rw [hphase]
      rintro ⟨⟩
  | _ => exact ⟨rfl, fun _ _ => rfl⟩

end Chamber

namespace ChamberServer

variable {cfg : ChamberSettings} {s s' : ChamberServer} {i : Nat} {c : Connection}

theorem Gated.relay {chamber : Chamber} {a : Chamber.Act} (h : Gated cfg s) (hstep : s.chamber.step a = some chamber)
    (ha : ∀ id, a ≠ .register id) : Gated cfg { s with chamber := chamber } := by
  obtain ⟨hmade, hhandlers⟩ := Chamber.step_outside hstep ha
  refine ⟨h.unread, h.awaiting, fun i k hi => ?_, fun k hk => h.owned k (hmade ▸ hk), h.distinct, fun k hk => ?_⟩
  · exact ⟨hmade ▸ (h.admitted i k hi).1, (h.admitted i k hi).2⟩
  · have hunborn := h.unborn k (hmade ▸ hk)
    rw [← hunborn]
    refine hhandlers k ?_
    rw [hunborn]

theorem wake_cases (c : Connection) : wake c = c ∨
    ∃ woken, c.phase = .waiting woken ∧ wake c = { c with phase := .waiting true } := by
  unfold wake
  split
  · next woken hphase => exact .inr ⟨woken, hphase, rfl⟩
  · exact .inl rfl

theorem wake_streaming (c : Connection) (k : Nat) : (wake c).phase = .streaming k ↔ c.phase = .streaming k := by
  rcases wake_cases c with hsame | ⟨woken, hphase, hwoken⟩
  · rw [hsame]
  · rw [hwoken, hphase]
    constructor <;> rintro ⟨⟩

theorem Gated.wakes (h : Gated cfg s) : Gated cfg { s with connections := fun i => wake (s.connections i) } := by
  refine ⟨fun i hi => ?_, fun i woken hi => ?_, fun i k hi => ?_, fun k hk => ?_, fun i j k hi hj => ?_, h.unborn⟩
  · rcases wake_cases (s.connections i) with hsame | ⟨woken, hphase, hwoken⟩
    · simp only [hsame] at hi ⊢
      exact h.unread i hi
    · simp only [hwoken] at hi
      rcases hi with hi | hi <;> cases hi
  · rcases wake_cases (s.connections i) with hsame | ⟨woken, hphase, hwoken⟩
    · simp only [hsame] at hi ⊢
      exact h.awaiting i _ hi
    · simp only [hwoken]
      exact h.awaiting i woken hphase
  · have hold := (wake_streaming _ k).mp hi
    rcases wake_cases (s.connections i) with hsame | ⟨woken, hphase, hwoken⟩
    · simp only [hsame]
      exact h.admitted i k hold
    · cases hphase.symm.trans hold
  · obtain ⟨i, hi⟩ := h.owned k hk
    exact ⟨i, (wake_streaming _ k).mpr hi⟩
  · exact h.distinct i j k ((wake_streaming _ k).mp hi) ((wake_streaming _ k).mp hj)

theorem Gated.turnAway (h : Gated cfg s) (hphase : ∀ k, (s.connections i).phase ≠ .streaming k) :
    Gated cfg (s.setConnection i { s.connections i with phase := .turnedAway }) := by
  refine h.setConnection (fun k => iff_of_false ?_ (hphase k)) ?_ ?_ ?_
  · rintro ⟨⟩
  · rintro (hj | hj) <;> cases hj
  · rintro _ ⟨⟩
  · rintro _ ⟨⟩

theorem Presented.arrives {c : Connection} (h : Presented cfg c) (bytes : List UInt8) :
    Presented cfg { c with arrived := c.arrived ++ bytes, unread := c.unread ++ bytes } := by
  obtain ⟨authData, harrived, hauth⟩ := h
  refine ⟨authData, ?_, hauth⟩
  simp only [harrived, List.append_assoc]

theorem Gated.step {a : Act} (h : Gated cfg s) (hstep : s.step cfg a = some s') : Gated cfg s' := by
  cases a with
  | accept i =>
      simp only [ChamberServer.step] at hstep
      split at hstep <;> cases hstep
      next hphase =>
        refine h.setConnection (fun k => ?_) (fun _ => h.unread i (.inl hphase)) ?_ ?_
        · rw [hphase]
          exact iff_of_false (by rintro ⟨⟩) (by rintro ⟨⟩)
        · rintro _ ⟨⟩
        · rintro _ ⟨⟩
  | arrive i bytes =>
      cases hstep
      refine h.setConnection (fun k => Iff.rfl) (fun hi => ?_) (fun woken hi => ?_) fun k hi => ?_
      · exact congrArg (· ++ bytes) (h.unread i hi)
      · exact (h.awaiting i woken hi).arrives bytes
      · exact (h.admitted i k hi).2.arrives bytes
  | authenticate i =>
      simp only [ChamberServer.step] at hstep
      split at hstep
      · next hphase => exact h.authenticate hphase hstep
      · cases hstep
  | letIn i =>
      simp only [ChamberServer.step] at hstep
      split at hstep
      · next hphase =>
          refine h.register (fun k => ?_) (h.awaiting i true hphase) hstep
          rw [hphase]
          rintro ⟨⟩
      · cases hstep
  | turnAway i =>
      simp only [ChamberServer.step] at hstep
      split at hstep <;> cases hstep
      · next hphase =>
          refine h.turnAway fun k => ?_
          rw [hphase]
          rintro ⟨⟩
      · next woken hphase =>
          refine h.turnAway fun k => ?_
          rw [hphase]
          rintro ⟨⟩
  | chamber a =>
      cases a with
      | register id => cases hstep
      | connect =>
          obtain ⟨chamber, hchamber, rfl⟩ := Option.map_eq_some_iff.mp hstep
          have hrelayed := h.relay hchamber (by rintro _ ⟨⟩)
          exact hrelayed.wakes
      | drop =>
          cases hstep
          exact h.relay (a := .drop) rfl (by rintro _ ⟨⟩)
      | stop =>
          cases hstep
          exact h.relay (a := .stop) rfl (by rintro _ ⟨⟩)
      | _ =>
          obtain ⟨chamber, hchamber, rfl⟩ := Option.map_eq_some_iff.mp hstep
          exact h.relay hchamber (by rintro _ ⟨⟩)

end ChamberServer

def chamberServer (cfg : ChamberSettings) : Machine ChamberServer ChamberServer.Act := ⟨ChamberServer.step cfg⟩

open ChamberServer

theorem camera_gated {cfg : ChamberSettings} {s : ChamberServer} (hrun : (chamberServer cfg).Runs Machine.Free init s) :
    Gated cfg s :=
  hrun.keeps (init_gated cfg) fun _ _ _ h hstep _ => h.step hstep

def knock : List UInt8 := (createAuthPayload "1234").getD []

def lan : ChamberSettings := ⟨"1234", fun i => if i = 0 then "192.168.1.7" else "192.168.1.8"⟩

def twoClients : List Act :=
  [.accept 0, .accept 1, .arrive 0 knock, .authenticate 0, .chamber .connect, .letIn 0,
    .arrive 1 ((createAuthPayload "0000").getD []), .authenticate 1,
    .chamber (.arrive Chamber.oneFrame.bytes), .chamber .readHeader, .chamber .readPayload, .chamber (.check 0),
    .chamber (.receive 0), .chamber (.write 0), .chamber (.write 0)]

theorem camera_gated_two : ∃ s, (chamberServer lan).play init twoClients = some s ∧
    s.sent 0 = Chamber.oneFrame.bytes ∧ s.sent 1 = [] ∧ Gated lan s := by
  have hend : ((chamberServer lan).play init twoClients).map (fun s => (s.sent 0, s.sent 1)) =
      some (Chamber.oneFrame.bytes, []) := by
    decide +kernel
  obtain ⟨s, hs, hlast⟩ := Option.map_eq_some_iff.mp hend
  obtain ⟨hfirst, hsecond⟩ := Prod.mk.inj hlast
  exact ⟨s, hs, hfirst, hsecond, camera_gated (Machine.play_runs hs)⟩

namespace ChamberServer

def Fresh (cfg : ChamberSettings) (s : ChamberServer) (a : Act) (s' : ChamberServer) : Prop :=
  ∀ i, a = .authenticate i ∨ a = .letIn i → (s'.connections i).phase = .streaming s.chamber.fanout.made →
    ∀ p ∈ s.chamber.fanout.clients, p.1 ≠ cfg.clientAddr i

variable {cfg : ChamberSettings} {s s' : ChamberServer} {i : Nat} {c : Connection} {a : Act}

theorem register_inv (h : s.chamber.Inv) (ha : a = .authenticate i ∨ a = .letIn i) (hfresh : Fresh cfg s a s') (hstep : s.register cfg i c = some s') :
    s'.chamber.Inv := by
  obtain ⟨chamber, hchamber, rfl⟩ := Option.map_eq_some_iff.mp hstep
  refine h.step hchamber ?_
  rintro _ ⟨⟩ p hp
  refine hfresh i ha ?_ p hp
  rw [setConnection_self]

theorem distinctIds_relayed {s s' : Chamber} {a : Chamber.Act} (ha : ∀ id, a ≠ .register id) : Chamber.DistinctIds s a s' :=
  fun id hid => absurd hid (ha id)

theorem step_inv (h : s.chamber.Inv) (hfresh : Fresh cfg s a s') (hstep : s.step cfg a = some s') : s'.chamber.Inv := by
  cases a with
  | accept i =>
      simp only [ChamberServer.step] at hstep
      split at hstep <;> cases hstep
      exact h
  | arrive i bytes =>
      cases hstep
      exact h
  | authenticate i =>
      simp only [ChamberServer.step] at hstep
      split at hstep
      · unfold ChamberServer.authenticate at hstep
        dsimp only at hstep
        split at hstep
        · cases hstep
        · split at hstep
          · split at hstep
            · cases hstep
              exact h
            · exact register_inv h (.inl rfl) hfresh hstep
          · cases hstep
            exact h
      · cases hstep
  | letIn i =>
      simp only [ChamberServer.step] at hstep
      split at hstep
      · exact register_inv h (.inr rfl) hfresh hstep
      · cases hstep
  | turnAway i =>
      simp only [ChamberServer.step] at hstep
      split at hstep <;> cases hstep <;> exact h
  | chamber a =>
      cases a with
      | register id => cases hstep
      | drop =>
          cases hstep
          exact h.step (a := .drop) rfl (distinctIds_relayed (by rintro _ ⟨⟩))
      | stop =>
          cases hstep
          exact h.step (a := .stop) rfl (distinctIds_relayed (by rintro _ ⟨⟩))
      | _ =>
          obtain ⟨chamber, hchamber, rfl⟩ := Option.map_eq_some_iff.mp hstep
          exact h.step hchamber (distinctIds_relayed (by rintro _ ⟨⟩))

end ChamberServer

-- A client with the access code is sent frames that the printer sent while it was registered, in
-- their order, and each other client nothing.
structure CameraStream (cfg : ChamberSettings) (s : ChamberServer) (i : Nat) : Prop where
  gated : s.sent i ≠ [] → Presented cfg (s.connections i)
  received : s.chamber.upstream ≠ .away → s.chamber.received =
    (Chamber.current s.chamber.log).flatMap Frame.bytes ++ Chamber.pending s.chamber.upstream ++ s.chamber.buffer
  valid : ∀ f, .frame f ∈ s.chamber.log → f.Valid
  framed : ∀ k, (s.connections i).phase = .streaming k →
    ∃ done : List Frame, s.sent i = done.flatMap Frame.bytes ∧ done.Sublist (Chamber.window k s.chamber.log) ∨
      ∃ f cut, s.sent i = done.flatMap Frame.bytes ++ cut ∧ cut.IsPrefix f.bytes ∧
        (done ++ [f]).Sublist (Chamber.window k s.chamber.log)
  distinct : ∀ j, i ≠ j → ∀ k, (s.connections i).phase = .streaming k → (s.connections j).phase ≠ .streaming k

theorem sent_streaming {s : ChamberServer} {i k : Nat} (h : (s.connections i).phase = .streaming k) :
    s.sent i = (s.chamber.handlers k).written := by
  simp only [sent, h]

theorem camera_stream {cfg : ChamberSettings} {s : ChamberServer} (hrun : (chamberServer cfg).Runs (Fresh cfg) init s)
    (i : Nat) : CameraStream cfg s i := by
  obtain ⟨hgated, hinv⟩ := hrun.keeps (I := fun s => Gated cfg s ∧ s.chamber.Inv) ⟨init_gated cfg, .init⟩
    fun _ _ _ h hstep hfresh => ⟨h.1.step hstep, step_inv h.2 hfresh hstep⟩
  refine ⟨fun hsent => ?_, hinv.parsed.framed, hinv.parsed.valid, fun k hk => ?_,
    fun j hij k hi hj => hij (hgated.distinct i j k hi hj)⟩
  · unfold sent at hsent
    split at hsent
    · next k hk => exact (hgated.admitted i k hk).2
    · exact absurd rfl hsent
  · rw [sent_streaming hk]
    obtain ⟨done, hwhole | ⟨f, cut, hwritten, hcut, hsub, _⟩⟩ := hinv.writesFrames k
    · exact ⟨done, .inl hwhole⟩
    · exact ⟨done, .inr ⟨f, cut, hwritten, hcut, hsub⟩⟩

def fresh (cfg : ChamberSettings) (s : ChamberServer) (a : Act) (_ : ChamberServer) : Bool :=
  match a with
  | .authenticate i => s.chamber.fanout.clients.all fun p => p.1 != cfg.clientAddr i
  | .letIn i => s.chamber.fanout.clients.all fun p => p.1 != cfg.clientAddr i
  | _ => true

theorem fresh_sound {cfg : ChamberSettings} (s : ChamberServer) (a : Act) (s' : ChamberServer)
    (h : fresh cfg s a s' = true) : Fresh cfg s a s' := by
  rintro i (rfl | rfl) _ p hp
  · simpa using List.all_eq_true.mp h p hp
  · simpa using List.all_eq_true.mp h p hp

theorem camera_stream_two : ∃ s, (chamberServer lan).playWhile (fresh lan) init twoClients = some s ∧
    s.sent 0 = Chamber.oneFrame.bytes ∧ CameraStream lan s 0 := by
  have hend : ((chamberServer lan).playWhile (fresh lan) init twoClients).map (fun s => s.sent 0) =
      some Chamber.oneFrame.bytes := by
    decide +kernel
  obtain ⟨s, hs, hsent⟩ := Option.map_eq_some_iff.mp hend
  exact ⟨s, hs, hsent, camera_stream (Machine.playWhile_runs fresh_sound hs) 0⟩

end PandaProxy.Camera
