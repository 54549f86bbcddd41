import PandaProxy.Mqtt.HandlerCleanup

namespace PandaProxy.Mqtt

open Async Json Python

namespace Server

variable {cfg : ServerSettings} {J : Codec} {e e' : Server} {j : Nat}

theorem act_stray {a : MQTTProxy.Act} (h : ∃ s', MQTTProxy.step cfg.toMqttSettings J e.proxy a = some s') :
    (e.act cfg J a).stray = e.stray := by
  obtain ⟨s', hstep⟩ := h
  simp only [act, hstep]

theorem onClient_stray {a : Nat → MQTTProxy.Act} {stage : Stage} (hstage : (e.footing j).stage = some stage)
    (h : ∀ c, (e.proxy.conn c).stage = stage → ∃ s', MQTTProxy.step cfg.toMqttSettings J e.proxy (a c) = some s') :
    (e.onClient cfg J j a).stray = e.stray := by
  obtain ⟨c, hclient, hc⟩ := Option.map_eq_some_iff.mp hstage
  simp only [onClient, hclient]
  exact act_stray (h c hc)

theorem put_stray (packet : Outgoing) : (e.put j packet).stray = e.stray := by
  unfold put
  split <;> rfl

theorem subscribe_iff (s : MQTTProxy) (c : Nat) :
    (∃ s', MQTTProxy.step cfg.toMqttSettings J s (.subscribe c) = some s') ↔ (s.conn c).stage ≠ .over := by
  constructor
  · rintro ⟨s', hs'⟩
    cases MQTTProxy.step_cases hs'
    assumption
  · intro hstage
    match h : (s.conn c).stage with
    | .over => exact absurd h hstage
    | .serving => exact ⟨_, by rw [MQTTProxy.step, h]⟩
    | .ended => exact ⟨_, by rw [MQTTProxy.step, h]⟩

theorem register_stray : (e.register cfg J j).2.stray = e.stray := by
  unfold register
  dsimp only
  split
  · exact act_stray ⟨_, rfl⟩
  · exact act_stray ⟨_, rfl⟩

theorem cancelPending_stray : (e.cancelPending cfg J j).stray = e.stray := by
  unfold cancelPending
  split
  · next hsending => exact onClient_stray (sending_iff.mp hsending) fun c hc => (finish_iff e.proxy c).mpr hc
  · rfl

theorem sync_stray {i : Op} {r : Except Exc i.Answer} (hready : (e.footing j).Ready i) (h : sync cfg J j i e = some (r, e')) :
    e'.stray = e.stray := by
  have howes := hready.owes
  cases i with
  | register =>
      cases h
      exact register_stray
  | createSnapshotTask =>
      cases h
      rcases howes.1.stage with hserving | hended
      · exact onClient_stray hserving fun c hc => (subscribe_iff e.proxy c).mpr fun hover => by cases hc.symm.trans hover
      · exact onClient_stray hended fun c hc => (subscribe_iff e.proxy c).mpr fun hover => by cases hc.symm.trans hover
  | cancelPending =>
      cases h
      exact cancelPending_stray
  | unregister =>
      cases h
      exact onClient_stray howes fun c hc => (leave_iff e.proxy c).mpr hc
  | readPacket timeout =>
      simp only [sync] at h
      repeat' split at h
      all_goals cases h
      all_goals rfl
  | write data =>
      cases h
      exact put_stray _
  | publish client topic payload qos =>
      simp only [sync, publish, Option.some.injEq] at h
      split at h <;> cases h <;> rfl
  | drain =>
      simp only [sync] at h
      split at h <;> cases h <;> rfl
  | waitUpstream | lockGranted | confirmed | gatherPending | waitClosed => cases h
  | _ =>
      cases h
      rfl

theorem resume_stray {i : Op} {r : Except Exc i.Answer} (h : resume j i r e = some e') : e'.stray = e.stray := by
  unfold resume at h
  split at h
  · split at h <;> cases h
    rfl
  · unfold awaken at h
    split at h
    all_goals
      repeat' split at h
    all_goals
      first
      | cases h; rfl
      | obtain ⟨l, _, rfl⟩ := Option.map_eq_some_iff.mp h
        rfl
      | cases h

theorem tick_stray {b : Tick} (h : e.tick cfg J b = some e') : e'.stray = e.stray := by
  cases b with
  | send k =>
      simp only [tick] at h
      repeat' split at h
      all_goals first
      | cases h
      | obtain ⟨proxy, _, rfl⟩ := Option.map_eq_some_iff.mp h
      exact put_stray (e := e) (j := k) _
  | _ =>
      simp only [tick] at h
      repeat' split at h
      all_goals first
      | cases h; rfl
      | obtain ⟨x, _, rfl⟩ := Option.map_eq_some_iff.mp h
        rfl
      | cases h

theorem stray_runs {peers : Nat → Peer} {c : ServerConfig}
    (hrun : (mqttServer cfg J).Runs (fun _ _ _ => True) (listening peers) c) : c.env.stray = false := by
  induction hrun with
  | refl => rfl
  | @tail c c' hbefore hlast ih =>
      obtain ⟨a, hstep, _⟩ := hlast
      have hmeets : cleanup.Meets c a := by
        cases a with
        | resume j i r => exact fun _ _ _ _ => trivial
        | _ => trivial
      refine (cleanup_holds hbefore).upholds (X := fun e => e.stray = false) cleanup_verified hstep hmeets trivial ?_ ?_ ?_ ?_ ih
      · rintro j s e' _ ⟨⟩ h
        exact h
      · exact fun j i s e r e' _ _ hready h hsync => (sync_stray hready hsync).trans h
      · exact fun j l i s r e' _ _ _ h hresume => (resume_stray hresume).trans h
      · exact fun b e' _ h htick => (tick_stray htick).trans h

end Server

-- Every step that a handler takes on the registry is one that the registry has, and nothing else
-- moves it.
theorem server_refines {cfg : ServerSettings} {J : Codec} {peers : Nat → Peer} {c : ServerConfig}
    (hrun : (mqttServer cfg J).Runs (fun _ _ _ => True) (listening peers) c) :
    c.env.stray = false ∧ (mqttProxy cfg.toMqttSettings J).Runs Machine.Free .init c.env.proxy :=
  ⟨Server.stray_runs hrun, Server.keeps_proxy .refl (fun _ a _ h hstep => h.tail ⟨a, hstep, trivial⟩) hrun⟩

def subscribeRequest : List UInt8 := [0x82, 6, 0, 1, 0, 1, 35, 0]

def subscribesTo (j : Nat) : List ServerAct := [.tick (.receive j subscribeRequest), .run j]

theorem server_refines_report : ∃ c,
    (mqttServer home plain).runActs (listening household) (dials ++ joins 0 ++ subscribesTo 0 ++ reaches ++ quits 0) = some c ∧
      ((c.env.proxy.conn 0).written.length = 1 ∧ c.env.proxy.subscriptions = 1 ∧ (c.env.proxy.conn 0).stage = .over) ∧
      c.env.stray = false ∧ (mqttProxy home.toMqttSettings plain).Runs Machine.Free .init c.env.proxy := by
  have hend : ((mqttServer home plain).runActs (listening household)
      (dials ++ joins 0 ++ subscribesTo 0 ++ reaches ++ quits 0)).map (fun c =>
        ((c.env.proxy.conn 0).written.length, c.env.proxy.subscriptions, (c.env.proxy.conn 0).stage)) = some (1, 1, .over) := by
    decide +kernel
  obtain ⟨c, hc, hfinal⟩ := Option.map_eq_some_iff.mp hend
  simp only [Prod.mk.injEq] at hfinal
  exact ⟨c, hc, hfinal, server_refines (System.runActs_runs _ _ hc)⟩

end PandaProxy.Mqtt
