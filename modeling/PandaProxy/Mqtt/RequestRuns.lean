import PandaProxy.Mqtt.FullStateRequests
import PandaProxy.Mqtt.ServerTurns

namespace PandaProxy.Mqtt

open Async Json Python

namespace Server

def loopPhase : Dialling → LoopPhase
  | .idle => .away
  | .dialling => .away
  | .attached => .connected
  | .ready => .connected

structure Surrounds (e : Server) (s : Pushall) : Prop where
  lock : s.upstreamLock = e.upstreamLock.holder.map fun _ => .other
  client : s.upstreamClient = e.upstreamClient
  connections : s.connections = e.attempts
  loop : s.loop = loopPhase e.dialling
  away : s.loop = .away → s.upstreamClient = none

structure SameWay (e e' : Server) : Prop where
  running : e'.running = e.running
  client : e'.upstreamClient = e.upstreamClient
  attempts : e'.attempts = e.attempts
  loop : loopPhase e'.dialling = loopPhase e.dialling

-- Some run of the requests has these surroundings, as long as the server is not stopped.
def Surrounded (e : Server) : Prop := e.running = true → ∃ s, pushall.Runs Machine.Free .init s ∧ Surrounds e s

variable {cfg : ServerSettings} {J : Codec} {j : Nat} {e e' e'' : Server} {s : Pushall}

theorem SameWay.refl (e : Server) : SameWay e e := ⟨rfl, rfl, rfl, rfl⟩

theorem SameWay.trans (h : SameWay e e') (h' : SameWay e' e'') : SameWay e e'' :=
  ⟨h'.running.trans h.running, h'.client.trans h.client, h'.attempts.trans h.attempts, h'.loop.trans h.loop⟩

theorem Surrounds.way (h : Surrounds e s) (hway : SameWay e e') : ∃ s', pushall.Runs Machine.Free s s' ∧ Surrounds e' s' := by
  obtain ⟨hlock, hclient, hconnections, hloop, haway⟩ := h
  have hsame : ∀ s' : Pushall, s'.upstreamLock = e'.upstreamLock.holder.map (fun _ => .other) →
      s'.upstreamClient = s.upstreamClient → s'.connections = s.connections → s'.loop = s.loop → Surrounds e' s' :=
    fun s' hl hc hn hp => ⟨hl, hc.trans (hclient.trans hway.client.symm), hn.trans (hconnections.trans hway.attempts.symm),
      hp.trans (hloop.trans hway.loop.symm), fun hphase => hc.trans (haway (hp.symm.trans hphase))⟩
  cases hbefore : e.upstreamLock.holder with
  | none =>
      rw [hbefore] at hlock
      cases hafter : e'.upstreamLock.holder with
      | none => exact ⟨s, .refl, hsame s (by rw [hafter, hlock]) rfl rfl rfl⟩
      | some holder =>
          have hstep : s.step .lockOther = some { s with upstreamLock := some .other } := if_pos hlock
          exact ⟨_, .single ⟨.lockOther, hstep, trivial⟩, hsame _ (by rw [hafter]; rfl) rfl rfl rfl⟩
  | some holder =>
      rw [hbefore] at hlock
      cases hafter : e'.upstreamLock.holder with
      | none =>
          have hstep : s.step .unlockOther = some { s with upstreamLock := none } := if_pos hlock
          exact ⟨_, .single ⟨.unlockOther, hstep, trivial⟩, hsame _ (by rw [hafter]; rfl) rfl rfl rfl⟩
      | some holder' => exact ⟨s, .refl, hsame s (by rw [hafter, hlock]; rfl) rfl rfl rfl⟩

theorem Surrounded.way (h : Surrounded e) (hway : SameWay e e') : Surrounded e' := by
  intro hrunning
  obtain ⟨s, hs, hsurrounds⟩ := h (hway.running ▸ hrunning)
  obtain ⟨s', hs', hsurrounds'⟩ := hsurrounds.way hway
  exact ⟨s', hs.trans hs', hsurrounds'⟩

theorem act_way (cfg : ServerSettings) (J : Codec) (e : Server) (a : MQTTProxy.Act) : SameWay e (e.act cfg J a) := by
  unfold act
  split <;> exact ⟨rfl, rfl, rfl, rfl⟩

theorem onClient_way (cfg : ServerSettings) (J : Codec) (e : Server) (j : Nat) (a : Nat → MQTTProxy.Act) :
    SameWay e (e.onClient cfg J j a) := by
  unfold onClient
  split
  · exact act_way cfg J e _
  · exact ⟨rfl, rfl, rfl, rfl⟩

theorem put_way (e : Server) (j : Nat) (packet : Outgoing) : SameWay e (e.put j packet) := by
  unfold put
  split <;> exact ⟨rfl, rfl, rfl, rfl⟩

theorem sync_way {i : Op} {r : Except Exc i.Answer} (h : sync cfg J j i e = some (r, e')) : SameWay e e' := by
  cases i with
  | readPacket timeout =>
      simp only [sync] at h
      repeat' split at h
      all_goals cases h <;> exact ⟨rfl, rfl, rfl, rfl⟩
  | write data =>
      cases h
      exact (put_way e j (.answer data)).trans ⟨rfl, rfl, rfl, rfl⟩
  | drain =>
      simp only [sync] at h
      split at h <;> cases h <;> exact .refl e
  | register =>
      cases h
      have hact := act_way cfg J e (.register (e.links j).peer.clientId (e.links j).peer.sockname)
      unfold register
      dsimp only
      split
      · exact hact.trans ⟨rfl, rfl, rfl, rfl⟩
      · exact hact
  | publish client topic payload qos =>
      simp only [sync, publish, Option.some.injEq] at h
      split at h <;> cases h <;> exact ⟨rfl, rfl, rfl, rfl⟩
  | createSnapshotTask =>
      cases h
      exact (onClient_way cfg J e j .subscribe).trans ⟨rfl, rfl, rfl, rfl⟩
  | cancelPending =>
      cases h
      unfold cancelPending
      split
      · exact onClient_way cfg J e j .finish
      · exact .refl e
  | unregister =>
      cases h
      exact onClient_way cfg J e j .leave
  | waitUpstream timeout => cases h
  | lockGranted => cases h
  | confirmed => cases h
  | gatherPending => cases h
  | waitClosed timeout => cases h
  | _ =>
      cases h
      exact ⟨rfl, rfl, rfl, rfl⟩

theorem awaken_way {i : Op} {r : Except Exc i.Answer} (h : e.awaken j i r = some e') : SameWay e e' := by
  unfold awaken at h
  repeat' split at h
  all_goals first
  | cases h; exact ⟨rfl, rfl, rfl, rfl⟩
  | (obtain ⟨l, _, rfl⟩ := Option.map_eq_some_iff.mp h; exact ⟨rfl, rfl, rfl, rfl⟩)
  | cases h

theorem resume_way {i : Op} {r : Except Exc i.Answer} (h : resume j i r e = some e') : SameWay e e' := by
  unfold resume at h
  split at h
  · split at h <;> cases h
    exact ⟨rfl, rfl, rfl, rfl⟩
  · exact awaken_way h

theorem Surrounded.attach (h : Surrounded e) (hdialling : e.dialling = .dialling) :
    Surrounded { e with dialling := .attached, upstreamClient := some e.attempts, attempts := e.attempts + 1 } := by
  intro hrunning
  obtain ⟨s, hs, hlock, _, hconnections, hloop, _⟩ := h hrunning
  rw [hdialling] at hloop
  have hstep : s.step .connect =
      some { s with loop := .connected, upstreamClient := some s.connections, connections := s.connections + 1 } := if_pos hloop
  exact ⟨_, hs.tail ⟨.connect, hstep, trivial⟩, hlock, congrArg some hconnections, congrArg (· + 1) hconnections, rfl, nofun⟩

theorem Surrounded.lose (h : Surrounded e) (proxy : MQTTProxy) : Surrounded { e.away with proxy := proxy } := by
  intro hrunning
  obtain ⟨s, hs, hlock, _, hconnections, hloop, haway⟩ := h hrunning
  cases hphase : s.loop with
  | away => exact ⟨s, hs, hlock, haway hphase, hconnections, hphase, haway⟩
  | connected =>
      have hstep : s.step .lose =
          some ({ s with loop := .away, upstreamClient := none, losses := s.losses + 1 }.clearPushallPending) := by
        simp only [Pushall.step, hphase]
      exact ⟨_, hs.tail ⟨.lose, hstep, trivial⟩, hlock, rfl, hconnections, rfl, fun _ => rfl⟩
  | asking r =>
      rw [hphase] at hloop
      cases hdialling : e.dialling <;> simp [hdialling, loopPhase] at hloop

theorem tick_surrounded {b : Tick} (h : Surrounded e) (hstep : e.tick cfg J b = some e') : Surrounded e' := by
  have hsame : SameWay e e' → Surrounded e' := h.way
  cases b with
  | attach =>
      obtain ⟨hdialling, ⟨⟩⟩ := Option.ite_none_right_eq_some.mp hstep
      exact h.attach hdialling
  | detach =>
      simp only [tick] at hstep
      split at hstep <;> cases hstep
      exact h.lose e.proxy
  | lose =>
      obtain ⟨proxy, _, rfl⟩ := Option.map_eq_some_iff.mp hstep
      exact h.lose proxy
  | stop =>
      cases hstep
      rintro ⟨⟩
  | dial =>
      obtain ⟨hidle, ⟨⟩⟩ := Option.ite_none_right_eq_some.mp hstep
      simp only [Bool.and_eq_true, decide_eq_true_eq] at hidle
      exact hsame ⟨rfl, rfl, rfl, by rw [hidle.2]; rfl⟩
  | subscribed =>
      obtain ⟨hattached, ⟨⟩⟩ := Option.ite_none_right_eq_some.mp hstep
      exact hsame ⟨rfl, rfl, rfl, by rw [hattached]; rfl⟩
  | send j =>
      simp only [tick] at hstep
      repeat' split at hstep
      · obtain ⟨proxy, _, rfl⟩ := Option.map_eq_some_iff.mp hstep
        exact hsame ((put_way e j _).trans ⟨rfl, rfl, rfl, rfl⟩)
      · cases hstep
      · cases hstep
  | _ =>
      refine hsame ?_
      simp only [tick] at hstep
      repeat' split at hstep
      all_goals first
      | cases hstep; exact ⟨rfl, rfl, rfl, rfl⟩
      | (obtain ⟨x, _, rfl⟩ := Option.map_eq_some_iff.mp hstep; exact ⟨rfl, rfl, rfl, rfl⟩)
      | cases hstep

theorem surrounded_runs {peers : Nat → Peer} {c : ServerConfig}
    (hrun : (mqttServer cfg J).Runs (fun _ _ _ => True) (listening peers) c) : Surrounded c.env := by
  induction hrun with
  | refl => exact fun _ => ⟨.init, .refl, rfl, rfl, rfl, rfl, fun _ => rfl⟩
  | tail _ hlast ih =>
      obtain ⟨a, hstep, _⟩ := hlast
      refine System.step_keeps (X := Surrounded) (mqttServer cfg J) (fun j e s e' h hspawn => ?_)
        (fun j i e r e' _ h hsync => h.way (sync_way hsync)) (fun j i r e e' _ h hresume => h.way (resume_way hresume))
        (fun b e e' h htick => tick_surrounded h htick) hstep ih
      cases hspawn
      exact h

end Server

end PandaProxy.Mqtt
