import PandaProxy.Rtsp.Supervision

namespace PandaProxy.Rtsp

open Async

namespace RTSPProxy

variable {e e' : RTSPProxy} {kind k : Kind} {p q : Nat} {j m : Task} {orderly : Bool} {i : Op}

def stays : Op → Bool
  | .setRunning true => false
  | .createConfig => false
  | .popen _ => false
  | .closeTransport _ => false
  | .assign _ _ => false
  | .createLogTask _ => false
  | .forget _ => false
  | .returned => false
  | .ended => false
  | _ => true

theorem stays_calms (h : stays i = true) : calms i = true ∧ closes i = false := by
  cases i with
  | setRunning running =>
      cases running with
      | true => cases h
      | false => exact ⟨rfl, rfl⟩
  | createConfig | popen | closeTransport | assign | createLogTask | forget | returned | ended => cases h
  | _ => exact ⟨rfl, rfl⟩

theorem sync_stays {r : Except Exc i.Answer} (hi : stays i = true) (hs : sync j i e = some (r, e')) :
    SameHolders e e' ∧ e'.logTask = e.logTask := by
  cases i with
  | setRunning running =>
      cases hs
      exact ⟨⟨rfl, rfl⟩, rfl⟩
  | createConfig | popen | closeTransport | assign | createLogTask | forget | returned | ended => cases hi
  | connectPipes | reap | sleep | wait | joinMonitor => cases hs
  | running | process | exited | terminate | enlist =>
      cases hs
      exact ⟨⟨rfl, rfl⟩, rfl⟩
  | kill p =>
      cases hs
      split <;> exact ⟨⟨rfl, rfl⟩, rfl⟩
  | dropLogTask | dropLogTasks =>
      simp only [sync] at hs
      split at hs <;> cases hs
      exact ⟨⟨rfl, rfl⟩, rfl⟩
  | cancelMonitor =>
      cases hs
      split <;> exact ⟨⟨rfl, rfl⟩, rfl⟩
  | removeConfig =>
      cases hs
      unfold RTSPProxy.removeConfig
      split
      · split <;> exact ⟨⟨rfl, rfl⟩, rfl⟩
      · exact ⟨⟨rfl, rfl⟩, rfl⟩

theorem sync_supervised {r : Except Exc i.Answer} (h : Supervised orderly e) (hj : Active j e) (howes : Owes orderly j i e)
    (hs : sync j i e = some (r, e')) : Supervised orderly e' := by
  by_cases hi : stays i = true
  · obtain ⟨hcalm, hopen⟩ := stays_calms hi
    obtain ⟨hholders, hlog⟩ := sync_stays hi hs
    exact h.kept (sync_fades hcalm hs) (sync_tasks hopen hs) hholders hlog
  · cases i with
    | setRunning running =>
        cases running with
        | true =>
            cases howes
            cases hs
            refine h.retasked ⟨rfl, rfl, rfl, fun _ => id, id⟩ rfl rfl ⟨rfl, rfl⟩ rfl (fun hr ho => ?_) fun hm => ?_
            · cases (h.not_stopped hj (by rintro ⟨⟩) hr).symm.trans ho
            · cases hj.2.symm.trans (h.monitored (h.ends _ hm))
        | false => exact absurd rfl hi
    | createConfig =>
        cases howes
        simp only [sync, Option.some.injEq] at hs
        have hconfig := h.createConfig hj
        rw [hs] at hconfig
        exact hconfig
    | popen kind =>
        simp only [sync] at hs
        split at hs <;> cases hs
        · exact h.popen hj howes.1 howes.2.1 howes.2.2
        · exact h
    | closeTransport p =>
        cases hs
        exact h.closeTransport howes.2
    | assign kind p =>
        cases hs
        exact h.assign hj howes.1 howes.2.1 howes.2.2.1
    | createLogTask kind =>
        simp only [sync] at hs
        split at hs
        · next p hp =>
            cases hs
            exact h.createLogTask hj howes.1 howes.2 hp
        · cases hs
          exact h
    | forget kind =>
        cases hs
        obtain ⟨rfl, _, hspent⟩ := howes
        exact h.forget hj.1 hspent
    | returned =>
        cases hs
        exact h.returned hj howes
    | ended =>
        cases hs
        exact h.ended hj howes
    | _ => exact absurd rfl hi

theorem awaken_supervised {r : Except Exc i.Answer} (h : Supervised orderly e) (hs : e.awaken i r = some e') :
    Supervised orderly e' := by
  unfold awaken at hs
  split at hs
  case h_1 | h_2 | h_4 | h_6 | h_8 | h_10 =>
    cases hs
    exact h
  case h_3 | h_5 | h_11 =>
    split at hs <;> cases hs
    exact h
  case h_7 =>
    cases hs
    exact h.dropLogTask _
  case h_9 =>
    cases hs
    exact (h.dropLogTask .ffmpeg).dropLogTask .mediamtx
  case h_12 => cases hs

theorem Supervised.cancelling (h : Supervised orderly e) (c : Task → Bool) : Supervised orderly { e with cancelling := c } :=
  h.retasked ⟨rfl, rfl, rfl, fun _ => id, id⟩ rfl rfl ⟨rfl, rfl⟩ rfl
    (fun hr ho => ((h.stopped hr).2.2 ho).same rfl rfl rfl rfl) h.gaveUp

theorem resume_supervised {r : Except Exc i.Answer} (h : Supervised orderly e) (hs : resume j i r e = some e') :
    Supervised orderly e' := by
  cases resume_cases hs with
  | awakes hs => exact awaken_supervised h hs
  | swallows _ hs => exact awaken_supervised (h.cancelling (Function.update e.cancelling j false)) hs
  | throws _ _ hs =>
      subst hs
      exact h.retasked ⟨rfl, rfl, rfl, e.thrown_mono j, id⟩ rfl rfl ⟨rfl, rfl⟩ rfl
        (fun hr ho => ((h.stopped hr).2.2 ho).same rfl rfl rfl rfl)
        fun hm => (h.gaveUp hm).imp id (e.thrown_mono j .monitor)

theorem tick_holders {b : Tick} (hs : e.tick b = some e') : SameHolders e e' ∧ e'.logTask = e.logTask := by
  cases b with
  | lose p =>
      simp only [tick] at hs
      split at hs <;> cases hs
      exact ⟨⟨rfl, rfl⟩, rfl⟩
  | exit | readerEnds | cancel | disk | exec =>
      cases hs
      exact ⟨⟨rfl, rfl⟩, rfl⟩

theorem tick_tasks {b : Tick} (hs : e.tick b = some e') : SameTasks e e' := by
  cases b with
  | lose p =>
      simp only [tick] at hs
      split at hs <;> cases hs
      exact ⟨rfl, rfl, rfl, fun _ => id, id⟩
  | exit | readerEnds | cancel | disk | exec =>
      cases hs
      exact ⟨rfl, rfl, rfl, fun _ => id, id⟩

theorem tick_supervised {b : Tick} (h : Supervised orderly e) (hs : e.tick b = some e') : Supervised orderly e' := by
  obtain ⟨hholders, hlog⟩ := tick_holders hs
  exact h.kept (tick_fades hs) (tick_tasks hs) hholders hlog

structure Spawns (orderly : Bool) (j : Task) (e : RTSPProxy) (s : Task) (e' : RTSPProxy) : Prop where
  self : s = j
  env : e' = { e with begun := Function.update e.begun j true }
  fresh : e.begun j = false
  monitor : j = .monitor → e.returned .start = true ∧ e.ended .start = true ∧ e.begun .stop = false
  stop : j = .stop → e.begun .start = true ∧ (e.begun .monitor = true → e.monitorTask = true) ∧
    (orderly = true → e.ended .start = true)

theorem spawn_cases {s : Task} (hs : spawn orderly j e = some (s, e')) : Spawns orderly j e s e' := by
  simp only [spawn] at hs
  obtain ⟨hdue, hs⟩ := Option.ite_none_right_eq_some.mp hs
  cases hs
  simp only [Bool.and_eq_true, Bool.not_eq_true'] at hdue
  refine ⟨rfl, rfl, hdue.2, ?_, ?_⟩
  · rintro rfl
    simp only [Bool.and_eq_true, Bool.not_eq_true'] at hdue
    exact ⟨hdue.1.1.1, hdue.1.1.2, hdue.1.2⟩
  · rintro rfl
    simp only [Bool.and_eq_true, Bool.or_eq_true, Bool.not_eq_true'] at hdue
    obtain ⟨⟨⟨hstart, hmonitor⟩, horderly⟩, _⟩ := hdue
    refine ⟨hstart, fun hm => ?_, fun ho => ?_⟩
    · exact hmonitor.resolve_left fun hnot => by cases hnot.symm.trans hm
    · exact horderly.resolve_left fun hnot => by cases hnot.symm.trans ho

theorem begun_mono (e : RTSPProxy) (j : Task) (h : e.begun m = true) : Function.update e.begun j true m = true := by
  by_cases hmj : m = j
  · subst hmj
    exact Function.update_self _ _ _
  · rwa [Function.update_of_ne hmj]

theorem spawn_supervised {s : Task} (h : Supervised orderly e) (hs : Spawns orderly j e s e') : Supervised orderly e' := by
  obtain ⟨rfl, rfl, hfresh, hmonitor, hstop⟩ := hs
  have hbefore : ∀ {m}, Function.update e.begun s true m = true → m = s ∨ e.begun m = true := by
    intro m hm
    by_cases hms : m = s
    · exact .inl hms
    · exact .inr ((Function.update_of_ne hms _ _).symm.trans hm)
  have hactive : ∀ {m}, Active m e → Active m { e with begun := Function.update e.begun s true } :=
    fun hm => ⟨e.begun_mono s hm.1, hm.2⟩
  have hjoined : e.begun .stop = true → Joined e → Joined { e with begun := Function.update e.begun s true } := by
    intro hbegun hj hm
    rcases hbefore hm with rfl | hm
    · cases hbegun.symm.trans (hmonitor rfl).2.2
    · exact hj hm
  refine ⟨h.single, h.held, h.known, h.opened, fun k p hp => (h.opener k p hp).imp hactive hactive, h.unborn, h.read, h.logged,
    fun m hm => e.begun_mono s (h.ends m hm), ?_, ?_, ?_, ?_, h.gaveUp⟩
  · intro hm
    rcases hbefore hm with rfl | hm
    · exact (hmonitor rfl).2.1
    · exact h.monitored hm
  · intro hended hreturned hbegun hstop
    refine h.handed hended hreturned ?_ fun _ => ?_
    · cases hm : e.begun .monitor with
      | false => rfl
      | true => cases (e.begun_mono s hm).symm.trans hbegun
    · cases hm : e.begun .stop with
      | false => rfl
      | true => cases (e.begun_mono s hm).symm.trans (hstop rfl)
  · intro hm
    rcases hbefore hm with rfl | hm
    · obtain ⟨hstart, hmonitor, horderly⟩ := hstop rfl
      exact ⟨e.begun_mono .stop hstart, fun hm => hmonitor ((hbefore hm).resolve_left (by rintro ⟨⟩)), horderly⟩
    · obtain ⟨hstart, htask, horderly⟩ := h.stopping hm
      refine ⟨e.begun_mono s hstart, fun hbegun => ?_, horderly⟩
      rcases hbefore hbegun with rfl | hbegun
      · cases hm.symm.trans (hmonitor rfl).2.2
      · exact htask hbegun
  · intro hr
    obtain ⟨hbegun, hover, hquiet⟩ := h.stopped hr
    exact ⟨e.begun_mono s hbegun, hjoined hbegun hover, fun ho => (hquiet ho).same rfl rfl rfl rfl⟩

theorem sync_flags {r : Except Exc i.Answer} (hm : m ≠ j) (hs : sync j i e = some (r, e')) : SameFlags m e e' := by
  by_cases hc : closes i = true
  · cases i with
    | returned =>
        cases hs
        exact ⟨rfl, Function.update_of_ne hm _ _, rfl, id⟩
    | ended =>
        cases hs
        exact ⟨rfl, rfl, Function.update_of_ne hm _ _, id⟩
    | _ => cases hc
  · exact (sync_tasks (by simpa using hc) hs).flags m

theorem rely_calm (hflags : SameFlags m e e') (hf : Fades e e') (hs : SameHolders e e') (hbegun : e'.begun = e.begun)
    (hended : ∀ i, e.ended i = true → e'.ended i = true) : Rely orderly m e e' where
  flags := hflags
  fades _ := hf
  opening _ _ := hs.opening
  secure _ _ _ h := h.fades hf hs.process fun hb => (congrFun hbegun .stop).trans hb
  joined _ _ h hm := hended _ (h ((congrFun hbegun .monitor).symm.trans hm))
  minds _ _ _ k _ hp := (congrFun hs.process k).trans hp
  halted _ _ _ := hf.running

theorem tick_rely {b : Tick} (hs : e.tick b = some e') : Rely orderly m e e' := by
  have ht := tick_tasks hs
  exact rely_calm (ht.flags m) (tick_fades hs) (tick_holders hs).1 ht.begun (fun i hi => (congrFun ht.ended i).trans hi)

theorem resume_rely {r : Except Exc i.Answer} (hs : resume j i r e = some e') : Rely orderly m e e' := by
  have ht := resume_tasks hs
  exact rely_calm (ht.flags m) (resume_fades hs) (resume_holders hs) ht.begun (fun i hi => (congrFun ht.ended i).trans hi)

-- The calls of `start` and of the monitor that change more: nobody else launches anything then.
theorem rely_launcher (h : Supervised orderly e) (hj : Active j e) (hstop : j ≠ .stop) (hm : m ≠ j) (ht : SameTasks e e')
    (hminds : e.begun .stop = true → Joined e → Minds e e') (hrunning : j ≠ .start → e'.running = true → e.running = true) :
    Rely orderly m e e' where
  flags := ht.flags m
  fades hx := absurd hx (h.alone hj hstop hm)
  opening hms hactive := absurd (h.same_launcher hj hactive hstop hms) hm
  secure hms hactive := absurd (h.same_launcher hj hactive hstop hms) hm
  joined _ _ := ht.joined.mpr
  minds _ hactive := hminds hactive.1
  halted _ hactive ho := by
    refine hrunning fun hjs => ?_
    subst hjs
    cases hj.2.symm.trans ((h.stopping hactive.1).2.2 ho)

theorem launcher_start (hj : Active j e) (hstop : j ≠ .stop) (hjoined : Joined e) : j = .start := by
  cases j with
  | start => rfl
  | monitor => cases hj.2.symm.trans (hjoined hj.1)
  | stop => exact absurd rfl hstop

theorem assign_minds (hnone : e.process kind = none) (p : Nat) : Minds e (e.assign kind p) := by
  intro k q hq
  by_cases hk : k = kind
  · subst hk
    cases hnone.symm.trans hq
  · exact (Function.update_of_ne hk _ _).trans hq

theorem createConfig_minds (e : RTSPProxy) : Minds e e.createConfig.2 := by
  intro k p hp
  rw [(createConfig_holders e).process]
  exact hp

theorem sync_rely {r : Except Exc i.Answer} (h : Supervised orderly e) (hj : Active j e) (howes : Owes orderly j i e) (hm : m ≠ j)
    (hs : sync j i e = some (r, e')) : Rely orderly m e e' := by
  by_cases hi : stays i = true
  · obtain ⟨hcalm, hopen⟩ := stays_calms hi
    have ht := sync_tasks hopen hs
    exact rely_calm (ht.flags m) (sync_fades hcalm hs) (sync_stays hi hs).1 ht.begun (fun i hi => (congrFun ht.ended i).trans hi)
  · cases i with
    | setRunning running =>
        cases running with
        | true =>
            cases howes
            cases hs
            exact rely_launcher h hj (by rintro ⟨⟩) hm ⟨rfl, rfl, rfl, fun _ => id, id⟩
              (fun _ _ _ _ => id) fun hne => absurd rfl hne
        | false => exact absurd rfl hi
    | createConfig =>
        cases howes
        simp only [sync, Option.some.injEq] at hs
        have hconfig : Rely orderly m e e.createConfig.2 :=
          rely_launcher h hj (by rintro ⟨⟩) hm (.createConfig e) (fun _ _ => createConfig_minds e) fun hne => absurd rfl hne
        rw [hs] at hconfig
        exact hconfig
    | popen kind =>
        have ht := sync_tasks rfl hs
        simp only [sync] at hs
        split at hs <;> cases hs
        · exact rely_launcher h hj howes.1 hm ht (fun _ _ _ _ => id) fun _ => id
        · exact rely_launcher h hj howes.1 hm ht (fun _ _ _ _ => id) fun _ => id
    | closeTransport p =>
        have hf := sync_fades rfl hs
        have ht := sync_tasks rfl hs
        cases hs
        exact rely_launcher h hj howes.1 hm ht (fun _ _ _ _ => id)
          fun _ => hf.running
    | assign kind p =>
        have ht := sync_tasks rfl hs
        cases hs
        exact rely_launcher h hj howes.1 hm ht
          (fun _ hjoined => assign_minds (howes.2.2.2 (launcher_start hj howes.1 hjoined)) p) fun _ => id
    | createLogTask kind =>
        have ht := sync_tasks rfl hs
        simp only [sync] at hs
        split at hs <;> cases hs
        · exact rely_launcher h hj howes.1 hm ht (fun _ _ _ _ => id) fun _ => id
        · exact rely_launcher h hj howes.1 hm ht (fun _ _ _ _ => id) fun _ => id
    | forget kind =>
        have hf := sync_fades rfl hs
        cases hs
        obtain ⟨rfl, hjoined, _⟩ := howes
        refine ⟨⟨rfl, rfl, rfl, id⟩, fun _ => hf, fun _ _ => rfl, fun hstop hactive x _ => ?_, ?_, ?_, ?_⟩
        · obtain rfl := launcher_start hactive hstop hjoined
          intro hnot
          cases hj.1.symm.trans (hnot rfl)
        all_goals exact fun hms => absurd hms hm
    | returned =>
        have hflags := sync_flags hm hs
        cases hs
        exact rely_calm hflags (.unseen rfl rfl rfl rfl rfl rfl rfl rfl) ⟨rfl, rfl⟩ rfl fun _ => id
    | ended =>
        have hflags := sync_flags hm hs
        cases hs
        refine rely_calm hflags (.unseen rfl rfl rfl rfl rfl rfl rfl rfl) ⟨rfl, rfl⟩ rfl fun i hi => ?_
        by_cases hij : i = j
        · subst hij
          exact Function.update_self _ _ _
        · exact (Function.update_of_ne hij _ _).trans hi
    | _ => exact absurd rfl hi

theorem spawn_rely {s : Task} (hs : Spawns orderly j e s e') (hm : m ≠ j) : Rely orderly m e e' := by
  obtain ⟨rfl, rfl, _, hmonitor, _⟩ := hs
  have hf : Fades e { e with begun := Function.update e.begun s true } := .unseen rfl rfl rfl rfl rfl rfl rfl rfl
  refine ⟨⟨Function.update_of_ne hm _ _, rfl, rfl, id⟩, fun _ => hf, fun _ _ => rfl, fun _ _ _ h => ?_, ?_, fun _ _ _ _ _ => id, fun _ _ _ => id⟩
  · exact h.fades hf rfl (e.begun_mono s)
  · rintro rfl hactive hjoined hbegun
    by_cases hms : .monitor = s
    · cases hactive.1.symm.trans (hmonitor hms.symm).2.2
    · exact hjoined ((Function.update_of_ne hms _ _).symm.trans hbegun)

end RTSPProxy

end PandaProxy.Rtsp
