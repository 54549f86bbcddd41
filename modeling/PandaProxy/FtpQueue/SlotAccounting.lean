import PandaProxy.Async.Machine
import PandaProxy.FtpQueue.SlotRuns

namespace PandaProxy.FtpQueue

open Async

def Waiter.ahead (v w : Waiter) : Prop :=
  v.priority < w.priority ∨ v.priority = w.priority ∧ v.seq < w.seq

namespace QueueRun

structure Accounted (x : QueueRun) (maxConcurrent : Int) : Prop where
  nonneg : 0 ≤ x.queue.active
  bounded : x.queue.active ≤ maxConcurrent
  owned : x.queue.active = x.owners.card
  busy : ∀ c, x.Pending c → x.queue.active = maxConcurrent

def IsNext (x : QueueRun) (c : Nat) : Prop :=
  x.Pending c ∧ ∀ d v w m n, x.calls c = .awaiting v m → x.calls d = .awaiting w n →
    x.futures d = .pending → d ≠ c → v.ahead w

structure HandsOver (x y : QueueRun) : Prop where
  freed : ∀ c ∈ x.owners, c ∉ y.owners → (∃ d, x.Pending d) → ∃ d ∈ y.owners, x.IsNext d
  granted : ∀ d ∈ y.owners, d ∉ x.owners → (∃ c, x.Pending c) → x.IsNext d
  arrival : ∀ c w m, y.calls c = .awaiting w m → (∀ v n, x.calls c ≠ .awaiting v n) →
    ∀ d v n, x.calls d = .awaiting v n → v.seq < w.seq

theorem Sound.accounted {x : QueueRun} (h : x.Sound) : x.Accounted x.queue.maxConcurrent :=
  ⟨h.active_nonneg, h.bound, h.count, h.busy⟩

theorem Ledger.isNext {x : QueueRun} (h : x.Ledger) {pre post : List Waiter} {w : Waiter}
    (hws : x.queue.waiters = pre ++ w :: post)
    (hpre : ∀ v ∈ pre, (x.futures v.future).done = true) (hw : x.futures w.future = .pending) :
    x.IsNext w.future := by
  obtain ⟨m, hm⟩ := (h.queued w (by simp [hws])).1
  refine ⟨⟨⟨w, m, hm⟩, hw⟩, ?_⟩
  intro d v u k n hv hu hp hne
  rw [hm, Call.awaiting.injEq] at hv
  obtain ⟨rfl, _⟩ := hv
  have hud := (h.named d u n hu).1
  have hmem := h.waits d u n hu hp
  rw [hws] at hmem
  rcases List.mem_append.mp hmem with hmem | hmem
  · have := hpre u hmem
    rw [hud, hp] at this
    simp at this
  · rcases List.mem_cons.mp hmem with rfl | hmem
    · exact absurd hud.symm hne
    · have hs := h.sorted
      rw [hws] at hs
      have hbefore := (List.pairwise_cons.mp (List.pairwise_append.mp hs).2.1).1 u hmem
      have hseq : w.seq ≠ u.seq := fun he => hne (h.seqInj _ _ _ _ _ _ hm hu he).symm
      simp only [Waiter.before] at hbefore
      simp only [Waiter.ahead]
      omega

theorem isNext_of_leave {x : QueueRun} {c d : Nat} {active : Int} (hc : ¬ x.Pending c)
    (h : (x.leave c active).IsNext d) : x.IsNext d := by
  obtain ⟨hne, hd⟩ := pending_of_leave h.1
  refine ⟨hd, ?_⟩
  intro e v w m n hv hw hp hed
  have hec : e ≠ c := fun he => hc (he ▸ ⟨⟨w, n, hw⟩, hp⟩)
  refine h.2 e v w m n ?_ ?_ hp hed
  · rw [← hv]
    exact Function.update_of_ne hne _ _
  · rw [← hw]
    exact Function.update_of_ne hec _ _

theorem pending_leave {x : QueueRun} {c d : Nat} {active : Int} (hne : d ≠ c) (h : x.Pending d) :
    (x.leave c active).Pending d := by
  obtain ⟨⟨w, m, hd⟩, hp⟩ := h
  refine ⟨⟨w, m, ?_⟩, hp⟩
  rw [← hd]
  exact Function.update_of_ne hne _ _

theorem not_pending_of_granted {x : QueueRun} {c : Nat} (hc : x.granted c = true) :
    ¬ x.Pending c := by
  rintro ⟨⟨w, m, hw⟩, hp⟩
  simp [granted, hw, hp] at hc

theorem owner_granted {x : QueueRun} {c : Nat} (h : c ∈ x.owners) : x.granted c = true :=
  (mem_owners.mp h).2

theorem Sound.hand_back_over {x : QueueRun} (h : x.Sound) {c : Nat} (hc : x.granted c = true) :
    HandsOver x (x.leave c (x.queue.active - 1)).wake := by
  have hz := h.leave_owner hc
  have hnp := not_pending_of_granted hc
  have hself : (x.leave c (x.queue.active - 1)).granted c = false := leave_granted_self
  have harrival : ∀ d w m, (x.leave c (x.queue.active - 1)).wake.calls d = .awaiting w m →
      (∀ v n, x.calls d ≠ .awaiting v n) → False := by
    intro d w m hd hx
    rw [wake_calls] at hd
    exact hx w m (awaiting_of_update (by simp) hd).2
  rcases (x.leave c (x.queue.active - 1)).wake_cases with
    ⟨pre, w, post, hws, hpre, hw, hlt, he⟩ | ⟨hmax, he⟩ | ⟨hlt, hall, he⟩
  · have hnext := isNext_of_leave hnp (hz.isNext hws hpre hw)
    obtain ⟨m, hm⟩ := (hz.queued w (by simp [hws])).1
    have hborn : w.future < x.born := hz.born_of_ne (by simp [hm])
    refine ⟨fun d _ _ _ => ⟨w.future, ?_, hnext⟩, fun d hd hx _ => ?_,
      fun d v n hd hx => (harrival d v n hd hx).elim⟩
    · rw [he]
      exact mem_owners.mpr ⟨hborn, by simp [QueueRun.granted, hm]⟩
    · by_cases hdw : d = w.future
      · exact hdw ▸ hnext
      · have hkeep : (x.leave c (x.queue.active - 1)).wake.granted d =
            (x.leave c (x.queue.active - 1)).granted d := by
          rw [he]
          exact granted_congr rfl (Function.update_of_ne hdw _ _)
        have hg := owner_granted hd
        rw [hkeep] at hg
        by_cases hdc : d = c
        · rw [hdc, hself] at hg
          cases hg
        · rw [leave_granted hdc] at hg
          have hborn : d < x.born := (mem_owners.mp hd).1
          exact absurd (mem_owners.mpr ⟨hborn, hg⟩) hx
  · have hb := h.bound
    simp only [leave, SessionQueue.book_active, SessionQueue.book_maxConcurrent] at hmax
    omega
  · have hnone : ∀ d, ¬ x.Pending d := by
      intro d hd
      have hne : d ≠ c := fun e => hnp (e ▸ hd)
      obtain ⟨⟨w, m, hc'⟩, hp⟩ := @pending_leave x c d (x.queue.active - 1) hne hd
      have := hall w (hz.waits d w m hc' hp)
      rw [(hz.named d w m hc').1, hp] at this
      simp at this
    exact ⟨fun d _ _ hp => (hnone _ hp.choose_spec).elim,
      fun d _ _ hp => (hnone _ hp.choose_spec).elim,
      fun d v n hd hx => (harrival d v n hd hx).elim⟩

theorem HandsOver.idle {x y : QueueRun} (hg : ∀ d, y.granted d = x.granted d) (hb : x.born ≤ y.born)
    (hu : ∀ c, x.born ≤ c → x.granted c = false)
    (ha : ∀ c w m, y.calls c = .awaiting w m → ∃ v n, x.calls c = .awaiting v n) :
    HandsOver x y := by
  refine ⟨?_, ?_, ?_⟩
  · intro c hc hn
    obtain ⟨hborn, hgc⟩ := mem_owners.mp hc
    exact absurd (mem_owners.mpr ⟨by omega, (hg c).trans hgc⟩) hn
  · intro d hd hn
    have hgd := (hg d).symm.trans (mem_owners.mp hd).2
    by_cases hlt : d < x.born
    · exact absurd (mem_owners.mpr ⟨hlt, hgd⟩) hn
    · rw [hu d (by omega)] at hgd
      cases hgd
  · intro c w m hc hx
    obtain ⟨v, n, hv⟩ := ha c w m hc
    exact absurd hv (hx v n)

theorem HandsOver.setCall {x : QueueRun} (h : x.Sound) {c : Nat} {s : Call}
    (hs : ∀ w m, s = .awaiting w m → ∃ v n, x.calls c = .awaiting v n)
    (hg : (x.setCall c s).granted c = x.granted c) : HandsOver x (x.setCall c s) := by
  refine .idle (granted_setCall hg) (Nat.le_refl _) ?_ ?_
  · intro d hd
    simp [QueueRun.granted, h.unborn d hd]
  · intro d w m hd
    by_cases he : d = c
    · subst he
      rw [setCall_calls, Function.update_self] at hd
      exact hs w m hd
    · rw [setCall_calls, Function.update_of_ne he] at hd
      exact ⟨w, m, hd⟩

theorem HandsOver.startFree {x : QueueRun} (h : x.Sound) {c : Nat}
    (hlt : x.queue.active < x.queue.maxConcurrent) :
    HandsOver x ({ x with queue := x.queue.book (x.queue.active + 1) x.queue.waiters }.setCall c
      .holding) := by
  have hnone : ¬ ∃ d, x.Pending d := by
    rintro ⟨d, hd⟩
    have := h.busy d hd
    omega
  refine ⟨fun _ _ _ hp => (hnone hp).elim, fun _ _ _ hp => (hnone hp).elim, ?_⟩
  intro d w m hd hx
  exact absurd (awaiting_of_update (x := x) (by simp) hd).2 (hx w m)

theorem HandsOver.enqueue {x : QueueRun} (h : x.Sound) {c : Nat} {p : Int}
    (hc : x.calls c = .created p false) : HandsOver x (x.enqueue c p) := by
  have hg : ∀ d, (x.enqueue c p).granted d = x.granted d := by
    intro d
    by_cases hd : d = c
    · subst hd
      simp [QueueRun.granted, QueueRun.enqueue, hc]
    · refine granted_congr ?_ ?_ <;> simp only [QueueRun.enqueue, Function.update_of_ne hd]
  have howners : (x.enqueue c p).owners = x.owners := owners_congr rfl hg
  refine ⟨fun d hd hn => absurd (howners ▸ hd) hn, fun d hd hn => absurd (howners ▸ hd) hn, ?_⟩
  intro d w m hd hx e v n he
  by_cases hdc : d = c
  · subst hdc
    simp only [QueueRun.enqueue, Function.update_self, Call.awaiting.injEq] at hd
    have := (h.named e v n he).2
    rw [← hd.1]
    exact this
  · simp only [QueueRun.enqueue, Function.update_of_ne hdc] at hd
    exact absurd hd (hx w m)

theorem Moves.handsOver {x y : QueueRun} {a : QueueAct} (hs : x.Sound) (h : Moves x a y) :
    HandsOver x y := by
  have hunborn : ∀ c, x.born ≤ c → x.granted c = false := by
    intro c hc
    simp [QueueRun.granted, hs.unborn c hc]
  cases h with
  | create p =>
      refine .idle (fun d => ?_) (Nat.le_succ _) hunborn ?_
      · by_cases hd : d = x.born
        · subst hd
          rw [hunborn _ (Nat.le_refl _)]
          simp [QueueRun.granted]
        · exact granted_congr (Function.update_of_ne hd _ _) rfl
      · intro d w m hd
        exact ⟨w, m, (awaiting_of_update (by simp) hd).2⟩
  | startCancelled hc => exact .setCall hs (by simp) (by simp [QueueRun.granted, hc])
  | startFree hc hlt => exact .startFree hs hlt
  | startQueued hc hle => exact .enqueue hs hc
  | cancelEarly hc => exact .setCall hs (by simp) (by simp [QueueRun.granted, hc])
  | @cancelPending c _ _ hc hp =>
      refine .idle (fun d => ?_) (Nat.le_refl _) hunborn (fun d w m hd => ⟨w, m, hd⟩)
      by_cases hd : d = c
      · subst hd
        simp [QueueRun.granted, hc, hp]
      · exact granted_congr rfl (Function.update_of_ne hd _ _)
  | cancelLate hc hp =>
      refine .setCall hs (fun w m _ => ⟨_, _, hc⟩) ?_
      rw [granted_of_awaiting hc]
      exact granted_of_awaiting (Function.update_self _ _ _)
  | cancelIdle hc => exact .idle (fun _ => rfl) (Nat.le_refl _) hunborn (fun d w m hd => ⟨w, m, hd⟩)
  | @resumeDropped c _ _ hc hf =>
      refine .idle (fun d => ?_) (Nat.le_refl _) hunborn ?_
      · by_cases hd : d = c
        · rw [hd, leave_granted_self, granted_of_awaiting hc]
          simp [hf]
        · exact leave_granted hd
      · intro d w m hd
        exact ⟨w, m, (awaiting_of_update (x := x) (by simp) hd).2⟩
  | resumeHandBack hc hf => exact hs.hand_back_over (by simp [QueueRun.granted, hc, hf])
  | resumeHolding hc hf => exact .setCall hs (by simp) (by simp [QueueRun.granted, hc, hf])
  | release hc => exact hs.hand_back_over (by simp [QueueRun.granted, hc])

theorem reachable_maxConcurrent {q : SessionQueue} {x : QueueRun} (ha : q.active = 0)
    (hw : q.waiters = []) (h : Reachable q x) : x.queue.maxConcurrent = q.maxConcurrent := by
  induction h with
  | refl => rfl
  | tail hreach hstep ih =>
      obtain ⟨a, hstep⟩ := hstep
      rw [(step_moves (reachable_sound ha hw hreach) hstep).maxConcurrent, ih]

theorem slot_accounting {maxConcurrent : Int} {q : SessionQueue} {x : QueueRun}
    (hq : SessionQueue.init maxConcurrent = some q) (hx : Reachable q x) :
    x.Accounted maxConcurrent ∧ ∀ a y, x.step a = some y → HandsOver x y := by
  obtain ⟨hmax, ha, hw⟩ := init_spec hq
  have hs := reachable_sound ha hw hx
  refine ⟨?_, fun a y h => (step_moves hs h).handsOver hs⟩
  rw [← hmax, ← reachable_maxConcurrent ha hw hx]
  exact hs.accounted

def machine : Machine QueueRun QueueAct := ⟨step⟩

theorem play_reachable {q : SessionQueue} {x : QueueRun} {acts : List QueueAct} (h : machine.play (fresh q) acts = some x) :
    Reachable q x := by
  refine Relation.ReflTransGen.mono ?_ _ _ (Machine.play_runs h)
  rintro x y ⟨a, ha, _⟩
  exact ⟨a, ha⟩

def onePermit : SessionQueue := ⟨1, 0, [], 0, by omega⟩

-- A listing holds the slot, a listing and an upload queue behind it, the queued listing gives up.
def contention : List QueueAct :=
  [.create priorityNormal, .start 0, .create priorityNormal, .start 1, .create priorityUpload,
    .start 2, .cancel 1]

theorem slot_accounting_contention : ∃ x, machine.play (fresh onePermit) contention = some x ∧
    x.Accounted 1 ∧ ∀ a y, x.step a = some y → HandsOver x y := by
  have hsome : (machine.play (fresh onePermit) contention).isSome = true := by decide
  obtain ⟨x, hx⟩ := Option.isSome_iff_exists.mp hsome
  have hreach := play_reachable hx
  have hinit : SessionQueue.init 1 = some onePermit := rfl
  have hspec := slot_accounting hinit hreach
  exact ⟨x, hx, hspec.1, hspec.2⟩

end QueueRun

end PandaProxy.FtpQueue
