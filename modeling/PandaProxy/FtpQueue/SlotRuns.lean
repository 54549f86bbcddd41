import Mathlib.Data.Finset.Card
import Mathlib.Data.Finset.Range
import Mathlib.Logic.Relation
import PandaProxy.FtpQueue.SessionQueue

namespace PandaProxy.FtpQueue

open Async

-- One call of `acquire`, from the task that runs it to the slot being handed back.
inductive Call where
  | unborn
  | created (priority : Int) (mustCancel : Bool)
  | awaiting (entry : Waiter) (mustCancel : Bool)
  | holding
  | ended
  deriving DecidableEq, Repr

structure QueueRun where
  queue : SessionQueue
  futures : Nat → Fut
  calls : Nat → Call
  born : Nat

inductive QueueAct where
  | create (priority : Int)
  | start (c : Nat)
  | cancel (c : Nat)
  | resume (c : Nat)
  | release (c : Nat)
  deriving DecidableEq, Repr

namespace QueueRun

def fresh (q : SessionQueue) : QueueRun := ⟨q, fun _ => .pending, fun _ => .unborn, 0⟩

def setCall (x : QueueRun) (c : Nat) (s : Call) : QueueRun :=
  { x with calls := Function.update x.calls c s }

def settle (x : QueueRun) (r : SessionQueue × (Nat → Fut)) : QueueRun :=
  { x with queue := r.1, futures := r.2 }

def wake (x : QueueRun) : QueueRun := x.settle (x.queue.wakeNext x.futures)

-- A task resumes only when what it awaits is done; a cancellation that comes later than that
-- is thrown at the resumption.
def step (x : QueueRun) : QueueAct → Option QueueRun
  | .create p => some { x with calls := Function.update x.calls x.born (.created p false), born := x.born + 1 }
  | .start c =>
      match x.calls c with
      | .created _ true => some (x.setCall c .ended)
      | .created p false =>
          match x.queue.acquire p c with
          | (q, none) => some ({ x with queue := q }.setCall c .holding)
          | (q, some w) =>
              some ({ x with queue := q, futures := Function.update x.futures c .pending }.setCall c
                (.awaiting w false))
      | _ => none
  | .cancel c =>
      match x.calls c with
      | .unborn => none
      | .created p _ => some (x.setCall c (.created p true))
      | .awaiting w _ =>
          if x.futures c = .pending then
            some { x with futures := Function.update x.futures c (x.futures c).cancel }
          else some (x.setCall c (.awaiting w true))
      | _ => some x
  | .resume c =>
      match x.calls c with
      | .awaiting _ mustCancel =>
          if (x.futures c).done then
            if mustCancel ∨ x.futures c = .cancelled then
              some ((x.setCall c .ended).settle (x.queue.acquireCancelled x.futures c))
            else some (x.setCall c .holding)
          else none
      | _ => none
  | .release c =>
      match x.calls c with
      | .holding => some ((x.setCall c .ended).settle (x.queue.release x.futures))
      | _ => none

def Next (x y : QueueRun) : Prop := ∃ a, x.step a = some y

def Reachable (q : SessionQueue) (x : QueueRun) : Prop := Relation.ReflTransGen Next (fresh q) x

def Pending (x : QueueRun) (c : Nat) : Prop :=
  (∃ w m, x.calls c = .awaiting w m) ∧ x.futures c = .pending

def granted (x : QueueRun) (c : Nat) : Bool :=
  match x.calls c with
  | .holding => true
  | .awaiting _ _ => x.futures c = .result
  | _ => false

def owners (x : QueueRun) : Finset Nat := (Finset.range x.born).filter (fun c => x.granted c)

@[simp] theorem setCall_queue (x : QueueRun) (c : Nat) (s : Call) : (x.setCall c s).queue = x.queue := rfl

@[simp] theorem setCall_futures (x : QueueRun) (c : Nat) (s : Call) :
    (x.setCall c s).futures = x.futures := rfl

@[simp] theorem setCall_born (x : QueueRun) (c : Nat) (s : Call) : (x.setCall c s).born = x.born := rfl

@[simp] theorem setCall_calls (x : QueueRun) (c : Nat) (s : Call) :
    (x.setCall c s).calls = Function.update x.calls c s := rfl

@[simp] theorem settle_calls (x : QueueRun) (r : SessionQueue × (Nat → Fut)) :
    (x.settle r).calls = x.calls := rfl

@[simp] theorem settle_born (x : QueueRun) (r : SessionQueue × (Nat → Fut)) :
    (x.settle r).born = x.born := rfl

@[simp] theorem settle_queue (x : QueueRun) (r : SessionQueue × (Nat → Fut)) :
    (x.settle r).queue = r.1 := rfl

@[simp] theorem settle_futures (x : QueueRun) (r : SessionQueue × (Nat → Fut)) :
    (x.settle r).futures = r.2 := rfl

end QueueRun

theorem SessionQueue.wakeLoop_cases (max active : Int) (ws : List Waiter) (f : Nat → Fut) :
    (∃ pre w post, ws = pre ++ w :: post ∧ (∀ v ∈ pre, (f v.future).done = true) ∧
      f w.future = .pending ∧ active < max ∧
      SessionQueue.wakeLoop max active ws f =
        (active + 1, post, Function.update f w.future .result)) ∨
    (max ≤ active ∧ SessionQueue.wakeLoop max active ws f = (active, ws, f)) ∨
    (active < max ∧ (∀ v ∈ ws, (f v.future).done = true) ∧
      SessionQueue.wakeLoop max active ws f = (active, [], f)) := by
  induction ws with
  | nil =>
      by_cases h : active < max
      · exact Or.inr (Or.inr ⟨h, by simp, rfl⟩)
      · exact Or.inr (Or.inl ⟨by omega, rfl⟩)
  | cons w ws ih =>
      by_cases h : active < max
      · by_cases hw : (f w.future).done = false
        · refine Or.inl ⟨[], w, ws, rfl, by simp, Fut.done_eq_false.mp hw, h, ?_⟩
          simp only [SessionQueue.wakeLoop, if_pos h, if_pos hw]
        · have hd : (f w.future).done = true := by simpa using hw
          have hl : SessionQueue.wakeLoop max active (w :: ws) f =
              SessionQueue.wakeLoop max active ws f := by
            simp only [SessionQueue.wakeLoop, if_pos h, if_neg hw]
          rw [hl]
          rcases ih with ⟨pre, v, post, rfl, hpre, hv, hlt, he⟩ | ⟨hle, _⟩ | ⟨_, hall, he⟩
          · refine Or.inl ⟨w :: pre, v, post, rfl, ?_, hv, hlt, he⟩
            intro u hu
            rcases List.mem_cons.mp hu with rfl | hu
            · exact hd
            · exact hpre u hu
          · omega
          · refine Or.inr (Or.inr ⟨h, ?_, he⟩)
            intro u hu
            rcases List.mem_cons.mp hu with rfl | hu
            · exact hd
            · exact hall u hu
      · refine Or.inr (Or.inl ⟨by omega, ?_⟩)
        simp only [SessionQueue.wakeLoop, if_neg h]

namespace QueueRun

theorem wake_cases (x : QueueRun) :
    (∃ pre w post, x.queue.waiters = pre ++ w :: post ∧
      (∀ v ∈ pre, (x.futures v.future).done = true) ∧ x.futures w.future = .pending ∧
      x.queue.active < x.queue.maxConcurrent ∧
      x.wake = { x with
        queue := x.queue.book (x.queue.active + 1) post
        futures := Function.update x.futures w.future .result }) ∨
    (x.queue.maxConcurrent ≤ x.queue.active ∧ x.wake = x) ∨
    (x.queue.active < x.queue.maxConcurrent ∧
      (∀ v ∈ x.queue.waiters, (x.futures v.future).done = true) ∧
      x.wake = { x with queue := x.queue.book x.queue.active [] }) := by
  rcases SessionQueue.wakeLoop_cases x.queue.maxConcurrent x.queue.active x.queue.waiters x.futures with
    ⟨pre, w, post, hws, hpre, hw, hlt, he⟩ | ⟨hle, he⟩ | ⟨hlt, hall, he⟩
  · refine Or.inl ⟨pre, w, post, hws, hpre, hw, hlt, ?_⟩
    simp only [wake, settle, SessionQueue.wakeNext, he]
  · refine Or.inr (Or.inl ⟨hle, ?_⟩)
    simp only [wake, settle, SessionQueue.wakeNext, he]
    rfl
  · refine Or.inr (Or.inr ⟨hlt, hall, ?_⟩)
    simp only [wake, settle, SessionQueue.wakeNext, he]

@[simp] theorem wake_calls (x : QueueRun) : x.wake.calls = x.calls := rfl

@[simp] theorem wake_born (x : QueueRun) : x.wake.born = x.born := rfl

theorem mem_owners {x : QueueRun} {c : Nat} : c ∈ x.owners ↔ c < x.born ∧ x.granted c = true := by
  simp [owners]

theorem card_owners_gain {x y : QueueRun} {c : Nat} (hb : y.born = x.born) (hc : c < x.born)
    (hx : x.granted c = false) (hy : y.granted c = true)
    (ho : ∀ d, d ≠ c → y.granted d = x.granted d) : y.owners.card = x.owners.card + 1 := by
  have hnot : c ∉ x.owners := by simp [mem_owners, hx]
  have heq : y.owners = insert c x.owners := by
    ext d
    by_cases hd : d = c
    · subst hd; simp [mem_owners, hy, hb, hc]
    · simp [mem_owners, ho d hd, hb, hd]
  rw [heq, Finset.card_insert_of_notMem hnot]

theorem card_owners_lose {x y : QueueRun} {c : Nat} (hb : y.born = x.born) (hc : c < x.born)
    (hx : x.granted c = true) (hy : y.granted c = false)
    (ho : ∀ d, d ≠ c → y.granted d = x.granted d) : y.owners.card + 1 = x.owners.card :=
  (card_owners_gain hb.symm (hb ▸ hc) hy hx (fun d hd => (ho d hd).symm)).symm

theorem owners_congr {x y : QueueRun} (hb : y.born = x.born)
    (ho : ∀ d, y.granted d = x.granted d) : y.owners = x.owners := by
  ext d
  simp [mem_owners, hb, ho d]

theorem granted_congr {x y : QueueRun} {c : Nat} (hc : y.calls c = x.calls c)
    (hf : y.futures c = x.futures c) : y.granted c = x.granted c := by
  simp only [granted, hc, hf]

theorem granted_of_awaiting {x : QueueRun} {c : Nat} {w : Waiter} {m : Bool}
    (h : x.calls c = .awaiting w m) : x.granted c = decide (x.futures c = .result) := by
  simp only [granted, h]


-- Everything that holds between the steps but the bound, which a promotion restores.
structure Ledger (x : QueueRun) : Prop where
  unborn : ∀ c, x.born ≤ c → x.calls c = .unborn
  named : ∀ c w m, x.calls c = .awaiting w m → w.future = c ∧ w.seq < x.queue.counter
  seqInj : ∀ c d v w m n, x.calls c = .awaiting v m → x.calls d = .awaiting w n →
    v.seq = w.seq → c = d
  queued : ∀ w ∈ x.queue.waiters, (∃ m, x.calls w.future = .awaiting w m) ∧
    x.futures w.future ≠ .result
  waits : ∀ c w m, x.calls c = .awaiting w m → x.futures c = .pending → w ∈ x.queue.waiters
  sorted : x.queue.waiters.Pairwise Waiter.before
  nodup : x.queue.waiters.Nodup
  count : x.queue.active = x.owners.card

structure Sound (x : QueueRun) : Prop extends Ledger x where
  bound : x.queue.active ≤ x.queue.maxConcurrent
  busy : ∀ c, x.Pending c → x.queue.active = x.queue.maxConcurrent

theorem fresh_sound (q : SessionQueue) (ha : q.active = 0) (hw : q.waiters = []) :
    (fresh q).Sound where
  unborn c _ := rfl
  named c w m h := by simp [fresh] at h
  seqInj c d v w m n h := by simp [fresh] at h
  queued w h := by simp [fresh, hw] at h
  waits c w m h := by simp [fresh] at h
  sorted := by simp [fresh, hw]
  nodup := by simp [fresh, hw]
  count := by
    have : (fresh q).owners = ∅ := rfl
    rw [this]
    simp [fresh, ha]
  bound := by
    have := q.maxPos
    simp only [fresh]
    omega
  busy c h := by simp [Pending, fresh] at h

theorem Ledger.born_of_ne {x : QueueRun} (h : x.Ledger) {c : Nat} (hc : x.calls c ≠ .unborn) :
    c < x.born := by
  by_contra hn
  exact hc (h.unborn c (by omega))

theorem Ledger.active_nonneg {x : QueueRun} (h : x.Ledger) : 0 ≤ x.queue.active := by
  rw [h.count]
  exact Int.natCast_nonneg _

theorem Ledger.grant {x : QueueRun} (h : x.Ledger) {pre post : List Waiter} {w : Waiter}
    (hws : x.queue.waiters = pre ++ w :: post)
    (hpre : ∀ v ∈ pre, (x.futures v.future).done = true) (hw : x.futures w.future = .pending) :
    Ledger { x with
      queue := x.queue.book (x.queue.active + 1) post
      futures := Function.update x.futures w.future .result } := by
  have hmem : w ∈ x.queue.waiters := by simp [hws]
  obtain ⟨m, hm⟩ := (h.queued w hmem).1
  have hnodup := h.nodup
  rw [hws] at hnodup
  have hwpost : w ∉ post := by
    have := (List.nodup_append.mp hnodup).2.1
    exact (List.nodup_cons.mp this).1
  have hsub : ∀ v ∈ post, v ∈ x.queue.waiters := by
    intro v hv; simp [hws, hv]
  have hother : ∀ v ∈ post, v.future ≠ w.future := by
    intro v hv he
    obtain ⟨n, hn⟩ := (h.queued v (hsub v hv)).1
    rw [he, hm] at hn
    injection hn with hn
    exact hwpost (hn ▸ hv)
  refine
    { unborn := h.unborn
      named := h.named
      seqInj := h.seqInj
      queued := ?_
      waits := ?_
      sorted := ?_
      nodup := ?_
      count := ?_ }
  · intro v hv
    refine ⟨(h.queued v (hsub v hv)).1, ?_⟩
    simp only [Function.update_of_ne (hother v hv)]
    exact (h.queued v (hsub v hv)).2
  · intro c v n hc hp
    have hne : c ≠ w.future := by
      intro he
      subst he
      simp at hp
    have hp : x.futures c = .pending := Function.update_of_ne hne Fut.result x.futures ▸ hp
    have hv := h.waits c v n hc hp
    have hvc := (h.named c v n hc).1
    rw [hws] at hv
    rcases List.mem_append.mp hv with hv | hv
    · have := hpre v hv
      rw [hvc, hp] at this
      simp at this
    · rcases List.mem_cons.mp hv with rfl | hv
      · exact absurd hvc.symm hne
      · exact hv
  · have := h.sorted
    rw [hws] at this
    exact (List.pairwise_cons.mp (List.pairwise_append.mp this).2.1).2
  · have := (List.nodup_append.mp hnodup).2.1
    exact (List.nodup_cons.mp this).2
  · have hgain := card_owners_gain (x := x) (c := w.future)
      (y := { x with
        queue := x.queue.book (x.queue.active + 1) post
        futures := Function.update x.futures w.future .result }) rfl
      (h.born_of_ne (by simp [hm])) (by simp [granted, hm, hw]) (by simp [granted, hm])
      (fun d hd => granted_congr rfl (Function.update_of_ne hd _ _))
    have hcount := h.count
    simp only [SessionQueue.book_active]
    omega

theorem Ledger.wake_sound {x : QueueRun} (h : x.Ledger)
    (hle : x.queue.active ≤ x.queue.maxConcurrent)
    (hbusy : ∀ c, x.Pending c → x.queue.maxConcurrent ≤ x.queue.active + 1) : x.wake.Sound := by
  rcases x.wake_cases with ⟨pre, w, post, hws, hpre, hw, hlt, he⟩ | ⟨hmax, he⟩ | ⟨hlt, hall, he⟩
  · rw [he]
    have hmem : w ∈ x.queue.waiters := by simp [hws]
    obtain ⟨m, hm⟩ := (h.queued w hmem).1
    have := hbusy w.future ⟨⟨w, m, hm⟩, hw⟩
    refine ⟨h.grant hws hpre hw, ?_, fun c _ => ?_⟩
    · simp only [SessionQueue.book_active, SessionQueue.book_maxConcurrent]
      omega
    · simp only [SessionQueue.book_active, SessionQueue.book_maxConcurrent]
      omega
  · rw [he]
    exact ⟨h, hle, fun c _ => by omega⟩
  · rw [he]
    have hnone : ∀ c w m, x.calls c = .awaiting w m → x.futures c ≠ .pending := by
      intro c w m hc hp
      have := hall w (h.waits c w m hc hp)
      rw [(h.named c w m hc).1, hp] at this
      simp at this
    refine ⟨{ h with queued := ?_, waits := ?_, sorted := .nil, nodup := .nil }, hle, ?_⟩
    · intro w hw
      simp at hw
    · intro c w m hc hp
      exact absurd hp (hnone c w m hc)
    · rintro c ⟨⟨w, m, hc⟩, hp⟩
      exact absurd hp (hnone c w m hc)

def leave (x : QueueRun) (c : Nat) (active : Int) : QueueRun :=
  { x.setCall c .ended with
    queue := x.queue.book active (x.queue.waiters.filter (fun w => w.future ≠ c)) }

theorem Ledger.leave {x : QueueRun} (h : x.Ledger) {c : Nat} {active : Int}
    (hc : x.calls c ≠ .unborn) (hcount : active = (x.leave c active).owners.card) :
    (x.leave c active).Ledger := by
  have hkeep : ∀ d, d ≠ c → (x.leave c active).calls d = x.calls d :=
    fun d hd => Function.update_of_ne hd _ _
  have hself : (x.leave c active).calls c = .ended := Function.update_self _ _ _
  have hawait : ∀ d w m, (x.leave c active).calls d = .awaiting w m →
      d ≠ c ∧ x.calls d = .awaiting w m := by
    intro d w m hd
    have hne : d ≠ c := by
      intro he
      rw [he, hself] at hd
      cases hd
    exact ⟨hne, hkeep d hne ▸ hd⟩
  have hmem : ∀ w, w ∈ (x.leave c active).queue.waiters ↔ w ∈ x.queue.waiters ∧ w.future ≠ c := by
    intro w
    simp [QueueRun.leave]
  refine
    { unborn := ?_
      named := fun d w m hd => h.named d w m (hawait d w m hd).2
      seqInj := fun d e v w m n hd he => h.seqInj d e v w m n (hawait d v m hd).2 (hawait e w n he).2
      queued := ?_
      waits := ?_
      sorted := h.sorted.filter _
      nodup := h.nodup.filter _
      count := hcount }
  · intro d hd
    have hne : d ≠ c := by
      intro he
      subst he
      exact hc (h.unborn d hd)
    rw [hkeep d hne]
    exact h.unborn d hd
  · intro w hw
    obtain ⟨hw, hne⟩ := (hmem w).mp hw
    rw [hkeep w.future hne]
    exact h.queued w hw
  · intro d w m hd hp
    obtain ⟨hne, hd⟩ := hawait d w m hd
    exact (hmem w).mpr ⟨h.waits d w m hd hp, (h.named d w m hd).1 ▸ hne⟩

theorem leave_granted {x : QueueRun} {c d : Nat} {active : Int} (hd : d ≠ c) :
    (x.leave c active).granted d = x.granted d :=
  granted_congr (Function.update_of_ne hd _ _) rfl

theorem leave_granted_self {x : QueueRun} {c : Nat} {active : Int} :
    (x.leave c active).granted c = false := by
  simp [granted, QueueRun.leave, setCall]

theorem pending_of_leave {x : QueueRun} {c d : Nat} {active : Int}
    (h : (x.leave c active).Pending d) : d ≠ c ∧ x.Pending d := by
  obtain ⟨⟨w, m, hd⟩, hp⟩ := h
  have hne : d ≠ c := by
    intro he
    subst he
    simp [QueueRun.leave, setCall] at hd
  refine ⟨hne, ⟨w, m, ?_⟩, hp⟩
  rw [← hd]
  exact (Function.update_of_ne hne _ _).symm

theorem Sound.leave_owner {x : QueueRun} (h : x.Sound) {c : Nat} (hc : x.granted c = true) :
    (x.leave c (x.queue.active - 1)).Ledger := by
  have hne : x.calls c ≠ .unborn := by
    intro hu
    simp [granted, hu] at hc
  refine h.toLedger.leave hne ?_
  have hlose := card_owners_lose (x := x) (y := x.leave c (x.queue.active - 1)) (c := c) rfl
    (h.born_of_ne hne) hc leave_granted_self (fun d hd => leave_granted hd)
  have hcount := h.count
  omega

theorem Sound.hand_back {x : QueueRun} (h : x.Sound) {c : Nat} (hc : x.granted c = true) :
    (x.leave c (x.queue.active - 1)).wake.Sound := by
  have hb := h.bound
  refine (h.leave_owner hc).wake_sound ?_ ?_
  · simp only [leave, SessionQueue.book_active, SessionQueue.book_maxConcurrent]
    omega
  · intro d hd
    have := h.busy d (pending_of_leave hd).2
    simp only [leave, SessionQueue.book_active, SessionQueue.book_maxConcurrent]
    omega

theorem Sound.drop {x : QueueRun} (h : x.Sound) {c : Nat} (hu : x.calls c ≠ .unborn)
    (hc : x.granted c = false) : (x.leave c x.queue.active).Sound := by
  have hsame : (x.leave c x.queue.active).owners = x.owners := by
    refine owners_congr rfl (fun d => ?_)
    by_cases hd : d = c
    · rw [hd, leave_granted_self, hc]
    · exact leave_granted hd
  refine ⟨h.toLedger.leave hu (by rw [hsame]; exact h.count), h.bound, fun d hd => ?_⟩
  exact h.busy d (pending_of_leave hd).2

def enqueue (x : QueueRun) (c : Nat) (priority : Int) : QueueRun :=
  let w : Waiter := ⟨priority, x.queue.counter, c⟩
  { x with
    queue := ⟨x.queue.maxConcurrent, x.queue.active, SessionQueue.heappush x.queue.waiters w,
      x.queue.counter + 1, x.queue.maxPos⟩
    futures := Function.update x.futures c .pending
    calls := Function.update x.calls c (.awaiting w false) }

inductive Moves (x : QueueRun) : QueueAct → QueueRun → Prop
  | create (p : Int) : Moves x (.create p)
      { x with calls := Function.update x.calls x.born (.created p false), born := x.born + 1 }
  | startCancelled {c p} (h : x.calls c = .created p true) : Moves x (.start c) (x.setCall c .ended)
  | startFree {c p} (h : x.calls c = .created p false)
      (hlt : x.queue.active < x.queue.maxConcurrent) : Moves x (.start c)
      ({ x with queue := x.queue.book (x.queue.active + 1) x.queue.waiters }.setCall c .holding)
  | startQueued {c p} (h : x.calls c = .created p false)
      (hle : x.queue.maxConcurrent ≤ x.queue.active) : Moves x (.start c) (x.enqueue c p)
  | cancelEarly {c p m} (h : x.calls c = .created p m) :
      Moves x (.cancel c) (x.setCall c (.created p true))
  | cancelPending {c w m} (h : x.calls c = .awaiting w m) (hp : x.futures c = .pending) :
      Moves x (.cancel c) { x with futures := Function.update x.futures c .cancelled }
  | cancelLate {c w m} (h : x.calls c = .awaiting w m) (hp : x.futures c ≠ .pending) :
      Moves x (.cancel c) (x.setCall c (.awaiting w true))
  | cancelIdle {c} (h : x.calls c = .holding ∨ x.calls c = .ended) : Moves x (.cancel c) x
  | resumeDropped {c w m} (h : x.calls c = .awaiting w m) (hf : x.futures c = .cancelled) :
      Moves x (.resume c) (x.leave c x.queue.active)
  | resumeHandBack {c w} (h : x.calls c = .awaiting w true) (hf : x.futures c = .result) :
      Moves x (.resume c) (x.leave c (x.queue.active - 1)).wake
  | resumeHolding {c w} (h : x.calls c = .awaiting w false) (hf : x.futures c = .result) :
      Moves x (.resume c) (x.setCall c .holding)
  | release {c} (h : x.calls c = .holding) :
      Moves x (.release c) (x.leave c (x.queue.active - 1)).wake

theorem Ledger.heapify_filter {x : QueueRun} (h : x.Ledger) (c : Nat) :
    SessionQueue.heapify (x.queue.waiters.filter (fun w => w.future ≠ c)) =
      x.queue.waiters.filter (fun w => w.future ≠ c) :=
  (h.sorted.filter _).insertionSort_eq

theorem Ledger.filter_holding {x : QueueRun} (h : x.Ledger) {c : Nat} (hc : x.calls c = .holding) :
    x.queue.waiters.filter (fun w => w.future ≠ c) = x.queue.waiters := by
  refine List.filter_eq_self.mpr (fun w hw => ?_)
  obtain ⟨m, hm⟩ := (h.queued w hw).1
  have : w.future ≠ c := by
    intro he
    rw [he, hc] at hm
    cases hm
  simpa using this

theorem Ledger.active_pos {x : QueueRun} (h : x.Ledger) {c : Nat} (hc : x.granted c = true) :
    1 ≤ x.queue.active := by
  have hborn : c < x.born := h.born_of_ne (fun hu => by simp [granted, hu] at hc)
  have hpos : 0 < x.owners.card := Finset.card_pos.mpr ⟨c, mem_owners.mpr ⟨hborn, hc⟩⟩
  have := h.count
  omega

theorem settle_cancelled_granted {x : QueueRun} (h : x.Ledger) {c : Nat}
    (hf : x.futures c = .result) :
    (x.setCall c .ended).settle (x.queue.acquireCancelled x.futures c) =
      (x.leave c (x.queue.active - 1)).wake := by
  have hd : (x.futures c).done = true ∧ x.futures c ≠ .cancelled := by simp [hf]
  simp only [SessionQueue.acquireCancelled, if_pos hd, h.heapify_filter c]
  rfl

theorem settle_cancelled_dropped {x : QueueRun} (h : x.Ledger) {c : Nat}
    (hf : x.futures c = .cancelled) :
    (x.setCall c .ended).settle (x.queue.acquireCancelled x.futures c) =
      x.leave c x.queue.active := by
  have hd : ¬ ((x.futures c).done = true ∧ x.futures c ≠ .cancelled) := by simp [hf]
  simp only [SessionQueue.acquireCancelled, if_neg hd, h.heapify_filter c]
  rfl

theorem settle_release {x : QueueRun} (h : x.Ledger) {c : Nat} (hc : x.calls c = .holding) :
    (x.setCall c .ended).settle (x.queue.release x.futures) =
      (x.leave c (x.queue.active - 1)).wake := by
  have hpos : ¬ x.queue.active - 1 < 0 := by
    have := h.active_pos (c := c) (by simp [granted, hc])
    omega
  have hf := h.filter_holding hc
  simp only [SessionQueue.release, if_neg hpos, wake, leave, hf]
  rfl

theorem step_moves {x y : QueueRun} {a : QueueAct} (hs : x.Sound) (h : x.step a = some y) :
    Moves x a y := by
  cases a with
  | create p =>
      simp only [step, Option.some.injEq] at h
      exact h ▸ .create p
  | start c =>
      simp only [step] at h
      cases hc : x.calls c with
      | created p m =>
          cases m with
          | true =>
              simp only [hc, Option.some.injEq] at h
              exact h ▸ .startCancelled hc
          | false =>
              by_cases hlt : x.queue.active < x.queue.maxConcurrent
              · simp only [hc, SessionQueue.acquire, if_pos hlt, Option.some.injEq] at h
                exact h ▸ .startFree hc hlt
              · simp only [hc, SessionQueue.acquire, if_neg hlt, Option.some.injEq] at h
                exact h ▸ .startQueued hc (by omega)
      | unborn => simp [hc] at h
      | awaiting w m => simp [hc] at h
      | holding => simp [hc] at h
      | ended => simp [hc] at h
  | cancel c =>
      simp only [step] at h
      cases hc : x.calls c with
      | unborn => simp [hc] at h
      | created p m =>
          simp only [hc, Option.some.injEq] at h
          exact h ▸ .cancelEarly hc
      | awaiting w m =>
          by_cases hp : x.futures c = .pending
          · simp only [hc, hp, if_true, Fut.cancel_pending, Option.some.injEq] at h
            exact h ▸ .cancelPending hc hp
          · simp only [hc, if_neg hp, Option.some.injEq] at h
            exact h ▸ .cancelLate hc hp
      | holding =>
          simp only [hc, Option.some.injEq] at h
          exact h ▸ .cancelIdle (Or.inl hc)
      | ended =>
          simp only [hc, Option.some.injEq] at h
          exact h ▸ .cancelIdle (Or.inr hc)
  | resume c =>
      simp only [step] at h
      cases hc : x.calls c with
      | awaiting w m =>
          cases hf : x.futures c with
          | pending => simp [hc, hf] at h
          | cancelled =>
              simp only [hc, hf, Fut.done_cancelled, or_true, if_true, Option.some.injEq] at h
              rw [settle_cancelled_dropped hs.toLedger hf] at h
              exact h ▸ .resumeDropped hc hf
          | result =>
              cases m with
              | true =>
                  simp only [hc, hf, Fut.done_result, true_or, if_true, Option.some.injEq] at h
                  rw [settle_cancelled_granted hs.toLedger hf] at h
                  exact h ▸ .resumeHandBack hc hf
              | false =>
                  simp [hc, hf] at h
                  exact h ▸ .resumeHolding hc hf
      | unborn => simp [hc] at h
      | created p m => simp [hc] at h
      | holding => simp [hc] at h
      | ended => simp [hc] at h
  | release c =>
      simp only [step] at h
      cases hc : x.calls c with
      | holding =>
          simp only [hc, Option.some.injEq] at h
          rw [settle_release hs.toLedger hc] at h
          exact h ▸ .release hc
      | unborn => simp [hc] at h
      | created p m => simp [hc] at h
      | awaiting w m => simp [hc] at h
      | ended => simp [hc] at h

theorem Ledger.count_congr {x y : QueueRun} (h : x.Ledger) (hq : y.queue.active = x.queue.active)
    (hb : y.born = x.born) (hg : ∀ d, y.granted d = x.granted d) :
    y.queue.active = y.owners.card := by
  rw [hq, owners_congr hb hg]
  exact h.count

theorem Ledger.recall {x y : QueueRun} (h : x.Ledger) (hw : y.queue.waiters = x.queue.waiters)
    (hn : y.queue.counter = x.queue.counter)
    (hp : ∀ c, y.futures c = .pending → x.futures c = .pending)
    (hr : ∀ w ∈ x.queue.waiters, y.futures w.future ≠ .result)
    (haw : ∀ c w m, y.calls c = .awaiting w m → ∃ n, x.calls c = .awaiting w n)
    (hkeep : ∀ w ∈ x.queue.waiters, ∃ m, y.calls w.future = .awaiting w m)
    (hu : ∀ c, y.born ≤ c → y.calls c = .unborn)
    (hcount : y.queue.active = y.owners.card) : y.Ledger where
  unborn := hu
  named c w m hc := by
    obtain ⟨n, hx⟩ := haw c w m hc
    rw [hn]
    exact h.named c w n hx
  seqInj c d v w m n hc hd he := by
    obtain ⟨m', hc'⟩ := haw c v m hc
    obtain ⟨n', hd'⟩ := haw d w n hd
    exact h.seqInj c d v w m' n' hc' hd' he
  queued w hm := by
    rw [hw] at hm
    exact ⟨hkeep w hm, hr w hm⟩
  waits c w m hc hf := by
    obtain ⟨n, hx⟩ := haw c w m hc
    rw [hw]
    exact h.waits c w n hx (hp c hf)
  sorted := hw ▸ h.sorted
  nodup := hw ▸ h.nodup
  count := hcount

theorem Ledger.set_other {x : QueueRun} (h : x.Ledger) {c : Nat} {s : Call}
    (hc : ∀ w m, x.calls c ≠ .awaiting w m) {w : Waiter} (hw : w ∈ x.queue.waiters) :
    ∃ m, Function.update x.calls c s w.future = .awaiting w m := by
  obtain ⟨m, hm⟩ := (h.queued w hw).1
  have hne : w.future ≠ c := by
    intro he
    exact hc w m (he ▸ hm)
  exact ⟨m, by rw [Function.update_of_ne hne, hm]⟩

theorem awaiting_of_update {x : QueueRun} {c d : Nat} {s : Call} {w : Waiter} {m : Bool}
    (hs : ∀ w m, s ≠ .awaiting w m) (hd : Function.update x.calls c s d = .awaiting w m) :
    d ≠ c ∧ x.calls d = .awaiting w m := by
  by_cases he : d = c
  · subst he
    rw [Function.update_self] at hd
    exact absurd hd (hs w m)
  · rw [Function.update_of_ne he] at hd
    exact ⟨he, hd⟩

theorem unborn_of_update {x : QueueRun} (h : x.Ledger) {c : Nat} {s : Call}
    (hc : x.calls c ≠ .unborn) (d : Nat) (hd : x.born ≤ d) :
    Function.update x.calls c s d = .unborn := by
  have hne : d ≠ c := by
    intro he
    exact hc (he ▸ h.unborn d hd)
  rw [Function.update_of_ne hne]
  exact h.unborn d hd

theorem granted_setCall {x : QueueRun} {c : Nat} {s : Call}
    (hs : (x.setCall c s).granted c = x.granted c) (d : Nat) :
    (x.setCall c s).granted d = x.granted d := by
  by_cases hd : d = c
  · subst hd
    exact hs
  · exact granted_congr (Function.update_of_ne hd _ _) rfl

theorem Ledger.setCall {x : QueueRun} (h : x.Ledger) {c : Nat} {s : Call}
    (hc : x.calls c ≠ .unborn) (hx : ∀ w m, x.calls c ≠ .awaiting w m)
    (hs : ∀ w m, s ≠ .awaiting w m) (hg : (x.setCall c s).granted c = x.granted c) :
    (x.setCall c s).Ledger := by
  refine h.recall rfl rfl (fun _ hp => hp) (fun w hw => (h.queued w hw).2) ?_
    (fun w hw => h.set_other hx hw) (unborn_of_update h hc) ?_
  · intro d w m hd
    exact ⟨m, (awaiting_of_update hs hd).2⟩
  · exact h.count_congr rfl rfl (granted_setCall hg)

theorem Sound.setCall {x : QueueRun} (h : x.Sound) {c : Nat} {s : Call}
    (hc : x.calls c ≠ .unborn) (hx : ∀ w m, x.calls c ≠ .awaiting w m)
    (hs : ∀ w m, s ≠ .awaiting w m) (hg : (x.setCall c s).granted c = x.granted c) :
    (x.setCall c s).Sound := by
  refine ⟨h.toLedger.setCall hc hx hs hg, h.bound, ?_⟩
  rintro d ⟨⟨w, m, hd⟩, hp⟩
  exact h.busy d ⟨⟨w, m, (awaiting_of_update hs hd).2⟩, hp⟩

theorem Sound.create {x : QueueRun} (h : x.Sound) (p : Int) :
    Sound { x with
      calls := Function.update x.calls x.born (.created p false), born := x.born + 1 } := by
  have hx : x.calls x.born = .unborn := h.unborn x.born (Nat.le_refl _)
  have hs : ∀ w m, Call.created p false ≠ .awaiting w m := by simp
  refine ⟨h.toLedger.recall rfl rfl (fun _ hp => hp) (fun w hw => (h.queued w hw).2) ?_
    (fun w hw => h.toLedger.set_other (by simp [hx]) hw) ?_ ?_, h.bound, ?_⟩
  · intro d w m hd
    exact ⟨m, (awaiting_of_update hs hd).2⟩
  · intro d hd
    have hne : d ≠ x.born := by
      simp only at hd
      omega
    simp only [Function.update_of_ne hne]
    exact h.unborn d (by simp only at hd; omega)
  · have howners : owners { x with
        calls := Function.update x.calls x.born (.created p false), born := x.born + 1 } =
        x.owners := by
      ext d
      by_cases hd : d = x.born
      · subst hd
        simp [mem_owners, granted]
      · have hg : granted { x with
            calls := Function.update x.calls x.born (.created p false), born := x.born + 1 } d =
            x.granted d := granted_congr (Function.update_of_ne hd _ _) rfl
        have hlt : d < x.born + 1 ↔ d < x.born := by omega
        simp only [mem_owners, hg, hlt]
    rw [howners]
    exact h.count
  · rintro d ⟨⟨w, m, hd⟩, hp⟩
    exact h.busy d ⟨⟨w, m, (awaiting_of_update hs hd).2⟩, hp⟩

theorem Sound.startFree {x : QueueRun} (h : x.Sound) {c : Nat} {p : Int}
    (hc : x.calls c = .created p false) (hlt : x.queue.active < x.queue.maxConcurrent) :
    Sound ({ x with queue := x.queue.book (x.queue.active + 1) x.queue.waiters }.setCall c
      .holding) := by
  have hs : ∀ w m, Call.holding ≠ .awaiting w m := by simp
  refine ⟨h.toLedger.recall rfl rfl (fun _ hp => hp) (fun w hw => (h.queued w hw).2) ?_
    (fun w hw => h.toLedger.set_other (by simp [hc]) hw)
    (unborn_of_update h.toLedger (by simp [hc])) ?_, ?_, ?_⟩
  · intro d w m hd
    exact ⟨m, (awaiting_of_update hs hd).2⟩
  · have hgain := card_owners_gain (x := x) (c := c)
      (y := { x with queue := x.queue.book (x.queue.active + 1) x.queue.waiters }.setCall c
        .holding) rfl (h.toLedger.born_of_ne (by simp [hc])) (by simp [granted, hc])
      (by simp [granted])
      (fun d hd => granted_congr (Function.update_of_ne hd _ _) rfl)
    have hcount := h.count
    simp only [setCall_queue, SessionQueue.book_active]
    omega
  · simp only [setCall_queue, SessionQueue.book_active, SessionQueue.book_maxConcurrent]
    omega
  · rintro d ⟨⟨w, m, hd⟩, hp⟩
    have := h.busy d ⟨⟨w, m, (awaiting_of_update hs hd).2⟩, hp⟩
    omega

theorem Sound.enqueue {x : QueueRun} (h : x.Sound) {c : Nat} {p : Int}
    (hc : x.calls c = .created p false) (hle : x.queue.maxConcurrent ≤ x.queue.active) :
    (x.enqueue c p).Sound := by
  have hborn : x.calls c ≠ .unborn := by simp [hc]
  have hentry : ∀ d w m, (x.enqueue c p).calls d = .awaiting w m →
      (d = c ∧ w = ⟨p, x.queue.counter, c⟩) ∨ (d ≠ c ∧ x.calls d = .awaiting w m) := by
    intro d w m hd
    by_cases he : d = c
    · subst he
      simp only [QueueRun.enqueue, Function.update_self, Call.awaiting.injEq] at hd
      exact Or.inl ⟨rfl, hd.1.symm⟩
    · simp only [QueueRun.enqueue, Function.update_of_ne he] at hd
      exact Or.inr ⟨he, hd⟩
  have hmem : ∀ w, w ∈ (x.enqueue c p).queue.waiters ↔
      w = ⟨p, x.queue.counter, c⟩ ∨ w ∈ x.queue.waiters := by
    intro w
    simp [QueueRun.enqueue, SessionQueue.heappush, List.mem_orderedInsert]
  have hout : ∀ w ∈ x.queue.waiters, w.future ≠ c := by
    intro w hw he
    obtain ⟨m, hm⟩ := (h.queued w hw).1
    rw [he, hc] at hm
    cases hm
  refine ⟨⟨?_, ?_, ?_, ?_, ?_, ?_, ?_, ?_⟩, h.bound, ?_⟩
  · exact unborn_of_update h.toLedger hborn
  · intro d w m hd
    rcases hentry d w m hd with ⟨rfl, rfl⟩ | ⟨_, hd⟩
    · exact ⟨rfl, Nat.lt_succ_self _⟩
    · have := h.named d w m hd
      exact ⟨this.1, Nat.lt_succ_of_lt this.2⟩
  · intro d e v w m n hd he hseq
    rcases hentry d v m hd with ⟨rfl, rfl⟩ | ⟨_, hdx⟩ <;>
      rcases hentry e w n he with ⟨rfl, rfl⟩ | ⟨_, hex⟩
    · rfl
    · have := (h.named e w n hex).2
      simp only at hseq
      omega
    · have := (h.named d v m hdx).2
      simp only at hseq
      omega
    · exact h.seqInj d e v w m n hdx hex hseq
  · intro w hw
    rcases (hmem w).mp hw with rfl | hw
    · exact ⟨⟨false, Function.update_self _ _ _⟩, by simp [QueueRun.enqueue]⟩
    · have hne := hout w hw
      obtain ⟨⟨m, hm⟩, hr⟩ := h.queued w hw
      refine ⟨⟨m, ?_⟩, ?_⟩
      · simp only [QueueRun.enqueue, Function.update_of_ne hne]
        exact hm
      · simp only [QueueRun.enqueue, Function.update_of_ne hne]
        exact hr
  · intro d w m hd hp
    rcases hentry d w m hd with ⟨rfl, rfl⟩ | ⟨hne, hd⟩
    · exact (hmem _).mpr (Or.inl rfl)
    · simp only [QueueRun.enqueue, Function.update_of_ne hne] at hp
      exact (hmem _).mpr (Or.inr (h.waits d w m hd hp))
  · exact h.sorted.orderedInsert _ _
  · refine (List.perm_orderedInsert Waiter.before _ _).nodup_iff.mpr (List.nodup_cons.mpr ⟨?_, h.nodup⟩)
    intro hw
    exact hout _ hw rfl
  · have hg : ∀ d, (x.enqueue c p).granted d = x.granted d := by
      intro d
      by_cases hd : d = c
      · subst hd
        simp [granted, QueueRun.enqueue, hc]
      · refine granted_congr ?_ ?_ <;> simp only [QueueRun.enqueue, Function.update_of_ne hd]
    exact h.toLedger.count_congr rfl rfl hg
  · intro d _
    have := h.bound
    simp only [QueueRun.enqueue]
    omega

theorem Sound.cancelPending {x : QueueRun} (h : x.Sound) {c : Nat} {w : Waiter} {m : Bool}
    (hc : x.calls c = .awaiting w m) (hp : x.futures c = .pending) :
    Sound { x with futures := Function.update x.futures c .cancelled } := by
  have hsub : ∀ d, Function.update x.futures c .cancelled d = .pending →
      d ≠ c ∧ x.futures d = .pending := by
    intro d hd
    by_cases he : d = c
    · subst he
      simp at hd
    · rw [Function.update_of_ne he] at hd
      exact ⟨he, hd⟩
  refine ⟨h.toLedger.recall rfl rfl (fun d hd => (hsub d hd).2) ?_ (fun d w m hd => ⟨m, hd⟩)
    (fun w hw => (h.queued w hw).1) h.unborn ?_, h.bound, ?_⟩
  · intro v hv
    by_cases he : v.future = c
    · simp [he]
    · simp only [Function.update_of_ne he]
      exact (h.queued v hv).2
  · have hg : ∀ d, granted { x with futures := Function.update x.futures c .cancelled } d =
        x.granted d := by
      intro d
      by_cases hd : d = c
      · subst hd
        simp [granted, hc, hp]
      · exact granted_congr rfl (Function.update_of_ne hd _ _)
    exact h.toLedger.count_congr rfl rfl hg
  · rintro d ⟨hd, hpd⟩
    exact h.busy d ⟨hd, (hsub d hpd).2⟩

theorem Sound.cancelLate {x : QueueRun} (h : x.Sound) {c : Nat} {w : Waiter} {m : Bool}
    (hc : x.calls c = .awaiting w m) : (x.setCall c (.awaiting w true)).Sound := by
  have haw : ∀ d v n, Function.update x.calls c (.awaiting w true) d = .awaiting v n →
      ∃ k, x.calls d = .awaiting v k := by
    intro d v n hd
    by_cases he : d = c
    · subst he
      rw [Function.update_self, Call.awaiting.injEq] at hd
      exact ⟨m, hd.1 ▸ hc⟩
    · rw [Function.update_of_ne he] at hd
      exact ⟨n, hd⟩
  refine ⟨h.toLedger.recall rfl rfl (fun _ hp => hp) (fun w hw => (h.queued w hw).2) haw ?_
    (unborn_of_update h.toLedger (by simp [hc])) ?_, h.bound, ?_⟩
  · intro v hv
    obtain ⟨n, hn⟩ := (h.queued v hv).1
    by_cases he : v.future = c
    · have : v = w := by
        rw [he, hc] at hn
        injection hn with hn
        exact hn.symm
      exact ⟨true, by rw [setCall_calls, he, Function.update_self, this]⟩
    · exact ⟨n, by simp only [setCall_calls, Function.update_of_ne he, hn]⟩
  · refine h.toLedger.count_congr rfl rfl (granted_setCall ?_)
    rw [granted_of_awaiting hc]
    exact granted_of_awaiting (Function.update_self _ _ _)
  · rintro d ⟨⟨v, n, hd⟩, hp⟩
    obtain ⟨k, hk⟩ := haw d v n hd
    exact h.busy d ⟨⟨v, k, hk⟩, hp⟩

theorem Sound.resumeHolding {x : QueueRun} (h : x.Sound) {c : Nat} {w : Waiter} {m : Bool}
    (hc : x.calls c = .awaiting w m) (hf : x.futures c = .result) : (x.setCall c .holding).Sound := by
  have hs : ∀ w m, Call.holding ≠ .awaiting w m := by simp
  refine ⟨h.toLedger.recall rfl rfl (fun _ hp => hp) (fun w hw => (h.queued w hw).2) ?_ ?_
    (unborn_of_update h.toLedger (by simp [hc])) ?_, h.bound, ?_⟩
  · intro d v n hd
    exact ⟨n, (awaiting_of_update hs hd).2⟩
  · intro v hv
    obtain ⟨⟨n, hn⟩, hr⟩ := h.queued v hv
    have hne : v.future ≠ c := fun he => hr (he ▸ hf)
    exact ⟨n, by simp only [setCall_calls, Function.update_of_ne hne, hn]⟩
  · exact h.toLedger.count_congr rfl rfl (granted_setCall (by simp [granted, hc, hf]))
  · rintro d ⟨⟨v, n, hd⟩, hp⟩
    exact h.busy d ⟨⟨v, n, (awaiting_of_update hs hd).2⟩, hp⟩

theorem Moves.sound {x y : QueueRun} {a : QueueAct} (hs : x.Sound) (h : Moves x a y) : y.Sound := by
  cases h with
  | create p => exact hs.create p
  | startCancelled hc =>
      exact hs.setCall (by simp [hc]) (by simp [hc]) (by simp) (by simp [granted, hc])
  | startFree hc hlt => exact hs.startFree hc hlt
  | startQueued hc hle => exact hs.enqueue hc hle
  | cancelEarly hc =>
      exact hs.setCall (by simp [hc]) (by simp [hc]) (by simp) (by simp [granted, hc])
  | cancelPending hc hp => exact hs.cancelPending hc hp
  | cancelLate hc hp => exact hs.cancelLate hc
  | cancelIdle hc => exact hs
  | resumeDropped hc hf => exact hs.drop (by simp [hc]) (by simp [granted, hc, hf])
  | resumeHandBack hc hf => exact hs.hand_back (by simp [granted, hc, hf])
  | resumeHolding hc hf => exact hs.resumeHolding hc hf
  | release hc => exact hs.hand_back (by simp [granted, hc])

theorem Moves.maxConcurrent {x y : QueueRun} {a : QueueAct} (h : Moves x a y) :
    y.queue.maxConcurrent = x.queue.maxConcurrent := by
  cases h <;> rfl

theorem reachable_sound {q : SessionQueue} {x : QueueRun} (ha : q.active = 0) (hw : q.waiters = [])
    (h : Reachable q x) : x.Sound := by
  induction h with
  | refl => exact fresh_sound q ha hw
  | tail _ hstep ih =>
      obtain ⟨a, ha⟩ := hstep
      exact (step_moves ih ha).sound ih

theorem init_spec {maxConcurrent : Int} {q : SessionQueue}
    (h : SessionQueue.init maxConcurrent = some q) :
    q.maxConcurrent = maxConcurrent ∧ q.active = 0 ∧ q.waiters = [] := by
  simp only [SessionQueue.init] at h
  split_ifs at h
  simp only [Option.some.injEq] at h
  subst h
  exact ⟨rfl, rfl, rfl⟩

end QueueRun

end PandaProxy.FtpQueue
