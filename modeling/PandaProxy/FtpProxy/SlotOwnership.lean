import PandaProxy.FtpProxy.Composition
import PandaProxy.FtpProxy.Surroundings
import PandaProxy.FtpQueue.CallLife

namespace PandaProxy.FtpProxy

open Async FtpQueue

namespace Proxy

structure SameSlots (e e' : Proxy) : Prop where
  queue : e'.queue = e.queue
  stray : e'.strayRelease = e.strayRelease
  call : ∀ k, (e'.links k).call = (e.links k).call
  upstream : ∀ k, (e'.links k).upstream = (e.links k).upstream

namespace SameSlots

theorem refl (e : Proxy) : SameSlots e e := ⟨rfl, rfl, fun _ => rfl, fun _ => rfl⟩

theorem trans {e e' e'' : Proxy} (h : SameSlots e e') (h' : SameSlots e' e'') : SameSlots e e'' :=
  ⟨h'.queue.trans h.queue, h'.stray.trans h.stray, fun k => (h'.call k).trans (h.call k),
    fun k => (h'.upstream k).trans (h.upstream k)⟩

theorem setLink {e : Proxy} {j : Nat} {f : Link → Link} (hc : ∀ l, (f l).call = l.call)
    (hu : ∀ l, (f l).upstream = l.upstream) : SameSlots e (e.setLink j f) := by
  refine ⟨rfl, rfl, fun k => ?_, fun k => ?_⟩
  · by_cases hk : k = j
    · subst hk
      simp [Proxy.setLink, hc]
    · simp [Proxy.setLink, hk]
  · by_cases hk : k = j
    · subst hk
      simp [Proxy.setLink, hu]
    · simp [Proxy.setLink, hk]

theorem note (e : Proxy) (j : Nat) (v : Event) : SameSlots e (e.note j v) :=
  setLink (fun _ => rfl) (fun _ => rfl)

theorem setRelay (e : Proxy) (n : Nat) (x : Relay) : SameSlots e (e.setRelay n x) :=
  ⟨rfl, rfl, fun _ => rfl, fun _ => rfl⟩

theorem received (e : Proxy) (j : Nat) (r : Except Exc (List UInt8)) :
    SameSlots e (e.received j r) := by
  cases r with
  | ok raw => exact note e j _
  | error x => exact refl e

theorem answered (e : Proxy) (j : Nat) (r : Except Exc (Option String)) :
    SameSlots e (e.answered j r) := by
  cases r with
  | ok reply => exact note e j _
  | error x => exact refl e

theorem reserve (e : Proxy) (j : Nat) : SameSlots e (e.reserve j).2 := by
  unfold Proxy.reserve
  split
  · exact refl e
  · have h := (setRelay e e.reserved (.reserve j ‹_›)).trans
      (setLink (j := j) (f := fun l => { l with relay := some e.reserved }) (fun _ => rfl) (fun _ => rfl))
    exact ⟨rfl, rfl, h.call, h.upstream⟩

theorem unbind (e : Proxy) (j : Nat) (port : Int) : SameSlots e (e.unbind j port) := by
  unfold Proxy.unbind
  split <;> exact ⟨rfl, rfl, fun _ => rfl, fun _ => rfl⟩

theorem callState {e e' : Proxy} (h : SameSlots e e') (j : Nat) : e'.callState j = e.callState j := by
  simp only [Proxy.callState, h.call j, h.queue]

end SameSlots

def slotOp : Op → Bool
  | .createAcquire _ => true
  | .cancelAcquire => true
  | .queueRelease => true
  | .openConnection => true
  | .closeUpstream => true
  | _ => false

theorem sync_slots {j : Nat} {i : Op} {e e' : Proxy} {r : Except Exc i.Answer}
    (hi : slotOp i = false) (h : sync j i e = some (r, e')) : SameSlots e e' := by
  cases i <;> simp only [sync] at h <;> simp only [slotOp, Bool.true_eq_false] at hi
  case readline =>
    split at h
    · cases h
    · cases h
      refine SameSlots.trans ?_ (.received _ j r)
      exact .setLink (fun _ => rfl) (fun _ => rfl)
  case replyResult =>
    split at h
    · cases h
      exact .answered _ _ _
    · cases h
      exact .refl e
  case awaitReply =>
    obtain ⟨r', _, h⟩ := Option.map_eq_some_iff.mp h
    cases h
    exact .answered _ _ _
  case acquirePort => cases h; exact .reserve e j
  case releasePort => cases h; exact .unbind e j _
  case drainClient =>
    obtain ⟨r', _, h⟩ := Option.map_eq_some_iff.mp h
    cases h
    exact .refl e
  case drainUpstream =>
    obtain ⟨r', _, h⟩ := Option.map_eq_some_iff.mp h
    cases h
    exact .refl e
  case awaitReplyCancelled =>
    obtain ⟨r', _, h⟩ := Option.map_eq_some_iff.mp h
    cases h
    exact .refl e
  all_goals
    repeat' split at h
  all_goals
    cases h <;> first
    | exact .refl e
    | exact .note e j _
    | exact .setRelay e _ _
    | exact .setLink (fun _ => rfl) (fun _ => rfl)

theorem resume_slots {j : Nat} {i : Op} {e e' : Proxy} {r : Except Exc i.Answer}
    (hi : slotOp i = false) (h : resume j i r e = some e') : SameSlots e e' := by
  unfold resume at h
  split at h <;> simp only [slotOp, Bool.true_eq_false] at hi
  all_goals
    repeat' split at h
  all_goals
    first
    | cases h; exact .refl e
    | cases h; exact .note e j _
    | cases h; exact .received e j _
    | cases h; exact .setLink (fun _ => rfl) (fun _ => rfl)
    | (obtain ⟨n, _, h⟩ := Option.map_eq_some_iff.mp h; cases h; exact .setRelay e _ _)
    | cases h

-- The queue and the sessions agree on who has which call of `acquire`.
structure SlotsKept (limit : Int) (e : Proxy) : Prop where
  sound : e.queue.Sound
  limit : e.queue.queue.maxConcurrent = limit
  noStray : e.strayRelease = false
  alive : ∀ j c, (e.links j).call = some c → e.queue.calls c ≠ .unborn
  unshared : ∀ j k c, (e.links j).call = some c → (e.links k).call = some c → j = k
  current : ∀ c, c < e.queue.born → e.queue.calls c ≠ .ended → ∃ j, (e.links j).call = some c
  owned : ∀ j, (e.links j).upstream = true → e.callState j = .holding

theorem SlotsKept.born {limit : Int} {e : Proxy} (h : SlotsKept limit e) {j c : Nat}
    (hc : (e.links j).call = some c) : c < e.queue.born :=
  h.sound.born_of_ne (h.alive j c hc)

def Unclaimed (e : Proxy) (j : Nat) : Prop := (e.links j).call = none ∨ e.callState j = .ended

structure SlotRely (j : Nat) (e e' : Proxy) : Prop where
  call : (e'.links j).call = (e.links j).call
  upstream : (e'.links j).upstream = (e.links j).upstream
  holding : e.callState j = .holding → e'.callState j = .holding
  ended : e.callState j = .ended → e'.callState j = .ended
  abandoned : ∀ c, (e.links j).call = some c → e.queue.Abandoned c → e'.queue.Abandoned c

theorem SameSlots.rely {e e' : Proxy} (h : SameSlots e e') (j : Nat) : SlotRely j e e' where
  call := h.call j
  upstream := h.upstream j
  holding hc := (h.callState j).trans hc
  ended hc := (h.callState j).trans hc
  abandoned _ _ hc := h.queue ▸ hc

theorem SameSlots.kept {limit : Int} {e e' : Proxy} (h : SameSlots e e') (hk : SlotsKept limit e) :
    SlotsKept limit e' where
  sound := h.queue ▸ hk.sound
  limit := h.queue ▸ hk.limit
  noStray := h.stray.trans hk.noStray
  alive j c hc := h.queue ▸ hk.alive j c (h.call j ▸ hc)
  unshared j k c hj hl := hk.unshared j k c (h.call j ▸ hj) (h.call k ▸ hl)
  current c hc hn := by
    obtain ⟨j, hj⟩ := hk.current c (h.queue ▸ hc) (h.queue ▸ hn)
    exact ⟨j, (h.call j).trans hj⟩
  owned j hj := (h.callState j).trans (hk.owned j ((h.upstream j).symm.trans hj))

theorem callState_of_call {e : Proxy} {j c : Nat} (h : (e.links j).call = some c) :
    e.callState j = e.queue.calls c := by
  simp only [callState, h]

theorem call_of_holding {e : Proxy} {j : Nat} (h : e.callState j = .holding) :
    ∃ c, (e.links j).call = some c ∧ e.queue.calls c = .holding := by
  unfold callState at h
  split at h
  · next c hc => exact ⟨c, hc, h⟩
  · cases h

theorem call_of_ended {e : Proxy} {j : Nat} (h : e.callState j = .ended) :
    ∃ c, (e.links j).call = some c ∧ e.queue.calls c = .ended := by
  unfold callState at h
  split at h
  · next c hc => exact ⟨c, hc, h⟩
  · cases h

theorem acquired_iff {e : Proxy} {j : Nat} :
    e.acquired j = true ↔ e.callState j = .holding ∨ e.callState j = .ended := by
  unfold acquired
  cases e.callState j <;> simp

theorem rely_of_moves {limit : Int} {e : Proxy} {x : QueueRun} {a : QueueAct} (hk : SlotsKept limit e)
    (hm : QueueRun.Moves e.queue a x) {j : Nat}
    (ha : ∀ c, (e.links j).call = some c → a ≠ .release c) :
    SlotRely j e { e with queue := x } where
  call := rfl
  upstream := rfl
  holding h := by
    obtain ⟨c, hc, hh⟩ := call_of_holding h
    rw [callState_of_call (e := { e with queue := x }) hc]
    exact hm.holding (hk.born hc) (ha c hc) hh
  ended h := by
    obtain ⟨c, hc, hh⟩ := call_of_ended h
    rw [callState_of_call (e := { e with queue := x }) hc]
    exact hm.ended (hk.born hc) hh
  abandoned c hc h := hm.abandoned (hk.born hc) h

theorem kept_of_moves {limit : Int} {e : Proxy} {x : QueueRun} {a : QueueAct} (hk : SlotsKept limit e)
    (hm : QueueRun.Moves e.queue a x) (hborn : x.born = e.queue.born)
    (ha : ∀ j c, (e.links j).upstream = true → (e.links j).call = some c → a ≠ .release c) :
    SlotsKept limit { e with queue := x } where
  sound := hm.sound hk.sound
  limit := hm.maxConcurrent.trans hk.limit
  noStray := hk.noStray
  alive j c hc := hm.alive (hk.alive j c hc)
  unshared := hk.unshared
  current c hc hn := by
    have hc : c < e.queue.born := hborn ▸ hc
    exact hk.current c hc (fun he => hn (hm.ended hc he))
  owned j hj := (rely_of_moves hk hm (fun c => ha j c hj)).holding (hk.owned j hj)

theorem createAcquire_spec {limit : Int} {e : Proxy} {j : Nat} (p : Int) (hk : SlotsKept limit e)
    (hidle : Unclaimed e j) (hu : (e.links j).upstream = false) :
    let e' := (e.setLink j fun l => { l with call := some e.queue.born }).queueAct (.create p)
    SlotsKept limit e' ∧ (e'.links j).call = some e.queue.born ∧ (e'.links j).upstream = false ∧
      ∀ k, k ≠ j → SlotRely k e e' := by
  obtain ⟨x, hx⟩ : ∃ x, e.queue.step (.create p) = some x := ⟨_, rfl⟩
  have hm := QueueRun.step_moves hk.sound hx
  obtain ⟨hcall, hborn⟩ := QueueRun.create_call hm
  have he : (e.setLink j fun l => { l with call := some e.queue.born }).queueAct (.create p) =
      { e.setLink j fun l => { l with call := some e.queue.born } with queue := x } := by
    simp only [queueAct, setLink, hx]
  have hother : ∀ k, k ≠ j → ((e.setLink j fun l => { l with call := some e.queue.born }).links k) =
      e.links k := by
    intro k hne
    simp [setLink, hne]
  have hself : ((e.setLink j fun l => { l with call := some e.queue.born }).links j).call =
      some e.queue.born := by
    simp [setLink]
  have hopen : ((e.setLink j fun l => { l with call := some e.queue.born }).links j).upstream =
      false := by
    simp [setLink, hu]
  simp only [he]
  have hrely : ∀ k, k ≠ j → SlotRely k e
      { e.setLink j fun l => { l with call := some e.queue.born } with queue := x } := by
    intro k hne
    have h := rely_of_moves hk hm (j := k) (fun c _ hc => by cases hc)
    refine ⟨by rw [hother k hne], by rw [hother k hne], fun hh => ?_, fun hh => ?_, h.abandoned⟩
    · rw [← h.holding hh]
      simp only [callState, hother k hne]
    · rw [← h.ended hh]
      simp only [callState, hother k hne]
  refine ⟨?_, hself, hopen, hrely⟩
  refine ⟨hm.sound hk.sound, hm.maxConcurrent.trans hk.limit, hk.noStray, ?_, ?_, ?_, ?_⟩
  · intro k c hc
    by_cases hne : k = j
    · subst hne
      rw [hself] at hc
      cases hc
      show x.calls _ ≠ _
      simp [hcall]
    · rw [hother k hne] at hc
      exact hm.alive (hk.alive k c hc)
  · intro k m c hck hcm
    by_cases hkj : k = j
    · by_cases hmj : m = j
      · rw [hkj, hmj]
      · subst hkj
        rw [hself] at hck
        rw [hother m hmj] at hcm
        cases hck
        exact absurd (hk.born hcm) (Nat.lt_irrefl _)
    · rw [hother k hkj] at hck
      by_cases hmj : m = j
      · subst hmj
        rw [hself] at hcm
        cases hcm
        exact absurd (hk.born hck) (Nat.lt_irrefl _)
      · rw [hother m hmj] at hcm
        exact hk.unshared k m c hck hcm
  · intro c hc hn
    by_cases hnew : c = e.queue.born
    · exact ⟨j, hnew ▸ hself⟩
    · have hc : c < e.queue.born := by
        have : c < e.queue.born + 1 := hborn ▸ hc
        omega
      have hx : e.queue.calls c ≠ .ended := fun h => hn (hm.ended hc h)
      obtain ⟨k, hck⟩ := hk.current c hc hx
      have hne : k ≠ j := by
        intro heq
        subst heq
        rcases hidle with hnone | hend
        · rw [hck] at hnone
          cases hnone
        · rw [callState_of_call hck] at hend
          exact hx hend
      exact ⟨k, by rw [hother k hne]; exact hck⟩
  · intro k hup
    by_cases hne : k = j
    · subst hne
      rw [hopen] at hup
      cases hup
    · rw [hother k hne] at hup
      exact (hrely k hne).holding (hk.owned k hup)

theorem cancelAcquire_spec {limit : Int} {e : Proxy} {j c : Nat} (hk : SlotsKept limit e)
    (hc : (e.links j).call = some c) :
    ∃ x, e.onCall j .cancel = { e with queue := x } ∧ QueueRun.Moves e.queue (.cancel c) x ∧
      SlotsKept limit { e with queue := x } := by
  obtain ⟨x, hx⟩ := QueueRun.step_cancel (hk.alive j c hc)
  have hm := QueueRun.step_moves hk.sound hx
  refine ⟨x, by simp only [onCall, hc, queueAct, hx], hm, kept_of_moves hk hm ?_ ?_⟩
  · cases hm <;> rfl
  · intro k d _ _ hd
    cases hd

theorem giveBack_spec {limit : Int} {e : Proxy} {j : Nat} (hk : SlotsKept limit e)
    (hh : e.callState j = .holding) (hu : (e.links j).upstream = false) :
    SlotsKept limit (e.giveBack j) ∧ (e.giveBack j).links = e.links ∧
      (e.giveBack j).callState j = .ended ∧ ∀ k, k ≠ j → SlotRely k e (e.giveBack j) := by
  obtain ⟨c, hc, hcalls⟩ := call_of_holding hh
  obtain ⟨x, hx⟩ := QueueRun.step_release hcalls
  have hm := QueueRun.step_moves hk.sound hx
  have he : e.giveBack j = { e with queue := x } := by
    simp only [giveBack, hh, if_true, onCall, hc, queueAct, hx]
  rw [he]
  refine ⟨kept_of_moves hk hm ?_ ?_, rfl, ?_, ?_⟩
  · cases hm
    rfl
  · intro k d hup hd heq
    cases heq
    rw [hk.unshared k j _ hd hc, hu] at hup
    cases hup
  · rw [callState_of_call (e := { e with queue := x }) hc]
    exact QueueRun.release_ended hm
  · intro k hne
    refine rely_of_moves hk hm (fun d hd heq => ?_)
    cases heq
    exact hne (hk.unshared k j _ hd hc)

structure Rewired (j : Nat) (e e' : Proxy) : Prop where
  queue : e'.queue = e.queue
  stray : e'.strayRelease = e.strayRelease
  call : (e'.links j).call = (e.links j).call
  other : ∀ k, k ≠ j → e'.links k = e.links k

namespace Rewired

theorem callState {j : Nat} {e e' : Proxy} (h : Rewired j e e') (k : Nat) :
    e'.callState k = e.callState k := by
  by_cases hk : k = j
  · subst hk
    simp only [Proxy.callState, h.call, h.queue]
  · simp only [Proxy.callState, h.other k hk, h.queue]

theorem calls {j : Nat} {e e' : Proxy} (h : Rewired j e e') (k : Nat) :
    (e'.links k).call = (e.links k).call := by
  by_cases hk : k = j
  · rw [hk, h.call]
  · rw [h.other k hk]

theorem rely {j k : Nat} {e e' : Proxy} (h : Rewired j e e') (hk : k ≠ j) : SlotRely k e e' where
  call := h.calls k
  upstream := by rw [h.other k hk]
  holding hh := (h.callState k).trans hh
  ended hh := (h.callState k).trans hh
  abandoned _ _ hh := h.queue ▸ hh

theorem kept {limit : Int} {j : Nat} {e e' : Proxy} (h : Rewired j e e') (hk : SlotsKept limit e)
    (hu : (e'.links j).upstream = true → e.callState j = .holding) : SlotsKept limit e' where
  sound := h.queue ▸ hk.sound
  limit := h.queue ▸ hk.limit
  noStray := h.stray.trans hk.noStray
  alive k c hc := h.queue ▸ hk.alive k c (h.calls k ▸ hc)
  unshared k m c hc hm := hk.unshared k m c (h.calls k ▸ hc) (h.calls m ▸ hm)
  current c hc hn := by
    obtain ⟨k, hck⟩ := hk.current c (h.queue ▸ hc) (h.queue ▸ hn)
    exact ⟨k, (h.calls k).trans hck⟩
  owned k hup := by
    by_cases hkj : k = j
    · subst hkj
      exact (h.callState k).trans (hu hup)
    · rw [h.other k hkj] at hup
      exact (h.callState k).trans (hk.owned k hup)

end Rewired

theorem open_rewired (e : Proxy) (j : Nat) :
    Rewired j e ((e.setLink j fun l => { l with upstream := true, upstreamFlow := .free }).note j .opened) := by
  refine ⟨rfl, rfl, by simp [setLink, note], fun k hk => by simp [setLink, note, hk]⟩

theorem close_rewired (e : Proxy) (j : Nat) :
    Rewired j e ((e.setLink j fun l => { l with upstream := false }).note j .closed) := by
  refine ⟨rfl, rfl, by simp [setLink, note], fun k hk => by simp [setLink, note, hk]⟩

end Proxy

namespace Session

open Proxy

structure Slot (j : Nat) (s : ControlSession) (e : Proxy) : Prop where
  upstream : s.upstream = (e.links j).upstream
  held : s.holdsSlot = true → e.callState j = .holding
  free : s.holdsSlot = false → s.upstream = false ∧ Unclaimed e j

-- Between commands a slot is held exactly for a printer connection.
structure Settled (j : Nat) (s : ControlSession) (e : Proxy) : Prop extends Slot j s e where
  paired : s.holdsSlot = s.upstream

def slotGuar (j : Nat) : Op → ControlSession → Proxy → Prop
  | .createAcquire _, _, e => Unclaimed e j ∧ (e.links j).upstream = false
  | .queueRelease, _, e => e.callState j = .holding ∧ (e.links j).upstream = false
  | .openConnection, _, e => e.callState j = .holding
  | _, _, _ => True

def slotProtocol (limit : Int) : Protocol Nat Label ControlSession Proxy Op Op.Answer Exc Tick where
  inv := SlotsKept limit
  seen _ := True
  rely := SlotRely
  admits _ _ _ := True
  allows _ := True
  guar := slotGuar
  idle j e := (e.links j).call = none ∧ (e.links j).upstream = false
  lab j
    | .closing => Slot j
    | _ => Settled j
  fin j s e := Slot j s e ∧ s.holdsSlot = false

theorem unclaimed_stable {j : Nat} {e e' : Proxy} (h : SlotRely j e e') (hu : Unclaimed e j) :
    Unclaimed e' j := by
  rcases hu with hu | hu
  · exact .inl (h.call.trans hu)
  · exact .inr (h.ended hu)

theorem Slot.stable {j : Nat} {s : ControlSession} {e e' : Proxy} (h : Slot j s e)
    (hr : SlotRely j e e') : Slot j s e' where
  upstream := h.upstream.trans hr.upstream.symm
  held hs := hr.holding (h.held hs)
  free hs := ⟨(h.free hs).1, unclaimed_stable hr (h.free hs).2⟩

theorem Settled.stable {j : Nat} {s : ControlSession} {e e' : Proxy} (h : Settled j s e)
    (hr : SlotRely j e e') : Settled j s e' :=
  ⟨h.toSlot.stable hr, h.paired⟩

section

variable {limit : Int} {j : Nat} {l : Label}

theorem keeps_ask {I : ControlSession → Proxy → Prop}
    (hI : ∀ s e e', I s e → SlotRely j e e' → I s e') {i : Op} (hi : slotOp i = false) :
    Keeps (world j) ((slotProtocol limit).contract j l) I I (ask i) := by
  refine Keeps.perform ?_ ?_ ?_ ?_
  · intro s e _
    show slotGuar j i s e
    cases i <;> trivial
  · intro s e r e' h he _
    exact hI s e e' h ((sync_slots hi he).rely j)
  · exact hI
  · intro s e r e' h _ _ he _
    exact hI s e e' h ((resume_slots hi he).rely j)

abbrev slotWp (limit : Int) (j : Nat) (l : Label) {α : Type} (c : Session α)
    (Q : Except Exc α → ControlSession → Proxy → Prop) (s : ControlSession) (e : Proxy) : Prop :=
  wp (world j) ((slotProtocol limit).contract j l) c Q s e

theorem slotWp_ask {I : Proxy → Prop} (hI : ∀ e e', I e → SlotRely j e e' → I e') {i : Op}
    (hi : slotOp i = false) {s : ControlSession} {e : Proxy} (h : I e) {Q : Except Exc i.Answer →
      ControlSession → Proxy → Prop}
    (hQ : ∀ r e₁ e', I e₁ → I e' → SlotsKept limit e' →
      (sync j i e₁ = some (r, e') ∨ resume j i r e₁ = some e') → Q r s e') :
    slotWp limit j l (ask i) Q s e := by
  refine wp_perform ?_ ?_ ?_
  · show slotGuar j i s e
    cases i <;> trivial
  · intro r e' he hk
    exact hQ r e e' h (hI e e' h ((sync_slots hi he).rely j)) hk (.inl he)
  · intro _ e₁ h₁ _ _ r e₂ _ he hk
    have h₁ := stable_star hI h₁ h
    exact hQ r e₁ e₂ h₁ (hI e₁ e₂ h₁ ((resume_slots hi he).rely j)) hk (.inr he)

theorem awaitGone_answers {e e' : Proxy} {r : Except Exc Unit}
    (h : sync j .awaitGone e = some (r, e') ∨ resume j .awaitGone r e = some e') :
    r = .ok () ∨ r = .error .cancelled := by
  rcases h with h | h
  · simp only [sync] at h
    split at h <;> cases h
    · exact .inl rfl
    · exact .inr rfl
  · cases r with
    | ok u => exact .inl rfl
    | error x =>
        cases x with
        | cancelled => exact .inr rfl
        | _ => simp [resume] at h

structure Claim (j c : Nat) (granted : Bool) (e : Proxy) : Prop where
  call : (e.links j).call = some c
  upstream : (e.links j).upstream = false
  held : granted = true → e.callState j = .holding

theorem Claim.stable {c : Nat} {granted : Bool} {e e' : Proxy} (h : Claim j c granted e)
    (hr : SlotRely j e e') : Claim j c granted e' :=
  ⟨hr.call.trans h.call, hr.upstream.trans h.upstream, fun hg => hr.holding (h.held hg)⟩

structure Claimed (j : Nat) (granted : Bool) (e : Proxy) : Prop where
  upstream : (e.links j).upstream = false
  held : granted = true → e.callState j = .holding
  free : granted = false → Unclaimed e j

structure Dropped (j c : Nat) (e : Proxy) : Prop where
  call : (e.links j).call = some c
  upstream : (e.links j).upstream = false
  abandoned : e.queue.Abandoned c

theorem Dropped.stable {c : Nat} {e e' : Proxy} (h : Dropped j c e) (hr : SlotRely j e e') :
    Dropped j c e' :=
  ⟨hr.call.trans h.call, hr.upstream.trans h.upstream, hr.abandoned c h.call h.abandoned⟩

theorem Dropped.not_holding {c : Nat} {e : Proxy} (h : Dropped j c e) : e.callState j ≠ .holding := by
  rw [callState_of_call h.call]
  exact h.abandoned.not_holding

theorem Dropped.answers {c : Nat} {e e' : Proxy} {r : Except Exc Unit} (h : Dropped j c e)
    (ha : sync j .awaitAcquire e = some (r, e') ∨ resume j .awaitAcquire r e = some e') :
    e' = e ∧ e.callState j = .ended ∧ r = .error .cancelled := by
  have hnot := h.not_holding
  rcases ha with ha | ha
  · simp only [sync] at ha
    split at ha
    · next hh => exact absurd hh hnot
    · next hh =>
        cases ha
        exact ⟨rfl, hh, rfl⟩
    · cases ha
  · cases r with
    | ok u =>
        simp only [resume, if_neg hnot] at ha
        cases ha
    | error x =>
        cases x with
        | cancelled =>
            simp only [resume] at ha
            split at ha
            · next hacq =>
                cases ha
                rcases acquired_iff.mp hacq with hh | hh
                · exact absurd hh hnot
                · exact ⟨rfl, hh, rfl⟩
            · cases ha
        | _ => cases ha

theorem abandonAcquire_spec {c : Nat} {s : ControlSession} {e : Proxy} (hk : SlotsKept limit e)
    (h : Claim j c false e) :
    slotWp limit j l abandonAcquire (fun r s' e' => r = .ok () ∧ s' = s ∧ Claimed j false e') s e := by
  obtain ⟨x, hx, hm, hkx⟩ := cancelAcquire_spec hk h.call
  refine wp_bind _ _ s e (wp_sync rfl trivial (fun _ => ?_))
  rw [hx]
  have hnext : (Claim j c true { e with queue := x }) ∨ Dropped j c { e with queue := x } := by
    rcases hm.cancel with ⟨_, hh⟩ | hab
    · exact .inl ⟨h.call, h.upstream, fun _ => (callState_of_call (e := { e with queue := x }) h.call).trans hh⟩
    · exact .inr ⟨h.call, h.upstream, hab⟩
  generalize { e with queue := x } = e₁ at hnext hkx
  refine wp_bind _ _ s e₁ (wp_attempt _ s e₁ ?_)
  rcases hnext with hclaim | hdrop
  · have hh := hclaim.held rfl
    have hsync : sync j .awaitAcquire e₁ = some (.ok (), e₁) := by
      simp only [sync, hh]
    refine wp_sync hsync trivial (fun hi => ?_)
    refine wp_sync rfl ⟨hh, hclaim.upstream⟩ (fun _ => ?_)
    obtain ⟨_, hlinks, hended, _⟩ := giveBack_spec hi hh hclaim.upstream
    exact ⟨rfl, rfl, hlinks ▸ hclaim.upstream, nofun, fun _ => .inr hended⟩
  · refine slotWp_ask (I := Dropped j c) (fun _ _ hd hr => hd.stable hr) rfl hdrop ?_
    intro r e₂ e₃ hd _ _ ha
    obtain ⟨rfl, hended, rfl⟩ := hd.answers ha
    exact ⟨rfl, rfl, hd.upstream, nofun, fun _ => .inr hended⟩

theorem leaveQueue_spec {c : Nat} {granted : Bool} {s : ControlSession} {e : Proxy}
    (h : Claim j c granted e) :
    slotWp limit j l (leaveQueue granted)
      (fun r s' e' => r = .ok () ∧ s' = s ∧ Claimed j granted e') s e := by
  refine wp_bind _ _ s e (slotWp_ask (I := Claim j c granted) (fun _ _ hc hr => hc.stable hr) rfl h ?_)
  intro r e₁ e₂ _ h₂ _ ha
  have hr : r = .ok () := by
    rcases ha with ha | ha
    · simp only [sync, Option.some.injEq, Prod.mk.injEq] at ha
      exact ha.1.symm
    · cases ha
  subst hr
  refine wp_bind _ _ s e₂ (wp_suppress _ _ (slotWp_ask (I := Claim j c granted) (fun _ _ hc hr => hc.stable hr) rfl h₂ ?_))
  intro r e₃ e₄ _ h₄ hk ha
  have hnext : slotWp limit j l (if granted then pure () else abandonAcquire)
      (fun r s' e' => r = .ok () ∧ s' = s ∧ Claimed j granted e') s e₄ := by
    cases granted with
    | true => exact ⟨rfl, rfl, h₄.upstream, h₄.held, nofun⟩
    | false => exact abandonAcquire_spec hk h₄
  rcases awaitGone_answers ha with rfl | rfl
  · exact hnext
  · exact hnext

theorem waitTurn_spec {c : Nat} {s : ControlSession} {e : Proxy} (h : Claim j c false e) :
    slotWp limit j l waitTurn (fun r s' e' => s' = s ∧ Claim j c (granted r) e') s e := by
  refine wp_bind _ _ s e (slotWp_ask (I := Claim j c false) (fun _ _ hc hr => hc.stable hr) rfl h ?_)
  intro r e₁ e₂ _ h₂ _ _
  cases r with
  | error x => exact ⟨rfl, h₂⟩
  | ok acquired =>
      cases acquired with
      | false => exact ⟨rfl, h₂⟩
      | true =>
          refine wp_bind _ _ s e₂ (wp_sync rfl trivial (fun _ => ?_))
          by_cases hh : e₂.callState j = .holding
          · rw [if_pos hh]
            exact ⟨rfl, h₂.call, h₂.upstream, fun _ => hh⟩
          · rw [if_neg hh]
            exact ⟨rfl, h₂⟩

theorem acquireSlot_spec {p : Int} {s : ControlSession} {e : Proxy} (hk : SlotsKept limit e)
    (hfree : Unclaimed e j) (hu : (e.links j).upstream = false) :
    slotWp limit j l (acquireSlot p) (fun r s' e' => s' = s ∧ Claimed j (granted r) e') s e := by
  obtain ⟨_, hcall, hup, _⟩ := createAcquire_spec p hk hfree hu
  refine wp_bind _ _ s e (wp_sync rfl ⟨hfree, hu⟩ (fun _ => ?_))
  generalize (e.setLink j fun l => { l with call := some e.queue.born }).queueAct (.create p) = e₁ at *
  have h₁ : Claim j e.queue.born false e₁ := ⟨hcall, hup, nofun⟩
  refine wp_bind _ _ s e₁ (wp_sync rfl trivial (fun _ => ?_))
  have hsame : SameSlots e₁ (e₁.setLink j fun l => { l with gone := .polling }) :=
    .setLink (fun _ => rfl) (fun _ => rfl)
  have h₂ := h₁.stable (hsame.rely j)
  generalize (e₁.setLink j fun l => { l with gone := .polling }) = e₂ at h₂
  refine wp_bind _ _ s e₂ (wp_attempt _ s e₂ (wp_mono _ ?_ s e₂ (waitTurn_spec h₂)))
  rintro outcome s e₃ ⟨rfl, h₃⟩
  refine wp_bind _ _ s e₃ (wp_mono _ ?_ s e₃ (leaveQueue_spec h₃))
  rintro r s e₄ ⟨rfl, rfl, h₄⟩
  cases outcome with
  | ok b => exact ⟨rfl, h₄⟩
  | error x => exact ⟨rfl, h₄⟩

theorem close_slot {s : ControlSession} {e e' : Proxy} (hr : Rewired j e e')
    (hu : (e'.links j).upstream = false) (hs : s.upstream = false)
    (hheld : s.holdsSlot = true → e.callState j = .holding)
    (hfree : s.holdsSlot = false → Unclaimed e j) : Slot j s e' where
  upstream := hs.trans hu.symm
  held h := (hr.callState j).trans (hheld h)
  free h := by
    refine ⟨hs, ?_⟩
    rcases hfree h with hn | hn
    · exact .inl (hr.call.trans hn)
    · exact .inr ((hr.callState j).trans hn)

theorem closeUpstreamWriter_spec {s : ControlSession} {e : Proxy} (hs : s.upstream = false)
    (hheld : s.holdsSlot = true → e.callState j = .holding)
    (hfree : s.holdsSlot = false → Unclaimed e j) :
    slotWp limit j l closeUpstreamWriter (fun _ s' e' => s' = s ∧ Slot j s' e') s e := by
  have hstable : ∀ s' e e', (s' = s ∧ Slot j s' e) → SlotRely j e e' → s' = s ∧ Slot j s' e' :=
    fun _ _ _ h hr => ⟨h.1, h.2.stable hr⟩
  refine wp_bind _ _ s e (wp_sync rfl trivial (fun _ => ?_))
  have h₁ := close_slot (close_rewired e j) (by simp [setLink, note]) hs hheld hfree
  refine wp_mono _ ?_ s _ (Keeps.tryCatch (J := fun s' e' => s' = s ∧ Slot j s' e') (keeps_ask hstable rfl)
    (fun x => ?_) s _ ⟨rfl, h₁⟩)
  · intro r s' e' h
    cases r with
    | ok _ => exact h
    | error _ => exact h
  · split
    · exact keeps_ask hstable rfl
    · split
      · exact Keeps.pure ()
      · exact Keeps.raise (fun _ _ h => h) x

theorem giveBack_settled {s : ControlSession} {e : Proxy} (h : Slot j s e) (hs : s.upstream = false)
    (hk : SlotsKept limit e) :
    Settled j { s with holdsSlot := false } (if s.holdsSlot then e.giveBack j else e) := by
  cases hheld : s.holdsSlot with
  | true =>
      obtain ⟨_, hlinks, hended, _⟩ := giveBack_spec hk (h.held hheld) (h.upstream.symm.trans hs)
      exact ⟨⟨by rw [if_pos rfl, hlinks]; exact h.upstream, nofun, fun _ => ⟨hs, .inr hended⟩⟩, hs.symm⟩
  | false => exact ⟨⟨h.upstream, nofun, fun _ => h.free hheld⟩, hs.symm⟩

theorem releaseUpstream_spec {s : ControlSession} {e : Proxy} (hk : SlotsKept limit e)
    (h : Slot j s e) :
    slotWp limit j l releaseUpstream (fun _ s' e' => Settled j s' e' ∧ s'.holdsSlot = false) s e := by
  have hclosed : slotWp limit j l (if s.upstream then closeUpstreamWriter else pure ())
      (fun _ s' e' => s' = { s with upstream := false } ∧ Slot j s' e' ∧ SlotsKept limit e')
      { s with upstream := false } e := by
    cases hu : s.upstream with
    | true =>
        refine wp_mono _ ?_ _ e (wp_inv _ _ e hk (closeUpstreamWriter_spec rfl h.held
          (fun hf => (h.free hf).2)))
        rintro r s' e' ⟨hk', rfl, hslot⟩
        exact ⟨rfl, hslot, hk'⟩
    | false =>
        exact ⟨rfl, ⟨hu.symm.trans h.upstream, h.held, fun hf => ⟨rfl, (h.free hf).2⟩⟩, hk⟩
  refine wp_bind _ _ s e ?_
  refine wp_bind _ _ s e ?_
  refine wp_tryFinally _ _ (wp_mono _ ?_ _ e hclosed)
  rintro r s₁ e₁ ⟨rfl, h₁, hk₁⟩
  have hsettled := giveBack_settled h₁ rfl hk₁
  refine wp_bind _ _ _ e₁ ?_
  cases hheld : s.holdsSlot with
  | true =>
      simp only [hheld, if_true] at hsettled
      refine wp_bind _ _ _ e₁ (wp_sync rfl ⟨h₁.held hheld, h₁.upstream.symm⟩ (fun _ => ?_))
      cases r <;> exact ⟨hsettled, rfl⟩
  | false =>
      simp only [hheld] at hsettled
      cases r <;> exact ⟨hsettled, rfl⟩

structure Carried (j : Nat) (I J : ControlSession → Proxy → Prop) : Prop where
  stable : ∀ s e e', I s e → SlotRely j e e' → I s e'
  modify : ∀ (f : ControlSession → ControlSession) s e, (∀ s, (f s).upstream = s.upstream) →
    (∀ s, (f s).holdsSlot = s.holdsSlot) → I s e → I (f s) e
  weaken : ∀ s e, I s e → J s e

theorem Slot.modify {f : ControlSession → ControlSession} {s : ControlSession} {e : Proxy}
    (hu : ∀ s, (f s).upstream = s.upstream) (hh : ∀ s, (f s).holdsSlot = s.holdsSlot)
    (h : Slot j s e) : Slot j (f s) e where
  upstream := (hu s).trans h.upstream
  held hs := h.held ((hh s).symm.trans hs)
  free hs := ⟨(hu s).trans (h.free ((hh s).symm.trans hs)).1, (h.free ((hh s).symm.trans hs)).2⟩

theorem settled_carried : Carried j (Settled j) (Slot j) where
  stable _ _ _ h hr := h.stable hr
  modify _ _ _ hu hh h := ⟨h.toSlot.modify hu hh, by rw [hu, hh, h.paired]⟩
  weaken _ _ h := h.toSlot

theorem released_carried : Carried j (fun s e => Slot j s e ∧ s.holdsSlot = false)
    (fun s e => Slot j s e ∧ s.holdsSlot = false) where
  stable _ _ _ h hr := ⟨h.1.stable hr, h.2⟩
  modify _ _ _ hu hh h := ⟨h.1.modify hu hh, (hh _).trans h.2⟩
  weaken _ _ h := h

def Slotless (f : ControlSession → ControlSession) : Prop :=
  ∀ s, (f s).upstream = s.upstream ∧ (f s).holdsSlot = s.holdsSlot

def Keeping {α : Type} (limit : Int) (j : Nat) (l : Label) (I J : ControlSession → Proxy → Prop)
    (c : Session α) : Prop :=
  Keeps (world j) ((slotProtocol limit).contract j l) (fun s e => I s e ∧ SlotsKept limit e)
    (fun s e => J s e ∧ SlotsKept limit e) c

section

variable {I J : ControlSession → Proxy → Prop} (hI : Carried j I J)

include hI

theorem keeping_ask {i : Op} (hi : slotOp i = false) : Keeping limit j l I I (ask i) := by
  intro s e h
  refine wp_mono _ ?_ s e (wp_inv _ s e h.2 (keeps_ask hI.stable hi s e h.1))
  intro r s' e' h'
  cases r with
  | ok _ => exact ⟨h'.2, h'.1⟩
  | error _ => exact ⟨h'.2, h'.1⟩

theorem keeping_modify {f : ControlSession → ControlSession} (hu : ∀ s, (f s).upstream = s.upstream)
    (hh : ∀ s, (f s).holdsSlot = s.holdsSlot) : Keeping limit j l I J (Coro.modify f) :=
  Keeps.modify (fun s e h => ⟨hI.modify f s e hu hh h.1, h.2⟩)

theorem keeping_composes : Composes (fun i => slotOp i = false) Slotless (Keeping limit j l I J) where
  pure a := Keeps.pure a
  raise x := Keeps.raise (fun s e h => ⟨hI.weaken s e h.1, h.2⟩) x
  get := Keeps.get
  bind hc hf := Keeps.bind hc hf
  modify hf := keeping_modify hI (fun s => (hf s).1) (fun s => (hf s).2)
  ask hi := Keeps.weaken (fun s e h => ⟨hI.weaken s e h.1, h.2⟩) (keeping_ask hI hi)
  attempt hi := Keeps.attempt (keeping_ask hI hi)

end

theorem slot_asks : Asks (fun i => slotOp i = false) Slotless := by
  constructor <;> intros <;> first | rfl | exact fun _ => ⟨rfl, rfl⟩

theorem slot_talks : Talks (fun i => slotOp i = false) Slotless := by
  refine ⟨⟨slot_asks, ?_, ?_, ?_⟩, ?_, ?_, ?_, ?_, ?_, ?_, ?_, ?_, ?_, ?_⟩ <;> intros <;>
    first | rfl | exact fun _ => ⟨rfl, rfl⟩

theorem slot_hands : Hands (fun i => slotOp i = false) := by
  constructor <;> intros <;> rfl

theorem slot_relays : Relays (fun i => slotOp i = false) Slotless := by
  constructor <;> intros <;> first | rfl | exact fun _ => ⟨rfl, rfl⟩

theorem slotless_of_quiet {f : ControlSession → ControlSession} (h : Quiet f) : Slotless f :=
  fun s => ⟨h.upstream s, h.holdsSlot s⟩

theorem keeping_openPassiveRelay : Keeping limit j l (Settled j) (Slot j) openPassiveRelay :=
  (keeping_composes settled_carried).openPassiveRelay slot_relays

theorem keeping_release : Keeping limit j l (Settled j) (Slot j) releaseUpstream := by
  intro s e h
  refine wp_mono _ ?_ s e (wp_inv _ s e h.2 (releaseUpstream_spec h.2 h.1.toSlot))
  intro r s' e' h'
  cases r with
  | ok _ => exact ⟨h'.2.1, h'.1⟩
  | error _ => exact ⟨h'.2.1.toSlot, h'.1⟩

theorem connect_spec {s : ControlSession} {e : Proxy}
    (hh : e.callState j = .holding) (hu : (e.links j).upstream = false)
    (hs : s.upstream = false) (hheld : s.holdsSlot = true) :
    slotWp limit j l connect (Ends (fun s e => Settled j s e ∧ SlotsKept limit e)
      (fun s e => Slot j s e ∧ SlotsKept limit e)) s e := by
  have h := @keeping_composes limit j l _ _ settled_carried
  refine wp_bind _ _ s e (wp_attempt _ s e ?_)
  refine wp_perform hh (fun r e' he _ => by cases he) ?_
  intro _ e₁ h₁ _ _ r e₂ _ hr hk₂
  obtain ⟨hh₁, hu₁⟩ : e₁.callState j = .holding ∧ (e₁.links j).upstream = false := by
    refine stable_star (X := fun e => e.callState j = .holding ∧ (e.links j).upstream = false) ?_ h₁ ⟨hh, hu⟩
    exact fun _ _ hX hr => ⟨hr.holding hX.1, hr.upstream.trans hX.2⟩
  cases r with
  | ok _ =>
      cases hr
      have hopen := open_rewired e₁ j
      have hsettled : Settled j { s with upstream := true }
          ((e₁.setLink j fun l => { l with upstream := true, upstreamFlow := .free }).note j .opened) := by
        refine ⟨⟨by simp [setLink, note], fun _ => (hopen.callState j).trans hh₁, fun hf => ?_⟩, hheld⟩
        cases hheld.symm.trans hf
      refine wp_bind _ _ s _ ((wp_modify _).mpr ?_)
      exact h.setUp slot_talks.toAsks keeping_release (h.replayState slot_talks.toAsks (fun _ _ _ => rfl)
        (fun name => slotless_of_quiet (quiet_forget name))) _ _
        ⟨hsettled, hk₂⟩
  | error x =>
      cases hr
      have hslot : Slot j s e₁ :=
        ⟨hs.trans hu₁.symm, fun _ => hh₁, fun hf => absurd (hheld.symm.trans hf) (by simp)⟩
      show slotWp limit j l (if _ then _ else _) _ s e₁
      split
      · refine wp_bind _ _ s e₁ (wp_mono _ ?_ s e₁ (wp_inv _ s e₁ hk₂ (releaseUpstream_spec hk₂ hslot)))
        intro r s' e' h'
        cases r with
        | ok _ => exact ⟨h'.2.1, h'.1⟩
        | error _ => exact ⟨h'.2.1.toSlot, h'.1⟩
      · exact ⟨hslot, hk₂⟩

theorem keeping_ensureUpstream (p : Int) : Keeping limit j l (Settled j) (Slot j) (ensureUpstream p) := by
  rintro s e ⟨h, hk⟩
  refine wp_bind _ _ s e ?_
  cases hu : s.upstream with
  | true =>
      simp only [wp_get, hu, if_true]
      exact ⟨h, hk⟩
  | false =>
      have hfree := h.free (h.paired.trans hu)
      simp only [wp_get, hu, Bool.false_eq_true, if_false]
      refine wp_bind _ _ s e (wp_mono _ ?_ s e (wp_inv _ s e hk
        (acquireSlot_spec hk hfree.2 (h.upstream.symm.trans hu))))
      rintro r s e₁ ⟨hk₁, rfl, hc⟩
      have hsettled : granted r = false → Settled j s e₁ := fun hg =>
        ⟨⟨hu.trans hc.upstream.symm, fun hf => absurd ((h.paired.trans hu).symm.trans hf) (by simp),
          fun _ => ⟨hu, hc.free hg⟩⟩, h.paired⟩
      cases r with
      | error x => exact ⟨(hsettled rfl).toSlot, hk₁⟩
      | ok acquired =>
          cases acquired with
          | false => exact ⟨hsettled rfl, hk₁⟩
          | true =>
              refine wp_bind _ _ s e₁ ((wp_modify _).mpr ?_)
              exact connect_spec (hc.held rfl) hc.upstream hu rfl

theorem close_spec {s : ControlSession} {e : Proxy} (hk : SlotsKept limit e) (h : Slot j s e) :
    slotWp limit j l close (fun _ s' e' => Slot j s' e' ∧ s'.holdsSlot = false) s e := by
  have hc := @keeping_composes limit j l _ _ released_carried
  have hrest : Keeping limit j l (fun s e => Slot j s e ∧ s.holdsSlot = false)
      (fun s e => Slot j s e ∧ s.holdsSlot = false) (cancelDataRelay >>= fun _ => closeClientWriter) :=
    hc.bind (hc.cancelDataRelay slot_relays) (fun _ => hc.closeClientWriter rfl rfl rfl)
  refine wp_bind _ _ s e (wp_mono _ ?_ s e (wp_inv _ s e hk (releaseUpstream_spec hk h)))
  rintro r s₁ e₁ ⟨hk₁, h₁, hfree⟩
  cases r with
  | error x => exact ⟨h₁.toSlot, hfree⟩
  | ok _ =>
      refine wp_mono _ ?_ s₁ e₁ (hrest s₁ e₁ ⟨⟨h₁.toSlot, hfree⟩, hk₁⟩)
      intro r s' e' h'
      cases r with
      | ok _ => exact h'.1
      | error _ => exact h'.1

theorem keeping_turn : Keeping limit j l (Settled j) (Slot j) (turn l) := by
  have h := @keeping_composes limit j l _ _ settled_carried
  exact h.turn slot_talks slot_hands rfl (fun _ => rfl) (h.cancelDataRelay slot_relays) keeping_release
    keeping_ensureUpstream keeping_openPassiveRelay (fun _ => rfl)
    (fun name value => slotless_of_quiet (quiet_setState name value))
    (fun name => slotless_of_quiet (quiet_discardLost name))
    (fun command argument reply => slotless_of_quiet (quiet_recordReply command argument reply)) l

theorem slot_body {clients : Clients} {s : ControlSession} {e : Proxy} (hk : SlotsKept limit e)
    (h : (slotProtocol limit).lab j l s e) :
    wp (world j) ((slotProtocol limit).contract j l) (body l)
      ((slotProtocol limit).post (ftpProxy clients) j l) s e := by
  have hturn : l ≠ .closing → Settled j s e →
      wp (world j) ((slotProtocol limit).contract j l) (turn l >>= fun next => pure (some next))
        ((slotProtocol limit).post (ftpProxy clients) j l) s e := by
    intro hl hs
    refine wp_bind _ _ s e (wp_mono _ ?_ s e (keeping_turn s e ⟨hs, hk⟩))
    intro r s' e' h'
    cases r with
    | ok next => cases next <;> first | exact h'.1.toSlot | exact h'.1
    | error x => cases l <;> first | exact h'.1 | exact absurd rfl hl
  cases l with
  | start => exact hturn (by simp) h
  | running => exact hturn (by simp) h
  | reading => exact hturn (by simp) h
  | closing =>
      refine wp_bind _ _ s e (wp_mono _ ?_ s e (close_spec hk h))
      intro r s' e' h'
      cases r <;> exact h'

end

theorem slot_inv_sync {limit : Int} {j : Nat} {i : Op} {s : ControlSession} {e e' : Proxy}
    {r : Except Exc i.Answer} (hk : SlotsKept limit e) (hg : slotGuar j i s e)
    (h : sync j i e = some (r, e')) : SlotsKept limit e' ∧ ∀ k, k ≠ j → SlotRely k e e' := by
  cases hi : slotOp i with
  | false =>
      have hsame := sync_slots hi h
      exact ⟨hsame.kept hk, fun k _ => hsame.rely k⟩
  | true =>
      cases i with
      | createAcquire p =>
          cases h
          obtain ⟨hk', _, _, hr⟩ := createAcquire_spec p hk hg.1 hg.2
          exact ⟨hk', hr⟩
      | cancelAcquire =>
          cases h
          cases hc : (e.links j).call with
          | none =>
              have he : e.onCall j .cancel = e := by simp only [onCall, hc]
              rw [he]
              exact ⟨hk, fun k _ => (SameSlots.refl e).rely k⟩
          | some c =>
              obtain ⟨x, he, hm, hk'⟩ := cancelAcquire_spec hk hc
              rw [he]
              exact ⟨hk', fun k _ => rely_of_moves hk hm (fun _ _ hd => by cases hd)⟩
      | queueRelease =>
          cases h
          obtain ⟨hk', _, _, hr⟩ := giveBack_spec hk hg.1 hg.2
          exact ⟨hk', hr⟩
      | openConnection => cases h
      | closeUpstream =>
          cases h
          have hw := close_rewired e j
          exact ⟨hw.kept hk (by simp [setLink, note]), fun k hne => hw.rely hne⟩
      | _ => cases hi

theorem slot_inv_resume {limit : Int} {j : Nat} {i : Op} {s : ControlSession} {e e' : Proxy}
    {r : Except Exc i.Answer} (hk : SlotsKept limit e) (hg : slotGuar j i s e)
    (h : resume j i r e = some e') : SlotsKept limit e' ∧ ∀ k, k ≠ j → SlotRely k e e' := by
  cases hi : slotOp i with
  | false =>
      have hsame := resume_slots hi h
      exact ⟨hsame.kept hk, fun k _ => hsame.rely k⟩
  | true =>
      cases i with
      | openConnection =>
          cases r with
          | ok _ =>
              cases h
              have hw := open_rewired e j
              exact ⟨hw.kept hk (fun _ => hg), fun k hne => hw.rely hne⟩
          | error x =>
              cases h
              exact ⟨hk, fun k _ => (SameSlots.refl e).rely k⟩
      | createAcquire p => cases r <;> cases h
      | cancelAcquire => cases r <;> cases h
      | queueRelease => cases r <;> cases h
      | closeUpstream => cases r <;> cases h
      | _ => cases hi

theorem slot_inv_queue {limit : Int} {e e' : Proxy} {a : QueueAct} (hk : SlotsKept limit e)
    (ha : ∀ c, a ≠ .release c) (hc : ∀ p, a ≠ .create p)
    (h : (e.queue.step a).map (fun x => { e with queue := x }) = some e') :
    SlotsKept limit e' ∧ ∀ k, SlotRely k e e' := by
  obtain ⟨x, hx, rfl⟩ := Option.map_eq_some_iff.mp h
  have hm := QueueRun.step_moves hk.sound hx
  refine ⟨kept_of_moves hk hm ?_ (fun _ c _ _ => ha c), fun k => rely_of_moves hk hm (fun c _ => ha c)⟩
  cases hm with
  | create p => exact absurd rfl (hc p)
  | _ => rfl

theorem onRelay_slots {e e' : Proxy} {n : Nat} {x : Option Relay} (h : e.onRelay n x = some e') :
    SameSlots e e' := by
  unfold onRelay at h
  split at h
  · obtain ⟨y, _, rfl⟩ := Option.map_eq_some_iff.mp h
    exact .setRelay e n y
  · cases h

def queueTick : Tick → Bool
  | .acquireStart _ => true
  | .acquireResume _ => true
  | .acquireCancel _ => true
  | _ => false

theorem tick_slots {b : Tick} {e e' : Proxy} (hb : queueTick b = false) (h : e.tick b = some e') : SameSlots e e' := by
  cases b with
  | stop => cases h; exact ⟨rfl, rfl, fun _ => rfl, fun _ => rfl⟩
  | elapse d =>
      simp only [Proxy.tick] at h
      split at h
      · cases h; exact ⟨rfl, rfl, fun _ => rfl, fun _ => rfl⟩
      · cases h
  | arrive j r => cases h; exact .setLink (fun _ => rfl) (fun _ => rfl)
  | clientFlow j f => cases h; exact .setLink (fun _ => rfl) (fun _ => rfl)
  | upstreamFlow j f => cases h; exact .setLink (fun _ => rfl) (fun _ => rfl)
  | gone j =>
      obtain ⟨g, _, rfl⟩ := Option.map_eq_some_iff.mp h
      exact .setLink (fun _ => rfl) (fun _ => rfl)
  | reply j outcome =>
      simp only [Proxy.tick] at h
      split at h <;> cases h
      · exact .setLink (fun _ => rfl) (fun _ => rfl)
      · exact .setLink (fun _ => rfl) (fun _ => rfl)
  | supervise n timedOut =>
      simp only [Proxy.tick, superviseTurn] at h
      split at h
      · obtain ⟨x, _, rfl⟩ := Option.map_eq_some_iff.mp h
        exact ⟨rfl, rfl, fun _ => rfl, fun _ => rfl⟩
      · cases h
  | cancelSupervise n => exact onRelay_slots h
  | connect n => exact onRelay_slots h
  | accept n stranger => exact onRelay_slots h
  | handle n moved =>
      obtain ⟨e₁, he, rfl⟩ := Option.map_eq_some_iff.mp h
      refine (onRelay_slots he).trans ?_
      split
      · exact .setLink (fun _ => rfl) (fun _ => rfl)
      · exact .refl _
  | disconnect n => exact onRelay_slots h
  | _ => cases hb

theorem slot_inv_tick {limit : Int} {b : Tick} {e e' : Proxy} (hk : SlotsKept limit e)
    (h : e.tick b = some e') : SlotsKept limit e' ∧ ∀ k, SlotRely k e e' := by
  cases hb : queueTick b with
  | false => exact ⟨(tick_slots hb h).kept hk, (tick_slots hb h).rely⟩
  | true =>
      cases b with
      | acquireStart c => exact slot_inv_queue hk (by simp) (by simp) h
      | acquireResume c => exact slot_inv_queue hk (by simp) (by simp) h
      | acquireCancel c => exact slot_inv_queue hk (by simp) (by simp) h
      | _ => cases hb

theorem slot_verified (clients : Clients) (limit : Int) :
    (slotProtocol limit).Verified (ftpProxy clients) where
  body _ _ _ _ hk h := slot_body hk h
  inv_sync _ _ _ _ _ _ hk hg h := (slot_inv_sync hk hg h).1
  inv_resume _ _ _ _ _ _ _ hk hg _ h := (slot_inv_resume hk hg h).1
  inv_spawn _ _ _ _ hk _ h := by cases h; exact hk
  inv_tick _ _ _ _ hk _ h := (slot_inv_tick hk h).1
  rely_sync _ k _ _ _ _ _ hne hk hg h := (slot_inv_sync hk hg h).2 k hne
  rely_resume _ k _ _ _ _ _ _ hne hk hg _ h := (slot_inv_resume hk hg h).2 k hne
  rely_spawn _ k _ _ _ _ _ _ h := by cases h; exact (SameSlots.refl _).rely k
  rely_tick k _ _ _ _ hk _ h := (slot_inv_tick hk h).2 k
  guar_stable j i s e e' _ _ _ h hr := by
    cases i with
    | createAcquire p => exact ⟨unclaimed_stable hr h.1, hr.upstream.trans h.2⟩
    | queueRelease => exact ⟨hr.holding h.1, hr.upstream.trans h.2⟩
    | openConnection => exact hr.holding h
    | _ => trivial
  lab_stable j l s e e' _ _ h hr := by
    cases l with
    | closing => exact Slot.stable h hr
    | _ => exact Settled.stable h hr
  fin_stable _ _ _ _ _ _ h hr := ⟨h.1.stable hr, h.2⟩
  idle_stable _ _ _ _ _ h hr := ⟨hr.call.trans h.1, hr.upstream.trans h.2⟩
  spawn_lab _ _ _ _ _ h hs := by
    cases hs
    exact ⟨⟨h.2.symm, nofun, fun _ => ⟨rfl, .inl h.1⟩⟩, rfl⟩

end Session

open Session

-- Whoever is connected to the printer owns a slot of its own, nobody gives back what it does not
-- own, and nothing is left over when all sessions are through.
structure SlotsOwned (limit : Int) (c : FtpConfig) : Prop where
  bounded : ∀ S : Finset Nat, (∀ j ∈ S, (c.env.links j).upstream = true) → (S.card : Int) ≤ limit
  owned : ∀ j, (c.env.links j).upstream = true → c.env.callState j = .holding
  unshared : ∀ j k n, (c.env.links j).call = some n → (c.env.links k).call = some n → j = k
  noStray : c.env.strayRelease = false
  drained : (∀ j, c.procs j = .idle ∨ ∃ s, c.procs j = .halted s) → c.env.queue.queue.active = 0

theorem connected_le {limit : Int} {e : Proxy} (h : e.SlotsKept limit) {S : Finset Nat}
    (hS : ∀ j ∈ S, (e.links j).upstream = true) : (S.card : Int) ≤ limit := by
  have hcall : ∀ j ∈ S, ∃ c, (e.links j).call = some c ∧ e.queue.calls c = .holding :=
    fun j hj => Proxy.call_of_holding (h.owned j (hS j hj))
  have hcard : S.card ≤ e.queue.owners.card := by
    refine Finset.card_le_card_of_injOn (fun j => ((e.links j).call).getD 0) ?_ ?_
    · intro j hj
      obtain ⟨c, hc, hh⟩ := hcall j hj
      simp only [hc, Option.getD_some]
      exact QueueRun.mem_owners.mpr ⟨h.born hc, by simp [QueueRun.granted, hh]⟩
    · intro j hj k hk heq
      obtain ⟨c, hc, _⟩ := hcall j hj
      obtain ⟨d, hd, _⟩ := hcall k hk
      simp only [hc, hd, Option.getD_some] at heq
      exact h.unshared j k c hc (heq ▸ hd)
  have hcount := h.sound.count
  have hbound := h.sound.bound
  have hlimit := h.limit
  omega

theorem unclaimed_drained {limit : Int} {e : Proxy} (h : e.SlotsKept limit)
    (hu : ∀ j, e.Unclaimed j) : e.queue.queue.active = 0 := by
  have hnone : e.queue.owners = ∅ := by
    refine Finset.eq_empty_of_forall_notMem (fun c hc => ?_)
    obtain ⟨hborn, hg⟩ := QueueRun.mem_owners.mp hc
    have hne : e.queue.calls c ≠ .ended := fun he => by simp [QueueRun.granted, he] at hg
    obtain ⟨j, hj⟩ := h.current c hborn hne
    rcases hu j with hn | hn
    · rw [hj] at hn
      cases hn
    · rw [Proxy.callState_of_call hj] at hn
      exact hne hn
  rw [h.sound.count, hnone]
  rfl

theorem startup_slots {limit : Int} {q : SessionQueue} {pool : DataPortPool} {clients : Clients}
    (hq : SessionQueue.init limit = some q) :
    (slotProtocol limit).Holds (ftpProxy clients) (startup q pool) := by
  obtain ⟨hlimit, hactive, hwaiters⟩ := QueueRun.init_spec hq
  refine ⟨?_, fun j => ⟨rfl, rfl⟩⟩
  refine ⟨QueueRun.fresh_sound q hactive hwaiters, hlimit, rfl, ?_, ?_, ?_, ?_⟩
  · intro j c hc
    cases hc
  · intro j k c hc
    cases hc
  · intro c hc
    exact absurd hc (Nat.not_lt_zero c)
  · intro j hj
    cases hj

theorem printer_slots {maxConcurrent : Int} {q : SessionQueue} {pool : DataPortPool}
    {clients : Clients} {c : FtpConfig} (hq : SessionQueue.init maxConcurrent = some q)
    (hrun : (ftpProxy clients).Runs (fun _ _ _ => True) (startup q pool) c) :
    SlotsOwned maxConcurrent c := by
  obtain ⟨h, _⟩ := Protocol.Holds.run (slot_verified clients maxConcurrent)
    (fun _ a _ _ => ⟨by cases a <;> first | trivial | exact fun _ _ _ _ => trivial, trivial⟩) hrun
    (startup_slots hq) trivial
  refine ⟨fun S hS => connected_le h.inv hS, h.inv.owned, h.inv.unshared, h.inv.noStray, fun hdone => ?_⟩
  refine unclaimed_drained h.inv (fun j => ?_)
  have hproc := h.procs j
  rcases hdone j with hj | ⟨s, hj⟩
  · rw [hj] at hproc
    exact .inl hproc.1
  · rw [hj] at hproc
    exact (hproc.1.free hproc.2).2

def contenders : List FtpAct :=
  logsIn 0 ++ sends 0 "CWD /cache\r\n" ++ reachesPrinter 0 0 ++ answers 0 "250 moved\r\n" ++ logsIn 1 ++
    sends 1 "CWD /cache\r\n" ++ [.tick (.acquireStart 1)]

theorem printer_slots_contenders : ∃ c, (ftpProxy lan).runActs (startup oneSlot onePort) contenders = some c ∧
    SlotsOwned 1 c := by
  have hsome : ((ftpProxy lan).runActs (startup oneSlot onePort) contenders).isSome = true := by
    decide +kernel
  obtain ⟨c, hc⟩ := Option.isSome_iff_exists.mp hsome
  exact ⟨c, hc, @printer_slots 1 _ _ _ _ rfl ((ftpProxy lan).runActs_runs contenders hc)⟩

end PandaProxy.FtpProxy
