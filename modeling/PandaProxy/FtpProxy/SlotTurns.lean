import PandaProxy.FtpProxy.LinkFrames
import PandaProxy.FtpProxy.QueuedClients
import PandaProxy.FtpProxy.SlotOwnership

namespace PandaProxy.FtpProxy

open Async FtpQueue

namespace Proxy

-- What the rest of the program does while session `j` waits for its slot.
structure Apart (j : Nat) (e e' : Proxy) : Prop where
  call : (e'.links j).call = (e.links j).call
  gone : (e'.links j).gone = (e.links j).gone ∨ (e.links j).gone.turn = some (e'.links j).gone
  queue : e'.queue = e.queue ∨ ∃ a, (∀ c, (e.links j).call = some c → a ≠ .cancel c ∧ a ≠ .release c) ∧
    e.queue.step a = some e'.queue

inductive Seen : Liveness → Helper → Prop
  | polling : Seen .ready .polling
  | returned : Seen .returned .returned
  | cancelling : Seen .cancelled .cancelling
  | cancelled : Seen .cancelled .cancelled

theorem Seen.cancel {gone : Liveness} {helper : Helper} (h : Seen gone helper) : Seen gone.cancel helper.cancel := by
  cases h with
  | polling => exact .cancelling
  | returned => exact .returned
  | cancelling => exact .cancelling
  | cancelled => exact .cancelled

theorem Seen.done {gone : Liveness} {helper : Helper} (h : Seen gone helper) (hdone : helper.done = true) :
    gone = .returned ∨ gone = .cancelled := by
  cases h with
  | polling => cases hdone
  | returned => exact .inl rfl
  | cancelling => cases hdone
  | cancelled => exact .inr rfl

-- The wait `w` is that of session `j`.
structure Mirrors (j : Nat) (e : Proxy) (w : SlotWait) : Prop where
  queue : w.queue = e.queue
  call : (e.links j).call = some w.acquire
  gone : Seen w.gone (e.links j).gone

variable {j : Nat} {e e' : Proxy} {w w' : SlotWait}

theorem Mirrors.callState (h : Mirrors j e w) : e.callState j = w.queue.calls w.acquire := by
  rw [callState_of_call h.call, h.queue]

theorem Mirrors.acquired (h : Mirrors j e w) : e.acquired j = w.acquired := by
  cases hcall : w.queue.calls w.acquire <;> simp only [Proxy.acquired, SlotWait.acquired, h.callState, hcall]

theorem Mirrors.queueStep (h : Mirrors j e w) (hqueue : e'.queue = e.queue ∨
    ∃ a, (∀ c, (e.links j).call = some c → a ≠ .cancel c ∧ a ≠ .release c) ∧ e.queue.step a = some e'.queue) :
    SlotWait.machine.Runs Machine.Free w { w with queue := e'.queue } := by
  rcases hqueue with hsame | ⟨a, hown, hstep⟩
  · rw [hsame, ← h.queue]
    exact .refl
  · obtain ⟨hcancel, hrelease⟩ := hown _ h.call
    exact .single ⟨.queue a, SlotWait.step_queue hcancel hrelease (h.queue ▸ hstep), trivial⟩

theorem Seen.turn {gone : Liveness} {helper helper' : Helper} (h : Seen gone helper) (hturn : helper.turn = some helper') :
    gone = .ready ∧ helper' = .returned ∨ gone = .cancelled ∧ helper' = .cancelled := by
  cases h <;> cases hturn
  · exact .inl ⟨rfl, rfl⟩
  · exact .inr ⟨rfl, rfl⟩

theorem Mirrors.apart (h : Mirrors j e w) (hr : Apart j e e') :
    ∃ w', SlotWait.machine.Runs Machine.Free w w' ∧ Mirrors j e' w' ∧ w'.place = w.place := by
  have hqueue := h.queueStep hr.queue
  have hcall := hr.call.trans h.call
  rcases hr.gone with hsame | hturn
  · exact ⟨_, hqueue, ⟨rfl, hcall, hsame ▸ h.gone⟩, rfl⟩
  · rcases h.gone.turn hturn with ⟨hgone, hreturned⟩ | ⟨hgone, hcancelled⟩
    · have hpoll : SlotWait.machine.play { w with queue := e'.queue } [.setException, .poll] =
          some { w with queue := e'.queue, reader := { w.reader with exception := true }, gone := .returned } := by
        simp [Machine.play, SlotWait.machine, SlotWait.step, SlotWait.look, clientGone, hgone]
      exact ⟨_, hqueue.trans (Machine.play_runs hpoll), ⟨rfl, hcall, hreturned ▸ .returned⟩, rfl⟩
    · refine ⟨_, hqueue, ⟨rfl, hcall, ?_⟩, rfl⟩
      rw [hgone, hcancelled]
      exact .cancelled

end Proxy

namespace Session

open Proxy SlotWait

variable {j : Nat} {s : ControlSession} {e e' : Proxy} {w₀ : SlotWait} {exit : WaitExit}

def waitContract (j : Nat) : Contract ControlSession Proxy Op Op.Answer Exc where
  rely := Apart j
  inv _ := True
  seen _ := True
  admits _ _ := True
  guar _ _ _ := True

def Stage (j : Nat) (w₀ : SlotWait) (place : WaitPlace) (e : Proxy) : Prop :=
  ∃ w, machine.Runs Machine.Free w₀ w ∧ Mirrors j e w ∧ w.place = place

theorem Stage.apart {place : WaitPlace} (h : Stage j w₀ place e) (hr : Relation.ReflTransGen (Apart j) e e') :
    Stage j w₀ place e' := by
  induction hr with
  | refl => exact h
  | tail _ hstep ih =>
      obtain ⟨w, hw, hmirrors, hplace⟩ := ih
      obtain ⟨w', hw', hmirrors', hplace'⟩ := hmirrors.apart hstep
      exact ⟨w', hw.trans hw', hmirrors', hplace'.trans hplace⟩

theorem verdict_refused {w : SlotWait} (h : w.acquired = false) : w.verdict = .refused := by
  unfold SlotWait.acquired at h
  unfold verdict
  cases hcall : w.queue.calls w.acquire <;> simp_all

theorem verdict_granted {w : SlotWait} (h : w.queue.calls w.acquire = .holding) : w.verdict = .granted := by
  unfold verdict
  rw [h]

theorem verdict_raised {w : SlotWait} (h : w.acquired = true) (hnot : w.queue.calls w.acquire ≠ .holding) :
    w.verdict = .raised := by
  unfold SlotWait.acquired at h
  unfold verdict
  cases hcall : w.queue.calls w.acquire <;> simp_all

def exitOf : Except Exc Bool → WaitExit
  | .ok true => .granted
  | .ok false => .refused
  | .error _ => .raised

def Decided (j : Nat) (w₀ : SlotWait) (exit : WaitExit) (e : Proxy) : Prop :=
  ∃ w, machine.Runs Machine.Free w₀ w ∧ Mirrors j e w ∧
    ∃ a, machine.step w a = some { w with gone := w.gone.cancel, place := .clearing exit }

theorem waitTurn_waits (h : Stage j w₀ .waiting e) (hsane : Sane w₀) :
    wp (world j) (waitContract j) waitTurn (fun r s' e' => s' = s ∧ Decided j w₀ (exitOf r) e') s e := by
  refine wp_bind _ _ s e (wp_perform trivial ?_ ?_)
  · intro r e' hsync
    cases hsync
  intro _ e₁ hr _ _ r e₂ _ hresume _
  obtain ⟨w, hw, hmirrors, hplace⟩ := h.apart hr
  have hwaits := (hw.keeps hsane fun _ _ _ hi hstep _ => sane_step hi hstep)
  cases r with
  | error x =>
      cases x with
      | cancelled =>
          cases hresume
          refine ⟨rfl, w, hw, hmirrors, .interrupt, ?_⟩
          simp only [machine, step, hplace, if_true]
          rfl
      | _ => cases hresume
  | ok acquired =>
      obtain ⟨hdone, ⟨⟩⟩ := Option.ite_none_right_eq_some.mp hresume
      simp only [Bool.and_eq_true, Bool.or_eq_true, beq_iff_eq, hmirrors.acquired] at hdone
      obtain ⟨hdone, rfl⟩ := hdone
      have hreturned : w.gone = .returned ∨ w.acquired = true := by
        rcases hdone with hacquired | hgone
        · exact .inr hacquired
        · exact .inl ((hmirrors.gone.done hgone).resolve_right (hwaits.polled hplace))
      have hwake : machine.step w .wake = some { w with gone := w.gone.cancel, place := .clearing w.verdict } :=
        if_pos ⟨hplace, hreturned⟩
      cases hacquired : w.acquired with
      | false => exact ⟨rfl, w, hw, hmirrors, .wake, by rw [hwake, verdict_refused hacquired]; rfl⟩
      | true =>
          refine wp_bind _ _ s e₁ (wp_sync rfl trivial fun _ => ?_)
          rw [hmirrors.callState]
          by_cases hholding : w.queue.calls w.acquire = .holding
          · rw [if_pos hholding]
            exact ⟨rfl, w, hw, hmirrors, .wake, by rw [hwake, verdict_granted hholding]; rfl⟩
          · rw [if_neg hholding]
            exact ⟨rfl, w, hw, hmirrors, .wake, by rw [hwake, verdict_raised hacquired hholding]; rfl⟩

theorem awaitGone_keeps {r : Except Exc Unit}
    (h : sync j .awaitGone e = some (r, e') ∨ resume j .awaitGone r e = some e') : e' = e := by
  rcases h with h | h
  · simp only [sync] at h
    split at h <;> cases h
    · rfl
    · rfl
  · rcases awaitGone_answers (.inr h) with rfl | rfl
    · obtain ⟨_, ⟨⟩⟩ := Option.ite_none_right_eq_some.mp h
      rfl
    · obtain ⟨_, ⟨⟩⟩ := Option.ite_none_right_eq_some.mp h
      rfl

theorem abandoned_step {w w' : SlotWait} {a : WaitAct} (h : Sane w ∧ w.queue.Abandoned w.acquire)
    (hstep : machine.step w a = some w') : Sane w' ∧ w'.queue.Abandoned w'.acquire := by
  obtain ⟨hsane, habandoned⟩ := h
  refine ⟨sane_step hsane hstep, ?_⟩
  have hmoves := step_moves hstep
  cases hmoves with
  | queue hcancel hrelease hq => exact (QueueRun.step_moves hsane.sound hq).abandoned hsane.born habandoned
  | clear hplace hexit hq => exact (QueueRun.step_moves hsane.sound hq).abandoned hsane.born habandoned
  | finishHolding hplace hcall hq => exact absurd hcall habandoned.not_holding
  | poll hgone =>
      unfold look
      exact habandoned
  | _ => exact habandoned

theorem finish_ended {w : SlotWait} (hw : machine.Runs Machine.Free w₀ w) (hmirrors : Mirrors j e w)
    (hplace : w.place = .dropping exit) (hended : e.callState j = .ended) : Stage j w₀ (.finished exit) e := by
  have hstep : machine.step w .finish = some { w with place := .finished exit } := by
    simp only [machine, step, hplace, ← hmirrors.callState, hended]
  exact ⟨_, hw.tail ⟨.finish, hstep, trivial⟩, ⟨hmirrors.queue, hmirrors.call, hmirrors.gone⟩, rfl⟩

theorem finish_holding {w : SlotWait} (hw : machine.Runs Machine.Free w₀ w) (hmirrors : Mirrors j e w)
    (hplace : w.place = .dropping exit) (hholding : e.callState j = .holding) :
    Stage j w₀ (.finished exit) (e.giveBack j) := by
  have hcall := hmirrors.callState ▸ hholding
  obtain ⟨x, hx⟩ := QueueRun.step_release hcall
  have hstep : machine.step w .finish = some { w with queue := x, place := .finished exit } := by
    simp only [machine, step, hplace, hcall, hx, Option.map_some]
  have hgiven : e.giveBack j = { e with queue := x } := by
    simp only [giveBack, hholding, if_true, onCall, hmirrors.call, queueAct, ← hmirrors.queue, hx]
  rw [hgiven]
  exact ⟨_, hw.tail ⟨.finish, hstep, trivial⟩, ⟨rfl, hmirrors.call, hmirrors.gone⟩, rfl⟩

theorem abandonAcquire_waits (h : Stage j w₀ (.clearing exit) e) (hexit : exit ≠ .granted) (hsane : Sane w₀) :
    wp (world j) (waitContract j) abandonAcquire
      (fun r s' e' => r = .ok () ∧ s' = s ∧ Stage j w₀ (.finished exit) e') s e := by
  obtain ⟨w, hw, hmirrors, hplace⟩ := h
  have hwaits := hw.keeps hsane fun _ _ _ hi hstep _ => sane_step hi hstep
  have hcall : CallAt w.queue w.acquire (.clearing exit) := hplace ▸ hwaits.call
  obtain ⟨x, hx⟩ := QueueRun.step_cancel hcall.live.born
  have hclear : machine.step w .clear = some { w with queue := x, place := .dropping exit } := by
    simp only [machine, step, hplace, hx, Option.map_some]
  have hcancelled : e.onCall j .cancel = { e with queue := x } := by
    simp only [onCall, hmirrors.call, queueAct, ← hmirrors.queue, hx]
  refine wp_bind _ _ s e (wp_sync rfl trivial fun _ => ?_)
  rw [hcancelled]
  have hdropping := hw.tail ⟨.clear, hclear, trivial⟩
  have hmirrors : Mirrors j { e with queue := x } { w with queue := x, place := .dropping exit } :=
    ⟨rfl, hmirrors.call, hmirrors.gone⟩
  have hdropped := (QueueRun.step_moves hwaits.sound hx).cancel
  have hwaits := sane_step hwaits hclear
  generalize { e with queue := x } = e₁ at *
  refine wp_bind _ _ s e₁ (wp_attempt _ s e₁ (wp_perform trivial ?_ ?_))
  · rintro r e₂ hsync -
    simp only [sync] at hsync
    split at hsync <;> cases hsync
    · next hholding => exact wp_sync rfl trivial fun _ => ⟨rfl, rfl, finish_holding hdropping hmirrors rfl hholding⟩
    · next hended => exact ⟨rfl, rfl, finish_ended hdropping hmirrors rfl hended⟩
  · intro hblocked e₂ hr _ _ r e₃ _ hresume _
    have hnot : e₁.callState j ≠ .holding := by
      intro hholding
      simp only [sync, hholding] at hblocked
      cases hblocked
    have habandoned : x.Abandoned w.acquire := by
      refine hdropped.resolve_left fun hholding => hnot ?_
      exact hmirrors.callState.trans hholding.2
    obtain ⟨w', hw', hmirrors', hplace'⟩ := Stage.apart ⟨_, .refl, hmirrors, rfl⟩ hr
    have hstays := (hw'.keeps ⟨hwaits, habandoned⟩ fun _ _ _ hi hstep _ => abandoned_step hi hstep).2.not_holding
    rw [← hmirrors'.callState] at hstays
    cases r with
    | ok u => exact absurd (Option.ite_none_right_eq_some.mp hresume).1 hstays
    | error y =>
        cases y with
        | cancelled =>
            obtain ⟨hacquired, ⟨⟩⟩ := Option.ite_none_right_eq_some.mp hresume
            have hended := (acquired_iff.mp hacquired).resolve_left hstays
            exact ⟨rfl, rfl, finish_ended (hdropping.trans hw') hmirrors' hplace' hended⟩
        | _ => cases hresume

theorem leaveQueue_waits (h : Decided j w₀ exit e) (hsane : Sane w₀) :
    wp (world j) (waitContract j) (leaveQueue (exit == .granted))
      (fun r s' e' => r = .ok () ∧ s' = s ∧ Stage j w₀ (.finished exit) e') s e := by
  obtain ⟨w, hw, hmirrors, a, hstep⟩ := h
  refine wp_bind _ _ s e (wp_sync rfl trivial fun _ => ?_)
  have hclearing : Stage j w₀ (.clearing exit) (e.setLink j fun l => { l with gone := l.gone.cancel }) := by
    refine ⟨_, hw.tail ⟨a, hstep, trivial⟩, ⟨hmirrors.queue, ?_, ?_⟩, rfl⟩
    · simpa [setLink] using hmirrors.call
    · simpa [setLink] using hmirrors.gone.cancel
  generalize (e.setLink j fun l => { l with gone := l.gone.cancel }) = e₁ at hclearing
  have hleaves : ∀ e', Stage j w₀ (.clearing exit) e' →
      wp (world j) (waitContract j) (if (exit == .granted) = true then pure () else abandonAcquire)
        (fun r s' e' => r = .ok () ∧ s' = s ∧ Stage j w₀ (.finished exit) e') s e' := by
    intro e' hclearing
    by_cases hexit : exit = .granted
    · subst hexit
      obtain ⟨w, hw, hmirrors, hplace⟩ := hclearing
      have hclear : machine.step w .clear = some { w with place := .finished .granted } := by
        simp only [machine, step, hplace]
      exact ⟨rfl, rfl, _, hw.tail ⟨.clear, hclear, trivial⟩, ⟨hmirrors.queue, hmirrors.call, hmirrors.gone⟩, rfl⟩
    · rw [if_neg (by simpa using hexit)]
      exact abandonAcquire_waits hclearing hexit hsane
  have hanswered : ∀ r e₂ e₃, Stage j w₀ (.clearing exit) e₂ →
      (sync j .awaitGone e₂ = some (r, e₃) ∨ resume j .awaitGone r e₂ = some e₃) →
      (r = .ok () ∨ r = .error .cancelled) ∧ Stage j w₀ (.clearing exit) e₃ := by
    intro r e₂ e₃ hclearing ha
    exact ⟨awaitGone_answers ha, awaitGone_keeps ha ▸ hclearing⟩
  refine wp_bind _ _ s e₁ (wp_suppress _ _ (wp_perform trivial ?_ ?_))
  · rintro r e₂ hsync -
    obtain ⟨rfl | rfl, hclearing⟩ := hanswered r e₁ e₂ hclearing (.inl hsync)
    · exact hleaves e₂ hclearing
    · exact hleaves e₂ hclearing
  · intro _ e₂ hr _ _ r e₃ _ hresume _
    obtain ⟨rfl | rfl, hclearing⟩ := hanswered r e₂ e₃ (hclearing.apart hr) (.inr hresume)
    · exact hleaves e₃ hclearing
    · exact hleaves e₃ hclearing

theorem granted_exit (r : Except Exc Bool) : granted r = (exitOf r == .granted) := by
  rcases r with x | b
  · rfl
  · cases b <;> rfl

-- `_acquire_slot`, whatever happens around it, is a wait for a slot as far as it goes.
theorem acquireSlot_waits {p : Int} (reader : ControlStream) (hs : e.queue.Sound) :
    wp (world j) (waitContract j) (acquireSlot p)
      (fun r s' e' => s' = s ∧ Stage j (begin e.queue p reader e.now) (.finished (exitOf r)) e') s e := by
  have hsane := sane_begin hs p reader e.now
  have hwaiting : Stage j (begin e.queue p reader e.now) .waiting
      (((e.setLink j fun l => { l with call := some e.queue.born }).queueAct (.create p)).setLink j
        fun l => { l with gone := .polling }) := by
    refine ⟨_, .refl, ⟨rfl, ?_, ?_⟩, rfl⟩
    · simp [setLink, queueAct, QueueRun.step, begin]
    · simp only [setLink, Function.update_self]
      exact .polling
  refine wp_bind _ _ s e (wp_sync rfl trivial fun _ => ?_)
  refine wp_bind _ _ s _ (wp_sync rfl trivial fun _ => ?_)
  generalize ((e.setLink j fun l => { l with call := some e.queue.born }).queueAct (.create p)).setLink j
    (fun l => { l with gone := .polling }) = e₁ at hwaiting
  refine wp_bind _ _ s e₁ (wp_attempt _ s e₁ (wp_mono _ ?_ s e₁ (waitTurn_waits hwaiting hsane)))
  rintro outcome s e₂ ⟨rfl, hdecided⟩
  have hleaves := leaveQueue_waits (s := s) hdecided hsane
  rw [← granted_exit] at hleaves
  refine wp_bind _ _ s e₂ (wp_mono _ ?_ s e₂ hleaves)
  rintro r s e₃ ⟨rfl, rfl, hfinished⟩
  cases outcome with
  | ok b => exact ⟨rfl, hfinished⟩
  | error x => exact ⟨rfl, hfinished⟩

variable {limit : Int} {k : Nat} {i : Op}

theorem apart_of_queue (hlink : e'.links j = e.links j) (hqueue : e'.queue = e.queue ∨
    ∃ a, (∀ c, (e.links j).call = some c → a ≠ .cancel c ∧ a ≠ .release c) ∧ e.queue.step a = some e'.queue) : Apart j e e' :=
  ⟨by rw [hlink], .inl (by rw [hlink]), hqueue⟩

theorem sync_apart {r : Except Exc i.Answer} (hk : SlotsKept limit e) (hg : slotGuar k i s e) (hne : k ≠ j)
    (h : sync k i e = some (r, e')) : Apart j e e' := by
  have hlink : e'.links j = e.links j := sync_blind (others_blind k i) h j hne.symm
  refine apart_of_queue hlink ?_
  have hother : ∀ c, (e.links k).call = some c → ∀ d, (e.links j).call = some d → c ≠ d := by
    rintro c hc d hd rfl
    exact hne (hk.unshared k j c hc hd)
  cases hi : slotOp i with
  | false => exact .inl (sync_slots hi h).queue
  | true =>
      cases i with
      | createAcquire p =>
          cases h
          exact .inr ⟨.create p, fun c _ => ⟨by rintro ⟨⟩, by rintro ⟨⟩⟩, rfl⟩
      | cancelAcquire =>
          cases h
          cases hc : (e.links k).call with
          | none => exact .inl (by simp only [onCall, hc])
          | some c =>
              obtain ⟨x, hx⟩ := QueueRun.step_cancel (hk.alive k c hc)
              refine .inr ⟨.cancel c, fun d hd => ⟨fun he => hother c hc d hd (QueueAct.cancel.inj he), by rintro ⟨⟩⟩, ?_⟩
              simp only [onCall, hc, queueAct, hx]
      | queueRelease =>
          cases h
          obtain ⟨c, hc, hcall⟩ := call_of_holding hg.1
          obtain ⟨x, hx⟩ := QueueRun.step_release hcall
          refine .inr ⟨.release c, fun d hd => ⟨by rintro ⟨⟩, fun he => hother c hc d hd (QueueAct.release.inj he)⟩, ?_⟩
          simp only [giveBack, hg.1, if_true, onCall, hc, queueAct, hx]
      | openConnection => cases h
      | closeUpstream =>
          cases h
          exact .inl (close_rewired e k).queue
      | _ => cases hi

theorem resume_apart {r : Except Exc i.Answer} (hne : k ≠ j) (h : resume k i r e = some e') : Apart j e e' := by
  have hlink : e'.links j = e.links j := resume_blind (others_blind k i) h j hne.symm
  refine apart_of_queue hlink ?_
  cases hi : slotOp i with
  | false => exact .inl (resume_slots hi h).queue
  | true =>
      cases i with
      | openConnection =>
          cases r with
          | ok _ =>
              cases h
              exact .inl (open_rewired e k).queue
          | error x =>
              cases h
              exact .inl rfl
      | createAcquire p => cases r <;> cases h
      | cancelAcquire => cases r <;> cases h
      | queueRelease => cases r <;> cases h
      | closeUpstream => cases r <;> cases h
      | _ => cases hi

theorem tick_apart {b : Tick} (hcancel : ∀ c, (e.links j).call = some c → b ≠ .acquireCancel c) (h : e.tick b = some e') :
    Apart j e e' := by
  have hcall := (tick_ties h j).1
  by_cases hgone : ∃ m, b = .gone m
  · obtain ⟨m, rfl⟩ := hgone
    obtain ⟨g, hturn, rfl⟩ := Option.map_eq_some_iff.mp h
    refine ⟨hcall, ?_, .inl rfl⟩
    by_cases hm : j = m
    · subst hm
      right
      simpa [setLink] using hturn
    · left
      simp [setLink, hm]
  · have hstill : (e'.links j).gone = (e.links j).gone :=
      tick_links (fun _ _ hl => hl.gone) (.inl fun m hm => hgone ⟨m, hm⟩) h j trivial
    refine ⟨hcall, .inl hstill, ?_⟩
    cases hb : queueTick b with
    | false => exact .inl (tick_slots hb h).queue
    | true =>
        cases b with
        | acquireStart c =>
            obtain ⟨x, hx, rfl⟩ := Option.map_eq_some_iff.mp h
            exact .inr ⟨.start c, fun _ _ => ⟨by rintro ⟨⟩, by rintro ⟨⟩⟩, hx⟩
        | acquireResume c =>
            obtain ⟨x, hx, rfl⟩ := Option.map_eq_some_iff.mp h
            exact .inr ⟨.resume c, fun _ _ => ⟨by rintro ⟨⟩, by rintro ⟨⟩⟩, hx⟩
        | acquireCancel c =>
            obtain ⟨x, hx, rfl⟩ := Option.map_eq_some_iff.mp h
            refine .inr ⟨.cancel c, fun d hd => ⟨?_, by rintro ⟨⟩⟩, hx⟩
            rintro ⟨⟩
            exact hcancel c hd rfl
        | _ => cases hb

end Session

open Session

-- Every other turn of a run leaves a waiting session what its wait takes for granted.
theorem others_apart {maxConcurrent : Int} {queue : SessionQueue} {pool : DataPortPool} {clients : Clients} {c c' : FtpConfig}
    {a : FtpAct} {j : Nat} (hq : SessionQueue.init maxConcurrent = some queue)
    (hrun : (ftpProxy clients).Runs (fun _ _ _ => True) (startup queue pool) c)
    (hstep : (ftpProxy clients).step c a = some c') (hother : System.actor a ≠ some j)
    (hcancel : ∀ call, (c.env.links j).call = some call → a ≠ .tick (.acquireCancel call)) :
    Relation.ReflTransGen (Proxy.Apart j) c.env c'.env := by
  obtain ⟨h, _⟩ := Protocol.Holds.run (slot_verified clients maxConcurrent)
    (fun _ a _ _ => ⟨by cases a <;> first | trivial | exact fun _ _ _ _ => trivial, trivial⟩) hrun
    (startup_slots hq) trivial
  refine h.upholds (X := fun e => Relation.ReflTransGen (Proxy.Apart j) c.env e) (slot_verified clients maxConcurrent) hstep
    ?_ trivial ?_ ?_ ?_ ?_ .refl
  · cases a <;> first | trivial | exact fun _ _ _ _ => trivial
  · intro k s e' _ hspawn hx
    cases hspawn
    exact hx
  · intro k i s e r e' hactor hk hg hx hsync
    exact hx.tail (sync_apart hk hg (fun he => hother (he ▸ hactor)) hsync)
  · rintro k l i s r e' rfl hg _ hx hresume
    exact hx.tail (resume_apart (fun he => hother (he ▸ rfl)) hresume)
  · rintro b e' rfl hx htick
    exact hx.tail (tick_apart (fun call hcall he => hcancel call hcall (he ▸ rfl)) htick)

end PandaProxy.FtpProxy
