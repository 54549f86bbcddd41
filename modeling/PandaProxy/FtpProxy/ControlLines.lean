import PandaProxy.FtpProxy.LineBytes
import PandaProxy.FtpProxy.PrinterAccess
import PandaProxy.FtpProxy.ReplyPairing

namespace PandaProxy.FtpProxy

open Async FtpQueue Python Wire

def latestLine : List Event → Option (List UInt8)
  | [] => none
  | .received raw :: _ => some raw
  | _ :: log => latestLine log

def answering : List Event → Bool
  | [] => false
  | .received _ :: _ => false
  | .opened :: _ => false
  | .asked (.forward _ _ _) _ :: _ => true
  | .asked (.issue _ _) _ :: _ => false
  | _ :: log => answering log

def unheard : List Event → Option String
  | .answered (some text) :: log => if answering log then some text else none
  | _ => none

namespace Session

open Proxy

structure LinesAllowed (i : Op) (log : List Event) : Prop where
  forwards : ∀ command argument line, i = .writeUpstream (.forward command argument line) →
    ∃ raw, latestLine log = some raw ∧ line = decodeLine raw
  relays : ∀ text, unheard log = some text → i = .writeClient text

structure Lines (log : List Event) : Prop where
  asked : ∀ command argument line view earlier, (.asked (.forward command argument line) view :: earlier) <:+ log →
    ∃ raw, latestLine earlier = some raw ∧ line = decodeLine raw
  told : ∀ v earlier text, (v :: earlier) <:+ log → unheard earlier = some text → v = .told text

theorem Lines.nil : Lines [] where
  asked _ _ _ _ _ hs := absurd (List.suffix_nil.mp hs) (by simp)
  told _ _ _ hs := absurd (List.suffix_nil.mp hs) (by simp)

theorem Lines.cons {log : List Event} {v : Event} {i : Op} (h : Lines log) (hi : LinesAllowed i log)
    (hv : emits i v) : Lines (v :: log) where
  asked command argument line view earlier hs := by
    rcases List.suffix_cons_iff.mp hs with heq | hs
    · cases heq
      exact hi.forwards command argument line (emits_asked hv)
    · exact h.asked command argument line view earlier hs
  told w earlier text hs htext := by
    rcases List.suffix_cons_iff.mp hs with heq | hs
    · cases heq
      cases hi.relays text htext
      exact hv
    · exact h.told w earlier text hs htext

abbrev Heard (_ : ControlSession) (log : List Event) : Prop := unheard log = none

structure Attends (raw : List UInt8) (log : List Event) : Prop where
  line : latestLine log = some raw
  waiting : answering log = false
  heard : unheard log = none

abbrev Hears (raw : List UInt8) (_ : ControlSession) (log : List Event) : Prop := Attends raw log

theorem LinesAllowed.of_heard {i : Op} {log : List Event} (h : unheard log = none)
    (hi : ∀ command argument line, i ≠ .writeUpstream (.forward command argument line)) : LinesAllowed i log where
  forwards command argument line he := absurd he (hi command argument line)
  relays text htext := by
    rw [h] at htext
    cases htext

theorem Attends.cons {raw : List UInt8} {log : List Event} {i : Op} {v : Event} (h : Attends raw log)
    (hi : unread i = true) (hforward : ∀ command argument line, i ≠ .writeUpstream (.forward command argument line))
    (hv : emits i v) : Attends raw (v :: log) := by
  cases v with
  | received raw' => cases i <;> simp [emits, unread] at hi hv
  | asked request view =>
      cases request with
      | forward command argument line => exact absurd (emits_asked hv) (hforward command argument line)
      | issue command argument => exact ⟨h.line, rfl, rfl⟩
  | answered reply =>
      refine ⟨h.line, h.waiting, ?_⟩
      cases reply with
      | none => rfl
      | some text => exact if_neg (by simp [h.waiting])
  | opened => exact ⟨h.line, rfl, rfl⟩
  | told _ | closed | examined _ => exact ⟨h.line, h.waiting, rfl⟩

theorem abides_hears {raw : List UInt8} {i : Op} (hi : unread i = true)
    (hforward : ∀ command argument line, i ≠ .writeUpstream (.forward command argument line)) :
    Abides LinesAllowed (Hears raw) i where
  stays _ _ _ hv h := Attends.cons h hi hforward hv
  covers _ _ h := .of_heard h.heard hforward

theorem abides_heard {i : Op} (hforward : ∀ command argument line, i ≠ .writeUpstream (.forward command argument line))
    (hreply : ∀ reply, ¬ emits i (.answered reply)) : Abides LinesAllowed Heard i where
  stays v _ log hv h := by
    cases v with
    | answered reply => exact absurd hv (hreply reply)
    | _ => rfl
  covers _ _ h := .of_heard h hforward

abbrev linesLab (_ : Label) : ControlSession → List Event → Prop := Heard

abbrev linesWp (j : Nat) (l : Label) {α : Type} (c : Session α) (Q : Except Exc α → ControlSession → Proxy → Prop)
    (s : ControlSession) (e : Proxy) : Prop :=
  transcriptWp Lines LinesAllowed linesLab j l c Q s e

abbrev AllHeard (j : Nat) {α : Type} (_ : Except Exc α) (_ : ControlSession) (e : Proxy) : Prop :=
  unheard (e.log j) = none

section

variable {j : Nat} {l : Label} {s : ControlSession} {e : Proxy} {raw : List UInt8}

abbrev Attentive (j : Nat) (l : Label) (raw : List UInt8) {α : Type} (c : Session α) : Prop :=
  Narrates Lines LinesAllowed linesLab j l (Hears raw) (Hears raw) c

abbrev Attending (j : Nat) (l : Label) {α : Type} (c : Session α) : Prop :=
  Narrates Lines LinesAllowed linesLab j l Heard Heard c

abbrev Unchanged (I : ControlSession → List Event → Prop) (f : ControlSession → ControlSession) : Prop :=
  ∀ s log, I s log → I (f s) log

theorem hears_talks : Talks (Abides LinesAllowed (Hears raw)) (Unchanged (Hears raw)) := by
  constructor
  case toRefuses =>
    constructor
    case toAsks =>
      constructor
      all_goals
        intros
        first
        | exact abides_hears rfl nofun
        | exact fun _ _ h => h
    all_goals
      intros
      exact abides_hears rfl nofun
  all_goals
    intros
    first
    | exact abides_hears rfl nofun
    | exact fun _ _ h => h

theorem hears_relays : Relays (Abides LinesAllowed (Hears raw)) (Unchanged (Hears raw)) := by
  constructor
  all_goals
    intros
    first
    | exact abides_hears rfl nofun
    | exact fun _ _ h => h

theorem hears_closes : Closes (Abides LinesAllowed (Hears raw)) (Unchanged (Hears raw)) :=
  ⟨abides_hears rfl nofun, abides_hears rfl nofun, abides_hears rfl nofun, abides_hears rfl nofun, fun _ _ h => h⟩

theorem hears_hands : Hands (Abides LinesAllowed (Hears raw)) :=
  ⟨fun _ => abides_hears rfl nofun, fun _ => abides_hears rfl nofun, fun _ _ _ => abides_hears rfl nofun⟩

theorem hears_queues : Queues (Abides LinesAllowed (Hears raw)) := by
  constructor
  all_goals
    intros
    exact abides_hears rfl nofun

theorem heard_relays : Relays (Abides LinesAllowed Heard) (Unchanged Heard) := by
  constructor
  all_goals
    intros
    first
    | exact abides_heard nofun nofun
    | exact fun _ _ h => h

theorem heard_closes : Closes (Abides LinesAllowed Heard) (Unchanged Heard) :=
  ⟨abides_heard nofun nofun, abides_heard nofun nofun, abides_heard nofun nofun, abides_heard nofun nofun, fun _ _ h => h⟩

theorem heard_releaseUpstream : Attending j l releaseUpstream :=
  narrates_robust.releaseUpstream heard_closes fun _ _ h => h

theorem heard_cancelDataRelay : Attending j l cancelDataRelay :=
  narrates_robust.toComposes.cancelDataRelay heard_relays

theorem heard_close : Attending j l close := by
  have hc := @narrates_robust Lines LinesAllowed linesLab j l Heard
  refine hc.bind heard_releaseUpstream fun _ => hc.bind heard_cancelDataRelay fun _ => ?_
  exact hc.closeClientWriter (abides_heard nofun nofun) (abides_heard nofun nofun) (abides_heard nofun nofun)

theorem heard_of {α : Type} {c : Session α} (hc : Attending j l c) (h : unheard (e.log j) = none) :
    linesWp j l c (AllHeard j) s e :=
  wp_mono _ (fun r _ _ h => by cases r <;> exact h) s e (hc s e h)

theorem heard_attentive {α : Type} {c : Session α} (hc : Attentive j l raw c) (h : Attends raw (e.log j)) :
    linesWp j l c (AllHeard j) s e :=
  wp_mono _ (fun r _ _ h => by cases r <;> exact h.heard) s e (hc s e h)

theorem heard_send {text : String} (h : ∀ t, unheard (e.log j) = some t → t = text) :
    linesWp j l (send text) (AllHeard j) s e := by
  have hallowed : LinesAllowed (.writeClient text) (e.log j) := ⟨nofun, fun t ht => by rw [h t ht]⟩
  refine wp_bind _ _ s e (transcriptWp_writeClient hallowed fun e₁ h₁ => ?_)
  have htold : unheard (e₁.log j) = none := by rw [h₁]; rfl
  refine transcriptWp_silent (i := .drainClient) (.of_heard htold nofun) (fun _ hv => hv) fun r e₂ h₂ => ?_
  rw [AllHeard, h₂]
  exact htold

theorem heard_sendOwn {text : String} (h : unheard (e.log j) = none) : linesWp j l (send text) (AllHeard j) s e :=
  heard_send fun t ht => by rw [h] at ht; cases ht

abbrev Reads (j : Nat) (r : Except Exc (Option String)) (_ : ControlSession) (e : Proxy) : Prop :=
  ∀ text, unheard (e.log j) = some text → r = .ok (some text)

theorem reads_answered {reply : Option String} {log : List Event} (h : e.log j = .answered reply :: log) :
    ∀ text, unheard (e.log j) = some text → (.ok reply : Except Exc (Option String)) = .ok (some text) := by
  intro text htext
  rw [h] at htext
  cases reply with
  | none => cases htext
  | some reply =>
      simp only [unheard] at htext
      split at htext
      · cases htext
        rfl
      · cases htext

theorem reads_heard {r : Except Exc (Option String)} (h : unheard (e.log j) = none) :
    ∀ text, unheard (e.log j) = some text → r = .ok (some text) := by
  intro text htext
  rw [h] at htext
  cases htext

theorem heard_of_reads {r : Except Exc (Option String)} (h : Reads j r s e) (hr : ∀ text, r ≠ .ok (some text)) :
    unheard (e.log j) = none := by
  cases htext : unheard (e.log j) with
  | none => rfl
  | some text => exact absurd (h text htext) (hr text)

theorem reads_sendUpstream {command argument : String} (h : Attends raw (e.log j)) :
    linesWp j l (sendUpstream (.forward command argument (decodeLine raw))) (Reads j) s e := by
  refine wp_bind _ _ s e (wp_get.mpr ?_)
  cases hup : s.upstream with
  | false =>
      simp only [hup, Bool.false_eq_true, if_false]
      exact reads_heard h.heard
  | true =>
      simp only [hup, if_true]
      refine wp_bind _ _ s e (transcriptWp_silent (i := .monotonic) (.of_heard h.heard nofun) (fun _ hv => hv) fun r e₁ h₁ => ?_)
      cases r with
      | error x => exact reads_heard (h₁ ▸ h.heard)
      | ok now =>
          refine wp_bind _ _ s e₁ ((wp_modify _).mpr ?_)
          have hallowed : LinesAllowed (.writeUpstream (.forward command argument (decodeLine raw))) (e₁.log j) := by
            rw [h₁]
            refine ⟨fun _ _ _ he => ?_, fun text htext => ?_⟩
            · cases he
              exact ⟨raw, h.line, rfl⟩
            · rw [h.heard] at htext
              cases htext
          refine wp_bind _ _ _ e₁ (transcriptWp_writeUpstream hallowed fun view e₂ h₂ => ?_)
          have hasked : unheard (e₂.log j) = none := by rw [h₂]; rfl
          refine wp_bind _ _ _ e₂ (transcriptWp_silent (i := .drainUpstream) (.of_heard hasked nofun) (fun _ hv => hv) fun r e₃ h₃ => ?_)
          cases r with
          | error x => exact reads_heard (h₃ ▸ hasked)
          | ok _ =>
              refine wp_bind _ _ _ e₃ (wp_get.mpr ?_)
              simp only [hup, if_true]
              exact transcriptWp_readReply (.of_heard (h₃ ▸ hasked) nofun) (fun _ _ h₄ => reads_answered h₄)
                fun x e₄ h₄ => reads_heard (h₄ ▸ h₃ ▸ hasked)

theorem reads_awaitCompletion (h : unheard (e.log j) = none) : linesWp j l awaitCompletion (Reads j) s e := by
  refine wp_bind _ _ s e (transcriptWp_silent (i := .createReply _) (.of_heard h nofun) (fun _ hv => hv) fun r e₁ h₁ => ?_)
  have hheard₁ : unheard (e₁.log j) = none := h₁ ▸ h
  cases r with
  | error x => exact reads_heard hheard₁
  | ok _ =>
      refine wp_bind _ _ s e₁ (wp_get.mpr (wp_bind _ _ s e₁ (transcriptWp_silent (i := .waitReply _)
        (.of_heard hheard₁ nofun) (fun _ hv => hv) fun r e₂ h₂ => ?_)))
      have hheard₂ : unheard (e₂.log j) = none := h₂ ▸ hheard₁
      cases r with
      | error x => exact reads_heard hheard₂
      | ok replied =>
          cases replied with
          | true =>
              exact transcriptWp_replyResult (.of_heard hheard₂ nofun) (fun _ _ h₃ => reads_answered h₃) fun x e₃ h₃ =>
                reads_heard (h₃ ▸ hheard₂)
          | false =>
              refine wp_bind _ _ s e₂ (transcriptWp_silent (i := .moved) (.of_heard hheard₂ nofun) (fun _ hv => hv) fun r e₃ h₃ => ?_)
              have hheard₃ : unheard (e₃.log j) = none := h₃ ▸ hheard₂
              cases r with
              | error x => exact reads_heard hheard₃
              | ok moved =>
                  refine wp_tryCatch _ _ (transcriptWp_awaitReply (.of_heard hheard₃ nofun) (fun _ _ h₄ => reads_answered h₄)
                    fun x e₄ h₄ => ?_)
                  have hheard₄ : unheard (e₄.log j) = none := h₄ ▸ hheard₃
                  have hgiveUp : Attending j l (do
                      ask .cancelReply
                      Coro.suppress (fun x => x == .cancelled) (ask .awaitReplyCancelled)
                      pure (none : Option String)) := by
                    have hc := @narrates_robust Lines LinesAllowed linesLab j l Heard
                    refine hc.bind (hc.ask (abides_heard nofun nofun)) fun _ => ?_
                    exact hc.bind (hc.suppress (hc.attempt (abides_heard nofun nofun))) fun _ => hc.pure none
                  cases x with
                  | timeout => exact wp_mono _ (fun _ _ _ h => reads_heard h) s e₄ (heard_of hgiveUp hheard₄)
                  | _ => exact reads_heard hheard₄

theorem heard_finishTransfer (h : unheard (e.log j) = none) : linesWp j l finishTransfer (AllHeard j) s e := by
  refine wp_bind _ _ s e (wp_mono _ ?_ s e (reads_awaitCompletion h))
  intro r s₁ e₁ h₁
  cases r with
  | error x => exact heard_of_reads h₁ nofun
  | ok final =>
      cases final with
      | none =>
          refine wp_bind _ _ s₁ e₁ (wp_mono _ ?_ s₁ e₁ (heard_sendOwn (heard_of_reads h₁ nofun)))
          intro r s₂ e₂ h₂
          cases r with
          | error x => exact h₂
          | ok _ => exact heard_of heard_releaseUpstream h₂
      | some final => exact heard_send fun text htext => by cases h₁ text htext; rfl

theorem heard_answerClient {command argument : String} {reply : Option String} (h : Reads j (.ok reply) s e) :
    linesWp j l (answerClient command argument reply) (AllHeard j) s e := by
  cases reply with
  | none =>
      have hc := @narrates_robust Lines LinesAllowed linesLab j l Heard
      have hsend : Attending j l (send "421 Lost connection to printer\r\n") :=
        hc.bind (hc.ask (abides_heard nofun nofun)) fun _ => hc.ask (abides_heard nofun nofun)
      refine heard_of (hc.bind heard_cancelDataRelay fun _ => hc.bind hsend fun _ => heard_releaseUpstream) ?_
      exact heard_of_reads h nofun
  | some reply =>
      refine wp_bind _ _ s e ((wp_modify _).mpr ?_)
      refine wp_bind _ _ _ e (wp_mono _ ?_ _ e (heard_send fun text htext => by cases h text htext; rfl))
      intro r s₁ e₁ h₁
      cases r with
      | error x => exact h₁
      | ok _ =>
          dsimp only
          split
          · exact heard_finishTransfer h₁
          · exact h₁

theorem heard_forward {command argument : String} (h : Attends raw (e.log j)) :
    linesWp j l (forward command argument (decodeLine raw)) (AllHeard j) s e := by
  refine wp_bind _ _ s e (wp_mono _ ?_ s e (reads_sendUpstream h))
  intro r s₁ e₁ h₁
  cases r with
  | error x => exact heard_of_reads h₁ nofun
  | ok reply => exact heard_answerClient h₁

theorem attentive_releaseUpstream : Attentive j l raw releaseUpstream :=
  narrates_robust.releaseUpstream hears_closes fun _ _ h => h

theorem attentive_cancelDataRelay : Attentive j l raw cancelDataRelay :=
  narrates_robust.toComposes.cancelDataRelay hears_relays

theorem attentive_ensureUpstream (priority : Int) : Attentive j l raw (ensureUpstream priority) := by
  have hc := @narrates_robust Lines LinesAllowed linesLab j l (Hears raw)
  refine hc.ensureUpstream hears_queues hears_talks.toAsks (abides_hears rfl nofun) (fun _ _ h => h) (fun _ _ h => h)
    attentive_releaseUpstream ?_ priority
  exact hc.replayState hears_talks.toAsks (fun _ _ _ => abides_hears rfl nofun) fun _ _ _ h => h

theorem heard_connectAndForward {command argument : String} (h : Attends raw (e.log j)) :
    linesWp j l (connectAndForward command argument (decodeLine raw)) (AllHeard j) s e := by
  have hc := @narrates_robust Lines LinesAllowed linesLab j l (Hears raw)
  refine wp_bind _ _ s e (wp_mono _ ?_ s e (attentive_ensureUpstream _ s e h))
  intro r s₁ e₁ h₁
  cases r with
  | error x => exact h₁.heard
  | ok connected =>
      cases connected with
      | false => exact heard_attentive (hc.bind attentive_cancelDataRelay fun _ => hc.send hears_talks _) h₁
      | true =>
          show linesWp j l (if command ∈ transferCommands then _ else _) _ s₁ e₁
          split
          · refine wp_bind _ _ s₁ e₁ (wp_mono _ ?_ s₁ e₁ (hc.prepareUpstreamData hears_talks.toRefuses
              attentive_cancelDataRelay attentive_releaseUpstream hears_hands s₁ e₁ h₁))
            intro r s₂ e₂ h₂
            cases r with
            | error x => exact h₂.heard
            | ok prepared =>
                cases prepared with
                | false => exact h₂.heard
                | true => exact heard_forward h₂
          · exact heard_forward h₁

theorem heard_handleUpstream {command argument : String} (h : Attends raw (e.log j)) :
    linesWp j l (handleUpstream command argument (decodeLine raw)) (AllHeard j) s e := by
  have hc := @narrates_robust Lines LinesAllowed linesLab j l (Hears raw)
  have hask : ∀ {i : Op}, Abides LinesAllowed (Hears raw) i → Attentive j l raw (ask i) := fun hi => hc.ask hi
  refine wp_bind _ _ s e (wp_get.mpr ?_)
  dsimp only
  split
  · exact heard_attentive (hc.send hears_talks _) h
  split
  · cases s.data with
    | none => exact heard_attentive (hc.send hears_talks _) h
    | some d =>
        refine wp_bind _ _ s e (wp_mono _ ?_ s e (hask (hears_talks.endpointDone d.relay) s e h))
        intro r s₁ e₁ h₁
        cases r with
        | error x => exact h₁.heard
        | ok done =>
            show linesWp j l (if _ then _ else _) _ s₁ e₁
            split
            · exact heard_attentive (hc.send hears_talks _) h₁
            · refine wp_bind _ _ s₁ e₁ (wp_mono _ ?_ s₁ e₁ (hask (hears_hands.setCommandSeen d.relay) s₁ e₁ h₁))
              intro r s₂ e₂ h₂
              cases r with
              | error x => exact h₂.heard
              | ok _ => exact heard_connectAndForward h₂
  · exact heard_connectAndForward h

theorem heard_serve (h : Attends raw (e.log j)) : linesWp j l (serve (decodeLine raw)) (AllHeard j) s e := by
  have hc := @narrates_robust Lines LinesAllowed linesLab j l (Hears raw)
  refine wp_bind _ _ s e (wp_get.mpr ?_)
  dsimp only
  split
  · exact heard_attentive (hc.bind (hc.send hears_talks _) fun _ => hc.pure _) h
  split
  · exact heard_attentive (hc.bind (hc.send hears_talks _) fun _ => hc.pure _) h
  split
  · exact heard_attentive (hc.bind (hc.send hears_talks _) fun _ => hc.pure _) h
  split
  · exact heard_attentive (hc.bind (hc.handlePassiveRequest hears_talks (hc.openPassiveRelay hears_relays) _ _)
      fun _ => hc.pure _) h
  · have hlocal : Attentive j l raw (handleLocal (parseLine (decodeLine raw)).1 (parseLine (decodeLine raw)).2) :=
      hc.handleLocal hears_talks fun _ => ⟨fun _ _ h => h, fun _ _ h => h⟩
    refine wp_bind _ _ s e (wp_mono _ ?_ s e (hlocal s e h))
    intro r s₁ e₁ h₁
    cases r with
    | error x => exact h₁.heard
    | ok handled =>
        cases handled with
        | true => exact h₁.heard
        | false =>
            refine wp_bind _ _ s₁ e₁ (wp_mono _ ?_ s₁ e₁ (heard_handleUpstream h₁))
            intro r s₂ e₂ h₂
            cases r <;> exact h₂

theorem heard_readAndServe (h : unheard (e.log j) = none) : linesWp j l readAndServe (AllHeard j) s e := by
  have hc := @narrates_robust Lines LinesAllowed linesLab j l Heard
  have htimeout : Attending j l readTimeout := hc.readTimeout (abides_heard nofun nofun)
  have hidle : Attending j l idle := hc.idle (abides_heard nofun nofun) heard_releaseUpstream
  refine wp_bind _ _ s e (wp_mono _ ?_ s e (htimeout s e h))
  intro r s₁ e₁ h₁
  cases r with
  | error x => exact h₁
  | ok timeout =>
      refine wp_bind _ _ s₁ e₁ (wp_attempt _ s₁ e₁ (transcriptWp_readline (.of_heard h₁ nofun) (fun raw e₂ h₂ => ?_)
        fun x e₂ h₂ => ?_))
      · have hattends : Attends raw (e₂.log j) := by
          rw [h₂]
          exact ⟨rfl, rfl, rfl⟩
        dsimp only
        split
        · exact hattends.heard
        · exact heard_serve hattends
      · have hheard : unheard (e₂.log j) = none := h₂ ▸ h₁
        cases x with
        | timeout => exact heard_of hidle hheard
        | _ => exact hheard

theorem heard_body {clients : Clients} (h : unheard (e.log j) = none) : linesWp j l (body l)
    ((transcript Lines LinesAllowed linesLab).post (ftpProxy clients) j l) s e := by
  have hc := @narrates_robust Lines LinesAllowed linesLab j l Heard
  have hask : ∀ {i : Op}, (∀ command argument line, i ≠ .writeUpstream (.forward command argument line)) →
      (∀ reply, ¬ emits i (.answered reply)) → Attending j l (ask i) := fun hi hreply => hc.ask (abides_heard hi hreply)
  have hpost : ∀ r s e, unheard (e.log j) = none →
      (transcript Lines LinesAllowed linesLab).post (ftpProxy clients) j l r s e := by
    intro r s e h
    unfold Protocol.post
    split <;> exact h
  cases l with
  | start =>
      refine wp_mono _ hpost s e (heard_of (hc.bind (hc.bind (hc.bind ?_ fun _ => ?_) fun _ => hc.pure _) fun _ => hc.pure _) h)
      · exact hask nofun nofun
      · exact hask nofun nofun
  | running =>
      exact wp_mono _ hpost s e (heard_of (hc.bind (hc.bind (hask nofun nofun) fun _ => hc.pure _) fun _ => hc.pure _) h)
  | reading =>
      refine wp_bind _ _ s e (wp_mono _ ?_ s e (heard_readAndServe h))
      intro r s e h
      cases r <;> exact hpost _ _ _ h
  | closing => exact wp_mono _ hpost s e (heard_of (hc.bind heard_close fun _ => hc.pure none) h)

theorem lines_verified (clients : Clients) :
    (transcript Lines LinesAllowed linesLab).Verified (ftpProxy clients) :=
  transcript_verified (fun _ _ _ hgood hi hv => hgood.cons hi hv) (fun _ _ _ _ h => heard_body h) fun _ _ => rfl

end

end Session

-- What `_send` writes.
def clientBytes (line : String) : List UInt8 := Utf8.encode line

theorem clientBytes_iff {reply : List UInt8} {text : String} (h : CompleteReply reply) (rest : List UInt8)
    (hread : (readUpstreamReply (reply ++ rest)).1 = some text) :
    clientBytes text = reply ↔ ∃ text, reply = Utf8.encode text := by
  rw [readUpstreamReply_complete h, Option.some.injEq] at hread
  rw [clientBytes, ← hread]
  exact Utf8.encode_decode_iff

theorem lines_hold {clients : Clients} {q : SessionQueue} {pool : DataPortPool} {c : FtpConfig}
    (hrun : (ftpProxy clients).Runs (fun _ _ _ => True) (startup q pool) c) (j : Nat) :
    Session.Lines (c.env.log j) ∧ unheard (c.env.log j) = none := by
  have hholds := Session.transcript_holds .nil (Session.lines_verified clients) hrun
  refine ⟨hholds.inv j, ?_⟩
  have hproc := hholds.procs j
  cases hc : c.procs j with
  | idle =>
      rw [hc] at hproc
      rw [show c.env.log j = [] from hproc]
      rfl
  | ready l s =>
      rw [hc] at hproc
      exact hproc
  | halted s =>
      rw [hc] at hproc
      exact hproc
  | waiting l i k s =>
      -- No session waits in the middle of telling its client something.
      rw [hc] at hproc
      obtain ⟨⟨e₀, hsync⟩, hallowed, _⟩ := hproc
      cases htext : unheard (c.env.log j) with
      | none => rfl
      | some text =>
          cases hallowed.relays text htext
          cases hsync

def repliesSince : List Event → List String
  | [] => []
  | .received _ :: _ => []
  | .answered (some text) :: log => text :: repliesSince log
  | _ :: log => repliesSince log

theorem latest_replied {log : List Event} {o : Owed} {text : String} (h : (talk log).latest = some (o, text)) :
    text ∈ repliesSince log := by
  induction log generalizing o text with
  | nil => cases h
  | cons v log ih =>
      cases v with
      | received raw => cases h
      | answered reply =>
          cases reply with
          | none => exact ih h
          | some reply =>
              simp only [talk, Talk.step, Talk.answered] at h
              split at h
              · cases h
                exact List.mem_cons_self
              · exact List.mem_cons_of_mem _ (ih h)
      | _ => exact ih h

theorem tells_own {t : Talk} {line : String} (h : t.tells line) : OwnLine line ∨ ∃ o, t.latest = some (o, line) := by
  have hrelays : ∀ command, t.relays command line = true → ∃ o, t.latest = some (o, line) := by
    intro command hrelays
    cases hlatest : t.latest with
    | none => simp [Talk.relays, hlatest] at hrelays
    | some latest =>
        simp only [Talk.relays, hlatest, Option.any_some, Bool.and_eq_true, beq_iff_eq] at hrelays
        exact ⟨latest.1, by rw [← hrelays.2]⟩
  unfold Talk.tells at h
  split at h
  · exact .inl h
  · exact h.elim
  · exact h.imp_right (hrelays _)
  · exact .inl h.1
  · exact h.imp_right fun h => hrelays _ h.1

-- What the control connections pass on: the lines a session forwards, and the replies it relays.
structure ControlLines (log : List Event) : Prop where
  forwarded : ∀ command argument line view earlier, (.asked (.forward command argument line) view :: earlier) <:+ log →
    ∃ raw, latestLine earlier = some raw ∧ (10 ∉ raw.dropLast →
      (Faithful (.forward command argument line) raw ↔ PlainLine (lineBody raw)))
  distinct : ∀ command argument line view earlier, (.asked (.forward command argument line) view :: earlier) <:+ log →
    ∀ command' argument' line' view' earlier', (.asked (.forward command' argument' line') view' :: earlier') <:+ log →
    ∀ raw raw', latestLine earlier = some raw → latestLine earlier' = some raw' → 10 ∉ raw.dropLast → 10 ∉ raw'.dropLast →
      PlainLine (lineBody raw) → PlainLine (lineBody raw') → lineBody raw ≠ lineBody raw' →
      (Request.forward command argument line).bytes ≠ (Request.forward command' argument' line').bytes
  relayed : ∀ v earlier text, (v :: earlier) <:+ log → unheard earlier = some text → v = .told text ∧
    ∀ reply rest, CompleteReply reply → (readUpstreamReply (reply ++ rest)).1 = some text →
      (clientBytes text = reply ↔ ∃ text, reply = Utf8.encode text)
  heard : unheard log = none
  own : ∀ line earlier, (.told line :: earlier) <:+ log → OwnLine line ∨ line ∈ repliesSince earlier

theorem control_lines {clients : Clients} {q : SessionQueue} {pool : DataPortPool} {c : FtpConfig}
    (hrun : (ftpProxy clients).Runs (fun _ _ _ => True) (startup q pool) c) (j : Nat) : ControlLines (c.env.log j) where
  forwarded command argument line view earlier hs := by
    obtain ⟨raw, hraw, rfl⟩ := (lines_hold hrun j).1.asked command argument line view earlier hs
    exact ⟨raw, hraw, faithful_iff⟩
  distinct command argument line view earlier hs command' argument' line' view' earlier' hs' raw raw' hraw hraw' hunbroken
      hunbroken' hplain hplain' hne := by
    obtain ⟨_, hline, rfl⟩ := (lines_hold hrun j).1.asked command argument line view earlier hs
    obtain ⟨_, hline', rfl⟩ := (lines_hold hrun j).1.asked command' argument' line' view' earlier' hs'
    cases hraw.symm.trans hline
    cases hraw'.symm.trans hline'
    exact plain_distinct hunbroken hunbroken' hplain hplain' hne
  relayed v earlier text hs htext :=
    ⟨(lines_hold hrun j).1.told v earlier text hs htext, fun _ rest hreply => clientBytes_iff hreply rest⟩
  heard := (lines_hold hrun j).2
  own line earlier hs := by
    have hpaired := Session.transcript_runs (fun v earlier hs => absurd (List.suffix_nil.mp hs) (by simp))
      (Session.pairing_verified clients) hrun j
    exact (tells_own (hpaired (.told line) earlier hs)).imp_right fun ⟨_, hlatest⟩ => latest_replied hlatest

def forwards : List Event → List (String × Option (List UInt8))
  | [] => []
  | .asked (.forward _ _ line) _ :: log => (line, latestLine log) :: forwards log
  | _ :: log => forwards log

theorem asked_of_forwards {log : List Event} {line : String} {raw : Option (List UInt8)} (h : (line, raw) ∈ forwards log) :
    ∃ command argument view earlier, (.asked (.forward command argument line) view :: earlier) <:+ log ∧
      latestLine earlier = raw := by
  induction log with
  | nil => cases h
  | cons v log ih =>
      have hother : (line, raw) ∈ forwards log → ∃ command argument view earlier,
          (.asked (.forward command argument line) view :: earlier) <:+ v :: log ∧ latestLine earlier = raw := by
        intro hmem
        obtain ⟨command, argument, view, earlier, hs, hraw⟩ := ih hmem
        exact ⟨command, argument, view, earlier, hs.trans (List.suffix_cons v log), hraw⟩
      cases v with
      | asked request view =>
          cases request with
          | forward command argument l =>
              rcases List.mem_cons.mp h with heq | hmem
              · cases heq
                exact ⟨command, argument, view, log, List.suffix_refl _, rfl⟩
              · exact hother hmem
          | issue command argument => exact hother h
      | _ => exact hother h

structure Verbatim (log : List Event) : Prop where
  faithful : ∀ command argument line view earlier, (.asked (.forward command argument line) view :: earlier) <:+ log →
    ∀ raw, latestLine earlier = some raw → 10 ∉ raw.dropLast → Faithful (.forward command argument line) raw
  distinct : ∀ command argument line view earlier, (.asked (.forward command argument line) view :: earlier) <:+ log →
    ∀ command' argument' line' view' earlier', (.asked (.forward command' argument' line') view' :: earlier') <:+ log →
    ∀ raw raw', latestLine earlier = some raw → latestLine earlier' = some raw' → 10 ∉ raw.dropLast → 10 ∉ raw'.dropLast →
      lineBody raw ≠ lineBody raw' →
      (Request.forward command argument line).bytes ≠ (Request.forward command' argument' line').bytes

def deletes (first second : String) : List FtpAct :=
  logsIn 0 ++ sends 0 first ++ reachesPrinter 0 0 ++ answers 0 "250 deleted\r\n" ++ [.run 0] ++ sends 0 second

-- Two names in Latin-1 are one name on the printer.
theorem names_collide : ¬ ∀ c, (ftpProxy lan).Runs (fun _ _ _ => True) (startup oneSlot onePort) c →
    Verbatim (c.env.log 0) := by
  intro h
  have hend : ((ftpProxy lan).runActs (startup oneSlot onePort) (deletes "DELE \u00ff\r\n" "DELE \u00fe\r\n")).map (fun c =>
      forwards (c.env.log 0)) = some [("DELE \ufffd", some [68, 69, 76, 69, 32, 254, 13, 10]),
        ("DELE \ufffd", some [68, 69, 76, 69, 32, 255, 13, 10])] := by
    decide +kernel
  obtain ⟨c, hc, hforwards⟩ := Option.map_eq_some_iff.mp hend
  have hverbatim := h c ((ftpProxy lan).runActs_runs _ hc)
  obtain ⟨command, argument, view, earlier, hs, hraw⟩ := asked_of_forwards (hforwards ▸ List.mem_cons_self)
  obtain ⟨command', argument', view', earlier', hs', hraw'⟩ := asked_of_forwards
    (hforwards ▸ List.mem_cons_of_mem _ List.mem_cons_self)
  exact hverbatim.distinct command argument _ view earlier hs command' argument' _ view' earlier' hs' _ _ hraw hraw'
    (by decide) (by decide) (by decide) rfl

theorem control_lines_deletes : ∃ c, (ftpProxy lan).runActs (startup oneSlot onePort)
    (deletes "DELE x\r\n" "DELE y\r\n") = some c ∧ (forwards (c.env.log 0)).map Prod.fst = ["DELE y", "DELE x"] ∧
      ControlLines (c.env.log 0) := by
  have hend : ((ftpProxy lan).runActs (startup oneSlot onePort) (deletes "DELE x\r\n" "DELE y\r\n")).map (fun c =>
      (forwards (c.env.log 0)).map Prod.fst) = some ["DELE y", "DELE x"] := by
    decide +kernel
  obtain ⟨c, hc, hforwards⟩ := Option.map_eq_some_iff.mp hend
  exact ⟨c, hc, hforwards, control_lines ((ftpProxy lan).runActs_runs _ hc) 0⟩

end PandaProxy.FtpProxy
