import PandaProxy.FtpProxy.Composition
import PandaProxy.FtpProxy.LinkFrames

namespace PandaProxy.FtpProxy

open Async FtpQueue

namespace Proxy

abbrev log (e : Proxy) (j : Nat) : List Event := (e.links j).log

def emits : Op → Event → Prop
  | .writeClient line, v => v = .told line
  | .readline _, v => ∃ raw, v = .received raw
  | .openConnection, v => v = .opened
  | .closeUpstream, v => v = .closed
  | .writeUpstream request, v => ∃ view, v = .asked request view
  | .readReply, v => ∃ reply, v = .answered reply
  | .replyResult, v => ∃ reply, v = .answered reply
  | .awaitReply _, v => ∃ reply, v = .answered reply
  | .taskDone _, v => ∃ phase, v = .examined phase
  | _, _ => False

theorem emits_asked {i : Op} {request : Request} {view : Option Relay}
    (h : emits i (.asked request view)) : i = .writeUpstream request := by
  cases i <;> simp_all [emits]

def SameLogs (e e' : Proxy) : Prop := ∀ k, e'.log k = e.log k

namespace SameLogs

variable {j : Nat} {e e' e'' : Proxy}

theorem of_links (h : SameLinks (fun _ => True) Link.log e e') : SameLogs e e' := fun k => h k trivial

theorem refl (e : Proxy) : SameLogs e e := fun _ => rfl

theorem trans (h : SameLogs e e') (h' : SameLogs e' e'') : SameLogs e e'' :=
  fun k => (h' k).trans (h k)

theorem setLink {f : Link → Link} (hf : ∀ l, (f l).log = l.log) : SameLogs e (e.setLink j f) :=
  .of_links (.setLink fun _ => hf)

theorem queueAct (e : Proxy) (a : QueueAct) : SameLogs e (e.queueAct a) := .of_links (.queueAct e a)

theorem onCall (e : Proxy) (j : Nat) (a : Nat → QueueAct) : SameLogs e (e.onCall j a) := .of_links (.onCall e j a)

theorem giveBack (e : Proxy) (j : Nat) : SameLogs e (e.giveBack j) := .of_links (.giveBack e j)

theorem reserve (e : Proxy) (j : Nat) : SameLogs e (e.reserve j).2 := .of_links (.reserve (fun _ _ _ => rfl) e)

theorem unbind (e : Proxy) (j : Nat) (port : Int) : SameLogs e (e.unbind j port) := .of_links (.unbind e j port)

end SameLogs

structure Logs (j : Nat) (i : Op) (e e' : Proxy) : Prop where
  own : e'.log j = e.log j ∨ ∃ v, emits i v ∧ e'.log j = v :: e.log j
  other : ∀ k, k ≠ j → e'.log k = e.log k

namespace Logs

variable {j : Nat} {i : Op} {e e' e'' : Proxy}

theorem same (h : SameLogs e e') : Logs j i e e' := ⟨.inl (h j), fun k _ => h k⟩

theorem note {v : Event} (h : SameLogs e'' e) (hv : emits i v) : Logs j i e'' (e.note j v) where
  own := .inr ⟨v, hv, by simp [log, Proxy.note, setLink, ← h j]⟩
  other k hk := by simp [log, Proxy.note, setLink, hk, ← h k]

theorem received {r : Except Exc (List UInt8)} (h : SameLogs e'' e)
    (hi : ∀ raw, emits i (.received raw)) : Logs j i e'' (e.received j r) := by
  cases r with
  | ok raw => exact note h (hi raw)
  | error x => exact same h

theorem answered {r : Except Exc (Option String)} (hi : ∀ reply, emits i (.answered reply)) :
    Logs j i e (e.answered j r) := by
  cases r with
  | ok reply => exact note (.refl e) (hi reply)
  | error x => exact same (.refl e)

end Logs

theorem sync_logs {j : Nat} {i : Op} {e e' : Proxy} {r : Except Exc i.Answer}
    (h : sync j i e = some (r, e')) : Logs j i e e' := by
  cases i <;> simp only [sync] at h
  case readline =>
    split at h
    · cases h
    · cases h
      exact .received (.setLink fun _ => rfl) (fun raw => ⟨raw, rfl⟩)
  case createAcquire p =>
    cases h
    refine .same (SameLogs.trans ?_ (.queueAct _ _))
    exact .setLink fun _ => rfl
  case closeUpstream =>
    cases h
    exact .note (.setLink fun _ => rfl) rfl
  case replyResult =>
    split at h
    · cases h
      exact .answered (fun reply => ⟨reply, rfl⟩)
    · cases h
      exact .same (.refl e)
  case awaitReply =>
    obtain ⟨r', _, h⟩ := Option.map_eq_some_iff.mp h
    cases h
    exact .answered (fun reply => ⟨reply, rfl⟩)
  case drainClient =>
    obtain ⟨r', _, h⟩ := Option.map_eq_some_iff.mp h
    cases h
    exact .same (.refl e)
  case drainUpstream =>
    obtain ⟨r', _, h⟩ := Option.map_eq_some_iff.mp h
    cases h
    exact .same (.refl e)
  case awaitReplyCancelled =>
    obtain ⟨r', _, h⟩ := Option.map_eq_some_iff.mp h
    cases h
    exact .same (.refl e)
  all_goals
    repeat' split at h
  all_goals
    cases h <;> first
    | exact .same (.refl e)
    | exact .same (fun _ => rfl)
    | exact .note (.refl e) rfl
    | exact .note (.refl e) ⟨_, rfl⟩
    | exact .same (.onCall e j _)
    | exact .same (.giveBack e j)
    | exact .same (.reserve e j)
    | exact .same (.unbind e j _)
    | exact .same (.setLink fun _ => rfl)

theorem resume_logs {j : Nat} {i : Op} {e e' : Proxy} {r : Except Exc i.Answer}
    (h : resume j i r e = some e') : Logs j i e e' := by
  unfold resume at h
  split at h
  all_goals
    repeat' split at h
  all_goals
    first
    | cases h; exact .same (.refl e)
    | cases h; exact .received (.refl e) (fun raw => ⟨raw, rfl⟩)
    | cases h; exact .note (.refl e) ⟨_, rfl⟩
    | cases h; exact .note (.setLink fun _ => rfl) rfl
    | cases h; exact .same (.setLink fun _ => rfl)
    | (obtain ⟨n, _, rfl⟩ := Option.map_eq_some_iff.mp h; exact .same (fun _ => rfl))
    | cases h

theorem tick_logs {b : Tick} {e e' : Proxy} (h : e.tick b = some e') : SameLogs e e' :=
  .of_links (tick_links (fun _ _ hl => hl.log) (.inr fun _ _ => rfl) h)

end Proxy

namespace Session

open Proxy

-- A protocol about nothing but what each session says, and to whom. What holds when a session begins
-- to close holds of it when it is over.
def transcript (good : List Event → Prop) (permits : Op → List Event → Prop)
    (lab : Label → ControlSession → List Event → Prop) :
    Protocol Nat Label ControlSession Proxy Op Op.Answer Exc Tick where
  inv e := ∀ j, good (e.log j)
  seen _ := True
  rely j e e' := e'.log j = e.log j
  admits _ _ _ := True
  allows _ := True
  guar j i _ e := permits i (e.log j)
  idle j e := e.log j = []
  lab j l s e := lab l s (e.log j)
  fin j s e := lab .closing s (e.log j)

section

variable {good : List Event → Prop} {permits : Op → List Event → Prop}
  {lab : Label → ControlSession → List Event → Prop} {j : Nat} {l : Label} {s : ControlSession} {e : Proxy}

abbrev transcriptWp (good : List Event → Prop) (permits : Op → List Event → Prop)
    (lab : Label → ControlSession → List Event → Prop) (j : Nat) (l : Label) {α : Type} (c : Session α)
    (Q : Except Exc α → ControlSession → Proxy → Prop) (s : ControlSession) (e : Proxy) : Prop :=
  wp (world j) ((transcript good permits lab).contract j l) c Q s e

theorem transcript_star {e₁ : Proxy}
    (h : Relation.ReflTransGen ((transcript good permits lab).contract j l).rely e e₁) :
    e₁.log j = e.log j :=
  stable_star (X := fun e' : Proxy => e'.log j = e.log j) (fun _ _ hX hr => Eq.trans hr hX) h rfl

theorem transcriptWp_silent {i : Op} (hp : permits i (e.log j)) (hi : ∀ v, ¬ emits i v)
    {Q : Except Exc i.Answer → ControlSession → Proxy → Prop}
    (hQ : ∀ r e', e'.log j = e.log j → Q r s e') : transcriptWp good permits lab j l (ask i) Q s e := by
  have hsame : ∀ {e e' : Proxy}, Logs j i e e' → e'.log j = e.log j := by
    intro e e' hl
    rcases hl.own with h | ⟨v, hv, _⟩
    · exact h
    · exact absurd hv (hi v)
  refine wp_perform hp (fun r e' he _ => hQ r e' (hsame (sync_logs he))) ?_
  intro _ e₁ h₁ _ _ r e₂ _ hr _
  exact hQ r e₂ ((hsame (resume_logs hr)).trans (transcript_star h₁))

theorem transcriptWp_writeClient {line : String} {Q : Except Exc Unit → ControlSession → Proxy → Prop}
    (hp : permits (.writeClient line) (e.log j)) (hQ : ∀ e', e'.log j = .told line :: e.log j → Q (.ok ()) s e') :
    transcriptWp good permits lab j l (ask (.writeClient line)) Q s e :=
  wp_sync rfl hp (fun _ => hQ _ (by simp [log, Proxy.note, setLink]))

theorem transcriptWp_writeUpstream {request : Request} {Q : Except Exc Unit → ControlSession → Proxy → Prop}
    (hp : permits (.writeUpstream request) (e.log j))
    (hQ : ∀ view e', e'.log j = .asked request view :: e.log j → Q (.ok ()) s e') :
    transcriptWp good permits lab j l (ask (.writeUpstream request)) Q s e :=
  wp_sync rfl hp (fun _ => hQ (e.view j) _ (by simp [log, Proxy.note, setLink]))

theorem transcriptWp_readReply {Q : Except Exc (Option String) → ControlSession → Proxy → Prop}
    (hp : permits .readReply (e.log j))
    (hQ : ∀ reply e', e'.log j = .answered reply :: e.log j → Q (.ok reply) s e')
    (hx : ∀ x e', e'.log j = e.log j → Q (.error x) s e') :
    transcriptWp good permits lab j l (ask .readReply) Q s e := by
  refine wp_perform hp (fun r e' he _ => by cases he) ?_
  intro _ e₁ h₁ _ _ r e₂ _ hr _
  have hlog := transcript_star h₁
  cases r with
  | ok reply =>
      cases hr
      exact hQ reply _ (by rw [← hlog]; simp [log, Proxy.note, setLink])
  | error x =>
      cases hr
      exact hx x _ hlog

theorem answered_log {r : Except Exc (Option String)} {e e' : Proxy} (h : e'.log j = e.log j) :
    (e'.answered j r).log j = match r with
      | .ok reply => .answered reply :: e.log j
      | .error _ => e.log j := by
  cases r with
  | ok reply => simp [Proxy.answered, log, Proxy.note, setLink, ← h]
  | error x => exact h

theorem transcriptWp_replyResult {Q : Except Exc (Option String) → ControlSession → Proxy → Prop}
    (hp : permits .replyResult (e.log j))
    (hQ : ∀ reply e', e'.log j = .answered reply :: e.log j → Q (.ok reply) s e')
    (hx : ∀ x e', e'.log j = e.log j → Q (.error x) s e') :
    transcriptWp good permits lab j l (ask .replyResult) Q s e := by
  refine wp_perform hp (fun r e' he _ => ?_) (fun _ e₁ _ _ _ r e₂ _ hr _ => by cases hr)
  simp only [sync] at he
  split at he <;> cases he
  · cases r with
    | ok reply => exact hQ reply _ (answered_log rfl)
    | error x => exact hx x _ (answered_log rfl)
  · exact hx _ _ rfl

theorem transcriptWp_awaitReply {grace : ℚ} {Q : Except Exc (Option String) → ControlSession → Proxy → Prop}
    (hp : permits (.awaitReply grace) (e.log j))
    (hQ : ∀ reply e', e'.log j = .answered reply :: e.log j → Q (.ok reply) s e')
    (hx : ∀ x e', e'.log j = e.log j → Q (.error x) s e') :
    transcriptWp good permits lab j l (ask (.awaitReply grace)) Q s e := by
  refine wp_perform hp (fun r e' he _ => ?_) ?_
  · obtain ⟨r', _, hr⟩ := Option.map_eq_some_iff.mp he
    cases hr
    cases r with
    | ok reply => exact hQ reply _ (answered_log rfl)
    | error x => exact hx x _ rfl
  · intro _ e₁ h₁ _ _ r e₂ _ hr _
    have hlog := transcript_star h₁
    cases r with
    | ok reply =>
        simp only [resume] at hr
        split at hr
        · split at hr <;> cases hr
          exact hQ reply _ (by rw [← hlog]; simp [log, Proxy.note, setLink])
        · cases hr
    | error x =>
        simp only [resume] at hr
        split at hr
        · cases hr
          exact hx x _ (by rw [← hlog]; simp [log, setLink])
        · split at hr
          · split at hr <;> cases hr
            exact hx x _ hlog
          · cases hr

theorem transcriptWp_openConnection {Q : Except Exc Unit → ControlSession → Proxy → Prop}
    (hp : permits .openConnection (e.log j)) (hQ : ∀ e', e'.log j = .opened :: e.log j → Q (.ok ()) s e')
    (hx : ∀ x e', e'.log j = e.log j → Q (.error x) s e') :
    transcriptWp good permits lab j l (ask .openConnection) Q s e := by
  refine wp_perform hp (fun r e' he _ => by cases he) ?_
  intro _ e₁ h₁ _ _ r e₂ _ hr _
  have hlog := transcript_star h₁
  cases r with
  | ok reply =>
      cases hr
      exact hQ _ (by rw [← hlog]; simp [log, Proxy.note, setLink])
  | error x =>
      cases hr
      exact hx x _ hlog

theorem received_log {r : Except Exc (List UInt8)} {e e' : Proxy} (h : e'.log j = e.log j) :
    (e'.received j r).log j = match r with
      | .ok raw => .received raw :: e.log j
      | .error _ => e.log j := by
  cases r with
  | ok raw => simp [Proxy.received, log, Proxy.note, setLink, ← h]
  | error x => exact h

theorem transcriptWp_readline {timeout : ℚ} {Q : Except Exc (List UInt8) → ControlSession → Proxy → Prop}
    (hp : permits (.readline timeout) (e.log j))
    (hQ : ∀ raw e', e'.log j = .received raw :: e.log j → Q (.ok raw) s e')
    (hx : ∀ x e', e'.log j = e.log j → Q (.error x) s e') :
    transcriptWp good permits lab j l (ask (.readline timeout)) Q s e := by
  have hboth : ∀ r e', (e'.log j = match r with
      | .ok raw => .received raw :: e.log j
      | .error _ => e.log j) → Q r s e' := by
    intro r e' h
    cases r with
    | ok raw => exact hQ raw e' h
    | error x => exact hx x e' h
  refine wp_perform hp (fun r e' he _ => ?_) ?_
  · simp only [sync] at he
    split at he <;> cases he
    refine hboth _ _ (received_log ?_)
    simp [log, setLink]
  · intro _ e₁ h₁ _ _ r e₂ _ hr _
    cases hr
    exact hboth _ _ (received_log (transcript_star h₁))

structure Abides (permits : Op → List Event → Prop) (I : ControlSession → List Event → Prop) (i : Op) : Prop where
  stays : ∀ v s log, emits i v → I s log → I s (v :: log)
  covers : ∀ s log, I s log → permits i log

theorem Logs.abides {I : ControlSession → List Event → Prop} {i : Op} {e e' : Proxy} (hl : Logs j i e e')
    (hi : Abides permits I i) {s : ControlSession} (h : I s (e.log j)) : I s (e'.log j) := by
  rcases hl.own with hsame | ⟨v, hv, hlog⟩
  · rwa [hsame]
  · rw [hlog]
    exact hi.stays v s _ hv h

abbrev Narrates (good : List Event → Prop) (permits : Op → List Event → Prop)
    (lab : Label → ControlSession → List Event → Prop) (j : Nat) (l : Label)
    (I J : ControlSession → List Event → Prop) {α : Type} (c : Session α) : Prop :=
  Keeps (world j) ((transcript good permits lab).contract j l) (fun s e => I s (e.log j)) (fun s e => J s (e.log j)) c

theorem narrates_ask {I : ControlSession → List Event → Prop} {i : Op} (hi : Abides permits I i) :
    Narrates good permits lab j l I I (ask i) := by
  refine Keeps.perform ?_ ?_ ?_ ?_
  · exact fun s e h => hi.covers s _ h
  · exact fun s e r e' h he _ => Logs.abides (sync_logs he) hi h
  · intro s e e' h hr
    rw [show e'.log j = e.log j from hr]
    exact h
  · exact fun s e r e' h _ _ he _ => Logs.abides (resume_logs he) hi h

theorem narrates_robust {I : ControlSession → List Event → Prop} :
    Robust (Abides permits I) (fun f => ∀ s log, I s log → I (f s) log) (Narrates good permits lab j l I I) where
  pure a := Keeps.pure a
  raise x := Keeps.raise (fun _ _ h => h) x
  get := Keeps.get
  bind hc hf := Keeps.bind hc hf
  modify hf := Keeps.modify (fun s _ h => hf s _ h)
  ask := narrates_ask
  attempt hi := Keeps.attempt (narrates_ask hi)
  attemptAll := Keeps.attempt

end

theorem transcript_verified {good : List Event → Prop} {permits : Op → List Event → Prop}
    {lab : Label → ControlSession → List Event → Prop} {clients : Clients}
    (hgood : ∀ i v log, good log → permits i log → emits i v → good (v :: log))
    (hbody : ∀ j l s e, lab l s (e.log j) →
      transcriptWp good permits lab j l (body l) ((transcript good permits lab).post (ftpProxy clients) j l) s e)
    (hstart : ∀ localIp localIpv4,
      lab .start (.init clients.accessCode clients.printerIp localIp localIpv4) []) :
    (transcript good permits lab).Verified (ftpProxy clients) := by
  have hlogs : ∀ {j i s e e'}, (transcript good permits lab).inv e → (transcript good permits lab).guar j i s e →
      Logs j i e e' → (transcript good permits lab).inv e' := by
    intro j i s e e' hinv hg hl k
    by_cases hk : k = j
    · subst hk
      rcases hl.own with hsame | ⟨v, hv, hlog⟩
      · rw [hsame]
        exact hinv k
      · rw [hlog]
        exact hgood i v _ (hinv k) hg hv
    · rw [hl.other k hk]
      exact hinv k
  exact {
    body := fun j l s e _ h => hbody j l s e h
    inv_sync := fun _ _ _ _ _ _ hi hg h => hlogs hi hg (sync_logs h)
    inv_resume := fun _ _ _ _ _ _ _ hi hg _ h => hlogs hi hg (resume_logs h)
    inv_spawn := fun _ _ _ _ hi _ h => by cases h; exact hi
    inv_tick := fun _ _ _ _ hi _ h k => by rw [tick_logs h k]; exact hi k
    rely_sync := fun _ k _ _ _ _ _ hk _ _ h => (sync_logs h).other k hk
    rely_resume := fun _ k _ _ _ _ _ _ hk _ _ _ h => (resume_logs h).other k hk
    rely_spawn := fun _ _ _ _ _ _ _ _ h => by cases h; rfl
    rely_tick := fun k _ _ _ _ _ _ h => tick_logs h k
    guar_stable := fun j i s e e' _ _ _ h hr => by
      show permits i (e'.log j)
      rw [show e'.log j = e.log j from hr]
      exact h
    lab_stable := fun j l s e e' _ _ h hr => by
      show lab l s (e'.log j)
      rw [show e'.log j = e.log j from hr]
      exact h
    fin_stable := fun j s e e' _ _ h hr => by
      show lab .closing s (e'.log j)
      rw [show e'.log j = e.log j from hr]
      exact h
    idle_stable := fun _ _ _ _ _ h hr => Eq.trans hr h
    spawn_lab := fun j e s e' _ h hs => by
      cases hs
      show lab .start _ (e.log j)
      rw [show e.log j = [] from h]
      exact hstart _ _ }

theorem transcript_holds {good : List Event → Prop} {permits : Op → List Event → Prop}
    {lab : Label → ControlSession → List Event → Prop} {clients : Clients} {q : SessionQueue}
    {pool : DataPortPool} {c : FtpConfig} (hempty : good [])
    (hV : (transcript good permits lab).Verified (ftpProxy clients))
    (hrun : (ftpProxy clients).Runs (fun _ _ _ => True) (startup q pool) c) :
    (transcript good permits lab).Holds (ftpProxy clients) c := by
  have hstart : (transcript good permits lab).Holds (ftpProxy clients) (startup q pool) :=
    ⟨fun _ => hempty, fun _ => rfl⟩
  exact (Protocol.Holds.run hV
    (fun _ a _ _ => ⟨by cases a <;> first | trivial | exact fun _ _ _ _ => trivial, trivial⟩) hrun
    hstart trivial).1

theorem transcript_runs {good : List Event → Prop} {permits : Op → List Event → Prop}
    {lab : Label → ControlSession → List Event → Prop} {clients : Clients} {q : SessionQueue}
    {pool : DataPortPool} {c : FtpConfig} (hempty : good [])
    (hV : (transcript good permits lab).Verified (ftpProxy clients))
    (hrun : (ftpProxy clients).Runs (fun _ _ _ => True) (startup q pool) c) (j : Nat) : good (c.env.log j) :=
  (transcript_holds hempty hV hrun).inv j

end Session

end PandaProxy.FtpProxy
