import PandaProxy.Async.Triple
import PandaProxy.Rtsp.ProcessLife

namespace PandaProxy.Rtsp

open Async RTSPProxy

variable {orderly : Bool} {e e' : RTSPProxy} {j : Task} {k kind : Kind} {p : Nat} {i : Op} {l : Label}

structure Clear (k : Kind) (e : RTSPProxy) : Prop where
  process : e.process k = none
  opening : e.opening k = none
  dead : Dead k e
  unread : Unread k e

structure Tidy (j : Task) (e : RTSPProxy) : Prop where
  opening : ∀ k, e.opening k = none
  secure : Secure j none e

def Begins (e : RTSPProxy) : Label → Task → Prop
  | .entry, .start => e.returned .start = false ∧ ∀ k, Clear k e
  | .entry, .monitor => e.returned .monitor = false ∧ Tidy .monitor e
  | .entry, .stop => e.returned .stop = false
  | .watching, j => j = .monitor ∧ e.returned .monitor = false ∧ Tidy .monitor e
  | .leaving, j => (j = .monitor → e.running = false ∨ e.thrown .monitor = true) ∧ (j ≠ .stop → ∀ k, e.opening k = none) ∧
      (j = .start → e.returned .start = true → Secure .start none e)

def supervision (orderly : Bool) : Protocol Task Label Task RTSPProxy Op Op.Answer Exc Tick where
  inv := Supervised orderly
  seen _ := True
  rely := Rely orderly
  admits _ _ _ := True
  allows _ := True
  guar j i s e := s = j ∧ Active j e ∧ Owes orderly j i e
  idle j e := e.begun j = false ∧ e.ended j = false ∧ e.returned j = false ∧ (j = .start → ∀ k, Clear k e)
  lab j l s e := s = j ∧ Active j e ∧ Begins e l j
  fin j _ e := e.ended j = true

theorem active_same (h : Active j e) (hf : SameFlags j e e') : Active j e' := ⟨hf.begun.trans h.1, hf.ended.trans h.2⟩

theorem Clear.fades (h : Clear k e) (hf : Fades e e') : Clear k e' := by
  refine ⟨?_, ?_, h.dead.fades hf, h.unread.fades hf⟩
  · rcases hf.process k with hsame | hnone
    · exact hsame.trans h.process
    · exact hnone
  · rcases hf.opening k with hsame | hnone
    · exact hsame.trans h.opening
    · exact hnone

theorem Tidy.of_clear (h : ∀ k, Clear k e) : Tidy j e where
  opening k := (h k).opening
  secure _ p hp := by cases ((h _).dead p rfl).symm.trans hp

theorem exclusive_fades (hstop : j ≠ .stop) (hj : Active j e) (hr : Rely orderly j e e') : Fades e e' := by
  cases j with
  | start => exact hr.fades hj.2
  | monitor => exact hr.fades hj
  | stop => exact absurd rfl hstop

theorem Tidy.rely (h : Tidy j e) (hstop : j ≠ .stop) (hj : Active j e) (hr : Rely orderly j e e') : Tidy j e' where
  opening k := (congrFun (hr.opening hstop hj) k).trans (h.opening k)
  secure := hr.secure hstop hj none h.secure

theorem owes_stable (h : Owes orderly j i e) (hwaits : ∃ e₀, sync j i e₀ = none) : Owes orderly j i e' := by
  obtain ⟨e₀, hnone⟩ := hwaits
  cases i with
  | popen | createLogTask =>
      simp only [sync] at hnone
      split at hnone <;> cases hnone
  | setRunning | createConfig | closeTransport | assign | kill | forget | returned | ended => cases hnone
  | connectPipes | reap | running | sleep | process | exited | terminate | wait | dropLogTask | dropLogTasks | enlist | cancelMonitor
    | joinMonitor | removeConfig => trivial

theorem begins_stable (hj : Active j e) (h : Begins e l j) (hr : Rely orderly j e e') : Begins e' l j := by
  cases l with
  | entry =>
      cases j with
      | start => exact ⟨hr.flags.returned.trans h.1, fun k => (h.2 k).fades (hr.fades hj.2)⟩
      | monitor => exact ⟨hr.flags.returned.trans h.1, h.2.rely (by rintro ⟨⟩) hj hr⟩
      | stop => exact hr.flags.returned.trans h
  | watching =>
      obtain ⟨rfl, hreturned, htidy⟩ := h
      exact ⟨rfl, hr.flags.returned.trans hreturned, htidy.rely (by rintro ⟨⟩) hj hr⟩
  | leaving =>
      obtain ⟨hgave, hopening, hsecure⟩ := h
      refine ⟨?_, ?_, ?_⟩
      · rintro rfl
        rcases hgave rfl with hrunning | hthrown
        · left
          cases hr' : e'.running with
          | false => rfl
          | true => cases hrunning.symm.trans ((hr.fades hj).running hr')
        · exact .inr (hr.flags.thrown hthrown)
      · exact fun hstop k => (congrFun (hr.opening hstop hj) k).trans (hopening hstop k)
      · rintro rfl hreturned
        exact hr.secure (by rintro ⟨⟩) hj none (hsecure rfl (hr.flags.returned.symm.trans hreturned))

def Knows (orderly : Bool) (j : Task) (F : RTSPProxy → Prop) (s : Task) (e : RTSPProxy) : Prop :=
  s = j ∧ Supervised orderly e ∧ Active j e ∧ e.returned j = false ∧ F e

abbrev Does (orderly : Bool) (j : Task) (l : Label) {α : Type} (F : RTSPProxy → Prop) (c : Session α) (Y : α → RTSPProxy → Prop)
    (Z : Exc → RTSPProxy → Prop) : Prop :=
  Triple (world j) ((supervision orderly).contract j l) (Knows orderly j F) c (fun a => Knows orderly j (Y a))
    fun x => Knows orderly j (Z x)

theorem Knows.imp {F G : RTSPProxy → Prop} {s : Task} (hk : Knows orderly j F s e)
    (h : Supervised orderly e → Active j e → F e → G e) : Knows orderly j G s e :=
  ⟨hk.1, hk.2.1, hk.2.2.1, hk.2.2.2.1, h hk.2.1 hk.2.2.1 hk.2.2.2.2⟩

-- What holds of the surroundings for as long as the coroutine `j` waits, and what its own waiting leaves of it.
structure Stable (orderly : Bool) (j : Task) (F : RTSPProxy → Prop) : Prop where
  rely : ∀ {e e'}, Active j e → F e → Rely orderly j e e' → F e'
  stays : ∀ {e e'}, F e → Fades e e' → SameTasks e e' → SameHolders e e' → F e'

section Stable

variable {F G : RTSPProxy → Prop}

theorem Stable.always : Stable orderly j fun _ => True := ⟨fun _ _ _ => trivial, fun _ _ _ _ => trivial⟩

theorem Stable.and (hF : Stable orderly j F) (hG : Stable orderly j G) : Stable orderly j fun e => F e ∧ G e where
  rely hj h hr := ⟨hF.rely hj h.1 hr, hG.rely hj h.2 hr⟩
  stays h hf ht hs := ⟨hF.stays h.1 hf ht hs, hG.stays h.2 hf ht hs⟩

theorem Stable.alone (hstop : j ≠ .stop) (hfade : ∀ {e e'}, F e → Fades e e' → F e') : Stable orderly j F where
  rely hj h hr := hfade h (exclusive_fades hstop hj hr)
  stays h hf _ _ := hfade h hf

theorem secure_same {x : Option Nat} (h : Secure j x e) (hf : Fades e e') (ht : SameTasks e e') (hs : SameHolders e e') :
    Secure j x e' :=
  h.fades hf hs.process fun hb => (congrFun ht.begun .stop).trans hb

theorem Stable.tidy (hstop : j ≠ .stop) : Stable orderly j (Tidy j) where
  rely hj h hr := h.rely hstop hj hr
  stays h hf ht hs := ⟨fun k => (congrFun hs.opening k).trans (h.opening k), secure_same h.secure hf ht hs⟩

end Stable

section Calls

variable {F : RTSPProxy → Prop} {Y : i.Answer → RTSPProxy → Prop} {Z : Exc → RTSPProxy → Prop}

theorem does_ask (hclose : closes i = false) (howes : ∀ e, Supervised orderly e → F e → Owes orderly j i e) (hF : Stable orderly j F)
    (hsync : ∀ e r e', F e → sync j i e = some (r, e') → Outcome (fun a (_ : Task) => Y a) (fun x _ => Z x) r j e')
    (hresume : ∀ e r e', F e → resume j i r e = some e' → Outcome (fun a (_ : Task) => Y a) (fun x _ => Z x) r j e') :
    Does orderly j l F (ask i) Y Z := by
  rintro s e ⟨rfl, hinv, hj, hr, hf⟩
  have hpost : ∀ {e' : RTSPProxy} {r : Except Exc i.Answer}, Supervised orderly e' → Active s e' → e'.returned s = false →
      Outcome (fun a (_ : Task) => Y a) (fun x _ => Z x) r s e' →
      Outcome (fun a => Knows orderly s (Y a)) (fun x => Knows orderly s (Z x)) r s e' := by
    intro e' r hinv' hj' hr' hout
    cases r with
    | ok a => exact ⟨rfl, hinv', hj', hr', hout⟩
    | error x => exact ⟨rfl, hinv', hj', hr', hout⟩
  refine wp_perform ⟨rfl, hj, howes e hinv hf⟩ (fun r e' hs hinv' => ?_) ?_
  · have hflags := (sync_tasks hclose hs).flags s
    exact hpost hinv' (active_same hj hflags) (hflags.returned.trans hr) (hsync e r e' hf hs)
  · intro _ e₁ hrely hinv₁ _ r e₂ _ hres hinv₂
    have hknown : Active s e₁ ∧ e₁.returned s = false ∧ F e₁ :=
      stable_star (X := fun e => Active s e ∧ e.returned s = false ∧ F e)
        (fun e e' h hrely => ⟨active_same h.1 hrely.flags, hrely.flags.returned.trans h.2.1, hF.rely h.1 h.2.2 hrely⟩) hrely ⟨hj, hr, hf⟩
    have hflags := (resume_tasks hres).flags s
    exact hpost hinv₂ (active_same hknown.1 hflags) (hflags.returned.trans hknown.2.1) (hresume e₁ r e₂ hknown.2.2 hres)

theorem does_at_once (hclose : closes i = false) (howes : ∀ e, Supervised orderly e → F e → Owes orderly j i e)
    (honce : ∀ e : RTSPProxy, sync j i e ≠ none)
    (hsync : ∀ e r e', Supervised orderly e → F e → sync j i e = some (r, e') →
      Outcome (fun a (_ : Task) => Y a) (fun x _ => Z x) r j e') :
    Does orderly j l F (ask i) Y Z := by
  rintro s e ⟨rfl, hinv, hj, hr, hf⟩
  cases hs : sync s i e with
  | none => exact absurd hs (honce e)
  | some d =>
      obtain ⟨r, e'⟩ := d
      refine wp_sync hs ⟨rfl, hj, howes e hinv hf⟩ fun hinv' => ?_
      have hflags := (sync_tasks hclose hs).flags s
      have hpost := hsync e r e' hinv hf hs
      cases r with
      | ok a => exact ⟨rfl, hinv', active_same hj hflags, hflags.returned.trans hr, hpost⟩
      | error x => exact ⟨rfl, hinv', active_same hj hflags, hflags.returned.trans hr, hpost⟩

end Calls

def Raised (j : Task) (x : Exc) (e : RTSPProxy) : Prop := x = .cancelled → e.thrown j = true

theorem Stable.raised {x : Exc} : Stable orderly j (Raised j x) where
  rely _ h hr hx := hr.flags.thrown (h hx)
  stays h _ ht _ hx := ht.thrown j (h hx)

theorem awaken_cancelled : e.awaken i (.error .cancelled) = none := by
  cases i <;> rfl

theorem resume_raised {x : Exc} (h : resume j i (.error x) e = some e') : Raised j x e' := by
  rintro rfl
  cases resume_cases h with
  | awakes h => cases awaken_cancelled.symm.trans h
  | swallows _ h => cases awaken_cancelled.symm.trans h
  | throws _ _ h =>
      subst h
      exact Function.update_self _ _ _

theorem signal_raised {x : Exc} (h : e.signal p = .error x) : x ≠ .cancelled := by
  simp only [signal] at h
  split at h <;> cases h
  rintro ⟨⟩

theorem sync_raised {x : Exc} (hi : i ≠ .createConfig) (h : sync j i e = some (.error x, e')) : Raised j x e' := by
  rintro rfl
  cases i with
  | createConfig => exact absurd rfl hi
  | popen kind =>
      simp only [sync] at h
      split at h
      · cases h
      · next missing _ => cases missing <;> cases h
  | terminate p | kill p =>
      simp only [sync, Option.some.injEq, Prod.mk.injEq] at h
      exact absurd rfl (signal_raised h.1)
  | createLogTask kind =>
      simp only [sync] at h
      split at h <;> cases h
  | dropLogTask | dropLogTasks =>
      simp only [sync] at h
      split at h <;> cases h
  | _ => cases h

theorem does_staying {F : RTSPProxy → Prop} (hi : stays i = true) (howes : ∀ e, Supervised orderly e → F e → Owes orderly j i e)
    (hF : Stable orderly j F) : Does orderly j l F (ask i) (fun _ => F) (fun x e => F e ∧ Raised j x e) := by
  have hconfig : i ≠ .createConfig := by
    rintro rfl
    cases hi
  obtain ⟨hcalm, hopen⟩ := stays_calms hi
  refine does_ask hopen howes hF (fun e r e' hf hs => ?_) fun e r e' hf hs => ?_
  · have hf' := hF.stays hf (sync_fades hcalm hs) (sync_tasks hopen hs) (sync_stays hi hs).1
    cases r with
    | ok a => exact hf'
    | error x => exact ⟨hf', sync_raised hconfig hs⟩
  · have hf' := hF.stays hf (resume_fades hs) (resume_tasks hs) (resume_holders hs)
    cases r with
    | ok a => exact hf'
    | error x => exact ⟨hf', resume_raised hs⟩

-- What is left of a launch that failed: unless it was cancelled, every process is where it will be looked for.
structure Failed (j : Task) (x : Exc) (e : RTSPProxy) : Prop where
  opening : ∀ k, e.opening k = none
  raised : Raised j x e
  secure : x ≠ .cancelled → Secure j none e

theorem Tidy.failed {x : Exc} (h : Tidy j e) (hx : Raised j x e) : Failed j x e := ⟨h.opening, hx, fun _ => h.secure⟩

section Launch

structure Ready (j : Task) (kind : Kind) (e : RTSPProxy) : Prop where
  dead : Dead kind e
  unread : Unread kind e
  vacant : j = .start → e.process kind = none

structure Opening (j : Task) (kind : Kind) (p : Nat) (e : RTSPProxy) : Prop where
  opening : e.opening = Function.update (fun _ => none) kind (some p)
  secure : Secure j (some p) e
  sole : Sole kind p e
  unread : Unread kind e
  vacant : j = .start → e.process kind = none

theorem Stable.opening (hstop : j ≠ .stop) : Stable orderly j (Opening j kind p) := by
  have hvacant : ∀ {e e' : RTSPProxy}, e.process kind = none → Fades e e' → e'.process kind = none := by
    intro e e' h hf
    rcases hf.process kind with hsame | hnone
    · exact hsame.trans h
    · exact hnone
  refine ⟨fun hj h hr => ?_, fun h hf ht hs => ?_⟩
  · have hf := exclusive_fades hstop hj hr
    exact ⟨(hr.opening hstop hj).trans h.opening, hr.secure hstop hj _ h.secure, h.sole.fades hf, h.unread.fades hf,
      fun hjs => hvacant (h.vacant hjs) hf⟩
  · exact ⟨hs.opening.trans h.opening, secure_same h.secure hf ht hs, h.sole.fades hf, h.unread.fades hf,
      fun hjs => hvacant (h.vacant hjs) hf⟩

theorem popen_opening (htidy : Tidy j e) (hready : Ready j kind e) : Opening j kind e.launched (e.popen kind) := by
  have hcase : ∀ q, (e.popen kind).processes q = if q = e.launched then ⟨kind, true, false, false, false⟩ else e.processes q :=
    fun q => Function.update_apply _ _ _ _
  refine ⟨?_, fun hs q hq => ?_, fun q hkind hq => ?_, hready.unread, hready.vacant⟩
  · have hnone : e.opening = fun _ => none := funext htidy.opening
    simp only [popen, hnone]
  · rw [hcase] at hq ⊢
    by_cases hql : q = e.launched
    · exact .inl (congrArg some hql)
    · rw [if_neg hql] at hq ⊢
      exact .inr ((htidy.secure hs q hq).resolve_left (by rintro ⟨⟩))
  · rw [hcase] at hkind hq
    by_contra hql
    rw [if_neg hql] at hkind hq
    cases (hready.dead q hkind).symm.trans hq

theorem opening_kind (h : Opening j kind p e) (hinv : Supervised orderly e) : (e.processes p).kind = kind := by
  refine (hinv.opened kind p ?_).2
  rw [h.opening, Function.update_self]

theorem assign_tidy (h : Opening j kind p e) (hkind : (e.processes p).kind = kind) : Tidy j (e.assign kind p) where
  opening k := by
    simp only [assign, h.opening, Function.update_idem]
    by_cases hk : k = kind
    · subst hk
      exact Function.update_self _ _ _
    · exact Function.update_of_ne hk _ _
  secure hs q hq := by
    refine .inr ?_
    by_cases hk : (e.processes q).kind = kind
    · have hqp := h.sole q hk hq
      subst hqp
      show Function.update e.process kind (some q) (e.processes q).kind = some q
      rw [hk, Function.update_self]
    · have hheld : e.process (e.processes q).kind = some q := by
        refine (h.secure hs q hq).resolve_left fun hqp => hk ?_
        rw [Option.some.inj hqp, hkind]
      exact (Function.update_of_ne hk _ _).trans hheld

theorem createLogTask_secure (kind : Kind) (p : Nat) (h : Secure j none e) :
    Secure j none { e.setProcess p fun x => { x with reading := true } with logTask := Function.update e.logTask kind (some p) } := by
  have hpair : ∀ q, (Function.update e.processes p { e.processes p with reading := true } q).kind = (e.processes q).kind ∧
      (Function.update e.processes p { e.processes p with reading := true } q).alive = (e.processes q).alive := by
    intro q
    rw [Function.update_apply]
    split
    · next hqp =>
        subst hqp
        exact ⟨rfl, rfl⟩
    · exact ⟨rfl, rfl⟩
  intro hs q hq
  simp only [setProcess, (hpair q).1, (hpair q).2] at hq ⊢
  exact h hs q hq

structure Keeps (kind : Kind) (F : RTSPProxy → Prop) : Prop where
  popen : ∀ {e}, F e → F (e.popen kind)
  assign : ∀ {e} p, F e → F (e.assign kind p)
  log : ∀ {e} p, F e → F { e.setProcess p fun x => { x with reading := true } with logTask := Function.update e.logTask kind (some p) }

variable {F : RTSPProxy → Prop}

theorem does_closeTransport (hstop : j ≠ .stop) {x : Exc} :
    Does orderly j l (fun e => Opening j kind p e ∧ Raised j x e) (ask (.closeTransport p))
      (fun _ e => ((∀ k, e.opening k = none) ∧ Secure j (some p) e) ∧ Raised j x e) (Failed j) := by
  have howes : ∀ e, Supervised orderly e → Opening j kind p e ∧ Raised j x e → Owes orderly j (.closeTransport p) e := by
    intro e hinv h
    refine ⟨hstop, ?_⟩
    rw [opening_kind h.1 hinv, h.1.opening, Function.update_self]
  refine does_at_once rfl howes (fun _ hnone => by cases hnone) ?_
  intro e r e' hinv h hs
  have ht := sync_tasks rfl hs
  have hf := sync_fades rfl hs
  cases hs
  refine ⟨⟨fun k => ?_, ?_⟩, fun hx => ht.thrown j (h.2 hx)⟩
  · simp only [closeTransport, h.1.opening, opening_kind h.1 hinv, Function.update_idem]
    by_cases hk : k = kind
    · subst hk
      exact Function.update_self _ _ _
    · exact Function.update_of_ne hk _ _
  · exact h.1.secure.fades hf rfl id

theorem does_reap (hstop : j ≠ .stop) {x : Exc} :
    Does orderly j l (fun e => ((∀ k, e.opening k = none) ∧ Secure j (some p) e) ∧ Raised j x e) (ask (.reap p))
      (fun _ e => Tidy j e ∧ Raised j x e) (Failed j) := by
  have hclosed : Stable orderly j fun e => (∀ k, e.opening k = none) ∧ Secure j (some p) e := by
    refine ⟨fun hj h hr => ?_, fun h hf ht hs => ?_⟩
    · exact ⟨fun k => (congrFun (hr.opening hstop hj) k).trans (h.1 k), hr.secure hstop hj _ h.2⟩
    · exact ⟨fun k => (congrFun hs.opening k).trans (h.1 k), secure_same h.2 hf ht hs⟩
  refine does_ask rfl (fun _ _ _ => trivial) (hclosed.and .raised) (fun e r e' _ hs => by cases hs) ?_
  intro e r e' h hs
  have h' := (hclosed.and .raised).stays h (resume_fades hs) (resume_tasks hs) (resume_holders hs)
  cases resume_cases hs with
  | awakes hs =>
      cases r with
      | error y => cases hs
      | ok a =>
          simp only [awaken] at hs
          split at hs <;> cases hs
          next hexited =>
            refine ⟨⟨h.1.1, fun hj q hq => .inr ?_⟩, h.2⟩
            refine (h.1.2 hj q hq).resolve_left fun hqp => ?_
            cases hqp
            exact hexited hq
  | swallows hi _ => cases hi
  | throws hr _ _ =>
      subst hr
      exact ⟨h'.1.1, resume_raised hs, fun hne => absurd rfl hne⟩

theorem does_createSubprocessExec (hstop : j ≠ .stop) (hF : Stable orderly j F) (hkeeps : Keeps kind F) :
    Does orderly j l (fun e => F e ∧ Tidy j e ∧ Ready j kind e) (createSubprocessExec kind) (fun p e => F e ∧ Opening j kind p e)
      (Failed j) := by
  unfold createSubprocessExec
  refine Triple.bind (Y := fun p => Knows orderly j fun e => F e ∧ Opening j kind p e) ?_ fun p => ?_
  · refine does_at_once rfl (fun e _ h => ⟨hstop, h.2.2.dead, h.2.1.opening kind⟩) (fun e hnone => ?_) ?_
    · simp only [sync] at hnone
      split at hnone <;> cases hnone
    · intro e r e' _ h hs
      have hraised := fun x (hr : r = .error x) => sync_raised (j := j) (by rintro ⟨⟩) (hr ▸ hs)
      simp only [sync] at hs
      split at hs <;> cases hs
      · exact ⟨hkeeps.popen h.1, popen_opening h.2.1 h.2.2⟩
      · exact h.2.1.failed (hraised _ rfl)
  refine Triple.bind (Y := fun _ => Knows orderly j fun e => F e ∧ Opening j kind p e) ?_ fun _ => Triple.pure fun _ _ => id
  refine Triple.tryCatch (does_staying rfl (fun _ _ _ => trivial) (hF.and (.opening hstop))) fun x => ?_
  refine Triple.bind ((does_closeTransport hstop).strengthen fun s e hk => hk.imp fun _ _ h => ⟨h.1.2, h.2⟩) fun _ => ?_
  refine Triple.bind (does_reap hstop) fun _ => Triple.raise fun s e hk => ?_
  exact hk.imp fun _ _ h => h.1.failed h.2

theorem does_startProcess (hstop : j ≠ .stop) (hF : Stable orderly j F) (hkeeps : Keeps kind F) :
    Does orderly j l (fun e => F e ∧ Tidy j e ∧ Ready j kind e) (startProcess kind) (fun _ e => F e ∧ Tidy j e) (Failed j) := by
  unfold startProcess
  refine Triple.bind (does_createSubprocessExec hstop hF hkeeps) fun p => ?_
  refine Triple.bind (Y := fun _ => Knows orderly j fun e => (F e ∧ Tidy j e) ∧ Unread kind e) ?_ fun _ => ?_
  · refine does_at_once rfl (fun e _ h => ⟨hstop, ?_, h.2.sole, h.2.vacant⟩) (fun _ hnone => by cases hnone) ?_
    · rw [h.2.opening, Function.update_self]
    · intro e r e' hinv h hs
      cases hs
      exact ⟨⟨hkeeps.assign p h.1, assign_tidy h.2 (opening_kind h.2 hinv)⟩, h.2.unread⟩
  · refine does_at_once rfl (fun e _ h => ⟨hstop, h.2⟩) (fun e hnone => ?_) ?_
    · simp only [sync] at hnone
      split at hnone <;> cases hnone
    · intro e r e' hinv h hs
      have hraised := fun x (hr : r = .error x) => sync_raised (j := j) (by rintro ⟨⟩) (hr ▸ hs)
      have hlog := fun p => createLogTask_secure kind p h.1.2.secure
      simp only [sync] at hs
      split at hs <;> cases hs
      · exact ⟨hkeeps.log _ h.1.1, h.1.2.opening, hlog _⟩
      · exact h.1.2.failed (hraised _ rfl)

end Launch

section Start

theorem Keeps.always : Keeps kind fun _ => True := ⟨fun _ => trivial, fun _ _ => trivial, fun _ _ => trivial⟩

theorem Keeps.clear {other : Kind} (hne : other ≠ kind) : Keeps kind (Clear other) where
  popen {e} h := by
    refine ⟨h.process, (Function.update_of_ne hne _ _).trans h.opening, fun q hq => ?_, h.unread⟩
    have hcase : (e.popen kind).processes q = if q = e.launched then ⟨kind, true, false, false, false⟩ else e.processes q :=
      Function.update_apply _ _ _ _
    rw [hcase] at hq ⊢
    by_cases hql : q = e.launched
    · rw [if_pos hql] at hq
      exact absurd hq.symm hne
    · rw [if_neg hql] at hq ⊢
      exact h.dead q hq
  assign p h :=
    ⟨(Function.update_of_ne hne _ _).trans h.process, (Function.update_of_ne hne _ _).trans h.opening, h.dead, h.unread⟩
  log {e} p h := by
    refine ⟨h.process, h.opening, fun q hq => ?_, (Function.update_of_ne hne _ _).trans h.unread⟩
    simp only [setProcess, Function.update_apply] at hq ⊢
    split at hq
    · next hqp =>
        subst hqp
        rw [if_pos rfl]
        exact h.dead q hq
    · next hqp =>
        rw [if_neg hqp]
        exact h.dead q hq

theorem Clear.ready (h : Clear k e) : Ready j k e := ⟨h.dead, h.unread, fun _ => h.process⟩

theorem createConfig_clear (h : ∀ k, Clear k e) (k : Kind) : Clear k e.createConfig.2 := by
  obtain ⟨hprocess, hopening, hdead, hunread⟩ := h k
  unfold createConfig
  split
  · exact ⟨hprocess, hopening, hdead, hunread⟩
  · dsimp only
    split
    · exact ⟨hprocess, hopening, hdead, hunread⟩
    · exact ⟨hprocess, hopening, hdead, hunread⟩

theorem does_start : Does orderly .start l (fun e => ∀ k, Clear k e) start (fun _ => Tidy .start) fun _ e => ∀ k, e.opening k = none := by
  have hstop : Task.start ≠ .stop := by rintro ⟨⟩
  have hffmpeg : Stable orderly .start (Clear .ffmpeg) := .alone hstop Clear.fades
  have hfailed : ∀ x s e, Knows orderly .start (Failed .start x) s e → Knows orderly .start (fun e => ∀ k, e.opening k = none) s e :=
    fun x s e hk => hk.imp fun _ _ h => h.opening
  unfold start
  refine Triple.bind (Y := fun _ => Knows orderly .start fun e => ∀ k, Clear k e) ?_ fun _ => ?_
  · refine does_at_once rfl (fun _ _ _ => rfl) (fun _ hnone => by cases hnone) ?_
    intro e r e' _ h hs
    cases hs
    exact fun k => ⟨(h k).process, (h k).opening, (h k).dead, (h k).unread⟩
  refine Triple.bind (Y := fun _ => Knows orderly .start fun e => ∀ k, Clear k e) ?_ fun _ => ?_
  · refine does_at_once rfl (fun _ _ _ => rfl) (fun _ hnone => by cases hnone) ?_
    intro e r e' _ h hs
    have he' : e' = e.createConfig.2 := by
      simp only [sync, Option.some.injEq] at hs
      rw [hs]
    subst he'
    cases r with
    | ok a => exact createConfig_clear h
    | error x => exact fun k => (createConfig_clear h k).opening
  refine Triple.bind (Y := fun _ => Knows orderly .start fun e => Clear .ffmpeg e ∧ Tidy .start e) ?_ fun _ => ?_
  · refine (does_startProcess hstop hffmpeg (.clear (by rintro ⟨⟩))).conseq ?_ (fun _ _ _ => id) hfailed
    exact fun s e hk => hk.imp fun _ _ h => ⟨h .ffmpeg, .of_clear h, (h .mediamtx).ready⟩
  refine Triple.bind (Y := fun _ => Knows orderly .start fun e => Clear .ffmpeg e ∧ Tidy .start e) ?_ fun _ => ?_
  · refine (does_staying (i := .sleep 2) rfl (fun _ _ _ => trivial) (hffmpeg.and (.tidy hstop))).conseq (fun _ _ => id) (fun _ _ _ => id) ?_
    exact fun x s e hk => hk.imp fun _ _ h => h.1.2.opening
  · refine (does_startProcess hstop .always .always).conseq ?_ ?_ hfailed
    · exact fun s e hk => hk.imp fun _ _ h => ⟨trivial, h.2, h.1.ready⟩
    · exact fun _ s e hk => hk.imp fun _ _ h => h.2

end Start

section Monitor

theorem dropLogTask_unread (e : RTSPProxy) (kind : Kind) : Unread kind (e.dropLogTask kind) := by
  unfold RTSPProxy.dropLogTask
  split
  · exact Function.update_self _ _ _
  · assumption

theorem does_dropLogTask : Does orderly .monitor l (fun e => Tidy .monitor e ∧ Dead kind e) (ask (.dropLogTask kind))
    (fun _ e => Tidy .monitor e ∧ Ready .monitor kind e) (Failed .monitor) := by
  have hstable : Stable orderly .monitor fun e => Tidy .monitor e ∧ Dead kind e :=
    (Stable.tidy (by rintro ⟨⟩)).and (.alone (by rintro ⟨⟩) Dead.fades)
  refine does_ask rfl (fun _ _ _ => trivial) hstable ?_ ?_
  · intro e r e' h hs
    simp only [sync] at hs
    split at hs <;> cases hs
    exact ⟨h.1, h.2, by assumption, by rintro ⟨⟩⟩
  · intro e r e' h hs
    obtain ⟨htidy, hdead⟩ := hstable.stays h (resume_fades hs) (resume_tasks hs) (resume_holders hs)
    cases r with
    | error x => exact htidy.failed (resume_raised hs)
    | ok a =>
        refine ⟨htidy, hdead, ?_, by rintro ⟨⟩⟩
        cases resume_cases hs with
        | awakes hs =>
            cases hs
            exact dropLogTask_unread _ kind
        | swallows _ hs =>
            cases hs
            exact dropLogTask_unread _ kind
        | throws hr _ _ => cases hr

theorem does_restart (restart : Session Unit)
    (h : restart = restartMediamtx ∧ kind = .mediamtx ∨ restart = restartFfmpeg ∧ kind = .ffmpeg) :
    Does orderly .monitor l (fun e => Tidy .monitor e ∧ Ready .monitor kind e) restart (fun _ => Tidy .monitor) (Failed .monitor) := by
  have hstop : Task.monitor ≠ .stop := by rintro ⟨⟩
  have hlaunch : ∀ kind, Does orderly .monitor l (fun e => Tidy .monitor e ∧ Ready .monitor kind e) (startProcess kind)
      (fun _ => Tidy .monitor) (Failed .monitor) := by
    refine fun kind => (does_startProcess hstop .always .always).conseq ?_ ?_ fun _ _ _ => id
    · exact fun s e hk => hk.imp fun _ _ h => ⟨trivial, h⟩
    · exact fun _ s e hk => hk.imp fun _ _ h => h.2
  rcases h with ⟨rfl, rfl⟩ | ⟨rfl, rfl⟩
  · refine Triple.bind (hlaunch .mediamtx) fun _ => ?_
    refine (does_staying (i := .sleep 2) rfl (fun _ _ _ => trivial) (.tidy hstop)).conseq (fun _ _ => id) (fun _ _ _ => id) fun x s e hk => ?_
    exact hk.imp fun _ _ h => h.1.failed h.2
  · have hready : Stable orderly .monitor fun e => Tidy .monitor e ∧ Ready .monitor .ffmpeg e :=
      (Stable.tidy hstop).and (.alone hstop fun h hf => ⟨h.dead.fades hf, h.unread.fades hf, by rintro ⟨⟩⟩)
    refine Triple.bind ?_ fun _ => hlaunch .ffmpeg
    refine (does_staying (i := .sleep 5) rfl (fun _ _ _ => trivial) hready).conseq (fun _ _ => id) (fun _ _ _ => id) fun x s e hk => ?_
    exact hk.imp fun _ _ h => h.1.1.failed h.2

theorem does_checkProcess (restart : Session Unit)
    (h : restart = restartMediamtx ∧ kind = .mediamtx ∨ restart = restartFfmpeg ∧ kind = .ffmpeg) :
    Does orderly .monitor l (Tidy .monitor) (checkProcess kind restart) (fun _ => Tidy .monitor) (Failed .monitor) := by
  unfold checkProcess
  refine Triple.bind (Y := fun process => Knows orderly .monitor fun e => Tidy .monitor e ∧ process = e.process kind) ?_ fun process => ?_
  · refine does_at_once rfl (fun _ _ _ => trivial) (fun _ hnone => by cases hnone) ?_
    intro e r e' _ htidy hs
    cases hs
    exact ⟨htidy, rfl⟩
  cases process with
  | none => exact Triple.pure fun s e hk => hk.imp fun _ _ h => h.1
  | some p =>
      refine Triple.bind (Y := fun exited => Knows orderly .monitor fun e => Tidy .monitor e ∧ (exited = true → Dead kind e)) ?_
        fun exited => ?_
      · refine does_at_once rfl (fun _ _ _ => trivial) (fun _ hnone => by cases hnone) ?_
        intro e r e' _ h hs
        cases hs
        refine ⟨h.1, fun hexited q hq => ?_⟩
        cases halive : (e.processes q).alive with
        | false => rfl
        | true =>
            have hheld := (h.1.secure (by rintro ⟨⟩) q halive).resolve_left (by rintro ⟨⟩)
            rw [hq, ← h.2] at hheld
            cases hheld
            rw [halive] at hexited
            cases hexited
      refine Triple.bind (Y := fun _ => Knows orderly .monitor fun e => Tidy .monitor e ∧ (exited = true → Dead kind e)) ?_
        fun running => ?_
      · refine does_at_once rfl (fun _ _ _ => trivial) (fun _ hnone => by cases hnone) ?_
        intro e r e' _ h hs
        cases hs
        exact h
      dsimp only
      split
      · next hboth =>
          obtain ⟨hexited, _⟩ := Bool.and_eq_true_iff.mp hboth
          refine Triple.bind (does_dropLogTask.strengthen fun s e hk => ?_) fun _ => does_restart restart h
          exact hk.imp fun _ _ h => ⟨h.1, h.2 hexited⟩
      · exact Triple.pure fun s e hk => hk.imp fun _ _ h => h.1

theorem does_monitorProcesses : Does orderly .monitor l (Tidy .monitor) monitorProcesses
    (fun goesOn e => Tidy .monitor e ∧ (goesOn = false → e.running = false))
    fun _ e => e.thrown .monitor = true ∧ ∀ k, e.opening k = none := by
  have htidy : Stable orderly .monitor (Tidy .monitor) := .tidy (by rintro ⟨⟩)
  unfold monitorProcesses
  refine Triple.bind (Y := fun running => Knows orderly .monitor fun e => Tidy .monitor e ∧ running = e.running) ?_ fun running => ?_
  · refine does_at_once rfl (fun _ _ _ => trivial) (fun _ hnone => by cases hnone) ?_
    intro e r e' _ h hs
    cases hs
    exact ⟨h, rfl⟩
  cases running with
  | false => exact Triple.pure fun s e hk => hk.imp fun _ _ h => ⟨h.1, fun _ => h.2.symm⟩
  | true =>
      simp only [Bool.not_true, Bool.false_eq_true, if_false]
      refine Triple.bind (Y := fun _ => Knows orderly .monitor (Tidy .monitor)) ?_ fun _ => ?_
      · refine Triple.strengthen (X := Knows orderly .monitor (Tidy .monitor)) ?_ fun s e hk => hk.imp fun _ _ h => h.1
        refine does_ask rfl (fun _ _ _ => trivial) htidy (fun e r e' _ hs => by cases hs) ?_
        intro e r e' h hs
        have h' := htidy.stays h (resume_fades hs) (resume_tasks hs) (resume_holders hs)
        cases r with
        | ok a => exact h'
        | error x =>
            have hx : x = .cancelled := by
              cases resume_cases hs with
              | awakes hs => cases hs
              | swallows hi _ => cases hi
              | throws hr _ _ => exact Except.error.inj hr
            exact ⟨resume_raised hs hx, h'.opening⟩
      refine Triple.bind (Y := fun _ => Knows orderly .monitor (Tidy .monitor)) ?_ fun _ => Triple.pure fun s e hk => ?_
      · refine Triple.tryCatch (Z := fun x => Knows orderly .monitor (Failed .monitor x)) ?_ fun x => ?_
        · exact Triple.bind (does_checkProcess _ (.inl ⟨rfl, rfl⟩)) fun _ => does_checkProcess _ (.inr ⟨rfl, rfl⟩)
        · split
          · next hx => exact Triple.raise fun s e hk => hk.imp fun _ _ h => ⟨h.raised hx, h.opening⟩
          · next hx => exact Triple.pure fun s e hk => hk.imp fun _ _ h => ⟨h.opening, h.secure hx⟩
      · exact hk.imp fun _ _ h => ⟨h, by rintro ⟨⟩⟩

end Monitor

section Stop

def Halted (orderly : Bool) (e : RTSPProxy) : Prop := orderly = true → e.running = false

-- What `stop` has reached once the monitor is over: nobody undoes it where `start` is over too.
def Settled (orderly : Bool) (F : RTSPProxy → Prop) (e : RTSPProxy) : Prop := Joined e ∧ (orderly = true → F e)

variable {F : RTSPProxy → Prop}

theorem halted_fades (h : Halted orderly e) (hf : Fades e e') : Halted orderly e' := by
  intro ho
  cases hr : e'.running with
  | false => rfl
  | true => cases (h ho).symm.trans (hf.running hr)

theorem Stable.halted : Stable orderly .stop (Halted orderly) where
  rely {e e'} hj h hr ho := by
    cases hr' : e'.running with
    | false => rfl
    | true => cases (h ho).symm.trans (hr.halted rfl hj ho hr')
  stays h hf _ _ := halted_fades h hf

theorem Stable.settled (hfade : ∀ {e e'}, F e → Fades e e' → F e') : Stable orderly .stop (Settled orderly F) where
  rely hj h hr := ⟨hr.joined rfl hj h.1, fun ho => hfade (h.2 ho) (hr.fades ⟨hj, h.1, ho⟩)⟩
  stays h hf ht _ := ⟨ht.joined.mpr h.1, fun ho => hfade (h.2 ho) hf⟩

theorem does_joinMonitor : Does orderly .stop l (Halted orderly) (ask .joinMonitor)
    (fun _ => Settled orderly fun e => e.running = false) fun _ => Settled orderly fun e => e.running = false := by
  refine does_ask rfl (fun _ _ _ => trivial) .halted (fun e r e' _ hs => by cases hs) ?_
  intro e r e' h hs
  have h' := Stable.halted.stays h (resume_fades hs) (resume_tasks hs) (resume_holders hs)
  have hended : e.ended .monitor = true := by
    cases resume_cases hs with
    | awakes hs | swallows _ hs =>
        cases r with
        | error x => cases hs
        | ok a =>
            simp only [awaken] at hs
            split at hs
            · assumption
            · cases hs
    | throws _ hi _ => exact hi
  have hjoined : Joined e' := fun _ => (congrFun (resume_tasks hs).ended .monitor).trans hended
  cases r with
  | ok a => exact ⟨hjoined, h'⟩
  | error x => exact ⟨hjoined, h'⟩

theorem does_cancelMonitor : Does orderly .stop l (Halted orderly) cancelMonitor
    (fun _ => Settled orderly fun e => e.running = false) fun _ _ => True := by
  unfold cancelMonitor
  refine Triple.bind (Y := fun monitored => Knows orderly .stop fun e => Halted orderly e ∧ monitored = e.monitorTask) ?_
    fun monitored => ?_
  · refine does_at_once rfl (fun _ _ _ => trivial) (fun _ hnone => by cases hnone) ?_
    intro e r e' _ h hs
    cases hs
    split
    · exact ⟨h, rfl⟩
    · exact ⟨h, rfl⟩
  cases monitored with
  | true =>
      refine Triple.suppress (does_joinMonitor.strengthen fun s e hk => hk.imp fun _ _ h => h.1) fun x s e hk => ?_
      split
      · exact hk
      · exact hk.imp fun _ _ _ => trivial
  | false =>
      refine Triple.pure fun s e hk => hk.imp fun hinv hj h => ⟨fun hm => ?_, h.1⟩
      cases h.2.trans ((hinv.stopping hj.1).2.1 hm)

theorem does_stopProcess (hfade : ∀ {e e'}, F e → Fades e e' → F e') :
    Does orderly .stop l (Settled orderly F) (stopProcess kind) (fun _ => Settled orderly fun e => F e ∧ e.process kind = none)
      fun _ _ => True := by
  unfold stopProcess
  refine Triple.bind (Y := fun process => Knows orderly .stop fun e => Settled orderly F e ∧ e.process kind = process) ?_ fun process => ?_
  · refine does_at_once rfl (fun _ _ _ => trivial) (fun _ hnone => by cases hnone) ?_
    intro e r e' _ h hs
    cases hs
    exact ⟨h, rfl⟩
  cases process with
  | none => exact Triple.pure fun s e hk => hk.imp fun _ _ h => ⟨h.1.1, fun ho => ⟨h.1.2 ho, h.2⟩⟩
  | some p =>
      have hheld : Stable orderly .stop fun e => Settled orderly F e ∧ e.process kind = some p := by
        refine ⟨fun hj h hr => ?_, fun h hf ht hs => ?_⟩
        · exact ⟨(Stable.settled hfade).rely hj h.1 hr, hr.minds rfl hj h.1.1 kind p h.2⟩
        · exact ⟨(Stable.settled hfade).stays h.1 hf ht hs, (congrFun hs.process kind).trans h.2⟩
      have hspent : ∀ e : RTSPProxy, e.process kind = some p → ((e.processes p).alive = true → (e.processes p).killed = true) →
          Spent kind e := by
        intro e hp hkilled q hq
        cases hp.symm.trans hq
        exact hkilled
      refine Triple.bind (Y := fun _ => Knows orderly .stop fun e => Settled orderly F e ∧ e.process kind = some p) ?_ fun _ => ?_
      · exact (does_staying (i := .terminate p) rfl (fun _ _ _ => trivial) hheld).conseq (fun _ _ => id) (fun _ _ _ => id)
          fun x s e hk => hk.imp fun _ _ _ => trivial
      refine Triple.bind (Y := fun _ => Knows orderly .stop fun e => Settled orderly F e ∧ Spent kind e) ?_ fun _ => ?_
      · refine Triple.tryCatch (Z := fun _ => Knows orderly .stop fun e => Settled orderly F e ∧ e.process kind = some p) ?_ fun x => ?_
        · refine does_ask rfl (fun _ _ _ => trivial) hheld (fun e r e' _ hs => by cases hs) ?_
          intro e r e' h hs
          have h' := hheld.stays h (resume_fades hs) (resume_tasks hs) (resume_holders hs)
          cases r with
          | error x => exact h'
          | ok a =>
              refine ⟨h'.1, hspent e' h'.2 fun halive => ?_⟩
              cases resume_cases hs with
              | awakes hs =>
                  simp only [awaken] at hs
                  split at hs <;> cases hs
                  next hexited => exact absurd halive hexited
              | swallows hi _ => cases hi
              | throws hr _ _ => cases hr
        · split
          · refine does_at_once rfl (fun e _ h => ⟨rfl, h.1.1⟩) (fun _ hnone => by cases hnone) ?_
            intro e r e' _ h hs
            have h' := hheld.stays h (sync_fades rfl hs) (sync_tasks rfl hs) (sync_stays rfl hs).1
            cases r with
            | error x => trivial
            | ok a =>
                refine ⟨h'.1, hspent e' h'.2 fun _ => ?_⟩
                simp only [sync, signal, Option.some.injEq, Prod.mk.injEq] at hs
                obtain ⟨hsent, rfl⟩ := hs
                split at hsent
                · cases hsent
                · next hlost =>
                    rw [if_neg hlost]
                    simp [RTSPProxy.setProcess]
          · exact Triple.raise fun s e hk => hk.imp fun _ _ _ => trivial
      · refine does_at_once rfl (fun e _ h => ⟨rfl, h.1.1, h.2⟩) (fun _ hnone => by cases hnone) ?_
        intro e r e' _ h hs
        have hf := sync_fades rfl hs
        have hjoined := (sync_tasks rfl hs).joined.mpr h.1.1
        cases hs
        exact ⟨hjoined, fun ho => ⟨hfade (h.1.2 ho) hf, Function.update_self _ _ _⟩⟩

theorem does_dropLogTasks (hfade : ∀ {e e'}, F e → Fades e e' → F e') :
    Does orderly .stop l (Settled orderly F) (ask .dropLogTasks)
      (fun _ => Settled orderly fun e => F e ∧ ∀ k, Unread k e) fun _ _ => True := by
  have hboth : ∀ {e : RTSPProxy}, Unread .ffmpeg e → Unread .mediamtx e → ∀ k, Unread k e := by
    intro e hffmpeg hmediamtx k
    cases k with
    | mediamtx => exact hmediamtx
    | ffmpeg => exact hffmpeg
  refine does_ask rfl (fun _ _ _ => trivial) (.settled hfade) ?_ ?_
  · intro e r e' h hs
    simp only [sync] at hs
    split at hs <;> cases hs
    next hnone => exact ⟨h.1, fun ho => ⟨h.2 ho, hboth hnone.1 hnone.2⟩⟩
  · intro e r e' h hs
    have h' := (Stable.settled hfade).stays h (resume_fades hs) (resume_tasks hs) (resume_holders hs)
    cases r with
    | error x => trivial
    | ok a =>
        cases resume_cases hs with
        | awakes hs =>
            cases hs
            have hffmpeg := (dropLogTask_unread e .ffmpeg).fades (.dropLogTask (e.dropLogTask .ffmpeg) .mediamtx)
            exact ⟨h'.1, fun ho => ⟨h'.2 ho, hboth hffmpeg (dropLogTask_unread _ .mediamtx)⟩⟩
        | swallows hi _ => cases hi
        | throws hr _ _ => cases hr

theorem quiet_removeConfig (h : Supervised orderly e) (hrunning : e.running = false) (hprocess : ∀ k, e.process k = none)
    (hopening : ∀ k, e.opening k = none) (hlog : ∀ k, Unread k e) : Quiet e.removeConfig := by
  have hquiet : (∀ p, (e.processes p).alive = true → (e.processes p).killed = true) ∧ ∀ p, (e.processes p).reading = false := by
    refine ⟨fun p hp => ?_, fun p => ?_⟩
    · rcases h.held p hp with hheld | hheld | hkilled
      · cases (hprocess _).symm.trans hheld
      · cases (hopening _).symm.trans hheld
      · exact hkilled
    · cases hp : (e.processes p).reading with
      | false => rfl
      | true => cases (hlog _).symm.trans (h.read p hp)
  have hrest : e.removeConfig.running = e.running ∧ e.removeConfig.processes = e.processes := by
    unfold RTSPProxy.removeConfig
    split
    · split <;> exact ⟨rfl, rfl⟩
    · exact ⟨rfl, rfl⟩
  refine ⟨hrest.1.trans hrunning, ?_, ?_, e.removeConfig_gone⟩
  · rw [hrest.2]
    exact hquiet.1
  · rw [hrest.2]
    exact hquiet.2

theorem nothing_opening (hinv : Supervised orderly e) (hj : Active .stop e) (hjoined : Joined e) (ho : orderly = true) (k : Kind) :
    e.opening k = none := by
  cases hp : e.opening k with
  | none => rfl
  | some p =>
      rcases hinv.opener k p hp with hstart | hmonitor
      · cases hstart.2.symm.trans ((hinv.stopping hj.1).2.2 ho)
      · cases hmonitor.2.symm.trans (hjoined hmonitor.1)

theorem does_removeConfig :
    Does orderly .stop l
      (Settled orderly fun e => ((e.running = false ∧ e.process .ffmpeg = none) ∧ e.process .mediamtx = none) ∧ ∀ k, Unread k e)
      (ask .removeConfig) (fun _ => Settled orderly Quiet) fun _ _ => True := by
  refine Triple.strengthen (X := Knows orderly .stop (Settled orderly fun e =>
    (e.running = false ∧ ∀ k, e.process k = none) ∧ (∀ k, e.opening k = none) ∧ ∀ k, Unread k e)) ?_ fun s e hk => ?_
  · refine does_at_once rfl (fun _ _ _ => trivial) (fun _ hnone => by cases hnone) ?_
    intro e r e' hinv h hs
    have hjoined := (sync_tasks rfl hs).joined.mpr h.1
    cases hs
    refine ⟨hjoined, fun ho => ?_⟩
    obtain ⟨⟨hrunning, hprocess⟩, hopening, hlog⟩ := h.2 ho
    exact quiet_removeConfig hinv hrunning hprocess hopening hlog
  · refine hk.imp fun hinv hj h => ⟨h.1, fun ho => ?_⟩
    obtain ⟨⟨⟨hrunning, hffmpeg⟩, hmediamtx⟩, hlog⟩ := h.2 ho
    refine ⟨⟨hrunning, fun k => ?_⟩, nothing_opening hinv hj h.1 ho, hlog⟩
    cases k with
    | mediamtx => exact hmediamtx
    | ffmpeg => exact hffmpeg

theorem does_stop : Does orderly .stop l (fun _ => True) stop (fun _ => Settled orderly Quiet) fun _ _ => True := by
  have hrunning : ∀ {e e' : RTSPProxy}, e.running = false → Fades e e' → e'.running = false := by
    intro e e' h hf
    have hhalted : Halted true e := fun _ => h
    exact halted_fades hhalted hf rfl
  have hnone : ∀ k {e e' : RTSPProxy}, e.process k = none → Fades e e' → e'.process k = none := by
    intro k e e' h hf
    rcases hf.process k with hsame | hnone
    · exact hsame.trans h
    · exact hnone
  have hffmpeg : ∀ {e e' : RTSPProxy}, e.running = false ∧ e.process .ffmpeg = none → Fades e e' →
      e'.running = false ∧ e'.process .ffmpeg = none :=
    fun h hf => ⟨hrunning h.1 hf, hnone .ffmpeg h.2 hf⟩
  have hboth : ∀ {e e' : RTSPProxy}, (e.running = false ∧ e.process .ffmpeg = none) ∧ e.process .mediamtx = none → Fades e e' →
      (e'.running = false ∧ e'.process .ffmpeg = none) ∧ e'.process .mediamtx = none :=
    fun h hf => ⟨hffmpeg h.1 hf, hnone .mediamtx h.2 hf⟩
  unfold stop
  refine Triple.bind (Y := fun _ => Knows orderly .stop (Halted orderly)) ?_ fun _ => ?_
  · refine does_at_once rfl (fun _ _ _ => trivial) (fun _ hnone => by cases hnone) ?_
    intro e r e' _ _ hs
    cases hs
    exact fun _ => rfl
  refine Triple.bind does_cancelMonitor fun _ => ?_
  refine Triple.bind (does_stopProcess hrunning) fun _ => ?_
  refine Triple.bind (does_stopProcess hffmpeg) fun _ => ?_
  exact Triple.bind (does_dropLogTasks hboth) fun _ => does_removeConfig

end Stop

section Bodies

variable {F : RTSPProxy → Prop}

structure Leaves (j : Task) (e : RTSPProxy) : Prop where
  active : Active j e
  opening : j ≠ .stop → ∀ k, e.opening k = none
  secure : j = .start → e.returned .start = true → Secure .start none e

theorem Leaves.begins (h : Leaves j e) (hj : j ≠ .monitor) : (supervision orderly).lab j .leaving j e :=
  ⟨rfl, h.active, fun hm => absurd hm hj, h.opening, h.secure⟩

theorem does_returned (howes : ∀ e, F e → Owes orderly j .returned e)
    (hleaves : ∀ e, F e → (j ≠ .stop → ∀ k, e.opening k = none) ∧ (j = .start → Secure .start none e)) :
    Triple (world j) ((supervision orderly).contract j l) (Knows orderly j F) (ask .returned)
      (fun _ s e => s = j ∧ Leaves j e) fun _ s e => s = j ∧ Leaves j e := by
  rintro s e ⟨rfl, hinv, hj, _, hf⟩
  obtain ⟨hopening, hsecure⟩ := hleaves e hf
  exact wp_sync rfl ⟨rfl, hj, howes e hf⟩ fun hinv' => ⟨rfl, hj, hopening, fun hjs _ => hsecure hjs⟩

theorem Knows.leaves {s : Task} (hk : Knows orderly j F s e) (h : F e → j ≠ .stop → ∀ k, e.opening k = none) : s = j ∧ Leaves j e := by
  obtain ⟨rfl, _, hj, hreturned, hf⟩ := hk
  refine ⟨rfl, hj, h hf, ?_⟩
  rintro rfl hr
  cases hreturned.symm.trans hr

-- `start` and `stop`, and what becomes of either.
theorem entry_safe {c : Session Unit} (hj : j ≠ .monitor)
    (hc : Triple (world j) ((supervision orderly).contract j .entry) (Knows orderly j F)
      (do
        c
        ask .returned
        pure (some Label.leaving))
      (fun l s e => l = some .leaving ∧ s = j ∧ Leaves j e) fun _ s e => s = j ∧ Leaves j e)
    (hk : Knows orderly j F j e) :
    wp (world j) ((supervision orderly).contract j .entry)
      (do
        c
        ask .returned
        pure (some Label.leaving)) ((supervision orderly).post (rtspProxy orderly) j .entry) j e := by
  refine wp_mono _ ?_ _ e (hc j e hk)
  intro r s e hr
  cases r with
  | ok l' =>
      obtain ⟨rfl, rfl, hleaves⟩ := hr
      exact hleaves.begins hj
  | error x =>
      obtain ⟨rfl, hleaves⟩ := hr
      exact hleaves.begins hj

theorem body_safe {s : Task} (hinv : Supervised orderly e) (h : (supervision orderly).lab j l s e) :
    wp (world j) ((supervision orderly).contract j l) (body l) ((supervision orderly).post (rtspProxy orderly) j l) s e := by
  obtain ⟨rfl, hj, hbegins⟩ := h
  cases l with
  | entry =>
      cases s with
      | start =>
          refine entry_safe (F := fun e => ∀ k, Clear k e) (by rintro ⟨⟩) ?_ ⟨rfl, hinv, hj, hbegins.1, hbegins.2⟩
          refine Triple.bind (does_start.conseq (fun _ _ => id) (fun _ _ _ => id) ?_) fun _ => ?_
          · exact fun _ s e hk => hk.leaves fun h _ => h
          · refine Triple.bind (does_returned (fun _ _ => .inl rfl) fun _ h => ?_) fun _ => Triple.pure fun _ _ hk => ⟨rfl, hk⟩
            exact ⟨fun _ => h.opening, fun _ => h.secure⟩
      | monitor =>
          refine wp_bind (ask .enlist) _ _ e (wp_sync rfl ⟨rfl, hj, trivial⟩ fun _ => ⟨rfl, hj, rfl, hbegins.1, ?_⟩)
          exact ⟨hbegins.2.opening, hbegins.2.secure⟩
      | stop =>
          refine entry_safe (F := fun _ => True) (by rintro ⟨⟩) ?_ ⟨rfl, hinv, hj, hbegins, trivial⟩
          refine Triple.bind (does_stop.conseq (fun _ _ => id) (fun _ _ _ => id) ?_) fun _ => ?_
          · exact fun _ s e hk => hk.leaves fun _ hne => absurd rfl hne
          · refine Triple.bind (does_returned (fun _ h => .inr ⟨rfl, h⟩) fun _ _ => ?_) fun _ => Triple.pure fun _ _ hk => ⟨rfl, hk⟩
            exact ⟨fun hne => absurd rfl hne, by rintro ⟨⟩⟩
  | watching =>
      obtain ⟨rfl, hreturned, htidy⟩ := hbegins
      refine wp_bind _ _ _ e (wp_mono _ ?_ _ e (does_monitorProcesses .monitor e ⟨rfl, hinv, hj, hreturned, htidy⟩))
      intro r s e hr
      cases r with
      | ok goesOn =>
          obtain ⟨rfl, _, hj, hreturned, htidy, hstopped⟩ := hr
          cases goesOn with
          | true => exact ⟨rfl, hj, rfl, hreturned, htidy⟩
          | false => exact ⟨rfl, hj, fun _ => .inl (hstopped rfl), fun _ => htidy.opening, by rintro ⟨⟩⟩
      | error x =>
          obtain ⟨rfl, _, hj, _, hthrown, hopening⟩ := hr
          exact ⟨rfl, hj, fun _ => .inr hthrown, fun _ => hopening, by rintro ⟨⟩⟩
  | leaving => exact wp_bind (ask .ended) _ _ e (wp_sync rfl ⟨rfl, hj, hbegins⟩ fun _ => Function.update_self _ _ _)

end Bodies

theorem spawn_begins {s : Task} (hinv : Supervised orderly e) (h : (supervision orderly).idle j e) (hs : Spawns orderly j e s e') :
    Begins e' .entry s := by
  obtain ⟨rfl, rfl, _, hmonitor, _⟩ := hs
  obtain ⟨hbegun, hended, hreturned, hclear⟩ := h
  cases s with
  | start => exact ⟨hreturned, fun k => ⟨(hclear rfl k).process, (hclear rfl k).opening, (hclear rfl k).dead, (hclear rfl k).unread⟩⟩
  | stop => exact hreturned
  | monitor =>
      obtain ⟨hstarted, hover, hrunning⟩ := hmonitor rfl
      refine ⟨hreturned, fun k => ?_, fun _ => hinv.handed hover hstarted hbegun fun _ => hrunning⟩
      cases hp : e.opening k with
      | none => rfl
      | some p =>
          rcases hinv.opener k p hp with hstart | hmonitor
          · cases hstart.2.symm.trans hover
          · cases hmonitor.1.symm.trans hbegun

theorem supervision_verified (orderly : Bool) : (supervision orderly).Verified (rtspProxy orderly) where
  body _ _ _ _ hinv h := body_safe hinv h
  inv_sync _ _ _ _ _ _ hinv h hs := sync_supervised hinv h.2.1 h.2.2 hs
  inv_resume _ _ _ _ _ _ _ hinv _ _ hs := resume_supervised hinv hs
  inv_spawn _ _ _ _ hinv _ hs := spawn_supervised hinv (spawn_cases hs)
  inv_tick _ _ _ _ hinv _ hs := tick_supervised hinv hs
  rely_sync _ _ _ _ _ _ _ hk hinv h hs := sync_rely hinv h.2.1 h.2.2 hk hs
  rely_resume _ _ _ _ _ _ _ _ _ _ _ _ hs := resume_rely hs
  rely_spawn _ _ _ _ _ hk _ _ hs := spawn_rely (spawn_cases hs) hk
  rely_tick _ _ _ _ _ _ _ hs := tick_rely hs
  guar_stable _ _ _ _ _ hwaits _ _ h hr := ⟨h.1, active_same h.2.1 hr.flags, owes_stable h.2.2 hwaits⟩
  lab_stable _ _ _ _ _ _ _ h hr := ⟨h.1, active_same h.2.1 hr.flags, begins_stable h.2.1 h.2.2 hr⟩
  fin_stable _ _ _ _ _ _ h hr := hr.flags.ended.trans h
  idle_stable j _ _ _ _ h hr := by
    obtain ⟨hbegun, hended, hreturned, hclear⟩ := h
    refine ⟨hr.flags.begun.trans hbegun, hr.flags.ended.trans hended, hr.flags.returned.trans hreturned, ?_⟩
    rintro rfl k
    exact (hclear rfl k).fades (hr.fades hended)
  spawn_lab j _ _ _ hinv h hs := by
    have hspawns := spawn_cases hs
    have hbegins := spawn_begins hinv h hspawns
    obtain ⟨rfl, rfl, _, _, _⟩ := hspawns
    exact ⟨rfl, ⟨Function.update_self _ _ _, h.2.1⟩, hbegins⟩

theorem constructed_supervised (orderly : Bool) : Supervised orderly .init := by
  have hfalse : ∀ {P : Prop}, false = true → P := by rintro _ ⟨⟩
  have hnone : ∀ {P : Prop} {p : Nat}, (none : Option Nat) = some p → P := by rintro _ _ ⟨⟩
  exact ⟨fun _ _ => hfalse, fun _ => hfalse, fun _ _ => hnone, fun _ _ => hnone, fun _ _ => hnone, fun _ _ => ⟨rfl, rfl⟩, fun _ => hfalse,
    fun _ _ => hnone, fun _ => hfalse, hfalse, hfalse, hfalse, hfalse, hfalse⟩

theorem supervision_holds {c : RtspConfig} (hrun : (rtspProxy orderly).Runs (fun _ _ _ => True) constructed c) :
    (supervision orderly).Holds (rtspProxy orderly) c := by
  have hmeets : ∀ (c : RtspConfig) (a : RtspAct) (c' : RtspConfig), True → (supervision orderly).Meets c a ∧ (supervision orderly).seen c'.env := by
    intro c a c' _
    refine ⟨?_, trivial⟩
    cases a <;> simp [Protocol.Meets, supervision]
  refine (Protocol.Holds.run (supervision_verified orderly) hmeets hrun ⟨constructed_supervised orderly, fun j => ?_⟩ trivial).1
  exact ⟨rfl, rfl, rfl, fun _ _ => ⟨rfl, rfl, fun _ _ => rfl, rfl⟩⟩

-- No process outlives the one that takes its place, and each is where `stop` will look for it, unless it is still being
-- launched or has been killed already.
theorem one_of_each {c : RtspConfig} (hrun : (rtspProxy orderly).Runs (fun _ _ _ => True) constructed c) {p q : Nat}
    (hp : (c.env.processes p).alive = true) (hq : (c.env.processes q).alive = true)
    (hkind : (c.env.processes p).kind = (c.env.processes q).kind) :
    p = q ∧ (c.env.process (c.env.processes p).kind = some p ∨ c.env.opening (c.env.processes p).kind = some p ∨
      (c.env.processes p).killed = true) := by
  have hinv := (supervision_holds hrun).inv
  exact ⟨hinv.single p q hp hq hkind, hinv.held p hp⟩

def starts : List RtspAct :=
  [.spawn .start, .run .start, .resume .start (.connectPipes 0) (.ok ()), .resume .start (.sleep 2) (.ok ()),
    .resume .start (.connectPipes 1) (.ok ()), .run .start]

def restarts : List RtspAct :=
  [.spawn .monitor, .run .monitor, .run .monitor, .tick (.exit 1), .tick (.exec (some false)), .resume .monitor (.sleep 5) (.ok ()),
    .resume .monitor (.dropLogTask .ffmpeg) (.ok ()), .resume .monitor (.sleep 5) (.ok ()), .run .monitor, .tick (.exec none),
    .resume .monitor (.sleep 5) (.ok ()), .resume .monitor (.sleep 5) (.ok ())]

theorem one_of_each_restarted : ∃ c,
    (rtspProxy true).runActs constructed (starts ++ restarts) = some c ∧ c.env.process .ffmpeg = some 1 ∧
      c.env.opening .ffmpeg = some 2 ∧ ∀ q, (c.env.processes q).alive = true → (c.env.processes q).kind = .ffmpeg → q = 2 := by
  have hend : ((rtspProxy true).runActs constructed (starts ++ restarts)).map
      (fun c => (c.env.process .ffmpeg, c.env.opening .ffmpeg, (c.env.processes 2).alive, (c.env.processes 2).kind)) =
        some (some 1, some 2, true, .ffmpeg) := by
    decide +kernel
  obtain ⟨c, hc, hall⟩ := Option.map_eq_some_iff.mp hend
  simp only [Prod.mk.injEq] at hall
  obtain ⟨hprocess, hopening, halive, hkind⟩ := hall
  refine ⟨c, hc, hprocess, hopening, fun q hq hqkind => ?_⟩
  exact (one_of_each (System.runActs_runs _ _ hc) hq halive (hqkind.trans hkind.symm)).1

-- No process that has not been killed is left behind, nor a reader, nor the file with the access code.
theorem stop_leaves_nothing {c : RtspConfig} (hrun : (rtspProxy true).Runs (fun _ _ _ => True) constructed c)
    (hstopped : c.env.returned .stop = true) : Quiet c.env :=
  ((supervision_holds hrun).inv.stopped hstopped).2.2 rfl

def quits : List RtspAct :=
  [.spawn .stop, .run .stop, .resume .monitor (.connectPipes 2) (.error .cancelled), .tick (.exit 2),
    .resume .monitor (.reap 2) (.ok ()), .run .monitor]

def stops : List RtspAct :=
  [.resume .stop .joinMonitor (.ok ()), .resume .stop (.wait 1 5) (.ok ()), .resume .stop (.wait 0 5) (.error .timeout),
    .resume .stop .dropLogTasks (.ok ())]

theorem stop_leaves_nothing_killed : ∃ c,
    (rtspProxy true).runActs constructed (starts ++ restarts ++ quits ++ stops) = some c ∧ c.env.returned .stop = true ∧
      (c.env.processes 0).alive = true ∧ Quiet c.env := by
  have hend : ((rtspProxy true).runActs constructed (starts ++ restarts ++ quits ++ stops)).map
      (fun c => (c.env.returned .stop, (c.env.processes 0).alive)) = some (true, true) := by
    decide +kernel
  obtain ⟨c, hc, hall⟩ := Option.map_eq_some_iff.mp hend
  obtain ⟨hreturned, halive⟩ := Prod.mk.inj hall
  exact ⟨c, hc, hreturned, halive, stop_leaves_nothing (System.runActs_runs _ _ hc) hreturned⟩

-- Of a `start` that is still under way, `stop` misses the process that is being launched behind its back.
example : ((rtspProxy false).runActs constructed [.spawn .start, .run .start, .spawn .stop, .run .stop]).map
    (fun c => (c.env.returned .stop, (c.env.processes 0).alive, (c.env.processes 0).killed)) = some (true, true, false) := by
  decide +kernel

-- Whatever fails while a process is restarted, the monitor goes on until it is told to stop.
theorem monitor_never_gives_up {c : RtspConfig} {s : Task} (hrun : (rtspProxy orderly).Runs (fun _ _ _ => True) constructed c)
    (hhalted : c.procs .monitor = .halted s) : c.env.running = false ∨ c.env.thrown .monitor = true := by
  have hholds := supervision_holds hrun
  have hproc := hholds.procs .monitor
  rw [hhalted] at hproc
  exact hholds.inv.gaveUp hproc

def lastTask (c : RtspConfig) (j : Task) : Option Task :=
  match c.procs j with
  | .halted s => some s
  | _ => none

theorem lastTask_halted {c : RtspConfig} {j s : Task} (h : lastTask c j = some s) : c.procs j = .halted s := by
  unfold lastTask at h
  split at h
  · next s' hhalted =>
      cases h
      exact hhalted
  · cases h

theorem monitor_never_gives_up_cancelled : ∃ c s,
    (rtspProxy true).runActs constructed (starts ++ restarts ++ quits) = some c ∧ c.procs .monitor = .halted s ∧
      (c.env.running = false ∨ c.env.thrown .monitor = true) := by
  have hend : (((rtspProxy true).runActs constructed (starts ++ restarts ++ quits)).bind fun c => lastTask c .monitor) = some .monitor := by
    decide +kernel
  obtain ⟨c, hc, hlast⟩ := Option.bind_eq_some_iff.mp hend
  have hhalted := lastTask_halted hlast
  exact ⟨c, .monitor, hc, hhalted, monitor_never_gives_up (System.runActs_runs _ _ hc) hhalted⟩

end PandaProxy.Rtsp
