import PandaProxy.FtpProxy.Conversation
import PandaProxy.FtpProxy.Settings

namespace PandaProxy.FtpProxy

open Async FtpQueue Python

namespace Session

open Proxy

def settingsAllowed : Request → List Event → Prop
  | .forward command _ _, earlier => command ∉ statefulCommands → (views earlier).misled = false →
      (views earlier).printer.Alike (views earlier).client
  | .issue _ _, _ => True

-- What the session has recorded is what the client was told of, as the session reads it, lost
-- settings excepted.
structure Recorded (s : ControlSession) (v : Views) : Prop where
  normal : PosixPath.Normal s.cwd.toList
  modes : ∀ name ∈ modeCommands, name ∉ s.lostSettings → v.recorded.mode name = s.state name
  dir : "CWD" ∉ s.lostSettings → v.recorded.dir = PosixPath.components s.cwd.toList
  astray : "CWD" ∈ s.lostSettings → v.astray = true

structure Restored (s : ControlSession) (x : Settings) : Prop where
  modes : ∀ name ∈ modeCommands, x.mode name = s.state name
  dir : x.dir = PosixPath.components s.cwd.toList

-- The printer's session has what the client was told of, lost settings excepted.
structure InForce (s : ControlSession) (v : Views) : Prop where
  modes : ∀ name ∈ modeCommands, name ∉ s.lostSettings → v.printer.mode name = v.client.mode name
  dir : "CWD" ∉ s.lostSettings → v.printer.dir = v.client.dir

theorem Restored.inForce {s : ControlSession} {v : Views} (h : Restored s v.printer) (hrec : Recorded s v)
    (ha : v.client.Alike v.recorded) : InForce s v where
  modes name hn hl := by
    rw [h.modes name hn, ha.modes name hn, hrec.modes name hn hl]
  dir hl := by
    rw [h.dir, ha.dir, hrec.dir hl]

structure Agree (s : ControlSession) (v : Views) : Prop where
  recorded : Recorded s v
  inForce : s.upstream = true → InForce s v

structure SameViews (v v' : Views) : Prop where
  printer : v'.printer = v.printer
  client : v'.client = v.client
  recorded : v'.recorded = v.recorded
  serving : v'.serving = v.serving
  astray : v'.astray = v.astray
  misled : v'.misled = v.misled

structure Untouched (s s' : ControlSession) : Prop where
  state : s'.state = s.state
  cwd : s'.cwd = s.cwd
  lost : s'.lostSettings = s.lostSettings
  upstream : s'.upstream = s.upstream

def Calm (v : Views) : Prop := ∀ request, v.asked = some request → request.said.1 ∉ statefulCommands

def Held (B : ControlSession → Views → Prop) (s : ControlSession) (log : List Event) : Prop :=
  Calm (views log) ∧ B s (views log)

structure Lasting (B : ControlSession → Views → Prop) : Prop where
  same : ∀ {s v v'}, SameViews v v' → B s v → B s v'
  untouched : ∀ {s s' v}, Untouched s s' → B s v → B s' v

theorem Recorded.carry {s s' : ControlSession} {v v' : Views} (h : Recorded s v)
    (hs : Untouched s s') (hv : SameViews v v') : Recorded s' v' where
  normal := hs.cwd ▸ h.normal
  modes name hn hl := by
    rw [hv.recorded, hs.state]
    exact h.modes name hn (hs.lost ▸ hl)
  dir hl := by
    rw [hv.recorded, hs.cwd]
    exact h.dir (hs.lost ▸ hl)
  astray hl := hv.astray.trans (h.astray (hs.lost ▸ hl))

theorem Restored.carry {s s' : ControlSession} {x : Settings} (h : Restored s x) (hs : Untouched s s') :
    Restored s' x where
  modes name hn := by
    rw [hs.state]
    exact h.modes name hn
  dir := hs.cwd ▸ h.dir

theorem InForce.carry {s s' : ControlSession} {v v' : Views} (h : InForce s v) (hs : Untouched s s')
    (hv : SameViews v v') : InForce s' v' where
  modes name hn hl := by
    rw [hv.printer, hv.client]
    exact h.modes name hn (hs.lost ▸ hl)
  dir hl := by
    rw [hv.printer, hv.client]
    exact h.dir (hs.lost ▸ hl)

theorem Agree.carry {s s' : ControlSession} {v v' : Views} (h : Agree s v) (hs : Untouched s s')
    (hv : SameViews v v') : Agree s' v' where
  recorded := h.recorded.carry hs hv
  inForce hu := (h.inForce (hs.upstream ▸ hu)).carry hs hv

theorem Untouched.refl (s : ControlSession) : Untouched s s := ⟨rfl, rfl, rfl, rfl⟩

theorem SameViews.refl (v : Views) : SameViews v v := ⟨rfl, rfl, rfl, rfl, rfl, rfl⟩

theorem hear_same {v : Views} {request : Request} (h : request.said.1 ∉ statefulCommands)
    (reply : Option String) : SameViews v { v.hear reply request with asked := none } := by
  have hcwd : request.said.1 ≠ "CWD" := by
    intro hc
    rw [hc] at h
    exact h (by decide)
  have hcdup : request.said.1 ≠ "CDUP" := by
    intro hc
    rw [hc] at h
    exact h (by decide)
  have happly := Settings.apply_other h v.printer request.said.2
  cases request with
  | issue command argument =>
      simp only [Views.hear]
      split
      · exact ⟨happly, rfl, rfl, rfl, rfl, rfl⟩
      · exact ⟨rfl, rfl, rfl, rfl, by simp [hcwd], rfl⟩
  | forward command argument line =>
      simp only [Views.hear]
      split
      · exact ⟨happly, rfl, rfl, rfl, by simp [absoluteCwd, hcwd], by simp [relativeCwd, hcwd, hcdup]⟩
      · exact ⟨rfl, rfl, rfl, rfl, rfl, rfl⟩

theorem answered_same {v : Views} (h : Calm v) (reply : Option String) :
    SameViews v (v.step (.answered reply)) ∧ Calm (v.step (.answered reply)) := by
  simp only [Views.step]
  cases hasked : v.asked with
  | none => exact ⟨.refl v, h⟩
  | some request => exact ⟨hear_same (h request hasked) reply, fun _ hr => by cases hr⟩

theorem asked_same (request : Request) (h : request.said.1 ∉ statefulCommands) (v : Views)
    (view : Option Relay) :
    SameViews v (v.step (.asked request view)) ∧ Calm (v.step (.asked request view)) := by
  refine ⟨⟨rfl, rfl, rfl, rfl, rfl, rfl⟩, fun r hr => ?_⟩
  cases hr
  exact h

theorem told_other {v : Views} {line : String} (h : Str.startswith line "2" = false) :
    v.step (.told line) = v := by
  simp only [Views.step, h]
  split <;> rfl

theorem told_fields (v : Views) (line : String) : (v.step (.told line)).asked = v.asked ∧
    ((v.step (.told line)).misled = false → v.misled = false) := by
  simp only [Views.step]
  split
  · split
    · exact ⟨rfl, fun hm => (Bool.or_eq_false_iff.mp hm).1⟩
    · exact ⟨rfl, id⟩
  · exact ⟨rfl, id⟩

section

variable {B : ControlSession → Views → Prop} (hB : Lasting B)

include hB

theorem Held.same {s : ControlSession} {log : List Event} {v : Event}
    (hs : SameViews (views log) ((views log).step v)) (hc : Calm ((views log).step v)) (h : Held B s log) :
    Held B s (v :: log) :=
  ⟨hc, hB.same hs h.2⟩

theorem held_untouched {f : ControlSession → ControlSession} (hf : ∀ s, Untouched s (f s))
    (s : ControlSession) (log : List Event) (h : Held B s log) : Held B (f s) log :=
  ⟨h.1, hB.untouched (hf s) h.2⟩

theorem neutral_answered {i : Op} (hi : ∀ v, emits i v → ∃ reply, v = .answered reply) :
    Neutral settingsAllowed (Held B) i where
  stays v s log hv h := by
    obtain ⟨reply, rfl⟩ := hi v hv
    obtain ⟨hs, hc⟩ := answered_same h.1 reply
    exact h.same hB hs hc
  covers request _ _ he := by
    subst he
    obtain ⟨reply, hr⟩ := hi _ ⟨none, rfl⟩
    cases hr

theorem neutral_closeUpstream : Neutral settingsAllowed (Held B) .closeUpstream where
  stays v s log hv h := by
    cases hv
    exact h.same hB (.refl _) h.1
  covers _ _ _ he := by cases he

theorem neutral_taskDone (n : Nat) : Neutral settingsAllowed (Held B) (.taskDone n) where
  stays v s log hv h := by
    obtain ⟨phase, rfl⟩ := hv
    exact h.same hB (.refl _) h.1
  covers _ _ _ he := by cases he

theorem neutral_issue {command : String} (h : command ∈ ownCommands) (argument : String) :
    Neutral settingsAllowed (Held B) (.writeUpstream (.issue command argument)) where
  stays v s log hv hI := by
    obtain ⟨view, rfl⟩ := hv
    have hsaid : (Request.issue command argument).said.1 ∉ statefulCommands := by
      rw [Request.said_issue (ownCommands_verb h)]
      exact ownCommands_stateless h
    obtain ⟨hs, hc⟩ := asked_same (.issue command argument) hsaid (views log) view
    exact hI.same hB hs hc
  covers request _ _ he _ := by
    cases he
    trivial

omit hB in
theorem neutral_writeClient (hT : ∀ s v line, B s v → B s (v.step (.told line))) (line : String) :
    Neutral settingsAllowed (Held B) (.writeClient line) where
  stays v s log hv h := by
    cases hv
    obtain ⟨ha, _⟩ := told_fields (views log) line
    exact ⟨fun request hr => h.1 request (ha ▸ hr), hT _ _ _ h.2⟩
  covers _ _ _ he := by cases he

abbrev HeldQuiet (B : ControlSession → Views → Prop) (f : ControlSession → ControlSession) : Prop :=
  ∀ s log, Held B s log → Held B (f s) log

theorem held_asks : Asks (Neutral settingsAllowed (Held B)) (HeldQuiet B) where
  monotonic := .silent (fun _ hv => hv)
  issue _ argument h := neutral_issue hB h argument
  drainUpstream := .silent (fun _ hv => hv)
  readReply := neutral_answered hB (fun _ hv => hv)
  touch _ := held_untouched hB (fun _ => ⟨rfl, rfl, rfl, rfl⟩)

theorem held_talks (hT : ∀ s v line, B s v → B s (v.step (.told line))) :
    Talks (Neutral settingsAllowed (Held B)) (HeldQuiet B) where
  toAsks := held_asks hB
  refuse line _ := neutral_writeClient hT line
  writeClient := neutral_writeClient hT
  drainClient := .silent (fun _ hv => hv)
  endpointDone _ := .silent (fun _ hv => hv)
  createReply _ := .silent (fun _ hv => hv)
  waitReply _ := .silent (fun _ hv => hv)
  replyResult := neutral_answered hB (fun _ hv => hv)
  moved := .silent (fun _ hv => hv)
  awaitReply _ := neutral_answered hB (fun _ hv => hv)
  cancelReply := .silent (fun _ hv => hv)
  awaitReplyCancelled := .silent (fun _ hv => hv)
  authenticate := held_untouched hB (fun _ => ⟨rfl, rfl, rfl, rfl⟩)
  passiveMode _ := held_untouched hB (fun _ => ⟨rfl, rfl, rfl, rfl⟩)

theorem held_hands : Hands (Neutral settingsAllowed (Held B)) where
  setCommandSeen _ := .silent (fun _ hv => hv)
  taskDone := neutral_taskDone hB
  setEndpoint _ _ _ := .silent (fun _ hv => hv)

theorem held_closes : Closes (Neutral settingsAllowed (Held B)) (HeldQuiet B) where
  closeUpstream := neutral_closeUpstream hB
  upstreamClosed := .silent (fun _ hv => hv)
  abortUpstream := .silent (fun _ hv => hv)
  queueRelease := .silent (fun _ hv => hv)
  yield := held_untouched hB (fun _ => ⟨rfl, rfl, rfl, rfl⟩)

omit hB in
theorem held_queues : Queues (Neutral settingsAllowed (Held B)) := by
  constructor <;> intros <;> exact .silent (fun _ hv => hv)

theorem held_relays : Relays (Neutral settingsAllowed (Held B)) (HeldQuiet B) := by
  constructor <;> intros <;> first
  | exact .silent (fun _ hv => hv)
  | exact held_untouched hB (fun _ => ⟨rfl, rfl, rfl, rfl⟩)

end

def Aside (serving : Option (List UInt8)) : Prop :=
  ∀ raw, serving = some raw → (parseLine (decodeLine raw)).1 ∉ statefulCommands

theorem told_aside {v : Views} (h : Aside v.serving) (line : String) :
    (v.step (.told line)).printer = v.printer ∧ (v.step (.told line)).client = v.client ∧
      (v.step (.told line)).recorded = v.recorded ∧ (v.step (.told line)).astray = v.astray ∧
      Aside (v.step (.told line)).serving := by
  simp only [Views.step]
  split
  · next raw hs =>
      have hread := h raw hs
      have hgiven : (wireLine (decodeLine raw)).1 ∉ statefulCommands := by
        rwa [parseLine_wire] at hread
      split
      · exact ⟨rfl, Settings.apply_other hgiven _ _, Settings.apply_other hread _ _, rfl, nofun⟩
      · exact ⟨rfl, rfl, rfl, rfl, h⟩
  · exact ⟨rfl, rfl, rfl, rfl, h⟩

structure AtWork (X : Option (List UInt8) → Prop) (s : ControlSession) (v : Views) : Prop where
  agree : v.misled = false → Agree s v
  serving : X v.serving

structure SettingUp (X : Option (List UInt8) → Prop) (s : ControlSession) (v : Views) : Prop where
  recorded : v.misled = false → Recorded s v
  serving : X v.serving

structure Ready (s : ControlSession) (v : Views) : Prop where
  recorded : v.misled = false → Recorded s v
  inForce : v.misled = false → InForce s v
  lost : s.lostSettings = []
  serving : Aside v.serving

theorem atWork_lasting (X : Option (List UInt8) → Prop) : Lasting (AtWork X) where
  same hv h := ⟨fun hm => (h.agree (hv.misled ▸ hm)).carry (.refl _) hv, hv.serving ▸ h.serving⟩
  untouched hs h := ⟨fun hm => (h.agree hm).carry hs (.refl _), h.serving⟩

theorem ready_lasting : Lasting Ready where
  same hv h := ⟨fun hm => (h.recorded (hv.misled ▸ hm)).carry (.refl _) hv,
    fun hm => (h.inForce (hv.misled ▸ hm)).carry (.refl _) hv, h.lost, hv.serving ▸ h.serving⟩
  untouched hs h := ⟨fun hm => (h.recorded hm).carry hs (.refl _), fun hm => (h.inForce hm).carry hs (.refl _),
    hs.lost.trans h.lost, h.serving⟩

theorem Recorded.told {s : ControlSession} {v v' : Views} (h : Recorded s v)
    (hr : v'.recorded = v.recorded) (ha : v'.astray = v.astray) : Recorded s v' where
  normal := h.normal
  modes := hr ▸ h.modes
  dir := hr ▸ h.dir
  astray hl := ha.trans (h.astray hl)

theorem InForce.told {s : ControlSession} {v v' : Views} (h : InForce s v)
    (hp : v'.printer = v.printer) (hc : v'.client = v.client) : InForce s v' where
  modes := hp ▸ hc ▸ h.modes
  dir := hp ▸ hc ▸ h.dir

theorem atWork_told (s : ControlSession) (v : Views) (line : String) (h : AtWork Aside s v) :
    AtWork Aside s (v.step (.told line)) := by
  obtain ⟨hp, hc, hr, ha, hs⟩ := told_aside h.serving line
  refine ⟨fun hm => ?_, hs⟩
  have hagree := h.agree ((told_fields v line).2 hm)
  exact ⟨hagree.recorded.told hr ha, fun hu => (hagree.inForce hu).told hp hc⟩

theorem ready_told (s : ControlSession) (v : Views) (line : String) (h : Ready s v) :
    Ready s (v.step (.told line)) := by
  obtain ⟨hp, hc, hr, ha, hs⟩ := told_aside h.serving line
  have hmis := (told_fields v line).2
  exact ⟨fun hm => (h.recorded (hmis hm)).told hr ha, fun hm => (h.inForce (hmis hm)).told hp hc, h.lost, hs⟩

theorem Ready.alike {s : ControlSession} {v : Views} (h : Ready s v) (hm : v.misled = false) :
    v.printer.Alike v.client where
  modes name hn := (h.inForce hm).modes name hn (by simp [h.lost])
  dir := (h.inForce hm).dir (by simp [h.lost])

theorem Ready.atWork {s : ControlSession} {v : Views} (h : Ready s v) : AtWork Aside s v :=
  ⟨fun hm => ⟨h.recorded hm, fun _ => h.inForce hm⟩, h.serving⟩

theorem AtWork.settingUp {X : Option (List UInt8) → Prop} {s : ControlSession} {v : Views}
    (h : AtWork X s v) : SettingUp X s v := ⟨fun hm => (h.agree hm).recorded, h.serving⟩

theorem Held.imp {B B' : ControlSession → Views → Prop} {s s' : ControlSession} {log : List Event}
    (h : Held B s log) (hBB' : B s (views log) → B' s' (views log)) : Held B' s' log :=
  ⟨h.1, hBB' h.2⟩

variable {lab : Label → ControlSession → List Event → Prop} {j : Nat} {l : Label}

abbrev settingsWp (lab : Label → ControlSession → List Event → Prop) (j : Nat) (l : Label) {α : Type}
    (c : Session α) (Q : Except Exc α → ControlSession → Proxy → Prop) (s : ControlSession) (e : Proxy) :
    Prop :=
  logWp settingsAllowed lab j l c Q s e

theorem releaseUpstream_held {X : Option (List UInt8) → Prop} {s : ControlSession} {e : Proxy}
    (h : Held (SettingUp X) s (e.log j)) :
    settingsWp lab j l releaseUpstream (fun _ s' e' => Held (AtWork X) s' (e'.log j)) s e := by
  refine wp_bind _ _ s e (wp_get.mpr (wp_bind _ _ s e ((wp_modify _).mpr ?_)))
  have h' : Held (AtWork X) { s with upstream := false } (e.log j) := by
    refine h.imp (fun h => ⟨fun hm => ?_, h.serving⟩)
    have hold := h.recorded hm
    exact ⟨⟨hold.normal, hold.modes, hold.dir, hold.astray⟩, nofun⟩
  exact wp_mono _ (fun r s e hr => by cases r <;> exact hr) _ e
    (speaks_robust.releaseRest (held_closes (atWork_lasting X)) s.upstream _ e h')

theorem speaks_releaseUpstream (X : Option (List UInt8) → Prop) :
    Speaks settingsAllowed lab j l (Held (AtWork X)) (Held (AtWork X)) releaseUpstream := by
  intro s e h
  exact wp_mono _ (fun r s e hr => by cases r <;> exact hr) s e
    (releaseUpstream_held (h.imp AtWork.settingUp))

theorem Recorded.forget {s : ControlSession} {v v' : Views} {name : String} (h : Recorded s v)
    (hc : v'.recorded = v.recorded) (ha : v'.astray = (v.astray || name == "CWD")) :
    Recorded (ControlSession.forget name s) v' := by
  have hlost : ∀ n, n ∈ (ControlSession.forget name s).lostSettings ↔ n = name ∨ n ∈ s.lostSettings := by
    intro n
    simp only [ControlSession.forget, ControlSession.addLost]
    split <;> split <;> simp_all [ControlSession.setState]
  by_cases hname : name = "CWD"
  · subst hname
    refine ⟨?_, ?_, fun hl => absurd ((hlost "CWD").mpr (.inl rfl)) hl, fun _ => by simp [ha]⟩
    · simpa [ControlSession.forget, ControlSession.addLost] using PosixPath.normal_root
    · intro n hn hl
      rw [hlost, not_or] at hl
      rw [hc, h.modes n hn hl.2]
      simp [ControlSession.forget, ControlSession.addLost]
  · have hstate : ∀ n, n ≠ name → (ControlSession.forget name s).state n = s.state n := by
      intro n hn
      simp [ControlSession.forget, ControlSession.addLost, ControlSession.setState, hname, hn]
    have hcwd : (ControlSession.forget name s).cwd = s.cwd := by
      simp [ControlSession.forget, ControlSession.addLost, ControlSession.setState, hname]
    refine ⟨hcwd ▸ h.normal, ?_, ?_, ?_⟩
    · intro n hn hl
      rw [hlost, not_or] at hl
      rw [hc, h.modes n hn hl.2, hstate n hl.1]
    · intro hl
      rw [hlost, not_or] at hl
      rw [hc, h.dir hl.2, hcwd]
    · intro hl
      rcases (hlost "CWD").mp hl with he | hl
      · exact absurd he.symm hname
      · rw [ha, h.astray hl, Bool.true_or]

structure Replaying (X : Option (List UInt8) → Prop) (lost : List String) (x : Settings)
    (s : ControlSession) (v : Views) : Prop where
  recorded : v.misled = false → Recorded s v
  alike : v.misled = false → v.client.Alike v.recorded
  serving : X v.serving
  lost : s.lostSettings = lost
  upstream : s.upstream = true
  printer : v.printer = x

theorem replaying_lasting (X : Option (List UInt8) → Prop) (lost : List String) (x : Settings) :
    Lasting (Replaying X lost x) where
  same hv h := ⟨fun hm => (h.recorded (hv.misled ▸ hm)).carry (.refl _) hv,
    fun hm => hv.client ▸ hv.recorded ▸ h.alike (hv.misled ▸ hm), hv.serving ▸ h.serving, h.lost, h.upstream,
    hv.printer.trans h.printer⟩
  untouched hs h := ⟨fun hm => (h.recorded hm).carry hs (.refl _), h.alike, h.serving, hs.lost.trans h.lost,
    hs.upstream.trans h.upstream, h.printer⟩

theorem Untouched.trans {s s' s'' : ControlSession} (h : Untouched s s') (h' : Untouched s' s'') :
    Untouched s s'' :=
  ⟨h'.state.trans h.state, h'.cwd.trans h.cwd, h'.lost.trans h.lost, h'.upstream.trans h.upstream⟩

theorem replayAll_held {X : Option (List UInt8) → Prop} {lost : List String}
    (settings : List (String × String)) (hsettings : ∀ p ∈ settings, p.1 ∈ statefulCommands) :
    ∀ (s : ControlSession) (e : Proxy) (x : Settings), Held (Replaying X lost x) s (e.log j) →
      settingsWp lab j l (replayAll settings) (fun r s' e' =>
        match r with
        | .ok true => Untouched s s' ∧
            Held (Replaying X lost (settings.foldl (fun x p => x.apply p.1 p.2) x)) s' (e'.log j)
        | .ok false => Held (SettingUp X) s' (e'.log j)
        | .error _ => True) s e := by
  induction settings with
  | nil => exact fun s e x h => ⟨.refl s, h⟩
  | cons setting rest ih =>
      obtain ⟨command, argument⟩ := setting
      have hsaid := said_stateful (hsettings _ List.mem_cons_self) argument
      have ih := ih fun p hp => hsettings p (List.mem_cons_of_mem _ hp)
      intro s e x h
      refine wp_bind _ _ s e (logWp_sendUpstream h.2.upstream trivial (fun now reply view e₁ h₁ => ?_)
        (fun _ _ _ => trivial))
      have hcalm : Calm (views (e₁.log j)) := by
        rw [h₁]
        exact fun request hr => by cases hr
      have htouch : Untouched s { s with upstreamLastUsed := now } := ⟨rfl, rfl, rfl, rfl⟩
      have hold := (replaying_lasting X lost x).untouched htouch h.2
      show settingsWp lab j l (if accepted reply then _ else _) _ _ e₁
      cases hacc : accepted reply with
      | true =>
          have hviews : views (e₁.log j) = { (views (e.log j)) with
              printer := (views (e.log j)).printer.apply command argument, asked := none } := by
            rw [h₁]
            simp only [views, Views.step, Views.hear, hsaid, hacc, if_true]
          have hnext : Held (Replaying X lost (x.apply command argument))
              { s with upstreamLastUsed := now } (e₁.log j) := by
            refine ⟨hcalm, ?_⟩
            rw [hviews]
            refine ⟨fun hm => ?_, hold.alike, hold.serving, hold.lost, hold.upstream,
              congrArg (·.apply command argument) hold.printer⟩
            have hrec := hold.recorded hm
            exact ⟨hrec.normal, hrec.modes, hrec.dir, hrec.astray⟩
          refine wp_mono _ ?_ _ e₁ (ih _ e₁ _ hnext)
          intro r s' e' h'
          cases r with
          | error _ => trivial
          | ok b =>
              cases b with
              | false => exact h'
              | true => exact ⟨htouch.trans h'.1, h'.2⟩
      | false =>
          have hviews : views (e₁.log j) = { (views (e.log j)) with
              astray := (views (e.log j)).astray || command == "CWD", asked := none } := by
            rw [h₁]
            simp only [views, Views.step, Views.hear, hsaid, hacc]
            rfl
          refine ⟨hcalm, ?_⟩
          rw [hviews]
          exact ⟨fun hm => (hold.recorded hm).forget rfl rfl, hold.serving⟩

theorem foldl_modes (state : String → Option String) (names : List String) (x : Settings)
    (hnames : ∀ n ∈ names, n ∈ modeCommands) :
    let y := (names.filterMap fun name => (state name).map fun value => (name, value)).foldl
      (fun x p => x.apply p.1 p.2) x
    (∀ n, y.mode n = if n ∈ names then (state n).or (x.mode n) else x.mode n) ∧ y.dir = x.dir := by
  induction names generalizing x with
  | nil => exact ⟨fun n => by simp, rfl⟩
  | cons name rest ih =>
      have hrest := fun n hn => hnames n (List.mem_cons_of_mem _ hn)
      cases hs : state name with
      | none =>
          simp only [List.filterMap_cons, hs, Option.map_none]
          obtain ⟨hmode, hdir⟩ := ih x hrest
          refine ⟨fun n => ?_, hdir⟩
          rw [hmode n]
          by_cases hn : n = name
          · simp [hn, hs]
          · simp [hn]
      | some value =>
          simp only [List.filterMap_cons, hs, Option.map_some, List.foldl_cons,
            Settings.apply_mode (hnames name List.mem_cons_self)]
          obtain ⟨hmode, hdir⟩ := ih { x with mode := Function.update x.mode name (some value) } hrest
          refine ⟨fun n => ?_, hdir⟩
          rw [hmode n]
          by_cases hn : n = name
          · simp [hn, hs]
          · simp [hn]

theorem replay_restored {s : ControlSession} (h : PosixPath.Normal s.cwd.toList) :
    Restored s ((replayList s).foldl (fun x p => x.apply p.1 p.2) .initial) := by
  obtain ⟨hmode, hdir⟩ := foldl_modes s.state modeCommands .initial (fun _ hn => hn)
  rw [replayList, List.foldl_append]
  split
  · next hcwd =>
      refine ⟨fun name hn => ?_, ?_⟩
      · rw [List.foldl_nil]
        exact (hmode name).trans (by simp [hn, Settings.initial])
      · rw [List.foldl_nil]
        refine hdir.trans ?_
        rcases hcwd with hcwd | hcwd
        · rw [hcwd] at h
          exact absurd h.1 (by decide)
        · rw [hcwd]
          exact (PosixPath.components_sep []).symm
  · refine ⟨fun name hn => ?_, ?_⟩
    · rw [List.foldl_cons, List.foldl_nil]
      exact (hmode name).trans (by simp [hn, Settings.initial])
    · rw [List.foldl_cons, List.foldl_nil]
      exact PosixPath.resolve_normal h _

theorem setUp_held {X : Option (List UInt8) → Prop} {lost : List String} {s : ControlSession}
    {e : Proxy} (h : Held (Replaying X lost .initial) s (e.log j)) :
    settingsWp lab j l setUp (fun r s' e' =>
      match r with
      | .ok b => Held (AtWork X) s' (e'.log j) ∧ (b = true → s'.upstream = true ∧ s'.lostSettings = lost)
      | .error _ => True) s e := by
  have hB := replaying_lasting X lost .initial
  have hc : Composes _ _ (Speaks settingsAllowed lab j l (Held (Replaying X lost .initial))
    (fun _ _ => True)) := speaks_composes (fun _ _ _ => trivial)
  have hgiveUp : ∀ s e, Held (SettingUp X) s (e.log j) →
      settingsWp lab j l (releaseUpstream >>= fun _ => pure false) (fun r s' e' =>
        match r with
        | .ok b => Held (AtWork X) s' (e'.log j) ∧ (b = true → s'.upstream = true ∧ s'.lostSettings = lost)
        | .error _ => True) s e := by
    intro s e h
    refine wp_bind _ _ s e (wp_mono _ ?_ s e (releaseUpstream_held h))
    intro r s' e' h'
    cases r with
    | ok _ => exact ⟨h', nofun⟩
    | error _ => trivial
  have hback : ∀ {x s log}, Held (Replaying X lost x) s log → Held (SettingUp X) s log :=
    fun h => h.imp (fun h => ⟨h.recorded, h.serving⟩)
  refine wp_bind _ _ s e (wp_mono _ ?_ s e (hc.readUpstreamReply (held_asks hB) s e h))
  intro r s₁ e₁ h₁
  cases r with
  | error x => trivial
  | ok greeting =>
      dsimp only
      split
      · exact hgiveUp s₁ e₁ (hback h₁)
      refine wp_bind _ _ s₁ e₁ (wp_mono _ ?_ s₁ e₁ (hc.loginUpstream (held_asks hB) s₁ e₁ h₁))
      intro r s₂ e₂ h₂
      cases r with
      | error x => trivial
      | ok loggedIn =>
          dsimp only
          split
          · exact hgiveUp s₂ e₂ (hback h₂)
          refine wp_bind _ _ s₂ e₂ (wp_bind _ _ s₂ e₂ (wp_get.mpr ?_))
          refine wp_mono _ ?_ s₂ e₂ (replayAll_held _ (replayList_stateful s₂) s₂ e₂ _ h₂)
          intro r s₃ e₃ h₃
          cases r with
          | error x => trivial
          | ok replayed =>
              cases replayed with
              | false => exact hgiveUp s₃ e₃ h₃
              | true =>
                  have hdone : Held (AtWork X) s₃ (e₃.log j) := by
                    refine h₃.2.imp (fun h => ⟨fun hm => ⟨h.recorded hm, fun _ => ?_⟩, h.serving⟩)
                    refine Restored.inForce ?_ (h.recorded hm) (h.alike hm)
                    rw [h.printer]
                    exact (replay_restored (h₃.1.cwd ▸ (h.recorded hm).normal)).carry h₃.1
                  refine wp_bind _ _ s₃ e₃ (logWp_silent (i := .monotonic) (fun _ hv => hv) (fun r e₄ h₄ => ?_))
                  cases r with
                  | error x => trivial
                  | ok now =>
                      refine wp_bind _ _ s₃ e₄ ((wp_modify _).mpr ⟨?_, fun _ => ⟨?_, ?_⟩⟩)
                      · rw [h₄]
                        exact held_untouched (atWork_lasting X) (f := fun s => { s with upstreamLastUsed := now })
                          (fun _ => ⟨rfl, rfl, rfl, rfl⟩) s₃ _ hdone
                      · exact h₃.2.2.upstream
                      · exact h₃.2.2.lost

structure Queued (X : Option (List UInt8) → Prop) (lost : List String) (s : ControlSession)
    (v : Views) : Prop where
  atWork : AtWork X s v
  lost : s.lostSettings = lost
  upstream : s.upstream = false

theorem queued_lasting (X : Option (List UInt8) → Prop) (lost : List String) :
    Lasting (Queued X lost) where
  same hv h := ⟨(atWork_lasting X).same hv h.atWork, h.lost, h.upstream⟩
  untouched hs h := ⟨(atWork_lasting X).untouched hs h.atWork, hs.lost.trans h.lost,
    hs.upstream.trans h.upstream⟩

abbrev Ensured (X : Option (List UInt8) → Prop) (lost : List String) (j : Nat) :
    Except Exc Bool → ControlSession → Proxy → Prop
  | .ok b, s, e => Held (AtWork X) s (e.log j) ∧ (b = true → s.upstream = true ∧ s.lostSettings = lost)
  | .error _, _, _ => True

theorem connect_held {X : Option (List UInt8) → Prop} {lost : List String} {s : ControlSession}
    {e : Proxy} (h : Held (Queued X lost) s (e.log j)) :
    settingsWp lab j l connect (Ensured X lost j) s e := by
  refine wp_bind _ _ s e (wp_attempt _ s e (logWp_openConnection (fun e₁ h₁ => ?_) (fun x e₁ h₁ => ?_)))
  · refine wp_bind _ _ s e₁ ((wp_modify _).mpr ?_)
    refine wp_mono _ (fun r s e hr => by cases r <;> exact hr) _ e₁ (@setUp_held lab j l X lost _ _ ?_)
    rw [h₁]
    refine ⟨nofun, fun hm => ?_, fun hm => ?_, h.2.atWork.serving, h.2.lost, rfl, rfl⟩
    · have hrec := (h.2.atWork.agree (Bool.or_eq_false_iff.mp hm).1).recorded
      exact ⟨hrec.normal, hrec.modes, hrec.dir, hrec.astray⟩
    · have halike := (Bool.or_eq_false_iff.mp hm).2
      rw [Bool.not_eq_false', decide_eq_true_iff] at halike
      exact halike
  · show settingsWp lab j l (if _ then _ else _) _ s e₁
    split
    · refine wp_bind _ _ s e₁ (wp_mono _ ?_ s e₁ (releaseUpstream_held (X := X) ?_))
      · intro r s' e' h'
        cases r with
        | ok _ => exact ⟨h', nofun⟩
        | error _ => trivial
      · rw [h₁]
        exact h.imp (fun h => h.atWork.settingUp)
    · trivial

theorem ensureUpstream_held {X : Option (List UInt8) → Prop} {s : ControlSession} {e : Proxy}
    (priority : Int) (h : Held (AtWork X) s (e.log j)) :
    settingsWp lab j l (ensureUpstream priority) (Ensured X s.lostSettings j) s e := by
  refine wp_bind _ _ s e (wp_get.mpr ?_)
  dsimp only
  split
  · next hu => exact ⟨h, fun _ => ⟨hu, rfl⟩⟩
  · next hu =>
      have hqueued : Held (Queued X s.lostSettings) s (e.log j) :=
        h.imp (fun h => ⟨h, rfl, by simpa using hu⟩)
      have hB := queued_lasting X s.lostSettings
      refine wp_bind _ _ s e (wp_mono _ ?_ s e (speaks_robust.acquireSlot held_queues priority s e hqueued))
      intro r s₁ e₁ h₁
      cases r with
      | error x => trivial
      | ok acquired =>
          dsimp only
          split
          · exact ⟨h₁.imp Queued.atWork, nofun⟩
          · refine wp_bind _ _ s₁ e₁ ((wp_modify _).mpr (connect_held ?_))
            exact held_untouched hB (f := fun s => { s with holdsSlot := true })
              (fun _ => ⟨rfl, rfl, rfl, rfl⟩) s₁ _ h₁

theorem speaks_cancelDataRelay {B : ControlSession → Views → Prop} (hB : Lasting B) :
    Speaks settingsAllowed lab j l (Held B) (Held B) cancelDataRelay :=
  speaks_robust.toComposes.cancelDataRelay (held_relays hB)

section

variable {line : String} {s : ControlSession} {e : Proxy}

theorem speaks_aside : Composes (Neutral settingsAllowed (Held (AtWork Aside))) (HeldQuiet (AtWork Aside))
    (Speaks settingsAllowed lab j l (Held (AtWork Aside)) (fun _ _ => True)) :=
  speaks_composes (fun _ _ _ => trivial)

theorem aside_talks :
    Talks (Neutral settingsAllowed (Held (AtWork Aside))) (HeldQuiet (AtWork Aside)) :=
  held_talks (atWork_lasting Aside) atWork_told

theorem aside_weaken {B : ControlSession → Views → Prop} {α : Type} {c : Session α}
    (hc : Speaks settingsAllowed lab j l (Held B) (Held B) c) :
    Speaks settingsAllowed lab j l (Held B) (fun _ _ => True) c :=
  Keeps.weaken (fun _ _ _ => trivial) hc

theorem ready_composes : Composes (Neutral settingsAllowed (Held Ready)) (HeldQuiet Ready)
    (Speaks settingsAllowed lab j l (Held Ready) (fun _ _ => True)) :=
  speaks_composes (fun _ _ _ => trivial)

theorem ready_talks : Talks (Neutral settingsAllowed (Held Ready)) (HeldQuiet Ready) :=
  held_talks ready_lasting ready_told

theorem ready_cancelDataRelay :
    Speaks settingsAllowed lab j l (Held Ready) (fun _ _ => True) cancelDataRelay :=
  aside_weaken (speaks_cancelDataRelay ready_lasting)

theorem ready_releaseUpstream :
    Speaks settingsAllowed lab j l (Held Ready) (fun _ _ => True) releaseUpstream := by
  refine aside_weaken (speaks_robust.releaseUpstream (held_closes ready_lasting) ?_)
  intro s log hI
  refine hI.imp (fun h => ⟨fun hm => ?_, fun hm => ?_, h.lost, h.serving⟩)
  · have hrec := h.recorded hm
    exact ⟨hrec.normal, hrec.modes, hrec.dir, hrec.astray⟩
  · have hin := h.inForce hm
    exact ⟨hin.modes, hin.dir⟩

theorem recordReply_other {command argument : String} (hc : command ∉ statefulCommands) (reply : String) (s : ControlSession) :
    recordReply command argument reply s = s := by
  have hne : command ∉ ["CWD", "CDUP"] := by
    intro hin
    apply hc
    revert hin
    simp only [statefulCommands, List.mem_cons]
    tauto
  simp only [recordReply, recordAccepted, hne, hc, if_false, ite_self]

theorem ready_forward (hc : (parseLine line).1 ∉ statefulCommands) :
    Speaks settingsAllowed lab j l (Held Ready) (fun _ _ => True) (forward (parseLine line).1 (parseLine line).2 line) := by
  have hsaid : (wireLine line).1 ∉ statefulCommands := by rwa [parseLine_wire] at hc
  refine ready_composes.forward ready_cancelDataRelay ready_releaseUpstream ready_talks ?_ ?_
  · refine ⟨fun v s log hv hI => ?_, fun request s log he hI => ?_⟩
    · obtain ⟨view, rfl⟩ := hv
      obtain ⟨hs, hcalm⟩ := asked_same (.forward _ _ line) hsaid (views log) view
      exact hI.same ready_lasting hs hcalm
    · cases he
      exact fun _ hm => hI.2.alike hm
  · intro reply s log hI
    rw [recordReply_other hc]
    exact hI

theorem aside_connectAndForward (hc : (parseLine line).1 ∉ statefulCommands) {s : ControlSession} {e : Proxy}
    (h : Held (AtWork Aside) s (e.log j)) (hl : s.lostSettings = []) :
    settingsWp lab j l (connectAndForward (parseLine line).1 (parseLine line).2 line)
      (Ends (fun s e => Held (AtWork Aside) s (e.log j)) (fun _ _ => True)) s e := by
  refine wp_bind _ _ s e (wp_mono _ ?_ s e (ensureUpstream_held _ h))
  intro r s₁ e₁ h₁
  cases r with
  | error x => trivial
  | ok connected =>
      cases connected with
      | false =>
          exact speaks_aside.bind (aside_weaken (speaks_cancelDataRelay (atWork_lasting Aside)))
            (fun _ => speaks_aside.send aside_talks _) s₁ e₁ h₁.1
      | true =>
          obtain ⟨hu, hlost⟩ := h₁.2 rfl
          have hready : Held Ready s₁ (e₁.log j) := h₁.1.imp (fun h =>
            ⟨fun hm => (h.agree hm).recorded, fun hm => (h.agree hm).inForce hu, hlost.trans hl, h.serving⟩)
          have hwhole : Speaks settingsAllowed lab j l (Held Ready) (fun _ _ => True)
              (if (parseLine line).1 ∈ transferCommands then prepareUpstreamData >>= fun prepared =>
                if prepared then forward (parseLine line).1 (parseLine line).2 line else pure ()
              else forward (parseLine line).1 (parseLine line).2 line) := by
            split
            · refine ready_composes.bind (ready_composes.prepareUpstreamData ready_talks.toRefuses
                ready_cancelDataRelay ready_releaseUpstream (held_hands ready_lasting)) (fun prepared => ?_)
              split
              · exact ready_forward hc
              · exact ready_composes.pure ()
            · exact ready_forward hc
          refine wp_mono _ ?_ s₁ e₁ (hwhole s₁ e₁ hready)
          intro r s' e' h'
          cases r with
          | ok _ => exact h'.imp Ready.atWork
          | error _ => trivial

theorem aside_handleUpstream (hc : (parseLine line).1 ∉ statefulCommands) :
    Speaks settingsAllowed lab j l (Held (AtWork Aside)) (fun _ _ => True)
      (handleUpstream (parseLine line).1 (parseLine line).2 line) := by
  intro s e h
  refine wp_bind _ _ s e (wp_get.mpr ?_)
  dsimp only
  split
  · exact speaks_aside.send aside_talks _ s e h
  · next hl =>
      have hlost : s.lostSettings = [] := by
        by_contra hne
        exact hl ⟨hne, hc⟩
      split
      · cases s.data with
        | none => exact speaks_aside.send aside_talks _ s e h
        | some d =>
            refine wp_bind _ _ s e (logWp_silent (i := .endpointDone d.relay) (fun _ hv => hv) ?_)
            intro r e₁ h₁
            cases r with
            | error x => trivial
            | ok done =>
                have hsame : Held (AtWork Aside) s (e₁.log j) := by
                  rw [h₁]
                  exact h
                dsimp only
                split
                · exact speaks_aside.send aside_talks _ s e₁ hsame
                · refine wp_bind _ _ s e₁ (logWp_silent (i := .setCommandSeen d.relay) (fun _ hv => hv) ?_)
                  intro r e₂ h₂
                  cases r with
                  | error x => trivial
                  | ok _ =>
                      refine aside_connectAndForward hc ?_ hlost
                      rw [h₂]
                      exact hsame
      · exact aside_connectAndForward hc h hlost

theorem aside_handleLocal (hc : (parseLine line).1 ∉ statefulCommands) :
    Speaks settingsAllowed lab j l (Held (AtWork Aside)) (fun _ _ => True)
      (handleLocal (parseLine line).1 (parseLine line).2) := by
  refine speaks_aside.handleLocal aside_talks ?_
  intro hin
  exact absurd hin hc

theorem aside_serve {line : String} (hc : (parseLine line).1 ∉ statefulCommands) :
    Speaks settingsAllowed lab j l (Held (AtWork Aside)) (fun _ _ => True) (serve line) :=
  speaks_aside.serve aside_talks (speaks_aside.openPassiveRelay (held_relays (atWork_lasting Aside)))
    (aside_handleLocal hc) (aside_handleUpstream hc)

end

end Session

end PandaProxy.FtpProxy
