import PandaProxy.FtpProxy.SettingsKept

namespace PandaProxy.FtpProxy

open Async FtpQueue Python

theorem startswith_slash (argument : String) :
    Str.startswith argument "/" = PosixPath.isAbs argument.toList := by
  show ['/'].isPrefixOf argument.toList = _
  cases argument.toList with
  | nil => rfl
  | cons c rest =>
      by_cases hc : c = '/'
      · subst hc
        rfl
      · have hne : ('/' == c) = false := by simpa using fun h => hc h.symm
        simp only [List.isPrefixOf, hne, Bool.false_and]
        unfold PosixPath.isAbs
        split
        · next h => exact absurd (List.cons.inj h).1 hc
        · rfl

theorem isAbs_strip {cs : List Char} (h : PosixPath.isAbs cs = true) : PosixPath.isAbs (Chars.strip isSpace cs) = true := by
  obtain ⟨rest, rfl⟩ : ∃ rest, cs = '/' :: rest := by
    unfold PosixPath.isAbs at h
    split at h
    · exact ⟨_, rfl⟩
    · cases h
  have hslash : isSpace '/' = false := by decide
  have hleft : ('/' :: rest).dropWhile isSpace = '/' :: rest := List.dropWhile_cons_of_neg (by simp [hslash])
  obtain ⟨tail, htail⟩ := List.rdropWhile_prefix isSpace ('/' :: rest)
  rw [Chars.strip, hleft]
  cases hstripped : ('/' :: rest).rdropWhile isSpace with
  | nil =>
      have hall := List.rdropWhile_eq_nil_iff.mp hstripped '/' List.mem_cons_self
      rw [hslash] at hall
      cases hall
  | cons c cs =>
      rw [hstripped] at htail
      rw [(List.cons.inj htail).1]
      rfl

theorem recordCwd_fields {s : ControlSession} (h : PosixPath.Normal s.cwd.toList) (argument : String) :
    PosixPath.Normal (ControlSession.recordCwd argument s).cwd.toList ∧
      PosixPath.components (ControlSession.recordCwd argument s).cwd.toList =
        PosixPath.resolve (PosixPath.components s.cwd.toList) argument.toList := by
  have hpath : ∀ path, PosixPath.Normal path →
      ((if PosixPath.isAbs path then String.ofList path else "/") : String).toList = path := by
    intro path hn
    rw [if_pos hn.1, String.toList_ofList]
  simp only [ControlSession.recordCwd, ControlSession.discardLost, startswith_slash]
  cases habs : PosixPath.isAbs argument.toList with
  | true =>
      simp only [if_true]
      have hn := PosixPath.normpath_normal habs
      refine ⟨by rwa [hpath _ hn], ?_⟩
      rw [hpath _ hn, (PosixPath.normpath_abs habs).2]
      simp only [PosixPath.resolve, habs, if_true]
  | false =>
      simp only [Bool.false_eq_true, if_false]
      obtain ⟨hn, hc⟩ := PosixPath.normpath_join h habs
      exact ⟨by rwa [hpath _ hn], by rw [hpath _ hn, hc]⟩

namespace Session

open Proxy

theorem mem_discardLost {name n : String} {s : ControlSession} :
    n ∈ (ControlSession.discardLost name s).lostSettings ↔ n ∈ s.lostSettings ∧ n ≠ name := by
  simp [ControlSession.discardLost]

theorem Recorded.setMode {s : ControlSession} {v v' : Views} {command : String} (argument : String)
    (hc : command ∈ modeCommands) (h : Recorded s v)
    (hrecorded : v'.recorded = v.recorded.apply command argument) (ha : v'.astray = v.astray) :
    Recorded (ControlSession.discardLost command (ControlSession.setState command (some argument) s)) v' := by
  rw [Settings.apply_mode hc] at hrecorded
  refine ⟨h.normal, fun n hn hl => ?_, fun hl => ?_, fun hl => ?_⟩
  · rw [hrecorded]
    by_cases hne : n = command
    · simp [ControlSession.discardLost, ControlSession.setState, hne]
    · rw [mem_discardLost, not_and_or] at hl
      have hold := h.modes n hn (hl.resolve_right (fun h => h hne))
      simpa [ControlSession.discardLost, ControlSession.setState, hne] using hold
  · rw [hrecorded]
    rw [mem_discardLost, not_and_or] at hl
    refine h.dir (hl.resolve_right (fun hne => hne ?_))
    rintro rfl
    exact absurd hc (by decide)
  · rw [ha]
    exact h.astray (mem_discardLost.mp hl).1

theorem InForce.setMode {s : ControlSession} {v v' : Views} {command given : String} (argument : String)
    (hc : command ∈ modeCommands) (h : InForce s v) (hp : v'.printer = v.printer.apply command given)
    (hclient : v'.client = v.client.apply command given) :
    InForce (ControlSession.discardLost command (ControlSession.setState command (some argument) s)) v' := by
  rw [Settings.apply_mode hc] at hp hclient
  have hlost : ∀ n, n ≠ command →
      n ∉ (ControlSession.discardLost command (ControlSession.setState command (some argument) s)).lostSettings →
        n ∉ s.lostSettings := by
    intro n hne hl hin
    exact hl (mem_discardLost.mpr ⟨hin, hne⟩)
  refine ⟨fun n hn hl => ?_, fun hl => ?_⟩
  · rw [hp, hclient]
    by_cases hne : n = command
    · simp [hne]
    · simpa [hne] using h.modes n hn (hlost n hne hl)
  · rw [hp, hclient]
    refine h.dir (hlost "CWD" ?_ hl)
    rintro rfl
    exact absurd hc (by decide)

theorem Recorded.setDir {s : ControlSession} {v v' : Views} {argument : String} (h : Recorded s v)
    (habs : v.astray = true → PosixPath.isAbs argument.toList = true)
    (hmode : v'.recorded.mode = v.recorded.mode)
    (hdir : v'.recorded.dir = PosixPath.resolve v.recorded.dir argument.toList) :
    Recorded (ControlSession.recordCwd argument s) v' := by
  obtain ⟨hn, hc⟩ := recordCwd_fields h.normal argument
  have hlost : ∀ n, n ∈ (ControlSession.recordCwd argument s).lostSettings ↔
      n ∈ s.lostSettings ∧ n ≠ "CWD" := fun n => mem_discardLost
  refine ⟨hn, fun n hmem hl => ?_, fun _ => ?_, fun hl => absurd rfl ((hlost _).mp hl).2⟩
  · rw [hmode]
    rw [hlost, not_and_or] at hl
    refine h.modes n hmem (hl.resolve_right (fun hne => hne ?_))
    rintro rfl
    exact absurd hmem (by decide)
  · rw [hdir, hc]
    by_cases hin : "CWD" ∈ s.lostSettings
    · simp only [PosixPath.resolve, habs (h.astray hin), if_true]
    · rw [h.dir hin]

theorem InForce.setDir {s : ControlSession} {v v' : Views} {argument : String} {path : List Char}
    (h : InForce s v) (habs : "CWD" ∈ s.lostSettings → PosixPath.isAbs path = true)
    (hp : v'.printer = { v.printer with dir := PosixPath.resolve v.printer.dir path })
    (hclient : v'.client = { v.client with dir := PosixPath.resolve v.client.dir path }) :
    InForce (ControlSession.recordCwd argument s) v' := by
  refine ⟨fun n hmem hl => ?_, fun _ => ?_⟩
  · rw [hp, hclient]
    refine h.modes n hmem fun hin => hl (mem_discardLost.mpr ⟨hin, ?_⟩)
    rintro rfl
    exact absurd hmem (by decide)
  · rw [hp, hclient]
    by_cases hin : "CWD" ∈ s.lostSettings
    · simp only [PosixPath.resolve, habs hin, if_true]
    · simp only [h.dir hin]

theorem stateful_cases {command : String} (h : command ∈ statefulCommands) :
    command ∈ modeCommands ∨ command = "CWD" ∨ command = "CDUP" := by
  simp only [statefulCommands, List.mem_cons, List.not_mem_nil, or_false] at h
  rcases h with rfl | rfl | rfl | rfl | rfl <;> decide

theorem recordReply_mode {command argument reply : String} (hc : command ∈ modeCommands)
    (hr : Str.startswith reply "2" = true) (s : ControlSession) :
    recordReply command argument reply s =
      ControlSession.discardLost command (ControlSession.setState command (some argument) s) := by
  simp only [modeCommands, List.mem_cons, List.not_mem_nil, or_false] at hc
  rcases hc with rfl | rfl | rfl <;> simp [recordReply, hr, recordAccepted, statefulCommands]

theorem Agree.accept {s : ControlSession} {v v' : Views} {command given reply : String}
    (hc : command ∈ statefulCommands) (h : Agree s v) (hup : s.upstream = true)
    (hr : Str.startswith reply "2" = true) (hp : v'.printer = v.printer.apply command given)
    (hclient : v'.client = v.client.apply command given)
    (hrecorded : v'.recorded = v.recorded.apply command (Str.strip given))
    (ha : v'.astray = (v.astray && !absoluteCwd command given))
    (hm : (v.astray && relativeCwd command given) = false) :
    Agree (recordReply command (Str.strip given) reply s) v' := by
  have hrec := h.recorded
  have hin := h.inForce hup
  rcases stateful_cases hc with hmode | rfl | rfl
  · have hcwd : command ≠ "CWD" := by
      rintro rfl
      exact absurd hmode (by decide)
    rw [recordReply_mode hmode hr]
    refine ⟨hrec.setMode _ hmode hrecorded ?_, fun _ => hin.setMode _ hmode hp hclient⟩
    rw [ha]
    simp [absoluteCwd, hcwd]
  · have hrecord : recordReply "CWD" (Str.strip given) reply s = ControlSession.recordCwd (Str.strip given) s := by
      simp [recordReply, hr, recordAccepted]
    have habs : v.astray = true → PosixPath.isAbs given.toList = true := by
      intro hastray
      rw [hastray] at hm
      rw [← startswith_slash]
      simpa [relativeCwd] using hm
    rw [hrecord]
    rw [Settings.apply_cwd] at hp hclient hrecorded
    refine ⟨hrec.setDir (fun hastray => ?_) (by rw [hrecorded]) (by rw [hrecorded]), fun _ => ?_⟩
    · rw [Str.strip, String.toList_ofList]
      exact isAbs_strip (habs hastray)
    · exact hin.setDir (fun hl => habs (hrec.astray hl)) hp hclient
  · have hrecord : recordReply "CDUP" (Str.strip given) reply s = ControlSession.recordCwd ".." s := by
      simp [recordReply, hr, recordAccepted]
    have hstraight : v.astray = false := by
      simpa [relativeCwd] using hm
    rw [hrecord]
    rw [Settings.apply_cdup] at hp hclient hrecorded
    refine ⟨hrec.setDir (fun hastray => ?_) (by rw [hrecorded]) (by rw [hrecorded]), fun _ => ?_⟩
    · rw [hstraight] at hastray
      cases hastray
    · refine hin.setDir (fun hl => ?_) hp hclient
      have hastray := hrec.astray hl
      rw [hstraight] at hastray
      cases hastray

theorem handleLocal_mode {command argument : String} (h : command ∈ modeCommands) :
    handleLocal command argument = (Coro.get >>= fun s =>
      if s.upstream then pure false
      else do
        Coro.modify (ControlSession.setState command (some argument))
        Coro.modify (ControlSession.discardLost command)
        send ("200 " ++ command ++ " set to " ++ argument ++ "\r\n")
        pure true) := by
  simp only [modeCommands, List.mem_cons, List.not_mem_nil, or_false] at h
  rcases h with rfl | rfl | rfl <;> rfl

theorem handleLocal_directory {command argument : String} (h : command = "CWD" ∨ command = "CDUP") :
    handleLocal command argument = (Coro.get >>= fun _ => pure false) := by
  rcases h with rfl | rfl <;> rfl

section

variable {lab : Label → ControlSession → List Event → Prop} {j : Nat} {l : Label}
  {line : String} {s : ControlSession} {e : Proxy}

def Known (line : String) (serving : Option (List UInt8)) : Prop :=
  ∃ raw, serving = some raw ∧ decodeLine raw = line

abbrev Anything (_ : Option (List UInt8)) : Prop := True

theorem AtWork.any {X : Option (List UInt8) → Prop} {s : ControlSession} {v : Views}
    (h : AtWork X s v) : AtWork Anything s v := ⟨h.agree, trivial⟩

abbrev Settles (j : Nat) {α : Type} (r : Except Exc α) (s : ControlSession) (e : Proxy) : Prop :=
  Ends (fun s e => Held (AtWork Anything) s (e.log j)) (fun _ _ => True) r s e

theorem speaks_refusal {X : Option (List UInt8) → Prop} {text : String}
    (ht : Str.startswith text "2" = false) :
    Speaks settingsAllowed lab j l (Held (AtWork X)) (Held (AtWork X)) (send text) := by
  have hneutral : Neutral settingsAllowed (Held (AtWork X)) (.writeClient text) := by
    refine ⟨fun v s log hv h => ?_, fun _ _ _ he => by cases he⟩
    cases hv
    have hsame : views (.told text :: log) = views log := told_other ht
    rw [Held, hsame]
    exact h
  exact speaks_robust.bind (speaks_ask hneutral) (fun _ => speaks_ask (.silent fun _ hv => hv))

theorem settle_refusal {X : Option (List UInt8) → Prop} {text : String}
    (ht : Str.startswith text "2" = false) (h : Held (AtWork X) s (e.log j)) :
    settingsWp lab j l (cancelDataRelay >>= fun _ => send text) (Settles j) s e := by
  have hc := @speaks_robust settingsAllowed lab j l (Held (AtWork X))
  refine wp_mono _ ?_ s e (hc.bind (speaks_cancelDataRelay (atWork_lasting X))
    (fun _ => speaks_refusal ht) s e h)
  intro r s' e' h'
  cases r with
  | ok _ => exact h'.imp AtWork.any
  | error _ => trivial

theorem settle_refused {X : Option (List UInt8) → Prop}
    (h : Held (AtWork X) s (e.log j)) :
    settingsWp lab j l (do
      cancelDataRelay
      send "421 Lost connection to printer\r\n"
      releaseUpstream) (Settles j) s e := by
  have hc := @speaks_robust settingsAllowed lab j l (Held (AtWork X))
  refine wp_mono _ ?_ s e (hc.bind (speaks_cancelDataRelay (atWork_lasting X))
    (fun _ => hc.bind (speaks_refusal (by decide)) (fun _ => speaks_releaseUpstream X)) s e h)
  intro r s' e' h'
  cases r with
  | ok _ => exact h'.imp AtWork.any
  | error _ => trivial

theorem stateful_forward (hc : (parseLine line).1 ∈ statefulCommands) (hup : s.upstream = true)
    (h : Held (AtWork (Known line)) s (e.log j)) :
    settingsWp lab j l (forward (parseLine line).1 (parseLine line).2 line) (Settles j) s e := by
  have hparse := parseLine_wire line
  obtain ⟨⟨command, given⟩, hgiven⟩ : ∃ given, wireLine line = given := ⟨_, rfl⟩
  rw [hgiven] at hparse
  rw [hparse] at hc ⊢
  have hsaid : (Request.forward command (Str.strip given) line).said = (command, given) := hgiven
  have htransfer : decide (command ∈ transferCommands) = false := by
    simp only [statefulCommands, List.mem_cons, List.not_mem_nil, or_false] at hc
    rcases hc with rfl | rfl | rfl | rfl | rfl <;> decide
  refine wp_bind _ _ s e (logWp_sendUpstream hup (fun hn => absurd hc hn)
    (fun now reply view e₁ h₁ => ?_) (fun _ _ _ => trivial))
  have hold : AtWork (Known line) { s with upstreamLastUsed := now } (views (e.log j)) :=
    (atWork_lasting _).untouched (s := s) ⟨rfl, rfl, rfl, rfl⟩ h.2
  have hup₁ : ({ s with upstreamLastUsed := now } : ControlSession).upstream = true := hup
  generalize ({ s with upstreamLastUsed := now } : ControlSession) = s₁ at hold hup₁
  cases hacc : accepted reply with
  | true =>
      cases reply with
      | none => cases hacc
      | some r =>
          have hr : Str.startswith r "2" = true := hacc
          refine wp_bind _ _ s₁ e₁ ((wp_modify _).mpr (wp_bind _ _ _ e₁ (logWp_send (fun u e₂ h₂ => ?_))))
          cases u with
          | error x => trivial
          | ok _ =>
              dsimp only
              rw [htransfer, Bool.and_false]
              obtain ⟨raw, hserving, hraw⟩ := hold.serving
              have hviews : views (e₂.log j) = { (views (e.log j)) with
                  printer := (views (e.log j)).printer.apply command given
                  client := (views (e.log j)).client.apply command given
                  recorded := (views (e.log j)).recorded.apply command (Str.strip given)
                  astray := (views (e.log j)).astray && !absoluteCwd command given
                  misled := ((views (e.log j)).misled || ((views (e.log j)).astray && relativeCwd command given)) ||
                    (decide (command ∈ statefulCommands) && odd raw)
                  asked := none
                  serving := none } := by
                rw [h₂, h₁]
                simp only [views, Views.step, Views.hear, hsaid, hacc, if_true]
                rw [hserving]
                simp only [hr, if_true, Views.learn, hraw, hgiven, hparse]
              show Held (AtWork Anything) _ (e₂.log j)
              rw [Held, hviews]
              refine ⟨fun _ hreq => (by cases hreq), fun hm => ?_, trivial⟩
              obtain ⟨⟨hm, hstraight⟩, _⟩ := (Bool.or_eq_false_iff.mp hm).imp_left Bool.or_eq_false_iff.mp
              exact (hold.agree hm).accept hc hup₁ hr rfl rfl rfl rfl hstraight
  | false =>
      have hviews : views (e₁.log j) = { (views (e.log j)) with asked := none } := by
        rw [h₁]
        simp only [views, Views.step, Views.hear, hsaid, hacc]
        rfl
      have h₁' : Held (AtWork (Known line)) s₁ (e₁.log j) := by
        rw [Held, hviews]
        exact ⟨fun _ hreq => (by cases hreq),
          (atWork_lasting _).same (v := views (e.log j)) ⟨rfl, rfl, rfl, rfl, rfl, rfl⟩ hold⟩
      cases reply with
      | none => exact settle_refused h₁'
      | some r =>
          have hr : Str.startswith r "2" = false := hacc
          refine wp_bind _ _ s₁ e₁ ((wp_modify _).mpr ?_)
          have hsame : recordReply command (Str.strip given) r s₁ = s₁ := by simp [recordReply, hr]
          rw [hsame]
          refine wp_bind _ _ s₁ e₁ (wp_mono _ ?_ s₁ e₁ (speaks_refusal hr s₁ e₁ h₁'))
          intro u s₂ e₂ h₂
          cases u with
          | error x => trivial
          | ok _ =>
              dsimp only
              rw [htransfer, Bool.and_false]
              exact h₂.imp AtWork.any

theorem stateful_handleUpstream (hc : (parseLine line).1 ∈ statefulCommands)
    (h : Held (AtWork (Known line)) s (e.log j)) :
    settingsWp lab j l (handleUpstream (parseLine line).1 (parseLine line).2 line) (Settles j) s e := by
  have htransfer : (parseLine line).1 ∉ transferCommands := by
    refine (?_ : ∀ command ∈ statefulCommands, command ∉ transferCommands) _ hc
    decide
  refine wp_bind _ _ s e (wp_get.mpr ?_)
  dsimp only
  rw [if_neg (fun hl => hl.2 hc), if_neg htransfer]
  refine wp_bind _ _ s e (wp_mono _ ?_ s e (ensureUpstream_held _ h))
  intro r s₁ e₁ h₁
  cases r with
  | error x => trivial
  | ok connected =>
      cases connected with
      | false => exact settle_refusal (by decide) h₁.1
      | true =>
          show settingsWp lab j l (if (parseLine line).1 ∈ transferCommands then _ else _) _ s₁ e₁
          rw [if_neg htransfer]
          exact stateful_forward hc (h₁.2 rfl).1 h₁.1

theorem stateful_handleLocal (hc : (parseLine line).1 ∈ statefulCommands)
    (h : Held (AtWork (Known line)) s (e.log j)) :
    settingsWp lab j l (handleLocal (parseLine line).1 (parseLine line).2) (fun r s' e' =>
      match r with
      | .ok true => Held (AtWork Anything) s' (e'.log j)
      | .ok false => Held (AtWork (Known line)) s' (e'.log j)
      | .error _ => True) s e := by
  have hparse := parseLine_wire line
  obtain ⟨⟨command, given⟩, hgiven⟩ : ∃ given, wireLine line = given := ⟨_, rfl⟩
  rw [hgiven] at hparse
  rw [hparse] at hc ⊢
  rcases stateful_cases hc with hmode | hdir
  · rw [handleLocal_mode hmode]
    refine wp_bind _ _ s e (wp_get.mpr ?_)
    dsimp only
    by_cases hup : s.upstream = true
    · rw [if_pos hup]
      exact h
    · rw [if_neg hup]
      refine wp_bind _ _ s e ((wp_modify _).mpr (wp_bind _ _ _ e ((wp_modify _).mpr ?_)))
      refine wp_bind _ _ _ e (logWp_send (fun r e₁ h₁ => ?_))
      cases r with
      | error x => trivial
      | ok _ =>
          obtain ⟨raw, hserving, hraw⟩ := h.2.serving
          have hr : Str.startswith ("200 " ++ command ++ " set to " ++ Str.strip given ++ "\r\n") "2" = true := by
            simp only [Str.startswith, String.toList_append]
            rfl
          have hviews : views (e₁.log j) = { (views (e.log j)) with
              client := (views (e.log j)).client.apply command given
              recorded := (views (e.log j)).recorded.apply command (Str.strip given)
              serving := none
              misled := (views (e.log j)).misled || (decide (command ∈ statefulCommands) && odd raw) } := by
            rw [h₁]
            simp only [views, Views.step]
            rw [hserving]
            simp only [hr, if_true, Views.learn, hraw, hgiven, hparse]
          show Held (AtWork Anything) _ (e₁.log j)
          rw [Held, hviews]
          refine ⟨h.1, fun hm => ⟨?_, fun hu => absurd hu hup⟩, trivial⟩
          exact (h.2.agree (Bool.or_eq_false_iff.mp hm).1).recorded.setMode _ hmode rfl rfl
  · rw [handleLocal_directory hdir]
    exact h

theorem stateful_serve (hc : (parseLine line).1 ∈ statefulCommands)
    (h : Held (AtWork (Known line)) s (e.log j)) :
    settingsWp lab j l (serve line) (Settles j) s e := by
  have hne : (parseLine line).1 ≠ "" ∧ (parseLine line).1 ≠ "QUIT" ∧
      (parseLine line).1 ∉ ["PASV", "EPSV"] := by
    simp only [statefulCommands, List.mem_cons, List.not_mem_nil, or_false] at hc
    rcases hc with hc | hc | hc | hc | hc <;> rw [hc] <;> decide
  refine wp_bind _ _ s e (wp_get.mpr ?_)
  dsimp only
  rw [if_neg hne.1, if_neg hne.2.1]
  split
  · refine wp_bind _ _ s e (wp_mono _ ?_ s e (speaks_refusal (by decide) s e h))
    intro r s₁ e₁ h₁
    cases r with
    | ok _ => exact h₁.imp AtWork.any
    | error _ => trivial
  · rw [if_neg hne.2.2]
    refine wp_bind _ _ s e (wp_mono _ ?_ s e (stateful_handleLocal hc h))
    intro r s₁ e₁ h₁
    cases r with
    | error x => trivial
    | ok handled =>
        cases handled with
        | true => exact h₁
        | false =>
            refine wp_bind _ _ s₁ e₁ (wp_mono _ ?_ s₁ e₁ (stateful_handleUpstream hc h₁))
            intro r s₂ e₂ h₂
            cases r with
            | ok _ => exact h₂
            | error _ => trivial

theorem Agree.serve {s : ControlSession} {v : Views} (h : Agree s v)
    (serving : Option (List UInt8)) : Agree s { v with serving := serving } where
  recorded := ⟨h.recorded.normal, h.recorded.modes, h.recorded.dir, h.recorded.astray⟩
  inForce hup := ⟨(h.inForce hup).modes, (h.inForce hup).dir⟩

def settingsLab : Label → ControlSession → List Event → Prop
  | .start, s, log => log = [] ∧ Held (AtWork Aside) s log
  | .closing, _, _ => True
  | _, s, log => Held (AtWork Anything) s log

theorem settle_serve (h : Held (AtWork (Known line)) s (e.log j)) :
    settingsWp lab j l (serve line) (Settles j) s e := by
  by_cases hc : (parseLine line).1 ∈ statefulCommands
  · exact stateful_serve hc h
  · have haside : Held (AtWork Aside) s (e.log j) := by
      refine h.imp (fun h => ⟨h.agree, fun raw hraw => ?_⟩)
      obtain ⟨raw', hserving, rfl⟩ := h.serving
      cases hserving.symm.trans hraw
      exact hc
    refine wp_mono _ ?_ s e (aside_serve hc s e haside)
    intro r s' e' h'
    cases r with
    | ok _ => exact h'.imp AtWork.any
    | error _ => trivial

theorem settle_idle (h : Held (AtWork Anything) s (e.log j)) :
    settingsWp lab j l idle (Settles j) s e := by
  have hc : Composes (Neutral settingsAllowed (Held (AtWork Anything))) (HeldQuiet (AtWork Anything))
      (Speaks settingsAllowed lab j l (Held (AtWork Anything)) (fun _ _ => True)) :=
    speaks_composes (fun _ _ _ => trivial)
  exact hc.idle (held_asks (atWork_lasting _)).monotonic (aside_weaken (speaks_releaseUpstream _)) s e h

theorem settle_readAndServe (h : Held (AtWork Anything) s (e.log j)) :
    settingsWp lab j l readAndServe (Settles j) s e := by
  have hc : Composes (Neutral settingsAllowed (Held (AtWork Anything))) (HeldQuiet (AtWork Anything))
      (Speaks settingsAllowed lab j l (Held (AtWork Anything)) (fun _ _ => True)) :=
    speaks_composes (fun _ _ _ => trivial)
  refine wp_bind _ _ s e (wp_mono _ ?_ s e (hc.readTimeout (held_asks (atWork_lasting _)).monotonic s e h))
  intro r s₁ e₁ h₁
  cases r with
  | error x => trivial
  | ok timeout =>
      refine wp_bind _ _ s₁ e₁ (wp_attempt _ s₁ e₁ (logWp_readline (fun raw e₂ h₂ => ?_) (fun x e₂ h₂ => ?_)))
      · have hserving : Held (AtWork (Known (decodeLine raw))) s₁ (e₂.log j) := by
          rw [h₂]
          exact ⟨h₁.1, fun hm => (h₁.2.agree hm).serve _, raw, rfl, rfl⟩
        show settingsWp lab j l (if _ then _ else _) _ s₁ e₂
        split
        · exact hserving.imp AtWork.any
        · exact settle_serve hserving
      · have hsame : Held (AtWork Anything) s₁ (e₂.log j) := by
          rw [h₂]
          exact h₁
        cases x
        case timeout => exact settle_idle hsame
        all_goals first
        | exact hsame
        | trivial

theorem settings_body {clients : Clients} (h : settingsLab l s (e.log j)) :
    settingsWp settingsLab j l (body l)
      ((logProtocol settingsAllowed settingsLab).post (ftpProxy clients) j l) s e := by
  have hbetween : Between (Held (AtWork Anything)) settingsLab :=
    ⟨fun _ _ => trivial, rfl, rfl⟩
  refine hbetween.body (fun s e h => ?_) (fun s e h => settle_readAndServe h) h
  refine wp_mono _ ?_ s e (speaks_aside.send aside_talks _ s e h.2)
  intro r s' e' h'
  cases r with
  | ok _ => exact h'.imp AtWork.any
  | error _ => trivial

end

end Session

theorem settings_verified (clients : Clients) :
    (Session.logProtocol Session.settingsAllowed Session.settingsLab).Verified (ftpProxy clients) := by
  refine Session.log_verified (fun _ _ _ _ h => Session.settings_body h) (fun localIp localIpv4 => ?_)
  have hroot : PosixPath.Normal "/".toList := PosixPath.normal_root
  have hnone : [] = PosixPath.components "/".toList := by decide +kernel
  refine ⟨rfl, nofun, ⟨fun _ => ⟨⟨hroot, fun _ _ _ => rfl, fun _ => hnone, nofun⟩, nofun⟩, nofun⟩⟩

def Forwarded (c : FtpConfig) (j : Nat) (v : Views) : Prop :=
  ∃ command argument line relay earlier,
    (.asked (.forward command argument line) relay :: earlier) <:+ c.env.log j ∧
      command ∉ statefulCommands ∧ v = views earlier

theorem printer_settings {clients : Clients} {q : SessionQueue} {pool : DataPortPool} {c : FtpConfig}
    (hrun : (ftpProxy clients).Runs (fun _ _ _ => True) (startup q pool) c) {j : Nat} {v : Views}
    (hforward : Forwarded c j v) (hstraight : v.misled = false) : v.printer.Alike v.client := by
  obtain ⟨command, argument, line, relay, earlier, hlog, hcommand, rfl⟩ := hforward
  exact Session.log_runs (settings_verified clients) hrun j _ relay earlier hlog hcommand hstraight

-- `CWD /a` is accepted, the printer released after a while, and `/a` refused when the session comes
-- back.
def loses : List FtpAct :=
  logsIn 0 ++ sends 0 "CWD /a\r\n" ++ reachesPrinter 0 0 ++ answers 0 "250 moved\r\n" ++
    [.run 0, .run 0, .tick (.elapse 40), .resume 0 (.readline 30) (.error .timeout),
      .resume 0 .upstreamClosed (.ok ())] ++
    sends 0 "SIZE x\r\n" ++ reachesPrinter 0 1 ++ answers 0 "550 gone\r\n" ++
    [.resume 0 .upstreamClosed (.ok ()), .run 0]

def deletesIn (directory : String) : List FtpAct :=
  loses ++ sends 0 directory ++ reachesPrinter 0 2 ++ answers 0 "250 moved\r\n" ++ [.run 0] ++
    sends 0 "DELE x\r\n"

def lastRequest (c : FtpConfig) (j : Nat) : Option (String × Views) :=
  match c.env.log j with
  | .asked (.forward command _ _) _ :: earlier => some (command, views earlier)
  | _ => none

theorem lastRequest_forwarded {c : FtpConfig} {j : Nat} {command : String} {v : Views}
    (h : lastRequest c j = some (command, v)) (hcommand : command ∉ statefulCommands) :
    Forwarded c j v := by
  unfold lastRequest at h
  split at h
  · next argument line relay earlier hlog =>
      cases h
      exact ⟨command, argument, line, relay, earlier, hlog ▸ List.suffix_refl _, hcommand, rfl⟩
  · cases h

theorem relative_cwd_misplaced : ¬ ∀ c, (ftpProxy lan).Runs (fun _ _ _ => True) (startup oneSlot onePort) c →
    ∀ j v, Forwarded c j v → v.printer.Alike v.client := by
  intro h
  have hend : ((ftpProxy lan).runActs (startup oneSlot onePort) (deletesIn "CWD b\r\n")).map (fun c =>
      (lastRequest c 0).map (fun p => (p.1, p.2.printer.dir, p.2.client.dir))) =
        some (some ("DELE", [['b']], [['a'], ['b']])) := by
    decide +kernel
  obtain ⟨c, hc, hfinal⟩ := Option.map_eq_some_iff.mp hend
  obtain ⟨⟨command, v⟩, hlast, hv⟩ := Option.map_eq_some_iff.mp hfinal
  simp only [Prod.mk.injEq] at hv
  obtain ⟨rfl, hprinter, hclient⟩ := hv
  have hdir := (h c ((ftpProxy lan).runActs_runs _ hc) 0 v (lastRequest_forwarded hlast (by decide))).dir
  rw [hprinter, hclient] at hdir
  revert hdir
  decide

theorem printer_settings_restored : ∃ c v, (ftpProxy lan).runActs (startup oneSlot onePort)
    (deletesIn "CWD /a/b\r\n") = some c ∧ lastRequest c 0 = some ("DELE", v) ∧ v.printer.Alike v.client := by
  have hend : ((ftpProxy lan).runActs (startup oneSlot onePort) (deletesIn "CWD /a/b\r\n")).map (fun c =>
      (lastRequest c 0).map (fun p => (p.1, p.2.misled))) = some (some ("DELE", false)) := by
    decide +kernel
  obtain ⟨c, hc, hfinal⟩ := Option.map_eq_some_iff.mp hend
  obtain ⟨⟨command, v⟩, hlast, hv⟩ := Option.map_eq_some_iff.mp hfinal
  simp only [Prod.mk.injEq] at hv
  obtain ⟨rfl, hmisled⟩ := hv
  exact ⟨c, v, hc, hlast, printer_settings ((ftpProxy lan).runActs_runs _ hc)
    (lastRequest_forwarded hlast (by decide)) hmisled⟩

end PandaProxy.FtpProxy
