import PandaProxy.FtpProxy.Settings
import PandaProxy.FtpProxy.TransferCommands

namespace PandaProxy.FtpProxy

open Async FtpQueue Python

inductive Owed where
  | greeting
  | reply (request : Request)
  | completion (request : Request)
  deriving DecidableEq, Repr

namespace Owed

def preliminary (o : Owed) (text : String) : Bool :=
  match o with
  | reply request => Str.startswith text "1" && decide (request.command ∈ transferCommands)
  | _ => false

-- A transfer is answered with one reply, or with a preliminary one and a final one; everything
-- else with one.
def leaves (o : Owed) (text : String) : List Owed :=
  match o with
  | reply request => if o.preliminary text then [completion request] else []
  | _ => []

def answers : Owed → String → Bool
  | reply (.forward _ _ line), command => line == command
  | completion (.forward _ _ line), command => line == command
  | _, _ => false

end Owed

inductive Due where
  | welcome
  | nothing
  | reply (command : String)
  | rest (code : String)
  | completion (command : String)
  deriving DecidableEq, Repr

-- Where the two conversations of a session stand. The printer sends its replies in the order of the
-- commands, so that the next one read is the first one owed.
structure Talk where
  owed : Option (List Owed)
  latest : Option (Owed × String)
  due : Due
  deriving DecidableEq, Repr

-- The code that a reply of several lines begins and ends with.
def openingCode (line : String) : Option String :=
  match line.toList with
  | a :: b :: c :: '-' :: _ => some (.ofList [a, b, c, ' '])
  | _ => none

namespace Talk

def init : Talk := ⟨none, none, .welcome⟩

def relays (t : Talk) (command line : String) : Bool :=
  t.latest.any fun p => p.1.answers command && p.2 == line

def preliminary (t : Talk) : Bool := t.latest.any fun p => p.1.preliminary p.2

def told (t : Talk) (line : String) : Due :=
  match t.due with
  | .reply command =>
      if t.relays command line then (if t.preliminary then .completion command else .nothing)
      else
        match openingCode line with
        | some code => .rest code
        | none => .nothing
  | _ => .nothing

def answered (t : Talk) (text : String) : Talk :=
  match t.owed with
  | some (o :: rest) => { t with owed := some (o.leaves text ++ rest), latest := some (o, text) }
  | _ => t

def step (t : Talk) : Event → Talk
  | .received raw => { t with due := .reply (decodeLine raw), latest := none }
  | .told line => { t with due := t.told line }
  | .opened => { t with owed := some [.greeting] }
  | .closed => { t with owed := none }
  | .asked request _ => { t with owed := t.owed.map fun owed => owed ++ [.reply request] }
  | .answered (some text) => t.answered text
  | .answered none => t
  | .examined _ => t

end Talk

def talk : List Event → Talk
  | [] => .init
  | v :: log => (talk log).step v

def fixedLines : List String :=
  ["220 PandaProxy FTP ready\r\n", "500 Syntax error\r\n", "221 Goodbye\r\n",
    "530 Please login with USER and PASS\r\n", "331 Password required\r\n", "530 Login incorrect\r\n",
    "230 Login successful\r\n", "502 Active mode not supported, use PASV\r\n", "534 Already using TLS\r\n",
    "211-Features:\r\n PASV\r\n EPSV\r\n PBSZ\r\n PROT\r\n", "211 End\r\n", "215 UNIX Type: L8\r\n", "200 OK\r\n",
    "200 EPSV ALL accepted\r\n", "522 Use EPSV; PASV cannot express this address\r\n",
    "425 No data port available, try again\r\n", "425 Use PASV first\r\n",
    "425 Data connection expired, use PASV again\r\n", "425 Cannot open passive connection\r\n",
    "421 Printer unavailable, try again later\r\n", "421 Lost connection to printer\r\n", "426 Transfer aborted\r\n"]

inductive Composed : String → Prop where
  | accepted (command argument : String) : Composed ("200 " ++ command ++ " set to " ++ argument ++ "\r\n")
  | reissue (names : String) : Composed ("521 Re-issue " ++ names ++ " before continuing\r\n")
  | passive (host : String) (port : Int) : Composed (formatPasvReply host port)
  | extended (port : Int) : Composed (formatEpsvReply port)

-- What the proxy says of its own.
inductive OwnLine : String → Prop where
  | fixed {line : String} (h : line ∈ fixedLines) : OwnLine line
  | composed {line : String} (h : Composed line) : OwnLine line

namespace Talk

-- A line for the client is one the proxy says of its own, or the reply of the printer to the
-- command that the client waits to have answered.
def tells (t : Talk) (line : String) : Prop :=
  match t.due with
  | .welcome => OwnLine line
  | .nothing => False
  | .reply command => OwnLine line ∨ t.relays command line = true
  | .rest code => OwnLine line ∧ Str.startswith line code = true
  | .completion command => OwnLine line ∨ t.relays command line = true ∧ t.preliminary = false

def permits (t : Talk) : Event → Prop
  | .asked _ _ => t.owed = some []
  | .answered (some _) => ∃ o rest, t.owed = some (o :: rest)
  | .told line => t.tells line
  | .received _ => t.due = .nothing
  | _ => True

end Talk

def Paired (log : List Event) : Prop :=
  ∀ v earlier, (v :: earlier) <:+ log → (talk earlier).permits v

theorem Paired.cons {log : List Event} {v : Event} (h : Paired log) (hv : (talk log).permits v) : Paired (v :: log) := by
  intro w earlier hs
  rcases List.suffix_cons_iff.mp hs with he | hs
  · obtain ⟨rfl, rfl⟩ := List.cons.inj he
    exact hv
  · exact h w earlier hs

theorem startswith_append {line head : String} (h : Str.startswith line head = true) (rest : String) :
    Str.startswith (line ++ rest) head = true := by
  obtain ⟨t, ht⟩ := (Str.startswith_iff _ _).mp h
  exact (Str.startswith_iff _ _).mpr ⟨t ++ rest.toList, by rw [String.toList_append, ht, List.append_assoc]⟩

theorem head_decides {line head : String} (h : Str.startswith line head = true) (hlength : head.toList.length = 4) :
    Str.startswith line "1" = Str.startswith head "1" ∧ openingCode line = openingCode head := by
  obtain ⟨t, ht⟩ := (Str.startswith_iff _ _).mp h
  obtain ⟨a, b, c, d, hhead⟩ := List.length_eq_four.mp hlength
  simp only [Str.startswith, openingCode, ht, hhead]
  refine ⟨by simp [List.isPrefixOf], ?_⟩
  by_cases hd : d = '-'
  · subst hd
    rfl
  · simp [hd]

def ownHeads : List String := ["200 ", "521 ", "227 ", "229 "]

theorem Composed.head {line : String} (h : Composed line) : ∃ head ∈ ownHeads, Str.startswith line head = true := by
  cases h with
  | accepted command argument =>
      have hhead : Str.startswith "200 " "200 " = true := by decide +kernel
      exact ⟨"200 ", by decide, startswith_append (startswith_append (startswith_append (startswith_append hhead _) _) _) _⟩
  | reissue names =>
      have hhead : Str.startswith "521 Re-issue " "521 " = true := by decide +kernel
      exact ⟨"521 ", by decide, startswith_append (startswith_append hhead _) _⟩
  | passive host port =>
      have hhead : Str.startswith "227 Entering Passive Mode (" "227 " = true := by decide +kernel
      exact ⟨"227 ", by decide, startswith_append (startswith_append (startswith_append (startswith_append
        (startswith_append (startswith_append hhead _) _) _) _) _) _⟩
  | extended port =>
      have hhead : Str.startswith "229 Entering Extended Passive Mode (|||" "229 " = true := by decide +kernel
      exact ⟨"229 ", by decide, startswith_append (startswith_append hhead _) _⟩

def opener : String := "211-Features:\r\n PASV\r\n EPSV\r\n PBSZ\r\n PROT\r\n"

theorem Composed.ne_opener {line : String} (h : Composed line) : line ≠ opener := by
  rintro rfl
  obtain ⟨head, hmem, hhead⟩ := h.head
  have hall : ownHeads.all (fun head => !Str.startswith opener head) = true := by
    decide +kernel
  have hnot := List.all_eq_true.mp hall head hmem
  simp [hhead] at hnot

theorem OwnLine.whole {line : String} (h : OwnLine line) :
    Str.startswith line "1" = false ∧ (line ≠ opener → openingCode line = none) := by
  cases h with
  | fixed hfixed =>
      have hall : fixedLines.all (fun line => !Str.startswith line "1" &&
          (line == opener || (openingCode line).isNone)) = true := by
        decide +kernel
      have hline := List.all_eq_true.mp hall line hfixed
      simp only [Bool.and_eq_true, Bool.not_eq_true', Bool.or_eq_true, beq_iff_eq, Option.isNone_iff_eq_none] at hline
      exact ⟨hline.1, fun hne => hline.2.resolve_left hne⟩
  | composed hcomposed =>
      obtain ⟨head, hmem, hhead⟩ := hcomposed.head
      have hall : ownHeads.all (fun head => head.toList.length == 4 && (!Str.startswith head "1" &&
          (openingCode head).isNone)) = true := by
        decide +kernel
      have hdata := List.all_eq_true.mp hall head hmem
      simp only [Bool.and_eq_true, Bool.not_eq_true', beq_iff_eq, Option.isNone_iff_eq_none] at hdata
      obtain ⟨hfinal, hopening⟩ := head_decides hhead hdata.1
      exact ⟨hfinal.trans hdata.2.1, fun _ => hopening.trans hdata.2.2⟩

def said : List Event → List String
  | [] => []
  | .received _ :: _ => []
  | .told line :: log => line :: said log
  | _ :: log => said log

def Whole : List String → Prop
  | [_] => True
  | [line, first] => Str.startswith first "1" = true ∨ ∃ code ∈ openingCode first, Str.startswith line code = true
  | _ => False

def Progress : Due → List String → Prop
  | .welcome, lines => lines = []
  | .reply _, lines => lines = []
  | .rest code, lines => ∃ first, lines = [first] ∧ openingCode first = some code
  | .completion _, lines => ∃ first, lines = [first] ∧ Str.startswith first "1" = true
  | .nothing, lines => Whole lines

theorem Talk.answered_due (t : Talk) (text : String) : (t.answered text).due = t.due := by
  unfold Talk.answered
  split <;> rfl

theorem Talk.step_due (t : Talk) {v : Event} (htold : ∀ line, v ≠ .told line) (hreceived : ∀ raw, v ≠ .received raw) :
    (t.step v).due = t.due := by
  cases v with
  | told line => exact absurd rfl (htold line)
  | received raw => exact absurd rfl (hreceived raw)
  | answered reply =>
      cases reply with
      | none => rfl
      | some text => exact t.answered_due text
  | _ => rfl

theorem Talk.relays_preliminary {t : Talk} {command line : String} (h : t.relays command line = true)
    (hpreliminary : t.preliminary = true) : Str.startswith line "1" = true := by
  obtain ⟨owed, latest, due⟩ := t
  cases latest with
  | none => cases h
  | some p =>
      obtain ⟨o, text⟩ := p
      simp only [Talk.relays, Option.any_some, Bool.and_eq_true, beq_iff_eq] at h
      obtain ⟨_, rfl⟩ := h
      simp only [Talk.preliminary, Option.any_some] at hpreliminary
      cases o with
      | greeting => cases hpreliminary
      | completion request => cases hpreliminary
      | reply request =>
          simp only [Owed.preliminary, Bool.and_eq_true] at hpreliminary
          exact hpreliminary.1

theorem Progress.told {t : Talk} {line : String} {lines : List String} (h : Progress t.due lines)
    (hline : t.tells line) : Progress (t.told line) (line :: lines) := by
  simp only [Talk.tells, Talk.told] at hline ⊢
  cases hdue : t.due with
  | welcome =>
      rw [hdue] at h
      cases show lines = [] from h
      trivial
  | nothing =>
      rw [hdue] at hline
      cases hline
  | reply command =>
      rw [hdue] at h
      cases show lines = [] from h
      dsimp only
      split
      · next hrelays =>
          split
          · next hpreliminary => exact ⟨line, rfl, Talk.relays_preliminary hrelays hpreliminary⟩
          · trivial
      · split
        · next code hopening => exact ⟨line, rfl, hopening⟩
        · trivial
  | rest code =>
      rw [hdue] at h hline
      obtain ⟨first, rfl, hopening⟩ := h
      exact .inr ⟨code, hopening, hline.2⟩
  | completion command =>
      rw [hdue] at h
      obtain ⟨first, rfl, hfirst⟩ := h
      exact .inl hfirst

theorem Paired.progress {log : List Event} (h : Paired log) : Progress (talk log).due (said log) := by
  induction log with
  | nil => rfl
  | cons v log ih =>
      have hlog := ih (fun w earlier hs => h w earlier (List.suffix_cons_iff.mpr (.inr hs)))
      have hv := h v log (List.suffix_refl _)
      cases v with
      | received raw => rfl
      | told line => exact hlog.told hv
      | answered reply =>
          rw [talk, Talk.step_due _ (fun _ hv => by cases hv) (fun _ hv => by cases hv)]
          exact hlog
      | _ => exact hlog

namespace Session

open Proxy Coro

abbrev pairedCall (i : Op) (log : List Event) : Prop := ∀ v, emits i v → (talk log).permits v

structure AtRest (d : Due) (s : ControlSession) (log : List Event) : Prop where
  due : (talk log).due = d
  owed : s.upstream = true → (talk log).owed = some []

abbrev Waiting (d : Due) (_ : ControlSession) (log : List Event) : Prop := (talk log).due = d

def pairing : Label → ControlSession → List Event → Prop
  | .start, s, log => (talk log).due = .welcome ∧ s.upstream = false
  | .closing, _, _ => True
  | _, s, log => AtRest .nothing s log

abbrev pairWp (j : Nat) (l : Label) {α : Type} (c : Session α) (Q : Except Exc α → ControlSession → Proxy → Prop)
    (s : ControlSession) (e : Proxy) : Prop :=
  transcriptWp Paired pairedCall pairing j l c Q s e

-- Of the session itself, `I` is about nothing but whether it has a printer session.
def OfUpstream (I : ControlSession → List Event → Prop) : Prop :=
  ∀ s s' log, s'.upstream = s.upstream → I s log → I s' log

theorem atRest_ofUpstream (d : Due) : OfUpstream (AtRest d) :=
  fun _ _ _ hs h => ⟨h.due, fun hu => h.owed (hs ▸ hu)⟩

theorem waiting_ofUpstream (d : Due) : OfUpstream (Waiting d) := fun _ _ _ _ h => h

theorem Abides.silent {I : ControlSession → List Event → Prop} {i : Op} (h : ∀ v, ¬ emits i v) :
    Abides pairedCall I i where
  stays v _ _ hv := absurd hv (h v)
  covers _ _ _ v hv := absurd hv (h v)

section

variable {I : ControlSession → List Event → Prop} {d : Due} {j : Nat} {l : Label} {s : ControlSession} {e : Proxy}

theorem abides_queues : Queues (Abides pairedCall I) := by
  constructor <;> intros <;> exact .silent (fun _ hv => hv)

theorem abides_relays (hI : OfUpstream I) :
    Relays (Abides pairedCall I) fun f => ∀ s log, I s log → I (f s) log := by
  constructor
  case clear => exact fun s log h => hI s _ log rfl h
  case install => exact fun _ _ s log h => hI s _ log rfl h
  all_goals
    intros
    exact .silent (fun _ hv => hv)

theorem abides_closes (hI : OfUpstream I) (hclosed : ∀ s log, I s log → I s (.closed :: log)) :
    Closes (Abides pairedCall I) fun f => ∀ s log, I s log → I (f s) log where
  closeUpstream := ⟨fun v s log hv h => by cases hv; exact hclosed s log h, fun _ _ _ v hv => by cases hv; trivial⟩
  upstreamClosed := .silent (fun _ hv => hv)
  abortUpstream := .silent (fun _ hv => hv)
  queueRelease := .silent (fun _ hv => hv)
  yield := fun s log h => hI s _ log rfl h

theorem paired_cancelDataRelay (hI : OfUpstream I) (h : I s (e.log j)) :
    pairWp j l cancelDataRelay (Then I j) s e := by
  refine wp_mono _ ?_ s e (narrates_robust.cancelDataRelay (abides_relays hI) s e h)
  intro r s' e' hr
  cases r with
  | ok _ => exact hr
  | error x => trivial

theorem paired_releaseUpstream (h : Waiting d s (e.log j)) : pairWp j l releaseUpstream (Then (AtRest d) j) s e := by
  have hI : OfUpstream fun s log => Waiting d s log ∧ s.upstream = false :=
    fun _ _ _ hs h => ⟨h.1, hs.trans h.2⟩
  have hclosed : ∀ s log, Waiting d s log ∧ s.upstream = false → Waiting d s (.closed :: log) ∧ s.upstream = false :=
    fun _ _ h => h
  refine wp_bind _ _ s e (wp_get.mpr (wp_bind _ _ s e ((wp_modify _).mpr ?_)))
  refine wp_mono _ ?_ _ e (narrates_robust.releaseRest (abides_closes hI hclosed) s.upstream _ e ⟨h, rfl⟩)
  intro r s' e' hr
  cases r with
  | ok _ => exact ⟨hr.1, fun hu => absurd hu (by simp [hr.2])⟩
  | error x => trivial

theorem pairWp_silent {i : Op} (hi : ∀ v, ¬ emits i v) {Q : Except Exc i.Answer → ControlSession → Proxy → Prop}
    (hQ : ∀ r e', e'.log j = e.log j → Q r s e') : pairWp j l (ask i) Q s e :=
  transcriptWp_silent (fun v hv => absurd hv (hi v)) hi hQ

theorem pairWp_send {line : String} {Q : Except Exc Unit → ControlSession → Proxy → Prop}
    (hline : (talk (e.log j)).tells line)
    (hQ : ∀ r e', talk (e'.log j) = (talk (e.log j)).step (.told line) → Q r s e') : pairWp j l (send line) Q s e := by
  refine wp_bind _ _ s e (transcriptWp_writeClient (fun v hv => by cases hv; exact hline) (fun e₁ h₁ => ?_))
  refine pairWp_silent (i := .drainClient) (fun _ hv => hv) (fun r e₂ h₂ => hQ r e₂ ?_)
  rw [h₂, h₁]
  rfl

structure Replied (o : Owed) (text : String) (d : Due) (log : List Event) : Prop where
  due : (talk log).due = d
  owed : (talk log).owed = some (o.leaves text)
  latest : (talk log).latest = some (o, text)

abbrev Outcome (o : Owed) (d : Due) (j : Nat) (upstream : Bool) (r : Except Exc (Option String)) (s : ControlSession)
    (e : Proxy) : Prop :=
  match r with
  | .ok none => Waiting d s (e.log j)
  | .ok (some text) => s.upstream = upstream ∧ Replied o text d (e.log j)
  | .error _ => True

theorem replied_answered {o : Owed} {text : String} {log : List Event} (howed : (talk log).owed = some [o])
    (hdue : (talk log).due = d) : Replied o text d (.answered (some text) :: log) where
  due := by
    show ((talk log).answered text).due = d
    simp only [Talk.answered, howed, hdue]
  owed := by
    show ((talk log).answered text).owed = _
    simp only [Talk.answered, howed, List.append_nil]
  latest := by
    show ((talk log).answered text).latest = _
    simp only [Talk.answered, howed]

theorem outcome_noted {o : Owed} {reply : Option String} {e' : Proxy} (howed : (talk (e.log j)).owed = some [o])
    (hdue : Waiting d s (e.log j)) (h : e'.log j = .answered reply :: e.log j) :
    Outcome o d j s.upstream (.ok reply) s e' := by
  cases reply with
  | none =>
      show (talk (e'.log j)).due = d
      rw [h]
      exact hdue
  | some text =>
      refine ⟨rfl, ?_⟩
      rw [h]
      exact replied_answered howed hdue

theorem answered_permitted {o : Owed} {log : List Event} (howed : (talk log).owed = some [o]) (reply : Option String) :
    (talk log).permits (.answered reply) := by
  cases reply with
  | none => trivial
  | some text => exact ⟨o, [], howed⟩

theorem paired_readReply {o : Owed} (howed : (talk (e.log j)).owed = some [o]) (hdue : Waiting d s (e.log j)) :
    pairWp j l (ask .readReply) (Outcome o d j s.upstream) s e := by
  refine transcriptWp_readReply ?_ (fun reply e' h => outcome_noted howed hdue h) (fun x e' _ => trivial)
  rintro v ⟨reply, rfl⟩
  exact answered_permitted howed reply

theorem paired_sendUpstream {request : Request} (h : AtRest d s (e.log j)) :
    pairWp j l (sendUpstream request) (Outcome (.reply request) d j s.upstream) s e := by
  refine wp_bind _ _ s e (wp_get.mpr ?_)
  cases hu : s.upstream with
  | false =>
      simp only [hu, Bool.false_eq_true, if_false]
      exact h.due
  | true =>
      simp only [hu, if_true]
      refine wp_bind _ _ s e (pairWp_silent (i := .monotonic) (fun _ hv => hv) (fun r e₁ h₁ => ?_))
      cases r with
      | error x => trivial
      | ok now =>
          refine wp_bind _ _ s e₁ ((wp_modify _).mpr ?_)
          have hasked : pairedCall (.writeUpstream request) (e₁.log j) := by
            rintro v ⟨view, rfl⟩
            rw [h₁]
            exact h.owed hu
          refine wp_bind _ _ _ e₁ (transcriptWp_writeUpstream hasked (fun view e₂ h₂ => ?_))
          refine wp_bind _ _ _ e₂ (pairWp_silent (i := .drainUpstream) (fun _ hv => hv) (fun r e₃ h₃ => ?_))
          cases r with
          | error x => trivial
          | ok u =>
              have hlog : e₃.log j = .asked request view :: e.log j := by
                rw [h₃, h₂, h₁]
              have howed : (talk (e₃.log j)).owed = some [.reply request] := by
                rw [hlog]
                show (talk (e.log j)).owed.map (fun owed => owed ++ [.reply request]) = _
                rw [h.owed hu]
                rfl
              have hdue : Waiting d { s with upstreamLastUsed := now } (e₃.log j) := by
                rw [hlog]
                exact h.due
              have hread := paired_readReply (l := l) howed hdue
              refine wp_bind _ _ _ e₃ (wp_get.mpr ?_)
              simp only [hu, if_true] at hread ⊢
              exact hread

theorem leaves_plain (request : Request) (h : request.command ∉ transferCommands) (text : String) :
    (Owed.reply request).leaves text = [] := by
  simp [Owed.leaves, Owed.preliminary, h]

theorem Replied.atRest {o : Owed} {text : String} {log : List Event} (h : Replied o text d log)
    (hleaves : o.leaves text = []) : AtRest d s log :=
  ⟨h.due, fun _ => h.owed.trans (congrArg some hleaves)⟩

abbrev Verdict (d : Due) (j : Nat) (r : Except Exc Bool) (s : ControlSession) (e : Proxy) : Prop :=
  match r with
  | .ok true => AtRest d s (e.log j)
  | .ok false => Waiting d s (e.log j)
  | .error _ => True

theorem AtRest.verdict {s : ControlSession} {e : Proxy} (h : AtRest d s (e.log j)) (b : Bool) : Verdict d j (.ok b) s e := by
  cases b with
  | true => exact h
  | false => exact h.due

theorem wp_issue {command argument : String} {α : Type} {f : Option String → Session α}
    {Q : Except Exc α → ControlSession → Proxy → Prop} (hcommand : command ∉ transferCommands)
    (h : AtRest d s (e.log j)) (hx : ∀ x s e, Q (.error x) s e)
    (hnone : ∀ s' e', Waiting d s' (e'.log j) → pairWp j l (f none) Q s' e')
    (hsome : ∀ text s' e', AtRest d s' (e'.log j) → pairWp j l (f (some text)) Q s' e') :
    pairWp j l (sendUpstream (.issue command argument) >>= f) Q s e := by
  refine wp_bind _ _ s e (wp_mono _ ?_ s e (paired_sendUpstream h))
  intro r s' e' hr
  cases r with
  | error x => exact hx x s' e'
  | ok reply =>
      cases reply with
      | none => exact hnone s' e' hr
      | some text => exact hsome text s' e' (hr.2.atRest (leaves_plain (.issue command argument) hcommand text))

theorem paired_loginUpstream (h : AtRest d s (e.log j)) : pairWp j l loginUpstream (Verdict d j) s e := by
  refine wp_issue (by decide) h (fun _ _ _ => trivial) (fun s' e' hw => hw) (fun text s₁ e₁ h₁ => ?_)
  dsimp only
  split
  · exact h₁
  split
  · refine wp_bind _ _ s₁ e₁ (wp_get.mpr ?_)
    refine wp_issue (by decide) h₁ (fun _ _ _ => trivial) (fun s' e' hw => hw) (fun text s₂ e₂ h₂ => ?_)
    exact h₂.verdict _
  · exact h₁.due

theorem plain_stateful {command : String} (h : command ∈ statefulCommands) : command ∉ transferCommands := by
  have hall : statefulCommands.all (fun command => !transferCommands.contains command) = true := by
    decide
  simpa using List.all_eq_true.mp hall command h

theorem paired_replayAll (settings : List (String × String)) (hs : ∀ p ∈ settings, p.1 ∈ statefulCommands) :
    ∀ s e, AtRest d s (e.log j) → pairWp j l (replayAll settings) (Verdict d j) s e := by
  induction settings with
  | nil => exact fun s e h => h
  | cons setting rest ih =>
      obtain ⟨command, argument⟩ := setting
      intro s e h
      refine wp_issue (plain_stateful (hs _ List.mem_cons_self)) h (fun _ _ _ => trivial) ?_ ?_
      · exact fun s' e' hw => hw
      · intro text s₁ e₁ h₁
        split
        · exact ih (fun p hp => hs p (List.mem_cons_of_mem _ hp)) s₁ e₁ h₁
        · exact h₁.due

theorem paired_setUp (howed : (talk (e.log j)).owed = some [.greeting]) (hdue : Waiting d s (e.log j)) (hu : s.upstream = true) :
    pairWp j l setUp (Then (AtRest d) j) s e := by
  have hgiveUp : ∀ {s e}, Waiting d s (e.log j) →
      pairWp j l (releaseUpstream >>= fun _ => pure false) (Then (AtRest d) j) s e := by
    intro s e hw
    refine wp_bind _ _ s e (wp_mono _ ?_ s e (paired_releaseUpstream hw))
    intro r s' e' hr
    cases r <;> exact hr
  have hgreeting : pairWp j l readUpstreamReply (Outcome .greeting d j true) s e := by
    refine wp_bind _ _ s e (wp_get.mpr ?_)
    have hread := paired_readReply (l := l) howed hdue
    simp only [hu, if_true] at hread ⊢
    exact hread
  refine wp_bind _ _ s e (wp_mono _ ?_ s e hgreeting)
  intro r s₁ e₁ h₁
  cases r with
  | error x => trivial
  | ok greeting =>
      cases greeting with
      | none => exact hgiveUp h₁
      | some text =>
          refine wp_bind _ _ s₁ e₁ (wp_mono _ ?_ s₁ e₁ (paired_loginUpstream (h₁.2.atRest rfl)))
          intro r s₂ e₂ h₂
          cases r with
          | error x => trivial
          | ok loggedIn =>
              cases loggedIn with
              | false => exact hgiveUp h₂
              | true =>
                  refine wp_bind _ _ s₂ e₂ (wp_bind _ _ s₂ e₂ (wp_get.mpr ?_))
                  refine wp_mono _ ?_ s₂ e₂ (paired_replayAll _ (replayList_stateful s₂) s₂ e₂ h₂)
                  intro r s₃ e₃ h₃
                  cases r with
                  | error x => trivial
                  | ok replayed =>
                      cases replayed with
                      | false => exact hgiveUp h₃
                      | true =>
                          refine wp_bind _ _ s₃ e₃ (pairWp_silent (i := .monotonic) (fun _ hv => hv) (fun r e₄ h₄ => ?_))
                          cases r with
                          | error x => trivial
                          | ok now =>
                              refine wp_bind _ _ s₃ e₄ ((wp_modify _).mpr ?_)
                              show AtRest d _ (e₄.log j)
                              rw [h₄]
                              exact atRest_ofUpstream d s₃ _ _ rfl h₃

theorem told_own {t : Talk} {command line : String} (hdue : t.due = .reply command) (hown : OwnLine line)
    (hne : line ≠ opener) : t.told line = .nothing := by
  obtain ⟨hfinal, hopening⟩ := hown.whole
  simp only [Talk.told, hdue]
  split
  · next hrelays =>
      have hpreliminary : t.preliminary = false := by
        simp only [Talk.relays, Talk.preliminary] at hrelays ⊢
        cases hlatest : t.latest with
        | none => rfl
        | some p =>
            rw [hlatest, Option.any_some, Bool.and_eq_true, beq_iff_eq] at hrelays
            rw [Option.any_some, hrelays.2]
            cases p.1 <;> simp [Owed.preliminary, hfinal]
      simp [hpreliminary]
  · simp [hopening hne]

theorem pairWp_own {command line : String} {Q : Except Exc Unit → ControlSession → Proxy → Prop}
    (hdue : Waiting (.reply command) s (e.log j)) (hown : OwnLine line) (hne : line ≠ opener)
    (hQ : ∀ r e', talk (e'.log j) = { talk (e.log j) with due := .nothing } → Q r s e') :
    pairWp j l (send line) Q s e := by
  refine pairWp_send ?_ (fun r e' h => hQ r e' ?_)
  · simp only [Talk.tells, show (talk (e.log j)).due = .reply command from hdue]
    exact .inl hown
  · rw [h]
    simp only [Talk.step, told_own hdue hown hne]

theorem paired_own {command line : String} (h : AtRest (.reply command) s (e.log j)) (hown : OwnLine line)
    (hne : line ≠ opener) : pairWp j l (send line) (Then (AtRest .nothing) j) s e := by
  refine pairWp_own h.due hown hne (fun r e' he => ?_)
  cases r with
  | ok _ => exact ⟨by rw [he], fun hu => by rw [he]; exact h.owed hu⟩
  | error x => trivial

theorem paired_fixed {command line : String} (h : AtRest (.reply command) s (e.log j)) (hfixed : line ∈ fixedLines)
    (hne : line ≠ opener) : pairWp j l (send line) (Then (AtRest .nothing) j) s e :=
  paired_own h (.fixed hfixed) hne

theorem paired_composed {command line : String} (h : AtRest (.reply command) s (e.log j)) (hcomposed : Composed line) :
    pairWp j l (send line) (Then (AtRest .nothing) j) s e :=
  paired_own h (.composed hcomposed) hcomposed.ne_opener

theorem paired_farewell {command line : String} (h : Waiting (.reply command) s (e.log j)) (hfixed : line ∈ fixedLines)
    (hne : line ≠ opener) :
    pairWp j l (send line >>= fun _ => releaseUpstream) (Then (AtRest .nothing) j) s e := by
  refine wp_bind _ _ s e (pairWp_own h (.fixed hfixed) hne (fun r e₁ h₁ => ?_))
  cases r with
  | error x => trivial
  | ok _ => exact paired_releaseUpstream (by rw [Waiting, h₁])

theorem paired_connect (h : AtRest d s (e.log j)) : pairWp j l connect (Then (AtRest d) j) s e := by
  refine wp_bind _ _ s e (wp_attempt _ s e ?_)
  refine transcriptWp_openConnection (fun v hv => by cases hv; trivial) (fun e₁ h₁ => ?_) (fun x e₁ h₁ => ?_)
  · refine wp_bind _ _ s e₁ ((wp_modify _).mpr (paired_setUp ?_ ?_ rfl))
    · rw [h₁]
      rfl
    · show (talk (e₁.log j)).due = d
      rw [h₁]
      exact h.due
  · dsimp only
    split
    · refine wp_bind _ _ s e₁ (wp_mono _ ?_ s e₁ (paired_releaseUpstream (d := d) (by rw [h₁]; exact h.due)))
      intro r s' e' hr
      cases r <;> exact hr
    · trivial

theorem paired_ensureUpstream {priority : Int} (h : AtRest d s (e.log j)) :
    pairWp j l (ensureUpstream priority) (Then (AtRest d) j) s e := by
  refine wp_bind _ _ s e (wp_get.mpr ?_)
  cases hu : s.upstream with
  | true =>
      simp only [hu, if_true]
      exact h
  | false =>
      simp only [hu, Bool.false_eq_true, if_false]
      refine wp_bind _ _ s e (wp_mono _ ?_ s e (narrates_robust.acquireSlot abides_queues priority s e h))
      intro r s₁ e₁ h₁
      cases r with
      | error x => trivial
      | ok acquired =>
          cases acquired with
          | false => exact h₁
          | true => exact wp_bind _ _ s₁ e₁ ((wp_modify _).mpr (paired_connect (atRest_ofUpstream d s₁ _ _ rfl h₁)))

theorem paired_askPassive (commands : List String) (hplain : ∀ command ∈ commands, command ∉ transferCommands) :
    ∀ s e, AtRest d s (e.log j) → pairWp j l (askPassive commands) (fun r s' e' =>
      match r with
      | .ok .lost => Waiting d s' (e'.log j)
      | .ok _ => AtRest d s' (e'.log j)
      | .error _ => True) s e := by
  induction commands with
  | nil => exact fun s e h => h
  | cons command rest ih =>
      intro s e h
      have hrest := ih (fun c hc => hplain c (List.mem_cons_of_mem _ hc))
      refine wp_issue (hplain _ List.mem_cons_self) h (fun _ _ _ => trivial) (fun s' e' hw => hw) ?_
      intro text s₁ e₁ h₁
      dsimp only
      split
      · split
        · exact h₁
        · exact hrest s₁ e₁ h₁
      · exact hrest s₁ e₁ h₁

theorem abides_taskDone (n : Nat) : Abides pairedCall (AtRest d) (.taskDone n) where
  stays v s log hv h := by
    obtain ⟨phase, rfl⟩ := hv
    exact ⟨h.due, h.owed⟩
  covers _ _ _ v hv := by
    obtain ⟨phase, rfl⟩ := hv
    trivial

abbrev Prepared (command : String) (j : Nat) (r : Except Exc Bool) (s : ControlSession) (e : Proxy) : Prop :=
  match r with
  | .ok true => AtRest (.reply command) s (e.log j)
  | .ok false => AtRest .nothing s (e.log j)
  | .error _ => True

theorem paired_declined {command line : String} {f : Session Bool} (h : AtRest (.reply command) s (e.log j))
    (hfixed : line ∈ fixedLines) (hne : line ≠ opener) (hf : f = pure false) :
    pairWp j l (cancelDataRelay >>= fun _ => send line >>= fun _ => f) (Prepared command j) s e := by
  subst hf
  refine wp_bind _ _ s e (wp_mono _ ?_ s e (paired_cancelDataRelay (atRest_ofUpstream _) h))
  intro r s₁ e₁ h₁
  cases r with
  | error x => trivial
  | ok _ =>
      refine wp_bind _ _ s₁ e₁ (wp_mono _ ?_ s₁ e₁ (paired_fixed h₁ hfixed hne))
      intro r s₂ e₂ h₂
      cases r <;> exact h₂

theorem paired_lost {command line : String} (h : Waiting (.reply command) s (e.log j)) (hfixed : line ∈ fixedLines)
    (hne : line ≠ opener) :
    pairWp j l (cancelDataRelay >>= fun _ => send line >>= fun _ => releaseUpstream) (Then (AtRest .nothing) j) s e := by
  refine wp_bind _ _ s e (wp_mono _ ?_ s e (paired_cancelDataRelay (waiting_ofUpstream _) h))
  intro r s₁ e₁ h₁
  cases r with
  | error x => trivial
  | ok _ => exact paired_farewell h₁ hfixed hne

theorem paired_offer {command : String} {relay : Nat} {host : String} (h : AtRest (.reply command) s (e.log j)) :
    pairWp j l (askPassive ["PASV", "EPSV"] >>= fun offer => match offer with
      | .lost => do
          cancelDataRelay
          send "421 Lost connection to printer\r\n"
          releaseUpstream
          pure false
      | .refused => do
          cancelDataRelay
          send "425 Cannot open passive connection\r\n"
          pure false
      | .port port => do
          ask (.setEndpoint relay host port)
          pure true) (Prepared command j) s e := by
  refine wp_bind _ _ s e (wp_mono _ ?_ s e (paired_askPassive _ (by decide) s e h))
  intro r s₁ e₁ h₁
  cases r with
  | error x => trivial
  | ok offer =>
      cases offer with
      | lost =>
          refine wp_bind _ _ s₁ e₁ (wp_mono _ ?_ s₁ e₁ (paired_cancelDataRelay (waiting_ofUpstream _) h₁))
          intro r s₂ e₂ h₂
          cases r with
          | error x => trivial
          | ok _ =>
              refine wp_bind _ _ s₂ e₂ (pairWp_own h₂ (.fixed (by decide)) (by decide) (fun r e₃ h₃ => ?_))
              cases r with
              | error x => trivial
              | ok _ =>
                  refine wp_bind _ _ s₂ e₃ (wp_mono _ ?_ s₂ e₃ (paired_releaseUpstream (by rw [Waiting, h₃])))
                  intro r s₄ e₄ h₄
                  cases r <;> exact h₄
      | refused => exact paired_declined h₁ (by decide) (by decide) rfl
      | port port =>
          refine wp_bind _ _ s₁ e₁ (pairWp_silent (i := .setEndpoint relay host port) (fun _ hv => hv) (fun r e₂ h₂ => ?_))
          cases r with
          | error x => trivial
          | ok _ =>
              show AtRest (.reply command) s₁ (e₂.log j)
              rw [h₂]
              exact h₁

theorem paired_prepareUpstreamData {command : String} (h : AtRest (.reply command) s (e.log j)) :
    pairWp j l prepareUpstreamData (Prepared command j) s e := by
  refine wp_bind _ _ s e (wp_get.mpr ?_)
  cases hdata : s.data with
  | none =>
      simp only [hdata]
      exact h
  | some relay =>
      simp only [hdata]
      refine wp_bind _ _ s e (pairWp_silent (i := .endpointDone relay.relay) (fun _ hv => hv) (fun r e₁ h₁ => ?_))
      have hrest : AtRest (.reply command) s (e₁.log j) := h₁ ▸ h
      cases r with
      | error x => trivial
      | ok done =>
          cases done with
          | true => exact hrest
          | false =>
              refine wp_bind _ _ s e₁ (wp_mono _ ?_ s e₁ (narrates_ask (abides_taskDone relay.relay) s e₁ hrest))
              intro r s₂ e₂ h₂
              cases r with
              | error x => trivial
              | ok gone =>
                  cases gone with
                  | true => exact paired_declined h₂ (by decide) (by decide) rfl
                  | false => exact paired_offer h₂

theorem outcome_of {o : Owed} {e₀ e₁ : Proxy} (howed : (talk (e₀.log j)).owed = some [o]) (hdue : Waiting d s (e₀.log j))
    (h₀ : e₁.log j = e₀.log j) {reply : Option String} {e' : Proxy} (h : e'.log j = .answered reply :: e₁.log j) :
    Outcome o d j s.upstream (.ok reply) s e' :=
  outcome_noted howed hdue (h.trans (by rw [h₀]))

theorem paired_awaitCompletion {o : Owed} (howed : (talk (e.log j)).owed = some [o]) (hdue : Waiting d s (e.log j)) :
    pairWp j l awaitCompletion (Outcome o d j s.upstream) s e := by
  have hpermit : ∀ {i : Op} {e₁ : Proxy}, (∀ v, emits i v → ∃ reply, v = .answered reply) → e₁.log j = e.log j →
      pairedCall i (e₁.log j) := by
    intro i e₁ hi h₁ v hv
    obtain ⟨reply, rfl⟩ := hi v hv
    rw [h₁]
    exact answered_permitted howed reply
  refine wp_bind _ _ s e (pairWp_silent (i := .createReply _) (fun _ hv => hv) (fun r e₁ h₁ => ?_))
  cases r with
  | error x => trivial
  | ok _ =>
      refine wp_bind _ _ s e₁ (wp_get.mpr (wp_bind _ _ s e₁ (pairWp_silent (i := .waitReply _) (fun _ hv => hv)
        (fun r e₂ h₂ => ?_))))
      have hlog₂ : e₂.log j = e.log j := h₂.trans h₁
      cases r with
      | error x => trivial
      | ok replied =>
          cases replied with
          | true =>
              refine transcriptWp_replyResult (hpermit (fun _ hv => hv) hlog₂) (fun reply e₃ h₃ => ?_) (fun _ _ _ => trivial)
              exact outcome_of howed hdue hlog₂ h₃
          | false =>
              refine wp_bind _ _ s e₂ (pairWp_silent (i := .moved) (fun _ hv => hv) (fun r e₃ h₃ => ?_))
              have hlog₃ : e₃.log j = e.log j := h₃.trans hlog₂
              cases r with
              | error x => trivial
              | ok moved =>
                  refine wp_tryCatch _ _ (transcriptWp_awaitReply (hpermit (fun _ hv => hv) hlog₃)
                    (fun reply e₄ h₄ => outcome_of howed hdue hlog₃ h₄) (fun x e₄ h₄ => ?_))
                  cases x with
                  | timeout =>
                      refine wp_bind _ _ s e₄ (pairWp_silent (i := .cancelReply) (fun _ hv => hv) (fun r e₅ h₅ => ?_))
                      cases r with
                      | error x => trivial
                      | ok _ =>
                          refine wp_bind _ _ s e₅ (wp_suppress _ _ (pairWp_silent (i := .awaitReplyCancelled)
                            (fun _ hv => hv) (fun r e₆ h₆ => ?_)))
                          have hend : Waiting d s (e₆.log j) := by
                            rw [h₆, h₅, h₄, hlog₃]
                            exact hdue
                          cases r with
                          | ok _ => exact hend
                          | error x =>
                              dsimp only
                              split
                              · exact hend
                              · trivial
                  | _ => trivial

theorem relays_reply {o : Owed} {text command : String} {log : List Event} (h : Replied o text d log)
    (ho : o.answers command = true) : (talk log).relays command text = true := by
  simp [Talk.relays, h.latest, ho]

theorem preliminary_reply {o : Owed} {text : String} {log : List Event} (h : Replied o text d log) :
    (talk log).preliminary = o.preliminary text := by
  simp [Talk.preliminary, h.latest]

theorem paired_finishTransfer {request : Request} {line : String}
    (howed : (talk (e.log j)).owed = some [.completion request]) (hdue : Waiting (.completion line) s (e.log j))
    (hline : (Owed.completion request).answers line = true) :
    pairWp j l finishTransfer (Then (AtRest .nothing) j) s e := by
  have htold : ∀ {t : Talk} (text : String), t.due = .completion line → t.told text = .nothing := by
    intro t text h
    simp only [Talk.told, h]
  refine wp_bind _ _ s e (wp_mono _ ?_ s e (paired_awaitCompletion howed hdue))
  intro r s₁ e₁ h₁
  cases r with
  | error x => trivial
  | ok final =>
      cases final with
      | none =>
          have hdue₁ : (talk (e₁.log j)).due = .completion line := h₁
          refine wp_bind _ _ s₁ e₁ (pairWp_send ?_ (fun r e₂ h₂ => ?_))
          · simp only [Talk.tells, hdue₁]
            exact .inl (.fixed (by decide))
          · cases r with
            | error x => trivial
            | ok _ => exact paired_releaseUpstream (by rw [Waiting, h₂]; exact htold _ hdue₁)
      | some final =>
          obtain ⟨_, hreplied⟩ := h₁
          refine pairWp_send ?_ (fun r e₂ h₂ => ?_)
          · simp only [Talk.tells, hreplied.due]
            exact .inr ⟨relays_reply hreplied hline, preliminary_reply hreplied⟩
          · cases r with
            | error x => trivial
            | ok _ =>
                refine ⟨?_, fun _ => ?_⟩
                · rw [h₂]
                  exact htold _ hreplied.due
                · rw [h₂]
                  exact hreplied.owed

theorem preliminary_forward (command argument line text : String) :
    (Owed.reply (.forward command argument line)).preliminary text =
      (Str.startswith text "1" && decide (command ∈ transferCommands)) := rfl

theorem leaves_forward (command argument line text : String) :
    (Owed.reply (.forward command argument line)).leaves text =
      if (Str.startswith text "1" && decide (command ∈ transferCommands)) = true then
        [.completion (.forward command argument line)] else [] := rfl

theorem paired_answerClient {command argument : String} {reply : Option String} (line : String)
    (h : Outcome (.reply (.forward command argument line)) (.reply line) j s.upstream (.ok reply) s e) :
    pairWp j l (answerClient command argument reply) (Then (AtRest .nothing) j) s e := by
  cases reply with
  | none => exact paired_lost h (by decide) (by decide)
  | some reply =>
      obtain ⟨_, hreplied⟩ := h
      have hrelays := relays_reply hreplied (beq_self_eq_true line)
      have hpreliminary := preliminary_reply hreplied
      refine wp_bind _ _ s e ((wp_modify _).mpr (wp_bind _ _ _ e (pairWp_send ?_ (fun r e₁ h₁ => ?_))))
      · simp only [Talk.tells, hreplied.due]
        exact .inr hrelays
      · have hdue : (talk (e₁.log j)).due =
            if (Str.startswith reply "1" && decide (command ∈ transferCommands)) = true then .completion line
            else .nothing := by
          rw [h₁, ← preliminary_forward command argument line]
          simp only [Talk.step, Talk.told, hreplied.due, hrelays, hpreliminary, if_true]
        have howed : (talk (e₁.log j)).owed = some ((Owed.reply (.forward command argument line)).leaves reply) := by
          rw [h₁]
          exact hreplied.owed
        rw [leaves_forward] at howed
        cases r with
        | error x => trivial
        | ok _ =>
            dsimp only
            cases hp : (Str.startswith reply "1" && decide (command ∈ transferCommands)) with
            | true =>
                rw [hp] at hdue howed
                exact paired_finishTransfer howed hdue (beq_self_eq_true line)
            | false =>
                rw [hp] at hdue howed
                exact ⟨hdue, fun _ => howed⟩

theorem paired_forward {command argument line : String} (h : AtRest (.reply line) s (e.log j)) :
    pairWp j l (forward command argument line) (Then (AtRest .nothing) j) s e := by
  refine wp_bind _ _ s e (wp_mono _ ?_ s e (paired_sendUpstream h))
  intro r s₁ e₁ h₁
  cases r with
  | error x => trivial
  | ok reply =>
      refine paired_answerClient line ?_
      cases reply with
      | none => exact h₁
      | some text => exact ⟨rfl, h₁.2⟩

theorem paired_connectAndForward {command argument line : String} (h : AtRest (.reply line) s (e.log j)) :
    pairWp j l (connectAndForward command argument line) (Then (AtRest .nothing) j) s e := by
  refine wp_bind _ _ s e (wp_mono _ ?_ s e (paired_ensureUpstream h))
  intro r s₁ e₁ h₁
  cases r with
  | error x => trivial
  | ok connected =>
      cases connected with
      | false =>
          refine wp_bind _ _ s₁ e₁ (wp_mono _ ?_ s₁ e₁ (paired_cancelDataRelay (atRest_ofUpstream _) h₁))
          intro r s₂ e₂ h₂
          cases r with
          | error x => trivial
          | ok _ => exact paired_fixed h₂ (by decide) (by decide)
      | true =>
          by_cases htransfer : command ∈ transferCommands
          · simp only [Bool.not_true, Bool.false_eq_true, if_false, htransfer, if_true]
            refine wp_bind _ _ s₁ e₁ (wp_mono _ ?_ s₁ e₁ (paired_prepareUpstreamData h₁))
            intro r s₂ e₂ h₂
            cases r with
            | error x => trivial
            | ok prepared =>
                cases prepared with
                | false => exact h₂
                | true => exact paired_forward h₂
          · simp only [Bool.not_true, Bool.false_eq_true, if_false, htransfer]
            exact paired_forward h₁

theorem paired_handleUpstream {command argument line : String} (h : AtRest (.reply line) s (e.log j)) :
    pairWp j l (handleUpstream command argument line) (Then (AtRest .nothing) j) s e := by
  refine wp_bind _ _ s e (wp_get.mpr ?_)
  by_cases hlost : s.lostSettings ≠ [] ∧ command ∉ statefulCommands
  · dsimp only
    rw [if_pos hlost]
    exact paired_composed h (.reissue _)
  by_cases htransfer : command ∈ transferCommands
  · simp only [hlost, if_false, htransfer, if_true]
    cases s.data with
    | none => exact paired_fixed h (by decide) (by decide)
    | some relay =>
        refine wp_bind _ _ s e (pairWp_silent (i := .endpointDone relay.relay) (fun _ hv => hv) (fun r e₁ h₁ => ?_))
        have hrest : AtRest (.reply line) s (e₁.log j) := h₁ ▸ h
        cases r with
        | error x => trivial
        | ok done =>
            cases done with
            | true => exact paired_fixed hrest (by decide) (by decide)
            | false =>
                refine wp_bind _ _ s e₁ (pairWp_silent (i := .setCommandSeen relay.relay) (fun _ hv => hv)
                  (fun r e₂ h₂ => ?_))
                cases r with
                | error x => trivial
                | ok _ => exact paired_connectAndForward (h₂ ▸ hrest)
  · simp only [hlost, if_false, htransfer]
    exact paired_connectAndForward h

theorem paired_handlePassiveRequest {command argument line : String} (h : AtRest (.reply line) s (e.log j)) :
    pairWp j l (handlePassiveRequest command argument) (Then (AtRest .nothing) j) s e := by
  refine wp_bind _ _ s e (wp_get.mpr ?_)
  by_cases hall : command = "EPSV" ∧ Str.upper argument = "ALL"
  · dsimp only
    rw [if_pos hall]
    exact paired_fixed h (by decide) (by decide)
  by_cases hipv4 : command = "PASV" ∧ s.localIpv4 = none
  · dsimp only
    rw [if_neg hall, if_pos hipv4]
    exact paired_fixed h (by decide) (by decide)
  dsimp only
  rw [if_neg hall, if_neg hipv4]
  refine wp_bind _ _ s e (wp_mono _ ?_ s e (narrates_robust.openPassiveRelay (abides_relays (atRest_ofUpstream _)) s e h))
  intro r s₁ e₁ h₁
  cases r with
  | error x => trivial
  | ok localPort =>
      cases localPort with
      | none => exact paired_fixed h₁ (by decide) (by decide)
      | some localPort =>
          refine wp_bind _ _ s₁ e₁ ((wp_modify _).mpr ?_)
          have hrest : AtRest (.reply line) { s₁ with passiveMode := some command } (e₁.log j) :=
            atRest_ofUpstream _ s₁ _ _ rfl h₁
          by_cases hextended : command = "EPSV"
          · simp only [hextended, if_true] at hrest ⊢
            exact paired_composed hrest (.extended _)
          · simp only [hextended, if_false]
            exact paired_composed hrest (.passive _ _)

abbrev Handled (line : String) (j : Nat) (r : Except Exc Bool) (s : ControlSession) (e : Proxy) : Prop :=
  match r with
  | .ok true => AtRest .nothing s (e.log j)
  | .ok false => AtRest (.reply line) s (e.log j)
  | .error _ => True

theorem paired_told {command line : String} (h : AtRest (.reply command) s (e.log j)) (hown : OwnLine line)
    (hne : line ≠ opener) :
    pairWp j l (send line >>= fun _ => pure true) (Handled command j) s e := by
  refine wp_bind _ _ s e (wp_mono _ ?_ s e (paired_own h hown hne))
  intro r s' e' hr
  cases r <;> exact hr

structure Incoming (command : String) (s : ControlSession) (log : List Event) : Prop extends
    AtRest (.reply command) s log where
  latest : (talk log).latest = none

theorem paired_features {command : String} (h : Incoming command s (e.log j)) :
    pairWp j l (send opener >>= fun _ => send "211 End\r\n" >>= fun _ => pure true) (Handled command j) s e := by
  have hopening : openingCode opener = some "211 " := by
    decide +kernel
  refine wp_bind _ _ s e (pairWp_send ?_ (fun r e₁ h₁ => ?_))
  · simp only [Talk.tells, h.due]
    exact .inl (.fixed (by decide))
  · have hdue : (talk (e₁.log j)).due = .rest "211 " := by
      rw [h₁]
      simp only [Talk.step, Talk.told, h.due, Talk.relays, h.latest, Option.any_none, Bool.false_eq_true, if_false, hopening]
    cases r with
    | error x => trivial
    | ok _ =>
        refine wp_bind _ _ s e₁ (pairWp_send ?_ (fun r e₂ h₂ => ?_))
        · simp only [Talk.tells, hdue]
          exact ⟨.fixed (by decide), by decide +kernel⟩
        · cases r with
          | error x => trivial
          | ok _ =>
              refine ⟨?_, fun hu => ?_⟩
              · rw [h₂]
                simp only [Talk.step, Talk.told, hdue]
              · rw [h₂, Talk.step, h₁]
                exact h.owed hu

theorem paired_handleLocal {command argument line : String} (h : Incoming line s (e.log j)) :
    pairWp j l (handleLocal command argument) (Handled line j) s e := by
  have hanswer : ∀ {text s'}, s'.upstream = s.upstream → text ∈ fixedLines → text ≠ opener →
      pairWp j l (send text >>= fun _ => pure true) (Handled line j) s' e :=
    fun hu hfixed hne => paired_told (atRest_ofUpstream _ s _ _ hu h.toAtRest) (.fixed hfixed) hne
  refine wp_bind _ _ s e (wp_get.mpr ?_)
  dsimp only
  split
  · exact hanswer rfl (by decide) (by decide)
  split
  · split
    · exact hanswer rfl (by decide) (by decide)
    · refine wp_bind _ _ s e ((wp_modify _).mpr ?_)
      exact hanswer rfl (by decide) (by decide)
  split
  · exact hanswer rfl (by decide) (by decide)
  split
  · exact hanswer rfl (by decide) (by decide)
  split
  · exact paired_features h
  split
  · exact hanswer rfl (by decide) (by decide)
  split
  · exact hanswer rfl (by decide) (by decide)
  split
  · split
    · exact h.toAtRest
    split
    · exact h.toAtRest
    · refine wp_bind _ _ s e ((wp_modify _).mpr (wp_bind _ _ _ e ((wp_modify _).mpr ?_)))
      have hset : Composed ("200 " ++ command ++ " set to " ++ argument ++ "\r\n") := .accepted command argument
      exact paired_told (atRest_ofUpstream _ s _ _ rfl h.toAtRest) (.composed hset) hset.ne_opener
  · exact h.toAtRest

theorem paired_serve {line : String} (h : Incoming line s (e.log j)) :
    pairWp j l (serve line) (Then (AtRest .nothing) j) s e := by
  have hthen : ∀ {c : Session Unit} {next : Label} {s e}, pairWp j l c (Then (AtRest .nothing) j) s e →
      pairWp j l (c >>= fun _ => pure next) (Then (AtRest .nothing) j) s e := by
    intro c next s e hc
    refine wp_bind _ _ s e (wp_mono _ ?_ s e hc)
    intro r s' e' hr
    cases r <;> exact hr
  have hanswer : ∀ {text} {next : Label}, text ∈ fixedLines → text ≠ opener →
      pairWp j l (send text >>= fun _ => pure next) (Then (AtRest .nothing) j) s e :=
    fun hfixed hne => hthen (paired_fixed h.toAtRest hfixed hne)
  refine wp_bind _ _ s e (wp_get.mpr ?_)
  dsimp only
  split
  · exact hanswer (by decide) (by decide)
  split
  · exact hanswer (by decide) (by decide)
  split
  · exact hanswer (by decide) (by decide)
  split
  · exact hthen (paired_handlePassiveRequest h.toAtRest)
  · refine wp_bind _ _ s e (wp_mono _ ?_ s e (paired_handleLocal h))
    intro r s₁ e₁ h₁
    cases r with
    | error x => trivial
    | ok handled =>
        cases handled with
        | true => exact h₁
        | false => exact hthen (paired_handleUpstream h₁)

theorem paired_idle (h : AtRest .nothing s (e.log j)) : pairWp j l idle (Then (AtRest .nothing) j) s e := by
  refine wp_bind _ _ s e (wp_get.mpr ?_)
  cases hu : s.upstream with
  | false =>
      simp only [hu, Bool.false_eq_true, if_false]
      exact h
  | true =>
      simp only [hu, if_true]
      refine wp_bind _ _ s e (pairWp_silent (i := .monotonic) (fun _ hv => hv) (fun r e₁ h₁ => ?_))
      have hrest : AtRest .nothing s (e₁.log j) := h₁ ▸ h
      cases r with
      | error x => trivial
      | ok now =>
          dsimp only
          split
          · exact hrest
          · refine wp_bind _ _ s e₁ (wp_mono _ ?_ s e₁ (paired_releaseUpstream hrest.due))
            intro r s' e' hr
            cases r <;> exact hr

theorem paired_readTimeout (h : AtRest .nothing s (e.log j)) :
    pairWp j l readTimeout (Then (AtRest .nothing) j) s e := by
  refine wp_bind _ _ s e (wp_get.mpr ?_)
  cases hu : s.upstream with
  | false =>
      simp only [hu, Bool.false_eq_true, if_false]
      exact h
  | true =>
      simp only [hu, if_true]
      refine wp_bind _ _ s e (pairWp_silent (i := .monotonic) (fun _ hv => hv) (fun r e₁ h₁ => ?_))
      cases r with
      | error x => trivial
      | ok now =>
          show AtRest .nothing s (e₁.log j)
          rw [h₁]
          exact h

theorem paired_readAndServe (h : AtRest .nothing s (e.log j)) :
    pairWp j l readAndServe (fun r s' e' =>
      match r with
      | .ok next => next = .closing ∨ AtRest .nothing s' (e'.log j)
      | .error _ => True) s e := by
  refine wp_bind _ _ s e (wp_mono _ ?_ s e (paired_readTimeout h))
  intro r s₁ e₁ h₁
  cases r with
  | error x => trivial
  | ok timeout =>
      refine wp_bind _ _ s₁ e₁ (wp_attempt _ s₁ e₁ (transcriptWp_readline ?_ (fun raw e₂ h₂ => ?_) (fun x e₂ h₂ => ?_)))
      · rintro v ⟨raw, rfl⟩
        exact h₁.due
      · dsimp only
        split
        · exact .inl rfl
        · have hincoming : Incoming (decodeLine raw) s₁ (e₂.log j) := by
            rw [h₂]
            exact ⟨⟨rfl, h₁.owed⟩, rfl⟩
          refine wp_mono _ ?_ s₁ e₂ (paired_serve hincoming)
          intro r s' e' hr
          cases r with
          | ok next => exact .inr hr
          | error x => trivial
      · cases x with
        | timeout =>
            refine wp_mono _ ?_ s₁ e₂ (paired_idle (h₂ ▸ h₁))
            intro r s' e' hr
            cases r with
            | ok next => exact .inr hr
            | error x => trivial
        | connectionReset | ssl | value => exact .inl rfl
        | cancelled | os | other => trivial

theorem paired_close : pairWp j l close (fun _ _ _ => True) s e := by
  have hI : OfUpstream fun _ _ => True := fun _ _ _ _ h => h
  have hclose : Narrates Paired pairedCall pairing j l (fun _ _ => True) (fun _ _ => True) close := by
    refine narrates_robust.bind (narrates_robust.releaseUpstream (abides_closes hI fun _ _ h => h) fun _ _ h => h) (fun _ => ?_)
    refine narrates_robust.bind (narrates_robust.cancelDataRelay (abides_relays hI)) (fun _ => ?_)
    exact narrates_robust.closeClientWriter (.silent (fun _ hv => hv)) (.silent (fun _ hv => hv)) (.silent (fun _ hv => hv))
  exact wp_mono _ (fun _ _ _ _ => trivial) s e (hclose s e trivial)

theorem paired_turn (hl : l ≠ .closing) (h : pairing l s (e.log j)) :
    pairWp j l (turn l) (fun r s' e' =>
      match r with
      | .ok next => pairing next s' (e'.log j)
      | .error _ => True) s e := by
  cases l with
  | start =>
      obtain ⟨hdue, hu⟩ := h
      refine wp_bind _ _ s e (pairWp_send ?_ (fun r e₁ h₁ => ?_))
      · simp only [Talk.tells, hdue]
        exact .fixed (by decide)
      · cases r with
        | error x => trivial
        | ok _ =>
            refine ⟨?_, fun hup => absurd hup (by simp [hu])⟩
            rw [h₁]
            simp only [Talk.step, Talk.told, hdue]
  | running =>
      refine wp_bind _ _ s e (pairWp_silent (i := .running) (fun _ hv => hv) (fun r e₁ h₁ => ?_))
      cases r with
      | error x => trivial
      | ok running =>
          have hrest : AtRest .nothing s (e₁.log j) := by
            rw [h₁]
            exact h
          cases running with
          | true => exact hrest
          | false => trivial
  | reading =>
      refine wp_mono _ ?_ s e (wp_returns _ readAndServe_returns s e (paired_readAndServe h))
      rintro r s' e' ⟨hne, hr⟩
      cases r with
      | error x => trivial
      | ok next =>
          cases next with
          | start => exact absurd rfl (hne .start rfl)
          | closing => trivial
          | running => exact hr.resolve_left nofun
          | reading => exact hr.resolve_left nofun
  | closing => exact absurd rfl hl

theorem paired_body {clients : Clients} (h : pairing l s (e.log j)) :
    pairWp j l (body l) ((transcript Paired pairedCall pairing).post (ftpProxy clients) j l) s e := by
  have hturn : l ≠ .closing → pairWp j l (turn l >>= fun next => pure (some next))
      ((transcript Paired pairedCall pairing).post (ftpProxy clients) j l) s e := by
    intro hl
    refine wp_bind _ _ s e (wp_mono _ ?_ s e (paired_turn hl h))
    intro r s' e' hr
    cases r with
    | ok next => exact hr
    | error x =>
        cases l with
        | closing => exact absurd rfl hl
        | _ => trivial
  cases l with
  | start => exact hturn nofun
  | running => exact hturn nofun
  | reading => exact hturn nofun
  | closing =>
      refine wp_bind _ _ s e (wp_mono _ ?_ s e paired_close)
      intro r s' e' _
      cases r <;> trivial

end

theorem pairing_verified (clients : Clients) : (transcript Paired pairedCall pairing).Verified (ftpProxy clients) :=
  transcript_verified (fun _ v _ hgood hp hv => hgood.cons (hp v hv)) (fun _ _ _ _ h => paired_body h)
    (fun _ _ => ⟨rfl, rfl⟩)

end Session

structure InStep (log : List Event) : Prop where
  asked : ∀ request view earlier, (.asked request view :: earlier) <:+ log → (talk earlier).owed = some []
  answered : ∀ text earlier, (.answered (some text) :: earlier) <:+ log → ∃ o rest, (talk earlier).owed = some (o :: rest)
  told : ∀ line earlier, (.told line :: earlier) <:+ log → (talk earlier).tells line
  received : ∀ raw earlier, (.received raw :: earlier) <:+ log → Whole (said earlier)

theorem Paired.suffix {log earlier : List Event} (h : Paired log) (hs : earlier <:+ log) : Paired earlier :=
  fun v before hv => h v before (hv.trans hs)

theorem Paired.whole {log : List Event} (h : Paired log) (hdue : (talk log).due = .nothing) : Whole (said log) := by
  have hprogress := h.progress
  rw [hdue] at hprogress
  exact hprogress

theorem Paired.inStep {log : List Event} (h : Paired log) : InStep log where
  asked _ _ earlier hs := h _ earlier hs
  answered _ earlier hs := h _ earlier hs
  told _ earlier hs := h _ earlier hs
  received _ earlier hs := (h.suffix ((List.suffix_cons _ _).trans hs)).whole (h _ earlier hs)

theorem replies_in_step {clients : Clients} {q : SessionQueue} {pool : DataPortPool} {c : FtpConfig}
    (hrun : (ftpProxy clients).Runs (fun _ _ _ => True) (startup q pool) c) (j : Nat) :
    InStep (c.env.log j) ∧
      ∀ l timeout k s, c.procs j = .waiting l (.readline timeout) k s → Whole (said (c.env.log j)) := by
  have hholds := Session.transcript_holds (fun v earlier hs => absurd (List.suffix_nil.mp hs) (by simp))
    (Session.pairing_verified clients) hrun
  refine ⟨(hholds.inv j).inStep, fun l timeout k s hwaiting => ?_⟩
  have hproc := hholds.procs j
  rw [hwaiting] at hproc
  exact (hholds.inv j).whole (hproc.2.1 (.received []) ⟨[], rfl⟩)

def completes : List FtpAct :=
  answers 0 "150 go ahead\r\n" ++ [.tick (.reply 0 (.ok (some "226 done\r\n"))), .resume 0 (.waitReply (some 0)) (.ok true)]

theorem replies_in_step_upload : ∃ c, (ftpProxy lan).runActs (startup oneSlot onePort)
    (opensData ++ stores ++ completes) = some c ∧ said (c.env.log 0) = ["226 done\r\n", "150 go ahead\r\n"] ∧
      InStep (c.env.log 0) := by
  have hend : ((ftpProxy lan).runActs (startup oneSlot onePort) (opensData ++ stores ++ completes)).map
      (fun c => said (c.env.log 0)) = some ["226 done\r\n", "150 go ahead\r\n"] := by
    decide +kernel
  obtain ⟨c, hc, hsaid⟩ := Option.map_eq_some_iff.mp hend
  exact ⟨c, hc, hsaid, (replies_in_step ((ftpProxy lan).runActs_runs _ hc) 0).1⟩

end PandaProxy.FtpProxy
