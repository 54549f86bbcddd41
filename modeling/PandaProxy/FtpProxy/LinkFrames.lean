import PandaProxy.FtpProxy.Surroundings

namespace PandaProxy.FtpProxy

open Async FtpQueue

namespace Proxy

variable {β : Type}

-- What `π` reads of the links of these sessions is the same.
def SameLinks (K : Nat → Prop) (π : Link → β) (e e' : Proxy) : Prop :=
  ∀ k, K k → π (e'.links k) = π (e.links k)

namespace SameLinks

variable {K : Nat → Prop} {π : Link → β} {j : Nat} {e e' e'' : Proxy}

theorem refl (e : Proxy) : SameLinks K π e e := fun _ _ => rfl

theorem trans (h : SameLinks K π e e') (h' : SameLinks K π e' e'') : SameLinks K π e e'' :=
  fun k hk => (h' k hk).trans (h k hk)

theorem setLink {f : Link → Link} (hf : K j → ∀ l, π (f l) = π l) : SameLinks K π e (e.setLink j f) := by
  intro k hk
  rcases Decidable.em (k = j) with rfl | hne
  · simp [Proxy.setLink, hf hk]
  · simp [Proxy.setLink, hne]

theorem queueAct (e : Proxy) (a : QueueAct) : SameLinks K π e (e.queueAct a) := by
  unfold Proxy.queueAct
  split
  · exact fun _ _ => rfl
  · exact refl e

theorem onCall (e : Proxy) (j : Nat) (a : Nat → QueueAct) : SameLinks K π e (e.onCall j a) := by
  unfold Proxy.onCall
  split
  · exact queueAct e _
  · exact refl e

theorem giveBack (e : Proxy) (j : Nat) : SameLinks K π e (e.giveBack j) := by
  unfold Proxy.giveBack
  split
  · exact onCall e j _
  · exact fun _ _ => rfl

theorem reserve (hf : K j → ∀ l r, π { l with relay := r } = π l) (e : Proxy) :
    SameLinks K π e (e.reserve j).2 := by
  unfold Proxy.reserve
  split
  · exact refl e
  · exact setLink (e := e) (f := fun l => { l with relay := some e.reserved }) fun hk l => hf hk l _

theorem unbind (e : Proxy) (j : Nat) (port : Int) : SameLinks K π e (e.unbind j port) := by
  unfold Proxy.unbind
  split <;> exact fun _ _ => rfl

theorem onRelay {n : Nat} {x : Option Relay} (h : e.onRelay n x = some e') : SameLinks K π e e' := by
  unfold Proxy.onRelay at h
  split at h
  · obtain ⟨y, _, rfl⟩ := Option.map_eq_some_iff.mp h
    exact fun _ _ => rfl
  · cases h

end SameLinks

structure Blind (K : Nat → Prop) (π : Link → β) (j : Nat) (i : Op) : Prop where
  log : K j → ∀ l v, π { l with log := v } = π l
  inbox : K j → ∀ l v, π { l with inbox := v } = π l
  upstream : K j → ∀ l v w, π { l with upstream := v, upstreamFlow := w } = π l
  gone : K j → ∀ l v, π { l with gone := v } = π l
  reply : K j → ∀ l v, π { l with reply := v } = π l
  moved : K j → ∀ l v, π { l with moved := v } = π l
  call : K j → (∀ p, i ≠ .createAcquire p) ∨ ∀ l v, π { l with call := v } = π l
  relay : K j → i ≠ .acquirePort ∨ ∀ l v, π { l with relay := v } = π l

variable {K : Nat → Prop} {π : Link → β} {j : Nat} {i : Op} {e e' : Proxy}

theorem Blind.note (h : Blind K π j i) (e : Proxy) (v : Event) : SameLinks K π e (e.note j v) :=
  .setLink fun hk l => h.log hk l _

theorem Blind.received (h : Blind K π j i) (e : Proxy) (r : Except Exc (List UInt8)) :
    SameLinks K π e (e.received j r) := by
  cases r with
  | ok raw => exact h.note e _
  | error x => exact .refl e

theorem Blind.answered (h : Blind K π j i) (e : Proxy) (r : Except Exc (Option String)) :
    SameLinks K π e (e.answered j r) := by
  cases r with
  | ok reply => exact h.note e _
  | error x => exact .refl e

theorem sync_blind {r : Except Exc i.Answer} (hb : Blind K π j i) (h : sync j i e = some (r, e')) :
    SameLinks K π e e' := by
  cases i <;> simp only [sync] at h
  case readline =>
    split at h
    · cases h
    · cases h
      refine SameLinks.trans ?_ (hb.received _ r)
      exact .setLink fun hk l => hb.inbox hk l _
  case createAcquire p =>
    cases h
    refine SameLinks.trans ?_ (.queueAct _ _)
    refine .setLink fun hk l => ?_
    exact (hb.call hk).resolve_left (fun hne => hne p rfl) l _
  case closeUpstream =>
    cases h
    refine SameLinks.trans ?_ (hb.note _ _)
    exact .setLink fun hk l => hb.upstream hk l _ _
  case acquirePort =>
    cases h
    exact .reserve (fun hk l r => (hb.relay hk).resolve_left (fun hne => hne rfl) l r) e
  case replyResult =>
    split at h
    · cases h
      exact hb.answered _ _
    · cases h
      exact .refl e
  case awaitReply =>
    obtain ⟨r', _, h⟩ := Option.map_eq_some_iff.mp h
    cases h
    exact hb.answered _ _
  case drainClient =>
    obtain ⟨r', _, h⟩ := Option.map_eq_some_iff.mp h
    cases h
    exact .refl e
  case drainUpstream =>
    obtain ⟨r', _, h⟩ := Option.map_eq_some_iff.mp h
    cases h
    exact .refl e
  case awaitReplyCancelled =>
    obtain ⟨r', _, h⟩ := Option.map_eq_some_iff.mp h
    cases h
    exact .refl e
  all_goals
    repeat' split at h
  all_goals
    cases h <;> first
    | exact .refl e
    | exact fun _ _ => rfl
    | exact hb.note e _
    | exact .onCall e j _
    | exact .giveBack e j
    | exact .unbind e j _
    | exact .setLink fun hk l => hb.gone hk l _
    | exact .setLink fun hk l => hb.reply hk l _
    | exact .setLink fun hk l => hb.moved hk l _

theorem resume_blind {r : Except Exc i.Answer} (hb : Blind K π j i) (h : resume j i r e = some e') :
    SameLinks K π e e' := by
  unfold resume at h
  split at h
  all_goals
    repeat' split at h
  all_goals
    first
    | cases h; exact .refl e
    | cases h; exact hb.received e _
    | cases h; exact hb.note e _
    | (cases h; refine SameLinks.trans ?_ (hb.note _ _); exact .setLink fun hk l => hb.upstream hk l _ _)
    | cases h; exact .setLink fun hk l => hb.reply hk l _
    | (obtain ⟨n, _, rfl⟩ := Option.map_eq_some_iff.mp h; exact fun _ _ => rfl)
    | cases h

-- What a turn of anything that is not a session leaves alone, the session's helper apart.
structure SameTies (l l' : Link) : Prop where
  log : l.log = l'.log
  call : l.call = l'.call
  relay : l.relay = l'.relay
  gone : l.gone = l'.gone

theorem tick_links {b : Tick} (hπ : ∀ l l' : Link, SameTies l l' → π l = π l')
    (hgone : (∀ j, b ≠ .gone j) ∨ ∀ (l : Link) v, π { l with gone := v } = π l) (h : e.tick b = some e') :
    SameLinks (fun _ => True) π e e' := by
  have hset : ∀ {e : Proxy} {j : Nat} {f : Link → Link}, (∀ l, SameTies (f l) l) →
      SameLinks (fun _ => True) π e (e.setLink j f) :=
    fun hf => .setLink fun _ l => hπ _ _ (hf l)
  cases b with
  | stop => cases h; exact fun _ _ => rfl
  | elapse d =>
      simp only [Proxy.tick] at h
      split at h <;> cases h
      exact fun _ _ => rfl
  | arrive j r => cases h; exact hset fun _ => ⟨rfl, rfl, rfl, rfl⟩
  | clientFlow j f => cases h; exact hset fun _ => ⟨rfl, rfl, rfl, rfl⟩
  | upstreamFlow j f => cases h; exact hset fun _ => ⟨rfl, rfl, rfl, rfl⟩
  | acquireStart c => obtain ⟨x, _, rfl⟩ := Option.map_eq_some_iff.mp h; exact fun _ _ => rfl
  | acquireResume c => obtain ⟨x, _, rfl⟩ := Option.map_eq_some_iff.mp h; exact fun _ _ => rfl
  | acquireCancel c => obtain ⟨x, _, rfl⟩ := Option.map_eq_some_iff.mp h; exact fun _ _ => rfl
  | gone j =>
      obtain ⟨g, _, rfl⟩ := Option.map_eq_some_iff.mp h
      rcases hgone with hnot | hblind
      · exact absurd rfl (hnot j)
      · exact .setLink fun _ l => hblind l g
  | reply j outcome =>
      simp only [Proxy.tick] at h
      split at h <;> cases h
      · exact hset fun _ => ⟨rfl, rfl, rfl, rfl⟩
      · exact hset fun _ => ⟨rfl, rfl, rfl, rfl⟩
  | supervise n timedOut =>
      simp only [Proxy.tick, superviseTurn] at h
      split at h
      · obtain ⟨x, _, rfl⟩ := Option.map_eq_some_iff.mp h
        exact fun _ _ => rfl
      · cases h
  | cancelSupervise n => exact .onRelay h
  | connect n => exact .onRelay h
  | accept n stranger => exact .onRelay h
  | handle n moved =>
      obtain ⟨e₁, he, rfl⟩ := Option.map_eq_some_iff.mp h
      refine (SameLinks.onRelay he).trans ?_
      split
      · exact hset fun _ => ⟨rfl, rfl, rfl, rfl⟩
      · exact .refl _
  | disconnect n => exact .onRelay h

theorem tick_ties {b : Tick} (h : e.tick b = some e') (k : Nat) :
    (e'.links k).call = (e.links k).call ∧ (e'.links k).relay = (e.links k).relay :=
  ⟨tick_links (fun _ _ hl => hl.call) (.inr fun _ _ => rfl) h k trivial,
    tick_links (fun _ _ hl => hl.relay) (.inr fun _ _ => rfl) h k trivial⟩

theorem others_blind (j : Nat) (i : Op) : Blind (· ≠ j) id j i :=
  ⟨fun h => absurd rfl h, fun h => absurd rfl h, fun h => absurd rfl h, fun h => absurd rfl h,
    fun h => absurd rfl h, fun h => absurd rfl h, fun h => absurd rfl h, fun h => absurd rfl h⟩

theorem call_blind {i : Op} (hi : ∀ p, i ≠ .createAcquire p) (j : Nat) : Blind (fun _ => True) Link.call j i :=
  ⟨fun _ _ _ => rfl, fun _ _ _ => rfl, fun _ _ _ _ => rfl, fun _ _ _ => rfl, fun _ _ _ => rfl, fun _ _ _ => rfl,
    fun _ => .inl hi, fun _ => .inr fun _ _ => rfl⟩

theorem relay_blind {i : Op} (hi : i ≠ .acquirePort) (j : Nat) : Blind (fun _ => True) Link.relay j i :=
  ⟨fun _ _ _ => rfl, fun _ _ _ => rfl, fun _ _ _ _ => rfl, fun _ _ _ => rfl, fun _ _ _ => rfl, fun _ _ _ => rfl,
    fun _ => .inr fun _ _ => rfl, fun _ => .inl hi⟩

end Proxy

end PandaProxy.FtpProxy
