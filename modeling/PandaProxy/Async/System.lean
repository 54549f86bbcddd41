import Mathlib.Logic.Function.Basic
import PandaProxy.Async.Coro

namespace PandaProxy.Async

-- Any number of processes `J` that all run one labelled program, with everything they share in `E`
-- and with other tasks of the event loop that change it between their turns.
structure System (J Λ σ E ι : Type) (ρ : ι → Type) (ε β : Type) where
  first : Λ
  body : Λ → Coro σ ι ρ ε (Option Λ)
  rescue : Λ → ε → Option Λ
  world : J → World E ι ρ ε
  spawn : J → E → Option (σ × E)
  tick : β → E → Option E

inductive Paused (σ ι : Type) (ρ : ι → Type) (ε α : Type) where
  | finished (r : Except ε α)
  | blocked (i : ι) (k : Except ε (ρ i) → Coro σ ι ρ ε α)

inductive Proc (Λ σ ι : Type) (ρ : ι → Type) (ε : Type) where
  | idle
  | ready (l : Λ) (s : σ)
  | waiting (l : Λ) (i : ι) (k : Except ε (ρ i) → Coro σ ι ρ ε (Option Λ)) (s : σ)
  | halted (s : σ)

structure Config (J Λ σ E ι : Type) (ρ : ι → Type) (ε : Type) where
  procs : J → Proc Λ σ ι ρ ε
  env : E

inductive Act (J ι : Type) (ρ : ι → Type) (ε β : Type) where
  | spawn (j : J)
  | run (j : J)
  | resume (j : J) (i : ι) (r : Except ε (ρ i))
  | tick (b : β)

variable {J Λ σ E ι : Type} {ρ : ι → Type} {ε β α : Type}

-- Runs until the next call that is not answered at once: no other task takes a turn in between.
def drive (W : World E ι ρ ε) : Coro σ ι ρ ε α → σ → E → Paused σ ι ρ ε α × σ × E
  | .done r, s, e => (.finished r, s, e)
  | .read k, s, e => drive W (k s) s e
  | .write f k, s, e => drive W k (f s) e
  | .call i k, s, e =>
      match W.sync i e with
      | some (r, e') => drive W (k r) s e'
      | none => (.blocked i k, s, e)

theorem drive_keeps {W : World E ι ρ ε} {X : E → Prop}
    (hX : ∀ i e r e', X e → W.sync i e = some (r, e') → X e') (c : Coro σ ι ρ ε α) :
    ∀ s e, X e → X (drive W c s e).2.2 := by
  induction c with
  | done r => exact fun s e h => h
  | read k ih => exact fun s e h => ih s s e h
  | write f k ih => exact fun s e h => ih (f s) e h
  | call i k ih =>
      intro s e h
      simp only [drive]
      split
      · next r e' he => exact ih r s e' (hX i e r e' h he)
      · exact h

theorem drive_bind {W : World E ι ρ ε} {γ : Type} (c : Coro σ ι ρ ε α) (f : α → Coro σ ι ρ ε γ) :
    ∀ s e, drive W (c >>= f) s e =
      match drive W c s e with
      | (.finished (.ok a), s, e) => drive W (f a) s e
      | (.finished (.error x), s, e) => (.finished (.error x), s, e)
      | (.blocked i k, s, e) => (.blocked i fun r => k r >>= f, s, e) := by
  show ∀ s e, drive W (Coro.bind c f) s e = _
  induction c with
  | done r =>
      intro s e
      cases r <;> rfl
  | read k ih => exact fun s e => ih s s e
  | write g k ih => exact fun s e => ih (g s) e
  | call i k ih =>
      intro s e
      simp only [Coro.bind, drive]
      split
      · next r e' _ => exact ih r s e'
      · rfl

namespace System

variable (S : System J Λ σ E ι ρ ε β)

def next (l : Λ) : Except ε (Option Λ) → Option Λ
  | .ok l' => l'
  | .error x => S.rescue l x

def place (l : Λ) : Paused σ ι ρ ε (Option Λ) × σ × E → Proc Λ σ ι ρ ε
  | (.finished r, s, _) =>
      match S.next l r with
      | some l' => .ready l' s
      | none => .halted s
  | (.blocked i k, s, _) => .waiting l i k s

theorem place_begun (l : Λ) (d : Paused σ ι ρ ε (Option Λ) × σ × E) : S.place l d ≠ .idle := by
  obtain ⟨p, s, e⟩ := d
  cases p with
  | finished r =>
      simp only [place]
      split
      · rintro ⟨⟩
      · rintro ⟨⟩
  | blocked i k => rintro ⟨⟩

variable [DecidableEq J] [DecidableEq ι]

def step (c : Config J Λ σ E ι ρ ε) : Act J ι ρ ε β → Option (Config J Λ σ E ι ρ ε)
  | .spawn j =>
      match c.procs j with
      | .idle => (S.spawn j c.env).map (fun p =>
          ⟨Function.update c.procs j (.ready S.first p.1), p.2⟩)
      | _ => none
  | .run j =>
      match c.procs j with
      | .ready l s =>
          let d := drive (S.world j) (S.body l) s c.env
          some ⟨Function.update c.procs j (S.place l d), d.2.2⟩
      | _ => none
  | .resume j i r =>
      match c.procs j with
      | .waiting l i' k s =>
          if h : i = i' then
            ((S.world j).resume i r c.env).map (fun e =>
              let d := drive (S.world j) (k (h ▸ r)) s e
              ⟨Function.update c.procs j (S.place l d), d.2.2⟩)
          else none
      | _ => none
  | .tick b => (S.tick b c.env).map (fun e => ⟨c.procs, e⟩)

def runActs (c : Config J Λ σ E ι ρ ε) : List (Act J ι ρ ε β) → Option (Config J Λ σ E ι ρ ε)
  | [] => some c
  | a :: rest => (S.step c a).bind (fun c' => runActs c' rest)

def actor : Act J ι ρ ε β → Option J
  | .spawn j => some j
  | .run j => some j
  | .resume j _ _ => some j
  | .tick _ => none

theorem step_keeps {X : E → Prop} {c c' : Config J Λ σ E ι ρ ε} {a : Act J ι ρ ε β}
    (hspawn : ∀ j e s e', X e → S.spawn j e = some (s, e') → X e')
    (hsync : ∀ j i e r e', actor a = some j → X e → (S.world j).sync i e = some (r, e') → X e')
    (hresume : ∀ j i r e e', actor a = some j → X e → (S.world j).resume i r e = some e' → X e')
    (htick : ∀ b e e', X e → S.tick b e = some e' → X e')
    (hstep : S.step c a = some c') (h : X c.env) : X c'.env := by
  cases a with
  | spawn j =>
      simp only [step] at hstep
      split at hstep
      · obtain ⟨⟨s, e⟩, hs, rfl⟩ := Option.map_eq_some_iff.mp hstep
        exact hspawn j c.env s e h hs
      · cases hstep
  | run j =>
      simp only [step] at hstep
      split at hstep
      · next l s _ =>
          cases hstep
          exact drive_keeps (fun i e r e' => hsync j i e r e' rfl) (S.body l) s c.env h
      · cases hstep
  | resume j i r =>
      simp only [step] at hstep
      split at hstep
      · next l i' k s _ =>
          split at hstep
          · next hii =>
              obtain ⟨e, he, rfl⟩ := Option.map_eq_some_iff.mp hstep
              exact drive_keeps (fun i e r e' => hsync j i e r e' rfl) _ s e (hresume j i r c.env e rfl h he)
          · cases hstep
      · cases hstep
  | tick b =>
      obtain ⟨e, he, rfl⟩ := Option.map_eq_some_iff.mp hstep
      exact htick b c.env e h he

theorem step_begun {c c' : Config J Λ σ E ι ρ ε} {a : Act J ι ρ ε β} (hstep : S.step c a = some c') (k : J) :
    c'.procs k ≠ .idle ↔ actor a = some k ∨ c.procs k ≠ .idle := by
  have hturn : ∀ {j : J} {p : Proc Λ σ ι ρ ε}, p ≠ .idle →
      (Function.update c.procs j p k ≠ .idle ↔ some j = some k ∨ c.procs k ≠ .idle) := by
    intro j p hp
    by_cases hk : k = j
    · subst hk
      simp [hp]
    · rw [Function.update_of_ne hk]
      exact ⟨.inr, fun h => h.resolve_left fun heq => hk (Option.some.inj heq).symm⟩
  cases a with
  | spawn j =>
      simp only [step] at hstep
      split at hstep
      · obtain ⟨p, _, rfl⟩ := Option.map_eq_some_iff.mp hstep
        exact hturn (by rintro ⟨⟩)
      · cases hstep
  | run j =>
      simp only [step] at hstep
      split at hstep <;> cases hstep
      exact hturn (S.place_begun _ _)
  | resume j i r =>
      simp only [step] at hstep
      split at hstep
      · split at hstep
        · obtain ⟨e, _, rfl⟩ := Option.map_eq_some_iff.mp hstep
          exact hturn (S.place_begun _ _)
        · cases hstep
      · cases hstep
  | tick b =>
      obtain ⟨e, _, rfl⟩ := Option.map_eq_some_iff.mp hstep
      exact ⟨.inr, fun h => h.resolve_left (by rintro ⟨⟩)⟩

def Runs (ok : Config J Λ σ E ι ρ ε → Act J ι ρ ε β → Config J Λ σ E ι ρ ε → Prop) :
    Config J Λ σ E ι ρ ε → Config J Λ σ E ι ρ ε → Prop :=
  Relation.ReflTransGen (fun c c' => ∃ a, S.step c a = some c' ∧ ok c a c')

theorem runActs_runs :
    ∀ (acts : List (Act J ι ρ ε β)) {c c' : Config J Λ σ E ι ρ ε}, S.runActs c acts = some c' →
      S.Runs (fun _ _ _ => True) c c' := by
  intro acts
  induction acts with
  | nil =>
      intro c c' h
      simp only [runActs, Option.some.injEq] at h
      exact h ▸ .refl
  | cons a rest ih =>
      intro c c' h
      simp only [runActs, Option.bind_eq_some_iff] at h
      obtain ⟨d, hd, hc⟩ := h
      exact Relation.ReflTransGen.head ⟨a, hd, trivial⟩ (ih hc)

def runWhile (check : Config J Λ σ E ι ρ ε → Act J ι ρ ε β → Config J Λ σ E ι ρ ε → Bool)
    (c : Config J Λ σ E ι ρ ε) : List (Act J ι ρ ε β) → Option (Config J Λ σ E ι ρ ε)
  | [] => some c
  | a :: rest => (S.step c a).bind (fun c' => if check c a c' then runWhile check c' rest else none)

theorem runWhile_runs {check : Config J Λ σ E ι ρ ε → Act J ι ρ ε β → Config J Λ σ E ι ρ ε → Bool}
    {ok : Config J Λ σ E ι ρ ε → Act J ι ρ ε β → Config J Λ σ E ι ρ ε → Prop}
    (hok : ∀ c a c', check c a c' = true → ok c a c') :
    ∀ (acts : List (Act J ι ρ ε β)) {c c' : Config J Λ σ E ι ρ ε},
      S.runWhile check c acts = some c' → S.Runs ok c c' := by
  intro acts
  induction acts with
  | nil =>
      intro c c' h
      simp only [runWhile, Option.some.injEq] at h
      exact h ▸ .refl
  | cons a rest ih =>
      intro c c' h
      simp only [runWhile, Option.bind_eq_some_iff] at h
      obtain ⟨d, hd, hc⟩ := h
      split at hc
      · next hcheck => exact Relation.ReflTransGen.head ⟨a, hd, hok c a d hcheck⟩ (ih hc)
      · cases hc

end System

-- What every process promises the others, and what it may take for granted between its turns.
structure Protocol (J Λ σ E ι : Type) (ρ : ι → Type) (ε β : Type) where
  inv : E → Prop
  seen : E → Prop
  rely : J → E → E → Prop
  admits : Λ → (i : ι) → Except ε (ρ i) → Prop
  allows : β → Prop
  guar : J → ι → σ → E → Prop
  idle : J → E → Prop
  lab : J → Λ → σ → E → Prop
  fin : J → σ → E → Prop

namespace Protocol

variable (P : Protocol J Λ σ E ι ρ ε β)

def contract (j : J) (l : Λ) : Contract σ E ι ρ ε where
  rely := P.rely j
  inv := P.inv
  seen := P.seen
  admits := P.admits l
  guar := P.guar j

def post (S : System J Λ σ E ι ρ ε β) (j : J) (l : Λ) (r : Except ε (Option Λ)) (s : σ) (e : E) :
    Prop :=
  match S.next l r with
  | some l' => P.lab j l' s e
  | none => P.fin j s e

structure Verified (S : System J Λ σ E ι ρ ε β) : Prop where
  body : ∀ j l s e, P.inv e → P.lab j l s e → wp (S.world j) (P.contract j l) (S.body l) (P.post S j l) s e
  inv_sync : ∀ j i s e r e', P.inv e → P.guar j i s e → (S.world j).sync i e = some (r, e') → P.inv e'
  inv_resume : ∀ j l i s e r e', P.inv e → P.guar j i s e → P.admits l i r →
    (S.world j).resume i r e = some e' → P.inv e'
  inv_spawn : ∀ j e s e', P.inv e → P.idle j e → S.spawn j e = some (s, e') → P.inv e'
  inv_tick : ∀ b e e', P.allows b → P.inv e → P.seen e → S.tick b e = some e' → P.inv e'
  rely_sync : ∀ j k i s e r e', k ≠ j → P.inv e → P.guar j i s e →
    (S.world j).sync i e = some (r, e') → P.rely k e e'
  rely_resume : ∀ j k l i s e r e', k ≠ j → P.inv e → P.guar j i s e → P.admits l i r →
    (S.world j).resume i r e = some e' → P.rely k e e'
  rely_spawn : ∀ j k e s e', k ≠ j → P.inv e → P.idle j e → S.spawn j e = some (s, e') → P.rely k e e'
  rely_tick : ∀ k b e e', P.allows b → P.inv e → P.seen e → S.tick b e = some e' → P.rely k e e'
  guar_stable : ∀ j i s e e', (∃ e₀, (S.world j).sync i e₀ = none) → P.inv e → P.inv e' →
    P.guar j i s e → P.rely j e e' → P.guar j i s e'
  lab_stable : ∀ j l s e e', P.inv e → P.inv e' → P.lab j l s e → P.rely j e e' → P.lab j l s e'
  fin_stable : ∀ j s e e', P.inv e → P.inv e' → P.fin j s e → P.rely j e e' → P.fin j s e'
  idle_stable : ∀ j e e', P.inv e → P.inv e' → P.idle j e → P.rely j e e' → P.idle j e'
  spawn_lab : ∀ j e s e', P.inv e → P.idle j e → S.spawn j e = some (s, e') → P.lab j S.first s e'

def Later (S : System J Λ σ E ι ρ ε β) (j : J) (l : Λ) (i : ι)
    (k : Except ε (ρ i) → Coro σ ι ρ ε (Option Λ)) (s : σ) (e : E) : Prop :=
  ∀ e₁, Relation.ReflTransGen (P.rely j) e e₁ → P.inv e₁ → P.seen e₁ → ∀ r e₂, P.admits l i r →
    (S.world j).resume i r e₁ = some e₂ → P.inv e₂ →
      wp (S.world j) (P.contract j l) (k r) (P.post S j l) s e₂

def ProcOk (S : System J Λ σ E ι ρ ε β) (j : J) (e : E) : Proc Λ σ ι ρ ε → Prop
  | .idle => P.idle j e
  | .ready l s => P.lab j l s e
  | .waiting l i k s =>
      (∃ e₀, (S.world j).sync i e₀ = none) ∧ P.guar j i s e ∧ P.Later S j l i k s e
  | .halted s => P.fin j s e

structure Holds (S : System J Λ σ E ι ρ ε β) (c : Config J Λ σ E ι ρ ε) : Prop where
  inv : P.inv c.env
  procs : ∀ j, P.ProcOk S j c.env (c.procs j)

end Protocol

def Through (inv : E → Prop) (R : E → E → Prop) : E → E → Prop :=
  Relation.ReflTransGen (fun e e' => inv e ∧ inv e' ∧ R e e')

theorem Through.rely {inv : E → Prop} {R : E → E → Prop} {e e' : E} (h : Through inv R e e') :
    Relation.ReflTransGen R e e' :=
  Relation.ReflTransGen.mono (fun _ _ h => h.2.2) _ _ h

theorem Through.stable {inv : E → Prop} {R : E → E → Prop} {X : E → Prop}
    (hX : ∀ e e', inv e → inv e' → X e → R e e' → X e') {e e' : E} (h : Through inv R e e')
    (he : X e) : X e' := by
  induction h with
  | refl => exact he
  | tail _ hstep ih => exact hX _ _ hstep.1 hstep.2.1 ih hstep.2.2

namespace Protocol

variable {P : Protocol J Λ σ E ι ρ ε β} {S : System J Λ σ E ι ρ ε β}

theorem ProcOk.stable (hV : P.Verified S) {j : J} {p : Proc Λ σ ι ρ ε} {e e' : E}
    (h : Through P.inv (P.rely j) e e') (hp : P.ProcOk S j e p) : P.ProcOk S j e' p := by
  cases p with
  | idle => exact h.stable (fun e e' => hV.idle_stable j e e') hp
  | ready l s => exact h.stable (fun e e' => hV.lab_stable j l s e e') hp
  | waiting l i k s =>
      refine ⟨hp.1, h.stable (fun e e' => hV.guar_stable j i s e e' hp.1) hp.2.1, ?_⟩
      intro e₁ h₁
      exact hp.2.2 e₁ (h.rely.trans h₁)
  | halted s => exact h.stable (fun e e' => hV.fin_stable j s e e') hp

theorem drive_sound (hV : P.Verified S) (j : J) (l : Λ) (c : Coro σ ι ρ ε (Option Λ)) :
    ∀ s e, P.inv e → wp (S.world j) (P.contract j l) c (P.post S j l) s e →
      P.inv (drive (S.world j) c s e).2.2 ∧
      (P.seen (drive (S.world j) c s e).2.2 →
        P.ProcOk S j (drive (S.world j) c s e).2.2 (S.place l (drive (S.world j) c s e))) ∧
      ∀ k, k ≠ j → Through P.inv (P.rely k) e (drive (S.world j) c s e).2.2 := by
  induction c with
  | done r =>
      intro s e hi h
      refine ⟨hi, fun _ => ?_, fun k _ => .refl⟩
      simp only [wp, post] at h
      simp only [drive, System.place]
      cases hn : S.next l r with
      | some l' =>
          simp only [hn] at h
          exact h
      | none =>
          simp only [hn] at h
          exact h
  | read k ih => exact fun s e hi h => ih s s e hi h
  | write f k ih => exact fun s e hi h => ih (f s) e hi h
  | call i k ih =>
      intro s e hi h
      cases hsync : (S.world j).sync i e with
      | some p =>
          obtain ⟨r, e'⟩ := p
          simp only [wp, hsync] at h
          have hi' := hV.inv_sync j i s e r e' hi h.1 hsync
          obtain ⟨h1, h2, h3⟩ := ih r s e' hi' (h.2 hi')
          simp only [drive, hsync]
          refine ⟨h1, h2, fun m hm => ?_⟩
          exact Relation.ReflTransGen.head
            ⟨hi, hi', hV.rely_sync j m i s e r e' hm hi h.1 hsync⟩ (h3 m hm)
      | none =>
          simp only [wp, hsync] at h
          simp only [drive, hsync]
          exact ⟨hi, fun hs => ⟨⟨e, hsync⟩, h hs⟩, fun m _ => .refl⟩

theorem drive_upholds {X : E → Prop} (hV : P.Verified S) (j : J) (l : Λ)
    (hX : ∀ i s e r e', P.inv e → P.guar j i s e → X e → (S.world j).sync i e = some (r, e') → X e')
    (c : Coro σ ι ρ ε (Option Λ)) :
    ∀ s e, P.inv e → X e → wp (S.world j) (P.contract j l) c (P.post S j l) s e → X (drive (S.world j) c s e).2.2 := by
  induction c with
  | done r => exact fun s e _ hx _ => hx
  | read k ih => exact fun s e hi hx h => ih s s e hi hx h
  | write f k ih => exact fun s e hi hx h => ih (f s) e hi hx h
  | call i k ih =>
      intro s e hi hx h
      cases hsync : (S.world j).sync i e with
      | some p =>
          obtain ⟨r, e'⟩ := p
          simp only [wp, hsync] at h
          simp only [drive, hsync]
          have hi' := hV.inv_sync j i s e r e' hi h.1 hsync
          exact ih r s e' hi' (hX i s e r e' hi h.1 hx hsync) (h.2 hi')
      | none =>
          simp only [drive, hsync]
          exact hx

variable [DecidableEq J]

def Meets (P : Protocol J Λ σ E ι ρ ε β) (c : Config J Λ σ E ι ρ ε) : Act J ι ρ ε β → Prop
  | .resume j i r => ∀ l k s, c.procs j = .waiting l i k s → P.admits l i r
  | .tick b => P.allows b
  | _ => True

theorem Holds.turn (hV : P.Verified S) {c : Config J Λ σ E ι ρ ε} (h : P.Holds S c) {j : J}
    {p : Proc Λ σ ι ρ ε} {e : E} (hi : P.inv e) (hp : P.ProcOk S j e p)
    (ho : ∀ k, k ≠ j → Through P.inv (P.rely k) c.env e) :
    P.Holds S ⟨Function.update c.procs j p, e⟩ := by
  refine ⟨hi, fun k => ?_⟩
  by_cases hk : k = j
  · subst hk
    simpa only [Function.update_self] using hp
  · simpa only [Function.update_of_ne hk] using (h.procs k).stable hV (ho k hk)

variable [DecidableEq ι]

theorem Holds.step (hV : P.Verified S) {c c' : Config J Λ σ E ι ρ ε} {a : Act J ι ρ ε β}
    (h : P.Holds S c) (hstep : S.step c a = some c') (ha : P.Meets c a) (hs : P.seen c.env)
    (hs' : P.seen c'.env) : P.Holds S c' := by
  cases a with
  | spawn j =>
      simp only [System.step] at hstep
      cases hc : c.procs j with
      | idle =>
          have hidle : P.idle j c.env := by
            have := h.procs j
            rwa [hc] at this
          simp only [hc, Option.map_eq_some_iff] at hstep
          obtain ⟨⟨s, e⟩, hsp, rfl⟩ := hstep
          have hi := hV.inv_spawn j c.env s e h.inv hidle hsp
          refine h.turn hV hi (hV.spawn_lab j c.env s e h.inv hidle hsp) (fun k hk => ?_)
          exact .single ⟨h.inv, hi, hV.rely_spawn j k c.env s e hk h.inv hidle hsp⟩
      | ready l s => simp [hc] at hstep
      | waiting l i k s => simp [hc] at hstep
      | halted s => simp [hc] at hstep
  | run j =>
      simp only [System.step] at hstep
      cases hc : c.procs j with
      | ready l s =>
          have hlab : P.lab j l s c.env := by
            have := h.procs j
            rwa [hc] at this
          simp only [hc, Option.some.injEq] at hstep
          obtain ⟨h1, h2, h3⟩ := drive_sound hV j l (S.body l) s c.env h.inv
            (hV.body j l s c.env h.inv hlab)
          subst hstep
          exact h.turn hV h1 (h2 hs') h3
      | idle => simp [hc] at hstep
      | waiting l i k s => simp [hc] at hstep
      | halted s => simp [hc] at hstep
  | resume j i r =>
      simp only [System.step] at hstep
      cases hc : c.procs j with
      | waiting l i' k s =>
          by_cases hii : i = i'
          · subst hii
            simp only [hc, dif_pos, Option.map_eq_some_iff] at hstep
            obtain ⟨e, hr, rfl⟩ := hstep
            have hok : P.guar j i s c.env ∧ P.Later S j l i k s c.env := by
              have := h.procs j
              rw [hc] at this
              exact this.2
            have hadm : P.admits l i r := ha l k s hc
            have hi := hV.inv_resume j l i s c.env r e h.inv hok.1 hadm hr
            have hwp := hok.2 c.env .refl h.inv hs r e hadm hr hi
            obtain ⟨h1, h2, h3⟩ := drive_sound hV j l (k r) s e hi hwp
            refine h.turn hV h1 (h2 hs') (fun m hm => ?_)
            exact Relation.ReflTransGen.head
              ⟨h.inv, hi, hV.rely_resume j m l i s c.env r e hm h.inv hok.1 hadm hr⟩ (h3 m hm)
          · simp [hc, hii] at hstep
      | idle => simp [hc] at hstep
      | ready l s => simp [hc] at hstep
      | halted s => simp [hc] at hstep
  | tick b =>
      simp only [System.step, Option.map_eq_some_iff] at hstep
      obtain ⟨e, hb, rfl⟩ := hstep
      have hi := hV.inv_tick b c.env e ha h.inv hs hb
      refine ⟨hi, fun k => (h.procs k).stable hV ?_⟩
      exact .single ⟨h.inv, hi, hV.rely_tick k b c.env e ha h.inv hs hb⟩

-- The rule for whole runs: a verified system keeps its protocol along every run that stays within
-- what the protocol assumes.
theorem Holds.run (hV : P.Verified S)
    {ok : Config J Λ σ E ι ρ ε → Act J ι ρ ε β → Config J Λ σ E ι ρ ε → Prop}
    (hok : ∀ c a c', ok c a c' → P.Meets c a ∧ P.seen c'.env) {c c' : Config J Λ σ E ι ρ ε}
    (hr : S.Runs ok c c') (hc : P.Holds S c) (hs : P.seen c.env) : P.Holds S c' ∧ P.seen c'.env := by
  induction hr with
  | refl => exact ⟨hc, hs⟩
  | tail _ hstep ih =>
      obtain ⟨a, ha, hk⟩ := hstep
      obtain ⟨hm, hs'⟩ := hok _ a _ hk
      exact ⟨ih.1.step hV ha hm ih.2 hs', hs'⟩

theorem Holds.upholds {X : E → Prop} (hV : P.Verified S) {c c' : Config J Λ σ E ι ρ ε} {a : Act J ι ρ ε β}
    (h : P.Holds S c) (hstep : S.step c a = some c') (ha : P.Meets c a) (hs : P.seen c.env)
    (hspawn : ∀ j s e', a = .spawn j → S.spawn j c.env = some (s, e') → X c.env → X e')
    (hsync : ∀ j i s e r e', System.actor a = some j → P.inv e → P.guar j i s e → X e →
      (S.world j).sync i e = some (r, e') → X e')
    (hresume : ∀ j l i s r e', a = .resume j i r → P.guar j i s c.env → P.admits l i r → X c.env →
      (S.world j).resume i r c.env = some e' → X e')
    (htick : ∀ b e', a = .tick b → X c.env → S.tick b c.env = some e' → X e') (hx : X c.env) : X c'.env := by
  cases a with
  | spawn j =>
      simp only [System.step] at hstep
      split at hstep
      · obtain ⟨⟨s, e⟩, hsp, rfl⟩ := Option.map_eq_some_iff.mp hstep
        exact hspawn j s e rfl hsp hx
      · cases hstep
  | run j =>
      simp only [System.step] at hstep
      split at hstep
      · next l s hc =>
          have hlab : P.lab j l s c.env := by
            have := h.procs j
            rwa [hc] at this
          cases hstep
          exact drive_upholds hV j l (fun i s e r e' => hsync j i s e r e' rfl) (S.body l) s c.env h.inv hx
            (hV.body j l s c.env h.inv hlab)
      · cases hstep
  | resume j i r =>
      simp only [System.step] at hstep
      split at hstep
      · next l i' k s hc =>
          split at hstep
          · next hii =>
              subst hii
              obtain ⟨e, hr, rfl⟩ := Option.map_eq_some_iff.mp hstep
              have hok : P.guar j i s c.env ∧ P.Later S j l i k s c.env := by
                have := h.procs j
                rw [hc] at this
                exact this.2
              have hadm : P.admits l i r := ha l k s hc
              have hi := hV.inv_resume j l i s c.env r e h.inv hok.1 hadm hr
              have hwp := hok.2 c.env .refl h.inv hs r e hadm hr hi
              exact drive_upholds hV j l (fun i s e r e' => hsync j i s e r e' rfl) (k r) s e hi
                (hresume j l i s r e rfl hok.1 hadm hx hr) hwp
          · cases hstep
      · cases hstep
  | tick b =>
      obtain ⟨e, hb, rfl⟩ := Option.map_eq_some_iff.mp hstep
      exact htick b e rfl hx hb

end Protocol

end PandaProxy.Async
