import PandaProxy.Async.System

namespace PandaProxy.Async

variable {J Λ σ E ι : Type} {ρ : ι → Type} {ε β α : Type}

-- The surroundings may do anything; the coroutine makes only the calls in `P`, and these in `I`.
def confine (P : ι → Prop) (I : σ → Prop) : Contract σ E ι ρ ε where
  rely _ _ := True
  inv _ := True
  seen _ := True
  admits _ _ := True
  guar i s _ := P i ∧ I s

section

variable {W : World E ι ρ ε} {P P' : ι → Prop} {I I' : σ → Prop}

abbrev ConfinedAt (W : World E ι ρ ε) (P : ι → Prop) (I : σ → Prop) (c : Coro σ ι ρ ε α) (s : σ) (e : E) : Prop :=
  wp W (confine P I) c (fun _ s _ => I s) s e

def Confined (W : World E ι ρ ε) (P : ι → Prop) (I : σ → Prop) (c : Coro σ ι ρ ε α) : Prop :=
  Keeps W (confine P I) (fun s _ => I s) (fun s _ => I s) c

theorem Confined.at {c : Coro σ ι ρ ε α} (h : Confined W P I c) {s : σ} (hs : I s) (e : E) :
    ConfinedAt W P I c s e := by
  refine wp_mono c ?_ s e (h s e hs)
  intro r s e hr
  cases r <;> exact hr

theorem confined_perform {i : ι} (hi : P i) : Confined W P I (Coro.perform i : Coro σ ι ρ ε (ρ i)) :=
  Keeps.perform (fun _ _ h => ⟨hi, h⟩) (fun _ _ _ _ h _ _ => h) (fun _ _ _ h _ => h) (fun _ _ _ _ h _ _ _ _ => h)

theorem ConfinedAt.imp (hP : ∀ i, P i → P' i) (hI : ∀ s, I s → I' s) {c : Coro σ ι ρ ε α} {s : σ} {e : E}
    (h : ConfinedAt W P I c s e) : ConfinedAt W P' I' c s e := by
  induction c generalizing s e with
  | done r => exact hI s h
  | read k ih => exact ih s h
  | write f k ih => exact ih h
  | call i k ih =>
      simp only [ConfinedAt, wp] at h ⊢
      split
      · next r e' he =>
          simp only [he] at h
          exact ⟨⟨hP i h.1.1, hI s h.1.2⟩, fun hi => ih r (h.2 hi)⟩
      · next he =>
          simp only [he] at h
          intro hs
          obtain ⟨hg, hlater⟩ := h hs
          refine ⟨⟨hP i hg.1, hI s hg.2⟩, fun e₁ h₁ hi hs₁ r e₂ ha hr hi₂ => ?_⟩
          exact ih r (hlater e₁ (.single trivial) hi hs₁ r e₂ ha hr hi₂)

theorem ConfinedAt.bind {c : Coro σ ι ρ ε α} {f : α → Coro σ ι ρ ε β} {s : σ} {e : E} (h : ConfinedAt W P I c s e)
    (hf : ∀ a, Confined W P I (f a)) : ConfinedAt W P I (c >>= f) s e := by
  refine wp_bind c f s e (wp_mono c ?_ s e h)
  intro r s e hs
  cases r with
  | ok a => exact (hf a).at hs e
  | error x => exact hs

def ConfinedAfter (W : World E ι ρ ε) (P : ι → Prop) (I : σ → Prop) (i : ι)
    (k : Except ε (ρ i) → Coro σ ι ρ ε α) (s : σ) : Prop :=
  ∀ e₁ r e₂, W.resume i r e₁ = some e₂ → ConfinedAt W P I (k r) s e₂

def TurnConfined (W : World E ι ρ ε) (P : ι → Prop) (I : σ → Prop) : Paused σ ι ρ ε α × σ × E → Prop
  | (.finished _, s, _) => I s
  | (.blocked i k, s, _) => P i ∧ I s ∧ ConfinedAfter W P I i k s

theorem drive_confined {X : E → Prop} (hX : ∀ i e r e', P i → X e → W.sync i e = some (r, e') → X e')
    (c : Coro σ ι ρ ε α) : ∀ s e, ConfinedAt W P I c s e → X e →
      X (drive W c s e).2.2 ∧ TurnConfined W P I (drive W c s e) := by
  induction c with
  | done r => exact fun s e h hx => ⟨hx, h⟩
  | read k ih => exact fun s e h hx => ih s s e h hx
  | write f k ih => exact fun s e h hx => ih (f s) e h hx
  | call i k ih =>
      intro s e h hx
      simp only [ConfinedAt, wp] at h
      simp only [drive]
      split
      · next r e' he =>
          simp only [he] at h
          exact ih r s e' (h.2 trivial) (hX i e r e' h.1.1 hx he)
      · next he =>
          simp only [he] at h
          obtain ⟨hg, hlater⟩ := h trivial
          refine ⟨hx, hg.1, hg.2, fun e₁ r e₂ hr => ?_⟩
          exact hlater e₁ (.single trivial) trivial trivial r e₂ trivial hr trivial

end

namespace System

variable [DecidableEq J] [DecidableEq ι] {H : Type} (S : System J Λ σ E ι ρ ε β)

theorem step_procs {S : System J Λ σ E ι ρ ε β} {c c' : Config J Λ σ E ι ρ ε} {a : Act J ι ρ ε β}
    (h : S.step c a = some c') {k : J} (hk : actor a ≠ some k) : c'.procs k = c.procs k := by
  have hne : ∀ {j}, actor a = some j → k ≠ j := fun hj he => hk (he ▸ hj)
  cases a with
  | spawn j =>
      simp only [step] at h
      split at h
      · obtain ⟨p, _, rfl⟩ := Option.map_eq_some_iff.mp h
        exact Function.update_of_ne (hne rfl) _ _
      · cases h
  | run j =>
      simp only [step] at h
      split at h <;> cases h
      exact Function.update_of_ne (hne rfl) _ _
  | resume j i r =>
      simp only [step] at h
      split at h
      · split at h
        · obtain ⟨e, _, rfl⟩ := Option.map_eq_some_iff.mp h
          exact Function.update_of_ne (hne rfl) _ _
        · cases h
      · cases h
  | tick b =>
      obtain ⟨e, _, rfl⟩ := Option.map_eq_some_iff.mp h
      rfl

def Noted (note : Config J Λ σ E ι ρ ε → Config J Λ σ E ι ρ ε → H → H) :
    Config J Λ σ E ι ρ ε × H → Config J Λ σ E ι ρ ε × H → Prop :=
  Relation.ReflTransGen fun x y => ∃ a, S.step x.1 a = some y.1 ∧ y.2 = note x.1 y.1 x.2

variable {S} {note : Config J Λ σ E ι ρ ε → Config J Λ σ E ι ρ ε → H → H}

theorem Runs.noted {c c' : Config J Λ σ E ι ρ ε} (h : S.Runs (fun _ _ _ => True) c c') (x : H) :
    ∃ x', S.Noted note (c, x) (c', x') := by
  induction h with
  | refl => exact ⟨x, .refl⟩
  | tail _ hstep ih =>
      obtain ⟨a, ha, _⟩ := hstep
      obtain ⟨x', hx'⟩ := ih
      exact ⟨note _ _ x', Relation.ReflTransGen.tail hx' ⟨a, ha, rfl⟩⟩

end System

end PandaProxy.Async
