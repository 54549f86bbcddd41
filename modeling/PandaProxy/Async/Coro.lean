import Mathlib.Logic.Relation

namespace PandaProxy.Async

-- A coroutine over its own state `σ`. Whatever it asks of its surroundings is a call `i`, answered
-- by a value of `ρ i` or by an exception thrown at that point.
inductive Coro (σ ι : Type) (ρ : ι → Type) (ε α : Type) where
  | done (r : Except ε α)
  | read (k : σ → Coro σ ι ρ ε α)
  | write (f : σ → σ) (k : Coro σ ι ρ ε α)
  | call (i : ι) (k : Except ε (ρ i) → Coro σ ι ρ ε α)

variable {σ E ι : Type} {ρ : ι → Type} {ε α β : Type}

namespace Coro

def bind : Coro σ ι ρ ε α → (α → Coro σ ι ρ ε β) → Coro σ ι ρ ε β
  | .done (.ok a), f => f a
  | .done (.error x), _ => .done (.error x)
  | .read k, f => .read (fun s => bind (k s) f)
  | .write g k, f => .write g (bind k f)
  | .call i k, f => .call i (fun r => bind (k r) f)

instance : Monad (Coro σ ι ρ ε) where
  pure a := .done (.ok a)
  bind := bind

def raise (x : ε) : Coro σ ι ρ ε α := .done (.error x)

def get : Coro σ ι ρ ε σ := .read (fun s => .done (.ok s))

def modify (f : σ → σ) : Coro σ ι ρ ε Unit := .write f (.done (.ok ()))

def perform (i : ι) : Coro σ ι ρ ε (ρ i) := .call i .done

-- Runs to the end and hands over the outcome, an exception included.
def attempt : Coro σ ι ρ ε α → Coro σ ι ρ ε (Except ε α)
  | .done r => .done (.ok r)
  | .read k => .read (fun s => attempt (k s))
  | .write g k => .write g (attempt k)
  | .call i k => .call i (fun r => attempt (k r))

def tryCatch (c : Coro σ ι ρ ε α) (handler : ε → Coro σ ι ρ ε α) : Coro σ ι ρ ε α :=
  attempt c >>= fun
    | .ok a => pure a
    | .error x => handler x

def tryFinally (c : Coro σ ι ρ ε α) (cleanup : Coro σ ι ρ ε Unit) : Coro σ ι ρ ε α :=
  attempt c >>= fun r => cleanup >>= fun _ => .done r

def suppress (caught : ε → Bool) (c : Coro σ ι ρ ε Unit) : Coro σ ι ρ ε Unit :=
  tryCatch c (fun x => if caught x then pure () else raise x)

end Coro

-- How the calls are answered: at once, with no switch to another task, or later, when the
-- surroundings can give that answer.
structure World (E ι : Type) (ρ : ι → Type) (ε : Type) where
  sync : (i : ι) → E → Option (Except ε (ρ i) × E)
  resume : (i : ι) → Except ε (ρ i) → E → Option E

structure Contract (σ E ι : Type) (ρ : ι → Type) (ε : Type) where
  rely : E → E → Prop
  inv : E → Prop
  seen : E → Prop
  admits : (i : ι) → Except ε (ρ i) → Prop
  guar : ι → σ → E → Prop

def wp (W : World E ι ρ ε) (C : Contract σ E ι ρ ε) :
    Coro σ ι ρ ε α → (Except ε α → σ → E → Prop) → σ → E → Prop
  | .done r, Q, s, e => Q r s e
  | .read k, Q, s, e => wp W C (k s) Q s e
  | .write f k, Q, s, e => wp W C k Q (f s) e
  | .call i k, Q, s, e =>
      match W.sync i e with
      | some (r, e') => C.guar i s e ∧ (C.inv e' → wp W C (k r) Q s e')
      | none => C.seen e → C.guar i s e ∧
          ∀ e₁, Relation.ReflTransGen C.rely e e₁ → C.inv e₁ → C.seen e₁ →
            ∀ r e₂, C.admits i r → W.resume i r e₁ = some e₂ → C.inv e₂ → wp W C (k r) Q s e₂

section

variable {W : World E ι ρ ε} {C : Contract σ E ι ρ ε}

theorem wp_call_imp {i : ι} {k : Except ε (ρ i) → Coro σ ι ρ ε α}
    {k' : Except ε (ρ i) → Coro σ ι ρ ε β} {Q : Except ε α → σ → E → Prop}
    {Q' : Except ε β → σ → E → Prop}
    (hk : ∀ r s e, wp W C (k r) Q s e → wp W C (k' r) Q' s e) :
    ∀ s e, wp W C (.call i k) Q s e → wp W C (.call i k') Q' s e := by
  intro s e h
  simp only [wp] at h ⊢
  split
  · next r e' he =>
      simp only [he] at h
      exact ⟨h.1, fun hi => hk r s e' (h.2 hi)⟩
  · next he =>
      simp only [he] at h
      intro hs
      obtain ⟨hg, hlater⟩ := h hs
      exact ⟨hg, fun e₁ h₁ hi hs₁ r e₂ ha hr hi₂ => hk r s e₂ (hlater e₁ h₁ hi hs₁ r e₂ ha hr hi₂)⟩

theorem wp_mono (c : Coro σ ι ρ ε α) {Q Q' : Except ε α → σ → E → Prop}
    (hQ : ∀ r s e, Q r s e → Q' r s e) :
    ∀ s e, wp W C c Q s e → wp W C c Q' s e := by
  induction c with
  | done r => exact fun s e h => hQ r s e h
  | read k ih => exact fun s e h => ih s s e h
  | write f k ih => exact fun s e h => ih (f s) e h
  | call i k ih => exact wp_call_imp ih

theorem wp_inv (c : Coro σ ι ρ ε α) {Q : Except ε α → σ → E → Prop} :
    ∀ s e, C.inv e → wp W C c Q s e → wp W C c (fun r s e => C.inv e ∧ Q r s e) s e := by
  induction c with
  | done r => exact fun s e hi h => ⟨hi, h⟩
  | read k ih => exact fun s e hi h => ih s s e hi h
  | write f k ih => exact fun s e hi h => ih (f s) e hi h
  | call i k ih =>
      intro s e _ h
      simp only [wp] at h ⊢
      split
      · next r e' he =>
          simp only [he] at h
          exact ⟨h.1, fun hi => ih r s e' hi (h.2 hi)⟩
      · next he =>
          simp only [he] at h
          intro hs
          obtain ⟨hg, hlater⟩ := h hs
          exact ⟨hg, fun e₁ h₁ hi hs₁ r e₂ ha hr hi₂ =>
            ih r s e₂ hi₂ (hlater e₁ h₁ hi hs₁ r e₂ ha hr hi₂)⟩

theorem wp_bind (c : Coro σ ι ρ ε α) (f : α → Coro σ ι ρ ε β) {Q : Except ε β → σ → E → Prop} :
    ∀ s e, wp W C c (fun r s e =>
      match r with
      | .ok a => wp W C (f a) Q s e
      | .error x => Q (.error x) s e) s e → wp W C (c >>= f) Q s e := by
  show ∀ s e, _ → wp W C (Coro.bind c f) Q s e
  induction c with
  | done r =>
      intro s e h
      cases r with
      | ok a => exact h
      | error x => exact h
  | read k ih => exact fun s e h => ih s s e h
  | write g k ih => exact fun s e h => ih (g s) e h
  | call i k ih => exact wp_call_imp ih

theorem wp_attempt (c : Coro σ ι ρ ε α) {Q : Except ε (Except ε α) → σ → E → Prop} :
    ∀ s e, wp W C c (fun r s e => Q (.ok r) s e) s e → wp W C (Coro.attempt c) Q s e := by
  induction c with
  | done r => exact fun s e h => h
  | read k ih => exact fun s e h => ih s s e h
  | write g k ih => exact fun s e h => ih (g s) e h
  | call i k ih => exact wp_call_imp ih

variable {Q : Except ε α → σ → E → Prop} {s : σ} {e : E}

@[simp] theorem wp_done (r : Except ε α) : wp W C (.done r) Q s e ↔ Q r s e := Iff.rfl

@[simp] theorem wp_pure (a : α) : wp W C (pure a : Coro σ ι ρ ε α) Q s e ↔ Q (.ok a) s e := Iff.rfl

@[simp] theorem wp_raise (x : ε) : wp W C (Coro.raise x : Coro σ ι ρ ε α) Q s e ↔ Q (.error x) s e :=
  Iff.rfl

@[simp] theorem wp_get {Q : Except ε σ → σ → E → Prop} :
    wp W C (Coro.get : Coro σ ι ρ ε σ) Q s e ↔ Q (.ok s) s e := Iff.rfl

@[simp] theorem wp_modify (f : σ → σ) {Q : Except ε Unit → σ → E → Prop} :
    wp W C (Coro.modify f : Coro σ ι ρ ε Unit) Q s e ↔ Q (.ok ()) (f s) e := Iff.rfl

theorem wp_sync {i : ι} {Q : Except ε (ρ i) → σ → E → Prop} {r : Except ε (ρ i)} {e' : E}
    (h : W.sync i e = some (r, e')) (hg : C.guar i s e) (hQ : C.inv e' → Q r s e') :
    wp W C (Coro.perform i : Coro σ ι ρ ε (ρ i)) Q s e := by
  simp only [Coro.perform, wp, h]
  exact ⟨hg, hQ⟩

theorem wp_perform {i : ι} {Q : Except ε (ρ i) → σ → E → Prop} (hg : C.guar i s e)
    (hsync : ∀ r e', W.sync i e = some (r, e') → C.inv e' → Q r s e')
    (hlater : W.sync i e = none → ∀ e₁, Relation.ReflTransGen C.rely e e₁ → C.inv e₁ → C.seen e₁ →
      ∀ r e₂, C.admits i r → W.resume i r e₁ = some e₂ → C.inv e₂ → Q r s e₂) :
    wp W C (Coro.perform i : Coro σ ι ρ ε (ρ i)) Q s e := by
  simp only [Coro.perform, wp]
  split
  · next r e' he => exact ⟨hg, hsync r e' he⟩
  · next he => exact fun _ => ⟨hg, hlater he⟩

theorem wp_tryCatch (c : Coro σ ι ρ ε α) (handler : ε → Coro σ ι ρ ε α)
    (h : wp W C c (fun r s e =>
      match r with
      | .ok a => Q (.ok a) s e
      | .error x => wp W C (handler x) Q s e) s e) :
    wp W C (Coro.tryCatch c handler) Q s e := by
  refine wp_bind _ _ s e (wp_attempt c s e (wp_mono c ?_ s e h))
  intro r s e hr
  cases r with
  | ok a => exact hr
  | error x => exact hr

theorem wp_tryFinally (c : Coro σ ι ρ ε α) (cleanup : Coro σ ι ρ ε Unit)
    (h : wp W C c (fun r s e => wp W C cleanup (fun u s e =>
      match u with
      | .ok _ => Q r s e
      | .error x => Q (.error x) s e) s e) s e) :
    wp W C (Coro.tryFinally c cleanup) Q s e := by
  refine wp_bind _ _ s e (wp_attempt c s e (wp_mono c ?_ s e h))
  intro r s e hr
  refine wp_bind _ _ s e (wp_mono cleanup ?_ s e hr)
  intro u s e hu
  cases u with
  | ok _ => exact hu
  | error x => exact hu

theorem wp_suppress (caught : ε → Bool) (c : Coro σ ι ρ ε Unit)
    {Q : Except ε Unit → σ → E → Prop}
    (h : wp W C c (fun r s e =>
      match r with
      | .ok a => Q (.ok a) s e
      | .error x => if caught x then Q (.ok ()) s e else Q (.error x) s e) s e) :
    wp W C (Coro.suppress caught c) Q s e := by
  refine wp_tryCatch _ _ (wp_mono c ?_ s e h)
  intro r s e hr
  cases r with
  | ok a => exact hr
  | error x =>
      by_cases hx : caught x = true
      · simp only [hx, if_true] at hr ⊢
        exact hr
      · simp only [hx] at hr ⊢
        exact hr

end

theorem stable_star {R : E → E → Prop} {X : E → Prop} (hX : ∀ e e', X e → R e e' → X e') {e e' : E}
    (h : Relation.ReflTransGen R e e') (he : X e) : X e' := by
  induction h with
  | refl => exact he
  | tail _ hstep ih => exact hX _ _ ih hstep

def Returns (P : α → Prop) : Coro σ ι ρ ε α → Prop
  | .done (.ok a) => P a
  | .done (.error _) => True
  | .read k => ∀ s, Returns P (k s)
  | .write _ k => Returns P k
  | .call _ k => ∀ r, Returns P (k r)

theorem returns_bind {P : β → Prop} (c : Coro σ ι ρ ε α) {f : α → Coro σ ι ρ ε β}
    (hf : ∀ a, Returns P (f a)) : Returns P (c >>= f) := by
  show Returns P (Coro.bind c f)
  induction c with
  | done r =>
      cases r with
      | ok a => exact hf a
      | error x => trivial
  | read k ih => exact fun s => ih s
  | write g k ih => exact ih
  | call i k ih => exact fun r => ih r

theorem wp_returns {W : World E ι ρ ε} {C : Contract σ E ι ρ ε} {P : α → Prop}
    (c : Coro σ ι ρ ε α) (hc : Returns P c) {Q : Except ε α → σ → E → Prop} :
    ∀ s e, wp W C c Q s e → wp W C c (fun r s e => (∀ a, r = .ok a → P a) ∧ Q r s e) s e := by
  induction c with
  | done r =>
      intro s e h
      refine ⟨fun a ha => ?_, h⟩
      subst ha
      exact hc
  | read k ih => exact fun s e h => ih s (hc s) s e h
  | write f k ih => exact fun s e h => ih hc (f s) e h
  | call i k ih =>
      intro s e h
      simp only [wp] at h ⊢
      split
      · next r e' he =>
          simp only [he] at h
          exact ⟨h.1, fun hi => ih r (hc r) s e' (h.2 hi)⟩
      · next he =>
          simp only [he] at h
          intro hs
          obtain ⟨hg, hlater⟩ := h hs
          exact ⟨hg, fun e₁ h₁ hi hs₁ r e₂ ha hr hi₂ =>
            ih r (hc r) s e₂ (hlater e₁ h₁ hi hs₁ r e₂ ha hr hi₂)⟩

def Ends (I J : σ → E → Prop) : Except ε α → σ → E → Prop
  | .ok _ => I
  | .error _ => J

-- From `I` the coroutine comes back to `I`, or it raises and leaves `J`.
def Keeps (W : World E ι ρ ε) (C : Contract σ E ι ρ ε) (I J : σ → E → Prop) (c : Coro σ ι ρ ε α) :
    Prop :=
  ∀ s e, I s e → wp W C c (Ends I J) s e

namespace Keeps

variable {W : World E ι ρ ε} {C : Contract σ E ι ρ ε} {I J : σ → E → Prop}

theorem weaken {c : Coro σ ι ρ ε α} (hIJ : ∀ s e, I s e → J s e) (hc : Keeps W C I I c) :
    Keeps W C I J c := by
  intro s e h
  refine wp_mono c ?_ s e (hc s e h)
  intro r s e hr
  cases r with
  | ok a => exact hr
  | error x => exact hIJ s e hr

theorem pure (a : α) : Keeps W C I J (Pure.pure a : Coro σ ι ρ ε α) := fun _ _ h => h

theorem raise (hIJ : ∀ s e, I s e → J s e) (x : ε) :
    Keeps W C I J (Coro.raise x : Coro σ ι ρ ε α) := fun s e h => hIJ s e h

theorem get : Keeps W C I J (Coro.get : Coro σ ι ρ ε σ) := fun _ _ h => h

theorem modify {f : σ → σ} (hf : ∀ s e, I s e → I (f s) e) :
    Keeps W C I J (Coro.modify f : Coro σ ι ρ ε Unit) := fun s e h => hf s e h

theorem bind {c : Coro σ ι ρ ε α} {f : α → Coro σ ι ρ ε β} (hc : Keeps W C I J c)
    (hf : ∀ a, Keeps W C I J (f a)) : Keeps W C I J (c >>= f) := by
  intro s e h
  refine wp_bind _ _ s e (wp_mono c ?_ s e (hc s e h))
  intro r s e hr
  cases r with
  | ok a => exact hf a s e hr
  | error x => exact hr

theorem attempt {c : Coro σ ι ρ ε α} (hc : Keeps W C I I c) : Keeps W C I J (Coro.attempt c) := by
  intro s e h
  refine wp_attempt c s e (wp_mono c ?_ s e (hc s e h))
  intro r s e hr
  cases r with
  | ok a => exact hr
  | error x => exact hr

theorem tryCatch {c : Coro σ ι ρ ε α} {handler : ε → Coro σ ι ρ ε α} (hc : Keeps W C I I c)
    (hh : ∀ x, Keeps W C I J (handler x)) : Keeps W C I J (Coro.tryCatch c handler) := by
  refine bind (attempt hc) (fun r => ?_)
  cases r with
  | ok a => exact pure a
  | error x => exact hh x

theorem perform {i : ι} (hguar : ∀ s e, I s e → C.guar i s e)
    (hsync : ∀ s e r e', I s e → W.sync i e = some (r, e') → C.inv e' → I s e')
    (hrely : ∀ s e e', I s e → C.rely e e' → I s e')
    (hresume : ∀ s e r e', I s e → C.inv e → C.admits i r → W.resume i r e = some e' → C.inv e' →
      I s e') :
    Keeps W C I I (Coro.perform i : Coro σ ι ρ ε (ρ i)) := by
  intro s e h
  refine wp_perform (hguar s e h) (fun r e' he hi => ?_) ?_
  · cases r with
    | ok a => exact hsync s e _ e' h he hi
    | error x => exact hsync s e _ e' h he hi
  intro _ e₁ h₁ hi₁ hs₁ r e₂ ha hr hi₂
  have hI : I s e₁ := stable_star (hrely s) h₁ h
  cases r with
  | ok a => exact hresume s e₁ _ e₂ hI hi₁ ha hr hi₂
  | error x => exact hresume s e₁ _ e₂ hI hi₁ ha hr hi₂

end Keeps

end PandaProxy.Async
