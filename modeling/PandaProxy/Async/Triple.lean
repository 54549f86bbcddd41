import PandaProxy.Async.Coro

namespace PandaProxy.Async

variable {σ E ι : Type} {ρ : ι → Type} {ε α β : Type}

def Outcome (Y : α → σ → E → Prop) (Z : ε → σ → E → Prop) : Except ε α → σ → E → Prop
  | .ok a => Y a
  | .error x => Z x

-- From `X` the coroutine returns with `Y` or raises with `Z`, whatever the others do meanwhile.
def Triple (W : World E ι ρ ε) (C : Contract σ E ι ρ ε) (X : σ → E → Prop) (c : Coro σ ι ρ ε α) (Y : α → σ → E → Prop)
    (Z : ε → σ → E → Prop) : Prop :=
  ∀ s e, X s e → wp W C c (Outcome Y Z) s e

namespace Triple

variable {W : World E ι ρ ε} {C : Contract σ E ι ρ ε} {X X' : σ → E → Prop} {Z Z' : ε → σ → E → Prop}

theorem conseq {c : Coro σ ι ρ ε α} {Y Y' : α → σ → E → Prop} (h : Triple W C X c Y Z) (hX : ∀ s e, X' s e → X s e)
    (hY : ∀ a s e, Y a s e → Y' a s e) (hZ : ∀ x s e, Z x s e → Z' x s e) : Triple W C X' c Y' Z' := by
  intro s e hs
  refine wp_mono c ?_ s e (h s e (hX s e hs))
  intro r s e hr
  cases r with
  | ok a => exact hY a s e hr
  | error x => exact hZ x s e hr

theorem strengthen {c : Coro σ ι ρ ε α} {Y : α → σ → E → Prop} (h : Triple W C X c Y Z) (hX : ∀ s e, X' s e → X s e) :
    Triple W C X' c Y Z :=
  h.conseq hX (fun _ _ _ => id) fun _ _ _ => id

theorem pure {Y : α → σ → E → Prop} {a : α} (h : ∀ s e, X s e → Y a s e) :
    Triple W C X (Pure.pure a : Coro σ ι ρ ε α) Y Z := h

theorem raise {Y : α → σ → E → Prop} {x : ε} (h : ∀ s e, X s e → Z x s e) :
    Triple W C X (Coro.raise x : Coro σ ι ρ ε α) Y Z := h

theorem bind {c : Coro σ ι ρ ε α} {f : α → Coro σ ι ρ ε β} {Y : α → σ → E → Prop} {Y' : β → σ → E → Prop}
    (hc : Triple W C X c Y Z) (hf : ∀ a, Triple W C (Y a) (f a) Y' Z) : Triple W C X (c >>= f) Y' Z := by
  intro s e hs
  refine wp_bind _ _ s e (wp_mono c ?_ s e (hc s e hs))
  intro r s e hr
  cases r with
  | ok a => exact hf a s e hr
  | error x => exact hr

theorem tryCatch {c : Coro σ ι ρ ε α} {handler : ε → Coro σ ι ρ ε α} {Y : α → σ → E → Prop} (hc : Triple W C X c Y Z)
    (hh : ∀ x, Triple W C (Z x) (handler x) Y Z') : Triple W C X (Coro.tryCatch c handler) Y Z' := by
  intro s e hs
  refine wp_tryCatch c handler (wp_mono c ?_ s e (hc s e hs))
  intro r s e hr
  cases r with
  | ok a => exact hr
  | error x => exact hh x s e hr

theorem suppress {caught : ε → Bool} {c : Coro σ ι ρ ε Unit} {Y : Unit → σ → E → Prop} (hc : Triple W C X c Y Z)
    (hcaught : ∀ x s e, Z x s e → if caught x then Y () s e else Z' x s e) : Triple W C X (Coro.suppress caught c) Y Z' := by
  refine tryCatch hc fun x => ?_
  intro s e hx
  have hx := hcaught x s e hx
  split at hx
  · next h =>
      rw [if_pos h]
      exact hx
  · next h =>
      rw [if_neg h]
      exact hx

end Triple

end PandaProxy.Async
