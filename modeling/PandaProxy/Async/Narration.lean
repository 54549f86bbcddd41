import PandaProxy.Async.System

namespace PandaProxy.Async

variable {J Λ σ E ι V : Type} {ρ : ι → Type} {ε β α γ : Type}

-- Every process keeps a log, in order, of what its calls came to, and nothing but its own calls adds to it.
structure Narrated (S : System J Λ σ E ι ρ ε β) (V : Type) where
  log : E → J → List V
  emits : (i : ι) → Except ε (ρ i) → Option V
  spawn : ∀ j e s e', S.spawn j e = some (s, e') → log e' = log e
  sync : ∀ j i e r e', (S.world j).sync i e = some (r, e') →
    log e' j = log e j ++ (emits i r).toList ∧ ∀ k, k ≠ j → log e' k = log e k
  resume : ∀ j i r e e', (S.world j).resume i r e = some e' →
    log e' j = log e j ++ (emits i r).toList ∧ ∀ k, k ≠ j → log e' k = log e k
  tick : ∀ b e e', S.tick b e = some e' → log e' = log e

-- Whatever its calls are answered: the log is good after each of them, and `Q` holds of the outcome.
def Tells (emits : (i : ι) → Except ε (ρ i) → Option V) (good : List V → Prop) :
    Coro σ ι ρ ε α → (Except ε α → σ → List V → Prop) → σ → List V → Prop
  | .done r, Q, s, log => Q r s log
  | .read k, Q, s, log => Tells emits good (k s) Q s log
  | .write f k, Q, s, log => Tells emits good k Q (f s) log
  | .call i k, Q, s, log => ∀ r, good (log ++ (emits i r).toList) ∧ Tells emits good (k r) Q s (log ++ (emits i r).toList)

namespace Tells

variable {emits : (i : ι) → Except ε (ρ i) → Option V} {good : List V → Prop}

theorem mono (c : Coro σ ι ρ ε α) {Q Q' : Except ε α → σ → List V → Prop} (hQ : ∀ r s log, Q r s log → Q' r s log) :
    ∀ s log, Tells emits good c Q s log → Tells emits good c Q' s log := by
  induction c with
  | done r => exact fun s log h => hQ r s log h
  | read k ih => exact fun s log h => ih s s log h
  | write f k ih => exact fun s log h => ih (f s) log h
  | call i k ih => exact fun s log h r => ⟨(h r).1, ih r s _ (h r).2⟩

theorem bind (c : Coro σ ι ρ ε α) (f : α → Coro σ ι ρ ε γ) {Q : Except ε γ → σ → List V → Prop} :
    ∀ s log, Tells emits good c (fun r s log =>
      match r with
      | .ok a => Tells emits good (f a) Q s log
      | .error x => Q (.error x) s log) s log → Tells emits good (c >>= f) Q s log := by
  show ∀ s log, _ → Tells emits good (Coro.bind c f) Q s log
  induction c with
  | done r =>
      intro s log h
      cases r with
      | ok a => exact h
      | error x => exact h
  | read k ih => exact fun s log h => ih s s log h
  | write g k ih => exact fun s log h => ih (g s) log h
  | call i k ih => exact fun s log h r => ⟨(h r).1, ih r s _ (h r).2⟩

theorem attempt (c : Coro σ ι ρ ε α) {Q : Except ε (Except ε α) → σ → List V → Prop} :
    ∀ s log, Tells emits good c (fun r s log => Q (.ok r) s log) s log → Tells emits good (Coro.attempt c) Q s log := by
  induction c with
  | done r => exact fun s log h => h
  | read k ih => exact fun s log h => ih s s log h
  | write g k ih => exact fun s log h => ih (g s) log h
  | call i k ih => exact fun s log h r => ⟨(h r).1, ih r s _ (h r).2⟩

variable {Q : Except ε α → σ → List V → Prop} {s : σ} {log : List V}

theorem tryCatch (c : Coro σ ι ρ ε α) (handler : ε → Coro σ ι ρ ε α)
    (h : Tells emits good c (fun r s log =>
      match r with
      | .ok a => Q (.ok a) s log
      | .error x => Tells emits good (handler x) Q s log) s log) :
    Tells emits good (Coro.tryCatch c handler) Q s log := by
  refine bind _ _ s log (attempt c s log (mono c ?_ s log h))
  intro r s log hr
  cases r with
  | ok a => exact hr
  | error x => exact hr

theorem tryFinally (c : Coro σ ι ρ ε α) (cleanup : Coro σ ι ρ ε Unit)
    (h : Tells emits good c (fun r s log => Tells emits good cleanup (fun u s log =>
      match u with
      | .ok _ => Q r s log
      | .error x => Q (.error x) s log) s log) s log) :
    Tells emits good (Coro.tryFinally c cleanup) Q s log := by
  refine bind _ _ s log (attempt c s log (mono c ?_ s log h))
  intro r s log hr
  refine bind _ _ s log (mono cleanup ?_ s log hr)
  intro u s log hu
  cases u with
  | ok _ => exact hu
  | error x => exact hu

theorem suppress (caught : ε → Bool) (c : Coro σ ι ρ ε Unit) {Q : Except ε Unit → σ → List V → Prop}
    (h : Tells emits good c (fun r s log =>
      match r with
      | .ok a => Q (.ok a) s log
      | .error x => if caught x then Q (.ok ()) s log else Q (.error x) s log) s log) :
    Tells emits good (Coro.suppress caught c) Q s log := by
  refine tryCatch _ _ (mono c ?_ s log h)
  intro r s log hr
  cases r with
  | ok a => exact hr
  | error x =>
      by_cases hx : caught x = true
      · simp only [hx, if_true] at hr ⊢
        exact hr
      · simp only [hx] at hr ⊢
        exact hr

theorem silent {i : ι} (hi : ∀ r, emits i r = none) {Q : Except ε (ρ i) → σ → List V → Prop} (hgood : good log)
    (hQ : ∀ r, Q r s log) : Tells emits good (Coro.perform i : Coro σ ι ρ ε (ρ i)) Q s log := by
  intro r
  rw [hi r, Option.toList_none, List.append_nil]
  exact ⟨hgood, hQ r⟩

end Tells

section

variable {S : System J Λ σ E ι ρ ε β} (N : Narrated S V)

-- A protocol about nothing but what each process has logged.
def Narrated.protocol (good : J → List V → Prop) (lab : J → Λ → σ → List V → Prop) : Protocol J Λ σ E ι ρ ε β where
  inv e := ∀ j, good j (N.log e j)
  seen _ := True
  rely j e e' := N.log e' j = N.log e j
  admits _ _ _ := True
  allows _ := True
  guar j i _ e := ∀ r, good j (N.log e j ++ (N.emits i r).toList)
  idle j e := N.log e j = []
  lab j l s e := lab j l s (N.log e j)
  fin _ _ _ := True

variable {N} {good : J → List V → Prop} {lab : J → Λ → σ → List V → Prop}

def Narrated.Lands (S : System J Λ σ E ι ρ ε β) (lab : J → Λ → σ → List V → Prop) (j : J) (l : Λ)
    (r : Except ε (Option Λ)) (s : σ) (log : List V) : Prop :=
  ∀ l', S.next l r = some l' → lab j l' s log

theorem Tells.wp {j : J} {l : Λ} (c : Coro σ ι ρ ε (Option Λ)) : ∀ s e,
    Tells N.emits (good j) c (Narrated.Lands S lab j l) s (N.log e j) →
      wp (S.world j) ((N.protocol good lab).contract j l) c ((N.protocol good lab).post S j l) s e := by
  induction c with
  | done r =>
      intro s e h
      show (N.protocol good lab).post S j l r s e
      unfold Protocol.post
      split
      · next l' hl => exact h l' hl
      · trivial
  | read k ih => exact fun s e h => ih s s e h
  | write f k ih => exact fun s e h => ih (f s) e h
  | call i k ih =>
      intro s e h
      rw [Async.wp]
      split
      · next r e' hsync =>
          have hlog := (N.sync j i e r e' hsync).1
          exact ⟨fun r => (h r).1, fun _ => ih r s e' (by rw [hlog]; exact (h r).2)⟩
      · intro _
        refine ⟨fun r => (h r).1, fun e₁ hstar _ _ r e₂ _ hresume _ => ih r s e₂ ?_⟩
        have hsame : N.log e₁ j = N.log e j :=
          stable_star (X := fun e' => N.log e' j = N.log e j) (fun _ _ hX hr => Eq.trans hr hX) hstar rfl
        rw [(N.resume j i r e₁ e₂ hresume).1, hsame]
        exact (h r).2

theorem Narrated.verified (hbody : ∀ j l s log, lab j l s log → Tells N.emits (good j) (S.body l) (Narrated.Lands S lab j l) s log)
    (hspawn : ∀ j e s e', S.spawn j e = some (s, e') → lab j S.first s []) : (N.protocol good lab).Verified S where
  body j l s e _ h := Tells.wp _ s e (hbody j l s (N.log e j) h)
  inv_sync j i s e r e' hinv hguar hsync k := by
    obtain ⟨hown, hother⟩ := N.sync j i e r e' hsync
    by_cases hk : k = j
    · subst hk
      rw [hown]
      exact hguar r
    · rw [hother k hk]
      exact hinv k
  inv_resume j l i s e r e' hinv hguar _ hresume k := by
    obtain ⟨hown, hother⟩ := N.resume j i r e e' hresume
    by_cases hk : k = j
    · subst hk
      rw [hown]
      exact hguar r
    · rw [hother k hk]
      exact hinv k
  inv_spawn j e s e' hinv _ hspawn k := by
    rw [N.spawn j e s e' hspawn]
    exact hinv k
  inv_tick b e e' _ hinv _ htick k := by
    rw [N.tick b e e' htick]
    exact hinv k
  rely_sync j k i s e r e' hk _ _ hsync := (N.sync j i e r e' hsync).2 k hk
  rely_resume j k l i s e r e' hk _ _ _ hresume := (N.resume j i r e e' hresume).2 k hk
  rely_spawn j k e s e' _ _ _ hspawn := congrFun (N.spawn j e s e' hspawn) k
  rely_tick k b e e' _ _ _ htick := congrFun (N.tick b e e' htick) k
  guar_stable j i s e e' _ _ _ hguar hrely r := by
    rw [show N.log e' j = N.log e j from hrely]
    exact hguar r
  lab_stable j l s e e' _ _ hlab hrely := by
    show lab j l s (N.log e' j)
    rw [show N.log e' j = N.log e j from hrely]
    exact hlab
  fin_stable _ _ _ _ _ _ _ _ := trivial
  idle_stable j e e' _ _ hidle hrely := Eq.trans hrely hidle
  spawn_lab j e s e' _ hidle hsp := by
    show lab j S.first s (N.log e' j)
    rw [N.spawn j e s e' hsp, show N.log e j = [] from hidle]
    exact hspawn j e s e' hsp

variable [DecidableEq J] [DecidableEq ι]

theorem Narrated.runs (hbody : ∀ j l s log, lab j l s log → Tells N.emits (good j) (S.body l) (Narrated.Lands S lab j l) s log)
    (hspawn : ∀ j e s e', S.spawn j e = some (s, e') → lab j S.first s []) (hempty : ∀ j, good j [])
    {e₀ : E} (hlog : ∀ j, N.log e₀ j = []) {c : Config J Λ σ E ι ρ ε}
    (hrun : S.Runs (fun _ _ _ => True) ⟨fun _ => .idle, e₀⟩ c) (j : J) : good j (N.log c.env j) := by
  have hV := Narrated.verified hbody hspawn
  have hstart : (N.protocol good lab).Holds S ⟨fun _ => .idle, e₀⟩ := by
    refine ⟨fun k => ?_, fun k => hlog k⟩
    show good k (N.log e₀ k)
    rw [hlog k]
    exact hempty k
  refine (Protocol.Holds.run hV (fun _ a _ _ => ⟨?_, trivial⟩) hrun hstart trivial).1.inv j
  cases a with
  | resume j i r => exact fun _ _ _ _ => trivial
  | _ => trivial

end

end PandaProxy.Async
