import Mathlib.Logic.Relation

namespace PandaProxy.Async

-- A system given by what each of its steps does; `none` where the step cannot be taken.
structure Machine (σ α : Type) where
  step : σ → α → Option σ

namespace Machine

variable {σ α : Type} {M : Machine σ α} {ok : σ → α → σ → Prop} {s₀ s : σ}

def Runs (M : Machine σ α) (ok : σ → α → σ → Prop) : σ → σ → Prop :=
  Relation.ReflTransGen fun s s' => ∃ a, M.step s a = some s' ∧ ok s a s'

abbrev Free (_ : σ) (_ : α) (_ : σ) : Prop := True

theorem Runs.keeps {I : σ → Prop} (hrun : M.Runs ok s₀ s) (h : I s₀)
    (hstep : ∀ s a s', I s → M.step s a = some s' → ok s a s' → I s') : I s := by
  induction hrun with
  | refl => exact h
  | tail _ hlast ih =>
      obtain ⟨a, ha, hok⟩ := hlast
      exact hstep _ a _ ih ha hok

def play (M : Machine σ α) (s : σ) : List α → Option σ
  | [] => some s
  | a :: as => (M.step s a).bind fun s' => M.play s' as

theorem play_runs {as : List α} (h : M.play s₀ as = some s) : M.Runs Free s₀ s := by
  induction as generalizing s₀ with
  | nil =>
      cases h
      exact .refl
  | cons a as ih =>
      obtain ⟨s₁, ha, hs⟩ := Option.bind_eq_some_iff.mp h
      exact .head ⟨a, ha, trivial⟩ (ih hs)

theorem play_split {as bs : List α} {a : α} (h : M.play s₀ (as ++ a :: bs) = some s) :
    ∃ s₁ s₂, M.play s₀ as = some s₁ ∧ M.step s₁ a = some s₂ ∧ M.play s₂ bs = some s := by
  induction as generalizing s₀ with
  | nil =>
      obtain ⟨s₂, ha, hs⟩ := Option.bind_eq_some_iff.mp h
      exact ⟨s₀, s₂, rfl, ha, hs⟩
  | cons b as ih =>
      obtain ⟨s', hb, hs⟩ := Option.bind_eq_some_iff.mp h
      obtain ⟨s₁, s₂, has, ha, hbs⟩ := ih hs
      exact ⟨s₁, s₂, Option.bind_eq_some_iff.mpr ⟨s', hb, has⟩, ha, hbs⟩

def playWhile (M : Machine σ α) (check : σ → α → σ → Bool) (s : σ) : List α → Option σ
  | [] => some s
  | a :: as => (M.step s a).bind fun s' => if check s a s' then M.playWhile check s' as else none

def Trace (M : Machine σ α) (ok : σ → α → σ → Prop) (s : σ) : List α → σ → Prop
  | [], s' => s' = s
  | a :: as, s' => ∃ s₁, M.step s a = some s₁ ∧ ok s a s₁ ∧ M.Trace ok s₁ as s'

theorem Trace.runs {as : List α} (h : M.Trace ok s₀ as s) : M.Runs ok s₀ s := by
  induction as generalizing s₀ with
  | nil =>
      cases h
      exact .refl
  | cons a as ih =>
      obtain ⟨s₁, ha, hok, hs⟩ := h
      exact .head ⟨a, ha, hok⟩ (ih hs)

theorem playWhile_trace {check : σ → α → σ → Bool} {as : List α}
    (hcheck : ∀ s a s', check s a s' = true → ok s a s') (h : M.playWhile check s₀ as = some s) :
    M.Trace ok s₀ as s := by
  induction as generalizing s₀ with
  | nil =>
      cases h
      rfl
  | cons a as ih =>
      obtain ⟨s₁, ha, hs⟩ := Option.bind_eq_some_iff.mp h
      split at hs
      · next hok => exact ⟨s₁, ha, hcheck _ _ _ hok, ih hs⟩
      · cases hs

theorem playWhile_runs {check : σ → α → σ → Bool} {as : List α}
    (hcheck : ∀ s a s', check s a s' = true → ok s a s') (h : M.playWhile check s₀ as = some s) :
    M.Runs ok s₀ s :=
  (playWhile_trace hcheck h).runs

theorem Trace.project {V : Type} {I : σ → Prop} {view : σ → V} {concerns : α → Bool} {next : V → α → V}
    {as : List α} (h : M.Trace ok s as s₀) (hI : I s)
    (hkeeps : ∀ s a s', I s → M.step s a = some s' → ok s a s' → I s')
    (hview : ∀ s a s', I s → M.step s a = some s' → ok s a s' →
      view s' = if concerns a then next (view s) a else view s) :
    view s₀ = (as.filter concerns).foldl next (view s) := by
  induction as generalizing s with
  | nil =>
      cases h
      rfl
  | cons a as ih =>
      obtain ⟨s₁, ha, hok, hs⟩ := h
      have hstep := hview s a s₁ hI ha hok
      have hrest := ih hs (hkeeps s a s₁ hI ha hok)
      cases hc : concerns a with
      | true => rw [List.filter_cons_of_pos hc, List.foldl_cons, hrest, hstep, if_pos hc]
      | false => rw [List.filter_cons_of_neg (by simp [hc]), hrest, hstep, if_neg (by simp [hc])]

end Machine

end PandaProxy.Async
