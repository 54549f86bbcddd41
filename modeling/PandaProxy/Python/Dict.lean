import Mathlib.Data.List.Basic

namespace PandaProxy.Python

-- A `dict`: the entries in the order in which their keys were first set.
abbrev Dict (κ ν : Type) := List (κ × ν)

namespace Dict

variable {κ ν : Type} [DecidableEq κ] {d : Dict κ ν} {k : κ} {v : ν}

def get (d : Dict κ ν) (k : κ) : Option ν := (d.find? fun p => p.1 = k).map Prod.snd

def set (d : Dict κ ν) (k : κ) (v : ν) : Dict κ ν :=
  match d with
  | [] => [(k, v)]
  | (k', v') :: d => if k' = k then (k, v) :: d else (k', v') :: set d k v

def pop (d : Dict κ ν) (k : κ) : Dict κ ν := d.filter fun p => p.1 ≠ k

theorem set_fresh (h : ∀ p ∈ d, p.1 ≠ k) : set d k v = d ++ [(k, v)] := by
  induction d with
  | nil => rfl
  | cons p d ih =>
      rw [set, if_neg (h p List.mem_cons_self), ih fun q hq => h q (List.mem_cons_of_mem _ hq)]
      rfl

theorem get_nil : get ([] : Dict κ ν) k = none := rfl

theorem get_cons {p : κ × ν} : get (p :: d) k = if p.1 = k then some p.2 else get d k := by
  by_cases h : p.1 = k
  · simp [get, h]
  · simp [get, h]

theorem get_set_self : get (set d k v) k = some v := by
  induction d with
  | nil => simp [set, get_cons]
  | cons p d ih =>
      by_cases h : p.1 = k
      · simp [set, h, get_cons]
      · simp [set, h, get_cons, ih]

theorem get_set_ne {k' : κ} (h : k' ≠ k) : get (set d k v) k' = get d k' := by
  induction d with
  | nil => simp [set, get_cons, get_nil, h.symm]
  | cons p d ih =>
      by_cases hp : p.1 = k
      · simp [set, hp, get_cons, h.symm]
      · simp [set, hp, get_cons, ih]

theorem set_of_get (h : get d k = some v) : set d k v = d := by
  induction d with
  | nil => cases h
  | cons p d ih =>
      obtain ⟨k', v'⟩ := p
      rw [get_cons] at h
      by_cases hk : k' = k
      · subst hk
        rw [if_pos rfl, Option.some.injEq] at h
        rw [set, if_pos rfl, ← h]
      · rw [if_neg hk] at h
        rw [set, if_neg hk, ih h]

theorem set_set {w : ν} : set (set d k v) k w = set d k w := by
  induction d with
  | nil => simp [set]
  | cons p d ih =>
      by_cases hk : p.1 = k
      · simp [set, hk]
      · simp [set, hk, ih]

theorem set_comm {k' : κ} {v' w : ν} (h : get d k' = some w) (hne : k ≠ k') :
    set (set d k v) k' v' = set (set d k' v') k v := by
  induction d with
  | nil => cases h
  | cons p d ih =>
      obtain ⟨k₀, v₀⟩ := p
      rw [get_cons] at h
      by_cases hk' : k₀ = k'
      · subst hk'
        simp [set, hne.symm]
      · rw [if_neg hk'] at h
        by_cases hk : k₀ = k
        · subst hk
          simp [set, hne]
        · simp [set, hk, hk', ih h]

theorem mem_of_get (h : get d k = some v) : (k, v) ∈ d := by
  obtain ⟨p, hp, rfl⟩ := Option.map_eq_some_iff.mp h
  have hk := List.find?_some hp
  simp only [decide_eq_true_eq] at hk
  subst hk
  exact List.mem_of_find?_eq_some hp

theorem get_eq_none : get d k = none ↔ ∀ p ∈ d, p.1 ≠ k := by
  simp [get]

theorem get_of_not_mem_keys (h : k ∉ d.map Prod.fst) : get d k = none := by
  rw [get_eq_none]
  rintro p hp rfl
  exact h (List.mem_map.mpr ⟨p, hp, rfl⟩)

theorem get_of_mem (hkeys : (d.map Prod.fst).Nodup) (h : (k, v) ∈ d) : get d k = some v := by
  induction d with
  | nil => cases h
  | cons p d ih =>
      rw [List.map_cons, List.nodup_cons] at hkeys
      rw [get_cons]
      rcases List.mem_cons.mp h with rfl | h
      · simp
      · have hne : p.1 ≠ k := fun he => hkeys.1 (he ▸ List.mem_map_of_mem (f := Prod.fst) h)
        rw [if_neg hne, ih hkeys.2 h]

theorem mem_set {p : κ × ν} (h : p ∈ set d k v) : p = (k, v) ∨ p ∈ d := by
  induction d with
  | nil => exact .inl (List.mem_singleton.mp h)
  | cons q d ih =>
      by_cases hq : q.1 = k
      · simp only [set, hq, if_true, List.mem_cons] at h
        exact h.imp_right fun h => List.mem_cons_of_mem _ h
      · simp only [set, hq, if_false, List.mem_cons] at h
        rcases h with rfl | h
        · exact .inr List.mem_cons_self
        · exact (ih h).imp_right fun h => List.mem_cons_of_mem _ h

theorem keys_set (h : k ∈ d.map Prod.fst) : (set d k v).map Prod.fst = d.map Prod.fst := by
  induction d with
  | nil => cases h
  | cons p d ih =>
      by_cases hp : p.1 = k
      · simp [set, hp]
      · simp only [List.map_cons, List.mem_cons] at h
        simp [set, hp, ih (h.resolve_left fun he => hp he.symm)]

theorem keys_set_nodup (hkeys : (d.map Prod.fst).Nodup) : ((set d k v).map Prod.fst).Nodup := by
  by_cases h : k ∈ d.map Prod.fst
  · rw [keys_set h]
    exact hkeys
  · have hfresh : ∀ p ∈ d, p.1 ≠ k := by
      rintro p hp rfl
      exact h (List.mem_map_of_mem (f := Prod.fst) hp)
    rw [set_fresh hfresh, List.map_append]
    refine List.nodup_append.mpr ⟨hkeys, by simp, ?_⟩
    rintro a ha b hb rfl
    rw [List.mem_singleton.mp hb] at ha
    exact h ha

theorem get_pop_self : get (pop d k) k = none := by
  simp [get_eq_none, pop]

theorem get_pop_ne {k' : κ} (h : k' ≠ k) : get (pop d k) k' = get d k' := by
  induction d with
  | nil => rfl
  | cons p d ih =>
      by_cases hp : p.1 = k
      · have hk : p.1 ≠ k' := fun he => h (he ▸ hp)
        have hpop : pop (p :: d) k = pop d k := List.filter_cons_of_neg (by simp [hp])
        rw [hpop, ih, get_cons, if_neg hk]
      · have hpop : pop (p :: d) k = p :: pop d k := List.filter_cons_of_pos (by simp [hp])
        rw [hpop, get_cons, get_cons, ih]

theorem keys_pop_nodup (hkeys : (d.map Prod.fst).Nodup) : ((pop d k).map Prod.fst).Nodup :=
  hkeys.sublist (List.filter_sublist.map _)

theorem mem_pop {p : κ × ν} : p ∈ pop d k ↔ p ∈ d ∧ p.1 ≠ k := by
  simp [pop]

theorem get_filter (keep : κ × ν → Bool) (hkeys : (d.map Prod.fst).Nodup) :
    get (d.filter keep) k = (get d k).filter fun v => keep (k, v) := by
  induction d with
  | nil => rfl
  | cons p d ih =>
      obtain ⟨k', v⟩ := p
      rw [List.map_cons, List.nodup_cons] at hkeys
      by_cases hk : k' = k
      · subst hk
        have hnone : get d k' = none := get_of_not_mem_keys hkeys.1
        cases hkeep : keep (k', v) with
        | true => simp [hkeep, get_cons, Option.filter]
        | false => simp [hkeep, get_cons, ih hkeys.2, hnone, Option.filter]
      · cases hkeep : keep (k', v) with
        | true => simp [hkeep, get_cons, hk, ih hkeys.2]
        | false => simp [hkeep, get_cons, hk, ih hkeys.2]

theorem get_filter_key (keep : κ → Bool) : get (d.filter fun p => keep p.1) k = if keep k then get d k else none := by
  induction d with
  | nil => simp [get_nil]
  | cons p d ih =>
      by_cases hk : p.1 = k
      · subst hk
        cases hkeep : keep p.1 with
        | true => simp [hkeep, get_cons]
        | false => simp [hkeep, ih]
      · cases hkeep : keep p.1 with
        | true => simp [hkeep, get_cons, hk, ih]
        | false => simp [hkeep, get_cons, hk, ih]

theorem get_map {ν' : Type} (f : κ → ν → ν') : get (d.map fun p => (p.1, f p.1 p.2)) k = (get d k).map (f k) := by
  induction d with
  | nil => rfl
  | cons p d ih =>
      by_cases hk : p.1 = k
      · subst hk
        simp [get_cons]
      · simp [get_cons, hk, ih]

end Dict

end PandaProxy.Python
