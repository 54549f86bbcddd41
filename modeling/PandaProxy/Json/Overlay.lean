import Mathlib.Data.List.Basic
import Mathlib.Data.Set.Basic

namespace PandaProxy.Json

inductive Node (ν : Type) where
  | absent
  | branch
  | leaf (v : ν)

-- What a document of nested dictionaries holds at each path of keys.
abbrev Tree (κ ν : Type) := List κ → Node ν

namespace Tree

variable {κ ν : Type}

def empty : Tree κ ν := fun _ => .absent

-- A leaf on the way to a path leaves nothing of what was below it.
def Covers (d : Tree κ ν) (p : List κ) : Prop := d p ≠ .absent ∨ ∃ q v, q <+: p ∧ d q = .leaf v

open Classical in
noncomputable def overlay (b d : Tree κ ν) : Tree κ ν := fun p => if d.Covers p then d p else b p

variable {b d x : Tree κ ν} {p q : List κ} {v : ν}

theorem overlay_of_covers (h : d.Covers p) : overlay b d p = d p := if_pos h

theorem overlay_of_not_covers (h : ¬ d.Covers p) : overlay b d p = b p := if_neg h

theorem Covers.below (h : d q = .leaf v) (hq : q <+: p) : d.Covers p := .inr ⟨q, v, hq, h⟩

theorem Covers.here (h : d p = .leaf v) : d.Covers p := .below h (List.prefix_refl p)

theorem absent_of_not_covers (h : ¬ d.Covers p) : d p = .absent := Classical.not_not.mp fun hd => h (.inl hd)

theorem not_covers_empty : ¬ (empty : Tree κ ν).Covers p := by
  rintro (h | ⟨q, v, _, h⟩)
  · exact h rfl
  · cases h

theorem overlay_empty : overlay b empty = b := by
  funext p
  exact overlay_of_not_covers not_covers_empty

theorem empty_overlay : overlay empty d = d := by
  funext p
  by_cases h : d.Covers p
  · exact overlay_of_covers h
  · rw [overlay_of_not_covers h, absent_of_not_covers h]
    rfl

theorem overlay_idem : overlay (overlay b d) d = overlay b d := by
  funext p
  by_cases h : d.Covers p
  · rw [overlay_of_covers h, overlay_of_covers h]
  · rw [overlay_of_not_covers h]

theorem overlay_self : overlay d d = d := by
  funext p
  by_cases h : d.Covers p
  · exact overlay_of_covers h
  · exact overlay_of_not_covers h

-- What the overlay covers, it covers through `d`, or `x` is there already.
theorem overlay_absorb : overlay x (overlay x d) = overlay x d := by
  funext p
  by_cases h : (overlay x d).Covers p
  · exact overlay_of_covers h
  · rw [overlay_of_not_covers h]
    have hd : ¬ d.Covers p := by
      intro hd
      rcases hd with hp | ⟨q, v, hq, hv⟩
      · exact h (.inl (by rwa [overlay_of_covers (.inl hp)]))
      · exact h (.below ((overlay_of_covers (.here hv)).trans hv) hq)
    exact (overlay_of_not_covers hd).symm

theorem overlay_congr {b' d' : Tree κ ν} {p' : List κ} (hd : d.Covers p ↔ d'.Covers p') (hdp : d p = d' p')
    (hbp : b p = b' p') : overlay b d p = overlay b' d' p' := by
  by_cases h : d.Covers p
  · rw [overlay_of_covers h, overlay_of_covers (hd.mp h), hdp]
  · rw [overlay_of_not_covers h, overlay_of_not_covers fun h' => h (hd.mpr h'), hbp]

section

open Classical

noncomputable def within (S : Set (List κ)) (d : Tree κ ν) : Tree κ ν := fun p => if p ∈ S then d p else .absent

variable {S : Set (List κ)}

theorem within_of_mem (h : p ∈ S) : within S d p = d p := if_pos h

theorem within_of_not_mem (h : p ∉ S) : within S d p = .absent := if_neg h

-- No leaf outside `S` on the way to a path of `S`.
def Reaches (S : Set (List κ)) (d : Tree κ ν) : Prop := ∀ p ∈ S, ∀ q v, q <+: p → d q = .leaf v → q ∈ S

theorem within_covers (h : Reaches S d) (hp : p ∈ S) : (within S d).Covers p ↔ d.Covers p := by
  constructor
  · rintro (hne | ⟨q, v, hq, hv⟩)
    · exact .inl (by rwa [within_of_mem hp] at hne)
    · by_cases hqS : q ∈ S
      · exact .below (by rwa [within_of_mem hqS] at hv) hq
      · rw [within_of_not_mem hqS] at hv
        cases hv
  · rintro (hne | ⟨q, v, hq, hv⟩)
    · exact .inl (by rwa [within_of_mem hp])
    · exact .below ((within_of_mem (h p hp q v hq hv)).trans hv) hq

theorem not_covers_outside (hS : ∀ p q, q ∈ S → q <+: p → p ∈ S) (hp : p ∉ S) : ¬ (within S d).Covers p := by
  rintro (hne | ⟨q, v, hq, hv⟩)
  · exact hne (within_of_not_mem hp)
  · by_cases hqS : q ∈ S
    · exact hp (hS p q hqS hq)
    · rw [within_of_not_mem hqS] at hv
      cases hv

theorem within_overlay (hS : ∀ p q, q ∈ S → q <+: p → p ∈ S) (h : Reaches S d) :
    within S (overlay b d) = overlay (within S b) (within S d) := by
  funext p
  by_cases hp : p ∈ S
  · rw [within_of_mem hp]
    exact overlay_congr (within_covers h hp).symm (within_of_mem hp).symm (within_of_mem hp).symm
  · rw [within_of_not_mem hp, overlay_of_not_covers (not_covers_outside hS hp), within_of_not_mem hp]

end

def mapLeaves (f : List κ → ν → ν) (d : Tree κ ν) : Tree κ ν := fun p =>
  match d p with
  | .leaf v => .leaf (f p v)
  | n => n

variable {f : List κ → ν → ν}

theorem mapLeaves_leaf (h : d p = .leaf v) : mapLeaves f d p = .leaf (f p v) := by
  simp only [mapLeaves, h]

theorem mapLeaves_absent : mapLeaves f d p = .absent ↔ d p = .absent := by
  simp only [mapLeaves]
  cases d p <;> simp

theorem leaf_of_mapLeaves (h : mapLeaves f d p = .leaf v) : ∃ w, d p = .leaf w := by
  cases hd : d p with
  | leaf w => exact ⟨w, rfl⟩
  | absent => simp [mapLeaves, hd] at h
  | branch => simp [mapLeaves, hd] at h

theorem mapLeaves_covers : (mapLeaves f d).Covers p ↔ d.Covers p := by
  constructor
  · rintro (hne | ⟨q, v, hq, hv⟩)
    · exact .inl fun h => hne (mapLeaves_absent.mpr h)
    · obtain ⟨w, hw⟩ := leaf_of_mapLeaves hv
      exact .below hw hq
  · rintro (hne | ⟨q, v, hq, hv⟩)
    · exact .inl fun h => hne (mapLeaves_absent.mp h)
    · exact .below (mapLeaves_leaf hv) hq

theorem mapLeaves_congr (h : d p = x p) : mapLeaves f d p = mapLeaves f x p := by
  simp only [mapLeaves, h]

theorem mapLeaves_overlay : mapLeaves f (overlay b d) = overlay (mapLeaves f b) (mapLeaves f d) := by
  funext p
  by_cases h : d.Covers p
  · rw [overlay_of_covers (mapLeaves_covers.mpr h), mapLeaves_congr (overlay_of_covers h)]
  · rw [overlay_of_not_covers (fun h' => h (mapLeaves_covers.mp h')), mapLeaves_congr (overlay_of_not_covers h)]

theorem mapLeaves_id : mapLeaves (fun _ v => v) d = d := by
  funext p
  simp only [mapLeaves]
  cases d p <;> rfl

theorem within_mapLeaves {S : Set (List κ)} : within S (mapLeaves f d) = mapLeaves f (within S d) := by
  funext p
  by_cases hp : p ∈ S
  · rw [within_of_mem hp]
    exact mapLeaves_congr (within_of_mem hp).symm
  · rw [within_of_not_mem hp]
    exact (mapLeaves_absent.mpr (within_of_not_mem hp)).symm

end Tree

end PandaProxy.Json
