import PandaProxy.Json.Lookup

namespace PandaProxy.Json

open Python

def Above (q p : List Text) : Prop := q <+: p ∧ q ≠ p

-- What a merge of `d` into `b` has at a path, each document known by its lookups.
structure MergedAt (b d r : List Text → Option Value) (p : List Text) : Prop where
  written : ∀ v, d p = some v → (∀ o o', b p = some (.dict o) → v ≠ .dict o') → r p = some v
  union : ∀ o o', b p = some (.dict o) → d p = some (.dict o') → ∃ o'', r p = some (.dict o'') ∧
    ∀ key, (Dict.get o'' key).isSome ↔ (Dict.get o key).isSome ∨ (Dict.get o' key).isSome
  cut : ∀ q v, Above q p → d q = some v → v.isDict = false → r p = none
  replaced : ∀ q o, Above q p → d q = some (.dict o) → (∀ o', b q ≠ some (.dict o')) → d p = none → r p = none
  kept : d p = none → (∀ q v, Above q p → d q = some v → ∃ o o', v = .dict o ∧ b q = some (.dict o')) → r p = b p

section

variable {key : Text} {p q path : List Text} {v w : Value}

theorem not_above_nil (h : Above q []) : False := h.2 (List.prefix_nil.mp h.1)

theorem above_cons (h : Above q (key :: path)) : q = [] ∨ ∃ q', q = key :: q' ∧ Above q' path := by
  obtain ⟨hle, hne⟩ := h
  cases q with
  | nil => exact .inl rfl
  | cons k q =>
      obtain ⟨rfl, hrest⟩ := List.cons_prefix_cons.mp hle
      exact .inr ⟨q, rfl, hrest, fun heq => hne (heq ▸ rfl)⟩

theorem Above.cons (h : Above q path) : Above (key :: q) (key :: path) :=
  ⟨List.cons_prefix_cons.mpr ⟨rfl, h.1⟩, fun heq => h.2 (List.cons.inj heq).2⟩

theorem above_root : Above [] (key :: path) := ⟨List.nil_prefix, nofun⟩

theorem object_above (hv : v.lookup p = some w) (h : Above q p) : ∃ o, v.lookup q = some (.dict o) := by
  obtain ⟨⟨rest, rfl⟩, hne⟩ := h
  rw [Value.lookup_append] at hv
  obtain ⟨u, hu, hrest⟩ := Option.bind_eq_some_iff.mp hv
  cases hdict : u.isDict with
  | true =>
      obtain ⟨o, rfl⟩ := Value.isDict_iff.mp hdict
      exact ⟨o, hu⟩
  | false =>
      cases rest with
      | nil => exact absurd (List.append_nil q).symm hne
      | cons key rest =>
          rw [Value.lookup_below hdict] at hrest
          cases hrest

theorem nothing_below (h : Above q p) (hq : ∀ o, v.lookup q ≠ some (.dict o)) : v.lookup p = none := by
  cases hp : v.lookup p with
  | none => rfl
  | some w =>
      obtain ⟨o, ho⟩ := object_above hp h
      exact absurd ho (hq o)

theorem nothing_below_scalar (h : Above q p) (hw : v.lookup q = some w) (hdict : w.isDict = false) : v.lookup p = none := by
  refine nothing_below h fun o ho => ?_
  cases hw.symm.trans ho
  cases hdict

theorem above_concat (h : Above q (p ++ [key])) : q <+: p := by
  rcases List.prefix_concat_iff.mp h.1 with heq | hle
  · exact absurd heq h.2
  · exact hle

theorem object_upto {o : Document} (hv : v.lookup p = some (.dict o)) (h : q <+: p) : ∃ o, v.lookup q = some (.dict o) := by
  by_cases heq : q = p
  · exact ⟨o, heq ▸ hv⟩
  · exact object_above hv ⟨h, heq⟩

theorem covers_iff : v.tree.Covers p ↔ v.lookup p ≠ none ∨ ∃ q w, Above q p ∧ v.lookup q = some w ∧ w.isDict = false := by
  rw [Tree.Covers, Ne, Value.tree_absent_iff]
  constructor
  · rintro (hp | ⟨q, w, hq, hw⟩)
    · exact .inl hp
    · obtain ⟨hlookup, hdict⟩ := Value.lookup_of_tree hw
      by_cases heq : q = p
      · exact .inl (by simp [← heq, hlookup])
      · exact .inr ⟨q, w, ⟨hq, heq⟩, hlookup, hdict⟩
  · rintro (hp | ⟨q, w, hq, hlookup, hdict⟩)
    · exact .inl hp
    · exact .inr ⟨q, w, hq.1, Value.tree_of_lookup hlookup hdict⟩

end

section

variable {b d r : List Text → Option Value} {key : Text} {p path : List Text}

theorem MergedAt.cons (h : MergedAt (fun q => b (key :: q)) (fun q => d (key :: q)) (fun q => r (key :: q)) path)
    (hb : ∃ o, b [] = some (.dict o)) (hd : ∃ o, d [] = some (.dict o)) : MergedAt b d r (key :: path) where
  written := h.written
  union := h.union
  cut q v hq hv hdict := by
    rcases above_cons hq with rfl | ⟨q', rfl, hq'⟩
    · obtain ⟨o, ho⟩ := hd
      cases ho.symm.trans hv
      cases hdict
    · exact h.cut q' v hq' hv hdict
  replaced q o hq hv hbase hnone := by
    rcases above_cons hq with rfl | ⟨q', rfl, hq'⟩
    · obtain ⟨o', ho'⟩ := hb
      exact absurd ho' (hbase o')
    · exact h.replaced q' o hq' hv hbase hnone
  kept hnone hobjects := h.kept hnone fun q v hq => hobjects (key :: q) v hq.cons

theorem MergedAt.untouched (hd : ∀ q, d q = none) (hr : ∀ q, r q = b q) : MergedAt b d r path where
  written v hv := absurd hv (by simp [hd])
  union _ _ _ hv := absurd hv (by simp [hd])
  cut q v _ hv := absurd hv (by simp [hd])
  replaced q o _ hv := absurd hv (by simp [hd])
  kept _ _ := hr path

end

section

variable {b d r : Value} {key : Text} {p : List Text}

theorem MergedAt.overlay (h : MergedAt b.lookup d.lookup r.lookup p) : r.tree p = Tree.overlay b.tree d.tree p := by
  by_cases hcovers : d.tree.Covers p
  · rw [Tree.overlay_of_covers hcovers]
    rcases covers_iff.mp hcovers with hd | ⟨q, w, hq, hw, hdict⟩
    · obtain ⟨v, hv⟩ := Option.ne_none_iff_exists'.mp hd
      by_cases hboth : ∃ o o', b.lookup p = some (.dict o) ∧ v = .dict o'
      · obtain ⟨o, o', ho, rfl⟩ := hboth
        obtain ⟨o'', ho'', _⟩ := h.union o o' ho hv
        rw [Value.tree_lookup, Value.tree_lookup, ho'', hv]
      · rw [Value.tree_lookup, Value.tree_lookup, h.written v hv fun o o' ho hv => hboth ⟨o, o', ho, hv⟩, hv]
    · have hnone := nothing_below_scalar hq hw hdict
      rw [Value.tree_absent_iff.mpr (h.cut q w hq hw hdict), Value.tree_absent_iff.mpr hnone]
  · rw [Tree.overlay_of_not_covers hcovers]
    rw [covers_iff, not_or, not_not] at hcovers
    obtain ⟨hnone, hobjects⟩ := hcovers
    by_cases hreplaced : ∃ q o, Above q p ∧ d.lookup q = some (.dict o) ∧ ∀ o', b.lookup q ≠ some (.dict o')
    · obtain ⟨q, o, hq, ho, hbase⟩ := hreplaced
      have hold := nothing_below hq hbase
      rw [Value.tree_absent_iff.mpr (h.replaced q o hq ho hbase hnone), Value.tree_absent_iff.mpr hold]
    · rw [Value.tree_lookup, Value.tree_lookup, h.kept hnone fun q v hq hv => ?_]
      cases hdict : v.isDict with
      | false => exact absurd ⟨q, v, hq, hv, hdict⟩ hobjects
      | true =>
          obtain ⟨o, rfl⟩ := Value.isDict_iff.mp hdict
          by_contra hnot
          exact hreplaced ⟨q, o, hq, hv, fun o' ho' => hnot ⟨o, o', rfl, ho'⟩⟩

theorem MergedAt.unmentioned {o o' : Document} (h : MergedAt b.lookup d.lookup r.lookup (p ++ [key]))
    (ho : b.lookup p = some (.dict o)) (ho' : d.lookup p = some (.dict o'))
    (hkey : Dict.get o' key = none) : r.lookup (p ++ [key]) = b.lookup (p ++ [key]) := by
  refine h.kept ?_ fun q v hq hv => ?_
  · rw [Value.lookup_append, ho', Option.bind_some, Value.lookup_missing hkey]
  · obtain ⟨a, ha⟩ := object_upto ho' (above_concat hq)
    obtain ⟨a', ha'⟩ := object_upto ho (above_concat hq)
    exact ⟨a, a', Option.some.inj (hv.symm.trans ha), ha'⟩

end

end PandaProxy.Json
