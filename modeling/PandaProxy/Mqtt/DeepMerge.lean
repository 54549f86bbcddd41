import PandaProxy.Json.Merge
import PandaProxy.Mqtt.StateCache

namespace PandaProxy.Mqtt

open Json Python

section

variable {base delta : Document} {e : Option Value} {key : Text} {path : List Text} {v : Value}

theorem bind_lookup_nil : (e.bind fun x => x.lookup []) = e := by
  cases e with
  | none => rfl
  | some x => exact Value.lookup_nil

theorem mergedAt_root (hv : v.Keyed) : MergedAt (fun q => e.bind fun x => x.lookup q) v.lookup (merged e v).lookup [] where
  written w hw hother := by
    rw [Value.lookup_nil] at hw ⊢
    cases hw
    cases hdict : v.isDict with
    | false => rw [merged_of_not_dict hdict]
    | true =>
        obtain ⟨delta, rfl⟩ := Value.isDict_iff.mp hdict
        rw [merged_fresh fun base hbase => hother base delta (bind_lookup_nil.trans hbase) rfl]
  union o o' ho ho' := by
    rw [bind_lookup_nil] at ho
    rw [Value.lookup_nil] at ho'
    cases ho
    cases ho'
    refine ⟨deepMerge o o', Value.lookup_nil, fun key => ?_⟩
    rw [get_deepMerge hv.keys]
    cases Dict.get o' key with
    | none => simp
    | some w => simp
  cut _ _ h := (not_above_nil h).elim
  replaced _ _ h := (not_above_nil h).elim
  kept hnone := by
    rw [Value.lookup_nil] at hnone
    cases hnone

theorem mergedAt_fresh (h : ∀ base, e ≠ some (.dict base)) :
    MergedAt (fun q => e.bind fun x => x.lookup q) (Value.dict delta).lookup (Value.dict delta).lookup (key :: path) where
  written _ hw _ := hw
  union o o' ho _ := by
    obtain ⟨x, hx, ho⟩ := Option.bind_eq_some_iff.mp ho
    cases hdict : x.isDict with
    | false =>
        rw [Value.lookup_below hdict] at ho
        cases ho
    | true =>
        obtain ⟨base, rfl⟩ := Value.isDict_iff.mp hdict
        exact absurd hx (h base)
  cut q v hq hv hdict := nothing_below_scalar hq hv hdict
  replaced _ _ _ _ _ hnone := hnone
  kept _ hobjects := by
    obtain ⟨_, o', _, ho'⟩ := hobjects [] _ above_root Value.lookup_nil
    exact absurd (bind_lookup_nil.symm.trans ho') (h o')

theorem mergedAt_merged (hv : v.Keyed) (p : List Text) :
    MergedAt (fun q => e.bind fun x => x.lookup q) v.lookup (merged e v).lookup p := by
  induction p generalizing e v with
  | nil => exact mergedAt_root hv
  | cons key path ih =>
      cases hdict : v.isDict with
      | false =>
          rw [merged_of_not_dict hdict]
          have hnone : v.lookup (key :: path) = none := Value.lookup_below hdict
          refine ⟨fun w hw => absurd hw (by simp [hnone]), fun _ _ _ hw => absurd hw (by simp [hnone]),
            fun _ _ _ _ _ => hnone, fun _ _ _ _ _ _ => hnone, fun _ hobjects => ?_⟩
          obtain ⟨o, _, rfl, _⟩ := hobjects [] v above_root Value.lookup_nil
          cases hdict
      | true =>
          obtain ⟨delta, rfl⟩ := Value.isDict_iff.mp hdict
          by_cases hbase : ∃ base, e = some (.dict base)
          · obtain ⟨base, rfl⟩ := hbase
            simp only [merged, Option.bind_some]
            refine MergedAt.cons ?_ ⟨base, Value.lookup_nil⟩ ⟨delta, Value.lookup_nil⟩
            have hmerged : Dict.get (deepMerge base delta) key = _ := get_deepMerge hv.keys
            cases hget : Dict.get delta key with
            | none =>
                rw [hget] at hmerged
                refine .untouched (fun _ => Value.lookup_missing hget) fun q => ?_
                rw [Value.lookup_cons, Value.lookup_cons, hmerged]
            | some w =>
                rw [hget] at hmerged
                simp only [Value.lookup_get hget, Value.lookup_get hmerged, Value.lookup_cons]
                exact ih (hv.get hget)
          · rw [merged_fresh fun o ho => hbase ⟨o, ho⟩]
            exact mergedAt_fresh fun o ho => hbase ⟨o, ho⟩

theorem mergedAt_deepMerge (hdelta : Value.Keyed (.dict delta)) (base : Document) (p : List Text) :
    MergedAt (Value.dict base).lookup (Value.dict delta).lookup (Value.dict (deepMerge base delta)).lookup p :=
  mergedAt_merged (e := some (.dict base)) hdelta p

theorem tree_deepMerge (hdelta : Value.Keyed (.dict delta)) :
    (Value.dict (deepMerge base delta)).tree = Tree.overlay (Value.dict base).tree (Value.dict delta).tree := by
  funext p
  exact (mergedAt_deepMerge hdelta base p).overlay

theorem deepMerge_absorbed (h : ∀ p ∈ delta, ∃ x, Dict.get base p.1 = some x ∧ merged (some x) p.2 = x) :
    deepMerge base delta = base := by
  induction delta with
  | nil => rfl
  | cons p delta ih =>
      obtain ⟨key, value⟩ := p
      obtain ⟨x, hget, hx⟩ := h _ List.mem_cons_self
      dsimp only at hget hx
      rw [deepMerge, hget, hx, Dict.set_of_get hget]
      exact ih fun p hp => h p (List.mem_cons_of_mem _ hp)

theorem merged_self (hv : v.Keyed) : merged (some v) v = v := by
  induction hv with
  | other h => exact merged_of_not_dict h
  | dict hkeys _ ih =>
      simp only [merged, Value.dict.injEq]
      exact deepMerge_absorbed fun p hp => ⟨p.2, Dict.get_of_mem hkeys hp, ih p hp⟩

theorem merged_again (hv : v.Keyed) (e : Option Value) : merged (some (merged e v)) v = merged e v := by
  induction hv generalizing e with
  | other h => rw [merged_of_not_dict h, merged_of_not_dict h]
  | @dict delta hkeys hvalues ih =>
      by_cases hbase : ∃ base, e = some (.dict base)
      · obtain ⟨base, rfl⟩ := hbase
        simp only [merged, Value.dict.injEq]
        refine deepMerge_absorbed fun p hp => ⟨merged (Dict.get base p.1) p.2, ?_, ih p hp _⟩
        rw [get_deepMerge hkeys, Dict.get_of_mem hkeys hp]
      · rw [merged_fresh fun base hb => hbase ⟨base, hb⟩]
        exact merged_self (.dict hkeys hvalues)

theorem deepMerge_again (hdelta : Value.Keyed (.dict delta)) (base : Document) :
    deepMerge (deepMerge base delta) delta = deepMerge base delta := by
  have hagain := merged_again hdelta (some (.dict base))
  simpa only [merged, Value.dict.injEq] using hagain

structure LastWriterWins (base delta : Document) : Prop where
  path : ∀ p, MergedAt (Value.dict base).lookup (Value.dict delta).lookup (Value.dict (deepMerge base delta)).lookup p
  unmentioned : ∀ p o o' key, (Value.dict base).lookup p = some (.dict o) → (Value.dict delta).lookup p = some (.dict o') →
    Dict.get o' key = none →
      (Value.dict (deepMerge base delta)).lookup (p ++ [key]) = (Value.dict base).lookup (p ++ [key])
  lists : ∀ p items, (Value.dict delta).lookup p = some (.list items) →
    (Value.dict (deepMerge base delta)).lookup p = some (.list items)
  again : deepMerge (deepMerge base delta) delta = deepMerge base delta

theorem last_writer_wins (base : Document) (hdelta : Value.Keyed (.dict delta)) : LastWriterWins base delta := by
  have hpath := mergedAt_deepMerge hdelta base
  exact ⟨hpath, fun p o o' key => (hpath (p ++ [key])).unmentioned, fun p items h => (hpath p).written _ h nofun,
    deepMerge_again hdelta base⟩

def shown : Document := [(text "print", .dict [(text "bed", .int 60), (text "ams", .list [.int 1, .int 2])]), (text "info", .int 1)]

def change : Document := [(text "print", .dict [(text "ams", .list [])]), (text "info", .dict [(text "module", .int 2)])]

theorem change_keyed : Value.Keyed (.dict change) := by
  refine .dict (by decide +kernel) fun p hp => ?_
  rcases List.mem_pair.mp hp with rfl | rfl
  · exact .dict (by decide +kernel) fun p hp => by
      cases List.mem_singleton.mp hp
      exact .other rfl
  · exact .dict (by decide +kernel) fun p hp => by
      cases List.mem_singleton.mp hp
      exact .other rfl

theorem last_writer_wins_change : LastWriterWins shown change := last_writer_wins shown change_keyed

end

end PandaProxy.Mqtt
