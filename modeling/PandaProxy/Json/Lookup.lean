import PandaProxy.Json.Value

namespace PandaProxy.Json

open Python

namespace Value

def lookup : Value → List Text → Option Value
  | v, [] => some v
  | .dict entries, key :: path =>
      match Dict.get entries key with
      | some v => lookup v path
      | none => none
  | _, _ :: _ => none

-- Every `dict` on the way to a value has each key once.
inductive Keyed : Value → Prop where
  | dict {entries : List (Text × Value)} (hkeys : (entries.map Prod.fst).Nodup) (h : ∀ p ∈ entries, Keyed p.2) :
      Keyed (.dict entries)
  | other {v : Value} (h : v.isDict = false) : Keyed v

variable {entries : Document} {key : Text} {path : List Text} {v w : Value}

theorem lookup_nil : lookup v [] = some v := by
  cases v <;> rfl

theorem lookup_cons : lookup (.dict entries) (key :: path) = (Dict.get entries key).bind fun v => lookup v path := by
  rw [lookup]
  cases Dict.get entries key <;> rfl

theorem lookup_get (h : Dict.get entries key = some v) : lookup (.dict entries) (key :: path) = lookup v path := by
  rw [lookup_cons, h, Option.bind_some]

theorem lookup_missing (h : Dict.get entries key = none) : lookup (.dict entries) (key :: path) = none := by
  rw [lookup_cons, h, Option.bind_none]

theorem lookup_below (h : v.isDict = false) : lookup v (key :: path) = none := by
  cases v <;> first | rfl | cases h

theorem lookup_append (v : Value) (p q : List Text) : lookup v (p ++ q) = (lookup v p).bind fun w => lookup w q := by
  induction p generalizing v with
  | nil => rw [List.nil_append, lookup_nil, Option.bind_some]
  | cons key p ih =>
      cases hv : v.isDict with
      | false => rw [List.cons_append, lookup_below hv, lookup_below hv, Option.bind_none]
      | true =>
          obtain ⟨entries, rfl⟩ := isDict_iff.mp hv
          cases hget : Dict.get entries key with
          | none => rw [List.cons_append, lookup_missing hget, lookup_missing hget, Option.bind_none]
          | some w => rw [List.cons_append, lookup_get hget, lookup_get hget, ih]

theorem tree_lookup (v : Value) (path : List Text) : v.tree path =
    match v.lookup path with
    | none => .absent
    | some (.dict _) => .branch
    | some w => .leaf w := by
  induction path generalizing v with
  | nil =>
      rw [lookup_nil]
      cases v <;> rfl
  | cons key path ih =>
      cases hv : v.isDict with
      | false => rw [tree_below hv, lookup_below hv]
      | true =>
          obtain ⟨entries, rfl⟩ := isDict_iff.mp hv
          cases hget : Dict.get entries key with
          | none => rw [tree_missing hget, lookup_missing hget]
          | some w => rw [tree_get hget, lookup_get hget, ih]

theorem tree_of_lookup (h : v.lookup path = some w) (hdict : w.isDict = false) : v.tree path = .leaf w := by
  rw [tree_lookup, h]
  cases w <;> first | rfl | cases hdict

theorem lookup_of_tree (h : v.tree path = .leaf w) : v.lookup path = some w ∧ w.isDict = false := by
  rw [tree_lookup] at h
  split at h
  · cases h
  · cases h
  · next w' hnot hw =>
      cases h
      cases hdict : w.isDict with
      | false => exact ⟨hw, rfl⟩
      | true =>
          obtain ⟨entries, rfl⟩ := isDict_iff.mp hdict
          exact (hnot entries rfl).elim

theorem tree_absent_iff : v.tree path = .absent ↔ v.lookup path = none := by
  rw [tree_lookup]
  split
  · next h => exact iff_of_true rfl h
  · next h => exact iff_of_false nofun (by simp [h])
  · next h => exact iff_of_false nofun (by simp [h])

theorem Keyed.keys (h : Keyed (.dict entries)) : (entries.map Prod.fst).Nodup := by
  cases h with
  | dict hkeys _ => exact hkeys
  | other h => cases h

theorem Keyed.get (h : Keyed (.dict entries)) (hget : Dict.get entries key = some v) : Keyed v := by
  cases h with
  | dict _ hentries => exact hentries _ (Dict.mem_of_get hget)
  | other h => cases h

theorem WellFormed.keyed {good : Text → Prop} {depth : Nat} (h : WellFormed good depth v) : Keyed v := by
  induction h with
  | dict hkeys _ _ ih => exact .dict hkeys ih
  | _ => exact .other rfl

end Value

end PandaProxy.Json
