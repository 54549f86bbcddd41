import PandaProxy.Mqtt.DeepMerge
import PandaProxy.Mqtt.ReportedAddress

namespace PandaProxy.Mqtt

open Json Python

def onKey (key : Text) (f : Value → Value) (d : Document) : Document :=
  match Dict.get d key with
  | some v => Dict.set d key (f v)
  | none => d

def onDict (F : Document → Document) : Value → Value
  | .dict d => .dict (F d)
  | v => v

-- `rewrite_reported_ip` as a walk down to the list.
def rewriting (encoded : Int) : Document → Document :=
  onKey (text "print") (onDict (onKey (text "net") (onDict (onKey (text "info") (readdress encoded)))))

def differs (encoded : Int) : Value → Bool
  | .dict entry => (Dict.get entry (text "ip")).any fun ip => !ip.eqInt encoded
  | _ => false

def differing (encoded : Int) (d : Document) : Nat :=
  match (Value.dict d).lookup infoPath with
  | some (.list entries) => entries.countP (differs encoded)
  | _ => 0

section

variable {d base delta : Document} {key k : Text} {f : Value → Value} {F : Document → Document} {v w : Value} {encoded : Int}
  {address : String}

theorem onKey_get (h : Dict.get d key = some v) : onKey key f d = Dict.set d key (f v) := by
  simp only [onKey, h]

theorem onKey_missing (h : Dict.get d key = none) : onKey key f d = d := by
  simp only [onKey, h]

theorem onKey_fixed (h : ∀ v, Dict.get d key = some v → f v = v) : onKey key f d = d := by
  cases hget : Dict.get d key with
  | none => exact onKey_missing hget
  | some v => rw [onKey_get hget, h v hget, Dict.set_of_get hget]

theorem get_onKey_self : Dict.get (onKey key f d) key = (Dict.get d key).map f := by
  cases hget : Dict.get d key with
  | none => rw [onKey_missing hget, hget, Option.map_none]
  | some v => rw [onKey_get hget, Dict.get_set_self, Option.map_some]

theorem get_onKey_ne (h : k ≠ key) : Dict.get (onKey key f d) k = Dict.get d k := by
  cases hget : Dict.get d key with
  | none => rw [onKey_missing hget]
  | some v => rw [onKey_get hget, Dict.get_set_ne h]

theorem onDict_fixed (h : v.isDict = false) : onDict F v = v := by
  cases v <;> first | rfl | cases h

theorem getDict_none (h : getDict d key = none) : ∀ v, Dict.get d key = some v → v.isDict = false := by
  intro v hv
  cases hdict : v.isDict with
  | false => rfl
  | true =>
      obtain ⟨inner, rfl⟩ := Value.isDict_iff.mp hdict
      rw [getDict_some.mpr hv] at h
      cases h

theorem onKey_onDict_none (h : getDict d key = none) : onKey key (onDict F) d = d :=
  onKey_fixed fun v hv => onDict_fixed (getDict_none h v hv)

theorem onKey_onDict {inner : Document} (h : getDict d key = some inner) :
    onKey key (onDict F) d = Dict.set d key (.dict (F inner)) :=
  onKey_get (getDict_some.mp h)

theorem readdress_fixed (h : ∀ entries, v ≠ .list entries) : readdress encoded v = v := by
  cases v <;> first | rfl | exact absurd rfl (h _)

theorem rewriteReportedIp_walk (h : encodeIpv4 address = some encoded) : (rewriteReportedIp d address).2 = rewriting encoded d := by
  simp only [rewriteReportedIp, rewriting, h]
  cases hprint : getDict d (text "print") with
  | none => exact (onKey_onDict_none hprint).symm
  | some part =>
      rw [onKey_onDict hprint]
      dsimp only
      cases hnet : getDict part (text "net") with
      | none => rw [onKey_onDict_none hnet, Dict.set_of_get (getDict_some.mp hprint)]
      | some net =>
          rw [onKey_onDict hnet]
          dsimp only
          split
          · next entries hentries =>
              rw [onKey_get hentries, List.map_map]
              rfl
          · next hother =>
              rw [onKey_fixed fun v hv => readdress_fixed fun entries he => hother entries (he ▸ hv),
                Dict.set_of_get (getDict_some.mp hnet), Dict.set_of_get (getDict_some.mp hprint)]

theorem readdress_isDict (v : Value) : (readdress encoded v).isDict = v.isDict := by
  cases v <;> rfl

theorem onDict_isDict (v : Value) : (onDict F v).isDict = v.isDict := by
  cases v <;> rfl

def Commutes (f : Value → Value) (v : Value) : Prop := ∀ e : Option Value, f (merged e v) = merged (e.map f) (f v)

theorem commutes_scalar (hv : v.isDict = false) (hf : (f v).isDict = false) : Commutes f v := by
  intro e
  rw [merged_of_not_dict hv, merged_of_not_dict hf]

theorem commutes_dict {inner : Document} (hf : ∀ e, (f e).isDict = e.isDict)
    (hbase : ∀ base, f (merged (some (.dict base)) (.dict inner)) = merged (some (f (.dict base))) (f (.dict inner))) :
    Commutes f (.dict inner) := by
  intro e
  by_cases hdict : ∃ base, e = some (.dict base)
  · obtain ⟨base, rfl⟩ := hdict
    exact hbase base
  · have hmapped : ∀ base, e.map f ≠ some (.dict base) := by
      intro base hmap
      obtain ⟨x, rfl, hx⟩ := Option.map_eq_some_iff.mp hmap
      have hxDict : x.isDict = true := by
        rw [← hf x, hx]
        rfl
      obtain ⟨base', rfl⟩ := Value.isDict_iff.mp hxDict
      exact hdict ⟨base', rfl⟩
    rw [merged_fresh fun base hb => hdict ⟨base, hb⟩, merged_fresh hmapped]

theorem onKey_set_ne {x : Value} (h : k ≠ key) : onKey key f (Dict.set base k x) = Dict.set (onKey key f base) k x := by
  cases hget : Dict.get base key with
  | none => rw [onKey_missing hget, onKey_missing ((Dict.get_set_ne h.symm).trans hget)]
  | some v => rw [onKey_get hget, onKey_get ((Dict.get_set_ne h.symm).trans hget), Dict.set_comm hget h]

theorem onKey_set_self {x : Value} : onKey key f (Dict.set base key x) = Dict.set base key (f x) := by
  rw [onKey_get Dict.get_set_self, Dict.set_set]

theorem set_onKey {x : Value} : Dict.set (onKey key f base) key x = Dict.set base key x := by
  cases hget : Dict.get base key with
  | none => rw [onKey_missing hget]
  | some v => rw [onKey_get hget, Dict.set_set]

theorem onKey_deepMerge (hkeys : (delta.map Prod.fst).Nodup) (hf : ∀ v, Dict.get delta key = some v → Commutes f v) :
    onKey key f (deepMerge base delta) = deepMerge (onKey key f base) (onKey key f delta) := by
  induction delta generalizing base with
  | nil => rfl
  | cons p delta ih =>
      obtain ⟨k, v⟩ := p
      rw [List.map_cons, List.nodup_cons] at hkeys
      by_cases hk : k = key
      · subst hk
        have hnone : Dict.get delta k = none := Dict.get_of_not_mem_keys hkeys.1
        have hv : Commutes f v := hf v (by rw [Dict.get_cons, if_pos rfl])
        have hcons : onKey k f ((k, v) :: delta) = (k, f v) :: delta := by
          rw [onKey_get (by rw [Dict.get_cons, if_pos rfl]), Dict.set, if_pos rfl]
        rw [deepMerge, hcons, deepMerge, ih hkeys.2 (by simp [hnone]), onKey_missing hnone, onKey_set_self, set_onKey,
          get_onKey_self, hv]
      · have hcons : onKey key f ((k, v) :: delta) = (k, v) :: onKey key f delta := by
          have hget : Dict.get ((k, v) :: delta) key = Dict.get delta key := by rw [Dict.get_cons, if_neg hk]
          cases hdelta : Dict.get delta key with
          | none => rw [onKey_missing (hget.trans hdelta), onKey_missing hdelta]
          | some w => rw [onKey_get (hget.trans hdelta), onKey_get hdelta, Dict.set, if_neg hk]
        rw [deepMerge, hcons, deepMerge, get_onKey_ne hk, ← onKey_set_ne hk]
        refine ih hkeys.2 fun w hw => hf w ?_
        rw [Dict.get_cons, if_neg hk, hw]

theorem commutes_onDict (hv : ∀ inner, v = .dict inner → ∀ base, F (deepMerge base inner) = deepMerge (F base) (F inner)) :
    Commutes (onDict F) v := by
  cases hdict : v.isDict with
  | false => exact commutes_scalar hdict (by rwa [onDict_isDict])
  | true =>
      obtain ⟨inner, rfl⟩ := Value.isDict_iff.mp hdict
      refine commutes_dict onDict_isDict fun base => ?_
      exact congrArg Value.dict (hv inner rfl base)

theorem commutes_readdress (v : Value) : Commutes (readdress encoded) v := by
  cases hdict : v.isDict with
  | false => exact commutes_scalar hdict (by rwa [readdress_isDict])
  | true =>
      obtain ⟨inner, rfl⟩ := Value.isDict_iff.mp hdict
      exact commutes_dict readdress_isDict fun base => rfl

theorem rewriting_deepMerge (hdelta : Value.Keyed (.dict delta)) (base : Document) :
    rewriting encoded (deepMerge base delta) = deepMerge (rewriting encoded base) (rewriting encoded delta) := by
  refine onKey_deepMerge hdelta.keys fun part hpart => commutes_onDict ?_
  rintro part rfl base
  refine onKey_deepMerge (hdelta.get hpart).keys fun net hnet => commutes_onDict ?_
  rintro net rfl base
  exact onKey_deepMerge ((hdelta.get hpart).get hnet).keys fun info _ => commutes_readdress info

theorem rewriteEntry_missing {entry : Document} (h : Dict.get entry (text "ip") = none) :
    rewriteEntry encoded (.dict entry) = (false, .dict entry) := by
  simp only [rewriteEntry, h]

theorem rewriteEntry_same {entry : Document} (h : Dict.get entry (text "ip") = some v) (heq : v.eqInt encoded = true) :
    rewriteEntry encoded (.dict entry) = (false, .dict entry) := by
  simp only [rewriteEntry, h, heq, if_true]

theorem rewriteEntry_other {entry : Document} (h : Dict.get entry (text "ip") = some v) (heq : v.eqInt encoded = false) :
    rewriteEntry encoded (.dict entry) = (true, .dict (Dict.set entry (text "ip") (.int encoded))) := by
  simp only [rewriteEntry, h, heq, Bool.false_eq_true, if_false]

theorem differs_dict {entry : Document} (h : Dict.get entry (text "ip") = some v) :
    differs encoded (.dict entry) = !v.eqInt encoded := by
  rw [differs, h, Option.any_some]

theorem rewriteEntry_cases (encoded : Int) (entry : Value) :
    differs encoded entry = false ∧ rewriteEntry encoded entry = (false, entry) ∨
      differs encoded entry = true ∧ ∃ entry', rewriteEntry encoded entry = (true, entry') ∧ differs encoded entry' = false := by
  cases entry with
  | dict entry =>
      cases hip : Dict.get entry (text "ip") with
      | none => exact .inl ⟨by rw [differs, hip, Option.any_none], rewriteEntry_missing hip⟩
      | some ip =>
          cases heq : ip.eqInt encoded with
          | true => exact .inl ⟨by rw [differs_dict hip, heq, Bool.not_true], rewriteEntry_same hip heq⟩
          | false =>
              refine .inr ⟨by rw [differs_dict hip, heq, Bool.not_false], _, rewriteEntry_other hip heq, ?_⟩
              rw [differs_dict Dict.get_set_self, Value.eqInt, beq_self_eq_true, Bool.not_true]
  | _ => exact .inl ⟨rfl, rfl⟩

theorem rewriteEntry_differs (encoded : Int) (entry : Value) : (rewriteEntry encoded entry).1 = differs encoded entry := by
  rcases rewriteEntry_cases encoded entry with ⟨hdiffers, hentry⟩ | ⟨hdiffers, entry', hentry, _⟩
  · rw [hentry, hdiffers]
  · rw [hentry, hdiffers]

theorem rewritten_agrees (encoded : Int) (entry : Value) : differs encoded (rewriteEntry encoded entry).2 = false := by
  rcases rewriteEntry_cases encoded entry with ⟨hdiffers, hentry⟩ | ⟨_, entry', hentry, hagrees⟩
  · rw [hentry, hdiffers]
  · rw [hentry, hagrees]

theorem rewriteEntry_again (encoded : Int) (entry : Value) :
    (rewriteEntry encoded (rewriteEntry encoded entry).2).2 = (rewriteEntry encoded entry).2 := by
  rcases rewriteEntry_cases encoded (rewriteEntry encoded entry).2 with ⟨_, hentry⟩ | ⟨hdiffers, _⟩
  · rw [hentry]
  · rw [rewritten_agrees] at hdiffers
    cases hdiffers

theorem readdress_again (v : Value) : readdress encoded (readdress encoded v) = readdress encoded v := by
  cases v with
  | list entries =>
      simp only [readdress, List.map_map, Value.list.injEq]
      exact List.map_congr_left fun entry _ => rewriteEntry_again encoded entry
  | _ => rfl

theorem onDict_again (h : ∀ d, F (F d) = F d) (v : Value) : onDict F (onDict F v) = onDict F v := by
  cases v with
  | dict d => exact congrArg Value.dict (h d)
  | _ => rfl

theorem onKey_again (h : ∀ v, f (f v) = f v) (d : Document) : onKey key f (onKey key f d) = onKey key f d := by
  refine onKey_fixed fun v hv => ?_
  rw [get_onKey_self] at hv
  obtain ⟨w, _, rfl⟩ := Option.map_eq_some_iff.mp hv
  exact h w

theorem rewriting_again (d : Document) : rewriting encoded (rewriting encoded d) = rewriting encoded d :=
  onKey_again (onDict_again (onKey_again (onDict_again (onKey_again readdress_again)))) d

theorem lookup_onKey {path : List Text} {g : Value → Value} (h : ∀ v, (f v).lookup path = (v.lookup path).map g) (d : Document) :
    (Value.dict (onKey key f d)).lookup (key :: path) = ((Value.dict d).lookup (key :: path)).map g := by
  have hself : Dict.get (onKey key f d) key = (Dict.get d key).map f := get_onKey_self
  cases hget : Dict.get d key with
  | none =>
      rw [hget, Option.map_none] at hself
      rw [Value.lookup_missing hself, Value.lookup_missing hget, Option.map_none]
  | some v =>
      rw [hget, Option.map_some] at hself
      rw [Value.lookup_get hself, Value.lookup_get hget, h]

theorem lookup_onDict {path : List Text} {g : Value → Value}
    (h : ∀ d, (Value.dict (F d)).lookup (key :: path) = ((Value.dict d).lookup (key :: path)).map g) (v : Value) :
    (onDict F v).lookup (key :: path) = (v.lookup (key :: path)).map g := by
  cases hdict : v.isDict with
  | false => rw [onDict_fixed hdict, Value.lookup_below hdict, Option.map_none]
  | true =>
      obtain ⟨inner, rfl⟩ := Value.isDict_iff.mp hdict
      exact h inner

theorem lookup_rewriting (d : Document) : (Value.dict (rewriting encoded d)).lookup infoPath =
    ((Value.dict d).lookup infoPath).map (readdress encoded) :=
  lookup_onKey (lookup_onDict (lookup_onKey (lookup_onDict (lookup_onKey fun v => by
    rw [Value.lookup_nil, Value.lookup_nil, Option.map_some])))) d

theorem differing_rewriting (d : Document) : differing encoded (rewriting encoded d) = 0 := by
  unfold differing
  rw [lookup_rewriting]
  cases (Value.dict d).lookup infoPath with
  | none => rfl
  | some v =>
      cases v with
      | list entries =>
          simp only [Option.map_some, readdress, List.countP_map, List.countP_eq_zero]
          intro entry _
          simp [rewritten_agrees]
      | _ => rfl

theorem lookup_getDict {inner : Document} {path : List Text} (h : getDict d key = some inner) :
    (Value.dict d).lookup (key :: path) = (Value.dict inner).lookup path :=
  Value.lookup_get (getDict_some.mp h)

theorem lookup_getDict_none {path : List Text} (h : getDict d key = none) : (Value.dict d).lookup (key :: k :: path) = none := by
  cases hget : Dict.get d key with
  | none => exact Value.lookup_missing hget
  | some v => rw [Value.lookup_get hget, Value.lookup_below (getDict_none h v hget)]

theorem rewriteReportedIp_counts (h : encodeIpv4 address = some encoded) (d : Document) :
    (rewriteReportedIp d address).1 = differing encoded d := by
  simp only [rewriteReportedIp, differing, infoPath, h]
  cases hprint : getDict d (text "print") with
  | none => rw [lookup_getDict_none hprint]
  | some part =>
      rw [lookup_getDict hprint]
      dsimp only
      cases hnet : getDict part (text "net") with
      | none => rw [lookup_getDict_none hnet]
      | some net =>
          rw [lookup_getDict hnet]
          dsimp only
          cases hinfo : Dict.get net (text "info") with
          | none => rw [Value.lookup_missing hinfo]
          | some v =>
              rw [Value.lookup_get hinfo, Value.lookup_nil]
              cases v with
              | list entries =>
                  simp only [List.countP_map]
                  exact List.countP_congr fun entry _ => by rw [Function.comp_apply, rewriteEntry_differs]
              | _ => rfl

structure AddressRewriting (address : String) (encoded : Int) : Prop where
  merging : ∀ base delta, Value.Keyed (.dict delta) → (rewriteReportedIp (deepMerge base delta) address).2 =
    deepMerge (rewriteReportedIp base address).2 (rewriteReportedIp delta address).2
  changed : ∀ d, Readdressed encoded d (rewriteReportedIp d address).2
  counted : ∀ d, (rewriteReportedIp d address).1 = differing encoded d
  again : ∀ d, rewriteReportedIp (rewriteReportedIp d address).2 address = (0, (rewriteReportedIp d address).2)

theorem address_rewriting (h : IpAddress.isIpv4 address = true) :
    ∃ encoded, encodeIpv4 address = some encoded ∧ AddressRewriting address encoded := by
  obtain ⟨octets, hoctets⟩ := Option.isSome_iff_exists.mp h
  obtain ⟨encoded, hencoded⟩ : ∃ encoded, encodeIpv4 address = some encoded := ⟨_, by rw [encodeIpv4, hoctets, Option.map_some]⟩
  refine ⟨encoded, hencoded, fun base delta hdelta => ?_, fun d => rewriteReportedIp_readdressed hencoded,
    rewriteReportedIp_counts hencoded, fun d => ?_⟩
  · rw [rewriteReportedIp_walk hencoded, rewriteReportedIp_walk hencoded, rewriteReportedIp_walk hencoded]
    exact rewriting_deepMerge hdelta base
  · refine Prod.ext ?_ ?_
    · rw [rewriteReportedIp_counts hencoded, rewriteReportedIp_walk hencoded, differing_rewriting]
    · rw [rewriteReportedIp_walk hencoded, rewriteReportedIp_walk hencoded, rewriting_again]

theorem address_rewriting_network :
    ∃ encoded, encodeIpv4 "192.168.1.18" = some encoded ∧ AddressRewriting "192.168.1.18" encoded :=
  address_rewriting (by decide +kernel)

end

end PandaProxy.Mqtt
