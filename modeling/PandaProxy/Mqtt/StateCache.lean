import PandaProxy.Json.Value
import PandaProxy.Python.Bytes
import PandaProxy.Python.IpAddress

namespace PandaProxy.Mqtt

open Json Python

def maxCacheablePayload : Nat := 1000000

mutual

def deepMerge (base : Document) : List (Text × Value) → Document
  | [] => base
  | (key, value) :: delta => deepMerge (Dict.set base key (merged (Dict.get base key) value)) delta

def merged (existing : Option Value) : Value → Value
  | .dict delta =>
      match existing with
      | some (.dict base) => .dict (deepMerge base delta)
      | _ => .dict delta
  | value => value

end

mutual

-- How many calls of `deep_merge` are open at a time.
def mergeFrames (base : Document) : List (Text × Value) → Nat
  | [] => 1
  | (key, value) :: delta =>
      max (mergedFrames (Dict.get base key) value) (mergeFrames (Dict.set base key (merged (Dict.get base key) value)) delta)

def mergedFrames (existing : Option Value) : Value → Nat
  | .dict delta =>
      match existing with
      | some (.dict base) => 1 + mergeFrames base delta
      | _ => 1
  | _ => 1

end

def mergeItems (inner : Document → Document → Bool × Document) (base : Document) : List (Text × Value) → Bool × Document
  | [] => (true, base)
  | (key, value) :: delta =>
      match value, Dict.get base key with
      | .dict value, some (.dict existing) =>
          match inner existing value with
          | (true, existing) => mergeItems inner (Dict.set base key (.dict existing)) delta
          | (false, existing) => (false, Dict.set base key (.dict existing))
      | _, _ => mergeItems inner (Dict.set base key value) delta

-- `deep_merge` where `frames` calls are left: whether it returns, and what `base` is then. What was
-- merged before the `RecursionError` stays.
def deepMergeWithin : Nat → Document → Document → Bool × Document
  | 0, base, _ => (false, base)
  | frames + 1, base, delta => mergeItems (deepMergeWithin frames) base delta

-- `mapped` gives the IPv4 address that an IPv6 literal maps to.
def asIpv4 (mapped : String → Option String) (address : String) : Option String :=
  if IpAddress.isIpv4 address then some address else mapped address

-- `none` is the `ValueError`.
def encodeIpv4 (address : String) : Option Int :=
  (IpAddress.ipv4 address).map fun octets => octets.foldr (fun (octet : Nat) (n : Int) => octet + 256 * n) 0

-- Whether the entry changed, and what it is then.
def rewriteEntry (encoded : Int) : Value → Bool × Value
  | .dict entry =>
      match Dict.get entry (text "ip") with
      | some ip => if ip.eqInt encoded then (false, .dict entry) else (true, .dict (Dict.set entry (text "ip") (.int encoded)))
      | none => (false, .dict entry)
  | entry => (false, entry)

-- `none` for what is no `dict` that has `key`.
def getDict (d : Document) (key : Text) : Option Document := (Dict.get d key).bind Value.dict?

def rewriteReportedIp (state : Document) (address : String) : Nat × Document :=
  match getDict state (text "print") with
  | none => (0, state)
  | some part =>
      match getDict part (text "net") with
      | none => (0, state)
      | some net =>
          match Dict.get net (text "info") with
          | some (.list entries) =>
              match encodeIpv4 address with
              | none => (0, state)
              | some encoded =>
                  let rewritten := entries.map (rewriteEntry encoded)
                  let net := Dict.set net (text "info") (.list (rewritten.map Prod.snd))
                  (rewritten.countP Prod.fst,
                    Dict.set state (text "print") (.dict (Dict.set part (text "net") (.dict net))))
          | _ => (0, state)

def payloadReportsIp (payload : List UInt8) : Bool :=
  payload.tails.any fun rest => (Utf8.encode "\"net\"").isPrefixOf rest

def metadataFields : List Text :=
  ["command", "result", "reason", "sequence_id", "msg", "errno", "code", "param"].map text

-- `isinstance(section, dict) and section.get("msg") == 0`
def marksFullState (part : Value) : Bool :=
  match part with
  | .dict body => (Dict.get body (text "msg")).any fun msg => msg.eqInt 0
  | _ => false

def payloadIsFullState (J : Codec) (payload : List UInt8) : Except PayloadError Bool := do
  match ← J.parse payload with
  | some (.dict parsed) => pure (parsed.any fun p => marksFullState p.2)
  | _ => pure false

def reading (J : Codec) (payload : List UInt8) : Document :=
  match J.loads payload with
  | .ok (.dict d) => d
  | _ => []

theorem reading_loads {J : Codec} {payload : List UInt8} {d : Document} (h : J.loads payload = .ok (.dict d)) : reading J payload = d := by
  simp only [reading, h]

theorem reading_cases (J : Codec) (payload : List UInt8) :
    (∃ d, J.loads payload = .ok (.dict d) ∧ reading J payload = d) ∨
      (∀ d, J.loads payload ≠ .ok (.dict d)) ∧ reading J payload = [] := by
  by_cases h : ∃ d, J.loads payload = .ok (.dict d)
  · obtain ⟨d, hd⟩ := h
    exact .inl ⟨d, hd, reading_loads hd⟩
  · refine .inr ⟨fun d hd => h ⟨d, hd⟩, ?_⟩
    unfold reading
    split
    · next d hd => exact absurd ⟨d, hd⟩ h
    · rfl

def isCommandAck (part : Value) : Bool :=
  match part with
  | .dict body => (Dict.get body (text "result")).isSome && body.all fun p => decide (p.1 ∈ metadataFields)
  | _ => false

structure PrinterStateCache where
  state : Document
  updates : Nat

namespace PrinterStateCache

def init : PrinterStateCache := ⟨[], 0⟩

def clear (_ : PrinterStateCache) : PrinterStateCache := ⟨[], 0⟩

def kept (parsed : Document) : Document := parsed.filter fun p => !isCommandAck p.2

-- What `update` returns or raises, and the cache it leaves.
def update (J : Codec) (c : PrinterStateCache) (payload : List UInt8) : Except PayloadError Bool × PrinterStateCache :=
  if payload.isEmpty ∨ payload.length > maxCacheablePayload then (.ok false, c)
  else
    match J.parse payload with
    | .error x => (.error x, c)
    | .ok (some (.dict parsed)) =>
        if (kept parsed).isEmpty then (.ok false, c)
        else
          match deepMergeWithin (J.frames .update) c.state (kept parsed) with
          | (true, state) => (.ok true, ⟨state, c.updates + 1⟩)
          | (false, state) => (.error .recursionError, ⟨state, c.updates⟩)
    | .ok _ => (.ok false, c)

structure Cacheable (J : Codec) (payload : List UInt8) (parsed : Document) : Prop where
  nonempty : payload ≠ []
  fits : payload.length ≤ maxCacheablePayload
  loads : J.loads payload = .ok (.dict parsed)

theorem Cacheable.unique {J : Codec} {payload : List UInt8} {parsed parsed' : Document} (h : Cacheable J payload parsed)
    (h' : Cacheable J payload parsed') : parsed = parsed' := by
  have heq := h.loads.symm.trans h'.loads
  cases heq
  rfl

def replayed (part : Value) : Value :=
  match part with
  | .dict body =>
      let body := [text "sequence_id", text "result", text "reason"].foldl Dict.pop body
      .dict (if (Dict.get body (text "msg")).isSome then Dict.set body (text "msg") (.int 0) else body)
  | part => part

def snapshotState (c : PrinterStateCache) (advertiseIp : Option String) (name : Option Text) : Option Document :=
  if c.state.isEmpty then none
  else do
    let state ← match name with
      | some name => (Dict.get c.state name).map fun part => [(name, part)]
      | none => some c.state
    let state := state.map fun p => (p.1, replayed p.2)
    match advertiseIp with
    | some address => some (if address = "" then state else (rewriteReportedIp state address).2)
    | none => some state

-- How many calls `copy.deepcopy` has open for it.
def snapshotFrames (c : PrinterStateCache) (name : Option Text) : Nat :=
  match name with
  | some name => ((Dict.get c.state name).map Value.copyFrames).getD 0
  | none => Value.copyFrames (.dict c.state)

def snapshot (J : Codec) (c : PrinterStateCache) (advertiseIp : Option String) (name : Option Text) :
    Except PayloadError (Option (List UInt8)) :=
  match c.snapshotState advertiseIp name with
  | none => .ok none
  | some state =>
      if c.snapshotFrames name ≤ J.frames .snapshot then .ok (some (J.dumps (.dict state))) else .error .recursionError

def snapshots (J : Codec) (c : PrinterStateCache) (advertiseIp : Option String) : Except PayloadError (List (List UInt8)) := do
  let payloads ← c.state.mapM fun p => c.snapshot J advertiseIp (some p.1)
  pure (payloads.filterMap id)

end PrinterStateCache

section

variable {good : Text → Prop} {base delta : Document} {key : Text} {n : Nat}

theorem get_deepMerge (hkeys : (delta.map Prod.fst).Nodup) :
    Dict.get (deepMerge base delta) key =
      match Dict.get delta key with
      | some value => some (merged (Dict.get base key) value)
      | none => Dict.get base key := by
  induction delta generalizing base with
  | nil => rfl
  | cons p delta ih =>
      obtain ⟨key', value⟩ := p
      rw [List.map_cons, List.nodup_cons] at hkeys
      rw [deepMerge, ih hkeys.2, Dict.get_cons]
      by_cases hk : key' = key
      · subst hk
        have hnone : Dict.get delta key' = none := Dict.get_of_not_mem_keys hkeys.1
        simp only [hnone, if_true, Dict.get_set_self]
      · rw [if_neg hk, Dict.get_set_ne (Ne.symm hk)]

theorem merged_of_not_dict {existing : Option Value} {value : Value} (h : value.isDict = false) :
    merged existing value = value := by
  cases value <;> first | rfl | cases h

theorem merged_fresh {existing : Option Value} {value : Value} (h : ∀ d, existing ≠ some (.dict d)) :
    merged existing value = value := by
  cases value with
  | dict delta =>
      simp only [merged]
  | _ => rfl

theorem wellFormed_deepMerge (hbase : Value.WellFormed good n (.dict base)) (hdelta : Value.WellFormed good n (.dict delta)) :
    Value.WellFormed good n (.dict (deepMerge base delta)) := by
  induction n generalizing base delta with
  | zero => cases hdelta
  | succ n ih =>
      cases hbase with
      | dict hbaseKeys hbaseGood hbaseValues =>
          cases hdelta with
          | dict hkeys hgood hvalues =>
              induction delta generalizing base with
              | nil => exact .dict hbaseKeys hbaseGood hbaseValues
              | cons p delta ih' =>
                  obtain ⟨key, value⟩ := p
                  rw [List.map_cons, List.nodup_cons] at hkeys
                  have hvalue := hvalues _ List.mem_cons_self
                  have hmerged : Value.WellFormed good n (merged (Dict.get base key) value) := by
                    cases value with
                    | dict inner =>
                        simp only [merged]
                        split
                        · next b hb => exact ih (hbaseValues _ (Dict.mem_of_get hb)) hvalue
                        · exact hvalue
                    | _ => exact hvalue
                  refine ih' ?_ ?_ ?_ hkeys.2 (fun p hp => hgood p (List.mem_cons_of_mem _ hp))
                    (fun p hp => hvalues p (List.mem_cons_of_mem _ hp))
                  · exact Dict.keys_set_nodup hbaseKeys
                  · intro p hp
                    rcases Dict.mem_set hp with rfl | hp
                    · exact hgood (key, value) List.mem_cons_self
                    · exact hbaseGood p hp
                  · intro p hp
                    rcases Dict.mem_set hp with rfl | hp
                    · exact hmerged
                    · exact hbaseValues p hp

-- What of `delta` is merged when the calls run out.
inductive Cut : Document → Document → Prop where
  | nil {delta : Document} : Cut [] delta
  | inner {key : Text} {inner inner' delta : Document} (h : Cut inner' inner) :
      Cut [(key, .dict inner')] ((key, .dict inner) :: delta)
  | cons {p : Text × Value} {delta delta' : Document} (h : Cut delta' delta) : Cut (p :: delta') (p :: delta)

theorem Cut.refl (delta : Document) : Cut delta delta := by
  induction delta with
  | nil => exact .nil
  | cons p delta ih => exact ih.cons

theorem Cut.wellFormed {delta' : Document} (hcut : Cut delta' delta) (h : Value.WellFormed good n (.dict delta)) :
    Value.WellFormed good n (.dict delta') := by
  have hkeys : ∀ {d d' : Document}, Cut d' d → (d'.map Prod.fst).Sublist (d.map Prod.fst) := by
    intro d d' hcut
    induction hcut with
    | nil => exact List.nil_sublist _
    | inner _ _ => exact (List.nil_sublist _).cons_cons _
    | cons _ ih => exact ih.cons_cons _
  cases h with
  | @dict n _ hnodup hgood hvalues =>
      suffices hall : ∀ p ∈ delta', good p.1 ∧ Value.WellFormed good n p.2 from
        .dict (hnodup.sublist (hkeys hcut)) (fun p hp => (hall p hp).1) fun p hp => (hall p hp).2
      clear hnodup
      induction hcut generalizing n with
      | nil => nofun
      | @inner key inner inner' delta hcut ih =>
          intro p hp
          cases List.mem_singleton.mp hp
          refine ⟨hgood (key, .dict inner) List.mem_cons_self, ?_⟩
          have hinner := hvalues (key, .dict inner) List.mem_cons_self
          cases hinner with
          | dict hnodup hgood hvalues =>
              have hall := ih hgood hvalues
              exact .dict (hnodup.sublist (hkeys hcut)) (fun p hp => (hall p hp).1) fun p hp => (hall p hp).2
      | cons _ ih =>
          intro p hp
          rcases List.mem_cons.mp hp with rfl | hp
          · exact ⟨hgood _ List.mem_cons_self, hvalues _ List.mem_cons_self⟩
          · exact ih (fun p hp => hgood p (List.mem_cons_of_mem _ hp)) (fun p hp => hvalues p (List.mem_cons_of_mem _ hp)) p hp

theorem mergeFrames_pos (base delta : Document) : 0 < mergeFrames base delta := by
  induction delta generalizing base with
  | nil => exact Nat.one_pos
  | cons p delta ih => exact Nat.lt_of_lt_of_le (ih _) (Nat.le_max_right _ _)

theorem mergeItems_objects {f : Document → Document → Bool × Document} {inner existing : Document}
    (h : Dict.get base key = some (.dict existing)) : mergeItems f base ((key, .dict inner) :: delta) =
      match f existing inner with
      | (true, existing) => mergeItems f (Dict.set base key (.dict existing)) delta
      | (false, existing) => (false, Dict.set base key (.dict existing)) := by
  simp only [mergeItems, h]

theorem mergeItems_set {f : Document → Document → Bool × Document} {value : Value}
    (h : ∀ inner existing, value = .dict inner → Dict.get base key ≠ some (.dict existing)) :
    mergeItems f base ((key, value) :: delta) = mergeItems f (Dict.set base key value) delta := by
  rw [mergeItems]
  exact h

-- `deep_merge` returns if as many calls are left as it needs, and merges a part otherwise.
theorem deepMergeWithin_cases (n : Nat) (base delta : Document) :
    mergeFrames base delta ≤ n ∧ deepMergeWithin n base delta = (true, deepMerge base delta) ∨
      n < mergeFrames base delta ∧ ∃ cut, Cut cut delta ∧ deepMergeWithin n base delta = (false, deepMerge base cut) := by
  induction n generalizing base delta with
  | zero => exact .inr ⟨mergeFrames_pos base delta, [], .nil, rfl⟩
  | succ n ih =>
      rw [deepMergeWithin]
      induction delta generalizing base with
      | nil => exact .inl ⟨Nat.succ_pos n, rfl⟩
      | cons p delta ih' =>
          obtain ⟨key, value⟩ := p
          rw [mergeFrames]
          have hrest := ih' (Dict.set base key (merged (Dict.get base key) value))
          have hpos := mergeFrames_pos (Dict.set base key (merged (Dict.get base key) value)) delta
          by_cases hobjects : ∃ inner existing, value = .dict inner ∧ Dict.get base key = some (.dict existing)
          · obtain ⟨inner, existing, rfl, hexisting⟩ := hobjects
            have hframes : mergedFrames (some (.dict existing)) (.dict inner) = 1 + mergeFrames existing inner := by
              rw [mergedFrames]
            have hmerged : merged (some (.dict existing)) (.dict inner) = .dict (deepMerge existing inner) := by
              rw [merged]
            rw [hexisting, hmerged] at hrest
            rw [hexisting, hframes, hmerged, mergeItems_objects hexisting]
            rcases ih existing inner with ⟨hle, hinner⟩ | ⟨hlt, cut, hcut, hinner⟩
            · simp only [hinner]
              rcases hrest with ⟨hlerest, hrest⟩ | ⟨hltrest, cut, hcut, hrest⟩
              · refine .inl ⟨by omega, ?_⟩
                rw [hrest, deepMerge, hexisting, hmerged]
              · refine .inr ⟨by omega, (key, .dict inner) :: cut, .cons hcut, ?_⟩
                rw [hrest, deepMerge, hexisting, hmerged]
            · simp only [hinner]
              refine .inr ⟨by omega, [(key, .dict cut)], .inner hcut, ?_⟩
              rw [deepMerge, hexisting, merged]
              rfl
          · have hother : ∀ inner existing, value = .dict inner → Dict.get base key ≠ some (.dict existing) :=
              fun inner existing hvalue hexisting => hobjects ⟨inner, existing, hvalue, hexisting⟩
            have hmerged : merged (Dict.get base key) value = value ∧ mergedFrames (Dict.get base key) value = 1 := by
              cases value with
              | dict inner =>
                  refine ⟨merged_fresh fun existing => hother inner existing rfl, ?_⟩
                  rw [mergedFrames]
                  exact fun existing => hother inner existing rfl
              | _ => exact ⟨rfl, rfl⟩
            rw [hmerged.1] at hrest hpos
            rw [hmerged.1, hmerged.2, mergeItems_set hother]
            rcases hrest with ⟨hlerest, hrest⟩ | ⟨hltrest, cut, hcut, hrest⟩
            · refine .inl ⟨by omega, ?_⟩
              rw [hrest, deepMerge, hmerged.1]
            · refine .inr ⟨by omega, (key, value) :: cut, .cons hcut, ?_⟩
              rw [hrest, deepMerge, hmerged.1]

end

namespace PrinterStateCache

def Mergeable (J : Codec) (c : PrinterStateCache) (parsed : Document) : Prop :=
  mergeFrames c.state (kept parsed) ≤ J.frames .update

instance (J : Codec) (c : PrinterStateCache) (parsed : Document) : Decidable (Mergeable J c parsed) :=
  inferInstanceAs (Decidable (_ ≤ _))

theorem update_cases (J : Codec) (c : PrinterStateCache) (payload : List UInt8) :
    (∃ parsed, Cacheable J payload parsed ∧ kept parsed ≠ [] ∧ Mergeable J c parsed ∧
        c.update J payload = (.ok true, ⟨deepMerge c.state (kept parsed), c.updates + 1⟩)) ∨
      (∃ parsed, Cacheable J payload parsed ∧ kept parsed ≠ [] ∧ ¬ Mergeable J c parsed ∧
        ∃ cut, Cut cut (kept parsed) ∧ c.update J payload = (.error .recursionError, ⟨deepMerge c.state cut, c.updates⟩)) ∨
      (∀ parsed, Cacheable J payload parsed → kept parsed = []) ∧ ∃ r, c.update J payload = (r, c) ∧ r ≠ .ok true := by
  unfold update
  split
  · next hskip =>
      refine .inr (.inr ⟨fun parsed hcacheable => ?_, _, rfl, nofun⟩)
      rcases hskip with hempty | hlong
      · exact absurd (List.isEmpty_iff.mp hempty) hcacheable.nonempty
      · exact absurd hcacheable.fits (Nat.not_le.mpr hlong)
  · next hkeep =>
      rw [not_or, List.isEmpty_iff, Nat.not_lt] at hkeep
      have hnone : (∀ parsed, J.parse payload ≠ .ok (some (.dict parsed))) →
          ∀ parsed, Cacheable J payload parsed → kept parsed = [] :=
        fun hother parsed hcacheable => absurd (Codec.parse_dict.mpr hcacheable.loads) (hother parsed)
      split
      · next x hx => exact .inr (.inr ⟨hnone (by simp [hx]), _, rfl, nofun⟩)
      · next parsed hparsed =>
          have hcacheable : Cacheable J payload parsed := ⟨hkeep.1, hkeep.2, Codec.parse_dict.mp hparsed⟩
          split
          · next hempty =>
              exact .inr (.inr ⟨fun parsed' h' => h'.unique hcacheable ▸ List.isEmpty_iff.mp hempty, _, rfl, nofun⟩)
          · next hne =>
              have hne : kept parsed ≠ [] := fun he => hne (List.isEmpty_iff.mpr he)
              rcases deepMergeWithin_cases (J.frames .update) c.state (kept parsed) with ⟨hle, h⟩ | ⟨hlt, cut, hcut, h⟩
              · exact .inl ⟨parsed, hcacheable, hne, hle, by rw [h]⟩
              · exact .inr (.inl ⟨parsed, hcacheable, hne, Nat.not_le.mpr hlt, cut, hcut, by rw [h]⟩)
      · next v hv hother =>
          refine .inr (.inr ⟨hnone fun parsed h => ?_, _, rfl, nofun⟩)
          exact hv parsed (Except.ok.inj (hother.symm.trans h))

end PrinterStateCache

def infoPath : List Text := [text "print", text "net", text "info"]

def readdress (encoded : Int) : Value → Value
  | .list entries => .list (entries.map fun entry => (rewriteEntry encoded entry).2)
  | v => v

def readdressed (encoded : Int) (path : List Text) (v : Value) : Value :=
  if path = infoPath then readdress encoded v else v

section

variable {state : Document} {address : String} {encoded : Int} {n : Nat}

theorem getDict_some {d inner : Document} {key : Text} : getDict d key = some inner ↔ Dict.get d key = some (.dict inner) := by
  simp only [getDict]
  cases Dict.get d key with
  | none => simp
  | some v => cases v <;> simp [Value.dict?]

theorem tree_set {d : Document} {key k : Text} {v : Value} {path : List Text} :
    (Value.dict (Dict.set d key v)).tree (k :: path) = if k = key then v.tree path else (Value.dict d).tree (k :: path) := by
  rw [Value.tree_cons]
  by_cases hk : k = key
  · subst hk
    rw [if_pos rfl, Dict.get_set_self]
  · rw [if_neg hk, Dict.get_set_ne hk, Value.tree_cons]

theorem tree_under {d inner : Document} {key : Text} {path : List Text} (h : getDict d key = some inner) :
    (Value.dict d).tree (key :: path) = (Value.dict inner).tree path :=
  Value.tree_get (getDict_some.mp h)

theorem not_list_under {d : Document} {key k : Text} {path : List Text} {entries : List Value}
    (h : getDict d key = none) : (Value.dict d).tree (key :: k :: path) ≠ .leaf (.list entries) := by
  rw [Value.tree_cons]
  cases hg : Dict.get d key with
  | none => nofun
  | some v =>
      cases v with
      | dict inner => exact absurd (getDict_some.mpr hg) (by simp [h])
      | _ => nofun

theorem mapLeaves_readdressed_id {d : Tree Text Value} (h : ∀ entries, d infoPath ≠ .leaf (.list entries)) :
    Tree.mapLeaves (readdressed encoded) d = d := by
  funext path
  cases hd : d path with
  | leaf v =>
      rw [Tree.mapLeaves_leaf hd, readdressed]
      split
      · next hp =>
          cases v with
          | list entries => exact absurd (hp ▸ hd) (h entries)
          | _ => rfl
      · rfl
  | absent => simp only [Tree.mapLeaves, hd]
  | branch => simp only [Tree.mapLeaves, hd]

theorem mapLeaves_readdressed_ne {d : Tree Text Value} {path : List Text} (h : path ≠ infoPath) :
    Tree.mapLeaves (readdressed encoded) d path = d path := by
  cases hd : d path with
  | leaf v => rw [Tree.mapLeaves_leaf hd, readdressed, if_neg h]
  | absent => simp only [Tree.mapLeaves, hd]
  | branch => simp only [Tree.mapLeaves, hd]

theorem tree_set_under {d inner inner' : Document} {key : Text} {path : List Text} (h : getDict d key = some inner)
    (hpath : ∀ p, path = key :: p → (Value.dict inner').tree p = (Value.dict inner).tree p) :
    (Value.dict (Dict.set d key (.dict inner'))).tree path = (Value.dict d).tree path := by
  cases path with
  | nil => rfl
  | cons k path =>
      rw [tree_set]
      split
      · next hk =>
          subst hk
          rw [tree_under h]
          exact hpath path rfl
      · rfl

theorem tree_set_scalar {d : Document} {key : Text} {path : List Text} {v w : Value} (h : Dict.get d key = some v)
    (hv : v.isDict = false) (hw : w.isDict = false) (hpath : path ≠ [key]) :
    (Value.dict (Dict.set d key w)).tree path = (Value.dict d).tree path := by
  cases path with
  | nil => rfl
  | cons k path =>
      rw [tree_set]
      split
      · next hk =>
          subst hk
          cases path with
          | nil => exact absurd rfl hpath
          | cons k' path => rw [Value.tree_below hw, Value.tree_get h, Value.tree_below hv]
      · rfl

theorem tree_rewriteReportedIp (state : Document) (h : encodeIpv4 address = some encoded) :
    (Value.dict (rewriteReportedIp state address).2).tree =
      Tree.mapLeaves (readdressed encoded) (Value.dict state).tree := by
  simp only [rewriteReportedIp, h]
  cases hprint : getDict state (text "print") with
  | none => exact (mapLeaves_readdressed_id fun _ => not_list_under hprint).symm
  | some part =>
      dsimp only
      cases hnet : getDict part (text "net") with
      | none =>
          refine (mapLeaves_readdressed_id fun entries => ?_).symm
          rw [infoPath, tree_under hprint]
          exact not_list_under hnet
      | some net =>
          have hinfo : (Value.dict state).tree infoPath = (Value.dict net).tree [text "info"] := by
            rw [infoPath, tree_under hprint, tree_under hnet]
          dsimp only
          split
          · next entries hentries =>
              funext path
              by_cases hpath : path = infoPath
              · subst hpath
                have hleaf := hinfo.trans (Value.tree_get hentries)
                rw [Tree.mapLeaves_leaf hleaf, readdressed, if_pos rfl, infoPath]
                simp only [tree_set, if_true, readdress, List.map_map]
                rfl
              · rw [mapLeaves_readdressed_ne hpath]
                refine tree_set_under hprint ?_
                rintro p rfl
                refine tree_set_under hnet ?_
                rintro p rfl
                refine tree_set_scalar hentries rfl rfl ?_
                rintro rfl
                exact hpath rfl
          · next hother =>
              refine (mapLeaves_readdressed_id fun entries => ?_).symm
              rw [hinfo, Value.tree_cons]
              cases hg : Dict.get net (text "info") with
              | none => rintro ⟨⟩
              | some v =>
                  cases v with
                  | list items => exact absurd hg (hother items)
                  | _ => rintro ⟨⟩

end

section

variable {good : Text → Prop} {d : Document} {key : Text} {v w : Value} {n : Nat}

theorem WellFormed.dict_inv (h : Value.WellFormed good n (.dict d)) :
    ∃ m, n = m + 1 ∧ (d.map Prod.fst).Nodup ∧ (∀ p ∈ d, good p.1) ∧ ∀ p ∈ d, Value.WellFormed good m p.2 := by
  cases h with
  | dict hkeys hgood hvalues => exact ⟨_, rfl, hkeys, hgood, hvalues⟩

theorem WellFormed.get (h : Value.WellFormed good (n + 1) (.dict d)) (hg : Dict.get d key = some v) : Value.WellFormed good n v := by
  obtain ⟨m, hm, _, _, hvalues⟩ := WellFormed.dict_inv h
  cases hm
  exact hvalues _ (Dict.mem_of_get hg)

theorem WellFormed.set (h : Value.WellFormed good (n + 1) (.dict d)) (hg : Dict.get d key = some w)
    (hv : Value.WellFormed good n v) : Value.WellFormed good (n + 1) (.dict (Dict.set d key v)) := by
  obtain ⟨m, hm, hkeys, hgood, hvalues⟩ := WellFormed.dict_inv h
  cases hm
  refine .dict (Dict.keys_set_nodup hkeys) (fun p hp => ?_) fun p hp => ?_
  · rcases Dict.mem_set hp with rfl | hp
    · exact hgood (key, w) (Dict.mem_of_get hg)
    · exact hgood p hp
  · rcases Dict.mem_set hp with rfl | hp
    · exact hv
    · exact hvalues p hp

theorem WellFormed.pop (h : Value.WellFormed good n (.dict d)) : Value.WellFormed good n (.dict (Dict.pop d key)) := by
  obtain ⟨m, rfl, hkeys, hgood, hvalues⟩ := WellFormed.dict_inv h
  exact .dict (Dict.keys_pop_nodup hkeys) (fun p hp => hgood p (Dict.mem_pop.mp hp).1) fun p hp => hvalues p (Dict.mem_pop.mp hp).1

theorem octet_le {s : String} {k : Nat} (h : IpAddress.octet s = some k) : k ≤ 255 := by
  unfold IpAddress.octet at h
  dsimp only at h
  split at h
  · cases h
  · split at h
    · cases h
    · split at h
      · cases h
      · cases h
        omega

theorem octets_bounded {parts : List String} {octets : List Nat} (h : parts.mapM IpAddress.octet = some octets) :
    octets.length = parts.length ∧ ∀ k ∈ octets, k ≤ 255 := by
  induction parts generalizing octets with
  | nil =>
      cases h
      exact ⟨rfl, nofun⟩
  | cons part parts ih =>
      rw [List.mapM_cons] at h
      obtain ⟨k, hk, h⟩ := Option.bind_eq_some_iff.mp h
      obtain ⟨rest, hrest, h⟩ := Option.bind_eq_some_iff.mp h
      cases h
      obtain ⟨hlength, hbound⟩ := ih hrest
      refine ⟨by simp [hlength], fun j hj => ?_⟩
      rcases List.mem_cons.mp hj with rfl | hj
      · exact octet_le hk
      · exact hbound j hj

theorem littleEndian_bounded {octets : List Nat} (h : ∀ k ∈ octets, k ≤ 255) :
    0 ≤ octets.foldr (fun (octet : Nat) (n : Int) => octet + 256 * n) 0 ∧
      octets.foldr (fun (octet : Nat) (n : Int) => octet + 256 * n) 0 < 256 ^ octets.length := by
  induction octets with
  | nil => exact ⟨Int.le_refl 0, by decide⟩
  | cons k octets ih =>
      obtain ⟨hlow, hhigh⟩ := ih fun j hj => h j (List.mem_cons_of_mem _ hj)
      have hk := h k List.mem_cons_self
      rw [List.foldr_cons, List.length_cons, Int.pow_succ]
      constructor <;> omega

theorem encodeIpv4_bounded {address : String} {encoded : Int} (h : encodeIpv4 address = some encoded) :
    0 ≤ encoded ∧ encoded < 2 ^ 32 := by
  obtain ⟨octets, hoctets, rfl⟩ := Option.map_eq_some_iff.mp h
  unfold IpAddress.ipv4 at hoctets
  dsimp only at hoctets
  split at hoctets
  · next hlength =>
      obtain ⟨hcount, hbound⟩ := octets_bounded hoctets
      have hvalue := littleEndian_bounded hbound
      rw [hcount, hlength] at hvalue
      exact hvalue
  · cases hoctets

theorem convertible_of_lt {k : Int} (hlow : 0 ≤ k) (hhigh : k < 2 ^ 32) : Convertible k := by
  have hlimit : 10 ^ 10 ≤ 10 ^ digitLimit := Nat.pow_le_pow_right (by decide) (by unfold digitLimit; decide)
  unfold Convertible
  omega

theorem wellFormed_rewriteEntry {encoded : Int} (henc : Convertible encoded) (h : Value.WellFormed good n v) :
    Value.WellFormed good n (rewriteEntry encoded v).2 := by
  cases v with
  | dict entry =>
      unfold rewriteEntry
      dsimp only
      split
      · next ip hip =>
          split
          · exact h
          · obtain ⟨m, rfl, _⟩ := WellFormed.dict_inv h
            exact WellFormed.set h hip (.int henc)
      · exact h
  | _ => exact h

theorem wellFormed_rewriteReportedIp (address : String) (h : Value.WellFormed good n (.dict d)) :
    Value.WellFormed good n (.dict (rewriteReportedIp d address).2) := by
  unfold rewriteReportedIp
  split
  · exact h
  · next part hprint =>
      obtain ⟨n, rfl, _⟩ := WellFormed.dict_inv h
      have hpart := WellFormed.get h (getDict_some.mp hprint)
      split
      · exact h
      · next net hnet =>
          obtain ⟨n, rfl, _⟩ := WellFormed.dict_inv hpart
          have hnetWell := WellFormed.get hpart (getDict_some.mp hnet)
          split
          · next entries hentries =>
              obtain ⟨n, rfl, _⟩ := WellFormed.dict_inv hnetWell
              have hlist := WellFormed.get hnetWell hentries
              split
              · exact h
              · next encoded henc =>
                  obtain ⟨hlow, hhigh⟩ := encodeIpv4_bounded henc
                  have hconvertible := convertible_of_lt hlow hhigh
                  cases hlist with
                  | list hitems =>
                      refine WellFormed.set h (getDict_some.mp hprint) (WellFormed.set hpart (getDict_some.mp hnet)
                        (WellFormed.set hnetWell hentries (.list ?_)))
                      intro w hw
                      simp only [List.map_map, List.mem_map] at hw
                      obtain ⟨entry, hentry, rfl⟩ := hw
                      exact wellFormed_rewriteEntry hconvertible (hitems entry hentry)
          · exact h

theorem wellFormed_replayed (h : Value.WellFormed good n v) : Value.WellFormed good n (PrinterStateCache.replayed v) := by
  cases v with
  | dict body =>
      have hpopped : Value.WellFormed good n
          (.dict ([text "sequence_id", text "result", text "reason"].foldl Dict.pop body)) :=
        WellFormed.pop (WellFormed.pop (WellFormed.pop h))
      unfold PrinterStateCache.replayed
      dsimp only
      split
      · next hmsg =>
        obtain ⟨m, rfl, _⟩ := WellFormed.dict_inv hpopped
        obtain ⟨msg, hmsg⟩ := Option.isSome_iff_exists.mp hmsg
        exact WellFormed.set hpopped hmsg (.int (convertible_of_lt (by decide) (by decide)))
      · exact hpopped
  | _ => exact h

theorem wellFormed_kept (h : Value.WellFormed good n (.dict d)) : Value.WellFormed good n (.dict (PrinterStateCache.kept d)) := by
  obtain ⟨m, rfl, hkeys, hgood, hvalues⟩ := WellFormed.dict_inv h
  exact .dict (hkeys.sublist (List.filter_sublist.map _)) (fun p hp => hgood p (List.mem_filter.mp hp).1)
    fun p hp => hvalues p (List.mem_filter.mp hp).1

end

end PandaProxy.Mqtt
