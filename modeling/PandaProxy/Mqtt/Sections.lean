import PandaProxy.Mqtt.DeepMerge

namespace PandaProxy.Mqtt

open Json Python

def Sectioned (d : Document) : Prop := ∀ p ∈ d, p.2.isDict = true

structure Tidy (d : Document) : Prop where
  keys : (d.map Prod.fst).Nodup
  sectioned : Sectioned d

def withoutMetadata (part : Value) : Value :=
  match part with
  | .dict body => .dict (body.filter fun p => decide (p.1 ∉ metadataFields))
  | part => part

def isEmptyDict (part : Value) : Bool :=
  match part with
  | .dict [] => true
  | _ => false

-- The metadata fields are deleted from each section, and then the sections that are empty are dropped.
def stripped (d : Document) : Document := (d.map fun p => (p.1, withoutMetadata p.2)).filter fun p => !isEmptyDict p.2

def corePaths : Set (List Text) := {path | ∃ name field rest, path = name :: field :: rest ∧ field ∉ metadataFields}

-- What a document says below its sections, apart from the metadata.
noncomputable def core (d : Document) : Tree Text Value := Tree.within corePaths (Value.dict d).tree

section

variable {d base delta : Document} {name field : Text} {path : List Text} {part v : Value}

theorem mem_corePaths : name :: field :: path ∈ corePaths ↔ field ∉ metadataFields := by
  constructor
  · rintro ⟨_, _, _, he, hfield⟩
    cases he
    exact hfield
  · intro hfield
    exact ⟨name, field, path, rfl, hfield⟩

theorem corePaths_extends (p q : List Text) (hq : q ∈ corePaths) (hbelow : q <+: p) : p ∈ corePaths := by
  obtain ⟨name, field, rest, rfl, hfield⟩ := hq
  obtain ⟨more, rfl⟩ := hbelow
  exact ⟨name, field, rest ++ more, rfl, hfield⟩

theorem core_field (hfield : field ∉ metadataFields) :
    core d (name :: field :: path) = (Value.dict d).tree (name :: field :: path) :=
  Tree.within_of_mem (mem_corePaths.mpr hfield)

theorem core_ext {d' : Document} (h : ∀ name field path, field ∉ metadataFields →
    (Value.dict d).tree (name :: field :: path) = (Value.dict d').tree (name :: field :: path)) : core d = core d' := by
  funext p
  by_cases hp : p ∈ corePaths
  · obtain ⟨name, field, path, rfl, hfield⟩ := hp
    rw [core_field hfield, core_field hfield, h name field path hfield]
  · rw [core, core, Tree.within_of_not_mem hp, Tree.within_of_not_mem hp]

theorem Sectioned.section (h : Sectioned d) (hget : Dict.get d name = some part) : ∃ body, part = .dict body :=
  Value.isDict_iff.mp (h _ (Dict.mem_of_get hget))

theorem core_reaches (h : Sectioned d) : Tree.Reaches corePaths (Value.dict d).tree := by
  rintro p ⟨name, field, rest, rfl, hfield⟩ q v hq hv
  match q, hq with
  | [], _ => cases hv
  | [k], hq =>
      obtain ⟨rfl, _⟩ := List.cons_prefix_cons.mp hq
      cases hget : Dict.get d k with
      | none =>
          rw [Value.tree_missing hget] at hv
          cases hv
      | some part =>
          obtain ⟨body, rfl⟩ := h.section hget
          rw [Value.tree_get hget] at hv
          cases hv
  | k :: f :: q, hq =>
      obtain ⟨_, hq⟩ := List.cons_prefix_cons.mp hq
      obtain ⟨rfl, _⟩ := List.cons_prefix_cons.mp hq
      exact mem_corePaths.mpr hfield

theorem core_deepMerge (hkeyed : Value.Keyed (.dict delta)) (hsectioned : Sectioned delta) :
    core (deepMerge base delta) = Tree.overlay (core base) (core delta) := by
  rw [core, tree_deepMerge hkeyed, Tree.within_overlay corePaths_extends (core_reaches hsectioned)]
  rfl

theorem core_nil : core [] = Tree.empty := by
  funext p
  by_cases hp : p ∈ corePaths
  · obtain ⟨name, field, path, rfl, hfield⟩ := hp
    rw [core_field hfield]
    rfl
  · exact Tree.within_of_not_mem hp

theorem merged_isDict {existing : Option Value} (h : v.isDict = true) : (merged existing v).isDict = true := by
  obtain ⟨delta, rfl⟩ := Value.isDict_iff.mp h
  simp only [merged]
  split <;> rfl

theorem Tidy.nil : Tidy [] := ⟨List.nodup_nil, nofun⟩

theorem Tidy.set (h : Tidy d) (hv : v.isDict = true) : Tidy (Dict.set d name v) := by
  refine ⟨Dict.keys_set_nodup h.keys, fun p hp => ?_⟩
  rcases Dict.mem_set hp with rfl | hp
  · exact hv
  · exact h.sectioned p hp

theorem Tidy.deepMerge (hbase : Tidy base) (hdelta : Sectioned delta) : Tidy (deepMerge base delta) := by
  induction delta generalizing base with
  | nil => exact hbase
  | cons p delta ih =>
      obtain ⟨key, value⟩ := p
      rw [Mqtt.deepMerge]
      exact ih (hbase.set (merged_isDict (hdelta _ List.mem_cons_self))) fun p hp => hdelta p (List.mem_cons_of_mem _ hp)

theorem Cut.sectioned {delta' : Document} (hcut : Cut delta' delta) (h : Sectioned delta) : Sectioned delta' := by
  induction hcut with
  | nil => nofun
  | inner _ _ =>
      intro p hp
      cases List.mem_singleton.mp hp
      rfl
  | cons _ ih =>
      intro p hp
      rcases List.mem_cons.mp hp with rfl | hp
      · exact h _ List.mem_cons_self
      · exact ih (fun q hq => h q (List.mem_cons_of_mem _ hq)) p hp

theorem get_stripped (h : Tidy d) :
    Dict.get (stripped d) name = ((Dict.get d name).map withoutMetadata).filter fun part => !isEmptyDict part := by
  have hkeys : ((d.map fun p => (p.1, withoutMetadata p.2)).map Prod.fst).Nodup := by
    rw [List.map_map]
    exact h.keys
  rw [stripped, Dict.get_filter _ hkeys, Dict.get_map fun _ => withoutMetadata]

theorem isEmptyDict_iff {body : Document} : isEmptyDict (.dict body) = true ↔ body = [] := by
  cases body <;> simp [isEmptyDict]

theorem get_withoutMetadata {body : Document} (hfield : field ∉ metadataFields) :
    Dict.get (body.filter fun p => decide (p.1 ∉ metadataFields)) field = Dict.get body field := by
  rw [Dict.get_filter_key fun key => decide (key ∉ metadataFields)]
  simp [hfield]

theorem stripped_section {body : Document} (h : Tidy d) (hget : Dict.get d name = some (.dict body)) :
    Dict.get (stripped d) name =
      if (body.filter fun p => decide (p.1 ∉ metadataFields)) = [] then none
      else some (.dict (body.filter fun p => decide (p.1 ∉ metadataFields))) := by
  rw [get_stripped h, hget]
  simp only [Option.map_some, withoutMetadata, Option.filter]
  split
  · next hkeep =>
      refine (if_neg fun he => ?_).symm
      rw [he] at hkeep
      cases hkeep
  · next hdrop =>
      rw [if_pos (isEmptyDict_iff.mp (by simpa using hdrop))]

theorem stripped_missing (h : Tidy d) (hget : Dict.get d name = none) : Dict.get (stripped d) name = none := by
  rw [get_stripped h, hget]
  rfl

theorem stripped_field (h : Tidy d) (hfield : field ∉ metadataFields) :
    (Value.dict (stripped d)).tree (name :: field :: path) = (Value.dict d).tree (name :: field :: path) := by
  cases hget : Dict.get d name with
  | none => rw [Value.tree_missing (stripped_missing h hget), Value.tree_missing hget]
  | some part =>
      obtain ⟨body, rfl⟩ := h.sectioned.section hget
      have hsection := stripped_section h hget
      rw [Value.tree_get hget]
      split at hsection
      · next hempty =>
          have hnone : Dict.get body field = none := by
            rw [← get_withoutMetadata hfield, hempty]
            rfl
          rw [Value.tree_missing hsection, Value.tree_missing hnone]
      · rw [Value.tree_get hsection, Value.tree_cons, Value.tree_cons, get_withoutMetadata hfield]

theorem stripped_metadata (h : Tidy d) (hfield : field ∈ metadataFields) :
    (Value.dict (stripped d)).tree (name :: field :: path) = .absent := by
  cases hget : Dict.get d name with
  | none => exact Value.tree_missing (stripped_missing h hget)
  | some part =>
      obtain ⟨body, rfl⟩ := h.sectioned.section hget
      have hsection := stripped_section h hget
      split at hsection
      · exact Value.tree_missing hsection
      · rw [Value.tree_get hsection]
        refine Value.tree_missing ?_
        rw [Dict.get_filter_key fun key => decide (key ∉ metadataFields)]
        simp [hfield]

theorem stripped_name (name : Text) (h : Tidy d) : (Value.dict (stripped d)).tree [name] = .branch ∧
    (∃ field ∉ metadataFields, core d [name, field] ≠ .absent) ∨
    (Value.dict (stripped d)).tree [name] = .absent ∧ ∀ field ∉ metadataFields, core d [name, field] = .absent := by
  cases hget : Dict.get d name with
  | none =>
      refine .inr ⟨Value.tree_missing (stripped_missing h hget), fun field hfield => ?_⟩
      rw [core_field hfield, Value.tree_missing hget]
  | some part =>
      obtain ⟨body, rfl⟩ := h.sectioned.section hget
      have hsection := stripped_section h hget
      split at hsection
      · next hempty =>
          refine .inr ⟨Value.tree_missing hsection, fun field hfield => ?_⟩
          have hnone : Dict.get body field = none := by
            rw [← get_withoutMetadata hfield, hempty]
            rfl
          rw [core_field hfield, Value.tree_get hget, Value.tree_missing hnone]
      · next hfull =>
          obtain ⟨⟨field, v⟩, hmem⟩ := List.exists_mem_of_ne_nil _ hfull
          obtain ⟨hmem, hfield⟩ := List.mem_filter.mp hmem
          refine .inl ⟨by rw [Value.tree_get hsection]; rfl, field, by simpa using hfield, ?_⟩
          rw [core_field (by simpa using hfield), Value.tree_get hget, Value.tree_cons]
          cases hv : Dict.get body field with
          | none => exact absurd rfl (Dict.get_eq_none.mp hv _ hmem)
          | some w =>
              dsimp only
              cases w <;> rintro ⟨⟩

theorem stripped_congr {d' : Document} (h : Tidy d) (h' : Tidy d') (hcore : core d = core d') :
    (Value.dict (stripped d)).tree = (Value.dict (stripped d')).tree := by
  funext p
  match p with
  | [] => rfl
  | [name] =>
      have hname := stripped_name name h
      have hname' := stripped_name name h'
      rw [hcore] at hname
      rcases hname with ⟨hb, field, hfield, hsays⟩ | ⟨ha, hsilent⟩
      · rcases hname' with ⟨hb', _⟩ | ⟨_, hsilent⟩
        · rw [hb, hb']
        · exact absurd (hsilent field hfield) hsays
      · rcases hname' with ⟨_, field, hfield, hsays⟩ | ⟨ha', _⟩
        · exact absurd (hsilent field hfield) hsays
        · rw [ha, ha']
  | name :: field :: path =>
      by_cases hfield : field ∈ metadataFields
      · rw [stripped_metadata h hfield, stripped_metadata h' hfield]
      · rw [stripped_field h hfield, stripped_field h' hfield, ← core_field hfield, ← core_field hfield, hcore]

theorem sectioned_kept (h : Sectioned d) : Sectioned (PrinterStateCache.kept d) :=
  fun p hp => h p (List.mem_filter.mp hp).1

theorem core_kept (h : Tidy d) : core (PrinterStateCache.kept d) = core d := by
  refine core_ext fun name field path hfield => ?_
  have hkept : Dict.get (PrinterStateCache.kept d) name = (Dict.get d name).filter fun part => !isCommandAck part :=
    Dict.get_filter _ h.keys
  cases hget : Dict.get d name with
  | none =>
      rw [hget] at hkept
      rw [Value.tree_missing hkept, Value.tree_missing hget]
  | some part =>
      obtain ⟨body, rfl⟩ := h.sectioned.section hget
      rw [hget, Option.filter_some] at hkept
      cases hack : isCommandAck (.dict body) with
      | false =>
          rw [hack] at hkept
          rw [Value.tree_get hkept, Value.tree_get hget]
      | true =>
          rw [hack] at hkept
          have hnone : Dict.get body field = none := by
            simp only [isCommandAck, Bool.and_eq_true, List.all_eq_true, decide_eq_true_eq] at hack
            rw [Dict.get_eq_none]
            rintro p hp rfl
            exact hfield (hack.2 p hp)
          rw [Value.tree_missing hkept, Value.tree_get hget, Value.tree_missing hnone]

theorem replayed_isDict (h : part.isDict = true) : (PrinterStateCache.replayed part).isDict = true := by
  obtain ⟨body, rfl⟩ := Value.isDict_iff.mp h
  unfold PrinterStateCache.replayed
  dsimp only
  split <;> rfl

theorem tree_replayed (h : part.isDict = true) (hfield : field ∉ metadataFields) :
    (PrinterStateCache.replayed part).tree (field :: path) = part.tree (field :: path) := by
  obtain ⟨body, rfl⟩ := Value.isDict_iff.mp h
  have hother : ∀ key ∈ metadataFields, field ≠ key := fun key hkey he => hfield (he ▸ hkey)
  have hpopped :
      Dict.get ([text "sequence_id", text "result", text "reason"].foldl Dict.pop body) field = Dict.get body field := by
    simp only [List.foldl_cons, List.foldl_nil]
    rw [Dict.get_pop_ne (hother _ (by decide)), Dict.get_pop_ne (hother _ (by decide)),
      Dict.get_pop_ne (hother _ (by decide))]
  unfold PrinterStateCache.replayed
  dsimp only
  split
  · rw [Value.tree_cons, Dict.get_set_ne (hother _ (by decide)), hpopped, Value.tree_cons]
  · rw [Value.tree_cons, hpopped, Value.tree_cons]

end

-- What a client at `address` reads in the place of a leaf.
def readdressing (address : String) (path : List Text) (v : Value) : Value :=
  match encodeIpv4 address with
  | some encoded => readdressed encoded path v
  | none => v

section

variable {d part : Document} {address : String} {name : Text}

theorem encodeIpv4_empty : encodeIpv4 "" = none := by
  decide +kernel

theorem rewriteReportedIp_unencoded (h : encodeIpv4 address = none) : (rewriteReportedIp d address).2 = d := by
  simp only [rewriteReportedIp, h]
  repeat' split
  all_goals rfl

theorem readdressing_none (h : encodeIpv4 address = none) (d : Tree Text Value) :
    Tree.mapLeaves (readdressing address) d = d := by
  have hid : readdressing address = fun _ v => v := by
    funext path v
    simp only [readdressing, h]
  rw [hid, Tree.mapLeaves_id]

theorem tree_readdressing (d : Document) (address : String) :
    (Value.dict (rewriteReportedIp d address).2).tree = Tree.mapLeaves (readdressing address) (Value.dict d).tree := by
  cases hencoded : encodeIpv4 address with
  | some encoded =>
      have hsame : readdressing address = readdressed encoded := by
        funext path v
        simp only [readdressing, hencoded]
      rw [hsame, tree_rewriteReportedIp d hencoded]
  | none =>
      rw [rewriteReportedIp_unencoded hencoded, readdressing_none hencoded]

theorem core_readdressing (d : Document) (address : String) :
    core (rewriteReportedIp d address).2 = Tree.mapLeaves (readdressing address) (core d) := by
  rw [core, tree_readdressing, Tree.within_mapLeaves]
  rfl

theorem rewriteReportedIp_cases (d : Document) (address : String) : (rewriteReportedIp d address).2 = d ∨
    ∃ part net v, getDict d (text "print") = some part ∧ getDict part (text "net") = some net ∧
      (rewriteReportedIp d address).2 = Dict.set d (text "print") (.dict (Dict.set part (text "net") v)) := by
  unfold rewriteReportedIp
  split
  · exact .inl rfl
  · next part hpart =>
      split
      · exact .inl rfl
      · next net hnet =>
          split
          · split
            · exact .inl rfl
            · exact .inr ⟨part, net, _, hpart, hnet, rfl⟩
          · exact .inl rfl

theorem Tidy.rewriteReportedIp (h : Tidy d) (address : String) : Tidy (rewriteReportedIp d address).2 := by
  rcases rewriteReportedIp_cases d address with hsame | ⟨part, net, v, _, _, hset⟩
  · rw [hsame]
    exact h
  · rw [hset]
    exact h.set rfl

theorem readdressing_unnetworked (h : ∀ part, getDict d (text "print") = some part → Dict.get part (text "net") = none)
    (address : String) : Tree.mapLeaves (readdressing address) (core d) = core d := by
  rw [← core_readdressing]
  rcases rewriteReportedIp_cases d address with hsame | ⟨part, net, v, hprint, hnet, _⟩
  · rw [hsame]
  · rw [getDict_some, h part hprint] at hnet
    cases hnet

theorem rewriteReportedIp_single (name : Text) (v : Value) (address : String) :
    ∃ w, (rewriteReportedIp [(name, v)] address).2 = [(name, w)] ∧ (v.isDict = true → w.isDict = true) := by
  rcases rewriteReportedIp_cases [(name, v)] address with hsame | ⟨part, net, w, hprint, _, hset⟩
  · exact ⟨v, hsame, fun h => h⟩
  · have hname : name = text "print" := by
      have hmem := Dict.mem_of_get (getDict_some.mp hprint)
      cases List.mem_singleton.mp hmem
      rfl
    subst hname
    exact ⟨_, by rw [hset, Dict.set, if_pos rfl], fun _ => rfl⟩

theorem core_snapshot (h : Tidy d) {w : Text → Value → Value}
    (hw : ∀ name v, (rewriteReportedIp [(name, PrinterStateCache.replayed v)] address).2 = [(name, w name v)]) :
    core (d.map fun p => (p.1, w p.1 p.2)) = Tree.mapLeaves (readdressing address) (core d) := by
  rw [← core_readdressing]
  refine core_ext fun name field path hfield => ?_
  rw [tree_readdressing]
  have hget := Dict.get_map (d := d) (k := name) w
  cases hpart : Dict.get d name with
  | none =>
      rw [hpart] at hget
      rw [Value.tree_missing hget]
      exact (Tree.mapLeaves_absent.mpr (Value.tree_missing hpart)).symm
  | some part =>
      rw [hpart] at hget
      have hsingle : ∀ v : Value, Dict.get [(name, v)] name = some v := fun v => by rw [Dict.get_cons, if_pos rfl]
      have hdict := h.sectioned _ (Dict.mem_of_get hpart)
      calc (Value.dict (d.map fun p => (p.1, w p.1 p.2))).tree (name :: field :: path)
        _ = (w name part).tree (field :: path) := Value.tree_get hget
        _ = (Value.dict [(name, w name part)]).tree (name :: field :: path) := (Value.tree_get (hsingle _)).symm
        _ = Tree.mapLeaves (readdressing address) (Value.dict [(name, PrinterStateCache.replayed part)]).tree
              (name :: field :: path) := by
            rw [← hw, tree_readdressing]
        _ = Tree.mapLeaves (readdressing address) (Value.dict d).tree (name :: field :: path) := by
            refine Tree.mapLeaves_congr ?_
            rw [Value.tree_get (hsingle _), tree_replayed hdict hfield, Value.tree_get hpart]

theorem deepMerge_singles {base : Document} (d : Document) :
    d.foldl (fun merged p => deepMerge merged [p]) base = deepMerge base d := by
  induction d generalizing base with
  | nil => rfl
  | cons p d ih =>
      rw [List.foldl_cons, ih]
      rfl

end

end PandaProxy.Mqtt
