import PandaProxy.Async.Machine
import PandaProxy.Camera.StreamFanout

namespace PandaProxy.Camera

open Async Python

namespace StreamFanout

variable {α : Type}

inductive Op (α : Type) where
  | start
  | register (clientId : Option String)
  | unregister (k : Nat)
  | broadcast (data : α)
  | stop

def step (f : StreamFanout α) : Op α → Option (StreamFanout α)
  | .start => some f.start
  | .register clientId => some (f.registerClient clientId).2
  | .unregister k => if k < f.made then some (f.unregisterClient k) else none
  | .broadcast data => some (f.broadcast data)
  | .stop => some f.stop

-- Registered once, and neither unregistered nor disconnected since.
def Live (f : StreamFanout α) (k : Nat) : Prop := k < f.made ∧ (f.objects k).connected = true

structure Reached (f : StreamFanout α) : Prop where
  offered : ∀ k, f.Live k → ∀ data, (f.broadcast data).objects k = ((f.objects k).send data).2
  stopped : ∀ k, f.Live k → (f.stop.objects k).connected = false
  left : ∀ k, (f.objects k).connected = false → ∀ data, (f.broadcast data).objects k = f.objects k
  unregistered : ∀ k, ((f.unregisterClient k).objects k).connected = false ∧
    ∀ m ≠ k, (f.unregisterClient k).objects m = f.objects m

-- The id under which `register_client` enters a client.
def assignedId (f : StreamFanout α) (clientId : Option String) : String :=
  clientId.getD ("client_" ++ toString (if clientId.isNone then f.clientCounter + 1 else f.clientCounter))

def Distinct (f : StreamFanout α) : Op α → Prop
  | .register clientId => ∀ k, f.Live k → (f.objects k).clientId ≠ f.assignedId clientId
  | .unregister k => ∀ m, f.Live m → m ≠ k → (f.objects m).clientId ≠ (f.objects k).clientId
  | .start => True
  | .broadcast _ => True
  | .stop => True

structure Named (f : StreamFanout α) : Prop where
  keys : (f.clients.map Prod.fst).Nodup
  named : ∀ id k, (id, k) ∈ f.clients → (f.objects k).clientId = id
  made : ∀ id k, (id, k) ∈ f.clients → k < f.made

variable {f f' : StreamFanout α} {k : Nat}

theorem Named.once (h : f.Named) : (f.clients.map Prod.snd).Nodup := by
  refine List.Nodup.map_on ?_ h.keys.of_map
  rintro ⟨id, k⟩ hk ⟨id', k'⟩ hk' rfl
  rw [← h.named id k hk, ← h.named id' k hk']

theorem Named.eachClient (h : f.Named) (g : StreamClient α → StreamClient α) :
    (f.eachClient g).clients = f.clients ∧ (f.eachClient g).made = f.made ∧
      ∀ k, (f.registered k → (f.eachClient g).objects k = g (f.objects k)) ∧
        (¬ f.registered k → (f.eachClient g).objects k = f.objects k) := by
  obtain ⟨hclients, hmade, _, hobjects⟩ := foldl_objects g h.once f
  refine ⟨hclients, hmade, fun k => ⟨fun hk => ?_, fun hk => ?_⟩⟩
  · exact (hobjects k).trans (if_pos (mem_registered.mpr hk))
  · exact (hobjects k).trans (if_neg fun hm => hk (mem_registered.mp hm))

theorem Named.stop (h : f.Named) : f.stop.clients = f.clients ∧ f.stop.made = f.made ∧
    ∀ k, (f.registered k → f.stop.objects k = (f.objects k).disconnect) ∧
      (¬ f.registered k → f.stop.objects k = f.objects k) :=
  Named.eachClient (f := { f with running := false }) ⟨h.keys, h.named, h.made⟩ StreamClient.disconnect

theorem send_disconnected {c : StreamClient α} (h : c.connected = false) (data : α) : (c.send data).2 = c := by
  rcases c.send_cases data with ⟨_, hc, _⟩ | ⟨he, _⟩
  · rw [h] at hc
    cases hc
  · rw [he]

theorem reached_iff (h : f.Named) : f.Reached ↔ ∀ k, f.Live k → f.registered k := by
  constructor
  · intro hreached k hk
    by_contra hnot
    have hstopped := hreached.stopped k hk
    rw [(h.stop.2.2 k).2 hnot, hk.2] at hstopped
    cases hstopped
  · intro hall
    refine ⟨fun k hk data => ((h.eachClient _).2.2 k).1 (hall k hk), fun k hk => ?_, fun k hk data => ?_, fun k => ?_⟩
    · rw [(h.stop.2.2 k).1 (hall k hk)]
      exact (f.objects k).disconnect_cases.2.1
    · by_cases hr : f.registered k
      · exact (((h.eachClient _).2.2 k).1 hr).trans (send_disconnected hk data)
      · exact ((h.eachClient _).2.2 k).2 hr
    · obtain ⟨_, hself, hother, _⟩ := @unregisterClient_spec α f k
      rw [hself]
      exact ⟨(f.objects k).disconnect_cases.2.1, hother⟩

theorem register_spec (f : StreamFanout α) (clientId : Option String) :
    (f.registerClient clientId).2.clients = f.clients.set (f.assignedId clientId) f.made ∧
      (f.registerClient clientId).2.made = f.made + 1 ∧
      (f.registerClient clientId).2.objects f.made = { clientId := f.assignedId clientId } ∧
      ∀ k ≠ f.made, (f.registerClient clientId).2.objects k = f.objects k :=
  ⟨rfl, rfl, Function.update_self _ _ _, fun _ hk => Function.update_of_ne hk _ _⟩

theorem Named.eachNamed (h : f.Named) {g : StreamClient α → StreamClient α} (hg : ∀ c, (g c).clientId = c.clientId) :
    (f.eachClient g).Named := by
  obtain ⟨hclients, hmade, hobjects⟩ := h.eachClient g
  refine ⟨hclients ▸ h.keys, fun id k hm => ?_, fun id k hm => ?_⟩
  · rw [hclients] at hm
    rw [(hobjects k).1 ⟨id, hm⟩, hg]
    exact h.named id k hm
  · rw [hclients] at hm
    rw [hmade]
    exact h.made id k hm

theorem Named.stops (h : f.Named) : f.stop.Named :=
  Named.eachNamed (f := { f with running := false }) ⟨h.keys, h.named, h.made⟩ fun c => c.disconnect_cases.1

theorem Named.broadcast (h : f.Named) (data : α) : (f.broadcast data).Named :=
  h.eachNamed fun c => (send_bounded data c).1

theorem Named.register (h : f.Named) (clientId : Option String) : (f.registerClient clientId).2.Named := by
  obtain ⟨hclients, hmade, hnew, hold⟩ := register_spec f clientId
  refine ⟨?_, fun id k hm => ?_, fun id k hm => ?_⟩
  · rw [hclients]
    exact Dict.keys_set_nodup h.keys
  · rw [hclients] at hm
    rcases Dict.mem_set hm with he | hm
    · cases he
      rw [hnew]
    · rw [hold k (Nat.ne_of_lt (h.made id k hm))]
      exact h.named id k hm
  · rw [hclients] at hm
    rw [hmade]
    rcases Dict.mem_set hm with he | hm
    · cases he
      exact Nat.lt_succ_self _
    · exact Nat.lt_succ_of_lt (h.made id k hm)

theorem setObject_self {c : StreamClient α} : (f.setObject k c).objects k = c := Function.update_self _ _ _

theorem setObject_ne {c : StreamClient α} {m : Nat} (h : m ≠ k) : (f.setObject k c).objects m = f.objects m :=
  Function.update_of_ne h _ _

theorem Named.setObject (h : f.Named) {c : StreamClient α} (hid : c.clientId = (f.objects k).clientId) :
    (f.setObject k c).Named := by
  refine ⟨h.keys, fun id m hm => ?_, h.made⟩
  by_cases hmk : m = k
  · subst hmk
    rw [setObject_self, hid]
    exact h.named id m hm
  · rw [setObject_ne hmk]
    exact h.named id m hm

theorem Named.unregister (h : f.Named) (k : Nat) : (f.unregisterClient k).Named := by
  have hset := h.setObject (k := k) (f.objects k).disconnect_cases.1
  refine ⟨Dict.keys_pop_nodup hset.keys, fun id m hm => ?_, fun id m hm => ?_⟩
  · exact hset.named id m (Dict.mem_pop.mp hm).1
  · exact hset.made id m (Dict.mem_pop.mp hm).1

theorem Named.step {op : Op α} (h : f.Named) (hstep : f.step op = some f') : f'.Named := by
  cases op with
  | start =>
      cases hstep
      exact ⟨h.keys, h.named, h.made⟩
  | stop =>
      cases hstep
      exact h.stops
  | broadcast data =>
      cases hstep
      exact h.broadcast data
  | register clientId =>
      cases hstep
      exact h.register clientId
  | unregister k =>
      simp only [StreamFanout.step] at hstep
      split at hstep <;> cases hstep
      exact h.unregister k

theorem Named.registered_iff (h : f.Named) : f.registered k ↔ Dict.get f.clients (f.objects k).clientId = some k := by
  constructor
  · rintro ⟨id, hm⟩
    rw [h.named id k hm]
    exact Dict.get_of_mem h.keys hm
  · intro hget
    exact ⟨_, Dict.mem_of_get hget⟩

theorem send_connected (c : StreamClient α) (data : α) : (c.send data).2.connected = c.connected := by
  rcases c.send_cases data with ⟨he, _⟩ | ⟨he, _⟩ <;> rw [he]

theorem Named.strands_iff {op : Op α} (h : f.Named) (hall : ∀ k, f.Live k → f.registered k) (hstep : f.step op = some f') :
    (∀ k, f'.Live k → f'.registered k) ↔ f.Distinct op := by
  have hnamed := h.step hstep
  cases op with
  | start =>
      cases hstep
      exact iff_of_true hall trivial
  | stop =>
      cases hstep
      refine iff_of_true (fun k hk => ?_) trivial
      by_cases hr : f.registered k
      · have hconnected := hk.2
        rw [(h.stop.2.2 k).1 hr, (f.objects k).disconnect_cases.2.1] at hconnected
        cases hconnected
      · refine absurd (hall k ⟨h.stop.2.1 ▸ hk.1, ?_⟩) hr
        rw [← (h.stop.2.2 k).2 hr]
        exact hk.2
  | broadcast data =>
      cases hstep
      refine iff_of_true (fun k hk => ?_) trivial
      obtain ⟨hclients, hmade, hobjects⟩ := h.eachClient fun c => (c.send data).2
      rw [registered, StreamFanout.broadcast, hclients]
      refine hall k ⟨hmade ▸ hk.1, ?_⟩
      have hconnected := hk.2
      by_cases hr : f.registered k
      · rwa [StreamFanout.broadcast, (hobjects k).1 hr, send_connected] at hconnected
      · rwa [StreamFanout.broadcast, (hobjects k).2 hr] at hconnected
  | register clientId =>
      cases hstep
      obtain ⟨hclients, hmade, hnew, hold⟩ := register_spec f clientId
      have hkept : ∀ k, k < f.made → ((f.registerClient clientId).2.registered k ↔
          (f.objects k).clientId ≠ f.assignedId clientId ∧ f.registered k) := by
        intro k hk
        rw [hnamed.registered_iff, h.registered_iff, hclients, hold k (Nat.ne_of_lt hk)]
        by_cases hid : (f.objects k).clientId = f.assignedId clientId
        · rw [hid, Dict.get_set_self]
          simp [Nat.ne_of_gt hk]
        · rw [Dict.get_set_ne hid]
          simp [hid]
      constructor
      · intro hall' k hk
        have hlive : (f.registerClient clientId).2.Live k := by
          refine ⟨hmade ▸ Nat.lt_succ_of_lt hk.1, ?_⟩
          rw [hold k (Nat.ne_of_lt hk.1)]
          exact hk.2
        exact ((hkept k hk.1).mp (hall' k hlive)).1
      · intro hdistinct k hk
        by_cases hkn : k = f.made
        · subst hkn
          rw [hnamed.registered_iff, hclients, hnew, Dict.get_set_self]
        · have hlt : k < f.made := by
            have := hmade ▸ hk.1
            omega
          have hlive : f.Live k := by
            refine ⟨hlt, ?_⟩
            rw [← hold k hkn]
            exact hk.2
          exact (hkept k hlt).mpr ⟨hdistinct k hlive, hall k hlive⟩
  | unregister k =>
      simp only [StreamFanout.step] at hstep
      split at hstep <;> cases hstep
      obtain ⟨hmade, hself, hother, hclients⟩ := @unregisterClient_spec α f k
      have hkept : ∀ m, m ≠ k → ((f.unregisterClient k).registered m ↔
          (f.objects m).clientId ≠ (f.objects k).clientId ∧ f.registered m) := by
        intro m hm
        rw [hnamed.registered_iff, h.registered_iff, hclients, hother m hm]
        by_cases hid : (f.objects m).clientId = (f.objects k).clientId
        · rw [hid, Dict.get_pop_self]
          simp
        · rw [Dict.get_pop_ne hid]
          simp [hid]
      constructor
      · intro hall' m hm hmk
        have hlive : (f.unregisterClient k).Live m := by
          refine ⟨hmade ▸ hm.1, ?_⟩
          rw [hother m hmk]
          exact hm.2
        exact ((hkept m hmk).mp (hall' m hlive)).1
      · intro hdistinct m hm
        by_cases hmk : m = k
        · subst hmk
          have hconnected := hm.2
          rw [hself, (f.objects m).disconnect_cases.2.1] at hconnected
          cases hconnected
        · have hlive : f.Live m := by
            refine ⟨hmade ▸ hm.1, ?_⟩
            rw [← hother m hmk]
            exact hm.2
          exact (hkept m hmk).mpr ⟨hdistinct m hlive hmk, hall m hlive⟩

end StreamFanout

open StreamFanout

variable {α : Type}

def streamFanout (α : Type) : Machine (StreamFanout α) (Op α) := ⟨StreamFanout.step⟩

def Throughout (P : StreamFanout α → Prop) (f₀ : StreamFanout α) (ops : List (Op α)) : Prop :=
  ∀ before after f, ops = before ++ after → (streamFanout α).play f₀ before = some f → P f

def AtEach (P : StreamFanout α → Op α → Prop) (f₀ : StreamFanout α) (ops : List (Op α)) : Prop :=
  ∀ before op after f, ops = before ++ op :: after → (streamFanout α).play f₀ before = some f → P f op

variable {f₀ f : StreamFanout α} {ops : List (Op α)} {op : Op α}

theorem play_after (hstep : f₀.step op = some f) (before : List (Op α)) :
    (streamFanout α).play f₀ (op :: before) = (streamFanout α).play f before := by
  simp only [Machine.play, streamFanout, hstep, Option.bind_some]

theorem throughout_cons {P : StreamFanout α → Prop} (hstep : f₀.step op = some f) :
    Throughout P f₀ (op :: ops) ↔ P f₀ ∧ Throughout P f ops := by
  constructor
  · intro h
    refine ⟨h [] _ f₀ rfl rfl, fun before after g hops hg => ?_⟩
    exact h (op :: before) after g (congrArg (op :: ·) hops) ((play_after hstep before).trans hg)
  · rintro ⟨hfirst, hrest⟩ before after g hops hg
    cases before with
    | nil =>
        cases hg
        exact hfirst
    | cons op' before =>
        cases hops
        exact hrest before after g rfl ((play_after hstep before).symm.trans hg)

theorem atEach_cons {P : StreamFanout α → Op α → Prop} (hstep : f₀.step op = some f) :
    AtEach P f₀ (op :: ops) ↔ P f₀ op ∧ AtEach P f ops := by
  constructor
  · intro h
    refine ⟨h [] op ops f₀ rfl rfl, fun before op' after g hops hg => ?_⟩
    exact h (op :: before) op' after g (congrArg (op :: ·) hops) ((play_after hstep before).trans hg)
  · rintro ⟨hfirst, hrest⟩ before op' after g hops hg
    cases before with
    | nil =>
        cases hops
        cases hg
        exact hfirst
    | cons op₀ before =>
        cases hops
        exact hrest before op' after g rfl ((play_after hstep before).symm.trans hg)

theorem reached_throughout (h : f₀.Named) (hall : ∀ k, f₀.Live k → f₀.registered k)
    (hplay : (streamFanout α).play f₀ ops = some f) : Throughout Reached f₀ ops ↔ AtEach Distinct f₀ ops := by
  induction ops generalizing f₀ with
  | nil =>
      refine iff_of_true ?_ ?_
      · intro before after g hops hg
        obtain ⟨rfl, rfl⟩ := List.append_eq_nil_iff.mp hops.symm
        cases hg
        exact (reached_iff h).mpr hall
      · intro before op after g hops
        exact absurd hops.symm (by simp)
  | cons op ops ih =>
      obtain ⟨f₁, hstep, hrest⟩ := Option.bind_eq_some_iff.mp hplay
      have hnamed := h.step hstep
      have hstrands := h.strands_iff hall hstep
      rw [throughout_cons hstep, atEach_cons hstep]
      refine (and_iff_right ((reached_iff h).mpr hall)).trans ?_
      by_cases hdistinct : f₀.Distinct op
      · rw [and_iff_right hdistinct]
        exact ih hnamed (hstrands.mpr hdistinct) hrest
      · refine iff_of_false (fun hreached => hdistinct ?_) fun hboth => hdistinct hboth.1
        exact hstrands.mp ((reached_iff hnamed).mp (hreached [] _ f₁ rfl rfl))

theorem clients_reached (hplay : (streamFanout α).play .init ops = some f) :
    Throughout Reached .init ops ↔ AtEach Distinct .init ops := by
  refine reached_throughout ⟨.nil, nofun, nofun⟩ ?_ hplay
  rintro k ⟨hk, _⟩
  cases hk

-- A client comes back from its old address before its first handler has noticed that it went.
def returningClient : List (Op Nat) := [.start, .register (some "10.0.0.5"), .register (some "10.0.0.5"), .unregister 0]

theorem returning_client_stranded : ¬ ∀ ops f, (streamFanout Nat).play .init ops = some f → Throughout Reached .init ops := by
  intro h
  have hend : ((streamFanout Nat).play .init returningClient).map
      (fun f => (f.made, (f.objects 1).connected, (f.stop.objects 1).connected)) = some (2, true, true) := by
    decide +kernel
  obtain ⟨f, hf, hlast⟩ := Option.map_eq_some_iff.mp hend
  simp only [Prod.mk.injEq] at hlast
  obtain ⟨hmade, hconnected, hstopped⟩ := hlast
  have hreached := h returningClient f hf returningClient [] f (List.append_nil _).symm hf
  rw [hreached.stopped 1 ⟨by omega, hconnected⟩] at hstopped
  cases hstopped

def separate (f : StreamFanout α) : Op α → Bool
  | .register clientId =>
      (List.range f.made).all fun k => !(f.objects k).connected || (f.objects k).clientId ≠ f.assignedId clientId
  | .unregister k =>
      (List.range f.made).all fun m => !(f.objects m).connected || m == k || (f.objects m).clientId ≠ (f.objects k).clientId
  | .start => true
  | .broadcast _ => true
  | .stop => true

theorem separate_distinct (h : separate f op = true) : f.Distinct op := by
  cases op with
  | register clientId =>
      rintro k ⟨hk, hconnected⟩
      have hall := List.all_eq_true.mp h k (List.mem_range.mpr hk)
      simpa [hconnected] using hall
  | unregister k =>
      rintro m ⟨hm, hconnected⟩ hmk
      have hall := List.all_eq_true.mp h m (List.mem_range.mpr hm)
      simpa [hconnected, hmk] using hall
  | _ => trivial

def separateAll (f : StreamFanout α) : List (Op α) → Bool
  | [] => true
  | op :: ops => separate f op && (f.step op).all fun f' => separateAll f' ops

theorem separateAll_distinct (h : separateAll f₀ ops = true) (hplay : (streamFanout α).play f₀ ops = some f) :
    AtEach Distinct f₀ ops := by
  induction ops generalizing f₀ with
  | nil => exact fun before op after _ hops => absurd hops.symm (by simp)
  | cons op ops ih =>
      obtain ⟨f₁, hstep, hrest⟩ := Option.bind_eq_some_iff.mp hplay
      have hstep' : f₀.step op = some f₁ := hstep
      rw [separateAll, hstep', Option.all_some, Bool.and_eq_true] at h
      exact (atEach_cons hstep').mpr ⟨separate_distinct h.1, ih h.2 hrest⟩

def rejoined : List (Op Nat) :=
  [.start, .register (some "10.0.0.5"), .register none, .unregister 0, .broadcast 7, .register (some "10.0.0.5"), .stop]

theorem clients_reached_two : ∃ f, (streamFanout Nat).play .init rejoined = some f ∧
    [0, 1, 2].map (fun k => (f.objects k).queue) = [[none], [some 7, none], [none]] ∧
    Throughout Reached .init rejoined := by
  have hend : ((streamFanout Nat).play .init rejoined).map (fun f => [0, 1, 2].map fun k => (f.objects k).queue) =
      some [[none], [some 7, none], [none]] := by
    decide +kernel
  obtain ⟨f, hf, hqueues⟩ := Option.map_eq_some_iff.mp hend
  exact ⟨f, hf, hqueues, (clients_reached hf).mpr (separateAll_distinct (by decide +kernel) hf)⟩

end PandaProxy.Camera
