import Mathlib.Data.List.Nodup
import Mathlib.Logic.Function.Basic
import PandaProxy.Python.Dict

namespace PandaProxy.Camera

open Python

structure StreamClient (α : Type) where
  clientId : String
  queue : List (Option α) := []
  connected : Bool := true

namespace StreamClient

variable {α : Type}

def maxsize : Nat := 100

-- `put_nowait`; `none` is the `QueueFull`.
def putNowait (c : StreamClient α) (item : Option α) : Option (StreamClient α) :=
  if c.queue.length < maxsize then some { c with queue := c.queue ++ [item] } else none

def send (c : StreamClient α) (data : α) : Bool × StreamClient α :=
  if !c.connected then (false, c)
  else
    match c.putNowait (some data) with
    | some c => (true, c)
    | none => (false, c)

def disconnect (c : StreamClient α) : StreamClient α :=
  let c := { c with connected := false }
  (c.putNowait none).getD c

theorem send_cases (c : StreamClient α) (data : α) :
    (c.send data = (true, { c with queue := c.queue ++ [some data] }) ∧ c.connected = true ∧
      c.queue.length < maxsize) ∨
    (c.send data = (false, c) ∧ (c.connected = false ∨ maxsize ≤ c.queue.length)) := by
  simp only [send, putNowait]
  cases hc : c.connected with
  | false => exact .inr ⟨rfl, .inl rfl⟩
  | true =>
      rcases Nat.lt_or_ge c.queue.length maxsize with hlt | hge
      · exact .inl ⟨by simp [hlt], rfl, hlt⟩
      · exact .inr ⟨by simp [Nat.not_lt.mpr hge], .inr hge⟩

theorem disconnect_cases (c : StreamClient α) :
    (c.disconnect).clientId = c.clientId ∧ (c.disconnect).connected = false ∧
      ((c.disconnect).queue = c.queue ∨
        ((c.disconnect).queue = c.queue ++ [none] ∧ c.queue.length < maxsize)) := by
  simp only [disconnect, putNowait]
  split
  · next hlt => exact ⟨rfl, rfl, .inr ⟨rfl, hlt⟩⟩
  · exact ⟨rfl, rfl, .inl rfl⟩

end StreamClient

-- The clients are objects, numbered in the order of their making; the registry names them.
structure StreamFanout (α : Type) where
  clients : Dict String Nat
  objects : Nat → StreamClient α
  made : Nat
  clientCounter : Nat
  running : Bool

namespace StreamFanout

variable {α : Type}

def init : StreamFanout α := ⟨[], fun _ => { clientId := "" }, 0, 0, false⟩

def setObject (f : StreamFanout α) (k : Nat) (c : StreamClient α) : StreamFanout α :=
  { f with objects := Function.update f.objects k c }

def start (f : StreamFanout α) : StreamFanout α := { f with running := true }

def eachClient (f : StreamFanout α) (g : StreamClient α → StreamClient α) : StreamFanout α :=
  (f.clients.map Prod.snd).foldl (fun f k => f.setObject k (g (f.objects k))) f

def stop (f : StreamFanout α) : StreamFanout α :=
  { f with running := false }.eachClient StreamClient.disconnect

def registerClient (f : StreamFanout α) (clientId : Option String) : Nat × StreamFanout α :=
  let counter := if clientId.isNone then f.clientCounter + 1 else f.clientCounter
  let id := clientId.getD ("client_" ++ toString counter)
  (f.made, { f.setObject f.made { clientId := id } with
    clients := f.clients.set id f.made
    made := f.made + 1
    clientCounter := counter })

def unregisterClient (f : StreamFanout α) (k : Nat) : StreamFanout α :=
  let f := f.setObject k (f.objects k).disconnect
  { f with clients := f.clients.pop (f.objects k).clientId }

def broadcast (f : StreamFanout α) (data : α) : StreamFanout α :=
  f.eachClient fun c => (c.send data).2

def registered (f : StreamFanout α) (k : Nat) : Prop := ∃ id, (id, k) ∈ f.clients

theorem foldl_objects (g : StreamClient α → StreamClient α) {ks : List Nat} (h : ks.Nodup) (f : StreamFanout α) :
    let f' := ks.foldl (fun f k => f.setObject k (g (f.objects k))) f
    f'.clients = f.clients ∧ f'.made = f.made ∧ f'.running = f.running ∧
      ∀ k, f'.objects k = if k ∈ ks then g (f.objects k) else f.objects k := by
  induction ks generalizing f with
  | nil => exact ⟨rfl, rfl, rfl, fun _ => rfl⟩
  | cons k ks ih =>
      obtain ⟨hk, hks⟩ := List.nodup_cons.mp h
      obtain ⟨hclients, hmade, hrunning, hobjects⟩ := ih hks (f.setObject k (g (f.objects k)))
      refine ⟨hclients, hmade, hrunning, fun m => (hobjects m).trans ?_⟩
      rcases Decidable.em (m = k) with rfl | hne
      · simp [hk, setObject]
      · simp [setObject, hne]

structure Sound (f : StreamFanout α) : Prop where
  once : (f.clients.map Prod.snd).Nodup
  keys : (f.clients.map Prod.fst).Nodup
  named : ∀ id k, (id, k) ∈ f.clients → (f.objects k).clientId = id
  made : ∀ id k, (id, k) ∈ f.clients → k < f.made
  bounded : ∀ k, (f.objects k).queue.length ≤ StreamClient.maxsize

variable {f : StreamFanout α} {k : Nat}

theorem mem_registered : k ∈ f.clients.map Prod.snd ↔ f.registered k := by
  simp [registered]

theorem eachClient_spec (h : f.Sound) (g : StreamClient α → StreamClient α) :
    (f.eachClient g).clients = f.clients ∧ (f.eachClient g).made = f.made ∧
      (f.registered k → (f.eachClient g).objects k = g (f.objects k)) ∧
      (¬ f.registered k → (f.eachClient g).objects k = f.objects k) := by
  obtain ⟨hclients, hmade, _, hobjects⟩ := foldl_objects g h.once f
  refine ⟨hclients, hmade, fun hk => ?_, fun hk => ?_⟩
  · exact (hobjects k).trans (if_pos (mem_registered.mpr hk))
  · exact (hobjects k).trans (if_neg fun hm => hk (mem_registered.mp hm))

theorem Sound.eachClient (h : f.Sound) {g : StreamClient α → StreamClient α}
    (hg : ∀ c, (g c).clientId = c.clientId ∧
      (c.queue.length ≤ StreamClient.maxsize → (g c).queue.length ≤ StreamClient.maxsize)) :
    (f.eachClient g).Sound := by
  have hspec := fun k => @eachClient_spec α f k h g
  have hobject : ∀ k, (f.eachClient g).objects k = g (f.objects k) ∨
      (f.eachClient g).objects k = f.objects k := by
    intro k
    rcases Classical.em (f.registered k) with hk | hk
    · exact .inl ((hspec k).2.2.1 hk)
    · exact .inr ((hspec k).2.2.2 hk)
  refine ⟨?_, ?_, fun id k hm => ?_, fun id k hm => ?_, fun k => ?_⟩
  · rw [(hspec 0).1]
    exact h.once
  · rw [(hspec 0).1]
    exact h.keys
  · rw [(hspec 0).1] at hm
    rcases hobject k with he | he <;> rw [he]
    · rw [(hg _).1]
      exact h.named id k hm
    · exact h.named id k hm
  · rw [(hspec 0).1] at hm
    rw [(hspec 0).2.1]
    exact h.made id k hm
  · rcases hobject k with he | he <;> rw [he]
    · exact (hg _).2 (h.bounded k)
    · exact h.bounded k

theorem disconnect_bounded (c : StreamClient α) : c.disconnect.clientId = c.clientId ∧
    (c.queue.length ≤ StreamClient.maxsize → c.disconnect.queue.length ≤ StreamClient.maxsize) := by
  obtain ⟨hid, _, hsame | ⟨hmore, hlt⟩⟩ := c.disconnect_cases
  · exact ⟨hid, fun h => by rwa [hsame]⟩
  · refine ⟨hid, fun _ => ?_⟩
    rw [hmore, List.length_append]
    exact hlt

theorem send_bounded (data : α) (c : StreamClient α) : (c.send data).2.clientId = c.clientId ∧
    (c.queue.length ≤ StreamClient.maxsize → (c.send data).2.queue.length ≤ StreamClient.maxsize) := by
  rcases c.send_cases data with ⟨he, _, hlt⟩ | ⟨he, _⟩
  · rw [he]
    refine ⟨rfl, fun _ => ?_⟩
    rw [List.length_append]
    exact hlt
  · rw [he]
    exact ⟨rfl, id⟩

theorem Sound.stop (h : f.Sound) : f.stop.Sound :=
  Sound.eachClient (f := { f with running := false }) ⟨h.once, h.keys, h.named, h.made, h.bounded⟩ disconnect_bounded

theorem Sound.broadcast (h : f.Sound) (data : α) : (f.broadcast data).Sound :=
  h.eachClient (send_bounded data)

theorem registerClient_spec {id : String} (hid : ∀ p ∈ f.clients, p.1 ≠ id) :
    (f.registerClient (some id)).2.clients = f.clients ++ [(id, f.made)] ∧
      (f.registerClient (some id)).2.made = f.made + 1 ∧
      (f.registerClient (some id)).2.objects f.made = { clientId := id } ∧
      ∀ k, k ≠ f.made → (f.registerClient (some id)).2.objects k = f.objects k := by
  refine ⟨Dict.set_fresh hid, rfl, Function.update_self _ _ _, fun k hk => Function.update_of_ne hk _ _⟩

theorem Sound.register (h : f.Sound) {id : String} (hid : ∀ p ∈ f.clients, p.1 ≠ id) :
    (f.registerClient (some id)).2.Sound := by
  obtain ⟨hclients, hmade, hnew, hold⟩ := registerClient_spec hid
  have hne : ∀ id k, (id, k) ∈ f.clients → k ≠ f.made := fun id k hm => Nat.ne_of_lt (h.made id k hm)
  refine ⟨?_, ?_, fun id' k hm => ?_, fun id' k hm => ?_, fun k => ?_⟩
  · rw [hclients, List.map_append]
    refine List.nodup_append.mpr ⟨h.once, List.nodup_singleton _, ?_⟩
    rintro k hk k' hk'
    obtain ⟨⟨id', k⟩, hm, rfl⟩ := List.mem_map.mp hk
    rw [List.map_singleton, List.mem_singleton] at hk'
    rw [hk']
    exact hne id' k hm
  · rw [hclients, List.map_append]
    refine List.nodup_append.mpr ⟨h.keys, List.nodup_singleton _, ?_⟩
    rintro i hi i' hi'
    obtain ⟨p, hm, rfl⟩ := List.mem_map.mp hi
    rw [List.map_singleton, List.mem_singleton] at hi'
    rw [hi']
    exact hid p hm
  · rw [hclients] at hm
    rcases List.mem_append.mp hm with hm | hm
    · rw [hold k (hne id' k hm)]
      exact h.named id' k hm
    · cases List.mem_singleton.mp hm
      rw [hnew]
  · rw [hclients] at hm
    rw [hmade]
    rcases List.mem_append.mp hm with hm | hm
    · exact Nat.lt_trans (h.made id' k hm) (Nat.lt_succ_self _)
    · cases List.mem_singleton.mp hm
      exact Nat.lt_succ_self _
  · rcases Decidable.em (k = f.made) with rfl | hk
    · rw [hnew]
      exact Nat.zero_le _
    · rw [hold k hk]
      exact h.bounded k

theorem unregisterClient_spec (k : Nat) : (f.unregisterClient k).made = f.made ∧
    (f.unregisterClient k).objects k = (f.objects k).disconnect ∧
    (∀ m, m ≠ k → (f.unregisterClient k).objects m = f.objects m) ∧
    (f.unregisterClient k).clients = f.clients.pop (f.objects k).clientId := by
  refine ⟨rfl, Function.update_self _ _ _, fun m hm => Function.update_of_ne hm _ _, ?_⟩
  simp [unregisterClient, setObject, (f.objects k).disconnect_cases.1]

theorem Sound.unregister_registered (h : f.Sound) (hk : f.registered k) (m : Nat) :
    (f.unregisterClient k).registered m ↔ f.registered m ∧ m ≠ k := by
  obtain ⟨id, hmk⟩ := hk
  simp only [registered, (@unregisterClient_spec α f k).2.2.2, Dict.mem_pop, h.named id k hmk]
  constructor
  · rintro ⟨id', hm, hne⟩
    refine ⟨⟨id', hm⟩, ?_⟩
    rintro rfl
    exact hne ((h.named id' m hm).symm.trans (h.named id m hmk))
  · rintro ⟨⟨id', hm⟩, hne⟩
    refine ⟨id', hm, ?_⟩
    rintro (rfl : id' = id)
    have := (List.inj_on_of_nodup_map h.keys) hm hmk rfl
    exact hne (congrArg Prod.snd this)

theorem Sound.unregister (h : f.Sound) (k : Nat) : (f.unregisterClient k).Sound := by
  obtain ⟨hmade, hself, hother, hclients⟩ := @unregisterClient_spec α f k
  have hobject : ∀ m, ((f.unregisterClient k).objects m).clientId = (f.objects m).clientId ∧
      ((f.unregisterClient k).objects m).queue.length ≤ StreamClient.maxsize := by
    intro m
    rcases Decidable.em (m = k) with rfl | hm
    · rw [hself]
      exact ⟨(disconnect_bounded _).1, (disconnect_bounded _).2 (h.bounded _)⟩
    · rw [hother m hm]
      exact ⟨rfl, h.bounded m⟩
  refine ⟨?_, ?_, fun id m hm => ?_, fun id m hm => ?_, fun m => (hobject m).2⟩
  · rw [hclients]
    exact h.once.sublist ((List.filter_sublist).map Prod.snd)
  · rw [hclients]
    exact h.keys.sublist ((List.filter_sublist).map Prod.fst)
  · rw [hclients] at hm
    rw [(hobject m).1]
    exact h.named id m (Dict.mem_pop.mp hm).1
  · rw [hclients] at hm
    rw [hmade]
    exact h.made id m (Dict.mem_pop.mp hm).1

end StreamFanout

end PandaProxy.Camera
