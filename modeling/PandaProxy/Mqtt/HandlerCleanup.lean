import PandaProxy.Mqtt.Footing
import PandaProxy.Mqtt.Registry

namespace PandaProxy.Mqtt

open Async Json Python

namespace Footing

def owes (f : Footing) : Op → Prop
  | .register => f.Fresh
  | .upstreamClient => f.holds = true
  | .publish _ _ _ _ => f.holds = true
  | .confirmed => f.holds = true
  | .releaseLock => f.holds = true
  | .cancelPending => True
  | .createSnapshotTask => f.Stays ∧ f.holds = false
  | .unregister => f.stage = some .ended
  | .close => f.Left
  | _ => f.holds = false

structure Ready (f : Footing) (i : Op) : Prop where
  waits : f.waits = if i = .lockGranted then 1 else 0
  owes : f.owes i

theorem Ready.moves {f f' : Footing} {i : Op} (h : f.Ready i) (hm : f.Moves f') : f'.Ready i := by
  refine ⟨hm.waits.trans h.waits, ?_⟩
  have howes := h.owes
  cases i with
  | register => exact Fresh.moves howes hm
  | cancelPending => trivial
  | createSnapshotTask => exact ⟨howes.1.moves hm, hm.holds.trans howes.2⟩
  | unregister =>
      rcases hm.stage with hsame | ⟨hserving, _⟩
      · exact hsame.trans howes
      · cases hserving.symm.trans howes
  | close => exact Left.moves howes hm
  | _ => exact hm.holds.trans howes

def At (f : Footing) : ClientSession.Label → Prop
  | .connecting => f.Fresh ∧ f.Free
  | .serving => f.Stays ∧ f.Free
  | .ending => f.Stays ∧ f.Free
  | .closing => f.Left ∧ f.Free

structure Done (f : Footing) : Prop where
  left : f.Left
  closed : f.closed = true
  free : f.Free

theorem At.moves {f f' : Footing} {l : ClientSession.Label} (h : f.At l) (hm : f.Moves f') : f'.At l := by
  cases l with
  | connecting => exact ⟨h.1.moves hm, h.2.moves hm⟩
  | serving | ending => exact ⟨h.1.moves hm, h.2.moves hm⟩
  | closing => exact ⟨h.1.moves hm, h.2.moves hm⟩

theorem Done.moves {f f' : Footing} (h : f.Done) (hm : f.Moves f') : f'.Done :=
  ⟨h.left.moves hm, hm.closed.trans h.closed, h.free.moves hm⟩

structure Steady (I : Footing → Prop) : Prop where
  moves : ∀ f f', I f → f.Moves f' → I f'
  waits : ∀ f, I f → f.waits = 0

structure Apart (I : Footing → Prop) : Prop extends Steady I where
  holds : ∀ f, I f → f.holds = false

def Holding (f : Footing) : Prop := f.Stays ∧ f.holds = true ∧ f.waits = 0

theorem At.free {f : Footing} {l : ClientSession.Label} (h : f.At l) : f.Free := by
  cases l <;> exact h.2

theorem Apart.at (l : ClientSession.Label) : Apart fun f => f.At l :=
  ⟨⟨fun _ _ h hm => h.moves hm, fun _ h => h.free.waits⟩, fun _ h => h.free.holds⟩

theorem Apart.done : Apart Done := ⟨⟨fun _ _ h hm => h.moves hm, fun _ h => h.free.waits⟩, fun _ h => h.free.holds⟩

theorem Steady.holding : Steady Holding :=
  ⟨fun _ _ h hm => ⟨h.1.moves hm, hm.holds.trans h.2.1, hm.waits.trans h.2.2⟩, fun _ h => h.2.2⟩

end Footing

namespace Server

variable {cfg : ServerSettings} {J : Codec} {e e' : Server} {j k : Nat}

theorem step_accepted {cfg : MqttSettings} {s s' : MQTTProxy} {a : MQTTProxy.Act} (h : MQTTProxy.step cfg J s a = some s') :
    s.accepted ≤ s'.accepted := by
  by_cases ha : ∃ id sockname, a = .register id sockname
  · obtain ⟨id, sockname, rfl⟩ := ha
    cases h
    unfold MQTTProxy.register
    split
    · exact Nat.le_refl _
    · exact Nat.le_succ _
  · exact (MQTTProxy.step_shrinks h fun id sockname heq => ha ⟨id, sockname, heq⟩).accepted.ge

theorem Sorted.moves (h : Sorted e) (hm : ∀ k, (e.footing k).Moves (e'.footing k))
    (haccepted : e.proxy.accepted ≤ e'.proxy.accepted) : Sorted e' := by
  have hclient : ∀ k, (e'.links k).client = (e.links k).client := fun k => (hm k).client
  refine ⟨fun k c hc => ?_, fun k k' c hk hk' => ?_, fun k hclosed => ?_, fun k => ?_⟩
  · exact (h.known k c (hclient k ▸ hc)).trans_le haccepted
  · exact h.distinct k k' c (hclient k ▸ hk) (hclient k' ▸ hk')
  · exact (h.closed k ((hm k).closed ▸ hclosed)).moves (hm k)
  · exact (hm k).waits ▸ h.queued k

theorem after_client {f : Footing} {n : Nat} {i : Op} {r : Except Exc i.Answer} {c : Nat} (h : (f.after n i r).client = some c) :
    f.client = some c ∨ c = n ∧ i = .register := by
  unfold Footing.after at h
  split at h
  · cases h
    exact .inr ⟨rfl, rfl⟩
  all_goals exact .inl h

theorem after_closed {f : Footing} {n : Nat} {i : Op} {r : Except Exc i.Answer} (hf : f.closed = true → f.Left) (hready : f.Ready i)
    (h : (f.after n i r).closed = true) : (f.after n i r).Left := by
  have howes := hready.owes
  unfold Footing.after at h ⊢
  split at h
  · cases h.symm.trans howes.opened
  · exact hf h
  · exact hf h
  · exact hf h
  · exact hf h
  · exact hf h
  · intro stage hstage
    obtain ⟨stage', hstage', rfl⟩ := Option.map_eq_some_iff.mp hstage
    cases hf h stage' hstage'
    rfl
  · intro stage hstage
    obtain ⟨stage', hstage', rfl⟩ := Option.map_eq_some_iff.mp hstage
    cases hstage'.symm.trans howes
    rfl
  · exact howes
  · exact hf h

theorem after_waits {f : Footing} {n : Nat} {i : Op} {r : Except Exc i.Answer} (hready : f.Ready i) : (f.after n i r).waits ≤ 1 := by
  have hwaits : f.waits ≤ 1 := by
    rw [hready.waits]
    split <;> omega
  unfold Footing.after
  split
  case h_3 =>
    have hzero := hready.waits
    rw [if_neg nofun] at hzero
    show f.waits + 1 ≤ 1
    omega
  case h_4 => exact (Nat.sub_le _ _).trans hwaits
  case h_5 => exact Nat.zero_le 1
  all_goals exact hwaits

theorem Sorted.own {i : Op} {r : Except Exc i.Answer} (h : Sorted e) (hready : (e.footing j).Ready i)
    (hown : e'.footing j = (e.footing j).after e.proxy.accepted i r) (hothers : ∀ k, k ≠ j → SameFooting e e' k)
    (haccepted : e.proxy.accepted ≤ e'.proxy.accepted)
    (hnew : i = .register → (e'.links j).client = some e.proxy.accepted → e.proxy.accepted < e'.proxy.accepted) : Sorted e' := by
  have hself : ∀ {c}, (e'.links j).client = some c → (e.links j).client = some c ∨ c = e.proxy.accepted ∧ i = .register := by
    intro c hc
    refine after_client (f := e.footing j) (n := e.proxy.accepted) (r := r) ?_
    rw [← hown]
    exact hc
  refine ⟨fun k c hc => ?_, fun k k' c hk hk' => ?_, fun k hclosed => ?_, fun k => ?_⟩
  · by_cases hk : k = j
    · subst hk
      rcases hself hc with hc' | ⟨rfl, hi⟩
      · exact (h.known k c hc').trans_le haccepted
      · exact hnew hi hc
    · exact (h.known k c ((hothers k hk).client ▸ hc)).trans_le haccepted
  · by_cases hkj : k = j <;> by_cases hkj' : k' = j
    · exact hkj.trans hkj'.symm
    · subst hkj
      have hother := (hothers k' hkj').client ▸ hk'
      rcases hself hk with hc | ⟨rfl, _⟩
      · exact h.distinct k k' c hc hother
      · exact absurd (h.known k' _ hother) (Nat.lt_irrefl _)
    · subst hkj'
      have hother := (hothers k hkj).client ▸ hk
      rcases hself hk' with hc | ⟨rfl, _⟩
      · exact h.distinct k k' c hother hc
      · exact absurd (h.known k _ hother) (Nat.lt_irrefl _)
    · exact h.distinct k k' c ((hothers k hkj).client ▸ hk) ((hothers k' hkj').client ▸ hk')
  · by_cases hk : k = j
    · subst hk
      rw [hown] at hclosed ⊢
      exact after_closed (h.closed k) hready hclosed
    · rw [(hothers k hk).footing] at hclosed ⊢
      exact h.closed k hclosed
  · by_cases hk : k = j
    · subst hk
      rw [hown]
      exact after_waits hready
    · rw [(hothers k hk).footing]
      exact h.queued k

theorem Moves.accepted {s s' : MQTTProxy} (h : Moves cfg J s s') : s.accepted ≤ s'.accepted := by
  rcases h with rfl | ⟨_, hstep⟩
  · exact Nat.le_refl _
  · exact step_accepted hstep

theorem register_new (hnone : (e.links j).client = none) (h : ((e.register cfg J j).2.links j).client = some e.proxy.accepted) :
    e.proxy.accepted < (e.register cfg J j).2.proxy.accepted := by
  rw [register_proxy]
  cases haddress : MQTTProxy.advertisedAddress cfg.toMqttSettings (e.links j).peer.sockname with
  | none =>
      have hlink : (e.register cfg J j).2.links j = e.links j := by
        unfold register
        simp only [haddress, act_links]
      rw [hlink, hnone] at h
      cases h
  | some address =>
      rw [(MQTTProxy.register_joins haddress e.proxy _).1]
      exact Nat.lt_succ_self _

def cleanup : Protocol Nat ClientSession.Label Keepalive Server Op Op.Answer Exc Tick where
  inv e := Sorted e
  seen _ := True
  rely j e e' := (e.footing j).Moves (e'.footing j)
  admits _ _ _ := True
  allows _ := True
  guar j i _ e := (e.footing j).Ready i
  idle j e := (e.footing j).At .connecting
  lab j l _ e := (e.footing j).At l
  fin j _ e := (e.footing j).Done

section

variable {l : ClientSession.Label} {I : Footing → Prop} {α β : Type}

def KeepsFooting (cfg : ServerSettings) (J : Codec) (j : Nat) (l : ClientSession.Label) (I : Footing → Prop)
    (c : ClientSession α) : Prop :=
  Keeps (world cfg J j) (cleanup.contract j l) (fun _ e => I (e.footing j)) (fun _ e => I (e.footing j)) c

theorem keeps_pure (a : α) : KeepsFooting cfg J j l I (pure a) := Keeps.pure a

theorem keeps_raise (x : Exc) : KeepsFooting cfg J j l I (Coro.raise x : ClientSession α) := Keeps.raise (fun _ _ h => h) x

theorem keeps_bind {c : ClientSession α} {f : α → ClientSession β} (hc : KeepsFooting cfg J j l I c)
    (hf : ∀ a, KeepsFooting cfg J j l I (f a)) : KeepsFooting cfg J j l I (c >>= f) := Keeps.bind hc hf

theorem keeps_ask (hI : Footing.Steady I) {i : Op} (hi : treads i = false) (howes : ∀ f, I f → f.owes i) :
    KeepsFooting cfg J j l I (ClientSession.ask i) := by
  have hlock : i ≠ .lockGranted := by
    rintro rfl
    cases hi
  refine Keeps.perform (fun _ e h => ⟨?_, howes _ h⟩) (fun _ e r e' h hsync _ => ?_) (fun _ e e' h hm => hI.moves _ _ h hm)
    fun _ e r e' h _ _ hresume _ => ?_
  · rw [if_neg hlock]
    exact hI.waits _ h
  · rw [(sync_same hsync hi j).footing]
    exact h
  · rw [(resume_same hresume hlock j (hI.waits _ h)).footing]
    exact h

theorem keeps_parsed (r : Except ParseError α) : KeepsFooting cfg J j l I (ClientSession.parsed r) := by
  cases r with
  | ok a => exact keeps_pure a
  | error x => exact keeps_raise .valueError

theorem keeps_send (hI : Footing.Apart I) (data : Option (List UInt8)) :
    KeepsFooting cfg J j l I (ClientSession.send data) := by
  cases data with
  | none => exact keeps_raise .structError
  | some data => exact keeps_bind (keeps_ask hI.toSteady rfl hI.holds) fun _ => keeps_ask hI.toSteady rfl hI.holds

theorem keeps_acknowledge (hI : Footing.Apart I) (info : PublishInfo) :
    KeepsFooting cfg J j l I (ClientSession.acknowledge info) := by
  unfold ClientSession.acknowledge
  split
  · split
    · exact keeps_send hI _
    · exact keeps_pure ()
  · exact keeps_pure ()

theorem keeps_deliver (topic : String) (payload : List UInt8) (qos : Nat) :
    KeepsFooting cfg J j l Footing.Holding (do
      let client ← ClientSession.ask .upstreamClient
      match client with
      | some client =>
          Coro.suppress (fun x => decide (x = .mqttError)) (do
            ClientSession.ask (.publish client topic payload qos)
            ClientSession.ask .confirmed)
      | none => pure ()) := by
  have hholds : ∀ f : Footing, f.Holding → f.holds = true := fun _ h => h.2.1
  refine keeps_bind (keeps_ask .holding rfl hholds) fun client => ?_
  cases client with
  | none => exact keeps_pure ()
  | some client =>
      refine Keeps.tryCatch (keeps_bind (keeps_ask .holding rfl hholds) fun _ => keeps_ask .holding rfl hholds) fun x => ?_
      split
      · exact keeps_pure ()
      · exact keeps_raise x

theorem acquire_holds {e : Server} {s : Keepalive} (h : (e.footing j).Stays ∧ (e.footing j).Free) :
    wp (world cfg J j) (cleanup.contract j l) ClientSession.acquire
      (Ends (fun _ e => (e.footing j).Holding) fun _ e => (e.footing j).Stays ∧ (e.footing j).Free) s e := by
  have hready : (e.footing j).Ready .acquireLock := ⟨h.2.waits, h.2.holds⟩
  refine wp_bind _ _ s e (wp_perform hready (fun r e' hsync _ => ?_) ?_)
  swap
  · rintro ⟨⟩
  change sync cfg J j .acquireLock e = some (r, e') at hsync
  have hfooting := sync_footing (by rintro ⟨⟩) hsync
  cases r with
  | error x => cases hsync
  | ok taken =>
      cases taken with
      | true =>
          show (e'.footing j).Holding
          rw [hfooting]
          exact ⟨⟨h.1.stage, h.1.opened⟩, rfl, h.2.waits⟩
      | false =>
          have hwaiting : (e'.footing j).Stays ∧ (e'.footing j).Ready .lockGranted := by
            rw [hfooting]
            exact ⟨⟨h.1.stage, h.1.opened⟩, congrArg (· + 1) h.2.waits, h.2.holds⟩
          refine wp_perform hwaiting.2 ?_ fun _ e₁ hstar _ _ r e₂ _ hresume _ => ?_
          · rintro _ _ ⟨⟩
          obtain ⟨hstays, hready⟩ := stable_star (X := fun e => (e.footing j).Stays ∧ (e.footing j).Ready .lockGranted)
            (fun _ _ h hm => ⟨h.1.moves hm, h.2.moves hm⟩) hstar hwaiting
          have hfooting := resume_footing (fun hne => absurd rfl hne) ⟨e₁, (rfl : sync cfg J j .lockGranted e₁ = none)⟩ hresume
          cases r with
          | ok _ =>
              show (e₂.footing j).Holding
              rw [hfooting]
              refine ⟨⟨hstays.stage, hstays.opened⟩, rfl, ?_⟩
              show (e₁.footing j).waits - 1 = 0
              rw [hready.waits]
              rfl
          | error x =>
              show (e₂.footing j).Stays ∧ (e₂.footing j).Free
              rw [hfooting]
              exact ⟨⟨hstays.stage, hstays.opened⟩, hready.owes, rfl⟩

theorem releaseLock_free {e : Server} {s : Keepalive} (h : (e.footing j).Holding) :
    wp (world cfg J j) (cleanup.contract j l) (ClientSession.ask .releaseLock)
      (fun r _ e => r = .ok () ∧ (e.footing j).Stays ∧ (e.footing j).Free) s e := by
  refine wp_sync rfl ⟨h.2.2, h.2.1⟩ fun _ => ⟨rfl, ?_⟩
  rw [sync_footing (by rintro ⟨⟩) (rfl : sync cfg J j .releaseLock e = some (.ok (), _))]
  exact ⟨⟨h.1.stage, h.1.opened⟩, rfl, h.2.2⟩

theorem keeps_forward (topic : String) (payload : List UInt8) (qos : Nat) :
    KeepsFooting cfg J j l (fun f => f.Stays ∧ f.Free) (ClientSession.forwardToUpstream topic payload qos) := by
  have hapart : Footing.Apart fun f => f.Stays ∧ f.Free := .at .serving
  refine keeps_bind (keeps_ask hapart.toSteady rfl hapart.holds) fun running => ?_
  split
  · exact keeps_pure ()
  · intro s e h
    refine wp_bind _ _ s e (wp_mono _ ?_ s e (acquire_holds h))
    intro r s e hr
    cases r with
    | error x => exact hr
    | ok _ =>
        refine wp_tryFinally _ _ (wp_mono _ ?_ s e (keeps_deliver topic payload qos s e hr))
        intro r s e hr
        have hholding : (e.footing j).Holding := by
          cases r <;> exact hr
        refine wp_mono _ ?_ s e (releaseLock_free hholding)
        rintro _ s e ⟨rfl, hfree⟩
        cases r <;> exact hfree

theorem keeps_handlePacket (pkt : MQTTPacket) :
    KeepsFooting cfg J j l (fun f => f.Stays ∧ f.Free) (ClientSession.handlePacket cfg pkt) := by
  have hapart : Footing.Apart fun f => f.Stays ∧ f.Free := .at .serving
  unfold ClientSession.handlePacket
  split
  · refine keeps_bind (keeps_parsed _) fun info => keeps_bind (keeps_acknowledge hapart info) fun _ => ?_
    exact keeps_bind (keeps_forward _ _ _) fun _ => keeps_pure _
  · split
    · refine keeps_bind (keeps_parsed _) fun parsed => keeps_bind (keeps_send hapart _) fun _ => ?_
      dsimp only
      split
      · exact keeps_bind (keeps_ask hapart.toSteady rfl fun _ h => ⟨h.1, h.2.holds⟩) fun _ => keeps_pure _
      · exact keeps_pure _
    · split
      · exact keeps_bind (keeps_parsed _) fun parsed => keeps_bind (keeps_send hapart _) fun _ => keeps_pure _
      · split
        · exact keeps_bind (keeps_send hapart _) fun _ => keeps_pure _
        · split
          · exact keeps_pure _
          · split
            · exact keeps_pure _
            · exact keeps_pure _

theorem keeps_receive : KeepsFooting cfg J j l (fun f => f.Stays ∧ f.Free) (ClientSession.receive cfg) := by
  have hapart : Footing.Apart fun f => f.Stays ∧ f.Free := .at .serving
  refine keeps_bind (keeps_ask hapart.toSteady rfl hapart.holds) fun running => ?_
  split
  · exact keeps_pure _
  · refine keeps_bind Keeps.get fun s => keeps_bind (Keeps.attempt (keeps_ask hapart.toSteady rfl hapart.holds)) fun outcome => ?_
    split
    · exact keeps_handlePacket _
    · exact keeps_pure _
    · exact keeps_raise _

def Lands (j : Nat) : Except Exc ClientSession.Label → Keepalive → Server → Prop
  | .ok l, _, e => (e.footing j).At l
  | .error _, _, e => (e.footing j).At .closing

abbrev LandsAfter (cfg : ServerSettings) (J : Codec) (j : Nat) (l : ClientSession.Label) (c : ClientSession ClientSession.Label) :
    Prop :=
  ∀ s e, (e.footing j).At .connecting → wp (world cfg J j) (cleanup.contract j l) c (Lands j) s e

theorem closes_at {f : Footing} (h : f.At .connecting) : f.At .closing := ⟨h.1.left, h.2⟩

theorem lands_bind {c : ClientSession α} {f : α → ClientSession ClientSession.Label}
    (hc : KeepsFooting cfg J j l (fun f => f.At .connecting) c) (hf : ∀ a, LandsAfter cfg J j l (f a)) :
    LandsAfter cfg J j l (c >>= f) := by
  intro s e h
  refine wp_bind _ _ s e (wp_mono c ?_ s e (hc s e h))
  intro r s e hr
  cases r with
  | ok a => exact hf a s e hr
  | error x => exact closes_at hr

theorem lands_closing : LandsAfter cfg J j l (pure .closing) := fun _ _ h => closes_at h

theorem lands_raise (x : Exc) : LandsAfter cfg J j l (Coro.raise x) := fun _ _ h => closes_at h

theorem register_lands (keepalive : Nat) : LandsAfter cfg J j l (do
    let registered ← ClientSession.ask .register
    if registered then do
      Coro.modify fun _ => ⟨keepalive⟩
      pure .serving
    else pure .closing) := by
  intro s e h
  refine wp_bind _ _ s e (wp_sync rfl ⟨h.2.waits, h.1⟩ fun _ => ?_)
  have hfooting := sync_footing (fun _ => h.1.client) (rfl : sync cfg J j .register e = some (.ok _, _))
  cases hregistered : (e.register cfg J j).1 with
  | true =>
      rw [hregistered] at hfooting
      show ((e.register cfg J j).2.footing j).At .serving
      rw [hfooting]
      exact ⟨⟨.inl rfl, h.1.opened⟩, h.2.holds, h.2.waits⟩
  | false =>
      rw [hregistered] at hfooting
      show ((e.register cfg J j).2.footing j).At .closing
      rw [hfooting]
      exact closes_at h

theorem handshake_lands : LandsAfter cfg J j l (ClientSession.handshake cfg) := by
  have hapart : Footing.Apart fun f => f.At .connecting := .at .connecting
  refine lands_bind (Keeps.attempt (keeps_ask hapart.toSteady rfl hapart.holds)) fun outcome => ?_
  split
  · exact lands_closing
  · exact lands_closing
  · exact lands_raise _
  · split
    · exact lands_closing
    · refine lands_bind (keeps_parsed _) fun connectInfo => ?_
      split
      · exact lands_bind (keeps_send hapart _) fun _ => lands_closing
      · refine lands_bind (keeps_send hapart _) fun _ => lands_bind ?_ fun connected => ?_
        · refine keeps_bind (keeps_ask hapart.toSteady rfl hapart.holds) fun connected => ?_
          split
          · exact keeps_pure true
          · refine keeps_bind (Keeps.attempt (keeps_ask hapart.toSteady rfl hapart.holds)) fun outcome => ?_
            split
            · exact keeps_pure true
            · exact keeps_pure false
            · exact keeps_raise _
        · split
          · exact lands_closing
          · exact register_lands _

theorem depart_lands {s : Keepalive} {e : Server} (h : (e.footing j).At .ending) :
    wp (world cfg J j) (cleanup.contract j l) ClientSession.depart (Lands j) s e := by
  have hapart : Footing.Apart fun f => f.stage = some .ended ∧ f.closed = false ∧ f.Free := by
    refine ⟨⟨fun f f' hf hm => ⟨?_, hm.closed.trans hf.2.1, hf.2.2.moves hm⟩, fun _ hf => hf.2.2.waits⟩, fun _ hf => hf.2.2.holds⟩
    rcases hm.stage with hsame | ⟨_, hended⟩
    · exact hsame.trans hf.1
    · exact hended
  refine wp_bind _ _ s e (wp_tryFinally _ _ (wp_bind _ _ s e (wp_sync rfl ⟨h.2.waits, trivial⟩ fun _ => ?_)))
  have hended : ((e.cancelPending cfg J j).footing j).stage = some .ended ∧
      ((e.cancelPending cfg J j).footing j).closed = false ∧ ((e.cancelPending cfg J j).footing j).Free := by
    rw [sync_footing (by rintro ⟨⟩) (rfl : sync cfg J j .cancelPending e = some (.ok (), _))]
    refine ⟨?_, h.1.opened, h.2.holds, h.2.waits⟩
    rcases h.1.stage with hstage | hstage <;> simp [Footing.after, hstage]
  have hgather : KeepsFooting cfg J j l _ (ClientSession.ask .gatherPending) := keeps_ask hapart.toSteady rfl hapart.holds
  refine wp_mono _ ?_ s _ (hgather s _ hended)
  intro r s e hr
  have hended : (e.footing j).stage = some .ended ∧ (e.footing j).closed = false ∧ (e.footing j).Free := by
    cases r <;> exact hr
  refine wp_sync rfl ⟨hended.2.2.waits, hended.1⟩ fun _ => ?_
  have hover : ((e.onClient cfg J j .leave).footing j).At .closing := by
    rw [sync_footing (by rintro ⟨⟩) (rfl : sync cfg J j .unregister e = some (.ok (), _))]
    refine ⟨?_, hended.2.2.holds, hended.2.2.waits⟩
    simp [Footing.after, Footing.Left, hended.1]
  cases r <;> exact hover

theorem closeWriter_done {s : Keepalive} {e : Server} (h : (e.footing j).At .closing) :
    wp (world cfg J j) (cleanup.contract j l) ClientSession.closeWriter (fun _ _ e => (e.footing j).Done) s e := by
  refine wp_bind _ _ s e (wp_sync rfl ⟨h.2.waits, h.1⟩ fun _ => ?_)
  have hdone : ((e.setLink j fun l => { l with closed := true }).footing j).Done := by
    rw [sync_footing (by rintro ⟨⟩) (rfl : sync cfg J j .close e = some (.ok (), _))]
    exact ⟨h.1, rfl, h.2.holds, h.2.waits⟩
  have hwait : KeepsFooting cfg J j l Footing.Done (ClientSession.ask (.waitClosed 2)) :=
    keeps_ask Footing.Apart.done.toSteady rfl Footing.Apart.done.holds
  refine wp_mono _ ?_ s _ (Keeps.tryCatch (J := fun _ e => (e.footing j).Done) hwait (fun x => ?_) s _ hdone)
  · intro r s e hr
    cases r <;> exact hr
  · split
    · exact keeps_ask Footing.Apart.done.toSteady rfl Footing.Apart.done.holds
    · exact keeps_pure ()
    · exact keeps_pure ()
    · exact keeps_raise _

end

theorem receive_returns : Returns (fun l => l = .serving ∨ l = .ending) (ClientSession.receive cfg) := by
  have hserving : Returns (fun l => l = .serving ∨ l = .ending) (pure .serving : ClientSession ClientSession.Label) := .inl rfl
  have hending : Returns (fun l => l = .serving ∨ l = .ending) (pure .ending : ClientSession ClientSession.Label) := .inr rfl
  refine returns_bind _ fun running => ?_
  split
  · exact hending
  · refine returns_bind _ fun s => returns_bind _ fun outcome => ?_
    split
    · unfold ClientSession.handlePacket
      split
      · exact returns_bind _ fun _ => returns_bind _ fun _ => returns_bind _ fun _ => hserving
      · split
        · refine returns_bind _ fun _ => returns_bind _ fun _ => ?_
          dsimp only
          split
          · exact returns_bind _ fun _ => hserving
          · exact hserving
        · split
          · exact returns_bind _ fun _ => returns_bind _ fun _ => hserving
          · split
            · exact returns_bind _ fun _ => hserving
            · split
              · exact hserving
              · split
                · exact hending
                · exact hserving
    · exact hending
    · trivial

theorem cleanup_body (j : Nat) (l : ClientSession.Label) (s : Keepalive) (e : Server) (h : (e.footing j).At l) :
    wp (world cfg J j) (cleanup.contract j l) (ClientSession.body cfg l) (cleanup.post (mqttServer cfg J) j l) s e := by
  cases l with
  | connecting =>
      refine wp_bind _ _ s e (wp_mono _ ?_ s e (handshake_lands s e h))
      intro r s e hr
      cases r <;> exact hr
  | serving =>
      refine wp_bind _ _ s e (wp_mono _ ?_ s e (wp_returns _ receive_returns s e (keeps_receive s e h)))
      rintro r s e ⟨hlabel, hr⟩
      cases r with
      | ok l =>
          rcases hlabel l rfl with rfl | rfl
          · exact hr
          · exact hr
      | error x => exact hr
  | ending =>
      refine wp_bind _ _ s e (wp_mono _ ?_ s e (depart_lands h))
      intro r s e hr
      cases r <;> exact hr
  | closing =>
      refine wp_bind _ _ s e (wp_mono _ ?_ s e (closeWriter_done h))
      intro r s e hr
      cases r <;> exact hr

theorem ready_treads {f : Footing} {i : Op} (h : f.Ready i) (hi : i ≠ .lockGranted) : f.waits = 0 := by
  rw [h.waits, if_neg hi]

theorem cleanup_verified : cleanup.Verified (mqttServer cfg J) where
  body j l s e _ h := cleanup_body j l s e h
  inv_sync j i s e r e' hinv hready hsync := by
    have hregister : i = .register → (e.links j).client = none := by
      rintro rfl
      exact hready.owes.client
    have hothers : ∀ k, k ≠ j → SameFooting e e' k := by
      intro k hk
      refine sync_others hinv hsync hk ?_
      rintro rfl
      exact hready.owes
    refine hinv.own hready (sync_footing hregister hsync) hothers (sync_change hsync).moves.accepted ?_
    rintro rfl hnew
    cases hsync
    exact register_new (hregister rfl) hnew
  inv_resume j l i s e r e' hinv hready _ hresume := by
    have hchange : Change cfg J _ e e' := resume_change hresume
    by_cases hi : i = .lockGranted
    · subst hi
      have hfooting := resume_footing (fun hne => absurd rfl hne) ⟨e, (rfl : sync cfg J j .lockGranted e = none)⟩ hresume
      exact hinv.own hready hfooting (fun k => resume_others hresume) hchange.moves.accepted nofun
    · exact hinv.moves (fun k => (resume_same hresume hi k (ready_treads hready hi)).moves) hchange.moves.accepted
  inv_spawn j e s e' hinv _ hspawn := by
    cases hspawn
    exact hinv
  inv_tick b e e' _ hinv _ htick := hinv.moves (tick_moves htick) (tick_change htick).moves.accepted
  rely_sync j k i s e r e' hk hinv hready hsync := by
    refine (sync_others hinv hsync hk ?_).moves
    rintro rfl
    exact hready.owes
  rely_resume j k l i s e r e' hk _ _ _ hresume := (resume_others hresume hk).moves
  rely_spawn j k e s e' _ _ _ hspawn := by
    cases hspawn
    exact .same
  rely_tick k b e e' _ _ _ htick := tick_moves htick k
  guar_stable j i s e e' _ _ _ hready hm := hready.moves hm
  lab_stable j l s e e' _ _ h hm := h.moves hm
  fin_stable j s e e' _ _ h hm := h.moves hm
  idle_stable j e e' _ _ h hm := Footing.At.moves (l := .connecting) h hm
  spawn_lab j e s e' _ h hspawn := by
    cases hspawn
    exact h

theorem cleanup_holds {peers : Nat → Peer} {c : ServerConfig}
    (hrun : (mqttServer cfg J).Runs (fun _ _ _ => True) (listening peers) c) : cleanup.Holds (mqttServer cfg J) c := by
  have hstart : cleanup.Holds (mqttServer cfg J) (listening peers) := by
    refine ⟨⟨?_, ?_, ?_, ?_⟩, fun _ => ⟨⟨rfl, rfl, rfl⟩, rfl, rfl⟩⟩
    · rintro _ _ ⟨⟩
    · rintro _ _ _ ⟨⟩
    · rintro _ ⟨⟩
    · exact fun _ => Nat.zero_le 1
  refine (Protocol.Holds.run cleanup_verified (fun _ a _ _ => ⟨?_, trivial⟩) hrun hstart trivial).1
  cases a with
  | resume j i r => exact fun _ _ _ _ => trivial
  | _ => trivial

end Server

namespace MQTTProxy

variable {cfg : MqttSettings} {J : Codec} {s s' : MQTTProxy} {a : Act}

def Listed (s : MQTTProxy) : Prop := ∀ id c, Dict.get s.clients id = some c → (s.conn c).stage ≠ .over

theorem Listed.step (hregistry : Registry s) (h : Listed s) (hstep : step cfg J s a = some s') : Listed s' := by
  have hsame : stages a = false → Listed s' := by
    intro ha id c hc
    rw [(step_stages hstep ha).stage c]
    refine h id c ((step_shrinks hstep ?_).registered hc)
    rintro _ _ rfl
    cases ha
  cases step_cases hstep with
  | @register clientId sockname =>
      cases haddress : advertisedAddress cfg sockname with
      | none =>
          intro id c hc
          simp only [register, haddress] at hc ⊢
          exact h id c ((Shrinks.forget s clientId).registered hc)
      | some advertised =>
          intro id c hc
          simp only [register, haddress] at hc ⊢
          by_cases hid : id = clientId
          · subst hid
            rw [Dict.get_set_self] at hc
            cases hc
            rw [Function.update_self]
            rintro ⟨⟩
          · rw [Dict.get_set_ne hid] at hc
            rw [Function.update_of_ne (Nat.ne_of_lt (hregistry.accepted id c hc))]
            exact h id c hc
  | @finish c _ =>
      intro id k hk
      by_cases hkc : k = c
      · subst hkc
        simp [setConn]
      · have hstage := h id k hk
        simpa [setConn, hkc] using hstage
  | @leave c _ =>
      intro id k hk
      have hregistered : Dict.get s.clients id = some k := (Shrinks.forget s (s.conn c).clientId).registered hk
      have hkc : k ≠ c := by
        rintro rfl
        have hid : id = (s.conn k).clientId := (hregistry.named id k hregistered).symm
        have hgone : Dict.get (s.forget (s.conn k).clientId).clients id = none := by
          rw [hid]
          exact Dict.get_pop_self
        cases hgone.symm.trans hk
      have hstage := h id k hregistered
      simpa [setConn, forget, hkc] using hstage
  | _ => exact hsame rfl

end MQTTProxy

theorem Server.listed_runs {cfg : ServerSettings} {J : Codec} {peers : Nat → Peer} {c : ServerConfig}
    (hrun : (mqttServer cfg J).Runs (fun _ _ _ => True) (listening peers) c) : c.env.proxy.Listed := by
  refine (Server.keeps_proxy (I := fun s => s.Registry ∧ s.Listed) ⟨.init, ?_⟩ (fun s a s' h hstep => ?_) hrun).2
  · rintro _ _ ⟨⟩
  · exact ⟨h.1.step hstep, h.2.step h.1 hstep⟩

structure CleanedUp (e : Server) (j : Nat) : Prop where
  closed : (e.links j).closed = true
  gone : ∀ client, (e.links j).client = some client → (e.proxy.conn client).stage = .over
  unregistered : ∀ client id, (e.links j).client = some client → Dict.get e.proxy.clients id ≠ some client
  released : e.upstreamLock.holder ≠ some (.handler j)
  unqueued : Holder.handler j ∉ e.upstreamLock.waiters

theorem handlers_clean_up {cfg : ServerSettings} {J : Codec} {peers : Nat → Peer} {c : ServerConfig} {j : Nat} {s : Keepalive}
    (hrun : (mqttServer cfg J).Runs (fun _ _ _ => True) (listening peers) c) (hhalted : c.procs j = .halted s) :
    CleanedUp c.env j := by
  have hdone : (c.env.footing j).Done := by
    have hproc := (Server.cleanup_holds hrun).procs j
    rwa [hhalted] at hproc
  have hover : ∀ client, (c.env.links j).client = some client → (c.env.proxy.conn client).stage = .over := by
    intro client hclient
    refine hdone.left _ ?_
    rw [Server.footing, hclient]
    rfl
  refine ⟨hdone.closed, hover, fun client id hclient hlisted => ?_, of_decide_eq_false hdone.free.holds, ?_⟩
  · exact Server.listed_runs hrun id client hlisted (hover client hclient)
  · exact List.count_eq_zero.mp hdone.free.waits

-- Cancelled while it waits for a packet, a handler still goes through all of its clauses.
def quits (j : Nat) : List ServerAct :=
  [.run j, .tick (.cancel j), .resume j (.readPacket 90) (.error .cancelled), .run j, .resume j .gatherPending (.ok ()), .run j,
    .resume j (.waitClosed 2) (.ok ())]

def lastState (c : ServerConfig) (j : Nat) : Option Keepalive :=
  match c.procs j with
  | .halted s => some s
  | _ => none

theorem lastState_halted {c : ServerConfig} {j : Nat} {s : Keepalive} (h : lastState c j = some s) : c.procs j = .halted s := by
  unfold lastState at h
  split at h
  · next s' hhalted =>
      cases h
      exact hhalted
  · cases h

theorem handlers_clean_up_cancelled : ∃ c s,
    (mqttServer home plain).runActs (listening household) (dials ++ joins 0 ++ quits 0) = some c ∧
      c.procs 0 = .halted s ∧ CleanedUp c.env 0 := by
  have hend : (((mqttServer home plain).runActs (listening household) (dials ++ joins 0 ++ quits 0)).bind
      fun c => lastState c 0).isSome = true := by
    decide +kernel
  obtain ⟨s, hs⟩ := Option.isSome_iff_exists.mp hend
  obtain ⟨c, hc, hlast⟩ := Option.bind_eq_some_iff.mp hs
  have hhalted := lastState_halted hlast
  exact ⟨c, s, hc, hhalted, handlers_clean_up (System.runActs_runs _ _ hc) hhalted⟩

theorem lock_discipline {cfg : ServerSettings} {J : Codec} {peers : Nat → Peer} {c : ServerConfig}
    (hrun : (mqttServer cfg J).Runs (fun _ _ _ => True) (listening peers) c) (j : Nat) :
    (c.env.upstreamLock.holder = some (.handler j) ↔ ∃ l k s, c.procs j = .waiting l .confirmed k s) ∧
      (Holder.handler j ∈ c.env.upstreamLock.waiters ↔ ∃ l k s, c.procs j = .waiting l .lockGranted k s) := by
  have hproc := (Server.cleanup_holds hrun).procs j
  have hholds : c.env.upstreamLock.holder = some (.handler j) ↔ (c.env.footing j).holds = true := by
    exact (decide_eq_true_iff).symm
  have hwaits : Holder.handler j ∈ c.env.upstreamLock.waiters ↔ 0 < (c.env.footing j).waits := List.count_pos_iff.symm
  rw [hholds, hwaits]
  have hfree : (c.env.footing j).Free → (∀ l i k s, c.procs j ≠ .waiting l i k s) →
      ((c.env.footing j).holds = true ↔ ∃ l k s, c.procs j = .waiting l .confirmed k s) ∧
        (0 < (c.env.footing j).waits ↔ ∃ l k s, c.procs j = .waiting l .lockGranted k s) := by
    intro hfree hnone
    rw [hfree.holds, hfree.waits]
    refine ⟨iff_of_false nofun ?_, iff_of_false nofun ?_⟩
    · rintro ⟨l, k, s, hwaiting⟩
      exact hnone _ _ _ _ hwaiting
    · rintro ⟨l, k, s, hwaiting⟩
      exact hnone _ _ _ _ hwaiting
  cases hp : c.procs j with
  | idle =>
      rw [hp] at hproc hfree
      exact hfree hproc.2 nofun
  | ready l s =>
      rw [hp] at hproc hfree
      exact hfree (Footing.At.free hproc) nofun
  | halted s =>
      rw [hp] at hproc hfree
      exact hfree hproc.free nofun
  | waiting l i k s =>
      rw [hp] at hproc
      obtain ⟨⟨e₀, hblocked⟩, hready, _⟩ := hproc
      have hwaits : (c.env.footing j).waits = if i = .lockGranted then 1 else 0 := hready.waits
      have howes : (c.env.footing j).owes i := hready.owes
      rw [hwaits]
      cases i with
      | confirmed =>
          refine ⟨iff_of_true howes ⟨_, _, _, rfl⟩, iff_of_false (Nat.lt_irrefl 0) ?_⟩
          rintro ⟨_, _, _, ⟨⟩⟩
      | lockGranted =>
          refine ⟨iff_of_false (Bool.eq_false_iff.mp howes) ?_, iff_of_true Nat.one_pos ⟨_, _, _, rfl⟩⟩
          rintro ⟨_, _, _, ⟨⟩⟩
      | register | upstreamClient | publish | releaseLock | createSnapshotTask | cancelPending | unregister | close =>
          cases hblocked
      | _ =>
          refine ⟨iff_of_false (Bool.eq_false_iff.mp howes) ?_, iff_of_false (Nat.lt_irrefl 0) ?_⟩
          · rintro ⟨_, _, _, ⟨⟩⟩
          · rintro ⟨_, _, _, ⟨⟩⟩

def contends : List ServerAct :=
  [.tick (.receive 0 publishRequest), .run 0, .tick (.receive 1 publishRequest), .run 1]

theorem lock_discipline_contended : ∃ c,
    (mqttServer home plain).runActs (listening household) (dials ++ joins 0 ++ joins 1 ++ contends) = some c ∧
      (∃ l k s, c.procs 0 = .waiting l .confirmed k s) ∧ ∃ l k s, c.procs 1 = .waiting l .lockGranted k s := by
  have hend : ((mqttServer home plain).runActs (listening household) (dials ++ joins 0 ++ joins 1 ++ contends)).map
      (fun c => (c.env.upstreamLock.holder, c.env.upstreamLock.waiters)) = some (some (.handler 0), [.handler 1]) := by
    decide +kernel
  obtain ⟨c, hc, hlock⟩ := Option.map_eq_some_iff.mp hend
  obtain ⟨hholder, hwaiters⟩ := Prod.mk.inj hlock
  have hrun := System.runActs_runs _ _ hc
  refine ⟨c, hc, (lock_discipline hrun 0).1.mp hholder, (lock_discipline hrun 1).2.mp ?_⟩
  rw [hwaiters]
  exact List.mem_singleton_self _

end PandaProxy.Mqtt
