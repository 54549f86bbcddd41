import Mathlib.Data.List.Range
import Mathlib.Tactic.IntervalCases
import PandaProxy.Reconnect.ReconnectPolicy

namespace PandaProxy.Reconnect

-- What an attempt, or the connection it made, fails with: the most specific class that is caught.
inductive Outage where
  | timeout
  | incompleteRead
  | connectionRefused
  | ssl
  | os
  | mqtt
  | other
  deriving DecidableEq, Repr

inductive Attempt where
  | fails (outage : Outage)
  | connects (ended : Option Outage)
  deriving DecidableEq, Repr

-- One turn of a loop: what it logs and how long it sleeps in the end.
structure Turn where
  log : List Entry
  slept : ℚ

abbrev UpstreamLoop := ReconnectPolicy → Attempt → ReconnectPolicy × Turn

namespace Chamber

def policy : ReconnectPolicy := {}

def rescue (p : ReconnectPolicy) : Outage → ReconnectPolicy × Entry
  | .timeout => (p, ⟨.warning, "Upstream connection timeout"⟩)
  | .incompleteRead => (p, ⟨.warning, "Upstream connection closed: incomplete read (%d bytes)"⟩)
  | .connectionRefused => p.failure "Connection refused by printer"
  | .ssl => p.failure "Upstream SSL error: %s"
  | .os => p.failure "Upstream connection failed: %s"
  | .mqtt => p.failure "Unexpected upstream error: %s: %s"
  | .other => p.failure "Unexpected upstream error: %s: %s"

def loop : UpstreamLoop := fun p a =>
  let attempt := p.logAttempt "Connecting to printer chamber image at %s:%d"
  match a with
  | .fails outage =>
      let (p, entry) := rescue p outage
      (p, ⟨[attempt, entry], p.delay⟩)
  | .connects ended =>
      let (p, recovered) := p.success
      let session := attempt :: recovered ++ [⟨.info, "Connected to printer chamber image stream"⟩]
      match ended with
      | none => (p, ⟨session ++ [⟨.error, "Invalid payload size: %d"⟩], p.delay⟩)
      | some outage =>
          let (p, entry) := rescue p outage
          (p, ⟨session ++ [entry], p.delay⟩)

def counts (outage : Outage) : Bool := outage != .timeout && outage != .incompleteRead

end Chamber

namespace Mqtt

def reconnectDelay : ℚ := 5

def policy : ReconnectPolicy := { baseDelay := reconnectDelay }

def rescue (p : ReconnectPolicy) : Outage → ReconnectPolicy × Entry
  | .mqtt => p.failure "Upstream MQTT connection error: %s"
  | _ => p.failure "Unexpected upstream error: %s"

def loop : UpstreamLoop := fun p a =>
  let attempt := p.logAttempt "Connecting to printer MQTT at %s:%d"
  match a with
  | .fails outage =>
      let (p, entry) := rescue p outage
      (p, ⟨[attempt, entry], p.delay⟩)
  | .connects ended =>
      let (p, recovered) := p.success
      let session := attempt :: recovered ++ [⟨.info, "Connected to printer MQTT broker (subscribed to %s)"⟩]
      match ended with
      | none => (p, ⟨session, p.delay⟩)
      | some outage =>
          let (p, entry) := rescue p outage
          (p, ⟨session ++ [entry], p.delay⟩)

def counts (_ : Outage) : Bool := true

end Mqtt

def after (loop : UpstreamLoop) : ReconnectPolicy → List Attempt → ReconnectPolicy
  | p, [] => p
  | p, a :: attempts => after loop (loop p a).1 attempts

def turns (loop : UpstreamLoop) : ReconnectPolicy → List Attempt → List Turn
  | _, [] => []
  | p, a :: attempts => (loop p a).2 :: turns loop (loop p a).1 attempts

def reported (turns : List Turn) : Nat := (turns.map fun t => t.log.countP Entry.reports).sum

structure BacksOff (loop : UpstreamLoop) (p : ReconnectPolicy) (outages : List Outage) : Prop where
  delays : (turns loop p (outages.map .fails)).map Turn.slept =
    (List.range outages.length).map (fun k => min (p.baseDelay * 2 ^ k) p.maxDelay)
  increasing : ((turns loop p (outages.map .fails)).map Turn.slept).Pairwise (· ≤ ·)
  bounded : ∀ t ∈ turns loop p (outages.map .fails), t.slept ≤ p.maxDelay
  reports : reported (turns loop p (outages.map .fails)) ≤ 1 + outages.length / p.reportEvery

-- A loop whose failures reach the policy where `counts` says so, and are reported one by one elsewhere.
structure Feeds (loop : UpstreamLoop) (counts : Outage → Bool) : Prop where
  fails : ∀ p outage, (loop p (.fails outage)).1 =
    { p with failures := if counts outage then p.failures + 1 else p.failures }
  connects : ∀ p ended, (loop p (.connects ended)).1 =
    { p with failures := if ended.any counts then 1 else 0 }
  sleeps : ∀ p a, (loop p a).2.slept = (loop p a).1.delay
  reports : ∀ p outage, (loop p (.fails outage)).2.log.countP Entry.reports =
    if counts outage then
      if p.failures = 0 ∨ (p.failures + 1) % p.reportEvery = 0 then 1 else 0
    else 1

theorem logAttempt_quiet (p : ReconnectPolicy) (message : String) : (p.logAttempt message).reports = false := by
  simp only [ReconnectPolicy.logAttempt]
  split <;> rfl

theorem failure_count (p : ReconnectPolicy) (first : Entry) (message : String) (h : first.reports = false) :
    [first, (p.failure message).2].countP Entry.reports =
      if p.failures = 0 ∨ (p.failures + 1) % p.reportEvery = 0 then 1 else 0 := by
  simp only [List.countP_cons, List.countP_nil, h, ReconnectPolicy.failure_reports, Bool.or_eq_true, decide_eq_true_eq,
    Bool.false_eq_true, if_false, Nat.add_zero, Nat.zero_add]

theorem warning_count (first : Entry) (message : String) (h : first.reports = false) :
    [first, ⟨.warning, message⟩].countP Entry.reports = 1 := by
  simp only [List.countP_cons, List.countP_nil, h]
  rfl

theorem chamber_feeds : Feeds Chamber.loop Chamber.counts where
  fails p outage := by cases outage <;> simp [Chamber.loop, Chamber.rescue, Chamber.counts]
  connects p ended := by
    cases ended with
    | none => simp [Chamber.loop, ReconnectPolicy.success]
    | some outage =>
        cases outage <;> simp [Chamber.loop, Chamber.rescue, Chamber.counts, ReconnectPolicy.success]
  sleeps p a := by
    cases a with
    | fails outage => rfl
    | connects ended => cases ended <;> rfl
  reports p outage := by
    have hquiet := logAttempt_quiet p "Connecting to printer chamber image at %s:%d"
    cases outage
    case timeout | incompleteRead =>
      exact warning_count _ _ hquiet
    all_goals exact failure_count p _ _ hquiet

theorem mqtt_feeds : Feeds Mqtt.loop Mqtt.counts where
  fails p outage := by cases outage <;> simp [Mqtt.loop, Mqtt.rescue, Mqtt.counts]
  connects p ended := by
    cases ended with
    | none => simp [Mqtt.loop, ReconnectPolicy.success]
    | some outage => cases outage <;> simp [Mqtt.loop, Mqtt.rescue, Mqtt.counts, ReconnectPolicy.success]
  sleeps p a := by
    cases a with
    | fails outage => rfl
    | connects ended => cases ended <;> rfl
  reports p outage := by
    have hquiet := logAttempt_quiet p "Connecting to printer MQTT at %s:%d"
    cases outage <;> exact failure_count p _ _ hquiet

def failuresAfter (f : Nat) : List Bool → List Nat
  | [] => []
  | true :: counted => (f + 1) :: failuresAfter (f + 1) counted
  | false :: counted => f :: failuresAfter f counted

def reportsAfter (every f : Nat) : List Bool → Nat
  | [] => 0
  | true :: counted => (if f = 0 ∨ (f + 1) % every = 0 then 1 else 0) + reportsAfter every (f + 1) counted
  | false :: counted => 1 + reportsAfter every f counted

section

variable {loop : UpstreamLoop} {counts : Outage → Bool}

theorem turns_slept (h : Feeds loop counts) (p : ReconnectPolicy) (outages : List Outage) :
    (turns loop p (outages.map .fails)).map Turn.slept =
      (failuresAfter p.failures (outages.map counts)).map
        (fun f => ({ p with failures := f } : ReconnectPolicy).delay) := by
  induction outages generalizing p with
  | nil => rfl
  | cons outage outages ih =>
      simp only [List.map_cons, turns, h.sleeps, h.fails, ih]
      cases counts outage <;> rfl

theorem turns_reported (h : Feeds loop counts) (p : ReconnectPolicy) (outages : List Outage) :
    reported (turns loop p (outages.map .fails)) =
      reportsAfter p.reportEvery p.failures (outages.map counts) := by
  induction outages generalizing p with
  | nil => rfl
  | cons outage outages ih =>
      have hrest := ih { p with failures := if counts outage then p.failures + 1 else p.failures }
      simp only [reported] at hrest
      simp only [List.map_cons, turns, reported, List.sum_cons, h.reports, h.fails, hrest]
      cases counts outage <;> rfl

theorem after_failures (h : Feeds loop counts) (p : ReconnectPolicy) (attempts : List Attempt) :
    after loop p attempts = { p with failures := (after loop p attempts).failures } := by
  induction attempts generalizing p with
  | nil => rfl
  | cons a attempts ih =>
      have hstep : ∃ f, (loop p a).1 = { p with failures := f } := by
        cases a with
        | fails outage => exact ⟨_, h.fails p outage⟩
        | connects ended => exact ⟨_, h.connects p ended⟩
      obtain ⟨f, hf⟩ := hstep
      rw [after, ih, hf]

end

def delayAfter (f : Nat) : ℚ := min (5 * 2 ^ (f - 1)) 60

theorem delayAfter_even {f : Nat} (h : 5 ≤ f) : delayAfter f = 60 := by
  refine min_eq_right ?_
  have hpow : (2 : ℚ) ^ 4 ≤ 2 ^ (f - 1) := pow_le_pow_right₀ (by norm_num) (by omega)
  linarith

theorem delayAfter_inj {f : Nat} (h : 1 ≤ f) (hlt : f < 5) : delayAfter f ≠ delayAfter (f + 1) := by
  interval_cases f <;> norm_num [delayAfter]

theorem slept_even {f j : Nat} (counted : List Bool) (hf : 5 ≤ f) (hj : 5 ≤ j) :
    (failuresAfter f counted).map delayAfter =
      (List.range' (j + 1) counted.length).map delayAfter := by
  induction counted generalizing f j with
  | nil => rfl
  | cons b counted ih =>
      have hrest : ∀ f', 5 ≤ f' → delayAfter f' :: (failuresAfter f' counted).map delayAfter =
          (List.range' (j + 1) (b :: counted).length).map delayAfter := by
        intro f' hf'
        rw [List.length_cons, List.range'_succ, List.map_cons, delayAfter_even hf',
          delayAfter_even (show 5 ≤ j + 1 by omega), ih hf' (show 5 ≤ j + 1 by omega)]
      cases b with
      | true => exact hrest (f + 1) (by omega)
      | false => exact hrest f hf

theorem slept_counted {f : Nat} (counted : List Bool) (hf : 1 ≤ f) (hle : f ≤ 5) :
    (failuresAfter f counted).map delayAfter = (List.range' (f + 1) counted.length).map delayAfter ↔
      false ∉ counted.take (5 - f) := by
  induction counted generalizing f with
  | nil => simp [failuresAfter]
  | cons b counted ih =>
      rcases Nat.lt_or_ge f 5 with hlt | hge
      · have htake : (b :: counted).take (5 - f) = b :: counted.take (5 - (f + 1)) := by
          rw [show 5 - f = 5 - (f + 1) + 1 by omega, List.take_succ_cons]
        rw [htake, List.length_cons, List.range'_succ, List.map_cons]
        cases b with
        | true =>
            rw [failuresAfter, List.map_cons, List.cons.injEq, ih (by omega) (by omega)]
            simp
        | false =>
            rw [failuresAfter, List.map_cons, List.cons.injEq]
            simp [delayAfter_inj hf hlt]
      · have hnone : (b :: counted).take (5 - f) = [] := by
          rw [show 5 - f = 0 by omega, List.take_zero]
        rw [hnone]
        simp [slept_even (b :: counted) hge hge]

theorem reportsAfter_one {f : Nat} (counted : List Bool) (hf : 1 ≤ f) :
    reportsAfter 25 f counted + f / 25 = counted.count false + (f + counted.count true) / 25 := by
  induction counted generalizing f with
  | nil => simp [reportsAfter]
  | cons b counted ih =>
      cases b with
      | true =>
          have hrest := ih (show 1 ≤ f + 1 by omega)
          simp only [reportsAfter, List.count_cons_self, List.count_cons_of_ne (by decide : true ≠ false),
            show f ≠ 0 by omega, false_or]
          split <;> omega
      | false =>
          have hrest := ih hf
          simp only [reportsAfter, List.count_cons_self, List.count_cons_of_ne (by decide : false ≠ true)]
          omega

theorem reportsAfter_zero (counted : List Bool) : reportsAfter 25 0 counted =
    counted.count false + counted.count true / 25 + if true ∈ counted then 1 else 0 := by
  induction counted with
  | nil => rfl
  | cons b counted ih =>
      cases b with
      | true =>
          have hrest := reportsAfter_one counted (le_refl 1)
          simp only [reportsAfter, List.count_cons_self, List.count_cons_of_ne (by decide : true ≠ false),
            true_or, if_true, List.mem_cons, Nat.zero_add]
          omega
      | false =>
          simp only [reportsAfter, List.count_cons_self, List.count_cons_of_ne (by decide : false ≠ true), ih,
            List.mem_cons, Bool.true_eq_false, false_or]
          omega

-- Every attempt is counted, or there is but one; a single one that is not may take the place of a
-- reminder.
def Regular (counted : List Bool) : Prop :=
  counted.length ≤ 1 ∨ false ∉ counted ∨
    (counted.count false = 1 ∧ 25 ∣ counted.length ∧ false ∉ counted.take 5)

section

variable {counted rest : List Bool}

theorem slept_fresh : (failuresAfter 0 counted).map delayAfter = (List.range' 1 counted.length).map delayAfter ↔
    counted.length ≤ 1 ∨ false ∉ counted.take 5 := by
  cases counted with
  | nil => simp [failuresAfter]
  | cons b rest =>
      cases b with
      | true =>
          have htail := slept_counted rest (le_refl 1) (by omega)
          rw [failuresAfter, List.length_cons, List.range'_succ, List.map_cons, List.map_cons, List.cons.injEq, htail]
          cases rest with
          | nil => simp
          | cons b rest => simp
      | false =>
          cases rest with
          | nil => simp [failuresAfter, delayAfter]
          | cons b rest =>
              have hne : delayAfter 2 ≠ delayAfter 0 ∧ delayAfter 2 ≠ delayAfter 1 := by norm_num [delayAfter]
              cases b with
              | true => simp [failuresAfter, List.range'_succ, hne.2.symm]
              | false => simp [failuresAfter, List.range'_succ, hne.1.symm]

theorem length_eq_counts : counted.length = counted.count true + counted.count false := by
  rw [List.length_eq_countP_add_countP (fun b => b == true)]
  congr 1
  refine List.countP_congr (fun b _ => ?_)
  cases b <;> simp

theorem regular_iff : (counted.length ≤ 1 ∨ false ∉ counted.take 5) ∧
    reportsAfter 25 0 counted ≤ 1 + counted.length / 25 ↔ Regular counted := by
  have hlength := @length_eq_counts counted
  have hnone : counted.count false = 0 ↔ false ∉ counted := List.count_eq_zero
  have hmem : (if true ∈ counted then 1 else 0) ≤ counted.count true := by
    split
    · next h => exact List.count_pos_iff.mpr h
    · omega
  rw [reportsAfter_zero]
  constructor
  · rintro ⟨hslept, hreports⟩
    rcases Nat.lt_or_ge 1 counted.length with hlong | hshort
    · have htake : false ∉ counted.take 5 := hslept.resolve_left (by omega)
      have htrue : true ∈ counted := by
        cases counted with
        | nil => simp at hlong
        | cons b rest => cases b <;> simp_all
      rw [if_pos htrue] at hreports
      rcases Nat.eq_zero_or_pos (counted.count false) with hz | hpos
      · exact .inr (.inl (hnone.mp hz))
      · exact .inr (.inr ⟨by omega, by omega, htake⟩)
    · exact .inl hshort
  · have hbound : (if true ∈ counted then 1 else 0) ≤ 1 := by split <;> omega
    rintro (hshort | hall | ⟨hone, hdvd, htake⟩)
    · exact ⟨.inl hshort, by omega⟩
    · have hz := hnone.mpr hall
      exact ⟨.inr (fun h => hall (List.mem_of_mem_take h)), by omega⟩
    · exact ⟨.inr htake, by omega⟩

theorem slept_lost (hne : counted ≠ []) :
    (failuresAfter 1 counted).map delayAfter = (List.range' 1 counted.length).map delayAfter ↔
      ∃ rest, counted = false :: rest ∧
        (failuresAfter 0 (true :: rest)).map delayAfter =
          (List.range' 1 (true :: rest).length).map delayAfter := by
  cases counted with
  | nil => exact absurd rfl hne
  | cons b rest =>
      cases b with
      | true =>
          have hne : delayAfter 2 ≠ delayAfter 1 := by norm_num [delayAfter]
          simp [failuresAfter, List.range'_succ, hne]
      | false => simp [failuresAfter]

end

def lost (counts : Outage → Bool) (before : List Attempt) : Bool :=
  match before.getLast? with
  | some (.connects ended) => ended.any counts
  | _ => false

def Attempt.connected : Attempt → Bool
  | .connects _ => true
  | .fails _ => false

def Undisturbed (counts : Outage → Bool) (before : List Attempt) (outages : List Outage) : Prop :=
  if lost counts before then ∃ rest, outages.map counts = false :: rest ∧ Regular (true :: rest)
  else Regular (outages.map counts)

section

variable {loop : UpstreamLoop} {counts : Outage → Bool} {before : List Attempt} {outages : List Outage}

theorem after_append (p : ReconnectPolicy) (first last : List Attempt) :
    after loop p (first ++ last) = after loop (after loop p first) last := by
  induction first generalizing p with
  | nil => rfl
  | cons a first ih => exact ih _

theorem after_before (h : Feeds loop counts) (hbefore : before.getLast?.all Attempt.connected = true) :
    after loop {} before = { failures := if lost counts before then 1 else 0 } := by
  rcases List.eq_nil_or_concat before with rfl | ⟨earlier, a, rfl⟩
  · rfl
  · rw [List.concat_eq_append, List.getLast?_append] at hbefore
    cases a with
    | fails outage => simp [Attempt.connected] at hbefore
    | connects ended =>
        have hlost : lost counts (earlier.concat (.connects ended)) = ended.any counts := by
          simp [lost]
        rw [hlost, List.concat_eq_append, after_append, after, after, h.connects, after_failures h {} earlier]

theorem delay_after (f : Nat) : ({ failures := f } : ReconnectPolicy).delay = delayAfter f :=
  ReconnectPolicy.delay_eq (by norm_num) (by norm_num) (by norm_num)

theorem backsOff_iff (h : Feeds loop counts) (f : Nat) (outages : List Outage) :
    BacksOff loop { failures := f } outages ↔
      (failuresAfter f (outages.map counts)).map delayAfter =
        (List.range' 1 (outages.map counts).length).map delayAfter ∧
      reportsAfter 25 f (outages.map counts) ≤ 1 + (outages.map counts).length / 25 := by
  have hslept := turns_slept h { failures := f } outages
  have hreported := turns_reported h { failures := f } outages
  simp only [delay_after] at hslept
  have hexpected : (List.range outages.length).map (fun k => min ((5 : ℚ) * 2 ^ k) 60) =
      (List.range' 1 (outages.map counts).length).map delayAfter := by
    rw [List.length_map, List.range'_eq_map_range, List.map_map]
    refine List.map_congr_left (fun k _ => ?_)
    simp [delayAfter]
  constructor
  · intro hb
    refine ⟨?_, ?_⟩
    · rw [← hslept, ← hexpected]
      exact hb.delays
    · rw [List.length_map, ← hreported]
      exact hb.reports
  · rintro ⟨hdelays, hreports⟩
    have hall : (turns loop { failures := f } (outages.map .fails)).map Turn.slept =
        (List.range outages.length).map (fun k => min ((5 : ℚ) * 2 ^ k) 60) := by
      rw [hslept, hdelays, hexpected]
    refine ⟨hall, ?_, ?_, ?_⟩
    · rw [hall, List.pairwise_map]
      refine List.pairwise_lt_range.imp (fun {a b} hab => ?_)
      have hpow : (2 : ℚ) ^ a ≤ 2 ^ b := pow_le_pow_right₀ (by norm_num) hab.le
      exact min_le_min_right 60 (by linarith)
    · intro t ht
      have hmem := List.mem_map_of_mem (f := Turn.slept) ht
      rw [hall] at hmem
      obtain ⟨k, _, hk⟩ := List.mem_map.mp hmem
      rw [← hk]
      exact min_le_right _ _
    · rw [hreported]
      simpa using hreports

theorem backsOff_undisturbed (h : Feeds loop counts) (hbefore : before.getLast?.all Attempt.connected = true)
    (hsome : outages ≠ []) :
    BacksOff loop (after loop {} before) outages ↔ Undisturbed counts before outages := by
  rw [after_before h hbefore, backsOff_iff h, Undisturbed]
  have hne : outages.map counts ≠ [] := by simpa using hsome
  split
  · rw [slept_lost hne]
    constructor
    · rintro ⟨⟨rest, hrest, hslept⟩, hreports⟩
      refine ⟨rest, hrest, regular_iff.mp ⟨slept_fresh.mp hslept, ?_⟩⟩
      rw [hrest] at hreports
      simpa [reportsAfter] using hreports
    · rintro ⟨rest, hrest, hregular⟩
      obtain ⟨hslept, hreports⟩ := regular_iff.mpr hregular
      refine ⟨⟨rest, hrest, slept_fresh.mpr hslept⟩, ?_⟩
      rw [hrest]
      simpa [reportsAfter] using hreports
  · rw [slept_fresh]
    exact regular_iff

end

theorem reconnect_backoff {before : List Attempt} {outages : List Outage}
    (hbefore : before.getLast?.all Attempt.connected = true) (hsome : outages ≠ []) :
    (BacksOff Chamber.loop (after Chamber.loop Chamber.policy before) outages ↔
        Undisturbed Chamber.counts before outages) ∧
      (BacksOff Mqtt.loop (after Mqtt.loop Mqtt.policy before) outages ↔ lost Mqtt.counts before = false) := by
  refine ⟨backsOff_undisturbed chamber_feeds hbefore hsome, ?_⟩
  have hmqtt := backsOff_undisturbed mqtt_feeds hbefore hsome
  have hall : false ∉ outages.map Mqtt.counts := by simp [Mqtt.counts]
  refine hmqtt.trans ?_
  rw [Undisturbed]
  cases lost Mqtt.counts before with
  | true =>
      refine ⟨?_, nofun⟩
      rintro ⟨rest, hrest, _⟩
      exact absurd (hrest ▸ List.mem_cons_self) hall
  | false => exact ⟨fun _ => rfl, fun _ => .inr (.inl hall)⟩

theorem timeouts_not_counted : ¬ ∀ (before : List Attempt) (outages : List Outage),
    before.getLast?.all Attempt.connected = true → outages ≠ [] →
      BacksOff Chamber.loop (after Chamber.loop Chamber.policy before) outages ∧
        BacksOff Mqtt.loop (after Mqtt.loop Mqtt.policy before) outages := by
  intro h
  have hdelays := (h [] [.timeout, .timeout] rfl (by simp)).1.delays
  revert hdelays
  decide +kernel

theorem reconnect_backoff_mixed :
    BacksOff Chamber.loop Chamber.policy [.connectionRefused, .os, .ssl, .connectionRefused] :=
  (@reconnect_backoff [] [.connectionRefused, .os, .ssl, .connectionRefused] rfl (by simp)).1.mpr
    (.inr (.inl (by decide)))

end PandaProxy.Reconnect
