import NanoDelta.Runtime.Failover

/-!
# Back to the primary

What a route of two providers does over any sequence of calls of `run_once`, whatever the streams do.

* `Reported`: what holds after a call: what the snapshot says, the number of failovers, and that the cycle is back at the
  primary only after enough probes in a row, each of them successful and after the cooldown.
* `failover_holds`: it holds after every call.
-/

namespace NanoDelta.Runtime

open Library

/-! ### What the outcomes say -/

/-- The probes since the primary failed last. -/
def probesSince (primary : Provider) (outcomes : List (Instant × ProviderOutcome)) : List (Instant × Bool) :=
  outcomes.foldl (fun probes o => match o.2 with
    | .probed success => probes ++ [(o.1, success)]
    | .failed provider => if provider = primary then [] else probes
    | .consumed _ => probes) []

/-- The time at which the primary failed last. -/
def lastFailover (primary : Provider) (before : Option Instant) (outcomes : List (Instant × ProviderOutcome)) : Option Instant :=
  outcomes.foldl (fun t o => if o.2 = .failed primary then some o.1 else t) before

/-- How often the primary failed. -/
def failovers (primary : Provider) (outcomes : List (Instant × ProviderOutcome)) : ℕ :=
  outcomes.countP fun o => o.2 = .failed primary

/-- Since the last failover, a number of probes in a row was successful, each of them after the cooldown. -/
def Probed (feed : RealtimeFeed) (primary : Provider) (before : Option Instant) (outcomes : List (Instant × ProviderOutcome))
    (n : ℕ) : Prop :=
  ∃ earlier last, probesSince primary outcomes = earlier ++ last ∧ last.length = n ∧
    ∀ probe ∈ last, probe.2 = true ∧
      ∃ t ∈ lastFailover primary before outcomes, t + feed.recoveryCooldown ≤ probe.1

section Outcomes

variable {feed : RealtimeFeed} {primary provider : Provider} {before : Option Instant}
  {outcomes : List (Instant × ProviderOutcome)} {time : Instant} {n : ℕ}

theorem probesSince_concat (primary : Provider) (outcomes : List (Instant × ProviderOutcome)) (o : Instant × ProviderOutcome) :
    probesSince primary (outcomes ++ [o]) = match o.2 with
      | .probed success => probesSince primary outcomes ++ [(o.1, success)]
      | .failed provider => if provider = primary then [] else probesSince primary outcomes
      | .consumed _ => probesSince primary outcomes := by
  rw [probesSince, List.foldl_concat]
  rfl

theorem lastFailover_concat (primary : Provider) (before : Option Instant) (outcomes : List (Instant × ProviderOutcome))
    (o : Instant × ProviderOutcome) :
    lastFailover primary before (outcomes ++ [o]) =
      if o.2 = .failed primary then some o.1 else lastFailover primary before outcomes := by
  rw [lastFailover, List.foldl_concat]
  rfl

theorem failovers_concat (primary : Provider) (outcomes : List (Instant × ProviderOutcome)) (o : Instant × ProviderOutcome) :
    failovers primary (outcomes ++ [o]) = failovers primary outcomes + if o.2 = .failed primary then 1 else 0 := by
  simp [failovers, List.countP_append, List.countP_singleton]

theorem probed_zero : Probed feed primary before outcomes 0 :=
  ⟨probesSince primary outcomes, [], (List.append_nil _).symm, rfl, fun _ h => nomatch h⟩

/-- One more successful probe, after the cooldown. -/
theorem Probed.succ (h : Probed feed primary before outcomes n)
    (htime : ∃ t ∈ lastFailover primary before outcomes, t + feed.recoveryCooldown ≤ time) :
    Probed feed primary before (outcomes ++ [(time, .probed true)]) (n + 1) := by
  obtain ⟨earlier, last, hprobes, hlength, hlast⟩ := h
  have hfailover := lastFailover_concat primary before outcomes (time, .probed true)
  rw [if_neg (by simp)] at hfailover
  refine ⟨earlier, last ++ [(time, true)], ?_, ?_, ?_⟩
  · rw [probesSince_concat, hprobes]
    exact List.append_assoc ..
  · simp [hlength]
  · rw [hfailover]
    intro probe hprobe
    rcases List.mem_append.mp hprobe with hprobe | hprobe
    · exact hlast probe hprobe
    · rw [List.mem_singleton.mp hprobe]
      exact ⟨rfl, htime⟩

/-- An outcome of the fallback, or a consumed primary, does not change this. -/
theorem Probed.concat (h : Probed feed primary before outcomes n) {outcome : ProviderOutcome}
    (hprobed : ∀ success, outcome ≠ .probed success) (hfailed : outcome ≠ .failed primary) :
    Probed feed primary before (outcomes ++ [(time, outcome)]) n := by
  obtain ⟨earlier, last, hprobes, hlength, hlast⟩ := h
  refine ⟨earlier, last, ?_, hlength, ?_⟩
  · rw [probesSince_concat, ← hprobes]
    cases outcome with
    | probed success => exact absurd rfl (hprobed success)
    | consumed provider => rfl
    | failed provider => exact if_neg fun heq => hfailed (congrArg ProviderOutcome.failed heq)
  · rw [lastFailover_concat, if_neg hfailed]
    exact hlast

/-- The last ones of them. -/
theorem Probed.le (h : Probed feed primary before outcomes n) {m : ℕ} (hle : m ≤ n) :
    Probed feed primary before outcomes m := by
  obtain ⟨earlier, last, hprobes, hlength, hlast⟩ := h
  refine ⟨earlier ++ last.take (n - m), last.drop (n - m), ?_, ?_, fun probe hprobe => hlast probe (List.mem_of_mem_drop hprobe)⟩
  · rw [List.append_assoc, List.take_append_drop, hprobes]
  · rw [List.length_drop, hlength]
    omega

end Outcomes

/-! ### Calls -/

/-- What the outcomes say about a cycle that started with this control. -/
structure Noted (feed : RealtimeFeed) (primary : Provider) (start c : Control) : Prop where
  count : c.failoverCount = start.failoverCount + failovers primary c.outcomes
  failover : c.failedOverAt = lastFailover primary start.failedOverAt c.outcomes
  probes : Probed feed primary start.failedOverAt c.outcomes c.primarySuccesses

/-- The invariant between the calls. -/
structure Tracked (feed : RealtimeFeed) (primary : Provider) (start c : Control) : Prop
    extends Noted feed primary start c where
  active : feed.route[c.activeIndex]? = some c.activeProvider
  idle : c.activeIndex = 0 → c.primarySuccesses = 0

/-- What holds after a call of `run_once`, of which these are the outcomes. -/
structure Reported (feed : RealtimeFeed) (primary fallback : Provider) (start before after : Control)
    (new : List (Instant × ProviderOutcome)) : Prop where
  outcomes : after.outcomes = before.outcomes ++ new
  active : feed.route[after.activeIndex]? = some after.activeProvider
  healthy : ∀ t, (t, ProviderOutcome.consumed primary) ∈ new → after.state = .healthy
  failedOver : ∀ t, (t, ProviderOutcome.consumed fallback) ∈ new → after.state = .failedOver
  degraded : after.state = .degraded ↔ ∃ t, (t, ProviderOutcome.failed fallback) ∈ new
  count : after.failoverCount = start.failoverCount + failovers primary after.outcomes
  atPrimary : after.activeIndex = 0 ↔ ∃ t, (t, ProviderOutcome.consumed primary) ∈ new
  returned : before.activeIndex ≠ 0 → ∀ earlier o later, new = earlier ++ o :: later →
    o.2 = .consumed primary ∨ o.2 = .failed primary →
      Probed feed primary start.failedOverAt (before.outcomes ++ earlier) feed.recoverySuccesses

section Calls

variable {feed : RealtimeFeed} {primary fallback provider next : Provider} {start c c₁ c' : Control}
  {now time : Instant} {index : ℕ}

/-- A provider is consumed. -/
theorem Noted.consumed (h : Noted feed primary start c) : Noted feed primary start (c.consumed time provider index) := by
  constructor
  · simpa [Control.consumed, failovers_concat] using h.count
  · simpa [Control.consumed, lastFailover_concat] using h.failover
  · exact h.probes.concat (by simp) (by simp)

/-- The fallback fails. -/
theorem Noted.degraded (h : Noted feed primary start c) (hne : provider ≠ primary) :
    Noted feed primary start (c.degraded time provider) := by
  constructor
  · simpa [Control.degraded, failovers_concat, hne] using h.count
  · simpa [Control.degraded, lastFailover_concat, hne] using h.failover
  · exact h.probes.concat (by simp) (by simp [hne])

/-- The primary fails. -/
theorem Noted.failedOver (h : Noted feed primary start c) (hzero : c.primarySuccesses = 0) :
    Noted feed primary start (c.failedOver time primary next index) := by
  constructor
  · simp [Control.failedOver, failovers_concat, h.count, Nat.add_assoc]
  · simp [Control.failedOver, lastFailover_concat]
  · show Probed feed primary start.failedOverAt _ c.primarySuccesses
    exact hzero ▸ probed_zero

/-- A probe: it does not count as a failover. -/
theorem Noted.note_probe (h : Noted feed primary start c) (time : Instant) (success : Bool) :
    c.failoverCount = start.failoverCount + failovers primary (c.outcomes ++ [(time, .probed success)]) ∧
      c.failedOverAt = lastFailover primary start.failedOverAt (c.outcomes ++ [(time, .probed success)]) := by
  constructor
  · simpa [failovers_concat] using h.count
  · simpa [lastFailover_concat] using h.failover

/-- **Before the loop**: the cycle stays where it is, or is back at the primary after enough probes. -/
theorem Tracked.recovers (h : Tracked feed primary start c) (hrecovers : Control.Recovers feed now c c₁) :
    Noted feed primary start c₁ ∧ (c₁.activeIndex = 0 → c₁.primarySuccesses = 0) ∧
      (∃ probes, c₁.outcomes = c.outcomes ++ probes ∧ ∀ o ∈ probes, ∃ success, o.2 = .probed success) ∧
      (c₁.activeIndex = c.activeIndex ∧ c₁.activeProvider = c.activeProvider ∨
        c₁.activeIndex = 0 ∧ c.activeIndex ≠ 0 ∧
          Probed feed primary start.failedOverAt c₁.outcomes feed.recoverySuccesses) := by
  rcases hrecovers with rfl | ⟨hindex, hdue, success, rfl⟩
  · exact ⟨h.toNoted, h.idle, ⟨[], (List.append_nil _).symm, fun _ h => nomatch h⟩, Or.inl ⟨rfl, rfl⟩⟩
  · obtain ⟨hcount, hfailover⟩ := h.toNoted.note_probe now success
    have hprobes : ∃ probes, c.outcomes ++ [(now, .probed success)] = c.outcomes ++ probes ∧
        ∀ o ∈ probes, ∃ success, o.2 = ProviderOutcome.probed success :=
      ⟨[(now, .probed success)], rfl, fun o ho => ⟨success, by rw [List.mem_singleton.mp ho]⟩⟩
    rw [h.failover] at hdue
    cases success with
    | false => exact ⟨⟨hcount, hfailover, probed_zero⟩, fun _ => rfl, hprobes, Or.inl ⟨rfl, rfl⟩⟩
    | true =>
      have hsucc := h.probes.succ hdue
      by_cases henough : feed.recoverySuccesses ≤ c.primarySuccesses + 1
      · have heq : c.probed feed now true = { c with
            outcomes := c.outcomes ++ [(now, .probed true)], activeIndex := 0, primarySuccesses := 0 } := if_pos henough
        rw [heq]
        exact ⟨⟨hcount, hfailover, probed_zero⟩, fun _ => rfl, hprobes, Or.inr ⟨rfl, hindex, hsucc.le henough⟩⟩
      · have heq : c.probed feed now true = { c with
            outcomes := c.outcomes ++ [(now, .probed true)], primarySuccesses := c.primarySuccesses + 1 } := if_neg henough
        rw [heq]
        exact ⟨⟨hcount, hfailover, hsucc⟩, fun h₀ => absurd h₀ hindex, hprobes, Or.inl ⟨rfl, rfl⟩⟩

/-- **The loop**, over two providers. -/
theorem tries_cases (hroute : feed.route = [primary, fallback])
    (h : Control.Tries (feed.route.drop c.activeIndex) c.activeIndex c c') (hlt : c.activeIndex < 2) :
    c.activeIndex = 0 ∧
        ((∃ t, c' = c.consumed t primary 0) ∨
          (∃ t t', c' = (c.failedOver t primary fallback 1).consumed t' fallback 1) ∨
          ∃ t t', c' = (c.failedOver t primary fallback 1).degraded t' fallback) ∨
      c.activeIndex = 1 ∧
        ((∃ t, c' = c.consumed t fallback 1) ∨
          ∃ t active, (active = c.activeProvider ∨ active = fallback) ∧
            c' = ({ c with activeProvider := active } : Control).degraded t fallback) := by
  rw [hroute] at h
  have hindex : c.activeIndex = 0 ∨ c.activeIndex = 1 := by omega
  rcases hindex with hindex | hindex
  · refine Or.inl ⟨hindex, ?_⟩
    rw [hindex] at h
    cases h with
    | consumed t => exact Or.inl ⟨t, rfl⟩
    | failedOver t h =>
      cases h with
      | consumed t' => exact Or.inr (Or.inl ⟨t, t', rfl⟩)
      | degraded t' hactive =>
        refine Or.inr (Or.inr ⟨t, t', ?_⟩)
        rcases hactive with rfl | rfl <;> rfl
  · refine Or.inr ⟨hindex, ?_⟩
    rw [hindex] at h
    cases h with
    | consumed t => exact Or.inl ⟨t, rfl⟩
    | degraded t hactive => exact Or.inr ⟨t, _, hactive, rfl⟩

/-- Where a list is split at the only item with a property. -/
theorem eq_of_split {α : Type} {p : α → Prop} {xs ys earlier later : List α} {x o : α} (hxs : ∀ a ∈ xs, ¬ p a)
    (hys : ∀ a ∈ ys, ¬ p a) (ho : p o) (h : xs ++ x :: ys = earlier ++ o :: later) : earlier = xs := by
  rcases List.append_eq_append_iff.mp h with ⟨more, rfl, hmore⟩ | ⟨more, rfl, hmore⟩
  · cases more with
    | nil => exact List.append_nil xs
    | cons a more =>
      obtain ⟨-, rfl⟩ := List.cons.inj hmore
      exact absurd ho (hys o (List.mem_append_right _ (List.mem_cons_self ..)))
  · cases more with
    | nil => exact (List.append_nil earlier).symm
    | cons a more =>
      obtain ⟨rfl, -⟩ := List.cons.inj hmore
      exact absurd ho (hxs o (List.mem_append_right _ (List.mem_cons_self ..)))

/-- An outcome that is not a probe. -/
theorem mem_append_of_probes {probes more : List (Instant × ProviderOutcome)}
    (hprobes : ∀ o ∈ probes, ∃ success, o.2 = ProviderOutcome.probed success) {t : Instant} {outcome : ProviderOutcome}
    (hnot : ∀ success, outcome ≠ .probed success) : (t, outcome) ∈ probes ++ more ↔ (t, outcome) ∈ more := by
  refine ⟨fun hmem => ?_, List.mem_append_right _⟩
  refine (List.mem_append.mp hmem).resolve_left fun hmem => ?_
  obtain ⟨success, heq⟩ := hprobes _ hmem
  exact hnot success heq

/-- **A call** keeps the invariant, and what it says afterwards is what its outcomes say. -/
theorem Tracked.call (h : Tracked feed primary start c) (hroute : feed.route = [primary, fallback])
    (hrecovers : Control.Recovers feed now c c₁)
    (htries : Control.Tries (feed.route.drop c₁.activeIndex) c₁.activeIndex c₁ c') :
    Tracked feed primary start c' ∧ ∃ new, Reported feed primary fallback start c c' new := by
  have hne : primary ≠ fallback := by
    have hnodup := feed.route_nodup
    rw [hroute] at hnodup
    simpa using hnodup
  have hactive := h.active
  rw [hroute] at hactive
  have hlt : c.activeIndex < 2 := (List.getElem?_eq_some_iff.mp hactive).1
  have hfirst : feed.route[0]? = some primary := by rw [hroute]; rfl
  have hsecond : feed.route[1]? = some fallback := by rw [hroute]; rfl
  obtain ⟨hnoted, hidle, ⟨probes, houtcomes, hprobes⟩, hplace⟩ := h.recovers hrecovers
  have hlt₁ : c₁.activeIndex < 2 := by
    rcases hplace with ⟨heq, -⟩ | ⟨heq, -⟩ <;> omega
  have hmem : ∀ {t : Instant} {outcome : ProviderOutcome} {more : List (Instant × ProviderOutcome)},
      (∀ success, outcome ≠ .probed success) → ((t, outcome) ∈ probes ++ more ↔ (t, outcome) ∈ more) :=
    fun hnot => mem_append_of_probes hprobes hnot
  have hattempt : ∀ o ∈ probes, ¬ (o.2 = .consumed primary ∨ o.2 = .failed primary) := by
    intro o ho
    obtain ⟨success, heq⟩ := hprobes o ho
    simp [heq]
  -- Where the primary is tried in the call, and the cycle was not there before.
  have hreturned : c₁.activeIndex = 0 → c.activeIndex ≠ 0 → ∀ x more earlier o later,
      (∀ a ∈ more, ¬ (a.2 = .consumed primary ∨ a.2 = .failed primary)) →
      probes ++ x :: more = earlier ++ o :: later → (o.2 = .consumed primary ∨ o.2 = .failed primary) →
      Probed feed primary start.failedOverAt (c.outcomes ++ earlier) feed.recoverySuccesses := by
    intro h₁ h₀ x more earlier o later hmore hsplit ho
    rw [eq_of_split hattempt hmore ho hsplit, ← houtcomes]
    rcases hplace with ⟨heq, -⟩ | ⟨-, -, henough⟩
    · exact absurd (heq ▸ h₁) h₀
    · exact henough
  rcases tries_cases hroute htries hlt₁ with ⟨hindex, hcases⟩ | ⟨hindex, hcases⟩
  · have hzero : c₁.primarySuccesses = 0 := hidle hindex
    rcases hcases with ⟨t, rfl⟩ | ⟨t, t', rfl⟩ | ⟨t, t', rfl⟩
    · have hnoted' : Noted feed primary start (c₁.consumed t primary 0) := hnoted.consumed
      refine ⟨⟨hnoted', hfirst, fun _ => hzero⟩, probes ++ [(t, .consumed primary)], ?_, hfirst, fun _ _ => rfl, ?_, ?_,
        hnoted'.count, ?_, ?_⟩
      · simp [Control.consumed, houtcomes]
      · simp [hmem, hne.symm]
      · simp [hmem, Control.consumed]
      · simp [hmem, Control.consumed]
      · intro h₀ earlier o later hsplit ho
        exact hreturned hindex h₀ _ [] earlier o later (by simp) hsplit ho
    · have hnoted' : Noted feed primary start ((c₁.failedOver t primary fallback 1).consumed t' fallback 1) :=
        (hnoted.failedOver hzero).consumed
      refine ⟨⟨hnoted', hsecond, fun h₀ => absurd h₀ Nat.one_ne_zero⟩,
        probes ++ [(t, .failed primary), (t', .consumed fallback)], ?_, hsecond, ?_, fun _ _ => rfl, ?_, hnoted'.count,
        ?_, ?_⟩
      · simp [Control.consumed, Control.failedOver, houtcomes]
      · simp [hmem, hne]
      · simp [hmem, hne.symm, Control.consumed]
      · simp [hmem, hne, Control.consumed]
      · intro h₀ earlier o later hsplit ho
        exact hreturned hindex h₀ _ [(t', .consumed fallback)] earlier o later (by simp [hne.symm]) hsplit ho
    · have hnoted' : Noted feed primary start ((c₁.failedOver t primary fallback 1).degraded t' fallback) :=
        (hnoted.failedOver hzero).degraded hne.symm
      refine ⟨⟨hnoted', hsecond, fun h₀ => absurd h₀ Nat.one_ne_zero⟩,
        probes ++ [(t, .failed primary), (t', .failed fallback)], ?_, hsecond, ?_, ?_, ?_, hnoted'.count, ?_, ?_⟩
      · simp [Control.degraded, Control.failedOver, houtcomes]
      · simp [hmem]
      · simp [hmem]
      · simp [hmem, Control.degraded]
      · simp [hmem, Control.degraded, Control.failedOver]
      · intro h₀ earlier o later hsplit ho
        exact hreturned hindex h₀ _ [(t', .failed fallback)] earlier o later (by simp [hne.symm]) hsplit ho
  · have hnone : ∀ o : Instant × ProviderOutcome, o.2 = .consumed fallback ∨ o.2 = .failed fallback →
        ∀ earlier o' later, probes ++ [o] = earlier ++ o' :: later →
          ¬ (o'.2 = .consumed primary ∨ o'.2 = .failed primary) := by
      intro o ho earlier o' later hsplit ho'
      have hin : o' ∈ probes ++ [o] := hsplit ▸ List.mem_append_right _ (List.mem_cons_self ..)
      rcases List.mem_append.mp hin with hin | hin
      · exact hattempt o' hin ho'
      · rw [List.mem_singleton.mp hin] at ho'
        rcases ho with heq | heq <;> simp [heq, hne.symm] at ho'
    have hplace₁ : c₁.activeProvider = fallback := by
      rcases hplace with ⟨heq, hprovider⟩ | ⟨heq, -⟩
      · rw [← heq, hindex, ← hprovider] at hactive
        exact (Option.some.inj hactive).symm
      · omega
    rcases hcases with ⟨t, rfl⟩ | ⟨t, active, hactive', rfl⟩
    · have hnoted' : Noted feed primary start (c₁.consumed t fallback 1) := hnoted.consumed
      refine ⟨⟨hnoted', hsecond, fun h₀ => absurd h₀ Nat.one_ne_zero⟩, probes ++ [(t, .consumed fallback)], ?_, hsecond, ?_,
        fun _ _ => rfl, ?_, hnoted'.count, ?_, ?_⟩
      · simp [Control.consumed, houtcomes]
      · simp [hmem, hne]
      · simp [hmem, Control.consumed]
      · simp [hmem, hne, Control.consumed]
      · intro _ earlier o later hsplit ho
        exact absurd ho (hnone (t, .consumed fallback) (Or.inl rfl) earlier o later hsplit)
    · obtain rfl : active = fallback := hactive'.elim (fun heq => heq.trans hplace₁) id
      have hkept : Noted feed primary start { c₁ with activeProvider := active } :=
        ⟨hnoted.count, hnoted.failover, hnoted.probes⟩
      have hnoted' : Noted feed primary start (({ c₁ with activeProvider := active } : Control).degraded t active) :=
        hkept.degraded hne.symm
      refine ⟨⟨hnoted', hindex ▸ hsecond, fun h₀ => absurd (hindex.symm.trans h₀) Nat.one_ne_zero⟩,
        probes ++ [(t, .failed active)], ?_, hindex ▸ hsecond, ?_, ?_, ?_, hnoted'.count, ?_, ?_⟩
      · simp [Control.degraded, houtcomes]
      · simp [hmem]
      · simp [hmem]
      · simp [hmem, Control.degraded]
      · simp [hmem, Control.degraded, hindex]
      · intro _ earlier o later hsplit ho
        exact absurd ho (hnone (t, .failed active) (Or.inr rfl) earlier o later hsplit)

end Calls

/-! ### Runs -/

section Runs

variable (host : Host) (reader : Reader) (feed : RealtimeFeed)

variable {host reader feed} in
/-- What is created is tracked. -/
theorem tracked_create (primary : Provider) {loaded : Option FeedStateRecord × Dict (Provider × String) ℤ} {lake : Lake}
    {now : Instant} {start : FeedCycle} (h : feed.create loaded lake now = .ok start) :
    Tracked feed primary start.control start.control := by
  obtain ⟨hsuccesses, houtcomes, -⟩ := create_cases h
  have hnone : start.control.outcomes = [] := houtcomes
  constructor
  · constructor
    · simp [hnone, failovers]
    · simp [hnone, lastFailover]
    · show Probed feed primary start.control.failedOverAt _ start.primarySuccesses
      rw [hsuccesses]
      exact probed_zero
  · exact active_create h
  · exact fun _ => hsuccesses

/-- **Failover and recovery** of a route of two providers: over every sequence of calls of `run_once`, with whatever
arrives during them, each call is reported as it went, and the cycle is back at the primary only after enough probes in a
row, each of them successful and after the cooldown. -/
theorem failover_holds {primary fallback : Provider} (hroute : feed.route = [primary, fallback])
    {loaded : Option FeedStateRecord × Dict (Provider × String) ℤ} {lake : Lake} {now : Instant} {start : FeedCycle}
    (hstart : feed.create loaded lake now = .ok start) (turns : List Turn) (turn : Turn) :
    let before := (failover host reader feed).exec start turns
    let after := ((failover host reader feed).step before turn).1
    ∃ new, Reported feed primary fallback start.control before.control after.control new := by
  have hcall : ∀ (s : FeedCycle) (turn : Turn), Tracked feed primary start.control s.control →
      Tracked feed primary start.control ((failover host reader feed).step s turn).1.control ∧
        ∃ new, Reported feed primary fallback start.control s.control
          ((failover host reader feed).step s turn).1.control new := by
    intro s turn hs
    obtain ⟨c, hrecovers, htries⟩ := runOnce_control host reader feed (s.begin turn)
    exact hs.call hroute hrecovers htries
  have hrun : Tracked feed primary start.control ((failover host reader feed).exec start turns).control :=
    Machine.exec_invariant (P := fun s => Tracked feed primary start.control s.control)
      (fun s turn hs => (hcall s turn hs).1) (tracked_create primary hstart) turns
  exact (hcall _ turn hrun).2

end Runs

/-! ### A socket is lost -/

namespace Sample

/-- The crypto cycle of `build_realtime_cycles`, with slices of one quote. -/
def cryptoFeed : RealtimeFeed where
  toRealtimeMarketCycle := crypto
  route := [.okx, .poloniex]
  channels := (Dict.empty.set .okx "tickers").set .poloniex "ticker"
  maxEvents := 1
  stateStore := true
  route_ne := by decide
  route_nodup := by decide
  limits := by decide

/-- The cycle at noon of 2026-08-14 in UTC, with an empty store. -/
def started : FeedCycle where
  data := CycleState.start crypto
  snapshot := cryptoFeed.fresh (seconds 1786708800)
  now := seconds 1786708800
  writes := [.save (cryptoFeed.fresh (seconds 1786708800)).record]

/-- A payload with a quote, some seconds after noon. -/
def ticker (provider : Provider) (second : ℤ) : Arrival :=
  { time := seconds (1786708800 + second)
    frame := .payload (match provider with
      | .okx => payloadOf [("arg", .obj [("instId", .str "BTC-USDT")]), ("data", .obj [("last", .str "100"),
          ("ts", .str (toString (1000 * (1786708800 + second))))])]
      | _ => payloadOf [("symbol", .str "BTC_USDT"), ("price", .str "100"),
          ("ts", .str (toString (1000 * (1786708800 + second))))]) }

/-- The socket of OKX is lost, Poloniex has a quote a second later. -/
def lost : Turn where
  elapsed := 0
  lake := {}
  feeds
    | .okx => [⟨seconds 1786708800, .raised "socket lost"⟩]
    | provider => [ticker provider 1]

/-- Both have quotes, some seconds after noon, a number of seconds after the call before. -/
def quoted (elapsed : ℕ) (second : ℤ) : Turn where
  elapsed := elapsed * 1000000
  lake := {}
  feeds provider := [ticker provider second, ticker provider second]

end Sample

/-- The primary fails, and three probes of it are successful after the cooldown. -/
theorem failover_holds_recovered :
    let before := (failover .cpython .plain Sample.cryptoFeed).exec Sample.started
      [Sample.lost, Sample.quoted 30 31, Sample.quoted 1 32]
    let after := ((failover .cpython .plain Sample.cryptoFeed).step before (Sample.quoted 1 33)).1
    before.activeIndex = 1 ∧ after.activeIndex = 0 ∧
      ∃ new, Reported Sample.cryptoFeed .okx .poloniex Sample.started.control before.control after.control new := by
  have hstart : Sample.cryptoFeed.create (none, .empty) {} (seconds 1786708800) = .ok Sample.started := rfl
  exact ⟨by decide +kernel, by decide +kernel, failover_holds .cpython .plain Sample.cryptoFeed rfl hstart
    [Sample.lost, Sample.quoted 30 31, Sample.quoted 1 32] (Sample.quoted 1 33)⟩

end NanoDelta.Runtime
