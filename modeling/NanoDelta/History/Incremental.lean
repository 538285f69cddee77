import NanoDelta.History.Watermarks

/-!
# What an incremental sync leaves out

A `sync` of a job without a window asks a provider from its watermark on, less the overlap, as if everything between the
target start and the watermark had been asked for before.

* `Unbroken`: from some target start to the watermark everything was requested. Full syncs keep it, and so do windows
  that go on from what was requested.
* `nothing_is_skipped`: runs in which windows are answered only so, and target starts do not go back.
* `repair_hides_history`: the repair of a gap makes a watermark of its own, and the full sync after it leaves out the rest.
-/

namespace NanoDelta.History

open Library Providers

/-! ### Requests -/

/-- `target_start`. -/
def HistoryJob.targetStart (job : HistoryJob) (stop : Instant) : Instant :=
  match job.window with
  | some window => window.1
  | none => stop - seconds (86400 * job.targetDays)

/-- The target start of an attempt. -/
def Attempt.target (a : Attempt) : Instant := a.job.targetStart a.stop

/-- A window around this time was requested successfully, in an attempt with this key. -/
def Requested (log : List Attempt) (key : Market × Provider × String × String) (t : Instant) : Prop :=
  ∃ a ∈ log, a.key = key ∧ a.succeeded = true ∧
    ∃ window ∈ a.windows, (∃ rows, a.response window = .ok rows) ∧ window.1 ≤ t ∧ t < window.2

theorem Requested.append {log : List Attempt} {key : Market × Provider × String × String} {t : Instant}
    (h : Requested log key t) (more : List Attempt) : Requested (log ++ more) key t := by
  obtain ⟨a, ha, hrequested⟩ := h
  exact ⟨a, List.mem_append_left _ ha, hrequested⟩

section Conditions

variable (host : Host) (reader : Reader) {σ : Type} [HistoryStore σ]

/-- **An incremental sync leaves out nothing**: where an attempt of a job without a window starts after the target start,
everything in between was requested of this provider before. -/
def SkipsNothing (s : World σ × List Attempt) (call : HistoryCall) : Prop :=
  ∀ a ∈ call.attempts host reader s.1, a.job.window = none →
    ∀ t, a.target ≤ t → t < a.start → Requested s.2 a.key t

/-- A window is answered only by a provider of which everything between its watermark and the window was requested, and
a job without a window does not go back behind the target start at which such a job has begun. -/
def Contiguous (s : World σ × List Attempt) (call : HistoryCall) : Prop :=
  ∀ a ∈ call.attempts host reader s.1,
    (∀ window ∈ a.job.window, a.succeeded = true →
      ∃ mark ∈ s.1.times a.key, ∀ t, mark ≤ t → t < window.1 → Requested s.2 a.key t) ∧
    (a.job.window = none →
      ∀ b ∈ s.2, b.key = a.key → b.succeeded = true → b.job.window = none → b.start = b.target → b.target ≤ a.target)

/-- Where the windows begin at or before the watermarks, nothing is between. -/
theorem contiguous_of_le {s : World σ × List Attempt} {call : HistoryCall}
    (h : ∀ a ∈ call.attempts host reader s.1,
      (∀ window ∈ a.job.window, a.succeeded = true → ∃ mark ∈ s.1.times a.key, window.1 ≤ mark) ∧
      (a.job.window = none → ∀ b ∈ s.2, b.job.window = none → b.target ≤ a.target)) :
    Contiguous host reader s call := by
  intro a ha
  obtain ⟨hwindow, hfull⟩ := h a ha
  refine ⟨fun window hmem hsucceeded => ?_, fun hnone b hb _ _ hbfull _ => hfull hnone b hb hbfull⟩
  obtain ⟨mark, hmark, hle⟩ := hwindow window hmem hsucceeded
  exact ⟨mark, hmark, fun t ht hlt => absurd (hle.trans ht) (not_le.mpr hlt)⟩

end Conditions

/-! ### The invariant -/

/-- From the target start of a full sync to the watermark, everything was requested. -/
def Unbroken (times : Times) (log : List Attempt) : Prop :=
  ∀ key mark, times key = some mark →
    ∃ b ∈ log, (b.key = key ∧ b.succeeded = true ∧ b.job.window = none ∧ b.start = b.target) ∧
      ∀ t, b.target ≤ t → t ≤ mark → Requested log key t

section Invariant

variable {host : Host} {reader : Reader} {times times' : Times} {log : List Attempt}

/-- Without a window an attempt starts at its target, or at a watermark less the overlap. -/
theorem startAt_le {job : HistoryJob} (hwindow : job.window = none) (stop : Instant) (time : Option Instant) :
    job.startAt stop time = job.targetStart stop ∨ ∃ mark ∈ time, job.startAt stop time ≤ mark := by
  unfold HistoryJob.startAt HistoryJob.targetStart
  rw [hwindow]
  cases time with
  | none => exact Or.inl rfl
  | some mark =>
    dsimp only
    rcases le_total (stop - seconds (86400 * job.targetDays)) (mark - job.step * job.overlapBars) with hle | hle
    · refine Or.inr ⟨mark, rfl, ?_⟩
      rw [max_eq_right hle]
      exact sub_le_self _ (mul_nonneg job.step_pos.le job.settings.2.2)
    · exact Or.inl (max_eq_left hle)

/-- An attempt that succeeds has requested everything up to the open that it delivers. -/
theorem requested_of_delivers {a : Attempt} (hmem : a ∈ log) (hsucceeded : a.succeeded = true) (hanswered : a.Answered)
    {opened : Instant} (hdelivers : a.Delivers host reader opened) {t : Instant} (hstart : a.start ≤ t) (ht : t ≤ opened) :
    Requested log a.key t := by
  obtain ⟨window, hwindow, hin⟩ := exists_window stop_lt_windows hanswered hstart (ht.trans hdelivers.range.2)
  exact ⟨a, hmem, rfl, hsucceeded, window, hwindow, hanswered window hwindow, hin⟩

/-- **An attempt** keeps the invariant. -/
theorem Unbroken.does {a : Attempt} (h : Unbroken times log) (ha : a.Does host reader times times')
    (hcontiguous : ∀ window ∈ a.job.window, a.succeeded = true →
      ∃ mark ∈ times a.key, ∀ t, mark ≤ t → t < window.1 → Requested log a.key t) :
    Unbroken times' (log ++ [a]) := by
  have hold : Unbroken times (log ++ [a]) := by
    intro key mark hmark
    obtain ⟨b, hb, hfull, hrequested⟩ := h key mark hmark
    exact ⟨b, List.mem_append_left _ hb, hfull, fun t ht hle => (hrequested t ht hle).append _⟩
  have hself : a ∈ log ++ [a] := List.mem_append_right _ (List.mem_singleton_self a)
  obtain ⟨hstart, hdoes⟩ := ha
  split_ifs at hdoes with hsucceeded
  · obtain ⟨hanswered, opened, hdelivers, rfl⟩ := hdoes
    intro key mark hmark
    by_cases hkey : key = a.key
    · subst hkey
      rw [Function.update_self, Option.some.injEq] at hmark
      have hnew : ∀ t, a.start ≤ t → t ≤ opened → Requested (log ++ [a]) a.key t :=
        fun t => requested_of_delivers hself hsucceeded hanswered hdelivers
      by_cases hbefore : ∃ old ∈ times a.key, ∀ t, old ≤ t → t < a.start → Requested log a.key t
      · -- The attempt goes on from what was requested before.
        obtain ⟨old, hmem, hbetween⟩ := hbefore
        obtain ⟨b, hb, hfull, hrequested⟩ := hold a.key old hmem
        refine ⟨b, hb, hfull, fun t ht htmark => ?_⟩
        rcases le_or_gt t old with hlt | hgt
        · exact hrequested t ht hlt
        · rcases lt_or_ge t a.start with hlt | hge
          · exact (hbetween t hgt.le hlt).append _
          · refine hnew t hge ?_
            rw [Option.mem_def.mp hmem, Option.elim_some] at hmark
            rw [← hmark] at htmark
            exact (le_max_iff.mp htmark).resolve_left (not_le.mpr hgt)
      · -- The attempt begins at its own target.
        have hafter : ∀ old ∈ times a.key, old < a.start := by
          intro old hmem
          by_contra hle
          exact hbefore ⟨old, hmem, fun t ht hlt => absurd (ht.trans_lt hlt) hle⟩
        have hfull : a.job.window = none := by
          cases hwindow : a.job.window with
          | none => rfl
          | some window =>
            refine absurd ?_ hbefore
            rw [hstart, HistoryJob.startAt, hwindow]
            exact hcontiguous window hwindow hsucceeded
        have htarget : a.start = a.target := by
          rcases startAt_le hfull a.stop (times a.key) with htarget | ⟨old, hmem, hle⟩
          · exact hstart.trans htarget
          · exact absurd (hafter old hmem) (not_lt.mpr (hstart ▸ hle))
        refine ⟨a, hself, ⟨rfl, hsucceeded, hfull, htarget⟩, fun t ht htmark => ?_⟩
        refine hnew t (htarget ▸ ht) ?_
        cases hold : times a.key with
        | none =>
          rw [hold, Option.elim_none] at hmark
          exact hmark ▸ htmark
        | some old =>
          rw [hold, Option.elim_some, max_eq_right ((hafter old hold).le.trans hdelivers.range.1)] at hmark
          exact hmark ▸ htmark
    · rw [Function.update_of_ne hkey] at hmark
      exact hold key mark hmark
  · subst hdoes
    exact hold

/-- **The attempts of a call** keep it. -/
theorem Unbroken.chain {as : List Attempt} (h : Unbroken times log) (hchain : Chain host reader as times times')
    (hcontiguous : ∀ a ∈ as, ∀ window ∈ a.job.window, a.succeeded = true →
      ∃ mark ∈ times a.key, ∀ t, mark ≤ t → t < window.1 → Requested log a.key t) :
    Unbroken times' (log ++ as) := by
  induction as generalizing times log with
  | nil =>
    obtain rfl : times' = times := hchain
    rwa [List.append_nil]
  | cons a as ih =>
    obtain ⟨between, ha, has⟩ := hchain
    have hdone := h.does ha (hcontiguous a (List.mem_cons_self ..))
    rw [List.append_cons]
    refine ih hdone has fun a' ha' window hwindow hsucceeded => ?_
    obtain ⟨mark, hmark, hbetween⟩ := hcontiguous a' (List.mem_cons_of_mem _ ha') window hwindow hsucceeded
    obtain ⟨mark', hmark', hle⟩ := (chain_single ha).le hmark
    exact ⟨mark', hmark', fun t ht hlt => (hbetween t (hle.trans ht) hlt).append _⟩

end Invariant

/-! ### Where the attempts start -/

section Starts

variable {host : Host} {reader : Reader} {σ : Type} [HistoryStore σ] [LawfulHistoryStore σ]

/-- The attempts of a loop over providers start as the watermarks before it say: those that fail change none. -/
theorem start_of_mem_providerAttempts {engine : BackfillEngine} {job : HistoryJob} {now stop : Instant} {run : HistoryRun}
    {finishedAt : Instant} {providers : List Provider} {w : World σ} {a : Attempt}
    (ha : a ∈ providerAttempts host reader engine job now stop run finishedAt providers w) :
    a.job = job ∧ a.stop = stop ∧ a.start = job.startAt stop (w.times a.key) := by
  induction providers generalizing w with
  | nil => cases ha
  | cons provider providers ih =>
    rw [providerAttempts] at ha
    cases hclient : engine.clientOf job provider with
    | error text =>
      rw [hclient] at ha
      exact ih ha
    | ok found =>
      obtain ⟨client, providerSymbol⟩ := found
      have hstart := job.start_eq stop (w.watermark job provider)
      have hdoes := syncProvider_does host reader now client providerSymbol run finishedAt w hstart
      unfold Effect.Ends at hdoes
      rw [hclient] at ha
      dsimp only at ha
      have hrest : ∀ {w' : World σ}, w'.times = w.times →
          a ∈ Attempt.mk job now provider client providerSymbol (job.start stop (w.watermark job provider)) stop false ::
            providerAttempts host reader engine job now stop run finishedAt providers w' →
          a.job = job ∧ a.stop = stop ∧ a.start = job.startAt stop (w.times a.key) := by
        intro w' htimes ha
        rcases List.mem_cons.mp ha with rfl | ha
        · exact ⟨rfl, rfl, hstart⟩
        · exact htimes ▸ ih ha
      cases hattempt : syncProvider host reader job now provider client providerSymbol
          (job.start stop (w.watermark job provider)) stop run finishedAt w with
      | ok attempt w' =>
        rw [hattempt] at ha hdoes
        cases attempt with
        | ok run' =>
          rw [List.mem_singleton.mp ha]
          exact ⟨rfl, rfl, hstart⟩
        | error text => exact hrest hdoes.2 ha
      | error e w' =>
        rw [hattempt] at ha hdoes
        dsimp only at ha
        by_cases hkilled : e = .killed
        · rw [if_pos hkilled] at ha
          rw [List.mem_singleton.mp ha]
          exact ⟨rfl, rfl, hstart⟩
        · rw [if_neg hkilled] at ha
          exact hrest hdoes.2 ha

/-- The attempts of `sync` are for its job. -/
theorem start_of_mem_syncAttempts {engine : BackfillEngine} {job : HistoryJob} {now : DateTime}
    {startedAt finishedAt : Instant} {w : World σ} {a : Attempt}
    (ha : a ∈ syncAttempts host reader engine job now startedAt finishedAt w) :
    a.job = job ∧ a.start = job.startAt a.stop (w.times a.key) := by
  unfold syncAttempts at ha
  cases hplan : engine.plan job now with
  | error e =>
    rw [hplan] at ha
    cases ha
  | ok plan =>
    obtain ⟨now, stop, route⟩ := plan
    rw [hplan] at ha
    obtain ⟨hjob, hstop, hstart⟩ := start_of_mem_providerAttempts ha
    rw [times_saveRun, ← hstop] at hstart
    exact ⟨hjob, hstart⟩

/-- The attempts of `repair` have a window. -/
theorem window_of_mem_repairAttempts {engine : BackfillEngine} {job : HistoryJob} {gaps : List DateTime} {now : DateTime}
    {clock : ℕ → Instant × Instant} {w : World σ} {a : Attempt}
    (ha : a ∈ repairAttempts host reader engine job gaps now clock w) : a.job.window ≠ none := by
  unfold repairAttempts at ha
  cases hgroups : job.groups gaps with
  | error e =>
    rw [hgroups] at ha
    cases ha
  | ok groups =>
    rw [hgroups] at ha
    dsimp only at ha
    clear hgroups
    induction groups generalizing w with
    | nil => cases ha
    | cons group groups ih =>
      rcases List.mem_append.mp ha with ha | ha
      · unfold groupAttempts at ha
        cases hjob : job.repairing group.1 with
        | error e =>
          rw [hjob] at ha
          cases ha
        | ok repairJob =>
          rw [hjob] at ha
          rw [(start_of_mem_syncAttempts ha).1]
          unfold HistoryJob.repairing HistoryJob.within at hjob
          split_ifs at hjob
          cases hjob
          exact Option.some_ne_none _
      · cases hgroup : repairGroup host reader engine job now clock group w with
        | error e w' =>
          rw [hgroup] at ha
          cases ha
        | ok run w' =>
          rw [hgroup] at ha
          exact ih ha

/-- **Where a full attempt starts**: where the watermark before the call says. -/
theorem start_of_mem_attempts {call : HistoryCall} {w : World σ} {a : Attempt} (ha : a ∈ call.attempts host reader w)
    (hfull : a.job.window = none) : a.start = a.job.startAt a.stop (w.times a.key) := by
  cases call with
  | sync engine job now startedAt finishedAt =>
    obtain ⟨hjob, hstart⟩ := start_of_mem_syncAttempts ha
    rwa [hjob]
  | repair engine job gaps now clock => exact absurd hfull (window_of_mem_repairAttempts ha)

end Starts

/-! ### Runs -/

section Runs

variable {host : Host} {reader : Reader} {σ : Type} [HistoryStore σ] [LawfulHistoryStore σ]

/-- **One call** leaves out nothing, and keeps the invariant. -/
theorem Unbroken.call {s : World σ × List Attempt} {call : HistoryCall} (h : Unbroken s.1.times s.2)
    (hcontiguous : Contiguous host reader s call) :
    SkipsNothing host reader s call ∧
      Unbroken ((history host reader σ).step s call).1.1.times ((history host reader σ).step s call).1.2 := by
  refine ⟨?_, h.chain (call.chain s.1) fun a ha => (hcontiguous a ha).1⟩
  intro a ha hfull t ht hlt
  rcases startAt_le hfull a.stop (s.1.times a.key) with htarget | ⟨mark, hmark, hle⟩
  · have hstart : a.start = a.target := (start_of_mem_attempts ha hfull).trans htarget
    exact absurd (hstart ▸ hlt) (not_lt.mpr ht)
  · rw [← start_of_mem_attempts ha hfull] at hle
    obtain ⟨b, hb, ⟨hkey, hsucceeded, hbfull, hbegun⟩, hrequested⟩ := h a.key mark hmark
    have htarget := (hcontiguous a ha).2 hfull b hb hkey hsucceeded hbfull hbegun
    exact hrequested t (htarget.trans ht) (hlt.le.trans hle)

/-- **Incremental syncs**, from stores without watermarks: in a run of `sync` and `repair` in which windows go on from
what was requested, and target starts do not go back, none of them leaves anything out. -/
theorem nothing_is_skipped {w : World σ} (hw : ∀ key, w.times key = none) {calls : List HistoryCall}
    (h : (history host reader σ).Along (Contiguous host reader) (w, []) calls) :
    (history host reader σ).Along (SkipsNothing host reader) (w, []) calls :=
  Machine.along_of_invariant (P := fun s => Unbroken s.1.times s.2) (fun _ _ h hcontiguous => h.call hcontiguous)
    (fun key mark hmark => absurd ((hw key).symm.trans hmark) (Option.some_ne_none mark).symm) h

end Runs

/-! ### A repair before the first sync -/

namespace Sample

/-- A repair of the bar of 04:20, by the engine whose bars open at the given seconds. -/
def repairing (opens : List ℤ) : HistoryCall :=
  .repair (engine opens) job [.aware (seconds 1786681200)] (.aware now) fun _ => (now, now)

/-- A sync of the day, by such an engine. -/
def syncing (opens : List ℤ) : HistoryCall := .sync (engine opens) job (.aware now) now now

end Sample

/-- A sync, a repair of what it has, and a sync. -/
theorem nothing_is_skipped_repaired :
    (history .cpython .plain HistoryState).Along (SkipsNothing .cpython .plain) ({}, [])
      [Sample.syncing [1786681200], Sample.repairing [1786681200], Sample.syncing [1786681200, 1786681500]] :=
  nothing_is_skipped (fun _ => rfl)
    ⟨contiguous_of_le _ _ (by decide +kernel), contiguous_of_le _ _ (by decide +kernel),
      contiguous_of_le _ _ (by decide +kernel), trivial⟩

/-- A bar is repaired, and makes a watermark: of the day before it the sync asks for the last fifteen minutes. -/
theorem repair_hides_history :
    ¬ (history .cpython .plain HistoryState).Along (SkipsNothing .cpython .plain) ({}, [])
      [Sample.repairing [1786681200], Sample.syncing [1786681200]] := by
  rintro ⟨-, hskips, -⟩
  have hrequested : ∀ b ∈ ((history .cpython .plain HistoryState).step ({}, []) (Sample.repairing [1786681200])).1.2,
      ∀ window ∈ b.windows, seconds 1786681200 ≤ window.1 := by decide +kernel
  have hsync : ∃ a ∈ (Sample.syncing [1786681200]).attempts .cpython .plain
      ((history .cpython .plain HistoryState).step ({}, []) (Sample.repairing [1786681200])).1.1,
      a.job.window = none ∧ a.target < a.start ∧ a.target < seconds 1786681200 := by decide +kernel
  obtain ⟨a, ha, hfull, hlt, hbefore⟩ := hsync
  obtain ⟨b, hb, -, -, window, hwindow, -, hle, -⟩ := hskips a ha hfull a.target le_rfl hlt
  exact absurd (hrequested b hb window hwindow) (not_le.mpr (hle.trans_lt hbefore))

end NanoDelta.History
