import Mathlib
import NanoDelta.Finops.Core
import NanoDelta.Library.Budget

/-!
# The limits of a guard

A request is authorised at one time and recorded at a later one, possibly on another day. The limits are compared with
what is recorded and reserved when it is authorised.

* `Booked`: what a call does to the records and the reservations.
* `budgets_hold`: no day has more requests than its limit, no window of the subscription more than its own. No day has
  more tokens than its limit as long as a reservation is recorded that the ledger has as it was given.
* `one_id_for_two`: two reservations of one instant with one id.
-/

namespace NanoDelta.Finops

open Library

/-! ### What a call books -/

section Books

variable (host : Host) (guard : FinOpsGuard)

/-- The records and the reservations. -/
def InMemoryFinOpsLedger.books (ledger : InMemoryFinOpsLedger) : Dict String UsageRecord × Dict String Reservation :=
  (ledger.records, ledger.reservations)

/-- The windows of the subscription and their limits. -/
def FinOpsGuard.windows : List (Instant × Option ℕ × String) := guard.subscription.elim [] SubscriptionPlan.checks

/-- The limits have room for a reservation at a time. -/
structure Authorized (ledger : InMemoryFinOpsLedger) (t : Instant) (reservation : Reservation) : Prop where
  requests : (ledger.daily (dateOf t)).requests + ledger.reserved.requests + 1 ≤ guard.policy.dailyRequestLimit
  tokens : (ledger.daily (dateOf t)).tokens + ledger.reserved.tokens + reservation.estimatedTokens ≤
    guard.policy.dailyTokenLimit
  windows : ∀ window ∈ guard.windows, ∀ limit ∈ window.2.1,
    ledger.requestsSince (t - window.1) + ledger.reserved.requests + 1 ≤ limit

/-- What a call does to the records and the reservations. -/
inductive Booked (ledger : InMemoryFinOpsLedger) :
    Call → Dict String UsageRecord × Dict String Reservation → Prop where
  | same {call : Call} : Booked ledger call ledger.books
  | reserved {call : Call} {t : Instant} {reservation : Reservation} (htime : call.time = some t)
    (hroom : Authorized guard ledger t reservation) :
    Booked ledger call (ledger.records, ledger.reservations.set reservation.reservationId reservation)
  | released {call : Call} {reservationId : String} :
    Booked ledger call (ledger.records, ledger.reservations.erase reservationId)
  | recorded {reservation held : Reservation} {requestId model scope : String} {attribution : Attribution}
    {usage : TokenUsage} {t : Instant} {record : UsageRecord}
    (hheld : ledger.reservations.get? reservation.reservationId = some held)
    (hrecord : record.occurredAt = t ∧ record.usage = usage) (hnew : ledger.records.get? record.recordId = none) :
    Booked ledger (.record reservation requestId model scope attribution usage (.aware t))
      (ledger.records.set record.recordId record, ledger.reservations.erase reservation.reservationId)

variable {host guard} {ledger : InMemoryFinOpsLedger}

@[simp] theorem books_addAlert (alertType : String) (threshold : Decimal) (observed : ℚ) (now : Instant) :
    (addAlert host ledger alertType threshold observed now).books = ledger.books := by
  unfold addAlert
  dsimp only
  cases ledger.alerts.get? _ <;> rfl

@[simp] theorem books_kill (reason : String) (now : Instant) : (kill host reason now ledger).books = ledger.books := by
  rw [kill, books_addAlert]
  rfl

theorem books_foldl {α : Type} {f : InMemoryFinOpsLedger → α → InMemoryFinOpsLedger}
    (hf : ∀ ledger a, (f ledger a).books = ledger.books) (as : List α) (ledger : InMemoryFinOpsLedger) :
    (as.foldl f ledger).books = ledger.books := by
  induction as generalizing ledger with
  | nil => rfl
  | cons a as ih => exact (ih _).trans (hf ledger a)

theorem books_alertsAndPostcheck (now : Instant) : (alertsAndPostcheck host guard now ledger).books = ledger.books := by
  have hfold : ∀ daily, ((ratios guard daily).foldl (fun ledger alert =>
      guard.policy.alertThresholds.foldl (fun ledger threshold =>
        if threshold.value ≤ alert.2 then addAlert host ledger alert.1 threshold alert.2 now else ledger) ledger)
      ledger).books = ledger.books := by
    intro daily
    apply books_foldl
    intro ledger _
    apply books_foldl
    intro ledger threshold
    split_ifs
    · exact books_addAlert ..
    · rfl
  unfold alertsAndPostcheck
  dsimp only
  cases budgetReason guard _ with
  | none => exact hfold _
  | some reason => exact (books_kill reason now).trans (hfold _)

/-- A refusal changes nothing in the books. -/
theorem refuse_ends (reason : Option String) (now : Instant) :
    Effect.Ends (refuse host reason now) ledger (fun _ ledger' => reason = none ∧ ledger' = ledger)
      fun _ ledger' => reason ≠ none ∧ ledger'.books = ledger.books := by
  cases reason with
  | none => exact ⟨rfl, rfl⟩
  | some reason => exact ⟨by simp, books_kill reason now⟩

theorem of_subscriptionReason {now : Instant} (h : subscriptionReason guard ledger now = none) :
    ∀ window ∈ guard.windows, ∀ limit ∈ window.2.1,
      ledger.requestsSince (now - window.1) + ledger.reserved.requests + 1 ≤ limit := by
  intro window hwindow limit hlimit
  have hnone := List.findSome?_eq_none_iff.mp h window hwindow
  have hroom := (ite_eq_right_iff.mp hnone).mt (by simp)
  rw [Option.mem_def.mp hlimit] at hroom
  show _ + ledger.reservations.values.length + 1 ≤ limit
  simpa using hroom

theorem of_budgetReason {usage : DailyUsage} (h : budgetReason guard usage = none) :
    usage.requests ≤ guard.policy.dailyRequestLimit ∧ usage.tokens ≤ guard.policy.dailyTokenLimit := by
  unfold budgetReason at h
  split_ifs at h with hrequests htokens
  exact ⟨not_lt.mp hrequests, not_lt.mp htokens⟩

/-- **Authorising** reserves if the limits have room for it. -/
theorem authorize_ends (model scope : String) (input output : ℤ) (now : DateTime) :
    Effect.Ends (authorize host guard model scope input output now) ledger
      (fun reservation ledger' => ∃ t, now = .aware t ∧ Authorized guard ledger t reservation ∧
        ledger'.books = (ledger.records, ledger.reservations.set reservation.reservationId reservation))
      fun _ ledger' => ledger'.books = ledger.books := by
  cases now with
  | naive wall => exact rfl
  | aware t =>
    unfold authorize
    refine Effect.Ends.bind (Effect.ends_of_eq_ok (Effect.pure_apply t ledger) ?_)
    split_ifs with hnegative
    · exact rfl
    refine Effect.Ends.bind (Effect.ends_of_eq_ok (Effect.get_apply ledger) ?_)
    split_ifs with hkilled
    · exact rfl
    refine Effect.Ends.bind (Effect.ends_ofExcept ?_ fun _ => rfl)
    rintro ⟨estimatedCost, version⟩ -
    refine Effect.Ends.bind ((refuse_ends _ t).mono ?_ fun _ _ h => h.2)
    rintro _ _ ⟨hsubscription, rfl⟩
    refine Effect.Ends.bind ((refuse_ends _ t).mono ?_ fun _ _ h => h.2)
    rintro _ _ ⟨hbudget, rfl⟩
    refine Effect.Ends.bind (Effect.ends_of_eq_ok (Effect.modify_apply _ _) ?_)
    obtain ⟨hrequests, htokens⟩ := of_budgetReason hbudget
    exact ⟨t, rfl, ⟨hrequests, htokens, of_subscriptionReason hsubscription⟩, rfl⟩

/-- **Recording** takes the reservation away, and then has a new record or none. -/
theorem record_ends (reservation : Reservation) (requestId model scope : String) (attribution : Attribution)
    (usage : TokenUsage) (occurredAt : DateTime) :
    Effect.Ends (record host guard reservation requestId model scope attribution usage occurredAt) ledger
      (fun _ ledger' => Booked guard ledger (.record reservation requestId model scope attribution usage occurredAt)
        ledger'.books)
      fun _ ledger' => Booked guard ledger (.record reservation requestId model scope attribution usage occurredAt)
        ledger'.books := by
  cases occurredAt with
  | naive wall => exact .same
  | aware t =>
    unfold record
    refine Effect.Ends.bind (Effect.ends_of_eq_ok (Effect.pure_apply t ledger) ?_)
    refine Effect.Ends.bind (Effect.ends_of_eq_ok (Effect.get_apply ledger) ?_)
    cases hheld : ledger.reservations.get? reservation.reservationId with
    | none => exact .same
    | some held =>
      rw [if_neg (by simp)]
      refine Effect.Ends.bind (Effect.ends_of_eq_ok (Effect.modify_apply _ _) ?_)
      refine Effect.Ends.bind (Effect.ends_ofExcept ?_ fun _ => .released)
      rintro ⟨cost, version⟩ -
      dsimp only
      cases hrecord : ledger.records.get? (stableId host [guard.provider, requestId]) with
      | some existing =>
        dsimp only
        split_ifs
        · exact .released
        · exact .released
      | none =>
        dsimp only
        refine Effect.Ends.bind (Effect.ends_of_eq_ok (Effect.modify_apply _ _) ?_)
        refine Effect.Ends.bind (Effect.ends_of_eq_ok (Effect.modify_apply _ _) ?_)
        show Booked guard ledger _ (alertsAndPostcheck host guard t _).books
        rw [books_alertsAndPostcheck]
        let new : UsageRecord := ⟨stableId host [guard.provider, requestId], requestId, model, scope, guard.billingMode,
          attribution, usage, cost, version, t⟩
        have hnew : new.occurredAt = t ∧ new.usage = usage := ⟨rfl, rfl⟩
        exact .recorded hheld hnew hrecord

theorem books_setKillSwitch (active : Bool) (reason : String) (now : DateTime) :
    (Effect.final (setKillSwitch host active reason now ledger)).books = ledger.books := by
  unfold setKillSwitch
  rw [Effect.bind_of_ok (Effect.modify_apply _ ledger)]
  cases active with
  | false => rfl
  | true =>
    cases now with
    | naive wall => rfl
    | aware t => exact books_addAlert ..

variable (host guard ledger) in
/-- **A call** on the books. -/
theorem booked_after (call : Call) : Booked guard ledger call (call.after host guard ledger).books := by
  cases call with
  | authorize model scope input output now =>
    show Booked guard ledger _ (Effect.final (authorize host guard model scope input output now ledger)).books
    refine Effect.Ends.final (P := fun ledger' => Booked guard ledger _ ledger'.books)
      ((authorize_ends model scope input output now).mono ?_ ?_)
    · rintro reservation ledger' ⟨t, rfl, hroom, hbooks⟩
      rw [hbooks]
      exact .reserved rfl hroom
    · intro _ ledger' hbooks
      rw [hbooks]
      exact .same
  | record reservation requestId model scope attribution usage occurredAt =>
    exact (record_ends reservation requestId model scope attribution usage occurredAt).final
  | cancel reservation => exact .released
  | setKillSwitch active reason now =>
    show Booked guard ledger _ (Effect.final (setKillSwitch host active reason now ledger)).books
    rw [books_setKillSwitch]
    exact .same

end Books

/-! ### Windows of time -/

/-- The times of a day. -/
def onDay (day : ℤ) (t : Instant) : Bool := dateOf t = day

/-- The days. -/
def days : Set (Instant → Bool) := Set.range onDay

/-- The times from a start on, for so long. -/
def during (length start : Instant) (t : Instant) : Bool := start ≤ t ∧ t ≤ start + length

/-- The windows of one length. -/
def stretches (length : Instant) : Set (Instant → Bool) := Set.range (during length)

theorem dateOf_mono {t t' : Instant} (h : t ≤ t') : dateOf t ≤ dateOf t' := Int.ediv_le_ediv (by decide) h

/-- The requests of the day cover what may count for that day later. -/
theorem covers_days (now : Instant) : Covers days now (onDay (dateOf now)) := by
  rintro _ ⟨day, rfl⟩ t hnow ht r hr hrday
  unfold onDay at ht hrday ⊢
  rw [decide_eq_true_eq] at ht hrday ⊢
  have hfirst := dateOf_mono hr
  have hsecond := dateOf_mono hnow
  omega

/-- The requests since that long ago cover what may count in one window with something later. -/
theorem covers_stretches (length now : Instant) : Covers (stretches length) now fun r => decide (now - length ≤ r) := by
  rintro _ ⟨start, rfl⟩ t hnow ht r hr hrin
  unfold during at ht hrin
  rw [decide_eq_true_eq] at ht hrin ⊢
  linarith [ht.2, hrin.1]

section Accounts

variable {host : Host} {guard : FinOpsGuard} {ledger : InMemoryFinOpsLedger} {amount : UsageRecord → ℕ}
  {estimate : Reservation → ℕ} {limit : ℕ} {windows : Set (Instant → Bool)} {now : Instant}

/-- What is spent, by an amount for each record. -/
def entriesOf (amount : UsageRecord → ℕ) (records : Dict String UsageRecord) : List (Instant × ℕ) :=
  records.values.map fun record => (record.occurredAt, amount record)

theorem spentIn_entriesOf (w : Instant → Bool) (amount : UsageRecord → ℕ) (records : Dict String UsageRecord) :
    spentIn w (entriesOf amount records) =
      ((records.values.filter fun record => w record.occurredAt).map amount).sum := by
  unfold spentIn entriesOf
  rw [List.filter_map, List.map_map]
  rfl

/-- A request counts as one. -/
theorem spentIn_requests (w : Instant → Bool) (records : Dict String UsageRecord) :
    spentIn w (entriesOf (fun _ => 1) records) = records.values.countP fun record => w record.occurredAt := by
  rw [spentIn_entriesOf, List.countP_eq_length_filter]
  simp

theorem sum_one (reservations : Dict String Reservation) :
    (reservations.values.map fun _ => 1).sum = reservations.values.length := by
  simp

variable (amount estimate limit windows) in
/-- The records and the reservations are within a limit. -/
def Within (ledger : InMemoryFinOpsLedger) (now : Instant) : Prop :=
  Kept limit windows now (entriesOf amount ledger.records) (ledger.reservations.values.map estimate).sum

/-- **A call** keeps a limit: it is checked when a request is authorised, and a record takes no more than was reserved. -/
theorem Within.call (h : Within amount estimate limit windows ledger now) (call : Call)
    (htime : ∀ t ∈ call.time, now ≤ t)
    (hcheck : ∀ t reservation, Authorized guard ledger t reservation → ∃ checked, Covers windows t checked ∧
      spentIn checked (entriesOf amount ledger.records) +
        ((ledger.reservations.values.map estimate).sum + estimate reservation) ≤ limit)
    (hspend : ∀ reservation requestId model scope attribution usage occurredAt, call = .record reservation requestId
      model scope attribution usage occurredAt → ∀ held ∈ ledger.reservations.get? reservation.reservationId,
      ∀ record : UsageRecord, record.usage = usage → amount record ≤ estimate held) :
    Within amount estimate limit windows (call.after host guard ledger) (call.time.getD now) := by
  have hlater : now ≤ call.time.getD now := by
    cases hcall : call.time with
    | none => exact le_rfl
    | some t => exact htime t hcall
  have hbooked := booked_after host guard ledger call
  unfold Within at h ⊢
  have hrecords : (call.after host guard ledger).records = (call.after host guard ledger).books.1 := rfl
  have hreservations : (call.after host guard ledger).reservations = (call.after host guard ledger).books.2 := rfl
  rw [hrecords, hreservations]
  generalize (call.after host guard ledger).books = books at hbooked
  cases hbooked with
  | same => exact h.later hlater
  | @reserved _ t reservation hcall hroom =>
    obtain ⟨checked, hcovers, hle⟩ := hcheck t reservation hroom
    rw [hcall]
    refine (h.later (htime t hcall)).reserve hcovers ?_
    exact (Nat.add_le_add_left (Dict.sum_set_le estimate ledger.reservations _ reservation) _).trans hle
  | released => exact (h.release (Dict.sum_erase_le estimate ledger.reservations _)).later hlater
  | @recorded reservation held requestId model scope attribution usage t record hheld hrecord hnew =>
    have hentries : entriesOf amount (ledger.records.set record.recordId record) =
        entriesOf amount ledger.records ++ [(t, amount record)] := by
      rw [entriesOf, Dict.values_set_of_get?_eq_none hnew, List.map_append, List.map_singleton, hrecord.1]
      rfl
    show Kept limit windows t (entriesOf amount (ledger.records.set record.recordId record)) _
    rw [hentries]
    refine h.spend (htime t rfl) ?_
    rw [← Dict.sum_erase estimate hheld]
    exact Nat.add_le_add_right (hspend _ _ _ _ _ _ _ rfl held hheld record hrecord.2) _

end Accounts

/-! ### Runs -/

/-- The usage is no more than the reservation says. -/
def Call.Covered : Call → Prop
  | .record reservation _ _ _ _ usage _ => usage.totalTokens ≤ reservation.estimatedTokens
  | _ => True

instance : DecidablePred Call.Covered
  | .record reservation _ _ _ _ usage _ => Nat.decLe usage.totalTokens reservation.estimatedTokens
  | .authorize .. => isTrue trivial
  | .cancel _ => isTrue trivial
  | .setKillSwitch .. => isTrue trivial

/-- The ledger has the reservation that is recorded, with no smaller an estimate. -/
def Call.Settles (ledger : InMemoryFinOpsLedger) : Call → Prop
  | .record reservation .. =>
    ∀ held ∈ ledger.reservations.get? reservation.reservationId, reservation.estimatedTokens ≤ held.estimatedTokens
  | _ => True

instance (ledger : InMemoryFinOpsLedger) : DecidablePred (Call.Settles ledger)
  | .record .. => Option.decidableForallMem _
  | .authorize .. => isTrue trivial
  | .cancel _ => isTrue trivial
  | .setKillSwitch .. => isTrue trivial

section Runs

variable {host : Host} {guard : FinOpsGuard}

/-- **A run** with timestamps that do not decrease keeps what its calls keep. -/
theorem exec_timed {K : InMemoryFinOpsLedger → Instant → Prop} {C : InMemoryFinOpsLedger → Call → Prop}
    (hstep : ∀ ledger call now, K ledger now → C ledger call → (∀ t ∈ call.time, now ≤ t) →
      K (call.after host guard ledger) (call.time.getD now))
    {ledger : InMemoryFinOpsLedger} {now : Instant} (h : K ledger now) {calls : List Call}
    (htimes : (calls.filterMap Call.time).Pairwise (· ≤ ·)) (hnow : ∀ t ∈ calls.filterMap Call.time, now ≤ t)
    (hC : (finops host guard).Along C ledger calls) : ∃ now', K ((finops host guard).exec ledger calls) now' := by
  induction calls generalizing ledger now with
  | nil => exact ⟨now, h⟩
  | cons call calls ih =>
    cases hcall : call.time with
    | none =>
      rw [List.filterMap_cons_none hcall] at htimes hnow
      have hkept := hstep ledger call now h hC.1 (by simp [hcall])
      rw [hcall] at hkept
      exact ih hkept htimes hnow hC.2
    | some t =>
      rw [List.filterMap_cons_some hcall] at htimes hnow
      obtain ⟨hfirst, hrest⟩ := List.pairwise_cons.mp htimes
      have hkept := hstep ledger call now h hC.1 fun t' ht' => by
        rw [hcall] at ht'
        cases ht'
        exact hnow t (List.mem_cons_self ..)
      rw [hcall] at hkept
      exact ih hkept hrest hfirst hC.2

/-- A run of an empty ledger keeps a limit. -/
theorem within_exec (amount : UsageRecord → ℕ) (estimate : Reservation → ℕ) {limit : ℕ} (windows : Set (Instant → Bool))
    (hcheck : ∀ ledger t reservation, Authorized guard ledger t reservation → ∃ checked, Covers windows t checked ∧
      spentIn checked (entriesOf amount ledger.records) +
        ((ledger.reservations.values.map estimate).sum + estimate reservation) ≤ limit)
    {C : InMemoryFinOpsLedger → Call → Prop}
    (hspend : ∀ ledger call, C ledger call → ∀ reservation requestId model scope attribution usage occurredAt,
      call = .record reservation requestId model scope attribution usage occurredAt →
      ∀ held ∈ ledger.reservations.get? reservation.reservationId, ∀ record : UsageRecord, record.usage = usage →
        amount record ≤ estimate held)
    {calls : List Call} (htimes : (calls.filterMap Call.time).Pairwise (· ≤ ·))
    (hC : (finops host guard).Along C {} calls) :
    ∀ w ∈ windows, spentIn w (entriesOf amount ((finops host guard).exec {} calls).records) ≤ limit := by
  obtain ⟨start, hstart⟩ : ∃ start : Instant, ∀ t ∈ calls.filterMap Call.time, start ≤ t := by
    cases hlist : calls.filterMap Call.time with
    | nil => exact ⟨0, by simp⟩
    | cons t times =>
      rw [hlist] at htimes
      exact ⟨t, List.forall_mem_cons.mpr ⟨le_rfl, (List.pairwise_cons.mp htimes).1⟩⟩
  have hkept : ∃ now, Within amount estimate limit windows ((finops host guard).exec {} calls) now := by
    refine exec_timed (fun ledger call now h hcall htime => ?_) (Kept.start limit windows start) htimes hstart hC
    exact h.call call htime (hcheck ledger) (hspend ledger call hcall)
  obtain ⟨now, hkept⟩ := hkept
  exact hkept.spent

/-- **Budgets**: no day has more requests than its limit, and no window of the subscription more than its own. If the
ledger has every reservation that is recorded as it was given, no day has more tokens than its limit. -/
theorem budgets_hold (host : Host) (guard : FinOpsGuard) {calls : List Call}
    (htimes : (calls.filterMap Call.time).Pairwise (· ≤ ·)) :
    (∀ day, (((finops host guard).exec {} calls).daily day).requests ≤ guard.policy.dailyRequestLimit) ∧
    (∀ window ∈ guard.windows, ∀ limit ∈ window.2.1, ∀ start,
      ((finops host guard).exec {} calls).records.values.countP (fun record =>
        start ≤ record.occurredAt ∧ record.occurredAt ≤ start + window.1) ≤ limit) ∧
    ((finops host guard).Along (fun ledger call => call.Covered ∧ call.Settles ledger) {} calls →
      ∀ day, (((finops host guard).exec {} calls).daily day).tokens ≤ guard.policy.dailyTokenLimit) := by
  have hrequests : ∀ (ledger : InMemoryFinOpsLedger) day,
      (ledger.daily day).requests = spentIn (onDay day) (entriesOf (fun _ => 1) ledger.records) := by
    intro ledger day
    rw [spentIn_requests, List.countP_eq_length_filter]
    rfl
  have htokens : ∀ (ledger : InMemoryFinOpsLedger) day, (ledger.daily day).tokens =
      spentIn (onDay day) (entriesOf (fun record => record.usage.totalTokens) ledger.records) := by
    intro ledger day
    rw [spentIn_entriesOf]
    rfl
  have hany : (finops host guard).Along (fun _ _ => True) {} calls := Machine.along_of_forall (by simp) _
  refine ⟨fun day => ?_, fun window hwindow limit hlimit start => ?_, fun hsettles day => ?_⟩
  · rw [hrequests]
    refine within_exec (fun _ => 1) (fun _ => 1) days ?_ ?_ htimes hany _ ⟨day, rfl⟩
    · intro ledger t reservation hroom
      refine ⟨_, covers_days t, ?_⟩
      rw [← hrequests, sum_one, ← add_assoc]
      exact hroom.requests
    · exact fun _ _ _ _ _ _ _ _ _ _ _ _ _ _ _ => le_rfl
  · refine le_of_eq_of_le (spentIn_requests (during window.1 start) _).symm ?_
    refine within_exec (fun _ => 1) (fun _ => 1) (stretches window.1) ?_ ?_ htimes hany _ ⟨start, rfl⟩
    · intro ledger t reservation hroom
      refine ⟨_, covers_stretches window.1 t, ?_⟩
      rw [spentIn_requests, sum_one, ← add_assoc]
      exact hroom.windows window hwindow limit hlimit
    · exact fun _ _ _ _ _ _ _ _ _ _ _ _ _ _ _ => le_rfl
  · rw [htokens]
    refine within_exec (fun record => record.usage.totalTokens) Reservation.estimatedTokens days ?_ ?_ htimes hsettles _
      ⟨day, rfl⟩
    · intro ledger t reservation hroom
      refine ⟨_, covers_days t, ?_⟩
      rw [← htokens, ← add_assoc]
      exact hroom.tokens
    · rintro ledger _ ⟨hcover, hsettle⟩ reservation _ _ _ _ usage _ rfl held hheld record rfl
      exact hcover.trans (hsettle held hheld)

end Runs

/-! ### Two reservations with one id -/

namespace Sample

/-- A guard with a subscription, ten requests and a thousand tokens a day. -/
def guard : FinOpsGuard where
  provider := "qwen"
  billingMode := .subscription
  policy :=
    { dailyRequestLimit := 10, dailyTokenLimit := 1000, dailyCostLimitUsd := 0
      limits_pos := by decide, cost_nonneg := by decide, thresholds_mem := by decide +kernel }
  subscription := some
    { planId := "plan-1", monthlyFeeUsd := 50, fiveHourRequestLimit := some 5, fee_nonneg := by decide
      limits_pos := by decide }
  required := by decide

/-- Noon of 2026-08-14 in UTC. -/
def noon : Instant := seconds 1786708800

/-- The authorisation of a call, some seconds after noon. -/
def authorize (second : ℤ) (input output : ℤ) : Call :=
  .authorize "qwen-max" "intl" input output (.aware (noon + seconds second))

/-- What is reserved for a call, some seconds after noon, as this request of the day. -/
def reservation (second : ℤ) (tokens requests : ℕ) : Reservation where
  reservationId := stableId .cpython ["qwen-max", "intl", isoformat (noon + seconds second), toString requests]
  estimatedTokens := tokens
  estimatedCostUsd := 0
  createdAt := noon + seconds second

/-- What a reservation is for. -/
def attribution : Attribution := ⟨some .nse, "review", "candidate", by decide⟩

/-- The record of a call with a reservation, and with this usage. -/
def record (second : ℤ) (reservation : Reservation) (requestId : String) (input output : ℕ) : Call :=
  .record reservation requestId "qwen-max" "intl" attribution ⟨input, output, 0, 0, Nat.zero_le _⟩
    (.aware (noon + seconds second))

/-- Two calls of one instant, of which the first is cancelled and a third one takes the id of the second. Then another
call, and the records of the second and of the last. -/
def calls : List Call :=
  [authorize 0 5 5, authorize 0 400 500, .cancel (reservation 0 10 1), authorize 0 5 5, authorize 1 400 500,
    record 2 (reservation 0 900 2) "request-1" 400 500, record 3 (reservation 1 900 2) "request-2" 400 500]

/-- A call before midnight is recorded after it. -/
def overnight : List Call :=
  [authorize 43199 400 500, record 43201 (reservation 43199 900 1) "request-1" 400 500]

end Sample

/-- A call that is recorded on the next day is within the limits of both days. -/
theorem budgets_hold_overnight :
    ((finops .cpython Sample.guard).exec {} Sample.overnight).records.values.length = 1 ∧
      ∀ day, (((finops .cpython Sample.guard).exec {} Sample.overnight).daily day).tokens ≤ 1000 := by
  obtain ⟨hsettles, hone⟩ : (finops .cpython Sample.guard).Along (fun ledger call => call.Covered ∧ call.Settles ledger) {}
        Sample.overnight ∧
      ((finops .cpython Sample.guard).exec {} Sample.overnight).records.values.length = 1 := by
    simp only [Sample.overnight, Sample.reservation, ← Host.evaluated_eq]
    decide +kernel
  exact ⟨hone, (budgets_hold .cpython Sample.guard (by decide +kernel)).2.2 hsettles⟩

/-- Of a thousand tokens of the day, eighteen hundred are used: the reservation for nine hundred is replaced by one for
ten. -/
theorem one_id_for_two :
    (Sample.calls.filterMap Call.time).Pairwise (· ≤ ·) ∧ (∀ call ∈ Sample.calls, call.Covered) ∧
      (finops .cpython Sample.guard).outputs {} Sample.calls =
        [some (Sample.reservation 0 10 1), some (Sample.reservation 0 900 2), none, some (Sample.reservation 0 10 2),
          some (Sample.reservation 1 900 2), none, none] ∧
      Sample.guard.policy.dailyTokenLimit <
        (((finops .cpython Sample.guard).exec {} Sample.calls).daily (dateOf Sample.noon)).tokens := by
  simp only [Sample.calls, Sample.reservation, ← Host.evaluated_eq]
  decide +kernel

end NanoDelta.Finops
