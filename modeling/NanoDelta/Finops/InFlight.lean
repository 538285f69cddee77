import NanoDelta.Finops.Budgets
import NanoDelta.Library.Tickets

/-!
# Calls in flight

A call of the model is in flight from its authorisation until it is recorded or cancelled. Its reservation is in the
ledger under an id, which is a hash of the model, the scope, the time and the number of the request that day. The number
goes down again when a call is cancelled.

* `Admits`: when `authorize` reserves.
* `desk`: the guard with its callers, who record and cancel what they were given.
* `in_flight_iff`: when the reservations are those of the calls in flight.
-/

namespace NanoDelta.Finops

open Library

section Reserving

variable (host : Host) (guard : FinOpsGuard) (ledger : InMemoryFinOpsLedger)

/-- The number of a request among those of its day that are recorded or reserved. -/
def requestNumber (t : Instant) : ℕ := (ledger.daily (dateOf t)).requests + ledger.reserved.requests + 1

/-- The id that a request is reserved under. -/
def requestId (model scope : String) (t : Instant) : String :=
  stableId host [model, scope, isoformat t, toString (requestNumber ledger t)]

/-- No check of `authorize` refuses the request. -/
def Admits (model scope : String) (input output : ℤ) (t : Instant) : Prop :=
  0 ≤ input ∧ 0 ≤ output ∧ ledger.killSwitch = false ∧
    ∃ price, cost guard model scope ⟨input.toNat, output.toNat, 0, 0, zero_le_toNat input⟩ = .ok price ∧
      subscriptionReason guard ledger t = none ∧
      budgetReason guard (projectedUsage ledger t (input.toNat + output.toNat) price.1) = none

variable {host guard ledger}

/-- **Authorising** reserves just if no check refuses. -/
theorem authorize_spec (model scope : String) (input output : ℤ) (t : Instant) :
    Effect.Ends (authorize host guard model scope input output (.aware t)) ledger
      (fun reservation ledger' => Admits guard ledger model scope input output t ∧
        reservation.reservationId = requestId host ledger model scope t ∧
        ledger'.reservations = ledger.reservations.set reservation.reservationId reservation)
      fun _ ledger' => ¬ Admits guard ledger model scope input output t ∧
        ledger'.reservations = ledger.reservations := by
  unfold authorize
  refine Effect.Ends.bind (Effect.ends_of_eq_ok (Effect.pure_apply t ledger) ?_)
  split_ifs with hnegative
  · refine ⟨?_, rfl⟩
    rintro ⟨hinput, houtput, -⟩
    omega
  have htokens : 0 ≤ input ∧ 0 ≤ output := by omega
  refine Effect.Ends.bind (Effect.ends_of_eq_ok (Effect.get_apply ledger) ?_)
  split_ifs with hkilled
  · refine ⟨?_, rfl⟩
    rintro ⟨-, -, hoff, -⟩
    rw [hoff] at hkilled
    cases hkilled
  cases hcost : cost guard model scope ⟨input.toNat, output.toNat, 0, 0, Nat.zero_le _⟩ with
  | error e =>
    have hrefused : ¬ Admits guard ledger model scope input output t := by
      rintro ⟨-, -, -, price, hprice, -⟩
      rw [hcost] at hprice
      cases hprice
    refine Effect.Ends.bind (Effect.ends_of (fun a s' h => ?_) fun _ s' h => ?_)
    · rw [hcost] at h
      cases h
    · rw [hcost] at h
      cases h
      exact ⟨hrefused, rfl⟩
  | ok price =>
    have hprice : (Effect.ofExcept (cost guard model scope ⟨input.toNat, output.toNat, 0, 0, Nat.zero_le _⟩) :
        EStateM PyError InMemoryFinOpsLedger _) ledger = .ok price ledger := by
      rw [hcost]
      rfl
    refine Effect.Ends.bind (Effect.ends_of_eq_ok hprice ?_)
    refine Effect.Ends.bind ((refuse_ends _ t).mono ?_ ?_)
    swap
    · rintro _ ledger' ⟨hreason, hbooks⟩
      refine ⟨?_, congrArg Prod.snd hbooks⟩
      rintro ⟨-, -, -, -, -, hnone, -⟩
      exact hreason hnone
    rintro _ _ ⟨hsubscription, rfl⟩
    refine Effect.Ends.bind ((refuse_ends _ t).mono ?_ ?_)
    swap
    · rintro _ ledger' ⟨hreason, hbooks⟩
      refine ⟨?_, congrArg Prod.snd hbooks⟩
      rintro ⟨-, -, -, price', hprice', -, hnone⟩
      rw [hcost] at hprice'
      cases hprice'
      exact hreason hnone
    rintro _ _ ⟨hbudget, rfl⟩
    refine Effect.Ends.bind (Effect.ends_of_eq_ok (Effect.modify_apply _ _) ?_)
    exact ⟨⟨htokens.1, htokens.2, by simpa using hkilled, price, hcost, hsubscription, hbudget⟩, rfl, rfl⟩

/-- **Recording** takes the reservation, whether it returns or raises. -/
theorem reservations_record (reservation : Reservation) (requestId model scope : String) (attribution : Attribution)
    (usage : TokenUsage) (t : Instant) :
    Effect.Ends (record host guard reservation requestId model scope attribution usage (.aware t)) ledger
      (fun _ ledger' => ledger'.reservations = ledger.reservations.erase reservation.reservationId)
      fun _ ledger' => ledger'.reservations = ledger.reservations.erase reservation.reservationId := by
  unfold record
  refine Effect.Ends.bind (Effect.ends_of_eq_ok (Effect.pure_apply t ledger) ?_)
  refine Effect.Ends.bind (Effect.ends_of_eq_ok (Effect.get_apply ledger) ?_)
  cases hheld : ledger.reservations.get? reservation.reservationId with
  | none => exact (Dict.erase_of_get?_eq_none hheld).symm
  | some held =>
    rw [if_neg (by simp)]
    refine Effect.Ends.bind (Effect.ends_of_eq_ok (Effect.modify_apply _ _) ?_)
    refine Effect.Ends.bind (Effect.ends_ofExcept ?_ fun _ => rfl)
    rintro ⟨cost, version⟩ -
    dsimp only
    cases hrecord : ledger.records.get? (stableId host [guard.provider, requestId]) with
    | some existing =>
      dsimp only
      split_ifs
      · exact rfl
      · exact rfl
    | none =>
      dsimp only
      refine Effect.Ends.bind (Effect.ends_of_eq_ok (Effect.modify_apply _ _) ?_)
      refine Effect.Ends.bind (Effect.ends_of_eq_ok (Effect.modify_apply _ _) ?_)
      exact congrArg Prod.snd (books_alertsAndPostcheck t)

end Reserving

/-! ### The callers -/

/-- The ledger, the reservations that were returned, in order, and the calls in flight, with the number of the
reservation. -/
structure Desk where
  ledger : InMemoryFinOpsLedger := {}
  returned : List Reservation := []
  inFlight : List (ℕ × Reservation) := []

/-- A call of the guard by one who records or cancels the reservation with a number. -/
inductive Act where
  | authorize (model deploymentScope : String) (estimatedInputTokens maximumOutputTokens : ℤ) (now : DateTime)
  | record (n : ℕ) (providerRequestId model deploymentScope : String) (attribution : Attribution) (usage : TokenUsage)
    (occurredAt : DateTime)
  | cancel (n : ℕ)
  | setKillSwitch (active : Bool) (reason : String) (now : DateTime)

/-- The call of the method, if there is the reservation. -/
def Act.call (returned : List Reservation) : Act → Option Call
  | .authorize model scope input output now => some (.authorize model scope input output now)
  | .record n requestId model scope attribution usage occurredAt =>
    returned[n]?.map fun reservation => .record reservation requestId model scope attribution usage occurredAt
  | .cancel n => returned[n]?.map .cancel
  | .setKillSwitch active reason now => some (.setKillSwitch active reason now)

/-- The call in flight that ends: a record with a naive timestamp is refused before. -/
def Act.ends : Act → Option ℕ
  | .record n _ _ _ _ _ (.aware _) => some n
  | .cancel n => some n
  | _ => none

/-- The guard with its callers. -/
def desk (host : Host) (guard : FinOpsGuard) : Machine Desk Act (Option Reservation) where
  step s act :=
    match act.call s.returned with
    | none => (s, none)
    | some call =>
      let reservation := call.reserves host guard s.ledger
      ({ ledger := call.after host guard s.ledger
         returned := s.returned ++ reservation.toList
         inFlight := s.inFlight.filter (fun flight => some flight.1 ≠ act.ends) ++
           reservation.toList.map (fun reservation => (s.returned.length, reservation)) }, reservation)

/-- The reservations that are outstanding are those of the calls in flight: their ids are distinct, so that each can be
recorded, and once, and their totals are the sums over the calls. -/
structure Sound (s : Desk) : Prop where
  distinct : (s.inFlight.map fun flight => flight.2.reservationId).Nodup
  recordable : ∀ id reservation, s.ledger.reservations.get? id = some reservation ↔
    ∃ n, (n, reservation) ∈ s.inFlight ∧ reservation.reservationId = id
  totals : s.ledger.reserved = ⟨s.inFlight.length, (s.inFlight.map fun flight => flight.2.estimatedTokens).sum,
    (s.inFlight.map fun flight => flight.2.estimatedCostUsd).sum⟩

/-- What a call must not find: a call in flight with the id of the one that is admitted, or with the id of the
reservation that is recorded or cancelled, though it is another one. -/
def Clear (host : Host) (guard : FinOpsGuard) (s : Desk) : Act → Prop
  | .authorize model scope input output (.aware t) =>
    Admits guard s.ledger model scope input output t →
      ∀ flight ∈ s.inFlight, flight.2.reservationId ≠ requestId host s.ledger model scope t
  | .record n _ _ _ _ _ (.aware _) => ∀ reservation ∈ s.returned[n]?, ∀ flight ∈ s.inFlight, flight.1 ≠ n →
      flight.2.reservationId ≠ reservation.reservationId
  | .cancel n => ∀ reservation ∈ s.returned[n]?, ∀ flight ∈ s.inFlight, flight.1 ≠ n →
      flight.2.reservationId ≠ reservation.reservationId
  | _ => True

section Desk

variable {host : Host} {guard : FinOpsGuard} {s : Desk}

/-- The reservations as tickets. -/
def Desk.tickets (s : Desk) : Tickets String Reservation := ⟨s.ledger.reservations, s.returned, s.inFlight⟩

/-- The ledger has the reservations of the calls in flight. -/
def Filed (s : Desk) : Prop := s.tickets.Filed Reservation.reservationId

theorem Filed.sound (h : Filed s) : Sound s := by
  have hsound := Tickets.Filed.sound h
  refine ⟨hsound.distinct, hsound.present, ?_⟩
  have hvalues : s.ledger.reservations.values = s.inFlight.map Prod.snd := Tickets.Filed.values h
  unfold InMemoryFinOpsLedger.reserved
  rw [hvalues, List.length_map, List.map_map, List.map_map]
  rfl

theorem Sound.tickets (h : Sound s) : s.tickets.Sound Reservation.reservationId := ⟨h.distinct, h.recordable⟩

/-- A call that neither reserves nor ends one that is in flight. -/
theorem tickets_quiet {act : Act} (hends : act.ends = none) {call : Call} (hcall : act.call s.returned = some call)
    (hreserves : call.reserves host guard s.ledger = none)
    (hkept : (call.after host guard s.ledger).reservations = s.ledger.reservations) :
    ((desk host guard).step s act).1.tickets = s.tickets := by
  simp [desk, Desk.tickets, hends, hcall, hreserves, hkept]

/-- A request that is authorised is a ticket that is issued. -/
theorem tickets_authorize (model scope : String) (input output : ℤ) (t : Instant) :
    (Admits guard s.ledger model scope input output t ∧ ∃ reservation,
        reservation.reservationId = requestId host s.ledger model scope t ∧
        ((desk host guard).step s (.authorize model scope input output (.aware t))).1.tickets =
          s.tickets.issue Reservation.reservationId reservation) ∨
      ¬ Admits guard s.ledger model scope input output t ∧
        ((desk host guard).step s (.authorize model scope input output (.aware t))).1.tickets = s.tickets := by
  have hspec := @authorize_spec host guard s.ledger model scope input output t
  unfold Effect.Ends at hspec
  cases hauthorize : authorize host guard model scope input output (.aware t) s.ledger with
  | ok reservation ledger' =>
    rw [hauthorize] at hspec
    obtain ⟨hadmits, hid, hreservations⟩ := hspec
    refine Or.inl ⟨hadmits, reservation, hid, ?_⟩
    simp [desk, Desk.tickets, Act.call, Act.ends, Call.after, Call.reserves, hauthorize, hreservations, Tickets.issue,
      Effect.returned]
  | error e ledger' =>
    rw [hauthorize] at hspec
    refine Or.inr ⟨hspec.1, tickets_quiet rfl rfl ?_ ?_⟩
    · simp [Call.reserves, hauthorize, Effect.returned]
    · simp [Call.after, hauthorize, hspec.2]

/-- A call that ends is a ticket that is closed. -/
theorem tickets_ends {act : Act} {n : ℕ} (hends : act.ends = some n) {call : Call} {reservation : Reservation}
    (hcall : act.call s.returned = some call) (hreserves : call.reserves host guard s.ledger = none)
    (htaken : (call.after host guard s.ledger).reservations = s.ledger.reservations.erase reservation.reservationId) :
    ((desk host guard).step s act).1.tickets = s.tickets.close Reservation.reservationId n reservation := by
  simp [desk, Desk.tickets, hends, hcall, hreserves, htaken, Tickets.close]

/-- The reservations after a step are sound just if they are filed, if this is so of the tickets. -/
theorem sound_of_tickets {s' : Desk} {C : Prop}
    (h : (s'.tickets.Sound Reservation.reservationId → C) ∧ (C → s'.tickets.Filed Reservation.reservationId)) :
    (Sound s' ↔ C) ∧ (C → Filed s') :=
  ⟨⟨fun hsound => h.1 hsound.tickets, fun hC => Filed.sound (h.2 hC)⟩, h.2⟩

theorem sound_of_quiet (h : Filed s) {s' : Desk} (hquiet : s'.tickets = s.tickets) {C : Prop} (hC : C) :
    (Sound s' ↔ C) ∧ (C → Filed s') := by
  have hfiled : Filed s' := by
    unfold Filed
    rw [hquiet]
    exact h
  exact ⟨iff_of_true hfiled.sound hC, fun _ => hfiled⟩

/-- A call in flight ends, or one with the same id. -/
theorem sound_of_ends (h : Filed s) {act : Act} {n : ℕ} (hends : act.ends = some n) {call : Reservation → Call}
    (hcall : act.call s.returned = s.returned[n]?.map call)
    (hreserves : ∀ reservation, (call reservation).reserves host guard s.ledger = none)
    (htaken : ∀ reservation, ((call reservation).after host guard s.ledger).reservations =
      s.ledger.reservations.erase reservation.reservationId) {C : Prop}
    (hC : C ↔ ∀ reservation ∈ s.returned[n]?, ∀ flight ∈ s.inFlight, flight.1 ≠ n →
      flight.2.reservationId ≠ reservation.reservationId) :
    (Sound ((desk host guard).step s act).1 ↔ C) ∧ (C → Filed ((desk host guard).step s act).1) := by
  rw [hC]
  cases hreturned : s.returned[n]? with
  | none =>
    rw [hreturned] at hcall
    have hsame : ((desk host guard).step s act).1 = s := by simp [desk, hcall]
    rw [hsame]
    exact sound_of_quiet h rfl (by simp)
  | some reservation =>
    rw [hreturned] at hcall
    apply sound_of_tickets
    rw [tickets_ends hends hcall (hreserves reservation) (htaken reservation)]
    obtain ⟨hclear, hfiled⟩ := Tickets.filed_close h (n := n) hreturned
    refine ⟨fun hsound reservation' hmem => ?_, fun hC => hfiled (hC reservation rfl)⟩
    cases hmem
    exact hclear hsound

/-- **A step** leaves sound reservations just if it is clear. -/
theorem sound_step (h : Filed s) (act : Act) :
    (Sound ((desk host guard).step s act).1 ↔ Clear host guard s act) ∧
      (Clear host guard s act → Filed ((desk host guard).step s act).1) := by
  cases act with
  | authorize model scope input output now =>
    cases now with
    | naive wall => exact sound_of_quiet h (tickets_quiet rfl rfl rfl rfl) trivial
    | aware t =>
      rcases tickets_authorize model scope input output t with
        ⟨hadmits, reservation, hid, htickets⟩ | ⟨hadmits, htickets⟩
      · apply sound_of_tickets
        rw [htickets]
        obtain ⟨hclear, hfiled⟩ := Tickets.filed_issue h reservation
        rw [hid] at hclear hfiled
        exact ⟨fun hsound _ => hclear hsound, fun hC => hfiled (hC hadmits)⟩
      · exact sound_of_quiet h htickets fun hadmits' => absurd hadmits' hadmits
  | record n requestId model scope attribution usage occurredAt =>
    cases occurredAt with
    | naive wall =>
      cases hreturned : s.returned[n]? with
      | none =>
        have hsame : ((desk host guard).step s (.record n requestId model scope attribution usage (.naive wall))).1 =
            s := by
          simp [desk, Act.call, hreturned]
        rw [hsame]
        exact sound_of_quiet h rfl trivial
      | some reservation =>
        have hcall : Act.call s.returned (.record n requestId model scope attribution usage (.naive wall)) =
            some (.record reservation requestId model scope attribution usage (.naive wall)) := by
          simp [Act.call, hreturned]
        exact sound_of_quiet h (tickets_quiet rfl hcall rfl rfl) trivial
    | aware t =>
      have htaken : ∀ reservation, ((Call.record reservation requestId model scope attribution usage (.aware t)).after
          host guard s.ledger).reservations = s.ledger.reservations.erase reservation.reservationId :=
        fun reservation => (reservations_record reservation requestId model scope attribution usage t).final
      exact sound_of_ends h rfl rfl (fun _ => rfl) htaken Iff.rfl
  | cancel n => exact sound_of_ends h rfl rfl (fun _ => rfl) (fun _ => rfl) Iff.rfl
  | setKillSwitch active reason now =>
    have hkept : ((Call.setKillSwitch active reason now).after host guard s.ledger).reservations =
        s.ledger.reservations :=
      congrArg Prod.snd (books_setKillSwitch active reason now)
    exact sound_of_quiet h (tickets_quiet rfl rfl rfl hkept) trivial

/-- **The reservations that are outstanding are those of the calls in flight**, in every state of a run, just if none of
its calls finds another call in flight with its id. -/
theorem in_flight_iff (host : Host) (guard : FinOpsGuard) (acts : List Act) :
    (desk host guard).Along (fun s act => Sound ((desk host guard).step s act).1) {} acts ↔
      (desk host guard).Along (Clear host guard) {} acts := by
  have hstart : Filed {} := ⟨rfl, fun _ h => (List.not_mem_nil h).elim⟩
  have hany : (desk host guard).Along (fun _ _ => True) {} acts := Machine.along_of_forall (by simp) _
  exact Machine.along_next_iff_of (fun s act h _ => sound_step h act) hstart hany

end Desk

/-- **Two calls in flight with one id**: of two calls of one instant the first is cancelled, and the next one has the
number of the second. -/
theorem same_id_twice :
    let acts : List Act := [.authorize "qwen-max" "intl" 5 5 (.aware Sample.noon),
      .authorize "qwen-max" "intl" 400 500 (.aware Sample.noon), .cancel 0,
      .authorize "qwen-max" "intl" 5 5 (.aware Sample.noon)]
    ¬ (desk .cpython Sample.guard).Along (fun s act => Sound ((desk .cpython Sample.guard).step s act).1) {} acts := by
  intro acts h
  obtain ⟨-, -, -, hsound, -⟩ := h
  have hdistinct := hsound.distinct
  revert hdistinct
  rw [← Host.evaluated_eq]
  decide +kernel

end NanoDelta.Finops
