import NanoDelta.Finops.Budgets
import NanoDelta.History.Timeframes
import NanoDelta.Records

/-!
# Calls of Qwen

`finops/qwen.py`: a call of the model is authorised, sent, and recorded with the usage that the response says. If
anything fails after the authorisation, its reservation is cancelled.

* `complete`: the call. What other calls do to the ledger until the provider answers is a program of its own.
* `record_unchanged_iff`: when a record that raises has left the ledger as it was.
* `usage_kept_iff`: when the usage of a response is not lost.
-/

namespace NanoDelta.Finops

open Library History

/-! ### The gateway -/

/-- `QwenFinOpsGateway`, without its transport and its key. -/
structure QwenFinOpsGateway where
  guard : FinOpsGuard
  deploymentScope : String

section Gateway

variable (host : Host) (reader : Reader)

/-- `text.strip()`. -/
def strip (text : String) : String :=
  String.ofList ((text.toList.dropWhile isSpace).reverse.dropWhile isSpace).reverse

/-- `int(value)`. -/
def intOf : Json → Except PyError ℤ
  | .num q => .ok (q.num.tdiv q.den)
  | .bool b => .ok (if b then 1 else 0)
  | .str text =>
    match parseInt text with
    | some n => .ok n
    | none => .error (.valueError ("invalid literal for int() with base 10: '" ++ text ++ "'"))
  | .null => .error (.typeError "int() argument must be a string, a bytes-like object or a real number, not 'NoneType'")
  | .arr _ => .error (.typeError "int() argument must be a string, a bytes-like object or a real number, not 'list'")
  | .obj _ => .error (.typeError "int() argument must be a string, a bytes-like object or a real number, not 'dict'")

/-- `mapping.get(key)` of a JSON object. -/
def entry (entries : List (String × Json)) (key : String) : Option Json :=
  (entries.find? fun e => e.1 = key).map Prod.snd

/-- `int(details.get(key, 0)) if isinstance(details, Mapping) else 0`. -/
def detail (details : Option Json) (key : String) : Except PyError ℤ :=
  match details with
  | some (.obj entries) => intOf ((entry entries key).getD (.num 0))
  | _ => .ok 0

/-- `TokenUsage(…)`, with the checks of `__post_init__`. -/
def tokenUsage (inputTokens outputTokens cachedInputTokens reasoningTokens : ℤ) : Except PyError TokenUsage :=
  if ∃ value ∈ [inputTokens, outputTokens, cachedInputTokens, reasoningTokens], value < 0 then
    .error (.valueError "token counts cannot be negative")
  else if h : cachedInputTokens.toNat ≤ inputTokens.toNat then
    .ok ⟨inputTokens.toNat, outputTokens.toNat, cachedInputTokens.toNat, reasoningTokens.toNat, h⟩
  else .error (.valueError "cached input cannot exceed total input")

/-- `usage`. -/
def usageOf (response : Payload) : Except PyError TokenUsage :=
  match response.get? "usage" with
  | some (.obj raw) => do
    let cached ← detail (entry raw "prompt_tokens_details") "cached_tokens"
    let reasoning ← detail (entry raw "completion_tokens_details") "reasoning_tokens"
    let prompt ← intOf ((entry raw "prompt_tokens").getD (.num 0))
    let completion ← intOf ((entry raw "completion_tokens").getD (.num 0))
    tokenUsage prompt completion cached reasoning
  | _ => .error (.valueError "Qwen response is missing token usage")

/-- `str(response.get("id", "")).strip()`. -/
def responseId (response : Payload) : String := strip (reader.text ((response.get? "id").getD (.str "")))

/-- `complete`, up to the reservation: the model and what is reserved. -/
def start (gateway : QwenFinOpsGateway) (body : Payload) (estimatedInputTokens : ℤ) (now : Instant) :
    EStateM PyError InMemoryFinOpsLedger (String × Reservation) := do
  if (match body.get? "stream" with | some (.bool true) => true | _ => false) then
    throw (.valueError "streaming Qwen calls require a usage-aware stream adapter")
  else do
    let model := strip (reader.text ((body.get? "model").getD (.str "")))
    if model = "" then throw (.valueError "Qwen model is required")
    else do
      let maximumOutput ← Effect.ofExcept
        (intOf ((body.get? "max_completion_tokens").getD ((body.get? "max_tokens").getD (.num 0))))
      if maximumOutput < 1 then
        throw (.valueError "max_completion_tokens is required for bounded Qwen FinOps authorization")
      else do
        let reservation ← authorize host gateway.guard model gateway.deploymentScope estimatedInputTokens maximumOutput
          (.aware now)
        return (model, reservation)

/-- `complete`, from the response of the transport on: what is in its `try`, but for the waiting. -/
def receive (gateway : QwenFinOpsGateway) (model : String) (reservation : Reservation) (attribution : Attribution)
    (answer : Except PyError Payload) (now : Instant) : EStateM PyError InMemoryFinOpsLedger Payload :=
  tryCatch
    (do
      let response ← Effect.ofExcept answer
      let usage ← Effect.ofExcept (usageOf response)
      let requestId := responseId reader response
      if requestId = "" then throw (.valueError "Qwen response is missing request ID")
      else do
        let _ ← record host gateway.guard reservation requestId model gateway.deploymentScope attribution usage
          (.aware now)
        return response)
    (fun e => do
      cancel reservation
      throw e)

/-- `complete`. The transport answers after what `meanwhile` does to the ledger. -/
def complete (gateway : QwenFinOpsGateway) (body : Payload) (attribution : Attribution) (estimatedInputTokens : ℤ)
    (now later : Instant) (meanwhile : EStateM PyError InMemoryFinOpsLedger (Except PyError Payload)) :
    EStateM PyError InMemoryFinOpsLedger Payload := do
  let (model, reservation) ← start host reader gateway body estimatedInputTokens now
  let answer ← meanwhile
  receive host reader gateway model reservation attribution answer later

end Gateway

/-! ### What a record needs -/

section Records

variable (host : Host) (guard : FinOpsGuard)

/-- There is a price for so many input tokens, or none is needed. -/
def Priced (model scope : String) (inputTokens : ℕ) : Prop :=
  guard.billingMode = .subscription ∨
    ∃ tier ∈ guard.priceCatalog.getD [], tier.model = model ∧ tier.deploymentScope = scope ∧
      inputTokens ≤ tier.maximumInputTokens

/-- The id of the record of a request. -/
def recordId (requestId : String) : String := stableId host [guard.provider, requestId]

/-- The record of a usage with its price. -/
def recordOf (requestId model scope : String) (attribution : Attribution) (usage : TokenUsage) (t : Instant)
    (price : ℚ × Option String) : UsageRecord :=
  ⟨recordId host guard requestId, requestId, model, scope, guard.billingMode, attribution, usage, price.1, price.2, t⟩

/-- The ledger without a reservation. -/
def released (ledger : InMemoryFinOpsLedger) (reservation : Reservation) : InMemoryFinOpsLedger :=
  { ledger with reservations := ledger.reservations.erase reservation.reservationId }

/-- What `record` does with a record once it is priced. -/
def fileRecord (t : Instant) (existing : Option UsageRecord) (record : UsageRecord) :
    EStateM PyError InMemoryFinOpsLedger UsageRecord :=
  match existing with
  | some existing =>
    if existing ≠ record then throw (.valueError "provider request ID is bound to different usage")
    else return existing
  | none => do
    modify fun ledger => { ledger with records := ledger.records.set record.recordId record }
    modify (alertsAndPostcheck host guard t)
    return record

variable {host guard} {ledger : InMemoryFinOpsLedger} {reservation : Reservation} {requestId model scope : String}
  {attribution : Attribution} {usage : TokenUsage} {t : Instant} {price : ℚ × Option String}

/-- A catalog has a tier just if one of the model and scope admits the input. -/
theorem tier_ok_iff (tiers : PriceCatalog) (inputTokens : ℕ) :
    (∃ tier, tiers.tier model scope inputTokens = .ok tier) ↔
      ∃ tier ∈ tiers, tier.model = model ∧ tier.deploymentScope = scope ∧ inputTokens ≤ tier.maximumInputTokens := by
  unfold PriceCatalog.tier
  dsimp only
  set matching := tiers.filter fun tier =>
    tier.model = model ∧ tier.deploymentScope = scope ∧ inputTokens ≤ tier.maximumInputTokens with hmatching
  have hperm := matching.perm_insertionSort fun a b => a.maximumInputTokens ≤ b.maximumInputTokens
  have hmem : ∀ tier, tier ∈ matching ↔
      tier ∈ tiers ∧ tier.model = model ∧ tier.deploymentScope = scope ∧ inputTokens ≤ tier.maximumInputTokens := by
    intro tier
    rw [hmatching, List.mem_filter, decide_eq_true_eq]
  cases hsorted : matching.insertionSort fun a b => a.maximumInputTokens ≤ b.maximumInputTokens with
  | nil =>
    rw [hsorted, List.nil_perm] at hperm
    refine iff_of_false (by simp) ?_
    rintro ⟨tier, htier, hrest⟩
    have hin := (hmem tier).mpr ⟨htier, hrest⟩
    rw [hperm] at hin
    cases hin
  | cons tier rest =>
    rw [hsorted] at hperm
    have hin := (hmem tier).mp (hperm.subset (List.mem_cons_self ..))
    exact iff_of_true ⟨tier, rfl⟩ ⟨tier, hin⟩

theorem priced_iff :
    Priced guard model scope usage.inputTokens ↔ ∃ price, cost guard model scope usage = .ok price := by
  unfold Priced cost
  cases hmode : guard.billingMode with
  | subscription => simp
  | payg =>
    have htier := @tier_ok_iff model scope (guard.priceCatalog.getD []) usage.inputTokens
    constructor
    · rintro (hsubscription | hexists)
      · cases hsubscription
      · obtain ⟨tier, hok⟩ := htier.mpr hexists
        exact ⟨_, by rw [hok]; rfl⟩
    · rintro ⟨price, hprice⟩
      obtain ⟨tier, hok, -⟩ := Effect.except_bind_eq_ok.mp hprice
      exact Or.inr (htier.mp ⟨tier, hok⟩)

theorem record_of_unknown (h : ledger.reservations.get? reservation.reservationId = none) :
    record host guard reservation requestId model scope attribution usage (.aware t) ledger =
      .error (.valueError "unknown or already completed FinOps reservation") ledger := by
  have hutc : (Effect.ofExcept (utc (.aware t) "occurred_at") : EStateM PyError InMemoryFinOpsLedger _) ledger =
      .ok t ledger := rfl
  unfold record
  rw [Effect.bind_of_ok hutc, Effect.bind_of_ok (Effect.get_apply ledger), if_pos h]
  rfl

/-- A reservation that is outstanding is taken before anything else. -/
theorem record_of_known {held : Reservation} (h : ledger.reservations.get? reservation.reservationId = some held) :
    record host guard reservation requestId model scope attribution usage (.aware t) ledger =
      (Effect.ofExcept (cost guard model scope usage) >>= fun price =>
        fileRecord host guard t (ledger.records.get? (recordId host guard requestId))
          (recordOf host guard requestId model scope attribution usage t price)) (released ledger reservation) := by
  have hutc : (Effect.ofExcept (utc (.aware t) "occurred_at") : EStateM PyError InMemoryFinOpsLedger _) ledger =
      .ok t ledger := rfl
  unfold record
  rw [Effect.bind_of_ok hutc, Effect.bind_of_ok (Effect.get_apply ledger), if_neg (by simp [h]),
    Effect.bind_of_ok (Effect.modify_apply _ ledger)]
  rfl

theorem record_of_unpriced {held : Reservation} (h : ledger.reservations.get? reservation.reservationId = some held)
    {e : PyError} (hcost : cost guard model scope usage = .error e) :
    record host guard reservation requestId model scope attribution usage (.aware t) ledger =
      .error e (released ledger reservation) := by
  rw [record_of_known h, hcost]
  rfl

/-- A request that has a record: it is this one, or the record is refused. -/
theorem record_of_existing {held : Reservation} (h : ledger.reservations.get? reservation.reservationId = some held)
    (hcost : cost guard model scope usage = .ok price) {existing : UsageRecord}
    (hexisting : ledger.records.get? (recordId host guard requestId) = some existing) :
    record host guard reservation requestId model scope attribution usage (.aware t) ledger =
      if existing = recordOf host guard requestId model scope attribution usage t price then
        .ok existing (released ledger reservation)
      else .error (.valueError "provider request ID is bound to different usage") (released ledger reservation) := by
  rw [record_of_known h, hcost, hexisting]
  by_cases hsame : existing = recordOf host guard requestId model scope attribution usage t price
  · rw [if_pos hsame]
    exact congrFun (if_neg (not_not.mpr hsame)) _
  · rw [if_neg hsame]
    exact congrFun (if_pos hsame) _

/-- A request that has no record is recorded. -/
theorem record_of_new {held : Reservation} (h : ledger.reservations.get? reservation.reservationId = some held)
    (hcost : cost guard model scope usage = .ok price)
    (hnew : ledger.records.get? (recordId host guard requestId) = none) :
    record host guard reservation requestId model scope attribution usage (.aware t) ledger =
      .ok (recordOf host guard requestId model scope attribution usage t price)
        (alertsAndPostcheck host guard t { released ledger reservation with
          records := ledger.records.set (recordId host guard requestId)
            (recordOf host guard requestId model scope attribution usage t price) }) := by
  rw [record_of_known h, hcost, hnew]
  rfl

/-! ### What a record that raises leaves -/

/-- The reservations, the records and the alerts are as they were. -/
def Unchanged (ledger ledger' : InMemoryFinOpsLedger) : Prop :=
  ledger'.reservations = ledger.reservations ∧ ledger'.records = ledger.records ∧ ledger'.alerts = ledger.alerts

variable (host guard ledger reservation requestId model scope attribution usage) in
/-- If the timestamp is aware and the reservation is outstanding, there is a price, and the request has no other
record. -/
def Recordable (occurredAt : DateTime) : Prop :=
  ∀ t, occurredAt = .aware t → ledger.reservations.get? reservation.reservationId ≠ none →
    ∃ price, cost guard model scope usage = .ok price ∧
      ∀ existing ∈ ledger.records.get? (recordId host guard requestId),
        existing = recordOf host guard requestId model scope attribution usage t price

theorem not_unchanged_released {held : Reservation}
    (h : ledger.reservations.get? reservation.reservationId = some held) :
    ¬ Unchanged ledger (released ledger reservation) := by
  rintro ⟨hsame, -⟩
  have hgone : (ledger.reservations.erase reservation.reservationId).get? reservation.reservationId = none := by
    rw [Dict.get?_erase, if_pos rfl]
  have hsame' : ledger.reservations.erase reservation.reservationId = ledger.reservations := hsame
  rw [hsame', h] at hgone
  cases hgone

/-- **A record that raises** leaves the ledger as it was just if it has not taken a reservation. -/
theorem record_unchanged_iff (occurredAt : DateTime) :
    (∀ e ledger', record host guard reservation requestId model scope attribution usage occurredAt ledger =
        .error e ledger' → Unchanged ledger ledger') ↔
      Recordable host guard ledger reservation requestId model scope attribution usage occurredAt := by
  cases occurredAt with
  | naive wall =>
    refine iff_of_true (fun e ledger' h => ?_) (fun t ht => by cases ht)
    cases h
    exact ⟨rfl, rfl, rfl⟩
  | aware t =>
    cases hheld : ledger.reservations.get? reservation.reservationId with
    | none =>
      refine iff_of_true (fun e ledger' h => ?_) (fun t _ hknown => absurd hheld hknown)
      rw [record_of_unknown hheld] at h
      cases h
      exact ⟨rfl, rfl, rfl⟩
    | some held =>
      cases hcost : cost guard model scope usage with
      | error e =>
        refine iff_of_false (fun h => ?_) (fun hrecordable => ?_)
        · exact not_unchanged_released hheld (h e _ (record_of_unpriced hheld hcost))
        · obtain ⟨price, hprice, -⟩ := hrecordable t rfl (by simp [hheld])
          rw [hcost] at hprice
          cases hprice
      | ok price =>
        cases hexisting : ledger.records.get? (recordId host guard requestId) with
        | none =>
          refine iff_of_true (fun e ledger' h => ?_) (fun t' ht' _ => ⟨price, hcost, by simp [hexisting]⟩)
          rw [record_of_new hheld hcost hexisting] at h
          cases h
        | some existing =>
          have hrecord := @record_of_existing host guard ledger reservation requestId model scope attribution usage t
            price held hheld hcost existing hexisting
          by_cases hsame : existing = recordOf host guard requestId model scope attribution usage t price
          · rw [if_pos hsame] at hrecord
            refine iff_of_true (fun e ledger' h => ?_) (fun t' ht' _ => ⟨price, hcost, ?_⟩)
            · rw [hrecord] at h
              cases h
            · cases ht'
              intro other hother
              rw [hexisting] at hother
              cases hother
              exact hsame
          · rw [if_neg hsame] at hrecord
            refine iff_of_false (fun h => ?_) (fun hrecordable => ?_)
            · exact not_unchanged_released hheld (h _ _ hrecord)
            · obtain ⟨price', hprice', hother⟩ := hrecordable t rfl (by simp [hheld])
              rw [hcost] at hprice'
              cases hprice'
              exact hsame (hother existing hexisting)

/-! ### What a response leaves -/

variable (host guard reservation requestId usage) in
/-- The usage is not lost: the ledger has a record of it, or its reservation. -/
def Accounted (ledger : InMemoryFinOpsLedger) : Prop :=
  (∃ record, ledger.records.get? (recordId host guard requestId) = some record ∧ record.providerRequestId = requestId ∧
      record.usage = usage) ∨
    ledger.reservations.get? reservation.reservationId ≠ none

variable (host guard reservation requestId model scope usage) in
/-- The request has a record with this usage, or it has none, its reservation is outstanding, and there is a price for
its usage. -/
def Receivable (ledger : InMemoryFinOpsLedger) : Prop :=
  match ledger.records.get? (recordId host guard requestId) with
  | some record => record.providerRequestId = requestId ∧ record.usage = usage
  | none => ledger.reservations.get? reservation.reservationId ≠ none ∧ Priced guard model scope usage.inputTokens

variable (host guard ledger reservation requestId model scope attribution usage t) in
/-- The ledger after recording, and cancelling if it raises. -/
def recordOrCancel : InMemoryFinOpsLedger :=
  match record host guard reservation requestId model scope attribution usage (.aware t) ledger with
  | .ok _ ledger' => ledger'
  | .error _ ledger' => released ledger' reservation

theorem get?_released : (released ledger reservation).reservations.get? reservation.reservationId = none := by
  unfold released
  rw [Dict.get?_erase, if_pos rfl]

/-- A ledger with the old records and without the reservation. -/
theorem accounted_of_old {ledger' : InMemoryFinOpsLedger} (hrecords : ledger'.records = ledger.records)
    (hgone : ledger'.reservations.get? reservation.reservationId = none)
    (hnone : ledger.records.get? (recordId host guard requestId) = none →
      ¬ (ledger.reservations.get? reservation.reservationId ≠ none ∧ Priced guard model scope usage.inputTokens)) :
    Accounted host guard reservation requestId usage ledger' ↔
      Receivable host guard reservation requestId model scope usage ledger := by
  unfold Accounted Receivable
  rw [hrecords, hgone]
  cases hfound : ledger.records.get? (recordId host guard requestId) with
  | none => simpa using hnone hfound
  | some record => simp

/-- **The usage is accounted for** just if it can be received. -/
theorem accounted_iff : Accounted host guard reservation requestId usage
      (recordOrCancel host guard ledger reservation requestId model scope attribution usage t) ↔
    Receivable host guard reservation requestId model scope usage ledger := by
  unfold recordOrCancel
  cases hheld : ledger.reservations.get? reservation.reservationId with
  | none =>
    rw [record_of_unknown hheld]
    exact accounted_of_old rfl get?_released fun _ h => h.1 hheld
  | some held =>
    cases hcost : cost guard model scope usage with
    | error e =>
      rw [record_of_unpriced hheld hcost]
      refine accounted_of_old rfl get?_released fun _ h => ?_
      obtain ⟨price, hprice⟩ := priced_iff.mp h.2
      rw [hcost] at hprice
      cases hprice
    | ok price =>
      cases hexisting : ledger.records.get? (recordId host guard requestId) with
      | some existing =>
        have hsome : ledger.records.get? (recordId host guard requestId) ≠ none := by simp [hexisting]
        rw [record_of_existing hheld hcost hexisting]
        split_ifs with hsame
        · exact accounted_of_old rfl get?_released fun hnone => absurd hnone hsome
        · exact accounted_of_old rfl get?_released fun hnone => absurd hnone hsome
      | none =>
        rw [record_of_new hheld hcost hexisting]
        let new := recordOf host guard requestId model scope attribution usage t price
        refine iff_of_true (Or.inl ⟨new, ?_, rfl, rfl⟩) ?_
        · have hrecords : (alertsAndPostcheck host guard t { released ledger reservation with
              records := ledger.records.set (recordId host guard requestId)
                (recordOf host guard requestId model scope attribution usage t price) }).records =
              ledger.records.set (recordId host guard requestId)
                (recordOf host guard requestId model scope attribution usage t price) :=
            congrArg Prod.fst (books_alertsAndPostcheck t)
          dsimp only
          rw [hrecords, Dict.get?_set_self]
        · unfold Receivable
          rw [hexisting]
          exact ⟨by simp [hheld], priced_iff.mpr ⟨price, hcost⟩⟩

end Records

section Responses

variable {host : Host} {reader : Reader} {gateway : QwenFinOpsGateway}

/-- The ledger after a response with a usage and a request id. -/
theorem receive_final {model : String} {reservation : Reservation} {attribution : Attribution} {response : Payload}
    {usage : TokenUsage} (husage : usageOf response = .ok usage) (hid : responseId reader response ≠ "") (now : Instant)
    (ledger : InMemoryFinOpsLedger) :
    Effect.final (receive host reader gateway model reservation attribution (.ok response) now ledger) =
      recordOrCancel host gateway.guard ledger reservation (responseId reader response) model gateway.deploymentScope
        attribution usage now := by
  have hresponse : (Effect.ofExcept (.ok response) : EStateM PyError InMemoryFinOpsLedger _) ledger =
      .ok response ledger := rfl
  have husage' : (Effect.ofExcept (usageOf response) : EStateM PyError InMemoryFinOpsLedger _) ledger =
      .ok usage ledger := by
    rw [husage]
    rfl
  unfold receive recordOrCancel
  rw [Effect.tryCatch_apply, Effect.bind_of_ok hresponse, Effect.bind_of_ok husage', if_neg hid]
  cases hrecord : record host gateway.guard reservation (responseId reader response) model gateway.deploymentScope
      attribution usage (.aware now) ledger with
  | ok new ledger' =>
    rw [Effect.bind_of_ok hrecord]
    rfl
  | error e ledger' =>
    rw [Effect.bind_of_error hrecord]
    rfl

/-- **The usage of a response** with a request id is in the ledger, or still reserved, just if it can be received there;
and a record that raises has left the ledger as it was just if it could be recorded. -/
theorem usage_kept_iff (host : Host) (reader : Reader) (gateway : QwenFinOpsGateway) {body : Payload}
    {attribution : Attribution} {estimatedInputTokens : ℤ} {now later : Instant}
    {meanwhile : EStateM PyError InMemoryFinOpsLedger (Except PyError Payload)}
    {ledger ledger₁ ledger₂ : InMemoryFinOpsLedger} {model : String} {reservation : Reservation} {response : Payload}
    {usage : TokenUsage}
    (hstart : start host reader gateway body estimatedInputTokens now ledger = .ok (model, reservation) ledger₁)
    (hmeanwhile : meanwhile ledger₁ = .ok (.ok response) ledger₂) (husage : usageOf response = .ok usage)
    (hid : responseId reader response ≠ "") :
    (Accounted host gateway.guard reservation (responseId reader response) usage (Effect.final
        (complete host reader gateway body attribution estimatedInputTokens now later meanwhile ledger)) ↔
      Receivable host gateway.guard reservation (responseId reader response) model gateway.deploymentScope usage
        ledger₂) ∧
    ∀ guard ledger reservation requestId model scope attribution usage occurredAt,
      (∀ e ledger', record host guard reservation requestId model scope attribution usage occurredAt ledger =
          .error e ledger' → Unchanged ledger ledger') ↔
        Recordable host guard ledger reservation requestId model scope attribution usage occurredAt := by
  refine ⟨?_, fun guard ledger reservation requestId model scope attribution usage occurredAt =>
    record_unchanged_iff occurredAt⟩
  unfold complete
  rw [Effect.bind_of_ok hstart]
  dsimp only
  rw [Effect.bind_of_ok hmeanwhile, receive_final husage hid]
  exact accounted_iff

end Responses

/-! ### A call with more input than was estimated -/

namespace Sample

theorem thresholds_mem : ∀ threshold ∈ [(⟨"0.50", 1 / 2⟩ : Decimal), ⟨"0.80", 4 / 5⟩, ⟨"1.00", 1⟩],
    0 < threshold.value ∧ threshold.value ≤ 1 := by
  decide +kernel

/-- A guard that pays for up to 32000 input tokens. -/
def payg : FinOpsGuard where
  provider := "qwen"
  billingMode := .payg
  policy :=
    { dailyRequestLimit := 10, dailyTokenLimit := 10000, dailyCostLimitUsd := 1
      limits_pos := by decide, cost_nonneg := by decide, thresholds_mem := thresholds_mem }
  priceCatalog := some
    [{ model := "qwen-test", deploymentScope := "international", maximumInputTokens := 32000, inputUsdPerMillion := 1
       cachedInputUsdPerMillion := 1 / 10, outputUsdPerMillion := 2, catalogVersion := "official-2026-08-15"
       ceiling_pos := by decide, prices_nonneg := by decide +kernel }]
  required := by decide

def gateway : QwenFinOpsGateway := ⟨payg, "international"⟩

def body : Payload := Dict.empty.set "model" (.str "qwen-test") |>.set "max_completion_tokens" (.num 50)

/-- A response with so many input tokens. -/
def response (promptTokens : ℕ) : Payload :=
  Dict.empty.set "id" (.str "chatcmpl-1") |>.set "usage"
    (.obj [("prompt_tokens", .num promptTokens), ("completion_tokens", .num 20),
      ("prompt_tokens_details", .obj [("cached_tokens", .num 25)])])

/-- What is reserved for the call. -/
def reserved : Reservation where
  reservationId := stableId .cpython ["qwen-test", "international", isoformat noon, toString 1]
  estimatedTokens := 150
  estimatedCostUsd := 1 / 5000
  createdAt := noon

/-- The ledger while the call is in flight. -/
def waiting : InMemoryFinOpsLedger := { reservations := Dict.empty.set reserved.reservationId reserved }

/-- A call whose response comes with nothing in between. -/
def answered (promptTokens : ℕ) : EStateM PyError InMemoryFinOpsLedger Payload :=
  complete .cpython .plain gateway body attribution 100 noon (noon + seconds 1) (pure (.ok (response promptTokens)))

end Sample

/-- A response with the input that was estimated. -/
theorem hundred_tokens_kept : Accounted .cpython Sample.payg Sample.reserved "chatcmpl-1" ⟨100, 20, 25, 0, by decide⟩
    (Effect.final (Sample.answered 100 {})) := by
  have hreturned : Effect.returned (start .cpython .plain Sample.gateway Sample.body 100 Sample.noon {}) =
      some ("qwen-test", Sample.reserved) := by
    decide +kernel
  obtain ⟨waiting, hstart⟩ := Effect.returned_eq_some.mp hreturned
  have hwaiting : waiting = Effect.final (start .cpython .plain Sample.gateway Sample.body 100 Sample.noon {}) := by
    rw [hstart]
    rfl
  have husage : usageOf (Sample.response 100) = .ok ⟨100, 20, 25, 0, by decide⟩ := by decide +kernel
  have hid : responseId .plain (Sample.response 100) ≠ "" := by decide +kernel
  have hmeanwhile : (pure (.ok (Sample.response 100)) : EStateM PyError InMemoryFinOpsLedger (Except PyError Payload))
      waiting = .ok (.ok (Sample.response 100)) waiting := rfl
  have hreceivable : Receivable .cpython Sample.payg Sample.reserved (responseId .plain (Sample.response 100))
      "qwen-test" "international" ⟨100, 20, 25, 0, by decide⟩ waiting := by
    have hnone : waiting.records.get? (recordId .cpython Sample.payg (responseId .plain (Sample.response 100))) =
        none := by
      rw [hwaiting]
      decide +kernel
    unfold Receivable
    rw [hnone, hwaiting]
    exact ⟨by decide +kernel, Or.inr ⟨_, List.mem_singleton_self _, rfl, rfl, by decide⟩⟩
  exact (@usage_kept_iff .cpython .plain Sample.gateway _ Sample.attribution _ _ (Sample.noon + seconds 1) _ _ _ _ _ _ _
    _ hstart hmeanwhile husage hid).1.mpr hreceivable

/-- **A usage that is lost**: 40000 tokens of input, where 100 were estimated, have no price. The record raises after it
has taken the reservation. -/
theorem forty_thousand_tokens_lost :
    ¬ Accounted .cpython Sample.payg Sample.reserved "chatcmpl-1" ⟨40000, 20, 25, 0, by decide⟩
        (Effect.final (Sample.answered 40000 {})) ∧
      ¬ ∀ e ledger', record .cpython Sample.payg Sample.reserved "chatcmpl-1" "qwen-test" "international"
          Sample.attribution ⟨40000, 20, 25, 0, by decide⟩ (.aware Sample.noon) Sample.waiting = .error e ledger' →
        Unchanged Sample.waiting ledger' := by
  constructor
  · have hrecords : (Effect.final (Sample.answered 40000 {})).records.get?
        (recordId .cpython Sample.payg "chatcmpl-1") = none := by
      decide +kernel
    have hreservations : (Effect.final (Sample.answered 40000 {})).reservations.get? Sample.reserved.reservationId =
        none := by
      decide +kernel
    unfold Accounted
    rw [hrecords, hreservations]
    simp
  · intro h
    have hheld : Sample.waiting.reservations.get? Sample.reserved.reservationId = some Sample.reserved :=
      Dict.get?_set_self _ _ _
    have hcost : cost Sample.payg "qwen-test" "international" ⟨40000, 20, 25, 0, by decide⟩ =
        .error (.lookupError "no price tier for qwen-test/international/40000 input tokens") := by
      decide +kernel
    exact not_unchanged_released hheld (h _ _ (record_of_unpriced hheld hcost))

end NanoDelta.Finops
