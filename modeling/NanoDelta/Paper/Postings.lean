import Mathlib.Data.List.Pairwise
import NanoDelta.Paper.Realization

/-!
# Postings

What one member of a call does to the database, the ledger and the positions taken together. A member finds its
receipt in the ledger and changes nothing, or it posts a new receipt: it nets its fill with the open position of its
key, or opens a position if there is none.

* `Standing`: what the tables keep. Each position is as its last receipt left it, one position is open for each key,
  and every receipt has its decision.
* `Standing.post`: a member keeps it. `Posted` is what the member did.
* `Standing.call`: so does a call of an engine.
-/

namespace NanoDelta.Paper.Postgres

open Library Risk

variable {host : Host} {policy : ExecutionPolicy} {faults : Faults}

/-! ### Exit plans -/

/-- A plan as it was made. -/
def asMade (x : ExitPlanRow) : ExitPlanRow := { x with state := "ACTIVE", exitReason := none, closedAt := none }

/-- The plans of a position are closed, or no plan is. -/
def PlansClosed (position : PaperPosition) (plans plans' : List ExitPlanRow) : Prop :=
  plans' = plans ∨ position.state = .closed ∧ ∃ reason, plans' = plans.map fun x =>
    if x.positionId = position.positionId then
      { x with state := "CLOSED", exitReason := some reason, closedAt := position.closedAt }
    else x

theorem PlansClosed.made {position : PaperPosition} {plans plans' : List ExitPlanRow}
    (h : PlansClosed position plans plans') : plans'.map asMade = plans.map asMade := by
  rcases h with rfl | ⟨-, reason, rfl⟩
  · rfl
  · rw [List.map_map]
    refine List.map_congr_left ?_
    intro x _
    rw [Function.comp_apply]
    split <;> rfl

/-- A plan that is not active was not, or it is one of the position, which is closed. -/
theorem PlansClosed.idle {position : PaperPosition} {plans plans' : List ExitPlanRow}
    (h : PlansClosed position plans plans') {x : ExitPlanRow} (hx : x ∈ plans') :
    x ∈ plans ∨ x.positionId = position.positionId ∧ position.state = .closed := by
  rcases h with rfl | ⟨hclosed, reason, rfl⟩
  · exact Or.inl hx
  · obtain ⟨y, hy, rfl⟩ := List.mem_map.mp hx
    split
    · rename_i hid
      exact Or.inr ⟨hid, hclosed⟩
    · exact Or.inl hy

/-- A write that leaves the outcomes, the exit plans and the strategies. -/
def LeavesPlans (update : Database → Except PyError Database) : Prop :=
  ∀ db db', update db = .ok db' → db'.outcomes = db.outcomes ∧ db'.exitPlans = db.exitPlans ∧
    db'.strategyDefinitions = db.strategyDefinitions

theorem LeavesPlans.write {update : Database → Except PyError Database} (h : LeavesPlans update)
    {c c' : Connection} {u : Unit} (hwrite : write faults update c = .ok u c') :
    c'.database.outcomes = c.database.outcomes ∧ c'.database.exitPlans = c.database.exitPlans ∧
      c'.database.strategyDefinitions = c.database.strategyDefinitions :=
  h _ _ (database_of_write hwrite)

theorem leaves_saveDecision (decision : RiskDecision) : LeavesPlans (saveDecision decision) := by
  intro db db' h
  obtain ⟨decisions, -, h⟩ := Effect.except_bind_eq_ok.mp h
  cases h
  exact ⟨rfl, rfl, rfl⟩

theorem leaves_saveOrder (key : String) (order : PaperOrder) : LeavesPlans (saveOrder key order) := by
  intro db db' h
  obtain ⟨orders, -, h⟩ := Effect.except_bind_eq_ok.mp h
  cases h
  exact ⟨rfl, rfl, rfl⟩

theorem leaves_saveFill (fill : PaperFill) : LeavesPlans (saveFill fill) := by
  intro db db' h
  obtain ⟨fills, -, h⟩ := Effect.except_bind_eq_ok.mp h
  cases h
  exact ⟨rfl, rfl, rfl⟩

theorem leaves_savePosition (position : PaperPosition) : LeavesPlans (savePosition position) := by
  intro db db' h
  obtain ⟨positions, -, h⟩ := Effect.except_bind_eq_ok.mp h
  cases h
  exact ⟨rfl, rfl, rfl⟩

theorem leaves_saveOrderPositionSnapshot (orderId : String) (position : PaperPosition) :
    LeavesPlans (saveOrderPositionSnapshot orderId position) := by
  intro db db' h
  obtain ⟨snapshots, -, h⟩ := Effect.except_bind_eq_ok.mp h
  cases h
  exact ⟨rfl, rfl, rfl⟩

theorem leaves_saveRealization (fill : PaperFill) (position : PaperPosition) (prior : ℚ) :
    LeavesPlans (saveRealization host fill position prior) := by
  intro db db' h
  obtain ⟨events, -, h⟩ := Effect.except_bind_eq_ok.mp h
  cases h
  exact ⟨rfl, rfl, rfl⟩

/-- The writes of a receipt: six that leave the outcomes and the exit plans, and those of a managed exit. -/
theorem persist_ok {decision : RiskDecision} {key : String} {r : ExecutionReceipt} {prior : ℚ} {c c' : Connection}
    (h : persist host faults decision key r prior c = .ok () c') :
    ∃ c₆ : Connection, (c₆.database.outcomes = c.database.outcomes ∧ c₆.database.exitPlans = c.database.exitPlans ∧
        c₆.database.strategyDefinitions = c.database.strategyDefinitions) ∧
      (if r.position.state = .closed ∧ managedExit key r.position = true then
        settleExit host faults (afterLastColon key) r.position
      else pure ()) c₆ = .ok () c' := by
  unfold persist at h
  obtain ⟨_, c₁, h₁, h⟩ := Effect.bind_eq_ok.mp h
  obtain ⟨_, c₂, h₂, h⟩ := Effect.bind_eq_ok.mp h
  obtain ⟨_, c₃, h₃, h⟩ := Effect.bind_eq_ok.mp h
  obtain ⟨_, c₄, h₄, h⟩ := Effect.bind_eq_ok.mp h
  obtain ⟨_, c₅, h₅, h⟩ := Effect.bind_eq_ok.mp h
  obtain ⟨_, c₆, h₆, h⟩ := Effect.bind_eq_ok.mp h
  obtain ⟨ho₁, hx₁, hd₁⟩ := (leaves_saveDecision decision).write h₁
  obtain ⟨ho₂, hx₂, hd₂⟩ := (leaves_saveOrder key r.order).write h₂
  obtain ⟨ho₃, hx₃, hd₃⟩ := (leaves_saveFill r.fill).write h₃
  obtain ⟨ho₄, hx₄, hd₄⟩ := (leaves_savePosition r.position).write h₄
  obtain ⟨ho₅, hx₅, hd₅⟩ := (leaves_saveOrderPositionSnapshot r.order.orderId r.position).write h₅
  obtain ⟨ho₆, hx₆, hd₆⟩ := (leaves_saveRealization r.fill r.position prior).write h₆
  refine ⟨c₆, ⟨?_, ?_, ?_⟩, h⟩
  · rw [ho₆, ho₅, ho₄, ho₃, ho₂, ho₁]
  · rw [hx₆, hx₅, hx₄, hx₃, hx₂, hx₁]
  · rw [hd₆, hd₅, hd₄, hd₃, hd₂, hd₁]

/-- What the writes of a receipt do to the plans and to the strategies. -/
theorem plans_of_persist {decision : RiskDecision} {key : String} {r : ExecutionReceipt} {prior : ℚ}
    {c c' : Connection} (h : persist host faults decision key r prior c = .ok () c') :
    PlansClosed r.position c.database.exitPlans c'.database.exitPlans ∧
      c'.database.strategyDefinitions = c.database.strategyDefinitions := by
  obtain ⟨c₆, ⟨-, hplans, hdefinitions⟩, h⟩ := persist_ok h
  split at h
  · rename_i hclosed
    unfold settleExit at h
    split at h
    · cases h
    · obtain ⟨_, c₇, h₇, h₈⟩ := Effect.bind_eq_ok.mp h
      have hsaved := database_of_write h₇
      have hclose := database_of_write h₈
      unfold saveClosedOutcome at hsaved
      obtain ⟨outcomes, -, hsaved⟩ := Effect.except_bind_eq_ok.mp hsaved
      have hplans₇ : c₇.database.exitPlans = c.database.exitPlans := by
        rw [← Except.ok.inj hsaved]
        exact hplans
      unfold closeExitPlan at hclose
      refine ⟨Or.inr ⟨hclosed.1, afterLastColon key, ?_⟩, ?_⟩
      · rw [← Except.ok.inj hclose, ← hplans₇]
      · rw [← Except.ok.inj hclose, ← Except.ok.inj hsaved]
        exact hdefinitions
  · cases h
    exact ⟨Or.inl hplans, hdefinitions⟩

/-! ### Positions -/

/-- The positions that a new fill leaves. -/
theorem mem_positionsAfter {positions : List PaperPosition} {key : PositionKey} {new q : PaperPosition}
    (hid : ∀ p ∈ openIn positions key, new.positionId = p.positionId) :
    q ∈ positionsAfter positions (openIn positions key) new ↔
      q = new ∨ q ∈ positions ∧ ∀ p ∈ openIn positions key, q.positionId ≠ p.positionId := by
  cases hopen : openIn positions key with
  | none => simp [positionsAfter, or_comm]
  | some p =>
    have hp := (mem_of_openIn hopen).1
    simp only [positionsAfter, List.mem_map, Option.mem_some_iff, forall_eq']
    constructor
    · rintro ⟨q', hq', rfl⟩
      split
      · exact Or.inl rfl
      · rename_i hne
        exact Or.inr ⟨hq', hne⟩
    · rintro (rfl | ⟨hq, hne⟩)
      · exact ⟨p, hp, by rw [if_pos rfl]⟩
      · exact ⟨q, hq, by rw [if_neg hne]⟩

/-- Two positions clash if they are open for one key. -/
theorem clash_positionRow {p p' : PaperPosition} (hkey : p.key = p'.key) (h : p.state = .opened)
    (h' : p'.state = .opened) : (positionRow p).clash (positionRow p') := by
  simp only [PaperPosition.key, Prod.mk.injEq] at hkey
  obtain ⟨hmarket, haccount, hsymbol⟩ := hkey
  simp only [PositionRow.clash, positionRow, h, h', hmarket, haccount, hsymbol, PositionState.value, and_self]

instance : Std.Symm fun p p' : PositionRow => ¬ p.clash p' where
  symm := by
    rintro p p' h ⟨h₁, h₂, hmarket, haccount, hsymbol⟩
    exact h ⟨h₂, h₁, hmarket.symm, haccount.symm, hsymbol.symm⟩

/-! ### Standing -/

/-- What the tables of the ledger keep. -/
structure Standing (host : Host) (db : Database) (ledger : List ExecutionReceipt) (positions : List PaperPosition) :
    Prop where
  files : Files db ledger
  books : Books host db ledger positions
  /-- One position is open for each key. -/
  apart : db.positions.Pairwise fun p p' => ¬ p.clash p'
  /-- Each position is as a receipt left it. -/
  last : ∀ p ∈ positions, ∃ r ∈ ledger, r.position = p
  /-- The position of a receipt is there, and it is closed if the receipt closed it. -/
  kept : ∀ r ∈ ledger, ∃ p ∈ positions, p.positionId = r.position.positionId ∧ p.key = r.position.key ∧
    (r.position.state = .closed → p.state = .closed)
  /-- Every order has its decision. -/
  decided : ∀ r ∈ ledger, ∃ d ∈ db.decisions, d.decisionId = r.order.decisionId
  /-- A position names the decision of the order that left it. -/
  listed : ∀ r ∈ ledger, r.order.decisionId ∈ r.position.decisionIds

section Standing

variable {db : Database} {ledger : List ExecutionReceipt} {positions : List PaperPosition}

/-- The open position of a key is the one that is found. -/
theorem Standing.openIn_eq (h : Standing host db ledger positions) {p : PaperPosition} (hp : p ∈ positions)
    (hopen : p.state = .opened) : openIn positions p.key = some p := by
  cases hfind : openIn positions p.key with
  | none => exact absurd (List.find?_eq_none.mp hfind p hp) (by simp [hopen])
  | some q =>
    obtain ⟨hq, hkey, hstate⟩ := mem_of_openIn hfind
    have hrow : ∀ {p}, p ∈ positions → positionRow p ∈ db.positions := by
      intro p hp
      rw [h.books.rows]
      exact List.mem_map.mpr ⟨p, hp, rfl⟩
    have hsame : positionRow q = positionRow p := by
      by_contra hne
      exact h.apart.forall (hrow hq) (hrow hp) hne (clash_positionRow hkey hstate hopen)
    exact congrArg some (Table.eq_of_key_eq h.books.ids hq hp (congrArg PositionRow.positionId hsame))

theorem standing_initial (host : Host) (others : Others) : Standing host others.initial [] [] where
  files := (shared_initial others).files
  books := books_initial host others
  apart := List.Pairwise.nil
  last _ h := nomatch h
  kept _ h := nomatch h
  decided _ h := nomatch h
  listed _ h := nomatch h

/-- A new receipt was posted. -/
structure New (host : Host) (policy : ExecutionPolicy) (m : String × RiskDecision) (r : ExecutionReceipt)
    (db db' : Database) (ledger ledger' : List ExecutionReceipt) (positions positions' : List PaperPosition) :
    Prop where
  free : receiptOf ledger m.1 = none
  appended : ledger' = ledger ++ [r]
  receipt : ∃ t, r = newReceipt host policy (openIn positions (positionKey m.2.intent)) m.2 m.1 t
  key : r.position.key = positionKey m.2.intent
  after : positions' = positionsAfter positions (openIn positions (positionKey m.2.intent)) r.position
  /-- The fill was netted with the open position of the key. -/
  netted : ∀ p ∈ openIn positions (positionKey m.2.intent), r.position.positionId = p.positionId
  /-- Or it opened a position under a new id. -/
  opened : openIn positions (positionKey m.2.intent) = none → ∀ p ∈ positions, p.positionId ≠ r.position.positionId
  decided : Decided db db' m.2
  plans : PlansClosed r.position db.exitPlans db'.exitPlans
  definitions : db'.strategyDefinitions = db.strategyDefinitions

/-- What a member that returned did. -/
structure Posted (host : Host) (policy : ExecutionPolicy) (m : String × RiskDecision) (r : ExecutionReceipt)
    (db db' : Database) (ledger ledger' : List ExecutionReceipt) (positions positions' : List PaperPosition) :
    Prop where
  decisionId : r.order.decisionId = m.2.decisionId
  filed : receiptOf ledger' m.1 = some r
  did : db' = db ∧ ledger' = ledger ∧ positions' = positions ∨
    New host policy m r db db' ledger ledger' positions positions'

theorem listed_newReceipt {current : Option PaperPosition} {decision : RiskDecision} {key : String} {t : Instant} :
    (newReceipt host policy current decision key t).order.decisionId ∈
      (newReceipt host policy current decision key t).position.decisionIds := by
  show decision.decisionId ∈ (applyFill host current decision _).decisionIds
  cases current with
  | none => exact List.mem_singleton_self _
  | some p =>
    unfold applyFill
    dsimp only
    split
    · exact List.mem_singleton_self _
    · exact List.mem_append_right _ (List.mem_singleton_self _)

/-- **A member keeps the tables standing.** -/
theorem Standing.post (hhost : Text.CollisionFree host.sha256) {m : String × RiskDecision} {executedAt : DateTime}
    {c c' : Connection} {r : ExecutionReceipt} (h : Standing host c.database ledger positions)
    (hx : post host policy faults m.2 m.1 executedAt c = .ok r c') :
    ∃ ledger' positions', Standing host c'.database ledger' positions' ∧
      Posted host policy m r c.database c'.database ledger ledger' positions positions' := by
  obtain ⟨-, hid, ⟨hfound, hdb⟩ | ⟨hnew, -, current, t, c₁, hopen, -, hr, hdb₁, hpersist⟩⟩ := post_cases h.files hx
  · rw [hdb]
    exact ⟨ledger, positions, h, hid, hfound, Or.inl ⟨rfl, rfl, rfl⟩⟩
  obtain ⟨hrec, hdecided⟩ := recorded_of_persist hpersist
  obtain ⟨hplans, hdefinitions⟩ := plans_of_persist hpersist
  rw [hdb₁] at hrec hdecided hplans hdefinitions
  have hcur : ∀ p ∈ current, p.key = positionKey m.2.intent := by
    rintro p rfl
    exact (loadOpenPosition_key hopen).1
  obtain rfl : openIn positions (positionKey m.2.intent) = current := by
    rw [loadOpenPosition_rows h.books.rows] at hopen
    exact Except.ok.inj hopen
  have hkey : r.order.idempotencyKey = m.1 := by rw [hr]; rfl
  have hposition : r.position.key = positionKey m.2.intent := by
    rw [hr]
    exact key_applyFill hcur _
  rw [← hkey] at hnew hrec
  obtain ⟨hfiles, hfill⟩ := files_of_recorded h.files hnew (by rw [hr]; rfl) (hposition.trans (by rw [hr]; rfl)) hrec
  obtain ⟨hbooks, hnetted, hopened⟩ := post_step hhost h.books hr hfill hrec
  have hmem := fun q => mem_positionsAfter (q := q) hnetted
  have hdecisions : ∀ d ∈ c.database.decisions, d ∈ c'.database.decisions := by
    intro d hd
    rcases hdecided with ⟨-, hsame⟩ | ⟨-, happend⟩
    · rwa [hsame]
    · rw [happend]
      exact List.mem_append_left _ hd
  refine ⟨ledger ++ [r], _, ⟨hfiles, hbooks, hrec.apart, ?_, ?_, ?_, ?_⟩, hid, hkey ▸ receiptOf_concat hnew,
    Or.inr ⟨hkey ▸ hnew, rfl, ⟨t, hr⟩, hposition, rfl, hnetted, hopened, hdecided, hplans, hdefinitions⟩⟩
  · intro q hq
    rcases (hmem q).mp hq with rfl | ⟨hq, -⟩
    · exact ⟨r, List.mem_append_right _ (List.mem_singleton_self r), rfl⟩
    · obtain ⟨r', hr', he⟩ := h.last q hq
      exact ⟨r', List.mem_append_left _ hr', he⟩
  · intro r' hr'
    rcases List.mem_append.mp hr' with hr' | hr'
    · obtain ⟨p, hp, hpid, hpkey, hclosed⟩ := h.kept r' hr'
      by_cases hother : ∀ q ∈ openIn positions (positionKey m.2.intent), p.positionId ≠ q.positionId
      · exact ⟨p, (hmem p).mpr (Or.inr ⟨hp, hother⟩), hpid, hpkey, hclosed⟩
      · -- the position of the receipt is the one that the fill was netted with
        push Not at hother
        obtain ⟨q, hq, he⟩ := hother
        obtain ⟨hqmem, hqkey, hqstate⟩ := mem_of_openIn hq
        obtain rfl : p = q := Table.eq_of_key_eq h.books.ids hp hqmem he
        refine ⟨r.position, (hmem _).mpr (Or.inl rfl), (hnetted p hq).trans hpid, ?_, ?_⟩
        · rw [hposition, ← hqkey, hpkey]
        · intro hclosed'
          rw [hclosed hclosed'] at hqstate
          cases hqstate
    · rw [List.mem_singleton.mp hr']
      exact ⟨r.position, (hmem _).mpr (Or.inl rfl), rfl, rfl, id⟩
  · intro r' hr'
    rcases List.mem_append.mp hr' with hr' | hr'
    · obtain ⟨d, hd, hd'⟩ := h.decided r' hr'
      exact ⟨d, hdecisions d hd, hd'⟩
    · rw [List.mem_singleton.mp hr', hid]
      rcases hdecided with ⟨htaken, hsame⟩ | ⟨-, happend⟩
      · rwa [hsame]
      · rw [happend]
        exact ⟨decisionRow m.2, List.mem_append_right _ (List.mem_singleton_self _), rfl⟩
  · intro r' hr'
    rcases List.mem_append.mp hr' with hr' | hr'
    · exact h.listed r' hr'
    · rw [List.mem_singleton.mp hr', hr]
      exact listed_newReceipt

end Standing

/-! ### Calls -/

/-- What members of a call do to the database, the ledger and the positions, whichever of them are new. -/
structure Grown (ms : List (String × RiskDecision)) (db db' : Database) (ledger ledger' : List ExecutionReceipt)
    (positions positions' : List PaperPosition) : Prop where
  ledger : ∀ r ∈ ledger, r ∈ ledger'
  decisions : ∀ d ∈ db.decisions, d ∈ db'.decisions
  /-- A new decision is one of a member. -/
  written : ∀ d ∈ db'.decisions, d ∈ db.decisions ∨ ∃ m ∈ ms, d = decisionRow m.2
  /-- Positions stay, and closed ones stay closed. -/
  positions : ∀ p ∈ positions, ∃ p' ∈ positions', p'.positionId = p.positionId ∧ p'.key = p.key ∧
    (p.state = .closed → p'.state = .closed)
  plans : db'.exitPlans.map asMade = db.exitPlans.map asMade
  /-- A plan was as it is, or its position was closed. -/
  idle : ∀ x ∈ db'.exitPlans, x ∈ db.exitPlans ∨ ∃ p ∈ positions', p.positionId = x.positionId ∧ p.state = .closed
  definitions : db'.strategyDefinitions = db.strategyDefinitions

/-- The receipt is of a new fill of the member: the fill opened a position, or the position has another receipt. -/
def Filled (host : Host) (policy : ExecutionPolicy) (ledger : List ExecutionReceipt) (m : String × RiskDecision)
    (r : ExecutionReceipt) : Prop :=
  ∃ current t, r = newReceipt host policy current m.2 m.1 t ∧
    (r.position = openPosition host m.2 r.fill ∨
      ∃ r' ∈ ledger, r'.order.idempotencyKey ≠ m.1 ∧ r'.position.positionId = r.position.positionId)

theorem Filled.mono {ledger ledger' : List ExecutionReceipt} {m : String × RiskDecision} {r : ExecutionReceipt}
    (h : Filled host policy ledger m r) (hsub : ∀ r ∈ ledger, r ∈ ledger') : Filled host policy ledger' m r := by
  obtain ⟨current, t, hr, hopened | ⟨r', hr', hother⟩⟩ := h
  · exact ⟨current, t, hr, Or.inl hopened⟩
  · exact ⟨current, t, hr, Or.inr ⟨r', hsub r' hr', hother⟩⟩

section Calls

variable {ms : List (String × RiskDecision)} {db db' : Database} {ledger ledger' : List ExecutionReceipt}
  {positions positions' : List PaperPosition}

theorem Grown.refl (ms : List (String × RiskDecision)) (db : Database) (ledger : List ExecutionReceipt)
    (positions : List PaperPosition) : Grown ms db db ledger ledger positions positions :=
  ⟨fun _ h => h, fun _ h => h, fun _ h => Or.inl h, fun p hp => ⟨p, hp, rfl, rfl, id⟩, rfl, fun _ h => Or.inl h, rfl⟩

theorem Grown.trans {ms' : List (String × RiskDecision)} {db'' : Database} {ledger'' : List ExecutionReceipt}
    {positions'' : List PaperPosition} (h : Grown ms db db' ledger ledger' positions positions')
    (h' : Grown ms' db' db'' ledger' ledger'' positions' positions'') :
    Grown (ms ++ ms') db db'' ledger ledger'' positions positions'' where
  ledger r hr := h'.ledger r (h.ledger r hr)
  decisions d hd := h'.decisions d (h.decisions d hd)
  written := by
    intro d hd
    rcases h'.written d hd with hd | ⟨m, hm, he⟩
    · rcases h.written d hd with hd | ⟨m, hm, he⟩
      · exact Or.inl hd
      · exact Or.inr ⟨m, List.mem_append_left _ hm, he⟩
    · exact Or.inr ⟨m, List.mem_append_right _ hm, he⟩
  positions := by
    intro p hp
    obtain ⟨p', hp', hid, hkey, hclosed⟩ := h.positions p hp
    obtain ⟨p'', hp'', hid', hkey', hclosed'⟩ := h'.positions p' hp'
    exact ⟨p'', hp'', hid'.trans hid, hkey'.trans hkey, fun hc => hclosed' (hclosed hc)⟩
  plans := h'.plans.trans h.plans
  idle := by
    intro x hx
    rcases h'.idle x hx with hx | hclosed
    · rcases h.idle x hx with hx | ⟨p, hp, hid, hstate⟩
      · exact Or.inl hx
      · obtain ⟨p', hp', hid', -, hclosed'⟩ := h'.positions p hp
        exact Or.inr ⟨p', hp', hid'.trans hid, hclosed' hstate⟩
    · exact Or.inr hclosed
  definitions := h'.definitions.trans h.definitions

theorem Posted.grown {m : String × RiskDecision} {r : ExecutionReceipt} (hstanding : Standing host db ledger positions)
    (h : Posted host policy m r db db' ledger ledger' positions positions') :
    Grown [m] db db' ledger ledger' positions positions' := by
  obtain ⟨-, -, ⟨rfl, rfl, rfl⟩ | hnew⟩ := h
  · exact Grown.refl _ _ _ _
  obtain ⟨-, rfl, -, hkey, rfl, hnetted, -, hdecided, hplans, hdefinitions⟩ := hnew
  have hmem := fun q => mem_positionsAfter (q := q) hnetted
  refine ⟨fun _ hr' => List.mem_append_left _ hr', ?_, ?_, ?_, hplans.made, ?_, hdefinitions⟩
  · intro d hd
    rcases hdecided with ⟨-, hsame⟩ | ⟨-, happend⟩
    · rwa [hsame]
    · rw [happend]
      exact List.mem_append_left _ hd
  · intro d hd
    rcases hdecided with ⟨-, hsame⟩ | ⟨-, happend⟩
    · exact Or.inl (hsame ▸ hd)
    · rw [happend] at hd
      rcases List.mem_append.mp hd with hd | hd
      · exact Or.inl hd
      · exact Or.inr ⟨m, List.mem_singleton_self m, List.mem_singleton.mp hd⟩
  · intro p hp
    by_cases hother : ∀ q ∈ openIn positions (positionKey m.2.intent), p.positionId ≠ q.positionId
    · exact ⟨p, (hmem p).mpr (Or.inr ⟨hp, hother⟩), rfl, rfl, id⟩
    · push Not at hother
      obtain ⟨q, hq, he⟩ := hother
      obtain ⟨hqmem, hqkey, hqstate⟩ := mem_of_openIn hq
      obtain rfl : p = q := Table.eq_of_key_eq hstanding.books.ids hp hqmem he
      refine ⟨r.position, (hmem _).mpr (Or.inl rfl), hnetted p hq, hkey.trans hqkey.symm, ?_⟩
      intro hclosed
      rw [hclosed] at hqstate
      cases hqstate
  · intro x hx
    rcases hplans.idle hx with hx | ⟨hid, hclosed⟩
    · exact Or.inl hx
    · exact Or.inr ⟨r.position, (hmem _).mpr (Or.inl rfl), hid.symm, hclosed⟩

/-- What was posted is a new fill of the member. -/
theorem Posted.filled {m : String × RiskDecision} {r : ExecutionReceipt} (hstanding : Standing host db ledger positions)
    (h : Posted host policy m r db db' ledger ledger' positions positions') :
    ∀ r' ∈ ledger', r' ∈ ledger ∨ Filled host policy ledger' m r' := by
  obtain ⟨-, -, ⟨rfl, rfl, rfl⟩ | hnew⟩ := h
  · exact fun r' hr' => Or.inl hr'
  obtain ⟨hfree, rfl, ⟨t, hr⟩, -, -, hnetted, -, -, -, -⟩ := hnew
  intro r' hr'
  rcases List.mem_append.mp hr' with hr' | hr'
  · exact Or.inl hr'
  obtain rfl := List.mem_singleton.mp hr'
  refine Or.inr ⟨_, t, hr, ?_⟩
  cases hopen : openIn positions (positionKey m.2.intent) with
  | none =>
    rw [hopen] at hr
    rw [hr]
    exact Or.inl rfl
  | some p =>
    -- the open position has the receipt that left it
    obtain ⟨r₀, hr₀, he⟩ := hstanding.last p (mem_of_openIn hopen).1
    refine Or.inr ⟨r₀, List.mem_append_left _ hr₀, ne_of_receiptOf_eq_none hfree hr₀, ?_⟩
    rw [he, hnetted p hopen]

/-- **A loop over members keeps the tables standing.** -/
theorem Standing.each (hhost : Text.CollisionFree host.sha256) {executedAt : DateTime} {c c' : Connection}
    {rs : List ExecutionReceipt} (h : Standing host c.database ledger positions)
    (hx : Effect.each (fun m => Postgres.post host policy faults m.2 m.1 executedAt) ms c = .ok rs c') :
    ∃ ledger' positions', Standing host c'.database ledger' positions' ∧
      Grown ms c.database c'.database ledger ledger' positions positions' ∧
      (∀ r ∈ ledger', r ∈ ledger ∨ ∃ m ∈ ms, Filled host policy ledger' m r) ∧
      List.Forall₂ (fun m r => r ∈ ledger' ∧ r.order.idempotencyKey = m.1 ∧ r.order.decisionId = m.2.decisionId)
        ms rs := by
  induction ms generalizing c rs ledger positions with
  | nil =>
    obtain ⟨rfl, rfl⟩ := Effect.each_nil_eq_ok.mp hx
    exact ⟨ledger, positions, h, Grown.refl _ _ _ _, fun _ hr => Or.inl hr, .nil⟩
  | cons m ms ih =>
    obtain ⟨r, c₁, rs', hr, hrs, rfl⟩ := Effect.each_cons_eq_ok.mp hx
    obtain ⟨ledger₁, positions₁, h₁, hposted⟩ := h.post hhost hr
    obtain ⟨ledger₂, positions₂, h₂, hgrown, hfilled, hreturned⟩ := ih h₁ hrs
    refine ⟨ledger₂, positions₂, h₂, (hposted.grown h).trans hgrown, ?_, .cons ?_ hreturned⟩
    · intro r' hr'
      rcases hfilled r' hr' with hr' | ⟨m', hm', hnew⟩
      · rcases hposted.filled h r' hr' with hr' | hnew
        · exact Or.inl hr'
        · exact Or.inr ⟨m, List.mem_cons_self .., hnew.mono hgrown.ledger⟩
      · exact Or.inr ⟨m', List.mem_cons_of_mem _ hm', hnew⟩
    · have hkey : r.order.idempotencyKey = m.1 := by simpa using List.find?_some hposted.filed
      exact ⟨hgrown.ledger r (List.mem_of_find?_eq_some hposted.filed), hkey, hposted.decisionId⟩

variable (policy faults) in
/-- **A call of an engine keeps the tables standing**, if the engine does what the book does. -/
theorem Standing.call (hhost : Text.CollisionFree host.sha256) {s : Store} (hs : InStep host s s.database)
    (h : Standing host s.database ledger positions) (call : Call) :
    let next := (engine host policy).step s (.call call faults)
    InStep host next.1 next.1.database ∧
    ∃ ledger' positions', Standing host next.1.database ledger' positions' ∧
      Grown (members call) s.database next.1.database ledger ledger' positions positions' ∧
      (∀ r ∈ ledger', r ∈ ledger ∨ ∃ m ∈ members call, Filled host policy ledger' m r) ∧
      ∀ rs, next.2 = .ok rs → List.Forall₂
        (fun m r => r ∈ ledger' ∧ r.order.idempotencyKey = m.1 ∧ r.order.decisionId = m.2.decisionId)
        (members call) rs := by
  intro next
  obtain ⟨hstep, hout⟩ : InStep host next.1 _ ∧ next.2 = _ := hs.step hhost (.call call faults)
  have hdb : next.1.database = committedOf s.database (postCall host policy faults call ⟨s.database, 0⟩) := hstep.1
  replace hout : next.2 = outcome (postCall host policy faults call ⟨s.database, 0⟩) := hout
  refine ⟨⟨rfl, hstep.2⟩, ?_⟩
  rw [hdb, hout]
  cases hcall : postCall host policy faults call ⟨s.database, 0⟩ with
  | error e c =>
    refine ⟨ledger, positions, h, Grown.refl _ _ _ _, fun _ hr => Or.inl hr, ?_⟩
    intro rs hrs
    cases hrs
  | ok rs c' =>
    obtain ⟨executedAt, c₁, c₂, hloop, hdb₁, hdb₂⟩ := postCall_ok hcall
    rw [← hdb₁] at h
    obtain ⟨ledger', positions', h', hgrown, hfilled, hreturned⟩ := h.each hhost hloop
    rw [hdb₁, ← hdb₂] at hgrown
    rw [← hdb₂] at h'
    refine ⟨ledger', positions', h', hgrown, hfilled, ?_⟩
    rintro rs' ⟨⟩
    exact hreturned

end Calls

/-! ### Other writes -/

/-- The tables of the ledger are the same. -/
structure SameLedger (db db' : Database) : Prop where
  orders : db'.orders = db.orders
  decisions : db'.decisions = db.decisions
  fills : db'.fills = db.fills
  positions : db'.positions = db.positions
  orderPositions : db'.orderPositions = db.orderPositions

section SameLedger

variable {db db' : Database} {ledger : List ExecutionReceipt} {positions : List PaperPosition}

theorem SameLedger.files (h : SameLedger db db') (hfiles : Files db ledger) : Files db' ledger where
  orders := h.orders.trans hfiles.orders
  fills := h.fills.trans hfiles.fills
  orderPositions := h.orderPositions.trans hfiles.orderPositions
  keys := hfiles.keys
  orderIds := hfiles.orderIds
  filled := hfiles.filled
  keyed := hfiles.keyed

theorem SameLedger.books (h : SameLedger db db') (hbooks : Books host db ledger positions) :
    Books host db' ledger positions :=
  ⟨h.positions.trans hbooks.rows, hbooks.ids, hbooks.opened, hbooks.digests⟩

theorem SameLedger.standing (h : SameLedger db db') (hstanding : Standing host db ledger positions) :
    Standing host db' ledger positions where
  files := h.files hstanding.files
  books := h.books hstanding.books
  apart := by
    rw [h.positions]
    exact hstanding.apart
  last := hstanding.last
  kept := hstanding.kept
  decided := by
    rw [h.decisions]
    exact hstanding.decided
  listed := hstanding.listed

theorem SameLedger.inStep (h : SameLedger db db') {memory : PaperExecutionEngine} (hs : InStep host ⟨db, memory⟩ db) :
    InStep host ⟨db', memory⟩ db' := by
  obtain ⟨-, ledger, positions, htracks, hfresh⟩ := hs
  refine ⟨rfl, ledger, positions, ⟨h.files htracks.files, htracks.cached, h.books htracks.books⟩, ?_⟩
  intro key p hget hstate
  rw [h.positions]
  exact hfresh key p hget hstate

end SameLedger

end NanoDelta.Paper.Postgres
