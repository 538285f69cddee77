import NanoDelta.Orchestration.Trail

/-!
# Conflicts

Of the candidates for one market and symbol, `_resolve_conflicts` lets through the one that ranks best, and none if they
disagree on the direction. It says so in one decision about each candidate.

* `resolveConflicts_eq`: the decisions and the result, apart.
* `one_per_symbol`: what is returned, and what is decided.
-/

namespace NanoDelta.Orchestration

open Library Library.Effect Strategies Decisions

/-- A candidate, the status that it gets and the reason. -/
abbrev Ruling := ScoredCandidate × DecisionStatus × String

/-- The candidates of a group do not agree on the action. -/
def Mixed (group : List ScoredCandidate) : Prop := 1 < (group.map fun item => item.candidate.signal.action).dedup.length

instance (group : List ScoredCandidate) : Decidable (Mixed group) := by unfold Mixed; infer_instance

/-- What is said about the candidates of a group. -/
def rulings (group : List ScoredCandidate) : List Ruling :=
  if Mixed group then group.map fun item => (item, .rejected, "CONFLICTING_SIGNALS")
  else
    match group with
    | [] => []
    | best :: rest =>
      (best, .passed, if rest = [] then "NO_CONFLICT" else "BEST_RANKED_DUPLICATE") ::
        rest.map fun item => (item, .rejected, "DUPLICATE_SIGNAL_LOWER_RANKED")

/-- The candidate of a group that is let through. -/
def keeper (group : List ScoredCandidate) : Option ScoredCandidate := if Mixed group then none else group.head?

/-! ### One group -/

/-- The candidates of a group disagree if one buys and another one sells. -/
theorem mixed_iff {group : List ScoredCandidate} : Mixed group ↔
    (∃ a ∈ group, a.candidate.signal.action = .buy) ∧ ∃ b ∈ group, b.candidate.signal.action = .sell := by
  have hside : ∀ item : ScoredCandidate, item.candidate.signal.action = .buy ∨ item.candidate.signal.action = .sell := by
    intro item
    have hgeometry := item.candidate.signal.geometry
    cases haction : item.candidate.signal.action with
    | buy => exact Or.inl rfl
    | sell => exact Or.inr rfl
    | abstain =>
      rw [haction] at hgeometry
      exact hgeometry.elim
  have hmem : ∀ action, action ∈ (group.map fun item => item.candidate.signal.action).dedup ↔
      ∃ item ∈ group, item.candidate.signal.action = action := by
    simp
  have hnodup := List.nodup_dedup (group.map fun item => item.candidate.signal.action)
  rw [← hmem, ← hmem]
  have hsides : ∀ action ∈ (group.map fun item => item.candidate.signal.action).dedup, action = .buy ∨ action = .sell := by
    intro action haction
    obtain ⟨item, -, rfl⟩ := (hmem action).mp haction
    exact hside item
  unfold Mixed
  generalize (group.map fun item => item.candidate.signal.action).dedup = actions at *
  match actions, hnodup with
  | [], _ => simp
  | [x], _ =>
    constructor
    · intro h
      simp at h
    · rintro ⟨hbuy, hsell⟩
      cases (List.mem_singleton.mp hbuy).trans (List.mem_singleton.mp hsell).symm
  | x :: y :: rest, hnodup =>
    refine iff_of_true (by simp) ?_
    have hne : x ≠ y := by
      rintro rfl
      simp at hnodup
    obtain rfl | rfl := hsides x (by simp) <;> obtain rfl | rfl := hsides y (by simp)
    · exact absurd rfl hne
    · simp
    · simp
    · exact absurd rfl hne

theorem mem_of_mem_keeper {group : List ScoredCandidate} {item : ScoredCandidate} (h : item ∈ keeper group) :
    item ∈ group := by
  unfold keeper at h
  split_ifs at h
  · cases h
  · exact List.mem_of_mem_head? h

/-- Every candidate of a group is ruled on once. -/
theorem map_fst_rulings (group : List ScoredCandidate) : (rulings group).map Prod.fst = group := by
  unfold rulings
  split_ifs
  · simp [Function.comp_def]
  · cases group with
    | nil => rfl
    | cons best rest => simp [Function.comp_def]

/-- The one that is let through has passed. -/
theorem filter_rulings (group : List ScoredCandidate) :
    ((rulings group).filter fun r => r.2.1 = .passed).map Prod.fst = (keeper group).toList := by
  unfold rulings keeper
  split_ifs
  · simp [List.filter_map, Function.comp_def]
  · cases group with
    | nil => rfl
    | cons best rest => simp [List.filter_map, Function.comp_def]

theorem status_rulings {group : List ScoredCandidate} {r : Ruling} (h : r ∈ rulings group) :
    r.2.1 = .passed ∨ r.2.1 = .rejected := by
  unfold rulings at h
  split_ifs at h
  · obtain ⟨item, -, rfl⟩ := List.mem_map.mp h
    exact Or.inr rfl
  · cases group with
    | nil => cases h
    | cons best rest =>
      obtain rfl | h := List.mem_cons.mp h
      · exact Or.inl rfl
      · obtain ⟨item, -, rfl⟩ := List.mem_map.mp h
        exact Or.inr rfl

section Stages

variable {host : Host} {Λ : Type} {self : StagedDecisionPipeline Λ} {cycleId : String} {t : Instant}

variable (host self cycleId t) in
/-- The decision of a ruling. -/
def rule (r : Ruling) : EStateM PyError (Cycle Λ) Unit := emitCandidate host self cycleId t r.1 .signalQuality r.2.1 r.2.2 []

/-- A group: its rulings, and the candidate that is let through. -/
theorem resolveGroup_eq {group : List ScoredCandidate} (h : group ≠ []) :
    resolveGroup host self cycleId t group =
      (do let _ ← each (rule host self cycleId t) (rulings group); return keeper group) := by
  unfold resolveGroup rulings keeper
  by_cases hmixed : Mixed group
  · have hlength : 1 < (group.map fun item => item.candidate.signal.action).dedup.length := hmixed
    rw [if_pos hlength, if_pos hmixed, if_pos hmixed, each_map]
    rfl
  · have hlength : ¬ 1 < (group.map fun item => item.candidate.signal.action).dedup.length := hmixed
    rw [if_neg hlength, if_neg hmixed, if_neg hmixed]
    cases group with
    | nil => exact absurd rfl h
    | cons best rest => simp [each, each_map, rule]

/-- **All groups**: the rulings of one group after those of another, and what they let through. -/
theorem resolveConflicts_eq (scored : List ScoredCandidate) :
    resolveConflicts host self cycleId t scored =
      (do let _ ← each (rule host self cycleId t) ((groups scored).values.flatMap rulings)
          return ranked host ((groups scored).values.filterMap keeper)) := by
  have hgroups : ∀ group ∈ (groups scored).values, resolveGroup host self cycleId t group =
      (do let _ ← each (rule host self cycleId t) (rulings group); return keeper group) := by
    intro group hgroup
    obtain ⟨e, he, rfl⟩ := List.mem_map.mp hgroup
    exact resolveGroup_eq (of_mem_groupBy he).2
  unfold resolveConflicts
  rw [collect_eq_each hgroups]
  simp

/-- What a ruling appends: one decision on signal quality about its candidate, with its status. -/
theorem rule_appends {r : Ruling} {c c' : Cycle Λ} (h : rule host self cycleId t r c = .ok () c') :
    ∃ ds, c'.emitted = c.emitted ++ ds ∧ ∃ d, ds = [d] ∧ d.stage = .signalQuality ∧ d.candidateId = some r.1.id ∧
      d.status = r.2.1 := by
  obtain ⟨ds, hds, hlog⟩ := follows_emitCandidate.of_ok h
  obtain ⟨d, hd, hds⟩ := except_map_eq_ok.mp hds
  cases hds
  obtain ⟨-, -, -, -, hstage, hstatus, -, hid⟩ := of_create hd
  exact ⟨[d], hlog, d, rfl, hstage, hid, hstatus⟩

/-- The decisions of several rulings. -/
theorem rules_append {rs : List Ruling} {units : List Unit} {c c' : Cycle Λ}
    (h : each (rule host self cycleId t) rs c = .ok units c') :
    ∃ ds, c'.emitted = c.emitted ++ ds ∧ List.Forall₂ (fun (r : Ruling) d => d.stage = .signalQuality ∧
      d.candidateId = some r.1.id ∧ d.status = r.2.1) rs ds := by
  induction rs generalizing c units with
  | nil =>
    obtain ⟨-, rfl⟩ := each_nil_eq_ok.mp h
    exact ⟨[], (List.append_nil _).symm, .nil⟩
  | cons r rs ih =>
    obtain ⟨_, c₁, units', hr, hrs, -⟩ := each_cons_eq_ok.mp h
    obtain ⟨_, hlog, d, rfl, hd⟩ := rule_appends hr
    obtain ⟨ds, hlog', hds⟩ := ih hrs
    refine ⟨d :: ds, ?_, .cons hd hds⟩
    rw [hlog', hlog, List.append_assoc, List.singleton_append]

end Stages

/-! ### The specification -/

/-- Candidates for a market and symbol disagree on the direction. -/
def Opposed (scored : List ScoredCandidate) (k : Market × String) : Prop :=
  (∃ a ∈ scored, a.key = k ∧ a.candidate.signal.action = .buy) ∧ ∃ b ∈ scored, b.key = k ∧ b.candidate.signal.action = .sell

/-- Of candidates in the order of their ranks, what is let through and what is decided: for every market and symbol the
first one, or none if they are opposed; and one decision about each candidate, which it passes if it is let through. -/
structure Resolved (host : Host) (scored resolved : List ScoredCandidate) (ds : List Decision) : Prop where
  sublist : resolved.Sublist scored
  ranked : resolved.Pairwise fun a b => rankLe host a b
  opposed : ∀ k, Opposed scored k → resolved.filter (fun item => item.key = k) = []
  best : ∀ k, ¬ Opposed scored k →
    resolved.filter (fun item => item.key = k) = (scored.filter fun item => item.key = k).take 1
  decided : ∃ verdicts : List (ScoredCandidate × Decision), ds = verdicts.map Prod.snd ∧
    (verdicts.map Prod.fst).Perm scored ∧
    (∀ v ∈ verdicts, v.2.stage = .signalQuality ∧ v.2.candidateId = some v.1.id ∧
      (v.2.status = .passed ∨ v.2.status = .rejected)) ∧
    ((verdicts.filter fun v => v.2.status = .passed).map Prod.fst).Perm resolved

/-- The keepers of the groups are some of the candidates, in their order. -/
theorem keepers_sublist (scored : List ScoredCandidate) : ((groups scored).values.filterMap keeper).Sublist scored := by
  have hheads : ∀ values : List (List ScoredCandidate),
      (values.filterMap keeper).Sublist (values.filterMap List.head?) := by
    intro values
    induction values with
    | nil => exact .slnil
    | cons group values ih =>
      have hkeeper : keeper group = none ∨ keeper group = group.head? := by
        unfold keeper
        split_ifs <;> simp
      rw [List.filterMap_cons, List.filterMap_cons]
      obtain hkeeper | hkeeper := hkeeper <;> rw [hkeeper] <;> cases group.head? with
      | none => exact ih
      | some best => first | exact ih.cons best | exact ih.cons_cons best
  exact (hheads _).trans (heads_groupBy_sublist ScoredCandidate.key scored)

/-- Of candidates in the order of their ranks, the keepers have this order already. -/
theorem ranked_keepers {host : Host} {scored : List ScoredCandidate} (h : scored.Pairwise fun a b => rankLe host a b) :
    ranked host ((groups scored).values.filterMap keeper) = (groups scored).values.filterMap keeper :=
  List.Pairwise.insertionSort_eq (h.sublist (keepers_sublist scored))

theorem filter_keepers (scored : List ScoredCandidate) (k : Market × String) :
    ((groups scored).values.filterMap keeper).filter (fun item => item.key = k) =
      (keeper (scored.filter fun item => item.key = k)).toList :=
  filter_filterMap_groupBy (fun _ _ => mem_of_mem_keeper) k

theorem mixed_filter_iff {scored : List ScoredCandidate} {k : Market × String} :
    Mixed (scored.filter fun item => item.key = k) ↔ Opposed scored k := by
  simp only [mixed_iff, Opposed, List.mem_filter, decide_eq_true_eq, and_assoc]

/-- Decisions about the candidates of rulings, as these say. -/
theorem decided_of_rulings {rs : List Ruling} {ds : List Decision} (h : List.Forall₂ (fun (r : Ruling) d =>
      d.stage = .signalQuality ∧ d.candidateId = some r.1.id ∧ d.status = r.2.1) rs ds)
    (hstatus : ∀ r ∈ rs, r.2.1 = .passed ∨ r.2.1 = .rejected) :
    ∃ verdicts : List (ScoredCandidate × Decision), ds = verdicts.map Prod.snd ∧
      verdicts.map Prod.fst = rs.map Prod.fst ∧
      (∀ v ∈ verdicts, v.2.stage = .signalQuality ∧ v.2.candidateId = some v.1.id ∧
        (v.2.status = .passed ∨ v.2.status = .rejected)) ∧
      (verdicts.filter fun v => v.2.status = .passed).map Prod.fst = (rs.filter fun r => r.2.1 = .passed).map Prod.fst := by
  induction h with
  | nil => exact ⟨[], rfl, rfl, by simp, rfl⟩
  | @cons r d rs ds hd _ ih =>
    obtain ⟨hfirst, hrest⟩ := List.forall_mem_cons.mp hstatus
    obtain ⟨verdicts, rfl, hitems, hall, hpassed⟩ := ih hrest
    obtain ⟨hstage, hid, hd⟩ := hd
    refine ⟨(r.1, d) :: verdicts, rfl, by simp [hitems], List.forall_mem_cons.mpr ⟨⟨hstage, hid, hd ▸ hfirst⟩, hall⟩, ?_⟩
    obtain hpass | hreject := hfirst
    · simp [hd, hpass, hpassed]
    · simp [hd, hreject, hpassed]

theorem perm_flatMap_rulings (scored : List ScoredCandidate) :
    (((groups scored).values.flatMap rulings).map Prod.fst).Perm scored := by
  have hgroups : (groups scored).values.flatten.Perm scored := flatten_groupBy_perm ScoredCandidate.key scored
  refine (List.Perm.of_eq ?_).trans hgroups
  rw [List.map_flatMap, List.flatten_eq_flatMap]
  exact congrArg (fun f => List.flatMap f _) (funext map_fst_rulings)

theorem filter_flatMap_rulings (values : List (List ScoredCandidate)) :
    ((values.flatMap rulings).filter fun r => r.2.1 = .passed).map Prod.fst = values.filterMap keeper := by
  rw [List.filter_flatMap, List.map_flatMap, List.filterMap_eq_flatMap_toList]
  exact congrArg (fun f => List.flatMap f _) (funext filter_rulings)

/-- **One candidate per symbol**: of candidates in the order of their ranks, the best of each market and symbol is let
through unless some buy and others sell, and each candidate gets one decision. Resolving raises only if emitting does. -/
theorem one_per_symbol (host : Host) {Λ : Type} (self : StagedDecisionPipeline Λ) (cycleId : String) (t : Instant)
    {scored : List ScoredCandidate} (hranked : scored.Pairwise fun a b => rankLe host a b) (c : Cycle Λ) :
    (∀ resolved c', resolveConflicts host self cycleId t scored c = .ok resolved c' →
      ∃ ds, c'.emitted = c.emitted ++ ds ∧ Resolved host scored resolved ds) ∧
    ((∀ item ∈ scored, ∀ status reason c, ∃ c',
        emitCandidate host self cycleId t item .signalQuality status reason [] c = .ok () c') →
      ∃ resolved c', resolveConflicts host self cycleId t scored c = .ok resolved c') := by
  rw [resolveConflicts_eq, ranked_keepers hranked]
  constructor
  · intro resolved c' h
    obtain ⟨units, c₁, hrules, hreturn⟩ := bind_eq_ok.mp h
    cases hreturn
    obtain ⟨ds, hlog, hds⟩ := rules_append hrules
    have hstatus : ∀ r ∈ (groups scored).values.flatMap rulings, r.2.1 = .passed ∨ r.2.1 = .rejected := by
      intro r hr
      obtain ⟨group, -, hr⟩ := List.mem_flatMap.mp hr
      exact status_rulings hr
    obtain ⟨verdicts, hds, hitems, hall, hpassed⟩ := decided_of_rulings hds hstatus
    refine ⟨ds, hlog, keepers_sublist scored, hranked.sublist (keepers_sublist scored), ?_, ?_, verdicts, hds, ?_, hall, ?_⟩
    · intro k hopposed
      rw [filter_keepers, keeper, if_pos (mixed_filter_iff.mpr hopposed)]
      rfl
    · intro k hopposed
      rw [filter_keepers, keeper, if_neg (mt mixed_filter_iff.mp hopposed)]
      cases scored.filter fun item => item.key = k <;> rfl
    · rw [hitems]
      exact perm_flatMap_rulings scored
    · rw [hpassed, filter_flatMap_rulings]
  · intro hemit
    have hrules : ∀ rs : List Ruling, (∀ r ∈ rs, r.1 ∈ scored) → ∀ c : Cycle Λ,
        ∃ units c', each (rule host self cycleId t) rs c = .ok units c' := by
      intro rs
      induction rs with
      | nil => exact fun _ c => ⟨[], c, rfl⟩
      | cons r rs ih =>
        intro hmem c
        obtain ⟨hr, hrs⟩ := List.forall_mem_cons.mp hmem
        obtain ⟨c₁, hfirst⟩ := hemit r.1 hr r.2.1 r.2.2 c
        obtain ⟨units, c₂, hrest⟩ := ih hrs c₁
        exact ⟨() :: units, c₂, each_cons_eq_ok.mpr ⟨(), c₁, units, hfirst, hrest, rfl⟩⟩
    obtain ⟨units, c', h⟩ := hrules ((groups scored).values.flatMap rulings) (fun r hr =>
      (perm_flatMap_rulings scored).mem_iff.mp (List.mem_map_of_mem hr)) c
    exact ⟨_, c', bind_eq_ok.mpr ⟨units, c', h, rfl⟩⟩

namespace Sample

open Risk.Sample

/-- A signal to buy at 100. -/
def rising : StrategySignal where
  action := .buy
  confidence := 1 / 2
  referencePrice := 100
  stopPrice := 99
  targetPrice := 102
  confidence_mem := Amounts.half_mem
  referencePrice_pos := Amounts.hundred_pos
  cost_nonneg := Amounts.zero_nonneg
  geometry := by decide +kernel

/-- A signal to sell at 100. -/
def falling : StrategySignal where
  action := .sell
  confidence := 1 / 2
  referencePrice := 100
  stopPrice := 101
  targetPrice := 98
  confidence_mem := Amounts.half_mem
  referencePrice_pos := Amounts.hundred_pos
  cost_nonneg := Amounts.zero_nonneg
  geometry := by decide +kernel

/-- A scored candidate. -/
def fired (symbol id : String) (signal : StrategySignal) : ScoredCandidate :=
  let candidate : DeterministicCandidate := ⟨id, momentumIdentity .nse, "approval-1", symbol, none, noon, ["gold-1"], signal, {}⟩
  ⟨candidate, scoreOf candidate⟩

/-- Two signals that agree in one symbol, and two that do not in another one. -/
def conflicts : List ScoredCandidate :=
  [fired "RELIANCE" "a" rising, fired "RELIANCE" "b" rising, fired "TCS" "c" rising, fired "TCS" "d" falling]

end Sample

/-- Signals that agree and signals that do not: the first of the former is let through. -/
theorem one_of_two_symbols : ∃ resolved c' ds,
    resolveConflicts .cpython (Sample.pipeline PostgresDecisionLedger.ledger Sample.policy) "cycle-1" Risk.Sample.noon
      Sample.conflicts ⟨{}, []⟩ = .ok resolved c' ∧ Resolved .cpython Sample.conflicts resolved ds ∧
      resolved.map (·.id) = ["a"] := by
  have hrun : ∃ resolved ∈ returned (resolveConflicts .cpython
      (Sample.pipeline PostgresDecisionLedger.ledger Sample.policy) "cycle-1" Risk.Sample.noon Sample.conflicts ⟨{}, []⟩),
      resolved.map (·.id) = ["a"] := by
    rw [← Host.evaluated_eq]
    decide +kernel
  obtain ⟨resolved, hreturned, hids⟩ := hrun
  obtain ⟨c', hok⟩ := returned_eq_some.mp hreturned
  have hranked : Sample.conflicts.Pairwise fun a b => rankLe .cpython a b := by
    simp only [← Host.evaluated_eq]
    decide +kernel
  obtain ⟨ds, -, hresolved⟩ := (one_per_symbol .cpython _ "cycle-1" Risk.Sample.noon hranked _).1 resolved c' hok
  exact ⟨resolved, c', ds, hok, hresolved, hids⟩

end NanoDelta.Orchestration
