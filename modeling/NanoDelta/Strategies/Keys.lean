import NanoDelta.Library.Fields
import NanoDelta.Library.Splits
import NanoDelta.Strategies.Approvals

/-!
# Strategy keys

The key of an identity is the digest of its six fields, joined by bars. Four of them are texts that may contain bars, so
that another identity may have the same joined text; and the rows of the registry are found by the key alone.

* `key_determines_iff`: when an identity is the only one with its key.
* `exact_identity_iff`: when `require_approval` returns approvals of the identity that is asked for only.
-/

namespace NanoDelta.Strategies

open Library

variable {host : Host}

/-! ### The joined text -/

/-- The texts of an identity. -/
def StrategyIdentity.freeTexts (identity : StrategyIdentity) : List String :=
  [identity.strategyId, identity.strategyVersion, identity.timeframe, identity.tradeHorizon]

/-- No bar in a text of the identity can be taken for the one that ends the text, or for the one before it: there is
nothing but blanks on that side of it. -/
structure StrategyIdentity.Separable (identity : StrategyIdentity) : Prop where
  before : ∀ text ∈ [identity.strategyId, identity.strategyVersion, identity.timeframe],
    ∀ before after, text = before ++ "|" ++ after → isBlank before = true
  after : ∀ text ∈ [identity.strategyVersion, identity.timeframe, identity.tradeHorizon],
    ∀ before after, text = before ++ "|" ++ after → isBlank after = true

/-- An identity without bars. -/
theorem separable_of_notMem {identity : StrategyIdentity} (h : ∀ text ∈ identity.freeTexts, '|' ∉ text.toList) :
    identity.Separable := by
  have hnone : ∀ text ∈ identity.freeTexts, ∀ before after, text ≠ before ++ "|" ++ after := by
    rintro text htext before after rfl
    exact h _ htext (by simp)
  constructor
  · intro text htext before after hsplit
    exact absurd hsplit (hnone text (List.dropLast_subset _ htext) before after)
  · intro text htext before after hsplit
    exact absurd hsplit (hnone text (List.mem_of_mem_tail htext) before after)

theorem bar_notMem_value (market : Market) : '|' ∉ market.value.toList := by
  cases market <;> decide

theorem bar_notMem_toString (n : ℕ) : '|' ∉ (toString n).toList := by
  intro h
  have hdigit := Text.made_toString n _ h
  cases hdigit

theorem value_injective {a b : Market} (h : a.value = b.value) : a = b := by
  cases a <;> cases b <;> first | rfl | exact absurd h (by decide)

/-- The key determines the market, the version and the joined texts. -/
theorem key_eq_iff (hinjective : Function.Injective host.sha256) {a b : StrategyIdentity} :
    a.key host = b.key host ↔ a.market = b.market ∧ a.featureSetVersion = b.featureSetVersion ∧
      "|".intercalate a.freeTexts = "|".intercalate b.freeTexts := by
  have hjoined (identity : StrategyIdentity) : identity.key host = host.sha256 (identity.market.value ++ "|" ++
      ("|".intercalate identity.freeTexts ++ "|" ++ toString identity.featureSetVersion)) := by
    unfold StrategyIdentity.key stableId StrategyIdentity.freeTexts
    simp [String.append_assoc]
  rw [hjoined, hjoined]
  constructor
  · intro h
    obtain ⟨hmarket, hrest⟩ := Text.bar_append_inj (bar_notMem_value _) (bar_notMem_value _) (hinjective h)
    obtain ⟨htexts, hversion⟩ := Text.append_bar_inj (bar_notMem_toString _) (bar_notMem_toString _) hrest
    exact ⟨value_injective hmarket, Text.toString_inj hversion, htexts⟩
  · rintro ⟨hmarket, hversion, htexts⟩
    rw [hmarket, hversion, htexts]

/-! ### Other identities with the key -/

theorem isBlank_iff {text : String} : isBlank text = true ↔ AllBlank (fun c => isSpace c = true) text.toList :=
  List.all_eq_true

/-- The condition on the texts, in terms of their characters. -/
theorem separable_iff {identity : StrategyIdentity} :
    identity.Separable ↔
      (∀ cs ∈ (identity.freeTexts.map String.toList).dropLast, BlankBefore '|' (fun c => isSpace c = true) cs) ∧
        ∀ cs ∈ (identity.freeTexts.map String.toList).tail, BlankAfter '|' (fun c => isSpace c = true) cs := by
  have hsplit {text : String} {before after : List Char} (h : text.toList = before ++ '|' :: after) :
      text = String.ofList before ++ "|" ++ String.ofList after := by
    apply String.toList_inj.mp
    simp [h]
  constructor
  · intro h
    constructor
    · intro cs hcs before after heq
      rw [← List.map_dropLast] at hcs
      obtain ⟨text, htext, rfl⟩ := List.mem_map.mp hcs
      have hblank := h.before text htext _ _ (hsplit heq)
      rwa [isBlank_iff, String.toList_ofList] at hblank
    · intro cs hcs before after heq
      rw [← List.map_tail] at hcs
      obtain ⟨text, htext, rfl⟩ := List.mem_map.mp hcs
      have hblank := h.after text htext _ _ (hsplit heq)
      rwa [isBlank_iff, String.toList_ofList] at hblank
  · rintro ⟨hbefore, hafter⟩
    constructor
    · rintro text htext before after rfl
      refine isBlank_iff.mpr (hbefore (before ++ "|" ++ after).toList ?_ before.toList after.toList (by simp))
      rw [← List.map_dropLast]
      exact List.mem_map_of_mem htext
    · rintro text htext before after rfl
      refine isBlank_iff.mpr (hafter (before ++ "|" ++ after).toList ?_ before.toList after.toList (by simp))
      rw [← List.map_tail]
      exact List.mem_map_of_mem htext

/-- **An identity is the only one with its key** exactly if its texts can be separated. -/
theorem unique_key_iff (hinjective : Function.Injective host.sha256) (a : StrategyIdentity) :
    (∀ b : StrategyIdentity, b.key host = a.key host → b = a) ↔ a.Separable := by
  have hblank (identity : StrategyIdentity) : ∀ cs ∈ identity.freeTexts.map String.toList,
      ¬ AllBlank (fun c => isSpace c = true) cs := by
    intro cs hcs
    obtain ⟨text, htext, rfl⟩ := List.mem_map.mp hcs
    rw [← isBlank_iff, Bool.not_eq_true]
    obtain ⟨h₁, h₂, h₃, h₄⟩ := identity.texts
    simp only [StrategyIdentity.freeTexts, List.mem_cons, List.not_mem_nil, or_false] at htext
    rcases htext with rfl | rfl | rfl | rfl <;> assumption
  rw [separable_iff, ← sole_split_iff (hblank a)]
  constructor
  · intro hsole bs hlength hbs heq
    obtain ⟨s₁, s₂, s₃, s₄, rfl⟩ : ∃ s₁ s₂ s₃ s₄ : String, bs = [s₁, s₂, s₃, s₄].map String.toList := by
      match bs, hlength with
      | [c₁, c₂, c₃, c₄], _ =>
        exact ⟨String.ofList c₁, String.ofList c₂, String.ofList c₃, String.ofList c₄, by simp⟩
    have hfull : ∀ text ∈ [s₁, s₂, s₃, s₄], isBlank text = false := by
      intro text htext
      rw [← Bool.not_eq_true, isBlank_iff]
      exact hbs _ (List.mem_map_of_mem htext)
    let b : StrategyIdentity := ⟨a.market, s₁, s₂, s₃, s₄, a.featureSetVersion,
      ⟨hfull s₁ (by simp), hfull s₂ (by simp), hfull s₃ (by simp), hfull s₄ (by simp)⟩, a.version_pos⟩
    have hjoined : "|".intercalate [s₁, s₂, s₃, s₄] = "|".intercalate a.freeTexts := by
      apply String.toList_inj.mp
      rw [String.toList_intercalate, String.toList_intercalate]
      exact heq
    rw [← hsole b ((key_eq_iff hinjective).mpr ⟨rfl, rfl, hjoined⟩)]
    rfl
  · intro hsole b hkey
    obtain ⟨hmarket, hversion, htexts⟩ := (key_eq_iff hinjective).mp hkey
    have hlists := congrArg String.toList htexts
    rw [String.toList_intercalate, String.toList_intercalate] at hlists
    have hsame := List.map_injective_iff.mpr (fun _ _ h => String.toList_injective h)
      (hsole (b.freeTexts.map String.toList) rfl (hblank b) hlists)
    cases a
    cases b
    simp_all [StrategyIdentity.freeTexts]

/-! ### The rows with a key -/

theorem exists_latestApproval {as : List StrategyApproval} (h : as ≠ []) : ∃ a, latestApproval as = some a := by
  cases as with
  | nil => exact absurd rfl h
  | cons a as => exact ⟨_, rfl⟩

section Rows

variable {db db' : Research}

/-- Every definition is stored under the key of its identity. -/
def Research.Keyed (host : Host) (db : Research) : Prop :=
  ∀ d ∈ db.definitions, d.strategyKey = d.definition.identity.key host

theorem Research.Keyed.of_eq (h : db.Keyed host) (heq : db'.definitions = db.definitions) : db'.Keyed host := by
  unfold Research.Keyed
  rw [heq]
  exact h

theorem Research.Keyed.insertDefinition (h : db.Keyed host) {definition : StrategyDefinition}
    (hinsert : db.insertDefinition host definition = .ok db') : db'.Keyed host := by
  unfold Research.insertDefinition at hinsert
  split_ifs at hinsert
  · cases hinsert
    exact h
  · cases hinsert
    intro d hd
    rcases List.mem_append.mp hd with hd | hd
    · exact h d hd
    · rw [List.mem_singleton.mp hd]

/-- **A step** of any process. -/
theorem Research.Keyed.step {s : Cluster} (h : s.db.Keyed host) (input : ClusterInput) :
    ((cluster host).step s input).1.db.Keyed host := by
  cases input with
  | call i call =>
    simp only [cluster]
    split <;> exact h
  | restart i => exact h
  | evidence row => exact h.of_eq rfl
  | advance i fault =>
    simp only [cluster]
    rcases advance_cases host (s.replicas i) s.db fault with hsame | ⟨call, rest, _, hrest, rfl, hwrite, -⟩
    · rwa [hsame]
    have hwritten := write_ok hwrite
    cases call with
    | register definition => exact h.insertDefinition hwritten
    | recordValidation result => exact h.of_eq (Research.insertValidation_ok hwritten).1
    | recordApproval approval => exact h.of_eq (Research.definitions_of_upsertApproval hwritten.1)
    | revoke approvalId reason =>
      obtain ⟨approval, -, hupsert⟩ := hwritten
      exact h.of_eq (Research.definitions_of_upsertApproval hupsert)

variable (host) in
/-- So they are in every run from the start. -/
theorem exec_keyed (inputs : List ClusterInput) : ((cluster host).exec {} inputs).db.Keyed host :=
  Machine.exec_invariant (P := fun s : Cluster => s.db.Keyed host) (fun _ input h => h.step input)
    (fun _ hd => absurd hd List.not_mem_nil) inputs

theorem Research.definitionOf_of_mem {d : DefinitionRow} (hd : d ∈ db.definitions) :
    db.definitionOf d.strategyKey = some d.definition := by
  unfold Research.definitionOf
  rw [Table.find?_eq_some_of_mem db.definition_keys hd]
  rfl

/-- What `require_approval` returns is an approval of the definition with the key. -/
theorem Research.definition_of_requireApproval {identity : StrategyIdentity} {t : Instant} {approval : StrategyApproval}
    (h : db.requireApproval host identity t = .ok approval) :
    ∃ d ∈ db.definitions, d.strategyKey = identity.key host ∧ approval.identity = d.definition.identity := by
  obtain ⟨row, -, hkey, -, hread⟩ := Research.of_requireApproval h
  obtain ⟨definition, hdefinition, rfl⟩ := Option.map_eq_some_iff.mp hread
  obtain ⟨d, hfind, rfl⟩ := Option.map_eq_some_iff.mp hdefinition
  have hsame : d.strategyKey = row.strategyKey := by simpa using List.find?_some hfind
  exact ⟨d, List.mem_of_find?_eq_some hfind, hsame.trans hkey, rfl⟩

/-- A stored definition with an approval in force: `require_approval` of its identity returns one of that identity. -/
theorem Research.Keyed.requireApproval (h : db.Keyed host) {t : Instant} {d : DefinitionRow} (hd : d ∈ db.definitions)
    (hforce : ∃ a ∈ db.approvals, a.strategyKey = d.strategyKey ∧ Research.InForce t a) :
    ∃ approval, db.requireApproval host d.definition.identity t = .ok approval ∧
      approval.identity = d.definition.identity := by
  obtain ⟨a, ha, hkey, hcurrent⟩ := hforce
  have hdefinition : db.definitionOf (d.definition.identity.key host) = some d.definition := by
    rw [← h d hd]
    exact Research.definitionOf_of_mem hd
  have hread : db.approvalFromRow a ≠ none := by
    unfold Research.approvalFromRow
    rw [hkey, Research.definitionOf_of_mem hd]
    exact Option.some_ne_none _
  obtain ⟨read, hread⟩ := Option.ne_none_iff_exists'.mp hread
  have hmem : read ∈ (db.approvals.filter fun row =>
      row.strategyKey = d.definition.identity.key host ∧ Research.InForce t row).filterMap db.approvalFromRow := by
    refine List.mem_filterMap.mpr ⟨a, List.mem_filter.mpr ⟨ha, ?_⟩, hread⟩
    exact decide_eq_true ⟨hkey.trans (h d hd), hcurrent⟩
  obtain ⟨latest, hlatest⟩ := exists_latestApproval (List.ne_nil_of_mem hmem)
  have hok : db.requireApproval host d.definition.identity t = .ok latest := by
    unfold Research.requireApproval
    rw [hdefinition, if_neg (by simp)]
    dsimp only
    rw [hlatest]
  obtain ⟨d', hd', hkey', hidentity⟩ := Research.definition_of_requireApproval hok
  have hsame := Table.eq_of_key_eq db.definition_keys hd' hd (hkey'.trans (h d hd).symm)
  exact ⟨latest, hok, by rw [hidentity, hsame]⟩

end Rows

/-! ### A strategy that is approved -/

section Approved

variable (host)

/-- What the reads of a call leave in the dictionaries. -/
def RegistryCall.hydrated (db : Research) (artifacts : Artifacts) : RegistryCall → Artifacts
  | .register definition => artifacts.hydrateDefinition host db definition.identity
  | .recordValidation result =>
    (artifacts.hydrateDefinition host db result.identity).hydrateValidation db result.validationRunId
  | .recordApproval approval =>
    ((artifacts.hydrateDefinition host db approval.identity).hydrateValidation db
      approval.validationRunId).hydrateApproval db approval.approvalId
  | .revoke approvalId _ => artifacts.hydrateApproval db approvalId

/-- A call of a process, with all its statements. -/
def wholeCall (i : ℕ) (call : RegistryCall) : List ClusterInput :=
  .call i call :: List.replicate call.statements.length (.advance i none)

variable {host} {db db' : Research} {artifacts artifacts' : Artifacts}

/-- **A whole call** that does not fail: its reads, and its write. -/
theorem exec_wholeCall {replicas : ℕ → Replica} {i : ℕ} {call : RegistryCall} (hidle : replicas i = ⟨artifacts, []⟩)
    (hwrite : call.write host db (call.hydrated host db artifacts) = .ok db' artifacts') :
    (cluster host).exec ⟨db, replicas⟩ (wholeCall i call) = ⟨db', Function.update replicas i ⟨artifacts', []⟩⟩ := by
  unfold wholeCall
  cases call <;>
  · simp only [RegistryCall.hydrated] at hwrite
    simp [Machine.exec, cluster, Replica.advance, hidle, RegistryCall.statements, hwrite]

/-- What a registration needs. -/
theorem write_register {definition : StrategyDefinition} (hcheck : artifacts.register definition = .ok artifacts')
    (hinsert : db.insertDefinition host definition = .ok db')
    (hload : db'.loadDefinition host definition.identity = .ok definition) :
    (RegistryCall.register definition).write host db artifacts =
      .ok db' { artifacts' with definitions := artifacts'.definitions.set definition.identity definition } := by
  simp [RegistryCall.write, Effect.bind_apply, Effect.map_apply, hcheck, hinsert, hload]

/-- What the record of a run needs. -/
theorem write_recordValidation {result : ValidationResult} (hcheck : artifacts.recordValidation result = .ok artifacts')
    (hinsert : db.insertValidation host result = .ok db') :
    (RegistryCall.recordValidation result).write host db artifacts = .ok db' artifacts' := by
  simp [RegistryCall.write, Effect.bind_apply, Effect.map_apply, hcheck, hinsert]

/-- What an approval needs. -/
theorem write_recordApproval {approval : StrategyApproval} (hcheck : artifacts.recordApproval approval = .ok artifacts')
    (hupsert : db.upsertApproval host approval = .ok db')
    (hload : db'.loadApproval approval.approvalId = .ok approval) :
    (RegistryCall.recordApproval approval).write host db artifacts =
      .ok db' { artifacts' with approvals := artifacts'.approvals.set approval.approvalId approval } := by
  simp [RegistryCall.write, Effect.bind_apply, Effect.map_apply, hcheck, hupsert, hload]

variable (host) (identity : StrategyIdentity)

/-- A definition of the identity. -/
def definitionFor : StrategyDefinition := { CachedRun.definition with identity }

/-- A run that it passed. -/
def runFor : ValidationResult := { CachedRun.passedRun with identity }

/-- An approval of the run. -/
def approvalFor : StrategyApproval := { CachedRun.approval with identity }

/-- A process stores the three, after the evidence that an NSE strategy needs. -/
def approving : List ClusterInput :=
  .evidence ⟨identity.key host, "run", true⟩ :: (wholeCall 0 (.register (definitionFor identity)) ++
    (wholeCall 0 (.recordValidation (runFor identity)) ++ wholeCall 0 (.recordApproval (approvalFor identity))))

/-- The tables with the definition, -/
def definedDb : Research where
  definitions := [⟨identity.key host, definitionFor identity⟩]
  nseEvidence := [⟨identity.key host, "run", true⟩]

/-- with the run, -/
def validatedDb : Research where
  definitions := [⟨identity.key host, definitionFor identity⟩]
  validations := [⟨"run", identity.key host, (runFor identity).evaluatedAt, true, (runFor identity).metrics,
    (runFor identity).policy, []⟩]
  nseEvidence := [⟨identity.key host, "run", true⟩]

/-- and with the approval. -/
def approvedDb : Research where
  definitions := [⟨identity.key host, definitionFor identity⟩]
  validations := [⟨"run", identity.key host, (runFor identity).evaluatedAt, true, (runFor identity).metrics,
    (runFor identity).policy, []⟩]
  approvals := [Research.approvalRow host (approvalFor identity)]
  nseEvidence := [⟨identity.key host, "run", true⟩]

/-- The dictionaries with the definition, -/
def definedArtifacts : Artifacts where
  definitions := (Dict.empty.set identity (definitionFor identity)).set identity (definitionFor identity)

/-- and with the run. -/
def validatedArtifacts : Artifacts where
  definitions := (definedArtifacts identity).definitions
  validations := Dict.empty.set "run" (runFor identity)

theorem get?_defined : (definedArtifacts identity).definitions.get? identity = some (definitionFor identity) :=
  Dict.get?_set_self ..

theorem get?_validated : (validatedArtifacts identity).definitions.get? identity = some (definitionFor identity) ∧
    (validatedArtifacts identity).validations.get? "run" = some (runFor identity) :=
  ⟨get?_defined identity, Dict.get?_set_self ..⟩

theorem register_for (replicas : ℕ → Replica) (hidle : replicas 0 = ⟨{}, []⟩) :
    (cluster host).exec ⟨{ nseEvidence := [⟨identity.key host, "run", true⟩] }, replicas⟩
      (wholeCall 0 (.register (definitionFor identity))) =
        ⟨definedDb host identity, Function.update replicas 0 ⟨definedArtifacts identity, []⟩⟩ := by
  have hhydrated : (RegistryCall.register (definitionFor identity)).hydrated host
      { nseEvidence := [⟨identity.key host, "run", true⟩] } {} = {} := rfl
  have hcheck : ({} : Artifacts).register (definitionFor identity) =
      .ok { definitions := Dict.empty.set identity (definitionFor identity) } := rfl
  have hinsert : ({ nseEvidence := [⟨identity.key host, "run", true⟩] } : Research).insertDefinition host
      (definitionFor identity) = .ok (definedDb host identity) := by
    simp [Research.insertDefinition, definedDb]
    rfl
  have hload : (definedDb host identity).loadDefinition host identity = .ok (definitionFor identity) := by
    simp [Research.loadDefinition, Research.definitionOf, definedDb]
  apply exec_wholeCall hidle
  rw [hhydrated]
  exact write_register hcheck hinsert hload

theorem recordValidation_for (replicas : ℕ → Replica) (hidle : replicas 0 = ⟨definedArtifacts identity, []⟩) :
    (cluster host).exec ⟨definedDb host identity, replicas⟩ (wholeCall 0 (.recordValidation (runFor identity))) =
      ⟨validatedDb host identity, Function.update replicas 0 ⟨validatedArtifacts identity, []⟩⟩ := by
  have hidentity : (runFor identity).identity = identity := rfl
  have hhydrated : (RegistryCall.recordValidation (runFor identity)).hydrated host (definedDb host identity)
      (definedArtifacts identity) = definedArtifacts identity := by
    simp only [RegistryCall.hydrated, Artifacts.hydrateDefinition, hidentity, get?_defined]
    rfl
  have hcheck : (definedArtifacts identity).recordValidation (runFor identity) = .ok (validatedArtifacts identity) := by
    unfold Artifacts.recordValidation
    rw [hidentity, get?_defined]
    rfl
  have hinsert : (definedDb host identity).insertValidation host (runFor identity) =
      .ok (validatedDb host identity) := by
    simp [Research.insertValidation, definedDb, validatedDb, runFor, CachedRun.passedRun]
  apply exec_wholeCall hidle
  rw [hhydrated]
  exact write_recordValidation hcheck hinsert

theorem approvedAt_lt : CachedRun.approval.approvedAt < CachedRun.approval.expiresAt := by decide

theorem upsertApproval_for :
    (validatedDb host identity).upsertApproval host (approvalFor identity) = .ok (approvedDb host identity) := by
  have hrefuses : ¬ (validatedDb host identity).Refuses (Research.approvalRow host (approvalFor identity)) := by
    simp [Research.Refuses, validatedDb, Research.approvalRow, approvalFor, CachedRun.approval]
  have horder : (Research.approvalRow host (approvalFor identity)).approvedAt <
      (Research.approvalRow host (approvalFor identity)).expiresAt := approvedAt_lt
  unfold Research.upsertApproval
  dsimp only
  rw [if_neg hrefuses, if_neg (not_not.mpr horder)]
  simp [validatedDb, approvedDb, Research.addApproval, Research.approvalRow, approvalFor, CachedRun.approval]

theorem recordApproval_for (replicas : ℕ → Replica) (hidle : replicas 0 = ⟨validatedArtifacts identity, []⟩) :
    ((cluster host).exec ⟨validatedDb host identity, replicas⟩
      (wholeCall 0 (.recordApproval (approvalFor identity)))).db = approvedDb host identity := by
  have hidentity : (approvalFor identity).identity = identity := rfl
  have hrunId : (approvalFor identity).validationRunId = "run" := rfl
  obtain ⟨hdefined, hrun⟩ := get?_validated identity
  have hhydrated : (RegistryCall.recordApproval (approvalFor identity)).hydrated host (validatedDb host identity)
      (validatedArtifacts identity) = validatedArtifacts identity := by
    simp only [RegistryCall.hydrated, Artifacts.hydrateDefinition, Artifacts.hydrateValidation, hidentity, hdefined,
      hrunId, hrun]
    rfl
  have hcheck : (validatedArtifacts identity).recordApproval (approvalFor identity) =
      .ok { validatedArtifacts identity with approvals := Dict.empty.set "approval" (approvalFor identity) } := by
    have hsame : (some (runFor identity)).filter (fun v => v.identity = identity) = some (runFor identity) := by
      simp [runFor]
    unfold Artifacts.recordApproval
    rw [hidentity, hrunId, hrun, hsame, hdefined]
    rfl
  have hload : (approvedDb host identity).loadApproval (approvalFor identity).approvalId =
      .ok (approvalFor identity) := by
    simp [Research.loadApproval, approvedDb, Research.approvalRow, approvalFor, CachedRun.approval,
      Research.approvalFromRow, Research.definitionOf, definitionFor]
  obtain ⟨artifacts', hwrite⟩ : ∃ artifacts', (RegistryCall.recordApproval (approvalFor identity)).write host
      (validatedDb host identity) (validatedArtifacts identity) = .ok (approvedDb host identity) artifacts' :=
    ⟨_, write_recordApproval hcheck (upsertApproval_for host identity) hload⟩
  rw [exec_wholeCall hidle (by rw [hhydrated, hwrite])]

/-- **The run** ends with the three in the tables. -/
theorem exec_approving : ((cluster host).exec {} (approving host identity)).db = approvedDb host identity := by
  have hstart : ((cluster host).step {} (.evidence ⟨identity.key host, "run", true⟩)).1 =
      ⟨{ nseEvidence := [⟨identity.key host, "run", true⟩] }, fun _ => {}⟩ := rfl
  unfold approving
  rw [Machine.exec_cons, Machine.exec_append, Machine.exec_append, hstart, register_for _ _ _ rfl,
    recordValidation_for _ _ _ (Function.update_self ..), recordApproval_for _ _ _ (Function.update_self ..)]

variable {host} {identity}

/-- In it, an identity with the same key has an approval of this one. -/
theorem requireApproval_approving {a : StrategyIdentity} (hkey : identity.key host = a.key host) :
    ∃ approval, ((cluster host).exec {} (approving host identity)).db.requireApproval host a
      CachedRun.approval.approvedAt = .ok approval ∧ approval.identity = identity := by
  have hsame (db : Research) (t : Instant) : db.requireApproval host a t = db.requireApproval host identity t := by
    unfold Research.requireApproval
    rw [hkey]
  have hkeyed := exec_keyed host (approving host identity)
  rw [exec_approving] at hkeyed
  rw [exec_approving, hsame]
  have hd : ⟨identity.key host, definitionFor identity⟩ ∈ (approvedDb host identity).definitions :=
    List.mem_singleton.mpr rfl
  have hforce : ∃ a ∈ (approvedDb host identity).approvals, a.strategyKey = identity.key host ∧
      Research.InForce CachedRun.approval.approvedAt a :=
    ⟨Research.approvalRow host (approvalFor identity), List.mem_singleton.mpr rfl, rfl, rfl, le_refl _, approvedAt_lt⟩
  have hidentity : (definitionFor identity).identity = identity := rfl
  have hreturned := hkeyed.requireApproval hd hforce
  rw [hidentity] at hreturned
  exact hreturned

end Approved

/-! ### What is returned -/

/-- **The exact identity**: an identity is the only one with its key, and `require_approval` returns approvals of no
other, exactly if its texts can be separated. What is `eligible` has what is asked for, and an approval of its own. -/
theorem exact_identity_iff (hinjective : Function.Injective host.sha256) (a : StrategyIdentity) :
    ((∀ b : StrategyIdentity, b.key host = a.key host → b = a) ↔ a.Separable) ∧
    ((∀ inputs t approval, ((cluster host).exec {} inputs).db.requireApproval host a t = .ok approval →
      approval.identity = a) ↔ a.Separable) ∧
    ∀ inputs market timeframe tradeHorizon featureSetVersion t,
      let db := ((cluster host).exec {} inputs).db
      ∀ definition ∈ db.eligible market timeframe tradeHorizon featureSetVersion t,
        (definition.identity.market = market ∧ definition.identity.timeframe = timeframe ∧
          definition.identity.tradeHorizon = tradeHorizon ∧
          definition.identity.featureSetVersion = featureSetVersion) ∧
        ∃ approval, db.requireApproval host definition.identity t = .ok approval ∧
          approval.identity = definition.identity := by
  refine ⟨unique_key_iff hinjective a, ?_, ?_⟩
  · rw [← unique_key_iff hinjective a]
    constructor
    · intro hexact b hkey
      obtain ⟨approval, hok, hidentity⟩ := requireApproval_approving hkey
      rw [← hidentity]
      exact hexact _ _ approval hok
    · intro hunique inputs t approval hok
      obtain ⟨d, hd, hkey, hidentity⟩ := Research.definition_of_requireApproval hok
      rw [hidentity]
      exact hunique _ ((exec_keyed host inputs d hd).symm.trans hkey)
  · intro inputs market timeframe tradeHorizon featureSetVersion t db definition heligible
    obtain ⟨d, hmem, rfl, hfields, hforce⟩ := Research.mem_eligible.mp heligible
    exact ⟨hfields, (exec_keyed host inputs).requireApproval hmem hforce⟩

theorem injective_recorded : Function.Injective (Host.recorded []).sha256 :=
  (Host.recorded_collisionFree (by simp) (by simp)).injective

/-- A strategy without bars has its key for itself. -/
theorem momentum_is_alone :
    (∀ b : StrategyIdentity, b.key (Host.recorded []) = CachedRun.identity.key (Host.recorded []) →
      b = CachedRun.identity) ∧
    ∀ inputs t approval, ((cluster (Host.recorded [])).exec {} inputs).db.requireApproval (Host.recorded [])
      CachedRun.identity t = .ok approval → approval.identity = CachedRun.identity := by
  have hseparable : CachedRun.identity.Separable := by
    apply separable_of_notMem
    decide +kernel
  obtain ⟨hkey, happroval, -⟩ := exact_identity_iff injective_recorded CachedRun.identity
  exact ⟨hkey.mpr hseparable, happroval.mpr hseparable⟩

namespace SharedKey

/-- A strategy with a bar in its id, -/
def barId : StrategyIdentity where
  market := .crypto
  strategyId := "trend|beta"
  strategyVersion := "1"
  timeframe := "1h"
  tradeHorizon := "INTRADAY"
  featureSetVersion := 1
  texts := by decide +kernel
  version_pos := Nat.one_pos

/-- and one with the bar in its version. -/
def barVersion : StrategyIdentity where
  market := .crypto
  strategyId := "trend"
  strategyVersion := "beta|1"
  timeframe := "1h"
  tradeHorizon := "INTRADAY"
  featureSetVersion := 1
  texts := by decide +kernel
  version_pos := Nat.one_pos

end SharedKey

/-- **Two strategies with one key**: `require_approval` of the second, which is not registered, returns an approval of
the first. -/
theorem shared_key :
    Function.Injective (Host.recorded []).sha256 ∧ SharedKey.barId ≠ SharedKey.barVersion ∧
      SharedKey.barId.key (Host.recorded []) = SharedKey.barVersion.key (Host.recorded []) ∧
      ∃ approval, ((cluster (Host.recorded [])).exec {}
        (approving (Host.recorded []) SharedKey.barId)).db.requireApproval (Host.recorded []) SharedKey.barVersion CachedRun.approval.approvedAt = .ok approval ∧
          approval.identity = SharedKey.barId := by
  have hkey : SharedKey.barId.key (Host.recorded []) = SharedKey.barVersion.key (Host.recorded []) := by decide +kernel
  exact ⟨injective_recorded, by decide, hkey, requireApproval_approving hkey⟩

end NanoDelta.Strategies
