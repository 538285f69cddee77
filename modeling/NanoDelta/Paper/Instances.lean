import NanoDelta.Paper.Book

/-!
# Many instances and one

Do several engines on one database do what one engine would? One engine, with
restarts and failed transactions, always does what the book does
(`engine_is_the_book`). Several engines do too, as long as no call meets a cache that
is behind: a cached open position whose key the database holds closed.

* `instances_agree_with_one_engine`: in every run that meets this condition, the tables
  and the results are those of one engine.
* `stale_cache_reopens_a_closed_position`: without it they are not. An engine whose
  open position was closed by another one applies its next fill to the closed position.
-/

namespace NanoDelta.Paper.Postgres

open Library Risk

variable {host : Host} {policy : ExecutionPolicy}

/-! ### One engine -/

/-- The engine and the book are in step: one database, and a cache that is fresh for every key. -/
def InStep (host : Host) (s : Store) (db : Database) : Prop :=
  s.database = db ∧ ∃ ledger positions, Tracks host s.database s.memory ledger positions ∧
    ∀ key, Fresh s.database s.memory key

theorem books_others {db : Database} {ledger : List ExecutionReceipt} {positions : List PaperPosition}
    (h : Books host db ledger positions) (tables : Others) : Books host (tables.into db) ledger positions :=
  ⟨h.rows, h.ids, h.opened, h.digests⟩

theorem books_initial (host : Host) (others : Others) : Books host others.initial [] [] := by
  refine ⟨rfl, List.nodup_nil, ?_, ?_⟩
  · intro p hp
    cases hp
  · intro r hr
    cases hr

/-- A database with empty paper tables, and an engine that was not used yet. -/
def Store.initial (others : Others) : Store := ⟨others.initial, .new⟩

theorem fresh_new (db : Database) (key : PositionKey) : Fresh db .new key := by
  intro p h
  cases h

theorem inStep_initial (host : Host) (others : Others) : InStep host (Store.initial others) others.initial :=
  ⟨rfl, [], [], ⟨(shared_initial others).files, cached_new _, books_initial host others⟩, fresh_new _⟩

/-- One step keeps them in step. -/
theorem InStep.step (hhost : Text.CollisionFree host.sha256) {s : Store} {db : Database} (h : InStep host s db)
    (input : Input) :
    InStep host ((engine host policy).step s input).1 ((book host policy).step db input).1 ∧
      ((engine host policy).step s input).2 = ((book host policy).step db input).2 := by
  obtain ⟨rfl, ledger, positions, htracks, hfresh⟩ := h
  cases input with
  | call call faults =>
    obtain ⟨hout, hdb, more, positions', htracks', hkeep⟩ :=
      call_refines policy faults hhost call htracks (fun m _ _ => hfresh _)
    exact ⟨⟨hdb, ledger ++ more, positions', htracks', fun key => hkeep key (hfresh key)⟩, hout⟩
  | restart =>
    exact ⟨⟨rfl, ledger, positions, ⟨htracks.files, cached_new _, htracks.books⟩, fresh_new _⟩, rfl⟩
  | others tables =>
    exact ⟨⟨rfl, ledger, positions,
      ⟨files_others htracks.files tables, htracks.cached, books_others htracks.books tables⟩, hfresh⟩, rfl⟩

variable (policy) in
/-- **One engine does what the book does**, through restarts and failed transactions. -/
theorem engine_is_the_book (hhost : Text.CollisionFree host.sha256) (others : Others) (inputs : List Input) :
    InStep host ((engine host policy).exec (.initial others) inputs)
        ((book host policy).exec others.initial inputs) ∧
      (engine host policy).outputs (.initial others) inputs = (book host policy).outputs others.initial inputs := by
  have halways : (engine host policy).Along (fun _ _ => True) (.initial others) inputs :=
    Machine.along_of_forall (C := fun _ => True) (fun _ _ => trivial) _
  have h := Machine.simulation_along (N := book host policy) id (R := InStep host)
    (fun s db input hs _ => hs.step hhost input) (inStep_initial host others) halways
  rwa [List.map_id] at h

/-! ### Many engines -/

/-- The same call, on one engine. -/
def WorldInput.toOne : WorldInput → Input
  | .call _ c faults => .call c faults
  | .others tables => .others tables

/-- The condition on a call: for each member whose key is not recorded yet, if the engine's cache
holds an open position of its market, account and symbol, the database holds one too. -/
def CacheCurrent (w : World) : WorldInput → Prop
  | .call i call _ => ∀ m ∈ members call, (∀ o ∈ w.database.orders, o.idempotencyKey ≠ m.1) →
      Fresh w.database (w.engines i) (positionKey m.2.intent)
  | .others _ => True

/-- The engines and the book are in step, except for the caches. -/
def WorldInStep (host : Host) (w : World) (db : Database) : Prop :=
  w.database = db ∧ ∃ ledger positions, Shared w ledger ∧ Books host w.database ledger positions

/-- One step that meets the condition keeps them in step. -/
theorem WorldInStep.step (hhost : Text.CollisionFree host.sha256) {w : World} {db : Database}
    (h : WorldInStep host w db) {input : WorldInput} (hinput : CacheCurrent w input) :
    WorldInStep host ((world host policy).step w input).1 ((book host policy).step db input.toOne).1 ∧
      ((world host policy).step w input).2 = ((book host policy).step db input.toOne).2 := by
  obtain ⟨rfl, ledger, positions, hshared, hbooks⟩ := h
  cases input with
  | call i c faults =>
    have hfresh : ∀ m ∈ members c, receiptOf ledger m.1 = none →
        Fresh w.database (w.engines i) (positionKey m.2.intent) := by
      intro m hm hnone
      refine hinput m hm ?_
      intro o ho
      rw [hshared.files.orders] at ho
      obtain ⟨r, hr, rfl⟩ := List.mem_map.mp ho
      exact ne_of_receiptOf_eq_none hnone hr
    obtain ⟨hout, hdb, more, positions', htracks, -⟩ :=
      call_refines policy faults hhost c (s := ⟨w.database, w.engines i⟩)
        ⟨hshared.files, hshared.cached i, hbooks⟩ hfresh
    refine ⟨⟨hdb, ledger ++ more, positions', ⟨htracks.files, ?_⟩, htracks.books⟩, hout⟩
    intro j
    by_cases hj : j = i
    · subst hj
      simp only [world, Function.update_self]
      exact htracks.cached
    · simp only [world, Function.update_of_ne hj]
      exact (hshared.cached j).append more
  | others tables =>
    exact ⟨⟨rfl, ledger, positions, ⟨files_others hshared.files tables, hshared.cached⟩,
      books_others hbooks tables⟩, rfl⟩

/-- **Many instances agree with one**, in every run whose calls all meet caches that are current for
them: the tables are those of one engine that makes the calls in the same order, and every call
returns or raises the same; and both are what the book does, which applies every fill to the position
that the database holds open for its key, or opens one if it holds none. -/
theorem instances_agree_with_one_engine (host : Host) (hhost : Text.CollisionFree host.sha256)
    (policy : ExecutionPolicy) (others : Others) (inputs : List WorldInput)
    (hcurrent : (world host policy).Along CacheCurrent (.initial others) inputs) :
    let one := inputs.map WorldInput.toOne
    ((world host policy).exec (.initial others) inputs).database =
        ((engine host policy).exec (.initial others) one).database ∧
      (world host policy).outputs (.initial others) inputs = (engine host policy).outputs (.initial others) one ∧
      ((world host policy).exec (.initial others) inputs).database = (book host policy).exec others.initial one := by
  intro one
  have hinitial : WorldInStep host (World.initial others) others.initial :=
    ⟨rfl, [], [], shared_initial others, books_initial host others⟩
  obtain ⟨hworld, houtputs⟩ := Machine.simulation_along (M := world host policy) (N := book host policy)
    WorldInput.toOne (R := WorldInStep host) (fun w db input hw hc => hw.step hhost hc) hinitial hcurrent
  obtain ⟨hengine, houtputs'⟩ := engine_is_the_book policy hhost others one
  exact ⟨hworld.1.trans hengine.1.symm, houtputs.trans houtputs'.symm, hworld.1⟩

/-! ### A run that meets the condition, and one that does not -/

instance (db : Database) (memory : PaperExecutionEngine) (key : PositionKey) : Decidable (Fresh db memory key) :=
  decidable_of_iff
    (∀ p ∈ memory.positions.get? key, p.state = .opened → ∃ row ∈ db.positions, row.isOpen key = true) Iff.rfl

instance (w : World) : (input : WorldInput) → Decidable (CacheCurrent w input)
  | .call i c _ => inferInstanceAs (Decidable (∀ m ∈ members c,
      (∀ o ∈ w.database.orders, o.idempotencyKey ≠ m.1) → Fresh w.database (w.engines i) (positionKey m.2.intent)))
  | .others _ => isTrue trivial

/-- Five bought at 120. -/
def sampleBuyAgain : Call :=
  .execute (Sample.decision "3" (Sample.intent "3" "RELIANCE" .buy 5 120 (by decide))) "key-3" Sample.now

/-- Engine 0 buys, engine 1 sells all of it, and one of them buys again. -/
def buySellBuy (last : ℕ) : List WorldInput :=
  [.call 0 sampleBuy Faults.none, .call 1 sampleSell Faults.none, .call last sampleBuyAgain Faults.none]

/-- The texts that the sample calls hash, with their SHA-256 digests. -/
def sampleDigests : List (String × String) :=
  [("nse|vwap_pullback|1.0.0|5m|30m|1",
    "ccf01d6774b2a296012e6bd2bfcb848003e45be167bd16ec9d2a3e1ffde41a5a"),
   ("paper-order|key-1|decision-1",
    "ee57b67388cb5a95936d1d41c101618f0df3d96bd50a18953f14292001d16295"),
   ("paper-fill|ee57b67388cb5a95936d1d41c101618f0df3d96bd50a18953f14292001d16295|2026-08-15T12:00:00+00:00",
    "633754f7141c9a4b6cc5dbf10be95c38fb341d38ebfcb6fc8c00396930adb803"),
   ("paper-position|nse|paper-1|RELIANCE|633754f7141c9a4b6cc5dbf10be95c38fb341d38ebfcb6fc8c00396930adb803",
    "6ec6c82890d9067b2ab829f0f20342644174ffb6f06740046ea75767d504c3ed"),
   ("paper-realization|633754f7141c9a4b6cc5dbf10be95c38fb341d38ebfcb6fc8c00396930adb803",
    "55ace8ff794066c5c15bc26eddd38e2768e31b7492d48667e2807a361dd4a069"),
   ("paper-order|key-2|decision-2",
    "cf0a462f728a522b1352bde22bd0a01021eee15211f3d2fee800f9722640abdc"),
   ("paper-fill|cf0a462f728a522b1352bde22bd0a01021eee15211f3d2fee800f9722640abdc|2026-08-15T12:00:00+00:00",
    "230ded4e85fbb474b87ed2083d592a07cd9b4d5308d354bb682ee260f695da6d"),
   ("paper-realization|230ded4e85fbb474b87ed2083d592a07cd9b4d5308d354bb682ee260f695da6d",
    "91c85381c97f872e3841865df53a50b6c5aeeb802dd5aba1a502b10568657e38"),
   ("paper-order|key-3|decision-3",
    "4dbecd818c1bae77af176c180d0af011ca5711bcda40e2b89698b14b1d2b91bb"),
   ("paper-fill|4dbecd818c1bae77af176c180d0af011ca5711bcda40e2b89698b14b1d2b91bb|2026-08-15T12:00:00+00:00",
    "9461f5744a7c16021fe9d12d84e45b372d1931d7ecd24519e8511b000f794d68"),
   ("paper-position|nse|paper-1|RELIANCE|9461f5744a7c16021fe9d12d84e45b372d1931d7ecd24519e8511b000f794d68",
    "8016281fc04c227b1cc636375a61e6921ff9b358424df6d7e4833f30b18f49e4"),
   ("paper-realization|9461f5744a7c16021fe9d12d84e45b372d1931d7ecd24519e8511b000f794d68",
    "fa19eb5a106913047e72229cbf3ef307e1acd84586e65ec1800326a2ae8e9aa0")]

/-- The characters of the table. -/
def sampleSpelling : Text.Spelling sampleDigests := by
  repeat' first | exact Text.Spelled.ofList _ | apply Text.Spelled.append | apply Text.Spelling.cons | exact Text.Spelling.nil

/-- The runtime on the sample calls. -/
def sampleHost : Host := Host.recorded sampleDigests

theorem sampleHost_eq : sampleHost = Host.spelled sampleSpelling.chars := Host.spelled_eq sampleSpelling

theorem hexdigest_sampleDigests : ∀ e ∈ sampleDigests, Sha256.hexdigest e.1 = e.2 := by
  apply Sha256.hexdigest_of_spelling sampleSpelling
  -- One text at a time, so that each evaluation is small.
  repeat' first | exact List.forall_mem_nil _ | refine List.forall_mem_cons.mpr ⟨?_, ?_⟩
  all_goals decide +kernel

theorem sampleHost_collisionFree : Text.CollisionFree sampleHost.sha256 :=
  Host.recorded_collisionFree (sampleSpelling.nodup (by decide +kernel)) hexdigest_sampleDigests

/-- Fills at the reference price, without fees. -/
def freePolicy : ExecutionPolicy := ⟨0, 0, by decide⟩

/-- If the engine that sold buys again, its cache is current and the tables are those of one engine. -/
theorem seller_buys_again :
    ((world sampleHost freePolicy).exec (.initial .sample) (buySellBuy 1)).database =
        ((engine sampleHost freePolicy).exec (.initial .sample) ((buySellBuy 1).map WorldInput.toOne)).database ∧
      ((world sampleHost freePolicy).exec (.initial .sample) (buySellBuy 1)).database.positions.map
        (fun p => (p.state, p.signedQuantity)) = [("CLOSED", 0), ("OPEN", 5)] := by
  -- Both in one evaluation, which makes the run once.
  have hrun : (world sampleHost freePolicy).Along CacheCurrent (.initial .sample) (buySellBuy 1) ∧
      ((world sampleHost freePolicy).exec (.initial .sample) (buySellBuy 1)).database.positions.map
        (fun p => (p.state, p.signedQuantity)) = [("CLOSED", 0), ("OPEN", 5)] := by
    rw [sampleHost_eq]
    decide +kernel
  obtain ⟨hcurrent, hpositions⟩ := hrun
  have h := instances_agree_with_one_engine sampleHost sampleHost_collisionFree freePolicy .sample (buySellBuy 1)
    hcurrent
  exact ⟨h.1, hpositions⟩

/-- If the engine that bought first buys again, its cache still holds the position that the other
engine closed: the fill is applied to that position, where one engine opens a new one. -/
theorem stale_cache_reopens_a_closed_position :
    ((world sampleHost freePolicy).exec (.initial .sample) (buySellBuy 0)).database ≠
      ((engine sampleHost freePolicy).exec (.initial .sample) ((buySellBuy 0).map WorldInput.toOne)).database ∧
    ((world sampleHost freePolicy).exec (.initial .sample) (buySellBuy 0)).database.positions.map
      (fun p => (p.state, p.signedQuantity)) = [("OPEN", 15)] ∧
    ((engine sampleHost freePolicy).exec (.initial .sample)
      ((buySellBuy 0).map WorldInput.toOne)).database.positions.map (fun p => (p.state, p.signedQuantity)) =
        [("CLOSED", 0), ("OPEN", 5)] := by
  rw [sampleHost_eq]
  decide +kernel

end NanoDelta.Paper.Postgres
