import Mathlib
import NanoDelta.Contracts
import NanoDelta.Library.Machine

/-!
# Migrations

`persistence/migrations.py`: several processes may apply migrations to one database. Each holds an advisory lock from before
its first read to its end, and does all its work in one transaction, statement by statement. Any statement may raise, the
answer to a commit may be lost, and a process may be killed.

* `runners`: the processes over one database, as a machine.
* `applyAtOnce`: what one `apply` does to a database that it has for itself.
* `apply_serial`: whatever happens in between, the database is what the committed calls make of it one after the other, and
  a call that returns is one of them.
* `every_script_once`: no version is executed twice, and what a call that returned was given is recorded ever after.
-/

namespace NanoDelta.Persistence

open Library

/-! ### Migrations and their table -/

/-- `Migration`. -/
structure Migration where
  version : String
  sql : String
  checksum : String
  deriving DecidableEq

/-- `load_migrations`, from the names without `.sql` and the texts of the scripts. -/
def loadMigrations (host : Host) (files : List (String × String)) : List Migration :=
  (files.insertionSort fun a b => a.1 ≤ b.1).map fun file => ⟨file.1, file.2, host.sha256 file.2⟩

/-- A row of `control.schema_migrations`. -/
structure MigrationRow where
  version : String
  checksum : String
  deriving DecidableEq

/-- The scripts that were executed, in order, and the rows of `control.schema_migrations`. The scripts do not write that
table. -/
@[ext]
structure Database where
  scripts : List String := []
  rows : List MigrationRow := []
  deriving DecidableEq

namespace Database

/-- The database as a transaction sees it that has done some work of its own. -/
def append (db pending : Database) : Database := ⟨db.scripts ++ pending.scripts, db.rows ++ pending.rows⟩

/-- `SELECT checksum FROM control.schema_migrations WHERE version = %s`. -/
def checksumOf (db : Database) (version : String) : Option String :=
  (db.rows.find? fun row => row.version = version).map MigrationRow.checksum

@[simp] theorem append_empty (db : Database) : db.append {} = db := by simp [append]

/-- A migration is executed and recorded. -/
def add (db : Database) (migration : Migration) : Database :=
  ⟨db.scripts ++ [migration.sql], db.rows ++ [⟨migration.version, migration.checksum⟩]⟩

theorem append_add (db pending : Database) (migration : Migration) :
    db.append (pending.add migration) = (db.append pending).add migration := by
  simp [append, add]

end Database

/-- The error of a checksum that has changed. -/
def checksumMismatch (version : String) : PyError := .runtimeError ("migration checksum mismatch for " ++ version)

/-! ### The processes -/

/-- What a process does next. -/
inductive Stage where
  /-- `SELECT pg_advisory_lock`. -/
  | lock
  /-- `CREATE SCHEMA` and `CREATE TABLE`, if they do not exist. -/
  | create
  /-- `SELECT checksum` for the first of these, or `COMMIT` if there are none. -/
  | select (rest : List Migration)
  /-- The script of a migration. -/
  | script (migration : Migration) (rest : List Migration)
  /-- `INSERT` of its row. -/
  | insert (migration : Migration) (rest : List Migration)
  /-- `SELECT pg_advisory_unlock` and `close`, and then return or raise. -/
  | unlock (result : Except PyError (List String))

/-- A call of `apply`: its argument, what it does next, what its transaction has written, and `applied`. -/
structure Session where
  migrations : List Migration
  stage : Stage := .lock
  pending : Database := {}
  applied : List String := []

/-- What may go wrong with a statement. -/
inductive Fault where
  /-- It raises. -/
  | raises
  /-- It is done, but its answer is lost. -/
  | answerLost
  deriving DecidableEq

/-- What can happen. -/
inductive Input where
  /-- `apply` is called, in process `i`. -/
  | apply (i : ℕ) (migrations : List Migration)
  /-- The next statement of process `i`. -/
  | advance (i : ℕ) (fault : Option Fault)
  /-- Process `i` is killed: its transaction is rolled back, and its lock is free. -/
  | kill (i : ℕ)

/-- The committed database, the holder of the lock, and the calls that have not ended. -/
structure System where
  db : Database := {}
  holder : Option ℕ := none
  sessions : ℕ → Option Session := fun _ => none

/-- What a call returned or raised, with its argument. -/
abbrev Answer := List Migration × Except PyError (List String)

section Runner

-- `execute sql` after some scripts: it may raise.
variable (execute : List String → String → Except PyError Unit)

/-- `rollback`, and on to the end. -/
def Session.fail (session : Session) (e : PyError) : Session :=
  { session with stage := .unlock (.error e), pending := {} }

/-- A statement other than the lock, the commit and the unlock, in a database that has `db` committed. -/
def Session.statement (session : Session) (db : Database) : Session :=
  let view := db.append session.pending
  match session.stage with
  | .create => { session with stage := .select session.migrations }
  | .select (migration :: rest) =>
    match view.checksumOf migration.version with
    | some existing =>
      if existing ≠ migration.checksum then session.fail (checksumMismatch migration.version)
      else { session with stage := .select rest }
    | none => { session with stage := .script migration rest }
  | .script migration rest =>
    match execute view.scripts migration.sql with
    | .error e => session.fail e
    | .ok _ =>
      { session with
        stage := .insert migration rest
        pending := { session.pending with scripts := session.pending.scripts ++ [migration.sql] } }
  | .insert migration rest =>
    match view.checksumOf migration.version with
    | some _ => session.fail (.databaseError "schema_migrations_pkey")
    | none =>
      { session with
        stage := .select rest
        pending := { session.pending with
          rows := session.pending.rows ++ [⟨migration.version, migration.checksum⟩] }
        applied := session.applied ++ [migration.version] }
  | _ => session

/-- A process ends. -/
def System.close (s : System) (i : ℕ) : System :=
  { s with
    holder := if s.holder = some i then none else s.holder
    sessions := Function.update s.sessions i none }

/-- The error of a statement with a fault. -/
def connectionLost : PyError := .databaseError "connection lost"

/-- The next statement of process `i`. -/
def System.advance (s : System) (i : ℕ) (session : Session) (fault : Option Fault) : System × Option Answer :=
  let become := fun session : Session => { s with sessions := Function.update s.sessions i (some session) }
  match session.stage, fault with
  | .unlock result, none => (s.close i, some (session.migrations, result))
  | .unlock _, some _ => (s.close i, some (session.migrations, .error connectionLost))
  | .lock, some .raises => (become (session.fail connectionLost), none)
  | .lock, some .answerLost =>
    ({ become (session.fail connectionLost) with holder := if s.holder = none then some i else s.holder }, none)
  | .lock, none =>
    if s.holder = none then
      ({ become { session with stage := .create } with holder := some i }, none)
    else (s, none)
  | .select [], some .raises => (become (session.fail connectionLost), none)
  | .select [], some .answerLost =>
    ({ become (session.fail connectionLost) with db := s.db.append session.pending }, none)
  | .select [], none =>
    ({ become { session with stage := .unlock (.ok session.applied), pending := {} } with
        db := s.db.append session.pending }, none)
  | _, some _ => (become (session.fail connectionLost), none)
  | _, none => (become (session.statement execute s.db), none)

/-- The processes over one database. -/
def runners : Machine System Input (Option Answer) where
  step s
    | .apply i migrations =>
      match s.sessions i with
      | some _ => (s, none)
      | none => ({ s with sessions := Function.update s.sessions i (some { migrations }) }, none)
    | .advance i fault =>
      match s.sessions i with
      | none => (s, none)
      | some session => s.advance execute i session fault
    | .kill i => (s.close i, none)

/-! ### One call at a time -/

/-- One migration, in a database of its own. -/
def applyOne (done : Database × List String) (migration : Migration) : Except PyError (Database × List String) :=
  match done.1.checksumOf migration.version with
  | some existing =>
    if existing ≠ migration.checksum then .error (checksumMismatch migration.version) else .ok done
  | none => do
    execute done.1.scripts migration.sql
    return (done.1.add migration, done.2 ++ [migration.version])

/-- `apply`, in a database of its own: the database afterwards, and what it returns. -/
def applyAtOnce (db : Database) (migrations : List Migration) : Except PyError (Database × List String) :=
  migrations.foldlM (applyOne execute) (db, [])

/-- The calls that have committed, in order: what they were given, and what they applied. -/
abbrev Log := List (List Migration × List String)

/-- The database after the calls of a log, one after the other. -/
inductive Commits : Log → Database → Prop
  | start : Commits [] {}
  | next {log : Log} {db db' : Database} {migrations : List Migration} {applied : List String} (h : Commits log db)
      (happly : applyAtOnce execute db migrations = .ok (db', applied)) : Commits (log ++ [(migrations, applied)]) db'

/-! ### What the processes do -/

variable {execute}

/-- What the rest of a call comes to, after some work of its own. -/
def Session.rest (execute : List String → String → Except PyError Unit) (db : Database) (session : Session)
    (rest : List Migration) : Except PyError (Database × List String) :=
  rest.foldlM (applyOne execute) (db.append session.pending, session.applied)

/-- A call that has not ended, in a database that has `db` committed: what is left of it comes to what all of it comes to;
and what it is about to return is in the log. -/
def Session.Going (execute : List String → String → Except PyError Unit) (db : Database) (log : Log) (session : Session) :
    Prop :=
  match session.stage with
  | .lock => session.pending = {} ∧ session.applied = []
  | .create => session.pending = {} ∧ session.applied = []
  | .select rest => session.rest execute db rest = applyAtOnce execute db session.migrations
  | .script migration rest =>
    session.rest execute db (migration :: rest) = applyAtOnce execute db session.migrations ∧
      (db.append session.pending).checksumOf migration.version = none
  | .insert migration rest =>
    -- The script is executed, its row is not there yet.
    ∃ before : Database, session.pending = { before with scripts := before.scripts ++ [migration.sql] } ∧
      (migration :: rest).foldlM (applyOne execute) (db.append before, session.applied) =
        applyAtOnce execute db session.migrations ∧
      (db.append before).checksumOf migration.version = none ∧
      execute (db.append before).scripts migration.sql = .ok ()
  | .unlock (.ok applied) => (session.migrations, applied) ∈ log
  | .unlock (.error _) => True

/-- A call that may have the lock. -/
def Session.inside (session : Session) : Bool :=
  match session.stage with
  | .lock => false
  | .unlock _ => false
  | _ => true

theorem Session.going_fail (session : Session) (e : PyError) (db : Database) (log : Log) :
    (session.fail e).Going execute db log := trivial

/-- **One statement** of a call. -/
theorem Session.Going.statement {db : Database} {log : Log} {session : Session} (h : session.Going execute db log) :
    (session.statement execute db).Going execute db log := by
  obtain ⟨migrations, stage, pending, applied⟩ := session
  cases stage with
  | lock => exact h
  | unlock result => exact h
  | create =>
    obtain ⟨hpending, happlied⟩ := h
    dsimp only at hpending happlied
    subst hpending happlied
    simp [Session.statement, Session.Going, Session.rest, applyAtOnce]
  | select rest =>
    cases rest with
    | nil => exact h
    | cons migration rest =>
      simp only [Session.Going, Session.rest] at h
      cases hchecksum : (db.append pending).checksumOf migration.version with
      | none => simp only [Session.statement, Session.Going, Session.rest, hchecksum, h, and_self]
      | some existing =>
        by_cases hsame : existing = migration.checksum
        · have hstatement : Session.statement execute ⟨migrations, .select (migration :: rest), pending, applied⟩ db =
              ⟨migrations, .select rest, pending, applied⟩ := by
            simp [Session.statement, hchecksum, hsame]
          have hone : applyOne execute (db.append pending, applied) migration = .ok (db.append pending, applied) := by
            simp [applyOne, hchecksum, hsame]
          rw [List.foldlM_cons, hone] at h
          rw [hstatement]
          exact h
        · have hstatement : Session.statement execute ⟨migrations, .select (migration :: rest), pending, applied⟩ db =
              Session.fail ⟨migrations, .select (migration :: rest), pending, applied⟩
                (checksumMismatch migration.version) := by
            simp [Session.statement, hchecksum, hsame]
          rw [hstatement]
          exact Session.going_fail _ _ db log
  | script migration rest =>
    obtain ⟨hrest, hnone⟩ := h
    cases hexecute : execute (db.append pending).scripts migration.sql with
    | error e =>
      simp only [Session.statement, hexecute]
      exact Session.going_fail _ _ db log
    | ok u =>
      simp only [Session.statement, hexecute]
      exact ⟨pending, rfl, hrest, hnone, hexecute⟩
  | insert migration rest =>
    obtain ⟨before, hpending, hrest, hnone, hexecute⟩ := h
    dsimp only at hpending hrest
    subst hpending
    have hone : applyOne execute (db.append before, applied) migration =
        .ok ((db.append before).add migration, applied ++ [migration.version]) := by
      simp only [applyOne, hnone, hexecute]
      rfl
    rw [List.foldlM_cons, hone, ← Database.append_add] at hrest
    have hview : (db.append { before with scripts := before.scripts ++ [migration.sql] }).checksumOf migration.version =
        none := hnone
    simp only [Session.statement, hview]
    exact hrest

/-- A call that does not have the lock says nothing about the database. -/
theorem Session.Going.elsewhere {db db' : Database} {log log' : Log} {session : Session}
    (h : session.Going execute db log) (houtside : session.inside = false) (hlog : log <+: log') :
    session.Going execute db' log' := by
  obtain ⟨migrations, stage, pending, applied⟩ := session
  cases stage with
  | lock => exact h
  | unlock result =>
    cases result with
    | ok applied => exact hlog.subset h
    | error e => trivial
  | create => cases houtside
  | select rest => cases houtside
  | script migration rest => cases houtside
  | insert migration rest => cases houtside

@[simp] theorem Session.migrations_statement (session : Session) (db : Database) :
    (session.statement execute db).migrations = session.migrations := by
  unfold Session.statement Session.fail
  dsimp only
  repeat' split
  all_goals rfl

/-- **The invariant**: the database is what the committed calls make of it one after the other, every call is on its way, and
only the holder of the lock is at work. All calls are given migrations with the property `given`. -/
structure Sound (execute : List String → String → Except PyError Unit) (given : List Migration → Prop) (s : System)
    (log : Log) : Prop where
  commits : Commits execute log s.db
  going : ∀ i, ∀ session ∈ s.sessions i, session.Going execute s.db log ∧ given session.migrations
  alone : ∀ i, ∀ session ∈ s.sessions i, session.inside = true → s.holder = some i
  logged : ∀ entry ∈ log, given entry.1

namespace Sound

variable {given : List Migration → Prop} {s : System} {log : Log} {i : ℕ} {session : Session}

/-- One call goes on. -/
theorem become (h : Sound execute given s log) (hgoing : session.Going execute s.db log)
    (hgiven : given session.migrations) (halone : session.inside = true → s.holder = some i) :
    Sound execute given { s with sessions := Function.update s.sessions i (some session) } log where
  commits := h.commits
  going := by
    intro j session' hsession
    by_cases hj : j = i
    · subst hj
      simp only [Function.update_self, Option.mem_some_iff] at hsession
      rw [← hsession]
      exact ⟨hgoing, hgiven⟩
    · exact h.going j session' (by simpa [hj] using hsession)
  alone := by
    intro j session' hsession
    by_cases hj : j = i
    · subst hj
      simp only [Function.update_self, Option.mem_some_iff] at hsession
      rwa [← hsession]
    · exact h.alone j session' (by simpa [hj] using hsession)
  logged := h.logged

/-- A process takes the lock, which nobody has. -/
theorem take (h : Sound execute given s log) (hfree : s.holder = none) (i : ℕ) :
    Sound execute given { s with holder := some i } log where
  commits := h.commits
  going := h.going
  alone := by
    intro j session hsession hinside
    have hholder := h.alone j session hsession hinside
    rw [hfree] at hholder
    cases hholder
  logged := h.logged

/-- A process ends. -/
theorem close (h : Sound execute given s log) (i : ℕ) : Sound execute given (s.close i) log where
  commits := h.commits
  going := by
    intro j session hsession
    by_cases hj : j = i
    · simp [System.close, hj] at hsession
    · exact h.going j session (by simpa [System.close, hj] using hsession)
  alone := by
    intro j session hsession hinside
    by_cases hj : j = i
    · simp [System.close, hj] at hsession
    · have hholder := h.alone j session (by simpa [System.close, hj] using hsession) hinside
      simp [System.close, hholder, hj]
  logged := h.logged

/-- A call commits. -/
theorem commit (h : Sound execute given s log) (hsession : session ∈ s.sessions i) (hstage : session.stage = .select []) :
    let entry := (session.migrations, session.applied)
    ∀ session' : Session, session'.inside = false → session'.migrations = session.migrations →
      session'.Going execute (s.db.append session.pending) (log ++ [entry]) → Sound execute given { s with
        sessions := Function.update s.sessions i (some session'), db := s.db.append session.pending } (log ++ [entry]) := by
  intro entry session' houtside hmigrations hgoing
  have hinside : session.inside = true := by simp [Session.inside, hstage]
  have hholder := h.alone i session hsession hinside
  obtain ⟨hall, hgiven⟩ := h.going i session hsession
  simp only [Session.Going, hstage, Session.rest, List.foldlM_nil] at hall
  refine ⟨h.commits.next hall.symm, ?_, ?_, List.forall_mem_append.mpr ⟨h.logged, by simpa [entry] using hgiven⟩⟩
  · intro j other hother
    by_cases hj : j = i
    · subst hj
      simp only [Function.update_self, Option.mem_some_iff] at hother
      rw [← hother, hmigrations]
      exact ⟨hgoing, hgiven⟩
    · have hmem : other ∈ s.sessions j := by simpa [hj] using hother
      have hout : other.inside = false := by
        cases hin : other.inside with
        | false => rfl
        | true =>
          have hsame := h.alone j other hmem hin
          rw [hholder] at hsame
          exact absurd (Option.some.inj hsame).symm hj
      exact ⟨(h.going j other hmem).1.elsewhere hout (List.prefix_append _ _), (h.going j other hmem).2⟩
  · intro j other hother
    by_cases hj : j = i
    · subst hj
      simp only [Function.update_self, Option.mem_some_iff] at hother
      rw [← hother, houtside]
      simp
    · exact h.alone j other (by simpa [hj] using hother)

end Sound

/-- The log grows by at most one call, and what a call returns is in the log. -/
def Grows (execute : List String → String → Except PyError Unit) (given : List Migration → Prop) (log : Log)
    (r : System × Option Answer) : Prop :=
  ∃ log', log <+: log' ∧ Sound execute given r.1 log' ∧
    ∀ migrations applied, r.2 = some (migrations, .ok applied) → (migrations, applied) ∈ log'

section Step

variable {given : List Migration → Prop} {s : System} {log : Log} {i : ℕ} {session : Session}

/-- A step that returns nothing and commits nothing. -/
theorem Sound.grows (h : Sound execute given s log) : Grows execute given log (s, none) := ⟨log, List.prefix_rfl, h, by simp⟩

/-- **One statement** of a call, with or without a fault. -/
theorem Sound.advance (h : Sound execute given s log) (hsession : session ∈ s.sessions i) (fault : Option Fault) :
    Grows execute given log (s.advance execute i session fault) := by
  obtain ⟨hgoing, hgiven⟩ := h.going i session hsession
  have halone := h.alone i session hsession
  have hfail : Sound execute given { s with
      sessions := Function.update s.sessions i (some (session.fail connectionLost)) } log :=
    h.become (Session.going_fail session connectionLost s.db log) hgiven (by simp [Session.fail, Session.inside])
  have hstatement : session.inside = true → Sound execute given { s with
      sessions := Function.update s.sessions i (some (session.statement execute s.db)) } log :=
    fun hinside => h.become hgoing.statement (by simpa using hgiven) fun _ => halone hinside
  cases hstage : session.stage with
  | lock =>
    cases fault with
    | none =>
      by_cases hfree : s.holder = none
      · simp only [System.advance, hstage, hfree, if_true]
        have hnext : Session.Going execute s.db log { session with stage := .create } := by
          simpa only [Session.Going, hstage] using hgoing
        exact ((h.take hfree i).become hnext hgiven fun _ => rfl).grows
      · simp only [System.advance, hstage, hfree, if_false]
        exact h.grows
    | some fault =>
      cases fault with
      | raises =>
        simp only [System.advance, hstage]
        exact hfail.grows
      | answerLost =>
        simp only [System.advance, hstage]
        by_cases hfree : s.holder = none
        · simp only [hfree, if_true]
          exact ((h.take hfree i).become (Session.going_fail session connectionLost s.db log) hgiven
            (by simp [Session.fail, Session.inside])).grows
        · simp only [hfree, if_false]
          exact hfail.grows
  | unlock result =>
    cases fault with
    | none =>
      simp only [System.advance, hstage]
      refine ⟨log, List.prefix_rfl, h.close i, fun migrations applied hanswer => ?_⟩
      simp only [Option.some.injEq, Prod.mk.injEq] at hanswer
      obtain ⟨rfl, rfl⟩ := hanswer
      simpa only [Session.Going, hstage] using hgoing
    | some fault =>
      simp only [System.advance, hstage]
      exact ⟨log, List.prefix_rfl, h.close i, by simp⟩
  | create =>
    cases fault with
    | none =>
      simp only [System.advance, hstage]
      exact (hstatement (by simp [Session.inside, hstage])).grows
    | some fault =>
      simp only [System.advance, hstage]
      exact hfail.grows
  | script migration rest =>
    cases fault with
    | none =>
      simp only [System.advance, hstage]
      exact (hstatement (by simp [Session.inside, hstage])).grows
    | some fault =>
      simp only [System.advance, hstage]
      exact hfail.grows
  | insert migration rest =>
    cases fault with
    | none =>
      simp only [System.advance, hstage]
      exact (hstatement (by simp [Session.inside, hstage])).grows
    | some fault =>
      simp only [System.advance, hstage]
      exact hfail.grows
  | select rest =>
    cases rest with
    | cons migration rest =>
      cases fault with
      | none =>
        simp only [System.advance, hstage]
        exact (hstatement (by simp [Session.inside, hstage])).grows
      | some fault =>
        simp only [System.advance, hstage]
        exact hfail.grows
    | nil =>
      have hcommit := h.commit hsession hstage
      cases fault with
      | none =>
        simp only [System.advance, hstage]
        refine ⟨_, List.prefix_append _ _, hcommit _ rfl rfl ?_, by simp⟩
        exact List.mem_append_right _ (List.mem_singleton_self _)
      | some fault =>
        cases fault with
        | raises =>
          simp only [System.advance, hstage]
          exact hfail.grows
        | answerLost =>
          simp only [System.advance, hstage]
          exact ⟨_, List.prefix_append _ _, hcommit _ rfl rfl (Session.going_fail _ _ _ _), by simp⟩

/-- **One step.** -/
theorem Sound.step (h : Sound execute given s log) (input : Input)
    (hgiven : ∀ i migrations, input = .apply i migrations → given migrations) :
    Grows execute given log ((runners execute).step s input) := by
  cases input with
  | apply i migrations =>
    simp only [runners]
    cases hsession : s.sessions i with
    | some session => exact h.grows
    | none =>
      have hstart : Session.Going execute s.db log { migrations } := ⟨rfl, rfl⟩
      exact (h.become hstart (hgiven i migrations rfl) (by simp [Session.inside])).grows
  | kill i => exact (h.close i).grows
  | advance i fault =>
    simp only [runners]
    cases hsession : s.sessions i with
    | none => exact h.grows
    | some session => exact h.advance hsession fault

/-- **A whole run.** -/
theorem Sound.run (h : Sound execute given s log) (inputs : List Input)
    (hgiven : ∀ i migrations, .apply i migrations ∈ inputs → given migrations) :
    ∃ log', log <+: log' ∧ Sound execute given ((runners execute).exec s inputs) log' ∧
      ∀ migrations applied, some (migrations, .ok applied) ∈ (runners execute).outputs s inputs →
        (migrations, applied) ∈ log' := by
  induction inputs generalizing s log with
  | nil => exact ⟨log, List.prefix_rfl, h, by simp [Machine.outputs]⟩
  | cons input inputs ih =>
    obtain ⟨log₁, hlog₁, h₁, hanswer₁⟩ := h.step input fun i migrations heq => hgiven i migrations (by simp [heq])
    obtain ⟨log₂, hlog₂, h₂, hanswer₂⟩ := ih h₁ fun i migrations hmem => hgiven i migrations (List.mem_cons_of_mem _ hmem)
    refine ⟨log₂, hlog₁.trans hlog₂, h₂, fun migrations applied hmem => ?_⟩
    rcases List.mem_cons.mp hmem with hfirst | hrest
    · exact hlog₂.subset (hanswer₁ migrations applied hfirst.symm)
    · exact hanswer₂ migrations applied hrest

end Step

/-- **Calls are atomic**: however the calls of `apply` interleave, whatever raises, whatever answer is lost and whoever is
killed, the database is what some of the calls make of it one after the other, each of them in a database of its own, and
every call that returns is one of them and returns what it returns there. -/
theorem apply_serial (execute : List String → String → Except PyError Unit) (inputs : List Input) :
    ∃ log, Commits execute log ((runners execute).exec {} inputs).db ∧
      (∀ entry ∈ log, ∃ i, .apply i entry.1 ∈ inputs) ∧
      ∀ migrations applied, some (migrations, .ok applied) ∈ (runners execute).outputs {} inputs →
        (migrations, applied) ∈ log := by
  have hstart : Sound execute (fun migrations => ∃ i, .apply i migrations ∈ inputs) {} [] :=
    ⟨Commits.start, fun _ _ h => (by cases h), fun _ _ h => (by cases h), fun _ h => (by cases h)⟩
  obtain ⟨log, -, hsound, hanswer⟩ := hstart.run inputs fun i migrations hmem => ⟨i, hmem⟩
  exact ⟨log, hsound.commits, hsound.logged, hanswer⟩

/-! ### What is recorded -/

/-- The database holds these migrations, in order, and no version twice. -/
structure Holds (db : Database) (done : List Migration) : Prop where
  scripts : db.scripts = done.map Migration.sql
  rows : db.rows = done.map fun migration => ⟨migration.version, migration.checksum⟩
  once : (done.map Migration.version).Nodup

theorem Holds.checksumOf {db : Database} {done : List Migration} (h : Holds db done) (version : String) :
    db.checksumOf version = (done.find? fun migration => migration.version = version).map Migration.checksum := by
  unfold Database.checksumOf
  rw [h.rows, List.find?_map]
  simp [Function.comp_def]

theorem Holds.checksumOf_mem {db : Database} {done : List Migration} (h : Holds db done) {migration : Migration}
    (hmem : migration ∈ done) : db.checksumOf migration.version = some migration.checksum := by
  rw [h.checksumOf]
  cases hfind : done.find? fun other => other.version = migration.version with
  | none => simpa using List.find?_eq_none.mp hfind migration hmem
  | some other =>
    have hversion : other.version = migration.version := by simpa using List.find?_some hfind
    rw [List.inj_on_of_nodup_map h.once (List.mem_of_find?_eq_some hfind) hmem hversion]
    rfl

/-- Nothing is recorded of a version that is not there. -/
theorem Holds.notMem {db : Database} {done : List Migration} (h : Holds db done) {version : String}
    (hnone : db.checksumOf version = none) : version ∉ done.map Migration.version := by
  intro hmem
  obtain ⟨migration, hmigration, rfl⟩ := List.mem_map.mp hmem
  rw [h.checksumOf_mem hmigration] at hnone
  cases hnone

/-- One migration: it is there already, or it is added. -/
theorem Holds.applyOne {db db' : Database} {done : List Migration} {applied applied' : List String} {migration : Migration}
    (h : Holds db done) (happly : applyOne execute (db, applied) migration = .ok (db', applied')) :
    ∃ more, Holds db' (done ++ more) ∧ more ⊆ [migration] ∧ applied' = applied ++ more.map Migration.version ∧
      db'.checksumOf migration.version = some migration.checksum := by
  unfold Persistence.applyOne at happly
  cases hchecksum : db.checksumOf migration.version with
  | some existing =>
    simp only [hchecksum] at happly
    split_ifs at happly with hsame
    simp only [Except.ok.injEq, Prod.mk.injEq] at happly
    obtain ⟨rfl, rfl⟩ := happly
    refine ⟨[], by simpa using h, List.nil_subset _, by simp, ?_⟩
    rw [hchecksum, not_ne_iff.mp hsame]
  | none =>
    simp only [hchecksum] at happly
    cases hexecute : execute db.scripts migration.sql with
    | error e =>
      rw [hexecute] at happly
      cases happly
    | ok u =>
      rw [hexecute] at happly
      cases happly
      have hadded : Holds (db.add migration) (done ++ [migration]) := by
        refine ⟨by simp [Database.add, h.scripts], by simp [Database.add, h.rows], ?_⟩
        rw [List.map_append]
        exact List.nodup_append.mpr ⟨h.once, List.nodup_singleton _, by
          intro version hversion other hother
          rw [List.mem_singleton.mp hother]
          exact fun heq => h.notMem hchecksum (heq ▸ hversion)⟩
      exact ⟨[migration], hadded, List.Subset.refl _, rfl, hadded.checksumOf_mem (by simp)⟩

/-- What is recorded of a version stays. -/
theorem Holds.checksumOf_append {db db' : Database} {done more : List Migration} (h : Holds db done)
    (h' : Holds db' (done ++ more)) {version checksum : String} (hversion : db.checksumOf version = some checksum) :
    db'.checksumOf version = some checksum := by
  rw [h.checksumOf] at hversion
  rw [h'.checksumOf, List.find?_append]
  obtain ⟨migration, hfind, hchecksum⟩ := Option.map_eq_some_iff.mp hversion
  rw [hfind]
  simpa using hchecksum

/-- A whole call. -/
theorem Holds.applyAll {db db' : Database} {done migrations : List Migration} {applied applied' : List String}
    (h : Holds db done) (happly : migrations.foldlM (Persistence.applyOne execute) (db, applied) = .ok (db', applied')) :
    ∃ more, Holds db' (done ++ more) ∧ more ⊆ migrations ∧ applied' = applied ++ more.map Migration.version ∧
      ∀ migration ∈ migrations, db'.checksumOf migration.version = some migration.checksum := by
  induction migrations generalizing db done applied with
  | nil =>
    cases happly
    exact ⟨[], by simpa using h, List.nil_subset _, by simp, by simp⟩
  | cons migration migrations ih =>
    rw [List.foldlM_cons] at happly
    cases hone : Persistence.applyOne execute (db, applied) migration with
    | error e =>
      rw [hone] at happly
      cases happly
    | ok next =>
      rw [hone] at happly
      obtain ⟨more₁, h₁, hsub₁, happlied₁, hchecksum₁⟩ := h.applyOne hone
      obtain ⟨more₂, h₂, hsub₂, happlied₂, hchecksum₂⟩ := ih h₁ happly
      refine ⟨more₁ ++ more₂, by simpa using h₂, ?_, ?_, List.forall_mem_cons.mpr ⟨?_, hchecksum₂⟩⟩
      · exact List.append_subset.mpr ⟨fun m hm => List.mem_cons.mpr (Or.inl (List.mem_singleton.mp (hsub₁ hm))),
          fun m hm => List.mem_cons_of_mem _ (hsub₂ hm)⟩
      · simp [happlied₂, happlied₁]
      · exact h₁.checksumOf_append h₂ hchecksum₁

/-- Migrations that are all there already: nothing is done. -/
theorem applyAtOnce_of_recorded {db : Database} {migrations : List Migration}
    (h : ∀ migration ∈ migrations, db.checksumOf migration.version = some migration.checksum) :
    applyAtOnce execute db migrations = .ok (db, []) := by
  unfold applyAtOnce
  induction migrations with
  | nil => rfl
  | cons migration migrations ih =>
    obtain ⟨hfirst, hrest⟩ := List.forall_mem_cons.mp h
    have hone : applyOne execute (db, []) migration = .ok (db, []) := by simp [applyOne, hfirst]
    rw [List.foldlM_cons, hone]
    exact ih hrest

/-- **What is in the database** after some calls: their migrations, each version once; and all of each call that committed. -/
theorem Commits.holds {log : Log} {db : Database} (h : Commits execute log db) :
    ∃ done, Holds db done ∧ (∀ migration ∈ done, ∃ entry ∈ log, migration ∈ entry.1) ∧
      done.map Migration.version = (log.map Prod.snd).flatten ∧
      ∀ entry ∈ log, ∀ migration ∈ entry.1, db.checksumOf migration.version = some migration.checksum := by
  induction h with
  | start => exact ⟨[], ⟨rfl, rfl, List.nodup_nil⟩, by simp, rfl, by simp⟩
  | next h happly ih =>
    obtain ⟨done, hholds, hfrom, hversions, hall⟩ := ih
    obtain ⟨more, hholds', hsub, happlied, hlast⟩ := hholds.applyAll happly
    refine ⟨done ++ more, hholds', ?_, by simp [hversions, happlied], ?_⟩
    · intro migration hmem
      rcases List.mem_append.mp hmem with hold | hnew
      · obtain ⟨entry, hentry, hin⟩ := hfrom migration hold
        exact ⟨entry, List.mem_append_left _ hentry, hin⟩
      · exact ⟨_, List.mem_append_right _ (List.mem_singleton_self _), hsub hnew⟩
    · intro entry hentry migration hmem
      rcases List.mem_append.mp hentry with hold | hnew
      · exact hholds.checksumOf_append hholds' (hall entry hold migration hmem)
      · rw [List.mem_singleton.mp hnew] at hmem
        exact hlast migration hmem

/-- **Every script once**: after any run of the processes, the scripts that were executed are those of the migrations that
are recorded, in order, no version twice, and every one of them was given to a call. When a call returns, all of its
migrations are recorded with their checksums, now and ever after, and to apply them again does nothing. -/
theorem every_script_once (execute : List String → String → Except PyError Unit) (inputs : List Input) :
    ∃ done, Holds ((runners execute).exec {} inputs).db done ∧
      (∀ migration ∈ done, ∃ i migrations, .apply i migrations ∈ inputs ∧ migration ∈ migrations) ∧
      ∀ migrations applied, some (migrations, .ok applied) ∈ (runners execute).outputs {} inputs →
        applied ⊆ done.map Migration.version ∧
        (∀ migration ∈ migrations,
          ((runners execute).exec {} inputs).db.checksumOf migration.version = some migration.checksum) ∧
        applyAtOnce execute ((runners execute).exec {} inputs).db migrations =
          .ok (((runners execute).exec {} inputs).db, []) := by
  obtain ⟨log, hcommits, hgiven, hanswer⟩ := apply_serial execute inputs
  obtain ⟨done, hholds, hfrom, hversions, hall⟩ := hcommits.holds
  refine ⟨done, hholds, fun migration hmem => ?_, fun migrations applied hmem => ?_⟩
  · obtain ⟨entry, hentry, hin⟩ := hfrom migration hmem
    obtain ⟨i, hcall⟩ := hgiven entry hentry
    exact ⟨i, entry.1, hcall, hin⟩
  · have hlog := hanswer migrations applied hmem
    refine ⟨?_, hall _ hlog, applyAtOnce_of_recorded (hall _ hlog)⟩
    rw [hversions]
    exact fun version hversion => List.mem_flatten.mpr ⟨applied, List.mem_map.mpr ⟨_, hlog, rfl⟩, hversion⟩

/-- Two processes apply the same script: the second one waits for the lock, and has nothing to do. -/
example :
    ((runners fun _ _ => .ok ()).outputs {} (.apply 0 [⟨"0001", "CREATE", "c1"⟩] :: .apply 1 [⟨"0001", "CREATE", "c1"⟩] ::
      .advance 0 none :: .advance 1 none :: (List.replicate 6 (.advance 0 none)).append
        (List.replicate 5 (.advance 1 none)))).reduceOption =
      [([⟨"0001", "CREATE", "c1"⟩], .ok ["0001"]), ([⟨"0001", "CREATE", "c1"⟩], .ok [])] := by
  decide +kernel

/-- The recorded checksums are those of the scripts that were executed, if the migrations are loaded from files. -/
theorem checksums_of_scripts (host : Host) (execute : List String → String → Except PyError Unit) {inputs : List Input}
    (h : ∀ i migrations, .apply i migrations ∈ inputs → ∃ files, migrations = loadMigrations host files) :
    List.Forall₂ (fun script row => row.checksum = host.sha256 script) ((runners execute).exec {} inputs).db.scripts
      ((runners execute).exec {} inputs).db.rows := by
  obtain ⟨done, hholds, hfrom, -⟩ := every_script_once execute inputs
  rw [hholds.scripts, hholds.rows, List.forall₂_map_left_iff, List.forall₂_map_right_iff, List.forall₂_same]
  intro migration hmem
  obtain ⟨i, migrations, hcall, hin⟩ := hfrom migration hmem
  obtain ⟨files, rfl⟩ := h i migrations hcall
  obtain ⟨file, -, rfl⟩ := List.mem_map.mp hin
  rfl

end Runner

end NanoDelta.Persistence
