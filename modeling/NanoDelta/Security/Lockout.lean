import NanoDelta.Library.Lockout
import NanoDelta.Security.Passwords

/-!
# Login lockout

The failures of a user from an origin are counted in a window, and from `max_failures` on no password is verified until
`locked_until`. Logins of the pair come one after another, since they hold its advisory lock; between them other
transactions commit.

* `attempt`: the statements of a login, from the first one to the commit.
* `attempts`: the logins of a pair as a machine over the database.
* `Tracked`: the passwords that failed are strikes, and the row of the pair is the last of them.
* `lockout_holds`: how many passwords can fail.
-/

namespace NanoDelta.Security

open Library Operations

section Lockout

variable (host : SecurityHost) (store : PostgresSecurityStore)

/-! ### Attempts -/

/-- The next statement verifies a password. -/
def Stage.verifies : Stage → Bool
  | .readUser .. => true
  | _ => false

/-- What a login has done when it ends: whether it verified its password, what its commit writes, and what it
returns. -/
structure Attempt where
  now : Instant
  verified : Bool
  writes : List AuthWrite
  result : Result

/-- The attempt of a transaction that stands before its commit. -/
def Stage.ended (now : Instant) (verified : Bool) : Stage → Except PyError Attempt
  | .commit writes result _ => .ok ⟨now, verified, writes, result⟩
  | _ => .error (.runtimeError "the transaction has not ended")

/-- The statements of `login`, one after another. -/
def attempt (db : Auth) (call : Login) : Except PyError Attempt := do
  let locked ← Stage.statement host store db 0 0 call.now (.lockThrottle call)
  let read ← locked.statement host store db 0 0 call.now
  let verified ← read.statement host store db 0 0 call.now
  let last ← verified.statement host store db 0 0 call.now
  last.ended call.now read.verifies

/-- What happens to a database: a login of the pair, or the write of another transaction. -/
inductive Traffic where
  | login (call : Login)
  | other (write : AuthWrite)

/-- Logins over one database: the outputs are the attempts that ended. -/
def attempts : Machine Auth Traffic (List Attempt) where
  step db
    | .login call =>
      match attempt host store db call with
      | .ok attempt => (attempt.writes.foldl Auth.write db, [attempt])
      | .error _ => (db, [])
    | .other write => (db.write write, [])

/-- The attempts that verified a password, in order. -/
def verifications (db : Auth) (traffic : List Traffic) : List Attempt :=
  ((attempts host store).outputs db traffic).flatten.filter Attempt.verified

/-- A write that leaves the failures of a pair. -/
def AuthWrite.Spares (username sourceHash : String) : AuthWrite → Prop
  | .putThrottle row => ¬ (row.username = username ∧ row.sourceHash = sourceHash)
  | .dropThrottle username' sourceHash' => ¬ (username' = username ∧ sourceHash' = sourceHash)
  | _ => True

/-- Logins of one pair that fail, and writes that leave its failures. -/
def Failing (username sourceHash : String) (db : Auth) : Traffic → Prop
  | .login call =>
    normalize host call.username = username ∧ host.sha256 call.source = sourceHash ∧
      (attempt host store db call).toOption.map Attempt.result = some (.session none)
  | .other write => write.Spares username sourceHash

instance (username sourceHash : String) : ∀ write : AuthWrite, Decidable (write.Spares username sourceHash)
  | .putThrottle _ => instDecidableNot
  | .dropThrottle .. => instDecidableNot
  | .putUser _ => isTrue trivial
  | .revoke .. => isTrue trivial
  | .addSession _ => isTrue trivial
  | .touch .. => isTrue trivial

instance (username sourceHash : String) (db : Auth) :
    ∀ traffic, Decidable (Failing host store username sourceHash db traffic)
  | .login _ => instDecidableAnd
  | .other write => inferInstanceAs (Decidable (write.Spares username sourceHash))

/-- When the login of an input is. -/
def Traffic.time : Traffic → Option Instant
  | .login call => some call.now
  | .other _ => none

/-- The logins come with times that do not go back. -/
def Chronological (traffic : List Traffic) : Prop := (traffic.filterMap Traffic.time).Pairwise (· ≤ ·)

instance (traffic : List Traffic) : Decidable (Chronological traffic) :=
  inferInstanceAs (Decidable ((traffic.filterMap Traffic.time).Pairwise (· ≤ ·)))

/-- The failures that a login finds. -/
def found (db : Auth) (call : Login) : Option ThrottleRow :=
  db.throttleOf (normalize host call.username) (host.sha256 call.source)

/-- The row of a pair after a strike. -/
def throttleRow (username sourceHash : String) (strike : Strike) : ThrottleRow :=
  ⟨username, sourceHash, strike.count, strike.start,
    if store.maxFailures ≤ strike.count then some (strike.time + store.lockout) else none⟩

/-- The attempt that a strike is. -/
def attemptOf (username sourceHash : String) (strike : Strike) : Attempt :=
  ⟨strike.time, true, [.putThrottle (throttleRow store username sourceHash strike)], .session none⟩

/-- The passwords that failed are strikes, and the row of the pair is the last of them. -/
structure Tracked (username sourceHash : String) (times : List Instant) (db : Auth) (verified : List Attempt)
    (strikes : List Strike) (last : Option Strike) : Prop where
  counted : CountedStrikes store.maxFailures store.failureWindow store.lockout strikes last
  verified : verified = strikes.map (attemptOf store username sourceHash)
  row : db.throttleOf username sourceHash = last.map (throttleRow store username sourceHash)
  times : ∀ strike ∈ last, strike.time ∈ times

variable {host store} {db : Auth} {call : Login} {a : Attempt} {username sourceHash : String}

/-- The failures of a pair are locked at a time. -/
def LockedAt (throttle : Option ThrottleRow) (now : Instant) : Prop :=
  ∃ row ∈ throttle, ∃ lockedUntil ∈ row.lockedUntil, now < lockedUntil

variable (host store db call) in
/-- The statement that verifies the password. -/
theorem readUser_statement (throttle : Option ThrottleRow) :
    (∃ row, Stage.statement host store db 0 0 call.now (.readUser call throttle) = .ok (.insertSession call row 0)) ∨
      Stage.statement host store db 0 0 call.now (.readUser call throttle) =
        .ok (.commit [.putThrottle (failure host store call throttle)] (.session none) none) := by
  rw [Stage.statement]
  cases db.activeUser (normalize host call.username) with
  | none => exact Or.inr rfl
  | some row =>
    by_cases hvalid : verifyPassword host call.password row.passwordHash = true
    · exact Or.inl ⟨row, if_pos hvalid⟩
    · exact Or.inr (if_neg hvalid)

/-- A login whose session is inserted has not failed. -/
theorem insertSession_ended {row : UserRow} {stage : Stage}
    (h : Stage.statement host store db 0 0 call.now (.insertSession call row 0) = .ok stage)
    (ha : stage.ended call.now true = .ok a) : a.result ≠ .session none := by
  rw [Stage.statement] at h
  split_ifs at h with hclash
  cases h
  cases ha
  simp

/-- **A login that fails** was locked, or its password was verified and the failure is counted. -/
theorem attempt_failed (h : attempt host store db call = .ok a) (hfailed : a.result = .session none) :
    LockedAt (found host db call) call.now ∧ a = ⟨call.now, false, [], .session none⟩ ∨
      ¬ LockedAt (found host db call) call.now ∧
        a = ⟨call.now, true, [.putThrottle (failure host store call (found host db call))], .session none⟩ := by
  have hattempt : attempt host store db call = (do
      let read ← Stage.statement host store db 0 0 call.now (.readThrottle call)
      let verified ← read.statement host store db 0 0 call.now
      let last ← verified.statement host store db 0 0 call.now
      last.ended call.now read.verifies) := rfl
  rw [hattempt] at h
  by_cases hlocked : LockedAt (found host db call) call.now
  · have hread : Stage.statement host store db 0 0 call.now (.readThrottle call) =
        .ok (.commit [] (.session none) none) :=
      if_pos hlocked
    rw [hread] at h
    cases h
    exact Or.inl ⟨hlocked, rfl⟩
  · have hread : Stage.statement host store db 0 0 call.now (.readThrottle call) =
        .ok (.readUser call (found host db call)) :=
      if_neg hlocked
    refine Or.inr ⟨hlocked, ?_⟩
    rw [hread] at h
    have hverify : (do
        let verified ← Stage.statement host store db 0 0 call.now (.readUser call (found host db call))
        let last ← verified.statement host store db 0 0 call.now
        last.ended call.now true) = .ok a := h
    rcases readUser_statement host store db call (found host db call) with ⟨row, hnext⟩ | hnext
    · rw [hnext] at hverify
      obtain ⟨_, hinsert, hverify⟩ := Effect.except_bind_eq_ok.mp hverify
      cases hinsert
      obtain ⟨stage, hstage, ha⟩ := Effect.except_bind_eq_ok.mp hverify
      exact absurd hfailed (insertSession_ended hstage ha)
    · rw [hnext] at hverify
      cases hverify
      rfl

/-! ### Strikes -/

theorem throttleOf_putThrottle (db : Auth) (row : ThrottleRow) :
    (db.write (.putThrottle row)).throttleOf row.username row.sourceHash = some row :=
  Table.find?_upserted ⟨rfl, rfl⟩ db.loginThrottle

theorem throttleOf_of_spares {write : AuthWrite} (h : write.Spares username sourceHash) (db : Auth) :
    (db.write write).throttleOf username sourceHash = db.throttleOf username sourceHash := by
  cases write with
  | putThrottle row =>
    apply Table.find?_upserted_of_ne
    · rintro r ⟨huser, hsource⟩
      rw [decide_eq_false_iff_not, huser, hsource]
      exact h
    · rw [decide_eq_false_iff_not]
      exact h
  | dropThrottle username' sourceHash' =>
    unfold Auth.throttleOf Auth.write
    rw [List.find?_filter]
    congr 1
    funext r
    by_cases hr : r.username = username ∧ r.sourceHash = sourceHash
    · obtain ⟨rfl, rfl⟩ := hr
      have hne : ¬ (r.username = username' ∧ r.sourceHash = sourceHash') := fun heq => h ⟨heq.1.symm, heq.2.symm⟩
      simp [hne]
    · simp [hr]
  | putUser row => rfl
  | revoke ids now => rfl
  | addSession row => rfl
  | touch token now => rfl

/-- **A failure is the next strike.** -/
theorem exists_strike {last : Option Strike} (hlast : ∀ strike ∈ last, strike.time ≤ call.now)
    (hfree : ¬ LockedAt (last.map (throttleRow store (normalize host call.username) (host.sha256 call.source)))
      call.now) :
    ∃ strike, strike.time = call.now ∧ Counts store.maxFailures store.failureWindow store.lockout last strike ∧
      failure host store call (last.map (throttleRow store (normalize host call.username) (host.sha256 call.source))) =
        throttleRow store (normalize host call.username) (host.sha256 call.source) strike := by
  cases last with
  | none => exact ⟨⟨call.now, call.now, 1⟩, rfl, ⟨rfl, rfl⟩, rfl⟩
  | some last =>
    have hlock : store.maxFailures ≤ last.count → last.time + store.lockout ≤ call.now := by
      intro hfull
      by_contra hearly
      apply hfree
      refine ⟨_, rfl, last.time + store.lockout, ?_, not_le.mp hearly⟩
      simp [throttleRow, hfull]
    by_cases hin : call.now - last.start ≤ store.failureWindow
    · refine ⟨⟨call.now, last.start, last.count + 1⟩, rfl, ⟨hlast last rfl, hlock, Or.inl ⟨hin, rfl, rfl⟩⟩, ?_⟩
      simp [failure, throttleRow, hin]
    · refine ⟨⟨call.now, call.now, 1⟩, rfl, ⟨hlast last rfl, hlock, Or.inr ⟨not_le.mp hin, rfl, rfl⟩⟩, ?_⟩
      simp [failure, throttleRow, hin]

/-- **One more input** of a run that fails. -/
theorem Tracked.step {times : List Instant} {verified : List Attempt} {strikes : List Strike} {last : Option Strike}
    (h : Tracked store username sourceHash times db verified strikes last) {traffic : Traffic}
    (hfailing : Failing host store username sourceHash db traffic)
    (htimes : ∀ now ∈ traffic.time, ∀ t ∈ times, t ≤ now) :
    ∃ strikes' last', Tracked store username sourceHash (times ++ traffic.time.toList)
      ((attempts host store).step db traffic).1
      (verified ++ ((attempts host store).step db traffic).2.filter Attempt.verified) strikes' last' := by
  cases traffic with
  | other write =>
    refine ⟨strikes, last, h.counted, ?_, ?_, ?_⟩
    · exact (List.append_nil _).trans h.verified
    · exact (throttleOf_of_spares hfailing db).trans h.row
    · exact fun strike hstrike => List.mem_append_left _ (h.times strike hstrike)
  | login call =>
    obtain ⟨rfl, rfl, hresult⟩ := hfailing
    obtain ⟨a, ha, hfailed⟩ : ∃ a, attempt host store db call = .ok a ∧ a.result = .session none := by
      cases ha : attempt host store db call with
      | error e =>
        rw [ha] at hresult
        cases hresult
      | ok a =>
        rw [ha] at hresult
        exact ⟨a, rfl, Option.some.inj hresult⟩
    have hstep : (attempts host store).step db (.login call) = (a.writes.foldl Auth.write db, [a]) := by
      show (match attempt host store db call with | .ok attempt => _ | .error _ => _) = _
      rw [ha]
    rw [hstep]
    have hlast : ∀ strike ∈ last, strike.time ≤ call.now :=
      fun strike hstrike => htimes call.now rfl strike.time (h.times strike hstrike)
    rcases attempt_failed ha hfailed with ⟨-, rfl⟩ | ⟨hfree, rfl⟩
    · refine ⟨strikes, last, h.counted, ?_, h.row, ?_⟩
      · exact (List.append_nil _).trans h.verified
      · exact fun strike hstrike => List.mem_append_left _ (h.times strike hstrike)
    · unfold found at hfree ⊢
      rw [h.row] at hfree ⊢
      obtain ⟨strike, htime, hcounts, hrow⟩ := exists_strike hlast hfree
      rw [hrow]
      refine ⟨strikes ++ [strike], some strike, .concat h.counted hcounts, ?_, ?_, ?_⟩
      · rw [h.verified, List.map_append, ← htime]
        rfl
      · exact throttleOf_putThrottle db (throttleRow store _ _ strike)
      · intro strike' hstrike'
        cases hstrike'
        rw [htime]
        exact List.mem_append_right _ (List.mem_singleton_self _)

/-- **The passwords that fail in a run are strikes.** -/
theorem Tracked.run {times : List Instant} {verified : List Attempt} {strikes : List Strike} {last : Option Strike}
    (h : Tracked store username sourceHash times db verified strikes last) {traffic : List Traffic}
    (hfailing : (attempts host store).Along (Failing host store username sourceHash) db traffic)
    (hchron : (times ++ traffic.filterMap Traffic.time).Pairwise (· ≤ ·)) :
    ∃ strikes' last', Tracked store username sourceHash (times ++ traffic.filterMap Traffic.time)
      ((attempts host store).exec db traffic) (verified ++ verifications host store db traffic) strikes' last' := by
  induction traffic generalizing db times verified strikes last with
  | nil => exact ⟨strikes, last, by simpa [verifications, Machine.outputs] using h⟩
  | cons input rest ih =>
    have htimes : times ++ (input :: rest).filterMap Traffic.time =
        times ++ input.time.toList ++ rest.filterMap Traffic.time := by
      cases input <;> simp [Traffic.time, List.filterMap_cons]
    have hverified : verified ++ verifications host store db (input :: rest) =
        verified ++ ((attempts host store).step db input).2.filter Attempt.verified ++
          verifications host store ((attempts host store).step db input).1 rest := by
      simp [verifications, Machine.outputs]
    rw [htimes] at hchron ⊢
    rw [hverified]
    have hnext : ∀ now ∈ input.time, ∀ t ∈ times, t ≤ now := by
      intro now hnow t ht
      have hpairs := (List.pairwise_append.mp (List.pairwise_append.mp hchron).1).2.2
      exact hpairs t ht now (Option.mem_toList.mpr hnow)
    obtain ⟨strikes', last', hstep⟩ := h.step hfailing.1 hnext
    exact ih hstep hfailing.2 hchron

end Lockout

section Bound

variable {host : SecurityHost} {store : PostgresSecurityStore} {db : Auth} {username sourceHash : String}

theorem countP_attempts (strikes : List Strike) (first until_ : Instant) :
    (strikes.map (attemptOf store username sourceHash)).countP (fun a => first ≤ a.now ∧ a.now ≤ until_) =
      strikes.countP (fun strike => first ≤ strike.time ∧ strike.time ≤ until_) := by
  rw [List.countP_map]
  rfl

/-- **Too many failures lock a login**: after a counted failure that is one too many no password is verified until
`locked_until`. If the lockout is longer than the window, no more than `max_failures` passwords fail in a window, and in
an interval that is shorter than a window less than twice as many. -/
theorem lockout_holds (hfirst : db.throttleOf username sourceHash = none) {traffic : List Traffic}
    (hfailing : (attempts host store).Along (Failing host store username sourceHash) db traffic)
    (hchron : Chronological traffic) :
    (∀ before a after, verifications host store db traffic = before ++ a :: after →
      ∃ row, a.writes = [.putThrottle row] ∧
        (store.maxFailures ≤ row.failedAttempts →
          ∃ lockedUntil, row.lockedUntil = some lockedUntil ∧ ∀ later ∈ after, lockedUntil ≤ later.now)) ∧
    (1 ≤ store.maxFailures → store.failureWindow < store.lockout →
      (∀ a ∈ verifications host store db traffic, ∀ row, .putThrottle row ∈ a.writes →
        (verifications host store db traffic).countP (fun b =>
          row.windowStartedAt ≤ b.now ∧ b.now ≤ row.windowStartedAt + store.failureWindow) ≤ store.maxFailures) ∧
      ∀ first length, length < store.failureWindow →
        (verifications host store db traffic).countP (fun b => first ≤ b.now ∧ b.now ≤ first + length) <
          2 * store.maxFailures) := by
  have hstart : Tracked store username sourceHash [] db [] [] none := ⟨.nil, rfl, hfirst, by simp⟩
  obtain ⟨strikes, last, htracked⟩ := hstart.run hfailing hchron
  have hverified := htracked.verified
  rw [List.nil_append] at hverified
  rw [hverified]
  refine ⟨?_, fun hlimit hlock => ⟨?_, ?_⟩⟩
  · intro before a after hsplit
    obtain ⟨first, rest, rfl, rfl, hrest⟩ := List.map_eq_append_iff.mp hsplit
    obtain ⟨strike, later, rfl, rfl, rfl⟩ := List.map_eq_cons_iff.mp hrest
    refine ⟨_, rfl, fun hfull => ⟨strike.time + store.lockout, if_pos hfull, ?_⟩⟩
    intro b hb
    obtain ⟨s, hs, rfl⟩ := List.mem_map.mp hb
    have hpairs := (List.pairwise_append.mp htracked.counted.pairwise.1).2.1
    exact List.rel_of_pairwise_cons hpairs hs hfull
  · intro a ha row hrow
    obtain ⟨strike, hstrike, rfl⟩ := List.mem_map.mp ha
    cases List.mem_singleton.mp hrow
    rw [countP_attempts]
    exact htracked.counted.window_le hlimit hlock strike hstrike
  · intro first length hlength
    rw [countP_attempts]
    exact htracked.counted.interval_lt hlimit hlock first hlength

end Bound

/-- Wrong passwords for a user that does not exist, with two failures allowed in a window: the third login is locked. -/
def guesses : List Traffic :=
  [0, 600, 700, 2400, 2500].map fun time =>
    .login ⟨"Mallory", "password", "127.0.0.1", seconds time, "token", "session"⟩

/-- Fewer than four of the five passwords are verified within 899 seconds. -/
theorem guesses_are_limited :
    (verifications derivedKeys ⟨2, seconds 900, seconds 1800, seconds 28800⟩ {} guesses).countP (fun a =>
      seconds 1900 ≤ a.now ∧ a.now ≤ seconds 1900 + seconds 899) < 4 := by
  have hfailing : (attempts derivedKeys ⟨2, seconds 900, seconds 1800, seconds 28800⟩).Along
      (Failing derivedKeys ⟨2, seconds 900, seconds 1800, seconds 28800⟩ "mallory" (derivedKeys.sha256 "127.0.0.1")) {}
      guesses := by
    rw [← evaluatedKeys_eq]
    decide +kernel
  exact ((lockout_holds rfl hfailing (by decide +kernel)).2 (by decide) (by decide)).2 (seconds 1900) (seconds 899)
    (by decide)

end NanoDelta.Security
