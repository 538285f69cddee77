import NanoDelta.Library.Effect
import NanoDelta.Security

/-!
# A changed password

A login reads the hash, verifies the password, and inserts its session later; a password change revokes the sessions that
its statement sees, and commits later. A session survives the change if its login commits after the revocation and had
read the hash before the change committed.

* `InOrder`: when a login or a change may commit.
* `Kept`: what every step of a run in order preserves.
* `old_sessions_refused`: after a change, no session of a login that verified an older password is accepted.
* `survives`: a session of the old password, accepted after the change.
-/

namespace NanoDelta.Security

open Library Operations

section Passwords

variable (host : SecurityHost) (store : PostgresSecurityStore)

/-! ### The order of commits -/

/-- A login commits only if no change since it read the hash refuses its password, and a change only if no login since
its revocation has a password that it refuses. -/
def Stage.InOrder (logins : List LoginEvent) (changes : List ChangeEvent) : Stage → Prop
  | .commit _ _ (some (.login event)) =>
    ∀ change ∈ changes.drop event.seen, change.userId = event.userId →
      verifyPassword host event.password change.passwordHash = true
  | .commit _ _ (some (.change event seen)) =>
    ∀ login ∈ logins.drop seen, login.userId = event.userId →
      verifyPassword host login.password event.passwordHash = true
  | _ => True

instance (logins : List LoginEvent) (changes : List ChangeEvent) :
    ∀ stage : Stage, Decidable (stage.InOrder host logins changes)
  | .commit _ _ (some (.login _)) => List.decidableBAll ..
  | .commit _ _ (some (.change _ _)) => List.decidableBAll ..
  | .commit _ _ none => isTrue trivial
  | .upsertUser .. => isTrue trivial
  | .revokeSessions .. => isTrue trivial
  | .lockThrottle _ => isTrue trivial
  | .readThrottle _ => isTrue trivial
  | .readUser .. => isTrue trivial
  | .insertSession .. => isTrue trivial
  | .readSession .. => isTrue trivial

/-- The statement of an input, if it is a commit, is in order. -/
def InOrder (s : Service) : Input → Prop
  | .advance i _ false => ∀ stage ∈ s.open_ i, stage.InOrder host s.logins s.changes
  | _ => True

instance (s : Service) : ∀ input : Input, Decidable (InOrder host s input)
  | .advance _ _ false => Option.decidableForallMem _
  | .advance _ _ true => isTrue trivial
  | .call .. => isTrue trivial

/-- The password that a login verified was changed after it had read the hash. -/
def Replaced (changes : List ChangeEvent) (login : LoginEvent) : Prop :=
  ∃ change ∈ changes.drop login.seen, change.userId = login.userId ∧
    verifyPassword host login.password change.passwordHash = false

/-! ### Sessions over a step -/

/-- A row of a session, and what a step leaves of it. -/
structure Same (a b : SessionRow) : Prop where
  sessionId : b.sessionId = a.sessionId
  tokenHash : b.tokenHash = a.tokenHash
  userId : b.userId = a.userId
  revoked : a.revokedAt ≠ none → b.revokedAt ≠ none

/-- A write that inserts no session. -/
def AuthWrite.Modest : AuthWrite → Prop
  | .addSession _ => False
  | _ => True

theorem Same.refl (a : SessionRow) : Same a a := ⟨rfl, rfl, rfl, id⟩

theorem Same.trans {a b c : SessionRow} (h : Same a b) (h' : Same b c) : Same a c :=
  ⟨h'.sessionId.trans h.sessionId, h'.tokenHash.trans h.tokenHash, h'.userId.trans h.userId,
    fun ha => h'.revoked (h.revoked ha)⟩

theorem sessions_of_write {w : AuthWrite} (hw : w.Modest) (db : Auth) :
    ∃ f : SessionRow → SessionRow, (∀ a, Same a (f a)) ∧ (db.write w).sessions = db.sessions.map f := by
  have hsame : ∃ f : SessionRow → SessionRow, (∀ a, Same a (f a)) ∧ db.sessions = db.sessions.map f :=
    ⟨id, Same.refl, (List.map_id _).symm⟩
  cases w with
  | putUser row => exact hsame
  | putThrottle row => exact hsame
  | dropThrottle username sourceHash => exact hsame
  | revoke sessionIds now =>
    refine ⟨_, ?_, rfl⟩
    intro a
    split_ifs
    · exact ⟨rfl, rfl, rfl, fun _ => by simp⟩
    · exact Same.refl a
  | touch tokenHash now =>
    refine ⟨_, ?_, rfl⟩
    intro a
    split_ifs
    · exact ⟨rfl, rfl, rfl, id⟩
    · exact Same.refl a
  | addSession row => exact hw.elim

/-- **Writes that insert no session** leave each session as it was, but for a revocation and a touch. -/
theorem sessions_of_writes {writes : List AuthWrite} (hw : ∀ w ∈ writes, w.Modest) (db : Auth) :
    ∃ f : SessionRow → SessionRow, (∀ a, Same a (f a)) ∧
      (writes.foldl Auth.write db).sessions = db.sessions.map f := by
  induction writes generalizing db with
  | nil => exact ⟨id, Same.refl, (List.map_id _).symm⟩
  | cons w writes ih =>
    obtain ⟨f, hf, hfirst⟩ := sessions_of_write (hw w (List.mem_cons_self ..)) db
    obtain ⟨g, hg, hrest⟩ := ih (fun w' h => hw w' (List.mem_cons_of_mem _ h)) (db.write w)
    refine ⟨g ∘ f, fun a => (hf a).trans (hg (f a)), ?_⟩
    rw [List.foldl_cons, hrest, hfirst, List.map_map]

/-! ### The invariant -/

/-- What a transaction that has not ended stands for. -/
def Pending (s : Service) (i : ℕ) : Stage → Prop
  | .insertSession _ _ seen => seen ≤ s.changes.length
  | .commit writes _ (some (.login event)) =>
    event.seen ≤ s.changes.length ∧ s.locks (.token event.tokenHash) = some i ∧
      (∀ session ∈ s.db.sessions, session.tokenHash ≠ event.tokenHash) ∧
      ∃ username sourceHash row, writes = [.dropThrottle username sourceHash, .addSession row] ∧
        row.tokenHash = event.tokenHash ∧ row.userId = event.userId
  | .commit writes _ (some (.change event seen)) =>
    seen ≤ s.logins.length ∧ ∃ row sessionIds now, writes = [.putUser row, .revoke sessionIds now] ∧
      ∀ login ∈ s.logins.take seen, login.userId = event.userId →
        ∀ session ∈ s.db.sessions, session.tokenHash = login.tokenHash →
          session.sessionId ∈ sessionIds ∨ session.revokedAt ≠ none
  | .commit writes _ none => ∀ w ∈ writes, w.Modest
  | _ => True

/-- Every login has its session, and the session is revoked once the password was changed. -/
structure Kept (s : Service) : Prop where
  stored : ∀ login ∈ s.logins, ∃ session ∈ s.db.sessions, session.tokenHash = login.tokenHash
  owned : ∀ login ∈ s.logins, ∀ session ∈ s.db.sessions, session.tokenHash = login.tokenHash →
    session.userId = login.userId
  revoked : ∀ login ∈ s.logins, Replaced host s.changes login →
    ∀ session ∈ s.db.sessions, session.tokenHash = login.tokenHash → session.revokedAt ≠ none
  pending : ∀ i, ∀ stage ∈ s.open_ i, Pending s i stage

/-- What a step of transaction `i` leaves to the others. -/
structure Moves (s s' : Service) (i : ℕ) : Prop where
  logins : s.logins <+: s'.logins
  changes : s.changes <+: s'.changes
  locks : ∀ j ≠ i, ∀ k, s.locks k = some j → s'.locks k = some j
  others : ∀ j ≠ i, s'.open_ j = s.open_ j
  /-- A session is one of before, or its token is locked by `i` and is new. -/
  sessions : ∀ b ∈ s'.db.sessions, (∃ a ∈ s.db.sessions, Same a b) ∨
    s.locks (.token b.tokenHash) = some i ∧ ∀ login ∈ s.logins, login.tokenHash ≠ b.tokenHash

/-- **The others stand where they stood.** -/
theorem Pending.of_moves {s s' : Service} {i j : ℕ} (hmoves : Moves s s' i) (hne : j ≠ i) {stage : Stage}
    (h : Pending s j stage) : Pending s' j stage := by
  cases stage with
  | insertSession call row seen => exact h.trans hmoves.changes.length_le
  | commit writes result event =>
    cases event with
    | none => exact h
    | some event =>
      cases event with
      | login event =>
        obtain ⟨hseen, hlock, hfresh, hwrites⟩ := h
        refine ⟨hseen.trans hmoves.changes.length_le, hmoves.locks j hne _ hlock, ?_, hwrites⟩
        intro session hsession htoken
        rcases hmoves.sessions session hsession with ⟨a, ha, hsame⟩ | ⟨hheld, -⟩
        · exact hfresh a ha (hsame.tokenHash.symm.trans htoken)
        · rw [htoken, hlock] at hheld
          exact hne (Option.some.inj hheld)
      | change event seen =>
        obtain ⟨hseen, row, sessionIds, now, hwrites, hrevoked⟩ := h
        refine ⟨hseen.trans hmoves.logins.length_le, row, sessionIds, now, hwrites, ?_⟩
        intro login hlogin huser session hsession htoken
        obtain ⟨later, hlater⟩ := hmoves.logins
        rw [← hlater, List.take_append_of_le_length hseen] at hlogin
        rcases hmoves.sessions session hsession with ⟨a, ha, hsame⟩ | ⟨-, hnew⟩
        · rcases hrevoked login hlogin huser a ha (hsame.tokenHash.symm.trans htoken) with hid | hrevoked
          · left
            rw [hsame.sessionId]
            exact hid
          · exact Or.inr (hsame.revoked hrevoked)
        · exact absurd htoken.symm (hnew login (List.mem_of_mem_take hlogin))
  | _ => trivial

/-! ### The steps -/

section Steps

variable {host store} {s : Service} {i : ℕ} {stage stage' : Stage} {now : Instant}

/-- A step that keeps the tables and the history, and after which `i` stands for what it holds. -/
theorem Kept.of_quiet {s' : Service} (h : Kept host s) (hmoves : Moves s s' i) (hdb : s'.db = s.db)
    (hlogins : s'.logins = s.logins) (hchanges : s'.changes = s.changes)
    (hi : ∀ stage ∈ s'.open_ i, Pending s' i stage) : Kept host s' where
  stored := by
    rw [hlogins, hdb]
    exact h.stored
  owned := by
    rw [hlogins, hdb]
    exact h.owned
  revoked := by
    rw [hlogins, hchanges, hdb]
    exact h.revoked
  pending j stage hstage := by
    by_cases hj : j = i
    · subst hj
      exact hi stage hstage
    · rw [hmoves.others j hj] at hstage
      exact (h.pending j stage hstage).of_moves hmoves hj

/-- A call begins with its first statement. -/
theorem pending_of_begin {call : Call} (h : call.begin host = .ok stage) (s : Service) : Pending s i stage := by
  cases call with
  | upsertUser call =>
    unfold Call.begin at h
    dsimp only at h
    split_ifs at h
    obtain ⟨passwordHash, -, h⟩ := Effect.except_bind_eq_ok.mp h
    cases h
    trivial
  | login call =>
    cases h
    trivial
  | sessionActor token touch =>
    cases h
    trivial

/-- **The statements**: what a transaction stands for after each. -/
theorem pending_of_statement (h : Kept host s) (hstage : Pending s i stage) (havailable : s.locks.Available (stage.locks host) i)
    (hnext : stage.statement host store s.db s.logins.length s.changes.length now = .ok stage') :
    Pending { s with locks := s.locks.take (stage.locks host) i
                     open_ := Function.update s.open_ i (some stage') } i stage' := by
  cases stage with
  | upsertUser call passwordHash =>
    obtain ⟨row, -, hnext⟩ := Effect.except_bind_eq_ok.mp hnext
    cases hnext
    trivial
  | revokeSessions row started =>
    cases hnext
    refine ⟨le_rfl, row, _, started, rfl, ?_⟩
    intro login hlogin huser session hsession htoken
    rw [List.take_length] at hlogin
    by_cases hopen : session.revokedAt = none
    · left
      have howner : session.userId = row.userId := (h.owned login hlogin session hsession htoken).trans huser
      exact List.mem_map.mpr ⟨session, List.mem_filter.mpr ⟨hsession, by simp [howner, hopen]⟩, rfl⟩
    · exact Or.inr hopen
  | lockThrottle call =>
    cases hnext
    trivial
  | readThrottle call =>
    unfold Stage.statement at hnext
    dsimp only at hnext
    split_ifs at hnext
    · cases hnext
      exact fun w hw => nomatch hw
    · cases hnext
      trivial
  | readUser call throttle =>
    unfold Stage.statement at hnext
    dsimp only at hnext
    split at hnext
    · split_ifs at hnext
      · cases hnext
        exact le_rfl
      · cases hnext
        simp [Pending, AuthWrite.Modest]
    · cases hnext
      simp [Pending, AuthWrite.Modest]
  | insertSession call row seen =>
    unfold Stage.statement at hnext
    dsimp only at hnext
    split_ifs at hnext with hnew
    cases hnext
    refine ⟨hstage, ?_, ?_, _, _, _, rfl, rfl, rfl⟩
    · exact Locks.take_of_mem (List.mem_cons_self ..)
    · intro session hsession htoken
      exact hnew ⟨session, hsession, Or.inr htoken⟩
  | readSession token touch =>
    unfold Stage.statement at hnext
    dsimp only at hnext
    split at hnext
    · cases hnext
      intro w hw
      split_ifs at hw
      · rw [List.mem_singleton.mp hw]
        trivial
      · cases hw
    · cases hnext
      exact fun w hw => nomatch hw
  | commit writes result event =>
    cases hnext
    cases event with
    | none => exact hstage
    | some event =>
      cases event with
      | login event =>
        obtain ⟨hseen, hlock, hfresh, hwrites⟩ := hstage
        exact ⟨hseen, Locks.take_of_held havailable hlock, hfresh, hwrites⟩
      | change event seen => exact hstage

/-- A transaction that takes locks moves no other. -/
theorem moves_of_take {keys : List AuthLock} (havailable : s.locks.Available keys i) (stage : Option Stage) :
    Moves s { s with locks := s.locks.take keys i, open_ := Function.update s.open_ i stage } i where
  logins := List.prefix_refl _
  changes := List.prefix_refl _
  locks _ _ _ hheld := Locks.take_of_held havailable hheld
  others _ hj := Function.update_of_ne hj ..
  sessions b hb := Or.inl ⟨b, hb, Same.refl b⟩

/-- A transaction that ends without a commit moves no other. -/
theorem moves_of_finish : Moves s (s.finish i) i where
  logins := List.prefix_refl _
  changes := List.prefix_refl _
  locks _ hj _ hheld := (Locks.release_of_ne hj).mpr hheld
  others _ hj := Function.update_of_ne hj ..
  sessions b hb := Or.inl ⟨b, hb, Same.refl b⟩

/-- After its end, a transaction stands for nothing. -/
theorem pending_of_finish {s' : Service} : ∀ stage ∈ (s.finish i).open_ i, Pending s' i stage := by
  intro stage hstage
  have hnone : (s.finish i).open_ i = none := Function.update_self ..
  rw [hnone] at hstage
  cases hstage

/-! ### The commits -/

/-- **A commit that inserts no session** keeps the logins, their sessions and the revocations. -/
theorem Kept.commit_modest (h : Kept host s) {writes : List AuthWrite} (hw : ∀ w ∈ writes, w.Modest) :
    Kept host ({ s with db := writes.foldl Auth.write s.db }.finish i) := by
  obtain ⟨f, hf, hsessions⟩ := sessions_of_writes hw s.db
  have hmem : ∀ b ∈ (writes.foldl Auth.write s.db).sessions, ∃ a ∈ s.db.sessions, Same a b := by
    rw [hsessions]
    intro b hb
    obtain ⟨a, ha, rfl⟩ := List.mem_map.mp hb
    exact ⟨a, ha, hf a⟩
  refine ⟨?_, ?_, ?_, ?_⟩
  · intro login hlogin
    obtain ⟨a, ha, htoken⟩ := h.stored login hlogin
    refine ⟨f a, ?_, (hf a).tokenHash.trans htoken⟩
    have hfa : f a ∈ (writes.foldl Auth.write s.db).sessions := by
      rw [hsessions]
      exact List.mem_map_of_mem ha
    exact hfa
  · intro login hlogin b hb htoken
    obtain ⟨a, ha, hsame⟩ := hmem b hb
    rw [hsame.userId]
    exact h.owned login hlogin a ha (hsame.tokenHash.symm.trans htoken)
  · intro login hlogin hreplaced b hb htoken
    obtain ⟨a, ha, hsame⟩ := hmem b hb
    exact hsame.revoked (h.revoked login hlogin hreplaced a ha (hsame.tokenHash.symm.trans htoken))
  · intro j stage hstage
    have hmoves : Moves s ({ s with db := writes.foldl Auth.write s.db }.finish i) i :=
      ⟨List.prefix_refl _, List.prefix_refl _, fun _ hj _ hheld => (Locks.release_of_ne hj).mpr hheld,
        fun _ hj => Function.update_of_ne hj .., fun b hb => Or.inl (hmem b hb)⟩
    by_cases hj : j = i
    · subst hj
      exact pending_of_finish stage hstage
    · rw [hmoves.others j hj] at hstage
      exact (h.pending j stage hstage).of_moves hmoves hj

/-- A change is added to the history once the sessions of the logins that it refuses are revoked. -/
theorem Kept.log_change (h : Kept host s) (hidle : s.open_ i = none) {event : ChangeEvent}
    (hrevoked : ∀ login ∈ s.logins, login.userId = event.userId →
      verifyPassword host login.password event.passwordHash = false →
        ∀ session ∈ s.db.sessions, session.tokenHash = login.tokenHash → session.revokedAt ≠ none) :
    Kept host { s with changes := s.changes ++ [event] } := by
  have hmoves : Moves s { s with changes := s.changes ++ [event] } i :=
    ⟨List.prefix_refl _, List.prefix_append .., fun _ _ _ hheld => hheld, fun _ _ => rfl,
      fun b hb => Or.inl ⟨b, hb, Same.refl b⟩⟩
  refine ⟨h.stored, h.owned, ?_, ?_⟩
  · rintro login hlogin ⟨change, hchange, huser, hrefused⟩
    rw [List.drop_append, List.mem_append] at hchange
    rcases hchange with hchange | hchange
    · exact h.revoked login hlogin ⟨change, hchange, huser, hrefused⟩
    · obtain rfl := List.mem_singleton.mp (List.mem_of_mem_drop hchange)
      exact hrevoked login hlogin huser.symm hrefused
  · intro j stage hstage
    have hj : j ≠ i := by
      rintro rfl
      have hnone : s.open_ j = some stage := hstage
      rw [hidle] at hnone
      cases hnone
    exact (h.pending j stage hstage).of_moves hmoves hj

/-- **The commit of a change**, in order. -/
theorem Kept.commit_change (h : Kept host s) {writes : List AuthWrite} {result : Result} {event : ChangeEvent} {seen : ℕ}
    (hpending : Pending s i (.commit writes result (some (.change event seen))))
    (horder : ∀ login ∈ s.logins.drop seen, login.userId = event.userId →
      verifyPassword host login.password event.passwordHash = true) :
    Kept host ({ s.log (some (.change event seen)) with db := writes.foldl Auth.write s.db }.finish i) := by
  obtain ⟨-, row, sessionIds, now, rfl, hrevoked⟩ := hpending
  have hmodest : ∀ w ∈ [AuthWrite.putUser row, .revoke sessionIds now], w.Modest := by simp [AuthWrite.Modest]
  apply (h.commit_modest (i := i) hmodest).log_change (i := i) (Function.update_self ..)
  intro login hlogin huser hrefused session hsession htoken
  obtain ⟨a, ha, rfl⟩ := List.mem_map.mp hsession
  -- The login had committed when the sessions were revoked: it is not one of those that the change must not refuse.
  have hbefore : login ∈ s.logins.take seen := by
    have hsplit : login ∈ s.logins.take seen ++ s.logins.drop seen := by
      rw [List.take_append_drop]
      exact hlogin
    rcases List.mem_append.mp hsplit with hbefore | hafter
    · exact hbefore
    · rw [horder login hafter huser] at hrefused
      cases hrefused
  by_cases hid : a.sessionId ∈ sessionIds
  · simp [hid]
  · simp only [hid, if_false] at htoken ⊢
    exact (hrevoked login hbefore huser a ha htoken).resolve_left hid

/-- **The commit of a login**, in order. -/
theorem Kept.commit_login (h : Kept host s) {writes : List AuthWrite} {result : Result} {event : LoginEvent}
    (hpending : Pending s i (.commit writes result (some (.login event))))
    (horder : ∀ change ∈ s.changes.drop event.seen, change.userId = event.userId →
      verifyPassword host event.password change.passwordHash = true) :
    Kept host ({ s.log (some (.login event)) with db := writes.foldl Auth.write s.db }.finish i) := by
  obtain ⟨-, hlock, hfresh, username, sourceHash, row, rfl, htoken, howner⟩ := hpending
  have hnew : ∀ login ∈ s.logins, login.tokenHash ≠ row.tokenHash := by
    intro login hlogin he
    obtain ⟨session, hsession, hsame⟩ := h.stored login hlogin
    exact hfresh session hsession (hsame.trans (he.trans htoken))
  refine ⟨?_, ?_, ?_, ?_⟩
  · intro login hlogin
    rcases List.mem_append.mp hlogin with hold | hadded
    · obtain ⟨session, hsession, hsame⟩ := h.stored login hold
      exact ⟨session, List.mem_append_left _ hsession, hsame⟩
    · rw [List.mem_singleton.mp hadded]
      exact ⟨row, List.mem_append_right _ (List.mem_singleton_self row), htoken⟩
  · intro login hlogin session hsession he
    rcases List.mem_append.mp hlogin with hold | hadded
    · rcases List.mem_append.mp hsession with hstored | hinserted
      · exact h.owned login hold session hstored he
      · rw [List.mem_singleton.mp hinserted] at he
        exact absurd he.symm (hnew login hold)
    · rw [List.mem_singleton.mp hadded] at he ⊢
      rcases List.mem_append.mp hsession with hstored | hinserted
      · exact absurd he (hfresh session hstored)
      · rw [List.mem_singleton.mp hinserted]
        exact howner
  · rintro login hlogin ⟨change, hchange, huser, hrefused⟩ session hsession he
    rcases List.mem_append.mp hlogin with hold | hadded
    · rcases List.mem_append.mp hsession with hstored | hinserted
      · exact h.revoked login hold ⟨change, hchange, huser, hrefused⟩ session hstored he
      · rw [List.mem_singleton.mp hinserted] at he
        exact absurd he.symm (hnew login hold)
    · rw [List.mem_singleton.mp hadded] at hchange huser hrefused
      rw [horder change hchange huser] at hrefused
      cases hrefused
  · intro j stage hstage
    have hmoves : Moves s ({ s.log (some (.login event)) with
        db := [AuthWrite.dropThrottle username sourceHash, .addSession row].foldl Auth.write s.db }.finish i) i := by
      refine ⟨List.prefix_append .., List.prefix_refl _, fun _ hj _ hheld => (Locks.release_of_ne hj).mpr hheld,
        fun _ hj => Function.update_of_ne hj .., ?_⟩
      intro b hb
      rcases List.mem_append.mp hb with hstored | hinserted
      · exact Or.inl ⟨b, hstored, Same.refl b⟩
      · rw [List.mem_singleton.mp hinserted, htoken]
        exact Or.inr ⟨hlock, htoken ▸ hnew⟩
    by_cases hj : j = i
    · subst hj
      exact pending_of_finish stage hstage
    · rw [hmoves.others j hj] at hstage
      exact (h.pending j stage hstage).of_moves hmoves hj

variable (store) in
/-- **Every step** in order keeps the invariant. -/
theorem Kept.step (h : Kept host s) {input : Input} (horder : InOrder host s input) :
    Kept host ((service host store).step s input).1 := by
  cases input with
  | call i call =>
    unfold service
    dsimp only
    split
    · exact h
    · rename_i stage hopen hbegin
      have hmoves : Moves s { s with open_ := Function.update s.open_ i (some stage) } i :=
        ⟨List.prefix_refl _, List.prefix_refl _, fun _ _ _ hheld => hheld, fun _ hj => Function.update_of_ne hj ..,
          fun b hb => Or.inl ⟨b, hb, Same.refl b⟩⟩
      apply h.of_quiet hmoves rfl rfl rfl
      intro stage' hstage'
      obtain rfl : stage = stage' := by simpa using hstage'
      exact pending_of_begin hbegin _
    · exact h
  | advance i now fault =>
    unfold service
    dsimp only
    cases hopen : s.open_ i with
    | none => exact h
    | some stage =>
      have hpending := h.pending i stage hopen
      cases fault with
      | true => exact h.of_quiet moves_of_finish rfl rfl rfl pending_of_finish
      | false =>
        have hin : stage.InOrder host s.logins s.changes := horder stage hopen
        dsimp only
        rw [if_neg Bool.false_ne_true]
        split
        · rename_i writes result event
          cases event with
          | none => exact h.commit_modest hpending
          | some event =>
            cases event with
            | login event => exact h.commit_login hpending hin
            | change event seen => exact h.commit_change hpending hin
        · rename_i hcommit
          split_ifs with havailable
          · split
            · rename_i stage' hnext
              apply h.of_quiet (moves_of_take havailable _) rfl rfl rfl
              intro stage'' hstage''
              obtain rfl : stage' = stage'' := by simpa using hstage''
              exact pending_of_statement h hpending havailable hnext
            · exact h.of_quiet moves_of_finish rfl rfl rfl pending_of_finish
          · exact h

end Steps

/-- **Once a password change has committed**, in every run whose commits are in order, no session of a login that had
verified an older password is accepted. -/
theorem old_sessions_refused (inputs : List Input) (horder : (service host store).Along (InOrder host) {} inputs) :
    ∀ login ∈ ((service host store).exec {} inputs).logins,
      Replaced host ((service host store).exec {} inputs).changes login →
        ∀ now, ((service host store).exec {} inputs).db.sessionActor login.tokenHash now = none := by
  have hstart : Kept host {} :=
    ⟨fun _ h => (List.not_mem_nil h).elim, fun _ h => (List.not_mem_nil h).elim, fun _ h => (List.not_mem_nil h).elim,
      fun _ _ h => by cases h⟩
  have hkept := Machine.exec_invariant_along (P := Kept host) (fun s input h hin => h.step store hin) hstart horder
  intro login hlogin hreplaced now
  unfold Auth.sessionActor
  rw [Option.bind_eq_none_iff]
  intro session hsession
  have hfound := List.find?_some hsession
  rw [decide_eq_true_eq] at hfound
  exact absurd hfound.2.1
    (hkept.revoked login hlogin hreplaced session (List.mem_of_find?_eq_some hsession) hfound.1)

end Passwords

/-! ### A run -/

/-- The password of the tests, and the one it is changed to. -/
def oldPassword : String := "correct horse battery"

def newPassword : String := "staple and a horse"

/-- The salts of the two hashes. -/
def oldSalt : List UInt8 := [0, 1, 2, 3, 4, 5, 6, 7, 8, 9, 10, 11, 12, 13, 14, 15]

def newSalt : List UInt8 := [16, 17, 18, 19, 20, 21, 22, 23, 24, 25, 26, 27, 28, 29, 30, 31]

/-- A runtime with the keys that `scrypt` derives from the two passwords with their salts. -/
def derivedKeys : SecurityHost :=
  { Host.cpython with
    casefold text := String.ofList (text.toList.map Char.toLower)
    hashtextextended _ := 0
    scrypt password salt n r p :=
      if n = 16384 ∧ r = 8 ∧ p = 1 then
        if password = oldPassword ∧ salt = oldSalt then
          some [233, 110, 198, 186, 140, 99, 162, 54, 152, 34, 15, 55, 199, 252, 4, 41, 37, 212, 48, 199, 254, 173, 236,
            156, 235, 4, 175, 3, 202, 187, 159, 47]
        else if password = newPassword ∧ salt = newSalt then
          some [24, 140, 30, 227, 209, 178, 234, 14, 116, 91, 162, 210, 16, 211, 219, 121, 55, 128, 201, 57, 104, 241,
            249, 197, 37, 141, 40, 77, 13, 244, 93, 94]
        else some []
      else none }

/-- The same runtime, in a form that is evaluated quickly. -/
def evaluatedKeys : SecurityHost := { derivedKeys with sha256 := Sha256.byteDigest }

theorem evaluatedKeys_eq : evaluatedKeys = derivedKeys := by
  rw [evaluatedKeys, Sha256.byteDigest_eq]
  rfl

/-- A login with the old password. -/
def alicesLogin : Login := ⟨"alice", oldPassword, "127.0.0.1", seconds 1000, "token", "s1"⟩

/-- The user is created, as transaction 0. -/
def created : List Input :=
  [.call 0 (.upsertUser ⟨"Alice ", oldPassword, "admin", "u1", oldSalt⟩), .advance 0 0 false, .advance 0 0 false,
    .advance 0 0 false]

/-- The password is changed, as transaction 1. -/
def changed : List Input :=
  [.call 1 (.upsertUser ⟨"alice", newPassword, "admin", "u2", newSalt⟩), .advance 1 (seconds 1001) false,
    .advance 1 (seconds 1001) false, .advance 1 (seconds 1001) false]

/-- The login, as transaction 2: the hash is verified, and the session is inserted and committed. -/
def verified : List Input :=
  [.call 2 (.login alicesLogin), .advance 2 (seconds 1000) false, .advance 2 (seconds 1000) false,
    .advance 2 (seconds 1000) false]

def inserted : List Input := [.advance 2 (seconds 1002) false, .advance 2 (seconds 1002) false]

theorem oldPassword_fails :
    verifyPassword derivedKeys oldPassword ((hashPassword derivedKeys newPassword newSalt).toOption.getD "") = false := by
  cases hhash : hashPassword derivedKeys newPassword newSalt with
  | error e => rfl
  | ok encoded =>
    have hverify := verifyPassword_of_hash derivedKeys hhash oldPassword
    rw [decide_eq_false (by decide +kernel)] at hverify
    exact hverify

/-- A session that was open when the password was changed. -/
theorem refused_once_changed :
    ((service derivedKeys {}).exec {} (created ++ verified ++ inserted ++ changed)).db.sessionActor
      (derivedKeys.sha256 "token") (seconds 1003) = none := by
  let inputs := created ++ verified ++ inserted ++ changed
  let login : LoginEvent := ⟨"u1", oldPassword, derivedKeys.sha256 "token", 1⟩
  let change : ChangeEvent := ⟨"u1", (hashPassword derivedKeys newPassword newSalt).toOption.getD ""⟩
  -- All of it in one evaluation, which makes the run once.
  obtain ⟨horder, hlogin, hchange⟩ : (service derivedKeys {}).Along (InOrder derivedKeys) {} inputs ∧
      login ∈ ((service derivedKeys {}).exec {} inputs).logins ∧
      change ∈ ((service derivedKeys {}).exec {} inputs).changes.drop login.seen := by
    simp only [inputs, login, change, ← evaluatedKeys_eq]
    decide +kernel
  exact old_sessions_refused derivedKeys {} inputs horder login hlogin ⟨change, hchange, rfl, oldPassword_fails⟩ (seconds 1003)

/-- **A session of the old password**, inserted after the change: the login had read the hash before. -/
theorem survives :
    let s := (service derivedKeys {}).exec {} (created ++ verified ++ changed ++ inserted)
    ∃ login ∈ s.logins, login.password = oldPassword ∧ Replaced derivedKeys s.changes login ∧
      s.db.sessionActor login.tokenHash (seconds 1003) = some ⟨"u1", "admin"⟩ := by
  intro s
  let login : LoginEvent := ⟨"u1", oldPassword, derivedKeys.sha256 "token", 1⟩
  let change : ChangeEvent := ⟨"u1", (hashPassword derivedKeys newPassword newSalt).toOption.getD ""⟩
  obtain ⟨hlogin, hchange, haccepted⟩ : login ∈ s.logins ∧ change ∈ s.changes.drop login.seen ∧
      s.db.sessionActor login.tokenHash (seconds 1003) = some ⟨"u1", "admin"⟩ := by
    simp only [s, login, change, ← evaluatedKeys_eq]
    decide +kernel
  exact ⟨login, hlogin, rfl, ⟨change, hchange, rfl, oldPassword_fails⟩, haccepted⟩

end NanoDelta.Security
