import Mathlib
import NanoDelta.Library.Grants
import NanoDelta.Security

/-!
# Who is let in

The calls of `PostgresSecurityStore`, one after the other: users are inserted, changed and disabled, sessions begin
and are revoked, and so are API keys. `Call.alone` runs the statements of a transaction that has the database for
itself; the calls that `Stage` does not have are here.

* `access`: the calls as a machine.
* `AccessEvent.issued`, `AccessEvent.ends`: which calls issue a session, and which end one.
* `session_accepted_iff`: a session is accepted just if a login issued it, it has not expired, and nothing has ended it.
* `api_key_accepted_iff`: the same for API keys.
-/

namespace NanoDelta.Security

open Library Operations

/-! ### Tables and calls -/

/-- A row of `auth.api_keys`. -/
structure ApiKeyRow where
  keyId : String
  name : String
  keyHash : String
  actorId : String
  role : String
  expiresAt : Option Instant := none
  revokedAt : Option Instant := none
  lastUsedAt : Option Instant := none
  deriving DecidableEq

/-- The schema `auth`, API keys included. -/
structure Tables where
  auth : Auth := {}
  apiKeys : List ApiKeyRow := []

/-- A call of the store, with what it draws at random. -/
inductive AccessCall where
  /-- `upsert_user`, `login` or `session_actor`. -/
  | auth (call : Call)
  | disableUser (username : String)
  | sessionUsername (token : String)
  | revokeSession (token : String)
  | createApiKey (name actorId role raw keyId : String)
  | authenticateApiKey (key : String)
  | revokeApiKey (keyId : String)
  deriving DecidableEq

/-- What a call returns. -/
inductive AccessResult where
  | auth (result : Result)
  | done
  | flag (changed : Bool)
  | username (username : Option String)
  | key (keyId raw : String)
  | actor (actor : Option Actor)
  deriving DecidableEq

/-- The row after `UPDATE auth.sessions SET revoked_at=now()` of the rows with a property that are not revoked. -/
def SessionRow.revokeIf (p : SessionRow → Bool) (now : Instant) (session : SessionRow) : SessionRow :=
  if p session = true ∧ session.revokedAt = none then { session with revokedAt := some now } else session

namespace Auth

variable (db : Auth)

/-- `UPDATE auth.sessions SET revoked_at=now()` of the sessions with a property that are not revoked. -/
def revokeWhere (p : SessionRow → Bool) (now : Instant) : Auth :=
  { db with sessions := db.sessions.map (SessionRow.revokeIf p now) }

/-- `disable_user`: the tables, and whether there is such a user. -/
def disableUser (username : String) (now : Instant) : Auth × Bool :=
  match db.users.find? fun user => user.username = username with
  | none => (db, false)
  | some row =>
    let users := db.users.map fun user => if user.username = username then { user with active := false } else user
    ({ db with users }.revokeWhere (fun session => session.userId = row.userId) now, true)

/-- The query of `session_username`. -/
def sessionUsername (tokenHash : String) (now : Instant) : Option String :=
  (db.sessions.find? fun session =>
      session.tokenHash = tokenHash ∧ session.revokedAt = none ∧ now < session.expiresAt).bind fun session =>
    (db.users.find? fun user => user.userId = session.userId ∧ user.active).map UserRow.username

end Auth

/-- `raw` of `create_api_key`, from what is drawn at random. -/
def rawKey (drawn : String) : String := "nd_" ++ drawn

/-- The constraint of `auth.api_keys` that two rows would violate. -/
def ApiKeyRow.Clashes (row other : ApiKeyRow) : Prop :=
  row.keyId = other.keyId ∨ row.name = other.name ∨ row.keyHash = other.keyHash

instance (row other : ApiKeyRow) : Decidable (row.Clashes other) := inferInstanceAs (Decidable (_ ∨ _))

/-- The key is neither revoked nor expired. -/
def ApiKeyRow.valid (row : ApiKeyRow) (keyHash : String) (now : Instant) : Bool :=
  row.keyHash = keyHash && row.revokedAt.isNone && row.expiresAt.all fun expiresAt => now < expiresAt

section Calls

variable (host : SecurityHost) (store : PostgresSecurityStore)

/-- A transaction that has come to its commit. -/
def Stage.committed (db : Auth) : Stage → Except PyError (Auth × Result)
  | .commit writes result _ => .ok (writes.foldl Auth.write db, result)
  | _ => .error (.runtimeError "the transaction is open")

/-- A call that has the database for itself: a login has four statements, the others have fewer. -/
def Call.alone (db : Auth) (now : Instant) (call : Call) : Except PyError (Auth × Result) := do
  let stage ← call.begin host
  let stage ← stage.statement host store db 0 0 now
  let stage ← stage.statement host store db 0 0 now
  let stage ← stage.statement host store db 0 0 now
  let stage ← stage.statement host store db 0 0 now
  stage.committed db

/-- One call, at the time of the database. -/
def Tables.call (tables : Tables) (now : Instant) : AccessCall → Except PyError (Tables × AccessResult)
  | .auth call => do
    let (auth, result) ← call.alone host store tables.auth now
    return ({ tables with auth }, .auth result)
  | .disableUser username =>
    let (auth, changed) := tables.auth.disableUser (normalize host username) now
    .ok ({ tables with auth }, .flag changed)
  | .sessionUsername token => .ok (tables, .username (tables.auth.sessionUsername (host.sha256 token) now))
  | .revokeSession token =>
    let auth := tables.auth.revokeWhere (fun session => session.tokenHash = host.sha256 token) now
    .ok ({ tables with auth }, .done)
  | .createApiKey name actorId role drawn keyId =>
    if role ∉ roles then .error (.valueError "invalid role")
    else
      let row : ApiKeyRow := { keyId, name, keyHash := host.sha256 (rawKey drawn), actorId, role }
      if ∃ other ∈ tables.apiKeys, other.Clashes row then
        .error (.databaseError "duplicate key value violates unique constraint")
      else .ok ({ tables with apiKeys := tables.apiKeys ++ [row] }, .key keyId (rawKey drawn))
  | .authenticateApiKey key =>
    let apiKeys := tables.apiKeys.map fun row =>
      if row.valid (host.sha256 key) now then { row with lastUsedAt := some now } else row
    let row := tables.apiKeys.find? fun row => row.valid (host.sha256 key) now
    .ok ({ tables with apiKeys }, .actor (row.map fun row => ⟨row.actorId, row.role⟩))
  | .revokeApiKey keyId =>
    let apiKeys := tables.apiKeys.map fun row =>
      if row.keyId = keyId ∧ row.revokedAt = none then { row with revokedAt := some now } else row
    .ok ({ tables with apiKeys }, .flag (tables.apiKeys.any fun row => row.keyId = keyId && row.revokedAt.isNone))

/-- A call and what it returned or raised. -/
abbrev AccessEvent := AccessCall × Except PyError AccessResult

/-- The calls, one after the other. A call that raises is rolled back. -/
def access : Machine Tables (AccessCall × Instant) AccessEvent where
  step tables input :=
    match tables.call host store input.2 input.1 with
    | .ok (tables', result) => (tables', (input.1, .ok result))
    | .error e => (tables, (input.1, .error e))

end Calls

/-! ### What issues a session, and what ends it -/

/-- What a session stands for. -/
structure Grant where
  actor : Actor
  username : String
  expiresAt : Instant
  deriving DecidableEq

section Sessions

variable (host : SecurityHost)

/-- A login that returned a session issues it, for the hash of its token. -/
def AccessEvent.issued : AccessEvent → Option (String × Grant)
  | (_, .ok (.auth (.session (some session)))) =>
    some (host.sha256 session.token, ⟨session.actor, session.username, session.expiresAt⟩)
  | _ => none

/-- Its token is revoked, or its user is upserted or disabled. -/
def AccessEvent.ends : AccessEvent → String → Grant → Bool
  | (.revokeSession token, .ok _), tokenHash, _ => host.sha256 token = tokenHash
  | (_, .ok (.auth (.user userId))), _, grant => grant.actor.actorId = userId
  | (.disableUser username, .ok (.flag true)), _, grant => grant.username = normalize host username
  | _, _, _ => false

/-- The session of a user. -/
def grantOf (user : UserRow) (session : SessionRow) : Grant :=
  ⟨⟨user.userId, user.role⟩, user.username, session.expiresAt⟩

/-- **The invariant**: keys are unique, the sessions that are open are those that are granted, and each belongs to an
active user. -/
structure Agrees (db : Auth) (grants : String → Option Grant) : Prop where
  userIds : (db.users.map UserRow.userId).Nodup
  usernames : (db.users.map UserRow.username).Nodup
  tokens : (db.sessions.map SessionRow.tokenHash).Nodup
  sessionIds : (db.sessions.map SessionRow.sessionId).Nodup
  open_ : ∀ session ∈ db.sessions, session.revokedAt = none → ∃ user ∈ db.users,
    user.userId = session.userId ∧ user.active = true ∧ grants session.tokenHash = some (grantOf user session)
  closed : ∀ session ∈ db.sessions, session.revokedAt ≠ none → grants session.tokenHash = none
  absent : ∀ tokenHash, (∀ session ∈ db.sessions, session.tokenHash ≠ tokenHash) → grants tokenHash = none

variable {host} {db : Auth} {grants : String → Option Grant}

/-- What is looked up by a token: its grant, until it expires. -/
theorem Agrees.lookup (h : Agrees db grants) (tokenHash : String) (now : Instant) {α : Type} (f : UserRow → α)
    (g : Grant → α) (hfg : ∀ user session, f user = g (grantOf user session)) :
    ((db.sessions.find? fun session =>
        session.tokenHash = tokenHash ∧ session.revokedAt = none ∧ now < session.expiresAt).bind fun session =>
      (db.users.find? fun user => user.userId = session.userId ∧ user.active).map f) =
    ((grants tokenHash).filter fun grant => now < grant.expiresAt).map g := by
  have hsessions : (db.sessions.find? fun session =>
      session.tokenHash = tokenHash ∧ session.revokedAt = none ∧ now < session.expiresAt) =
      (db.sessions.find? fun session => session.tokenHash = tokenHash).filter fun session =>
        session.revokedAt = none ∧ now < session.expiresAt := by
    simpa using Table.find?_key_and h.tokens tokenHash fun session =>
      session.revokedAt = none ∧ now < session.expiresAt
  rw [hsessions]
  by_cases hsession : ∃ session ∈ db.sessions, session.tokenHash = tokenHash
  · obtain ⟨session, hmem, rfl⟩ := hsession
    rw [Table.find?_eq_some_of_mem h.tokens hmem]
    by_cases hopen : session.revokedAt = none
    · obtain ⟨user, huser, hid, hactive, hgrant⟩ := h.open_ session hmem hopen
      have hfound : db.users.find? (fun user => user.userId = session.userId ∧ user.active) = some user := by
        rw [Table.find?_key_and h.userIds, ← hid, Table.find?_eq_some_of_mem h.userIds huser]
        simp [Option.filter, hactive]
      by_cases hnow : now < session.expiresAt
      · have hfilter : (some session).filter (fun session => session.revokedAt = none ∧ now < session.expiresAt) =
            some session := by simp [Option.filter, hopen, hnow]
        rw [hfilter, Option.bind_some, hfound, hgrant, Option.map_some, hfg user session]
        simp [Option.filter, grantOf, hnow]
      · simp [Option.filter, hopen, hnow, hgrant, grantOf]
    · simp [Option.filter, hopen, h.closed session hmem hopen]
  · have hnone : (db.sessions.find? fun session => session.tokenHash = tokenHash) = none :=
      List.find?_eq_none.mpr fun session hmem => by simpa using fun heq => hsession ⟨session, hmem, heq⟩
    rw [hnone, h.absent tokenHash fun session hmem heq => hsession ⟨session, hmem, heq⟩]
    rfl

theorem Agrees.sessionActor (h : Agrees db grants) (tokenHash : String) (now : Instant) :
    db.sessionActor tokenHash now = ((grants tokenHash).filter fun grant => now < grant.expiresAt).map Grant.actor :=
  h.lookup tokenHash now (fun user => (⟨user.userId, user.role⟩ : Actor)) Grant.actor fun _ _ => rfl

theorem Agrees.sessionUsername (h : Agrees db grants) (tokenHash : String) (now : Instant) :
    db.sessionUsername tokenHash now =
      ((grants tokenHash).filter fun grant => now < grant.expiresAt).map Grant.username :=
  h.lookup tokenHash now UserRow.username Grant.username fun _ _ => rfl

/-- What a statement leaves of a session: everything but the time of its last use, and of its revocation if it has
`p`. -/
structure Leaves (p : SessionRow → Bool) (session session' : SessionRow) : Prop where
  tokenHash : session'.tokenHash = session.tokenHash
  sessionId : session'.sessionId = session.sessionId
  userId : session'.userId = session.userId
  expiresAt : session'.expiresAt = session.expiresAt
  revokedAt : session'.revokedAt = none ↔ session.revokedAt = none ∧ p session = false

/-- **Sessions are revoked**, and users change whose sessions are all revoked. -/
theorem Agrees.change (h : Agrees db grants) (p : SessionRow → Bool) (ends : String → Grant → Bool) {db' : Auth}
    (hids : (db'.users.map UserRow.userId).Nodup) (hnames : (db'.users.map UserRow.username).Nodup)
    {f : SessionRow → SessionRow} (hsessions : db'.sessions = db.sessions.map f)
    (hf : ∀ session ∈ db.sessions, Leaves p session (f session))
    (hends : ∀ session ∈ db.sessions, ∀ user ∈ db.users, user.userId = session.userId →
      ends session.tokenHash (grantOf user session) = p session ∧ (p session = false → user ∈ db'.users)) :
    Agrees db' fun tokenHash => (grants tokenHash).filter fun grant => !ends tokenHash grant where
  userIds := hids
  usernames := hnames
  tokens := by
    have hsame : db.sessions.map (SessionRow.tokenHash ∘ f) = db.sessions.map SessionRow.tokenHash :=
      List.map_congr_left fun session hmem => (hf session hmem).tokenHash
    rw [hsessions, List.map_map, hsame]
    exact h.tokens
  sessionIds := by
    have hsame : db.sessions.map (SessionRow.sessionId ∘ f) = db.sessions.map SessionRow.sessionId :=
      List.map_congr_left fun session hmem => (hf session hmem).sessionId
    rw [hsessions, List.map_map, hsame]
    exact h.sessionIds
  open_ := by
    rw [hsessions]
    refine List.forall_mem_map.mpr fun session hmem hopen => ?_
    obtain ⟨hopen', hp⟩ := (hf session hmem).revokedAt.mp hopen
    obtain ⟨user, huser, hid, hactive, hgrant⟩ := h.open_ session hmem hopen'
    obtain ⟨hending, hstays⟩ := hends session hmem user huser hid
    refine ⟨user, hstays hp, by rw [(hf session hmem).userId, hid], hactive, ?_⟩
    have hsame : grantOf user (f session) = grantOf user session := by simp [grantOf, (hf session hmem).expiresAt]
    rw [(hf session hmem).tokenHash, hgrant, hsame]
    simp [Option.filter, hending, hp]
  closed := by
    rw [hsessions]
    refine List.forall_mem_map.mpr fun session hmem hclosed => ?_
    rw [(hf session hmem).tokenHash]
    by_cases hopen : session.revokedAt = none
    · have hp : p session = true := by
        by_contra hp
        exact hclosed ((hf session hmem).revokedAt.mpr ⟨hopen, by simpa using hp⟩)
      obtain ⟨user, huser, hid, -, hgrant⟩ := h.open_ session hmem hopen
      simp [hgrant, Option.filter, (hends session hmem user huser hid).1, hp]
    · simp [h.closed session hmem hopen]
  absent := by
    intro tokenHash habsent
    have hnone : grants tokenHash = none := by
      refine h.absent tokenHash fun session hmem => ?_
      rw [← (hf session hmem).tokenHash]
      exact habsent (f session) (by rw [hsessions]; exact List.mem_map_of_mem hmem)
    simp [hnone]

/-- **A session begins.** -/
theorem Agrees.begin (h : Agrees db grants) {db' : Auth} (husers : db'.users = db.users) {row : SessionRow}
    (hsessions : db'.sessions = db.sessions ++ [row])
    (hfresh : ∀ session ∈ db.sessions, session.sessionId ≠ row.sessionId ∧ session.tokenHash ≠ row.tokenHash)
    (hopen : row.revokedAt = none) {user : UserRow} (huser : user ∈ db.users) (hid : user.userId = row.userId)
    (hactive : user.active = true) {grants' : String → Option Grant}
    (hgrants : ∀ tokenHash, grants' tokenHash =
      if tokenHash = row.tokenHash then some (grantOf user row) else grants tokenHash) :
    Agrees db' grants' where
  userIds := by rw [husers]; exact h.userIds
  usernames := by rw [husers]; exact h.usernames
  tokens := by
    rw [hsessions]
    exact Table.nodup_concat h.tokens fun session hmem => (hfresh session hmem).2
  sessionIds := by
    rw [hsessions]
    exact Table.nodup_concat h.sessionIds fun session hmem => (hfresh session hmem).1
  open_ := by
    rw [hsessions, husers]
    refine List.forall_mem_append.mpr ⟨fun session hmem hnone => ?_, ?_⟩
    · rw [hgrants, if_neg (hfresh session hmem).2]
      exact h.open_ session hmem hnone
    · simp only [List.mem_singleton, forall_eq]
      exact fun _ => ⟨user, huser, hid, hactive, by rw [hgrants, if_pos rfl]⟩
  closed := by
    rw [hsessions]
    refine List.forall_mem_append.mpr ⟨fun session hmem hrevoked => ?_, ?_⟩
    · rw [hgrants, if_neg (hfresh session hmem).2]
      exact h.closed session hmem hrevoked
    · simpa using fun hrevoked => absurd hopen hrevoked
  absent := by
    intro tokenHash habsent
    rw [hsessions] at habsent
    obtain ⟨hold, hnew⟩ := List.forall_mem_append.mp habsent
    rw [hgrants, if_neg fun heq => hnew row (List.mem_singleton_self _) heq.symm]
    exact h.absent tokenHash hold

end Sessions

/-! ### Calls that have the database for themselves -/

section Alone

variable {host : SecurityHost} {store : PostgresSecurityStore} {db db' : Auth} {now : Instant} {result : Result}

theorem upsertUser_alone {call : UpsertUser} (h : Call.alone host store db now (.upsertUser call) = .ok (db', result)) :
    ∃ passwordHash row, db.upsertUser call.userId (normalize host call.username) passwordHash call.role = .ok row ∧
      result = .user row.userId ∧
      db' = (db.write (.putUser row)).write (.revoke (db.openSessions row.userId) now) := by
  obtain ⟨stage, hbegin, h⟩ := Effect.except_bind_eq_ok.mp h
  simp only [Call.begin] at hbegin
  split_ifs at hbegin
  obtain ⟨passwordHash, -, hstage⟩ := Effect.except_bind_eq_ok.mp hbegin
  cases hstage
  obtain ⟨stage₁, hfirst, h⟩ := Effect.except_bind_eq_ok.mp h
  obtain ⟨row, hrow, hstage₁⟩ := Effect.except_bind_eq_ok.mp hfirst
  cases hstage₁
  cases h
  exact ⟨passwordHash, row, hrow, rfl, rfl⟩

/-- A login fails and changes no session, or it inserts one for an active user. -/
theorem login_alone {call : Login} (h : Call.alone host store db now (.login call) = .ok (db', result)) :
    db'.users = db.users ∧
      (result = .session none ∧ db'.sessions = db.sessions ∨
        ∃ user ∈ db.users, user.active = true ∧ user.username = normalize host call.username ∧
          ∃ row : SessionRow, db'.sessions = db.sessions ++ [row] ∧ row.userId = user.userId ∧
            row.tokenHash = host.sha256 call.rawToken ∧ row.revokedAt = none ∧
            (∀ session ∈ db.sessions, session.sessionId ≠ row.sessionId ∧ session.tokenHash ≠ row.tokenHash) ∧
            result =
              .session (some ⟨call.rawToken, ⟨user.userId, user.role⟩, user.username, row.expiresAt⟩)) := by
  obtain ⟨stage, hbegin, h⟩ := Effect.except_bind_eq_ok.mp h
  cases hbegin
  obtain ⟨stage₁, hfirst, h⟩ := Effect.except_bind_eq_ok.mp h
  cases hfirst
  obtain ⟨stage₂, hthrottle, h⟩ := Effect.except_bind_eq_ok.mp h
  simp only [Stage.statement] at hthrottle
  split_ifs at hthrottle
  · cases hthrottle
    cases h
    exact ⟨rfl, Or.inl ⟨rfl, rfl⟩⟩
  · cases hthrottle
    obtain ⟨stage₃, huser, h⟩ := Effect.except_bind_eq_ok.mp h
    simp only [Stage.statement] at huser
    cases hactive : db.activeUser (normalize host call.username) with
    | none =>
      rw [hactive] at huser
      cases huser
      cases h
      exact ⟨rfl, Or.inl ⟨rfl, rfl⟩⟩
    | some user =>
      simp only [hactive] at huser
      split_ifs at huser
      · cases huser
        obtain ⟨stage₄, hinsert, h⟩ := Effect.except_bind_eq_ok.mp h
        simp only [Stage.statement] at hinsert
        split_ifs at hinsert with htaken
        cases hinsert
        cases h
        have hprop := List.find?_some hactive
        simp only [decide_eq_true_eq] at hprop
        have hmem := List.mem_of_find?_eq_some hactive
        refine ⟨rfl, Or.inr ⟨user, hmem, hprop.2, hprop.1, _, rfl, rfl, rfl, rfl, ?_, ?_⟩⟩
        · push Not at htaken
          exact htaken
        · rw [hprop.1]
      · cases huser
        cases h
        exact ⟨rfl, Or.inl ⟨rfl, rfl⟩⟩

theorem sessionActor_alone {token : String} {touch : Bool}
    (h : Call.alone host store db now (.sessionActor token touch) = .ok (db', result)) :
    result = .actor (db.sessionActor (host.sha256 token) now) ∧
      (db' = db ∨ db' = db.write (.touch (host.sha256 token) now)) := by
  obtain ⟨stage, hbegin, h⟩ := Effect.except_bind_eq_ok.mp h
  cases hbegin
  obtain ⟨stage₁, hread, h⟩ := Effect.except_bind_eq_ok.mp h
  simp only [Stage.statement] at hread
  cases hactor : db.sessionActor (host.sha256 token) now with
  | none =>
    rw [hactor] at hread
    cases hread
    cases h
    exact ⟨rfl, Or.inl rfl⟩
  | some actor =>
    rw [hactor] at hread
    cases hread
    cases h
    cases touch with
    | false => exact ⟨rfl, Or.inl rfl⟩
    | true => exact ⟨rfl, Or.inr rfl⟩

end Alone

/-! ### Every call keeps the invariant -/

section Steps

variable {host : SecurityHost} {store : PostgresSecurityStore} {db db' : Auth} {grants : String → Option Grant}

/-- Nothing that is read has changed. -/
theorem Agrees.congr (h : Agrees db grants) (husers : db'.users = db.users) (hsessions : db'.sessions = db.sessions) :
    Agrees db' grants where
  userIds := by rw [husers]; exact h.userIds
  usernames := by rw [husers]; exact h.usernames
  tokens := by rw [hsessions]; exact h.tokens
  sessionIds := by rw [hsessions]; exact h.sessionIds
  open_ := by rw [husers, hsessions]; exact h.open_
  closed := by rw [hsessions]; exact h.closed
  absent := by rw [hsessions]; exact h.absent

theorem filter_not_false (grants : String → Option Grant) :
    (fun tokenHash => (grants tokenHash).filter fun _ => !false) = grants := by
  funext tokenHash
  cases grants tokenHash <;> rfl

/-- A session is used. -/
theorem Agrees.touch (h : Agrees db grants) (tokenHash : String) (now : Instant) :
    Agrees (db.write (.touch tokenHash now)) grants := by
  have hleaves : ∀ session ∈ db.sessions, Leaves (fun _ => false) session
      (if session.tokenHash = tokenHash then { session with lastSeenAt := now } else session) := by
    intro session _
    split_ifs <;> exact ⟨rfl, rfl, rfl, rfl, by simp⟩
  have hchange : Agrees (db.write (.touch tokenHash now)) fun key => (grants key).filter fun _ => !false :=
    h.change (fun _ => false) (fun _ _ => false) h.userIds h.usernames rfl hleaves
      fun _ _ user huser _ => ⟨rfl, fun _ => huser⟩
  rwa [filter_not_false] at hchange

theorem leaves_revokeIf (p : SessionRow → Bool) (now : Instant) (session : SessionRow) :
    Leaves p session (session.revokeIf p now) := by
  unfold SessionRow.revokeIf
  by_cases h : p session = true ∧ session.revokedAt = none
  · rw [if_pos h]
    exact ⟨rfl, rfl, rfl, rfl, by simp [h.1]⟩
  · rw [if_neg h]
    refine ⟨rfl, rfl, rfl, rfl, fun hnone => ⟨hnone, ?_⟩, And.left⟩
    by_contra hp
    exact h ⟨by simpa using hp, hnone⟩

/-- What `upsert_user` revokes: the sessions of the user that were open, by their numbers. -/
theorem map_revoke_openSessions (hnodup : (db.sessions.map SessionRow.sessionId).Nodup) (userId : String)
    (now : Instant) :
    (db.sessions.map fun session =>
        if session.sessionId ∈ db.openSessions userId then { session with revokedAt := some now } else session) =
      db.sessions.map (SessionRow.revokeIf (fun session => session.userId = userId) now) := by
  refine List.map_congr_left fun session hmem => ?_
  have hin : session.sessionId ∈ db.openSessions userId ↔ session.userId = userId ∧ session.revokedAt = none := by
    constructor
    · intro hin
      obtain ⟨other, hother, hid⟩ := List.mem_map.mp hin
      obtain ⟨hother, hopen⟩ := List.mem_filter.mp hother
      rw [Table.eq_of_key_eq hnodup hmem hother hid.symm]
      simpa using hopen
    · exact fun hopen => List.mem_map_of_mem (List.mem_filter.mpr ⟨hmem, by simpa using hopen⟩)
  simp [SessionRow.revokeIf, hin]

/-- The users after an upsert: the row, and the others as they were. -/
theorem upserted_users (hids : (db.users.map UserRow.userId).Nodup) (hnames : (db.users.map UserRow.username).Nodup)
    {userId username passwordHash role : String} {row : UserRow}
    (h : db.upsertUser userId username passwordHash role = .ok row) :
    ((db.write (.putUser row)).users.map UserRow.userId).Nodup ∧
      ((db.write (.putUser row)).users.map UserRow.username).Nodup ∧
        ∀ user ∈ db.users, user.userId ≠ row.userId → user ∈ (db.write (.putUser row)).users := by
  unfold Auth.upsertUser at h
  cases hfind : db.users.find? fun user => user.username = username with
  | some user =>
    rw [hfind] at h
    cases h
    have hmem := List.mem_of_find?_eq_some hfind
    have htaken : ∃ other ∈ db.users, other.userId = user.userId := ⟨user, hmem, rfl⟩
    have husers : (db.write (.putUser { user with passwordHash, role, active := true })).users =
        db.users.map fun other =>
          if other.userId = user.userId then { user with passwordHash, role, active := true } else other :=
      Table.upserted_of_taken htaken _ _
    have hsame : ∀ other ∈ db.users, other.userId = user.userId → other = user :=
      fun other hother hid => Table.eq_of_key_eq hids hother hmem hid
    rw [husers, List.map_map, List.map_map]
    refine ⟨?_, ?_, fun other hother hne => List.mem_map.mpr ⟨other, hother, if_neg hne⟩⟩
    · rwa [List.map_congr_left (g := UserRow.userId)]
      intro other hother
      by_cases hid : other.userId = user.userId
      · simp [hid]
      · simp [hid]
    · rwa [List.map_congr_left (g := UserRow.username)]
      intro other hother
      by_cases hid : other.userId = user.userId
      · simp [hsame other hother hid]
      · simp [hid]
  | none =>
    rw [hfind] at h
    dsimp only at h
    split_ifs at h with htaken
    cases h
    have hfree : ∀ user ∈ db.users, ¬ user.userId = userId := fun user hmem hid => htaken ⟨user, hmem, hid⟩
    have husers : (db.write (.putUser ⟨userId, username, passwordHash, role, true⟩)).users =
        db.users ++ [⟨userId, username, passwordHash, role, true⟩] := Table.upserted_of_free hfree _ _
    rw [husers]
    refine ⟨Table.nodup_concat hids hfree, Table.nodup_concat hnames fun user hmem => ?_,
      fun user hmem _ => List.mem_append_left _ hmem⟩
    simpa using List.find?_eq_none.mp hfind user hmem

/-- **`upsert_user`** ends the sessions of its user. -/
theorem Agrees.upsertUser (h : Agrees db grants) {userId username passwordHash role : String} {row : UserRow}
    {now : Instant} (hrow : db.upsertUser userId username passwordHash role = .ok row) :
    Agrees ((db.write (.putUser row)).write (.revoke (db.openSessions row.userId) now)) fun tokenHash =>
      (grants tokenHash).filter fun grant => !decide (grant.actor.actorId = row.userId) := by
  obtain ⟨hids, hnames, hstay⟩ := upserted_users h.userIds h.usernames hrow
  refine h.change (fun session => session.userId = row.userId) (fun _ grant => grant.actor.actorId = row.userId)
    hids hnames (map_revoke_openSessions h.sessionIds row.userId now) (fun session _ => leaves_revokeIf _ now session)
    fun session _ user huser hid => ?_
  refine ⟨by simp [grantOf, hid], fun hp => hstay user huser ?_⟩
  rw [hid]
  simpa using hp

/-- **`disable_user`** ends the sessions of its user, if there is one. -/
theorem Agrees.disableUser (h : Agrees db grants) (username : String) (now : Instant) :
    Agrees (db.disableUser username now).1 fun tokenHash => (grants tokenHash).filter fun grant =>
      !((db.disableUser username now).2 && decide (grant.username = username)) := by
  cases hfind : db.users.find? fun user => user.username = username with
  | none =>
    have hdisable : db.disableUser username now = (db, false) := by simp only [Auth.disableUser, hfind]
    simp only [hdisable, Bool.false_and]
    rwa [filter_not_false]
  | some row =>
    have hdisable : db.disableUser username now =
        (Auth.revokeWhere { db with users := db.users.map fun user : UserRow =>
            if user.username = username then { user with active := false } else user }
          (fun session => session.userId = row.userId) now, true) := by simp only [Auth.disableUser, hfind]
    have hmem := List.mem_of_find?_eq_some hfind
    have hname : row.username = username := by simpa using List.find?_some hfind
    rw [hdisable]
    refine h.change (fun session => session.userId = row.userId)
      (fun _ grant => true && decide (grant.username = username)) ?_ ?_ rfl
      (fun session _ => leaves_revokeIf _ now session) fun session _ user huser hid => ?_
    · rw [Auth.revokeWhere, List.map_map, List.map_congr_left (g := UserRow.userId)]
      · exact h.userIds
      · exact fun user _ => by by_cases hu : user.username = username <;> simp [hu]
    · rw [Auth.revokeWhere, List.map_map, List.map_congr_left (g := UserRow.username)]
      · exact h.usernames
      · exact fun user _ => by by_cases hu : user.username = username <;> simp [hu]
    · have hiff : user.username = username ↔ session.userId = row.userId := by
        rw [← hid, ← hname]
        exact ⟨fun heq => by rw [Table.eq_of_key_eq h.usernames huser hmem heq],
          fun heq => by rw [Table.eq_of_key_eq h.userIds huser hmem heq]⟩
      refine ⟨by simp [grantOf, hiff], fun hp => List.mem_map.mpr ⟨user, huser, if_neg ?_⟩⟩
      rw [hiff]
      simpa using hp

/-- **`revoke_session`** ends the session of its token. -/
theorem Agrees.revokeSession (h : Agrees db grants) (token : String) (now : Instant) :
    Agrees (db.revokeWhere (fun session => session.tokenHash = token) now) fun tokenHash =>
      (grants tokenHash).filter fun _ => !decide (token = tokenHash) := by
  refine h.change (fun session => session.tokenHash = token) (fun tokenHash _ => token = tokenHash) h.userIds
    h.usernames rfl (fun session _ => leaves_revokeIf _ now session) fun session _ user huser _ => ⟨?_, fun _ => huser⟩
  simp [eq_comm]

/-- An event that issues nothing and ends what it says. -/
theorem nextGrants_of_ends {e : AccessEvent} (ends : String → Grant → Bool) (hissued : e.issued host = none)
    (hends : e.ends host = ends) :
    nextGrants (AccessEvent.issued host) (AccessEvent.ends host) grants e =
      fun tokenHash => (grants tokenHash).filter fun grant => !ends tokenHash grant := by
  funext tokenHash
  rw [nextGrants_of_none hissued, hends]

/-- A call of the store with transactions of several statements. -/
theorem Agrees.auth {call : Call} {now : Instant} {result : Result} (h : Agrees db grants)
    (hcall : call.alone host store db now = .ok (db', result)) :
    Agrees db'
      (nextGrants (AccessEvent.issued host) (AccessEvent.ends host) grants (.auth call, .ok (.auth result))) := by
  cases call with
  | upsertUser call =>
    obtain ⟨passwordHash, row, hrow, rfl, rfl⟩ := upsertUser_alone hcall
    rw [nextGrants_of_ends (fun _ grant => grant.actor.actorId = row.userId) rfl rfl]
    exact h.upsertUser hrow
  | login call =>
    obtain ⟨husers, ⟨rfl, hsessions⟩ |
      ⟨user, huser, hactive, hname, row, hsessions, hid, htoken, hopen, hfresh, rfl⟩⟩ := login_alone hcall
    · rw [nextGrants_of_quiet rfl fun _ _ => rfl]
      exact h.congr husers hsessions
    · refine h.begin husers hsessions hfresh hopen huser hid.symm hactive fun tokenHash => ?_
      by_cases heq : tokenHash = row.tokenHash
      · rw [if_pos heq]
        exact nextGrants_of_issues (by simp [AccessEvent.issued, grantOf, heq, htoken])
      · rw [if_neg heq, nextGrants_of_ne]
        · cases hgrant : grants tokenHash <;> simp [Option.filter, AccessEvent.ends]
        · simpa [AccessEvent.issued, htoken, eq_comm] using heq
  | sessionActor token touch =>
    obtain ⟨rfl, rfl | rfl⟩ := sessionActor_alone hcall
    · rw [nextGrants_of_quiet rfl fun _ _ => rfl]
      exact h
    · rw [nextGrants_of_quiet rfl fun _ _ => rfl]
      exact h.touch _ now

/-- **Every call** keeps the invariant. -/
theorem Agrees.call {tables tables' : Tables} {call : AccessCall} {now : Instant} {result : AccessResult}
    (h : Agrees tables.auth grants) (hcall : tables.call host store now call = .ok (tables', result)) :
    Agrees tables'.auth (nextGrants (AccessEvent.issued host) (AccessEvent.ends host) grants (call, .ok result)) := by
  cases call with
  | auth call =>
    obtain ⟨⟨auth, result'⟩, halone, hrest⟩ := Effect.except_bind_eq_ok.mp hcall
    cases hrest
    exact h.auth halone
  | disableUser username =>
    have hdisable := h.disableUser (normalize host username) now
    simp only [Tables.call] at hcall
    generalize tables.auth.disableUser (normalize host username) now = disabled at hcall hdisable
    cases hcall
    rw [nextGrants_of_ends (fun _ grant => disabled.2 && decide (grant.username = normalize host username)) rfl
      (by cases disabled.2 <;> rfl)]
    exact hdisable
  | sessionUsername token =>
    cases hcall
    rwa [nextGrants_of_quiet rfl fun _ _ => rfl]
  | revokeSession token =>
    cases hcall
    rw [nextGrants_of_ends (fun tokenHash _ => host.sha256 token = tokenHash) rfl rfl]
    exact h.revokeSession _ now
  | createApiKey name actorId role drawn keyId =>
    simp only [Tables.call] at hcall
    split_ifs at hcall
    cases hcall
    rwa [nextGrants_of_quiet rfl fun _ _ => rfl]
  | authenticateApiKey key =>
    cases hcall
    rwa [nextGrants_of_quiet rfl fun _ _ => rfl]
  | revokeApiKey keyId =>
    cases hcall
    rwa [nextGrants_of_quiet rfl fun _ _ => rfl]

/-- **After every run** of calls, the open sessions are those that were issued and not ended. -/
theorem agrees_exec (inputs : List (AccessCall × Instant)) :
    Agrees ((access host store).exec {} inputs).auth
      (granted (AccessEvent.issued host) (AccessEvent.ends host) ((access host store).outputs {} inputs)) := by
  induction inputs using List.reverseRecOn with
  | nil => exact ⟨by simp, by simp, by simp, by simp, by simp, by simp, fun _ _ => rfl⟩
  | append_singleton inputs input ih =>
    rw [Machine.exec_concat, Machine.outputs_concat, granted_concat]
    generalize (access host store).exec {} inputs = tables at ih ⊢
    generalize granted (AccessEvent.issued host) (AccessEvent.ends host) ((access host store).outputs {} inputs) =
      grants at ih ⊢
    simp only [access]
    cases hcall : tables.call host store input.2 input.1 with
    | error e => rwa [nextGrants_of_quiet rfl fun _ _ => by cases input.1 <;> rfl]
    | ok next => exact ih.call hcall

end Steps

/-! ### Who is let in -/

section Accepted

variable (host : SecurityHost) (store : PostgresSecurityStore)

/-- What a call returns. -/
def Tables.returns (tables : Tables) (now : Instant) (call : AccessCall) : Except PyError AccessResult :=
  (tables.call host store now call).map Prod.snd

/-- `session_actor` never raises. -/
theorem returns_sessionActor (tables : Tables) (token : String) (touch : Bool) (now : Instant) :
    tables.returns host store now (.auth (.sessionActor token touch)) =
      .ok (.auth (.actor (tables.auth.sessionActor (host.sha256 token) now))) := by
  cases hactor : tables.auth.sessionActor (host.sha256 token) now <;>
    simp [Tables.returns, Tables.call, Call.alone, Call.begin, Stage.statement, Stage.committed, hactor, bind,
      Except.bind, Except.map, pure, Except.pure]

/-- The session stands, and has not expired. -/
def Open (history : List AccessEvent) (token : String) (now : Instant) (grant : Grant) : Prop :=
  Stands (AccessEvent.issued host) (AccessEvent.ends host) history (host.sha256 token) grant ∧ now < grant.expiresAt

/-- **A session is accepted**, after every run of calls, just if some login issued it, it has not expired, and since
then no call issued its token again, revoked it, or changed or disabled its user; `session_actor` then gives the user
that logged in, with the role it had, and `session_username` its name. -/
theorem session_accepted_iff (inputs : List (AccessCall × Instant)) (token : String) (touch : Bool) (now : Instant)
    (actor : Actor) (username : String) :
    (((access host store).exec {} inputs).returns host store now (.auth (.sessionActor token touch)) =
        .ok (.auth (.actor (some actor))) ↔
      ∃ grant, Open host ((access host store).outputs {} inputs) token now grant ∧ grant.actor = actor) ∧
    (((access host store).exec {} inputs).returns host store now (.sessionUsername token) =
        .ok (.username (some username)) ↔
      ∃ grant, Open host ((access host store).outputs {} inputs) token now grant ∧ grant.username = username) := by
  have hagrees : Agrees ((access host store).exec {} inputs).auth
      (granted (AccessEvent.issued host) (AccessEvent.ends host) ((access host store).outputs {} inputs)) :=
    agrees_exec inputs
  have hgrant : ∀ grant, ((granted (AccessEvent.issued host) (AccessEvent.ends host)
      ((access host store).outputs {} inputs) (host.sha256 token)).filter fun grant => now < grant.expiresAt) =
        some grant ↔
      Open host ((access host store).outputs {} inputs) token now grant := by
    intro grant
    rw [Option.filter_eq_some_iff, granted_eq_some_iff, decide_eq_true_eq, Open]
  constructor
  · rw [returns_sessionActor, hagrees.sessionActor]
    simp [Option.map_eq_some_iff, hgrant]
  · have hreturns : ((access host store).exec {} inputs).returns host store now (.sessionUsername token) =
        .ok (.username (((access host store).exec {} inputs).auth.sessionUsername (host.sha256 token) now)) := rfl
    rw [hreturns, hagrees.sessionUsername]
    simp [Option.map_eq_some_iff, hgrant]

end Accepted

/-! ### API keys -/

/-- What an API key stands for. -/
structure KeyGrant where
  keyId : String
  actor : Actor
  deriving DecidableEq

section ApiKeys

variable (host : SecurityHost)

/-- `create_api_key` issues a key, for its hash. -/
def AccessEvent.keyIssued : AccessEvent → Option (String × KeyGrant)
  | (.createApiKey _ actorId role _ _, .ok (.key keyId raw)) => some (host.sha256 raw, ⟨keyId, ⟨actorId, role⟩⟩)
  | _ => none

/-- `revoke_api_key` found it. -/
def AccessEvent.endsKey : AccessEvent → String → KeyGrant → Bool
  | (.revokeApiKey keyId, .ok (.flag true)), _, grant => grant.keyId = keyId
  | _, _, _ => false

/-- What a row says of its key. -/
def ApiKeyRow.grant (row : ApiKeyRow) : Option KeyGrant :=
  if row.revokedAt = none then some ⟨row.keyId, ⟨row.actorId, row.role⟩⟩ else none

/-- **The invariant**: numbers and hashes are unique, no key expires, and the rows say what is granted. -/
structure KeysAgree (apiKeys : List ApiKeyRow) (grants : String → Option KeyGrant) : Prop where
  keyIds : (apiKeys.map ApiKeyRow.keyId).Nodup
  hashes : (apiKeys.map ApiKeyRow.keyHash).Nodup
  unlimited : ∀ row ∈ apiKeys, row.expiresAt = none
  rows : ∀ row ∈ apiKeys, grants row.keyHash = row.grant
  absent : ∀ keyHash, (∀ row ∈ apiKeys, row.keyHash ≠ keyHash) → grants keyHash = none

variable {host} {store : PostgresSecurityStore} {apiKeys : List ApiKeyRow} {grants : String → Option KeyGrant}

/-- Who `authenticate_api_key` finds. -/
theorem KeysAgree.lookup (h : KeysAgree apiKeys grants) (keyHash : String) (now : Instant) :
    ((apiKeys.find? fun row => row.valid keyHash now).map fun row => (⟨row.actorId, row.role⟩ : Actor)) =
      (grants keyHash).map KeyGrant.actor := by
  have hvalid : (apiKeys.find? fun row => row.valid keyHash now) =
      (apiKeys.find? fun row => row.keyHash = keyHash).filter fun row => row.revokedAt.isNone := by
    rw [← Table.find?_key_and h.hashes]
    refine List.find?_congr fun row hrow => ?_
    cases hrevoked : row.revokedAt <;> simp [ApiKeyRow.valid, h.unlimited row hrow, hrevoked]
  rw [hvalid]
  by_cases hrow : ∃ row ∈ apiKeys, row.keyHash = keyHash
  · obtain ⟨row, hrow, rfl⟩ := hrow
    rw [Table.find?_eq_some_of_mem h.hashes hrow, h.rows row hrow]
    cases hrevoked : row.revokedAt <;> simp [Option.filter, ApiKeyRow.grant, hrevoked]
  · have hnone : (apiKeys.find? fun row => row.keyHash = keyHash) = none :=
      List.find?_eq_none.mpr fun row hmem => by simpa using fun heq => hrow ⟨row, hmem, heq⟩
    rw [hnone, h.absent keyHash fun row hmem heq => hrow ⟨row, hmem, heq⟩]
    rfl

/-- Rows keep what says whose they are. -/
theorem KeysAgree.update (h : KeysAgree apiKeys grants) {f : ApiKeyRow → ApiKeyRow}
    {grants' : String → Option KeyGrant}
    (hsame : ∀ row, (f row).keyId = row.keyId ∧ (f row).keyHash = row.keyHash ∧ (f row).expiresAt = row.expiresAt)
    (hgrants : ∀ row ∈ apiKeys, grants' row.keyHash = (f row).grant)
    (hnone : ∀ keyHash, grants keyHash = none → grants' keyHash = none) : KeysAgree (apiKeys.map f) grants' where
  keyIds := by
    have hmap : apiKeys.map (ApiKeyRow.keyId ∘ f) = apiKeys.map ApiKeyRow.keyId :=
      List.map_congr_left fun row _ => (hsame row).1
    rw [List.map_map, hmap]
    exact h.keyIds
  hashes := by
    have hmap : apiKeys.map (ApiKeyRow.keyHash ∘ f) = apiKeys.map ApiKeyRow.keyHash :=
      List.map_congr_left fun row _ => (hsame row).2.1
    rw [List.map_map, hmap]
    exact h.hashes
  unlimited := List.forall_mem_map.mpr fun row hrow => by rw [(hsame row).2.2, h.unlimited row hrow]
  rows := List.forall_mem_map.mpr fun row hrow => by rw [(hsame row).2.1, hgrants row hrow]
  absent := by
    refine fun keyHash habsent => hnone keyHash (h.absent keyHash fun row hrow => ?_)
    rw [← (hsame row).2.1]
    exact habsent (f row) (List.mem_map_of_mem hrow)

/-- **Every call** keeps the invariant. -/
theorem KeysAgree.call {tables tables' : Tables} {call : AccessCall} {now : Instant} {result : AccessResult}
    (h : KeysAgree tables.apiKeys grants) (hcall : tables.call host store now call = .ok (tables', result)) :
    KeysAgree tables'.apiKeys
      (nextGrants (AccessEvent.keyIssued host) AccessEvent.endsKey grants (call, .ok result)) := by
  cases call with
  | auth call =>
    obtain ⟨⟨auth, result'⟩, -, hrest⟩ := Effect.except_bind_eq_ok.mp hcall
    cases hrest
    rwa [nextGrants_of_quiet rfl fun _ _ => rfl]
  | disableUser username =>
    simp only [Tables.call] at hcall
    generalize tables.auth.disableUser (normalize host username) now = disabled at hcall
    cases hcall
    rwa [nextGrants_of_quiet rfl fun _ _ => rfl]
  | sessionUsername token =>
    cases hcall
    rwa [nextGrants_of_quiet rfl fun _ _ => rfl]
  | revokeSession token =>
    cases hcall
    rwa [nextGrants_of_quiet rfl fun _ _ => rfl]
  | createApiKey name actorId role drawn keyId =>
    simp only [Tables.call] at hcall
    split_ifs at hcall with hrole hclash
    cases hcall
    have hfree : ∀ row ∈ tables.apiKeys, row.keyId ≠ keyId ∧ row.keyHash ≠ host.sha256 (rawKey drawn) :=
      fun row hrow =>
        ⟨fun heq => hclash ⟨row, hrow, Or.inl heq⟩, fun heq => hclash ⟨row, hrow, Or.inr (Or.inr heq)⟩⟩
    have hnew : ∀ keyHash, nextGrants (AccessEvent.keyIssued host) AccessEvent.endsKey grants
        (.createApiKey name actorId role drawn keyId, .ok (.key keyId (rawKey drawn))) keyHash =
        if keyHash = host.sha256 (rawKey drawn) then some ⟨keyId, ⟨actorId, role⟩⟩ else grants keyHash := by
      intro keyHash
      split_ifs with heq
      · exact nextGrants_of_issues (by rw [heq, AccessEvent.keyIssued])
      · rw [nextGrants_of_ne]
        · cases grants keyHash <;> rfl
        · simpa [AccessEvent.keyIssued, eq_comm] using heq
    refine ⟨Table.nodup_concat h.keyIds fun row hrow => (hfree row hrow).1,
      Table.nodup_concat h.hashes fun row hrow => (hfree row hrow).2, ?_, ?_, fun keyHash habsent => ?_⟩
    · exact List.forall_mem_append.mpr ⟨h.unlimited, by simp⟩
    · refine List.forall_mem_append.mpr ⟨fun row hrow => ?_, ?_⟩
      · rw [hnew, if_neg (hfree row hrow).2, h.rows row hrow]
      · simp [hnew, ApiKeyRow.grant]
    · obtain ⟨hold, hlast⟩ := List.forall_mem_append.mp habsent
      rw [hnew, if_neg fun heq => hlast _ (List.mem_singleton_self _) heq.symm]
      exact h.absent keyHash hold
  | authenticateApiKey key =>
    cases hcall
    rw [nextGrants_of_quiet rfl fun _ _ => rfl]
    refine h.update (fun row => by split_ifs <;> simp) (fun row hrow => ?_) fun _ hnone => hnone
    rw [h.rows row hrow]
    split_ifs <;> rfl
  | revokeApiKey keyId =>
    cases hcall
    have hends : ∀ found keyHash, nextGrants (AccessEvent.keyIssued host) AccessEvent.endsKey grants
        (.revokeApiKey keyId, .ok (.flag found)) keyHash =
          (grants keyHash).filter fun grant => !(found && decide (grant.keyId = keyId)) := by
      intro found keyHash
      rw [nextGrants_of_none rfl]
      cases found <;> rfl
    refine h.update (fun row => by split_ifs <;> simp) (fun row hrow => ?_) fun keyHash hnone => ?_
    rotate_left
    · rw [hends, hnone]
      rfl
    rw [hends, h.rows row hrow]
    by_cases hrevoked : row.revokedAt = none
    · by_cases hid : row.keyId = keyId
      · have hany : (tables.apiKeys.any fun row => row.keyId = keyId && row.revokedAt.isNone) = true :=
          List.any_eq_true.mpr ⟨row, hrow, by simp [hid, hrevoked]⟩
        simp [ApiKeyRow.grant, hany, hid, hrevoked]
      · simp [ApiKeyRow.grant, Option.filter, hid, hrevoked]
    · simp [ApiKeyRow.grant, hrevoked]

/-- **After every run** of calls, the keys that are not revoked are those that were created and not ended. -/
theorem keysAgree_exec (inputs : List (AccessCall × Instant)) :
    KeysAgree ((access host store).exec {} inputs).apiKeys
      (granted (AccessEvent.keyIssued host) AccessEvent.endsKey ((access host store).outputs {} inputs)) := by
  induction inputs using List.reverseRecOn with
  | nil => exact ⟨by simp, by simp, by simp, by simp, fun _ _ => rfl⟩
  | append_singleton inputs input ih =>
    rw [Machine.exec_concat, Machine.outputs_concat, granted_concat]
    generalize (access host store).exec {} inputs = tables at ih ⊢
    generalize granted (AccessEvent.keyIssued host) AccessEvent.endsKey ((access host store).outputs {} inputs) =
      grants at ih ⊢
    simp only [access]
    cases hcall : tables.call host store input.2 input.1 with
    | error e => rwa [nextGrants_of_quiet (by cases input.1 <;> rfl) fun _ _ => by cases input.1 <;> rfl]
    | ok next => exact ih.call hcall

/-- **An API key is accepted**, after every run of calls, for as long as it has not been revoked: some `create_api_key`
issued it, for that actor and role, no later one drew it again, and no `revoke_api_key` of its number has found it
since. -/
theorem api_key_accepted_iff (host : SecurityHost) (store : PostgresSecurityStore)
    (inputs : List (AccessCall × Instant)) (key : String) (now : Instant) (actor : Actor) :
    ((access host store).exec {} inputs).returns host store now (.authenticateApiKey key) =
        .ok (.actor (some actor)) ↔
      ∃ grant, Stands (AccessEvent.keyIssued host) AccessEvent.endsKey ((access host store).outputs {} inputs)
        (host.sha256 key) grant ∧ grant.actor = actor := by
  have hreturns : ((access host store).exec {} inputs).returns host store now (.authenticateApiKey key) =
      .ok (.actor ((((access host store).exec {} inputs).apiKeys.find? fun row => row.valid (host.sha256 key) now).map
        fun row => ⟨row.actorId, row.role⟩)) := rfl
  rw [hreturns, (keysAgree_exec inputs).lookup]
  simp [Option.map_eq_some_iff, granted_eq_some_iff]

end ApiKeys

end NanoDelta.Security
