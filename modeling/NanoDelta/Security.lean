import Mathlib.Logic.Function.Basic
import NanoDelta.History.Timeframes
import NanoDelta.Library.Locks
import NanoDelta.Library.Machine
import NanoDelta.Library.Table
import NanoDelta.Operations.Controller

/-!
# Identity

`security.py`: passwords, and the store of users and revocable sessions. Each call is a transaction of several statements,
between which other transactions run; a statement sees what was committed before it, and what a transaction writes is seen
when it commits. A row that is written, and a key that is inserted, are locked until then. The audit rows, which no call
reads, are left out.

* `hashPassword`, `verifyPassword`: a password and its stored hash.
* `Auth`: the tables. `Stage.statement`: what a transaction does next.
* `service`: transactions over one database as a machine.
-/

namespace NanoDelta.Security

open Library Operations History

/-- What identity takes from the runtime, besides `Host`. -/
structure SecurityHost extends Host where
  /-- `str.casefold()`. -/
  casefold : String → String
  /-- `hashlib.scrypt` of a password and a salt, with `n`, `r`, `p` and 32 bytes: nothing if it raises `ValueError`. -/
  scrypt : String → List UInt8 → ℤ → ℤ → ℤ → Option (List UInt8)
  /-- `hashtextextended(text, 0)` of the database. -/
  hashtextextended : String → ℤ

/-! ### Passwords -/

/-- A hexadecimal digit. -/
def hexDigit (n : ℕ) : Char := Nat.digitChar n

/-- `bytes.hex()`. -/
def hex (bytes : List UInt8) : List Char := bytes.flatMap fun b => [hexDigit (b.toNat / 16), hexDigit (b.toNat % 16)]

/-- The value of a hexadecimal digit. -/
def hexValue (c : Char) : Option ℕ :=
  if c.isDigit then some (c.toNat - 48)
  else if 'a' ≤ c ∧ c ≤ 'f' then some (c.toNat - 87)
  else if 'A' ≤ c ∧ c ≤ 'F' then some (c.toNat - 55)
  else none

/-- `bytes.fromhex(text)`: nothing if it raises. ASCII white space between two bytes is skipped. -/
def fromHex : List Char → Option (List UInt8)
  | [] => some []
  | [c] => if c.isWhitespace then some [] else none
  | c :: d :: cs =>
    if c.isWhitespace then fromHex (d :: cs)
    else
      match hexValue c, hexValue d, fromHex cs with
      | some high, some low, some bytes => some (UInt8.ofNat (16 * high + low) :: bytes)
      | _, _, _ => none

section Passwords

variable (host : SecurityHost)

/-- `hash_password`, with the salt that it draws. -/
def hashPassword (password : String) (salt : List UInt8) : Except PyError String :=
  if password.length < 12 then .error (.valueError "password must contain at least 12 characters")
  else
    match host.scrypt password salt 16384 8 1 with
    | none => .error (.valueError "scrypt failed")
    | some derived =>
      .ok (String.ofList (['$'].intercalate
        ["scrypt".toList, "16384".toList, "8".toList, "1".toList, hex salt, hex derived]))

/-- `verify_password`. -/
def verifyPassword (password encoded : String) : Bool :=
  match encoded.toList.splitOn '$' with
  | [algorithm, n, r, p, salt, expected] =>
    if algorithm ≠ "scrypt".toList then false
    else
      match parseInt (String.ofList n), parseInt (String.ofList r), parseInt (String.ofList p), fromHex salt,
        fromHex expected with
      | some n, some r, some p, some salt, some expected => host.scrypt password salt n r p = some expected
      | _, _, _, _, _ => false
  | _ => false

theorem hexDigit_facts : ∀ n < 16, hexValue (hexDigit n) = some n ∧ (hexDigit n).isWhitespace = false ∧ hexDigit n ≠ '$' := by
  decide

theorem fromHex_hex (bytes : List UInt8) : fromHex (hex bytes) = some bytes := by
  induction bytes with
  | nil => rfl
  | cons b bytes ih =>
    have hb : b.toNat < 256 := b.toNat_lt
    obtain ⟨hhigh, hspace, -⟩ := hexDigit_facts (b.toNat / 16) (by omega)
    obtain ⟨hlow, -, -⟩ := hexDigit_facts (b.toNat % 16) (by omega)
    have hbyte : UInt8.ofNat (16 * (b.toNat / 16) + b.toNat % 16) = b := by
      rw [Nat.div_add_mod, UInt8.ofNat_toNat]
    have hcons : hex (b :: bytes) = hexDigit (b.toNat / 16) :: hexDigit (b.toNat % 16) :: hex bytes := rfl
    simp [hcons, fromHex, hspace, hhigh, hlow, ih, hbyte]

theorem dollar_notMem_hex (bytes : List UInt8) : '$' ∉ hex bytes := by
  intro h
  obtain ⟨b, -, hb⟩ := List.mem_flatMap.mp h
  have hlt : b.toNat < 256 := b.toNat_lt
  rcases List.mem_pair.mp hb with h | h
  · exact (hexDigit_facts (b.toNat / 16) (by omega)).2.2 h.symm
  · exact (hexDigit_facts (b.toNat % 16) (by omega)).2.2 h.symm

/-- A password verifies against the hash of another if the same key is derived from both. -/
theorem verifyPassword_of_hash {password encoded : String} {salt : List UInt8}
    (h : hashPassword host password salt = .ok encoded) (other : String) :
    verifyPassword host other encoded = decide (host.scrypt other salt 16384 8 1 = host.scrypt password salt 16384 8 1) := by
  unfold hashPassword at h
  split_ifs at h with hshort
  cases hderived : host.scrypt password salt 16384 8 1 with
  | none =>
    rw [hderived] at h
    cases h
  | some derived =>
    rw [hderived] at h
    cases h
    have hfields : ∀ field ∈ ["scrypt".toList, "16384".toList, "8".toList, "1".toList, hex salt, hex derived],
        '$' ∉ field := by
      have hplain : ∀ field ∈ ["scrypt".toList, "16384".toList, "8".toList, "1".toList], '$' ∉ field := by decide
      intro field hfield
      rcases List.mem_append (s := ["scrypt".toList, "16384".toList, "8".toList, "1".toList]).mp hfield with h | hfield
      · exact hplain field h
      · rcases List.mem_pair.mp hfield with rfl | rfl
        · exact dollar_notMem_hex salt
        · exact dollar_notMem_hex derived
    have hnumbers : parseInt "16384" = some 16384 ∧ parseInt "8" = some 8 ∧ parseInt "1" = some 1 := by decide
    obtain ⟨hn, hr, hp⟩ := hnumbers
    unfold verifyPassword
    rw [String.toList_ofList, List.splitOn_intercalate _ hfields (by simp)]
    simp [hn, hr, hp, fromHex_hex]

/-- **A password verifies against its hash.** -/
theorem verifyPassword_hashPassword {password encoded : String} {salt : List UInt8}
    (h : hashPassword host password salt = .ok encoded) : verifyPassword host password encoded = true := by
  rw [verifyPassword_of_hash host h]
  exact decide_eq_true rfl

end Passwords

/-! ### Tables -/

/-- A row of `auth.users`. -/
structure UserRow where
  userId : String
  username : String
  passwordHash : String
  role : String
  active : Bool
  deriving DecidableEq

/-- A row of `auth.login_throttle`. -/
structure ThrottleRow where
  username : String
  sourceHash : String
  failedAttempts : ℕ
  windowStartedAt : Instant
  lockedUntil : Option Instant
  deriving DecidableEq

/-- A row of `auth.sessions`. -/
structure SessionRow where
  sessionId : String
  userId : String
  tokenHash : String
  expiresAt : Instant
  revokedAt : Option Instant
  lastSeenAt : Instant
  sourceHash : String
  deriving DecidableEq

/-- The schema `auth`. -/
structure Auth where
  users : List UserRow := []
  loginThrottle : List ThrottleRow := []
  sessions : List SessionRow := []

/-- A row that a transaction writes, as the commit leaves it. -/
inductive AuthWrite where
  /-- A user, inserted or updated. -/
  | putUser (row : UserRow)
  /-- `revoked_at` of some sessions. -/
  | revoke (sessionIds : List String) (now : Instant)
  | putThrottle (row : ThrottleRow)
  | dropThrottle (username sourceHash : String)
  | addSession (row : SessionRow)
  /-- `last_seen_at` of a session. -/
  | touch (tokenHash : String) (now : Instant)
  deriving DecidableEq

namespace Auth

variable (db : Auth)

/-- The tables with a write. -/
def write : AuthWrite → Auth
  | .putUser row =>
    { db with users := Table.upserted (fun user => user.userId = row.userId) (fun _ => row) row db.users }
  | .revoke sessionIds now =>
    { db with sessions := db.sessions.map fun session =>
        if session.sessionId ∈ sessionIds then { session with revokedAt := some now } else session }
  | .putThrottle row =>
    { db with
      loginThrottle := Table.upserted
        (fun throttle => throttle.username = row.username ∧ throttle.sourceHash = row.sourceHash) (fun _ => row) row
        db.loginThrottle }
  | .dropThrottle username sourceHash =>
    { db with loginThrottle := db.loginThrottle.filter fun throttle =>
        ¬ (throttle.username = username ∧ throttle.sourceHash = sourceHash) }
  | .addSession row => { db with sessions := db.sessions ++ [row] }
  | .touch tokenHash now =>
    { db with sessions := db.sessions.map fun session =>
        if session.tokenHash = tokenHash then { session with lastSeenAt := now } else session }

/-- The row that `INSERT INTO auth.users … ON CONFLICT(username) DO UPDATE` leaves. -/
def upsertUser (userId username passwordHash role : String) : Except PyError UserRow :=
  match db.users.find? fun user => user.username = username with
  | some user => .ok { user with passwordHash, role, active := true }
  | none =>
    if ∃ user ∈ db.users, user.userId = userId then .error (.databaseError "users_pkey")
    else .ok ⟨userId, username, passwordHash, role, true⟩

/-- The sessions of a user that are not revoked. -/
def openSessions (userId : String) : List String :=
  (db.sessions.filter fun session => session.userId = userId ∧ session.revokedAt = none).map SessionRow.sessionId

/-- The row of a user who may log in. -/
def activeUser (username : String) : Option UserRow := db.users.find? fun user => user.username = username ∧ user.active

/-- The failures of a user from an origin. -/
def throttleOf (username sourceHash : String) : Option ThrottleRow :=
  db.loginThrottle.find? fun throttle => throttle.username = username ∧ throttle.sourceHash = sourceHash

/-- Who a token's session stands for, if it is accepted: the query of `session_actor`. -/
def sessionActor (tokenHash : String) (now : Instant) : Option Actor :=
  (db.sessions.find? fun session =>
      session.tokenHash = tokenHash ∧ session.revokedAt = none ∧ now < session.expiresAt).bind fun session =>
    (db.users.find? fun user => user.userId = session.userId ∧ user.active).map fun user => ⟨user.userId, user.role⟩

end Auth

/-! ### Calls -/

/-- The limits of a `PostgresSecurityStore`. -/
structure PostgresSecurityStore where
  maxFailures : ℕ := 5
  failureWindow : ℤ := seconds 900
  lockout : ℤ := seconds 1800
  sessionTtl : ℤ := seconds 28800

/-- The arguments of `upsert_user`, with what it draws at random. -/
structure UpsertUser where
  username : String
  password : String
  role : String
  userId : String
  salt : List UInt8
  deriving DecidableEq

/-- The arguments of `login`, with the clock and what it draws at random. -/
structure Login where
  username : String
  password : String
  source : String
  now : Instant
  rawToken : String
  sessionId : String
  deriving DecidableEq

/-- A call of the store. -/
inductive Call where
  | upsertUser (call : UpsertUser)
  | login (call : Login)
  | sessionActor (token : String) (touch : Bool)
  deriving DecidableEq

/-- `AuthSession`. -/
structure AuthSession where
  token : String
  actor : Actor
  username : String
  expiresAt : Instant
  deriving DecidableEq

/-- What a call returns. -/
inductive Result where
  | user (userId : String)
  | session (session : Option AuthSession)
  | actor (actor : Option Actor)
  deriving DecidableEq

/-- A login that succeeded: the password it verified, and how many password changes had committed when it read the
hash. -/
structure LoginEvent where
  userId : String
  password : String
  tokenHash : String
  seen : ℕ
  deriving DecidableEq

/-- A hash that was written for a user. -/
structure ChangeEvent where
  userId : String
  passwordHash : String
  deriving DecidableEq

/-- What the commit of a call adds to the history: a password change comes with the number of logins that had committed
when it revoked the sessions. -/
inductive Event where
  | login (event : LoginEvent)
  | change (event : ChangeEvent) (seen : ℕ)
  deriving DecidableEq

/-- Where a transaction stands, before its next statement. -/
inductive Stage where
  | upsertUser (call : UpsertUser) (passwordHash : String)
  | revokeSessions (row : UserRow) (started : Instant)
  | lockThrottle (call : Login)
  | readThrottle (call : Login)
  | readUser (call : Login) (throttle : Option ThrottleRow)
  | insertSession (call : Login) (row : UserRow) (seen : ℕ)
  | readSession (token : String) (touch : Bool)
  | commit (writes : List AuthWrite) (result : Result) (event : Option Event)
  deriving DecidableEq

/-- What a transaction holds until it ends. -/
inductive AuthLock where
  | username (username : String)
  | userId (userId : String)
  /-- The advisory lock of a login. -/
  | throttle (key : ℤ)
  | token (tokenHash : String)
  | sessionId (sessionId : String)
  deriving DecidableEq

/-- `ROLES`. -/
def roles : List String := ["viewer", "operator", "admin"]

section Calls

variable (host : SecurityHost) (store : PostgresSecurityStore)

/-- `username.strip().casefold()`. -/
def normalize (username : String) : String :=
  host.casefold (String.ofList ((username.toList.dropWhile isSpace).reverse.dropWhile isSpace).reverse)

/-- The checks of a call before its first statement. -/
def Call.begin : Call → Except PyError Stage
  | .upsertUser call =>
    if call.role ∉ roles then .error (.valueError "invalid role")
    else if normalize host call.username = "" then .error (.valueError "username is required")
    else do
      let passwordHash ← hashPassword host call.password call.salt
      return .upsertUser call passwordHash
  | .login call => .ok (.lockThrottle call)
  | .sessionActor token touch => .ok (.readSession token touch)

/-- The row of the failures after one more. -/
def failure (call : Login) (throttle : Option ThrottleRow) : ThrottleRow :=
  let username := normalize host call.username
  let sourceHash := host.sha256 call.source
  let (failures, windowStart) :=
    match throttle with
    | some throttle =>
      if call.now - throttle.windowStartedAt ≤ store.failureWindow then
        (throttle.failedAttempts + 1, throttle.windowStartedAt)
      else (1, call.now)
    | none => (1, call.now)
  ⟨username, sourceHash, failures, windowStart,
    if store.maxFailures ≤ failures then some (call.now + store.lockout) else none⟩

/-- The locks that the next statement of a transaction waits for. -/
def Stage.locks : Stage → List AuthLock
  | .upsertUser call _ => [.username (normalize host call.username), .userId call.userId]
  | .lockThrottle call =>
    [.throttle (host.hashtextextended (normalize host call.username ++ ":" ++ host.sha256 call.source))]
  | .insertSession call _ _ => [.token (host.sha256 call.rawToken), .sessionId call.sessionId]
  | _ => []

/-- The next statement of a transaction, when `logins` and `changes` have committed. -/
def Stage.statement (db : Auth) (logins changes : ℕ) (now : Instant) : Stage → Except PyError Stage
  | .upsertUser call passwordHash => do
    let row ← db.upsertUser call.userId (normalize host call.username) passwordHash call.role
    return .revokeSessions row now
  | .revokeSessions row started =>
    .ok (.commit [.putUser row, .revoke (db.openSessions row.userId) started] (.user row.userId)
      (some (.change ⟨row.userId, row.passwordHash⟩ logins)))
  | .lockThrottle call => .ok (.readThrottle call)
  | .readThrottle call =>
    let throttle := db.throttleOf (normalize host call.username) (host.sha256 call.source)
    if ∃ row ∈ throttle, ∃ lockedUntil ∈ row.lockedUntil, call.now < lockedUntil then .ok (.commit [] (.session none) none)
    else .ok (.readUser call throttle)
  | .readUser call throttle =>
    match db.activeUser (normalize host call.username) with
    | some row =>
      if verifyPassword host call.password row.passwordHash then .ok (.insertSession call row changes)
      else .ok (.commit [.putThrottle (failure host store call throttle)] (.session none) none)
    | none => .ok (.commit [.putThrottle (failure host store call throttle)] (.session none) none)
  | .insertSession call row seen =>
    let tokenHash := host.sha256 call.rawToken
    let sourceHash := host.sha256 call.source
    if ∃ session ∈ db.sessions, session.sessionId = call.sessionId ∨ session.tokenHash = tokenHash then
      .error (.databaseError "duplicate key value violates unique constraint")
    else
      .ok (.commit
        [.dropThrottle (normalize host call.username) sourceHash,
          .addSession ⟨call.sessionId, row.userId, tokenHash, call.now + store.sessionTtl, none, now, sourceHash⟩]
        (.session (some ⟨call.rawToken, ⟨row.userId, row.role⟩, normalize host call.username,
          call.now + store.sessionTtl⟩))
        (some (.login ⟨row.userId, call.password, tokenHash, seen⟩)))
  | .readSession token touch =>
    match db.sessionActor (host.sha256 token) now with
    | some actor => .ok (.commit (if touch then [.touch (host.sha256 token) now] else []) (.actor (some actor)) none)
    | none => .ok (.commit [] (.actor none) none)
  | .commit writes result event => .ok (.commit writes result event)

/-! ### Transactions over one database -/

/-- The database, the transactions that are open, and the logins and password changes that have committed, in order. -/
structure Service where
  db : Auth := {}
  locks : Locks AuthLock ℕ := Locks.free
  open_ : ℕ → Option Stage := fun _ => none
  logins : List LoginEvent := []
  changes : List ChangeEvent := []

/-- What can happen. -/
inductive Input where
  /-- A call begins, as transaction `i`. -/
  | call (i : ℕ) (call : Call)
  /-- The next statement of a transaction, at the time of the database. With a fault, it raises. -/
  | advance (i : ℕ) (now : Instant) (fault : Bool)

/-- A transaction ends: what it holds is free. -/
def Service.finish (s : Service) (i : ℕ) : Service :=
  { s with locks := s.locks.release i, open_ := Function.update s.open_ i none }

/-- The history after a commit. -/
def Service.log (s : Service) : Option Event → Service
  | some (.login event) => { s with logins := s.logins ++ [event] }
  | some (.change event _) => { s with changes := s.changes ++ [event] }
  | none => s

/-- The transactions over one database. -/
def service : Machine Service Input (Option (Except PyError Result)) where
  step s
    | .call i call =>
      match s.open_ i, call.begin host with
      | some _, _ => (s, none)
      | none, .ok stage => ({ s with open_ := Function.update s.open_ i (some stage) }, none)
      | none, .error e => (s, some (.error e))
    | .advance i now fault =>
      match s.open_ i with
      | none => (s, none)
      | some stage =>
        if fault then (s.finish i, some (.error (.databaseError "connection lost")))
        else
          match stage with
          | .commit writes result event =>
            ({ s.log event with db := writes.foldl Auth.write s.db }.finish i, some (.ok result))
          | stage =>
            if ¬ s.locks.Available (stage.locks host) i then (s, none)
            else
              match stage.statement host store s.db s.logins.length s.changes.length now with
              | .ok stage' =>
                ({ s with locks := s.locks.take (stage.locks host) i
                          open_ := Function.update s.open_ i (some stage') }, none)
              | .error e => (s.finish i, some (.error e))

end Calls

end NanoDelta.Security
