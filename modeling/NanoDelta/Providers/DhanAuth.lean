import Mathlib.Logic.Function.Basic
import NanoDelta.Library.Effect
import NanoDelta.Library.Locks
import NanoDelta.Library.Machine
import NanoDelta.Records

/-!
# Access tokens of Dhan

`providers/dhan_auth.py`: the token of a client is kept in one database, and a process that finds none that is fresh asks
the token service for another under an advisory lock. Processes take their steps one at a time, and time passes between
them; all read one clock. The files of the secrets and the one-time codes are parameters.

* `fresh`: a cached token, until five minutes before its expiry.
* `Stage`: a call of `resolve_dhan_access_token` before each of its steps.
* `tokens`: the processes over one database as a machine.
-/

namespace NanoDelta.Providers.DhanAuth

open Library

/-! ### The token service -/

/-- `DhanAccessToken`. -/
structure DhanAccessToken where
  value : String
  expiresAt : Instant
  deriving DecidableEq, Repr

/-- `timedelta(hours=5, minutes=30)`, in which an expiry without an offset is given. -/
def indiaOffset : ℤ := seconds 19800

/-- `_parse`. -/
def parse (reader : Reader) (payload : Json) : Except PyError DhanAccessToken :=
  match payload with
  | .obj entries =>
    let get (key : String) := (entries.find? fun entry => entry.1 = key).map Prod.snd
    match get "accessToken" with
    | some (.str rawToken) =>
      if isBlank rawToken then .error (.providerClientError "Dhan token response has no accessToken")
      else
        match get "expiryTime" with
        | some (.str rawExpiry) =>
          match reader.fromisoformat (reader.replace rawExpiry "Z" "+00:00") with
          | none => .error (.providerClientError "Dhan token expiry is invalid")
          | some (.naive wall) => .ok ⟨rawToken, wall - indiaOffset⟩
          | some (.aware t) => .ok ⟨rawToken, t⟩
        | _ => .error (.providerClientError "Dhan token response has no expiryTime")
    | _ => .error (.providerClientError "Dhan token response has no accessToken")
  | _ => .error (.providerClientError "Dhan token response must be an object")

/-- What `resolve_dhan_access_token` reads of the process: the text of `DHAN_ACCESS_TOKEN_PATH` if it is set, and what
`DhanSecretFiles.read()` gives if both paths are set. -/
structure Environment where
  staticToken : Option String := none
  secrets : Option (Except PyError (String × String)) := none

/-- The arguments of a call, with the process's environment. -/
structure Resolve where
  clientId : String
  environment : Environment

/-- `text.strip()`. -/
def stripped (text : String) : String :=
  String.ofList ((text.toList.dropWhile isSpace).reverse.dropWhile isSpace).reverse

/-- A token as the database has it, and when it was asked for. -/
structure CachedToken where
  token : DhanAccessToken
  fetchedAt : Instant
  deriving DecidableEq, Repr

/-- `timedelta(minutes=5)`. -/
def margin : ℤ := seconds 300

/-- `_fresh`. -/
def fresh (cached : Option DhanAccessToken) (now : Instant) : Option DhanAccessToken :=
  cached.filter fun token => now < token.expiresAt - margin

theorem fresh_eq_some {cached : Option DhanAccessToken} {now : Instant} {token : DhanAccessToken} :
    fresh cached now = some token ↔ cached = some token ∧ now < token.expiresAt - margin := by
  simp [fresh, Option.filter_eq_some_iff]

/-! ### Processes over one database -/

/-- Where a call stands, before its next step. From `locked` on, it holds the advisory lock. -/
inductive Stage where
  /-- The first query for a cached token. -/
  | probe (call : Resolve)
  /-- The clock, for the token that the query gave. -/
  | check (call : Resolve) (cached : Option DhanAccessToken)
  | lock (call : Resolve)
  | locked (call : Resolve)
  | recheck (call : Resolve) (cached : Option DhanAccessToken)
  /-- The request of a token, `now` being what the clock gave. -/
  | request (call : Resolve) (now : Instant)
  | awaiting (call : Resolve) (now : Instant)
  | store (call : Resolve) (now : Instant) (token : DhanAccessToken)
  | unlock (call : Resolve) (result : Except PyError String)

/-- A request of a token: by a call for which client, when, with which parameters, and what its answer gave. -/
structure Request where
  clientId : String
  requestedAt : Instant
  dhanClientId : String
  pin : String
  totp : String
  answer : Option (Except PyError DhanAccessToken) := none

/-- The request of a call, for `client_id.strip()`. -/
def Resolve.request (call : Resolve) (now : Instant) (pin totp : String) : Request where
  clientId := call.clientId
  requestedAt := now
  dhanClientId := stripped call.clientId
  pin := pin
  totp := totp

/-- The token that a request was answered with. -/
def Request.token (request : Request) : Option DhanAccessToken := request.answer.bind Except.toOption

/-- A token that a process has resolved, and what the clock gave when it did. -/
structure Resolution where
  clientId : String
  resolvedAt : Instant
  value : String
  deriving DecidableEq

/-- The clock, the table of tokens, the locks, the processes, and the requests and resolutions so far, in order. -/
structure Service where
  now : Instant
  cache : Dict String CachedToken := .empty
  locks : Locks ℕ ℕ := Locks.free
  processes : ℕ → Option Stage := fun _ => none
  requests : List Request := []
  resolutions : List Resolution := []

/-- What can happen. -/
inductive Input where
  /-- Time passes, in microseconds. -/
  | tick (duration : ℕ)
  /-- A process calls `resolve_dhan_access_token`, as `i`. -/
  | resolve (i : ℕ) (call : Resolve)
  /-- The next step of `i`; the payload is the service's answer, if it awaits one. -/
  | advance (i : ℕ) (payload : Json)

/-- `_TOKEN_CACHE_LOCK_ID`. -/
def lockId : ℕ := 6641002025

/-- The cached token of a client. -/
def Service.cached (s : Service) (clientId : String) : Option DhanAccessToken :=
  (s.cache.get? clientId).map CachedToken.token

/-- A call comes to a stage, or ends. -/
def Service.goto (s : Service) (i : ℕ) (stage : Option Stage) : Service :=
  { s with processes := Function.update s.processes i stage }

/-- A call resolves a token. -/
def Service.settle (s : Service) (call : Resolve) (now : Instant) (value : String) : Service :=
  { s with resolutions := s.resolutions ++ [⟨call.clientId, now, value⟩] }

/-- A request takes an answer, if it has none yet. -/
def Request.receive (answer : Except PyError DhanAccessToken) (request : Request) : Request :=
  if request.answer.isNone then { request with answer := some answer } else request

/-- The start of a call: a token of the file is returned at once. -/
def Resolve.begin (call : Resolve) : Except PyError (String ⊕ Stage) :=
  match call.environment.staticToken, call.environment.secrets with
  | some text, _ =>
    if stripped text = "" then .error (.runtimeError "DHAN_ACCESS_TOKEN_PATH points to an empty secret")
    else .ok (.inl (stripped text))
  | none, none =>
    .error (.runtimeError
      "Dhan credentials are required: set DHAN_ACCESS_TOKEN_PATH, or both DHAN_PIN_PATH and DHAN_TOTP_SECRET_PATH")
  | none, some _ =>
    if isBlank call.clientId then .error (.valueError "Dhan client ID or token refresh margin is invalid")
    else .ok (.inr (.probe call))

/-- The secrets and the one-time code of a request. -/
def Resolve.credentials (totp : String → Instant → Except PyError String) (call : Resolve) (now : Instant) :
    Except PyError (String × String) := do
  let (pin, secret) ← call.environment.secrets.getD (.error (.valueError "Dhan PIN file is empty"))
  let code ← totp secret now
  return (pin, code)

/-- Calls of `resolve_dhan_access_token` over one database, `totp` being `generate_totp`. -/
def tokens (reader : Reader) (totp : String → Instant → Except PyError String) :
    Machine Service Input (Option (Except PyError String)) where
  step s
    | .tick duration => ({ s with now := s.now + duration }, none)
    | .resolve i call =>
      match s.processes i, call.begin with
      | some _, _ => (s, none)
      | none, .ok (.inr stage) => (s.goto i (some stage), none)
      | none, .ok (.inl value) => (s, some (.ok value))
      | none, .error e => (s, some (.error e))
    | .advance i payload =>
      match s.processes i with
      | none => (s, none)
      | some (.probe call) => (s.goto i (some (.check call (s.cached call.clientId))), none)
      | some (.check call cached) =>
        match fresh cached s.now with
        | some token => ((s.settle call s.now token.value).goto i none, some (.ok token.value))
        | none => (s.goto i (some (.lock call)), none)
      | some (.lock call) =>
        if s.locks.Available [lockId] i then
          ({ s with locks := s.locks.take [lockId] i }.goto i (some (.locked call)), none)
        else (s, none)
      | some (.locked call) => (s.goto i (some (.recheck call (s.cached call.clientId))), none)
      | some (.recheck call cached) =>
        match fresh cached s.now with
        | some token => ((s.settle call s.now token.value).goto i (some (.unlock call (.ok token.value))), none)
        | none => (s.goto i (some (.request call s.now)), none)
      | some (.request call now) =>
        match call.credentials totp now with
        | .ok (pin, code) =>
          ({ s with requests := s.requests ++ [call.request now pin code] }.goto i (some (.awaiting call now)), none)
        | .error e => (s.goto i (some (.unlock call (.error e))), none)
      | some (.awaiting call now) =>
        let s' := { s with requests := s.requests.map (Request.receive (parse reader payload)) }
        match parse reader payload with
        | .ok token => (s'.goto i (some (.store call now token)), none)
        | .error e => (s'.goto i (some (.unlock call (.error e))), none)
      | some (.store call now token) =>
        (({ s with cache := s.cache.set call.clientId (CachedToken.mk token now) }.settle call now token.value).goto i
          (some (.unlock call (.ok token.value))), none)
      | some (.unlock _ result) => ({ s with locks := s.locks.release i }.goto i none, some result)

end NanoDelta.Providers.DhanAuth
