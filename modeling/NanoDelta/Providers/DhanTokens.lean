import Mathlib.Tactic.Linarith
import NanoDelta.Providers.DhanAuth

/-!
# One token at a time

When the token service answers every request with a token that is not about to expire, a client has one token at a time:
no other is requested until it is about to expire, and every process that resolves one meanwhile resolves that one. The
invariant says what each process may rely on at its stage (`Stage.Standing`): only the holder of the lock is past the
second query, so that what it saw of the table still holds when it stores its token, and a request is either its own or
answered with a token that the table has or that has lapsed (`Covered`).
-/

namespace NanoDelta.Providers.DhanAuth

open Library

variable {reader : Reader} {totp : String → Instant → Except PyError String} {s s' : Service} {i j : ℕ} {c : String}

/-- A token that a request was answered with, and that is about to expire at `now` or has expired. -/
def Lapsed (token : Option DhanAccessToken) (now : Instant) : Prop := ∃ t ∈ token, t.expiresAt - margin ≤ now

theorem Lapsed.mono {token : Option DhanAccessToken} {now now' : Instant} (h : Lapsed token now) (hle : now ≤ now') :
    Lapsed token now' := by
  obtain ⟨t, ht, hlapsed⟩ := h
  exact ⟨t, ht, hlapsed.trans hle⟩

/-- Every answer is a token that expires in more than five minutes. -/
def Generous (reader : Reader) (s : Service) : Input → Prop
  | .advance i payload =>
    match s.processes i with
    | some (.awaiting _ _) => ∃ token ∈ (parse reader payload).toOption, s.now + margin < token.expiresAt
    | _ => True
  | _ => True

instance Generous.decidable (reader : Reader) (s : Service) : ∀ input, Decidable (Generous reader s input)
  | .tick _ | .resolve _ _ => isTrue trivial
  | .advance i payload =>
    match h : s.processes i with
    | some (.awaiting _ _) => decidable_of_iff
        (∃ token ∈ (parse reader payload).toOption, s.now + margin < token.expiresAt) (by simp only [Generous, h])
    | none | some (.probe _) | some (.check _ _) | some (.lock _) | some (.locked _) | some (.recheck _ _)
    | some (.request _ _) | some (.store _ _ _) | some (.unlock _ _) => isTrue (by simp only [Generous, h])

/-- One token at a time: the token of an earlier request of a client has lapsed when a later one is made, and what is
resolved from a request until its token lapses is that token. -/
structure OneToken (s : Service) : Prop where
  requested : s.requests.Pairwise fun r r' => r.clientId = r'.clientId → Lapsed r.token r'.requestedAt
  resolved : ∀ q ∈ s.resolutions, ∀ r ∈ s.requests, q.clientId = r.clientId → ∀ token ∈ r.token,
    r.requestedAt ≤ q.resolvedAt → q.resolvedAt < token.expiresAt - margin → q.value = token.value

/-! ### What a process may rely on -/

/-- A process holds the advisory lock. -/
def Service.Holds (s : Service) (i : ℕ) : Prop := s.locks lockId = some i

theorem Service.Holds.unique (hi : s.Holds i) (hj : s.Holds j) : i = j := Option.some.inj (hi.symm.trans hj)

/-- At `now`, a client has no token that is fresh, nor has any been resolved since. -/
structure Service.Due (s : Service) (c : String) (now : Instant) : Prop where
  past : now ≤ s.now
  row : ∀ token ∈ s.cached c, token.expiresAt - margin ≤ now
  resolved : ∀ q ∈ s.resolutions, q.clientId = c → q.resolvedAt < now

/-- What holds of a process at its stage. -/
def Stage.Standing (s : Service) (i : ℕ) : Stage → Prop
  | .probe _ | .lock _ => True
  | .check call cached => ∀ token ∈ cached, s.cached call.clientId = some token ∨ token.expiresAt - margin ≤ s.now
  | .locked _ => s.Holds i
  | .recheck call cached => s.Holds i ∧ cached = s.cached call.clientId
  | .request call now => s.Holds i ∧ s.Due call.clientId now ∧
      ∀ r ∈ s.requests, r.clientId = call.clientId → Lapsed r.token now
  | .awaiting call now => s.Holds i ∧ s.Due call.clientId now ∧
      ∀ r ∈ s.requests, r.clientId = call.clientId → Lapsed r.token now ∨ r.answer = none
  | .store call now token => s.Holds i ∧ s.Due call.clientId now ∧ now < token.expiresAt - margin ∧
      ∀ r ∈ s.requests, r.clientId = call.clientId → Lapsed r.token now ∨ r.token = some token
  | .unlock call result => s.Holds i ∧ ∀ value, result = .ok value →
      ∃ q ∈ s.resolutions, q.clientId = call.clientId ∧ q.value = value

/-- A process whose request is on its way, or not yet stored. -/
def Stage.Pending : Stage → Prop
  | .awaiting .. | .store .. => True
  | _ => False

/-- Where a request stands: its process awaits the answer or is about to store it, or the table has it, or it has
lapsed. -/
inductive Covered (s : Service) (r : Request) : Prop
  | awaited {i : ℕ} {call : Resolve} (h : s.processes i = some (.awaiting call r.requestedAt))
    (hclient : call.clientId = r.clientId) (hanswer : r.answer = none)
  | storing {i : ℕ} {call : Resolve} {token : DhanAccessToken}
    (h : s.processes i = some (.store call r.requestedAt token)) (hclient : call.clientId = r.clientId)
    (htoken : r.token = some token)
  | kept {token : DhanAccessToken} (htoken : r.token = some token) (h : s.cached r.clientId = some token)
  | lapsed (h : Lapsed r.token s.now)

/-- The invariant. -/
structure Sound (s : Service) : Prop where
  standing : ∀ i, ∀ stage ∈ s.processes i, stage.Standing s i
  covered : ∀ r ∈ s.requests, Covered s r
  resolved : ∀ q ∈ s.resolutions, ∃ expiry, q.resolvedAt < expiry - margin ∧
    (expiry - margin ≤ s.now ∨ ∃ token ∈ s.cached q.clientId, token.expiresAt = expiry)
  one : OneToken s

theorem Stage.Standing.holds {stage : Stage} (h : stage.Standing s i) (hpending : stage.Pending) : s.Holds i := by
  cases stage with
  | awaiting | store => exact h.1
  | _ => exact hpending.elim

/-- A request of a client that is covered when the holder of the lock finds the table without a fresh token: its token has
lapsed. -/
theorem Sound.lapsed_of_due (h : Sound s) (hi : s.Holds i) {stage : Stage} (hstage : s.processes i = some stage)
    (hpending : ¬ stage.Pending) (hrow : ∀ token ∈ s.cached c, token.expiresAt - margin ≤ s.now) {r : Request}
    (hr : r ∈ s.requests) (hclient : r.clientId = c) : Lapsed r.token s.now := by
  cases h.covered r hr with
  | awaited hj _ _ =>
    cases hi.unique ((h.standing _ _ hj).holds trivial)
    cases hstage.symm.trans hj
    exact absurd trivial hpending
  | storing hj _ _ =>
    cases hi.unique ((h.standing _ _ hj).holds trivial)
    cases hstage.symm.trans hj
    exact absurd trivial hpending
  | kept htoken hcached => exact ⟨_, htoken, hrow _ (hclient ▸ hcached)⟩
  | lapsed hlapsed => exact hlapsed

/-! ### Steps of other processes -/

/-- A process that does not hold the lock relies on nothing but the time and what the table had. -/
theorem Stage.Standing.outside {stage : Stage} (h : stage.Standing s j) (hj : ¬ s.Holds j) (hnow : s.now ≤ s'.now)
    (hcached : ∀ c, ∀ token ∈ s.cached c, s'.cached c = some token ∨ token.expiresAt - margin ≤ s'.now) :
    stage.Standing s' j := by
  cases stage with
  | probe | lock => trivial
  | check call cached =>
    intro token htoken
    obtain hrow | hle := h token htoken
    · exact hcached _ token hrow
    · exact Or.inr (hle.trans hnow)
  | locked => exact absurd h hj
  | _ => exact absurd h.1 hj

/-- What a process relies on still holds after a step that changes neither the table nor the requests, and at which
nothing is resolved but a fresh token of the table. -/
theorem Stage.Standing.frame {stage : Stage} (h : stage.Standing s j) (hlocks : s.Holds j → s'.Holds j)
    (hnow : s.now ≤ s'.now) (hcache : s'.cache = s.cache) (hrequests : s'.requests = s.requests)
    (hold : ∀ q ∈ s.resolutions, q ∈ s'.resolutions)
    (hnew : ∀ q ∈ s'.resolutions, q ∈ s.resolutions ∨ ∃ token ∈ s.cached q.clientId, s.now < token.expiresAt - margin) :
    stage.Standing s' j := by
  have hcached : s'.cached = s.cached := by
    funext c
    rw [Service.cached, hcache]
    rfl
  have hdue : ∀ {c now}, s.Due c now → s'.Due c now := by
    rintro c now ⟨hpast, hrow, hresolved⟩
    refine ⟨hpast.trans hnow, hcached ▸ hrow, ?_⟩
    rintro q hq rfl
    obtain hq | ⟨token, htoken, hfresh⟩ := hnew q hq
    · exact hresolved q hq rfl
    · exact absurd hfresh (not_lt.mpr ((hrow token htoken).trans hpast))
  cases stage with
  | probe | lock => trivial
  | check call cached =>
    intro token htoken
    rw [hcached]
    exact (h token htoken).imp_right fun hle => hle.trans hnow
  | locked => exact hlocks h
  | recheck => exact ⟨hlocks h.1, hcached ▸ h.2⟩
  | request => exact ⟨hlocks h.1, hdue h.2.1, hrequests ▸ h.2.2⟩
  | awaiting => exact ⟨hlocks h.1, hdue h.2.1, hrequests ▸ h.2.2⟩
  | store => exact ⟨hlocks h.1, hdue h.2.1, h.2.2.1, hrequests ▸ h.2.2.2⟩
  | unlock =>
    refine ⟨hlocks h.1, ?_⟩
    intro value hvalue
    obtain ⟨q, hq, hqs⟩ := h.2 value hvalue
    exact ⟨q, hold q hq, hqs⟩

/-! ### The steps -/

@[simp] theorem cached_goto (stage : Option Stage) : (s.goto i stage).cached = s.cached := rfl

@[simp] theorem cached_settle (call : Resolve) (now : Instant) (value : String) :
    (s.settle call now value).cached = s.cached := rfl

theorem processes_goto_self (stage : Option Stage) : (s.goto i stage).processes i = stage :=
  Function.update_self ..

theorem processes_goto_of_ne (stage : Option Stage) (h : j ≠ i) : (s.goto i stage).processes j = s.processes j :=
  Function.update_of_ne h ..

/-- A request stays covered when a process goes on that has none on its way. -/
theorem Covered.goto {r : Request} (h : Covered s r) {next : Option Stage}
    (hpending : ∀ stage ∈ s.processes i, ¬ stage.Pending) : Covered (s.goto i next) r := by
  have hne : ∀ {k stage}, s.processes k = some stage → stage.Pending → k ≠ i := by
    rintro k stage hk hstage rfl
    exact hpending stage hk hstage
  cases h with
  | awaited hk hclient hanswer =>
    exact .awaited ((processes_goto_of_ne next (hne hk trivial)).trans hk) hclient hanswer
  | storing hk hclient htoken =>
    exact .storing ((processes_goto_of_ne next (hne hk trivial)).trans hk) hclient htoken
  | kept htoken hcached => exact .kept htoken hcached
  | lapsed hlapsed => exact .lapsed hlapsed

/-- A process that has no request on its way goes on. -/
theorem Sound.goto (h : Sound s) {next : Option Stage} (hpending : ∀ stage ∈ s.processes i, ¬ stage.Pending)
    (hnext : ∀ stage ∈ next, stage.Standing s i) : Sound (s.goto i next) where
  standing j stage hstage := by
    have hs : stage.Standing s j := by
      by_cases hj : j = i
      · subst hj
        rw [processes_goto_self] at hstage
        exact hnext stage hstage
      · rw [processes_goto_of_ne next hj] at hstage
        exact h.standing j stage hstage
    exact hs.frame id le_rfl rfl rfl (fun _ => id) fun _ => Or.inl
  covered r hr := (h.covered r hr).goto hpending
  resolved := h.resolved
  one := ⟨h.one.requested, h.one.resolved⟩

theorem Sound.tick (h : Sound s) (duration : ℕ) : Sound { s with now := s.now + duration } where
  standing j stage hstage :=
    (h.standing j stage hstage).frame id (by simp) rfl rfl (fun _ => id) fun _ => Or.inl
  covered r hr := by
    cases h.covered r hr with
    | awaited hk hclient hanswer => exact .awaited hk hclient hanswer
    | storing hk hclient htoken => exact .storing hk hclient htoken
    | kept htoken hcached => exact .kept htoken hcached
    | lapsed hlapsed => exact .lapsed (hlapsed.mono (by simp))
  resolved q hq := by
    obtain ⟨expiry, hlt, hrow⟩ := h.resolved q hq
    refine ⟨expiry, hlt, hrow.imp_left fun hle => ?_⟩
    dsimp only
    linarith [Int.natCast_nonneg duration]
  one := ⟨h.one.requested, h.one.resolved⟩

/-- A process resolves a token of the table that is fresh. -/
theorem Sound.settle (h : Sound s) {call : Resolve} {token : DhanAccessToken}
    (hrow : s.cached call.clientId = some token) (hfresh : s.now < token.expiresAt - margin) :
    Sound (s.settle call s.now token.value) where
  standing j stage hstage := by
    refine (h.standing j stage hstage).frame id le_rfl rfl rfl (fun q hq => List.mem_append_left _ hq) ?_
    intro q hq
    obtain hq | hq := List.mem_append.mp hq
    · exact Or.inl hq
    · cases List.mem_singleton.mp hq
      exact Or.inr ⟨token, hrow, hfresh⟩
  covered r hr := by
    cases h.covered r hr with
    | awaited hk hclient hanswer => exact .awaited hk hclient hanswer
    | storing hk hclient htoken => exact .storing hk hclient htoken
    | kept htoken hcached => exact .kept htoken hcached
    | lapsed hlapsed => exact .lapsed hlapsed
  resolved q hq := by
    obtain hq | hq := List.mem_append.mp hq
    · exact h.resolved q hq
    · cases List.mem_singleton.mp hq
      exact ⟨token.expiresAt, hfresh, Or.inr ⟨token, hrow, rfl⟩⟩
  one.requested := h.one.requested
  one.resolved q hq r hr hclient t ht hle hlt := by
    obtain hq | hq := List.mem_append.mp hq
    · exact h.one.resolved q hq r hr hclient t ht hle hlt
    cases List.mem_singleton.mp hq
    -- The request is neither on its way, since the table's token is fresh, nor has its token lapsed.
    cases h.covered r hr with
    | awaited _ _ hanswer => simp [Request.token, hanswer] at ht
    | storing hk hclient' _ =>
      obtain ⟨-, hdue, -⟩ := h.standing _ _ hk
      have := hdue.row token (by rw [hclient', ← hclient]; exact hrow)
      have := hdue.past
      dsimp only at hlt
      linarith
    | kept htoken hcached =>
      cases htoken.symm.trans ht
      rw [← hclient, hrow] at hcached
      cases hcached
      rfl
    | lapsed hlapsed =>
      obtain ⟨t', ht', hle'⟩ := hlapsed
      cases ht'.symm.trans ht
      exact absurd hlt (not_lt.mpr hle')

/-- A process takes the lock. -/
theorem Sound.take (h : Sound s) (havailable : s.locks.Available [lockId] i) :
    Sound { s with locks := s.locks.take [lockId] i } where
  standing j stage hstage :=
    (h.standing j stage hstage).frame (Locks.take_of_held havailable) le_rfl rfl rfl (fun _ => id) fun _ => Or.inl
  covered r hr := by
    cases h.covered r hr with
    | awaited hk hclient hanswer => exact .awaited hk hclient hanswer
    | storing hk hclient htoken => exact .storing hk hclient htoken
    | kept htoken hcached => exact .kept htoken hcached
    | lapsed hlapsed => exact .lapsed hlapsed
  resolved := h.resolved
  one := ⟨h.one.requested, h.one.resolved⟩

/-- The holder of the lock requests a token. -/
theorem Sound.request (h : Sound s) {call : Resolve} {now : Instant} (pin code : String)
    (hi : s.processes i = some (.request call now)) :
    Sound ({ s with requests := s.requests ++ [call.request now pin code] }.goto i (some (.awaiting call now))) := by
  obtain ⟨hholds, hdue, hlapsed⟩ := h.standing i _ hi
  refine ⟨?_, ?_, h.resolved, ?_, ?_⟩
  · intro j stage hstage
    by_cases hj : j = i
    · subst hj
      rw [processes_goto_self] at hstage
      cases hstage
      refine ⟨hholds, ⟨hdue.past, hdue.row, hdue.resolved⟩, ?_⟩
      intro r hr hclient
      obtain hr | hr := List.mem_append.mp hr
      · exact Or.inl (hlapsed r hr hclient)
      · cases List.mem_singleton.mp hr
        exact Or.inr rfl
    · rw [processes_goto_of_ne _ hj] at hstage
      exact (h.standing j stage hstage).outside (fun hheld => hj (hheld.unique hholds)) le_rfl fun _ _ => Or.inl
  · intro r hr
    obtain hr | hr := List.mem_append.mp hr
    · have hpending : ∀ stage ∈ s.processes i, ¬ stage.Pending := by
        rw [hi]
        rintro _ ⟨⟩
        exact id
      have hcovered : Covered (s.goto i (some (.awaiting call now))) r := (h.covered r hr).goto hpending
      cases hcovered with
      | awaited hk hclient hanswer => exact .awaited hk hclient hanswer
      | storing hk hclient htoken => exact .storing hk hclient htoken
      | kept htoken hcached => exact .kept htoken hcached
      | lapsed hlapsed => exact .lapsed hlapsed
    · cases List.mem_singleton.mp hr
      exact .awaited (processes_goto_self _) rfl rfl
  · apply List.pairwise_append.mpr
    refine ⟨h.one.requested, List.pairwise_singleton .., ?_⟩
    intro r hr r' hr' hclient
    cases List.mem_singleton.mp hr'
    exact hlapsed r hr hclient
  · intro q hq r hr hclient token htoken
    obtain hr | hr := List.mem_append.mp hr
    · exact h.one.resolved q hq r hr hclient token htoken
    · cases List.mem_singleton.mp hr
      cases htoken

theorem Request.receive_of_none {answer : Except PyError DhanAccessToken} {r : Request} (h : r.answer = none) :
    r.receive answer = { r with answer := some answer } := if_pos (by simp [h])

theorem Request.receive_of_ne_none {answer : Except PyError DhanAccessToken} {r : Request} (h : r.answer ≠ none) :
    r.receive answer = r := if_neg (by simpa using h)

@[simp] theorem Request.clientId_receive (answer : Except PyError DhanAccessToken) (r : Request) :
    (r.receive answer).clientId = r.clientId := by
  unfold receive
  split_ifs <;> rfl

@[simp] theorem Request.requestedAt_receive (answer : Except PyError DhanAccessToken) (r : Request) :
    (r.receive answer).requestedAt = r.requestedAt := by
  unfold receive
  split_ifs <;> rfl

theorem Lapsed.answer_ne_none {r : Request} {now : Instant} (h : Lapsed r.token now) : r.answer ≠ none := by
  obtain ⟨token, htoken, -⟩ := h
  intro hanswer
  simp [Request.token, hanswer] at htoken

/-- Only the holder's own request is without an answer, while it awaits one. -/
theorem Sound.awaited_eq (h : Sound s) {call : Resolve} {now : Instant} (hi : s.processes i = some (.awaiting call now))
    {r : Request} (hr : r ∈ s.requests) (hanswer : r.answer = none) :
    r.clientId = call.clientId ∧ r.requestedAt = now := by
  have hholds := (h.standing i _ hi).holds trivial
  cases h.covered r hr with
  | awaited hk hclient _ =>
    cases hholds.unique ((h.standing _ _ hk).holds trivial)
    cases hi.symm.trans hk
    exact ⟨hclient.symm, rfl⟩
  | storing _ _ htoken => simp [Request.token, hanswer] at htoken
  | kept htoken _ => simp [Request.token, hanswer] at htoken
  | lapsed hlapsed => exact absurd hanswer hlapsed.answer_ne_none

/-- The holder's request is answered with a token that is not about to expire. -/
theorem Sound.answer (h : Sound s) {call : Resolve} {now : Instant} {token : DhanAccessToken}
    (hi : s.processes i = some (.awaiting call now)) (hfresh : s.now < token.expiresAt - margin) :
    Sound ({ s with requests := s.requests.map (Request.receive (.ok token)) }.goto i
      (some (.store call now token))) := by
  obtain ⟨hholds, hdue, hlapsed⟩ := h.standing i _ hi
  refine ⟨?_, ?_, h.resolved, ?_, ?_⟩
  · intro j stage hstage
    by_cases hj : j = i
    · subst hj
      rw [processes_goto_self] at hstage
      cases hstage
      refine ⟨hholds, ⟨hdue.past, hdue.row, hdue.resolved⟩, hdue.past.trans_lt hfresh, ?_⟩
      intro r' hr' hclient
      obtain ⟨r, hr, rfl⟩ := List.mem_map.mp hr'
      rw [Request.clientId_receive] at hclient
      by_cases hanswer : r.answer = none
      · rw [Request.receive_of_none hanswer]
        exact Or.inr rfl
      · rw [Request.receive_of_ne_none hanswer]
        exact Or.inl ((hlapsed r hr hclient).resolve_right hanswer)
    · rw [processes_goto_of_ne _ hj] at hstage
      exact (h.standing j stage hstage).outside (fun hheld => hj (hheld.unique hholds)) le_rfl fun _ _ => Or.inl
  · intro r' hr'
    obtain ⟨r, hr, rfl⟩ := List.mem_map.mp hr'
    by_cases hanswer : r.answer = none
    · obtain ⟨hclient, rfl⟩ := h.awaited_eq hi hr hanswer
      rw [Request.receive_of_none hanswer]
      exact .storing (processes_goto_self _) hclient.symm rfl
    · rw [Request.receive_of_ne_none hanswer]
      cases h.covered r hr with
      | awaited _ _ hnone => exact absurd hnone hanswer
      | storing hk _ _ =>
        cases hholds.unique ((h.standing _ _ hk).holds trivial)
        cases hi.symm.trans hk
      | kept htoken hcached => exact .kept htoken hcached
      | lapsed hlapsed => exact .lapsed hlapsed
  · apply List.pairwise_map.mpr
    refine h.one.requested.imp ?_
    intro r r' hrequested hclient
    simp only [Request.clientId_receive] at hclient
    have hlapsed := hrequested hclient
    rw [Request.requestedAt_receive, Request.receive_of_ne_none hlapsed.answer_ne_none]
    exact hlapsed
  · intro q hq r' hr' hclient t ht hle hlt
    obtain ⟨r, hr, rfl⟩ := List.mem_map.mp hr'
    rw [Request.clientId_receive] at hclient
    rw [Request.requestedAt_receive] at hle
    by_cases hanswer : r.answer = none
    · -- Nothing has been resolved since the request that is answered now.
      obtain ⟨hclient', rfl⟩ := h.awaited_eq hi hr hanswer
      exact absurd hle (not_le.mpr (hdue.resolved q hq (hclient.trans hclient')))
    · rw [Request.receive_of_ne_none hanswer] at ht
      exact h.one.resolved q hq r hr hclient t ht hle hlt

theorem cached_set (token : CachedToken) (c' : String) :
    { s with cache := s.cache.set c token }.cached c' = if c' = c then some token.token else s.cached c' := by
  simp only [Service.cached, Dict.get?_set]
  split_ifs <;> rfl

/-- The holder stores its token and resolves it. -/
theorem Sound.store (h : Sound s) {call : Resolve} {now : Instant} {token : DhanAccessToken}
    (hi : s.processes i = some (.store call now token)) :
    Sound (({ s with cache := s.cache.set call.clientId (CachedToken.mk token now) }.settle call now token.value).goto i
      (some (.unlock call (.ok token.value)))) := by
  obtain ⟨hholds, hdue, hfresh, hlapsed⟩ := h.standing i _ hi
  -- The row that is replaced has lapsed.
  have hrow : ∀ c, ∀ t ∈ s.cached c,
      { s with cache := s.cache.set call.clientId (CachedToken.mk token now) }.cached c = some t ∨
        t.expiresAt - margin ≤ s.now := by
    intro c t ht
    rw [cached_set]
    split_ifs with hc
    · subst hc
      exact Or.inr ((hdue.row t ht).trans hdue.past)
    · exact Or.inl ht
  refine ⟨?_, ?_, ?_, ⟨h.one.requested, ?_⟩⟩
  · intro j stage hstage
    by_cases hj : j = i
    · subst hj
      rw [processes_goto_self] at hstage
      cases hstage
      refine ⟨hholds, ?_⟩
      rintro _ ⟨⟩
      exact ⟨_, List.mem_append_right _ (List.mem_singleton_self _), rfl, rfl⟩
    · rw [processes_goto_of_ne _ hj] at hstage
      exact (h.standing j stage hstage).outside (fun hheld => hj (hheld.unique hholds)) le_rfl hrow
  · intro r hr
    cases h.covered r hr with
    | awaited hk _ _ =>
      cases hholds.unique ((h.standing _ _ hk).holds trivial)
      cases hi.symm.trans hk
    | storing hk hclient htoken =>
      cases hholds.unique ((h.standing _ _ hk).holds trivial)
      cases hi.symm.trans hk
      refine .kept htoken ?_
      rw [cached_goto, cached_settle, cached_set, if_pos hclient.symm]
    | kept htoken hcached =>
      obtain hsame | hle := hrow _ _ hcached
      · exact .kept htoken hsame
      · exact .lapsed ⟨_, htoken, hle⟩
    | lapsed hlapsed => exact .lapsed hlapsed
  · intro q hq
    obtain hq | hq := List.mem_append.mp hq
    · obtain ⟨expiry, hlt, hle | ⟨t, ht, hexpiry⟩⟩ := h.resolved q hq
      · exact ⟨expiry, hlt, Or.inl hle⟩
      · refine ⟨expiry, hlt, ?_⟩
        obtain hsame | hle := hrow _ t ht
        · exact Or.inr ⟨t, hsame, hexpiry⟩
        · exact Or.inl (hexpiry ▸ hle)
    · cases List.mem_singleton.mp hq
      refine ⟨token.expiresAt, hfresh, Or.inr ⟨token, ?_, rfl⟩⟩
      rw [cached_goto, cached_settle, cached_set, if_pos rfl]
      rfl
  · intro q hq r hr hclient t ht hle hlt
    obtain hq | hq := List.mem_append.mp hq
    · exact h.one.resolved q hq r hr hclient t ht hle hlt
    cases List.mem_singleton.mp hq
    obtain ⟨t', ht', hle'⟩ | htoken := hlapsed r hr hclient.symm
    · cases ht'.symm.trans ht
      exact absurd hlt (not_lt.mpr hle')
    · cases htoken.symm.trans ht
      rfl

/-- The holder gives the lock back. -/
theorem Sound.unlock (h : Sound s) {call : Resolve} {result : Except PyError String}
    (hi : s.processes i = some (.unlock call result)) :
    Sound ({ s with locks := s.locks.release i }.goto i none) where
  standing j stage hstage := by
    by_cases hj : j = i
    · subst hj
      rw [processes_goto_self] at hstage
      cases hstage
    · rw [processes_goto_of_ne _ hj] at hstage
      exact (h.standing j stage hstage).frame (Locks.release_of_ne hj).mpr le_rfl rfl rfl (fun _ => id) fun _ => Or.inl
  covered r hr := by
    have hpending : ∀ stage ∈ s.processes i, ¬ stage.Pending := by
      rw [hi]
      rintro _ ⟨⟩
      exact id
    have hcovered : Covered (s.goto i none) r := (h.covered r hr).goto hpending
    cases hcovered with
    | awaited hk hclient hanswer => exact .awaited hk hclient hanswer
    | storing hk hclient htoken => exact .storing hk hclient htoken
    | kept htoken hcached => exact .kept htoken hcached
    | lapsed hlapsed => exact .lapsed hlapsed
  resolved := h.resolved
  one := ⟨h.one.requested, h.one.resolved⟩

theorem Resolve.begin_inr {call : Resolve} {stage : Stage} (h : call.begin = .ok (.inr stage)) : stage = .probe call := by
  unfold begin at h
  split at h
  · split_ifs at h
    cases h
  · cases h
  · split_ifs at h
    cases h
    rfl

theorem Sound.step (h : Sound s) {input : Input} (hinput : Generous reader s input) :
    Sound ((tokens reader totp).step s input).1 := by
  cases input with
  | tick duration => exact h.tick duration
  | resolve i call =>
    simp only [tokens]
    cases hi : s.processes i with
    | some stage => exact h
    | none =>
      rcases hbegin : call.begin with e | value | stage
      · exact h
      · exact h
      · apply h.goto
        · simp [hi]
        · rintro _ ⟨⟩
          rw [call.begin_inr hbegin]
          trivial
  | advance i payload =>
    simp only [tokens]
    cases hi : s.processes i with
    | none => exact h
    | some stage =>
      have hstanding := h.standing i stage hi
      have hpending : ¬ stage.Pending → ∀ stage ∈ s.processes i, ¬ stage.Pending := by
        rw [hi]
        rintro hstage _ ⟨⟩
        exact hstage
      cases stage with
      | probe call =>
        apply h.goto (hpending id)
        rintro _ ⟨⟩ token htoken
        exact Or.inl htoken
      | check call cached =>
        dsimp only
        cases hfresh : fresh cached s.now with
        | none =>
          apply h.goto (hpending id)
          rintro _ ⟨⟩
          trivial
        | some token =>
          obtain ⟨hcached, hlt⟩ := fresh_eq_some.mp hfresh
          have hrow := (hstanding token hcached).resolve_right (not_le.mpr hlt)
          apply (h.settle hrow hlt).goto (hpending id)
          rintro _ ⟨⟩
      | lock call =>
        dsimp only
        split_ifs with havailable
        · apply (h.take havailable).goto (hpending id)
          rintro _ ⟨⟩
          show s.locks.take [lockId] i lockId = some i
          exact Locks.take_of_mem (List.mem_singleton_self _)
        · exact h
      | locked call =>
        apply h.goto (hpending id)
        rintro _ ⟨⟩
        exact ⟨hstanding, rfl⟩
      | recheck call cached =>
        obtain ⟨hholds, rfl⟩ := hstanding
        dsimp only
        cases hfresh : fresh (s.cached call.clientId) s.now with
        | none =>
          have hrow : ∀ token ∈ s.cached call.clientId, token.expiresAt - margin ≤ s.now := by
            intro token htoken
            by_contra hlt
            cases hfresh.symm.trans (fresh_eq_some.mpr ⟨htoken, not_le.mp hlt⟩)
          apply h.goto (hpending id)
          rintro _ ⟨⟩
          refine ⟨hholds, ⟨le_rfl, hrow, ?_⟩, fun r hr => h.lapsed_of_due hholds hi id hrow hr⟩
          rintro q hq hclient
          obtain ⟨expiry, hlt, hle | ⟨token, htoken, rfl⟩⟩ := h.resolved q hq
          · exact hlt.trans_le hle
          · exact hlt.trans_le (hrow token (hclient ▸ htoken))
        | some token =>
          obtain ⟨hrow, hlt⟩ := fresh_eq_some.mp hfresh
          apply (h.settle hrow hlt).goto (hpending id)
          rintro _ ⟨⟩
          refine ⟨hholds, ?_⟩
          rintro _ ⟨⟩
          exact ⟨_, List.mem_append_right _ (List.mem_singleton_self _), rfl, rfl⟩
      | request call now =>
        dsimp only
        cases call.credentials totp now with
        | ok credentials => exact h.request _ _ hi
        | error e =>
          apply h.goto (hpending id)
          rintro _ ⟨⟩
          refine ⟨hstanding.1, ?_⟩
          rintro _ ⟨⟩
      | awaiting call now =>
        simp only [Generous, hi] at hinput
        cases hparse : parse reader payload with
        | error e => simp [hparse, Except.toOption] at hinput
        | ok token =>
          simp only [hparse, Except.toOption, Option.mem_some_iff, exists_eq_left'] at hinput
          exact h.answer hi (lt_sub_iff_add_lt.mpr hinput)
      | store call now token => exact h.store hi
      | unlock call result => exact h.unlock hi

/-! ### Runs -/

/-- Before anything is resolved, whatever the table has. -/
theorem sound_start (now : Instant) (cache : Dict String CachedToken) : Sound { now := now, cache := cache } where
  standing := by rintro i stage ⟨⟩
  covered := by rintro r ⟨⟩
  resolved := by rintro q ⟨⟩
  one := ⟨.nil, by rintro q ⟨⟩⟩

/-- The client whose token a process resolves. -/
def Stage.client : Stage → String
  | .probe call | .check call _ | .lock call | .locked call | .recheck call _ | .request call _ | .awaiting call _
  | .store call _ _ | .unlock call _ => call.clientId

/-- What a process returns from the database is a token that was resolved for its client. -/
def Returns (reader : Reader) (totp : String → Instant → Except PyError String) (s : Service) : Input → Prop
  | .advance i payload => ∀ value, ((tokens reader totp).step s (.advance i payload)).2 = some (.ok value) →
      ∃ stage ∈ s.processes i, ∃ q ∈ ((tokens reader totp).step s (.advance i payload)).1.resolutions,
        q.clientId = stage.client ∧ q.value = value
  | _ => True

theorem Sound.returns (h : Sound s) (input : Input) : Returns reader totp s input := by
  cases input with
  | tick => trivial
  | resolve => trivial
  | advance i payload =>
    intro value hvalue
    simp only [tokens] at hvalue ⊢
    cases hi : s.processes i with
    | none => simp [hi] at hvalue
    | some stage =>
      refine ⟨stage, rfl, ?_⟩
      simp only [hi] at hvalue ⊢
      cases stage with
      | check call cached =>
        dsimp only at hvalue ⊢
        cases hfresh : fresh cached s.now with
        | none => simp [hfresh] at hvalue
        | some token =>
          simp only [hfresh, Option.some.injEq, Except.ok.injEq] at hvalue
          exact ⟨_, List.mem_append_right _ (List.mem_singleton_self _), rfl, hvalue⟩
      | unlock call result =>
        simp only [Option.some.injEq] at hvalue
        exact (h.standing i _ hi).2 value hvalue
      | probe | locked | store => cases hvalue
      | lock call =>
        dsimp only at hvalue
        split_ifs at hvalue
      | recheck call cached =>
        dsimp only at hvalue
        cases hfresh : fresh cached s.now <;> simp [hfresh] at hvalue
      | request call now =>
        dsimp only at hvalue
        cases hcredentials : call.credentials totp now <;> simp [hcredentials] at hvalue
      | awaiting call now =>
        dsimp only at hvalue
        cases hparse : parse reader payload <;> simp [hparse] at hvalue

/-- **One token at a time**: with whatever token in the table and in any order of the processes' steps, a client's token
is requested only once the one before has lapsed, what is resolved from a request until its token lapses is that token,
and what a process returns it has resolved. -/
theorem one_token_at_a_time (reader : Reader) (totp : String → Instant → Except PyError String) (now : Instant)
    (cache : Dict String CachedToken) (inputs : List Input)
    (hinputs : (tokens reader totp).Along (Generous reader) { now := now, cache := cache } inputs) :
    OneToken ((tokens reader totp).exec { now := now, cache := cache } inputs) ∧
      (tokens reader totp).Along (Returns reader totp) { now := now, cache := cache } inputs := by
  constructor
  · apply Sound.one
    exact Machine.exec_invariant_along (fun _ _ hs hinput => hs.step hinput) (sound_start now cache) hinputs
  · exact Machine.along_of_invariant (fun _ _ hs hinput => ⟨hs.returns _, hs.step hinput⟩) (sound_start now cache) hinputs

namespace Sample

/-- A process with the files of its secrets. -/
def call : Resolve where
  clientId := "1000"
  environment := { secrets := some (.ok ("123456", "JBSWY3DP")) }

/-- A token for a day. -/
def payload : Json := .obj [("accessToken", .str "alpha"), ("expiryTime", .str "1970-01-02T00:00:00Z")]

/-- Two processes start at once: both find no token, and the second one waits for the lock. -/
def starts : List Input :=
  ([.resolve 0 call, .resolve 1 call] : List Input) ++ [0, 1, 0, 1, 0, 1, 0, 0, 0].map (Input.advance · payload) ++
    ([.tick 1500000] : List Input) ++ [0, 1, 0, 0, 1, 1, 1, 1].map (Input.advance · payload)

end Sample

/-- Two processes that start at once make one request and return one token. -/
theorem one_token_at_start :
    OneToken ((tokens .plain fun _ _ => .ok "000000").exec { now := 0 } Sample.starts) ∧
      ((tokens .plain fun _ _ => .ok "000000").exec { now := 0 } Sample.starts).requests.length = 1 ∧
      ((tokens .plain fun _ _ => .ok "000000").outputs { now := 0 } Sample.starts).reduceOption.map Except.toOption =
        [some "alpha", some "alpha"] := by
  refine ⟨(one_token_at_a_time .plain _ 0 .empty Sample.starts ?_).1, ?_, ?_⟩
  · decide +kernel
  · decide +kernel
  · decide +kernel

end NanoDelta.Providers.DhanAuth
