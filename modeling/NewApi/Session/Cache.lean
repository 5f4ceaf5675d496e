import NewApi.Session.Row

/-!
# The cached entry of a login session

What `writeUserSessionCache` does around its script, and the script itself. The clock is
in milliseconds, as the expiries of the cache are; the times of a session are in seconds.

* *Active entries.*  They carry a deadline that was read before the row was, and end at
  the deadline or with the session, whichever is first.
* *Denials.*  They end a time to live after the script has run, and no active entry
  replaces one.
-/

namespace NewApi.Session

/-- The settings the session code reads, and the keyed hashes of the refresh secrets. -/
structure Config where
  sid : String
  /-- `userCacheTTLSeconds`. -/
  cacheTTL : Int
  /-- `UserSessionIdleTimeoutSeconds`. -/
  idleTimeout : Int
  hashRefreshSecret : String → String
  deriveNextRefreshSecret : String → String → String

/-- The errors of the session model. -/
inductive Err
  | invalid | inactive | refreshInvalid | refreshRace | refreshReuse | observationStale
deriving DecidableEq

variable (session : UserSession)

/-- `cacheEntry`: the digests stay in the row. -/
def cacheEntry : UserSession :=
  { session with refreshHash := "", previousRefreshHash := "", previousValidUntil := 0 }

/-- The entry `writeUserSessionDenyFence` writes. -/
def denyEntry (status : UserSessionStatus) (now : Int) (reason : String) : UserSession :=
  { cacheEntry session with status := status, revokedAt := now, revokedReason := reason }

/-- The session with the columns of a revocation. -/
def revokedWith (now : Int) (reason : String) : UserSession :=
  { session with status := .revoked, revokedAt := now, revokedReason := reason }

/-- `RefreshReplayWindow`, in seconds. -/
def refreshReplayWindow : Int := 30

def unix (clock : Int) : Int := clock / 1000

/-- `userSessionCacheDeadline`. -/
def cacheDeadline (cfg : Config) (clock : Int) : Int := clock + cfg.cacheTTL * 1000

/-- The end of a session on the clock of the cache. -/
def sessionEnd : Int := session.expiresAt * 1000

/-- `writeUserSessionCache` up to its script: the expiration it passes, which is a time for
an active entry and a duration for a denial. -/
def cacheExpiration (cfg : Config) (clock : Int) (entry : UserSession)
    (deadline : Option Int) : Except Err Int :=
  let sessionTTL := sessionEnd entry - clock
  if entry.status = .active then
    match deadline with
    | none => .error .invalid
    | some deadline =>
      if deadline - clock ≤ 0 then .error .observationStale
      else if sessionTTL ≤ 0 then .error .inactive
      else if min deadline (sessionEnd entry) - clock < 1 then .error .observationStale
      else .ok (min deadline (sessionEnd entry))
  else
    let ttl := min sessionTTL (cfg.cacheTTL * 1000)
    .ok (if ttl ≤ 0 then 1000 else ttl)

/-- `writeUserSessionCache` after its script: the checks on an active entry. -/
def writeCompleted (clock : Int) (entry : UserSession) (deadline : Option Int) : Option Err :=
  if entry.status = .active then
    if deadline.any (· ≤ clock) then some .observationStale
    else if sessionEnd entry ≤ clock then some .inactive
    else none
  else none

/-- The hash in the cache and the time it expires at. -/
structure Cached where
  entry : UserSession
  expireAt : Int
deriving DecidableEq

def lookup (cache : Option Cached) (clock : Int) : Option UserSession :=
  match cache with
  | some c => if clock ≤ c.expireAt then some c.entry else none
  | none => none

/-- The script of `writeUserSessionCache`, or none if it returns zero. An expiry that is
not in the future removes the key at once. -/
def cacheScript (cache : Option Cached) (clock : Int) (entry : UserSession)
    (expiration : Int) : Option (Option Cached) :=
  let current := lookup cache clock
  if entry.status = .active ∧ current.any (fun c => c.status ≠ .active) then none
  else if entry.version < (current.map (·.version)).getD 0 then none
  else if entry.status = .active then
    some (if expiration ≤ clock then none else some ⟨entry, expiration⟩)
  else some (some ⟨entry, clock + expiration⟩)

/-- The numbers of an entry are those of a session. -/
def wellFormed (entry : UserSession) : Bool :=
  0 < entry.userID && 0 < entry.version && 0 < entry.userAuthVersion

/-- A presented digest is the current one, or the previous one in its grace window. -/
def presents (presentedHash : String) (now : Int) : Bool :=
  session.refreshHash = presentedHash ||
    (session.previousRefreshHash ≠ "" && now ≤ session.previousValidUntil &&
      session.previousRefreshHash = presentedHash)

/-! ## Which expirations the script gets -/

variable {clock e : Int} {entry : UserSession} {cache : Option Cached} {cfg : Config}
  {deadline : Option Int}

theorem lookup_some (h : lookup cache clock = some entry) :
    ∃ c, cache = some c ∧ c.entry = entry ∧ clock ≤ c.expireAt := by
  cases cache with
  | none => cases h
  | some c =>
    simp only [lookup] at h
    split at h
    · cases h
      exact ⟨c, rfl, rfl, ‹_›⟩
    · cases h

theorem cacheExpiration_active
    (hactive : entry.status = .active) (h : cacheExpiration cfg clock entry deadline = .ok e) :
    ∃ d, deadline = some d ∧ e ≤ d ∧ e ≤ sessionEnd entry := by
  cases deadline with
  | none => simp [cacheExpiration, hactive] at h
  | some d =>
    simp only [cacheExpiration, hactive, if_true] at h
    split at h
    · cases h
    split at h
    · cases h
    split at h
    · cases h
    · cases h
      exact ⟨d, rfl, Int.min_le_left _ _, Int.min_le_right _ _⟩

/-- A denial lasts the whole time to live of the cache, or until its session ends. -/
theorem cacheExpiration_denial
    (hdeny : entry.status ≠ .active) (h : cacheExpiration cfg clock entry deadline = .ok e) :
    (sessionEnd entry - clock ≤ e ∨ cfg.cacheTTL * 1000 ≤ e) ∧
      (clock + cfg.cacheTTL * 1000 ≤ sessionEnd entry → cfg.cacheTTL * 1000 ≤ e) := by
  simp only [cacheExpiration, hdeny, if_false, Except.ok.injEq] at h
  split at h <;> omega

theorem cacheScript_some {result : Option Cached}
    (h : cacheScript cache clock entry e = some result) :
    (entry.status = .active ∧ (∀ c, lookup cache clock = some c → c.status = .active) ∧
        result = if e ≤ clock then none else some ⟨entry, e⟩) ∨
      (entry.status ≠ .active ∧ result = some ⟨entry, clock + e⟩) := by
  simp only [cacheScript] at h
  split at h
  · cases h
  next hfree =>
  split at h
  · cases h
  split at h
  next hactive =>
    refine .inl ⟨hactive, fun c hc => ?_, (Option.some.inj h).symm⟩
    simpa [hactive, hc] using hfree
  next hdeny => exact .inr ⟨hdeny, (Option.some.inj h).symm⟩

theorem cacheScript_denial (hdeny : entry.status ≠ .active)
    (hversion : ((lookup cache clock).map (·.version)).getD 0 ≤ entry.version) :
    cacheScript cache clock entry e = some (some ⟨entry, clock + e⟩) := by
  simp only [cacheScript, hdeny, false_and, if_false]
  rw [if_neg (by omega)]

end NewApi.Session
