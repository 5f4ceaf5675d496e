import NewApi.Session.Cache

/-!
# The calls on one login session

Each call takes one step at a time: a reading of the clock, one statement on the row, one script.
A transaction that only reads the row under its lock and updates it is one step.
`RevokeUserSessionByRefreshHash` writes to the cache inside its transaction, so it holds the row
while it does. Every call writes the cache with the same three steps, and `AfterWrite` says how
it goes on from the result.
-/

namespace NewApi.Session

/-! ## Calls -/

/-- Who has called a function of the model: a client of its own, or `RefreshLoginSession`
for the secret it was presented. -/
inductive Caller
  | direct
  | refresh (secret : String)
deriving DecidableEq

/-- The arguments of `RotateUserSessionRefresh`. -/
structure Rotation where
  caller : Caller
  (presentedHash nextHash : String)
  (now expiresAt graceSeconds : Int)
deriving DecidableEq

/-- A revocation: who asked for it, the time it has read and its reason. -/
structure Revocation where
  caller : Caller
  now : Int
  reason : String
deriving DecidableEq

/-- The versions `AdvanceUserSessionAuthVersion` expects and sets. -/
structure Versions where
  (session user next : Int)
deriving DecidableEq

/-- The errors of `RefreshLoginSession`. -/
inductive RefreshErr
  | tokenInvalid | sessionRevoked | race
  | model (err : Err)
deriving DecidableEq

/-- What a call has returned. -/
inductive Result
  | session (session : UserSession)
  | rotated (session : UserSession)
  | touched
  | advanced (session : UserSession)
  | revoked (revoked : Bool)
  | revokedAll (total : Nat)
  | failed (err : Err)
  /-- The bundle of `RefreshLoginSession`, with the secret of its refresh token. -/
  | refreshed (secret : String)
  | refreshFailed (err : RefreshErr)
deriving DecidableEq

/-- Which call fills the cache with an active entry. -/
inductive Fill
  | get (caller : Caller)
  | rotate (rotation : Rotation)
  | touch
  | advance
deriving DecidableEq

/-- How a call goes on after it has written the cache. -/
inductive AfterWrite
  | fill (fill : Fill) (session : UserSession)
  | denied (caller : Caller)
  | reuseFence (rotation : Rotation) (session : UserSession)
  | reuseTombstone (rotation : Rotation)
  | revokeFence (revocation : Revocation) (candidate : UserSession)
  | hashFence (revocation : Revocation) (session : UserSession)
  | tombstone (revocation : Revocation)
  | bulkFence (revocation : Revocation) (total : Nat)
  | bulkTombstone (revocation : Revocation) (total : Nat)
deriving DecidableEq

/-- The steps of `writeUserSessionCache`. -/
inductive Write
  | prepare
  /-- The script is on its way, with the expiration computed at a time. -/
  | script (prepared expiration : Int)
  | complete
deriving DecidableEq

/-- What a call does next. -/
inductive Stage
  | readCache (caller : Caller)
  | judgeCached (caller : Caller) (entry : UserSession)
  | missed (caller : Caller)
  | readSession (caller : Caller) (deadline : Int)
  | judgeSession (caller : Caller) (deadline : Int) (session : UserSession)
  | write (write : Write) (entry : UserSession) (deadline : Option Int) (next : AfterWrite)
  | confirm (fill : Fill) (session : UserSession)
  | readUserCache (secret : String) (session : UserSession)
  | readUser (secret : String) (session : UserSession) (cachedFits : Bool)
  | derive (secret : String)
  | rotateTry (rotation : Rotation) (tries : Nat)
  | rotateRead (rotation : Rotation) (tries : Nat) (deadline : Int)
  | rotateWrite (rotation : Rotation) (tries : Nat) (session : UserSession) (deadline : Int)
  | reuseWrite (rotation : Rotation) (session : UserSession)
  | touch (presentedHash : String) (now expiresAt : Int)
  | touchRead (presentedHash : String) (now expiresAt deadline : Int)
  | touchWrite (now expiresAt : Int) (session : UserSession) (deadline : Int)
  | advance (versions : Versions)
  | advanceNow (versions : Versions) (deadline : Int)
  | advanceWrite (versions : Versions) (deadline now : Int)
  | revoke (caller : Caller) (reason : String)
  | revokeRead (revocation : Revocation)
  | revokeWrite (revocation : Revocation) (candidate : UserSession)
  | revokeByHash (presentedHash reason : String)
  | hashLock (presentedHash : String) (revocation : Revocation)
  | hashWrite (revocation : Revocation) (session : UserSession)
  | hashRollback (err : Err)
  | revokeAll (reason : String)
  | bulkRead (revocation : Revocation) (total : Nat)
  | bulkWrite (revocation : Revocation) (total : Nat)
  | returned (result : Result)
deriving DecidableEq

/-- A call in flight. -/
structure Call where
  id : Nat
  stage : Stage
deriving DecidableEq

/-- The status and the version of a user, as `RefreshLoginSession` compares them. -/
structure UserVersion where
  (status authVersion : Int)
deriving DecidableEq

def UserVersion.fits (user : UserVersion) (session : UserSession) : Bool :=
  user.status = userStatusEnabled && user.authVersion = session.userAuthVersion

/-- The session, its cached entry and the calls in flight. `longest` is the largest
`expires_at` the row has had and `revokedTime` when the row became revoked; no code reads
either. -/
structure System where
  clock : Int
  row : UserSession
  cache : Option Cached
  locked : Option Nat
  cachedUser : UserVersion
  user : UserVersion
  calls : Table Call.id
  longest : Int
  revokedTime : Option Int

/-! ## How a function hands its result to its caller -/

/-- `GetUserSessionCached` returns. -/
def getReturned (result : Except Err UserSession) : Caller → Stage
  | .direct =>
    match result with
    | .ok session => .returned (.session session)
    | .error e => .returned (.failed e)
  | .refresh secret =>
    match result with
    | .ok session => .readUserCache secret session
    | .error .inactive => .returned (.refreshFailed .sessionRevoked)
    | .error _ => .returned (.refreshFailed .tokenInvalid)

variable (cfg : Config)

/-- `RotateUserSessionRefresh` returns a rotated session. -/
def rotateReturned (session : UserSession) : Caller → Stage
  | .direct => .returned (.rotated session)
  | .refresh secret =>
    .returned (.refreshed (cfg.deriveNextRefreshSecret cfg.sid secret))

/-- `RotateUserSessionRefresh` returns `ErrUserSessionRefreshRace` with the session. -/
def rotateRaced (session : UserSession) : Caller → Stage
  | .direct => .returned (.failed .refreshRace)
  | .refresh secret =>
    let nextSecret := cfg.deriveNextRefreshSecret cfg.sid secret
    if cfg.hashRefreshSecret nextSecret = session.refreshHash then
      .returned (.refreshed nextSecret)
    else .returned (.refreshFailed .race)

/-- `RotateUserSessionRefresh` returns another error. -/
def rotateFailed (e : Err) : Caller → Stage
  | .direct => .returned (.failed e)
  | .refresh _ =>
    match e with
    | .refreshReuse => .returned (.refreshFailed .sessionRevoked)
    | .refreshInvalid => .returned (.refreshFailed .tokenInvalid)
    | e => .returned (.refreshFailed (.model e))

/-- `RevokeUserSession` returns; `RefreshLoginSession` does not look at the result. -/
def revokeReturned (result : Except Err Bool) : Caller → Stage
  | .direct =>
    match result with
    | .ok revoked => .returned (.revoked revoked)
    | .error e => .returned (.failed e)
  | .refresh _ => .returned (.refreshFailed .sessionRevoked)

/-- The call that fills the cache returns its session. -/
def fillReturned (session : UserSession) : Fill → Stage
  | .get caller => getReturned (.ok session) caller
  | .rotate rotation => rotateReturned cfg session rotation.caller
  | .touch => .returned .touched
  | .advance => .returned (.advanced session)

/-- The call that fills the cache returns an error. -/
def fillFailed (e : Err) : Fill → Stage
  | .get caller => getReturned (.error e) caller
  | .rotate rotation => rotateFailed e rotation.caller
  | .touch => .returned (.failed e)
  | .advance => .returned (.failed e)

/-- What the call that fills the cache makes of an error of the write: a touch returns it,
the others ask the database when the observation was stale, and the fills of a reader and
of a rotation are not needed for their result. -/
def fillError (session : UserSession) (e : Err) (fill : Fill) : Stage :=
  match fill, e with
  | .touch, e => fillFailed e .touch
  | fill, .observationStale => .confirm fill session
  | fill, .inactive => fillFailed .inactive fill
  | .advance, e => fillFailed e .advance
  | fill, _ => fillReturned cfg session fill

def Stage.writing (entry : UserSession) (deadline : Option Int) (next : AfterWrite) : Stage :=
  .write .prepare entry deadline next

/-- How a call goes on from the result of its write. -/
def AfterWrite.resume (result : Option Err) : AfterWrite → Stage
  | .fill f session =>
    match result with
    | none => fillReturned cfg session f
    | some e => fillError cfg session e f
  | .denied caller => getReturned (.error .inactive) caller
  | .reuseFence rotation session =>
    match result with
    | none => .reuseWrite rotation session
    | some e => rotateFailed e rotation.caller
  | .reuseTombstone rotation => rotateFailed .refreshReuse rotation.caller
  | .revokeFence revocation candidate =>
    match result with
    | none => .revokeWrite revocation candidate
    | some e => revokeReturned (.error e) revocation.caller
  | .hashFence revocation session =>
    match result with
    | none => .hashWrite revocation session
    | some e => .hashRollback e
  | .tombstone revocation => revokeReturned (.ok true) revocation.caller
  | .bulkFence revocation total =>
    match result with
    | none => .bulkWrite revocation total
    | some e => .returned (.failed e)
  | .bulkTombstone revocation total => .bulkRead revocation total

/-- The write is the tombstone of a call that has revoked the row. -/
def AfterWrite.final : AfterWrite → Bool
  | .reuseTombstone _ | .tombstone _ | .bulkTombstone _ _ => true
  | _ => false

/-! ## Steps -/

namespace System

variable (s : System)

def goto (id : Nat) (stage : Stage) : System := { s with calls := s.calls.save ⟨id, stage⟩ }

/-- The row is held by another call's transaction. -/
def blocked (id : Nat) : Bool := s.locked.any (· ≠ id)

def updateRow (row : UserSession) : System :=
  { s with row := row, longest := max s.longest row.expiresAt }

def revokeRow (now : Int) (reason : String) : System :=
  { s with row := revokedWith s.row now reason, revokedTime := some s.clock }

/-- The next step of `writeUserSessionCache`. -/
def advanceWrite (cfg : Config) (s : System) (id : Nat) (entry : UserSession)
    (deadline : Option Int) (next : AfterWrite) : Write → System
  | .prepare =>
    match cacheExpiration cfg s.clock entry deadline with
    | .error e => s.goto id (next.resume cfg (some e))
    | .ok expiration => s.goto id (.write (.script s.clock expiration) entry deadline next)
  | .script _ expiration =>
    match cacheScript s.cache s.clock entry expiration with
    | none => s.goto id (next.resume cfg (some .inactive))
    | some cache => { s with cache := cache }.goto id (.write .complete entry deadline next)
  | .complete => s.goto id (next.resume cfg (writeCompleted s.clock entry deadline))

def rotatedRow (row session : UserSession) (r : Rotation) : UserSession :=
  { row with
    previousRefreshHash := session.refreshHash
    previousValidUntil := r.now + r.graceSeconds
    refreshHash := r.nextHash
    lastActiveAt := r.now
    expiresAt := r.expiresAt }

def advance (cfg : Config) (s : System) (id : Nat) : Stage → System
  | .readCache caller =>
    match lookup s.cache s.clock with
    | some entry => s.goto id (.judgeCached caller entry)
    | none => s.goto id (.missed caller)
  | .judgeCached caller entry =>
    if entry.sid ≠ cfg.sid ∨ !wellFormed entry then s.goto id (.missed caller)
    else if entry.live (unix s.clock) then s.goto id (getReturned (.ok entry) caller)
    else s.goto id (getReturned (.error .inactive) caller)
  | .missed caller => s.goto id (.readSession caller (cacheDeadline cfg s.clock))
  | .readSession caller deadline => s.goto id (.judgeSession caller deadline s.row)
  | .judgeSession caller deadline session =>
    if session.live (unix s.clock) then
      s.goto id (.writing (cacheEntry session) (some deadline) (.fill (.get caller) session))
    else
      s.goto id (.writing { cacheEntry session with status := .revoked } none (.denied caller))
  | .write w entry deadline next => advanceWrite cfg s id entry deadline next w
  | .confirm fill session =>
    if !wellFormed session then s.goto id (fillFailed .invalid fill)
    else if s.row.live (unix s.clock) && s.row.version = session.version &&
        s.row.userAuthVersion = session.userAuthVersion then
      s.goto id (fillReturned cfg session fill)
    else s.goto id (fillFailed .inactive fill)
  | .readUserCache secret session =>
    if session.live (unix s.clock) then
      s.goto id (.readUser secret session (s.cachedUser.fits session))
    else s.goto id (.returned (.refreshFailed .sessionRevoked))
  | .readUser secret session cachedFits =>
    if cachedFits && s.user.fits session then s.goto id (.derive secret)
    else s.goto id (.revoke (.refresh secret) "user_security_changed")
  | .derive secret =>
    let now := unix s.clock
    let presentedHash := cfg.hashRefreshSecret secret
    let nextHash := cfg.hashRefreshSecret (cfg.deriveNextRefreshSecret cfg.sid secret)
    if presentedHash = "" ∨ nextHash = "" ∨ now + cfg.idleTimeout ≤ now ∨
        presentedHash = nextHash then
      s.goto id (rotateFailed .invalid (.refresh secret))
    else
      s.goto id (.rotateTry
        ⟨.refresh secret, presentedHash, nextHash, now, now + cfg.idleTimeout,
          refreshReplayWindow⟩ 3)
  | .rotateTry r tries =>
    match tries with
    | 0 => s.goto id (rotateFailed .refreshInvalid r.caller)
    | tries + 1 => s.goto id (.rotateRead r tries (cacheDeadline cfg s.clock))
  | .rotateRead r tries deadline =>
    let session := s.row
    if !session.live r.now then s.goto id (rotateFailed .inactive r.caller)
    else if session.refreshHash = r.presentedHash then
      s.goto id (.rotateWrite r tries session deadline)
    else if session.previousRefreshHash = "" ∨ session.previousRefreshHash ≠ r.presentedHash then
      s.goto id (rotateFailed .refreshInvalid r.caller)
    else if r.now ≤ session.previousValidUntil then s.goto id (rotateRaced cfg session r.caller)
    else
      s.goto id (.writing (denyEntry session .revoking r.now "refresh_reuse") none
        (.reuseFence r session))
  | .rotateWrite r tries session deadline =>
    if s.blocked id then s
    else if s.row.live r.now && s.row.refreshHash = r.presentedHash then
      (s.updateRow (rotatedRow s.row session r)).goto id
        (.writing (cacheEntry (rotatedRow session session r)) (some deadline)
          (.fill (.rotate r) (rotatedRow session session r)))
    else s.goto id (.rotateTry r tries)
  | .reuseWrite r session =>
    if s.blocked id then s
    else if s.row.live r.now then
      (s.revokeRow r.now "refresh_reuse").goto id
        (.writing (cacheEntry (revokedWith session r.now "refresh_reuse")) none
          (.reuseTombstone r))
    else s.goto id (rotateFailed .inactive r.caller)
  | .touch presentedHash now expiresAt =>
    s.goto id (.touchRead presentedHash now expiresAt (cacheDeadline cfg s.clock))
  | .touchRead presentedHash now expiresAt deadline =>
    if !s.row.live now then s.goto id (.returned (.failed .inactive))
    else if !presents s.row presentedHash now then s.goto id (.returned (.failed .refreshInvalid))
    else s.goto id (.touchWrite now expiresAt s.row deadline)
  | .touchWrite now expiresAt session deadline =>
    if s.blocked id then s
    else if s.row.live now then
      (s.updateRow { s.row with lastActiveAt := now, expiresAt := expiresAt }).goto id
        (.writing (cacheEntry { session with lastActiveAt := now, expiresAt := expiresAt })
          (some deadline)
          (.fill .touch { session with lastActiveAt := now, expiresAt := expiresAt }))
    else s.goto id (.returned (.failed .inactive))
  | .advance versions => s.goto id (.advanceNow versions (cacheDeadline cfg s.clock))
  | .advanceNow versions deadline => s.goto id (.advanceWrite versions deadline (unix s.clock))
  | .advanceWrite versions deadline now =>
    if s.blocked id then s
    else if s.row.status = .active ∧ now < s.row.expiresAt ∧ s.row.version = versions.session ∧
        s.row.userAuthVersion = versions.user then
      let session := { s.row with
        version := s.row.version + 1, userAuthVersion := versions.next, lastActiveAt := now }
      (s.updateRow session).goto id
        (.writing (cacheEntry session) (some deadline) (.fill .advance session))
    else s.goto id (.returned (.failed .inactive))
  | .revoke caller reason => s.goto id (.revokeRead ⟨caller, unix s.clock, reason⟩)
  | .revokeRead r =>
    if s.row.live r.now then
      s.goto id (.writing (denyEntry s.row .revoking r.now r.reason) none (.revokeFence r s.row))
    else s.goto id (revokeReturned (.ok false) r.caller)
  | .revokeWrite r candidate =>
    if s.blocked id then s
    else if s.row.live r.now then
      (s.revokeRow r.now r.reason).goto id
        (.writing (cacheEntry (revokedWith candidate r.now r.reason)) none (.tombstone r))
    else s.goto id (revokeReturned (.ok false) r.caller)
  | .revokeByHash presentedHash reason =>
    s.goto id (.hashLock presentedHash ⟨.direct, unix s.clock, reason⟩)
  | .hashLock presentedHash r =>
    if s.blocked id then s
    else if s.row.live r.now && presents s.row presentedHash r.now then
      { s with locked := some id }.goto id
        (.writing (denyEntry s.row .revoking r.now r.reason) none (.hashFence r s.row))
    else s.goto id (revokeReturned (.ok false) r.caller)
  | .hashWrite r session =>
    if s.row.status = .active then
      { s.revokeRow r.now r.reason with locked := none }.goto id
        (.writing (cacheEntry (revokedWith session r.now r.reason)) none (.tombstone r))
    else { s with locked := none }.goto id (revokeReturned (.ok false) r.caller)
  | .hashRollback e => { s with locked := none }.goto id (.returned (.failed e))
  | .revokeAll reason => s.goto id (.bulkRead ⟨.direct, unix s.clock, reason⟩ 0)
  | .bulkRead r total =>
    if s.row.status = .active ∧ r.now < s.row.expiresAt then
      s.goto id (.writing (denyEntry s.row .revoking r.now r.reason) none (.bulkFence r total))
    else s.goto id (.returned (.revokedAll total))
  | .bulkWrite r total =>
    if s.blocked id then s
    else if s.row.status = .active then
      (s.revokeRow r.now r.reason).goto id
        (.writing (cacheEntry (revokedWith s.row r.now r.reason)) none
          (.bulkTombstone r (total + 1)))
    else s.goto id (.bulkRead r total)
  | .returned _ => s

end System

/-! ## Actions -/

/-- A call and its arguments. -/
inductive Job
  | getUserSessionCached
  | refreshLoginSession (secret : String)
  | rotateUserSessionRefresh (presentedHash nextHash : String) (now expiresAt graceSeconds : Int)
  | touchUserSessionPresence (presentedHash : String) (now expiresAt : Int)
  | advanceUserSessionAuthVersion (versions : Versions)
  | revokeUserSession (reason : String)
  | revokeUserSessionByRefreshHash (presentedHash reason : String)
  | revokeUserSessions (reason : String)
deriving DecidableEq

/-- The checks of a call on its arguments, and its first stage. -/
def Job.stage (clock : Int) : Job → Stage
  | .getUserSessionCached => .readCache .direct
  | .refreshLoginSession secret =>
    if secret = "" ∨ '.' ∈ secret.toList then .returned (.refreshFailed .tokenInvalid)
    else .readCache (.refresh secret)
  | .rotateUserSessionRefresh presentedHash nextHash now expiresAt graceSeconds =>
    if presentedHash = "" ∨ nextHash = "" ∨ expiresAt ≤ now ∨ presentedHash = nextHash ∨
        graceSeconds < 0 then
      .returned (.failed .invalid)
    else
      .rotateTry ⟨.direct, presentedHash, nextHash, if now ≤ 0 then unix clock else now,
        expiresAt, graceSeconds⟩ 3
  | .touchUserSessionPresence presentedHash now expiresAt =>
    if presentedHash = "" ∨ now ≤ 0 ∨ expiresAt ≤ now then .returned (.failed .invalid)
    else .touch presentedHash now expiresAt
  | .advanceUserSessionAuthVersion versions =>
    if versions.session ≤ 0 ∨ versions.user ≤ 0 ∨ versions.next ≤ versions.user then
      .returned (.failed .invalid)
    else .advance versions
  | .revokeUserSession reason => .revoke .direct reason
  | .revokeUserSessionByRefreshHash presentedHash reason =>
    if presentedHash = "" then .returned (.failed .invalid)
    else .revokeByHash presentedHash reason
  | .revokeUserSessions reason => .revokeAll reason

/-- What happens next. -/
inductive Action
  | call (id : Nat) (job : Job)
  | step (id : Nat)
  | tick (duration : Nat)
  | userChanges (cachedUser user : UserVersion)
deriving DecidableEq

def System.step (cfg : Config) (s : System) : Action → System
  | .call id job =>
    match s.calls.insert ⟨id, job.stage s.clock⟩ with
    | some calls => { s with calls := calls }
    | none => s
  | .step id =>
    match s.calls.find id with
    | some call => s.advance cfg id call.stage
    | none => s
  | .tick duration => { s with clock := s.clock + duration }
  | .userChanges cachedUser user => { s with cachedUser := cachedUser, user := user }

def System.result (s : System) (id : Nat) : Option Result :=
  match s.calls.find id with
  | some ⟨_, .returned result⟩ => some result
  | _ => none

/-! ## What a step leaves to the other calls -/

namespace System

variable {cfg : Config} {s : System} {id k : Nat}

theorem advanceWrite_calls (entry : UserSession) (deadline : Option Int) (next : AfterWrite)
    (w : Write) : ∃ stage, (s.advanceWrite cfg id entry deadline next w).calls =
      s.calls.save ⟨id, stage⟩ := by
  cases w with
  | complete => exact ⟨_, rfl⟩
  | prepare | script =>
    simp only [advanceWrite]
    split <;> exact ⟨_, rfl⟩

theorem advance_calls (stage : Stage) : (s.advance cfg id stage).calls = s.calls ∨
    ∃ stage', (s.advance cfg id stage).calls = s.calls.save ⟨id, stage'⟩ := by
  cases stage with
  | write w entry deadline next => exact .inr (advanceWrite_calls entry deadline next w)
  | returned => exact .inl rfl
  | _ =>
    simp only [advance]
    (repeat' split) <;> first | exact .inl rfl | exact .inr ⟨_, rfl⟩

theorem find_advance_of_ne (hne : id ≠ k) (stage : Stage) :
    (s.advance cfg id stage).calls.find k = s.calls.find k := by
  rcases @advance_calls cfg s id stage with h | ⟨stage', h⟩
  · rw [h]
  · rw [h, Table.find_save_of_ne hne]

theorem find_step {call : Call} (hfind : s.calls.find k = some call) (a : Action) :
    (s.step cfg a).calls.find k = some call ∨
      a = .step k ∧ s.step cfg a = s.advance cfg k call.stage := by
  cases a with simp only [step]
  | call id job =>
    split
    next calls hins => exact .inl (Table.find_after_insert hins hfind)
    · exact .inl hfind
  | step id =>
    split
    next other hother =>
      by_cases hid : id = k
      · subst hid
        rw [hfind] at hother
        cases hother
        exact .inr ⟨rfl, rfl⟩
      · exact .inl (by rw [find_advance_of_ne hid, hfind])
    · exact .inl hfind
  | tick | userChanges => exact .inl hfind

theorem result_step {result : Result} (h : s.result k = some result) (a : Action) :
    (s.step cfg a).result k = some result := by
  unfold System.result at h
  split at h
  next _ hfind =>
    cases h
    rcases @find_step cfg s k _ hfind a with hkept | ⟨-, hstep⟩
    · simp only [System.result, hkept]
    · rw [hstep]
      simp only [advance, System.result, hfind]
  · cases h

theorem advanceWrite_row (entry : UserSession) (deadline : Option Int) (next : AfterWrite)
    (w : Write) : (s.advanceWrite cfg id entry deadline next w).row = s.row := by
  cases w with
  | complete => rfl
  | prepare | script =>
    simp only [advanceWrite]
    split <;> rfl

/-- What a step of a call can make of the row. -/
inductive RowChange (s : System) : Stage → UserSession → Prop
  | same {stage : Stage} : RowChange s stage s.row
  | rotated {r : Rotation} {tries : Nat} {session : UserSession} {d : Int}
      (live : s.row.live r.now = true) (current : s.row.refreshHash = r.presentedHash) :
      RowChange s (.rotateWrite r tries session d) (rotatedRow s.row session r)
  | touched {now e d : Int} {session : UserSession} (live : s.row.live now = true) :
      RowChange s (.touchWrite now e session d) { s.row with lastActiveAt := now, expiresAt := e }
  | advanced {versions : Versions} {d now : Int} (active : s.row.status = .active) :
      RowChange s (.advanceWrite versions d now) { s.row with
        version := s.row.version + 1, userAuthVersion := versions.next, lastActiveAt := now }
  | revoked {stage : Stage} {now : Int} {reason : String} (active : s.row.status = .active) :
      RowChange s stage (revokedWith s.row now reason)

theorem active_of_live {session : UserSession} {now : Int} (h : session.live now = true) :
    session.status = .active := by
  simp only [UserSession.live, Bool.and_eq_true, decide_eq_true_eq] at h
  exact h.1.1

variable (stage : Stage)

theorem advance_row : s.RowChange stage (s.advance cfg id stage).row := by
  cases stage with simp only [advance]
  | write w entry deadline next =>
    rw [advanceWrite_row entry deadline next w]
    exact .same
  | rotateWrite r tries session d =>
    split
    · exact .same
    split
    next h =>
      simp only [Bool.and_eq_true, decide_eq_true_eq] at h
      exact .rotated h.1 h.2
    · exact .same
  | touchWrite now e session d =>
    split
    · exact .same
    split
    next h => exact .touched h
    · exact .same
  | advanceWrite versions d now =>
    split
    · exact .same
    split
    next h => exact .advanced h.1
    · exact .same
  | reuseWrite | revokeWrite =>
    split
    · exact .same
    split
    next h => exact .revoked (active_of_live h)
    · exact .same
  | hashWrite =>
    split
    next h => exact .revoked h
    · exact .same
  | bulkWrite =>
    split
    · exact .same
    split
    next h => exact .revoked h
    · exact .same
  | returned => exact .same
  | _ => (repeat' split) <;> exact .same

theorem RowChange.of_inactive {stage : Stage} {row : UserSession} (hc : s.RowChange stage row)
    (h : s.row.status ≠ .active) : row = s.row := by
  cases hc with
  | same => rfl
  | rotated live | touched live => exact absurd (active_of_live live) h
  | advanced active | revoked active => exact absurd active h

theorem row_step_of_inactive (h : s.row.status ≠ .active) (a : Action) :
    (s.step cfg a).row = s.row := by
  cases a with
  | call id job =>
    simp only [step]
    split <;> rfl
  | step id =>
    simp only [step]
    split
    next call hfind => exact (advance_row call.stage).of_inactive h
    · rfl
  | tick | userChanges => rfl

theorem advance_clock : (s.advance cfg id stage).clock = s.clock := by
  cases stage with
  | write w entry d next =>
    cases w with
    | complete => rfl
    | prepare | script =>
      simp only [advance, advanceWrite]
      split <;> rfl
  | returned => rfl
  | _ =>
    simp only [advance]
    (repeat' split) <;> rfl

theorem clock_step (a : Action) : s.clock ≤ (s.step cfg a).clock := by
  cases a with simp only [step]
  | call id job =>
    split <;> exact le_rfl
  | step id =>
    split
    next call hfind => exact (advance_clock call.stage).ge
    · exact le_rfl
  | tick duration => exact Int.le_add_of_nonneg_right (Int.natCast_nonneg duration)
  | userChanges => exact le_rfl

theorem advance_cache : (s.advance cfg id stage).cache = s.cache ∨
    ∃ p e entry d next, stage = .write (.script p e) entry d next ∧
      cacheScript s.cache s.clock entry e = some (s.advance cfg id stage).cache := by
  cases stage with
  | write w entry d next =>
    cases w with simp only [advance, advanceWrite]
    | complete => exact .inl rfl
    | prepare =>
      split <;> exact .inl rfl
    | script p e =>
      split
      · exact .inl rfl
      next cache hcache => exact .inr ⟨p, e, entry, d, next, rfl, hcache⟩
  | returned => exact .inl rfl
  | _ =>
    simp only [advance]
    (repeat' split) <;> exact .inl rfl

end System

end NewApi.Session
