import NewApi.Session.Row

/-!
# The fence of the user cache

Three keys of Redis belong to a user: the hash with their record, the *pending* fence, which is
set before a restrictive transaction and may expire, and the *committed* version, which is never
lowered. A script that writes the hash is refused below any of the three (`clears`), and a reader
that finds less than the higher of the two fences goes to the database, or gives up.

A restrictive operation locks the row, sets the fence, writes the next version, commits or rolls
back, and publishes, one statement or script at a time. A command that Redis does not answer may
have run or not (`AuthSystem.lose`).
-/

namespace NewApi

/-! ## Scripts -/

/-- The keys of a user. -/
structure AuthStore where
  hash : Option UserBase
  /-- `auth:user:fence`. -/
  pending : Option Int
  /-- `auth:user:version`. -/
  committed : Option Int
deriving DecidableEq

/-- The fields that `updateUserCacheFieldAtVersion` writes. -/
inductive UserCacheField
  | group | email | username | setting
deriving DecidableEq

/-- `HSET` of one field. -/
def UserBase.setField (user : UserBase) (value : String) : UserCacheField → UserBase
  | .group => { user with group := value, cacheSchema := userCacheSchemaVersion }
  | .email => { user with email := value, cacheSchema := userCacheSchemaVersion }
  | .username => { user with username := value, cacheSchema := userCacheSchemaVersion }
  | .setting => { user with setting := value, cacheSchema := userCacheSchemaVersion }

namespace AuthStore

variable (s : AuthStore)

/-- `getUserAuthVersionFloor`. -/
def floor : Int := max (max 0 (s.pending.getD 0)) (s.committed.getD 0)

def current : Int := (s.hash.map UserBase.authVersion).getD 0

/-- The committed version is raised to a version, and the fence is dropped if it is not
above it. -/
def publish (incoming : Int) : AuthStore :=
  { s with
    committed := if s.committed.getD 0 < incoming then some incoming else s.committed
    pending := if 0 < s.pending.getD 0 ∧ s.pending.getD 0 ≤ incoming then none else s.pending }

/-- How the two scripts that write the hash begin. -/
def clears (incoming : Int) : Option AuthStore :=
  if incoming < s.pending.getD 0 ∨ incoming < s.committed.getD 0 ∨ incoming < s.current then none
  else some (s.publish incoming)

/-- The script of `writeUserCache`, which leaves the quota of a hash alone. -/
def writeUserCache (user : UserBase) (includeQuota : Bool) : Option AuthStore :=
  (s.clears user.authVersion).map fun s' =>
    match s'.hash with
    | some hash =>
      { s' with hash := some { user with
          quota := hash.quota, cacheSchema := userCacheSchemaVersion } }
    | none =>
      if includeQuota then
        { s' with hash := some { user with cacheSchema := userCacheSchemaVersion } }
      else s'

/-- The script of `updateUserCacheFieldAtVersion`. -/
def updateField (field : UserCacheField) (value : String) (authVersion : Int) : Option AuthStore :=
  (s.clears authVersion).map fun s' =>
    match s'.hash with
    | some hash =>
      if hash.authVersion = authVersion then { s' with hash := some (hash.setField value field) }
      else s'
    | none => s'

/-- The script of `SetUserAuthVersionFence`. -/
def setFence (authVersion : Int) : AuthStore :=
  if s.pending.getD 0 < authVersion then { s with pending := some authVersion } else s

end AuthStore

/-! ## Calls -/

/-- The changes of a restrictive operation, and how it publishes. -/
structure RestrictiveChange where
  change : UserRow → UserRow
  /-- `PublishUserAuthCache`, or `publishCommittedUserAuthVersion`. -/
  refreshes : Bool

/-- What a call returns. -/
inductive AuthResult
  | advanced (authVersion : Int)
  | user (user : UserBase)
  | done
  /-- `ErrUserAuthCachePending`. -/
  | pending
  /-- `ErrUserAuthVersionConflict`. -/
  | conflict
  | rolledBack
  | notFound
  | invalid
  /-- The error of a command that Redis has not answered. -/
  | redisError
deriving DecidableEq

/-- What a call does next. -/
inductive AuthStage
  /-- `IncrementUserAuthVersionWithTx` locks the user, with the tries that are left. -/
  | lockUser (op : RestrictiveChange) (tries : Nat)
  | setFence (op : RestrictiveChange) (tries : Nat) (authVersion : Int)
  | persist (op : RestrictiveChange) (tries : Nat) (authVersion : Int)
  | commit (op : RestrictiveChange)
  /-- `PublishUserAuthCache`. -/
  | publishRead (authVersion : Int)
  | publishWrite (authVersion : Int) (user : UserBase)
  /-- `publishCommittedUserAuthVersion`. -/
  | publishCommitted (authVersion : Int)
  /-- `GetUserCache`. -/
  | readHash
  | hashFloor (user : UserBase)
  | readUser
  | userFloor (user : UserBase)
  | populate (user : UserBase)
  /-- `updateUserCache`. -/
  | update (user : UserBase)
  /-- `updateUserCacheFieldAtVersion`. -/
  | updateField (field : UserCacheField) (value : String) (authVersion : Int)
  | returned (result : AuthResult)

structure AuthCall where
  id : Nat
  stage : AuthStage

/-- The database, Redis and the calls. -/
structure AuthSystem where
  row : UserRow
  /-- The transaction that holds the lock of the row, and the row as it has written it. -/
  locked : Option (Nat × UserRow)
  store : AuthStore
  calls : Table AuthCall.id

def nextAuthVersion (authVersion : Int) : Int := max authVersion 1 + 1

namespace AuthSystem

def goto (s : AuthSystem) (id : Nat) (stage : AuthStage) : AuthSystem :=
  { s with calls := s.calls.save ⟨id, stage⟩ }

/-- The call returns, and the transaction it holds is rolled back. -/
def fail (s : AuthSystem) (id : Nat) (result : AuthResult) : AuthSystem :=
  { s with
    locked := if s.locked.any fun l => l.1 = id then none else s.locked
    calls := s.calls.save ⟨id, .returned result⟩ }

def advance (s : AuthSystem) (id : Nat) : AuthStage → AuthSystem
  | .lockUser op tries =>
    match s.locked with
    | some (holder, working) =>
      if holder = id then s.goto id (.setFence op tries working.authVersion) else s
    | none =>
      { s with locked := some (id, s.row) }.goto id (.setFence op tries s.row.authVersion)
  | .setFence op tries authVersion =>
    { s with store := s.store.setFence (nextAuthVersion authVersion) }.goto id
      (.persist op tries authVersion)
  | .persist op tries authVersion =>
    match s.locked with
    | some (holder, working) =>
      if holder = id ∧ working.authVersion = authVersion then
        { s with
          locked := some (id, { op.change working with
            authVersion := nextAuthVersion authVersion }) }.goto id (.commit op)
      else
        match tries with
        | 0 => s.fail id .conflict
        | tries + 1 => s.goto id (.lockUser op tries)
    | none => s.fail id .conflict
  | .commit op =>
    match s.locked with
    | some (holder, working) =>
      if holder = id then
        { s with row := working, locked := none }.goto id
          (if op.refreshes then .publishRead working.authVersion
            else .publishCommitted working.authVersion)
      else s
    | none => s
  | .publishRead authVersion =>
    if s.row.deleted then s.goto id (.returned .notFound)
    else s.goto id (.publishWrite authVersion s.row.toBaseUser)
  | .publishWrite authVersion user =>
    if user.authVersion ≤ 0 then s.goto id (.returned .invalid)
    else
      match s.store.writeUserCache user false with
      | some store => { s with store := store }.goto id (.returned (.advanced authVersion))
      | none => s.goto id (.returned .pending)
  | .publishCommitted authVersion =>
    { s with store := s.store.publish authVersion }.goto id (.returned (.advanced authVersion))
  | .readHash =>
    match s.store.hash with
    | some user =>
      if user.cacheSchema ≠ userCacheSchemaVersion ∨ user.authVersion ≤ 0 then s.goto id .readUser
      else s.goto id (.hashFloor user)
    | none => s.goto id .readUser
  | .hashFloor user =>
    if user.authVersion < s.store.floor then s.goto id .readUser
    else s.goto id (.returned (.user user))
  | .readUser =>
    if s.row.deleted then s.goto id (.returned .notFound)
    else s.goto id (.userFloor s.row.toBaseUser)
  | .userFloor user =>
    if user.authVersion < s.store.floor then s.goto id (.returned .pending)
    else s.goto id (.populate user)
  | .populate user =>
    if user.authVersion ≤ 0 then s.goto id (.returned (.user user))
    else
      match s.store.writeUserCache user true with
      | some store => { s with store := store }.goto id (.returned (.user user))
      | none => s.goto id (.returned .pending)
  | .update user =>
    if user.authVersion ≤ 0 then s.goto id (.returned .invalid)
    else
      match s.store.writeUserCache user false with
      | some store => { s with store := store }.goto id (.returned .done)
      | none => s.goto id (.returned .pending)
  | .updateField field value authVersion =>
    if authVersion ≤ 0 then s.goto id (.returned .invalid)
    else
      match s.store.updateField field value authVersion with
      | some store => { s with store := store }.goto id (.returned .done)
      | none => s.goto id (.returned .pending)
  | .returned _ => s

/-- Redis does not answer the command of a call. A reader goes to the database for the hash and
its floor, goes on without the second floor, and only logs that it could not populate. A record
without a version is not sent. -/
def lose (s : AuthSystem) (id : Nat) (ran : Bool) (stage : AuthStage) : AuthSystem :=
  let s' := { s with store := if ran then (s.advance id stage).store else s.store }
  match stage with
  | .setFence _ _ _ => s'.fail id .redisError
  | .publishCommitted _ => s'.goto id (.returned .redisError)
  | .publishWrite _ user | .update user =>
    if user.authVersion ≤ 0 then s else s'.goto id (.returned .redisError)
  | .updateField _ _ authVersion =>
    if authVersion ≤ 0 then s else s'.goto id (.returned .redisError)
  | .readHash | .hashFloor _ => s'.goto id .readUser
  | .userFloor user => s'.goto id (.populate user)
  | .populate user => s'.goto id (.returned (.user user))
  | _ => s

end AuthSystem

/-! ## Actions -/

/-- A call and its arguments. -/
inductive AuthJob
  | restrict (op : RestrictiveChange)
  | getUserCache
  | updateUserCache (user : UserBase)
  | updateField (field : UserCacheField) (value : String) (authVersion : Int)

def AuthJob.stage : AuthJob → AuthStage
  | .restrict op => .lockUser op 2
  | .getUserCache => .readHash
  | .updateUserCache user => .update user
  | .updateField field value authVersion => .updateField field value authVersion

/-- What happens next. -/
inductive AuthAction
  | call (id : Nat) (job : AuthJob)
  | step (id : Nat)
  /-- The command of a call gets no answer, whether it has run or not. -/
  | lost (id : Nat) (ran : Bool)
  | rollback (id : Nat)
  | expireHash
  | expireFence

def AuthSystem.step (s : AuthSystem) : AuthAction → AuthSystem
  | .call id job =>
    match s.calls.insert ⟨id, job.stage⟩ with
    | some calls => { s with calls := calls }
    | none => s
  | .step id =>
    match s.calls.find id with
    | some call => s.advance id call.stage
    | none => s
  | .lost id ran =>
    match s.calls.find id with
    | some call => s.lose id ran call.stage
    | none => s
  | .rollback id => if s.locked.any fun l => l.1 = id then s.fail id .rolledBack else s
  | .expireHash => { s with store := { s.store with hash := none } }
  | .expireFence => { s with store := { s.store with pending := none } }

end NewApi
