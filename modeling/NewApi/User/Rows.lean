import NewApi.Lib.Runs
import NewApi.Lib.Table

/-!
# Writers of a user row

The row of one user, and the transactions that write it: the actions of administrators
(`ManageUserForRoleWithTx`), the self-service operations that write a record they loaded before
back through `UpdateWithTx`, and `TransferAffQuotaToQuota`.

The first statement of a transaction that locks or writes the row takes its lock and works on the
last committed row; the others wait. `locked` is the holder and the row as it has written it. A
read without a lock sees the last committed row (`readCommitted`), or the row of the first read of
its transaction (`repeatableRead`, and `strict`, where a transaction moreover fails when it locks
a row that was committed after its first read).

A call is a `UserStage`, one statement at a time. `disabled` and `demoted` are not in the
database: they say which was the last action that was committed.
-/

namespace NewApi

/-! ## Roles -/

/-- `RoleCommonUser`. -/
def roleCommonUser : Int := 1

/-- `RolePluginAdminUser`. -/
def rolePluginAdminUser : Int := 5

/-- `RoleAdminUser`. -/
def roleAdminUser : Int := 10

/-- `RoleRootUser`. -/
def roleRootUser : Int := 100

/-- `CanManageUserRole`. -/
def canManageUserRole (operatorRole targetRole : Int) : Bool :=
  if targetRole = rolePluginAdminUser then operatorRole = roleRootUser
  else operatorRole = roleRootUser ∨ targetRole < operatorRole

/-! ## Rows -/

/-- `UserStatusEnabled`. -/
def userStatusEnabled : Int := 1

/-- `UserStatusDisabled`. -/
def userStatusDisabled : Int := 2

/-- The columns of a `User`. -/
structure UserRow where
  (username displayName password : String)
  (role status : Int)
  (email group affCode setting : String)
  (quota affQuota authVersion : Int)
  deleted : Bool
deriving DecidableEq

/-- `Updates` of a struct leaves a column with a zero value alone. -/
def orKeep {α : Type} [DecidableEq α] (zero new old : α) : α := if new = zero then old else new

/-- `UpdateWithTx` decides whether the record changes the authentication state. -/
def UserRow.authChanged (current newUser : UserRow) (updatePassword : Bool) : Bool :=
  (updatePassword && current.password ≠ newUser.password) ||
    (newUser.role ≠ 0 && current.role ≠ newUser.role) ||
    (newUser.status ≠ 0 && current.status ≠ newUser.status) ||
    (newUser.group ≠ "" && current.group ≠ newUser.group)

/-- `Updates(newUser)`, without the columns that are omitted. -/
def UserRow.updates (current newUser : UserRow) : UserRow :=
  { current with
    username := orKeep "" newUser.username current.username
    displayName := orKeep "" newUser.displayName current.displayName
    password := orKeep "" newUser.password current.password
    role := orKeep 0 newUser.role current.role
    status := orKeep 0 newUser.status current.status
    email := orKeep "" newUser.email current.email
    group := orKeep "" newUser.group current.group
    affCode := orKeep "" newUser.affCode current.affCode
    setting := orKeep "" newUser.setting current.setting }

/-- `IncrementUserAuthVersionWithTx` on a locked row, where its update always matches. -/
def UserRow.incrementAuthVersion (row : UserRow) : UserRow :=
  { row with authVersion := max row.authVersion 1 + 1 }

/-! ## Errors and actions -/

inductive UserError
  | notManageable | recordNotFound | cannotDisableRoot | adminCannotPromote | alreadyAdmin
  | cannotDemoteRoot | alreadyCommon | invalidAction
  | statement
  /-- The row was committed after the first read of the transaction. -/
  | serialization
  | emailTaken | transferMinimum | affQuota
deriving DecidableEq

/-- The actions of `ManageUserForRoleWithTx`. -/
inductive ManageAction
  | disable | enable | promote | demote
  | unknown (action : String)
deriving DecidableEq

inductive UserColumn
  | status | role
deriving DecidableEq

def UserRow.column (row : UserRow) : UserColumn → Int
  | .status => row.status
  | .role => row.role

/-- `Update(column, value)`. -/
def UserRow.setColumn (row : UserRow) : UserColumn → Int → UserRow
  | .status, value => { row with status := value }
  | .role, value => { row with role := value }

/-- What an action sets, on a user that was locked. -/
def ManageAction.target (operatorRole : Int) (user : UserRow) :
    ManageAction → Except UserError (UserColumn × Int)
  | .disable =>
    if user.role = roleRootUser then .error .cannotDisableRoot
    else .ok (.status, userStatusDisabled)
  | .enable => .ok (.status, userStatusEnabled)
  | .promote =>
    if operatorRole ≠ roleRootUser then .error .adminCannotPromote
    else if roleAdminUser ≤ user.role then .error .alreadyAdmin
    else .ok (.role, roleAdminUser)
  | .demote =>
    if user.role = roleRootUser then .error .cannotDemoteRoot
    else if user.role = roleCommonUser then .error .alreadyCommon
    else .ok (.role, roleCommonUser)
  | .unknown _ => .error .invalidAction

/-- `ManageUserForRoleWithTx` after the row is locked: what it sets. -/
def ManageAction.decide (operatorRole : Int) (user : UserRow) (action : ManageAction) :
    Except UserError (UserColumn × Int) :=
  if !canManageUserRole operatorRole user.role then .error .notManageable
  else if user.deleted then .error .recordNotFound
  else action.target operatorRole user

/-- The self-service operations that write a record back. -/
inductive SelfJob
  /-- `GetAffCode`, with the random code. -/
  | getAffCode (code : String)
  /-- `BindEmailToUser`. -/
  | bindEmail (email : String)
  | initSidebar (setting : String)
deriving DecidableEq

/-- The record that is written back, from the record that was loaded. -/
def SelfJob.record (row : UserRow) : SelfJob → Option UserRow
  | .getAffCode code => if row.affCode = "" then some { row with affCode := code } else none
  | .bindEmail email => some { row with email := email }
  | .initSidebar setting => some { row with setting := setting }

/-- The record of `UpdateSelf`. -/
def selfRecord (username displayName : String) : UserRow :=
  ⟨username, displayName, "", 0, 0, "", "", "", "", 0, 0, 0, false⟩

/-! ## Calls -/

/-- The first read of a transaction: the row, and how many commits came before. -/
abbrev UserSnapshot := Option (UserRow × Nat)

/-- What a call does next. -/
inductive UserStage
  | load (job : SelfJob)
  /-- `ensureEmailAvailableWithTx`. -/
  | checkEmail (record : UserRow)
  /-- `UpdateWithTx` reads the current row. -/
  | readCurrent (record : UserRow) (snapshot : UserSnapshot)
  | increment (record : UserRow) (snapshot : UserSnapshot)
  | write (record : UserRow) (snapshot : UserSnapshot)
  /-- `lockManageableUserTx`. -/
  | manageLock (action : ManageAction) (operatorRole : Int)
  | manageIncrement (action : ManageAction) (column : UserColumn) (value : Int)
  | manageWrite (action : ManageAction) (column : UserColumn) (value : Int)
  /-- `TransferAffQuotaToQuota`. -/
  | transfer (quota : Int)
  | commit (action : Option ManageAction)
  | returned (result : Except UserError Unit)

structure UserCall where
  id : Nat
  stage : UserStage

/-- The visibility of reads. -/
inductive Isolation
  | readCommitted | repeatableRead | strict
deriving DecidableEq

/-- The row of a user, its lock and the calls. -/
structure UserSystem where
  isolation : Isolation
  quotaPerUnit : Int
  row : UserRow
  commits : Nat
  locked : Option (Nat × UserRow)
  calls : Table UserCall.id
  (disabled demoted : Bool)

namespace UserSystem

variable (s : UserSystem)

/-- The committed row that a transaction sees. -/
def visible : UserSnapshot → UserRow × UserSnapshot
  | some (row, commits) =>
    if s.isolation = .readCommitted then (s.row, some (row, commits))
    else (row, some (row, commits))
  | none => (s.row, some (s.row, s.commits))

variable (id : Nat)

/-- A read without a lock, and the snapshot after it. -/
def read (snapshot : UserSnapshot) : UserRow × UserSnapshot :=
  match s.locked with
  | some (holder, working) => if holder = id then (working, snapshot) else s.visible snapshot
  | none => s.visible snapshot

/-- What a statement that takes the lock gets. -/
inductive Acquired
  | waits
  | fails
  | row (row : UserRow)

def acquire (snapshot : UserSnapshot) : Acquired :=
  match s.locked with
  | some (holder, working) => if holder = id then .row working else .waits
  | none =>
    match s.isolation, snapshot with
    | .strict, some (_, commits) => if commits = s.commits then .row s.row else .fails
    | _, _ => .row s.row

def goto (stage : UserStage) : UserSystem := { s with calls := s.calls.save ⟨id, stage⟩ }

/-- The call ends, and its transaction is rolled back. -/
def abort (error : UserError) : UserSystem :=
  { s with
    locked := if s.locked.any fun l => l.1 = id then none else s.locked
    calls := s.calls.save ⟨id, .returned (.error error)⟩ }

def onRow (snapshot : UserSnapshot) (f : UserRow → Except UserError (UserRow × UserStage)) :
    UserSystem :=
  match s.acquire id snapshot with
  | .waits => s
  | .fails => s.abort id .serialization
  | .row row =>
    match f row with
    | .error error => s.abort id error
    | .ok (row', stage) => { s with locked := some (id, row') }.goto id stage

def commit (s : UserSystem) (id : Nat) (action : Option ManageAction) : UserSystem :=
  match s.locked with
  | some (holder, working) =>
    if holder = id then
      { s with
        row := working
        commits := s.commits + 1
        locked := none
        calls := s.calls.save ⟨id, .returned (.ok ())⟩
        disabled :=
          match action with
          | some .disable => true
          | some .enable => false
          | _ => s.disabled
        demoted :=
          match action with
          | some .demote => true
          | some .promote => false
          | _ => s.demoted }
    else s
  | none => s

def advance : UserStage → UserSystem
  | .load job =>
    if s.row.deleted then s.abort id .recordNotFound
    else
      match job.record s.row, job with
      | none, _ => s.goto id (.returned (.ok ()))
      | some record, .bindEmail _ => s.goto id (.checkEmail record)
      | some record, _ => s.goto id (.readCurrent record none)
  | .checkEmail record => s.goto id (.readCurrent record (s.read id none).2)
  | .readCurrent record snapshot =>
    let (current, snapshot) := s.read id snapshot
    if current.deleted then s.abort id .recordNotFound
    else if current.authChanged record false then s.goto id (.increment record snapshot)
    else s.goto id (.write record snapshot)
  | .increment record snapshot =>
    s.onRow id snapshot fun row => .ok (row.incrementAuthVersion, .write record snapshot)
  | .write record snapshot =>
    s.onRow id snapshot fun row => .ok (row.updates record, .commit none)
  | .manageLock action operatorRole =>
    s.onRow id none fun row => do
      let (column, value) ← action.decide operatorRole row
      if row.column column = value then return (row, .commit (some action))
      else return (row, .manageIncrement action column value)
  | .manageIncrement action column value =>
    s.onRow id none fun row => .ok (row.incrementAuthVersion, .manageWrite action column value)
  | .manageWrite action column value =>
    s.onRow id none fun row => .ok (row.setColumn column value, .commit (some action))
  | .transfer quota =>
    s.onRow id none fun row =>
      if row.deleted then .error .recordNotFound
      else if row.affQuota < quota then .error .affQuota
      else .ok ({ row with affQuota := row.affQuota - quota, quota := row.quota + quota },
        .commit none)
  | .commit action => s.commit id action
  | .returned _ => s

end UserSystem

/-! ## Actions -/

/-- A call. -/
inductive UserJob
  | self (job : SelfJob)
  | updateSelf (username displayName : String)
  | transfer (quota : Int)
  | manage (action : ManageAction) (operatorRole : Int)
deriving DecidableEq

def UserJob.stage (quotaPerUnit : Int) : UserJob → UserStage
  | .self job => .load job
  | .updateSelf username displayName => .readCurrent (selfRecord username displayName) none
  | .transfer quota =>
    if quota < quotaPerUnit then .returned (.error .transferMinimum) else .transfer quota
  | .manage action operatorRole => .manageLock action operatorRole

/-- What happens next. -/
inductive UserAction
  | call (id : Nat) (job : UserJob)
  | step (id : Nat) (error : Option UserError)
deriving DecidableEq

def UserSystem.step (s : UserSystem) : UserAction → UserSystem
  | .call id job =>
    match s.calls.insert ⟨id, job.stage s.quotaPerUnit⟩ with
    | some calls => { s with calls := calls }
    | none => s
  | .step id error =>
    match s.calls.find id with
    | some ⟨_, .returned _⟩ => s
    | some call =>
      match error with
      | some error => s.abort id error
      | none => s.advance id call.stage
    | none => s

end NewApi
