import NewApi.Lib.Runs
import NewApi.Lib.Table

/-!
# System tasks

A system task is a row that some node claims and runs. The unique `active_key` lets one row of a
type be active, and a lock row of the type is the lease of the node that runs it. Claiming takes
the lock, fails the task of an expired lock and sets the row running, each in a statement of its
own; the cleaner reads the expired locks, and then fails the task and deletes the lock of each
one.

A call is a `TaskStage`, what it does next: one SQL statement, which may fail without effect.
`EnsureSystemTaskTx` shows only at the commit of its caller, so it is one step. `issued`
remembers every row that was created; it is not in any store.
-/

namespace NewApi

/-! ## Rows -/

/-- `SystemTaskStatus`. -/
inductive SystemTaskStatus
  | pending | running | succeeded | failed
deriving DecidableEq

/-- `activeSystemTaskStatuses`. -/
def SystemTaskStatus.active : SystemTaskStatus → Bool
  | .pending | .running => true
  | .succeeded | .failed => false

/-- `SystemTask`. -/
structure SystemTask where
  id : Nat
  (taskID type : String)
  status : SystemTaskStatus
  activeKey : Option String
  (payload state result error lockedBy : String)
  updatedAt : Int
deriving DecidableEq

/-- What never changes in a row. -/
structure TaskName where
  id : Nat
  (taskID type : String)
deriving DecidableEq

def SystemTask.name (task : SystemTask) : TaskName := ⟨task.id, task.taskID, task.type⟩

/-- `SystemTaskLock`. -/
structure SystemTaskLock where
  (type taskID lockedBy : String)
  (lockedUntil updatedAt : Int)
deriving DecidableEq

/-- The status a task is finished with. -/
inductive TaskOutcome
  | succeeded | failed
deriving DecidableEq

def TaskOutcome.status : TaskOutcome → SystemTaskStatus
  | .succeeded => .succeeded
  | .failed => .failed

/-- `SystemTaskFilter`, without the scope. -/
structure SystemTaskFilter where
  type : Option String
  status : Option SystemTaskStatus
deriving DecidableEq

/-- `query` with the scope `history`. -/
def SystemTaskFilter.history (filter : SystemTaskFilter) (task : SystemTask) : Bool :=
  !task.status.active && filter.type.all (· = task.type) && filter.status.all (· = task.status)

/-! ## Calls -/

/-- The arguments of `ClaimSystemTask`, and the time it began. -/
structure TaskClaim where
  id : Nat
  (type runnerID : String)
  (lockUntil now : Int)
deriving DecidableEq

/-- What a call returns. -/
inductive TaskResult
  | claimed (task : SystemTask)
  | notClaimed
  | done
  | deleted (rows : Nat)
  /-- `ErrSystemTaskLockLost`. -/
  | lockLost
  | error
deriving DecidableEq

/-- What a call does next. -/
inductive TaskStage
  /-- `ClaimSystemTask` reads the pending row. -/
  | findPending (c : TaskClaim)
  /-- `acquireSystemTaskLock`. -/
  | createLock (c : TaskClaim) (task : SystemTask)
  | readLock (c : TaskClaim) (task : SystemTask)
  | takeLock (c : TaskClaim) (task : SystemTask) (existing : String)
  | markExpired (c : TaskClaim) (task : SystemTask) (expiredTaskID : String)
  | setRunning (c : TaskClaim) (task : SystemTask)
  | release (c : TaskClaim) (task : SystemTask) (result : TaskResult)
  | readBack (c : TaskClaim)
  /-- `UpdateSystemTaskState`. -/
  | updateState (taskID lockedBy state : String) (now : Int)
  | confirmState (taskID lockedBy : String) (now : Int)
  /-- `RenewSystemTaskLock`. -/
  | renew (taskID lockedBy : String) (lockUntil now : Int)
  /-- `FinishSystemTask`. -/
  | finish (taskID lockedBy : String) (outcome : TaskOutcome) (result error : String) (now : Int)
  | releaseFinished (taskID lockedBy : String)
  /-- `ExpireStaleSystemTaskLocks`. -/
  | selectStale (now : Int)
  | markStale (now : Int) (lock : SystemTaskLock) (rest : List SystemTaskLock)
  | deleteStale (now : Int) (lock : SystemTaskLock) (rest : List SystemTaskLock)
  /-- `DeleteSystemTaskHistory`. -/
  | selectLatest (filter : SystemTaskFilter)
  | deleteHistory (filter : SystemTaskFilter) (latestIDs : List Nat)
  | returned (result : TaskResult)
deriving DecidableEq

structure TaskCall where
  id : Nat
  stage : TaskStage
deriving DecidableEq

/-- The database, the clock and the calls. -/
structure TaskSystem where
  clock : Int
  tasks : Table SystemTask.id
  locks : Table SystemTaskLock.type
  calls : Table TaskCall.id
  countsChanged : Bool
  issued : List TaskName

/-! ## Statements -/

namespace TaskSystem

variable (s : TaskSystem)

/-- The insert of `CreateSystemTask`. -/
def createSystemTask (taskID type payload state : String) : Option TaskSystem :=
  if taskID ∈ s.issued.map TaskName.taskID then none
  else if s.tasks.rows.any fun t => t.activeKey = some type then none
  else
    let task : SystemTask :=
      ⟨s.issued.length + 1, taskID, type, .pending, some type, payload, state, "", "", "", s.clock⟩
    (s.tasks.insert task).map fun tasks =>
      { s with tasks := tasks, issued := task.name :: s.issued }

/-- `EnsureSystemTaskTx`, which returns what its caller commits. -/
def ensureSystemTaskTx (taskID type : String) : Except String TaskSystem :=
  let inserted := (s.createSystemTask taskID type "" "").getD s
  match inserted.tasks.rows.find? fun t => t.activeKey = some type with
  | some current =>
    if current.type ≠ type ∨ current.status.active = false then .error "invalid_system_task"
    else .ok inserted
  | none => .error "record not found"

/-- Whether the database counts a matched row. -/
def counts {α : Type} [DecidableEq α] (s : TaskSystem) (old new : α) : Bool :=
  !s.countsChanged || new ≠ old

/-- The condition of `UpdateSystemTaskState` and `FinishSystemTask` on a row. -/
def leased (taskID lockedBy : String) (now : Int) (task : SystemTask) : Bool :=
  task.taskID = taskID && task.status = .running && task.lockedBy = lockedBy &&
    s.locks.rows.any fun l => l.taskID = task.taskID && l.lockedBy = lockedBy && now ≤ l.lockedUntil

/-- `MarkSystemTaskLeaseExpired`. -/
def markSystemTaskLeaseExpired (taskID : String) : TaskSystem :=
  { s with
    tasks := s.tasks.updateWhere (fun t => t.taskID = taskID && t.status = .running)
      (fun t => { t with
        status := .failed, activeKey := none, error := "task lease expired", updatedAt := s.clock })
      fun _ => rfl }

/-- `ReleaseSystemTaskLock`. -/
def releaseSystemTaskLock (taskID lockedBy : String) : TaskSystem :=
  { s with locks := s.locks.deleteWhere fun l => l.taskID = taskID && l.lockedBy = lockedBy }

def staleLocks (now : Int) : List SystemTaskLock := s.locks.rows.filter fun l => l.lockedUntil < now

/-- `MAX(id)` of every type. -/
def latestIDs : List Nat :=
  (s.tasks.rows.filter fun t => s.tasks.rows.all fun t' => t'.type ≠ t.type || t'.id ≤ t.id).map
    SystemTask.id

end TaskSystem

def TaskClaim.lock (c : TaskClaim) (task : SystemTask) : SystemTaskLock :=
  ⟨c.type, task.taskID, c.runnerID, c.lockUntil, c.now⟩

/-- The loop of `ExpireStaleSystemTaskLocks`. -/
def staleLoop (now : Int) : List SystemTaskLock → TaskStage
  | [] => .returned .done
  | lock :: rest => .markStale now lock rest

namespace TaskSystem

/-- The next statement of a call, which succeeds. -/
def advance (s : TaskSystem) : TaskStage → TaskSystem × TaskStage
  | .findPending c =>
    match s.tasks.find c.id with
    | some task =>
      if task.type = c.type ∧ task.status = .pending then (s, .createLock c task)
      else (s, .returned .notClaimed)
    | none => (s, .returned .notClaimed)
  | .createLock c task =>
    match s.locks.insert (c.lock task) with
    | some locks => ({ s with locks := locks }, .setRunning c task)
    | none => (s, .readLock c task)
  | .readLock c task =>
    match s.locks.find c.type with
    | some existing =>
      if c.now ≤ existing.lockedUntil then (s, .returned .notClaimed)
      else (s, .takeLock c task existing.taskID)
    | none => (s, .returned .notClaimed)
  | .takeLock c task existing =>
    match s.locks.find c.type with
    | some lock =>
      if lock.lockedUntil < c.now ∧ s.counts lock (c.lock task) then
        ({ s with locks := s.locks.save (c.lock task) },
          if existing ≠ "" ∧ existing ≠ task.taskID then .markExpired c task existing
          else .setRunning c task)
      else (s, .returned .notClaimed)
    | none => (s, .returned .notClaimed)
  | .markExpired c task expiredTaskID =>
    (s.markSystemTaskLeaseExpired expiredTaskID, .setRunning c task)
  | .setRunning c task =>
    match s.tasks.find c.id with
    | some row =>
      if row.type = c.type ∧ row.status = .pending then
        ({ s with
            tasks := s.tasks.save
              { row with status := .running, lockedBy := c.runnerID, updatedAt := c.now } },
          .readBack c)
      else (s, .release c task .notClaimed)
    | none => (s, .release c task .notClaimed)
  | .release c task result =>
    (s.releaseSystemTaskLock task.taskID c.runnerID, .returned result)
  | .readBack c =>
    match s.tasks.find c.id with
    | some task => (s, .returned (.claimed task))
    | none => (s, .returned .error)
  | .updateState taskID lockedBy state now =>
    if s.tasks.rows.any fun t =>
        s.leased taskID lockedBy now t &&
          s.counts t { t with state := state, updatedAt := now } then
      ({ s with
          tasks := s.tasks.updateWhere (s.leased taskID lockedBy now)
            (fun t => { t with state := state, updatedAt := now }) fun _ => rfl },
        .returned .done)
    else (s, .confirmState taskID lockedBy now)
  | .confirmState taskID lockedBy now =>
    if s.tasks.rows.any (s.leased taskID lockedBy now) then (s, .returned .done)
    else (s, .returned .lockLost)
  | .renew taskID lockedBy lockUntil now =>
    let held := fun l : SystemTaskLock =>
      decide (l.taskID = taskID) && decide (l.lockedBy = lockedBy) && decide (now ≤ l.lockedUntil)
    let renewed := fun l : SystemTaskLock => { l with lockedUntil := lockUntil, updatedAt := now }
    ({ s with locks := s.locks.updateWhere held renewed fun _ => rfl },
      if s.locks.rows.any fun l => held l && s.counts l (renewed l) then .returned .done
      else .returned .lockLost)
  | .finish taskID lockedBy outcome result error now =>
    if s.tasks.rows.any (s.leased taskID lockedBy now) then
      ({ s with
          tasks := s.tasks.updateWhere (s.leased taskID lockedBy now)
            (fun t => { t with
              status := outcome.status, activeKey := none, result := result, error := error,
              updatedAt := now })
            fun _ => rfl },
        .releaseFinished taskID lockedBy)
    else (s, .returned .lockLost)
  | .releaseFinished taskID lockedBy => (s.releaseSystemTaskLock taskID lockedBy, .returned .done)
  | .selectStale now => (s, staleLoop now (s.staleLocks now))
  | .markStale now lock rest =>
    (s.markSystemTaskLeaseExpired lock.taskID, .deleteStale now lock rest)
  | .deleteStale now lock rest =>
    ({ s with
        locks := s.locks.deleteWhere fun l =>
          l.type = lock.type && l.taskID = lock.taskID && l.lockedBy = lock.lockedBy &&
            l.lockedUntil < now },
      staleLoop now rest)
  | .selectLatest filter =>
    (s, if s.latestIDs = [] then .returned (.deleted 0) else .deleteHistory filter s.latestIDs)
  | .deleteHistory filter latestIDs =>
    let old := fun t : SystemTask =>
      filter.history t && decide (t.id < latestIDs.foldl max 0) && decide (t.id ∉ latestIDs)
    ({ s with tasks := s.tasks.deleteWhere old }, .returned (.deleted (s.tasks.rows.countP old)))
  | .returned result => (s, .returned result)

end TaskSystem

def TaskStage.fail : TaskStage → TaskStage
  | .createLock c task => .readLock c task
  | .markExpired c task _ | .setRunning c task => .release c task .error
  | .release _ _ result | .returned result => .returned result
  | _ => .returned .error

/-! ## Actions -/

/-- A call and its arguments. -/
inductive TaskJob
  | claim (id : Nat) (type runnerID : String) (lockUntil : Int)
  | updateState (taskID lockedBy state : String)
  | renew (taskID lockedBy : String) (lockUntil : Int)
  | finish (taskID lockedBy : String) (outcome : TaskOutcome) (result error : String)
  | expireStale
  | deleteHistory (filter : SystemTaskFilter)
deriving DecidableEq

/-- The first stage of a call that begins at a time. -/
def TaskJob.stage (now : Int) : TaskJob → TaskStage
  | .claim id type runnerID lockUntil => .findPending ⟨id, type, runnerID, lockUntil, now⟩
  | .updateState taskID lockedBy state => .updateState taskID lockedBy state now
  | .renew taskID lockedBy lockUntil => .renew taskID lockedBy lockUntil now
  | .finish taskID lockedBy outcome result error =>
    .finish taskID lockedBy outcome result error now
  | .expireStale => .selectStale now
  | .deleteHistory filter => .selectLatest filter

/-- What happens next. -/
inductive TaskAction
  | wait (time : Nat)
  | create (taskID type payload state : String)
  | ensure (taskID type : String)
  | call (id : Nat) (job : TaskJob)
  | step (id : Nat) (succeeds : Bool)
deriving DecidableEq

namespace TaskSystem

def start (clock : Int) (countsChanged : Bool) : TaskSystem where
  clock := clock
  tasks := Table.empty
  locks := Table.empty
  calls := Table.empty
  countsChanged := countsChanged
  issued := []

def step (s : TaskSystem) : TaskAction → TaskSystem
  | .wait time => { s with clock := s.clock + time }
  | .create taskID type payload state => (s.createSystemTask taskID type payload state).getD s
  | .ensure taskID type =>
    match s.ensureSystemTaskTx taskID type with
    | .ok s' => s'
    | .error _ => s
  | .call id job =>
    match s.calls.insert ⟨id, job.stage s.clock⟩ with
    | some calls => { s with calls := calls }
    | none => s
  | .step id succeeds =>
    match s.calls.find id with
    | some call =>
      let next := if succeeds then s.advance call.stage else (s, call.stage.fail)
      { next.1 with calls := s.calls.save ⟨id, next.2⟩ }
    | none => s

end TaskSystem

end NewApi
