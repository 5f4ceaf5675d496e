import NewApi.Model.StreamExecution
import NewApi.Stream.Store

/-!
# Workers and reconcilers

One worker appends the frames of a stream to the store and commits them in the row, where its lease
is checked. When the lease is over, a reconciler takes the row over and ends the stream with a
terminal frame. A worker whose upstream fails moves on to another attempt: it changes its writer
(`rotate`), then the row (`start`), and last the published number that subscribers start from.

Every statement and every script is a step, and the steps come in any order. A step may fail
without having run, or it ran and the answer was lost (`Fault`). No reconciler has the name of the
worker, since both names carry a random key.
-/

namespace NewApi

namespace Recovery

/-- How a statement or a script fails, if it does. -/
inductive Fault
  | none
  | lost
  | unheard
deriving DecidableEq

/-- A statement with its answer, which is `none` when it did not arrive. -/
def Fault.call {σ ρ : Type*} (fault : Fault) (op : σ → ρ × σ) (s : σ) : Option ρ × σ :=
  match fault with
  | .none => (some (op s).1, (op s).2)
  | .lost => (Option.none, s)
  | .unheard => (Option.none, (op s).2)

/-- A conditional update, with whether it found its row. -/
def updateRow (update : StreamExecution → Option StreamExecution) (row : StreamExecution) :
    Bool × StreamExecution :=
  match update row with
  | some row' => (true, row')
  | Option.none => (false, row)

/-- What does not change: the name of the worker, the limit of the store, and
the text of `streamRecoveryRelayErrorEvent` for a replay that is not safe. -/
structure Config where
  worker : String
  maxEvents : Nat
  unsafeEvent : List Char

/-! ## The parties -/

/-- Where the writer of the worker is. -/
inductive WriterPhase
  | ready
  | appended (frame : StreamRecoveryFrame)
  /-- The commit failed, and whether for the lease. The row is read next. -/
  | checking (frame : StreamRecoveryFrame) (leaseLost : Bool)
  | rejected (frame : StreamRecoveryFrame)
  /-- `attemptError` is set. -/
  | attemptFailed
  | rotated
  | started
  | terminal
  /-- `writeError` is set, or the worker is done. -/
  | stopped
deriving DecidableEq

/-- `StreamRecoveryWriter`. -/
structure Writer where
  (attempt sequence : Nat)
  phase : WriterPhase
deriving DecidableEq

/-- What a reconciler is about to write to the row. -/
structure Resolution where
  status : StreamExecutionStatus
  terminalSequence : Nat
  error : String
deriving DecidableEq

/-- Where a run of `reconcileExpiredStreamExecution` is. `claimed` is the row
it read after its claim. -/
inductive ReconcilerPhase
  | idle
  | reload
  | tail (claimed : StreamExecution)
  /-- What follows the committed frames is read next, at most so often. -/
  | look (claimed : StreamExecution) (rounds : Nat)
  | append (claimed : StreamExecution)
  | confirm (claimed : StreamExecution) (frame : StreamRecoveryFrame) (rounds : Nat)
  | rollback (claimed : StreamExecution) (frame : StreamRecoveryFrame) (rounds : Nat)
  /-- `finishReconciledStreamExecution`: its lease check, its read, its seal and
  its update. -/
  | own (claimed : StreamExecution) (out : Resolution)
  | fetch (claimed : StreamExecution) (out : Resolution)
  | close (claimed : StreamExecution) (out : Resolution) (frame : StreamRecoveryFrame)
  | finish (claimed : StreamExecution) (out : Resolution)
deriving DecidableEq

def ReconcilerPhase.claimed : ReconcilerPhase → Option StreamExecution
  | .idle | .reload => none
  | .tail c | .look c _ | .append c | .confirm c _ _ | .rollback c _ _ | .own c _ | .fetch c _
  | .close c _ _ | .finish c _ => some c

structure System (cfg : Config) where
  row : StreamExecution
  published : Nat
  store : Nat → AttemptStore cfg.maxEvents
  writer : Writer
  reconcilers : Nat → ReconcilerPhase

variable {cfg : Config}

/-! ## The worker -/

variable (s : System cfg)

def System.withPhase (phase : WriterPhase) : System cfg :=
  { s with writer := { s.writer with phase := phase } }

def System.withStore (attempt : Nat) (t : AttemptStore cfg.maxEvents) : System cfg :=
  { s with store := Function.update s.store attempt t }

/-- The commit of the frame is reported as done. -/
def System.accept (f : StreamRecoveryFrame) : System cfg :=
  { s with writer := { s.writer with
      sequence := f.sequence
      phase := if f.terminal then .terminal else .ready } }

/-- The frame that `flushLocked` makes of a piece of the buffer. -/
def nextFrame (w : Writer) (piece : List Char) (token : String) : StreamRecoveryFrame where
  sequence := w.sequence + 1
  data := appendStreamRecoveryEventID piece w.attempt (w.sequence + 1)
  terminal := (streamRecoveryTerminalState
    (appendStreamRecoveryEventID piece w.attempt (w.sequence + 1))).1
  rollbackToken := token
  generation := 0

/-- `flushLocked`: the next piece is appended to the store. -/
def appendStep (piece : List Char) (token : String) (full : Bool) (fault : Fault)
    (s : System cfg) : System cfg :=
  match s.writer.phase with
  | .ready =>
    match fault.call (AttemptStore.appendFrame (nextFrame s.writer piece token) full)
        (s.store s.writer.attempt) with
    | (some (.ok f), t) => (s.withStore s.writer.attempt t).withPhase (.appended f)
    | (_, t) => (s.withStore s.writer.attempt t).withPhase .stopped
  | _ => s

/-- `commitStreamRecoveryFrame`, its update. -/
def commitStep (now : Int) (fault : Fault) (s : System cfg) : System cfg :=
  match s.writer.phase with
  | .appended f =>
    match fault.call (updateRow (StreamExecution.updateSequence cfg.worker s.writer.attempt
        f.sequence now)) s.row with
    | (some true, row) => { s with row }.accept f
    | (some false, row) => { s with row }.withPhase (.checking f true)
    | (none, row) => { s with row }.withPhase (.checking f false)
  | _ => s

/-- The row that was read shows the sequence as committed. -/
def showsCommitted (row : StreamExecution) (attempt sequence : Nat) : Bool :=
  row.inAttempt attempt && decide (sequence ≤ row.committedSequence)

/-- `commitStreamRecoveryFrame`, its read after an update that failed. -/
def checkStep (fault : Bool) (s : System cfg) : System cfg :=
  match s.writer.phase with
  | .checking f leaseLost =>
    if fault then s.withPhase .stopped
    else if showsCommitted s.row s.writer.attempt f.sequence then s.accept f
    else if leaseLost then s.withPhase (.rejected f)
    else s.withPhase .stopped
  | _ => s

def rollbackStep (fault : Fault) (s : System cfg) : System cfg :=
  match s.writer.phase with
  | .rejected f =>
    match fault.call (AttemptStore.rollbackFrame f) (s.store s.writer.attempt) with
    | (some .done, t) => (s.withStore s.writer.attempt t).withPhase .attemptFailed
    | (_, t) => (s.withStore s.writer.attempt t).withPhase .stopped
  | _ => s

/-- `RotateAttempt`. -/
def rotateStep (attempt : Nat) (s : System cfg) : System cfg :=
  match s.writer.phase with
  | .ready | .attemptFailed | .terminal =>
    if s.writer.attempt < attempt then { s with writer := ⟨attempt, 0, .rotated⟩ } else s
  | _ => s

/-- `StartStreamExecutionAttempt` for the attempt of the writer. -/
def startStep (now : Int) (fault : Fault) (s : System cfg) : System cfg :=
  match s.writer.phase with
  | .rotated =>
    match fault.call (updateRow (StreamExecution.startAttempt cfg.worker s.writer.attempt now))
        s.row with
    | (some true, row) => { s with row }.withPhase .started
    | (_, row) => { s with row }.withPhase .ready
  | _ => s

/-- `PublishAttempt`. -/
def publishStep (fault : Fault) (s : System cfg) : System cfg :=
  match s.writer.phase with
  | .started =>
    { s with published := (fault.call (fun _ => ((), s.writer.attempt)) s.published).2 }.withPhase
      .ready
  | _ => s

/-- `FinishStreamExecution` at the end of the worker. -/
def finishStep (status : StreamExecutionStatus) (error : String) (now : Int) (fault : Fault)
    (s : System cfg) : System cfg :=
  match s.writer.phase with
  | .ready | .attemptFailed | .terminal | .stopped =>
    { s with row := (fault.call (updateRow (StreamExecution.finish cfg.worker s.writer.attempt
      status s.writer.sequence error now)) s.row).2 }.withPhase .stopped
  | _ => s

/-! ## The reconcilers -/

/-- What the environment decides about a step of a reconciler. -/
structure ReconcileEnv where
  runner : String
  observedAttempt : Nat
  (now lockUntil : Int)
  token : String
  full : Bool
  fault : Fault

/-- `errStatefulReplayUnsafe`. -/
def statefulReplayUnsafe : String :=
  "STATEFUL_REPLAY_UNSAFE: automatic generation replay is unavailable after execution started"

/-- What a terminal frame that is there already says about the stream. -/
def resolutionOf (f : StreamRecoveryFrame) : Resolution :=
  if (streamRecoveryTerminalState f.data).2 = false then ⟨.completed, f.sequence, ""⟩
  else if Text.occursIn "STATEFUL_REPLAY_UNSAFE".toList f.data then
    ⟨.failed, f.sequence, statefulReplayUnsafe⟩
  else ⟨.failed, f.sequence, "stream ended with a protocol failure terminal"⟩

def unsafeFrame (cfg : Config) (claimed : StreamExecution) (token : String) :
    StreamRecoveryFrame where
  sequence := claimed.committedSequence + 1
  data := "id: ".toList ++ eventId claimed.publicAttempt (claimed.committedSequence + 1) ++
    '\n' :: cfg.unsafeEvent
  terminal := true
  rollbackToken := token
  generation := 0

/-- The committed tail, which decides when it is terminal. -/
def tailStep (t : AttemptStore cfg.maxEvents) (claimed : StreamExecution) : ReconcilerPhase :=
  if claimed.publicAttempt = 0 then
    .own claimed ⟨.failed, claimed.committedSequence, statefulReplayUnsafe⟩
  else if claimed.committedSequence = 0 then .look claimed 3
  else
    match t.readFrames (claimed.committedSequence - 1) 2 with
    | [] => .idle
    | f :: rest =>
      if f.sequence ≠ claimed.committedSequence then .idle
      else if f.terminal then
        if (streamRecoveryTerminalState f.data).1 ∧ rest = [] then .own claimed (resolutionOf f)
        else .idle
      else .look claimed 3

def lookStep (t : AttemptStore cfg.maxEvents) (claimed : StreamExecution) : Nat → ReconcilerPhase
  | 0 => .idle
  | rounds + 1 =>
    match t.readFrames claimed.committedSequence 2 with
    | [] =>
      if claimed.committedSequence = 0 then .own claimed ⟨.failed, 0, statefulReplayUnsafe⟩
      else .append claimed
    | [f] =>
      if f.sequence ≠ claimed.committedSequence + 1 then .idle
      else if f.terminal then
        if (streamRecoveryTerminalState f.data).1 then .own claimed (resolutionOf f) else .idle
      else .confirm claimed f rounds
    | _ => .idle

/-- The terminal frame of `finishReconciledStreamExecution`. -/
def fetchStep (t : AttemptStore cfg.maxEvents) (claimed : StreamExecution) (out : Resolution) :
    ReconcilerPhase :=
  match t.readFrames (out.terminalSequence - 1) 1 with
  | [f] => if f.sequence = out.terminalSequence ∧ f.terminal then .close claimed out f else .idle
  | _ => .idle

/-- One step of a reconciler: its next phase, the row and the stores. -/
def reconcileStep (env : ReconcileEnv) (phase : ReconcilerPhase) (row : StreamExecution)
    (store : Nat → AttemptStore cfg.maxEvents) :
    ReconcilerPhase × StreamExecution × (Nat → AttemptStore cfg.maxEvents) :=
  match phase with
  | .idle =>
    if env.observedAttempt = 0 ∨ env.runner = cfg.worker then (.idle, row, store)
    else
      match env.fault.call (updateRow (StreamExecution.claimExpired env.observedAttempt env.runner
          env.now env.lockUntil)) row with
      | (some true, row) => (.reload, row, store)
      | (_, row) => (.idle, row, store)
  | .reload => (if env.fault = .none then .tail row else .idle, row, store)
  | .tail c =>
    (if env.fault = .none then tailStep (store c.publicAttempt) c else .idle, row, store)
  | .look c rounds =>
    (if env.fault = .none then lookStep (store c.publicAttempt) c rounds else .idle, row, store)
  | .append c =>
    match env.fault.call (AttemptStore.appendFrame (unsafeFrame cfg c env.token) env.full)
        (store c.publicAttempt) with
    | (some (.ok f), t) =>
      (.own c ⟨.failed, f.sequence, statefulReplayUnsafe⟩, row,
        Function.update store c.publicAttempt t)
    | (_, t) => (.idle, row, Function.update store c.publicAttempt t)
  | .confirm c f rounds =>
    (if env.fault = .none ∧ row.ownsReconciliation c.lockedBy c.publicAttempt c.committedSequence
        env.now then .rollback c f rounds else .idle, row, store)
  | .rollback c f rounds =>
    match env.fault.call (AttemptStore.rollbackFrame f) (store c.publicAttempt) with
    | (some _, t) => (.look c rounds, row, Function.update store c.publicAttempt t)
    | (none, t) => (.idle, row, Function.update store c.publicAttempt t)
  | .own c out =>
    (if env.fault = .none ∧ row.ownsReconciliation c.lockedBy c.publicAttempt c.committedSequence
        env.now then
      if 0 < out.terminalSequence then .fetch c out else .finish c out
    else .idle, row, store)
  | .fetch c out =>
    (if env.fault = .none then fetchStep (store c.publicAttempt) c out else .idle, row, store)
  | .close c out f =>
    match env.fault.call (AttemptStore.sealFrame f) (store c.publicAttempt) with
    | (some .done, t) => (.finish c out, row, Function.update store c.publicAttempt t)
    | (_, t) => (.idle, row, Function.update store c.publicAttempt t)
  | .finish c out =>
    (.idle, (env.fault.call (updateRow (StreamExecution.finishReconciliation c.lockedBy
      c.publicAttempt out.status c.committedSequence out.terminalSequence out.error
      env.now)) row).2, store)

/-! ## The system -/

inductive Action
  | append (piece : List Char) (token : String) (full : Bool) (fault : Fault)
  | commit (now : Int) (fault : Fault)
  | check (fault : Bool)
  | rollback (fault : Fault)
  | rotate (attempt : Nat)
  | start (now : Int) (fault : Fault)
  | publish (fault : Fault)
  | finish (status : StreamExecutionStatus) (error : String) (now : Int) (fault : Fault)
  | renew (now lockUntil : Int)
  | cancel (userId tokenId : Int)
  | reconcile (id : Nat) (env : ReconcileEnv)

def step : Action → System cfg
  | .append piece token full fault => appendStep piece token full fault s
  | .commit now fault => commitStep now fault s
  | .check fault => checkStep fault s
  | .rollback fault => rollbackStep fault s
  | .rotate attempt => rotateStep attempt s
  | .start now fault => startStep now fault s
  | .publish fault => publishStep fault s
  | .finish status error now fault => finishStep status error now fault s
  | .renew now lockUntil =>
    { s with row := (updateRow (StreamExecution.renewLease cfg.worker now lockUntil) s.row).2 }
  | .cancel userId tokenId =>
    { s with row := (updateRow (StreamExecution.cancelOwned userId tokenId) s.row).2 }
  | .reconcile id env =>
    match reconcileStep env (s.reconcilers id) s.row s.store with
    | (phase, row, store) =>
      { s with row, store, reconcilers := Function.update s.reconcilers id phase }

/-- The worker has started the first attempt, and nothing else has happened. -/
structure Initial (s : System cfg) : Prop where
  active : s.row.active = true
  lockedBy : s.row.lockedBy = cfg.worker
  inAttempt : s.row.inAttempt s.writer.attempt = true
  positive : 0 < s.writer.attempt
  committed : s.row.committedSequence = 0
  terminal : s.row.terminalSequence = 0
  published : s.published = s.writer.attempt
  store : ∀ attempt, s.store attempt = .empty
  sequence : s.writer.sequence = 0
  phase : s.writer.phase = .ready
  reconcilers : ∀ id, s.reconcilers id = .idle

def freshConfig : Config where
  worker := "worker"
  maxEvents := 100
  unsafeEvent := "event: error\ndata: STATEFUL_REPLAY_UNSAFE\n\n".toList

/-- A stream in its first attempt, with a lease that ends at 5. -/
def freshSystem : System freshConfig where
  row := {
    userId := 1, tokenId := 1, status := .running, publicAttempt := 1, attemptCount := 1
    committedSequence := 0, terminalSequence := 0, lockedBy := "worker", lockedUntil := 5
    billingStatus := .none, billingSource := none, reservedQuota := 0, actualQuota := 0
    tokenConsumed := 0, extraReserved := 0, trusted := false
    subscription := ⟨0, 0, 0, 0, 0, ""⟩, error := "", expiresAt := 0 }
  published := 1
  store _ := .empty
  writer := ⟨1, 0, .ready⟩
  reconcilers _ := .idle

theorem freshSystem_initial : Initial freshSystem where
  active := rfl
  lockedBy := rfl
  inAttempt := rfl
  positive := by decide
  committed := rfl
  terminal := rfl
  published := rfl
  store _ := rfl
  sequence := rfl
  phase := rfl
  reconcilers _ := rfl

end Recovery

end NewApi
