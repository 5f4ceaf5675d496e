import NewApi.Stream.Recovery

/-!
# Subscribers

A subscriber follows a stream from the cursor of its client. It waits for frames in the store,
reads the row, and writes the frames that the row shows as committed. When the row is in another
attempt it moves there, unless the client has already seen business data of the attempt it leaves.

Each of these is a step of its own. A subscriber changes nothing that the others read, so one
subscriber stands for all of them.
-/

namespace NewApi

namespace Recovery

open Text

variable {cfg : Config}

/-! ## The cursor -/

/-- The headers of a subscriber. -/
structure SubscriberRequest where
  /-- `Last-Event-ID`. -/
  lastEventId : List Char
  /-- `StreamRecoveryAttemptHeader`. -/
  attemptHeader : List Char

def parseSequence (text : List Char) : Nat :=
  match parseInt text with
  | some n => if n < 0 then 0 else n.toNat
  | none => 0

/-- `streamRecoveryResumeSequence`. -/
def streamRecoveryResumeSequence (request : SubscriberRequest) (attempt : Nat) : Nat :=
  let value := trimSpace request.lastEventId
  match cut ':' value with
  | (cursorAttempt, some cursorSequence) =>
    if parseInt cursorAttempt = some (attempt : Int) then parseSequence cursorSequence else 0
  | (_, none) =>
    let header := trimSpace request.attemptHeader
    if header = [] then
      if attempt = 1 then parseSequence value else 0
    else if parseInt header = some (attempt : Int) then parseSequence value else 0

/-! ## Business data of an attempt -/

/-- What a read of `HasBusinessOutputThrough` finds. -/
inductive Scan
  | incomplete
  | business
  | clear
  | more (after : Nat)
deriving DecidableEq

/-- The frames of one read, from the one after `after` on. -/
def scanFrames (through : Nat) : Nat → List StreamRecoveryFrame → Scan
  | after, [] => .more after
  | after, f :: rest =>
    if f.sequence ≠ after + 1 ∨ through < f.sequence then .incomplete
    else if streamRecoveryFrameHasBusinessData f.data then .business
    else if f.sequence = through then .clear
    else scanFrames through (after + 1) rest

/-- One read of `HasBusinessOutputThrough`. -/
def scanBatch (t : AttemptStore cfg.maxEvents) (through after : Nat) : Scan :=
  match t.readFrames after (min 256 (through - after)) with
  | [] => .incomplete
  | f :: rest => scanFrames through after (f :: rest)

/-! ## The subscriber -/

/-- What a subscriber writes to its client. -/
inductive Output
  | frame (attempt : Nat) (frame : StreamRecoveryFrame)
  | failure (message : String)
deriving DecidableEq

inductive SubscriberPhase
  /-- The published attempt is read next. The row was read before, with this
  public attempt. -/
  | opening (snapshot : Nat)
  | polling
  | sleeping
  | waiting
  | loading (frames : List StreamRecoveryFrame)
  /-- The next of these frames is written, as far as the row shows it as
  committed. -/
  | writing (frames : List StreamRecoveryFrame) (current : StreamExecution) (wroteFrame : Bool)
  /-- The row is in the attempt `next`. The old attempt is searched for business
  data, up to `after` so far. -/
  | checkingOld (next after : Nat)
  | checkingNew (after : Nat)
  | done
deriving DecidableEq

structure Subscriber where
  request : SubscriberRequest
  (attempt sequence : Nat)
  businessOutput : Bool
  phase : SubscriberPhase
  output : List Output

namespace Subscriber

/-- A subscriber that has read the row with this public attempt. -/
def opened (request : SubscriberRequest) (snapshot : Nat) : Subscriber :=
  ⟨request, 0, 0, false, .opening snapshot, []⟩

variable (b : Subscriber)

def stop : Subscriber := { b with phase := .done }

/-- `writeStreamRecoveryError` and `writeStreamRecoverySubscriptionError`. -/
def fail (b : Subscriber) (message : String) : Subscriber :=
  { b with phase := .done, output := b.output ++ [.failure message] }

def enter (attempt : Nat) : Subscriber :=
  { b with
    attempt := attempt
    sequence := streamRecoveryResumeSequence b.request attempt
    businessOutput := false
    phase := .waiting }

def switchTo (attempt : Nat) : Subscriber :=
  { b with
    attempt := attempt
    sequence := streamRecoveryResumeSequence b.request attempt
    businessOutput := false
    phase := if 0 < streamRecoveryResumeSequence b.request attempt then .checkingNew 0
      else .waiting }

def endBatch (current : StreamExecution) (wroteFrame : Bool) (now : Int) : Subscriber :=
  if wroteFrame = false ∧ b.sequence < current.committedSequence then
    b.fail "stream recovery committed frames are unavailable"
  else if current.status = .completed ∨ current.status = .failed ∨ current.status = .cancelled then
    if b.sequence = 0 ∧ current.committedSequence = 0 then
      b.fail "stream recovery terminated without a committed frame"
    else b.stop
  else if 0 < current.lockedUntil ∧ current.lockedUntil < now then b.stop
  else { b with phase := .waiting }

def write (f : StreamRecoveryFrame) (rest : List StreamRecoveryFrame) (current : StreamExecution) :
    Subscriber :=
  { b with
    sequence := f.sequence
    businessOutput := b.businessOutput || streamRecoveryFrameHasBusinessData f.data
    phase := if f.terminal then .done else .writing rest current true
    output := b.output ++ [.frame b.attempt f] }

end Subscriber

/-- What the environment decides about a step of a subscriber. -/
structure SubscriberEnv where
  now : Int
  fault : Option String
  cancelled : Bool

def subscriberStep (env : SubscriberEnv) (s : System cfg) (b : Subscriber) : Subscriber :=
  match b.phase with
  | .opening snapshot =>
    let attempt := if env.fault.isSome ∨ s.published = 0 then snapshot else s.published
    if attempt = 0 then { b with phase := .polling } else b.enter attempt
  | .polling =>
    match env.fault with
    | some error => b.fail error
    | none =>
      if 0 < s.row.publicAttempt then b.enter s.row.publicAttempt
      else if s.row.status = .completed ∨ s.row.status = .failed ∨ s.row.status = .cancelled ∨
          s.row.lockedUntil < env.now then
        b.fail "stream recovery terminated before an attempt was published"
      else { b with phase := .sleeping }
  | .sleeping =>
    if env.cancelled then b.stop
    else if env.fault.isSome ∨ s.published = 0 then { b with phase := .polling }
    else b.enter s.published
  | .waiting =>
    if env.fault.isSome ∨ env.cancelled then b.stop
    else { b with phase := .loading ((s.store b.attempt).readFrames b.sequence 256) }
  | .loading frames =>
    if env.fault.isSome then b.stop
    else if 0 < s.row.publicAttempt ∧ s.row.publicAttempt ≠ b.attempt then
      if b.businessOutput = false ∧ 0 < b.sequence then
        { b with phase := .checkingOld s.row.publicAttempt 0 }
      else if b.businessOutput then b.stop
      else b.switchTo s.row.publicAttempt
    else { b with phase := .writing frames s.row false }
  | .writing [] current wroteFrame => b.endBatch current wroteFrame env.now
  | .writing (f :: rest) current wroteFrame =>
    if current.committedSequence < f.sequence then b.endBatch current wroteFrame env.now
    else if f.sequence ≠ b.sequence + 1 then
      b.fail "stream recovery committed frame sequence is unavailable"
    else if env.fault.isSome then b.stop
    else b.write f rest current
  | .checkingOld next after =>
    if env.fault.isSome then b.stop
    else
      match scanBatch (s.store b.attempt) b.sequence after with
      | .incomplete | .business => b.stop
      | .clear => b.switchTo next
      | .more after => { b with phase := .checkingOld next after }
  | .checkingNew after =>
    if env.fault.isSome then b.stop
    else
      match scanBatch (s.store b.attempt) b.sequence after with
      | .incomplete => b.stop
      | .business => { b with businessOutput := true, phase := .waiting }
      | .clear => { b with phase := .waiting }
      | .more after => { b with phase := .checkingNew after }
  | .done => b

/-! ## A stream with a subscriber -/

structure Delivery (cfg : Config) where
  system : System cfg
  subscriber : Subscriber

inductive DeliveryAction
  | party (a : Action)
  | subscriber (env : SubscriberEnv)

/-- One step of one party or of the subscriber. -/
def deliver (t : Delivery cfg) : DeliveryAction → Delivery cfg
  | .party a => { t with system := step t.system a }
  | .subscriber env => { t with subscriber := subscriberStep env t.system t.subscriber }

/-- The frames of one attempt among what was written. -/
def written (attempt : Nat) : List Output → List StreamRecoveryFrame
  | [] => []
  | .frame a f :: rest => if a = attempt then f :: written attempt rest else written attempt rest
  | .failure _ :: rest => written attempt rest

end Recovery

end NewApi
