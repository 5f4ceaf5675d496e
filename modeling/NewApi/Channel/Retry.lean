import NewApi.Channel.Candidates

/-!
# The retry loop of a relayed request

`relayDirect` tries the first channel of a request and, as long as the attempts fail in a way that
may be retried, selects another one. How far a retry goes is kept in the counter of `RetryParam`,
the group index in the context and the attempt of the stream's writer. The counter is the index
of a priority: for `auto` in one of the groups, with orchestration on a path made before the loop.

`Iteration` holds what a turn of the loop finds outside.
-/

namespace NewApi

/-- The group whose requests go through several groups. -/
def autoGroup : List Char := "auto".toList

/-- `MaxAdaptiveChannelAttempts`. -/
def maxAdaptiveChannelAttempts : Nat := 5

/-- The settings of the loop. -/
structure RetrySettings where
  /-- `common.RetryTimes`. -/
  retryTimes : Int
  orchestrationEnabled : Bool

/-- What the request brings. -/
structure RetryRequest where
  (tokenGroup modelName : List Char)
  filters : List ChannelFilter
  /-- `GetRequestAutoGroups`. -/
  autoGroups : List (List Char)
  crossGroupRetry : Bool

/-- The columns of a managed upstream route that a selection reads. Each channel has one route
at most. -/
structure UpstreamManagedRoute where
  (sourceID channelID : Nat)
  detached : Bool
deriving DecidableEq

/-- The tables a selection reads and the number it draws. -/
structure Lookup where
  routing : Routing
  routes : Table UpstreamManagedRoute.channelID
  random : Nat

structure RetryParam where
  retry : Nat
  priorityPath : List Int
  attemptedChannelIDs : List Nat
  attemptedSourceIDs : List Nat
  resetNextTry : Bool
deriving DecidableEq

def RetryParam.start : RetryParam := ⟨0, [], [], [], false⟩

def RetryParam.increaseRetry (param : RetryParam) : RetryParam :=
  if param.resetNextTry then { param with resetNextTry := false }
  else { param with retry := param.retry + 1 }

/-- A selected channel with its group. The index of the group among the groups of the request
is not returned by the code. -/
structure Selected where
  channel : Channel
  group : List Char
  groupIndex : Nat
deriving DecidableEq

namespace Lookup

/-- `managedRouteForChannel`. -/
def managedRouteForChannel (look : Lookup) (channelID : Nat) : Option UpstreamManagedRoute :=
  (look.routes.find channelID).filter fun route => !route.detached

def source (look : Lookup) (channelID : Nat) : Option Nat :=
  (look.managedRouteForChannel channelID).map UpstreamManagedRoute.sourceID

/-- `GetRandomSatisfiedChannel` with its error dropped. -/
def channel (look : Lookup) (req : RetryRequest) (group : List Char) (retry : Nat) :
    Option Channel :=
  match look.routing.getRandomSatisfiedChannel group req.modelName retry req.filters
    look.random with
  | .ok channel => channel
  | .error _ => none

/-- `retryExcludedChannelIDs` with the sources. -/
def retryExcludedChannelIDs (look : Lookup) (param : RetryParam) : List Nat :=
  if param.attemptedSourceIDs = [] then param.attemptedChannelIDs
  else param.attemptedChannelIDs ++
    ((look.routes.rows.filter fun route =>
      route.sourceID ∈ param.attemptedSourceIDs && !route.detached &&
        route.channelID ∉ param.attemptedChannelIDs).map UpstreamManagedRoute.channelID)

end Lookup

def withExcludedChannelIDs (filters : List ChannelFilter) (channelIDs : List Nat) :
    List ChannelFilter :=
  if channelIDs = [] then filters else filters ++ [.excludeChannelIDs channelIDs]

namespace Lookup

variable (look : Lookup)

/-- A draw at a priority with some channels excluded. -/
def channelExcluding (req : RetryRequest) (priority : Int) (excluded : List Nat) :
    Except String (Option Channel) :=
  look.routing.getRandomSatisfiedChannelAtPriority req.tokenGroup req.modelName priority
    (withExcludedChannelIDs req.filters excluded) look.random

def selectDiverseChannelAtPriority (req : RetryRequest) (param : RetryParam) (priority : Int) :
    Except String (Option Channel) :=
  match look.channelExcluding req priority (look.retryExcludedChannelIDs param) with
  | .error e => .error e
  | .ok (some channel) => .ok (some channel)
  | .ok none =>
    if param.attemptedSourceIDs = [] then .ok none
    else look.channelExcluding req priority param.attemptedChannelIDs

/-- `rememberRetryChannel`. -/
def rememberRetryChannel (param : RetryParam) (channel : Channel) : RetryParam :=
  let param := { param with attemptedChannelIDs := param.attemptedChannelIDs ++ [channel.id] }
  match look.source channel.id with
  | none => param
  | some sourceID =>
    if sourceID ∈ param.attemptedSourceIDs then param
    else { param with attemptedSourceIDs := param.attemptedSourceIDs ++ [sourceID] }

end Lookup

/-- What the selector has left behind: the parameter and the group index of the context. -/
structure RetryProgress where
  param : RetryParam
  autoGroupIndex : Option Nat
deriving DecidableEq

/-- The loop of `CacheGetRandomSatisfiedChannel` over the groups from `startGroupIndex` on. -/
def selectAutoGroup (cfg : RetrySettings) (req : RetryRequest) (look : Lookup)
    (startGroupIndex : Nat) : Nat → List (List Char) → RetryProgress →
      Option Selected × RetryProgress
  | _, [], p => (none, p)
  | i, group :: rest, p =>
    let priorityRetry := if startGroupIndex < i then 0 else p.param.retry
    match look.channel req group priorityRetry with
    | none => selectAutoGroup cfg req look startGroupIndex (i + 1) rest
        ⟨{ p.param with retry := 0 }, some (i + 1)⟩
    | some channel =>
      if req.crossGroupRetry && decide (cfg.retryTimes ≤ priorityRetry) then
        (some ⟨channel, group, i⟩,
          ⟨{ p.param with retry := 0, resetNextTry := true }, some (i + 1)⟩)
      else (some ⟨channel, group, i⟩, ⟨p.param, some i⟩)

variable (cfg : RetrySettings)

/-- The channel that `CacheGetRandomSatisfiedChannel` selects, before it is remembered. -/
def selectSatisfiedChannel (req : RetryRequest) (look : Lookup) (p : RetryProgress) :
    Except String (Option Selected) × RetryProgress :=
  if req.tokenGroup = autoGroup then
    if req.autoGroups = [] then (.error "auto groups is not enabled", p)
    else
      let start := p.autoGroupIndex.getD 0
      let (selected, p) := selectAutoGroup cfg req look start start (req.autoGroups.drop start) p
      (.ok selected, p)
  else
    let found :=
      if p.param.priorityPath ≠ [] then
        match p.param.priorityPath[p.param.retry]? with
        | none => .ok none
        | some priority => look.selectDiverseChannelAtPriority req p.param priority
      else
        (look.routing.listSatisfiedChannelPriorities req.tokenGroup req.modelName
          req.filters).bind fun priorities =>
            match priorities[min p.param.retry (priorities.length - 1)]? with
            | none => .ok none
            | some priority => look.channelExcluding req priority []
    (found.map fun channel => channel.map fun c => ⟨c, req.tokenGroup, 0⟩, p)

variable (req : RetryRequest)

/-- `CacheGetRandomSatisfiedChannel`. -/
def cacheGetRandomSatisfiedChannel (look : Lookup) (p : RetryProgress) :
    Except String (Option Selected) × RetryProgress :=
  match selectSatisfiedChannel cfg req look p with
  | (.ok (some selected), p) =>
    (.ok (some selected), { p with param := look.rememberRetryChannel p.param selected.channel })
  | (found, p) => (found, p)

/-! ## The bound of the loop -/

variable (look : Lookup)

/-- The sources of the managed channels at a priority get one attempt each. -/
def attemptsAtPriority (priority : Int) : Nat :=
  match look.routing.listSatisfiedChannelIDsAtPriority req.tokenGroup req.modelName priority
    req.filters with
  | .ok channelIDs => max 1 (channelIDs.filterMap look.source).dedup.length
  | .error _ => 1

/-- `expandManagedPriorityPath`. -/
def expandManagedPriorityPath (priorities : List Int) : List Int :=
  (priorities.flatMap fun priority =>
    List.replicate (attemptsAtPriority req look priority) priority).take
      maxAdaptiveChannelAttempts

/-- `AdaptiveRetryTimes`, with the priority of the first channel. -/
def adaptiveRetryTimes (channelPriority : Int) (param : RetryParam) : Int × RetryParam :=
  if req.tokenGroup = autoGroup then (min cfg.retryTimes (maxAdaptiveChannelAttempts - 1), param)
  else
    match look.routing.listSatisfiedChannelPriorities req.tokenGroup req.modelName
      req.filters with
    | .error _ => (0, param)
    | .ok [] => (0, param)
    | .ok priorities =>
      let priorities :=
        if channelPriority ∈ priorities then priorities.dropWhile (· ≠ channelPriority)
        else priorities
      let path := expandManagedPriorityPath req look priorities
      (min ((path.length : Int) - 1) (maxAdaptiveChannelAttempts - 1),
        { param with priorityPath := path })

/-- `capStreamRecoveryRetries`. -/
def capStreamRecoveryRetries (maxAttempts attempt maxRetries : Int) : Int :=
  if maxAttempts - attempt < 0 then 0 else min maxRetries (maxAttempts - attempt)

/-! ## The loop -/

/-- What a turn of the loop finds. -/
structure Iteration where
  look : Lookup
  deadlinePassed : Bool
  /-- `SetupContextForSelectedChannel` fails. -/
  setupFails : Bool
  (markFails startFails prepareFails : Bool)
  /-- The attempt fails with an error that is retried whatever the budget. -/
  channelError : Bool

/-- An attempt upstream, with the attempt number current in the writer. -/
structure UpstreamAttempt where
  selected : Selected
  writerAttempt : Option Nat
deriving DecidableEq

/-- What stays the same during the loop. -/
structure RelayRun where
  cfg : RetrySettings
  req : RetryRequest
  first : Selected
  maxRetries : Int
  /-- `recoveryBaseAttempt`. -/
  base : Nat

/-- The state of the loop, with what was called so far. -/
structure RelayLoop where
  progress : RetryProgress
  channelMeta : Bool
  writer : Option Nat
  running : Bool
  attempts : List UpstreamAttempt
  /-- The calls of `RotateAttempt`: the attempt before and the one asked for. -/
  rotated : List (Nat × Nat)
  /-- The calls of `StartStreamExecutionAttempt`: the attempt and the channel. -/
  started : List (Nat × Nat)
deriving DecidableEq

namespace RelayLoop

def stop (s : RelayLoop) : RelayLoop := { s with running := false }

variable (r : RelayRun)

/-- `getChannel`. Nothing is returned if there is an error. -/
def getChannel (it : Iteration) (s : RelayLoop) : Option Selected × RelayLoop :=
  if !s.channelMeta then (some r.first, { s with channelMeta := true })
  else
    match cacheGetRandomSatisfiedChannel r.cfg r.req it.look s.progress with
    | (.ok (some selected), p) =>
      (if it.setupFails then none else some selected, { s with progress := p })
    | (_, p) => (none, { s with progress := p })

/-- The writer goes on to the attempt that the counter gives, if it is another one. A smaller
one is refused. -/
def rotate (r : RelayRun) (it : Iteration) (selected : Selected) (s : RelayLoop) : RelayLoop :=
  match s.writer with
  | none => s
  | some current =>
    let attempt := r.base + s.progress.param.retry
    if attempt = current then if it.startFails then s.stop else s
    else if it.markFails then s.stop
    else
      let s := { s with rotated := s.rotated ++ [(current, attempt)] }
      if attempt ≤ current then s.stop
      else
        let s := { s with
          writer := some attempt
          started := s.started ++ [(attempt, selected.channel.id)] }
        if it.startFails then s.stop else s

/-- The attempt, its failure and `retryDecision`. -/
def attempt (r : RelayRun) (it : Iteration) (selected : Selected) (s : RelayLoop) : RelayLoop :=
  if it.prepareFails then s.stop
  else
    let s := { s with attempts := s.attempts ++ [UpstreamAttempt.mk selected s.writer] }
    if it.channelError || decide (0 < r.maxRetries - s.progress.param.retry) then
      { s with progress := { s.progress with param := s.progress.param.increaseRetry } }
    else s.stop

def outOfTime (it : Iteration) (s : RelayLoop) : Bool :=
  decide (0 < s.progress.param.retry) && r.cfg.orchestrationEnabled && it.deadlinePassed

def step (s : RelayLoop) (it : Iteration) : RelayLoop :=
  if !s.running then s
  else if r.maxRetries < s.progress.param.retry then s.stop
  else if s.outOfTime r it then s.stop
  else
    match s.getChannel r it with
    | (none, s) => s.stop
    | (some selected, s) =>
      let s := s.rotate r it selected
      if s.running then s.attempt r it selected else s

def start (p : RetryProgress) (writer : Option Nat) : RelayLoop :=
  ⟨p, false, writer, true, [], [], []⟩

end RelayLoop

/-! ## The whole request -/

/-- `SelectChannelForRequest` without a pin and without affinity: the channel, and the group
index it leaves in the context. -/
def selectChannelForRequest : Option (Selected × Option Nat) :=
  match cacheGetRandomSatisfiedChannel cfg req look ⟨.start, none⟩ with
  | (.ok (some selected), p) =>
    if channelSatisfiesFilters look.routing.names selected.channel req.modelName req.filters then
      some (selected, p.autoGroupIndex)
    else none
  | _ => none

/-- `relayDirect` up to its loop, after the distributor has chosen the first channel. -/
def relayDirect (first : Selected) (autoGroupIndex : Option Nat) (writer : Option Nat)
    (maxAttempts : Int) : RelayRun × RelayLoop :=
  let (maxRetries, param) :=
    if req.tokenGroup = autoGroup || cfg.orchestrationEnabled then
      adaptiveRetryTimes cfg req look first.channel.getPriority .start
    else (cfg.retryTimes, .start)
  let maxRetries :=
    match writer with
    | none => maxRetries
    | some attempt => capStreamRecoveryRetries maxAttempts attempt maxRetries
  (⟨cfg, req, first, maxRetries, writer.getD 0⟩, .start ⟨param, autoGroupIndex⟩ writer)

end NewApi
