import NewApi.Relay.Headers

/-!
# Parameter overrides and relay attempts

`ApplyParamOverrideWithRelayInfo` applies the override of the selected channel to the body of a
request. Its header operations work on a copy of the effective header override, which becomes the
runtime header override of the `RelayInfo`. `relayDirect` tries one channel after the other on one
`RelayInfo`.

`BodyLibrary` is what the override asks of the JSON libraries. The configuration is taken as
parsed.
-/

namespace NewApi.Relay

/-- The fields of an error of the relay that an override can see. -/
structure RelayError where
  statusCode : Int
  (message code errorType : String)
  skipRetry : Bool
deriving DecidableEq

/-- `ConditionOperation`. -/
structure ConditionOperation where
  (path mode : String)
  value : OverrideValue
  (invert passMissingKey : Bool)

/-- The operations on the body. -/
inductive BodyMode
  | delete | set | move | copy | prepend | append | trimPrefix | trimSuffix | ensurePrefix
  | ensureSuffix | trimSpace | toLower | toUpper | replace | regexReplace | pruneObjects
deriving DecidableEq

/-- The mode of an operation. -/
inductive OverrideMode
  | body (mode : BodyMode)
  | returnError
  | setHeader
  | deleteHeader
  | copyHeader
  | moveHeader
  | passHeaders
  | syncFields
  | unknown (mode : String)
deriving DecidableEq

/-- `ParamOperation`, with `null` for a missing value. -/
structure ParamOperation where
  path : String
  mode : OverrideMode
  value : OverrideValue
  keepOrigin : Bool
  (fromPath toPath : String)
  conditions : List ConditionOperation
  logic : String

/-- A parameter override: the fields that are set as they are, and the operations if there
are valid ones. -/
structure ParamOverride where
  fields : List (String × OverrideValue)
  operations : Option (List ParamOperation)

/-- `len(paramOverride) == 0`. -/
def ParamOverride.isEmpty (o : ParamOverride) : Bool := o.fields.isEmpty && o.operations.isNone

/-! ## Contexts -/

/-- What an override sees of earlier attempts. -/
structure RetryContext where
  retryIndex : Nat
  lastError : Option RelayError
deriving DecidableEq

/-- The request, as far as an override sees it. -/
structure RelayRequest where
  userId : Int
  (userGroup tokenGroup originModelName requestURLPath : String)
  requestHeaders : List (String × String)
  isChannelTest : Bool
deriving DecidableEq

/-- `BuildParamOverrideContext`. -/
structure OverrideContext where
  request : RelayRequest
  (usingGroup upstreamModelName : String)
  retry : RetryContext
  headers : HeaderContext

/-- What the JSON libraries do for an override. -/
structure BodyLibrary (Body : Type) where
  /-- `checkConditions` for at least one condition. -/
  checkConditions : Body → OverrideContext → List ConditionOperation → String → Except String Bool
  /-- `applyOperationsLegacy`. -/
  setFields : List (String × OverrideValue) → Body → Except String Body
  edit : BodyMode → ParamOperation → OverrideContext → Body → Except String Body
  /-- A field of the body that is neither missing nor null nor blank. -/
  get : Body → String → Option OverrideValue
  set : Body → String → OverrideValue → Except String Body
  parse : String → Option OverrideValue
  /-- The text of the error of `return_error`. -/
  returnError : OverrideValue → String

/-! ## Operations -/

/-- `syncTarget`. -/
inductive SyncTarget
  | json (path : String)
  | header (name : String)
deriving DecidableEq

/-- `parseSyncTarget`. -/
def parseSyncTarget (spec : String) : Except String SyncTarget :=
  let raw := trimSpace spec
  if raw = "" then .error "sync_fields target is required"
  else match Text.cut ':' raw.toList with
    | (_, none) => .ok (.json raw)
    | (before, some after) =>
      let kind := toLower (trimSpace (String.ofList before))
      let key := trimSpace (String.ofList after)
      if key = "" then .error ("sync_fields target key is required: " ++ raw)
      else if kind = "json" ∨ kind = "body" then .ok (.json key)
      else if kind = "header" then .ok (.header key)
      else .error ("sync_fields target prefix is invalid: " ++ raw)

section

variable {Body : Type} (lib : BodyLibrary Body) (data : Body) (context : HeaderContext)

/-- `readSyncTargetValue`. -/
def readSyncTarget : SyncTarget → Option OverrideValue
  | .json path => lib.get data path
  | .header name => (context.getHeaderValue name).map OverrideValue.str

/-- `writeSyncTargetValue`. -/
def writeSyncTarget (target : SyncTarget) (value : OverrideValue) :
    Except String (Body × HeaderContext) :=
  match target with
  | .json path => (lib.set data path value).map fun data' => (data', context)
  | .header name => (context.setHeaderOverride name value false).map fun context' =>
      (data, context')

/-- `syncFieldsBetweenTargets`. -/
def syncFields (fromSpec toSpec : String) : Except String (Body × HeaderContext) := do
  let source ← parseSyncTarget fromSpec
  let target ← parseSyncTarget toSpec
  match readSyncTarget lib data context source, readSyncTarget lib data context target with
  | some value, none => writeSyncTarget lib data context target value
  | none, some value => writeSyncTarget lib data context source value
  | _, _ => return (data, context)

/-- The source and the target of `copy_header` and `move_header`. -/
def ParamOperation.headerNames (op : ParamOperation) : String × String :=
  let source := trimSpace op.fromPath
  let target := trimSpace op.toPath
  (if source = "" then trimSpace op.path else source,
    if target = "" then trimSpace op.path else target)

def operationFailed (mode err : String) : String := "operation " ++ mode ++ " failed: " ++ err

/-- How deep `pass_headers` looks for JSON in texts of JSON. -/
def passHeadersDepth : Nat := 64

/-- The header operations, and `sync_fields`. -/
def applyHeaderOperation (op : ParamOperation) (data : Body) (context : HeaderContext) :
    Except String (Body × HeaderContext) :=
  match op.mode with
  | .setHeader =>
    ((context.setHeaderOverride op.path op.value op.keepOrigin).mapError
      (operationFailed "set_header")).map fun context' => (data, context')
  | .deleteHeader =>
    ((context.deleteHeaderOverride op.path).mapError (operationFailed "delete_header")).map
      fun context' => (data, context')
  | .copyHeader =>
    -- a source that is missing is no error
    ((context.copyHeader op.headerNames.1 op.headerNames.2 op.keepOrigin).mapError
      (operationFailed "copy_header")).map fun found => (data, found.getD context)
  | .moveHeader =>
    ((context.moveHeader op.headerNames.1 op.headerNames.2 op.keepOrigin).mapError
      (operationFailed "move_header")).map fun found => (data, found.getD context)
  | .passHeaders => do
    let names ← parseHeaderPassThroughNames lib.parse passHeadersDepth op.value
    let context' ← (context.passHeaders op.keepOrigin names).mapError
      (operationFailed "pass_headers")
    return (data, context')
  | .syncFields =>
    (syncFields lib data context op.fromPath op.toPath).mapError (operationFailed "sync_fields")
  | .returnError => .error (lib.returnError op.value)
  | .unknown mode => .error ("unknown operation: " ++ mode)
  | .body _ => .ok (data, context)

/-- `checkConditions`. -/
def checkConditions (data : Body) (context : OverrideContext) (op : ParamOperation) :
    Except String Bool :=
  if op.conditions.isEmpty then .ok true
  else lib.checkConditions data context op.conditions op.logic

/-- `applyOperations`. -/
def applyOperations (operations : List ParamOperation) (data : Body) (context : OverrideContext) :
    Except String (Body × HeaderContext) :=
  match operations with
  | [] => .ok (data, context.headers)
  | op :: operations => do
    if ← checkConditions lib data context op then
      match op.mode with
      | .body mode =>
        let data' ← lib.edit mode op context data
        applyOperations operations data' context
      | _ =>
        let (data', headers) ← applyHeaderOperation lib op data context.headers
        applyOperations operations data' { context with headers := headers }
    else applyOperations operations data context

/-- `ApplyParamOverride`. -/
def applyParamOverride (o : ParamOverride) (data : Body) (context : OverrideContext) :
    Except String (Body × HeaderContext) := do
  let data' ← if o.fields.isEmpty then pure data else lib.setFields o.fields data
  match o.operations with
  | some operations => applyOperations lib operations data' context
  | none => return (data', context.headers)

end

/-! ## Relay infos -/

/-- The configuration of a channel. -/
structure ChannelMeta where
  paramOverride : ParamOverride
  headersOverride : List (String × OverrideValue)
  upstreamModelName : String
  /-- The body is passed through, by the channel or for all channels. -/
  passThroughBody : Bool

/-- `RelayInfo`, which lives as long as the request. -/
structure RelayInfo where
  request : RelayRequest
  usingGroup : String
  channelMeta : Option ChannelMeta
  retry : RetryContext
  runtimeHeadersOverride : HeaderMap
  useRuntimeHeadersOverride : Bool

namespace RelayInfo

variable (info : RelayInfo)

/-- `InitChannelMeta`. It does not touch the runtime header override. -/
def initChannelMeta (channel : ChannelMeta) : RelayInfo := { info with channelMeta := some channel }

/-- `getHeaderOverrideMap`. -/
def getHeaderOverrideMap : List (String × OverrideValue) :=
  match info.channelMeta with
  | none => []
  | some channel => channel.headersOverride

/-- `GetEffectiveHeaderOverride`. -/
def getEffectiveHeaderOverride : HeaderMap :=
  if info.useRuntimeHeadersOverride then
    sanitizeHeaderOverrideMap info.runtimeHeadersOverride.toValues
  else sanitizeHeaderOverrideMap info.getHeaderOverrideMap

/-- `BuildParamOverrideContext`. -/
def buildParamOverrideContext : OverrideContext where
  request := info.request
  usingGroup := info.usingGroup
  upstreamModelName := match info.channelMeta with
    | none => ""
    | some channel => channel.upstreamModelName
  retry := info.retry
  headers :=
    { requestHeaders := buildRequestHeadersContext info.request.requestHeaders
      headerOverride := sanitizeHeaderOverrideMap info.getEffectiveHeaderOverride.toValues }

/-- `syncRuntimeHeaderOverrideFromContext`. -/
def syncRuntimeHeaderOverride (context : HeaderContext) : RelayInfo :=
  { info with
    runtimeHeadersOverride := sanitizeHeaderOverrideMap context.headerOverride.toValues
    useRuntimeHeadersOverride := true }

/-- `ApplyParamOverrideWithRelayInfo`. -/
def applyParamOverrideWithRelayInfo {Body : Type} (lib : BodyLibrary Body) (info : RelayInfo)
    (channel : ChannelMeta) (jsonData : Body) : Except String (Body × RelayInfo) :=
  if channel.paramOverride.isEmpty then .ok (jsonData, info)
  else do
    let (data, headers) ←
      applyParamOverride lib channel.paramOverride jsonData info.buildParamOverrideContext
    return (data, info.syncRuntimeHeaderOverride headers)

end RelayInfo

/-! ## Attempts -/

/-- An attempt: the counter of the loop, the channel that was selected, with its group, and the
request as it is converted for this channel. A selection can set the counter back. -/
structure Attempt (Body : Type) where
  retryIndex : Nat
  channel : ChannelMeta
  usingGroup : String
  jsonData : Body

/-- An attempt that failed, so that the next channel is tried. -/
structure Tried (Body : Type) extends Attempt Body where
  error : RelayError

section

variable {Body : Type} (lib : BodyLibrary Body)

/-- A turn of `relayDirect` up to the helpers. -/
def RelayInfo.enter (info : RelayInfo) (a : Attempt Body) : RelayInfo :=
  { info with
    usingGroup := a.usingGroup
    retry := ⟨a.retryIndex, info.retry.lastError⟩ }.initChannelMeta a.channel

/-- The helpers of `relayDirect` up to the request: the headers that are applied to it, or
the error of the override. -/
def RelayInfo.attempt (info : RelayInfo) (a : Attempt Body) : RelayInfo × Except String HeaderMap :=
  let info := info.enter a
  if a.channel.passThroughBody then (info, .ok info.getEffectiveHeaderOverride)
  else match info.applyParamOverrideWithRelayInfo lib a.channel a.jsonData with
    | .error err => (info, .error err)
    | .ok (_, info') => (info', .ok info'.getEffectiveHeaderOverride)

def RelayInfo.tryNext (info : RelayInfo) (t : Tried Body) : RelayInfo :=
  { (info.attempt lib t.toAttempt).1 with retry := ⟨t.retryIndex, some t.error⟩ }

/-- The `RelayInfo` of a new request. -/
def RelayInfo.new (request : RelayRequest) : RelayInfo := ⟨request, "", none, ⟨0, none⟩, [], false⟩

/-- The headers that are applied to the last attempt, after the others failed. -/
def headersSent (request : RelayRequest) (tried : List (Tried Body)) (last : Attempt Body) :
    Except String HeaderMap :=
  ((tried.foldl (RelayInfo.tryNext lib) (.new request)).attempt lib last).2

end

end NewApi.Relay
