import NewApi.Channel.Names
import NewApi.Lib.Table

/-!
# Channels and the filters of a request

A channel serves the models it lists for the groups it lists, both written as one text with
commas. A request brings filters, and a channel is a candidate for it only if it passes all
of them. The settings are here as `GetSetting` and `GetOtherSettings` read them, and the keys
as `GetKeys` reads them.
-/

namespace NewApi

open Text

inductive ChannelStatus where
  | unknown
  | enabled
  | manuallyDisabled
  | autoDisabled
deriving DecidableEq

inductive MultiKeyMode where
  | random
  | polling
  | unset
deriving DecidableEq

/-- The status of a key, by the index of the key. A key without one is enabled. -/
structure KeyStatus where
  index : Nat
  status : ChannelStatus
deriving DecidableEq

/-- The JSON column of the keys. -/
structure ChannelInfo where
  isMultiKey : Bool
  multiKeyStatusList : Table KeyStatus.index
  multiKeyPollingIndex : Nat
  multiKeyMode : MultiKeyMode
deriving DecidableEq

structure AdvancedCustomRoute where
  (incomingPath converter : List Char)
  models : List (List Char)
deriving DecidableEq

structure ChannelOtherSettings where
  routingAccount : List Char
  geminiLiveEnabled : Bool
  advancedCustom : Option (List AdvancedCustomRoute)
deriving DecidableEq

structure ChannelSettings where
  taskPluginKey : List Char
  responsesWebSocketEnabled : Bool
deriving DecidableEq

/-- The columns that routing and the keys use. -/
structure Channel where
  (id type : Nat)
  keys : List (List Char)
  status : ChannelStatus
  weight : Option Nat
  (models group : List Char)
  priority : Option Int
  autoBan : Bool
  /-- The entry `status_reason` of the other info. -/
  statusReason : Option String
  tag : List Char
  setting : ChannelSettings
  otherSettings : ChannelOtherSettings
  channelInfo : ChannelInfo
deriving DecidableEq

variable (c : Channel)

def Channel.getPriority : Int := c.priority.getD 0

def Channel.getWeight : Nat := c.weight.getD 0

def Channel.getModels : List (List Char) :=
  if c.models = [] then [] else split ',' (trim ',' c.models)

/-- `strings.Split(channel.Group, ",")`. -/
def Channel.groups : List (List Char) := split ',' c.group

/-- An enabled channel with one key and no settings. -/
def plainChannel (id : Nat) (group models : String) : Channel where
  id := id
  type := 1
  keys := ["sk".toList]
  status := .enabled
  weight := none
  models := models.toList
  group := group.toList
  priority := none
  autoBan := true
  statusReason := none
  tag := []
  setting := ⟨[], false⟩
  otherSettings := ⟨[], false, none⟩
  channelInfo := ⟨false, .empty, 0, .unset⟩

/-! ## Routes of an advanced custom channel -/

def modelPlaceholder : List Char := "\x7bmodel\x7d".toList

/-- `matchAdvancedCustomIncomingPathTemplate`. -/
def matchIncomingPathTemplate (configuredPath requestPath : List Char) : Bool :=
  match cutFirst modelPlaceholder configuredPath with
  | none => configuredPath = requestPath
  | some (before, after) =>
    if occursIn modelPlaceholder after then false
    else if before.isPrefixOf requestPath && after.isSuffixOf requestPath then
      let rest := requestPath.drop before.length
      let model := (cutSuffix after rest).getD rest
      model ≠ [] && '/' ∉ model
    else false

/-- `matchAdvancedCustomIncomingPath`. -/
def matchIncomingPath (configuredPath requestPath : List Char) : Bool :=
  matchIncomingPathTemplate configuredPath requestPath ||
    match cutFirst ":generateContent".toList configuredPath with
    | some (before, after) =>
      matchIncomingPathTemplate (before ++ ":streamGenerateContent".toList ++ after) requestPath
    | none => false

variable (cfg : NameSettings)

/-- `matchAdvancedCustomRouteModelRule`. -/
def matchRouteModelRule (rule model : List Char) : Bool :=
  match cutPrefix "re:".toList rule with
  | none => rule = model
  | some pattern => pattern ≠ [] && cfg.regexMatches pattern model

/-- `matchAdvancedCustomRouteModel`: a route without models serves all of them. -/
def matchRouteModel (models : List (List Char)) (model : List Char) : Bool :=
  let normalized := (models.map trimSpace).filter (· ≠ [])
  normalized.isEmpty || normalized.any fun rule => matchRouteModelRule cfg rule model

/-- `MatchPathForModel`. -/
def matchPathForModel (routes : Option (List AdvancedCustomRoute)) (requestPath model : List Char) :
    Option AdvancedCustomRoute :=
  (routes.getD []).find? fun route =>
    matchIncomingPath (trimSpace route.incomingPath) requestPath &&
      matchRouteModel cfg route.models (trimSpace model)

def AdvancedCustomRoute.isNative (route : AdvancedCustomRoute) : Bool :=
  trimSpace route.converter = [] || trimSpace route.converter = "none".toList

/-! ## Filters -/

inductive FilterKind where
  | requestPath
  | taskPluginIdentity
  | routingAccount
  | excludeChannelIDs
  | channelTypes
  | geminiLive
  | responsesWebSocket
deriving DecidableEq

/-- A filter with the data of its kind. -/
inductive ChannelFilter where
  | requestPath (path : List Char)
  | taskPluginIdentity (key : List Char) (keys : List (List Char)) (channelTypes : List Nat)
  | routingAccount (account : List Char)
  | excludeChannelIDs (excluded : List Nat)
  | channelTypes (allowed : List Nat)
  | geminiLive
  | responsesWebSocket
deriving DecidableEq

def ChannelFilter.kind : ChannelFilter → FilterKind
  | .requestPath _ => .requestPath
  | .taskPluginIdentity _ _ _ => .taskPluginIdentity
  | .routingAccount _ => .routingAccount
  | .excludeChannelIDs _ => .excludeChannelIDs
  | .channelTypes _ => .channelTypes
  | .geminiLive => .geminiLive
  | .responsesWebSocket => .responsesWebSocket

def filterEvalOrder : List FilterKind :=
  [.requestPath, .taskPluginIdentity, .routingAccount, .excludeChannelIDs, .channelTypes,
    .geminiLive, .responsesWebSocket]

theorem mem_filterEvalOrder (kind : FilterKind) : kind ∈ filterEvalOrder := by
  cases kind <;> decide

def channelTypeOpenAI : Nat := 1
def channelTypeCodex : Nat := 57
def channelTypeAdvancedCustom : Nat := 58
def channelTypeSub2API : Nat := 59
def channelTypeNewAPI : Nat := 60
def channelTypeTaskPlugin : Nat := 61
def channelTypeVLLM : Nat := 64
def channelTypeSGLang : Nat := 65

def isAdvancedCustomChannel (channelType : Nat) : Bool :=
  channelType ∈ [channelTypeAdvancedCustom, channelTypeVLLM, channelTypeSGLang]

/-- `channelMatchesFilter`. -/
def channelMatchesFilter (ch : Channel) (modelName : List Char) : ChannelFilter → Bool
  | .requestPath path =>
    path = [] || !isAdvancedCustomChannel ch.type ||
      (matchPathForModel cfg ch.otherSettings.advancedCustom path modelName).isSome
  | .taskPluginIdentity key keys channelTypes =>
    if ch.type = channelTypeTaskPlugin then
      key ≠ [] && (ch.setting.taskPluginKey = key || ch.setting.taskPluginKey ∈ keys)
    else key = [] || ch.type ∈ channelTypes
  | .routingAccount account =>
    trimSpace account ≠ [] && trimSpace ch.otherSettings.routingAccount = trimSpace account
  | .excludeChannelIDs excluded => ch.id ∉ excluded
  | .channelTypes allowed => ch.type ∈ allowed
  | .geminiLive => ch.otherSettings.geminiLiveEnabled
  | .responsesWebSocket =>
    ch.setting.responsesWebSocketEnabled &&
      (ch.type ∈ [channelTypeOpenAI, channelTypeCodex, channelTypeSub2API, channelTypeNewAPI] ||
        isAdvancedCustomChannel ch.type &&
          match matchPathForModel cfg ch.otherSettings.advancedCustom "/v1/responses".toList
            modelName with
          | some route => route.isNative
          | none => false)

/-- `ChannelSatisfiesFilters`, with the kind of the first filter that is not passed. -/
def channelViolatesFilter (ch : Channel) (modelName : List Char) (filters : List ChannelFilter) :
    Option FilterKind :=
  filterEvalOrder.find? fun kind =>
    (filters.filter fun filter => filter.kind = kind).any fun filter =>
      !channelMatchesFilter cfg ch modelName filter

def channelSatisfiesFilters (ch : Channel) (modelName : List Char) (filters : List ChannelFilter) :
    Bool :=
  (channelViolatesFilter cfg ch modelName filters).isNone

variable {cfg : NameSettings} {ch : Channel} {modelName : List Char} {filters : List ChannelFilter}

theorem channelSatisfiesFilters_iff :
    channelSatisfiesFilters cfg ch modelName filters = true ↔
      ∀ filter ∈ filters, channelMatchesFilter cfg ch modelName filter = true := by
  rw [channelSatisfiesFilters, Option.isNone_iff_eq_none, channelViolatesFilter, List.find?_eq_none]
  constructor
  · intro h filter hf
    by_contra hn
    refine h filter.kind (mem_filterEvalOrder _) (List.any_eq_true.mpr ⟨filter, ?_, ?_⟩)
    · exact List.mem_filter.mpr ⟨hf, by simp⟩
    · simpa using hn
  · intro h kind _ hany
    obtain ⟨filter, hf, hn⟩ := List.any_eq_true.mp hany
    rw [h filter (List.mem_of_mem_filter hf)] at hn
    cases hn

theorem channelSatisfiesFilters_exclude {excluded : List Nat} :
    channelSatisfiesFilters cfg ch modelName (filters ++ [.excludeChannelIDs excluded]) = true ↔
      channelSatisfiesFilters cfg ch modelName filters = true ∧ ch.id ∉ excluded := by
  simp only [channelSatisfiesFilters_iff, List.mem_append, List.mem_singleton]
  constructor
  · intro h
    refine ⟨fun filter hf => h filter (.inl hf), ?_⟩
    simpa [channelMatchesFilter] using h _ (.inr rfl)
  · rintro ⟨hf, hid⟩ filter (hmem | rfl)
    · exact hf filter hmem
    · simpa [channelMatchesFilter] using hid

end NewApi
