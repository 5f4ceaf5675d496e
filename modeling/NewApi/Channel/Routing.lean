import Mathlib.Data.List.Sort
import NewApi.Channel.Row

/-!
# The two ways to find a channel

`UpdateAbilities` writes a row for every group and model of a channel, and without the memory
cache the rows are queried. With it `InitChannelCache` makes a list of ids for every group and
model. Both ways first look under the name of the request and then under another name.

A group that no ability has is missing in the outer map, and the write into it panics.
-/

namespace NewApi

open Text

/-! ## Abilities -/

structure Ability where
  (group model : List Char)
  channelId : Nat
  enabled : Bool
  priority : Option Int
  weight : Nat
deriving DecidableEq

def Ability.getPriority (a : Ability) : Int := a.priority.getD 0

variable (c : Channel)

/-- The groups and models of a channel, as `UpdateAbilities` goes through them. -/
def Channel.pairs : List (List Char × List Char) :=
  c.getModels.flatMap fun model => c.groups.map fun group => (group, model)

def abilityKey (pair : List Char × List Char) : List Char := pair.1 ++ '|' :: pair.2

def firstPairs (abilitySet : List (List Char)) :
    List (List Char × List Char) → List (List Char × List Char)
  | [] => []
  | pair :: rest =>
    if abilityKey pair ∈ abilitySet then firstPairs abilitySet rest
    else pair :: firstPairs (abilityKey pair :: abilitySet) rest

theorem mem_firstPairs {abilitySet : List (List Char)} {pair : List Char × List Char}
    {pairs : List (List Char × List Char)}
    (h : ∀ p ∈ pairs, ∀ q ∈ pairs, abilityKey p = abilityKey q → p = q) :
    pair ∈ firstPairs abilitySet pairs ↔ pair ∈ pairs ∧ abilityKey pair ∉ abilitySet := by
  induction pairs generalizing abilitySet with
  | nil => exact ⟨fun hp => absurd hp List.not_mem_nil, fun hp => absurd hp.1 List.not_mem_nil⟩
  | cons first rest ih =>
    have hrest := fun set => @ih set fun p hp q hq =>
      h p (List.mem_cons_of_mem _ hp) q (List.mem_cons_of_mem _ hq)
    have hfirst : pair ∈ rest → abilityKey pair = abilityKey first → pair = first :=
      fun hp => h pair (List.mem_cons_of_mem _ hp) first List.mem_cons_self
    show pair ∈ (if abilityKey first ∈ abilitySet then firstPairs abilitySet rest
      else first :: firstPairs (abilityKey first :: abilitySet) rest) ↔ _
    rw [List.mem_cons]
    split
    next hin =>
      rw [hrest]
      exact and_congr_left fun hnot => (or_iff_right (by rintro rfl; exact hnot hin)).symm
    next hnot =>
      rw [List.mem_cons, hrest, List.mem_cons, not_or]
      constructor
      · rintro (rfl | ⟨hp, -, hset⟩)
        · exact ⟨.inl rfl, hnot⟩
        · exact ⟨.inr hp, hset⟩
      · rintro ⟨rfl | hp, hset⟩
        · exact .inl rfl
        · exact or_iff_not_imp_left.mpr fun hne => ⟨hp, fun hkey => hne (hfirst hp hkey), hset⟩

def Channel.ability (pair : List Char × List Char) : Ability where
  group := pair.1
  model := pair.2
  channelId := c.id
  enabled := c.status = .enabled
  priority := c.priority
  weight := c.getWeight

/-- The rows that `UpdateAbilities` inserts. -/
def Channel.abilities : List Ability := (firstPairs [] c.pairs).map c.ability

structure ChannelDb where
  channels : Table Channel.id
  abilities : List Ability

/-! ## Routing by the database -/

def sortPriorities (priorities : List Int) : List Int := priorities.dedup.insertionSort (· ≥ ·)

/-- Goes through the weights until the drawn number is used up. -/
def pickWeighted {α : Type} (weight : α → Nat) (done : Nat → Nat → Bool) : List α → Nat → Option α
  | [], _ => none
  | x :: rest, drawn =>
    if done drawn (weight x) then some x
    else pickWeighted weight done rest (drawn - weight x)

namespace ChannelDb

variable (db : ChannelDb)

def enabledAbilities (group model : List Char) : List Ability :=
  db.abilities.filter fun a => a.group = group && a.model = model && a.enabled

variable (cfg : NameSettings)

/-- `filterAbilitiesByConstraints`. An ability of no channel is dropped. -/
def filterAbilitiesByConstraints (abilities : List Ability) (modelName : List Char)
    (filters : List ChannelFilter) : List Ability :=
  abilities.filter fun a =>
    match db.channels.find a.channelId with
    | some channel => channelSatisfiesFilters cfg channel modelName filters
    | none => false

/-- The other name is tried before the filters. -/
def getEligibleAbilities (group modelName : List Char) (filters : List ChannelFilter) :
    List Ability :=
  let abilities := db.enabledAbilities group modelName
  let abilities :=
    if abilities = [] then db.enabledAbilities group (formatMatchingModelName modelName)
    else abilities
  db.filterAbilitiesByConstraints cfg abilities modelName filters

def listChannelPriorities (group modelName : List Char) (filters : List ChannelFilter) : List Int :=
  sortPriorities ((db.getEligibleAbilities cfg group modelName filters).map Ability.getPriority)

def abilitiesAtPriority (group modelName : List Char) (priority : Int)
    (filters : List ChannelFilter) : List Ability :=
  (db.getEligibleAbilities cfg group modelName filters).filter fun a => a.getPriority = priority

def listChannelIDsAtPriority (group modelName : List Char) (priority : Int)
    (filters : List ChannelFilter) : List Nat :=
  ((db.abilitiesAtPriority cfg group modelName priority filters).map Ability.channelId).dedup

/-- `GetChannelAtPriority`. The number drawn is below the sum of the weights. -/
def getChannelAtPriority (group modelName : List Char) (priority : Int)
    (filters : List ChannelFilter) (random : Nat) : Except String (Option Channel) :=
  let targetAbilities := db.abilitiesAtPriority cfg group modelName priority filters
  if targetAbilities = [] then .ok none
  else
    let weightSum := (targetAbilities.map fun a => a.weight + 10).sum
    let chosen := pickWeighted (fun a : Ability => a.weight + 10)
      (fun drawn weight => drawn ≤ weight)
      targetAbilities (random % weightSum)
    match db.channels.find ((chosen.map Ability.channelId).getD 0) with
    | some channel => .ok (some channel)
    | none => .error "record not found"

/-- `isChannelEnabledForGroupModelDB`. -/
def isChannelEnabledForGroupModel (group modelName : List Char) (channelID : Nat) : Bool :=
  let normalized := routingMatchModelName cfg modelName
  (db.enabledAbilities group modelName).any (fun a => a.channelId = channelID) ||
    (normalized ≠ [] && normalized ≠ modelName &&
      (db.enabledAbilities group normalized).any fun a => a.channelId = channelID)

end ChannelDb

/-! ## The memory cache -/

structure ChannelCache where
  group2model2channels : List Char → List Char → List Nat
  channelsIDM : Table Channel.id

/-- Before the first `InitChannelCache`. -/
def ChannelCache.empty : ChannelCache := ⟨fun _ _ => [], .empty⟩

/-- The groups and models under which `InitChannelCache` lists a channel, with repetitions. -/
def Channel.listed (c : Channel) : List (List Char × List Char) :=
  if c.status = .enabled then c.groups.flatMap fun group => c.getModels.map fun m => (group, m)
  else []

/-- The ids of a group and model, in the order in which they are appended. -/
def appendedIDs (channels : List Channel) (group model : List Char) : List Nat :=
  channels.flatMap fun c => (c.listed.filter (· = (group, model))).map fun _ => c.id

/-- The priority of a cached channel; every listed id has one. -/
def ChannelCache.priorityOf (idm : Table Channel.id) (id : Nat) : Int :=
  ((idm.find id).map Channel.getPriority).getD 0

variable (old : Table Channel.id)

/-- The polling index of a channel survives the rebuild. -/
def keepPollingIndex (c : Channel) : Channel :=
  if c.channelInfo.isMultiKey && c.channelInfo.multiKeyMode = .polling then
    match old.find c.id with
    | some oldChannel =>
      if oldChannel.channelInfo.isMultiKey && oldChannel.channelInfo.multiKeyMode = .polling then
        { c with channelInfo :=
          { c.channelInfo with
            multiKeyPollingIndex := oldChannel.channelInfo.multiKeyPollingIndex } }
      else c
    | none => c
  else c

theorem keepPollingIndex_eq (c : Channel) :
    ∃ index, keepPollingIndex old c =
      { c with channelInfo := { c.channelInfo with multiKeyPollingIndex := index } } := by
  unfold keepPollingIndex
  split
  · split
    · split <;> exact ⟨_, rfl⟩
    · exact ⟨_, rfl⟩
  · exact ⟨_, rfl⟩

theorem keepPollingIndex_id (c : Channel) : (keepPollingIndex old c).id = c.id := by
  obtain ⟨info, h⟩ := keepPollingIndex_eq old c
  rw [h]

/-- `InitChannelCache`. There is no cache if the write into a missing group panics. -/
def initChannelCache (db : ChannelDb) (old : ChannelCache) : Option ChannelCache :=
  if db.channels.rows.any fun c => c.listed.any fun pair =>
      !(db.abilities.any fun a => a.group = pair.1) then none
  else some
    { group2model2channels := fun group model =>
        (appendedIDs db.channels.rows group model).insertionSort fun i j =>
          ChannelCache.priorityOf db.channels i ≥ ChannelCache.priorityOf db.channels j
      channelsIDM := db.channels.update (keepPollingIndex old.channelsIDM)
        (keepPollingIndex_id old.channelsIDM) }

/-- `CacheUpdateChannelStatus`. One occurrence of the id is removed from each list. -/
def ChannelCache.updateChannelStatus (cache : ChannelCache) (id : Nat) (status : ChannelStatus) :
    ChannelCache where
  channelsIDM :=
    match cache.channelsIDM.find id with
    | some channel => cache.channelsIDM.save { channel with status }
    | none => cache.channelsIDM
  group2model2channels :=
    if status ≠ .enabled then fun group model => (cache.group2model2channels group model).erase id
    else cache.group2model2channels

/-- `CacheUpdateChannel`. -/
def ChannelCache.updateChannel (cache : ChannelCache) (channel : Channel) : ChannelCache :=
  { cache with channelsIDM := cache.channelsIDM.put channel }

/-! ## Routing by the cache -/

/-- `candidatePassesKindFilters`. -/
def candidatePassesKindFilters (cfg : NameSettings) (ch : Option Channel) (modelName : List Char)
    (kind : FilterKind) (filters : List ChannelFilter) : Bool :=
  match ch with
  | none => kind = .requestPath
  | some ch => filters.all fun filter => channelMatchesFilter cfg ch modelName filter

/-- `filterCandidateIDs`, one kind after the other. -/
def filterCandidateIDs (cfg : NameSettings) (idm : Table Channel.id) (modelName : List Char)
    (filters : List ChannelFilter) (ids : List Nat) : List Nat :=
  filterEvalOrder.foldl (fun kept kind =>
    let kindFilters := filters.filter fun filter => filter.kind = kind
    if kindFilters = [] then kept
    else kept.filter fun id =>
      candidatePassesKindFilters cfg (idm.find id) modelName kind kindFilters) ids

def inconsistent (channelID : Nat) : String := s!"数据库一致性错误，渠道# {channelID} 不存在，请联系管理员修复"

/-- The loop over the ids that stops at an id without a channel. -/
def lookupChannels (idm : Table Channel.id) : List Nat → Except String (List Channel)
  | [] => .ok []
  | id :: rest =>
    match idm.find id with
    | none => .error (inconsistent id)
    | some channel => (lookupChannels idm rest).map (channel :: ·)

namespace ChannelCache

variable (cache : ChannelCache) (cfg : NameSettings)

/-- `cachedSatisfiedChannelIDs`. The other name is tried after the filters. -/
def cachedSatisfiedChannelIDs (group model : List Char) (filters : List ChannelFilter) : List Nat :=
  let channels := filterCandidateIDs cfg cache.channelsIDM model filters
    (cache.group2model2channels group model)
  if channels = [] then
    filterCandidateIDs cfg cache.channelsIDM model filters
      (cache.group2model2channels group (routingMatchModelName cfg model))
  else channels

def satisfiedChannels (group model : List Char) (filters : List ChannelFilter) :
    Except String (List Channel) :=
  lookupChannels cache.channelsIDM (cache.cachedSatisfiedChannelIDs cfg group model filters)

def listSatisfiedChannelPriorities (group model : List Char) (filters : List ChannelFilter) :
    Except String (List Int) :=
  (cache.satisfiedChannels cfg group model filters).map fun channels =>
    sortPriorities (channels.map Channel.getPriority)

def listSatisfiedChannelIDsAtPriority (group model : List Char) (priority : Int)
    (filters : List ChannelFilter) : Except String (List Nat) :=
  (cache.satisfiedChannels cfg group model filters).map fun channels =>
    (channels.filter fun c => c.getPriority = priority).map Channel.id

/-- The factor and the addend that the weights of the channels are smoothed with. -/
def smoothing (channels : List Channel) : Nat × Nat :=
  let sumWeight := (channels.map Channel.getWeight).sum
  if sumWeight = 0 then (1, 100)
  else if sumWeight / channels.length < 10 then (100, 0)
  else (1, 0)

/-- The weighted draw of `GetRandomSatisfiedChannelAtPriority`. -/
def drawChannel (targetChannels : List Channel) (random : Nat) : Except String (Option Channel) :=
  if targetChannels = [] then .ok none
  else
    let (smoothingFactor, smoothingAdjustment) := smoothing targetChannels
    let sumWeight := (targetChannels.map Channel.getWeight).sum
    let totalWeight :=
      if sumWeight = 0 then targetChannels.length * 100 else sumWeight * smoothingFactor
    match pickWeighted (fun c : Channel => c.getWeight * smoothingFactor + smoothingAdjustment)
        (fun drawn weight => drawn < weight) targetChannels (random % totalWeight) with
    | some channel => .ok (some channel)
    | none => .error "channel not found"

def getRandomSatisfiedChannelAtPriority (group model : List Char) (priority : Int)
    (filters : List ChannelFilter) (random : Nat) : Except String (Option Channel) :=
  (cache.satisfiedChannels cfg group model filters).bind fun channels =>
    drawChannel (channels.filter fun c => c.getPriority = priority) random

def isChannelEnabledForGroupModel (group modelName : List Char) (channelID : Nat) : Bool :=
  let normalized := routingMatchModelName cfg modelName
  channelID ∈ cache.group2model2channels group modelName ||
    (normalized ≠ [] && normalized ≠ modelName &&
      channelID ∈ cache.group2model2channels group normalized)

end ChannelCache

/-! ## Both ways -/

/-- The tables, the cache and the switch between them. -/
structure Routing where
  names : NameSettings
  memoryCacheEnabled : Bool
  db : ChannelDb
  cache : ChannelCache

namespace Routing

def listSatisfiedChannelPriorities (r : Routing) (group model : List Char)
    (filters : List ChannelFilter) : Except String (List Int) :=
  if r.memoryCacheEnabled then r.cache.listSatisfiedChannelPriorities r.names group model filters
  else .ok (r.db.listChannelPriorities r.names group model filters)

def listSatisfiedChannelIDsAtPriority (r : Routing) (group model : List Char) (priority : Int)
    (filters : List ChannelFilter) : Except String (List Nat) :=
  if r.memoryCacheEnabled then
    r.cache.listSatisfiedChannelIDsAtPriority r.names group model priority filters
  else .ok (r.db.listChannelIDsAtPriority r.names group model priority filters)

def getRandomSatisfiedChannelAtPriority (r : Routing) (group model : List Char) (priority : Int)
    (filters : List ChannelFilter) (random : Nat) : Except String (Option Channel) :=
  if r.memoryCacheEnabled then
    r.cache.getRandomSatisfiedChannelAtPriority r.names group model priority filters random
  else r.db.getChannelAtPriority r.names group model priority filters random

/-- `GetRandomSatisfiedChannel`, and `GetChannel` without the cache. -/
def getRandomSatisfiedChannel (r : Routing) (group model : List Char) (retry : Nat)
    (filters : List ChannelFilter) (random : Nat) : Except String (Option Channel) :=
  (r.listSatisfiedChannelPriorities group model filters).bind fun priorities =>
    match priorities[retry]? with
    | none => .ok none
    | some priority =>
      r.getRandomSatisfiedChannelAtPriority group model priority filters random

def isChannelEnabledForGroupModel (r : Routing) (group modelName : List Char) (channelID : Nat) :
    Bool :=
  group ≠ [] && modelName ≠ [] && 0 < channelID &&
    if r.memoryCacheEnabled then
      r.cache.isChannelEnabledForGroupModel r.names group modelName channelID
    else r.db.isChannelEnabledForGroupModel r.names group modelName channelID

end Routing

end NewApi
