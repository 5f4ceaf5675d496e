import NewApi.Channel.StatusAgreement

/-!
# Channels that an administrator has disabled

A relay failure or a balance check calls `DisableChannel`, and a health check that succeeds calls
`EnableChannel`. If the channel belongs to a plan quota domain, both may go on to every channel
with the tag of the domain.

Such a call reads the channel, may list the domain, and then updates one channel after the other.
The update looks at the status of the call and not at who set the stored one. So a channel that
an administrator disables is safe if no such call is under way that comes to it (`Reaches`), and
none begins (`Spares`).
-/

namespace NewApi

open Runs Text

def isPlanTag (tag : List Char) : Bool := "plan:".toList.isPrefixOf tag

/-- `ParsePlanQuotaReset` as to whether the quota of a plan is used up. -/
def planQuotaLimited (reason : String) : Bool :=
  let lower := reason.toList.map Char.toLower
  occursIn "exceeded the 5-hour usage quota".toList lower ||
    occursIn "exceeded the weekly usage quota".toList lower

namespace ChannelStore

/-- `CacheGetChannel`. -/
def cacheGetChannel (store : ChannelStore) (id : Nat) : Option Channel :=
  if store.memoryCacheEnabled then store.cache.channelsIDM.find id else store.db.channels.find id

/-- `GetChannelsByTag`, as to the ids. -/
def getChannelsByTag (store : ChannelStore) (tag : List Char) : List Nat :=
  (store.db.channels.rows.filter fun c => c.tag = tag).map Channel.id

end ChannelStore

/-! ## Calls under way -/

/-- Where a call stands. -/
inductive AutoStage where
  | testing (record : Channel)
  /-- `DisableChannel`. -/
  | disabling (channelID : Nat) (usingKey : List Char) (reason : String)
  /-- `EnableChannel`. -/
  | enabling (channelID : Nat) (usingKey : List Char)
  /-- `disablePlanQuotaDomain` or `enablePlanQuotaDomain` before the channels are read. -/
  | domain (tag : List Char) (enable : Bool) (reason : String)
  /-- The calls of `UpdateChannelStatus` that are left. -/
  | writing (ids : List Nat) (usingKey : List Char) (enable : Bool) (reason : String)

structure AutoCall where
  callID : Nat
  stage : AutoStage

/-- How a health check ends. -/
structure TestOutcome where
  (cancelled allowDisable bans : Bool)
  reason : String
  usingKey : List Char
  (succeeded automaticEnableChannelEnabled : Bool)

/-- The status that is set without an administrator. -/
def autoStatus (enable : Bool) : ChannelStatus := if enable then .enabled else .autoDisabled

/-- The next step of a call: the store after it and where the call stands then. -/
def advanceStage (store : ChannelStore) : AutoStage → ChannelStore × Option AutoStage
  | .testing record => (store, some (.testing record))
  | .disabling channelID usingKey reason =>
    match store.cacheGetChannel channelID with
    | some channel =>
      if planQuotaLimited reason && isPlanTag channel.tag then
        (store, some (.domain channel.tag false reason))
      else (store, some (.writing [channelID] usingKey false reason))
    | none => (store, some (.writing [channelID] usingKey false reason))
  | .enabling channelID usingKey =>
    match store.cacheGetChannel channelID with
    | some channel =>
      if isPlanTag channel.tag then (store, some (.domain channel.tag true ""))
      else (store, some (.writing [channelID] usingKey true ""))
    | none => (store, some (.writing [channelID] usingKey true ""))
  | .domain tag enable reason =>
    (store, some (.writing (store.getChannelsByTag tag) [] enable reason))
  | .writing [] _ _ _ => (store, none)
  | .writing (id :: rest) usingKey enable reason =>
    ((store.updateChannelStatus id usingKey (autoStatus enable) reason).2,
      some (.writing rest usingKey enable reason))

/-- `testChannelForHealthCheck` after the test. -/
def finishTest (record : Channel) (outcome : TestOutcome) : Option AutoStage :=
  if outcome.cancelled then none
  else if outcome.allowDisable && record.status = .enabled && outcome.bans && record.autoBan then
    some (.disabling record.id outcome.usingKey outcome.reason)
  else if outcome.succeeded && outcome.automaticEnableChannelEnabled &&
      record.status = .autoDisabled then
    some (.enabling record.id outcome.usingKey)
  else none

structure RecoveryState where
  store : ChannelStore
  calls : Table AutoCall.callID

inductive RecoveryAction where
  /-- A relay failure or a balance check calls `DisableChannel`. -/
  | fail (callID channelID : Nat) (autoBan : Bool) (usingKey : List Char) (reason : String)
  | loadTest (callID channelID : Nat)
  | finishTest (callID : Nat) (outcome : TestOutcome)
  | advance (callID : Nat)
  /-- `UpdateChannelStatus` with the empty key by an administrator. -/
  | admin (channelID : Nat) (status : ChannelStatus) (reason : String)

namespace RecoveryState

def start (store : ChannelStore) : RecoveryState := ⟨store, .empty⟩

def begin (s : RecoveryState) (callID : Nat) (stage : AutoStage) : RecoveryState :=
  match s.calls.find callID with
  | some _ => s
  | none => { s with calls := s.calls.put ⟨callID, stage⟩ }

/-- The call goes on to another stage or ends. -/
def goOn (s : RecoveryState) (callID : Nat) : Option AutoStage → RecoveryState
  | some stage => { s with calls := s.calls.put ⟨callID, stage⟩ }
  | none => { s with calls := s.calls.remove callID }

def step (s : RecoveryState) : RecoveryAction → RecoveryState
  | .fail callID channelID autoBan usingKey reason =>
    if autoBan then s.begin callID (.disabling channelID usingKey reason) else s
  | .loadTest callID channelID =>
    match s.store.db.channels.find channelID with
    | some channel =>
      -- `runChannelTestWorkers` passes over a copy that is manually disabled.
      if channel.status = .manuallyDisabled then s else s.begin callID (.testing channel)
    | none => s
  | .finishTest callID outcome =>
    match s.calls.find callID with
    | some ⟨_, .testing record⟩ => s.goOn callID (NewApi.finishTest record outcome)
    | _ => s
  | .advance callID =>
    match s.calls.find callID with
    | some call =>
      let (store, stage) := advanceStage s.store call.stage
      ({ s with store } : RecoveryState).goOn callID stage
    | none => s
  | .admin channelID status reason =>
    { s with store := (s.store.updateChannelStatus channelID [] status reason).2 }

def Manual (s : RecoveryState) (id : Nat) : Prop :=
  ∃ c, s.store.db.channels.find id = some c ∧ c.status = .manuallyDisabled

instance decidableManual (s : RecoveryState) (id : Nat) : Decidable (s.Manual id) :=
  Table.decidableFound _

end RecoveryState

/-! ## The channels that a call comes to -/

namespace ChannelStore

def tagOf (store : ChannelStore) (id : Nat) : Option (List Char) :=
  (store.db.channels.find id).map Channel.tag

/-- The tag that `CacheGetChannel` gives for a channel is that of a plan quota domain, and another
channel is stored with it. -/
def SamePlan (store : ChannelStore) (id id' : Nat) : Prop :=
  ∃ c, store.cacheGetChannel id = some c ∧ isPlanTag c.tag = true ∧ store.tagOf id' = some c.tag

def SingleKey (store : ChannelStore) : Prop :=
  ∀ id c, store.db.channels.find id = some c → c.channelInfo.isMultiKey = false

variable {store : ChannelStore} {id : Nat} {key : List Char} {status : ChannelStatus}
  {reason : String}

theorem SingleKey.stored (h : store.SingleKey) {c : Channel}
    (hfind : store.db.channels.find id = some c) (other : Nat) (key : List Char)
    (status : ChannelStatus) (reason : String) :
    ∃ c', (store.updateChannelStatus other key status reason).2.db.channels.find id = some c' ∧
      c'.tag = c.tag ∧ c'.channelInfo = c.channelInfo ∧
      (c'.status = c.status ∧
          ((store.updateChannelStatus other key status reason).1 = true → other ≠ id) ∨
        other = id ∧ c'.status = status) := by
  obtain ⟨c', hc', ⟨rfl, hne⟩ | ⟨hid, rfl⟩⟩ :=
    updateChannelStatus_stored hfind other key status reason
  · exact ⟨c', hc', rfl, rfl, .inl ⟨rfl, hne⟩⟩
  · refine ⟨_, hc', ?_⟩
    rw [Channel.withStatus, h id c hfind, if_neg Bool.false_ne_true]
    exact ⟨rfl, rfl, .inr ⟨hid, rfl⟩⟩

theorem updateChannelStatus_unknown (hfind : store.db.channels.find id = none) :
    (store.updateChannelStatus id key status reason).1 = false ∧
      (store.updateChannelStatus id key status reason).2.db = store.db := by
  unfold updateChannelStatus
  cases hcached : store.updateCached id key status reason with
  | none => exact ⟨rfl, rfl⟩
  | some t =>
    have hdb := (updateCached_changed hcached).2
    dsimp only
    rw [updateStored, hdb, hfind]
    exact ⟨rfl, hdb⟩

theorem exists_find_of_true (h : (store.updateChannelStatus id key status reason).1 = true) :
    ∃ c, store.db.channels.find id = some c := by
  cases hfind : store.db.channels.find id with
  | some c => exact ⟨c, rfl⟩
  | none =>
    rw [(updateChannelStatus_unknown hfind).1] at h
    cases h

theorem exists_find_of_updateChannelStatus {other : Nat} {c' : Channel}
    (h : (store.updateChannelStatus other key status reason).2.db.channels.find id = some c') :
    ∃ c, store.db.channels.find id = some c := by
  rcases eq_or_ne id other with rfl | hne
  · cases hfind : store.db.channels.find id with
    | some c => exact ⟨c, rfl⟩
    | none =>
      rw [(updateChannelStatus_unknown hfind).2, hfind] at h
      cases h
  · rw [(updateChannelStatus_changed store other key status reason).channels id hne] at h
    exact ⟨c', h⟩

theorem SingleKey.updateChannelStatus (h : store.SingleKey) (other : Nat) :
    (store.updateChannelStatus other key status reason).2.SingleKey := by
  intro id c' hc'
  obtain ⟨c, hfind⟩ := exists_find_of_updateChannelStatus hc'
  obtain ⟨d, hd, _, hinfo, _⟩ := h.stored hfind other key status reason
  cases hd.symm.trans hc'
  rw [hinfo]
  exact h id c hfind

theorem SingleKey.tagOf (h : store.SingleKey) {other : Nat} {tag : List Char}
    (htag : (store.updateChannelStatus other key status reason).2.tagOf id = some tag) :
    store.tagOf id = some tag := by
  obtain ⟨c', hc', rfl⟩ := Option.map_eq_some_iff.mp htag
  obtain ⟨c, hfind⟩ := exists_find_of_updateChannelStatus hc'
  obtain ⟨d, hd, htag', _⟩ := h.stored hfind other key status reason
  cases hd.symm.trans hc'
  rw [ChannelStore.tagOf, hfind, htag']
  rfl

theorem SingleKey.samePlan (h : store.SingleKey) {other id' : Nat}
    (hplan : (store.updateChannelStatus other key status reason).2.SamePlan id id') :
    store.SamePlan id id' := by
  obtain ⟨c', hc', hisPlan, htag⟩ := hplan
  have hstored := h.tagOf htag
  unfold cacheGetChannel at hc'
  rw [(updateChannelStatus_changed store other key status reason).memory] at hc'
  split at hc'
  next hm =>
    have hread (c : Channel) (hc : store.cache.channelsIDM.find id = some c)
        (heq : c'.tag = c.tag) : store.SamePlan id id' :=
      ⟨c, by rw [cacheGetChannel, if_pos hm, hc], heq ▸ hisPlan, heq ▸ hstored⟩
    obtain ⟨c, hc, ⟨rfl, _⟩ | ⟨_, rfl⟩⟩ := updateChannelStatus_cached hc'
    · exact hread c' hc rfl
    refine hread c hc ?_
    split
    · exact (Channel.handlerMultiKeyUpdate_handled c key status reason).tag
    · rfl
  next hm =>
    obtain ⟨c, hfind⟩ := exists_find_of_updateChannelStatus hc'
    obtain ⟨d, hd, heq, _⟩ := h.stored hfind other key status reason
    cases hd.symm.trans hc'
    exact ⟨c, by rw [cacheGetChannel, if_neg hm, hfind], heq ▸ hisPlan, heq ▸ hstored⟩

theorem mem_getChannelsByTag {tag : List Char} (h : id ∈ store.getChannelsByTag tag) :
    store.tagOf id = some tag := by
  obtain ⟨c, hc, rfl⟩ := List.mem_map.mp h
  obtain ⟨hmem, htag⟩ := List.mem_filter.mp hc
  rw [tagOf, Table.find_of_mem hmem, ← of_decide_eq_true htag]
  rfl

end ChannelStore

/-- The call may come to write the status of a channel. -/
def AutoStage.Reaches (store : ChannelStore) (id : Nat) : AutoStage → Prop
  | .testing _ => False
  | .disabling channelID _ reason =>
    channelID = id ∨ planQuotaLimited reason = true ∧ store.SamePlan channelID id
  | .enabling channelID _ => channelID = id ∨ store.SamePlan channelID id
  | .domain tag _ _ => store.tagOf id = some tag
  | .writing ids _ _ _ => id ∈ ids

section Stages

variable {store : ChannelStore} {id : Nat}

theorem AutoStage.reaches_of_update (h : store.SingleKey) {stage : AutoStage} {other : Nat}
    {key : List Char} {status : ChannelStatus} {reason : String}
    (hreach : stage.Reaches (store.updateChannelStatus other key status reason).2 id) :
    stage.Reaches store id := by
  cases stage with
  | testing record => exact hreach
  | disabling channelID usingKey reason => exact hreach.imp_right (And.imp_right h.samePlan)
  | enabling channelID usingKey => exact hreach.imp_right h.samePlan
  | domain tag enable reason => exact h.tagOf hreach
  | writing ids usingKey enable reason => exact hreach

theorem AutoStage.reaches_of_advance {stage stage' : AutoStage}
    (h : (advanceStage store stage).2 = some stage') (hreach : stage'.Reaches store id) :
    stage.Reaches store id := by
  have hone {channelID : Nat} (hmem : id ∈ [channelID]) : channelID = id :=
    (List.mem_singleton.mp hmem).symm
  cases stage with
  | testing record =>
    cases h
    exact hreach
  | disabling channelID usingKey reason =>
    dsimp only [advanceStage] at h
    split at h
    next channel hc =>
      split at h
      next hplan =>
        rw [Bool.and_eq_true] at hplan
        cases h
        exact .inr ⟨hplan.1, channel, hc, hplan.2, hreach⟩
      next =>
        cases h
        exact .inl (hone hreach)
    next =>
      cases h
      exact .inl (hone hreach)
  | enabling channelID usingKey =>
    dsimp only [advanceStage] at h
    split at h
    next channel hc =>
      split at h
      next hplan =>
        cases h
        exact .inr ⟨channel, hc, hplan, hreach⟩
      next =>
        cases h
        exact .inl (hone hreach)
    next =>
      cases h
      exact .inl (hone hreach)
  | domain tag enable reason =>
    cases h
    exact ChannelStore.mem_getChannelsByTag hreach
  | writing ids usingKey enable reason =>
    cases ids with
    | nil => cases h
    | cons first rest =>
      cases h
      exact List.mem_cons_of_mem first hreach

theorem advanceStage_store (store : ChannelStore) (stage : AutoStage) :
    (advanceStage store stage).1 = store ∨
    ∃ id usingKey enable reason, stage.Reaches store id ∧ (advanceStage store stage).1 =
      (store.updateChannelStatus id usingKey (autoStatus enable) reason).2 := by
  cases stage with
  | testing record | domain tag enable reason => exact .inl rfl
  | disabling channelID usingKey reason | enabling channelID usingKey =>
    left
    dsimp only [advanceStage]
    split
    · split <;> rfl
    · rfl
  | writing ids usingKey enable reason =>
    cases ids with
    | nil => exact .inl rfl
    | cons first rest => exact .inr ⟨first, usingKey, enable, reason, List.mem_cons_self, rfl⟩

end Stages

/-! ## Runs -/

namespace RecoveryState

/-- The call of `DisableChannel` or `EnableChannel` that begins with an action. -/
def begins (s : RecoveryState) : RecoveryAction → Option AutoStage
  | .fail _ channelID autoBan usingKey reason =>
    if autoBan then some (.disabling channelID usingKey reason) else none
  | .finishTest callID outcome =>
    match s.calls.find callID with
    | some ⟨_, .testing record⟩ => NewApi.finishTest record outcome
    | _ => none
  | _ => none

def Pending (s : RecoveryState) (id : Nat) : Prop :=
  ∃ call ∈ s.calls.rows, call.stage.Reaches s.store id

/-- No call begins that comes to a channel that an administrator has disabled, and an
administrator disables no channel that a call under way comes to. -/
structure Spares (s : RecoveryState) (a : RecoveryAction) : Prop where
  begun : ∀ stage, s.begins a = some stage → ∀ id, s.Manual id → ¬ stage.Reaches s.store id
  disabled : ∀ id reason, a = .admin id .manuallyDisabled reason → ¬ s.Pending id

variable {s : RecoveryState} {id : Nat}

/-- The calls after a step come to no channel but those that a call came to before, or the call
that begins. -/
def NoMore (s : RecoveryState) (a : RecoveryAction) (calls : Table AutoCall.callID) : Prop :=
  ∀ call ∈ calls.rows, ∀ id, call.stage.Reaches s.store id →
    s.Pending id ∨ ∃ stage, s.begins a = some stage ∧ stage.Reaches s.store id

theorem NoMore.same (a : RecoveryAction) : s.NoMore a s.calls :=
  fun call hcall _ hreach => .inl ⟨call, hcall, hreach⟩

variable {a : RecoveryAction} {callID : Nat} {stage : AutoStage} {store : ChannelStore}

theorem NoMore.put (h : ∀ id, stage.Reaches s.store id →
      s.Pending id ∨ ∃ stage, s.begins a = some stage ∧ stage.Reaches s.store id) :
    s.NoMore a (s.calls.put ⟨callID, stage⟩) := by
  intro call hcall id hreach
  rcases Table.mem_put.mp hcall with rfl | ⟨hmem, _⟩
  · exact h id hreach
  · exact .inl ⟨call, hmem, hreach⟩

theorem NoMore.goOn {next : Option AutoStage} (store : ChannelStore)
    (h : ∀ stage, next = some stage → ∀ id, stage.Reaches s.store id →
      s.Pending id ∨ ∃ stage, s.begins a = some stage ∧ stage.Reaches s.store id) :
    s.NoMore a (({ s with store } : RecoveryState).goOn callID next).calls := by
  cases next with
  | some stage => exact .put (h stage rfl)
  | none => exact fun call hcall _ hreach => .inl ⟨call, (Table.mem_remove.mp hcall).1, hreach⟩

theorem NoMore.begin (h : ∀ id, stage.Reaches s.store id →
      s.Pending id ∨ ∃ stage, s.begins a = some stage ∧ stage.Reaches s.store id) :
    s.NoMore a (s.begin callID stage).calls := by
  unfold RecoveryState.begin
  split
  · exact .same a
  · exact .put h

variable (s)

theorem begin_store (callID : Nat) (stage : AutoStage) :
    (s.begin callID stage).store = s.store := by
  unfold RecoveryState.begin
  split <;> rfl

theorem goOn_store (callID : Nat) (next : Option AutoStage) :
    (s.goOn callID next).store = s.store := by
  cases next <;> rfl

theorem noMore_step (a : RecoveryAction) : s.NoMore a (s.step a).calls := by
  cases a with dsimp only [RecoveryState.step]
  | fail callID channelID autoBan usingKey reason =>
    cases autoBan with
    | false => exact .same _
    | true => exact .begin fun id hreach => .inr ⟨_, rfl, hreach⟩
  | loadTest callID channelID =>
    split
    · split
      · exact .same _
      · exact .begin fun id hreach => hreach.elim
    · exact .same _
  | finishTest callID outcome =>
    split
    next id record hfind =>
      refine .goOn s.store fun stage hstage id hreach => .inr ⟨stage, ?_, hreach⟩
      rw [begins, hfind]
      exact hstage
    · exact .same _
  | advance callID =>
    split
    next call hfind =>
      exact .goOn _ fun stage hstage id hreach =>
        .inl ⟨call, Table.find_mem hfind, AutoStage.reaches_of_advance hstage hreach⟩
    · exact .same _
  | admin channelID status reason => exact .same _

variable {s}

/-- What a step does to the store: nothing, an automatic update of a channel that a call comes to,
or the update of an administrator. -/
inductive Stored (s : RecoveryState) : RecoveryAction → ChannelStore → Prop
  | same (a : RecoveryAction) : Stored s a s.store
  | auto (a : RecoveryAction) {id : Nat} (usingKey : List Char) (enable : Bool) (reason : String)
      (h : s.Pending id) :
      Stored s a (s.store.updateChannelStatus id usingKey (autoStatus enable) reason).2
  | admin (id : Nat) (status : ChannelStatus) (reason : String) :
      Stored s (.admin id status reason) (s.store.updateChannelStatus id [] status reason).2

theorem stored_step (s : RecoveryState) (a : RecoveryAction) : s.Stored a (s.step a).store := by
  cases a with
  | fail callID channelID autoBan usingKey reason =>
    cases autoBan with
    | false => exact .same _
    | true =>
      rw [RecoveryState.step, if_pos rfl, begin_store]
      exact .same _
  | loadTest callID channelID =>
    dsimp only [RecoveryState.step]
    split
    · split
      · exact .same _
      · rw [begin_store]
        exact .same _
    · exact .same _
  | finishTest callID outcome =>
    dsimp only [RecoveryState.step]
    split
    · rw [goOn_store]
      exact .same _
    · exact .same _
  | advance callID =>
    dsimp only [RecoveryState.step]
    split
    next call hfind =>
      rw [goOn_store]
      rcases advanceStage_store s.store call.stage with hsame | ⟨id, key, enable, reason, hr, heq⟩
      · rw [hsame]
        exact .same _
      · rw [heq]
        exact .auto _ key enable reason ⟨call, Table.find_mem hfind, hr⟩
    · exact .same _
  | admin channelID status reason => exact .admin channelID status reason

theorem Stored.singleKey (h : s.Stored a store) (hsingle : s.store.SingleKey) :
    store.SingleKey := by
  cases h with
  | same => exact hsingle
  | auto _ usingKey enable reason _ | admin other status reason =>
    exact hsingle.updateChannelStatus _

theorem Stored.reaches (h : s.Stored a store) (hsingle : s.store.SingleKey)
    (hreach : stage.Reaches store id) : stage.Reaches s.store id := by
  cases h with
  | same => exact hreach
  | auto _ usingKey enable reason _ | admin other status reason =>
    exact AutoStage.reaches_of_update hsingle hreach

theorem autoStatus_ne (enable : Bool) : autoStatus enable ≠ .manuallyDisabled := by
  cases enable with
  | false | true => exact fun h => by cases h

theorem Stored.manual (h : s.Stored a store) (hsingle : s.store.SingleKey) {c' : Channel}
    (hfind : store.db.channels.find id = some c') (hstatus : c'.status = .manuallyDisabled) :
    s.Manual id ∨ ∃ reason, a = .admin id .manuallyDisabled reason := by
  cases h with
  | same => exact .inl ⟨c', hfind, hstatus⟩
  | auto _ usingKey enable reason _ =>
    obtain ⟨c, hc⟩ := ChannelStore.exists_find_of_updateChannelStatus hfind
    obtain ⟨d, hd, _, _, ⟨hsame, _⟩ | ⟨_, hauto⟩⟩ :=
      hsingle.stored hc _ usingKey (autoStatus enable) reason <;> cases hd.symm.trans hfind
    · exact .inl ⟨c, hc, hsame ▸ hstatus⟩
    · exact absurd (hauto.symm.trans hstatus) (autoStatus_ne enable)
  | admin other status reason =>
    obtain ⟨c, hc⟩ := ChannelStore.exists_find_of_updateChannelStatus hfind
    obtain ⟨d, hd, _, _, ⟨hsame, _⟩ | ⟨rfl, hset⟩⟩ := hsingle.stored hc other [] status reason <;>
      cases hd.symm.trans hfind
    · exact .inl ⟨c, hc, hsame ▸ hstatus⟩
    · exact .inr ⟨reason, by rw [← hset, hstatus]⟩

/-- A manually disabled channel stays so, unless a call comes to it or an administrator sets
another status. -/
theorem Stored.keeps (h : s.Stored a store) (hsingle : s.store.SingleKey)
    (hmanual : s.Manual id) (hfree : ¬ s.Pending id)
    (hadmin : ∀ status reason, a = .admin id status reason → status = .manuallyDisabled) :
    ∃ c, store.db.channels.find id = some c ∧ c.status = .manuallyDisabled := by
  obtain ⟨c, hc, hstatus⟩ := hmanual
  cases h with
  | same => exact ⟨c, hc, hstatus⟩
  | @auto _ other usingKey enable reason hpending =>
    obtain ⟨d, hd, _, _, ⟨hsame, _⟩ | ⟨rfl, _⟩⟩ :=
      hsingle.stored hc other usingKey (autoStatus enable) reason
    · exact ⟨d, hd, hsame.trans hstatus⟩
    · exact absurd hpending hfree
  | admin other status reason =>
    obtain ⟨d, hd, _, _, ⟨hsame, _⟩ | ⟨rfl, hset⟩⟩ := hsingle.stored hc other [] status reason
    · exact ⟨d, hd, hsame.trans hstatus⟩
    · exact ⟨d, hd, hset.trans (hadmin status reason rfl)⟩

theorem manual_admin (hsingle : s.store.SingleKey) {reason : String}
    (htrue : (s.store.updateChannelStatus id [] .manuallyDisabled reason).1 = true) :
    (s.step (.admin id .manuallyDisabled reason)).Manual id := by
  obtain ⟨c, hc⟩ := ChannelStore.exists_find_of_true htrue
  obtain ⟨d, hd, _, _, ⟨_, hne⟩ | ⟨_, hset⟩⟩ := hsingle.stored hc id [] .manuallyDisabled reason
  · exact absurd rfl (hne htrue)
  · exact ⟨d, hd, hset⟩

/-- The channels have one key, and no call comes to a manually disabled one. -/
structure Apart (s : RecoveryState) : Prop where
  single : s.store.SingleKey
  free : ∀ id, s.Manual id → ¬ s.Pending id

theorem Apart.step (h : s.Apart) (hspares : s.Spares a) : (s.step a).Apart := by
  have hstored := stored_step s a
  refine ⟨hstored.singleKey h.single, fun id ⟨c', hfind, hstatus⟩ ⟨call, hcall, hreach⟩ => ?_⟩
  have hbefore := hstored.reaches h.single hreach
  rcases noMore_step s a call hcall id hbefore with hpending | ⟨stage, hbegins, hstage⟩
  · rcases hstored.manual h.single hfind hstatus with hmanual | ⟨reason, rfl⟩
    · exact h.free id hmanual hpending
    · exact hspares.disabled id reason rfl hpending
  · rcases hstored.manual h.single hfind hstatus with hmanual | ⟨reason, rfl⟩
    · exact hspares.begun stage hbegins id hmanual hstage
    · cases hbegins

end RecoveryState

/-- Two channels of a plan, the first disabled automatically, and a channel by itself. -/
def planChannels : ChannelStore where
  memoryCacheEnabled := false
  db := ⟨⟨[{ plainChannel 1 "default" "gpt-5" with
        tag := "plan:a".toList
        status := .autoDisabled },
      { plainChannel 2 "default" "gpt-5" with tag := "plan:a".toList },
      plainChannel 3 "default" "gpt-5"], by decide⟩, []⟩
  cache := .empty

theorem planChannels_singleKey : planChannels.SingleKey := by
  intro id c hfind
  rcases List.mem_cons.mp (Table.find_mem hfind) with rfl | h
  · rfl
  rcases List.mem_cons.mp h with rfl | h
  · rfl
  · rw [List.mem_singleton.mp h]
    rfl

def RecoveryState.statusOf (s : RecoveryState) (id : Nat) : Option ChannelStatus :=
  (s.store.db.channels.find id).map Channel.status

end NewApi
