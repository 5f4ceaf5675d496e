import NewApi.Channel.Routing

/-!
# The status of a channel and of its keys

`UpdateChannelStatus` goes through three places in turn: the cached channel, the stored channel and
the abilities. For a channel with several keys a key may be named: the channel is disabled when
the last key is, and enabled when a key is.

The call holds the polling lock of the channel, and with the memory cache a lock for all channels,
so it is one step here.
-/

namespace NewApi

/-! ## Keys -/

variable (c : Channel)

def Channel.keyStatus (i : Nat) : ChannelStatus :=
  ((c.channelInfo.multiKeyStatusList.find i).map KeyStatus.status).getD .enabled

/-- `hasEnabledMultiKey`. -/
def Channel.hasEnabledMultiKey : Bool :=
  (List.range c.keys.length).any fun i => c.keyStatus i = .enabled

def Channel.keyIndex (key : List Char) : Option Nat := c.keys.findIdx? (· = key)

def Channel.setKeyStatus (i : Nat) (status : ChannelStatus) : Channel :=
  { c with channelInfo := { c.channelInfo with
    multiKeyStatusList :=
      if status = .enabled then c.channelInfo.multiKeyStatusList.remove i
      else c.channelInfo.multiKeyStatusList.put ⟨i, status⟩ } }

/-- `ChannelStatusReasonAllKeysDisabled`. -/
def allKeysDisabled : String := "All keys are disabled"

def Channel.handlerMultiKeyUpdate (usingKey : List Char) (status : ChannelStatus)
    (reason : String) : Channel :=
  if c.keys = [] then { c with status }
  else
    match c.keyIndex usingKey with
    | none => if usingKey ≠ [] then c else { c with status, statusReason := some reason }
    | some keyIndex =>
      let c := c.setKeyStatus keyIndex status
      if !c.hasEnabledMultiKey then
        { c with status := .autoDisabled, statusReason := some allKeysDisabled }
      else if status = .enabled then { c with status := .enabled }
      else c

/-! ## The call -/

/-- The channels, their abilities and the cache. -/
structure ChannelStore where
  memoryCacheEnabled : Bool
  db : ChannelDb
  cache : ChannelCache

namespace ChannelStore

/-- The cached channel is updated first. `none` is a return. -/
def updateCached (store : ChannelStore) (channelID : Nat) (usingKey : List Char)
    (status : ChannelStatus) (reason : String) : Option ChannelStore :=
  if store.memoryCacheEnabled then
    match store.cache.channelsIDM.find channelID with
    | none => none
    | some cached =>
      if cached.channelInfo.isMultiKey then
        let updated := cached.handlerMultiKeyUpdate usingKey status reason
        let cache := { store.cache with channelsIDM := store.cache.channelsIDM.save updated }
        some { store with
          cache := if cached.status ≠ updated.status then
            cache.updateChannelStatus channelID updated.status else cache }
      else if cached.status = status then none
      else some { store with cache := store.cache.updateChannelStatus channelID status }
  else some store

end ChannelStore

/-- A manual operation replaces the reason that all keys are disabled. -/
def Channel.overridesKeyExhaustion (usingKey : List Char) (status : ChannelStatus)
    (reason : String) : Bool :=
  c.channelInfo.isMultiKey && usingKey = [] && status = .manuallyDisabled &&
    reason ≠ allKeysDisabled && c.statusReason = some allKeysDisabled

def Channel.withStatus (usingKey : List Char) (status : ChannelStatus) (reason : String) :
    Channel :=
  if c.channelInfo.isMultiKey then c.handlerMultiKeyUpdate usingKey status reason
  else { c with status, statusReason := some reason }

/-- `UpdateAbilityStatus`. -/
def updateAbilityStatus (abilities : List Ability) (channelID : Nat) (enabled : Bool) :
    List Ability :=
  abilities.map fun a => if a.channelId = channelID then { a with enabled } else a

namespace ChannelStore

/-- Then the stored channel and its abilities, with the value that is returned. -/
def updateStored (store : ChannelStore) (channelID : Nat) (usingKey : List Char)
    (status : ChannelStatus) (reason : String) : Bool × ChannelStore :=
  match store.db.channels.find channelID with
  | none => (false, store)
  | some channel =>
    if channel.status = status && !channel.overridesKeyExhaustion usingKey status reason then
      (false, store)
    else
      let updated := channel.withStatus usingKey status reason
      (true, { store with db := {
        channels := store.db.channels.save updated
        abilities :=
          if !channel.channelInfo.isMultiKey || channel.status ≠ updated.status then
            updateAbilityStatus store.db.abilities channelID (status = .enabled)
          else store.db.abilities } })

def updateChannelStatus (store : ChannelStore) (channelID : Nat) (usingKey : List Char)
    (status : ChannelStatus) (reason : String) : Bool × ChannelStore :=
  match store.updateCached channelID usingKey status reason with
  | none => (false, store)
  | some store => store.updateStored channelID usingKey status reason

end ChannelStore

/-! ## What the call does to a channel -/

namespace Channel

variable {c d : Channel} {key : List Char} {status : ChannelStatus} {reason : String}

theorem keyStatus_setKeyStatus (c : Channel) (i j : Nat) (status : ChannelStatus) :
    (c.setKeyStatus i status).keyStatus j = if i = j then status else c.keyStatus j := by
  unfold setKeyStatus keyStatus
  split
  next henabled =>
    rw [Table.find_remove]
    split
    · exact henabled.symm
    · rfl
  next =>
    rw [Table.find_put]
    split <;> rfl

theorem keyIndex_lt {i : Nat} (h : c.keyIndex key = some i) : i < c.keys.length :=
  (List.findIdx?_eq_some_iff_findIdx_eq.mp h).1

theorem hasEnabledMultiKey_iff :
    c.hasEnabledMultiKey = true ↔ ∃ i, i < c.keys.length ∧ c.keyStatus i = .enabled := by
  simp [hasEnabledMultiKey]

/-- Two copies of a channel with the same keys, the same status and the same statuses of keys. -/
structure SameStatus (c d : Channel) : Prop where
  keys : c.keys = d.keys
  isMultiKey : c.channelInfo.isMultiKey = d.channelInfo.isMultiKey
  status : c.status = d.status
  keyStatus : ∀ i, c.keyStatus i = d.keyStatus i

theorem SameStatus.symm (h : SameStatus c d) : SameStatus d c :=
  ⟨h.keys.symm, h.isMultiKey.symm, h.status.symm, fun i => (h.keyStatus i).symm⟩

theorem SameStatus.trans {e : Channel} (h : SameStatus c d) (h' : SameStatus d e) :
    SameStatus c e :=
  ⟨h.keys.trans h'.keys, h.isMultiKey.trans h'.isMultiKey, h.status.trans h'.status,
    fun i => (h.keyStatus i).trans (h'.keyStatus i)⟩

theorem SameStatus.keyIndex (h : SameStatus c d) (key : List Char) :
    c.keyIndex key = d.keyIndex key := by
  rw [Channel.keyIndex, Channel.keyIndex, h.keys]

theorem hasEnabledMultiKey_congr (hkeys : c.keys = d.keys)
    (hstatus : ∀ i, c.keyStatus i = d.keyStatus i) :
    c.hasEnabledMultiKey = d.hasEnabledMultiKey := by
  rw [Bool.eq_iff_iff, hasEnabledMultiKey_iff, hasEnabledMultiKey_iff, hkeys]
  simp only [hstatus]

/-- What `handlerMultiKeyUpdate` makes of a channel. -/
inductive Handled (c : Channel) (key : List Char) (status : ChannelStatus) (reason : String) :
    Channel → Prop where
  | noKeys (hnil : c.keys = []) : Handled c key status reason { c with status }
  | unknownKey (hcons : c.keys ≠ []) (hkey : c.keyIndex key = none) (hname : key ≠ []) :
      Handled c key status reason c
  | wholeChannel (hcons : c.keys ≠ []) (hkey : c.keyIndex key = none) (hname : key = []) :
      Handled c key status reason { c with status, statusReason := some reason }
  | lastKey {i : Nat} (hcons : c.keys ≠ []) (hkey : c.keyIndex key = some i)
      (hnone : (c.setKeyStatus i status).hasEnabledMultiKey = false) :
      Handled c key status reason
        { c.setKeyStatus i status with
          status := .autoDisabled, statusReason := some allKeysDisabled }
  | enabledKey {i : Nat} (hcons : c.keys ≠ []) (hkey : c.keyIndex key = some i)
      (hsome : (c.setKeyStatus i status).hasEnabledMultiKey = true) (henabled : status = .enabled) :
      Handled c key status reason { c.setKeyStatus i status with status := .enabled }
  | disabledKey {i : Nat} (hcons : c.keys ≠ []) (hkey : c.keyIndex key = some i)
      (hsome : (c.setKeyStatus i status).hasEnabledMultiKey = true)
      (hdisabled : status ≠ .enabled) :
      Handled c key status reason (c.setKeyStatus i status)

theorem handlerMultiKeyUpdate_handled (c : Channel) (key : List Char) (status : ChannelStatus)
    (reason : String) :
    Handled c key status reason (c.handlerMultiKeyUpdate key status reason) := by
  unfold handlerMultiKeyUpdate
  split
  next hnil => exact .noKeys hnil
  next hcons =>
  split
  next hkey =>
    split
    next hname => exact .unknownKey hcons hkey hname
    next hname => exact .wholeChannel hcons hkey (not_not.mp hname)
  next i hkey =>
    dsimp only
    split
    next hnone => exact .lastKey hcons hkey (by simpa using hnone)
    next hsome =>
    have hsome : (c.setKeyStatus i status).hasEnabledMultiKey = true := by simpa using hsome
    split
    next henabled => exact .enabledKey hcons hkey hsome henabled
    next hdisabled => exact .disabledKey hcons hkey hsome hdisabled

section

variable (h : Handled c key status reason d)

include h

theorem Handled.frame :
    d.id = c.id ∧ d.keys = c.keys ∧ d.channelInfo.isMultiKey = c.channelInfo.isMultiKey ∧
      d.channelInfo.multiKeyMode = c.channelInfo.multiKeyMode := by
  cases h <;> exact ⟨rfl, rfl, rfl, rfl⟩

theorem Handled.tag : d.tag = c.tag := by
  cases h <;> rfl

/-- Only the key that is named gets the status. -/
theorem Handled.keyStatus (j : Nat) :
    d.keyStatus j = if c.keyIndex key = some j then status else c.keyStatus j := by
  have hset : ∀ i, c.keyIndex key = some i → (c.setKeyStatus i status).keyStatus j =
      if c.keyIndex key = some j then status else c.keyStatus j := fun i hkey => by
    rw [keyStatus_setKeyStatus, hkey]
    simp only [Option.some.injEq]
  have hsame : c.keyIndex key = none → c.keyStatus j =
      if c.keyIndex key = some j then status else c.keyStatus j := fun hkey => by
    rw [hkey, if_neg (fun h => by cases h)]
  cases h with
  | noKeys hnil => exact hsame (by rw [keyIndex, hnil]; rfl)
  | unknownKey _ hkey _ | wholeChannel _ hkey _ => exact hsame hkey
  | lastKey _ hkey _ | enabledKey _ hkey _ _ | disabledKey _ hkey _ _ => exact hset _ hkey

/-- If the channel's status changes, it is enabled iff that was asked for. -/
theorem Handled.status_enabled (hne : d.status ≠ c.status) :
    d.status = .enabled ↔ status = .enabled := by
  cases h with
  | noKeys _ => exact Iff.rfl
  | unknownKey _ _ _ | disabledKey _ _ _ _ => exact absurd rfl hne
  | wholeChannel _ _ _ => exact Iff.rfl
  | lastKey _ hkey hnone =>
    refine ⟨fun h => (by cases h), fun hs => ?_⟩
    -- The key that is enabled would be an enabled key.
    have hsome : (c.setKeyStatus _ status).hasEnabledMultiKey = true :=
      hasEnabledMultiKey_iff.mpr ⟨_, keyIndex_lt hkey, by
        rw [keyStatus_setKeyStatus, if_pos rfl, hs]⟩
    cases hsome.symm.trans hnone
  | enabledKey _ _ _ henabled => exact ⟨fun _ => henabled, fun _ => rfl⟩

end

/-- Copies that agree agree after the update. -/
theorem SameStatus.handlerMultiKeyUpdate (h : SameStatus c d) (key : List Char)
    (status : ChannelStatus) (reason : String) :
    SameStatus (c.handlerMultiKeyUpdate key status reason)
      (d.handlerMultiKeyUpdate key status reason) := by
  have hc := handlerMultiKeyUpdate_handled c key status reason
  have hd := handlerMultiKeyUpdate_handled d key status reason
  refine ⟨?_, ?_, ?_, fun j => ?_⟩
  · exact hc.frame.2.1.trans (h.keys.trans hd.frame.2.1.symm)
  · exact hc.frame.2.2.1.trans (h.isMultiKey.trans hd.frame.2.2.1.symm)
  · have henabled : ∀ i, (c.setKeyStatus i status).hasEnabledMultiKey =
        (d.setKeyStatus i status).hasEnabledMultiKey := fun i =>
      hasEnabledMultiKey_congr h.keys fun j => by
        rw [keyStatus_setKeyStatus, keyStatus_setKeyStatus, h.keyStatus]
    unfold Channel.handlerMultiKeyUpdate
    rw [h.keyIndex]
    simp only [h.keys, henabled]
    split
    · rfl
    split
    · split
      · exact h.status
      · rfl
    split
    · rfl
    · split
      · rfl
      · exact h.status
  · rw [hc.keyStatus, hd.keyStatus, h.keyIndex, h.keyStatus]

end Channel

/-! ## What the call does to the store -/

namespace ChannelStore

variable {store : ChannelStore} {id : Nat} {key : List Char} {status : ChannelStatus}
  {reason : String} {c cached : Channel}

/-- Nothing changes but one channel. -/
structure Changed (store store' : ChannelStore) (id : Nat) : Prop where
  memory : store'.memoryCacheEnabled = store.memoryCacheEnabled
  channels : ∀ other, other ≠ id → store'.db.channels.find other = store.db.channels.find other
  cached : ∀ other, other ≠ id →
    store'.cache.channelsIDM.find other = store.cache.channelsIDM.find other
  abilities : ∀ a, a.channelId ≠ id → (a ∈ store'.db.abilities ↔ a ∈ store.db.abilities)

theorem Changed.refl (store : ChannelStore) (id : Nat) : Changed store store id :=
  ⟨rfl, fun _ _ => rfl, fun _ _ => rfl, fun _ _ => Iff.rfl⟩

theorem Changed.trans {s t u : ChannelStore} (h : Changed s t id) (h' : Changed t u id) :
    Changed s u id :=
  ⟨h'.memory.trans h.memory, fun k hk => (h'.channels k hk).trans (h.channels k hk),
    fun k hk => (h'.cached k hk).trans (h.cached k hk),
    fun a ha => (h'.abilities a ha).trans (h.abilities a ha)⟩

variable {abilities : List Ability} {enabled : Bool} {a : Ability}

theorem mem_updateAbilityStatus (h : a ∈ updateAbilityStatus abilities id enabled) :
    if a.channelId = id then a.enabled = enabled else a ∈ abilities := by
  obtain ⟨b, hb, rfl⟩ := List.mem_map.mp h
  cases Decidable.em (b.channelId = id) with
  | inl hid =>
    rw [if_pos hid, if_pos hid]
  | inr hid =>
    rw [if_neg hid, if_neg hid]
    exact hb

theorem mem_updateAbilityStatus_of_ne (h : a ∈ abilities) (hid : a.channelId ≠ id) :
    a ∈ updateAbilityStatus abilities id enabled :=
  List.mem_map.mpr ⟨a, h, if_neg hid⟩

theorem find_updateChannelStatus (cache : ChannelCache) (id : Nat) (status : ChannelStatus)
    (other : Nat) :
    (cache.updateChannelStatus id status).channelsIDM.find other =
      if id = other then (cache.channelsIDM.find id).map fun c => { c with status }
      else cache.channelsIDM.find other := by
  cases hfind : cache.channelsIDM.find id with
  | none =>
    have hsame : (cache.updateChannelStatus id status).channelsIDM = cache.channelsIDM := by
      rw [ChannelCache.updateChannelStatus, hfind]
    rw [hsame]
    split
    next h => rw [← h, hfind]; rfl
    · rfl
  | some c =>
    have hsave : (cache.updateChannelStatus id status).channelsIDM =
        cache.channelsIDM.save { c with status } := by
      rw [ChannelCache.updateChannelStatus, hfind]
    have hid : c.id = id := Table.find_key hfind
    rw [hsave]
    exact Table.find_save_at hfind (show ({ c with status } : Channel).id = id from hid) other

theorem updateCached_off (h : store.memoryCacheEnabled = false) :
    store.updateCached id key status reason = some store := by
  rw [updateCached, h, if_neg Bool.false_ne_true]

variable (h : store.memoryCacheEnabled = true)

include h in
theorem updateCached_unknown (hfind : store.cache.channelsIDM.find id = none) :
    store.updateCached id key status reason = none := by
  rw [updateCached, if_pos h, hfind]

include h in
/-- A cached channel with several keys is handled in place. -/
theorem updateCached_multi (hfind : store.cache.channelsIDM.find id = some cached)
    (hmulti : cached.channelInfo.isMultiKey = true) :
    ∃ cache, store.updateCached id key status reason = some { store with cache } ∧
      ∀ other, cache.channelsIDM.find other =
        if id = other then some (cached.handlerMultiKeyUpdate key status reason)
        else store.cache.channelsIDM.find other := by
  have hid : (cached.handlerMultiKeyUpdate key status reason).id = id :=
    (Channel.handlerMultiKeyUpdate_handled cached key status reason).frame.1.trans
      (Table.find_key hfind)
  rw [updateCached, if_pos h, hfind]
  dsimp only
  rw [if_pos hmulti]
  have hsave : ∀ other,
      (store.cache.channelsIDM.save (cached.handlerMultiKeyUpdate key status reason)).find other =
        if id = other then some (cached.handlerMultiKeyUpdate key status reason)
        else store.cache.channelsIDM.find other := Table.find_save_at hfind hid
  split
  · refine ⟨_, rfl, fun other => ?_⟩
    rw [find_updateChannelStatus]
    rw [hsave, hsave, if_pos rfl]
    split <;> rfl
  · exact ⟨_, rfl, hsave⟩

include h in
/-- A cached channel with one key gets the status unless it has it. -/
theorem updateCached_single (hfind : store.cache.channelsIDM.find id = some cached)
    (hmulti : cached.channelInfo.isMultiKey = false) :
    (cached.status = status ∧ store.updateCached id key status reason = none) ∨
    (cached.status ≠ status ∧
      ∃ cache, store.updateCached id key status reason = some { store with cache } ∧
        ∀ other, cache.channelsIDM.find other = if id = other then some { cached with status }
          else store.cache.channelsIDM.find other) := by
  rw [updateCached, if_pos h, hfind]
  dsimp only
  rw [hmulti, if_neg Bool.false_ne_true]
  split
  next hsame => exact .inl ⟨hsame, rfl⟩
  next hother =>
  refine .inr ⟨hother, _, rfl, fun other => ?_⟩
  rw [find_updateChannelStatus, hfind]
  rfl

theorem updateCached_changed {store' : ChannelStore}
    (h : store.updateCached id key status reason = some store') :
    Changed store store' id ∧ store'.db = store.db := by
  cases hm : store.memoryCacheEnabled with
  | false =>
    rw [updateCached_off hm] at h
    cases h
    exact ⟨.refl store id, rfl⟩
  | true =>
    have hchanged : ∀ cache : ChannelCache, (∃ x : Channel, ∀ other,
        cache.channelsIDM.find other =
          if id = other then some x else store.cache.channelsIDM.find other) →
        Changed store { store with cache } id := by
      rintro cache ⟨x, hfind⟩
      refine ⟨rfl, fun _ _ => rfl, fun other hne => ?_, fun _ _ => Iff.rfl⟩
      rw [hfind, if_neg (Ne.symm hne)]
    cases hfind : store.cache.channelsIDM.find id with
    | none =>
      rw [updateCached_unknown hm hfind] at h
      cases h
    | some cached =>
      cases hmulti : cached.channelInfo.isMultiKey with
      | true =>
        obtain ⟨cache, heq, hcache⟩ := @updateCached_multi store id key status reason cached
          hm hfind hmulti
        cases heq.symm.trans h
        exact ⟨hchanged cache ⟨_, hcache⟩, rfl⟩
      | false =>
        rcases @updateCached_single store id key status reason cached hm hfind hmulti with
          ⟨_, heq⟩ | ⟨_, cache, heq, hcache⟩
        · cases heq.symm.trans h
        · cases heq.symm.trans h
          exact ⟨hchanged cache ⟨_, hcache⟩, rfl⟩

/-- A stored channel that has the status ends the call, unless the reason is replaced. -/
theorem updateStored_eq (hfind : store.db.channels.find id = some c) :
    (c.status = status ∧ c.overridesKeyExhaustion key status reason = false ∧
      store.updateStored id key status reason = (false, store)) ∨
    ((c.status = status → c.overridesKeyExhaustion key status reason = true) ∧
      ∃ db, store.updateStored id key status reason = (true, { store with db }) ∧
        (∀ other, db.channels.find other = if id = other then some (c.withStatus key status reason)
          else store.db.channels.find other) ∧
        db.abilities =
          if !c.channelInfo.isMultiKey || c.status ≠ (c.withStatus key status reason).status then
            updateAbilityStatus store.db.abilities id (status = .enabled)
          else store.db.abilities) := by
  have hid : (c.withStatus key status reason).id = id := by
    unfold Channel.withStatus
    split
    · exact (Channel.handlerMultiKeyUpdate_handled c key status reason).frame.1.trans
        (Table.find_key hfind)
    · rw [← Table.find_key hfind]
  unfold updateStored
  rw [hfind]
  dsimp only
  split
  next hends =>
    rw [Bool.and_eq_true, decide_eq_true_eq, Bool.not_eq_true'] at hends
    exact .inl ⟨hends.1, hends.2, rfl⟩
  next hgoes =>
  refine .inr ⟨fun hsame => ?_, _, rfl, Table.find_save_at hfind hid, rfl⟩
  rw [Bool.and_eq_true, decide_eq_true_eq, Bool.not_eq_true', not_and, Bool.not_eq_false] at hgoes
  exact hgoes hsame

theorem updateStored_changed (store : ChannelStore) (id : Nat) (key : List Char)
    (status : ChannelStatus) (reason : String) :
    Changed store (store.updateStored id key status reason).2 id ∧
      (store.updateStored id key status reason).2.cache = store.cache := by
  cases hfind : store.db.channels.find id with
  | none =>
    rw [updateStored, hfind]
    exact ⟨.refl store id, rfl⟩
  | some c =>
    rcases @updateStored_eq store id key status reason c hfind with
      ⟨_, _, heq⟩ | ⟨_, db, heq, hchannels, habilities⟩ <;> rw [heq]
    · exact ⟨.refl store id, rfl⟩
    refine ⟨⟨rfl, fun other hne => ?_, fun _ _ => rfl, fun a ha => ?_⟩, rfl⟩
    · exact (hchannels other).trans (if_neg (Ne.symm hne))
    · rw [habilities]
      split
      · refine ⟨fun hmem => ?_, fun hmem => mem_updateAbilityStatus_of_ne hmem ha⟩
        have := mem_updateAbilityStatus hmem
        rwa [if_neg ha] at this
      · exact Iff.rfl

/-- The call touches one channel only. -/
theorem updateChannelStatus_changed (store : ChannelStore) (id : Nat) (key : List Char)
    (status : ChannelStatus) (reason : String) :
    Changed store (store.updateChannelStatus id key status reason).2 id := by
  unfold updateChannelStatus
  cases hcached : store.updateCached id key status reason with
  | none => exact .refl store id
  | some store' =>
    exact (updateCached_changed hcached).1.trans
      (updateStored_changed store' id key status reason).1

/-- A stored channel is as before or has the new status. -/
theorem updateChannelStatus_stored (hfind : store.db.channels.find id = some c) (other : Nat)
    (key : List Char) (status : ChannelStatus) (reason : String) :
    ∃ c', (store.updateChannelStatus other key status reason).2.db.channels.find id = some c' ∧
      (c' = c ∧ ((store.updateChannelStatus other key status reason).1 = true → other ≠ id) ∨
        other = id ∧ c' = c.withStatus key status reason) := by
  rcases eq_or_ne id other with rfl | hne
  · unfold updateChannelStatus
    cases hcached : store.updateCached id key status reason with
    | none => exact ⟨c, hfind, .inl ⟨rfl, fun h => (by cases h)⟩⟩
    | some store' =>
      dsimp only
      have hfind' : store'.db.channels.find id = some c := by
        rw [(updateCached_changed hcached).2]
        exact hfind
      rcases @updateStored_eq store' id key status reason c hfind' with
        ⟨_, _, heq⟩ | ⟨_, db, heq, hchannels, _⟩ <;> rw [heq]
      · exact ⟨c, hfind', .inl ⟨rfl, fun h => (by cases h)⟩⟩
      · exact ⟨_, (hchannels id).trans (if_pos rfl), .inr ⟨rfl, rfl⟩⟩
  · refine ⟨c, ?_, .inl ⟨rfl, fun _ => Ne.symm hne⟩⟩
    rw [(updateChannelStatus_changed store other key status reason).channels id hne]
    exact hfind

/-- So is a cached one. -/
theorem updateChannelStatus_cached {c' : Channel} {other : Nat}
    (h : (store.updateChannelStatus other key status reason).2.cache.channelsIDM.find id =
      some c') :
    ∃ c, store.cache.channelsIDM.find id = some c ∧
      (c' = c ∧ (store.memoryCacheEnabled = true →
          (store.updateChannelStatus other key status reason).1 = true → other ≠ id) ∨
        other = id ∧ c' = if c.channelInfo.isMultiKey then
          c.handlerMultiKeyUpdate key status reason else { c with status }) := by
  rcases eq_or_ne id other with rfl | hne
  · unfold updateChannelStatus at h ⊢
    cases hm : store.memoryCacheEnabled with
    | false =>
      rw [updateCached_off hm] at h ⊢
      rw [(updateStored_changed store id key status reason).2] at h
      exact ⟨c', h, .inl ⟨rfl, fun h => (by cases h)⟩⟩
    | true =>
      cases hfind : store.cache.channelsIDM.find id with
      | none =>
        rw [updateCached_unknown hm hfind] at h
        cases hfind.symm.trans h
      | some c =>
        refine ⟨c, rfl, ?_⟩
        cases hmulti : c.channelInfo.isMultiKey with
        | true =>
          obtain ⟨cache, heq, hcache⟩ :=
            @updateCached_multi store id key status reason c hm hfind hmulti
          rw [heq] at h
          rw [(updateStored_changed _ id key status reason).2] at h
          cases ((hcache id).trans (if_pos rfl)).symm.trans h
          exact .inr ⟨rfl, (if_pos rfl).symm⟩
        | false =>
          rcases @updateCached_single store id key status reason c hm hfind hmulti with
            ⟨_, heq⟩ | ⟨_, cache, heq, hcache⟩
          · rw [heq] at h ⊢
            cases hfind.symm.trans h
            exact .inl ⟨rfl, fun _ h => (by cases h)⟩
          rw [heq] at h
          rw [(updateStored_changed _ id key status reason).2] at h
          cases ((hcache id).trans (if_pos rfl)).symm.trans h
          exact .inr ⟨rfl, (if_neg Bool.false_ne_true).symm⟩
  · rw [(updateChannelStatus_changed store other key status reason).cached id hne] at h
    exact ⟨c', h, .inl ⟨rfl, fun _ _ => Ne.symm hne⟩⟩

end ChannelStore

end NewApi
