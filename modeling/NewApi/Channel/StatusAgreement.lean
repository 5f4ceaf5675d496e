import NewApi.Channel.Status
import NewApi.Lib.Runs

/-!
# The status in the cache and in the database

With the memory cache a channel has its status and those of its keys twice, and its abilities have
the status a third time. `Agrees` says that the three are one, and that a channel without an
enabled key is not enabled.

`UpdateChannelStatus` ends early if the stored channel has the status of the call, although the call
may be about a key, and the whole channel can be enabled whatever its keys are. A sequence of
calls agrees throughout exactly if all of its calls meet `KeepsAgreement`.
-/

namespace NewApi

open Runs

/-- The arguments of `UpdateChannelStatus`. -/
structure StatusCall where
  channelID : Nat
  usingKey : List Char
  status : ChannelStatus
  reason : String

/-- The call does not end at the stored status when it changes a key, and it does not enable a
channel without an enabled key. -/
def Channel.KeepsAgreement (c : Channel) (u : StatusCall) : Prop :=
  (c.status = u.status → c.overridesKeyExhaustion u.usingKey u.status u.reason = false →
    ∀ i, c.keyIndex u.usingKey = some i →
      c.keyStatus i = u.status ∧ (c.hasEnabledMultiKey = true ∨ u.status = .autoDisabled)) ∧
  (u.status = .enabled → c.keyIndex u.usingKey = none → (u.usingKey = [] ∨ c.keys = []) →
    c.hasEnabledMultiKey = true)

namespace ChannelStore

def call (store : ChannelStore) (u : StatusCall) : ChannelStore :=
  (store.updateChannelStatus u.channelID u.usingKey u.status u.reason).2

/-- A stored channel agrees with its cached copy, its abilities and its keys. -/
structure AgreesAt (store : ChannelStore) (id : Nat) (c : Channel) : Prop where
  cached : ∃ cached, store.cache.channelsIDM.find id = some cached ∧ cached.SameStatus c
  abilities : ∀ a ∈ store.db.abilities, a.channelId = id → a.enabled = decide (c.status = .enabled)
  keys : c.channelInfo.isMultiKey = true → c.hasEnabledMultiKey = false → c.status ≠ .enabled

/-- Every stored channel does. -/
structure Agrees (store : ChannelStore) : Prop where
  memory : store.memoryCacheEnabled = true
  channels : ∀ id c, store.db.channels.find id = some c → store.AgreesAt id c

/-- The condition for the stored channel of the call. -/
def KeepsAgreement (store : ChannelStore) (u : StatusCall) : Prop :=
  ∀ c, store.db.channels.find u.channelID = some c → c.channelInfo.isMultiKey = true →
    c.KeepsAgreement u

section Step

variable {store store' : ChannelStore} {id : Nat} {u : StatusCall} {c cached : Channel}

theorem AgreesAt.frame (h : store.AgreesAt id c) {other : Nat}
    (hchanged : Changed store store' other) (hne : id ≠ other) : store'.AgreesAt id c := by
  refine ⟨?_, fun a ha hid => ?_, h.keys⟩
  · rw [hchanged.cached id hne]
    exact h.cached
  · exact h.abilities a ((hchanged.abilities a (by rw [hid]; exact hne)).mp ha) hid

theorem agrees_iff_of_changed (h : store.Agrees) (hchanged : Changed store store' id) :
    store'.Agrees ↔ ∀ c, store'.db.channels.find id = some c → store'.AgreesAt id c := by
  refine ⟨fun h' => h'.channels id, fun h' => ⟨hchanged.memory.trans h.memory, fun k c hk => ?_⟩⟩
  rcases eq_or_ne k id with rfl | hne
  · exact h' c hk
  · rw [hchanged.channels k hne] at hk
    exact (h.channels k c hk).frame hchanged hne

theorem sameStatus_handler_self_iff (key : List Char) (reason : String) :
    (c.handlerMultiKeyUpdate key c.status reason).SameStatus c ↔
      ∀ i, c.keyIndex key = some i →
        c.keyStatus i = c.status ∧ (c.hasEnabledMultiKey = true ∨ c.status = .autoDisabled) := by
  have hd := Channel.handlerMultiKeyUpdate_handled c key c.status reason
  constructor
  · intro hsame i hi
    have hkey : c.keyStatus i = c.status := by
      rw [← hsame.keyStatus i, hd.keyStatus, if_pos hi]
    refine ⟨hkey, ?_⟩
    rw [← Channel.hasEnabledMultiKey_congr hsame.keys hsame.keyStatus]
    have hstatus := hsame.status
    revert hstatus
    generalize c.handlerMultiKeyUpdate key c.status reason = d at hd
    cases hd with
    | noKeys hnil =>
      have := Channel.keyIndex_lt hi
      rw [hnil] at this
      exact absurd this (Nat.not_lt_zero i)
    | unknownKey _ hkey _ | wholeChannel _ hkey _ => rw [hkey] at hi; cases hi
    | lastKey _ _ _ => exact fun hstatus => .inr hstatus.symm
    | enabledKey _ _ hsome _ | disabledKey _ _ hsome _ => exact fun _ => .inl hsome
  · intro h
    have hkeys : ∀ j, (c.handlerMultiKeyUpdate key c.status reason).keyStatus j =
      c.keyStatus j := by
      intro j
      rw [hd.keyStatus]
      split
      next hj => exact (h j hj).1.symm
      · rfl
    refine ⟨hd.frame.2.1, hd.frame.2.2.1, ?_, hkeys⟩
    have henabled := Channel.hasEnabledMultiKey_congr hd.frame.2.1 hkeys
    revert henabled
    generalize c.handlerMultiKeyUpdate key c.status reason = d at hd
    cases hd with
    | noKeys _ | unknownKey _ _ _ | wholeChannel _ _ _ | disabledKey _ _ _ _ => exact fun _ => rfl
    | lastKey _ hkey hnone =>
      intro henabled
      rcases (h _ hkey).2 with hsome | hauto
      · rw [← henabled] at hsome
        cases hsome.symm.trans hnone
      · exact hauto.symm
    | enabledKey _ _ _ henabled => exact fun _ => henabled.symm

variable {key : List Char} {status : ChannelStatus} {reason : String}

theorem handled_keys_iff {d : Channel} (hd : Channel.Handled c key status reason d)
    (hkeys : c.hasEnabledMultiKey = false → c.status ≠ .enabled) :
    (d.hasEnabledMultiKey = false → d.status ≠ .enabled) ↔
      (status = .enabled → c.keyIndex key = none → (key = [] ∨ c.keys = []) →
        c.hasEnabledMultiKey = true) := by
  have hnot : ∀ (p : Prop), (c.hasEnabledMultiKey = false → ¬ p) ↔
      (p → c.hasEnabledMultiKey = true) := fun p => by
    rw [← Bool.not_eq_true]
    exact ⟨fun h hp => not_not.mp fun hn => h hn hp, fun h hn hp => hn (h hp)⟩
  cases hd with
  | noKeys hnil =>
    have hnone : c.keyIndex key = none := by rw [Channel.keyIndex, hnil]; rfl
    exact (hnot (status = .enabled)).trans
      ⟨fun h hs _ _ => h hs, fun h hs => h hs hnone (.inr hnil)⟩
  | unknownKey hcons _ hname =>
    refine ⟨fun _ _ _ hwhole => ?_, fun _ => hkeys⟩
    rcases hwhole with hempty | hnil
    · exact absurd hempty hname
    · exact absurd hnil hcons
  | wholeChannel _ hkey hname =>
    exact (hnot (status = .enabled)).trans
      ⟨fun h hs _ _ => h hs, fun h hs => h hs hkey (.inl hname)⟩
  | lastKey _ hkey _ =>
    refine ⟨fun _ _ hnone => ?_, fun _ _ h => by cases h⟩
    cases hkey.symm.trans hnone
  | enabledKey _ hkey hsome _ | disabledKey _ hkey hsome _ =>
    refine ⟨fun _ _ hnone => ?_, fun _ hnone => ?_⟩
    · cases hkey.symm.trans hnone
    · cases hnone.symm.trans hsome

theorem abilities_withStatus (h : store.AgreesAt id c) {a : Ability}
    (ha : a ∈ if !c.channelInfo.isMultiKey ||
        c.status ≠ (c.withStatus key status reason).status then
      updateAbilityStatus store.db.abilities id (status = .enabled) else store.db.abilities)
    (hid : a.channelId = id) :
    a.enabled = decide ((c.withStatus key status reason).status = .enabled) := by
  split at ha
  next hwritten =>
    have henabled := mem_updateAbilityStatus ha
    rw [if_pos hid] at henabled
    rw [henabled, decide_eq_decide]
    unfold Channel.withStatus at hwritten ⊢
    cases hmulti : c.channelInfo.isMultiKey with
    | false => exact Iff.rfl
    | true =>
      rw [hmulti] at hwritten
      have hne : c.status ≠ (c.handlerMultiKeyUpdate key status reason).status := by
        simpa using hwritten
      exact ((Channel.handlerMultiKeyUpdate_handled c key status reason).status_enabled
        (Ne.symm hne)).symm
  next hkept =>
    rw [Bool.or_eq_true, not_or, decide_eq_true_eq, ne_eq, not_not] at hkept
    rw [h.abilities a ha hid, hkept.2]

theorem Agrees.call_missing (h : store.Agrees)
    (hfind : store.db.channels.find u.channelID = none) : (store.call u).Agrees := by
  unfold call
  rw [agrees_iff_of_changed h (updateChannelStatus_changed store _ _ _ _)]
  intro c hc
  unfold updateChannelStatus at hc
  cases hcached : store.updateCached u.channelID u.usingKey u.status u.reason with
  | none =>
    rw [hcached] at hc
    cases hfind.symm.trans hc
  | some t =>
    have hdb := (updateCached_changed hcached).2
    rw [hcached] at hc
    dsimp only at hc
    rw [updateStored, hdb, hfind] at hc
    rw [hdb] at hc
    cases hfind.symm.trans hc

theorem Agrees.call_single (h : store.Agrees) (hfind : store.db.channels.find u.channelID = some c)
    (hmulti : c.channelInfo.isMultiKey = false) : (store.call u).Agrees := by
  have hat := h.channels _ c hfind
  obtain ⟨cached, hcfind, hsame⟩ := hat.cached
  unfold call
  rw [agrees_iff_of_changed h (updateChannelStatus_changed store _ _ _ _)]
  unfold updateChannelStatus
  rcases @updateCached_single store u.channelID u.usingKey u.status u.reason cached h.memory hcfind
    (hsame.isMultiKey.trans hmulti) with ⟨_, heq⟩ | ⟨hne, cache, heq, hcache⟩ <;> rw [heq]
  · intro d hd
    cases hfind.symm.trans hd
    exact hat
  · rcases @updateStored_eq { store with cache } u.channelID u.usingKey u.status u.reason c hfind
      with ⟨hend, _⟩ | ⟨_, db, hstored, hchannels, habilities⟩
    · exact absurd (hsame.status.trans hend) hne
    dsimp only
    rw [hstored]
    intro d hd
    cases ((hchannels u.channelID).trans (if_pos rfl)).symm.trans hd
    have hwith : c.withStatus u.usingKey u.status u.reason =
        { c with status := u.status, statusReason := some u.reason } := by
      rw [Channel.withStatus, hmulti, if_neg Bool.false_ne_true]
    refine ⟨⟨{ cached with status := u.status }, ?_, ?_⟩, fun a ha hid => ?_, fun hm => ?_⟩
    · exact (hcache u.channelID).trans (if_pos rfl)
    · rw [hwith]
      exact ⟨hsame.keys, hsame.isMultiKey, rfl, hsame.keyStatus⟩
    · rw [habilities] at ha
      exact abilities_withStatus hat ha hid
    · rw [hwith] at hm
      cases hmulti.symm.trans hm

theorem Agrees.call_multi_iff (h : store.Agrees)
    (hfind : store.db.channels.find u.channelID = some c)
    (hmulti : c.channelInfo.isMultiKey = true) :
    (store.call u).Agrees ↔ store.KeepsAgreement u := by
  have hat := h.channels _ c hfind
  obtain ⟨cached, hcfind, hsame⟩ := hat.cached
  have hkeeps : store.KeepsAgreement u ↔ c.KeepsAgreement u := by
    refine ⟨fun h => h c hfind hmulti, fun h d hd _ => ?_⟩
    cases hfind.symm.trans hd
    exact h
  rw [hkeeps]
  obtain ⟨cache, heq, hcache⟩ := @updateCached_multi store u.channelID u.usingKey u.status u.reason
    cached h.memory hcfind (hsame.isMultiKey.trans hmulti)
  have hboth := hsame.handlerMultiKeyUpdate u.usingKey u.status u.reason
  have hcid := (hcache u.channelID).trans (if_pos rfl)
  unfold call
  rw [agrees_iff_of_changed h (updateChannelStatus_changed store _ _ _ _)]
  unfold updateChannelStatus
  rw [heq]
  dsimp only
  rcases @updateStored_eq { store with cache } u.channelID u.usingKey u.status u.reason c hfind with
    ⟨hend, hover, hstored⟩ | ⟨hgoes, db, hstored, hchannels, habilities⟩
  · -- The stored channel stays, so its cached copy must have stayed.
    rw [hstored]
    have hself := @sameStatus_handler_self_iff c u.usingKey u.reason
    rw [hend] at hself
    constructor
    · intro hafter
      obtain ⟨found, hfound, hfsame⟩ := (hafter c hfind).cached
      cases hcid.symm.trans hfound
      refine ⟨fun _ _ => hself.mp (hboth.symm.trans hfsame), fun henabled _ _ => ?_⟩
      by_contra hnone
      exact hat.keys hmulti (by simpa using hnone) (hend.trans henabled)
    · rintro ⟨hcond, _⟩ d hd
      cases hfind.symm.trans hd
      exact ⟨⟨_, hcid, hboth.trans (hself.mpr (hcond hend hover))⟩, hat.abilities, hat.keys⟩
  · -- Both copies change in the same way.
    rw [hstored]
    have hwith : c.withStatus u.usingKey u.status u.reason =
        c.handlerMultiKeyUpdate u.usingKey u.status u.reason := by
      rw [Channel.withStatus, if_pos hmulti]
    have hd := Channel.handlerMultiKeyUpdate_handled c u.usingKey u.status u.reason
    have hkeys := handled_keys_iff hd (hat.keys hmulti)
    have hnew : ({ store with cache, db } : ChannelStore).db.channels.find u.channelID =
        some (c.handlerMultiKeyUpdate u.usingKey u.status u.reason) :=
      (hchannels u.channelID).trans ((if_pos rfl).trans (congrArg some hwith))
    constructor
    · intro hafter
      refine ⟨fun hend hover => absurd (hgoes hend) (by rw [hover]; exact Bool.false_ne_true), ?_⟩
      exact hkeys.mp ((hafter _ hnew).keys (hd.frame.2.2.1.trans hmulti))
    · rintro ⟨_, hcond⟩ d hdfind
      cases hnew.symm.trans hdfind
      refine ⟨⟨_, hcid, hboth⟩, fun a ha hid => ?_, fun _ => hkeys.mpr hcond⟩
      rw [habilities] at ha
      rw [← hwith]
      exact abilities_withStatus hat ha hid

theorem agrees_call_iff (h : store.Agrees) (u : StatusCall) :
    (store.call u).Agrees ↔ store.KeepsAgreement u := by
  cases hfind : store.db.channels.find u.channelID with
  | none =>
    refine ⟨fun _ c hc => ?_, fun _ => h.call_missing hfind⟩
    cases hfind.symm.trans hc
  | some c =>
    cases hmulti : c.channelInfo.isMultiKey with
    | false =>
      refine ⟨fun _ d hd hm => ?_, fun _ => h.call_single hfind hmulti⟩
      cases hfind.symm.trans hd
      cases hmulti.symm.trans hm
    | true => exact h.call_multi_iff hfind hmulti

end Step

/-! ## Sequences of calls -/

theorem initChannelCache_agrees {db : ChannelDb} {old cache : ChannelCache}
    (hinit : initChannelCache db old = some cache)
    (habilities : ∀ a ∈ db.abilities, ∀ c, db.channels.find a.channelId = some c →
      a.enabled = decide (c.status = .enabled))
    (hkeys : ∀ c ∈ db.channels.rows, c.channelInfo.isMultiKey = true →
      c.hasEnabledMultiKey = false → c.status ≠ .enabled) :
    Agrees ⟨true, db, cache⟩ := by
  refine ⟨rfl, fun id c hfind => ⟨⟨keepPollingIndex old.channelsIDM c, ?_, ?_⟩,
    fun a ha hid => habilities a ha c (by rw [hid]; exact hfind), hkeys c (Table.find_mem hfind)⟩⟩
  · unfold initChannelCache at hinit
    split at hinit
    · cases hinit
    · cases hinit
      rw [Table.find_update, hfind]
      rfl
  · obtain ⟨index, heq⟩ := keepPollingIndex_eq old.channelsIDM c
    rw [heq]
    exact ⟨rfl, rfl, rfl, fun _ => rfl⟩

/-- From a cache that was just built, the status is the same everywhere after each call of a
sequence if and only if every call meets the condition. -/
theorem status_agrees_iff {db : ChannelDb} {old cache : ChannelCache}
    (hinit : initChannelCache db old = some cache)
    (habilities : ∀ a ∈ db.abilities, ∀ c, db.channels.find a.channelId = some c →
      a.enabled = decide (c.status = .enabled))
    (hkeys : ∀ c ∈ db.channels.rows, c.channelInfo.isMultiKey = true →
      c.hasEnabledMultiKey = false → c.status ≠ .enabled)
    (calls : List StatusCall) :
    (∀ before after, calls = before ++ after →
      (run call ⟨true, db, cache⟩ before).Agrees) ↔
      Along call KeepsAgreement ⟨true, db, cache⟩ calls :=
  forall_prefix_iff_along (I := Agrees) (C := KeepsAgreement) (fun _ u h => agrees_call_iff h u)
    (initChannelCache_agrees hinit habilities hkeys)

/-! ## Two keys -/

theorem KeepsAgreement.of_found {store : ChannelStore} {u : StatusCall} {c : Channel}
    (hfind : store.db.channels.find u.channelID = some c) (h : c.KeepsAgreement u) :
    store.KeepsAgreement u := fun d hd _ => by
  cases hfind.symm.trans hd
  exact h

/-- A channel with the keys `a` and `b`. -/
def twoKeys (mode : MultiKeyMode) : Channel :=
  { plainChannel 1 "default" "gpt-5" with
    keys := ["a".toList, "b".toList]
    channelInfo := ⟨true, .empty, 0, mode⟩ }

def twoKeysStore (mode : MultiKeyMode) (memoryCacheEnabled : Bool) : ChannelStore where
  memoryCacheEnabled := memoryCacheEnabled
  db := ⟨⟨[twoKeys mode], List.nodup_singleton _⟩, (twoKeys mode).abilities⟩
  cache := (initChannelCache ⟨⟨[twoKeys mode], List.nodup_singleton _⟩, (twoKeys mode).abilities⟩
    .empty).getD .empty

theorem keys_disabled_and_enabled_agree :
    (run call (twoKeysStore .random true)
      [⟨1, "a".toList, .autoDisabled, "401"⟩, ⟨1, "b".toList, .autoDisabled, "401"⟩,
        ⟨1, "a".toList, .enabled, ""⟩]).Agrees := by
  refine (@status_agrees_iff (twoKeysStore .random true).db .empty
    (twoKeysStore .random true).cache rfl (by decide) (by decide)
    [⟨1, "a".toList, .autoDisabled, "401"⟩, ⟨1, "b".toList, .autoDisabled, "401"⟩,
      ⟨1, "a".toList, .enabled, ""⟩]).mpr ⟨?_, ?_, ?_, trivial⟩ _ [] (List.append_nil _).symm
  · exact .of_found rfl ⟨fun h => absurd h (by decide), fun h => absurd h (by decide)⟩
  · exact .of_found rfl ⟨fun h => absurd h (by decide), fun h => absurd h (by decide)⟩
  · exact .of_found rfl ⟨fun h => absurd h (by decide), fun _ h => absurd h (by decide)⟩

/-- A key that is enabled again is enabled in the cache only, and a channel can be enabled with
all its keys disabled. -/
theorem key_enabled_in_cache_only :
    let store := run call (twoKeysStore .random true)
      [⟨1, "a".toList, .autoDisabled, "401"⟩, ⟨1, "a".toList, .enabled, ""⟩]
    let other := run call (twoKeysStore .random true)
      [⟨1, "a".toList, .autoDisabled, "401"⟩, ⟨1, "b".toList, .autoDisabled, "401"⟩,
        ⟨1, [], .enabled, ""⟩]
    (store.cache.channelsIDM.find 1).map (fun c => c.keyStatus 0) = some .enabled ∧
    (store.db.channels.find 1).map (fun c => c.keyStatus 0) = some .autoDisabled ∧
    (other.db.channels.find 1).map (fun c => (c.status, c.hasEnabledMultiKey)) =
      some (.enabled, false) := by
  refine ⟨?_, ?_, ?_⟩ <;> decide

end ChannelStore

end NewApi
