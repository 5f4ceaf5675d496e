import NewApi.Channel.StatusAgreement

/-!
# Keys that are disabled

A call of `GetNextEnabledKey` works on a record of the channel, the cached one or a copy of the
table. It picks a key that the record does not show as disabled. In polling mode it moves the
polling index of the record and, without the memory cache, saves its whole `ChannelInfo`.

So a key that was disabled can come back in two ways. A copy from before saves its statuses over
the new ones, and a key that stands in the list twice is disabled at its first place only.
-/

namespace NewApi

open Runs Text

/-! ## `GetNextEnabledKey` -/

variable (c : Channel)

def Channel.enabledIdx : List Nat :=
  (List.range c.keys.length).filter fun i => c.keyStatus i = .enabled

/-- The first enabled key from a position on, around the list. -/
def Channel.pollFrom (start : Nat) : Option Nat :=
  ((List.range c.keys.length).map fun i => (start + i) % c.keys.length).find? fun i =>
    c.keyStatus i = .enabled

/-- What a call gives: its result, the record after it, and whether the record is saved. -/
structure NextKey where
  result : Except String (List Char × Nat)
  record : Channel
  saves : Bool

def Channel.keyAt (i : Nat) : Except String (List Char × Nat) := .ok (c.keys.getD i [], i)

/-- `GetNextEnabledKey`, with what `CacheGetChannelInfo` gives and the number that is drawn. -/
def Channel.getNextEnabledKey (info : Except String ChannelInfo) (random : Nat) : NextKey :=
  if !c.channelInfo.isMultiKey then ⟨.ok (join '\n' c.keys, 0), c, false⟩
  else if c.keys = [] then ⟨.error "no keys available", c, false⟩
  else
    match c.enabledIdx with
    | [] => ⟨.error "no enabled keys", c, false⟩
    | first :: rest =>
      match c.channelInfo.multiKeyMode with
      | .random => ⟨c.keyAt ((first :: rest).getD (random % (rest.length + 1)) first), c, false⟩
      | .polling =>
        match info with
        | .error e => ⟨.error e, c, false⟩
        | .ok info =>
          let start := info.multiKeyPollingIndex
          match c.pollFrom (if c.keys.length ≤ start then 0 else start) with
          | some idx =>
            ⟨c.keyAt idx, { c with channelInfo := { c.channelInfo with
              multiKeyPollingIndex := (idx + 1) % c.keys.length } }, true⟩
          | none => ⟨c.keyAt first, c, true⟩
      | .unset => ⟨c.keyAt first, c, false⟩

/-! ## Records and calls -/

/-- A copy of a channel that was read from the table. -/
structure LoadedRecord where
  handle : Nat
  channel : Channel

structure KeyState where
  store : ChannelStore
  records : Table LoadedRecord.handle

/-- The record of a call. -/
inductive RecordRef where
  | loaded (handle : Nat)
  | cached (channelID : Nat)

inductive KeyAction where
  /-- `GetChannelById`. -/
  | load (handle channelID : Nat)
  | update (u : StatusCall)
  | next (ref : RecordRef) (random : Nat)

namespace ChannelStore

/-- `CacheGetChannelInfo`. -/
def cacheGetChannelInfo (store : ChannelStore) (id : Nat) : Except String ChannelInfo :=
  if store.memoryCacheEnabled then
    match store.cache.channelsIDM.find id with
    | some c => .ok c.channelInfo
    | none => .error s!"渠道# {id}，已不存在"
  else
    match store.db.channels.find id with
    | some c => .ok c.channelInfo
    | none => .error "record not found"

/-- `SaveChannelInfo`. -/
def saveChannelInfo (store : ChannelStore) (record : Channel) : ChannelStore :=
  match store.db.channels.find record.id with
  | some row =>
    { store with db := { store.db with
      channels := store.db.channels.save { row with channelInfo := record.channelInfo } } }
  | none => store

end ChannelStore

namespace KeyState

def start (store : ChannelStore) : KeyState := ⟨store, .empty⟩

def record (s : KeyState) : RecordRef → Option Channel
  | .loaded handle => (s.records.find handle).map LoadedRecord.channel
  | .cached channelID =>
    if s.store.memoryCacheEnabled then s.store.cache.channelsIDM.find channelID else none

variable (s : KeyState)

def nextKey (ref : RecordRef) (random : Nat) : Option NextKey :=
  (s.record ref).map fun c => c.getNextEnabledKey (s.store.cacheGetChannelInfo c.id) random

def writeBack (ref : RecordRef) (c : Channel) : KeyState :=
  match ref with
  | .loaded handle => { s with records := s.records.put ⟨handle, c⟩ }
  | .cached _ =>
    { s with store := { s.store with cache := { s.store.cache with
      channelsIDM := s.store.cache.channelsIDM.save c } } }

/-- `GetChannelById`. -/
def load (handle channelID : Nat) : KeyState :=
  match s.store.db.channels.find channelID with
  | some c => { s with records := s.records.put ⟨handle, c⟩ }
  | none => s

def next (s : KeyState) (ref : RecordRef) (random : Nat) : KeyState :=
  match s.nextKey ref random with
  | none => s
  | some next =>
    let s := s.writeBack ref next.record
    if next.saves && !s.store.memoryCacheEnabled then
      { s with store := s.store.saveChannelInfo next.record }
    else s

def step : KeyAction → KeyState
  | .load handle channelID => s.load handle channelID
  | .update u => { s with store := s.store.call u }
  | .next ref random => s.next ref random

end KeyState

/-! ## The keys that can be returned -/

section NextKey

variable {c : Channel} {i : Nat}

theorem Channel.mem_enabledIdx :
    i ∈ c.enabledIdx ↔ i < c.keys.length ∧ c.keyStatus i = .enabled := by
  simp [enabledIdx]

theorem Channel.pollFrom_enabled {start : Nat} (h : c.pollFrom start = some i) :
    i ∈ c.enabledIdx := by
  obtain ⟨k, hk, rfl⟩ := List.mem_map.mp (List.mem_of_find?_eq_some h)
  refine mem_enabledIdx.mpr ⟨Nat.mod_lt _ ?_, by simpa using List.find?_some h⟩
  exact Nat.lt_of_le_of_lt (Nat.zero_le k) (List.mem_range.mp hk)

/-- What a call does: with several keys, the key is enabled in the record. Only the polling index
of the record changes, and it is saved only in polling mode. -/
structure Channel.Picks (c : Channel) (next : NextKey) : Prop where
  enabled : c.channelInfo.isMultiKey = true → ∀ key i, next.result = .ok (key, i) →
    c.keys[i]? = some key ∧ c.keyStatus i = .enabled
  record : ∃ index, next.record =
    { c with channelInfo := { c.channelInfo with multiKeyPollingIndex := index } }
  saves : next.saves = true →
    c.channelInfo.isMultiKey = true ∧ c.channelInfo.multiKeyMode = .polling

theorem Channel.keyAt_enabled (h : i ∈ c.enabledIdx) {key : List Char} {j : Nat}
    (hkey : c.keyAt i = .ok (key, j)) : c.keys[j]? = some key ∧ c.keyStatus j = .enabled := by
  obtain ⟨hlt, henabled⟩ := mem_enabledIdx.mp h
  cases hkey
  refine ⟨?_, henabled⟩
  rw [List.getD_eq_getElem?_getD, List.getElem?_eq_getElem hlt]
  rfl

theorem Channel.getNextEnabledKey_picks (c : Channel) (info : Except String ChannelInfo)
    (random : Nat) : c.Picks (c.getNextEnabledKey info random) := by
  have hsame : ∃ index, c =
      { c with channelInfo := { c.channelInfo with multiKeyPollingIndex := index } } :=
    ⟨c.channelInfo.multiKeyPollingIndex, rfl⟩
  unfold getNextEnabledKey
  cases hmulti : c.channelInfo.isMultiKey with
  | false =>
    refine ⟨fun h => ?_, hsame, fun h => (by cases h)⟩
    cases hmulti.symm.trans h
  | true =>
    rw [Bool.not_true, if_neg Bool.false_ne_true]
    split
    · exact ⟨fun _ _ _ h => (by cases h), hsame, fun h => (by cases h)⟩
    split
    · exact ⟨fun _ _ _ h => (by cases h), hsame, fun h => (by cases h)⟩
    next first rest henabled =>
    have hfirst : first ∈ c.enabledIdx := by
      rw [henabled]
      exact List.mem_cons_self
    cases hmode : c.channelInfo.multiKeyMode with
    | random =>
      have hdrawn : (first :: rest).getD (random % (rest.length + 1)) first ∈ c.enabledIdx := by
        have hlt : random % (rest.length + 1) < (first :: rest).length :=
          Nat.mod_lt _ (Nat.succ_pos _)
        rw [List.getD_eq_getElem?_getD, List.getElem?_eq_getElem hlt, henabled]
        exact List.getElem_mem hlt
      exact ⟨fun _ _ _ h => keyAt_enabled hdrawn h, hsame, fun h => (by cases h)⟩
    | polling =>
      dsimp only
      split
      · exact ⟨fun _ _ _ h => (by cases h), hsame, fun h => (by cases h)⟩
      split
      next idx hpoll =>
        exact ⟨fun _ _ _ h => keyAt_enabled (pollFrom_enabled hpoll) h, ⟨_, rfl⟩,
          fun _ => ⟨hmulti, hmode⟩⟩
      · exact ⟨fun _ _ _ h => keyAt_enabled hfirst h, hsame, fun _ => ⟨hmulti, hmode⟩⟩
    | unset => exact ⟨fun _ _ _ h => keyAt_enabled hfirst h, hsame, fun h => (by cases h)⟩

end NextKey

/-! ## What holds of every copy of a channel -/

namespace ChannelStore

variable {store : ChannelStore} {record : Channel}

theorem find_saveChannelInfo (store : ChannelStore) (record : Channel) (other : Nat) :
    (store.saveChannelInfo record).db.channels.find other =
      if record.id = other then
        (store.db.channels.find other).map fun row => { row with channelInfo := record.channelInfo }
      else store.db.channels.find other := by
  unfold saveChannelInfo
  cases hfind : store.db.channels.find record.id with dsimp only
  | none =>
    split
    next h => rw [← h, hfind]; rfl
    · rfl
  | some row =>
    have hid : row.id = record.id := Table.find_key hfind
    rw [Table.find_save_at hfind
      (show ({ row with channelInfo := record.channelInfo } : Channel).id = record.id from hid)]
    split
    next h => rw [← h, hfind]; rfl
    · rfl

theorem saveChannelInfo_memory (store : ChannelStore) (record : Channel) :
    (store.saveChannelInfo record).memoryCacheEnabled = store.memoryCacheEnabled := by
  unfold saveChannelInfo
  split <;> rfl

end ChannelStore

def Channel.withPollingIndex (c : Channel) (index : Nat) : Channel :=
  { c with channelInfo := { c.channelInfo with multiKeyPollingIndex := index } }

namespace KeyState

variable {s : KeyState} {id : Nat} {P : Channel → Prop} {fresh : Nat → Prop}

/-- A property of the stored channel, of the cached one and of the copies with some handles. -/
structure Each (id : Nat) (P : Channel → Prop) (fresh : Nat → Prop) (s : KeyState) : Prop where
  stored : ∃ c, s.store.db.channels.find id = some c ∧ P c
  cached : s.store.memoryCacheEnabled = true → ∀ c, s.store.cache.channelsIDM.find id = some c → P c
  loaded : ∀ r ∈ s.records.rows, fresh r.handle → r.channel.id = id → P r.channel

theorem Each.load (h : s.Each id P fresh) (handle channelID : Nat) :
    (s.load handle channelID).Each id P fun k => (k = handle ∧ channelID = id) ∨ fresh k := by
  obtain ⟨row, hrow, hP⟩ := h.stored
  unfold KeyState.load
  cases hfind : s.store.db.channels.find channelID with
  | none =>
    refine ⟨h.stored, h.cached, fun r hr hfresh hid => ?_⟩
    rcases hfresh with ⟨_, rfl⟩ | hfresh
    · cases hfind.symm.trans hrow
    · exact h.loaded r hr hfresh hid
  | some c =>
    refine ⟨h.stored, h.cached, fun r hr hfresh hid => ?_⟩
    rcases Table.mem_put.mp hr with rfl | ⟨hr, hne⟩
    · rw [← hid, show c.id = channelID from Table.find_key hfind, hfind] at hrow
      cases hrow
      exact hP
    · rcases hfresh with ⟨heq, _⟩ | hfresh
      · exact absurd heq hne
      · exact h.loaded r hr hfresh hid

theorem Each.update (h : s.Each id P fresh) (hmulti : ∀ c, P c → c.channelInfo.isMultiKey = true)
    {u : StatusCall}
    (hu : u.channelID = id → ∀ c, P c → P (c.handlerMultiKeyUpdate u.usingKey u.status u.reason)) :
    (s.step (.update u)).Each id P fresh := by
  obtain ⟨row, hrow, hP⟩ := h.stored
  refine ⟨?_, fun hm c hc => ?_, h.loaded⟩
  · obtain ⟨c, hc, hcase⟩ := ChannelStore.updateChannelStatus_stored hrow u.channelID u.usingKey
      u.status u.reason
    refine ⟨c, hc, ?_⟩
    rcases hcase with ⟨rfl, _⟩ | ⟨hid, rfl⟩
    · exact hP
    · rw [Channel.withStatus, if_pos (hmulti row hP)]
      exact hu hid row hP
  · obtain ⟨old, hold, hcase⟩ := ChannelStore.updateChannelStatus_cached hc
    have hmemory := (ChannelStore.updateChannelStatus_changed s.store u.channelID u.usingKey
      u.status u.reason).memory
    have hPold := h.cached (hmemory.symm.trans hm) old hold
    rcases hcase with ⟨rfl, _⟩ | ⟨hid, rfl⟩
    · exact hPold
    · rw [if_pos (hmulti old hPold)]
      exact hu hid old hPold

theorem Each.next (h : s.Each id P fresh)
    (hindex : ∀ c index, P c → P (c.withPollingIndex index)) (ref : RecordRef) (random : Nat)
    (hsave : ∀ record row, s.record ref = some record → s.store.memoryCacheEnabled = false →
      record.channelInfo.isMultiKey = true → record.channelInfo.multiKeyMode = .polling →
      record.id = id → s.store.db.channels.find id = some row → P row →
      ∀ index, P { row with channelInfo := (record.withPollingIndex index).channelInfo }) :
    (s.next ref random).Each id P fresh := by
  obtain ⟨row, hrow, hP⟩ := h.stored
  unfold KeyState.next nextKey
  cases hrecord : s.record ref with
  | none => exact h
  | some record =>
    dsimp only [Option.map_some]
    have hpicks := record.getNextEnabledKey_picks (s.store.cacheGetChannelInfo record.id) random
    generalize record.getNextEnabledKey (s.store.cacheGetChannelInfo record.id) random = out
      at hpicks
    obtain ⟨index, hout⟩ := hpicks.record
    -- The record with its new index is written back where it came from.
    have hback : (s.writeBack ref out.record).Each id P fresh ∧
        (s.writeBack ref out.record).store.db = s.store.db ∧
        (s.writeBack ref out.record).store.memoryCacheEnabled = s.store.memoryCacheEnabled := by
      rw [hout]
      cases ref with
      | loaded handle =>
        refine ⟨⟨h.stored, h.cached, fun r hr hfresh hid => ?_⟩, rfl, rfl⟩
        rcases Table.mem_put.mp hr with rfl | ⟨hr, _⟩
        · obtain ⟨old, hold, rfl⟩ := Option.map_eq_some_iff.mp hrecord
          refine hindex _ index (h.loaded old (Table.find_mem hold) ?_ hid)
          rw [show old.handle = handle from Table.find_key hold]
          exact hfresh
        · exact h.loaded r hr hfresh hid
      | cached channelID =>
        refine ⟨⟨h.stored, fun hm c hc => ?_, h.loaded⟩, rfl, rfl⟩
        have hfound : s.store.cache.channelsIDM.find channelID = some record := by
          dsimp only [KeyState.record] at hrecord
          split at hrecord
          · exact hrecord
          · cases hrecord
        have hid : record.id = channelID := Table.find_key hfound
        have hsaved := Table.find_save_at hfound
          (show (record.withPollingIndex index).id = channelID from hid) id
        have hc := hsaved.symm.trans hc
        split at hc
        next heq =>
          cases hc
          rw [heq] at hfound
          exact hindex _ index (h.cached hm _ hfound)
        · exact h.cached hm c hc
    obtain ⟨heach, hdb, hmemory⟩ := hback
    split
    next hsaves =>
      rw [Bool.and_eq_true, Bool.not_eq_true', hmemory] at hsaves
      obtain ⟨hmulti, hmode⟩ := hpicks.saves hsaves.1
      refine ⟨?_, fun hm c hc => ?_, heach.loaded⟩
      · rw [ChannelStore.find_saveChannelInfo, hdb, hrow, hout]
        split
        next hid =>
          exact ⟨_, rfl, hsave record row hrecord hsaves.2 hmulti hmode hid hrow hP index⟩
        · exact ⟨row, rfl, hP⟩
      · rw [ChannelStore.saveChannelInfo_memory, hmemory, hsaves.2] at hm
        cases hm
    · exact heach

theorem Each.mono (h : s.Each id P fresh) {fresh' : Nat → Prop} (hsub : ∀ k, fresh' k → fresh k) :
    s.Each id P fresh' :=
  ⟨h.stored, h.cached, fun r hr hfresh => h.loaded r hr (hsub _ hfresh)⟩

end KeyState

/-! ## The keys stay -/

/-- A copy of a channel with these keys. -/
structure Channel.HasKeys (keys : List (List Char)) (c : Channel) : Prop where
  keys : c.keys = keys
  isMultiKey : c.channelInfo.isMultiKey = true

def Channel.KeyDisabled (key : List Char) (c : Channel) : Prop :=
  ∀ i, c.keys[i]? = some key → c.keyStatus i ≠ .enabled

section Disabled

variable {keys : List (List Char)} {key : List Char} {c : Channel} {id : Nat} {s : KeyState}

theorem Channel.keyIndex_getElem {i : Nat} (h : c.keyIndex key = some i) :
    c.keys[i]? = some key := by
  obtain ⟨hlt, hkey, _⟩ := List.findIdx?_eq_some_iff_getElem.mp h
  rw [List.getElem?_eq_getElem hlt]
  exact congrArg some (of_decide_eq_true hkey)

theorem Channel.HasKeys.handlerMultiKeyUpdate (h : c.HasKeys keys) (usingKey : List Char)
    (status : ChannelStatus) (reason : String) :
    (c.handlerMultiKeyUpdate usingKey status reason).HasKeys keys := by
  obtain ⟨_, hkeys, hmulti, _⟩ :=
    (Channel.handlerMultiKeyUpdate_handled c usingKey status reason).frame
  exact ⟨hkeys.trans h.keys, hmulti.trans h.isMultiKey⟩

variable {status : ChannelStatus}

theorem Channel.KeyDisabled.handlerMultiKeyUpdate (h : c.KeyDisabled key) {usingKey : List Char}
    (reason : String) (hnot : usingKey = key → status ≠ .enabled) :
    (c.handlerMultiKeyUpdate usingKey status reason).KeyDisabled key := by
  have hd := Channel.handlerMultiKeyUpdate_handled c usingKey status reason
  intro i hi
  rw [hd.frame.2.1] at hi
  rw [hd.keyStatus]
  split
  next hindex =>
    have := Channel.keyIndex_getElem hindex
    rw [hi] at this
    exact hnot (Option.some.inj this).symm
  · exact h i hi

theorem eq_of_count_le_one {α : Type} [BEq α] [LawfulBEq α] {l : List α} {a : α} (h : l.count a ≤ 1)
    {i j : Nat} (hi : l[i]? = some a) (hj : l[j]? = some a) : i = j := by
  induction l generalizing i j with
  | nil => cases hi
  | cons x xs ih =>
    -- If the first element is the one, it is not among the others.
    have hhead : ∀ k, x = a → xs[k]? ≠ some a := fun k hx hk => by
      have hpos := List.count_pos_iff.mpr (List.mem_of_getElem? hk)
      rw [hx, List.count_cons_self] at h
      omega
    cases i with
    | zero =>
      cases j with
      | zero => rfl
      | succ j => exact absurd hj (hhead j (Option.some.inj hi))
    | succ i =>
      cases j with
      | zero => exact absurd hi (hhead i (Option.some.inj hj))
      | succ j => rw [ih ((List.count_le_count_cons).trans h) hi hj]

theorem Channel.keyDisabled_handlerMultiKeyUpdate (honce : c.keys.count key ≤ 1)
    (hstatus : status ≠ .enabled) (reason : String) :
    (c.handlerMultiKeyUpdate key status reason).KeyDisabled key := by
  have hd := Channel.handlerMultiKeyUpdate_handled c key status reason
  intro i hi
  rw [hd.frame.2.1] at hi
  have hsome : (c.keyIndex key).isSome := by
    rw [Channel.keyIndex, List.findIdx?_isSome, List.any_eq_true]
    exact ⟨key, List.mem_of_getElem? hi, decide_eq_true rfl⟩
  obtain ⟨j, hj⟩ := Option.isSome_iff_exists.mp hsome
  rw [hd.keyStatus, hj, eq_of_count_le_one honce (Channel.keyIndex_getElem hj) hi, if_pos rfl]
  exact hstatus

/-- The action enables the key or the whole channel. -/
def KeyAction.Enables (id : Nat) (key : List Char) : KeyAction → Prop
  | .update u => u.channelID = id ∧ u.status = .enabled ∧ (u.usingKey = key ∨ u.usingKey = [])
  | _ => False

/-- A record that is saved has the key statuses that are stored. -/
def KeyState.FreshSave (s : KeyState) : KeyAction → Prop
  | .next ref _ => ∀ record row, s.record ref = some record → s.store.memoryCacheEnabled = false →
      record.channelInfo.multiKeyMode = .polling → s.store.db.channels.find record.id = some row →
      ∀ i, record.keyStatus i = row.keyStatus i
  | _ => True

theorem KeyState.FreshSave.of_stored {ref : RecordRef} {random : Nat}
    (h : ∀ record ∈ s.record ref, s.store.db.channels.find record.id = some record) :
    s.FreshSave (.next ref random) := by
  intro record row hrecord _ _ hrow i
  cases (h record hrecord).symm.trans hrow
  rfl

theorem hasKeys_step (h : s.Each id (Channel.HasKeys keys) fun _ => True) (a : KeyAction) :
    (s.step a).Each id (Channel.HasKeys keys) fun _ => True := by
  cases a with
  | load handle channelID => exact (h.load handle channelID).mono fun _ _ => .inr trivial
  | update u =>
    exact h.update (fun _ hc => hc.isMultiKey) fun _ _ hc =>
      hc.handlerMultiKeyUpdate u.usingKey u.status u.reason
  | next ref random =>
    exact h.next (fun _ _ hc => ⟨hc.keys, hc.isMultiKey⟩) ref random
      fun _ _ _ _ hmulti _ _ _ hrow _ => ⟨hrow.keys, hmulti⟩

/-- The handles under which an action loads the channel. -/
def KeyAction.loads (id : Nat) (a : KeyAction) (handle : Nat) : Prop := a = .load handle id

/-- An action that does not enable the key leaves it disabled in the table, in the cache and in
the copies loaded since. -/
theorem keyDisabled_step {fresh : Nat → Prop} {a : KeyAction}
    (h : s.Each id (fun c => c.HasKeys keys ∧ c.KeyDisabled key) fresh)
    (hnot : ¬ a.Enables id key) (hfresh : s.FreshSave a) :
    (s.step a).Each id (fun c => c.HasKeys keys ∧ c.KeyDisabled key)
      fun handle => a.loads id handle ∨ fresh handle := by
  have hother : ∀ handle, (∀ k, a ≠ .load handle k) → ¬ a.loads id handle :=
    fun handle hne hload => hne id hload
  cases a with
  | load handle channelID =>
    refine (h.load handle channelID).mono fun k hk => ?_
    rcases hk with hload | hk
    · cases hload
      exact .inl ⟨rfl, rfl⟩
    · exact .inr hk
  | update u =>
    refine KeyState.Each.mono ?_ fun k hk => hk.resolve_left (hother k fun _ hc => by cases hc)
    refine h.update (fun _ hc => hc.1.isMultiKey) fun hid c hc => ⟨?_, ?_⟩
    · exact hc.1.handlerMultiKeyUpdate u.usingKey u.status u.reason
    · exact hc.2.handlerMultiKeyUpdate u.reason fun hname henabled =>
        hnot ⟨hid, henabled, .inl hname⟩
  | next ref random =>
    refine KeyState.Each.mono ?_ fun k hk => hk.resolve_left (hother k fun _ hc => by cases hc)
    refine h.next (fun _ _ hc => ⟨⟨hc.1.keys, hc.1.isMultiKey⟩, hc.2⟩) ref random
      fun record row hrecord hm hmulti hmode hid hfind hrow index => ?_
    refine ⟨⟨hrow.1.keys, hmulti⟩, fun i hi => ?_⟩
    -- The statuses that are saved are those that were stored.
    have hsame := hfresh record row hrecord hm hmode (by rw [hid]; exact hfind) i
    have hrowi := hrow.2 i hi
    rw [← hsame] at hrowi
    exact hrowi

theorem keyDisabled_run {fresh : Nat → Prop} {as : List KeyAction}
    (h : s.Each id (fun c => c.HasKeys keys ∧ c.KeyDisabled key) fresh)
    (hnot : ∀ a ∈ as, ¬ a.Enables id key) (hfresh : Along KeyState.step KeyState.FreshSave s as) :
    (run KeyState.step s as).Each id (fun c => c.HasKeys keys ∧ c.KeyDisabled key)
      fun handle => KeyAction.load handle id ∈ as ∨ fresh handle := by
  induction as generalizing s fresh with
  | nil => exact h.mono fun _ hk => hk.resolve_left List.not_mem_nil
  | cons a as ih =>
    refine KeyState.Each.mono (ih (keyDisabled_step h (hnot a List.mem_cons_self) hfresh.1)
      (fun b hb => hnot b (List.mem_cons_of_mem a hb)) hfresh.2) fun k hk => ?_
    rcases hk with hk | hk
    · rcases List.mem_cons.mp hk with heq | hk
      · exact .inr (.inl heq.symm)
      · exact .inl hk
    · exact .inr (.inr hk)

theorem keyDisabled_update (h : s.Each id (Channel.HasKeys keys) fun _ => True)
    (honce : keys.count key ≤ 1) (hstatus : status ≠ .enabled) {reason : String}
    (htrue : (s.store.updateChannelStatus id key status reason).1 = true) :
    (s.step (.update ⟨id, key, status, reason⟩)).Each id
      (fun c => c.HasKeys keys ∧ c.KeyDisabled key) fun _ => False := by
  obtain ⟨row, hrow, hP⟩ := h.stored
  have hnew : ∀ c : Channel, c.HasKeys keys →
      (c.handlerMultiKeyUpdate key status reason).HasKeys keys ∧
        (c.handlerMultiKeyUpdate key status reason).KeyDisabled key := fun c hc =>
    ⟨hc.handlerMultiKeyUpdate key status reason,
      Channel.keyDisabled_handlerMultiKeyUpdate (by rw [hc.keys]; exact honce) hstatus reason⟩
  refine ⟨?_, fun hm c hc => ?_, fun _ _ hfalse => hfalse.elim⟩
  · obtain ⟨c, hc, ⟨_, hne⟩ | ⟨_, rfl⟩⟩ :=
      ChannelStore.updateChannelStatus_stored hrow id key status reason
    · exact absurd rfl (hne htrue)
    · refine ⟨_, hc, ?_⟩
      rw [Channel.withStatus, if_pos hP.isMultiKey]
      exact hnew row hP
  · have hmemory : s.store.memoryCacheEnabled = true :=
      (ChannelStore.updateChannelStatus_changed s.store id key status reason).memory.symm.trans hm
    obtain ⟨old, hold, ⟨_, hne⟩ | ⟨_, rfl⟩⟩ := ChannelStore.updateChannelStatus_cached hc
    · exact absurd rfl (hne hmemory htrue)
    · have hPold := h.cached hmemory old hold
      rw [if_pos hPold.isMultiKey]
      exact hnew old hPold

theorem nextKey_ne {record : Channel} (hkeys : record.HasKeys keys)
    (hdisabled : record.KeyDisabled key) (info : Except String ChannelInfo) (random i : Nat) :
    (record.getNextEnabledKey info random).result ≠ .ok (key, i) := by
  intro hresult
  obtain ⟨hkey, henabled⟩ := (record.getNextEnabledKey_picks info random).enabled hkeys.isMultiKey
    key i hresult
  exact hdisabled i hkey henabled

/-- After a call has disabled a key that stands in the list once, the key stays disabled in the
table and is not given by a record loaded since, until it or the channel is enabled, as long as
every record that is saved has the key statuses that are stored. -/
theorem disabled_key_stays_disabled {store : ChannelStore}
    (hfind : store.db.channels.find id = some c) (hmulti : c.channelInfo.isMultiKey = true)
    (hcached : ∀ cached, store.cache.channelsIDM.find id = some cached →
      cached.keys = c.keys ∧ cached.channelInfo.isMultiKey = true)
    (honce : c.keys.count key ≤ 1) (before after : List KeyAction) {status : ChannelStatus}
    (hstatus : status ≠ .enabled) (reason : String)
    (htrue : ((run KeyState.step (.start store) before).store.updateChannelStatus id key status
      reason).1 = true)
    (hnot : ∀ a ∈ after, ¬ a.Enables id key)
    (hfresh : Along KeyState.step KeyState.FreshSave
      (run KeyState.step (.start store) (before ++ [.update ⟨id, key, status, reason⟩])) after)
    {t : KeyState}
    (ht : t = run KeyState.step (.start store)
      (before ++ [.update ⟨id, key, status, reason⟩] ++ after)) :
    (∃ row, t.store.db.channels.find id = some row ∧ row.KeyDisabled key) ∧
    (∀ handle, KeyAction.load handle id ∈ after →
      ∀ record, t.record (.loaded handle) = some record → record.id = id →
      ∀ random next, t.nextKey (.loaded handle) random = some next →
      ∀ i, next.result ≠ .ok (key, i)) ∧
    ∀ random next, t.nextKey (.cached id) random = some next →
      ∀ i, next.result ≠ .ok (key, i) := by
  have hstart : (KeyState.start store).Each id (Channel.HasKeys c.keys) fun _ => True :=
    ⟨⟨c, hfind, rfl, hmulti⟩, fun _ cached h => ⟨(hcached cached h).1, (hcached cached h).2⟩,
      fun _ hr => (by cases hr)⟩
  have hbefore := run_invariant_of_step
    (I := fun s : KeyState => s.Each id (Channel.HasKeys c.keys) fun _ => True)
    (fun _ a h => hasKeys_step h a) before hstart
  have hdisabled := keyDisabled_update hbefore honce hstatus htrue
  rw [run_append] at hfresh
  have hend := keyDisabled_run hdisabled hnot hfresh
  rw [run_append, run_append, run_cons, run_nil] at ht
  rw [← ht] at hend
  refine ⟨?_, fun handle hload record hrecord hid random next hnext i => ?_,
    fun random next hnext i => ?_⟩
  · obtain ⟨row, hrow, hP⟩ := hend.stored
    exact ⟨row, hrow, hP.2⟩
  · rw [KeyState.nextKey, hrecord] at hnext
    cases hnext
    obtain ⟨r, hr, rfl⟩ := Option.map_eq_some_iff.mp hrecord
    have hhandle : r.handle = handle := Table.find_key hr
    obtain ⟨hkeys, hkey⟩ := hend.loaded r (Table.find_mem hr)
      (.inl (by rw [hhandle]; exact hload)) hid
    exact nextKey_ne hkeys hkey _ random i
  · obtain ⟨record, hrecord, rfl⟩ := Option.map_eq_some_iff.mp hnext
    dsimp only [KeyState.record] at hrecord
    split at hrecord
    next hm =>
      obtain ⟨hkeys, hkey⟩ := hend.cached hm record hrecord
      exact nextKey_ne hkeys hkey _ random i
    · cases hrecord

end Disabled

/-! ## A copy from before, and a key that stands twice -/

/-- The key `a` is disabled after a first copy was loaded, then a second one is loaded and gives a
key. -/
theorem twoKeys_stays_disabled :
    ∃ row, (run KeyState.step (.start (ChannelStore.twoKeysStore .polling false))
      ([.load 1 1] ++ [.update ⟨1, "a".toList, .autoDisabled, "401"⟩] ++
        [.load 2 1, .next (.loaded 2) 0])).store.db.channels.find 1 = some row ∧
      row.KeyDisabled "a".toList := by
  refine (disabled_key_stays_disabled (c := ChannelStore.twoKeys .polling) rfl rfl
    (fun cached h => ?_) (by decide) [.load 1 1] [.load 2 1, .next (.loaded 2) 0]
    (by decide) "401" (by decide) (fun a ha => ?_) ⟨trivial, .of_stored (by decide), trivial⟩ rfl).1
  · cases h
    exact ⟨rfl, rfl⟩
  · rcases List.mem_cons.mp ha with rfl | ha
    · exact id
    · rw [List.mem_singleton.mp ha]
      exact id

/-- A channel with the key `a` in two places. -/
def repeatedKey : ChannelStore where
  memoryCacheEnabled := false
  db := ⟨⟨[{ ChannelStore.twoKeys .random with keys := ["a".toList, "b".toList, "a".toList] }],
    List.nodup_singleton _⟩, []⟩
  cache := .empty

/-- A copy from before saves its statuses over the disabled key; a key that stands twice is given
at its second place. -/
theorem disabled_key_comes_back :
    let s := run KeyState.step (.start (ChannelStore.twoKeysStore .polling false)) [.load 1 1]
    let t := run KeyState.step s [.update ⟨1, "a".toList, .autoDisabled, "401"⟩,
      .next (.loaded 1) 0]
    let u := run KeyState.step (.start repeatedKey)
      [.update ⟨1, "a".toList, .autoDisabled, "401"⟩, .load 1 1]
    (s.store.updateChannelStatus 1 "a".toList .autoDisabled "401").1 = true ∧
    (t.store.db.channels.find 1).map (fun c => c.keyStatus 0) = some .enabled ∧
    (repeatedKey.updateChannelStatus 1 "a".toList .autoDisabled "401").1 = true ∧
    (u.nextKey (.loaded 1) 1).map (fun next => next.result.toOption) =
      some (some ("a".toList, 2)) := by
  refine ⟨?_, ?_, ?_, ?_⟩ <;> decide

end NewApi
