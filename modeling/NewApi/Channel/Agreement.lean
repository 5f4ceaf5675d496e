import NewApi.Channel.Candidates

/-!
# Routing by the cache and by the database

With the abilities that `UpdateAbilities` writes and a cache that was just built, the two ways
look at the same channels. They differ in when they look under a second name, in what that name
is, and in that `UpdateAbilities` joins group and model by a bar, so that of two pairs that read
alike then it writes one. `IsChannelEnabledForGroupModel` moreover asks for names that are not
empty. `Routable` excludes these causes one by one.
-/

namespace NewApi

/-! ## Names of a channel -/

/-- `InitChannelCache` lists the channel for the group under the model. -/
def Channel.Lists (c : Channel) (group model : List Char) : Prop := (group, model) ∈ c.listed

instance (c : Channel) (group model : List Char) : Decidable (c.Lists group model) :=
  inferInstanceAs (Decidable (_ ∈ _))

/-- No two pairs of the channel read alike when they are joined by a bar. -/
def Channel.PairsApart (c : Channel) : Prop :=
  ∀ p ∈ c.pairs, ∀ q ∈ c.pairs, abilityKey p = abilityKey q → p = q

instance (c : Channel) : Decidable c.PairsApart := inferInstanceAs (Decidable (∀ _ ∈ _, _))

variable {c : Channel} {id : Nat} {group model : List Char}

theorem Channel.PairsApart.lists_iff (h : c.PairsApart) :
    c.Lists group model ↔ c.status = .enabled ∧ (group, model) ∈ firstPairs [] c.pairs := by
  rw [mem_firstPairs h, Channel.Lists, Channel.listed]
  split
  next h => simp [h, Channel.pairs, and_comm]
  next h => simp [h]

/-! ## The tables -/

/-- The abilities are those that `UpdateAbilities` writes for the channels, none of whose pairs read
alike. -/
structure ChannelDb.Written (db : ChannelDb) : Prop where
  abilities : ∀ a, a ∈ db.abilities ↔ ∃ c ∈ db.channels.rows, a ∈ c.abilities
  pairs : ∀ c ∈ db.channels.rows, c.PairsApart

variable {db : ChannelDb}

/-- There is an enabled ability for every channel that lists the names. -/
theorem mem_enabledAbilities (hw : db.Written) {a : Ability} :
    a ∈ db.enabledAbilities group model ↔
      ∃ c ∈ db.channels.rows, c.Lists group model ∧ a = c.ability (group, model) := by
  simp only [ChannelDb.enabledAbilities, List.mem_filter, Bool.and_eq_true, decide_eq_true_eq,
    hw.abilities]
  constructor
  · rintro ⟨⟨c, hc, hac⟩, ⟨rfl, rfl⟩, henabled⟩
    obtain ⟨pair, hpair, rfl⟩ := List.mem_map.mp hac
    exact ⟨c, hc, (hw.pairs c hc).lists_iff.mpr ⟨of_decide_eq_true henabled, hpair⟩, rfl⟩
  · rintro ⟨c, hc, hlists, rfl⟩
    obtain ⟨hstatus, hpair⟩ := (hw.pairs c hc).lists_iff.mp hlists
    exact ⟨⟨c, hc, List.mem_map.mpr ⟨_, hpair, rfl⟩⟩, ⟨rfl, rfl⟩, decide_eq_true hstatus⟩

theorem mem_appendedIDs {channels : List Channel} :
    id ∈ appendedIDs channels group model ↔ ∃ c ∈ channels, c.Lists group model ∧ c.id = id := by
  simp only [appendedIDs, List.mem_flatMap, List.mem_map, List.mem_filter, decide_eq_true_eq]
  constructor
  · rintro ⟨c, hc, pair, ⟨hpair, rfl⟩, rfl⟩
    exact ⟨c, hc, hpair, rfl⟩
  · rintro ⟨c, hc, hlists, rfl⟩
    exact ⟨c, hc, _, ⟨hlists, rfl⟩, rfl⟩

theorem initChannelCache_isSome (hw : db.Written) (old : ChannelCache) :
    (initChannelCache db old).isSome := by
  unfold initChannelCache
  rw [if_neg]
  · rfl
  rw [Bool.not_eq_true, List.any_eq_false]
  intro c hc
  rw [Bool.not_eq_true, List.any_eq_false]
  intro pair hpair
  have hmem := (mem_enabledAbilities hw).mpr ⟨c, hc, hpair, rfl⟩
  have hany : (db.abilities.any fun a => decide (a.group = pair.1)) = true :=
    List.any_eq_true.mpr ⟨_, List.mem_of_mem_filter hmem, decide_eq_true rfl⟩
  simp [hany]

/-- What a fresh cache holds. -/
structure ChannelCache.Fresh (db : ChannelDb) (cache : ChannelCache) : Prop where
  lists : ∀ group model id, id ∈ cache.group2model2channels group model ↔
    ∃ c ∈ db.channels.rows, c.Lists group model ∧ c.id = id
  channels : ∀ id, ∃ info : Channel → ChannelInfo, cache.channelsIDM.find id =
    (db.channels.find id).map fun c => { c with channelInfo := info c }

theorem initChannelCache_fresh {old cache : ChannelCache}
    (h : initChannelCache db old = some cache) : cache.Fresh db := by
  unfold initChannelCache at h
  split at h
  · cases h
  cases h
  refine ⟨fun group model id => ?_, fun id => ?_⟩
  · rw [List.mem_insertionSort, mem_appendedIDs]
  · choose index hindex using keepPollingIndex_eq old.channelsIDM
    refine ⟨fun c => { c.channelInfo with multiKeyPollingIndex := index c }, ?_⟩
    rw [Table.find_update]
    congr 1
    exact funext hindex

/-! ## What each way finds -/

theorem channelSatisfiesFilters_channelInfo {cfg : NameSettings} {info : ChannelInfo}
    {filters : List ChannelFilter} :
    channelSatisfiesFilters cfg { c with channelInfo := info } model filters =
      channelSatisfiesFilters cfg c model filters := by
  have hone : ∀ filter, channelMatchesFilter cfg { c with channelInfo := info } model filter =
      channelMatchesFilter cfg c model filter := fun filter => by cases filter <;> rfl
  simp only [channelSatisfiesFilters, channelViolatesFilter, hone]

variable {cfg : NameSettings} {cache : ChannelCache} {group model : List Char}
  {filters : List ChannelFilter}

theorem ChannelCache.Fresh.mem_filter (hf : cache.Fresh db) {name : List Char} :
    id ∈ filterCandidateIDs cfg cache.channelsIDM model filters
        (cache.group2model2channels group name) ↔
      ∃ c ∈ db.channels.rows, c.Lists group name ∧
        channelSatisfiesFilters cfg c model filters = true ∧ c.id = id := by
  rw [mem_filterCandidateIDs, hf.lists]
  obtain ⟨info, hfind⟩ := hf.channels id
  have hpass : ∀ c ∈ db.channels.rows, c.id = id →
      (Passes cfg (cache.channelsIDM.find id) model filters ↔
        channelSatisfiesFilters cfg c model filters = true) := by
    rintro c hc rfl
    rw [hfind, Table.find_of_mem hc, Option.map_some, Passes, channelSatisfiesFilters_channelInfo]
  constructor
  · rintro ⟨⟨c, hc, hlists, hid⟩, hp⟩
    exact ⟨c, hc, hlists, (hpass c hc hid).mp hp, hid⟩
  · rintro ⟨c, hc, hlists, hp, hid⟩
    exact ⟨⟨c, hc, hlists, hid⟩, (hpass c hc hid).mpr hp⟩

/-- The channel lists the name for the group and passes the filters of the request. -/
def ChannelDb.Finds (db : ChannelDb) (cfg : NameSettings) (group name model : List Char)
    (filters : List ChannelFilter) (id : Nat) (priority : Int) : Prop :=
  ∃ c ∈ db.channels.rows, c.Lists group name ∧
    channelSatisfiesFilters cfg c model filters = true ∧ c.id = id ∧ c.getPriority = priority

theorem ChannelCache.Fresh.eligible (hf : cache.Fresh db) {name : List Char}
    (hname : cache.cachedSatisfiedChannelIDs cfg group model filters =
      filterCandidateIDs cfg cache.channelsIDM model filters
        (cache.group2model2channels group name)) :
    ∃ es, (Routing.mk cfg true db cache).eligible group model filters = .ok es ∧
      ∀ id p, (id, p) ∈ es ↔ db.Finds cfg group name model filters id p := by
  have hknown : ∀ id ∈ cache.cachedSatisfiedChannelIDs cfg group model filters,
      (cache.channelsIDM.find id).isSome := by
    intro id hid
    rw [hname] at hid
    obtain ⟨c, hc, _, _, rfl⟩ := hf.mem_filter.mp hid
    obtain ⟨info, hfind⟩ := hf.channels c.id
    rw [hfind, Table.find_of_mem hc]
    rfl
  obtain ⟨channels, hok⟩ := lookupChannels_isOk hknown
  obtain ⟨hids, hall⟩ := lookupChannels_ok hok
  rw [hname] at hids
  refine ⟨channels.map fun c => (c.id, c.getPriority), ?_, fun id p => ?_⟩
  · rw [Routing.eligible, if_pos rfl, ChannelCache.satisfiedChannels, hok]
    rfl
  have hsame : ∀ d ∈ channels, ∀ c ∈ db.channels.rows, c.id = d.id →
      c.getPriority = d.getPriority := by
    intro d hd c hc hid
    have hfind := hall d hd
    obtain ⟨info, hmap⟩ := hf.channels d.id
    rw [hmap, ← hid, Table.find_of_mem hc] at hfind
    cases hfind
    rfl
  rw [List.mem_map]
  constructor
  · rintro ⟨d, hd, heq⟩
    cases heq
    have hmem := List.mem_map_of_mem (f := Channel.id) hd
    rw [hids] at hmem
    obtain ⟨c, hc, hlists, hp, hid⟩ := hf.mem_filter.mp hmem
    exact ⟨c, hc, hlists, hp, hid, hsame d hd c hc hid⟩
  · rintro ⟨c, hc, hlists, hp, rfl, rfl⟩
    have hmem := hf.mem_filter.mpr ⟨c, hc, hlists, hp, rfl⟩
    rw [← hids] at hmem
    obtain ⟨d, hd, hid⟩ := List.mem_map.mp hmem
    exact ⟨d, hd, by rw [hid, hsame d hd c hc hid.symm]⟩

theorem ChannelDb.Written.eligible (hw : db.Written) {name : List Char}
    (hname : (if db.enabledAbilities group model = [] then
      db.enabledAbilities group (formatMatchingModelName model)
      else db.enabledAbilities group model) = db.enabledAbilities group name) :
    ∃ es, (Routing.mk cfg false db cache).eligible group model filters = .ok es ∧
      ∀ id p, (id, p) ∈ es ↔ db.Finds cfg group name model filters id p := by
  refine ⟨_, rfl, fun id p => ?_⟩
  unfold ChannelDb.getEligibleAbilities ChannelDb.filterAbilitiesByConstraints
  dsimp only
  rw [hname, List.mem_map]
  constructor
  · rintro ⟨a, ha, heq⟩
    obtain ⟨hrow, hp⟩ := List.mem_filter.mp ha
    obtain ⟨c, hc, hlists, rfl⟩ := (mem_enabledAbilities hw).mp hrow
    rw [show (c.ability _).channelId = c.id from rfl, Table.find_of_mem hc] at hp
    cases heq
    exact ⟨c, hc, hlists, hp, rfl, rfl⟩
  · rintro ⟨c, hc, hlists, hp, rfl, rfl⟩
    refine ⟨_, List.mem_filter.mpr ⟨(mem_enabledAbilities hw).mpr ⟨c, hc, hlists, rfl⟩, ?_⟩, rfl⟩
    rw [show (c.ability _).channelId = c.id from rfl, Table.find_of_mem hc]
    exact hp

/-! ## Agreement -/

/-- The two ways give the same priorities and the same ids, and each of them counts as enabled. -/
structure RoutingAgrees (cfg : NameSettings) (db : ChannelDb) (cache : ChannelCache)
    (group model : List Char) (filters : List ChannelFilter) : Prop where
  priorities :
    (Routing.mk cfg true db cache).listSatisfiedChannelPriorities group model filters =
      (Routing.mk cfg false db cache).listSatisfiedChannelPriorities group model filters
  ids : ∀ p, ∃ cached stored,
    (Routing.mk cfg true db cache).listSatisfiedChannelIDsAtPriority group model p filters =
        .ok cached ∧
      (Routing.mk cfg false db cache).listSatisfiedChannelIDsAtPriority group model p filters =
        .ok stored ∧ ∀ id, id ∈ cached ↔ id ∈ stored
  enabled : ∀ way p ids id,
    (Routing.mk cfg way db cache).listSatisfiedChannelIDsAtPriority group model p filters =
      .ok ids → id ∈ ids →
    ∀ mode, (Routing.mk cfg mode db cache).isChannelEnabledForGroupModel group model id = true

/-- Where both ways look for the channels of a request. -/
inductive SameNames (cfg : NameSettings) (db : ChannelDb) (group model : List Char)
    (filters : List ChannelFilter) : Prop
  /-- Under the first name, where a channel passes the filters. -/
  | found (c : Channel) (hc : c ∈ db.channels.rows) (hlists : c.Lists group model)
      (hpass : channelSatisfiesFilters cfg c model filters = true)
  /-- A channel has the first name, and none passes the filters under either. -/
  | filtered (c : Channel) (hc : c ∈ db.channels.rows) (hlists : c.Lists group model)
      (hnone : ∀ d ∈ db.channels.rows, channelSatisfiesFilters cfg d model filters = true →
        ¬d.Lists group model ∧ ¬d.Lists group (routingMatchModelName cfg model))
  /-- No channel has the first name, and the second one is the same for both. -/
  | second (hnone : ∀ c ∈ db.channels.rows, ¬c.Lists group model)
      (hsame : routingMatchModelName cfg model = formatMatchingModelName model)
      (hset : formatMatchingModelName model ≠ [])

/-- A request for which the two ways have no reason to differ. -/
structure Routable (cfg : NameSettings) (db : ChannelDb) (group model : List Char)
    (filters : List ChannelFilter) : Prop where
  named : group ≠ [] ∧ model ≠ []
  ids : ∀ c ∈ db.channels.rows, 0 < c.id
  names : SameNames cfg db group model filters

/-- `IsChannelEnabledForGroupModel` finds the channel under one of its two names. -/
def Channel.Asked (c : Channel) (cfg : NameSettings) (group model : List Char) : Prop :=
  c.Lists group model ∨
    (routingMatchModelName cfg model ≠ [] ∧ c.Lists group (routingMatchModelName cfg model))

/-- The names under which the two look lead to the same channels. -/
theorem SameNames.looks (hw : db.Written) (hf : cache.Fresh db)
    (h : SameNames cfg db group model filters) :
    ∃ first second,
      cache.cachedSatisfiedChannelIDs cfg group model filters = filterCandidateIDs cfg
        cache.channelsIDM model filters (cache.group2model2channels group first) ∧
      (if db.enabledAbilities group model = [] then
        db.enabledAbilities group (formatMatchingModelName model)
        else db.enabledAbilities group model) = db.enabledAbilities group second ∧
      ∀ c ∈ db.channels.rows, channelSatisfiesFilters cfg c model filters = true →
        (c.Lists group first ↔ c.Lists group second) ∧
          (c.Lists group first → c.Asked cfg group model) := by
  have hstored : ∀ c ∈ db.channels.rows, c.Lists group model →
      ¬db.enabledAbilities group model = [] := fun c hc hlists =>
    List.ne_nil_of_mem ((mem_enabledAbilities hw).mpr ⟨c, hc, hlists, rfl⟩)
  have hmissed : (∀ c ∈ db.channels.rows, channelSatisfiesFilters cfg c model filters = true →
      ¬c.Lists group model) → filterCandidateIDs cfg cache.channelsIDM model filters
        (cache.group2model2channels group model) = [] := by
    refine fun hnone => List.eq_nil_iff_forall_not_mem.mpr fun id hid => ?_
    obtain ⟨c, hc, hlists, hp, _⟩ := hf.mem_filter.mp hid
    exact hnone c hc hp hlists
  cases h with
  | found d hd hlists hpass =>
    have hcached := List.ne_nil_of_mem (hf.mem_filter.mpr ⟨d, hd, hlists, hpass, rfl⟩)
    exact ⟨model, model, if_neg hcached, if_neg (hstored d hd hlists), fun _ _ _ =>
      ⟨Iff.rfl, .inl⟩⟩
  | filtered d hd hlists hnone =>
    refine ⟨_, model, if_pos (hmissed fun c hc hp => (hnone c hc hp).1),
      if_neg (hstored d hd hlists), fun c hc hp => ?_⟩
    obtain ⟨hfirst, hsecond⟩ := hnone c hc hp
    exact ⟨iff_of_false hsecond hfirst, fun hl => absurd hl hsecond⟩
  | second hnone hsame hset =>
    have hempty : db.enabledAbilities group model = [] := by
      refine List.eq_nil_iff_forall_not_mem.mpr fun a ha => ?_
      obtain ⟨c, hc, hlists, _⟩ := (mem_enabledAbilities hw).mp ha
      exact hnone c hc hlists
    refine ⟨_, _, if_pos (hmissed fun c hc _ => hnone c hc), if_pos hempty, fun c _ _ => ?_⟩
    rw [hsame]
    exact ⟨Iff.rfl, fun hl => .inr (hsame.symm ▸ ⟨hset, hl⟩)⟩

theorem enabled_of_asked (hw : db.Written) (hf : cache.Fresh db)
    (hnamed : group ≠ [] ∧ model ≠ []) (hc : c ∈ db.channels.rows) (hid : 0 < c.id)
    (h : c.Asked cfg group model) (mode : Bool) :
    (Routing.mk cfg mode db cache).isChannelEnabledForGroupModel group model c.id = true := by
  have hcached : ∀ name, c.Lists group name → c.id ∈ cache.group2model2channels group name :=
    fun name hlists => (hf.lists group name c.id).mpr ⟨c, hc, hlists, rfl⟩
  have hstored : ∀ name, c.Lists group name →
      (db.enabledAbilities group name).any (fun a => a.channelId = c.id) = true :=
    fun name hlists => List.any_eq_true.mpr
      ⟨_, (mem_enabledAbilities hw).mpr ⟨c, hc, hlists, rfl⟩, decide_eq_true rfl⟩
  have hasked : c.Lists group model ∨
      ((routingMatchModelName cfg model ≠ [] ∧ routingMatchModelName cfg model ≠ model) ∧
        c.Lists group (routingMatchModelName cfg model)) := by
    rcases h with h | ⟨hne, h⟩
    · exact .inl h
    by_cases hname : routingMatchModelName cfg model = model
    · exact .inl (hname ▸ h)
    · exact .inr ⟨⟨hne, hname⟩, h⟩
  cases mode <;> simp only [Routing.isChannelEnabledForGroupModel,
    ChannelCache.isChannelEnabledForGroupModel, ChannelDb.isChannelEnabledForGroupModel,
    Bool.and_eq_true, Bool.or_eq_true, decide_eq_true_eq, Bool.false_eq_true, if_false, if_true]
  · exact ⟨⟨hnamed, hid⟩, hasked.imp (hstored model) (And.imp_right (hstored _))⟩
  · exact ⟨⟨hnamed, hid⟩, hasked.imp (hcached model) (And.imp_right (hcached _))⟩

/-- A channel with the abilities that are written for it. -/
def oneChannel : ChannelDb where
  channels := ⟨[plainChannel 1 "default" "gpt-5,o3"], by decide⟩
  abilities := (plainChannel 1 "default" "gpt-5,o3").abilities

theorem oneChannel_written : oneChannel.Written where
  abilities a := by simp [oneChannel]
  pairs := by decide

end NewApi
