import Mathlib.Data.List.Dedup
import Mathlib.Tactic.Ring
import NewApi.Channel.Routing

/-!
# What can be selected

`Routing.eligible` is what both ways make of a group, a model and the filters: the ids with
their priorities. The three functions that read it are specified in its terms: the list of
priorities, the ids at a priority, and the draw at a priority.
-/

namespace NewApi

/-! ## Priorities -/

theorem mem_sortPriorities {priorities : List Int} {p : Int} :
    p ∈ sortPriorities priorities ↔ p ∈ priorities := by
  rw [sortPriorities, List.mem_insertionSort, List.mem_dedup]

theorem sortPriorities_sorted (priorities : List Int) :
    (sortPriorities priorities).Pairwise (· > ·) := by
  have hge : (sortPriorities priorities).Pairwise (· ≥ ·) := List.pairwise_insertionSort (· ≥ ·) _
  have hne : (sortPriorities priorities).Nodup :=
    (List.perm_insertionSort (· ≥ ·) _).nodup_iff.mpr (List.nodup_dedup _)
  exact (hge.and hne).imp fun h => lt_of_le_of_ne h.1 (Ne.symm h.2)

theorem sortPriorities_congr {ps qs : List Int} (h : ∀ p, p ∈ ps ↔ p ∈ qs) :
    sortPriorities ps = sortPriorities qs := by
  refine (sortPriorities_sorted ps).eq_of_mem_iff (sortPriorities_sorted qs) fun p => ?_
  rw [mem_sortPriorities, mem_sortPriorities, h]

/-! ## Draws -/

theorem pickWeighted_mem {α : Type} {weight : α → Nat} {done : Nat → Nat → Bool} {xs : List α}
    {drawn : Nat} {x : α} (h : pickWeighted weight done xs drawn = some x) : x ∈ xs := by
  induction xs generalizing drawn with
  | nil => cases h
  | cons y ys ih =>
    rw [pickWeighted] at h
    split at h
    · exact List.mem_cons.mpr (.inl (Option.some.inj h).symm)
    · exact List.mem_cons_of_mem y (ih h)

theorem pickWeighted_isSome {α : Type} {weight : α → Nat} {done : Nat → Nat → Bool}
    (hdone : ∀ drawn w, drawn < w → done drawn w = true) {xs : List α} {drawn : Nat}
    (h : drawn < (xs.map weight).sum) : (pickWeighted weight done xs drawn).isSome := by
  induction xs generalizing drawn with
  | nil => cases h
  | cons y ys ih =>
    rw [pickWeighted]
    split
    · rfl
    next hn =>
    rw [List.map_cons, List.sum_cons] at h
    have hge : ¬ drawn < weight y := fun hlt => hn (hdone _ _ hlt)
    exact ih (by omega)

namespace ChannelCache

variable {targets : List Channel}

/-- The weight that a channel is drawn with. -/
def smoothedWeight (targets : List Channel) (c : Channel) : Nat :=
  c.getWeight * (smoothing targets).1 + (smoothing targets).2

/-- The random number is below this. -/
def totalWeight (targets : List Channel) : Nat :=
  if (targets.map Channel.getWeight).sum = 0 then targets.length * 100
  else (targets.map Channel.getWeight).sum * (smoothing targets).1

theorem totalWeight_eq (hnil : targets ≠ []) :
    totalWeight targets = (targets.map (smoothedWeight targets)).sum ∧ 0 < totalWeight targets := by
  have hlen : 0 < targets.length := List.length_pos_of_ne_nil hnil
  have hsum : ∀ factor adjustment : Nat, ∀ l : List Channel,
      (l.map fun c => c.getWeight * factor + adjustment).sum =
        (l.map Channel.getWeight).sum * factor + l.length * adjustment := by
    intro factor adjustment l
    induction l with
    | nil => simp
    | cons c cs ih =>
      simp only [List.map_cons, List.sum_cons, List.length_cons, ih]
      ring
  unfold totalWeight smoothedWeight
  rw [hsum]
  unfold smoothing
  dsimp only
  split
  · omega
  · split <;> omega

theorem drawChannel_pick (hnil : targets ≠ []) (random : Nat) :
    ∃ c, pickWeighted (smoothedWeight targets) (fun drawn weight => drawn < weight) targets
        (random % totalWeight targets) = some c ∧
      drawChannel targets random = .ok (some c) := by
  obtain ⟨htotal, hpos⟩ := totalWeight_eq hnil
  have hlt := Nat.mod_lt random hpos
  have hsome := @pickWeighted_isSome _ (smoothedWeight targets)
    (fun drawn weight => decide (drawn < weight)) (fun _ _ h => by simpa using h) _ _
    (hlt.trans_eq htotal)
  obtain ⟨c, hc⟩ := Option.isSome_iff_exists.mp hsome
  refine ⟨c, hc, ?_⟩
  rw [drawChannel, if_neg hnil]
  unfold totalWeight smoothedWeight at hc
  generalize smoothing targets = smoothed at hc ⊢
  dsimp only at hc ⊢
  rw [hc]

theorem drawChannel_spec (random : Nat) :
    (targets = [] ∧ drawChannel targets random = .ok none) ∨
      ∃ c ∈ targets, drawChannel targets random = .ok (some c) := by
  by_cases hnil : targets = []
  · exact .inl ⟨hnil, if_pos hnil⟩
  · obtain ⟨c, hc, hdraw⟩ := drawChannel_pick hnil random
    exact .inr ⟨c, pickWeighted_mem hc, hdraw⟩

end ChannelCache

/-! ## Filters on ids -/

/-- A candidate passes the filters; a missing channel passes those of the path. -/
def Passes (cfg : NameSettings) (ch : Option Channel) (modelName : List Char)
    (filters : List ChannelFilter) : Prop :=
  match ch with
  | none => ∀ filter ∈ filters, filter.kind = .requestPath
  | some ch => channelSatisfiesFilters cfg ch modelName filters = true

variable {cfg : NameSettings} {filters : List ChannelFilter} {id : Nat} {idm : Table Channel.id}
  {ids : List Nat} {model : List Char}

theorem mem_filterKinds {modelName : List Char} (kinds : List FilterKind) (ids : List Nat) :
    id ∈ kinds.foldl (fun kept kind =>
      let kindFilters := filters.filter fun filter => filter.kind = kind
      if kindFilters = [] then kept
      else kept.filter fun id =>
        candidatePassesKindFilters cfg (idm.find id) modelName kind kindFilters) ids ↔
    id ∈ ids ∧ ∀ filter ∈ filters, filter.kind ∈ kinds →
      candidatePassesKindFilters cfg (idm.find id) modelName filter.kind
        (filters.filter fun f => f.kind = filter.kind) = true := by
  induction kinds generalizing ids with
  | nil => simp
  | cons kind kinds ih =>
    rw [List.foldl_cons, ih]
    dsimp only
    split
    next hnil =>
      have hno : ∀ filter ∈ filters, filter.kind ≠ kind := by simpa using hnil
      refine and_congr_right fun _ => ⟨fun h filter hf hk => ?_, fun h filter hf hk => ?_⟩
      · exact h filter hf ((List.mem_cons.mp hk).resolve_left (hno filter hf))
      · exact h filter hf (List.mem_cons_of_mem _ hk)
    next hsome =>
      obtain ⟨some_, hsome⟩ := List.exists_mem_of_ne_nil _ hsome
      have hkind : some_.kind = kind := by simpa using (List.mem_filter.mp hsome).2
      have hmem := List.mem_of_mem_filter hsome
      rw [List.mem_filter, and_assoc]
      refine and_congr_right fun _ => ⟨?_, fun h => ⟨?_, fun filter hf hk => ?_⟩⟩
      · rintro ⟨hfirst, hrest⟩ filter hf hk
        rcases List.mem_cons.mp hk with rfl | hk
        · exact hfirst
        · exact hrest filter hf hk
      · have := h some_ hmem (by rw [hkind]; exact List.mem_cons_self)
        rwa [hkind] at this
      · exact h filter hf (List.mem_cons_of_mem _ hk)

theorem mem_filterCandidateIDs {modelName : List Char} :
    id ∈ filterCandidateIDs cfg idm modelName filters ids ↔
      id ∈ ids ∧ Passes cfg (idm.find id) modelName filters := by
  rw [filterCandidateIDs, mem_filterKinds]
  refine and_congr_right fun _ => ?_
  cases idm.find id with
  | none =>
    simp only [candidatePassesKindFilters, decide_eq_true_eq, Passes]
    exact ⟨fun h filter hf => h filter hf (mem_filterEvalOrder _), fun h filter hf _ => h filter hf⟩
  | some ch =>
    simp only [candidatePassesKindFilters, List.all_eq_true, Passes, channelSatisfiesFilters_iff]
    constructor
    · intro h filter hf
      exact h filter hf (mem_filterEvalOrder _) filter (List.mem_filter.mpr ⟨hf, by simp⟩)
    · intro h filter _ _ f hf
      exact h f (List.mem_of_mem_filter hf)

theorem lookupChannels_ok {channels : List Channel} (h : lookupChannels idm ids = .ok channels) :
    channels.map Channel.id = ids ∧ ∀ c ∈ channels, idm.find c.id = some c := by
  induction ids generalizing channels with
  | nil =>
    cases h
    exact ⟨rfl, fun c hc => by cases hc⟩
  | cons id ids ih =>
    rw [lookupChannels] at h
    cases hfind : idm.find id with
    | none => rw [hfind] at h; cases h
    | some c =>
      rw [hfind] at h
      cases hrest : lookupChannels idm ids with
      | error e => rw [hrest] at h; cases h
      | ok rest =>
        rw [hrest] at h
        cases h
        obtain ⟨hids, hall⟩ := ih hrest
        have hid := Table.find_key hfind
        refine ⟨by rw [List.map_cons, hids, hid], fun d hd => ?_⟩
        rcases List.mem_cons.mp hd with rfl | hd
        · rw [hid]
          exact hfind
        · exact hall d hd

theorem lookupChannels_isOk (h : ∀ id ∈ ids, (idm.find id).isSome) :
    ∃ channels, lookupChannels idm ids = .ok channels := by
  induction ids with
  | nil => exact ⟨[], rfl⟩
  | cons id ids ih =>
    obtain ⟨c, hc⟩ := Option.isSome_iff_exists.mp (h id List.mem_cons_self)
    obtain ⟨rest, hrest⟩ := ih fun i hi => h i (List.mem_cons_of_mem _ hi)
    exact ⟨c :: rest, by rw [lookupChannels, hc, hrest]; rfl⟩

/-! ## Eligible channels -/

variable {group : List Char}

theorem mem_cachedSatisfiedChannelIDs {cache : ChannelCache}
    (h : id ∈ cache.cachedSatisfiedChannelIDs cfg group model filters) :
    Passes cfg (cache.channelsIDM.find id) model filters := by
  unfold ChannelCache.cachedSatisfiedChannelIDs at h
  dsimp only at h
  split at h <;> exact (mem_filterCandidateIDs.mp h).2

theorem mem_cachedSatisfiedChannelIDs_exclude {cache : ChannelCache} {excluded : List Nat}
    {c : Channel} (hc : cache.channelsIDM.find id = some c) (hid : id ∉ excluded)
    (h : id ∈ cache.cachedSatisfiedChannelIDs cfg group model filters) :
    id ∈ cache.cachedSatisfiedChannelIDs cfg group model
      (filters ++ [.excludeChannelIDs excluded]) := by
  have hkey : c.id = id := Table.find_key hc
  have hpass : Passes cfg (cache.channelsIDM.find id) model
      (filters ++ [.excludeChannelIDs excluded]) := by
    have hold := mem_cachedSatisfiedChannelIDs h
    rw [hc] at hold ⊢
    exact channelSatisfiesFilters_exclude.mpr ⟨hold, by rw [hkey]; exact hid⟩
  unfold ChannelCache.cachedSatisfiedChannelIDs at h ⊢
  dsimp only at h ⊢
  generalize hfirst : cache.group2model2channels group model = first at h ⊢
  split at h
  next hnil =>
    -- Nothing passes under the first name, and with the exclusion still nothing does.
    have hnil' : filterCandidateIDs cfg cache.channelsIDM model
        (filters ++ [.excludeChannelIDs excluded]) first = [] := by
      rw [List.eq_nil_iff_forall_not_mem]
      intro i hi
      obtain ⟨hmem, hpass⟩ := mem_filterCandidateIDs.mp hi
      have hin : i ∈ filterCandidateIDs cfg cache.channelsIDM model filters first := by
        refine mem_filterCandidateIDs.mpr ⟨hmem, ?_⟩
        cases hfind : cache.channelsIDM.find i with rw [hfind] at hpass
        | none =>
          exact fun filter hf => hpass filter (List.mem_append_left _ hf)
        | some ch =>
          exact (channelSatisfiesFilters_exclude.mp hpass).1
      rw [hnil] at hin
      cases hin
    rw [if_pos hnil']
    exact mem_filterCandidateIDs.mpr ⟨(mem_filterCandidateIDs.mp h).1, hpass⟩
  next =>
    have hin := mem_filterCandidateIDs.mpr ⟨(mem_filterCandidateIDs.mp h).1, hpass⟩
    rw [if_neg (List.ne_nil_of_mem hin)]
    exact hin

theorem mem_getEligibleAbilities {db : ChannelDb} {a : Ability}
    (h : a ∈ db.getEligibleAbilities cfg group model filters) :
    ∃ c, db.channels.find a.channelId = some c ∧
      channelSatisfiesFilters cfg c model filters = true := by
  have hp := (List.mem_filter.mp h).2
  split at hp
  next c hc => exact ⟨c, hc, hp⟩
  · cases hp

theorem getChannelAtPriority_pick {db : ChannelDb} {p : Int} {targets : List Ability}
    (htarget : db.abilitiesAtPriority cfg group model p filters = targets) (hnil : targets ≠ [])
    (random : Nat) :
    ∃ a c, pickWeighted (fun a : Ability => a.weight + 10) (fun drawn weight => drawn ≤ weight)
        targets (random % (targets.map fun a => a.weight + 10).sum) = some a ∧
      a ∈ db.getEligibleAbilities cfg group model filters ∧ a.getPriority = p ∧
      db.channels.find a.channelId = some c ∧
      db.getChannelAtPriority cfg group model p filters random = .ok (some c) := by
  have hpos : 0 < (targets.map fun a => a.weight + 10).sum := by
    cases targets with
    | nil => exact absurd rfl hnil
    | cons a rest =>
      rw [List.map_cons, List.sum_cons]
      omega
  have hsome := @pickWeighted_isSome _ (fun a : Ability => a.weight + 10)
    (fun drawn weight => decide (drawn ≤ weight)) (fun _ _ hlt => by simpa using hlt.le)
    targets _ (Nat.mod_lt random hpos)
  obtain ⟨a, ha⟩ := Option.isSome_iff_exists.mp hsome
  have hmem := pickWeighted_mem ha
  rw [← htarget, ChannelDb.abilitiesAtPriority, List.mem_filter] at hmem
  obtain ⟨c, hfind, -⟩ := mem_getEligibleAbilities hmem.1
  refine ⟨a, c, ha, hmem.1, of_decide_eq_true hmem.2, hfind, ?_⟩
  rw [ChannelDb.getChannelAtPriority, htarget]
  dsimp only
  rw [if_neg hnil, ha, Option.map_some, Option.getD_some, hfind]

namespace Routing

variable {r : Routing} {group model : List Char} {filters : List ChannelFilter}
  {es : List (Nat × Int)}

def eligible (r : Routing) (group model : List Char) (filters : List ChannelFilter) :
    Except String (List (Nat × Int)) :=
  if r.memoryCacheEnabled then
    (r.cache.satisfiedChannels r.names group model filters).map fun channels =>
      channels.map fun c => (c.id, c.getPriority)
  else .ok ((r.db.getEligibleAbilities r.names group model filters).map fun a =>
    (a.channelId, a.getPriority))

theorem eligible_cases (h : r.eligible group model filters = .ok es) :
    (r.memoryCacheEnabled = true ∧ ∃ channels,
      r.cache.satisfiedChannels r.names group model filters = .ok channels ∧
      es = channels.map fun c => (c.id, c.getPriority)) ∨
    (r.memoryCacheEnabled = false ∧
      es = (r.db.getEligibleAbilities r.names group model filters).map fun a =>
        (a.channelId, a.getPriority)) := by
  unfold eligible at h
  split at h
  next hm =>
    left
    cases hc : r.cache.satisfiedChannels r.names group model filters with
    | error e => rw [hc] at h; cases h
    | ok channels =>
      rw [hc] at h
      cases h
      exact ⟨hm, channels, rfl, rfl⟩
  next hm =>
    cases h
    exact .inr ⟨by simpa using hm, rfl⟩

theorem eligible_error {e : String} (h : r.eligible group model filters = .error e) :
    r.listSatisfiedChannelPriorities group model filters = .error e ∧
      (∀ p, r.listSatisfiedChannelIDsAtPriority group model p filters = .error e) ∧
      ∀ p random, r.getRandomSatisfiedChannelAtPriority group model p filters random =
        .error e := by
  unfold eligible at h
  split at h
  next hm =>
    cases hc : r.cache.satisfiedChannels r.names group model filters with
    | ok channels => rw [hc] at h; cases h
    | error e' =>
      rw [hc] at h
      cases h
      simp only [listSatisfiedChannelPriorities, ChannelCache.listSatisfiedChannelPriorities,
        listSatisfiedChannelIDsAtPriority, ChannelCache.listSatisfiedChannelIDsAtPriority,
        getRandomSatisfiedChannelAtPriority, ChannelCache.getRandomSatisfiedChannelAtPriority,
        if_pos hm, hc]
      exact ⟨rfl, fun _ => rfl, fun _ _ => rfl⟩
  · cases h

section

variable (h : r.eligible group model filters = .ok es)

include h

theorem listSatisfiedChannelPriorities_eq :
    r.listSatisfiedChannelPriorities group model filters =
      .ok (sortPriorities (es.map Prod.snd)) := by
  rcases eligible_cases h with ⟨hm, channels, hc, rfl⟩ | ⟨hm, rfl⟩
  · rw [listSatisfiedChannelPriorities, if_pos hm,
      ChannelCache.listSatisfiedChannelPriorities, hc, List.map_map]
    rfl
  · rw [listSatisfiedChannelPriorities, hm, if_neg Bool.false_ne_true,
      ChannelDb.listChannelPriorities, List.map_map]
    rfl

theorem listSatisfiedChannelIDsAtPriority_spec (p : Int) :
    ∃ ids, r.listSatisfiedChannelIDsAtPriority group model p filters = .ok ids ∧
      ∀ id, id ∈ ids ↔ (id, p) ∈ es := by
  rcases eligible_cases h with ⟨hm, channels, hc, rfl⟩ | ⟨hm, rfl⟩
  · refine ⟨(channels.filter fun c => c.getPriority = p).map Channel.id, ?_, fun id => ?_⟩
    · rw [listSatisfiedChannelIDsAtPriority, if_pos hm,
        ChannelCache.listSatisfiedChannelIDsAtPriority, hc]
      rfl
    · simp only [List.mem_map, List.mem_filter, Prod.mk.injEq, decide_eq_true_eq]
      exact ⟨fun ⟨c, ⟨hm, hp⟩, hid⟩ => ⟨c, hm, hid, hp⟩, fun ⟨c, hm, hid, hp⟩ => ⟨c, ⟨hm, hp⟩, hid⟩⟩
  · refine ⟨_, by rw [listSatisfiedChannelIDsAtPriority, hm, if_neg Bool.false_ne_true],
      fun id => ?_⟩
    rw [ChannelDb.listChannelIDsAtPriority, List.mem_dedup, ChannelDb.abilitiesAtPriority]
    simp only [List.mem_map, List.mem_filter, Prod.mk.injEq, decide_eq_true_eq]
    exact ⟨fun ⟨a, ⟨hm, hp⟩, hid⟩ => ⟨a, hm, hid, hp⟩, fun ⟨a, hm, hid, hp⟩ => ⟨a, ⟨hm, hp⟩, hid⟩⟩

theorem mem_listSatisfiedChannelIDsAtPriority
    {p : Int} (hi : r.listSatisfiedChannelIDsAtPriority group model p filters = .ok ids) :
    id ∈ ids ↔ (id, p) ∈ es := by
  obtain ⟨js, hj, hjs⟩ := listSatisfiedChannelIDsAtPriority_spec h p
  cases hi.symm.trans hj
  exact hjs id

/-- A draw gives an eligible channel of the priority, or nothing if there is none. -/
theorem getRandomSatisfiedChannelAtPriority_spec (p : Int) (random : Nat) :
    ((∀ e ∈ es, e.2 ≠ p) ∧
      r.getRandomSatisfiedChannelAtPriority group model p filters random = .ok none) ∨
    ∃ c, (c.id, p) ∈ es ∧
      r.getRandomSatisfiedChannelAtPriority group model p filters random = .ok (some c) := by
  rcases eligible_cases h with ⟨hm, channels, hc, rfl⟩ | ⟨hm, rfl⟩
  · rw [getRandomSatisfiedChannelAtPriority, if_pos hm,
      ChannelCache.getRandomSatisfiedChannelAtPriority, hc]
    rcases @ChannelCache.drawChannel_spec (channels.filter fun c => c.getPriority = p) random with
      ⟨hnil, hd⟩ | ⟨c, hmem, hd⟩
    · refine .inl ⟨fun e he => ?_, hd⟩
      obtain ⟨c, hcm, rfl⟩ := List.mem_map.mp he
      simpa using List.filter_eq_nil_iff.mp hnil c hcm
    · obtain ⟨hcm, hp⟩ := List.mem_filter.mp hmem
      refine .inr ⟨c, List.mem_map.mpr ⟨c, hcm, ?_⟩, hd⟩
      rw [of_decide_eq_true hp]
  · rw [getRandomSatisfiedChannelAtPriority, hm, if_neg Bool.false_ne_true]
    by_cases hnil : r.db.abilitiesAtPriority r.names group model p filters = []
    · refine .inl ⟨fun e he hp => ?_, if_pos hnil⟩
      obtain ⟨a, ha, rfl⟩ := List.mem_map.mp he
      exact List.filter_eq_nil_iff.mp hnil a ha (decide_eq_true hp)
    · obtain ⟨a, c, -, hel, hp, hfind, hdraw⟩ := getChannelAtPriority_pick rfl hnil random
      refine .inr ⟨c, List.mem_map.mpr ⟨a, hel, ?_⟩, hdraw⟩
      rw [hp, Table.find_key hfind]

end

theorem mem_of_getRandomSatisfiedChannelAtPriority {p : Int} {random : Nat} {c : Channel}
    (h : r.getRandomSatisfiedChannelAtPriority group model p filters random = .ok (some c)) :
    ∃ es, r.eligible group model filters = .ok es ∧ (c.id, p) ∈ es := by
  cases he : r.eligible group model filters with
  | error e =>
    rw [(eligible_error he).2.2] at h
    cases h
  | ok es =>
    refine ⟨es, rfl, ?_⟩
    rcases getRandomSatisfiedChannelAtPriority_spec he p random with ⟨_, hnone⟩ | ⟨d, hd, hsome⟩
    · cases hnone.symm.trans h
    · cases hsome.symm.trans h
      exact hd

theorem getRandomSatisfiedChannel_eq {priorities : List Int}
    (h : r.listSatisfiedChannelPriorities group model filters = .ok priorities)
    (retry random : Nat) :
    r.getRandomSatisfiedChannel group model retry filters random =
      (priorities[retry]?).elim (.ok none) fun p =>
        r.getRandomSatisfiedChannelAtPriority group model p filters random := by
  unfold getRandomSatisfiedChannel
  rw [h]
  simp only [Except.bind]
  cases priorities[retry]? with
  | none => rfl
  | some p => rfl

theorem mem_of_getRandomSatisfiedChannel {retry random : Nat} {c : Channel}
    (h : r.getRandomSatisfiedChannel group model retry filters random = .ok (some c)) :
    ∃ es p, r.eligible group model filters = .ok es ∧ (c.id, p) ∈ es := by
  cases hps : r.listSatisfiedChannelPriorities group model filters with
  | error e =>
    rw [getRandomSatisfiedChannel, hps] at h
    cases h
  | ok priorities =>
    rw [getRandomSatisfiedChannel_eq hps] at h
    cases hp : priorities[retry]? with rw [hp] at h
    | none =>
      cases h
    | some p =>
      obtain ⟨es, he, hmem⟩ := mem_of_getRandomSatisfiedChannelAtPriority h
      exact ⟨es, p, he, hmem⟩

theorem eligible_not_excluded {excluded : List Nat}
    (h : r.eligible group model (filters ++ [.excludeChannelIDs excluded]) = .ok es) :
    ∀ e ∈ es, e.1 ∉ excluded := by
  intro e he
  rcases eligible_cases h with ⟨_, channels, hc, rfl⟩ | ⟨_, rfl⟩
  · obtain ⟨hids, hfind⟩ := lookupChannels_ok hc
    obtain ⟨c, hcm, rfl⟩ := List.mem_map.mp he
    have hmem : c.id ∈ r.cache.cachedSatisfiedChannelIDs r.names group model
        (filters ++ [.excludeChannelIDs excluded]) := by
      rw [← hids]
      exact List.mem_map.mpr ⟨c, hcm, rfl⟩
    have hp := mem_cachedSatisfiedChannelIDs hmem
    rw [hfind c hcm] at hp
    exact (channelSatisfiesFilters_exclude.mp hp).2
  · obtain ⟨a, ha, rfl⟩ := List.mem_map.mp he
    obtain ⟨c, hfind, hp⟩ := mem_getEligibleAbilities ha
    rw [← Table.find_key hfind]
    exact (channelSatisfiesFilters_exclude.mp hp).2

theorem eligible_exclude {excluded : List Nat} {es' : List (Nat × Int)}
    (h : r.eligible group model filters = .ok es)
    (hx : r.eligible group model (filters ++ [.excludeChannelIDs excluded]) = .ok es') :
    ∀ e ∈ es, e.1 ∉ excluded → e ∈ es' := by
  intro e he hid
  rcases eligible_cases h with ⟨hm, channels, hc, rfl⟩ | ⟨hm, rfl⟩
  · rcases eligible_cases hx with ⟨_, channels', hc', rfl⟩ | ⟨hm', _⟩
    · obtain ⟨hids, hfind⟩ := lookupChannels_ok hc
      obtain ⟨hids', hfind'⟩ := lookupChannels_ok hc'
      obtain ⟨c, hcm, rfl⟩ := List.mem_map.mp he
      have hmem : c.id ∈ r.cache.cachedSatisfiedChannelIDs r.names group model filters := by
        rw [← hids]
        exact List.mem_map.mpr ⟨c, hcm, rfl⟩
      have hmem' := mem_cachedSatisfiedChannelIDs_exclude (hfind c hcm) hid hmem
      rw [← hids'] at hmem'
      obtain ⟨c', hcm', hcid⟩ := List.mem_map.mp hmem'
      have hsame := hfind' c' hcm'
      rw [hcid, hfind c hcm] at hsame
      cases hsame
      exact List.mem_map.mpr ⟨c, hcm', rfl⟩
    · rw [hm] at hm'
      cases hm'
  · rcases eligible_cases hx with ⟨hm', _⟩ | ⟨_, rfl⟩
    · rw [hm] at hm'
      cases hm'
    obtain ⟨a, ha, rfl⟩ := List.mem_map.mp he
    obtain ⟨c, hfind, hp⟩ := mem_getEligibleAbilities ha
    refine List.mem_map.mpr ⟨a, List.mem_filter.mpr ⟨(List.mem_filter.mp ha).1, ?_⟩, rfl⟩
    rw [hfind]
    refine channelSatisfiesFilters_exclude.mpr ⟨hp, ?_⟩
    rw [Table.find_key hfind]
    exact hid

end Routing

end NewApi
