import NewApi.Channel.Candidates
import NewApi.Lib.Runs

/-!
# Disabling a channel in the cache

`CacheUpdateChannelStatus` takes a channel that is not enabled out of the lists. It removes the
first occurrence of the id from each list and goes on to the next list. So it depends on how
often `InitChannelCache` has put the id there: once, unless the channel names a group or a model
twice.
-/

namespace NewApi

open Runs

/-- The calls that change the cache. `InitChannelCache` comes with the tables it reads. -/
inductive CacheAction where
  | initChannelCache (db : ChannelDb)
  | updateChannelStatus (id : Nat) (status : ChannelStatus)
  | updateChannel (channel : Channel)

def ChannelCache.step (cache : ChannelCache) : CacheAction → ChannelCache
  | .initChannelCache db => (initChannelCache db cache).getD cache
  | .updateChannelStatus id status => cache.updateChannelStatus id status
  | .updateChannel channel => cache.updateChannel channel

/-- The action is neither a rebuild nor a status update of the channel. -/
def CacheAction.Spares (id : Nat) : CacheAction → Prop
  | .initChannelCache _ => False
  | .updateChannelStatus other _ => other ≠ id
  | .updateChannel _ => True

/-- If the action rebuilds the cache, an enabled channel with the id names each of its groups
and models once. -/
def CacheAction.NamesOnce (id : Nat) : CacheAction → Prop
  | .initChannelCache db => ∀ c ∈ db.channels.rows, c.id = id → c.status = .enabled →
    c.groups.Nodup ∧ c.getModels.Nodup
  | _ => True

/-- No selection from the cache gives the channel. -/
structure ChannelCache.NotSelected (cfg : NameSettings) (cache : ChannelCache) (id : Nat) :
    Prop where
  random : ∀ db group model retry filters random c,
    (Routing.mk cfg true db cache).getRandomSatisfiedChannel group model retry filters random =
      .ok (some c) → c.id ≠ id
  atPriority : ∀ db group model p filters random c,
    (Routing.mk cfg true db cache).getRandomSatisfiedChannelAtPriority group model p filters
      random = .ok (some c) → c.id ≠ id
  ids : ∀ db group model p filters ids,
    (Routing.mk cfg true db cache).listSatisfiedChannelIDsAtPriority group model p filters =
      .ok ids → id ∉ ids

/-! ## Lists -/

section Lists

variable {cache : ChannelCache} {id : Nat}

theorem ChannelCache.mem_updateChannelStatus {status : ChannelStatus} {group model : List Char}
    {j : Nat} (hj : j ≠ id) :
    j ∈ (cache.updateChannelStatus id status).group2model2channels group model ↔
      j ∈ cache.group2model2channels group model := by
  unfold ChannelCache.updateChannelStatus
  split
  · exact List.mem_erase_of_ne hj
  · rfl

theorem ChannelCache.count_updateChannelStatus (status : ChannelStatus) (group model : List Char)
    (other : Nat) :
    ((cache.updateChannelStatus other status).group2model2channels group model).count id ≤
      (cache.group2model2channels group model).count id := by
  unfold ChannelCache.updateChannelStatus
  split
  · exact List.erase_sublist.count_le id
  · exact le_rfl

theorem Channel.nodup_listed {c : Channel} (hg : c.groups.Nodup) (hm : c.getModels.Nodup) :
    c.listed.Nodup := by
  unfold Channel.listed
  split
  · rw [List.nodup_flatMap]
    refine ⟨fun group _ => hm.map fun a b h => (Prod.mk.inj h).2, hg.imp fun hne => ?_⟩
    intro pair h h'
    obtain ⟨m, _, rfl⟩ := List.mem_map.mp h
    obtain ⟨m', _, heq⟩ := List.mem_map.mp h'
    exact hne (Prod.mk.inj heq).1.symm
  · exact List.nodup_nil

theorem count_appendedIDs {channels : List Channel} (hnodup : (channels.map Channel.id).Nodup)
    (hlisted : ∀ c ∈ channels, c.id = id → c.listed.Nodup) (group model : List Char) :
    (appendedIDs channels group model).count id ≤ 1 := by
  induction channels with
  | nil => exact Nat.zero_le 1
  | cons c cs ih =>
    rw [List.map_cons, List.nodup_cons] at hnodup
    rw [show appendedIDs (c :: cs) group model =
      (c.listed.filter (· = (group, model))).map (fun _ => c.id) ++ appendedIDs cs group model
      from List.flatMap_cons, List.count_append]
    by_cases hc : c.id = id
    · have hrest : id ∉ appendedIDs cs group model := by
        intro hmem
        obtain ⟨d, hd, hin⟩ := List.mem_flatMap.mp hmem
        obtain ⟨_, _, rfl⟩ := List.mem_map.mp hin
        exact hnodup.1 (List.mem_map.mpr ⟨d, hd, hc.symm⟩)
      have hone := List.nodup_iff_count_le_one.mp (hlisted c List.mem_cons_self hc) (group, model)
      rw [List.count_eq_zero.mpr hrest, Nat.add_zero]
      refine (List.count_le_length).trans ?_
      have heq : (fun x : List Char × List Char => decide (x = (group, model))) =
          (· == (group, model)) := by
        funext x
        rw [Bool.eq_iff_iff, decide_eq_true_eq, beq_iff_eq]
      rw [List.length_map, heq, ← List.count_eq_length_filter]
      exact hone
    · have hfirst : id ∉ (c.listed.filter (· = (group, model))).map fun _ => c.id := by
        intro hmem
        obtain ⟨_, _, rfl⟩ := List.mem_map.mp hmem
        exact hc rfl
      rw [List.count_eq_zero.mpr hfirst, Nat.zero_add]
      exact ih hnodup.2 fun d hd => hlisted d (List.mem_cons_of_mem _ hd)

theorem mem_selected {cfg : NameSettings} {db : ChannelDb} {group model : List Char}
    {filters : List ChannelFilter} {es : List (Nat × Int)} {p : Int}
    (h : (Routing.mk cfg true db cache).eligible group model filters = .ok es)
    (hmem : (id, p) ∈ es) : ∃ name, id ∈ cache.group2model2channels group name := by
  rcases Routing.eligible_cases h with ⟨_, channels, hc, rfl⟩ | ⟨hm, _⟩
  · obtain ⟨c, hcm, heq⟩ := List.mem_map.mp hmem
    have hin := List.mem_map_of_mem (f := Channel.id) hcm
    rw [(lookupChannels_ok hc).1, (Prod.mk.inj heq).1] at hin
    unfold ChannelCache.cachedSatisfiedChannelIDs at hin
    dsimp only at hin
    split at hin <;> exact ⟨_, (mem_filterCandidateIDs.mp hin).1⟩
  · cases hm

theorem ChannelCache.notSelected_of_not_mem (cfg : NameSettings)
    (h : ∀ group model, id ∉ cache.group2model2channels group model) :
    cache.NotSelected cfg id := by
  have hnot : ∀ {db group model filters es}, (Routing.mk cfg true db cache).eligible group model
      filters = .ok es → ∀ p, (id, p) ∉ es := by
    intro db group model filters es he p hmem
    obtain ⟨name, hin⟩ := mem_selected he hmem
    exact h group name hin
  refine ⟨fun db group model retry filters random c hget => ?_,
    fun db group model p filters random c hget => ?_, fun db group model p filters ids hids => ?_⟩
  · rintro rfl
    obtain ⟨es, p, he, hmem⟩ := Routing.mem_of_getRandomSatisfiedChannel hget
    exact hnot he p hmem
  · rintro rfl
    obtain ⟨es, he, hmem⟩ := Routing.mem_of_getRandomSatisfiedChannelAtPriority hget
    exact hnot he p hmem
  · cases he : (Routing.mk cfg true db cache).eligible group model filters with
    | error e =>
      rw [(Routing.eligible_error he).2.1] at hids
      cases hids
    | ok es =>
      intro hid
      exact hnot he p ((Routing.mem_listSatisfiedChannelIDsAtPriority he hids).mp hid)

end Lists

/-! ## Runs -/

section Runs

variable {id : Nat}

def ChannelCache.ListedOnce (id : Nat) (cache : ChannelCache) : Prop :=
  ∀ group model, (cache.group2model2channels group model).count id ≤ 1

theorem ChannelCache.ListedOnce.step {cache : ChannelCache} (h : cache.ListedOnce id)
    (a : CacheAction) (ha : a.NamesOnce id) : (cache.step a).ListedOnce id := by
  intro group model
  cases a with
  | initChannelCache db =>
    rw [ChannelCache.step]
    cases hinit : NewApi.initChannelCache db cache with
    | none => exact h group model
    | some fresh =>
      unfold NewApi.initChannelCache at hinit
      split at hinit
      · cases hinit
      cases hinit
      rw [Option.getD_some, (List.perm_insertionSort _ _).count_eq]
      refine count_appendedIDs db.channels.nodup (fun c hc hid => ?_) group model
      by_cases hstatus : c.status = .enabled
      · obtain ⟨hg, hm⟩ := ha c hc hid hstatus
        exact Channel.nodup_listed hg hm
      · rw [Channel.listed, if_neg hstatus]
        exact List.nodup_nil
  | updateChannelStatus other status =>
    exact (ChannelCache.count_updateChannelStatus status group model other).trans (h group model)
  | updateChannel channel => exact h group model

theorem CacheAction.Spares.mem_step {a : CacheAction} (ha : a.Spares id) (cache : ChannelCache)
    (group model : List Char) :
    id ∈ (cache.step a).group2model2channels group model ↔
      id ∈ cache.group2model2channels group model := by
  cases a with
  | initChannelCache db => exact ha.elim
  | updateChannelStatus other status => exact ChannelCache.mem_updateChannelStatus (Ne.symm ha)
  | updateChannel channel => rfl

theorem mem_run_of_spares {as : List CacheAction} (has : ∀ a ∈ as, a.Spares id)
    (cache : ChannelCache) (group model : List Char) :
    id ∈ (run ChannelCache.step cache as).group2model2channels group model ↔
      id ∈ cache.group2model2channels group model := by
  induction as generalizing cache with
  | nil => rfl
  | cons a as ih =>
    rw [run_cons, ih fun b hb => has b (List.mem_cons_of_mem _ hb)]
    exact (has a List.mem_cons_self).mem_step cache group model

/-- From any tables on, a channel that is disabled in the cache is not selected until the cache
is rebuilt or its status is updated, if it named its groups and models once when the cache was
built. The other channels stay in their lists. -/
theorem disabled_channel_not_selected (cfg : NameSettings) (id : Nat) {status : ChannelStatus}
    (hstatus : status ≠ .enabled) (as bs : List CacheAction) (hbs : ∀ b ∈ bs, b.Spares id)
    (honce : ∀ a ∈ as, a.NamesOnce id) :
    (run ChannelCache.step .empty
      (as ++ .updateChannelStatus id status :: bs)).NotSelected cfg id ∧
    ∀ j ≠ id, (∀ b ∈ bs, b.Spares j) → ∀ group model,
      (j ∈ (run ChannelCache.step .empty
          (as ++ .updateChannelStatus id status :: bs)).group2model2channels group model ↔
        j ∈ (run ChannelCache.step .empty as).group2model2channels group model) := by
  have hlisted : (run ChannelCache.step .empty as).ListedOnce id :=
    run_invariant (fun cache a (h : cache.ListedOnce id) ha => h.step a ha)
      (fun _ _ => Nat.zero_le 1) (along_of_mem (fun a ha _ => honce a ha) _)
  rw [run_append, run_cons]
  refine ⟨ChannelCache.notSelected_of_not_mem cfg fun group model => ?_,
    fun j hj hspares group model => ?_⟩
  · rw [mem_run_of_spares hbs]
    -- The one occurrence of the id is removed.
    have hcount := hlisted group model
    rw [ChannelCache.step, ChannelCache.updateChannelStatus]
    rw [if_pos hstatus, ← List.count_eq_zero, List.count_erase_self]
    omega
  · rw [mem_run_of_spares hspares]
    exact ChannelCache.mem_updateChannelStatus hj

end Runs

/-! ## A group named twice -/

def singleDb (c : Channel) : ChannelDb := ⟨⟨[c], List.nodup_singleton _⟩, c.abilities⟩

theorem plainChannel_not_selected :
    (run ChannelCache.step .empty
      [.initChannelCache (singleDb (plainChannel 1 "default,vip" "gpt-5,o3")),
        .updateChannelStatus 1 .autoDisabled]).NotSelected plainNames 1 := by
  refine (disabled_channel_not_selected plainNames 1 (by decide)
    [.initChannelCache (singleDb (plainChannel 1 "default,vip" "gpt-5,o3"))] [] ?_ ?_).1
  · intro b hb
    cases hb
  · intro a ha
    rw [List.mem_singleton.mp ha]
    intro c hc _ _
    rw [List.mem_singleton.mp hc]
    decide

/-- A channel that names its group twice is listed twice and stays listed once. -/
theorem twice_named_channel_selected :
    (Routing.mk plainNames true (singleDb (plainChannel 1 "default,default" "gpt-5"))
      (run ChannelCache.step .empty
        [.initChannelCache (singleDb (plainChannel 1 "default,default" "gpt-5")),
          .updateChannelStatus 1 .autoDisabled])).listSatisfiedChannelIDsAtPriority
      "default".toList "gpt-5".toList 0 [] = .ok [1] := by decide

end NewApi
