import NewApi.Channel.AutoGroups

/-!
# Retries at different sources

With orchestration the retries follow a path of priorities. Each selection leaves out the channels
of the retries before it and prefers sources that they have not used. So among the retries no
channel comes twice, and a source comes again only when the priority has nothing else left.

The first channel of the request is not on the list, so a retry may draw it again, or another
channel of its source, unless it is out of reach (`FirstOutOfReach`).
-/

namespace NewApi

open Runs

section Select

variable {look : Lookup} {req : RetryRequest} {param : RetryParam} {p : Int}

theorem Lookup.source_eq_some {channelID sourceID : Nat} :
    look.source channelID = some sourceID ↔
      ∃ route ∈ look.routes.rows, route.channelID = channelID ∧ route.sourceID = sourceID ∧
        route.detached = false := by
  unfold source managedRouteForChannel
  rw [Option.map_eq_some_iff]
  constructor
  · rintro ⟨route, hroute, rfl⟩
    obtain ⟨hfind, hdetached⟩ := Option.filter_eq_some_iff.mp hroute
    exact ⟨route, Table.find_mem hfind, Table.find_key hfind, rfl, by simpa using hdetached⟩
  · rintro ⟨route, hmem, rfl, rfl, hdetached⟩
    exact ⟨route, Option.filter_eq_some_iff.mpr ⟨Table.find_of_mem hmem, by simp [hdetached]⟩, rfl⟩

theorem Lookup.mem_retryExcludedChannelIDs {id : Nat} :
    id ∈ look.retryExcludedChannelIDs param ↔ id ∈ param.attemptedChannelIDs ∨
      ∃ sourceID ∈ param.attemptedSourceIDs, look.source id = some sourceID := by
  unfold retryExcludedChannelIDs
  split
  next hnil =>
    rw [hnil]
    refine ⟨.inl, ?_⟩
    rintro (h | ⟨_, h, _⟩)
    · exact h
    · cases h
  next =>
    rw [List.mem_append, List.mem_map]
    constructor
    · rintro (h | ⟨route, hroute, rfl⟩)
      · exact .inl h
      · obtain ⟨hmem, hpasses⟩ := List.mem_filter.mp hroute
        simp only [Bool.and_eq_true, decide_eq_true_eq, Bool.not_eq_true'] at hpasses
        exact .inr ⟨route.sourceID, hpasses.1.1,
          source_eq_some.mpr ⟨route, hmem, rfl, rfl, hpasses.1.2⟩⟩
    · rintro (h | ⟨sourceID, hsource, hid⟩)
      · exact .inl h
      · obtain ⟨route, hmem, rfl, rfl, hdetached⟩ := source_eq_some.mp hid
        rcases Decidable.em (route.channelID ∈ param.attemptedChannelIDs) with hin | hout
        · exact .inl hin
        · refine .inr ⟨route, List.mem_filter.mpr ⟨hmem, ?_⟩, rfl⟩
          simp [hsource, hdetached, hout]

def Lookup.idsExcluding (look : Lookup) (req : RetryRequest) (priority : Int)
    (excluded : List Nat) : Except String (List Nat) :=
  look.routing.listSatisfiedChannelIDsAtPriority req.tokenGroup req.modelName priority
    (withExcludedChannelIDs req.filters excluded)

theorem Lookup.channelExcluding_some {excluded : List Nat} {c : Channel}
    (h : look.channelExcluding req p excluded = .ok (some c)) :
    c.id ∉ excluded ∧ ∃ ids, look.idsExcluding req p excluded = .ok ids ∧ c.id ∈ ids := by
  obtain ⟨es, he, hmem⟩ := Routing.mem_of_getRandomSatisfiedChannelAtPriority h
  obtain ⟨ids, hids, hiff⟩ := Routing.listSatisfiedChannelIDsAtPriority_spec he p
  refine ⟨?_, ids, hids, (hiff c.id).mpr hmem⟩
  unfold withExcludedChannelIDs at he
  split at he
  next hnil =>
    rw [hnil]
    exact List.not_mem_nil
  next => exact Routing.eligible_not_excluded he _ hmem

theorem Lookup.channelExcluding_none {excluded ids : List Nat}
    (h : look.channelExcluding req p excluded = .ok none)
    (hids : look.idsExcluding req p [] = .ok ids) {id : Nat} (hid : id ∈ ids) : id ∈ excluded := by
  unfold channelExcluding at h
  cases he : look.routing.eligible req.tokenGroup req.modelName
      (withExcludedChannelIDs req.filters excluded) with
  | error e =>
    rw [(Routing.eligible_error he).2.2] at h
    cases h
  | ok es' =>
    have hno : ∀ e ∈ es', e.2 ≠ p := by
      rcases Routing.getRandomSatisfiedChannelAtPriority_spec he p look.random with
        ⟨hno, _⟩ | ⟨c, _, hc⟩
      · exact hno
      · cases hc.symm.trans h
    change look.routing.listSatisfiedChannelIDsAtPriority _ _ _ req.filters = _ at hids
    cases hes : look.routing.eligible req.tokenGroup req.modelName req.filters with
    | error e =>
      rw [(Routing.eligible_error hes).2.1] at hids
      cases hids
    | ok es =>
      have hmem := (Routing.mem_listSatisfiedChannelIDsAtPriority hes hids).mp hid
      unfold withExcludedChannelIDs at he
      split at he
      next =>
        cases hes.symm.trans he
        exact absurd rfl (hno _ hmem)
      next =>
        by_contra hout
        exact hno _ (Routing.eligible_exclude hes he _ hmem hout) rfl

theorem Lookup.selectDiverseChannelAtPriority_spec {c : Channel}
    (h : look.selectDiverseChannelAtPriority req param p = .ok (some c)) :
    c.id ∉ param.attemptedChannelIDs ∧
    (∃ excluded ids, (excluded = look.retryExcludedChannelIDs param ∨
        excluded = param.attemptedChannelIDs) ∧
      look.idsExcluding req p excluded = .ok ids ∧ c.id ∈ ids) ∧
    ∀ sourceID ∈ param.attemptedSourceIDs, look.source c.id = some sourceID →
      ∀ ids, look.idsExcluding req p [] = .ok ids →
      ∀ id ∈ ids, id ∉ param.attemptedChannelIDs →
        ∃ other ∈ param.attemptedSourceIDs, look.source id = some other := by
  unfold selectDiverseChannelAtPriority at h
  split at h
  next => cases h
  next channel hdraw =>
    cases h
    obtain ⟨hout, ids, hids, hid⟩ := Lookup.channelExcluding_some hdraw
    have hout := fun hin => hout (Lookup.mem_retryExcludedChannelIDs.mpr hin)
    refine ⟨fun hin => hout (.inl hin), ⟨_, ids, .inl rfl, hids, hid⟩, ?_⟩
    exact fun sourceID hmem hsource => absurd (.inr ⟨sourceID, hmem, hsource⟩) hout
  next hnone =>
    split at h
    next => cases h
    obtain ⟨hout, ids, hids, hid⟩ := Lookup.channelExcluding_some h
    refine ⟨hout, ⟨_, ids, .inr rfl, hids, hid⟩, fun _ _ _ ids hids id hid hfresh => ?_⟩
    rcases Lookup.mem_retryExcludedChannelIDs.mp
      (Lookup.channelExcluding_none hnone hids hid) with hin | hsource
    · exact absurd hin hfresh
    · exact hsource

theorem Lookup.rememberRetryChannel_spec (channel : Channel) :
    (look.rememberRetryChannel param channel).priorityPath = param.priorityPath ∧
    (look.rememberRetryChannel param channel).attemptedChannelIDs =
      param.attemptedChannelIDs ++ [channel.id] ∧
    ∀ sourceID, sourceID ∈ (look.rememberRetryChannel param channel).attemptedSourceIDs ↔
      sourceID ∈ param.attemptedSourceIDs ∨ look.source channel.id = some sourceID := by
  unfold rememberRetryChannel
  cases hsource : look.source channel.id with
  | none => exact ⟨rfl, rfl, fun sourceID => by simp⟩
  | some own =>
    dsimp only
    split
    next hin =>
      refine ⟨rfl, rfl, fun sourceID => ⟨.inl, ?_⟩⟩
      rintro (h | h)
      · exact h
      · cases h
        exact hin
    next =>
      refine ⟨rfl, rfl, fun sourceID => ?_⟩
      rw [List.mem_append, List.mem_singleton, Option.some.injEq, eq_comm]

theorem cacheGetRandomSatisfiedChannel_path {cfg : RetrySettings} {q q' : RetryProgress}
    {selected : Selected} (hauto : req.tokenGroup ≠ autoGroup) (hpath : q.param.priorityPath ≠ [])
    (h : cacheGetRandomSatisfiedChannel cfg req look q = (.ok (some selected), q')) :
    ∃ priority, q.param.priorityPath[q.param.retry]? = some priority ∧
      look.selectDiverseChannelAtPriority req q.param priority = .ok (some selected.channel) ∧
      q' = { q with param := look.rememberRetryChannel q.param selected.channel } := by
  unfold cacheGetRandomSatisfiedChannel at h
  split at h
  next found q₁ hq =>
    cases h
    rw [selectSatisfiedChannel, if_neg hauto, if_pos hpath] at hq
    obtain ⟨hfound, rfl⟩ := Prod.mk.inj hq
    cases hp : q.param.priorityPath[q.param.retry]? with rw [hp] at hfound
    | none =>
      cases hfound
    | some priority =>
      dsimp only at hfound
      refine ⟨priority, rfl, ?_, rfl⟩
      cases hd : look.selectDiverseChannelAtPriority req q.param priority with rw [hd] at hfound
      | error e =>
        cases hfound
      | ok channel =>
        cases channel with
        | none => cases hfound
        | some c =>
          cases hfound
          rfl
  next hother _ =>
    cases h
    exact absurd rfl (hother _)

end Select

/-! ## The attempts -/

def sourcesOf (look : Lookup) (tried : List Selected) : List Nat :=
  tried.filterMap fun a => look.source a.channel.id

/-- No channel comes twice, a retry is drawn at its priority of the path, and a source comes
again only if every channel of the priority that is left belongs to a source that was tried. -/
structure DistinctSources (look : Lookup) (req : RetryRequest) (path : List Int)
    (tried : List Selected) : Prop where
  nodup : (tried.map fun a => a.channel.id).Nodup
  drawn : ∀ k a, 0 < k → tried[k]? = some a → ∃ p excluded ids, path[k]? = some p ∧
    look.idsExcluding req p excluded = .ok ids ∧ a.channel.id ∈ ids
  source : ∀ k a p ids sourceID, tried[k]? = some a → path[k]? = some p →
    look.idsExcluding req p [] = .ok ids → look.source a.channel.id = some sourceID →
    sourceID ∈ sourcesOf look (tried.take k) →
    ∀ id ∈ ids, id ∉ (tried.take k).map (fun a => a.channel.id) →
      ∃ other ∈ sourcesOf look (tried.take k), look.source id = some other

section Attempts

variable {look : Lookup} {req : RetryRequest} {path : List Int} {tried : List Selected}

theorem mem_sourcesOf {sourceID : Nat} :
    sourceID ∈ sourcesOf look tried ↔ ∃ a ∈ tried, look.source a.channel.id = some sourceID :=
  List.mem_filterMap

theorem DistinctSources.nil : DistinctSources look req path [] where
  nodup := List.nodup_nil
  drawn := fun _ _ _ h => (by cases h)
  source := fun _ _ _ _ _ h => (by cases h)

theorem DistinctSources.append (h : DistinctSources look req path tried) {selected : Selected}
    (hnew : selected.channel.id ∉ tried.map fun a => a.channel.id)
    (hdrawn : tried ≠ [] → ∃ p excluded ids, path[tried.length]? = some p ∧
      look.idsExcluding req p excluded = .ok ids ∧ selected.channel.id ∈ ids)
    (hsource : ∀ p ids sourceID, path[tried.length]? = some p →
      look.idsExcluding req p [] = .ok ids → look.source selected.channel.id = some sourceID →
      sourceID ∈ sourcesOf look tried →
      ∀ id ∈ ids, id ∉ tried.map (fun a => a.channel.id) →
        ∃ other ∈ sourcesOf look tried, look.source id = some other) :
    DistinctSources look req path (tried ++ [selected]) := by
  refine ⟨?_, fun k a hk ha => ?_, fun k a p ids sourceID ha => ?_⟩
  · rw [List.map_append, List.map_singleton]
    refine List.nodup_append.mpr ⟨h.nodup, List.nodup_singleton _, fun x hx y hy hxy => ?_⟩
    rw [List.mem_singleton] at hy
    rw [hxy, hy] at hx
    exact hnew hx
  · rcases getElem?_concat_cases ha with ⟨_, ha⟩ | ⟨rfl, rfl⟩
    · exact h.drawn k a hk ha
    · exact hdrawn (List.length_pos_iff.mp hk)
  · rcases getElem?_concat_cases ha with ⟨hlt, ha⟩ | ⟨rfl, rfl⟩
    · rw [List.take_append_of_le_length hlt.le]
      exact h.source k a p ids sourceID ha
    · rw [List.take_left]
      exact hsource p ids sourceID

end Attempts

/-! ## Turns -/

section Turns

variable {look : Lookup} {it : Iteration}

theorem Iteration.ReadsFrom.source (h : it.ReadsFrom look) (id : Nat) :
    it.look.source id = look.source id := by
  unfold Lookup.source Lookup.managedRouteForChannel
  rw [h.2]

theorem Iteration.ReadsFrom.idsExcluding (h : it.ReadsFrom look) (req : RetryRequest) (p : Int)
    (excluded : List Nat) :
    it.look.idsExcluding req p excluded = look.idsExcluding req p excluded := by
  unfold Lookup.idsExcluding
  rw [h.1]

theorem Iteration.ReadsFrom.retryExcludedChannelIDs (h : it.ReadsFrom look) (param : RetryParam) :
    it.look.retryExcludedChannelIDs param = look.retryExcludedChannelIDs param := by
  unfold Lookup.retryExcludedChannelIDs
  rw [h.2]

/-- A channel that a retry may draw is not the first channel and not of its source. -/
def RelayLoop.FirstOutOfReach (look : Lookup) (r : RelayRun) (s : RelayLoop) (_ : Iteration) :
    Prop :=
  s.running = true → s.channelMeta = true →
  ∀ p excluded ids, s.progress.param.priorityPath[s.progress.param.retry]? = some p →
    (excluded = look.retryExcludedChannelIDs s.progress.param ∨
      excluded = s.progress.param.attemptedChannelIDs) →
    look.idsExcluding r.req p excluded = .ok ids →
    ∀ id ∈ ids, id ≠ r.first.channel.id ∧
      ∀ sourceID, look.source r.first.channel.id = some sourceID → look.source id ≠ some sourceID

theorem RelayLoop.FirstOutOfReach.of_ids {r : RelayRun} {s : RelayLoop} (p : Int)
    (ids ids' : List Nat) (hp : s.progress.param.priorityPath[s.progress.param.retry]? = some p)
    (hids : look.idsExcluding r.req p (look.retryExcludedChannelIDs s.progress.param) = .ok ids)
    (hids' : look.idsExcluding r.req p s.progress.param.attemptedChannelIDs = .ok ids')
    (h : ∀ id ∈ ids ++ ids', id ≠ r.first.channel.id ∧
      look.source id ≠ look.source r.first.channel.id) :
    s.FirstOutOfReach look r it := by
  intro _ _ q excluded ids₀ hq hexcluded hids₀ id hid
  cases hp.symm.trans hq
  have hmem : id ∈ ids ++ ids' := by
    rcases hexcluded with rfl | rfl
    · cases hids.symm.trans hids₀
      exact List.mem_append_left _ hid
    · cases hids'.symm.trans hids₀
      exact List.mem_append_right _ hid
  refine ⟨(h id hmem).1, fun sourceID hs => ?_⟩
  rw [← hs]
  exact (h id hmem).2

/-- The lists of the parameter are the retries; the counter counts the attempts. -/
structure RelayLoop.Remembers (look : Lookup) (r : RelayRun) (path : List Int) (s : RelayLoop) :
    Prop where
  retry : s.progress.param.retry = s.tried.length
  reset : s.progress.param.resetNextTry = false
  path : s.progress.param.priorityPath = path
  channelMeta : s.channelMeta = true ↔ s.tried ≠ []
  first : ∀ a ∈ s.tried.head?, a = r.first
  channels : s.progress.param.attemptedChannelIDs = s.tried.tail.map fun a => a.channel.id
  sources : ∀ sourceID, sourceID ∈ s.progress.param.attemptedSourceIDs ↔
    sourceID ∈ sourcesOf look s.tried.tail

variable {r : RelayRun} {s : RelayLoop} {path : List Int}

theorem RelayLoop.Remembers.tail_cons (h : s.Remembers look r path) (hmeta : s.channelMeta = true) :
    s.tried = r.first :: s.tried.tail := by
  cases ht : s.tried with
  | nil => exact absurd ht (h.channelMeta.mp hmeta)
  | cons a rest =>
    rw [h.first a (by rw [ht]; rfl)]
    rfl

/-- The attempt of a retry is another channel, and of another source if there is one. -/
theorem DistinctSources.retry (h : DistinctSources look r.req path s.tried)
    (hrem : s.Remembers look r path) (hmeta : s.channelMeta = true) (hreads : it.ReadsFrom look)
    (hreach : s.FirstOutOfReach look r it) (hrun : s.running = true) {priority : Int}
    (hp : path[s.tried.length]? = some priority) {selected : Selected}
    (hsel : it.look.selectDiverseChannelAtPriority r.req s.progress.param priority =
      .ok (some selected.channel)) :
    DistinctSources look r.req path (s.tried ++ [selected]) := by
  obtain ⟨hnew, ⟨excluded, ids, hexcluded, hids, hid⟩, hlast⟩ :=
    Lookup.selectDiverseChannelAtPriority_spec hsel
  rw [hreads.retryExcludedChannelIDs] at hexcluded
  rw [hreads.idsExcluding] at hids
  obtain ⟨hfirst, hsource⟩ := hreach hrun hmeta priority excluded ids
    (by rw [hrem.path, hrem.retry]; exact hp) hexcluded hids _ hid
  have hcons := hrem.tail_cons hmeta
  refine h.append (fun hin => ?_) (fun _ => ⟨priority, excluded, ids, hp, hids, hid⟩) ?_
  · rw [hcons, List.map_cons, ← hrem.channels] at hin
    rcases List.mem_cons.mp hin with heq | hin
    · exact hfirst heq
    · exact hnew hin
  · intro p ids sourceID hp' hids hs hmem id hid hfresh
    cases hp.symm.trans hp'
    rw [hcons, List.map_cons, ← hrem.channels] at hfresh
    -- The source is not that of the first channel, so it is that of a retry.
    have hretry : sourceID ∈ s.progress.param.attemptedSourceIDs := by
      obtain ⟨a, ha, hsa⟩ := mem_sourcesOf.mp hmem
      rw [hcons] at ha
      rcases List.mem_cons.mp ha with rfl | ha
      · exact absurd hs (hsource sourceID hsa)
      · exact (hrem.sources sourceID).mpr (mem_sourcesOf.mpr ⟨a, ha, hsa⟩)
    obtain ⟨other, hother, hso⟩ := hlast sourceID hretry (by rw [hreads.source]; exact hs) ids
      (by rw [hreads.idsExcluding]; exact hids) id hid
      (fun hin => hfresh (List.mem_cons_of_mem _ hin))
    obtain ⟨a, ha, hsa⟩ := mem_sourcesOf.mp ((hrem.sources other).mp hother)
    refine ⟨other, mem_sourcesOf.mpr ⟨a, List.mem_of_mem_tail ha, hsa⟩, ?_⟩
    rw [← hreads.source]
    exact hso

theorem RelayLoop.Remembers.retry_next (hrem : s.Remembers look r path)
    (hmeta : s.channelMeta = true) (hreads : it.ReadsFrom look) (selected : Selected)
    {t : RelayLoop} (htried : t.tried = s.tried ++ [selected]) (hm : t.channelMeta = true)
    (hprogress : t.progress =
      { s.progress with param :=
        (it.look.rememberRetryChannel s.progress.param selected.channel).increaseRetry }) :
    t.Remembers look r path := by
  obtain ⟨hretry, hreset⟩ := @rememberRetryChannel_retry it.look s.progress.param selected.channel
  obtain ⟨hpath, hchannels, hsources⟩ :=
    @Lookup.rememberRetryChannel_spec it.look s.progress.param selected.channel
  have hinc : (it.look.rememberRetryChannel s.progress.param selected.channel).increaseRetry =
      { it.look.rememberRetryChannel s.progress.param selected.channel with
        retry := s.progress.param.retry + 1 } := by
    rw [RetryParam.increaseRetry, if_neg (by rw [hreset, hrem.reset]; exact Bool.false_ne_true),
      hretry]
  have htail : t.tried.tail = s.tried.tail ++ [selected] := by
    rw [htried, hrem.tail_cons hmeta]
    rfl
  refine ⟨?_, ?_, ?_, ?_, fun a ha => ?_, ?_, fun sourceID => ?_⟩
  · rw [hprogress, hinc, htried, List.length_append, List.length_singleton, hrem.retry]
  · rw [hprogress, hinc]
    exact hreset.trans hrem.reset
  · rw [hprogress, hinc]
    exact hpath.trans hrem.path
  · rw [htried]
    exact ⟨fun _ => List.append_ne_nil_of_right_ne_nil _ (List.cons_ne_nil _ _), fun _ => hm⟩
  · rw [htried, hrem.tail_cons hmeta] at ha
    exact (Option.some.inj ha).symm
  · rw [hprogress, hinc, htail, List.map_append, ← hrem.channels]
    exact hchannels
  · rw [hprogress, hinc, htail]
    refine (hsources sourceID).trans ?_
    rw [hrem.sources, hreads.source, mem_sourcesOf, mem_sourcesOf]
    constructor
    · rintro (⟨a, ha, hsa⟩ | hs)
      · exact ⟨a, List.mem_append_left _ ha, hsa⟩
      · exact ⟨selected, List.mem_append_right _ (List.mem_singleton_self _), hs⟩
    · rintro ⟨a, ha, hsa⟩
      rcases List.mem_append.mp ha with ha | ha
      · exact .inl ⟨a, ha, hsa⟩
      · rw [List.mem_singleton.mp ha] at hsa
        exact .inr hsa

theorem RelayLoop.Remembers.first_next (hrem : s.Remembers look r path) (hnil : s.tried = [])
    {t : RelayLoop} (htried : t.tried = s.tried ++ [r.first]) (hm : t.channelMeta = true)
    (hprogress : t.progress = { s.progress with param := s.progress.param.increaseRetry }) :
    t.Remembers look r path := by
  have hinc : s.progress.param.increaseRetry =
      { s.progress.param with retry := s.progress.param.retry + 1 } :=
    if_neg (by rw [hrem.reset]; exact Bool.false_ne_true)
  rw [hnil, List.nil_append] at htried
  refine ⟨?_, ?_, ?_, ?_, fun a ha => ?_, ?_, fun sourceID => ?_⟩
  · rw [hprogress, hinc, htried, hrem.retry, hnil]
    rfl
  · rw [hprogress, hinc]
    exact hrem.reset
  · rw [hprogress, hinc]
    exact hrem.path
  · rw [htried]
    exact ⟨fun _ => List.cons_ne_nil _ _, fun _ => hm⟩
  · rw [htried] at ha
    exact (Option.some.inj ha).symm
  · rw [hprogress, hinc, htried, hrem.channels, hnil]
    rfl
  · rw [hprogress, hinc, htried, hrem.sources, hnil]
    rfl

theorem distinct_sources_step (hauto : r.req.tokenGroup ≠ autoGroup)
    (hmax : 0 < r.maxRetries → r.maxRetries < path.length) (hreads : it.ReadsFrom look)
    (hreach : s.FirstOutOfReach look r it)
    (h : DistinctSources look r.req path s.tried ∧ (s.running = true → s.Remembers look r path)) :
    DistinctSources look r.req path (s.step r it).tried ∧
      ((s.step r it).running = true → (s.step r it).Remembers look r path) := by
  obtain ⟨hdistinct, hrem⟩ := h
  cases hrun : s.running with
  | false =>
    rw [RelayLoop.step_of_stopped hrun]
    exact ⟨hdistinct, hrem⟩
  | true =>
    have hrem := hrem hrun
    have hstopped : ∀ t : RelayLoop, t.running = false → t.tried = s.tried →
        DistinctSources look r.req path t.tried ∧
          (t.running = true → t.Remembers look r path) := fun t hr ht =>
      ⟨by rw [ht]; exact hdistinct, fun h => (by rw [hr] at h; cases h)⟩
    rw [RelayLoop.step_eq_tryChannel hrun]
    split
    · exact hstopped _ rfl rfl
    next hbound =>
    split
    · exact hstopped _ rfl rfl
    rcases RelayLoop.getChannel_spec r it s with
      ⟨hmeta, heq⟩ | ⟨hmeta, found, result, q, hsel, heq, hfound⟩ <;> rw [heq]
    · have hnil : s.tried = [] := by
        by_contra hne
        rw [hrem.channelMeta.mpr hne] at hmeta
        cases hmeta
      rcases RelayLoop.tryChannel_spec r it r.first { s with channelMeta := true } hrun with
        ⟨hr, ht, _⟩ | ⟨ht, hgo, _⟩
      · exact hstopped _ hr ht
      refine ⟨?_, fun hr => hrem.first_next hnil ht (hgo hr).2.1 (hgo hr).1⟩
      rw [ht]
      refine hdistinct.append ?_ (fun hne => absurd hnil hne) ?_
      · rw [hnil]
        exact List.not_mem_nil
      · intro _ _ _ _ _ _ hmem
        rw [hnil] at hmem
        cases hmem
    · cases found with
      | none => exact hstopped _ rfl rfl
      | some selected =>
        rw [hfound selected rfl] at hsel
        -- A retry within the bound is on the path.
        have hlength : 0 < s.tried.length := List.length_pos_iff.mpr (hrem.channelMeta.mp hmeta)
        have hpath : s.progress.param.priorityPath ≠ [] := by
          rw [hrem.path]
          rintro rfl
          rw [hrem.retry] at hbound
          have := hmax (by omega)
          rw [List.length_nil] at this
          omega
        obtain ⟨priority, hp, hdraw, rfl⟩ := cacheGetRandomSatisfiedChannel_path hauto hpath hsel
        rw [hrem.path, hrem.retry] at hp
        rcases RelayLoop.tryChannel_spec r it selected
          { s with progress := { s.progress with
            param := it.look.rememberRetryChannel s.progress.param selected.channel } } hrun with
          ⟨hr, ht, _⟩ | ⟨ht, hgo, _⟩
        · exact hstopped _ hr ht
        refine ⟨?_, fun hr => hrem.retry_next hmeta hreads selected ht
          ((hgo hr).2.1.trans hmeta) (hgo hr).1⟩
        rw [ht]
        exact hdistinct.retry hrem hmeta hreads hreach hrun hp hdraw

end Turns

/-! ## The request -/

theorem relayDirect_path {cfg : RetrySettings} {req : RetryRequest} (look : Lookup)
    (first : Selected) (index writer : Option Nat) (maxAttempts : Int)
    (hauto : req.tokenGroup ≠ autoGroup) (horchestration : cfg.orchestrationEnabled = true) :
    ∃ maxRetries path, (0 < maxRetries → maxRetries < (path.length : Int)) ∧
      relayDirect cfg req look first index writer maxAttempts =
        (⟨cfg, req, first, maxRetries, writer.getD 0⟩,
          .start ⟨{ RetryParam.start with priorityPath := path }, index⟩ writer) := by
  have hadaptive : ∃ maxRetries path, (0 < maxRetries → maxRetries < (path.length : Int)) ∧
      adaptiveRetryTimes cfg req look first.channel.getPriority .start =
        (maxRetries, { RetryParam.start with priorityPath := path }) := by
    unfold adaptiveRetryTimes
    rw [if_neg hauto]
    split
    · exact ⟨0, [], fun h => absurd h (lt_irrefl 0), rfl⟩
    · exact ⟨0, [], fun h => absurd h (lt_irrefl 0), rfl⟩
    · exact ⟨_, _, fun _ => by omega, rfl⟩
  obtain ⟨maxRetries, path, hlt, heq⟩ := hadaptive
  unfold relayDirect
  rw [horchestration, Bool.or_true, if_pos rfl, heq]
  cases writer with
  | none => exact ⟨maxRetries, path, hlt, rfl⟩
  | some attempt =>
    refine ⟨capStreamRecoveryRetries maxAttempts attempt maxRetries, path, ?_, rfl⟩
    unfold capStreamRecoveryRetries
    split <;> omega

/-- With orchestration the attempts of a request outside `auto` are different channels, and of
different sources where the priority has them, as long as no retry finds the first channel or its
source. -/
theorem retries_use_distinct_sources {cfg : RetrySettings} {req : RetryRequest} {look : Lookup}
    (hauto : req.tokenGroup ≠ autoGroup) (horchestration : cfg.orchestrationEnabled = true)
    (first : Selected) (index writer : Option Nat) (maxAttempts : Int) {its : List Iteration}
    (hits : ∀ it ∈ its, it.ReadsFrom look) {r : RelayRun} {s : RelayLoop}
    (hr : relayDirect cfg req look first index writer maxAttempts = (r, s))
    (hreach : Along (RelayLoop.step r) (RelayLoop.FirstOutOfReach look r) s its) :
    DistinctSources look req s.progress.param.priorityPath
      (run (RelayLoop.step r) s its).tried := by
  obtain ⟨maxRetries, path, hmax, heq⟩ :=
    relayDirect_path look first index writer maxAttempts hauto horchestration
  obtain ⟨rfl, rfl⟩ := Prod.mk.inj (heq.symm.trans hr)
  have hstart : RelayLoop.Remembers look ⟨cfg, req, first, maxRetries, writer.getD 0⟩ path
      (.start ⟨{ RetryParam.start with priorityPath := path }, index⟩ writer) :=
    ⟨rfl, rfl, rfl, ⟨fun h => (by cases h), fun h => absurd rfl h⟩, fun _ h => (by cases h), rfl,
      fun _ => Iff.rfl⟩
  exact (run_invariant
    (I := fun s : RelayLoop => DistinctSources look req path s.tried ∧
      (s.running = true → s.Remembers look ⟨cfg, req, first, maxRetries, writer.getD 0⟩ path))
    (fun s it h hit => distinct_sources_step hauto hmax hit.2 hit.1 h)
    ⟨DistinctSources.nil, fun _ => hstart⟩
    (hreach.and (along_of_mem (fun it hit _ => hits it hit) _))).1

/-! ## Two sources -/

def groupRequest (group : String) : RetryRequest := ⟨group.toList, "gpt-5".toList, [], [], false⟩

/-- A channel at the highest priority and two below it, each of a source of its own. -/
def threeSources : Lookup :=
  databaseLookup ⟨[{ plainChannel 1 "default" "gpt-5" with priority := some 1 },
    plainChannel 2 "default" "gpt-5", plainChannel 3 "default" "gpt-5"], by decide⟩
    ⟨[⟨1, 1, false⟩, ⟨2, 2, false⟩, ⟨3, 3, false⟩], by decide⟩ 0

/-- Two channels of two sources at one priority. -/
def twoSources : Lookup :=
  databaseLookup ⟨[plainChannel 1 "default" "gpt-5", plainChannel 2 "default" "gpt-5"],
    by decide⟩ ⟨[⟨1, 1, false⟩, ⟨2, 2, false⟩], by decide⟩ 0

def firstOfThree : Selected :=
  ⟨{ plainChannel 1 "default" "gpt-5" with priority := some 1 }, "default".toList, 0⟩

theorem threeSources_distinct :
    ((relayRun ⟨0, true⟩ (groupRequest "default") threeSources firstOfThree none none 0
      (List.replicate 3 (failedTurn threeSources))).tried.map fun a => a.channel.id) =
      [1, 2, 3] ∧
    DistinctSources threeSources (groupRequest "default") [1, 0, 0]
      (relayRun ⟨0, true⟩ (groupRequest "default") threeSources firstOfThree none none 0
        (List.replicate 3 (failedTurn threeSources))).tried := by
  refine ⟨by decide, @retries_use_distinct_sources ⟨0, true⟩ (groupRequest "default") threeSources
    (by decide) rfl firstOfThree none none 0 (List.replicate 3 (failedTurn threeSources))
    (fun it hit => ?_) (relayDirect ⟨0, true⟩ (groupRequest "default") threeSources firstOfThree
      none none 0).1 _ rfl ⟨fun _ h => (by cases h), ?_, ?_, trivial⟩⟩
  · rw [List.eq_of_mem_replicate hit]
    exact ⟨rfl, rfl⟩
  · exact .of_ids 0 [2, 3] [2, 3] (by decide) (by decide) (by decide) (by decide)
  · exact .of_ids 0 [3] [3] (by decide) (by decide) (by decide) (by decide)

/-- The retry draws the first channel again, and there is another one of another source. -/
theorem first_channel_drawn_again :
    selectChannelForRequest ⟨0, true⟩ (groupRequest "default") twoSources =
      some (⟨plainChannel 1 "default" "gpt-5", "default".toList, 0⟩, none) ∧
    ((relayRun ⟨0, true⟩ (groupRequest "default") twoSources
      ⟨plainChannel 1 "default" "gpt-5", "default".toList, 0⟩ none none 0
      (List.replicate 2 (failedTurn twoSources))).tried.map fun a => a.channel.id) = [1, 1] ∧
    twoSources.idsExcluding (groupRequest "default") 0 [] = .ok [1, 2] ∧
    twoSources.source 1 = some 1 ∧ twoSources.source 2 = some 2 := by
  refine ⟨?_, ?_, ?_, ?_, ?_⟩ <;> decide

end NewApi
