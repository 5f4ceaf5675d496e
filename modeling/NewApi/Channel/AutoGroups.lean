import NewApi.Channel.Attempts

/-!
# Failover through the groups of a request

A request of the group `auto` with cross-group retry goes through its groups in order and through
the priorities of each from the highest down. Every turn goes to the next pair of a group and a
retry at which there is a channel (`NextLevel`), and the order of the attempts follows from this.

The loop also has a bound of its own, which for `auto` is at most 4 and is compared with the same
counter. With `RetryTimes` of 5 or more a group with five priorities reaches it first, and the
groups after it are not tried.
-/

namespace NewApi

open Runs

/-! ## Positions -/

/-- How many priorities the group at an index has. -/
def Lookup.levelsAt (look : Lookup) (req : RetryRequest) (i : Nat) : Nat :=
  match req.autoGroups[i]? with
  | some group => look.levels req group
  | none => 0

/-- The next position with a channel, from level `n` of group `i` on. -/
def NextLevel (L : Nat → Nat) (i n i' n' : Nat) : Prop :=
  (i' = i ∧ n' = n ∧ n < L i) ∨
    (i < i' ∧ n' = 0 ∧ L i ≤ n ∧ 0 < L i' ∧ ∀ k, i < k → k < i' → L k = 0)

/-- There is no channel from level `n` of group `i` on. -/
def NoLevel (L : Nat → Nat) (i n : Nat) : Prop := L i ≤ n ∧ ∀ k, i < k → L k = 0

theorem NextLevel.lt {L : Nat → Nat} {i n i' n' : Nat} (h : NextLevel L i n i' n') : n' < L i' := by
  rcases h with ⟨rfl, rfl, hlt⟩ | ⟨_, rfl, _, hpos, _⟩
  · exact hlt
  · exact hpos

def inGroup (tried : List Selected) (g : Nat) : List Selected :=
  tried.filter fun selected => selected.groupIndex = g

/-- The selections so far, when the next one is sought from level `n` of group `i` on. -/
structure Placed (L : Nat → Nat) (tried : List Selected) (i n : Nat) : Prop where
  order : (tried.map Selected.groupIndex).Pairwise (· ≤ ·)
  before : ∀ selected ∈ tried, selected.groupIndex ≤ i
  count : (inGroup tried i).length = n
  covered : ∀ k, k < i → 0 < L k → inGroup tried k ≠ []

section Positions

variable {L : Nat → Nat} {tried : List Selected} {selected : Selected} {i n n' : Nat}

theorem mem_inGroup {g : Nat} {a : Selected} :
    a ∈ inGroup tried g ↔ a ∈ tried ∧ a.groupIndex = g := by
  simp [inGroup]

theorem inGroup_append (g : Nat) :
    inGroup (tried ++ [selected]) g =
      if selected.groupIndex = g then inGroup tried g ++ [selected] else inGroup tried g := by
  unfold inGroup
  rw [List.filter_append]
  split
  next h => rw [List.filter_cons_of_pos (by simpa using h), List.filter_nil]
  next h => rw [List.filter_cons_of_neg (by simpa using h), List.filter_nil, List.append_nil]

theorem Placed.nil : Placed L [] 0 0 where
  order := List.Pairwise.nil
  before := fun _ h => (by cases h)
  count := rfl
  covered := fun _ h => absurd h (Nat.not_lt_zero _)

theorem Placed.inGroup_eq_nil (h : Placed L tried i n) {k : Nat} (hk : i < k) :
    inGroup tried k = [] := by
  refine List.eq_nil_iff_forall_not_mem.mpr fun a ha => ?_
  obtain ⟨hmem, rfl⟩ := mem_inGroup.mp ha
  exact absurd (h.before a hmem) (by omega)

/-- A group up to this one has its selections, if this one has. -/
theorem Placed.ne_nil (h : Placed L tried i n) {k : Nat} (hk : k ≤ i) (hn : 0 < L i → 0 < n)
    (hpos : 0 < L k) : inGroup tried k ≠ [] := by
  rcases hk.lt_or_eq with hlt | rfl
  · exact h.covered k hlt hpos
  intro hnil
  have hcount := h.count
  rw [hnil, List.length_nil] at hcount
  omega

theorem Placed.count_next (h : Placed L tried i n)
    (hnext : NextLevel L i n selected.groupIndex n') :
    (inGroup tried selected.groupIndex).length = n' := by
  rcases hnext with ⟨hi, rfl, _⟩ | ⟨hi, rfl, _⟩
  · rw [hi]
    exact h.count
  · rw [h.inGroup_eq_nil hi]
    rfl

theorem Placed.append (h : Placed L tried i n) (hnext : NextLevel L i n selected.groupIndex n') :
    Placed L (tried ++ [selected]) selected.groupIndex (n' + 1) := by
  have hle : i ≤ selected.groupIndex := by
    rcases hnext with ⟨hi, _⟩ | ⟨hi, _⟩ <;> omega
  refine ⟨?_, fun a ha => ?_, ?_, fun k hk hpos => ?_⟩
  · rw [List.map_append, List.pairwise_append]
    refine ⟨h.order, List.pairwise_singleton _ _, fun x hx y hy => ?_⟩
    obtain ⟨a, ha, rfl⟩ := List.mem_map.mp hx
    rw [List.mem_singleton.mp hy]
    exact (h.before a ha).trans hle
  · rcases List.mem_append.mp ha with ha | ha
    · exact (h.before a ha).trans hle
    · rw [List.mem_singleton.mp ha]
  · rw [inGroup_append, if_pos rfl, List.length_append, h.count_next hnext]
    rfl
  · rw [inGroup_append, if_neg (by omega)]
    -- A group that is passed has its selections already, or no channel.
    rcases hnext with ⟨hi, _, _⟩ | ⟨hi, _, hn, _, hbetween⟩
    · exact h.covered k (by omega) hpos
    rcases Nat.lt_or_ge i k with hki | hki
    · exact absurd (hbetween k hki hk) (by omega)
    · exact h.ne_nil hki hn.trans_lt' hpos

theorem Placed.moveOn (h : Placed L tried i (n + 1)) : Placed L tried (i + 1) 0 where
  order := h.order
  before := fun a ha => (h.before a ha).trans (Nat.le_succ i)
  count := by rw [h.inGroup_eq_nil (Nat.lt_succ_self i)]; rfl
  covered := fun k hk hpos => h.ne_nil (Nat.le_of_lt_succ hk) (fun _ => Nat.succ_pos n) hpos

theorem Placed.covered_of_noLevel (h : Placed L tried i n) (hno : NoLevel L i n) {k : Nat}
    (hpos : 0 < L k) : inGroup tried k ≠ [] := by
  rcases Nat.lt_or_ge i k with hk | hk
  · exact absurd (hno.2 k hk) (by omega)
  · exact h.ne_nil hk hno.1.trans_lt' hpos

end Positions

/-! ## Selections -/

section Select

variable {cfg : RetrySettings} {req : RetryRequest} {look : Lookup} {i : Nat}

theorem Lookup.levelsAt_eq {group : List Char} (h : req.autoGroups[i]? = some group) :
    look.levelsAt req i = look.levels req group := by
  rw [levelsAt, h]

theorem Lookup.levelsAt_eq_zero (h : req.autoGroups.length ≤ i) : look.levelsAt req i = 0 := by
  rw [levelsAt, List.getElem?_eq_none h]

/-- The channel is eligible in its group at the priority of the level; the priorities are in
descending order. -/
def Lookup.AtLevel (look : Lookup) (req : RetryRequest) (selected : Selected) (level : Nat) :
    Prop :=
  ∃ priorities p ids,
    look.routing.listSatisfiedChannelPriorities selected.group req.modelName req.filters =
      .ok priorities ∧
    priorities.Pairwise (· > ·) ∧ priorities[level]? = some p ∧
    look.routing.listSatisfiedChannelIDsAtPriority selected.group req.modelName p req.filters =
      .ok ids ∧
    selected.channel.id ∈ ids

theorem Lookup.channel_atLevel {group : List Char} {level index : Nat} {c : Channel}
    (h : look.channel req group level = some c) : look.AtLevel req ⟨c, group, index⟩ level := by
  rcases Nat.lt_or_ge level (look.levels req group) with hlt | hge
  · obtain ⟨es, priorities, p, c', he, hps, hp, hc, hmem⟩ := Lookup.channel_spec hlt
    cases hc.symm.trans h
    obtain ⟨ids, hids, hiff⟩ := Routing.listSatisfiedChannelIDsAtPriority_spec he p
    refine ⟨priorities, p, ids, hps, ?_, hp, hids, (hiff c.id).mpr hmem⟩
    cases hps.symm.trans (Routing.listSatisfiedChannelPriorities_eq he)
    exact sortPriorities_sorted _
  · rw [Lookup.channel_eq_none hge] at h
    cases h

theorem selectSatisfiedChannel_auto (hauto : req.tokenGroup = autoGroup) (p : RetryProgress) :
    (NoLevel (look.levelsAt req) (p.autoGroupIndex.getD 0) p.param.retry ∧
      ∀ selected p', selectSatisfiedChannel cfg req look p ≠ (.ok (some selected), p')) ∨
    ∃ i' level group c,
      NextLevel (look.levelsAt req) (p.autoGroupIndex.getD 0) p.param.retry i' level ∧
      req.autoGroups[i']? = some group ∧ look.channel req group level = some c ∧
      selectSatisfiedChannel cfg req look p =
        (.ok (some ⟨c, group, i'⟩), foundIn cfg req { p.param with retry := level } level i') := by
  unfold selectSatisfiedChannel
  rw [if_pos hauto]
  split
  next hnil =>
    left
    have hzero : ∀ k, look.levelsAt req k = 0 := fun k =>
      Lookup.levelsAt_eq_zero (by rw [hnil]; exact Nat.zero_le k)
    exact ⟨⟨by rw [hzero]; exact Nat.zero_le _, fun k _ => hzero k⟩, fun _ _ h => (by cases h)⟩
  next hne =>
    generalize hi : p.autoGroupIndex.getD 0 = i
    dsimp only
    cases hdrop : req.autoGroups.drop i with
    | nil =>
      left
      have hlen : req.autoGroups.length ≤ i := List.drop_eq_nil_iff.mp hdrop
      refine ⟨⟨by rw [Lookup.levelsAt_eq_zero hlen]; exact Nat.zero_le _, fun k hk =>
        Lookup.levelsAt_eq_zero (hlen.trans hk.le)⟩, fun _ _ h => ?_⟩
      cases h
    | cons group rest =>
      have hself : (if i < i then 0 else p.param.retry) = p.param.retry := if_neg (Nat.lt_irrefl i)
      have hgroup : req.autoGroups[i]? = some group := by
        rw [← Nat.add_zero i, ← List.getElem?_drop, hdrop, List.getElem?_cons_zero]
      have hrest : ∀ k, req.autoGroups[i + 1 + k]? = rest[k]? := fun k => by
        rw [Nat.add_assoc, Nat.add_comm 1 k, ← List.getElem?_drop, hdrop, List.getElem?_cons_succ]
      rcases Nat.lt_or_ge p.param.retry (look.levels req group) with hlt | hge
      · right
        obtain ⟨_, _, _, c, _, _, _, hc, _⟩ := Lookup.channel_spec hlt
        refine ⟨i, p.param.retry, group, c, .inl ⟨rfl, rfl, ?_⟩, hgroup, hc, ?_⟩
        · rw [Lookup.levelsAt_eq hgroup]
          exact hlt
        · rw [selectAutoGroup_found hself hc]
      · rw [selectAutoGroup_skip (by rw [hself]; exact hge)]
        have hhere : look.levelsAt req i ≤ p.param.retry := by
          rw [Lookup.levelsAt_eq hgroup]
          exact hge
        rcases @selectAutoGroup_next cfg req look i rest (i + 1) (Nat.lt_succ_self i)
          { p.param with retry := 0 } rfl (some (i + 1)) with
          ⟨hall, hnone⟩ | ⟨skipped, group', after, c, heq, hskip, hpos, hc, hsel⟩
        · left
          refine ⟨⟨hhere, fun k hk => ?_⟩, fun selected p' h => ?_⟩
          · obtain ⟨d, rfl⟩ := Nat.exists_eq_add_of_lt hk
            rw [Lookup.levelsAt, Nat.add_right_comm, hrest d]
            cases hd : rest[d]? with
            | none => rfl
            | some g => exact hall g (List.mem_of_getElem? hd)
          · rw [Prod.mk.injEq, hnone] at h
            cases h.1
        · right
          have hindex : req.autoGroups[i + 1 + skipped.length]? = some group' := by
            rw [hrest, heq, List.getElem?_append_right le_rfl, Nat.sub_self]
            rfl
          refine ⟨i + 1 + skipped.length, 0, group', c,
            .inr ⟨by omega, rfl, hhere, ?_, fun k hk hk' => ?_⟩, hindex, hc, by rw [hsel]⟩
          · rw [Lookup.levelsAt_eq hindex]
            exact hpos
          · obtain ⟨d, rfl⟩ := Nat.exists_eq_add_of_lt hk
            have hd : d < skipped.length := by omega
            rw [Lookup.levelsAt, Nat.add_right_comm, hrest d, heq,
              List.getElem?_append_left hd, List.getElem?_eq_getElem hd]
            exact hskip _ (List.getElem_mem hd)

/-- Where the selector stands after a selection and before the next. -/
def cursorAfter (cfg : RetrySettings) (i level : Nat) : Nat × Nat :=
  if cfg.retryTimes ≤ level then (i + 1, 0) else (i, level + 1)

/-- What a selection at a level leaves in the counter for the rest of its turn. -/
def retryAfter (cfg : RetrySettings) (level : Nat) : Nat :=
  if cfg.retryTimes ≤ level then 0 else level

/-- What a selection in a group leaves behind. -/
structure LeftAt (cfg : RetrySettings) (i level : Nat) (p : RetryProgress) : Prop where
  retry : p.param.retry = retryAfter cfg level
  increased : (p.autoGroupIndex.getD 0, p.param.increaseRetry.retry) = cursorAfter cfg i level
  reset : p.param.increaseRetry.resetNextTry = false
  index : (level : Int) < cfg.retryTimes → p.autoGroupIndex = some i

theorem LeftAt.foundIn (hcross : req.crossGroupRetry = true) (param : RetryParam)
    (hreset : param.resetNextTry = false) (level i : Nat) :
    LeftAt cfg i level (foundIn cfg req { param with retry := level } level i) := by
  unfold NewApi.foundIn
  rw [hcross, Bool.true_and]
  split
  next h =>
    have h := of_decide_eq_true h
    refine ⟨?_, ?_, rfl, fun hlt => absurd h (by omega)⟩
    · rw [retryAfter, if_pos h]
    · rw [cursorAfter, if_pos h]
      rfl
  next h =>
    have h : ¬ cfg.retryTimes ≤ level := fun hle => h (decide_eq_true hle)
    have hinc : RetryParam.increaseRetry { param with retry := level } =
        { param with retry := level + 1 } :=
      if_neg (by rw [hreset]; exact Bool.false_ne_true)
    refine ⟨?_, ?_, ?_, fun _ => rfl⟩
    · rw [retryAfter, if_neg h]
    · rw [cursorAfter, if_neg h]
      rw [hinc]
      rfl
    · rw [hinc]
      exact hreset

theorem LeftAt.remember (look : Lookup) {level : Nat} {p : RetryProgress} (h : LeftAt cfg i level p)
    (channel : Channel) :
    LeftAt cfg i level { p with param := look.rememberRetryChannel p.param channel } := by
  obtain ⟨hretry, hreset⟩ := @rememberRetryChannel_retry look p.param channel
  have hinc : ∀ q : RetryParam, q.retry = p.param.retry → q.resetNextTry = p.param.resetNextTry →
      q.increaseRetry.retry = p.param.increaseRetry.retry ∧
        q.increaseRetry.resetNextTry = p.param.increaseRetry.resetNextTry := by
    intro q hq hq'
    unfold RetryParam.increaseRetry
    rw [hq']
    split
    · exact ⟨hq, rfl⟩
    · exact ⟨congrArg (· + 1) hq, rfl⟩
  obtain ⟨hinc₁, hinc₂⟩ := hinc _ hretry hreset
  refine ⟨hretry.trans h.retry, ?_, hinc₂.trans h.reset, h.index⟩
  rw [hinc₁]
  exact h.increased

theorem cacheGetRandomSatisfiedChannel_auto (hauto : req.tokenGroup = autoGroup)
    (hcross : req.crossGroupRetry = true) (p : RetryProgress)
    (hreset : p.param.resetNextTry = false) :
    (NoLevel (look.levelsAt req) (p.autoGroupIndex.getD 0) p.param.retry ∧
      ∀ selected p', cacheGetRandomSatisfiedChannel cfg req look p ≠
        (.ok (some selected), p')) ∨
    ∃ selected level p',
      NextLevel (look.levelsAt req) (p.autoGroupIndex.getD 0) p.param.retry
        selected.groupIndex level ∧
      req.autoGroups[selected.groupIndex]? = some selected.group ∧
      look.AtLevel req selected level ∧
      cacheGetRandomSatisfiedChannel cfg req look p = (.ok (some selected), p') ∧
      LeftAt cfg selected.groupIndex level p' := by
  rcases @selectSatisfiedChannel_auto cfg req look hauto p with
    ⟨hno, hnone⟩ | ⟨i', level, group, c, hnext, hgroup, hc, hsel⟩
  · refine .inl ⟨hno, fun selected p' h => ?_⟩
    unfold cacheGetRandomSatisfiedChannel at h
    split at h
    next hq => exact hnone _ _ hq
    next hother _ =>
      cases h
      exact hother _ rfl
  · refine .inr ⟨⟨c, group, i'⟩, level, _, hnext, hgroup, Lookup.channel_atLevel hc, ?_,
      (LeftAt.foundIn hcross p.param hreset level i').remember look c⟩
    unfold cacheGetRandomSatisfiedChannel
    rw [hsel]

end Select

/-! ## Turns -/

/-- The turn reads the same tables; the number drawn may be another. -/
def Iteration.ReadsFrom (look : Lookup) (it : Iteration) : Prop :=
  it.look.routing = look.routing ∧ it.look.routes = look.routes

/-- Nothing but the attempt fails, and there is time. -/
def Iteration.Plain (it : Iteration) : Prop :=
  it.deadlinePassed = false ∧ it.setupFails = false ∧ it.prepareFails = false

theorem Iteration.ReadsFrom.levelsAt {look : Lookup} {it : Iteration} (h : it.ReadsFrom look)
    (req : RetryRequest) : it.look.levelsAt req = look.levelsAt req := by
  funext i
  unfold Lookup.levelsAt Lookup.levels
  rw [h.1]

theorem Iteration.ReadsFrom.atLevel {look : Lookup} {it : Iteration} (h : it.ReadsFrom look)
    {req : RetryRequest} {selected : Selected} {level : Nat}
    (hat : it.look.AtLevel req selected level) : look.AtLevel req selected level := by
  unfold Lookup.AtLevel at hat ⊢
  rw [← h.1]
  exact hat

namespace RelayLoop

variable {r : RelayRun} {s : RelayLoop} {it : Iteration}

def tried (s : RelayLoop) : List Selected := s.attempts.map UpstreamAttempt.selected

/-- The writer does not change what the loop goes by; without a writer it goes on. -/
theorem rotate_frame (r : RelayRun) (it : Iteration) (selected : Selected) (s : RelayLoop) :
    (s.rotate r it selected).progress = s.progress ∧
    (s.rotate r it selected).channelMeta = s.channelMeta ∧
    (s.rotate r it selected).attempts = s.attempts ∧
    (s.writer = none → s.rotate r it selected = s) := by
  unfold rotate
  cases s.writer with
  | none => exact ⟨rfl, rfl, rfl, fun _ => rfl⟩
  | some current =>
    dsimp only
    refine ⟨?_, ?_, ?_, fun h => by cases h⟩ <;> repeat' split
    all_goals rfl

/-- The channel is tried, and then the loop goes on with the counter increased or ends at its
bound; or the turn ends before. -/
theorem tryChannel_spec (r : RelayRun) (it : Iteration) (selected : Selected) (s : RelayLoop)
    (hrun : s.running = true) :
    ((s.tryChannel r it selected).running = false ∧ (s.tryChannel r it selected).tried = s.tried ∧
      (s.writer = none → it.prepareFails = true)) ∨
    ((s.tryChannel r it selected).tried = s.tried ++ [selected] ∧
      ((s.tryChannel r it selected).running = true →
        (s.tryChannel r it selected).progress =
          { s.progress with param := s.progress.param.increaseRetry } ∧
        (s.tryChannel r it selected).channelMeta = s.channelMeta ∧
        (s.writer = none → (s.tryChannel r it selected).writer = none)) ∧
      ((s.tryChannel r it selected).running = false → r.maxRetries ≤ s.progress.param.retry)) := by
  obtain ⟨hp, hm, ha, hw⟩ := rotate_frame r it selected s
  unfold tryChannel
  generalize s.rotate r it selected = s₁ at *
  split
  next hr =>
    unfold RelayLoop.attempt
    split
    next hfails => exact .inl ⟨rfl, by rw [tried, stop, ha]; rfl, fun _ => hfails⟩
    right
    dsimp only
    split
    next hmore =>
      refine ⟨?_, fun _ => ⟨by rw [hp], hm, fun h => by rw [hw h]; exact h⟩, fun h => ?_⟩
      · rw [tried, List.map_append, ha]
        rfl
      · rw [show s₁.running = false from h] at hr
        cases hr
    next hmore =>
      refine ⟨?_, fun h => (by cases h), fun _ => ?_⟩
      · rw [tried, stop, List.map_append, ha]
        rfl
      · rw [Bool.or_eq_true, not_or, decide_eq_true_eq, hp] at hmore
        omega
  next hr =>
    refine .inl ⟨by simpa using hr, by rw [tried, ha]; rfl, fun h => ?_⟩
    rw [hw h] at hr
    exact absurd hrun hr

/-- The position from which the next channel is sought. -/
def position (s : RelayLoop) : Nat × Nat :=
  if s.channelMeta then (s.progress.autoGroupIndex.getD 0, s.progress.param.retry) else (0, 0)

/-- The distributor has chosen at the first position with a channel. -/
structure FirstChoice (look : Lookup) (r : RelayRun) : Prop where
  auto : r.req.tokenGroup = autoGroup
  cross : r.req.crossGroupRetry = true
  retryTimes : 1 ≤ r.cfg.retryTimes
  next : NextLevel (look.levelsAt r.req) 0 0 r.first.groupIndex 0
  group : r.req.autoGroups[r.first.groupIndex]? = some r.first.group
  atLevel : look.AtLevel r.req r.first 0

/-- A state between two turns. -/
structure Ready (look : Lookup) (r : RelayRun) (s : RelayLoop) : Prop where
  placed : Placed (look.levelsAt r.req) s.tried s.position.1 s.position.2
  reset : s.progress.param.resetNextTry = false
  atFirst : s.channelMeta = false → LeftAt r.cfg r.first.groupIndex 0 s.progress

/-- A turn from `s` to `t` that tries a channel. -/
structure Tries (look : Lookup) (r : RelayRun) (s t : RelayLoop) (selected : Selected)
    (level : Nat) : Prop where
  next : NextLevel (look.levelsAt r.req) s.position.1 s.position.2 selected.groupIndex level
  group : r.req.autoGroups[selected.groupIndex]? = some selected.group
  atLevel : look.AtLevel r.req selected level
  tried : t.tried = s.tried ++ [selected]
  bound : (s.position.2 : Int) ≤ r.maxRetries
  goesOn : t.running = true → t.Ready look r ∧
    t.position = cursorAfter r.cfg selected.groupIndex level ∧ (s.writer = none → t.writer = none)
  stops : t.running = false → r.maxRetries ≤ retryAfter r.cfg level

variable {look : Lookup}

theorem Ready.retry_eq (h : s.Ready look r) : s.position.2 = s.progress.param.retry := by
  unfold position
  cases hm : s.channelMeta with
  | false =>
    rw [(h.atFirst hm).retry, retryAfter, ite_self]
    rfl
  | true => rfl

theorem Ready.tryChannel (h : s.Ready look r) (hrun : s.running = true)
    (hbound : (s.position.2 : Int) ≤ r.maxRetries) {selected : Selected} {level : Nat}
    {p : RetryProgress}
    (hnext : NextLevel (look.levelsAt r.req) s.position.1 s.position.2 selected.groupIndex level)
    (hgroup : r.req.autoGroups[selected.groupIndex]? = some selected.group)
    (hat : look.AtLevel r.req selected level) (hleft : LeftAt r.cfg selected.groupIndex level p)
    {t : RelayLoop}
    (ht : t = RelayLoop.tryChannel r it selected { s with progress := p, channelMeta := true }) :
    (t.running = false ∧ t.tried = s.tried ∧ (s.writer = none → it.prepareFails = true)) ∨
      Tries look r s t selected level := by
  subst ht
  rcases tryChannel_spec r it selected { s with progress := p, channelMeta := true } hrun with
    ⟨hstop, htried, hfails⟩ | ⟨htried, hgo, hstop⟩
  · exact .inl ⟨hstop, htried, hfails⟩
  refine .inr ⟨hnext, hgroup, hat, htried, hbound, fun hr => ?_, fun hr => ?_⟩
  · obtain ⟨hp, hm, hw⟩ := hgo hr
    have hposition : position (RelayLoop.tryChannel r it selected
        { s with progress := p, channelMeta := true }) =
        cursorAfter r.cfg selected.groupIndex level := by
      rw [position, hm, if_pos rfl, hp]
      exact hleft.increased
    refine ⟨⟨?_, ?_, fun hfalse => ?_⟩, hposition, hw⟩
    · rw [hposition, htried, cursorAfter]
      have hplaced := h.placed.append hnext
      split
      · exact hplaced.moveOn
      · exact hplaced
    · rw [hp]
      exact hleft.reset
    · cases hm.symm.trans hfalse
  · rw [← hleft.retry]
    exact hstop hr

theorem Ready.step (hf : FirstChoice look r) (h : s.Ready look r) (hrun : s.running = true)
    (hreads : it.ReadsFrom look) :
    ((s.step r it).running = false ∧ (s.step r it).tried = s.tried ∧
      (s.writer = none → it.Plain → r.maxRetries < s.position.2 ∨
        s.channelMeta = true ∧ NoLevel (look.levelsAt r.req) s.position.1 s.position.2)) ∨
    ∃ selected level, Tries look r s (s.step r it) selected level := by
  rw [step_eq_tryChannel hrun]
  split
  next hmax =>
    refine .inl ⟨rfl, rfl, fun _ _ => .inl ?_⟩
    rw [h.retry_eq]
    exact hmax
  next hmax =>
    have hbound : (s.position.2 : Int) ≤ r.maxRetries := by
      rw [h.retry_eq]
      omega
    split
    next htime =>
      refine .inl ⟨rfl, rfl, fun _ hplain => ?_⟩
      rw [outOfTime, hplain.1, Bool.and_false] at htime
      cases htime
    next htime =>
      have hfails : it.prepareFails = true → ¬ it.Plain := fun hp hplain => by
        cases hplain.2.2.symm.trans hp
      unfold getChannel
      cases hm : s.channelMeta with
      | false =>
        have hposition : s.position = (0, 0) := by
          rw [position, hm]
          rfl
        rcases h.tryChannel hrun hbound (by rw [hposition]; exact hf.next) hf.group hf.atLevel
          (h.atFirst hm) rfl with ⟨hstop, htried, hw⟩ | htries
        · exact .inl ⟨hstop, htried, fun hnone hplain => absurd hplain (hfails (hw hnone))⟩
        · exact .inr ⟨r.first, 0, htries⟩
      | true =>
        have hposition : s.position =
            (s.progress.autoGroupIndex.getD 0, s.progress.param.retry) := by
          rw [position, hm]
          rfl
        rcases @cacheGetRandomSatisfiedChannel_auto r.cfg r.req it.look hf.auto hf.cross s.progress
          h.reset with ⟨hno, hnone⟩ | ⟨selected, level, p', hnext, hgroup, hat, hsel, hleft⟩
        · rw [hreads.levelsAt] at hno
          rw [Bool.not_true, if_neg Bool.false_ne_true]
          split
          next hcache =>
            split at hcache
            next hq => exact absurd hq (hnone _ _)
            next =>
            cases hcache
            refine .inl ⟨rfl, rfl, fun _ _ => .inr ⟨rfl, ?_⟩⟩
            rw [hposition]
            exact hno
          next hcache =>
            split at hcache
            next hq => exact absurd hq (hnone _ _)
            next => cases hcache
        · rw [hreads.levelsAt] at hnext
          rw [Bool.not_true, if_neg Bool.false_ne_true, hsel]
          cases hsetup : it.setupFails with
          | true =>
            refine .inl ⟨rfl, rfl, fun _ hplain => ?_⟩
            cases hplain.2.1.symm.trans hsetup
          | false =>
            rcases h.tryChannel hrun hbound (by rw [hposition]; exact hnext) hgroup
              (hreads.atLevel hat) hleft rfl with ⟨hstop, htried, hw⟩ | htries
            · exact .inl ⟨hstop, htried, fun hnone hplain => absurd hplain (hfails (hw hnone))⟩
            · exact .inr ⟨selected, level, htries⟩

end RelayLoop

/-! ## Order -/

/-- The attempts go through the groups in order, and through the priorities of each group from
the highest down without a gap. -/
structure FailoverInOrder (look : Lookup) (req : RetryRequest) (tried : List Selected) : Prop where
  group : ∀ a ∈ tried, req.autoGroups[a.groupIndex]? = some a.group
  order : (tried.map Selected.groupIndex).Pairwise (· ≤ ·)
  level : ∀ g j a, (inGroup tried g)[j]? = some a → look.AtLevel req a j

section Runs

variable {look : Lookup} {r : RelayRun} {s t : RelayLoop} {selected : Selected} {level : Nat}

theorem FailoverInOrder.tries (h : FailoverInOrder look r.req s.tried) (hready : s.Ready look r)
    (ht : RelayLoop.Tries look r s t selected level) : FailoverInOrder look r.req t.tried := by
  rw [ht.tried]
  refine ⟨fun a ha => ?_, (hready.placed.append ht.next).order, fun g j a ha => ?_⟩
  · rcases List.mem_append.mp ha with ha | ha
    · exact h.group a ha
    · rw [List.mem_singleton.mp ha]
      exact ht.group
  · rw [inGroup_append] at ha
    split at ha
    next hg =>
      have hcount := hready.placed.count_next ht.next
      rw [hg] at hcount
      -- The new one stands at the end of its group.
      rcases Nat.lt_trichotomy j level with hlt | rfl | hgt
      · rw [List.getElem?_append_left (by omega)] at ha
        exact h.level g j a ha
      · rw [List.getElem?_append_right (by omega), hcount, Nat.sub_self] at ha
        cases ha
        exact ht.atLevel
      · rw [List.getElem?_eq_none (by rw [List.length_append, List.length_singleton]; omega)] at ha
        cases ha
    next => exact h.level g j a ha

variable {it : Iteration} (hf : RelayLoop.FirstChoice look r)

include hf in
theorem failover_order_step (hreads : it.ReadsFrom look)
    (h : FailoverInOrder look r.req s.tried ∧ (s.running = true → s.Ready look r)) :
    FailoverInOrder look r.req (s.step r it).tried ∧
      ((s.step r it).running = true → (s.step r it).Ready look r) := by
  obtain ⟨horder, hready⟩ := h
  cases hrun : s.running with
  | false =>
    rw [RelayLoop.step_of_stopped hrun]
    exact ⟨horder, hready⟩
  | true =>
    rcases (hready hrun).step hf hrun hreads with ⟨hstop, htried, _⟩ | ⟨selected, level, ht⟩
    · refine ⟨by rwa [htried], fun h => ?_⟩
      cases hstop.symm.trans h
    · exact ⟨horder.tries (hready hrun) ht, fun h => (ht.goesOn h).1⟩

/-! ## Coverage -/

/-- Every group with a channel had an attempt. -/
def EveryGroupTried (L : Nat → Nat) (tried : List Selected) : Prop :=
  ∀ k, 0 < L k → inGroup tried k ≠ []

/-- The bound of the loop does not come before the end of a group, or there is nothing after
that group. -/
def LeavesEveryGroup (cfg : RetrySettings) (L : Nat → Nat) : Prop :=
  cfg.retryTimes < maxAdaptiveChannelAttempts ∨
    ∀ i j, i < j → maxAdaptiveChannelAttempts ≤ L i → L j = 0

theorem EveryGroupTried.append {L : Nat → Nat} {tried : List Selected} (h : EveryGroupTried L tried)
    (selected : Selected) : EveryGroupTried L (tried ++ [selected]) := by
  intro k hpos
  rw [inGroup_append]
  split
  · exact List.append_ne_nil_of_right_ne_nil _ (List.cons_ne_nil _ _)
  · exact h k hpos

/-- A group that reaches the bound of the loop is the last one with a channel. -/
theorem RelayLoop.Tries.covered (hready : s.Ready look r)
    (hleaves : LeavesEveryGroup r.cfg (look.levelsAt r.req))
    (htimes : (maxAdaptiveChannelAttempts : Int) ≤ r.cfg.retryTimes)
    (ht : RelayLoop.Tries look r s t selected level)
    (hlevel : maxAdaptiveChannelAttempts ≤ level + 1) :
    EveryGroupTried (look.levelsAt r.req) t.tried := by
  intro k hpos
  have hplaced := hready.placed.append ht.next
  rw [ht.tried]
  rcases Nat.lt_or_ge selected.groupIndex k with hk | hk
  · rcases hleaves with hlt | hlast
    · omega
    · have hlt := ht.next.lt
      rw [hlast _ k hk (by omega)] at hpos
      cases hpos
  · exact hplaced.ne_nil hk (fun _ => Nat.succ_pos level) hpos

theorem RelayLoop.Tries.below_bound (ht : RelayLoop.Tries look r s t selected level)
    (hpos : 1 ≤ r.maxRetries)
    (hlevel : (level : Int) < r.cfg.retryTimes → (level : Int) + 1 ≤ r.maxRetries) :
    t.running = true ∧ (t.position.2 : Int) ≤ r.maxRetries := by
  have hgoes : t.running = true := by
    cases hr : t.running with
    | true => rfl
    | false =>
      have hstops := ht.stops hr
      unfold retryAfter at hstops
      split at hstops <;> omega
  refine ⟨hgoes, ?_⟩
  rw [(ht.goesOn hgoes).2.1]
  unfold cursorAfter
  split <;> dsimp only <;> omega

/-- The loop goes on below its bound, or everything is covered. -/
structure Covering (look : Lookup) (r : RelayRun) (s : RelayLoop) : Prop where
  ready : s.running = true → s.Ready look r ∧ s.writer = none
  covered : EveryGroupTried (look.levelsAt r.req) s.tried ∨
    s.running = true ∧ (s.position.2 : Int) ≤ r.maxRetries

include hf in
theorem Covering.step (hmax : r.maxRetries = min r.cfg.retryTimes (maxAdaptiveChannelAttempts - 1))
    (hleaves : LeavesEveryGroup r.cfg (look.levelsAt r.req)) (hit : it.ReadsFrom look ∧ it.Plain)
    (h : Covering look r s) : Covering look r (s.step r it) := by
  cases hrun : s.running with
  | false => rwa [RelayLoop.step_of_stopped hrun]
  | true =>
    obtain ⟨hready, hwriter⟩ := h.ready hrun
    rcases hready.step hf hrun hit.1 with ⟨hstop, htried, hwhy⟩ | ⟨selected, level, ht⟩
    · refine ⟨fun hr => absurd hstop (by simp [hr]), .inl ?_⟩
      rw [htried]
      rcases h.covered with hcovered | ⟨_, hbound⟩
      · exact hcovered
      rcases hwhy hwriter hit.2 with hlt | ⟨_, hno⟩
      · omega
      · exact fun k hpos => hready.placed.covered_of_noLevel hno hpos
    · refine ⟨fun hr => (ht.goesOn hr).imp_right fun hgoes => hgoes.2 hwriter, ?_⟩
      rcases h.covered with hcovered | _
      · left
        rw [ht.tried]
        exact hcovered.append selected
      have htimes := hf.retryTimes
      rcases Int.lt_or_le r.cfg.retryTimes maxAdaptiveChannelAttempts with hfew | hmany
      · -- The bound of the loop is that of the group.
        exact .inr (ht.below_bound (by omega) fun _ => by omega)
      rcases Nat.lt_or_ge (level + 1) maxAdaptiveChannelAttempts with hlow | hhigh
      · exact .inr (ht.below_bound (by omega) fun _ => by omega)
      · exact .inl (ht.covered hready hleaves hmany hhigh)

/-! ## A group that is not left -/

/-- The loop has not gone past group `i`, and the turns so far are few. -/
structure HeldAt (look : Lookup) (r : RelayRun) (i : Nat) (s : RelayLoop) : Prop where
  before : ∀ a ∈ s.tried, a.groupIndex ≤ i
  ready : s.running = true → s.Ready look r
  position : s.running = true → s.position.1 ≤ i ∧ s.position.2 ≤ maxAdaptiveChannelAttempts ∧
    s.tried.length ≤ s.position.1 * (maxAdaptiveChannelAttempts + 1) + s.position.2

include hf in
theorem HeldAt.step (hmax : r.maxRetries = maxAdaptiveChannelAttempts - 1)
    (htimes : (maxAdaptiveChannelAttempts : Int) ≤ r.cfg.retryTimes) {i : Nat}
    (hi : maxAdaptiveChannelAttempts ≤ look.levelsAt r.req i) (hreads : it.ReadsFrom look)
    (h : HeldAt look r i s) : HeldAt look r i (s.step r it) := by
  have hfive : maxAdaptiveChannelAttempts = 5 := rfl
  cases hrun : s.running with
  | false => rwa [RelayLoop.step_of_stopped hrun]
  | true =>
    have hready := h.ready hrun
    obtain ⟨hle, _, hlength⟩ := h.position hrun
    rcases hready.step hf hrun hreads with ⟨hstop, htried, _⟩ | ⟨selected, level, ht⟩
    · refine ⟨by rw [htried]; exact h.before, fun hr => ?_, fun hr => ?_⟩ <;> rw [hstop] at hr
      · cases hr
      · cases hr
    have hbound := ht.bound
    -- The next position is in this group or before: the group has a channel at every level
    -- that the bound of the loop allows.
    have hnext : selected.groupIndex ≤ i ∧ level < maxAdaptiveChannelAttempts ∧
        s.position.1 * (maxAdaptiveChannelAttempts + 1) + s.position.2 ≤
          selected.groupIndex * (maxAdaptiveChannelAttempts + 1) + level := by
      rcases ht.next with ⟨hsame, hlevel, _⟩ | ⟨hlt, hlevel, hover, _, hbetween⟩
      · rw [hsame, hlevel]
        exact ⟨hle, by omega, le_rfl⟩
      refine ⟨?_, by omega, ?_⟩
      · rcases Nat.lt_or_ge i selected.groupIndex with hpast | hin
        · rcases Nat.lt_or_ge s.position.1 i with hbefore | hat
          · have := hbetween i hbefore hpast
            omega
          · have : s.position.1 = i := by omega
            rw [this] at hover
            omega
        · exact hin
      · rw [hfive]
        omega
    have hcursor : cursorAfter r.cfg selected.groupIndex level =
        (selected.groupIndex, level + 1) := by
      rw [cursorAfter, if_neg (by omega)]
    refine ⟨fun a ha => ?_, fun hr => (ht.goesOn hr).1, fun hr => ?_⟩
    · rw [ht.tried] at ha
      rcases List.mem_append.mp ha with ha | ha
      · exact h.before a ha
      · rw [List.mem_singleton.mp ha]
        exact hnext.1
    · rw [(ht.goesOn hr).2.1, hcursor, ht.tried, List.length_append, List.length_singleton]
      dsimp only
      exact ⟨hnext.1, by omega, by omega⟩

theorem run_of_stopped (h : s.running = false) (its : List Iteration) :
    run (RelayLoop.step r) s its = s := by
  induction its with
  | nil => rfl
  | cons it its ih => rw [run_cons, RelayLoop.step_of_stopped h, ih]

include hf in
theorem tried_length_of_running {its : List Iteration} (hits : ∀ it ∈ its, it.ReadsFrom look)
    (hready : s.running = true → s.Ready look r)
    (hrun : (run (RelayLoop.step r) s its).running = true) :
    (run (RelayLoop.step r) s its).tried.length = s.tried.length + its.length := by
  induction its generalizing s with
  | nil => rfl
  | cons it its ih =>
    have hrest := fun x hx => hits x (List.mem_cons_of_mem it hx)
    cases hs : s.running with
    | false =>
      rw [run_of_stopped hs, hs] at hrun
      cases hrun
    | true =>
      rcases (hready hs).step hf hs (hits it List.mem_cons_self) with
        ⟨hstop, _, _⟩ | ⟨selected, level, ht⟩
      · rw [run_cons, run_of_stopped hstop, hstop] at hrun
        cases hrun
      rw [run_cons] at hrun ⊢
      rw [ih hrest (fun hr => (ht.goesOn hr).1) hrun, ht.tried, List.length_append,
        List.length_singleton, List.length_cons]
      omega

end Runs

/-! ## The request -/

section Request

variable {cfg : RetrySettings} {req : RetryRequest} {look : Lookup} {first : Selected}
  {index : Option Nat}

/-- The loop of `relayDirect` after some turns. -/
def relayRun (cfg : RetrySettings) (req : RetryRequest) (look : Lookup) (first : Selected)
    (index writer : Option Nat) (maxAttempts : Int) (its : List Iteration) : RelayLoop :=
  let (r, s) := relayDirect cfg req look first index writer maxAttempts
  run (RelayLoop.step r) s its

theorem relayRun_auto (hauto : req.tokenGroup = autoGroup) (index writer : Option Nat)
    (maxAttempts : Int) :
    ∃ r : RelayRun, r.cfg = cfg ∧ r.req = req ∧ r.first = first ∧
      (writer = none → r.maxRetries = min cfg.retryTimes (maxAdaptiveChannelAttempts - 1)) ∧
      ∀ its, relayRun cfg req look first index writer maxAttempts its =
        run (RelayLoop.step r) (.start ⟨.start, index⟩ writer) its := by
  have hbound : (if (decide (req.tokenGroup = autoGroup) || cfg.orchestrationEnabled) = true then
      adaptiveRetryTimes cfg req look first.channel.getPriority .start
      else (cfg.retryTimes, RetryParam.start)) =
      (min cfg.retryTimes (maxAdaptiveChannelAttempts - 1), .start) := by
    rw [decide_eq_true hauto, Bool.true_or, if_pos rfl, adaptiveRetryTimes, if_pos hauto]
  refine ⟨(relayDirect cfg req look first index writer maxAttempts).1, rfl, rfl, rfl, ?_,
    fun its => ?_⟩
  · rintro rfl
    unfold relayDirect
    rw [hbound]
  · unfold relayRun relayDirect
    rw [hbound]

theorem ready_start {r : RelayRun} (htimes : 1 ≤ r.cfg.retryTimes)
    (hindex : index = some r.first.groupIndex) (writer : Option Nat) :
    RelayLoop.Ready look r (.start ⟨.start, index⟩ writer) := by
  refine ⟨Placed.nil, rfl, fun _ => ⟨?_, ?_, rfl, fun _ => hindex⟩⟩
  · rw [retryAfter, ite_self]
    rfl
  · rw [cursorAfter, if_neg (by omega)]
    exact congrArg (fun i : Option Nat => (i.getD 0, 1)) hindex

section First

variable (hauto : req.tokenGroup = autoGroup) (hcross : req.crossGroupRetry = true)
  (htimes : 1 ≤ cfg.retryTimes)
  (hfirst : selectChannelForRequest cfg req look = some (first, index))

include hauto hcross htimes hfirst

theorem selectChannelForRequest_auto {r : RelayRun}
    (hcfg : r.cfg = cfg) (hreq : r.req = req) (hr : r.first = first) :
    RelayLoop.FirstChoice look r ∧
      ∀ writer, RelayLoop.Ready look r (.start ⟨.start, index⟩ writer) := by
  subst hcfg hreq hr
  unfold selectChannelForRequest at hfirst
  rcases @cacheGetRandomSatisfiedChannel_auto r.cfg r.req look hauto hcross ⟨.start, none⟩ rfl with
    ⟨_, hnone⟩ | ⟨selected, level, p', hnext, hgroup, hat, hsel, hleft⟩
  · split at hfirst
    next hq => exact absurd hq (hnone _ _)
    next => cases hfirst
  rw [hsel] at hfirst
  dsimp only at hfirst
  split at hfirst
  next =>
    obtain ⟨hs, hi⟩ := Prod.mk.inj (Option.some.inj hfirst)
    have hlevel : level = 0 := by
      rcases hnext with ⟨_, hlevel, _⟩ | ⟨_, hlevel, _⟩ <;> exact hlevel
    subst hlevel
    rw [hs] at hnext hgroup hat hleft
    refine ⟨⟨hauto, hcross, htimes, hnext, hgroup, hat⟩, ready_start htimes ?_⟩
    rw [← hi]
    exact hleft.index (by omega)
  next => cases hfirst

theorem failover_in_order (writer : Option Nat) (maxAttempts : Int) {its : List Iteration}
    (hits : ∀ it ∈ its, it.ReadsFrom look) :
    FailoverInOrder look req
      (relayRun cfg req look first index writer maxAttempts its).tried := by
  obtain ⟨r, rfl, rfl, rfl, _, hrun⟩ :=
    @relayRun_auto cfg req look first hauto index writer maxAttempts
  obtain ⟨hf, hready⟩ := selectChannelForRequest_auto hauto hcross htimes hfirst rfl rfl rfl
  rw [hrun]
  have hstart : FailoverInOrder look r.req
      (RelayLoop.start ⟨.start, index⟩ writer).tried :=
    ⟨fun a ha => (by cases ha), List.Pairwise.nil, fun g j a ha => (by cases ha)⟩
  exact (run_invariant (C := fun _ (it : Iteration) => it.ReadsFrom look)
    (I := fun s : RelayLoop =>
      FailoverInOrder look r.req s.tried ∧ (s.running = true → s.Ready look r))
    (fun s it h hreads => failover_order_step hf hreads h)
    ⟨hstart, fun _ => hready writer⟩
    (along_of_mem (fun it hit _ => hits it hit) _)).1

/-- After a group that is cut off by the bound of the loop, a run ends without the later ones. -/
theorem exists_not_covered (hcuts : ¬ LeavesEveryGroup cfg (look.levelsAt req)) :
    ∃ its, (∀ it ∈ its, it.ReadsFrom look ∧ it.Plain) ∧
      (relayRun cfg req look first index none 0 its).running = false ∧
      ¬ EveryGroupTried (look.levelsAt req)
        (relayRun cfg req look first index none 0 its).tried := by
  obtain ⟨r, rfl, rfl, rfl, hmax, hrun⟩ := @relayRun_auto cfg req look first hauto index none 0
  obtain ⟨hf, hready⟩ := selectChannelForRequest_auto hauto hcross htimes hfirst rfl rfl rfl
  have hfive : maxAdaptiveChannelAttempts = 5 := rfl
  obtain ⟨hmany, hlast⟩ := not_or.mp hcuts
  push Not at hlast
  obtain ⟨i, j, hij, hi, hj⟩ := hlast
  -- So many turns that the loop has stopped.
  let its := List.replicate ((i + 1) * (maxAdaptiveChannelAttempts + 1)) (failedTurn look)
  have hits : ∀ it ∈ its, it.ReadsFrom look ∧ it.Plain := fun it hit => by
    rw [List.eq_of_mem_replicate hit]
    exact ⟨⟨rfl, rfl⟩, rfl, rfl, rfl⟩
  have hheld : HeldAt look r i (run (RelayLoop.step r) (.start ⟨.start, index⟩ none) its) :=
    run_invariant (C := fun _ (it : Iteration) => it.ReadsFrom look)
      (fun s it h hreads => h.step hf (by rw [hmax rfl]; omega) (by omega) hi hreads)
      ⟨fun a ha => (by cases ha), fun _ => hready none,
        fun _ => ⟨Nat.zero_le i, Nat.zero_le _, Nat.zero_le _⟩⟩
      (along_of_mem (fun it hit _ => (hits it hit).1) _)
  have hstopped : (relayRun r.cfg r.req look r.first index none 0 its).running = false := by
    rw [hrun]
    cases hr : (run (RelayLoop.step r) (.start ⟨.start, index⟩ none) its).running with
    | false => rfl
    | true =>
      have hlength := tried_length_of_running hf (fun it hit => (hits it hit).1)
        (fun _ => hready none) hr
      obtain ⟨hle, hlevel, hfew⟩ := hheld.position hr
      rw [hlength, List.length_replicate, hfive] at hfew
      omega
  refine ⟨its, hits, hstopped, fun hcovered => hcovered j (Nat.pos_of_ne_zero hj) ?_⟩
  rw [hrun]
  refine List.eq_nil_iff_forall_not_mem.mpr fun a ha => ?_
  obtain ⟨hmem, hgroup⟩ := mem_inGroup.mp ha
  have := hheld.before a hmem
  omega

theorem covered_of_leaves (hleaves : LeavesEveryGroup cfg (look.levelsAt req))
    (maxAttempts : Int) {its : List Iteration} (hits : ∀ it ∈ its, it.ReadsFrom look ∧ it.Plain) :
    (relayRun cfg req look first index none maxAttempts its).running = false →
      EveryGroupTried (look.levelsAt req)
        (relayRun cfg req look first index none maxAttempts its).tried := by
  obtain ⟨r, rfl, rfl, rfl, hmax, hrun⟩ :=
    @relayRun_auto cfg req look first hauto index none maxAttempts
  obtain ⟨hf, hready⟩ := selectChannelForRequest_auto hauto hcross htimes hfirst rfl rfl rfl
  have hfive : maxAdaptiveChannelAttempts = 5 := rfl
  rw [hrun]
  have hcovering : Covering look r
      (run (RelayLoop.step r) (.start ⟨.start, index⟩ none) its) :=
    run_invariant (C := fun _ (it : Iteration) => it.ReadsFrom look ∧ it.Plain)
      (fun s it h hit => h.step hf (hmax rfl) hleaves hit)
      ⟨fun _ => ⟨hready none, rfl⟩, .inr ⟨rfl, by
        rw [hmax rfl]
        change (0 : Int) ≤ _
        omega⟩⟩
      (along_of_mem (fun it hit _ => hits it hit) _)
  intro hstopped
  rcases hcovering.covered with hcovered | ⟨hr, _⟩
  · exact hcovered
  · cases hstopped.symm.trans hr

end First

/-- A request of the group `auto` with cross-group retry goes through its groups and their
priorities in order, whatever fails. If only the attempts fail and there is no recovery writer,
then every group with a channel is tried before the loop ends if and only if the bound of the
loop does not cut off a group. -/
theorem auto_failover_covers_iff (hauto : req.tokenGroup = autoGroup)
    (hcross : req.crossGroupRetry = true) (htimes : 1 ≤ cfg.retryTimes)
    (hfirst : selectChannelForRequest cfg req look = some (first, index)) :
    (∀ writer maxAttempts its, (∀ it ∈ its, it.ReadsFrom look) →
      FailoverInOrder look req
        (relayRun cfg req look first index writer maxAttempts its).tried) ∧
    ((∀ maxAttempts its, (∀ it ∈ its, it.ReadsFrom look ∧ it.Plain) →
      (relayRun cfg req look first index none maxAttempts its).running = false →
      EveryGroupTried (look.levelsAt req)
        (relayRun cfg req look first index none maxAttempts its).tried) ↔
      LeavesEveryGroup cfg (look.levelsAt req)) := by
  refine ⟨fun writer maxAttempts its hits =>
    failover_in_order hauto hcross htimes hfirst writer maxAttempts hits, fun hall => ?_,
    fun hleaves maxAttempts its hits =>
      covered_of_leaves hauto hcross htimes hfirst hleaves maxAttempts hits⟩
  by_contra hcuts
  obtain ⟨its, hits, hstopped, hnot⟩ := exists_not_covered hauto hcross htimes hfirst hcuts
  exact hnot (hall 0 its hits hstopped)

end Request

/-! ## Five priorities -/

/-- A group with five priorities and a group after it. -/
def fivePriorities : Lookup :=
  databaseLookup ⟨((List.range 5).map fun k =>
    { plainChannel (k + 1) "a" "gpt-5" with priority := some (-(k : Int)) }) ++
      [plainChannel 6 "b" "gpt-5"], by decide⟩ .empty 0

def firstOfFive : Selected :=
  ⟨{ plainChannel 1 "a" "gpt-5" with priority := some 0 }, "a".toList, 0⟩

theorem fivePriorities_covered :
    EveryGroupTried (fivePriorities.levelsAt (autoRequest ["a", "b"] true))
      (relayRun ⟨2, false⟩ (autoRequest ["a", "b"] true) fivePriorities firstOfFive (some 0) none 0
        (List.replicate 6 (failedTurn fivePriorities))).tried := by
  refine ((auto_failover_covers_iff rfl rfl (by decide) (by decide)).2.mpr (.inl (by decide)) 0
    (List.replicate 6 (failedTurn fivePriorities)) (fun it hit => ?_) (by decide))
  rw [List.eq_of_mem_replicate hit]
  exact ⟨⟨rfl, rfl⟩, rfl, rfl, rfl⟩

/-- With five retries the second group is not tried. -/
theorem group_after_five_not_tried :
    selectChannelForRequest ⟨5, false⟩ (autoRequest ["a", "b"] true) fivePriorities =
      some (firstOfFive, some 0) ∧
    fivePriorities.levelsAt (autoRequest ["a", "b"] true) 1 = 1 ∧
    (relayRun ⟨5, false⟩ (autoRequest ["a", "b"] true) fivePriorities firstOfFive (some 0) none 0
      (List.replicate 6 (failedTurn fivePriorities))).running = false ∧
    ((relayRun ⟨5, false⟩ (autoRequest ["a", "b"] true) fivePriorities firstOfFive (some 0) none 0
      (List.replicate 6 (failedTurn fivePriorities))).tried.map fun a => a.channel.id) =
      [1, 2, 3, 4, 5] := by
  refine ⟨?_, ?_, ?_, ?_⟩ <;> decide

end NewApi
