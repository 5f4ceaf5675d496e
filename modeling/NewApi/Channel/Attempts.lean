import NewApi.Channel.Retry
import NewApi.Lib.Runs

/-!
# The attempts of a recovered stream

A stream that can be recovered numbers its attempts by the retry counter. The counter counts the
turns of the loop unless the selector resets it, when it moves on to the next group. So the
numbers are right as long as no selection moves on (`StaysInGroup`). When one does, the attempt
after it has the number of the first, or the writer refuses to go back and the request ends.
-/

namespace NewApi

open Runs

/-! ## Selections -/

namespace Lookup

variable {look : Lookup} {req : RetryRequest} {group : List Char}

/-- How many priorities the group has for the request. -/
def levels (look : Lookup) (req : RetryRequest) (group : List Char) : Nat :=
  match look.routing.listSatisfiedChannelPriorities group req.modelName req.filters with
  | .ok priorities => priorities.length
  | .error _ => 0

theorem channel_spec {level : Nat} (h : level < look.levels req group) :
    ∃ es priorities p c, look.routing.eligible group req.modelName req.filters = .ok es ∧
      look.routing.listSatisfiedChannelPriorities group req.modelName req.filters = .ok priorities ∧
      priorities[level]? = some p ∧ look.channel req group level = some c ∧ (c.id, p) ∈ es := by
  unfold levels at h
  cases he : look.routing.eligible group req.modelName req.filters with
  | error e =>
    rw [(Routing.eligible_error he).1] at h
    cases h
  | ok es =>
    have hps := Routing.listSatisfiedChannelPriorities_eq he
    rw [hps] at h
    have hget := List.getElem?_eq_getElem h
    generalize hp : (sortPriorities (es.map Prod.snd))[level] = p at hget
    have hmem : p ∈ es.map Prod.snd := by
      rw [← mem_sortPriorities, ← hp]
      exact List.getElem_mem h
    rcases Routing.getRandomSatisfiedChannelAtPriority_spec he p look.random with
      ⟨hno, _⟩ | ⟨c, hc, hdraw⟩
    · obtain ⟨e, he', hep⟩ := List.mem_map.mp hmem
      exact absurd hep (hno e he')
    refine ⟨es, _, p, c, rfl, hps, hget, ?_, hc⟩
    have : look.routing.getRandomSatisfiedChannel group req.modelName level req.filters
        look.random = .ok (some c) := by
      rw [Routing.getRandomSatisfiedChannel_eq hps, hget]
      exact hdraw
    rw [channel, this]

theorem channel_eq_none {level : Nat} (h : look.levels req group ≤ level) :
    look.channel req group level = none := by
  unfold levels at h
  unfold channel
  cases hps : look.routing.listSatisfiedChannelPriorities group req.modelName req.filters with
  | error e => rw [Routing.getRandomSatisfiedChannel, hps]; rfl
  | ok priorities =>
    rw [hps] at h
    rw [Routing.getRandomSatisfiedChannel_eq hps, List.getElem?_eq_none h]
    rfl

end Lookup

section Select

variable {cfg : RetrySettings} {req : RetryRequest} {look : Lookup} {p : RetryProgress}

/-- How the loop over the groups goes on: it passes a group that has no channel at the level. -/
theorem selectAutoGroup_skip {start i : Nat} {group : List Char} {rest : List (List Char)}
    (h : look.levels req group ≤ if start < i then 0 else p.param.retry) :
    selectAutoGroup cfg req look start i (group :: rest) p =
      selectAutoGroup cfg req look start (i + 1) rest
        ⟨{ p.param with retry := 0 }, some (i + 1)⟩ := by
  rw [selectAutoGroup]
  rw [Lookup.channel_eq_none h]

/-- The progress after a channel was found in a group. -/
def foundIn (cfg : RetrySettings) (req : RetryRequest) (param : RetryParam) (level i : Nat) :
    RetryProgress :=
  if req.crossGroupRetry && decide (cfg.retryTimes ≤ level) then
    ⟨{ param with retry := 0, resetNextTry := true }, some (i + 1)⟩
  else ⟨param, some i⟩

theorem selectAutoGroup_found {start i level : Nat} {group : List Char} {rest : List (List Char)}
    (hlevel : (if start < i then 0 else p.param.retry) = level) {c : Channel}
    (hc : look.channel req group level = some c) :
    selectAutoGroup cfg req look start i (group :: rest) p =
      (some ⟨c, group, i⟩, foundIn cfg req p.param level i) := by
  rw [selectAutoGroup]
  rw [hlevel, hc, foundIn]
  dsimp only
  split <;> rfl

/-- After the first group the selection takes the highest priority of the next group that has
a channel. -/
theorem selectAutoGroup_next {start : Nat} {groups : List (List Char)} {i : Nat}
    (hi : start < i) (param : RetryParam) (hretry : param.retry = 0) (index : Option Nat) :
    ((∀ g ∈ groups, look.levels req g = 0) ∧
      (selectAutoGroup cfg req look start i groups ⟨param, index⟩).1 = none) ∨
    ∃ skipped group rest c, groups = skipped ++ group :: rest ∧
      (∀ g ∈ skipped, look.levels req g = 0) ∧ 0 < look.levels req group ∧
      look.channel req group 0 = some c ∧
      selectAutoGroup cfg req look start i groups ⟨param, index⟩ =
        (some ⟨c, group, i + skipped.length⟩, foundIn cfg req param 0 (i + skipped.length)) := by
  induction groups generalizing i index with
  | nil => exact .inl ⟨fun g hg => (by cases hg), rfl⟩
  | cons g groups ih =>
    rcases Nat.eq_zero_or_pos (look.levels req g) with hzero | hpos
    · have hself : ({ param with retry := 0 } : RetryParam) = param := by rw [← hretry]
      rw [selectAutoGroup_skip (by rw [hzero]; exact Nat.zero_le _), hself]
      rcases ih (Nat.lt_succ_of_lt hi) (some (i + 1)) with
        ⟨hall, hnone⟩ | ⟨skipped, group, rest, c, heq, hskip, hpos, hc, hsel⟩
      · left
        refine ⟨fun g' hg' => ?_, hnone⟩
        rcases List.mem_cons.mp hg' with rfl | hg'
        · exact hzero
        · exact hall g' hg'
      · refine .inr ⟨g :: skipped, group, rest, c, by rw [heq]; rfl, fun g' hg' => ?_, hpos, hc, ?_⟩
        · rcases List.mem_cons.mp hg' with rfl | hg'
          · exact hzero
          · exact hskip g' hg'
        · rw [hsel, List.length_cons,
            show i + 1 + skipped.length = i + (skipped.length + 1) by omega]
    · obtain ⟨_, _, _, c, _, _, _, hc, _⟩ := Lookup.channel_spec hpos
      refine .inr ⟨[], g, groups, c, rfl, fun g' hg' => (by cases hg'), hpos, hc, ?_⟩
      exact selectAutoGroup_found (if_pos hi) hc

/-- The selection is not left with another counter than it began with. -/
def StaysAt (cfg : RetrySettings) (req : RetryRequest) (look : Lookup) (p : RetryProgress) : Prop :=
  req.tokenGroup = autoGroup → ∀ group rest,
    req.autoGroups.drop (p.autoGroupIndex.getD 0) = group :: rest →
    if p.param.retry < look.levels req group then
      req.crossGroupRetry = true → (p.param.retry : Int) < cfg.retryTimes
    else ∀ g ∈ rest, look.levels req g = 0

theorem StaysAt.of_one_group (hlength : req.autoGroups.length ≤ 1)
    (hcross : req.crossGroupRetry = false) : StaysAt cfg req look p := by
  intro _ group rest hdrop
  have hrest : rest = [] := by
    have hlen := congrArg List.length hdrop
    rw [List.length_drop, List.length_cons] at hlen
    exact List.eq_nil_of_length_eq_zero (by omega)
  split
  · rw [hcross]
    exact fun h => (by cases h)
  · rw [hrest]
    exact fun g hg => (by cases hg)

theorem selectSatisfiedChannel_stays (h : StaysAt cfg req look p) {selected : Selected}
    {p' : RetryProgress}
    (hsel : selectSatisfiedChannel cfg req look p = (.ok (some selected), p')) :
    p'.param = p.param := by
  unfold selectSatisfiedChannel at hsel
  split at hsel
  next hauto =>
    split at hsel
    · cases hsel
    dsimp only at hsel
    have hstay := h hauto
    generalize hdrop : req.autoGroups.drop (p.autoGroupIndex.getD 0) = groups at hsel hstay
    cases groups with
    | nil => cases hsel
    | cons group rest =>
      have hgroup := hstay group rest rfl
      have hself : (if p.autoGroupIndex.getD 0 < p.autoGroupIndex.getD 0 then 0
        else p.param.retry) = p.param.retry := if_neg (Nat.lt_irrefl _)
      split at hgroup
      next hlevel =>
        obtain ⟨_, _, _, c, _, _, _, hc, _⟩ := Lookup.channel_spec hlevel
        rw [selectAutoGroup_found hself hc, foundIn, if_neg] at hsel
        · cases hsel
          rfl
        · rw [Bool.and_eq_true, decide_eq_true_eq]
          rintro ⟨hcross, htimes⟩
          exact absurd (hgroup hcross) (by omega)
      next hlevel =>
        rw [selectAutoGroup_skip (by rw [hself]; exact Nat.le_of_not_lt hlevel)] at hsel
        rcases @selectAutoGroup_next cfg req look _ rest _ (Nat.lt_succ_self _)
          { p.param with retry := 0 } rfl (some (p.autoGroupIndex.getD 0 + 1)) with
          ⟨_, hnone⟩ | ⟨skipped, g, after, c, heq, _, hpos, _⟩
        · have hfst := congrArg Prod.fst hsel
          rw [hnone] at hfst
          cases hfst
        · have hzero := hgroup g (by rw [heq]; simp)
          omega
  · exact (Prod.mk.inj hsel).2 ▸ rfl

theorem rememberRetryChannel_retry (param : RetryParam) (channel : Channel) :
    (look.rememberRetryChannel param channel).retry = param.retry ∧
      (look.rememberRetryChannel param channel).resetNextTry = param.resetNextTry := by
  unfold Lookup.rememberRetryChannel
  dsimp only
  split
  · exact ⟨rfl, rfl⟩
  · split <;> exact ⟨rfl, rfl⟩

theorem cacheGetRandomSatisfiedChannel_stays (h : StaysAt cfg req look p) {selected : Selected}
    {p' : RetryProgress}
    (hsel : cacheGetRandomSatisfiedChannel cfg req look p = (.ok (some selected), p')) :
    p'.param.retry = p.param.retry ∧ p'.param.resetNextTry = p.param.resetNextTry := by
  unfold cacheGetRandomSatisfiedChannel at hsel
  split at hsel
  next sel q hq =>
    cases hsel
    rw [← selectSatisfiedChannel_stays h hq]
    exact rememberRetryChannel_retry q.param selected.channel
  next found q hno hq =>
    cases hsel
    exact (hno _ rfl).elim

end Select

/-! ## Numbered attempts -/

/-- An index of a list with a new last entry is one of the old ones or the last. -/
theorem getElem?_concat_cases {α : Type} {l : List α} {x a : α} {k : Nat}
    (h : (l ++ [x])[k]? = some a) : (k < l.length ∧ l[k]? = some a) ∨ (k = l.length ∧ a = x) := by
  rcases Nat.lt_trichotomy k l.length with hlt | rfl | hgt
  · rw [List.getElem?_append_left hlt] at h
    exact .inl ⟨hlt, h⟩
  · rw [List.getElem?_append_right le_rfl, Nat.sub_self] at h
    exact .inr ⟨rfl, (Option.some.inj h).symm⟩
  · rw [List.getElem?_eq_none (by rw [List.length_append, List.length_singleton]; omega)] at h
    cases h

namespace RelayLoop

variable {r : RelayRun} {s : RelayLoop} {it : Iteration}

def selects (r : RelayRun) (s : RelayLoop) (it : Iteration) : Bool :=
  s.running && !decide (r.maxRetries < s.progress.param.retry) && !s.outOfTime r it &&
    s.channelMeta

/-- If the turn selects a channel, it does not move on. -/
def StaysInGroup (r : RelayRun) (s : RelayLoop) (it : Iteration) : Prop :=
  s.selects r it = true → StaysAt r.cfg r.req it.look s.progress

/-- What was called so far is numbered in order. -/
structure Numbered (r : RelayRun) (s : RelayLoop) : Prop where
  attempts : ∀ k a, s.attempts[k]? = some a → a.writerAttempt = some (r.base + k)
  rotated : ∀ x ∈ s.rotated, x.1 < x.2
  started : ∀ k a, 0 < k → s.attempts[k]? = some a → (r.base + k, a.selected.channel.id) ∈ s.started

/-- The counter and the writer follow the attempts. -/
structure Counting (r : RelayRun) (s : RelayLoop) : Prop where
  retry : s.progress.param.retry = s.attempts.length
  reset : s.progress.param.resetNextTry = false
  channelMeta : s.channelMeta = decide (0 < s.attempts.length)
  writer : s.writer = some (r.base + (s.attempts.length - 1))

def InOrder (r : RelayRun) (s : RelayLoop) : Prop :=
  s.Numbered r ∧ (s.running = true → s.Counting r)

theorem Numbered.stop (h : s.Numbered r) : InOrder r s.stop :=
  ⟨⟨h.attempts, h.rotated, h.started⟩, fun hr => by cases hr⟩

def tryChannel (r : RelayRun) (it : Iteration) (selected : Selected) (s : RelayLoop) : RelayLoop :=
  if (s.rotate r it selected).running then (s.rotate r it selected).attempt r it selected
  else s.rotate r it selected

theorem step_of_stopped (h : s.running = false) : s.step r it = s := by
  rw [step, h]
  rfl

theorem step_eq_tryChannel (hrun : s.running = true) :
    s.step r it = if r.maxRetries < s.progress.param.retry then s.stop
      else if s.outOfTime r it then s.stop
      else match s.getChannel r it with
        | (none, s) => s.stop
        | (some selected, s) => s.tryChannel r it selected := by
  unfold step
  rw [hrun]
  rfl

theorem getChannel_spec (r : RelayRun) (it : Iteration) (s : RelayLoop) :
    (s.channelMeta = false ∧ s.getChannel r it = (some r.first, { s with channelMeta := true })) ∨
    (s.channelMeta = true ∧ ∃ found result p,
      cacheGetRandomSatisfiedChannel r.cfg r.req it.look s.progress = (result, p) ∧
      s.getChannel r it = (found, { s with progress := p }) ∧
      ∀ selected, found = some selected → result = .ok (some selected)) := by
  unfold getChannel
  cases s.channelMeta with
  | false => exact .inl ⟨rfl, rfl⟩
  | true =>
    refine .inr ⟨rfl, ?_⟩
    generalize cacheGetRandomSatisfiedChannel r.cfg r.req it.look s.progress = result
    obtain ⟨_ | (_ | selected), p⟩ := result
    · exact ⟨none, _, p, rfl, rfl, fun _ h => (by cases h)⟩
    · exact ⟨none, _, p, rfl, rfl, fun _ h => (by cases h)⟩
    refine ⟨if it.setupFails then none else some selected, _, p, rfl, rfl, fun other h => ?_⟩
    split at h
    · cases h
    · rw [h]

/-- What the writer is left with: it stands at the number of the turn, or the turn has ended. -/
theorem Numbered.rotate (h : s.Numbered r) (selected : Selected)
    (hretry : s.progress.param.retry = s.attempts.length)
    (hw : s.writer = some (r.base + (s.attempts.length - 1))) :
    InOrder r (s.rotate r it selected).stop ∧
    ((s.rotate r it selected).running = true →
      ∃ rotated started, s.rotate r it selected =
        { s with writer := some (r.base + s.attempts.length), rotated, started } ∧
        (0 < s.attempts.length → (r.base + s.attempts.length, selected.channel.id) ∈ started)) := by
  unfold RelayLoop.rotate
  rw [hw]
  dsimp only
  rw [hretry]
  split
  next heq =>
    -- The first turn, at the attempt the stream is at.
    split
    · exact ⟨h.stop, fun hr => by cases hr⟩
    · refine ⟨h.stop, fun _ => ⟨s.rotated, s.started, ?_, fun hpos => ?_⟩⟩
      · rw [heq, ← hw]
      · omega
  next hne =>
    split
    · exact ⟨h.stop, fun hr => by cases hr⟩
    rw [if_neg (by omega)]
    have hrotated : ∀ x ∈ s.rotated ++
        [(r.base + (s.attempts.length - 1), r.base + s.attempts.length)], x.1 < x.2 := by
      intro x hx
      rcases List.mem_append.mp hx with hx | hx
      · exact h.rotated x hx
      · rw [List.mem_singleton.mp hx]
        omega
    have hstop : InOrder r
        { s with
          rotated := s.rotated ++ [(r.base + (s.attempts.length - 1), r.base + s.attempts.length)]
          writer := some (r.base + s.attempts.length)
          started := s.started ++ [(r.base + s.attempts.length, selected.channel.id)]
          running := false } :=
      ⟨⟨h.attempts, hrotated, fun k a hk ha =>
        List.mem_append_left _ (h.started k a hk ha)⟩, fun hr => by cases hr⟩
    split
    · exact ⟨hstop, fun hr => by cases hr⟩
    · exact ⟨hstop, fun _ => ⟨_, _, rfl, fun _ => by simp⟩⟩

theorem Numbered.attempt (h : s.Numbered r) (selected : Selected)
    (hretry : s.progress.param.retry = s.attempts.length)
    (hreset : s.progress.param.resetNextTry = false) (hmeta : s.channelMeta = true)
    (hw : s.writer = some (r.base + s.attempts.length))
    (hstarted : 0 < s.attempts.length →
      (r.base + s.attempts.length, selected.channel.id) ∈ s.started) :
    InOrder r (s.attempt r it selected) := by
  have hnumbered : Numbered r
      { s with attempts := s.attempts ++ [UpstreamAttempt.mk selected s.writer] } := by
    refine ⟨fun k a ha => ?_, h.rotated, fun k a hk ha => ?_⟩
    · rcases getElem?_concat_cases ha with ⟨_, ha⟩ | ⟨rfl, rfl⟩
      · exact h.attempts k a ha
      · exact hw
    · rcases getElem?_concat_cases ha with ⟨_, ha⟩ | ⟨rfl, rfl⟩
      · exact h.started k a hk ha
      · exact hstarted hk
  unfold RelayLoop.attempt
  split
  · exact h.stop
  dsimp only
  split
  · refine ⟨⟨hnumbered.attempts, hnumbered.rotated, hnumbered.started⟩, fun _ => ?_⟩
    have hinc : s.progress.param.increaseRetry =
        { s.progress.param with retry := s.progress.param.retry + 1 } :=
      if_neg (by rw [hreset]; exact Bool.false_ne_true)
    refine ⟨?_, ?_, ?_, ?_⟩
    · rw [hinc, List.length_append, List.length_singleton, hretry]
    · rw [hinc]
      exact hreset
    · rw [hmeta, List.length_append, List.length_singleton]
      simp
    · rw [List.length_append, List.length_singleton, Nat.add_sub_cancel]
      exact hw
  · exact hnumbered.stop

theorem Numbered.tryChannel (selected : Selected) (h : s.Numbered r)
    (hretry : s.progress.param.retry = s.attempts.length)
    (hreset : s.progress.param.resetNextTry = false) (hmeta : s.channelMeta = true)
    (hw : s.writer = some (r.base + (s.attempts.length - 1))) :
    InOrder r (s.tryChannel r it selected) := by
  obtain ⟨hstop, hrun⟩ := @Numbered.rotate r s it h selected hretry hw
  have hn : Numbered r (s.rotate r it selected) := ⟨hstop.1.1, hstop.1.2, hstop.1.3⟩
  unfold RelayLoop.tryChannel
  split
  next hr =>
    obtain ⟨rotated, started, heq, hstarted⟩ := hrun hr
    rw [heq] at hn ⊢
    exact hn.attempt selected hretry hreset hmeta rfl hstarted
  next hr => exact ⟨hn, fun hr' => absurd hr' hr⟩

theorem InOrder.step (h : s.InOrder r) (hstays : s.StaysInGroup r it) :
    InOrder r (s.step r it) := by
  obtain ⟨hn, hcount⟩ := h
  cases hrun : s.running with
  | false =>
    rw [step_of_stopped hrun]
    exact ⟨hn, hcount⟩
  | true =>
    have hc := hcount hrun
    rw [step_eq_tryChannel hrun]
    split
    · exact hn.stop
    next hmax =>
    split
    · exact hn.stop
    next htime =>
    rcases getChannel_spec r it s with ⟨_, heq⟩ | ⟨hmeta, found, result, p, hsel, heq, hfound⟩ <;>
      rw [heq]
    · exact Numbered.tryChannel r.first ⟨hn.attempts, hn.rotated, hn.started⟩
        hc.retry hc.reset rfl hc.writer
    cases found with
    | none => exact Numbered.stop ⟨hn.attempts, hn.rotated, hn.started⟩
    | some selected =>
      have hat : StaysAt r.cfg r.req it.look s.progress := hstays (by
        simp [selects, hrun, hmeta, hmax, htime])
      rw [hfound selected rfl] at hsel
      obtain ⟨hretry, hreset⟩ := cacheGetRandomSatisfiedChannel_stays hat hsel
      exact Numbered.tryChannel selected ⟨hn.attempts, hn.rotated, hn.started⟩
        (hretry.trans hc.retry) (hreset.trans hc.reset) hmeta hc.writer

end RelayLoop

variable (cfg : RetrySettings) (req : RetryRequest) (look : Lookup)

theorem adaptiveRetryTimes_param (channelPriority : Int) (param : RetryParam) :
    ∃ path, (adaptiveRetryTimes cfg req look channelPriority param).2 =
      { param with priorityPath := path } := by
  unfold adaptiveRetryTimes
  split
  · exact ⟨param.priorityPath, rfl⟩
  split
  · exact ⟨param.priorityPath, rfl⟩
  · exact ⟨param.priorityPath, rfl⟩
  · exact ⟨_, rfl⟩

theorem relayDirect_start (first : Selected) (autoGroupIndex writer : Option Nat)
    (maxAttempts : Int) :
    ∃ maxRetries path,
      relayDirect cfg req look first autoGroupIndex writer maxAttempts =
        (⟨cfg, req, first, maxRetries, writer.getD 0⟩,
          .start ⟨{ RetryParam.start with priorityPath := path }, autoGroupIndex⟩ writer) := by
  obtain ⟨path, hpath⟩ := adaptiveRetryTimes_param cfg req look first.channel.getPriority .start
  unfold relayDirect
  split
  next maxRetries param heq =>
    split at heq
    · rw [show param = _ from (congrArg Prod.snd heq).symm.trans hpath]
      exact ⟨_, path, rfl⟩
    · cases heq
      exact ⟨_, [], rfl⟩

/-- As long as no selection moves on to another group, the attempts of a recovered stream are
numbered one by one, the writer only goes up, and every attempt after the first is started with
its channel. -/
theorem recovery_attempts_numbered (cfg : RetrySettings) (req : RetryRequest) (look : Lookup)
    (first : Selected) (autoGroupIndex : Option Nat) (base : Nat) (maxAttempts : Int)
    (its : List Iteration) {r : RelayRun} {s : RelayLoop}
    (hr : relayDirect cfg req look first autoGroupIndex (some base) maxAttempts = (r, s))
    (hstays : Along (RelayLoop.step r) (RelayLoop.StaysInGroup r) s its) :
    r.base = base ∧ (run (RelayLoop.step r) s its).Numbered r := by
  obtain ⟨maxRetries, path, heq⟩ :=
    relayDirect_start cfg req look first autoGroupIndex (some base) maxAttempts
  obtain ⟨rfl, rfl⟩ := Prod.mk.inj (heq.symm.trans hr)
  refine ⟨rfl, ?_⟩
  have hstart : RelayLoop.InOrder ⟨cfg, req, first, maxRetries, base⟩
      (.start ⟨{ RetryParam.start with priorityPath := path }, autoGroupIndex⟩ (some base)) := by
    refine ⟨⟨fun k a ha => ?_, fun x hx => (by cases hx), fun k a hk ha => ?_⟩, fun _ => ?_⟩
    · cases ha
    · cases ha
    · exact ⟨rfl, rfl, rfl, rfl⟩
  exact (run_invariant (fun s it h hs => RelayLoop.InOrder.step h hs) hstart hstays).1

/-! ## A group and two groups -/

/-- The tables are the same in every turn, nothing but the upstream fails. -/
def failedTurn : Iteration := ⟨look, false, false, false, false, false, false⟩

def databaseLookup (channels : Table Channel.id) (routes : Table UpstreamManagedRoute.channelID)
    (random : Nat) : Lookup :=
  ⟨⟨plainNames, false, ⟨channels, channels.rows.flatMap Channel.abilities⟩, .empty⟩, routes, random⟩

/-- A request of the group `auto`. -/
def autoRequest (groups : List String) (crossGroupRetry : Bool) : RetryRequest :=
  ⟨autoGroup, "gpt-5".toList, [], groups.map String.toList, crossGroupRetry⟩

def twoPriorities : Lookup :=
  databaseLookup ⟨[{ plainChannel 1 "a" "gpt-5" with priority := some 1 },
    plainChannel 2 "a" "gpt-5"], by decide⟩ .empty 0

def twoGroups : Lookup :=
  databaseLookup ⟨[plainChannel 1 "a" "gpt-5", plainChannel 2 "b" "gpt-5"], by decide⟩ .empty 0

/-- The loop of a request of the group `auto` whose upstreams fail `turns` times. -/
def autoRun (first : Selected) (writer : Option Nat) (turns : Nat) : RelayRun × RelayLoop :=
  let (r, s) := relayDirect cfg req look first (some 0) writer 10
  (r, run (RelayLoop.step r) s (List.replicate turns (failedTurn look)))

theorem twoPriorities_numbered :
    (autoRun ⟨3, false⟩ (autoRequest ["a"] false) twoPriorities
      ⟨{ plainChannel 1 "a" "gpt-5" with priority := some 1 }, "a".toList, 0⟩
        (some 7) 2).2.attempts.length = 2 ∧
    (autoRun ⟨3, false⟩ (autoRequest ["a"] false) twoPriorities
      ⟨{ plainChannel 1 "a" "gpt-5" with priority := some 1 }, "a".toList, 0⟩ (some 7) 2).2.Numbered
      (autoRun ⟨3, false⟩ (autoRequest ["a"] false) twoPriorities
        ⟨{ plainChannel 1 "a" "gpt-5" with priority := some 1 }, "a".toList, 0⟩ (some 7) 2).1 := by
  refine ⟨by decide, (recovery_attempts_numbered ⟨3, false⟩ (autoRequest ["a"] false) twoPriorities
    ⟨{ plainChannel 1 "a" "gpt-5" with priority := some 1 }, "a".toList, 0⟩ (some 0) 7 10
    (List.replicate 2 (failedTurn twoPriorities)) rfl ?_).2⟩
  exact along_of_forall (fun s it _ => StaysAt.of_one_group (by decide) rfl) _ _

/-- The second group is tried under the number of the first attempt. -/
theorem second_group_same_number :
    ((autoRun ⟨3, false⟩ (autoRequest ["a", "b"] true) twoGroups
      ⟨plainChannel 1 "a" "gpt-5", "a".toList, 0⟩ (some 7) 2).2.attempts.map fun a =>
        (a.selected.channel.id, a.writerAttempt)) = [(1, some 7), (2, some 7)] ∧
    (autoRun ⟨3, false⟩ (autoRequest ["a", "b"] true) twoGroups
      ⟨plainChannel 1 "a" "gpt-5", "a".toList, 0⟩ (some 7) 2).2.started = [] := by
  constructor <;> decide

end NewApi
