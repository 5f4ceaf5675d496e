import NewApi.Channel.Candidates

/-!
# The weighted draw

A number below the total is drawn, and the weights are subtracted from it one after the other.
With the cache a channel is chosen once the number is negative, so that every channel has as many
numbers as its weight. Without it the channel is chosen once the number is not positive: the
first ability has one number too many, and it is missing for the last one
(`weighted_choice_exact_iff`).

Weights are not bounded, and the source adds them up in an `int`. A total that does not fit wraps,
and the draw below it panics or is not the one of this model, so a draw is exact only for a total
that fits.
-/

namespace NewApi

variable {α : Type} {weight key : α → Nat} {targets : List α} {total id : Nat}

/-- What the targets with an id weigh. -/
def weightOf (key weight : α → Nat) (targets : List α) (id : Nat) : Nat :=
  ((targets.filter fun x => key x = id).map weight).sum

/-- How many of the numbers below the total give an id. -/
def draws (pick : Nat → Option Nat) (total id : Nat) : Nat :=
  (List.range total).countP fun n => pick n = some id

/-- The largest `int`. -/
def maxTotal : Nat := 9223372036854775807

/-- The total is an `int`, every number gives a channel of the targets, and as many give an id
as it weighs. -/
structure ExactDraw (key weight : α → Nat) (targets : List α) (total : Nat)
    (draw : Nat → Except String (Option Channel)) : Prop where
  fits : total ≤ maxTotal
  selects : ∀ n, ∃ x ∈ targets, ∃ c, draw n = .ok (some c) ∧ c.id = key x
  exact : ∀ id, draws (fun n => ((draw n).toOption.join).map Channel.id) total id =
    weightOf key weight targets id

/-! ## Counting -/

theorem weightOf_cons (x : α) : weightOf key weight (x :: targets) id =
    (if key x = id then weight x else 0) + weightOf key weight targets id := by
  simp only [weightOf, List.filter_cons, decide_eq_true_eq]
  split
  · rw [List.map_cons, List.sum_cons]
  · rw [Nat.zero_add]

/-- The number that is left after the first target counts for the rest. -/
theorem draws_lt (targets : List α) :
    draws (fun n => (pickWeighted weight (fun drawn w => drawn < w) targets n).map key)
      (targets.map weight).sum id = weightOf key weight targets id := by
  induction targets with
  | nil => rfl
  | cons x rest ih =>
    rw [weightOf_cons, ← ih, List.map_cons, List.sum_cons]
    unfold draws
    rw [List.range_add, List.countP_append, List.countP_map]
    congr 1
    · have hfirst : ∀ n ∈ List.range (weight x), ((pickWeighted weight (fun drawn w => drawn < w)
          (x :: rest) n).map key = some id ↔ key x = id) := by
        intro n hn
        simp [pickWeighted, List.mem_range.mp hn]
      split
      next hid =>
        rw [List.countP_eq_length.mpr, List.length_range]
        exact fun n hn => decide_eq_true ((hfirst n hn).mpr hid)
      next hid =>
        rw [List.countP_eq_zero]
        exact fun n hn h => hid ((hfirst n hn).mp (of_decide_eq_true h))
    · refine congrArg (List.countP · _) (funext fun n => ?_)
      simp [pickWeighted]

theorem pickWeighted_le_succ (targets : List α) (n : Nat) :
    pickWeighted weight (fun drawn w => drawn ≤ w) targets (n + 1) =
      pickWeighted weight (fun drawn w => drawn < w) targets n := by
  induction targets generalizing n with
  | nil => rfl
  | cons x rest ih =>
    by_cases h : n < weight x
    · simp [pickWeighted, h, Nat.succ_le_of_lt h]
    · have hge : ¬ n + 1 ≤ weight x := by omega
      simp [pickWeighted, h, hge, Nat.succ_sub (not_lt.mp h), ih]

theorem pickWeighted_last {x : α} (hx : 0 < weight x) (before : List α) (n : Nat)
    (hn : n + 1 = ((before ++ [x]).map weight).sum) :
    pickWeighted weight (fun drawn w => drawn < w) (before ++ [x]) n = some x := by
  induction before generalizing n with
  | nil =>
    rw [List.nil_append, List.map_singleton, List.sum_singleton] at hn
    have hlt : n < weight x := by omega
    simp [pickWeighted, hlt]
  | cons y before ih =>
    rw [List.cons_append, List.map_cons, List.sum_cons] at hn
    have hpos : weight x ≤ ((before ++ [x]).map weight).sum := by simp
    have hge : ¬ n < weight y := by omega
    simp only [List.cons_append, pickWeighted, hge, decide_false, Bool.false_eq_true, if_false]
    exact ih _ (by omega)

theorem draws_le (hweight : ∀ x ∈ targets, 0 < weight x) {first last : α}
    (hfirst : targets.head? = some first) (hlast : targets.getLast? = some last) (id : Nat) :
    draws (fun n => (pickWeighted weight (fun drawn w => drawn ≤ w) targets n).map key)
        (targets.map weight).sum id + (if key last = id then 1 else 0) =
      weightOf key weight targets id + (if key first = id then 1 else 0) := by
  obtain ⟨before, rfl⟩ := List.getLast?_eq_some_iff.mp hlast
  have hpos := hweight last (by simp)
  obtain ⟨n, hn⟩ : ∃ n, n + 1 = ((before ++ [last]).map weight).sum :=
    ⟨_, Nat.sub_add_cancel (hpos.trans_le (by simp))⟩
  have hzero : pickWeighted weight (fun drawn w => drawn ≤ w) (before ++ [last]) 0 =
    some first := by
    obtain ⟨rest, hrest⟩ := List.head?_eq_some_iff.mp hfirst
    rw [hrest]
    simp [pickWeighted]
  rw [← draws_lt, ← hn]
  unfold draws
  conv_lhs => rw [List.range_succ_eq_map, List.countP_cons, List.countP_map]
  conv_rhs => rw [List.range_succ, List.countP_append]
  simp only [hzero, pickWeighted_last hpos before n hn, Function.comp_def, pickWeighted_le_succ,
    List.countP_singleton, Option.map_some, Option.some.injEq, decide_eq_true_eq]
  omega

theorem exactDraw_iff (done : Nat → Nat → Bool) {draw : Nat → Except String (Option Channel)}
    (h : ∀ random, ∃ x c, pickWeighted weight done targets (random % total) = some x ∧
      draw random = .ok (some c) ∧ c.id = key x) :
    ExactDraw key weight targets total draw ↔ total ≤ maxTotal ∧ ∀ id,
      draws (fun n => (pickWeighted weight done targets n).map key) total id =
        weightOf key weight targets id := by
  have hsame : ∀ id, draws (fun n => ((draw n).toOption.join).map Channel.id) total id =
      draws (fun n => (pickWeighted weight done targets n).map key) total id := by
    intro id
    refine List.countP_congr fun n hn => ?_
    obtain ⟨x, c, hx, hc, hid⟩ := h n
    rw [Nat.mod_eq_of_lt (List.mem_range.mp hn)] at hx
    simp [hx, hc, hid, Except.toOption]
  constructor
  · intro hexact
    exact ⟨hexact.fits, fun id => (hsame id).symm.trans (hexact.exact id)⟩
  · rintro ⟨hfits, hexact⟩
    refine ⟨hfits, fun n => ?_, fun id => (hsame id).trans (hexact id)⟩
    obtain ⟨x, c, hx, hc, hid⟩ := h n
    exact ⟨x, pickWeighted_mem hx, c, hc, hid⟩

/-! ## Both ways -/

/-- With the cache the draw is exact iff the total fits. Without it also the first and the last
ability of the priority have to be of one channel. -/
theorem weighted_choice_exact_iff (cfg : NameSettings) (group model : List Char) (priority : Int)
    (filters : List ChannelFilter) (cache : ChannelCache) (channels : List Channel)
    (hcached : cache.satisfiedChannels cfg group model filters = .ok channels)
    (targets : List Channel)
    (htargets : channels.filter (fun c => c.getPriority = priority) = targets)
    (hne : targets ≠ []) (db : ChannelDb) (abilities : List Ability)
    (habilities : db.abilitiesAtPriority cfg group model priority filters = abilities)
    (hne' : abilities ≠ []) :
    (ExactDraw Channel.id (ChannelCache.smoothedWeight targets) targets
          (ChannelCache.totalWeight targets)
          (cache.getRandomSatisfiedChannelAtPriority cfg group model priority filters) ↔
        ChannelCache.totalWeight targets ≤ maxTotal) ∧
      (ExactDraw Ability.channelId (fun a => a.weight + 10) abilities
          (abilities.map fun a => a.weight + 10).sum
          (db.getChannelAtPriority cfg group model priority filters) ↔
        (abilities.map fun a => a.weight + 10).sum ≤ maxTotal ∧
          abilities.head?.map Ability.channelId = abilities.getLast?.map Ability.channelId) := by
  constructor
  · refine (exactDraw_iff (fun drawn w => drawn < w) fun random => ?_).trans
      (and_iff_left fun id => ?_)
    · obtain ⟨c, hc, hdraw⟩ := ChannelCache.drawChannel_pick hne random
      refine ⟨c, c, hc, ?_, rfl⟩
      rw [ChannelCache.getRandomSatisfiedChannelAtPriority, hcached, ← hdraw, ← htargets]
      rfl
    · rw [(ChannelCache.totalWeight_eq hne).1]
      exact draws_lt targets
  · refine (exactDraw_iff (fun drawn w => drawn ≤ w) fun random => ?_).trans ?_
    · obtain ⟨a, c, ha, -, -, hfind, hdraw⟩ := getChannelAtPriority_pick habilities hne' random
      exact ⟨a, c, ha, hdraw, Table.find_key hfind⟩
    obtain ⟨first, hfirst⟩ := Option.isSome_iff_exists.mp (List.isSome_head?.mpr hne')
    obtain ⟨last, hlast⟩ := Option.isSome_iff_exists.mp (List.getLast?_isSome.mpr hne')
    have hcount := @draws_le _ (fun a : Ability => a.weight + 10) Ability.channelId abilities
      (fun a _ => Nat.succ_pos _) first last hfirst hlast
    rw [hfirst, hlast, Option.map_some, Option.map_some, Option.some.injEq]
    refine and_congr_right fun _ => ⟨?_, ?_⟩
    · intro hexact
      by_contra hdiffer
      have := hcount first.channelId
      rw [hexact, if_pos rfl, if_neg (Ne.symm hdiffer)] at this
      omega
    · intro hsame id
      have := hcount id
      rw [hsame] at this
      exact Nat.add_right_cancel this

/-- The channels 1 and 2, with the same weight. -/
def equalChannels : Table Channel.id :=
  ⟨[plainChannel 1 "a" "m", plainChannel 2 "a" "m"], by decide⟩

/-- The channels 1 and 2, with the weights 30 and 20. -/
def weightedChannels : Table Channel.id :=
  ⟨[{ plainChannel 1 "a" "m" with weight := some 30 },
    { plainChannel 2 "a" "m" with weight := some 20 }], by decide⟩

theorem single_ability_exact :
    let channel := plainChannel 1 "a" "m"
    let targets := weightedChannels.rows
    ExactDraw Channel.id (ChannelCache.smoothedWeight targets) targets 50
        (ChannelCache.getRandomSatisfiedChannelAtPriority ⟨fun _ _ => [1, 2], weightedChannels⟩
          plainNames "a".toList "m".toList 0 []) ∧
      ExactDraw Ability.channelId (fun a => a.weight + 10) channel.abilities 10
        (ChannelDb.getChannelAtPriority ⟨equalChannels, channel.abilities⟩ plainNames
          "a".toList "m".toList 0 []) := by
  obtain ⟨hcache, hdb⟩ := weighted_choice_exact_iff plainNames "a".toList "m".toList 0 []
    ⟨fun _ _ => [1, 2], weightedChannels⟩ weightedChannels.rows (by decide)
    weightedChannels.rows (by decide) (by decide)
    ⟨equalChannels, (plainChannel 1 "a" "m").abilities⟩ _ rfl (by decide)
  exact ⟨hcache.mpr (by decide), hdb.mpr ⟨by decide, by decide⟩⟩

theorem first_ability_drawn_more :
    let db : ChannelDb := ⟨equalChannels, equalChannels.rows.flatMap Channel.abilities⟩
    let draw := db.getChannelAtPriority plainNames "a".toList "m".toList 0 []
    draws (fun n => ((draw n).toOption.join).map Channel.id) 20 1 = 11 ∧
      draws (fun n => ((draw n).toOption.join).map Channel.id) 20 2 = 9 := by
  decide +kernel

end NewApi
