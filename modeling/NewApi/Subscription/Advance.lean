import NewApi.Subscription.Resets
import NewApi.Subscription.Schedule

/-!
# Resets that come to an end

The loop of a reset goes on from boundary to boundary until one lies in the future. It ends where
every boundary is later than its base. A calendar plan has such boundaries from a time on where the
local clock passes each later midnight that they are taken from once, a custom plan where its
seconds are a positive duration in 64 bit nanoseconds.
-/

namespace NewApi

open Calendar (Location Civil monthStart monthOf)

/-- From a time on, the boundaries of the plan are later than their base. -/
def Advances (loc : Location) (plan : SubscriptionPlan) (start : Int) : Prop :=
  match plan.quotaResetPeriod with
  | .never => True
  | .daily | .weekly => ∀ day, loc.dayNumber start ≤ day → loc.PassesOnce (day * 86400)
  | .monthly => ∀ month, (loc.civil start).month ≤ month → loc.PassesOnce (monthStart month * 86400)
  | .custom => 0 < plan.quotaResetCustomSeconds →
      0 < durationSeconds (plan.quotaResetCustomSeconds * 1000000000)

variable {loc : Location} {plan : SubscriptionPlan} {start base : Int}

theorem addDate_days_later (hloc : loc.Regular)
    (hpass : ∀ day, loc.dayNumber start ≤ day → loc.PassesOnce (day * 86400))
    (hbase : start ≤ base) {days : Int} (hdays : 0 < days) :
    base < loc.addDate (loc.date { loc.civil base with clock := 0 }) 0 days := by
  have hday := (hpass _ le_rfl).le_dayNumber le_rfl hbase
  obtain ⟨hread, -⟩ := hloc.midnight (c := { loc.civil base with clock := 0 })
    (hpass (loc.dayNumber base) hday) (by simp only [Location.civil]; omega) rfl
  rw [Location.addDate, Location.civil_midnight hread]
  refine (hloc.midnight (hpass (loc.dayNumber base + days) (by omega)) ?_ rfl).2 base (by omega)
  dsimp only
  rw [Int.add_zero]
  omega

theorem addDate_month_later (hloc : loc.Regular)
    (hpass : ∀ month, (loc.civil start).month ≤ month → loc.PassesOnce (monthStart month * 86400))
    (hbase : start ≤ base) :
    base < loc.addDate (loc.date { loc.civil base with day := 1, clock := 0 }) 1 0 := by
  have hmonth := Calendar.monthStart_monthOf (loc.dayNumber base)
  have hday := (hpass _ le_rfl).le_dayNumber
    (Calendar.monthStart_monthOf (loc.dayNumber start)).1 hbase
  have hle : (loc.civil start).month ≤ (loc.civil base).month :=
    Int.le_of_lt_add_one (Calendar.monthStart_lt_iff.mp (hday.trans_lt hmonth.2))
  obtain ⟨hread, -⟩ := hloc.midnight (c := { loc.civil base with day := 1, clock := 0 })
    (hpass (loc.civil base).month hle) (by simp only; omega) rfl
  rw [Location.addDate, Location.civil_midnight hread]
  refine (hloc.midnight (hpass ((loc.civil base).month + 1) (by omega)) ?_ rfl).2 base hmonth.2
  dsimp only
  rw [Calendar.monthOf_monthStart]
  omega

theorem Advances.later (h : Advances loc plan start) (hloc : loc.Regular) (hbase : start ≤ base)
    {next : Int} (hnext : resetBoundary loc base plan = some next) : base < next := by
  unfold Advances at h
  unfold resetBoundary at hnext
  cases hperiod : plan.quotaResetPeriod with
  | never =>
    simp only [hperiod] at hnext
    cases hnext
  | daily =>
    simp only [hperiod] at h hnext
    cases hnext
    exact addDate_days_later hloc h hbase one_pos
  | weekly =>
    simp only [hperiod] at h hnext
    cases hnext
    refine addDate_days_later hloc h hbase ?_
    unfold Location.weekday
    split <;> omega
  | monthly =>
    simp only [hperiod] at h hnext
    cases hnext
    exact addDate_month_later hloc h hbase
  | custom =>
    simp only [hperiod] at h hnext
    split at hnext
    · cases hnext
    next hpos =>
    cases hnext
    omega

/-- From a time on, a schedule climbs. -/
def ClimbsFrom (start : Int) (next : Int → Int) : Prop :=
  ∀ base, start ≤ base → next base = 0 ∨ base < next base

theorem Advances.climbs (h : Advances loc plan start) (hloc : loc.Regular) (endUnix : Int) :
    ClimbsFrom start fun base => calcNextResetTime loc base plan endUnix := by
  intro base hbase
  simp only [calcNextResetTime]
  cases hnext : resetBoundary loc base plan with
  | none => exact .inl rfl
  | some next =>
    dsimp only
    split
    · exact .inl rfl
    · exact .inr (h.later hloc hbase hnext)

/-- Seconds that wrap to no duration, or to a negative one, take some boundary back. -/
theorem advances_of_climbs (hperiod : plan.quotaResetPeriod = .custom)
    (h : ClimbsFrom start fun base => calcNextResetTime loc base plan 0) :
    Advances loc plan start := by
  unfold Advances
  rw [hperiod]
  intro hpos
  by_contra hle
  have hback :=
    h (max start 1 - durationSeconds (plan.quotaResetCustomSeconds * 1000000000)) (by omega)
  simp only [calcNextResetTime, resetBoundary, hperiod, Int.not_le.mpr hpos, if_false, lt_irrefl,
    false_and] at hback
  omega

theorem ClimbsFrom.leaves {next : Int → Int} (h : ClimbsFrom start next) (now : Int) {first : Int}
    (hfirst : first = 0 ∨ start ≤ first) : ∃ n, ¬ Due now (next^[n] first) := by
  induction hgap : (now + 1 - first).toNat using Nat.strong_induction_on generalizing first with
  | _ gap ih =>
    by_cases hdue : Due now first
    · obtain ⟨hpos, hle⟩ := hdue
      have hstart : start ≤ first := hfirst.resolve_left (by omega)
      rcases h first hstart with hzero | hlater
      · exact ⟨1, by simp [hzero, Due]⟩
      · obtain ⟨n, hn⟩ := ih _ (by omega) (.inr (hstart.trans hlater.le)) rfl
        exact ⟨n + 1, hn⟩
    · exact ⟨0, hdue⟩

theorem Walk.lands {next : Int → Int} {now first last : Int} (hwalk : Walk next now first last)
    (h : ClimbsFrom start next) (hfirst : start ≤ first) :
    last ≤ now ∧ (next last = 0 ∨ now < next last) := by
  induction hwalk with
  | last hdue hnot =>
    obtain ⟨hpos, hle⟩ := hdue
    unfold Due at hnot
    have := h _ hfirst
    omega
  | step _ hwalk ih =>
    have hpos := hwalk.due.1
    have := h _ hfirst
    exact ih (by omega)

/-- Where the boundaries of a plan advance from the base of a row on, a reset of it ends, and one
that renews it leaves the last boundary that has come and the first one that has not. A custom plan
advances only there. -/
theorem reset_advances (loc : Location) (hloc : loc.Regular) (plan : SubscriptionPlan)
    (start : Int) :
    (Advances loc plan start →
      (∀ base endUnix, start ≤ base → calcNextResetTime loc base plan endUnix = 0 ∨
        base < calcNextResetTime loc base plan endUnix) ∧
      ∀ (sub : UserSubscription) (now : Int), start ≤ resetBase sub → ∃ n, ∀ rounds, n < rounds →
        ∃ sub',
        maybeResetUserSubscription (calcNextResetTime loc) rounds plan now sub = some sub' ∧
        (renews (calcNextResetTime loc) rounds plan now sub = true →
          sub'.lastResetTime ≤ now ∧ (sub'.nextResetTime = 0 ∨ now < sub'.nextResetTime))) ∧
    (plan.quotaResetPeriod = .custom →
      (∀ base endUnix, start ≤ base → calcNextResetTime loc base plan endUnix = 0 ∨
        base < calcNextResetTime loc base plan endUnix) → Advances loc plan start) := by
  refine ⟨fun h => ⟨fun base endUnix => h.climbs hloc endUnix base, fun sub now hbase => ?_⟩,
    fun hperiod h => advances_of_climbs hperiod fun base => h base 0⟩
  have hclimbs : ClimbsFrom start (boundaryAfter (calcNextResetTime loc) plan sub) :=
    h.climbs hloc sub.endTime
  have hfirst := (hclimbs _ hbase).imp_right fun hlater => hbase.trans hlater.le
  obtain ⟨n, hn⟩ := hclimbs.leaves now hfirst
  refine ⟨n, fun rounds hrounds => ?_⟩
  obtain ⟨sub', hsub'⟩ := Option.isSome_iff_exists.mp (maybeResetUserSubscription_isSome hrounds hn)
  refine ⟨sub', hsub', fun hrenews => ?_⟩
  rcases renews_spec hsub' with ⟨-, b, hwalk, rfl⟩ | ⟨hno, -⟩
  · exact hwalk.lands hclimbs (hfirst.resolve_left hwalk.due.1.ne.symm)
  · cases hno.symm.trans hrenews

def dailyPlan : SubscriptionPlan where
  id := 1
  title := "daily"
  quotaResetPeriod := .daily
  quotaResetCustomSeconds := 0

theorem fixed_regular : (Location.fixed 0).Regular where
  range _ _ _ _ := rfl
  bounded _ := by simp [Location.fixed]
  sparse _ _ _ _ _ _ := .inl rfl

theorem reset_advances_daily : Advances (.fixed 0) dailyPlan 0 ∧ ∀ base, 0 ≤ base →
    calcNextResetTime (.fixed 0) base dailyPlan 0 = 0 ∨
      base < calcNextResetTime (.fixed 0) base dailyPlan 0 :=
  have h : Advances (.fixed 0) dailyPlan 0 := fun day _ =>
    ⟨day * 86400, by simp [Location.reading, Location.fixed],
      fun x => by simp [Location.reading, Location.fixed]⟩
  ⟨h, fun base => ((reset_advances (.fixed 0) fixed_regular dailyPlan 0).1 h).1 base 0⟩

/-- A custom period whose nanoseconds wrap to none. -/
def wrappingPlan : SubscriptionPlan where
  id := 1
  title := "custom"
  quotaResetPeriod := .custom
  quotaResetCustomSeconds := 2 ^ 55

def wrappingSubscription : UserSubscription where
  id := 1
  userId := 1
  planId := 1
  amountTotal := 100
  amountUsed := 0
  startTime := 1000
  endTime := 0
  status := .active
  lastResetTime := 0
  nextResetTime := 0
  allowWalletOverflow := false

theorem wrapping_stands (base : Int) : calcNextResetTime (.fixed 0) base wrappingPlan 0 = base := by
  have hperiod : wrappingPlan.quotaResetPeriod = .custom := rfl
  have hpos : ¬wrappingPlan.quotaResetCustomSeconds ≤ 0 := by decide
  have hzero : durationSeconds (wrappingPlan.quotaResetCustomSeconds * 1000000000) = 0 := by decide
  simp [calcNextResetTime, resetBoundary, hperiod, hpos, hzero]

theorem wrapping_loop (rounds : Nat) (moved : Bool) (base : Int) :
    resetLoop (fun b => calcNextResetTime (.fixed 0) b wrappingPlan 0) 2000 rounds moved base
      1000 = none := by
  induction rounds generalizing moved base with
  | zero => rfl
  | succ rounds ih =>
    rw [resetLoop, if_pos (by decide), wrapping_stands]
    exact ih true 1000

theorem wrapping_reset_never_ends :
    calcNextResetTime (.fixed 0) 1000 wrappingPlan 0 = 1000 ∧
      ∀ rounds, maybeResetUserSubscription (calcNextResetTime (.fixed 0)) rounds wrappingPlan 2000
        wrappingSubscription = none := by
  refine ⟨wrapping_stands 1000, fun rounds => ?_⟩
  have hfirst : firstBoundary (calcNextResetTime (.fixed 0)) wrappingPlan wrappingSubscription =
      1000 := wrapping_stands 1000
  have hloop := wrapping_loop rounds false (resetBase wrappingSubscription)
  rw [maybeResetUserSubscription_eq, if_neg (by decide), if_neg (by decide), hfirst]
  unfold boundaryAfter
  rw [show wrappingSubscription.endTime = 0 from rfl, hloop]

end NewApi
