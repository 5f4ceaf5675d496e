import NewApi.Lib.Calendar
import NewApi.Model.Subscription

/-!
# The reset schedule of a plan

`calcNextResetTime` gives the first boundary after a base: the next local midnight, Monday or first
of the month, or the base with the seconds of a custom plan, a duration in 64 bit nanoseconds that
wraps. A boundary after the end of the subscription is 0.

The loops rely on a boundary being later than its base. That holds in every location with one
offset. A location whose zone change skips midnight puts the next midnight before a base late in
the evening, and seconds that are a multiple of `2 ^ 55` wrap to no time at all.
-/

namespace NewApi

open Calendar (Location Civil monthStart monthOf)

/-- A number of seconds as a `time.Duration`, in whole seconds rounded down. -/
def durationSeconds (nanoseconds : Int) : Int := Int.bmod nanoseconds (2 ^ 64) / 1000000000

variable (loc : Location)

/-- The boundary of a plan after a base, before the end is looked at. -/
def resetBoundary (base : Int) (plan : SubscriptionPlan) : Option Int :=
  let c := loc.civil base
  match plan.quotaResetPeriod with
  | .never => none
  | .daily => some (loc.addDate (loc.date { c with clock := 0 }) 0 1)
  | .weekly =>
    -- Monday is 1 and Sunday 7.
    let weekday := if loc.weekday base = 0 then 7 else loc.weekday base
    some (loc.addDate (loc.date { c with clock := 0 }) 0 (8 - weekday))
  | .monthly => some (loc.addDate (loc.date { c with day := 1, clock := 0 }) 1 0)
  | .custom =>
    if plan.quotaResetCustomSeconds ≤ 0 then none
    else some (base + durationSeconds (plan.quotaResetCustomSeconds * 1000000000))

/-- `calcNextResetTime`. -/
def calcNextResetTime (base : Int) (plan : SubscriptionPlan) (endUnix : Int) : Int :=
  match resetBoundary loc base plan with
  | none => 0
  | some next => if 0 < endUnix ∧ endUnix < next then 0 else next

/-- `calcPlanEndTime`. -/
def calcPlanEndTime (start : Int) (plan : SubscriptionPlan) : Except String Int :=
  if plan.durationValue ≤ 0 ∧ plan.durationUnit ≠ .custom then .error "duration_value must be > 0"
  else match plan.durationUnit with
    | .year => .ok (loc.addDate start (12 * plan.durationValue) 0)
    | .month => .ok (loc.addDate start plan.durationValue 0)
    | .day => .ok (start + durationSeconds (plan.durationValue * 86400000000000))
    | .hour => .ok (start + durationSeconds (plan.durationValue * 3600000000000))
    | .custom =>
      if plan.customSeconds ≤ 0 then .error "custom_seconds must be > 0"
      else .ok (start + durationSeconds (plan.customSeconds * 1000000000))
    | .other text => .error s!"invalid duration_unit: {text}"

/-! ## Schedules that climb -/

def Climbs (next : Int → Int) : Prop := ∀ base, next base = 0 ∨ base < next base

end NewApi
