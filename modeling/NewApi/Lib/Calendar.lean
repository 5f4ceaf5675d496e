import Mathlib.Algebra.Order.Ring.Int
import Mathlib.Order.SuccPred.Basic

/-!
# Calendar arithmetic

Times are seconds since 1970-01-01 00:00 UTC and days are counted from that day. A month is
twelve times the year plus the month counted from 0.

A location gives for every time its zone: the offset from UTC and the range of times the zone is
in force for. `date` turns a local date and clock into a time with one lookup at the local
reading and a second one when the first zone does not cover the result. A local reading that a
transition skips is therefore moved, possibly to before the transition.
-/

namespace Calendar

/-! ## Days and months -/

def leap (year : Int) : Bool := year % 4 = 0 ∧ (year % 100 ≠ 0 ∨ year % 400 = 0)

def yearStart (year : Int) : Int :=
  365 * (year - 1970) + (year - 1969) / 4 - (year - 1901) / 100 + (year - 1601) / 400

/-- The days of a year before a month, counted from 0. -/
def daysBefore (isLeap : Bool) (month : Int) : Int :=
  let shift := if isLeap then 1 else 0
  if month ≤ 0 then 0
  else if month = 1 then 31
  else if month = 2 then 59 + shift
  else if month = 3 then 90 + shift
  else if month = 4 then 120 + shift
  else if month = 5 then 151 + shift
  else if month = 6 then 181 + shift
  else if month = 7 then 212 + shift
  else if month = 8 then 243 + shift
  else if month = 9 then 273 + shift
  else if month = 10 then 304 + shift
  else 334 + shift

/-- The day number of the first day of a month. -/
def monthStart (month : Int) : Int :=
  yearStart (month / 12) + daysBefore (leap (month / 12)) (month % 12)

def monthOf (day : Int) : Int :=
  let month := 23640 + day * 4800 / 146097
  if day < monthStart month then month - 1
  else if monthStart (month + 1) ≤ day then month + 1
  else month

theorem yearStart_succ (year : Int) :
    yearStart (year + 1) = yearStart year + 365 + if leap year then 1 else 0 := by
  have h4 : (year + 1 - 1969) / 4 = (year - 1969) / 4 + if year % 4 = 0 then 1 else 0 := by
    split <;> omega
  have h100 : (year + 1 - 1901) / 100 = (year - 1901) / 100 + if year % 100 = 0 then 1 else 0 := by
    split <;> omega
  have h400 : (year + 1 - 1601) / 400 = (year - 1601) / 400 + if year % 400 = 0 then 1 else 0 := by
    split <;> omega
  have hcentury : year % 400 = 0 → year % 100 = 0 := by omega
  have hfour : year % 100 = 0 → year % 4 = 0 := by omega
  simp only [yearStart, leap, h4, h100, h400]
  by_cases c400 : year % 400 = 0
  · simp [c400, hcentury c400, hfour (hcentury c400)]
    omega
  by_cases c100 : year % 100 = 0
  · simp [c400, c100, hfour c100]
    omega
  by_cases c4 : year % 4 = 0 <;> simp [c400, c100, c4]
  · omega
  · omega

theorem monthStart_succ (month : Int) :
    monthStart month + 28 ≤ monthStart (month + 1) ∧
      monthStart (month + 1) ≤ monthStart month + 31 := by
  have hr : 0 ≤ month % 12 ∧ month % 12 < 12 := by omega
  rcases (by omega : month % 12 = 11 ∨ month % 12 < 11) with h | h
  · have hdiv : (month + 1) / 12 = month / 12 + 1 := by omega
    have hmod : (month + 1) % 12 = 0 := by omega
    rw [monthStart, monthStart, hdiv, hmod, h, yearStart_succ]
    cases leap (month / 12) <;> simp [daysBefore] <;> omega
  · have hdiv : (month + 1) / 12 = month / 12 := by omega
    have hmod : (month + 1) % 12 = month % 12 + 1 := by omega
    rw [monthStart, monthStart, hdiv, hmod]
    generalize month % 12 = r at hr h ⊢
    have hcases : r = 0 ∨ r = 1 ∨ r = 2 ∨ r = 3 ∨ r = 4 ∨ r = 5 ∨ r = 6 ∨ r = 7 ∨ r = 8 ∨ r = 9 ∨
      r = 10 := by omega
    rcases hcases with rfl | rfl | rfl | rfl | rfl | rfl | rfl | rfl | rfl | rfl | rfl <;>
      cases leap (month / 12) <;> simp [daysBefore] <;> omega

theorem monthStart_lt_iff {month month' : Int} :
    monthStart month < monthStart month' ↔ month < month' := by
  refine StrictMono.lt_iff_lt (strictMono_int_of_lt_succ fun month => ?_)
  have := monthStart_succ month
  omega

theorem monthStart_near (month : Int) :
    146097 * (month - 23640) - 4800 * 4 ≤ 4800 * monthStart month ∧
      4800 * monthStart month ≤ 146097 * (month - 23640) + 4800 * 4 := by
  have hr : 0 ≤ month % 12 ∧ month % 12 < 12 := by omega
  have hm : month = 12 * (month / 12) + month % 12 := by omega
  rw [monthStart, yearStart]
  generalize month / 12 = y at hm ⊢
  generalize month % 12 = r at hr hm ⊢
  have hcases : r = 0 ∨ r = 1 ∨ r = 2 ∨ r = 3 ∨ r = 4 ∨ r = 5 ∨ r = 6 ∨ r = 7 ∨ r = 8 ∨ r = 9 ∨
    r = 10 ∨ r = 11 := by omega
  rcases hcases with rfl | rfl | rfl | rfl | rfl | rfl | rfl | rfl | rfl | rfl | rfl | rfl <;>
    cases leap y <;> simp [daysBefore] <;> omega

theorem monthStart_monthOf (day : Int) :
    monthStart (monthOf day) ≤ day ∧ day < monthStart (monthOf day + 1) := by
  rw [monthOf]
  generalize hm : 23640 + day * 4800 / 146097 = m
  have hlow := monthStart_near (m - 1)
  have hhigh := monthStart_near (m + 2)
  split
  next h =>
    rw [Int.sub_add_cancel]
    omega
  next =>
  split
  next h =>
    rw [show m + 1 + 1 = m + 2 by omega]
    omega
  next => omega

theorem monthOf_monthStart (month : Int) : monthOf (monthStart month) = month := by
  obtain ⟨hle, hlt⟩ := monthStart_monthOf (monthStart month)
  have hle := not_lt.mp (mt monthStart_lt_iff.mpr (not_lt.mpr hle))
  have hlt := monthStart_lt_iff.mp hlt
  omega

/-! ## Locations -/

/-- A zone: seconds east of UTC, in force from `start` up to before `stop`. -/
structure Zone where
  (offset start stop : Int)
deriving DecidableEq

/-- Where local time is read: the zone of every time. -/
structure Location where
  lookup : Int → Zone

/-- A local date and clock: the month, the day of the month and the seconds of
the day. -/
structure Civil where
  (month day clock : Int)
deriving DecidableEq

namespace Location

def dayNumber (loc : Location) (time : Int) : Int := (time + (loc.lookup time).offset) / 86400

def civil (loc : Location) (time : Int) : Civil where
  month := monthOf (loc.dayNumber time)
  day := loc.dayNumber time - monthStart (monthOf (loc.dayNumber time)) + 1
  clock := (time + (loc.lookup time).offset) % 86400

def weekday (loc : Location) (time : Int) : Int := (loc.dayNumber time + 4) % 7

/-- The time of a local reading. Days beyond the month carry over. -/
def date (loc : Location) (c : Civil) : Int :=
  let unix := (monthStart c.month + c.day - 1) * 86400 + c.clock
  let zone := loc.lookup unix
  let utc := unix - zone.offset
  if zone.start ≤ utc ∧ utc < zone.stop then utc else unix - (loc.lookup utc).offset

/-- The time with months and days added to its local reading. -/
def addDate (loc : Location) (time months days : Int) : Int :=
  let c := loc.civil time
  loc.date { c with month := c.month + months, day := c.day + days }

/-- The location with one offset for all times. -/
def fixed (offset : Int) : Location where
  lookup _ := ⟨offset, 0, 0⟩

/-! ## Midnights -/

/-- What a local clock shows at a time, in seconds. -/
def reading (loc : Location) (time : Int) : Int := time + (loc.lookup time).offset

/-- The zones are those of a place: in force over their ranges, at most a day from UTC, and
changed at most once in two days. -/
structure Regular (loc : Location) : Prop where
  range : ∀ time x, (loc.lookup time).start ≤ x → x < (loc.lookup time).stop →
    loc.lookup x = loc.lookup time
  bounded : ∀ time, -86400 ≤ (loc.lookup time).offset ∧ (loc.lookup time).offset ≤ 86400
  sparse : ∀ x y z, x ≤ y → y ≤ z → z ≤ x + 172800 →
    loc.lookup x = loc.lookup y ∨ loc.lookup y = loc.lookup z

/-- The clock shows the reading once, and later readings from then on. -/
def PassesOnce (loc : Location) (u : Int) : Prop :=
  ∃ t, loc.reading t = u ∧ ∀ x, t ≤ x ↔ u ≤ loc.reading x

variable {loc : Location} {c : Civil} {day t : Int}

theorem Regular.reading_date (h : loc.Regular)
    (ht : loc.reading t = (monthStart c.month + c.day - 1) * 86400 + c.clock) :
    loc.reading (loc.date c) = (monthStart c.month + c.day - 1) * 86400 + c.clock := by
  unfold date
  dsimp only
  generalize (monthStart c.month + c.day - 1) * 86400 + c.clock = u at ht ⊢
  set utc := u - (loc.lookup u).offset with hutc
  split
  next hrange =>
    rw [reading, h.range u utc hrange.1 hrange.2]
    omega
  next =>
  by_cases hsame : loc.lookup utc = loc.lookup u
  · rw [hsame, ← hutc, reading, hsame]
    omega
  -- the zone of the looked up reading is not the one of its time, and there is one other zone
  have hother : loc.lookup t ≠ loc.lookup u := by
    intro heq
    rw [reading, heq] at ht
    exact hsame (by rw [show utc = t by omega, heq])
  have hone : loc.lookup utc = loc.lookup t := by
    have hu := h.bounded u
    have hbt := h.bounded t
    unfold reading at ht
    have hs := h.sparse
    rcases le_total u utc with h1 | h1 <;> rcases le_total u t with h2 | h2 <;>
      rcases le_total utc t with h3 | h3
    all_goals grind
  rw [hone, show u - (loc.lookup t).offset = t by unfold reading at ht; omega]
  exact ht

theorem Regular.midnight (h : loc.Regular) (hpass : loc.PassesOnce (day * 86400))
    (hc : monthStart c.month + c.day - 1 = day) (hclock : c.clock = 0) :
    loc.reading (loc.date c) = day * 86400 ∧ ∀ x, loc.dayNumber x < day → x < loc.date c := by
  obtain ⟨t, ht, hafter⟩ := hpass
  have hdate : loc.reading (loc.date c) = day * 86400 := by
    have := h.reading_date (c := c) (t := t) (by rw [ht, hc, hclock, Int.add_zero])
    rw [this, hc, hclock, Int.add_zero]
  refine ⟨hdate, fun x hx => ?_⟩
  have hle := (hafter (loc.date c)).mpr hdate.ge
  have hlt : x < t := by
    rw [← not_le, hafter, reading]
    unfold dayNumber at hx
    omega
  omega

/-- A midnight that is passed once is behind every later time. -/
theorem PassesOnce.le_dayNumber (h : loc.PassesOnce (day * 86400)) {start base : Int}
    (hday : day ≤ loc.dayNumber start) (hle : start ≤ base) : day ≤ loc.dayNumber base := by
  obtain ⟨t, -, hafter⟩ := h
  unfold dayNumber at hday ⊢
  have hstart := (hafter start).mpr (by unfold reading; omega)
  have hbase := (hafter base).mp (hstart.trans hle)
  unfold reading at hbase
  omega

theorem civil_midnight (h : loc.reading t = day * 86400) :
    loc.civil t = ⟨monthOf day, day - monthStart (monthOf day) + 1, 0⟩ := by
  unfold reading at h
  have hday : loc.dayNumber t = day := by
    unfold dayNumber
    omega
  simp only [civil, hday, Civil.mk.injEq, true_and]
  omega

end Location

end Calendar
