import Mathlib.Data.Rat.Floor
import NewApi.Lib.Runs
import NewApi.Lib.Table
import NewApi.Lib.Text

/-!
# The price of a task

`ResolveOriginTask` runs once, before the attempts, and puts the ratios of the task that is
remixed on the price of the submission. Every attempt of `RelayTaskSubmit` then builds the price
anew, adds what the adaptor estimates and charges the result if nothing was charged before.

The new price has no ratios, so those of the origin do not reach the charge.
`remix_price` says when that makes no difference: the adaptor estimates every ratio of the origin
itself.

Numbers are rational. A ratio that is infinite or not a number is dropped like one that is not
positive. An attempt goes up to the charge, and what comes after it does not change the price
unless the upstream has accepted the task.
-/

namespace NewApi.TaskPrice

/-! ## Ratios -/

/-- A map from the names of ratios, in the order it is iterated. -/
abbrev Ratios := Table (Prod.fst : String × ℚ → String)

def isValidOtherRatio (ratio : ℚ) : Bool := 0 < ratio

structure PriceData where
  freeModel : Bool := false
  modelPrice : ℚ := 0
  modelRatio : ℚ := 0
  usePrice : Bool := false
  quota : Int := 0
  groupRatio : ℚ := 0
  otherRatios : Ratios := Table.empty
deriving DecidableEq

def PriceData.addOtherRatio (p : PriceData) (entry : String × ℚ) : PriceData :=
  if isValidOtherRatio entry.2 then { p with otherRatios := p.otherRatios.put entry } else p

/-- The loop that adds every entry of a map. -/
def PriceData.addOtherRatios (p : PriceData) (ratios : Ratios) : PriceData :=
  ratios.rows.foldl PriceData.addOtherRatio p

def factor (entry : String × ℚ) : ℚ :=
  if isValidOtherRatio entry.2 && entry.2 ≠ 1 then entry.2 else 1

def PriceData.otherRatioMultiplier (p : PriceData) : ℚ := (p.otherRatios.rows.map factor).prod

/-- What a map gives for a name if only its valid ratios count. -/
def valid (ratios : Ratios) (name : String) : Option (String × ℚ) :=
  (ratios.find name).filter fun entry => isValidOtherRatio entry.2

/-! ## Conversion -/

/-- `QuotaFromFloatChecked`: toward zero, within 32 bits. -/
def quotaFromFloat (value : ℚ) : Int :=
  if value > 2147483647 then 2147483647
  else if value < -2147483648 then -2147483648
  else value.num.tdiv value.den

theorem quotaFromFloat_zero : quotaFromFloat 0 = 0 := by decide

inductive PriceError where
  | notConfigured
  | clamped
deriving DecidableEq

def quotaFromFloatStrict (value : ℚ) : Except PriceError Int :=
  if value > 2147483647 ∨ value < -2147483648 then .error .clamped else .ok (quotaFromFloat value)

/-! ## The submission -/

/-- The task that is remixed: its billing context, or the texts in the data of an older one. -/
inductive Origin where
  | billingContext (otherRatios : Ratios)
  | legacy (seconds size : String)

/-- `strconv.Atoi` without the error. -/
def atoi (text : String) : Int :=
  match text.toList with
  | '-' :: digits => max (-9223372036854775808) (-(((Text.parseDigits digits).getD 0 : Nat) : Int))
  | '+' :: digits => min 9223372036854775807 ((Text.parseDigits digits).getD 0 : Nat)
  | digits => min 9223372036854775807 ((Text.parseDigits digits).getD 0 : Nat)

def legacySeconds (text : String) : Int :=
  let seconds := if atoi text ≤ 0 then 4 else atoi text
  if seconds > 3600 then 3600 else seconds

/-- The ratios of the origin. -/
def Origin.ratios : Origin → Ratios
  | .billingContext otherRatios => otherRatios
  | .legacy seconds size =>
    let size := if size = "1792x1024" ∨ size = "1024x1792" then 1666667 / 1000000 else 1
    (Table.empty.put ("seconds", (legacySeconds seconds : ℚ))).put ("size", size)

structure RelayInfo where
  priceData : PriceData := {}
  /-- The quota that was charged in advance. -/
  billing : Option Int := none

variable (origin : Origin)

/-- `ResolveOriginTask` on a remix. -/
def resolveOriginTask (info : RelayInfo) : RelayInfo :=
  { info with priceData := info.priceData.addOtherRatios origin.ratios }

/-- What an attempt finds: the settings for the model and the group, the answer of the adaptor
and whether the charge is refused. -/
structure Attempt where
  groupRatio : ℚ
  modelPrice : Option ℚ
  defaultModelPrice : Option ℚ
  modelRatio : Option ℚ
  (selfUseModeEnabled acceptUnsetRatioModel : Bool)
  quotaPerUnit : ℚ
  enableFreeModelPreConsume : Bool
  /-- The model is one of `TaskPricePatches`. -/
  patched : Bool
  estimateBilling : Except String Ratios
  preConsumeBilling : Except String Unit

/-- The price of a model per call, free if it or the group costs nothing. -/
def Attempt.priced (a : Attempt) (base unit modelPrice modelRatio : ℚ) (usePrice : Bool) :
    Except PriceError PriceData := do
  let quota ← quotaFromFloatStrict (unit * a.quotaPerUnit * a.groupRatio)
  let free := !a.enableFreeModelPreConsume && (a.groupRatio = 0 || base = 0)
  return { freeModel := free, modelPrice, modelRatio, usePrice, groupRatio := a.groupRatio,
           quota := if free then 0 else quota }

def Attempt.modelPriceHelperPerCall (a : Attempt) : Except PriceError PriceData :=
  match a.modelPrice.or a.defaultModelPrice with
  | some price => a.priced price price price 0 true
  | none =>
    if a.modelRatio.isNone && !a.selfUseModeEnabled && !a.acceptUnsetRatioModel then
      .error .notConfigured
    else
      let ratio := a.modelRatio.getD (75 / 2)
      a.priced ratio (ratio / 2) (-1) ratio false

/-- `RelayTaskSubmit` on a model without a tiered expression, up to the charge. -/
def relayTaskSubmit (info : RelayInfo) (a : Attempt) : RelayInfo × Except String Unit :=
  match a.modelPriceHelperPerCall with
  | .error _ => (info, .error "model_price_error")
  | .ok priceData =>
    match a.estimateBilling with
    | .error _ => ({ info with priceData }, .error "plugin_usage_invalid")
    | .ok estimated =>
      let merged := priceData.addOtherRatios estimated
      let quota := quotaFromFloat (merged.quota * merged.otherRatioMultiplier)
      let merged := if a.patched then merged else { merged with quota }
      if info.billing.isNone && !merged.freeModel then
        match a.preConsumeBilling with
        | .error code => ({ info with priceData := merged }, .error code)
        | .ok _ => (⟨merged, some merged.quota⟩, .ok ())
      else ({ info with priceData := merged }, .ok ())

/-- The attempts that came before. -/
def attempts (info : RelayInfo) (as : List Attempt) : RelayInfo :=
  Runs.run (fun info a => (relayTaskSubmit info a).1) info as

/-! ## What an attempt leaves -/

variable {p : PriceData} {ratios : Ratios} {name : String} {a : Attempt} {info : RelayInfo}

theorem find_addOtherRatio (p : PriceData) (entry : String × ℚ) (name : String) :
    (p.addOtherRatio entry).otherRatios.find name =
      if entry.1 = name ∧ isValidOtherRatio entry.2 then some entry
      else p.otherRatios.find name := by
  rw [PriceData.addOtherRatio]
  split
  · next h => simp [Table.find_put, h]
  · next h => simp [h]

theorem find_foldl_addOtherRatio {rows : List (String × ℚ)} (hnodup : (rows.map Prod.fst).Nodup) :
    (rows.foldl PriceData.addOtherRatio p).otherRatios.find name =
      ((rows.find? fun entry => entry.1 = name).filter fun entry => isValidOtherRatio entry.2).or
        (p.otherRatios.find name) := by
  induction rows generalizing p with
  | nil => rfl
  | cons entry rows ih =>
    rw [List.map_cons, List.nodup_cons] at hnodup
    rw [List.foldl_cons, ih hnodup.2, find_addOtherRatio]
    by_cases hname : entry.1 = name
    · -- No later entry has the name.
      have hnone : rows.find? (fun entry => entry.1 = name) = none := by
        refine List.find?_eq_none.mpr fun other hother => ?_
        have : other.1 ≠ entry.1 := fun h => hnodup.1 (h ▸ List.mem_map_of_mem hother)
        simpa [← hname] using this
      cases hvalid : isValidOtherRatio entry.2 <;> simp [hname, hnone, hvalid, Option.filter]
    · simp [hname]

theorem find_addOtherRatios (p : PriceData) (ratios : Ratios) (name : String) :
    (p.addOtherRatios ratios).otherRatios.find name =
      (valid ratios name).or (p.otherRatios.find name) :=
  find_foldl_addOtherRatio ratios.nodup

theorem addOtherRatios_frame (p : PriceData) (ratios : Ratios) :
    (p.addOtherRatios ratios).quota = p.quota ∧
      (p.addOtherRatios ratios).freeModel = p.freeModel := by
  refine List.foldlRecOn ratios.rows PriceData.addOtherRatio
    (motive := fun q => q.quota = p.quota ∧ q.freeModel = p.freeModel) ⟨rfl, rfl⟩ ?_
  intro q hq entry _
  rw [PriceData.addOtherRatio]
  split <;> exact hq

theorem otherRatioMultiplier_congr {q : PriceData}
    (h : ∀ name, p.otherRatios.find name = q.otherRatios.find name) :
    p.otherRatioMultiplier = q.otherRatioMultiplier :=
  ((Table.rows_perm h).map factor).prod_eq

theorem modelPriceHelperPerCall_ok (h : a.modelPriceHelperPerCall = .ok p) :
    p.otherRatios = Table.empty ∧ (p.freeModel → p.quota = 0) := by
  have hpriced : ∀ {base unit modelPrice modelRatio usePrice},
      a.priced base unit modelPrice modelRatio usePrice = .ok p →
        p.otherRatios = Table.empty ∧ (p.freeModel → p.quota = 0) := by
    intro base unit modelPrice modelRatio usePrice h
    cases hquota : quotaFromFloatStrict (unit * a.quotaPerUnit * a.groupRatio) with
    | error e => simp [Attempt.priced, hquota, bind, Except.bind] at h
    | ok quota =>
      rw [Attempt.priced, hquota] at h
      cases h
      exact ⟨rfl, fun hfree => if_pos hfree⟩
  rw [Attempt.modelPriceHelperPerCall] at h
  split at h
  · exact hpriced h
  · split at h
    · cases h
    · exact hpriced h

theorem relayTaskSubmit_ratios (hprice : a.modelPriceHelperPerCall = .ok p)
    (hestimate : a.estimateBilling = .ok ratios) :
    (relayTaskSubmit info a).1.priceData.otherRatios = (p.addOtherRatios ratios).otherRatios := by
  simp only [relayTaskSubmit, hprice, hestimate]
  repeat' split
  all_goals rfl

theorem relayTaskSubmit_billing (hprice : a.modelPriceHelperPerCall = .ok p)
    (hestimate : a.estimateBilling = .ok ratios) (hpatched : a.patched = false)
    (hbilling : info.billing = none) (haccepted : a.preConsumeBilling = .ok ()) :
    (relayTaskSubmit info a).1.billing.getD 0 =
      quotaFromFloat (p.quota * (p.addOtherRatios ratios).otherRatioMultiplier) := by
  obtain ⟨hquota, hfree⟩ := addOtherRatios_frame p ratios
  cases hmodel : p.freeModel with
  | true =>
    have hzero := (modelPriceHelperPerCall_ok hprice).2 hmodel
    simp [relayTaskSubmit, hprice, hestimate, hpatched, hbilling, hfree, hmodel, hzero,
      quotaFromFloat_zero]
  | false =>
    simp [relayTaskSubmit, hprice, hestimate, hpatched, hbilling, haccepted, hquota, hfree, hmodel]

variable (estimated : Ratios)

/-- The price of a remix, wanted: the ratios of the origin, overridden by the estimated ones. -/
def overridden : PriceData := (PriceData.addOtherRatios {} origin.ratios).addOtherRatios estimated

theorem find_overridden (name : String) :
    (overridden origin estimated).otherRatios.find name =
      (valid estimated name).or (valid origin.ratios name) := by
  rw [overridden, find_addOtherRatios, find_addOtherRatios]
  exact congrArg _ (Option.or_none)

/-- After any attempts, a remix has the ratios of its origin, overridden by the estimated ones,
and is charged for them iff the adaptor estimates each valid ratio of the origin itself. -/
theorem remix_price (origin : Origin) (before : List Attempt) (a : Attempt) (p : PriceData)
    (estimated : Ratios) (hprice : a.modelPriceHelperPerCall = .ok p)
    (hestimate : a.estimateBilling = .ok estimated) (hpatched : a.patched = false) :
    let info := attempts (resolveOriginTask origin {}) before
    let after := (relayTaskSubmit info a).1
    let wanted := overridden origin estimated
    ((∀ name, after.priceData.otherRatios.find name = wanted.otherRatios.find name) ∧
        (info.billing = none → a.preConsumeBilling = .ok () →
          after.billing.getD 0 = quotaFromFloat (p.quota * wanted.otherRatioMultiplier))) ↔
      ∀ name, (valid origin.ratios name).isSome → (valid estimated name).isSome := by
  intro info after wanted
  have hafter : ∀ name, (p.addOtherRatios estimated).otherRatios.find name =
      valid estimated name := by
    intro name
    rw [find_addOtherRatios, (modelPriceHelperPerCall_ok hprice).1]
    exact Option.or_none
  have hratios : after.priceData.otherRatios = _ := relayTaskSubmit_ratios hprice hestimate
  rw [hratios]
  refine ⟨fun ⟨heq, _⟩ name horigin => ?_, fun hcovered => ?_⟩
  · have := heq name
    rw [hafter, find_overridden] at this
    rw [this, Option.isSome_or, horigin, Bool.or_true]
  · have heq : ∀ name, (p.addOtherRatios estimated).otherRatios.find name =
        wanted.otherRatios.find name := by
      intro name
      rw [hafter, find_overridden]
      cases hvalid : valid estimated name with
      | some entry => rfl
      | none =>
        have hnone : valid origin.ratios name = none := by
          refine Option.not_isSome_iff_eq_none.mp fun h => ?_
          simpa [hvalid] using hcovered name h
        simp [hnone]
    refine ⟨heq, fun hbilling haccepted => ?_⟩
    rw [← otherRatioMultiplier_congr heq]
    exact relayTaskSubmit_billing hprice hestimate hpatched hbilling haccepted

/-- An attempt in which a call costs one unit. -/
def secondsAttempt : Attempt :=
  ⟨1, some 1, none, none, false, false, 500000, false, false, .ok estimated, .ok ()⟩

def eightSeconds : Ratios := Table.empty.put ("seconds", 8)

theorem remix_price_eight_seconds :
    let wanted := overridden (.billingContext eightSeconds) eightSeconds
    (relayTaskSubmit (resolveOriginTask (.billingContext eightSeconds) {})
        (secondsAttempt eightSeconds)).1.billing.getD 0 =
      quotaFromFloat ((500000 : Int) * wanted.otherRatioMultiplier) :=
  ((remix_price (.billingContext eightSeconds) [] (secondsAttempt eightSeconds)
    { modelPrice := 1, usePrice := true, quota := 500000, groupRatio := 1 } eightSeconds
    (by decide +kernel) rfl rfl).mpr fun _ h => h).2 rfl rfl

/-- The seconds of the origin are not on the price, and one unit is charged for eight. -/
theorem remix_loses_seconds :
    let after := (relayTaskSubmit (resolveOriginTask (.billingContext eightSeconds) {})
      (secondsAttempt Table.empty)).1
    let wanted := overridden (.billingContext eightSeconds) Table.empty
    after.priceData.otherRatios.rows = [] ∧ wanted.otherRatios.rows = [("seconds", 8)] ∧
      after.billing = some 500000 ∧
      quotaFromFloat ((500000 : Int) * wanted.otherRatioMultiplier) = 4000000 := by
  decide +kernel

end NewApi.TaskPrice
