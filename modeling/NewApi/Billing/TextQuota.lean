import Mathlib.Data.Rat.Floor

/-!
# The quota of a text request

`PostTextConsumeQuota` computes the quota of a request, adds it to the counters, settles the
billing and writes the log. A tiered expression puts its own quota in the place of the first
one, and the counters are skipped if there are neither tokens nor surcharges nor a price per
request. So a tiered price without tokens is settled and not counted.

Decimals are rational numbers. The evaluation of the expression is an argument, and so is the
number of cache tokens that is guessed from the cost of OpenRouter.
-/

namespace NewApi.TextQuota

/-! ## The first quota -/

structure Usage where
  (promptTokens completionTokens cachedTokens cacheWriteTokens cachedCreationTokens : Int)
  (claudeCacheCreation5mTokens claudeCacheCreation1hTokens imageTokens audioTokens : Int)
  (usageSource usageSemantic : String)
  costGiven : Bool

structure PriceData where
  usePrice : Bool
  (modelPrice modelRatio completionRatio cacheRatio imageRatio cacheCreationRatio : ℚ)
  (cacheCreation5mRatio cacheCreation1hRatio groupRatio : ℚ)
  otherRatios : List ℚ

inductive BillingUnit where
  | token
  | request
deriving DecidableEq

/-- What `ComputeTieredQuotaWithRequest` returns. -/
structure TieredResult where
  actualQuotaBeforeGroup : ℚ
  actualQuotaAfterGroup : Int
  billingUnit : BillingUnit

structure TieredSnapshot where
  /-- The mode is `tiered_expr`. -/
  tieredExpr : Bool
  groupRatio : ℚ
  estimatedQuotaAfterGroup : Int
  estimatedBillingUnit : BillingUnit
  usesFixedPricing : Bool

structure RelayInfo where
  priceData : PriceData
  estimatePromptTokens : Int
  (claudeFormat openRouter hasCustomModelRatio : Bool)
  maybeCacheCreationTokens : Int
  toolCalls : List (Int × ℚ)
  (audioInputPrice quotaPerUnit : ℚ)
  finalPreConsumedQuota : Int
  tieredBillingSnapshot : Option TieredSnapshot
  /-- The evaluation of the expression on a usage, `none` if it fails. -/
  evaluate : Usage → Option TieredResult

structure Summary where
  (totalTokens promptTokens completionTokens : Int)
  toolCallSurchargeQuota : ℚ
  quota : Int
  fixedPriceBilling : Bool

variable (s : Summary)

def Summary.hasBillableUsage : Bool :=
  s.fixedPriceBilling || s.totalTokens > 0 || s.toolCallSurchargeQuota ≠ 0

/-- `QuotaFromDecimalChecked`: half away from zero, within 32 bits. -/
def quotaFromDecimal (d : ℚ) : Int :=
  let rounded := if 0 ≤ d then ⌊d + 1 / 2⌋ else ⌈d - 1 / 2⌉
  max (-2147483648) (min 2147483647 rounded)

def PriceData.applyOtherRatios (p : PriceData) (value : ℚ) : ℚ :=
  p.otherRatios.foldl (fun v ratio => if 0 < ratio ∧ ratio ≠ 1 then v * ratio else v) value

variable (info : RelayInfo)

/-- `calculateTextToolCallSurcharge`. -/
def RelayInfo.toolCallSurcharge : ℚ :=
  ((info.toolCalls.filter fun item => 0 < item.1 && 0 < item.2).map fun item =>
    item.2 * item.1 / 1000 * info.priceData.groupRatio * info.quotaPerUnit).sum

/-- The usage that is billed if the upstream gives none. -/
def RelayInfo.estimatedUsage : Usage :=
  ⟨info.estimatePromptTokens, 0, 0, 0, 0, 0, 0, 0, 0, "", "", false⟩

variable (usage : Option Usage)

def RelayInfo.isClaudeUsageSemantic : Bool :=
  match usage with
  | some usage =>
    if usage.usageSemantic ≠ "" then usage.usageSemantic = "anthropic" else info.claudeFormat
  | none => info.claudeFormat

/-- The prompt and cache creation tokens that are priced. -/
def RelayInfo.pricedTokens (claude : Bool) (usage : Usage) : Int × Int :=
  let creation := max 0 (max usage.cacheWriteTokens usage.cachedCreationTokens)
  if info.openRouter && claude then
    let prompt := usage.promptTokens - usage.cachedTokens
    let creation :=
      if creation = 0 && info.priceData.cacheCreationRatio ≠ 1 && usage.costGiven &&
          !(info.priceData.usePrice || info.hasCustomModelRatio) &&
          info.maybeCacheCreationTokens ≥ 0 && prompt ≥ info.maybeCacheCreationTokens
      then info.maybeCacheCreationTokens else creation
    (prompt - creation, creation)
  else (usage.promptTokens, creation)

/-- The price by tokens, before it is rounded. -/
def RelayInfo.ratioQuota (claude legacy : Bool) (usage : Usage) : ℚ :=
  let p := info.priceData
  let (prompt, creation) := info.pricedTokens claude usage
  let split5m := usage.claudeCacheCreation5mTokens
  let split1h := usage.claudeCacheCreation1hTokens
  let separate := !claude && !legacy
  let creationPriced := creation ≠ 0 || split5m > 0 || split1h > 0
  let audioPriced := usage.audioTokens ≠ 0 && info.audioInputPrice > 0
  let base : Int := prompt - (if separate then usage.cachedTokens else 0) -
    (if creationPriced && separate then creation else 0) - usage.imageTokens -
    (if audioPriced then usage.audioTokens else 0)
  let creationQuota : ℚ :=
    if !creationPriced then 0
    else if separate then creation * p.cacheCreationRatio
    else max 0 (creation - split5m - split1h) * p.cacheCreationRatio +
      split5m * p.cacheCreation5mRatio + split1h * p.cacheCreation1hRatio
  let audio : ℚ :=
    if audioPriced then
      info.audioInputPrice / 1000000 * usage.audioTokens * p.groupRatio * info.quotaPerUnit
    else 0
  let tokens : ℚ := max 0 base + usage.cachedTokens * p.cacheRatio +
    usage.imageTokens * p.imageRatio + creationQuota + usage.completionTokens * p.completionRatio
  p.applyOtherRatios (tokens * (p.modelRatio * p.groupRatio) + audio) + info.toolCallSurcharge

/-- The quota before it is rounded. -/
def RelayInfo.exactQuota : ℚ :=
  let legacy := match usage with
    | some usage => !info.claudeFormat && usage.usageSource = "" && usage.usageSemantic = "" &&
        (usage.claudeCacheCreation5mTokens > 0 || usage.claudeCacheCreation1hTokens > 0)
    | none => false
  let p := info.priceData
  if p.usePrice then
    p.applyOtherRatios (p.modelPrice * info.quotaPerUnit * p.groupRatio) + info.toolCallSurcharge
  else
    let quota := info.ratioQuota (info.isClaudeUsageSemantic usage) legacy
      (usage.getD info.estimatedUsage)
    if p.modelRatio * p.groupRatio ≠ 0 ∧ quota ≤ 0 then 1 else quota

/-- Nothing if nothing can be billed, and otherwise at least 1 unless the ratio is 0. -/
def Summary.atLeastOne (ratio : ℚ) : Summary :=
  if !s.hasBillableUsage then { s with quota := 0 }
  else if ratio ≠ 0 ∧ s.quota = 0 then { s with quota := 1 }
  else s

def calculateTextQuotaSummary : Summary :=
  let billed := usage.getD info.estimatedUsage
  let summary : Summary :=
    { totalTokens := billed.promptTokens + billed.completionTokens
      promptTokens := (info.pricedTokens (info.isClaudeUsageSemantic usage) billed).1
      completionTokens := billed.completionTokens
      toolCallSurchargeQuota := info.toolCallSurcharge
      quota := quotaFromDecimal (info.exactQuota usage)
      fixedPriceBilling := false }
  summary.atLeastOne (info.priceData.modelRatio * info.priceData.groupRatio)

/-! ## Tiered expressions -/

/-- `TryTieredSettle`, `none` if the request is not billed by an expression. -/
def RelayInfo.tryTieredSettle (usage : Usage) : Option (Int × Option TieredResult) :=
  match info.tieredBillingSnapshot with
  | some snap =>
    if !snap.tieredExpr then none
    else
      match info.evaluate usage with
      | some result => some (result.actualQuotaAfterGroup, some result)
      | none =>
        -- A failed evaluation keeps the reservation.
        some (if info.finalPreConsumedQuota ≤ 0 then snap.estimatedQuotaAfterGroup
          else info.finalPreConsumedQuota, none)
  | none => none

def RelayInfo.composeTieredTextQuota (summary : Summary) (tieredQuota : Int)
    (result : Option TieredResult) : Int :=
  if summary.toolCallSurchargeQuota = 0 then tieredQuota
  else
    match result, info.tieredBillingSnapshot with
    | some result, some snap =>
      quotaFromDecimal (result.actualQuotaBeforeGroup * snap.groupRatio +
        summary.toolCallSurchargeQuota)
    | _, _ => quotaFromDecimal (tieredQuota + summary.toolCallSurchargeQuota)

def RelayInfo.isFixedPriceSettlement (result : Option TieredResult) : Bool :=
  match result with
  | some result => result.billingUnit = .request
  | none =>
    match info.tieredBillingSnapshot with
    | some snap => snap.tieredExpr && snap.estimatedBillingUnit = .request
    | none => false

/-- The usage that an expression is evaluated on. -/
def RelayInfo.tieredUsage : Option Usage :=
  match usage, info.tieredBillingSnapshot with
  | some usage, _ => some usage
  | none, some snap => if snap.usesFixedPricing then some info.estimatedUsage else none
  | none, none => none

def RelayInfo.settlement : Option (Int × Option TieredResult) :=
  (info.tieredUsage usage).bind info.tryTieredSettle

/-- What a call adds to the counters, settles and logs. -/
structure Consumption where
  (userUsedQuota channelUsedQuota settled logged : Int)

def postTextConsumeQuota : Consumption :=
  let summary := calculateTextQuotaSummary info usage
  let summary :=
    match info.settlement usage with
    | some (tieredQuota, result) =>
      { summary with
        quota := info.composeTieredTextQuota summary tieredQuota result
        fixedPriceBilling := info.isFixedPriceSettlement result }
    | none => summary
  let counted := if summary.hasBillableUsage then summary.quota else 0
  ⟨counted, counted, summary.quota, summary.quota⟩

/-! ## The counters -/

/-- The counters and the log have the settled amount. -/
structure Consumption.Agrees (c : Consumption) : Prop where
  user : c.userUsedQuota = c.settled
  channel : c.channelUsedQuota = c.settled
  log : c.logged = c.settled

/-- There are tokens or surcharges, or the price is one per request, or the expression gives
nothing. -/
def RelayInfo.Countable : Prop :=
  0 < (usage.getD info.estimatedUsage).promptTokens +
      (usage.getD info.estimatedUsage).completionTokens ∨
    info.toolCallSurcharge ≠ 0 ∨
    ∀ settled ∈ info.settlement usage, info.isFixedPriceSettlement settled.2 = true ∨ settled.1 = 0

theorem Summary.atLeastOne_frame (ratio : ℚ) :
    (s.atLeastOne ratio).totalTokens = s.totalTokens ∧
      (s.atLeastOne ratio).toolCallSurchargeQuota = s.toolCallSurchargeQuota ∧
      (s.atLeastOne ratio).fixedPriceBilling = s.fixedPriceBilling := by
  unfold Summary.atLeastOne
  split
  · exact ⟨rfl, rfl, rfl⟩
  · split <;> exact ⟨rfl, rfl, rfl⟩

theorem Summary.atLeastOne_quota {s : Summary} {ratio : ℚ}
    (h : (s.atLeastOne ratio).hasBillableUsage = false) : (s.atLeastOne ratio).quota = 0 := by
  have hsame : (s.atLeastOne ratio).hasBillableUsage = s.hasBillableUsage := by
    obtain ⟨htotal, hsurcharge, hfixed⟩ := s.atLeastOne_frame ratio
    rw [Summary.hasBillableUsage, htotal, hsurcharge, hfixed]
    rfl
  rw [hsame] at h
  rw [Summary.atLeastOne, h]
  rfl

section

variable (info : RelayInfo) (usage : Option Usage)

end

def plainUsage (promptTokens completionTokens : Int) : Usage :=
  ⟨promptTokens, completionTokens, 0, 0, 0, 0, 0, 0, 0, "", "", false⟩

/-- A request that is billed by an expression with the price 7. -/
def constantPrice : RelayInfo where
  priceData := ⟨false, 0, 1, 1, 1, 1, 1, 1, 1, 1, []⟩
  estimatePromptTokens := 0
  claudeFormat := false
  openRouter := false
  hasCustomModelRatio := false
  maybeCacheCreationTokens := 0
  toolCalls := []
  audioInputPrice := 0
  quotaPerUnit := 500000
  finalPreConsumedQuota := 0
  tieredBillingSnapshot := some ⟨true, 1, 7, .token, false⟩
  evaluate _ := some ⟨7, 7, .token⟩

end NewApi.TextQuota
