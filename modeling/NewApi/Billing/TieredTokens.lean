import NewApi.Billing.TextQuota
import NewApi.Lib.Double

/-!
# The token counts of a tiered expression

`BuildTieredTokenParams` gives the variables of an expression their values. The prompt tokens are
what is left when the categories with a variable of their own are taken away, and never negative.
The counts are doubles, integers rounded to 53 bits.

In the semantics of Anthropic the cache writes are taken from the counts for five minutes and one
hour. A usage that gives their total alone loses it: neither `len` nor any variable has it.
-/

namespace NewApi.TextQuota

/-- What kinds of tokens were cached, as far as they were reported. -/
structure CachedTokenDetails where
  (textTokens imageTokens audioTokens : Option Int)

structure TieredUsage extends Usage where
  cachedTokensDetails : Option CachedTokenDetails
  (completionImageTokens completionAudioTokens : Int)

/-- The variables of a billing expression. -/
structure TokenParams where
  (p c len cr cc cc1h img imgCR imgO ai ao : Int)

namespace TieredUsage

variable (u : TieredUsage)

def cacheCreationTokensTotal : Int := max 0 (max u.cacheWriteTokens u.cachedCreationTokens)

/-- The cache writes that are read, for five minutes and for one hour. -/
def writesRead : Int × Int :=
  if u.usageSemantic = "anthropic" then
    (u.claudeCacheCreation5mTokens, u.claudeCacheCreation1hTokens)
  else (u.cacheCreationTokensTotal, 0)

/-- The check of the cached text and audio tokens against what the images leave. -/
def fitsRemaining : Int → List (Option Int) → Bool
  | _, [] => true
  | remaining, none :: rest => fitsRemaining remaining rest
  | remaining, some count :: rest =>
    if count < 0 || remaining < count then false else fitsRemaining (remaining - count) rest

/-- The cached image tokens of a breakdown that is valid. -/
def cachedImages : Option Int := do
  let details ← u.cachedTokensDetails
  let cachedImage ← details.imageTokens
  if 0 ≤ cachedImage && cachedImage ≤ u.cachedTokens && cachedImage ≤ u.imageTokens &&
      u.cachedTokens ≤ u.promptTokens &&
      u.imageTokens ≤ u.promptTokens - (u.cachedTokens - cachedImage) &&
      fitsRemaining (u.cachedTokens - cachedImage) [details.textTokens, details.audioTokens]
  then some cachedImage else none

/-- The cached images that a variable of their own takes out of the other categories. -/
def imagesTaken (claude : Bool) (used : String → Bool) : Int :=
  if used "img_cr" && !claude then u.cachedImages.getD 0 else 0

end TieredUsage

open Double (ofInt)

/-- The count with the categories taken away that have a variable of their own. -/
def subtractUsed (used : String → Bool) (count : Int) (categories : List (String × Int)) : Int :=
  categories.foldl (fun p v => if used v.1 then ofInt (p - v.2) else p) count

def buildTieredTokenParams (u : TieredUsage) (isClaudeUsageSemantic : Bool)
    (used : String → Bool) : TokenParams :=
  let p := ofInt u.promptTokens
  let c := ofInt u.completionTokens
  let cc5m := ofInt u.writesRead.1
  let cc1h := ofInt u.writesRead.2
  let imgCR := ofInt (u.imagesTaken isClaudeUsageSemantic used)
  let cr := ofInt (ofInt u.cachedTokens - imgCR)
  let img := ofInt (ofInt u.imageTokens - imgCR)
  let ai := ofInt u.audioTokens
  let imgO := ofInt u.completionImageTokens
  let ao := ofInt u.completionAudioTokens
  let len := if isClaudeUsageSemantic then ofInt (ofInt (ofInt (p + cr) + cc5m) + cc1h) else p
  let p' :=
    if isClaudeUsageSemantic then (if used "cr" then p else ofInt (p + cr))
    else subtractUsed used p
      [("cr", cr), ("cc", cc5m), ("cc1h", cc1h), ("img", img), ("img_cr", imgCR), ("ai", ai)]
  let c' := if isClaudeUsageSemantic then c else subtractUsed used c [("img_o", imgO), ("ao", ao)]
  ⟨max 0 p', max 0 c', len, cr, cc5m, cc1h, img, imgCR, imgO, ai, ao⟩

/-! ## Taking categories away -/

/-- What the variables of an expression stand for in all. -/
def referenced (used : String → Bool) (categories : List (String × Int)) : Int :=
  ((categories.filter fun v => used v.1).map Prod.snd).sum

/-- A count that is small enough to be a double. -/
def Small (n : Int) : Prop := 0 ≤ n ∧ n < 2 ^ 53

variable {n count exact : Int} {used : String → Bool} {categories : List (String × Int)}

theorem Small.ofInt (h : Small n) : ofInt n = n := Double.ofInt_of_lt (by have := h.1; omega) h.2

theorem ofInt_neg (h : n < 0) : ofInt n < 0 := by
  by_cases hlow : -2 ^ 53 < n
  · rw [Double.ofInt_of_lt hlow (by omega)]
    exact h
  · have := Double.ofInt_le (Int.not_lt.mp hlow)
    omega

/-- The doubles follow the integers, or both are below zero. -/
def Follows (count exact : Int) : Prop := count = exact ∧ Small exact ∨ count < 0 ∧ exact < 0

theorem Follows.sub (h : Follows count exact) (hn : Small n) :
    Follows (ofInt (count - n)) (exact - n) := by
  obtain ⟨hlow, hhigh⟩ := hn
  rcases h with ⟨rfl, hsmall⟩ | ⟨hcount, hexact⟩
  · obtain ⟨hpos, hlt⟩ := hsmall
    rw [Double.ofInt_of_lt (by omega) (by omega)]
    by_cases hneg : count - n < 0
    · exact .inr ⟨hneg, hneg⟩
    · exact .inl ⟨rfl, by omega, by omega⟩
  · exact .inr ⟨ofInt_neg (by omega), by omega⟩

theorem Follows.subtractUsed (h : Follows count exact) (hsmall : ∀ v ∈ categories, Small v.2) :
    Follows (subtractUsed used count categories) (exact - referenced used categories) := by
  induction categories generalizing count exact with
  | nil => simpa [TextQuota.subtractUsed, referenced] using h
  | cons v rest ih =>
    have hrest : ∀ v ∈ rest, Small v.2 := fun v hv => hsmall v (.tail _ hv)
    rw [TextQuota.subtractUsed, List.foldl_cons, ← TextQuota.subtractUsed]
    by_cases hused : used v.1
    · have hnext := ih (h.sub (hsmall v List.mem_cons_self)) hrest
      rw [if_pos hused]
      simpa [referenced, hused, sub_sub] using hnext
    · rw [if_neg hused]
      simpa [referenced, hused] using ih h hrest

/-- What is left and what was taken away are the whole, unless more was to be taken. -/
theorem subtractUsed_balance (hcount : Small count) (hsmall : ∀ v ∈ categories, Small v.2) :
    max 0 (subtractUsed used count categories) = max 0 (count - referenced used categories) := by
  have h : Follows (subtractUsed used count categories) (count - referenced used categories) :=
    Follows.subtractUsed (.inl ⟨rfl, hcount⟩) hsmall
  rcases h with ⟨heq, -⟩ | ⟨hneg, hneg'⟩
  · rw [heq]
  · rw [max_eq_left hneg.le, max_eq_left hneg'.le]

/-! ## The counts of a usage -/

namespace TieredUsage

def counts (u : TieredUsage) : List Int :=
  [u.promptTokens, u.completionTokens, u.cachedTokens, u.cacheWriteTokens, u.cachedCreationTokens,
    u.claudeCacheCreation5mTokens, u.claudeCacheCreation1hTokens, u.imageTokens, u.audioTokens,
    u.completionImageTokens, u.completionAudioTokens]

/-- The counts are not negative, and doubles have them and their sums. -/
structure Counted (u : TieredUsage) : Prop where
  nonneg : ∀ n ∈ u.counts, 0 ≤ n
  small : u.counts.sum < 2 ^ 53

/-- The cache writes, with what is reported beyond the two parts added to the first. -/
def cacheWrites (u : TieredUsage) : Int :=
  u.claudeCacheCreation5mTokens + max 0 (u.cacheCreationTokensTotal -
    u.claudeCacheCreation5mTokens - u.claudeCacheCreation1hTokens) + u.claudeCacheCreation1hTokens

/-- The cache writes are in the counts that are read: the parts for Anthropic, or their total. -/
def Split (u : TieredUsage) : Prop :=
  if u.usageSemantic = "anthropic" then
    u.cacheCreationTokensTotal ≤ u.claudeCacheCreation5mTokens + u.claudeCacheCreation1hTokens
  else u.claudeCacheCreation5mTokens + u.claudeCacheCreation1hTokens ≤ u.cacheCreationTokensTotal

variable {u : TieredUsage}

theorem split_iff : u.writesRead.1 + u.writesRead.2 = u.cacheWrites ↔ u.Split := by
  unfold writesRead cacheWrites Split
  split <;> dsimp only <;> omega

theorem cachedImages_le {n : Int} (h : u.cachedImages = some n) :
    0 ≤ n ∧ n ≤ u.cachedTokens ∧ n ≤ u.imageTokens := by
  simp only [cachedImages, Option.bind_eq_bind, Option.bind_eq_some_iff] at h
  obtain ⟨details, -, cachedImage, -, h⟩ := h
  split at h
  next hvalid =>
    cases h
    simp only [Bool.and_eq_true, decide_eq_true_eq] at hvalid
    exact ⟨hvalid.1.1.1.1.1, hvalid.1.1.1.1.2, hvalid.1.1.1.2⟩
  next => cases h

theorem Counted.bounds (h : u.Counted) (claude : Bool) (used : String → Bool) :
    0 ≤ u.imagesTaken claude used ∧ u.imagesTaken claude used ≤ u.cachedTokens ∧
    u.imagesTaken claude used ≤ u.imageTokens ∧ 0 ≤ u.promptTokens ∧ 0 ≤ u.completionTokens ∧
    0 ≤ u.audioTokens ∧ 0 ≤ u.completionImageTokens ∧ 0 ≤ u.completionAudioTokens ∧
    0 ≤ u.writesRead.1 ∧ 0 ≤ u.writesRead.2 ∧ u.promptTokens + u.completionTokens +
      u.cachedTokens + u.imageTokens + u.audioTokens + u.completionImageTokens +
      u.completionAudioTokens + u.writesRead.1 + u.writesRead.2 < 2 ^ 53 := by
  obtain ⟨hnonneg, hsum⟩ := h
  simp only [counts, List.forall_mem_cons, List.sum_cons, List.sum_nil] at hnonneg hsum
  obtain ⟨h1, h2, h3, h4, h5, h6, h7, h8, h9, h10, h11, -⟩ := hnonneg
  have himages : 0 ≤ u.imagesTaken claude used ∧ u.imagesTaken claude used ≤ u.cachedTokens ∧
      u.imagesTaken claude used ≤ u.imageTokens := by
    unfold imagesTaken
    cases himages : u.cachedImages with
    | none => split <;> exact ⟨le_rfl, h3, h8⟩
    | some n =>
      split
      · exact cachedImages_le himages
      · exact ⟨le_rfl, h3, h8⟩
  have hwrites : 0 ≤ u.writesRead.1 ∧ 0 ≤ u.writesRead.2 ∧ u.writesRead.1 + u.writesRead.2 ≤
      u.cacheWriteTokens + u.cachedCreationTokens + u.claudeCacheCreation5mTokens +
        u.claudeCacheCreation1hTokens := by
    unfold writesRead cacheCreationTokensTotal
    split <;> dsimp only <;> omega
  omega

end TieredUsage

namespace TokenParams

variable (t : TokenParams)

def inputs : List (String × Int) :=
  [("cr", t.cr), ("cc", t.cc), ("cc1h", t.cc1h), ("img", t.img), ("img_cr", t.imgCR), ("ai", t.ai)]

def outputs : List (String × Int) := [("img_o", t.imgO), ("ao", t.ao)]

def values : List Int := [t.p, t.c, t.len, t.cr, t.cc, t.cc1h, t.img, t.imgCR, t.imgO, t.ai, t.ao]

/-- The tokens of a count are those with a variable of their own and the rest. -/
def Balances (used : String → Bool) (rest total : Int) (categories : List (String × Int)) : Prop :=
  (referenced used categories ≤ total → rest + referenced used categories = total) ∧
    (total < referenced used categories → rest = 0)

end TokenParams

theorem balances_subtractUsed (hcount : Small count) (hsmall : ∀ v ∈ categories, Small v.2) :
    TokenParams.Balances used (max 0 (subtractUsed used count categories)) count categories := by
  rw [subtractUsed_balance hcount hsmall]
  exact ⟨fun _ => by omega, fun _ => by omega⟩

/-- The variables where the prompt tokens are the whole input. -/
structure TokenParams.WholePrompt (u : TieredUsage) (used : String → Bool) (t : TokenParams) :
    Prop where
  nonneg : ∀ n ∈ t.values, 0 ≤ n
  len : t.len = u.promptTokens
  input : Balances used t.p u.promptTokens t.inputs
  output : Balances used t.c u.completionTokens t.outputs
  cached : t.cr + t.imgCR = u.cachedTokens
  image : t.img + t.imgCR = u.imageTokens
  breakdown : used "img_cr" → ∀ n, u.cachedImages = some n → t.imgCR = n

/-- The variables in the semantics of Anthropic, up to the length. -/
structure TokenParams.BesideCache (u : TieredUsage) (used : String → Bool) (t : TokenParams) :
    Prop where
  nonneg : ∀ n ∈ t.values, 0 ≤ n
  input : t.p + (if used "cr" then t.cr else 0) = u.promptTokens + u.cachedTokens

variable {u : TieredUsage}

/-- Counts that doubles have are computed without rounding, up to what is taken away. -/
theorem buildTieredTokenParams_eq (hu : u.Counted) (claude : Bool) (used : String → Bool) :
    buildTieredTokenParams u claude used = let images := u.imagesTaken claude used
      let cr := u.cachedTokens - images
      let img := u.imageTokens - images
      ⟨max 0 (if claude then (if used "cr" then u.promptTokens else u.promptTokens + cr)
          else subtractUsed used u.promptTokens [("cr", cr), ("cc", u.writesRead.1),
            ("cc1h", u.writesRead.2), ("img", img), ("img_cr", images), ("ai", u.audioTokens)]),
        max 0 (if claude then u.completionTokens else subtractUsed used u.completionTokens
          [("img_o", u.completionImageTokens), ("ao", u.completionAudioTokens)]),
        if claude then u.promptTokens + cr + u.writesRead.1 + u.writesRead.2 else u.promptTokens,
        cr, u.writesRead.1, u.writesRead.2, img, images, u.completionImageTokens, u.audioTokens,
        u.completionAudioTokens⟩ := by
  obtain ⟨hi, hic, hii, hp, hc, ha, hci, hca, hw, hw', hsum⟩ := hu.bounds claude used
  have hexact (n : Int) (hlow : 0 ≤ n) (hhigh : n < 2 ^ 53) : ofInt n = n :=
    Small.ofInt ⟨hlow, hhigh⟩
  simp (disch := omega) only [buildTieredTokenParams, hexact]

/-- The variables of an expression balance. In the semantics of Anthropic `len` is the whole input
just where the cache writes are in the counts that are read. -/
theorem tieredTokens_balance (u : TieredUsage) (used : String → Bool) (hu : u.Counted) :
    (buildTieredTokenParams u false used).WholePrompt u used ∧
      (buildTieredTokenParams u true used).BesideCache u used ∧
      ((buildTieredTokenParams u true used).len =
        u.promptTokens + u.cachedTokens + u.cacheWrites ↔ u.Split) := by
  have hfalse := buildTieredTokenParams_eq hu false used
  have htrue := buildTieredTokenParams_eq hu true used
  have hnone : u.imagesTaken true used = 0 := by simp [TieredUsage.imagesTaken]
  obtain ⟨hi, hic, hii, hp, hc, ha, hci, hca, hw, hw', hsum⟩ := hu.bounds false used
  simp only [hnone, Bool.false_eq_true, if_false, if_true, Int.sub_zero] at hfalse htrue
  rw [hfalse, htrue]
  refine ⟨⟨?_, rfl, ?_, ?_, by simp, by simp, ?_⟩, ⟨?_, ?_⟩, ?_⟩
  · simp only [TokenParams.values, List.forall_mem_cons]
    exact ⟨le_max_left _ _, le_max_left _ _, by omega, by omega, hw, hw', by omega, hi, hci, ha,
      hca, by simp⟩
  · refine balances_subtractUsed ⟨hp, by omega⟩ ?_
    simp only [List.forall_mem_cons, Small]
    exact ⟨by omega, by omega, by omega, by omega, by omega, by omega, by simp⟩
  · refine balances_subtractUsed ⟨hc, by omega⟩ ?_
    simp only [List.forall_mem_cons, Small]
    exact ⟨by omega, by omega, by simp⟩
  · intro hused n hn
    simp [TieredUsage.imagesTaken, hused, hn]
  · simp only [TokenParams.values, List.forall_mem_cons]
    exact ⟨le_max_left _ _, le_max_left _ _, by omega, by omega, hw, hw', by omega, le_rfl, hci, ha,
      hca, by simp⟩
  · dsimp only
    split <;> omega
  · rw [← TieredUsage.split_iff]
    dsimp only
    omega

/-- A usage of Anthropic with the total of its cache writes. -/
def unsplitUsage : TieredUsage where
  promptTokens := 100
  completionTokens := 0
  cachedTokens := 0
  cacheWriteTokens := 0
  cachedCreationTokens := 50
  claudeCacheCreation5mTokens := 0
  claudeCacheCreation1hTokens := 0
  imageTokens := 0
  audioTokens := 0
  usageSource := ""
  usageSemantic := "anthropic"
  costGiven := false
  cachedTokensDetails := none
  completionImageTokens := 0
  completionAudioTokens := 0

/-- Of the tokens that were cached, twenty are of images. -/
def cachedImageUsage : TieredUsage :=
  { unsplitUsage with
    cachedTokens := 30, imageTokens := 40, cachedTokensDetails := some ⟨some 10, some 20, none⟩ }

theorem tieredTokens_balance_images :
    (buildTieredTokenParams cachedImageUsage false fun _ => true).imgCR = 20 ∧
      (buildTieredTokenParams cachedImageUsage false fun _ => true).WholePrompt cachedImageUsage
        fun _ => true :=
  ⟨by decide, (tieredTokens_balance cachedImageUsage (fun _ => true) ⟨by decide, by decide⟩).1⟩

theorem unsplit_writes_dropped :
    (buildTieredTokenParams unsplitUsage true fun _ => true).len = 100 ∧
      unsplitUsage.promptTokens + unsplitUsage.cachedTokens + unsplitUsage.cacheWrites = 150 ∧
      (buildTieredTokenParams unsplitUsage true fun _ => true).values =
        [100, 0, 100, 0, 0, 0, 0, 0, 0, 0, 0] := by
  decide

end NewApi.TextQuota
