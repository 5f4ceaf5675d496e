import Mathlib.Data.List.Sort
import NewApi.Lib.Table
import NewApi.Lib.Text

/-!
# Subscriptions

A request takes its amount from a subscription in advance, moves it by differences afterwards and
gives it back by its request id. The records of the pre-consumed amounts make the first and the
last of these idempotent for one request id.

*Resets.*  Taking an amount first resets every subscription it looks at whose period is over. The
period arithmetic is an arbitrary function (`nextReset`), so the loop that walks the periods gets
a number of rounds, and a call whose loop needs more has no result.

*Transactions.*  A failed transaction leaves the database as it was. The refund moves the amount
in a transaction of its own and then marks the record.
-/

namespace NewApi

/-- `NormalizeResetPeriod` of the period of a plan. -/
inductive ResetPeriod
  | never
  | daily
  | weekly
  | monthly
  | custom
deriving DecidableEq

/-- The `duration_unit` column of a plan. -/
inductive DurationUnit
  | year
  | month
  | day
  | hour
  | custom
  | other (text : String)
deriving DecidableEq

/-- The columns of a plan that a reset or a purchase reads. -/
structure SubscriptionPlan where
  id : Int
  title : String
  quotaResetPeriod : ResetPeriod
  quotaResetCustomSeconds : Int
  durationUnit : DurationUnit := .month
  durationValue : Int := 1
  customSeconds : Int := 0
  maxPurchasePerUser : Int := 0
  upgradeGroup : String := ""
  /-- The group the user gets at the end, empty for the one before the purchase. -/
  downgradeGroup : String := ""
  totalAmount : Int := 0
  /-- Whether the wallet may pay when the amount is used up, `true` when absent. -/
  allowWalletOverflow : Option Bool := none
deriving DecidableEq

/-- The `status` column of a subscription. -/
inductive SubscriptionStatus
  | active
  | expired
  | cancelled
deriving DecidableEq

/-- A subscription of a user. -/
structure UserSubscription where
  (id userId planId amountTotal : Int)
  amountUsed : Nat
  (startTime endTime : Int)
  status : SubscriptionStatus
  (lastResetTime nextResetTime : Int)
  allowWalletOverflow : Bool
  upgradeGroup : String := ""
  /-- The group the user had before, empty when the purchase did not change it. -/
  prevUserGroup : String := ""
  /-- The group the user gets at the end, empty for `prevUserGroup`. -/
  downgradeGroup : String := ""
deriving DecidableEq

/-- The `status` column of a pre-consume record. -/
inductive RecordStatus
  | consumed
  | refunded
deriving DecidableEq

/-- What a request took in advance, under its request id. -/
structure SubscriptionPreConsumeRecord where
  requestId : String
  (userId userSubscriptionId preConsumed : Int)
  status : RecordStatus
deriving DecidableEq

/-- The tables the subscription functions work on. -/
structure SubscriptionDb where
  subs : Table UserSubscription.id
  plans : Table SubscriptionPlan.id
  records : Table SubscriptionPreConsumeRecord.requestId

/-- The period arithmetic: the next reset after a base, for a plan and the end
of the subscription, 0 when there is none. -/
abbrev NextReset := Int → SubscriptionPlan → Int → Int

/-! ## Periodic resets -/

/-- The loop of a reset: whether it moved, the base it reached and the reset
after it. -/
def resetLoop (next : Int → Int) (now : Int) : Nat → Bool → Int → Int → Option (Bool × Int × Int)
  | 0, _, _, _ => none
  | rounds + 1, advanced, base, upcoming =>
    if 0 < upcoming ∧ upcoming ≤ now then
      resetLoop next now rounds true upcoming (next upcoming)
    else some (advanced, base, upcoming)

/-- `maybeResetUserSubscriptionWithPlanTx`, the row as it is saved. -/
def maybeResetUserSubscription (nextReset : NextReset) (rounds : Nat) (plan : SubscriptionPlan)
    (now : Int) (sub : UserSubscription) : Option UserSubscription :=
  if 0 < sub.nextResetTime ∧ now < sub.nextResetTime then some sub
  else if plan.quotaResetPeriod = .never then some sub
  else
    let base := if sub.lastResetTime ≤ 0 then sub.startTime else sub.lastResetTime
    let next := fun b => nextReset b plan sub.endTime
    match resetLoop next now rounds false base (next base) with
    | none => none
    | some (false, base, upcoming) =>
      if sub.nextResetTime = 0 ∧ 0 < upcoming then
        some { sub with nextResetTime := upcoming, lastResetTime := base }
      else some sub
    | some (true, base, upcoming) =>
      some { sub with amountUsed := 0, lastResetTime := base, nextResetTime := upcoming }

variable {nextReset : NextReset} {amount userId : Int} {db db' : SubscriptionDb}
  {requestId : String}

/-- A reset keeps the used amount or clears it, and moves the reset times only. -/
theorem maybeResetUserSubscription_spec {rounds : Nat} {plan : SubscriptionPlan} {now : Int}
    {sub sub' : UserSubscription}
    (h : maybeResetUserSubscription nextReset rounds plan now sub = some sub') :
    (sub'.amountUsed = sub.amountUsed ∨ sub'.amountUsed = 0) ∧ sub'.id = sub.id ∧
      sub'.amountTotal = sub.amountTotal := by
  unfold maybeResetUserSubscription at h
  split at h
  · obtain rfl := Option.some.inj h; simp
  split at h
  · obtain rfl := Option.some.inj h; simp
  dsimp only at h
  split at h
  · cases h
  · split at h <;> (obtain rfl := Option.some.inj h; simp)
  · obtain rfl := Option.some.inj h; simp

/-! ## Taking an amount in advance -/

/-- `SubscriptionPreConsumeResult`. -/
structure SubscriptionPreConsumeResult where
  (userSubscriptionId preConsumed amountTotal amountUsedBefore amountUsedAfter : Int)
deriving DecidableEq

/-- What the environment decides about one subscription transaction. -/
structure SubscriptionEnv where
  /-- `GetDBTimestamp`. -/
  now : Int
  rounds : Nat
  /-- The error with which a statement of the transaction or its commit fails. -/
  fault : Option String

def blank (text : String) : Bool := text.toList.all Text.isSpace

/-- The active subscriptions of a user, the one that ends first in front. -/
def activeSubscriptions (subs : Table UserSubscription.id) (userId now : Int) :
    List UserSubscription :=
  (subs.rows.filter fun s => s.userId = userId ∧ s.status = .active ∧ now < s.endTime).insertionSort
    fun a b => a.endTime < b.endTime ∨ (a.endTime = b.endTime ∧ a.id ≤ b.id)

def UserSubscription.charge (sub : UserSubscription) (amount : Int) : UserSubscription :=
  { sub with amountUsed := sub.amountUsed + amount.toNat }

/-- The end of the loop at a candidate with room: the amount is recorded and taken,
or the answer comes from the record that exists already. The read of that record
can miss it. -/
def chargeCandidate (missed : Bool) (requestId : String) (userId amount : Int)
    (sub : UserSubscription) (db : SubscriptionDb) :
    Except String SubscriptionPreConsumeResult × SubscriptionDb :=
  match db.records.insert ⟨requestId, userId, sub.id, amount, .consumed⟩ with
  | some records =>
    (.ok ⟨sub.id, amount, sub.amountTotal, sub.amountUsed, (sub.charge amount).amountUsed⟩,
      { db with subs := db.subs.save (sub.charge amount), records := records })
  | none =>
    match missed, db.records.find requestId with
    | false, some dup =>
      if dup.status = .refunded then (.error "subscription pre-consume already refunded", db)
      else (.ok ⟨sub.id, dup.preConsumed, sub.amountTotal, sub.amountUsed, sub.amountUsed⟩, db)
    | _, _ => (.error "UNIQUE constraint failed", db)

/-- A subscription that has too little left for an amount. -/
def full (amount : Int) (sub : UserSubscription) : Bool :=
  0 < sub.amountTotal ∧ sub.amountTotal - sub.amountUsed < amount

/-- The loop over the active subscriptions: reset, skip when too little is left, otherwise record
the amount and take it. -/
def consumeCandidates (nextReset : NextReset) (env : SubscriptionEnv) (missed : Bool)
    (requestId : String) (userId amount : Int) : List UserSubscription → SubscriptionDb →
    Option (Except String SubscriptionPreConsumeResult × SubscriptionDb)
  | [], db => some (.error s!"subscription quota insufficient, need={amount}", db)
  | candidate :: rest, db =>
    match db.plans.find candidate.planId with
    | none => some (.error "record not found", db)
    | some plan =>
      match maybeResetUserSubscription nextReset env.rounds plan env.now candidate with
      | none => none
      | some sub =>
        let db := { db with subs := db.subs.save sub }
        if full amount sub then
          consumeCandidates nextReset env missed requestId userId amount rest db
        else some (chargeCandidate missed requestId userId amount sub db)

/-- The checks and the first read of the transaction: an answer, or none yet. -/
def preConsumeRead (fault : Option String) (requestId : String) (userId amount : Int)
    (db : SubscriptionDb) : Option (Except String SubscriptionPreConsumeResult) :=
  if userId ≤ 0 then some (.error "invalid userId")
  else if blank requestId then some (.error "requestId is empty")
  else if amount ≤ 0 then some (.error "amount must be > 0")
  else
    match fault, db.records.find requestId with
    | some err, _ => some (.error err)
    | none, none => none
    | none, some existing =>
      if existing.status = .refunded then some (.error "subscription pre-consume already refunded")
      else
        match db.subs.find existing.userSubscriptionId with
        | none => some (.error "record not found")
        | some sub => some (.ok ⟨sub.id, existing.preConsumed, sub.amountTotal, sub.amountUsed,
            sub.amountUsed⟩)

/-- The loop with its commit. A transaction that fails changes nothing. -/
def preConsumeLoop (nextReset : NextReset) (env : SubscriptionEnv) (fault : Option String)
    (missed : Bool) (requestId : String) (userId amount : Int) (subs : List UserSubscription)
    (db : SubscriptionDb) : Option (Except String SubscriptionPreConsumeResult × SubscriptionDb) :=
  match fault with
  | some err => some (.error err, db)
  | none =>
    match consumeCandidates nextReset env missed requestId userId amount subs db with
    | none => none
    | some (.error err, _) => some (.error err, db)
    | some (.ok result, db') => some (.ok result, db')

/-- `PreConsumeUserSubscription`. -/
def preConsumeUserSubscription (nextReset : NextReset) (env : SubscriptionEnv) (requestId : String)
    (userId amount : Int) (db : SubscriptionDb) :
    Option (Except String SubscriptionPreConsumeResult × SubscriptionDb) :=
  match preConsumeRead env.fault requestId userId amount db with
  | some out => some (out, db)
  | none =>
    match activeSubscriptions db.subs userId env.now with
    | [] => some (.error "no active subscription", db)
    | subs => preConsumeLoop nextReset env none false requestId userId amount subs db

section

variable {env : SubscriptionEnv} {fault : Option String} {missed : Bool} {err : String}
  {subs : List UserSubscription} {result : SubscriptionPreConsumeResult}

theorem preConsumeRead_none (h : preConsumeRead fault requestId userId amount db = none) :
    0 < amount ∧ 0 < userId ∧ db.records.find requestId = none := by
  unfold preConsumeRead at h
  repeat' split at h
  all_goals cases h
  next _ _ hnone => exact ⟨by omega, by omega, hnone⟩

theorem preConsumeRead_ok
    (h : preConsumeRead fault requestId userId amount db = some (.ok result)) :
    ∃ record, db.records.find requestId = some record ∧ result.preConsumed = record.preConsumed ∧
      result.userSubscriptionId = record.userSubscriptionId := by
  unfold preConsumeRead at h
  repeat' split at h
  all_goals cases h
  next hfind _ _ sub hsub =>
    have hid : sub.id = _ := Table.find_key hsub
    exact ⟨_, hfind, rfl, hid⟩

theorem preConsumeLoop_ok (h : preConsumeLoop nextReset env fault missed requestId userId amount
      subs db = some (.ok result, db')) :
    consumeCandidates nextReset env missed requestId userId amount subs db =
      some (.ok result, db') := by
  unfold preConsumeLoop at h
  repeat' split at h
  all_goals cases h
  assumption

theorem preConsumeLoop_error (h : preConsumeLoop nextReset env fault missed requestId userId amount
      subs db = some (.error err, db')) : db' = db := by
  unfold preConsumeLoop at h
  repeat' split at h
  all_goals cases h
  all_goals rfl

theorem preConsumeUserSubscription_error
    (h : preConsumeUserSubscription nextReset env requestId userId amount db =
      some (.error err, db')) : db' = db := by
  unfold preConsumeUserSubscription at h
  split at h
  · cases h
    rfl
  split at h
  · cases h
    rfl
  · exact preConsumeLoop_error h

end

/-! ## Moving and giving back an amount -/

variable (fault : Option String)

/-- `PostConsumeUserSubscriptionDelta`. -/
def postConsumeUserSubscriptionDelta (id delta : Int) (db : SubscriptionDb) :
    Except String Unit × SubscriptionDb :=
  if id ≤ 0 then (.error "invalid userSubscriptionId", db)
  else if delta = 0 then (.ok (), db)
  else
    match fault with
    | some err => (.error err, db)
    | none =>
      match db.subs.find id with
      | none => (.error "record not found", db)
      | some sub =>
        let newUsed := max (sub.amountUsed + delta) 0
        if 0 < sub.amountTotal ∧ sub.amountTotal < newUsed then
          (.error s!"subscription used exceeds total, used={newUsed} total={sub.amountTotal}", db)
        else (.ok (), { db with subs := db.subs.save { sub with amountUsed := newUsed.toNat } })

def SubscriptionDb.used (db : SubscriptionDb) (id : Int) : Int :=
  match db.subs.find id with
  | some sub => sub.amountUsed
  | none => 0

theorem SubscriptionDb.used_nonneg (db : SubscriptionDb) (id : Int) : 0 ≤ db.used id := by
  rw [used]
  split <;> omega

theorem used_save {sub : UserSubscription} {used : Nat} (h : db.subs.find sub.id = some sub)
    (id : Int) :
    ({ db with subs := db.subs.save { sub with amountUsed := used } } : SubscriptionDb).used id =
      if id = sub.id then (used : Int) else db.used id := by
  by_cases hid : id = sub.id
  · subst hid
    simp [SubscriptionDb.used, Table.find_save, h]
  · have hne : sub.id ≠ id := fun he => hid he.symm
    simp [SubscriptionDb.used, Table.find_save, hid, hne]

theorem postConsumeUserSubscriptionDelta_spec (id delta : Int) (db : SubscriptionDb) :
    (∃ err, postConsumeUserSubscriptionDelta fault id delta db = (.error err, db)) ∨
      ∃ db', postConsumeUserSubscriptionDelta fault id delta db = (.ok (), db') ∧
        db'.records = db.records ∧ db'.plans = db.plans ∧
        ∀ j, db'.used j = if j = id then max (db.used id + delta) 0 else db.used j := by
  unfold postConsumeUserSubscriptionDelta
  split
  · exact .inl ⟨_, rfl⟩
  split
  next h0 =>
    refine .inr ⟨db, rfl, rfl, rfl, ?_⟩
    intro j
    have := db.used_nonneg id
    split
    next hj => subst hj; omega
    · rfl
  split
  · exact .inl ⟨_, rfl⟩
  split
  · exact .inl ⟨_, rfl⟩
  next sub hfind =>
  have hid : sub.id = id := Table.find_key hfind
  subst hid
  dsimp only
  split
  · exact .inl ⟨_, rfl⟩
  refine .inr ⟨_, rfl, rfl, rfl, ?_⟩
  intro j
  rw [used_save hfind]
  have hused : db.used sub.id = sub.amountUsed := by rw [SubscriptionDb.used, hfind]
  split <;> omega

/-- What the environment decides about one attempt of a subscription refund. -/
structure RefundEnv where
  (read move : Option String)
  /-- The error of the write of the record or of the outer commit. -/
  mark : Option String

def RefundEnv.calm : RefundEnv := ⟨none, none, none⟩

/-- The record is marked, which can fail after the amount was moved. -/
def markRefunded (record : SubscriptionPreConsumeRecord) (db : SubscriptionDb) :
    Except String Unit × SubscriptionDb :=
  match fault with
  | some err => (.error err, db)
  | none => (.ok (), { db with records := db.records.save { record with status := .refunded } })

/-- `RefundSubscriptionPreConsume`. -/
def refundSubscriptionPreConsume (env : RefundEnv) (requestId : String) (db : SubscriptionDb) :
    Except String Unit × SubscriptionDb :=
  if blank requestId then (.error "requestId is empty", db)
  else
    match env.read, db.records.find requestId with
    | some err, _ => (.error err, db)
    | none, none => (.error "record not found", db)
    | none, some record =>
      if record.status = .refunded then (.ok (), db)
      else if record.preConsumed ≤ 0 then markRefunded env.mark record db
      else
        match postConsumeUserSubscriptionDelta env.move record.userSubscriptionId
            (-record.preConsumed) db with
        | (.error err, db') => (.error err, db')
        | (.ok (), db') => markRefunded env.mark record db'

/-! ## What a user has -/

/-- `HasActiveUserSubscription`. -/
def hasActiveUserSubscription (now userId : Int) (db : SubscriptionDb) : Except String Bool :=
  if userId ≤ 0 then .error "invalid userId"
  else match fault with
    | some err => .error err
    | none => .ok (db.subs.rows.any fun s => s.userId = userId ∧ s.status = .active ∧
        now < s.endTime)

/-- `UserActiveSubscriptionsAllowWalletOverflow`. -/
def userActiveSubscriptionsAllowWalletOverflow (now userId : Int) (db : SubscriptionDb) :
    Except String Bool :=
  if userId ≤ 0 then .error "invalid userId"
  else match fault with
    | some err => .error err
    | none => .ok (!db.subs.rows.any fun s =>
      s.userId = userId ∧ s.status = .active ∧ now < s.endTime ∧ s.allowWalletOverflow = false)

/-! ## What taking an amount does -/

section

variable (nextReset : NextReset) (now : Int)

/-- Row `y` is row `x`, possibly after a reset. -/
def UpToReset (plans : Table SubscriptionPlan.id) (x y : UserSubscription) : Prop :=
  x = y ∨ ∃ plan rounds, plans.find x.planId = some plan ∧
    maybeResetUserSubscription nextReset rounds plan now x = some y

/-- The second database is the first one, up to resets. -/
structure ResetOnly (db db₁ : SubscriptionDb) : Prop where
  plans : db₁.plans = db.plans
  records : db₁.records = db.records
  rows : ∀ id, Option.Rel (UpToReset nextReset now db.plans) (db.subs.find id) (db₁.subs.find id)

/-- The row of a subscription after the reset that is due. -/
def ResetRow (db : SubscriptionDb) (id : Int) (sub : UserSubscription) : Prop :=
  ∃ x plan rounds, db.subs.find id = some x ∧ db.plans.find x.planId = some plan ∧
    maybeResetUserSubscription nextReset rounds plan now x = some sub

variable {nextReset now}

theorem ResetOnly.refl (db : SubscriptionDb) : ResetOnly nextReset now db db where
  plans := rfl
  records := rfl
  rows id := by
    cases db.subs.find id with
    | none => exact .none
    | some x => exact .some (.inl rfl)

theorem ResetOnly.save {db₁ : SubscriptionDb} (h : ResetOnly nextReset now db db₁)
    {x y : UserSubscription} {plan : SubscriptionPlan} {rounds : Nat}
    (hx : db.subs.find x.id = some x) (hplan : db.plans.find x.planId = some plan)
    (hy : maybeResetUserSubscription nextReset rounds plan now x = some y) :
    ResetOnly nextReset now db { db₁ with subs := db₁.subs.save y } where
  plans := h.plans
  records := h.records
  rows id := by
    have hyid : y.id = x.id := (maybeResetUserSubscription_spec hy).2.1
    have hrow := h.rows id
    rw [Table.find_save]
    by_cases hid : y.id = id
    · rw [if_pos hid]
      rw [← hid, hyid, hx] at hrow ⊢
      cases hfind : db₁.subs.find x.id with
      | none => rw [hfind] at hrow; cases hrow
      | some z => exact .some (.inr ⟨plan, rounds, hplan, hy⟩)
    · rw [if_neg hid]
      exact hrow

end

/-- The amount is taken from one subscription after its reset and recorded, and the others
are as they were, up to resets. -/
structure Charged (nextReset : NextReset) (now : Int) (requestId : String) (userId amount : Int)
    (result : SubscriptionPreConsumeResult) (db db' : SubscriptionDb) : Prop where
  preConsumed : result.preConsumed = amount
  taken : ∃ db₁ sub, ResetOnly nextReset now db db₁ ∧
    ResetRow nextReset now db result.userSubscriptionId sub ∧
    db₁.subs.find result.userSubscriptionId = some sub ∧
    db'.subs = db₁.subs.save { sub with amountUsed := sub.amountUsed + amount.toNat } ∧
    db'.plans = db₁.plans ∧
    db₁.records.insert ⟨requestId, userId, result.userSubscriptionId, amount, .consumed⟩ =
      some db'.records

variable {now : Int} {result : SubscriptionPreConsumeResult}

section

variable (h : Charged nextReset now requestId userId amount result db db')

include h

theorem Charged.used (hamount : 0 < amount) :
    ∃ db₁ sub, ResetOnly nextReset now db db₁ ∧
      ResetRow nextReset now db result.userSubscriptionId sub ∧
      db₁.used result.userSubscriptionId = sub.amountUsed ∧ ∀ id, db'.used id =
        if id = result.userSubscriptionId then db₁.used id + amount else db₁.used id := by
  obtain ⟨db₁, sub, hreset, hrow, hfind, hsubs, hplans, -⟩ := h.taken
  have hid : sub.id = result.userSubscriptionId := Table.find_key hfind
  rw [← hid] at hfind hrow ⊢
  have hsub : db₁.used sub.id = sub.amountUsed := by rw [SubscriptionDb.used, hfind]
  refine ⟨db₁, sub, hreset, hrow, hsub, ?_⟩
  intro id
  have hsave := @used_save db₁ sub (sub.amountUsed + amount.toNat) hfind id
  have hused : db'.used id = if id = sub.id then ((sub.amountUsed + amount.toNat : Nat) : Int)
      else db₁.used id := by
    rw [← hsave, SubscriptionDb.used, SubscriptionDb.used, hsubs]
  rw [hused]
  by_cases he : id = sub.id
  · subst he
    omega
  · rw [if_neg he, if_neg he]

theorem Charged.record :
    db'.records.find requestId =
      some ⟨requestId, userId, result.userSubscriptionId, amount, .consumed⟩ := by
  obtain ⟨db₁, sub, -, -, -, -, -, hrecords⟩ := h.taken
  rw [Table.find_insert hrecords, if_pos rfl]

theorem Charged.find_record (id : String) :
    db'.records.find id = if requestId = id
      then some ⟨requestId, userId, result.userSubscriptionId, amount, .consumed⟩
      else db.records.find id := by
  obtain ⟨db₁, sub, hreset, -, -, -, -, hrecords⟩ := h.taken
  rw [Table.find_insert hrecords, hreset.records]

end

section

variable {nextReset : NextReset} {env : SubscriptionEnv} {requestId : String} {userId amount : Int}
  {db db' : SubscriptionDb}

variable {result : SubscriptionPreConsumeResult}

variable {missed : Bool} {candidate sub : UserSubscription}
  {rest candidates : List UserSubscription}

theorem consumeCandidates_cons (h : consumeCandidates nextReset env missed requestId userId amount
      (candidate :: rest) db = some (.ok result, db')) :
    ∃ plan sub, db.plans.find candidate.planId = some plan ∧
      maybeResetUserSubscription nextReset env.rounds plan env.now candidate = some sub ∧
      sub.id = candidate.id ∧
      ((full amount sub = true ∧ consumeCandidates nextReset env missed requestId userId amount rest
          { db with subs := db.subs.save sub } = some (.ok result, db')) ∨
        (full amount sub = false ∧ chargeCandidate missed requestId userId amount sub
          { db with subs := db.subs.save sub } = (.ok result, db'))) := by
  rw [consumeCandidates] at h
  split at h
  · cases h
  next plan hplan =>
  split at h
  · cases h
  next sub hsub =>
  refine ⟨plan, sub, hplan, hsub, (maybeResetUserSubscription_spec hsub).2.1, ?_⟩
  split at h
  next hfull => exact .inl ⟨hfull, h⟩
  next hroom => exact .inr ⟨by simpa using hroom, Option.some.inj h⟩

theorem chargeCandidate_ok
    (h : chargeCandidate missed requestId userId amount sub db = (.ok result, db')) :
    result.userSubscriptionId = sub.id ∧
      ((db.records.find requestId = none ∧ result.preConsumed = amount ∧ db'.plans = db.plans ∧
          db'.subs = db.subs.save (sub.charge amount) ∧
          db.records.insert ⟨requestId, userId, sub.id, amount, .consumed⟩ = some db'.records) ∨
        ∃ dup, db.records.find requestId = some dup ∧ result.preConsumed = dup.preConsumed ∧
          db' = db) := by
  unfold chargeCandidate at h
  split at h
  next records hinsert =>
    cases h
    exact ⟨rfl, .inl ⟨Table.find_of_insert hinsert, rfl, rfl, rfl, hinsert⟩⟩
  split at h
  next dup hdup =>
    split at h
    · cases h
    · cases h
      exact ⟨rfl, .inr ⟨dup, hdup, rfl, rfl⟩⟩
  · cases h

/-- The candidates are rows of the table that the loop has not touched yet. -/
theorem consumeCandidates_charged {cur : SubscriptionDb}
    (hfresh : db.records.find requestId = none) (hreset : ResetOnly nextReset env.now db cur)
    (hnodup : (candidates.map UserSubscription.id).Nodup)
    (hrows : ∀ c ∈ candidates, db.subs.find c.id = some c ∧ cur.subs.find c.id = some c)
    (h : consumeCandidates nextReset env missed requestId userId amount candidates cur =
      some (.ok result, db')) :
    Charged nextReset env.now requestId userId amount result db db' := by
  induction candidates generalizing cur with
  | nil => simp [consumeCandidates] at h
  | cons candidate rest ih =>
    obtain ⟨hdb, hcur⟩ := hrows candidate (by simp)
    rw [List.map_cons, List.nodup_cons] at hnodup
    obtain ⟨plan, sub, hplan, hsub, hid, hround⟩ := consumeCandidates_cons h
    have hreset' := hreset.save hdb (hreset.plans ▸ hplan) hsub
    rcases hround with ⟨-, hrest⟩ | ⟨-, hend⟩
    · refine ih hreset' hnodup.2 ?_ hrest
      intro c hc
      have hne : sub.id ≠ c.id := fun he =>
        hnodup.1 (by rw [← hid, he]; exact List.mem_map_of_mem hc)
      obtain ⟨h1, h2⟩ := hrows c (by simp [hc])
      exact ⟨h1, by rw [Table.find_save_of_ne hne]; exact h2⟩
    obtain ⟨hresult, hcases⟩ := chargeCandidate_ok hend
    rcases hcases with ⟨-, hpre, hplans, hsubs, hinsert⟩ | ⟨dup, hdup, -⟩
    · have hfind : cur.subs.find sub.id = some candidate := by rw [hid]; exact hcur
      have hrow : ResetRow nextReset env.now db sub.id sub :=
        ⟨candidate, plan, env.rounds, by rw [hid]; exact hdb, hreset.plans ▸ hplan, hsub⟩
      rw [← hresult] at hrow hinsert
      exact ⟨hpre, _, sub, hreset', hrow, hresult ▸ Table.find_save_self hfind, hsubs, hplans,
        hinsert⟩
    · cases hdup.symm.trans ((congrArg (·.find requestId) hreset.records).trans hfresh)

variable {subs : Table UserSubscription.id} {now : Int} {c : UserSubscription}

theorem mem_activeSubscriptions (h : c ∈ activeSubscriptions subs userId now) : c ∈ subs.rows := by
  rw [activeSubscriptions, List.mem_insertionSort] at h
  exact List.mem_of_mem_filter h

theorem nodup_activeSubscriptions (subs : Table UserSubscription.id) (now : Int) :
    ((activeSubscriptions subs userId now).map UserSubscription.id).Nodup := by
  have hperm := List.perm_insertionSort
    (fun a b : UserSubscription => a.endTime < b.endTime ∨ (a.endTime = b.endTime ∧ a.id ≤ b.id))
    (subs.rows.filter fun s => s.userId = userId ∧ s.status = .active ∧ now < s.endTime)
  refine (hperm.map _).nodup_iff.mpr ?_
  exact subs.nodup.sublist (List.filter_sublist.map _)

theorem find_activeSubscriptions (h : c ∈ activeSubscriptions subs userId now) :
    subs.find c.id = some c := Table.find_of_mem (mem_activeSubscriptions h)

section

variable (h : preConsumeUserSubscription nextReset env requestId userId amount db =
  some (.ok result, db'))

include h

/-- A call for a request id without a record succeeds through the loop over the
active subscriptions. -/
theorem preConsumeUserSubscription_fresh (hfresh : db.records.find requestId = none) :
    0 < amount ∧ 0 < userId ∧ consumeCandidates nextReset env false requestId userId amount
      (activeSubscriptions db.subs userId env.now) db = some (.ok result, db') := by
  unfold preConsumeUserSubscription at h
  split at h
  next out hread =>
    cases h
    obtain ⟨record, hfind, -⟩ := preConsumeRead_ok hread
    cases hfind.symm.trans hfresh
  next hread =>
    obtain ⟨hamount, huser, -⟩ := preConsumeRead_none hread
    refine ⟨hamount, huser, ?_⟩
    split at h
    · cases h
    · exact preConsumeLoop_ok h

theorem preConsumeUserSubscription_known {existing : SubscriptionPreConsumeRecord}
    (hknown : db.records.find requestId = some existing) : db' = db := by
  unfold preConsumeUserSubscription at h
  split at h
  · cases h
    rfl
  next hread => cases (preConsumeRead_none hread).2.2.symm.trans hknown

theorem preConsumeUserSubscription_charged (hfresh : db.records.find requestId = none) :
    0 < amount ∧ 0 < userId ∧ Charged nextReset env.now requestId userId amount result db db' := by
  obtain ⟨hamount, huser, hloop⟩ := preConsumeUserSubscription_fresh h hfresh
  refine ⟨hamount, huser, ?_⟩
  refine consumeCandidates_charged hfresh (.refl db) (nodup_activeSubscriptions db.subs env.now)
    (fun c hc => ?_) hloop
  exact ⟨find_activeSubscriptions hc, find_activeSubscriptions hc⟩

end

end

/-! ## What giving it back does -/

theorem refundSubscriptionPreConsume_used {record : SubscriptionPreConsumeRecord}
    (hfind : db.records.find requestId = some record) (hstatus : record.status = .consumed)
    (hpos : 0 < record.preConsumed)
    (h : refundSubscriptionPreConsume .calm requestId db = (.ok (), db')) (id : Int) :
    db'.used id = if id = record.userSubscriptionId
      then max (db.used record.userSubscriptionId - record.preConsumed) 0 else db.used id := by
  rw [refundSubscriptionPreConsume] at h
  split at h
  · cases h
  have hne : ¬ record.status = .refunded := by rw [hstatus]; simp
  simp only [RefundEnv.calm, hfind, if_neg hne, if_neg (Int.not_le.mpr hpos)] at h
  rcases postConsumeUserSubscriptionDelta_spec none record.userSubscriptionId
    (-record.preConsumed) db with ⟨err, he⟩ | ⟨db₁, he, -, -, hused⟩ <;> rw [he] at h
  · cases h
  cases h
  exact hused id

end NewApi
