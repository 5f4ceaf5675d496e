import NewApi.Subscription.Resets
import NewApi.Subscription.Schedule
import NewApi.User.Rows

/-!
# Purchases and administrator resets

`CreateUserSubscriptionFromPlanTx` makes a subscription from a plan and moves the
user to the plan's group. An administrator can clear the used amount of the
subscriptions of a plan, for one user or for all users below the administrator's
role, and can let the reset period start anew with it.

Every transaction takes the error with which it fails, and a failed one leaves
everything as it was.
-/

namespace NewApi

open Calendar (Location)

/-! ## Users and roles -/

/-- The columns of a user that the subscription functions read. -/
structure SubscriptionUser where
  (id role : Int)
  group : String
deriving DecidableEq

/-- The subscription tables with the users, and the next id of a subscription. -/
structure SubscriptionSystem where
  users : Table SubscriptionUser.id
  db : SubscriptionDb
  nextId : Int

/-- `ErrSubscriptionTargetNotManageable`. -/
def subscriptionTargetNotManageable : String := "subscription target not manageable"

variable (users : Table SubscriptionUser.id)

/-- `lockManageableSubscriptionUserTx`. -/
def lockManageableSubscriptionUser (userId operatorRole : Int) : Except String SubscriptionUser :=
  if userId ≤ 0 then .error "invalid subscription user lookup"
  else match users.find userId with
    | none => .error subscriptionTargetNotManageable
    | some user =>
      if canManageUserRole operatorRole user.role then .ok user
      else .error subscriptionTargetNotManageable

/-- `strings.TrimSpace`. -/
def trimSpace (text : String) : String := String.ofList (Text.trimSpace text.toList)

/-- `getUserGroupByIdTx` for a positive id: a missing user has the empty group. -/
def userGroup (userId : Int) : String :=
  match users.find userId with
  | none => ""
  | some user => user.group

/-- The update of the `group` column of a user. -/
def setUserGroup (userId : Int) (group : String) : Table SubscriptionUser.id :=
  match users.find userId with
  | none => users
  | some user => users.save { user with group := group }

theorem userGroup_setUserGroup (userId id : Int) (group : String) :
    userGroup (setUserGroup users userId group) id =
      if id = userId ∧ (users.find userId).isSome then group else userGroup users id := by
  rw [setUserGroup]
  cases hfind : users.find userId with
  | none => simp
  | some user =>
    have hid : user.id = userId := Table.find_key hfind
    by_cases h : id = userId
    · subst h
      simp [userGroup, Table.find_save, hid, hfind]
    · have hne : ¬ userId = id := fun he => h he.symm
      simp [userGroup, Table.find_save, hid, h, hne]

/-! ## Purchases -/

/-- The subscription that a purchase makes, for the group the user has. -/
def newSubscription (loc : Location) (now userId : Int) (plan : SubscriptionPlan) (id endUnix : Int)
    (currentGroup : String) : UserSubscription :=
  let nextReset := calcNextResetTime loc now plan endUnix
  let upgradeGroup := trimSpace plan.upgradeGroup
  { id := id
    userId := userId
    planId := plan.id
    amountTotal := plan.totalAmount
    amountUsed := 0
    startTime := now
    endTime := endUnix
    status := .active
    lastResetTime := if 0 < nextReset then now else 0
    nextResetTime := nextReset
    allowWalletOverflow := plan.allowWalletOverflow.getD true
    upgradeGroup := upgradeGroup
    prevUserGroup := if upgradeGroup ≠ "" ∧ currentGroup ≠ upgradeGroup then currentGroup else ""
    downgradeGroup := trimSpace plan.downgradeGroup }

/-- `CreateUserSubscriptionFromPlanTx`. -/
def createUserSubscriptionFromPlan (loc : Location) (fault : Option String) (now userId : Int)
    (plan : SubscriptionPlan) (s : SubscriptionSystem) :
    Except String UserSubscription × SubscriptionSystem :=
  if plan.id = 0 then (.error "invalid plan", s)
  else if userId ≤ 0 then (.error "invalid user id", s)
  else
    match fault with
    | some err => (.error err, s)
    | none =>
      let count := s.db.subs.rows.countP fun sub => sub.userId = userId ∧ sub.planId = plan.id
      if 0 < plan.maxPurchasePerUser ∧ plan.maxPurchasePerUser ≤ count then
        (.error "已达到该套餐购买上限", s)
      else
        match calcPlanEndTime loc now plan with
        | .error err => (.error err, s)
        | .ok endUnix =>
          let currentGroup := userGroup s.users userId
          let sub := newSubscription loc now userId plan s.nextId endUnix currentGroup
          match s.db.subs.insert sub with
          | none => (.error "UNIQUE constraint failed", s)
          | some subs =>
            let users :=
              if sub.upgradeGroup ≠ "" ∧ currentGroup ≠ sub.upgradeGroup then
                setUserGroup s.users userId sub.upgradeGroup
              else s.users
            (.ok sub, { users := users, db := { s.db with subs := subs }, nextId := s.nextId + 1 })

/-- What a purchase that succeeds has done. -/
structure Created (loc : Location) (now userId : Int) (plan : SubscriptionPlan)
    (sub : UserSubscription) (s s' : SubscriptionSystem) : Prop where
  endTime : calcPlanEndTime loc now plan = .ok sub.endTime
  row : sub = newSubscription loc now userId plan s.nextId sub.endTime (userGroup s.users userId)
  subs : s.db.subs.insert sub = some s'.db.subs
  plans : s'.db.plans = s.db.plans
  records : s'.db.records = s.db.records
  users : s'.users = if sub.upgradeGroup ≠ "" ∧ userGroup s.users userId ≠ sub.upgradeGroup then
    setUserGroup s.users userId sub.upgradeGroup else s.users
  nextId : s'.nextId = s.nextId + 1

variable {loc : Location} {fault : Option String} {now userId : Int} {plan : SubscriptionPlan}
  {s s' : SubscriptionSystem}

theorem createUserSubscriptionFromPlan_ok {sub : UserSubscription}
    (h : createUserSubscriptionFromPlan loc fault now userId plan s = (.ok sub, s')) :
    Created loc now userId plan sub s s' := by
  unfold createUserSubscriptionFromPlan at h
  split at h
  · cases h
  split at h
  · cases h
  split at h
  · cases h
  dsimp only at h
  split at h
  · cases h
  split at h
  · cases h
  next endUnix hend =>
  split at h
  · cases h
  next subs hsubs =>
  cases h
  exact ⟨hend, rfl, hsubs, rfl, rfl, rfl, rfl⟩

theorem createUserSubscriptionFromPlan_error
       {err : String}
    (h : createUserSubscriptionFromPlan loc fault now userId plan s = (.error err, s')) :
      s' = s := by
  unfold createUserSubscriptionFromPlan at h
  dsimp only at h
  repeat' split at h
  all_goals simp only [Prod.mk.injEq, reduceCtorEq, false_and] at h
  all_goals exact h.2.symm

/-! ## Administrator resets -/

variable (nextReset : NextReset)

/-- `resetUserSubscriptionTx`. -/
def resetUserSubscription (plan : SubscriptionPlan) (now : Int) (advanceResetTime : Bool)
    (sub : UserSubscription) : UserSubscription :=
  if advanceResetTime then
    let next := nextReset now plan sub.endTime
    { sub with
      amountUsed := 0
      nextResetTime := next
      lastResetTime := if 0 < next then now else 0 }
  else { sub with amountUsed := 0 }

/-- `SubscriptionResetResult`. -/
structure SubscriptionResetResult where
  planId : Int
  (matchedCount resetCount userCount : Nat)
  advanceResetTime : Bool
  planTitle : String
  affectedUserIds : List Int
deriving DecidableEq

/-- The users of the rows, each at its first row. -/
def affectedUsers : List UserSubscription → List Int → List Int
  | [], seen => seen
  | sub :: rest, seen =>
    affectedUsers rest (if sub.userId ∈ seen then seen else seen ++ [sub.userId])

/-- `buildSubscriptionResetResult`. -/
def buildSubscriptionResetResult (plan : SubscriptionPlan) (subs : List UserSubscription)
    (advanceResetTime : Bool) : SubscriptionResetResult where
  planId := plan.id
  matchedCount := subs.length
  resetCount := subs.length
  userCount := (affectedUsers subs []).length
  advanceResetTime := advanceResetTime
  planTitle := plan.title
  affectedUserIds := affectedUsers subs []

theorem resetUserSubscription_id (plan : SubscriptionPlan) (now : Int) (advance : Bool)
    (sub : UserSubscription) :
    (resetUserSubscription nextReset plan now advance sub).id = sub.id := by
  rw [resetUserSubscription]
  split <;> rfl

/-- What an administrator reset is asked for. -/
structure AdminReset where
  (now planId : Int)
  advanceResetTime : Bool
  operatorRole : Int

variable (r : AdminReset)

/-- An active subscription of the plan that has not ended. -/
def AdminReset.ofPlan (sub : UserSubscription) : Bool :=
  sub.planId = r.planId ∧ sub.status = .active ∧ r.now < sub.endTime

def AdminReset.ofUser (userId : Int) (sub : UserSubscription) : Bool :=
  decide (sub.userId = userId) && r.ofPlan sub

/-- The rows that a reset for all users takes: every user's for the root user,
otherwise those of the users whom the operator may manage. -/
def AdminReset.ofManageable (users : Table SubscriptionUser.id) (sub : UserSubscription) : Bool :=
  r.ofPlan sub && (r.operatorRole = roleRootUser ||
    match users.find sub.userId with
    | none => false
    | some user => canManageUserRole r.operatorRole user.role)

/-- The rows that `select` takes are reset, and no other. -/
def resetSelected (plan : SubscriptionPlan) (r : AdminReset) (select : UserSubscription → Bool)
    (subs : Table UserSubscription.id) : Table UserSubscription.id :=
  subs.update (fun sub =>
    if select sub then resetUserSubscription nextReset plan r.now r.advanceResetTime sub else sub)
    (fun sub => by
      split
      · exact resetUserSubscription_id nextReset plan r.now r.advanceResetTime sub
      · rfl)

/-- `AdminResetUserSubscriptionsByPlanForRole`. -/
def adminResetUserSubscriptionsByPlan (fault : Option String) (userId : Int) (r : AdminReset)
    (s : SubscriptionSystem) : Except String SubscriptionResetResult × SubscriptionSystem :=
  if userId ≤ 0 ∨ r.planId ≤ 0 then (.error "invalid userId or planId", s)
  else
    match fault, lockManageableSubscriptionUser s.users userId r.operatorRole,
        s.db.plans.find r.planId with
    | some err, _, _ => (.error err, s)
    | none, .error err, _ => (.error err, s)
    | none, .ok _, none => (.error "record not found", s)
    | none, .ok _, some plan =>
      let subs := (s.db.subs.rows.filter (r.ofUser userId)).insertionSort
        fun a b => a.endTime < b.endTime ∨ (a.endTime = b.endTime ∧ a.id ≤ b.id)
      if subs = [] then (.error "该用户没有有效的此套餐订阅", s)
      else
        (.ok (buildSubscriptionResetResult plan subs r.advanceResetTime),
          { s with db := { s.db with
            subs := resetSelected nextReset plan r (r.ofUser userId) s.db.subs } })

/-- `AdminResetPlanSubscriptionsForRole`. -/
def adminResetPlanSubscriptions (fault : Option String) (r : AdminReset) (s : SubscriptionSystem) :
    Except String SubscriptionResetResult × SubscriptionSystem :=
  if r.planId ≤ 0 then (.error "invalid planId", s)
  else
    match fault, s.db.plans.find r.planId with
    | some err, _ => (.error err, s)
    | none, none => (.error "record not found", s)
    | none, some plan =>
      let subs := (s.db.subs.rows.filter (r.ofManageable s.users)).insertionSort fun a b =>
        a.userId < b.userId ∨ (a.userId = b.userId ∧
          (a.endTime < b.endTime ∨ (a.endTime = b.endTime ∧ a.id ≤ b.id)))
      (.ok (buildSubscriptionResetResult plan subs r.advanceResetTime),
        { s with db := { s.db with
          subs := resetSelected nextReset plan r (r.ofManageable s.users) s.db.subs } })

/-! ## What an administrator reset does -/

section

variable (nextReset : NextReset) (r : AdminReset) (select : UserSubscription → Bool)

/-- The reset failed and changed nothing, or it reset the rows it takes. -/
inductive AdminResetOutcome (s : SubscriptionSystem) :
    Except String SubscriptionResetResult × SubscriptionSystem → Prop
  | failed (err : String) : AdminResetOutcome s (.error err, s)
  | done {plan : SubscriptionPlan} (result : SubscriptionResetResult) :
      s.db.plans.find r.planId = some plan →
      AdminResetOutcome s (.ok result, { s with db := { s.db with
        subs := resetSelected nextReset plan r select s.db.subs } })

variable {nextReset r select} in
theorem AdminResetOutcome.plans {out : Except String SubscriptionResetResult × SubscriptionSystem}
    (h : AdminResetOutcome nextReset r select s out) : out.2.db.plans = s.db.plans := by
  cases h <;> rfl

theorem find_resetSelected (plan : SubscriptionPlan) (subs : Table UserSubscription.id) (id : Int) :
    (resetSelected nextReset plan r select subs).find id = (subs.find id).map fun sub =>
      if select sub then resetUserSubscription nextReset plan r.now r.advanceResetTime sub
      else sub := by
  rw [resetSelected, Table.find_update]

theorem adminResetUserSubscriptionsByPlan_outcome (fault : Option String) (userId : Int)
    (s : SubscriptionSystem) : AdminResetOutcome nextReset r (r.ofUser userId) s
      (adminResetUserSubscriptionsByPlan nextReset fault userId r s) := by
  unfold adminResetUserSubscriptionsByPlan
  split
  · exact .failed _
  split
  · exact .failed _
  · exact .failed _
  · exact .failed _
  next plan _ hplan =>
  dsimp only
  split
  · exact .failed _
  · exact .done _ hplan

theorem adminResetPlanSubscriptions_outcome (fault : Option String) (s : SubscriptionSystem) :
    AdminResetOutcome nextReset r (r.ofManageable s.users) s
      (adminResetPlanSubscriptions nextReset fault r s) := by
  unfold adminResetPlanSubscriptions
  split
  · exact .failed _
  split
  · exact .failed _
  · exact .failed _
  next plan hplan => exact .done _ hplan

end

end NewApi
