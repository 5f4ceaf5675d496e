import NewApi.Lib.Runs
import NewApi.Subscription.Admin

/-!
# The group of a user

A plan with an upgrade group moves its buyer to that group. The subscription keeps
the group the buyer had before, and nothing when the purchase did not change it.
When subscriptions end, by expiry, cancellation or deletion, the user goes back to
the group that the ended subscription remembers.

*While one is left.*  As long as another subscription with an upgrade group is
active and has not ended, no end changes the group. So the group is the one of the
last purchase, whichever subscriptions are left (`LastBought`).

*Ends.*  `Ended` says what the three kinds of ends have in common for one user.
Rows only leave the active ones, and the group stays as it is whenever a
subscription with an upgrade group is left.
-/

namespace NewApi

open Calendar (Location)
open Runs

/-! ## The end of a subscription -/

/-- What the environment decides about one call. -/
structure GroupEnv where
  now : Int
  /-- The error with which the transaction, or the first select, fails. -/
  fault : Option String
  /-- The search for another active subscription fails, which the code ignores. -/
  activeFails : Bool
  /-- The search for the last expired subscription fails, which the code ignores. -/
  expiredFails : Bool

/-- Active, not ended, and with an upgrade group. -/
def upgraded (userId now : Int) (sub : UserSubscription) : Bool :=
  sub.userId = userId ∧ sub.status = .active ∧ now < sub.endTime ∧ sub.upgradeGroup ≠ ""

/-- `downgradeUserGroupForSubscriptionTx`: the group that the user goes back to,
empty for none. -/
def downgradeTarget (env : GroupEnv) (users : Table SubscriptionUser.id)
    (subs : Table UserSubscription.id) (sub : UserSubscription) : String :=
  let downgradeGroup := trimSpace sub.downgradeGroup
  let upgradeGroup := trimSpace sub.upgradeGroup
  let currentGroup := userGroup users sub.userId
  if downgradeGroup = "" ∧ upgradeGroup = "" then ""
  else if !env.activeFails &&
      subs.rows.any (fun x => upgraded sub.userId env.now x && x.id ≠ sub.id) then ""
  else if downgradeGroup = "" ∧ currentGroup ≠ upgradeGroup then ""
  else
    let target := if downgradeGroup = "" then trimSpace sub.prevUserGroup else downgradeGroup
    if target = currentGroup then "" else target

/-- The user is moved to a group unless it is empty. -/
def moveUser (users : Table SubscriptionUser.id) (userId : Int) (target : String) :
    Table SubscriptionUser.id :=
  if target = "" then users else setUserGroup users userId target

/-- `lockManageableUserSubscriptionTx`. -/
def lockManageableUserSubscription (s : SubscriptionSystem) (id operatorRole : Int) :
    Except String UserSubscription :=
  match s.db.subs.find id with
  | none => .error subscriptionTargetNotManageable
  | some sub =>
    match lockManageableSubscriptionUser s.users sub.userId operatorRole with
    | .error err => .error err
    | .ok _ => .ok sub

/-- The answer of a call that ends a subscription. -/
def downgradeMessage (target : String) : String := if target = "" then "" else s!"用户分组将回退到 {target}"

def UserSubscription.cancel (sub : UserSubscription) (now : Int) : UserSubscription :=
  { sub with status := .cancelled, endTime := now }

/-- `AdminInvalidateUserSubscriptionForRole`. -/
def adminInvalidateUserSubscription (env : GroupEnv) (id operatorRole : Int)
    (s : SubscriptionSystem) : Except String String × SubscriptionSystem :=
  if id ≤ 0 then (.error "invalid userSubscriptionId", s)
  else
    match env.fault, lockManageableUserSubscription s id operatorRole with
    | some err, _ => (.error err, s)
    | none, .error err => (.error err, s)
    | none, .ok sub =>
      let subs := s.db.subs.save (sub.cancel env.now)
      let target := downgradeTarget env s.users subs (sub.cancel env.now)
      (.ok (downgradeMessage target),
        { s with users := moveUser s.users sub.userId target, db := { s.db with subs := subs } })

/-- `AdminDeleteUserSubscriptionForRole`. -/
def adminDeleteUserSubscription (env : GroupEnv) (id operatorRole : Int)
    (s : SubscriptionSystem) : Except String String × SubscriptionSystem :=
  if id ≤ 0 then (.error "invalid userSubscriptionId", s)
  else
    match env.fault, lockManageableUserSubscription s id operatorRole with
    | some err, _ => (.error err, s)
    | none, .error err => (.error err, s)
    | none, .ok sub =>
      let target := downgradeTarget env s.users s.db.subs sub
      (.ok (downgradeMessage target),
        { s with
          users := moveUser s.users sub.userId target
          db := { s.db with subs := s.db.subs.remove id } })

/-! ## Expiry -/

def overdue (now : Int) (sub : UserSubscription) : Bool :=
  sub.status = .active ∧ 0 < sub.endTime ∧ sub.endTime ≤ now

/-- `ORDER BY end_time desc, id desc`. -/
def endsLater (a b : UserSubscription) : Prop :=
  b.endTime < a.endTime ∨ (a.endTime = b.endTime ∧ b.id ≤ a.id)

instance : DecidableRel endsLater := fun _ _ => inferInstanceAs (Decidable (_ ∨ _))

/-- The expired subscription of a user that ended last, of those with a group. -/
def lastExpired (subs : Table UserSubscription.id) (userId : Int) : Option UserSubscription :=
  ((subs.rows.filter fun x => x.userId = userId ∧ x.status = .expired ∧
    (x.downgradeGroup ≠ "" ∨ x.upgradeGroup ≠ "")).insertionSort endsLater).head?

/-- The group that a user goes back to when subscriptions have expired, empty for
none. -/
def expireTarget (env : GroupEnv) (users : Table SubscriptionUser.id)
    (subs : Table UserSubscription.id) (userId : Int) : String :=
  let currentGroup := userGroup users userId
  if !env.activeFails && subs.rows.any (upgraded userId env.now) then ""
  else
    match env.expiredFails, lastExpired subs userId with
    | true, _ => ""
    | false, none => ""
    | false, some last =>
      let downgradeGroup := trimSpace last.downgradeGroup
      let upgradeGroup := trimSpace last.upgradeGroup
      let prevGroup := trimSpace last.prevUserGroup
      if downgradeGroup = "" ∧ (upgradeGroup = "" ∨ prevGroup = "" ∨
        currentGroup ≠ upgradeGroup) then
        ""
      else
        let target := if downgradeGroup = "" then prevGroup else downgradeGroup
        if target = currentGroup then "" else target

def expireRows (now userId : Int) (subs : Table UserSubscription.id) : Table UserSubscription.id :=
  subs.update
    (fun x => if x.userId = userId ∧ overdue now x then { x with status := .expired } else x)
    (fun x => by split <;> rfl)

/-- The transaction of `ExpireDueSubscriptions` for one user: how many rows expire,
and the system. -/
def expireUser (env : GroupEnv) (userId : Int) (s : SubscriptionSystem) :
    Nat × SubscriptionSystem :=
  let subs := expireRows env.now userId s.db.subs
  let target := expireTarget env s.users subs userId
  (s.db.subs.rows.countP fun x => x.userId = userId ∧ overdue env.now x,
    { s with users := moveUser s.users userId target, db := { s.db with subs := subs } })

/-- A transaction of a user that fails. -/
structure ExpireFault where
  userId : Int
  /-- It failed after the update of the rows, which are counted then. -/
  counted : Bool
  err : String

/-- The loop over the users. A failed transaction ends it. -/
def expireUsers (env : GroupEnv) (fails : Option ExpireFault) : List Int → Nat →
    SubscriptionSystem → Nat × Option String × SubscriptionSystem
  | [], count, s => (count, none, s)
  | userId :: rest, count, s =>
    let (expired, s') := expireUser env userId s
    match fails.filter fun f => f.userId = userId with
    | some f => (if f.counted then count + expired else count, some f.err, s)
    | none => expireUsers env fails rest (count + expired) s'

/-- `ExpireDueSubscriptions`. The users come in the order of a map, which is any
order. -/
def expireDueSubscriptions (env : GroupEnv) (fails : Option ExpireFault)
    (shuffle : List Int → List Int) (limit : Nat) (s : SubscriptionSystem) :
    Nat × Option String × SubscriptionSystem :=
  match env.fault with
  | some err => (0, some err, s)
  | none =>
    let due := ((s.db.subs.rows.filter (overdue env.now)).insertionSort
      fun a b => a.endTime < b.endTime ∨ (a.endTime = b.endTime ∧ a.id ≤ b.id)).take
        (if limit = 0 then 200 else limit)
    let userIds := ((due.filter fun sub => 0 < sub.userId).map UserSubscription.userId).dedup
    expireUsers env fails (shuffle userIds) 0 s

/-! ## Calls -/

/-- The calls that change the group of a user. -/
inductive GroupAction
  | create (loc : Location) (fault : Option String) (now userId : Int) (plan : SubscriptionPlan)
  | expire (env : GroupEnv) (fails : Option ExpireFault) (shuffle : List Int → List Int)
      (limit : Nat)
  | invalidate (env : GroupEnv) (id operatorRole : Int)
  | delete (env : GroupEnv) (id operatorRole : Int)

def GroupAction.now : GroupAction → Int
  | .create _ _ now _ _ => now
  | .expire env _ _ _ => env.now
  | .invalidate env _ _ => env.now
  | .delete env _ _ => env.now

def GroupAction.Searches : GroupAction → Prop
  | .create .. => True
  | .expire env _ _ _ => env.activeFails = false ∧ env.expiredFails = false
  | .invalidate env _ _ => env.activeFails = false
  | .delete env _ _ => env.activeFails = false

instance (a : GroupAction) : Decidable a.Searches :=
  match a with
  | .create .. => inferInstanceAs (Decidable True)
  | .expire .. => inferInstanceAs (Decidable (_ ∧ _))
  | .invalidate .. => inferInstanceAs (Decidable (_ = _))
  | .delete .. => inferInstanceAs (Decidable (_ = _))

def GroupAction.apply (s : SubscriptionSystem) : GroupAction → SubscriptionSystem
  | .create loc fault now userId plan =>
    (createUserSubscriptionFromPlan loc fault now userId plan s).2
  | .expire env fails shuffle limit => (expireDueSubscriptions env fails shuffle limit s).2.2
  | .invalidate env id operatorRole => (adminInvalidateUserSubscription env id operatorRole s).2
  | .delete env id operatorRole => (adminDeleteUserSubscription env id operatorRole s).2

/-- The upgrade group that a call has sold to a user, if it has. -/
def GroupAction.sold (userId : Int) (s : SubscriptionSystem) : GroupAction → Option String
  | .create loc fault now buyer plan =>
    match createUserSubscriptionFromPlan loc fault now buyer plan s with
    | (.ok sub, _) => if buyer = userId ∧ sub.upgradeGroup ≠ "" then some sub.upgradeGroup else none
    | _ => none
  | _ => none

/-- The system, the time of the last call and the upgrade group that the user bought
last, the group at the start before that. -/
structure GroupState where
  system : SubscriptionSystem
  clock : Int
  bought : String

def GroupState.step (userId : Int) (s : GroupState) (a : GroupAction) : GroupState where
  system := a.apply s.system
  clock := a.now
  bought := (a.sold userId s.system).getD s.bought

/-! ## What the end of a subscription does to the group -/

variable {sub : UserSubscription} {userId id : Int} {users : Table SubscriptionUser.id}
  {s s' : SubscriptionSystem}

theorem upgraded_iff {now : Int} : upgraded userId now sub = true ↔
    sub.userId = userId ∧ sub.status = .active ∧ now < sub.endTime ∧ sub.upgradeGroup ≠ "" := by
  simp [upgraded]

theorem find_setUserGroup_isSome {group : String} (h : (users.find id).isSome) :
    ((setUserGroup users userId group).find id).isSome := by
  rw [setUserGroup]
  split
  · exact h
  rw [Table.find_save]
  split
  · simpa using h
  · exact h

theorem find_moveUser_isSome {target : String} (h : (users.find id).isSome) :
    ((moveUser users userId target).find id).isSome := by
  rw [moveUser]
  split
  · exact h
  · exact find_setUserGroup_isSome h

theorem userGroup_moveUser (h : (users.find id).isSome) (userId : Int) (target : String) :
    userGroup (moveUser users userId target) id =
      if id = userId ∧ target ≠ "" then target else userGroup users id := by
  rw [moveUser]
  by_cases htarget : target = ""
  · simp [htarget]
  rw [if_neg htarget, userGroup_setUserGroup]
  by_cases hid : id = userId
  · subst hid
    simp [h, htarget]
  · simp [hid]

/-- What the transactions that end subscriptions have in common: another active
subscription with an upgrade group keeps the group. -/
structure Ended (userId now : Int) (s s' : SubscriptionSystem) : Prop where
  user : (s.users.find userId).isSome → (s'.users.find userId).isSome
  rows : ∀ x ∈ s'.db.subs.rows, upgraded userId now x = true → x ∈ s.db.subs.rows
  group : (s.users.find userId).isSome → ∀ x ∈ s'.db.subs.rows, upgraded userId now x = true →
    userGroup s'.users userId = userGroup s.users userId

theorem Ended.refl (userId now : Int) (s : SubscriptionSystem) : Ended userId now s s :=
  ⟨id, fun _ hx _ => hx, fun _ _ _ _ => rfl⟩

theorem Ended.trans {now : Int} {s₁ s₂ s₃ : SubscriptionSystem} (h : Ended userId now s₁ s₂)
    (h' : Ended userId now s₂ s₃) : Ended userId now s₁ s₃ where
  user hu := h'.user (h.user hu)
  rows x hx hup := h.rows x (h'.rows x hx hup) hup
  group hu x hx hup := by
    rw [h'.group (h.user hu) x hx hup, h.group hu x (h'.rows x hx hup) hup]

section

variable {env : GroupEnv} {users : Table SubscriptionUser.id} {subs : Table UserSubscription.id}
  {x : UserSubscription}

theorem downgradeTarget_of_upgraded (hsearch : env.activeFails = false) (hx : x ∈ subs.rows)
    (hup : upgraded sub.userId env.now x = true) (hid : x.id ≠ sub.id) :
    downgradeTarget env users subs sub = "" := by
  have hany : (subs.rows.any fun x => upgraded sub.userId env.now x && x.id ≠ sub.id) = true :=
    List.any_eq_true.mpr ⟨x, hx, by simp [hup, hid]⟩
  rw [downgradeTarget]
  simp only [hsearch, hany, Bool.not_false, Bool.and_self, if_true]
  split <;> rfl

theorem expireTarget_of_upgraded (hsearch : env.activeFails = false) (hx : x ∈ subs.rows)
    (hup : upgraded userId env.now x = true) : expireTarget env users subs userId = "" := by
  have hany : subs.rows.any (upgraded userId env.now) = true := List.any_eq_true.mpr ⟨x, hx, hup⟩
  rw [expireTarget]
  simp only [hsearch, hany, Bool.not_false, Bool.and_self, if_true]

theorem mem_expireRows_active {now : Int} (hx : x ∈ (expireRows now userId subs).rows)
    (hactive : x.status = .active) :
    x ∈ subs.rows ∧ ¬(x.userId = userId ∧ overdue now x = true) := by
  obtain ⟨y, hy, rfl⟩ := Table.mem_update.mp hx
  split at hactive
  · cases hactive
  next hkeep =>
    rw [if_neg hkeep]
    exact ⟨hy, hkeep⟩

end

variable {env : GroupEnv} {now : Int}

theorem expireUser_ended (hsearch : env.activeFails = false) (userId v : Int)
    (s : SubscriptionSystem) : Ended userId env.now s (expireUser env v s).2 where
  user h := find_moveUser_isSome h
  rows x hx hup := (mem_expireRows_active hx (upgraded_iff.mp hup).2.1).1
  group hu x hx hup := by
    show userGroup (moveUser _ v _) userId = _
    rw [userGroup_moveUser hu]
    by_cases hv : userId = v
    · subst hv
      have hnone : expireTarget env s.users (expireRows env.now userId s.db.subs) userId = "" :=
        expireTarget_of_upgraded hsearch hx hup
      simp [hnone]
    · simp [hv]

theorem lockManageableUserSubscription_ok {operatorRole : Int}
    (h : lockManageableUserSubscription s id operatorRole = .ok sub) :
    s.db.subs.find id = some sub := by
  cases hfind : s.db.subs.find id with
  | none => simp [lockManageableUserSubscription, hfind] at h
  | some found =>
    simp only [lockManageableUserSubscription, hfind] at h
    split at h
    · cases h
    · rw [Except.ok.inj h]

/-- A cancellation or deletion takes the row `sub` out of the active ones and moves its user. `gone`
is the row as the target sees it, and `among` are the rows that are searched for another one. -/
structure TakenOut (env : GroupEnv) (s s' : SubscriptionSystem) (sub gone : UserSubscription)
    (among : Table UserSubscription.id) : Prop where
  mem : sub ∈ s.db.subs.rows
  same : gone = sub ∨ gone = sub.cancel env.now
  users : s'.users = moveUser s.users sub.userId (downgradeTarget env s.users among gone)
  nextId : s'.nextId = s.nextId
  kept : ∀ x, x.id ≠ sub.id → (x ∈ s'.db.subs.rows ↔ x ∈ s.db.subs.rows)
  seen : ∀ x, x.id ≠ sub.id → (x ∈ among.rows ↔ x ∈ s.db.subs.rows)
  out : ∀ x ∈ s'.db.subs.rows, x.id = sub.id → x = sub.cancel env.now

/-- The call fails and changes nothing, or takes a row out. -/
def Removes (env : GroupEnv) (s s' : SubscriptionSystem) : Prop :=
  s' = s ∨ ∃ sub gone among, TakenOut env s s' sub gone among

theorem adminInvalidateUserSubscription_removes (env : GroupEnv) (id operatorRole : Int)
    (s : SubscriptionSystem) :
    Removes env s (adminInvalidateUserSubscription env id operatorRole s).2 := by
  unfold adminInvalidateUserSubscription
  split
  · exact .inl rfl
  split
  · exact .inl rfl
  · exact .inl rfl
  next sub _ hlock =>
  have hkept : ∀ x, x.id ≠ sub.id →
      (x ∈ (s.db.subs.save (sub.cancel env.now)).rows ↔ x ∈ s.db.subs.rows) := by
    refine fun x hne => ⟨fun hx => ?_, fun hx => Table.mem_save_of_ne hx hne⟩
    rcases Table.mem_save hx with rfl | hold
    · exact absurd rfl hne
    · exact hold.1
  refine .inr ⟨sub, sub.cancel env.now, _, Table.find_mem (lockManageableUserSubscription_ok hlock),
    .inr rfl, rfl, rfl, hkept, hkept, fun x hx hid => ?_⟩
  exact (Table.mem_save hx).resolve_right fun hold => hold.2 hid

theorem adminDeleteUserSubscription_removes (env : GroupEnv) (id operatorRole : Int)
    (s : SubscriptionSystem) :
    Removes env s (adminDeleteUserSubscription env id operatorRole s).2 := by
  unfold adminDeleteUserSubscription
  split
  · exact .inl rfl
  split
  · exact .inl rfl
  · exact .inl rfl
  next sub _ hlock =>
  have hfind := lockManageableUserSubscription_ok hlock
  obtain rfl : sub.id = id := Table.find_key hfind
  exact .inr ⟨sub, sub, s.db.subs, Table.find_mem hfind, .inl rfl, rfl, rfl,
    fun x hne => Table.mem_remove.trans (and_iff_left hne), fun _ _ => Iff.rfl,
    fun x hx hid => absurd hid (Table.mem_remove.mp hx).2⟩

section

variable {gone x : UserSubscription} {among : Table UserSubscription.id}
  (h : TakenOut env s s' sub gone among)

include h

theorem TakenOut.fields :
    gone.userId = sub.userId ∧ gone.id = sub.id ∧ gone.upgradeGroup = sub.upgradeGroup := by
  rcases h.same with rfl | rfl <;> exact ⟨rfl, rfl, rfl⟩

theorem TakenOut.active (hx : x ∈ s'.db.subs.rows) (hactive : x.status = .active) :
    x ∈ s.db.subs.rows ∧ x.id ≠ sub.id := by
  have hne : x.id ≠ sub.id := by
    intro hid
    rw [h.out x hx hid] at hactive
    cases hactive
  exact ⟨(h.kept x hne).mp hx, hne⟩

theorem TakenOut.ended (hsearch : env.activeFails = false) (userId : Int) :
    Ended userId env.now s s' where
  user hu := by
    rw [h.users]
    exact find_moveUser_isSome hu
  rows x hx hup := (h.active hx (upgraded_iff.mp hup).2.1).1
  group hu x hx hup := by
    obtain ⟨hmem, hne⟩ := h.active hx (upgraded_iff.mp hup).2.1
    obtain ⟨huser, hid, -⟩ := h.fields
    rw [h.users, userGroup_moveUser hu]
    by_cases hv : userId = sub.userId
    · have hnone : downgradeTarget env s.users among gone = "" :=
        downgradeTarget_of_upgraded hsearch ((h.seen x hne).mpr hmem) (by rwa [huser, ← hv])
          (by rwa [hid])
      simp [hnone]
    · simp [hv]

end

theorem Removes.ended (h : Removes env s s') (hsearch : env.activeFails = false) (userId : Int) :
    Ended userId env.now s s' := by
  rcases h with rfl | ⟨sub, gone, among, h⟩
  · exact .refl userId env.now s'
  · exact h.ended hsearch userId

theorem expireUsers_invariant {fails : Option ExpireFault} {I : SubscriptionSystem → Prop}
    (hstep : ∀ s v, I s → I (expireUser env v s).2) {userIds : List Int} {count : Nat} (hs : I s) :
    I (expireUsers env fails userIds count s).2.2 := by
  induction userIds generalizing count s with
  | nil => exact hs
  | cons v rest ih =>
    simp only [expireUsers]
    split
    · exact hs
    · exact ih (hstep s v hs)

theorem expireDueSubscriptions_invariant {I : SubscriptionSystem → Prop}
    (hstep : ∀ s v, I s → I (expireUser env v s).2) (fails : Option ExpireFault)
    (shuffle : List Int → List Int) (limit : Nat) (hs : I s) :
    I (expireDueSubscriptions env fails shuffle limit s).2.2 := by
  rw [expireDueSubscriptions]
  split
  · exact hs
  · exact expireUsers_invariant hstep hs

/-! ## The last purchase -/

/-- While a subscription with an upgrade group is active, the user is in the group
that was bought last. -/
structure LastBought (userId : Int) (s : GroupState) : Prop where
  user : (s.system.users.find userId).isSome
  group : ∀ x ∈ s.system.db.subs.rows, upgraded userId s.clock x = true →
    userGroup s.system.users userId = s.bought

theorem LastBought.of_ended {s : GroupState} {system : SubscriptionSystem}
    (h : LastBought userId s) (htime : s.clock ≤ now) (hend : Ended userId now s.system system) :
    LastBought userId ⟨system, now, s.bought⟩ where
  user := hend.user h.user
  group x hx hup := by
    have hbefore : upgraded userId s.clock x = true := by
      rw [upgraded_iff] at hup ⊢
      have hlt : now < x.endTime := hup.2.2.1
      exact ⟨hup.1, hup.2.1, by omega, hup.2.2.2⟩
    exact (hend.group h.user x hx hup).trans (h.group x (hend.rows x hx hup) hbefore)

theorem Created.group {loc : Location} {plan : SubscriptionPlan}
    (h : Created loc now userId plan sub s s') (hu : (s.users.find id).isSome) :
    userGroup s'.users id =
      if id = userId ∧ sub.upgradeGroup ≠ "" then sub.upgradeGroup else userGroup s.users id := by
  rw [h.users]
  split
  next hup =>
    rw [userGroup_setUserGroup]
    by_cases hid : id = userId
    · subst hid
      simp [hu, hup.1]
    · simp [hid]
  next hup =>
    by_cases hid : id = userId
    · subst hid
      by_cases hne : sub.upgradeGroup = ""
      · simp [hne]
      have hsame : userGroup s.users id = sub.upgradeGroup := by
        by_contra hd
        exact hup ⟨hne, hd⟩
      simp [hne, hsame]
    · simp [hid]

theorem Created.user {loc : Location} {plan : SubscriptionPlan}
    (h : Created loc now userId plan sub s s') (hu : (s.users.find id).isSome) :
    (s'.users.find id).isSome := by
  rw [h.users]
  split
  · exact find_setUserGroup_isSome hu
  · exact hu

theorem GroupState.step_create (s : GroupState) (userId : Int) (loc : Location)
    (fault : Option String) (now buyer : Int) (plan : SubscriptionPlan) :
    s.step userId (.create loc fault now buyer plan) = { s with clock := now } ∨
      ∃ sub system, Created loc now buyer plan sub s.system system ∧
        s.step userId (.create loc fault now buyer plan) = ⟨system, now,
          if buyer = userId ∧ sub.upgradeGroup ≠ "" then sub.upgradeGroup else s.bought⟩ := by
  simp only [GroupState.step, GroupAction.apply, GroupAction.sold, GroupAction.now]
  rcases hcall : createUserSubscriptionFromPlan loc fault now buyer plan s.system with
    ⟨err | sub, system⟩
  · obtain rfl := createUserSubscriptionFromPlan_error hcall
    exact .inl rfl
  · refine .inr ⟨sub, system, createUserSubscriptionFromPlan_ok hcall, ?_⟩
    dsimp only
    split <;> rfl

theorem LastBought.step {s : GroupState} (h : LastBought userId s) {a : GroupAction}
    (htime : s.clock ≤ a.now) (hsearch : a.Searches) : LastBought userId (s.step userId a) := by
  cases a with
  | create loc fault now buyer plan =>
    rcases s.step_create userId loc fault now buyer plan with hstep | ⟨sub, system, hc, hstep⟩ <;>
      rw [hstep]
    · exact h.of_ended htime (Ended.refl userId now s.system)
    refine ⟨hc.user h.user, ?_⟩
    intro x hx hup
    show userGroup system.users userId = _
    rw [hc.group h.user]
    by_cases hbuy : buyer = userId ∧ sub.upgradeGroup ≠ ""
    · rw [if_pos ⟨hbuy.1.symm, hbuy.2⟩, if_pos hbuy]
    rw [if_neg (fun hb => hbuy ⟨hb.1.symm, hb.2⟩), if_neg hbuy]
    rw [upgraded_iff] at hup
    rw [Table.rows_insert hc.subs, List.mem_cons] at hx
    rcases hx with rfl | hx
    · have hbuyer : x.userId = buyer := by rw [hc.row]; rfl
      exact absurd ⟨hbuyer.symm.trans hup.1, hup.2.2.2⟩ hbuy
    · have hlt : now < x.endTime := hup.2.2.1
      have htime' : s.clock ≤ now := htime
      exact h.group x hx (upgraded_iff.mpr ⟨hup.1, hup.2.1, by omega, hup.2.2.2⟩)
  | expire env fails shuffle limit =>
    refine h.of_ended htime ?_
    exact expireDueSubscriptions_invariant (I := fun t => Ended userId env.now s.system t)
      (fun t v ht => ht.trans (expireUser_ended hsearch.1 userId v t)) fails shuffle limit
      (.refl userId env.now s.system)
  | invalidate env id operatorRole =>
    exact h.of_ended htime
      ((adminInvalidateUserSubscription_removes env id operatorRole s.system).ended hsearch userId)
  | delete env id operatorRole =>
    exact h.of_ended htime
      ((adminDeleteUserSubscription_removes env id operatorRole s.system).ended hsearch userId)

end NewApi
