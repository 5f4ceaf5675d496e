import NewApi.Subscription.Groups

/-!
# Back to the first group

A user whose subscriptions with an upgrade group do not overlap is back in the
first group when none of them is left. The subscription then remembers the first
group, and it is the one that the search for the last expired subscription finds.

*Overdue rows.*  A row can be past its end and still have the status active, until
the next expiry. The end of an earlier subscription with the same upgrade group may
move the user back in the meantime, since the search for another active
subscription does not find an overdue one. `Separated` allows for that.
-/

namespace NewApi

open Calendar (Location)
open Runs

/-! ## Trimmed groups -/

theorem trimSpace_empty : trimSpace "" = "" := rfl

theorem trimSpace_idem (text : String) : trimSpace (trimSpace text) = trimSpace text := by
  simp only [trimSpace, String.toList_ofList, Text.trimSpace_trimSpace]

/-- A subscription with an upgrade group that has the status active. -/
def held (userId : Int) (sub : UserSubscription) : Bool :=
  sub.userId = userId ∧ sub.status = .active ∧ sub.upgradeGroup ≠ ""

theorem held_iff {userId : Int} {sub : UserSubscription} : held userId sub = true ↔
    sub.userId = userId ∧ sub.status = .active ∧ sub.upgradeGroup ≠ "" := by
  simp [held]

theorem held_of_upgraded {userId now : Int} {sub : UserSubscription}
    (h : upgraded userId now sub = true) : held userId sub = true := by
  rw [upgraded_iff] at h
  exact held_iff.mpr ⟨h.1, h.2.1, h.2.2.2⟩

/-- A row of a user who had the first group at every purchase. -/
structure RowOf (first : String) (nextId : Int) (x : UserSubscription) : Prop where
  downgrade : x.downgradeGroup = ""
  trimmed : trimSpace x.upgradeGroup = x.upgradeGroup
  id_lt : x.id < nextId
  prev : x.upgradeGroup ≠ "" → x.prevUserGroup = if x.upgradeGroup = first then "" else first

/-- A first group that a row can remember. -/
structure Rememberable (first : String) : Prop where
  ne : first ≠ ""
  trimmed : trimSpace first = first

section

variable {first : String} {env : GroupEnv} {users : Table SubscriptionUser.id}
  {subs : Table UserSubscription.id} {userId nextId : Int} {x : UserSubscription}

theorem RowOf.prev_trimmed (h : RowOf first nextId x) (hfirst : Rememberable first)
    (hup : x.upgradeGroup ≠ "") :
    trimSpace x.prevUserGroup = if x.upgradeGroup = first then "" else first := by
  rw [h.prev hup]
  split
  · rfl
  · exact hfirst.trimmed

/-- The group of the user after the target of an end is applied. -/
def groupAfter (current target : String) : String := if target = "" then current else target

theorem userGroup_moveUser_self (h : (users.find userId).isSome) (target : String) :
    userGroup (moveUser users userId target) userId =
      groupAfter (userGroup users userId) target := by
  rw [userGroup_moveUser h, groupAfter]
  by_cases ht : target = "" <;> simp [ht]

/-- The group that the end of a row sends the user back to. -/
def returnTarget (first current : String) (x : UserSubscription) : String :=
  if x.upgradeGroup ≠ "" ∧ current = x.upgradeGroup ∧ x.upgradeGroup ≠ first then first else ""

theorem returnTarget_eq (h : RowOf first nextId x) (hfirst : Rememberable first) (current : String)
    (hup : x.upgradeGroup ≠ "") (hcur : current = x.upgradeGroup) :
    (if trimSpace x.prevUserGroup = current then "" else trimSpace x.prevUserGroup) =
      returnTarget first current x := by
  subst hcur
  rw [h.prev_trimmed hfirst hup, returnTarget]
  by_cases hg : x.upgradeGroup = first
  · simp [hg]
  · have hne : ¬ first = x.upgradeGroup := fun he => hg he.symm
    simp [hg, hne, hup]

theorem downgradeTarget_eq (h : RowOf first nextId x) (hfirst : Rememberable first) :
    downgradeTarget env users subs x =
      if !env.activeFails &&
          subs.rows.any (fun y => upgraded x.userId env.now y && y.id ≠ x.id) then ""
      else returnTarget first (userGroup users x.userId) x := by
  simp only [downgradeTarget, h.downgrade, trimSpace_empty, h.trimmed, true_and, if_true]
  by_cases hup : x.upgradeGroup = ""
  · simp [hup, returnTarget]
  rw [if_neg hup]
  split
  · rfl
  by_cases hcur : userGroup users x.userId = x.upgradeGroup
  · rw [if_neg (not_not.mpr hcur)]
    exact returnTarget_eq h hfirst _ hup hcur
  · rw [if_pos hcur]
    simp [returnTarget, hcur]

theorem expireTarget_eq (hrows : ∀ y ∈ subs.rows, y.userId = userId → RowOf first nextId y)
    (hfirst : Rememberable first) (hsearch : env.expiredFails = false) :
    expireTarget env users subs userId =
      if !env.activeFails && subs.rows.any (upgraded userId env.now) then ""
      else match lastExpired subs userId with
        | none => ""
        | some last => returnTarget first (userGroup users userId) last := by
  rw [expireTarget]
  split
  · rfl
  rw [hsearch]
  cases hlast : lastExpired subs userId with
  | none => rfl
  | some last =>
    have hmem := List.mem_of_head? hlast
    rw [List.mem_insertionSort, List.mem_filter, decide_eq_true_eq] at hmem
    obtain ⟨hmem, huser, -, -⟩ := hmem
    have h := hrows last hmem huser
    simp only [h.downgrade, trimSpace_empty, h.trimmed, true_and, if_true]
    by_cases hup : last.upgradeGroup = ""
    · simp [hup, returnTarget]
    by_cases hcur : userGroup users userId = last.upgradeGroup
    · have hret := returnTarget_eq h hfirst _ hup hcur
      by_cases hprev : trimSpace last.prevUserGroup = ""
      · rw [if_pos (.inr (.inl hprev)), ← hret, hprev]
        simp
      · rw [if_neg (by simp [hup, hprev, hcur])]
        exact hret
    · rw [if_pos (.inr (.inr hcur))]
      simp [returnTarget, hcur]

theorem groupAfter_returnTarget (hfirst : Rememberable first) (current : String) :
    groupAfter current (returnTarget first current x) = current ∨
      groupAfter current (returnTarget first current x) = first := by
  rw [returnTarget]
  split
  · exact .inr (by simp [groupAfter, hfirst.ne])
  · exact .inl (by simp [groupAfter])

/-- The end of a row moves the user from its group to the first one, and leaves the
user there. -/
theorem groupAfter_returns (hfirst : Rememberable first) {current : String}
    (hup : x.upgradeGroup ≠ "") (hcur : current = x.upgradeGroup ∨ current = first) :
    groupAfter current (returnTarget first current x) = first := by
  rw [returnTarget]
  by_cases hsame : current = x.upgradeGroup
  · by_cases hg : x.upgradeGroup = first
    · simp [groupAfter, hsame, hg]
    · simp [groupAfter, hsame, hg, hup, hfirst.ne]
  · have hfirst' := hcur.resolve_left hsame
    simp only [hsame, false_and, and_false, if_false]
    exact hfirst'

end

/-! ## The last expired row -/

instance : Std.Total endsLater where
  total a b := by
    simp only [endsLater]
    omega

instance : IsTrans UserSubscription endsLater where
  trans a b c hab hbc := by
    simp only [endsLater] at hab hbc ⊢
    omega

theorem lastExpired_eq {subs : Table UserSubscription.id} {userId : Int} {x : UserSubscription}
    (hx : x ∈ subs.rows) (huser : x.userId = userId) (hexpired : x.status = .expired)
    (hup : x.upgradeGroup ≠ "")
    (hlast : ∀ y ∈ subs.rows, y.userId = userId → y.status = .expired →
      y.downgradeGroup ≠ "" ∨ y.upgradeGroup ≠ "" → endsLater x y) :
    lastExpired subs userId = some x := by
  rw [lastExpired]
  generalize hl : subs.rows.filter (fun x => x.userId = userId ∧ x.status = .expired ∧
    (x.downgradeGroup ≠ "" ∨ x.upgradeGroup ≠ "")) = l
  have hmem : ∀ y, y ∈ l.insertionSort endsLater ↔ y ∈ subs.rows ∧ y.userId = userId ∧
      y.status = .expired ∧ (y.downgradeGroup ≠ "" ∨ y.upgradeGroup ≠ "") := by
    intro y
    rw [List.mem_insertionSort, ← hl, List.mem_filter, decide_eq_true_eq]
  have hxl := (hmem x).mpr ⟨hx, huser, hexpired, .inr hup⟩
  have hsorted := List.pairwise_insertionSort endsLater l
  cases hs : l.insertionSort endsLater with
  | nil => rw [hs] at hxl; cases hxl
  | cons y rest =>
    rw [hs] at hxl hsorted
    rcases List.mem_cons.mp hxl with rfl | hrest
    · rfl
    -- Both are at most as late as the other, so they have one id.
    have hyx : endsLater y x := List.rel_of_pairwise_cons hsorted hrest
    obtain ⟨hy, hyu, hye, hyg⟩ := (hmem y).mp (by rw [hs]; exact List.mem_cons_self)
    have hxy := hlast y hy hyu hye hyg
    have hid : y.id = x.id := by
      simp only [endsLater] at hyx hxy
      omega
    rw [List.head?_cons, Table.eq_of_mem hy hx hid]

/-! ## Subscriptions that do not overlap -/

/-- What holds of a user who buys an upgrade group only when none is held. -/
structure Separated (first : String) (userId : Int) (clock : Int) (bought : String)
    (s : SubscriptionSystem) : Prop where
  user : (s.users.find userId).isSome
  row : ∀ x ∈ s.db.subs.rows, x.userId = userId → RowOf first s.nextId x
  one : ∀ x ∈ s.db.subs.rows, ∀ y ∈ s.db.subs.rows, held userId x = true → held userId y = true →
    x = y
  bought_eq : ∀ x ∈ s.db.subs.rows, held userId x = true → bought = x.upgradeGroup
  group : ∀ x ∈ s.db.subs.rows, held userId x = true →
    userGroup s.users userId = x.upgradeGroup ∨
      (userGroup s.users userId = first ∧ x.endTime ≤ clock)
  free : (∀ x ∈ s.db.subs.rows, held userId x = false) → userGroup s.users userId = first
  past : ∀ y ∈ s.db.subs.rows, y.userId = userId → y.status = .expired → y.upgradeGroup ≠ "" →
    y.endTime ≤ clock ∧ ∀ x ∈ s.db.subs.rows, held userId x = true → endsLater x y

section

variable {first : String} {userId clock now : Int} {bought : String} {s s' : SubscriptionSystem}

theorem Separated.later (h : Separated first userId clock bought s) (hnow : clock ≤ now) :
    Separated first userId now bought s where
  user := h.user
  row := h.row
  one := h.one
  bought_eq := h.bought_eq
  group x hx hheld := (h.group x hx hheld).imp id fun hg => ⟨hg.1, by have := hg.2; omega⟩
  free := h.free
  past y hy hu he hg := by
    obtain ⟨hle, hlater⟩ := h.past y hy hu he hg
    exact ⟨by omega, hlater⟩

/-- An end, seen from the rows: the rows that are still held were there, and no new
row is expired unless it has just been. -/
structure RowsEnded (first : String) (userId now : Int) (s s' : SubscriptionSystem) : Prop where
  user : (s'.users.find userId).isSome
  row : ∀ x ∈ s'.db.subs.rows, x.userId = userId → RowOf first s'.nextId x
  held_mem : ∀ x ∈ s'.db.subs.rows, held userId x = true → x ∈ s.db.subs.rows
  past : ∀ y ∈ s'.db.subs.rows, y.userId = userId → y.status = .expired → y.upgradeGroup ≠ "" →
    y ∈ s.db.subs.rows ∨
      (y.endTime ≤ now ∧ ∀ x ∈ s'.db.subs.rows, held userId x = true → endsLater x y)

/-- After an end the user is in the same group or in the first one, in the same one
while an active row is left, and in the first one when none is held. -/
theorem Separated.of_ended (h : Separated first userId now bought s)
    (hrows : RowsEnded first userId now s s')
    (hgroup : userGroup s'.users userId = userGroup s.users userId ∨
      userGroup s'.users userId = first)
    (hkeep : ∀ x ∈ s'.db.subs.rows, upgraded userId now x = true →
      userGroup s'.users userId = userGroup s.users userId)
    (hfree : (∀ x ∈ s'.db.subs.rows, held userId x = false) → userGroup s'.users userId = first) :
    Separated first userId now bought s' where
  user := hrows.user
  row := hrows.row
  one x hx y hy hxh hyh := h.one x (hrows.held_mem x hx hxh) y (hrows.held_mem y hy hyh) hxh hyh
  bought_eq x hx hheld := h.bought_eq x (hrows.held_mem x hx hheld) hheld
  group x hx hheld := by
    have hbefore := h.group x (hrows.held_mem x hx hheld) hheld
    by_cases hend : x.endTime ≤ now
    · rcases hgroup with hsame | hfirst
      · rw [hsame]
        exact hbefore
      · exact .inr ⟨hfirst, hend⟩
    · have hup : upgraded userId now x = true := by
        rw [held_iff] at hheld
        exact upgraded_iff.mpr ⟨hheld.1, hheld.2.1, by omega, hheld.2.2⟩
      rw [hkeep x hx hup]
      exact hbefore
  free := hfree
  past y hy hu he hg := by
    rcases hrows.past y hy hu he hg with hold | hnew
    · obtain ⟨hle, hlater⟩ := h.past y hold hu he hg
      exact ⟨hle, fun x hx hheld => hlater x (hrows.held_mem x hx hheld) hheld⟩
    · exact hnew

theorem Separated.of_kept (h : Separated first userId now bought s)
    (hrows : RowsEnded first userId now s s')
    (hsame : userGroup s'.users userId = userGroup s.users userId)
    (hheld : ∀ x ∈ s.db.subs.rows, held userId x = true → x ∈ s'.db.subs.rows) :
    Separated first userId now bought s' := by
  refine h.of_ended hrows (.inl hsame) (fun _ _ _ => hsame) fun hnone => ?_
  refine hsame.trans (h.free fun x hx => Bool.eq_false_iff.mpr fun hxh => ?_)
  cases hxh.symm.trans (hnone x (hheld x hx hxh))

theorem RowOf.of_same {nextId : Int} {x y : UserSubscription} (h : RowOf first nextId x)
    (hid : y.id = x.id) (hup : y.upgradeGroup = x.upgradeGroup)
    (hprev : y.prevUserGroup = x.prevUserGroup) (hdown : y.downgradeGroup = x.downgradeGroup) :
    RowOf first nextId y where
  downgrade := hdown.trans h.downgrade
  trimmed := by rw [hup]; exact h.trimmed
  id_lt := by rw [hid]; exact h.id_lt
  prev := by rw [hup, hprev]; exact h.prev

/-! ## Cancellation and deletion -/

section

variable {env : GroupEnv} {sub gone : UserSubscription} {among : Table UserSubscription.id}
  (h : Separated first userId env.now bought s) (ht : TakenOut env s s' sub gone among)

include ht

include h in
theorem TakenOut.rows_ended : RowsEnded first userId env.now s s' where
  user := by
    rw [ht.users]
    exact find_moveUser_isSome h.user
  row x hx hu := by
    rw [ht.nextId]
    by_cases hid : x.id = sub.id
    · rw [ht.out x hx hid] at hu ⊢
      exact (h.row sub ht.mem hu).of_same rfl rfl rfl rfl
    · exact h.row x ((ht.kept x hid).mp hx) hu
  held_mem x hx hxh := (ht.active hx (held_iff.mp hxh).2.1).1
  past y hy _ he _ := by
    refine .inl ((ht.kept y fun hid => ?_).mp hy)
    rw [ht.out y hy hid] at he
    cases he

theorem TakenOut.only (hnone : ∀ x ∈ s'.db.subs.rows, held userId x = false) {x : UserSubscription}
    (hx : x ∈ s.db.subs.rows) (hxh : held userId x = true) : x = sub := by
  by_contra hne
  have hid : x.id ≠ sub.id := fun he => hne (Table.eq_of_mem hx ht.mem he)
  cases hxh.symm.trans (hnone x ((ht.kept x hid).mpr hx))

include h

theorem Separated.downgrade_other (hu : sub.userId ≠ userId) :
    Separated first userId env.now bought s' := by
  have hsame : userGroup s'.users userId = userGroup s.users userId := by
    rw [ht.users, userGroup_moveUser h.user, if_neg (fun he => hu he.1.symm)]
  refine h.of_kept (ht.rows_ended h) hsame fun x hx hxh => (ht.kept x fun hid => ?_).mpr hx
  rw [Table.eq_of_mem hx ht.mem hid] at hxh
  exact hu (held_iff.mp hxh).1

theorem Separated.downgrade_own (hsearch : env.activeFails = false) (hfirst : Rememberable first)
    (hu : sub.userId = userId) : Separated first userId env.now bought s' := by
  have hafter : userGroup s'.users userId =
      groupAfter (userGroup s.users userId) (downgradeTarget env s.users among gone) := by
    rw [ht.users, hu]
    exact userGroup_moveUser_self h.user _
  obtain ⟨huser, hid, hgroup⟩ := ht.fields
  have hrow : RowOf first s.nextId gone := by
    have hsub := h.row sub ht.mem hu
    rcases ht.same with rfl | rfl
    · exact hsub
    · exact hsub.of_same rfl rfl rfl rfl
  rw [downgradeTarget_eq hrow hfirst, huser, hu] at hafter
  refine h.of_ended (ht.rows_ended h) ?_ ?_ ?_
  · rw [hafter]
    split
    · exact .inl rfl
    · exact groupAfter_returnTarget hfirst _
  · intro x hx hxup
    obtain ⟨hmem, hne⟩ := ht.active hx (upgraded_iff.mp hxup).2.1
    have hany : (among.rows.any fun y => upgraded userId env.now y && y.id ≠ gone.id) = true :=
      List.any_eq_true.mpr ⟨x, (ht.seen x hne).mpr hmem, by simp [hxup, hid, hne]⟩
    rw [hafter, hsearch, hany]
    rfl
  · intro hnone
    have hany : (among.rows.any fun y => upgraded userId env.now y && y.id ≠ gone.id) = false := by
      rw [List.any_eq_false]
      intro y hy hboth
      simp only [Bool.and_eq_true, decide_eq_true_eq] at hboth
      have hyh := held_of_upgraded hboth.1
      have hne : y.id ≠ sub.id := fun he => hboth.2 (he.trans hid.symm)
      exact hne (congrArg _ (ht.only hnone ((ht.seen y hne).mp hy) hyh))
    rw [hafter, hany, Bool.and_false, if_neg (by simp)]
    by_cases hsh : held userId sub = true
    · refine groupAfter_returns hfirst (by rw [hgroup]; exact (held_iff.mp hsh).2.2) ?_
      rw [hgroup]
      exact (h.group sub ht.mem hsh).imp id And.left
    have hcur : userGroup s.users userId = first := by
      refine h.free fun x hx => Bool.eq_false_iff.mpr fun hxh => ?_
      exact hsh (ht.only hnone hx hxh ▸ hxh)
    rcases @groupAfter_returnTarget first gone hfirst (userGroup s.users userId) with he | he
    · rw [he, hcur]
    · exact he

end

theorem Separated.removes {env : GroupEnv} (h : Separated first userId env.now bought s)
    (hr : Removes env s s') (hsearch : env.activeFails = false) (hfirst : Rememberable first) :
    Separated first userId env.now bought s' := by
  rcases hr with rfl | ⟨sub, gone, among, ht⟩
  · exact h
  by_cases hu : sub.userId = userId
  · exact h.downgrade_own ht hsearch hfirst hu
  · exact h.downgrade_other ht hu

/-! ## Expiry -/

variable {v : Int} {subs : Table UserSubscription.id} {x : UserSubscription}

theorem mem_expireRows (hx : x ∈ (expireRows now v subs).rows) :
    x ∈ subs.rows ∨ ∃ y ∈ subs.rows, y.userId = v ∧ overdue now y = true ∧
      x = { y with status := .expired } := by
  obtain ⟨y, hy, rfl⟩ := Table.mem_update.mp hx
  by_cases hdue : y.userId = v ∧ overdue now y = true
  · rw [if_pos hdue]
    exact .inr ⟨y, hy, hdue.1, hdue.2, rfl⟩
  · rw [if_neg hdue]
    exact .inl hy

theorem mem_expireRows_of_not_due
    (hx : x ∈ subs.rows) (hdue : ¬(x.userId = v ∧ overdue now x = true)) :
    x ∈ (expireRows now v subs).rows := Table.mem_update.mpr ⟨x, hx, if_neg hdue⟩

theorem mem_expireRows_of_due (hx : x ∈ subs.rows) (hdue : x.userId = v ∧ overdue now x = true) :
    { x with status := .expired } ∈ (expireRows now v subs).rows :=
  Table.mem_update.mpr ⟨x, hx, if_pos hdue⟩

theorem overdue_iff : overdue now x = true ↔
    x.status = .active ∧ 0 < x.endTime ∧ x.endTime ≤ now := by simp [overdue]

section

variable {env : GroupEnv} {v : Int} (h : Separated first userId env.now bought s)

include h

theorem Separated.expire_rows : RowsEnded first userId env.now s (expireUser env v s).2 where
  user := find_moveUser_isSome h.user
  row x hx hu := by
    rcases mem_expireRows hx with hold | ⟨y, hy, -, -, rfl⟩
    · exact h.row x hold hu
    · exact (h.row y hy hu).of_same rfl rfl rfl rfl
  held_mem x hx hxh := (mem_expireRows_active hx (held_iff.mp hxh).2.1).1
  past y hy hu he hg := by
    rcases mem_expireRows hy with hold | ⟨z, hz, hzv, hdue, rfl⟩
    · exact .inl hold
    refine .inr ⟨(overdue_iff.mp hdue).2.2, ?_⟩
    intro x hx hxh
    -- The row that is held would be the one that has just expired.
    obtain ⟨hmem, hnot⟩ := mem_expireRows_active hx (held_iff.mp hxh).2.1
    have hzh : held userId z = true := held_iff.mpr ⟨hu, (overdue_iff.mp hdue).1, hg⟩
    rw [h.one x hmem z hz hxh hzh] at hnot
    exact absurd ⟨hzv, hdue⟩ hnot

theorem Separated.lastExpired_held (hx : x ∈ s.db.subs.rows) (hxh : held userId x = true)
    (hdue : overdue env.now x = true) :
    lastExpired (expireRows env.now userId s.db.subs) userId =
      some { x with status := .expired } := by
  obtain ⟨hu, -, hg⟩ := held_iff.mp hxh
  refine lastExpired_eq (mem_expireRows_of_due hx ⟨hu, hdue⟩) hu rfl hg ?_
  intro y hy hyu hye hyg
  have hrow := (h.expire_rows (v := userId)).row y hy hyu
  have hyup : y.upgradeGroup ≠ "" := hyg.resolve_left (fun hd => hd hrow.downgrade)
  rcases mem_expireRows hy with hold | ⟨z, hz, hzu, hzdue, rfl⟩
  · exact (h.past y hold hyu hye hyup).2 x hx hxh
  · have hzh : held userId z = true := held_iff.mpr ⟨hzu, (overdue_iff.mp hzdue).1, hyup⟩
    rw [h.one x hx z hz hxh hzh]
    exact .inr ⟨rfl, Int.le_refl _⟩

theorem Separated.expire_own (hsearch : env.activeFails = false ∧ env.expiredFails = false)
    (hfirst : Rememberable first) :
    Separated first userId env.now bought (expireUser env userId s).2 := by
  have hrows := h.expire_rows (v := userId)
  have hafter : userGroup (expireUser env userId s).2.users userId =
      groupAfter (userGroup s.users userId)
        (expireTarget env s.users (expireRows env.now userId s.db.subs) userId) :=
    userGroup_moveUser_self h.user _
  have htarget := @expireTarget_eq first env s.users (expireRows env.now userId s.db.subs) userId
    s.nextId hrows.row hfirst hsearch.2
  have hgroup : userGroup (expireUser env userId s).2.users userId = userGroup s.users userId ∨
      userGroup (expireUser env userId s).2.users userId = first := by
    rw [hafter, htarget]
    split
    · exact .inl rfl
    split
    · exact .inl rfl
    · exact groupAfter_returnTarget hfirst _
  refine h.of_ended hrows hgroup ?_ ?_
  · exact (expireUser_ended hsearch.1 userId userId s).group h.user
  · intro hnone
    by_cases hany : ∃ x ∈ s.db.subs.rows, held userId x = true
    · obtain ⟨x, hx, hxh⟩ := hany
      have hdue : x.userId = userId ∧ overdue env.now x = true := by
        by_contra hnot
        cases hxh.symm.trans (hnone x (mem_expireRows_of_not_due hx hnot))
      have hblock : (expireRows env.now userId s.db.subs).rows.any (upgraded userId env.now) =
          false := by
        rw [List.any_eq_false]
        intro y hy hyup
        cases (held_of_upgraded hyup).symm.trans (hnone y hy)
      rw [hafter, htarget, hblock, Bool.and_false, if_neg (by simp),
        h.lastExpired_held hx hxh hdue.2]
      exact groupAfter_returns hfirst (held_iff.mp hxh).2.2 ((h.group x hx hxh).imp id And.left)
    · have hcur : userGroup s.users userId = first := by
        exact h.free fun x hx => Bool.eq_false_iff.mpr fun hxh => hany ⟨x, hx, hxh⟩
      rcases hgroup with he | he
      · exact he.trans hcur
      · exact he

theorem Separated.expire_other (hv : v ≠ userId) :
    Separated first userId env.now bought (expireUser env v s).2 := by
  have hsame : userGroup (expireUser env v s).2.users userId = userGroup s.users userId := by
    have hmove := userGroup_moveUser h.user v
      (expireTarget env s.users (expireRows env.now v s.db.subs) v)
    rw [if_neg (fun he => hv he.1.symm)] at hmove
    exact hmove
  refine h.of_kept h.expire_rows hsame fun x hx hxh => mem_expireRows_of_not_due hx fun hd => ?_
  exact hv (hd.1.symm.trans (held_iff.mp hxh).1)

theorem Separated.expire (hsearch : env.activeFails = false ∧ env.expiredFails = false)
    (hfirst : Rememberable first) (v : Int) :
    Separated first userId env.now bought (expireUser env v s).2 := by
  by_cases hv : v = userId
  · subst hv
    exact h.expire_own hsearch hfirst
  · exact h.expire_other hv

end

/-! ## Purchases -/

/-- The end of a plan that is bought now is not before now. -/
def endsAhead (loc : Location) (now : Int) (plan : SubscriptionPlan) : Bool :=
  match calcPlanEndTime loc now plan with
  | .ok endUnix => now ≤ endUnix
  | .error _ => true

/-- A purchase of an upgrade group, with nothing held and an end that is not before
it, for a plan without an explicit downgrade group. -/
def GroupAction.Separate (userId : Int) (s : SubscriptionSystem) : GroupAction → Prop
  | .create loc _ now buyer plan => buyer = userId →
      trimSpace plan.downgradeGroup = "" ∧ (trimSpace plan.upgradeGroup ≠ "" →
        (∀ x ∈ s.db.subs.rows, held userId x = false) ∧ endsAhead loc now plan = true)
  | _ => True

instance (userId : Int) (s : SubscriptionSystem) (a : GroupAction) :
    Decidable (a.Separate userId s) :=
  match a with
  | .create .. => inferInstanceAs (Decidable (_ → _))
  | .expire .. => inferInstanceAs (Decidable True)
  | .invalidate .. => inferInstanceAs (Decidable True)
  | .delete .. => inferInstanceAs (Decidable True)

variable {loc : Location} {buyer : Int} {plan : SubscriptionPlan} {sub : UserSubscription}

theorem Separated.created_row (h : Separated first userId now bought s)
    (hc : Created loc now buyer plan sub s s') (hbuyer : buyer = userId)
    (hdown : trimSpace plan.downgradeGroup = "")
    (hfree : sub.upgradeGroup ≠ "" → ∀ x ∈ s.db.subs.rows, held userId x = false) :
    RowOf first s'.nextId sub := by
  have hrow := hc.row
  refine ⟨?_, ?_, ?_, ?_⟩
  · rw [hrow]
    exact hdown
  · rw [hrow]
    exact trimSpace_idem _
  · have hid : sub.id = s.nextId := by rw [hrow]; rfl
    rw [hid, hc.nextId]
    omega
  · intro hup
    have hcur : userGroup s.users buyer = first := by
      rw [hbuyer]
      exact h.free (hfree hup)
    have hprev : sub.prevUserGroup = if sub.upgradeGroup ≠ "" ∧ first ≠ sub.upgradeGroup
        then first else "" := by
      rw [hrow, hcur]
      congr
    rw [hprev]
    by_cases hg : sub.upgradeGroup = first
    · simp [hg]
    · have hne : first ≠ sub.upgradeGroup := fun he => hg he.symm
      simp [hg, hne, hup]

theorem Separated.created {fault : Option String} (h : Separated first userId now bought s)
    (hc : Created loc now buyer plan sub s s')
    (hsep : (GroupAction.create loc fault now buyer plan).Separate userId s) :
    Separated first userId now
      (if buyer = userId ∧ sub.upgradeGroup ≠ "" then sub.upgradeGroup else bought) s' := by
  have hrows : s'.db.subs.rows = sub :: s.db.subs.rows := Table.rows_insert hc.subs
  have hsubuser : sub.userId = buyer := by rw [hc.row]; rfl
  have hsubgroup : sub.upgradeGroup = trimSpace plan.upgradeGroup := by rw [hc.row]; rfl
  have hsubactive : sub.status = .active := by rw [hc.row]; rfl
  have hsubid : sub.id = s.nextId := by rw [hc.row]; rfl
  have hgroup := hc.group h.user
  have hrow : ∀ x ∈ s'.db.subs.rows, x.userId = userId → RowOf first s'.nextId x := by
    intro x hx hu
    rw [hrows, List.mem_cons] at hx
    rcases hx with rfl | hx
    · obtain ⟨hdown, hup⟩ := hsep (hsubuser.symm.trans hu)
      exact h.created_row hc (hsubuser.symm.trans hu) hdown
        fun hne => (hup (hsubgroup ▸ hne)).1
    · obtain ⟨hd, ht, hid, hp⟩ := h.row x hx hu
      exact ⟨hd, ht, by rw [hc.nextId]; omega, hp⟩
  by_cases hbuy : buyer = userId ∧ sub.upgradeGroup ≠ ""
  · rw [if_pos hbuy]
    rw [if_pos ⟨hbuy.1.symm, hbuy.2⟩] at hgroup
    obtain ⟨hnone, hend⟩ := (hsep hbuy.1).2 (hsubgroup ▸ hbuy.2)
    have honly : ∀ x ∈ s'.db.subs.rows, held userId x = true → x = sub := by
      intro x hx hxh
      rw [hrows, List.mem_cons] at hx
      rcases hx with rfl | hx
      · rfl
      · cases hxh.symm.trans (hnone x hx)
    refine ⟨hc.user h.user, hrow, ?_, ?_, ?_, ?_, ?_⟩
    · intro x hx y hy hxh hyh
      rw [honly x hx hxh, honly y hy hyh]
    · intro x hx hxh
      rw [honly x hx hxh]
    · intro x hx hxh
      rw [honly x hx hxh]
      exact .inl hgroup
    · intro hall
      have hfalse := hall sub (by rw [hrows]; exact List.mem_cons_self)
      cases (held_iff.mpr ⟨hsubuser.trans hbuy.1, hsubactive, hbuy.2⟩).symm.trans hfalse
    · intro y hy hu he hg
      rw [hrows, List.mem_cons] at hy
      rcases hy with rfl | hy
      · cases hsubactive.symm.trans he
      have hle := (h.past y hy hu he hg).1
      refine ⟨hle, fun x hx hxh => ?_⟩
      have hlater : now ≤ sub.endTime := by simpa [endsAhead, hc.endTime] using hend
      have hid := (h.row y hy hu).id_lt
      rw [honly x hx hxh]
      simp only [endsLater]
      omega
  · rw [if_neg hbuy]
    rw [if_neg (fun hb => hbuy ⟨hb.1.symm, hb.2⟩)] at hgroup
    have hmem : ∀ x ∈ s'.db.subs.rows, held userId x = true → x ∈ s.db.subs.rows := by
      intro x hx hxh
      rw [hrows, List.mem_cons] at hx
      rcases hx with rfl | hx
      · obtain ⟨hu, -, hg⟩ := held_iff.mp hxh
        exact absurd ⟨hsubuser.symm.trans hu, hg⟩ hbuy
      · exact hx
    have hended : RowsEnded first userId now s s' := by
      refine ⟨hc.user h.user, hrow, hmem, ?_⟩
      intro y hy hu he hg
      rw [hrows, List.mem_cons] at hy
      rcases hy with rfl | hy
      · cases hsubactive.symm.trans he
      · exact .inl hy
    refine h.of_kept hended hgroup fun x hx _ => ?_
    rw [hrows]
    exact List.mem_cons_of_mem _ hx

end

theorem Separated.step {first : String} (hfirst : Rememberable first) {userId : Int}
    {s : GroupState} (h : Separated first userId s.clock s.bought s.system) {a : GroupAction}
    (htime : s.clock ≤ a.now) (hsearch : a.Searches) (hsep : a.Separate userId s.system) :
    Separated first userId (s.step userId a).clock (s.step userId a).bought
      (s.step userId a).system := by
  have hnow := h.later htime
  cases a with
  | create loc fault now buyer plan =>
    rcases s.step_create userId loc fault now buyer plan with hstep | ⟨sub, system, hc, hstep⟩ <;>
      rw [hstep]
    · exact hnow
    · exact hnow.created hc hsep
  | expire env fails shuffle limit =>
    exact expireDueSubscriptions_invariant
      (I := fun t => Separated first userId env.now s.bought t)
      (fun t v ht => ht.expire hsearch hfirst v) fails shuffle limit hnow
  | invalidate env id operatorRole =>
    exact hnow.removes (adminInvalidateUserSubscription_removes env id operatorRole s.system)
      hsearch hfirst
  | delete env id operatorRole =>
    exact hnow.removes (adminDeleteUserSubscription_removes env id operatorRole s.system) hsearch
      hfirst

/-! ## The group of a user -/

/-- From a user without subscriptions, after any calls at times that do not
decrease: while a subscription with an upgrade group is active and has not ended,
the user is in the upgrade group of the last purchase. When moreover upgrade groups
were bought only while none was held, that is the group of the active subscription,
and a user who holds none is in the first group. -/
theorem group_follows_last_purchase {first : String} {userId clock : Int} {s₀ : SubscriptionSystem}
    {user : SubscriptionUser} (huser : s₀.users.find userId = some user)
    (hgroup : user.group = first) (hnew : ∀ x ∈ s₀.db.subs.rows, x.userId ≠ userId)
    (as : List GroupAction) (s : GroupState)
    (hs : s = run (GroupState.step userId) ⟨s₀, clock, first⟩ as)
    (has : Along (GroupState.step userId) (fun t a => t.clock ≤ a.now ∧ a.Searches)
      ⟨s₀, clock, first⟩ as) :
    (∀ x ∈ s.system.db.subs.rows, x.userId = userId → x.upgradeGroup ≠ "" → x.status = .active →
      s.clock < x.endTime → userGroup s.system.users userId = s.bought) ∧
    (first ≠ "" → trimSpace first = first →
      Along (GroupState.step userId) (fun t a => a.Separate userId t.system)
        ⟨s₀, clock, first⟩ as →
      (∀ x ∈ s.system.db.subs.rows, x.userId = userId → x.upgradeGroup ≠ "" → x.status = .active →
        s.clock < x.endTime → userGroup s.system.users userId = x.upgradeGroup) ∧
      ((∀ x ∈ s.system.db.subs.rows, x.userId = userId → x.upgradeGroup ≠ "" →
        x.status ≠ .active) → userGroup s.system.users userId = first)) := by
  subst hs
  have hsome : (s₀.users.find userId).isSome := by rw [huser]; rfl
  have hstart : LastBought userId ⟨s₀, clock, first⟩ := by
    refine ⟨hsome, fun x hx hup => ?_⟩
    exact absurd (upgraded_iff.mp hup).1 (hnew x hx)
  have hlast := run_invariant (I := LastBought userId)
    (fun t a ht ha => ht.step ha.1 ha.2) hstart has
  refine ⟨fun x hx hu hg hactive hend =>
    hlast.group x hx (upgraded_iff.mpr ⟨hu, hactive, hend, hg⟩), ?_⟩
  intro hne htrim hsep
  have hfirst : userGroup s₀.users userId = first := by rw [userGroup, huser]; exact hgroup
  have hinit : Separated first userId clock first s₀ := by
    have hnone : ∀ x ∈ s₀.db.subs.rows, held userId x ≠ true :=
      fun x hx hh => hnew x hx (held_iff.mp hh).1
    exact ⟨hsome, fun x hx hu => absurd hu (hnew x hx), fun x hx _ _ hh => absurd hh (hnone x hx),
      fun x hx hh => absurd hh (hnone x hx), fun x hx hh => absurd hh (hnone x hx),
      fun _ => hfirst, fun y hy hu => absurd hu (hnew y hy)⟩
  have hend := run_invariant
    (I := fun t : GroupState => Separated first userId t.clock t.bought t.system)
    (fun t a ht ha => ht.step ⟨hne, htrim⟩ ha.1.1 ha.1.2 ha.2) hinit (has.and hsep)
  refine ⟨?_, ?_⟩
  · intro x hx hu hg hactive hlt
    have hheld := held_iff.mpr ⟨hu, hactive, hg⟩
    rw [hlast.group x hx (upgraded_iff.mpr ⟨hu, hactive, hlt, hg⟩)]
    exact hend.bought_eq x hx hheld
  · intro hnone
    refine hend.free fun x hx => ?_
    by_contra hh
    obtain ⟨hu, hactive, hg⟩ := held_iff.mp (by simpa using hh)
    exact hnone x hx hu hg hactive

/-- A plan for some days that moves its buyer to a group. -/
def upgradePlan (id days : Int) (group : String) : SubscriptionPlan where
  id := id
  title := group
  quotaResetPeriod := .never
  quotaResetCustomSeconds := 0
  durationUnit := .day
  durationValue := days
  upgradeGroup := group

/-- One user in the default group, and an administrator. -/
def upgradeShop : SubscriptionSystem where
  users := ⟨[⟨1, 1, "default"⟩, ⟨2, 100, "default"⟩], by decide⟩
  db := ⟨.empty, .empty, .empty⟩
  nextId := 1

/-- A call of the user on a day, in a zone without shifts. -/
def buyOn (day : Int) (plan : SubscriptionPlan) : GroupAction :=
  .create (.fixed 0) none (day * 86400) 1 plan

def calmOn (day : Int) : GroupEnv := ⟨day * 86400, none, false, false⟩

def expireOn (day : Int) : GroupAction := .expire (calmOn day) none id 0

/-- The group of the user and the upgrade groups that are held, after some calls. -/
def upgradeRun (as : List GroupAction) : String × List String :=
  let s := (run (GroupState.step 1) ⟨upgradeShop, 0, "default"⟩ as).system
  (userGroup s.users 1, (s.db.subs.rows.filter (held 1)).map UserSubscription.upgradeGroup)

theorem group_follows_last_purchase_vip :
    let as := [buyOn 1 (upgradePlan 1 10 "vip"), expireOn 5, expireOn 12,
      buyOn 13 (upgradePlan 2 10 "svip"), .invalidate (calmOn 14) 2 100]
    let s := run (GroupState.step 1) ⟨upgradeShop, 0, "default"⟩ as
    upgradeRun (as.take 4) = ("svip", ["svip"]) ∧ (upgradeRun as).2 = [] ∧
      userGroup s.system.users 1 = "default" := by
  intro as s
  have h := @group_follows_last_purchase "default" 1 0 upgradeShop ⟨1, 1, "default"⟩ rfl rfl
    (by decide) as s rfl (by decide +kernel)
  refine ⟨by decide +kernel, by decide +kernel, ?_⟩
  exact (h.2 (by decide) (by decide +kernel) (by decide +kernel)).2 (by decide +kernel)

/-- Three ways in which the group does not follow the held subscriptions. The second
of two overlapping purchases is cancelled, and the user keeps its group. The
purchases overlap and expire, and the user goes back to the group of the first
one. The same plan is bought twice, the second row remembers nothing, and the user
keeps the group. -/
theorem group_after_overlap :
    upgradeRun [buyOn 1 (upgradePlan 1 10 "vip"), buyOn 2 (upgradePlan 2 10 "svip"),
        .invalidate (calmOn 3) 2 100] = ("svip", ["vip"]) ∧
      upgradeRun [buyOn 1 (upgradePlan 1 10 "vip"), buyOn 2 (upgradePlan 2 10 "svip"),
        expireOn 11, expireOn 12] = ("vip", []) ∧
      upgradeRun [buyOn 1 (upgradePlan 1 10 "vip"), buyOn 2 (upgradePlan 1 10 "vip"),
        expireOn 11, expireOn 12] = ("vip", []) := by
  decide +kernel

end NewApi
