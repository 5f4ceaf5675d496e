import NewApi.Lib.Runs
import NewApi.Subscription.Candidates

/-!
# The ledger of a subscription

A subscription has one used amount and no record of the period a request was
charged in. The ledger keeps that record next to the database: how often each
subscription was renewed, and for every request the subscription and the period
it was charged in and its net amount, that is the amount taken in advance plus
the settled differences minus what was given back. The database moves exactly as
the calls move it, and the ledger only watches.

*Steps.*  A step is one call with its transactions, at any time. The rest of the
file says what each call does to the row of one subscription.
-/

namespace NewApi

/-! ## The ledger -/

/-- What is known about a request that was charged. -/
structure Charge where
  requestId : String
  subscription : Int
  /-- How often the subscription had been renewed when the request was charged. -/
  period : Nat
  net : Int
deriving DecidableEq

/-- The database with the periods of the subscriptions and the charged requests. -/
structure Ledger where
  db : SubscriptionDb
  periods : Int → Nat
  charges : Table Charge.requestId

/-- One call. -/
inductive LedgerAction
  | preConsume (env : SubscriptionEnv) (requestId : String) (userId amount : Int)
  /-- The settlement of a request by a difference, on the subscription it was charged to. -/
  | settle (fault : Option String) (requestId : String) (delta : Int)
  | refund (env : RefundEnv) (requestId : String)
  /-- The transaction of one row of `ResetDueSubscriptions`. -/
  | resetRow (env : ResetEnv) (id : Int)

/-- The amount that a refund takes off the used amount. -/
def refundedAmount (env : RefundEnv) (requestId : String) (db : SubscriptionDb) : Int :=
  if blank requestId then 0
  else match env.read, db.records.find requestId with
    | none, some record =>
      if record.status = .refunded ∨ record.preConsumed ≤ 0 then 0
      else match postConsumeUserSubscriptionDelta env.move record.userSubscriptionId
          (-record.preConsumed) db with
        | (.ok (), _) => record.preConsumed
        | (.error _, _) => 0
    | _, _ => 0

/-- The periods after the given subscriptions were renewed. -/
def renewAll (periods : Int → Nat) (ids : List Int) (id : Int) : Nat :=
  if id ∈ ids then periods id + 1 else periods id

/-- The charges with a request's net amount moved. -/
def moveNet (charges : Table Charge.requestId) (requestId : String) (delta : Int) :
    Table Charge.requestId :=
  match charges.find requestId with
  | none => charges
  | some c => charges.save { c with net := c.net + delta }

/-- A request is charged in the period that its subscription is in then. -/
def addCharge (charges : Table Charge.requestId) (c : Charge) : Table Charge.requestId :=
  match charges.insert c with
  | none => charges
  | some charges => charges

def Ledger.step (nextReset : NextReset) (s : Ledger) : LedgerAction → Ledger
  | .preConsume env requestId userId amount =>
    match preConsumeUserSubscription nextReset env requestId userId amount s.db with
    | some (.ok result, db) =>
      match s.db.records.find requestId with
      | some _ => { s with db := db }
      | none =>
        let periods := renewAll s.periods (renewals nextReset env amount s.db.plans
          (activeSubscriptions s.db.subs userId env.now))
        { db := db
          periods := periods
          charges := addCharge s.charges ⟨requestId, result.userSubscriptionId,
            periods result.userSubscriptionId, amount⟩ }
    | _ => s
  | .settle fault requestId delta =>
    match s.charges.find requestId with
    | none => s
    | some c =>
      match postConsumeUserSubscriptionDelta fault c.subscription delta s.db with
      | (.ok (), db) => { s with db := db, charges := moveNet s.charges requestId delta }
      | (.error _, db) => { s with db := db }
  | .refund env requestId =>
    { s with
      db := (refundSubscriptionPreConsume env requestId s.db).2
      charges := moveNet s.charges requestId (-refundedAmount env requestId s.db) }
  | .resetRow env id =>
    match s.db.subs.find id with
    | none => s
    | some sub =>
      match s.db.plans.find sub.planId with
      | none => s
      | some plan =>
        match resetDueRow nextReset env plan id s.db with
        | some (.ok true, db) =>
          { s with
            db := db
            periods := renewAll s.periods
              (if renews nextReset env.rounds plan env.now sub then [id] else []) }
        | _ => s

/-- The net amount of the requests that a subscription was charged for in a
period. -/
def netIn (charges : Table Charge.requestId) (id : Int) (period : Nat) : Int :=
  (charges.rows.map fun c => if c.subscription = id ∧ c.period = period then c.net else 0).sum

/-- The net amount of the requests of the current period of a subscription. -/
def Ledger.periodNet (s : Ledger) (id : Int) : Int := netIn s.charges id (s.periods id)

/-- The request was charged to the subscription before its last renewal. -/
def Ledger.Earlier (s : Ledger) (id : Int) (requestId : String) : Prop :=
  ∃ c, s.charges.find requestId = some c ∧ c.subscription = id ∧ c.period ≠ s.periods id

instance (s : Ledger) (id : Int) (requestId : String) : Decidable (s.Earlier id requestId) :=
  Table.decidableFound _

/-- A step that gives something back of a request of an earlier period: a
difference downwards, or the refund of an open record. -/
def Ledger.TakesEarlier (s : Ledger) (id : Int) : LedgerAction → Prop
  | .preConsume .. => False
  | .settle _ requestId delta => delta < 0 ∧ s.Earlier id requestId
  | .refund _ requestId => s.Earlier id requestId ∧
      ∃ record, s.db.records.find requestId = some record ∧ record.status = .consumed
  | .resetRow .. => False

instance (s : Ledger) (id : Int) (a : LedgerAction) : Decidable (s.TakesEarlier id a) :=
  match a with
  | .preConsume .. => inferInstanceAs (Decidable False)
  | .settle _ _ _ => inferInstanceAs (Decidable (_ ∧ _))
  | .refund _ _ => @instDecidableAnd _ _ _ (Table.decidableFound _)
  | .resetRow .. => inferInstanceAs (Decidable False)

/-! ## Net amounts -/

variable {c x : Charge} {charges : Table Charge.requestId} {requestId : String}

theorem netIn_addCharge (h : charges.find c.requestId = none) (id : Int) (period : Nat) :
    netIn (addCharge charges c) id period =
      (if c.subscription = id ∧ c.period = period then c.net else 0) + netIn charges id period := by
  obtain ⟨charges', hinsert⟩ := Option.isSome_iff_exists.mp (Table.insert_isSome h)
  rw [addCharge, hinsert, netIn, netIn, Table.rows_insert hinsert, List.map_cons, List.sum_cons]

theorem netIn_moveNet (h : charges.find requestId = some c) (delta id : Int) (period : Nat) :
    netIn (moveNet charges requestId delta) id period = netIn charges id period +
      if c.subscription = id ∧ c.period = period then delta else 0 := by
  have hid : c.requestId = requestId := Table.find_key h
  have hsum := Table.sum_save (fun c : Charge =>
    if c.subscription = id ∧ c.period = period then c.net else 0)
    (r := { c with net := c.net + delta }) (hid ▸ h)
  simp only [moveNet, h, netIn, hsum]
  split <;> omega

theorem netIn_eq_zero {id : Int} {period : Nat}
    (h : ∀ c ∈ charges.rows, c.subscription = id → c.period < period) :
    netIn charges id period = 0 := by
  rw [netIn]
  generalize charges.rows = rows at h ⊢
  induction rows with
  | nil => rfl
  | cons c rows ih =>
    have hne : ¬(c.subscription = id ∧ c.period = period) := by
      rintro ⟨hid, hperiod⟩
      have := h c (by simp) hid
      omega
    have hrest := ih fun x hx => h x (List.mem_cons_of_mem _ hx)
    simp [hne, hrest]

theorem mem_addCharge (h : x ∈ (addCharge charges c).rows) : x = c ∨ x ∈ charges.rows := by
  rw [addCharge] at h
  split at h
  · exact .inr h
  next hinsert =>
    rw [Table.rows_insert hinsert] at h
    exact List.mem_cons.mp h

theorem find_addCharge (h : (addCharge charges c).find requestId = some x) :
    x = c ∨ charges.find requestId = some x := by
  rw [addCharge] at h
  split at h
  · exact .inr h
  next hinsert =>
  rw [Table.find_insert hinsert] at h
  split at h
  · exact .inl (Option.some.inj h).symm
  · exact .inr h

theorem find_moveNet {id : String} {delta : Int}
    (h : (moveNet charges requestId delta).find id = some x) :
    ∃ c, charges.find id = some c ∧ c.subscription = x.subscription ∧ c.period = x.period := by
  rw [moveNet] at h
  split at h
  · exact ⟨x, h, rfl, rfl⟩
  next c hc =>
  rw [Table.find_save] at h
  split at h
  next hid =>
    obtain ⟨y, hy, rfl⟩ := Option.map_eq_some_iff.mp h
    have hcid : c.requestId = requestId := Table.find_key hc
    have hkey : requestId = id := hcid.symm.trans hid
    subst hkey
    exact ⟨c, hc, rfl, rfl⟩
  · exact ⟨x, h, rfl, rfl⟩

/-! ## What the other calls do to the rows -/

section

variable {db : SubscriptionDb} {id : Int} {row : UserSubscription}

theorem used_of_find (h : db.subs.find id = some row) : db.used id = row.amountUsed := by
  rw [SubscriptionDb.used, h]

theorem postConsumeUserSubscriptionDelta_bounded (hrow : db.subs.find id = some row)
    (fault : Option String) (j delta : Int) :
    ∃ row', (postConsumeUserSubscriptionDelta fault j delta db).2.subs.find id = some row' ∧
      row'.amountTotal = row.amountTotal ∧ (0 < row.amountTotal →
        (row.amountUsed : Int) ≤ row.amountTotal → (row'.amountUsed : Int) ≤ row.amountTotal) := by
  have hkeep : ∃ row', db.subs.find id = some row' ∧ row'.amountTotal = row.amountTotal ∧
      (0 < row.amountTotal → (row.amountUsed : Int) ≤ row.amountTotal →
        (row'.amountUsed : Int) ≤ row.amountTotal) := ⟨row, hrow, rfl, fun _ h => h⟩
  unfold postConsumeUserSubscriptionDelta
  split
  · exact hkeep
  split
  · exact hkeep
  split
  · exact hkeep
  split
  · exact hkeep
  next sub hsub =>
  dsimp only
  split
  · exact hkeep
  next hroom =>
  have hid : sub.id = j := Table.find_key hsub
  refine Table.exists_find_save hsub hid hrow ?_ fun _ => ⟨rfl, fun _ h => h⟩
  rintro - rfl
  refine ⟨rfl, fun hpos _ => ?_⟩
  dsimp only
  omega

theorem refundSubscriptionPreConsume_subs (env : RefundEnv) (requestId : String)
    (db : SubscriptionDb) :
    (refundSubscriptionPreConsume env requestId db).2.subs = db.subs ∨
      ∃ j delta, (refundSubscriptionPreConsume env requestId db).2.subs =
        (postConsumeUserSubscriptionDelta env.move j delta db).2.subs := by
  have hmark : ∀ record d, (markRefunded env.mark record d).2.subs = d.subs := by
    intro record d
    cases env.mark <;> rfl
  rw [refundSubscriptionPreConsume]
  split
  · exact .inl rfl
  split
  · exact .inl rfl
  · exact .inl rfl
  next record _ _ =>
  split
  · exact .inl rfl
  split
  · exact .inl (hmark record db)
  right
  refine ⟨record.userSubscriptionId, -record.preConsumed, ?_⟩
  cases hmove : postConsumeUserSubscriptionDelta env.move record.userSubscriptionId
    (-record.preConsumed) db with
  | mk out d =>
    cases out with
    | error err => rfl
    | ok u => exact hmark record d

variable {nextReset : NextReset} {env : ResetEnv} {plan : SubscriptionPlan} {j : Int}
  {db' : SubscriptionDb}

theorem resetDueRow_records {out : Except String Bool}
    (h : resetDueRow nextReset env plan j db = some (out, db')) : db'.records = db.records := by
  rcases resetDueRow_spec h with ⟨-, rfl⟩ | ⟨-, _, _, -, -, rfl⟩ <;> rfl

theorem resetDueRow_row {out : Bool} (h : resetDueRow nextReset env plan j db = some (.ok out, db'))
    (hrow : db.subs.find id = some row) :
    ∃ row', db'.subs.find id = some row' ∧ row'.amountTotal = row.amountTotal ∧
      row'.amountUsed = if out = true ∧ j = id ∧ renews nextReset env.rounds plan env.now row
        then 0 else row.amountUsed := by
  rcases resetDueRow_spec h with ⟨hout, rfl⟩ | ⟨hout, locked, sub, hlocked, hsub, rfl⟩
  · have hfalse : out ≠ true := fun he => hout (congrArg _ he)
    exact ⟨row, hrow, rfl, by simp [hfalse]⟩
  cases hout
  obtain ⟨-, hid, htotal⟩ := maybeResetUserSubscription_spec hsub
  refine Table.exists_find_save hlocked (hid.trans (Table.find_key hlocked)) hrow ?_
    fun hj => ⟨rfl, by simp [hj]⟩
  rintro rfl rfl
  exact ⟨htotal, by simpa using amountUsed_of_renews hsub⟩

end

end NewApi
