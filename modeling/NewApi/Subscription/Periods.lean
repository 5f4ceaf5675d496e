import NewApi.Subscription.Ledger
import NewApi.Subscription.Schedule

/-!
# The amount of a period

*What holds.*  The used amount stays between 0 and the total in every run
(`Bounded`). The net amount of the requests of the current period is at most the
used amount (`Covered`) as long as no step takes an amount off that belongs to an
earlier period. Such a step lowers a used amount that the earlier request is not
part of any more, since the renewal already cleared it.

The bounds do not depend on the clock, so the steps may carry any times.
-/

namespace NewApi

open Runs (run Along run_invariant run_invariant_of_step)

/-! ## The used amount stays within the total -/

/-- The subscription has the total and has used no more. -/
structure Bounded (id total : Int) (s : Ledger) : Prop where
  row : ∃ row, s.db.subs.find id = some row ∧ row.amountTotal = total ∧
    (row.amountUsed : Int) ≤ total

section

variable {nextReset : NextReset} {id total : Int} {s : Ledger}

theorem Bounded.step (htotal : 0 < total) (a : LedgerAction) (h : Bounded id total s) :
    Bounded id total (s.step nextReset a) := by
  obtain ⟨row, hrow, rfl, hused⟩ := h.row
  cases a with
  | preConsume env requestId userId amount =>
    rw [Ledger.step]
    split
    next result db hcall =>
      split
      next hknown =>
        rw [preConsumeUserSubscription_known hcall hknown]
        exact h
      next hfresh =>
      obtain ⟨row', hrow', hcharged⟩ := preConsumeUserSubscription_row hfresh hcall hrow
      refine ⟨row', hrow', hcharged.total, ?_⟩
      by_cases hc : id = result.userSubscriptionId
      · exact hcharged.room (by simpa using hc) htotal
      · have := hcharged.used
        simp only [hc, decide_false, Bool.false_eq_true, if_false] at this
        split at this <;> omega
    · exact h
  | settle fault requestId delta =>
    rw [Ledger.step]
    split
    · exact h
    next c _ =>
    obtain ⟨row', hrow', ht, hle⟩ :=
      postConsumeUserSubscriptionDelta_bounded hrow fault c.subscription delta
    split
    next db hmove =>
      rw [hmove] at hrow'
      exact ⟨row', hrow', ht, hle htotal hused⟩
    next db hmove =>
      rw [hmove] at hrow'
      exact ⟨row', hrow', ht, hle htotal hused⟩
  | refund env requestId =>
    rcases refundSubscriptionPreConsume_subs env requestId s.db with hsubs | ⟨j, delta, hsubs⟩
    · exact ⟨row, by rw [Ledger.step, hsubs]; exact hrow, rfl, hused⟩
    · obtain ⟨row', hrow', ht, hle⟩ :=
        postConsumeUserSubscriptionDelta_bounded hrow env.move j delta
      exact ⟨row', by rw [Ledger.step, hsubs]; exact hrow', ht, hle htotal hused⟩
  | resetRow env j =>
    rw [Ledger.step]
    split
    · exact h
    split
    · exact h
    split
    next db hreset =>
      obtain ⟨row', hrow', ht, hu⟩ := resetDueRow_row hreset hrow
      refine ⟨row', hrow', ht, ?_⟩
      rw [hu]
      split
      · simpa using Int.le_of_lt htotal
      · exact hused
    · exact h

end

/-! ## What a refund does -/

section

variable {env : RefundEnv} {requestId : String} {db : SubscriptionDb}

theorem refund_records (id : String) :
    ((refundSubscriptionPreConsume env requestId db).2.records.find id).map
        SubscriptionPreConsumeRecord.userSubscriptionId =
      (db.records.find id).map SubscriptionPreConsumeRecord.userSubscriptionId := by
  have hmark : ∀ record d, d.records.find requestId = some record →
      ((markRefunded env.mark record d).2.records.find id).map
          SubscriptionPreConsumeRecord.userSubscriptionId =
        (d.records.find id).map SubscriptionPreConsumeRecord.userSubscriptionId := by
    intro record d hfind
    have hid : record.requestId = requestId := Table.find_key hfind
    cases env.mark with
    | some err => rfl
    | none =>
      show ((d.records.save { record with status := .refunded }).find id).map _ = _
      rw [Table.find_save]
      split
      next hkey =>
        obtain rfl : requestId = id := hid.symm.trans hkey
        simp [hfind]
      · rfl
  rw [refundSubscriptionPreConsume]
  split
  · rfl
  split
  · rfl
  · rfl
  next record _ hfind =>
  split
  · rfl
  split
  · exact hmark record db hfind
  rcases postConsumeUserSubscriptionDelta_spec env.move record.userSubscriptionId
    (-record.preConsumed) db with ⟨err, he⟩ | ⟨d, he, hrecords, -, -⟩
  · rw [he]
  · rw [he]
    rw [hmark record d (by rw [hrecords]; exact hfind), hrecords]

theorem refundedAmount_closed {record : SubscriptionPreConsumeRecord}
    (hfind : db.records.find requestId = some record) (hstatus : record.status ≠ .consumed) :
    refundedAmount env requestId db = 0 := by
  have hrefunded : record.status = .refunded := by
    cases hs : record.status with
    | consumed => exact absurd hs hstatus
    | refunded => rfl
  rw [refundedAmount]
  split
  · rfl
  · cases env.read <;> simp [hfind, hrefunded]

theorem refund_used (env : RefundEnv) {record : SubscriptionPreConsumeRecord}
    (hfind : db.records.find requestId = some record) (id : Int) :
    0 ≤ refundedAmount env requestId db ∧
    (refundSubscriptionPreConsume env requestId db).2.used id =
      if id = record.userSubscriptionId then
        max (db.used record.userSubscriptionId + -refundedAmount env requestId db) 0
      else db.used id := by
  have hkeep : db.used id = if id = record.userSubscriptionId then
      max (db.used record.userSubscriptionId + -0) 0 else db.used id := by
    have hnonneg := db.used_nonneg id
    split
    next hid => subst hid; omega
    · rfl
  have hmark : ∀ d, (markRefunded env.mark record d).2.used id = d.used id := by
    intro d
    cases env.mark <;> rfl
  rw [refundSubscriptionPreConsume, refundedAmount]
  split
  · exact ⟨Int.le_refl _, hkeep⟩
  cases env.read with
  | some err => exact ⟨Int.le_refl _, hkeep⟩
  | none =>
    simp only [hfind]
    by_cases hstatus : record.status = .refunded
    · simp only [hstatus, true_or, if_true]
      exact ⟨Int.le_refl _, hkeep⟩
    by_cases hzero : record.preConsumed ≤ 0
    · simp only [hstatus, hzero, or_true, if_true, if_false, hmark]
      exact ⟨Int.le_refl _, hkeep⟩
    simp only [hstatus, hzero, or_self, if_false]
    rcases postConsumeUserSubscriptionDelta_spec env.move record.userSubscriptionId
      (-record.preConsumed) db with ⟨err, he⟩ | ⟨d, he, -, -, hused⟩
    · simp only [he]
      exact ⟨Int.le_refl _, hkeep⟩
    simp only [he, hmark, hused]
    exact ⟨by omega, trivial⟩

end

/-! ## The requests of the period are covered -/

/-- The charges agree with the records, and the requests of the current period
of the subscription are part of its used amount. -/
structure Covered (id : Int) (s : Ledger) : Prop where
  agree : ∀ requestId c, s.charges.find requestId = some c →
    ∃ record, s.db.records.find requestId = some record ∧ record.userSubscriptionId = c.subscription
  known : ∀ requestId record, s.db.records.find requestId = some record →
    record.userSubscriptionId = id → ∃ c, s.charges.find requestId = some c
  past : ∀ c ∈ s.charges.rows, c.subscription = id → c.period ≤ s.periods id
  net : s.periodNet id ≤ s.db.used id

section

variable {nextReset : NextReset} {id total : Int} {s : Ledger} {charges : Table Charge.requestId}
  {requestId : String}

theorem find_moveNet_of_none (h : charges.find requestId = none) (delta : Int) :
    moveNet charges requestId delta = charges := by
  rw [moveNet, h]

theorem mem_moveNet {delta : Int} {x : Charge} (h : x ∈ (moveNet charges requestId delta).rows) :
    ∃ c ∈ charges.rows, c.subscription = x.subscription ∧ c.period = x.period := by
  obtain ⟨c, hc, hsub, hperiod⟩ := find_moveNet (Table.find_of_mem h)
  exact ⟨c, Table.find_mem hc, hsub, hperiod⟩

theorem exists_find_moveNet {k : String} (delta : Int) (h : ∃ c, charges.find k = some c) :
    ∃ c, (moveNet charges requestId delta).find k = some c := by
  obtain ⟨c, hc⟩ := h
  rw [moveNet]
  split
  · exact ⟨c, hc⟩
  rw [Table.find_save]
  split
  · exact ⟨_, by rw [hc]; rfl⟩
  · exact ⟨c, hc⟩

/-- The frame of a step that moves the net amount of one request: what the
charges say about subscriptions and periods stays. -/
theorem Covered.moved (h : Covered id s) {db : SubscriptionDb} (requestId : String) (delta : Int)
    (hrecords : ∀ k, (db.records.find k).map SubscriptionPreConsumeRecord.userSubscriptionId =
      (s.db.records.find k).map SubscriptionPreConsumeRecord.userSubscriptionId)
    (hnet : netIn (moveNet s.charges requestId delta) id (s.periods id) ≤ db.used id) :
    Covered id { s with db := db, charges := moveNet s.charges requestId delta } where
  agree k x hx := by
    obtain ⟨c, hc, hsub, -⟩ := find_moveNet hx
    obtain ⟨record, hrecord, hid⟩ := h.agree k c hc
    have hk := hrecords k
    rw [hrecord] at hk
    obtain ⟨record', hrecord', hid'⟩ := Option.map_eq_some_iff.mp hk
    exact ⟨record', hrecord', by rw [hid', hid, hsub]⟩
  known k record hrecord hid := by
    have hk := hrecords k
    rw [hrecord] at hk
    obtain ⟨record', hrecord', hid'⟩ := Option.map_eq_some_iff.mp hk.symm
    exact exists_find_moveNet delta (h.known k record' hrecord' (hid'.trans hid))
  past x hx hid := by
    obtain ⟨c, hc, hsub, hperiod⟩ := mem_moveNet hx
    have := h.past c hc (hsub.trans hid)
    show x.period ≤ s.periods id
    omega
  net := hnet

theorem Covered.no_charge (h : Covered id s) (hfind : s.db.records.find requestId = none) :
    s.charges.find requestId = none := by
  cases hc : s.charges.find requestId with
  | none => rfl
  | some c =>
    obtain ⟨record, hrecord, -⟩ := h.agree requestId c hc
    cases hfind.symm.trans hrecord

/-- What is moved for an earlier request goes up, or there is nothing to take it off. -/
theorem Covered.net_moved (h : Covered id s) {c : Charge} (hc : s.charges.find requestId = some c)
    {delta : Int} (hearlier : c.subscription = id → c.period ≠ s.periods id →
      0 ≤ delta ∨ s.db.used id = 0) :
    netIn (moveNet s.charges requestId delta) id (s.periods id) ≤
      if id = c.subscription then max (s.db.used c.subscription + delta) 0
      else s.db.used id := by
  have hnet := h.net
  rw [Ledger.periodNet] at hnet
  rw [netIn_moveNet hc]
  by_cases hid : id = c.subscription
  · subst hid
    have hcase := hearlier rfl
    by_cases hperiod : c.period = s.periods c.subscription
    · omega
    · have := hcase hperiod
      omega
  · omega

theorem Covered.settle (h : Covered id s) {fault : Option String} {delta : Int}
    (hlate : s.TakesEarlier id (.settle fault requestId delta) → s.db.used id = 0) :
    Covered id (s.step nextReset (.settle fault requestId delta)) := by
  rw [Ledger.step]
  split
  · exact h
  next c hc =>
  rcases postConsumeUserSubscriptionDelta_spec fault c.subscription delta s.db with
    ⟨err, he⟩ | ⟨db, he, hrecords, -, hused⟩ <;> rw [he]
  · exact h
  refine h.moved requestId delta (fun k => by rw [hrecords]) ?_
  rw [hused]
  refine h.net_moved hc fun hid hperiod => ?_
  by_cases hdelta : delta < 0
  · exact .inr (hlate ⟨hdelta, c, hc, hid, hperiod⟩)
  · exact .inl (by omega)

theorem Covered.refund (h : Covered id s) {env : RefundEnv}
    (hlate : s.TakesEarlier id (.refund env requestId) → s.db.used id = 0) :
    Covered id (s.step nextReset (.refund env requestId)) := by
  have hnet := h.net
  rw [Ledger.periodNet] at hnet
  refine h.moved requestId _ (fun k => refund_records k) ?_
  cases hfind : s.db.records.find requestId with
  | none =>
    have hsame : (refundSubscriptionPreConsume env requestId s.db).2 = s.db := by
      rw [refundSubscriptionPreConsume]
      split
      · rfl
      · cases env.read <;> simp [hfind]
    rw [find_moveNet_of_none (h.no_charge hfind), hsame]
    exact hnet
  | some record =>
    obtain ⟨hamount, hused⟩ := refund_used env hfind id
    rw [hused]
    cases hc : s.charges.find requestId with
    | none =>
      rw [find_moveNet_of_none hc]
      have hne : ¬ id = record.userSubscriptionId := by
        intro hid
        obtain ⟨c, hc'⟩ := h.known requestId record hfind hid.symm
        rw [hc] at hc'
        cases hc'
      rw [if_neg hne]
      exact hnet
    | some c =>
      obtain ⟨record', hrecord', hsub⟩ := h.agree requestId c hc
      obtain rfl : record = record' := Option.some.inj (hfind.symm.trans hrecord')
      rw [hsub]
      refine h.net_moved hc fun hid hperiod => ?_
      by_cases hstatus : record.status = .consumed
      · exact .inr (hlate ⟨⟨c, hc, hid, hperiod⟩, record, hfind, hstatus⟩)
      · exact .inl (by rw [refundedAmount_closed hfind hstatus]; decide)

theorem Covered.renewed (h : Covered id s) (ids : List Int) :
    netIn s.charges id (renewAll s.periods ids id) ≤ if id ∈ ids then 0 else s.db.used id := by
  rw [renewAll]
  split
  · refine Int.le_of_eq (netIn_eq_zero ?_)
    intro c hc hid
    have := h.past c hc hid
    omega
  · exact h.net

theorem le_renewAll (periods : Int → Nat) (ids : List Int) (id : Int) :
    periods id ≤ renewAll periods ids id := by
  rw [renewAll]
  split <;> omega

theorem Covered.preConsume (hb : Bounded id total s) (h : Covered id s) {env : SubscriptionEnv}
    {userId amount : Int} :
    Covered id (s.step nextReset (.preConsume env requestId userId amount)) := by
  obtain ⟨row, hrow, -, -⟩ := hb.row
  rw [Ledger.step]
  split
  case h_2 => exact h
  next result db hcall =>
  split
  next hknown =>
    rw [preConsumeUserSubscription_known hcall hknown]
    exact h
  next hfresh =>
  obtain ⟨-, -, hcharged⟩ := preConsumeUserSubscription_charged hcall hfresh
  obtain ⟨row', hrow', hrowc⟩ := preConsumeUserSubscription_row hfresh hcall hrow
  have hnew := h.no_charge hfresh
  refine ⟨?_, ?_, ?_, ?_⟩
  · intro k x hx
    rw [hcharged.find_record]
    rcases find_addCharge hx with rfl | hold
    · have hk : requestId = k := Table.find_key hx
      exact ⟨_, if_pos hk, rfl⟩
    obtain ⟨record, hrecord, hsub⟩ := h.agree k x hold
    have hk : requestId ≠ k := by
      rintro rfl
      cases hfresh.symm.trans hrecord
    exact ⟨record, by rw [if_neg hk]; exact hrecord, hsub⟩
  · intro k record hrecord hid
    obtain ⟨charges, hinsert⟩ := Option.isSome_iff_exists.mp
      (Table.insert_isSome (t := s.charges) (r := ⟨requestId, result.userSubscriptionId,
        renewAll s.periods (renewals nextReset env amount s.db.plans
          (activeSubscriptions s.db.subs userId env.now)) result.userSubscriptionId, amount⟩) hnew)
    show ∃ c, (addCharge _ _).find k = some c
    rw [addCharge, hinsert]
    simp only [Table.find_insert hinsert]
    have hrecord' : db.records.find k = some record := hrecord
    rw [hcharged.find_record] at hrecord'
    split at hrecord'
    next hk => exact ⟨_, if_pos hk⟩
    next hk =>
      obtain ⟨c, hc⟩ := h.known k record hrecord' hid
      exact ⟨c, by rw [if_neg hk]; exact hc⟩
  · intro x hx hid
    rcases mem_addCharge hx with rfl | hold
    · have hid' : result.userSubscriptionId = id := hid
      subst hid'
      exact Nat.le_refl _
    · exact Nat.le_trans (h.past x hold hid) (le_renewAll _ _ _)
  · have hold := h.renewed (renewals nextReset env amount s.db.plans
      (activeSubscriptions s.db.subs userId env.now))
    show netIn (addCharge _ _) id _ ≤ db.used id
    rw [netIn_addCharge hnew, used_of_find hrow', hrowc.used]
    rw [used_of_find hrow] at hold
    by_cases hid : id = result.userSubscriptionId
    · subst hid
      simp only [and_self, if_true, decide_true]
      simp only [decide_eq_true_eq]
      omega
    · have hne : ¬ result.userSubscriptionId = id := fun he => hid he.symm
      simp only [hid, hne, false_and, if_false, decide_false, Bool.false_eq_true, decide_eq_true_eq]
      omega

theorem Covered.resetRow (hb : Bounded id total s) (h : Covered id s) {env : ResetEnv} {j : Int} :
    Covered id (s.step nextReset (.resetRow env j)) := by
  obtain ⟨row, hrow, -, -⟩ := hb.row
  rw [Ledger.step]
  split
  · exact h
  next sub hsub =>
  split
  · exact h
  next plan _ =>
  split
  case h_2 => exact h
  next db hreset =>
  obtain ⟨row', hrow', -, hu⟩ := resetDueRow_row hreset hrow
  have hrecords := resetDueRow_records hreset
  refine ⟨?_, ?_, ?_, ?_⟩
  · intro k x hx
    rw [hrecords]
    exact h.agree k x hx
  · intro k record hrecord hid
    have hrecord' : db.records.find k = some record := hrecord
    rw [hrecords] at hrecord'
    exact h.known k record hrecord' hid
  · intro x hx hid
    exact Nat.le_trans (h.past x hx hid) (le_renewAll _ _ _)
  · have hold := h.renewed (if renews nextReset env.rounds plan env.now sub then [j] else [])
    show netIn s.charges id _ ≤ db.used id
    rw [used_of_find hrow', hu]
    rw [used_of_find hrow] at hold
    by_cases hj : j = id
    · subst hj
      obtain rfl : sub = row := Option.some.inj (hsub.symm.trans hrow)
      by_cases hr : renews nextReset env.rounds plan env.now sub
      · simp only [hr, if_true, List.mem_singleton, and_self] at hold ⊢
        exact hold
      · simp only [hr, Bool.false_eq_true, if_false, List.not_mem_nil, and_false] at hold ⊢
        exact hold
    · have hout : id ∉ (if renews nextReset env.rounds plan env.now sub then [j] else []) := by
        have hne : id ≠ j := fun he => hj he.symm
        split <;> simp [hne]
      rw [if_neg hout] at hold
      simpa [hj] using hold

theorem Covered.step (hb : Bounded id total s) (h : Covered id s) {a : LedgerAction}
    (hlate : s.TakesEarlier id a → s.db.used id = 0) : Covered id (s.step nextReset a) := by
  cases a with
  | preConsume => exact h.preConsume hb
  | settle => exact h.settle hlate
  | refund => exact h.refund hlate
  | resetRow => exact h.resetRow hb

theorem Covered.takesEarlier_used (h : Covered id s) {a : LedgerAction}
    (hearlier : s.TakesEarlier id a) (hzero : s.db.used id = 0) :
    (s.step nextReset a).db.used id = s.db.used id := by
  cases a with
  | preConsume | resetRow => exact hearlier.elim
  | settle fault requestId delta =>
    obtain ⟨hdelta, c, hc, rfl, -⟩ := hearlier
    rw [Ledger.step, hc]
    rcases postConsumeUserSubscriptionDelta_spec fault c.subscription delta s.db with
      ⟨err, he⟩ | ⟨db, he, -, -, hused⟩
    · simp only [he]
    · simp only [he, hused, if_true]
      omega
  | refund env requestId =>
    obtain ⟨⟨c, hc, rfl, -⟩, record, hfind, -⟩ := hearlier
    obtain ⟨hamount, hused⟩ := refund_used env hfind c.subscription
    show (refundSubscriptionPreConsume env requestId s.db).2.used _ = _
    rw [hused]
    split
    next hid => rw [← hid]; omega
    · rfl

end

/-! ## A period is not overspent -/

/-- A subscription before its first request. -/
structure Opened (id total : Int) (s : Ledger) : Prop where
  row : ∃ row, s.db.subs.find id = some row ∧ row.amountTotal = total ∧
    (row.amountUsed : Int) ≤ total
  records : ∀ requestId record, s.db.records.find requestId = some record →
    record.userSubscriptionId ≠ id
  charges : s.charges.rows = []

theorem Opened.covered {id total : Int} {s : Ledger} (h : Opened id total s) : Covered id s where
  agree requestId c hc := by
    have := Table.find_mem hc
    rw [h.charges] at this
    cases this
  known requestId record hrecord hid := absurd hid (h.records requestId record hrecord)
  past c hc := by
    rw [h.charges] at hc
    cases hc
  net := by
    rw [Ledger.periodNet, netIn, h.charges]
    exact s.db.used_nonneg id

/-- In every run the used amount stays between 0 and the total. In every run
that gives back nothing of an earlier period while something is used, the net
amount of the requests of the current period is at most the total, and giving
back an amount of an earlier period frees nothing. -/
theorem period_within_total (nextReset : NextReset) {id total : Int} {s : Ledger}
    (htotal : 0 < total) (hopen : Opened id total s) (as : List LedgerAction) :
    (0 ≤ (run (Ledger.step nextReset) s as).db.used id ∧
        (run (Ledger.step nextReset) s as).db.used id ≤ total) ∧
      (Along (Ledger.step nextReset) (fun s a => s.TakesEarlier id a → s.db.used id = 0) s as →
        (run (Ledger.step nextReset) s as).periodNet id ≤ total ∧
          ∀ a, (run (Ledger.step nextReset) s as).TakesEarlier id a →
            (run (Ledger.step nextReset) s as).db.used id = 0 →
            (run (Ledger.step nextReset) s (as ++ [a])).db.used id =
              (run (Ledger.step nextReset) s as).db.used id) := by
  have hbounded : Bounded id total (run (Ledger.step nextReset) s as) :=
    run_invariant_of_step (I := Bounded id total) (fun s a h => h.step htotal a) as ⟨hopen.row⟩
  obtain ⟨row, hrow, -, hused⟩ := hbounded.row
  have hle : (run (Ledger.step nextReset) s as).db.used id ≤ total := by
    rw [used_of_find hrow]
    exact hused
  refine ⟨⟨SubscriptionDb.used_nonneg _ id, hle⟩, ?_⟩
  intro halong
  obtain ⟨-, hcovered⟩ := run_invariant
    (I := fun s => Bounded id total s ∧ Covered id s)
    (fun s a h hlate => ⟨h.1.step htotal a, h.2.step h.1 hlate⟩)
    ⟨⟨hopen.row⟩, hopen.covered⟩ halong
  refine ⟨Int.le_trans hcovered.net hle, ?_⟩
  intro a hearlier hzero
  rw [Runs.run_append]
  exact hcovered.takesEarlier_used hearlier hzero

/-- A subscription of 100 whose plan renews it every 50 seconds, from 10 on. -/
def periodRow : UserSubscription where
  id := 7
  userId := 1
  planId := 3
  amountTotal := 100
  amountUsed := 0
  startTime := 10
  endTime := 5000
  status := .active
  lastResetTime := 10
  nextResetTime := 60
  allowWalletOverflow := true

def periodPlan : SubscriptionPlan where
  id := 3
  title := ""
  quotaResetPeriod := .custom
  quotaResetCustomSeconds := 50

def periodSample : Ledger where
  db := ⟨⟨[periodRow], by decide⟩, ⟨[periodPlan], by decide⟩, .empty⟩
  periods _ := 0
  charges := .empty

theorem periodSample_opened : Opened 7 100 periodSample where
  row := ⟨periodRow, rfl, rfl, by decide⟩
  records _ _ h := by cases h
  charges := rfl

/-- Two requests of the first period and one of the second, which is settled
down. -/
def periodRun : List LedgerAction :=
  [.preConsume ⟨20, 5, none⟩ "a" 1 60, .settle none "a" 30, .preConsume ⟨21, 5, none⟩ "b" 1 10,
    .refund .calm "b", .resetRow (.calm 60 5) 7, .preConsume ⟨61, 5, none⟩ "c" 1 70,
    .settle none "c" (-20)]

theorem period_within_total_run :
    Along (Ledger.step (calcNextResetTime (.fixed 0)))
        (fun s a => s.TakesEarlier 7 a → s.db.used 7 = 0) periodSample periodRun ∧
      (run (Ledger.step (calcNextResetTime (.fixed 0))) periodSample periodRun).periodNet 7 ≤
        100 := by
  have halong : Along (Ledger.step (calcNextResetTime (.fixed 0)))
      (fun s a => s.TakesEarlier 7 a → s.db.used 7 = 0) periodSample periodRun := by
    decide +kernel
  have h := period_within_total (calcNextResetTime (.fixed 0)) (by decide) periodSample_opened
    periodRun
  exact ⟨halong, (h.2 halong).1⟩

/-- The refund of a request of the first period frees the second one: two
requests of 100 are charged to a period of 100. -/
def lateRefundRun : List LedgerAction :=
  [.preConsume ⟨20, 5, none⟩ "a" 1 100, .resetRow (.calm 60 5) 7,
    .preConsume ⟨61, 5, none⟩ "b" 1 100, .refund .calm "a", .preConsume ⟨62, 5, none⟩ "c" 1 100]

theorem period_overspent_by_late_refund :
    (run (Ledger.step (calcNextResetTime (.fixed 0))) periodSample
        (lateRefundRun.take 3)).db.used 7 = 100 ∧
      (run (Ledger.step (calcNextResetTime (.fixed 0))) periodSample
        (lateRefundRun.take 4)).db.used 7 = 0 ∧
      (run (Ledger.step (calcNextResetTime (.fixed 0))) periodSample lateRefundRun).periodNet 7 =
        200 := by
  decide +kernel

end NewApi
