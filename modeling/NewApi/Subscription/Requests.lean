import NewApi.Lib.Runs
import NewApi.Subscription.Candidates

/-!
# Concurrent requests

Any number of `PreConsumeUserSubscription` calls run at once, in three steps: the read of the record
of the request id without a lock, the locks of the active subscriptions of the user, and the loop
over the locked rows with the record and the commit.

A call that read no record can find one at its last step. It then takes nothing. The request is
charged once (`Charges`), but such a call answers with the candidate at which its loop stopped, and
that need not be the charged one.
-/

namespace NewApi

open Runs

/-! ## Calls and their steps -/

/-- The arguments of a call, and the time it reads at its start. -/
structure PreConsumeRequest where
  requestId : String
  (userId amount now : Int)
  rounds : Nat

def PreConsumeRequest.env (r : PreConsumeRequest) : SubscriptionEnv := ⟨r.now, r.rounds, none⟩

/-- How far a call is. -/
inductive CallPhase
  | started
  | passed
  | locked (subs : List UserSubscription)
  | done (out : Except String SubscriptionPreConsumeResult)

/-- The database, the call that holds the lock of each row, and the calls. -/
structure PreConsumeState where
  db : SubscriptionDb
  locks : Int → Option Nat
  phase : Nat → CallPhase

/-- A step of a call, with what its statements meet. -/
inductive PreConsumeAction
  | read (call : Nat) (fault : Option String)
  | lock (call : Nat) (fault : Bool)
  /-- The rest of the transaction. The read of an existing record can miss it. -/
  | finish (call : Nat) (fault : Option String) (missed : Bool)

/-- The first step of a call. -/
def PreConsumeRequest.read (r : PreConsumeRequest) (fault : Option String) (db : SubscriptionDb) :
    Option (Except String SubscriptionPreConsumeResult) :=
  preConsumeRead fault r.requestId r.userId r.amount db

/-- The last step of a call, with the rows it has locked. -/
def PreConsumeRequest.finish (nextReset : NextReset) (r : PreConsumeRequest) (fault : Option String)
    (missed : Bool) (subs : List UserSubscription) (db : SubscriptionDb) :
    Option (Except String SubscriptionPreConsumeResult × SubscriptionDb) :=
  preConsumeLoop nextReset r.env fault missed r.requestId r.userId r.amount subs db

section

variable (nextReset : NextReset) (requests : Nat → PreConsumeRequest)

/-- One step. A step that is not the next one of its call changes nothing, and
neither does a lock that another call prevents. -/
def PreConsumeState.step (s : PreConsumeState) : PreConsumeAction → PreConsumeState
  | .read c fault =>
    match s.phase c with
    | .started =>
      match (requests c).read fault s.db with
      | none => { s with phase := Function.update s.phase c .passed }
      | some out => { s with phase := Function.update s.phase c (.done out) }
    | _ => s
  | .lock c fault =>
    match s.phase c with
    | .passed =>
      let subs := activeSubscriptions s.db.subs (requests c).userId (requests c).now
      if fault ∨ subs = [] then
        { s with phase := Function.update s.phase c (.done (.error "no active subscription")) }
      else if subs.all fun x => (s.locks x.id).isNone then
        { s with
          locks := fun j => if j ∈ subs.map UserSubscription.id then some c else s.locks j
          phase := Function.update s.phase c (.locked subs) }
      else s
    | _ => s
  | .finish c fault missed =>
    match s.phase c with
    | .locked subs =>
      match (requests c).finish nextReset fault missed subs s.db with
      | none => s
      | some (out, db) =>
        { db := db
          locks := fun j => if s.locks j = some c then none else s.locks j
          phase := Function.update s.phase c (.done out) }
    | _ => s

/-- How much a step of a call with a request id adds to the used amount of a
subscription, on top of what a reset left of it. -/
def PreConsumeState.raised (requestId : String) (j : Int) (s : PreConsumeState) :
    PreConsumeAction → Int
  | .finish c fault missed =>
    if (requests c).requestId = requestId then
      match s.phase c with
      | .locked subs =>
        match (requests c).finish nextReset fault missed subs s.db with
        | some (.ok _, db) =>
          db.used j - if j ∈ renewals nextReset (requests c).env (requests c).amount s.db.plans subs
            then 0 else s.db.used j
        | some (.error _, db) => db.used j - s.db.used j
        | none => 0
      | _ => 0
    else 0
  | _ => 0

end

def PreConsumeState.start (db : SubscriptionDb) : PreConsumeState :=
  ⟨db, fun _ => none, fun _ => .started⟩

/-! ## Locks -/

section

variable {nextReset : NextReset} {requests : Nat → PreConsumeRequest} {s : PreConsumeState}

/-- A call holds the locks of its rows and knows the rows as they are. -/
structure Holds (s : PreConsumeState) (c : Nat) (subs : List UserSubscription) : Prop where
  nodup : (subs.map UserSubscription.id).Nodup
  held : ∀ x ∈ subs, s.locks x.id = some c
  current : ∀ x ∈ subs, s.db.subs.find x.id = some x

/-- The calls that have locked rows hold them, and an amount is positive from the
first step of its call on. -/
structure LocksHeld (requests : Nat → PreConsumeRequest) (s : PreConsumeState) : Prop where
  passed : ∀ c, s.phase c = .passed → 0 < (requests c).amount
  amount : ∀ c subs, s.phase c = .locked subs → 0 < (requests c).amount
  holds : ∀ c subs, s.phase c = .locked subs → Holds s c subs

theorem LocksHeld.start (db : SubscriptionDb) : LocksHeld requests (.start db) := by
  constructor <;> intro c <;> simp [PreConsumeState.start]

variable {c : Nat} {db db' : SubscriptionDb} {fault : Option String} {r : PreConsumeRequest}
  {subs : List UserSubscription}

variable {p : CallPhase} {out : Except String SubscriptionPreConsumeResult}

theorem update_cases {phase : Nat → CallPhase} {d : Nat} {q : CallPhase}
    (h : Function.update phase c p d = q) : (d = c ∧ p = q) ∨ (d ≠ c ∧ phase d = q) := by
  by_cases hdc : d = c
  · subst hdc
    rw [Function.update_self] at h
    exact .inl ⟨rfl, h⟩
  · rw [Function.update_of_ne hdc] at h
    exact .inr ⟨hdc, h⟩

variable {missed : Bool}

theorem finish_other (h : r.finish nextReset fault missed subs db = some (out, db'))
    {id : Int} (hid : id ∉ subs.map UserSubscription.id) : db'.subs.find id = db.subs.find id := by
  cases out with
  | error err => rw [preConsumeLoop_error h]
  | ok result => exact (consumeCandidates_other (preConsumeLoop_ok h) hid).2

/-- What a step can do. A step of another kind leaves everything as it was. -/
inductive StepCase (nextReset : NextReset) (requests : Nat → PreConsumeRequest)
    (s : PreConsumeState) : PreConsumeAction → PreConsumeState → Prop
  | idle {a : PreConsumeAction} : StepCase nextReset requests s a s
  | passed {c : Nat} {fault : Option String} : s.phase c = .started →
      (requests c).read fault s.db = none →
      StepCase nextReset requests s (.read c fault)
        { s with phase := Function.update s.phase c .passed }
  | answered {c : Nat} {fault : Option String} {out : Except String SubscriptionPreConsumeResult} :
      (requests c).read fault s.db = some out →
      StepCase nextReset requests s (.read c fault)
        { s with phase := Function.update s.phase c (.done out) }
  | nothing {c : Nat} {fault : Bool} (err : String) :
      StepCase nextReset requests s (.lock c fault)
        { s with phase := Function.update s.phase c (.done (.error err)) }
  | locked {c : Nat} {fault : Bool} {subs : List UserSubscription} : s.phase c = .passed →
      subs = activeSubscriptions s.db.subs (requests c).userId (requests c).now →
      (∀ x ∈ subs, s.locks x.id = none) →
      StepCase nextReset requests s (.lock c fault)
        { s with
          locks := fun j => if j ∈ subs.map UserSubscription.id then some c else s.locks j
          phase := Function.update s.phase c (.locked subs) }
  | finished {c : Nat} {fault : Option String} {missed : Bool} {subs : List UserSubscription}
      {out : Except String SubscriptionPreConsumeResult} {db : SubscriptionDb} :
      s.phase c = .locked subs →
      (requests c).finish nextReset fault missed subs s.db = some (out, db) →
      StepCase nextReset requests s (.finish c fault missed)
        { db := db
          locks := fun j => if s.locks j = some c then none else s.locks j
          phase := Function.update s.phase c (.done out) }

theorem PreConsumeState.step_case (s : PreConsumeState) (a : PreConsumeAction) :
    StepCase nextReset requests s a (s.step nextReset requests a) := by
  cases a with simp only [step]
  | read c fault =>
    split
    next hphase =>
      split
      next hread => exact .passed hphase hread
      next hread => exact .answered hread
    · exact .idle
  | lock c fault =>
    split
    next hphase =>
      split
      · exact .nothing _
      split
      next hfree =>
        refine .locked hphase rfl ?_
        intro x hx
        simpa using List.all_eq_true.mp hfree x hx
      · exact .idle
    · exact .idle
  | finish c fault missed =>
    split
    next hphase =>
      split
      · exact .idle
      next hcall => exact .finished hphase hcall
    · exact .idle

/-- One call goes on, and the others still hold their rows. -/
theorem LocksHeld.moved {s' : PreConsumeState} (h : LocksHeld requests s)
    (hphase : s'.phase = Function.update s.phase c p)
    (hpassed : p = .passed → 0 < (requests c).amount)
    (hlocked : ∀ subs, p = .locked subs → 0 < (requests c).amount ∧ Holds s' c subs)
    (hothers : ∀ d subs, d ≠ c → Holds s d subs → Holds s' d subs) : LocksHeld requests s' where
  passed d hd := by
    rcases update_cases (hphase ▸ hd) with ⟨rfl, hp⟩ | ⟨-, hd⟩
    · exact hpassed hp
    · exact h.passed d hd
  amount d subs hd := by
    rcases update_cases (hphase ▸ hd) with ⟨rfl, hp⟩ | ⟨-, hd⟩
    · exact (hlocked subs hp).1
    · exact h.amount d subs hd
  holds d subs hd := by
    rcases update_cases (hphase ▸ hd) with ⟨rfl, hp⟩ | ⟨hdc, hd⟩
    · exact (hlocked subs hp).2
    · exact hothers d subs hdc (h.holds d subs hd)

theorem LocksHeld.update (h : LocksHeld requests s) (hp : ∀ subs, p ≠ .locked subs)
    (hpassed : p = .passed → 0 < (requests c).amount) :
    LocksHeld requests { s with phase := Function.update s.phase c p } :=
  h.moved rfl hpassed (fun subs he => absurd he (hp subs))
    fun _ _ _ hd => ⟨hd.nodup, hd.held, hd.current⟩

theorem LocksHeld.lock (h : LocksHeld requests s) (hphase : s.phase c = .passed)
    (hnodup : (subs.map UserSubscription.id).Nodup)
    (hcurrent : ∀ x ∈ subs, s.db.subs.find x.id = some x)
    (hfree : ∀ x ∈ subs, s.locks x.id = none) :
    LocksHeld requests { s with
      locks := fun j => if j ∈ subs.map UserSubscription.id then some c else s.locks j
      phase := Function.update s.phase c (.locked subs) } := by
  refine h.moved rfl (by simp) ?_ ?_
  · rintro rows ⟨⟩
    exact ⟨h.passed c hphase, hnodup, fun x hx => if_pos (List.mem_map_of_mem hx), hcurrent⟩
  intro d rows _ hd
  refine ⟨hd.nodup, fun x hx => ?_, hd.current⟩
  -- The row has a holder, so it is none of the rows that were free.
  have hne : x.id ∉ subs.map UserSubscription.id := by
    intro hmem
    obtain ⟨y, hy, hyx⟩ := List.mem_map.mp hmem
    have hheld := hd.held x hx
    rw [← hyx, hfree y hy] at hheld
    cases hheld
  exact (if_neg hne).trans (hd.held x hx)

theorem LocksHeld.finish (h : LocksHeld requests s) (hphase : s.phase c = .locked subs)
    (hcall : (requests c).finish nextReset fault missed subs s.db = some (out, db)) :
    LocksHeld requests
      { db := db
        locks := fun j => if s.locks j = some c then none else s.locks j
        phase := Function.update s.phase c (.done out) } := by
  refine h.moved rfl (by simp) (by simp) fun d rows hdc hd => ?_
  have hmine := h.holds c subs hphase
  refine ⟨hd.nodup, fun x hx => ?_, fun x hx => ?_⟩
  · have hne : ¬ s.locks x.id = some c := by
      rw [hd.held x hx]
      exact fun he => hdc (Option.some.inj he)
    exact (if_neg hne).trans (hd.held x hx)
  · have hne : x.id ∉ subs.map UserSubscription.id := by
      intro hmem
      obtain ⟨y, hy, hyx⟩ := List.mem_map.mp hmem
      have hlock := hmine.held y hy
      rw [hyx, hd.held x hx] at hlock
      exact hdc (Option.some.inj hlock)
    exact (finish_other hcall hne).trans (hd.current x hx)

theorem LocksHeld.step (h : LocksHeld requests s) (a : PreConsumeAction) :
    LocksHeld requests (s.step nextReset requests a) := by
  have hcase := @PreConsumeState.step_case nextReset requests s a
  generalize s.step nextReset requests a = s' at hcase
  cases hcase with
  | idle => exact h
  | passed _ hread => exact h.update (by simp) (fun _ => (preConsumeRead_none hread).1)
  | answered _ | nothing err => exact h.update (by simp) (by simp)
  | locked hphase hsubs hfree =>
    subst hsubs
    exact h.lock hphase (nodup_activeSubscriptions _ _)
      (fun x hx => find_activeSubscriptions hx) hfree
  | finished hphase hcall => exact h.finish hphase hcall

end

/-! ## One charge for a request -/

section

variable {nextReset : NextReset} {requests : Nat → PreConsumeRequest} {s : PreConsumeState}
  {requestId : String} {amount : Int}

/-- What a request has put on a subscription by its record. -/
def recorded (requestId : String) (amount j : Int) (s : PreConsumeState) : Int :=
  match s.db.records.find requestId with
  | none => 0
  | some record => if record.userSubscriptionId = j then amount else 0

variable {result : SubscriptionPreConsumeResult} {db : SubscriptionDb}
  {record : SubscriptionPreConsumeRecord}

theorem consumeCandidates_used {env : SubscriptionEnv} {missed : Bool} {userId : Int}
    {subs : List UserSubscription} {db' : SubscriptionDb}
    (hamount : 0 < amount) (hnodup : (subs.map UserSubscription.id).Nodup)
    (hcurrent : ∀ x ∈ subs, db.subs.find x.id = some x)
    (h : consumeCandidates nextReset env missed requestId userId amount subs db =
      some (.ok result, db')) (j : Int) :
    db'.used j = (if j ∈ renewals nextReset env amount db.plans subs then 0 else db.used j) +
      if j = result.userSubscriptionId ∧ db.records.find requestId = none then amount else 0 := by
  cases hrow : db.subs.find j with
  | none =>
    have hother : j ∉ subs.map UserSubscription.id := by
      intro hmem
      obtain ⟨x, hx, rfl⟩ := List.mem_map.mp hmem
      cases hrow.symm.trans (hcurrent x hx)
    obtain ⟨hne, hfind⟩ := consumeCandidates_other h hother
    simp [SubscriptionDb.used, hfind, hrow, hne]
  | some row =>
    obtain ⟨row', hrow', htaken⟩ := consumeCandidates_taken h hnodup hcurrent hrow
    have hused := (htaken.row hamount).used
    simp only [SubscriptionDb.used, hrow, hrow', hused]
    simp [Option.isNone_iff_eq_none]

/-- A step of a request adds to the used amounts what it adds to the record. -/
theorem raised_eq (hlocks : LocksHeld requests s)
    (hsame : ∀ c, (requests c).requestId = requestId → (requests c).amount = amount) (j : Int)
    (a : PreConsumeAction) : s.raised nextReset requests requestId j a =
      recorded requestId amount j (s.step nextReset requests a) -
        recorded requestId amount j s := by
  have hidle : ∀ s' : PreConsumeState, s'.db = s.db →
      (0 : Int) = recorded requestId amount j s' - recorded requestId amount j s := by
    intro s' hdb
    rw [recorded, recorded, hdb]
    omega
  cases a with
  | read c fault =>
    refine hidle _ ?_
    simp only [PreConsumeState.step]
    split
    · split <;> rfl
    · rfl
  | lock c fault =>
    refine hidle _ ?_
    simp only [PreConsumeState.step]
    split
    · split
      · rfl
      · split <;> rfl
    · rfl
  | finish c fault missed =>
    simp only [PreConsumeState.raised, PreConsumeState.step]
    cases hphase : s.phase c with
    | locked subs =>
      cases hcall : (requests c).finish nextReset fault missed subs s.db with
      | none => simp [hcall]
      | some out =>
        obtain ⟨out, db⟩ := out
        cases out with
        | error err =>
          obtain rfl := preConsumeLoop_error hcall
          simp [hcall, recorded]
        | ok result =>
          simp only [hcall]
          have hloop := preConsumeLoop_ok hcall
          obtain ⟨record, hfind, -, hnew, hold, hother⟩ := consumeCandidates_record hloop
          by_cases hid : (requests c).requestId = requestId
          · subst hid
            obtain rfl := hsame c rfl
            obtain ⟨hnodup, -, hcurrent⟩ := hlocks.holds c subs hphase
            have hused := consumeCandidates_used (hlocks.amount c subs hphase) hnodup
              hcurrent hloop j
            simp only [if_true, recorded, hfind]
            cases hbefore : s.db.records.find (requests c).requestId with rw [hbefore] at hused
            | none =>
              rw [hnew hbefore]
              simp only [eq_comm (a := j), and_true] at hused
              simp only
              omega
            | some dup =>
              rw [hold dup hbefore]
              simp only [reduceCtorEq, and_false, if_false] at hused
              simp only
              omega
          · rw [if_neg hid]
            simp only [recorded, hother requestId (fun he => hid he.symm)]
            omega
    | started => simp
    | passed => simp
    | done out => simp

/-! ## Answers -/

/-- A step that ends a call of a request whose record exists: the charged
subscription has room, and no candidate in front of it has, or none has room. -/
def reselects (nextReset : NextReset) (requests : Nat → PreConsumeRequest) (requestId : String)
    (s : PreConsumeState) : PreConsumeAction → Bool
  | .finish c _ _ =>
    if (requests c).requestId = requestId then
      match s.phase c, s.db.records.find requestId with
      | .locked subs, some record => roomFirstAt nextReset (requests c).env (requests c).amount
          s.db.plans record.userSubscriptionId subs
      | _, _ => true
    else true
  | _ => true

variable {a : PreConsumeAction}

theorem records_step :
    (s.step nextReset requests a).db.records.find requestId = s.db.records.find requestId ∨
      s.db.records.find requestId = none ∧
        ∃ c record, (s.step nextReset requests a).db.records.find requestId = some record ∧
          (requests c).requestId = requestId ∧ record.preConsumed = (requests c).amount := by
  have hcase := @PreConsumeState.step_case nextReset requests s a
  generalize s.step nextReset requests a = s' at hcase
  cases hcase with
  | idle | passed _ _ | answered _ | nothing _ | locked _ _ _ => exact .inl rfl
  | @finished c fault missed subs out db hphase hcall =>
    cases out with
    | error err =>
      obtain rfl := preConsumeLoop_error hcall
      exact .inl rfl
    | ok result =>
      obtain ⟨record, hfind, -, hnew, hold, hother⟩ :=
        consumeCandidates_record (preConsumeLoop_ok hcall)
      by_cases hid : requestId = (requests c).requestId
      · subst hid
        cases hbefore : s.db.records.find (requests c).requestId with
        | none => exact .inr ⟨rfl, c, record, hfind, rfl, by rw [hnew hbefore]⟩
        | some dup => exact .inl (by rw [← hold dup hbefore]; exact hfind)
      · exact .inl (hother requestId hid)

theorem record_step (h : s.db.records.find requestId = some record) (a : PreConsumeAction) :
    (s.step nextReset requests a).db.records.find requestId = some record := by
  rcases records_step with hsame | ⟨hnone, -⟩
  · exact hsame.trans h
  · cases hnone.symm.trans h

theorem answer_of_step {c : Nat} (hid : (requests c).requestId = requestId)
    (h : (s.step nextReset requests a).phase c = .done (.ok result)) :
    s.phase c = .done (.ok result) ∨
      ∃ record, (s.step nextReset requests a).db.records.find requestId = some record ∧
        result.preConsumed = record.preConsumed ∧
        (reselects nextReset requests requestId s a = true →
          result.userSubscriptionId = record.userSubscriptionId) := by
  have hcase := @PreConsumeState.step_case nextReset requests s a
  generalize s.step nextReset requests a = s' at hcase h
  cases hcase with
  | idle => exact .inl h
  | passed _ _ | nothing _ | locked _ _ _ =>
    rcases update_cases h with ⟨-, hp⟩ | ⟨-, hd⟩
    · cases hp
    · exact .inl hd
  | answered hread =>
    rcases update_cases h with ⟨rfl, hp⟩ | ⟨-, hd⟩
    · obtain rfl := CallPhase.done.inj hp
      obtain ⟨record, hfind, hpre, hsub⟩ := preConsumeRead_ok hread
      exact .inr ⟨record, hid ▸ hfind, hpre, fun _ => hsub⟩
    · exact .inl hd
  | @finished d fault missed subs out db hphase hcall =>
    rcases update_cases h with ⟨rfl, hp⟩ | ⟨-, hd⟩
    · obtain rfl := CallPhase.done.inj hp
      have hloop := preConsumeLoop_ok hcall
      obtain ⟨record, hfind, hpre, hnew, hold, -⟩ := consumeCandidates_record hloop
      subst hid
      refine .inr ⟨record, hfind, hpre, ?_⟩
      intro hsel
      cases hbefore : s.db.records.find (requests c).requestId with
      | none => rw [hnew hbefore]
      | some dup =>
        simp only [reselects, if_true, hphase, hbefore] at hsel
        rw [hold dup hbefore]
        exact consumeCandidates_roomFirstAt hloop hsel
    · exact .inl hd

/-- What the calls of a request have in common at any time. -/
structure Answers (requests : Nat → PreConsumeRequest) (requestId : String) (amount : Int)
    (s : PreConsumeState) : Prop where
  record : ∀ record, s.db.records.find requestId = some record → record.preConsumed = amount
  answer : ∀ c result, (requests c).requestId = requestId → s.phase c = .done (.ok result) →
    ∃ record, s.db.records.find requestId = some record ∧ result.preConsumed = amount

theorem Answers.step
    (hsame : ∀ c, (requests c).requestId = requestId → (requests c).amount = amount)
    (h : Answers requests requestId amount s) (a : PreConsumeAction) :
    Answers requests requestId amount (s.step nextReset requests a) := by
  have hrecord : ∀ record, (s.step nextReset requests a).db.records.find requestId = some record →
      record.preConsumed = amount := by
    intro record hfind
    rcases records_step with hbefore | ⟨-, c, record', hfind', hid, hpre⟩
    · exact h.record record (hbefore.symm.trans hfind)
    · obtain rfl := Option.some.inj (hfind.symm.trans hfind')
      rw [hpre, hsame c hid]
  refine ⟨hrecord, fun c result hid hdone => ?_⟩
  rcases answer_of_step hid hdone with hbefore | ⟨record, hfind, hpre, -⟩
  · obtain ⟨record, hfind, hpre⟩ := h.answer c result hid hbefore
    exact ⟨record, record_step hfind a, hpre⟩
  · exact ⟨record, hfind, hpre.trans (hrecord record hfind)⟩

/-- Every call of the request was answered with the charged subscription. -/
def AnswersMatch (requests : Nat → PreConsumeRequest) (requestId : String) (s : PreConsumeState) :
    Prop :=
  ∀ c result, (requests c).requestId = requestId → s.phase c = .done (.ok result) →
    ∃ record, s.db.records.find requestId = some record ∧
      result.userSubscriptionId = record.userSubscriptionId

theorem AnswersMatch.step (h : AnswersMatch requests requestId s)
    (hsel : reselects nextReset requests requestId s a = true) :
    AnswersMatch requests requestId (s.step nextReset requests a) := by
  intro c result hid hdone
  rcases answer_of_step hid hdone with hbefore | ⟨record, hfind, -, hsub⟩
  · obtain ⟨record, hfind, hsub⟩ := h c result hid hbefore
    exact ⟨record, record_step hfind a, hsub⟩
  · exact ⟨record, hfind, hsub hsel⟩

end

/-- In every interleaving the calls of a request with one amount put that amount on
the subscription of its record and on no other, a call that succeeds is answered
with that amount, and, as long as the loops stop at the charged subscription, with
that subscription. -/
theorem preConsume_charged_once (nextReset : NextReset) (requests : Nat → PreConsumeRequest)
    {db : SubscriptionDb} {requestId : String} {amount : Int}
    (hfresh : db.records.find requestId = none)
    (hsame : ∀ c, (requests c).requestId = requestId → (requests c).amount = amount)
    (as : List PreConsumeAction) (s : PreConsumeState)
    (hs : s = run (PreConsumeState.step nextReset requests) (.start db) as) :
    (∀ j, total (PreConsumeState.step nextReset requests)
        (PreConsumeState.raised nextReset requests requestId j) (.start db) as =
      match s.db.records.find requestId with
      | none => 0
      | some record => if record.userSubscriptionId = j then amount else 0) ∧
    (∀ c result, (requests c).requestId = requestId → s.phase c = .done (.ok result) →
      result.preConsumed = amount ∧ ∃ record, s.db.records.find requestId = some record ∧
        (Along (PreConsumeState.step nextReset requests)
            (fun t a => reselects nextReset requests requestId t a = true) (.start db) as →
          result.userSubscriptionId = record.userSubscriptionId)) := by
  subst hs
  constructor
  · intro j
    have hsum := total_eq (f := PreConsumeState.raised nextReset requests requestId j)
      (I := LocksHeld requests) (g := recorded requestId amount j)
      (fun t a ht => ⟨ht.step a, raised_eq ht hsame j a⟩) as (LocksHeld.start db)
    have hzero : recorded requestId amount j (.start db) = 0 := by
      simp [recorded, PreConsumeState.start, hfresh]
    rw [hzero, Int.sub_zero] at hsum
    exact hsum
  · intro c result hid hdone
    have hstart : Answers requests requestId amount (.start db) := by
      constructor
      · intro record hfind
        cases hfresh.symm.trans hfind
      · intro c result _ hdone
        cases hdone
    have hend : Answers requests requestId amount
        (run (PreConsumeState.step nextReset requests) (.start db) as) :=
      run_invariant_of_step (fun t a ht => ht.step hsame a) as hstart
    obtain ⟨record, hfind, hpre⟩ := hend.answer c result hid hdone
    refine ⟨hpre, record, hfind, ?_⟩
    intro hsel
    have hmatch := run_invariant (I := AnswersMatch requests requestId)
      (fun t a ht ha => AnswersMatch.step ht ha) (fun c result _ hdone => by cases hdone) hsel
    obtain ⟨record', hfind', hsub⟩ := hmatch c result hid hdone
    obtain rfl : record' = record := Option.some.inj (hfind'.symm.trans hfind)
    exact hsub

def twinSubscription (id endTime : Int) : UserSubscription where
  id := id
  userId := 1
  planId := 1
  amountTotal := 100
  amountUsed := 0
  startTime := 0
  endTime := endTime
  status := .active
  lastResetTime := 0
  nextResetTime := 0
  allowWalletOverflow := true

/-- Two subscriptions of one user, without resets. -/
def twinSubscriptions : SubscriptionDb where
  subs := ⟨[twinSubscription 1 50, twinSubscription 2 60], by decide⟩
  plans := ⟨[⟨1, "twin", .never, 0, .month, 1, 0, 0, "", "", 0, none⟩], by decide⟩
  records := .empty

/-- Every call takes the same amount for the same request. -/
def twinRequests (amount : Int) (_ : Nat) : PreConsumeRequest := ⟨"r", 1, amount, 10, 5⟩

/-- Both calls read before the first one finishes. -/
def twinRun : List PreConsumeAction :=
  [.read 0 none, .read 1 none, .lock 0 false, .lock 1 false, .finish 0 none false, .lock 1 false,
    .finish 1 none false]

/-- The subscription a call was answered with, and the amount. -/
def PreConsumeState.answer (s : PreConsumeState) (c : Nat) : Option (Int × Int) :=
  match s.phase c with
  | .done (.ok result) => some (result.userSubscriptionId, result.preConsumed)
  | _ => none

theorem preConsume_charged_once_twin :
    let step := PreConsumeState.step (fun _ _ _ => 0) (twinRequests 40)
    let s := run step (.start twinSubscriptions) twinRun
    total step (PreConsumeState.raised (fun _ _ _ => 0) (twinRequests 40) "r" 1)
        (.start twinSubscriptions) twinRun = 40 ∧
      s.answer 1 = some (1, 40) ∧ ∀ result, s.phase 1 = .done (.ok result) →
        result.preConsumed = 40 ∧ result.userSubscriptionId = 1 := by
  intro step s
  obtain ⟨hsum, hanswer⟩ := @preConsume_charged_once (fun _ _ _ => 0) (twinRequests 40)
    twinSubscriptions "r" 40 rfl (fun _ _ => rfl) twinRun s rfl
  have hrecord : s.db.records.find "r" = some ⟨"r", 1, 1, 40, .consumed⟩ := by decide +kernel
  refine ⟨?_, by decide +kernel, ?_⟩
  · rw [hsum 1, hrecord]
    rfl
  · intro result hdone
    obtain ⟨hpre, record, hfind, hsub⟩ := hanswer 1 result rfl hdone
    obtain rfl := Option.some.inj (hrecord.symm.trans hfind)
    exact ⟨hpre, hsub (by decide +kernel)⟩

/-- The first call takes all of the first subscription. The second one goes on to
the second subscription, finds the record there and answers with the subscription
that nothing was taken from. -/
theorem preConsume_twin_answer :
    let step := PreConsumeState.step (fun _ _ _ => 0) (twinRequests 100)
    let s := run step (.start twinSubscriptions) twinRun
    s.db.used 1 = 100 ∧ s.db.used 2 = 0 ∧ s.answer 0 = some (1, 100) ∧
      s.answer 1 = some (2, 100) := by
  decide +kernel

/-- In every interleaving no two calls have locked one row, and a row that a call has locked is
as the call read it, so that no update is lost. -/
theorem locked_rows_exclusive (nextReset : NextReset) (requests : Nat → PreConsumeRequest)
    (db : SubscriptionDb) (as : List PreConsumeAction) :
    let s := run (PreConsumeState.step nextReset requests) (.start db) as
    ∀ c subs, s.phase c = .locked subs → ∀ x ∈ subs, s.db.subs.find x.id = some x ∧
      ∀ d subs', s.phase d = .locked subs' → x.id ∈ subs'.map UserSubscription.id → d = c := by
  intro s c subs hc x hx
  have hheld : LocksHeld requests s := run_invariant_of_step (fun _ a h => h.step a) as (.start db)
  refine ⟨(hheld.holds c subs hc).current x hx, fun d subs' hd hmem => ?_⟩
  obtain ⟨y, hy, hid⟩ := List.mem_map.mp hmem
  have hlock := (hheld.holds d subs' hd).held y hy
  rw [hid, (hheld.holds c subs hc).held x hx] at hlock
  exact (Option.some.inj hlock).symm

end NewApi
