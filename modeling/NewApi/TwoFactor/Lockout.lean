import NewApi.TwoFactor.Verify

/-!
# The two-factor lockout

A backup code is marked as used under the condition that it is not, so it is accepted once
(`Used`).

The rest is true of calls that do not overlap. Then the record of the call in progress is the
row, and every comparison that fails is counted before the next one (`Serial`), so a lock follows
after at most `maxFailAttempts` comparisons and is left alone. Calls that overlap all compare
before any of them counts, and a success on a record older than the lock clears it.
-/

namespace NewApi

open Runs

namespace TwoFASystem

variable {keys : TwoFactorKeys} {s : TwoFASystem}

/-! ## Backup codes -/

/-- The accepted backup codes are marked as used, and none was accepted twice. -/
structure Used (s : TwoFASystem) : Prop where
  nodup : s.used.Nodup
  marked : ∀ i ∈ s.used, ∃ c, s.codes.find i = some c ∧ c.isUsed = true

theorem advance_codes (keys : TwoFactorKeys) (s : TwoFASystem) (stage : TwoFAStage) :
    ((s.advance keys stage).1.codes = s.codes ∧ (s.advance keys stage).1.used = s.used) ∨
      ∃ c, s.codes.find c.id = some c ∧ c.isUsed = false ∧
        (s.advance keys stage).1.codes = s.codes.save { c with isUsed := true } ∧
        (s.advance keys stage).1.used = c.id :: s.used := by
  cases stage with
  | compareTotp record code | compareCodes record code codes =>
    simp only [advance]
    split <;> exact .inl ⟨rfl, rfl⟩
  | useCode record codeId =>
    simp only [advance]
    cases hfind : s.codes.find codeId with
    | none => exact .inl ⟨rfl, rfl⟩
    | some c =>
      obtain rfl : c.id = codeId := Table.find_key hfind
      cases hused : c.isUsed with
      | true => exact .inl ⟨by simp [hused], by simp [hused]⟩
      | false => exact .inr ⟨c, hfind, hused, by simp [hused], by simp [hused]⟩
  | readAttempts record retries =>
    cases retries with
    | zero => exact .inl ⟨rfl, rfl⟩
    | succ retries =>
      simp only [advance]
      split <;> exact .inl ⟨rfl, rfl⟩
  | writeAttempts record retries current now =>
    simp only [advance, writeAttempts]
    split
    next s' hwrite =>
      split at hwrite
      · split at hwrite <;> obtain rfl := Option.some.inj hwrite <;> exact .inl ⟨rfl, rfl⟩
      · cases hwrite
    · exact .inl ⟨rfl, rfl⟩
  | _ => exact .inl ⟨rfl, rfl⟩

theorem Used.advance (h : s.Used) (stage : TwoFAStage) : (s.advance keys stage).1.Used := by
  rcases advance_codes keys s stage with ⟨hcodes, hused⟩ | ⟨c, hfind, hfree, hcodes, hused⟩
  · refine ⟨?_, ?_⟩
    · rw [hused]
      exact h.nodup
    · rw [hused, hcodes]
      exact h.marked
  · -- the code was not among the accepted ones, which are all marked
    have hnew : c.id ∉ s.used := by
      intro hmem
      obtain ⟨c', hfind', hmarked⟩ := h.marked c.id hmem
      obtain rfl := Option.some.inj (hfind.symm.trans hfind')
      cases hmarked.symm.trans hfree
    refine ⟨?_, ?_⟩
    · rw [hused]
      exact List.nodup_cons.mpr ⟨hnew, h.nodup⟩
    · rw [hused, hcodes]
      intro i hi
      rcases List.mem_cons.mp hi with rfl | hold
      · exact ⟨{ c with isUsed := true }, Table.find_save_self hfind, rfl⟩
      have hne : c.id ≠ i := fun he => hnew (he ▸ hold)
      obtain ⟨c', hfind', hmarked⟩ := h.marked i hold
      refine ⟨c', ?_, hmarked⟩
      rw [Table.find_save_of_ne (show ({ c with isUsed := true } : BackupCode).id ≠ i from hne)]
      exact hfind'

theorem Used.step (h : s.Used) (a : TwoFAAction) : (s.step keys a).Used := by
  cases a with simp only [TwoFASystem.step]
  | wait time => exact ⟨h.nodup, h.marked⟩
  | load id | submit id code =>
    split
    · exact ⟨h.nodup, h.marked⟩
    · exact h
  | step id =>
    cases s.calls.find id with
    | none => exact h
    | some call => exact ⟨(h.advance call.stage).nodup, (h.advance call.stage).marked⟩

/-! ## Calls one after the other -/

variable (s)

def Free : Prop := ¬InForce s.row.lockedUntil s.clock

def Counted : Prop := s.sinceLock ≤ s.row.failedAttempts ∧ s.sinceLock < maxFailAttempts

/-- Every comparison but the last one is counted. -/
def Compared : Prop := s.sinceLock ≤ s.row.failedAttempts + 1 ∧ s.sinceLock ≤ maxFailAttempts

variable {s}

theorem Counted.compared (h : s.Counted) : s.Compared := ⟨by have := h.1; omega, h.2.le⟩

theorem Counted.compare (h : s.Counted) : s.compare.Compared := ⟨Nat.succ_le_succ h.1, h.2⟩

end TwoFASystem

theorem InForce.mono {lockedUntil : Option Int} {now now' : Int} (hle : now ≤ now')
    (h : InForce lockedUntil now') : InForce lockedUntil now := by
  obtain ⟨deadline, hlock, hlt⟩ := h
  exact ⟨deadline, hlock, hle.trans_lt hlt⟩

def TwoFAStage.busy : TwoFAStage → Bool
  | .returned _ => false
  | _ => true

/-- What holds at a stage of the call in progress. -/
def TwoFAStage.Ok (s : TwoFASystem) : TwoFAStage → Prop
  | .loaded record | .totp record _ | .backup record _ => record = s.row ∧ s.Counted
  | .compareTotp .. | .selectCodes .. | .compareCodes .. => s.Free ∧ s.Counted
  | .useCode .. | .updateUsage _ => s.Free ∧ s.Compared
  | .readAttempts _ retries => 0 < retries ∧ s.Free ∧ s.Compared
  | .writeAttempts _ _ current now =>
    current = s.row ∧ ¬InForce s.row.lockedUntil now ∧ now ≤ s.clock ∧ s.Compared
  | .returned _ => s.Counted

variable {s : TwoFASystem}

theorem TwoFAStage.Ok.congr {s' : TwoFASystem} (hrow : s'.row = s.row) (hclock : s.clock ≤ s'.clock)
    (hcount : s'.sinceLock = s.sinceLock) {stage : TwoFAStage} (h : stage.Ok s) : stage.Ok s' := by
  have hcounted : s.Counted → s'.Counted := by
    rw [TwoFASystem.Counted, TwoFASystem.Counted, hrow, hcount]
    exact id
  have hcompared : s.Compared → s'.Compared := by
    rw [TwoFASystem.Compared, TwoFASystem.Compared, hrow, hcount]
    exact id
  have hfree : s.Free → s'.Free := by
    rw [TwoFASystem.Free, TwoFASystem.Free, hrow]
    exact fun hfree hforce => hfree (hforce.mono hclock)
  cases stage with
  | loaded record | totp record code | backup record code =>
    exact ⟨h.1.trans hrow.symm, hcounted h.2⟩
  | compareTotp record code | selectCodes record code | compareCodes record code codes =>
    exact ⟨hfree h.1, hcounted h.2⟩
  | useCode record codeId | updateUsage record => exact ⟨hfree h.1, hcompared h.2⟩
  | readAttempts record retries => exact ⟨h.1, hfree h.2.1, hcompared h.2.2⟩
  | writeAttempts record retries current now =>
    refine ⟨h.1.trans hrow.symm, ?_, h.2.2.1.trans hclock, hcompared h.2.2.2⟩
    rw [hrow]
    exact h.2.1
  | returned outcome => exact hcounted h

theorem TwoFAStage.Ok.bound {stage : TwoFAStage} (h : stage.Ok s) :
    s.sinceLock ≤ maxFailAttempts := by
  cases stage with
  | returned outcome => exact h.2.le
  | loaded record | totp record code | backup record code | compareTotp record code
  | selectCodes record code | compareCodes record code codes => exact h.2.2.le
  | useCode record codeId => exact h.2.2
  | updateUsage record => exact h.2.2
  | readAttempts record retries => exact h.2.2.2
  | writeAttempts record retries current now => exact h.2.2.2.2

/-- What a step of the call in progress does. -/
structure TwoFASystem.Advanced (s : TwoFASystem) (next : TwoFASystem × TwoFAStage) : Prop where
  ok : next.2.Ok next.1
  calls : next.1.calls = s.calls
  clock : next.1.clock = s.clock
  log : next.1.comparisons = s.comparisons ∨
    s.Free ∧ next.1.comparisons = ⟨s.row.lockedUntil, s.clock⟩ :: s.comparisons
  row : next.1.row = s.row ∨ s.Free

namespace TwoFASystem

variable {keys : TwoFactorKeys} {s : TwoFASystem}

theorem Advanced.of_same {stage : TwoFAStage} (h : stage.Ok s) : s.Advanced (s, stage) :=
  ⟨h, rfl, rfl, .inl rfl, .inl rfl⟩

theorem writeAttempts_advanced {record current : TwoFA} {retries : Nat} {now : Int}
    (h : (TwoFAStage.writeAttempts record retries current now).Ok s) :
    s.Advanced (s.advance keys (.writeAttempts record retries current now)) := by
  obtain ⟨rfl, hfree, hnow, hcompared⟩ := h
  have hfree' : s.Free := fun hforce => hfree (hforce.mono hnow)
  have hcond : s.row.failedAttempts = s.row.failedAttempts ∧ ¬InForce s.row.lockedUntil now :=
    ⟨rfl, hfree⟩
  have hwrite := TwoFASystem.writeAttempts.eq_1 s s.row now
  rw [if_pos hcond] at hwrite
  by_cases hmax : maxFailAttempts ≤ s.row.failedAttempts + 1
  · rw [if_pos hmax] at hwrite
    simp only [advance, hwrite]
    exact ⟨⟨Nat.zero_le _, Nat.succ_pos 4⟩, rfl, rfl, .inl rfl, .inr hfree'⟩
  rw [if_neg hmax] at hwrite
  simp only [advance, hwrite]
  have hcounted : s.sinceLock ≤ s.row.failedAttempts + 1 ∧ s.sinceLock < maxFailAttempts :=
    ⟨hcompared.1, by have := hcompared.1; omega⟩
  exact ⟨hcounted, rfl, rfl, .inl rfl, .inr hfree'⟩

theorem advance_advanced {stage : TwoFAStage} (h : stage.Ok s) :
    s.Advanced (s.advance keys stage) := by
  cases stage with
  | totp record code | backup record code =>
    obtain ⟨rfl, hcounted⟩ := h
    simp only [advance]
    split
    · exact .of_same hcounted
    next hfree => exact .of_same ⟨hfree, hcounted⟩
  | compareTotp record code | compareCodes record code codes =>
    obtain ⟨hfree, hcounted⟩ := h
    simp only [advance]
    split
    · exact ⟨⟨hfree, hcounted.compare⟩, rfl, rfl, .inr ⟨hfree, rfl⟩, .inl rfl⟩
    · exact ⟨⟨Nat.succ_pos _, hfree, hcounted.compare⟩, rfl, rfl, .inr ⟨hfree, rfl⟩, .inl rfl⟩
  | selectCodes record code | loaded record | returned outcome => exact .of_same h
  | useCode record codeId =>
    obtain ⟨hfree, hcompared⟩ := h
    simp only [advance]
    split
    · split
      · exact .of_same ⟨Nat.succ_pos _, hfree, hcompared⟩
      · exact ⟨⟨hfree, hcompared⟩, rfl, rfl, .inl rfl, .inl rfl⟩
    · exact .of_same ⟨Nat.succ_pos _, hfree, hcompared⟩
  | readAttempts record retries =>
    obtain ⟨hpos, hfree, hcompared⟩ := h
    cases retries with
    | zero => cases hpos
    | succ retries =>
      simp only [advance, if_neg hfree]
      exact .of_same ⟨rfl, hfree, le_refl _, hcompared⟩
  | writeAttempts record retries current now => exact writeAttempts_advanced h
  | updateUsage record =>
    exact ⟨⟨Nat.zero_le _, Nat.succ_pos 4⟩, rfl, rfl, .inl rfl, .inr h.1⟩

/-- A record is loaded only when every earlier call has returned. -/
def NoOverlap (s : TwoFASystem) : TwoFAAction → Prop
  | .load _ => ∀ c ∈ s.calls.rows, c.stage.busy = false
  | _ => True

instance NoOverlap.decidable (s : TwoFASystem) : ∀ a, Decidable (s.NoOverlap a)
  | .load _ => inferInstanceAs (Decidable (∀ c ∈ s.calls.rows, c.stage.busy = false))
  | .wait _ | .submit _ _ | .step _ => .isTrue trivial

/-- What holds when the calls do not overlap. -/
structure Serial (s : TwoFASystem) : Prop where
  alone : ∀ c ∈ s.calls.rows, ∀ c' ∈ s.calls.rows, c.stage.busy = true → c'.stage.busy = true →
    c = c'
  ok : ∀ c ∈ s.calls.rows, c.stage.busy = true → c.stage.Ok s
  quiet : (∀ c ∈ s.calls.rows, c.stage.busy = false) → s.Counted
  log : ∀ e ∈ s.comparisons, ¬InForce e.lockedUntil e.time

theorem Serial.stepped (h : s.Serial) {call : TwoFACall} {id : Nat}
    (hfind : s.calls.find id = some call) (hbusy : call.stage.busy = true)
    {next : TwoFASystem × TwoFAStage} (hnext : s.Advanced next) :
    Serial { next.1 with calls := next.1.calls.save ⟨id, next.2⟩ } := by
  obtain rfl : call.id = id := Table.find_key hfind
  have hmem := Table.find_mem hfind
  have hother : ∀ c ∈ (s.calls.save ⟨call.id, next.2⟩).rows, c.stage.busy = true →
      c = ⟨call.id, next.2⟩ := by
    refine Table.forall_save (fun _ => rfl) fun c hold hne hcbusy => ?_
    exact absurd (congrArg TwoFACall.id (h.alone c hold call hmem hcbusy hbusy)) hne
  have hsaved : next.1.calls.save ⟨call.id, next.2⟩ = s.calls.save ⟨call.id, next.2⟩ := by
    rw [hnext.calls]
  have hnew : ⟨call.id, next.2⟩ ∈ (s.calls.save ⟨call.id, next.2⟩).rows :=
    Table.find_mem (Table.find_save_self
      (show s.calls.find (⟨call.id, next.2⟩ : TwoFACall).id = some call from hfind))
  rw [hsaved]
  refine ⟨?_, ?_, ?_, ?_⟩
  · intro c hc c' hc' hcbusy hcbusy'
    rw [hother c hc hcbusy, hother c' hc' hcbusy']
  · intro c hc hcbusy
    rw [hother c hc hcbusy]
    exact TwoFAStage.Ok.congr rfl (le_refl _) rfl hnext.ok
  · intro hquiet
    have hok := hnext.ok
    cases hstage : next.2 with
    | returned outcome =>
      rw [hstage] at hok
      exact hok
    | _ =>
      have hbusy' := hquiet _ hnew
      rw [hstage] at hbusy'
      cases hbusy'
  · show ∀ e ∈ next.1.comparisons, ¬InForce e.lockedUntil e.time
    rcases hnext.log with hsame | ⟨hfree, hcons⟩
    · rw [hsame]
      exact h.log
    · rw [hcons]
      exact List.forall_mem_cons.mpr ⟨hfree, h.log⟩

theorem submit_ok {record : TwoFA} (h : (TwoFAStage.loaded record).Ok s) (code : List Char) :
    (record.submit code s.clock).Ok s := by
  obtain ⟨rfl, hcounted⟩ := h
  simp only [TwoFA.submit]
  split
  · exact hcounted
  next hfree =>
  split
  · exact ⟨rfl, hcounted⟩
  split
  · exact ⟨rfl, hcounted⟩
  · exact ⟨Nat.succ_pos 4, hfree, hcounted.compared⟩

theorem Serial.step (h : s.Serial) (a : TwoFAAction) (ha : s.NoOverlap a) :
    (s.step keys a).Serial := by
  cases a with simp only [TwoFASystem.step]
  | wait time =>
    have hclock : s.clock ≤ (s.step keys (.wait time)).clock := by
      show s.clock ≤ s.clock + time
      omega
    refine ⟨h.alone, ?_, h.quiet, h.log⟩
    intro c hc hbusy
    exact @TwoFAStage.Ok.congr s (s.step keys (.wait time)) rfl hclock rfl _ (h.ok c hc hbusy)
  | load id =>
    have hidle : ∀ c ∈ s.calls.rows, c.stage.busy = false := ha
    cases hinsert : s.calls.insert ⟨id, .loaded s.row⟩ with
    | none => exact h
    | some calls =>
      have hrows := Table.rows_insert hinsert
      have hnew : ∀ c ∈ calls.rows, c.stage.busy = true → c = ⟨id, .loaded s.row⟩ := by
        refine Table.forall_insert hinsert (fun _ => rfl) fun c hold hbusy => ?_
        rw [hidle c hold] at hbusy
        cases hbusy
      refine ⟨?_, ?_, ?_, h.log⟩
      · intro c hc c' hc' hbusy hbusy'
        rw [hnew c hc hbusy, hnew c' hc' hbusy']
      · intro c hc hbusy
        rw [hnew c hc hbusy]
        exact ⟨rfl, h.quiet hidle⟩
      · intro hquiet
        have hbusy : TwoFAStage.busy (.loaded s.row) = false :=
          hquiet ⟨id, .loaded s.row⟩ (by rw [hrows]; exact List.mem_cons_self)
        cases hbusy
  | submit id code =>
    split
    next id' record hfind =>
      have hok : (TwoFAStage.loaded record).Ok s := h.ok _ (Table.find_mem hfind) rfl
      have hnext : s.Advanced (s, record.submit code s.clock) := .of_same (submit_ok hok code)
      exact h.stepped hfind rfl hnext
    · exact h
  | step id =>
    cases hfind : s.calls.find id with
    | none => exact h
    | some call =>
      cases hbusy : call.stage.busy with
      | true =>
        exact h.stepped hfind hbusy
          (advance_advanced (h.ok call (Table.find_mem hfind) hbusy))
      | false =>
        -- a call that has returned stays where it is
        obtain ⟨id', stage⟩ := call
        cases stage with
        | returned outcome =>
          obtain rfl : id' = id := Table.find_key hfind
          simp only [advance]
          rw [Table.save_self hfind]
          exact h
        | _ => cases hbusy

def LockKept (s s' : TwoFASystem) : Prop :=
  InForce s.row.lockedUntil s.clock → s'.row.lockedUntil = s.row.lockedUntil

theorem Serial.lock_kept (h : s.Serial) (a : TwoFAAction) : LockKept s (s.step keys a) := by
  intro hforce
  cases a with
  | wait time => rfl
  | load id | submit id code =>
    simp only [TwoFASystem.step]
    split <;> rfl
  | step id =>
    simp only [TwoFASystem.step]
    cases hfind : s.calls.find id with
    | none => rfl
    | some call =>
      cases hbusy : call.stage.busy with
      | true =>
        rcases (advance_advanced (h.ok call (Table.find_mem hfind) hbusy)).row with
          hsame | hfree
        · exact congrArg TwoFA.lockedUntil hsame
        · exact absurd hforce hfree
      | false =>
        obtain ⟨id', stage⟩ := call
        cases stage with
        | returned outcome => rfl
        | _ => cases hbusy

theorem Serial.bound (h : s.Serial) : s.sinceLock ≤ maxFailAttempts := by
  by_cases hquiet : ∀ c ∈ s.calls.rows, c.stage.busy = false
  · exact (h.quiet hquiet).2.le
  · simp only [not_forall, Bool.not_eq_false] at hquiet
    obtain ⟨c, hc, hbusy⟩ := hquiet
    exact (h.ok c hc hbusy).bound

/-- Nobody has called yet. -/
structure Initial (s : TwoFASystem) : Prop where
  calls : s.calls.rows = []
  sinceLock : s.sinceLock = 0
  comparisons : s.comparisons = []
  used : s.used = []

theorem Initial.serial (h : s.Initial) : s.Serial := by
  have hnone : ∀ c, c ∉ s.calls.rows := by
    intro c
    rw [h.calls]
    exact List.not_mem_nil
  refine ⟨fun c hc => absurd hc (hnone c), fun c hc => absurd hc (hnone c), fun _ => ?_, ?_⟩
  · rw [Counted, h.sinceLock]
    exact ⟨Nat.zero_le _, Nat.succ_pos 4⟩
  · rw [h.comparisons]
    exact fun e he => absurd he List.not_mem_nil

theorem Initial.backup (h : s.Initial) : s.Used := by
  refine ⟨?_, ?_⟩ <;> rw [h.used]
  · exact List.nodup_nil
  · exact fun i hi => absurd hi List.not_mem_nil

end TwoFASystem

/-! ## Runs -/

/-- A backup code is accepted once. If the calls do not overlap, at most
`maxFailAttempts` codes are compared until a lock is set or a code is accepted, none is
compared while a lock is in force, and no step touches a lock in force. -/
theorem two_factor_lockout (keys : TwoFactorKeys) {s : TwoFASystem} (hs : s.Initial)
    (as : List TwoFAAction) :
    let t := run (TwoFASystem.step keys) s as
    t.used.Nodup ∧
      (Along (TwoFASystem.step keys) TwoFASystem.NoOverlap s as →
        t.sinceLock ≤ maxFailAttempts ∧
          (∀ e ∈ t.comparisons, ¬InForce e.lockedUntil e.time) ∧
          Along (TwoFASystem.step keys) (fun s a => s.LockKept (s.step keys a)) s as) := by
  have hused : (run (TwoFASystem.step keys) s as).Used :=
    run_invariant_of_step (fun s a (h : s.Used) => h.step a) as hs.backup
  refine ⟨hused.nodup, fun halone => ?_⟩
  have hserial : (run (TwoFASystem.step keys) s as).Serial :=
    run_invariant (fun s a (h : s.Serial) ha => h.step a ha) hs.serial halone
  refine ⟨hserial.bound, hserial.log, ?_⟩
  exact along_of_invariant (fun s a (h : s.Serial) ha => ⟨h.step a ha, h.lock_kept a⟩)
    hs.serial halone

/-- The TOTP is 123456 all the time, and a code is its own hash. -/
def sampleKeys : TwoFactorKeys where
  validTotp _ code := code = "123456".toList
  hashMatches code codeHash := code = codeHash.toList

def sampleTwoFA : TwoFASystem where
  clock := 0
  row := ⟨0, none, none⟩
  codes := ⟨[⟨1, "ABCD-EFGH", false⟩], by decide⟩
  calls := Table.empty
  sinceLock := 0
  comparisons := []
  used := []

theorem sampleTwoFA_initial : sampleTwoFA.Initial := ⟨rfl, rfl, rfl, rfl⟩

/-- A call submits a code and makes some steps. -/
def submitted (id : Nat) (code : String) (steps : Nat) : List TwoFAAction :=
  .submit id code.toList :: List.replicate steps (.step id)

/-- A backup code is accepted, and six wrong codes follow one after the other. -/
def serialCalls : List TwoFAAction :=
  .load 6 :: submitted 6 "abcdefgh" 5 ++
    (List.range 6).flatMap fun id => .load id :: submitted id "000000" 4

theorem serialCalls_kept :
    let t := run (TwoFASystem.step sampleKeys) sampleTwoFA serialCalls
    (t.used = [1] ∧ t.row = ⟨5, some lockoutDuration, some 0⟩) ∧ t.used.Nodup ∧
      t.sinceLock ≤ maxFailAttempts ∧ (∀ e ∈ t.comparisons, ¬InForce e.lockedUntil e.time) ∧
      Along (TwoFASystem.step sampleKeys) (fun s a => s.LockKept (s.step sampleKeys a))
        sampleTwoFA serialCalls := by
  obtain ⟨hused, hserial⟩ := two_factor_lockout sampleKeys sampleTwoFA_initial serialCalls
  exact ⟨by decide +kernel, hused, hserial (by decide +kernel)⟩

def loadedRecords : List TwoFAAction := (List.range 6).map .load

/-- Six wrong codes are compared, and none is counted yet. -/
def overlappingGuesses : List TwoFAAction :=
  loadedRecords ++ (List.range 6).flatMap fun id => submitted id "000000" 2

/-- Five wrong codes set the lock, then a code is compared on the sixth record. -/
def lateGuess (code : String) : List TwoFAAction :=
  loadedRecords ++ ((List.range 5).flatMap fun id => submitted id "000000" 4) ++ submitted 5 code 2

/-- Six comparisons without a lock, a comparison in spite of a lock, and a success that
clears it. -/
theorem lockout_overrun :
    (run (TwoFASystem.step sampleKeys) sampleTwoFA overlappingGuesses).sinceLock =
        maxFailAttempts + 1 ∧
      (run (TwoFASystem.step sampleKeys) sampleTwoFA (lateGuess "000000")).comparisons.head? =
        some ⟨some lockoutDuration, 0⟩ ∧
      (run (TwoFASystem.step sampleKeys) sampleTwoFA (lateGuess "123456")).row =
        ⟨5, some lockoutDuration, none⟩ ∧
      (run (TwoFASystem.step sampleKeys) sampleTwoFA (lateGuess "123456" ++ [.step 5])).row =
        ⟨0, none, some 0⟩ :=
  ⟨rfl, rfl, rfl, rfl⟩

end NewApi
