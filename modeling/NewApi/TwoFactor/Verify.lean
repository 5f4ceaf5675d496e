import NewApi.Lib.Runs
import NewApi.Lib.Table
import NewApi.Lib.Text

/-!
# Two-factor codes

`VerifyTwoFactorCode` works on a record that was loaded before. It refuses a record that is
locked, takes the code for a TOTP or for a backup code by its form, compares it, and writes the
outcome back: a failure through the compare-and-set loop of `IncrementFailedAttempts`, a success
by `updateUsageState`, which writes the whole usage state.

A call is a `TwoFAStage`, what it does next. The secret and the password hash are
`TwoFactorKeys`. The user has 2FA enabled throughout, and the statements do not fail.
`sinceLock`, `comparisons` and `used` are not in any store.
-/

namespace NewApi

/-- The secret of the user, and the hash of backup codes. -/
structure TwoFactorKeys where
  /-- `totp.Validate` at a time. -/
  validTotp : Int → List Char → Bool
  /-- `ValidatePasswordAndHash`. -/
  hashMatches : List Char → String → Bool

/-! ## Codes -/

variable (code : List Char)

/-- `ValidateNumericCode`. -/
def validateNumericCode : Option (List Char) :=
  let code := code.filter (· ≠ ' ')
  if code.length ≠ 6 then none
  else if (Text.parseInt code).isNone then none
  else some code

/-- A backup code without separators, in capital letters. -/
def cleanBackupCode : List Char := (code.filter (· ≠ '-')).map Char.toUpper

/-- `ValidateBackupCode` of the package `common`. -/
def validateBackupCode : Bool :=
  (cleanBackupCode code).length = 8 && (cleanBackupCode code).all fun c =>
    ('A' ≤ c && c ≤ 'Z') || ('0' ≤ c && c ≤ '9')

/-- `NormalizeBackupCode`. -/
def normalizeBackupCode : List Char :=
  let clean := cleanBackupCode code
  if clean.length = 8 then clean.take 4 ++ '-' :: clean.drop 4 else code

/-- `ValidateTOTPCode`. -/
def TwoFactorKeys.validateTOTPCode (keys : TwoFactorKeys) (now : Int) (code : List Char) : Bool :=
  let clean := code.filter (· ≠ ' ')
  if clean.length ≠ 6 then false else keys.validTotp now clean

/-! ## Rows and calls -/

def maxFailAttempts : Nat := 5

/-- `LockoutDuration`, in nanoseconds. -/
def lockoutDuration : Int := 300 * 1000000000

/-- The usage state of a `TwoFA`, as a row or as a record in memory. -/
structure TwoFA where
  failedAttempts : Nat
  (lockedUntil lastUsedAt : Option Int)
deriving DecidableEq

def InForce (lockedUntil : Option Int) (now : Int) : Prop :=
  ∃ deadline, lockedUntil = some deadline ∧ now < deadline

instance InForce.decidable (lockedUntil : Option Int) (now : Int) :
    Decidable (InForce lockedUntil now) :=
  match lockedUntil with
  | none => isFalse (by rintro ⟨_, h, _⟩; cases h)
  | some deadline => decidable_of_iff (now < deadline) (by simp [InForce])

/-- `TwoFABackupCode`. -/
structure BackupCode where
  id : Nat
  codeHash : String
  isUsed : Bool
deriving DecidableEq

/-- How a call ended. -/
inductive TwoFAOutcome
  | accepted
  /-- `ErrVerificationFailed`. -/
  | failed
  /-- `ErrVerificationLocked`, or the same from the record. -/
  | locked
  | conflict
deriving DecidableEq

/-- What a call does next. -/
inductive TwoFAStage
  | loaded (record : TwoFA)
  /-- `ValidateTOTPAndUpdateUsage`. -/
  | totp (record : TwoFA) (code : List Char)
  | compareTotp (record : TwoFA) (code : List Char)
  /-- `ValidateBackupCodeAndUpdateUsage`. -/
  | backup (record : TwoFA) (code : List Char)
  | selectCodes (record : TwoFA) (code : List Char)
  | compareCodes (record : TwoFA) (code : List Char) (codes : List BackupCode)
  | useCode (record : TwoFA) (codeId : Nat)
  /-- `IncrementFailedAttempts` reads the row, with the tries that are left. -/
  | readAttempts (record : TwoFA) (retries : Nat)
  | writeAttempts (record : TwoFA) (retries : Nat) (current : TwoFA) (now : Int)
  /-- `updateUsageState` after a success. -/
  | updateUsage (record : TwoFA)
  | returned (outcome : TwoFAOutcome)
deriving DecidableEq

/-- A call. -/
structure TwoFACall where
  id : Nat
  stage : TwoFAStage
deriving DecidableEq

/-- A comparison: the stored lock, and the time. -/
structure TwoFAComparison where
  lockedUntil : Option Int
  time : Int
deriving DecidableEq

/-- The database, the clock and the calls. -/
structure TwoFASystem where
  clock : Int
  row : TwoFA
  codes : Table BackupCode.id
  calls : Table TwoFACall.id
  sinceLock : Nat
  comparisons : List TwoFAComparison
  used : List Nat

/-! ## Steps -/

/-- The tries of `IncrementFailedAttempts`. -/
def maxUpdateRetries : Nat := 5

/-- `VerifyTwoFactorCode` up to its first statement. -/
def TwoFA.submit (record : TwoFA) (code : List Char) (now : Int) : TwoFAStage :=
  if InForce record.lockedUntil now then .returned .locked
  else
    let code := Text.trimSpace code
    match validateNumericCode code with
    | some numeric => .totp record numeric
    | none =>
      if validateBackupCode code then .backup record code else .readAttempts record maxUpdateRetries

namespace TwoFASystem

variable (s : TwoFASystem)

def compare : TwoFASystem :=
  { s with
    sinceLock := s.sinceLock + 1
    comparisons := ⟨s.row.lockedUntil, s.clock⟩ :: s.comparisons }

/-- The update of `IncrementFailedAttempts`, with its condition. -/
def writeAttempts (current : TwoFA) (now : Int) : Option TwoFASystem :=
  if s.row.failedAttempts = current.failedAttempts ∧ ¬InForce s.row.lockedUntil now then
    if maxFailAttempts ≤ current.failedAttempts + 1 then
      some { s with
        row := { s.row with
          failedAttempts := current.failedAttempts + 1
          lockedUntil := some (now + lockoutDuration) }
        sinceLock := 0 }
    else
      some { s with
        row := { s.row with
          failedAttempts := current.failedAttempts + 1
          lockedUntil := current.lockedUntil } }
  else none

def updateUsageState (record : TwoFA) : TwoFASystem := { s with row := record, sinceLock := 0 }

def advance (keys : TwoFactorKeys) (s : TwoFASystem) : TwoFAStage → TwoFASystem × TwoFAStage
  | .totp record code =>
    (s, if InForce record.lockedUntil s.clock then .returned .locked else .compareTotp record code)
  | .compareTotp record code =>
    if keys.validateTOTPCode s.clock code then (s.compare, .updateUsage record)
    else (s.compare, .readAttempts record maxUpdateRetries)
  | .backup record code =>
    (s, if InForce record.lockedUntil s.clock then .returned .locked else .selectCodes record code)
  | .selectCodes record code =>
    (s, .compareCodes record code (s.codes.rows.filter fun c => !c.isUsed))
  | .compareCodes record code codes =>
    match codes.find? fun c => keys.hashMatches (normalizeBackupCode code) c.codeHash with
    | some c => (s.compare, .useCode record c.id)
    | none => (s.compare, .readAttempts record maxUpdateRetries)
  | .useCode record codeId =>
    match s.codes.find codeId with
    | some c =>
      if c.isUsed then (s, .readAttempts record maxUpdateRetries)
      else
        ({ s with
            codes := s.codes.save { c with isUsed := true }
            used := codeId :: s.used }, .updateUsage record)
    | none => (s, .readAttempts record maxUpdateRetries)
  | .readAttempts _ 0 => (s, .returned .conflict)
  | .readAttempts record (retries + 1) =>
    if InForce s.row.lockedUntil s.clock then (s, .returned .failed)
    else (s, .writeAttempts record retries s.row s.clock)
  | .writeAttempts record retries current now =>
    match s.writeAttempts current now with
    | some s' => (s', .returned .failed)
    | none => (s, .readAttempts record retries)
  | .updateUsage _ => (s.updateUsageState ⟨0, none, some s.clock⟩, .returned .accepted)
  | stage => (s, stage)

end TwoFASystem

/-- What happens next. -/
inductive TwoFAAction
  | wait (time : Nat)
  /-- `GetTwoFAByUserId`. -/
  | load (id : Nat)
  /-- `VerifyTwoFactorCode` is called on the loaded record. -/
  | submit (id : Nat) (code : List Char)
  | step (id : Nat)
deriving DecidableEq

def TwoFASystem.step (keys : TwoFactorKeys) (s : TwoFASystem) : TwoFAAction → TwoFASystem
  | .wait time => { s with clock := s.clock + time }
  | .load id =>
    match s.calls.insert ⟨id, .loaded s.row⟩ with
    | some calls => { s with calls := calls }
    | none => s
  | .submit id code =>
    match s.calls.find id with
    | some ⟨_, .loaded record⟩ => { s with calls := s.calls.save ⟨id, record.submit code s.clock⟩ }
    | _ => s
  | .step id =>
    match s.calls.find id with
    | some call =>
      let next := s.advance keys call.stage
      { next.1 with calls := next.1.calls.save ⟨id, next.2⟩ }
    | none => s

end NewApi
