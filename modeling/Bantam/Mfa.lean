import Bantam.Auth

/-! `MfaService`: the factor tables and the completion of a login or an enrolment by a
passkey or an authenticator code. A completion that fails its verification still commits
the failed attempt; one that raises inside its database transaction changes nothing. -/
namespace Bantam
open Tables

abbrev Bytes := List UInt8

instance : LawfulBEq Bytes := inferInstance

inductive MfaPurpose where
  | login | enrollChoice | enrollPasskey | enrollTotp
  deriving DecidableEq

/-- `MAX_ATTEMPTS` -/
def maxAttempts : Nat := 5

structure MfaTransaction where
  transactionId : Uuid
  userId : Uuid
  purpose : MfaPurpose
  challenge : Option Bytes
  pendingSecret : Option Bytes
  factorLabel : Option String
  sourceJti : Option Uuid
  sourceExpiresAt : Option Instant
  attempts : Nat
  expiresAt : Instant
  consumedAt : Option Instant
  createdAt : Instant
  bounded : attempts ≤ 5
  sourced : sourceJti.isSome = sourceExpiresAt.isSome
  deriving DecidableEq

structure WebauthnCredential where
  webauthnCredentialId : Uuid
  userId : Uuid
  credentialId : Bytes
  publicKey : Bytes
  signCount : Nat
  transports : List String
  deviceType : String
  backedUp : Bool
  label : String
  createdAt : Instant
  lastUsedAt : Option Instant
  revokedAt : Option Instant
  labelled : 1 ≤ label.length ∧ label.length ≤ 80
  deriving DecidableEq

structure TotpCredential where
  userId : Uuid
  encryptedSecret : Bytes
  label : String
  lastUsedStep : Int
  confirmedAt : Instant
  lastUsedAt : Option Instant
  revokedAt : Option Instant
  labelled : 1 ≤ label.length ∧ label.length ≤ 80
  deriving DecidableEq

/-- The banking tables, whose users and audit events are used here, and the factor tables. -/
structure MfaDb where
  bank : Db
  transactions : List MfaTransaction
  passkeys : List WebauthnCredential
  totps : List TotpCredential
  revocations : List SessionRevocation
  deriving DecidableEq

structure MfaFailure where
  code : String
  message : String
  statusCode : Nat
  deriving DecidableEq

inductive MfaError where
  | failure (f : MfaFailure)
  | database (e : DatabaseError)
  | value (message : String)
  deriving DecidableEq

def invalidPasskeyResponse : MfaFailure :=
  ⟨"INVALID_PASSKEY_RESPONSE", "The passkey response was invalid.", 401⟩
def passkeyNotAccepted : MfaFailure :=
  ⟨"INVALID_MFA_TRANSACTION", "This MFA request cannot accept a passkey.", 409⟩
def passkeyAlreadyEnrolled : MfaFailure :=
  ⟨"PASSKEY_ALREADY_ENROLLED", "That passkey is already registered.", 409⟩
def invalidOtp : MfaFailure :=
  ⟨"INVALID_OTP", "Enter the six-digit code from your authenticator app.", 401⟩
def codeNotAccepted : MfaFailure :=
  ⟨"INVALID_MFA_TRANSACTION", "This MFA request cannot accept an authenticator code.", 409⟩
def mfaConfigurationError : MfaFailure :=
  ⟨"MFA_CONFIGURATION_ERROR", "The authenticator could not be verified.", 503⟩
def invalidMfaTransaction : MfaFailure :=
  ⟨"INVALID_MFA_TRANSACTION", "This MFA request expired or was already used.", 401⟩
def userNotActive : MfaFailure :=
  ⟨"UNAUTHENTICATED", "The user account is no longer active.", 401⟩
def verificationFailed (message : String) : MfaFailure :=
  ⟨"MFA_VERIFICATION_FAILED", message, 401⟩

/-- The JSON of a passkey response: its `rawId`, the transports that it lists and the rest,
which only the library reads. -/
structure PasskeyResponse where
  rawId : Option String
  transports : List String
  body : String
  deriving DecidableEq

/-- `VerifiedAuthentication` -/
structure VerifiedAuthentication where
  newSignCount : Nat
  credentialBackedUp : Bool

/-- `VerifiedRegistration` -/
structure VerifiedRegistration where
  credentialId : Bytes
  credentialPublicKey : Bytes
  signCount : Nat
  credentialDeviceType : String
  credentialBackedUp : Bool

/-- The WebAuthn library with the configured hostname and origins; an exception is `none`. -/
structure Webauthn where
  base64urlToBytes : String → Option Bytes
  verifyAuthenticationResponse :
    PasskeyResponse → Bytes → Bytes → Nat → Option VerifiedAuthentication
  verifyRegistrationResponse : PasskeyResponse → Bytes → Option VerifiedRegistration

/-- `pyotp.TOTP`: the code at a time in seconds, and the number of its time-step. -/
structure Pyotp where
  interval : Int
  codeAt : String → Int → String
  timecode : Int → Int

/-- `decrypt` is that of Fernet with the ASCII decoding; an exception is `none`. -/
structure MfaService where
  webauthn : Webauthn
  pyotp : Pyotp
  decrypt : Bytes → Option String

structure MfaCompletion where
  userId : Uuid
  customerId : Option Uuid
  role : Role
  method : String
  enrolled : Bool
  deriving DecidableEq

/-- What a completion draws from `uuid4` and reads from the clocks. -/
structure FactorDraw where
  credentialRowId : Uuid
  now : Instant
  databaseNow : Instant
  deriving DecidableEq

namespace MfaTransaction

/-- `attempts = attempts + 1`, which follows the test that the attempts are not exhausted. -/
def fail (t : MfaTransaction) : MfaTransaction :=
  if h : t.attempts < 5 then { t with attempts := t.attempts + 1, bounded := h } else t

def consume (now : Instant) (t : MfaTransaction) : MfaTransaction :=
  { t with consumedAt := some now }
end MfaTransaction

namespace MfaDb

def findTransaction (db : MfaDb) (id : Uuid) : Option MfaTransaction :=
  lookup MfaTransaction.transactionId id db.transactions

/-- `users.status = 'ACTIVE'` -/
def activeUser (db : MfaDb) (userId : Uuid) : Bool :=
  match db.bank.findUser userId with
  | some user => user.status = .active
  | none => false

/-- `_transaction_for_update`: the row of a request that is neither expired, consumed nor
exhausted, of an active user. -/
def transactionForUpdate (transactionId : Uuid) (databaseNow : Instant) (db : MfaDb) :
    Except MfaError MfaTransaction :=
  match db.findTransaction transactionId with
  | none => .error (.failure invalidMfaTransaction)
  | some t =>
    if databaseNow < t.expiresAt ∧ t.consumedAt = none ∧ t.attempts < maxAttempts ∧
        db.activeUser t.userId = true then .ok t
    else .error (.failure invalidMfaTransaction)

/-- The `UPDATE` of `_record_failure`. -/
def recordFailure (transactionId : Uuid) (db : MfaDb) : MfaDb :=
  { db with
    transactions :=
      updateWhere (fun t => t.transactionId = transactionId) MfaTransaction.fail db.transactions }

/-- `UPDATE user_accounts SET mfa_enabled = …` -/
def setMfaEnabled (userId : Uuid) (enabled : Bool) (db : MfaDb) : MfaDb :=
  let users := updateWhere (fun u => u.userId = userId)
    (fun u => { u with mfaEnabled := enabled }) db.bank.users
  { db with bank := { db.bank with users := users } }

/-- `INSERT INTO session_revocations … ON CONFLICT (jti) DO NOTHING`, if there is a source. -/
def revokeSource (t : MfaTransaction) (db : MfaDb) : MfaDb :=
  match t.sourceJti, t.sourceExpiresAt with
  | some jti, some expiresAt =>
    if db.revocations.any fun r => r.jti = jti then db
    else { db with revocations := db.revocations ++ [⟨jti, t.userId, expiresAt⟩] }
  | _, _ => db

/-- `_consume` -/
def consume (t : MfaTransaction) (method : String) (databaseNow : Instant) (db : MfaDb) :
    Except MfaError (MfaCompletion × MfaDb) :=
  let consumed := { db with
    transactions := updateWhere (fun u => u.transactionId = t.transactionId)
      (MfaTransaction.consume databaseNow) db.transactions }
  let db := revokeSource t (consumed.setMfaEnabled t.userId true)
  match db.bank.findUser t.userId with
  | none => .error (.failure userNotActive)
  | some user =>
    if user.status ≠ .active then .error (.failure userNotActive)
    else .ok ({
      userId := user.userId
      customerId := user.customerId
      role := user.role
      method := method
      enrolled := t.purpose ≠ .login }, db)

/-- `safe_transports`: the known ones, in alphabetical order. -/
def safeTransports (transports : List String) : List String :=
  ["ble", "cable", "hybrid", "internal", "nfc", "smart-card", "usb"].filter (· ∈ transports)

def insertPasskey (row : WebauthnCredential) (db : MfaDb) : Except MfaError MfaDb :=
  if row.webauthnCredentialId ∈ db.passkeys.map WebauthnCredential.webauthnCredentialId ∨
      row.credentialId ∈ db.passkeys.map WebauthnCredential.credentialId then
    .error (.database .uniqueViolation)
  else .ok { db with passkeys := db.passkeys ++ [row] }
end MfaDb

namespace MfaService
variable (service : MfaService)

/-- The `LOGIN` branch of `complete_passkey`: a failure, or none with the counter updated. -/
def loginPasskey (draw : FactorDraw) (t : MfaTransaction) (credential : PasskeyResponse)
    (rawId : Bytes) (db : MfaDb) : Option MfaFailure × MfaDb :=
  let failed := (some (verificationFailed "The passkey could not be verified."),
    db.recordFailure t.transactionId)
  match db.passkeys.find? fun p =>
      p.userId = t.userId && p.credentialId = rawId && p.revokedAt.isNone with
  | none => failed
  | some stored =>
    match t.challenge.bind fun challenge =>
        service.webauthn.verifyAuthenticationResponse credential challenge stored.publicKey
          stored.signCount with
    | none => failed
    | some verified =>
      (none, { db with
        passkeys := updateWhere (fun p => p.userId = t.userId && p.credentialId = rawId)
          (fun p => { p with
            signCount := verified.newSignCount
            lastUsedAt := some draw.databaseNow
            backedUp := verified.credentialBackedUp }) db.passkeys })

/-- The `ENROLL_PASSKEY` branch of `complete_passkey`; a label that the table refuses raises. -/
def enrollPasskey (draw : FactorDraw) (t : MfaTransaction) (credential : PasskeyResponse)
    (db : MfaDb) : Except MfaError (Option MfaFailure × MfaDb) :=
  match t.challenge.bind fun challenge =>
      service.webauthn.verifyRegistrationResponse credential challenge with
  | none =>
    .ok (some (verificationFailed "The passkey could not be registered."),
      db.recordFailure t.transactionId)
  | some verified =>
    if verified.credentialId ∈ db.passkeys.map WebauthnCredential.credentialId then
      .ok (some (verificationFailed "That passkey is already registered."),
        db.recordFailure t.transactionId)
    else
      match t.factorLabel with
      | none => .error (.database .notNullViolation)
      | some label =>
        if h : 1 ≤ label.length ∧ label.length ≤ 80 then do
          let db ← db.insertPasskey {
            webauthnCredentialId := draw.credentialRowId
            userId := t.userId
            credentialId := verified.credentialId
            publicKey := verified.credentialPublicKey
            signCount := verified.signCount
            transports := MfaDb.safeTransports credential.transports
            deviceType := verified.credentialDeviceType
            backedUp := verified.credentialBackedUp
            label := label
            createdAt := draw.databaseNow
            lastUsedAt := none
            revokedAt := none
            labelled := h }
          return (none, db)
        else .error (.database .checkViolation)

/-- The branches of `complete_passkey` on the purpose of the request. -/
def verifyPasskey (draw : FactorDraw) (t : MfaTransaction) (credential : PasskeyResponse)
    (rawId : Bytes) (db : MfaDb) : Except MfaError (Option MfaFailure × MfaDb) :=
  match t.purpose with
  | .login => .ok (service.loginPasskey draw t credential rawId db)
  | .enrollPasskey => service.enrollPasskey draw t credential db
  | _ => .ok (some passkeyNotAccepted, db)

/-- The end of a completion's database transaction: a failure commits what was recorded, and
a success consumes the request. -/
def settle (draw : FactorDraw) (t : MfaTransaction) (method : String)
    (outcome : Option MfaFailure × MfaDb) :
    Except MfaError (Except MfaFailure MfaCompletion × MfaDb) :=
  match outcome with
  | (some failure, db) => .ok (.error failure, db)
  | (none, db) => do
    let (completion, db) ← db.consume t method draw.databaseNow
    return (.ok completion, db)

/-- What a caller gets from the database transaction and the database it leaves. -/
def commit (db : MfaDb) :
    Except MfaError (Except MfaFailure MfaCompletion × MfaDb) →
      Except MfaError MfaCompletion × MfaDb
  | .ok (.ok completion, db') => (.ok completion, db')
  | .ok (.error failure, db') => (.error (.failure failure), db')
  | .error e => (.error e, db)

/-- The handler of `errors.UniqueViolation` in `complete_passkey`. -/
def passkeyHandler : Except MfaError MfaCompletion × MfaDb → Except MfaError MfaCompletion × MfaDb
  | (.error (.database .uniqueViolation), db) => (.error (.failure passkeyAlreadyEnrolled), db)
  | result => result

/-- `MfaService.complete_passkey` -/
def completePasskey (draw : FactorDraw) (transactionId : Uuid) (credential : PasskeyResponse)
    (db : MfaDb) : Except MfaError MfaCompletion × MfaDb :=
  match credential.rawId.bind service.webauthn.base64urlToBytes with
  | none => (.error (.failure invalidPasskeyResponse), db)
  | some rawId => passkeyHandler (commit db do
      let t ← db.transactionForUpdate transactionId draw.databaseNow
      let outcome ← service.verifyPasskey draw t credential rawId db
      settle draw t "passkey" outcome)

/-- `TOTP_CODE.fullmatch(code)`. A digit outside ASCII passes `\d` as well, but then
`compare_digest` raises; here such a code is refused at once, and nothing changes either way. -/
def isTotpCode (code : String) : Bool := code.length = 6 && code.toList.all Char.isDigit

/-- `_matching_totp_step`: the step of the code now, one interval ago or one ahead. -/
def matchingTotpStep (now : Instant) (secret code : String) : Option Int :=
  let candidates := [0, -1, 1].map fun offset => epochSeconds now + offset * service.pyotp.interval
  (candidates.find? fun time => service.pyotp.codeAt secret time = code).map service.pyotp.timecode

/-- `INSERT INTO totp_credentials … ON CONFLICT (user_id) DO UPDATE` -/
def upsertTotp (row : TotpCredential) (db : MfaDb) : MfaDb :=
  if row.userId ∈ db.totps.map TotpCredential.userId then
    { db with totps := updateWhere (fun c => c.userId = row.userId) (fun _ => row) db.totps }
  else { db with totps := db.totps ++ [row] }

/-- What a matching step writes: the used step at a login, the credential at an enrolment. -/
def acceptTotp (draw : FactorDraw) (t : MfaTransaction) (encrypted : Bytes) (step : Int)
    (db : MfaDb) : Except MfaError MfaDb :=
  if t.purpose = .login then
    .ok { db with
      totps := updateWhere (fun c => c.userId = t.userId && c.revokedAt.isNone)
        (fun c => { c with lastUsedStep := step, lastUsedAt := some draw.databaseNow }) db.totps }
  else
    match t.factorLabel with
    | none => .error (.database .notNullViolation)
    | some label =>
      if h : 1 ≤ label.length ∧ label.length ≤ 80 then
        .ok (upsertTotp {
          userId := t.userId
          encryptedSecret := encrypted
          label := label
          lastUsedStep := step
          confirmedAt := draw.databaseNow
          lastUsedAt := none
          revokedAt := none
          labelled := h } db)
      else .error (.database .checkViolation)

/-- The secret that a code is checked against, and the step it must come after. -/
def totpSecret (t : MfaTransaction) (db : MfaDb) : Option Bytes × Int :=
  match t.purpose with
  | .login =>
    match db.totps.find? fun c => c.userId = t.userId && c.revokedAt.isNone with
    | some stored => (some stored.encryptedSecret, stored.lastUsedStep)
    | none => (t.pendingSecret, -1)
  | _ => (t.pendingSecret, -1)

/-- The check of a code in `complete_totp`, on a request that accepts one. -/
def checkTotp (draw : FactorDraw) (t : MfaTransaction) (code : String) (db : MfaDb) :
    Except MfaError (Option MfaFailure × MfaDb) :=
  let (encrypted, lastUsedStep) := totpSecret t db
  match encrypted with
  | none | some [] =>
    .ok (some (verificationFailed "The authenticator code could not be verified."),
      db.recordFailure t.transactionId)
  | some encrypted =>
    match service.decrypt encrypted with
    | none => .ok (some mfaConfigurationError, db)
    | some secret =>
      match (service.matchingTotpStep draw.now secret code).filter (lastUsedStep < ·) with
      | none =>
        .ok (some (verificationFailed "The authenticator code is invalid or was already used."),
          db.recordFailure t.transactionId)
      | some step => do
        let db ← acceptTotp draw t encrypted step db
        return (none, db)

/-- The branches of `complete_totp` on the purpose of the request. -/
def verifyTotp (draw : FactorDraw) (t : MfaTransaction) (code : String) (db : MfaDb) :
    Except MfaError (Option MfaFailure × MfaDb) :=
  match t.purpose with
  | .login | .enrollTotp => service.checkTotp draw t code db
  | _ => .ok (some codeNotAccepted, db)

/-- `MfaService.complete_totp` -/
def completeTotp (draw : FactorDraw) (transactionId : Uuid) (code : String) (db : MfaDb) :
    Except MfaError MfaCompletion × MfaDb :=
  if isTotpCode code = false then (.error (.failure invalidOtp), db)
  else commit db do
    let t ← db.transactionForUpdate transactionId draw.databaseNow
    let outcome ← service.verifyTotp draw t code db
    settle draw t "totp" outcome
end MfaService
end Bantam
