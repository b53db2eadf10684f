import Bantam.Ceremonies

/-! The completions of MFA requests a statement at a time: a completion reads its request and
the factor for update, decides, and commits what it has decided. Beside them run the calls that
begin and prepare requests and remove factors. -/
namespace Bantam
open Tables

/-- The bound of `CHECK (attempts BETWEEN 0 AND 5)`. -/
def attemptsCheck : Nat := 5

namespace MfaDb

/-- The `UPDATE` of `_record_failure`, which the `CHECK` of its table may refuse. -/
def countFailure (transactionId : Uuid) (db : MfaDb) : Except MfaError MfaDb :=
  if db.transactions.any fun t => t.transactionId = transactionId && attemptsCheck ≤ t.attempts then
    .error (.database .checkViolation)
  else .ok (db.recordFailure transactionId)
end MfaDb

/-- The failures of a completion that are not recorded on its request. -/
inductive Refusal where
  | passkeyNotAccepted | codeNotAccepted | configuration | response
  deriving DecidableEq

def Refusal.failure : Refusal → MfaFailure
  | .passkeyNotAccepted => Bantam.passkeyNotAccepted
  | .codeNotAccepted => Bantam.codeNotAccepted
  | .configuration => mfaConfigurationError
  | .response => invalidPasskeyResponse

/-- What a completion has decided: a failure that is recorded or not, or the statement that
writes the factor. -/
inductive Verdict where
  | refuse (refusal : Refusal)
  | record (message : String)
  | usePasskey (rawId : Bytes) (verified : VerifiedAuthentication)
  | enrollPasskey (verified : VerifiedRegistration) (transports : List String)
  | totp (encrypted : Bytes) (step : Int)

namespace Verdict

/-- The statements before `_consume`, with the failure if there is one. -/
def write (draw : FactorDraw) (t : MfaTransaction) (db : MfaDb) :
    Verdict → Except MfaError (Option MfaFailure × MfaDb)
  | .refuse refusal => .ok (some refusal.failure, db)
  | .record message => do
    let db ← db.countFailure t.transactionId
    return (some (verificationFailed message), db)
  | .usePasskey rawId verified => .ok (none, { db with
      passkeys := updateWhere (fun p => p.userId = t.userId && p.credentialId = rawId)
        (fun p => { p with
          signCount := verified.newSignCount
          lastUsedAt := some draw.databaseNow
          backedUp := verified.credentialBackedUp }) db.passkeys })
  | .enrollPasskey verified transports =>
    match t.factorLabel with
    | none => .error (.database .notNullViolation)
    | some label =>
      if h : 1 ≤ label.length ∧ label.length ≤ 80 then do
        let db ← db.insertPasskey {
          webauthnCredentialId := draw.credentialRowId
          userId := t.userId
          credentialId := verified.credentialId
          publicKey := verified.credentialPublicKey
          signCount := verified.signCount
          transports := transports
          deviceType := verified.credentialDeviceType
          backedUp := verified.credentialBackedUp
          label := label
          createdAt := draw.databaseNow
          lastUsedAt := none
          revokedAt := none
          labelled := h }
        return (none, db)
      else .error (.database .checkViolation)
  | .totp encrypted step => do
    let db ← MfaService.acceptTotp draw t encrypted step db
    return (none, db)

/-- The rows beside those that are locked already: the user's, and that of the authenticator
app which an enrolment inserts or replaces. -/
def rows (t : MfaTransaction) : Verdict → List MfaLock
  | .refuse _ | .record _ => []
  | .usePasskey _ _ | .enrollPasskey _ _ => [.user t.userId]
  | .totp _ _ => [.factor t.userId .totp, .user t.userId]
end Verdict

namespace MfaService
variable (service : MfaService)

/-- What is raised before the database transaction. -/
def malformed : FactorResponse → Option MfaFailure
  | .passkey credential =>
    if (credential.rawId.bind service.webauthn.base64urlToBytes).isNone then
      some invalidPasskeyResponse
    else none
  | .totp code => if isTotpCode code = false then some invalidOtp else none

/-- The factors whose rows are read `FOR UPDATE` after the request's. -/
def factorsForUpdate (t : MfaTransaction) (db : MfaDb) : FactorResponse → List Factor
  | .passkey credential =>
    if t.purpose = .login then
      (db.passkeys.filter fun p => p.userId = t.userId && p.revokedAt.isNone &&
        some p.credentialId = credential.rawId.bind service.webauthn.base64urlToBytes).map
          fun p => .passkey p.webauthnCredentialId
    else []
  | .totp _ => if t.purpose = .login ∧ db.hasTotp t.userId = true then [.totp] else []

/-- The checks of `complete_passkey` on the request that it has locked. -/
def judgePasskey (t : MfaTransaction) (credential : PasskeyResponse) (rawId : Bytes) (db : MfaDb) :
    Verdict :=
  match t.purpose with
  | .login =>
    match db.passkeys.find? fun p =>
        p.userId = t.userId && p.credentialId = rawId && p.revokedAt.isNone with
    | none => .record "The passkey could not be verified."
    | some stored =>
      match t.challenge.bind fun challenge =>
          service.webauthn.verifyAuthenticationResponse credential challenge stored.publicKey
            stored.signCount with
      | none => .record "The passkey could not be verified."
      | some verified => .usePasskey rawId verified
  | .enrollPasskey =>
    match t.challenge.bind fun challenge =>
        service.webauthn.verifyRegistrationResponse credential challenge with
    | none => .record "The passkey could not be registered."
    | some verified =>
      if verified.credentialId ∈ db.passkeys.map WebauthnCredential.credentialId then
        .record "That passkey is already registered."
      else .enrollPasskey verified (MfaDb.safeTransports credential.transports)
  | _ => .refuse .passkeyNotAccepted

/-- The check of a code in `complete_totp`, on a request that accepts one. -/
def judgeCode (now : Instant) (t : MfaTransaction) (code : String) (db : MfaDb) : Verdict :=
  let (encrypted, lastUsedStep) := totpSecret t db
  match encrypted with
  | none | some [] => .record "The authenticator code could not be verified."
  | some encrypted =>
    match service.decrypt encrypted with
    | none => .refuse .configuration
    | some secret =>
      match (service.matchingTotpStep now secret code).filter (lastUsedStep < ·) with
      | none => .record "The authenticator code is invalid or was already used."
      | some step => .totp encrypted step

/-- The checks of `complete_totp` on the request that it has locked. -/
def judgeTotp (now : Instant) (t : MfaTransaction) (code : String) (db : MfaDb) : Verdict :=
  match t.purpose with
  | .login | .enrollTotp => service.judgeCode now t code db
  | _ => .refuse .codeNotAccepted

def judge (now : Instant) (t : MfaTransaction) (db : MfaDb) : FactorResponse → Verdict
  | .passkey credential =>
    match credential.rawId.bind service.webauthn.base64urlToBytes with
    | none => .refuse .response
    | some rawId => service.judgePasskey t credential rawId db
  | .totp code => service.judgeTotp now t code db

/-- `complete_passkey` alone handles a `UniqueViolation`. -/
def handled (response : FactorResponse) (result : Except MfaError MfaCompletion × MfaDb) :
    Except MfaError MfaCompletion × MfaDb :=
  if response.isTotp then result else passkeyHandler result
end MfaService

/-- The statement that a completion runs next, with what it has read; at `write` it has decided
and has locked the rows of the factors that it has read. -/
inductive AnswerStage where
  | select
  | verify (t : MfaTransaction)
  | write (t : MfaTransaction) (verdict : Verdict) (factors : List Factor)
  | ended (result : Except MfaError MfaCompletion)

/-- A call of `complete_passkey` or `complete_totp`. -/
structure Answer where
  transactionId : Uuid
  response : FactorResponse
  draw : FactorDraw
  stage : AnswerStage

namespace Answer
variable (service : MfaService)

def become (c : Answer) (stage : AnswerStage) : Answer := { c with stage := stage }

def locks (c : Answer) : List MfaLock :=
  match c.stage with
  | .select | .ended _ => []
  | .verify _ => [.request c.transactionId]
  | .write t _ factors => .request c.transactionId :: factors.map (.factor t.userId)

/-- The writes of the database transaction and its end. What it writes no other call sees
before its commit, and a failure to write rolls all of it back. -/
def commit (c : Answer) (t : MfaTransaction) (verdict : Verdict) (db : MfaDb) :
    Except MfaError MfaCompletion × MfaDb :=
  MfaService.handled c.response (MfaService.commit db do
    let outcome ← verdict.write c.draw t db
    MfaService.settle c.draw t c.response.method outcome)

/-- The next statement; a row that another call has locked makes it wait. A `SELECT … FOR
UPDATE` that has waited looks again. -/
def advance (blocked : MfaLock → Bool) (c : Answer) (db : MfaDb) : AnswerStage × MfaDb :=
  match c.stage with
  | .select =>
    match service.malformed c.response with
    | some failure => (.ended (.error (.failure failure)), db)
    | none =>
      match db.transactionForUpdate c.transactionId c.draw.databaseNow with
      | .error e => (.ended (.error e), db)
      | .ok t => (if blocked (.request c.transactionId) then c.stage else .verify t, db)
  | .verify t =>
    let factors := service.factorsForUpdate t db c.response
    (if factors.any fun f => blocked (.factor t.userId f) then c.stage
      else .write t (service.judge c.draw.now t db c.response) factors, db)
  | .write t verdict _ =>
    if (verdict.rows t).any blocked then (c.stage, db)
    else
      let (result, db) := c.commit t verdict db
      (.ended result, db)
  | .ended _ => (c.stage, db)
end Answer

inductive AnsweringCall where
  | begin (c : Begin)
  | prepare (c : Preparation)
  | answer (c : Answer)
  | remove (userId : Uuid) (role : Role) (c : Removal)
  | crashed

namespace AnsweringCall

def locks : AnsweringCall → List MfaLock
  | .begin _ | .crashed => []
  | .prepare c => if c.held.isSome then [.request c.transactionId] else []
  | .answer c => c.locks
  | .remove userId _ c => c.locks.map (FactorLock.ofUser userId)

def advance (settings : MfaSettings) (service : MfaService) (databaseNow : Instant)
    (blocked : MfaLock → Bool) (db : MfaDb) : AnsweringCall → AnsweringCall × MfaDb
  | .begin c =>
    let (stage, db) := c.advance settings databaseNow blocked db
    (.begin (c.become stage), db)
  | .prepare c =>
    let (stage, db) := c.advance settings blocked db
    (.prepare (c.become stage), db)
  | .answer c =>
    let (stage, db) := c.advance service blocked db
    (.answer (c.become stage), db)
  | .remove userId role c =>
    let (stage, db) := c.advance userId role (fun l => blocked (l.ofUser userId)) db
    (.remove userId role (c.become stage), db)
  | .crashed => (.crashed, db)
end AnsweringCall

/-- The committed database, its clock and the calls begun so far. -/
structure Answering where
  db : MfaDb
  clock : Instant
  calls : List AnsweringCall

/-- An event of the ceremonies, or what other transactions have made of the banking tables. -/
inductive AnsweringEvent where
  | ceremony (e : CeremonyEvent)
  | bank (bank : Db)

namespace Answering

def start (db : MfaDb) (clock : Instant) : Answering := ⟨db, clock, []⟩

def call (s : Answering) (c : AnsweringCall) : Answering := { s with calls := s.calls ++ [c] }

def blocked (s : Answering) (i : Nat) : MfaLock → Bool :=
  Locks.heldByOther AnsweringCall.locks s.calls i

/-- The user, if a right password takes them as far as `begin_login`. -/
def loginUser (s : Answering) (userId : Uuid) : Option UserAccount :=
  (Ceremonies.start s.db s.clock).loginUser userId
end Answering

/-- A database transaction takes its time from the clock as it begins. -/
def answeringStep (settings : MfaSettings) (service : MfaService) (s : Answering) :
    AnsweringEvent → Answering
  | .bank bank => { s with db := { s.db with bank := bank } }
  | .ceremony (.tick elapsed) => { s with clock := s.clock + elapsed }
  | .ceremony (.login userId transactionId challenge now) =>
    match s.loginUser userId with
    | some user =>
      s.call (.begin ⟨userId, user.role, transactionId, challenge, now, .passkeyExists⟩)
    | none => s
  | .ceremony (.beginEnrollment userId role transactionId source now) =>
    if s.db.activeUser userId then
      s.call (.begin ⟨userId, role, transactionId, [], now,
        .delete (.enrollChoice (some source))⟩)
    else s
  | .ceremony (.prepare transactionId method label challenge pendingSecret) =>
    s.call (.prepare ⟨transactionId, method, label, challenge, pendingSecret, s.clock, .select⟩)
  | .ceremony (.complete transactionId response credentialRowId now) =>
    s.call (.answer ⟨transactionId, response, ⟨credentialRowId, now, s.clock⟩, .select⟩)
  | .ceremony (.remove userId role target) => s.call (.remove userId role ⟨target, s.clock, .select⟩)
  | .ceremony (.advance i) =>
    match s.calls[i]? with
    | some c =>
      let (c, db) := c.advance settings service s.clock (s.blocked i) s.db
      { s with db := db, calls := s.calls.set i c }
    | none => s
  | .ceremony (.crash i) => { s with calls := s.calls.set i .crashed }

section Alone
variable {service : MfaService} {draw : FactorDraw} {t : MfaTransaction} {db : MfaDb}

theorem countFailure_ok (hk : Keyed MfaTransaction.transactionId db.transactions)
    (ht : t ∈ db.transactions) (hattempts : t.attempts < maxAttempts) :
    db.countFailure t.transactionId = .ok (db.recordFailure t.transactionId) := by
  unfold MfaDb.countFailure
  rw [if_neg]
  intro hany
  obtain ⟨u, hu, hcheck⟩ := List.any_eq_true.mp hany
  simp only [Bool.and_eq_true, decide_eq_true_eq] at hcheck
  have he : u = t := hk.eq_of_key hu ht hcheck.1
  subst he
  exact absurd hattempts (Nat.not_lt.mpr hcheck.2)

theorem write_record (hcount : db.countFailure t.transactionId =
    .ok (db.recordFailure t.transactionId)) (message : String) :
    (Verdict.record message).write draw t db =
      .ok (some (verificationFailed message), db.recordFailure t.transactionId) := by
  simp only [Verdict.write, hcount]
  rfl

/-- The decision and its statements are the checks of `complete_passkey`. -/
theorem judgePasskey_write (hcount : db.countFailure t.transactionId =
    .ok (db.recordFailure t.transactionId)) (credential : PasskeyResponse) (rawId : Bytes) :
    (service.judgePasskey t credential rawId db).write draw t db =
      service.verifyPasskey draw t credential rawId db := by
  unfold MfaService.judgePasskey MfaService.verifyPasskey
  cases hp : t.purpose with
  | login =>
    simp only [MfaService.loginPasskey]
    generalize db.passkeys.find? (fun p => p.userId = t.userId && p.credentialId = rawId &&
      p.revokedAt.isNone) = stored
    cases stored with
    | none => exact write_record hcount _
    | some stored =>
      simp only
      generalize (t.challenge.bind fun challenge => service.webauthn.verifyAuthenticationResponse
        credential challenge stored.publicKey stored.signCount) = verified
      cases verified with
      | none => exact write_record hcount _
      | some verified => rfl
  | enrollPasskey =>
    simp only [MfaService.enrollPasskey]
    generalize (t.challenge.bind fun challenge => service.webauthn.verifyRegistrationResponse
      credential challenge) = verified
    cases verified with
    | none => exact write_record hcount _
    | some verified =>
      simp only
      split_ifs
      · exact write_record hcount _
      · rfl
  | enrollChoice | enrollTotp => rfl

theorem judgeCode_write (hcount : db.countFailure t.transactionId =
    .ok (db.recordFailure t.transactionId)) (code : String) :
    (service.judgeCode draw.now t code db).write draw t db = service.checkTotp draw t code db := by
  unfold MfaService.judgeCode MfaService.checkTotp
  generalize MfaService.totpSecret t db = stored
  obtain ⟨encrypted, lastUsedStep⟩ := stored
  match encrypted with
  | none | some [] => exact write_record hcount _
  | some (byte :: bytes) =>
    simp only
    cases service.decrypt (byte :: bytes) with
    | none => rfl
    | some secret =>
      simp only
      cases (service.matchingTotpStep draw.now secret code).filter (lastUsedStep < ·) with
      | none => exact write_record hcount _
      | some step => rfl

theorem judgeTotp_write (hcount : db.countFailure t.transactionId =
    .ok (db.recordFailure t.transactionId)) (code : String) :
    (service.judgeTotp draw.now t code db).write draw t db =
      service.verifyTotp draw t code db := by
  unfold MfaService.judgeTotp MfaService.verifyTotp
  cases t.purpose with
  | login | enrollTotp => exact judgeCode_write hcount code
  | enrollChoice | enrollPasskey => rfl

theorem complete_malformed {transactionId : Uuid} {response : FactorResponse} {failure : MfaFailure}
    (h : service.malformed response = some failure) :
    service.complete draw transactionId response db = (.error (.failure failure), db) := by
  cases response with
  | passkey credential =>
    simp only [MfaService.malformed, Option.isNone_iff_eq_none] at h
    split_ifs at h with hraw
    cases h
    simp only [MfaService.complete, MfaService.completePasskey, hraw]
  | totp code =>
    simp only [MfaService.malformed] at h
    split_ifs at h with hcode
    cases h
    simp only [MfaService.complete, MfaService.completeTotp, if_pos hcode]

theorem transactionForUpdate_error {transactionId : Uuid} {now : Instant} {e : MfaError}
    (h : db.transactionForUpdate transactionId now = .error e) :
    e = .failure invalidMfaTransaction := by
  unfold MfaDb.transactionForUpdate at h
  split at h
  · cases h
    rfl
  · split_ifs at h
    cases h
    rfl

theorem complete_lost {transactionId : Uuid} {response : FactorResponse} {e : MfaError}
    (hformed : service.malformed response = none)
    (h : db.transactionForUpdate transactionId draw.databaseNow = .error e) :
    service.complete draw transactionId response db = (.error e, db) := by
  obtain rfl := transactionForUpdate_error h
  cases response with
  | passkey credential =>
    simp only [MfaService.complete, MfaService.completePasskey]
    cases hraw : credential.rawId.bind service.webauthn.base64urlToBytes with
    | none => simp [MfaService.malformed, hraw] at hformed
    | some rawId =>
      simp only [h]
      rfl
  | totp code =>
    have hcode : MfaService.isTotpCode code ≠ false := by
      intro hcode
      simp [MfaService.malformed, hcode] at hformed
    simp only [MfaService.complete, MfaService.completeTotp]
    rw [if_neg hcode, h]
    rfl

/-- What a completion is of, if its response is well formed. -/
theorem complete_found {transactionId : Uuid} {response : FactorResponse}
    (hformed : service.malformed response = none)
    (hk : Keyed MfaTransaction.transactionId db.transactions)
    (hfound : db.transactionForUpdate transactionId draw.databaseNow = .ok t) :
    service.complete draw transactionId response db =
      Answer.commit ⟨transactionId, response, draw, .verify t⟩ t
        (service.judge draw.now t db response) db := by
  obtain ⟨hlookup, -, -, hattempts⟩ := transactionForUpdate_found hfound
  have hcount := countFailure_ok hk (lookup_mem hlookup) hattempts
  cases response with
  | passkey credential =>
    simp only [MfaService.complete, MfaService.completePasskey, MfaService.judge, Answer.commit]
    cases hraw : credential.rawId.bind service.webauthn.base64urlToBytes with
    | none => simp [MfaService.malformed, hraw] at hformed
    | some rawId =>
      simp only [hfound, judgePasskey_write hcount]
      rfl
  | totp code =>
    have hcode : MfaService.isTotpCode code ≠ false := by
      intro h
      simp [MfaService.malformed, h] at hformed
    simp only [MfaService.complete, MfaService.completeTotp, MfaService.judge, Answer.commit]
    rw [if_neg hcode, judgeTotp_write hcount, hfound]
    rfl

/-- A call that no other one delays ends as the completion in one step. -/
theorem answer_alone (service : MfaService) (draw : FactorDraw)
    (hk : Keyed MfaTransaction.transactionId db.transactions)
    (transactionId : Uuid) (response : FactorResponse) :
    ∃ stage₁ stage₂,
      Answer.advance service (fun _ => false) ⟨transactionId, response, draw, .select⟩ db =
        (stage₁, db) ∧
      Answer.advance service (fun _ => false) ⟨transactionId, response, draw, stage₁⟩ db =
        (stage₂, db) ∧
      Answer.advance service (fun _ => false) ⟨transactionId, response, draw, stage₂⟩ db =
        (.ended (service.complete draw transactionId response db).1,
          (service.complete draw transactionId response db).2) := by
  cases hm : service.malformed response with
  | some failure =>
    have hcomplete : service.complete draw transactionId response db =
        (.error (.failure failure), db) := complete_malformed hm
    refine ⟨.ended (.error (.failure failure)), .ended (.error (.failure failure)), ?_, rfl, ?_⟩
    · simp only [Answer.advance, hm]
    · rw [hcomplete]
      rfl
  | none =>
    cases ht : db.transactionForUpdate transactionId draw.databaseNow with
    | error e =>
      have hcomplete : service.complete draw transactionId response db = (.error e, db) :=
        complete_lost hm ht
      refine ⟨.ended (.error e), .ended (.error e), ?_, rfl, ?_⟩
      · simp only [Answer.advance, hm, ht]
      · rw [hcomplete]
        rfl
    | ok t =>
      refine ⟨.verify t, .write t (service.judge draw.now t db response)
        (service.factorsForUpdate t db response), ?_, ?_, ?_⟩
      · simp [Answer.advance, hm, ht]
      · simp [Answer.advance]
      · rw [complete_found hm hk ht]
        simp [Answer.advance, Answer.commit]
end Alone
end Bantam
