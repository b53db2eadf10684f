import Bantam.Bank
import Bantam.Mfa

/-! From a completed factor to a session: what `finish_mfa_session` does with a completion,
and which completions end in a token that is accepted. -/
namespace Bantam
open Tables

/-- The roles of `MfaPrincipal`. -/
def mfaRoles : List Role := [.bankAdmin, .aspisAdmin, .aspisAuditor]

/-- What the end of a login draws at random and reads from the clock. -/
structure SessionDraw where
  requestId : Uuid
  enrolledAuditId : Uuid
  loginAuditId : Uuid
  tokenId : Uuid
  csrfToken : String
  mfaAt : Instant
  issuedAt : Instant
  deriving DecidableEq

/-- The session cookie with the body of the response. -/
structure Session where
  token : String
  expiresAt : Instant
  role : Role
  csrfToken : String
  deriving DecidableEq

/-- A response to an MFA request, by the route that takes it. -/
inductive FactorResponse where
  | passkey (credential : PasskeyResponse)
  | totp (code : String)
  deriving DecidableEq

namespace FactorResponse

/-- The method that a completion records. -/
def method : FactorResponse → String
  | .passkey _ => "passkey"
  | .totp _ => "totp"

/-- The method that a token has for the factor. -/
def factor : FactorResponse → String
  | .passkey _ => "webauthn"
  | .totp _ => "otp"

def isTotp : FactorResponse → Bool
  | .passkey _ => false
  | .totp _ => true
end FactorResponse

def MfaService.complete (service : MfaService) (draw : FactorDraw) (transactionId : Uuid)
    (response : FactorResponse) (db : MfaDb) : Except MfaError MfaCompletion × MfaDb :=
  match response with
  | .passkey credential => service.completePasskey draw transactionId credential db
  | .totp code => service.completeTotp draw transactionId code db

namespace MfaCompletion

def principal (c : MfaCompletion) : Principal :=
  { userId := c.userId, role := c.role, customerId := c.customerId }

def assuranceMethod (c : MfaCompletion) : String :=
  if c.method = "totp" then "otp" else c.method
end MfaCompletion

def sessionAudit (draw : SessionDraw) (auditEventId : Uuid) (completion : MfaCompletion)
    (action : String) (metadata : JsonObject) : AuditEvent where
  auditEventId := auditEventId
  actorType := "USER"
  actorId := Uuid.str completion.userId
  action := action
  resourceType := "user_account"
  resourceId := Uuid.str completion.userId
  requestId := draw.requestId
  correlationId := draw.requestId
  metadata := metadata

/-- The audit records of a completed login, in the order of their writing. -/
def sessionAudits (draw : SessionDraw) (completion : MfaCompletion) : List AuditEvent :=
  (if completion.enrolled then [sessionAudit draw draw.enrolledAuditId completion
    "MFA_FACTOR_ENROLLED" [("method", .str completion.method)]] else []) ++
  [sessionAudit draw draw.loginAuditId completion "LOGIN_SUCCEEDED"
    [("amr", .list ["pwd", completion.assuranceMethod])]]

/-- Each record is a statement of its own and stays when a later one raises. -/
def recordAudits : List AuditEvent → MfaDb → Except MfaError Unit × MfaDb
  | [], db => (.ok (), db)
  | event :: events, db =>
    match db.bank.insertAudit event with
    | .error (.database e) => (.error (.database e), db)
    | .error _ => (.error (.database .raiseException), db)
    | .ok bank => recordAudits events { db with bank := bank }

/-- `issue_session` -/
def issueSession (auth : AuthService) (jwt : Jwt) (draw : SessionDraw) (principal : Principal)
    (authMethods : List String) (mfaAt : Option Instant) : Except MfaError Session :=
  match auth.issue jwt draw.issuedAt draw.tokenId principal authMethods mfaAt with
  | .error message => .error (.value message)
  | .ok (token, expiresAt) => .ok {
      token := token, expiresAt := expiresAt, role := principal.role, csrfToken := draw.csrfToken }

/-- `finish_mfa_session` -/
def finishMfaSession (auth : AuthService) (jwt : Jwt) (draw : SessionDraw)
    (completion : MfaCompletion) (db : MfaDb) : Except MfaError Session × MfaDb :=
  match recordAudits (sessionAudits draw completion) db with
  | (.error e, db) => (.error e, db)
  | (.ok (), db) => (issueSession auth jwt draw completion.principal
      ["pwd", completion.assuranceMethod] (some draw.mfaAt), db)

/-- The ids of the audit records of a completed login. -/
def SessionDraw.auditIds (draw : SessionDraw) (completion : MfaCompletion) : List Uuid :=
  (sessionAudits draw completion).map AuditEvent.auditEventId

/-- The ids that `uuid4` drew for the audit records are new. -/
def SessionDraw.Fresh (draw : SessionDraw) (completion : MfaCompletion) (db : MfaDb) : Prop :=
  (draw.auditIds completion).Nodup ∧
  ∀ id ∈ draw.auditIds completion, id ∉ db.bank.audit.map AuditEvent.auditEventId

section Completions
variable {service : MfaService} {draw : FactorDraw} {transactionId : Uuid} {db db' : MfaDb}
  {completion : MfaCompletion} {t : MfaTransaction} {method : String}

/-- The end of every completion: the request consumed and the user's row read back. -/
structure Completed (transactionId : Uuid) (method : String) (completion : MfaCompletion)
    (db' : MfaDb) : Prop where
  method : completion.method = method
  owned : completion.role = .customer ↔ completion.customerId.isSome
  consumed : ∀ t ∈ db'.transactions, t.transactionId = transactionId → t.consumedAt.isSome

@[simp] theorem setMfaEnabled_transactions (userId : Uuid) (enabled : Bool) (db : MfaDb) :
    (db.setMfaEnabled userId enabled).transactions = db.transactions := rfl

@[simp] theorem revokeSource_transactions (t : MfaTransaction) (db : MfaDb) :
    (db.revokeSource t).transactions = db.transactions := by
  unfold MfaDb.revokeSource
  split
  · split_ifs <;> rfl
  · rfl

theorem transactionForUpdate_ok {now : Instant}
    (h : db.transactionForUpdate transactionId now = .ok t) :
    t.transactionId = transactionId := by
  unfold MfaDb.transactionForUpdate at h
  split at h
  · cases h
  · rename_i u hf
    split_ifs at h
    cases h
    exact lookup_key hf

theorem consume_ok {now : Instant} (h : db.consume t method now = .ok (completion, db')) :
    Completed t.transactionId method completion db' := by
  unfold MfaDb.consume at h
  simp only at h
  split at h
  · cases h
  · rename_i user hf
    split_ifs at h
    cases h
    refine ⟨rfl, user.owned, ?_⟩
    simp only [revokeSource_transactions, setMfaEnabled_transactions]
    intro u hu hid
    obtain ⟨q, -, rfl⟩ := mem_updateWhere.mp hu
    split_ifs at hid ⊢ with hq
    · rfl
    · exact absurd hid (by simpa using hq)

theorem settle_ok {outcome : Option MfaFailure × MfaDb}
    (h : MfaService.settle draw t method outcome = .ok (.ok completion, db')) :
    Completed t.transactionId method completion db' := by
  obtain ⟨failure, mid⟩ := outcome
  cases failure with
  | some failure => cases h
  | none =>
    simp only [MfaService.settle, bind_eq_ok] at h
    obtain ⟨⟨c, d⟩, hc, h⟩ := h
    cases h
    exact consume_ok hc

/-- What a completion got that committed. -/
theorem commit_ok {result : Except MfaError (Except MfaFailure MfaCompletion × MfaDb)}
    (h : MfaService.commit db result = (.ok completion, db')) :
    result = .ok (.ok completion, db') := by
  unfold MfaService.commit at h
  split at h
  · cases h
    rfl
  · cases h
  · cases h

theorem passkeyHandler_ok {result : Except MfaError MfaCompletion × MfaDb}
    (h : MfaService.passkeyHandler result = (.ok completion, db')) :
    result = (.ok completion, db') := by
  unfold MfaService.passkeyHandler at h
  split at h
  · cases h
  · exact h

/-- A completion that succeeds has found its request and settled it. -/
theorem complete_settle {response : FactorResponse}
    (h : service.complete draw transactionId response db = (.ok completion, db')) :
    ∃ t outcome, db.transactionForUpdate transactionId draw.databaseNow = .ok t ∧
      MfaService.settle draw t response.method outcome = .ok (.ok completion, db') := by
  cases response with
  | passkey credential =>
    simp only [MfaService.complete, MfaService.completePasskey] at h
    split at h
    · cases h
    · have hc := commit_ok (passkeyHandler_ok h)
      simp only [bind_eq_ok] at hc
      obtain ⟨t, ht, outcome, -, hs⟩ := hc
      exact ⟨t, outcome, ht, hs⟩
  | totp code =>
    simp only [MfaService.complete, MfaService.completeTotp] at h
    split at h
    · cases h
    · have hc := commit_ok h
      simp only [bind_eq_ok] at hc
      obtain ⟨t, ht, outcome, -, hs⟩ := hc
      exact ⟨t, outcome, ht, hs⟩

/-- A factor that verifies consumes its request, under the method of its route. -/
theorem complete_ok {response : FactorResponse}
    (h : service.complete draw transactionId response db = (.ok completion, db')) :
    Completed transactionId response.method completion db' := by
  obtain ⟨t, outcome, ht, hs⟩ := complete_settle h
  exact transactionForUpdate_ok ht ▸ settle_ok hs
end Completions

section Sessions
variable {auth : AuthService} {jwt : Jwt} {draw : SessionDraw} {completion : MfaCompletion}
  {db : MfaDb}

/-- An audit record is refused for its id alone. -/
theorem recordAudits_cons (event : AuditEvent) (events : List AuditEvent) (db : MfaDb) :
    recordAudits (event :: events) db =
      if event.auditEventId ∈ db.bank.audit.map AuditEvent.auditEventId then
        (.error (.database .uniqueViolation), db)
      else recordAudits events
        { db with bank := { db.bank with audit := db.bank.audit ++ [event] } } := by
  by_cases h : event.auditEventId ∈ db.bank.audit.map AuditEvent.auditEventId
  · have hi : db.bank.insertAudit event = .error (.database .uniqueViolation) := by
      rw [Db.insertAudit, Db.require, if_neg (not_not.mpr h)]
      rfl
    simp only [recordAudits, hi, if_pos h]
  · have hi := Db.insertAudit_ok.mpr ⟨h, rfl⟩
    simp only [recordAudits, hi, if_neg h]

/-- The records are written exactly when their ids are new and differ from each other. -/
theorem recordAudits_ok_iff (events : List AuditEvent) (db : MfaDb) :
    (recordAudits events db).1 = .ok () ↔ (events.map AuditEvent.auditEventId).Nodup ∧
      ∀ id ∈ events.map AuditEvent.auditEventId,
        id ∉ db.bank.audit.map AuditEvent.auditEventId := by
  induction events generalizing db with
  | nil => simp [recordAudits]
  | cons event events ih =>
    rw [recordAudits_cons]
    split_ifs with h
    · constructor
      · intro hr
        cases hr
      · intro hr
        exact absurd h (hr.2 _ (by simp))
    · rw [ih]
      simp only [List.map_append, List.map_cons, List.map_nil, List.mem_append,
        not_or, List.nodup_cons, List.mem_cons, forall_eq_or_imp]
      constructor
      · intro hr
        refine ⟨⟨fun hm => (hr.2 _ hm).2.1 rfl, hr.1⟩, h, fun id hid => (hr.2 id hid).1⟩
      · intro hr
        refine ⟨hr.1.2, fun id hid => ⟨hr.2.2 id hid, ?_, List.not_mem_nil⟩⟩
        rintro rfl
        exact hr.1.1 hid

theorem recorded_iff_fresh :
    (recordAudits (sessionAudits draw completion) db).1 = .ok () ↔
      draw.Fresh completion db :=
  recordAudits_ok_iff (sessionAudits draw completion) db

theorem issueSession_totp (auth : AuthService) (jwt : Jwt) (draw : SessionDraw)
    (h : completion.method = "totp") (hrole : completion.role ∈ mfaRoles) :
    ∃ token, auth.issue jwt draw.issuedAt draw.tokenId completion.principal
        ["pwd", completion.assuranceMethod] (some draw.mfaAt) =
          .ok (token, draw.issuedAt + auth.ttl) ∧
      issueSession auth jwt draw completion.principal ["pwd", completion.assuranceMethod]
        (some draw.mfaAt) =
          .ok ⟨token, draw.issuedAt + auth.ttl, completion.role, draw.csrfToken⟩ := by
  have hallowed : completion.principal.role ∈ allowedRoles := by
    have hsub : mfaRoles ⊆ allowedRoles := by decide
    exact hsub hrole
  have hvalid : validMethods ["pwd", "otp"] = true := by decide
  have hfactor : hasFactor ["pwd", "otp"] = true := by decide
  have hissue : auth.issue jwt draw.issuedAt draw.tokenId completion.principal
      ["pwd", completion.assuranceMethod] (some draw.mfaAt) =
        .ok (jwt.encode (auth.claims draw.issuedAt draw.tokenId completion.principal
          ["pwd", completion.assuranceMethod] (some draw.mfaAt)) auth.secret,
          draw.issuedAt + auth.ttl) := by
    simp [AuthService.issue, hallowed, MfaCompletion.assuranceMethod, h, hvalid, hfactor]
  exact ⟨_, hissue, by rw [issueSession, hissue]; rfl⟩

/-- The name that a passkey's completion gives to its method is none that a token may have. -/
theorem issueSession_passkey (h : completion.method = "passkey")
    (hrole : completion.role ∈ mfaRoles) :
    issueSession auth jwt draw completion.principal ["pwd", completion.assuranceMethod]
      (some draw.mfaAt) = .error (.value "invalid authentication methods") := by
  have hallowed : completion.principal.role ∈ allowedRoles := by
    have hsub : mfaRoles ⊆ allowedRoles := by decide
    exact hsub hrole
  have hvalid : validMethods ["pwd", "passkey"] = false := by decide
  simp [issueSession, AuthService.issue, hallowed, MfaCompletion.assuranceMethod, h, hvalid]
end Sessions

/-- A completed factor always consumes its request, and it yields a session whose token is
accepted until its expiry or revocation exactly when the factor was an authenticator code. -/
theorem mfa_session_iff (service : MfaService) (auth : AuthService) (jwt : Jwt)
    (draw : FactorDraw) (session : SessionDraw) (transactionId : Uuid)
    (response : FactorResponse) (db db' current : MfaDb) (completion : MfaCompletion)
    (hcomplete : service.complete draw transactionId response db = (.ok completion, db'))
    (hrole : completion.role ∈ mfaRoles)
    (hjwt : jwt.Carries auth.secret (auth.claims session.issuedAt session.tokenId
      completion.principal ["pwd", completion.assuranceMethod] (some session.mfaAt))) :
    (∀ t ∈ db'.transactions, t.transactionId = transactionId → t.consumedAt.isSome) ∧
    ((∃ s, (finishMfaSession auth jwt session completion current).1 = .ok s ∧
      ∀ revocations later databaseNow, session.issuedAt ≤ later →
        later < wholeSeconds s.expiresAt →
        AuthService.revoked revocations databaseNow session.tokenId = false →
        ∃ parsed, auth.parseWithClaims jwt revocations later databaseNow s.token = .ok parsed ∧
          parsed.principal = completion.principal ∧ response.factor ∈ parsed.authMethods ∧
          parsed.mfaAt.isSome) ↔
      response.isTotp = true ∧ session.Fresh completion current) := by
  have hdone := complete_ok hcomplete
  refine ⟨hdone.consumed, ?_⟩
  constructor
  · rintro ⟨s, hs, -⟩
    unfold finishMfaSession at hs
    cases hr : recordAudits (sessionAudits session completion) current with
    | mk result final =>
      cases result with
      | error e =>
        rw [hr] at hs
        cases hs
      | ok u =>
        have hfresh := recorded_iff_fresh.mp (congrArg Prod.fst hr)
        refine ⟨?_, hfresh⟩
        cases response with
        | totp code => rfl
        | passkey credential =>
          rw [hr] at hs
          simp only [issueSession_passkey hdone.method hrole] at hs
          cases hs
  · rintro ⟨htotp, hfresh⟩
    cases response with
    | passkey credential => cases htotp
    | totp code =>
      have hmethod : completion.method = "totp" := hdone.method
      obtain ⟨token, hissue, hsession⟩ :=
        issueSession_totp auth jwt session hmethod hrole
      have hrecorded := recorded_iff_fresh.mpr hfresh
      have hfinish : (finishMfaSession auth jwt session completion current).1 =
          .ok ⟨token, session.issuedAt + auth.ttl, completion.role, session.csrfToken⟩ := by
        unfold finishMfaSession
        cases hr : recordAudits (sessionAudits session completion) current with
        | mk result final =>
          rw [hr] at hrecorded
          simp only at hrecorded
          subst hrecorded
          exact hsession
      refine ⟨_, hfinish, ?_⟩
      intro revocations later databaseNow hstart hexpiry hrevoked
      have hassurance : completion.assuranceMethod = "otp" := by
        rw [MfaCompletion.assuranceMethod, if_pos hmethod]
      have hmfa : (some session.mfaAt).isSome = hasFactor ["pwd", completion.assuranceMethod] := by
        rw [hassurance]
        rfl
      have hcurrent : (auth.claims session.issuedAt session.tokenId completion.principal
          ["pwd", completion.assuranceMethod] (some session.mfaAt)).Current later := by
        have hfloor : fromTimestamp (epochSeconds session.issuedAt) ≤ later :=
          Int.le_trans (wholeSeconds_le session.issuedAt) hstart
        exact ⟨hfloor, hfloor, hexpiry⟩
      have hparsed := AuthService.parse_issued hissue hjwt hmfa hdone.owned hcurrent hrevoked
      refine ⟨_, hparsed, rfl, ?_, rfl⟩
      simp [hassurance, FactorResponse.factor]

/-! Two logins of the seeded administrator at 1700000000 seconds after the epoch. -/

def sampleNow : Instant := seconds 1700000000

/-- A pending login request; `challenge` is there when a passkey is offered. -/
def sampleRequest (challenge : Option Bytes) : MfaTransaction :=
  ⟨1, adminUserId, .login, challenge, none, none, none, none, 0, sampleNow + minutes 5, none,
    sampleNow, by decide, rfl⟩

/-- The bytes of a Fernet token of the secret below. -/
def sampleFernetToken : Bytes :=
  [103, 65, 65, 65, 65, 65, 66, 108, 85, 56, 110, 119, 65, 65, 69, 67, 65, 119, 81, 70, 66, 103,
    99, 73, 67, 81, 111, 76, 68, 65, 48, 79, 68, 54, 117, 77, 122, 116, 82, 69, 83, 48, 68, 121,
    103, 76, 120, 104, 116, 113, 108, 45, 122, 113, 45, 89, 101, 103, 97, 85, 54, 52, 120, 57,
    68, 70, 67, 115, 82, 50, 111, 82, 112, 115, 89, 65, 105, 83, 119, 55, 66, 55, 48, 95, 104,
    115, 85, 57, 75, 72, 48, 108, 86, 52, 117, 89, 82, 57, 66, 57, 79, 82, 114, 56, 118, 50, 51,
    120, 99, 112, 48, 67, 99, 77, 53, 71, 100, 102, 69, 61]

theorem authenticatorApp_labelled :
    1 ≤ "Authenticator app".length ∧ "Authenticator app".length ≤ 80 := by decide

def sampleMfaDb : MfaDb where
  bank := { Db.migrated with users := seedUsers }
  transactions := [sampleRequest (some [7])]
  passkeys := [⟨2, adminUserId, [9], [8], 0, ["usb"], "single_device", false, "Passkey", 0, none,
    none, by decide⟩]
  totps := [⟨adminUserId, sampleFernetToken, "Authenticator app", -1, 0, none, none,
    authenticatorApp_labelled⟩]
  revocations := []

/-- The code 324550 is that of the secret in its time-step; the passkey's answer verifies. -/
def sampleMfaService : MfaService where
  webauthn := {
    base64urlToBytes := fun text => if text = "CQ" then some [9] else none
    verifyAuthenticationResponse := fun _ challenge publicKey _ =>
      if challenge = [7] ∧ publicKey = [8] then some ⟨1, false⟩ else none
    verifyRegistrationResponse := fun _ _ => none }
  pyotp := {
    interval := 30
    codeAt := fun secret time =>
      if secret = "JBSWY3DPEHPK3PXP" ∧ time / 30 = 56666666 then "324550" else ""
    timecode := fun time => time / 30 }
  decrypt := fun token => if token = sampleFernetToken then some "JBSWY3DPEHPK3PXP" else none

def sampleAuth : AuthService := ⟨"local-development-signing-secret-01", minutes 15⟩

def sampleSession : SessionDraw := ⟨3, 4, 5, 7, "csrf", sampleNow, sampleNow⟩

def sampleCompletion (method : String) : MfaCompletion :=
  ⟨adminUserId, none, .bankAdmin, method, false⟩

/-- The claims of the administrator's session after a code. -/
def sampleClaims : Claims :=
  sampleAuth.claims sampleNow 7 (sampleCompletion "totp").principal ["pwd", "otp"] (some sampleNow)

/-- `sampleClaims` signed with the key of `sampleAuth`. -/
def sampleToken : String :=
  "eyJhbGciOiJIUzI1NiIsInR5cCI6IkpXVCJ9." ++
  "eyJzdWIiOiIxMDAwMDAwMC0wMDAwLTAwMDAtMDAwM" ++
  "C0wMDAwMDAwMDAwMDEiLCJpc3MiOiJiYW50YW0tYX" ++
  "V0aCIsImF1ZCI6WyJiYW50YW0tYXBpIl0sImlhdCI" ++
  "6MTcwMDAwMDAwMCwibmJmIjoxNzAwMDAwMDAwLCJl" ++
  "eHAiOjE3MDAwMDA5MDAsImp0aSI6IjAwMDAwMDAwL" ++
  "TAwMDAtMDAwMC0wMDAwLTAwMDAwMDAwMDAwNyIsIn" ++
  "JvbGUiOiJCQU5LX0FETUlOIiwiYW1yIjpbInB3ZCI" ++
  "sIm90cCJdLCJtZmFfYXQiOjE3MDAwMDAwMDB9." ++
  "VIFG-7QWZhhpgD10jE1cOz1LCU9gJD3lRHtuCXOyWb8"

/-- The library on the one token. -/
def sampleJwt : Jwt where
  encode := fun c key => if c = sampleClaims ∧ key = sampleAuth.secret then sampleToken else ""
  header := fun text => if text = sampleToken then some ("HS256", "JWT") else none
  decode := fun now text key =>
    if text = sampleToken ∧ key = sampleAuth.secret ∧
        fromTimestamp sampleClaims.nbf ≤ now ∧ now < fromTimestamp sampleClaims.exp then
      some sampleClaims
    else none

theorem sampleToken_length : sampleToken.length ≤ 4096 := by
  unfold sampleToken
  repeat rewrite [String.length_append]
  decide +kernel

theorem sampleJwt_carries : sampleJwt.Carries sampleAuth.secret sampleClaims := by
  have henc : sampleJwt.encode sampleClaims sampleAuth.secret = sampleToken := by
    simp only [sampleJwt, and_self, if_true]
  refine ⟨?_, ?_, ?_⟩
  · rw [henc]
    simp only [sampleJwt, if_true]
  · rw [henc]
    exact sampleToken_length
  · intro now hcurrent
    rw [henc]
    simp only [sampleJwt, hcurrent.2.1, hcurrent.2.2, and_self, if_true]

/-- The state after the administrator's code. -/
def sampleVerified : MfaDb :=
  (sampleMfaService.complete ⟨0, sampleNow, sampleNow⟩ 1 (.totp "324550") sampleMfaDb).2

theorem sample_totp_completes :
    sampleMfaService.complete ⟨0, sampleNow, sampleNow⟩ 1 (.totp "324550") sampleMfaDb =
      (.ok (sampleCompletion "totp"), sampleVerified) := by
  refine Prod.ext ?_ rfl
  decide +kernel

theorem mfa_session_iff_totp :
    (∀ t ∈ sampleVerified.transactions, t.transactionId = 1 → t.consumedAt.isSome) ∧
    ((∃ s, (finishMfaSession sampleAuth sampleJwt sampleSession (sampleCompletion "totp")
        sampleVerified).1 = .ok s ∧
      ∀ revocations later databaseNow, sampleSession.issuedAt ≤ later →
        later < wholeSeconds s.expiresAt →
        AuthService.revoked revocations databaseNow sampleSession.tokenId = false →
        ∃ parsed, sampleAuth.parseWithClaims sampleJwt revocations later databaseNow s.token =
            .ok parsed ∧
          parsed.principal = (sampleCompletion "totp").principal ∧
          (FactorResponse.totp "324550").factor ∈ parsed.authMethods ∧ parsed.mfaAt.isSome) ↔
      (FactorResponse.totp "324550").isTotp = true ∧
        sampleSession.Fresh (sampleCompletion "totp") sampleVerified) :=
  mfa_session_iff sampleMfaService sampleAuth sampleJwt ⟨0, sampleNow, sampleNow⟩ sampleSession 1
    (.totp "324550") sampleMfaDb sampleVerified sampleVerified (sampleCompletion "totp")
    sample_totp_completes (by decide) sampleJwt_carries

/-- The passkey verifies, its request is consumed, the login is on record, and then the
session is refused. -/
theorem mfa_passkey_without_session :
    let result := sampleMfaService.complete ⟨0, sampleNow, sampleNow⟩ 1
      (.passkey ⟨some "CQ", ["usb"], ""⟩) sampleMfaDb
    let finished := finishMfaSession sampleAuth sampleJwt sampleSession
      (sampleCompletion "passkey") result.2
    result.1 = .ok (sampleCompletion "passkey") ∧
    result.2.transactions.map MfaTransaction.consumedAt = [some sampleNow] ∧
    finished.2.bank.audit.map AuditEvent.action = ["LOGIN_SUCCEEDED"] ∧
    finished.1 = .error (.value "invalid authentication methods") := by
  decide

/-! Round trips of session tokens. -/

namespace AuthService

/-- A token that `issue` returns is accepted before its expiry and its revocation, and read back as
it was issued, exactly when its principal has a customer where its role is a customer's and a second
factor comes with its time. -/
theorem issued_round_trip_iff (auth : AuthService) (jwt : Jwt) (now later databaseNow : Instant)
    (tokenId : Uuid) (principal : Principal) (methods : List String) (mfaAt : Option Instant)
    (revocations : List SessionRevocation) (token : String) (expiresAt : Instant)
    (hissue : auth.issue jwt now tokenId principal methods mfaAt = .ok (token, expiresAt))
    (hjwt : jwt.Carries auth.secret (auth.claims now tokenId principal methods mfaAt))
    (hcurrent : (auth.claims now tokenId principal methods mfaAt).Current later)
    (hrevoked : revoked revocations databaseNow tokenId = false) :
    (auth.parseWithClaims jwt revocations later databaseNow token = .ok {
      principal := principal
      jti := tokenId
      expiresAt := wholeSeconds (now + auth.ttl)
      authMethods := methods
      mfaAt := mfaAt.map cutToSeconds } ↔ Consistent principal methods mfaAt) ∧
    ((∃ parsed, auth.parseWithClaims jwt revocations later databaseNow token = .ok parsed) ↔
      Consistent principal methods mfaAt) := by
  have hissued := hissue
  unfold issue at hissued
  split_ifs at hissued with hrole hmethods hfactor
  obtain ⟨rfl, -⟩ := Prod.mk.inj (Except.ok.inj hissued)
  by_cases h : Consistent principal methods mfaAt
  · have hmfa : mfaAt.isSome = hasFactor methods := by
      cases hhas : hasFactor methods with
      | true => exact h.2 hhas
      | false =>
        cases hsome : mfaAt.isSome with
        | true => exact absurd ⟨hsome, hhas⟩ hfactor
        | false => rfl
    have hparsed := parse_issued hissue hjwt hmfa h.1 hcurrent hrevoked
    exact ⟨iff_of_true hparsed h, iff_of_true ⟨_, hparsed⟩ h⟩
  · have hread := readClaims_inconsistent auth now tokenId hrole h
    have hparse : auth.parseWithClaims jwt revocations later databaseNow
        (jwt.encode (auth.claims now tokenId principal methods mfaAt) auth.secret) =
        .error "invalid access token" := by
      simp only [parseWithClaims, if_neg (Nat.not_lt.mpr hjwt.short), hjwt.header, ne_eq,
        not_true_eq_false, if_false, hjwt.decode later hcurrent, Option.bind_some, hread]
    rw [hparse]
    refine ⟨iff_of_false (fun hsame => by cases hsame) h, iff_of_false ?_ h⟩
    intro haccepted
    obtain ⟨parsed, haccepted⟩ := haccepted
    cases haccepted

/-- The administrator's token after a code. -/
theorem issued_round_trip_iff_totp :
    (∃ parsed, sampleAuth.parseWithClaims sampleJwt [] sampleNow sampleNow sampleToken =
      .ok parsed) ↔
      Consistent (sampleCompletion "totp").principal ["pwd", "otp"] (some sampleNow) :=
  (issued_round_trip_iff sampleAuth sampleJwt sampleNow sampleNow sampleNow 7
    (sampleCompletion "totp").principal ["pwd", "otp"] (some sampleNow) [] sampleToken
    (sampleNow + sampleAuth.ttl) (by decide +kernel) sampleJwt_carries
    ⟨by decide +kernel, by decide +kernel, by decide +kernel⟩ rfl).2

/-- A customer's principal without a customer. -/
def ownerlessPrincipal : Principal := ⟨1, .customer, none⟩

def ownerlessClaims : Claims := sampleAuth.claims sampleNow 8 ownerlessPrincipal ["pwd"] none

/-- `ownerlessClaims` signed with the key of `sampleAuth`. -/
def ownerlessToken : String :=
  "eyJhbGciOiJIUzI1NiIsInR5cCI6IkpXVCJ9." ++
  "eyJzdWIiOiIwMDAwMDAwMC0wMDAwLTAwMDAtMDAwMC" ++
  "0wMDAwMDAwMDAwMDEiLCJpc3MiOiJiYW50YW0tYXV0" ++
  "aCIsImF1ZCI6WyJiYW50YW0tYXBpIl0sImlhdCI6MT" ++
  "cwMDAwMDAwMCwibmJmIjoxNzAwMDAwMDAwLCJleHAi" ++
  "OjE3MDAwMDA5MDAsImp0aSI6IjAwMDAwMDAwLTAwMD" ++
  "AtMDAwMC0wMDAwLTAwMDAwMDAwMDAwOCIsInJvbGUi" ++
  "OiJDVVNUT01FUiIsImFtciI6WyJwd2QiXX0." ++
  "12xbT7IGDNhqfA5CxcYPHEk4Tzf7Gc4ocRWEb9LoufU"

/-- The library on that token. -/
def ownerlessJwt : Jwt where
  encode := fun c key => if c = ownerlessClaims ∧ key = sampleAuth.secret then ownerlessToken else ""
  header := fun text => if text = ownerlessToken then some ("HS256", "JWT") else none
  decode := fun now text key =>
    if text = ownerlessToken ∧ key = sampleAuth.secret ∧
        fromTimestamp ownerlessClaims.nbf ≤ now ∧ now < fromTimestamp ownerlessClaims.exp then
      some ownerlessClaims
    else none

theorem ownerlessToken_length : ownerlessToken.length ≤ 4096 := by
  unfold ownerlessToken
  repeat rewrite [String.length_append]
  decide +kernel

theorem ownerlessClaims_current : ownerlessClaims.Current sampleNow :=
  ⟨by decide +kernel, by decide +kernel, by decide +kernel⟩

theorem ownerlessJwt_encode :
    ownerlessJwt.encode ownerlessClaims sampleAuth.secret = ownerlessToken := by
  simp only [ownerlessJwt, and_self, if_true]

theorem ownerlessJwt_carries : ownerlessJwt.Carries sampleAuth.secret ownerlessClaims := by
  refine ⟨?_, ?_, ?_⟩
  · rw [ownerlessJwt_encode]
    simp only [ownerlessJwt, if_true]
  · rw [ownerlessJwt_encode]
    exact ownerlessToken_length
  · intro now hcurrent
    rw [ownerlessJwt_encode]
    simp only [ownerlessJwt, hcurrent.2.1, hcurrent.2.2, and_self, if_true]

/-- `issue` signs what is never read back. -/
theorem ownerless_token_rejected :
    sampleAuth.issue ownerlessJwt sampleNow 8 ownerlessPrincipal ["pwd"] none =
      .ok (ownerlessToken, sampleNow + minutes 15) ∧
    ownerlessJwt.Carries sampleAuth.secret ownerlessClaims ∧ ownerlessClaims.Current sampleNow ∧
    sampleAuth.parseWithClaims ownerlessJwt [] sampleNow sampleNow ownerlessToken =
      .error "invalid access token" := by
  have hdecode := ownerlessJwt_carries.decode sampleNow ownerlessClaims_current
  have hheader := ownerlessJwt_carries.header
  rw [ownerlessJwt_encode] at hdecode hheader
  have hread : readClaims ownerlessClaims = none := by decide +kernel
  refine ⟨?_, ownerlessJwt_carries, ownerlessClaims_current, ?_⟩
  · show sampleAuth.issue ownerlessJwt sampleNow 8 ownerlessPrincipal ["pwd"] none = _
    rw [← ownerlessJwt_encode]
    rfl
  · simp only [parseWithClaims, if_neg (Nat.not_lt.mpr ownerlessToken_length), hheader, ne_eq,
      not_true_eq_false, if_false, hdecode, Option.bind_some, hread]

end AuthService

end Bantam
