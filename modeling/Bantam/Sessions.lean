import Bantam.Access
import Bantam.Ceremonies

/-! Sessions: the tokens that logins end in, the requests that show them and what the requests
go on to, over the ceremonies of all users. One clock is read by the service and the database. -/
namespace Bantam
open Tables

/-! Reading a token. -/

namespace AuthService
variable (auth : AuthService) (jwt : Jwt)

/-- `parse_with_claims` up to the look at the revocations. -/
def readToken (now : Instant) (rawToken : String) : Option ParsedAccessToken :=
  if 4096 < rawToken.length then none
  else if jwt.header rawToken ≠ some ("HS256", "JWT") then none
  else (jwt.decode now rawToken auth.secret).bind readClaims

/-- The look at the revocations is a statement of its own, after the token has been read. -/
theorem parseWithClaims_eq (revocations : List SessionRevocation) (now databaseNow : Instant)
    (rawToken : String) :
    auth.parseWithClaims jwt revocations now databaseNow rawToken =
      match auth.readToken jwt now rawToken with
      | none => .error "invalid access token"
      | some parsed =>
        if revoked revocations databaseNow parsed.jti then .error "invalid access token"
        else .ok parsed := by
  unfold parseWithClaims readToken
  split_ifs <;> rfl
end AuthService

/-! Tokens and requests. -/

/-- A token that `AuthService.issue` has made. -/
structure Issued where
  text : String
  tokenId : Uuid
  claims : Claims
  deriving DecidableEq

/-- What a request that shows a token does next: it reads the token, looks it up among the
revocations and reads the user's row. A logout that is let in then takes the expired revocations
away and adds its own; each statement is a transaction of its own. -/
inductive RequestStage where
  | decode
  | lookup (parsed : ParsedAccessToken)
  | user (parsed : ParsedAccessToken)
  | admitted (parsed : ParsedAccessToken)
  | prune (parsed : ParsedAccessToken)
  | revoke (parsed : ParsedAccessToken)
  | ended
  deriving DecidableEq

structure AuthRequest where
  token : String
  stage : RequestStage
  deriving DecidableEq

namespace MfaDb

/-- `DELETE FROM session_revocations WHERE expires_at <= now()` -/
def pruneRevocations (databaseNow : Instant) (db : MfaDb) : MfaDb :=
  { db with revocations := db.revocations.filter fun r => databaseNow < r.expiresAt }

/-- `INSERT INTO session_revocations … ON CONFLICT (jti) DO NOTHING` -/
def insertRevocation (row : SessionRevocation) (db : MfaDb) : MfaDb :=
  if db.revocations.any fun r => r.jti = row.jti then db
  else { db with revocations := db.revocations ++ [row] }

theorem revokeSource_eq (t : MfaTransaction) (db : MfaDb) :
    db.revokeSource t = match t.sourceJti, t.sourceExpiresAt with
      | some jti, some expiresAt => db.insertRevocation ⟨jti, t.userId, expiresAt⟩
      | _, _ => db := by
  unfold revokeSource insertRevocation
  rfl

/-- A change of the banking tables alone. -/
def withBank (bank : Db) (db : MfaDb) : MfaDb := { db with bank := bank }
end MfaDb

namespace UserAccount

theorem owned_of_pending (user : UserAccount) (h : user.role = .pendingApproval) :
    Role.aspisAuditor = .customer ↔ user.customerId.isSome := by
  have howned := user.owned
  rw [h] at howned
  constructor
  · intro hrole
    cases hrole
  · intro hsome
    cases howned.mpr hsome

/-- `decide_aspis_auditor_request`, on the row of a user that is still pending. -/
def decided (approve : Bool) (user : UserAccount) : UserAccount :=
  if h : user.role = .pendingApproval then
    if approve then
      { user with
        role := .aspisAuditor
        status := .active
        owned := user.owned_of_pending h }
    else { user with status := .disabled }
  else user
end UserAccount

/-! The system. -/

/-- The ceremonies with the tokens issued so far, the requests begun so far and the calls whose
response has been sent. -/
structure Sessions where
  ceremonies : Ceremonies
  issued : List Issued
  requests : List AuthRequest
  answered : List Nat
  deriving DecidableEq

inductive SessionEvent where
  | ceremony (e : CeremonyEvent)
  | register (user : UserAccount)
  | decide (userId : Uuid) (approve : Bool)
  | issue (i : Nat) (tokenId : Uuid)
  | finish (i : Nat) (draw : SessionDraw)
  | request (token : String)
  | proceed (k : Nat)
  | logout (k : Nat)
  | enroll (k : Nat) (transactionId : Uuid) (now : Instant)
  | remove (k : Nat) (target : Factor)
  deriving DecidableEq

/-- What a session is configured with. -/
structure SessionSettings where
  mfa : MfaSettings
  stepUpTtl : Int

/-- The ceremonies that a user can begin, or a call go on with, without a token. -/
def CeremonyEvent.withoutToken : CeremonyEvent → Bool
  | .beginEnrollment .. | .remove .. => false
  | _ => true

/-- `require_recent_mfa` lets the token pass. -/
def ParsedAccessToken.recentMfa (settings : SessionSettings) (now : Instant)
    (parsed : ParsedAccessToken) : Bool :=
  parsed.mfaAt.any fun mfaAt => now - mfaAt ≤ settings.stepUpTtl

namespace Sessions

def start (db : MfaDb) (clock : Instant) : Sessions := ⟨.start db clock, [], [], []⟩

def db (s : Sessions) : MfaDb := s.ceremonies.db

def clock (s : Sessions) : Instant := s.ceremonies.clock

def withDb (db : MfaDb) (s : Sessions) : Sessions :=
  { s with ceremonies := { s.ceremonies with db := db } }

def move (s : Sessions) (k : Nat) (r : AuthRequest) (stage : RequestStage) : Sessions :=
  { s with requests := s.requests.set k { r with stage := stage } }

/-- The user of a login that needs no factor, as `login` has read their row; no statement
changes the customer of a user. -/
def loginPrincipal (s : Sessions) (i : Nat) : Option Principal :=
  match s.ceremonies.calls[i]? with
  | some (.begin c) =>
    if c.stage = .ended (.ok none) then
      (s.db.bank.findUser c.userId).map fun user =>
        { userId := c.userId, role := c.role, customerId := user.customerId }
    else none
  | _ => none

/-- The completion that a call has ended with. -/
def completion (s : Sessions) (i : Nat) : Option MfaCompletion :=
  match s.ceremonies.calls[i]? with
  | some (.complete c) =>
    match c.result with
    | some (.ok completion) => some completion
    | _ => none
  | _ => none

/-- What the end of a login draws at random, with its times from the clock. -/
def timed (s : Sessions) (draw : SessionDraw) : SessionDraw :=
  { draw with mfaAt := s.clock, issuedAt := s.clock }

/-- The call has not been answered, and `uuid4` draws an id that no token has. -/
def unanswered (s : Sessions) (i : Nat) (tokenId : Uuid) : Bool :=
  i ∉ s.answered && tokenId ∉ s.issued.map Issued.tokenId

/-- A request whose token has been let in. -/
def admitted (s : Sessions) (k : Nat) : Option ParsedAccessToken :=
  match s.requests[k]? with
  | some ⟨_, .admitted parsed⟩ => some parsed
  | _ => none

end Sessions

/-- The request that the event takes a step of. -/
def SessionEvent.moves (s : Sessions) : SessionEvent → Option AuthRequest
  | .proceed k => s.requests[k]?
  | _ => none

/-- The token that `parse_with_claims` accepts in the step. -/
def Sessions.accepted (s : Sessions) (e : SessionEvent) : Option ParsedAccessToken :=
  (e.moves s).bind fun r =>
    match r.stage with
    | .lookup parsed =>
      if AuthService.revoked s.db.revocations s.clock parsed.jti then none else some parsed
    | _ => none

/-- The service: its tokens, the library that signs them and the verification of factors. -/
structure SessionService where
  auth : AuthService
  jwt : Jwt
  mfa : MfaService
  settings : SessionSettings

namespace SessionService
variable (service : SessionService)

def ceremony (s : Sessions) (e : CeremonyEvent) : Sessions :=
  { s with ceremonies := ceremonyStep service.settings.mfa service.mfa s.ceremonies e }

/-- The token of a login without a factor: the end of `login`, its audit record aside. -/
def passwordToken (s : Sessions) (i : Nat) (tokenId : Uuid) : Option Issued :=
  if s.unanswered i tokenId then
    match s.loginPrincipal i with
    | some principal =>
      match service.auth.issue service.jwt s.clock tokenId principal ["pwd"] none with
      | .ok (text, _) =>
        some ⟨text, tokenId, service.auth.claims s.clock tokenId principal ["pwd"] none⟩
      | .error _ => none
    | none => none
  else none

/-- The token of a completed factor, which `finish_mfa_session` issues. -/
def factorToken (s : Sessions) (i : Nat) (draw : SessionDraw) : Option Issued :=
  if s.unanswered i draw.tokenId then
    match s.completion i with
    | some completion =>
      match (finishMfaSession service.auth service.jwt (s.timed draw) completion s.db).1 with
      | .ok session =>
        some ⟨session.token, draw.tokenId, service.auth.claims s.clock draw.tokenId
          completion.principal ["pwd", completion.assuranceMethod] (some s.clock)⟩
      | .error _ => none
    | none => none
  else none

/-- The token that the step issues. -/
def issues (s : Sessions) : SessionEvent → Option Issued
  | .issue i tokenId => service.passwordToken s i tokenId
  | .finish i draw => service.factorToken s i draw
  | _ => none

/-- The next step of a request. -/
def proceed (s : Sessions) (k : Nat) (r : AuthRequest) : Sessions :=
  match r.stage with
  | .decode =>
    match service.auth.readToken service.jwt s.clock r.token with
    | some parsed => s.move k r (.lookup parsed)
    | none => s.move k r .ended
  | .lookup parsed =>
    if AuthService.revoked s.db.revocations s.clock parsed.jti then s.move k r .ended
    else s.move k r (.user parsed)
  | .user parsed =>
    match authenticatedPrincipal parsed.principal s.db.bank with
    | .ok () => s.move k r (.admitted parsed)
    | .error _ => s.move k r .ended
  | .prune parsed => (s.withDb (s.db.pruneRevocations s.clock)).move k r (.revoke parsed)
  | .revoke parsed =>
    (s.withDb (s.db.insertRevocation ⟨parsed.jti, parsed.principal.userId, parsed.expiresAt⟩)).move
      k r .ended
  | .admitted _ | .ended => s

def step (s : Sessions) : SessionEvent → Sessions
  | .ceremony e => if e.withoutToken then service.ceremony s e else s
  | .register user =>
    match s.db.bank.insertUser user with
    | .ok bank => s.withDb (s.db.withBank bank)
    | .error _ => s
  | .decide userId approve =>
    s.withDb (s.db.withBank { s.db.bank with
      users := updateWhere (fun u => u.userId = userId) (UserAccount.decided approve)
        s.db.bank.users })
  | .issue i tokenId =>
    match service.passwordToken s i tokenId with
    | some token => { s with issued := s.issued ++ [token], answered := i :: s.answered }
    | none => s
  | .finish i draw =>
    match s.completion i with
    | some completion =>
      if s.unanswered i draw.tokenId then
        { s.withDb (finishMfaSession service.auth service.jwt (s.timed draw) completion s.db).2 with
          issued := s.issued ++ (service.factorToken s i draw).toList
          answered := i :: s.answered }
      else s
    | none => s
  | .request token => { s with requests := s.requests ++ [⟨token, .decode⟩] }
  | .proceed k =>
    match s.requests[k]? with
    | some r => service.proceed s k r
    | none => s
  | .logout k =>
    match s.admitted k, s.requests[k]? with
    | some parsed, some r => s.move k r (.prune parsed)
    | _, _ => s
  | .enroll k transactionId now =>
    match s.admitted k, s.requests[k]? with
    | some parsed, some r =>
      if parsed.principal.role ∈ mfaRoles then
        (service.ceremony s (.beginEnrollment parsed.principal.userId parsed.principal.role
          transactionId (parsed.jti, parsed.expiresAt) now)).move k r .ended
      else s
    | _, _ => s
  | .remove k target =>
    match s.admitted k, s.requests[k]? with
    | some parsed, some r =>
      if parsed.principal.role ∈ mfaRoles ∧ parsed.recentMfa service.settings s.clock = true then
        (service.ceremony s (.remove parsed.principal.userId parsed.principal.role target)).move
          k r .ended
      else s
    | _, _ => s

/-- The state after some events. -/
def run (s : Sessions) (es : List SessionEvent) : Sessions := Runs.run service.step s es

end SessionService

end Bantam
