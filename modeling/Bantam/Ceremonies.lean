import Bantam.Factors

/-! The MFA ceremonies of many users at once, a statement at a time: what begins a request,
what prepares and completes it, and the removals. A completion is one step, its commit: it has
its request's row and the factor's locked until then, the unique index repeats its test for a
passkey that is there, and what it writes is not seen before. -/
namespace Bantam
open Tables

/-- What `MfaService` is configured with beside its key. -/
structure MfaSettings where
  transactionTtl : Int
  passkeysEnabled : Bool

/-- `MFA_METHOD_PASSKEY` and `MFA_METHOD_TOTP` -/
inductive MfaMethod where
  | passkey | totp
  deriving DecidableEq

def passkeyConfigurationRequired : MfaFailure :=
  ⟨"PASSKEY_CONFIGURATION_REQUIRED", "This account requires its configured passkey origin.", 503⟩
def invalidMfaLabel : MfaFailure := ⟨"INVALID_MFA_LABEL", "MFA label is too long.", 422⟩
def setupNotAvailable : MfaFailure :=
  ⟨"INVALID_MFA_TRANSACTION", "This MFA setup request is no longer available.", 409⟩
def passkeysNotConfigured : MfaFailure :=
  ⟨"PASSKEYS_NOT_CONFIGURED", "Passkeys are not configured for this hostname.", 503⟩
def totpAlreadyEnrolled : MfaFailure :=
  ⟨"TOTP_ALREADY_ENROLLED", "Remove the existing authenticator app before replacing it.", 409⟩

/-- The arguments of `_insert_transaction` beside the user, as its callers have them. The
source of an enrolment is the token it was begun with and the token's expiry. -/
inductive NewTransaction where
  | login (challenge : Option Bytes)
  | enrollChoice (source : Option (Uuid × Instant))
  deriving DecidableEq

namespace NewTransaction

def purpose : NewTransaction → MfaPurpose
  | .login _ => .login
  | .enrollChoice _ => .enrollChoice

def challenge : NewTransaction → Option Bytes
  | .login challenge => challenge
  | .enrollChoice _ => none

def source : NewTransaction → Option (Uuid × Instant)
  | .login _ => none
  | .enrollChoice source => source

theorem sourced (new : NewTransaction) :
    (new.source.map Prod.fst).isSome = (new.source.map Prod.snd).isSome := by
  simp only [Option.isSome_map]
end NewTransaction

namespace MfaMethod

/-- `label.strip() or …` -/
def label (method : MfaMethod) (label : String) : String :=
  if Text.strip label = "" then
    match method with
    | .passkey => "Passkey"
    | .totp => "Authenticator app"
  else Text.strip label

/-- The purpose of a request prepared for the method. -/
def purpose : MfaMethod → MfaPurpose
  | .passkey => .enrollPasskey
  | .totp => .enrollTotp
end MfaMethod

/-- What `begin_login` inserts, if it goes on to a factor; the challenge is offered with a
passkey. -/
def loginTransaction (role : Role) (challenge : Bytes) (methods : List MfaMethod) :
    Option NewTransaction :=
  if methods = [] then
    if roleRequiresMfa role then some (.enrollChoice none) else none
  else some (.login (if .passkey ∈ methods then some challenge else none))

theorem no_attempts_bounded : 0 ≤ 5 := Nat.zero_le 5

namespace MfaSettings
variable (settings : MfaSettings)

/-- `factor_methods`, after its two reads. -/
def factorMethods (passkey totp : Bool) : Except MfaFailure (List MfaMethod) :=
  if passkey && !settings.passkeysEnabled && !totp then .error passkeyConfigurationRequired
  else .ok ((if passkey && settings.passkeysEnabled then [.passkey] else []) ++
    if totp then [.totp] else [])

/-- The row that `_insert_transaction` inserts. The expiry is reckoned from the clock of the
service, which is not that of the database. -/
def row (userId transactionId : Uuid) (now databaseNow : Instant) (new : NewTransaction) :
    MfaTransaction where
  transactionId := transactionId
  userId := userId
  purpose := new.purpose
  challenge := new.challenge
  pendingSecret := none
  factorLabel := none
  sourceJti := new.source.map Prod.fst
  sourceExpiresAt := new.source.map Prod.snd
  attempts := 0
  expiresAt := now + settings.transactionTtl
  consumedAt := none
  createdAt := databaseNow
  bounded := no_attempts_bounded
  sourced := new.sourced
end MfaSettings

namespace MfaTransaction

/-- A row that the `DELETE` of `_insert_transaction` takes. -/
def stale (userId : Uuid) (databaseNow : Instant) (t : MfaTransaction) : Bool :=
  t.userId = userId && (t.expiresAt ≤ databaseNow || t.consumedAt.isSome)

/-- The `UPDATE` of `prepare_enrollment`. -/
def prepare (method : MfaMethod) (label : String) (challenge pendingSecret : Bytes)
    (t : MfaTransaction) : MfaTransaction :=
  match method with
  | .passkey => { t with
      purpose := .enrollPasskey
      challenge := some challenge
      factorLabel := some label }
  | .totp => { t with
      purpose := .enrollTotp
      pendingSecret := some pendingSecret
      factorLabel := some label }
end MfaTransaction

namespace MfaDb

def deleteStale (userId : Uuid) (databaseNow : Instant) (db : MfaDb) : MfaDb :=
  { db with transactions := db.transactions.filter fun t => !t.stale userId databaseNow }

def insertTransaction (row : MfaTransaction) (db : MfaDb) : Except MfaError MfaDb :=
  if row.transactionId ∈ db.transactions.map MfaTransaction.transactionId then
    .error (.database .uniqueViolation)
  else if db.bank.findUser row.userId = none then .error (.database .foreignKeyViolation)
  else .ok { db with transactions := db.transactions ++ [row] }

def updateTransaction (transactionId : Uuid) (f : MfaTransaction → MfaTransaction) (db : MfaDb) :
    MfaDb :=
  { db with
    transactions := updateWhere (fun t => t.transactionId = transactionId) f db.transactions }
end MfaDb

/-- A row of a request, of a user's factor, or of a user. -/
inductive MfaLock where
  | request (transactionId : Uuid)
  | factor (userId : Uuid) (f : Factor)
  | user (userId : Uuid)
  deriving DecidableEq

def FactorLock.ofUser (userId : Uuid) : FactorLock → MfaLock
  | .factor f => .factor userId f
  | .user => .user userId

/-- The statement that begins a request runs next. `begin_login` starts at its first read and
`begin_authenticated_enrollment` at the `DELETE`; each statement is a transaction of its own. -/
inductive BeginStage where
  | passkeyExists
  | totpExists (passkey : Bool)
  | delete (new : NewTransaction)
  | insert (new : NewTransaction)
  | ended (result : Except MfaError (Option Uuid))
  deriving DecidableEq

structure Begin where
  userId : Uuid
  role : Role
  transactionId : Uuid
  challenge : Bytes
  now : Instant
  stage : BeginStage
  deriving DecidableEq

namespace Begin

def become (c : Begin) (stage : BeginStage) : Begin := { c with stage := stage }

/-- The next statement; a `DELETE` waits for the rows that it takes. -/
def advance (settings : MfaSettings) (databaseNow : Instant) (blocked : MfaLock → Bool)
    (c : Begin) (db : MfaDb) : BeginStage × MfaDb :=
  match c.stage with
  | .passkeyExists => (.totpExists (db.hasPasskey c.userId), db)
  | .totpExists passkey =>
    match settings.factorMethods passkey (db.hasTotp c.userId) with
    | .error failure => (.ended (.error (.failure failure)), db)
    | .ok methods =>
      match loginTransaction c.role c.challenge methods with
      | none => (.ended (.ok none), db)
      | some new => (.delete new, db)
  | .delete new =>
    if db.transactions.any fun t =>
        t.stale c.userId databaseNow && blocked (.request t.transactionId)
    then (c.stage, db)
    else (.insert new, db.deleteStale c.userId databaseNow)
  | .insert new =>
    match db.insertTransaction (settings.row c.userId c.transactionId c.now databaseNow new) with
    | .error e => (.ended (.error e), db)
    | .ok db => (.ended (.ok (some c.transactionId)), db)
  | .ended _ => (c.stage, db)
end Begin

/-- `prepare_enrollment`, a statement at a time in one transaction: the request's row is locked
from its `SELECT` on, and what was read of it is kept. -/
inductive PrepareStage where
  | select
  | existing (t : MfaTransaction)
  | update (t : MfaTransaction)
  | ended (result : Except MfaError Unit)
  deriving DecidableEq

structure Preparation where
  transactionId : Uuid
  method : MfaMethod
  label : String
  challenge : Bytes
  pendingSecret : Bytes
  databaseNow : Instant
  stage : PrepareStage
  deriving DecidableEq

namespace Preparation

def become (c : Preparation) (stage : PrepareStage) : Preparation := { c with stage := stage }

/-- What was read of the request whose row is locked. -/
def held (c : Preparation) : Option MfaTransaction :=
  match c.stage with
  | .existing t | .update t => some t
  | _ => none

/-- The checks between the `SELECT` of the request and the reads that depend on the method. -/
def selected (settings : MfaSettings) (c : Preparation) (t : MfaTransaction) : PrepareStage :=
  if t.purpose ≠ .enrollChoice then .ended (.error (.failure setupNotAvailable))
  else
    match c.method with
    | .passkey =>
      if settings.passkeysEnabled then .update t
      else .ended (.error (.failure passkeysNotConfigured))
    | .totp => .existing t

def advance (settings : MfaSettings) (blocked : MfaLock → Bool) (c : Preparation) (db : MfaDb) :
    PrepareStage × MfaDb :=
  match c.stage with
  | .select =>
    if 80 < (c.method.label c.label).length then (.ended (.error (.failure invalidMfaLabel)), db)
    else if blocked (.request c.transactionId) then (c.stage, db)
    else
      match db.transactionForUpdate c.transactionId c.databaseNow with
      | .error e => (.ended (.error e), db)
      | .ok t => (c.selected settings t, db)
  | .existing t =>
    (if db.hasTotp t.userId then .ended (.error (.failure totpAlreadyEnrolled)) else .update t, db)
  | .update _ =>
    (.ended (.ok ()), db.updateTransaction c.transactionId
      (MfaTransaction.prepare c.method (c.method.label c.label) c.challenge c.pendingSecret))
  | .ended _ => (c.stage, db)
end Preparation

/-- A call of `complete_passkey` or `complete_totp`, with its result once it has one. -/
structure FactorCall where
  transactionId : Uuid
  response : FactorResponse
  draw : FactorDraw
  result : Option (Except MfaError MfaCompletion)
  deriving DecidableEq

namespace FactorCall
variable (service : MfaService)

def complete (c : FactorCall) (db : MfaDb) : Except MfaError MfaCompletion × MfaDb :=
  service.complete c.draw c.transactionId c.response db

def accepted (c : FactorCall) (db : MfaDb) : Bool := (c.complete service db).1.isOk

/-- The factor's row that the completion of the request reads for update or replaces. -/
def factorRows (c : FactorCall) (t : MfaTransaction) (db : MfaDb) : List Factor :=
  match c.response with
  | .totp _ => if t.purpose = .login ∨ c.accepted service db then [.totp] else []
  | .passkey credential =>
    if t.purpose = .login then
      (db.passkeys.filter fun p => p.userId = t.userId && p.revokedAt.isNone &&
        some p.credentialId = credential.rawId.bind service.webauthn.base64urlToBytes).map
          fun p => .passkey p.webauthnCredentialId
    else []

/-- The rows that the completion locks. -/
def rows (c : FactorCall) (db : MfaDb) : List MfaLock :=
  .request c.transactionId ::
  match db.findTransaction c.transactionId with
  | none => []
  | some t => (c.factorRows service t db).map (.factor t.userId) ++
      if c.accepted service db then [.user t.userId] else []

/-- The call has no result yet and waits for no row. -/
def free (blocked : MfaLock → Bool) (c : FactorCall) (db : MfaDb) : Bool :=
  c.result.isNone && !(c.rows service db).any blocked

def advance (blocked : MfaLock → Bool) (c : FactorCall) (db : MfaDb) :
    Option (Except MfaError MfaCompletion) × MfaDb :=
  if c.free service blocked db then
    (some (c.complete service db).1, (c.complete service db).2)
  else (c.result, db)
end FactorCall

inductive MfaCall where
  | begin (c : Begin)
  | prepare (c : Preparation)
  | complete (c : FactorCall)
  | remove (userId : Uuid) (role : Role) (c : Removal)
  | crashed
  deriving DecidableEq

namespace MfaCall

def locks : MfaCall → List MfaLock
  | .prepare c => if c.held.isSome then [.request c.transactionId] else []
  | .remove userId _ c => c.locks.map (FactorLock.ofUser userId)
  | _ => []

/-- The request that the call's next step completes, if it does. -/
def completed (service : MfaService) (blocked : MfaLock → Bool) (db : MfaDb) :
    MfaCall → Option MfaTransaction
  | .complete c =>
    if c.free service blocked db && c.accepted service db then db.findTransaction c.transactionId
    else none
  | _ => none

def advance (settings : MfaSettings) (service : MfaService) (databaseNow : Instant)
    (blocked : MfaLock → Bool) (db : MfaDb) : MfaCall → MfaCall × MfaDb
  | .begin c =>
    let (stage, db) := c.advance settings databaseNow blocked db
    (.begin (c.become stage), db)
  | .prepare c =>
    let (stage, db) := c.advance settings blocked db
    (.prepare (c.become stage), db)
  | .complete c =>
    let (result, db) := c.advance service blocked db
    (.complete { c with result := result }, db)
  | .remove userId role c =>
    let (stage, db) := c.advance userId role (fun l => blocked (l.ofUser userId)) db
    (.remove userId role (c.become stage), db)
  | .crashed => (.crashed, db)
end MfaCall

/-- The committed database, its clock and the calls begun so far. -/
structure Ceremonies where
  db : MfaDb
  clock : Instant
  calls : List MfaCall
  deriving DecidableEq

inductive CeremonyEvent where
  | tick (elapsed : Nat)
  | login (userId transactionId : Uuid) (challenge : Bytes) (now : Instant)
  | beginEnrollment (userId : Uuid) (role : Role) (transactionId : Uuid)
      (source : Uuid × Instant) (now : Instant)
  | prepare (transactionId : Uuid) (method : MfaMethod) (label : String)
      (challenge pendingSecret : Bytes)
  | complete (transactionId : Uuid) (response : FactorResponse) (credentialRowId : Uuid)
      (now : Instant)
  | remove (userId : Uuid) (role : Role) (target : Factor)
  | advance (i : Nat)
  | crash (i : Nat)
  deriving DecidableEq

namespace Ceremonies

def start (db : MfaDb) (clock : Instant) : Ceremonies := ⟨db, clock, []⟩

def call (s : Ceremonies) (c : MfaCall) : Ceremonies := { s with calls := s.calls ++ [c] }

/-- What waits for the locks of the other calls. -/
def blocked (s : Ceremonies) (i : Nat) : MfaLock → Bool :=
  Locks.heldByOther MfaCall.locks s.calls i

/-- The user, if a right password takes them as far as `begin_login`. -/
def loginUser (s : Ceremonies) (userId : Uuid) : Option UserAccount :=
  (s.db.bank.findUser userId).filter fun u => u.status = .active && u.role ≠ .pendingApproval
end Ceremonies

/-- Transactions take their time from the clock as they begin, and commit in any order. -/
def ceremonyStep (settings : MfaSettings) (service : MfaService) (s : Ceremonies) :
    CeremonyEvent → Ceremonies
  | .tick elapsed => { s with clock := s.clock + elapsed }
  | .login userId transactionId challenge now =>
    match s.loginUser userId with
    | some user =>
      s.call (.begin ⟨userId, user.role, transactionId, challenge, now, .passkeyExists⟩)
    | none => s
  | .beginEnrollment userId role transactionId source now =>
    if s.db.activeUser userId then
      s.call (.begin ⟨userId, role, transactionId, [], now,
        .delete (.enrollChoice (some source))⟩)
    else s
  | .prepare transactionId method label challenge pendingSecret =>
    s.call (.prepare ⟨transactionId, method, label, challenge, pendingSecret, s.clock, .select⟩)
  | .complete transactionId response credentialRowId now =>
    s.call (.complete ⟨transactionId, response, ⟨credentialRowId, now, s.clock⟩, none⟩)
  | .remove userId role target => s.call (.remove userId role ⟨target, s.clock, .select⟩)
  | .advance i =>
    match s.calls[i]? with
    | some c =>
      let (c, db) := c.advance settings service s.clock (s.blocked i) s.db
      { s with db := db, calls := s.calls.set i c }
    | none => s
  | .crash i => { s with calls := s.calls.set i .crashed }

/-- What the next step of a call makes of the requests. -/
inductive RequestStep (settings : MfaSettings) (service : MfaService) (databaseNow : Instant)
    (blocked : MfaLock → Bool) (db : MfaDb) : MfaCall → List MfaTransaction → Prop where
  | same (call : MfaCall) (hnone : call.completed service blocked db = none) :
      RequestStep settings service databaseNow blocked db call db.transactions
  | deleted (c : Begin)
      (hfree : ∀ t ∈ db.transactions, t.stale c.userId databaseNow = true →
        blocked (.request t.transactionId) = false) :
      RequestStep settings service databaseNow blocked db (.begin c)
        (db.transactions.filter fun t => !t.stale c.userId databaseNow)
  | inserted (c : Begin) (new : NewTransaction) (hstage : c.stage = .insert new)
      (hnew : c.transactionId ∉ db.transactions.map MfaTransaction.transactionId) :
      RequestStep settings service databaseNow blocked db (.begin c)
        (db.transactions ++ [settings.row c.userId c.transactionId c.now databaseNow new])
  | prepared (c : Preparation) (t : MfaTransaction) (hstage : c.stage = .update t) :
      RequestStep settings service databaseNow blocked db (.prepare c)
        (updateWhere (fun u => u.transactionId = c.transactionId)
          (MfaTransaction.prepare c.method (c.method.label c.label) c.challenge c.pendingSecret)
          db.transactions)
  | answered (c : FactorCall) (f : MfaTransaction → MfaTransaction)
      (hfree : blocked (.request c.transactionId) = false)
      (hf : ∀ t, t.Follows (f t) ∧ (f t).purpose = t.purpose)
      (hdone : ∀ t, (MfaCall.complete c).completed service blocked db = some t →
        t.transactionId = c.transactionId ∧ ∀ u, (f u).consumedAt.isSome) :
      RequestStep settings service databaseNow blocked db (.complete c)
        (updateWhere (fun u => u.transactionId = c.transactionId) f db.transactions)

section Steps
variable {settings : MfaSettings} {service : MfaService} {databaseNow : Instant}
  {blocked : MfaLock → Bool} {db : MfaDb} {call : MfaCall} {userId : Uuid} {t : MfaTransaction}

theorem insertTransaction_ok {row : MfaTransaction} {db' : MfaDb}
    (h : db.insertTransaction row = .ok db') :
    row.transactionId ∉ db.transactions.map MfaTransaction.transactionId ∧
      db' = { db with transactions := db.transactions ++ [row] } := by
  unfold MfaDb.insertTransaction at h
  split_ifs at h with hid huser
  cases h
  exact ⟨hid, rfl⟩

/-- Beginning a request touches no other table. -/
theorem begin_frame (settings : MfaSettings) (service : MfaService) (databaseNow : Instant)
    (blocked : MfaLock → Bool) (db : MfaDb) (c : Begin) :
    RequestStep settings service databaseNow blocked db (.begin c)
        (c.advance settings databaseNow blocked db).2.transactions ∧
      (c.advance settings databaseNow blocked db).2.passkeys = db.passkeys ∧
      (c.advance settings databaseNow blocked db).2.totps = db.totps := by
  unfold Begin.advance
  cases hs : c.stage with
  | passkeyExists => exact ⟨.same _ rfl, rfl, rfl⟩
  | totpExists passkey =>
    simp only
    split
    · exact ⟨.same _ rfl, rfl, rfl⟩
    · split <;> exact ⟨.same _ rfl, rfl, rfl⟩
  | delete new =>
    simp only
    split_ifs with hany
    · exact ⟨.same _ rfl, rfl, rfl⟩
    · refine ⟨.deleted c fun t ht hstale => ?_, rfl, rfl⟩
      by_contra hblocked
      exact hany (List.any_eq_true.mpr ⟨t, ht, by simp [hstale, hblocked]⟩)
  | insert new =>
    simp only
    split
    · exact ⟨.same _ rfl, rfl, rfl⟩
    · rename_i db' hi
      obtain ⟨hnew, rfl⟩ := insertTransaction_ok hi
      exact ⟨.inserted c new hs hnew, rfl, rfl⟩
  | ended result => exact ⟨.same _ rfl, rfl, rfl⟩

theorem prepare_frame (settings : MfaSettings) (service : MfaService) (databaseNow : Instant)
    (blocked : MfaLock → Bool) (db : MfaDb) (c : Preparation) :
    RequestStep settings service databaseNow blocked db (.prepare c)
        (c.advance settings blocked db).2.transactions ∧
      (c.advance settings blocked db).2.passkeys = db.passkeys ∧
      (c.advance settings blocked db).2.totps = db.totps := by
  unfold Preparation.advance
  cases hs : c.stage with
  | select =>
    simp only
    split_ifs
    · exact ⟨.same _ rfl, rfl, rfl⟩
    · exact ⟨.same _ rfl, rfl, rfl⟩
    · split <;> exact ⟨.same _ rfl, rfl, rfl⟩
  | existing t => exact ⟨.same _ rfl, rfl, rfl⟩
  | update t => exact ⟨.prepared c t hs, rfl, rfl⟩
  | ended result => exact ⟨.same _ rfl, rfl, rfl⟩

theorem FactorCall.free_request {c : FactorCall} (h : c.free service blocked db = true) :
    blocked (.request c.transactionId) = false := by
  simp only [FactorCall.free, FactorCall.rows, List.any_cons, Bool.and_eq_true,
    Bool.not_eq_true', Bool.or_eq_false_iff] at h
  exact h.2.1

theorem completed_complete {c : FactorCall}
    (h : (MfaCall.complete c).completed service blocked db = some t) :
    c.free service blocked db = true ∧ c.accepted service db = true ∧
      db.findTransaction c.transactionId = some t := by
  simp only [MfaCall.completed] at h
  split_ifs at h with hc
  rw [Bool.and_eq_true] at hc
  exact ⟨hc.1, hc.2, h⟩

/-- A request that is completed was there, of a call that completes it. -/
theorem completed_cases (h : call.completed service blocked db = some t) :
    ∃ c, call = .complete c ∧ c.free service blocked db = true ∧
      c.accepted service db = true ∧ db.findTransaction c.transactionId = some t := by
  cases call with
  | complete c => exact ⟨c, rfl, completed_complete h⟩
  | begin | prepare | remove | crashed => cases h

theorem removal_frame (userId : Uuid) (role : Role) (waits : FactorLock → Bool) (c : Removal)
    (db : MfaDb) :
    (c.advance userId role waits db).2 = db ∨
      ∃ enabled, (c.advance userId role waits db).2 =
        (c.target.revoke userId c.databaseNow db).setMfaEnabled userId enabled := by
  unfold Removal.advance
  cases c.stage with
  | select =>
    simp only
    split_ifs <;> exact .inl rfl
  | commit enabled => exact .inr ⟨enabled, rfl⟩
  | countPasskeys | countTotp | revoke | sync | lockUser | ended | crashed => exact .inl rfl

theorem revoke_transactions (f : Factor) : (f.revoke userId databaseNow db).transactions =
    db.transactions := by
  cases f <;> rfl

theorem advance_requests (settings : MfaSettings) (service : MfaService) (databaseNow : Instant)
    (blocked : MfaLock → Bool) (db : MfaDb) (call : MfaCall) :
    RequestStep settings service databaseNow blocked db call
      (call.advance settings service databaseNow blocked db).2.transactions := by
  cases call with
  | begin c => exact (begin_frame settings service databaseNow blocked db c).1
  | prepare c => exact (prepare_frame settings service databaseNow blocked db c).1
  | complete c =>
    simp only [MfaCall.advance, FactorCall.advance]
    split_ifs with hfree
    · have hend : FactorEnd c.transactionId c.draw.databaseNow db (c.complete service db).1.isOk
          (c.complete service db).2 := complete_end
      obtain ⟨f, hf, ht⟩ := hend.transactions
      simp only [ht]
      refine .answered c f (FactorCall.free_request hfree) (fun t => ⟨(hf t).1, (hf t).2.1⟩) ?_
      intro t hdone
      obtain ⟨-, haccepted, hfound⟩ := completed_complete hdone
      exact ⟨lookup_key hfound, fun u => (hf u).2.2 haccepted⟩
    · exact .same _ (by simp [MfaCall.completed, hfree])
  | remove userId role c =>
    simp only [MfaCall.advance]
    cases removal_frame userId role (fun l => blocked (l.ofUser userId)) c db with
    | inl h =>
      rw [h]
      exact .same _ rfl
    | inr h =>
      obtain ⟨enabled, h⟩ := h
      rw [h, setMfaEnabled_transactions, revoke_transactions]
      exact .same _ rfl
  | crashed => exact .same _ rfl

theorem revoke_hasPasskey {f : Factor} {owner : Uuid}
    (h : (f.revoke owner databaseNow db).hasPasskey userId = true) :
    db.hasPasskey userId = true := by
  cases f with
  | totp => exact h
  | passkey credentialId =>
    refine any_updateWhere (fun p hp => ?_) h
    simp at hp

theorem revoke_hasTotp {f : Factor} {owner : Uuid}
    (h : (f.revoke owner databaseNow db).hasTotp userId = true) : db.hasTotp userId = true := by
  cases f with
  | passkey credentialId => exact h
  | totp =>
    refine any_updateWhere (fun c hc => ?_) h
    simp at hc

theorem revoke_storedSecret (f : Factor) (owner : Uuid) :
    (f.revoke owner databaseNow db).storedSecret userId = db.storedSecret userId := by
  cases f with
  | passkey credentialId => rfl
  | totp =>
    simp only [Factor.revoke, MfaDb.storedSecret]
    rw [lookup_updateWhere (by simp), Option.map_map]
    congr 1
    funext c
    simp only [Function.comp_apply]
    split_ifs <;> rfl

/-- What a step does to the factors, by the kind of call. -/
theorem advance_factors {P : MfaDb → Prop}
    (hsame : ∀ db', db'.passkeys = db.passkeys → db'.totps = db.totps → P db')
    (hrevoke : ∀ (f : Factor) owner now enabled,
      P ((f.revoke owner now db).setMfaEnabled owner enabled))
    (hcomplete : ∀ c ok db', call = .complete c → FactorEnd c.transactionId c.draw.databaseNow db
      ok db' → (∀ t, db.findTransaction c.transactionId = some t → ok = true →
        call.completed service blocked db = some t) → P db') :
    P (call.advance settings service databaseNow blocked db).2 := by
  cases call with
  | begin c =>
    have hframe := begin_frame settings service databaseNow blocked db c
    exact hsame _ hframe.2.1 hframe.2.2
  | prepare c =>
    have hframe := prepare_frame settings service databaseNow blocked db c
    exact hsame _ hframe.2.1 hframe.2.2
  | complete c =>
    simp only [MfaCall.advance, FactorCall.advance]
    split_ifs with hfree
    · have hend : FactorEnd c.transactionId c.draw.databaseNow db (c.complete service db).1.isOk
          (c.complete service db).2 := complete_end
      refine hcomplete c _ _ rfl hend ?_
      intro t hfound hok
      have haccepted : c.accepted service db = true := hok
      simp [MfaCall.completed, hfree, haccepted, hfound]
    · exact hsame _ rfl rfl
  | remove userId role c =>
    simp only [MfaCall.advance]
    cases removal_frame userId role (fun l => blocked (l.ofUser userId)) c db with
    | inl h =>
      rw [h]
      exact hsame _ rfl rfl
    | inr h =>
      obtain ⟨enabled, h⟩ := h
      rw [h]
      exact hrevoke _ _ _ _
  | crashed => exact hsame _ rfl rfl

theorem advance_hasPasskey
    (h : (call.advance settings service databaseNow blocked db).2.hasPasskey userId = true) :
    db.hasPasskey userId = true ∨ ∃ t, call.completed service blocked db = some t ∧
      t.userId = userId ∧ t.purpose = .enrollPasskey := by
  revert h
  refine advance_factors (P := fun db' => db'.hasPasskey userId = true → _) ?_ ?_ ?_
  · intro db' hp ht h
    rw [MfaDb.hasPasskey, hp] at h
    exact .inl h
  · intro f owner now enabled h
    exact .inl (revoke_hasPasskey h)
  · intro c ok db' hc hend hdone h
    cases hend.hasPasskey h with
    | inl h => exact .inl h
    | inr h =>
      obtain ⟨t, hfound, hok, hu, hp⟩ := h
      exact .inr ⟨t, hdone t hfound hok, hu, hp⟩

theorem advance_hasTotp
    (h : (call.advance settings service databaseNow blocked db).2.hasTotp userId = true) :
    db.hasTotp userId = true ∨ ∃ t, call.completed service blocked db = some t ∧
      t.userId = userId ∧ t.purpose = .enrollTotp := by
  revert h
  refine advance_factors (P := fun db' => db'.hasTotp userId = true → _) ?_ ?_ ?_
  · intro db' hp ht h
    rw [MfaDb.hasTotp, ht] at h
    exact .inl h
  · intro f owner now enabled h
    exact .inl (revoke_hasTotp h)
  · intro c ok db' hc hend hdone h
    cases hend.hasTotp h with
    | inl h => exact .inl h
    | inr h =>
      obtain ⟨t, hfound, hok, hu, hp⟩ := h
      exact .inr ⟨t, hdone t hfound hok, hu, hp⟩

theorem advance_storedSecret
    (hnone : ∀ t, call.completed service blocked db = some t → t.purpose = .enrollTotp →
      t.userId ≠ userId) :
    (call.advance settings service databaseNow blocked db).2.storedSecret userId =
      db.storedSecret userId := by
  refine advance_factors (P := fun db' => db'.storedSecret userId = _) ?_ ?_ ?_
  · intro db' hp ht
    rw [MfaDb.storedSecret, ht, MfaDb.storedSecret]
  · intro f owner now enabled
    exact revoke_storedSecret f owner
  · intro c ok db' hc hend hdone
    exact hend.storedSecret fun t hfound hok hp => hnone t (hdone t hfound hok) hp
theorem Removal.advance_locks (role : Role) (waits : FactorLock → Bool) (c : Removal) :
    ∀ l ∈ (c.become (c.advance userId role waits db).1).locks, l ∈ c.locks ∨ waits l = false := by
  intro l hl
  unfold Removal.advance at hl
  cases hs : c.stage with
  | select =>
    simp only [hs] at hl
    split_ifs at hl with hactive hwait
    · cases hl
    · simp [Removal.become, Removal.locks] at hl
    · have he : l = .factor c.target := List.mem_singleton.mp hl
      exact .inr (by simpa [he] using hwait)
  | countPasskeys =>
    left
    simp only [hs] at hl
    split_ifs at hl <;> simpa [Removal.become, Removal.locks, hs] using hl
  | countTotp remaining =>
    simp only [hs] at hl
    split_ifs at hl
    · cases hl
    · exact .inl (by simpa [Removal.become, Removal.locks, hs] using hl)
  | lockUser enabled =>
    simp only [hs] at hl
    split_ifs at hl with hwait
    · exact .inl (by simpa [Removal.become, Removal.locks, hs] using hl)
    · have hcases : l = .factor c.target ∨ l = .user := by
        simpa [Removal.become, Removal.locks] using hl
      cases hcases with
      | inl h => exact .inl (by simp [Removal.locks, hs, h])
      | inr h => exact .inr (by simpa [h] using hwait)
  | revoke | sync =>
    left
    simpa [Removal.become, Removal.locks, hs] using hl
  | commit enabled =>
    simp only [hs] at hl
    cases hl
  | ended result =>
    simp [Removal.become, Removal.locks, hs] at hl
  | crashed =>
    simp [Removal.become, Removal.locks, hs] at hl

theorem selected_held {c : Preparation} {u : MfaTransaction}
    (h : (c.become (c.selected settings u)).held = some t) : u = t ∧ u.purpose = .enrollChoice := by
  unfold Preparation.selected at h
  by_cases hp : u.purpose = .enrollChoice
  · rw [if_neg (not_not.mpr hp)] at h
    cases hm : c.method with
    | passkey =>
      simp only [hm] at h
      split_ifs at h
      · exact ⟨Option.some.inj h, hp⟩
      · cases h
    | totp =>
      simp only [hm] at h
      exact ⟨Option.some.inj h, hp⟩
  · rw [if_pos hp] at h
    cases h

/-- A preparation has locked its request's row with the state that it has read of it. -/
theorem prepare_held (settings : MfaSettings) (blocked : MfaLock → Bool) (db : MfaDb)
    (c : Preparation) (h : (c.become (c.advance settings blocked db).1).held = some t) :
    c.held = some t ∨ (blocked (.request c.transactionId) = false ∧
      db.findTransaction c.transactionId = some t ∧ t.purpose = .enrollChoice) := by
  unfold Preparation.advance at h
  cases hs : c.stage with
  | select =>
    simp only [hs] at h
    split_ifs at h with hlabel hwait
    · cases h
    · simp [Preparation.become, Preparation.held] at h
    · cases ht : db.transactionForUpdate c.transactionId c.databaseNow with
      | error e =>
        simp [ht, Preparation.become, Preparation.held] at h
      | ok u =>
        simp only [ht] at h
        obtain ⟨rfl, hpurpose⟩ := selected_held h
        exact .inr ⟨by simpa using hwait, (transactionForUpdate_found ht).1, hpurpose⟩
  | existing u =>
    left
    simp only [hs] at h
    split_ifs at h
    · cases h
    · simpa [Preparation.become, Preparation.held, hs] using h
  | update u =>
    simp only [hs] at h
    cases h
  | ended result => simp [Preparation.become, Preparation.held, hs] at h

/-- While its row is locked a preparation writes nothing. -/
theorem prepare_reads (settings : MfaSettings) (blocked : MfaLock → Bool) (db : MfaDb)
    (c : Preparation) (h : (c.become (c.advance settings blocked db).1).held = some t) :
    (c.advance settings blocked db).2 = db := by
  cases hs : c.stage with
  | select =>
    simp only [Preparation.advance, hs]
    split_ifs
    · rfl
    · rfl
    · split <;> rfl
  | existing u => simp only [Preparation.advance, hs]
  | update u =>
    simp only [Preparation.advance, hs] at h
    cases h
  | ended result => simp only [Preparation.advance, hs]

theorem advance_locks (settings : MfaSettings) (service : MfaService) (databaseNow : Instant)
    (blocked : MfaLock → Bool) (db : MfaDb) (call : MfaCall) :
    ∀ l ∈ (call.advance settings service databaseNow blocked db).1.locks,
      l ∈ call.locks ∨ blocked l = false := by
  intro l hl
  cases call with
  | begin | complete | crashed => cases hl
  | prepare c =>
    simp only [MfaCall.advance, MfaCall.locks] at hl ⊢
    split_ifs at hl with hheld
    · obtain ⟨t, ht⟩ := Option.isSome_iff_exists.mp hheld
      have he : l = .request c.transactionId := List.mem_singleton.mp hl
      cases prepare_held settings blocked db c ht with
      | inl h => exact .inl (by simp [h, he])
      | inr h => exact .inr (he ▸ h.1)
    · cases hl
  | remove userId role c =>
    simp only [MfaCall.advance, MfaCall.locks, List.mem_map] at hl ⊢
    obtain ⟨l', hl', rfl⟩ := hl
    cases Removal.advance_locks role (fun l => blocked (l.ofUser userId)) c l' hl' with
    | inl h => exact .inl ⟨l', h, rfl⟩
    | inr h => exact .inr h
end Steps

/-- The row of a request that a preparation has locked is as the preparation has read it. -/
structure Coherent (s : Ceremonies) : Prop where
  keyed : Keyed MfaTransaction.transactionId s.db.transactions
  exclusive : Locks.Exclusive MfaCall.locks s.calls
  held : ∀ c t, .prepare c ∈ s.calls → c.held = some t →
    t ∈ s.db.transactions ∧ t.transactionId = c.transactionId ∧ t.purpose = .enrollChoice

section Coherence
variable {settings : MfaSettings} {service : MfaService} {databaseNow : Instant}
  {blocked : MfaLock → Bool} {db : MfaDb} {call : MfaCall} {rows : List MfaTransaction}
  {t : MfaTransaction} {s : Ceremonies}

@[simp] theorem prepare_transactionId (method : MfaMethod) (label : String)
    (challenge pendingSecret : Bytes) (t : MfaTransaction) :
    (t.prepare method label challenge pendingSecret).transactionId = t.transactionId := by
  cases method <;> rfl

theorem RequestStep.keyed (h : RequestStep settings service databaseNow blocked db call rows)
    (hk : Keyed MfaTransaction.transactionId db.transactions) :
    Keyed MfaTransaction.transactionId rows := by
  cases h with
  | same => exact hk
  | deleted c => exact hk.sublist (List.filter_sublist.map _)
  | inserted c new hstage hnew => exact keyed_append_one.mpr ⟨hk, hnew⟩
  | prepared c t hstage => exact (keyed_updateWhere _ fun u => by simp).mpr hk
  | answered c f hfree hf => exact (keyed_updateWhere _ fun u => (hf u).1.transactionId).mpr hk

/-- A row that another call has locked stays as it is. -/
theorem RequestStep.keeps (h : RequestStep settings service databaseNow blocked db call rows)
    (hblocked : blocked (.request t.transactionId) = true)
    (hown : .request t.transactionId ∉ call.locks) (ht : t ∈ db.transactions) : t ∈ rows := by
  cases h with
  | same => exact ht
  | deleted c hfree =>
    refine List.mem_filter.mpr ⟨ht, ?_⟩
    cases hstale : t.stale c.userId databaseNow with
    | false => rfl
    | true =>
      have hopen := hfree t ht hstale
      rw [hblocked] at hopen
      cases hopen
  | inserted => exact List.mem_append_left _ ht
  | prepared c u hstage =>
    refine mem_updateWhere_of_not ht ?_
    rw [decide_eq_false_iff_not]
    intro he
    exact hown (by simp [MfaCall.locks, Preparation.held, hstage, he])
  | answered c f hfree =>
    refine mem_updateWhere_of_not ht ?_
    rw [decide_eq_false_iff_not]
    intro he
    rw [he, hfree] at hblocked
    cases hblocked

theorem advance_held (settings : MfaSettings) (service : MfaService) {i : Nat}
    (h : Coherent s) (hi : s.calls[i]? = some call) :
    ∀ c t, .prepare c ∈ s.calls.set i
        (call.advance settings service s.clock (s.blocked i) s.db).1 → c.held = some t →
      t ∈ (call.advance settings service s.clock (s.blocked i) s.db).2.transactions ∧
        t.transactionId = c.transactionId ∧ t.purpose = .enrollChoice := by
  intro c t hc ht
  have hstep := advance_requests settings service s.clock (s.blocked i) s.db call
  cases Locks.mem_set hc with
  | inl he =>
    -- the call that moves: it reads its row now, or keeps what it has read
    cases call with
    | begin | complete | remove | crashed => cases he
    | prepare p =>
      cases he
      have hdb : (MfaCall.advance settings service s.clock (s.blocked i) s.db (.prepare p)).2 =
          s.db := prepare_reads settings (s.blocked i) s.db p ht
      rw [hdb]
      cases prepare_held settings (s.blocked i) s.db p ht with
      | inl hheld => exact h.held p t (List.mem_of_getElem? hi) hheld
      | inr hread =>
        exact ⟨lookup_mem hread.2.1, lookup_key hread.2.1, hread.2.2⟩
  | inr hother =>
    obtain ⟨j, hne, hj⟩ := hother
    obtain ⟨hmem, hid, hpurpose⟩ := h.held c t (List.mem_of_getElem? hj) ht
    have hlock : MfaLock.request t.transactionId ∈ (MfaCall.prepare c).locks := by
      simp [MfaCall.locks, ht, hid]
    refine ⟨hstep.keeps (Locks.heldByOther_of_ne hne hj hlock) ?_ hmem, hid, hpurpose⟩
    exact h.exclusive.disjoint hj hi hne _ hlock

theorem Coherent.begun (h : Coherent s) {c : MfaCall} (hlocks : c.locks = []) :
    Coherent (s.call c) := by
  refine ⟨h.keyed, h.exclusive.append hlocks, ?_⟩
  intro p t hp ht
  cases List.mem_append.mp hp with
  | inl hp => exact h.held p t hp ht
  | inr hp =>
    have he := List.mem_singleton.mp hp
    rw [← he] at hlocks
    simp [MfaCall.locks, ht] at hlocks

theorem Coherent.step (s : Ceremonies) (e : CeremonyEvent) (h : Coherent s) :
    Coherent (ceremonyStep settings service s e) := by
  cases e with
  | tick elapsed => exact ⟨h.keyed, h.exclusive, h.held⟩
  | login userId transactionId challenge now =>
    simp only [ceremonyStep]
    split
    · exact h.begun rfl
    · exact h
  | beginEnrollment userId role transactionId source now =>
    simp only [ceremonyStep]
    split_ifs
    · exact h.begun rfl
    · exact h
  | prepare | complete | remove => exact h.begun rfl
  | advance i =>
    simp only [ceremonyStep]
    split
    · rename_i c hi
      refine ⟨(advance_requests settings service s.clock (s.blocked i) s.db c).keyed h.keyed,
        h.exclusive.set ?_, advance_held settings service h hi⟩
      intro l hl
      cases advance_locks settings service s.clock (s.blocked i) s.db c l hl with
      | inl hl => exact .inl (.of_getElem? hi hl)
      | inr hl => exact .inr hl
    · exact h
  | crash i =>
    refine ⟨h.keyed, h.exclusive.set (fun l hl => by cases hl), ?_⟩
    intro c t hc ht
    cases Locks.mem_set hc with
    | inl he => cases he
    | inr hother =>
      obtain ⟨j, -, hj⟩ := hother
      exact h.held c t (List.mem_of_getElem? hj) ht

theorem coherent_start (db : MfaDb) (clock : Instant) (hnone : db.transactions = []) :
    Coherent (Ceremonies.start db clock) := by
  refine ⟨?_, Locks.exclusive_nil, fun c t hc => by cases hc⟩
  simp [Ceremonies.start, hnone, keyed_nil]
end Coherence
end Bantam
