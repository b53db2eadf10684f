import Bantam.Schema

/-! Transaction-bound strong customer authentication: creation and consumption of
one-time challenges inside the caller's transaction. -/
namespace Bantam
open Tables

/-- `hmac` is `hmac.new(self.secret, ·, hashlib.sha256).hexdigest()`. -/
structure ScaService where
  hmac : String → String
  ttl : Int
  threshold : Int
  demoMode : Bool

namespace ScaService

def required (sca : ScaService) (amountMinor : Int) : Bool := sca.threshold ≤ amountMinor

/-- `SCAService._hash` -/
def hash (sca : ScaService) (challengeId userId sourceAccountId destinationAccountId : Uuid)
    (amountMinor : Int) (code : String) : String :=
  sca.hmac (Uuid.str challengeId ++ ":" ++ Uuid.str userId ++ ":" ++
    Uuid.str sourceAccountId ++ ":" ++ Uuid.str destinationAccountId ++ ":" ++
    toString amountMinor ++ ":" ++ code)

/-- The guards of `validate_and_consume` on the challenge row it has locked. -/
def acceptable (sca : ScaService) (now : Instant) (principal : Principal)
    (sourceAccountId destinationAccountId : Uuid) (amountMinor : Int)
    (challengeId : Uuid) (code : String) (challenge : ScaChallenge) : Bool :=
  challenge.status = .pending && now ≤ challenge.expiresAt &&
  challenge.userId = principal.userId && challenge.sourceAccountId = sourceAccountId &&
  challenge.destinationAccountId = destinationAccountId &&
  challenge.amountMinor = amountMinor &&
  sca.hash challengeId principal.userId sourceAccountId destinationAccountId amountMinor code =
    challenge.codeHash

/-- `UPDATE sca_challenges SET status = 'CONSUMED' … WHERE … AND status = 'PENDING'`. The
statement follows `acceptable` under the row lock, so it always returns its row. -/
def consume (challengeId : Uuid) (databaseNow : Instant) (db : Db) : Db :=
  { db with
    challenges := updateWhere (fun c => c.challengeId = challengeId && c.status = .pending)
      (fun c => { c with status := .consumed, consumedAt := some databaseNow }) db.challenges }

/-- `SCAService.validate_and_consume` -/
def validateAndConsume (sca : ScaService) (now databaseNow : Instant) (principal : Principal)
    (sourceAccountId destinationAccountId : Uuid) (amountMinor : Int)
    (challengeId : Option Uuid) (code : String) (db : Db) : Except Failure Db :=
  if sca.required amountMinor = false then .ok db
  else
    match challengeId with
    | none => .error (.bantam scaRequired)
    | some challengeId =>
      if code.length ≠ 6 ∨ Text.isAscii code = false ∨ Text.isDigit code = false then
        .error (.bantam scaRequired)
      else
        match db.findChallenge challengeId with
        | none => .error (.bantam scaFailed)
        | some challenge =>
          if sca.acceptable now principal sourceAccountId destinationAccountId amountMinor
              challengeId code challenge then
            .ok (consume challengeId databaseNow db)
          else .error (.bantam scaFailed)

/-- `SCAService.create`: the challenge row it stores, or that none is required. -/
def create (sca : ScaService) (now : Instant) (challengeId : Uuid) (code : String)
    (principal : Principal) (sourceAccountId destinationAccountId : Uuid) (amountMinor : Int)
    (db : Db) : Except Failure (Bool × Db) :=
  match principal.customerId with
  | none => .error (.bantam forbidden)
  | some customerId =>
    if ha : amountMinor ≤ 0 then .error (.bantam (validation "amount must be positive"))
    else if sourceAccountId = destinationAccountId then
      .error (.bantam (validation "source and destination must differ"))
    else if ¬ db.accounts.any (fun a => a.accountId = sourceAccountId &&
        a.customerId = some customerId && a.status = .active) then
      .error (.bantam forbidden)
    else if ¬ db.accounts.any (fun a => a.accountId = destinationAccountId &&
        a.status = .active) then
      .error (.bantam notFound)
    else if sca.required amountMinor = false then .ok (false, db)
    else do
      let db ← db.insertChallenge {
        challengeId := challengeId
        userId := principal.userId
        sourceAccountId := sourceAccountId
        destinationAccountId := destinationAccountId
        amountMinor := amountMinor
        codeHash := sca.hash challengeId principal.userId sourceAccountId destinationAccountId
          amountMinor code
        status := .pending
        expiresAt := now + sca.ttl
        consumedAt := none
        amountPos := by omega }
      return (true, db)

section
variable {sca : ScaService} {now databaseNow : Instant} {principal : Principal}
  {sourceAccountId destinationAccountId : Uuid} {amountMinor : Int}
  {challengeId : Option Uuid} {code : String} {db db' : Db}

/-- What a passed authentication does: nothing below the threshold, and above it the
consumption of one acceptable challenge. -/
theorem validateAndConsume_ok
    (h : sca.validateAndConsume now databaseNow principal sourceAccountId destinationAccountId
      amountMinor challengeId code db = .ok db') :
    (sca.required amountMinor = false ∧ db' = db) ∨
    ∃ id challenge, sca.required amountMinor = true ∧ challengeId = some id ∧
      db.findChallenge id = some challenge ∧
      sca.acceptable now principal sourceAccountId destinationAccountId amountMinor
        id code challenge = true ∧ db' = consume id databaseNow db := by
  unfold validateAndConsume at h
  split at h
  · rename_i hr
    cases h
    exact .inl ⟨hr, rfl⟩
  · rename_i hr
    split at h
    · cases h
    · rename_i id
      split at h
      · cases h
      · split at h
        · cases h
        · rename_i challenge hc
          split at h
          · rename_i ha
            cases h
            exact .inr ⟨id, challenge, by simpa using hr, rfl, hc, ha, rfl⟩
          · cases h
end

section
variable (id : Uuid) (now : Instant) (db : Db)

@[simp] theorem consume_customers : (consume id now db).customers = db.customers := rfl
@[simp] theorem consume_users : (consume id now db).users = db.users := rfl
@[simp] theorem consume_permissions : (consume id now db).permissions = db.permissions := rfl
@[simp] theorem consume_accounts : (consume id now db).accounts = db.accounts := rfl
@[simp] theorem consume_transactions : (consume id now db).transactions = db.transactions := rfl
@[simp] theorem consume_entries : (consume id now db).entries = db.entries := rfl
@[simp] theorem consume_balances : (consume id now db).balances = db.balances := rfl
@[simp] theorem consume_outbox : (consume id now db).outbox = db.outbox := rfl
@[simp] theorem consume_riskAlerts : (consume id now db).riskAlerts = db.riskAlerts := rfl
@[simp] theorem consume_audit : (consume id now db).audit = db.audit := rfl
end

end ScaService
end Bantam
