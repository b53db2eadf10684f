import Bantam.Sca

/-! `LedgerService`: the transfer transaction, its replays and the reconciliation.
A statement that raises leaves no trace, so a failed call returns the state it was given. -/
namespace Bantam
open Tables

/-- The dict of `transaction_payload`; an optional key that is absent is `none`. -/
structure TransactionPayload where
  transactionId : Uuid
  idempotencyKey : String
  requestId : Uuid
  sourceAccountId : Uuid
  destinationAccountId : Uuid
  amountMinor : Int
  currency : String
  description : String
  transactionType : TransactionType
  status : TransactionStatus
  failureReason : Option String
  createdAt : Instant
  postedAt : Option Instant
  deriving DecidableEq

/-- The keys present in the payload. -/
def TransactionPayload.fields (p : TransactionPayload) : List String :=
  ["transaction_id", "idempotency_key", "request_id", "source_account_id",
    "destination_account_id", "amount_minor", "currency", "description",
    "transaction_type", "status"] ++
  (if p.failureReason.isSome then ["failure_reason"] else []) ++
  ["created_at"] ++ (if p.postedAt.isSome then ["posted_at"] else [])

def transactionPayload (row : Transaction) : TransactionPayload where
  transactionId := row.transactionId
  idempotencyKey := row.idempotencyKey
  requestId := row.requestId
  sourceAccountId := row.sourceAccountId
  destinationAccountId := row.destinationAccountId
  amountMinor := row.amountMinor
  currency := row.currency
  description := row.description
  transactionType := row.transactionType
  status := row.status
  failureReason := row.failureReason
  createdAt := row.createdAt
  postedAt := row.postedAt

/-- What one call of `create_transfer` draws from `uuid4` and reads from the clocks:
`databaseNow` is the database's `now()`, the start of the transaction. -/
structure Attempt where
  requestId : Uuid
  transactionId : Uuid
  debitEntryId : Uuid
  creditEntryId : Uuid
  outboxEventId : Uuid
  auditEventId : Uuid
  scaNow : Instant
  postedAt : Instant
  databaseNow : Instant
  deriving DecidableEq

/-- One row of the `SELECT … FOR UPDATE OF a, b` in `_lock_accounts`. -/
structure LockedAccount where
  accountId : Uuid
  customerId : Option Uuid
  accountType : AccountType
  currency : String
  status : AccountStatus
  allowNegative : Bool
  balanceMinor : Int
  deriving DecidableEq

def lockedAccount (db : Db) (id : Uuid) : Option LockedAccount :=
  match db.findAccount id, db.findBalance id with
  | some a, some b => some {
      accountId := id
      customerId := a.customerId
      accountType := a.accountType
      currency := a.currency
      status := a.status
      allowNegative := a.allowNegative
      balanceMinor := b.availableBalanceMinor }
  | _, _ => none

/-- `LedgerService._lock_accounts`: the two ids differ, so two rows mean one of each. -/
def lockAccounts (sourceId destinationId : Uuid) (db : Db) :
    Except Failure (LockedAccount × LockedAccount) :=
  match lockedAccount db sourceId, lockedAccount db destinationId with
  | some source, some destination => .ok (source, destination)
  | _, _ => .error (.bantam notFound)

def checkAccounts (cmd : NormalisedCommand) (source destination : LockedAccount) :
    Except Failure Unit :=
  if source.status ≠ .active ∨ destination.status ≠ .active then
    .error (.bantam accountFrozen)
  else if source.currency ≠ cmd.currency ∨ destination.currency ≠ cmd.currency then
    .error (.bantam currencyMismatch)
  else .ok ()

def checkOwner (cmd : NormalisedCommand) (source : LockedAccount) : Except Failure Unit :=
  if cmd.actor.customerId = none ∨ source.customerId = none ∨
      cmd.actor.customerId ≠ source.customerId then
    .error (.bantam forbidden)
  else .ok ()

def kycVerified (db : Db) (customerId : Option Uuid) : Bool :=
  match customerId.bind db.findCustomer with
  | none => false
  | some customer => customer.kycStatus = .verified

def checkKyc (cmd : NormalisedCommand) (db : Db) : Except Failure Unit :=
  if kycVerified db cmd.actor.customerId then .ok () else .error (.bantam kycNotVerified)

/-- The guards on the actor, which an operator override skips. -/
def checkActor (cmd : NormalisedCommand) (source : LockedAccount) (db : Db) :
    Except Failure Unit :=
  if cmd.operatorOverride then .ok ()
  else do
    checkOwner cmd source
    checkKyc cmd db

/-- The authentication of the payment, which an operator override skips as well. -/
def presentChallenge (sca : ScaService) (attempt : Attempt) (cmd : NormalisedCommand) (db : Db) :
    Except Failure Db :=
  if cmd.operatorOverride then .ok db
  else sca.validateAndConsume attempt.scaNow attempt.databaseNow cmd.actor cmd.sourceAccountId
    cmd.destinationAccountId cmd.amountMinor cmd.scaChallengeId cmd.scaCode db

/-- `money.balanced` -/
def balanced (entries : List Int) : Bool := entries.sum = 0

def checkFunds (cmd : NormalisedCommand) (source : LockedAccount) : Except Failure Unit :=
  if source.allowNegative = false ∧ source.balanceMinor < cmd.amountMinor then
    .error (.bantam insufficientFunds)
  else if balanced [-cmd.amountMinor, cmd.amountMinor] = false then
    .error (.runtime "internal ledger invariant failed")
  else .ok ()

/-- The checks of `_validate_reversal` on the original row it has locked. -/
def reversible (cmd : NormalisedCommand) (original : Transaction) : Bool :=
  original.status = .posted && original.transactionType ≠ .reversal &&
  cmd.sourceAccountId = original.destinationAccountId &&
  cmd.destinationAccountId = original.sourceAccountId &&
  cmd.amountMinor = original.amountMinor && cmd.currency = original.currency

/-- `LedgerService._validate_reversal`, when the command reverses a transaction. -/
def validateReversal (cmd : NormalisedCommand) (db : Db) : Except Failure Unit :=
  match cmd.reversesTransactionId with
  | none => .ok ()
  | some id =>
    match db.findTransaction id with
    | none => .error (.bantam notFound)
    | some original =>
      if reversible cmd original then .ok () else .error (.bantam conflict)

def newTransaction (attempt : Attempt) (cmd : NormalisedCommand) : Transaction where
  transactionId := attempt.transactionId
  idempotencyKey := cmd.idempotencyKey
  requestId := cmd.requestId
  initiatedByUserId := cmd.actor.userId
  sourceAccountId := cmd.sourceAccountId
  destinationAccountId := cmd.destinationAccountId
  amountMinor := cmd.amountMinor
  currency := cmd.currency
  description := cmd.description
  transactionType := cmd.transactionType
  reversesTransactionId := cmd.reversesTransactionId
  status := .posted
  failureReason := none
  createdAt := attempt.databaseNow
  postedAt := some attempt.postedAt
  amountPos := cmd.amountPos
  distinct := cmd.distinct

def debitEntry (attempt : Attempt) (cmd : NormalisedCommand) : LedgerEntry where
  ledgerEntryId := attempt.debitEntryId
  transactionId := attempt.transactionId
  accountId := cmd.sourceAccountId
  amountMinor := -cmd.amountMinor
  currency := cmd.currency
  direction := .debit
  entryType := cmd.transactionType
  signed := .inl ⟨rfl, by have h := cmd.amountPos; omega⟩

def creditEntry (attempt : Attempt) (cmd : NormalisedCommand) : LedgerEntry where
  ledgerEntryId := attempt.creditEntryId
  transactionId := attempt.transactionId
  accountId := cmd.destinationAccountId
  amountMinor := cmd.amountMinor
  currency := cmd.currency
  direction := .credit
  entryType := cmd.transactionType
  signed := .inr ⟨rfl, cmd.amountPos⟩

def transferEvent (attempt : Attempt) (cmd : NormalisedCommand) : OutboxRow :=
  OutboxRow.inserted attempt.outboxEventId "transaction" attempt.transactionId
    "payment.transfer_posted.v1"
    [("transaction_id", .str (Uuid.str attempt.transactionId)),
      ("source_account_id", .str (Uuid.str cmd.sourceAccountId)),
      ("destination_account_id", .str (Uuid.str cmd.destinationAccountId)),
      ("amount_minor", .int cmd.amountMinor),
      ("currency", .str cmd.currency),
      ("transaction_type", .str cmd.transactionType.str),
      ("initiated_by_user_id", .str (Uuid.str cmd.actor.userId))]
    attempt.databaseNow

def transferAudit (attempt : Attempt) (cmd : NormalisedCommand) : AuditEvent where
  auditEventId := attempt.auditEventId
  actorType := "USER"
  actorId := Uuid.str cmd.actor.userId
  action := "LEDGER_POSTED"
  resourceType := "transaction"
  resourceId := Uuid.str attempt.transactionId
  requestId := cmd.requestId
  correlationId := cmd.requestId
  metadata := [("amount_minor", .int cmd.amountMinor), ("currency", .str cmd.currency),
    ("type", .str cmd.transactionType.str)]

/-- The status update of the original, when the command reverses one. -/
def markReversed (reversesTransactionId : Option Uuid) (db : Db) : Except Failure Db :=
  match reversesTransactionId with
  | none => .ok db
  | some id => db.setReversed id

/-- The writing statements of `create_transfer`, in order, with the check at commit. -/
def postTransfer (attempt : Attempt) (cmd : NormalisedCommand) (db : Db) :
    Except Failure Db := do
  let db ← db.insertTransaction (newTransaction attempt cmd)
  let db ← db.insertEntry (debitEntry attempt cmd)
  let db ← db.insertEntry (creditEntry attempt cmd)
  let db ← db.addToBalance cmd.sourceAccountId (-cmd.amountMinor) attempt.debitEntryId
    attempt.databaseNow
  let db ← db.addToBalance cmd.destinationAccountId cmd.amountMinor attempt.creditEntryId
    attempt.databaseNow
  let db ← markReversed cmd.reversesTransactionId db
  let db ← db.insertOutbox (transferEvent attempt cmd)
  let db ← db.insertAudit (transferAudit attempt cmd)
  db.assertTransactionBalanced attempt.transactionId

/-- The dict that a first call assembles from the values it has in memory. -/
def firstResponse (attempt : Attempt) (cmd : NormalisedCommand) : TransactionPayload where
  transactionId := attempt.transactionId
  idempotencyKey := cmd.idempotencyKey
  requestId := cmd.requestId
  sourceAccountId := cmd.sourceAccountId
  destinationAccountId := cmd.destinationAccountId
  amountMinor := cmd.amountMinor
  currency := cmd.currency
  description := cmd.description
  transactionType := cmd.transactionType
  status := .posted
  failureReason := none
  createdAt := attempt.postedAt
  postedAt := some attempt.postedAt

/-- The database transaction of `create_transfer`, from the lookup under the lock on. -/
def transferTransaction (sca : ScaService) (attempt : Attempt) (cmd : NormalisedCommand)
    (db : Db) : Except Failure ((TransactionPayload × Bool) × Db) :=
  match db.findByIdempotency cmd.actor.userId cmd.idempotencyKey with
  | some existing => .ok ((transactionPayload existing, true), db)
  | none => do
    let (source, destination) ← lockAccounts cmd.sourceAccountId cmd.destinationAccountId db
    checkAccounts cmd source destination
    checkActor cmd source db
    let db ← presentChallenge sca attempt cmd db
    checkFunds cmd source
    validateReversal cmd db
    let db ← postTransfer attempt cmd db
    return ((firstResponse attempt cmd, false), db)

/-- The handler of `errors.UniqueViolation`. -/
def uniqueViolationFallback (cmd : NormalisedCommand) (db : Db) :
    Except Failure (TransactionPayload × Bool) :=
  match db.findByIdempotency cmd.actor.userId cmd.idempotencyKey with
  | some existing => .ok (transactionPayload existing, true)
  | none => .error (.bantam conflict)

/-- `create_transfer` after normalisation. -/
def transferNormalised (sca : ScaService) (attempt : Attempt) (cmd : NormalisedCommand)
    (db : Db) : Except Failure (TransactionPayload × Bool) × Db :=
  match db.findByIdempotency cmd.actor.userId cmd.idempotencyKey with
  | some existing => (.ok (transactionPayload existing, true), db)
  | none =>
    match transferTransaction sca attempt cmd db with
    | .ok (result, db') => (.ok result, db')
    | .error (.database .uniqueViolation) => (uniqueViolationFallback cmd db, db)
    | .error e => (.error e, db)

/-- `LedgerService.create_transfer`, run alone. -/
def createTransfer (sca : ScaService) (attempt : Attempt) (command : TransferCommand)
    (db : Db) : Except Failure (TransactionPayload × Bool) × Db :=
  match normalise attempt.requestId command with
  | .error e => (.error e, db)
  | .ok cmd => transferNormalised sca attempt cmd db

/-- One row of `reconcile`. -/
structure Reconciliation where
  accountId : Uuid
  projectedBalanceMinor : Int
  authoritativeBalanceMinor : Int
  isMatch : Bool
  deriving DecidableEq

/-- `SUM(e.amount_minor)` over the entries of one account. -/
def authoritative (db : Db) (accountId : Uuid) : Int :=
  sumWhere (fun e => e.accountId = accountId) LedgerEntry.amountMinor db.entries

def reconcileRow (db : Db) (b : AccountBalance) : Reconciliation where
  accountId := b.accountId
  projectedBalanceMinor := b.currentBalanceMinor
  authoritativeBalanceMinor := authoritative db b.accountId
  isMatch := b.currentBalanceMinor = authoritative db b.accountId

/-- `LedgerService.reconcile`; the sum is cast to `bigint`, which raises when it does not fit. -/
def reconcile (db : Db) : Except Failure (List Reconciliation) :=
  db.balances.mapM fun b =>
    if InBigint (authoritative db b.accountId) then .ok (reconcileRow db b)
    else .error (.database .numericValueOutOfRange)
end Bantam
