import Bantam.Domain
import Bantam.Lib.Tables

/-! Rows of the migrated schema and the constraints and triggers that statements meet.
A `CHECK` on one row is a field of the row type; the rest is tested on insertion. -/
namespace Bantam
open Tables

inductive JsonValue where
  | str (s : String)
  | int (n : Int)
  | list (items : List String)
  deriving DecidableEq

abbrev JsonObject := List (String × JsonValue)

structure Customer where
  customerId : Uuid
  email : String
  kycStatus : KycStatus
  status : CustomerStatus
  deriving DecidableEq

structure UserAccount where
  userId : Uuid
  email : String
  role : Role
  customerId : Option Uuid
  status : UserStatus
  mfaEnabled : Bool
  owned : role = .customer ↔ customerId.isSome
  deriving DecidableEq

structure BankAccount where
  accountId : Uuid
  customerId : Option Uuid
  accountReference : String
  accountType : AccountType
  currency : String
  status : AccountStatus
  allowNegative : Bool
  openedAt : Instant
  classified :
    (accountType = .system ∧ customerId = none ∧ allowNegative = true) ∨
    (accountType = .current ∧ customerId.isSome ∧ allowNegative = false)
  deriving DecidableEq

structure Transaction where
  transactionId : Uuid
  idempotencyKey : String
  requestId : Uuid
  initiatedByUserId : Uuid
  sourceAccountId : Uuid
  destinationAccountId : Uuid
  amountMinor : Int
  currency : String
  description : String
  transactionType : TransactionType
  reversesTransactionId : Option Uuid
  status : TransactionStatus
  failureReason : Option String
  createdAt : Instant
  postedAt : Option Instant
  amountPos : 0 < amountMinor
  distinct : sourceAccountId ≠ destinationAccountId
  deriving DecidableEq

/-- The columns of `UNIQUE (initiated_by_user_id, idempotency_key)`. -/
def Transaction.identity (t : Transaction) : Uuid × String :=
  (t.initiatedByUserId, t.idempotencyKey)

def Transaction.reverse (t : Transaction) : Transaction := { t with status := .reversed }

structure LedgerEntry where
  ledgerEntryId : Uuid
  transactionId : Uuid
  accountId : Uuid
  amountMinor : Int
  currency : String
  direction : Direction
  entryType : TransactionType
  signed : (direction = .debit ∧ amountMinor < 0) ∨ (direction = .credit ∧ 0 < amountMinor)
  deriving DecidableEq

structure AccountBalance where
  accountId : Uuid
  availableBalanceMinor : Int
  currentBalanceMinor : Int
  currency : String
  lastLedgerEntryId : Option Uuid
  updatedAt : Instant
  notAbove : availableBalanceMinor ≤ currentBalanceMinor
  deriving DecidableEq

/-- The assignments of the balance `UPDATE`; both projections move by the same amount. -/
def AccountBalance.post (delta : Int) (entry : Uuid) (now : Instant) (b : AccountBalance) :
    AccountBalance :=
  { b with
    currentBalanceMinor := b.currentBalanceMinor + delta
    availableBalanceMinor := b.availableBalanceMinor + delta
    lastLedgerEntryId := some entry
    updatedAt := now
    notAbove := by have h := b.notAbove; omega }

structure ScaChallenge where
  challengeId : Uuid
  userId : Uuid
  sourceAccountId : Uuid
  destinationAccountId : Uuid
  amountMinor : Int
  codeHash : String
  status : ChallengeStatus
  expiresAt : Instant
  consumedAt : Option Instant
  amountPos : 0 < amountMinor
  deriving DecidableEq

structure OutboxRow where
  outboxEventId : Uuid
  aggregateType : String
  aggregateId : Uuid
  eventType : String
  eventVersion : Nat
  payload : JsonObject
  status : OutboxStatus
  publishAttempts : Nat
  lastError : Option String
  claimedAt : Option Instant
  createdAt : Instant
  publishedAt : Option Instant
  deriving DecidableEq

/-- A row as its `INSERT` leaves it: the columns not named take their defaults. -/
def OutboxRow.inserted (id : Uuid) (aggregateType : String) (aggregateId : Uuid)
    (eventType : String) (payload : JsonObject) (now : Instant) : OutboxRow where
  outboxEventId := id
  aggregateType := aggregateType
  aggregateId := aggregateId
  eventType := eventType
  eventVersion := 1
  payload := payload
  status := .pending
  publishAttempts := 0
  lastError := none
  claimedAt := none
  createdAt := now
  publishedAt := none

structure AuditEvent where
  auditEventId : Uuid
  actorType : String
  actorId : String
  action : String
  resourceType : String
  resourceId : String
  requestId : Uuid
  correlationId : Uuid
  metadata : JsonObject
  deriving DecidableEq

inductive AdminScope where
  | adminUsers | customers | transactions | risk | audit | asvs
  | aspisAuditors | reconciliation | workflows | attackLab | companyFinancials
  deriving DecidableEq

/-- `ADMIN_PERMISSION_SCOPES` -/
def adminPermissionScopes : List AdminScope :=
  [.adminUsers, .customers, .transactions, .risk, .audit, .asvs,
    .aspisAuditors, .reconciliation, .workflows, .attackLab, .companyFinancials]

structure AdminPermission where
  userId : Uuid
  scope : AdminScope
  deriving DecidableEq

def AdminScope.str : AdminScope → String
  | .adminUsers => "admin_users"
  | .customers => "customers"
  | .transactions => "transactions"
  | .risk => "risk"
  | .audit => "audit"
  | .asvs => "asvs"
  | .aspisAuditors => "aspis_auditors"
  | .reconciliation => "reconciliation"
  | .workflows => "workflows"
  | .attackLab => "attack_lab"
  | .companyFinancials => "company_financials"

structure RiskAlert where
  riskAlertId : Uuid
  transactionId : Uuid
  customerId : Option Uuid
  ruleId : String
  severity : String
  deriving DecidableEq

structure Db where
  customers : List Customer
  users : List UserAccount
  permissions : List AdminPermission
  accounts : List BankAccount
  transactions : List Transaction
  entries : List LedgerEntry
  balances : List AccountBalance
  challenges : List ScaChallenge
  outbox : List OutboxRow
  audit : List AuditEvent
  riskAlerts : List RiskAlert
  deriving DecidableEq

namespace Db

/-- The database after the migrations: every table of the banking core is empty. -/
def migrated : Db := ⟨[], [], [], [], [], [], [], [], [], [], []⟩

def findCustomer (db : Db) (id : Uuid) : Option Customer :=
  lookup Customer.customerId id db.customers
def findUser (db : Db) (id : Uuid) : Option UserAccount :=
  lookup UserAccount.userId id db.users
def findAccount (db : Db) (id : Uuid) : Option BankAccount :=
  lookup BankAccount.accountId id db.accounts
def findBalance (db : Db) (id : Uuid) : Option AccountBalance :=
  lookup AccountBalance.accountId id db.balances
def findTransaction (db : Db) (id : Uuid) : Option Transaction :=
  lookup Transaction.transactionId id db.transactions
def findChallenge (db : Db) (id : Uuid) : Option ScaChallenge :=
  lookup ScaChallenge.challengeId id db.challenges

/-- `SELECT … WHERE initiated_by_user_id = … AND idempotency_key = …` -/
def findByIdempotency (db : Db) (userId : Uuid) (idempotencyKey : String) : Option Transaction :=
  lookup Transaction.identity (userId, idempotencyKey) db.transactions

/-- Raises the given database error unless the constraint holds. -/
def require (e : DatabaseError) (p : Prop) [Decidable p] : Except Failure Unit :=
  if p then .ok () else .error (.database e)

/-- A nullable reference: `NULL` refers to nothing and passes. -/
def references (key : Option Uuid) (keys : List Uuid) : Bool :=
  match key with
  | none => true
  | some k => k ∈ keys

def insertTransaction (row : Transaction) (db : Db) : Except Failure Db := do
  require .numericValueOutOfRange (InBigint row.amountMinor)
  require .uniqueViolation (row.transactionId ∉ db.transactions.map Transaction.transactionId)
  require .uniqueViolation (row.identity ∉ db.transactions.map Transaction.identity)
  require .uniqueViolation
    (∀ t ∈ db.transactions, row.reversesTransactionId.isSome →
      t.reversesTransactionId ≠ row.reversesTransactionId)
  require .foreignKeyViolation (row.initiatedByUserId ∈ db.users.map UserAccount.userId)
  require .foreignKeyViolation (row.sourceAccountId ∈ db.accounts.map BankAccount.accountId)
  require .foreignKeyViolation (row.destinationAccountId ∈ db.accounts.map BankAccount.accountId)
  require .foreignKeyViolation
    (references row.reversesTransactionId
      (row.transactionId :: db.transactions.map Transaction.transactionId))
  return { db with transactions := db.transactions ++ [row] }

def insertEntry (row : LedgerEntry) (db : Db) : Except Failure Db := do
  require .numericValueOutOfRange (InBigint row.amountMinor)
  require .uniqueViolation (row.ledgerEntryId ∉ db.entries.map LedgerEntry.ledgerEntryId)
  require .foreignKeyViolation (row.transactionId ∈ db.transactions.map Transaction.transactionId)
  require .foreignKeyViolation (row.accountId ∈ db.accounts.map BankAccount.accountId)
  return { db with entries := db.entries ++ [row] }

def insertOutbox (row : OutboxRow) (db : Db) : Except Failure Db := do
  require .uniqueViolation (row.outboxEventId ∉ db.outbox.map OutboxRow.outboxEventId)
  return { db with outbox := db.outbox ++ [row] }

def insertAudit (row : AuditEvent) (db : Db) : Except Failure Db := do
  require .uniqueViolation (row.auditEventId ∉ db.audit.map AuditEvent.auditEventId)
  return { db with audit := db.audit ++ [row] }

def insertAccount (row : BankAccount) (db : Db) : Except Failure Db := do
  require .uniqueViolation (row.accountId ∉ db.accounts.map BankAccount.accountId)
  require .uniqueViolation (row.accountReference ∉ db.accounts.map BankAccount.accountReference)
  require .foreignKeyViolation
    (references row.customerId (db.customers.map Customer.customerId))
  return { db with accounts := db.accounts ++ [row] }

/-- The `account_balances_non_negative` trigger on a new row version. -/
def rejectNegativeCustomerBalance (db : Db) (accountId : Uuid) (current available : Int) :
    Except Failure Unit :=
  match db.findAccount accountId with
  | none => .error (.database .raiseException)
  | some account =>
    require .checkViolation
      (¬ (account.allowNegative = false ∧ (current < 0 ∨ available < 0)))

def insertBalance (row : AccountBalance) (db : Db) : Except Failure Db := do
  rejectNegativeCustomerBalance db row.accountId row.currentBalanceMinor row.availableBalanceMinor
  require .uniqueViolation (row.accountId ∉ db.balances.map AccountBalance.accountId)
  return { db with balances := db.balances ++ [row] }

def insertCustomer (row : Customer) (db : Db) : Except Failure Db := do
  require .uniqueViolation (row.customerId ∉ db.customers.map Customer.customerId)
  require .uniqueViolation (row.email ∉ db.customers.map Customer.email)
  return { db with customers := db.customers ++ [row] }

def insertUser (row : UserAccount) (db : Db) : Except Failure Db := do
  require .uniqueViolation (row.userId ∉ db.users.map UserAccount.userId)
  require .uniqueViolation (row.email ∉ db.users.map UserAccount.email)
  require .uniqueViolation
    (∀ u ∈ db.users, row.customerId.isSome → u.customerId ≠ row.customerId)
  require .foreignKeyViolation
    (references row.customerId (db.customers.map Customer.customerId))
  return { db with users := db.users ++ [row] }

def insertPermission (row : AdminPermission) (db : Db) : Except Failure Db := do
  require .uniqueViolation (row ∉ db.permissions)
  require .foreignKeyViolation (row.userId ∈ db.users.map UserAccount.userId)
  return { db with permissions := db.permissions ++ [row] }

def insertChallenge (row : ScaChallenge) (db : Db) : Except Failure Db := do
  require .numericValueOutOfRange (InBigint row.amountMinor)
  require .uniqueViolation (row.challengeId ∉ db.challenges.map ScaChallenge.challengeId)
  require .foreignKeyViolation (row.userId ∈ db.users.map UserAccount.userId)
  require .foreignKeyViolation (row.sourceAccountId ∈ db.accounts.map BankAccount.accountId)
  require .foreignKeyViolation (row.destinationAccountId ∈ db.accounts.map BankAccount.accountId)
  return { db with challenges := db.challenges ++ [row] }

def insertRiskAlert (row : RiskAlert) (db : Db) : Except Failure Db := do
  require .uniqueViolation (row.riskAlertId ∉ db.riskAlerts.map RiskAlert.riskAlertId)
  require .foreignKeyViolation
    (row.transactionId ∈ db.transactions.map Transaction.transactionId)
  require .foreignKeyViolation
    (references row.customerId (db.customers.map Customer.customerId))
  return { db with riskAlerts := db.riskAlerts ++ [row] }

/-- `ON CONFLICT DO NOTHING`: a uniqueness failure leaves the table as it is. -/
def onConflictDoNothing (insert : Db → Except Failure Db) (db : Db) : Except Failure Db :=
  match insert db with
  | .error (.database .uniqueViolation) => .ok db
  | result => result

/-- `UPDATE account_balances SET current = current + delta, available = available + delta`. -/
def addToBalance (accountId : Uuid) (delta : Int) (entry : Uuid) (now : Instant) (db : Db) :
    Except Failure Db :=
  match db.findBalance accountId with
  | none => .ok db
  | some balance => do
    require .numericValueOutOfRange
      (InBigint (balance.currentBalanceMinor + delta) ∧
        InBigint (balance.availableBalanceMinor + delta))
    rejectNegativeCustomerBalance db accountId (balance.currentBalanceMinor + delta)
      (balance.availableBalanceMinor + delta)
    return { db with
      balances := updateWhere (fun b => b.accountId = accountId)
        (AccountBalance.post delta entry now) db.balances }

/-- `UPDATE transactions SET status = 'REVERSED'` under the history trigger. -/
def setReversed (transactionId : Uuid) (db : Db) : Except Failure Db :=
  match db.findTransaction transactionId with
  | none => .ok db
  | some t => do
    require .raiseException (t.status = .posted)
    return { db with
      transactions := updateWhere (fun t => t.transactionId = transactionId)
        Transaction.reverse db.transactions }

/-- The deferred trigger `assert_transaction_balanced`, run at commit. -/
def assertTransactionBalanced (transactionId : Uuid) (db : Db) : Except Failure Db := do
  require .raiseException
    (2 ≤ (db.entries.filter fun e => e.transactionId = transactionId).length ∧
      sumWhere (fun e => e.transactionId = transactionId) LedgerEntry.amountMinor db.entries = 0)
  return db

end Db

theorem require_eq_ok {e : DatabaseError} {p : Prop} [Decidable p] {u : Unit} :
    Db.require e p = .ok u ↔ p := by
  unfold Db.require
  split <;> simp_all
end Bantam
