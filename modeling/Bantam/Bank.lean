import Bantam.Access
import Bantam.Posting

/-! The operations of the application on the banking tables and the serial machine they
make: each runs in one database transaction, and one that raises changes nothing. -/
namespace Bantam
open Tables

/-- What a handler draws from `uuid4` and reads from the clocks, and the id of its request. -/
structure Draw where
  requestId : Uuid
  rowId : Uuid
  userId : Uuid
  outboxEventId : Uuid
  auditEventId : Uuid
  now : Instant
  databaseNow : Instant
  deriving DecidableEq

/-- `request_audit` and `audit.record`, less the client address and agent. -/
def requestAudit (draw : Draw) (actorId : Uuid) (action resourceType resourceId : String)
    (metadata : JsonObject := []) : AuditEvent where
  auditEventId := draw.auditEventId
  actorType := "USER"
  actorId := Uuid.str actorId
  action := action
  resourceType := resourceType
  resourceId := resourceId
  requestId := draw.requestId
  correlationId := draw.requestId
  metadata := metadata

def invalidKycState (message : String) : BantamError := ⟨"INVALID_KYC_STATE", message, 409⟩
def customerNotFound : BantamError := ⟨"NOT_FOUND", "customer profile was not found", 404⟩
def accountNotFound : BantamError := ⟨"NOT_FOUND", "account was not found", 404⟩
def customerNotVerified : BantamError :=
  ⟨"KYC_NOT_VERIFIED", "an active, KYC-verified customer is required", 422⟩
def unsupportedCurrency : BantamError :=
  ⟨"UNSUPPORTED_CURRENCY", "only GBP is supported in V1", 422⟩

section Handlers
variable (settings : Settings) (sca : ScaService)

/-- `register`, from its database transaction on; `email` passed the input checks. -/
def register (draw : Draw) (email : String) (db : Db) : Except Failure Db := do
  let db ← db.insertCustomer {
    customerId := draw.rowId, email := email, kycStatus := .pending, status := .active }
  let db ← db.insertUser {
    userId := draw.userId, email := email, role := .customer, customerId := some draw.rowId,
    status := .active, mfaEnabled := false, owned := by simp }
  let db ← db.insertOutbox (OutboxRow.inserted draw.outboxEventId "customer" draw.rowId
    "customer.created.v1"
    [("customer_id", .str (Uuid.str draw.rowId)), ("kyc_status", .str "PENDING_KYC")]
    draw.databaseNow)
  db.insertAudit (requestAudit draw draw.userId "CUSTOMER_REGISTERED" "customer"
    (Uuid.str draw.rowId))

def grantPermissions (userId : Uuid) : List AdminScope → Db → Except Failure Db
  | [], db => .ok db
  | scope :: scopes, db => do
    let db ← db.insertPermission ⟨userId, scope⟩
    grantPermissions userId scopes db

/-- `grant_bank_admin_permissions` -/
def grantBankAdminPermissions (userId : Uuid) : List AdminScope → Db → Except Failure Db
  | [], db => .ok db
  | scope :: scopes, db => do
    let db ← Db.onConflictDoNothing (fun db => db.insertPermission ⟨userId, scope⟩) db
    grantBankAdminPermissions userId scopes db

def insertAdministrator (userId : Uuid) (email : String) (db : Db) : Except Failure Db :=
  db.insertUser {
    userId := userId, email := email, role := .bankAdmin, customerId := none, status := .active,
    mfaEnabled := false, owned := by simp }

/-- `admin_create_user`, after the input checks and the check of a recent second factor. -/
def adminCreateUser (draw : Draw) (principal : Principal) (email : String)
    (permissions : List AdminScope) (db : Db) : Except Failure Db := do
  requireRoles [.bankAdmin] principal db
  requireAdminScope settings principal .adminUsers db
  let db ← insertAdministrator draw.userId email db
  let db ← grantPermissions draw.userId permissions db
  db.insertAudit (requestAudit draw principal.userId "ADMIN_USER_CREATED" "user_account"
    (Uuid.str draw.userId) [("subject_email", .str email)])

/-- `bootstrap_bank_admin`; an address that another role holds raises `ValueError`. -/
def bootstrapBankAdmin (draw : Draw) (email : String) (db : Db) : Except Failure Db :=
  match lookup UserAccount.email email db.users with
  | some existing =>
    if existing.role ≠ .bankAdmin then
      .error (.runtime "bootstrap email belongs to a different account role")
    else grantBankAdminPermissions existing.userId adminPermissionScopes db
  | none => do
    let db ← insertAdministrator draw.userId email db
    let db ← grantBankAdminPermissions draw.userId adminPermissionScopes db
    db.insertAudit {
      auditEventId := draw.auditEventId, actorType := "SYSTEM",
      actorId := "bank-admin-bootstrap", action := "BANK_ADMIN_BOOTSTRAPPED",
      resourceType := "user_account", resourceId := Uuid.str draw.userId,
      requestId := draw.requestId, correlationId := draw.requestId,
      metadata := [("role", .str (Role.str .bankAdmin))] }

/-- An `UPDATE customers SET kyc_status = … WHERE customer_id = … AND kyc_status IN …`. -/
def updateKyc (customerId : Uuid) (allowed : List KycStatus) (next : KycStatus)
    (message : String) (db : Db) : Except Failure Db :=
  let targets := fun c : Customer => decide (c.customerId = customerId ∧ c.kycStatus ∈ allowed)
  if db.customers.any targets then
    .ok { db with
      customers := updateWhere targets (fun c => { c with kycStatus := next }) db.customers }
  else .error (.bantam (invalidKycState message))

def submitKyc (draw : Draw) (principal : Principal) (db : Db) : Except Failure Db := do
  requireRoles [.customer] principal db
  match principal.customerId with
  | none => .error (.bantam forbidden)
  | some customerId =>
    let db ← updateKyc customerId [.pending, .rejected] .review
      "KYC cannot be submitted in its current state" db
    db.insertAudit (requestAudit draw principal.userId "KYC_SUBMITTED" "customer"
      (Uuid.str customerId))

/-- `admin_decide_kyc`, once the decision text was read as an approval or a rejection. -/
def adminDecideKyc (draw : Draw) (principal : Principal) (customerId : Uuid) (approve : Bool)
    (reason : String) (db : Db) : Except Failure Db := do
  requireRoles [.bankAdmin] principal db
  requireAdminScope settings principal .customers db
  let decision := if approve then "KYC_VERIFIED" else "KYC_REJECTED"
  let eventType := if approve then "customer.kyc_verified.v1" else "customer.kyc_rejected.v1"
  let db ← updateKyc customerId [.review] (if approve then .verified else .rejected)
    "customer must be pending KYC review" db
  let db ← db.insertOutbox (OutboxRow.inserted draw.outboxEventId "customer" customerId eventType
    [("customer_id", .str (Uuid.str customerId)), ("kyc_status", .str decision)]
    draw.databaseNow)
  db.insertAudit (requestAudit draw principal.userId "KYC_DECIDED" "customer"
    (Uuid.str customerId) [("decision", .str decision), ("reason", .str reason)])

/-- `"XB-" + account_id.hex[:12].upper()` -/
def accountReference (accountId : Uuid) : String :=
  "XB-" ++ Text.upper (String.ofList ((Text.hexDigits 32 accountId.toNat).take 12))

/-- `input.currency.strip().upper() or "GBP"` -/
def requestedCurrency (currency : String) : String :=
  let currency := Text.upper (Text.strip currency)
  if currency = "" then "GBP" else currency

/-- The two rows of a new account: the account and its empty balance. -/
def insertOpened (account : BankAccount) (databaseNow : Instant) (db : Db) :
    Except Failure Db := do
  let db ← db.insertAccount account
  db.insertBalance {
    accountId := account.accountId, availableBalanceMinor := 0, currentBalanceMinor := 0,
    currency := account.currency, lastLedgerEntryId := none, updatedAt := databaseNow,
    notAbove := Int.le_refl 0 }

def openAccount (draw : Draw) (principal : Principal) (currency : String) (db : Db) :
    Except Failure Db := do
  requireRoles [.customer] principal db
  match principal.customerId with
  | none => .error (.bantam forbidden)
  | some customerId =>
    let currency := requestedCurrency currency
    if currency ≠ "GBP" then .error (.bantam unsupportedCurrency)
    else
      match db.findCustomer customerId with
      | none => .error (.bantam customerNotFound)
      | some customer =>
        if customer.kycStatus ≠ .verified ∨ customer.status ≠ .active then
          .error (.bantam customerNotVerified)
        else do
          let db ← insertOpened {
            accountId := draw.rowId, customerId := some customerId,
            accountReference := accountReference draw.rowId, accountType := .current,
            currency := currency, status := .active, allowNegative := false,
            openedAt := draw.now, classified := by simp } draw.databaseNow db
          let db ← db.insertOutbox (OutboxRow.inserted draw.outboxEventId "account" draw.rowId
            "account.opened.v1"
            [("account_id", .str (Uuid.str draw.rowId)),
              ("customer_id", .str (Uuid.str customerId)), ("currency", .str currency)]
            draw.databaseNow)
          db.insertAudit (requestAudit draw principal.userId "ACCOUNT_OPENED" "bank_account"
            (Uuid.str draw.rowId))

/-- The `UPDATE` of a freeze or an unfreeze reaches open customer accounts only. -/
def updateStatus (accountId : Uuid) (status : AccountStatus) (db : Db) : Except Failure Db :=
  let targets := fun a : BankAccount =>
    decide (a.accountId = accountId ∧ a.accountType = .current ∧ a.status ≠ .closed)
  if db.accounts.any targets then
    .ok { db with
      accounts := updateWhere targets (fun a => { a with status := status }) db.accounts }
  else .error (.bantam accountNotFound)

/-- `operator_set_account_status`, once the status text was read as `FROZEN` or `ACTIVE`. -/
def operatorSetAccountStatus (draw : Draw) (principal : Principal) (accountId : Uuid)
    (freeze : Bool) (reason : String) (db : Db) : Except Failure Db := do
  requireRoles [.bankAdmin, .riskAnalyst] principal db
  requireAdminScope settings principal .transactions db
  let eventType := if freeze then "account.frozen.v1" else "account.unfrozen.v1"
  let action := if freeze then "ACCOUNT_FROZEN" else "ACCOUNT_UNFROZEN"
  let status := if freeze then "FROZEN" else "ACTIVE"
  let db ← updateStatus accountId (if freeze then .frozen else .active) db
  let db ← db.insertOutbox (OutboxRow.inserted draw.outboxEventId "account" accountId eventType
    [("account_id", .str (Uuid.str accountId)), ("status", .str status), ("reason", .str reason)]
    draw.databaseNow)
  db.insertAudit (requestAudit draw principal.userId action "bank_account" (Uuid.str accountId)
    [("reason", .str reason)])

/-- `create_sca_challenge`; the challenge commits before its audit record is written. -/
def createScaChallenge (draw : Draw) (principal : Principal) (code : String)
    (sourceAccountId destinationAccountId : Uuid) (amountMinor : Int) (db : Db) :
    Except Failure Db := do
  requireRoles [.customer] principal db
  let (required, db) ← sca.create draw.now draw.rowId code principal sourceAccountId
    destinationAccountId amountMinor db
  let event := requestAudit draw principal.userId
    (if required then "SCA_CHALLENGE_CREATED" else "SCA_NOT_REQUIRED") "sca_challenge"
    (Uuid.str (if required then draw.rowId else sourceAccountId))
    [("source_account_id", .str (Uuid.str sourceAccountId)),
      ("destination_account_id", .str (Uuid.str destinationAccountId)),
      ("amount_minor", .int amountMinor)]
  match db.insertAudit event with
  | .ok db => .ok db
  | .error _ => .ok db

/-- `create_risk_alert` on the payload of a transfer event. -/
def createRiskAlert (draw : Draw) (threshold : Int) (transactionId sourceAccountId
    destinationAccountId : Uuid) (amountMinor : Int) (db : Db) : Except Failure Db :=
  if amountMinor ≤ threshold then .ok db
  else
    let customerId := match db.findAccount sourceAccountId, db.findAccount destinationAccountId with
      | some source, some destination => source.customerId.or destination.customerId
      | _, _ => none
    if db.riskAlerts.any fun a =>
        a.transactionId = transactionId && a.ruleId = "HIGH_VALUE_TRANSFER" then .ok db
    else do
      let db ← db.insertRiskAlert {
        riskAlertId := draw.rowId, transactionId := transactionId, customerId := customerId,
        ruleId := "HIGH_VALUE_TRANSFER", severity := "HIGH" }
      let db ← db.insertOutbox (OutboxRow.inserted draw.outboxEventId "risk_alert" draw.rowId
        "risk.transaction_flagged.v1"
        [("risk_alert_id", .str (Uuid.str draw.rowId)),
          ("transaction_id", .str (Uuid.str transactionId)),
          ("rule_id", .str "HIGH_VALUE_TRANSFER"), ("severity", .str "HIGH")]
        draw.databaseNow)
      db.insertAudit {
        auditEventId := draw.auditEventId, actorType := "SERVICE", actorId := "risk-worker",
        action := "RISK_ALERT_CREATED", resourceType := "risk_alert",
        resourceId := Uuid.str draw.rowId, requestId := draw.requestId,
        correlationId := transactionId,
        metadata := [("rule_id", .str "HIGH_VALUE_TRANSFER"), ("amount_minor", .int amountMinor)] }
end Handlers

/-! Seeding. -/

def adminUserId : Uuid := 0x10000000000000000000000000000001#128
def riskUserId : Uuid := 0x10000000000000000000000000000002#128
def auditUserId : Uuid := 0x10000000000000000000000000000003#128
def aliceUserId : Uuid := 0x10000000000000000000000000000004#128
def bobUserId : Uuid := 0x10000000000000000000000000000005#128
def aliceCustomerId : Uuid := 0x20000000000000000000000000000001#128
def bobCustomerId : Uuid := 0x20000000000000000000000000000002#128
def treasuryAccountId : Uuid := 0x30000000000000000000000000000001#128
def aliceAccountId : Uuid := 0x30000000000000000000000000000002#128
def bobAccountId : Uuid := 0x30000000000000000000000000000003#128

def seedCustomers : List Customer :=
  [⟨aliceCustomerId, "alice@bantam.local", .verified, .active⟩,
    ⟨bobCustomerId, "bob@bantam.local", .verified, .active⟩]

def seedUsers : List UserAccount :=
  [⟨adminUserId, "admin@bantam.local", .bankAdmin, none, .active, false, by simp⟩,
    ⟨riskUserId, "risk@bantam.local", .riskAnalyst, none, .active, false, by simp⟩,
    ⟨auditUserId, "auditor@bantam.local", .complianceAuditor, none, .active, false, by simp⟩,
    ⟨aliceUserId, "alice@bantam.local", .customer, some aliceCustomerId, .active, false, by simp⟩,
    ⟨bobUserId, "bob@bantam.local", .customer, some bobCustomerId, .active, false, by simp⟩]

def seedAccounts (databaseNow : Instant) : List BankAccount :=
  [⟨treasuryAccountId, none, "XB-TREASURY", .system, "GBP", .active, true, databaseNow, by simp⟩,
    ⟨aliceAccountId, some aliceCustomerId, "XB-ALICE-001", .current, "GBP", .active, false,
      databaseNow, by simp⟩,
    ⟨bobAccountId, some bobCustomerId, "XB-BOB-001", .current, "GBP", .active, false,
      databaseNow, by simp⟩]

def emptyBalance (databaseNow : Instant) (accountId : Uuid) : AccountBalance :=
  ⟨accountId, 0, 0, "GBP", none, databaseNow, Int.le_refl 0⟩

def seedBalances (databaseNow : Instant) : List AccountBalance :=
  [treasuryAccountId, aliceAccountId, bobAccountId].map (emptyBalance databaseNow)

/-- `INSERT … VALUES (…), … ON CONFLICT DO NOTHING`, row by row. -/
def insertEach {ρ : Type} (insert : ρ → Db → Except Failure Db) :
    List ρ → Db → Except Failure Db
  | [], db => .ok db
  | row :: rows, db => do
    let db ← Db.onConflictDoNothing (insert row) db
    insertEach insert rows db

/-- The database transaction of `seed`. -/
def seedRows (databaseNow : Instant) (db : Db) : Except Failure Db := do
  let db ← insertEach Db.insertCustomer seedCustomers db
  let db ← insertEach Db.insertUser seedUsers db
  let db ← grantBankAdminPermissions adminUserId adminPermissionScopes db
  let db ← insertEach Db.insertAccount (seedAccounts databaseNow) db
  insertEach Db.insertBalance (seedBalances databaseNow) db

/-- The opening deposits that `seed` posts after its rows. -/
def openingDeposit (requestId : Uuid) (key : String) (destination : Uuid) (amount : Int) :
    TransferCommand where
  requestId := some requestId
  idempotencyKey := key
  actor := { userId := adminUserId, role := .bankAdmin }
  sourceAccountId := treasuryAccountId
  destinationAccountId := destination
  amountMinor := amount
  currency := "GBP"
  description := "Synthetic opening balance"
  operatorOverride := true
  transactionType := some .demoDeposit

/-- An operation other than a transfer. -/
inductive Operation where
  | register (draw : Draw) (email : String)
  | adminCreateUser (draw : Draw) (principal : Principal) (email : String)
      (permissions : List AdminScope)
  | bootstrapBankAdmin (draw : Draw) (email : String)
  | submitKyc (draw : Draw) (principal : Principal)
  | adminDecideKyc (draw : Draw) (principal : Principal) (customerId : Uuid) (approve : Bool)
      (reason : String)
  | openAccount (draw : Draw) (principal : Principal) (currency : String)
  | operatorSetAccountStatus (draw : Draw) (principal : Principal) (accountId : Uuid)
      (freeze : Bool) (reason : String)
  | createScaChallenge (draw : Draw) (principal : Principal) (code : String)
      (sourceAccountId destinationAccountId : Uuid) (amountMinor : Int)
  | createRiskAlert (draw : Draw) (threshold : Int) (transactionId sourceAccountId
      destinationAccountId : Uuid) (amountMinor : Int)
  | seedRows (databaseNow : Instant)
  | recordAudit (event : AuditEvent)
  deriving DecidableEq

def Operation.perform (settings : Settings) (sca : ScaService) :
    Operation → Db → Except Failure Db
  | .register draw email => Bantam.register draw email
  | .adminCreateUser draw principal email permissions =>
    Bantam.adminCreateUser settings draw principal email permissions
  | .bootstrapBankAdmin draw email => Bantam.bootstrapBankAdmin draw email
  | .submitKyc draw principal => Bantam.submitKyc draw principal
  | .adminDecideKyc draw principal customerId approve reason =>
    Bantam.adminDecideKyc settings draw principal customerId approve reason
  | .openAccount draw principal currency => Bantam.openAccount draw principal currency
  | .operatorSetAccountStatus draw principal accountId freeze reason =>
    Bantam.operatorSetAccountStatus settings draw principal accountId freeze reason
  | .createScaChallenge draw principal code source destination amountMinor =>
    Bantam.createScaChallenge sca draw principal code source destination amountMinor
  | .createRiskAlert draw threshold transactionId source destination amountMinor =>
    Bantam.createRiskAlert draw threshold transactionId source destination amountMinor
  | .seedRows databaseNow => Bantam.seedRows databaseNow
  | .recordAudit event => Db.insertAudit event

inductive BankEvent where
  | operation (o : Operation)
  | transfer (attempt : Attempt) (command : TransferCommand)
  deriving DecidableEq

/-- One committed or rejected operation of the serial machine. -/
def bankStep (settings : Settings) (sca : ScaService) (db : Db) : BankEvent → Db
  | .operation o =>
    match o.perform settings sca db with
    | .ok db' => db'
    | .error _ => db
  | .transfer attempt command => (createTransfer sca attempt command db).2

/-- `seed`: the rows, then one transfer for each opening balance. -/
def seed (databaseNow : Instant) (alice bob : Attempt) : List BankEvent :=
  [.operation (.seedRows databaseNow),
    .transfer alice (openingDeposit alice.requestId "seed-alice-opening-balance-v1"
      aliceAccountId 250000),
    .transfer bob (openingDeposit bob.requestId "seed-bob-opening-balance-v1"
      bobAccountId 100000)]

/-! Concrete parameters for runs that are evaluated. -/

def sampleSettings : Settings := ⟨fun _ => false⟩
def sampleSca : ScaService := ⟨id, minutes 5, 10000, true⟩

/-- The `n`-th attempt, with the application clock at `postedAt` and the database's at `now`. -/
def sampleAttempt (n : Nat) (postedAt now : Instant) : Attempt where
  requestId := BitVec.ofNat 128 (16 * n)
  transactionId := BitVec.ofNat 128 (16 * n + 1)
  debitEntryId := BitVec.ofNat 128 (16 * n + 2)
  creditEntryId := BitVec.ofNat 128 (16 * n + 3)
  outboxEventId := BitVec.ofNat 128 (16 * n + 4)
  auditEventId := BitVec.ofNat 128 (16 * n + 5)
  scaNow := postedAt
  postedAt := postedAt
  databaseNow := now

def sampleDraw (n : Nat) : Draw :=
  ⟨BitVec.ofNat 128 (256 * n), BitVec.ofNat 128 (256 * n + 1), BitVec.ofNat 128 (256 * n + 2),
    BitVec.ofNat 128 (256 * n + 3), BitVec.ofNat 128 (256 * n + 4), 9, 9⟩

def sampleCustomer : Principal :=
  { userId := aliceUserId, role := .customer, customerId := some aliceCustomerId }

/-- A deposit from the treasury by the seeded administrator. -/
def sampleDeposit (key : String) (amount : Int) : TransferCommand :=
  openingDeposit 7 key aliceAccountId amount
end Bantam
