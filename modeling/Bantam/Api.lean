import Bantam.Replay

/-! The three handlers that move money: what each reads before it calls the ledger, and
what it does with the ledger's answer. Rate limits and the validation of input bodies come
before these bodies and look at the request alone. -/
namespace Bantam
open Tables

def systemAccountMissing : BantamError :=
  ⟨"SYSTEM_ACCOUNT_MISSING", "run the seed command to create the demo treasury account", 409⟩
def transactionNotFound : BantamError := ⟨"NOT_FOUND", "transaction was not found", 404⟩
def notReversible : BantamError :=
  ⟨"NOT_REVERSIBLE", "only posted transactions can be reversed", 409⟩

structure TransferRequest where
  sourceAccountId : Uuid
  destinationAccountId : Uuid
  amountMinor : Int
  currency : String
  description : String := ""
  scaChallengeId : Option Uuid := none
  scaCode : String := ""

structure DemoDepositRequest where
  amountMinor : Int
  currency : String := "GBP"
  description : String := ""

structure ReverseRequest where
  reason : String

/-- A request to one of the three routes: its path, its body and its key header. -/
inductive MoneyRequest where
  | createTransfer (input : TransferRequest) (idempotencyKey : Option String)
  | adminDemoDeposit (accountId : Uuid) (input : DemoDepositRequest)
      (idempotencyKey : Option String)
  | adminReverseTransaction (transactionId : Uuid) (input : ReverseRequest)
      (idempotencyKey : Option String)

namespace Api
variable (settings : Settings) (sca : ScaService)

def transferCommand (requestId : Uuid) (principal : Principal) (key : String)
    (input : TransferRequest) : TransferCommand where
  requestId := some requestId
  idempotencyKey := key
  actor := principal
  sourceAccountId := input.sourceAccountId
  destinationAccountId := input.destinationAccountId
  amountMinor := input.amountMinor
  currency := input.currency
  description := input.description
  scaChallengeId := input.scaChallengeId
  scaCode := input.scaCode

/-- The active GBP system account; `LIMIT 1` without an order may pick any of them. -/
def systemAccount (db : Db) : Option Uuid :=
  (db.accounts.find? fun a =>
    a.accountType = .system && a.currency = "GBP" && a.status = .active).map BankAccount.accountId

def depositCommand (requestId : Uuid) (principal : Principal) (key : String)
    (system accountId : Uuid) (input : DemoDepositRequest) : TransferCommand where
  requestId := some requestId
  idempotencyKey := key
  actor := principal
  sourceAccountId := system
  destinationAccountId := accountId
  amountMinor := input.amountMinor
  currency := if input.currency = "" then "GBP" else input.currency
  description := input.description
  operatorOverride := true
  transactionType := some .demoDeposit

def reversalCommand (requestId : Uuid) (principal : Principal) (key : String)
    (original : Transaction) (transactionId : Uuid) (input : ReverseRequest) :
    TransferCommand where
  requestId := some requestId
  idempotencyKey := key
  actor := principal
  sourceAccountId := original.destinationAccountId
  destinationAccountId := original.sourceAccountId
  amountMinor := original.amountMinor
  currency := original.currency
  description := "Reversal: " ++ Text.strip input.reason
  operatorOverride := true
  transactionType := some .reversal
  reversesTransactionId := some transactionId

/-- The gates of the route: the role of the session and, for an administrator, the scope. -/
def authorise (principal : Principal) (db : Db) : MoneyRequest → Except Failure Unit
  | .createTransfer _ _ => requireRoles [.customer] principal db
  | .adminDemoDeposit _ _ _ | .adminReverseTransaction _ _ _ => do
    requireRoles [.bankAdmin] principal db
    requireAdminScope settings principal .transactions db

/-- The body of `create_transfer` up to the call of the ledger. -/
def createTransfer (requestId : Uuid) (principal : Principal) (input : TransferRequest)
    (idempotencyKey : Option String) : Except Failure TransferCommand := do
  let key ← requireIdempotencyKey idempotencyKey
  return transferCommand requestId principal key input

/-- The body of `admin_demo_deposit` up to the call of the ledger. -/
def adminDemoDeposit (requestId : Uuid) (principal : Principal) (accountId : Uuid)
    (input : DemoDepositRequest) (idempotencyKey : Option String) (db : Db) :
    Except Failure TransferCommand := do
  let key ← requireIdempotencyKey idempotencyKey
  match systemAccount db with
  | none => .error (.bantam systemAccountMissing)
  | some system => return depositCommand requestId principal key system accountId input

/-- The body of `admin_reverse_transaction` up to the call of the ledger. -/
def adminReverseTransaction (requestId : Uuid) (principal : Principal) (transactionId : Uuid)
    (input : ReverseRequest) (idempotencyKey : Option String) (db : Db) :
    Except Failure TransferCommand := do
  let key ← requireIdempotencyKey idempotencyKey
  match db.findTransaction transactionId with
  | none => .error (.bantam transactionNotFound)
  | some original =>
    if original.status ≠ .posted then .error (.bantam notReversible)
    else return reversalCommand requestId principal key original transactionId input

/-- What the request's handler asks of the ledger. -/
def command (requestId : Uuid) (principal : Principal) (db : Db) :
    MoneyRequest → Except Failure TransferCommand
  | .createTransfer input key => createTransfer requestId principal input key
  | .adminDemoDeposit accountId input key =>
    adminDemoDeposit requestId principal accountId input key db
  | .adminReverseTransaction transactionId input key =>
    adminReverseTransaction requestId principal transactionId input key db

/-- The audit record of a failed customer transfer. -/
def transferFailed (draw : Draw) (principal : Principal) (input : TransferRequest)
    (error : BantamError) : AuditEvent :=
  requestAudit draw principal.userId "TRANSFER_FAILED" "bank_account"
    (Uuid.str input.sourceAccountId)
    [("destination_account_id", .str (Uuid.str input.destinationAccountId)),
      ("amount_minor", .int input.amountMinor), ("reason", .str error.message)]

/-- What a handler makes of the ledger's answer. Only the customer's one catches an error:
it records it and raises it again. -/
def answer (draw : Draw) (principal : Principal) (request : MoneyRequest) :
    Except Failure (TransactionPayload × Bool) × Db →
      Except Failure (TransactionPayload × Bool) × Db
  | (.error (.bantam e), db) =>
    match request with
    | .createTransfer input _ =>
      match db.insertAudit (transferFailed draw principal input e) with
      | .ok db' => (.error (.bantam e), db')
      | .error failure => (.error failure, db)
    | _ => (.error (.bantam e), db)
  | result => result

/-- A request to a money route, from its gates to its answer. -/
def handle (attempt : Attempt) (draw : Draw) (principal : Principal) (request : MoneyRequest)
    (db : Db) : Except Failure (TransactionPayload × Bool) × Db :=
  match (do authorise settings principal db request
            command draw.requestId principal db request) with
  | .error e => (.error e, db)
  | .ok command => answer draw principal request (Bantam.createTransfer sca attempt command db)

section
variable {settings : Settings} {sca : ScaService} {attempt : Attempt} {draw : Draw}
  {principal : Principal} {request : MoneyRequest} {db : Db}

/-- An answer is the ledger's. -/
theorem answer_ok {reply : Except Failure (TransactionPayload × Bool) × Db}
    {result : TransactionPayload × Bool}
    (h : (answer draw principal request reply).1 = .ok result) :
    answer draw principal request reply = reply := by
  obtain ⟨r, db⟩ := reply
  cases r with
  | ok r => rfl
  | error e =>
    cases e with
    | bantam e =>
      cases request with
      | createTransfer input key =>
        simp only [answer] at h
        split at h <;> cases h
      | _ => rfl
    | _ => rfl

/-- What follows the ledger's answer writes an audit record at most. -/
theorem answer_serial (settings : Settings) (sca : ScaService) (draw : Draw)
    (principal : Principal) (request : MoneyRequest)
    (reply : Except Failure (TransactionPayload × Bool) × Db) :
    ∃ ops, (answer draw principal request reply).2 =
      Runs.run (bankStep settings sca) reply.2 ops := by
  obtain ⟨r, db⟩ := reply
  cases r with
  | ok r => exact ⟨[], rfl⟩
  | error e =>
    cases e with
    | bantam e =>
      cases request with
      | createTransfer input key =>
        refine ⟨[.operation (.recordAudit (transferFailed draw principal input e))], ?_⟩
        simp only [answer, Runs.run, bankStep, Operation.perform]
        cases db.insertAudit (transferFailed draw principal input e) <;> rfl
      | _ => exact ⟨[], rfl⟩
    | _ => exact ⟨[], rfl⟩

/-- A request that is answered passed its gates, and the ledger gave the answer. -/
theorem handle_ok {result : TransactionPayload × Bool}
    (h : (handle settings sca attempt draw principal request db).1 = .ok result) :
    ∃ c, command draw.requestId principal db request = .ok c ∧
      handle settings sca attempt draw principal request db =
        Bantam.createTransfer sca attempt c db := by
  unfold handle at h ⊢
  cases hc : (do authorise settings principal db request
                 command draw.requestId principal db request) with
  | error e =>
    rw [hc] at h
    cases h
  | ok c =>
    rw [hc] at h
    obtain ⟨_, -, hcommand⟩ := bind_eq_ok.mp hc
    exact ⟨c, hcommand, answer_ok h⟩

theorem handle_of {c : TransferCommand} (ha : authorise settings principal db request = .ok ())
    (hc : command draw.requestId principal db request = .ok c) :
    handle settings sca attempt draw principal request db =
      answer draw principal request (Bantam.createTransfer sca attempt c db) := by
  have hgates : (do authorise settings principal db request
                    command draw.requestId principal db request) = .ok c :=
    bind_eq_ok.mpr ⟨(), ha, hc⟩
  rw [handle, hgates]

/-- A handler writes what one call of the ledger and at most one audit record write. -/
theorem handle_serial (settings : Settings) (sca : ScaService) (attempt : Attempt) (draw : Draw)
    (principal : Principal) (request : MoneyRequest) (db : Db) :
    ∃ ops, (handle settings sca attempt draw principal request db).2 =
      Runs.run (bankStep settings sca) db ops := by
  unfold handle
  cases (do authorise settings principal db request
            command draw.requestId principal db request) with
  | error e => exact ⟨[], rfl⟩
  | ok c =>
    obtain ⟨ops, hops⟩ := answer_serial settings sca draw principal request
      (Bantam.createTransfer sca attempt c db)
    exact ⟨.transfer attempt c :: ops, hops⟩
end
end Api
end Bantam
