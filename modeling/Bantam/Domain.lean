import Bantam.Lib.Text
import Mathlib.Algebra.Ring.Int.Defs
import Mathlib.Order.Basic

/-! Identities, state constants, domain errors and the transfer command. -/
namespace Bantam

abbrev Uuid := BitVec 128

instance : LawfulBEq Uuid := inferInstance

/-- Microseconds since the Unix epoch, the resolution of `datetime` and `timestamptz`. -/
abbrev Instant := Int

def seconds (n : Int) : Int := n * 1000000
def minutes (n : Int) : Int := seconds (60 * n)

/-- `str(uuid)`: 32 lower-case digits grouped 8-4-4-4-12. -/
def Uuid.chars (u : Uuid) : List Char :=
  let d := Text.hexDigits 32 u.toNat
  d.take 8 ++ '-' :: ((d.drop 8).take 4 ++ '-' :: ((d.drop 12).take 4 ++ '-' ::
    ((d.drop 16).take 4 ++ '-' :: d.drop 20)))

def Uuid.str (u : Uuid) : String := String.ofList (Uuid.chars u)

/-- `UUID(text)` on undecorated text: hyphens are dropped and 32 digits must remain. -/
def Uuid.parse (s : String) : Option Uuid :=
  let d := s.toList.filter (· ≠ '-')
  if d.length = 32 then (Text.hexNumber d).map (BitVec.ofNat 128) else none

theorem Uuid.chars_filter (u : Uuid) :
    (Uuid.chars u).filter (· ≠ '-') = Text.hexDigits 32 u.toNat := by
  set d := Text.hexDigits 32 u.toNat with hd
  have hk : ∀ c ∈ d, c ≠ '-' := Text.hexDigits_no_hyphen 32 u.toNat
  have keep : ∀ l : List Char, (∀ c ∈ l, c ∈ d) → l.filter (· ≠ '-') = l := by
    intro l hl
    exact List.filter_eq_self.mpr fun c hc => by simpa using hk c (hl c hc)
  have htake : ∀ (l : List Char) n, (∀ c ∈ l, c ∈ d) → (l.take n).filter (· ≠ '-') = l.take n :=
    fun l n hl => keep _ fun c hc => hl c (List.mem_of_mem_take hc)
  have hdrop : ∀ n, ∀ c ∈ d.drop n, c ∈ d := fun n c hc => List.mem_of_mem_drop hc
  have h0 : ∀ c ∈ d, c ∈ d := fun _ hc => hc
  simp only [Uuid.chars, ← hd, List.filter_append, List.filter_cons, htake d 8 h0,
    htake _ 4 (hdrop 8), htake _ 4 (hdrop 12), htake _ 4 (hdrop 16), keep _ (hdrop 20)]
  have e12 : d.drop 12 = (d.drop 8).drop 4 := by simp
  have e16 : d.drop 16 = (d.drop 12).drop 4 := by simp
  have e20 : d.drop 20 = (d.drop 16).drop 4 := by simp
  simp only [ne_eq, not_true_eq_false, decide_false, Bool.false_eq_true, if_false]
  rw [e20, List.take_append_drop, e16, List.take_append_drop, e12, List.take_append_drop,
    List.take_append_drop]

theorem Uuid.parse_str (u : Uuid) : Uuid.parse (Uuid.str u) = some u := by
  have hlen : (Text.hexDigits 32 u.toNat).length = 32 := Text.hexDigits_length 32 u.toNat
  have hlt : u.toNat < 16 ^ 32 := u.isLt
  have hchars : (Uuid.str u).toList = Uuid.chars u := String.toList_ofList
  simp only [Uuid.parse, hchars, Uuid.chars_filter, hlen, if_true,
    Text.hexNumber_hexDigits 32 _ hlt, Option.map_some, BitVec.ofNat_toNat, BitVec.setWidth_eq]

theorem Uuid.str_inj {u v : Uuid} : Uuid.str u = Uuid.str v ↔ u = v := by
  refine ⟨fun h => ?_, fun h => h ▸ rfl⟩
  have hparse := congrArg Uuid.parse h
  rw [Uuid.parse_str, Uuid.parse_str] at hparse
  exact Option.some.inj hparse

def InBigint (n : Int) : Prop := -2 ^ 63 ≤ n ∧ n < 2 ^ 63

instance (n : Int) : Decidable (InBigint n) := inferInstanceAs (Decidable (_ ∧ _))

inductive Role where
  | customer | bankAdmin | riskAnalyst | complianceAuditor
  | aspisAuditor | aspisAdmin | pendingApproval | serviceAccount
  deriving DecidableEq

def Role.str : Role → String
  | .customer => "CUSTOMER"
  | .bankAdmin => "BANK_ADMIN"
  | .riskAnalyst => "RISK_ANALYST"
  | .complianceAuditor => "COMPLIANCE_AUDITOR"
  | .aspisAuditor => "ASPIS_AUDITOR"
  | .aspisAdmin => "ASPIS_ADMIN"
  | .pendingApproval => "PENDING_APPROVAL"
  | .serviceAccount => "SERVICE_ACCOUNT"

inductive KycStatus where
  | pending | review | verified | rejected
  deriving DecidableEq

inductive AccountStatus where
  | pending | active | frozen | closed
  deriving DecidableEq

inductive AccountType where
  | current | system
  deriving DecidableEq

inductive TransactionType where
  | transfer | demoDeposit | reversal
  deriving DecidableEq

def TransactionType.str : TransactionType → String
  | .transfer => "TRANSFER"
  | .demoDeposit => "DEMO_DEPOSIT"
  | .reversal => "REVERSAL"

inductive TransactionStatus where
  | pending | posted | failed | reversed
  deriving DecidableEq

inductive Direction where
  | debit | credit
  deriving DecidableEq

inductive ChallengeStatus where
  | pending | consumed | expired | failed
  deriving DecidableEq

inductive OutboxStatus where
  | pending | publishing | published
  deriving DecidableEq

/-- `ACTIVE`, `SUSPENDED` and `CLOSED` of customers, `ACTIVE`, `LOCKED` and `DISABLED` of users. -/
inductive CustomerStatus where
  | active | suspended | closed
  deriving DecidableEq

inductive UserStatus where
  | active | locked | disabled
  deriving DecidableEq

structure BantamError where
  code : String
  message : String
  statusCode : Nat
  deriving DecidableEq

def notFound : BantamError := ⟨"NOT_FOUND", "resource was not found", 404⟩
def forbidden : BantamError := ⟨"FORBIDDEN", "the action is not permitted", 403⟩
def conflict : BantamError := ⟨"CONFLICT", "the action conflicts with current state", 409⟩
def insufficientFunds : BantamError :=
  ⟨"INSUFFICIENT_FUNDS", "the source account has insufficient funds", 422⟩
def accountFrozen : BantamError := ⟨"ACCOUNT_FROZEN", "one of the accounts is not active", 422⟩
def kycNotVerified : BantamError := ⟨"KYC_NOT_VERIFIED", "KYC verification is required", 422⟩
def scaRequired : BantamError :=
  ⟨"SCA_REQUIRED", "a transaction-bound SCA challenge is required", 422⟩
def scaFailed : BantamError := ⟨"SCA_FAILED", "the SCA challenge is invalid or expired", 422⟩
def currencyMismatch : BantamError :=
  ⟨"CURRENCY_MISMATCH", "account currencies do not match", 422⟩
def validation (message : String) : BantamError := ⟨"VALIDATION_FAILED", message, 422⟩

/-- The database errors that a statement of the service can raise. -/
inductive DatabaseError where
  | uniqueViolation | checkViolation | foreignKeyViolation
  | numericValueOutOfRange | notNullViolation | raiseException
  deriving DecidableEq

inductive Failure where
  | bantam (e : BantamError)
  | database (e : DatabaseError)
  | runtime (message : String)
  deriving DecidableEq

theorem bind_eq_ok {ε α β : Type} {x : Except ε α} {f : α → Except ε β} {b : β} :
    (x >>= f) = .ok b ↔ ∃ a, x = .ok a ∧ f a = .ok b := by
  cases x with
  | error e => simp [bind, Except.bind]
  | ok a => simp [bind, Except.bind]

structure Principal where
  userId : Uuid
  role : Role
  customerId : Option Uuid := none
  deriving DecidableEq

/-- A falsy request id or transaction type of the source is `none` here. -/
structure TransferCommand where
  requestId : Option Uuid
  idempotencyKey : String
  actor : Principal
  sourceAccountId : Uuid
  destinationAccountId : Uuid
  amountMinor : Int
  currency : String
  description : String := ""
  scaChallengeId : Option Uuid := none
  scaCode : String := ""
  operatorOverride : Bool := false
  transactionType : Option TransactionType := some .transfer
  reversesTransactionId : Option Uuid := none
  deriving DecidableEq

/-- A command that passed `_normalise`, with what the checks established. -/
structure NormalisedCommand where
  requestId : Uuid
  idempotencyKey : String
  actor : Principal
  sourceAccountId : Uuid
  destinationAccountId : Uuid
  amountMinor : Int
  currency : String
  description : String
  scaChallengeId : Option Uuid
  scaCode : String
  operatorOverride : Bool
  transactionType : TransactionType
  reversesTransactionId : Option Uuid
  keyLength : idempotencyKey ≠ "" ∧ idempotencyKey.length ≤ 128
  amountPos : 0 < amountMinor
  distinct : sourceAccountId ≠ destinationAccountId
  gbp : currency = "GBP"
  overrideRole : operatorOverride = true → actor.role = .bankAdmin

/-- `LedgerService._normalise`; `fresh` is the identifier drawn for a missing request id. -/
def normalise (fresh : Uuid) (command : TransferCommand) : Except Failure NormalisedCommand :=
  let key := Text.strip command.idempotencyKey
  let currency := Text.upper (Text.strip command.currency)
  if hk : key = "" ∨ 128 < key.length then
    .error (.bantam (validation "invalid idempotency key"))
  else if ha : command.amountMinor ≤ 0 then
    .error (.bantam (validation "amount_minor must be positive"))
  else if hd : command.sourceAccountId = command.destinationAccountId then
    .error (.bantam (validation "source and destination must differ"))
  else if hg : currency ≠ "GBP" then
    .error (.bantam (validation "only GBP is supported in V1"))
  else if ho : command.operatorOverride = true ∧ command.actor.role ≠ .bankAdmin then
    .error (.bantam forbidden)
  else
    .ok {
      requestId := command.requestId.getD fresh
      idempotencyKey := key
      actor := command.actor
      sourceAccountId := command.sourceAccountId
      destinationAccountId := command.destinationAccountId
      amountMinor := command.amountMinor
      currency := currency
      description := Text.strip command.description
      scaChallengeId := command.scaChallengeId
      scaCode := command.scaCode
      operatorOverride := command.operatorOverride
      transactionType := command.transactionType.getD .transfer
      reversesTransactionId := command.reversesTransactionId
      keyLength := ⟨fun h => hk (.inl h), Nat.le_of_not_lt fun h => hk (.inr h)⟩
      amountPos := by omega
      distinct := hd
      gbp := by simpa using hg
      overrideRole := by
        intro h
        by_contra hr
        exact ho ⟨h, hr⟩ }

section Normalise
variable {fresh : Uuid} {command : TransferCommand} {n : NormalisedCommand}

/-- Everything a successful normalisation says about its result. -/
theorem normalise_ok (h : normalise fresh command = .ok n) :
    n.requestId = command.requestId.getD fresh ∧
    n.idempotencyKey = Text.strip command.idempotencyKey ∧
    n.actor = command.actor ∧ n.sourceAccountId = command.sourceAccountId ∧
    n.destinationAccountId = command.destinationAccountId ∧
    n.amountMinor = command.amountMinor ∧ n.description = Text.strip command.description ∧
    n.operatorOverride = command.operatorOverride ∧
    n.transactionType = command.transactionType.getD .transfer ∧
    n.reversesTransactionId = command.reversesTransactionId := by
  unfold normalise at h
  simp only at h
  split_ifs at h
  cases h
  exact ⟨rfl, rfl, rfl, rfl, rfl, rfl, rfl, rfl, rfl, rfl⟩

theorem normalise_sca (h : normalise fresh command = .ok n) :
    n.scaChallengeId = command.scaChallengeId ∧ n.scaCode = command.scaCode := by
  unfold normalise at h
  simp only at h
  split_ifs at h
  cases h
  exact ⟨rfl, rfl⟩

/-- Whether a command normalises does not depend on its request id, sent or drawn. -/
theorem normalise_redraw (fresh' : Uuid) (requestId : Option Uuid)
    (h : normalise fresh command = .ok n) :
    ∃ m, normalise fresh' { command with requestId := requestId } = .ok m := by
  unfold normalise at h ⊢
  simp only at h ⊢
  split_ifs at h ⊢
  exact ⟨_, rfl⟩
end Normalise
end Bantam
