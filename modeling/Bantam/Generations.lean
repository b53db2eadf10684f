import Bantam.CompiledTests
import Bantam.Domain
import Bantam.Lib.Locks
import Bantam.Lib.Runs
import Bantam.Provenance

/-! The generations of test plans: the rows of the table, the quota that limits them, and the
calls that reserve, finish, approve and execute them, statement by statement in any order. -/
namespace Bantam

def sessionGenerationLimit : Nat := 5
def accountDailyGenerationLimit : Nat := 5
def dailyGenerationLimit : Nat := 25
def quotaLockName : String := "bantam_asvs_ai_generation_quota"

/-! The table. -/

inductive GenerationStatus where
  | pending | ready | executing | executed | failed
deriving DecidableEq, Repr

/-- The columns that the reservation writes and that no other statement changes. -/
structure Reservation where
  generationId : Uuid
  initiatedBy : Uuid
  sessionJti : Uuid
  promptSha256 : String
  provenance : Json
  createdAt : Instant

/-- A row of `asvs_ai_generations`. -/
structure Generation extends Reservation where
  status : GenerationStatus := .pending
  planSha256 : Option String := none
  plan : Option Json := none
  compiledPytest : Option String := none
  errorCode : Option String := none
  asvsRunId : Option Uuid := none
  approvedAt : Option Instant := none
  executedAt : Option Instant := none

/-- What the code uses of the hash library, the schema library, the parser of the language and
the `JSONB` columns of the database, and its own switch. -/
structure AsvsAi where
  sha256 : String → String
  parse : String → Option Json
  accepts : String → Bool
  jsonb : Json → Json
  featureEnabled : Bool

/-! The quota. -/

def day : Int := seconds 86400

/-- `date_trunc('day', now() AT TIME ZONE 'UTC') AT TIME ZONE 'UTC'` -/
def dayStart (now : Instant) : Instant := now - now % day

structure Quota where
  sessionUsed : Nat
  accountDailyUsed : Nat
  dailyUsed : Nat
deriving DecidableEq, Repr

/-- `_quota` -/
def quota (rows : List Reservation) (now : Instant) (initiatedBy sessionJti : Uuid) : Quota where
  sessionUsed := rows.countP fun row => row.sessionJti = sessionJti
  accountDailyUsed := rows.countP fun row =>
    row.initiatedBy = initiatedBy ∧ dayStart now ≤ row.createdAt
  dailyUsed := rows.countP fun row => dayStart now ≤ row.createdAt

/-- What `_reserve` raises once it has read the quota. -/
def quotaError (used : Quota) : Option BantamError :=
  if sessionGenerationLimit ≤ used.sessionUsed then
    some ⟨"ASVS_AI_SESSION_LIMIT", "this session has used its 5 AI generations", 429⟩
  else if accountDailyGenerationLimit ≤ used.accountDailyUsed then
    some ⟨"ASVS_AI_ACCOUNT_DAILY_LIMIT", "this account has used its 5 AI generations today", 429⟩
  else if dailyGenerationLimit ≤ used.dailyUsed then
    some ⟨"ASVS_AI_DAILY_LIMIT", "the Bantam demo has used its 25 AI generations for today", 429⟩
  else none

/-! A call of `generate`. -/

/-- What the call has put together when it reserves. -/
structure GenerateRequest where
  generationId : Uuid
  initiatedBy : Uuid
  sessionJti : Uuid
  prompt : String
  schema : Json
  source : SourceSnapshot
  openapi : SourceSnapshot

def GenerateRequest.provenance (service : AsvsAi) (request : GenerateRequest) : Json :=
  buildRequestProvenance service.sha256 (buildModelRequest request.prompt request.schema)
    request.source request.openapi

/-- The row that `_reserve` inserts in a transaction which began at `now`. -/
def GenerateRequest.reservation (service : AsvsAi) (request : GenerateRequest) (now : Instant) :
    Reservation where
  generationId := request.generationId
  initiatedBy := request.initiatedBy
  sessionJti := request.sessionJti
  promptSha256 := service.sha256 request.prompt
  provenance := service.jsonb (request.provenance service)
  createdAt := now

/-- `octet_length(provenance::text) <= 262144`, in the text that the database writes. -/
def provenanceFits (provenance : Json) : Bool :=
  Text.utf8Length (provenance.write ⟨[',', ' '], [':', ' '], false⟩) ≤ 262144

/-- Where a call stands. Inside the transaction of `_reserve` it knows when that began. -/
inductive GeneratePhase where
  | assembled
  | begun (now : Instant)
  | locked (now : Instant)
  | counted (now : Instant) (used : Quota)
  | inserted (now : Instant)
  | reserved
  | rolledBack (error : Option BantamError)
  | ended (result : Except Failure Unit)

structure GenerateCall where
  request : GenerateRequest
  phase : GeneratePhase

/-- The advisory lock is held from its statement to the end of the transaction. -/
def GenerateCall.locks (call : GenerateCall) : List String :=
  match call.phase with
  | .locked _ | .counted _ _ | .inserted _ => [quotaLockName]
  | _ => []

/-- The plan of an answer and what it compiles to, as `generate` computes them. -/
def AsvsAi.generated (service : AsvsAi) (raw : String) (source : Json) :
    Except PlanError (GeneratedPlan × String) := do
  let plan ← validateGeneratedPlan service.parse raw source
  let compiled ← compilePytest service.accepts plan
  let _ ← canonicalRegoModule plan.tests
  pure (plan, compiled)

/-! A call of `approve_and_execute`. -/

structure ApproveRequest where
  generationId : Uuid
  initiatedBy : Uuid
  sessionJti : Uuid

inductive ApprovePhase where
  | requested
  | executing
  | refused (failure : Failure)
  | ended (result : Except Failure Uuid)

structure ApproveCall where
  request : ApproveRequest
  phase : ApprovePhase

def planIntegrity : BantamError :=
  ⟨"ASVS_AI_PLAN_INTEGRITY", "the stored test plan failed integrity validation", 500⟩

/-- An error of the plan functions that no handler takes. -/
def PlanError.uncaught : PlanError → Failure
  | .validation message | .sourceContext message => .runtime message
  | .key name => .runtime name
  | .invalidSource => .runtime "invalid syntax"

/-- The plan of a row, its compiled source and its policy, computed again from what is stored. -/
def AsvsAi.restored (service : AsvsAi) (row : Generation) :
    Except PlanError (GeneratedPlan × String × String) := do
  let provenance ← validatedProvenance service.sha256 row.provenance row.promptSha256
  let sourceContext ← match provenance.get? "source_context" with
    | some sourceContext => .ok sourceContext
    | none => .error (.key "source_context")
  let plan ← validateGeneratedPlan service.parse (row.plan.getD .null).dumps sourceContext
  let expectedSource ← compilePytest service.accepts plan
  let expectedRego ← canonicalRegoModule plan.tests
  pure (plan, expectedSource, expectedRego)

/-- What the approval makes of a row that awaits it. -/
def AsvsAi.reviewed (service : AsvsAi) (row : Generation) : Except Failure GeneratedPlan :=
  match service.restored row with
  | .error (.validation _) => .error (.bantam planIntegrity)
  | .error error => .error error.uncaught
  | .ok (plan, expectedSource, expectedRego) =>
    if some (canonicalSha service.sha256 plan.dump) ≠ row.planSha256 ∨
        some expectedSource ≠ row.compiledPytest ∨ expectedRego ≠ plan.regoModule then
      .error (.bantam planIntegrity)
    else .ok plan

/-- The first transaction of `approve_and_execute`, which locks the row. -/
def AsvsAi.approved (service : AsvsAi) (rows : List Generation) (request : ApproveRequest) :
    Except Failure GeneratedPlan :=
  if !service.featureEnabled then
    .error (.bantam ⟨"ASVS_AI_DISABLED", "AI test-plan execution is disabled in this environment",
      409⟩)
  else match rows.find? fun row => row.generationId = request.generationId ∧
      row.initiatedBy = request.initiatedBy ∧ row.sessionJti = request.sessionJti with
    | none => .error (.bantam ⟨"ASVS_AI_PLAN_NOT_FOUND",
        "the generated test plan was not found in this session", 404⟩)
    | some row =>
      if row.status ≠ .ready then
        .error (.bantam ⟨"ASVS_AI_PLAN_NOT_READY",
          "the generated test plan is not awaiting approval", 409⟩)
      else service.reviewed row

/-! The system. -/

structure GenerationState where
  now : Instant
  rows : List Generation
  generating : List GenerateCall
  approving : List ApproveCall

/-- What a call of `generate` does next. -/
inductive GenerateStep where
  | begin
  | lock
  | count
  | insert
  | commit
  | lose
  | answer (raw : String)
  | refuse (error : BantamError)

inductive ApproveStep where
  | review
  | ran (runId : Uuid)
  | broke (failure : Failure)

inductive GenerationEvent where
  | clock (now : Instant)
  | generate (request : GenerateRequest)
  | advance (i : Nat) (step : GenerateStep)
  | approve (request : ApproveRequest)
  | progress (i : Nat) (step : ApproveStep)

namespace GenerationState

def empty (now : Instant) : GenerationState := ⟨now, [], [], []⟩

/-- The columns of the reservations, in the order of their commits. -/
def reservations (s : GenerationState) : List Reservation := s.rows.map (·.toReservation)

/-- The call at `i` goes on to a phase. -/
def move (s : GenerationState) (i : Nat) (call : GenerateCall) (phase : GeneratePhase) :
    GenerationState :=
  { s with generating := s.generating.set i { call with phase := phase } }

def moveApproval (s : GenerationState) (i : Nat) (call : ApproveCall) (phase : ApprovePhase) :
    GenerationState :=
  { s with approving := s.approving.set i { call with phase := phase } }

/-- `UPDATE … WHERE generation_id = … AND status = …` -/
def update (s : GenerationState) (generationId : Uuid) (status : GenerationStatus)
    (f : Generation → Generation) : GenerationState :=
  { s with rows := s.rows.map fun row =>
      if row.generationId = generationId ∧ row.status = status then f row else row }

/-- The statement has a row to update. -/
def finds (s : GenerationState) (generationId : Uuid) (status : GenerationStatus) : Bool :=
  s.rows.any fun row => row.generationId = generationId ∧ row.status = status

end GenerationState

/-- What the row of an accepted answer becomes. -/
def AsvsAi.finish (service : AsvsAi) (plan : GeneratedPlan) (compiled : String)
    (row : Generation) : Generation :=
  { row with
    status := .ready
    plan := some (service.jsonb plan.dump)
    compiledPytest := some compiled
    planSha256 := some (canonicalSha service.sha256 plan.dump)
    errorCode := none }

/-- `_fail`, after which the error is raised. -/
def failGeneration (s : GenerationState) (i : Nat) (call : GenerateCall) (error : BantamError) :
    GenerationState :=
  (s.update call.request.generationId .pending fun row =>
    { row with status := .failed, errorCode := some error.code }).move i call
    (.ended (.error (.bantam error)))

/-- `generate` from the answer of the model on. -/
def answer (service : AsvsAi) (s : GenerationState) (i : Nat) (call : GenerateCall)
    (raw : String) : GenerationState :=
  match service.generated raw call.request.source.document with
  | .error (.validation _) => failGeneration s i call ⟨"ASVS_AI_PLAN_REJECTED",
      "the model response was outside the reviewed test-plan schema", 502⟩
  | .error _ => failGeneration s i call ⟨"ASVS_AI_PROVIDER_UNAVAILABLE",
      "Mistral could not generate a test plan", 502⟩
  | .ok (plan, compiled) =>
    if !s.finds call.request.generationId .pending then
      s.move i call (.ended (.error (.bantam ⟨"ASVS_AI_GENERATION_CONFLICT",
        "the reserved generation could not be finalized", 409⟩)))
    else if 50000 < compiled.length then
      -- the table refuses a longer source, and the row stays as it is
      s.move i call (.ended (.error (.database .checkViolation)))
    else
      (s.update call.request.generationId .pending (service.finish plan compiled)).move i call
        (.ended (.ok ()))

def generateStep (service : AsvsAi) (s : GenerationState) (i : Nat) (call : GenerateCall) :
    GenerateStep → GenerationState
  | .begin =>
    match call.phase with
    | .assembled => s.move i call (.begun s.now)
    | _ => s
  | .lock =>
    match call.phase with
    | .begun now =>
      if Locks.heldByOther GenerateCall.locks s.generating i quotaLockName then s
      else s.move i call (.locked now)
    | _ => s
  | .count =>
    match call.phase with
    | .locked now => s.move i call (.counted now
        (quota s.reservations now call.request.initiatedBy call.request.sessionJti))
    | _ => s
  | .insert =>
    match call.phase with
    | .counted now used =>
      match quotaError used with
      | some error => s.move i call (.rolledBack (some error))
      | none =>
        let row := call.request.reservation service now
        -- the primary key and the check on the provenance
        if row.generationId ∈ s.rows.map (·.generationId) ∨ !provenanceFits row.provenance then
          s.move i call (.rolledBack none)
        else s.move i call (.inserted now)
    | _ => s
  | .commit =>
    match call.phase with
    | .inserted now => { s.move i call .reserved with
        rows := s.rows ++ [{ toReservation := call.request.reservation service now }] }
    | _ => s
  | .lose =>
    match call.phase with
    | .begun _ | .locked _ | .counted _ _ | .inserted _ => s.move i call (.rolledBack none)
    | _ => s
  | .answer raw =>
    match call.phase with
    | .reserved => answer service s i call raw
    | _ => s
  | .refuse error =>
    match call.phase with
    | .reserved => failGeneration s i call error
    | _ => s

/-- What an execution that fails is reported as. -/
def executionError : Failure → BantamError
  | .bantam error => error
  | _ => ⟨"ASVS_AI_EXECUTION_FAILED", "the deterministic ASVS runner did not complete", 500⟩

def approveStep (service : AsvsAi) (s : GenerationState) (i : Nat) (call : ApproveCall) :
    ApproveStep → GenerationState
  | .review =>
    match call.phase with
    | .requested =>
      match service.approved s.rows call.request with
      | .error failure => s.moveApproval i call (.refused failure)
      | .ok _ =>
        (s.update call.request.generationId .ready fun row =>
          { row with
            status := .executing
            approvedAt := some s.now
            errorCode := none }).moveApproval i call .executing
    | _ => s
  | .ran runId =>
    match call.phase with
    | .executing =>
      if s.finds call.request.generationId .executing then
        (s.update call.request.generationId .executing fun row =>
          { row with
            status := .executed
            asvsRunId := some runId
            executedAt := some s.now
            errorCode := none }).moveApproval i call (.ended (.ok runId))
      else s.moveApproval i call (.ended (.error (.bantam ⟨"ASVS_AI_EXECUTION_CONFLICT",
        "the generated test execution could not be finalized", 409⟩)))
    | _ => s
  | .broke failure =>
    match call.phase with
    | .executing =>
      (s.update call.request.generationId .executing fun row =>
        { row with
          status := .ready
          approvedAt := none
          errorCode := some (executionError failure).code }).moveApproval i call
            (.ended (.error (.bantam (executionError failure))))
    | _ => s

def generationStep (service : AsvsAi) (s : GenerationState) : GenerationEvent → GenerationState
  | .clock now => { s with now := now }
  | .generate request => { s with generating := s.generating ++ [⟨request, .assembled⟩] }
  | .advance i step =>
    match s.generating[i]? with
    | some call => generateStep service s i call step
    | none => s
  | .approve request => { s with approving := s.approving ++ [⟨request, .requested⟩] }
  | .progress i step =>
    match s.approving[i]? with
    | some call => approveStep service s i call step
    | none => s

end Bantam
