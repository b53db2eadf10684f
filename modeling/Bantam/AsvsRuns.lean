import Bantam.Generations

/-! The executions of the ASVS probes, direct or of an approved plan, beside the calls that
generate the plans. Each statement that another session can see is a step of its own, and a
call may fail between any two of them. -/
namespace Bantam

def runCooldownSeconds : Int := 30
def runLockName : String := "bantam_asvs_live_runner"

/-! The probes. -/

inductive EvidenceStatus where
  | pass | fail | inconclusive | error
  deriving DecidableEq

/-- Of an `EvidenceRecord`, what the execution reads; the rest goes into the evidence as it is. -/
structure EvidenceRecord where
  controlId : String
  status : EvidenceStatus
  deriving DecidableEq

/-- An answer to a probe. -/
structure HttpExchange where
  status : Nat
  errorCode : Option String
  deriving DecidableEq

/-- What the probes of one run get; `none` where a probe is unavailable. `login` tells whether
the login has given a session. -/
structure Probes where
  anonymous : Option HttpExchange
  login : Bool
  admin : Option HttpExchange
  otherHistory : Option HttpExchange
  transfer : Option HttpExchange
  logout : Option HttpExchange
  replay : Option HttpExchange
  deriving DecidableEq

namespace LiveAsvsRunner

/-- `_record` -/
def record (controlId : String) (expectedStatus : Nat) (expectedCode : String)
    (outcome : Option HttpExchange) : EvidenceRecord where
  controlId := controlId
  status :=
    match outcome with
    | none => .error
    | some exchange =>
      if exchange.status = expectedStatus ∧ exchange.errorCode = some expectedCode then .pass
      else .fail

/-- `run` -/
def run (probes : Probes) : List EvidenceRecord :=
  let session := fun outcome : Option HttpExchange => if probes.login then outcome else none
  let replay := match probes.logout with
    | some ⟨200, _⟩ => probes.replay
    | _ => none
  [record "ASPIS-ASVS-AC-001" 401 "UNAUTHENTICATED" probes.anonymous,
    record "ASPIS-ASVS-AC-002" 403 "FORBIDDEN" (session probes.admin),
    record "ASPIS-ASVS-AC-003" 404 "NOT_FOUND" (session probes.otherHistory),
    record "ASPIS-ASVS-AC-004" 403 "FORBIDDEN" (session probes.transfer),
    record "ASPIS-ASVS-AC-005" 401 "UNAUTHENTICATED" (session replay)]

end LiveAsvsRunner

inductive RunStatus where
  | error | fail | inconclusive | pass
  deriving DecidableEq

/-- `_run_status` -/
def runStatus (records : List EvidenceRecord) : RunStatus :=
  let statuses := records.map EvidenceRecord.status
  if .error ∈ statuses then .error
  else if .fail ∈ statuses then .fail
  else if .inconclusive ∈ statuses then .inconclusive
  else .pass

/-- `sum(record.status == value for record in records)` -/
def statusCount (value : EvidenceStatus) (records : List EvidenceRecord) : Nat :=
  records.countP fun record => record.status = value

/-! The table. -/

/-- A row of `asvs_runs`, with the constraints of the table. -/
structure AsvsRun where
  runId : Uuid
  initiatedBy : Uuid
  status : RunStatus
  controlsTotal : Nat
  controlsPassed : Nat
  controlsFailed : Nat
  controlsInconclusive : Nat
  controlsError : Nat
  evidence : List EvidenceRecord
  startedAt : Instant
  completedAt : Instant
  bounded : 1 ≤ controlsTotal ∧ controlsTotal ≤ 25
  ordered : startedAt ≤ completedAt
  balanced : controlsTotal = controlsPassed + controlsFailed + controlsInconclusive + controlsError
  deriving DecidableEq

/-- The row that `execute` inserts, if the table takes it. -/
def asvsRun (runId initiatedBy : Uuid) (startedAt completedAt : Instant)
    (records : List EvidenceRecord) : Option AsvsRun :=
  if h : (1 ≤ records.length ∧ records.length ≤ 25) ∧ startedAt ≤ completedAt ∧
      records.length = statusCount .pass records + statusCount .fail records +
        statusCount .inconclusive records + statusCount .error records then
    some {
      runId := runId
      initiatedBy := initiatedBy
      status := runStatus records
      controlsTotal := records.length
      controlsPassed := statusCount .pass records
      controlsFailed := statusCount .fail records
      controlsInconclusive := statusCount .inconclusive records
      controlsError := statusCount .error records
      evidence := records
      startedAt := startedAt
      completedAt := completedAt
      bounded := h.1
      ordered := h.2.1
      balanced := h.2.2 }
  else none

/-- `ORDER BY completed_at DESC LIMIT 1` -/
def lastCompleted (runs : List AsvsRun) : Option Instant := (runs.map AsvsRun.completedAt).max?

/-! A call of `execute`. -/

def runnerDisabled : BantamError :=
  ⟨"ASVS_RUNNER_DISABLED", "live ASVS probes are disabled in this environment", 409⟩
def runInProgress : BantamError :=
  ⟨"ASVS_RUN_IN_PROGRESS", "another ASVS verification run is already in progress", 409⟩
def runCooldown : BantamError :=
  ⟨"ASVS_RUN_COOLDOWN", "wait at least 30 seconds between live runs", 429⟩

/-- Where an execution stands. From `locked` to `releasing` its session has the advisory lock;
it probes from its start until it has the records. -/
inductive RunPhase where
  | requested
  | locked
  | spaced
  | probing (startedAt : Instant)
  | probed (startedAt completedAt : Instant) (records : List EvidenceRecord)
  | inserted (run : AsvsRun)
  | releasing (result : Except Failure AsvsRun)
  | ended (result : Except Failure AsvsRun)
  deriving DecidableEq

/-- What an execution does next. A commit may be lost on its way back, and `fail` is an
exception at any point. -/
inductive RunStep where
  | lock
  | check
  | start
  | probe (probes : Probes)
  | insert (runId : Uuid)
  | commit (acknowledged : Bool)
  | fail (failure : Failure)
  | unlock
  deriving DecidableEq

namespace RunPhase

def holdsLock : RunPhase → Bool
  | .requested | .ended _ => false
  | _ => true

def isProbing : RunPhase → Bool
  | .probing _ => true
  | _ => false

/-- The next statement of an execution: the phase that it comes to, and the row that it
commits. -/
def advance (enabled : Bool) (initiatedBy : Uuid) (now : Instant) (blocked : Bool)
    (runs : List AsvsRun) : RunPhase → RunStep → RunPhase × Option AsvsRun
  | .requested, .lock =>
    if !enabled then (.ended (.error (.bantam runnerDisabled)), none)
    else if blocked then (.ended (.error (.bantam runInProgress)), none)
    else (.locked, none)
  | .locked, .check =>
    if (lastCompleted runs).any fun completedAt => now - completedAt < seconds runCooldownSeconds
    then (.releasing (.error (.bantam runCooldown)), none)
    else (.spaced, none)
  | .spaced, .start => (.probing now, none)
  | .probing startedAt, .probe probes => (.probed startedAt now (LiveAsvsRunner.run probes), none)
  | .probed startedAt completedAt records, .insert runId =>
    if runId ∈ runs.map AsvsRun.runId then
      (.releasing (.error (.database .uniqueViolation)), none)
    else
      match asvsRun runId initiatedBy startedAt completedAt records with
      | some run => (.inserted run, none)
      | none => (.releasing (.error (.database .checkViolation)), none)
  | .inserted run, .commit acknowledged =>
    (.releasing (if acknowledged then .ok run else .error (.runtime "connection lost")), some run)
  | .releasing result, .unlock => (.ended result, none)
  | .requested, .fail failure | .releasing _, .fail failure => (.ended (.error failure), none)
  | .locked, .fail failure | .spaced, .fail failure | .probing _, .fail failure
  | .probed .., .fail failure | .inserted _, .fail failure => (.releasing (.error failure), none)
  | phase, _ => (phase, none)

end RunPhase

/-! The calls. -/

/-- Where a call of `approve_and_execute` stands. It has the row of the generation locked, as it
has read it, from the `SELECT … FOR UPDATE` to the commit of the approval. -/
inductive ApprovalPhase where
  | requested
  | selected (row : Generation)
  | executing (run : RunPhase)
  | ended (result : Except Failure AsvsRun)

/-- A call of one of the two routes that execute the probes. -/
inductive AsvsCall where
  | direct (initiatedBy : Uuid) (run : RunPhase)
  | approval (request : ApproveRequest) (phase : ApprovalPhase)
  | crashed

inductive AsvsLock where
  | runner
  | row (generationId : Uuid)
  deriving DecidableEq

namespace AsvsCall

/-- The execution that the call is in, and who has begun it. -/
def execution : AsvsCall → Option (Uuid × RunPhase)
  | .direct initiatedBy run => some (initiatedBy, run)
  | .approval request (.executing run) => some (request.initiatedBy, run)
  | _ => none

def locks : AsvsCall → List AsvsLock
  | .direct _ run | .approval _ (.executing run) => if run.holdsLock then [.runner] else []
  | .approval request (.selected _) => [.row request.generationId]
  | _ => []

/-- The call goes on to another phase of its execution. -/
def withRun (run : RunPhase) : AsvsCall → AsvsCall
  | .direct initiatedBy _ => .direct initiatedBy run
  | .approval request (.executing _) => .approval request (.executing run)
  | call => call

/-- The call probes. -/
def isProbing (call : AsvsCall) : Bool := call.execution.any fun e => e.2.isProbing

/-- The generation of which the call has an approved execution in flight. -/
def flights : AsvsCall → List Uuid
  | .approval request (.executing _) => [request.generationId]
  | _ => []

end AsvsCall

inductive AsvsCallStep where
  | select
  | review
  | run (step : RunStep)
  | settle
  | fail (failure : Failure)
  | crash

/-- The tables, the calls that generate plans and the calls that execute the probes. -/
structure AsvsState where
  generations : GenerationState
  runs : List AsvsRun
  calls : List AsvsCall

inductive AsvsEvent where
  | tick (elapsed : Nat)
  | generate (request : GenerateRequest)
  | advance (i : Nat) (step : GenerateStep)
  | execute (initiatedBy : Uuid)
  | approve (request : ApproveRequest)
  | progress (i : Nat) (step : AsvsCallStep)

/-- The two services. -/
structure AsvsServices where
  ai : AsvsAi
  runnerEnabled : Bool

def planNotFound : BantamError :=
  ⟨"ASVS_AI_PLAN_NOT_FOUND", "the generated test plan was not found in this session", 404⟩
def planNotReady : BantamError :=
  ⟨"ASVS_AI_PLAN_NOT_READY", "the generated test plan is not awaiting approval", 409⟩
def aiExecutionDisabled : BantamError :=
  ⟨"ASVS_AI_DISABLED", "AI test-plan execution is disabled in this environment", 409⟩
def executionConflict : BantamError :=
  ⟨"ASVS_AI_EXECUTION_CONFLICT", "the generated test execution could not be finalized", 409⟩

namespace AsvsState

def start (now : Instant) (runs : List AsvsRun) : AsvsState := ⟨.empty now, runs, []⟩

def now (s : AsvsState) : Instant := s.generations.now

def rows (s : AsvsState) : List Generation := s.generations.rows

def setCall (s : AsvsState) (i : Nat) (call : AsvsCall) : AsvsState :=
  { s with calls := s.calls.set i call }

/-- An update of the rows of a generation, which may be conditional on its status. -/
def updateRows (s : AsvsState) (generationId : Uuid) (p : GenerationStatus → Bool)
    (f : Generation → Generation) : AsvsState :=
  { s with
    generations := { s.generations with
      rows := s.rows.map fun row =>
        if row.generationId = generationId ∧ p row.status = true then f row else row } }

/-- Another call has the lock. -/
def blocked (s : AsvsState) (i : Nat) (lock : AsvsLock) : Bool :=
  Locks.heldByOther AsvsCall.locks s.calls i lock

/-- Some call has the row of the generation locked. -/
def rowLocked (s : AsvsState) (generationId : Uuid) : Bool :=
  s.calls.any fun call => .row generationId ∈ call.locks

end AsvsState

/-- The first transaction of `approve_and_execute`, up to the `SELECT … FOR UPDATE`. -/
def selectGeneration (services : AsvsServices) (s : AsvsState) (i : Nat)
    (request : ApproveRequest) : AsvsState :=
  if !services.ai.featureEnabled then
    s.setCall i (.approval request (.ended (.error (.bantam aiExecutionDisabled))))
  else if s.blocked i (.row request.generationId) then s
  else
    match s.rows.find? fun row => row.generationId = request.generationId ∧
        row.initiatedBy = request.initiatedBy ∧ row.sessionJti = request.sessionJti with
    | none => s.setCall i (.approval request (.ended (.error (.bantam planNotFound))))
    | some row => s.setCall i (.approval request (.selected row))

/-- The rest of that transaction: its `UPDATE` has no condition on the status. -/
def approveGeneration (services : AsvsServices) (s : AsvsState) (i : Nat)
    (request : ApproveRequest) (row : Generation) : AsvsState :=
  if row.status ≠ .ready then
    s.setCall i (.approval request (.ended (.error (.bantam planNotReady))))
  else
    match services.ai.reviewed row with
    | .error failure => s.setCall i (.approval request (.ended (.error failure)))
    | .ok _ =>
      (s.updateRows request.generationId (fun _ => true) fun row =>
        { row with
          status := .executing
          approvedAt := some s.now
          errorCode := none }).setCall i (.approval request (.executing .requested))

/-- What `approve_and_execute` does with the end of its execution: the row becomes executed, or
`_restore_ready` gives it back. -/
def settleExecution (s : AsvsState) (i : Nat) (request : ApproveRequest) :
    Except Failure AsvsRun → AsvsState
  | .ok run =>
    if s.blocked i (.row request.generationId) then s
    else if s.generations.finds request.generationId .executing then
      (s.updateRows request.generationId (· = .executing) fun row =>
        { row with
          status := .executed
          asvsRunId := some run.runId
          executedAt := some s.now
          errorCode := none }).setCall i (.approval request (.ended (.ok run)))
    else s.setCall i (.approval request (.ended (.error (.bantam executionConflict))))
  | .error failure =>
    if s.blocked i (.row request.generationId) then s
    else
      (s.updateRows request.generationId (· = .executing) fun row =>
        { row with
          status := .ready
          approvedAt := none
          errorCode := some (executionError failure).code }).setCall i
            (.approval request (.ended (.error (.bantam (executionError failure)))))

def asvsCallStep (services : AsvsServices) (s : AsvsState) (i : Nat) (call : AsvsCall) :
    AsvsCallStep → AsvsState
  | .select =>
    match call with
    | .approval request .requested => selectGeneration services s i request
    | _ => s
  | .review =>
    match call with
    | .approval request (.selected row) => approveGeneration services s i request row
    | _ => s
  | .run step =>
    match call.execution with
    | some (initiatedBy, run) =>
      let (run, committed) := run.advance services.runnerEnabled initiatedBy s.now
        (s.blocked i .runner) s.runs step
      { s.setCall i (call.withRun run) with runs := s.runs ++ committed.toList }
    | none => s
  | .settle =>
    match call with
    | .approval request (.executing (.ended result)) => settleExecution s i request result
    | _ => s
  | .fail failure =>
    -- an approval whose transaction fails is rolled back; where the statement after the
    -- execution fails, the row stays as it is
    match call with
    | .approval request (.requested) | .approval request (.selected _)
    | .approval request (.executing (.ended _)) =>
      s.setCall i (.approval request (.ended (.error failure)))
    | _ => s
  | .crash => s.setCall i .crashed

/-- The statement of the call updates its generation, and so waits for the row. -/
def GenerateStep.updates : GenerateStep → Bool
  | .answer _ | .refuse _ => true
  | _ => false

def asvsStep (services : AsvsServices) (s : AsvsState) : AsvsEvent → AsvsState
  | .tick elapsed => { s with generations := { s.generations with now := s.now + elapsed } }
  | .generate request =>
    { s with generations := generationStep services.ai s.generations (.generate request) }
  | .advance i step =>
    match s.generations.generating[i]? with
    | some call =>
      if step.updates && s.rowLocked call.request.generationId then s
      else { s with generations := generateStep services.ai s.generations i call step }
    | none => s
  | .execute initiatedBy => { s with calls := s.calls ++ [.direct initiatedBy .requested] }
  | .approve request => { s with calls := s.calls ++ [.approval request .requested] }
  | .progress i step =>
    match s.calls[i]? with
    | some call => asvsCallStep services s i call step
    | none => s

/-- The run that the step commits, and the call whose execution it is. -/
def AsvsState.commits (services : AsvsServices) (s : AsvsState) : AsvsEvent → Option (Nat × AsvsRun)
  | .progress i (.run step) => do
    let (initiatedBy, run) ← s.calls[i]?.bind AsvsCall.execution
    let run ← (run.advance services.runnerEnabled initiatedBy s.now (s.blocked i .runner) s.runs
      step).2
    return (i, run)
  | _ => none

end Bantam
