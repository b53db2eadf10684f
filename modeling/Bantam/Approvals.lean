import Bantam.Challenges
import Bantam.Lib.Locks
import Bantam.Lib.Runs

/-! The applications of auditors and the decisions on them. Any number of decisions are made at
once, one statement at a time; a decision locks the application and the applicant's account, and
its writes become visible at its commit. -/
namespace Bantam
open Tables

inductive ApprovalStatus where
  | pending | approved | rejected
  deriving DecidableEq

def ApprovalStatus.str : ApprovalStatus → String
  | .pending => "PENDING"
  | .approved => "APPROVED"
  | .rejected => "REJECTED"

/-- A row of `aspis_auditor_requests`. -/
structure AuditorRequest where
  requestId : Uuid
  userId : Uuid
  status : ApprovalStatus
  decidedBy : Option Uuid
  decisionReason : Option String
  requestedAt : Instant
  decidedAt : Option Instant
  settled :
    (status = .pending ∧ decidedBy = none ∧ decidedAt = none) ∨
    (status ≠ .pending ∧ decidedBy.isSome ∧ decidedAt.isSome)
  deriving DecidableEq

structure ApprovalDb where
  bank : Db
  requests : List AuditorRequest
  deriving DecidableEq

/-- The `UPDATE` of an application by a decision. -/
def AuditorRequest.decide (status : ApprovalStatus) (decided : status ≠ .pending)
    (decidedBy : Uuid) (reason : Option String) (now : Instant) (r : AuditorRequest) :
    AuditorRequest :=
  { r with
    status := status, decidedBy := some decidedBy, decisionReason := reason
    decidedAt := some now, settled := .inr ⟨decided, rfl, rfl⟩ }

/-- The `UPDATE` of an account that waits for approval; it reaches no other. -/
def UserAccount.approve (u : UserAccount) : UserAccount :=
  if pending : u.role = .pendingApproval then
    { u with
      role := .aspisAuditor, status := .active
      owned := by simpa [pending] using u.owned }
  else u

def UserAccount.disable (u : UserAccount) : UserAccount := { u with status := .disabled }

def auditorRequestNotFound : BantamError := ⟨"NOT_FOUND", "Auditor request was not found.", 404⟩
def alreadyDecided : BantamError :=
  ⟨"INVALID_APPROVAL_STATE", "This auditor request was already decided.", 409⟩
def noLongerPending : BantamError :=
  ⟨"INVALID_APPROVAL_STATE", "The applicant account is no longer pending.", 409⟩
def mfaStepUpRequired : BantamError :=
  ⟨"MFA_STEP_UP_REQUIRED", "Sign in with MFA again before performing this action.", 403⟩

/-- The account that a registration makes, and its application. -/
def newApplicant (draw : Draw) (email : String) : UserAccount where
  userId := draw.userId
  email := email
  role := .pendingApproval
  customerId := none
  status := .active
  mfaEnabled := false
  owned := by simp

def newRequest (draw : Draw) : AuditorRequest where
  requestId := draw.rowId
  userId := draw.userId
  status := .pending
  decidedBy := none
  decisionReason := none
  requestedAt := draw.databaseNow
  decidedAt := none
  settled := by simp

def requestedAudit (draw : Draw) : AuditEvent :=
  requestAudit draw draw.userId "ASPIS_AUDITOR_REQUESTED" "aspis_auditor_request"
    (Uuid.str draw.rowId) [("requested_role", .str (Role.str .aspisAuditor))]

namespace ApprovalDb

def insertRequest (row : AuditorRequest) (db : ApprovalDb) : Except Failure ApprovalDb := do
  Db.require .uniqueViolation (row.requestId ∉ db.requests.map AuditorRequest.requestId)
  Db.require .uniqueViolation (row.userId ∉ db.requests.map AuditorRequest.userId)
  Db.require .foreignKeyViolation (row.userId ∈ db.bank.users.map UserAccount.userId)
  return { db with requests := db.requests ++ [row] }

/-- `register_aspis_auditor`, from its database transaction on. -/
def registerAuditor (draw : Draw) (email : String) (db : ApprovalDb) :
    Except Failure ApprovalDb := do
  let bank ← db.bank.insertUser (newApplicant draw email)
  let db ← insertRequest (newRequest draw) { db with bank := bank }
  let bank ← db.bank.insertAudit (requestedAudit draw)
  return { db with bank := bank }

/-- `bootstrap_aspis_admin` -/
def bootstrapAspisAdmin (draw : Draw) (email : String) (db : Db) : Except Failure Db :=
  match lookup UserAccount.email email db.users with
  | some existing =>
    if existing.role ≠ .aspisAdmin then
      .error (.runtime "bootstrap email belongs to a different account role")
    else .ok db
  | none => do
    let db ← db.insertUser {
      userId := draw.userId, email := email, role := .aspisAdmin, customerId := none,
      status := .active, mfaEnabled := false, owned := by simp }
    db.insertAudit {
      auditEventId := draw.auditEventId, actorType := "SYSTEM",
      actorId := "aspis-admin-bootstrap", action := "ASPIS_ADMIN_BOOTSTRAPPED",
      resourceType := "user_account", resourceId := Uuid.str draw.userId,
      requestId := draw.requestId, correlationId := draw.requestId,
      metadata := [("role", .str (Role.str .aspisAdmin))] }

end ApprovalDb

/-- A call of `decide_aspis_auditor_request`: who makes it, when the second factor of the session
was shown, and what is decided. -/
structure Decision where
  draw : Draw
  principal : Principal
  mfaAt : Option Instant
  requestId : Uuid
  approve : Bool
  reason : String
  deriving DecidableEq

/-- `require_recent_mfa` -/
def requireRecentMfa (stepUpTtl : Int) (now : Instant) (mfaAt : Option Instant) :
    Except Failure Unit :=
  match mfaAt with
  | none => .error (.bantam mfaStepUpRequired)
  | some at_ => if now - at_ > stepUpTtl then .error (.bantam mfaStepUpRequired) else .ok ()

namespace Decision

def status (d : Decision) : ApprovalStatus := if d.approve then .approved else .rejected

theorem status_ne_pending (d : Decision) : d.status ≠ .pending := by
  unfold status
  split <;> simp

/-- `reason or None` -/
def givenReason (d : Decision) : Option String :=
  if Text.strip d.reason = "" then none else some (Text.strip d.reason)

/-- What a call passes before its database transaction. -/
def authorise (settings : Settings) (stepUpTtl : Int) (d : Decision) (db : Db) :
    Except Failure Unit := do
  requireRoles [.bankAdmin, .aspisAdmin] d.principal db
  requireRecentMfa stepUpTtl d.draw.now d.mfaAt
  requireAdminScope settings d.principal .aspisAuditors db
  if !d.approve ∧ Text.strip d.reason = "" then
    .error (.bantam (validation "A reason is required when rejecting an auditor."))
  else .ok ()

/-- What the decision makes of the account that waits for it. -/
def outcome (d : Decision) : UserAccount → UserAccount :=
  if d.approve then UserAccount.approve else UserAccount.disable

/-- The metadata has no member for a reason that was not given, where the source has a null. -/
def audit (d : Decision) (userId : Uuid) : AuditEvent :=
  requestAudit d.draw d.principal.userId ("ASPIS_AUDITOR_" ++ d.status.str)
    "aspis_auditor_request" (Uuid.str d.requestId)
    (("subject_user_id", .str (Uuid.str userId)) ::
      d.givenReason.toList.map fun reason => ("reason", .str reason))

/-- The writes of the transaction, on the database as it is committed. -/
def write (d : Decision) (userId : Uuid) (db : ApprovalDb) : Except Failure ApprovalDb :=
  let targets := fun u : UserAccount => decide (u.userId = userId ∧ u.role = .pendingApproval)
  if db.bank.users.any targets then do
    let users := updateWhere targets d.outcome db.bank.users
    let requests := updateWhere (fun r => decide (r.requestId = d.requestId))
      (AuditorRequest.decide d.status d.status_ne_pending d.principal.userId d.givenReason
        d.draw.databaseNow) db.requests
    let bank ← { db.bank with users := users }.insertAudit (d.audit userId)
    return ⟨bank, requests⟩
  else .error (.bantam noLongerPending)

end Decision

inductive ApprovalLock where
  | request (requestId : Uuid)
  | user (userId : Uuid)
  deriving DecidableEq

/-- The statement that a call is at, with the applicant it has read. -/
inductive DecisionStage where
  | received
  | authorised
  | selected (userId : Uuid)
  | written (userId : Uuid)
  | returned (result : Except Failure ApprovalStatus)
  | crashed
  deriving DecidableEq

structure DecisionCall where
  decision : Decision
  stage : DecisionStage
  deriving DecidableEq

namespace DecisionCall

def become (c : DecisionCall) (stage : DecisionStage) : DecisionCall := { c with stage := stage }

/-- The applicant whose rows the call has locked. -/
def applicant (c : DecisionCall) : Option Uuid :=
  match c.stage with
  | .selected userId | .written userId => some userId
  | _ => none

/-- The decision has been committed and answered. -/
def committed (c : DecisionCall) : Bool := c.stage = .returned (.ok c.decision.status)

/-- The call has shown that it may decide. -/
def passed (c : DecisionCall) : Bool :=
  match c.stage with
  | .authorised | .selected _ | .written _ => true
  | _ => c.committed

/-- The application that a call decides or has decided. -/
def claims (c : DecisionCall) : List Uuid :=
  if c.applicant.isSome || c.committed then [c.decision.requestId] else []

/-- `FOR UPDATE OF r, u` -/
def locks (c : DecisionCall) : List ApprovalLock :=
  match c.applicant with
  | some userId => [.request c.decision.requestId, .user userId]
  | none => []

/-- The next statement of a call. `blocked` tells the locks that another call has. -/
def advance (settings : Settings) (stepUpTtl : Int) (blocked : ApprovalLock → Bool)
    (c : DecisionCall) (db : ApprovalDb) : DecisionStage × ApprovalDb :=
  let d := c.decision
  match c.stage with
  | .received =>
    match d.authorise settings stepUpTtl db.bank with
    | .error e => (.returned (.error e), db)
    | .ok _ => (.authorised, db)
  | .authorised =>
    match lookup AuditorRequest.requestId d.requestId db.requests with
    | none => (.returned (.error (.bantam auditorRequestNotFound)), db)
    | some r =>
      if blocked (.request r.requestId) || blocked (.user r.userId) then (c.stage, db)
      else if r.status ≠ .pending then (.returned (.error (.bantam alreadyDecided)), db)
      else (.selected r.userId, db)
  | .selected userId =>
    match d.write userId db with
    | .error e => (.returned (.error e), db)
    | .ok _ => (.written userId, db)
  | .written userId =>
    match d.write userId db with
    | .error e => (.returned (.error e), db)
    | .ok db' => (.returned (.ok d.status), db')
  | .returned _ | .crashed => (c.stage, db)

end DecisionCall

structure ApprovalState where
  db : ApprovalDb
  calls : List DecisionCall

def ApprovalState.initial : ApprovalState := ⟨⟨Db.migrated, []⟩, []⟩

inductive ApprovalEvent where
  | register (draw : Draw) (email : String)
  | bootstrap (draw : Draw) (email : String)
  | submit (decision : Decision)
  | advance (i : Nat)
  | crash (i : Nat)
  | bank (e : BankEvent)

/-- An audit record of the applications, which only their handlers write. -/
def AuditEvent.ofApproval (a : AuditEvent) : Bool := a.resourceType = "aspis_auditor_request"

def BankEvent.records : BankEvent → Bool
  | .operation (.recordAudit event) => event.ofApproval
  | _ => false

def ApprovalState.move (s : ApprovalState) (i : Nat) (c : DecisionCall) (stage : DecisionStage)
    (db : ApprovalDb) : ApprovalState :=
  ⟨db, s.calls.set i (c.become stage)⟩

def approvalStep (settings : Settings) (sca : ScaService) (stepUpTtl : Int) (s : ApprovalState) :
    ApprovalEvent → ApprovalState
  | .register draw email =>
    match ApprovalDb.registerAuditor draw email s.db with
    | .ok db => { s with db := db }
    | .error _ => s
  | .bootstrap draw email =>
    match ApprovalDb.bootstrapAspisAdmin draw email s.db.bank with
    | .ok bank => { s with db := { s.db with bank := bank } }
    | .error _ => s
  | .submit decision => { s with calls := s.calls ++ [⟨decision, .received⟩] }
  | .advance i =>
    match s.calls[i]? with
    | none => s
    | some c =>
      let blocked := Locks.heldByOther DecisionCall.locks s.calls i
      let (stage, db) := c.advance settings stepUpTtl blocked s.db
      s.move i c stage db
  | .crash i =>
    match s.calls[i]? with
    | none => s
    | some c =>
      match c.stage with
      | .returned _ => s
      | _ => s.move i c .crashed s.db
  | .bank e =>
    if e.records then s else { s with db := { s.db with bank := bankStep settings sca s.db.bank e } }

/-! What the rest of the application leaves to the applications. -/

/-- The accounts that applications are about. -/
def UserAccount.applies (u : UserAccount) : Bool :=
  u.role = .pendingApproval || u.role = .aspisAuditor

def applicants (db : Db) : List UserAccount × List AuditEvent :=
  (db.users.filter UserAccount.applies, db.audit.filter AuditEvent.ofApproval)

section Bank
variable {settings : Settings} {sca : ScaService} {db db' : Db}

theorem insertUser_ok {row : UserAccount} (h : db.insertUser row = .ok db') :
    row.userId ∉ db.users.map UserAccount.userId ∧
    db' = { db with users := db.users ++ [row] } := by
  simp only [Db.insertUser, bind_eq_ok, require_eq_ok, pure, Except.pure, Except.ok.injEq] at h
  obtain ⟨_, hid, _, -, _, -, _, -, rfl⟩ := h
  exact ⟨hid, rfl⟩

theorem keeps_applicants_user {row : UserAccount} (hrow : row.applies = false) :
    Keeps applicants (Db.insertUser row) := by
  intro db db' h
  rw [(insertUser_ok h).2]
  simp [applicants, hrow]

theorem keeps_applicants_audit {row : AuditEvent} (hrow : row.ofApproval = false) :
    Keeps applicants (Db.insertAudit row) := by
  intro db db' h
  rw [(Db.insertAudit_ok.mp h).2]
  simp [applicants, hrow]

theorem requestAudit_ofApproval (draw : Draw) (actorId : Uuid) (action : String)
    {resourceType : String} (resourceId : String) (metadata : JsonObject)
    (h : resourceType ≠ "aspis_auditor_request") :
    (requestAudit draw actorId action resourceType resourceId metadata).ofApproval = false :=
  decide_eq_false h

theorem keeps_insertEach {ρ α : Type} {g : Db → α} {insert : ρ → Db → Except Failure Db}
    {rows : List ρ} (single : ∀ row ∈ rows, Keeps g (insert row)) :
    Keeps g (insertEach insert rows) := by
  induction rows with
  | nil =>
    intro db db' h
    cases h
    rfl
  | cons row rows ih =>
    exact (single row List.mem_cons_self).onConflictDoNothing.bind
      (ih fun r hr => single r (List.mem_cons_of_mem row hr))

theorem seedUsers_applies : ∀ u ∈ seedUsers, u.applies = false := by decide

/-- No other operation makes or changes an applicant, or writes a record of an application. -/
theorem Operation.keeps_applicants {o : Operation} (ho : (BankEvent.operation o).records = false) :
    Keeps applicants (o.perform settings sca) := by
  have audit : ∀ draw actorId action resourceType resourceId metadata,
      resourceType ≠ "aspis_auditor_request" → Keeps applicants (Db.insertAudit
        (requestAudit draw actorId action resourceType resourceId metadata)) :=
    fun draw actorId action resourceType resourceId metadata h =>
      keeps_applicants_audit
        (requestAudit_ofApproval draw actorId action resourceId metadata h)
  have outbox : ∀ row, Keeps applicants (Db.insertOutbox row) :=
    Keeps.insertOutbox fun _ _ => rfl
  have administrator : ∀ userId email, Keeps applicants (insertAdministrator userId email) :=
    fun _ _ => keeps_applicants_user rfl
  cases o with
  | register draw email =>
    exact (Keeps.insertCustomer (fun _ _ => rfl) _).bind
      ((keeps_applicants_user rfl).bind ((outbox _).bind (audit _ _ _ _ _ _ (by decide))))
  | adminCreateUser draw principal email permissions =>
    exact Keeps.guarded fun _ => Keeps.guarded fun _ => (administrator _ _).bind
      ((Keeps.grantPermissions (fun _ _ => rfl) _ _).bind (audit _ _ _ _ _ _ (by decide)))
  | bootstrapBankAdmin draw email =>
    intro db db' h
    simp only [perform, Bantam.bootstrapBankAdmin] at h
    split at h
    · split at h
      · cases h
      · exact Keeps.grantBankAdminPermissions (fun _ _ => rfl) _ _ db db' h
    · exact (administrator _ _).bind ((Keeps.grantBankAdminPermissions (fun _ _ => rfl) _ _).bind
        (keeps_applicants_audit rfl)) db db' h
  | submitKyc draw principal =>
    refine Keeps.guarded fun _ => ?_
    intro db db' h
    cases hc : principal.customerId with
    | none => simp [hc] at h
    | some customerId =>
      rw [hc] at h
      exact (Keeps.updateKyc (fun _ _ => rfl) _ _ _ _).bind
        (audit _ _ _ _ _ _ (by decide)) db db' h
  | adminDecideKyc draw principal customerId approve reason =>
    exact Keeps.guarded fun _ => Keeps.guarded fun _ =>
      (Keeps.updateKyc (fun _ _ => rfl) _ _ _ _).bind
        ((outbox _).bind (audit _ _ _ _ _ _ (by decide)))
  | openAccount draw principal currency =>
    refine Keeps.guarded fun _ => ?_
    intro db db' h
    simp only at h
    split at h
    · cases h
    · split_ifs at h
      split at h
      · cases h
      · split_ifs at h
        exact ((Keeps.insertAccount (fun _ _ => rfl) _).bind
          (Keeps.insertBalance (fun _ _ => rfl) _)).bind
            ((outbox _).bind (audit _ _ _ _ _ _ (by decide))) db db' h
  | operatorSetAccountStatus draw principal accountId freeze reason =>
    exact Keeps.guarded fun _ => Keeps.guarded fun _ =>
      (Keeps.updateStatus (fun _ _ => rfl) _ _).bind
        ((outbox _).bind (audit _ _ _ _ _ _ (by decide)))
  | createScaChallenge draw principal code source destination amountMinor =>
    intro db db' h
    simp only [perform, Bantam.createScaChallenge, bind_eq_ok] at h
    obtain ⟨_, -, ⟨required, mid⟩, hcreate, haudit⟩ := h
    have hmid : applicants mid = applicants db := by
      unfold ScaService.create at hcreate
      split at hcreate
      · cases hcreate
      · split_ifs at hcreate
        · cases hcreate
          rfl
        · simp only [Db.insertChallenge, bind_eq_ok, pure, Except.pure, Except.ok.injEq,
            Prod.mk.injEq] at hcreate
          obtain ⟨_, ⟨_, -, _, -, _, -, _, -, _, -, rfl⟩, -, rfl⟩ := hcreate
          rfl
    split at haudit
    · rename_i last hlast
      cases haudit
      rw [audit _ _ _ _ _ _ (by decide) mid db' hlast, hmid]
    · cases haudit
      exact hmid
  | createRiskAlert draw threshold transactionId source destination amountMinor =>
    intro db db' h
    simp only [perform, Bantam.createRiskAlert] at h
    split_ifs at h
    · exact Except.ok.inj h ▸ rfl
    · exact Except.ok.inj h ▸ rfl
    · exact (Keeps.insertRiskAlert (fun _ _ => rfl) _).bind
        ((outbox _).bind (keeps_applicants_audit rfl)) db db' h
  | seedRows now =>
    have users : Keeps applicants (insertEach Db.insertUser seedUsers) :=
      keeps_insertEach fun row hrow => keeps_applicants_user (seedUsers_applies row hrow)
    exact (Keeps.insertEach (Keeps.insertCustomer fun _ _ => rfl) _).bind (users.bind
      ((Keeps.grantBankAdminPermissions (fun _ _ => rfl) _ _).bind
        ((Keeps.insertEach (Keeps.insertAccount fun _ _ => rfl) _).bind
          (Keeps.insertEach (Keeps.insertBalance fun _ _ => rfl) _))))
  | recordAudit event => exact keeps_applicants_audit ho

/-- What a step of the bank leaves to the applications: accounts and permissions are added to,
and the applicants and the records about them stay as they are. -/
structure Grown (db db' : Db) : Prop where
  applicants : applicants db' = applicants db
  users : db.users <+: db'.users
  permissions : db.permissions <+: db'.permissions
  keyed : Keyed UserAccount.userId db.users → Keyed UserAccount.userId db'.users

theorem Writes.grown {touched : List Uuid} (w : Writes touched db db') :
    db.users <+: db'.users ∧ db.permissions <+: db'.permissions ∧
      (Keyed UserAccount.userId db.users → Keyed UserAccount.userId db'.users) := by
  induction w with
  | refl => exact ⟨List.prefix_refl _, List.prefix_refl _, id⟩
  | tail _ w ih =>
    obtain ⟨husers, hpermissions, hkeyed⟩ := ih
    cases w with
    | user row fresh =>
      exact ⟨husers.trans (List.prefix_append _ _), hpermissions,
        fun h => keyed_append_one.mpr ⟨hkeyed h, fresh⟩⟩
    | permission row => exact ⟨husers, hpermissions.trans (List.prefix_append _ _), hkeyed⟩
    | _ => exact ⟨husers, hpermissions, hkeyed⟩

theorem Grown.refl (db : Db) : Grown db db :=
  ⟨rfl, List.prefix_refl _, List.prefix_refl _, id⟩

theorem bankStep_grown {e : BankEvent} (he : e.records = false) :
    Grown db (bankStep settings sca db e) := by
  cases e with
  | operation o =>
    simp only [bankStep]
    split
    · rename_i db' hok
      obtain ⟨husers, hpermissions, hkeyed⟩ := (Operation.perform_writes hok).grown
      exact ⟨Operation.keeps_applicants he db db' hok, husers, hpermissions, hkeyed⟩
    · exact Grown.refl db
  | transfer attempt command =>
    cases createTransfer_cases sca attempt command db with
    | inl hrefused =>
      obtain ⟨he, -⟩ := hrefused
      rw [bankStep, he]
      exact Grown.refl db
    | inr hcommitted =>
      obtain ⟨cmd, db', -, he, ht⟩ := hcommitted
      obtain ⟨_, _, -, -, -, -, -, -, -, hp⟩ := ht
      have husers : db'.users = db.users := by rw [hp.users, challenged_eq]
      have hpermissions : db'.permissions = db.permissions := by
        rw [hp.permissions, challenged_eq]
      have haudit : db'.audit = db.audit ++ [transferAudit attempt cmd] := by
        rw [hp.audit, challenged_eq]
      have hother : (transferAudit attempt cmd).ofApproval = false := rfl
      rw [bankStep, he]
      refine ⟨?_, husers ▸ List.prefix_refl _, hpermissions ▸ List.prefix_refl _,
        fun h => husers ▸ h⟩
      simp [applicants, husers, haudit, hother]

theorem bootstrapAspisAdmin_grown {draw : Draw} {email : String}
    (h : ApprovalDb.bootstrapAspisAdmin draw email db = .ok db') : Grown db db' := by
  unfold ApprovalDb.bootstrapAspisAdmin at h
  split at h
  · split_ifs at h
    cases h
    exact Grown.refl db
  · obtain ⟨mid, huser, haudit⟩ := bind_eq_ok.mp h
    have hkept := (keeps_applicants_audit (by rfl) mid db' haudit).trans
      (keeps_applicants_user (by rfl) db mid huser)
    obtain ⟨fresh, rfl⟩ := insertUser_ok huser
    obtain ⟨-, rfl⟩ := Db.insertAudit_ok.mp haudit
    exact ⟨hkept, List.prefix_append _ _, List.prefix_refl _,
      fun keyed => keyed_append_one.mpr ⟨keyed, fresh⟩⟩

/-- What a step leaves to those who may decide: their accounts and what they are permitted. -/
structure Empowers (db db' : Db) : Prop where
  kept : ∀ u ∈ db.users, u.applies = false → u ∈ db'.users
  keyed : Keyed UserAccount.userId db'.users
  permissions : db.permissions ⊆ db'.permissions

theorem Grown.empowers (h : Grown db db') (keyed : Keyed UserAccount.userId db.users) :
    Empowers db db' :=
  ⟨fun _ hu _ => h.users.subset hu, h.keyed keyed, h.permissions.subset⟩

theorem Empowers.requireAdminScope {principal : Principal} {scope : AdminScope}
    (h : Empowers db db') (hok : requireAdminScope settings principal scope db = .ok ()) :
    Bantam.requireAdminScope settings principal scope db' = .ok () := by
  simp only [Bantam.requireAdminScope, describeAdminAccess] at hok ⊢
  by_cases hrole : principal.role ≠ .bankAdmin
  · simp [hrole]
  · simp only [if_neg hrole] at hok ⊢
    by_cases hsuper' : (db'.users.any fun u => u.userId = principal.userId &&
        u.role = .bankAdmin && u.status = .active && settings.isSuperAdmin u.email) = true
    · simp [hsuper']
    · have hsuper : ¬(db.users.any fun u => u.userId = principal.userId &&
          u.role = .bankAdmin && u.status = .active && settings.isSuperAdmin u.email) = true := by
        intro hany
        obtain ⟨u, hu, hcond⟩ := List.any_eq_true.mp hany
        have hadmin : u.role = .bankAdmin := by
          simp only [Bool.and_eq_true, decide_eq_true_eq] at hcond
          exact hcond.1.1.2
        exact hsuper' (List.any_eq_true.mpr
          ⟨u, h.kept u hu (by simp [UserAccount.applies, hadmin]), hcond⟩)
      simp only [if_neg hsuper, if_neg hsuper', Bool.false_eq_true, false_or] at hok ⊢
      split_ifs at hok with hscope
      rw [if_pos]
      obtain ⟨p, hp, rfl⟩ := List.mem_map.mp hscope
      obtain ⟨hmem, hid⟩ := List.mem_filter.mp hp
      exact List.mem_map.mpr ⟨p, List.mem_filter.mpr ⟨h.permissions hmem, hid⟩, rfl⟩

theorem Empowers.requireRoles {roles : List Role} {principal : Principal} (h : Empowers db db')
    (hroles : ∀ role ∈ roles, role ≠ .pendingApproval ∧ role ≠ .aspisAuditor)
    (hok : requireRoles roles principal db = .ok ()) :
    Bantam.requireRoles roles principal db' = .ok () := by
  obtain ⟨_, hcurrent, hrole⟩ := bind_eq_ok.mp hok
  have hmember : principal.role ∈ roles := by
    by_contra hnot
    simp [hnot] at hrole
  unfold authenticatedPrincipal at hcurrent
  split at hcurrent
  · cases hcurrent
  · rename_i current hfound
    split_ifs at hcurrent with hsame
    have hother : current.applies = false := by
      have hne := hroles _ hmember
      have heq : current.role = principal.role := by
        by_contra hne
        exact hsame (.inr (.inl hne))
      simp [UserAccount.applies, heq, hne.1, hne.2]
    have hfound' : db'.findUser principal.userId = some current :=
      (lookup_eq_some_iff h.keyed).mpr ⟨h.kept current (lookup_mem hfound) hother,
        lookup_key hfound⟩
    refine bind_eq_ok.mpr ⟨(), ?_, by rw [if_pos hmember]⟩
    rw [authenticatedPrincipal, hfound']
    simp only [if_neg hsame]

/-- A decision that may be made may be made later. -/
theorem Empowers.authorise {d : Decision} {stepUpTtl : Int} (h : Empowers db db')
    (hok : d.authorise settings stepUpTtl db = .ok ()) :
    d.authorise settings stepUpTtl db' = .ok () := by
  obtain ⟨_, hroles, hrest⟩ := bind_eq_ok.mp hok
  obtain ⟨_, hmfa, hrest⟩ := bind_eq_ok.mp hrest
  obtain ⟨_, hscope, hreason⟩ := bind_eq_ok.mp hrest
  exact bind_eq_ok.mpr ⟨_, h.requireRoles (by decide) hroles, bind_eq_ok.mpr ⟨_, hmfa,
    bind_eq_ok.mpr ⟨_, h.requireAdminScope hscope, hreason⟩⟩⟩
end Bank

/-- The audit records of an application. -/
def trail (requestId : Uuid) (db : Db) : List AuditEvent :=
  db.audit.filter fun a => a.ofApproval && a.resourceId = Uuid.str requestId

namespace AuditorRequest

/-- The account that an application is about is as its status says. -/
def Fits (r : AuditorRequest) (u : UserAccount) : Prop :=
  match r.status with
  | .pending => u.role = .pendingApproval ∧ u.status = .active
  | .approved => u.role = .aspisAuditor ∧ u.status = .active
  | .rejected => u.role = .pendingApproval ∧ u.status = .disabled

/-- The actions and the actors that the audit records of an application must name. -/
def story (r : AuditorRequest) : List (String × String) :=
  ("ASPIS_AUDITOR_REQUESTED", Uuid.str r.userId) ::
    r.decidedBy.toList.map fun decider => ("ASPIS_AUDITOR_" ++ r.status.str, Uuid.str decider)

end AuditorRequest

/-- The applications, the accounts they are about and the audit records agree. -/
structure Agreed (db : ApprovalDb) : Prop where
  users : Keyed UserAccount.userId db.bank.users
  requests : Keyed AuditorRequest.requestId db.requests
  owners : Keyed AuditorRequest.userId db.requests
  accounts : ∀ r ∈ db.requests, ∃ u ∈ db.bank.users, u.userId = r.userId ∧ r.Fits u
  applied : ∀ u ∈ db.bank.users, u.applies = true → ∃ r ∈ db.requests, r.userId = u.userId
  told : ∀ r ∈ db.requests,
    (trail r.requestId db.bank).map (fun a => (a.action, a.actorId)) = r.story
  untold : ∀ id, id ∉ db.requests.map AuditorRequest.requestId → trail id db.bank = []

/-- The row is what the decision made of it. -/
structure Decision.Made (d : Decision) (r : AuditorRequest) : Prop where
  requestId : r.requestId = d.requestId
  status : r.status = d.status
  decidedBy : r.decidedBy = some d.principal.userId
  reason : r.decisionReason = d.givenReason
  decidedAt : r.decidedAt = some d.draw.databaseNow

section Tables
variable {settings : Settings} {stepUpTtl : Int} {db db' : ApprovalDb} {d : Decision}
  {draw : Draw} {email : String} {userId : Uuid}

theorem AuditorRequest.Fits.applies {r : AuditorRequest} {u : UserAccount} (h : r.Fits u) :
    u.applies = true := by
  unfold Fits at h
  split at h <;> simp [UserAccount.applies, h.1]

theorem trail_eq (id : Uuid) (db : Db) :
    trail id db = (applicants db).2.filter fun a => decide (a.resourceId = Uuid.str id) := by
  rw [applicants, List.filter_filter]
  refine List.filter_congr fun a _ => ?_
  rw [Bool.and_comm]

theorem trail_append {a b : Db} {row : AuditEvent} (h : a.audit = b.audit ++ [row])
    (hrow : row.ofApproval = true) (id : Uuid) :
    trail id a = trail id b ++ if row.resourceId = Uuid.str id then [row] else [] := by
  rw [trail, h, List.filter_append, ← trail, List.filter_singleton, hrow, Bool.true_and]
  by_cases hid : row.resourceId = Uuid.str id <;> simp [hid]

/-- What leaves the applicants alone leaves the applications settled. -/
theorem Agreed.congr {bank : Db} (h : Agreed db) (ha : applicants bank = applicants db.bank)
    (hkeyed : Keyed UserAccount.userId bank.users) : Agreed { db with bank := bank } := by
  have husers : ∀ u, u.applies = true → (u ∈ bank.users ↔ u ∈ db.bank.users) := by
    intro u hu
    have hmem := congrArg (fun a => u ∈ a.1) ha
    simpa [applicants, List.mem_filter, hu] using hmem
  have htrail : ∀ id, trail id bank = trail id db.bank := by
    intro id
    rw [trail_eq, trail_eq, ha]
  refine ⟨hkeyed, h.requests, h.owners, ?_, ?_, ?_, ?_⟩
  · intro r hr
    obtain ⟨u, hu, hid, hfits⟩ := h.accounts r hr
    exact ⟨u, (husers u hfits.applies).mpr hu, hid, hfits⟩
  · exact fun u hu happlies => h.applied u ((husers u happlies).mp hu) happlies
  · intro r hr
    simp only [htrail]
    exact h.told r hr
  · intro id hid
    simp only [htrail]
    exact h.untold id hid

theorem insertRequest_ok {row : AuditorRequest} (h : db.insertRequest row = .ok db') :
    row.requestId ∉ db.requests.map AuditorRequest.requestId ∧
    row.userId ∉ db.requests.map AuditorRequest.userId ∧
    db' = { db with requests := db.requests ++ [row] } := by
  simp only [ApprovalDb.insertRequest, bind_eq_ok, require_eq_ok, pure, Except.pure,
    Except.ok.injEq] at h
  obtain ⟨_, hid, _, howner, _, -, rfl⟩ := h
  exact ⟨hid, howner, rfl⟩

theorem registerAuditor_ok (h : ApprovalDb.registerAuditor draw email db = .ok db') :
    draw.userId ∉ db.bank.users.map UserAccount.userId ∧
    draw.rowId ∉ db.requests.map AuditorRequest.requestId ∧
    draw.userId ∉ db.requests.map AuditorRequest.userId ∧
    db' = ⟨{ db.bank with
        users := db.bank.users ++ [newApplicant draw email]
        audit := db.bank.audit ++ [requestedAudit draw] },
      db.requests ++ [newRequest draw]⟩ := by
  simp only [ApprovalDb.registerAuditor, bind_eq_ok, pure, Except.pure, Except.ok.injEq] at h
  obtain ⟨bank, huser, mid, hrequest, last, haudit, rfl⟩ := h
  obtain ⟨huserFresh, rfl⟩ := insertUser_ok huser
  obtain ⟨hid, howner, rfl⟩ := insertRequest_ok hrequest
  obtain ⟨-, rfl⟩ := Db.insertAudit_ok.mp haudit
  exact ⟨huserFresh, hid, howner, rfl⟩

theorem Agreed.register (h : Agreed db)
    (hok : ApprovalDb.registerAuditor draw email db = .ok db') : Agreed db' := by
  obtain ⟨huser, hid, howner, rfl⟩ := registerAuditor_ok hok
  have htrail : ∀ id, trail id { db.bank with
      users := db.bank.users ++ [newApplicant draw email]
      audit := db.bank.audit ++ [requestedAudit draw] } =
      trail id db.bank ++ if draw.rowId = id then [requestedAudit draw] else [] := by
    intro id
    rw [trail_append (b := db.bank) rfl rfl]
    simp only [requestedAudit, requestAudit, Uuid.str_inj]
  refine ⟨keyed_append_one.mpr ⟨h.users, huser⟩, keyed_append_one.mpr ⟨h.requests, hid⟩,
    keyed_append_one.mpr ⟨h.owners, howner⟩, ?_, ?_, ?_, ?_⟩
  · intro r hr
    cases List.mem_append.mp hr with
    | inl hold =>
      obtain ⟨u, hu, hsame, hfits⟩ := h.accounts r hold
      exact ⟨u, List.mem_append_left _ hu, hsame, hfits⟩
    | inr hnew =>
      rw [List.mem_singleton.mp hnew]
      exact ⟨newApplicant draw email, List.mem_append_right _ (List.mem_singleton_self _), rfl,
        rfl, rfl⟩
  · intro u hu happlies
    cases List.mem_append.mp hu with
    | inl hold =>
      obtain ⟨r, hr, hsame⟩ := h.applied u hold happlies
      exact ⟨r, List.mem_append_left _ hr, hsame⟩
    | inr hnew =>
      rw [List.mem_singleton.mp hnew]
      exact ⟨newRequest draw, List.mem_append_right _ (List.mem_singleton_self _), rfl⟩
  · intro r hr
    rw [htrail]
    cases List.mem_append.mp hr with
    | inl hold =>
      have hne : draw.rowId ≠ r.requestId := fun he => hid (he ▸ List.mem_map_of_mem hold)
      rw [if_neg hne, List.append_nil]
      exact h.told r hold
    | inr hnew =>
      have hself : draw.rowId = (newRequest draw).requestId := rfl
      rw [List.mem_singleton.mp hnew, if_pos hself]
      exact congrArg (fun l => List.map _ (l ++ _)) (h.untold _ hid)
  · intro id hnone
    rw [List.map_append, List.mem_append, not_or] at hnone
    have hne : draw.rowId ≠ id := fun he => hnone.2 (he ▸ List.mem_singleton_self _)
    rw [htrail, if_neg hne, List.append_nil, h.untold id hnone.1]

/-- The rows that the transaction of a decision leaves. -/
def Decision.written (d : Decision) (userId : Uuid) (db : ApprovalDb) : ApprovalDb :=
  ⟨{ db.bank with
      users := updateWhere
        (fun u : UserAccount => decide (u.userId = userId ∧ u.role = .pendingApproval))
        d.outcome db.bank.users
      audit := db.bank.audit ++ [d.audit userId] },
    updateWhere (fun r => decide (r.requestId = d.requestId))
      (AuditorRequest.decide d.status d.status_ne_pending d.principal.userId d.givenReason
        d.draw.databaseNow) db.requests⟩

theorem Decision.write_ok (h : d.write userId db = .ok db') : db' = d.written userId db := by
  unfold Decision.write at h
  simp only at h
  split at h
  · obtain ⟨bank, haudit, hlast⟩ := bind_eq_ok.mp h
    cases hlast
    rw [(Db.insertAudit_ok.mp haudit).2]
    rfl
  · cases h

/-- Whatever a decision makes of an account, it leaves the key. -/
theorem Decision.outcome_userId (u : UserAccount) : (d.outcome u).userId = u.userId := by
  unfold outcome
  cases d.approve with
  | true =>
    simp only [if_true, UserAccount.approve]
    split_ifs <;> rfl
  | false => rfl

/-- An account that waits is as the decided application says. -/
theorem Decision.outcome_fits {u : UserAccount} {r : AuditorRequest}
    (hpending : u.role = .pendingApproval) (hr : r.status = d.status) : r.Fits (d.outcome u) := by
  unfold AuditorRequest.Fits
  rw [hr]
  unfold outcome status
  cases d.approve with
  | true => simp [UserAccount.approve, hpending]
  | false => simp [UserAccount.disable, hpending]

/-- A decision on an application that is pending settles it and touches no other. -/
theorem Agreed.decide {r : AuditorRequest} (h : Agreed db) (hr : r ∈ db.requests)
    (hid : r.requestId = d.requestId) (hpending : r.status = .pending) :
    Agreed (d.written r.userId db) := by
  obtain ⟨applicant, happlicant, howner, hfits⟩ := h.accounts r hr
  have hwaits : applicant.role = .pendingApproval := by
    simp only [AuditorRequest.Fits, hpending] at hfits
    exact hfits.1
  have hundecided : r.decidedBy = none := by
    rcases r.settled with hopen | hclosed
    · exact hopen.2.1
    · exact absurd hpending hclosed.1
  have htrail : ∀ id, trail id (d.written r.userId db).bank =
      trail id db.bank ++ if d.requestId = id then [d.audit r.userId] else [] := by
    intro id
    rw [trail_append (b := db.bank) rfl rfl]
    simp only [Decision.audit, requestAudit, Uuid.str_inj]
  have same : ∀ q ∈ db.requests, q.requestId = d.requestId → q = r :=
    fun q hq he => h.requests.eq_of_key hq hr (he.trans hid.symm)
  have hids : (d.written r.userId db).requests.map AuditorRequest.requestId =
      db.requests.map AuditorRequest.requestId := map_updateWhere _ _ _ fun _ => rfl
  have howners : (d.written r.userId db).requests.map AuditorRequest.userId =
      db.requests.map AuditorRequest.userId := map_updateWhere _ _ _ fun _ => rfl
  refine ⟨(keyed_updateWhere _ Decision.outcome_userId).mpr h.users,
    (by rw [Keyed, hids]; exact h.requests), (by rw [Keyed, howners]; exact h.owners),
    ?_, ?_, ?_, ?_⟩
  · refine forall_updateWhere (fun q hq hnot => ?_) fun q hq htarget => ?_
    · obtain ⟨u, hu, hsame, hfits⟩ := h.accounts q hq
      have hne : u.userId ≠ r.userId := by
        intro he
        have hqr : q = r := h.owners.eq_of_key hq hr (hsame.symm.trans he)
        exact of_decide_eq_false hnot (hqr ▸ hid)
      exact ⟨u, mem_updateWhere_of_not hu (decide_eq_false fun hboth => hne hboth.1), hsame, hfits⟩
    · obtain rfl := same q hq (of_decide_eq_true htarget)
      exact ⟨d.outcome applicant,
        mem_updateWhere_of happlicant (decide_eq_true ⟨howner, hwaits⟩),
        (Decision.outcome_userId applicant).trans howner, Decision.outcome_fits hwaits rfl⟩
  · have found : ∀ u ∈ db.bank.users, u.applies = true →
        ∃ q ∈ (d.written r.userId db).requests, q.userId = u.userId := by
      intro u hu happlies
      obtain ⟨q, hq, hsame⟩ := h.applied u hu happlies
      have hmem : u.userId ∈ db.requests.map AuditorRequest.userId :=
        hsame ▸ List.mem_map_of_mem hq
      exact List.mem_map.mp (howners ▸ hmem)
    refine forall_updateWhere (fun u hu _ => found u hu) fun u hu htarget _ => ?_
    rw [Decision.outcome_userId]
    exact found u hu (by simp [UserAccount.applies, (of_decide_eq_true htarget).2])
  · refine forall_updateWhere (fun q hq hnot => ?_) fun q hq htarget => ?_
    · have hne : d.requestId ≠ q.requestId := fun he => of_decide_eq_false hnot he.symm
      rw [htrail, if_neg hne, List.append_nil]
      exact h.told q hq
    · obtain rfl := same q hq (of_decide_eq_true htarget)
      have hold := h.told q hq
      rw [AuditorRequest.story, hundecided] at hold
      have hdecided : d.requestId = (q.decide d.status d.status_ne_pending d.principal.userId
        d.givenReason d.draw.databaseNow).requestId := hid.symm
      rw [htrail, if_pos hdecided, List.map_append]
      exact congrArg (· ++ _) hold
  · intro id hnone
    rw [hids] at hnone
    have hne : d.requestId ≠ id := fun he => hnone (he ▸ hid ▸ List.mem_map_of_mem hr)
    rw [htrail, if_neg hne, List.append_nil, h.untold id hnone]
end Tables

namespace DecisionCall

/-- What a call can do in one step, with all that the step has established. -/
inductive Moves (settings : Settings) (stepUpTtl : Int) (blocked : ApprovalLock → Bool)
    (c : DecisionCall) (db : ApprovalDb) : DecisionStage → ApprovalDb → Prop where
  | wait : Moves settings stepUpTtl blocked c db c.stage db
  | refuse (e : Failure) (running : c.committed = false) :
      Moves settings stepUpTtl blocked c db (.returned (.error e)) db
  | authorise (running : c.committed = false)
      (allowed : c.decision.authorise settings stepUpTtl db.bank = .ok ()) :
      Moves settings stepUpTtl blocked c db .authorised db
  | select (r : AuditorRequest) (stage : c.stage = .authorised) (found : r ∈ db.requests)
      (named : r.requestId = c.decision.requestId) (pending : r.status = .pending)
      (free : blocked (.request r.requestId) = false) :
      Moves settings stepUpTtl blocked c db (.selected r.userId) db
  | write (userId : Uuid) (stage : c.stage = .selected userId) :
      Moves settings stepUpTtl blocked c db (.written userId) db
  | commit (userId : Uuid) (stage : c.stage = .written userId) :
      Moves settings stepUpTtl blocked c db (.returned (.ok c.decision.status))
        (c.decision.written userId db)

theorem advance_moves (settings : Settings) (stepUpTtl : Int) (blocked : ApprovalLock → Bool)
    (c : DecisionCall) (db : ApprovalDb) :
    Moves settings stepUpTtl blocked c db (c.advance settings stepUpTtl blocked db).1
      (c.advance settings stepUpTtl blocked db).2 := by
  have stay : ∀ stage, c.stage = stage → Moves settings stepUpTtl blocked c db stage db :=
    fun stage h => h ▸ .wait
  have running : ∀ stage, c.stage = stage → (∀ result, stage ≠ .returned result) →
      c.committed = false :=
    fun stage h hne => decide_eq_false fun he => hne _ (h ▸ he)
  unfold advance
  cases hs : c.stage with
  | received =>
    simp only
    split
    · exact .refuse _ (running _ hs (by simp))
    · exact .authorise (running _ hs (by simp)) ‹_›
  | authorised =>
    simp only
    split
    · exact .refuse _ (running _ hs (by simp))
    · rename_i r hfound
      split_ifs with hblocked hdecided
      · exact stay _ hs
      · exact .refuse _ (running _ hs (by simp))
      · have hfree : blocked (.request r.requestId) = false := by
          by_contra hheld
          simp [hheld] at hblocked
        exact .select r hs (Tables.lookup_mem hfound) (Tables.lookup_key hfound)
          (not_not.mp hdecided) hfree
  | selected userId =>
    simp only
    split
    · exact .refuse _ (running _ hs (by simp))
    · exact .write userId hs
  | written userId =>
    simp only
    split
    · exact .refuse _ (running _ hs (by simp))
    · rename_i db' hwritten
      rw [Decision.write_ok hwritten]
      exact .commit userId hs
  | returned result => exact stay _ hs
  | crashed => exact stay _ hs

end DecisionCall

/-- The applications are settled, each call under way has the right to decide and the pending
application that it decides, and the decided applications are those of the calls that have
committed. -/
structure InOrder (settings : Settings) (stepUpTtl : Int) (s : ApprovalState) : Prop where
  settled : Agreed s.db
  exclusive : Locks.Exclusive DecisionCall.claims s.calls
  allowed : ∀ c ∈ s.calls, c.passed = true →
    c.decision.authorise settings stepUpTtl s.db.bank = .ok ()
  selected : ∀ c ∈ s.calls, ∀ userId, c.applicant = some userId →
    ∃ r ∈ s.db.requests, r.requestId = c.decision.requestId ∧ r.userId = userId ∧
      r.status = .pending
  committed : ∀ c ∈ s.calls, c.committed = true → ∃ r ∈ s.db.requests, c.decision.Made r
  decided : ∀ r ∈ s.db.requests, r.status ≠ .pending →
    ∃ c ∈ s.calls, c.committed = true ∧ c.decision.Made r

section Steps
variable {settings : Settings} {sca : ScaService} {stepUpTtl : Int} {s : ApprovalState} {i : Nat}
  {c : DecisionCall}

/-- The rest of the application adds to the database and decides nothing. -/
theorem InOrder.database (h : InOrder settings stepUpTtl s) {db : ApprovalDb}
    (hsettled : Agreed db) (hempowers : Empowers s.db.bank db.bank)
    (hkept : ∀ r ∈ s.db.requests, r ∈ db.requests)
    (hnew : ∀ r ∈ db.requests, r.status ≠ .pending → r ∈ s.db.requests) :
    InOrder settings stepUpTtl { s with db := db } where
  settled := hsettled
  exclusive := h.exclusive
  allowed := fun c hc hpassed => hempowers.authorise (h.allowed c hc hpassed)
  selected := fun c hc userId happlicant => by
    obtain ⟨r, hr, hrest⟩ := h.selected c hc userId happlicant
    exact ⟨r, hkept r hr, hrest⟩
  committed := fun c hc hcommitted => by
    obtain ⟨r, hr, hmade⟩ := h.committed c hc hcommitted
    exact ⟨r, hkept r hr, hmade⟩
  decided := fun r hr hdecided => h.decided r (hnew r hr hdecided) hdecided

theorem InOrder.submit (h : InOrder settings stepUpTtl s) (decision : Decision) :
    InOrder settings stepUpTtl { s with calls := s.calls ++ [⟨decision, .received⟩] } where
  settled := h.settled
  exclusive := h.exclusive.append rfl
  allowed := fun c hc hpassed => by
    cases List.mem_append.mp hc with
    | inl hold => exact h.allowed c hold hpassed
    | inr hnew =>
      rw [List.mem_singleton.mp hnew] at hpassed
      cases hpassed
  selected := fun c hc userId happlicant => by
    cases List.mem_append.mp hc with
    | inl hold => exact h.selected c hold userId happlicant
    | inr hnew =>
      rw [List.mem_singleton.mp hnew] at happlicant
      cases happlicant
  committed := fun c hc hcommitted => by
    cases List.mem_append.mp hc with
    | inl hold => exact h.committed c hold hcommitted
    | inr hnew =>
      rw [List.mem_singleton.mp hnew] at hcommitted
      cases hcommitted
  decided := fun r hr hdecided => by
    obtain ⟨c, hc, hmade⟩ := h.decided r hr hdecided
    exact ⟨c, List.mem_append_left _ hc, hmade⟩

/-- A call that has not committed moves on without a write to the database. -/
theorem InOrder.move (h : InOrder settings stepUpTtl s) (hi : s.calls[i]? = some c)
    {stage : DecisionStage} (hopen : c.committed = true → stage = c.stage)
    (hclaims : ∀ id ∈ (c.become stage).claims, id ∈ c.claims ∨
      Locks.heldByOther DecisionCall.claims s.calls i id = false)
    (hpassed : (c.become stage).passed = true →
      c.decision.authorise settings stepUpTtl s.db.bank = .ok ())
    (hselected : ∀ userId, (c.become stage).applicant = some userId →
      ∃ r ∈ s.db.requests, r.requestId = c.decision.requestId ∧ r.userId = userId ∧
        r.status = .pending)
    (hcommitted : (c.become stage).committed = true → c.committed = true) :
    InOrder settings stepUpTtl (s.move i c stage s.db) where
  settled := h.settled
  exclusive := h.exclusive.set fun id hid => by
    cases hclaims id hid with
    | inl hheld => exact .inl ⟨c, hi, hheld⟩
    | inr hfree => exact .inr hfree
  allowed := fun u hu hp => by
    cases Locks.mem_set hu with
    | inl hmoved =>
      rw [hmoved] at hp ⊢
      exact hpassed hp
    | inr hother =>
      obtain ⟨j, -, hj⟩ := hother
      exact h.allowed u (List.mem_of_getElem? hj) hp
  selected := fun u hu userId happlicant => by
    cases Locks.mem_set hu with
    | inl hmoved =>
      rw [hmoved] at happlicant ⊢
      exact hselected userId happlicant
    | inr hother =>
      obtain ⟨j, -, hj⟩ := hother
      exact h.selected u (List.mem_of_getElem? hj) userId happlicant
  committed := fun u hu hdone => by
    cases Locks.mem_set hu with
    | inl hmoved =>
      rw [hmoved] at hdone ⊢
      exact h.committed c (List.mem_of_getElem? hi) (hcommitted hdone)
    | inr hother =>
      obtain ⟨j, -, hj⟩ := hother
      exact h.committed u (List.mem_of_getElem? hj) hdone
  decided := fun r hr hdecided => by
    obtain ⟨u, hu, hdone, hmade⟩ := h.decided r hr hdecided
    obtain ⟨j, hj⟩ := List.mem_iff_getElem?.mp hu
    by_cases hij : j = i
    · subst hij
      obtain rfl : c = u := Option.some.inj (hi.symm.trans hj)
      have hsame : c.become stage = c := by
        rw [hopen hdone]
        rfl
      refine ⟨c, ?_, hdone, hmade⟩
      rw [ApprovalState.move, hsame]
      exact List.mem_of_getElem? (List.getElem?_set_self (List.getElem?_eq_some_iff.mp hj).1)
    · exact ⟨u, List.mem_of_getElem? ((List.getElem?_set_ne (Ne.symm hij)).trans hj), hdone, hmade⟩

theorem Decision.written_empowers (d : Decision) (userId : Uuid) {db : ApprovalDb}
    (keyed : Keyed UserAccount.userId db.bank.users) :
    Empowers db.bank (d.written userId db).bank where
  kept := by
    intro u hu hother
    refine mem_updateWhere_of_not hu (decide_eq_false fun htarget => ?_)
    simp [UserAccount.applies, htarget.2] at hother
  keyed := (keyed_updateWhere _ Decision.outcome_userId).mpr keyed
  permissions := List.Subset.refl _

/-- The commit of a decision decides its application, and no other. -/
theorem InOrder.commit (h : InOrder settings stepUpTtl s) (hi : s.calls[i]? = some c)
    {userId : Uuid} (hstage : c.stage = .written userId) :
    InOrder settings stepUpTtl (s.move i c (.returned (.ok c.decision.status))
      (c.decision.written userId s.db)) := by
  have hmem : c ∈ s.calls := List.mem_of_getElem? hi
  have hrunning : c.committed = false := decide_eq_false (by simp [hstage])
  have happlicant : c.applicant = some userId := by simp [DecisionCall.applicant, hstage]
  have hclaim : c.decision.requestId ∈ c.claims := by simp [DecisionCall.claims, happlicant]
  obtain ⟨r, hr, hnamed, rfl, hpending⟩ := h.selected c hmem _ happlicant
  have hempowers := c.decision.written_empowers r.userId h.settled.users
  have hmade : ∀ q : AuditorRequest, q.requestId = c.decision.requestId → c.decision.Made
      (q.decide c.decision.status c.decision.status_ne_pending c.decision.principal.userId
        c.decision.givenReason c.decision.draw.databaseNow) :=
    fun q hq => ⟨hq, rfl, rfl, rfl, rfl⟩
  -- only the row of the decision is updated
  have keep : ∀ q ∈ s.db.requests, q.requestId ≠ c.decision.requestId →
      q ∈ (c.decision.written r.userId s.db).requests :=
    fun q hq hne => mem_updateWhere_of_not hq (decide_eq_false hne)
  have hmoved : c.become (.returned (.ok c.decision.status)) ∈
      s.calls.set i (c.become (.returned (.ok c.decision.status))) :=
    List.mem_of_getElem? (List.getElem?_set_self (List.getElem?_eq_some_iff.mp hi).1)
  have hdone : (c.become (.returned (.ok c.decision.status))).committed = true :=
    decide_eq_true rfl
  refine ⟨h.settled.decide hr hnamed hpending, ?_, ?_, ?_, ?_, ?_⟩
  · refine h.exclusive.set fun id hid => .inl ⟨c, hi, ?_⟩
    simp only [DecisionCall.claims, hdone, Bool.or_true, if_true, List.mem_singleton] at hid
    exact hid ▸ hclaim
  · intro u hu hpassed
    cases Locks.mem_set hu with
    | inl hsame =>
      rw [hsame]
      exact hempowers.authorise (h.allowed c hmem (by simp [DecisionCall.passed, hstage]))
    | inr hother =>
      obtain ⟨j, -, hj⟩ := hother
      exact hempowers.authorise (h.allowed u (List.mem_of_getElem? hj) hpassed)
  · intro u hu id hid
    cases Locks.mem_set hu with
    | inl hsame =>
      rw [hsame] at hid
      cases hid
    | inr hother =>
      obtain ⟨j, hne, hj⟩ := hother
      obtain ⟨q, hq, hqnamed, hrest⟩ := h.selected u (List.mem_of_getElem? hj) id hid
      refine ⟨q, keep q hq fun he => hne ?_, hqnamed, hrest⟩
      -- another call would have the same row under its lock
      refine h.exclusive j i _ ⟨u, hj, ?_⟩ ⟨c, hi, hclaim⟩
      simp [DecisionCall.claims, hid, ← he, hqnamed]
  · intro u hu hcommitted
    cases Locks.mem_set hu with
    | inl hsame =>
      rw [hsame]
      exact ⟨_, mem_updateWhere_of hr (decide_eq_true hnamed), hmade r hnamed⟩
    | inr hother =>
      obtain ⟨j, -, hj⟩ := hother
      obtain ⟨q, hq, hqmade⟩ := h.committed u (List.mem_of_getElem? hj) hcommitted
      refine ⟨q, keep q hq fun he => ?_, hqmade⟩
      have hqr : q = r := h.settled.requests.eq_of_key hq hr (he.trans hnamed.symm)
      exact u.decision.status_ne_pending (hqmade.status ▸ hqr ▸ hpending)
  · refine forall_updateWhere (fun q hq _ hdecided => ?_) fun q hq htarget _ => ?_
    · obtain ⟨u, hu, hcommitted, hqmade⟩ := h.decided q hq hdecided
      obtain ⟨j, hj⟩ := List.mem_iff_getElem?.mp hu
      have hij : i ≠ j := by
        rintro rfl
        obtain rfl : c = u := Option.some.inj (hi.symm.trans hj)
        rw [hrunning] at hcommitted
        cases hcommitted
      exact ⟨u, List.mem_of_getElem? ((List.getElem?_set_ne hij).trans hj), hcommitted, hqmade⟩
    · exact ⟨_, hmoved, hdone, hmade q (of_decide_eq_true htarget)⟩

theorem InOrder.moves (h : InOrder settings stepUpTtl s) (hi : s.calls[i]? = some c)
    {stage : DecisionStage} {db : ApprovalDb}
    (hmove : c.Moves settings stepUpTtl (Locks.heldByOther DecisionCall.locks s.calls i) s.db
      stage db) : InOrder settings stepUpTtl (s.move i c stage db) := by
  have hmem : c ∈ s.calls := List.mem_of_getElem? hi
  cases hmove with
  | wait =>
    exact h.move hi (fun _ => rfl) (fun id hid => .inl hid) (h.allowed c hmem)
      (h.selected c hmem) id
  | refuse e running =>
    refine h.move hi (fun hdone => absurd hdone (Bool.eq_false_iff.mp running)) ?_ ?_ ?_ ?_
    · exact fun id hid => by cases hid
    · exact fun hpassed => by cases hpassed
    · exact fun id hid => by cases hid
    · exact fun hdone => by cases hdone
  | authorise running allowed =>
    refine h.move hi (fun hdone => absurd hdone (Bool.eq_false_iff.mp running)) ?_
      (fun _ => allowed) ?_ ?_
    · exact fun id hid => by cases hid
    · exact fun id hid => by cases hid
    · exact fun hdone => by cases hdone
  | select r hstage found named pending free =>
    have hrunning : c.committed = false := decide_eq_false (by simp [hstage])
    refine h.move hi (fun hdone => absurd hdone (Bool.eq_false_iff.mp hrunning)) ?_ ?_ ?_ ?_
    · intro id hid
      obtain rfl := List.mem_singleton.mp hid
      refine .inr (Bool.eq_false_iff.mpr fun hheld => ?_)
      obtain ⟨u, hu, hclaimed⟩ := List.any_eq_true.mp hheld
      have hall := List.any_eq_false.mp free u hu
      simp only [DecisionCall.claims] at hclaimed
      split_ifs at hclaimed with hclaims
      · have hsame : c.decision.requestId = u.decision.requestId :=
          List.mem_singleton.mp (of_decide_eq_true hclaimed)
        cases happlicant : u.applicant with
        | some userId => simp [DecisionCall.locks, happlicant, named, hsame] at hall
        | none =>
          -- the row would show the decision of the other call
          have hdone : u.committed = true := by simpa [happlicant] using hclaims
          obtain ⟨q, hq, hmade⟩ := h.committed u (List.mem_of_mem_eraseIdx hu) hdone
          have hqr : q = r := h.settled.requests.eq_of_key hq found
            (hmade.requestId.trans (hsame.symm.trans named.symm))
          exact u.decision.status_ne_pending (hmade.status ▸ hqr ▸ pending)
      · cases hclaimed
    · exact fun _ => h.allowed c hmem (by simp [DecisionCall.passed, hstage])
    · intro userId happlicant
      obtain rfl := Option.some.inj happlicant
      exact ⟨r, found, named, rfl, pending⟩
    · exact fun hdone => by cases hdone
  | write userId hstage =>
    have hrunning : c.committed = false := decide_eq_false (by simp [hstage])
    have happlicant : c.applicant = some userId := by simp [DecisionCall.applicant, hstage]
    refine h.move hi (fun hdone => absurd hdone (Bool.eq_false_iff.mp hrunning)) ?_ ?_ ?_ ?_
    · intro id hid
      obtain rfl := List.mem_singleton.mp hid
      exact .inl (by simp [DecisionCall.claims, happlicant, DecisionCall.become])
    · exact fun _ => h.allowed c hmem (by simp [DecisionCall.passed, hstage])
    · exact fun id hid => h.selected c hmem id (happlicant.trans hid)
    · exact fun hdone => by cases hdone
  | commit userId hstage => exact h.commit hi hstage

theorem InOrder.step (e : ApprovalEvent) (h : InOrder settings stepUpTtl s) :
    InOrder settings stepUpTtl (approvalStep settings sca stepUpTtl s e) := by
  cases e with
  | register draw email =>
    simp only [approvalStep]
    split
    · rename_i db hok
      have hsettled := h.settled.register hok
      obtain ⟨huser, -, -, rfl⟩ := registerAuditor_ok hok
      refine h.database hsettled ⟨fun u hu _ => List.mem_append_left _ hu, hsettled.users,
        List.Subset.refl _⟩ (fun r hr => List.mem_append_left _ hr) fun r hr hdecided => ?_
      cases List.mem_append.mp hr with
      | inl hold => exact hold
      | inr hnew => exact absurd (by rw [List.mem_singleton.mp hnew]; rfl) hdecided
    · exact h
  | bootstrap draw email =>
    simp only [approvalStep]
    split
    · rename_i bank hok
      have hgrown := bootstrapAspisAdmin_grown hok
      exact h.database (h.settled.congr hgrown.applicants (hgrown.keyed h.settled.users))
        (hgrown.empowers h.settled.users) (fun r hr => hr) fun r hr _ => hr
    · exact h
  | submit decision => exact h.submit decision
  | advance i =>
    simp only [approvalStep]
    split
    · exact h
    · rename_i c hi
      exact h.moves hi (c.advance_moves settings stepUpTtl _ _)
  | crash i =>
    simp only [approvalStep]
    split
    · exact h
    · rename_i c hi
      split
      · exact h
      · rename_i hrunning
        have hopen : c.committed = false := decide_eq_false fun he => hrunning _ he
        refine h.move hi (fun hdone => absurd hdone (Bool.eq_false_iff.mp hopen)) ?_ ?_ ?_ ?_
        · exact fun id hid => by cases hid
        · exact fun hpassed => by cases hpassed
        · exact fun id hid => by cases hid
        · exact fun hdone => by cases hdone
  | bank e =>
    simp only [approvalStep]
    split_ifs with hrecords
    · exact h
    · have hgrown : Grown s.db.bank (bankStep settings sca s.db.bank e) :=
        bankStep_grown (Bool.eq_false_iff.mpr hrecords)
      exact h.database (h.settled.congr hgrown.applicants (hgrown.keyed h.settled.users))
        (hgrown.empowers h.settled.users) (fun r hr => hr) fun r hr _ => hr

/-- An application stays as it was made, and once it is decided it stays as it is. -/
def Stands (s s' : ApprovalState) : Prop :=
  ∀ r ∈ s.db.requests, ∃ r' ∈ s'.db.requests, r'.requestId = r.requestId ∧
    r'.userId = r.userId ∧ r'.requestedAt = r.requestedAt ∧ (r.status ≠ .pending → r' = r)

theorem Stands.of_subset {s' : ApprovalState} (h : s.db.requests ⊆ s'.db.requests) :
    Stands s s' :=
  fun r hr => ⟨r, h hr, rfl, rfl, rfl, fun _ => rfl⟩

theorem Stands.trans {s₁ s₂ s₃ : ApprovalState} (h₁ : Stands s₁ s₂) (h₂ : Stands s₂ s₃) :
    Stands s₁ s₃ := by
  intro r hr
  obtain ⟨r', hr', hid, huser, hat, hfinal⟩ := h₁ r hr
  obtain ⟨r'', hr'', hid', huser', hat', hfinal'⟩ := h₂ r' hr'
  refine ⟨r'', hr'', hid'.trans hid, huser'.trans huser, hat'.trans hat, fun hdecided => ?_⟩
  obtain rfl := hfinal hdecided
  exact hfinal' hdecided

theorem InOrder.stands (h : InOrder settings stepUpTtl s) (e : ApprovalEvent) :
    Stands s (approvalStep settings sca stepUpTtl s e) := by
  have same : Stands s s := Stands.of_subset (List.Subset.refl _)
  cases e with
  | register draw email =>
    simp only [approvalStep]
    split
    · rename_i db hok
      obtain ⟨-, -, -, rfl⟩ := registerAuditor_ok hok
      exact Stands.of_subset (List.subset_append_left _ _)
    · exact same
  | advance i =>
    simp only [approvalStep]
    split
    · exact same
    · rename_i c hi
      have hmove := c.advance_moves settings stepUpTtl
        (Locks.heldByOther DecisionCall.locks s.calls i) s.db
      generalize (c.advance settings stepUpTtl
        (Locks.heldByOther DecisionCall.locks s.calls i) s.db).1 = stage at hmove
      generalize (c.advance settings stepUpTtl
        (Locks.heldByOther DecisionCall.locks s.calls i) s.db).2 = db at hmove
      cases hmove with
      | commit userId hstage =>
        have happlicant : c.applicant = some userId := by
          simp [DecisionCall.applicant, hstage]
        obtain ⟨q, hq, hnamed, -, hpending⟩ :=
          h.selected c (List.mem_of_getElem? hi) _ happlicant
        intro r hr
        by_cases hr' : r.requestId = c.decision.requestId
        · refine ⟨_, mem_updateWhere_of hr (decide_eq_true hr'), rfl, rfl, rfl, fun hdecided => ?_⟩
          have hrq : r = q := h.settled.requests.eq_of_key hr hq (hr'.trans hnamed.symm)
          exact absurd (hrq ▸ hpending) hdecided
        · exact ⟨r, mem_updateWhere_of_not hr (decide_eq_false hr'), rfl, rfl, rfl, fun _ => rfl⟩
      | _ => exact same
  | crash i =>
    simp only [approvalStep]
    split
    · exact same
    · split <;> exact same
  | bootstrap draw email =>
    simp only [approvalStep]
    split <;> exact same
  | submit decision => exact same
  | bank e =>
    simp only [approvalStep]
    split <;> exact same
end Steps

theorem InOrder.initial (settings : Settings) (stepUpTtl : Int) :
    InOrder settings stepUpTtl ApprovalState.initial := by
  refine ⟨⟨keyed_nil, keyed_nil, keyed_nil, ?_, ?_, ?_, fun _ _ => rfl⟩, Locks.exclusive_nil,
    ?_, ?_, ?_, ?_⟩ <;> exact fun _ hmem => absurd hmem List.not_mem_nil

section Runs
variable (settings : Settings) (sca : ScaService) (stepUpTtl : Int)

theorem inOrder_run (es : List ApprovalEvent) :
    InOrder settings stepUpTtl
      (Runs.run (approvalStep settings sca stepUpTtl) ApprovalState.initial es) :=
  Runs.run_invariant (fun _ e h => h.step e) (InOrder.initial settings stepUpTtl) es

/-- In every run, however the decisions interleave and wherever they are lost: the accounts of the
applicants, their applications and the audit records agree, an application is decided exactly when
some call has decided it, that is one call alone, and the row shows its decision. -/
theorem applications_decided_once (es : List ApprovalEvent) :
    let s := Runs.run (approvalStep settings sca stepUpTtl) ApprovalState.initial es
    Agreed s.db ∧
    (∀ r ∈ s.db.requests, r.status ≠ .pending →
      ∃! i : Nat, ∃ c : DecisionCall, s.calls[i]? = some c ∧ c.committed = true ∧
        c.decision.requestId = r.requestId) ∧
    ∀ c ∈ s.calls, c.committed = true → ∃ r ∈ s.db.requests, c.decision.Made r := by
  intro s
  have h : InOrder settings stepUpTtl s := inOrder_run settings sca stepUpTtl es
  refine ⟨h.settled, fun r hr hdecided => ?_, h.committed⟩
  obtain ⟨c, hc, hcommitted, hmade⟩ := h.decided r hr hdecided
  obtain ⟨i, hi⟩ := List.mem_iff_getElem?.mp hc
  refine ⟨i, ⟨c, hi, hcommitted, hmade.requestId.symm⟩, fun j hj => ?_⟩
  obtain ⟨u, hu, hdone, hnamed⟩ := hj
  refine h.exclusive j i r.requestId ⟨u, hu, ?_⟩ ⟨c, hi, ?_⟩
  · simp [DecisionCall.claims, hdone, hnamed]
  · simp [DecisionCall.claims, hcommitted, hmade.requestId]

/-- Nobody becomes an auditor but by a decision to approve, of a call that had a fresh second
factor and whose caller is an administrator and may decide on auditors; and a rejection has a
reason. -/
theorem auditors_approved (es : List ApprovalEvent) :
    let s := Runs.run (approvalStep settings sca stepUpTtl) ApprovalState.initial es
    (∀ u ∈ s.db.bank.users, u.role = .aspisAuditor → u.status = .active ∧
      ∃ r ∈ s.db.requests, r.userId = u.userId ∧ ∃ c ∈ s.calls, c.decision.Made r ∧
        c.decision.approve = true ∧
        requireRoles [.bankAdmin, .aspisAdmin] c.decision.principal s.db.bank = .ok () ∧
        requireRecentMfa stepUpTtl c.decision.draw.now c.decision.mfaAt = .ok () ∧
        requireAdminScope settings c.decision.principal .aspisAuditors s.db.bank = .ok ()) ∧
    ∀ r ∈ s.db.requests, r.status = .rejected → ∃ reason, r.decisionReason = some reason ∧
      reason ≠ "" := by
  intro s
  have h : InOrder settings stepUpTtl s := inOrder_run settings sca stepUpTtl es
  have hallowed : ∀ c ∈ s.calls, c.committed = true →
      c.decision.authorise settings stepUpTtl s.db.bank = .ok () := by
    intro c hc hcommitted
    refine h.allowed c hc ?_
    have hstage : c.stage = .returned (.ok c.decision.status) := of_decide_eq_true hcommitted
    simp [DecisionCall.passed, hstage, hcommitted]
  constructor
  · intro u hu hrole
    obtain ⟨r, hr, hsame⟩ := h.settled.applied u hu (by simp [UserAccount.applies, hrole])
    obtain ⟨v, hv, hid, hfits⟩ := h.settled.accounts r hr
    obtain rfl : v = u := h.settled.users.eq_of_key hv hu (hid.trans hsame)
    have happroved : r.status = .approved ∧ v.status = .active := by
      unfold AuditorRequest.Fits at hfits
      cases hs : r.status <;> simp_all
    obtain ⟨c, hc, hcommitted, hmade⟩ := h.decided r hr (by simp [happroved.1])
    have happrove : c.decision.approve = true := by
      have hstatus : c.decision.status = .approved := hmade.status.symm.trans happroved.1
      unfold Decision.status at hstatus
      split_ifs at hstatus with happrove
      exact happrove
    obtain ⟨_, hroles, hrest⟩ := bind_eq_ok.mp (hallowed c hc hcommitted)
    obtain ⟨_, hmfa, hrest⟩ := bind_eq_ok.mp hrest
    obtain ⟨_, hscope, -⟩ := bind_eq_ok.mp hrest
    exact ⟨happroved.2, r, hr, hsame, c, hc, hmade, happrove, hroles, hmfa, hscope⟩
  · intro r hr hrejected
    obtain ⟨c, hc, hcommitted, hmade⟩ := h.decided r hr (by simp [hrejected])
    have hreject : c.decision.approve = false := by
      have hstatus : c.decision.status = .rejected := hmade.status.symm.trans hrejected
      unfold Decision.status at hstatus
      split_ifs at hstatus with happrove
      exact Bool.eq_false_iff.mpr happrove
    obtain ⟨_, -, hrest⟩ := bind_eq_ok.mp (hallowed c hc hcommitted)
    obtain ⟨_, -, hrest⟩ := bind_eq_ok.mp hrest
    obtain ⟨_, -, hreason⟩ := bind_eq_ok.mp hrest
    have hgiven : Text.strip c.decision.reason ≠ "" := by
      intro hempty
      simp [hreject, hempty] at hreason
    exact ⟨_, hmade.reason.trans (if_neg hgiven), hgiven⟩

/-- A decision is final: whatever follows a run, an application stays as it was made, and a
decided one stays as it was decided. -/
theorem decisions_final (es later : List ApprovalEvent) :
    Stands (Runs.run (approvalStep settings sca stepUpTtl) ApprovalState.initial es)
      (Runs.run (approvalStep settings sca stepUpTtl) ApprovalState.initial (es ++ later)) := by
  rw [Runs.run_append]
  exact Runs.run_rel Stands (fun _ => Stands.of_subset (List.Subset.refl _))
    (fun h₁ h₂ => h₁.trans h₂) (fun s e (h : InOrder settings stepUpTtl s) => h.stands e)
    (fun _ e h => h.step e) (inOrder_run settings sca stepUpTtl es) later

end Runs

end Bantam
