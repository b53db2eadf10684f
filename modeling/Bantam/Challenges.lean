import Bantam.Writes

/-! What an operation leaves as it is, statement by statement. The challenges are written by
their creation alone, and the status of an account by its freeze and its release. -/
namespace Bantam
open Tables
variable {α : Type} {g : Db → α} {settings : Settings} {sca : ScaService} {db db' : Db}

/-- A statement that passes leaves this part of the database as it was. -/
def Keeps (g : Db → α) (f : Db → Except Failure Db) : Prop :=
  ∀ db db', f db = .ok db' → g db' = g db

namespace Keeps
variable {f k : Db → Except Failure Db}

theorem bind (hf : Keeps g f) (hk : Keeps g k) : Keeps g fun db => f db >>= k := by
  intro db db' h
  obtain ⟨mid, hm, ht⟩ := bind_eq_ok.mp h
  rw [hk mid db' ht, hf db mid hm]

/-- A check before the statement changes nothing. -/
theorem guarded {β : Type} {check : Db → Except Failure β} {k : β → Db → Except Failure Db}
    (hk : ∀ b, Keeps g (k b)) : Keeps g fun db => check db >>= fun b => k b db := by
  intro db db' h
  obtain ⟨b, -, ht⟩ := bind_eq_ok.mp h
  exact hk b db db' ht

theorem onConflictDoNothing (hf : Keeps g f) : Keeps g (Db.onConflictDoNothing f) := by
  intro db db' h
  cases onConflictDoNothing_ok h with
  | inl hi => exact hf db db' hi
  | inr hs => rw [hs.2]

theorem insertEach {ρ : Type} {insert : ρ → Db → Except Failure Db}
    (single : ∀ row, Keeps g (insert row)) (rows : List ρ) : Keeps g (insertEach insert rows) := by
  induction rows with
  | nil =>
    intro db db' h
    cases h
    rfl
  | cons row rows ih => exact (single row).onConflictDoNothing.bind ih

section Statements

theorem insertCustomer (hg : ∀ (db : Db) rows, g { db with customers := rows } = g db)
    (row : Customer) : Keeps g (Db.insertCustomer row) := by
  intro db db' h
  simp only [Db.insertCustomer, bind_eq_ok, pure, Except.pure, Except.ok.injEq] at h
  obtain ⟨_, -, _, -, rfl⟩ := h
  exact hg db _

theorem insertUser (hg : ∀ (db : Db) rows, g { db with users := rows } = g db)
    (row : UserAccount) : Keeps g (Db.insertUser row) := by
  intro db db' h
  simp only [Db.insertUser, bind_eq_ok, pure, Except.pure, Except.ok.injEq] at h
  obtain ⟨_, -, _, -, _, -, _, -, rfl⟩ := h
  exact hg db _

theorem insertPermission (hg : ∀ (db : Db) rows, g { db with permissions := rows } = g db)
    (row : AdminPermission) : Keeps g (Db.insertPermission row) := by
  intro db db' h
  simp only [Db.insertPermission, bind_eq_ok, pure, Except.pure, Except.ok.injEq] at h
  obtain ⟨_, -, _, -, rfl⟩ := h
  exact hg db _

theorem insertOutbox (hg : ∀ (db : Db) rows, g { db with outbox := rows } = g db)
    (row : OutboxRow) : Keeps g (Db.insertOutbox row) := by
  intro db db' h
  rw [(Db.insertOutbox_ok.mp h).2]
  exact hg db _

theorem insertAudit (hg : ∀ (db : Db) rows, g { db with audit := rows } = g db)
    (row : AuditEvent) : Keeps g (Db.insertAudit row) := by
  intro db db' h
  rw [(Db.insertAudit_ok.mp h).2]
  exact hg db _

theorem insertRiskAlert (hg : ∀ (db : Db) rows, g { db with riskAlerts := rows } = g db)
    (row : RiskAlert) : Keeps g (Db.insertRiskAlert row) := by
  intro db db' h
  simp only [Db.insertRiskAlert, bind_eq_ok, pure, Except.pure, Except.ok.injEq] at h
  obtain ⟨_, -, _, -, _, -, rfl⟩ := h
  exact hg db _

theorem insertAccount (hg : ∀ (db : Db) rows, g { db with accounts := rows } = g db)
    (row : BankAccount) : Keeps g (Db.insertAccount row) := by
  intro db db' h
  rw [(insertAccount_ok h).2]
  exact hg db _

theorem insertBalance (hg : ∀ (db : Db) rows, g { db with balances := rows } = g db)
    (row : AccountBalance) : Keeps g (Db.insertBalance row) := by
  intro db db' h
  rw [(insertBalance_ok h).2.2]
  exact hg db _

theorem updateKyc (hg : ∀ (db : Db) rows, g { db with customers := rows } = g db)
    (target : Uuid) (allowed : List KycStatus) (next : KycStatus) (message : String) :
    Keeps g (updateKyc target allowed next message) := by
  intro db db' h
  simp only [Bantam.updateKyc] at h
  split at h
  · cases h
    exact hg db _
  · cases h

theorem updateStatus (hg : ∀ (db : Db) rows, g { db with accounts := rows } = g db)
    (target : Uuid) (status : AccountStatus) : Keeps g (updateStatus target status) := by
  intro db db' h
  simp only [Bantam.updateStatus] at h
  split at h
  · cases h
    exact hg db _
  · cases h
end Statements
end Keeps

/-- The operation that creates a challenge, or another. -/
def Operation.creates : Operation → Bool
  | .createScaChallenge .. => true
  | _ => false

section Administrators
variable (hg : ∀ (db : Db) rows, g { db with permissions := rows } = g db)
include hg

theorem Keeps.grantPermissions (userId : Uuid) (scopes : List AdminScope) :
    Keeps g (grantPermissions userId scopes) := by
  induction scopes with
  | nil =>
    intro db db' h
    cases h
    rfl
  | cons scope scopes ih => exact (Keeps.insertPermission hg _).bind ih

theorem Keeps.grantBankAdminPermissions (userId : Uuid) (scopes : List AdminScope) :
    Keeps g (grantBankAdminPermissions userId scopes) := by
  induction scopes with
  | nil =>
    intro db db' h
    cases h
    rfl
  | cons scope scopes ih => exact (Keeps.insertPermission hg _).onConflictDoNothing.bind ih
end Administrators

theorem Keeps.insertAdministrator (hg : ∀ (db : Db) rows, g { db with users := rows } = g db)
    (userId : Uuid) (email : String) : Keeps g (insertAdministrator userId email) :=
  Keeps.insertUser hg _

/-- Only the creation of a challenge writes to the table. -/
theorem Operation.keeps_challenges {o : Operation} (ho : o.creates = false) :
    Keeps Db.challenges (o.perform settings sca) := by
  have audit : ∀ row, Keeps Db.challenges (Db.insertAudit row) :=
    Keeps.insertAudit fun _ _ => rfl
  have outbox : ∀ row, Keeps Db.challenges (Db.insertOutbox row) :=
    Keeps.insertOutbox fun _ _ => rfl
  cases o with
  | register draw email =>
    exact (Keeps.insertCustomer (fun _ _ => rfl) _).bind
      ((Keeps.insertUser (fun _ _ => rfl) _).bind ((outbox _).bind (audit _)))
  | adminCreateUser draw principal email permissions =>
    exact Keeps.guarded fun _ => Keeps.guarded fun _ =>
      (Keeps.insertAdministrator (fun _ _ => rfl) _ _).bind
        ((Keeps.grantPermissions (fun _ _ => rfl) _ _).bind (audit _))
  | bootstrapBankAdmin draw email =>
    intro db db' h
    simp only [perform, Bantam.bootstrapBankAdmin] at h
    split at h
    · split at h
      · cases h
      · exact Keeps.grantBankAdminPermissions (fun _ _ => rfl) _ _ db db' h
    · exact (Keeps.insertAdministrator (fun _ _ => rfl) _ _).bind
        ((Keeps.grantBankAdminPermissions (fun _ _ => rfl) _ _).bind (audit _)) db db' h
  | submitKyc draw principal =>
    refine Keeps.guarded fun _ => ?_
    intro db db' h
    cases hc : principal.customerId with
    | none => simp [hc] at h
    | some customerId =>
      rw [hc] at h
      exact (Keeps.updateKyc (fun _ _ => rfl) _ _ _ _).bind (audit _) db db' h
  | adminDecideKyc draw principal customerId approve reason =>
    exact Keeps.guarded fun _ => Keeps.guarded fun _ =>
      (Keeps.updateKyc (fun _ _ => rfl) _ _ _ _).bind ((outbox _).bind (audit _))
  | openAccount draw principal currency =>
    refine Keeps.guarded fun _ => ?_
    intro db db' h
    simp only at h
    split at h
    · cases h
    · split_ifs at h
      split at h
      · cases h
      · split_ifs at h
        exact ((Keeps.insertAccount (fun _ _ => rfl) _).bind
          (Keeps.insertBalance (fun _ _ => rfl) _)).bind ((outbox _).bind (audit _)) db db' h
  | operatorSetAccountStatus draw principal accountId freeze reason =>
    exact Keeps.guarded fun _ => Keeps.guarded fun _ =>
      (Keeps.updateStatus (fun _ _ => rfl) _ _).bind ((outbox _).bind (audit _))
  | createScaChallenge => cases ho
  | createRiskAlert draw threshold transactionId source destination amountMinor =>
    intro db db' h
    simp only [perform, Bantam.createRiskAlert] at h
    split_ifs at h
    · cases h
      rfl
    · cases h
      rfl
    · exact (Keeps.insertRiskAlert (fun _ _ => rfl) _).bind ((outbox _).bind (audit _)) db db' h
  | seedRows now =>
    exact (Keeps.insertEach (Keeps.insertCustomer fun _ _ => rfl) _).bind
      ((Keeps.insertEach (Keeps.insertUser fun _ _ => rfl) _).bind
        ((Keeps.grantBankAdminPermissions (fun _ _ => rfl) _ _).bind
          ((Keeps.insertEach (Keeps.insertAccount fun _ _ => rfl) _).bind
            (Keeps.insertEach (Keeps.insertBalance fun _ _ => rfl) _))))
  | recordAudit event => exact audit event

/-- The row that a creation stores. -/
def createdChallenge (sca : ScaService) (draw : Draw) (principal : Principal) (code : String)
    (source destination : Uuid) (amountMinor : Int) (amountPos : 0 < amountMinor) :
    ScaChallenge where
  challengeId := draw.rowId
  userId := principal.userId
  sourceAccountId := source
  destinationAccountId := destination
  amountMinor := amountMinor
  codeHash := sca.hash draw.rowId principal.userId source destination amountMinor code
  status := .pending
  expiresAt := draw.now + sca.ttl
  consumedAt := none
  amountPos := amountPos

/-- A creation stores one new challenge, or none where none is required. -/
theorem createScaChallenge_ok {draw : Draw} {principal : Principal} {code : String}
    {source destination : Uuid} {amountMinor : Int}
    (h : createScaChallenge sca draw principal code source destination amountMinor db = .ok db') :
    db'.challenges = db.challenges ∨
    ∃ amountPos, draw.rowId ∉ db.challenges.map ScaChallenge.challengeId ∧
      db'.challenges = db.challenges ++
        [createdChallenge sca draw principal code source destination amountMinor amountPos] := by
  simp only [createScaChallenge, bind_eq_ok] at h
  obtain ⟨_, -, ⟨required, mid⟩, hcreate, haudit⟩ := h
  have hmid : db'.challenges = mid.challenges := by
    split at haudit
    · rename_i d ha
      cases haudit
      exact Keeps.insertAudit (g := Db.challenges) (fun _ _ => rfl) _ mid db' ha
    · cases haudit
      rfl
  rw [hmid]
  unfold ScaService.create at hcreate
  split at hcreate
  · cases hcreate
  · split_ifs at hcreate with hpos
    · cases hcreate
      exact .inl rfl
    · simp only [Db.insertChallenge, bind_eq_ok, require_eq_ok, pure, Except.pure,
        Except.ok.injEq, Prod.mk.injEq] at hcreate
      obtain ⟨d, ⟨_, -, _, hid, _, -, _, -, _, -, hd⟩, -, rfl⟩ := hcreate
      exact .inr ⟨by omega, hid, by rw [← hd]; rfl⟩
end Bantam
